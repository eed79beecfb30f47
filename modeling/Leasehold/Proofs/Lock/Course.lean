import Leasehold.Lock.Guard
import Leasehold.Proofs.Lock.Lease
import Leasehold.Proofs.Sharing.Procedure

/-!
# Operations call by call

Each operation of a claimant makes at most four calls, all of them about the lock
record. For each there is a relation that lists every way in which it can go: the
calls, their replies, and what is made of them. Whatever else is known of an
operation follows from its list.
-/

namespace Leasehold

open LockRecord

/-! ## Single calls -/

namespace LockProgram

variable {α : Type} {allows : StoreCall → Prop} {ends : α → History → Prop} {history : History}
  {key : String} {owner : Pid} {ttl : Duration}

/-- Programs that make only certain calls make only calls of any wider kind. -/
theorem keeps_of_allows {allows' : StoreCall → Prop} (wider : ∀ call, allows call → allows' call)
    {program : LockProgram α} (kept : program.Keeps (calls allows) ends history) :
    program.Keeps (calls allows') ends history := by
  apply kept.pull id
  · rintro (call | event) state allowed
    · exact wider call allowed
    · trivial
  · rintro (call | event) reply state later leads
    · exact leads
    · exact leads

@[simp]
theorem keeps_note_bind {event : LogEvent} {next : Unit → LockProgram α} :
    (note event >>= next).Keeps (calls allows) ends history ↔
      (next ()).Keeps (calls allows) ends history := by
  constructor
  · intro kept
    exact kept.2 () _ rfl
  · intro kept
    exact ⟨trivial, fun _ _ same => same ▸ kept⟩

@[simp]
theorem keeps_ask_bind {call : StoreCall} {next : call.Reply → LockProgram α} :
    (ask call >>= next).Keeps (calls allows) ends history ↔
      allows call ∧ ∀ reply time, (next reply).Keeps (calls allows) ends
        (⟨call, reply, time⟩ :: history) := by
  apply and_congr_right
  intro _
  constructor
  · intro kept reply time
    exact kept reply _ ⟨time, rfl⟩
  · rintro kept reply _ ⟨time, rfl⟩
    exact kept reply time

@[simp]
theorem keeps_createIfAbsent_bind {next : Except Failure Bool → LockProgram α} :
    (createIfAbsent key owner ttl >>= next).Keeps (calls allows) ends history ↔
      allows (.create key (ownedBy owner) ttl) ∧ ∀ reply time,
        (next reply).Keeps (calls allows) ends
          (⟨.create key (ownedBy owner) ttl, reply, time⟩ :: history) :=
  keeps_ask_bind

@[simp]
theorem keeps_refreshExpiry_bind {next : Except Failure Bool → LockProgram α} :
    (refreshExpiry key owner ttl >>= next).Keeps (calls allows) ends history ↔
      allows (.expire key ttl (isOwnedBy owner)) ∧ ∀ reply time,
        (next reply).Keeps (calls allows) ends
          (⟨.expire key ttl (isOwnedBy owner), reply, time⟩ :: history) :=
  keeps_ask_bind

@[simp]
theorem keeps_setExpiry_bind {next : Except Failure Bool → LockProgram α} :
    (setExpiry key ttl >>= next).Keeps (calls allows) ends history ↔
      allows (.expire key ttl .noExpiry) ∧ ∀ reply time,
        (next reply).Keeps (calls allows) ends
          (⟨.expire key ttl .noExpiry, reply, time⟩ :: history) :=
  keeps_ask_bind

@[simp]
theorem keeps_delete_bind {next : Except Failure Bool → LockProgram α} :
    (LockRecord.delete key owner >>= next).Keeps (calls allows) ends history ↔
      allows (.delete key (isOwnedBy owner)) ∧ ∀ reply time,
        (next reply).Keeps (calls allows) ends
          (⟨.delete key (isOwnedBy owner), reply, time⟩ :: history) :=
  keeps_ask_bind

@[simp]
theorem keeps_readOwner_bind {next : Except Failure (Option (Option Pid)) → LockProgram α} :
    (readOwner key >>= next).Keeps (calls allows) ends history ↔
      allows (.fetch key) ∧ ∀ (reply : Except Failure (Option Fields)) time,
        (next (reply.map fun fields => fields.map ownerOf?)).Keeps (calls allows) ends
          (⟨.fetch key, reply, time⟩ :: history) := by
  rw [readOwner, bind_assoc]
  exact keeps_ask_bind

@[simp]
theorem keeps_hasExpiry_bind {next : Except Failure Bool → LockProgram α} :
    (hasExpiry key >>= next).Keeps (calls allows) ends history ↔
      allows (.lifetime key) ∧ ∀ (reply : Except Failure Lifetime) time,
        (next (reply.map Lifetime.hasExpiry)).Keeps (calls allows) ends
          (⟨.lifetime key, reply, time⟩ :: history) := by
  rw [hasExpiry, bind_assoc]
  exact keeps_ask_bind

end LockProgram

/-! ## What is asked -/

namespace StoreCall

/-- The calls of an attempt to take the lock. -/
inductive Contends (key : String) (owner : Pid) (ttl : Duration) : StoreCall → Prop
  | claim : Contends key owner ttl (.create key (ownedBy owner) ttl)
  | inquire : Contends key owner ttl (.lifetime key)
  | look : Contends key owner ttl (.fetch key)
  | arm : Contends key owner ttl (.expire key ttl .noExpiry)

/-- The calls that take the lock and keep it. -/
inductive Sustains (key : String) (owner : Pid) (ttl : Duration) : StoreCall → Prop
  | contend {call : StoreCall} (contends : call.Contends key owner ttl) :
      Sustains key owner ttl call
  | refresh : Sustains key owner ttl (.expire key ttl (isOwnedBy owner))

/-- The calls that keep the lock: they read the record, extend it, or make it anew. -/
inductive Renews (key : String) (owner : Pid) (ttl : Duration) : StoreCall → Prop
  | look : Renews key owner ttl (.fetch key)
  | refresh : Renews key owner ttl (.expire key ttl (isOwnedBy owner))
  | claim : Renews key owner ttl (.create key (ownedBy owner) ttl)

/-- The call that gives the lock up. -/
inductive Yields (key : String) (owner : Pid) : StoreCall → Prop
  | delete : Yields key owner (.delete key (isOwnedBy owner))

/-- The calls of all operations on the lock. -/
inductive Concerns (key : String) (owner : Pid) (ttl : Duration) : StoreCall → Prop
  | sustain {call : StoreCall} (sustains : call.Sustains key owner ttl) :
      Concerns key owner ttl call
  | delete : Concerns key owner ttl (.delete key (isOwnedBy owner))

variable {key other : String} {owner : Pid} {ttl : Duration} {call : StoreCall}

theorem Sustains.actsFor (sustains : call.Sustains key owner ttl) : call.ActsFor key owner := by
  cases sustains with
  | contend contends =>
      cases contends with
      | claim => exact .claim ttl
      | inquire => exact .spare trivial
      | look => exact .spare trivial
      | arm => exact .arm ttl
  | refresh => exact .refresh ttl

theorem Renews.sustains (renews : call.Renews key owner ttl) : call.Sustains key owner ttl := by
  cases renews with
  | look => exact .contend .look
  | refresh => exact .refresh
  | claim => exact .contend .claim

theorem Yields.concerns (yields : call.Yields key owner) : call.Concerns key owner ttl := by
  cases yields with
  | delete => exact .delete

theorem Concerns.actsFor (concerns : call.Concerns key owner ttl) : call.ActsFor key owner := by
  cases concerns with
  | sustain sustains => exact sustains.actsFor
  | delete => exact .delete

/-- Operations on the lock leave the records under other keys alone. -/
theorem Concerns.spares (concerns : call.Concerns key owner ttl) (different : key ≠ other) :
    call.Spares other := by
  cases concerns with
  | sustain sustains =>
      cases sustains with
      | contend contends => cases contends <;> first | exact different | trivial
      | refresh => exact different
  | delete => exact different

end StoreCall

namespace Claimant

/-! ## How an operation goes -/

/-- Every way in which an attempt to take the lock can go, with the calls made since
`base`. -/
inductive Attempted (c : Claimant) (base : History) :
    Except Failure Unit × Claimant → History → Prop
  | held (held : c.standing = .heldBySelf) : Attempted c base (.ok (), c) base
  | created (time : Instant) :
      Attempted c base (.ok (), { c with standing := .heldBySelf })
        (⟨.create c.key (ownedBy c.pid) c.ttl, .ok true, time⟩ :: base)
  | taken {lifetime : Lifetime} (expires : lifetime.hasExpiry = true) (fields : Option Fields)
      (first second third : Instant) :
      Attempted c base (.error (.lockUnavailable (fields.bind ownerOf?)),
          { c with standing := .heldByOther (fields.bind ownerOf?) })
        (⟨.fetch c.key, .ok fields, third⟩ :: ⟨.lifetime c.key, .ok lifetime, second⟩ ::
          ⟨.create c.key (ownedBy c.pid) c.ttl, .ok false, first⟩ :: base)
  | armed {lifetime : Lifetime} (lasts : lifetime.hasExpiry = false)
      (first second third : Instant) :
      Attempted c base (.error .staleLock, { c with standing := .stale })
        (⟨.expire c.key c.ttl .noExpiry, .ok true, third⟩ ::
          ⟨.lifetime c.key, .ok lifetime, second⟩ ::
          ⟨.create c.key (ownedBy c.pid) c.ttl, .ok false, first⟩ :: base)
  | changed {lifetime : Lifetime} (lasts : lifetime.hasExpiry = false)
      (first second third : Instant) :
      Attempted c base (.error (.lockUnavailable none), { c with standing := .heldByOther none })
        (⟨.expire c.key c.ttl .noExpiry, .ok false, third⟩ ::
          ⟨.lifetime c.key, .ok lifetime, second⟩ ::
          ⟨.create c.key (ownedBy c.pid) c.ttl, .ok false, first⟩ :: base)
  | failed (without : c.standing ≠ .heldBySelf) (call : StoreCall) (failure : Failure)
      (time : Instant) {earlier : History} (quiet : History.Quiet c.key base earlier) :
      Attempted c base (.error failure, c) (⟨call, .error failure, time⟩ :: earlier)

/-- The calls of a renewal after which there is no record of the claimant: it finds no
record, or the record that it has found to be its own is gone or another's by the time it
is to be extended. -/
inductive Lapsed (c : Claimant) (base : History) : History → Prop
  | missing (time : Instant) : Lapsed c base (⟨.fetch c.key, .ok none, time⟩ :: base)
  | replaced {fields : Fields} (own : ownerOf? fields = some c.pid) (first second : Instant) :
      Lapsed c base (⟨.expire c.key c.ttl (isOwnedBy c.pid), .ok false, second⟩ ::
        ⟨.fetch c.key, .ok (some fields), first⟩ :: base)

/-- Every way in which a renewal can go, with the calls made since `base`. -/
inductive Renewing (c : Claimant) (base : History) :
    Except Failure Renewal × Claimant → History → Prop
  | notHeld (without : c.standing = .free ∨ c.standing = .stale) :
      Renewing c base (.ok .notHeld, c) base
  | known {owner : Option Pid} (known : c.standing = .heldByOther owner) :
      Renewing c base (.ok (.lost owner), c) base
  | extended (held : c.standing = .heldBySelf) {fields : Fields}
      (own : ownerOf? fields = some c.pid) (first second : Instant) :
      Renewing c base (.ok .extended, c)
        (⟨.expire c.key c.ttl (isOwnedBy c.pid), .ok true, second⟩ ::
          ⟨.fetch c.key, .ok (some fields), first⟩ :: base)
  | foreign (held : c.standing = .heldBySelf) {fields : Fields}
      (others : ownerOf? fields ≠ some c.pid) (time : Instant) :
      Renewing c base (.ok (.lost (ownerOf? fields)),
          { c with standing := .heldByOther (ownerOf? fields) })
        (⟨.fetch c.key, .ok (some fields), time⟩ :: base)
  | reacquired (held : c.standing = .heldBySelf) {earlier : History}
      (lapsed : c.Lapsed base earlier) (time : Instant) :
      Renewing c base (.ok .reacquired, c)
        (⟨.create c.key (ownedBy c.pid) c.ttl, .ok true, time⟩ :: earlier)
  | overtaken (held : c.standing = .heldBySelf) {earlier : History}
      (lapsed : c.Lapsed base earlier) (fields : Option Fields) (first second : Instant) :
      Renewing c base (.ok (.lost (fields.bind ownerOf?)),
          { c with standing := .heldByOther (fields.bind ownerOf?) })
        (⟨.fetch c.key, .ok fields, second⟩ ::
          ⟨.create c.key (ownedBy c.pid) c.ttl, .ok false, first⟩ :: earlier)
  | failed (held : c.standing = .heldBySelf) (call : StoreCall) (failure : Failure)
      (time : Instant) {earlier : History} (quiet : History.Quiet c.key base earlier) :
      Renewing c base (.error failure, c) (⟨call, .error failure, time⟩ :: earlier)

/-- Every way in which a release can go, with the calls made since `base`. -/
inductive Released (c : Claimant) (base : History) :
    Except Failure Bool × Claimant → History → Prop
  | skipped (without : c.standing ≠ .heldBySelf) : Released c base (.ok false, c) base
  | deleted (held : c.standing = .heldBySelf) (gone : Bool) (time : Instant) :
      Released c base (.ok gone, { c with standing := .free })
        (⟨.delete c.key (isOwnedBy c.pid), .ok gone, time⟩ :: base)
  | failed (held : c.standing = .heldBySelf) (failure : Failure) (time : Instant) :
      Released c base (.error failure, c)
        (⟨.delete c.key (isOwnedBy c.pid), .error failure, time⟩ :: base)

theorem Lapsed.quiet {c : Claimant} {base later : History} (lapsed : c.Lapsed base later) :
    History.Quiet c.key base later := by
  cases lapsed with
  | missing time => exact .cons rfl rfl .refl
  | replaced own first second => exact .cons rfl rfl (.cons rfl rfl .refl)

/-! ## The operations go so -/

variable (c : Claimant) (base : History)

theorem acquire_attempted :
    c.acquire.Keeps (LockProgram.calls (StoreCall.Contends c.key c.pid c.ttl))
      (c.Attempted base) base := by
  rw [acquire]
  split
  next held => exact LockProgram.keeps_note_bind.mpr (.held held)
  next without =>
    apply LockProgram.keeps_createIfAbsent_bind.mpr ⟨.claim, ?_⟩
    rintro (failure | _ | _) first
    · exact .failed without _ failure first .refl
    · -- There is a record: what comes depends on whether it expires.
      apply LockProgram.keeps_hasExpiry_bind.mpr ⟨.inquire, ?_⟩
      rintro (failure | lifetime) second
      · exact .failed without _ failure second (.cons rfl rfl .refl)
      · rw [Except.map]
        cases expires : lifetime.hasExpiry with
        | true =>
            apply LockProgram.keeps_readOwner_bind.mpr ⟨.look, ?_⟩
            rintro (failure | fields) third
            · exact .failed without _ failure third (.cons rfl rfl (.cons rfl rfl .refl))
            · have owner : (fields.map ownerOf?).join = fields.bind ownerOf? := by cases fields <;> rfl
              simp only [Except.map, owner]
              exact LockProgram.keeps_note_bind.mpr (.taken expires fields first second third)
        | false =>
            apply LockProgram.keeps_setExpiry_bind.mpr ⟨.arm, ?_⟩
            rintro (failure | _ | _) third
            · exact .failed without _ failure third (.cons rfl rfl (.cons rfl rfl .refl))
            · exact LockProgram.keeps_note_bind.mpr (.changed expires first second third)
            · exact LockProgram.keeps_note_bind.mpr (.armed expires first second third)
    · exact LockProgram.keeps_note_bind.mpr (.created first)

/-- Recreating is the second half of a renewal, reached after the record has lapsed. -/
theorem recreate_renews (held : c.standing = .heldBySelf) {reached : History}
    (lapsed : c.Lapsed base reached) :
    c.recreate.Keeps (LockProgram.calls (StoreCall.Renews c.key c.pid c.ttl))
      (c.Renewing base) reached := by
  rw [recreate]
  apply LockProgram.keeps_createIfAbsent_bind.mpr ⟨.claim, ?_⟩
  rintro (failure | _ | _) first
  · exact .failed held _ failure first lapsed.quiet
  · apply LockProgram.keeps_readOwner_bind.mpr ⟨.look, ?_⟩
    rintro (failure | fields) second
    · exact .failed held _ failure second (.cons rfl rfl lapsed.quiet)
    · have owner : (fields.map ownerOf?).join = fields.bind ownerOf? := by cases fields <;> rfl
      simp only [Except.map, owner]
      exact LockProgram.keeps_note_bind.mpr (.overtaken held lapsed fields first second)
  · exact LockProgram.keeps_note_bind.mpr (.reacquired held lapsed first)

theorem renew_renews :
    c.renew.Keeps (LockProgram.calls (StoreCall.Renews c.key c.pid c.ttl))
      (c.Renewing base) base := by
  rw [renew]
  split
  next owner standing => exact .known standing
  next standing => exact .notHeld (.inl standing)
  next standing => exact .notHeld (.inr standing)
  next held =>
    apply LockProgram.keeps_readOwner_bind.mpr ⟨.look, ?_⟩
    rintro (failure | _ | fields) first
    · exact .failed held _ failure first .refl
    · exact c.recreate_renews base held (.missing first)
    · simp only [Except.map, Option.map_some]
      split
      next own =>
        apply LockProgram.keeps_refreshExpiry_bind.mpr ⟨.refresh, ?_⟩
        rintro (failure | _ | _) second
        · exact .failed held _ failure second (.cons rfl rfl .refl)
        · exact c.recreate_renews base held (.replaced own first second)
        · exact LockProgram.keeps_note_bind.mpr (.extended held own first second)
      next others => exact LockProgram.keeps_note_bind.mpr (.foreign held others first)

theorem renew_renewing :
    c.renew.Keeps (LockProgram.calls (StoreCall.Sustains c.key c.pid c.ttl))
      (c.Renewing base) base :=
  LockProgram.keeps_of_allows (fun _ renews => renews.sustains) (c.renew_renews base)

theorem release_yields :
    c.release.Keeps (LockProgram.calls (StoreCall.Yields c.key c.pid)) (c.Released base) base := by
  rw [release]
  split
  next held =>
    apply LockProgram.keeps_delete_bind.mpr ⟨.delete, ?_⟩
    rintro (failure | _ | _) time
    · exact .failed held failure time
    · exact LockProgram.keeps_note_bind.mpr (.deleted held false time)
    · exact LockProgram.keeps_note_bind.mpr (.deleted held true time)
  next without => exact LockProgram.keeps_note_bind.mpr (.skipped without)

theorem release_released :
    c.release.Keeps (LockProgram.calls (StoreCall.Concerns c.key c.pid c.ttl))
      (c.Released base) base :=
  LockProgram.keeps_of_allows (fun _ yields => yields.concerns) (c.release_yields base)

end Claimant

end Leasehold
