import Leasehold.Proofs.Lock.Attempt
import Leasehold.Proofs.Lock.Fortune
import Leasehold.Proofs.Lock.Seat
import Leasehold.Proofs.Surroundings.Alone

/-!
# Operations that the store fails

A call that does something to the lock record is the last one of its operation: what comes
before it only finds out how things are. So an operation that fails because a call does has
done nothing at all, neither to the record nor to what the claimant knows, and it can be
done again as if it had never been tried.
-/

namespace Leasehold

open LockRecord

/-! ## Calls that only find out -/

/-- That the answer to a call shows that it has left the record under a key as it was. -/
inductive MadeCall.Idles (key : String) : MadeCall → Prop
  | refused (fields : Fields) (ttl : Duration) (time : Instant) :
      Idles key ⟨.create key fields ttl, .ok false, time⟩
  | inquired (lifetime : Lifetime) (time : Instant) : Idles key ⟨.lifetime key, .ok lifetime, time⟩
  | looked (fields : Option Fields) (time : Instant) : Idles key ⟨.fetch key, .ok fields, time⟩
  | unmoved (ttl : Duration) (condition : Condition) (time : Instant) :
      Idles key ⟨.expire key ttl condition, .ok false, time⟩

/-- That since an earlier history only such calls have been made. -/
inductive History.Idle (key : String) (base : History) : History → Prop
  | refl : Idle key base base
  | cons {made : MadeCall} {later : History} (idles : made.Idles key)
      (idle : Idle key base later) : Idle key base (made :: later)

theorem History.Idle.forall_mem {key : String} {history : History}
    (idle : History.Idle key [] history) : ∀ made ∈ history, made.Idles key := by
  induction idle with
  | refl => simp
  | cons idles _ ih => exact List.forall_mem_cons.mpr ⟨idles, ih⟩

/-- Such a call was served, and it leaves the record that it finds. -/
theorem Visit.isIdle_of_idles {visit : Visit} {key : String} (idles : visit.made.Idles key) :
    visit.fault? = none ∧ visit.IsIdle key := by
  generalize same : visit.made = made at idles
  cases idles with
  | refused fields ttl time =>
      obtain ⟨met, rfl, -⟩ := served_of_made same
      exact ⟨rfl, (refused_of_made same).2.2⟩
  | inquired lifetime time =>
      obtain ⟨met, rfl, -⟩ := served_of_made same
      exact ⟨rfl, (inquired_of_made same).2.2⟩
  | looked fields time =>
      obtain ⟨met, rfl, -⟩ := served_of_made same
      exact ⟨rfl, (looked_of_made same).2.2.2⟩
  | unmoved ttl condition time =>
      obtain ⟨met, rfl, -⟩ := served_of_made same
      exact ⟨rfl, (unextended_of_made same).2.2⟩

/-! ## Operations that stop short -/

namespace Claimant

variable (c : Claimant) (base : History)

/-- How an operation can end: it stops short with the failure of a call before which it has
only found out how things are, or it comes through, and then it does not tell that the store
failed. -/
inductive Concludes {α : Type} : Except Failure α × Claimant → History → Prop
  | short (call : StoreCall) (failure : Failure) (time : Instant) {earlier : History}
      (idle : History.Idle c.key base earlier) :
      Concludes (.error failure, c) (⟨call, .error failure, time⟩ :: earlier)
  | through {outcome : Except Failure α} {c' : Claimant} {later : History}
      (answered : ∀ fault, outcome ≠ .error (.storeUnavailable fault)) :
      Concludes (outcome, c') later

theorem acquire_concludes :
    c.acquire.Keeps (LockProgram.calls (StoreCall.Concerns c.key c.pid c.ttl))
      (c.Concludes base) base := by
  rw [acquire]
  split
  next => exact LockProgram.keeps_note_bind.mpr (.through (by simp))
  next =>
    apply LockProgram.keeps_createIfAbsent_bind.mpr ⟨.sustain (.contend .claim), ?_⟩
    rintro (failure | _ | _) first
    · exact .short _ failure first .refl
    · have refused : History.Idle c.key base
          (⟨.create c.key (ownedBy c.pid) c.ttl, .ok false, first⟩ :: base) :=
        .cons (.refused _ _ _) .refl
      apply LockProgram.keeps_hasExpiry_bind.mpr ⟨.sustain (.contend .inquire), ?_⟩
      rintro (failure | lifetime) second
      · exact .short _ failure second refused
      · have inquired := History.Idle.cons (.inquired lifetime second) refused
        rw [Except.map]
        cases lifetime.hasExpiry with
        | true =>
            apply LockProgram.keeps_readOwner_bind.mpr ⟨.sustain (.contend .look), ?_⟩
            rintro (failure | fields) third
            · exact .short _ failure third inquired
            · exact LockProgram.keeps_note_bind.mpr (.through (by simp))
        | false =>
            apply LockProgram.keeps_setExpiry_bind.mpr ⟨.sustain (.contend .arm), ?_⟩
            rintro (failure | _ | _) third
            · exact .short _ failure third inquired
            · exact LockProgram.keeps_note_bind.mpr (.through (by simp))
            · exact LockProgram.keeps_note_bind.mpr (.through (by simp))
    · exact LockProgram.keeps_note_bind.mpr (.through (by simp))

theorem recreate_concludes {reached : History} (idle : History.Idle c.key base reached) :
    c.recreate.Keeps (LockProgram.calls (StoreCall.Concerns c.key c.pid c.ttl))
      (c.Concludes base) reached := by
  rw [recreate]
  apply LockProgram.keeps_createIfAbsent_bind.mpr ⟨.sustain (.contend .claim), ?_⟩
  rintro (failure | _ | _) first
  · exact .short _ failure first idle
  · apply LockProgram.keeps_readOwner_bind.mpr ⟨.sustain (.contend .look), ?_⟩
    rintro (failure | fields) second
    · exact .short _ failure second (.cons (.refused _ _ first) idle)
    · exact LockProgram.keeps_note_bind.mpr (.through (by simp))
  · exact LockProgram.keeps_note_bind.mpr (.through (by simp))

theorem renew_concludes :
    c.renew.Keeps (LockProgram.calls (StoreCall.Concerns c.key c.pid c.ttl))
      (c.Concludes base) base := by
  rw [renew]
  split
  next => exact .through (by simp)
  next => exact .through (by simp)
  next => exact .through (by simp)
  next =>
    apply LockProgram.keeps_readOwner_bind.mpr ⟨.sustain (.contend .look), ?_⟩
    rintro (failure | _ | fields) first
    · exact .short _ failure first .refl
    · exact c.recreate_concludes base (.cons (.looked none first) .refl)
    · have looked : History.Idle c.key base (⟨.fetch c.key, .ok (some fields), first⟩ :: base) :=
        .cons (.looked _ _) .refl
      simp only [Except.map, Option.map_some]
      split
      next =>
        apply LockProgram.keeps_refreshExpiry_bind.mpr ⟨.sustain .refresh, ?_⟩
        rintro (failure | _ | _) second
        · exact .short _ failure second looked
        · exact c.recreate_concludes base (.cons (.unmoved _ _ second) looked)
        · exact LockProgram.keeps_note_bind.mpr (.through (by simp))
      next => exact LockProgram.keeps_note_bind.mpr (.through (by simp))

theorem release_concludes :
    c.release.Keeps (LockProgram.calls (StoreCall.Concerns c.key c.pid c.ttl))
      (c.Concludes base) base := by
  rw [release]
  split
  next =>
    apply LockProgram.keeps_delete_bind.mpr ⟨.delete, ?_⟩
    rintro (failure | _ | _) time
    · exact .short _ failure time .refl
    · exact LockProgram.keeps_note_bind.mpr (.through (by simp))
    · exact LockProgram.keeps_note_bind.mpr (.through (by simp))
  next => exact LockProgram.keeps_note_bind.mpr (.through (by simp))

end Claimant

namespace Operation

theorem program_concludes (operation : Operation) (c : Claimant) (base : History) :
    (operation.program c).Keeps (LockProgram.calls (StoreCall.Concerns c.key c.pid c.ttl))
      (c.Concludes base) base := by
  cases operation with
  | acquire => exact c.acquire_concludes base
  | renew => exact c.renew_concludes base
  | release => exact c.release_concludes base

/-- An operation begins with a call, or it makes none. -/
theorem program_starts (operation : Operation) (c : Claimant) :
    (∃ call next, operation.program c = .step (.store call) next) ∨
      ∀ fortune : Fortune, ∀ state,
        ((operation.program c).run fortune.answer state).2 = state := by
  cases operation with
  | acquire =>
      by_cases held : c.standing = .heldBySelf
      · exact .inr fun _ _ => by rw [program, Claimant.acquire, if_pos held]; rfl
      · exact .inl ⟨_, _, by rw [program, Claimant.acquire, if_neg held]; rfl⟩
  | renew =>
      rw [program, Claimant.renew]
      cases c.standing with
      | heldBySelf => exact .inl ⟨_, _, rfl⟩
      | free | heldByOther | stale => exact .inr fun _ _ => rfl
  | release =>
      by_cases held : c.standing = .heldBySelf
      · exact .inl ⟨_, _, by rw [program, Claimant.release, if_pos held]; rfl⟩
      · exact .inr fun _ _ => by rw [program, Claimant.release, if_neg held]; rfl

end Operation

/-! ## Stores that look alike -/

namespace Keyspace

variable {keyspace keyspace' : Keyspace} {key other : String} {owner : Pid} {ttl : Duration}
  {now : Instant} {call : StoreCall}

/-- Calls about a record that looks alike are answered alike. -/
theorem serve_answer_congr (concerns : call.Concerns key owner ttl)
    (alike : keyspace.live? key now = keyspace'.live? key now) :
    (keyspace.serve now call).1 = (keyspace'.serve now call).1 := by
  cases concerns with
  | sustain sustains =>
      cases sustains with
      | contend contends =>
          cases contends with
          | claim => simp [alike]
          | inquire => simp only [serve, apply, lifetime, get?_purge, alike]
          | look => simp [alike]
          | arm => simp [alike]
      | refresh => simp [alike]
  | delete => simp [alike]

/-- They leave the same record, and so do they wherever else a record looks alike. -/
theorem get?_serve_congr (concerns : call.Concerns key owner ttl)
    (alike : keyspace.live? other now = keyspace'.live? other now) :
    (keyspace.serve now call).2.entries.get? other =
      (keyspace'.serve now call).2.entries.get? other := by
  by_cases same : key = other
  · subst same
    cases concerns with
    | sustain sustains =>
        cases sustains with
        | contend contends =>
            cases contends with
            | claim => simp [alike]
            | inquire =>
                have reads : (StoreCall.lifetime key).Spares key := trivial
                rw [get?_serve_of_spares reads, get?_serve_of_spares reads, alike]
            | look =>
                have reads : (StoreCall.fetch key).Spares key := trivial
                rw [get?_serve_of_spares reads, get?_serve_of_spares reads, alike]
            | arm => simp [alike]
        | refresh => simp [alike]
    | delete => simp [alike]
  · have spares := concerns.spares same
    rw [get?_serve_of_spares spares, get?_serve_of_spares spares, alike]

/-- That a record which some calls have found expired is expired whenever the clock is
read: it has not lapsed by then, or the clock has not gone back. -/
def StaysLapsed (keyspace : Keyspace) (key : String) (visits : List Visit)
    (clock : Nat → Instant) : Prop :=
  ∀ entry, keyspace.entries.get? key = some entry →
    ∀ visit ∈ visits, entry.isExpired visit.time = true → ∀ n, entry.isExpired (clock n) = true

end Keyspace

section Calm

variable {α : Type} {key : String} {owner : Pid} {ttl : Duration} {clock : Nat → Instant}
  {keyspace keyspace' : Keyspace} {visits visits' : List Visit}

/-- Where nobody interferes, a call about a record that looks alike goes alike. -/
theorem Fortune.answer_calm_congr {call : StoreCall} (concerns : call.Concerns key owner ttl)
    (length : visits.length = visits'.length)
    (alike : keyspace.live? key (clock visits.length) = keyspace'.live? key (clock visits.length)) :
    let first := (Fortune.calm clock).answer (.store call) (keyspace, visits)
    let second := (Fortune.calm clock).answer (.store call) (keyspace', visits')
    first.1 = second.1 ∧ first.2.2.length = second.2.2.length ∧
      ∀ other, keyspace.live? other (clock visits.length) =
          keyspace'.live? other (clock visits.length) →
        first.2.1.entries.get? other = second.2.1.entries.get? other := by
  simp only [answer, visit, calm, Visit.reply, Visit.left, ← length, List.length_cons, true_and]
  constructor
  · rw [Keyspace.serve_answer_congr concerns alike]
  · exact fun other => Keyspace.get?_serve_congr concerns

/-- So does a program about a record, on all stores that have it. -/
theorem LockProgram.run_calm_congr {ends : α → History → Prop} {history : History}
    {program : LockProgram α}
    (kept : program.Keeps (calls (StoreCall.Concerns key owner ttl)) ends history)
    (length : visits.length = visits'.length)
    (same : keyspace.entries.get? key = keyspace'.entries.get? key) :
    let first := program.run (Fortune.calm clock).answer (keyspace, visits)
    let second := program.run (Fortune.calm clock).answer (keyspace', visits')
    first.1 = second.1 ∧ ∀ other, keyspace.entries.get? other = keyspace'.entries.get? other →
      first.2.1.entries.get? other = second.2.1.entries.get? other := by
  induction program generalizing keyspace keyspace' visits visits' history with
  | done result => exact ⟨rfl, fun _ same => same⟩
  | step request next ih =>
      rcases request with call | event
      · have looks (other : String)
            (same : keyspace.entries.get? other = keyspace'.entries.get? other) :
            keyspace.live? other (clock visits.length) =
              keyspace'.live? other (clock visits.length) := by
          rw [Keyspace.live?, Keyspace.live?, same]
        obtain ⟨replied, longer, left⟩ :=
          Fortune.answer_calm_congr kept.1 length (looks key same)
        rw [Program.run_step, Program.run_step, ← replied]
        obtain ⟨results, records⟩ :=
          ih _ (kept.2 _ _ ⟨default, rfl⟩) longer (left key (looks key same))
        exact ⟨results, fun other same => records other (left other (looks other same))⟩
      · exact ih () (kept.2 () _ rfl) length same

end Calm

/-! ## Nothing has been done -/

namespace Operation

variable {operation : Operation} {c c' : Claimant} {fortune : Fortune}
  {keyspace later : Keyspace} {visits : List Visit} {fault : StoreFault}

/-- A failed operation leaves the claimant as it was; its last call is the one that failed,
and those before it have only found out how things are. -/
theorem short_of_failed
    (ran : (operation.program c).run fortune.answer (keyspace, []) =
      ((.error (.storeUnavailable fault), c'), later, visits)) :
    c' = c ∧ ∃ last earlier, visits = last :: earlier ∧ last.fault? = some fault ∧
      last.left = last.met ∧ ∀ visit ∈ earlier, visit.fault? = none ∧ visit.IsIdle c.key := by
  obtain ⟨ended, -⟩ :=
    LockProgram.ends_under fortune (keyspace, []) (operation.program_concludes c [])
  rw [ran] at ended
  generalize history : visits.map Visit.made = calls at ended
  cases ended with
  | through answered => exact absurd rfl (answered fault)
  | short call failure time idle =>
      obtain ⟨last, earlier, rfl, failed, rfl⟩ := List.map_eq_cons_iff.mp history
      obtain ⟨met, fault', rfl, same⟩ := Visit.faulted_of_made failed
      cases same
      refine ⟨rfl, _, earlier, rfl, rfl, rfl, fun visit member => ?_⟩
      exact Visit.isIdle_of_idles (idle.forall_mem _ (List.mem_map_of_mem member))

/-- Where nobody interferes, records have at most lapsed by the end of a failed operation. -/
theorem lapses_of_failed
    (ran : (operation.program c).run fortune.answer (keyspace, []) =
      ((.error (.storeUnavailable fault), c'), later, visits))
    (alone : Chained keyspace visits later) (key : String) :
    Keyspace.Lapses key (visits.map Visit.time) keyspace later := by
  apply alone.lapses_of_each
  intro visit member
  by_cases same : c.key = key
  · subst same
    obtain ⟨-, last, earlier, rfl, -, unchanged, idle⟩ := short_of_failed ran
    rcases List.mem_cons.mp member with rfl | member
    · exact unchanged ▸ .refl _ _ _
    · exact Keyspace.lapses_of_live (idle visit member).2
  · obtain ⟨-, brings⟩ :=
      LockProgram.ends_under fortune (keyspace, []) (operation.program_concludes c [])
    rw [ran] at brings
    exact visit.lapses_of_spares ((brings.allowed visit member).spares same)

/-- An operation that fails because the store does leaves the claimant as it was, and none
of its calls has changed the record. If nobody has interfered, doing it again once the store
is well goes just as if it had not been tried. -/
theorem failed_leaves_no_trace
    (ran : (operation.program c).run fortune.answer (keyspace, []) =
      ((.error (.storeUnavailable fault), c'), later, visits)) :
    (c' = c ∧ ∃ last earlier, visits = last :: earlier ∧ last.fault? = some fault ∧
      last.left = last.met ∧ ∀ visit ∈ earlier, visit.fault? = none ∧ visit.IsIdle c.key) ∧
    (Chained keyspace visits later → ∀ clock, keyspace.StaysLapsed c.key visits clock →
      let again := (operation.program c').run (Fortune.calm clock).answer (later, [])
      let first := (operation.program c).run (Fortune.calm clock).answer (keyspace, [])
      again.1 = first.1 ∧ ∀ key, keyspace.StaysLapsed key visits clock →
        again.2.1.entries.get? key = first.2.1.entries.get? key) := by
  have short := short_of_failed ran
  refine ⟨short, fun alone clock stays => ?_⟩
  have alike (key : String) (stays : keyspace.StaysLapsed key visits clock) :
      later.live? key (clock 0) = keyspace.live? key (clock 0) := by
    apply (lapses_of_failed ran alone key).live?_of_expired
    intro entry found time member expired
    obtain ⟨visit, visited, rfl⟩ := List.mem_map.mp member
    exact stays entry found visit visited expired 0
  obtain ⟨rfl, last, earlier, rfl, -⟩ := short
  have kept := operation.program_concludes c' []
  rcases operation.program_starts c' with ⟨call, next, starts⟩ | silent
  · -- Both runs begin with the same call. The stores can differ by what has lapsed until then,
    -- but what the call leaves under the key is the same on both.
    rw [starts] at kept ⊢
    have unvisited : ([] : List Visit).length = ([] : List Visit).length := rfl
    obtain ⟨replied, longer, left⟩ :=
      Fortune.answer_calm_congr kept.1 unvisited (alike _ stays)
    rw [Program.run_step, Program.run_step, ← replied]
    obtain ⟨results, records⟩ := LockProgram.run_calm_congr (kept.2 _ _ ⟨default, rfl⟩) longer
      (left _ (alike _ stays))
    exact ⟨results, fun key stays => records key (left key (alike key stays))⟩
  · -- Nothing can fail where no call is made.
    have unvisited := silent fortune (keyspace, [])
    rw [ran] at unvisited
    cases unvisited

/-- Nobody interferes, and the third call fails. -/
def thirdFails : Fortune :=
  fun visits keyspace =>
    ⟨keyspace, default, if visits.length = 2 then some (.stated "offline") else none⟩

/-- The newcomer fails to give the lock an expiry; when it tries anew, it does so. -/
theorem failed_leaves_no_trace_of_thirdFails :
    let failed := (acquire.program Claimant.newcomer).run thirdFails.answer (Claimant.lasting, [])
    let calm := Fortune.calm fun _ => default
    let again := (acquire.program failed.1.2).run calm.answer (failed.2.1, [])
    failed.1 = (.error (.storeUnavailable (.stated "offline")), Claimant.newcomer) ∧
      failed.2.2.length = 3 ∧
      again.1 = (.error .staleLock, { Claimant.newcomer with standing := .stale }) ∧
      again.1 = ((acquire.program Claimant.newcomer).run calm.answer (Claimant.lasting, [])).1 := by
  have unexpiring : Claimant.lasting.StaysLapsed "lock"
      ((acquire.program Claimant.newcomer).run thirdFails.answer (Claimant.lasting, [])).2.2
      fun _ => default := by
    rintro _ ⟨⟩ _ _ ⟨⟩
  have traceless := @failed_leaves_no_trace acquire Claimant.newcomer Claimant.newcomer thirdFails
    Claimant.lasting _ _ (.stated "offline") rfl
  exact ⟨rfl, rfl, rfl, (traceless.2 ⟨⟨⟨rfl, rfl⟩, rfl⟩, rfl⟩ _ unexpiring).1⟩

end Operation

end Leasehold
