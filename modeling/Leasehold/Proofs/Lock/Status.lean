import Leasehold.Lock.Claimant
import Leasehold.Lock.Status
import Leasehold.Proofs.Lock.Tally
import Leasehold.Proofs.Store.Lapse

/-!
# What the status of the lock foretells

The status of the lock is found in two calls and an attempt to take the lock is made of up to
three others. Where nothing happens in between, they see the same record: the text of the
status tells whether an attempt takes the lock, gives it an expiry, or has to leave it to an
owner, and to which; and after the attempt the text tells of that owner, or of the new one.
-/

namespace Leasehold

/-! ## Texts of a status -/

theorem not_mem_ownerText (owner : Option Pid) : ' ' ∉ (ownerText owner).toList := by
  cases owner with
  | none => decide
  | some pid =>
      have plain : (ownerText (some pid)).toList = Text.decimal pid.toNat := String.toList_ofList
      rw [plain]
      exact fun member => absurd (Text.isDigit_of_mem_decimal member) (by decide)

theorem ownerText_injective : Function.Injective ownerText := by
  have known (pid : Pid) : ownerText (some pid) ≠ ownerText none := by
    intro same
    have digits : Text.decimal pid.toNat = "unknown".toList :=
      String.toList_ofList.symm.trans (congrArg String.toList same)
    have digit : 'u' ∈ Text.decimal pid.toNat := by rw [digits]; decide
    exact absurd (Text.isDigit_of_mem_decimal digit) (by decide)
  intro owner owner' same
  cases owner with
  | none =>
      cases owner' with
      | none => rfl
      | some pid' => exact absurd same.symm (known pid')
  | some pid =>
      cases owner' with
      | none => exact absurd same (known pid)
      | some pid' =>
          have own : LockRecord.ownerText pid = LockRecord.ownerText pid' := same
          exact congrArg some (LockRecord.ownerText_injective own)

theorem ownerText_eq_unknown_iff {owner : Option Pid} :
    ownerText owner = "unknown" ↔ owner = none := by
  change ownerText owner = ownerText none ↔ _
  exact ownerText_injective.eq_iff

namespace LockStatus

variable {status other : LockStatus} {owner : Option Pid}

/-- The owner that a status names, and whether it has an expiry. -/
def named? : LockStatus → Option (Option Pid × Bool)
  | .unlocked => none
  | .stale owner => some (owner, false)
  | .held owner _ => some (owner, true)

/-- What is read off a text: the word for the owner, and how the rest begins after its
bracket. -/
def readText? (text : String) : Option (List Char × Option Char) :=
  (Text.splitFirst? ' ' (text.toList.drop "locked by pid ".length)).map
    fun (owner, detail) => (owner, detail[1]?)

theorem readText?_of_names {text : String} {owner : Option Pid} {detail : List Char}
    (names : text.toList =
      "locked by pid ".toList ++ ((ownerText owner).toList ++ ' ' :: detail)) :
    readText? text = some ((ownerText owner).toList, detail[1]?) := by
  have rest : text.toList.drop "locked by pid ".length =
      (ownerText owner).toList ++ ' ' :: detail :=
    names ▸ List.drop_left
  rw [readText?, rest, Text.splitFirst?_append (not_mem_ownerText owner)]
  rfl

/-- The owner can be read off the text of a status, and so can whether there is an expiry. -/
theorem readText?_text (status : LockStatus) :
    readText? status.text = status.named?.map fun (owner, expires) =>
      ((ownerText owner).toList, some (if expires then 'e' else 'S')) := by
  cases status with
  | unlocked => decide
  | stale owner =>
      have names : (stale owner).text.toList = "locked by pid ".toList ++
          ((ownerText owner).toList ++ ' ' :: "(STALE: no expiry)".toList) := by
        change ("locked by pid " ++ ownerText owner ++ " (STALE: no expiry)").toList = _
        rw [String.toList_append, String.toList_append, List.append_assoc]
        rfl
      exact readText?_of_names names
  | held owner remaining =>
      have names : (held owner remaining).text.toList = "locked by pid ".toList ++
          ((ownerText owner).toList ++
            ' ' :: ("(expires in " ++ remaining.tenths ++ ")").toList) := by
        change ("locked by pid " ++ ownerText owner ++ " (" ++
          ("expires in " ++ remaining.tenths) ++ ")").toList = _
        simp only [String.toList_append, List.append_assoc]
        rfl
      rw [readText?_of_names names]
      simp [named?]

theorem named?_eq_of_text_eq (same : status.text = other.text) : status.named? = other.named? := by
  have read := congrArg readText? same
  rw [readText?_text, readText?_text] at read
  refine Option.map_injective ?_ read
  rintro ⟨owner, expires⟩ ⟨owner', expires'⟩ alike
  obtain ⟨owners, kinds⟩ := Prod.mk.inj alike
  obtain rfl := ownerText_injective (String.toList_inj.mp owners)
  cases expires <;> cases expires' <;> simp at kinds ⊢

@[simp]
theorem text_eq_unlocked_iff : status.text = unlocked.text ↔ status = unlocked := by
  refine ⟨fun same => ?_, congrArg text⟩
  have named := named?_eq_of_text_eq same
  cases status <;> simp_all [named?]

@[simp]
theorem text_eq_stale_iff : status.text = (stale owner).text ↔ status = stale owner := by
  refine ⟨fun same => ?_, congrArg text⟩
  have named := named?_eq_of_text_eq same
  cases status <;> simp_all [named?]

/-- The text of a lock with an expiry need not tell how long that is to the nanosecond. -/
@[simp]
theorem exists_text_eq_held_iff :
    (∃ remaining, status.text = (held owner remaining).text) ↔
      ∃ remaining, status = held owner remaining := by
  refine ⟨fun ⟨remaining, same⟩ => ?_, fun ⟨remaining, same⟩ => ⟨remaining, congrArg text same⟩⟩
  have named := named?_eq_of_text_eq same
  cases status <;> simp_all [named?]

/-- The status that is found of a live record, or of none. -/
def ofLive (now : Instant) : Option Entry → LockStatus
  | none => .unlocked
  | some entry =>
    match entry.expiresAt with
    | none => .stale (LockRecord.ownerOf? entry.fields)
    | some expiry => .held (LockRecord.ownerOf? entry.fields) (now.elapsed expiry)

end LockStatus

/-! ## Runs at one instant -/

namespace LockProgram

variable {α : Type} {now : Instant} {keyspace : Keyspace} {key : String}

/-- Answers requests from a store that nobody else uses, at one reading of the clock. -/
def answerAt (now : Instant) : (request : LockRequest) → Keyspace → request.Reply × Keyspace
  | .store call, keyspace => (.ok (keyspace.serve now call).1, (keyspace.serve now call).2)
  | .log _, keyspace => ((), keyspace)

/-- Runs a program undisturbed: its result, and the store that it leaves. -/
def runAt (now : Instant) (program : LockProgram α) (keyspace : Keyspace) : α × Keyspace :=
  program.run (answerAt now) keyspace

theorem runAt_ask_bind (call : StoreCall) (next : call.Reply → LockProgram α) :
    (LockRecord.ask call >>= next).runAt now keyspace =
      (next (.ok (keyspace.serve now call).1)).runAt now (keyspace.serve now call).2 :=
  rfl

theorem runAt_readOwner_bind
    (next : Except Failure (Option (Option Pid)) → LockProgram α) :
    (LockRecord.readOwner key >>= next).runAt now keyspace =
      (next (.ok ((keyspace.live? key now).map
        fun entry => LockRecord.ownerOf? entry.fields))).runAt
          now (keyspace.serve now (.fetch key)).2 := by
  rw [LockRecord.readOwner, bind_assoc, runAt_ask_bind, Keyspace.serve_fetch_answer]
  simp [Except.map, Function.comp_def]

theorem runAt_hasExpiry_bind (next : Except Failure Bool → LockProgram α) :
    (LockRecord.hasExpiry key >>= next).runAt now keyspace =
      (next (.ok ((keyspace.live? key now).any fun entry => entry.expiresAt.isSome))).runAt
        now (keyspace.serve now (.lifetime key)).2 := by
  rw [LockRecord.hasExpiry, bind_assoc, runAt_ask_bind, Keyspace.serve_lifetime_answer]
  rcases keyspace.live? key now with _ | ⟨fields, _ | expiry⟩ <;> rfl

/-- Finding the status shows the live record, and leaves the store without its expired
records. -/
theorem runAt_find (key : String) (now : Instant) (keyspace : Keyspace) :
    ∃ left, (LockStatus.find key).runAt now keyspace =
        (.ok (.ofLive now (keyspace.live? key now)), left) ∧
      ∀ other, left.entries.get? other = keyspace.live? other now := by
  rw [LockStatus.find, runAt_readOwner_bind]
  cases live : keyspace.live? key now with
  | none => exact ⟨_, rfl, fun _ => Keyspace.get?_serve_fetch⟩
  | some entry =>
      simp only [Option.map_some]
      rw [runAt_ask_bind, Keyspace.serve_lifetime_answer, Keyspace.live?_serve_fetch, live]
      generalize read : (keyspace.serve now (.fetch key)).2 = middle
      refine ⟨(middle.serve now (.lifetime key)).2, ?_, fun other => ?_⟩
      · rcases entry with ⟨fields, _ | expiry⟩ <;> rfl
      · rw [Keyspace.get?_serve_lifetime, ← read, Keyspace.live?_serve_fetch]

end LockProgram

/-! ## Attempts -/

namespace Claimant

open LockRecord LockProgram

variable {c : Claimant} {now : Instant} {keyspace : Keyspace} {found : Option Entry}
  {outcome : Except Failure Unit} {entry : Entry}

/-- What an undisturbed attempt makes of the live record that it finds, and the record that
it leaves. -/
inductive Settles (c : Claimant) (now : Instant) :
    Option Entry → Except Failure Unit → Entry → Prop
  | taken : c.Settles now none (.ok ()) ⟨ownedBy c.pid, some (now.add c.ttl)⟩
  | armed (fields : Fields) :
      c.Settles now (some ⟨fields, none⟩) (.error .staleLock) ⟨fields, some (now.add c.ttl)⟩
  | unavailable (fields : Fields) (expiry : Instant) :
      c.Settles now (some ⟨fields, some expiry⟩) (.error (.lockUnavailable (ownerOf? fields)))
        ⟨fields, some expiry⟩

theorem runAt_acquire (without : c.standing ≠ .heldBySelf) (now : Instant) (keyspace : Keyspace) :
    ∃ outcome c' left entry, c.acquire.runAt now keyspace = ((outcome, c'), left) ∧
      left.entries.get? c.key = some entry ∧
      c.Settles now (keyspace.live? c.key now) outcome entry := by
  have created : (keyspace.serve now (.create c.key (ownedBy c.pid) c.ttl)).2.entries.get? c.key =
      some ((keyspace.live? c.key now).getD ⟨ownedBy c.pid, some (now.add c.ttl)⟩) :=
    Keyspace.serve_create_record _ _
  rw [acquire, if_neg without, createIfAbsent, runAt_ask_bind, Keyspace.serve_create_answer]
  cases live : keyspace.live? c.key now with
  | none =>
      rw [live] at created
      exact ⟨_, _, _, _, rfl, created, .taken⟩
  | some entry =>
      generalize (keyspace.serve now (.create c.key (ownedBy c.pid) c.ttl)).2 = claimed at created
      rw [live, Option.getD_some, ← live] at created
      have again := (Keyspace.live?_of_left created).trans live
      simp only [Option.isNone_some]
      rw [runAt_hasExpiry_bind, again]
      rcases entry with ⟨fields, _ | expiry⟩
      · simp only [Option.any_some, Option.isSome_none]
        rw [setExpiry, runAt_ask_bind, Keyspace.serve_expire_answer, Keyspace.live?_serve_lifetime,
          again]
        refine ⟨_, _, _, _, rfl, ?_, .armed fields⟩
        rw [Keyspace.serve_expire_record, Keyspace.live?_serve_lifetime, again]
        rfl
      · simp only [Option.any_some, Option.isSome_some]
        rw [runAt_readOwner_bind, Keyspace.live?_serve_lifetime, again]
        refine ⟨_, _, _, _, rfl, ?_, .unavailable fields expiry⟩
        rw [Keyspace.get?_serve_fetch, Keyspace.live?_serve_lifetime, again]

/-! ## Status and attempt -/

/-- That the texts of the status just before an attempt and just after it tell what the
attempt came to. -/
structure Foretold (c : Claimant) (before : LockStatus) (outcome : Except Failure Unit)
    (after : LockStatus) : Prop where
  free_iff : before.text = LockStatus.unlocked.text ↔ outcome = .ok ()
  stale_iff : (∃ owner, before.text = (LockStatus.stale owner).text) ↔ outcome = .error .staleLock
  held_iff : ∀ owner, (∃ remaining, before.text = (LockStatus.held owner remaining).text) ↔
    outcome = .error (.lockUnavailable owner)
  unknown_iff : ∀ owner, ownerText owner = "unknown" ↔ owner = none
  /-- Who takes the lock is shown from then on. -/
  taken : outcome = .ok () → ∃ remaining, after = .held (some c.pid) remaining
  /-- Another owner stays, and by then its lock has an expiry. -/
  kept : ∀ owner, before.text = (LockStatus.stale owner).text ∨
    (∃ remaining, before.text = (LockStatus.held owner remaining).text) →
      ∃ remaining, after = .held owner remaining

theorem Settles.foretold (settles : c.Settles now found outcome entry) (remaining : Duration) :
    c.Foretold (.ofLive now found) outcome (.held (ownerOf? entry.fields) remaining) := by
  cases settles with
  | taken =>
      have own : ownerOf? (ownedBy c.pid) = some c.pid :=
        (Entry.belongsTo_ownedBy c.pid none).ownerOf?
      constructor <;> simp [LockStatus.ofLive, own, ownerText_eq_unknown_iff]
  | armed fields => constructor <;> simp [LockStatus.ofLive, ownerText_eq_unknown_iff]
  | unavailable fields expiry => constructor <;> simp [LockStatus.ofLive, ownerText_eq_unknown_iff]

/-- The record that an attempt leaves is live and has an expiry, if there is time for one. -/
theorem Settles.expires (settles : c.Settles now (keyspace.live? c.key now) outcome entry)
    (positive : 0 < c.ttl.nanos) (early : now < Instant.max) :
    ∃ expiry, entry.expiresAt = some expiry ∧ entry.isExpired now = false := by
  have fresh {fields : Fields} : Entry.isExpired ⟨fields, some (now.add c.ttl)⟩ now = false :=
    Entry.isExpired_eq_false_of_lt rfl (Instant.lt_add positive early)
  generalize live : keyspace.live? c.key now = found at settles
  cases settles with
  | taken => exact ⟨_, rfl, fresh⟩
  | armed fields => exact ⟨_, rfl, fresh⟩
  | unavailable fields expiry => exact ⟨expiry, rfl, (Keyspace.live?_eq_some_iff.mp live).2⟩

/-- Where nothing comes between them and the clock stands still, finding the status of the
lock and an attempt to take it agree: the status is found whatever the store holds, that
changes no live record, and the text tells beforehand what the attempt comes to; and found
again after it the status tells who has the lock by then. -/
theorem attempt_foretold (without : c.standing ≠ .heldBySelf) (positive : 0 < c.ttl.nanos)
    (early : now < Instant.max) (keyspace : Keyspace) :
    ∃ before found outcome c' tried after left,
      (LockStatus.find c.key).runAt now keyspace = (.ok before, found) ∧
      (∀ key, found.entries.get? key = keyspace.live? key now) ∧
      c.acquire.runAt now found = ((outcome, c'), tried) ∧
      (LockStatus.find c.key).runAt now tried = (.ok after, left) ∧
      c.Foretold before outcome after := by
  obtain ⟨found, shown, kept⟩ := runAt_find c.key now keyspace
  obtain ⟨outcome, c', tried, entry, ran, stands, settles⟩ := runAt_acquire without now found
  obtain ⟨left, shown', -⟩ := runAt_find c.key now tried
  rw [Keyspace.live?_of_left (kept c.key)] at settles
  obtain ⟨expiry, expires, fresh⟩ := settles.expires positive early
  have after : LockStatus.ofLive now (tried.live? c.key now) =
      .held (ownerOf? entry.fields) (now.elapsed expiry) := by
    rw [Keyspace.live?_eq_some_iff.mpr ⟨stands, fresh⟩, LockStatus.ofLive, expires]
  rw [after] at shown'
  exact ⟨_, found, outcome, c', tried, _, left, shown, kept, ran, shown', settles.foretold _⟩

/-- A lock whose owner cannot be read, which never expires. -/
def unreadable : Keyspace :=
  ⟨TextMap.empty.insert LockRecord.key ⟨TextMap.empty.insert ownerField "not-a-pid", none⟩, false⟩

/-- It is shown as stale, and so it is found by the attempt. -/
theorem attempt_foretold_of_unreadable :
    ∃ before found outcome c' tried after left,
      before = .stale none ∧ outcome = .error .staleLock ∧
      (LockStatus.find LockRecord.key).runAt default unreadable = (.ok before, found) ∧
      (∀ key, found.entries.get? key = unreadable.live? key default) ∧
      (ofPid 7 defaultTtl).acquire.runAt default found = ((outcome, c'), tried) ∧
      (LockStatus.find LockRecord.key).runAt default tried = (.ok after, left) ∧
      (ofPid 7 defaultTtl).Foretold before outcome after := by
  have without : (ofPid 7 defaultTtl).standing ≠ .heldBySelf := by decide
  have positive : 0 < (ofPid 7 defaultTtl).ttl.nanos := by decide
  have early : (default : Instant) < Instant.max := by decide
  obtain ⟨before, found, outcome, c', tried, after, left, shown, kept, ran, shown', foretold⟩ :=
    attempt_foretold without positive early unreadable
  have stale : before = .stale none := by
    have same : (.ok (.stale none) : Except Failure LockStatus) = .ok before :=
      congrArg Prod.fst shown
    exact (Except.ok.inj same).symm
  subst stale
  exact ⟨_, found, outcome, c', tried, after, left, rfl, foretold.stale_iff.mp ⟨none, rfl⟩, shown,
    kept, ran, shown', foretold⟩

end Claimant

end Leasehold
