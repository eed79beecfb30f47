import Leasehold.Proofs.Lock.Company
import Leasehold.Proofs.Lock.Spelling

/-!
# Owners that are read and owners that are checked

An owner is read leniently from a record, but checked to the letter where the record is
extended or deleted. On a record whose owner is spelt as a plain numeral the two agree.
One whose owner is spelt otherwise, which only somebody else can have written, reads as the
owner's, and yet it is neither extended nor deleted for it: its owner loses the lock to
itself, and giving it up leaves the record there.
-/

namespace Leasehold

open LockRecord

namespace Entry

/-- That a record names an owner, in any spelling. -/
def Names (entry : Entry) (owner : Pid) : Prop :=
  ∃ text, entry.fields.get? ownerField = some text ∧ Spells text owner

/-- That a record names its owner by a plain numeral. -/
def NamesPlainly (entry : Entry) : Prop :=
  ∃ text, entry.fields.get? ownerField = some text ∧ Text.IsNumeral text.toList

variable {entry : Entry} {owner : Pid}

/-- The owner that is read is the one that the record names. -/
theorem ownerOf?_eq_some_iff : ownerOf? entry.fields = some owner ↔ entry.Names owner := by
  simp only [ownerOf?, Names, Option.bind_eq_some_iff, readOwner?_eq_some_iff]

/-- A record is an owner's to the letter if it names the owner and does so plainly. -/
theorem belongsTo_iff : entry.BelongsTo owner ↔ entry.Names owner ∧ entry.NamesPlainly := by
  rw [← ownerOf?_eq_some_iff]
  unfold BelongsTo NamesPlainly ownerOf?
  cases entry.fields.get? ownerField with
  | none => simp
  | some text => simp [eq_ownerText_iff]

end Entry

/-! ## Runs alone -/

/-- Nobody else does anything; the clock shows what it shows before each call. -/
def Company.alone (clock : Nat → Instant) : Company :=
  fun visits keyspace => (keyspace, clock visits.length)

namespace Keyspace

variable {keyspace : Keyspace} {key : String} {entry : Entry} {now : Instant} {owner : Pid}

/-- What a call is answered while a record stands, if it leaves the record. -/
def Leaves (key : String) (entry : Entry) (call : StoreCall) (answer : call.Answer) : Prop :=
  ∀ keyspace now, live? keyspace key now = some entry →
    (keyspace.serve now call).1 = answer ∧ (keyspace.serve now call).2.entries.get? key = some entry

theorem answer_expire_of_live (live : keyspace.live? key now = some entry) {ttl : Duration}
    {condition : Condition} :
    (keyspace.serve now (.expire key ttl condition)).1 = condition.holds entry := by
  rw [serve_expire_answer, live]
  rfl

theorem answer_delete_of_live (live : keyspace.live? key now = some entry)
    {condition : Condition} :
    (keyspace.serve now (.delete key condition)).1 = condition.holds entry := by
  rw [serve_delete_answer, live]
  rfl

theorem leaves_fetch : Leaves key entry (.fetch key) (some entry.fields) := by
  intro keyspace now live
  have reads : (StoreCall.fetch key).Spares key := trivial
  exact ⟨by simp [live], (get?_serve_of_spares reads keyspace now).trans live⟩

theorem leaves_create {fields : Fields} {ttl : Duration} :
    Leaves key entry (.create key fields ttl) false := by
  intro keyspace now live
  simp [live]

theorem leaves_expire {condition : Condition} (fails : condition.holds entry = false)
    {ttl : Duration} : Leaves key entry (.expire key ttl condition) false := by
  intro keyspace now live
  simp [live, fails]

end Keyspace

namespace LockProgram

variable {α : Type} {clock : Nat → Instant} {key : String} {entry : Entry} {result : α}

/-- That a program that is run alone where a record stands has a certain result. -/
def Gives (clock : Nat → Instant) (key : String) (entry : Entry) (program : LockProgram α)
    (result : α) : Prop :=
  ∀ keyspace visits, keyspace.entries.get? key = some entry →
    (program.run (amid (.alone clock)) (keyspace, visits)).1 = result

/-- Where a call leaves the record, a program goes on with its answer. -/
theorem gives_ask_bind (fresh : ∀ n, entry.isExpired (clock n) = false) {call : StoreCall}
    {answer : call.Answer} (leaves : Keyspace.Leaves key entry call answer)
    {next : call.Reply → LockProgram α} (gives : Gives clock key entry (next (.ok answer)) result) :
    Gives clock key entry (ask call >>= next) result := by
  intro keyspace visits stands
  have live := Keyspace.live?_eq_some_iff.mpr ⟨stands, fresh visits.length⟩
  obtain ⟨answers, left⟩ := leaves keyspace _ live
  subst answers
  exact gives _ _ left

/-- Where all that comes after a call gives the same result, only its answer matters. -/
theorem gives_ask_bind_of_answer (fresh : ∀ n, entry.isExpired (clock n) = false)
    {call : StoreCall} (answer : call.Answer)
    (answers : ∀ (keyspace : Keyspace) now, keyspace.live? key now = some entry →
      (keyspace.serve now call).1 = answer)
    {next : call.Reply → LockProgram α}
    (gives : ∀ state, ((next (.ok answer)).run (amid (.alone clock)) state).1 = result) :
    Gives clock key entry (ask call >>= next) result := by
  intro keyspace visits stands
  have live := Keyspace.live?_eq_some_iff.mpr ⟨stands, fresh visits.length⟩
  obtain rfl := answers keyspace _ live
  exact gives _

theorem gives_readOwner_bind (fresh : ∀ n, entry.isExpired (clock n) = false)
    {next : Except Failure (Option (Option Pid)) → LockProgram α}
    (gives : Gives clock key entry (next (.ok (some (ownerOf? entry.fields)))) result) :
    Gives clock key entry (readOwner key >>= next) result := by
  rw [readOwner, bind_assoc]
  exact gives_ask_bind fresh Keyspace.leaves_fetch gives

/-! ## Single calls -/

variable {keyspace : Keyspace} {owner : Pid} {ttl : Duration}

theorem readOwner_alone (live : keyspace.live? key (clock 0) = some entry) :
    ((readOwner key).runAmid (.alone clock) keyspace).1 = .ok (some (ownerOf? entry.fields)) := by
  change Except.map _ (.ok (keyspace.serve (clock 0) (.fetch key)).1) = _
  rw [Keyspace.serve_fetch_answer, live]
  rfl

theorem refreshExpiry_alone (live : keyspace.live? key (clock 0) = some entry) :
    ((refreshExpiry key owner ttl).runAmid (.alone clock) keyspace).1 =
      .ok ((isOwnedBy owner).holds entry) :=
  congrArg Except.ok (Keyspace.answer_expire_of_live live)

theorem delete_alone (live : keyspace.live? key (clock 0) = some entry) :
    ((LockRecord.delete key owner).runAmid (.alone clock) keyspace).1 =
      .ok ((isOwnedBy owner).holds entry) :=
  congrArg Except.ok (Keyspace.answer_delete_of_live live)

end LockProgram

/-! ## Operations of a holder -/

namespace Claimant

variable {c : Claimant} {clock : Nat → Instant} {keyspace : Keyspace} {entry : Entry}

open LockProgram

/-- A record that is a holder's own to the letter is extended. -/
theorem renew_gives_extended (held : c.standing = .heldBySelf)
    (fresh : ∀ n, entry.isExpired (clock n) = false) (own : entry.BelongsTo c.pid) :
    Gives clock c.key entry c.renew (.ok .extended, c) := by
  have holds := Entry.holds_isOwnedBy_iff.mpr own
  simp only [renew, held]
  apply gives_readOwner_bind fresh
  simp only [own.ownerOf?, if_true]
  refine gives_ask_bind_of_answer fresh true ?_ fun _ => rfl
  intro keyspace now live
  exact (Keyspace.answer_expire_of_live live).trans holds

/-- A record that reads as a holder's own, but is not to the letter, is lost to the holder
itself. -/
theorem renew_gives_lost (held : c.standing = .heldBySelf)
    (fresh : ∀ n, entry.isExpired (clock n) = false)
    (reads : ownerOf? entry.fields = some c.pid) (others : ¬entry.BelongsTo c.pid) :
    Gives clock c.key entry c.renew
      (.ok (.lost (some c.pid)), { c with standing := .heldByOther (some c.pid) }) := by
  have fails : (isOwnedBy c.pid).holds entry = false := by
    rwa [Bool.eq_false_iff, Ne, Entry.holds_isOwnedBy_iff]
  have recreates : Gives clock c.key entry c.recreate
      (.ok (.lost (some c.pid)), { c with standing := .heldByOther (some c.pid) }) := by
    apply gives_ask_bind fresh Keyspace.leaves_create
    apply gives_readOwner_bind fresh
    rw [reads]
    exact fun _ _ _ => rfl
  simp only [renew, held]
  apply gives_readOwner_bind fresh
  simp only [reads, if_true]
  exact gives_ask_bind fresh (Keyspace.leaves_expire fails) recreates

/-- A release is one call, which says whether there was a record of its own to the
letter. -/
theorem release_alone (held : c.standing = .heldBySelf)
    (live : keyspace.live? c.key (clock 0) = some entry) :
    c.release.runAmid (.alone clock) keyspace =
      ((.ok ((isOwnedBy c.pid).holds entry), { c with standing := .free }),
        [⟨keyspace, clock 0, .delete c.key (isOwnedBy c.pid), none⟩]) := by
  have answer : (keyspace.serve (clock 0) (.delete c.key (isOwnedBy c.pid))).1 =
      (isOwnedBy c.pid).holds entry := Keyspace.answer_delete_of_live live
  simp only [release, held, if_true, runAmid, LockRecord.delete, ask, Program.perform_bind,
    Program.run_step, amid, Company.alone, List.length_nil, Visit.reply, answer]
  cases (isOwnedBy c.pid).holds entry <;> rfl

end Claimant

/-! ## Reading against checking -/

/-- What the calls of an owner come to on a live record that nobody else touches: whoever
the record names is read, but only an owner that it names plainly can extend or delete it. -/
structure Entry.Checked (entry : Entry) (key : String) (clock : Nat → Instant)
    (keyspace : Keyspace) : Prop where
  reads : ∃ read, ((readOwner key).runAmid (.alone clock) keyspace).1 = .ok (some read) ∧
    ∀ owner, read = some owner ↔ entry.Names owner
  refreshes : ∀ owner ttl, ∃ extended,
    ((refreshExpiry key owner ttl).runAmid (.alone clock) keyspace).1 = .ok extended ∧
      (extended = true ↔ entry.Names owner ∧ entry.NamesPlainly)
  deletes : ∀ owner, ∃ deleted,
    ((LockRecord.delete key owner).runAmid (.alone clock) keyspace).1 = .ok deleted ∧
      (deleted = true ↔ entry.Names owner ∧ entry.NamesPlainly)

/-- What the operations of a holder come to on a live record that names it and that nobody
else touches. -/
structure Claimant.Kept (c : Claimant) (entry : Entry) (clock : Nat → Instant)
    (keyspace : Keyspace) : Prop where
  extended : entry.NamesPlainly →
    (c.renew.runAmid (.alone clock) keyspace).1 = (.ok .extended, c)
  released : entry.NamesPlainly → ∃ visit, c.release.runAmid (.alone clock) keyspace =
    ((.ok true, { c with standing := .free }), [visit]) ∧ visit.leaves? c.key = none
  /-- A holder whose record is spelt otherwise is told that it lost the lock to itself. -/
  lost : ¬entry.NamesPlainly → (c.renew.runAmid (.alone clock) keyspace).1 =
    (.ok (.lost (some c.pid)), { c with standing := .heldByOther (some c.pid) })
  /-- It cannot give the lock up either. -/
  stranded : ¬entry.NamesPlainly → ∃ visit, c.release.runAmid (.alone clock) keyspace =
    ((.ok false, { c with standing := .free }), [visit]) ∧ visit.leaves? c.key = some entry

variable {keyspace : Keyspace} {key : String} {clock : Nat → Instant} {entry : Entry}

/-- The owner that a live record names is read from it, and it is the one that is checked
exactly where it is named by a plain numeral; a holder whose record names it then extends
the record and gives it up, and otherwise can do neither. -/
theorem checked_as_read_iff_plain (live : ∀ n, keyspace.live? key (clock n) = some entry) :
    entry.Checked key clock keyspace ∧
      ∀ c : Claimant, c.key = key → c.standing = .heldBySelf → entry.Names c.pid →
        c.Kept entry clock keyspace := by
  have stands := Keyspace.get?_of_live? (live 0)
  have fresh : ∀ n, entry.isExpired (clock n) = false :=
    fun n => (Keyspace.live?_eq_some_iff.mp (live n)).2
  have checks (owner : Pid) : (isOwnedBy owner).holds entry = true ↔
      entry.Names owner ∧ entry.NamesPlainly := by
    rw [Entry.holds_isOwnedBy_iff, Entry.belongsTo_iff]
  constructor
  · constructor
    case reads =>
      exact ⟨_, LockProgram.readOwner_alone (live 0), fun _ => Entry.ownerOf?_eq_some_iff⟩
    case refreshes =>
      exact fun owner ttl => ⟨_, LockProgram.refreshExpiry_alone (live 0), checks owner⟩
    case deletes => exact fun owner => ⟨_, LockProgram.delete_alone (live 0), checks owner⟩
  · rintro c rfl held names
    have released := c.release_alone held (live 0)
    constructor
    case extended =>
      intro plain
      exact c.renew_gives_extended held fresh (Entry.belongsTo_iff.mpr ⟨names, plain⟩) _ _ stands
    case released =>
      intro plain
      have holds := (checks c.pid).mpr ⟨names, plain⟩
      rw [holds] at released
      exact ⟨_, released, by simp [Visit.leaves?, Visit.left, live 0, holds, Option.filter]⟩
    case lost =>
      intro unplain
      have reads := Entry.ownerOf?_eq_some_iff.mpr names
      have others : ¬entry.BelongsTo c.pid := fun own => unplain (Entry.belongsTo_iff.mp own).2
      exact c.renew_gives_lost held fresh reads others _ _ stands
    case stranded =>
      intro unplain
      have fails : (isOwnedBy c.pid).holds entry = false :=
        Bool.eq_false_iff.mpr fun holds => unplain ((checks c.pid).mp holds).2
      rw [fails] at released
      exact ⟨_, released, by simp [Visit.leaves?, Visit.left, live 0, fails, Option.filter]⟩

/-- A lock record, without expiry, whose owner is spelt with a plus sign. -/
def signed : Entry :=
  ⟨TextMap.empty.insert ownerField "+7", none⟩

/-- A store with such a lock. -/
def signedLock : Keyspace :=
  ⟨TextMap.empty.insert "lock" signed, false⟩

theorem live?_signedLock (now : Instant) : signedLock.live? "lock" now = some signed :=
  Keyspace.live?_eq_some_iff.mpr ⟨by decide, rfl⟩

/-- The holder of such a lock can neither keep it nor give it up. -/
theorem checked_as_read_iff_plain_of_signed :
    let c : Claimant := ⟨"lock", 7, .ofSeconds 10, .heldBySelf⟩
    (c.renew.runAmid (.alone fun _ => default) signedLock).1 =
        (.ok (.lost (some 7)), { c with standing := .heldByOther (some 7) }) ∧
      ∃ visit, c.release.runAmid (.alone fun _ => default) signedLock =
        ((.ok false, { c with standing := .free }), [visit]) ∧
          visit.leaves? "lock" = some signed := by
  intro c
  have names : signed.Names c.pid := Entry.ownerOf?_eq_some_iff.mp (by decide)
  have kept : c.Kept signed (fun _ => default) signedLock :=
    (checked_as_read_iff_plain fun _ => live?_signedLock _).2 c rfl rfl names
  have unplain : ¬signed.NamesPlainly := by
    rintro ⟨text, found, numeral⟩
    obtain rfl : "+7" = text := by simpa [signed] using found
    exact absurd numeral (by decide)
  exact ⟨kept.lost unplain, kept.stranded unplain⟩

/-- So it is not true that the owner that is read is always the one that is checked. -/
theorem not_always_checked_as_read :
    ¬∀ (keyspace : Keyspace) (key : String) (clock : Nat → Instant) (entry : Entry) (owner : Pid)
      (ttl : Duration), (∀ n, keyspace.live? key (clock n) = some entry) →
        (((readOwner key).runAmid (.alone clock) keyspace).1 = .ok (some (some owner)) ↔
          ((refreshExpiry key owner ttl).runAmid (.alone clock) keyspace).1 = .ok true ∧
            ((LockRecord.delete key owner).runAmid (.alone clock) keyspace).1 = .ok true) := by
  intro checked
  have both := checked signedLock "lock" (fun _ => default) signed 7 (.ofSeconds 10)
    fun _ => live?_signedLock _
  have refreshed := (both.mp rfl).1
  exact absurd (Except.ok.inj refreshed) (by decide)

end Leasehold
