import Leasehold.Proofs.Lock.Course

/-!
# Records and the calls of their owner

If nobody writes an owner's name into the record but the owner, the calls that the
owner has made tell what there is to know of a record of that name: it expires when the
last renewal said, and once a call has shown that there is none, there is none until
the owner makes one.
-/

namespace Leasehold

open LockRecord

/-! ## Reading owners -/

namespace Text

theorem isBlank_of_isDigit {c : Char} (digit : c.isDigit = true) : isBlank c = false := by
  simp only [Char.isDigit, Bool.and_eq_true, decide_eq_true_eq] at digit
  have first : 0x30 ≤ c.toNat := UInt32.le_iff_toNat_le.mp digit.1
  have last : c.toNat ≤ 0x39 := UInt32.le_iff_toNat_le.mp digit.2
  simp only [isBlank, Bool.or_eq_false_iff, Bool.and_eq_false_iff, decide_eq_false_iff_not,
    beq_eq_false_iff_ne]
  omega

theorem trimStart_eq_self {cs : List Char} (solid : ∀ c ∈ cs, isBlank c = false) :
    trimStart cs = cs := by
  cases cs with
  | nil => rfl
  | cons c cs => simp [trimStart, solid c List.mem_cons_self]

/-- Text without blanks is not trimmed. -/
theorem trim_eq_self {cs : List Char} (solid : ∀ c ∈ cs, isBlank c = false) : trim cs = cs := by
  have solid' : ∀ c ∈ cs.reverse, isBlank c = false :=
    fun c member => solid c (List.mem_reverse.mp member)
  rw [trim, trimStart_eq_self solid, trimStart_eq_self solid', List.reverse_reverse]

end Text

namespace LockRecord

/-- The text of an owner names that owner. -/
theorem readOwner?_ownerText (owner : Pid) : readOwner? (ownerText owner) = some owner := by
  have digits : ∀ c ∈ Text.decimal owner.toNat, c.isDigit = true :=
    fun _ member => Text.isDigit_of_mem_decimal member
  have solid : Text.trim (Text.decimal owner.toNat) = Text.decimal owner.toNat :=
    Text.trim_eq_self fun c member => Text.isBlank_of_isDigit (digits c member)
  have unsigned : ∀ rest, Text.decimal owner.toNat ≠ '+' :: rest := by
    intro rest same
    have plus := digits '+' (same ▸ List.mem_cons_self)
    exact absurd plus (by decide)
  simp only [readOwner?, ownerText, String.toList_ofList, solid]
  rw [Text.readDecimal?_decimal]
  simp [UInt32.toNat_lt_size owner]

end LockRecord

/-- A record that belongs to an owner names that owner. -/
theorem Entry.BelongsTo.ownerOf? {entry : Entry} {owner : Pid} (own : entry.BelongsTo owner) :
    LockRecord.ownerOf? entry.fields = some owner := by
  rw [LockRecord.ownerOf?, own]
  exact readOwner?_ownerText owner

/-! ## What the calls of an owner tell -/

/-- Whether a call is made in the name of an owner. -/
def StoreCall.isFor (owner : Pid) : StoreCall → Bool
  | .create _ fields _ => fields == ownedBy owner
  | .expire _ _ condition => condition == isOwnedBy owner
  | .delete _ condition => condition == isOwnedBy owner
  | _ => false

/-- Whether a call gives up the record under a key for an owner. -/
def StoreCall.yields (key : String) (owner : Pid) : StoreCall → Bool
  | .delete other condition => other == key && condition == isOwnedBy owner
  | _ => false

/-- The expiry that a call has put on the record under a key in the name of an owner. -/
def MadeCall.renewalFor? (key : String) (owner : Pid) (made : MadeCall) : Option Instant :=
  if made.call.isFor owner then made.renewal? key else none

/-- Whether a call shows that there is no record of an owner under a key. -/
def MadeCall.misses (key : String) (owner : Pid) : MadeCall → Bool
  | ⟨.fetch other, .ok fields, _⟩ =>
    other == key && fields.all fun fields => ownerOf? fields != some owner
  | ⟨.expire other _ condition, .ok false, _⟩ => other == key && condition == isOwnedBy owner
  | ⟨.delete other condition, .ok _, _⟩ => other == key && condition == isOwnedBy owner
  | _ => false

namespace History

/-- The expiry that the last renewal in the name of an owner has put on the record under
a key. -/
def lastRenewalFor? (key : String) (owner : Pid) : History → Option Instant
  | [] => none
  | made :: earlier => (made.renewalFor? key owner).or (lastRenewalFor? key owner earlier)

/-- Whether calls have shown that there is no record of an owner under a key, and the
owner has not made one since. -/
def isGone (key : String) (owner : Pid) : History → Bool
  | [] => false
  | made :: earlier =>
    made.misses key owner ||
      (made.renewalFor? key owner).isNone && isGone key owner earlier

end History

theorem LockRecord.ownedBy_injective : Function.Injective ownedBy := by
  intro p q same
  have own : (⟨ownedBy p, none⟩ : Entry).BelongsTo q := same ▸ Entry.belongsTo_ownedBy q none
  exact Entry.belongsTo_unique (Entry.belongsTo_ownedBy p none) own

theorem LockRecord.isOwnedBy_injective : Function.Injective isOwnedBy := by
  intro p q same
  exact ownerText_injective (Condition.fieldEquals.inj same).2

namespace MadeCall

variable {key : String} {owner other : Pid} {call : StoreCall} {time : Instant}

@[simp]
theorem renewalFor?_error (failure : Failure) :
    renewalFor? key owner ⟨call, .error failure, time⟩ = none := by
  rw [renewalFor?, renewal?_error, ite_self]

@[simp]
theorem misses_error (failure : Failure) :
    misses key owner ⟨call, .error failure, time⟩ = false := by
  cases call <;> rfl

theorem renewalFor?_claim {ttl : Duration} :
    renewalFor? key owner ⟨.create key (ownedBy owner) ttl, .ok true, time⟩ =
      some (time.add ttl) := by
  rw [renewalFor?, if_pos (by simp [StoreCall.isFor])]
  exact renewal?_claim

theorem renewalFor?_refresh {ttl : Duration} :
    renewalFor? key owner ⟨.expire key ttl (isOwnedBy owner), .ok true, time⟩ =
      some (time.add ttl) := by
  rw [renewalFor?, if_pos (by simp [StoreCall.isFor])]
  exact renewal?_refresh

/-- What is done for another owner renews nothing for this one. -/
theorem renewalFor?_of_ne (acts : call.ActsFor key other) (different : other ≠ owner)
    (reply : call.Reply) : renewalFor? key owner ⟨call, reply, time⟩ = none := by
  rw [renewalFor?]
  cases acts with
  | claim ttl => simp [StoreCall.isFor, ownedBy_injective.eq_iff, different]
  | refresh ttl => simp [StoreCall.isFor, isOwnedBy_injective.eq_iff, different]
  | arm ttl => simp [StoreCall.isFor, isOwnedBy]
  | delete => simp [StoreCall.isFor, isOwnedBy_injective.eq_iff, different]
  | spare spares => rw [renewal?_of_spares spares, ite_self]

end MadeCall

namespace Keyspace

/-! ## Records and calls agree -/

/-- That there is no record of an owner under a key. -/
def Unowned (keyspace : Keyspace) (key : String) (owner : Pid) : Prop :=
  ∀ entry, keyspace.entries.get? key = some entry → ¬entry.BelongsTo owner

/-- That the calls of an owner tell what there is to know of a record of that name. -/
structure Tallies (keyspace : Keyspace) (key : String) (owner : Pid) (history : History) :
    Prop where
  expires : ∀ entry, keyspace.entries.get? key = some entry → entry.BelongsTo owner →
    ∃ expiry, history.lastRenewalFor? key owner = some expiry ∧ entry.expiresAt = some expiry
  gone : history.isGone key owner = true → keyspace.Unowned key owner

variable {keyspace keyspace' : Keyspace} {key : String} {owner other : Pid} {history : History}
  {call : StoreCall} {now : Instant}

/-- A record of an owner that there is after the call of another was there before, and
had the same expiry unless it had none. -/
theorem own_before (acts : call.ActsFor key other) (different : other ≠ owner) {entry : Entry}
    (found : (keyspace.serve now call).2.entries.get? key = some entry)
    (own : entry.BelongsTo owner) :
    ∃ before, keyspace.entries.get? key = some before ∧ before.BelongsTo owner ∧
      (before.expiresAt.isSome → entry = before) := by
  cases acts with
  | claim ttl =>
      rw [serve_create_record] at found
      cases live : keyspace.live? key now with
      | none =>
          rw [live] at found
          obtain rfl := Option.some.inj found
          exact absurd (Entry.belongsTo_unique (Entry.belongsTo_ownedBy other _) own) different
      | some before =>
          rw [live] at found
          obtain rfl := Option.some.inj found
          exact ⟨before, get?_of_live? live, own, fun _ => rfl⟩
  | refresh ttl =>
      rw [serve_expire_record] at found
      rcases Option.map_eq_some_iff.mp found with ⟨before, live, rfl⟩
      split at own
      next holds =>
        exact absurd (Entry.belongsTo_unique (Entry.holds_isOwnedBy_iff.mp holds) own) different
      next fails =>
        exact ⟨before, get?_of_live? live, own, fun _ => if_neg fails⟩
  | arm ttl =>
      rw [serve_expire_record] at found
      rcases Option.map_eq_some_iff.mp found with ⟨before, live, rfl⟩
      refine ⟨before, get?_of_live? live, ?_, ?_⟩
      · split at own <;> exact own
      · intro expires
        rw [if_neg]
        simpa [Condition.holds, Option.isSome_iff_ne_none] using expires
  | delete =>
      rw [serve_delete_record] at found
      have live := (Option.filter_eq_some_iff.mp found).1
      exact ⟨entry, get?_of_live? live, own, fun _ => rfl⟩
  | spare spares =>
      rw [get?_serve_of_spares spares] at found
      exact ⟨entry, get?_of_live? found, own, fun _ => rfl⟩

/-- What others do to the store changes nothing about a record of the owner. -/
theorem Tallies.meddle (tallies : keyspace.Tallies key owner history)
    (acts : call.ActsFor key other) (different : other ≠ owner) :
    (keyspace.serve now call).2.Tallies key owner history := by
  constructor
  · intro entry found own
    rcases own_before acts different found own with ⟨before, stored, own', same⟩
    rcases tallies.expires before stored own' with ⟨expiry, renewed, expires⟩
    obtain rfl := same (by rw [expires]; rfl)
    exact ⟨expiry, renewed, expires⟩
  · intro gone entry found own
    rcases own_before acts different found own with ⟨before, stored, own', -⟩
    exact tallies.gone gone before stored own'

/-- A call that has renewed nothing adds what it shows. -/
theorem Tallies.cons (tallies : keyspace.Tallies key owner history) {made : MadeCall}
    (idle : made.renewalFor? key owner = none)
    (shows : made.misses key owner = true → keyspace.Unowned key owner) :
    keyspace.Tallies key owner (made :: history) := by
  constructor
  · intro entry found own
    rw [History.lastRenewalFor?, idle, Option.none_or]
    exact tallies.expires entry found own
  · intro gone entry found own
    rw [History.isGone, idle, Bool.or_eq_true] at gone
    rcases gone with misses | gone
    · exact shows misses entry found own
    · exact tallies.gone gone entry found own

/-- A call that has renewed the record leaves one of the owner with the new expiry. -/
theorem tallies_of_renewal {made : MadeCall} {entry : Entry} {expiry : Instant}
    (renews : made.renewalFor? key owner = some expiry) (finds : made.misses key owner = false)
    (found : keyspace.entries.get? key = some entry) (expires : entry.expiresAt = some expiry) :
    keyspace.Tallies key owner (made :: history) := by
  constructor
  · intro entry' found' own
    obtain rfl := Option.some.inj (found.symm.trans found')
    exact ⟨expiry, by rw [History.lastRenewalFor?, renews, Option.some_or], expires⟩
  · intro gone
    rw [History.isGone, renews, finds] at gone
    contradiction

/-- Purging takes nothing from the tally. -/
theorem Tallies.purge (tallies : keyspace.Tallies key owner history)
    (same : keyspace'.entries.get? key = keyspace.live? key now) :
    keyspace'.Tallies key owner history := by
  constructor
  · intro entry found own
    rw [same] at found
    exact tallies.expires entry (get?_of_live? found) own
  · intro gone entry found own
    rw [same] at found
    exact tallies.gone gone entry (get?_of_live? found) own

/-- A call that only looks shows what is there. -/
theorem shows_of_spares (spares : call.Spares key)
    (misses : MadeCall.misses key owner ⟨call, .ok (keyspace.serve now call).1, now⟩ = true) :
    (keyspace.serve now call).2.Unowned key owner := by
  intro entry found own
  rw [get?_serve_of_spares spares] at found
  cases call with
  | fetch other =>
      simp only [MadeCall.misses, Bool.and_eq_true, beq_iff_eq] at misses
      obtain ⟨rfl, others⟩ := misses
      rw [serve_fetch_answer, found] at others
      simp [own.ownerOf?] at others
  | expire other ttl condition =>
      cases answer : (keyspace.serve now (.expire other ttl condition)).1 with
      | true => simp [MadeCall.misses, answer] at misses
      | false =>
          simp only [MadeCall.misses, answer, Bool.and_eq_true, beq_iff_eq] at misses
          exact spares misses.1
  | delete other condition =>
      simp only [MadeCall.misses, Bool.and_eq_true, beq_iff_eq] at misses
      exact spares misses.1
  | _ => contradiction

theorem Tallies.serve_of_ne (tallies : keyspace.Tallies key owner history)
    (acts : call.ActsFor key other) (different : other ≠ owner) :
    (keyspace.serve now call).2.Tallies key owner
      (⟨call, .ok (keyspace.serve now call).1, now⟩ :: history) := by
  apply (tallies.meddle acts different).cons (MadeCall.renewalFor?_of_ne acts different _)
  intro misses
  cases acts with
  | claim ttl => contradiction
  | refresh ttl =>
      cases answer : (keyspace.serve now (.expire key ttl (isOwnedBy other))).1 with
      | true => simp [MadeCall.misses, answer] at misses
      | false => simp [MadeCall.misses, answer, isOwnedBy_injective.eq_iff, different] at misses
  | arm ttl =>
      cases answer : (keyspace.serve now (.expire key ttl .noExpiry)).1 with
      | true => simp [MadeCall.misses, answer] at misses
      | false => simp [MadeCall.misses, answer, isOwnedBy] at misses
  | delete => simp [MadeCall.misses, isOwnedBy_injective.eq_iff, different] at misses
  | spare spares => exact shows_of_spares spares misses

/-- A record that has just been made is that of its owner. -/
theorem tallies_of_claim (ttl : Duration) (free : keyspace.live? key now = none) :
    (keyspace.serve now (.create key (ownedBy owner) ttl)).2.Tallies key owner
      (⟨.create key (ownedBy owner) ttl,
        .ok (keyspace.serve now (.create key (ownedBy owner) ttl)).1, now⟩ :: history) := by
  have made : (keyspace.serve now (.create key (ownedBy owner) ttl)).1 = true := by
    simp [free]
  have found : (keyspace.serve now (.create key (ownedBy owner) ttl)).2.entries.get? key =
      some ⟨ownedBy owner, some (now.add ttl)⟩ := by
    simp [free]
  rw [made]
  exact tallies_of_renewal MadeCall.renewalFor?_claim rfl found rfl

theorem Tallies.serve_claim (tallies : keyspace.Tallies key owner history) (ttl : Duration) :
    (keyspace.serve now (.create key (ownedBy owner) ttl)).2.Tallies key owner
      (⟨.create key (ownedBy owner) ttl,
        .ok (keyspace.serve now (.create key (ownedBy owner) ttl)).1, now⟩ :: history) := by
  cases live : keyspace.live? key now with
  | none => exact tallies_of_claim ttl live
  | some entry =>
      have refused : (keyspace.serve now (.create key (ownedBy owner) ttl)).1 = false := by
        simp [live]
      have same : (keyspace.serve now (.create key (ownedBy owner) ttl)).2.entries.get? key =
          keyspace.live? key now := by
        simp [live]
      apply (tallies.purge same).cons
      · rw [refused]
        simp [MadeCall.renewalFor?, MadeCall.renewal?]
      · intro misses
        contradiction

theorem Tallies.serve_refresh (tallies : keyspace.Tallies key owner history) (ttl : Duration) :
    (keyspace.serve now (.expire key ttl (isOwnedBy owner))).2.Tallies key owner
      (⟨.expire key ttl (isOwnedBy owner),
        .ok (keyspace.serve now (.expire key ttl (isOwnedBy owner))).1, now⟩ :: history) := by
  cases answer : (keyspace.serve now (.expire key ttl (isOwnedBy owner))).1 with
  | true =>
      rw [serve_expire_answer] at answer
      rcases (Option.any_eq_true _ _).mp answer with ⟨entry, live, holds⟩
      have found : (keyspace.serve now (.expire key ttl (isOwnedBy owner))).2.entries.get? key =
          some { entry with expiresAt := some (now.add ttl) } := by
        simp [live, holds]
      exact tallies_of_renewal MadeCall.renewalFor?_refresh rfl found rfl
  | false =>
      rw [serve_expire_answer, Option.any_eq_false] at answer
      have same : (keyspace.serve now (.expire key ttl (isOwnedBy owner))).2.entries.get? key =
          keyspace.live? key now := by
        rw [serve_expire_record]
        cases live : keyspace.live? key now with
        | none => rfl
        | some entry => simp [answer entry live]
      apply (tallies.purge same).cons
      · rw [MadeCall.renewalFor?]
        split <;> rfl
      · intro _ entry found own
        rw [same] at found
        exact absurd (Entry.holds_isOwnedBy_iff.mpr own) (by simp [answer entry found])

/-- A record of an owner is gone once the owner has deleted it. -/
theorem tallies_delete :
    (keyspace.serve now (.delete key (isOwnedBy owner))).2.Tallies key owner
      (⟨.delete key (isOwnedBy owner),
        .ok (keyspace.serve now (.delete key (isOwnedBy owner))).1, now⟩ :: history) := by
  have others : (keyspace.serve now (.delete key (isOwnedBy owner))).2.Unowned key owner := by
    intro entry found own
    rw [serve_delete_record] at found
    have fails := (Option.filter_eq_some_iff.mp found).2
    simp [Entry.holds_isOwnedBy_iff.mpr own] at fails
  constructor
  · intro entry found own
    exact absurd own (others entry found)
  · intro _
    exact others

/-- Whoever a call is made for, the owner's calls go on to tell. -/
theorem Tallies.serve (tallies : keyspace.Tallies key owner history)
    (acts : call.ActsFor key other) :
    (keyspace.serve now call).2.Tallies key owner
      (⟨call, .ok (keyspace.serve now call).1, now⟩ :: history) := by
  have ⟨another, unequal⟩ : ∃ another : Pid, another ≠ owner := by
    by_cases zero : owner = 0
    · exact ⟨1, by rw [zero]; decide⟩
    · exact ⟨0, Ne.symm zero⟩
  by_cases same : other = owner
  · subst same
    cases acts with
    | claim ttl => exact tallies.serve_claim ttl
    | refresh ttl => exact tallies.serve_refresh ttl
    | arm ttl => exact tallies.serve_of_ne (.arm ttl) unequal
    | delete => exact tallies_delete
    | spare spares => exact tallies.serve_of_ne (.spare spares) unequal
  · exact tallies.serve_of_ne acts same

end Keyspace

end Leasehold
