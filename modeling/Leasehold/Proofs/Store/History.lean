import Leasehold.Proofs.Store.View

/-!
# Calls that have been made

What a party has done to a store is the list of the calls it has made, the last
one first, each with its reply and the time of it. Of this history only two
things matter for the record under a key: the expiry that the last renewal put on
it, where a renewal is a creation or an extension that was checked against the
owner and succeeded, and whether the party has deleted the record since.
-/

namespace Leasehold

/-- A call that has been made: the reply that it got, and when. -/
structure MadeCall where
  call : StoreCall
  reply : call.Reply
  time : Instant

namespace MadeCall

/-- The expiry that a call put on the record under a key for its owner. -/
def renewal? (key : String) : MadeCall → Option Instant
  | ⟨.create other _ ttl, .ok true, time⟩ => if other = key then some (time.add ttl) else none
  | ⟨.expire other ttl (.fieldEquals _ _), .ok true, time⟩ =>
    if other = key then some (time.add ttl) else none
  | _ => none

/-- Whether a call has deleted the record under a key. -/
def deletes (key : String) : MadeCall → Bool
  | ⟨.delete other _, .ok true, _⟩ => other == key
  | _ => false

variable {key : String}

@[simp]
theorem renewal?_error (call : StoreCall) (failure : Failure) (time : Instant) :
    renewal? key ⟨call, .error failure, time⟩ = none := by
  cases call with
  | expire other ttl condition => cases condition <;> rfl
  | _ => rfl

@[simp]
theorem deletes_error (call : StoreCall) (failure : Failure) (time : Instant) :
    deletes key ⟨call, .error failure, time⟩ = false := by
  cases call <;> rfl

theorem renewal?_of_spares {made : MadeCall} (spares : made.call.Spares key) :
    made.renewal? key = none := by
  rcases made with ⟨call, reply, time⟩
  cases call with
  | create other fields ttl =>
      rcases reply with failure | _ | _
      · rfl
      · rfl
      · exact if_neg spares
  | expire other ttl condition =>
      cases condition with
      | fieldEquals field value =>
          rcases reply with failure | _ | _
          · rfl
          · rfl
          · exact if_neg spares
      | always => rfl
      | noExpiry => rfl
  | _ => rfl

theorem deletes_of_spares {made : MadeCall} (spares : made.call.Spares key) :
    made.deletes key = false := by
  rcases made with ⟨call, reply, time⟩
  cases call with
  | delete other condition =>
      rcases reply with failure | _ | _
      · rfl
      · rfl
      · exact beq_eq_false_iff_ne.mpr spares
  | _ => rfl

end MadeCall

/-- The calls that a party has made, the last one first. -/
abbrev History :=
  List MadeCall

namespace History

/-- The expiry that the last renewal put on the record under a key. -/
def lastRenewal? (key : String) : History → Option Instant
  | [] => none
  | made :: earlier => (made.renewal? key).or (lastRenewal? key earlier)

/-- Whether the record under a key has been deleted since the last renewal. -/
def isGivenUp (key : String) : History → Bool
  | [] => false
  | made :: earlier =>
    made.deletes key || (made.renewal? key).isNone && isGivenUp key earlier

/-- That there has been a renewal, and no deletion since. -/
def HasLease (key : String) (history : History) : Prop :=
  (lastRenewal? key history).isSome ∧ isGivenUp key history = false

variable {key : String} {made : MadeCall} {history : History}

theorem lastRenewal?_cons_of_none (idle : made.renewal? key = none) :
    lastRenewal? key (made :: history) = lastRenewal? key history := by
  rw [lastRenewal?, idle, Option.none_or]

theorem lastRenewal?_cons_of_some {expiry : Instant} (renews : made.renewal? key = some expiry) :
    lastRenewal? key (made :: history) = some expiry := by
  rw [lastRenewal?, renews, Option.some_or]

theorem isGivenUp_cons_of_none (idle : made.renewal? key = none)
    (keeps : made.deletes key = false) :
    isGivenUp key (made :: history) = isGivenUp key history := by
  rw [isGivenUp, idle, keeps]
  rfl

/-- A renewal is no deletion, so it gives a lease. -/
theorem hasLease_of_renewal {expiry : Instant} (renews : made.renewal? key = some expiry) :
    HasLease key (made :: history) := by
  have keeps : made.deletes key = false := by
    rcases made with ⟨call, reply, time⟩
    cases call with
    | delete other condition => simp [MadeCall.renewal?] at renews
    | _ => rfl
  constructor
  · rw [lastRenewal?_cons_of_some renews]
    rfl
  · rw [isGivenUp, renews, keeps]
    rfl

/-- There is no lease without a renewal. -/
theorem HasLease.of_append {calls : History} (idle : ∀ made ∈ calls, made.renewal? key = none)
    (lease : HasLease key (calls ++ history)) : history.HasLease key := by
  induction calls with
  | nil => exact lease
  | cons made calls ih =>
      rw [List.forall_mem_cons] at idle
      obtain ⟨renewed, kept⟩ := lease
      rw [List.cons_append, lastRenewal?_cons_of_none idle.1] at renewed
      rw [List.cons_append, isGivenUp, idle.1, Bool.or_eq_false_iff] at kept
      exact ih idle.2 ⟨renewed, by simpa using kept.2⟩

/-- Calls that neither renew nor delete leave a lease as it is. -/
theorem hasLease_cons_iff (idle : made.renewal? key = none) (keeps : made.deletes key = false) :
    HasLease key (made :: history) ↔ HasLease key history := by
  rw [HasLease, HasLease, lastRenewal?_cons_of_none idle, isGivenUp_cons_of_none idle keeps]

theorem hasLease_cons_iff_of_spares (spares : made.call.Spares key) :
    HasLease key (made :: history) ↔ HasLease key history :=
  hasLease_cons_iff (MadeCall.renewal?_of_spares spares) (MadeCall.deletes_of_spares spares)

theorem hasLease_cons_iff_of_error {call : StoreCall} {failure : Failure} {time : Instant} :
    HasLease key (⟨call, .error failure, time⟩ :: history) ↔ HasLease key history :=
  hasLease_cons_iff (MadeCall.renewal?_error ..) (MadeCall.deletes_error ..)

/-- Once there has been a renewal there always has been one. -/
theorem isSome_lastRenewal?_cons (renewed : (lastRenewal? key history).isSome) :
    (lastRenewal? key (made :: history)).isSome := by
  cases renewal : made.renewal? key with
  | none => rwa [lastRenewal?_cons_of_none renewal]
  | some expiry =>
      rw [lastRenewal?_cons_of_some renewal]
      rfl

/-- That since an earlier history only calls have been made that neither renew
the record under a key nor delete it. -/
inductive Quiet (key : String) (base : History) : History → Prop
  | refl : Quiet key base base
  | cons {made : MadeCall} {later : History} (idle : made.renewal? key = none)
      (keeps : made.deletes key = false) (quiet : Quiet key base later) :
      Quiet key base (made :: later)

theorem Quiet.lastRenewal?_eq {base later : History} (quiet : Quiet key base later) :
    lastRenewal? key later = lastRenewal? key base := by
  induction quiet with
  | refl => rfl
  | cons idle _ _ ih => rw [lastRenewal?_cons_of_none idle, ih]

theorem Quiet.hasLease_iff {base later : History} (quiet : Quiet key base later) :
    HasLease key later ↔ HasLease key base := by
  induction quiet with
  | refl => rfl
  | cons idle keeps _ ih => rw [hasLease_cons_iff idle keeps, ih]

/-- Where all calls have been quiet, none of them has put an expiry anywhere. -/
theorem Quiet.renewal?_eq_none {later : History} (quiet : Quiet key [] later) :
    ∀ made ∈ later, made.renewal? key = none := by
  induction quiet with
  | refl => simp
  | cons idle _ _ ih => exact List.forall_mem_cons.mpr ⟨idle, ih⟩

/-- That the record under a key was renewed and that all calls since have spared it. -/
inductive Fresh (key : String) : History → Prop
  | renewed {made : MadeCall} {earlier : History} (renews : (made.renewal? key).isSome) :
      Fresh key (made :: earlier)
  | spared {made : MadeCall} {later : History} (spares : made.call.Spares key)
      (fresh : Fresh key later) : Fresh key (made :: later)

theorem Fresh.hasLease (fresh : Fresh key history) : HasLease key history := by
  induction fresh with
  | renewed renews =>
      rcases Option.isSome_iff_exists.mp renews with ⟨expiry, renews⟩
      exact hasLease_of_renewal renews
  | spared spares _ ih =>
      rw [hasLease_cons_iff_of_spares spares]
      exact ih

end History

end Leasehold
