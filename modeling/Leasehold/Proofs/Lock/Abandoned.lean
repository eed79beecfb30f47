import Leasehold.Proofs.Lock.Course

/-!
# Records that nobody renews

The owner of a record may die. What contenders ask then does little to the record:
it stays while it lasts, only a record without expiry can be given one, and only
once the record is gone a new one is made. Here is what a call of a contender does
to a record of either kind, and what calls tell of it.
-/

namespace Leasehold

open LockRecord

/-! ## What calls tell -/

namespace MadeCall

/-- Whether a call tries to create the record under a key. -/
def claims (key : String) (made : MadeCall) : Bool :=
  match made.call with
  | .create other _ _ => other == key
  | _ => false

/-- Whether a call has created the record under a key. -/
def takes (key : String) : MadeCall → Bool
  | ⟨.create other _ _, .ok true, _⟩ => other == key
  | _ => false

/-- Whether a call has given an expiry to the record under a key, which had none. -/
def arms (key : String) : MadeCall → Bool
  | ⟨.expire other _ .noExpiry, .ok true, _⟩ => other == key
  | _ => false

/-- Whether a call tells that the record under a key does not last: it is new, it is
found to expire, or a contender has set out to make it expire. -/
def tells (key : String) : MadeCall → Bool
  | ⟨.create other _ _, .ok true, _⟩ => other == key
  | ⟨.lifetime other, .ok lifetime, _⟩ => other == key && lifetime.hasExpiry
  | ⟨.expire other _ .noExpiry, .ok _, _⟩ => other == key
  | _ => false

variable {key : String} {made : MadeCall}

theorem tells_of_takes (takes : made.takes key = true) : made.tells key = true := by
  unfold MadeCall.takes at takes
  split at takes
  · exact takes
  · contradiction

theorem tells_of_arms (arms : made.arms key = true) : made.tells key = true := by
  unfold MadeCall.arms at arms
  split at arms
  · exact arms
  · contradiction

end MadeCall

/-- Every call since an earlier history is one of the later history. -/
theorem History.Quiet.mem {key : String} {base later : History}
    (quiet : History.Quiet key base later) {made : MadeCall} (member : made ∈ base) :
    made ∈ later := by
  induction quiet with
  | refl => exact member
  | cons _ _ _ ih => exact List.mem_cons_of_mem _ ih

/-! ## What contenders do to a record -/

namespace Keyspace

variable {keyspace : Keyspace} {key : String} {now : Instant} {owner : Pid} {ttl : Duration}
  {call : StoreCall} {fields : Fields}

/-- A record that expires is left alone by contenders until it is gone; the first
that claims it then has it. -/
theorem serve_expiring (contends : call.Contends key owner ttl)
    (expires : ∀ entry, keyspace.live? key now = some entry → entry.expiresAt.isSome) :
    let made : MadeCall := ⟨call, .ok (keyspace.serve now call).1, now⟩
    made.arms key = false ∧
      (made.takes key = false ∧
          (keyspace.serve now call).2.entries.get? key = keyspace.live? key now ∨
        made.takes key = true ∧ keyspace.live? key now = none ∧
          (keyspace.serve now call).2.entries.get? key =
            some ⟨ownedBy owner, some (now.add ttl)⟩) := by
  cases contends with
  | claim =>
      apply And.intro rfl
      cases live : keyspace.live? key now with
      | none =>
          have made : (keyspace.serve now (.create key (ownedBy owner) ttl)).1 = true := by
            simp [live]
          exact .inr ⟨by simp [made, MadeCall.takes], rfl, by simp [live]⟩
      | some entry =>
          have refused : (keyspace.serve now (.create key (ownedBy owner) ttl)).1 = false := by
            simp [live]
          exact .inl ⟨by rw [refused]; rfl, by simp [live]⟩
  | inquire =>
      have reads : (StoreCall.lifetime key).Spares key := trivial
      exact ⟨rfl, .inl ⟨rfl, get?_serve_of_spares reads keyspace now⟩⟩
  | look =>
      have reads : (StoreCall.fetch key).Spares key := trivial
      exact ⟨rfl, .inl ⟨rfl, get?_serve_of_spares reads keyspace now⟩⟩
  | arm =>
      have fails : ∀ entry, keyspace.live? key now = some entry →
          Condition.noExpiry.holds entry = false := by
        intro entry live
        simpa [Condition.holds] using expires entry live
      have refused : (keyspace.serve now (.expire key ttl .noExpiry)).1 = false := by
        rw [serve_expire_answer]
        cases live : keyspace.live? key now with
        | none => rfl
        | some entry => exact fails entry live
      have same : (keyspace.serve now (.expire key ttl .noExpiry)).2.entries.get? key =
          keyspace.live? key now := by
        rw [serve_expire_record]
        cases live : keyspace.live? key now with
        | none => rfl
        | some entry => simp [fails entry live]
      exact ⟨by rw [refused]; rfl, .inl ⟨rfl, same⟩⟩

/-- A record without expiry never goes by itself. -/
theorem live?_of_lasting (lasts : keyspace.entries.get? key = some ⟨fields, none⟩) :
    keyspace.live? key now = some ⟨fields, none⟩ :=
  live?_eq_some_iff.mpr ⟨lasts, rfl⟩

/-- A record without expiry is left alone by contenders until one of them gives it an
expiry. -/
theorem serve_lasting (contends : call.Contends key owner ttl)
    (lasts : keyspace.entries.get? key = some ⟨fields, none⟩) :
    let made : MadeCall := ⟨call, .ok (keyspace.serve now call).1, now⟩
    made.tells key = false ∧
        (keyspace.serve now call).2.entries.get? key = some ⟨fields, none⟩ ∨
      made = ⟨.expire key ttl .noExpiry, .ok true, now⟩ ∧
        (keyspace.serve now call).2.entries.get? key = some ⟨fields, some (now.add ttl)⟩ := by
  have live : keyspace.live? key now = some ⟨fields, none⟩ := live?_of_lasting lasts
  cases contends with
  | claim =>
      have refused : (keyspace.serve now (.create key (ownedBy owner) ttl)).1 = false := by
        simp [live]
      exact .inl ⟨by rw [refused]; rfl, by simp [live]⟩
  | inquire =>
      have unending : (keyspace.serve now (.lifetime key)).1 = .persistent := by
        simp [serve, apply, lifetime, live]
      have reads : (StoreCall.lifetime key).Spares key := trivial
      exact .inl ⟨by simp [unending, MadeCall.tells, Lifetime.hasExpiry],
        (get?_serve_of_spares reads keyspace now).trans live⟩
  | look =>
      have reads : (StoreCall.fetch key).Spares key := trivial
      exact .inl ⟨rfl, (get?_serve_of_spares reads keyspace now).trans live⟩
  | arm =>
      have armed : (keyspace.serve now (.expire key ttl .noExpiry)).1 = true := by
        simp [live, Condition.holds]
      exact .inr ⟨by rw [armed], by simp [live, Condition.holds]⟩

end Keyspace

end Leasehold
