import Leasehold.Lock.Record
import Leasehold.Proofs.Store.History

/-!
# Leases

An owner has a lease on the lock record from a renewal until the expiry that it
put there. What keeps a lease is that nobody else can touch the record meanwhile:
a live record cannot be created again, it has an expiry and so cannot be given
one, and extending and deleting are checked against the owner's text.

The main statements say what one call does to the leases: a call by another owner
leaves them alone, and a call by the owner moves the lease as its history says.
-/

namespace Leasehold

open LockRecord

/-! ## Owners in the record -/

/-- The text of an owner tells owners apart. -/
theorem LockRecord.ownerText_injective : Function.Injective LockRecord.ownerText := by
  intro p q same
  have digits := congrArg String.toList same
  simp only [LockRecord.ownerText, String.toList_ofList] at digits
  exact UInt32.toNat_inj.mp (Text.decimal_injective digits)

namespace Entry

/-- That the owner field of a record is exactly the text of an owner. -/
def BelongsTo (entry : Entry) (owner : Pid) : Prop :=
  entry.fields.get? ownerField = some (LockRecord.ownerText owner)

instance (entry : Entry) (owner : Pid) : Decidable (entry.BelongsTo owner) :=
  inferInstanceAs (Decidable (_ = _))

theorem holds_isOwnedBy_iff {entry : Entry} {owner : Pid} :
    (isOwnedBy owner).holds entry = true ↔ entry.BelongsTo owner := by
  simp [isOwnedBy, Condition.holds, BelongsTo]

theorem belongsTo_unique {entry : Entry} {owner other : Pid} (own : entry.BelongsTo owner)
    (others : entry.BelongsTo other) : owner = other :=
  ownerText_injective (Option.some.inj (own.symm.trans others))

/-- A record of one owner is not taken for another's. -/
theorem BelongsTo.holds_of_ne {entry : Entry} {owner other : Pid} (own : entry.BelongsTo owner)
    (different : other ≠ owner) : (isOwnedBy other).holds entry = false := by
  rw [Bool.eq_false_iff, Ne, holds_isOwnedBy_iff]
  exact fun others => different (belongsTo_unique others own)

theorem belongsTo_ownedBy (owner : Pid) (expiry : Option Instant) :
    (⟨ownedBy owner, expiry⟩ : Entry).BelongsTo owner := by
  simp [BelongsTo, ownedBy]

end Entry

/-! ## What an owner may ask -/

/-- The calls that an owner makes about the record under a key; all its other
calls spare the record. -/
inductive StoreCall.ActsFor (key : String) (owner : Pid) : StoreCall → Prop
  | claim (ttl : Duration) : ActsFor key owner (.create key (ownedBy owner) ttl)
  | refresh (ttl : Duration) : ActsFor key owner (.expire key ttl (isOwnedBy owner))
  | arm (ttl : Duration) : ActsFor key owner (.expire key ttl .noExpiry)
  | delete : ActsFor key owner (.delete key (isOwnedBy owner))
  | spare {call : StoreCall} (spares : call.Spares key) : ActsFor key owner call

namespace MadeCall

variable {key : String} {owner : Pid} {ttl : Duration} {time : Instant}

@[simp]
theorem renewal?_claim :
    renewal? key ⟨.create key (ownedBy owner) ttl, .ok true, time⟩ = some (time.add ttl) :=
  if_pos rfl

@[simp]
theorem renewal?_refresh :
    renewal? key ⟨.expire key ttl (isOwnedBy owner), .ok true, time⟩ = some (time.add ttl) :=
  if_pos rfl

end MadeCall

namespace Keyspace

/-- That the record under a key belongs to an owner until an expiry. -/
def Leased (keyspace : Keyspace) (key : String) (owner : Pid) (expiry : Instant) : Prop :=
  ∃ entry, keyspace.entries.get? key = some entry ∧ entry.BelongsTo owner ∧
    entry.expiresAt = some expiry

variable {keyspace : Keyspace} {key : String} {now expiry : Instant} {owner other : Pid}

/-- Before its expiry a leased record is live. -/
theorem Leased.live (leased : keyspace.Leased key owner expiry) (before : now < expiry) :
    ∃ entry, keyspace.live? key now = some entry ∧ entry.BelongsTo owner ∧
      entry.expiresAt = some expiry := by
  rcases leased with ⟨entry, found, own, expires⟩
  exact ⟨entry, live?_eq_some_iff.mpr ⟨found, entry.isExpired_eq_false_of_lt expires before⟩,
    own, expires⟩

/-- Before its expiry a lease is not touched by a call for another owner. -/
theorem Leased.serve_of_ne (leased : keyspace.Leased key owner expiry) (before : now < expiry)
    {call : StoreCall} (acts : call.ActsFor key other) (different : other ≠ owner) :
    (keyspace.serve now call).2.Leased key owner expiry := by
  rcases leased.live before with ⟨entry, live, own, expires⟩
  have foreign := own.holds_of_ne different
  cases acts with
  | claim ttl => exact ⟨entry, by simp [live], own, expires⟩
  | refresh ttl => exact ⟨entry, by simp [live, foreign], own, expires⟩
  | arm ttl => exact ⟨entry, by simp [live, Condition.holds, expires], own, expires⟩
  | delete => exact ⟨entry, by simp [live, foreign, Option.filter], own, expires⟩
  | spare spares => exact ⟨entry, by rw [get?_serve_of_spares spares, live], own, expires⟩

/-- Nor is it renewed by one. -/
theorem Leased.renewal?_of_ne (leased : keyspace.Leased key owner expiry) (before : now < expiry)
    {call : StoreCall} (acts : call.ActsFor key other) (different : other ≠ owner) :
    MadeCall.renewal? key ⟨call, .ok (keyspace.serve now call).1, now⟩ = none := by
  rcases leased.live before with ⟨entry, live, own, -⟩
  have foreign := own.holds_of_ne different
  cases acts with
  | claim ttl => rw [serve_create_answer, live]; rfl
  | refresh ttl => rw [serve_expire_answer, live, Option.any_some, foreign]; rfl
  | arm ttl => rfl
  | delete => rfl
  | spare spares => exact MadeCall.renewal?_of_spares spares

end Keyspace

/-! ## Leases and histories -/

/-- That the store honours the lease which the history of an owner gives it. -/
def Keyspace.Honours (keyspace : Keyspace) (key : String) (owner : Pid) (now : Instant)
    (history : History) : Prop :=
  ∀ expiry, history.lastRenewal? key = some expiry → history.isGivenUp key = false →
    now < expiry → keyspace.Leased key owner expiry

namespace Keyspace

variable {keyspace : Keyspace} {key : String} {now later : Instant} {owner other : Pid}
  {history : History} {call : StoreCall}

/-- As time goes by fewer leases have to be honoured. -/
theorem Honours.mono (honours : keyspace.Honours key owner now history) (passes : now ≤ later) :
    keyspace.Honours key owner later history :=
  fun expiry renewed kept before =>
    honours expiry renewed kept (lt_of_le_of_lt passes before)

/-- A call that failed is no part of the lease. -/
theorem Honours.fail (honours : keyspace.Honours key owner now history) (failure : Failure)
    (time : Instant) : keyspace.Honours key owner now (⟨call, .error failure, time⟩ :: history) := by
  intro expiry renewed kept
  rw [History.lastRenewal?_cons_of_none (MadeCall.renewal?_error ..)] at renewed
  rw [History.isGivenUp_cons_of_none (MadeCall.renewal?_error ..) (MadeCall.deletes_error ..)] at kept
  exact honours expiry renewed kept

theorem Honours.serve_of_ne (honours : keyspace.Honours key owner now history)
    (acts : call.ActsFor key other) (different : other ≠ owner) :
    (keyspace.serve now call).2.Honours key owner now history :=
  fun expiry renewed kept before =>
    (honours expiry renewed kept before).serve_of_ne before acts different

theorem Honours.serve_of_spares (honours : keyspace.Honours key owner now history)
    (spares : call.Spares key) : (keyspace.serve now call).2.Honours key owner now history := by
  intro expiry renewed kept before
  rcases (honours expiry renewed kept before).live before with ⟨entry, live, own, expires⟩
  exact ⟨entry, by rw [get?_serve_of_spares spares, live], own, expires⟩

/-- A call that neither renews nor gives up only has to leave the lease alone. -/
theorem honours_cons_of_idle {keyspace' : Keyspace} {made : MadeCall}
    (idle : made.renewal? key = none) (keeps : made.deletes key = false)
    (leaves : ∀ expiry, history.lastRenewal? key = some expiry →
      history.isGivenUp key = false → now < expiry → keyspace'.Leased key owner expiry) :
    keyspace'.Honours key owner now (made :: history) := by
  intro expiry renewed kept
  rw [History.lastRenewal?_cons_of_none idle] at renewed
  rw [History.isGivenUp_cons_of_none idle keeps] at kept
  exact leaves expiry renewed kept

/-- A renewal only has to have put the new expiry on a record of the owner. -/
theorem honours_cons_of_renewal {keyspace' : Keyspace} {made : MadeCall} {expiry : Instant}
    (renews : made.renewal? key = some expiry) (leased : keyspace'.Leased key owner expiry) :
    keyspace'.Honours key owner now (made :: history) := by
  intro expiry' renewed _ _
  rw [History.lastRenewal?_cons_of_some renews] at renewed
  exact Option.some.inj renewed ▸ leased

theorem Honours.serve_claim (honours : keyspace.Honours key owner now history) (ttl : Duration) :
    (keyspace.serve now (.create key (ownedBy owner) ttl)).2.Honours key owner now
      (⟨.create key (ownedBy owner) ttl,
        .ok (keyspace.serve now (.create key (ownedBy owner) ttl)).1, now⟩ :: history) := by
  rw [serve_create_answer]
  cases live : keyspace.live? key now with
  | none =>
      have leased : (keyspace.serve now (.create key (ownedBy owner) ttl)).2.Leased key owner
          (now.add ttl) :=
        ⟨⟨ownedBy owner, some (now.add ttl)⟩, by simp [live], Entry.belongsTo_ownedBy owner _, rfl⟩
      exact honours_cons_of_renewal MadeCall.renewal?_claim leased
  | some entry =>
      apply honours_cons_of_idle rfl rfl
      intro expiry renewed kept before
      rcases (honours expiry renewed kept before).live before with ⟨entry, live, own, expires⟩
      exact ⟨entry, by simp [live], own, expires⟩

theorem Honours.serve_refresh (honours : keyspace.Honours key owner now history)
    (ttl : Duration) :
    (keyspace.serve now (.expire key ttl (isOwnedBy owner))).2.Honours key owner now
      (⟨.expire key ttl (isOwnedBy owner),
        .ok (keyspace.serve now (.expire key ttl (isOwnedBy owner))).1, now⟩ :: history) := by
  rw [serve_expire_answer]
  cases extended : (keyspace.live? key now).any (isOwnedBy owner).holds with
  | true =>
      rcases (Option.any_eq_true _ _).mp extended with ⟨entry, live, holds⟩
      have leased : (keyspace.serve now (.expire key ttl (isOwnedBy owner))).2.Leased key owner
          (now.add ttl) :=
        ⟨{ entry with expiresAt := some (now.add ttl) }, by simp [live, holds],
          Entry.holds_isOwnedBy_iff.mp holds, rfl⟩
      exact honours_cons_of_renewal MadeCall.renewal?_refresh leased
  | false =>
      apply honours_cons_of_idle rfl rfl
      intro expiry renewed kept before
      rcases (honours expiry renewed kept before).live before with ⟨entry, live, own, -⟩
      rw [live, Option.any_some, Entry.holds_isOwnedBy_iff.mpr own] at extended
      contradiction

theorem Honours.serve_arm (honours : keyspace.Honours key owner now history) (ttl : Duration) :
    (keyspace.serve now (.expire key ttl .noExpiry)).2.Honours key owner now
      (⟨.expire key ttl .noExpiry,
        .ok (keyspace.serve now (.expire key ttl .noExpiry)).1, now⟩ :: history) := by
  apply honours_cons_of_idle rfl rfl
  intro expiry renewed kept before
  rcases (honours expiry renewed kept before).live before with ⟨entry, live, own, expires⟩
  exact ⟨entry, by simp [live, Condition.holds, expires], own, expires⟩

theorem Honours.serve_delete (honours : keyspace.Honours key owner now history) :
    (keyspace.serve now (.delete key (isOwnedBy owner))).2.Honours key owner now
      (⟨.delete key (isOwnedBy owner),
        .ok (keyspace.serve now (.delete key (isOwnedBy owner))).1, now⟩ :: history) := by
  rw [serve_delete_answer]
  cases deleted : (keyspace.live? key now).any (isOwnedBy owner).holds with
  | true =>
      intro expiry _ kept _
      simp [History.isGivenUp, MadeCall.deletes] at kept
  | false =>
      apply honours_cons_of_idle rfl rfl
      intro expiry renewed kept before
      rcases (honours expiry renewed kept before).live before with ⟨entry, live, own, -⟩
      rw [live, Option.any_some, Entry.holds_isOwnedBy_iff.mpr own] at deleted
      contradiction

/-- A call of the owner and its history go together: where the call renews, the
record carries the new expiry; where it gives the record up, there is no lease;
and otherwise the lease is as before. -/
theorem Honours.serve (honours : keyspace.Honours key owner now history)
    (acts : call.ActsFor key owner) :
    (keyspace.serve now call).2.Honours key owner now
      (⟨call, .ok (keyspace.serve now call).1, now⟩ :: history) := by
  cases acts with
  | claim ttl => exact honours.serve_claim ttl
  | refresh ttl => exact honours.serve_refresh ttl
  | arm ttl => exact honours.serve_arm ttl
  | delete => exact honours.serve_delete
  | spare spares =>
      exact honours_cons_of_idle (MadeCall.renewal?_of_spares spares)
        (MadeCall.deletes_of_spares spares) (honours.serve_of_spares spares)

end Keyspace

end Leasehold
