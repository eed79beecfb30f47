import Leasehold.Store

/-!
# What the dirty mark says

An operation that leaves a keyspace clean reads or is refused, and has left its records
as they were, so nothing is lost where only dirty keyspaces are written down. The mark
itself has no part in what an operation answers or in the records it leaves.
-/

namespace Leasehold

/-- Whether a call only reads. -/
def StoreCall.isRead : StoreCall → Bool
  | .fetch _ => true
  | .lifetime _ => true
  | .keys => true
  | .dump _ => true
  | _ => false

/-- Whether an answer says that what was asked has been refused. -/
def StoreCall.isRefusal : (call : StoreCall) → call.Answer → Bool
  | .create .., created => !created
  | .expire .., set => !set
  | .delete .., deleted => !deleted
  | _, _ => false

namespace Keyspace

variable {keyspace other : Keyspace} {now : Instant}

/-! ## Calls that write nothing -/

theorem purge_of_unexpired
    (unexpired : ∀ key entry, keyspace.entries.get? key = some entry → entry.isExpired now = false) :
    keyspace.purge now = keyspace := by
  have kept : (keyspace.entries.filter fun _ entry => !entry.isExpired now) = keyspace.entries := by
    refine TextMap.ext fun key => ?_
    rw [TextMap.get?_filter]
    cases found : keyspace.entries.get? key with
    | none => rfl
    | some entry => simp [unexpired key entry found]
  simp [purge, kept]

/-- A call that reads, or that is refused, leaves the keyspace alone. -/
theorem apply_of_idle {call : StoreCall}
    (idle : call.isRead = true ∨ call.isRefusal (keyspace.apply now call).1 = true) :
    (keyspace.apply now call).2 = keyspace := by
  cases call with
  | create key fields ttl =>
      simp only [apply, create] at idle ⊢
      split at idle
      next taken => rw [if_pos taken]
      next => simp [StoreCall.isRead, StoreCall.isRefusal] at idle
  | expire key ttl condition =>
      simp only [apply, expire] at idle ⊢
      split at idle
      next =>
        split at idle
        next => simp [StoreCall.isRead, StoreCall.isRefusal] at idle
        next fails => simp [fails]
      next => rfl
  | delete key condition =>
      simp only [apply, delete] at idle ⊢
      split at idle
      next => simp [StoreCall.isRead, StoreCall.isRefusal] at idle
      next fails => rw [if_neg fails]
  | merge | replace => simp [StoreCall.isRead, StoreCall.isRefusal] at idle
  | fetch | lifetime | keys | dump => rfl

/-! ## Clean keyspaces -/

theorem purge_of_clean (clean : (keyspace.purge now).dirty = false) :
    keyspace.purge now = keyspace := by
  obtain ⟨⟨pairs, sorted⟩, dirty⟩ := keyspace
  simp only [purge, TextMap.filter, TextMap.size, Bool.or_eq_false_iff, bne_eq_false_iff_eq,
    List.length_filter_eq_length_iff] at clean
  rcases clean with ⟨rfl, kept⟩
  simp [purge, TextMap.filter, TextMap.size, List.filter_eq_self.mpr kept]

/-- An operation that leaves a keyspace clean reads or is refused. -/
theorem idle_of_clean {call : StoreCall} (clean : (keyspace.apply now call).2.dirty = false) :
    call.isRead = true ∨ call.isRefusal (keyspace.apply now call).1 = true := by
  cases call with
  | create key fields ttl =>
      right
      simp only [apply, create] at clean ⊢
      split at clean
      next taken => simp [taken, StoreCall.isRefusal]
      next => contradiction
  | expire key ttl condition =>
      right
      simp only [apply, expire] at clean ⊢
      split at clean
      next =>
        split at clean
        next => contradiction
        next fails => simp [fails, StoreCall.isRefusal]
      next => rfl
  | delete key condition =>
      right
      simp only [apply, delete] at clean ⊢
      split at clean
      next => contradiction
      next fails => simp [fails, StoreCall.isRefusal]
  | merge | replace => contradiction
  | fetch | lifetime | keys | dump => exact .inl rfl

theorem apply_of_clean {call : StoreCall} (clean : (keyspace.apply now call).2.dirty = false) :
    (keyspace.apply now call).2 = keyspace :=
  apply_of_idle (idle_of_clean clean)

/-- A call that leaves a keyspace clean has changed no record. -/
theorem serve_of_clean {call : StoreCall} (clean : (keyspace.serve now call).2.dirty = false) :
    (keyspace.serve now call).2 = keyspace := by
  have applied : (keyspace.serve now call).2 = keyspace.purge now := apply_of_clean clean
  rw [applied] at clean ⊢
  exact purge_of_clean clean

/-! ## The mark has no part in it -/

theorem entries_purge_congr (same : keyspace.entries = other.entries) :
    (keyspace.purge now).entries = (other.purge now).entries := by
  simp [purge, same]

theorem apply_congr (same : keyspace.entries = other.entries) (call : StoreCall) :
    (keyspace.apply now call).1 = (other.apply now call).1 ∧
      (keyspace.apply now call).2.entries = (other.apply now call).2.entries := by
  cases call with
  | create key fields ttl =>
      simp only [apply, create, same]
      split <;> simp [same]
  | merge key fields => simp [apply, merge, same]
  | fetch key => simp [apply, fetch, same]
  | expire key ttl condition =>
      simp only [apply, expire, same]
      split
      · split <;> simp [same]
      · simp [same]
  | lifetime key => simp [apply, lifetime, same]
  | delete key condition =>
      simp only [apply, delete, same]
      split <;> simp [same]
  | keys => simp [apply, keys, same]
  | dump filter => simp [apply, tables, same]
  | replace tables filter => simp [apply, replaceTables, same]

/-- What a call answers and the records it leaves depend on the records alone. -/
theorem serve_congr (same : keyspace.entries = other.entries) (now : Instant) (call : StoreCall) :
    (keyspace.serve now call).1 = (other.serve now call).1 ∧
      (keyspace.serve now call).2.entries = (other.serve now call).2.entries :=
  apply_congr (entries_purge_congr same) call

end Keyspace

end Leasehold
