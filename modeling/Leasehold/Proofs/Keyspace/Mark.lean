import Leasehold.Proofs.Store.Change
import Leasehold.Proofs.Store.TimedMap

/-!
# The dirty mark along a run

Purges and operations are done to a keyspace one after the other, each at its time. One
that removes no key, that reads, or that is refused is idle: it leaves the keyspace as it
was, the mark included. Any other sets the mark. So a keyspace is clean in the end exactly
if it was clean and nothing but idle actions was taken; then no record has changed. Once it
is marked it stays so.
-/

namespace Leasehold.Keyspace

/-! ## Actions -/

/-- What is done to a keyspace at a time: a purge, or an operation on the records that are
there, expired or not. -/
inductive Action where
  | purge (now : Instant)
  | operate (now : Instant) (call : StoreCall)

/-- The keyspace after an action. -/
def after (keyspace : Keyspace) : Action → Keyspace
  | .purge now => keyspace.purge now
  | .operate now call => (keyspace.apply now call).2

/-- The keyspace after actions that are taken one after the other. -/
def afterAll (keyspace : Keyspace) (actions : List Action) : Keyspace :=
  actions.foldl after keyspace

/-- That an action is a purge that removes no key, an operation that only reads, or one that
is refused. -/
inductive Action.IsIdle (keyspace : Keyspace) : Action → Prop
  | removesNothing {now : Instant}
      (keeps : ∀ key ∈ keyspace.keys, key ∈ (keyspace.purge now).keys) :
      IsIdle keyspace (.purge now)
  | reads {now : Instant} {call : StoreCall} (reads : call.isRead = true) :
      IsIdle keyspace (.operate now call)
  | refused {now : Instant} {call : StoreCall}
      (refused : call.isRefusal (keyspace.apply now call).1 = true) :
      IsIdle keyspace (.operate now call)

variable {keyspace : Keyspace} {now : Instant} {action : Action} {actions more : List Action}

/-! ## One action -/

/-- A purge that leaves every key removes nothing at all. -/
theorem purge_of_keeps (keeps : ∀ key ∈ keyspace.keys, key ∈ (keyspace.purge now).keys) :
    keyspace.purge now = keyspace := by
  refine purge_of_unexpired fun key entry found => ?_
  have listed := keeps key (TextMap.mem_keys_iff.mpr ⟨entry, found⟩)
  rcases TextMap.mem_keys_iff.mp listed with ⟨left, kept⟩
  rw [get?_purge] at kept
  rcases live?_eq_some_iff.mp kept with ⟨found', unexpired⟩
  obtain rfl := Option.some.inj (found.symm.trans found')
  exact unexpired

theorem after_of_isIdle (idle : action.IsIdle keyspace) : keyspace.after action = keyspace := by
  cases idle with
  | removesNothing keeps => exact purge_of_keeps keeps
  | reads reads => exact apply_of_idle (.inl reads)
  | refused refused => exact apply_of_idle (.inr refused)

theorem isIdle_of_clean (clean : (keyspace.after action).dirty = false) :
    action.IsIdle keyspace := by
  cases action with
  | purge now =>
      refine .removesNothing fun key listed => ?_
      rw [purge_of_clean clean]
      exact listed
  | operate now call =>
      rcases idle_of_clean clean with reads | refused
      · exact .reads reads
      · exact .refused refused

/-- An action leaves a keyspace clean exactly if it was clean and the action is idle. -/
theorem clean_after_iff : (keyspace.after action).dirty = false ↔
    keyspace.dirty = false ∧ action.IsIdle keyspace := by
  constructor
  · intro clean
    have idle := isIdle_of_clean clean
    rw [after_of_isIdle idle] at clean
    exact ⟨clean, idle⟩
  · rintro ⟨clean, idle⟩
    rw [after_of_isIdle idle]
    exact clean

/-! ## Runs -/

theorem afterAll_append : keyspace.afterAll (actions ++ more) =
    (keyspace.afterAll actions).afterAll more :=
  List.foldl_append

theorem afterAll_of_isIdle (idle : ∀ action ∈ actions, action.IsIdle keyspace) :
    keyspace.afterAll actions = keyspace := by
  induction actions with
  | nil => rfl
  | cons action actions ih =>
      rcases List.forall_mem_cons.mp idle with ⟨first, rest⟩
      rw [afterAll, List.foldl_cons, after_of_isIdle first]
      exact ih rest

/-- A run leaves a keyspace clean exactly if it was clean and every action of it is idle. All
of them meet the same keyspace then, for none before has changed it. -/
theorem clean_afterAll_iff : (keyspace.afterAll actions).dirty = false ↔
    keyspace.dirty = false ∧ ∀ action ∈ actions, action.IsIdle keyspace := by
  induction actions generalizing keyspace with
  | nil => simp [afterAll]
  | cons action actions ih =>
      rw [afterAll, List.foldl_cons, ← afterAll, ih, clean_after_iff, List.forall_mem_cons,
        and_assoc]
      refine and_congr_right fun _ => and_congr_right fun idle => ?_
      rw [after_of_isIdle idle]

/-- The mark misses no change: a keyspace that is clean after a run has the records that it
had before, and was clean before; a mark is never taken off again; and what is idle does
not set it, while anything else does. -/
theorem mark_misses_no_change (keyspace : Keyspace) (actions : List Action) :
    ((keyspace.afterAll actions).dirty = false →
      (keyspace.afterAll actions).entries = keyspace.entries) ∧
    (∀ more, (keyspace.afterAll actions).dirty = true →
      (keyspace.afterAll (actions ++ more)).dirty = true) ∧
    (∀ action, action.IsIdle (keyspace.afterAll actions) →
      (keyspace.afterAll (actions ++ [action])).dirty = (keyspace.afterAll actions).dirty) ∧
    ((keyspace.afterAll actions).dirty = false ↔
      keyspace.dirty = false ∧ ∀ action ∈ actions, action.IsIdle keyspace) := by
  refine ⟨fun clean => ?_, fun more marked => ?_, fun action idle => ?_, clean_afterAll_iff⟩
  · rw [afterAll_of_isIdle (clean_afterAll_iff.mp clean).2]
  · by_contra unmarked
    rw [Bool.not_eq_true, afterAll_append] at unmarked
    rw [(clean_afterAll_iff.mp unmarked).1] at marked
    contradiction
  · have single : ∀ other ∈ [action], other.IsIdle (keyspace.afterAll actions) :=
      List.forall_mem_singleton.mpr idle
    rw [afterAll_append, afterAll_of_isIdle single]

/-- While the record is there, a purge finds nothing and the changes are refused. -/
def inVain : List Action :=
  let now := Instant.ofSinceEpoch 999999999
  [.purge now, .operate now (.create "a" .empty ⟨1⟩), .operate now (.expire "a" ⟨1⟩ .noExpiry),
    .operate now (.delete "a" (.fieldEquals "old" "2"))]

/-- The record is purged at its expiry, and one that is equal to it is created. -/
def renewed : List Action :=
  let now := Instant.ofSinceEpoch 1000000000
  [.purge now, .operate now (.create "a" (TextMap.empty.insert "old" "1") ⟨0⟩)]

/-- What is in vain leaves no mark, and a purge leaves one even if the record comes back. -/
theorem mark_misses_no_change_of_shortLived :
    (shortLived.afterAll inVain).dirty = false ∧
    (shortLived.afterAll inVain).entries = shortLived.entries ∧
    (shortLived.afterAll (inVain ++ [.operate default .keys])).dirty =
      (shortLived.afterAll inVain).dirty ∧
    (shortLived.afterAll renewed).entries = shortLived.entries ∧
    (shortLived.afterAll (renewed ++ inVain)).dirty = true := by
  have clean : (shortLived.afterAll inVain).dirty = false := by decide
  have marked : (shortLived.afterAll renewed).dirty = true := by decide
  rcases mark_misses_no_change shortLived inVain with ⟨unchanged, -, idle, -⟩
  rcases mark_misses_no_change shortLived renewed with ⟨-, stays, -, -⟩
  exact ⟨clean, unchanged clean, idle _ (.reads rfl), by decide, stays inVain marked⟩

end Leasehold.Keyspace
