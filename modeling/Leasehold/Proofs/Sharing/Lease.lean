import Leasehold.Proofs.Lock.Lease
import Leasehold.Proofs.Sharing.Commons

/-!
# Leases on a shared store

Each party of a shared store acts for an owner. The store honours the lease that the
history of a party gives, whatever the interleaving, if no other party acts for the same
owner. Where each acts for an owner of its own, all leases are honoured: this is the one
invariant from which mutual exclusion follows. It needs no more of the parties than that
every call is made for the own owner or spares the record.
-/

namespace Leasehold.Commons

variable {ι P Turn : Type} [DecidableEq ι] [Party P Turn] {key : String} {owner : ι → Pid}
  {good : ι → P → History → Prop} {commons later : Commons ι P} {i j : ι} {expiry : Instant}

/-- That the record under a key is live and belongs to an owner. -/
def Owned (key : String) (owner : Pid) (commons : Commons ι P) : Prop :=
  ∃ entry ∈ commons.keyspace.live? key commons.now, entry.BelongsTo owner

instance (key : String) (owner : Pid) (commons : Commons ι P) :
    Decidable (commons.Owned key owner) :=
  inferInstanceAs (Decidable (∃ entry ∈ _, _))

/-- That the store honours the lease of a party that acts for an owner. -/
def HonouredFor (key : String) (owner : Pid) (i : ι) (commons : Commons ι P) : Prop :=
  commons.keyspace.Honours key owner commons.now (commons.history i)

/-- That the store honours the lease of every party. -/
def Honoured (key : String) (owner : ι → Pid) (commons : Commons ι P) : Prop :=
  ∀ i, commons.keyspace.Honours key (owner i) commons.now (commons.history i)

/-- That a party has renewed the record up to an expiry that has not come, and has
not given it up since. -/
structure Secure (key : String) (commons : Commons ι P) (i : ι) (expiry : Instant) : Prop where
  renewed : (commons.history i).lastRenewal? key = some expiry
  kept : (commons.history i).isGivenUp key = false
  before : commons.now < expiry

omit [DecidableEq ι] [Party P Turn] in
/-- A lease makes secure until it has run out. -/
theorem exists_secure (lease : (commons.history i).HasLease key)
    (before : ∀ expiry, (commons.history i).lastRenewal? key = some expiry →
      commons.now < expiry) : ∃ expiry, commons.Secure key i expiry := by
  rcases lease with ⟨renewed, kept⟩
  rcases Option.isSome_iff_exists.mp renewed with ⟨expiry, renewed⟩
  exact ⟨expiry, renewed, kept, before expiry renewed⟩

omit [DecidableEq ι] [Party P Turn] in
/-- What is known of the record of a party that is secure. -/
theorem Secure.live {own : Pid} (secure : commons.Secure key i expiry)
    (honoured : commons.HonouredFor key own i) :
    ∃ entry, commons.keyspace.live? key commons.now = some entry ∧ entry.BelongsTo own ∧
      entry.expiresAt = some expiry :=
  (honoured expiry secure.renewed secure.kept secure.before).live secure.before

omit [DecidableEq ι] [Party P Turn] in
theorem Secure.owned {own : Pid} (secure : commons.Secure key i expiry)
    (honoured : commons.HonouredFor key own i) : commons.Owned key own := by
  rcases secure.live honoured with ⟨entry, live, belongs, -⟩
  exact ⟨entry, live, belongs⟩

omit [DecidableEq ι] [Party P Turn] in
theorem Honoured.live (honoured : commons.Honoured key owner)
    (secure : commons.Secure key i expiry) :
    ∃ entry, commons.keyspace.live? key commons.now = some entry ∧ entry.BelongsTo (owner i) ∧
      entry.expiresAt = some expiry :=
  secure.live (honoured i)

omit [DecidableEq ι] [Party P Turn] in
theorem Honoured.owned (honoured : commons.Honoured key owner)
    (secure : commons.Secure key i expiry) : commons.Owned key (owner i) :=
  secure.owned (honoured i)

omit [DecidableEq ι] [Party P Turn] in
/-- At the instant of a renewal the record is the party's own, if the lifetime that
it got is any at all. -/
theorem Honoured.owned_of_renewal (honoured : commons.Honoured key owner) {made : MadeCall}
    {earlier : History} {ttl : Duration} (last : commons.history i = made :: earlier)
    (renews : made.renewal? key = some (made.time.add ttl)) (now : commons.now = made.time)
    (positive : 0 < ttl.nanos) (early : commons.now < Instant.max) :
    commons.Owned key (owner i) := by
  have secure : commons.Secure key i (made.time.add ttl) := by
    constructor
    · rw [last, History.lastRenewal?_cons_of_some renews]
    · rw [last]
      exact (History.hasLease_of_renewal renews).2
    · rw [now] at early ⊢
      exact Instant.lt_add positive early
  exact honoured.owned secure

omit [DecidableEq ι] [Party P Turn] in
/-- There is one record and it has one owner, so only one party is secure. -/
theorem Honoured.unique (honoured : commons.Honoured key owner)
    (distinct : Function.Injective owner) {expiry' : Instant}
    (secure : commons.Secure key i expiry) (secure' : commons.Secure key j expiry') : i = j := by
  rcases honoured.live secure with ⟨entry, live, own, -⟩
  rcases honoured.live secure' with ⟨entry', live', own', -⟩
  obtain rfl := Option.some.inj (live.symm.trans live')
  exact distinct (Entry.belongsTo_unique own own')

omit [DecidableEq ι] [Party P Turn] in
/-- While a party is secure nobody creates the record. -/
theorem Honoured.create_refused (honoured : commons.Honoured key owner)
    (secure : commons.Secure key i expiry) (fields : Fields) (ttl : Duration) :
    (commons.keyspace.serve commons.now (.create key fields ttl)).1 = false := by
  rcases honoured.live secure with ⟨entry, live, -, -⟩
  rw [Keyspace.serve_create_answer, live]
  rfl

/-- A call leaves the lease of a party alone, or moves it as its history says if it is the
party's own. -/
theorem HonouredFor.serve (honoured : commons.HonouredFor key (owner i) i)
    (alone : ∀ j, j ≠ i → owner j ≠ owner i) {call : StoreCall}
    (acts : call.ActsFor key (owner j)) (p : P) :
    HonouredFor key (owner i) i ({ commons with
      keyspace := (commons.keyspace.serve commons.now call).2 }.record j
        ⟨call, .ok (commons.keyspace.serve commons.now call).1, commons.now⟩ p) := by
  by_cases same : i = j
  · subst same
    rw [HonouredFor, record_self_history]
    exact Keyspace.Honours.serve honoured acts
  · rw [HonouredFor, record_history_of_ne _ _ same]
    exact Keyspace.Honours.serve_of_ne honoured acts (alone j (Ne.symm same))

theorem HonouredFor.fail {own : Pid} (honoured : commons.HonouredFor key own i)
    (call : StoreCall) (failure : Failure) (p : P) :
    HonouredFor key own i (commons.record j ⟨call, .error failure, commons.now⟩ p) := by
  by_cases same : i = j
  · subst same
    rw [HonouredFor, record_self_history]
    exact Keyspace.Honours.fail honoured failure _
  · rw [HonouredFor, record_history_of_ne _ _ same]
    exact honoured

/-- Every fair move keeps the lease of a party for whose owner no other acts. -/
theorem HonouredFor.perform (honoured : commons.HonouredFor key (owner i) i)
    (alone : ∀ j, j ≠ i → owner j ≠ owner i)
    (conduct : Conduct (fun i call => call.ActsFor key (owner i)) good)
    (all : commons.Good good) {move : Move ι Turn} (fair : move.Fair key)
    (performed : commons.perform move = some later) : later.HonouredFor key (owner i) i := by
  cases move with
  | serve j =>
      rcases perform_serve_eq_some_iff.mp performed with ⟨call, next, pending, rfl⟩
      exact honoured.serve alone (conduct.call (all j) pending).1 _
  | fail j fault =>
      rcases perform_fail_eq_some_iff.mp performed with ⟨call, next, -, rfl⟩
      exact honoured.fail call _ _
  | turn j turn =>
      rcases perform_turn_eq_some_iff.mp performed with ⟨p, -, rfl⟩
      exact honoured
  | stranger call =>
      cases performed
      exact Keyspace.Honours.serve_of_spares honoured fair
  | advance time =>
      rcases perform_advance_eq_some_iff.mp performed with ⟨passes, rfl⟩
      exact Keyspace.Honours.mono honoured passes
  | turnBack time => exact fair.elim

/-- Every fair move of parties that act for different owners keeps all leases. -/
theorem honoured_perform (distinct : Function.Injective owner)
    (conduct : Conduct (fun i call => call.ActsFor key (owner i)) good)
    (all : commons.Good good) (honoured : commons.Honoured key owner) {move : Move ι Turn}
    (fair : move.Fair key) (performed : commons.perform move = some later) :
    later.Honoured key owner :=
  fun i => HonouredFor.perform (honoured i) (fun _ other same => other (distinct same)) conduct all
    fair performed

omit [DecidableEq ι] [Party P Turn] in
/-- A party that has made no call has no lease to be honoured. -/
theorem honoured_start (keyspace : Keyspace) (now : Instant) (party : ι → P) :
    Honoured key owner (start keyspace now party) := by
  intro i expiry renewed
  simp [start, History.lastRenewal?] at renewed

/-- Along a fair schedule discipline is kept, and with it the lease of a party for whose owner
no other acts. -/
theorem play_keeps_for (alone : ∀ j, j ≠ i → owner j ≠ owner i)
    (conduct : Conduct (fun i call => call.ActsFor key (owner i)) good)
    {moves : List (Move ι Turn)} (fair : ∀ move ∈ moves, move.Fair key)
    (played : commons.play moves = some later) (all : commons.Good good)
    (honoured : commons.HonouredFor key (owner i) i) :
    later.Good good ∧ later.HonouredFor key (owner i) i :=
  play_induction (Move.Fair key)
    (fun commons => commons.Good good ∧ commons.HonouredFor key (owner i) i)
    (fun fair kept performed => ⟨conduct.perform kept.1 performed,
      kept.2.perform alone conduct kept.1 fair performed⟩)
    fair played ⟨all, honoured⟩

/-- Along a fair schedule discipline and leases are kept together. -/
theorem play_keeps (distinct : Function.Injective owner)
    (conduct : Conduct (fun i call => call.ActsFor key (owner i)) good)
    {moves : List (Move ι Turn)} (fair : ∀ move ∈ moves, move.Fair key)
    (played : commons.play moves = some later) (all : commons.Good good)
    (honoured : commons.Honoured key owner) : later.Good good ∧ later.Honoured key owner :=
  play_induction (Move.Fair key) (fun commons => commons.Good good ∧ commons.Honoured key owner)
    (fun fair kept performed => ⟨conduct.perform kept.1 performed,
      honoured_perform distinct conduct kept.1 kept.2 fair performed⟩)
    fair played ⟨all, honoured⟩

/-- The process numbers of two parties. -/
def duelPid (i : Bool) : Pid :=
  if i then 1 else 2

theorem duelPid_injective : Function.Injective duelPid := by
  rintro (_ | _) (_ | _) <;> decide

end Leasehold.Commons
