import Leasehold.Proofs.Protected.Transfer
import Leasehold.Proofs.Sharing.Lease

/-!
# Protected operations come one after the other

Any number of processes save and load the configuration, each under the lock. The
renewal right before an operation gives it a lease, the operation leaves the lock
record alone, and a lease excludes all others. So as long as operations are over
before their leases are, no two of them are under way at once.
-/

namespace Leasehold

/-- Whether the operation of a flow is under way: begun and not ended. -/
def Flow.isOperating {α : Type} : Flow α → Bool
  | ⟨_, .operating _, .step _ _⟩ => true
  | _ => false

theorem Flow.Good.fresh_of_isOperating {α : Type} {flow : Flow α} {key : String} {owner : Pid}
    {ttl : Duration} {history : History} (good : flow.Good key owner ttl history)
    (operating : flow.isOperating) : history.Fresh key := by
  unfold isOperating at operating
  split at operating
  next guard _ _ => exact good.fresh guard rfl
  next => contradiction

/-- A process that saves the configuration, or one that loads it. -/
abbrev Transferrer : Type :=
  Flow Tables ⊕ Flow Nat

namespace Transferrer

/-- That a process is about to save or to load. -/
inductive Starts (pid : Pid) (timing : LockTiming) : Transferrer → Prop
  | save (path : Path) (asks : Bool) :
      Starts pid timing
        (.inl (.start (Transfer.saving pid timing path asks) (.ofPid pid timing.ttl)))
  | load (path : Path) (asks : Bool) :
      Starts pid timing (.inr (.start (Transfer.loading timing path asks) (.ofPid pid timing.ttl)))

/-- Whether a process is saving or loading right now. -/
def isOperating : Transferrer → Bool :=
  Sum.elim Flow.isOperating Flow.isOperating

/-- That a process is where its history can have brought it. -/
def Good (pid : Pid) (ttl : Duration) : Transferrer → History → Prop :=
  Sum.elim (Flow.Good LockRecord.key pid ttl) (Flow.Good LockRecord.key pid ttl)

variable {pid : Pid} {timing : LockTiming} {process : Transferrer} {history : History}

theorem Starts.good (starts : Starts pid timing process) : Good pid timing.ttl process [] := by
  have fits : (Claimant.ofPid pid timing.ttl).Fits LockRecord.key pid timing.ttl [] :=
    ⟨rfl, rfl, rfl, fun held => nomatch held⟩
  cases starts with
  | save path asks => exact Flow.good_start (Transfer.spares_saving _ _ _ _) fits
  | load path asks => exact Flow.good_start (Transfer.spares_loading _ _ _ _) fits

theorem conduct {ι : Type} (pid : ι → Pid) (ttl : ι → Duration) :
    Conduct (fun i call => call.ActsFor LockRecord.key (pid i)) fun i => Good (pid i) (ttl i) :=
  (Flow.conduct LockRecord.key pid ttl).sum (Flow.conduct LockRecord.key pid ttl)

/-- During an operation the last renewal is that right before it. -/
theorem Good.fresh {ttl : Duration} (good : Good pid ttl process history)
    (operating : process.isOperating) : history.Fresh LockRecord.key := by
  rcases process with flow | flow
  · exact Flow.Good.fresh_of_isOperating good operating
  · exact Flow.Good.fresh_of_isOperating good operating

end Transferrer

namespace Commons

variable {ι : Type} [DecidableEq ι] {keyspace : Keyspace} {now : Instant} {pid : ι → Pid}
  {timing : ι → LockTiming} {process : ι → Transferrer} {moves : List (Move ι (Flow.Turn ⊕ Flow.Turn))}
  {later : Commons ι Transferrer}

/-- That no operation goes on beyond the expiry that was set by the renewal before
it. An operation makes no renewals, so this is the last one there was. -/
def Timely (commons : Commons ι Transferrer) : Prop :=
  ∀ i expiry, (commons.party i).isOperating →
    (commons.history i).lastRenewal? LockRecord.key = some expiry → commons.now < expiry

/-- Whatever the schedule, at most one operation is under way at a time, and at
every store call that it makes the live lock record is its own. -/
theorem operations_serialized (distinct : Function.Injective pid)
    (starts : ∀ i, (process i).Starts (pid i) (timing i))
    (fair : ∀ move ∈ moves, move.Fair LockRecord.key)
    (played : (start keyspace now process).play moves = some later) (timely : later.Timely) :
    (∀ i j, (later.party i).isOperating → (later.party j).isOperating → i = j) ∧
    ∀ i, (later.party i).isOperating → later.Owned LockRecord.key (pid i) := by
  rcases play_keeps distinct
    (Transferrer.conduct pid fun i => (timing i).ttl) fair played (fun i => (starts i).good)
    (honoured_start _ _ _) with
    ⟨good, honoured⟩
  have secure (i : ι) (operating : (later.party i).isOperating) :
      ∃ expiry, later.Secure LockRecord.key i expiry :=
    exists_secure ((good i).fresh operating).hasLease fun expiry => timely i expiry operating
  constructor
  · intro i j operating operating'
    rcases secure i operating with ⟨expiry, secured⟩
    rcases secure j operating' with ⟨expiry', secured'⟩
    exact honoured.unique distinct secured secured'
  · intro i operating
    rcases secure i operating with ⟨expiry, secured⟩
    exact honoured.owned secured

/-- One process that saves and one that loads, neither of which asks. -/
def saveAndLoad : Bool → Transferrer
  | true => .inl (.start (Transfer.saving 1 .default "saved" false) (.ofPid 1 (.ofSeconds 10)))
  | false => .inr (.start (Transfer.loading .default "saved" false) (.ofPid 2 (.ofSeconds 10)))

/-- The first process comes up to its operation, and the second one finds the lock
taken. -/
def saveFirst : List (Move Bool (Flow.Turn ⊕ Flow.Turn)) :=
  [.serve true, .turn true (.inl (.act .note)), .turn true (.inl .pass), .turn true (.inl .pass),
    .serve true, .serve false, .serve true, .turn true (.inl (.act .note)), .turn true (.inl .pass)]

theorem operations_serialized_of_saveFirst :
    ∃ later, (start .empty (.ofSinceEpoch 0) saveAndLoad).play saveFirst = some later ∧
      later.Timely ∧ (later.party true).isOperating ∧
      (∀ i j, (later.party i).isOperating → (later.party j).isOperating → i = j) ∧
      ∀ i, (later.party i).isOperating → later.Owned LockRecord.key (duelPid i) := by
  obtain ⟨later, played, timely, operating⟩ :
      ∃ later, (start .empty (.ofSinceEpoch 0) saveAndLoad).play saveFirst = some later ∧
        later.Timely ∧ (later.party true).isOperating := by
    refine ⟨_, rfl, ?_, rfl⟩
    rintro (_ | _) expiry operating renewed
    · contradiction
    · cases renewed
      decide
  have starts : ∀ i, (saveAndLoad i).Starts (duelPid i) .default := by
    rintro (_ | _)
    · exact .load "saved" false
    · exact .save "saved" false
  exact ⟨later, played, timely, operating, operations_serialized duelPid_injective starts
    (by simp [saveFirst, Move.Fair]) played timely⟩

end Commons

end Leasehold
