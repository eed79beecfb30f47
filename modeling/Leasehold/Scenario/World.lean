import Leasehold.Database
import Leasehold.FileSystem.Tree
import Leasehold.Lock.Guard
import Leasehold.Machine
import Leasehold.Scenario.Contention

/-!
# Worlds

A world is all that a scenario is about: a tree of files, a clock, a store that
is kept in memory or in files, what is planned to happen to the store, and the
claimants and guards of a process by name.
-/

namespace Leasehold

/-- Where the records of a store are. -/
inductive Backing where
  | memory (keyspace : Keyspace)
  | database (directory : Path)

/-- All that a scenario is about. -/
structure World where
  pid : Pid
  tree : Tree
  clock : Instant
  backing : Backing
  contention : Contention
  claimants : List (String × Claimant)
  guards : List (String × String × Guard)
  /-- What was noted since the step began. -/
  noted : List LogEvent
  /-- Whether a heartbeat is at work, of which nothing is noted here. -/
  beating : Bool

/-- A change of a world, with a result. -/
abbrev WorldM (α : Type) :=
  StateM World α

namespace World

/-! ## The store -/

/-- Answers a store call, undisturbed. -/
def serveStore (world : World) (call : StoreCall) : call.Reply × World :=
  match world.backing with
  | .memory keyspace =>
    let (answer, keyspace) := keyspace.serve world.clock call
    (.ok answer, { world with backing := .memory keyspace })
  | .database directory =>
    let (reply, tree) := world.tree.run (Database.serve world.pid directory world.clock call)
    (reply, { world with tree := tree })

/-- Lets something happen to the store. -/
def disturb (world : World) : Disturbance → World
  | .advance time => { world with clock := world.clock.add time }
  | .rewind time => { world with clock := world.clock.sub time }
  | .call call => (world.serveStore call).2

/-- Answers a store call, once what is planned has happened. -/
def serveContested (world : World) (call : StoreCall) : call.Reply × World :=
  let (disturbances, contention) := world.contention.disturb call.kind
  let world := disturbances.foldl disturb { world with contention := contention }
  match world.contention.fault? call.kind with
  | (some text, contention) =>
    (.error (.storeUnavailable (.stated text)), { world with contention := contention })
  | (none, _) => world.serveStore call

/-- Takes note of an event. -/
def note (world : World) (event : LogEvent) : World :=
  if world.beating then world else { world with noted := world.noted ++ [event] }

/-- Answers a request of the lock. -/
def serveLock (world : World) : (request : LockRequest) → request.Reply × World
  | .store call => world.serveContested call
  | .log event => ((), world.note event)

/-- Runs a program of store calls and notes. -/
def runLock {α : Type} (world : World) (program : LockProgram α) : α × World :=
  program.run (fun request world => world.serveLock request) world

/-! ## Claimants and guards -/

/-- The claimant of a name. -/
def claimant? (world : World) (name : String) : Option Claimant :=
  world.claimants.lookup name

/-- The world with a claimant as it is now. -/
def setClaimant (world : World) (name : String) (claimant : Claimant) : World :=
  let others := world.claimants.filter fun entry => entry.1 != name
  { world with claimants := (name, claimant) :: others }

/-- The world without a claimant. -/
def forgetClaimant (world : World) (name : String) : World :=
  { world with claimants := world.claimants.filter fun entry => entry.1 != name }

/-- The guard of a name, and the name of its claimant. -/
def guard? (world : World) (name : String) : Option (String × Guard) :=
  world.guards.lookup name

/-- The world without a guard. -/
def forgetGuard (world : World) (name : String) : World :=
  { world with guards := world.guards.filter fun entry => entry.1 != name }

/-- The world with a guard of a claimant. -/
def setGuard (world : World) (name claimant : String) (guard : Guard) : World :=
  let others := world.guards.filter fun entry => entry.1 != name
  { world with guards := (name, claimant, guard) :: others }

end World

end Leasehold
