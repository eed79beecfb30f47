import Leasehold.Lock.Status
import Leasehold.Scenario.World
import Leasehold.Transfer

/-!
# Steps of a scenario

A scenario is a list of steps, each done by one of several claimants or by
nobody in particular, and each with an outcome. While a question is open other
steps can be done, and a heartbeat gets its turn whenever one of them waits for
something. Waiting ends after two seconds in any case, which bounds the number of
beats.
-/

namespace Leasehold

/-- How a question is answered: the input of a terminal and its capacity. -/
structure Prompting where
  input : List UInt8
  capacity : Option Nat
  deriving Repr

/-- What is waited for. -/
inductive Awaited where
  | standing (claimant text : String)
  | key (key : String)
  deriving Repr

/-- A step of a scenario. -/
inductive Step where
  | disturb (disturbance : Disturbance)
  | call (call : StoreCall)
  | readOwner (key : String)
  | hasExpiry (key : String)
  | describe
  | acquire (claimant : String)
  | renew (claimant : String)
  | release (claimant : String)
  | ensureHeld (claimant : String)
  | inspect (claimant : String)
  | guardAcquire (claimant guard : String)
  | guardRelease (guard : String)
  | guardDrop (guard : String)
  | heartbeat (claimant : String) (interval : Duration) (beats : Nat) (settle : Duration)
  | withHeartbeat (claimant : String) (interval : Duration) (during : List Step)
  | wait (awaited : Awaited)
  | protect (claimant : String) (interval : Duration) (question : Option (String × Prompting))
      (during body : List Step) (failure : Option String)
  | save (path : Path) (timing : LockTiming) (prompting : Option Prompting) (during : List Step)
  | load (path : Path) (timing : LockTiming) (prompting : Option Prompting) (during : List Step)
  | plan (kind : CallKind) (disturbances : List Disturbance)
  | planFaults (kind : CallKind) (times : Nat) (text : String)
  | forgetPlans
  | arrange (change : Tree → Tree)
  | survey

/-- What a step gives. -/
inductive StepValue where
  | unit
  | truth (b : Bool)
  | count (n : Nat)
  | text (s : String)
  | keys (keys : List String)
  | fields (fields : Option Fields)
  | tables (tables : Tables)
  | lifetime (lifetime : Lifetime)
  | owner (found : Option (Option Pid))
  | renewal (renewal : Renewal)
  | beats (reached : Bool) (beats : Nat)
  | claimant (claimant : Claimant)
  | tree (tree : Tree)

/-- How a step ends: with a value, with a failure, with the outcomes of the steps
done while waiting, or with what a protected operation came to. -/
inductive Outcome where
  | done (value : StepValue)
  | failed (failure : Failure)
  | waited (during : List Outcome)
  | flow (result : Except Failure StepValue) (prompt : Option (String × List Outcome))
      (body : Option (Option (List Outcome)))

namespace Outcome

/-- The outcome of a result. -/
def ofResult {α : Type} (value : α → StepValue) : Except Failure α → Outcome
  | .ok result => .done (value result)
  | .error failure => .failed failure

end Outcome

/-- The value of a reply to a store call. -/
def StepValue.ofAnswer : (call : StoreCall) → call.Answer → StepValue
  | .create .., created => .truth created
  | .merge .., _ => .unit
  | .fetch _, found => .fields found
  | .expire .., changed => .truth changed
  | .lifetime _, left => .lifetime left
  | .delete .., deleted => .truth deleted
  | .keys, found => .keys found
  | .dump _, found => .tables found
  | .replace .., records => .count records

/-! ## Waiting -/

/-- Whether what is waited for has come. -/
def Awaited.holds (world : World) : Awaited → Bool
  | .standing claimant text =>
    (world.claimant? claimant).any fun c => c.standing.text == text
  | .key name =>
    match (world.serveStore (.fetch name)).1 with
    | .ok found => found.isSome
    | .error _ => false

/-- A step that is ready to be done: whether it has to wait, and what it does. -/
structure Act where
  blocked : World → Bool
  run : WorldM Outcome

/-- How long anything is waited for. -/
def waitLimit : Duration :=
  .ofSeconds 2

/-- The number of beats that fit into a time. -/
def beatsWithin (interval time : Duration) : Nat :=
  time.nanos / interval.nanos

/-- What is to be done and answered while a question is open, and what came of it. -/
structure Agenda where
  claimant : String
  terminal : Option Terminal
  acts : List Act
  outcomes : List Outcome

namespace Agenda

/-- Does acts until one has to wait. -/
def proceed : List Act → List Outcome → WorldM (List Act × List Outcome)
  | [], outcomes => return ([], outcomes)
  | act :: acts, outcomes => do
    if act.blocked (← get) then return (act :: acts, outcomes)
    else
      let outcome ← act.run
      proceed acts (outcomes ++ [outcome])

/-- Does all acts; those that have to wait do so in vain. -/
def finish : List Act → List Outcome → WorldM (List Outcome)
  | [], outcomes => return outcomes
  | act :: acts, outcomes => do
    let outcome ← act.run
    finish acts (outcomes ++ [outcome])

/-- Puts the claimant where the acts find it, or takes it back from there. -/
def handOver (agenda : Agenda) (claimant : Claimant) : WorldM Unit :=
  modify fun world => { world.setClaimant agenda.claimant claimant with beating := false }

/-- The claimant as the acts have left it. -/
def takeBack (agenda : Agenda) (claimant : Claimant) : WorldM Claimant := do
  return ((← get).claimant? agenda.claimant).getD claimant

/-- Answers a request of a wait. -/
def serveWait (agenda : Agenda) : (request : WaitRequest) → WorldM (request.Reply × Agenda)
  | .patience _ interval => return (beatsWithin interval waitLimit, agenda)
  | .isBeatDue claimant => do
    agenda.handOver claimant
    let (acts, outcomes) ← proceed agenda.acts agenda.outcomes
    let claimant ← agenda.takeBack claimant
    modify fun world => { world with beating := !acts.isEmpty }
    return ((!acts.isEmpty, claimant), { agenda with acts := acts, outcomes := outcomes })
  | .answer claimant question => do
    agenda.handOver claimant
    let outcomes ← finish agenda.acts agenda.outcomes
    let claimant ← agenda.takeBack claimant
    let done := { agenda with acts := [], outcomes := outcomes }
    match agenda.terminal with
    | none => return ((.ok true, claimant), done)
    | some terminal =>
      let (answer, terminal) := terminal.ask question
      return ((answer, claimant), { done with terminal := some terminal })

/-- Answers a request of a procedure. -/
def serve : (request : Request) → StateT Agenda (StateM World) request.Reply
  | .lock request => fun agenda => do
    let (reply, world) := (← get).serveLock request
    set world
    return (reply, agenda)
  | .file call => fun agenda => do
    let world ← get
    let (reply, tree) := world.tree.serve call
    set { world with tree := tree }
    return (reply, agenda)
  | .wait request => fun agenda => agenda.serveWait request

/-- Runs a procedure. -/
def run {α : Type} (agenda : Agenda) (procedure : Procedure α) : WorldM (α × Agenda) :=
  (procedure.interpret serve).run agenda

/-- What was written to the terminal, and what was done while the question was
open. -/
def prompt (agenda : Agenda) : Option (String × List Outcome) :=
  agenda.terminal.map fun terminal => (terminal.output, agenda.outcomes)

end Agenda

/-! ## Doing steps -/

namespace Step

/-- Does nothing for want of a claimant. -/
def missing (claimant : String) : WorldM Outcome :=
  return .failed (.user (.stated ("no claimant " ++ claimant)))

/-- Has a claimant run a program. -/
def withClaimant {α : Type} (name : String) (program : Claimant → LockProgram (α × Claimant))
    (outcome : α → Outcome) : WorldM Outcome := do
  let world ← get
  match world.claimant? name with
  | none => missing name
  | some claimant =>
    let ((result, claimant), world) := world.runLock (program claimant)
    set (world.setClaimant name claimant)
    return outcome result

/-- Has the claimant of a guard run a program. -/
def withGuard {α : Type} (name : String)
    (program : Guard → Claimant → LockProgram (α × Claimant)) (outcome : α → Outcome) :
    WorldM Outcome := do
  match (← get).guard? name with
  | none => return .failed (.user (.stated ("no guard " ++ name)))
  | some (claimant, guard) =>
    let result ← withClaimant claimant (program guard) outcome
    modify fun world => world.forgetGuard name
    return result

/-- Drops a guard. -/
def dropGuard (name : String) : WorldM Outcome :=
  withGuard name (fun guard c => do
    let (_, c) ← guard.drop c
    return ((), c)) fun _ => .done .unit

/-- Makes a store call. -/
def callStore (made : StoreCall) : WorldM (Except Failure made.Answer) := do
  let (reply, world) := (← get).serveContested made
  set world
  return reply

/-- Acquires the lock for a guard, which takes the place of the one of that name. -/
def guardAcquired (claimant guard : String) : WorldM Outcome := do
  let world ← get
  match world.claimant? claimant with
  | none => missing claimant
  | some c =>
    let ((result, c), world) := world.runLock (Guard.acquire c)
    set (world.setClaimant claimant c)
    match result with
    | .error failure => return .failed failure
    | .ok made =>
      if (world.guard? guard).isSome then let _ ← dropGuard guard
      modify fun world => world.setGuard guard claimant made
      return .done (.text c.standing.text)

/-- Beats as often as asked for, as far as there is time for it, and then goes on
for a while. -/
def beaten (claimant : String) (interval : Duration) (beats : Nat) (settle : Duration) :
    WorldM Outcome := do
  let world ← get
  match world.claimant? claimant, Heartbeat.start? interval with
  | none, _ => missing claimant
  | _, .error failure => return .failed failure
  | some c, .ok started =>
    let wanted := Nat.min beats (beatsWithin interval waitLimit)
    let program : LockProgram (Heartbeat × Claimant) := do
      let (later, c) ← started.beatTimes c wanted
      later.beatTimes c (beatsWithin interval settle)
    let ((ended, c), world) := { world with beating := true }.runLock program
    set { world.setClaimant claimant c with beating := false }
    return .done (.beats (beats ≤ ended.beats) ended.beats)

/-- Waits for acts while a heartbeat goes on. -/
def waited (claimant : String) (interval : Duration) (acts : List Act) : WorldM Outcome := do
  match (← get).claimant? claimant with
  | none => missing claimant
  | some c =>
    let agenda : Agenda := ⟨claimant, none, acts, []⟩
    let ((answer, c), agenda) ← agenda.run (Procedure.confirm c interval "")
    modify fun world => world.setClaimant claimant c
    match answer with
    | .error failure => return .failed failure
    | .ok _ => return .waited agenda.outcomes

/-- A terminal for a question. -/
def terminalOf (prompting : Prompting) : Terminal :=
  ⟨prompting.input, "", prompting.capacity⟩

/-- What the operation of a scenario gives. -/
def operationValue : StepValue :=
  .count 42

/-- Does acts under the lock. -/
def protectedBy (claimant : String) (interval : Duration) (question : Option (String × Prompting))
    (during body : List Act) (failure : Option String) : WorldM Outcome := do
  match (← get).claimant? claimant with
  | none => missing claimant
  | some c =>
    let terminal := question.map fun (_, prompting) => terminalOf prompting
    let agenda : Agenda := ⟨claimant, terminal, during, []⟩
    let ((entered, c), agenda) ← agenda.run
      (Procedure.enter c interval (question.map Prod.fst))
    modify fun world => world.setClaimant claimant c
    match entered with
    | .error failure => return .flow (.error failure) agenda.prompt (some none)
    | .ok guard =>
      let outcomes ← Agenda.finish body []
      let c := ((← get).claimant? claimant).getD c
      let result : Except Failure StepValue := match failure with
        | some text => .error (.user (.stated text))
        | none => .ok operationValue
      let ((result, c), _) ← agenda.run (Procedure.leave guard c result)
      modify fun world => world.setClaimant claimant c
      return .flow result agenda.prompt (some (some outcomes))

/-- The name of the claimant that saves or loads. -/
def transferName : String :=
  ""

/-- Saves or loads. -/
def transferred {α : Type} (prompting : Option Prompting) (acts : List Act)
    (procedure : Bool → Procedure (Except Failure α × Claimant)) (value : α → StepValue) :
    WorldM Outcome := do
  let agenda : Agenda := ⟨transferName, prompting.map terminalOf, acts, []⟩
  let ((result, _), agenda) ← agenda.run (procedure prompting.isSome)
  modify fun world => world.forgetClaimant transferName
  return .flow (result.map value) agenda.prompt none

/-- What a step does that has no steps in it. -/
def runSimple : Step → WorldM Outcome
  | .disturb disturbance => do
    modify fun world => world.disturb disturbance
    return .done .unit
  | .call made => do return .ofResult (StepValue.ofAnswer made) (← callStore made)
  | .readOwner key => do
    return .ofResult (fun fields => .owner (fields.map LockRecord.ownerOf?))
      (← callStore (.fetch key))
  | .hasExpiry key => do
    return .ofResult (fun lifetime => .truth lifetime.hasExpiry) (← callStore (.lifetime key))
  | .describe => do
    let (status, world) := (← get).runLock (LockStatus.find LockRecord.key)
    set world
    return .ofResult (fun status => .text status.text) status
  | .acquire claimant => withClaimant claimant Claimant.acquire (.ofResult fun _ => .unit)
  | .renew claimant => withClaimant claimant Claimant.renew (.ofResult .renewal)
  | .release claimant => withClaimant claimant Claimant.release (.ofResult .truth)
  | .ensureHeld claimant =>
    withClaimant claimant (fun c => return (c.ensureHeld, c)) (.ofResult fun _ => .unit)
  | .inspect claimant => withClaimant claimant (fun c => return (c, c)) fun c => .done (.claimant c)
  | .guardAcquire claimant guard => guardAcquired claimant guard
  | .guardRelease guard =>
    withGuard guard (fun guard c => do
      let (released, _, c) ← guard.release c
      return (released, c)) (.ofResult .truth)
  | .guardDrop guard => dropGuard guard
  | .heartbeat claimant interval beats settle => beaten claimant interval beats settle
  | .plan kind disturbances => do
    modify fun world => { world with contention := { world.contention with
      disturbances := world.contention.disturbances ++ [(kind, disturbances)] } }
    return .done .unit
  | .planFaults kind times text => do
    modify fun world => { world with contention := { world.contention with
      faults := world.contention.faults ++ List.replicate times (kind, text) } }
    return .done .unit
  | .forgetPlans => do
    modify fun world => { world with contention := .none }
    return .done .unit
  | .arrange change => do
    modify fun world => { world with tree := change world.tree }
    return .done .unit
  | .survey => do return .done (.tree (← get).tree)
  | _ => return .done .unit

mutual

/-- A step, ready to be done. -/
def act : Step → Act
  | .wait awaited =>
    ⟨fun world => !awaited.holds world, do return .done (.truth (awaited.holds (← get)))⟩
  | .withHeartbeat claimant interval during =>
    ⟨fun _ => false, waited claimant interval (acts during)⟩
  | .protect claimant interval question during body failure =>
    ⟨fun _ => false, protectedBy claimant interval question (acts during) (acts body) failure⟩
  | .save path timing prompting during =>
    ⟨fun _ => false, do
      let pid := (← get).pid
      transferred prompting (acts during) (Transfer.save pid timing path) .tables⟩
  | .load path timing prompting during =>
    ⟨fun _ => false, do
      let pid := (← get).pid
      transferred prompting (acts during) (Transfer.load pid timing path) .count⟩
  | step => ⟨fun _ => false, runSimple step⟩
  termination_by structural step => step

/-- Steps, ready to be done. -/
def acts : List Step → List Act
  | [] => []
  | step :: steps => act step :: acts steps
  termination_by structural steps => steps

end

/-- Does a step. -/
def run (step : Step) : WorldM Outcome := do
  modify fun world => { world with noted := [] }
  step.act.run

end Step

end Leasehold
