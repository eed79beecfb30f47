import Leasehold.FileSystem.Tree
import Leasehold.Proofs.Program.Run
import Leasehold.Proofs.Sharing.Procedure

/-!
# The surroundings of a procedure

A procedure that runs by itself meets a store and files as others have left them,
and somebody answers what it asks. Before each request others may interfere, and
each request may fail. So there are many runs, and a statement about all of them is
one about any interference and any failures.

What is done to the store is kept as a list of visits. Contracts about the calls
that are made carry over to these runs.
-/

namespace Leasehold

/-! ## Visits -/

/-- A store call together with the store that it met. -/
structure Visit where
  met : Keyspace
  time : Instant
  call : StoreCall
  fault? : Option StoreFault

namespace Visit

/-- What the call is answered, unless it fails. -/
def reply (visit : Visit) : visit.call.Reply :=
  match visit.fault? with
  | none => .ok (visit.met.serve visit.time visit.call).1
  | some fault => .error (.storeUnavailable fault)

/-- The store after the call, which changes nothing if it fails. -/
def left (visit : Visit) : Keyspace :=
  match visit.fault? with
  | none => (visit.met.serve visit.time visit.call).2
  | some _ => visit.met

/-- The call as the procedure knows it. -/
def made (visit : Visit) : MadeCall :=
  ⟨visit.call, visit.reply, visit.time⟩

variable {visit : Visit} {call : StoreCall} {time : Instant}

/-- A call that got an answer was served. -/
theorem served_of_made {answer : call.Answer} (made : visit.made = ⟨call, .ok answer, time⟩) :
    ∃ met, visit = ⟨met, time, call, none⟩ ∧ answer = (met.serve time call).1 := by
  rcases visit with ⟨met, time', call', fault?⟩
  obtain ⟨rfl, same, rfl⟩ := MadeCall.mk.inj made
  cases fault? with
  | none => exact ⟨met, rfl, (Except.ok.inj (eq_of_heq same)).symm⟩
  | some fault => cases eq_of_heq same

/-- A call fails because the store does. -/
theorem faulted_of_made {failure : Failure} (made : visit.made = ⟨call, .error failure, time⟩) :
    ∃ met fault, visit = ⟨met, time, call, some fault⟩ ∧ failure = .storeUnavailable fault := by
  rcases visit with ⟨met, time', call', fault?⟩
  obtain ⟨rfl, same, rfl⟩ := MadeCall.mk.inj made
  cases fault? with
  | none => cases eq_of_heq same
  | some fault => exact ⟨met, fault, rfl, (Except.error.inj (eq_of_heq same)).symm⟩

end Visit

/-! ## Failing file calls -/

namespace FileCall

/-- What a call is answered that fails. -/
def refusal (failure : IoFailure) : (call : FileCall) → call.Reply
  | .isPresent _ => false
  | .isFile _ => false
  | .isDirectory _ => false
  | .makeDirectory _ => .error failure
  | .read _ => .error failure
  | .create _ => .error failure
  | .openFile _ => .error failure
  | .lock _ => .error failure
  | .unlock _ => .error failure
  | .write .. => .error failure
  | .append .. => .error failure
  | .rename .. => .error failure
  | .remove _ => .error failure

/-- The path of a file that a call may spoil if it fails. -/
def risks? : FileCall → Option Path
  | .create path => some path
  | .openFile path => some path
  | .write path _ => some path
  | .append path _ => some path
  | _ => none

/-- How a call can be answered: as the tree serves it, or not at all, when the file
that it was to write to may have been given any content. -/
inductive Replies (call : FileCall) (tree : Tree) : call.Reply → Tree → Prop
  | served : Replies call tree (tree.serve call).1 (tree.serve call).2
  | refused (failure : IoFailure) : Replies call tree (call.refusal failure) tree
  | spoilt (failure : IoFailure) {path : Path} (risks : call.risks? = some path) {place : Place}
      {found : Option ByteArray} (writable : tree.writable path = .ok (place, found))
      (content : ByteArray) :
      Replies call tree (call.refusal failure) (tree.put place (.file content))

end FileCall

/-- Whether a request asks for an answer. -/
def Request.IsQuestion : Request → Prop
  | .wait (.answer ..) => True
  | _ => False

/-- Whether a request is no store call, or one that is allowed. -/
def Request.Within (allows : StoreCall → Prop) : Request → Prop
  | .lock (.store call) => allows call
  | _ => True

/-- Programs of the lock make requests of the lock only. -/
theorem Procedure.only_ofLock {α : Type} {kind : Request → Prop}
    (locks : ∀ request, kind (.lock request)) (program : LockProgram α) :
    (ofLock program).Only kind := by
  induction program with
  | done result => trivial
  | step request next ih => exact ⟨locks request, ih⟩

/-! ## Surroundings -/

/-- What a procedure works on, the store calls that it has made, the last one first,
and likewise what it has asked and how that was answered. -/
structure Surroundings where
  keyspace : Keyspace
  tree : Tree
  visits : List Visit
  asked : List (String × Except Failure Bool)

/-- What others may do to the store and to the files between two requests. -/
structure Interference where
  onStore : Keyspace → Keyspace → Prop
  onFiles : Tree → Tree → Prop

namespace Surroundings

/-- The calls that have been made. -/
def history (surroundings : Surroundings) : History :=
  surroundings.visits.map Visit.made

/-- Makes a store call. -/
def visit (surroundings : Surroundings) (time : Instant) (call : StoreCall)
    (fault? : Option StoreFault) : Surroundings :=
  let visit : Visit := ⟨surroundings.keyspace, time, call, fault?⟩
  { surroundings with keyspace := visit.left, visits := visit :: surroundings.visits }

/-- How a request can be answered by what it meets. -/
def Answers : (request : Request) → request.Reply → Surroundings → Surroundings → Prop
  | .lock (.store call), reply, met, later =>
    ∃ time fault?, reply = Visit.reply ⟨met.keyspace, time, call, fault?⟩ ∧
      later = met.visit time call fault?
  | .lock (.log _), _, met, later => later = met
  | .file call, reply, met, later =>
    ∃ tree, call.Replies met.tree reply tree ∧ later = { met with tree := tree }
  | .wait (.patience ..), _, met, later => later = met
  | .wait (.isBeatDue c), reply, met, later => reply.2 = c ∧ later = met
  | .wait (.answer c question), reply, met, later =>
    reply.2 = c ∧ later = { met with asked := (question, reply.1) :: met.asked }

/-- How a request can be answered once others have interfered. -/
def Leads (interference : Interference) (request : Request) (reply : request.Reply)
    (surroundings later : Surroundings) : Prop :=
  ∃ keyspace tree, interference.onStore surroundings.keyspace keyspace ∧
    interference.onFiles surroundings.tree tree ∧
    Answers request reply { surroundings with keyspace := keyspace, tree := tree } later

variable {interference : Interference} {α : Type} {surroundings later : Surroundings}

/-- What a request does to the store and the visits: it is a store call, or it leaves
them as others have. -/
theorem leads_cases {request : Request} {reply : request.Reply}
    (led : Leads interference request reply surroundings later) :
    (∃ met time call fault?, request = .lock (.store call) ∧
      interference.onStore surroundings.keyspace met ∧
      later.keyspace = Visit.left ⟨met, time, call, fault?⟩ ∧
      later.visits = ⟨met, time, call, fault?⟩ :: surroundings.visits) ∨
    interference.onStore surroundings.keyspace later.keyspace ∧
      later.visits = surroundings.visits := by
  obtain ⟨keyspace, tree, onStore, -, answers⟩ := led
  rcases request with (call | event) | call | (⟨question, interval⟩ | c | ⟨c, question⟩)
  · obtain ⟨time, fault?, -, rfl⟩ := answers
    exact .inl ⟨keyspace, time, call, fault?, rfl, onStore, rfl, rfl⟩
  · obtain rfl := answers
    exact .inr ⟨onStore, rfl⟩
  · obtain ⟨_, -, rfl⟩ := answers
    exact .inr ⟨onStore, rfl⟩
  · obtain rfl := answers
    exact .inr ⟨onStore, rfl⟩
  · obtain ⟨-, rfl⟩ := answers
    exact .inr ⟨onStore, rfl⟩
  · obtain ⟨-, rfl⟩ := answers
    exact .inr ⟨onStore, rfl⟩

/-! ## Contracts about calls -/

/-- A request does to the history what the contract of calls says. -/
theorem leads_history {allows : StoreCall → Prop} (request : Request) (reply : request.Reply)
    (surroundings later : Surroundings) (led : Leads interference request reply surroundings later) :
    (Procedure.calls allows).leads request reply surroundings.history later.history := by
  obtain ⟨keyspace, tree, -, -, answers⟩ := led
  rcases request with (call | event) | call | (⟨question, interval⟩ | c | ⟨c, question⟩)
  · obtain ⟨time, fault?, rfl, rfl⟩ := answers
    exact ⟨time, rfl⟩
  · obtain rfl := answers
    rfl
  · obtain ⟨_, -, rfl⟩ := answers
    rfl
  · obtain rfl := answers
    rfl
  · obtain ⟨same, rfl⟩ := answers
    exact ⟨same, rfl⟩
  · obtain ⟨same, rfl⟩ := answers
    exact ⟨same, rfl⟩

section

variable {allows : StoreCall → Prop} {ends : α → History → Prop} {procedure : Procedure α}
  {result : α}

/-- What a contract says of the calls of a procedure holds of every run. -/
theorem ends_of_runs (kept : procedure.Keeps (Procedure.calls allows) ends surroundings.history)
    (ran : procedure.Runs (Leads interference) surroundings result later) :
    ends result later.history :=
  kept.of_runs leads_history ran

/-- That only certain store calls have been made since earlier surroundings. -/
def Since (allows : StoreCall → Prop) (earlier later : Surroundings) : Prop :=
  ∃ visits, later.visits = visits ++ earlier.visits ∧ ∀ visit ∈ visits, allows visit.call

theorem Since.refl (allows : StoreCall → Prop) (surroundings : Surroundings) :
    Since allows surroundings surroundings :=
  ⟨[], rfl, by simp⟩

theorem Since.mono {allows' : StoreCall → Prop} (wider : ∀ call, allows call → allows' call)
    {earlier later : Surroundings} (since : Since allows earlier later) :
    Since allows' earlier later := by
  rcases since with ⟨visits, same, allowed⟩
  exact ⟨visits, same, fun visit member => wider _ (allowed visit member)⟩

theorem Since.trans {first second third : Surroundings} (earlier : Since allows first second)
    (later : Since allows second third) : Since allows first third := by
  rcases earlier with ⟨visits, same, allowed⟩
  rcases later with ⟨visits', same', allowed'⟩
  refine ⟨visits' ++ visits, ?_, ?_⟩
  · rw [same', same, List.append_assoc]
  · intro visit member
    rcases List.mem_append.mp member with recent | early
    · exact allowed' visit recent
    · exact allowed visit early

theorem within_of_allows {request : Request} {history : History}
    (allowed : (Procedure.calls allows).allows request history) : request.Within allows := by
  rcases request with (call | event) | call | request
  · exact allowed
  · trivial
  · trivial
  · trivial

/-- A request adds no visit but that of an allowed call. -/
theorem Since.leads {earlier : Surroundings} (since : Since allows earlier surroundings)
    {request : Request} {reply : request.Reply} (allowed : request.Within allows)
    (led : Leads interference request reply surroundings later) : Since allows earlier later := by
  rcases since with ⟨visits, same, others⟩
  rcases leads_cases led with ⟨met, time, call, fault?, rfl, -, -, visited⟩ | ⟨-, unvisited⟩
  · refine ⟨⟨met, time, call, fault?⟩ :: visits, ?_, ?_⟩
    · rw [visited, same, List.cons_append]
    · intro visit member
      rcases List.mem_cons.mp member with rfl | early
      · exact allowed
      · exact others visit early
  · exact ⟨visits, unvisited.trans same, others⟩

/-- A procedure that makes only certain calls makes no others in any run. -/
theorem since_of_runs (kept : procedure.Keeps (Procedure.calls allows) ends surroundings.history)
    (ran : procedure.Runs (Leads interference) surroundings result later) :
    Since allows surroundings later :=
  kept.invariant_of_runs leads_history
    (fun _ _ _ _ allowed led since => since.leads (within_of_allows allowed) led)
    ran (.refl allows surroundings)

theorem since_of_only (only : procedure.Only (Request.Within allows))
    (ran : procedure.Runs (Leads interference) surroundings result later) :
    Since allows surroundings later := by
  have stable : ∀ (request : Request) (reply : request.Reply) (state next : Surroundings),
      request.Within allows → Leads interference request reply state next →
        Since allows surroundings state → Since allows surroundings next :=
    fun _ _ _ _ allowed led since => since.leads allowed led
  exact only.invariant stable ran (.refl allows surroundings)

end

/-! ## Requests of one kind -/

/-- A request that is no question leaves what has been asked. -/
theorem asked_of_leads {request : Request} {reply : request.Reply} (silent : ¬request.IsQuestion)
    (led : Leads interference request reply surroundings later) :
    later.asked = surroundings.asked := by
  obtain ⟨keyspace, tree, -, -, answers⟩ := led
  rcases request with (call | event) | call | (⟨question, interval⟩ | c | ⟨c, question⟩)
  · obtain ⟨time, fault?, -, rfl⟩ := answers
    rfl
  · obtain rfl := answers
    rfl
  · obtain ⟨_, -, rfl⟩ := answers
    rfl
  · obtain rfl := answers
    rfl
  · obtain ⟨-, rfl⟩ := answers
    rfl
  · exact absurd trivial silent

/-- Procedures that ask nothing leave what has been asked. -/
theorem asked_of_runs {procedure : Procedure α} {result : α}
    (only : procedure.Only fun request => ¬request.IsQuestion)
    (ran : procedure.Runs (Leads interference) surroundings result later) :
    later.asked = surroundings.asked := by
  have stable : ∀ (request : Request) (reply : request.Reply) (state next : Surroundings),
      ¬request.IsQuestion → Leads interference request reply state next →
        state.asked = surroundings.asked → next.asked = surroundings.asked :=
    fun _ _ _ _ silent led same => (asked_of_leads silent led).trans same
  exact only.invariant stable ran rfl

/-- What a contract says of a program of the lock holds of every run, and such a run
asks nothing. -/
theorem runs_ofLock {allows : StoreCall → Prop} {program : LockProgram α}
    {ends : α → History → Prop} {result : α}
    (kept : program.Keeps (LockProgram.calls allows) ends surroundings.history)
    (ran : (Procedure.ofLock program).Runs (Leads interference) surroundings result later) :
    ends result later.history ∧ Since allows surroundings later ∧
      later.asked = surroundings.asked := by
  have kept' := Procedure.keeps_ofLock kept
  exact ⟨ends_of_runs kept' ran, since_of_runs kept' ran,
    asked_of_runs (Procedure.only_ofLock (fun _ => id) program) ran⟩

/-! ## Undisturbed surroundings -/

/-- Answers a request where nobody interferes, nothing fails, every beat that can be due
is due, and questions are answered as given. -/
def undisturbed (now : Instant) (answer : Except Failure Bool) :
    (request : Request) → Surroundings → request.Reply × Surroundings
  | .lock (.store call), met =>
    (Visit.reply ⟨met.keyspace, now, call, none⟩, met.visit now call none)
  | .lock (.log _), met => ((), met)
  | .file call, met => ((met.tree.serve call).1, { met with tree := (met.tree.serve call).2 })
  | .wait (.patience ..), met => (1, met)
  | .wait (.isBeatDue c), met => ((true, c), met)
  | .wait (.answer c question), met =>
    ((answer, c), { met with asked := (question, answer) :: met.asked })

/-- Where others need not interfere, surroundings can be undisturbed. -/
theorem leads_undisturbed (store : ∀ keyspace, interference.onStore keyspace keyspace)
    (files : ∀ tree, interference.onFiles tree tree) (now : Instant)
    (answer : Except Failure Bool) (request : Request) (met : Surroundings) :
    Leads interference request (undisturbed now answer request met).1 met
      (undisturbed now answer request met).2 := by
  refine ⟨met.keyspace, met.tree, store _, files _, ?_⟩
  rcases request with (call | event) | call | (⟨question, interval⟩ | c | ⟨c, question⟩)
  · exact ⟨now, none, rfl, rfl⟩
  · rfl
  · exact ⟨_, .served, rfl⟩
  · rfl
  · exact ⟨rfl, rfl⟩
  · exact ⟨rfl, rfl⟩

end Surroundings

end Leasehold
