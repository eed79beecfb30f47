import Leasehold.Host
import Leasehold.Proofs.Database.Serve
import Leasehold.Proofs.Surroundings.Alone

/-!
# Sites

A command that nobody interferes with meets on its host what it has left there itself: the
files. All else is up to the host: calls may fail, the clock may show anything, and answers
come as they come. A procedure whose store is a database then runs as on a keyspace that is
left alone, which is what the database holds all along.
-/

namespace Leasehold

open Surroundings Leasehold.Path

/-- What a command works on: the files, and the readings of the clock so far, the last one
first. -/
structure Site where
  tree : Tree
  readings : List Instant

/-- Whether the paths of a request name only certain places. -/
def HostRequest.Touches (touched : Place → Prop) (home : Place) : HostRequest → Prop
  | .file call => call.Touches touched home
  | _ => True

/-- Whether the paths of a request name only certain places, if it is no store call. -/
def Request.Touches (touched : Place → Prop) (home : Place) : Request → Prop
  | .file call => call.Touches touched home
  | _ => True

/-- Whether a request leaves alone what a database holds, if it is no store call. -/
def Request.Avoids (directory : Path) (home : Place) : Request → Prop :=
  Request.Touches (· ≠ (Database.keyspacePath directory).placeFrom home) home

/-- A program of file calls runs on a host as its file calls are answered there. -/
theorem HostProgram.runs_ofFiles {α σ : Type} {program : FileProgram α}
    {answers : (request : HostRequest) → request.Reply → σ → σ → Prop} {state later : σ}
    {result : α} (ran : (HostProgram.ofFiles program).Runs answers state result later) :
    program.Runs (fun call reply => answers (.file call) reply) state result later := by
  induction program generalizing state with
  | done outcome => exact ran
  | step call next ih =>
      obtain ⟨reply, middle, answered, rest⟩ := ran
      exact ⟨reply, middle, answered, ih reply rest⟩

namespace Site

/-- How a request can be answered where nobody interferes. -/
def Answers : (request : HostRequest) → request.Reply → Site → Site → Prop
  | .file call, reply, met, later =>
    ∃ tree, Tree.Answers call reply met.tree tree ∧ later = { met with tree := tree }
  | .log _, _, met, later => later = met
  | .wait (.patience ..), _, met, later => later = met
  | .wait (.isBeatDue c), reply, met, later => reply.2 = c ∧ later = met
  | .wait (.answer c _), reply, met, later => reply.2 = c ∧ later = met
  | .clock, time, met, later => later = { met with readings := time :: met.readings }
  | .variable _, _, met, later => later = met
  | .print _, _, met, later => later = met

variable {site later : Site} {α : Type} {result : α}

/-! ## What a request changes -/

/-- A request changes nothing, reads the clock, or is a file call. -/
theorem answers_cases {request : HostRequest} {reply : request.Reply}
    (answers : Answers request reply site later) :
    later = site ∨ (∃ time, later = { site with readings := time :: site.readings }) ∨
      ∃ call reply' tree, request = .file call ∧ Tree.Answers call reply' site.tree tree ∧
        later = { site with tree := tree } := by
  rcases request with call | event | (⟨question, interval⟩ | c | ⟨c, question⟩) | _ | name | text
  · obtain ⟨tree, answers, rfl⟩ := answers
    exact .inr (.inr ⟨call, reply, tree, rfl, answers, rfl⟩)
  · exact .inl answers
  · exact .inl answers
  · exact .inl answers.2
  · exact .inl answers.2
  · exact .inr (.inl ⟨reply, answers⟩)
  · exact .inl answers
  · exact .inl answers

/-- A program changes what its own calls touch. -/
theorem varies_of_only {touched : Place → Prop} {program : HostProgram α} {home : Place}
    (begins : site.tree.workingDirectory = home)
    (only : program.Only (HostRequest.Touches touched home))
    (ran : program.Runs Answers site result later) : site.tree.Varies touched later.tree := by
  have stable (request : HostRequest) (reply : request.Reply) (state next : Site)
      (touches : request.Touches touched home) (answers : Answers request reply state next)
      (varies : site.tree.Varies touched state.tree) : site.tree.Varies touched next.tree := by
    rcases answers_cases answers with rfl | ⟨_, rfl⟩ | ⟨call, _, tree, rfl, served, rfl⟩
    · exact varies
    · exact varies
    · rw [← begins, ← varies.home] at touches
      exact varies.trans (served.replies.varies touches)
  exact only.invariant stable ran (.refl touched site.tree)

/-- Readings of the clock are only added. -/
theorem mem_readings {program : HostProgram α} (ran : program.Runs Answers site result later)
    {time : Instant} (member : time ∈ site.readings) : time ∈ later.readings := by
  have stable (request : HostRequest) (reply : request.Reply) (state next : Site) (_ : True)
      (answers : Answers request reply state next) (member : time ∈ state.readings) :
      time ∈ next.readings := by
    rcases answers_cases answers with rfl | ⟨_, rfl⟩ | ⟨_, _, _, _, _, rfl⟩
    · exact member
    · exact List.mem_cons_of_mem _ member
    · exact member
  have any := Program.only_of_forall (fun _ => trivial : ∀ request, True) program
  exact any.invariant stable ran member

/-- A program of file calls runs on the tree alone. -/
theorem runs_ofFiles {program : FileProgram α}
    (ran : (HostProgram.ofFiles program).Runs Answers site result later) :
    program.Runs Tree.Answers site.tree result later.tree ∧ later.readings = site.readings := by
  induction program generalizing site with
  | done outcome =>
      obtain ⟨rfl, rfl⟩ := ran
      exact ⟨⟨rfl, rfl⟩, rfl⟩
  | step call next ih =>
      obtain ⟨reply, _, ⟨tree, answers, rfl⟩, rest⟩ := ran
      rcases ih reply rest with ⟨ran, read⟩
      exact ⟨⟨reply, tree, answers, ran⟩, read⟩

/-! ## Calls that do not fail -/

/-- Whether a request is answered as the files serve it, if it is a call that is spared. -/
def Spares (spared : FileCall → Prop) :
    (request : HostRequest) → request.Reply → Site → Site → Prop
  | .file call, reply, met, later => spared call → Tree.Serves call reply met.tree later.tree
  | _, _, _, _ => True

/-- How a request can be answered where nobody interferes and some calls are spared: these do
not fail unless the files are such that they have to. -/
structure AnswersSparing (spared : FileCall → Prop) (request : HostRequest)
    (reply : request.Reply) (met later : Site) : Prop where
  answers : Answers request reply met later
  spares : Spares spared request reply met later

theorem runs_of_sparing {spared : FileCall → Prop} {program : HostProgram α}
    (ran : program.Runs (AnswersSparing spared) site result later) :
    program.Runs Answers site result later :=
  ran.mono fun _ _ _ _ => AnswersSparing.answers

/-- A program whose calls are all spared runs as the files serve them. -/
theorem eq_run_of_sparing {spared : FileCall → Prop} {program : FileProgram α}
    (only : program.Only spared)
    (ran : (HostProgram.ofFiles program).Runs (AnswersSparing spared) site result later) :
    (result, later.tree) = site.tree.run program := by
  have served : program.Runs (fun call reply tree later => spared call →
      Tree.Serves call reply tree later) site.tree result later.tree :=
    (HostProgram.runs_ofFiles ran).pull Site.tree fun _ _ _ _ => AnswersSparing.spares
  exact only.eq_run (fun _ _ _ _ spared serves => serves spared) served

/-- Answers a request where nothing fails, the clock stands still, no beat is due and the
answer is yes. -/
def serve (now : Instant) : (request : HostRequest) → Site → request.Reply × Site
  | .file call, met => ((met.tree.serve call).1, { met with tree := (met.tree.serve call).2 })
  | .log _, met => ((), met)
  | .wait (.patience ..), met => (0, met)
  | .wait (.isBeatDue c), met => ((false, c), met)
  | .wait (.answer c _), met => ((.ok true, c), met)
  | .clock, met => (now, { met with readings := now :: met.readings })
  | .variable _, met => (none, met)
  | .print _, met => ((), met)

theorem answers_serve (now : Instant) (request : HostRequest) (met : Site) :
    Answers request (serve now request met).1 met (serve now request met).2 := by
  rcases request with call | event | (⟨question, interval⟩ | c | ⟨c, question⟩) | _ | name | text
  · exact ⟨_, Tree.answers_serve call met.tree, rfl⟩
  · rfl
  · rfl
  · exact ⟨rfl, rfl⟩
  · exact ⟨rfl, rfl⟩
  · rfl
  · rfl
  · rfl

/-- So all calls are spared. -/
theorem answersSparing_serve (spared : FileCall → Prop) (now : Instant) (request : HostRequest)
    (met : Site) :
    AnswersSparing spared request (serve now request met).1 met (serve now request met).2 := by
  refine ⟨answers_serve now request met, ?_⟩
  cases request with
  | file call => exact fun _ => rfl
  | _ => trivial

/-! ## Procedures on a database -/

/-- That a keyspace that is left alone is what the database holds, and that every visit to it
was at some reading of the clock. If what is in the file of the database is no keyspace, it
holds none, and every visit failed. -/
structure Mirrors (directory : Path) (home : Place) (sound : Bool) (site : Site)
    (s : Surroundings) : Prop where
  begins : site.tree.workingDirectory = home
  tree : s.tree = site.tree
  stored : Database.stored? site.tree directory =
    if sound then some ⟨s.keyspace.entries, false⟩ else none
  times : ∀ visit ∈ s.visits, visit.time ∈ site.readings
  faulted : sound = false → ∀ visit ∈ s.visits, visit.fault?.isSome = true

variable {pid : Pid} {directory : Path} {home : Place} {sound : Bool} {s : Surroundings}

/-- A site is mirrored by surroundings that have not been visited yet. -/
theorem exists_mirrors (site : Site) (directory : Path) : ∃ sound s,
    Mirrors directory site.tree.workingDirectory sound site s ∧ s.visits = [] := by
  cases stored : Database.stored? site.tree directory with
  | none =>
      exact ⟨false, ⟨.empty, site.tree, [], []⟩, ⟨rfl, rfl, stored, List.forall_mem_nil _,
        fun _ => List.forall_mem_nil _⟩, rfl⟩
  | some keyspace =>
      have clean : keyspace = ⟨keyspace.entries, false⟩ := by
        rw [← Database.dirty_of_ofContent? stored]
      exact ⟨true, ⟨keyspace, site.tree, [], []⟩, ⟨rfl, rfl, stored.trans (congrArg some clean),
        List.forall_mem_nil _, nofun⟩, rfl⟩

/-- A store call goes along with a visit. -/
theorem Mirrors.ask {call : StoreCall} {reply : call.Reply}
    (mirrors : Mirrors directory home sound site s)
    (ran : (HostProgram.askDatabase pid directory call).Runs Answers site reply later) :
    ∃ s', Leads (alone (Database.Owns home directory)) (.lock (.store call)) reply s s' ∧
      Mirrors directory home sound later s' := by
  obtain ⟨time, _, rfl, ran⟩ := ran
  rcases runs_ofFiles ran with ⟨ran, read⟩
  have varies : site.tree.Varies (Database.Owns home directory) later.tree :=
    Database.varies_of_serve mirrors.begins (ran.mono fun _ _ _ _ answers => answers.leads)
  have begins := varies.home.trans mirrors.begins
  have visited (fault? : Option StoreFault) :
      ∀ visit ∈ (s.visit time call fault?).visits, visit.time ∈ later.readings := by
    rw [read]
    exact List.forall_mem_cons.mpr ⟨List.mem_cons_self,
      fun visit member => List.mem_cons_of_mem _ (mirrors.times visit member)⟩
  cases Database.runs_serve ran with
  | failed fault kept =>
      refine ⟨{ s.visit time call (some fault) with tree := later.tree },
        ⟨s.keyspace, later.tree, rfl, mirrors.tree ▸ varies, time, some fault, rfl, rfl⟩,
        begins, rfl, kept.trans mirrors.stored, visited _, fun unsound => ?_⟩
      exact List.forall_mem_cons.mpr ⟨rfl, mirrors.faulted unsound⟩
  | served stored left =>
      cases sound with
      | false => cases mirrors.stored.symm.trans stored
      | true =>
          cases mirrors.stored.symm.trans stored
          have same : (⟨s.keyspace.entries, false⟩ : Keyspace).entries = s.keyspace.entries := rfl
          rcases Keyspace.serve_congr same time call with ⟨answered, entries⟩
          rw [entries] at left
          exact ⟨{ s.visit time call none with tree := later.tree },
            ⟨s.keyspace, later.tree, rfl, mirrors.tree ▸ varies, time, none,
              congrArg Except.ok answered, rfl⟩, begins, rfl, left, visited _, nofun⟩

/-- A request of a procedure goes along with a request to surroundings that are left alone,
if it leaves alone what the database holds. -/
theorem Mirrors.performRequest (request : Request) (reply : request.Reply)
    (avoids : request.Avoids directory home) (mirrors : Mirrors directory home sound site s)
    (ran : (HostProgram.performRequest pid directory request).Runs Answers site reply later) :
    ∃ s', Leads (alone (Database.Owns home directory)) request reply s s' ∧
      Mirrors directory home sound later s' := by
  have begins := mirrors.begins
  have remains (tree : Tree) : tree.Varies (Database.Owns home directory) tree := .refl _ _
  rcases request with (call | event) | call | request
  · exact mirrors.ask ran
  · obtain ⟨_, _, rfl, rfl, rfl⟩ := ran
    exact ⟨s, ⟨s.keyspace, s.tree, rfl, remains _, rfl⟩, mirrors⟩
  · obtain ⟨_, _, ⟨tree, answers, rfl⟩, rfl, rfl⟩ := ran
    have varies : site.tree.Varies (· ≠ (Database.keyspacePath directory).placeFrom home) tree :=
      answers.replies.varies (begins ▸ avoids)
    refine ⟨{ s with tree := tree }, ⟨s.keyspace, s.tree, rfl, remains _, tree,
      mirrors.tree ▸ answers.replies, rfl⟩, varies.home.trans begins, rfl, ?_, mirrors.times,
      mirrors.faulted⟩
    rw [Database.stored?_of_varies varies (begins ▸ not_not_intro rfl)]
    exact mirrors.stored
  · rcases request with ⟨question, interval⟩ | c | ⟨c, question⟩
    · obtain ⟨_, _, rfl, rfl, rfl⟩ := ran
      exact ⟨s, ⟨s.keyspace, s.tree, rfl, remains _, rfl⟩, mirrors⟩
    · obtain ⟨_, _, ⟨same, rfl⟩, rfl, rfl⟩ := ran
      exact ⟨s, ⟨s.keyspace, s.tree, rfl, remains _, same, rfl⟩, mirrors⟩
    · obtain ⟨reply, _, ⟨same, rfl⟩, rfl, rfl⟩ := ran
      exact ⟨{ s with asked := (question, reply.1) :: s.asked },
        ⟨s.keyspace, s.tree, rfl, remains _, same, rfl⟩, begins, mirrors.tree, mirrors.stored,
        mirrors.times, mirrors.faulted⟩

/-- A procedure whose store is a database runs as on a keyspace that is left alone. -/
theorem Mirrors.runs_onDatabase {procedure : Procedure α}
    (mirrors : Mirrors directory home sound site s)
    (avoids : procedure.Only (Request.Avoids directory home))
    (ran : (HostProgram.onDatabase pid directory procedure).Runs Answers site result later) :
    ∃ s', procedure.Runs (Leads (alone (Database.Owns home directory))) s result s' ∧
      Mirrors directory home sound later s' :=
  Program.runs_of_expand
    (fun request reply _ _ _ avoids mirrors ran => mirrors.performRequest request reply avoids ran)
    avoids mirrors ran

end Site

end Leasehold
