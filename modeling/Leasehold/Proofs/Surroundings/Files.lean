import Leasehold.Proofs.FileSystem.Replacement

/-!
# Files of others

Others may do to a store what they like, and change the files that it is kept in with
every call. A procedure that touches no file leaves the tree as they do, and one that
consists of file calls runs on the tree alone.
-/

namespace Leasehold

open Procedure Surroundings

/-! ## Others and the files of a store -/

/-- The places of the files that a store is kept in: those of a database in a directory,
or none. -/
def storeFiles (home : Place) : Option Path → Place → Prop
  | some directory, place => Database.Owns home directory place
  | none, _ => False

/-- Others who do to the store what they like, and change no files but some of their
own. -/
def besides (owned : Place → Prop) : Interference :=
  ⟨fun _ _ => True, Tree.Varies owned⟩

/-- A temporary file is one of a store only if the file that it is for is. -/
theorem storeFiles_of_temporary {home : Place} {directory? : Option Path} {pid : Nat}
    {path temporary : Path} (found : FileSystem.temporary? pid path = some temporary)
    (owns : storeFiles home directory? (temporary.placeFrom home)) :
    storeFiles home directory? (path.placeFrom home) := by
  cases directory? with
  | none => exact owns
  | some directory => exact Database.owns_of_owns_temporary found owns

/-- Whether a request can change no file. -/
def Request.SparesFiles : Request → Prop
  | .file call => call.touches = []
  | _ => True

namespace Surroundings

variable {owned : Place → Prop} {s later : Surroundings} {α : Type} {result : α}

theorem varies_of_leads {request : Request} {reply : request.Reply}
    (spares : request.SparesFiles) (led : Leads (besides owned) request reply s later) :
    s.tree.Varies owned later.tree := by
  obtain ⟨keyspace, tree, -, varies, answers⟩ := led
  rcases request with (call | event) | call | (⟨question, interval⟩ | c | ⟨c, question⟩)
  · obtain ⟨time, fault?, -, rfl⟩ := answers
    exact varies
  · obtain rfl := answers
    exact varies
  · obtain ⟨_, replies, rfl⟩ := answers
    have untouched : call.touches = [] := spares
    refine varies.trans (replies.varies ?_)
    simp [untouched]
  · obtain rfl := answers
    exact varies
  · obtain ⟨-, rfl⟩ := answers
    exact varies
  · obtain ⟨-, rfl⟩ := answers
    exact varies

/-- A procedure that spares the files leaves them as others do. -/
theorem varies_of_only {procedure : Procedure α} (only : procedure.Only Request.SparesFiles)
    (ran : procedure.Runs (Leads (besides owned)) s result later) :
    s.tree.Varies owned later.tree := by
  have stable : ∀ (request : Request) (reply : request.Reply) (state next : Surroundings),
      request.SparesFiles → Leads (besides owned) request reply state next →
        s.tree.Varies owned state.tree → s.tree.Varies owned next.tree :=
    fun _ _ _ _ spares led varies => varies.trans (varies_of_leads spares led)
  exact only.invariant stable ran (.refl owned s.tree)

/-- A program of file calls runs on the tree alone. -/
theorem runs_ofFiles {program : FileProgram α}
    (ran : (ofFiles program).Runs (Leads (besides owned)) s result later) :
    program.Runs (Tree.Leads owned) s.tree result later.tree ∧ later.visits = s.visits := by
  induction program generalizing s with
  | done outcome =>
      obtain ⟨rfl, rfl⟩ := ran
      exact ⟨⟨rfl, rfl⟩, rfl⟩
  | step call next ih =>
      obtain ⟨reply, middle, ⟨keyspace, tree, -, varies, changed, replies, rfl⟩, rest⟩ := ran
      rcases ih reply rest with ⟨ran, visited⟩
      exact ⟨⟨reply, changed, ⟨tree, varies, replies⟩, ran⟩, visited⟩

end Surroundings

end Leasehold
