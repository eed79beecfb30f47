import Leasehold.Proofs.Database.Content
import Leasehold.Proofs.Store.Change

/-!
# Calls to a database

A call to a database is answered as by the keyspace that the database holds, and then the
database holds the keyspace that the call has left; or it fails, and the database holds
what it held. That is so whatever fails in between, for the keyspace is loaded before the
call and persisted in one go after it, unless nothing has changed.
-/

namespace Leasehold.Database

open Leasehold.Path

variable {tree later : Tree} {directory : Path} {place : Place} {keyspace : Keyspace}
  {pid : Pid} {now : Instant} {call : StoreCall} {reply : call.Reply}

/-! ## Persisting -/

/-- Persisting fails and the database holds what it held, or its file has the text of the
keyspace. -/
theorem runs_persist_text {outcome : Except Failure Unit}
    (ran : (persist pid directory keyspace).Runs Tree.Answers tree outcome later) :
    (∃ fault, outcome = .error (.storeUnavailable fault) ∧
      stored? later directory = stored? tree directory) ∨
    outcome = .ok () ∧ later.read (keyspacePath directory) = .ok keyspace.write.toUTF8 := by
  have answers (call : FileCall) (reply : call.Reply) (tree later : Tree)
      (answers : Tree.Answers call reply tree later) :
      Tree.Leads (fun _ => False) call reply tree later :=
    answers.leads
  rcases Program.runs_bind.mp (ran.mono answers) with ⟨replaced, middle, replacing, rest⟩
  cases FileSystem.replaceFile_replaces rfl (fun _ _ => id) replacing with
  | failed failure varies =>
      obtain ⟨rfl, rfl⟩ := rest
      refine .inl ⟨_, rfl, stored?_of_varies varies ?_⟩
      rintro (owned | ⟨temporary, found, same⟩)
      · exact owned
      · exact FileSystem.placeFrom_temporary?_ne found _ same.symm
  | replaced varies reads =>
      obtain ⟨rfl, rfl⟩ := rest
      exact .inr ⟨rfl, reads⟩

/-- Persisting fails and the database holds what it held, or it holds the keyspace. -/
theorem runs_persist {outcome : Except Failure Unit} (proper : keyspace.IsProper)
    (ran : (persist pid directory keyspace).Runs Tree.Answers tree outcome later) :
    (∃ fault, outcome = .error (.storeUnavailable fault) ∧
      stored? later directory = stored? tree directory) ∨
    outcome = .ok () ∧ stored? later directory = some ⟨keyspace.entries, false⟩ := by
  refine (runs_persist_text ran).imp_right fun ⟨done, reads⟩ => ⟨done, ?_⟩
  rw [stored?, Tree.content?_of_read reads, ofContent?_write proper]

/-! ## Serving -/

/-- How a call to a database can go. -/
inductive Serves (directory : Path) (now : Instant) (call : StoreCall) (tree : Tree) :
    call.Reply → Tree → Prop
  | failed {later : Tree} (fault : StoreFault)
      (kept : stored? later directory = stored? tree directory) :
      Serves directory now call tree (.error (.storeUnavailable fault)) later
  | served {keyspace : Keyspace} {later : Tree} (stored : stored? tree directory = some keyspace)
      (left : stored? later directory = some ⟨(keyspace.serve now call).2.entries, false⟩) :
      Serves directory now call tree (.ok (keyspace.serve now call).1) later

/-- A call is one too if the database held the same before and holds the same after. -/
theorem Serves.congr {tree' later' : Tree} (serves : Serves directory now call tree reply later)
    (before : stored? tree directory = stored? tree' directory)
    (after : stored? later' directory = stored? later directory) :
    Serves directory now call tree' reply later' := by
  cases serves with
  | failed fault kept => exact .failed fault (after.trans (kept.trans before))
  | served stored left => exact .served (before ▸ stored) (after.trans left)

/-- What is done while the database is locked. -/
theorem runs_transact (reaches : tree.Reaches (keyspacePath directory) place)
    (ran : (transact pid directory now call).Runs Tree.Answers tree reply later) :
    Serves directory now call tree reply later := by
  rcases Program.runs_bind.mp ran with ⟨outcome, middle, loading, rest⟩
  rcases runs_load reaches loading with ⟨rfl, ⟨fault, rfl⟩ | ⟨keyspace, rfl, stored⟩⟩
  · obtain ⟨rfl, rfl⟩ := rest
    exact .failed fault rfl
  · have proper := isProper_of_ofContent? stored
    simp only at rest
    split at rest
    next dirty =>
      rcases Program.runs_bind.mp rest with ⟨persisted, reached, persisting, rest⟩
      rcases runs_persist (proper.serve now call) persisting with ⟨fault, rfl, kept⟩ | ⟨rfl, left⟩
      · obtain ⟨rfl, rfl⟩ := rest
        exact .failed fault kept
      · obtain ⟨rfl, rfl⟩ := rest
        exact .served stored left
    next clean =>
      obtain ⟨rfl, rfl⟩ := rest
      have same := Keyspace.serve_of_clean (Bool.eq_false_iff.mpr clean)
      refine .served stored ?_
      rw [same, stored, ← dirty_of_ofContent? stored]

theorem isFileName_keyspace : IsFileName "db.json" :=
  ⟨by decide, by decide, by decide, by decide, by decide⟩

theorem isFileName_guard : IsFileName "db.lock" :=
  ⟨by decide, by decide, by decide, by decide, by decide⟩

/-- An open guard tells where the keyspace is. -/
theorem reaches_of_opened
    (answers : Tree.Answers (.openFile (guardPath directory)) (.ok ()) tree later) :
    ∃ place, later.Reaches (keyspacePath directory) place := by
  have varies : tree.Varies (fun _ => True) later := answers.replies.varies fun _ _ => trivial
  rcases answers.replies.unaltered_or_reaches rfl with ⟨⟨_, said⟩, -⟩ | ⟨place, reaches⟩
  · cases said
  · exact ⟨_, (varies.reaches reaches).sibling isFileName_guard isFileName_keyspace (by decide)⟩

/-- A file call that touches the guard at most does not change what is held. -/
theorem stored?_of_guarded {call : FileCall} {reply : call.Reply}
    (within : ∀ path ∈ call.touches, path = guardPath directory)
    (answers : Tree.Answers call reply tree later) :
    stored? later directory = stored? tree directory := by
  have apart : (keyspacePath directory).placeFrom tree.workingDirectory ≠
      (guardPath directory).placeFrom tree.workingDirectory := by
    rw [placeFrom_keyspacePath, placeFrom_guardPath]
    exact fun same => absurd (List.cons.inj same).1 (by decide)
  have varies : tree.Varies (· = (guardPath directory).placeFrom tree.workingDirectory) later :=
    answers.replies.varies fun path member => by rw [within path member]
  exact stored?_of_varies varies apart

/-- A call to a database goes in one of these ways. -/
theorem runs_serve (ran : (serve pid directory now call).Runs Tree.Answers tree reply later) :
    Serves directory now call tree reply later := by
  simp only [serve, FileCall.perform, Program.perform_bind] at ran
  obtain ⟨opened, tree₁, opening, ran⟩ := ran
  have kept₁ := stored?_of_guarded (fun _ => List.mem_singleton.mp) opening
  rcases opened with failure | _
  · obtain ⟨rfl, rfl⟩ := ran
    exact .failed _ kept₁
  · obtain ⟨locked, tree₂, locking, ran⟩ := ran
    have kept₂ : stored? tree₂ directory = stored? tree₁ directory :=
      stored?_of_guarded (List.forall_mem_nil _) locking
    rcases locked with failure | _
    · obtain ⟨rfl, rfl⟩ := ran
      exact .failed _ (kept₂.trans kept₁)
    · rcases Program.runs_bind.mp ran with ⟨outcome, tree₃, transacting, rest⟩
      obtain ⟨_, tree₄, unlocking, rfl, rfl⟩ := rest
      rcases reaches_of_opened opening with ⟨place, reaches⟩
      have varies : tree₁.Varies (fun _ => True) tree₂ := locking.replies.varies fun _ _ => trivial
      exact (runs_transact (varies.reaches reaches) transacting).congr (kept₂.trans kept₁)
        (stored?_of_guarded (List.forall_mem_nil _) unlocking)

end Leasehold.Database
