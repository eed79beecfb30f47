import Leasehold.Machine
import Leasehold.Proofs.FileSystem.Neighbour
import Leasehold.Proofs.FileSystem.Replacement
import Leasehold.Proofs.Keyspace.Codec

/-!
# What a database holds

The records of a database are those that the text in its file stands for, and none if
there is no file or only blanks in it. Loading a database gives just these, or fails,
if whoever answers the calls may fail but does not say of a file that is there that it
is not. What has been persisted is what the database holds from then on.
-/

namespace Leasehold

open Leasehold.Path

/-! ## Honest answers -/

/-- Whether a reply is honest: only of a file that is not found it is said so. -/
def FileCall.IsHonest (tree : Tree) : (call : FileCall) → call.Reply → Prop
  | .read path, reply => reply = .error .notFound → tree.read path = .error .notFound
  | _, _ => True

namespace Tree

variable {tree later : Tree} {path : Path} {place : Place} {touched : Place → Prop}

/-- How a call can be answered where nobody else uses the files: it may fail, but the
answer is honest. -/
structure Answers (call : FileCall) (reply : call.Reply) (tree later : Tree) : Prop where
  replies : call.Replies tree reply later
  honest : call.IsHonest tree reply

/-- Serving a call is one way to answer it. -/
theorem answers_serve (call : FileCall) (tree : Tree) :
    Answers call (tree.serve call).1 tree (tree.serve call).2 := by
  refine ⟨.served, ?_⟩
  cases call <;> first | trivial | exact id

/-- Serving calls is one way to answer those of a program. -/
theorem runs_run {α : Type} (tree : Tree) (program : FileProgram α) :
    program.Runs Answers tree (tree.run program).1 (tree.run program).2 :=
  Program.runs_run (fun call tree => answers_serve call tree) program tree

/-- That a call is answered as a tree serves it. -/
def Serves (call : FileCall) (reply : call.Reply) (tree later : Tree) : Prop :=
  (reply, later) = tree.serve call

theorem Serves.answers {call : FileCall} {reply : call.Reply}
    (serves : Serves call reply tree later) : Answers call reply tree later := by
  have answers := answers_serve call tree
  rwa [← serves] at answers

theorem runs_serves {α : Type} (tree : Tree) (program : FileProgram α) :
    program.Runs Serves tree (tree.run program).1 (tree.run program).2 :=
  Program.runs_run (fun _ _ => rfl) program tree

/-- Where all calls are served as a tree serves them a program has no other run. -/
theorem eq_run_of_serves {α : Type} {program : FileProgram α} {result : α}
    (ran : program.Runs Serves tree result later) : (result, later) = tree.run program :=
  (Program.only_of_forall (fun _ => trivial : ∀ _, True) program).eq_run
    (fun _ _ _ _ _ => id) ran

theorem run_bind {α β : Type} (tree : Tree) (program : FileProgram α) (next : α → FileProgram β) :
    tree.run (program >>= next) = (tree.run program).2.run (next (tree.run program).1) :=
  Program.run_bind _ program next tree

theorem Answers.leads {call : FileCall} {reply : call.Reply}
    (answers : Answers call reply tree later) : Leads touched call reply tree later :=
  ⟨tree, .refl touched tree, answers.replies⟩

/-- A read is answered as the file is, or fails for a reason other than that there is
none. -/
theorem Answers.read {reply : Except IoFailure ByteArray}
    (answers : Answers (.read path) reply tree later) :
    later = tree ∧ (reply = tree.read path ∨
      ∃ failure, failure ≠ .notFound ∧ reply = .error failure) := by
  rcases answers with ⟨replies, honest⟩
  rcases replies.served_or_refused with ⟨rfl, rfl⟩ | ⟨failure, rfl, unchanged⟩
  · exact ⟨rfl, .inl rfl⟩
  · refine ⟨unchanged rfl, ?_⟩
    by_cases missing : failure = .notFound
    · subst missing
      exact .inl (honest rfl).symm
    · exact .inr ⟨failure, missing, rfl⟩

/-- What reading gives of what a place holds. -/
def contentOf : Node → Except IoFailure ByteArray
  | .file content => .ok content
  | .directory => .error .isDirectory

/-- What reading gives at a place that the path leads to. -/
theorem Reaches.read (reaches : tree.Reaches path place) :
    tree.read path = (tree.node? place).elim (.error .notFound) contentOf := by
  have located : tree.locate path =
      (tree.node? place).elim (.error .notFound) fun node => .ok (place, node) := by
    rw [locate, reaches.walkable]
    change (path.pieces.foldlM tree.enter (tree.origin path) >>= _) = _
    rw [reaches.walk]
    simp only [bind, Except.bind]
    cases tree.node? place <;> rfl
  rw [Tree.read, located]
  cases tree.node? place with
  | none => rfl
  | some node => cases node <;> rfl

end Tree

/-! ## Reading -/

namespace FileSystem

variable {α : Type} {tree later : Tree} {path : Path} {outcome : α}

/-- The text of what a read was answered. -/
def textOf : Except IoFailure ByteArray → Except IoFailure String
  | .error failure => .error failure
  | .ok content =>
    match String.fromUTF8? content with
    | some text => .ok text
    | none => .error .notUtf8

theorem readText_eq (path : Path) :
    readText path = .step (.read path) fun reply => .done (textOf reply) := by
  refine congrArg (Program.step _) (funext fun reply => ?_)
  rcases reply with failure | content
  · rfl
  · change (match String.fromUTF8? content with | some _ => _ | none => _ : FileProgram _) = _
    simp only [textOf]
    cases String.fromUTF8? content <;> rfl

/-- A text was read of its bytes. -/
theorem textOf_eq_ok {reply : Except IoFailure ByteArray} {text : String}
    (found : textOf reply = .ok text) : reply = .ok text.toUTF8 := by
  unfold textOf at found
  split at found
  · cases found
  · split at found
    next utf8 =>
      cases found
      rw [toUTF8_of_fromUTF8? utf8]
    next => cases found

theorem run_readText (tree : Tree) (path : Path) :
    tree.run (readText path) = (textOf (tree.read path), tree) := by
  rw [readText_eq]
  rfl

/-- A program that only reads makes something of the file as it is, or of a failure other
than that there is none. -/
theorem runs_read {next : Except IoFailure ByteArray → α}
    (ran : Program.Runs Tree.Answers
      (.step (.read path) fun reply => .done (next reply) : FileProgram α) tree outcome later) :
    later = tree ∧ (outcome = next (tree.read path) ∨
      ∃ failure, failure ≠ .notFound ∧ outcome = next (.error failure)) := by
  obtain ⟨reply, middle, answers, rfl, rfl⟩ := ran
  rcases answers.read with ⟨rfl, rfl | ⟨failure, found, rfl⟩⟩
  · exact ⟨rfl, .inl rfl⟩
  · exact ⟨rfl, .inr ⟨failure, found, rfl⟩⟩

end FileSystem

/-! ## Contents -/

namespace Database

variable {tree later : Tree} {directory : Path} {place : Place} {keyspace : Keyspace}
  {content? : Option ByteArray}

/-- The keyspace that the content of a file stands for, if it stands for any. -/
def ofContent? : Option ByteArray → Option Keyspace
  | none => some .empty
  | some content => do
    let text ← String.fromUTF8? content
    if Text.isAllBlank text then some .empty else Keyspace.read? text

theorem isAllBlank_write (keyspace : Keyspace) : Text.isAllBlank keyspace.write = false := by
  have brace : Text.isBlank '{' = false := by decide
  simp [Keyspace.write, Json.pretty, Text.isAllBlank, Json.writePretty, brace]

/-- What is written stands for what was to be written. -/
theorem ofContent?_write (proper : keyspace.IsProper) :
    ofContent? (some keyspace.write.toUTF8) = some ⟨keyspace.entries, false⟩ := by
  rw [ofContent?, fromUTF8?_toUTF8, Option.bind_eq_bind, Option.bind_some, isAllBlank_write,
    if_neg Bool.false_ne_true, Keyspace.read?_write proper]

theorem isProper_of_ofContent? (stands : ofContent? content? = some keyspace) :
    keyspace.IsProper := by
  cases content? with
  | none =>
      cases stands
      exact Keyspace.isProper_empty
  | some content =>
      rcases Option.bind_eq_some_iff.mp stands with ⟨text, -, stands⟩
      split at stands
      · cases stands
        exact Keyspace.isProper_empty
      · exact Keyspace.isProper_of_read? stands

theorem dirty_of_ofContent? (stands : ofContent? content? = some keyspace) :
    keyspace.dirty = false := by
  cases content? with
  | none =>
      cases stands
      rfl
  | some content =>
      rcases Option.bind_eq_some_iff.mp stands with ⟨text, -, stands⟩
      split at stands
      · cases stands
        rfl
      · exact Keyspace.dirty_of_read? stands

/-- The keyspace that a database holds, if what is in its file stands for any. -/
def stored? (tree : Tree) (directory : Path) : Option Keyspace :=
  ofContent? (tree.content? ((keyspacePath directory).placeFrom tree.workingDirectory))

/-- A database holds what it did where its file has not been touched. -/
theorem stored?_of_varies {touched : Place → Prop} (varies : tree.Varies touched later)
    (untouched : ¬touched ((keyspacePath directory).placeFrom tree.workingDirectory)) :
    stored? later directory = stored? tree directory := by
  rw [stored?, stored?, varies.home, varies.content _ untouched]

/-! ## Loading -/

/-- What loading makes of the text that it reads. -/
def loaded (path : Path) : Except IoFailure String → Except Failure Keyspace
  | .error .notFound => .ok .empty
  | .error cause => .error (.storeUnavailable (.reading path cause))
  | .ok text =>
    if Text.isAllBlank text then .ok .empty
    else
      match Keyspace.read? text with
      | some keyspace => .ok keyspace
      | none => .error (.storeUnavailable (.malformed path))

theorem loaded_of_failed {failure : IoFailure} (failed : failure ≠ .notFound) (path : Path) :
    loaded path (.error failure) = .error (.storeUnavailable (.reading path failure)) := by
  cases failure with
  | notFound => exact absurd rfl failed
  | _ => rfl

theorem load_eq (directory : Path) :
    load directory = .step (.read (keyspacePath directory))
      fun reply => .done (loaded (keyspacePath directory) (FileSystem.textOf reply)) := by
  rw [load, FileSystem.readText_eq]
  refine congrArg (Program.step _) (funext fun reply => ?_)
  simp only [Program.bind]
  rcases FileSystem.textOf reply with failure | text
  · cases failure <;> rfl
  · simp only [loaded]
    split
    · rfl
    · cases Keyspace.read? text <;> rfl

theorem loaded_of_content (path : Path) (content : ByteArray) :
    (∃ fault, loaded path (FileSystem.textOf (.ok content)) = .error (.storeUnavailable fault) ∧
      ofContent? (some content) = none) ∨
    ∃ keyspace, loaded path (FileSystem.textOf (.ok content)) = .ok keyspace ∧
      ofContent? (some content) = some keyspace := by
  rw [FileSystem.textOf, ofContent?]
  cases String.fromUTF8? content with
  | none => exact .inl ⟨_, rfl, rfl⟩
  | some text =>
      simp only [loaded, Option.bind_eq_bind, Option.bind_some]
      split
      · exact .inr ⟨_, rfl, rfl⟩
      · cases Keyspace.read? text with
        | none => exact .inl ⟨_, rfl, rfl⟩
        | some keyspace => exact .inr ⟨_, rfl, rfl⟩

/-- Of the answer that the file gives loading makes what the database holds, or fails. -/
theorem loaded_read (reaches : tree.Reaches (keyspacePath directory) place) :
    let outcome := loaded (keyspacePath directory)
      (FileSystem.textOf (tree.read (keyspacePath directory)))
    (∃ fault, outcome = .error (.storeUnavailable fault)) ∨
      ∃ keyspace, outcome = .ok keyspace ∧ stored? tree directory = some keyspace := by
  rw [stored?, ← reaches.eq_placeFrom, reaches.read, Tree.content?]
  cases tree.node? place with
  | none => exact .inr ⟨_, rfl, rfl⟩
  | some node =>
      cases node with
      | directory => exact .inl ⟨_, rfl⟩
      | file content =>
          rcases loaded_of_content (keyspacePath directory) content with
            ⟨fault, failed, -⟩ | understood
          · exact .inl ⟨fault, failed⟩
          · exact .inr understood

/-- How loading can go: it gives what the database holds, or fails. -/
theorem runs_load {outcome : Except Failure Keyspace}
    (reaches : tree.Reaches (keyspacePath directory) place)
    (ran : (load directory).Runs Tree.Answers tree outcome later) :
    later = tree ∧ ((∃ fault, outcome = .error (.storeUnavailable fault)) ∨
      ∃ keyspace, outcome = .ok keyspace ∧ stored? tree directory = some keyspace) := by
  rw [load_eq] at ran
  rcases FileSystem.runs_read ran with ⟨rfl, rfl | ⟨failure, found, rfl⟩⟩
  · exact ⟨rfl, loaded_read reaches⟩
  · exact ⟨rfl, .inl ⟨_, loaded_of_failed found _⟩⟩

/-- Where a database holds a keyspace and there is no directory in the place of its file,
loading gives the keyspace. -/
theorem run_load (reaches : tree.Reaches (keyspacePath directory) place)
    (file : tree.node? place ≠ some .directory) (stored : stored? tree directory = some keyspace) :
    tree.run (load directory) = (.ok keyspace, tree) := by
  have understood : loaded (keyspacePath directory)
      (FileSystem.textOf (tree.read (keyspacePath directory))) = .ok keyspace := by
    rw [stored?, ← reaches.eq_placeFrom, Tree.content?] at stored
    rw [reaches.read]
    cases found : tree.node? place with
    | none =>
        rw [found] at stored
        exact congrArg Except.ok (Option.some.inj stored)
    | some node =>
        cases node with
        | directory => exact absurd found file
        | file content =>
            rw [found] at stored
            rcases loaded_of_content (keyspacePath directory) content with
              ⟨_, _, none⟩ | ⟨_, understood, some⟩
            · rw [stored] at none
              contradiction
            · rw [stored] at some
              cases some
              exact understood
  rw [load_eq, Tree.run, Program.run_step, Program.run_done]
  exact congrArg (·, tree) understood

end Database

end Leasehold
