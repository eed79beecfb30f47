import Leasehold.Proofs.FileSystem.Change

/-!
# Replacing files is all or nothing

A file is replaced by way of a temporary one, and only the move at the end touches the
file itself. So a replacement that fails leaves it as it was, however it fails, and one
that succeeds leaves all of the new content. Others may change other files meanwhile.
-/

namespace Leasehold

open FileSystem Leasehold.Path

/-- Whether the paths of a call name only certain places. -/
def FileCall.Touches (touched : Place → Prop) (home : Place) (call : FileCall) : Prop :=
  ∀ path ∈ call.touches, touched (path.placeFrom home)

/-- Whether a call looks for a directory or makes one. -/
def FileCall.isAboutDirectories : FileCall → Bool
  | .isPresent _ => true
  | .isDirectory _ => true
  | .makeDirectory _ => true
  | _ => false

/-- Such a call touches no file. -/
theorem FileCall.touches_of_isAboutDirectories {touched : Place → Prop} {home : Place}
    {call : FileCall} (about : call.isAboutDirectories = true) : call.Touches touched home := by
  cases call <;> first | contradiction | exact List.forall_mem_nil _

/-- A call is served or refused, and one that writes nothing changes nothing then. -/
theorem FileCall.Replies.served_or_refused {call : FileCall} {tree later : Tree}
    {reply : call.Reply} (replies : call.Replies tree reply later) :
    reply = (tree.serve call).1 ∧ later = (tree.serve call).2 ∨
      ∃ failure, reply = call.refusal failure ∧ (call.risks? = none → later = tree) := by
  cases replies with
  | served => exact .inl ⟨rfl, rfl⟩
  | refused failure => exact .inr ⟨failure, rfl, fun _ => rfl⟩
  | spoilt failure risks =>
      exact .inr ⟨failure, rfl, fun harmless => absurd (risks.symm.trans harmless) nofun⟩

/-- Opening a file to write to it makes it if it is not there. -/
theorem FileCall.Replies.opened {path : Path} {tree later : Tree}
    (replies : (FileCall.openFile path).Replies tree (.ok ()) later) :
    tree.change path (fun found => found.getD ByteArray.empty) = .ok later := by
  rcases replies.served_or_refused with ⟨said, rfl⟩ | ⟨_, said, -⟩
  · exact Tree.eq_ok_of_settle said.symm
  · cases said

/-- What was added to a file is at the end of it. -/
theorem FileCall.Replies.appended {path : Path} {content : ByteArray} {tree later : Tree}
    (replies : (FileCall.append path content).Replies tree (.ok ()) later) :
    tree.change path (fun found => found.getD ByteArray.empty ++ content) = .ok later := by
  rcases replies.served_or_refused with ⟨said, rfl⟩ | ⟨_, said, -⟩
  · exact Tree.eq_ok_of_settle said.symm
  · cases said

namespace Tree

/-- How a call can be answered once others have changed files of their own. -/
def Leads (owned : Place → Prop) (call : FileCall) (reply : call.Reply) (tree later : Tree) :
    Prop :=
  ∃ met, tree.Varies owned met ∧ call.Replies met reply later

variable {owned touched : Place → Prop} {home : Place} {tree later : Tree} {call : FileCall}
  {α : Type} {program : FileProgram α} {result : α}

theorem Leads.varies (others : ∀ place, owned place → touched place)
    (begins : tree.workingDirectory = home) (touches : call.Touches touched home)
    {reply : call.Reply} (led : Leads owned call reply tree later) : tree.Varies touched later := by
  rcases led with ⟨met, varies, replies⟩
  refine (varies.mono others).trans (replies.varies ?_)
  rw [varies.home, begins]
  exact touches

/-- A program changes what others change and what its own calls touch. -/
theorem varies_of_only (others : ∀ place, owned place → touched place)
    (begins : tree.workingDirectory = home) (only : program.Only (FileCall.Touches touched home))
    (ran : program.Runs (Leads owned) tree result later) : tree.Varies touched later := by
  have stable (call : FileCall) (reply : call.Reply) (state next : Tree)
      (touches : call.Touches touched home) (led : Leads owned call reply state next)
      (varies : tree.Varies touched state) : tree.Varies touched next :=
    varies.trans (led.varies others (varies.home.trans begins) touches)
  exact only.invariant stable ran (.refl touched tree)

end Tree

namespace FileSystem

/-! ## Making directories -/

theorem orDirectory_only (path : Path) (failure : IoFailure) :
    (do if ← (FileCall.isDirectory path).perform then return .ok () else return .error failure :
      FileProgram (Except IoFailure Unit)).Only (FileCall.isAboutDirectories ·) := by
  refine ⟨rfl, ?_⟩
  rintro (_ | _) <;> trivial

theorem ensureDirectory_only (path : Path) :
    (ensureDirectory path).Only (FileCall.isAboutDirectories ·) := by
  refine ⟨rfl, ?_⟩
  rintro (failure | _)
  · exact orDirectory_only path failure
  · trivial

theorem makeMissing_only (paths : List Path) :
    (makeMissing paths).Only (FileCall.isAboutDirectories ·) := by
  induction paths with
  | nil => trivial
  | cons path parents ih =>
      by_cases empty : path = ""
      · subst empty
        trivial
      · rw [makeMissing.eq_3 path parents empty]
        refine ⟨rfl, ?_⟩
        rintro (failure | _)
        · cases failure with
          | notFound =>
              apply Program.only_bind ih
              rintro (failure | _)
              · trivial
              · exact ensureDirectory_only path
          | _ => exact orDirectory_only path _
        · trivial

/-- Making the directory that a path lies in is about directories only. -/
theorem ensureParent_only (path : Path) :
    (ensureParent path).Only (FileCall.isAboutDirectories ·) := by
  rw [ensureParent]
  split
  · trivial
  · split
    · trivial
    · refine ⟨rfl, ?_⟩
      rintro (_ | _)
      · exact makeMissing_only _
      · trivial

/-! ## What the programs touch -/

section

variable {touched : Place → Prop} {home : Place}

theorem makeMissing_touches (paths : List Path) :
    (makeMissing paths).Only (FileCall.Touches touched home) :=
  (makeMissing_only paths).mono fun _ => FileCall.touches_of_isAboutDirectories

theorem ensureParent_touches (path : Path) :
    (ensureParent path).Only (FileCall.Touches touched home) :=
  (ensureParent_only path).mono fun _ => FileCall.touches_of_isAboutDirectories

variable {temporary path : Path}

theorem abandon_touches (here : touched (temporary.placeFrom home)) (failure : IoFailure) :
    (abandon temporary failure).Only (FileCall.Touches touched home) :=
  ⟨List.forall_mem_singleton.mpr here, fun _ => trivial⟩

theorem replaceBy_touches (here : touched (temporary.placeFrom home))
    (there : touched (path.placeFrom home)) (content : ByteArray) :
    (replaceBy temporary path content).Only (FileCall.Touches touched home) := by
  refine ⟨List.forall_mem_singleton.mpr here, ?_⟩
  rintro (failure | _)
  · exact abandon_touches here failure
  · refine ⟨List.forall_mem_singleton.mpr here, ?_⟩
    rintro (failure | _)
    · exact abandon_touches here failure
    · refine ⟨List.forall_mem_cons.mpr ⟨here, List.forall_mem_singleton.mpr there⟩, ?_⟩
      rintro (failure | _)
      · exact abandon_touches here failure
      · trivial

/-- Replacing a file touches it and a temporary file. -/
theorem replaceFile_touches {pid : Nat}
    (here : ∀ temporary, temporary? pid path = some temporary → touched (temporary.placeFrom home))
    (there : touched (path.placeFrom home)) (content : ByteArray) :
    (replaceFile pid path content).Only (FileCall.Touches touched home) := by
  refine Program.only_bind (ensureParent_touches path) ?_
  rintro (failure | _)
  · trivial
  · simp only
    split
    · trivial
    next temporary found => exact replaceBy_touches (here temporary found) there content

end

/-! ## Replacing -/

/-- Whether a place is one that others own or that of a path. -/
def OwnedOr (owned : Place → Prop) (home : Place) (path : Path) (place : Place) : Prop :=
  owned place ∨ place = path.placeFrom home

/-- How a replacement can go that touches certain places besides the one that the path
names: it fails, or the file holds the new content. -/
inductive Replaces (touched : Place → Prop) (path : Path) (content : ByteArray) (tree : Tree) :
    Except IoFailure Unit → Tree → Prop
  | failed (failure : IoFailure) {later : Tree} (varies : tree.Varies touched later) :
      Replaces touched path content tree (.error failure) later
  | replaced {later : Tree}
      (varies : tree.Varies (OwnedOr touched tree.workingDirectory path) later)
      (reads : later.read path = .ok content) :
      Replaces touched path content tree (.ok ()) later

section

variable {owned : Place → Prop} {home : Place} {tree later : Tree} {temporary path : Path}
  {content : ByteArray} {outcome : Except IoFailure Unit}

/-- Giving up a replacement fails as the replacement has. -/
theorem runs_abandon {failure : IoFailure} (begins : tree.workingDirectory = home)
    (ran : (abandon temporary failure).Runs (Tree.Leads owned) tree outcome later) :
    outcome = .error failure ∧ tree.Varies (OwnedOr owned home temporary) later := by
  refine ⟨?_, Tree.varies_of_only (fun _ => .inl) begins (abandon_touches (.inr rfl) failure) ran⟩
  obtain ⟨_, _, -, rfl, -⟩ := ran
  rfl

/-- A content that has been written is there. -/
theorem content?_of_write (led : Tree.Leads owned (.write temporary content) (.ok ()) tree later) :
    later.content? (temporary.placeFrom tree.workingDirectory) = some content := by
  rcases led with ⟨met, varies, replies⟩
  rcases replies.served_or_refused with ⟨said, rfl⟩ | ⟨failure, said, -⟩
  · cases changed : met.change temporary fun _ => content with
    | error failure => simp [Tree.serve, Tree.settle, changed] at said
    | ok later =>
        rcases Tree.change_eq_ok changed with ⟨place, found, writable, rfl⟩
        rcases Tree.writable_place writable with ⟨rfl, proper, -⟩
        simp only [Tree.serve, changed, Tree.settle]
        rw [← varies.home, Tree.content?_eq_some_iff, Tree.node?_put _ proper, if_pos rfl]
  · cases said

/-- A file that has been moved is there, with its content. -/
theorem read_of_rename (unowned : ¬owned (temporary.placeFrom tree.workingDirectory))
    (written : tree.content? (temporary.placeFrom tree.workingDirectory) = some content)
    (led : Tree.Leads owned (.rename temporary path) (.ok ()) tree later) :
    later.read path = .ok content := by
  rcases led with ⟨met, varies, replies⟩
  rcases replies.served_or_refused with ⟨said, rfl⟩ | ⟨failure, said, -⟩
  · cases renamed : met.rename temporary path with
    | error failure => simp [Tree.serve, Tree.settle, renamed] at said
    | ok later =>
        simp only [Tree.serve, renamed, Tree.settle]
        have varies' := @Tree.Varies.rename (fun _ => True) _ _ _ _ renamed trivial trivial
        rcases Tree.rename_eq_ok renamed with
          ⟨place, content', stored, -, proper, file, reaches, rfl⟩
        have same : content' = content := by
          rw [varies.home, ← Tree.content?_eq_some_iff, varies.content _ unowned, written] at stored
          exact (Option.some.inj stored).symm
        refine Tree.read_eq_ok_iff.mpr ⟨place, varies'.reaches reaches, ?_⟩
        rw [Tree.node?_put _ proper, if_pos rfl, same]
  · cases said

/-- A file that could not be moved is where it was, and so is the one in its place. -/
theorem varies_of_failed_rename {failure : IoFailure}
    (led : Tree.Leads owned (.rename temporary path) (.error failure) tree later) :
    tree.Varies owned later := by
  rcases led with ⟨met, varies, replies⟩
  rcases replies.served_or_refused with ⟨said, rfl⟩ | ⟨_, -, unchanged⟩
  · cases renamed : met.rename temporary path with
    | error failure =>
        simp only [Tree.serve, renamed, Tree.settle]
        exact varies
    | ok later => simp [Tree.serve, Tree.settle, renamed] at said
  · rw [unchanged rfl]
    exact varies

/-- A replacement by way of a temporary file that nobody else touches. -/
theorem replaceBy_replaces (begins : tree.workingDirectory = home)
    (unowned : ¬owned (temporary.placeFrom home))
    (ran : (replaceBy temporary path content).Runs (Tree.Leads owned) tree outcome later) :
    Replaces (OwnedOr owned home temporary) path content tree outcome later := by
  have owned' (place : Place) : owned place → OwnedOr owned home temporary place := .inl
  have here : OwnedOr owned home temporary (temporary.placeFrom home) := .inr rfl
  have abandoned {failure : IoFailure} {reached : Tree}
      (varies : tree.Varies (OwnedOr owned home temporary) reached)
      (ran : (abandon temporary failure).Runs (Tree.Leads owned) reached outcome later) :
      Replaces (OwnedOr owned home temporary) path content tree outcome later := by
    rcases runs_abandon (varies.home.trans begins) ran with ⟨rfl, varies'⟩
    exact .failed failure (varies.trans varies')
  have creates : (FileCall.create temporary).Touches (OwnedOr owned home temporary) home :=
    List.forall_mem_singleton.mpr here
  have writes : (FileCall.write temporary content).Touches (OwnedOr owned home temporary) home :=
    List.forall_mem_singleton.mpr here
  obtain ⟨created, tree₁, led₁, ran⟩ := ran
  have varies₁ := led₁.varies owned' begins creates
  rcases created with failure | _
  · exact abandoned varies₁ ran
  · obtain ⟨written, tree₂, led₂, ran⟩ := ran
    have begins₁ := varies₁.home.trans begins
    have varies₂ := varies₁.trans (led₂.varies owned' begins₁ writes)
    rcases written with failure | _
    · exact abandoned varies₂ ran
    · obtain ⟨moved, tree₃, led₃, ran⟩ := ran
      have begins₂ := varies₂.home.trans begins
      rcases moved with failure | _
      · exact abandoned (varies₂.trans ((varies_of_failed_rename led₃).mono owned')) ran
      · obtain ⟨rfl, rfl⟩ := ran
        have content := content?_of_write led₂
        rw [begins₁, ← begins₂] at content
        rw [← begins₂] at unowned
        refine .replaced ?_ (read_of_rename unowned content led₃)
        refine (varies₂.mono fun _ => .inl).trans (led₃.varies (fun _ => .inl ∘ .inl) begins₂ ?_)
        exact List.forall_mem_cons.mpr
          ⟨.inl here, List.forall_mem_singleton.mpr (.inr (by rw [begins]))⟩

variable {touched touched' : Place → Prop} {pid : Nat}

theorem Replaces.mono (wider : ∀ place, touched place → touched' place)
    (replaces : Replaces touched path content tree outcome later) :
    Replaces touched' path content tree outcome later := by
  cases replaces with
  | failed failure varies => exact .failed failure (varies.mono wider)
  | replaced varies reads =>
      exact .replaced (varies.mono fun place => Or.imp_left (wider place)) reads

/-- What was there before a replacement does not matter. -/
theorem Replaces.after {earlier : Tree} (varies : earlier.Varies touched tree)
    (replaces : Replaces touched path content tree outcome later) :
    Replaces touched path content earlier outcome later := by
  cases replaces with
  | failed failure varies' => exact .failed failure (varies.trans varies')
  | replaced varies' reads =>
      rw [varies.home] at varies'
      exact .replaced ((varies.mono fun _ => .inl).trans varies') reads

/-- Whether a place is one that others own or that of the temporary file of a process for
a path. -/
def OwnedOrTemporary (owned : Place → Prop) (home : Place) (pid : Nat) (path : Path)
    (place : Place) : Prop :=
  owned place ∨ ∃ temporary, temporary? pid path = some temporary ∧
    place = temporary.placeFrom home

/-- Replacing a file fails, or the file holds the new content; besides that only the
temporary file is touched. -/
theorem replaceFile_replaces (begins : tree.workingDirectory = home)
    (unowned : ∀ temporary, temporary? pid path = some temporary →
      ¬owned (temporary.placeFrom home))
    (ran : (replaceFile pid path content).Runs (Tree.Leads owned) tree outcome later) :
    Replaces (OwnedOrTemporary owned home pid path) path content tree outcome later := by
  have owned' (place : Place) : owned place → OwnedOrTemporary owned home pid path place := .inl
  rcases Program.runs_bind.mp ran with ⟨ensured, reached, first, rest⟩
  have varies := Tree.varies_of_only owned' begins (ensureParent_touches path) first
  rcases ensured with failure | _
  · obtain ⟨rfl, rfl⟩ := rest
    exact .failed failure varies
  · simp only at rest
    split at rest
    · obtain ⟨rfl, rfl⟩ := rest
      exact .failed _ varies
    next temporary found =>
      have replaces := replaceBy_replaces (varies.home.trans begins) (unowned temporary found) rest
      refine (replaces.mono ?_).after varies
      rintro place (others | rfl)
      · exact .inl others
      · exact .inr ⟨temporary, found, rfl⟩

end

end FileSystem

/-! ## Calls to a database -/

namespace Database

variable {home : Place} {directory : Path} {pid : Pid} {tree later : Tree} {call : StoreCall}

theorem load_touches (touched : Place → Prop) :
    (load directory).Only (FileCall.Touches touched home) := by
  have reads : (readText (keyspacePath directory)).Only (FileCall.Touches touched home) := by
    rw [readText, FileCall.perform, Program.perform_bind]
    refine ⟨List.forall_mem_nil _, ?_⟩
    rintro (failure | content)
    · trivial
    · simp only
      split <;> trivial
  refine Program.only_bind reads ?_
  rintro (failure | text)
  · cases failure <;> trivial
  · simp only
    split
    · trivial
    · split <;> trivial

theorem persist_touches (keyspace : Keyspace) :
    (persist pid directory keyspace).Only (FileCall.Touches (Owns home directory) home) := by
  rw [persist]
  refine Program.only_bind (replaceFile_touches (fun _ found => .temporary found) .keyspace _) ?_
  rintro (failure | _) <;> trivial

/-- A call to a database touches its own files only. -/
theorem serve_touches (pid : Pid) (directory : Path) (now : Instant) (call : StoreCall) :
    (serve pid directory now call).Only (FileCall.Touches (Owns home directory) home) := by
  have transacts : (transact pid directory now call).Only
      (FileCall.Touches (Owns home directory) home) := by
    refine Program.only_bind (load_touches _) ?_
    rintro (failure | keyspace)
    · trivial
    · simp only
      split
      · refine Program.only_bind (persist_touches (keyspace.serve now call).2) ?_
        rintro (failure | _) <;> trivial
      · trivial
  refine ⟨List.forall_mem_singleton.mpr .guard, ?_⟩
  rintro (failure | _)
  · trivial
  · refine ⟨List.forall_mem_nil _, ?_⟩
    rintro (failure | _)
    · trivial
    · apply Program.only_bind transacts
      exact fun reply => ⟨List.forall_mem_nil _, fun _ => trivial⟩

/-- So what others do by calls to the database varies the tree at the places of its own
files, whatever fails. -/
theorem varies_of_serve {now : Instant} {reply : call.Reply} (begins : tree.workingDirectory = home)
    (ran : (serve pid directory now call).Runs (Tree.Leads (Owns home directory)) tree reply later) :
    tree.Varies (Owns home directory) later :=
  Tree.varies_of_only (fun _ => id) begins (serve_touches pid directory now call) ran

end Database

end Leasehold
