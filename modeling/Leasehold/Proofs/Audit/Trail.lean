import Leasehold.Audit.Trail
import Leasehold.Proofs.Audit.Event
import Leasehold.Proofs.Database.Content
import Leasehold.Proofs.Text.Split

/-!
# Adding to the audit trail

An event that is added to a trail is the last one in it, if the last line of the trail is
ended or has nothing but blanks. Otherwise the event goes on with that line, and the trail
cannot be read any more. A trail that was only ever added to has the events that were added,
in their order.
-/

namespace Leasehold

open Json

namespace AuditTrail

/-! ## The events of a text -/

/-- The events of lines, blank ones aside. -/
def eventsIn? (lines : List (List Char)) : Option (List AuditEvent) :=
  (lines.filter fun line => !line.all Text.isBlank).mapM fun line =>
    AuditEvent.read? (String.ofList line)

theorem eventsIn?_append (lines others : List (List Char)) :
    eventsIn? (lines ++ others) =
      (eventsIn? lines).bind fun events => (eventsIn? others).map (events ++ ·) := by
  simp only [Option.map_eq_bind]
  rw [eventsIn?, List.filter_append, List.mapM_append]
  rfl

theorem eventsIn?_singleton (line : List Char) :
    eventsIn? [line] = if line.all Text.isBlank then some []
      else (AuditEvent.read? (String.ofList line)).map ([·]) := by
  by_cases blank : line.all Text.isBlank
  · simp [eventsIn?, blank]
  · simp [eventsIn?, blank]
    cases AuditEvent.read? (String.ofList line) <;> rfl

theorem eventsOf?_eq (text : String) :
    eventsOf? text = (eventsIn? (Text.endedLines text.toList)).bind fun events =>
      (eventsIn? [Text.unended text.toList]).map (events ++ ·) := by
  change eventsIn? (Text.lines text.toList) = _
  rw [Text.lines_eq, eventsIn?_append]
  by_cases empty : (Text.unended text.toList).isEmpty
  · rw [if_pos empty, List.isEmpty_iff.mp empty]
    rfl
  · rw [if_neg empty]

/-- What an event makes of the line that it goes on with. -/
theorem read?_unended {event : AuditEvent} (proper : event.IsProper) {line : List Char}
    {events : List AuditEvent} (readable : eventsIn? [line] = some events) :
    AuditEvent.read? (String.ofList (line ++ event.line.toList)) =
      if line.all Reading.isSpace then some event else none := by
  by_cases spaces : line.all Reading.isSpace
  · rw [if_pos spaces]
    exact AuditEvent.read?_blanks_line proper (List.all_eq_true.mp spaces)
  · rw [if_neg spaces]
    have refused : Raw.read? (line ++ event.line.toList) = none := by
      by_cases blank : line.all Text.isBlank
      · exact read?_append_of_isBlank blank spaces _
      · rw [eventsIn?_singleton, if_neg blank, Option.map_eq_some_iff] at readable
        rcases readable with ⟨found, read, -⟩
        rcases Option.bind_eq_some_iff.mp read with ⟨raw, tree, -⟩
        rw [String.toList_ofList] at tree
        rw [AuditEvent.toList_line]
        exact read?_append_writeLine tree proper.isWhole_toJson (delimited_mark rfl _)
    rw [AuditEvent.read?, String.toList_ofList, refused]
    rfl

/-- An event that is added to a text is the last one in it, if what no line feed ends are
spaces only, and otherwise the text cannot be read any more. -/
theorem eventsOf?_append {text : String} {events : List AuditEvent}
    (readable : eventsOf? text = some events) {event : AuditEvent} (proper : event.IsProper) :
    eventsOf? (text ++ (event.line ++ "\n")) =
      if (Text.unended text.toList).all Reading.isSpace then some (events ++ [event])
      else none := by
  rw [eventsOf?_eq] at readable
  rcases Option.bind_eq_some_iff.mp readable with ⟨first, ended, rest⟩
  rcases Option.map_eq_some_iff.mp rest with ⟨last, unended, rfl⟩
  have chars : (text ++ (event.line ++ "\n")).toList =
      text.toList ++ (event.line.toList ++ ['\n']) := by simp
  have lines := Text.lines_append_line (AuditEvent.notMem_line proper (by decide)) text.toList
  have nonempty := List.ne_nil_of_mem event.brace_mem_line
  have noReturn : '\r' ∉ event.line.toList := AuditEvent.notMem_line proper (by decide)
  change eventsIn? (Text.lines (text ++ (event.line ++ "\n")).toList) = _
  rw [chars, lines, Text.dropReturn_append nonempty noReturn, eventsIn?_append, ended,
    Option.bind_some, eventsIn?_singleton, if_neg (AuditEvent.not_blank_line _ event),
    read?_unended proper unended]
  by_cases spaces : (Text.unended text.toList).all Reading.isSpace
  · have blank : (Text.unended text.toList).all Text.isBlank :=
      List.all_eq_true.mpr fun c member =>
        Reading.isBlank_of_isSpace (List.all_eq_true.mp spaces c member)
    rw [eventsIn?_singleton, if_pos blank] at unended
    cases unended
    simp [spaces]
  · simp [spaces]

/-! ## The file of a trail -/

section

variable {touched : Place → Prop} {place : Place} {home : Path} {tree later : Tree}
  {event : AuditEvent} {text : String}

theorem prepare_touches (home : Path) : (prepare home).Only (FileCall.Touches touched place) := by
  refine ⟨List.forall_mem_nil _, ?_⟩
  rintro (_ | _)
  · apply Program.only_bind (FileSystem.makeMissing_touches _)
    rintro (failure | _) <;> trivial
  · trivial

/-- Adding an event touches the file of the trail only. -/
theorem append_touches (event : AuditEvent) (here : touched ((path home).placeFrom place)) :
    (append home event).Only (FileCall.Touches touched place) := by
  apply Program.only_bind (prepare_touches home)
  rintro (failure | _)
  · trivial
  · refine ⟨List.forall_mem_singleton.mpr here, ?_⟩
    rintro (failure | _)
    · trivial
    · refine ⟨List.forall_mem_singleton.mpr here, ?_⟩
      rintro (failure | _) <;> trivial

/-- The text of a trail, which is empty if there is no file. -/
def text? (home : Path) (tree : Tree) : Option String :=
  (tree.content? ((path home).placeFrom tree.workingDirectory)).elim (some "") String.fromUTF8?

theorem text?_of_read (held : tree.read (path home) = .ok text.toUTF8) :
    text? home tree = some text := by
  rw [text?, Tree.content?_of_read held, Option.elim_some, fromUTF8?_toUTF8]

/-- The line of an event that was added is at the end of what the trail held. -/
theorem read_of_append (appended : (append home event).Runs Tree.Answers tree (.ok ()) later) :
    later.read (path home) =
      .ok ((tree.content? ((path home).placeFrom tree.workingDirectory)).getD .empty ++
        (event.line ++ "\n").toUTF8) := by
  rcases Program.runs_bind.mp appended with ⟨prepared, tree₁, preparing, rest⟩
  have preparing : (prepare home).Runs (Tree.Leads fun _ => False) tree prepared tree₁ :=
    preparing.mono fun _ _ _ _ => Tree.Answers.leads
  have varies := Tree.varies_of_only (fun _ => id) rfl (prepare_touches home) preparing
  rcases prepared with failure | _
  · exact absurd rest.1 nofun
  obtain ⟨opened, tree₂, opening, rest⟩ := rest
  rcases opened with failure | _
  · exact absurd rest.1 nofun
  obtain ⟨added, tree₃, adding, rest⟩ := rest
  rcases added with failure | _
  · exact absurd rest.1 nofun
  obtain ⟨-, rfl⟩ := rest
  have first := Tree.content?_of_read (Tree.read_of_change opening.replies.opened)
  have last := Tree.read_of_change adding.replies.appended
  rw [first, Option.getD_some, varies.home, varies.content _ id] at last
  exact last

/-- What was added to the text of a trail is at the end of it. -/
theorem text?_of_append (appended : (append home event).Runs Tree.Answers tree (.ok ()) later)
    (held : text? home tree = some text) :
    later.read (path home) = .ok (text ++ (event.line ++ "\n")).toUTF8 ∧
      text? home later = some (text ++ (event.line ++ "\n")) := by
  have before : (tree.content? ((path home).placeFrom tree.workingDirectory)).getD .empty =
      text.toUTF8 := by
    cases found : tree.content? ((path home).placeFrom tree.workingDirectory) with
    | none =>
        rw [text?, found] at held
        cases held
        rfl
    | some content =>
        rw [text?, found] at held
        exact (toUTF8_of_fromUTF8? held).symm
  have joined : (text ++ (event.line ++ "\n")).toUTF8 =
      text.toUTF8 ++ (event.line ++ "\n").toUTF8 := String.toByteArray_append
  have last := read_of_append appended
  rw [before, ← joined] at last
  exact ⟨last, text?_of_read last⟩

/-- What is read of a trail with some text. -/
theorem run_read (held : tree.read (path home) = .ok text.toUTF8) : tree.run (read home) =
    ((eventsOf? text).elim (.error (.user .auditMalformed)) .ok, tree) := by
  rw [AuditTrail.read, Tree.run_bind, FileSystem.run_readText, held]
  simp only [FileSystem.textOf, fromUTF8?_toUTF8]
  cases eventsOf? text <;> rfl

/-- An event that is added is the last one of a trail that could be read, if spaces at most
follow the last line feed of the trail. Otherwise the trail cannot be read any more. -/
theorem read_after_append {events : List AuditEvent} (held : text? home tree = some text)
    (readable : eventsOf? text = some events) (proper : event.IsProper)
    (appended : (append home event).Runs Tree.Answers tree (.ok ()) later) :
    later.run (read home) =
      (if (Text.unended text.toList).all Reading.isSpace then .ok (events ++ [event])
        else .error (.user .auditMalformed), later) := by
  rw [run_read (text?_of_append appended held).1, eventsOf?_append readable proper]
  split <;> rfl

end

/-- An event without details. -/
def plainEvent (action : AuditAction) : AuditEvent :=
  ⟨default, action, "user@host", 7, .object []⟩

theorem isProper_plainEvent (action : AuditAction) : (plainEvent action).IsProper := by
  have inside : ¬Duration.nanosPerSecond ≤ 0 := by decide
  refine ⟨fun leap => absurd leap inside, trivial, ⟨.nil, trivial⟩, ?_⟩
  cases action <;> decide

/-- A trail of one event, whose line feed has not been written. -/
def cutShort : Tree :=
  ⟨[], [(["events.ndjson", "events", "db"], .file (plainEvent .save).line.toUTF8),
    (["events", "db"], .directory), (["db"], .directory)]⟩

theorem read_cutShort : cutShort.read (path "db") = .ok (plainEvent .save).line.toUTF8 := by
  decide +kernel

/-- The event of a line is read, whether a line feed ends it or not. -/
theorem eventsOf?_line {event : AuditEvent} (proper : event.IsProper) :
    eventsOf? event.line = some [event] := by
  have unbroken : '\n' ∉ event.line.toList := AuditEvent.notMem_line proper (by decide)
  have visible := AuditEvent.not_blank_line [] event
  rw [List.nil_append] at visible
  rw [eventsOf?_eq, Text.endedLines_of_notMem unbroken, Text.unended_of_notMem unbroken,
    eventsIn?_singleton, if_neg visible, String.ofList_toList, AuditEvent.read?_line proper]
  rfl

/-- Adding an event to the trail succeeds. -/
theorem append_cutShort :
    (append "db" (plainEvent .load)).Runs Tree.Answers cutShort (.ok ())
      (cutShort.run (append "db" (plainEvent .load))).2 := by
  have ran := cutShort.runs_run (append "db" (plainEvent .load))
  have done : (cutShort.run (append "db" (plainEvent .load))).1 = .ok () := by
    decide +kernel
  rwa [done] at ran

/-- Its last line has not been ended, and is not blank. -/
theorem not_ended_cutShort :
    ¬(Text.unended (plainEvent .save).line.toList).all Reading.isSpace := by
  have unbroken : '\n' ∉ (plainEvent .save).line.toList :=
    AuditEvent.notMem_line (isProper_plainEvent .save) (by decide)
  rw [Text.unended_of_notMem unbroken]
  exact fun spaces => absurd
    (List.all_eq_true.mp spaces '{' (AuditEvent.brace_mem_line _)) (by decide)

/-- After that it cannot be read. -/
theorem read_after_append_cutShort :
    ∃ later, (append "db" (plainEvent .load)).Runs Tree.Answers cutShort (.ok ()) later ∧
      later.run (read "db") = (.error (.user .auditMalformed), later) := by
  have read := read_after_append (text?_of_read read_cutShort)
    (eventsOf?_line (isProper_plainEvent .save)) (isProper_plainEvent .load) append_cutShort
  rw [if_neg not_ended_cutShort] at read
  exact ⟨_, append_cutShort, read⟩

/-- So it is not true that an event that is added to a trail that can be read is always the
last one in it. -/
theorem not_always_extended :
    ¬∀ (home : Path) (tree later : Tree) (event : AuditEvent) (events : List AuditEvent),
      tree.run (read home) = (.ok events, tree) → event.IsProper →
        (append home event).Runs Tree.Answers tree (.ok ()) later →
          later.run (read home) = (.ok (events ++ [event]), later) := by
  intro extended
  have readable := eventsOf?_line (isProper_plainEvent .save)
  have before : cutShort.run (read "db") = (.ok [plainEvent .save], cutShort) := by
    rw [run_read read_cutShort, readable]
    rfl
  have after := extended _ _ _ _ _ before (isProper_plainEvent .load) append_cutShort
  rw [run_read (text?_of_append append_cutShort (text?_of_read read_cutShort)).1,
    eventsOf?_append readable (isProper_plainEvent .load), if_neg not_ended_cutShort] at after
  cases congrArg Prod.fst after

/-! ## One event after another -/

/-- Adds events to the trail, the first one first. -/
def appendAll (home : Path) : List AuditEvent → FileProgram (Except Failure Unit)
  | [] => return .ok ()
  | event :: events => do
    match ← append home event with
    | .error failure => return .error failure
    | .ok () => appendAll home events

/-- That a trail has certain events, and that a line feed ends the last one. -/
structure Holds (home : Path) (tree : Tree) (events : List AuditEvent) : Prop where
  ended : ∃ text, text? home tree = some text ∧ eventsOf? text = some events ∧
    Text.unended text.toList = []
  reads : tree.run (read home) = (.ok events, tree)

/-- That there is no trail yet. -/
structure Absent (home : Path) (tree : Tree) : Prop where
  unread : tree.read (path home) = .error .notFound
  vacant : tree.content? ((path home).placeFrom tree.workingDirectory) = none

section

variable {home : Path} {tree later : Tree} {event : AuditEvent} {events others : List AuditEvent}

/-- No file is no event. -/
theorem Absent.holds (absent : Absent home tree) : Holds home tree [] := by
  refine ⟨⟨"", ?_, rfl, rfl⟩, ?_⟩
  · rw [text?, absent.vacant, Option.elim_none]
  · rw [AuditTrail.read, Tree.run_bind, FileSystem.run_readText, absent.unread]
    rfl

/-- An event that is added is the last one. -/
theorem Holds.append (holds : Holds home tree events) (proper : event.IsProper)
    (appended : (append home event).Runs Tree.Answers tree (.ok ()) later) :
    Holds home later (events ++ [event]) := by
  rcases holds.ended with ⟨text, held, readable, ended⟩
  rcases text?_of_append appended held with ⟨read, held'⟩
  have readable' := eventsOf?_append readable proper
  rw [ended, List.all_nil, if_pos rfl] at readable'
  refine ⟨⟨_, held', readable', ?_⟩, ?_⟩
  · have chars : (text ++ (event.line ++ "\n")).toList =
        (text ++ event.line).toList ++ ['\n'] := by simp
    rw [chars, Text.unended_concat]
  · rw [run_read read, readable']
    rfl

/-- So are all that are added, in their order. -/
theorem Holds.appendAll (holds : Holds home tree events)
    (proper : ∀ event ∈ others, event.IsProper)
    (appended : (appendAll home others).Runs Tree.Answers tree (.ok ()) later) :
    Holds home later (events ++ others) := by
  induction others generalizing tree events with
  | nil =>
      obtain ⟨-, rfl⟩ := appended
      rwa [List.append_nil]
  | cons event others ih =>
      rw [List.forall_mem_cons] at proper
      rcases Program.runs_bind.mp appended with ⟨outcome, middle, first, rest⟩
      rcases outcome with failure | _
      · exact absurd rest.1 nofun
      · have all := ih (holds.append proper.1 first) proper.2 rest
        rwa [List.append_assoc] at all

end

/-- Every event is written on one line of its own and read back from there, and so are all
events that are added to a trail that is not there yet, in their order. -/
theorem events_read_back :
    (∀ event : AuditEvent, event.IsProper → event.HasLine) ∧
    ∀ (home : Path) (tree later : Tree) (events : List AuditEvent),
      (∀ event ∈ events, event.IsProper) → Absent home tree →
        (appendAll home events).Runs Tree.Answers tree (.ok ()) later →
          later.run (read home) = (.ok events, later) := by
  refine ⟨fun event => AuditEvent.IsProper.hasLine, ?_⟩
  intro home tree later events proper absent appended
  exact (absent.holds.appendAll proper appended).reads

/-- An event with line breaks in its text and its details. -/
def brokenEvent : AuditEvent :=
  ⟨{ second := -62198755200, nano := 1 }, .abort, "user\r\n", 4294967295,
    .object [("a\n", .array [.number (.integer (-9223372036854775808)), .text "\x0b\u2028"]),
      ("b|", .null)]⟩

theorem isProper_brokenEvent : brokenEvent.IsProper :=
  ⟨fun leap => absurd leap (by decide), ⟨⟨trivial, trivial, trivial⟩, trivial, trivial⟩,
    ⟨by decide, ⟨⟨by decide, by decide⟩, trivial, trivial⟩, trivial, trivial⟩, by decide⟩

/-- Two events are added to a trail in an empty tree. -/
theorem events_read_back_of_brokenEvent :
    brokenEvent.HasLine ∧
      ∃ later, (appendAll "db" [brokenEvent, plainEvent .load]).Runs Tree.Answers ⟨[], []⟩ (.ok ())
        later ∧ later.run (read "db") = (.ok [brokenEvent, plainEvent .load], later) := by
  rcases events_read_back with ⟨lines, trails⟩
  have appended := Tree.runs_run ⟨[], []⟩ (appendAll "db" [brokenEvent, plainEvent .load])
  have done : (Tree.run ⟨[], []⟩ (appendAll "db" [brokenEvent, plainEvent .load])).1 = .ok () := by
    decide +kernel
  rw [done] at appended
  have proper : ∀ event ∈ [brokenEvent, plainEvent .load], event.IsProper :=
    List.forall_mem_cons.mpr
      ⟨isProper_brokenEvent, List.forall_mem_singleton.mpr (isProper_plainEvent .load)⟩
  have absent : Absent "db" ⟨[], []⟩ := ⟨by decide +kernel, by decide +kernel⟩
  exact ⟨lines _ isProper_brokenEvent, _, appended, trails _ _ _ _ proper absent appended⟩

end AuditTrail

end Leasehold
