import Leasehold.Prompt
import Leasehold.Proofs.Lock.Spelling

/-!
# What a question takes from its terminal and leaves there

A question is settled by the first line that is not unclear, or by the end of the input
if there is no such line. It is put once for every line that was read for it, an unclear
line is told to be invalid, and nothing behind the line that settles the question is
read. A text that cannot be written and a line that is no text are failures, whatever
the rest of the input says.
-/

namespace Leasehold

/-! ## The words of lines -/

namespace Answer

/-- What is left of a line without the blanks at its ends and without capitals. -/
def word (text : String) : String :=
  String.ofList ((Text.trim text.toList).map Char.toLower)

/-- The text of a line, if it is text. -/
def text? (line : List UInt8) : Option String :=
  String.fromUTF8? ⟨line.toArray⟩

/-- That a line is a text that says neither yes nor no. -/
def isUnclear (line : List UInt8) : Bool :=
  (text? line).any fun text => word text ∉ ["y", "yes", "n", "no", ""]

variable {text : String} {line : List UInt8}

theorem ofLine_eq_yes_iff : ofLine text = .yes ↔ word text ∈ ["y", "yes"] := by
  rw [ofLine, ← word]
  split
  · simp_all
  · split <;> simp_all

theorem ofLine_eq_unclear_iff :
    ofLine text = .unclear ↔ word text ∉ ["y", "yes", "n", "no", ""] := by
  rw [ofLine, ← word]
  split
  · simp; grind
  · split <;> simp <;> grind

theorem isUnclear_of_text? (read : text? line = some text) :
    isUnclear line = decide (ofLine text = .unclear) := by
  rw [isUnclear, read, Option.any_some]
  exact decide_eq_decide.mpr ofLine_eq_unclear_iff.symm

theorem isUnclear_eq_false (unread : text? line = none) : isUnclear line = false := by
  rw [isUnclear, unread, Option.any_none]

/-- A line has a solid word if it is that word between blanks, in capitals or not. -/
theorem word_eq_iff {letters : List Char} (solid : ∀ c : Char, c.toLower ∈ letters →
    Text.isBlank c = false) :
    word text = String.ofList letters ↔
      ∃ before middle after, text.toList = before ++ middle ++ after ∧
        (∀ c ∈ before, Text.isBlank c) ∧ (∀ c ∈ after, Text.isBlank c) ∧
        middle.map Char.toLower = letters := by
  rw [word, String.ofList_inj]
  constructor
  · intro same
    rcases Text.exists_trim text.toList with ⟨before, after, blank, blank', split⟩
    exact ⟨before, _, after, split, blank, blank', same⟩
  · rintro ⟨before, middle, after, split, blank, blank', rfl⟩
    have solid' : ∀ c ∈ middle, Text.isBlank c = false :=
      fun c member => solid c (List.mem_map_of_mem member)
    rw [split, Text.trim_append blank blank' solid']

end Answer

namespace Terminal

/-! ## Lines -/

/-- The lines of an input, each with the line feed that it ends with; the last one may
lack it. -/
def lines : List UInt8 → List (List UInt8)
  | [] => []
  | byte :: bytes =>
    if byte = 10 then [byte] :: lines bytes
    else match lines bytes with
      | [] => [[byte]]
      | line :: lines => (byte :: line) :: lines

theorem flatten_lines (bytes : List UInt8) : (lines bytes).flatten = bytes := by
  induction bytes with
  | nil => rfl
  | cons byte bytes ih =>
      rw [lines]
      split
      · rw [List.flatten_cons, ih]
        rfl
      · split
        next none => rw [← ih, none]; rfl
        next some => rw [← ih, some]; rfl

/-- The first line is the one that is read, the others are those of the rest. -/
theorem lines_eq_cons {bytes : List UInt8} (nonempty : bytes ≠ []) :
    lines bytes = (takeLine bytes).1 :: lines (takeLine bytes).2 := by
  induction bytes with
  | nil => contradiction
  | cons byte bytes ih =>
      rw [lines, takeLine]
      split
      · rfl
      · cases bytes with
        | nil => rfl
        | cons next bytes => rw [ih (List.cons_ne_nil _ _)]

/-! ## Texts that fit -/

variable {terminal : Terminal} {question : String}

/-- A terminal after a text was written to it. -/
def written (terminal : Terminal) (text : String) : Terminal :=
  { terminal with output := terminal.output ++ text }

/-- That texts can be written to a terminal, one after the other. -/
def Takes : Terminal → List String → Prop
  | _, [] => True
  | terminal, text :: texts => (terminal.put text).1 = .ok () ∧ (terminal.put text).2.Takes texts

theorem put_of_hasRoom {text : String} (room : terminal.hasRoom text) :
    terminal.put text = (.ok (), terminal.written text) :=
  if_pos room

theorem put_of_full {text : String} (full : ¬ terminal.hasRoom text) :
    terminal.put text = (.error .sinkFull, terminal) :=
  if_neg full

theorem hasRoom_append_iff {first second : String} :
    terminal.hasRoom (first ++ second) ↔
      terminal.hasRoom first ∧ (terminal.written first).hasRoom second := by
  by_cases empty : first = "" <;> by_cases empty' : second = "" <;> cases h : terminal.capacity <;>
    simp_all [hasRoom, written]
  omega

/-- Texts can be written one after the other if there is room for all of them together. -/
theorem takes_iff {texts : List String} :
    terminal.Takes texts ↔ terminal.hasRoom (String.join texts) := by
  induction texts generalizing terminal with
  | nil => simp [Takes, hasRoom]
  | cons text texts ih =>
      rw [String.join_cons, hasRoom_append_iff, Takes]
      by_cases room : terminal.hasRoom text
      · simp [put_of_hasRoom room, ih, room]
      · simp [put_of_full room, room]

/-! ## Posing a question -/

/-- What is written when a question is put. -/
def posed (question : String) : String :=
  question ++ Answer.hint

theorem written_written (first second : String) :
    (terminal.written first).written second = terminal.written (first ++ second) := by
  rw [written, written, written, String.append_assoc]

theorem pose_of_hasRoom (room : terminal.hasRoom (posed question)) :
    terminal.pose question = (.ok (), terminal.written (posed question)) := by
  rcases hasRoom_append_iff.mp room with ⟨first, second⟩
  rw [pose, put_of_hasRoom first]
  exact (put_of_hasRoom second).trans (by rw [written_written, posed])

theorem pose_of_full (full : ¬ terminal.hasRoom (posed question)) :
    (terminal.pose question).1 = .error .sinkFull := by
  rw [pose]
  by_cases first : terminal.hasRoom question
  · have second : ¬ (terminal.written question).hasRoom Answer.hint :=
      fun second => full (hasRoom_append_iff.mpr ⟨first, second⟩)
    rw [put_of_hasRoom first]
    simp [put_of_full second]
  · rw [put_of_full first]

theorem ask_of_some {outcome : Except Failure Bool} {spent : Terminal}
    (once : terminal.askOnce question = (some outcome, spent)) :
    terminal.ask question = (outcome, spent) := by
  rw [ask]
  split
  next settled => cases settled.symm.trans once; rfl
  next unsettled => cases unsettled.symm.trans once

theorem ask_of_none {spent : Terminal} (once : terminal.askOnce question = (none, spent)) :
    terminal.ask question = spent.ask question := by
  rw [ask]
  split
  next settled => cases settled.symm.trans once
  next unsettled => cases unsettled.symm.trans once; rfl

/-- A question that cannot be put is not answered. -/
theorem ask_of_full (full : ¬ terminal.hasRoom (posed question)) :
    (terminal.ask question).1 = unread .sinkFull := by
  cases asked : terminal.pose question with
  | mk put spent =>
      have failed : put = .error .sinkFull :=
        (congrArg Prod.fst asked).symm.trans (pose_of_full full)
      subst failed
      have once : terminal.askOnce question = (some (unread .sinkFull), spent) := by
        rw [askOnce, asked]
      rw [ask_of_some once]

section

variable (room : terminal.hasRoom (posed question))
include room

theorem askOnce_at_end (ended : terminal.input = []) :
    terminal.askOnce question =
      if (terminal.written (posed question)).hasRoom "\n" then
        (some (.ok false), terminal.written (posed question ++ "\n"))
      else (some (unread .sinkFull), terminal.written (posed question)) := by
  have ended' : (terminal.written (posed question)).input = [] := ended
  rw [askOnce, pose_of_hasRoom room]
  simp only [ended', if_true]
  by_cases fits : (terminal.written (posed question)).hasRoom "\n"
  · simp only [put_of_hasRoom fits, fits, if_true, written_written]
  · simp only [put_of_full fits, fits, if_false, Bool.false_eq_true]

theorem askOnce_of_ne_nil (nonempty : terminal.input ≠ []) :
    terminal.askOnce question = (terminal.written (posed question)).hear := by
  rw [askOnce, pose_of_hasRoom room]
  exact if_neg nonempty

end

/-! ## Settling a question -/

/-- The lines that leave a question open. -/
def openLines (input : List UInt8) : List (List UInt8) :=
  (lines input).takeWhile Answer.isUnclear

/-- The line that settles a question, if there is one. -/
def settling? (input : List UInt8) : Option (List UInt8) :=
  (lines input)[(openLines input).length]?

/-- What a settled question leaves of the input. -/
def unheard (input : List UInt8) : List UInt8 :=
  ((lines input).drop ((openLines input).length + 1)).flatten

/-- The texts that are written for a question, in turn. -/
def script (question : String) (input : List UInt8) : List String :=
  ((openLines input).flatMap fun _ => [question, Answer.hint, Answer.complaint]) ++
    question :: Answer.hint :: if settling? input = none then ["\n"] else []

/-- What a line, or the end of the input, makes of a question. -/
def verdict : Option (List UInt8) → Except Failure Bool
  | none => .ok false
  | some line =>
    match Answer.text? line with
    | none => unread .notUtf8
    | some text => .ok (Answer.word text ∈ ["y", "yes"])

/-- What is on a terminal's output when a question is settled. -/
def transcript (question : String) (input : List UInt8) : String :=
  String.join (script question input)

section

variable {input bytes line : List UInt8}

/-- An unclear line costs its question and its complaint; all else is as if the input
began behind it. -/
theorem settle_of_unclear (question : String) (split : lines input = line :: lines bytes)
    (unclear : Answer.isUnclear line) :
    settling? input = settling? bytes ∧ unheard input = unheard bytes ∧
      transcript question input =
        posed question ++ Answer.complaint ++ transcript question bytes := by
  have opened : openLines input = line :: openLines bytes := by
    rw [openLines, split, List.takeWhile_cons_of_pos unclear]
    rfl
  have settling : settling? input = settling? bytes := by
    rw [settling?, opened, split]
    rfl
  refine ⟨settling, by rw [unheard, opened, split]; rfl, ?_⟩
  rw [transcript, script, opened, settling, posed]
  simp [transcript, script, String.append_assoc]

/-- A line that is not unclear settles a question. -/
theorem settle_of_clear (question : String) (split : lines input = line :: lines bytes)
    (clear : Answer.isUnclear line = false) :
    settling? input = some line ∧ unheard input = bytes ∧
      transcript question input = posed question := by
  have opened : openLines input = [] := by
    rw [openLines, split, List.takeWhile_cons_of_neg (by simp [clear])]
  have settling : settling? input = some line := by
    rw [settling?, opened, split]
    rfl
  refine ⟨settling, ?_, ?_⟩
  · rw [unheard, opened, split]
    exact flatten_lines bytes
  · rw [transcript, script, opened, settling]
    simp [posed]

end

/-- The end of the input settles a question on a line of its own. -/
theorem settle_at_end (question : String) :
    settling? [] = none ∧ unheard [] = [] ∧ transcript question [] = posed question ++ "\n" := by
  refine ⟨rfl, rfl, ?_⟩
  simp [transcript, script, openLines, settling?, lines, posed, String.append_assoc]

/-! ## Hearing a line -/

theorem hear_of_clear (clear : Answer.isUnclear (takeLine terminal.input).1 = false) :
    terminal.hear = (some (verdict (some (takeLine terminal.input).1)), terminal.skipLine) := by
  rw [hear, verdict, Answer.text?]
  cases read : Answer.text? (takeLine terminal.input).1 with
  | none => rw [Answer.text?] at read; rw [read]
  | some text =>
      rw [Answer.isUnclear_of_text? read] at clear
      rw [Answer.text?] at read
      rw [read]
      cases said : Answer.ofLine text with
      | yes => simp [said, Answer.ofLine_eq_yes_iff.mp said]
      | no =>
          have denied : Answer.word text ∉ ["y", "yes"] :=
            fun word => by cases said.symm.trans (Answer.ofLine_eq_yes_iff.mpr word)
          simp [said, denied]
      | unclear => simp [said] at clear

theorem hear_of_unclear (unclear : Answer.isUnclear (takeLine terminal.input).1) :
    terminal.hear =
      if terminal.hasRoom Answer.complaint then
        (none, terminal.skipLine.written Answer.complaint)
      else (some (unread .sinkFull), terminal.skipLine) := by
  cases read : Answer.text? (takeLine terminal.input).1 with
  | none => exact absurd unclear (by simp [Answer.isUnclear_eq_false read])
  | some text =>
      have said : Answer.ofLine text = .unclear := by
        simpa [Answer.isUnclear_of_text? read] using unclear
      rw [Answer.text?] at read
      rw [hear, read]
      simp only [said]
      by_cases room : terminal.hasRoom Answer.complaint
      · have room' : terminal.skipLine.hasRoom Answer.complaint := room
        rw [if_pos room, put_of_hasRoom room']
      · have full : ¬ terminal.skipLine.hasRoom Answer.complaint := room
        rw [if_neg room, put_of_full full]

/-! ## Asking until a line settles the question -/

/-- A terminal on which a line was told to be invalid after a question. -/
def retried (terminal : Terminal) (question : String) : Terminal :=
  { terminal.written (posed question ++ Answer.complaint) with
    input := (takeLine terminal.input).2 }

theorem ask_of_clear (nonempty : terminal.input ≠ [])
    (clear : Answer.isUnclear (takeLine terminal.input).1 = false)
    (room : terminal.hasRoom (posed question)) :
    terminal.ask question =
      (verdict (some (takeLine terminal.input).1),
        (terminal.written (posed question)).skipLine) := by
  have clear' : Answer.isUnclear (takeLine (terminal.written (posed question)).input).1 = false :=
    clear
  exact ask_of_some ((askOnce_of_ne_nil room nonempty).trans (hear_of_clear clear'))

theorem askOnce_of_unclear (nonempty : terminal.input ≠ [])
    (unclear : Answer.isUnclear (takeLine terminal.input).1)
    (room : terminal.hasRoom (posed question)) :
    terminal.askOnce question =
      if (terminal.written (posed question)).hasRoom Answer.complaint then
        (none, terminal.retried question)
      else (some (unread .sinkFull), (terminal.written (posed question)).skipLine) := by
  have unclear' : Answer.isUnclear (takeLine (terminal.written (posed question)).input).1 :=
    unclear
  rw [askOnce_of_ne_nil room nonempty, hear_of_unclear unclear', retried, ← written_written]
  rfl

/-- A question whose texts all fit is settled by the first line that is not unclear. -/
theorem ask_of_hasRoom (terminal : Terminal) (question : String)
    (room : terminal.hasRoom (transcript question terminal.input)) :
    terminal.ask question =
      (verdict (settling? terminal.input),
        { terminal.written (transcript question terminal.input) with
          input := unheard terminal.input }) := by
  by_cases ended : terminal.input = []
  · rcases settle_at_end question with ⟨settling, unheard, transcript⟩
    rw [ended, transcript] at room
    rcases hasRoom_append_iff.mp room with ⟨first, second⟩
    have once := askOnce_at_end first ended
    rw [if_pos second] at once
    rw [ask_of_some once, ended, settling, unheard, transcript, ← ended]
    rfl
  · have split := lines_eq_cons ended
    cases unclear : Answer.isUnclear (takeLine terminal.input).1 with
    | false =>
        rcases settle_of_clear question split unclear with
          ⟨settling, unheard, transcript⟩
        rw [transcript] at room ⊢
        rw [ask_of_clear ended unclear room, settling, unheard]
        rfl
    | true =>
        rcases settle_of_unclear question split unclear with
          ⟨settling, unheard, transcript⟩
        rw [transcript] at room ⊢
        rcases hasRoom_append_iff.mp room with ⟨first, rest⟩
        rcases hasRoom_append_iff.mp first with ⟨posed, complained⟩
        have once := askOnce_of_unclear ended unclear posed
        rw [if_pos complained] at once
        have again := ask_of_hasRoom (terminal.retried question) question rest
        rw [ask_of_none once, again, settling, unheard, ← written_written]
        rfl
  termination_by terminal.input.length
  decreasing_by exact length_takeLine_lt ended

/-- A question whose texts do not all fit is not answered. -/
theorem ask_of_not_hasRoom (terminal : Terminal) (question : String)
    (full : ¬ terminal.hasRoom (transcript question terminal.input)) :
    (terminal.ask question).1 = unread .sinkFull := by
  by_cases room : terminal.hasRoom (posed question)
  · by_cases ended : terminal.input = []
    · rw [ended, (settle_at_end question).2.2, hasRoom_append_iff] at full
      have once := askOnce_at_end room ended
      rw [if_neg fun second => full ⟨room, second⟩] at once
      rw [ask_of_some once]
    · have split := lines_eq_cons ended
      cases unclear : Answer.isUnclear (takeLine terminal.input).1 with
      | false =>
          rw [(settle_of_clear question split unclear).2.2] at full
          exact absurd room full
      | true =>
          rw [(settle_of_unclear question split unclear).2.2, hasRoom_append_iff,
            hasRoom_append_iff] at full
          have once := askOnce_of_unclear ended unclear room
          by_cases complained : (terminal.written (posed question)).hasRoom Answer.complaint
          · rw [if_pos complained] at once
            rw [ask_of_none once]
            exact ask_of_not_hasRoom (terminal.retried question) question
              fun rest => full ⟨⟨room, complained⟩, rest⟩
          · rw [if_neg complained] at once
            rw [ask_of_some once]
  · exact ask_of_full room
  termination_by terminal.input.length
  decreasing_by exact length_takeLine_lt ended

theorem verdict_eq_true_iff {line : Option (List UInt8)} :
    verdict line = .ok true ↔
      ∃ bytes text, line = some bytes ∧ Answer.text? bytes = some text ∧
        Answer.word text ∈ ["y", "yes"] := by
  cases line with
  | none => simp [verdict]
  | some bytes => cases read : Answer.text? bytes <;> simp [verdict, read, unread]

theorem verdict_eq_user_iff {line : Option (List UInt8)} :
    (∃ problem, verdict line = .error (.user problem)) ↔
      ∃ bytes, line = some bytes ∧ Answer.text? bytes = none := by
  cases line with
  | none => simp [verdict]
  | some bytes => cases read : Answer.text? bytes <;> simp [verdict, read, unread]

theorem isUnclear_settling? {input line : List UInt8} (settling : settling? input = some line) :
    Answer.isUnclear line = false := by
  rw [settling?, openLines] at settling
  generalize lines input = lines at settling
  induction lines with
  | nil => cases settling
  | cons first lines ih =>
      cases unclear : Answer.isUnclear first with
      | false =>
          rw [List.takeWhile_cons_of_neg (by simp [unclear])] at settling
          exact Option.some.inj settling ▸ unclear
      | true =>
          rw [List.takeWhile_cons_of_pos unclear] at settling
          exact ih settling

/-- The settling line, unless it says yes or is no text, says no. -/
theorem verdict_settling?_eq_false_iff {input : List UInt8} :
    verdict (settling? input) = .ok false ↔
      settling? input = none ∨
        ∃ bytes text, settling? input = some bytes ∧ Answer.text? bytes = some text ∧
          Answer.word text ∈ ["n", "no", ""] := by
  cases settling : settling? input with
  | none => simp [verdict]
  | some bytes =>
      have clear := isUnclear_settling? settling
      cases read : Answer.text? bytes with
      | none => simp [verdict, read, unread]
      | some text =>
          rw [Answer.isUnclear, read, Option.any_some, decide_eq_false_iff_not,
            Decidable.not_not] at clear
          simp only [List.mem_cons, List.not_mem_nil, or_false] at clear
          simp only [verdict, read, Except.ok.injEq, decide_eq_false_iff_not]
          rcases clear with said | said | said | said | said <;> simp [said, read]

/-- A question is answered yes if all its texts fit and the settling line says yes, and
no if they fit and that line says no or the input ends before it; it fails if a text does
not fit or the settling line is no text. If the texts fit, they and nothing else are
written, and the lines up to the settling one and nothing else are read. -/
theorem ask_settles (terminal : Terminal) (question : String) :
    ((terminal.ask question).1 = .ok true ↔
      terminal.Takes (script question terminal.input) ∧
        ∃ line text, settling? terminal.input = some line ∧ Answer.text? line = some text ∧
          Answer.word text ∈ ["y", "yes"]) ∧
    ((terminal.ask question).1 = .ok false ↔
      terminal.Takes (script question terminal.input) ∧
        (settling? terminal.input = none ∨
          ∃ line text, settling? terminal.input = some line ∧ Answer.text? line = some text ∧
            Answer.word text ∈ ["n", "no", ""])) ∧
    ((∃ problem, (terminal.ask question).1 = .error (.user problem)) ↔
      ¬ terminal.Takes (script question terminal.input) ∨
        ∃ line, settling? terminal.input = some line ∧ Answer.text? line = none) ∧
    (terminal.Takes (script question terminal.input) →
      (terminal.ask question).2.output =
        terminal.output ++ String.join (script question terminal.input) ∧
      ((lines terminal.input).take ((openLines terminal.input).length + 1)).flatten ++
        (terminal.ask question).2.input = terminal.input) := by
  rw [takes_iff]
  by_cases room : terminal.hasRoom (transcript question terminal.input)
  · have fits : terminal.hasRoom (String.join (script question terminal.input)) := room
    rw [ask_of_hasRoom terminal question room]
    refine ⟨?_, ?_, ?_, fun _ => ⟨rfl, ?_⟩⟩
    · rw [verdict_eq_true_iff, and_iff_right fits]
    · rw [verdict_settling?_eq_false_iff, and_iff_right fits]
    · rw [verdict_eq_user_iff, not_iff_false_intro fits, false_or]
    · exact (List.flatten_append.symm.trans (congrArg _ (List.take_append_drop _ _))).trans
        (flatten_lines _)
  · have full : ¬ terminal.hasRoom (String.join (script question terminal.input)) := room
    rw [ask_of_not_hasRoom terminal question room]
    simp [unread, full]

/-- What is typed on a terminal: an unclear line that ends in a carriage return and a line
feed, a yes in capitals between blanks, and the beginning of a third line. -/
def typed : Terminal :=
  ofInput "maybe\r\n YES \nrest".toUTF8

theorem ask_settles_typed :
    (typed.ask "Go on?").1 = .ok true ∧
      (typed.ask "Go on?").2.output = "Go on? [y/N]: Error: invalid input\nGo on? [y/N]: " ∧
      "maybe\r\n YES \n".toUTF8.toList ++ (typed.ask "Go on?").2.input = typed.input := by
  have fits : typed.Takes (script "Go on?" typed.input) :=
    takes_iff.mpr (by simp [hasRoom, typed, ofInput])
  have settles := ask_settles typed "Go on?"
  have settling : settling? typed.input = some " YES \n".toUTF8.toList := by decide +kernel
  have text : Answer.text? " YES \n".toUTF8.toList = some " YES \n" := by decide +kernel
  have read : ((lines typed.input).take ((openLines typed.input).length + 1)).flatten =
      "maybe\r\n YES \n".toUTF8.toList := by decide +kernel
  refine ⟨settles.1.mpr ⟨fits, _, _, settling, text, by decide +kernel⟩, ?_, ?_⟩
  · exact (settles.2.2.2 fits).1.trans (by decide +kernel)
  · exact read ▸ (settles.2.2.2 fits).2

end Terminal

end Leasehold
