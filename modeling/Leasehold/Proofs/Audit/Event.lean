import Leasehold.Audit.Event
import Leasehold.Proofs.Json.Line
import Leasehold.Proofs.Json.Meaning
import Leasehold.Proofs.Keyspace.Codec

/-!
# Events read back from their lines

An event is written on one line, whatever text is in it, and read back from there with all
that it says.
-/

namespace Leasehold

open Json

/-- That an event can be written: its time can, and its details are a value in which all
numbers are whole ones, and which, within the event, nests no deeper than what the reader
puts up with. -/
structure AuditEvent.IsProper (event : AuditEvent) : Prop where
  time : event.time.IsProper
  whole : event.details.IsWhole
  details : event.details.IsProper
  shallow : event.toJson.nesting ≤ depthLimit

namespace AuditEvent

variable {event : AuditEvent}

theorem pidOfRaw?_raw (pid : Pid) : pidOfRaw? (ofNat pid.toNat).raw = some pid := by
  have bound := pid.toNat_lt
  have proper : (Number.integer pid.toNat).IsProper := by
    have last : Number.greatest = 18446744073709551615 := by decide
    simp only [Number.IsProper, last]
    omega
  have whole : (Number.integer pid.toNat).IsWhole := trivial
  have number : (ofNat pid.toNat).raw.natural? = some pid.toNat := by
    simp [ofNat, raw, Raw.natural?, Number.ofLiteral?_literal whole proper]
  simp [pidOfRaw?, number, UInt32.size, bound]

theorem IsProper.isWhole_toJson (proper : event.IsProper) : event.toJson.IsWhole :=
  ⟨trivial, trivial, trivial, trivial, proper.whole, trivial⟩

theorem IsProper.nesting_details (proper : event.IsProper) :
    event.details.nesting ≤ depthLimit - 1 := by
  have shallow := proper.shallow
  simp only [toJson, nesting, nestingOfMembers] at shallow
  omega

/-- What the tree of an event says. -/
theorem read?_of_raw (proper : event.IsProper) {text : String}
    (tree : Raw.read? text.toList = some event.toJson.raw) : read? text = some event := by
  have time := Instant.ofRaw?_toJson proper.time
  have action : AuditAction.ofRaw? (raw (.text event.action.text)) = some event.action := by
    simp [AuditAction.ofRaw?, raw]
  have details := ofRaw?_raw event.details (depthLimit - 1) proper.whole proper.details
    proper.nesting_details
  simp [read?, tree, toJson, fields?_raw_object, Raw.valuesOf, time, action, pidOfRaw?_raw, details]

/-- The characters of the line of an event. -/
theorem toList_line (event : AuditEvent) : event.line.toList = writeLine event.toJson :=
  String.toList_ofList

/-- An event is read back from its line, whatever blanks stand before it. -/
theorem read?_blanks_line (proper : event.IsProper) {blanks : List Char}
    (blank : ∀ c ∈ blanks, Reading.isSpace c) :
    read? (String.ofList (blanks ++ event.line.toList)) = some event := by
  refine read?_of_raw proper ?_
  rw [String.toList_ofList, toList_line]
  exact read?_writeLine proper.isWhole_toJson blank

theorem read?_line (proper : event.IsProper) : read? event.line = some event := by
  have read := read?_blanks_line proper (List.forall_mem_nil _)
  rwa [List.nil_append, String.ofList_toList] at read

theorem brace_mem_line (event : AuditEvent) : '{' ∈ event.line.toList := by
  rw [toList_line]
  exact List.mem_cons_self

/-- A line is not blank, whatever stands before it. -/
theorem not_blank_line (front : List Char) (event : AuditEvent) :
    ¬(front ++ event.line.toList).all Text.isBlank := fun blank =>
  absurd (List.all_eq_true.mp blank '{' (List.mem_append_right _ event.brace_mem_line)) (by decide)

/-- A line has no line breaks. -/
theorem notMem_line (proper : event.IsProper) {c : Char} (control : c.toNat < 0x20) :
    c ∉ event.line.toList := by
  intro member
  rw [toList_line] at member
  have printable := printable_writeLine event.toJson proper.isWhole_toJson c member
  omega

/-- That an event is written on one line, which is not blank, and read back from there. -/
structure HasLine (event : AuditEvent) : Prop where
  unbroken : '\n' ∉ event.line.toList ∧ '\r' ∉ event.line.toList
  visible : ¬Text.isAllBlank event.line
  read : read? event.line = some event

theorem IsProper.hasLine (proper : event.IsProper) : event.HasLine := by
  refine ⟨⟨notMem_line proper (by decide), notMem_line proper (by decide)⟩, ?_, read?_line proper⟩
  rw [Text.isAllBlank, ← List.nil_append event.line.toList]
  exact not_blank_line [] event

end AuditEvent

end Leasehold
