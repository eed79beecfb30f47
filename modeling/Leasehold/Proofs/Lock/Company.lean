import Leasehold.Proofs.Lock.Fortune

/-!
# Operations in company

An operation on the lock is rarely alone: before each of its calls others may do to the
store what they like, and the clock goes on or is set. What others do is a function of all
that has happened so far, so a statement about every such function is one about every
interference. Where no call fails, an operation learns only what its calls find, and what
each call finds and leaves is said here.
-/

namespace Leasehold

open LockRecord

/-! ## What a call finds and leaves -/

namespace Visit

variable (visit : Visit) (key : String)

/-- The live record under a key that a call finds. -/
def found? : Option Entry :=
  visit.met.live? key visit.time

/-- The record under a key that a call leaves. -/
def leaves? : Option Entry :=
  visit.left.entries.get? key

/-- The owner that the live record under a key names when it is found. -/
def owner? : Option Pid :=
  (visit.found? key).bind fun entry => ownerOf? entry.fields

/-- That a call leaves the live record under a key just as it finds it. -/
def IsIdle : Prop :=
  visit.leaves? key = visit.found? key

end Visit

/-- That a call is among some visits, and that what it meets and leaves is as said. -/
def Visited (visits : List Visit) (call : StoreCall) (meets : Visit → Prop) : Prop :=
  ∃ visit ∈ visits, visit.call = call ∧ meets visit

@[simp]
theorem visited_nil {call : StoreCall} {meets : Visit → Prop} : ¬Visited [] call meets := by
  simp [Visited]

@[simp]
theorem visited_cons {visit : Visit} {visits : List Visit} {call : StoreCall}
    {meets : Visit → Prop} :
    Visited (visit :: visits) call meets ↔
      visit.call = call ∧ meets visit ∨ Visited visits call meets := by
  simp [Visited]

namespace Visit

variable {visit : Visit} {key : String} {time : Instant} {ttl : Duration} {condition : Condition}

/-- A creation that succeeds finds no live record and leaves the new one. -/
theorem created_of_made {fields : Fields}
    (made : visit.made = ⟨.create key fields ttl, .ok true, time⟩) :
    visit.call = .create key fields ttl ∧ visit.found? key = none ∧
      visit.leaves? key = some ⟨fields, some (visit.time.add ttl)⟩ := by
  obtain ⟨met, rfl, answered⟩ := served_of_made made
  have free : met.live? key time = none := by simpa using answered.symm
  exact ⟨rfl, free, by simp [leaves?, left, free]⟩

/-- A creation that is refused finds a live record and leaves it. -/
theorem refused_of_made {fields : Fields}
    (made : visit.made = ⟨.create key fields ttl, .ok false, time⟩) :
    visit.call = .create key fields ttl ∧ (∃ entry, visit.found? key = some entry) ∧
      visit.IsIdle key := by
  obtain ⟨met, rfl, answered⟩ := served_of_made made
  cases live : met.live? key time with
  | none => simp [live] at answered
  | some entry =>
      exact ⟨rfl, ⟨entry, live⟩, by simp [IsIdle, leaves?, found?, left, live]⟩

/-- A call that only looks leaves the live record. -/
theorem isIdle_of_spares (unfailing : visit.fault? = none) (spares : visit.call.Spares key) :
    visit.IsIdle key := by
  rcases visit with ⟨met, time, call, _⟩
  obtain rfl := unfailing
  exact Keyspace.get?_serve_of_spares spares met time

/-- What a look learns is the owner that the live record names. -/
theorem looked_of_made {fields : Option Fields}
    (made : visit.made = ⟨.fetch key, .ok fields, time⟩) :
    visit.call = .fetch key ∧ visit.owner? key = fields.bind ownerOf? ∧
      (fields = none ↔ visit.found? key = none) ∧ visit.IsIdle key := by
  obtain ⟨met, rfl, answered⟩ := served_of_made made
  rw [Keyspace.serve_fetch_answer] at answered
  subst answered
  refine ⟨rfl, ?_, by simp [found?], isIdle_of_spares rfl trivial⟩
  cases found : met.live? key time <;> simp [owner?, found?, found]

/-- A lifetime that is told ends exactly where the live record has an expiry. -/
theorem inquired_of_made {lifetime : Lifetime}
    (made : visit.made = ⟨.lifetime key, .ok lifetime, time⟩) :
    visit.call = .lifetime key ∧
      (lifetime.hasExpiry = false ↔ ∀ entry ∈ visit.found? key, entry.expiresAt = none) ∧
      visit.IsIdle key := by
  obtain ⟨met, rfl, answered⟩ := served_of_made made
  refine ⟨rfl, ?_, isIdle_of_spares rfl trivial⟩
  have met? := Keyspace.get?_purge met key time
  simp only [found?, answered, Keyspace.serve, Keyspace.apply, Keyspace.lifetime, met?]
  rcases met.live? key time with _ | ⟨fields, _ | expiry⟩ <;> simp [Lifetime.hasExpiry]

/-- An expiry that is set is set on a live record of which the condition holds. -/
theorem extended_of_made (made : visit.made = ⟨.expire key ttl condition, .ok true, time⟩) :
    visit.call = .expire key ttl condition ∧
      ∃ entry, visit.found? key = some entry ∧ condition.holds entry = true ∧
        visit.leaves? key = some { entry with expiresAt := some (visit.time.add ttl) } := by
  obtain ⟨met, rfl, answered⟩ := served_of_made made
  rw [Keyspace.serve_expire_answer] at answered
  rcases (Option.any_eq_true _ _).mp answered.symm with ⟨entry, live, holds⟩
  exact ⟨rfl, entry, live, holds, by simp [leaves?, left, live, holds]⟩

/-- An expiry that is not set finds no live record of which the condition holds. -/
theorem unextended_of_made (made : visit.made = ⟨.expire key ttl condition, .ok false, time⟩) :
    visit.call = .expire key ttl condition ∧
      (∀ entry ∈ visit.found? key, condition.holds entry = false) ∧ visit.IsIdle key := by
  obtain ⟨met, rfl, answered⟩ := served_of_made made
  rw [Keyspace.serve_expire_answer] at answered
  have fails : ∀ entry ∈ met.live? key time, condition.holds entry = false := by
    intro entry live
    rw [live, Option.any_some] at answered
    exact answered.symm
  refine ⟨rfl, fails, ?_⟩
  cases live : met.live? key time with
  | none => simp [IsIdle, leaves?, found?, left, live]
  | some entry => simp [IsIdle, leaves?, found?, left, live, fails entry live]

/-! ## Visits of a history -/

variable {visits : List Visit} {first second third : MadeCall}

/-- Two calls that were made are those of two visits. -/
theorem exists_two (history : visits.map made = [second, first]) :
    ∃ earlier later, visits = [later, earlier] ∧ earlier.made = first ∧ later.made = second := by
  obtain ⟨later, rest, rfl, last, history⟩ := List.map_eq_cons_iff.mp history
  obtain ⟨earlier, rfl, start⟩ := List.map_eq_singleton_iff.mp history
  exact ⟨earlier, later, rfl, start, last⟩

/-- Three calls that were made are those of three visits. -/
theorem exists_three (history : visits.map made = [third, second, first]) :
    ∃ earliest middle latest, visits = [latest, middle, earliest] ∧ earliest.made = first ∧
      middle.made = second ∧ latest.made = third := by
  obtain ⟨latest, rest, rfl, last, history⟩ := List.map_eq_cons_iff.mp history
  obtain ⟨earliest, middle, rfl, start, next⟩ := exists_two history
  exact ⟨earliest, middle, latest, rfl, start, next, last⟩

end Visit

/-! ## Runs in company -/

/-- What others do before a call, given the calls so far, the last one first, and the store
as it was left: how they leave the store, and what time it is by then. -/
abbrev Company : Type :=
  List Visit → Keyspace → Keyspace × Instant

/-- Company is a fortune that lets no call fail. -/
def Company.fortune (others : Company) : Fortune :=
  fun visits keyspace =>
    let (met, time) := others visits keyspace
    ⟨met, time, none⟩

namespace LockProgram

variable {α β : Type}

/-- Answers a request after others have done what they do. No call fails. -/
def amid (others : Company) :
    (request : LockRequest) → Keyspace × List Visit → request.Reply × (Keyspace × List Visit)
  | .store call, (keyspace, visits) =>
    let (met, time) := others visits keyspace
    let visit : Visit := ⟨met, time, call, none⟩
    (visit.reply, visit.left, visit :: visits)
  | .log _, state => ((), state)

/-- Runs a program in company on a store: its result, and its calls, the last one first. -/
def runAmid (others : Company) (program : LockProgram α) (keyspace : Keyspace) : α × List Visit :=
  let (result, _, visits) := program.run (amid others) (keyspace, [])
  (result, visits)

theorem amid_eq_answer (others : Company) : amid others = others.fortune.answer := by
  funext request state
  cases request <;> rfl

/-- What a contract says of a program holds of its run in any company, and no call fails. -/
theorem ends_runAmid {allows : StoreCall → Prop} {ends : α → History → Prop}
    {program : LockProgram α} (kept : program.Keeps (calls allows) ends []) (others : Company)
    (keyspace : Keyspace) :
    let ran := program.runAmid others keyspace
    ends ran.1 (ran.2.map Visit.made) ∧ ∀ visit ∈ ran.2, visit.fault? = none := by
  obtain ⟨ended, brings⟩ := ends_under others.fortune (keyspace, []) kept
  rw [runAmid, amid_eq_answer]
  exact ⟨ended, brings.unfailing fun _ _ => rfl⟩

end LockProgram

end Leasehold
