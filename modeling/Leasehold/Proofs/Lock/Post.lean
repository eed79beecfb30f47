import Leasehold.Proofs.Lock.Duty
import Leasehold.Proofs.Sharing.Commons

/-!
# Claimants on duty

A post is a claimant that does one duty after the other and keeps the reports of those
that are through. A duty under way stops at every store call, so what several posts do on
one store interleaves call by call.
-/

namespace Leasehold

/-- A duty with what it gave. -/
abbrev Duty.Report : Type :=
  (duty : Duty) × duty.Outcome

/-- The program of a duty with its report. -/
def Duty.perform (c : Claimant) (duty : Duty) : LockProgram (Report × Claimant) := do
  let (outcome, c) ← duty.program c
  return (⟨duty, outcome⟩, c)

/-- A duty is performed as its program says. -/
theorem Duty.perform_ended (c : Claimant) (base : History) (duty : Duty) :
    (duty.perform c).Keeps (LockProgram.calls (StoreCall.Concerns c.key c.pid c.ttl))
      (fun result later => ∃ outcome, result.1 = ⟨duty, outcome⟩ ∧
        duty.Ended c base (outcome, result.2) later) base := by
  apply Program.keeps_bind.mpr
  apply (LockProgram.keeps_of_allows (fun _ makes => makes.concerns)
    (duty.program_ended c base)).mono
  rintro ⟨outcome, c'⟩ later ended
  exact ⟨outcome, rfl, ended⟩

/-- A claimant, what is left of the duty that it is in, if it is in one, and the reports so
far, the last one first. -/
structure Post where
  claimant : Claimant
  work? : Option (Procedure (Duty.Report × Claimant))
  reports : List Duty.Report

namespace Post

/-- A claimant that has had no duty yet. -/
def fresh (c : Claimant) : Post :=
  ⟨c, none, []⟩

/-- What a claimant does between store calls: it starts a duty, goes on with it, or reports
that it is through. -/
inductive Turn where
  | start (duty : Duty)
  | act (turn : Procedure.Turn)
  | report

instance : Party Post Turn where
  pending? post := do
    let rest ← post.work?
    let ⟨call, next⟩ ← rest.pending?
    return ⟨call, fun reply => { post with work? := some (next reply) }⟩
  turn?
    | .start duty, ⟨c, none, reports⟩ =>
      some ⟨c, some (Procedure.ofLock (duty.perform c)), reports⟩
    | .act turn, ⟨c, some rest, reports⟩ =>
      (rest.turn? turn).map fun rest => ⟨c, some rest, reports⟩
    | .report, ⟨_, some (.done (report, c)), reports⟩ => some ⟨c, none, report :: reports⟩
    | _, _ => none

variable {post post' : Post}

theorem pending?_eq_some_iff {call : StoreCall} {next : call.Reply → Post} :
    Party.pending? post = some ⟨call, next⟩ ↔
      ∃ rest go, post.work? = some rest ∧ rest.pending? = some ⟨call, go⟩ ∧
        next = fun reply => { post with work? := some (go reply) } := by
  simp only [Party.pending?, Option.bind_eq_bind, Option.bind_eq_some_iff, Sigma.exists,
    Option.pure_def, Option.some.injEq]
  constructor
  · rintro ⟨rest, working, _, go, pending, same⟩
    cases same
    exact ⟨rest, go, working, pending, rfl⟩
  · rintro ⟨rest, go, working, pending, rfl⟩
    exact ⟨rest, working, call, go, pending, rfl⟩

/-- The three kinds of turns. -/
theorem turn?_cases {turn : Turn} (turned : Party.turn? turn post = some post') :
    (∃ duty, turn = .start duty ∧ post.work? = none ∧
      post' = { post with work? := some (Procedure.ofLock (duty.perform post.claimant)) }) ∨
    (∃ act rest rest', turn = .act act ∧ post.work? = some rest ∧ rest.turn? act = some rest' ∧
      post' = { post with work? := some rest' }) ∨
    (∃ report c, turn = .report ∧ post.work? = some (.done (report, c)) ∧
      post' = ⟨c, none, report :: post.reports⟩) := by
  rcases post with ⟨c, work?, reports⟩
  cases turn with
  | start duty =>
      rcases work? with _ | rest
      · cases turned
        exact .inl ⟨duty, rfl, rfl, rfl⟩
      · contradiction
  | act act =>
      rcases work? with _ | rest
      · contradiction
      · rcases Option.map_eq_some_iff.mp turned with ⟨rest', acted, rfl⟩
        exact .inr (.inl ⟨act, rest, rest', rfl, rfl, acted, rfl⟩)
  | report =>
      rcases work? with _ | ⟨report, c'⟩ | ⟨request, next⟩
      · contradiction
      · cases turned
        exact .inr (.inr ⟨report, c', rfl, rfl, rfl⟩)
      · contradiction

end Post

end Leasehold
