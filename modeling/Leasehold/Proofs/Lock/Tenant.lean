import Leasehold.Proofs.Lock.Fortune
import Leasehold.Proofs.Protected.Course

/-!
# Claimants with guards and heartbeats

The guards and heartbeats of a claimant all work on the same claimant, and each of them may
outlive what it was made for. A tenant is a claimant with all its guards and heartbeats, and
what it does is a list of deeds in any order.

A claimant that no longer has the lock does nothing more about it until it asks for it
anew: whatever its guards and heartbeats do, no call is made.
-/

namespace Leasehold

open LockRecord

/-- A claimant with the guards and the heartbeats that it has had, the oldest ones first. -/
structure Tenant where
  claimant : Claimant
  guards : List Guard
  heartbeats : List Heartbeat
  deriving DecidableEq, Repr

namespace Tenant

/-- What can be done with a claimant, one of its guards or one of its heartbeats. -/
inductive Deed where
  | acquire
  | renew
  | ensureHeld
  | release
  | guard
  | releaseGuard (n : Nat)
  | dropGuard (n : Nat)
  | start (interval : Duration)
  | beat (n : Nat)
  deriving DecidableEq, Repr

namespace Deed

/-- What a deed gives; where it takes a guard or a heartbeat, whether there is one. -/
@[reducible]
def Outcome : Deed → Type
  | acquire => Except Failure Unit
  | renew => Except Failure Renewal
  | ensureHeld => Except Failure Unit
  | release => Except Failure Bool
  | guard => Except Failure Unit
  | releaseGuard _ => Option (Except Failure Bool)
  | dropGuard _ => Bool
  | start _ => Except Failure Unit
  | beat _ => Bool

/-- Whether a deed asks for the lock. -/
def isRequest : Deed → Bool
  | acquire => true
  | guard => true
  | _ => false

end Deed

/-- A deed with what it gave. -/
abbrev Report : Type :=
  (deed : Deed) × deed.Outcome

/-- The guard at a place, unless what it stands for has been given up. -/
def pendingGuard? (tenant : Tenant) (n : Nat) : Option Guard :=
  tenant.guards[n]?.filter Guard.pending

/-- Does a deed. -/
def perform (tenant : Tenant) : (deed : Deed) → LockProgram (deed.Outcome × Tenant)
  | .acquire => do
    let (outcome, c) ← tenant.claimant.acquire
    return (outcome, { tenant with claimant := c })
  | .renew => do
    let (outcome, c) ← tenant.claimant.renew
    return (outcome, { tenant with claimant := c })
  | .ensureHeld => return (tenant.claimant.ensureHeld, tenant)
  | .release => do
    let (outcome, c) ← tenant.claimant.release
    return (outcome, { tenant with claimant := c })
  | .guard => do
    let (outcome, c) ← Guard.acquire tenant.claimant
    match outcome with
    | .ok guard =>
      return (.ok (), { tenant with claimant := c, guards := tenant.guards ++ [guard] })
    | .error failure => return (.error failure, { tenant with claimant := c })
  | .releaseGuard n =>
    match tenant.pendingGuard? n with
    | some guard => do
      let (outcome, guard, c) ← guard.release tenant.claimant
      return (some outcome, { tenant with claimant := c, guards := tenant.guards.set n guard })
    | none => return (none, tenant)
  | .dropGuard n =>
    match tenant.pendingGuard? n with
    | some guard => do
      let (guard, c) ← guard.drop tenant.claimant
      return (true, { tenant with claimant := c, guards := tenant.guards.set n guard })
    | none => return (false, tenant)
  | .start interval =>
    match Heartbeat.start? interval with
    | .ok heartbeat =>
      return (.ok (), { tenant with heartbeats := tenant.heartbeats ++ [heartbeat] })
    | .error failure => return (.error failure, tenant)
  | .beat n =>
    match tenant.heartbeats[n]? with
    | some heartbeat => do
      let (heartbeat, c) ← heartbeat.beat tenant.claimant
      return (true,
        { tenant with claimant := c, heartbeats := tenant.heartbeats.set n heartbeat })
    | none => return (false, tenant)

/-- Does deeds one after the other. -/
def performAll (tenant : Tenant) : List Deed → LockProgram (List Report × Tenant)
  | [] => return ([], tenant)
  | deed :: deeds => do
    let (outcome, tenant) ← tenant.perform deed
    let (reports, tenant) ← tenant.performAll deeds
    return (⟨deed, outcome⟩ :: reports, tenant)

/-- Deeds are done one after the other under the same fortune. -/
theorem run_performAll_cons (tenant : Tenant) (deed : Deed) (deeds : List Deed) (fortune : Fortune)
    (state : Keyspace × List Visit) :
    (tenant.performAll (deed :: deeds)).run fortune.answer state =
      let first := (tenant.perform deed).run fortune.answer state
      let rest := (first.1.2.performAll deeds).run fortune.answer first.2
      ((⟨deed, first.1.1⟩ :: rest.1.1, rest.1.2), rest.2) := by
  rw [performAll, Program.run_bind, Program.run_bind]
  rfl

end Tenant

/-! ## Without the lock -/

namespace Standing

/-- What renewals come to where the lock is not held. -/
def renewal : Standing → Renewal
  | heldByOther owner => .lost owner
  | _ => .notHeld

/-- The owner that is told of where the lock is not held. -/
def owner? : Standing → Option Pid
  | heldByOther owner => owner
  | _ => none

/-- What deeds tell where the lock is not held. -/
def Explains (standing : Standing) : Tenant.Report → Prop
  | ⟨.renew, outcome⟩ => outcome = .ok standing.renewal
  | ⟨.ensureHeld, outcome⟩ => outcome = .error (.lockLost standing.owner?)
  | ⟨.release, outcome⟩ => outcome = .ok false
  | ⟨.releaseGuard _, outcome⟩ => ∀ released ∈ outcome, released = .ok false
  | _ => True

end Standing

section

variable {c : Claimant} (unheld : c.standing ≠ .heldBySelf) (fortune : Fortune)
  (state : Keyspace × List Visit)
include unheld

theorem Claimant.renew_of_unheld : c.renew = pure (.ok c.standing.renewal, c) := by
  rw [renew]
  cases standing : c.standing with
  | heldBySelf => exact absurd standing unheld
  | free | stale | heldByOther => rfl

theorem Claimant.ensureHeld_of_unheld :
    c.ensureHeld = .error (.lockLost c.standing.owner?) := by
  rw [ensureHeld]
  cases standing : c.standing with
  | heldBySelf => exact absurd standing unheld
  | free | stale | heldByOther => rfl

theorem Claimant.run_release_of_unheld :
    c.release.run fortune.answer state = ((.ok false, c), state) := by
  rw [release, if_neg unheld]
  rfl

theorem Guard.run_release_of_unheld (guard : Guard) :
    (guard.release c).run fortune.answer state = ((.ok false, ⟨false⟩, c), state) := by
  rw [release, Program.run_bind, Claimant.run_release_of_unheld unheld]
  rfl

theorem Guard.run_drop_of_unheld (guard : Guard) :
    (guard.drop c).run fortune.answer state = ((⟨false⟩, c), state) := by
  rcases guard with ⟨_ | _⟩
  · rfl
  · rw [drop, if_pos rfl, Program.run_bind, Claimant.run_release_of_unheld unheld]
    rfl

omit unheld in
/-- How often a heartbeat will have beaten once it has found that the lock is not held. -/
def Heartbeat.most (heartbeat : Heartbeat) : Nat :=
  if heartbeat.running then heartbeat.beats + 1 else heartbeat.beats

theorem Heartbeat.run_beat_of_unheld (heartbeat : Heartbeat) :
    (heartbeat.beat c).run fortune.answer state = ((⟨false, heartbeat.most⟩, c), state) := by
  rcases heartbeat with ⟨_ | _, beats⟩
  · rfl
  · rw [beat, if_pos rfl, Claimant.renew_of_unheld unheld]
    cases c.standing <;> rfl

end

namespace Tenant

/-- How often a heartbeat has beaten; one that is still to be started has not. -/
def beats (tenant : Tenant) (n : Nat) : Nat :=
  (tenant.heartbeats[n]?.getD ⟨true, 0⟩).beats

/-- How often a heartbeat will have beaten once it has found that the lock is not held; one
that is still to be started will have beaten once. -/
def beatLimit (tenant : Tenant) (n : Nat) : Nat :=
  (tenant.heartbeats[n]?.getD ⟨true, 0⟩).most

variable {tenant : Tenant} (fortune : Fortune) (state : Keyspace × List Visit)

theorem beats_le_beatLimit (n : Nat) : tenant.beats n ≤ tenant.beatLimit n := by
  rw [beats, beatLimit, Heartbeat.most]
  split <;> omega

theorem beatLimit_le (n : Nat) : tenant.beatLimit n ≤ tenant.beats n + 1 := by
  rw [beats, beatLimit, Heartbeat.most]
  split <;> omega

theorem beatLimit_append (n : Nat) :
    beatLimit { tenant with heartbeats := tenant.heartbeats ++ [⟨true, 0⟩] } n =
      tenant.beatLimit n := by
  rw [beatLimit, beatLimit, List.getElem?_append]
  split
  next => rfl
  next beyond =>
    rw [List.getElem?_eq_none (Nat.not_lt.mp beyond)]
    cases n - tenant.heartbeats.length <;> rfl

theorem beatLimit_set {n : Nat} {heartbeat : Heartbeat}
    (present : tenant.heartbeats[n]? = some heartbeat) (m : Nat) :
    beatLimit { tenant with heartbeats := tenant.heartbeats.set n ⟨false, heartbeat.most⟩ } m =
      tenant.beatLimit m := by
  rw [beatLimit, beatLimit]
  by_cases same : n = m
  · subst same
    rw [List.getElem?_set_self (List.getElem?_eq_some_iff.mp present).1, present]
    rfl
  · rw [List.getElem?_set_ne same]

/-- Without the lock, a deed that does not ask for it makes no call, leaves the claimant as
it is, and tells how the lock was left. -/
theorem run_perform_of_unheld (unheld : tenant.claimant.standing ≠ .heldBySelf)
    {deed : Deed} (unasked : deed.isRequest = false) :
    let ran := (tenant.perform deed).run fortune.answer state
    ran.2 = state ∧ ran.1.2.claimant = tenant.claimant ∧
      tenant.claimant.standing.Explains ⟨deed, ran.1.1⟩ ∧
      ∀ n, ran.1.2.beatLimit n = tenant.beatLimit n := by
  cases deed with
  | acquire => contradiction
  | guard => contradiction
  | renew =>
      rw [perform, Claimant.renew_of_unheld unheld]
      exact ⟨rfl, rfl, rfl, fun _ => rfl⟩
  | ensureHeld => exact ⟨rfl, rfl, Claimant.ensureHeld_of_unheld unheld, fun _ => rfl⟩
  | release =>
      rw [perform, Program.run_bind, Claimant.run_release_of_unheld unheld]
      exact ⟨rfl, rfl, rfl, fun _ => rfl⟩
  | releaseGuard n =>
      rw [perform]
      split
      next guard _ =>
        rw [Program.run_bind, Guard.run_release_of_unheld unheld]
        exact ⟨rfl, rfl, by rintro _ ⟨⟩; rfl, fun _ => rfl⟩
      next => exact ⟨rfl, rfl, by rintro _ ⟨⟩, fun _ => rfl⟩
  | dropGuard n =>
      rw [perform]
      split
      next guard _ =>
        rw [Program.run_bind, Guard.run_drop_of_unheld unheld]
        exact ⟨rfl, rfl, trivial, fun _ => rfl⟩
      next => exact ⟨rfl, rfl, trivial, fun _ => rfl⟩
  | start interval =>
      rw [perform]
      split
      next heartbeat started =>
        rw [Heartbeat.start?] at started
        split at started
        · contradiction
        · cases started
          exact ⟨rfl, rfl, trivial, tenant.beatLimit_append⟩
      next => exact ⟨rfl, rfl, trivial, fun _ => rfl⟩
  | beat n =>
      rw [perform]
      split
      next heartbeat present =>
        rw [Program.run_bind, Heartbeat.run_beat_of_unheld unheld]
        exact ⟨rfl, rfl, trivial, tenant.beatLimit_set present⟩
      next => exact ⟨rfl, rfl, trivial, fun _ => rfl⟩

/-- So does any number of such deeds. -/
theorem run_performAll_of_unheld (unheld : tenant.claimant.standing ≠ .heldBySelf)
    {deeds : List Deed} (unasked : ∀ deed ∈ deeds, deed.isRequest = false) :
    let ran := (tenant.performAll deeds).run fortune.answer state
    ran.2 = state ∧ ran.1.2.claimant = tenant.claimant ∧ ran.1.1.map Sigma.fst = deeds ∧
      (∀ report ∈ ran.1.1, tenant.claimant.standing.Explains report) ∧
      ∀ n, ran.1.2.beatLimit n = tenant.beatLimit n := by
  induction deeds generalizing tenant with
  | nil => exact ⟨rfl, rfl, rfl, by rintro _ ⟨⟩, fun _ => rfl⟩
  | cons deed deeds ih =>
      rw [List.forall_mem_cons] at unasked
      obtain ⟨silent, same, explains, limit⟩ :=
        run_perform_of_unheld fortune state unheld unasked.1
      rw [run_performAll_cons]
      dsimp only
      rw [silent]
      obtain ⟨silent', same', deeds', explains', limit'⟩ := ih (same.symm ▸ unheld) unasked.2
      rw [same] at explains'
      exact ⟨silent', same'.trans same, congrArg _ deeds',
        List.forall_mem_cons.mpr ⟨explains, explains'⟩, fun n => (limit' n).trans (limit n)⟩

end Tenant

/-! ## Leaving -/

/-- How a claimant has come to be without the lock: it has released it, or it has found it
lost to an owner, as far as that could be told. -/
inductive Departure where
  | release
  | loss (owner : Option Pid)
  deriving DecidableEq, Repr

namespace Departure

/-- What the claimant knows of the lock from then on. -/
def standing : Departure → Standing
  | release => .free
  | loss owner => .heldByOther owner

/-- That a deed with what it gave is such a departure: a release that was not refused by the
store, or a renewal or a beat that has found the lock lost. -/
def IsBy : Departure → Tenant.Report → Prop
  | release, ⟨.release, outcome⟩ => ∃ gone, outcome = .ok gone
  | release, ⟨.releaseGuard _, outcome⟩ => ∃ gone, outcome = some (.ok gone)
  | release, ⟨.dropGuard _, outcome⟩ => outcome = true
  | loss owner, ⟨.renew, outcome⟩ => outcome = .ok (.lost owner)
  | loss _, ⟨.beat _, outcome⟩ => outcome = true
  | _, _ => False

end Departure

theorem Claimant.Released.held_or_free {c c' : Claimant} {base later : History}
    {outcome : Except Failure Bool} (released : c.Released base (outcome, c') later)
    (held : c.standing = .heldBySelf) :
    c'.standing = .heldBySelf ∨ c'.standing = .free ∧ ∃ gone, outcome = .ok gone := by
  cases released with
  | skipped without => exact .inl held
  | deleted _ gone _ => exact .inr ⟨rfl, gone, rfl⟩
  | failed => exact .inl held

namespace Tenant

variable {tenant : Tenant} (fortune : Fortune) (state : Keyspace × List Visit)

/-- A deed after which the claimant no longer takes the lock for its own is a departure. -/
theorem departure_of_run (held : tenant.claimant.standing = .heldBySelf) (deed : Deed) :
    let ran := (tenant.perform deed).run fortune.answer state
    ran.1.2.claimant.standing = .heldBySelf ∨
      ∃ departure : Departure, ran.1.2.claimant.standing = departure.standing ∧
        departure.IsBy ⟨deed, ran.1.1⟩ := by
  let c := tenant.claimant
  let base := state.2.map Visit.made
  cases deed with
  | acquire =>
      rw [perform, Claimant.acquire, if_pos held]
      exact .inl held
  | guard =>
      rw [perform, Guard.acquire, Claimant.acquire, if_pos held]
      exact .inl held
  | ensureHeld => exact .inl held
  | start interval =>
      rw [perform]
      split <;> exact .inl held
  | renew =>
      have ended := (LockProgram.ends_under fortune state (c.renew_renews base)).1
      rw [perform, Program.run_bind]
      rcases ended.held_or_lost held with ⟨still, -⟩ | ⟨owner, lost, told⟩
      · exact .inl still
      · exact .inr ⟨.loss owner, lost, told⟩
  | release =>
      have ended := (LockProgram.ends_under fortune state (c.release_yields base)).1
      rw [perform, Program.run_bind]
      rcases ended.held_or_free held with still | ⟨free, told⟩
      · exact .inl still
      · exact .inr ⟨.release, free, told⟩
  | releaseGuard n =>
      have ended := (LockProgram.ends_under fortune state (c.release_yields base)).1
      rw [perform]
      split
      · rw [Guard.release, Program.run_bind, Program.run_bind]
        rcases ended.held_or_free held with still | ⟨free, gone, told⟩
        · exact .inl still
        · exact .inr ⟨.release, free, gone, congrArg some told⟩
      · exact .inl held
  | dropGuard n =>
      rw [perform]
      split
      next guard pending =>
        have ended := (LockProgram.ends_under fortune state (guard.drop_yields c base)).1
        rw [Program.run_bind]
        rcases ended with ⟨-, same, -⟩ | ⟨outcome, released⟩
        · exact .inl ((congrArg Claimant.standing same).trans held)
        · rcases released.held_or_free held with still | ⟨free, -⟩
          · exact .inl still
          · exact .inr ⟨.release, free, rfl⟩
      next => exact .inl held
  | beat n =>
      rw [perform]
      split
      next heartbeat present =>
        have ended := (LockProgram.ends_under fortune state (heartbeat.beat_renews c base)).1
        rw [Program.run_bind]
        rcases ended with ⟨-, same, -⟩ | ⟨outcome, renewing⟩
        · exact .inl ((congrArg Claimant.standing same).trans held)
        · rcases renewing.held_or_lost held with ⟨still, -⟩ | ⟨owner, lost, -⟩
          · exact .inl still
          · exact .inr ⟨.loss owner, lost, rfl⟩
      next => exact .inl held

/-- Once a claimant no longer takes the lock for its own, because it has released it or has
found it lost, nothing that is done with it, its guards and its heartbeats makes a call or
changes what it knows, until it asks for the lock anew. It tells the same of the lock every
time, and each heartbeat beats once more at most. -/
theorem inert_after_departure (held : tenant.claimant.standing = .heldBySelf) {deed : Deed}
    (left : ((tenant.perform deed).run fortune.answer state).1.2.claimant.standing ≠ .heldBySelf) :
    let ran := (tenant.perform deed).run fortune.answer state
    ∃ departure : Departure, ran.1.2.claimant.standing = departure.standing ∧
      departure.IsBy ⟨deed, ran.1.1⟩ ∧
      ∀ (fortune' : Fortune) (state' : Keyspace × List Visit) (deeds : List Deed),
        (∀ deed ∈ deeds, deed.isRequest = false) →
          let later := (ran.1.2.performAll deeds).run fortune'.answer state'
          later.2 = state' ∧ later.1.2.claimant = ran.1.2.claimant ∧
            later.1.1.map Sigma.fst = deeds ∧
            (∀ report ∈ later.1.1, departure.standing.Explains report) ∧
            ∀ n, later.1.2.beats n ≤ ran.1.2.beats n + 1 := by
  intro ran
  obtain ⟨departure, departed, done⟩ := (departure_of_run fortune state held deed).resolve_left left
  refine ⟨departure, departed, done, fun fortune' state' deeds unasked => ?_⟩
  obtain ⟨silent, same, deeds', explains, limit⟩ :=
    run_performAll_of_unheld fortune' state' left unasked
  rw [departed] at explains
  refine ⟨silent, same, deeds', explains, fun n => ?_⟩
  -- No deed changes how often a heartbeat will have beaten in the end.
  calc _ ≤ _ := beats_le_beatLimit n
    _ = ran.1.2.beatLimit n := limit n
    _ ≤ _ := beatLimit_le n

/-- A tenant that has the lock, with a guard and a heartbeat. -/
def settled : Tenant :=
  ⟨⟨"lock", 8, .ofSeconds 10, .heldBySelf⟩, [⟨true⟩], [⟨true, 4⟩]⟩

/-- A store where the lock has an owner. -/
def ownedStore (owner : Pid) : Keyspace :=
  ⟨TextMap.empty.insert "lock" ⟨ownedBy owner, some (.ofSinceEpoch 10000000000)⟩, false⟩

/-- A beat finds the lock lost to another owner. Its own record is back by the time of the
next deeds, and still nothing is done about it. -/
theorem inert_after_departure_of_usurped :
    let calm := Fortune.calm fun _ => default
    let ran := (settled.perform (.beat 0)).run calm.answer (ownedStore 3, [])
    let later := (ran.1.2.performAll
      [.renew, .start (.ofSeconds 3), .beat 0, .beat 1, .beat 1, .dropGuard 0, .ensureHeld]).run
        calm.answer (ownedStore 8, [])
    ran.1.2.claimant.standing = .heldByOther (some 3) ∧ later.2 = (ownedStore 8, []) ∧
      later.1.2 = ⟨ran.1.2.claimant, [⟨false⟩], [⟨false, 5⟩, ⟨false, 1⟩]⟩ := by
  have departed := @inert_after_departure settled (Fortune.calm fun _ => default)
    (ownedStore 3, []) rfl (.beat 0) nofun
  obtain ⟨_, -, -, inert⟩ := departed
  exact ⟨rfl, (inert _ _ _ (by decide)).1, rfl⟩

end Tenant

end Leasehold
