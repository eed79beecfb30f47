import Leasehold.Proofs.Protected.Confirmation
import Leasehold.Proofs.Protected.Meddling

/-!
# The lock is released on every way out

A protected operation that has acquired the lock gives it up however it ends. There are
three ways out: the lock was found lost, and nothing is deleted; the record is deleted,
and none of the owner is left; or the deletion fails, and what is left of the record
goes by itself when the last renewal runs out. How the operation has ended is settled
before that.
-/

namespace Leasehold

open LockRecord Procedure Surroundings

/-! ## Ways out -/

variable {α : Type}

/-- An operation that has nothing to do with the lock, as an errand. -/
def Errand.doing (interval : Duration) (question : Option String)
    (body : Procedure (Except Failure α)) : Errand α :=
  ⟨interval, question, fun c => do return (← body, c)⟩

/-- That a protected operation has acquired the lock and comes to leaving, whether done
or not, after a number of renewals. -/
inductive Errand.Leaves (interference : Interference) (errand : Errand α) (c : Claimant)
    (s : Surroundings) :
    List (Except Failure Renewal) → Except Failure α × Claimant → Surroundings → Prop
  | unwilling {c₁ c₂ : Claimant} {s₁ s₂ : Surroundings} {failure : Failure}
      {beats : List (Except Failure Renewal)}
      (acquired : (ofLock c.acquire).Runs (Leads interference) s (.ok (), c₁) s₁)
      (agreed : (agree c₁ errand.interval errand.question).Runs (Leads interference) s₁
        (.error failure, c₂) s₂)
      (beaten : c₁.Beaten s₁.history beats c₂ s₂.history) :
      Leaves interference errand c s beats (.error failure, c₂) s₂
  | unheld {c₁ c₂ c₃ : Claimant} {s₁ s₂ s₃ : Surroundings} {failure : Failure}
      {beats : List (Except Failure Renewal)}
      (acquired : (ofLock c.acquire).Runs (Leads interference) s (.ok (), c₁) s₁)
      (agreed : (agree c₁ errand.interval errand.question).Runs (Leads interference) s₁
        (.ok (), c₂) s₂)
      (reconciled : (reconcile c₂).Runs (Leads interference) s₂ (.error failure, c₃) s₃)
      (beaten : c₁.Beaten s₁.history beats c₃ s₃.history) :
      Leaves interference errand c s beats (.error failure, c₃) s₃
  | operated {c₁ c₂ c₃ c₄ : Claimant} {s₁ s₂ s₃ s₄ : Surroundings} {outcome : Except Failure α}
      {beats : List (Except Failure Renewal)}
      (acquired : (ofLock c.acquire).Runs (Leads interference) s (.ok (), c₁) s₁)
      (agreed : (agree c₁ errand.interval errand.question).Runs (Leads interference) s₁
        (.ok (), c₂) s₂)
      (reconciled : (reconcile c₂).Runs (Leads interference) s₂ (.ok (), c₃) s₃)
      (beaten : c₁.Beaten s₁.history beats c₃ s₃.history)
      (done : (errand.operation c₃).Runs (Leads interference) s₃ (outcome, c₄) s₄) :
      Leaves interference errand c s beats (outcome, c₄) s₄

/-- That no visit among some gives up the record of an owner. -/
def Unyielding (key : String) (owner : Pid) (visits : List Visit) : Prop :=
  ∀ visit ∈ visits, visit.call.yields key owner = false

/-- How a protected operation comes out with the lock, with the visits made since it
began and what its renewals came to. -/
inductive Errand.Exits (errand : Errand α) (c : Claimant) (s : Surroundings)
    (beats : List (Except Failure Renewal)) :
    Except Failure α × Claimant → Surroundings → Prop
  | lost {outcome : Except Failure α} {c' : Claimant} {later : Surroundings}
      {owner : Option Pid} {visits : List Visit} (standing : c'.standing = .heldByOther owner)
      (lost : .ok (.lost owner) ∈ beats) (visited : later.visits = visits ++ s.visits)
      (undeleted : Unyielding c.key c.pid visits)
      (unowned : later.keyspace.Unowned c.key c.pid) :
      Exits errand c s beats (outcome, c') later
  | released {outcome : Except Failure α} {c' : Claimant} {later : Surroundings}
      {visit : Visit} {visits : List Visit} (standing : c'.standing = .free)
      (unlost : ∀ owner, .ok (.lost owner) ∉ beats)
      (visited : later.visits = visit :: (visits ++ s.visits))
      (deletes : visit.call = .delete c.key (isOwnedBy c.pid)) (served : visit.fault? = none)
      (once : Unyielding c.key c.pid visits) (unowned : later.keyspace.Unowned c.key c.pid) :
      Exits errand c s beats (outcome, c') later
  | stuck {outcome : Except Failure α} {c' c'' : Claimant} {later later' : Surroundings}
      {met : Keyspace} {time : Instant} {fault : StoreFault} {visits : List Visit}
      (standing : c'.standing = .heldBySelf) (unlost : ∀ owner, .ok (.lost owner) ∉ beats)
      (visited : later.visits =
        ⟨met, time, .delete c.key (isOwnedBy c.pid), some fault⟩ :: (visits ++ s.visits))
      (once : Unyielding c.key c.pid visits)
      (expiring : ∀ keyspace, later.keyspace.Meddled c.key c.pid keyspace → ∀ now entry,
        keyspace.live? c.key now = some entry → entry.BelongsTo c.pid →
        ∃ expiry, later.history.lastRenewalFor? c.key c.pid = some expiry ∧ now < expiry)
      (same : (runProtected c errand.interval errand.question errand.operation).Runs
        (Leads (meddling c.key c.pid)) s (outcome, c'') later')
      (visited' : later'.visits =
        ⟨met, time, .delete c.key (isOwnedBy c.pid), none⟩ :: (visits ++ s.visits)) :
      Exits errand c s beats (outcome, c') later

namespace StoreCall

variable {key : String} {owner : Pid} {ttl : Duration} {call : StoreCall}

theorem Sustains.unyielding (sustains : call.Sustains key owner ttl) :
    call.yields key owner = false := by
  cases sustains with
  | contend contends => cases contends <;> rfl
  | refresh => rfl

/-- What is done for others does not give up the record of the owner. -/
theorem Meddles.unyielding (meddles : call.Meddles key owner) : call.yields key owner = false := by
  rcases meddles with ⟨other, different, acts⟩
  cases acts with
  | claim ttl => rfl
  | refresh ttl => rfl
  | arm ttl => rfl
  | delete => simp [yields, isOwnedBy_injective.eq_iff, different]
  | spare spares =>
      cases call with
      | delete key' condition =>
          have different : key' ≠ key := spares
          simp [yields, different]
      | _ => rfl

end StoreCall

namespace Procedure

variable {interference : Interference} {c c₁ c₂ c' : Claimant} {s s₁ s₂ met later : Surroundings}
  {errand : Errand α} {result outcome : Except Failure α} {time : Instant}
  {fault? : Option StoreFault} {beats : List (Except Failure Renewal)}

/-! ### Coming to leave -/

/-- Who leaves has got there by a protected operation. -/
theorem runs_of_leaves (leaves : errand.Leaves interference c s beats (result, c₂) s₂)
    (left : (leave ⟨true⟩ c₂ result).Runs (Leads interference) s₂ (outcome, c') later) :
    (runProtected c errand.interval errand.question errand.operation).Runs (Leads interference) s
      (outcome, c') later := by
  apply runs_runProtected.mpr
  cases leaves with
  | unwilling acquired agreed beaten => exact .unwilling acquired agreed left
  | unheld acquired agreed reconciled beaten => exact .unheld acquired agreed reconciled left
  | operated acquired agreed reconciled beaten done =>
      exact .operated acquired agreed reconciled done left

/-- Asking for agreement is a number of renewals. -/
theorem beaten_of_agree {verdict : Except Failure Unit}
    (agreed : (agree c₁ errand.interval errand.question).Runs (Leads interference) s₁ (verdict, c₂)
      s₂) : ∃ beats, c₁.Beaten s₁.history beats c₂ s₂.history :=
  ends_of_runs (agree_beaten c₁ s₁.history errand.interval errand.question) agreed

/-- Reconciling is one more renewal. -/
theorem beaten_of_reconcile {verdict : Except Failure Unit}
    (beaten : c₁.Beaten s₁.history beats c₂ s₂.history)
    (reconciled : (reconcile c₂).Runs (Leads interference) s₂ (verdict, c') later) :
    ∃ beats, c₁.Beaten s₁.history beats c' later.history := by
  rcases runs_reconcile reconciled with ⟨renewal, renewed, -⟩
  have renewing := (runs_ofLock (c₂.renew_renewing s₂.history) renewed).1
  exact ⟨_, beaten.append (.beat renewing (.rest c' later.history))⟩

/-- A protected operation that has acquired the lock comes to leave. -/
theorem leaves_of_runs
    (ran : (runProtected c errand.interval errand.question errand.operation).Runs
      (Leads interference) s (outcome, c') later) :
    (∃ failure, (ofLock c.acquire).Runs (Leads interference) s (.error failure, c') later ∧
      outcome = .error failure) ∨
    ∃ beats result c₂ s₂, errand.Leaves interference c s beats (result, c₂) s₂ ∧
      (leave ⟨true⟩ c₂ result).Runs (Leads interference) s₂ (outcome, c') later := by
  generalize final : (outcome, c') = ended at ran
  cases runs_runProtected.mp ran with
  | @refused failure c₁ _ acquired =>
      cases final
      exact .inl ⟨failure, acquired, rfl⟩
  | unwilling acquired agreed withdrawn =>
      subst final
      rcases beaten_of_agree agreed with ⟨beats, beaten⟩
      exact .inr ⟨beats, _, _, _, .unwilling acquired agreed beaten, withdrawn⟩
  | unheld acquired agreed reconciled withdrawn =>
      subst final
      rcases beaten_of_agree agreed with ⟨_, beaten⟩
      rcases beaten_of_reconcile beaten reconciled with ⟨beats, beaten'⟩
      exact .inr ⟨beats, _, _, _, .unheld acquired agreed reconciled beaten', withdrawn⟩
  | operated acquired agreed reconciled done left =>
      subst final
      rcases beaten_of_agree agreed with ⟨_, beaten⟩
      rcases beaten_of_reconcile beaten reconciled with ⟨beats, beaten'⟩
      exact .inr ⟨beats, _, _, _, .operated acquired agreed reconciled beaten' done, left⟩

/-! ### What is known on leaving -/

/-- What is known of a claimant that has acquired the lock and has renewed it a number of
times: whether it has lost the lock, and what its calls tell of the record. -/
structure Departing (c : Claimant) (s : Surroundings) (beats : List (Except Failure Renewal))
    (c₂ : Claimant) (s₂ : Surroundings) : Prop where
  same : ∃ standing, c₂ = { c with standing := standing }
  knows : (c₂.standing = .heldBySelf ∧ ∀ owner, .ok (.lost owner) ∉ beats) ∨
    ∃ owner, c₂.standing = .heldByOther owner ∧ .ok (.lost owner) ∈ beats ∧
      s₂.history.isGone c.key c.pid = true
  tallied : s₂.Tallied c.key c.pid
  since : Since (fun call => call.yields c.key c.pid = false) s s₂

/-- Having the lock and renewing it a number of times. -/
theorem departing_of_beaten (begins : c.standing = .heldBySelf → s.Tallied c.key c.pid)
    (acquired : (ofLock c.acquire).Runs (Leads (meddling c.key c.pid)) s (.ok (), c₁) s₁)
    (beaten : c₁.Beaten s₁.history beats c₂ s₂.history)
    (kept : s₁.Tallied c.key c.pid → s₂.Tallied c.key c.pid)
    (since : Since (StoreCall.Sustains c.key c.pid c.ttl) s₁ s₂) : Departing c s beats c₂ s₂ := by
  rcases runs_ofLock (c.acquire_attempted s.history) acquired with ⟨attempted, begun, -⟩
  rcases attempted.same with ⟨standing, rfl⟩
  have held : standing = .heldBySelf := attempted.held_of_ok
  rcases beaten.same with ⟨standing', rfl⟩
  constructor
  · exact ⟨_, rfl⟩
  · rcases beaten.held_or_lost held with kept | ⟨owner, lost, member⟩
    · exact .inl kept
    · rcases beaten.placed (.inl held) with held' | ⟨-, gone⟩
      · exact absurd (held'.symm.trans lost) nofun
      · exact .inr ⟨owner, lost, member, gone⟩
  · exact kept (tallied_of_acquire begins acquired)
  · exact (begun.mono fun _ contends => (StoreCall.Sustains.contend contends).unyielding).trans
      (since.mono fun _ sustains => sustains.unyielding)

variable {interval : Duration} {question : Option String} {body : Procedure (Except Failure α)}

/-- An operation that does not act for the owner changes nothing about that. -/
theorem Departing.operate (departing : Departing c s beats c₁ s₁)
    (held : c₁.standing = .heldBySelf)
    (harmless : body.Only (Request.Within (StoreCall.Meddles c.key c.pid)))
    (ran : body.Runs (Leads (meddling c.key c.pid)) s₁ result s₂) :
    Departing c s beats c₁ s₂ := by
  have stable (request : Request) (reply : request.Reply) (state next : Surroundings)
      (within : request.Within (StoreCall.Meddles c.key c.pid))
      (led : Leads (meddling c.key c.pid) request reply state next)
      (tallied : state.Tallied c.key c.pid) : next.Tallied c.key c.pid := by
    apply tallied.leads _ led
    rcases request with (call | event) | call | request
    · rcases within with ⟨other, -, acts⟩
      exact ⟨other, acts⟩
    all_goals trivial
  constructor
  · exact departing.same
  · rcases departing.knows with kept | ⟨owner, lost, -⟩
    · exact .inl kept
    · exact absurd (held.symm.trans lost) nofun
  · exact harmless.invariant stable ran departing.tallied
  · exact departing.since.trans
      ((since_of_only harmless ran).mono fun _ meddles => meddles.unyielding)

/-- What is known on leaving a protected operation that does not touch the lock. -/
theorem departing_of_leaves
    (harmless : body.Only (Request.Within (StoreCall.Meddles c.key c.pid)))
    (begins : c.standing = .heldBySelf → s.Tallied c.key c.pid)
    (leaves : (Errand.doing interval question body).Leaves (meddling c.key c.pid) c s beats
      (result, c₂) s₂) : Departing c s beats c₂ s₂ := by
  have agreeing {c₁ c₂ : Claimant} {s₁ s₂ : Surroundings} {verdict : Except Failure Unit}
      (acquired : (ofLock c.acquire).Runs (Leads (meddling c.key c.pid)) s (.ok (), c₁) s₁)
      (agreed : (agree c₁ interval question).Runs (Leads (meddling c.key c.pid)) s₁ (verdict, c₂)
        s₂) :
      (∃ standing, c₂ = { c with standing := standing }) ∧
        (s₁.Tallied c.key c.pid → s₂.Tallied c.key c.pid) ∧
        Since (StoreCall.Sustains c.key c.pid c.ttl) s₁ s₂ := by
    rcases (runs_ofLock (c.acquire_attempted s.history) acquired).1.same with ⟨standing, rfl⟩
    have kept := agree_beaten { c with standing := standing } s₁.history interval question
    rcases ends_of_runs kept agreed with ⟨_, beaten⟩
    exact ⟨beaten.same, fun tallied => tallied.of_runs (fun _ sustains => sustains.actsFor) kept
      agreed, since_of_runs kept agreed⟩
  have reconciling {c₂ c₃ : Claimant} {s₂ s₃ : Surroundings} {verdict : Except Failure Unit}
      (same : ∃ standing, c₂ = { c with standing := standing })
      (reconciled : (reconcile c₂).Runs (Leads (meddling c.key c.pid)) s₂ (verdict, c₃) s₃) :
      (s₂.Tallied c.key c.pid → s₃.Tallied c.key c.pid) ∧
        Since (StoreCall.Sustains c.key c.pid c.ttl) s₂ s₃ := by
    rcases same with ⟨standing, rfl⟩
    rcases runs_reconcile reconciled with ⟨_, renewed, -⟩
    have kept := keeps_ofLock
      (Claimant.renew_renewing { c with standing := standing } s₂.history)
    exact ⟨fun tallied => tallied.of_runs (fun _ sustains => sustains.actsFor) kept renewed,
      since_of_runs kept renewed⟩
  cases leaves with
  | unwilling acquired agreed beaten =>
      rcases agreeing acquired agreed with ⟨-, kept, since⟩
      exact departing_of_beaten begins acquired beaten kept since
  | unheld acquired agreed reconciled beaten =>
      rcases agreeing acquired agreed with ⟨same, kept, since⟩
      rcases reconciling same reconciled with ⟨kept', since'⟩
      exact departing_of_beaten begins acquired beaten (kept' ∘ kept) (since.trans since')
  | @operated c₁ c₂ c₃ _ s₁ s₂ s₃ _ _ _ acquired agreed reconciled beaten done =>
      rcases agreeing acquired agreed with ⟨same, kept, since⟩
      rcases reconciling same reconciled with ⟨kept', since'⟩
      have departing := departing_of_beaten begins acquired beaten (kept' ∘ kept)
        (since.trans since')
      have held : c₃.standing = .heldBySelf := by
        rcases runs_reconcile reconciled with ⟨failure | renewal, -, holds⟩
        · contradiction
        · rcases departing.knows with ⟨held, -⟩ | ⟨owner, lost, -⟩
          · exact held
          · simp [Except.bind, Claimant.ensureHeld, lost] at holds
      rcases Program.runs_bind.mp done with ⟨_, _, operated, same, rfl⟩
      cases same
      exact departing.operate held harmless operated

/-! ### Leaving -/

/-- A claimant that takes the lock for its own begins to leave by deleting the record. -/
theorem leave_held (held : c.standing = .heldBySelf) (outcome : Except Failure α) :
    ∃ next, leave ⟨true⟩ c outcome =
      .step (.lock (.store (.delete c.key (isOwnedBy c.pid)))) next := by
  cases outcome with
  | error failure =>
      simp only [leave, withdraw, Guard.drop, if_true, Claimant.release, if_pos held]
      exact ⟨_, rfl⟩
  | ok value =>
      simp only [leave, Guard.release, Claimant.release, if_pos held]
      exact ⟨_, rfl⟩

/-- Once the record is deleted, or the deletion has failed, leaving makes no more calls
and it is settled how the protected operation has ended. -/
theorem runs_after_delete {next : Except Failure Bool → Procedure (Except Failure α × Claimant)}
    (held : c.standing = .heldBySelf)
    (begins : leave ⟨true⟩ c result =
      .step (.lock (.store (.delete c.key (isOwnedBy c.pid)))) next)
    (ran : (next (Visit.reply ⟨met.keyspace, time, .delete c.key (isOwnedBy c.pid), fault?⟩)).Runs
      (Leads interference) (met.visit time (.delete c.key (isOwnedBy c.pid)) fault?)
      (outcome, c') later) :
    outcome = result ∧
      later.visits = ⟨met.keyspace, time, .delete c.key (isOwnedBy c.pid), fault?⟩ :: met.visits ∧
      c' = { c with standing := if fault?.isSome then .heldBySelf else .free } := by
  have kept := leave_released c met.history result
  rw [begins] at kept
  have kept' := kept.2
    (Visit.reply ⟨met.keyspace, time, .delete c.key (isOwnedBy c.pid), fault?⟩) _ ⟨time, rfl⟩
  rcases ends_of_runs kept' ran with ⟨same, _, released⟩
  obtain ⟨visits, visited, -⟩ := since_of_runs kept' ran
  -- A release makes a single call, so there is none after the deletion.
  have only {made : MadeCall} (called : later.history = made :: met.history) : visits = [] ∧
      made = Visit.made ⟨met.keyspace, time, .delete c.key (isOwnedBy c.pid), fault?⟩ := by
    rw [history, visited, List.map_append] at called
    rcases List.append_eq_cons_iff.mp called with ⟨none, same⟩ | ⟨rest, -, same⟩
    · exact ⟨List.map_eq_nil_iff.mp none, (List.cons.inj same).1.symm⟩
    · have length := congrArg List.length same
      simp [visit, history] at length
      omega
  apply And.intro same
  generalize called : later.history = history at released
  cases released with
  | skipped without => exact absurd held without
  | deleted _ gone instant =>
      rcases only called with ⟨rfl, made⟩
      obtain ⟨_, served, -⟩ := Visit.served_of_made made.symm
      obtain ⟨-, -, -, rfl⟩ := Visit.mk.inj served
      exact ⟨visited, rfl⟩
  | failed _ failure instant =>
      rcases only called with ⟨rfl, made⟩
      obtain ⟨_, fault, faulted, -⟩ := Visit.faulted_of_made made.symm
      obtain ⟨-, -, -, rfl⟩ := Visit.mk.inj faulted
      exact ⟨visited, by rw [Option.isSome_some, if_pos rfl, ← held]⟩

/-- A claimant that has lost the lock leaves without a call. -/
theorem runs_leave_lost (without : c.standing ≠ .heldBySelf)
    (left : (leave ⟨true⟩ c result).Runs (Leads interference) s (outcome, c') later) :
    outcome = result ∧ later.visits = s.visits ∧ c' = c := by
  have kept := leave_released c s.history result
  rcases ends_of_runs kept left with ⟨same, _, released⟩
  rcases released.skipped_of_unheld without with ⟨unchanged, still⟩
  rcases since_of_runs kept left with ⟨visits, visited, -⟩
  have none : visits = [] := by
    rw [history, history, visited, List.map_append] at still
    exact List.map_eq_nil_iff.mp (List.append_left_eq_self.mp still)
  exact ⟨same, by rw [visited, none, List.nil_append], unchanged⟩

/-- Leaving is a way out for who knows its place. -/
theorem exits_of_departing (departing : Departing c s beats c₂ s₂)
    (leaves : errand.Leaves (meddling c.key c.pid) c s beats (result, c₂) s₂)
    (left : (leave ⟨true⟩ c₂ result).Runs (Leads (meddling c.key c.pid)) s₂ (outcome, c') later) :
    errand.Exits c s beats (outcome, c') later := by
  rcases departing with ⟨⟨standing, rfl⟩, knows, tallied, visits, visited, unyielding⟩
  have tallied' : later.Tallied c.key c.pid :=
    tallied.of_runs (fun _ concerns => concerns.actsFor)
      (leave_released { c with standing := standing } s₂.history result) left
  rcases knows with ⟨held, unlost⟩ | ⟨owner, lost, member, gone⟩
  · rcases leave_held held result with ⟨next, begins⟩
    have ran := left
    rw [begins] at ran
    obtain ⟨_, _, ⟨keyspace, tree, meddled, -, time, fault?, rfl, rfl⟩, rest⟩ := ran
    rcases runs_after_delete held begins rest with ⟨rfl, visited', rfl⟩
    rw [visited] at visited'
    cases fault? with
    | none =>
        refine .released rfl unlost visited' rfl rfl unyielding (tallied'.gone ?_)
        rw [history, visited']
        simp [History.isGone, MadeCall.misses, Visit.made, Visit.reply]
    | some fault =>
        -- The same run with the deletion served ends just so.
        let met : Surroundings := { s₂ with keyspace := keyspace, tree := tree }
        have leads := @leads_undisturbed (meddling c.key c.pid) (fun _ => .rest)
          (fun _ => trivial) time (.ok true)
        obtain ⟨⟨outcome', c''⟩, later', rest'⟩ : ∃ ended later',
            (next (Visit.reply ⟨met.keyspace, time, .delete c.key (isOwnedBy c.pid), none⟩)).Runs
              (Leads (meddling c.key c.pid))
              (met.visit time (.delete c.key (isOwnedBy c.pid)) none) ended later' :=
          ⟨_, _, Program.runs_run leads _ _⟩
        rcases runs_after_delete held begins rest' with ⟨rfl, visited'', -⟩
        rw [visited] at visited''
        have left' : (leave ⟨true⟩ { c with standing := standing } outcome').Runs
            (Leads (meddling c.key c.pid)) s₂ (outcome', c'') later' := by
          rw [begins]
          exact ⟨_, _, ⟨keyspace, tree, meddled, trivial, time, none, rfl, rfl⟩, rest'⟩
        refine .stuck rfl unlost visited' unyielding ?_ (runs_of_leaves leaves left') visited''
        intro later'' meddled' now entry live own
        rcases Keyspace.live?_eq_some_iff.mp live with ⟨found, fresh⟩
        rcases (tallied'.meddled meddled').expires entry found own with ⟨expiry, renewed, expires⟩
        refine ⟨expiry, renewed, ?_⟩
        rw [Entry.isExpired, expires, Option.any_some, decide_eq_false_iff_not] at fresh
        exact not_le.mp fresh
  · have without : standing ≠ .heldBySelf := by
      rw [show standing = .heldByOther owner from lost]
      exact Standing.noConfusion
    rcases runs_leave_lost without left with ⟨rfl, same, rfl⟩
    refine .lost lost member (same.trans visited) unyielding (tallied'.gone ?_)
    rw [history, same]
    exact gone

/-- However a protected operation ends that has acquired the lock, and whatever others do
who do not act for the owner, the record is gone at the end, or its deletion has failed,
once, and what is left of it goes when the last renewal runs out. -/
theorem released_on_exit
    (harmless : body.Only (Request.Within (StoreCall.Meddles c.key c.pid)))
    (begins : c.standing = .heldBySelf → s.Tallied c.key c.pid)
    (ran : (runProtected c interval question fun c => do return (← body, c)).Runs
      (Leads (meddling c.key c.pid)) s (outcome, c') later) :
    (∃ failure, (ofLock c.acquire).Runs (Leads (meddling c.key c.pid)) s (.error failure, c')
      later ∧ outcome = .error failure) ∨
    ∃ beats result c₂ s₂, (Errand.doing interval question body).Leaves (meddling c.key c.pid) c s
        beats (result, c₂) s₂ ∧
      (leave ⟨true⟩ c₂ result).Runs (Leads (meddling c.key c.pid)) s₂ (outcome, c') later ∧
      (Errand.doing interval question body).Exits c s beats (outcome, c') later := by
  rcases @leaves_of_runs α _ _ _ _ _ (Errand.doing interval question body) _ ran with
    refused | ⟨beats, result, c₂, s₂, leaves, left⟩
  · exact .inl refused
  · have departing := departing_of_leaves harmless begins leaves
    exact .inr ⟨beats, result, c₂, s₂, leaves, left, exits_of_departing departing leaves left⟩

/-- A claimant that is answered yes does its operation and comes out with the lock. -/
theorem released_on_exit_of_yes :
    ∃ beats outcome c' later, tellDone.Exits (.ofPid 1 (.ofSeconds 10)) ⟨.empty, ⟨[], []⟩, [], []⟩
      beats (.ok outcome, c') later := by
  have leads := @leads_undisturbed (meddling LockRecord.key 1) (fun _ => .rest) (fun _ => trivial)
    default (.ok true)
  obtain ⟨⟨outcome, c'⟩, later, ran, done⟩ :
      ∃ result later, (runProtected (.ofPid 1 (.ofSeconds 10)) tellDone.interval tellDone.question
        tellDone.operation).Runs (Leads (meddling LockRecord.key 1))
          ⟨.empty, ⟨[], []⟩, [], []⟩ result later ∧ result.1.isOk = true :=
    ⟨_, _, Program.runs_run leads _ _, by decide +kernel⟩
  have free : (Claimant.ofPid 1 (.ofSeconds 10)).standing ≠ .heldBySelf := nofun
  rcases @released_on_exit Nat (.ofPid 1 (.ofSeconds 10)) c' _ later outcome _ _
      (return .ok 42) trivial (fun held => absurd held free) ran with
    ⟨failure, -, rfl⟩ | ⟨beats, _, _, _, -, -, exits⟩
  · contradiction
  · cases outcome with
    | error failure => contradiction
    | ok value => exact ⟨beats, value, c', later, exits⟩

end Procedure

end Leasehold
