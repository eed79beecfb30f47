import Leasehold.Proofs.Lock.Tally
import Leasehold.Proofs.Protected.Course
import Leasehold.Proofs.Surroundings.Basic

/-!
# Others who do not act for an owner

Others may do to the store what they like between any two requests, as long as they do
not act for the owner. Then what the owner has called tells, after every request, what
there is to know of a record of that name; acquiring the lock is where this begins. And
a claimant that has acquired the lock knows its place from then on: it takes the lock
for its own, or its calls have shown that no record is its own.
-/

namespace Leasehold

open LockRecord Procedure Surroundings

/-! ## Others -/

/-- That a store comes from another by calls for other owners. -/
inductive Keyspace.Meddled (key : String) (owner : Pid) (first : Keyspace) : Keyspace → Prop
  | rest : Meddled key owner first first
  | call {keyspace : Keyspace} {other : Pid} {call : StoreCall}
      (meddled : Meddled key owner first keyspace) (acts : call.ActsFor key other)
      (different : other ≠ owner) (now : Instant) :
      Meddled key owner first (keyspace.serve now call).2

/-- Calls for other owners. -/
def StoreCall.Meddles (key : String) (owner : Pid) (call : StoreCall) : Prop :=
  ∃ other, other ≠ owner ∧ call.ActsFor key other

/-- What others do who do not act for an owner; files are nothing to the lock. -/
def meddling (key : String) (owner : Pid) : Interference :=
  ⟨Keyspace.Meddled key owner, fun _ _ => True⟩

theorem Keyspace.Tallies.meddled {key : String} {owner : Pid} {keyspace keyspace' : Keyspace}
    {history : History} (tallies : keyspace.Tallies key owner history)
    (meddled : keyspace.Meddled key owner keyspace') : keyspace'.Tallies key owner history := by
  induction meddled with
  | rest => exact tallies
  | call meddled acts different now ih => exact ih.meddle acts different

namespace Surroundings

variable {key : String} {owner : Pid} {s later : Surroundings} {α : Type} {procedure : Procedure α}
  {result : α} {allows : StoreCall → Prop}

/-- That the calls made so far tell what there is to know of the record of an owner. -/
def Tallied (key : String) (owner : Pid) (s : Surroundings) : Prop :=
  s.keyspace.Tallies key owner s.history

/-- Whoever the calls of a procedure are made for, and whatever others do. -/
theorem Tallied.leads (tallied : s.Tallied key owner) {request : Request} {reply : request.Reply}
    (allowed : request.Within fun call => ∃ other, call.ActsFor key other)
    (led : Leads (meddling key owner) request reply s later) : later.Tallied key owner := by
  rw [Tallied, history]
  rcases leads_cases led with ⟨met, time, call, fault?, rfl, meddled, left, visited⟩ |
    ⟨meddled, unvisited⟩
  · have told := tallied.meddled meddled
    obtain ⟨other, acts⟩ := allowed
    rw [left, visited]
    cases fault? with
    | none => exact told.serve acts
    | some fault =>
        have blind := @MadeCall.misses_error key owner call time (.storeUnavailable fault)
        exact told.cons (MadeCall.renewalFor?_error _) fun misses => nomatch blind.symm.trans misses
  · rw [unvisited]
    exact tallied.meddled meddled

theorem Tallied.of_runs {ends : α → History → Prop} (tallied : s.Tallied key owner)
    (acts : ∀ call, allows call → call.ActsFor key owner)
    (kept : procedure.Keeps (Procedure.calls allows) ends s.history)
    (ran : procedure.Runs (Leads (meddling key owner)) s result later) :
    later.Tallied key owner := by
  have acts' (request : Request) (history : History)
      (allowed : (Procedure.calls allows).allows request history) :
      request.Within fun call => ∃ other, call.ActsFor key other := by
    have within := within_of_allows allowed
    rcases request with (call | event) | call | request
    · exact ⟨owner, acts call within⟩
    · trivial
    · trivial
    · trivial
  exact kept.invariant_of_runs leads_history
    (fun request _ state _ allowed led tallied =>
      Tallied.leads tallied (acts' request state.history allowed) led) ran tallied

/-- Acquiring the lock makes a record of the owner, or leaves the one there was. -/
theorem tallied_of_acquire {c c' : Claimant}
    (begins : c.standing = .heldBySelf → s.Tallied c.key c.pid)
    (ran : (ofLock c.acquire).Runs (Leads (meddling c.key c.pid)) s (.ok (), c') later) :
    later.Tallied c.key c.pid := by
  have kept := keeps_ofLock (c.acquire_attempted s.history)
  by_cases held : c.standing = .heldBySelf
  · exact (begins held).of_runs (fun _ contends => (StoreCall.Sustains.contend contends).actsFor)
      kept ran
  · -- Whatever there was before, once the record is made the calls tell of it.
    let claim (time : Instant) : MadeCall :=
      ⟨.create c.key (ownedBy c.pid) c.ttl, .ok true, time⟩
    have stable : ∀ (request : Request) (reply : request.Reply) (state next : Surroundings),
        (Procedure.calls (StoreCall.Contends c.key c.pid c.ttl)).allows request state.history →
        Leads (meddling c.key c.pid) request reply state next →
        (∀ time, state.history = claim time :: s.history → state.Tallied c.key c.pid) →
        ∀ time, next.history = claim time :: s.history → next.Tallied c.key c.pid := by
      intro request reply state next _ led told time claimed
      rcases leads_cases led with ⟨met, now, call, fault?, rfl, meddled, left, visited⟩ |
        ⟨meddled, unvisited⟩
      · rw [history, visited] at claimed
        rcases List.cons.inj claimed with ⟨made, -⟩
        obtain ⟨_, same, answer⟩ := Visit.served_of_made made
        cases same
        rw [Keyspace.serve_create_answer] at answer
        have free := Option.isNone_iff_eq_none.mp answer.symm
        rw [Tallied, left, history, visited]
        exact Keyspace.tallies_of_claim c.ttl free
      · rw [history, unvisited] at claimed
        rw [Tallied, history, unvisited]
        exact (told time claimed).meddled meddled
    have made := kept.invariant_of_runs leads_history stable ran fun time claimed =>
      absurd claimed.symm (List.cons_ne_self _ _)
    have attempted := (runs_ofLock (c.acquire_attempted s.history) ran).1
    generalize called : later.history = history at attempted
    cases attempted with
    | held held' => exact absurd held' held
    | created time => exact made time called

end Surroundings

namespace Claimant

variable {c c' : Claimant} {base later : History}

/-- What a claimant that has acquired the lock can know: that it has it, or that it has
lost it, and then its calls have shown that no record is its own. -/
def Placed (c : Claimant) (history : History) : Prop :=
  c.standing = .heldBySelf ∨
    (∃ owner, c.standing = .heldByOther owner) ∧ history.isGone c.key c.pid = true

theorem Lapsed.isGone (lapsed : c.Lapsed base later) : later.isGone c.key c.pid = true := by
  cases lapsed with
  | missing time => simp [History.isGone, MadeCall.misses]
  | replaced own first second => simp [History.isGone, MadeCall.misses]

/-- A renewal leaves a claimant that knows its place. -/
theorem Renewing.placed {outcome : Except Failure Renewal}
    (renewing : c.Renewing base (outcome, c') later) (placed : c.Placed base) :
    c'.Placed later := by
  cases renewing with
  | notHeld without =>
      rcases placed with held | ⟨⟨owner, lost⟩, -⟩ <;> rcases without with free | stale <;>
        simp_all
  | known known => exact placed
  | extended held => exact .inl held
  | reacquired held => exact .inl held
  | failed held => exact .inl held
  | foreign held others time =>
      exact .inr ⟨⟨_, rfl⟩, by simp [History.isGone, MadeCall.misses, others]⟩
  | overtaken held lapsed fields first second =>
      refine .inr ⟨⟨_, rfl⟩, ?_⟩
      simp [History.isGone, MadeCall.renewalFor?, MadeCall.renewal?, lapsed.isGone]

theorem Beaten.placed {outcomes : List (Except Failure Renewal)}
    (beaten : c.Beaten base outcomes c' later) (placed : c.Placed base) : c'.Placed later := by
  induction beaten with
  | rest c base => exact placed
  | beat renewing rest ih => exact ih (renewing.placed placed)

end Claimant

end Leasehold
