import Leasehold.Proofs.Lock.Company
import Leasehold.Proofs.Lock.Tally
import Leasehold.Proofs.Lock.Tenant

/-!
# Locks under guard

All guards of a claimant stand for the same lock. A claimant that has the lock acquires it
again for the next guard without a call, and nobody counts: the first guard to go gives the
lock up, and those that remain stand for nothing until one is acquired anew.

So what matters is the last thing that has happened to a guard. As long as nothing fails,
nobody else writes the record and it is renewed in time, the claimant has the lock exactly
where that was an acquisition.
-/

namespace Leasehold

open LockRecord

/-! ## Kind fortunes -/

/-- That nothing fails and that nobody else writes the record under a key. -/
structure Fortune.Kind (fortune : Fortune) (key : String) : Prop where
  unfailing : ∀ visits keyspace, (fortune visits keyspace).fault? = none
  unwritten : ∀ visits keyspace,
    (fortune visits keyspace).met.live? key (fortune visits keyspace).time =
      keyspace.live? key (fortune visits keyspace).time

theorem Fortune.Kind.cases {fortune : Fortune} {key : String} (kind : fortune.Kind key)
    (visits : List Visit) (keyspace : Keyspace) :
    ∃ met time, fortune visits keyspace = ⟨met, time, none⟩ ∧
      met.live? key time = keyspace.live? key time :=
  ⟨_, _, by rw [← kind.unfailing visits keyspace], kind.unwritten visits keyspace⟩

/-- That every call comes before the expiry which the last renewal has put on the record,
unless the record has been deleted since. -/
def Timely (key : String) : List Visit → Prop
  | [] => True
  | visit :: earlier =>
    (∀ expiry, History.lastRenewal? key (earlier.map Visit.made) = some expiry →
      History.isGivenUp key (earlier.map Visit.made) = false → visit.time < expiry) ∧
    Timely key earlier

theorem Timely.of_suffix {key : String} {visits later : List Visit} (timely : Timely key later)
    (suffix : visits <:+ later) : Timely key visits := by
  induction later with
  | nil => exact List.suffix_nil.mp suffix ▸ timely
  | cons visit later ih =>
      rcases List.suffix_cons_iff.mp suffix with rfl | suffix
      · exact timely
      · exact ih timely.2 suffix

/-- If all calls by the end of a run come in time, so do those that were made before. -/
theorem Timely.of_run {α : Type} {key : String} {program : LockProgram α} {fortune : Fortune}
    {state : Keyspace × List Visit}
    (timely : Timely key (program.run fortune.answer state).2.2) : Timely key state.2 :=
  timely.of_suffix (LockProgram.suffix_run fortune program state)

/-! ## Operations in time -/

/-- That the record under a key has been renewed up to an expiry and not been deleted since,
and that it belongs to an owner up to there. -/
structure Tenancy (key : String) (owner : Pid) (state : Keyspace × List Visit)
    (expiry : Instant) : Prop where
  renewed : History.lastRenewal? key (state.2.map Visit.made) = some expiry
  kept : History.isGivenUp key (state.2.map Visit.made) = false
  leased : state.1.Leased key owner expiry

/-- That the record under a key has been deleted and that there has not been one since. -/
structure Vacancy (key : String) (state : Keyspace × List Visit) : Prop where
  givenUp : History.isGivenUp key (state.2.map Visit.made) = true
  absent : state.1.entries.get? key = none

section

variable {c : Claimant} {fortune : Fortune} {keyspace : Keyspace} {visits : List Visit}
  {expiry : Instant}

/-- The next call of a claimant that has the record finds it. -/
theorem Tenancy.next (tenancy : Tenancy c.key c.pid (keyspace, visits) expiry)
    (kind : fortune.Kind c.key) {call : StoreCall}
    (timely : Timely c.key (fortune.visit visits keyspace call :: visits)) :
    ∃ met time entry, fortune visits keyspace = ⟨met, time, none⟩ ∧
      met.live? c.key time = some entry ∧ entry.BelongsTo c.pid ∧
      entry.expiresAt = some expiry := by
  obtain ⟨met, time, same, unwritten⟩ := kind.cases visits keyspace
  have before := timely.1 expiry tenancy.renewed tenancy.kept
  simp only [Fortune.visit, same] at before
  obtain ⟨entry, live, own, expires⟩ := tenancy.leased.live before
  exact ⟨met, time, entry, same, unwritten.trans live, own, expires⟩

/-- A claimant that looks reads its own name and still has the record. -/
theorem Tenancy.look (tenancy : Tenancy c.key c.pid (keyspace, visits) expiry)
    (kind : fortune.Kind c.key)
    (timely : Timely c.key (fortune.visit visits keyspace (.fetch c.key) :: visits)) :
    let visit := fortune.visit visits keyspace (.fetch c.key)
    (∃ fields, visit.reply = .ok (some fields) ∧ ownerOf? fields = some c.pid) ∧
      Tenancy c.key c.pid (visit.left, visit :: visits) expiry := by
  obtain ⟨met, time, entry, same, live, own, expires⟩ := tenancy.next kind timely
  unfold Fortune.visit
  rw [same]
  have answer : (met.serve time (.fetch c.key)).1 = some entry.fields := by simp [live]
  have looks : (StoreCall.fetch c.key).Spares c.key := trivial
  refine ⟨⟨entry.fields, congrArg Except.ok answer, own.ownerOf?⟩, ?_, ?_, entry, ?_, own, expires⟩
  · exact (History.lastRenewal?_cons_of_none rfl).trans tenancy.renewed
  · exact (History.isGivenUp_cons_of_none rfl rfl).trans tenancy.kept
  · exact (Keyspace.get?_serve_of_spares looks met time).trans live

/-- It can extend the record, and has it anew. -/
theorem Tenancy.refresh (tenancy : Tenancy c.key c.pid (keyspace, visits) expiry)
    (kind : fortune.Kind c.key)
    (timely : Timely c.key
      (fortune.visit visits keyspace (.expire c.key c.ttl (isOwnedBy c.pid)) :: visits)) :
    let visit := fortune.visit visits keyspace (.expire c.key c.ttl (isOwnedBy c.pid))
    visit.reply = .ok true ∧
      Tenancy c.key c.pid (visit.left, visit :: visits) (visit.time.add c.ttl) := by
  obtain ⟨met, time, entry, same, live, own, -⟩ := tenancy.next kind timely
  unfold Fortune.visit
  rw [same]
  have holds := Entry.holds_isOwnedBy_iff.mpr own
  have answer : (met.serve time (.expire c.key c.ttl (isOwnedBy c.pid))).1 = true := by
    simp [live, holds]
  have made : (⟨met, time, .expire c.key c.ttl (isOwnedBy c.pid), none⟩ : Visit).made =
      ⟨.expire c.key c.ttl (isOwnedBy c.pid), .ok true, time⟩ := by
    simp only [Visit.made, Visit.reply, answer]
  have renews := (congrArg (MadeCall.renewal? c.key) made).trans MadeCall.renewal?_refresh
  refine ⟨congrArg Except.ok answer, ?_, ?_, { entry with expiresAt := some (time.add c.ttl) }, ?_,
    own, rfl⟩
  · exact History.lastRenewal?_cons_of_some renews
  · exact (History.hasLease_of_renewal renews).2
  · simp [Visit.left, live, holds]

/-- It can delete the record. -/
theorem Tenancy.delete (tenancy : Tenancy c.key c.pid (keyspace, visits) expiry)
    (kind : fortune.Kind c.key)
    (timely : Timely c.key
      (fortune.visit visits keyspace (.delete c.key (isOwnedBy c.pid)) :: visits)) :
    let visit := fortune.visit visits keyspace (.delete c.key (isOwnedBy c.pid))
    visit.reply = .ok true ∧ Vacancy c.key (visit.left, visit :: visits) := by
  obtain ⟨met, time, entry, same, live, own, -⟩ := tenancy.next kind timely
  unfold Fortune.visit
  rw [same]
  have holds := Entry.holds_isOwnedBy_iff.mpr own
  have answer : (met.serve time (.delete c.key (isOwnedBy c.pid))).1 = true := by
    simp [live, holds]
  refine ⟨congrArg Except.ok answer, ?_, ?_⟩
  · simp [History.isGivenUp, Visit.made, Visit.reply, answer, MadeCall.deletes]
  · simp [Visit.left, live, holds, Option.filter]

/-- Whoever has created the record has it. -/
theorem Tenancy.of_created {visit : Visit} {time : Instant}
    (created : visit.made = ⟨.create c.key (ownedBy c.pid) c.ttl, .ok true, time⟩) :
    Tenancy c.key c.pid (visit.left, visit :: visits) (visit.time.add c.ttl) := by
  obtain ⟨-, -, leaves⟩ := Visit.created_of_made created
  obtain ⟨met, rfl, -⟩ := Visit.served_of_made created
  have renews := (congrArg (MadeCall.renewal? c.key) created).trans MadeCall.renewal?_claim
  exact ⟨History.lastRenewal?_cons_of_some renews, (History.hasLease_of_renewal renews).2,
    ⟨ownedBy c.pid, some (time.add c.ttl)⟩, leaves, Entry.belongsTo_ownedBy c.pid _, rfl⟩

/-- A renewal in time extends the record. -/
theorem Tenancy.renew (tenancy : Tenancy c.key c.pid (keyspace, visits) expiry)
    (kind : fortune.Kind c.key) (held : c.standing = .heldBySelf)
    (timely : Timely c.key (c.renew.run fortune.answer (keyspace, visits)).2.2) :
    let ran := c.renew.run fortune.answer (keyspace, visits)
    ran.1 = (.ok .extended, c) ∧ ∃ expiry', Tenancy c.key c.pid ran.2 expiry' := by
  rw [Claimant.renew, held] at timely ⊢
  dsimp only at timely ⊢
  rw [LockProgram.run_readOwner_bind] at timely ⊢
  dsimp only at timely ⊢
  obtain ⟨⟨fields, looked, own⟩, still⟩ := tenancy.look kind timely.of_run
  rw [looked] at timely ⊢
  simp only [Except.map, Option.map_some, own, if_true] at timely ⊢
  rw [LockProgram.run_refreshExpiry_bind] at timely ⊢
  dsimp only at timely ⊢
  obtain ⟨refreshed, renewed⟩ := still.refresh kind timely.of_run
  rw [refreshed]
  exact ⟨rfl, _, renewed⟩

/-- A release in time deletes the record. -/
theorem Tenancy.release (tenancy : Tenancy c.key c.pid (keyspace, visits) expiry)
    (kind : fortune.Kind c.key) (held : c.standing = .heldBySelf)
    (timely : Timely c.key (c.release.run fortune.answer (keyspace, visits)).2.2) :
    let ran := c.release.run fortune.answer (keyspace, visits)
    ran.1 = (.ok true, { c with standing := .free }) ∧ Vacancy c.key ran.2 := by
  rw [Claimant.release, if_pos held] at timely ⊢
  rw [LockProgram.run_delete_bind] at timely ⊢
  dsimp only at timely ⊢
  obtain ⟨deleted, vacancy⟩ := tenancy.delete kind timely.of_run
  rw [deleted]
  exact ⟨rfl, vacancy⟩

/-- Where there is no record, an attempt to take the lock takes it. -/
theorem Vacancy.acquire (vacancy : Vacancy c.key (keyspace, visits)) (kind : fortune.Kind c.key)
    (unheld : c.standing ≠ .heldBySelf) :
    let ran := c.acquire.run fortune.answer (keyspace, visits)
    ran.1 = (.ok (), { c with standing := .heldBySelf }) ∧
      ∃ expiry, Tenancy c.key c.pid ran.2 expiry := by
  have created : (fortune.visit visits keyspace (.create c.key (ownedBy c.pid) c.ttl)).made =
      ⟨.create c.key (ownedBy c.pid) c.ttl, .ok true, (fortune visits keyspace).time⟩ := by
    obtain ⟨met, time, same, unwritten⟩ := kind.cases visits keyspace
    have absent : met.live? c.key time = none := by
      rw [unwritten, Keyspace.live?, vacancy.absent]
      rfl
    simp only [Visit.made, Visit.reply, Fortune.visit, same, Keyspace.serve_create_answer, absent]
    rfl
  have reply : (fortune.visit visits keyspace (.create c.key (ownedBy c.pid) c.ttl)).reply =
      .ok true := eq_of_heq (MadeCall.mk.inj created).2.1
  rw [Claimant.acquire, if_neg unheld, LockProgram.run_createIfAbsent_bind]
  dsimp only
  rw [reply]
  exact ⟨rfl, _, Tenancy.of_created created⟩

/-- An attempt to take the lock creates the record, or it fails and the claimant does not
take the lock for its own. -/
theorem Claimant.acquire_cases (unheld : c.standing ≠ .heldBySelf) (fortune : Fortune)
    (state : Keyspace × List Visit) :
    let ran := c.acquire.run fortune.answer state
    (ran.1 = (.ok (), { c with standing := .heldBySelf }) ∧
      ∃ expiry, Tenancy c.key c.pid ran.2 expiry) ∨
      ∃ failure standing, ran.1 = (.error failure, { c with standing := standing }) ∧
        standing ≠ .heldBySelf := by
  intro ran
  obtain ⟨ended, brings⟩ : c.Attempted (state.2.map Visit.made) ran.1 (ran.2.2.map Visit.made) ∧
      fortune.Brings _ state ran.2 :=
    LockProgram.ends_under fortune state (c.acquire_attempted _)
  generalize ran = ran at ended brings
  obtain ⟨result, later, visits⟩ := ran
  generalize history : visits.map Visit.made = calls at ended
  cases ended with
  | held held => exact absurd held unheld
  | created time =>
      -- The creation is the last call, so the store is as it has left it.
      rcases brings.eq_or_left with rfl | ⟨visit, earlier, same⟩
      · exact absurd (congrArg List.length history) (by simp)
      · cases same
        exact .inl ⟨rfl, _, Tenancy.of_created (List.cons.inj history).1⟩
  | taken expires fields first second third => exact .inr ⟨_, _, rfl, nofun⟩
  | armed lasts first second third => exact .inr ⟨_, _, rfl, nofun⟩
  | changed lasts first second third => exact .inr ⟨_, _, rfl, nofun⟩
  | failed without call failure time quiet => exact .inr ⟨failure, c.standing, rfl, without⟩

/-- A beat in time keeps the lock. -/
theorem Tenancy.beat (tenancy : Tenancy c.key c.pid (keyspace, visits) expiry)
    (kind : fortune.Kind c.key) (held : c.standing = .heldBySelf) (heartbeat : Heartbeat)
    (timely : Timely c.key ((heartbeat.beat c).run fortune.answer (keyspace, visits)).2.2) :
    let ran := (heartbeat.beat c).run fortune.answer (keyspace, visits)
    ran.1.2 = c ∧ ∃ expiry', Tenancy c.key c.pid ran.2 expiry' := by
  rcases heartbeat with ⟨_ | _, beats⟩
  · exact ⟨rfl, expiry, tenancy⟩
  · rw [Heartbeat.beat, if_pos rfl, Program.run_bind] at timely ⊢
    obtain ⟨extended, renewed⟩ := tenancy.renew kind held timely.of_run
    rw [extended]
    exact ⟨rfl, renewed⟩

/-- Dropping a guard in time deletes the record. -/
theorem Tenancy.drop (tenancy : Tenancy c.key c.pid (keyspace, visits) expiry)
    (kind : fortune.Kind c.key) (held : c.standing = .heldBySelf) {guard : Guard}
    (pending : guard.pending = true)
    (timely : Timely c.key ((guard.drop c).run fortune.answer (keyspace, visits)).2.2) :
    let ran := (guard.drop c).run fortune.answer (keyspace, visits)
    ran.1 = (⟨false⟩, { c with standing := .free }) ∧ Vacancy c.key ran.2 := by
  rw [Guard.drop, if_pos pending, Program.run_bind] at timely ⊢
  obtain ⟨released, vacancy⟩ := tenancy.release kind held timely.of_run
  rw [released]
  exact ⟨rfl, vacancy⟩

end

/-! ## What has happened to guards -/

namespace Tenant

/-- What can happen to a guard: it is acquired, or it is released or dropped. -/
inductive Event where
  | acquired
  | gone
  deriving DecidableEq, Repr

/-- What a deed has done to a guard, if it has done anything. -/
def event? : Report → Option Event
  | ⟨.guard, .ok ()⟩ => some .acquired
  | ⟨.releaseGuard _, some _⟩ => some .gone
  | ⟨.dropGuard _, true⟩ => some .gone
  | _ => none

/-- The last thing that has happened to a guard, after what has happened before. -/
def lastEvent? (before : Option Event) (reports : List Report) : Option Event :=
  reports.foldl (fun last report => (event? report).or last) before

/-- Whether a deed takes the lock or gives it up without a guard. -/
def Deed.isBare : Deed → Bool
  | acquire => true
  | release => true
  | _ => false

/-- Whether a deed neither takes the lock nor gives it up. -/
def Deed.isUpkeep : Deed → Bool
  | renew => true
  | ensureHeld => true
  | start _ => true
  | beat _ => true
  | _ => false

theorem Deed.isRequest_of_isUpkeep {deed : Deed} (upkeep : deed.isUpkeep = true) :
    deed.isRequest = false := by
  cases deed with
  | acquire | release | guard | releaseGuard | dropGuard => contradiction
  | renew | ensureHeld | start | beat => rfl

/-- All other deeds are about guards. -/
theorem Deed.cases {deed : Deed} (guarded : deed.isBare = false) (active : deed.isUpkeep = false) :
    deed = .guard ∨ (∃ n, deed = .releaseGuard n) ∨ ∃ n, deed = .dropGuard n := by
  cases deed with
  | acquire | release => contradiction
  | renew | ensureHeld | start | beat => contradiction
  | guard => exact .inl rfl
  | releaseGuard n => exact .inr (.inl ⟨n, rfl⟩)
  | dropGuard n => exact .inr (.inr ⟨n, rfl⟩)

/-- How things stand after the last thing that has happened to a guard: before any guard was
acquired none is pending, after an acquisition one is and the claimant has the lock, and after
one has gone the claimant has given the lock up, whatever other guards there are. -/
def Stands (tenant : Tenant) (state : Keyspace × List Visit) : Option Event → Prop
  | none => tenant.claimant.standing ≠ .heldBySelf ∧ ∀ guard ∈ tenant.guards, guard.pending = false
  | some .acquired => tenant.claimant.standing = .heldBySelf ∧
      (∃ guard ∈ tenant.guards, guard.pending = true) ∧
      ∃ expiry, Tenancy tenant.claimant.key tenant.claimant.pid state expiry
  | some .gone => tenant.claimant.standing = .free ∧ Vacancy tenant.claimant.key state

variable {tenant : Tenant} {fortune : Fortune} {state : Keyspace × List Visit} {deed : Deed}

theorem mem_of_pendingGuard? {n : Nat} {guard : Guard}
    (pending : tenant.pendingGuard? n = some guard) :
    guard ∈ tenant.guards ∧ guard.pending = true := by
  obtain ⟨present, pending⟩ := Option.filter_eq_some_iff.mp pending
  exact ⟨List.mem_of_getElem? present, pending⟩

/-- A guard that was acquired is pending. -/
theorem exists_pending_append (guards : List Guard) :
    ∃ guard ∈ guards ++ [⟨true⟩], guard.pending = true :=
  ⟨⟨true⟩, List.mem_append_right _ (List.mem_singleton_self _), rfl⟩

/-- What neither takes the lock nor gives it up leaves the guards alone. -/
theorem guards_of_upkeep (tenant : Tenant) (upkeep : deed.isUpkeep = true) (fortune : Fortune)
    (state : Keyspace × List Visit) :
    let ran := (tenant.perform deed).run fortune.answer state
    ran.1.2.guards = tenant.guards ∧ event? ⟨deed, ran.1.1⟩ = none := by
  cases deed with
  | acquire | release | guard | releaseGuard | dropGuard => contradiction
  | renew =>
      rw [perform, Program.run_bind]
      exact ⟨rfl, rfl⟩
  | ensureHeld => exact ⟨rfl, rfl⟩
  | start interval =>
      rw [perform]
      split <;> exact ⟨rfl, rfl⟩
  | beat n =>
      rw [perform]
      split
      · rw [Program.run_bind]
        exact ⟨rfl, rfl⟩
      · exact ⟨rfl, rfl⟩

/-- Where the lock is not held, upkeep does nothing. -/
theorem upkeep_of_unheld (upkeep : deed.isUpkeep = true)
    (unheld : tenant.claimant.standing ≠ .heldBySelf) (fortune : Fortune)
    (state : Keyspace × List Visit) :
    let ran := (tenant.perform deed).run fortune.answer state
    ran.1.2.claimant = tenant.claimant ∧ ran.2 = state := by
  obtain ⟨silent, same, -⟩ :=
    run_perform_of_unheld fortune state unheld (Deed.isRequest_of_isUpkeep upkeep)
  exact ⟨same, silent⟩

/-- Where it is held, upkeep in time keeps it. -/
theorem upkeep_of_tenancy (upkeep : deed.isUpkeep = true)
    (held : tenant.claimant.standing = .heldBySelf) (kind : fortune.Kind tenant.claimant.key)
    {expiry : Instant} (tenancy : Tenancy tenant.claimant.key tenant.claimant.pid state expiry)
    (timely : Timely tenant.claimant.key ((tenant.perform deed).run fortune.answer state).2.2) :
    let ran := (tenant.perform deed).run fortune.answer state
    ran.1.2.claimant = tenant.claimant ∧
      ∃ expiry', Tenancy tenant.claimant.key tenant.claimant.pid ran.2 expiry' := by
  cases deed with
  | acquire | release | guard | releaseGuard | dropGuard => contradiction
  | renew =>
      rw [perform, Program.run_bind] at timely ⊢
      obtain ⟨extended, renewed⟩ := tenancy.renew kind held timely.of_run
      exact ⟨congrArg Prod.snd extended, renewed⟩
  | ensureHeld => exact ⟨rfl, expiry, tenancy⟩
  | start interval =>
      rw [perform]
      split <;> exact ⟨rfl, expiry, tenancy⟩
  | beat n =>
      revert timely
      rw [perform]
      split
      next heartbeat _ =>
        intro timely
        rw [Program.run_bind] at timely ⊢
        exact tenancy.beat kind held heartbeat timely.of_run
      next => exact fun _ => ⟨rfl, expiry, tenancy⟩

/-- Upkeep in time leaves things standing as they are. -/
theorem Stands.upkeep {last : Option Event} (stands : tenant.Stands state last)
    (kind : fortune.Kind tenant.claimant.key) (upkeep : deed.isUpkeep = true)
    (timely : Timely tenant.claimant.key ((tenant.perform deed).run fortune.answer state).2.2) :
    let ran := (tenant.perform deed).run fortune.answer state
    ran.1.2.claimant = tenant.claimant ∧ event? ⟨deed, ran.1.1⟩ = none ∧
      ran.1.2.Stands ran.2 last := by
  obtain ⟨guards, eventless⟩ := guards_of_upkeep tenant upkeep fortune state
  match last with
  | none =>
      obtain ⟨same, -⟩ := upkeep_of_unheld upkeep stands.1 fortune state
      exact ⟨same, eventless, same ▸ stands.1, guards ▸ stands.2⟩
  | some .acquired =>
      obtain ⟨held, pending, expiry, tenancy⟩ := stands
      obtain ⟨same, tenancy'⟩ := upkeep_of_tenancy upkeep held kind tenancy timely
      exact ⟨same, eventless, same ▸ held, guards ▸ pending, same ▸ tenancy'⟩
  | some .gone =>
      obtain ⟨free, vacancy⟩ := stands
      have unheld : tenant.claimant.standing ≠ .heldBySelf := by simp [free]
      obtain ⟨same, silent⟩ := upkeep_of_unheld upkeep unheld fortune state
      refine ⟨same, eventless, same ▸ free, ?_⟩
      rw [same, silent]
      exact vacancy

/-- Where no guard is pending and the lock is not held, it comes to be held by acquiring a
guard only. -/
theorem stands_of_unguarded (unheld : tenant.claimant.standing ≠ .heldBySelf)
    (done : ∀ guard ∈ tenant.guards, guard.pending = false) (guarded : deed.isBare = false)
    (active : deed.isUpkeep = false) :
    let ran := (tenant.perform deed).run fortune.answer state
    ran.1.2.claimant.key = tenant.claimant.key ∧ ran.1.2.claimant.pid = tenant.claimant.pid ∧
      ran.1.2.Stands ran.2 (event? ⟨deed, ran.1.1⟩) := by
  have gone (n : Nat) : tenant.pendingGuard? n = none := by
    cases found : tenant.pendingGuard? n with
    | none => rfl
    | some guard =>
        obtain ⟨member, pending⟩ := mem_of_pendingGuard? found
        rw [done guard member] at pending
        contradiction
  rcases Deed.cases guarded active with rfl | ⟨n, rfl⟩ | ⟨n, rfl⟩
  · rw [perform, Guard.acquire, Program.run_bind, Program.run_bind]
    rcases Claimant.acquire_cases unheld fortune state with
      ⟨same, tenancy⟩ | ⟨failure, standing, same, unheld'⟩
    · rw [same]
      exact ⟨rfl, rfl, rfl, exists_pending_append _, tenancy⟩
    · rw [same]
      exact ⟨rfl, rfl, unheld', done⟩
  · rw [perform, gone]
    exact ⟨rfl, rfl, unheld, done⟩
  · rw [perform, gone]
    exact ⟨rfl, rfl, unheld, done⟩

/-- While the lock is held for a guard, another guard can be acquired, and the first one to go
gives the lock up. -/
theorem stands_of_acquired (stands : tenant.Stands state (some .acquired))
    (kind : fortune.Kind tenant.claimant.key) (guarded : deed.isBare = false)
    (active : deed.isUpkeep = false)
    (timely : Timely tenant.claimant.key ((tenant.perform deed).run fortune.answer state).2.2) :
    let ran := (tenant.perform deed).run fortune.answer state
    ran.1.2.claimant.key = tenant.claimant.key ∧ ran.1.2.claimant.pid = tenant.claimant.pid ∧
      ran.1.2.Stands ran.2 ((event? ⟨deed, ran.1.1⟩).or (some .acquired)) := by
  have begun := stands
  obtain ⟨held, -, expiry, tenancy⟩ := stands
  rcases Deed.cases guarded active with rfl | ⟨n, rfl⟩ | ⟨n, rfl⟩
  · rw [perform, Guard.acquire, Claimant.acquire, if_pos held]
    exact ⟨rfl, rfl, held, exists_pending_append _, expiry, tenancy⟩
  · revert timely
    rw [perform]
    split
    · rw [Guard.release, Program.run_bind, Program.run_bind]
      intro timely
      obtain ⟨released, vacancy⟩ := tenancy.release kind held timely.of_run.of_run
      rw [released]
      exact ⟨rfl, rfl, rfl, vacancy⟩
    · exact fun _ => ⟨rfl, rfl, begun⟩
  · revert timely
    rw [perform]
    split
    next found =>
      rw [Program.run_bind]
      intro timely
      obtain ⟨dropped, vacancy⟩ :=
        tenancy.drop kind held (mem_of_pendingGuard? found).2 timely.of_run
      rw [dropped]
      exact ⟨rfl, rfl, rfl, vacancy⟩
    next => exact fun _ => ⟨rfl, rfl, begun⟩

/-- Once a guard has gone, those that remain stand for nothing; the next one that is acquired
takes the lock again. -/
theorem stands_of_gone (stands : tenant.Stands state (some .gone))
    (kind : fortune.Kind tenant.claimant.key) (guarded : deed.isBare = false)
    (active : deed.isUpkeep = false) :
    let ran := (tenant.perform deed).run fortune.answer state
    ran.1.2.claimant.key = tenant.claimant.key ∧ ran.1.2.claimant.pid = tenant.claimant.pid ∧
      ran.1.2.Stands ran.2 ((event? ⟨deed, ran.1.1⟩).or (some .gone)) := by
  have begun := stands
  obtain ⟨free, vacancy⟩ := stands
  have unheld : tenant.claimant.standing ≠ .heldBySelf := free ▸ nofun
  -- Guards that are still pending find nothing to give up.
  rcases Deed.cases guarded active with rfl | ⟨n, rfl⟩ | ⟨n, rfl⟩
  · obtain ⟨acquired, tenancy⟩ := vacancy.acquire kind unheld
    rw [perform, Guard.acquire, Program.run_bind, Program.run_bind, acquired]
    exact ⟨rfl, rfl, rfl, exists_pending_append _, tenancy⟩
  · rw [perform]
    split
    next found =>
      rw [Program.run_bind, Guard.run_release_of_unheld unheld]
      exact ⟨rfl, rfl, free, vacancy⟩
    next => exact ⟨rfl, rfl, begun⟩
  · rw [perform]
    split
    next found =>
      rw [Program.run_bind, Guard.run_drop_of_unheld unheld]
      exact ⟨rfl, rfl, free, vacancy⟩
    next => exact ⟨rfl, rfl, begun⟩

/-- Each deed leaves things standing as the last thing that has happened to a guard says. -/
theorem Stands.perform {last : Option Event} (stands : tenant.Stands state last)
    (kind : fortune.Kind tenant.claimant.key) (guarded : deed.isBare = false)
    (timely : Timely tenant.claimant.key ((tenant.perform deed).run fortune.answer state).2.2) :
    let ran := (tenant.perform deed).run fortune.answer state
    ran.1.2.claimant.key = tenant.claimant.key ∧ ran.1.2.claimant.pid = tenant.claimant.pid ∧
      ran.1.2.Stands ran.2 ((event? ⟨deed, ran.1.1⟩).or last) := by
  cases active : deed.isUpkeep with
  | true =>
      obtain ⟨same, eventless, stands⟩ := stands.upkeep kind active timely
      dsimp only
      rw [eventless]
      exact ⟨congrArg Claimant.key same, congrArg Claimant.pid same, stands⟩
  | false =>
      match last with
      | none =>
          dsimp only
          rw [Option.or_none]
          exact stands_of_unguarded stands.1 stands.2 guarded active
      | some .acquired => exact stands_of_acquired stands kind guarded active timely
      | some .gone => exact stands_of_gone stands kind guarded active

/-- So does any number of deeds. -/
theorem Stands.performAll {last : Option Event} {deeds : List Deed}
    (stands : tenant.Stands state last) (kind : fortune.Kind tenant.claimant.key)
    (guarded : ∀ deed ∈ deeds, deed.isBare = false)
    (timely : Timely tenant.claimant.key
      ((tenant.performAll deeds).run fortune.answer state).2.2) :
    let ran := (tenant.performAll deeds).run fortune.answer state
    ran.1.2.claimant.key = tenant.claimant.key ∧ ran.1.2.claimant.pid = tenant.claimant.pid ∧
      ran.1.2.Stands ran.2 (lastEvent? last ran.1.1) := by
  induction deeds generalizing tenant state last with
  | nil => exact ⟨rfl, rfl, stands⟩
  | cons deed deeds ih =>
      rw [List.forall_mem_cons] at guarded
      rw [run_performAll_cons] at timely ⊢
      obtain ⟨key, owner, stands'⟩ := stands.perform kind guarded.1 timely.of_run
      rw [← key] at kind timely
      obtain ⟨key', owner', stands''⟩ := ih stands' kind guarded.2 timely
      exact ⟨key'.trans key, owner'.trans owner, stands''⟩

/-- As long as nothing fails, nobody else writes the record and it is renewed in time, how
things stand follows from the last thing that has happened to a guard. After an acquisition
the claimant has the lock and the record is its own until the expiry of the last renewal.
After a guard has gone, the claimant has deleted the record and there is none, whatever other
guards there are. -/
theorem held_by_last_event {deeds : List Deed} {keyspace : Keyspace}
    (unheld : tenant.claimant.standing ≠ .heldBySelf)
    (done : ∀ guard ∈ tenant.guards, guard.pending = false)
    (kind : fortune.Kind tenant.claimant.key) (guarded : ∀ deed ∈ deeds, deed.isBare = false)
    (timely : Timely tenant.claimant.key
      ((tenant.performAll deeds).run fortune.answer (keyspace, [])).2.2) :
    let ran := (tenant.performAll deeds).run fortune.answer (keyspace, [])
    match lastEvent? none ran.1.1 with
    | none => ran.1.2.claimant.standing ≠ .heldBySelf ∧
        ∀ guard ∈ ran.1.2.guards, guard.pending = false
    | some .acquired => ran.1.2.claimant.standing = .heldBySelf ∧
        (∃ guard ∈ ran.1.2.guards, guard.pending = true) ∧
        ∃ expiry, History.lastRenewal? tenant.claimant.key (ran.2.2.map Visit.made) = some expiry ∧
          ∀ now < expiry, ∃ entry, ran.2.1.live? tenant.claimant.key now = some entry ∧
            entry.BelongsTo tenant.claimant.pid
    | some .gone => ran.1.2.claimant.standing = .free ∧
        History.isGivenUp tenant.claimant.key (ran.2.2.map Visit.made) = true ∧
        ran.2.1.entries.get? tenant.claimant.key = none := by
  intro ran
  have begins : tenant.Stands (keyspace, []) none := ⟨unheld, done⟩
  obtain ⟨key, owner, stands⟩ := begins.performAll kind guarded timely
  change ran.1.2.claimant.key = _ at key
  change ran.1.2.claimant.pid = _ at owner
  change ran.1.2.Stands ran.2 _ at stands
  rw [← key, ← owner]
  split
  next last =>
    rw [last] at stands
    exact stands
  next last =>
    rw [last] at stands
    obtain ⟨held, pending, expiry, tenancy⟩ := stands
    refine ⟨held, pending, expiry, tenancy.renewed, fun now before => ?_⟩
    obtain ⟨entry, live, own, -⟩ := tenancy.leased.live before
    exact ⟨entry, live, own⟩
  next last =>
    rw [last] at stands
    exact ⟨stands.1, stands.2.givenUp, stands.2.absent⟩

/-- A tenant that has not asked for the lock yet. -/
def unsettled : Tenant :=
  ⟨⟨"lock", 8, .ofSeconds 10, .free⟩, [], []⟩

/-- Nobody interferes, and the clock stands still. -/
def still : Fortune :=
  Fortune.calm fun _ => default

theorem kind_still (key : String) : still.Kind key :=
  ⟨fun _ _ => rfl, fun _ _ => rfl⟩

theorem in_time {expiry : Instant}
    (last : some (Instant.add default (.ofSeconds 10)) = some expiry) : default < expiry :=
  Option.some.inj last ▸ Instant.lt_add (by decide) (by decide)

/-- Two guards are acquired, with a beat in between, and the first one goes: the second is
still pending, but the lock has been given up. -/
theorem held_by_last_event_of_overlap :
    let ran := (unsettled.performAll
      [.guard, .start (.ofSeconds 3), .beat 0, .guard, .dropGuard 0]).run still.answer (.empty, [])
    ran.1.2.guards = [⟨false⟩, ⟨true⟩] ∧ lastEvent? none ran.1.1 = some .gone ∧
      ran.1.2.claimant.standing = .free ∧ ran.2.1.entries.get? "lock" = none := by
  have stands := @held_by_last_event unsettled still
    [.guard, .start (.ofSeconds 3), .beat 0, .guard, .dropGuard 0] .empty nofun nofun
    (kind_still _) (by decide)
    ⟨fun _ last _ => in_time last, fun _ last _ => in_time last, fun _ last _ => in_time last,
      by rintro _ ⟨⟩, trivial⟩
  exact ⟨rfl, rfl, stands.1, stands.2.2⟩

/-- So a guard that is pending does not always mean that the lock is held. -/
theorem not_always_held_while_guarded :
    ¬∀ (tenant : Tenant) (fortune : Fortune) (deeds : List Deed) (keyspace : Keyspace),
      tenant.claimant.standing ≠ .heldBySelf →
        (∀ guard ∈ tenant.guards, guard.pending = false) →
        fortune.Kind tenant.claimant.key → (∀ deed ∈ deeds, deed.isBare = false) →
        Timely tenant.claimant.key
          ((tenant.performAll deeds).run fortune.answer (keyspace, [])).2.2 →
          let ran := (tenant.performAll deeds).run fortune.answer (keyspace, [])
          (∃ guard ∈ ran.1.2.guards, guard.pending = true) →
            ran.1.2.claimant.standing = .heldBySelf := by
  intro always
  have held := always unsettled still [.guard, .guard, .dropGuard 1] .empty nofun nofun
    (kind_still _) (by decide) ⟨fun _ last _ => in_time last, by rintro _ ⟨⟩, trivial⟩
    ⟨⟨true⟩, by decide, rfl⟩
  contradiction

end Tenant

end Leasehold
