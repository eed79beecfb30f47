import Leasehold.Proofs.Lock.Course
import Leasehold.Protected

/-!
# Protected operations call by call

What each stage of a protected operation comes to, with all the calls that it makes.
Waiting for an answer is a sequence of renewals, and as long as none of them finds the
lock lost the claimant takes it for its own; once one has, that is what it knows.
-/

namespace Leasehold

namespace Claimant

variable {c c' : Claimant} {base later : History}

/-! ## What stays of a claimant -/

/-- An attempt changes nothing but what the claimant knows. -/
theorem Attempted.same {outcome : Except Failure Unit}
    (attempted : c.Attempted base (outcome, c') later) :
    ∃ standing, c' = { c with standing := standing } := by
  cases attempted with
  | held held => exact ⟨_, rfl⟩
  | failed without call failure time quiet => exact ⟨_, rfl⟩
  | created | taken | armed | changed => exact ⟨_, rfl⟩

theorem Renewing.same {outcome : Except Failure Renewal}
    (renewing : c.Renewing base (outcome, c') later) :
    ∃ standing, c' = { c with standing := standing } := by
  cases renewing with
  | notHeld without => exact ⟨_, rfl⟩
  | known known => exact ⟨_, rfl⟩
  | extended held => exact ⟨_, rfl⟩
  | reacquired held => exact ⟨_, rfl⟩
  | failed held => exact ⟨_, rfl⟩
  | foreign | overtaken => exact ⟨_, rfl⟩

/-- A claimant that is told that it has the lock takes it for its own. -/
theorem Attempted.held_of_ok (attempted : c.Attempted base (.ok (), c') later) :
    c'.standing = .heldBySelf := by
  cases attempted with
  | held held => exact held
  | created time => rfl

/-- What a renewal tells is what the claimant knows then. -/
theorem Renewing.held_or_lost {outcome : Except Failure Renewal}
    (renewing : c.Renewing base (outcome, c') later) (held : c.standing = .heldBySelf) :
    (c'.standing = .heldBySelf ∧ ∀ owner, outcome ≠ .ok (.lost owner)) ∨
      ∃ owner, c'.standing = .heldByOther owner ∧ outcome = .ok (.lost owner) := by
  cases renewing with
  | notHeld without => rcases without with free | stale <;> simp_all
  | known known => exact absurd (known.symm.trans held) nofun
  | extended _ => exact .inl ⟨held, by simp⟩
  | reacquired _ => exact .inl ⟨held, by simp⟩
  | failed _ => exact .inl ⟨held, by simp⟩
  | foreign | overtaken => exact .inr ⟨_, rfl, rfl⟩

theorem Renewing.lost_of_heldByOther {outcome : Except Failure Renewal} {owner : Option Pid}
    (renewing : c.Renewing base (outcome, c') later) (lost : c'.standing = .heldByOther owner) :
    outcome = .ok (.lost owner) := by
  cases renewing with
  | notHeld without => rcases without with free | stale <;> simp_all
  | known known => simp_all
  | extended held => exact absurd (held.symm.trans lost) nofun
  | reacquired held => exact absurd (held.symm.trans lost) nofun
  | failed held => exact absurd (held.symm.trans lost) nofun
  | foreign | overtaken => simp_all

/-- There is nothing to release unless the claimant takes the lock for its own. -/
theorem Released.skipped_of_unheld {outcome : Except Failure Bool}
    (released : c.Released base (outcome, c') later) (without : c.standing ≠ .heldBySelf) :
    c' = c ∧ later = base := by
  cases released with
  | skipped _ => exact ⟨rfl, rfl⟩
  | deleted held => exact absurd held without
  | failed held => exact absurd held without

/-! ## Beats -/

/-- A number of renewals one after the other, with what each came to and the calls
made since `base`. -/
inductive Beaten : Claimant → History → List (Except Failure Renewal) → Claimant → History → Prop
  | rest (c : Claimant) (base : History) : Beaten c base [] c base
  | beat {c c' c'' : Claimant} {base later last : History} {outcome : Except Failure Renewal}
      {outcomes : List (Except Failure Renewal)} (renewing : c.Renewing base (outcome, c') later)
      (rest : Beaten c' later outcomes c'' last) : Beaten c base (outcome :: outcomes) c'' last

theorem Beaten.same {outcomes : List (Except Failure Renewal)}
    (beaten : c.Beaten base outcomes c' later) :
    ∃ standing, c' = { c with standing := standing } := by
  induction beaten with
  | rest c base => exact ⟨_, rfl⟩
  | beat renewing rest ih =>
      rcases renewing.same with ⟨standing, rfl⟩
      exact ih

/-- Once a renewal has found the lock lost, that is what the claimant knows. -/
theorem Beaten.lost {outcomes : List (Except Failure Renewal)}
    (beaten : c.Beaten base outcomes c' later) {owner : Option Pid}
    (lost : c.standing = .heldByOther owner) : c' = c ∧ later = base := by
  induction beaten with
  | rest c base => exact ⟨rfl, rfl⟩
  | beat renewing rest ih =>
      have unheld : Standing.heldByOther owner ≠ .heldBySelf := nofun
      rw [← lost] at unheld
      cases renewing with
      | known known => exact ih lost
      | notHeld without => rcases without with free | stale <;> simp_all
      | extended held => exact absurd held unheld
      | reacquired held => exact absurd held unheld
      | failed held => exact absurd held unheld
      | foreign held => exact absurd held unheld
      | overtaken held => exact absurd held unheld

/-- The claimant goes on taking the lock for its own unless a renewal finds it lost. -/
theorem Beaten.held_or_lost {outcomes : List (Except Failure Renewal)}
    (beaten : c.Beaten base outcomes c' later) (held : c.standing = .heldBySelf) :
    (c'.standing = .heldBySelf ∧ ∀ owner, .ok (.lost owner) ∉ outcomes) ∨
      ∃ owner, c'.standing = .heldByOther owner ∧ .ok (.lost owner) ∈ outcomes := by
  induction beaten with
  | rest c base => exact .inl ⟨held, by simp⟩
  | @beat c c₁ c₂ base later last outcome outcomes renewing rest ih =>
      rcases renewing.held_or_lost held with ⟨still, kept⟩ | ⟨owner, lost, rfl⟩
      · rcases ih still with ⟨still, others⟩ | ⟨owner, lost, member⟩
        · refine .inl ⟨still, ?_⟩
          intro owner member
          rcases List.mem_cons.mp member with same | member
          · exact kept owner same.symm
          · exact others owner member
        · exact .inr ⟨owner, lost, List.mem_cons_of_mem _ member⟩
      · rcases rest.lost lost with ⟨rfl, -⟩
        exact .inr ⟨owner, lost, List.mem_cons_self⟩

end Claimant

/-! ## The stages -/

section

variable (c : Claimant) (base : History)

/-- A beat is a renewal, as long as the heartbeat goes on. -/
theorem Heartbeat.beat_renews (heartbeat : Heartbeat) :
    (heartbeat.beat c).Keeps (LockProgram.calls (StoreCall.Renews c.key c.pid c.ttl))
      (fun result later => heartbeat.running = false ∧ result.2 = c ∧ later = base ∨
        ∃ outcome, c.Renewing base (outcome, result.2) later) base := by
  rw [beat]
  split
  · apply Program.keeps_bind.mpr
    apply (c.renew_renews base).mono
    rintro ⟨failure | renewal, c'⟩ later renewing
    · exact LockProgram.keeps_note_bind.mpr (.inr ⟨_, renewing⟩)
    · cases renewal <;> exact .inr ⟨_, renewing⟩
  next stopped => exact .inl ⟨Bool.eq_false_iff.mpr stopped, rfl, rfl⟩

theorem Heartbeat.beat_beaten (heartbeat : Heartbeat) :
    (heartbeat.beat c).Keeps (LockProgram.calls (StoreCall.Sustains c.key c.pid c.ttl))
      (fun result later => ∃ outcomes, c.Beaten base outcomes result.2 later) base := by
  apply (LockProgram.keeps_of_allows (fun _ renews => renews.sustains)
    (heartbeat.beat_renews c base)).mono
  rintro ⟨heartbeat', c'⟩ later (⟨-, rfl, rfl⟩ | ⟨outcome, renewing⟩)
  · exact ⟨[], .rest _ _⟩
  · exact ⟨[outcome], .beat renewing (.rest c' later)⟩

/-- Dropping a guard is a release, unless its lock has been given up. -/
theorem Guard.drop_yields (guard : Guard) :
    (guard.drop c).Keeps (LockProgram.calls (StoreCall.Yields c.key c.pid))
      (fun result later => guard.pending = false ∧ result.2 = c ∧ later = base ∨
        ∃ released, c.Released base (released, result.2) later) base := by
  rw [drop]
  split
  · apply Program.keeps_bind.mpr
    apply (c.release_yields base).mono
    rintro ⟨failure | gone, c'⟩ later released
    · exact LockProgram.keeps_note_bind.mpr (.inr ⟨_, released⟩)
    · exact .inr ⟨_, released⟩
  next done => exact .inl ⟨Bool.eq_false_iff.mpr done, rfl, rfl⟩

theorem Claimant.Beaten.append {c c' c'' : Claimant} {base middle later : History}
    {first second : List (Except Failure Renewal)} (beaten : c.Beaten base first c' middle)
    (beaten' : c'.Beaten middle second c'' later) :
    c.Beaten base (first ++ second) c'' later := by
  induction beaten with
  | rest c base => exact beaten'
  | beat renewing rest ih => exact .beat renewing (ih beaten')

namespace Procedure

/-- Waiting is a number of renewals. -/
theorem beatWhileWaiting_beaten (heartbeat : Heartbeat) (most : Nat) :
    (beatWhileWaiting heartbeat c most).Keeps (calls (StoreCall.Sustains c.key c.pid c.ttl))
      (fun c' later => ∃ outcomes, c.Beaten base outcomes c' later) base := by
  induction most generalizing heartbeat c base with
  | zero => exact ⟨[], .rest c base⟩
  | succ most ih =>
      apply keeps_isBeatDue_bind.mpr
      intro due
      cases due with
      | false => exact ⟨[], .rest c base⟩
      | true =>
          apply Program.keeps_bind.mpr
          apply (keeps_ofLock (heartbeat.beat_beaten c base)).mono
          rintro ⟨heartbeat', c'⟩ middle ⟨first, beaten⟩
          rcases beaten.same with ⟨standing, rfl⟩
          apply (ih { c with standing := standing } middle heartbeat').mono
          rintro c'' later ⟨second, beaten'⟩
          exact ⟨first ++ second, beaten.append beaten'⟩

theorem agree_beaten (interval : Duration) (question : Option String) :
    (agree c interval question).Keeps (calls (StoreCall.Sustains c.key c.pid c.ttl))
      (fun result later => ∃ outcomes, c.Beaten base outcomes result.2 later) base := by
  cases question with
  | none => exact ⟨[], .rest c base⟩
  | some question =>
      have confirms : (confirm c interval question).Keeps
          (calls (StoreCall.Sustains c.key c.pid c.ttl))
          (fun result later => ∃ outcomes, c.Beaten base outcomes result.2 later) base := by
        rw [confirm]
        split
        · exact ⟨[], .rest c base⟩
        · apply keeps_patience_bind.mpr
          intro most
          apply Program.keeps_bind.mpr
          apply (beatWhileWaiting_beaten c base _ most).mono
          exact fun c' later beaten => keeps_answer.mpr fun outcome => beaten
      apply Program.keeps_bind.mpr
      apply confirms.mono
      rintro ⟨failure | _ | _, c'⟩ later beaten <;> exact beaten

variable {α : Type}

/-- Withdrawing is a release, and ends with the failure that it withdraws for. -/
theorem withdraw_released (failure : Failure) :
    (withdraw ⟨true⟩ c failure : Procedure (Except Failure α × Claimant)).Keeps
      (calls (StoreCall.Concerns c.key c.pid c.ttl))
      (fun result later => result.1 = .error failure ∧
        ∃ released, c.Released base (released, result.2) later) base := by
  apply Program.keeps_bind.mpr
  apply (keeps_ofLock (LockProgram.keeps_of_allows (fun _ yields => yields.concerns)
    (Guard.drop_yields c base ⟨true⟩))).mono
  rintro ⟨guard, c'⟩ later (⟨done, -⟩ | released)
  · contradiction
  · exact ⟨rfl, released⟩

/-- Leaving is a release, and does not change how the operation has ended. -/
theorem leave_released (outcome : Except Failure α) :
    (leave ⟨true⟩ c outcome).Keeps (calls (StoreCall.Concerns c.key c.pid c.ttl))
      (fun result later => result.1 = outcome ∧
        ∃ released, c.Released base (released, result.2) later) base := by
  cases outcome with
  | error failure => exact withdraw_released c base failure
  | ok value =>
      apply Program.keeps_bind.mpr
      have releases : (Guard.release ⟨true⟩ c).Keeps
          (LockProgram.calls (StoreCall.Concerns c.key c.pid c.ttl))
          (fun result later => c.Released base (result.1, result.2.2) later) base := by
        apply Program.keeps_bind.mpr
        apply (c.release_released base).mono
        rintro ⟨outcome, c'⟩ later released
        exact released
      apply (keeps_ofLock releases).mono
      rintro ⟨failure | gone, guard, c'⟩ later released
      · exact keeps_note_bind.mpr ⟨rfl, _, released⟩
      · exact ⟨rfl, _, released⟩

end Procedure

end

end Leasehold
