import Leasehold.Proofs.Lock.Course

/-!
# What the operations of a claimant come to

For each operation there is a relation between its result, the claimant that it
leaves and the calls that it has made, as far as they matter for a lease. Above all,
taking and keeping the lock goes with a renewal as the last call, and a failure is
that of the last call.

From these follows what is known of a claimant between two operations: if it takes
the lock for its own, it has a lease.
-/

namespace Leasehold

open LockRecord

namespace Claimant

/-! ## How an operation ends -/

/-- How an attempt to take the lock ends, with the calls made since `base`. -/
inductive Acquired (c : Claimant) (base : History) :
    Except Failure Unit × Claimant → History → Prop
  | held (held : c.standing = .heldBySelf) : Acquired c base (.ok (), c) base
  | created (time : Instant) :
      Acquired c base (.ok (), { c with standing := .heldBySelf })
        (⟨.create c.key (ownedBy c.pid) c.ttl, .ok true, time⟩ :: base)
  | refused (failure : Failure) {standing : Standing} (without : standing ≠ .heldBySelf)
      {later : History} (quiet : History.Quiet c.key base later) :
      Acquired c base (.error failure, { c with standing := standing }) later

/-- How a renewal ends, with the calls made since `base`. -/
inductive Renewed (c : Claimant) (base : History) :
    Except Failure Renewal × Claimant → History → Prop
  | extended (time : Instant) {earlier : History} (quiet : History.Quiet c.key base earlier) :
      Renewed c base (.ok .extended, c)
        (⟨.expire c.key c.ttl (isOwnedBy c.pid), .ok true, time⟩ :: earlier)
  | reacquired (time : Instant) {earlier : History} (quiet : History.Quiet c.key base earlier) :
      Renewed c base (.ok .reacquired, c)
        (⟨.create c.key (ownedBy c.pid) c.ttl, .ok true, time⟩ :: earlier)
  | lost (owner : Option Pid) {later : History} (quiet : History.Quiet c.key base later) :
      Renewed c base (.ok (.lost owner), { c with standing := .heldByOther owner }) later
  | notHeld (without : c.standing ≠ .heldBySelf) : Renewed c base (.ok .notHeld, c) base
  | failed (call : StoreCall) (failure : Failure) (time : Instant) {earlier : History}
      (quiet : History.Quiet c.key base earlier) :
      Renewed c base (.error failure, c) (⟨call, .error failure, time⟩ :: earlier)

/-! ## The operations end so -/

variable {c : Claimant} {base later : History}

/-- An attempt that does not take the lock has made quiet calls only. -/
theorem Attempted.acquired {result : Except Failure Unit × Claimant}
    (attempted : c.Attempted base result later) : c.Acquired base result later := by
  cases attempted with
  | held held => exact .held held
  | created time => exact .created time
  | taken expires fields first second third =>
      exact .refused _ (by simp) (.cons rfl rfl (.cons rfl rfl (.cons rfl rfl .refl)))
  | armed lasts first second third =>
      exact .refused _ (by simp) (.cons rfl rfl (.cons rfl rfl (.cons rfl rfl .refl)))
  | changed lasts first second third =>
      exact .refused _ (by simp) (.cons rfl rfl (.cons rfl rfl (.cons rfl rfl .refl)))
  | failed without call failure time quiet =>
      exact .refused failure without
        (.cons (MadeCall.renewal?_error ..) (MadeCall.deletes_error ..) quiet)

theorem Renewing.renewed {result : Except Failure Renewal × Claimant}
    (renewing : c.Renewing base result later) : c.Renewed base result later := by
  cases renewing with
  | notHeld without => exact .notHeld (by rcases without with free | stale <;> simp [*])
  | @known owner known =>
      have same : c = { c with standing := .heldByOther owner } := by rw [← known]
      rw [same]
      exact .lost _ .refl
  | extended held own first second => exact .extended second (.cons rfl rfl .refl)
  | foreign held others time => exact .lost _ (.cons rfl rfl .refl)
  | reacquired held lapsed time => exact .reacquired time lapsed.quiet
  | overtaken held lapsed fields first second =>
      exact .lost _ (.cons rfl rfl (.cons rfl rfl lapsed.quiet))
  | failed held call failure time quiet => exact .failed call failure time quiet

variable (c base)

theorem acquire_keeps :
    c.acquire.Keeps (LockProgram.calls (StoreCall.ActsFor c.key c.pid)) (c.Acquired base) base :=
  (LockProgram.keeps_of_allows (fun _ contends => (StoreCall.Sustains.contend contends).actsFor)
    (c.acquire_attempted base)).mono fun _ _ attempted => attempted.acquired

theorem renew_keeps :
    c.renew.Keeps (LockProgram.calls (StoreCall.ActsFor c.key c.pid)) (c.Renewed base) base :=
  (LockProgram.keeps_of_allows (fun _ sustains => sustains.actsFor)
    (c.renew_renewing base)).mono fun _ _ renewing => renewing.renewed

theorem release_keeps :
    c.release.Keeps (LockProgram.calls (StoreCall.ActsFor c.key c.pid)) (c.Released base) base :=
  LockProgram.keeps_of_allows (fun _ concerns => concerns.actsFor) (c.release_released base)

/-! ## Between two operations -/

/-- That a claimant acts for an owner, with the lifetime it always had, and if it
takes the lock for its own, has a lease. -/
structure Fits (c : Claimant) (key : String) (owner : Pid) (ttl : Duration) (history : History) :
    Prop where
  key_eq : c.key = key
  pid_eq : c.pid = owner
  ttl_eq : c.ttl = ttl
  lease : c.standing = .heldBySelf → history.HasLease key

variable {c base} {key : String} {owner : Pid} {ttl : Duration}

/-- Calls that spare the record leave a claimant in order. -/
theorem Fits.cons_of_spares (fits : c.Fits key owner ttl base) {made : MadeCall}
    (spares : made.call.Spares key) : c.Fits key owner ttl (made :: base) := by
  constructor
  · exact fits.key_eq
  · exact fits.pid_eq
  · exact fits.ttl_eq
  · intro held
    rw [History.hasLease_cons_iff_of_spares spares]
    exact fits.lease held

theorem Acquired.fits {result : Except Failure Unit × Claimant} (fits : c.Fits key owner ttl base)
    (acquired : c.Acquired base result later) : result.2.Fits key owner ttl later := by
  rcases fits with ⟨rfl, rfl, rfl, lease⟩
  cases acquired with
  | held held => exact ⟨rfl, rfl, rfl, lease⟩
  | created time =>
      exact ⟨rfl, rfl, rfl, fun _ => History.hasLease_of_renewal MadeCall.renewal?_claim⟩
  | refused failure without quiet => exact ⟨rfl, rfl, rfl, fun held => absurd held without⟩

theorem Renewed.fits {result : Except Failure Renewal × Claimant} (fits : c.Fits key owner ttl base)
    (renewed : c.Renewed base result later) : result.2.Fits key owner ttl later := by
  rcases fits with ⟨rfl, rfl, rfl, lease⟩
  cases renewed with
  | extended time quiet =>
      exact ⟨rfl, rfl, rfl, fun _ => History.hasLease_of_renewal MadeCall.renewal?_refresh⟩
  | reacquired time quiet =>
      exact ⟨rfl, rfl, rfl, fun _ => History.hasLease_of_renewal MadeCall.renewal?_claim⟩
  | lost owner quiet => exact ⟨rfl, rfl, rfl, fun held => absurd held (by simp)⟩
  | notHeld without => exact ⟨rfl, rfl, rfl, fun held => absurd held without⟩
  | @failed call failure time earlier quiet =>
      have kept (held : c.standing = .heldBySelf) :
          History.HasLease c.key (⟨call, .error failure, time⟩ :: earlier) := by
        rw [History.hasLease_cons_iff_of_error, quiet.hasLease_iff]
        exact lease held
      exact ⟨rfl, rfl, rfl, kept⟩

theorem Released.fits {result : Except Failure Bool × Claimant} (fits : c.Fits key owner ttl base)
    (released : c.Released base result later) : result.2.Fits key owner ttl later := by
  rcases fits with ⟨rfl, rfl, rfl, lease⟩
  cases released with
  | skipped without => exact ⟨rfl, rfl, rfl, lease⟩
  | deleted held gone time => exact ⟨rfl, rfl, rfl, fun held => absurd held (by simp)⟩
  | failed held failure time =>
      have kept (held : c.standing = .heldBySelf) :
          History.HasLease c.key
            (⟨.delete c.key (isOwnedBy c.pid), .error failure, time⟩ :: base) := by
        rw [History.hasLease_cons_iff_of_error]
        exact lease held
      exact ⟨rfl, rfl, rfl, kept⟩

end Claimant

end Leasehold
