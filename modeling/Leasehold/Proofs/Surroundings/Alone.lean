import Leasehold.Proofs.Store.Lapse
import Leasehold.Proofs.Surroundings.Files

/-!
# A store left alone

Where nobody else makes calls to a store, every call meets the store as the last one
has left it. So what a run does to the store is what its own visits do, one after the
other, and a record that all of them spare lapses at most.
-/

namespace Leasehold

open Surroundings

/-- Others who leave the store alone, and change no files but some of their own. -/
def alone (owned : Place → Prop) : Interference :=
  ⟨fun keyspace keyspace' => keyspace' = keyspace, Tree.Varies owned⟩

/-- That visits, the last one first, each met the store as the one before has left it. -/
def Chained (start : Keyspace) : List Visit → Keyspace → Prop
  | [], stop => stop = start
  | visit :: earlier, stop => Chained start earlier visit.met ∧ stop = visit.left

variable {owned : Place → Prop} {start stop : Keyspace} {visits later : List Visit}
  {key : String}

/-- A chain with a visit in it is cut there. -/
theorem Chained.of_append {visit : Visit}
    (chained : Chained start (later ++ visit :: visits) stop) :
    Chained start visits visit.met ∧ Chained visit.left later stop := by
  induction later generalizing stop with
  | nil =>
      rcases chained with ⟨before, rfl⟩
      exact ⟨before, rfl⟩
  | cons other later ih =>
      rcases chained with ⟨before, rfl⟩
      exact ⟨(ih before).1, (ih before).2, rfl⟩

/-- A visit lets a record that it spares lapse at most. -/
theorem Visit.lapses_of_spares {visit : Visit} (spares : visit.call.Spares key) :
    Keyspace.Lapses key [visit.time] visit.met visit.left := by
  unfold Visit.left
  split
  · exact Keyspace.lapses_of_spares spares visit.met visit.time
  · exact .refl _ _ _

/-- Where each visit lets a record lapse at most, so do all of them. -/
theorem Chained.lapses_of_each (chained : Chained start visits stop)
    (each : ∀ visit ∈ visits, Keyspace.Lapses key [visit.time] visit.met visit.left) :
    Keyspace.Lapses key (visits.map Visit.time) start stop := by
  induction visits generalizing stop with
  | nil =>
      cases chained
      exact .refl _ _ _
  | cons visit earlier ih =>
      rcases chained with ⟨before, rfl⟩
      rw [List.forall_mem_cons] at each
      have first : Keyspace.Lapses key (visit.time :: earlier.map Visit.time) start visit.met :=
        (ih before each.2).mono fun _ => List.mem_cons_of_mem _
      exact first.trans (each.1.mono fun time member =>
        List.mem_singleton.mp member ▸ List.mem_cons_self)

/-- So do visits that all spare it. -/
theorem Chained.lapses (chained : Chained start visits stop)
    (spares : ∀ visit ∈ visits, visit.call.Spares key) :
    Keyspace.Lapses key (visits.map Visit.time) start stop :=
  chained.lapses_of_each fun visit member => visit.lapses_of_spares (spares visit member)

namespace Surroundings

variable {s s' : Surroundings} {α : Type} {procedure : Procedure α} {result : α}

theorem leads_besides {request : Request} {reply : request.Reply}
    (led : Leads (alone owned) request reply s s') : Leads (besides owned) request reply s s' := by
  obtain ⟨keyspace, tree, -, varies, answers⟩ := led
  exact ⟨keyspace, tree, trivial, varies, answers⟩

/-- To be left alone is one way for others to behave. -/
theorem runs_besides (ran : procedure.Runs (Leads (alone owned)) s result s') :
    procedure.Runs (Leads (besides owned)) s result s' :=
  ran.mono fun _ _ _ _ => leads_besides

/-- That the visits since earlier surroundings are chained. -/
def Links (s s' : Surroundings) : Prop :=
  ∃ visits, s'.visits = visits ++ s.visits ∧ Chained s.keyspace visits s'.keyspace

theorem Links.leads {t : Surroundings} (links : Links s s') {request : Request}
    {reply : request.Reply} (led : Leads (alone owned) request reply s' t) : Links s t := by
  rcases links with ⟨visits, same, chained⟩
  rcases leads_cases led with ⟨met, time, call, fault?, -, rfl, left, visited⟩ | ⟨kept, unvisited⟩
  · refine ⟨⟨s'.keyspace, time, call, fault?⟩ :: visits, ?_, chained, left⟩
    rw [visited, same, List.cons_append]
  · refine ⟨visits, unvisited.trans same, ?_⟩
    rw [kept]
    exact chained

/-- The visits of a run that is left alone are chained. -/
theorem links_of_runs (ran : procedure.Runs (Leads (alone owned)) s result s') : Links s s' := by
  have any := Program.only_of_forall (fun _ => trivial : ∀ request, True) procedure
  exact any.invariant (fun _ _ _ _ _ led links => links.leads led) ran ⟨[], rfl, rfl⟩

/-- The visits of a run are those that were added to the earlier ones. -/
theorem Links.chained (links : Links s s') (same : s'.visits = visits ++ s.visits) :
    Chained s.keyspace visits s'.keyspace := by
  rcases links with ⟨visits', same', chained⟩
  rw [same] at same'
  rw [List.append_cancel_right same']
  exact chained

end Surroundings

end Leasehold
