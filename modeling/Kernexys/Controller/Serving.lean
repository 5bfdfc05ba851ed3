import Kernexys.Controller.StatusRuns

/-!
# What an Available status stands for

A status stays as it is while the spec changes, so an Available status speaks of the version from which
it was computed.  In every run it gives the address of the Service, and the model and version of that
workload, all of whose replicas are ready (`servingInv_of_reachable`).
-/

namespace Kernexys.Controller

/-- The address of a Service. -/
def serviceURL (key : NamespacedName) : String :=
  "http://" ++ key.name ++ "." ++ key.ns ++ ".svc.cluster.local"

theorem serviceURL_ne_empty (key : NamespacedName) : serviceURL key ≠ "" := by
  simp [serviceURL, String.append_assoc]

/-- The status of `md` leads to the workload of `old`, all of whose replicas are ready. -/
structure Serving (old md : ModelDeployment) : Prop where
  endpoint : md.status.endpoint = serviceURL md.metadata.key
  replicas : md.status.readyReplicas = desiredReplicaCount old
  generation : md.status.observedGeneration = old.metadata.generation
  model : md.status.activeModel = old.spec.model.name
  version : md.status.activeVersion = old.spec.model.version
  current : md.metadata.generation = md.status.observedGeneration → md.spec = old.spec

/-- Every Available status leads to the workload of an earlier version. -/
def ServingInv (c : Cluster) : Prop :=
  ∀ key, ∀ md ∈ c.history .modelDeployment key, Has md.status conditionAvailable .true →
    ∃ old ∈ c.history .modelDeployment key, Serving old md

theorem servingInv_of_unwritten {c : Cluster} (unwritten : Unwritten c) : ServingInv c := by
  rintro key md mem ⟨condition, written, -⟩
  rw [(unwritten key md mem).1] at written
  cases written

theorem ServingInv.put {c : Cluster} (inv : ServingInv c) {md : ModelDeployment}
    (serving : Has md.status conditionAvailable .true →
      ∃ old ∈ c.history .modelDeployment md.metadata.key, Serving old md) :
    ServingInv (c.put .modelDeployment md) := by
  intro key md' mem available
  have grows := c.grows_put .modelDeployment md
  by_cases same : key = md.metadata.key
  · subst same
    rw [Cluster.put_history_self c .modelDeployment md] at mem
    rcases List.mem_cons.1 mem with rfl | mem
    · obtain ⟨old, before, leads⟩ := serving available
      exact ⟨old, grows _ _ old before, leads.endpoint, leads.replicas, leads.generation,
        leads.model, leads.version, leads.current⟩
    · obtain ⟨old, before, leads⟩ := inv _ md' mem available
      exact ⟨old, grows _ _ old before, leads⟩
  · rw [Cluster.put_history_ne c (k := .modelDeployment) md fun _ => same] at mem
    obtain ⟨old, before, leads⟩ := inv key md' mem available
    exact ⟨old, grows _ _ old before, leads⟩

theorem change_servingInv {c c' : Cluster} (change : Change c c') (status : StatusInv c)
    (inv : ServingInv c) : ServingInv c' := by
  cases change with
  | none => exact inv
  | outside evolves =>
    cases evolves with
    | child o child =>
      intro key md mem available
      rw [Cluster.put_history_ne c o fun eq => absurd eq.symm child] at mem ⊢
      exact inv key md mem available
    | delete key child => exact inv
    | create md absent generation unwritten =>
      refine inv.put ?_
      rintro ⟨condition, written, -⟩
      rw [unwritten] at written
      cases written
    | update before md stored generation kept =>
      have mem := c.stored _ _ _ stored
      have key : before.metadata.key = md.metadata.key := c.keyed .modelDeployment _ before mem
      have observed := (status _ before mem).1
      refine inv.put fun available => ?_
      rw [kept] at available
      obtain ⟨old, earlier, leads⟩ := inv _ before mem available
      refine ⟨old, earlier, ?_, ?_, ?_, ?_, ?_, fun upToDate => ?_⟩
      · rw [kept, leads.endpoint, key]
      · rw [kept, leads.replicas]
      · rw [kept, leads.generation]
      · rw [kept, leads.model]
      · rw [kept, leads.version]
      · rw [kept] at upToDate
        rcases generation with ⟨generation, spec⟩ | higher
        · rw [spec]
          exact leads.current (generation.symm.trans upToDate)
        · omega
  | @status order md body desired error now stored ends seen =>
    have mem := c.stored _ _ _ stored
    have written := ends.written (status _ md mem).2 seen ⟨.get .modelDeployment md.metadata.key, .ok md⟩ now
    refine inv.put fun available => ⟨md, mem, ?_⟩
    obtain ⟨ready, replicas, endpoint, model, version⟩ := written.available available
    exact ⟨endpoint, ready.trans replicas, written.generation, model, version, fun _ => rfl⟩

theorem servingInv_of_reachable {c₀ : Cluster} {c : Config Cluster Job Op Op.Reply (Option String)}
    (unwritten : Unwritten c₀) (reach : (controllerHost Evolves).Reachable c₀ c) :
    ServingInv c.shared :=
  reach.invariant (I := fun c => ServingInv c.shared) (servingInv_of_unwritten unwritten)
    fun _ _ reach inv next =>
      change_servingInv (step_change reach next) (statusInv_of_reachable unwritten reach) inv

/-- A run of the controller ends with an Available status that is stored. -/
theorem exists_available : ∃ c md, (controllerHost Evolves).Reachable rolledOutCluster c ∧
    md ∈ c.shared.history .modelDeployment md.metadata.key ∧
      Has md.status conditionAvailable .true := by
  obtain ⟨c, job, log, m, next, reach, running, changed, available⟩ := rolledOutCluster_writes
  have executed := Cluster.executes_serve (.updateStatus m) c.shared
  have reach' := reach.step (.call 0 running (r := (Cluster.serve (.updateStatus m) c.shared).1)
    (t := (Cluster.serve (.updateStatus m) c.shared).2) executed)
  rcases executed with ⟨same, -⟩ | ⟨v, accepted, same, -⟩
  · exact absurd same changed
  · obtain ⟨order, md, body, desired, error, now, stored, -, rfl, -⟩ :=
      accepted_status reach running accepted
    refine ⟨_, c.shared.stamp (k := .modelDeployment) v, reach', ?_, available⟩
    show _ ∈ (Cluster.serve _ c.shared).2.history .modelDeployment v.metadata.key
    rw [same, Cluster.put_history_self]
    exact List.mem_cons_self

end Kernexys.Controller
