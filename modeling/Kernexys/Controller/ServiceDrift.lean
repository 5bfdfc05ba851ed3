import Kernexys.Controller.Convergence

/-!
# Repairing an edited Service

The API server refuses a Service that has a session affinity config while its session affinity is
`None`.  `mutateService` sets the affinity to `None` and leaves the config as it finds it, so the
update that repairs a Service with a config is refused, and so is every retry.
-/

namespace Kernexys.Controller

/-- The rule of Service validation. -/
def AffinityRule (spec : ServiceSpec) : Prop :=
  spec.sessionAffinity = some .none → spec.sessionAffinityConfig = none

instance (spec : ServiceSpec) : Decidable (AffinityRule spec) :=
  inferInstanceAs (Decidable (_ → _))

/-- The verdict of the server's admission on a written object, of which only Services are validated
here. -/
def admission (validate : Service → Option ApiError) : (k : Kind) → k.Object → Option ApiError
  | .service, o => validate o
  | .deployment, _ => none
  | .modelDeployment, _ => none

/-- The API server with a validation of Services. -/
def serveValidated (validate : Service → Option ApiError) :
    (op : Op) → Cluster → op.Reply × Cluster
  | .create k o, c =>
    match admission validate k o with
    | some e => (.error e, c)
    | none => Cluster.serve (.create k o) c
  | .update k o, c =>
    match admission validate k o with
    | some e => (.error e, c)
    | none => Cluster.serve (.update k o) c
  | .get k key, c => Cluster.serve (.get k key) c
  | .updateStatus o, c => Cluster.serve (.updateStatus o) c
  | .now, c => Cluster.serve .now c

/-- The rule holds of a repaired Service exactly when the Service had no config. -/
theorem affinityRule_serviceSpec (md : ModelDeployment) (spec : ServiceSpec) :
    AffinityRule (serviceSpec md spec) ↔ spec.sessionAffinityConfig = none :=
  ⟨fun rule => rule rfl, fun absent _ => absent⟩

/-- The Service as the step wants it. -/
def repaired (md : ModelDeployment) (v : Service) : Service :=
  adopt (k := .service) md (childLabels md) (serviceSpec md) v

/-- Of the Services that the step writes, the server refuses those that break the rule, and only
those. -/
def EnforcesAffinity (md : ModelDeployment) (validate : Service → Option ApiError) : Prop :=
  ∀ v, validate (repaired md v) = none ↔ AffinityRule (repaired md v).spec

section Step

variable {md : ModelDeployment} {validate : Service → Option ApiError} {c : Cluster} {v : Service}

theorem mutateOwned_service (stored : c.object .service md.metadata.key = some v)
    (controlled : ControlledBy md v.metadata) :
    mutateOwned .service md (mutateService md) v = .ok (repaired md v) := by
  have key := c.keyed .service _ v (c.stored .service _ v stored)
  exact mutateOwned_eq_ok (k := .service) (childLabels md) (serviceSpec md)
    (congrArg NamespacedName.ns key) (Or.inr controlled)

theorem key_repaired (stored : c.object .service md.metadata.key = some v) :
    (repaired md v).metadata.key = md.metadata.key :=
  c.keyed .service _ v (c.stored .service _ v stored)

theorem serveValidated_get (stored : c.object .service md.metadata.key = some v) :
    serveValidated validate (.get .service md.metadata.key) c = (.ok v, c) :=
  Cluster.serve_get_of_stored stored

theorem serveValidated_update_of_none {o : Service} (admits : validate o = none) :
    serveValidated validate (.update .service o) c = Cluster.serve (.update .service o) c := by
  simp only [serveValidated, admission, admits]

theorem serveValidated_update_of_some {o : Service} {e : ApiError} (refuses : validate o = some e) :
    serveValidated validate (.update .service o) c = (.error e, c) := by
  simp only [serveValidated, admission, refuses]

/-- A Service without a config is repaired. -/
theorem run_reconcileService_admitted (enforces : EnforcesAffinity md validate)
    (stored : c.object .service md.metadata.key = some v) (controlled : ControlledBy md v.metadata)
    (absent : v.spec.sessionAffinityConfig = none) :
    ∃ s, ((reconcileService md).run (serveValidated validate) c).result = .ok s ∧
      ((reconcileService md).run (serveValidated validate) c).final.object .service
        md.metadata.key = some s ∧
      s.spec = serviceSpec md v.spec := by
  have ok := mutateOwned_service stored controlled
  by_cases fixed : v = repaired md v
  · rw [← fixed] at ok
    have run : (reconcileService md).run (serveValidated validate) c = ⟨_, .ok v, c⟩ :=
      run_createOrUpdate_of_fixed (serveValidated_get stored) ok
        (c.keyed .service _ v (c.stored .service _ v stored))
    rw [run]
    exact ⟨v, rfl, stored, congrArg Object.spec fixed⟩
  · have admits : validate (repaired md v) = none :=
      (enforces v).2 ((affinityRule_serviceSpec md v.spec).2 absent)
    have accepted := @Cluster.acceptUpdate_of_stored c .service (repaired md v) v
      ((key_repaired stored).symm ▸ stored) rfl
    have write : serveValidated validate (.update .service (repaired md v)) c = _ :=
      (serveValidated_update_of_none admits).trans (Cluster.serve_update_of_accepted accepted)
    have run :
        (reconcileService md).run (serveValidated validate) c = ⟨_, .ok _, c.put .service _⟩ :=
      run_createOrUpdate_of_update (serveValidated_get stored) ok (key_repaired stored) fixed write
    rw [run]
    refine ⟨_, rfl, ?_, rfl⟩
    have key := key_repaired stored
    rw [← key]
    exact c.put_object_self .service _

/-- A Service with a config is not, and the cluster stays as it is. -/
theorem run_reconcileService_refused (enforces : EnforcesAffinity md validate)
    (stored : c.object .service md.metadata.key = some v) (controlled : ControlledBy md v.metadata)
    (rule : AffinityRule v.spec) (config : v.spec.sessionAffinityConfig ≠ none) :
    ∃ e, validate (repaired md v) = some e ∧
      ((reconcileService md).run (serveValidated validate) c).result = .error e.message ∧
      ((reconcileService md).run (serveValidated validate) c).final = c := by
  have changed : v ≠ repaired md v := by
    intro fixed
    have affinity : v.spec.sessionAffinity = some .none := by
      rw [fixed]
      rfl
    exact config (rule affinity)
  have broken : validate (repaired md v) ≠ none := fun admits =>
    config ((affinityRule_serviceSpec md v.spec).1 ((enforces v).1 admits))
  obtain ⟨e, refuses⟩ := Option.ne_none_iff_exists'.1 broken
  have run : (reconcileService md).run (serveValidated validate) c = ⟨_, .error e.message, c⟩ :=
    run_createOrUpdate_of_update (serveValidated_get stored)
      (mutateOwned_service stored controlled) (key_repaired stored) changed
      (serveValidated_update_of_some refuses)
  refine ⟨e, refuses, ?_⟩
  rw [run]
  exact ⟨rfl, rfl⟩

end Step

/-- The cluster after some attempts to reconcile the Service. -/
def afterAttempts (validate : Service → Option ApiError) (md : ModelDeployment) (n : ℕ)
    (c : Cluster) : Cluster :=
  (fun c => ((reconcileService md).run (serveValidated validate) c).final)^[n] c

/-- On a server that refuses the Services which break the affinity rule, the repaired Service keeps
the rule, and the update is admitted, exactly when the edited Service has no session affinity
config; otherwise every attempt fails with the error of the validation. -/
theorem service_repair_iff (validate : Service → Option ApiError) (md : ModelDeployment)
    (c : Cluster) (v : Service) (enforces : EnforcesAffinity md validate)
    (stored : c.object .service md.metadata.key = some v) (controlled : ControlledBy md v.metadata)
    (rule : AffinityRule v.spec) :
    (AffinityRule (mutateService md v).spec ↔ v.spec.sessionAffinityConfig = none) ∧
      ((∃ s, ((reconcileService md).run (serveValidated validate) c).result = .ok s) ↔
        v.spec.sessionAffinityConfig = none) ∧
      (v.spec.sessionAffinityConfig ≠ none → ∃ e, validate (repaired md v) = some e ∧ ∀ n,
        ((reconcileService md).run (serveValidated validate) (afterAttempts validate md n c)).result =
          .error e.message) := by
  refine ⟨affinityRule_serviceSpec md v.spec, ⟨fun ⟨s, ok⟩ => ?_, fun absent => ?_⟩, fun config => ?_⟩
  · by_contra config
    obtain ⟨e, -, failed, -⟩ := run_reconcileService_refused enforces stored controlled rule config
    rw [failed] at ok
    cases ok
  · obtain ⟨s, ok, -⟩ := run_reconcileService_admitted enforces stored controlled absent
    exact ⟨s, ok⟩
  · obtain ⟨e, refuses, failed, same⟩ :=
      run_reconcileService_refused enforces stored controlled rule config
    refine ⟨e, refuses, fun n => ?_⟩
    rw [afterAttempts, Function.iterate_fixed same, failed]

/-- A Service of the ModelDeployment with an edited spec. -/
def editedService (spec : ServiceSpec) : Service where
  metadata :=
    { name := "sentiment", ns := "default"
      ownerReferences := [controllerReference sampleModelDeployment] }
  spec := spec
  status := ()

/-- A cluster with the edited Service. -/
def editedCluster (spec : ServiceSpec) : Cluster := Cluster.empty.put .service (editedService spec)

/-- The Service as the cluster stores it. -/
def storedService (spec : ServiceSpec) : Service :=
  Cluster.empty.stamp (k := .service) (editedService spec)

theorem editedService_controlled (spec : ServiceSpec) :
    (editedCluster spec).object .service sampleModelDeployment.metadata.key =
        some (storedService spec) ∧
      ControlledBy sampleModelDeployment (storedService spec).metadata :=
  ⟨Cluster.empty.put_object_self .service (editedService spec), _, rfl, by decide⟩

/-- A server that validates this rule alone. -/
def validateAffinity (o : Service) : Option ApiError :=
  if AffinityRule o.spec then
    none
  else
    some ⟨.other,
      "spec.sessionAffinityConfig: Forbidden: must not be set when session affinity is None"⟩

theorem validateAffinity_enforces (md : ModelDeployment) : EnforcesAffinity md validateAffinity :=
  fun _ => by simp [validateAffinity]

/-- Another client made the Service a load balancer. -/
theorem service_repair_iff_loadBalancer :
    ∃ s, ((reconcileService sampleModelDeployment).run (serveValidated validateAffinity)
      (editedCluster { type := some .loadBalancer })).result = .ok s := by
  obtain ⟨stored, controlled⟩ := editedService_controlled { type := some .loadBalancer }
  exact (service_repair_iff validateAffinity sampleModelDeployment _ _
    (validateAffinity_enforces _) stored controlled (by decide)).2.1.2 rfl

/-- Another client turned session affinity on. -/
def clientIPSpec : ServiceSpec :=
  { sessionAffinity := some .clientIP, sessionAffinityConfig := some ⟨some 10800⟩ }

theorem clientIP_not_repaired :
    (editedCluster clientIPSpec).object .service sampleModelDeployment.metadata.key =
        some (storedService clientIPSpec) ∧
      ControlledBy sampleModelDeployment (storedService clientIPSpec).metadata ∧
      AffinityRule (storedService clientIPSpec).spec ∧
      ¬ AffinityRule (mutateService sampleModelDeployment (storedService clientIPSpec)).spec := by
  obtain ⟨stored, controlled⟩ := editedService_controlled clientIPSpec
  exact ⟨stored, controlled, by decide, by decide⟩

end Kernexys.Controller
