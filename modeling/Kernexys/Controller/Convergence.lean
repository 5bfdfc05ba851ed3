import Kernexys.Controller.ApiServer

/-!
# Convergence and idempotence of Reconcile

One reconcile against a server that accepts its writes brings both children and the status to the
values computed from the spec, and a second one then writes nothing.  Each child step ends in an
object that its own mutate function leaves alone (`mutateOwned_fixed`), and so does the status
(`observedStatus_fixed`).
-/

namespace Kernexys.Controller

open Cluster (serve)

section Child

variable {k : Kind} {modelDeployment : ModelDeployment} {labels : StringMap} {h : k.Spec → k.Spec}

theorem validateOwner_of_ns {object : ObjectMeta} (same : object.ns = modelDeployment.metadata.ns) :
    validateOwner modelDeployment object = none := by
  unfold validateOwner
  rw [same]
  split_ifs <;> simp_all

/-- The object with the reference of its owner, the labels and the changed spec. -/
def adopt (modelDeployment : ModelDeployment) (labels : StringMap) (h : k.Spec → k.Spec)
    (object : k.Object) : k.Object :=
  relabel labels h
    { object with
      metadata :=
        { object.metadata with
          ownerReferences := upsertOwnerRef (controllerReference modelDeployment)
            object.metadata.ownerReferences } }

/-- What the mutate function makes of an object that is new or controlled by the owner. -/
theorem mutateOwned_eq_ok (labels : StringMap) (h : k.Spec → k.Spec) {object : k.Object}
    (ns : object.metadata.ns = modelDeployment.metadata.ns)
    (own : (object.metadata.resourceVersion = none ∧ getControllerOf object.metadata = none) ∨
      ControlledBy modelDeployment object.metadata) :
    mutateOwned k modelDeployment (relabel labels h) object =
      .ok (adopt modelDeployment labels h object) := by
  rw [mutateOwned, ensureControllerOwnership_eq_ok_iff.2 ⟨validateOwner_of_ns ns, own, rfl⟩]
  rfl

/-- The stored result of the mutate function is left alone by it. -/
theorem mutateOwned_fixed (idem : ∀ spec, h (h spec) = h spec) {object result stored : k.Object}
    (ok : mutateOwned k modelDeployment (relabel labels h) object = .ok result)
    (ns : stored.metadata.ns = object.metadata.ns)
    (owners : stored.metadata.ownerReferences = result.metadata.ownerReferences)
    (sameLabels : stored.metadata.labels = result.metadata.labels)
    (spec : stored.spec = result.spec) :
    mutateOwned k modelDeployment (relabel labels h) stored = .ok stored := by
  unfold mutateOwned at ok
  split at ok
  · cases ok
  · rename_i metadata owned
    obtain rfl := Except.ok.inj ok
    have again := (ensureControllerOwnership_again owned ns owners).2
    rw [mutateOwned, again]
    simp only [relabel] at sameLabels spec ⊢
    rw [← sameLabels, spec, idem, ← spec]

/-- What a child step leaves: an object that its mutate function leaves alone, with the labels and
the spec computed from the object before. -/
structure ChildDone (k : Kind) (modelDeployment : ModelDeployment) (labels : StringMap)
    (h : k.Spec → k.Spec) (object : k.Object) (c c' : Cluster) (v : k.Object) : Prop where
  stored : c'.object k object.metadata.key = some v
  others : ∀ k' key, (k' = k → key ≠ object.metadata.key) → c'.object k' key = c.object k' key
  fixed : mutateOwned k modelDeployment (relabel labels h) v = .ok v
  labels : v.metadata.labels = labels
  spec : v.spec = h ((c.object k object.metadata.key).getD object).spec

theorem mutate_eq_ok {f : k.Object → Except String k.Object} {object result : k.Object}
    (ok : f object = .ok result) {key : NamespacedName} (same : result.metadata.key = key) :
    mutate f key object = .ok result := by
  rw [mutate, ok]
  exact if_pos same

section Server

variable {server : (op : Op) → Cluster → op.Reply × Cluster} {f : k.Object → Except String k.Object}
  {object existing : k.Object} {c : Cluster}

/-- The child step on an object that it leaves alone reads it and writes nothing. -/
theorem run_createOrUpdate_of_fixed
    (read : server (.get k object.metadata.key) c = (.ok existing, c)) (fixed : f existing = .ok existing)
    (key : existing.metadata.key = object.metadata.key) :
    (createOrUpdate k object f).run server c =
      ⟨[⟨.get k object.metadata.key, .ok existing⟩], .ok existing, c⟩ := by
  unfold createOrUpdate
  simp only [Program.perform_bind, mutate_eq_ok fixed key, if_true, Program.pure_eq_ret,
    Program.run_call_of_serve server read, Program.run_ret]

/-- The child step on an object that it has to change ends as the update does. -/
theorem run_createOrUpdate_of_update {result : k.Object} {reply : Except ApiError k.Object}
    {c' : Cluster} (read : server (.get k object.metadata.key) c = (.ok existing, c))
    (ok : f existing = .ok result) (key : result.metadata.key = object.metadata.key)
    (changed : existing ≠ result) (write : server (.update k result) c = (reply, c')) :
    (createOrUpdate k object f).run server c =
      ⟨[⟨.get k object.metadata.key, .ok existing⟩, ⟨.update k result, reply⟩],
        reply.mapError ApiError.message, c'⟩ := by
  unfold createOrUpdate
  simp only [Program.perform_bind, mutate_eq_ok ok key, changed, if_false, Program.pure_eq_ret,
    Program.run_call_of_serve server read, Program.run_call_of_serve server write]
  cases reply <;> rfl

end Server

/-- A stored object that the child step leaves alone. -/
theorem run_createOrUpdate_fixed {f : k.Object → Except String k.Object} (object : k.Object)
    {v : k.Object} {c : Cluster} (stored : c.object k object.metadata.key = some v)
    (fixed : f v = .ok v) :
    (createOrUpdate k object f).run serve c =
      ⟨[⟨.get k object.metadata.key, .ok v⟩], .ok v, c⟩ :=
  run_createOrUpdate_of_fixed (Cluster.serve_get_of_stored stored) fixed
    (c.keyed k _ v (c.stored k _ v stored))

/-- The child step on a name that is free. -/
theorem run_createOrUpdate_absent {f : k.Object → Except String k.Object}
    {object result v : k.Object} {c : Cluster} (absent : c.object k object.metadata.key = none)
    (ok : f object = .ok result) (key : result.metadata.key = object.metadata.key)
    (accepted : c.acceptCreate k result = some v) :
    (createOrUpdate k object f).run serve c =
      ⟨[⟨.get k object.metadata.key, .error Cluster.notFoundError⟩,
        ⟨.create k result, .ok (c.stamp v)⟩], .ok (c.stamp v), c.put k v⟩ := by
  unfold createOrUpdate
  simp only [Program.perform_bind, Cluster.notFoundError, mutate_eq_ok ok key, ne_eq,
    not_true_eq_false, if_false, Program.pure_eq_ret, Program.run_ret,
    Program.run_call_of_serve serve (Cluster.serve_get_of_absent absent),
    Program.run_call_of_serve serve (Cluster.serve_create_of_accepted accepted)]

/-- The child step on an object that its mutate function changes. -/
theorem run_createOrUpdate_changed {f : k.Object → Except String k.Object}
    {object existing result v : k.Object} {c : Cluster}
    (stored : c.object k object.metadata.key = some existing) (ok : f existing = .ok result)
    (key : result.metadata.key = object.metadata.key) (changed : existing ≠ result)
    (accepted : c.acceptUpdate k result = some v) :
    (createOrUpdate k object f).run serve c =
      ⟨[⟨.get k object.metadata.key, .ok existing⟩, ⟨.update k result, .ok (c.stamp v)⟩],
        .ok (c.stamp v), c.put k v⟩ :=
  run_createOrUpdate_of_update (Cluster.serve_get_of_stored stored) ok key changed
    (Cluster.serve_update_of_accepted accepted)

/-- Storing a version that differs from the result of the mutate function in no field that the
function looks at. -/
theorem childDone_put (idem : ∀ spec, h (h spec) = h spec) {object before result v : k.Object}
    {c : Cluster} (prior : (c.object k object.metadata.key).getD object = before)
    (ns : before.metadata.ns = object.metadata.ns)
    (ok : mutateOwned k modelDeployment (relabel labels h) before = .ok result)
    (key : v.metadata.key = object.metadata.key)
    (owners : v.metadata.ownerReferences = result.metadata.ownerReferences)
    (sameLabels : v.metadata.labels = labels) (spec : v.spec = h before.spec)
    (resultLabels : result.metadata.labels = labels) (resultSpec : result.spec = h before.spec) :
    ChildDone k modelDeployment labels h object c (c.put k v) (c.stamp v) := by
  refine ⟨?_, fun k' key' ne => ?_, ?_, sameLabels, ?_⟩
  · rw [← key]
    exact c.put_object_self k v
  · rw [← key] at ne
    exact c.put_object_ne v ne
  · refine mutateOwned_fixed idem ok ?_ owners (sameLabels.trans resultLabels.symm)
      (spec.trans resultSpec.symm)
    rw [ns]
    exact congrArg NamespacedName.ns key
  · rw [prior]
    exact spec

/-- A child step on a name that is free or taken by an object the owner controls. -/
theorem run_child (modelDeployment : ModelDeployment) (labels : StringMap)
    (idem : ∀ spec, h (h spec) = h spec) (object : k.Object) {c : Cluster}
    (ns : object.metadata.ns = modelDeployment.metadata.ns)
    (new : object.metadata.resourceVersion = none ∧ getControllerOf object.metadata = none)
    (own : ∀ v, c.object k object.metadata.key = some v →
      ControlledBy modelDeployment v.metadata) :
    ∃ log v c', (createOrUpdate k object (mutateOwned k modelDeployment (relabel labels h))).run
        serve c = ⟨log, .ok v, c'⟩ ∧ ChildDone k modelDeployment labels h object c c' v := by
  cases found : c.object k object.metadata.key with
  | none =>
    have ok := mutateOwned_eq_ok labels h ns (Or.inl new)
    have accepted := c.acceptCreate_of_absent (o := adopt modelDeployment labels h object) found
    exact ⟨_, _, _, run_createOrUpdate_absent found ok rfl accepted,
      childDone_put idem (by rw [found]; rfl) rfl ok rfl rfl rfl rfl rfl rfl⟩
  | some existing =>
    have key := c.keyed k _ existing (c.stored k _ existing found)
    have sameNs : existing.metadata.ns = object.metadata.ns := congrArg NamespacedName.ns key
    have ok := mutateOwned_eq_ok labels h (sameNs.trans ns)
      (Or.inr (own existing found))
    by_cases changed : existing = adopt modelDeployment labels h existing
    · rw [← changed] at ok
      refine ⟨_, existing, c, run_createOrUpdate_fixed object found ok, found, fun _ _ _ => rfl, ok, ?_, ?_⟩
      · rw [changed]
        rfl
      · rw [found, Option.getD_some]
        exact congrArg Object.spec changed
    · have named : (adopt modelDeployment labels h existing).metadata.key = object.metadata.key := key
      have accepted := @Cluster.acceptUpdate_of_stored c k (adopt modelDeployment labels h existing)
        existing (named ▸ found) rfl
      exact ⟨_, _, _, run_createOrUpdate_changed found ok named changed accepted,
        childDone_put idem (by rw [found]; rfl) sameNs ok key rfl rfl rfl rfl rfl⟩

end Child

/-! ## The status -/

/-- The status computed once is computed again from itself, at any later time. -/
theorem observedStatus_fixed (modelDeployment : ModelDeployment) {again : ModelDeployment}
    {deployment : Deployment}
    {service : Service} (now now' : String → ℤ) (spec : again.spec = modelDeployment.spec)
    (generation : again.metadata.generation = modelDeployment.metadata.generation)
    (status : again.status = observedStatus modelDeployment deployment service now) :
    observedStatus again deployment service now' = again.status := by
  have count : desiredReplicaCount again = desiredReplicaCount modelDeployment := by
    rw [desiredReplicaCount, desiredReplicaCount, spec]
  have report : observedReport again deployment = observedReport modelDeployment deployment := by
    simp only [observedReport, count]
  rw [observedStatus_eq] at status
  have fields : observedFields again deployment service again.status = again.status := by
    rw [status]
    simp only [observedFields, count, generation, spec]
    split_ifs <;> rfl
  rw [observedStatus_eq, fields, report, generation]
  refine Report.Shown.write_eq ?_ now'
  rw [status]
  exact Report.shown_write _ _ _ _

/-- The status step on a status that is computed again leaves it alone. -/
theorem run_updateStatusIfChanged_same {modelDeployment : ModelDeployment}
    {desired : ModelDeploymentStatus} {c : Cluster} (same : desired = modelDeployment.status) :
    (updateStatusIfChanged modelDeployment desired).run serve c = ⟨[], none, c⟩ := by
  simp [updateStatusIfChanged, same]

/-- The status step on a status that differs writes it. -/
theorem run_updateStatusIfChanged_changed {modelDeployment : ModelDeployment}
    {desired : ModelDeploymentStatus} {c : Cluster} {key : NamespacedName}
    (stored : c.object .modelDeployment key = some modelDeployment)
    (different : modelDeployment.status ≠ desired) :
    (updateStatusIfChanged modelDeployment desired).run serve c =
      ⟨[⟨.updateStatus { modelDeployment with status := desired }, .ok (c.stamp
        (k := .modelDeployment) { modelDeployment with status := desired })⟩], none,
        c.put .modelDeployment { modelDeployment with status := desired }⟩ := by
  have named := c.keyed _ key _ (c.stored _ _ _ stored)
  have write : serve (.updateStatus { modelDeployment with status := desired }) c =
      (.ok (c.stamp (k := .modelDeployment) { modelDeployment with status := desired }),
        c.put .modelDeployment { modelDeployment with status := desired }) := by
    simp only [serve, Cluster.acceptStatus, named, stored, if_true, Cluster.write]
  simp only [updateStatusIfChanged, different, if_false, Program.perform_bind,
    Program.run_call_of_serve serve write, Program.pure_eq_ret, Program.run_ret]

/-- The status step stores the desired status and changes nothing else. -/
theorem run_updateStatusIfChanged {modelDeployment : ModelDeployment}
    (desired : ModelDeploymentStatus) {c : Cluster} {key : NamespacedName}
    (stored : c.object .modelDeployment key = some modelDeployment) :
    ∃ log c', (updateStatusIfChanged modelDeployment desired).run serve c = ⟨log, none, c'⟩ ∧
      (∃ version, c'.object .modelDeployment key = some
        { modelDeployment with
          metadata := { modelDeployment.metadata with resourceVersion := version }
          status := desired }) ∧
      ∀ k' key', k' ≠ .modelDeployment → c'.object k' key' = c.object k' key' := by
  by_cases same : modelDeployment.status = desired
  · refine ⟨[], c, run_updateStatusIfChanged_same same.symm,
      ⟨modelDeployment.metadata.resourceVersion, ?_⟩, fun _ _ _ => rfl⟩
    rw [stored, ← same]
  · refine ⟨_, _, run_updateStatusIfChanged_changed stored same, ⟨some c.nextVersion, ?_⟩,
      fun k' key' ne => c.put_object_ne _ fun eq => absurd eq ne⟩
    rw [← c.keyed _ key _ (c.stored _ _ _ stored)]
    exact c.put_object_self .modelDeployment { modelDeployment with status := desired }

/-! ## Reconcile -/

theorem serviceSpec_idem (modelDeployment : ModelDeployment) (spec : ServiceSpec) :
    serviceSpec modelDeployment (serviceSpec modelDeployment spec) =
      serviceSpec modelDeployment spec := rfl

/-- A reconcile reads the ModelDeployment and goes on with what it read. -/
theorem run_reconcile_stored {c : Cluster} {key : NamespacedName} {md : ModelDeployment}
    {order : MapOrder} (stored : c.object .modelDeployment key = some md) :
    (reconcile order key).run serve c =
      ⟨⟨.get .modelDeployment key, .ok md⟩ :: ((reconcileRead order md).run serve c).log,
        ((reconcileRead order md).run serve c).result,
        ((reconcileRead order md).run serve c).final⟩ := by
  unfold reconcile
  rw [Program.perform_bind, Program.run_call_of_serve serve (Cluster.serve_get_of_stored stored)]

/-- A reconcile of a ModelDeployment that is being deleted only reads it. -/
theorem run_reconcile_deleted {c : Cluster} {key : NamespacedName} {md : ModelDeployment}
    {order : MapOrder} (stored : c.object .modelDeployment key = some md)
    (deleted : md.metadata.deletionTimestamp ≠ none) :
    (reconcile order key).run serve c = ⟨[⟨.get .modelDeployment key, .ok md⟩], none, c⟩ := by
  have rest : reconcileRead order md = pure none := by
    simp [reconcileRead, deleted]
  rw [run_reconcile_stored stored, rest]
  rfl

/-- A reconcile of a live and valid ModelDeployment reads it and goes on with its children. -/
theorem run_reconcile {c : Cluster} {key : NamespacedName} {md : ModelDeployment} {order : MapOrder}
    (stored : c.object .modelDeployment key = some md)
    (live : md.metadata.deletionTimestamp = none) (valid : ValidSpec md) :
    (reconcile order key).run serve c =
      ⟨⟨.get .modelDeployment key, .ok md⟩ :: ((reconcileChildren md).run serve c).log,
        ((reconcileChildren md).run serve c).result,
        ((reconcileChildren md).run serve c).final⟩ := by
  have accepted := (validateSpec_eq_none_iff order md).2 valid
  have rest : reconcileRead order md = reconcileChildren md := by
    simp [reconcileRead, live, accepted]
  rw [run_reconcile_stored stored, rest]

/-- The children, when both steps succeed: what remains is the status. -/
theorem run_reconcileChildren {c c₁ c₂ : Cluster} {md : ModelDeployment} {deployment : Deployment}
    {service : Service} {log₁ log₂ : List Event}
    (first : (reconcileDeployment md).run serve c = ⟨log₁, .ok deployment, c₁⟩)
    (second : (reconcileService md).run serve c₁ = ⟨log₂, .ok service, c₂⟩)
    {log₃ : List Event} {c₃ : Cluster}
    (third : (updateStatusIfChanged md (observedStatus md deployment service
      fun _ => c₂.clock)).run serve c₂ = ⟨log₃, none, c₃⟩) :
    (reconcileChildren md).run serve c =
      ⟨log₁ ++ (log₂ ++ ⟨.now, fun _ => c₂.clock⟩ :: log₃), none, c₃⟩ := by
  have status : (updateObservedStatus md deployment service).run serve c₂ =
      ⟨⟨.now, fun _ => c₂.clock⟩ :: log₃, none, c₃⟩ := by
    unfold updateObservedStatus
    rw [Program.perform_bind, Program.run_call_of_serve serve
      (show serve .now c₂ = (fun _ => c₂.clock, c₂) from rfl), third]
  unfold reconcileChildren
  simp only [Program.run_bind, first, second, status, Program.pure_eq_ret, Program.run_ret,
    List.append_nil]

/-- A cluster whose children and status are as the ModelDeployment wants them: a reconcile that
reads it finds nothing to change. -/
structure Settled (c : Cluster) (key : NamespacedName) (md : ModelDeployment) (d : Deployment)
    (s : Service) : Prop where
  stored : c.object .modelDeployment key = some md
  live : md.metadata.deletionTimestamp = none
  valid : ValidSpec md
  deployment : c.object .deployment key = some d
  deploymentFixed : mutateOwned .deployment md (mutateDeployment md) d = .ok d
  service : c.object .service key = some s
  serviceFixed : mutateOwned .service md (mutateService md) s = .ok s
  status : ∀ now, observedStatus md d s now = md.status

/-- A reconcile of a settled cluster reads it and writes nothing. -/
theorem Settled.run_reconcile {c : Cluster} {key : NamespacedName} {md : ModelDeployment}
    {d : Deployment} {s : Service} (settled : Settled c key md d s) (order : MapOrder) :
    (reconcile order key).run serve c =
      ⟨[⟨.get .modelDeployment key, .ok md⟩, ⟨.get .deployment key, .ok d⟩,
        ⟨.get .service key, .ok s⟩, ⟨.now, fun _ => c.clock⟩], none, c⟩ := by
  have named : md.metadata.key = key := c.keyed _ _ _ (c.stored _ _ _ settled.stored)
  subst named
  have first := run_createOrUpdate_fixed (k := .deployment) (desiredDeployment md) settled.deployment
    settled.deploymentFixed
  have second := run_createOrUpdate_fixed (k := .service) (desiredService md) settled.service
    settled.serviceFixed
  have third := run_updateStatusIfChanged_same (c := c) (settled.status fun _ => c.clock)
  rw [Controller.run_reconcile settled.stored settled.live settled.valid,
    run_reconcileChildren first second third]
  rfl

/-- The entries of the labels of the children. -/
theorem lookup_childLabels (md : ModelDeployment) (label : String) :
    (childLabels md).lookup label =
      if label = "app.kubernetes.io/name" then some "model-runtime"
      else if label = "app.kubernetes.io/instance" then some md.metadata.name
      else if label = "app.kubernetes.io/managed-by" then some "kernexys-controller"
      else none := by
  unfold childLabels
  by_cases managed : label = managedByLabel
  · subst managed
    rw [Finmap.lookup_insert]
    rfl
  · rw [Finmap.lookup_insert_of_ne _ managed]
    by_cases named : label = instanceLabel
    · subst named
      rw [Finmap.lookup_insert]
      rfl
    · rw [Finmap.lookup_insert_of_ne _ named]
      by_cases runtime : label = nameLabel
      · subst runtime
        rw [Finmap.lookup_singleton_eq]
        rfl
      · have absent : (Finmap.singleton nameLabel runtimeName : StringMap).lookup label = none := by
          rw [Finmap.lookup_eq_none, Finmap.mem_singleton]
          exact runtime
        rw [absent]
        exact ((if_neg runtime).trans ((if_neg named).trans (if_neg managed))).symm

/-- What a reconcile of `md` leaves of the children that `c` had before. -/
structure Converged (c c' : Cluster) (key : NamespacedName) (md : ModelDeployment) : Prop where
  labels : ∀ label, (childLabels md).lookup label =
    if label = "app.kubernetes.io/name" then some "model-runtime"
    else if label = "app.kubernetes.io/instance" then some md.metadata.name
    else if label = "app.kubernetes.io/managed-by" then some "kernexys-controller"
    else none
  deployment : ∃ d, c'.object .deployment key = some d ∧ d.metadata.labels = childLabels md ∧
    d.spec = deploymentSpec md
  service : ∃ s, c'.object .service key = some s ∧ s.metadata.labels = childLabels md ∧
    s.spec = { ((c.object .service key).map Object.spec).getD {} with
      type := some .clusterIP
      selector := childLabels md
      sessionAffinity := some .none
      ports := [{ name := "http", protocol := some .tcp, port := 80, targetPort := .str "http" }] }
  agree : ∃ d s selector, c'.object .deployment key = some d ∧ c'.object .service key = some s ∧
    d.spec.selector = some selector ∧ selector.matchLabels = s.spec.selector ∧
    selector.matchExpressions = [] ∧ d.spec.template.labels = s.spec.selector

/-- One reconcile of a live and valid ModelDeployment whose children are free names or its own
settles the cluster. -/
theorem run_reconcile_settles {c : Cluster} {key : NamespacedName} {md : ModelDeployment}
    (order : MapOrder) (stored : c.object .modelDeployment key = some md)
    (live : md.metadata.deletionTimestamp = none) (valid : ValidSpec md)
    (deployment : ∀ v, c.object .deployment key = some v → ControlledBy md v.metadata)
    (service : ∀ v, c.object .service key = some v → ControlledBy md v.metadata) :
    ((reconcile order key).run serve c).result = none ∧
      Converged c ((reconcile order key).run serve c).final key md ∧
      ∃ md' d s, Settled ((reconcile order key).run serve c).final key md' d s := by
  have named : md.metadata.key = key := c.keyed _ _ _ (c.stored _ _ _ stored)
  subst named
  obtain ⟨log₁, d, c₁, first, dDone⟩ := run_child (k := .deployment) md (childLabels md)
    (h := fun _ => deploymentSpec md) (fun _ => rfl) (desiredDeployment md) rfl ⟨rfl, rfl⟩ deployment
  have serviceBefore : c₁.object .service md.metadata.key = c.object .service md.metadata.key :=
    dDone.others .service _ (by simp)
  obtain ⟨log₂, s, c₂, second, sDone⟩ := run_child (k := .service) md
    (childLabels md) (serviceSpec_idem md) (desiredService md) (c := c₁) rfl ⟨rfl, rfl⟩ fun v found =>
      service v (serviceBefore.symm.trans found)
  have stillStored : c₂.object .modelDeployment md.metadata.key = some md := by
    rw [sDone.others .modelDeployment _ (by simp), dDone.others .modelDeployment _ (by simp)]
    exact stored
  obtain ⟨log₃, c₃, third, ⟨version, written⟩, others⟩ :=
    run_updateStatusIfChanged (observedStatus md d s fun _ => c₂.clock) stillStored
  have deploymentAfter : c₃.object .deployment md.metadata.key = some d := by
    rw [others .deployment _ (by decide), sDone.others .deployment _ (by simp)]
    exact dDone.stored
  have serviceAfter : c₃.object .service md.metadata.key = some s := by
    rw [others .service _ (by decide)]
    exact sDone.stored
  have dSpec : d.spec = deploymentSpec md := dDone.spec
  have sSpec : s.spec = serviceSpec md (((c.object .service md.metadata.key).map
      Object.spec).getD {}) := by
    rw [sDone.spec]
    show serviceSpec md (((c₁.object .service md.metadata.key).getD (desiredService md)).spec) = _
    rw [serviceBefore]
    cases c.object .service md.metadata.key <;> rfl
  rw [run_reconcile stored live valid, run_reconcileChildren first second third]
  refine ⟨rfl, ⟨lookup_childLabels md, ⟨d, deploymentAfter, dDone.labels, dSpec⟩,
    ⟨s, serviceAfter, sDone.labels, sSpec⟩,
    ⟨d, s, _, deploymentAfter, serviceAfter, by rw [dSpec]; rfl, by rw [sSpec]; rfl, rfl,
      by rw [dSpec, sSpec]; rfl⟩⟩, _, d, s, written, live, ?_, deploymentAfter, dDone.fixed,
    serviceAfter, sDone.fixed, fun now => ?_⟩
  · exact valid.of_spec rfl
  · exact observedStatus_fixed md (fun _ => c₂.clock) now rfl rfl rfl

/-- One reconcile brings the children to the values computed from the spec, and the next one writes
nothing, at whatever time it runs. -/
theorem reconcile_converges (order order' : MapOrder) (c : Cluster) (key : NamespacedName)
    (md : ModelDeployment) (stored : c.object .modelDeployment key = some md)
    (live : md.metadata.deletionTimestamp = none) (valid : validateSpec order md = none)
    (deployment : ∀ v, c.object .deployment key = some v → ControlledBy md v.metadata)
    (service : ∀ v, c.object .service key = some v → ControlledBy md v.metadata) :
    ((reconcile order key).run serve c).result = none ∧
      Converged c ((reconcile order key).run serve c).final key md ∧
      ∀ clock, let c' := { ((reconcile order key).run serve c).final with clock := clock }
        ((reconcile order' key).run serve c').result = none ∧
          (∀ event ∈ ((reconcile order' key).run serve c').log, event.1.isWrite = false) ∧
          ((reconcile order' key).run serve c').final = c' := by
  obtain ⟨result, converged, md', d, s, settled⟩ := run_reconcile_settles order stored
    live ((validateSpec_eq_none_iff order md).1 valid) deployment service
  refine ⟨result, converged, fun clock => ?_⟩
  have later : Settled { ((reconcile order key).run serve c).final with clock := clock } key md' d s :=
    ⟨settled.stored, settled.live, settled.valid, settled.deployment, settled.deploymentFixed,
      settled.service, settled.serviceFixed, settled.status⟩
  dsimp only
  rw [later.run_reconcile order']
  exact ⟨rfl, by simp [Op.isWrite], rfl⟩

/-- A ModelDeployment, as a client submits it. -/
def sampleModelDeployment : ModelDeployment where
  metadata := { name := "sentiment", ns := "default", uid := "uid-1", generation := 1 }
  spec := { model := ⟨"sentiment", "1"⟩, runtime := ⟨"registry/sentiment:1", 8080⟩, replicas := some 2 }
  status := {}

/-- A Deployment of the ModelDeployment, scaled and relabelled by someone else. -/
def driftedDeployment : Deployment where
  metadata :=
    { name := "sentiment", ns := "default", generation := 3
      labels := Finmap.singleton "team" "other"
      ownerReferences := [{ controllerReference sampleModelDeployment with uid := "uid-0" }] }
  spec := { replicas := some 7, paused := true }
  status := {}

/-- A cluster with the ModelDeployment, its drifted Deployment and no Service. -/
def driftedCluster : Cluster :=
  (Cluster.empty.put .modelDeployment sampleModelDeployment).put .deployment driftedDeployment

theorem sampleModelDeployment_valid : ValidSpec sampleModelDeployment := by
  refine ⟨by decide, by decide, by decide, by decide, by decide, by decide, ?_, ?_⟩
  · intro entry mem
    exact absurd mem (Multiset.notMem_zero entry)
  · intro entry mem
    exact absurd mem (Multiset.notMem_zero entry)

theorem reconcile_converges_drifted :
    let c' := ((reconcile MapOrder.any ⟨"sentiment", "default"⟩).run serve driftedCluster).final
    Converged driftedCluster c' ⟨"sentiment", "default"⟩
      (Cluster.empty.stamp (k := .modelDeployment) sampleModelDeployment) := by
  refine (reconcile_converges MapOrder.any MapOrder.any driftedCluster _ _ rfl rfl ?_ ?_ ?_).2.1
  · exact (validateSpec_eq_none_iff MapOrder.any _).2 (sampleModelDeployment_valid.of_spec rfl)
  · intro v found
    obtain rfl := Option.some.inj found
    exact ⟨_, rfl, by decide⟩
  · intro v found
    cases found

/-- The same ModelDeployment, while it is being deleted. -/
def deletingModelDeployment : ModelDeployment :=
  { sampleModelDeployment with
    metadata := { sampleModelDeployment.metadata with deletionTimestamp := some 0 } }

/-- A cluster with the ModelDeployment that is being deleted, and its drifted Deployment. -/
def deletingCluster : Cluster :=
  (Cluster.empty.put .modelDeployment deletingModelDeployment).put .deployment driftedDeployment

/-- A ModelDeployment that is being deleted is not reconciled, valid as its spec may be: the drift of
its Deployment stays. -/
theorem deletingModelDeployment_not_converged :
    let md := Cluster.empty.stamp (k := .modelDeployment) deletingModelDeployment
    let run := (reconcile MapOrder.any ⟨"sentiment", "default"⟩).run serve deletingCluster
    deletingCluster.object .modelDeployment ⟨"sentiment", "default"⟩ = some md ∧
      validateSpec MapOrder.any md = none ∧
      (∀ v, deletingCluster.object .deployment ⟨"sentiment", "default"⟩ = some v →
        ControlledBy md v.metadata) ∧
      deletingCluster.object .service ⟨"sentiment", "default"⟩ = none ∧
      run.result = none ∧ run.final = deletingCluster ∧
      ¬ Converged deletingCluster run.final ⟨"sentiment", "default"⟩ md := by
  have stored : deletingCluster.object .modelDeployment ⟨"sentiment", "default"⟩ =
      some (Cluster.empty.stamp (k := .modelDeployment) deletingModelDeployment) := rfl
  have unserved : deletingCluster.object .service ⟨"sentiment", "default"⟩ = none := rfl
  dsimp only
  rw [run_reconcile_deleted stored (Option.some_ne_none 0)]
  refine ⟨stored, (validateSpec_eq_none_iff MapOrder.any _).2 ?_, fun v found => ?_, unserved, rfl, rfl,
    fun converged => ?_⟩
  · exact sampleModelDeployment_valid.of_spec rfl
  · obtain rfl := Option.some.inj found
    exact ⟨_, rfl, by decide⟩
  · obtain ⟨s, found, -⟩ := converged.service
    cases unserved.symm.trans found

end Kernexys.Controller
