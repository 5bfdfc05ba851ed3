import Kernexys.Controller.Objects
import Kernexys.Lib.Text

/-!
# The desired workload of a ModelDeployment

`validateSpec`, the ownership check and the two mutators of `modeldeployment_controller.go`, with
the parts of controller-runtime they call (`SetControllerReference`, `GetControllerOf`).
-/

namespace Kernexys.Controller

/-! ## Validation -/

/-- `strings.TrimSpace`. -/
def trimSpace (s : String) : String := Text.strip Text.whiteSpace s

/-- `strings.ContainsAny`. -/
def containsAny (s chars : String) : Bool := s.toList.any fun c => c ∈ chars.toList

/-- The orders in which Go iterates over the two resource maps of a spec; Go leaves them open. -/
structure MapOrder where
  requests : ResourceList → List (Σ _ : String, Quantity)
  limits : ResourceList → List (Σ _ : String, Quantity)
  requests_entries : ∀ m, (requests m : Multiset _) = m.entries
  limits_entries : ∀ m, (limits m : Multiset _) = m.entries

/-- Some order of the maps. -/
noncomputable def MapOrder.any : MapOrder :=
  ⟨fun m => m.entries.toList, fun m => m.entries.toList, fun m => m.entries.coe_toList,
    fun m => m.entries.coe_toList⟩

/-- `desiredReplicaCount`: one replica unless the spec says otherwise. -/
def desiredReplicaCount (modelDeployment : ModelDeployment) : ℤ :=
  modelDeployment.spec.replicas.getD 1

/-- The port of a spec without one. -/
def defaultPort : ℤ := 8080

/-- `desiredRuntimePort`: port 0 is the default one. -/
def desiredRuntimePort (modelDeployment : ModelDeployment) : ℤ :=
  if modelDeployment.spec.runtime.port = 0 then defaultPort else modelDeployment.spec.runtime.port

/-- The error of one entry of the requests map. -/
def requestError (limits : ResourceList) (entry : Σ _ : String, Quantity) : Option String :=
  if entry.2 < 0 then some ("resource request " ++ entry.1 ++ " must not be negative")
  else if (limits.lookup entry.1).any fun limit => limit < entry.2 then
    some ("resource request " ++ entry.1 ++ " must not exceed its limit")
  else none

/-- The error of one entry of the limits map. -/
def limitError (entry : Σ _ : String, Quantity) : Option String :=
  if entry.2 < 0 then some ("resource limit " ++ entry.1 ++ " must not be negative") else none

/-- The error of a spec, or none. -/
def validateSpec (order : MapOrder) (modelDeployment : ModelDeployment) : Option String :=
  let spec := modelDeployment.spec
  let replicas := desiredReplicaCount modelDeployment
  let port := desiredRuntimePort modelDeployment
  if trimSpace spec.model.name = "" then some "spec.model.name must not be empty"
  else if trimSpace spec.model.version = "" then some "spec.model.version must not be empty"
  else if trimSpace spec.runtime.image = "" ∨ containsAny spec.runtime.image " \t\r\n" then
    some "spec.runtime.image must be a non-empty OCI image reference without whitespace"
  else if replicas < 1 ∨ replicas > 100 then
    some ("spec.replicas must be between 1 and 100, got " ++ toString replicas)
  else if port < 1 ∨ port > 65535 then
    some ("spec.runtime.port must be between 1 and 65535, got " ++ toString port)
  else
    ((order.requests spec.resources.requests).findSome? (requestError spec.resources.limits)).or
      ((order.limits spec.resources.limits).findSome? limitError)

/-- The specs that `validateSpec` accepts, whatever the order of the maps. -/
structure ValidSpec (modelDeployment : ModelDeployment) : Prop where
  name : trimSpace modelDeployment.spec.model.name ≠ ""
  version : trimSpace modelDeployment.spec.model.version ≠ ""
  image : trimSpace modelDeployment.spec.runtime.image ≠ ""
  imageSpace : containsAny modelDeployment.spec.runtime.image " \t\r\n" = false
  replicas : 1 ≤ desiredReplicaCount modelDeployment ∧ desiredReplicaCount modelDeployment ≤ 100
  port : 1 ≤ desiredRuntimePort modelDeployment ∧ desiredRuntimePort modelDeployment ≤ 65535
  requests : ∀ entry ∈ modelDeployment.spec.resources.requests.entries,
    requestError modelDeployment.spec.resources.limits entry = none
  limits : ∀ entry ∈ modelDeployment.spec.resources.limits.entries, limitError entry = none

/-- Only the spec counts, not the metadata and the status. -/
theorem ValidSpec.of_spec {md md' : ModelDeployment} (valid : ValidSpec md)
    (same : md'.spec = md.spec) : ValidSpec md' := by
  obtain ⟨metadata, spec, status⟩ := md'
  obtain rfl : spec = md.spec := same
  exact ⟨valid.name, valid.version, valid.image, valid.imageSpace, valid.replicas, valid.port,
    valid.requests, valid.limits⟩

theorem MapOrder.mem_requests (order : MapOrder) {m : ResourceList} {entry : Σ _ : String, Quantity} :
    entry ∈ order.requests m ↔ entry ∈ m.entries := by
  rw [← order.requests_entries m, Multiset.mem_coe]

theorem MapOrder.mem_limits (order : MapOrder) {m : ResourceList} {entry : Σ _ : String, Quantity} :
    entry ∈ order.limits m ↔ entry ∈ m.entries := by
  rw [← order.limits_entries m, Multiset.mem_coe]

theorem validateSpec_eq_none_iff (order : MapOrder) (modelDeployment : ModelDeployment) :
    validateSpec order modelDeployment = none ↔ ValidSpec modelDeployment := by
  have maps : ((order.requests modelDeployment.spec.resources.requests).findSome?
      (requestError modelDeployment.spec.resources.limits)).or
      ((order.limits modelDeployment.spec.resources.limits).findSome? limitError) = none ↔
      (∀ entry ∈ modelDeployment.spec.resources.requests.entries,
        requestError modelDeployment.spec.resources.limits entry = none) ∧
      ∀ entry ∈ modelDeployment.spec.resources.limits.entries, limitError entry = none := by
    simp only [Option.or_eq_none_iff, List.findSome?_eq_none_iff, order.mem_requests,
      order.mem_limits]
  constructor
  · intro valid
    unfold validateSpec at valid
    dsimp only at valid
    split_ifs at valid with name version image replicas port
    obtain ⟨requests, limits⟩ := maps.1 valid
    simp only [not_or, Bool.not_eq_true, not_lt] at image replicas port
    exact ⟨name, version, image.1, image.2, replicas, port, requests, limits⟩
  · intro valid
    unfold validateSpec
    dsimp only
    have image : ¬ (trimSpace modelDeployment.spec.runtime.image = "" ∨
        containsAny modelDeployment.spec.runtime.image " \t\r\n" = true) := by
      simp [valid.image, valid.imageSpace]
    have replicas := valid.replicas
    have port := valid.port
    rw [if_neg valid.name, if_neg valid.version, if_neg image, if_neg (by omega),
      if_neg (by omega)]
    exact maps.2 ⟨valid.requests, valid.limits⟩

/-! ## Ownership -/

/-- The group of `schema.ParseGroupVersion`, or none when it fails. -/
def parseGroup (apiVersion : String) : Option String :=
  match apiVersion.toList.count '/' with
  | 0 => some ""
  | 1 => some (String.ofList (apiVersion.toList.takeWhile (· ≠ '/')))
  | _ => none

/-- Two references name one object: the same group, kind and name. -/
def referSameObject (a b : OwnerReference) : Bool :=
  match parseGroup a.apiVersion, parseGroup b.apiVersion with
  | some g, some h => g = h && a.kind = b.kind && a.name = b.name
  | _, _ => false

/-- `metav1.GetControllerOf`. -/
def getControllerOf (object : ObjectMeta) : Option OwnerReference :=
  object.ownerReferences.find? fun ref => ref.controller = some true

/-- The reference that `SetControllerReference` builds for the owner. -/
def controllerReference (owner : ModelDeployment) : OwnerReference where
  apiVersion := "platform.kernexys.io/v1alpha1"
  kind := "ModelDeployment"
  name := owner.metadata.name
  uid := owner.metadata.uid
  controller := some true
  blockOwnerDeletion := some true

/-- Replace the first reference to the same object, or append one. -/
def upsertOwnerRef (ref : OwnerReference) : List OwnerReference → List OwnerReference
  | [] => [ref]
  | owner :: owners =>
    if referSameObject owner ref then ref :: owners else owner :: upsertOwnerRef ref owners

/-- The namespaces of an owner and its object agree, or the owner has none. -/
def validateOwner (owner : ModelDeployment) (object : ObjectMeta) : Option String :=
  if owner.metadata.ns = "" then none
  else if object.ns = "" then
    some ("cluster-scoped resource must not have a namespace-scoped owner, owner's namespace " ++
      owner.metadata.ns)
  else if owner.metadata.ns ≠ object.ns then
    some ("cross-namespace owner references are disallowed, owner's namespace " ++
      owner.metadata.ns ++ ", obj's namespace " ++ object.ns)
  else none

/-- `controllerutil.SetControllerReference`: another controller is not replaced. -/
def setControllerReference (owner : ModelDeployment) (object : ObjectMeta) :
    Except String ObjectMeta :=
  let ref := controllerReference owner
  match validateOwner owner object with
  | some e => .error e
  | none =>
    match (getControllerOf object).filter fun existing => !referSameObject existing ref with
    | some existing =>
      .error ("Object " ++ object.ns ++ "/" ++ object.name ++ " is already owned by another " ++
        existing.kind ++ " controller " ++ existing.name)
    | none => .ok { object with ownerReferences := upsertOwnerRef ref object.ownerReferences }

/-- The check the controller makes before it writes a child. -/
def ensureControllerOwnership (goType : String) (owner : ModelDeployment) (object : ObjectMeta) :
    Except String ObjectMeta :=
  if object.resourceVersion ≠ none ∧ getControllerOf object = none then
    .error ("refusing to adopt existing " ++ goType ++ " " ++ object.ns ++ "/" ++ object.name ++
      " without a controller owner")
  else setControllerReference owner object

/-- The controller reference of the object names the owner. -/
def ControlledBy (owner : ModelDeployment) (object : ObjectMeta) : Prop :=
  ∃ ref, getControllerOf object = some ref ∧ referSameObject ref (controllerReference owner) = true

theorem setControllerReference_eq_ok_iff {owner : ModelDeployment} {object result : ObjectMeta} :
    setControllerReference owner object = .ok result ↔ validateOwner owner object = none ∧
      (∀ ref, getControllerOf object = some ref →
        referSameObject ref (controllerReference owner) = true) ∧
      result = { object with
        ownerReferences := upsertOwnerRef (controllerReference owner) object.ownerReferences } := by
  unfold setControllerReference
  dsimp only
  split
  · rename_i e invalid
    simp [invalid]
  · rename_i valid
    cases controller : getControllerOf object with
    | none =>
      simp only [Option.filter_none, valid, reduceCtorEq, false_implies, implies_true, true_and,
        Except.ok.injEq]
      exact eq_comm
    | some ref =>
      by_cases same : referSameObject ref (controllerReference owner) = true
      · simp only [Option.filter_some, same, valid, Bool.not_true, Bool.false_eq_true, if_false,
          Option.some.injEq, forall_eq', true_and, Except.ok.injEq]
        exact eq_comm
      · simp [Option.filter_some, same]

/-- The check passes exactly for a new object or one that the owner controls, in the namespace of
the owner; it then sets the reference of the owner. -/
theorem ensureControllerOwnership_eq_ok_iff {goType : String} {owner : ModelDeployment}
    {object result : ObjectMeta} :
    ensureControllerOwnership goType owner object = .ok result ↔ validateOwner owner object = none ∧
      ((object.resourceVersion = none ∧ getControllerOf object = none) ∨
        ControlledBy owner object) ∧
      result = { object with
        ownerReferences := upsertOwnerRef (controllerReference owner) object.ownerReferences } := by
  unfold ensureControllerOwnership ControlledBy
  cases controller : getControllerOf object with
  | none =>
    by_cases new : object.resourceVersion = none
    · simp [new, setControllerReference_eq_ok_iff, controller]
    · simp [new]
  | some ref => simp [setControllerReference_eq_ok_iff, controller]

theorem referSameObject_controllerReference (owner : ModelDeployment) :
    referSameObject (controllerReference owner) (controllerReference owner) = true := by
  have group : parseGroup "platform.kernexys.io/v1alpha1" = some "platform.kernexys.io" := by decide
  simp [referSameObject, controllerReference, group]

theorem upsertOwnerRef_idem {ref : OwnerReference} (self : referSameObject ref ref = true)
    (owners : List OwnerReference) :
    upsertOwnerRef ref (upsertOwnerRef ref owners) = upsertOwnerRef ref owners := by
  induction owners with
  | nil => simp [upsertOwnerRef, self]
  | cons owner owners ih =>
    by_cases same : referSameObject owner ref = true
    · simp [upsertOwnerRef, same, self]
    · simp [upsertOwnerRef, same, ih]

/-- After the upsert of a controller reference the object is controlled by it, unless another
controller comes first. -/
theorem find_controller_upsertOwnerRef {ref : OwnerReference} (controller : ref.controller = some true)
    {owners : List OwnerReference}
    (own : ∀ existing, owners.find? (fun r => r.controller = some true) = some existing →
      referSameObject existing ref = true) :
    (upsertOwnerRef ref owners).find? (fun r => r.controller = some true) = some ref := by
  induction owners with
  | nil => simp [upsertOwnerRef, controller]
  | cons owner owners ih =>
    by_cases same : referSameObject owner ref = true
    · simp [upsertOwnerRef, same, controller]
    · have notController : ¬ owner.controller = some true := by
        intro first
        exact same (own owner (by simp [first]))
      simp only [upsertOwnerRef, same, Bool.false_eq_true, if_false]
      rw [List.find?_cons_of_neg (by simpa using notController)]
      exact ih fun existing found => own existing (by
        rwa [List.find?_cons_of_neg (by simpa using notController)])

/-- What `ensureControllerOwnership` returns is controlled by the owner, and passes the check again
unchanged, whatever version it is stored under. -/
theorem ensureControllerOwnership_again {goType : String} {owner : ModelDeployment}
    {object result : ObjectMeta} (ok : ensureControllerOwnership goType owner object = .ok result)
    {stored : ObjectMeta} (ns : stored.ns = object.ns)
    (owners : stored.ownerReferences = result.ownerReferences) :
    ControlledBy owner stored ∧ ensureControllerOwnership goType owner stored = .ok stored := by
  obtain ⟨valid, own, rfl⟩ := ensureControllerOwnership_eq_ok_iff.1 ok
  have controlled : ControlledBy owner stored := by
    refine ⟨controllerReference owner, ?_, referSameObject_controllerReference owner⟩
    unfold getControllerOf
    rw [owners]
    refine find_controller_upsertOwnerRef rfl fun existing found => ?_
    rcases own with ⟨-, none_⟩ | ⟨ref, some_, same⟩
    · rw [getControllerOf, found] at none_
      cases none_
    · rw [getControllerOf, found] at some_
      rwa [Option.some.inj some_]
  refine ⟨controlled, ensureControllerOwnership_eq_ok_iff.2 ⟨?_, Or.inr controlled, ?_⟩⟩
  · rw [← valid, validateOwner, validateOwner, ns]
  · have same : upsertOwnerRef (controllerReference owner) stored.ownerReferences =
        stored.ownerReferences := by
      rw [owners]
      exact upsertOwnerRef_idem (referSameObject_controllerReference owner) _
    rw [same]

/-! ## Children -/

/-- The label with the manager of a child. -/
def managedByLabel : String := "app.kubernetes.io/managed-by"

/-- The label with the ModelDeployment of a child. -/
def instanceLabel : String := "app.kubernetes.io/instance"

/-- The label with the name of the application. -/
def nameLabel : String := "app.kubernetes.io/name"

/-- The controller, as the manager of a child. -/
def managedByValue : String := "kernexys-controller"

/-- The name of the application and of its container. -/
def runtimeName : String := "model-runtime"

/-- `"100m"`. -/
def defaultCPURequest : Quantity := 100 * 10 ^ 6

/-- `"128Mi"`. -/
def defaultMemoryRequest : Quantity := 128 * 2 ^ 20 * 10 ^ 9

/-- `"1"`. -/
def defaultCPULimit : Quantity := 10 ^ 9

/-- `"512Mi"`. -/
def defaultMemoryLimit : Quantity := 512 * 2 ^ 20 * 10 ^ 9

/-- `childLabels`: the labels of a child. -/
def childLabels (modelDeployment : ModelDeployment) : StringMap :=
  ((Finmap.singleton nameLabel runtimeName).insert instanceLabel modelDeployment.metadata.name).insert
    managedByLabel managedByValue

/-- `httpProbe`: a probe of the runtime. -/
def httpProbe (path : String) (port failureThreshold : ℤ) : Probe where
  httpGet := some { path := path, port := .int port, scheme := some .http }
  initialDelaySeconds := 0
  timeoutSeconds := 1
  periodSeconds := 10
  successThreshold := 1
  failureThreshold := failureThreshold

/-- The resources of the container: an empty map is replaced by its defaults. -/
def effectiveResources (modelDeployment : ModelDeployment) : ResourceRequirements :=
  let resources := modelDeployment.spec.resources
  { requests :=
      if resources.requests = ∅ then
        (Finmap.singleton "cpu" defaultCPURequest).insert "memory" defaultMemoryRequest
      else resources.requests
    limits :=
      if resources.limits = ∅ then
        (Finmap.singleton "cpu" defaultCPULimit).insert "memory" defaultMemoryLimit
      else resources.limits }

/-- The container that runs the model. -/
def runtimeContainer (modelDeployment : ModelDeployment) : Container :=
  let port := desiredRuntimePort modelDeployment
  let resources := effectiveResources modelDeployment
  { name := runtimeName
    image := modelDeployment.spec.runtime.image
    imagePullPolicy := some .ifNotPresent
    terminationMessagePath := "/dev/termination-log"
    terminationMessagePolicy := some .readFile
    securityContext := some
      { allowPrivilegeEscalation := some false
        readOnlyRootFilesystem := some true
        runAsNonRoot := some true
        capabilities := some { drop := ["ALL"] } }
    env :=
      [{ name := "KERNEXYS_MODEL_NAME", value := modelDeployment.spec.model.name },
        { name := "KERNEXYS_MODEL_VERSION", value := modelDeployment.spec.model.version },
        { name := "KERNEXYS_RUNTIME_PORT", value := toString port }]
    ports := [{ name := "http", containerPort := port, protocol := some .tcp }]
    resources := { limits := resources.limits, requests := resources.requests }
    startupProbe := some (httpProbe "/health/ready" port 30)
    livenessProbe := some (httpProbe "/health/live" port 3)
    readinessProbe := some (httpProbe "/health/ready" port 3) }

/-- The pod template of the Deployment. -/
def runtimeTemplate (modelDeployment : ModelDeployment) : PodTemplateSpec where
  labels := childLabels modelDeployment
  annotations :=
    (Finmap.singleton "platform.kernexys.io/model" modelDeployment.spec.model.name).insert
      "platform.kernexys.io/version" modelDeployment.spec.model.version
  spec :=
    { automountServiceAccountToken := some false
      enableServiceLinks := some false
      restartPolicy := some .always
      dnsPolicy := some .clusterFirst
      schedulerName := "default-scheduler"
      terminationGracePeriodSeconds := some 30
      securityContext := some
        { runAsUser := some 10001
          runAsGroup := some 10001
          runAsNonRoot := some true
          seccompProfile := some { type := .runtimeDefault } }
      containers := [runtimeContainer modelDeployment] }

/-- The spec that `mutateDeployment` writes. -/
def deploymentSpec (modelDeployment : ModelDeployment) : DeploymentSpec where
  replicas := some (desiredReplicaCount modelDeployment)
  selector := some { matchLabels := childLabels modelDeployment }
  strategy :=
    { type := some .rollingUpdate
      rollingUpdate := some { maxUnavailable := some (.str "25%"), maxSurge := some (.str "25%") } }
  revisionHistoryLimit := some 10
  progressDeadlineSeconds := some 600
  template := runtimeTemplate modelDeployment

/-- The Deployment before it is mutated. -/
def desiredDeployment (modelDeployment : ModelDeployment) : Deployment :=
  ⟨{ name := modelDeployment.metadata.name, ns := modelDeployment.metadata.ns }, {}, {}⟩

/-- `mutateDeployment`: labels and spec are set. -/
def mutateDeployment (modelDeployment : ModelDeployment) (deployment : Deployment) : Deployment :=
  { deployment with
    metadata := { deployment.metadata with labels := childLabels modelDeployment }
    spec := deploymentSpec modelDeployment }

/-- The Service before it is mutated. -/
def desiredService (modelDeployment : ModelDeployment) : Service :=
  ⟨{ name := modelDeployment.metadata.name, ns := modelDeployment.metadata.ns }, {}, ()⟩

/-- What `mutateService` makes of a spec: it names four fields and leaves the others. -/
def serviceSpec (modelDeployment : ModelDeployment) (spec : ServiceSpec) : ServiceSpec :=
  { spec with
    type := some .clusterIP
    selector := childLabels modelDeployment
    sessionAffinity := some .none
    ports := [{ name := "http", protocol := some .tcp, port := 80, targetPort := .str "http" }] }

/-- `mutateService`: labels are set, and the fields of the spec that it names. -/
def mutateService (modelDeployment : ModelDeployment) (service : Service) : Service :=
  { service with
    metadata := { service.metadata with labels := childLabels modelDeployment }
    spec := serviceSpec modelDeployment service.spec }

/-- Set the labels, and change the spec by `h`. -/
def relabel {k : Kind} (labels : StringMap) (h : k.Spec → k.Spec) (o : k.Object) : k.Object :=
  ⟨{ o.metadata with labels := labels }, h o.spec, o.status⟩

end Kernexys.Controller
