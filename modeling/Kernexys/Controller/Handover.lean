import Kernexys.Api.Deployments
import Kernexys.Api.RoundTrip
import Kernexys.Controller.InvalidSpec
import Kernexys.Controller.Resources

/-!
# From the API to the workload

`_desired_resource` writes a deployment as JSON, the API server admits it by the schema of the custom
resource definition, and the controller reads it into its Go types, validates it and writes the
workload.  The schema compares no request with its limit and lets negative quantities through, so an
admitted deployment runs as it was requested exactly when its quantities are in order; otherwise
nothing is touched and its status says so (`requested_workload`).
-/

namespace Kernexys.Controller

open Cluster (serve)
open Kernexys.Api (DeploymentUpsert VersionCreate ResourceName desiredResource specSchema
  crdQuantityPattern isSpace)

/-! ## Decoding -/

/-- The fields of a struct; an absent or null one keeps its zero value. -/
def decodeStruct : Option Json → Option Dict
  | none | some .null => some []
  | some (.obj fields) => some fields
  | _ => none

/-- A text; an absent or null one is empty. -/
def decodeString : Option Json → Option String
  | none | some .null => some ""
  | some (.str text) => some text
  | _ => none

/-- An `*int32`. -/
def decodeInt32 : Option Json → Option (Option ℤ)
  | none | some .null => some none
  | some (.int n) => if -2 ^ 31 ≤ n ∧ n < 2 ^ 31 then some (some n) else none
  | _ => none

section Decoding

variable (parseQuantity : String → Option Quantity)

/-- `Quantity.UnmarshalJSON`: a text or a number, both in the words of `ParseQuantity`. -/
def decodeQuantity : Json → Option Quantity
  | .null => some 0
  | .str text => parseQuantity text
  | .int n => parseQuantity (toString n)
  | _ => none

/-- A map; the last entry of a name counts. -/
def decodeResourceList : Option Json → Option ResourceList
  | none | some .null => some ∅
  | some (.obj fields) =>
    fields.foldlM (fun list entry => do
      return list.insert entry.1 (← decodeQuantity parseQuantity entry.2)) ∅
  | _ => none

/-- The spec of a ModelDeployment, from JSON. -/
def decodeSpec (spec : Json) : Option ModelDeploymentSpec := do
  let spec ← decodeStruct (some spec)
  let model ← decodeStruct (spec.lookup "model")
  let name ← decodeString (model.lookup "name")
  let version ← decodeString (model.lookup "version")
  let runtime ← decodeStruct (spec.lookup "runtime")
  let image ← decodeString (runtime.lookup "image")
  let port ← decodeInt32 (runtime.lookup "port")
  let replicas ← decodeInt32 (spec.lookup "replicas")
  let resources ← decodeStruct (spec.lookup "resources")
  let limits ← decodeResourceList parseQuantity (resources.lookup "limits")
  let requests ← decodeResourceList parseQuantity (resources.lookup "requests")
  return { model := ⟨name, version⟩, runtime := ⟨image, port.getD 0⟩, replicas,
           resources := ⟨limits, requests⟩ }

/-- The amounts of the quantities that a client gave. -/
def amounts (entries : List (String × String)) : Option ResourceList :=
  entries.foldlM (fun list entry => do return list.insert entry.1 (← parseQuantity entry.2)) ∅

variable {parseQuantity}

theorem decodeResourceList_texts (entries : List (String × String)) :
    decodeResourceList parseQuantity (some (.obj (entries.map fun entry => (entry.1, .str entry.2)))) =
      amounts parseQuantity entries := by
  rw [decodeResourceList, List.foldlM_map]
  rfl

theorem exists_amounts {entries : List (String × String)}
    (parsed : ∀ entry ∈ entries, (parseQuantity entry.2).isSome) :
    ∃ list, amounts parseQuantity entries = some list := by
  have any (start : ResourceList) : ∃ list, entries.foldlM (fun list entry => do
      return list.insert entry.1 (← parseQuantity entry.2)) start = some list := by
    induction entries generalizing start with
    | nil => exact ⟨start, rfl⟩
    | cons entry entries ih =>
      rw [List.forall_mem_cons] at parsed
      obtain ⟨quantity, parsedHere⟩ := Option.isSome_iff_exists.1 parsed.1
      rw [List.foldlM_cons, parsedHere]
      exact ih parsed.2 (start.insert entry.1 quantity)
  exact any ∅

end Decoding

/-! ## What the API asks for -/

/-- The spec of `_desired_resource`. -/
def requestedSpec (desired : DeploymentUpsert) (runtimeImage : String) : Json :=
  .obj
    [("model", .obj [("name", .str desired.model.1), ("version", .str desired.version.1)]),
      ("runtime", .obj [("image", .str runtimeImage), ("port", .int desired.port)]),
      ("replicas", .int desired.replicas),
      ("resources", desired.resources.dump)]

theorem field_desiredResource (ns name : String) (desired : DeploymentUpsert) (image : String)
    (digest : Option String) (resourceVersion : Json) :
    (desiredResource ns name desired image digest resourceVersion).field ["spec"] =
      some (requestedSpec desired image) := rfl

/-- The spec that the controller reads. -/
def handedOver (desired : DeploymentUpsert) (image : String) (requests limits : ResourceList) :
    ModelDeploymentSpec where
  model := ⟨desired.model.1, desired.version.1⟩
  runtime := ⟨image, desired.port⟩
  replicas := some desired.replicas
  resources := ⟨limits, requests⟩

theorem desiredRuntimePort_handedOver {md : ModelDeployment} {desired : DeploymentUpsert}
    {image : String} {requests limits : ResourceList}
    (spec : md.spec = handedOver desired image requests limits) :
    desiredRuntimePort md = desired.port := by
  have least := desired.port_valid.1
  have nonzero : (handedOver desired image requests limits).runtime.port ≠ 0 := by
    show desired.port ≠ 0
    omega
  rw [desiredRuntimePort, spec]
  exact if_neg nonzero

theorem decodeSpec_requestedSpec {parseQuantity : String → Option Quantity}
    {desired : DeploymentUpsert} {image : String} {requests limits : ResourceList}
    (requested : amounts parseQuantity desired.resources.requests.1 = some requests)
    (limited : amounts parseQuantity desired.resources.limits.1 = some limits) :
    decodeSpec parseQuantity (requestedSpec desired image) =
      some (handedOver desired image requests limits) := by
  obtain ⟨least, most⟩ := desired.port_valid
  obtain ⟨least', most'⟩ := desired.replicas_valid
  have port : decodeInt32 (some (.int desired.port)) = some (some desired.port) :=
    if_pos (by omega)
  have replicas : decodeInt32 (some (.int desired.replicas)) = some (some desired.replicas) :=
    if_pos (by omega)
  rw [← decodeResourceList_texts] at requested limited
  unfold decodeSpec requestedSpec handedOver
  simp [decodeStruct, decodeString, List.lookup, Api.DeploymentResources.dump, port, replicas,
    requested, limited]

/-- Every quantity of an admitted spec is one of the schema. -/
theorem crdQuantity_of_accepts {desired : DeploymentUpsert} {image : String}
    (admitted : specSchema.accepts (requestedSpec desired image) = true) :
    (∀ entry ∈ desired.resources.requests.1, Text.fullmatch crdQuantityPattern entry.2 = true) ∧
      ∀ entry ∈ desired.resources.limits.1, Text.fullmatch crdQuantityPattern entry.2 = true := by
  have quantities {entries : List (String × String)}
      (valid : (Schema.map (.intOrString crdQuantityPattern)).accepts
        (.obj (entries.map fun entry => (entry.1, .str entry.2))) = true) :
      ∀ entry ∈ entries, Text.fullmatch crdQuantityPattern entry.2 = true := by
    obtain ⟨fields, eq, -, values⟩ := Schema.accepts_map valid
    obtain rfl := Json.obj.inj eq
    intro entry mem
    have value := values (entry.1, .str entry.2) (List.mem_map_of_mem mem)
    simpa only [Schema.accepts] using value
  obtain ⟨fields, eq, spec⟩ := Schema.accepts_object admitted
  obtain rfl := Json.obj.inj eq
  obtain ⟨_, ⟨⟩, valid⟩ := spec.property
    (show List.lookup "resources" _ = some desired.resources.dump from rfl)
  obtain ⟨fields, eq, resources⟩ := Schema.accepts_object valid
  obtain rfl := Json.obj.inj eq
  obtain ⟨_, ⟨⟩, requests⟩ := resources.property (show List.lookup "requests" _ = some _ from rfl)
  obtain ⟨_, ⟨⟩, limits⟩ := resources.property (show List.lookup "limits" _ = some _ from rfl)
  exact ⟨quantities requests, quantities limits⟩

/-! ## What the controller accepts -/

/-- No quantity is negative, and no request is above its limit. -/
structure WithinLimits (requests limits : ResourceList) : Prop where
  request_nonneg : ∀ name request, requests.lookup name = some request → 0 ≤ request
  limit_nonneg : ∀ name limit, limits.lookup name = some limit → 0 ≤ limit
  within : ∀ name request limit, requests.lookup name = some request →
    limits.lookup name = some limit → request ≤ limit

theorem trimSpace_name {ends middle : List Char} {name : Api.Name ends middle}
    (parsed : Api.Name.parse ends middle name.1 = some name) : trimSpace name.1 ≠ "" := by
  have stripped : trimSpace name.1 = name.1 := by
    unfold Api.Name.parse at parsed
    split at parsed
    · exact congrArg Subtype.val (Option.some.inj parsed)
    · cases parsed
  intro empty
  have named := name.2
  rw [← stripped, empty] at named
  simp [Api.isName] at named

/-- An image that was registered passes the checks of the controller. -/
theorem image_of_registered (body : VersionCreate) : trimSpace body.runtimeImage ≠ "" ∧
    containsAny body.runtimeImage " \t\r\n" = false := by
  obtain ⟨value, -, -, validated⟩ := body.image_valid
  simp only [Api.validateRuntimeImage] at validated
  split at validated
  · cases validated
  · rename_i valid
    obtain ⟨given, free⟩ := not_or.1 valid
    rw [Except.ok.inj validated] at given free
    simp only [Bool.not_eq_true, List.any_eq_false] at free
    constructor
    · have stripped : trimSpace body.runtimeImage = body.runtimeImage := by
        refine Text.strip_eq_self_of_all fun c mem => ?_
        exact (Bool.or_eq_false_iff.1 (free c mem)).1
      rwa [stripped]
    · unfold containsAny
      rw [List.any_eq_false]
      intro c mem listed
      have spaces : " \t\r\n".toList.all isSpace = true := by decide
      have space := List.all_eq_true.1 spaces c (of_decide_eq_true listed)
      rw [free c mem] at space
      cases space

theorem validSpec_iff {md : ModelDeployment} {desired : DeploymentUpsert} {body : VersionCreate}
    {requests limits : ResourceList}
    (spec : md.spec = handedOver desired body.runtimeImage requests limits) :
    ValidSpec md ↔ WithinLimits requests limits := by
  have port := desiredRuntimePort_handedOver spec
  obtain ⟨metadata, mdSpec, status⟩ := md
  obtain rfl : mdSpec = _ := spec
  constructor
  · intro valid
    refine ⟨fun name request found => ?_, fun name limit found => ?_,
      fun name request limit found found' => ?_⟩
    · exact (requestError_eq_none_iff.1
        (valid.requests ⟨name, request⟩ (Finmap.lookup_eq_some_iff.1 found))).1
    · have fine := valid.limits ⟨name, limit⟩ (Finmap.lookup_eq_some_iff.1 found)
      unfold limitError at fine
      split_ifs at fine with negative
      exact not_lt.1 negative
    · exact (requestError_eq_none_iff.1
        (valid.requests ⟨name, request⟩ (Finmap.lookup_eq_some_iff.1 found))).2 limit found'
  · intro within
    obtain ⟨image, imageSpace⟩ := image_of_registered body
    refine ⟨trimSpace_name (Api.ResourceName.parse_val desired.model),
      trimSpace_name (Api.VersionName.parse_val desired.version), image, imageSpace,
      desired.replicas_valid, port.symm ▸ desired.port_valid, fun entry mem => ?_,
      fun entry mem => ?_⟩
    · have found : requests.lookup entry.1 = some entry.2 := Finmap.lookup_eq_some_iff.2 mem
      exact requestError_eq_none_iff.2
        ⟨within.request_nonneg _ _ found, fun limit => within.within _ _ _ found⟩
    · have found : limits.lookup entry.1 = some entry.2 := Finmap.lookup_eq_some_iff.2 mem
      exact if_neg (not_lt.2 (within.limit_nonneg _ _ found))

/-! ## What runs -/

/-- The Deployment runs what was requested; an empty map of quantities has its defaults. -/
structure RunsAs (desired : DeploymentUpsert) (image : String) (requests limits : ResourceList)
    (d : Deployment) : Prop where
  replicas : d.spec.replicas = some desired.replicas
  container : ∃ container, d.spec.template.spec.containers = [container] ∧ container.image = image ∧
    container.env =
      [{ name := "KERNEXYS_MODEL_NAME", value := desired.model.1 },
        { name := "KERNEXYS_MODEL_VERSION", value := desired.version.1 },
        { name := "KERNEXYS_RUNTIME_PORT", value := toString desired.port }] ∧
    container.ports = [{ name := "http", containerPort := desired.port, protocol := some .tcp }] ∧
    container.resources.requests =
      (if requests = ∅ then cpuAndMemory defaultCPURequest defaultMemoryRequest else requests) ∧
    container.resources.limits =
      (if limits = ∅ then cpuAndMemory defaultCPULimit defaultMemoryLimit else limits)

theorem runsAs_deploymentSpec {md : ModelDeployment} {desired : DeploymentUpsert} {image : String}
    {requests limits : ResourceList} (spec : md.spec = handedOver desired image requests limits)
    {d : Deployment} (written : d.spec = deploymentSpec md) :
    RunsAs desired image requests limits d := by
  have port := desiredRuntimePort_handedOver spec
  obtain ⟨metadata, mdSpec, status⟩ := md
  obtain rfl : mdSpec = _ := spec
  refine ⟨by rw [written]; rfl, runtimeContainer _, by rw [written]; rfl, rfl, ?_, ?_, rfl, rfl⟩
  · simp only [runtimeContainer, port]
    rfl
  · simp only [runtimeContainer, port]

/-- The quantities of the request that the schema admits are parsed.  Some texts of the schema are
not, such as a number with an exponent of twenty digits. -/
def Parses (parseQuantity : String → Option Quantity) (desired : DeploymentUpsert) : Prop :=
  ∀ entry ∈ desired.resources.requests.1 ++ desired.resources.limits.1,
    Text.fullmatch crdQuantityPattern entry.2 = true → (parseQuantity entry.2).isSome

/-- Every deployment that the API writes and the API server admits is decoded, if its quantities are
parsed, and the controller accepts it exactly when they are in order.  A reconcile then makes the
Deployment run the registered image with the model, version, replicas, port and resources of the
request; otherwise it leaves the children as they are, and the status is Degraded with the reason
InvalidSpec. -/
theorem requested_workload (parseQuantity : String → Option Quantity)
    (ns name : ResourceName) (desired : DeploymentUpsert) (body : VersionCreate)
    (parses : Parses parseQuantity desired) (resourceVersion : Json) {spec : Json}
    (submitted : (desiredResource ns.1 name.1 desired body.runtimeImage body.artifactDigest
      resourceVersion).field ["spec"] = some spec)
    (admitted : specSchema.accepts spec = true) :
    ∃ requests limits decoded, amounts parseQuantity desired.resources.requests.1 = some requests ∧
      amounts parseQuantity desired.resources.limits.1 = some limits ∧
      decodeSpec parseQuantity spec = some decoded ∧
      ∀ (order : MapOrder) (c : Cluster) (md : ModelDeployment),
        c.object .modelDeployment ⟨name.1, ns.1⟩ = some md → md.spec = decoded →
        md.metadata.deletionTimestamp = none →
        (∀ v, c.object .deployment ⟨name.1, ns.1⟩ = some v → ControlledBy md v.metadata) →
        (∀ v, c.object .service ⟨name.1, ns.1⟩ = some v → ControlledBy md v.metadata) →
        let c' := ((reconcile order ⟨name.1, ns.1⟩).run serve c).final
        (WithinLimits requests limits → ∃ d, c'.object .deployment ⟨name.1, ns.1⟩ = some d ∧
          RunsAs desired body.runtimeImage requests limits d) ∧
        (¬ WithinLimits requests limits →
          (∀ k key, k ≠ .modelDeployment → c'.object k key = c.object k key) ∧
          ∃ md' error, c'.object .modelDeployment ⟨name.1, ns.1⟩ = some md' ∧
            Finding.Shown ⟨.true, "InvalidSpec", error⟩ md.metadata.generation conditionDegraded
              md'.status.conditions) := by
  rw [field_desiredResource] at submitted
  obtain rfl := Option.some.inj submitted
  obtain ⟨requestTexts, limitTexts⟩ := crdQuantity_of_accepts admitted
  obtain ⟨requests, requested⟩ := exists_amounts fun entry mem =>
    parses entry (List.mem_append_left _ mem) (requestTexts entry mem)
  obtain ⟨limits, limited⟩ := exists_amounts fun entry mem =>
    parses entry (List.mem_append_right _ mem) (limitTexts entry mem)
  refine ⟨requests, limits, handedOver desired body.runtimeImage requests limits, requested, limited,
    decodeSpec_requestedSpec requested limited, ?_⟩
  intro order c md stored spec live deployment service
  dsimp only
  rw [← validSpec_iff spec]
  constructor
  · intro valid
    obtain ⟨-, converged, -⟩ :=
      run_reconcile_settles order stored live valid deployment service
    obtain ⟨d, found, -, written⟩ := converged.deployment
    exact ⟨d, found, runsAs_deploymentSpec spec written⟩
  · intro invalid
    obtain ⟨error, wrong⟩ : ∃ error, validateSpec order md = some error := by
      rw [← Option.ne_none_iff_exists']
      exact fun none => invalid ((validateSpec_eq_none_iff order md).1 none)
    obtain ⟨log, c', write, ⟨version, recorded⟩, others⟩ :=
      run_updateStatusIfChanged (invalidStatus md error fun _ => c.clock) stored
    rw [run_reconcile_invalid stored live wrong, write]
    refine ⟨fun k key child => others k key child, _, error, recorded, ?_⟩
    show Finding.Shown _ _ _ (invalidStatus md error fun _ => c.clock).conditions
    unfold invalidStatus
    rw [failureStatus_eq]
    exact (Report.shown_write _ _ _ _).degraded

/-- The suffixes of quantities, without those of the largest amounts. -/
def suffixes : List (String × Quantity) :=
  [("n", 1), ("u", 10 ^ 3), ("m", 10 ^ 6), ("", 10 ^ 9), ("k", 10 ^ 12), ("M", 10 ^ 15),
    ("G", 10 ^ 18), ("Ki", 2 ^ 10 * 10 ^ 9), ("Mi", 2 ^ 20 * 10 ^ 9), ("Gi", 2 ^ 30 * 10 ^ 9)]

/-- `ParseQuantity` on a natural number with a suffix. -/
def parseWhole (text : String) : Option Quantity :=
  let digits := text.toList.takeWhile Char.isDigit
  if digits = [] then
    none
  else
    (suffixes.lookup (String.ofList (text.toList.dropWhile Char.isDigit))).map
      (digits.foldl (fun n digit => 10 * n + (digit.toNat - 48 : ℕ)) 0 * ·)

/-- `"1Mi"`. -/
def oneMebi : ResourceList := (∅ : ResourceList).insert "memory" (2 ^ 20 * 10 ^ 9)

/-- `"1Gi"`. -/
def oneGibi : ResourceList := (∅ : ResourceList).insert "memory" (2 ^ 30 * 10 ^ 9)

theorem oneMebi_within_oneGibi : WithinLimits oneMebi oneGibi := by
  have only {quantity value : Quantity} {name : String}
      (found : ((∅ : ResourceList).insert "memory" quantity).lookup name = some value) :
      value = quantity := by
    by_cases memory : name = "memory"
    · subst memory
      rw [Finmap.lookup_insert] at found
      exact (Option.some.inj found).symm
    · rw [Finmap.lookup_insert_of_ne _ memory, Finmap.lookup_empty] at found
      cases found
  refine ⟨fun name request found => ?_, fun name limit found => ?_,
    fun name request limit requested limited => ?_⟩
  · rw [only found]
    decide
  · rw [only found]
    decide
  · rw [only requested, only limited]
    decide

/-- A deployment with quantities, as the controller reads it. -/
def handedOverMemory : ModelDeployment :=
  ⟨{ name := "m", ns := "m" }, handedOver Api.memoryDeployment "image" oneMebi oneGibi, {}⟩

theorem requested_workload_memory :
    ∃ d, ((reconcile MapOrder.any ⟨"m", "m"⟩).run serve
        (Cluster.empty.put .modelDeployment handedOverMemory)).final.object .deployment
          ⟨"m", "m"⟩ = some d ∧
      RunsAs Api.memoryDeployment "image" oneMebi oneGibi d := by
  have parses : Parses parseWhole Api.memoryDeployment := by
    intro entry mem _
    rcases List.mem_pair.1 mem with rfl | rfl <;> decide
  obtain ⟨requests, limits, decoded, requested, limited, read, run⟩ :=
    requested_workload parseWhole Api.sampleModel Api.sampleModel Api.memoryDeployment
      Api.sampleBody parses .null rfl (by decide +kernel)
  obtain rfl : oneMebi = requests := Option.some.inj requested
  obtain rfl : oneGibi = limits := Option.some.inj limited
  have same : handedOver Api.memoryDeployment "image" oneMebi oneGibi = decoded :=
    Option.some.inj ((decodeSpec_requestedSpec requested limited).symm.trans read)
  refine (run MapOrder.any _ (Cluster.empty.stamp (k := .modelDeployment) handedOverMemory) rfl same
    rfl (fun v found => ?_) (fun v found => ?_)).1 oneMebi_within_oneGibi
  · cases found
  · cases found

end Kernexys.Controller
