import Kernexys.Api.Resource
import Kernexys.Controller.Objects
import Kernexys.Lib.OpenApi

/-!
# ModelDeployments as the cluster holds them

The schema of the custom resource definition and the JSON of the statuses that the controller writes.
Resources that other clients created satisfy the schema too, but never passed through the encoder of
the API.
-/

namespace Kernexys.Api

open RegularExpression Text Controller

/-! ## The schema of the spec -/

/-- The pattern of the quantities. -/
def crdQuantityPattern : RegularExpression Char :=
  let digit := oneOf (span '0' 10)
  let sign := optional (char '+' + char '-')
  let number := repeated digit * optional (char '.' * star digit) + char '.' * repeated digit
  let suffix := oneOf ['K', 'M', 'G', 'T', 'P', 'E'] * char 'i' +
    oneOf ['n', 'u', 'm', 'k', 'M', 'G', 'T', 'P', 'E'] + oneOf ['e', 'E'] * sign * number
  sign * number * optional suffix

/-- The schema of `spec.model`. -/
def modelSchema : Schema :=
  .object
    [("name", .string 1 63 (some (bounded lowerAlphanumeric ('-' :: lowerAlphanumeric)))),
      ("version", .string 1 63 (some (bounded alphanumeric ('-' :: '.' :: '_' :: alphanumeric))))]
    ["name", "version"]

/-- The schema of `spec.resources`. -/
def resourcesSchema : Schema :=
  .object
    [("limits", .map (.intOrString crdQuantityPattern)),
      ("requests", .map (.intOrString crdQuantityPattern))]
    []

/-- The schema of `spec.runtime`. -/
def runtimeSchema : Schema :=
  .object [("image", .string 1 512 none), ("port", .integer 1 65535)] ["image"]

/-- The schema of `spec`. -/
def specSchema : Schema :=
  .object
    [("model", modelSchema), ("replicas", .integer 1 100), ("resources", resourcesSchema),
      ("runtime", runtimeSchema)]
    ["model", "runtime"]

/-- No quantity of the schema has white space. -/
theorem strip_crdQuantity {quantity : String} (valid : fullmatch crdQuantityPattern quantity = true) :
    strip isSpace quantity = quantity :=
  strip_of_fullmatch (by decide) valid

/-- The fields of a valid spec. -/
structure SpecFields (spec : Dict) where
  model : Dict
  runtime : Dict
  name : ResourceName
  version : VersionName
  image : String
  spec_model : spec.lookup "model" = some (.obj model)
  spec_runtime : spec.lookup "runtime" = some (.obj runtime)
  model_name : model.lookup "name" = some (.str name.1)
  model_version : model.lookup "version" = some (.str version.1)
  runtime_image : runtime.lookup "image" = some (.str image)
  replicas : ∀ value, spec.lookup "replicas" = some value → ∃ n, value = .int n ∧ 1 ≤ n ∧ n ≤ 100
  port : ∀ value, runtime.lookup "port" = some value → ∃ n, value = .int n ∧ 1 ≤ n ∧ n ≤ 65535
  resources : ∀ value, spec.lookup "resources" = some value → resourcesSchema.accepts value = true

/-- A text that the schema takes for a name is one to the API too. -/
theorem exists_name (middle : List Char) {ends : List Char} {value : Json}
    (valid : (Schema.string 1 63 (some (bounded ends (middle ++ ends)))).accepts value = true) :
    ∃ name : Name ends middle, value = .str name.1 := by
  obtain ⟨s, rfl, ⟨short, long⟩, matched⟩ := Schema.accepts_string valid
  refine ⟨⟨s, ?_⟩, rfl⟩
  rw [isName, matched _ rfl]
  simpa using ⟨short, long⟩

theorem accepts_spec {value : Json} (valid : specSchema.accepts value = true) :
    ∃ spec, value = .obj spec ∧ Nonempty (SpecFields spec) := by
  obtain ⟨spec, rfl, object⟩ := Schema.accepts_object valid
  obtain ⟨_, specModel, valid⟩ := object.property_of_required "model" (by decide) rfl
  obtain ⟨model, rfl, modelObject⟩ := Schema.accepts_object valid
  obtain ⟨_, modelName, valid⟩ := modelObject.property_of_required "name" (by decide) rfl
  obtain ⟨name, rfl⟩ := exists_name ['-'] valid
  obtain ⟨_, modelVersion, valid⟩ :=
    modelObject.property_of_required "version" (by decide) rfl
  obtain ⟨version, rfl⟩ := exists_name ['-', '.', '_'] valid
  obtain ⟨_, specRuntime, valid⟩ := object.property_of_required "runtime" (by decide) rfl
  obtain ⟨runtime, rfl, runtimeObject⟩ := Schema.accepts_object valid
  obtain ⟨_, runtimeImage, valid⟩ :=
    runtimeObject.property_of_required "image" (by decide) rfl
  obtain ⟨image, rfl, -⟩ := Schema.accepts_string valid
  refine ⟨spec, rfl, ⟨⟨model, runtime, name, version, image, specModel, specRuntime, modelName,
    modelVersion, runtimeImage, fun value found => ?_, fun value found => ?_, fun value found => ?_⟩⟩⟩
  · obtain ⟨_, ⟨⟩, valid⟩ := object.property found
    exact Schema.accepts_integer valid
  · obtain ⟨_, ⟨⟩, valid⟩ := runtimeObject.property found
    exact Schema.accepts_integer valid
  · obtain ⟨_, ⟨⟩, valid⟩ := object.property found
    exact valid

/-- Absent replicas are the default. -/
theorem SpecFields.exists_replicas {spec : Dict} (fields : SpecFields spec) :
    ∃ n, (1 ≤ n ∧ n ≤ 100) ∧ (spec.lookup "replicas").getD (.int 1) = .int n := by
  cases found : spec.lookup "replicas" with
  | none => exact ⟨1, by decide, rfl⟩
  | some value =>
    obtain ⟨n, rfl, range⟩ := fields.replicas value found
    exact ⟨n, range, rfl⟩

/-- An absent port is the default. -/
theorem SpecFields.exists_port {spec : Dict} (fields : SpecFields spec) :
    ∃ n, (1 ≤ n ∧ n ≤ 65535) ∧ (fields.runtime.lookup "port").getD (.int 8080) = .int n := by
  cases found : fields.runtime.lookup "port" with
  | none => exact ⟨8080, by decide, rfl⟩
  | some value =>
    obtain ⟨n, rfl, range⟩ := fields.port value found
    exact ⟨n, range, rfl⟩

/-- Absent resources are empty. -/
theorem SpecFields.accepts_resources {spec : Dict} (fields : SpecFields spec) :
    resourcesSchema.accepts ((spec.lookup "resources").getD (.obj [])) = true := by
  cases found : spec.lookup "resources" with
  | none => rfl
  | some value => exact fields.resources value found

/-! ## The status of the controller -/

/-- The texts that Kubernetes writes for points in time, which pydantic reads back. -/
structure Timestamps (lax : Coercions) where
  rfc3339 : ℤ → String
  datetime_rfc3339 : ∀ time, lax.datetime (.str (rfc3339 time)) = some time

theorem Timestamps.optionalDatetime_rfc3339 {lax : Coercions} (times : Timestamps lax) (time : ℤ) :
    lax.optionalDatetime (.str (times.rfc3339 time)) = some (some time) := by
  rw [Coercions.optionalDatetime, times.datetime_rfc3339]
  · rfl
  · rintro ⟨⟩

/-- A field with the tag `omitempty`. -/
def omitEmpty {α : Type} [DecidableEq α] (key : String) (value zero : α) (encode : α → Json) : Dict :=
  if value = zero then [] else [(key, encode value)]

/-- The text of a condition status. -/
def conditionStatusText : ConditionStatus → String
  | .true => "True"
  | .false => "False"
  | .unknown => "Unknown"

variable {lax : Coercions} (times : Timestamps lax)

/-- The JSON of a `metav1.Condition`. -/
def encodeCondition (condition : Condition) : Json :=
  .obj (
    [("type", .str condition.type), ("status", .str (conditionStatusText condition.status))] ++
    omitEmpty "observedGeneration" condition.observedGeneration 0 .int ++
    [("lastTransitionTime", .str (times.rfc3339 condition.lastTransitionTime)),
      ("reason", .str condition.reason), ("message", .str condition.message)])

/-- The JSON of a `ModelDeploymentStatus`. -/
def encodeStatus (status : ModelDeploymentStatus) : Json :=
  .obj (
    omitEmpty "observedGeneration" status.observedGeneration 0 .int ++
    omitEmpty "desiredReplicas" status.desiredReplicas 0 .int ++
    omitEmpty "readyReplicas" status.readyReplicas 0 .int ++
    omitEmpty "activeModel" status.activeModel "" .str ++
    omitEmpty "activeVersion" status.activeVersion "" .str ++
    omitEmpty "endpoint" status.endpoint "" .str ++
    omitEmpty "conditions" status.conditions [] fun conditions =>
      .arr (conditions.map (encodeCondition times)))

/-- The condition with the names of the API. -/
def conditionRead (condition : Condition) : DeploymentCondition :=
  ⟨condition.type, conditionStatusText condition.status, condition.observedGeneration,
    condition.reason, condition.message, some condition.lastTransitionTime⟩

/-- The status with the names of the API. -/
def statusRead (status : ModelDeploymentStatus) : DeploymentStatus :=
  ⟨status.observedGeneration, status.desiredReplicas, status.readyReplicas, status.activeModel,
    status.activeVersion, status.endpoint, status.conditions.map conditionRead⟩

section OmitEmpty

variable {α β : Type} [DecidableEq α] {key key' : String} {value zero : α} {encode : α → Json}

theorem lookup_omitEmpty_ne (ne : key' ≠ key) :
    (omitEmpty key value zero encode).lookup key' = none := by
  unfold omitEmpty
  split
  · rfl
  · simp [List.lookup, beq_false_of_ne ne]

/-- A field that was left out is read as its default, which is the zero value. -/
theorem fieldOr_omitEmpty {validate : Json → Option β} {f : α → β}
    (reads : ∀ value, validate (encode value) = some (f value)) :
    fieldOr ((omitEmpty key value zero encode).lookup key) (f zero) validate = some (f value) := by
  unfold omitEmpty
  split
  next eq => rw [eq]; rfl
  next => simpa [fieldOr] using reads value

end OmitEmpty

theorem DeploymentCondition.validate_encodeCondition (condition : Condition) :
    DeploymentCondition.validate lax (encodeCondition times condition) =
      some (conditionRead condition) := by
  have generation : fieldOr ((omitEmpty "observedGeneration" condition.observedGeneration 0
      Json.int).lookup "observedGeneration") 0 lax.int = some condition.observedGeneration :=
    fieldOr_omitEmpty (f := id) lax.int_int
  simp (disch := decide) [validate, encodeCondition, Json.dict, aliased, List.lookup_append,
    lookup_omitEmpty_ne, List.lookup, generation, Json.text, times.optionalDatetime_rfc3339,
    conditionRead]

theorem conditionList_encode (conditions : List Condition) :
    conditionList lax (.arr (conditions.map (encodeCondition times))) =
      some (conditions.map conditionRead) := by
  rw [conditionList]
  induction conditions with
  | nil => rfl
  | cons condition conditions ih =>
    rw [List.map_cons, List.mapM_cons, DeploymentCondition.validate_encodeCondition, ih]
    rfl

theorem DeploymentStatus.validate_encodeStatus (status : ModelDeploymentStatus) :
    DeploymentStatus.validate lax (encodeStatus times status) = some (statusRead status) := by
  have number : ∀ key (n : ℤ), fieldOr ((omitEmpty key n 0 Json.int).lookup key) 0 lax.int = some n :=
    fun _ _ => fieldOr_omitEmpty (f := id) lax.int_int
  have text : ∀ key (s : String),
      fieldOr ((omitEmpty key s "" Json.str).lookup key) "" Json.text = some s :=
    fun _ _ => fieldOr_omitEmpty (f := id) fun _ => rfl
  have conditions : fieldOr ((omitEmpty "conditions" status.conditions [] fun conditions =>
      .arr (conditions.map (encodeCondition times))).lookup "conditions") [] (conditionList lax) =
        some (status.conditions.map conditionRead) :=
    fieldOr_omitEmpty (f := List.map conditionRead) (conditionList_encode times)
  simp (disch := decide) only [validate, encodeStatus, Json.dict, aliased, List.lookup_append,
    lookup_omitEmpty_ne, Option.or_none, Option.none_or, Option.bind_eq_bind, Option.bind_some,
    number, text, conditions]
  rfl

/-! ## Resources -/

/-- A ModelDeployment that the cluster can hold: its spec is valid, the controller wrote its status
unless there is none yet, and the server maintains its metadata. -/
structure Held (resource : Json) : Prop where
  spec : ∃ spec, resource.field ["spec"] = some spec ∧ specSchema.accepts spec = true
  status : resource.field ["status"] = none ∨
    ∃ status, resource.field ["status"] = some (encodeStatus times status)
  name : ∃ name, resource.field ["metadata", "name"] = some (.str name)
  ns : ∃ ns, resource.field ["metadata", "namespace"] = some (.str ns)
  generation : ∃ generation, resource.field ["metadata", "generation"] = some (.int generation)
  resourceVersion : ∃ version, version ≠ "" ∧
    resource.field ["metadata", "resourceVersion"] = some (.str version)
  creationTimestamp : ∃ time,
    resource.field ["metadata", "creationTimestamp"] = some (.str (times.rfc3339 time))

variable {times} {resource : Json}

theorem Held.exists_fields (held : Held times resource) :
    ∃ fields metadata spec, resource = .obj fields ∧
      fields.lookup "metadata" = some (.obj metadata) ∧ fields.lookup "spec" = some (.obj spec) ∧
      Nonempty (SpecFields spec) := by
  obtain ⟨spec, found, valid⟩ := held.spec
  obtain ⟨fields, _, rfl, foundSpec, ⟨⟩⟩ := Json.field_cons_eq_some_iff.1 found
  obtain ⟨spec, rfl, specFields⟩ := accepts_spec valid
  obtain ⟨name, found⟩ := held.name
  obtain ⟨_, value, ⟨⟩, foundMetadata, inner⟩ := Json.field_cons_eq_some_iff.1 found
  obtain ⟨metadata, _, rfl, -⟩ := Json.field_cons_eq_some_iff.1 inner
  exact ⟨fields, metadata, spec, rfl, foundMetadata, foundSpec, specFields⟩

/-- The status of a resource can be read. -/
theorem Held.exists_status (held : Held times resource) :
    ∃ status, DeploymentStatus.validate lax ((resource.field ["status"]).getD (.obj [])) =
      some status := by
  rcases held.status with absent | ⟨status, found⟩
  · rw [absent]
    exact ⟨_, rfl⟩
  · rw [found]
    exact ⟨_, DeploymentStatus.validate_encodeStatus times status⟩

end Kernexys.Api
