import Kernexys.Api.Schemas

/-!
# ModelDeployment resources as the API writes and reads them

`_desired_resource`, `_resource_to_read` and `_deployment_error` of `deployment_routes.py`, with the
schemas they validate against.
-/

namespace Kernexys.Api

/-- `ApiError`.  The errors of these routes have no details. -/
structure ApiError where
  statusCode : ℕ
  code : String
  message : String
  deriving DecidableEq

/-! ## Validation of JSON values -/

/-- How pydantic converts JSON values in lax mode.  Only what it makes of an integer is fixed. -/
structure Coercions where
  int : Json → Option ℤ
  datetime : Json → Option ℤ
  int_int : ∀ n, int (.int n) = some n

/-- A field with a default. -/
def fieldOr {α : Type} (value : Option Json) (default : α) (validate : Json → Option α) : Option α :=
  match value with
  | some value => validate value
  | none => some default

@[simp] theorem fieldOr_some {α : Type} (value : Json) (default : α) (validate : Json → Option α) :
    fieldOr (some value) default validate = validate value := rfl

@[simp] theorem fieldOr_none {α : Type} (default : α) (validate : Json → Option α) :
    fieldOr none default validate = some default := rfl

theorem fieldOr_int (lax : Coercions) (value : Option Json) (default : ℤ) :
    fieldOr value default lax.int = lax.int (value.getD (.int default)) := by
  cases value with
  | some value => rfl
  | none => exact (lax.int_int default).symm

/-- `dict[str, str]`. -/
def textEntries (value : Json) : Option (List (String × String)) := do
  let fields ← value.dict
  fields.mapM fun entry => do return (entry.1, ← entry.2.text)

/-- One of the two maps of `DeploymentResources`. -/
def Quantities.validate (value : Json) : Option Quantities := do
  let entries ← textEntries value
  (validateResources entries).toOption

/-- `DeploymentResources`, which forbids other fields. -/
def DeploymentResources.validate (value : Json) : Option DeploymentResources := do
  let fields ← value.dict
  if fields.all fun entry => entry.1 == "requests" || entry.1 == "limits" then
    let requests ← fieldOr (fields.lookup "requests") ⟨[], Quantities.valid_nil⟩ Quantities.validate
    let limits ← fieldOr (fields.lookup "limits") ⟨[], Quantities.valid_nil⟩ Quantities.validate
    return ⟨requests, limits⟩
  else none

/-- `DeploymentUpsert` of a model, a version and values read from a stored resource. -/
def DeploymentUpsert.validate (lax : Coercions) (model version : String)
    (replicas port resources : Json) : Option DeploymentUpsert := do
  let model ← Name.parse _ _ model
  let version ← Name.parse _ _ version
  let replicas ← lax.int replicas
  let port ← lax.int port
  let resources ← DeploymentResources.validate resources
  if replicas_valid : 1 ≤ replicas ∧ replicas ≤ 100 then
    if port_valid : 1 ≤ port ∧ port ≤ 65535 then
      some { model, version, replicas, port, resources, replicas_valid, port_valid }
    else none
  else none

/-- The names of a validated deployment are those that were given. -/
theorem DeploymentUpsert.validate_eq_some {lax : Coercions} {model version : String}
    {replicas port resources : Json} {desired : DeploymentUpsert}
    (validated : validate lax model version replicas port resources = some desired) :
    Name.parse _ _ model = some desired.model ∧ Name.parse _ _ version = some desired.version := by
  simp only [validate, Option.bind_eq_bind, Option.bind_eq_some_iff] at validated
  obtain ⟨model, parsedModel, version, parsedVersion, replicas, -, port, -, resources, -, rest⟩ :=
    validated
  split at rest
  · split at rest
    · cases rest
      exact ⟨parsedModel, parsedVersion⟩
    · cases rest
  · cases rest

/-! ## Writing -/

/-- The annotation with the digest of the artifact. -/
def artifactDigestKey : String := "platform.kernexys.io/artifact-digest"

/-- Where a ModelDeployment has the name of its model. -/
def modelNamePath : List String := ["spec", "model", "name"]

/-- Where a ModelDeployment has the version of its model. -/
def modelVersionPath : List String := ["spec", "model", "version"]

/-- Where a ModelDeployment has its image. -/
def imagePath : List String := ["spec", "runtime", "image"]

/-- Where a ModelDeployment has its port. -/
def portPath : List String := ["spec", "runtime", "port"]

/-- Where a ModelDeployment has its number of replicas. -/
def replicasPath : List String := ["spec", "replicas"]

/-- Where a ModelDeployment has its resource requests. -/
def requestsPath : List String := ["spec", "resources", "requests"]

/-- Where a ModelDeployment has its resource limits. -/
def limitsPath : List String := ["spec", "resources", "limits"]

/-- Where a ModelDeployment has the digest of its artifact. -/
def digestPath : List String := ["metadata", "annotations", artifactDigestKey]

/-- `model_dump` of the resources. -/
def DeploymentResources.dump (resources : DeploymentResources) : Json :=
  let entries := fun quantities : Quantities =>
    Json.obj (quantities.1.map fun entry => (entry.1, .str entry.2))
  .obj [("requests", entries resources.requests), ("limits", entries resources.limits)]

/-- `_desired_resource`. -/
def desiredResource (ns name : String) (desired : DeploymentUpsert) (runtimeImage : String)
    (artifactDigest : Option String) (resourceVersion : Json := .null) : Json :=
  let digest := artifactDigest.getD ""
  let metadata : Dict :=
    [("name", .str name),
      ("namespace", .str ns),
      ("labels", .obj [("app.kubernetes.io/managed-by", .str "kernexys-control-api"),
        ("app.kubernetes.io/part-of", .str "kernexys")])] ++
    (if digest ≠ "" then [("annotations", .obj [(artifactDigestKey, .str digest)])] else []) ++
    (if resourceVersion.truthy then [("resourceVersion", resourceVersion)] else [])
  .obj
    [("apiVersion", .str "platform.kernexys.io/v1alpha1"),
      ("kind", .str "ModelDeployment"),
      ("metadata", .obj metadata),
      ("spec", .obj
        [("model", .obj [("name", .str desired.model.1), ("version", .str desired.version.1)]),
          ("runtime", .obj [("image", .str runtimeImage), ("port", .int desired.port)]),
          ("replicas", .int desired.replicas),
          ("resources", desired.resources.dump)])]

/-! ## Reading -/

/-- The schema `DeploymentCondition` of the API. -/
structure DeploymentCondition where
  type : String
  status : String
  observedGeneration : ℤ
  reason : String
  message : String
  lastTransitionTime : Option ℤ

/-- The schema `DeploymentStatus` of the API. -/
structure DeploymentStatus where
  observedGeneration : ℤ
  desiredReplicas : ℤ
  readyReplicas : ℤ
  activeModel : String
  activeVersion : String
  endpoint : String
  conditions : List DeploymentCondition

/-- The schema `DeploymentSpecRead` of the API. -/
structure DeploymentSpecRead where
  model : String
  version : String
  runtimeImage : String
  replicas : ℤ
  port : ℤ
  resources : DeploymentResources

/-- The schema `DeploymentRead` of the API. -/
structure DeploymentRead where
  name : String
  ns : String
  generation : ℤ
  resourceVersion : String
  createdAt : Option ℤ
  spec : DeploymentSpecRead
  status : DeploymentStatus

/-- A field that is found by its alias or by its name. -/
def aliased (fields : Dict) (aliasName name : String) : Option Json :=
  (fields.lookup aliasName).or (fields.lookup name)

/-- `datetime | None`. -/
def Coercions.optionalDatetime (lax : Coercions) : Json → Option (Option ℤ)
  | .null => some none
  | value => (lax.datetime value).map some

/-- Validation of a `DeploymentCondition`, by alias or by name. -/
def DeploymentCondition.validate (lax : Coercions) (value : Json) : Option DeploymentCondition := do
  let fields ← value.dict
  let type ← (← fields.lookup "type").text
  let status ← (← fields.lookup "status").text
  let observedGeneration ←
    fieldOr (aliased fields "observedGeneration" "observed_generation") 0 lax.int
  let reason ← fieldOr (fields.lookup "reason") "" Json.text
  let message ← fieldOr (fields.lookup "message") "" Json.text
  let lastTransitionTime ←
    fieldOr (aliased fields "lastTransitionTime" "last_transition_time") none lax.optionalDatetime
  return { type, status, observedGeneration, reason, message, lastTransitionTime }

/-- `list[DeploymentCondition]`. -/
def conditionList (lax : Coercions) : Json → Option (List DeploymentCondition)
  | .arr items => items.mapM (DeploymentCondition.validate lax)
  | _ => none

/-- Validation of a `DeploymentStatus`, by alias or by name. -/
def DeploymentStatus.validate (lax : Coercions) (value : Json) : Option DeploymentStatus := do
  let fields ← value.dict
  let observedGeneration ←
    fieldOr (aliased fields "observedGeneration" "observed_generation") 0 lax.int
  let desiredReplicas ← fieldOr (aliased fields "desiredReplicas" "desired_replicas") 0 lax.int
  let readyReplicas ← fieldOr (aliased fields "readyReplicas" "ready_replicas") 0 lax.int
  let activeModel ← fieldOr (aliased fields "activeModel" "active_model") "" Json.text
  let activeVersion ← fieldOr (aliased fields "activeVersion" "active_version") "" Json.text
  let endpoint ← fieldOr (fields.lookup "endpoint") "" Json.text
  let conditions ← fieldOr (fields.lookup "conditions") [] (conditionList lax)
  return { observedGeneration, desiredReplicas, readyReplicas, activeModel, activeVersion, endpoint,
           conditions }

/-- The body of `_resource_to_read`; every exception it can meet is one that it catches. -/
def readResource (lax : Coercions) (resource : Json) : Option DeploymentRead := do
  let fields ← resource.dict
  let metadata ← (← fields.lookup "metadata").dict
  let spec ← (← fields.lookup "spec").dict
  let model ← (← spec.lookup "model").dict
  let runtime ← (← spec.lookup "runtime").dict
  let status ← DeploymentStatus.validate lax ((fields.lookup "status").getD (.obj []))
  let name ← (← metadata.lookup "name").text
  let ns ← (← metadata.lookup "namespace").text
  let generation ← fieldOr (metadata.lookup "generation") 0 lax.int
  let resourceVersion ← fieldOr (metadata.lookup "resourceVersion") "" Json.text
  let createdAt ← fieldOr (metadata.lookup "creationTimestamp") none lax.optionalDatetime
  let modelName ← (← model.lookup "name").text
  let version ← (← model.lookup "version").text
  let runtimeImage ← (← runtime.lookup "image").text
  let replicas ← fieldOr (spec.lookup "replicas") 1 lax.int
  let port ← fieldOr (runtime.lookup "port") 8080 lax.int
  let resources ← DeploymentResources.validate ((spec.lookup "resources").getD (.obj []))
  return { name, ns, generation, resourceVersion, createdAt, status,
           spec := { model := modelName, version, runtimeImage, replicas, port, resources } }

/-- `_resource_to_read`. -/
def resourceToRead (lax : Coercions) (resource : Json) : Except ApiError DeploymentRead :=
  match readResource lax resource with
  | some value => .ok value
  | none => .error ⟨502, "invalid_deployment_state",
      "Kubernetes returned a malformed ModelDeployment resource."⟩

/-! ## Errors of the gateway -/

/-- The error that the gateway raises. -/
structure DeploymentGatewayError where
  status : ℕ
  reason : String
  deriving DecidableEq

/-- `_deployment_error`. -/
def deploymentError (error : DeploymentGatewayError) (ns name : String) : ApiError :=
  if error.status = 404 then
    ⟨404, "deployment_not_found", "Deployment '" ++ ns ++ "/" ++ name ++ "' was not found."⟩
  else if error.status = 409 then
    ⟨409, "deployment_conflict",
      "The desired state conflicts with another Kubernetes field manager or update."⟩
  else if error.status = 422 then
    ⟨422, "deployment_rejected", "Kubernetes rejected the ModelDeployment desired state."⟩
  else if error.status = 401 ∨ error.status = 403 then
    ⟨503, "kubernetes_forbidden", "The control API is not authorized to manage ModelDeployments."⟩
  else ⟨503, "kubernetes_unavailable", "The Kubernetes API is unavailable."⟩

end Kernexys.Api
