import Kernexys.Api.Database
import Kernexys.Api.Gateway
import Kernexys.Lib.Program

/-!
# The routes

`repository.py` and the handlers of `routes.py` and `deployment_routes.py` as programs that make one
database round trip or Kubernetes call at a time.
-/

namespace Kernexys.Api

/-! ## Calls -/

/-- The calls of a handler: to the database and to Kubernetes. -/
inductive Op where
  | query (query : Query)
  | kubernetes (call : KubernetesCall)

/-- What a call replies. -/
abbrev Op.Reply : Op → Type
  | query q => q.Reply
  | kubernetes call => call.Reply

/-- A handler, up to its calls. -/
abbrev Code (α : Type) : Type := Program Op Op.Reply α

/-- A call with its reply. -/
abbrev Event : Type := Program.Event Op Op.Reply

namespace Session

/-- `session.get` of a model. -/
def getModel (name : String) : Code (Option RegisteredModel) :=
  Program.perform (Op.query (.getModel name))

/-- The commit of a new model. -/
def insertModel (name : String) (description : Option String) : Code (Except SqlError Unit) :=
  Program.perform (Op.query (.insertModel name description))

/-- The commit of a changed description. -/
def updateModel (name : String) (description : Option String) : Code (Except SqlError Unit) :=
  Program.perform (Op.query (.updateModel name description))

/-- `session.refresh` of a model. -/
def refreshModel (name : String) : Code (Except SqlError RegisteredModel) :=
  Program.perform (Op.query (.refreshModel name))

/-- The lookup of a version of a model. -/
def getVersion (modelName version : String) : Code (Option ModelVersion) :=
  Program.perform (Op.query (.getVersion modelName version))

/-- The commit of a new version. -/
def insertVersion (record : VersionRecord) : Code (Except SqlError ℕ) :=
  Program.perform (Op.query (.insertVersion record))

/-- `session.refresh` of a version. -/
def refreshVersion (id : ℕ) : Code (Except SqlError ModelVersion) :=
  Program.perform (Op.query (.refreshVersion id))

/-- `session.rollback`. -/
def rollback : Code Unit := Program.perform (Op.query .rollback)

end Session

/-! ## The repository -/

/-- `WriteResult`: what was written, and whether it is new. -/
structure WriteResult (α : Type) where
  value : α
  created : Bool

namespace RegistryRepository

/-- The end of `put_model`: the model exists. -/
def updateDescription (model : RegisteredModel) (description : Option String) :
    Code (Except SqlError (WriteResult RegisteredModel)) := do
  if model.description ≠ description then
    match ← Session.updateModel model.name description with
    | .error e => return .error e
    | .ok _ =>
      match ← Session.refreshModel model.name with
      | .error e => return .error e
      | .ok model => return .ok ⟨model, false⟩
  else return .ok ⟨model, false⟩

/-- The commit of a new model and the refresh after it. -/
def insertModel (name : String) (description : Option String) :
    Code (Except SqlError RegisteredModel) := do
  match ← Session.insertModel name description with
  | .error e => return .error e
  | .ok _ => Session.refreshModel name

/-- `put_model`. -/
def putModel (name : String) (description : Option String) :
    Code (Except SqlError (WriteResult RegisteredModel)) := do
  match ← Session.getModel name with
  | some model => updateDescription model description
  | none =>
    match ← insertModel name description with
    | .ok model => return .ok ⟨model, true⟩
    | .error .integrityError =>
      Session.rollback
      match ← Session.getModel name with
      | none => return .error .integrityError
      | some model => updateDescription model description
    | .error e => return .error e

/-- The commit of a new version and the refresh after it. -/
def insertVersion (record : VersionRecord) : Code (Except SqlError ModelVersion) := do
  match ← Session.insertVersion record with
  | .error e => return .error e
  | .ok id => Session.refreshVersion id

/-- `put_version`. -/
def putVersion (record : VersionRecord) : Code (Except SqlError (WriteResult ModelVersion)) := do
  match ← Session.getVersion record.modelName record.version with
  | some existing => return .ok ⟨existing, false⟩
  | none =>
    match ← insertVersion record with
    | .ok value => return .ok ⟨value, true⟩
    | .error .integrityError =>
      Session.rollback
      match ← Session.getVersion record.modelName record.version with
      | none => return .error .integrityError
      | some existing => return .ok ⟨existing, false⟩
    | .error e => return .error e

end RegistryRepository

/-- `version_matches`. -/
def versionMatches (value : ModelVersion) (body : VersionCreate) : Bool :=
  value.runtimeImage == body.runtimeImage && value.artifactDigest == body.artifactDigest &&
    Json.eq (.obj value.metadataJson) (.obj body.metadata)

/-! ## Responses -/

/-- The schema `VersionRead` of the API. -/
structure VersionRead where
  modelName : String
  version : String
  runtimeImage : String
  artifactDigest : Option String
  metadata : Dict
  createdAt : ℤ

/-- The response for a row, as `from_attributes` reads it. -/
def VersionRead.ofRow (row : ModelVersion) : VersionRead :=
  ⟨row.modelName, row.version, row.runtimeImage, row.artifactDigest, row.metadataJson, row.createdAt⟩

/-- A response with its status code; a model is read with all its columns. -/
inductive Response where
  | model (status : ℕ) (value : RegisteredModel)
  | version (status : ℕ) (value : VersionRead)
  | deployment (value : DeploymentRead)
  | noContent

/-- The exceptions that a handler can end with. -/
inductive Failure where
  | api (error : ApiError)
  | sql (error : SqlError)
  | attributeError

/-! ## The registry routes -/

/-- The 404 for a model. -/
def modelNotFound (modelName : String) : ApiError :=
  ⟨404, "model_not_found", "Model '" ++ modelName ++ "' was not found."⟩

/-- The 409 for a version with other content. -/
def immutableModelVersion (modelName version : String) : ApiError :=
  ⟨409, "immutable_model_version",
    "Model version '" ++ modelName ++ ":" ++ version ++ "' already exists with different content."⟩

/-- `put_model`. -/
def putModel (modelName : ResourceName) (body : ModelUpsert) : Code (Except Failure Response) := do
  match ← RegistryRepository.putModel modelName.1 body.description with
  | .error e => return .error (.sql e)
  | .ok result => return .ok (.model (if result.created then 201 else 200) result.value)

/-- The record that a version request stores. -/
def versionRecord (modelName : ResourceName) (version : VersionName) (body : VersionCreate) :
    VersionRecord :=
  ⟨modelName.1, version.1, body.runtimeImage, body.artifactDigest, body.metadata⟩

/-- How `put_version` answers when the repository has the row. -/
def answerVersion (modelName : ResourceName) (version : VersionName) (body : VersionCreate)
    (result : WriteResult ModelVersion) : Except Failure Response :=
  if ¬result.created ∧ ¬versionMatches result.value body then
    .error (.api (immutableModelVersion modelName.1 version.1))
  else .ok (.version (if result.created then 201 else 200) (.ofRow result.value))

/-- `put_version`. -/
def putVersion (modelName : ResourceName) (version : VersionName) (body : VersionCreate) :
    Code (Except Failure Response) := do
  match ← Session.getModel modelName.1 with
  | none => return .error (.api (modelNotFound modelName.1))
  | some _ =>
    match ← RegistryRepository.putVersion (versionRecord modelName version body) with
    | .error e => return .error (.sql e)
    | .ok result => return answerVersion modelName version body result

/-! ## The gateway -/

namespace Gateway

/-- `get`. -/
def get (ns name : String) : Code (Except DeploymentGatewayError Json) :=
  Program.perform (Op.kubernetes (.get ns name))

/-- `apply`, which reads a resource that the client returned nothing for. -/
def apply (ns name : String) (body : Json) : Code (Except DeploymentGatewayError Json) :=
  .call (.kubernetes (.patch ns name body)) fun
    | .error e => .ret (.error e)
    | .ok none => get ns name
    | .ok (some value) => .ret (.ok value)

/-- `delete`. -/
def delete (ns name : String) : Code (Except DeploymentGatewayError Bool) :=
  .call (.kubernetes (.delete ns name)) fun
    | .ok _ => .ret (.ok true)
    | .error e => .ret (if e.status = 404 then .ok false else .error e)

end Gateway

/-! ## The deployment routes -/

/-- The 404 for a version of a model. -/
def modelVersionNotFound (modelName version : String) : ApiError :=
  ⟨404, "model_version_not_found",
    "Model version '" ++ modelName ++ ":" ++ version ++ "' was not found."⟩

variable (lax : Coercions)

/-- The end of a handler that has the resource. -/
def answerDeployment (ns name : String) :
    Except DeploymentGatewayError Json → Except Failure Response
  | .error e => .error (.api (deploymentError e ns name))
  | .ok observed =>
    match resourceToRead lax observed with
    | .ok value => .ok (.deployment value)
    | .error e => .error (.api e)

/-- `put_deployment`. -/
def putDeployment (ns name : ResourceName) (body : DeploymentUpsert) :
    Code (Except Failure Response) := do
  match ← Session.getVersion body.model.1 body.version.1 with
  | none => return .error (.api (modelVersionNotFound body.model.1 body.version.1))
  | some version =>
    let resource := desiredResource ns.1 name.1 body version.runtimeImage version.artifactDigest
    return answerDeployment lax ns.1 name.1 (← Gateway.apply ns.1 name.1 resource)

/-- `get_deployment`. -/
def getDeployment (ns name : ResourceName) : Code (Except Failure Response) := do
  return answerDeployment lax ns.1 name.1 (← Gateway.get ns.1 name.1)

/-- `delete_deployment`. -/
def deleteDeployment (ns name : ResourceName) : Code (Except Failure Response) := do
  match ← Gateway.delete ns.1 name.1 with
  | .error e => return .error (.api (deploymentError e ns.1 name.1))
  | .ok _ => return .ok .noContent

/-- `value.get(key, default)`; only a dictionary has a `get`. -/
def getOr (value : Json) (key : String) (default : Json) : Except Failure Json :=
  match value with
  | .obj fields => .ok ((fields.lookup key).getD default)
  | _ => .error .attributeError

/-- The model name of the stored resource, and its spec. -/
def currentModel (current : Json) : Except Failure (Json × String) := do
  let spec ← getOr current "spec" (.obj [])
  let model ← getOr spec "model" (.obj [])
  match ← getOr model "name" .null with
  | .str name => return (spec, name)
  | _ => throw (.api ⟨502, "invalid_deployment_state",
      "The stored ModelDeployment does not contain a valid model identity."⟩)

/-- The deployment that a rollback asks for. -/
def rollbackDesired (spec : Json) (model version : String) : Except Failure DeploymentUpsert := do
  let replicas ← getOr spec "replicas" (.int 1)
  let runtime ← getOr spec "runtime" (.obj [])
  let port ← getOr runtime "port" (.int 8080)
  let resources ← getOr spec "resources" (.obj [])
  match DeploymentUpsert.validate lax model version replicas port resources with
  | some desired => return desired
  | none => throw (.api ⟨502, "invalid_deployment_state",
      "The stored ModelDeployment spec cannot be rolled back safely."⟩)

/-- The resource that a rollback applies. -/
def rollbackResource (ns name : String) (current spec : Json) (model version : String)
    (row : ModelVersion) : Except Failure Json := do
  let desired ← rollbackDesired lax spec model version
  let metadata ← getOr current "metadata" (.obj [])
  let resourceVersion ← getOr metadata "resourceVersion" .null
  return desiredResource ns name desired row.runtimeImage row.artifactDigest resourceVersion

/-- `rollback_deployment`. -/
def rollbackDeployment (ns name : ResourceName) (body : RollbackRequest) :
    Code (Except Failure Response) := do
  match ← Gateway.get ns.1 name.1 with
  | .error e => return .error (.api (deploymentError e ns.1 name.1))
  | .ok current =>
    match currentModel current with
    | .error e => return .error e
    | .ok (spec, model) =>
      match ← Session.getVersion model body.version.1 with
      | none => return .error (.api (modelVersionNotFound model body.version.1))
      | some version =>
        match rollbackResource lax ns.1 name.1 current spec model body.version.1 version with
        | .error e => return .error e
        | .ok resource =>
          return answerDeployment lax ns.1 name.1 (← Gateway.apply ns.1 name.1 resource)

/-! ## The system -/

/-- The requests that write, and the one that reads a deployment. -/
inductive Request where
  | putModel (modelName : ResourceName) (body : ModelUpsert)
  | putVersion (modelName : ResourceName) (version : VersionName) (body : VersionCreate)
  | putDeployment (ns name : ResourceName) (body : DeploymentUpsert)
  | getDeployment (ns name : ResourceName)
  | deleteDeployment (ns name : ResourceName)
  | rollbackDeployment (ns name : ResourceName) (body : RollbackRequest)

/-- The handler of a request. -/
def handle : Request → Code (Except Failure Response)
  | .putModel modelName body => putModel modelName body
  | .putVersion modelName version body => putVersion modelName version body
  | .putDeployment ns name body => putDeployment lax ns name body
  | .getDeployment ns name => getDeployment lax ns name
  | .deleteDeployment ns name => deleteDeployment ns name
  | .rollbackDeployment ns name body => rollbackDeployment lax ns name body

/-- The two stores. -/
structure Stores where
  registry : Database
  cluster : Cluster

/-- What the stores can make of a call. -/
def Stores.Executes (s : Stores) : (op : Op) → op.Reply → Stores → Prop
  | .query query, r, t => ∃ db, s.registry.Executes query r db ∧ t = { s with registry := db }
  | .kubernetes call, r, t => ∃ c, s.cluster.Executes call r c ∧ t = { s with cluster := c }

/-- Any number of requests on the two stores, while the controller reports statuses. -/
def apiHost : Host Stores Request Op Op.Reply (Except Failure Response) where
  program := handle lax
  executes := Stores.Executes
  interferes s t := ∃ c, s.cluster.Reports c ∧ t = { s with cluster := c }

end Kernexys.Api
