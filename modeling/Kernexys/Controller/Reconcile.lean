import Kernexys.Lib.Program
import Kernexys.Controller.Status

/-!
# Reconcile

`Reconcile` as a program over the calls it makes to the API server, with
`controllerutil.CreateOrUpdate`.  An error is its text; the errors of the API server also carry the
reason that `IsNotFound` and `IsConflict` test.
-/

namespace Kernexys.Controller

/-- The reasons of errors that the controller tells apart. -/
inductive ErrorReason where
  | notFound
  | conflict
  | alreadyExists
  | other
  deriving DecidableEq

/-- An error of the API server. -/
structure ApiError where
  reason : ErrorReason
  message : String
  deriving DecidableEq

/-- The calls of a reconcile.  `now` stands for the readings of `time.Now` by the calls of
`SetStatusCondition` that follow, by condition type. -/
inductive Op where
  | get (k : Kind) (key : NamespacedName)
  | create (k : Kind) (object : k.Object)
  | update (k : Kind) (object : k.Object)
  | updateStatus (modelDeployment : ModelDeployment)
  | now

/-- A write replies with the object as it is stored. -/
abbrev Op.Reply : Op → Type
  | get k _ => Except ApiError k.Object
  | create k _ => Except ApiError k.Object
  | update k _ => Except ApiError k.Object
  | updateStatus _ => Except ApiError ModelDeployment
  | now => String → ℤ

/-- A call that may change the cluster. -/
def Op.isWrite : Op → Bool
  | get _ _ => false
  | create _ _ => true
  | update _ _ => true
  | updateStatus _ => true
  | now => false

/-- Programs over the calls of a reconcile. -/
abbrev Code : Type → Type := Program Op Op.Reply

/-- The events of a reconcile. -/
abbrev Event : Type := Program.Event Op Op.Reply

namespace Client

/-- `client.Get`. -/
abbrev get (k : Kind) (key : NamespacedName) : Code (Except ApiError k.Object) :=
  Program.perform (Op.get k key)

/-- `client.Create`. -/
abbrev create (k : Kind) (object : k.Object) : Code (Except ApiError k.Object) :=
  Program.perform (Op.create k object)

/-- `client.Update`. -/
abbrev update (k : Kind) (object : k.Object) : Code (Except ApiError k.Object) :=
  Program.perform (Op.update k object)

/-- `client.Status().Update`. -/
abbrev updateStatus (modelDeployment : ModelDeployment) : Code (Except ApiError ModelDeployment) :=
  Program.perform (Op.updateStatus modelDeployment)

/-- The readings of the clock that follow, by condition type. -/
abbrev now : Code (String → ℤ) := Program.perform Op.now

end Client

/-! ## CreateOrUpdate -/

/-- Apply the mutate function, which must keep the key. -/
def mutate {k : Kind} (f : k.Object → Except String k.Object) (key : NamespacedName)
    (object : k.Object) : Except String k.Object :=
  match f object with
  | .error e => .error e
  | .ok result =>
    if result.metadata.key = key then .ok result
    else .error "MutateFn cannot mutate object name and/or object namespace"

/-- `controllerutil.CreateOrUpdate`; the result is the object as the caller sees it afterwards. -/
def createOrUpdate (k : Kind) (object : k.Object) (f : k.Object → Except String k.Object) :
    Code (Except String k.Object) := do
  let key := object.metadata.key
  match ← Client.get k key with
  | .error e =>
    if e.reason ≠ .notFound then return .error e.message
    match mutate f key object with
    | .error e => return .error e
    | .ok object =>
      match ← Client.create k object with
      | .error e => return .error e.message
      | .ok created => return .ok created
  | .ok existing =>
    match mutate f key existing with
    | .error e => return .error e
    | .ok object =>
      if existing = object then return .ok object
      match ← Client.update k object with
      | .error e => return .error e.message
      | .ok updated => return .ok updated

/-! ## Status writes -/

/-- `updateStatusIfChanged`: a status is written only if it differs. -/
def updateStatusIfChanged (modelDeployment : ModelDeployment) (desired : ModelDeploymentStatus) :
    Code (Option String) := do
  if modelDeployment.status = desired then return none
  match ← Client.updateStatus { modelDeployment with status := desired } with
  | .error e =>
    if e.reason = .conflict then return some ("status update conflict: " ++ e.message)
    return some e.message
  | .ok _ => return none

/-- `updateInvalidStatus`: the status of a spec that does not pass. -/
def updateInvalidStatus (modelDeployment : ModelDeployment) (validationError : String) :
    Code (Option String) := do
  let now ← Client.now
  updateStatusIfChanged modelDeployment (invalidStatus modelDeployment validationError now)

/-- `errors.Join` of an error and an optional second one. -/
def joinErrors (first : String) : Option String → String
  | none => first
  | some second => first ++ "\n" ++ second

/-- `reconcileError`: the status of a child that could not be written. -/
def reconcileError (modelDeployment : ModelDeployment) (reason error : String) :
    Code (Option String) := do
  let now ← Client.now
  let statusError ←
    updateStatusIfChanged modelDeployment (errorStatus modelDeployment reason error now)
  return some (joinErrors error statusError)

/-- `updateObservedStatus`: the status that the children give. -/
def updateObservedStatus (modelDeployment : ModelDeployment) (deployment : Deployment)
    (service : Service) : Code (Option String) := do
  let now ← Client.now
  updateStatusIfChanged modelDeployment (observedStatus modelDeployment deployment service now)

/-! ## Reconcile -/

/-- The mutate function of a child: the ownership check, then the mutator. -/
def mutateOwned (k : Kind) (modelDeployment : ModelDeployment) (f : k.Object → k.Object)
    (object : k.Object) : Except String k.Object :=
  match ensureControllerOwnership k.goType modelDeployment object.metadata with
  | .error e => .error e
  | .ok metadata => .ok (f { object with metadata := metadata })

/-- The step of `Reconcile` that creates or updates the Deployment. -/
def reconcileDeployment (modelDeployment : ModelDeployment) : Code (Except String Deployment) :=
  createOrUpdate .deployment (desiredDeployment modelDeployment)
    (mutateOwned .deployment modelDeployment (mutateDeployment modelDeployment))

/-- The step of `Reconcile` that creates or updates the Service. -/
def reconcileService (modelDeployment : ModelDeployment) : Code (Except String Service) :=
  createOrUpdate .service (desiredService modelDeployment)
    (mutateOwned .service modelDeployment (mutateService modelDeployment))

/-- The part of `Reconcile` after the ModelDeployment is read and found valid. -/
def reconcileChildren (modelDeployment : ModelDeployment) : Code (Option String) := do
  match ← reconcileDeployment modelDeployment with
  | .error e => reconcileError modelDeployment "DeploymentReconcileFailed" e
  | .ok deployment =>
    match ← reconcileService modelDeployment with
    | .error e => reconcileError modelDeployment "ServiceReconcileFailed" e
    | .ok service =>
      match ← updateObservedStatus modelDeployment deployment service with
      | some e => return some ("update ModelDeployment status: " ++ e)
      | none => return none

/-- The part of `Reconcile` after the ModelDeployment is read. -/
def reconcileRead (order : MapOrder) (modelDeployment : ModelDeployment) : Code (Option String) :=
  if modelDeployment.metadata.deletionTimestamp ≠ none then return none
  else
    match validateSpec order modelDeployment with
    | some e => updateInvalidStatus modelDeployment e
    | none => reconcileChildren modelDeployment

/-- `Reconcile`: the error it returns, if any. -/
def reconcile (order : MapOrder) (request : NamespacedName) : Code (Option String) := do
  match ← Client.get .modelDeployment request with
  | .error e => return if e.reason = .notFound then none else some e.message
  | .ok modelDeployment => reconcileRead order modelDeployment

end Kernexys.Controller
