import Kernexys.Controller.Workload

/-!
# The status the controller computes

The pure part of `updateInvalidStatus`, `reconcileError` and `updateObservedStatus`, with
`meta.SetStatusCondition`.  The argument `now` gives the reading of `time.Now` by the call of
`SetStatusCondition` for each condition type.
-/

namespace Kernexys.Controller

/-- The condition that all replicas are ready. -/
def conditionAvailable : String := "Available"

/-- The condition that a rollout is under way. -/
def conditionProgressing : String := "Progressing"

/-- The condition that something is wrong. -/
def conditionDegraded : String := "Degraded"

/-! ## Conditions -/

/-- A condition overwritten by a new one of its type; the transition time moves only when the status
changes. -/
def Condition.refresh (existing new : Condition) : Condition :=
  { new with
    lastTransitionTime :=
      if existing.status = new.status then existing.lastTransitionTime else new.lastTransitionTime }

/-- `meta.SetStatusCondition`, where `new` carries the time of the call. -/
def setStatusCondition (new : Condition) : List Condition → List Condition
  | [] => [new]
  | existing :: conditions =>
    if existing.type = new.type then existing.refresh new :: conditions
    else existing :: setStatusCondition new conditions

/-- `setCondition`: the condition of this type, for the generation that was observed. -/
def setCondition (now : String → ℤ) (observedGeneration : ℤ) (conditionType : String)
    (conditionStatus : ConditionStatus) (reason message : String)
    (status : ModelDeploymentStatus) : ModelDeploymentStatus :=
  { status with
    conditions := setStatusCondition
      ⟨conditionType, conditionStatus, observedGeneration, now conditionType, reason, message⟩
      status.conditions }

/-- The conditions of one type. -/
def conditionsOf (type : String) (conditions : List Condition) : List Condition :=
  conditions.filter fun c => c.type = type

/-- Only the first condition of the new type changes. -/
theorem conditionsOf_setStatusCondition (type : String) (new : Condition)
    (conditions : List Condition) :
    conditionsOf type (setStatusCondition new conditions) =
      if new.type = type then
        match conditionsOf type conditions with
        | [] => [new]
        | existing :: others => existing.refresh new :: others
      else conditionsOf type conditions := by
  induction conditions with
  | nil =>
    by_cases same : new.type = type
    · simp [setStatusCondition, conditionsOf, same]
    · simp [setStatusCondition, conditionsOf, same]
  | cons existing conditions ih =>
    unfold conditionsOf at ih ⊢
    by_cases first : existing.type = new.type
    · simp only [setStatusCondition, first, if_true, List.filter_cons, Condition.refresh]
      by_cases same : new.type = type <;> simp [same]
    · simp only [setStatusCondition, first, if_false, List.filter_cons]
      by_cases here : existing.type = type
      · have other : ¬ new.type = type := fun eq => first (here.trans eq.symm)
        simp only [here, decide_true, if_true, ih, other, if_false]
      · simp only [here, decide_false, Bool.false_eq_true, if_false, ih]

/-! ## The three status writers -/

/-- The three conditions of a status that reports a failure. -/
def failureStatus (modelDeployment : ModelDeployment) (now : String → ℤ)
    (reason available progressing degraded : String) : ModelDeploymentStatus :=
  let generation := modelDeployment.metadata.generation
  let desired :=
    { modelDeployment.status with
      observedGeneration := generation
      desiredReplicas := desiredReplicaCount modelDeployment }
  let desired := setCondition now generation conditionAvailable .false reason available desired
  let desired := setCondition now generation conditionProgressing .false reason progressing desired
  setCondition now generation conditionDegraded .true reason degraded desired

/-- The status of `updateInvalidStatus`. -/
def invalidStatus (modelDeployment : ModelDeployment) (validationError : String)
    (now : String → ℤ) : ModelDeploymentStatus :=
  failureStatus modelDeployment now "InvalidSpec" "Desired state is invalid."
    "Reconciliation is paused until the desired state is corrected." validationError

/-- The status of `reconcileError`. -/
def errorStatus (modelDeployment : ModelDeployment) (reason reconcileError : String)
    (now : String → ℤ) : ModelDeploymentStatus :=
  failureStatus modelDeployment now reason "The desired workload could not be reconciled."
    "controller-runtime will retry the transient failure." reconcileError

/-- The Progressing condition of a Deployment that gave up, when the Deployment is up to date. -/
def terminalDeploymentFailure (deployment : Deployment) : Option DeploymentCondition :=
  if deployment.status.observedGeneration ≠ deployment.metadata.generation then none
  else deployment.status.conditions.find? fun c => c.type = .progressing ∧ c.status = .false

/-- The Deployment reports its current generation with every replica updated, available and ready,
and no other. -/
def rolledOut (deployment : Deployment) (desiredReplicas : ℤ) : Bool :=
  deployment.status.observedGeneration = deployment.metadata.generation ∧
    deployment.status.replicas = desiredReplicas ∧
    deployment.status.updatedReplicas = desiredReplicas ∧
    deployment.status.availableReplicas = desiredReplicas ∧
    deployment.status.readyReplicas = desiredReplicas

/-- The message while replicas are not ready. -/
def waitingMessage (ready desiredReplicas : ℤ) : String :=
  "Waiting for ready replicas: " ++ toString ready ++ "/" ++ toString desiredReplicas ++ "."

/-- The status of `updateObservedStatus`. -/
def observedStatus (modelDeployment : ModelDeployment) (deployment : Deployment) (service : Service)
    (now : String → ℤ) : ModelDeploymentStatus :=
  let desiredReplicas := desiredReplicaCount modelDeployment
  let ready := deployment.status.readyReplicas
  let available := rolledOut deployment desiredReplicas
  let generation := modelDeployment.metadata.generation
  let desired :=
    { modelDeployment.status with
      observedGeneration := generation
      desiredReplicas := desiredReplicas
      readyReplicas := ready
      endpoint := "http://" ++ service.metadata.name ++ "." ++ service.metadata.ns ++
        ".svc.cluster.local" }
  let desired :=
    if available then
      setCondition now generation conditionAvailable .true "MinimumReplicasAvailable"
        "All desired runtime replicas are available."
        { desired with
          activeModel := modelDeployment.spec.model.name
          activeVersion := modelDeployment.spec.model.version }
    else
      setCondition now generation conditionAvailable .false "ReplicasNotReady"
        (waitingMessage ready desiredReplicas) desired
  match terminalDeploymentFailure deployment with
  | some failure =>
    setCondition now generation conditionDegraded .true failure.reason failure.message
      (setCondition now generation conditionProgressing .false failure.reason failure.message desired)
  | none =>
    if available then
      setCondition now generation conditionDegraded .false "ReconcileSucceeded"
        "The desired child resources were reconciled."
        (setCondition now generation conditionProgressing .false "RolloutComplete"
          "The runtime rollout is complete." desired)
    else
      setCondition now generation conditionDegraded .false "ReconcileSucceeded"
        "The desired child resources were reconciled."
        (setCondition now generation conditionProgressing .true "Reconciling"
          (waitingMessage ready desiredReplicas) desired)

/-! ## Reports -/

/-- What a status says of one condition type: status, reason and message. -/
structure Finding where
  status : ConditionStatus
  reason : String
  message : String

/-- What a status says of the three condition types. -/
structure Report where
  available : Finding
  progressing : Finding
  degraded : Finding

/-- Set the condition of one type. -/
def Finding.write (finding : Finding) (now : String → ℤ) (generation : ℤ) (type : String)
    (status : ModelDeploymentStatus) : ModelDeploymentStatus :=
  setCondition now generation type finding.status finding.reason finding.message status

/-- Set the three conditions, in the order of the source. -/
def Report.write (report : Report) (now : String → ℤ) (generation : ℤ)
    (status : ModelDeploymentStatus) : ModelDeploymentStatus :=
  report.degraded.write now generation conditionDegraded
    (report.progressing.write now generation conditionProgressing
      (report.available.write now generation conditionAvailable status))

/-- The first condition of the type makes the finding at this generation. -/
def Finding.Shown (finding : Finding) (generation : ℤ) (type : String) (conditions : List Condition) :
    Prop :=
  ∃ time others, conditionsOf type conditions =
    ⟨type, finding.status, generation, time, finding.reason, finding.message⟩ :: others

theorem Finding.shown_write (finding : Finding) (now : String → ℤ) (generation : ℤ) (type : String)
    (status : ModelDeploymentStatus) :
    finding.Shown generation type (finding.write now generation type status).conditions := by
  unfold Finding.Shown Finding.write setCondition
  rw [conditionsOf_setStatusCondition, if_pos rfl]
  cases conditionsOf type status.conditions with
  | nil => exact ⟨_, [], rfl⟩
  | cons existing others => exact ⟨_, others, rfl⟩

theorem Finding.Shown.write_ne {finding : Finding} {generation : ℤ} {type : String}
    {status : ModelDeploymentStatus} (shown : finding.Shown generation type status.conditions)
    (other : Finding) (now : String → ℤ) (generation' : ℤ) {type' : String} (ne : type' ≠ type) :
    finding.Shown generation type (other.write now generation' type' status).conditions := by
  unfold Finding.Shown Finding.write setCondition
  rw [conditionsOf_setStatusCondition, if_neg ne]
  exact shown

/-- Making a finding that is shown already changes nothing. -/
theorem Finding.Shown.write_eq {finding : Finding} {generation : ℤ} {type : String}
    {status : ModelDeploymentStatus} (shown : finding.Shown generation type status.conditions)
    (now : String → ℤ) : finding.write now generation type status = status := by
  obtain ⟨time, others, first⟩ := shown
  have same : ∀ conditions : List Condition, conditionsOf type conditions =
      ⟨type, finding.status, generation, time, finding.reason, finding.message⟩ :: others →
      setStatusCondition ⟨type, finding.status, generation, now type, finding.reason, finding.message⟩
        conditions = conditions := by
    intro conditions
    induction conditions with
    | nil =>
      intro first
      cases first
    | cons existing conditions ih =>
      intro first
      by_cases here : existing.type = type
      · simp only [conditionsOf, List.filter_cons, here, decide_true, if_true,
          List.cons.injEq] at first
        simp [setStatusCondition, first.1, Condition.refresh]
      · simp only [conditionsOf, List.filter_cons, here, decide_false, Bool.false_eq_true,
          if_false] at first
        simp only [setStatusCondition, here, if_false, ih first]
  unfold Finding.write setCondition
  rw [same status.conditions first]

/-- The status shows the three conditions of the report at this generation. -/
structure Report.Shown (report : Report) (generation : ℤ) (conditions : List Condition) : Prop where
  available : report.available.Shown generation conditionAvailable conditions
  progressing : report.progressing.Shown generation conditionProgressing conditions
  degraded : report.degraded.Shown generation conditionDegraded conditions

theorem Report.shown_write (report : Report) (now : String → ℤ) (generation : ℤ)
    (status : ModelDeploymentStatus) :
    report.Shown generation (report.write now generation status).conditions := by
  refine ⟨?_, ?_, report.degraded.shown_write now generation conditionDegraded _⟩
  · have first := report.available.shown_write now generation conditionAvailable status
    exact (first.write_ne _ now generation (by decide)).write_ne _ now generation (by decide)
  · have second := report.progressing.shown_write now generation conditionProgressing
      (report.available.write now generation conditionAvailable status)
    exact second.write_ne _ now generation (by decide)

/-- Writing a report that is shown already changes nothing. -/
theorem Report.Shown.write_eq {report : Report} {generation : ℤ} {status : ModelDeploymentStatus}
    (shown : report.Shown generation status.conditions) (now : String → ℤ) :
    report.write now generation status = status := by
  rw [Report.write, shown.available.write_eq now, shown.progressing.write_eq now,
    shown.degraded.write_eq now]

/-- The report of a failure. -/
def failureReport (reason available progressing degraded : String) : Report where
  available := ⟨.false, reason, available⟩
  progressing := ⟨.false, reason, progressing⟩
  degraded := ⟨.true, reason, degraded⟩

/-- The report of a reconciled workload. -/
def observedReport (modelDeployment : ModelDeployment) (deployment : Deployment) : Report :=
  let desiredReplicas := desiredReplicaCount modelDeployment
  let waiting := waitingMessage deployment.status.readyReplicas desiredReplicas
  let available := rolledOut deployment desiredReplicas
  let failure := terminalDeploymentFailure deployment
  { available :=
      if available then ⟨.true, "MinimumReplicasAvailable", "All desired runtime replicas are available."⟩
      else ⟨.false, "ReplicasNotReady", waiting⟩
    progressing :=
      match failure with
      | some failure => ⟨.false, failure.reason, failure.message⟩
      | none =>
        if available then ⟨.false, "RolloutComplete", "The runtime rollout is complete."⟩
        else ⟨.true, "Reconciling", waiting⟩
    degraded :=
      match failure with
      | some failure => ⟨.true, failure.reason, failure.message⟩
      | none => ⟨.false, "ReconcileSucceeded", "The desired child resources were reconciled."⟩ }

/-- The fields of `updateObservedStatus` other than the conditions. -/
def observedFields (modelDeployment : ModelDeployment) (deployment : Deployment) (service : Service)
    (status : ModelDeploymentStatus) : ModelDeploymentStatus :=
  let available := rolledOut deployment (desiredReplicaCount modelDeployment)
  { status with
    observedGeneration := modelDeployment.metadata.generation
    desiredReplicas := desiredReplicaCount modelDeployment
    readyReplicas := deployment.status.readyReplicas
    endpoint := "http://" ++ service.metadata.name ++ "." ++ service.metadata.ns ++
      ".svc.cluster.local"
    activeModel := if available then modelDeployment.spec.model.name else status.activeModel
    activeVersion := if available then modelDeployment.spec.model.version else status.activeVersion }

/-- The fields of a failure status other than the conditions. -/
def failureFields (modelDeployment : ModelDeployment) (status : ModelDeploymentStatus) :
    ModelDeploymentStatus :=
  { status with
    observedGeneration := modelDeployment.metadata.generation
    desiredReplicas := desiredReplicaCount modelDeployment }

theorem failureStatus_eq (modelDeployment : ModelDeployment) (now : String → ℤ)
    (reason available progressing degraded : String) :
    failureStatus modelDeployment now reason available progressing degraded =
      (failureReport reason available progressing degraded).write now
        modelDeployment.metadata.generation (failureFields modelDeployment modelDeployment.status) :=
  rfl

theorem observedStatus_eq (modelDeployment : ModelDeployment) (deployment : Deployment)
    (service : Service) (now : String → ℤ) :
    observedStatus modelDeployment deployment service now =
      (observedReport modelDeployment deployment).write now modelDeployment.metadata.generation
        (observedFields modelDeployment deployment service modelDeployment.status) := by
  unfold observedStatus observedReport observedFields
  dsimp only
  cases terminalDeploymentFailure deployment with
  | some failure =>
    cases rolledOut deployment (desiredReplicaCount modelDeployment) <;> rfl
  | none =>
    cases rolledOut deployment (desiredReplicaCount modelDeployment) <;> rfl

end Kernexys.Controller
