import Kernexys.Api.Versions

/-!
# The calls of a rollback

`rollback_deployment` one call at a time, and what it applies to a resource that it has read.
-/

namespace Kernexys.Api

variable {lax : Coercions}

/-! ## The calls of a rollback -/

section Calls

variable (lax) (ns name : ResourceName) (body : RollbackRequest)

/-- A rollback after it has written. -/
def afterWrite (r : Except DeploymentGatewayError (Option Json)) : Code (Except Failure Response) :=
  match r with
  | .error e => .ret (answerDeployment lax ns.1 name.1 (.error e))
  | .ok none => .call (.kubernetes (.get ns.1 name.1)) fun r =>
    .ret (answerDeployment lax ns.1 name.1 r)
  | .ok (some observed) => .ret (answerDeployment lax ns.1 name.1 (.ok observed))

/-- A rollback after it has looked the version up. -/
def afterLookup (current spec : Json) (model : String) (r : Option ModelVersion) :
    Code (Except Failure Response) :=
  match r with
  | none => .ret (.error (.api (modelVersionNotFound model body.version.1)))
  | some row =>
    match rollbackResource lax ns.1 name.1 current spec model body.version.1 row with
    | .error e => .ret (.error e)
    | .ok resource => .call (.kubernetes (.patch ns.1 name.1 resource)) (afterWrite lax ns name)

/-- A rollback after it has read the resource. -/
def afterRead (r : Except DeploymentGatewayError Json) : Code (Except Failure Response) :=
  match r with
  | .error e => .ret (.error (.api (deploymentError e ns.1 name.1)))
  | .ok current =>
    match currentModel current with
    | .error e => .ret (.error e)
    | .ok (spec, model) =>
      .call (.query (.getVersion model body.version.1)) (afterLookup lax ns name body current spec model)

variable {ns name body}

theorem afterLookup_some {current spec resource : Json} {model : String} {row : ModelVersion}
    (desired : rollbackResource lax ns.1 name.1 current spec model body.version.1 row =
      .ok resource) :
    afterLookup lax ns name body current spec model (some row) =
      .call (.kubernetes (.patch ns.1 name.1 resource)) (afterWrite lax ns name) := by
  rw [afterLookup, desired]

variable (ns name body)

theorem rollbackDeployment_eq : rollbackDeployment lax ns name body =
    .call (.kubernetes (.get ns.1 name.1)) (afterRead lax ns name body) := by
  unfold rollbackDeployment Gateway.get
  rw [Program.perform_bind]
  congr 1
  funext r
  cases r with
  | error e => rfl
  | ok current =>
    unfold afterRead
    dsimp only
    cases currentModel current with
    | error e => rfl
    | ok found =>
      obtain ⟨spec, model⟩ := found
      unfold Session.getVersion
      dsimp only
      rw [Program.perform_bind]
      congr 1
      funext r
      cases r with
      | none => rfl
      | some row =>
        unfold afterLookup
        dsimp only
        cases rollbackResource lax ns.1 name.1 current spec model body.version.1 row with
        | error e => rfl
        | ok resource =>
          show Program.call _ _ = Program.call _ _
          congr 1
          funext r
          cases r with
          | error e => rfl
          | ok observed => cases observed <;> rfl

/-- Where a rollback can be, after a log. -/
inductive RollbackAt : List Event → Code (Except Failure Response) → Prop where
  | read : RollbackAt [] (.call (.kubernetes (.get ns.1 name.1)) (afterRead lax ns name body))
  | lookup {current spec model} (read : currentModel current = .ok (spec, model)) :
      RollbackAt [⟨.kubernetes (.get ns.1 name.1), .ok current⟩]
        (.call (.query (.getVersion model body.version.1))
          (afterLookup lax ns name body current spec model))
  | write {current spec model row resource} (read : currentModel current = .ok (spec, model))
      (desired : rollbackResource lax ns.1 name.1 current spec model body.version.1 row =
        .ok resource) :
      RollbackAt
        [⟨.kubernetes (.get ns.1 name.1), .ok current⟩,
          ⟨.query (.getVersion model body.version.1), some row⟩]
        (.call (.kubernetes (.patch ns.1 name.1 resource)) (afterWrite lax ns name))
  | reread {current spec model row resource} (read : currentModel current = .ok (spec, model))
      (desired : rollbackResource lax ns.1 name.1 current spec model body.version.1 row =
        .ok resource) :
      RollbackAt
        [⟨.kubernetes (.get ns.1 name.1), .ok current⟩,
          ⟨.query (.getVersion model body.version.1), some row⟩,
          ⟨.kubernetes (.patch ns.1 name.1 resource), .ok none⟩]
        (.call (.kubernetes (.get ns.1 name.1)) fun r => .ret (answerDeployment lax ns.1 name.1 r))
  | finished {log result} : RollbackAt log (.ret result)

variable {lax ns name body}

theorem RollbackAt.next {log : List Event} {op : Op}
    {next : op.Reply → Code (Except Failure Response)}
    (place : RollbackAt lax ns name body log (.call op next)) (r : op.Reply) :
    RollbackAt lax ns name body (log ++ [⟨op, r⟩]) (next r) := by
  cases place with
  | read =>
    cases r with
    | error e => exact .finished
    | ok current =>
      unfold afterRead
      dsimp only
      split
      next => exact .finished
      next spec model read => exact .lookup read
  | lookup read =>
    cases r with
    | none => exact .finished
    | some row =>
      unfold afterLookup
      dsimp only
      split
      next => exact .finished
      next resource desired => exact .write read desired
  | write read desired =>
    cases r with
    | error e => exact .finished
    | ok observed =>
      cases observed with
      | none => exact .reread read desired
      | some observed => exact .finished
  | reread => exact .finished

end Calls

/-- Every rollback of a run is at one of its calls. -/
theorem rollbackAt_of_reachable {times : Timestamps lax} {s₀ : Stores}
    {c : Config Stores Request Op Op.Reply (Except Failure Response)}
    (reach : (rollbackHost times).Reachable s₀ c) {i : ℕ} {ns name : ResourceName}
    {body : RollbackRequest} {log : List Event} {rest : Code (Except Failure Response)}
    (running : c.thread i = some ⟨.rollbackDeployment ns name body, log, rest⟩) :
    RollbackAt lax ns name body log rest := by
  refine @Host.Reachable.thread_invariant _ _ _ _ _ _ _ _ _ _ (fun job log rest =>
    ∀ ns name body, job = .rollbackDeployment ns name body → RollbackAt lax ns name body log rest)
    ?_ ?_ reach running ns name body rfl
  · rintro _ ns name body rfl
    show RollbackAt lax ns name body [] (rollbackDeployment lax ns name body)
    rw [rollbackDeployment_eq]
    exact .read
  · intro job log op next r place ns name body eq
    exact (place ns name body eq).next r

/-! ## What a rollback applies -/

/-- The deployment is what the resource asks for, with another version. -/
structure Desires (current : Json) (version : VersionName) (desired : DeploymentUpsert) : Prop where
  model : current.field modelNamePath = some (.str desired.model.1)
  version : desired.version = version
  replicas : (current.field replicasPath).getD (.int 1) = .int desired.replicas
  port : (current.field portPath).getD (.int 8080) = .int desired.port
  requests : objectAt current requestsPath = desired.resources.requests.entries
  limits : objectAt current limitsPath = desired.resources.limits.entries

/-- The fields of a validated deployment are those that were given. -/
theorem DeploymentUpsert.fields_of_validate {model version : String} {replicas port resources : Json}
    {desired : DeploymentUpsert}
    (validated : validate lax model version replicas port resources = some desired) :
    lax.int replicas = some desired.replicas ∧ lax.int port = some desired.port ∧
      DeploymentResources.validate resources = some desired.resources := by
  simp only [validate, Option.bind_eq_bind, Option.bind_eq_some_iff] at validated
  obtain ⟨model, -, version, -, replicas, readReplicas, port, readPort, resources, readResources,
    rest⟩ := validated
  split at rest
  · split at rest
    · cases rest
      exact ⟨readReplicas, readPort, readResources⟩
    · cases rest
  · cases rest

/-- A field that is there is read. -/
theorem eq_of_getOr {fields : Dict} {key : String} {value default found : Json}
    (stored : fields.lookup key = some value) (read : getOr (.obj fields) key default = .ok found) :
    found = value := by
  rw [getOr, stored] at read
  exact (Except.ok.inj read).symm

/-- A rollback reads the spec of the stored resource. -/
theorem getOr_spec_of_currentModel {current spec : Json} {model : String}
    (read : currentModel current = .ok (spec, model)) : getOr current "spec" (.obj []) = .ok spec := by
  obtain ⟨spec', readSpec, read⟩ := bind_eq_ok read
  obtain ⟨_, -, read⟩ := bind_eq_ok read
  obtain ⟨value, -, read⟩ := bind_eq_ok read
  cases value with
  | str s =>
    cases read
    exact readSpec
  | _ => cases read

/-- A rollback submits the replicas, the port and the resources of the spec again. -/
theorem validate_of_rollbackDesired {spec : Dict} (inner : SpecFields spec) {model version : String}
    {desired : DeploymentUpsert}
    (wanted : rollbackDesired lax (.obj spec) model version = .ok desired) :
    DeploymentUpsert.validate lax model version ((spec.lookup "replicas").getD (.int 1))
      ((inner.runtime.lookup "port").getD (.int 8080))
      ((spec.lookup "resources").getD (.obj [])) = some desired := by
  obtain ⟨_, ⟨⟩, wanted⟩ := bind_eq_ok wanted
  obtain ⟨runtime, readRuntime, wanted⟩ := bind_eq_ok wanted
  obtain rfl := eq_of_getOr inner.spec_runtime readRuntime
  obtain ⟨_, ⟨⟩, wanted⟩ := bind_eq_ok wanted
  obtain ⟨_, ⟨⟩, wanted⟩ := bind_eq_ok wanted
  split at wanted
  next validated =>
    cases wanted
    exact validated
  next => cases wanted

/-- What a rollback applies to a resource that the cluster can hold. -/
theorem Held.rollbackResource_eq_ok {times : Timestamps lax} {current : Json}
    (held : Held times current) {ns name : String} {spec resource : Json} {model : String}
    {version : VersionName} {row : ModelVersion}
    (read : currentModel current = .ok (spec, model))
    (applied : rollbackResource lax ns name current spec model version.1 row = .ok resource) :
    ∃ desired resourceVersion, Desires current version desired ∧ resourceVersion ≠ "" ∧
      current.field resourceVersionPath = some (.str resourceVersion) ∧
      resource = desiredResource ns name desired row.runtimeImage row.artifactDigest
        (.str resourceVersion) := by
  have readModel := currentModel_eq_ok read
  have readSpec := getOr_spec_of_currentModel read
  have readResources := @Held.validate_resources_iff _ _ _ held
  obtain ⟨resourceVersion, nonempty, foundVersion⟩ := held.resourceVersion
  obtain ⟨fields, metadata, spec', rfl, foundMetadata, foundSpec, ⟨inner⟩⟩ := held.exists_fields
  obtain ⟨replicas, -, foundReplicas⟩ := inner.exists_replicas
  obtain ⟨port, -, foundPort⟩ := inner.exists_port
  obtain rfl := eq_of_getOr foundSpec readSpec
  obtain ⟨desired, wanted, applied⟩ := bind_eq_ok applied
  have validated := validate_of_rollbackDesired inner wanted
  rw [foundReplicas, foundPort, ← resourcesOf_eq foundSpec] at validated
  have resource : resource = desiredResource ns name desired row.runtimeImage row.artifactDigest
      (.str resourceVersion) := by
    obtain ⟨metadata', readMetadata, applied⟩ := bind_eq_ok applied
    obtain rfl := eq_of_getOr foundMetadata readMetadata
    obtain ⟨version', readVersion, applied⟩ := bind_eq_ok applied
    rw [Json.field_of_lookup foundMetadata, Json.field_singleton] at foundVersion
    obtain rfl := eq_of_getOr foundVersion readVersion
    exact (Except.ok.inj applied).symm
  obtain ⟨parsedModel, parsedVersion⟩ := DeploymentUpsert.validate_eq_some validated
  obtain ⟨sameReplicas, samePort, sameResources⟩ := DeploymentUpsert.fields_of_validate validated
  obtain ⟨requests, limits⟩ := readResources.1 sameResources
  refine ⟨desired, resourceVersion, ⟨?_, ?_, ?_, ?_, requests, limits⟩, nonempty, foundVersion,
    resource⟩
  · have stored := inner.field_modelName foundSpec
    obtain rfl := Json.str.inj (Option.some.inj (stored.symm.trans readModel))
    rw [← Option.some.inj ((ResourceName.parse_val inner.name).symm.trans parsedModel)]
    exact stored
  · exact (Option.some.inj ((VersionName.parse_val version).symm.trans parsedVersion)).symm
  · rw [field_replicas foundSpec, foundReplicas]
    rw [lax.int_int] at sameReplicas
    rw [Option.some.inj sameReplicas]
  · rw [inner.field_port foundSpec, foundPort]
    rw [lax.int_int] at samePort
    rw [Option.some.inj samePort]

end Kernexys.Api
