import Kernexys.Api.Registry
import Kernexys.Lib.Linearization

/-!
# The registry as an atomic object

`put_model` and `put_version` make several round trips, and others can change the registry between
them.  Still each takes effect in one of its round trips, as a single step on an abstract registry,
and answers what that step answers (`registry_linearizable`).
-/

namespace Kernexys.Api

/-! ## The abstract registry -/

/-- The description of each model and the content of each version. -/
structure Registry where
  description : String → Option (Option String)
  version : String × String → Option VersionRecord

/-- The registry in a database. -/
def Database.abstract (db : Database) : Registry where
  description name := (db.models.find name).map RegisteredModel.description
  version key := (db.versions.find key).map ModelVersion.toVersionRecord

/-- The answer to a registry request.  Of a model only the status is part of it: the row in the
response is read after the effect. -/
inductive Outcome where
  | model (status : ℕ)
  | version (status : ℕ) (record : VersionRecord)
  | refused (error : ApiError)

/-- `version_matches`, on the content of a version. -/
def recordMatches (record : VersionRecord) (body : VersionCreate) : Bool :=
  record.runtimeImage == body.runtimeImage && record.artifactDigest == body.artifactDigest &&
    Json.eq (.obj record.metadataJson) (.obj body.metadata)

/-- The answer for a version that is there. -/
def existingOutcome (modelName : ResourceName) (version : VersionName) (body : VersionCreate)
    (record : VersionRecord) : Outcome :=
  if recordMatches record body then .version 200 record
  else .refused (immutableModelVersion modelName.1 version.1)

/-- What a request does to the registry in one step, and what it answers. -/
inductive Registry.Does : Request → Registry → Outcome → Registry → Prop where
  | newModel {registry name body} (absent : registry.description name.1 = none) :
      Does (.putModel name body) registry (.model 201)
        { registry with
          description := Function.update registry.description name.1 (some body.description) }
  | oldModel {registry name body} (there : registry.description name.1 ≠ none) :
      Does (.putModel name body) registry (.model 200)
        { registry with
          description := Function.update registry.description name.1 (some body.description) }
  | noModel {registry name version body} (absent : registry.description name.1 = none) :
      Does (.putVersion name version body) registry (.refused (modelNotFound name.1)) registry
  | newVersion {registry name version body} (model : registry.description name.1 ≠ none)
      (absent : registry.version (name.1, version.1) = none) :
      Does (.putVersion name version body) registry (.version 201 (versionRecord name version body))
        { registry with
          version := Function.update registry.version (name.1, version.1)
            (some (versionRecord name version body)) }
  | oldVersion {registry name version body record} (model : registry.description name.1 ≠ none)
      (there : registry.version (name.1, version.1) = some record) :
      Does (.putVersion name version body) registry (existingOutcome name version body record)
        registry

/-! ## The round trip that takes effect -/

/-- The answer that a round trip decides. -/
def effectOf : Request → Event → Option Outcome
  | .putModel _ body, ⟨.query (.getModel _), some row⟩ =>
    if row.description = body.description then some (.model 200) else none
  | .putModel _ _, ⟨.query (.insertModel _ _), .ok _⟩ => some (.model 201)
  | .putModel _ _, ⟨.query (.updateModel _ _), .ok _⟩ => some (.model 200)
  | .putVersion name _ _, ⟨.query (.getModel _), none⟩ => some (.refused (modelNotFound name.1))
  | .putVersion name version body, ⟨.query (.getVersion _ _), some row⟩ =>
    some (existingOutcome name version body row.toVersionRecord)
  | .putVersion _ _ _, ⟨.query (.insertVersion record), .ok _⟩ => some (.version 201 record)
  | _, _ => none

/-- The answer that the log has decided. -/
def decided (request : Request) (log : List Event) : Option Outcome :=
  log.findSome? (effectOf request)

theorem decided_append (request : Request) (log : List Event) (event : Event) :
    decided request (log ++ [event]) = (decided request log).or (effectOf request event) := by
  simp [decided, List.findSome?_append]

/-! ## The effect of a round trip on the abstract registry -/

theorem Database.abstract_addModel (db : Database) {row : RegisteredModel}
    (fresh : db.models.find row.name = none) :
    (db.addModel row fresh).abstract =
      { db.abstract with
        description := Function.update db.abstract.description row.name
          (some row.description) } := by
  unfold Database.abstract
  congr 1
  funext name
  show ((db.models.append row fresh).find name).map _ = _
  rw [Table.find_append]
  by_cases same : row.name = name
  · subst same
    simp
  · simp [same, Function.update_of_ne (Ne.symm same)]

theorem Database.abstract_describe (db : Database) (now : ℤ) (name : String)
    (description : Option String) (there : db.models.find name ≠ none) :
    (db.describe now name description).abstract =
      { db.abstract with
        description := Function.update db.abstract.description name (some description) } := by
  unfold Database.abstract
  congr 1
  funext other
  show ((db.models.modify name (RegisteredModel.describe now description)
    (RegisteredModel.name_describe now description)).find other).map _ = _
  rw [Table.find_modify]
  by_cases same : other = name
  · subst same
    obtain ⟨row, found⟩ := Option.ne_none_iff_exists'.1 there
    simp [found, RegisteredModel.describe]
  · simp [same]

theorem Database.abstract_addVersion (db : Database) (now : ℤ) {record : VersionRecord}
    (model : db.models.find record.modelName ≠ none) (fresh : db.versions.find record.key = none) :
    (db.addVersion now record model fresh).abstract =
      { db.abstract with
        version := Function.update db.abstract.version record.key (some record) } := by
  unfold Database.abstract
  congr 1
  funext key
  show ((db.versions.append _ fresh).find key).map _ = _
  rw [Table.find_append]
  by_cases same : record.key = key
  · subst same
    simp
  · simp [same, Function.update_of_ne (Ne.symm same)]

theorem Database.abstract_description_ne_none {db : Database} {name : String} :
    db.abstract.description name ≠ none ↔ db.models.find name ≠ none := by
  simp [Database.abstract]

/-! ## The calls of the registry requests -/

variable (lax : Coercions)

/-- A call of a request, after a log: once the request has taken effect, it only reads. -/
inductive RegistryCall : Request → List Event → Op → Prop where
  | readModel {name body log} (pending : decided (.putModel name body) log = none) :
      RegistryCall (.putModel name body) log (.query (.getModel name.1))
  | insertModel {name body log} (pending : decided (.putModel name body) log = none) :
      RegistryCall (.putModel name body) log (.query (.insertModel name.1 body.description))
  | updateModel {name body log} (pending : decided (.putModel name body) log = none) :
      RegistryCall (.putModel name body) log (.query (.updateModel name.1 body.description))
  | refreshModel {request log name} : RegistryCall request log (.query (.refreshModel name))
  | rollback {request log} : RegistryCall request log (.query .rollback)
  | readModelOf {name version body log}
      (pending : decided (.putVersion name version body) log = none) :
      RegistryCall (.putVersion name version body) log (.query (.getModel name.1))
  | readVersion {name version body log row}
      (pending : decided (.putVersion name version body) log = none)
      (model : (⟨.query (.getModel name.1), some row⟩ : Event) ∈ log) :
      RegistryCall (.putVersion name version body) log (.query (.getVersion name.1 version.1))
  | insertVersion {name version body log row}
      (pending : decided (.putVersion name version body) log = none)
      (model : (⟨.query (.getModel name.1), some row⟩ : Event) ∈ log) :
      RegistryCall (.putVersion name version body) log
        (.query (.insertVersion (versionRecord name version body)))
  | refreshVersion {request log id} : RegistryCall request log (.query (.refreshVersion id))
  | deployment {request log op} (call : DeploymentCall lax request log op) :
      RegistryCall request log op

theorem RegistryCall.rule {lax : Coercions} {request : Request} {log : List Event} {op : Op}
    (call : RegistryCall lax request log op) : RegistryRule request log op := by
  cases call with
  | insertVersion pending model =>
    refine ⟨?_, by rintro call ⟨⟩⟩
    rintro record ⟨⟩
    exact ⟨_, _, _, rfl, rfl, _, model⟩
  | deployment call => exact call.registryRule
  | _ => exact registryRule_query (by simp)

/-- The answer in a response. -/
def outcome : Except Failure Response → Option Outcome
  | .ok (.model status _) => some (.model status)
  | .ok (.version status read) =>
    some (.version status
      ⟨read.modelName, read.version, read.runtimeImage, read.artifactDigest, read.metadata⟩)
  | .error (.api error) => some (.refused error)
  | _ => none

/-- A registry request ends with the answer that was decided. -/
def EndsDecided (request : Request) (log : List Event) (result : Except Failure Response) : Prop :=
  request.isDeployment = false → ∃ answer, decided request log = some answer ∧
    outcome result = some answer

section PutModel

variable {lax} {name : ResourceName} {body : ModelUpsert} {log : List Event}

/-- A refresh of a model that is there returns it. -/
theorem calls_refreshed {Q : List Event → Except SqlError RegisteredModel → Prop}
    (there : ShowsModel log name.1)
    (ends : ∀ row, Q (log ++ [⟨.query (.refreshModel name.1), .ok row⟩]) (.ok row)) :
    (Session.refreshModel name.1).Calls Answerable (RegistryCall lax (.putModel name body)) Q
      log := by
  refine Program.calls_call .refreshModel fun r may => ?_
  obtain ⟨db, db', known, executes⟩ := may.query
  obtain ⟨-, ⟨row, -, rfl⟩ | ⟨missing, -⟩⟩ := executes.refreshModel_cases
  · exact Program.calls_ret (ends row)
  · exact absurd missing (there db known)

theorem calls_describe {model : RegisteredModel} (named : model.name = name.1)
    (there : ShowsModel log name.1) (read : decided (.putModel name body) log =
      if model.description = body.description then some (.model 200) else none) :
    (RegistryRepository.updateDescription model body.description).Calls Answerable
      (RegistryCall lax (.putModel name body))
      (fun log r => ∃ row, r = .ok ⟨row, false⟩ ∧
        decided (.putModel name body) log = some (.model 200)) log := by
  unfold RegistryRepository.updateDescription Session.updateModel
  rw [named]
  split
  · rename_i differs
    rw [if_neg differs] at read
    rw [Program.perform_bind]
    refine Program.calls_call (.updateModel read) fun r may => ?_
    obtain ⟨db, db', known, executes⟩ := may.query
    rcases executes.updateModel_cases with ⟨now, rfl, -⟩ | ⟨-, -, missing⟩
    · refine Program.Calls.bind (Q := fun log r => ∃ row, r = .ok row ∧
        decided (.putModel name body) log = some (.model 200))
        (calls_refreshed (there.append _) fun row => ⟨row, rfl, ?_⟩) ?_
      · rw [decided_append, decided_append, read]
        rfl
      · rintro log _ ⟨row, rfl, effect⟩
        exact Program.calls_ret ⟨row, rfl, effect⟩
    · exact absurd missing (there db known)
  · rename_i same
    rw [if_pos (not_not.1 same)] at read
    exact Program.calls_ret ⟨model, rfl, read⟩

/-- What follows the read of a model that is there. -/
theorem calls_found {model : RegisteredModel} (pending : decided (.putModel name body) log = none)
    (may : Answerable log (.query (.getModel name.1)) (some model)) :
    (RegistryRepository.updateDescription model body.description).Calls Answerable
      (RegistryCall lax (.putModel name body))
      (fun log r => ∃ row, r = .ok ⟨row, false⟩ ∧
        decided (.putModel name body) log = some (.model 200))
      (log ++ [⟨.query (.getModel name.1), some model⟩]) := by
  obtain ⟨db, db', known, now, executed⟩ := may.query
  have read : db.models.find name.1 = some model := congrArg Prod.fst executed
  have named : model.name = name.1 := (Table.find_eq_some_iff.1 read).2
  have there := @showsModel_read log name.1 model
  rw [named] at there
  refine calls_describe named there ?_
  rw [decided_append, pending]
  rfl

theorem calls_putModelDecided (name : ResourceName) (body : ModelUpsert) :
    (putModel name body).Calls Answerable (RegistryCall lax (.putModel name body))
      (EndsDecided (.putModel name body)) [] := by
  refine Program.Calls.bind (Q := fun log r => ∃ result, r = .ok result ∧
    decided (.putModel name body) log = some (.model (if result.created then 201 else 200))) ?_ ?_
  · have old (log : List Event) (r : Except SqlError (WriteResult RegisteredModel)) :
        (∃ row, r = .ok ⟨row, false⟩ ∧ decided (.putModel name body) log = some (.model 200)) →
        ∃ result, r = .ok result ∧ decided (.putModel name body) log =
          some (.model (if result.created then 201 else 200)) := by
      rintro ⟨row, rfl, effect⟩
      exact ⟨_, rfl, effect⟩
    unfold RegistryRepository.putModel Session.getModel Session.rollback
    rw [Program.perform_bind]
    refine Program.calls_call (.readModel rfl) fun r may => ?_
    cases r with
    | some model => exact (calls_found rfl may).mono (fun _ _ => id) old
    | none =>
      unfold RegistryRepository.insertModel Session.insertModel
      dsimp only
      rw [Program.perform_bind, Program.call_bind]
      refine Program.calls_call (.insertModel rfl) fun r may => ?_
      obtain ⟨db, db', -, executes⟩ := may.query
      rcases executes.insertModel_cases with ⟨now, fresh, rfl, -⟩ | ⟨rfl, -, taken⟩
      · refine Program.Calls.bind (Q := fun log r => ∃ row, r = .ok row ∧
          decided (.putModel name body) log = some (.model 201))
          (calls_refreshed showsModel_insert fun row => ⟨row, rfl, rfl⟩) ?_
        rintro log _ ⟨row, rfl, effect⟩
        exact Program.calls_ret ⟨_, rfl, effect⟩
      · dsimp only
        rw [Program.pure_eq_ret, Program.ret_bind]
        dsimp only
        rw [Program.perform_bind]
        refine Program.calls_call .rollback fun _ _ => ?_
        rw [Program.perform_bind]
        refine Program.calls_call (.readModel rfl) fun r may => ?_
        cases r with
        | some model => exact (calls_found rfl may).mono (fun _ _ => id) old
        | none =>
          obtain ⟨db, db', known, now, executed⟩ := may.query
          have missing : db.models.find name.1 = none := (congrArg Prod.fst executed :)
          exact absurd missing (showsModel_insert.append _ db known)
  · rintro log _ ⟨result, rfl, effect⟩
    exact Program.calls_ret fun _ => ⟨_, effect, rfl⟩

end PutModel

section PutVersion

variable {lax} {name : ResourceName} {version : VersionName} {body : VersionCreate}
  {log : List Event} {row : RegisteredModel}

/-- The answer for a version that is there is the one of its content. -/
theorem outcome_existing (existing : ModelVersion) :
    outcome (answerVersion name version body ⟨existing, false⟩) =
      some (existingOutcome name version body existing.toVersionRecord) := by
  have same : recordMatches existing.toVersionRecord body = versionMatches existing body := rfl
  rw [answerVersion_existing, existingOutcome, same]
  split <;> rfl

/-- A new version is stored and read again, or the version is there and nothing is decided. -/
theorem calls_insertDecided (model : (⟨.query (.getModel name.1), some row⟩ : Event) ∈ log)
    (pending : decided (.putVersion name version body) log = none) :
    (RegistryRepository.insertVersion (versionRecord name version body)).Calls Answerable
      (RegistryCall lax (.putVersion name version body))
      (fun log r =>
        (∃ stored, r = .ok stored ∧ stored.toVersionRecord = versionRecord name version body ∧
          decided (.putVersion name version body) log =
            some (.version 201 (versionRecord name version body))) ∨
        (r = .error .integrityError ∧ decided (.putVersion name version body) log = none ∧
          (⟨.query (.getModel name.1), some row⟩ : Event) ∈ log ∧
          (⟨.query (.insertVersion (versionRecord name version body)), .error .integrityError⟩ :
            Event) ∈ log)) log := by
  unfold RegistryRepository.insertVersion Session.insertVersion Session.refreshVersion
  rw [Program.perform_bind]
  refine Program.calls_call (.insertVersion pending model) fun r may => ?_
  obtain ⟨db, db', -, executes⟩ := may.query
  rcases executes.insertVersion_cases with ⟨now, _, fresh, rfl, -⟩ | ⟨rfl, -, -⟩
  · refine Program.calls_call .refreshVersion fun r may => ?_
    obtain ⟨db, db', known, executes⟩ := may.query
    obtain ⟨stored, found, same⟩ := known _ (List.mem_append_right _ (List.mem_singleton_self _))
    obtain ⟨record, id⟩ := same _ rfl
    obtain ⟨-, ⟨read, mem, readId, rfl⟩ | ⟨missing, -⟩⟩ := executes.refreshVersion_cases
    · obtain rfl : read = stored := by
        have rows := (Table.find_eq_some_iff.1 found).1
        exact List.inj_on_of_nodup_map db.ids mem rows (readId.trans id.symm)
      refine Program.calls_ret (Or.inl ⟨read, rfl, record, ?_⟩)
      rw [decided_append, decided_append, pending]
      rfl
    · exact absurd id (missing stored (Table.find_eq_some_iff.1 found).1)
  · refine Program.calls_ret (Or.inr ⟨rfl, ?_, List.mem_append_left _ model, by simp⟩)
    rw [decided_append, pending]
    rfl

/-- What follows the read of a version that is there. -/
theorem endsDecided_existing (existing : ModelVersion)
    (pending : decided (.putVersion name version body) log = none) :
    EndsDecided (.putVersion name version body)
      (log ++ [⟨.query (.getVersion name.1 version.1), some existing⟩])
      (answerVersion name version body ⟨existing, false⟩) := by
  intro _
  refine ⟨_, ?_, outcome_existing existing⟩
  rw [decided_append, pending]
  rfl

theorem calls_storeDecided (model : (⟨.query (.getModel name.1), some row⟩ : Event) ∈ log)
    (pending : decided (.putVersion name version body) log = none) :
    (RegistryRepository.putVersion (versionRecord name version body)).Calls Answerable
      (RegistryCall lax (.putVersion name version body))
      (fun log r => ∃ result, r = .ok result ∧
        EndsDecided (.putVersion name version body) log (answerVersion name version body result))
      log := by
  unfold RegistryRepository.putVersion Session.getVersion Session.rollback
  rw [Program.perform_bind]
  refine Program.calls_call (.readVersion pending model) fun r may => ?_
  cases r with
  | some existing => exact Program.calls_ret ⟨_, rfl, endsDecided_existing existing pending⟩
  | none =>
    have still : decided (.putVersion name version body)
        (log ++ [⟨.query (.getVersion name.1 version.1), none⟩]) = none := by
      rw [decided_append, pending]
      rfl
    refine Program.Calls.bind (calls_insertDecided (List.mem_append_left _ model) still) ?_
    rintro log _ (⟨stored, rfl, record, effect⟩ | ⟨rfl, pending, model, taken⟩)
    · refine Program.calls_ret ⟨_, rfl, fun _ => ⟨_, effect, ?_⟩⟩
      rw [answerVersion_created, ← record]
      rfl
    · dsimp only
      rw [Program.perform_bind]
      refine Program.calls_call .rollback fun _ _ => ?_
      have still : decided (.putVersion name version body) (log ++ [⟨.query .rollback, ()⟩]) =
          none := by
        rw [decided_append, pending]
        rfl
      rw [Program.perform_bind]
      refine Program.calls_call (.readVersion still (List.mem_append_left _ model)) fun r may => ?_
      cases r with
      | none => exact (may.getVersion (List.mem_append_left _ taken)).elim
      | some existing => exact Program.calls_ret ⟨_, rfl, endsDecided_existing existing still⟩

theorem calls_putVersionDecided (name : ResourceName) (version : VersionName)
    (body : VersionCreate) :
    (putVersion name version body).Calls Answerable
      (RegistryCall lax (.putVersion name version body))
      (EndsDecided (.putVersion name version body)) [] := by
  unfold putVersion Session.getModel
  rw [Program.perform_bind]
  refine Program.calls_call (.readModelOf rfl) fun r may => ?_
  cases r with
  | none => exact Program.calls_ret fun _ => ⟨_, rfl, rfl⟩
  | some model =>
    refine Program.Calls.bind (calls_storeDecided List.mem_cons_self rfl) ?_
    rintro log _ ⟨result, rfl, ends⟩
    exact Program.calls_ret ends

end PutVersion

/-! ## Runs -/

section Runs

variable {lax} {s₀ : Stores} {c d : Config Stores Request Op Op.Reply (Except Failure Response)}

theorem calls_handleDecided (lax : Coercions) (request : Request) :
    (handle lax request).Calls Answerable (RegistryCall lax request) (EndsDecided request) [] := by
  have deployment (isDeployment : request.isDeployment = true) :
      (handle lax request).Calls Answerable (RegistryCall lax request) (EndsDecided request) [] :=
    (deployment_calls isDeployment).mono (fun _ _ => .deployment)
      fun _ _ _ registry => by rw [isDeployment] at registry; cases registry
  cases request with
  | putModel modelName body => exact calls_putModelDecided modelName body
  | putVersion modelName version body => exact calls_putVersionDecided modelName version body
  | putDeployment ns name body => exact deployment rfl
  | getDeployment ns name => exact deployment rfl
  | deleteDeployment ns name => exact deployment rfl
  | rollbackDeployment ns name body => exact deployment rfl

theorem registry_decided (reach : (apiHost lax).Reachable s₀ c) :
    Host.Verified (fun _ => Answerable) (RegistryCall lax) EndsDecided (fun _ => True)
      (fun s => Recorded s.registry) c := by
  refine reach.verified (calls_handleDecided lax) trivial ?_
    fun s job log op r t _ call known executed => ?_
  · rintro s _ - ⟨c, -, rfl⟩
    exact ⟨trivial, fun _ => id⟩
  · have executes : s.Executes op r t := executed
    refine ⟨⟨s, t, known, executes⟩, trivial, ?_, fun event => .mono executes.grows⟩
    cases op with
    | query query =>
      obtain ⟨db, executes, rfl⟩ := executes
      exact executes.recorded call.rule known
    | kubernetes call => trivial

/-- What a round trip of a request does to the abstract registry. -/
theorem RegistryCall.effect {request : Request} {log : List Event} {query : Query}
    (call : RegistryCall lax request log (.query query)) {db db' : Database} {r : query.Reply}
    (executes : db.Executes query r db') (known : ∀ event ∈ log, Recorded db event) :
    (effectOf request ⟨.query query, r⟩ = none ∧ db'.abstract = db.abstract) ∨
      (decided request log = none ∧ ∃ answer, effectOf request ⟨.query query, r⟩ = some answer ∧
        Registry.Does request db.abstract answer db'.abstract) := by
  cases call with
  | @readModel name body _ pending =>
    obtain ⟨now, executed⟩ := executes
    cases executed
    cases found : db.models.find name.1 with
    | none => exact Or.inl ⟨rfl, rfl⟩
    | some row =>
      have there : db.abstract.description name.1 = some row.description := by
        simp [Database.abstract, found]
      by_cases same : row.description = body.description
      · refine Or.inr ⟨pending, _, if_pos same, ?_⟩
        have does : Registry.Does (.putModel name body) db.abstract _ _ :=
          .oldModel (by simp [there])
        rwa [← same, ← there, Function.update_eq_self] at does
      · exact Or.inl ⟨if_neg same, rfl⟩
  | @insertModel name body _ pending =>
    rcases executes.insertModel_cases with ⟨now, fresh, rfl, rfl⟩ | ⟨rfl, rfl, -⟩
    · refine Or.inr ⟨pending, _, rfl, ?_⟩
      rw [Database.abstract_addModel]
      exact .newModel (by simp [Database.abstract, fresh])
    · exact Or.inl ⟨rfl, rfl⟩
  | @updateModel name body _ pending =>
    by_cases missing : db.models.find name.1 = none
    · obtain ⟨now, executed⟩ := executes
      simp only [Database.execute, missing, if_true] at executed
      cases executed
      exact Or.inl ⟨rfl, rfl⟩
    · rcases executes.updateModel_cases with ⟨now, rfl, rfl⟩ | ⟨-, -, absent⟩
      · refine Or.inr ⟨pending, _, rfl, ?_⟩
        rw [Database.abstract_describe _ _ _ _ missing]
        exact .oldModel (Database.abstract_description_ne_none.2 missing)
      · exact absurd absent missing
  | @refreshModel _ _ name =>
    obtain ⟨rfl, -⟩ := executes.refreshModel_cases
    exact Or.inl ⟨by cases request <;> rfl, rfl⟩
  | rollback =>
    obtain ⟨now, executed⟩ := executes
    cases executed
    exact Or.inl ⟨by cases request <;> rfl, rfl⟩
  | @readModelOf name version body _ pending =>
    obtain ⟨now, executed⟩ := executes
    cases executed
    cases found : db.models.find name.1 with
    | none => exact Or.inr ⟨pending, _, rfl, .noModel (by simp [Database.abstract, found])⟩
    | some row => exact Or.inl ⟨rfl, rfl⟩
  | @readVersion name version body _ row pending model =>
    obtain ⟨now, executed⟩ := executes
    cases executed
    have there : db.abstract.description name.1 ≠ none :=
      Database.abstract_description_ne_none.2 (known _ model row rfl).2
    cases found : db.version name.1 version.1 with
    | none => exact Or.inl ⟨rfl, rfl⟩
    | some existing =>
      have stored : db.versions.find (name.1, version.1) = some existing := found
      exact Or.inr ⟨pending, _, rfl, .oldVersion there (by simp [Database.abstract, stored])⟩
  | @insertVersion name version body _ row pending model =>
    have there : db.abstract.description name.1 ≠ none :=
      Database.abstract_description_ne_none.2 (known _ model row rfl).2
    rcases executes.insertVersion_cases with ⟨now, _, fresh, rfl, rfl⟩ | ⟨rfl, rfl, -⟩
    · refine Or.inr ⟨pending, _, rfl, ?_⟩
      rw [Database.abstract_addVersion]
      have absent : db.versions.find (name.1, version.1) = none := fresh
      exact .newVersion there (by simp [Database.abstract, absent])
    · exact Or.inl ⟨rfl, rfl⟩
  | @refreshVersion _ _ id =>
    obtain ⟨rfl, -⟩ := executes.refreshVersion_cases
    exact Or.inl ⟨by cases request <;> rfl, rfl⟩
  | deployment call =>
    have isDeployment := call.isDeployment
    have read : db' = db := by
      cases call with
      | lookup | rollbackLookup =>
        obtain ⟨now, executed⟩ := executes
        cases executed
        rfl
    refine Or.inl ⟨?_, by rw [read]⟩
    cases request with
    | putModel | putVersion => cases isDeployment
    | putDeployment | getDeployment | deleteDeployment | rollbackDeployment => rfl

theorem registry_linearizes (lax : Coercions) (s₀ : Stores) :
    Linearizes (apiHost lax) Registry.Does (fun s => s.registry.abstract) decided s₀ where
  interferes := by
    rintro s _ ⟨c, -, rfl⟩
    rfl
  start _ := rfl
  call c i request log op next r t reach running executed := by
    have verified := registry_decided reach
    have executes : c.shared.Executes op r t := executed
    cases op with
    | kubernetes call =>
      obtain ⟨cluster, -, rfl⟩ := executes
      refine Or.inl ⟨?_, rfl⟩
      have silent : effectOf request ⟨.kubernetes call, r⟩ = none := by cases request <;> rfl
      rw [decided_append, silent, Option.or_none]
    | query query =>
      obtain ⟨db, executes, rfl⟩ := executes
      rcases (verified.follows running).rest.1.effect executes (verified.known running) with
        ⟨silent, same⟩ | ⟨pending, answer, effect, does⟩
      · refine Or.inl ⟨?_, same⟩
        rw [decided_append, silent, Option.or_none]
      · refine Or.inr ⟨pending, answer, ?_, does⟩
        rw [decided_append, pending, Option.none_or, effect]

/-- For any interleaving of requests at their round trips, the registry is an atomic object: every
step of the system is at most one step in which a request takes effect on the abstract registry, and
a registry request that has ended took effect with the answer it returns. -/
theorem registry_linearizable (lax : Coercions) (s₀ : Stores)
    (c : Config Stores Request Op Op.Reply (Except Failure Response))
    (reach : (apiHost lax).Reachable s₀ c) :
    (∀ d, (apiHost lax).Step c d → Relation.ReflGen (Atomic.Step Registry.Does)
      (c.asAtomic (fun s => s.registry.abstract) decided)
      (d.asAtomic (fun s => s.registry.abstract) decided)) ∧
    ∀ i request log result, c.thread i = some ⟨request, log, .ret result⟩ →
      request.isDeployment = false → ∃ answer, outcome result = some answer ∧
        (c.asAtomic (fun s => s.registry.abstract) decided).thread i =
          some (request, some answer) := by
  refine ⟨fun d next => (registry_linearizes lax s₀).step reach next, ?_⟩
  intro i request log result running registry
  obtain ⟨answer, effect, answered⟩ := ((registry_decided reach).follows running).rest registry
  refine ⟨answer, answered, ?_⟩
  simp only [Config.asAtomic, running, Option.map_some, effect]

theorem registry_linearizable_overtaken :
    ∃ c answer, (apiHost strictCoercions).Reachable Stores.empty c ∧
      (c.asAtomic (fun s => s.registry.abstract) decided).thread 0 =
        some (.putVersion sampleModel sampleVersion sampleBody, some answer) := by
  obtain ⟨c, row, log, log', reach, -, missed, -⟩ := missed_model_reachable
  obtain ⟨answer, -, effect⟩ :=
    (registry_linearizable strictCoercions Stores.empty c reach).2 0 _ log _ missed rfl
  exact ⟨c, answer, reach, effect⟩

end Runs

end Kernexys.Api
