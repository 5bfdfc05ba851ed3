import Kernexys.Api.Trace

/-!
# The registry under concurrency

Requests interleave at their database round trips.  A version that was committed is never changed
and never committed twice, and every version request answers by the committed row.
-/

namespace Kernexys.Api

/-! ## What a round trip does -/

/-- Models and versions are never removed, and versions are never changed. -/
structure Database.Grows (db db' : Database) : Prop where
  models : ∀ name, db.models.find name ≠ none → db'.models.find name ≠ none
  versions : ∀ row ∈ db.versions.rows, row ∈ db'.versions.rows

theorem Database.Grows.refl (db : Database) : db.Grows db := ⟨fun _ => id, fun _ => id⟩

theorem Database.Grows.trans {a b c : Database} (first : a.Grows b) (second : b.Grows c) : a.Grows c :=
  ⟨fun name found => second.models name (first.models name found),
    fun row mem => second.versions row (first.versions row mem)⟩

theorem Database.Grows.version {db db' : Database} (grows : db.Grows db') {modelName version : String}
    {row : ModelVersion} (found : db.version modelName version = some row) :
    db'.version modelName version = some row := by
  rw [Database.version, Table.find_eq_some_iff] at found ⊢
  exact ⟨grows.versions row found.1, found.2⟩

/-- An insert into `models` adds a row, or finds that the name is taken. -/
theorem Database.Executes.insertModel_cases {db db' : Database} {name : String}
    {description : Option String} {r : Query.Reply (.insertModel name description)}
    (executes : db.Executes (.insertModel name description) r db') :
    (∃ now, ∃ fresh : db.models.find name = none, r = .ok () ∧
      db' = db.addModel ⟨name, description, now, now⟩ fresh) ∨
    (r = .error .integrityError ∧ db' = db ∧ db.models.find name ≠ none) := by
  obtain ⟨now, executed⟩ := executes
  simp only [Database.execute] at executed
  split at executed
  next fresh =>
    cases executed
    exact Or.inl ⟨now, fresh, rfl, rfl⟩
  next taken =>
    cases executed
    exact Or.inr ⟨rfl, rfl, taken⟩

/-- An update of `models` changes a description, or finds no row. -/
theorem Database.Executes.updateModel_cases {db db' : Database} {name : String}
    {description : Option String} {r : Query.Reply (.updateModel name description)}
    (executes : db.Executes (.updateModel name description) r db') :
    (∃ now, r = .ok () ∧ db' = db.describe now name description) ∨
    (r = .error .staleDataError ∧ db' = db ∧ db.models.find name = none) := by
  obtain ⟨now, executed⟩ := executes
  simp only [Database.execute] at executed
  split at executed
  next missing =>
    cases executed
    exact Or.inr ⟨rfl, rfl, missing⟩
  next =>
    cases executed
    exact Or.inl ⟨now, rfl, rfl⟩

/-- An insert into `model_versions` stores the record under a new id, or finds that the model is
missing or the version is there. -/
theorem Database.Executes.insertVersion_cases {db db' : Database} {record : VersionRecord}
    {r : Query.Reply (.insertVersion record)} (executes : db.Executes (.insertVersion record) r db') :
    (∃ now, ∃ model : db.models.find record.modelName ≠ none,
      ∃ fresh : db.versions.find record.key = none,
        r = .ok db.nextId ∧ db' = db.addVersion now record model fresh) ∨
    (r = .error .integrityError ∧ db' = db ∧
      (db.models.find record.modelName = none ∨ db.versions.find record.key ≠ none)) := by
  obtain ⟨now, executed⟩ := executes
  simp only [Database.execute] at executed
  split at executed
  next model =>
    split at executed
    next fresh =>
      cases executed
      exact Or.inl ⟨now, model, fresh, rfl, rfl⟩
    next taken =>
      cases executed
      exact Or.inr ⟨rfl, rfl, Or.inr taken⟩
  next missing =>
    cases executed
    exact Or.inr ⟨rfl, rfl, Or.inl (not_not.1 missing)⟩

/-- A refresh of a model reads its row. -/
theorem Database.Executes.refreshModel_cases {db db' : Database} {name : String}
    {r : Query.Reply (.refreshModel name)} (executes : db.Executes (.refreshModel name) r db') :
    db' = db ∧ ((∃ row, db.models.find name = some row ∧ r = .ok row) ∨
      (db.models.find name = none ∧ r = .error .invalidRequestError)) := by
  obtain ⟨now, executed⟩ := executes
  simp only [Database.execute] at executed
  split at executed
  next row found =>
    cases executed
    exact ⟨rfl, Or.inl ⟨row, found, rfl⟩⟩
  next missing =>
    cases executed
    exact ⟨rfl, Or.inr ⟨missing, rfl⟩⟩

/-- A refresh of a version reads the row with its id. -/
theorem Database.Executes.refreshVersion_cases {db db' : Database} {id : ℕ}
    {r : Query.Reply (.refreshVersion id)} (executes : db.Executes (.refreshVersion id) r db') :
    db' = db ∧ ((∃ row ∈ db.versions.rows, row.id = id ∧ r = .ok row) ∨
      ((∀ row ∈ db.versions.rows, row.id ≠ id) ∧ r = .error .invalidRequestError)) := by
  obtain ⟨now, executed⟩ := executes
  simp only [Database.execute] at executed
  split at executed
  next row found =>
    cases executed
    refine ⟨rfl, Or.inl ⟨row, List.mem_of_find?_eq_some found, ?_, rfl⟩⟩
    simpa using List.find?_some found
  next missing =>
    cases executed
    refine ⟨rfl, Or.inr ⟨fun row mem => ?_, rfl⟩⟩
    simpa using List.find?_eq_none.1 missing row mem

/-- The other round trips read. -/
theorem Database.Executes.read_cases {db db' : Database} {query : Query} {r : query.Reply}
    (executes : db.Executes query r db') :
    db' = db ∨ (∃ name description, query = .insertModel name description) ∨
      (∃ name description, query = .updateModel name description) ∨
      ∃ record, query = .insertVersion record := by
  cases query with
  | insertModel name description => exact Or.inr (Or.inl ⟨name, description, rfl⟩)
  | updateModel name description => exact Or.inr (Or.inr (Or.inl ⟨name, description, rfl⟩))
  | insertVersion record => exact Or.inr (Or.inr (Or.inr ⟨record, rfl⟩))
  | refreshModel name => exact Or.inl executes.refreshModel_cases.1
  | refreshVersion id => exact Or.inl executes.refreshVersion_cases.1
  | getModel name =>
    obtain ⟨now, executed⟩ := executes
    cases executed
    exact Or.inl rfl
  | getVersion modelName version =>
    obtain ⟨now, executed⟩ := executes
    cases executed
    exact Or.inl rfl
  | rollback =>
    obtain ⟨now, executed⟩ := executes
    cases executed
    exact Or.inl rfl

theorem Database.Executes.grows {db db' : Database} {query : Query} {r : query.Reply}
    (executes : db.Executes query r db') : db.Grows db' := by
  rcases executes.read_cases with
    rfl | ⟨name, description, rfl⟩ | ⟨name, description, rfl⟩ | ⟨record, rfl⟩
  · exact .refl _
  · rcases executes.insertModel_cases with ⟨now, fresh, -, rfl⟩ | ⟨-, rfl, -⟩
    · exact ⟨fun _ => Table.find_append_ne_none fresh, fun _ => id⟩
    · exact .refl _
  · rcases executes.updateModel_cases with ⟨now, -, rfl⟩ | ⟨-, rfl, -⟩
    · exact ⟨fun _ => Table.find_modify_ne_none (RegisteredModel.name_describe now description),
        fun _ => id⟩
    · exact .refl _
  · rcases executes.insertVersion_cases with ⟨now, model, fresh, -, rfl⟩ | ⟨-, rfl, -⟩
    · exact ⟨fun _ => id, fun _ => List.mem_append_left _⟩
    · exact .refl _

/-- A row that is new after a round trip is the one it inserted. -/
theorem Database.Executes.new_version {db db' : Database} {query : Query} {r : query.Reply}
    (executes : db.Executes query r db') {row : ModelVersion} (mem : row ∈ db'.versions.rows)
    (new : row ∉ db.versions.rows) :
    (⟨.query query, r⟩ : Event) = ⟨.query (.insertVersion row.toVersionRecord), .ok row.id⟩ := by
  rcases executes.read_cases with
    rfl | ⟨name, description, rfl⟩ | ⟨name, description, rfl⟩ | ⟨record, rfl⟩
  · exact absurd mem new
  · rcases executes.insertModel_cases with ⟨now, fresh, -, rfl⟩ | ⟨-, rfl, -⟩ <;>
      exact absurd mem new
  · rcases executes.updateModel_cases with ⟨now, -, rfl⟩ | ⟨-, rfl, -⟩ <;>
      exact absurd mem new
  · rcases executes.insertVersion_cases with ⟨now, model, fresh, rfl, rfl⟩ | ⟨-, rfl, -⟩
    · rcases List.mem_append.1 mem with before | last
      · exact absurd before new
      · rw [List.mem_singleton.1 last]
    · exact absurd mem new

/-! ## What a log shows -/

/-- What a round trip has shown, for good, about the database. -/
def Recorded (db : Database) : Event → Prop
  | ⟨.query (.getModel name), r⟩ => ∀ row, r = some row → row.name = name ∧ db.models.find name ≠ none
  | ⟨.query (.insertModel name _), _⟩ => db.models.find name ≠ none
  | ⟨.query (.getVersion modelName version), r⟩ =>
    ∀ row, r = some row → db.version modelName version = some row
  | ⟨.query (.insertVersion record), r⟩ =>
    ∃ row, db.version record.modelName record.version = some row ∧
      ∀ id, r = .ok id → row.toVersionRecord = record ∧ row.id = id
  | ⟨.query (.refreshVersion id), r⟩ => ∀ row, r = .ok row → row ∈ db.versions.rows ∧ row.id = id
  | _ => True

theorem Recorded.mono {db db' : Database} (grows : db.Grows db') {event : Event}
    (recorded : Recorded db event) : Recorded db' event := by
  obtain ⟨op, r⟩ := event
  cases op with
  | kubernetes call => trivial
  | query query =>
    cases query with
    | getModel name =>
      intro row eq
      exact ⟨(recorded row eq).1, grows.models name (recorded row eq).2⟩
    | insertModel name description => exact grows.models name recorded
    | updateModel name description => trivial
    | refreshModel name => trivial
    | getVersion modelName version => exact fun row eq => grows.version (recorded row eq)
    | insertVersion record =>
      obtain ⟨row, found, inserted⟩ := recorded
      exact ⟨row, grows.version found, inserted⟩
    | refreshVersion id =>
      intro row eq
      exact ⟨grows.versions row (recorded row eq).1, (recorded row eq).2⟩
    | rollback => trivial

/-- The event of an insert that succeeded. -/
abbrev inserted (record : VersionRecord) (id : ℕ) : Event :=
  ⟨.query (.insertVersion record), (.ok id : Except SqlError ℕ)⟩

/-- What a request may do to the registry: a version is only inserted for a version request whose
model was found, and registry requests only make round trips. -/
structure RegistryRule (request : Request) (log : List Event) (op : Op) : Prop where
  insert : ∀ record, op = .query (.insertVersion record) → ∃ modelName version body,
    request = .putVersion modelName version body ∧ record = versionRecord modelName version body ∧
    ∃ row, (⟨.query (.getModel modelName.1), some row⟩ : Event) ∈ log
  registry : ∀ call, op = .kubernetes call → request.isDeployment = true

theorem registryRule_query {request : Request} {log : List Event} {query : Query}
    (other : ∀ record, query ≠ .insertVersion record) : RegistryRule request log (.query query) :=
  ⟨fun record eq => absurd (Op.query.inj eq) (other record), fun _ eq => by cases eq⟩

/-- What a round trip shows when it returns. -/
theorem Database.Executes.recorded {db db' : Database} {query : Query} {r : query.Reply}
    (executes : db.Executes query r db') {request : Request} {log : List Event}
    (rule : RegistryRule request log (.query query)) (known : ∀ event ∈ log, Recorded db event) :
    Recorded db' ⟨.query query, r⟩ := by
  cases query with
  | getModel name =>
    obtain ⟨now, executed⟩ := executes
    cases executed
    intro row found
    have found : db.models.find name = some row := found
    exact ⟨(Table.find_eq_some_iff.1 found).2, by simp [found]⟩
  | insertModel name description =>
    rcases executes.insertModel_cases with ⟨now, fresh, -, rfl⟩ | ⟨-, rfl, taken⟩
    · refine Option.ne_none_iff_exists'.2
        ⟨⟨name, description, now, now⟩, Table.find_eq_some_iff.2 ⟨?_, rfl⟩⟩
      exact List.mem_append_right _ (List.mem_singleton_self _)
    · exact taken
  | updateModel name description => trivial
  | refreshModel name => trivial
  | getVersion modelName version =>
    obtain ⟨now, executed⟩ := executes
    cases executed
    exact fun row found => found
  | insertVersion record =>
    rcases executes.insertVersion_cases with ⟨now, model, fresh, rfl, rfl⟩ | ⟨rfl, rfl, failed⟩
    · refine ⟨⟨record, db.nextId, now⟩, Table.find_eq_some_iff.2 ⟨?_, rfl⟩, ?_⟩
      · exact List.mem_append_right _ (List.mem_singleton_self _)
      · rintro id ⟨⟩
        exact ⟨rfl, rfl⟩
    · obtain ⟨modelName, version, body, -, rfl, row, read⟩ := rule.insert record rfl
      have model := (known _ read row rfl).2
      rcases failed with missing | taken
      · exact absurd missing model
      · obtain ⟨existing, found⟩ := Option.ne_none_iff_exists'.1 taken
        exact ⟨existing, found, by rintro id ⟨⟩⟩
  | refreshVersion id =>
    obtain ⟨rfl, ⟨row, mem, same, rfl⟩ | ⟨-, rfl⟩⟩ := executes.refreshVersion_cases
    · rintro _ ⟨⟩
      exact ⟨mem, same⟩
    · rintro _ ⟨⟩
  | rollback => trivial

/-! ## What the requests do -/

/-- A database in which what the log shows holds can give the reply. -/
def Answerable (log : List Event) (op : Op) (r : op.Reply) : Prop :=
  ∃ s t : Stores, (∀ event ∈ log, Recorded s.registry event) ∧ s.Executes op r t

theorem Answerable.query {log : List Event} {query : Query} {r : query.Reply}
    (may : Answerable log (.query query) r) :
    ∃ db db', (∀ event ∈ log, Recorded db event) ∧ db.Executes query r db' := by
  obtain ⟨s, t, known, db, executes, -⟩ := may
  exact ⟨s.registry, db, known, executes⟩

/-- A version that the log shows is found. -/
theorem Answerable.getVersion {log : List Event} {record : VersionRecord}
    {r : Query.Reply (.insertVersion record)}
    (may : Answerable log (.query (.getVersion record.modelName record.version)) none)
    (insert : (⟨.query (.insertVersion record), r⟩ : Event) ∈ log) : False := by
  obtain ⟨db, db', known, now, executed⟩ := may.query
  obtain ⟨row, found, -⟩ := known _ insert
  cases executed.symm.trans (congrArg (·, db) found)

section PutVersion

variable {request : Request} {modelName : ResourceName} {version : VersionName}
  {body : VersionCreate} {log : List Event} {row : RegisteredModel}

/-- How the commit of a new version ends: it is stored and read again, or the version is there. -/
inductive InsertResult (record : VersionRecord) (log : List Event) :
    Except SqlError ModelVersion → Prop where
  | created (id : ℕ) {row : ModelVersion} (stored : inserted record id ∈ log)
      (read : (⟨.query (.refreshVersion id), .ok row⟩ : Event) ∈ log) :
      InsertResult record log (.ok row)
  | taken (failed : (⟨.query (.insertVersion record), .error .integrityError⟩ : Event) ∈ log)
      (unwritten : ∀ record id, inserted record id ∉ log) :
      InsertResult record log (.error .integrityError)

theorem calls_insertVersion (request_eq : request = .putVersion modelName version body)
    (read : (⟨.query (.getModel modelName.1), some row⟩ : Event) ∈ log)
    (unwritten : ∀ record id, inserted record id ∉ log) :
    (RegistryRepository.insertVersion (versionRecord modelName version body)).Calls Answerable
      (RegistryRule request) (InsertResult (versionRecord modelName version body)) log := by
  unfold RegistryRepository.insertVersion Session.insertVersion Session.refreshVersion
  rw [Program.perform_bind]
  have rule : RegistryRule request log
      (.query (.insertVersion (versionRecord modelName version body))) := by
    refine ⟨?_, by rintro call ⟨⟩⟩
    rintro record ⟨⟩
    exact ⟨modelName, version, body, request_eq, rfl, row, read⟩
  refine Program.calls_call rule fun r may => ?_
  obtain ⟨db, db', -, executes⟩ := may.query
  cases r with
  | ok id =>
    refine Program.calls_call (registryRule_query nofun) fun r may => ?_
    obtain ⟨db, db', known, executes⟩ := may.query
    obtain ⟨-, ⟨row, -, -, rfl⟩ | ⟨missing, -⟩⟩ := executes.refreshVersion_cases
    · exact Program.calls_ret (.created id (by simp) (by simp))
    · obtain ⟨row, found, stored⟩ :=
        known _ (List.mem_append_right _ (List.mem_singleton_self _))
      exact absurd (stored id rfl).2 (missing row (Table.find_eq_some_iff.1 found).1)
  | error e =>
    rcases executes.insertVersion_cases with ⟨_, _, _, absurd_, -⟩ | ⟨eq, -, -⟩
    · cases absurd_
    · cases eq
      exact Program.calls_ret (.taken (by simp) (by simpa using unwritten))

/-- How `RegistryRepository.putVersion` ends. -/
inductive VersionResult (record : VersionRecord) (log : List Event) :
    Except SqlError (WriteResult ModelVersion) → Prop where
  | existing {row : ModelVersion}
      (read : (⟨.query (.getVersion record.modelName record.version), some row⟩ : Event) ∈ log)
      (unwritten : ∀ record id, inserted record id ∉ log) :
      VersionResult record log (.ok ⟨row, false⟩)
  | created (id : ℕ) {row : ModelVersion} (stored : inserted record id ∈ log)
      (read : (⟨.query (.refreshVersion id), .ok row⟩ : Event) ∈ log) :
      VersionResult record log (.ok ⟨row, true⟩)

theorem calls_repositoryPutVersion (request_eq : request = .putVersion modelName version body)
    (read : (⟨.query (.getModel modelName.1), some row⟩ : Event) ∈ log)
    (unwritten : ∀ record id, inserted record id ∉ log) :
    (RegistryRepository.putVersion (versionRecord modelName version body)).Calls Answerable
      (RegistryRule request) (VersionResult (versionRecord modelName version body)) log := by
  unfold RegistryRepository.putVersion Session.getVersion Session.rollback
  rw [Program.perform_bind]
  refine Program.calls_call (registryRule_query nofun) fun r may => ?_
  cases r with
  | some existing => exact Program.calls_ret (.existing (by simp) (by simpa using unwritten))
  | none =>
    refine Program.Calls.bind (calls_insertVersion request_eq (List.mem_append_left _ read)
      (by simpa using unwritten)) fun log r ended => ?_
    cases ended with
    | created id stored read => exact Program.calls_ret (.created id stored read)
    | taken failed unwritten =>
      dsimp only
      rw [Program.perform_bind]
      refine Program.calls_call (registryRule_query nofun) fun _ _ => ?_
      rw [Program.perform_bind]
      refine Program.calls_call (registryRule_query nofun) fun r may => ?_
      cases r with
      | none => exact (may.getVersion (List.mem_append_left _ failed)).elim
      | some existing =>
        exact Program.calls_ret (.existing (by simp) (by simpa using unwritten))

end PutVersion

section PutModel

variable {request : Request} {log : List Event} {name : String}

/-- The log shows that a model is there. -/
def ShowsModel (log : List Event) (name : String) : Prop :=
  ∀ db, (∀ event ∈ log, Recorded db event) → db.models.find name ≠ none

theorem ShowsModel.append (there : ShowsModel log name) (event : Event) :
    ShowsModel (log ++ [event]) name :=
  fun db known => there db fun event mem => known event (List.mem_append_left _ mem)

/-- A refresh of a model that is there returns it. -/
theorem calls_refreshModel {Q : List Event → Except SqlError RegisteredModel → Prop}
    (there : ShowsModel log name)
    (ends : ∀ row, Q (log ++ [⟨.query (.refreshModel name), .ok row⟩]) (.ok row)) :
    (Session.refreshModel name).Calls Answerable (RegistryRule request) Q log := by
  refine Program.calls_call (registryRule_query nofun) fun r may => ?_
  obtain ⟨db, db', known, executes⟩ := may.query
  obtain ⟨-, ⟨row, -, rfl⟩ | ⟨missing, -⟩⟩ := executes.refreshModel_cases
  · exact Program.calls_ret (ends row)
  · exact absurd missing (there db known)

theorem calls_updateDescription {model : RegisteredModel} (description : Option String)
    (there : ShowsModel log model.name) :
    (RegistryRepository.updateDescription model description).Calls Answerable (RegistryRule request)
      (fun _ r => ∃ result, r = .ok result) log := by
  unfold RegistryRepository.updateDescription Session.updateModel
  split
  · rw [Program.perform_bind]
    refine Program.calls_call (registryRule_query nofun) fun r may => ?_
    obtain ⟨db, db', known, executes⟩ := may.query
    rcases executes.updateModel_cases with ⟨now, rfl, -⟩ | ⟨-, -, missing⟩
    · refine Program.Calls.bind (Q := fun _ r => ∃ row, r = .ok row)
        (calls_refreshModel (there.append _) fun row => ⟨row, rfl⟩) ?_
      rintro log _ ⟨row, rfl⟩
      exact Program.calls_ret ⟨_, rfl⟩
    · exact absurd missing (there db known)
  · exact Program.calls_ret ⟨_, rfl⟩

/-- A model that was read is there. -/
theorem showsModel_read {model : RegisteredModel} :
    ShowsModel (log ++ [⟨.query (.getModel name), some model⟩]) model.name := by
  intro db known
  obtain ⟨same, found⟩ := known _ (List.mem_append_right _ (List.mem_singleton_self _)) model rfl
  rwa [same]

/-- A model that was inserted, or whose name was taken, is there. -/
theorem showsModel_insert {description : Option String}
    {r : Query.Reply (.insertModel name description)} :
    ShowsModel (log ++ [⟨.query (.insertModel name description), r⟩]) name :=
  fun _ known => known _ (List.mem_append_right _ (List.mem_singleton_self _))

theorem calls_repositoryPutModel (name : String) (description : Option String) :
    (RegistryRepository.putModel name description).Calls Answerable (RegistryRule request)
      (fun _ r => ∃ result, r = .ok result) log := by
  unfold RegistryRepository.putModel Session.getModel Session.rollback
  rw [Program.perform_bind]
  refine Program.calls_call (registryRule_query nofun) fun r may => ?_
  cases r with
  | some model => exact calls_updateDescription description showsModel_read
  | none =>
    unfold RegistryRepository.insertModel Session.insertModel
    dsimp only
    rw [Program.perform_bind, Program.call_bind]
    refine Program.calls_call (registryRule_query nofun) fun r may => ?_
    obtain ⟨db, db', -, executes⟩ := may.query
    cases r with
    | ok _ =>
      refine Program.Calls.bind (Q := fun _ r => ∃ row, r = .ok row)
        (calls_refreshModel showsModel_insert fun row => ⟨row, rfl⟩) ?_
      rintro log _ ⟨row, rfl⟩
      exact Program.calls_ret ⟨_, rfl⟩
    | error e =>
      rcases executes.insertModel_cases with ⟨_, _, absurd_, -⟩ | ⟨eq, -, -⟩
      · cases absurd_
      cases eq
      dsimp only
      rw [Program.pure_eq_ret, Program.ret_bind]
      dsimp only
      rw [Program.perform_bind]
      refine Program.calls_call (registryRule_query nofun) fun _ _ => ?_
      rw [Program.perform_bind]
      refine Program.calls_call (registryRule_query nofun) fun r may => ?_
      cases r with
      | none =>
        obtain ⟨db, db', known, now, executed⟩ := may.query
        have missing : db.models.find name = none := (congrArg Prod.fst executed :)
        exact absurd missing (showsModel_insert.append _ db known)
      | some model => exact calls_updateDescription description showsModel_read

end PutModel

/-! ## Runs -/

/-- How a registry request ends. -/
def RegistryEnds : Request → List Event → Except Failure Response → Prop
  | .putModel _ _, _, result =>
    ∃ (created : Bool) (row : _), result = .ok (.model (if created then 201 else 200) row)
  | .putVersion modelName version body, log, result =>
    (log = [⟨.query (.getModel modelName.1), none⟩] ∧
      result = .error (.api (modelNotFound modelName.1))) ∨
    ∃ r, VersionResult (versionRecord modelName version body) log (.ok r) ∧
      result = answerVersion modelName version body r
  | _, _, _ => True

theorem calls_putModel (modelName : ResourceName) (body : ModelUpsert) :
    (putModel modelName body).Calls Answerable (RegistryRule (.putModel modelName body))
      (RegistryEnds (.putModel modelName body)) [] := by
  refine Program.Calls.bind (calls_repositoryPutModel _ _) ?_
  rintro log _ ⟨result, rfl⟩
  exact Program.calls_ret ⟨result.created, result.value, rfl⟩

theorem calls_putVersion (modelName : ResourceName) (version : VersionName) (body : VersionCreate) :
    (putVersion modelName version body).Calls Answerable
      (RegistryRule (.putVersion modelName version body))
      (RegistryEnds (.putVersion modelName version body)) [] := by
  unfold putVersion Session.getModel
  rw [Program.perform_bind]
  refine Program.calls_call (registryRule_query nofun) fun r may => ?_
  cases r with
  | none => exact Program.calls_ret (Or.inl ⟨rfl, rfl⟩)
  | some row =>
    refine Program.Calls.bind (calls_repositoryPutVersion rfl List.mem_cons_self (by simp))
      fun log r ended => ?_
    cases r with
    | ok r => exact Program.calls_ret (Or.inr ⟨r, ended, rfl⟩)
    | error e => cases ended

theorem DeploymentCall.registryRule {lax : Coercions} {request : Request} {log : List Event} {op : Op}
    (call : DeploymentCall lax request log op) : RegistryRule request log op := by
  refine ⟨?_, fun _ _ => call.isDeployment⟩
  rintro record rfl
  cases call

theorem calls_handle (lax : Coercions) (request : Request) :
    (handle lax request).Calls Answerable (RegistryRule request) (RegistryEnds request) [] := by
  have deployment : request.isDeployment = true →
      (handle lax request).Calls Answerable (RegistryRule request) (fun _ _ => True) [] :=
    fun deployment => (deployment_calls deployment).mono (fun _ _ => DeploymentCall.registryRule)
      fun _ _ => id
  cases request with
  | putModel modelName body => exact calls_putModel modelName body
  | putVersion modelName version body => exact calls_putVersion modelName version body
  | putDeployment ns name body => exact deployment rfl
  | getDeployment ns name => exact deployment rfl
  | deleteDeployment ns name => exact deployment rfl
  | rollbackDeployment ns name body => exact deployment rfl

section Runs

variable {lax : Coercions} {s₀ : Stores}
  {c d : Config Stores Request Op Op.Reply (Except Failure Response)}

/-- What a step does to the registry. -/
theorem Stores.Executes.grows {s t : Stores} {op : Op} {r : op.Reply} (executes : s.Executes op r t) :
    s.registry.Grows t.registry := by
  cases op with
  | query query =>
    obtain ⟨db, executes, rfl⟩ := executes
    exact executes.grows
  | kubernetes call =>
    obtain ⟨c, -, rfl⟩ := executes
    exact .refl _

theorem registry_verified (reach : (apiHost lax).Reachable s₀ c) :
    Host.Verified (fun _ => Answerable) RegistryRule RegistryEnds (fun _ => True)
      (fun s => Recorded s.registry) c := by
  refine reach.verified (calls_handle lax) trivial ?_ fun s job log op r t _ rule known executed => ?_
  · rintro s _ - ⟨c, -, rfl⟩
    exact ⟨trivial, fun _ => id⟩
  · have executes : s.Executes op r t := executed
    refine ⟨⟨s, t, known, executes⟩, trivial, ?_, fun event => .mono executes.grows⟩
    cases op with
    | query query =>
      obtain ⟨db, executes, rfl⟩ := executes
      exact executes.recorded rule known
    | kubernetes call => trivial

/-- No step removes or changes a version. -/
theorem step_grows (next : (apiHost lax).Step c d) : c.shared.registry.Grows d.shared.registry := by
  cases next with
  | interfere changed =>
    obtain ⟨c, -, rfl⟩ := changed
    exact .refl _
  | start => exact .refl _
  | call i at_call executed => exact Stores.Executes.grows executed

/-- Every new version was inserted by a thread. -/
theorem inserted_of_new (reach : (apiHost lax).Reachable s₀ c) {row : ModelVersion}
    (mem : row ∈ c.shared.registry.versions.rows) (new : row ∉ s₀.registry.versions.rows) :
    ∃ i th, c.thread i = some th ∧ inserted row.toVersionRecord row.id ∈ th.log := by
  refine reach.invariant (I := fun c => ∀ row ∈ c.shared.registry.versions.rows,
    row ∉ s₀.registry.versions.rows →
      ∃ i th, c.thread i = some th ∧ inserted row.toVersionRecord row.id ∈ th.log)
    (fun row mem new => absurd mem new) (fun c d _ known next row mem new => ?_) row mem new
  by_cases before : row ∈ c.shared.registry.versions.rows
  · obtain ⟨i, th, running, logged⟩ := known row before new
    obtain ⟨th', running', -, kept⟩ := next.thread_kept running
    exact ⟨i, th', running', kept _ logged⟩
  · cases next with
    | interfere changed =>
      obtain ⟨_, -, rfl⟩ := changed
      exact absurd mem before
    | start => exact absurd mem before
    | @call i job log op next r t at_call executed =>
      refine ⟨i, _, Function.update_self .., List.mem_append_right _ (List.mem_singleton.2 ?_)⟩
      have executes : c.shared.Executes op r t := executed
      cases op with
      | query query =>
        obtain ⟨db, executes, rfl⟩ := executes
        exact (executes.new_version mem before).symm
      | kubernetes call =>
        obtain ⟨_, -, rfl⟩ := executes
        exact absurd mem before

/-- An insert that succeeds meets a version that no thread has inserted. -/
theorem not_inserted (reach : (apiHost lax).Reachable s₀ c) {t : Stores}
    {record record' : VersionRecord} {id id' : ℕ}
    (executed : c.shared.Executes (inserted record id).1 (inserted record id).2 t) {i : ℕ}
    {th : Thread Request Op Op.Reply (Except Failure Response)} (running : c.thread i = some th)
    (logged : inserted record' id' ∈ th.log) : record.key ≠ record'.key := by
  intro same
  obtain ⟨db, executes, -⟩ := executed
  obtain ⟨row, found, -⟩ := (registry_verified reach).known running _ logged
  rcases executes.insertVersion_cases with ⟨_, _, absent, -⟩ | ⟨failed, -⟩
  · rw [same] at absent
    cases absent.symm.trans found
  · cases failed

/-- No two threads insert the same version. -/
theorem inserted_once (reach : (apiHost lax).Reachable s₀ c) {i j : ℕ}
    {th th' : Thread Request Op Op.Reply (Except Failure Response)} (running : c.thread i = some th)
    (running' : c.thread j = some th') {record record' : VersionRecord} {id id' : ℕ}
    (logged : inserted record id ∈ th.log) (logged' : inserted record' id' ∈ th'.log)
    (same : record.key = record'.key) : i = j := by
  refine reach.invariant (I := fun c => ∀ i j th th', c.thread i = some th → c.thread j = some th' →
    ∀ record record' id id', inserted record id ∈ th.log → inserted record' id' ∈ th'.log →
      record.key = record'.key → i = j)
    (fun i j th th' absent => absurd absent (by simp [Host.initial]))
    (fun c d reach known next i j th th' running running' record record' id id' logged logged' same =>
      ?_) i j th th' running running' record record' id id' logged logged' same
  by_contra different
  rcases next.event_cases running logged with ⟨before, at_before, mem⟩ | ⟨executed, others⟩
  · rcases next.event_cases running' logged' with ⟨before', at_before', mem'⟩ | ⟨executed', -⟩
    · exact different (known i j _ _ at_before at_before' _ _ _ _ mem mem' same)
    · exact not_inserted reach executed' at_before mem same.symm
  · rw [others j (Ne.symm different)] at running'
    exact not_inserted reach executed running' logged' same

/-! ## Immutability -/

/-- What holds of the registry in a state of the system that started with `s₀`. -/
structure RegistryImmutable (lax : Coercions) (s₀ : Stores)
    (c : Config Stores Request Op Op.Reply (Except Failure Response)) : Prop where
  /-- There is one row for each version. -/
  unique : ∀ row ∈ c.shared.registry.versions.rows, ∀ row' ∈ c.shared.registry.versions.rows,
    row.key = row'.key → row = row'
  /-- A row stays as it was committed. -/
  kept : ∀ d, Relation.ReflTransGen (apiHost lax).Step c d →
    ∀ row ∈ c.shared.registry.versions.rows, row ∈ d.shared.registry.versions.rows
  /-- A version request whose model was not found answers 404 after that one lookup.  Any other one
  answers by the row that is stored: 201 if it stored its own content there, else 200 if the row
  matches and 409 if it does not. -/
  answers : ∀ i modelName version body log result,
    c.thread i = some ⟨.putVersion modelName version body, log, .ret result⟩ →
      (log = [⟨.query (.getModel modelName.1), none⟩] ∧
        result = .error (.api (modelNotFound modelName.1))) ∨
      ∃ row, c.shared.registry.version modelName.1 version.1 = some row ∧
        ((result = .ok (.version 201 (.ofRow row)) ∧
            row.toVersionRecord = versionRecord modelName version body) ∨
          result = if versionMatches row body then .ok (.version 200 (.ofRow row))
            else .error (.api (immutableModelVersion modelName.1 version.1)))
  /-- No two requests create the same version. -/
  created_once : ∀ i j modelName version body body' log log' read read',
    c.thread i = some ⟨.putVersion modelName version body, log, .ret (.ok (.version 201 read))⟩ →
    c.thread j = some ⟨.putVersion modelName version body', log', .ret (.ok (.version 201 read'))⟩ →
    i = j
  /-- Once the requests for a new version have answered, exactly one of them has created it. -/
  created : ∀ modelName version row, c.shared.registry.version modelName.1 version.1 = some row →
    row ∉ s₀.registry.versions.rows →
    (∀ i body log rest, c.thread i = some ⟨.putVersion modelName version body, log, rest⟩ →
      ∃ result, rest = .ret result) →
    ∃! i, ∃ body log, c.thread i =
      some ⟨.putVersion modelName version body, log, .ret (.ok (.version 201 (.ofRow row)))⟩
  /-- No registry request ends with an exception of the database. -/
  no_sql_error : ∀ i request log e, request.isDeployment = false →
    c.thread i ≠ some ⟨request, log, .ret (.error (.sql e))⟩

theorem answerVersion_created (modelName : ResourceName) (version : VersionName)
    (body : VersionCreate) (row : ModelVersion) :
    answerVersion modelName version body ⟨row, true⟩ = .ok (.version 201 (.ofRow row)) := by
  simp [answerVersion]

theorem answerVersion_existing (modelName : ResourceName) (version : VersionName)
    (body : VersionCreate) (row : ModelVersion) :
    answerVersion modelName version body ⟨row, false⟩ =
      if versionMatches row body then .ok (.version 200 (.ofRow row))
      else .error (.api (immutableModelVersion modelName.1 version.1)) := by
  cases matched : versionMatches row body <;> simp [answerVersion, matched]

/-- A request that has stored its version answers 201 with the row. -/
theorem created_answer {db : Database} {record : VersionRecord} {log : List Event} {id : ℕ}
    {row : ModelVersion} (known : ∀ event ∈ log, Recorded db event)
    (stored : inserted record id ∈ log)
    (read : (⟨.query (.refreshVersion id), .ok row⟩ : Event) ∈ log) :
    db.version record.modelName record.version = some row ∧ row.toVersionRecord = record := by
  obtain ⟨row', found, same⟩ := known _ stored
  obtain ⟨mem, sameId⟩ := known _ read row rfl
  have mem' := (Table.find_eq_some_iff.1 found).1
  obtain rfl : row' = row :=
    List.inj_on_of_nodup_map db.ids mem' mem ((same id rfl).2.trans sameId.symm)
  exact ⟨found, (same id rfl).1⟩

/-- A version request that answers 201 has stored its version. -/
theorem inserted_of_created {modelName : ResourceName} {version : VersionName} {body : VersionCreate}
    {log : List Event} {read : VersionRead}
    (ends : RegistryEnds (.putVersion modelName version body) log (.ok (.version 201 read))) :
    ∃ id, inserted (versionRecord modelName version body) id ∈ log := by
  rcases ends with ⟨-, absurd_⟩ | ⟨r, result, eq⟩
  · cases absurd_
  cases result with
  | created id stored => exact ⟨id, stored⟩
  | @existing row =>
    rw [answerVersion_existing] at eq
    split at eq <;> cases eq

/-- A version request that has stored its version answers 201 with the row. -/
theorem ends_of_inserted {db : Database} {modelName : ResourceName} {version : VersionName}
    {body : VersionCreate} {log : List Event} {result : Except Failure Response}
    (known : ∀ event ∈ log, Recorded db event)
    (ends : RegistryEnds (.putVersion modelName version body) log result) {record : VersionRecord}
    {id : ℕ} (stored : inserted record id ∈ log) :
    ∃ row, db.version modelName.1 version.1 = some row ∧ result = .ok (.version 201 (.ofRow row)) := by
  rcases ends with ⟨rfl, -⟩ | ⟨r, ended, rfl⟩
  · simp at stored
  cases ended with
  | @created id row stored read =>
    exact ⟨row, (created_answer known stored read).1, answerVersion_created ..⟩
  | existing read unwritten => exact absurd stored (unwritten record id)

/-- A version request that has ended was told that its model is missing, or answers by the row that
is stored. -/
theorem answers_of_ends {db : Database} {modelName : ResourceName} {version : VersionName}
    {body : VersionCreate} {log : List Event} {result : Except Failure Response}
    (known : ∀ event ∈ log, Recorded db event)
    (ends : RegistryEnds (.putVersion modelName version body) log result) :
    (log = [⟨.query (.getModel modelName.1), none⟩] ∧
        result = .error (.api (modelNotFound modelName.1))) ∨
      ∃ row, db.version modelName.1 version.1 = some row ∧
        ((result = .ok (.version 201 (.ofRow row)) ∧
            row.toVersionRecord = versionRecord modelName version body) ∨
          result = if versionMatches row body then .ok (.version 200 (.ofRow row))
            else .error (.api (immutableModelVersion modelName.1 version.1))) := by
  rcases ends with missing | ⟨r, ended, rfl⟩
  · exact Or.inl missing
  refine Or.inr ?_
  cases ended with
  | @existing row read => exact ⟨row, known _ read row rfl, Or.inr (answerVersion_existing ..)⟩
  | @created id row stored read =>
    obtain ⟨found, same⟩ := created_answer known stored read
    exact ⟨row, found, Or.inl ⟨answerVersion_created .., same⟩⟩

/-- A registry request does not end with an exception of the database. -/
theorem ne_sql_of_ends {request : Request} {log : List Event} {e : SqlError}
    (registry : request.isDeployment = false) :
    ¬ RegistryEnds request log (.error (.sql e)) := by
  intro ends
  cases request with
  | putModel modelName body =>
    obtain ⟨created, row, eq⟩ := ends
    cases eq
  | putVersion modelName version body =>
    rcases ends with ⟨-, eq⟩ | ⟨r, ended, eq⟩
    · cases eq
    · cases ended with
      | existing =>
        rw [answerVersion_existing] at eq
        split at eq <;> cases eq
      | created =>
        rw [answerVersion_created] at eq
        cases eq
  | _ => cases registry

/-- Two requests that create the same version are one. -/
theorem eq_of_created (reach : (apiHost lax).Reachable s₀ c) {i j : ℕ} {modelName : ResourceName}
    {version : VersionName} {body body' : VersionCreate} {log log' : List Event}
    {read read' : VersionRead}
    (running : c.thread i =
      some ⟨.putVersion modelName version body, log, .ret (.ok (.version 201 read))⟩)
    (running' : c.thread j =
      some ⟨.putVersion modelName version body', log', .ret (.ok (.version 201 read'))⟩) :
    i = j := by
  obtain ⟨-, follows, -⟩ := registry_verified reach
  obtain ⟨id, stored⟩ := inserted_of_created (follows running).rest
  obtain ⟨id', stored'⟩ := inserted_of_created (follows running').rest
  exact inserted_once reach running running' stored stored' rfl

/-- A new version was inserted by a request for it. -/
theorem putVersion_of_new (reach : (apiHost lax).Reachable s₀ c) {modelName : ResourceName}
    {version : VersionName} {row : ModelVersion}
    (found : c.shared.registry.version modelName.1 version.1 = some row)
    (new : row ∉ s₀.registry.versions.rows) :
    ∃ i body log rest, c.thread i = some ⟨.putVersion modelName version body, log, rest⟩ ∧
      inserted row.toVersionRecord row.id ∈ log := by
  obtain ⟨-, follows, -⟩ := registry_verified reach
  obtain ⟨mem, key⟩ := Table.find_eq_some_iff.1 found
  obtain ⟨i, ⟨request, log, rest⟩, running, stored⟩ := inserted_of_new reach mem new
  obtain ⟨pre, post, split⟩ := List.append_of_mem stored
  obtain ⟨modelName', version', body, rfl, same, -⟩ :=
    ((follows running).made pre _ _ post split).insert _ rfl
  have key' : (modelName'.1, version'.1) = (modelName.1, version.1) := by
    rw [← key, same]
    rfl
  obtain rfl : modelName' = modelName := Subtype.ext (congrArg Prod.fst key')
  obtain rfl : version' = version := Subtype.ext (congrArg Prod.snd key')
  exact ⟨i, body, log, rest, running, stored⟩

/-- For any interleaving of requests at their database round trips, a version that was committed is
never changed or committed again, and version requests answer by it. -/
theorem registry_immutable (reach : (apiHost lax).Reachable s₀ c) : RegistryImmutable lax s₀ c := by
  obtain ⟨-, follows, known⟩ := registry_verified reach
  refine ⟨fun row mem row' mem' => Table.eq_of_key mem mem', fun d steps row mem => ?_,
    fun i modelName version body log result running => ?_,
    fun i j modelName version body body' log log' read read' running running' => ?_,
    fun modelName version row found new answered => ?_,
    fun i request log e registry running => ?_⟩
  · exact reach.steps_invariant (I := fun d => row ∈ d.shared.registry.versions.rows)
      (fun _ _ _ mem next => (step_grows next).versions row mem) steps mem
  · exact answers_of_ends (known running) (follows running).rest
  · exact eq_of_created reach running running'
  · obtain ⟨i, body, log, rest, running, stored⟩ := putVersion_of_new reach found new
    obtain ⟨result, rfl⟩ := answered i body log rest running
    obtain ⟨row', found', rfl⟩ := ends_of_inserted (known running) (follows running).rest stored
    obtain rfl := Option.some.inj (found.symm.trans found')
    refine ⟨i, ⟨body, log, running⟩, ?_⟩
    rintro j ⟨body', log', running'⟩
    exact eq_of_created reach running' running
  · exact ne_sql_of_ends registry (follows running).rest

end Runs

/-! ## A version request that overtakes its model -/

/-- The database answers, and the Kubernetes API is not available. -/
def Stores.serve : (op : Op) → Stores → op.Reply × Stores
  | .query query, s =>
    ((Database.execute 0 query s.registry).1,
      { s with registry := (Database.execute 0 query s.registry).2 })
  | .kubernetes (.patch _ _ _), s => (.error ⟨503, "Kubernetes API is unavailable"⟩, s)
  | .kubernetes (.get _ _), s => (.error ⟨503, "Kubernetes API is unavailable"⟩, s)
  | .kubernetes (.delete _ _), s => (.error ⟨503, "Kubernetes API is unavailable"⟩, s)

theorem Stores.executes_serve (op : Op) (s : Stores) :
    s.Executes op (Stores.serve op s).1 (Stores.serve op s).2 := by
  cases op with
  | query query => exact ⟨_, ⟨0, rfl⟩, rfl⟩
  | kubernetes call =>
    cases call with
    | patch ns name body => exact ⟨s.cluster, Or.inl ⟨rfl, _, rfl⟩, rfl⟩
    | get ns name => exact ⟨s.cluster, ⟨rfl, Or.inl ⟨_, rfl⟩⟩, rfl⟩
    | delete ns name => exact ⟨s.cluster, Or.inl ⟨rfl, _, rfl⟩, rfl⟩

/-- An empty registry and an empty cluster. -/
def Stores.empty : Stores := ⟨Database.empty, Cluster.empty⟩

/-- The conversion that accepts only what needs none. -/
def strictCoercions : Coercions where
  int := Json.integer
  datetime _ := none
  int_int := Json.integer_int

/-- A model name for the runs below. -/
def sampleModel : ResourceName := ⟨"m", by decide⟩

/-- A version name for the runs below. -/
def sampleVersion : VersionName := ⟨"1", by decide⟩

/-- A version with an image and nothing else. -/
def sampleBody : VersionCreate where
  runtimeImage := "image"
  image_valid := ⟨"image", by decide, by decide, by decide⟩
  digest_valid := by simp

/-- A version request misses its model; then the model and the version are registered. -/
theorem missed_model_reachable :
    ∃ c row log log', (apiHost strictCoercions).Reachable Stores.empty c ∧
      c.shared.registry.version "m" "1" = some row ∧
      c.thread 0 = some ⟨.putVersion sampleModel sampleVersion sampleBody, log,
        .ret (.error (.api (modelNotFound "m")))⟩ ∧
      c.thread 2 = some ⟨.putVersion sampleModel sampleVersion sampleBody, log',
        .ret (.ok (.version 201 (.ofRow row)))⟩ := by
  have start : (apiHost strictCoercions).Reachable Stores.empty _ := Host.Reachable.start
  have first := start.start_run Stores.executes_serve 0
    (.putVersion sampleModel sampleVersion sampleBody) rfl
  have second := first.start_run Stores.executes_serve 1 (.putModel sampleModel ⟨none, by simp⟩) rfl
  have third := second.start_run Stores.executes_serve 2
    (.putVersion sampleModel sampleVersion sampleBody) rfl
  exact ⟨_, _, _, _, third, rfl, rfl, rfl⟩

/-- A version request can answer neither 200 nor 409 although another one has created its version. -/
theorem putVersion_overtakes_model :
    ∃ c row log log', (apiHost strictCoercions).Reachable Stores.empty c ∧
      c.shared.registry.version "m" "1" = some row ∧
      c.thread 2 = some ⟨.putVersion sampleModel sampleVersion sampleBody, log',
        .ret (.ok (.version 201 (.ofRow row)))⟩ ∧
      c.thread 0 = some ⟨.putVersion sampleModel sampleVersion sampleBody, log,
        .ret (.error (.api ⟨404, "model_not_found", "Model 'm' was not found."⟩))⟩ := by
  obtain ⟨c, row, log, log', reach, found, missed, created⟩ := missed_model_reachable
  exact ⟨c, row, log, log', reach, found, created, missed⟩

theorem registry_immutable_overtaken :
    ∃ c row, (apiHost strictCoercions).Reachable Stores.empty c ∧
      c.shared.registry.version "m" "1" = some row ∧
      RegistryImmutable strictCoercions Stores.empty c := by
  obtain ⟨c, row, log, log', reach, found, -⟩ := missed_model_reachable
  exact ⟨c, row, reach, found, registry_immutable reach⟩

end Kernexys.Api
