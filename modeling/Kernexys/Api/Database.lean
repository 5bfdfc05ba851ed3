import Kernexys.Lib.Json
import Kernexys.Lib.Table

/-!
# The registry database

The tables of `db_models.py` with the constraints the database enforces, and the round trips that a
session makes.  Every read sees the committed rows.
-/

namespace Kernexys.Api

/-! ## Tables -/

/-- A row of `models`. -/
structure RegisteredModel where
  name : String
  description : Option String
  createdAt : ℤ
  updatedAt : ℤ

/-- The row with another description. -/
def RegisteredModel.describe (now : ℤ) (description : Option String) (row : RegisteredModel) :
    RegisteredModel :=
  { row with description := description, updatedAt := now }

theorem RegisteredModel.name_describe (now : ℤ) (description : Option String)
    (row : RegisteredModel) : (row.describe now description).name = row.name := rfl

/-- What a `ModelVersion` object holds before it is stored. -/
structure VersionRecord where
  modelName : String
  version : String
  runtimeImage : String
  artifactDigest : Option String
  metadataJson : Dict

/-- A row of `model_versions`. -/
structure ModelVersion extends VersionRecord where
  id : ℕ
  createdAt : ℤ

/-- The columns of the unique constraint. -/
def VersionRecord.key (record : VersionRecord) : String × String := (record.modelName, record.version)

/-- The committed rows.  The fields after the first three are the constraints: the primary keys, the
unique constraint (in the type of the table) and the foreign key. -/
structure Database where
  models : Table RegisteredModel String RegisteredModel.name
  versions : Table ModelVersion (String × String) fun row => row.key
  nextId : ℕ
  ids : (versions.rows.map ModelVersion.id).Nodup
  ids_lt : ∀ row ∈ versions.rows, row.id < nextId
  foreign_key : ∀ row ∈ versions.rows, models.find row.modelName ≠ none

namespace Database

/-- A database without rows. -/
def empty : Database where
  models := Table.empty
  versions := Table.empty
  nextId := 1
  ids := by simp [Table.empty]
  ids_lt := by simp [Table.empty]
  foreign_key := by simp [Table.empty]

/-- The row of a version. -/
def version (db : Database) (modelName version : String) : Option ModelVersion :=
  db.versions.find (modelName, version)

/-- Insert a row into `models`. -/
def addModel (db : Database) (row : RegisteredModel) (fresh : db.models.find row.name = none) :
    Database :=
  { db with
    models := db.models.append row fresh
    foreign_key := fun version mem => Table.find_append_ne_none fresh (db.foreign_key version mem) }

/-- Change the description of a model. -/
def describe (db : Database) (now : ℤ) (name : String) (description : Option String) : Database :=
  { db with
    models := db.models.modify name (RegisteredModel.describe now description)
      (RegisteredModel.name_describe now description)
    foreign_key := fun version mem => Table.find_modify_ne_none
      (RegisteredModel.name_describe now description) (db.foreign_key version mem) }

/-- Insert a row into `model_versions`. -/
def addVersion (db : Database) (now : ℤ) (record : VersionRecord)
    (model : db.models.find record.modelName ≠ none) (fresh : db.versions.find record.key = none) :
    Database :=
  { db with
    versions := db.versions.append { record with id := db.nextId, createdAt := now } fresh
    nextId := db.nextId + 1
    ids := by
      rw [Table.append, List.map_append, List.nodup_append]
      refine ⟨db.ids, by simp, fun id before id' last => ?_⟩
      obtain ⟨row, mem, rfl⟩ := List.mem_map.1 before
      rw [List.map_singleton, List.mem_singleton] at last
      subst last
      exact (db.ids_lt row mem).ne
    ids_lt := by
      intro row mem
      rcases List.mem_append.1 mem with before | last
      · exact (db.ids_lt row before).trans (Nat.lt_succ_self _)
      · rw [List.mem_singleton.1 last]
        exact Nat.lt_succ_self _
    foreign_key := by
      intro row mem
      rcases List.mem_append.1 mem with before | last
      · exact db.foreign_key row before
      · rw [List.mem_singleton.1 last]
        exact model }

end Database

/-! ## Round trips -/

/-- The errors of SQLAlchemy that a round trip raises over a constraint or a row that is gone.  The
database always answers: a lost connection or reply is not modelled. -/
inductive SqlError where
  | integrityError
  | staleDataError
  | invalidRequestError
  deriving DecidableEq

/-- The round trips of a session.  An insert or an update is the commit that flushes it. -/
inductive Query where
  | getModel (name : String)
  | insertModel (name : String) (description : Option String)
  | updateModel (name : String) (description : Option String)
  | refreshModel (name : String)
  | getVersion (modelName version : String)
  | insertVersion (record : VersionRecord)
  | refreshVersion (id : ℕ)
  | rollback

/-- What a round trip returns; an insert into `model_versions` returns the new id. -/
abbrev Query.Reply : Query → Type
  | getModel _ => Option RegisteredModel
  | insertModel _ _ => Except SqlError Unit
  | updateModel _ _ => Except SqlError Unit
  | refreshModel _ => Except SqlError RegisteredModel
  | getVersion _ _ => Option ModelVersion
  | insertVersion _ => Except SqlError ℕ
  | refreshVersion _ => Except SqlError ModelVersion
  | rollback => Unit

/-- One round trip at a time that the database reads from its clock. -/
def Database.execute (now : ℤ) : (query : Query) → Database → query.Reply × Database
  | .getModel name, db => (db.models.find name, db)
  | .insertModel name description, db =>
    if fresh : db.models.find name = none then
      (.ok (), db.addModel ⟨name, description, now, now⟩ fresh)
    else (.error .integrityError, db)
  | .updateModel name description, db =>
    if db.models.find name = none then (.error .staleDataError, db)
    else (.ok (), db.describe now name description)
  | .refreshModel name, db =>
    match db.models.find name with
    | some row => (.ok row, db)
    | none => (.error .invalidRequestError, db)
  | .getVersion modelName version, db => (db.version modelName version, db)
  | .insertVersion record, db =>
    if model : db.models.find record.modelName ≠ none then
      if fresh : db.versions.find record.key = none then
        (.ok db.nextId, db.addVersion now record model fresh)
      else (.error .integrityError, db)
    else (.error .integrityError, db)
  | .refreshVersion id, db =>
    match db.versions.rows.find? fun row => row.id = id with
    | some row => (.ok row, db)
    | none => (.error .invalidRequestError, db)
  | .rollback, db => ((), db)

/-- A round trip at any time. -/
def Database.Executes (db : Database) (query : Query) (r : query.Reply) (db' : Database) : Prop :=
  ∃ now, Database.execute now query db = (r, db')

end Kernexys.Api
