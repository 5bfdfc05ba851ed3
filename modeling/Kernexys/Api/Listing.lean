import Kernexys.Api.Registry
import Kernexys.Lib.Paging

/-!
# Listing the registry page by page

`list_models` and `list_versions` show a window on the rows in the order of the database.  While
other requests register models and versions, a client that reads page after page up to a short one
sees everything that was registered when it began (`listing_complete`).
-/

namespace Kernexys.Api

/-- How the database orders texts: by their weights. -/
structure Collation where
  Weight : Type
  order : LinearOrder Weight
  weight : String → Weight
  injective : Function.Injective weight

instance (collation : Collation) : LinearOrder collation.Weight := collation.order

/-- `PageLimit`. -/
abbrev PageLimit : Type := { limit : ℕ // 1 ≤ limit ∧ limit ≤ 100 }

/-- A page of models. -/
structure ModelList where
  items : List RegisteredModel
  limit : ℕ
  offset : ℕ

/-- A page of versions. -/
structure VersionList where
  items : List VersionRead
  limit : ℕ
  offset : ℕ

variable (collation : Collation)

/-- The statement of `RegistryRepository.list_models`. -/
def Database.listModels (db : Database) (limit offset : ℕ) : List RegisteredModel :=
  Paging.page (fun row => collation.weight row.name) limit offset db.models.rows

/-- The rows of one model. -/
def Database.versionsOf (db : Database) (modelName : String) : List ModelVersion :=
  db.versions.rows.filter fun row => row.modelName = modelName

/-- The statement of `RegistryRepository.list_versions`. -/
def Database.listVersions (db : Database) (modelName : String) (limit offset : ℕ) :
    List ModelVersion :=
  Paging.page (fun row => collation.weight row.version) limit offset (db.versionsOf modelName)

/-- `list_models`, which is one round trip. -/
def listModels (limit : PageLimit) (offset : ℕ) (db : Database) : ModelList :=
  ⟨db.listModels collation limit.1 offset, limit.1, offset⟩

/-- `list_versions`: the first round trip looks for the model, the second reads the page. -/
def listVersions (modelName : ResourceName) (limit : PageLimit) (offset : ℕ)
    (found : Option RegisteredModel) (db : Database) : Except ApiError VersionList :=
  match found with
  | none => .error (modelNotFound modelName.1)
  | some _ =>
    .ok ⟨(db.listVersions collation modelName.1 limit.1 offset).map .ofRow, limit.1, offset⟩

/-! ## Keys of the rows -/

variable {collation}

theorem nodup_models (db : Database) :
    (db.models.rows.map fun row => collation.weight row.name).Nodup := by
  have names := db.models.unique.map collation.injective
  rwa [List.map_map] at names

theorem nodup_versionsOf (db : Database) (modelName : String) :
    ((db.versionsOf modelName).map fun row => collation.weight row.version).Nodup := by
  have rows : (db.versionsOf modelName).Nodup := (List.Nodup.of_map _ db.versions.unique).filter _
  refine (List.nodup_map_iff_inj_on rows).2 fun row mem row' mem' same => ?_
  obtain ⟨there, named⟩ := List.mem_filter.1 mem
  obtain ⟨there', named'⟩ := List.mem_filter.1 mem'
  refine Table.eq_of_key there there' (Prod.ext ?_ (collation.injective same))
  exact (of_decide_eq_true named).trans (of_decide_eq_true named').symm

theorem mem_models_of_grows {db db' : Database} (grows : db.Grows db') {x : collation.Weight}
    (mem : x ∈ db.models.rows.map fun row => collation.weight row.name) :
    x ∈ db'.models.rows.map fun row => collation.weight row.name := by
  obtain ⟨row, there, rfl⟩ := List.mem_map.1 mem
  have found : db.models.find row.name = some row := Table.find_eq_some_iff.2 ⟨there, rfl⟩
  obtain ⟨row', found'⟩ := Option.ne_none_iff_exists'.1 (grows.models row.name (by simp [found]))
  obtain ⟨there', named⟩ := Table.find_eq_some_iff.1 found'
  exact List.mem_map.2 ⟨row', there', by rw [named]⟩

theorem mem_versionsOf_of_grows {db db' : Database} (grows : db.Grows db') {modelName : String}
    {x : collation.Weight}
    (mem : x ∈ (db.versionsOf modelName).map fun row => collation.weight row.version) :
    x ∈ (db'.versionsOf modelName).map fun row => collation.weight row.version := by
  obtain ⟨row, there, rfl⟩ := List.mem_map.1 mem
  obtain ⟨there, named⟩ := List.mem_filter.1 there
  exact List.mem_map_of_mem (List.mem_filter.2 ⟨grows.versions row there, named⟩)

/-! ## Page after page -/

section Runs

variable {lax : Coercions}

/-- A client reads pages one after the other, while requests run.  The model is looked up for the
`k`-th page in the state `lookup k`, and the page is selected in the state `select k`. -/
structure PageReads (lax : Coercions)
    (lookup select : ℕ → Config Stores Request Op Op.Reply (Except Failure Response)) : Prop where
  within : ∀ k, Relation.ReflTransGen (apiHost lax).Step (lookup k) (select k)
  between : ∀ k, Relation.ReflTransGen (apiHost lax).Step (select k) (lookup (k + 1))

theorem steps_grow {c d : Config Stores Request Op Op.Reply (Except Failure Response)}
    (steps : Relation.ReflTransGen (apiHost lax).Step c d) :
    c.shared.registry.Grows d.shared.registry := by
  induction steps with
  | refl => exact .refl _
  | tail _ next ih => exact ih.trans (step_grows next)

variable {lookup select : ℕ → Config Stores Request Op Op.Reply (Except Failure Response)}

theorem PageReads.select_grows (reads : PageReads lax lookup select) (k : ℕ) :
    (select k).shared.registry.Grows (select (k + 1)).shared.registry :=
  (steps_grow (reads.between k)).trans (steps_grow (reads.within (k + 1)))

theorem PageReads.select_zero_grows (reads : PageReads lax lookup select) (k : ℕ) :
    (select 0).shared.registry.Grows (select k).shared.registry := by
  induction k with
  | zero => exact .refl _
  | succ k ih => exact ih.trans (reads.select_grows k)

theorem PageReads.lookup_found (reads : PageReads lax lookup select) {name : String}
    (there : (lookup 0).shared.registry.models.find name ≠ none) (k : ℕ) :
    (lookup k).shared.registry.models.find name ≠ none := by
  induction k with
  | zero => exact there
  | succ k ih =>
    exact ((steps_grow (reads.within k)).trans (steps_grow (reads.between k))).models name ih

/-- Every version of the model that was there at the first page is on a page, as it was registered. -/
theorem PageReads.version_on_page (reads : PageReads lax lookup select) {modelName : String}
    {limit n : ℕ} (short : ((select n).shared.registry.listVersions collation modelName limit
      (n * limit)).length < limit) {row : ModelVersion}
    (mem : row ∈ (select 0).shared.registry.versions.rows) (named : row.modelName = modelName) :
    ∃ k ≤ n, row ∈ (select k).shared.registry.listVersions collation modelName limit (k * limit) := by
  have versions : ∀ k, (((select k).shared.registry.versionsOf modelName).map fun row =>
      collation.weight row.version).Nodup := fun k => nodup_versionsOf _ _
  have grow : ∀ k, ∀ x ∈ ((select k).shared.registry.versionsOf modelName).map _, _ :=
    fun k (x : collation.Weight) => mem_versionsOf_of_grows (reads.select_grows k)
  have start : row ∈ (select 0).shared.registry.versionsOf modelName :=
    List.mem_filter.2 ⟨mem, decide_eq_true named⟩
  obtain ⟨k, le, shown, onPage, same⟩ := Paging.exists_mem_page versions grow short
    (List.mem_map_of_mem start)
  -- The page has a row of the same version; a version of a model has one row, for ever.
  obtain ⟨there, sameModel⟩ := List.mem_filter.1 ((Paging.mem_page_iff (versions k)).1 onPage).1
  obtain rfl : shown = row := by
    refine Table.eq_of_key there ((reads.select_zero_grows k).versions row mem) (Prod.ext ?_ ?_)
    · exact (of_decide_eq_true sameModel).trans named.symm
    · exact collation.injective same
  exact ⟨k, le, onPage⟩

/-- Whatever requests run meanwhile, and in whatever order the database sorts names: page after page
up to a short one, `list_models` shows every model that was registered when the first page was read,
and it shows a model twice only if one before it was registered in between.  `list_versions` answers
404 at the first page or never, and shows every version of its model, as it was registered. -/
theorem listing_complete (collation : Collation) (limit : PageLimit)
    (reads : PageReads lax lookup select) :
    (∀ n, (listModels collation limit (n * limit.1) (select n).shared.registry).items.length <
        limit.1 → ∀ row ∈ (select 0).shared.registry.models.rows, ∃ k ≤ n,
        ∃ shown ∈ (listModels collation limit (k * limit.1) (select k).shared.registry).items,
          shown.name = row.name) ∧
    (∀ j k, j < k →
      ∀ row ∈ (listModels collation limit (j * limit.1) (select j).shared.registry).items,
      ∀ row' ∈ (listModels collation limit (k * limit.1) (select k).shared.registry).items,
      row'.name = row.name → ∃ new ∈ (select k).shared.registry.models.rows,
        collation.weight new.name < collation.weight row.name ∧
        (select j).shared.registry.models.find new.name = none) ∧
    ∀ modelName : ResourceName, (lookup 0).shared.registry.models.find modelName.1 ≠ none →
      ∃ answer : ℕ → VersionList, (∀ k, listVersions collation modelName limit (k * limit.1)
        ((lookup k).shared.registry.models.find modelName.1) (select k).shared.registry =
          .ok (answer k)) ∧
      ∀ n, (answer n).items.length < limit.1 → ∀ row ∈ (select 0).shared.registry.versions.rows,
        row.modelName = modelName.1 → ∃ k ≤ n, .ofRow row ∈ (answer k).items := by
  have models : ∀ k, ((select k).shared.registry.models.rows.map fun row =>
      collation.weight row.name).Nodup := fun k => nodup_models _
  have modelsGrow := fun k (x : collation.Weight) => mem_models_of_grows (x := x) (reads.select_grows k)
  refine ⟨fun n short row there => ?_, fun j k lt row mem row' mem' same => ?_,
    fun modelName there => ?_⟩
  · obtain ⟨k, le, shown, mem, same⟩ := Paging.exists_mem_page models modelsGrow short
      (List.mem_map_of_mem there)
    exact ⟨k, le, shown, mem, collation.injective same⟩
  · obtain ⟨x, new, before, fresh⟩ := Paging.exists_new models lt mem mem' (congrArg _ same)
    obtain ⟨added, there, rfl⟩ := List.mem_map.1 new
    refine ⟨added, there, before, Table.find_eq_none_iff.2 fun old mem named => fresh ?_⟩
    exact List.mem_map.2 ⟨old, mem, congrArg _ named⟩
  · refine ⟨fun k => ⟨((select k).shared.registry.listVersions collation modelName.1 limit.1
      (k * limit.1)).map .ofRow, limit.1, k * limit.1⟩, fun k => ?_, fun n short row mem named => ?_⟩
    · obtain ⟨model, found⟩ := Option.ne_none_iff_exists'.1 (reads.lookup_found there k)
      rw [found]
      rfl
    · rw [List.length_map] at short
      obtain ⟨k, le, onPage⟩ := reads.version_on_page short mem named
      exact ⟨k, le, List.mem_map_of_mem onPage⟩

/-- Texts in the order of their code points. -/
def codePoints : Collation := ⟨String, inferInstance, id, Function.injective_id⟩

/-- A registry with the model `m`. -/
def oneModel : Stores := ⟨(Database.execute 0 (.insertModel "m" none) Database.empty).2, Cluster.empty⟩

/-- The model `a` is registered next. -/
theorem exists_second_model : ∃ c, (apiHost strictCoercions).Reachable oneModel c ∧
    c.shared.registry.models.rows = [⟨"m", none, 0, 0⟩, ⟨"a", none, 0, 0⟩] :=
  ⟨_, Host.Reachable.start.start_run Stores.executes_serve 0
    (.putModel ⟨"a", by decide⟩ ⟨none, by simp⟩) rfl, rfl⟩

theorem listing_complete_moved :
    ∃ lookup select, PageReads strictCoercions lookup select ∧
      (∃ k ≤ 2, ∃ shown ∈ (listModels codePoints ⟨1, by decide⟩ (k * 1)
        (select k).shared.registry).items, shown.name = "m") ∧
      ∃ new ∈ (select 1).shared.registry.models.rows,
        (select 0).shared.registry.models.find new.name = none := by
  obtain ⟨c, registered, rows⟩ := exists_second_model
  have reads : PageReads strictCoercions (fun k => if k = 0 then Host.initial oneModel else c)
      (fun k => if k = 0 then Host.initial oneModel else c) := by
    refine ⟨fun k => .refl, fun k => ?_⟩
    cases k with
    | zero => exact registered
    | succ k => exact .refl
  obtain ⟨complete, moved, -⟩ := listing_complete codePoints ⟨1, by decide⟩ reads
  have m : (⟨"m", none, 0, 0⟩ : RegisteredModel) ∈ oneModel.registry.models.rows :=
    List.mem_singleton_self _
  have third : (c.shared.registry.listModels codePoints 1 2).length < 1 := by
    rw [Database.listModels, Paging.length_page, rows]
    decide
  have onFirst : (⟨"m", none, 0, 0⟩ : RegisteredModel) ∈
      oneModel.registry.listModels codePoints 1 0 :=
    (Paging.mem_page_iff (nodup_models _)).2 ⟨m, by decide, by decide⟩
  have onSecond : (⟨"m", none, 0, 0⟩ : RegisteredModel) ∈
      c.shared.registry.listModels codePoints 1 1 := by
    refine (Paging.mem_page_iff (nodup_models _)).2 ?_
    rw [rows]
    exact ⟨List.mem_cons_self, by decide, by decide⟩
  obtain ⟨new, there, -, fresh⟩ := moved 0 1 (by decide) _ onFirst _ onSecond rfl
  exact ⟨_, _, reads, complete 2 third _ m, new, there, fresh⟩

end Runs

end Kernexys.Api
