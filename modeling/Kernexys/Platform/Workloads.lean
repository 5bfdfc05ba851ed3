import Kernexys.Controller.Handover
import Kernexys.Controller.Ownership
import Kernexys.Inference.Endpoint
import Kernexys.Lib.Coupling

/-!
# The control API and the controllers on one cluster

Requests to the API and reconciles run at the same time.  The API sees a ModelDeployment as the document
that it applies, the controller as the object that it decodes; what one of them writes the other finds
changed.  A reconcile may work on any earlier version, and a response may show one, yet whatever is
deployed and whatever is answered is a registered version with its registered image
(`workloads_registered`).
-/

namespace Kernexys.Platform

open Controller (ModelDeployment ModelDeploymentSpec ModelDeploymentStatus NamespacedName Quantity
  Evolves controllerHost decodeSpec)
open Api (Stores apiHost Coercions Timestamps Stored ModelVersion Database)
open Inference (Shows)

/-! ## Two views of a resource -/

section Views

variable {lax : Coercions} (parseQuantity : String → Option Quantity) (times : Timestamps lax)

/-- The document has the spec and the status of the object. -/
structure SameResource (stored : Stored) (md : ModelDeployment) : Prop where
  spec : ∃ spec, stored.live.field ["spec"] = some spec ∧
    decodeSpec parseQuantity spec = some md.spec
  status : Shows times md.status stored.live

/-- Both views have the same ModelDeployments. -/
def SameResources (s : Stores) (c : Controller.Cluster) : Prop :=
  ∀ ns name, Option.Rel (SameResource parseQuantity times) (s.cluster.object (ns, name))
    (c.object .modelDeployment ⟨name, ns⟩)

/-- How the cluster changes around the controllers: children change in any way, and ModelDeployments
are written and deleted. -/
inductive Changes (c : Controller.Cluster) : Controller.Cluster → Prop where
  | evolves {c'} (evolves : Evolves c c') : Changes c c'
  | delete (key : NamespacedName) : Changes c (c.delete .modelDeployment key)

theorem Changes.grows {c c' : Controller.Cluster} (changes : Changes c c') : c.Grows c' := by
  cases changes with
  | evolves evolves => exact evolves.grows
  | delete key => exact fun _ _ _ => id

/-- The states of requests to the API and of reconciles. -/
abbrev State : Type :=
  Config Stores Api.Request Api.Op Api.Op.Reply (Except Api.Failure Api.Response) ×
    Config Controller.Cluster Controller.Job Controller.Op Controller.Op.Reply (Option String)

/-- What a run of requests and reconciles reaches from an empty registry and cluster. -/
abbrev Reachable : State → Prop :=
  Coupled.Reachable (apiHost lax) (controllerHost Changes) (SameResources parseQuantity times)
    Stores.empty Controller.Cluster.empty

theorem sameResources_empty :
    SameResources parseQuantity times Stores.empty Controller.Cluster.empty :=
  fun _ _ => .none

end Views

/-! ## Registered versions -/

/-- The spec asks for the version of this row, with its image. -/
structure AsksFor (row : ModelVersion) (spec : ModelDeploymentSpec) : Prop where
  model : spec.model = ⟨row.modelName, row.version⟩
  image : spec.runtime.image = row.runtimeImage

/-- Some registered version has these names. -/
def Known (db : Database) (model version : String) : Prop :=
  ∃ row ∈ db.versions.rows, row.modelName = model ∧ row.version = version

/-- The object asks for a registered version, and what it calls active is one. -/
structure Sound (db : Database) (md : ModelDeployment) : Prop where
  spec : ∃ row ∈ db.versions.rows, AsksFor row md.spec
  active : md.status.activeVersion ≠ "" → Known db md.status.activeModel md.status.activeVersion

theorem Known.mono {db db' : Database} (grows : db.Grows db') {model version : String}
    (known : Known db model version) : Known db' model version := by
  obtain ⟨row, mem, named⟩ := known
  exact ⟨row, grows.versions row mem, named⟩

theorem Sound.mono {db db' : Database} (grows : db.Grows db') {md : ModelDeployment}
    (sound : Sound db md) : Sound db' md := by
  obtain ⟨row, mem, asks⟩ := sound.spec
  exact ⟨⟨row, grows.versions row mem, asks⟩, fun set => (sound.active set).mono grows⟩

/-- A resource that was applied for a registered version shows its names and its image. -/
theorem exists_row {db : Database} {key : String × String} {stored : Stored}
    (registered : Api.Registered db key stored) : ∃ row ∈ db.versions.rows,
      stored.live.field Api.modelNamePath = some (.str row.modelName) ∧
      stored.live.field Api.modelVersionPath = some (.str row.version) ∧
      stored.live.field Api.imagePath = some (.str row.runtimeImage) := by
  obtain ⟨desired, row, resourceVersion, found, managed, tracks⟩ := registered
  obtain ⟨mem, rowKey⟩ := Table.find_eq_some_iff.1 found
  obtain ⟨sameModel, sameVersion⟩ := Prod.mk.inj rowKey
  refine ⟨row, mem, ?_, ?_, ?_⟩
  · refine Json.field_eq_str_of_agree (tracks.agree fun _ => rfl) ?_
    rw [managed, Api.desiredResource_modelName, sameModel]
  · refine Json.field_eq_str_of_agree (tracks.agree fun _ => rfl) ?_
    rw [managed, Api.desiredResource_modelVersion, sameVersion]
  · refine Json.field_eq_str_of_agree (tracks.agree fun _ => rfl) ?_
    rw [managed, Api.desiredResource_image]

/-- What is decoded from a text below an object is that text. -/
theorem decodeString_field {spec : Json} {outer key text : String} {fields inner : Dict}
    (found : spec.field [outer, key] = some (.str text))
    (struct : Controller.decodeStruct (some spec) = some fields)
    (nested : Controller.decodeStruct (fields.lookup outer) = some inner) :
    Controller.decodeString (inner.lookup key) = some text := by
  obtain ⟨fields', value, rfl, foundOuter, below⟩ := Json.field_cons_eq_some_iff.1 found
  obtain rfl : fields' = fields := Option.some.inj struct
  obtain ⟨inner', value', rfl, foundInner, last⟩ := Json.field_cons_eq_some_iff.1 below
  rw [foundOuter] at nested
  obtain rfl : inner' = inner := Option.some.inj nested
  rw [foundInner]
  cases last
  rfl

/-- The controller decodes the names and the image that a document shows. -/
theorem asksFor_of_decoded {parseQuantity : String → Option Quantity} {row : ModelVersion}
    {live spec : Json} {decoded : ModelDeploymentSpec} (found : live.field ["spec"] = some spec)
    (read : decodeSpec parseQuantity spec = some decoded)
    (model : live.field Api.modelNamePath = some (.str row.modelName))
    (version : live.field Api.modelVersionPath = some (.str row.version))
    (image : live.field Api.imagePath = some (.str row.runtimeImage)) : AsksFor row decoded := by
  have below (path : List String) : live.field ("spec" :: path) = spec.field path := by
    rw [← List.singleton_append, Json.field_append, found]
    rfl
  rw [Api.modelNamePath, below] at model
  rw [Api.modelVersionPath, below] at version
  rw [Api.imagePath, below] at image
  simp only [decodeSpec, Option.bind_eq_bind, Option.bind_eq_some_iff] at read
  obtain ⟨fields, struct, modelFields, modelStruct, name, readName, version', readVersion, runtime,
    runtimeStruct, image', readImage, port, -, replicas, -, resources, -, limits, -, requests, -,
    rest⟩ := read
  obtain rfl := Option.some.inj rest
  rw [decodeString_field model struct modelStruct] at readName
  rw [decodeString_field version struct modelStruct] at readVersion
  rw [decodeString_field image struct runtimeStruct] at readImage
  obtain rfl := Option.some.inj readName
  obtain rfl := Option.some.inj readVersion
  exact ⟨rfl, (Option.some.inj readImage).symm⟩

/-! ## Versions of a ModelDeployment -/

/-- A status calls active what an earlier version called active or asked for. -/
def ActiveFrom (c : Controller.Cluster) (key : NamespacedName) (status : ModelDeploymentStatus) : Prop :=
  status.activeVersion = "" ∨ ∃ old ∈ c.history .modelDeployment key,
    (status.activeModel = old.status.activeModel ∧ status.activeVersion = old.status.activeVersion) ∨
    (status.activeModel = old.spec.model.name ∧ status.activeVersion = old.spec.model.version)

/-- Where a version comes from: it was there, or it is the stored one and its status comes from an
earlier one. -/
def From (c c' : Controller.Cluster) (key : NamespacedName) (md : ModelDeployment) : Prop :=
  md ∈ c.history .modelDeployment key ∨
    (c'.object .modelDeployment key = some md ∧ ActiveFrom c key md.status)

theorem from_put {c : Controller.Cluster} {o : ModelDeployment} {key : NamespacedName}
    {md : ModelDeployment} (active : ActiveFrom c o.metadata.key o.status)
    (mem : md ∈ (c.put .modelDeployment o).history .modelDeployment key) :
    From c (c.put .modelDeployment o) key md := by
  by_cases same : key = o.metadata.key
  · subst same
    rw [Controller.Cluster.put_history_self c .modelDeployment o] at mem
    rcases List.mem_cons.1 mem with rfl | mem
    · exact Or.inr ⟨c.put_object_self .modelDeployment o, active⟩
    · exact Or.inl mem
  · rw [c.put_history_ne (k := .modelDeployment) o fun _ => same] at mem
    exact Or.inl mem

theorem from_child {c : Controller.Cluster} {k : Controller.Kind} (o : k.Object)
    (child : k ≠ .modelDeployment) {key : NamespacedName} {md : ModelDeployment}
    (mem : md ∈ (c.put k o).history .modelDeployment key) : From c (c.put k o) key md := by
  rw [c.put_history_ne o fun eq => absurd eq.symm child] at mem
  exact Or.inl mem

theorem Changes.from {c c' : Controller.Cluster} (changes : Changes c c') {key : NamespacedName}
    {md : ModelDeployment} (mem : md ∈ c'.history .modelDeployment key) : From c c' key md := by
  cases changes with
  | delete key => exact Or.inl mem
  | evolves evolves =>
    cases evolves with
    | child o child => exact from_child o child mem
    | delete key child => exact Or.inl mem
    | create new absent generation unwritten =>
      refine from_put (Or.inl ?_) mem
      rw [unwritten]
    | update before new stored generation kept =>
      refine from_put (Or.inr ⟨before, c.stored _ _ _ stored, Or.inl ?_⟩) mem
      rw [kept]
      exact ⟨rfl, rfl⟩

/-- What a reconcile writes calls active what it read as active or as desired. -/
theorem active_of_body {order : Controller.MapOrder} {md : ModelDeployment}
    {body : List Controller.Event} {desired : (String → ℤ) → ModelDeploymentStatus}
    {error : Option String} (ends : Controller.Body order md body desired error) (now : String → ℤ) :
    ((desired now).activeModel = md.status.activeModel ∧
        (desired now).activeVersion = md.status.activeVersion) ∨
      ((desired now).activeModel = md.spec.model.name ∧
        (desired now).activeVersion = md.spec.model.version) := by
  cases ends with
  | invalid | deploymentFailed | serviceFailed => exact Or.inl ⟨rfl, rfl⟩
  | @observed step d step' s =>
    rw [Controller.observedStatus_eq]
    by_cases available : Controller.rolledOut d (Controller.desiredReplicaCount md) = true
    · exact Or.inr ⟨if_pos available, if_pos available⟩
    · exact Or.inl ⟨if_neg available, if_neg available⟩

section Runs

variable {c₀ : Controller.Cluster}
  {c d : Config Controller.Cluster Controller.Job Controller.Op Controller.Op.Reply (Option String)}

/-- Where a version comes from when a reconcile makes a step. -/
theorem from_step (reach : (controllerHost Changes).Reachable c₀ c)
    (next : (controllerHost Changes).Step c d) {key : NamespacedName} {md : ModelDeployment}
    (mem : md ∈ d.shared.history .modelDeployment key) : From c.shared d.shared key md := by
  have verified := Controller.verified_of_reachable (fun _ _ => Changes.grows) reach
  have childWrite : ∀ {k : Controller.Kind} {accepted : Option k.Object}
      {r : Except Controller.ApiError k.Object} {t : Controller.Cluster}, k ≠ .modelDeployment →
      c.shared.Writes k accepted r t → md ∈ t.history .modelDeployment key →
      From c.shared t key md := by
    rintro k accepted r t child (⟨rfl, -⟩ | ⟨v, -, rfl, -⟩) mem
    · exact Or.inl mem
    · exact from_child v child mem
  cases next with
  | interfere changed => exact changed.from mem
  | start => exact Or.inl mem
  | @call i job log op next r t running executed =>
    have stage : Controller.Stage job.order job.request log op := (verified.follows running).rest.1
    have executed : c.shared.Executes op r t := executed
    cases op with
    | get k key =>
      obtain rfl := executed.1
      exact Or.inl mem
    | create k o =>
      refine childWrite ?_ executed mem
      rintro rfl
      cases (stage.modelDeployment_inv rfl).2
    | update k o =>
      refine childWrite ?_ executed mem
      rintro rfl
      cases (stage.modelDeployment_inv rfl).2
    | now =>
      obtain rfl : t = c.shared := executed
      exact Or.inl mem
    | updateStatus m =>
      rcases executed with ⟨rfl, -⟩ | ⟨v, accepted, rfl, -⟩
      · exact Or.inl mem
      · obtain ⟨md', body, desired, error, now, rfl, rfl, ends⟩ := stage.status_inv
        obtain ⟨before, stored, -, rfl⟩ := Controller.Cluster.acceptStatus_eq_some accepted
        have read := (verified.known running _ List.mem_cons_self).get .modelDeployment job.request
          md' rfl
        have named : md'.metadata.key = job.request := c.shared.keyed _ _ md' read
        have named' : before.metadata.key = md'.metadata.key :=
          c.shared.keyed _ _ before (c.shared.stored _ _ _ stored)
        refine from_put (Or.inr ⟨md', ?_, active_of_body ends now⟩) mem
        show md' ∈ c.shared.history .modelDeployment before.metadata.key
        rw [named', named]
        exact read

end Runs

/-! ## What is stored -/

section Stored

variable {lax : Coercions} {parseQuantity : String → Option Quantity} {times : Timestamps lax}
  {p q : State}

/-- A version of a ModelDeployment is sound: an earlier one stays so, and the stored one is the
document that was applied for a registered version. -/
theorem sound_of_from {db : Database} {s : Stores} {c c' : Controller.Cluster} {key : NamespacedName}
    {md : ModelDeployment} (grows : db.Grows s.registry)
    (before : ∀ old ∈ c.history .modelDeployment key, Sound db old) (agree : Api.Agreement s)
    (related : SameResources parseQuantity times s c') (origin : From c c' key md) :
    Sound s.registry md := by
  rcases origin with old | ⟨found, active⟩
  · exact (before md old).mono grows
  · refine ⟨?_, fun set => ?_⟩
    · have same := related key.ns key.name
      rw [found] at same
      cases stored : s.cluster.object (key.ns, key.name) with
      | none =>
        rw [stored] at same
        cases same
      | some document =>
        rw [stored] at same
        cases same with
        | some same =>
          obtain ⟨spec, located, decoded⟩ := same.spec
          obtain ⟨row, mem, model, version, image⟩ :=
            exists_row (agree.resources _ document stored)
          exact ⟨row, mem, asksFor_of_decoded located decoded model version image⟩
    · rcases active with none | ⟨old, mem, ⟨model, version⟩ | ⟨model, version⟩⟩
      · exact absurd none set
      · rw [version] at set
        rw [model, version]
        exact ((before old mem).active set).mono grows
      · obtain ⟨row, there, asks⟩ := (before old mem).spec
        rw [model, version, asks.model]
        exact ⟨row, grows.versions row there, rfl, rfl⟩

theorem sound_of_reachable (reach : Reachable parseQuantity times p) (key : NamespacedName) :
    ∀ md ∈ p.2.shared.history .modelDeployment key, Sound p.1.shared.registry md := by
  refine reach.invariant (I := fun p => ∀ md ∈ p.2.shared.history .modelDeployment key,
    Sound p.1.shared.registry md) (by rintro md ⟨⟩) ?_
  intro p q reach before next md mem
  have agree : Api.Agreement q.1.shared := (Api.deployments_verified (reach.step next).first).shared
  cases next with
  | @left c c' d t next echo related =>
    have origin : From d.shared t key md := by
      cases echo with
      | refl => exact Or.inl mem
      | single changes => exact changes.from mem
    exact sound_of_from (Api.step_grows next) before agree related origin
  | @right c d d' s next echo related =>
    have kept : c.shared.registry = s.registry := by
      cases echo with
      | refl => rfl
      | single reports =>
        obtain ⟨cluster, -, rfl⟩ := reports
        rfl
    have grows : c.shared.registry.Grows s.registry := kept ▸ Database.Grows.refl _
    exact sound_of_from grows before agree related (from_step reach.second next mem)

/-! ## What is answered -/

/-- The response is about a registered version with its image, and what it calls active is one. -/
structure ShowsRegistered (db : Database) (read : Api.DeploymentRead) : Prop where
  spec : ∃ row ∈ db.versions.rows, read.spec.model = row.modelName ∧
    read.spec.version = row.version ∧ read.spec.runtimeImage = row.runtimeImage
  active : read.status.activeVersion ≠ "" →
    Known db read.status.activeModel read.status.activeVersion

theorem ShowsRegistered.mono {db db' : Database} (grows : db.Grows db') {read : Api.DeploymentRead}
    (shows : ShowsRegistered db read) : ShowsRegistered db' read := by
  obtain ⟨row, mem, named⟩ := shows.spec
  exact ⟨⟨row, grows.versions row mem, named⟩, fun set => (shows.active set).mono grows⟩

/-- Where the fields of a response come from. -/
theorem readResource_eq_some {resource : Json} {read : Api.DeploymentRead}
    (answer : Api.readResource lax resource = some read) :
    resource.field Api.modelNamePath = some (.str read.spec.model) ∧
      resource.field Api.modelVersionPath = some (.str read.spec.version) ∧
      resource.field Api.imagePath = some (.str read.spec.runtimeImage) ∧
      Api.DeploymentStatus.validate lax ((resource.field ["status"]).getD (.obj [])) =
        some read.status := by
  have dict {value : Json} {fields : Dict} (read : value.dict = some fields) : value = .obj fields := by
    cases value with
    | obj fields => exact congrArg Json.obj (Option.some.inj read)
    | _ => cases read
  have text {value : Json} {content : String} (read : value.text = some content) :
      value = .str content := by
    cases value with
    | str content => exact congrArg Json.str (Option.some.inj read)
    | _ => cases read
  obtain ⟨fields, readFields, answer⟩ := Option.bind_eq_some_iff.1 answer
  obtain ⟨_, -, answer⟩ := Option.bind_eq_some_iff.1 answer
  obtain ⟨metadata, -, answer⟩ := Option.bind_eq_some_iff.1 answer
  obtain ⟨_, foundSpec, answer⟩ := Option.bind_eq_some_iff.1 answer
  obtain ⟨spec, readSpec, answer⟩ := Option.bind_eq_some_iff.1 answer
  obtain ⟨_, foundModel, answer⟩ := Option.bind_eq_some_iff.1 answer
  obtain ⟨model, readModel, answer⟩ := Option.bind_eq_some_iff.1 answer
  obtain ⟨_, foundRuntime, answer⟩ := Option.bind_eq_some_iff.1 answer
  obtain ⟨runtime, readRuntime, answer⟩ := Option.bind_eq_some_iff.1 answer
  obtain ⟨status, validated, answer⟩ := Option.bind_eq_some_iff.1 answer
  -- the fields of the metadata are read before the names
  obtain ⟨_, -, answer⟩ := Option.bind_eq_some_iff.1 answer
  obtain ⟨_, -, answer⟩ := Option.bind_eq_some_iff.1 answer
  obtain ⟨_, -, answer⟩ := Option.bind_eq_some_iff.1 answer
  obtain ⟨_, -, answer⟩ := Option.bind_eq_some_iff.1 answer
  obtain ⟨_, -, answer⟩ := Option.bind_eq_some_iff.1 answer
  obtain ⟨_, -, answer⟩ := Option.bind_eq_some_iff.1 answer
  obtain ⟨_, -, answer⟩ := Option.bind_eq_some_iff.1 answer
  obtain ⟨_, foundName, answer⟩ := Option.bind_eq_some_iff.1 answer
  obtain ⟨name, readName, answer⟩ := Option.bind_eq_some_iff.1 answer
  obtain ⟨_, foundVersion, answer⟩ := Option.bind_eq_some_iff.1 answer
  obtain ⟨version, readVersion, answer⟩ := Option.bind_eq_some_iff.1 answer
  obtain ⟨_, foundImage, answer⟩ := Option.bind_eq_some_iff.1 answer
  obtain ⟨image, readImage, answer⟩ := Option.bind_eq_some_iff.1 answer
  obtain ⟨_, -, answer⟩ := Option.bind_eq_some_iff.1 answer
  obtain ⟨_, -, answer⟩ := Option.bind_eq_some_iff.1 answer
  obtain ⟨_, -, answer⟩ := Option.bind_eq_some_iff.1 answer
  obtain rfl := Option.some.inj answer
  rw [dict readSpec] at foundSpec
  rw [dict readModel] at foundModel
  rw [dict readRuntime] at foundRuntime
  rw [text readName] at foundName
  rw [text readVersion] at foundVersion
  rw [text readImage] at foundImage
  rw [dict readFields, Api.modelNamePath, Api.modelVersionPath, Api.imagePath]
  refine ⟨?_, ?_, ?_, ?_⟩
  · rw [Json.field_of_lookup foundSpec, Json.field_of_lookup foundModel, Json.field_singleton, foundName]
  · rw [Json.field_of_lookup foundSpec, Json.field_of_lookup foundModel, Json.field_singleton,
      foundVersion]
  · rw [Json.field_of_lookup foundSpec, Json.field_of_lookup foundRuntime, Json.field_singleton,
      foundImage]
  · rw [Json.field_singleton]
    exact validated

/-- What the API shows of a status. -/
theorem validate_of_shows {status : ModelDeploymentStatus} {resource : Json}
    (shows : Shows times status resource) :
    Api.DeploymentStatus.validate lax ((resource.field ["status"]).getD (.obj [])) =
      some (Api.statusRead status) := by
  cases shows with
  | unwritten none empty =>
    rw [Json.field_singleton, none, empty]
    rfl
  | written found =>
    rw [Json.field_singleton, found]
    exact Api.DeploymentStatus.validate_encodeStatus times status

/-- A response that is made of a stored document shows a registered version. -/
theorem showsRegistered_of_stored (reach : Reachable parseQuantity times p) {key : String × String}
    {stored : Stored} (found : p.1.shared.cluster.object key = some stored)
    {read : Api.DeploymentRead} (answer : Api.readResource lax stored.live = some read) :
    ShowsRegistered p.1.shared.registry read := by
  have agree : Api.Agreement p.1.shared := (Api.deployments_verified reach.first).shared
  obtain ⟨row, mem, model, version, image⟩ := exists_row (agree.resources key stored found)
  obtain ⟨readModel, readVersion, readImage, validated⟩ := readResource_eq_some answer
  have read_eq {path : List String} {a b : String}
      (left : stored.live.field path = some (.str a)) (right : stored.live.field path = some (.str b)) :
      a = b := Json.str.inj (Option.some.inj (left.symm.trans right))
  refine ⟨⟨row, mem, read_eq readModel model, read_eq readVersion version, read_eq readImage image⟩,
    fun set => ?_⟩
  have same := reach.related (sameResources_empty parseQuantity times) key.1 key.2
  rw [found] at same
  cases object : p.2.shared.object .modelDeployment ⟨key.2, key.1⟩ with
  | none =>
    rw [object] at same
    cases same
  | some md =>
    rw [object] at same
    cases same with
    | some same =>
      rw [validate_of_shows same.status] at validated
      rw [← Option.some.inj validated] at set ⊢
      exact (sound_of_reachable reach _ md (p.2.shared.stored _ _ md object)).active set

/-- The document that a call returned. -/
def documentOf : Api.Event → Option Json
  | ⟨.kubernetes (.get _ _), .ok live⟩ => some live
  | ⟨.kubernetes (.patch _ _ _), .ok (some live)⟩ => some live
  | _ => none

/-- A response that is made of the document shows a registered version. -/
def ReadsRegistered (lax : Coercions) (db : Database) (event : Api.Event) : Prop :=
  ∀ live read, documentOf event = some live → Api.readResource lax live = some read →
    ShowsRegistered db read

/-- A call returns a document that is stored before it, or after it. -/
theorem document_stored {s t : Stores} {op : Api.Op} {r : op.Reply} (executes : s.Executes op r t)
    {live : Json} (returned : documentOf ⟨op, r⟩ = some live) : ∃ key stored, stored.live = live ∧
      (s.cluster.object key = some stored ∨ t.cluster.object key = some stored) := by
  cases op with
  | query query => cases returned
  | kubernetes call =>
    obtain ⟨cluster, executes, rfl⟩ := executes
    cases call with
    | delete ns name => cases returned
    | get ns name =>
      obtain ⟨-, ⟨e, rfl⟩ | ⟨stored, found, rfl⟩⟩ := executes
      · cases returned
      · cases returned
        exact ⟨(ns, name), stored, rfl, Or.inl found⟩
    | patch ns name body =>
      rcases executes with ⟨-, e, rfl⟩ | ⟨-, stored, -, rfl, ⟨e, rfl⟩ | rfl | ⟨-, rfl⟩⟩
      · cases returned
      · cases returned
      · cases returned
        exact ⟨(ns, name), stored, rfl, Or.inr (Api.Cluster.object_put_self ..)⟩
      · cases returned

theorem readsRegistered_of_reachable (reach : Reachable parseQuantity times p) :
    ∀ i th, p.1.thread i = some th → ∀ event ∈ th.log,
      ReadsRegistered lax p.1.shared.registry event := by
  refine reach.invariant (I := fun p => ∀ i th, p.1.thread i = some th → ∀ event ∈ th.log,
    ReadsRegistered lax p.1.shared.registry event) (by rintro i th ⟨⟩) ?_
  intro p q reach before next i th running event mem live read returned answer
  have reach' := reach.step next
  cases next with
  | @left c c' d t next echo related =>
    have grows := Api.step_grows next
    rcases next.event_cases running mem with ⟨th', earlier, logged⟩ | ⟨executed, -⟩
    · exact (before i th' earlier event logged live read returned answer).mono grows
    · obtain ⟨key, stored, rfl, found | found⟩ := document_stored executed returned
      · exact (showsRegistered_of_stored reach found answer).mono grows
      · exact showsRegistered_of_stored reach' found answer
  | @right c d d' s next echo related =>
    have logged := before i th running event mem live read returned answer
    cases echo with
    | refl => exact logged
    | single reports =>
      obtain ⟨cluster, -, rfl⟩ := reports
      exact logged

/-- A response about a deployment is made of a document that a call returned. -/
def MadeOf (lax : Coercions) (log : List Api.Event) (result : Except Api.Failure Api.Response) : Prop :=
  ∀ read, result = .ok (.deployment read) → ∃ event ∈ log, ∃ live,
    documentOf event = some live ∧ Api.readResource lax live = some read

theorem madeOf_answer {ns name : String} {log : List Api.Event}
    {observed : Except Api.DeploymentGatewayError Json}
    (returned : ∀ live, observed = .ok live → ∃ event ∈ log, documentOf event = some live) :
    MadeOf lax log (Api.answerDeployment lax ns name observed) := by
  intro read answered
  cases observed with
  | error e => cases answered
  | ok live =>
    obtain ⟨event, mem, document⟩ := returned live rfl
    refine ⟨event, mem, live, document, ?_⟩
    simp only [Api.answerDeployment, Api.resourceToRead] at answered
    cases found : Api.readResource lax live with
    | none =>
      rw [found] at answered
      cases answered
    | some value =>
      rw [found] at answered
      cases answered
      rfl

/-- `Gateway.apply` returns a document that it was given. -/
theorem calls_applied {A : List Api.Event → (op : Api.Op) → op.Reply → Prop} {ns name : String}
    {body : Json} {log : List Api.Event} :
    (Api.Gateway.apply ns name body).Calls A (fun _ _ => True)
      (fun log observed => ∀ live, observed = .ok live →
        ∃ event ∈ log, documentOf event = some live) log := by
  refine Program.calls_call trivial fun r _ => ?_
  cases r with
  | error e => exact Program.calls_ret (by rintro live ⟨⟩)
  | ok value =>
    cases value with
    | none =>
      refine Program.calls_call trivial fun r _ => Program.calls_ret ?_
      rintro live rfl
      exact ⟨_, List.mem_append_right _ (List.mem_singleton_self _), rfl⟩
    | some value =>
      refine Program.calls_ret ?_
      rintro live ⟨⟩
      exact ⟨_, List.mem_append_right _ (List.mem_singleton_self _), rfl⟩

theorem calls_madeOf (request : Api.Request) :
    (Api.handle lax request).Calls Program.anyReply (fun _ _ => True) (MadeOf lax) [] := by
  have refused {log : List Api.Event} {failure : Api.Failure} : MadeOf lax log (.error failure) := by
    rintro read ⟨⟩
  cases request with
  | putModel modelName body =>
    refine Program.Calls.bind (Program.calls_trivial _ _) fun log r _ => ?_
    cases r with
    | error e => exact Program.calls_ret refused
    | ok result => exact Program.calls_ret (by rintro read ⟨⟩)
  | putVersion modelName version body =>
    unfold Api.handle Api.putVersion Api.Session.getModel
    dsimp only
    rw [Program.perform_bind]
    refine Program.calls_call trivial fun r _ => ?_
    cases r with
    | none => exact Program.calls_ret refused
    | some model =>
      refine Program.Calls.bind (Program.calls_trivial _ _) fun log r _ => ?_
      cases r with
      | error e => exact Program.calls_ret refused
      | ok result =>
        refine Program.calls_ret ?_
        intro read answered
        simp only [Api.answerVersion] at answered
        split at answered <;> cases answered
  | putDeployment ns name body =>
    unfold Api.handle Api.putDeployment Api.Session.getVersion
    dsimp only
    rw [Program.perform_bind]
    refine Program.calls_call trivial fun r _ => ?_
    cases r with
    | none => exact Program.calls_ret refused
    | some row => exact Program.Calls.bind calls_applied fun _ _ returned => madeOf_answer returned
  | getDeployment ns name =>
    refine Program.calls_call trivial fun r _ => Program.calls_ret (madeOf_answer ?_)
    rintro live rfl
    exact ⟨_, List.mem_singleton_self _, rfl⟩
  | deleteDeployment ns name =>
    refine Program.calls_call trivial fun r _ => ?_
    cases r with
    | ok _ => exact Program.calls_ret (by rintro read ⟨⟩)
    | error e =>
      dsimp only
      split_ifs
      · exact Program.calls_ret (by rintro read ⟨⟩)
      · exact Program.calls_ret refused
  | rollbackDeployment ns name body =>
    unfold Api.handle Api.rollbackDeployment Api.Gateway.get Api.Session.getVersion
    dsimp only
    rw [Program.perform_bind]
    refine Program.calls_call trivial fun r _ => ?_
    cases r with
    | error e => exact Program.calls_ret refused
    | ok current =>
      dsimp only
      cases Api.currentModel current with
      | error e => exact Program.calls_ret refused
      | ok found =>
        obtain ⟨spec, model⟩ := found
        dsimp only
        rw [Program.perform_bind]
        refine Program.calls_call trivial fun r _ => ?_
        cases r with
        | none => exact Program.calls_ret refused
        | some row =>
          dsimp only
          cases Api.rollbackResource lax ns.1 name.1 current spec model body.version.1 row with
          | error e => exact Program.calls_ret refused
          | ok resource =>
            exact Program.Calls.bind calls_applied fun _ _ returned => madeOf_answer returned

/-- A response about a deployment is made of a document in the log. -/
theorem madeOf_of_reachable (reach : Reachable parseQuantity times p) {i : ℕ} {request : Api.Request}
    {log : List Api.Event} {result : Except Api.Failure Api.Response}
    (ended : p.1.thread i = some ⟨request, log, .ret result⟩) : MadeOf lax log result :=
  (reach.first.verified (C := fun _ _ _ => True) (Q := fun _ => MadeOf lax) (I := fun _ => True)
    (K := fun _ _ => True) (@calls_madeOf lax) trivial
    (fun _ _ _ _ => ⟨trivial, fun _ _ => trivial⟩)
    (fun _ _ _ _ _ _ _ _ _ _ => ⟨trivial, trivial, trivial, fun _ _ => trivial⟩)).follows ended
    |>.rest

end Stored

/-! ## What is deployed -/

/-- The Deployment runs the registered image, and tells it the names of the version. -/
structure Deploys (row : ModelVersion) (deployment : Controller.Deployment) : Prop where
  container : ∃ container, deployment.spec.template.spec.containers = [container] ∧
    container.image = row.runtimeImage ∧
    ({ name := "KERNEXYS_MODEL_NAME", value := row.modelName } : Controller.EnvVar) ∈ container.env ∧
    ({ name := "KERNEXYS_MODEL_VERSION", value := row.version } : Controller.EnvVar) ∈ container.env

/-- The reconcile has made this call, or it is about to. -/
def Makes (th : Thread Controller.Job Controller.Op Controller.Op.Reply (Option String))
    (op : Controller.Op) : Prop :=
  (∃ r, ⟨op, r⟩ ∈ th.log) ∨ ∃ next, th.rest = .call op next

theorem deploys_of_mutated {row : ModelVersion} {md : ModelDeployment} (asks : AsksFor row md.spec)
    {key : NamespacedName} {existing o : Controller.Deployment}
    (mutated : Controller.mutate (k := .deployment) (Controller.mutateOwned .deployment md
      (Controller.mutateDeployment md)) key existing = .ok o) : Deploys row o := by
  obtain ⟨-, -, owners, rfl⟩ := Controller.mutate_owned_inv mutated
  refine ⟨Controller.runtimeContainer md, rfl, asks.image, ?_, ?_⟩
  · simp [Controller.runtimeContainer, asks.model]
  · simp [Controller.runtimeContainer, asks.model]

/-- A Deployment that a reconcile writes is for the version that it read. -/
theorem deploys_of_call {row : ModelVersion} {md : ModelDeployment} (asks : AsksFor row md.spec)
    {step : List Controller.Event} {op : Controller.Op} (call : Controller.DeploymentCall md step op)
    {o : Controller.Deployment} (write : op = .create .deployment o ∨ op = .update .deployment o) :
    Deploys row o := by
  cases call with
  | get => simp at write
  | create missing mutated =>
    rcases write with same | other
    · cases same
      exact deploys_of_mutated asks mutated
    · cases other
  | update mutated changed =>
    rcases write with other | same
    · cases other
    · cases same
      exact deploys_of_mutated asks mutated

/-- For any interleaving of requests to the API, of reconciles that may read any version ever stored,
and of other changes to the children: every Deployment that a reconcile writes runs the registered image
of a registered version, and every response about a deployment shows a registered version and calls
active only a registered one. -/
theorem workloads_registered {lax : Coercions} (parseQuantity : String → Option Quantity)
    (times : Timestamps lax) (p : State) (reach : Reachable parseQuantity times p) :
    (∀ i th op deployment, p.2.thread i = some th → Makes th op →
      (op = .create .deployment deployment ∨ op = .update .deployment deployment) →
      ∃ row ∈ p.1.shared.registry.versions.rows, Deploys row deployment) ∧
    ∀ i request log read, p.1.thread i = some ⟨request, log, .ret (.ok (.deployment read))⟩ →
      ShowsRegistered p.1.shared.registry read := by
  constructor
  · intro i th op deployment running makes write
    have verified :=
      Controller.verified_of_reachable (fun _ _ => Changes.grows) reach.second
    obtain ⟨log, part, stage⟩ : ∃ log, (∀ event ∈ log, event ∈ th.log) ∧
        Controller.Stage th.job.order th.job.request log op := by
      rcases makes with ⟨r, mem⟩ | ⟨next, at_call⟩
      · obtain ⟨pre, post, split⟩ := List.append_of_mem mem
        refine ⟨pre, fun event logged => ?_, (verified.follows running).made pre op r post split⟩
        rw [split]
        exact List.mem_append_left _ logged
      · have rest := (verified.follows running).rest
        rw [at_call] at rest
        exact ⟨th.log, fun _ => id, rest.1⟩
    have on : op.on = some .deployment := by
      rcases write with rfl | rfl <;> rfl
    obtain ⟨md, step, rfl, call⟩ := stage.deployment_inv on
    have read := (verified.known running _ (part _ List.mem_cons_self)).get .modelDeployment
      th.job.request md rfl
    obtain ⟨row, registered, asks⟩ := (sound_of_reachable reach _ md read).spec
    exact ⟨row, registered, deploys_of_call asks call write⟩
  · intro i request log read ended
    obtain ⟨event, mem, live, returned, answer⟩ := madeOf_of_reachable reach ended read rfl
    exact readsRegistered_of_reachable reach i _ ended event mem live read returned answer

/-! ## A run -/

/-- The sample deployment, as the controller finds it when the API has created it. -/
def createdSample : ModelDeployment :=
  ⟨{ name := "m", ns := "m", generation := 1 },
    Controller.handedOver Api.sampleDeployment "image" ∅ ∅, {}⟩

/-- Any text is read as no amount. -/
def noAmount (_ : String) : Option Quantity := some 0

/-- The document and the object of the sample deployment. -/
theorem sameResources_created {lax : Coercions} (times : Timestamps lax) (db : Database)
    {row : ModelVersion} (image : row.runtimeImage = "image") :
    SameResources noAmount times
      ⟨db, Api.Cluster.empty.put ("m", "m") (Api.createdResource "m" "m" Api.sampleDeployment row)⟩
      (Controller.Cluster.empty.put .modelDeployment createdSample) := by
  intro ns name
  by_cases same : ns = "m" ∧ name = "m"
  · obtain ⟨rfl, rfl⟩ := same
    rw [Api.Cluster.object_put_self]
    have stored := Controller.Cluster.empty.put_object_self .modelDeployment createdSample
    rw [show (⟨"m", "m"⟩ : NamespacedName) = createdSample.metadata.key from rfl, stored]
    refine .some ⟨⟨_, Controller.field_desiredResource .., ?_⟩, .unwritten rfl rfl⟩
    rw [image]
    exact Controller.decodeSpec_requestedSpec rfl rfl
  · rw [Api.Cluster.object_put_ne _ _ fun eq => same (Prod.mk.inj eq),
      Controller.Cluster.empty.put_object_ne (k := .modelDeployment) createdSample fun _ eq =>
        same ⟨congrArg NamespacedName.ns eq, congrArg NamespacedName.name eq⟩]
    exact .none

section Sample

variable {lax : Coercions} {times : Timestamps lax} {db : Database} {row : ModelVersion}

/-- A request creates the sample deployment. -/
theorem reachable_created
    {thread : ℕ → Option (Thread Api.Request Api.Op Api.Op.Reply (Except Api.Failure Api.Response))}
    (reach : Reachable noAmount times
      (⟨⟨db, Api.Cluster.empty⟩, thread⟩, Host.initial Controller.Cluster.empty))
    (free : thread 2 = none) (found : db.version "m" "1" = some row)
    (image : row.runtimeImage = "image") :
    ∃ thread, Reachable noAmount times
      (⟨⟨db, Api.Cluster.empty.put ("m", "m")
          (Api.createdResource "m" "m" Api.sampleDeployment row)⟩, thread⟩,
        Host.initial (Controller.Cluster.empty.put .modelDeployment createdSample)) := by
  have related : SameResources noAmount times ⟨db, Api.Cluster.empty⟩ Controller.Cluster.empty :=
    fun _ _ => .none
  have lookup : Stores.Executes ⟨db, Api.Cluster.empty⟩ (.query (.getVersion "m" "1")) (some row)
      ⟨db, Api.Cluster.empty⟩ := ⟨db, ⟨0, congrArg (·, db) found⟩, rfl⟩
  have started := reach.step (.left (.start 2 (.putDeployment Api.sampleModel Api.sampleModel
    Api.sampleDeployment) free) .refl related)
  have looked := started.first_call rfl lookup .refl related
  have created : Changes Controller.Cluster.empty _ := .evolves (.create createdSample rfl rfl rfl)
  exact ⟨_, looked.first_call rfl (Api.executes_create db "m" "m" Api.sampleDeployment row)
    (.single created) (sameResources_created times db image)⟩

/-- A reconcile that finds no Deployment creates it. -/
theorem reconcileChildren_missing (md : ModelDeployment) :
    ∃ next, Controller.reconcileChildren md = .call (.get .deployment md.metadata.key) next ∧
      ∃ o next', next (.error Controller.Cluster.notFoundError) =
        .call (.create .deployment o) next' := by
  have owned : Controller.mutateOwned .deployment md (Controller.mutateDeployment md)
      (Controller.desiredDeployment md) = .ok _ :=
    Controller.mutateOwned_eq_ok (k := .deployment) (Controller.childLabels md)
      (fun _ => Controller.deploymentSpec md) rfl (Or.inl ⟨rfl, rfl⟩)
  have mutated := Controller.mutate_eq_ok (k := .deployment) owned
    (show _ = (Controller.desiredDeployment md).metadata.key from rfl)
  refine ⟨_, rfl, ?_⟩
  simp only [mutated, Controller.Cluster.notFoundError, ne_eq]
  exact ⟨_, _, rfl⟩

/-- A reconcile of a valid ModelDeployment comes to create its Deployment. -/
theorem reachable_creates {parseQuantity : String → Option Quantity}
    {c : Config Stores Api.Request Api.Op Api.Op.Reply (Except Api.Failure Api.Response)}
    {u : Controller.Cluster} (reach : Reachable parseQuantity times (c, Host.initial u))
    (related : SameResources parseQuantity times c.shared u) {md : ModelDeployment}
    (stored : md ∈ u.history .modelDeployment md.metadata.key)
    (live : md.metadata.deletionTimestamp = none) {order : Controller.MapOrder}
    (valid : Controller.validateSpec order md = none) (i : ℕ) :
    ∃ d th deployment, Reachable parseQuantity times (c, d) ∧ d.thread i = some th ∧
      Makes th (.create .deployment deployment) := by
  obtain ⟨next, reads, o, next', creates⟩ := reconcileChildren_missing md
  have children : Controller.reconcileRead order md = .call (.get .deployment md.metadata.key) next := by
    rw [Controller.reconcileRead, if_neg (not_not.2 live), valid]
    exact reads
  have started := reach.step (.right (.start i ⟨order, md.metadata.key⟩ rfl) .refl related)
  have read := started.second_call rfl (r := .ok md) ⟨rfl, by rintro o ⟨⟩; exact stored⟩ .refl related
  have missing := read.second_call children (r := .error Controller.Cluster.notFoundError)
    ⟨rfl, by rintro o ⟨⟩⟩ .refl related
  exact ⟨_, ⟨_, _, next (.error Controller.Cluster.notFoundError)⟩, o, missing,
    Function.update_self .., Or.inr ⟨next', creates⟩⟩

end Sample

theorem workloads_registered_created :
    ∃ (p : State) (deployment : Controller.Deployment),
      Reachable noAmount Api.secondsTimestamps p ∧
      (∃ th, p.2.thread 0 = some th ∧ Makes th (.create .deployment deployment)) ∧
      ∃ row ∈ p.1.shared.registry.versions.rows, Deploys row deployment := by
  have start : Host.Reachable (⟨Api.handle Api.secondsCoercions, fun s op r s' => s.Executes op r s' ∧
      (SameResources noAmount Api.secondsTimestamps s Controller.Cluster.empty →
        SameResources noAmount Api.secondsTimestamps s' Controller.Cluster.empty),
      fun _ _ => False⟩ : Host Stores Api.Request Api.Op Api.Op.Reply _) Stores.empty _ :=
    Host.Reachable.start
  have serves (op : Api.Op) (s : Stores) : s.Executes op (Stores.serve op s).1 (Stores.serve op s).2 ∧
      (SameResources noAmount Api.secondsTimestamps s Controller.Cluster.empty →
        SameResources noAmount Api.secondsTimestamps (Stores.serve op s).2
          Controller.Cluster.empty) := by
    refine ⟨Stores.executes_serve op s, fun related => ?_⟩
    cases op with
    | query => exact related
    | kubernetes call => cases call <;> exact related
  have first := start.start_run serves 0 (.putModel Api.sampleModel ⟨none, by simp⟩) rfl
  have second := first.start_run serves 1
    (.putVersion Api.sampleModel Api.sampleVersion Api.sampleBody) rfl
  obtain ⟨reach, related⟩ : Reachable noAmount Api.secondsTimestamps (_, Host.initial _) ∧ _ :=
    Coupled.Reachable.alone (sameResources_empty noAmount Api.secondsTimestamps) second
  obtain ⟨thread, created⟩ := reachable_created reach rfl rfl rfl
  have valid : Controller.ValidSpec (Controller.Cluster.empty.stamp (k := .modelDeployment)
      createdSample) := by
    have spec : (Controller.Cluster.empty.stamp (k := .modelDeployment) createdSample).spec =
      Controller.handedOver Api.sampleDeployment Api.sampleBody.runtimeImage ∅ ∅ := rfl
    refine (Controller.validSpec_iff spec).2 ?_
    constructor <;> simp
  obtain ⟨d, th, deployment, creates, running, makes⟩ :=
    reachable_creates created (sameResources_created _ _ rfl) List.mem_cons_self rfl
      ((Controller.validateSpec_eq_none_iff .any _).2 valid) 0
  exact ⟨_, deployment, creates, ⟨th, running, makes⟩,
    (workloads_registered noAmount Api.secondsTimestamps _ creates).1 0 th _ deployment running makes
      (Or.inl rfl)⟩

end Kernexys.Platform
