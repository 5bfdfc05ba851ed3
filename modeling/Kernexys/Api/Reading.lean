import Kernexys.Api.Crd

/-!
# What the API reads of the resources in the cluster

`_resource_to_read` on every ModelDeployment that the cluster can hold.  All of its fields are read,
except for requests and limits that the schema of the API does not allow.
-/

namespace Kernexys.Api

open Text

/-! ## Quantities -/

/-- The fields of a JSON object with these quantities. -/
def Quantities.entries (quantities : Quantities) : Dict :=
  quantities.1.map fun entry => (entry.1, .str entry.2)

/-- The API allows the entry. -/
def ApiEntry (entry : String × Json) : Prop :=
  isResourceEntryName entry.1 = true ∧
    ∃ quantity, entry.2 = .str quantity ∧ isResourceQuantity quantity = true

/-- The schema of the cluster allows the value. -/
def CrdQuantity (value : Json) : Prop :=
  (Schema.intOrString crdQuantityPattern).accepts value = true

theorem textEntries_eq_some_iff {entries : Dict} {texts : List (String × String)} :
    textEntries (.obj entries) = some texts ↔
      entries = texts.map fun entry => (entry.1, .str entry.2) := by
  rw [textEntries]
  simp only [Json.dict, Option.bind_eq_bind, Option.bind_some, Option.pure_def]
  induction entries generalizing texts with
  | nil =>
    rw [List.mapM_nil, Option.pure_def, Option.some.injEq, eq_comm, eq_comm (a := []),
      List.map_eq_nil_iff]
  | cons entry entries ih =>
    obtain ⟨key, value⟩ := entry
    simp only [List.mapM_cons, Option.bind_eq_bind, Option.bind_eq_some_iff, Option.pure_def,
      Option.some.injEq, ih]
    constructor
    · rintro ⟨_, ⟨s, text, rfl⟩, rest, rfl, rfl⟩
      cases value with
      | str s' =>
        cases text
        rfl
      | _ => cases text
    · intro same
      obtain ⟨⟨key', s⟩, texts, rfl, head, rfl⟩ := List.map_eq_cons_iff.1 same.symm
      cases head
      exact ⟨_, ⟨s, rfl, rfl⟩, texts, rfl, rfl⟩

/-- The resources are those that were given, without white space around the quantities. -/
theorem validateResources_eq_ok_iff {texts : List (String × String)} {quantities : Quantities} :
    validateResources texts = .ok quantities ↔
      quantities.1 = texts.map fun entry => (entry.1, strip isSpace entry.2) := by
  induction texts generalizing quantities with
  | nil =>
    rw [validateResources]
    exact ⟨fun eq => by cases eq; rfl, fun eq => congrArg _ (Subtype.ext eq.symm)⟩
  | cons text texts ih =>
    obtain ⟨name, quantity⟩ := text
    rw [validateResources, List.map_cons]
    constructor
    · intro validated
      split_ifs at validated with named valid
      split at validated
      next normalized rest =>
        cases validated
        exact congrArg _ (ih.1 rest)
      next => cases validated
    · intro same
      have all := quantities.2
      rw [same] at all
      obtain ⟨named, valid⟩ := all _ List.mem_cons_self
      have rest := @ih ⟨_, fun entry mem => all entry (List.mem_cons_of_mem _ mem)⟩
      rw [dif_pos named, dif_pos valid, rest.2 rfl]
      exact congrArg _ (Subtype.ext same.symm)

/-- What is read of valid quantities is what is there. -/
theorem Quantities.validate_eq_some_iff {entries : Dict}
    (valid : ∀ entry ∈ entries, CrdQuantity entry.2) {quantities : Quantities} :
    Quantities.validate (.obj entries) = some quantities ↔ entries = quantities.entries := by
  have unchanged : ∀ texts : List (String × String),
      entries = texts.map (fun entry => (entry.1, .str entry.2)) →
      texts.map (fun entry => (entry.1, strip isSpace entry.2)) = texts := by
    rintro texts rfl
    refine (List.map_congr_left fun entry mem => ?_).trans (List.map_id _)
    rcases Schema.accepts_intOrString (valid _ (List.mem_map_of_mem mem)) with ⟨n, ⟨⟩⟩ | text
    obtain ⟨quantity, ⟨⟩, matched⟩ := text
    rw [strip_crdQuantity matched]
    rfl
  have ok : ∀ texts, (validateResources texts).toOption = some quantities ↔
      validateResources texts = .ok quantities := by
    intro texts
    cases validateResources texts <;> simp [Except.toOption]
  rw [Quantities.validate]
  simp only [Option.bind_eq_bind, Option.bind_eq_some_iff, textEntries_eq_some_iff, ok,
    validateResources_eq_ok_iff]
  constructor
  · rintro ⟨texts, given, normalized⟩
    rw [unchanged texts given] at normalized
    rw [given, Quantities.entries, normalized]
  · intro same
    exact ⟨quantities.1, same, (unchanged _ same).symm⟩

/-- The maps that can be read. -/
theorem exists_entries_iff {entries : Dict} :
    (∃ quantities : Quantities, entries = quantities.entries) ↔ ∀ entry ∈ entries, ApiEntry entry := by
  constructor
  · rintro ⟨quantities, rfl⟩ entry mem
    obtain ⟨⟨name, quantity⟩, inside, rfl⟩ := List.mem_map.1 mem
    obtain ⟨named, valid⟩ := quantities.2 _ inside
    exact ⟨named, quantity, rfl, valid⟩
  · intro all
    induction entries with
    | nil => exact ⟨⟨[], Quantities.valid_nil⟩, rfl⟩
    | cons entry entries ih =>
      obtain ⟨name, value⟩ := entry
      obtain ⟨rest, rfl⟩ := ih fun entry mem => all entry (List.mem_cons_of_mem _ mem)
      obtain ⟨named, quantity, rfl, valid⟩ := all _ List.mem_cons_self
      refine ⟨⟨(name, quantity) :: rest.1, fun entry mem => ?_⟩, rfl⟩
      rcases List.mem_cons.1 mem with rfl | mem
      · exact ⟨named, valid⟩
      · exact rest.2 entry mem

/-! ## Resources -/

/-- The fields of the object at a path; an absent object is empty. -/
def objectAt (value : Json) (path : List String) : Dict := ((value.field path).bind Json.dict).getD []

/-- One of the two maps, with an empty default. -/
theorem fieldOr_quantities {fields : Dict} {key : String}
    (valid : ∀ value, fields.lookup key = some value →
      (Schema.map (.intOrString crdQuantityPattern)).accepts value = true)
    (empty : Quantities) (none_ : empty.1 = []) {quantities : Quantities} :
    fieldOr (fields.lookup key) empty Quantities.validate = some quantities ↔
      objectAt (.obj fields) [key] = quantities.entries := by
  rw [objectAt, Json.field]
  cases found : fields.lookup key with
  | none =>
    rw [fieldOr_none, Option.some.injEq]
    constructor
    · rintro rfl
      rw [Quantities.entries, none_]
      rfl
    · intro same
      exact Subtype.ext (none_.trans (List.map_eq_nil_iff.1 same.symm).symm)
  | some value =>
    obtain ⟨entries, rfl, -, each⟩ := Schema.accepts_map (valid value found)
    rw [fieldOr_some, Quantities.validate_eq_some_iff each]
    rfl

/-- Requests and limits have one schema. -/
theorem accepts_quantities {fields : Dict} (valid : resourcesSchema.accepts (.obj fields) = true)
    {key : String} {value : Json} (found : fields.lookup key = some value) :
    (Schema.map (.intOrString crdQuantityPattern)).accepts value = true := by
  obtain ⟨_, ⟨⟩, object⟩ := Schema.accepts_object valid
  obtain ⟨schema, declared, accepted⟩ := object.property found
  rcases List.mem_pair.1 (Dict.mem_of_lookup declared) with eq | eq <;>
  · cases eq
    exact accepted

/-- What is read of valid resources is what is there. -/
theorem DeploymentResources.validate_eq_some_iff {value : Json}
    (valid : resourcesSchema.accepts value = true) {resources : DeploymentResources} :
    DeploymentResources.validate value = some resources ↔
      objectAt value ["requests"] = resources.requests.entries ∧
        objectAt value ["limits"] = resources.limits.entries := by
  obtain ⟨fields, rfl, object⟩ := Schema.accepts_object valid
  have known : (fields.all fun entry => entry.1 == "requests" || entry.1 == "limits") = true := by
    refine List.all_eq_true.2 fun entry mem => ?_
    obtain ⟨schema, declared, -⟩ := object.declared entry mem
    have key := List.mem_map_of_mem (f := Prod.fst) (Dict.mem_of_lookup declared)
    simpa [or_comm] using key
  rw [← fieldOr_quantities (fun _ => accepts_quantities valid) ⟨[], Quantities.valid_nil⟩ rfl,
    ← fieldOr_quantities (fun _ => accepts_quantities valid) ⟨[], Quantities.valid_nil⟩ rfl, validate]
  simp only [Json.dict, Option.bind_eq_bind, Option.bind_some, known, if_true,
    Option.bind_eq_some_iff, Option.pure_def, Option.some.injEq]
  constructor
  · rintro ⟨requests, readRequests, limits, readLimits, rfl⟩
    exact ⟨readRequests, readLimits⟩
  · rintro ⟨readRequests, readLimits⟩
    exact ⟨_, readRequests, _, readLimits, rfl⟩

/-! ## Deployments -/

/-- What was read is what the resource has, with the defaults for what it lacks. -/
structure ReadsBack (resource : Json) (spec : DeploymentSpecRead) : Prop where
  model : resource.field modelNamePath = some (.str spec.model)
  version : resource.field modelVersionPath = some (.str spec.version)
  image : resource.field imagePath = some (.str spec.runtimeImage)
  replicas : (resource.field replicasPath).getD (.int 1) = .int spec.replicas
  port : (resource.field portPath).getD (.int 8080) = .int spec.port
  requests : objectAt resource requestsPath = spec.resources.requests.entries
  limits : objectAt resource limitsPath = spec.resources.limits.entries

/-- The API allows every request and limit of the resource. -/
structure ApiQuantities (resource : Json) : Prop where
  requests : ∀ entry ∈ objectAt resource requestsPath, ApiEntry entry
  limits : ∀ entry ∈ objectAt resource limitsPath, ApiEntry entry

theorem lookup_objectAt (value : Json) (path : List String) (key : String) :
    (objectAt value path).lookup key = value.field (path ++ [key]) := by
  rw [objectAt, Json.field_append]
  cases value.field path with
  | none => rfl
  | some inner =>
    cases inner with
    | obj fields => exact (Json.field_singleton fields key).symm
    | _ => rfl

theorem objectAt_getD (value : Json) (path : List String) (key : String) :
    objectAt ((value.field path).getD (.obj [])) [key] = objectAt value (path ++ [key]) := by
  rw [objectAt, objectAt, Json.field_append]
  cases value.field path <;> rfl

variable {lax : Coercions} {times : Timestamps lax} {resource : Json}

/-- The resources of a spec, or none. -/
def resourcesOf (resource : Json) : Json := (resource.field ["spec", "resources"]).getD (.obj [])

theorem bind_of_eq {α β : Type} {o : Option α} {a : α} (eq : o = some a) (f : α → Option β) :
    (o >>= f) = f a := by
  rw [eq]
  rfl

section SpecPaths

variable {fields spec : Dict} (inner : SpecFields spec)
  (found : fields.lookup "spec" = some (.obj spec))

include found

theorem SpecFields.field_modelName :
    (Json.obj fields).field modelNamePath = some (.str inner.name.1) := by
  rw [modelNamePath, Json.field_of_lookup found, Json.field_of_lookup inner.spec_model,
    Json.field_singleton, inner.model_name]

theorem SpecFields.field_modelVersion :
    (Json.obj fields).field modelVersionPath = some (.str inner.version.1) := by
  rw [modelVersionPath, Json.field_of_lookup found, Json.field_of_lookup inner.spec_model,
    Json.field_singleton, inner.model_version]

theorem SpecFields.field_image :
    (Json.obj fields).field imagePath = some (.str inner.image) := by
  rw [imagePath, Json.field_of_lookup found, Json.field_of_lookup inner.spec_runtime,
    Json.field_singleton, inner.runtime_image]

theorem SpecFields.field_port :
    (Json.obj fields).field portPath = inner.runtime.lookup "port" := by
  rw [portPath, Json.field_of_lookup found, Json.field_of_lookup inner.spec_runtime,
    Json.field_singleton]

theorem field_replicas : (Json.obj fields).field replicasPath = spec.lookup "replicas" := by
  rw [replicasPath, Json.field_of_lookup found, Json.field_singleton]

theorem resourcesOf_eq : resourcesOf (.obj fields) = (spec.lookup "resources").getD (.obj []) := by
  rw [resourcesOf, Json.field_of_lookup found, Json.field_singleton]

end SpecPaths

/-- Everything but the resources can be read. -/
theorem Held.readResource_eq (held : Held times resource) :
    ∃ read : DeploymentResources → DeploymentRead,
      readResource lax resource = (DeploymentResources.validate (resourcesOf resource)).map read ∧
      ∀ resources : DeploymentResources,
        objectAt resource requestsPath = resources.requests.entries →
        objectAt resource limitsPath = resources.limits.entries →
        ReadsBack resource (read resources).spec := by
  obtain ⟨status, readStatus⟩ := held.exists_status
  obtain ⟨fields, metadata, spec, rfl, foundMetadata, foundSpec, ⟨inner⟩⟩ := held.exists_fields
  obtain ⟨name, foundName⟩ := held.name
  obtain ⟨ns, foundNs⟩ := held.ns
  obtain ⟨generation, foundGeneration⟩ := held.generation
  obtain ⟨resourceVersion, -, foundVersion⟩ := held.resourceVersion
  obtain ⟨time, foundTime⟩ := held.creationTimestamp
  obtain ⟨replicas, -, foundReplicas⟩ := inner.exists_replicas
  obtain ⟨port, -, foundPort⟩ := inner.exists_port
  rw [Json.field_of_lookup foundMetadata, Json.field_singleton] at foundName foundNs foundGeneration
  rw [Json.field_of_lookup foundMetadata, Json.field_singleton] at foundVersion foundTime
  rw [Json.field_singleton] at readStatus
  have readGeneration : fieldOr (metadata.lookup "generation") 0 lax.int = some generation := by
    rw [foundGeneration, fieldOr_some, lax.int_int]
  have readVersion : fieldOr (metadata.lookup "resourceVersion") "" Json.text =
      some resourceVersion := by
    rw [foundVersion]
    rfl
  have readTime : fieldOr (metadata.lookup "creationTimestamp") none lax.optionalDatetime =
      some (some time) := by
    rw [foundTime, fieldOr_some, times.optionalDatetime_rfc3339]
  have readReplicas : fieldOr (spec.lookup "replicas") 1 lax.int = some replicas := by
    rw [fieldOr_int, foundReplicas, lax.int_int]
  have readPort : fieldOr (inner.runtime.lookup "port") 8080 lax.int = some port := by
    rw [fieldOr_int, foundPort, lax.int_int]
  refine ⟨fun resources =>
    { name, ns, generation, resourceVersion, createdAt := some time, status
      spec := { model := inner.name.1, version := inner.version.1, runtimeImage := inner.image
                replicas, port, resources } }, ?_, fun resources requests limits =>
    ⟨?_, ?_, ?_, ?_, ?_, requests, limits⟩⟩
  · rw [readResource, resourcesOf_eq foundSpec, Option.map_eq_bind]
    refine (bind_of_eq rfl _).trans <| (bind_of_eq foundMetadata _).trans <|
      (bind_of_eq rfl _).trans <| (bind_of_eq foundSpec _).trans <| (bind_of_eq rfl _).trans <|
      (bind_of_eq inner.spec_model _).trans <| (bind_of_eq rfl _).trans <|
      (bind_of_eq inner.spec_runtime _).trans <| (bind_of_eq rfl _).trans <|
      (bind_of_eq readStatus _).trans <| (bind_of_eq foundName _).trans <| (bind_of_eq rfl _).trans <|
      (bind_of_eq foundNs _).trans <| (bind_of_eq rfl _).trans ?_
    exact (bind_of_eq readGeneration _).trans <| (bind_of_eq readVersion _).trans <|
      (bind_of_eq readTime _).trans <| (bind_of_eq inner.model_name _).trans <|
      (bind_of_eq rfl _).trans <| (bind_of_eq inner.model_version _).trans <|
      (bind_of_eq rfl _).trans <| (bind_of_eq inner.runtime_image _).trans <|
      (bind_of_eq rfl _).trans <| (bind_of_eq readReplicas _).trans (bind_of_eq readPort _)
  · exact inner.field_modelName foundSpec
  · exact inner.field_modelVersion foundSpec
  · exact inner.field_image foundSpec
  · rw [field_replicas foundSpec, foundReplicas]
  · rw [inner.field_port foundSpec, foundPort]

/-- The resources of a held spec are valid. -/
theorem Held.accepts_resources (held : Held times resource) :
    resourcesSchema.accepts (resourcesOf resource) = true := by
  obtain ⟨fields, metadata, spec, rfl, -, foundSpec, ⟨inner⟩⟩ := held.exists_fields
  rw [resourcesOf, Json.field_of_lookup foundSpec, Json.field_singleton]
  exact inner.accepts_resources

/-- Requests and limits have distinct names and valid values. -/
theorem Held.quantities (held : Held times resource) (key : String) :
    ((objectAt resource ["spec", "resources", key]).map Prod.fst).Nodup ∧
      ∀ entry ∈ objectAt resource ["spec", "resources", key], CrdQuantity entry.2 := by
  have valid := held.accepts_resources
  obtain ⟨fields, eq, -⟩ := Schema.accepts_object valid
  have same := objectAt_getD resource ["spec", "resources"] key
  rw [eq] at valid
  rw [resourcesOf] at eq
  rw [eq, objectAt, Json.field_singleton] at same
  show ((objectAt resource (["spec", "resources"] ++ [key])).map Prod.fst).Nodup ∧
    ∀ entry ∈ objectAt resource (["spec", "resources"] ++ [key]), CrdQuantity entry.2
  rw [← same]
  cases found : fields.lookup key with
  | none => exact ⟨List.nodup_nil, fun entry mem => absurd mem List.not_mem_nil⟩
  | some value =>
    obtain ⟨entries, rfl, distinct, each⟩ := Schema.accepts_map (accepts_quantities valid found)
    exact ⟨distinct, each⟩

/-- The resources that are read are those of the spec. -/
theorem Held.validate_resources_iff (held : Held times resource) {resources : DeploymentResources} :
    DeploymentResources.validate (resourcesOf resource) = some resources ↔
      objectAt resource requestsPath = resources.requests.entries ∧
        objectAt resource limitsPath = resources.limits.entries := by
  rw [DeploymentResources.validate_eq_some_iff held.accepts_resources, resourcesOf, objectAt_getD,
    objectAt_getD]
  rfl

theorem exists_resources_iff :
    (∃ resources : DeploymentResources, objectAt resource requestsPath = resources.requests.entries ∧
      objectAt resource limitsPath = resources.limits.entries) ↔ ApiQuantities resource := by
  constructor
  · rintro ⟨⟨requests, limits⟩, sameRequests, sameLimits⟩
    exact ⟨exists_entries_iff.1 ⟨requests, sameRequests⟩, exists_entries_iff.1 ⟨limits, sameLimits⟩⟩
  · rintro ⟨requests, limits⟩
    obtain ⟨requests, sameRequests⟩ := exists_entries_iff.2 requests
    obtain ⟨limits, sameLimits⟩ := exists_entries_iff.2 limits
    exact ⟨⟨requests, limits⟩, sameRequests, sameLimits⟩

/-- A resource with requests and limits that the API allows is read as it is. -/
theorem Held.exists_read (held : Held times resource) (allowed : ApiQuantities resource) :
    ∃ value, resourceToRead lax resource = .ok value ∧ ReadsBack resource value.spec := by
  obtain ⟨read, reads, back⟩ := held.readResource_eq
  obtain ⟨resources, requests, limits⟩ := exists_resources_iff.2 allowed
  rw [held.validate_resources_iff.2 ⟨requests, limits⟩] at reads
  refine ⟨read resources, ?_, back resources requests limits⟩
  rw [resourceToRead, reads]
  rfl

/-- Any other resource is refused. -/
theorem Held.refused (held : Held times resource) (other : ¬ApiQuantities resource) :
    resourceToRead lax resource = .error ⟨502, "invalid_deployment_state",
      "Kubernetes returned a malformed ModelDeployment resource."⟩ := by
  obtain ⟨read, reads, -⟩ := held.readResource_eq
  have invalid : DeploymentResources.validate (resourcesOf resource) = none := by
    rw [Option.eq_none_iff_forall_ne_some]
    intro resources validated
    exact other (exists_resources_iff.1 ⟨resources, held.validate_resources_iff.1 validated⟩)
  rw [invalid] at reads
  rw [resourceToRead, reads]
  rfl

/-- The API reads a ModelDeployment that the cluster can hold, with the same model, version, image,
replicas, port and resources, exactly if it allows all requests and limits.  It refuses any other. -/
theorem deployment_read_iff (held : Held times resource) :
    ((∃ value, resourceToRead lax resource = .ok value ∧ ReadsBack resource value.spec) ↔
      ApiQuantities resource) ∧
    (¬ApiQuantities resource → resourceToRead lax resource = .error ⟨502, "invalid_deployment_state",
      "Kubernetes returned a malformed ModelDeployment resource."⟩) := by
  refine ⟨⟨fun ⟨value, _, back⟩ => ?_, held.exists_read⟩, held.refused⟩
  exact exists_resources_iff.1 ⟨value.spec.resources, back.requests, back.limits⟩

/-- Conversions that read points in time from their seconds. -/
def secondsCoercions : Coercions where
  int := Json.integer
  datetime
    | .str s => s.toInt?
    | _ => none
  int_int := Json.integer_int

/-- Points in time written as their seconds. -/
def secondsTimestamps : Timestamps secondsCoercions := ⟨Int.repr, Int.toInt?_repr⟩

/-- A resource as another client creates it, with some requests. -/
def requesting (requests : Dict) : Json :=
  .obj
    [("metadata", .obj
        [("name", .str "m"), ("namespace", .str "default"), ("generation", .int 1),
          ("resourceVersion", .str "1"), ("creationTimestamp", .str (Int.repr 0))]),
      ("spec", .obj
        [("model", .obj [("name", .str "m"), ("version", .str "1")]),
          ("runtime", .obj [("image", .str "image")]),
          ("resources", .obj [("requests", .obj requests)])])]

theorem held_requesting {requests : Dict}
    (valid : (Schema.map (.intOrString crdQuantityPattern)).accepts (.obj requests) = true) :
    Held secondsTimestamps (requesting requests) := by
  refine ⟨⟨_, rfl, ?_⟩, Or.inl rfl, ⟨_, rfl⟩, ⟨_, rfl⟩, ⟨_, rfl⟩, ⟨_, by decide, rfl⟩, ⟨0, rfl⟩⟩
  have model : modelSchema.accepts (.obj [("name", .str "m"), ("version", .str "1")]) = true := by
    decide
  have runtime : runtimeSchema.accepts (.obj [("image", .str "image")]) = true := by decide
  have resources : resourcesSchema.accepts (.obj [("requests", .obj requests)]) = true := by
    simp [resourcesSchema, Schema.accepts, Schema.acceptsProperty] at valid ⊢
    exact valid
  simp [specSchema, Schema.accepts, Schema.acceptsProperty, model, runtime, resources]

open RegularExpression in
/-- One digit is a number. -/
theorem one_mem_number : ['1'] ∈ (optional (oneOf ['+', '-']) *
    (repeated (oneOf decimalDigits) * optional (char '.' * star (oneOf decimalDigits)) +
      char '.' * repeated (oneOf decimalDigits))).matches' := by
  have digit : ['1'] ∈ (oneOf decimalDigits).matches' :=
    mem_oneOf.2 ⟨'1', List.mem_flatMap.2 ⟨0x30, List.mem_cons_self, by decide⟩, rfl⟩
  have digits : ['1'] ∈ (repeated (oneOf decimalDigits)).matches' :=
    ⟨['1'], digit, [], Language.nil_mem_kstar _, rfl⟩
  exact ⟨[], Or.inl rfl, ['1'], Or.inl ⟨['1'], digits, [], Or.inl rfl, rfl⟩, rfl⟩

theorem isResourceQuantity_one : isResourceQuantity "1" = true := by
  rw [isResourceQuantity, Bool.and_eq_true, fullmatch, RegularExpression.rmatch_iff_matches']
  exact ⟨by decide, ['1'], one_mem_number, [], Or.inl rfl, rfl⟩

theorem deployment_read_iff_cpu :
    ∃ value, resourceToRead secondsCoercions (requesting [("cpu", .str "1")]) = .ok value ∧
      ReadsBack (requesting [("cpu", .str "1")]) value.spec := by
  refine (deployment_read_iff (held_requesting (by decide))).1.2 ⟨fun entry mem => ?_, ?_⟩
  · obtain rfl := List.mem_singleton.1 mem
    exact ⟨by decide, "1", rfl, isResourceQuantity_one⟩
  · exact fun entry mem => absurd mem List.not_mem_nil

/-- A request that the schema admits and the API does not is answered with a 502. -/
theorem requesting_refused {request : String × Json}
    (valid : (Schema.map (.intOrString crdQuantityPattern)).accepts (.obj [request]) = true)
    (refused : ¬ (isResourceEntryName request.1 = true ∧
      ∃ quantity, request.2 = .str quantity ∧ isResourceQuantity quantity = true)) :
    Held secondsTimestamps (requesting [request]) ∧
      resourceToRead secondsCoercions (requesting [request]) =
        .error ⟨502, "invalid_deployment_state",
          "Kubernetes returned a malformed ModelDeployment resource."⟩ := by
  have held := held_requesting valid
  refine ⟨held, held.refused fun allowed => refused ?_⟩
  exact allowed.requests request List.mem_cons_self

/-- The API refuses an integer quantity, and a resource name with capital letters. -/
theorem held_resources_refused :
    (Held secondsTimestamps (requesting [("cpu", .int 2)]) ∧
      resourceToRead secondsCoercions (requesting [("cpu", .int 2)]) =
        .error ⟨502, "invalid_deployment_state",
          "Kubernetes returned a malformed ModelDeployment resource."⟩) ∧
      Held secondsTimestamps (requesting [("GPU", .str "1")]) ∧
      resourceToRead secondsCoercions (requesting [("GPU", .str "1")]) =
        .error ⟨502, "invalid_deployment_state",
          "Kubernetes returned a malformed ModelDeployment resource."⟩ := by
  constructor
  · refine requesting_refused (by decide) ?_
    rintro ⟨-, quantity, text, -⟩
    cases text
  · refine requesting_refused (by decide) ?_
    rintro ⟨named, -⟩
    exact absurd named (by decide)

end Kernexys.Api
