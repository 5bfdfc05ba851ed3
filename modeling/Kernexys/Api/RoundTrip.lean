import Kernexys.Api.Quantities

/-!
# What is written is read back

The resource that `_desired_resource` builds is read back by `_resource_to_read`, field by field, and
what was read can be submitted again.  The quantities are not trimmed a second time, since no
character of their pattern is white space.
-/

namespace Kernexys.Api

open RegularExpression Text

/-! ## Quantities -/

/-- No quantity has white space. -/
theorem strip_quantity {quantity : String} (valid : isResourceQuantity quantity = true) :
    strip isSpace quantity = quantity := by
  rw [isResourceQuantity, Bool.and_eq_true] at valid
  refine strip_of_fullmatch ?_ valid.2
  have digits : (decimalDigits.all fun c => !isSpace c) = true := by decide +kernel
  simp only [resourceQuantityPattern, repeated, alphabet_mul, alphabet_add, alphabet_star,
    alphabet_char, alphabet_optional, alphabet_oneOf, List.all_append, digits]
  decide

theorem Quantities.validate_entries (quantities : Quantities) :
    Quantities.validate (.obj quantities.entries) = some quantities := by
  have trimmed : quantities.1 =
      quantities.1.map fun entry => (entry.1, strip isSpace entry.2) := by
    refine ((List.map_congr_left fun entry mem => ?_).trans (List.map_id _)).symm
    rw [strip_quantity (quantities.2 entry mem).2]
    rfl
  have read : textEntries (.obj quantities.entries) = some quantities.1 :=
    textEntries_eq_some_iff.2 rfl
  refine (bind_of_eq read _).trans ?_
  rw [validateResources_eq_ok_iff.2 trimmed]
  rfl

theorem DeploymentResources.validate_dump (resources : DeploymentResources) :
    DeploymentResources.validate resources.dump = some resources := by
  have requests : fieldOr (some (.obj resources.requests.entries)) ⟨[], Quantities.valid_nil⟩
      Quantities.validate = some resources.requests := resources.requests.validate_entries
  have limits : fieldOr (some (.obj resources.limits.entries)) ⟨[], Quantities.valid_nil⟩
      Quantities.validate = some resources.limits := resources.limits.validate_entries
  exact (bind_of_eq rfl _).trans ((bind_of_eq requests _).trans (bind_of_eq limits _))

/-! ## Resources -/

/-- A resource version as `_desired_resource` takes it: a text or none. -/
def versionJson (version : Option String) : Json := (version.map Json.str).getD .null

/-- The fields of the metadata that depend on the digest and the version. -/
def optionalMetadata (digest version : Option String) : Dict :=
  (if digest.getD "" ≠ "" then
    [("annotations", .obj [(artifactDigestKey, .str (digest.getD ""))])] else []) ++
  (if (versionJson version).truthy then [("resourceVersion", versionJson version)] else [])

theorem lookup_optionalMetadata {key : String} (digest version : Option String)
    (notDigest : key ≠ "annotations") (notVersion : key ≠ "resourceVersion") :
    (optionalMetadata digest version).lookup key = none := by
  rw [optionalMetadata, List.lookup_append]
  split_ifs <;> simp [List.lookup, beq_false_of_ne notDigest, beq_false_of_ne notVersion]

/-- An absent version is read as the empty text. -/
theorem fieldOr_resourceVersion (digest version : Option String) :
    fieldOr ((optionalMetadata digest version).lookup "resourceVersion") "" Json.text =
      some (version.getD "") := by
  have annotations : (if digest.getD "" ≠ "" then
      [("annotations", Json.obj [(artifactDigestKey, .str (digest.getD ""))])] else []).lookup
        "resourceVersion" = none := by
    split_ifs <;> rfl
  rw [optionalMetadata, List.lookup_append, annotations, Option.none_or]
  cases version with
  | none => rfl
  | some version =>
    by_cases empty : version = ""
    · subst empty
      rfl
    · have truthy : (versionJson (some version)).truthy = true := bne_iff_ne.2 empty
      rw [if_pos truthy]
      rfl

/-- What the API reads of a resource that it desires. -/
def desiredRead (ns name : String) (desired : DeploymentUpsert) (image : String)
    (version : Option String) : DeploymentRead where
  name := name
  ns := ns
  generation := 0
  resourceVersion := version.getD ""
  createdAt := none
  spec := ⟨desired.model.1, desired.version.1, image, desired.replicas, desired.port,
    desired.resources⟩
  status := ⟨0, 0, 0, "", "", "", []⟩

theorem readResource_desiredResource (lax : Coercions) (ns name : String) (desired : DeploymentUpsert)
    (image : String) (digest version : Option String) :
    readResource lax (desiredResource ns name desired image digest (versionJson version)) =
      some (desiredRead ns name desired image version) := by
  let metadata : Dict :=
    [("name", .str name), ("namespace", .str ns),
      ("labels", .obj [("app.kubernetes.io/managed-by", .str "kernexys-control-api"),
        ("app.kubernetes.io/part-of", .str "kernexys")])] ++ optionalMetadata digest version
  have found : (desiredResource ns name desired image digest (versionJson version)).field
      ["metadata"] = some (.obj metadata) := by
    rw [desiredResource, Json.field_singleton]
    simp [List.lookup, metadata, optionalMetadata]
  have generation : fieldOr (metadata.lookup "generation") 0 lax.int = some 0 := by
    show fieldOr ((optionalMetadata digest version).lookup "generation") 0 lax.int = some 0
    rw [lookup_optionalMetadata digest version (by decide) (by decide)]
    rfl
  have created : fieldOr (metadata.lookup "creationTimestamp") none lax.optionalDatetime =
      some none := by
    show fieldOr ((optionalMetadata digest version).lookup "creationTimestamp") none
      lax.optionalDatetime = some none
    rw [lookup_optionalMetadata digest version (by decide) (by decide)]
    rfl
  have resourceVersion : fieldOr (metadata.lookup "resourceVersion") "" Json.text =
      some (version.getD "") := fieldOr_resourceVersion digest version
  have replicas : fieldOr (some (.int desired.replicas)) 1 lax.int = some desired.replicas :=
    lax.int_int desired.replicas
  have port : fieldOr (some (.int desired.port)) 8080 lax.int = some desired.port :=
    lax.int_int desired.port
  have status : DeploymentStatus.validate lax (.obj []) = some ⟨0, 0, 0, "", "", "", []⟩ := rfl
  rw [desiredResource, Json.field_singleton] at found
  rw [readResource, desiredResource]
  refine (bind_of_eq rfl _).trans <| (bind_of_eq found _).trans <| (bind_of_eq rfl _).trans <|
    (bind_of_eq rfl _).trans <| (bind_of_eq rfl _).trans <| (bind_of_eq rfl _).trans <|
    (bind_of_eq rfl _).trans <| (bind_of_eq rfl _).trans <| (bind_of_eq rfl _).trans ?_
  refine (bind_of_eq status _).trans <| (bind_of_eq rfl _).trans <|
    (bind_of_eq rfl _).trans <| (bind_of_eq rfl _).trans <| (bind_of_eq rfl _).trans <|
    (bind_of_eq generation _).trans <| (bind_of_eq resourceVersion _).trans <|
    (bind_of_eq created _).trans ?_
  exact (bind_of_eq rfl _).trans <| (bind_of_eq rfl _).trans <| (bind_of_eq rfl _).trans <|
    (bind_of_eq rfl _).trans <| (bind_of_eq rfl _).trans <| (bind_of_eq rfl _).trans <|
    (bind_of_eq replicas _).trans <| (bind_of_eq port _).trans
      (bind_of_eq desired.resources.validate_dump _)

theorem DeploymentUpsert.validate_self (lax : Coercions) (desired : DeploymentUpsert) :
    DeploymentUpsert.validate lax desired.model.1 desired.version.1 (.int desired.replicas)
      (.int desired.port) desired.resources.dump = some desired := by
  refine (bind_of_eq desired.model.parse_val _).trans <| (bind_of_eq desired.version.parse_val _).trans <|
    (bind_of_eq (lax.int_int _) _).trans <| (bind_of_eq (lax.int_int _) _).trans <|
    (bind_of_eq desired.resources.validate_dump _).trans ?_
  rw [dif_pos desired.replicas_valid, dif_pos desired.port_valid]

/-- What `_desired_resource` builds is read back, can be submitted again and then builds the same
resource; and every status of the controller is read as it is. -/
theorem deployment_round_trip {lax : Coercions} (times : Timestamps lax) (ns name : String)
    (desired : DeploymentUpsert) (image : String) (digest version : Option String) :
    (∃ value again, resourceToRead lax
        (desiredResource ns name desired image digest (versionJson version)) = .ok value ∧
      value.name = name ∧ value.ns = ns ∧
      value.spec = ⟨desired.model.1, desired.version.1, image, desired.replicas, desired.port,
        desired.resources⟩ ∧
      DeploymentUpsert.validate lax value.spec.model value.spec.version (.int value.spec.replicas)
        (.int value.spec.port) value.spec.resources.dump = some again ∧
      desiredResource ns name again value.spec.runtimeImage digest (versionJson version) =
        desiredResource ns name desired image digest (versionJson version)) ∧
    ∀ status, DeploymentStatus.validate lax (encodeStatus times status) = some (statusRead status) := by
  refine ⟨⟨desiredRead ns name desired image version, desired, ?_, rfl, rfl, rfl,
    desired.validate_self lax, rfl⟩, DeploymentStatus.validate_encodeStatus times⟩
  rw [resourceToRead, readResource_desiredResource]

/-- A deployment that requests memory below its limit. -/
def memoryDeployment : DeploymentUpsert where
  model := ⟨"reviews", by decide⟩
  version := ⟨"v7", by decide⟩
  replicas := 3
  port := 9000
  resources := ⟨memory "1Mi" isResourceQuantity_oneMebi, memory "1Gi" isResourceQuantity_oneGibi⟩

/-- The status of a deployment with one of three replicas ready. -/
def partlyReadyStatus : Controller.ModelDeploymentStatus where
  observedGeneration := 1
  desiredReplicas := 3
  readyReplicas := 1
  conditions := [⟨"Available", .false, 1, 1700000000, "NotReady", "1 of 3 replicas are ready."⟩]

theorem deployment_round_trip_memory :
    (∃ value, resourceToRead secondsCoercions (desiredResource "default" "m" memoryDeployment "image"
        (some "sha256:0") (.str "7")) = .ok value ∧
      value.spec = ⟨"reviews", "v7", "image", 3, 9000,
        ⟨memory "1Mi" isResourceQuantity_oneMebi, memory "1Gi" isResourceQuantity_oneGibi⟩⟩) ∧
    DeploymentStatus.validate secondsCoercions (encodeStatus secondsTimestamps partlyReadyStatus) =
      some (statusRead partlyReadyStatus) := by
  obtain ⟨⟨value, again, read, -, -, spec, -⟩, statuses⟩ := deployment_round_trip secondsTimestamps
    "default" "m" memoryDeployment "image" (some "sha256:0") (some "7")
  exact ⟨⟨value, read, spec⟩, statuses partlyReadyStatus⟩

end Kernexys.Api
