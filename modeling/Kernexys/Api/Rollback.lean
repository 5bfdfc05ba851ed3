import Kernexys.Api.RollbackCalls

/-!
# Rollbacks

A rollback reads a ModelDeployment and a version, and applies the version to what it has read.  Other
requests and other clients may change the resource in between; the resource version in the body makes
the write fail then.
-/

namespace Kernexys.Api

variable {lax : Coercions}

/-! ## The effect -/

/-- The fields that the API applies, and the objects that hold them. -/
def apiField : List String → Bool
  | "metadata" :: "labels" :: path =>
    path.head?.all fun key => key ∈ ["app.kubernetes.io/managed-by", "app.kubernetes.io/part-of"]
  | "metadata" :: "annotations" :: path => path.head?.all fun key => key = artifactDigestKey
  | "metadata" :: key :: _ => key ∈ ["name", "namespace"]
  | key :: _ => key ∈ ["apiVersion", "kind", "spec"]
  | [] => true

/-- What a rollback to a version makes of a resource. -/
structure RolledBack (version : String) (row : ModelVersion) (before after : Stored) : Prop where
  version : after.live.field modelVersionPath = some (.str version)
  image : after.live.field imagePath = some (.str row.runtimeImage)
  digest : ∀ digest, row.artifactDigest = some digest → digest ≠ "" →
    after.live.leaf digestPath = some (.str digest)
  /-- Without a digest, the annotation goes if only the API has set it. -/
  undigested : row.artifactDigest.getD "" = "" → after.live.leaf digestPath =
    if before.managed.leaf digestPath ≠ none ∧ before.foreign digestPath = false then none
    else before.live.leaf digestPath
  model : after.live.field modelNamePath = before.live.field modelNamePath
  replicas : after.live.field replicasPath = some ((before.live.field replicasPath).getD (.int 1))
  port : after.live.field portPath = some ((before.live.field portPath).getD (.int 8080))
  requests : ∀ key,
    after.live.field (requestsPath ++ [key]) = before.live.field (requestsPath ++ [key])
  limits : ∀ key, after.live.field (limitsPath ++ [key]) = before.live.field (limitsPath ++ [key])
  managedBy : after.live.field ["metadata", "labels", "app.kubernetes.io/managed-by"] =
    some (.str "kernexys-control-api")
  partOf : after.live.field ["metadata", "labels", "app.kubernetes.io/part-of"] =
    some (.str "kernexys")
  others : ∀ path, serverField path = false → apiField path = false →
    before.managed.leaf path = none ∨ before.foreign path = true →
    after.live.leaf path = before.live.leaf path

/-- The API applies no other field. -/
theorem desiredResource_field_eq_none {ns name : String} {desired : DeploymentUpsert}
    {runtimeImage : String} {artifactDigest : Option String} {resourceVersion : Json}
    {path : List String} (outside : serverField path = false) (other : apiField path = false) :
    (desiredResource ns name desired runtimeImage artifactDigest resourceVersion).field path =
      none := by
  cases path with
  | nil => cases outside
  | cons key path =>
    by_cases metadata : key = "metadata"
    · subst metadata
      cases path with
      | nil => cases outside
      | cons key path =>
        have unversioned : key ≠ "resourceVersion" := by
          rintro rfl
          cases outside
        by_cases labels : key = "labels"
        · subst labels
          cases path with
          | nil => cases other
          | cons key path =>
            have apart : key ≠ "app.kubernetes.io/managed-by" ∧ key ≠ "app.kubernetes.io/part-of" := by
              simpa [apiField] using other
            simp [desiredResource, Json.field, Dict.lookup_cons_of_ne, apart]
        by_cases annotations : key = "annotations"
        · subst annotations
          cases path with
          | nil => cases other
          | cons key path =>
            have apart : key ≠ artifactDigestKey := by simpa [apiField] using other
            unfold desiredResource
            dsimp only
            split_ifs <;> simp [Json.field, Dict.lookup_cons_of_ne, apart]
        · have apart : key ≠ "name" ∧ key ≠ "namespace" := by
            simpa [apiField, labels, annotations] using other
          unfold desiredResource
          dsimp only
          split_ifs <;>
            simp [Json.field, Dict.lookup_cons_of_ne, apart, labels, annotations, unversioned]
    · have apart : key ≠ "apiVersion" ∧ key ≠ "kind" ∧ key ≠ "spec" := by
        simpa [apiField, metadata] using other
      simp [desiredResource, Json.field, Dict.lookup_cons_of_ne, apart, metadata]

section Effect

variable {before after : Stored} {body : Json} {version : ℕ}

/-- A value that is sent is stored. -/
theorem Applied.field_eq (applied : Applied (some before) body version after) {path : List String}
    (outside : serverField path = false) {value : Json} (sent : body.field path = some value)
    (leaf : value.isLeaf = true) (nonempty : value ≠ .obj []) :
    after.live.field path = some value := by
  have atLeaf : body.leaf path = some value := by
    rw [Json.leaf, sent]
    simp [leaf]
  exact (Option.filter_eq_some_iff.1 (applied.sent path value outside atLeaf nonempty)).1

/-- A field that is not sent is removed or kept. -/
theorem Applied.leaf_eq (applied : Applied (some before) body version after) {path : List String}
    (outside : serverField path = false) (absent : body.field path = none) :
    after.live.leaf path =
      if before.managed.leaf path ≠ none ∧ before.foreign path = false then none
      else before.live.leaf path := by
  split_ifs with own
  · exact applied.removed path before outside absent rfl own.1 own.2
  · refine applied.kept path outside absent ?_
    rintro stored ⟨⟩
    by_contra neither
    rw [not_or, Bool.not_eq_true] at neither
    exact own neither

/-- Requests and limits that are sent as they were stay as they were. -/
theorem Applied.quantity_eq {times : Timestamps lax}
    (applied : Applied (some before) body version after) (held : Held times after.live)
    {map : String} {quantities : Quantities}
    (sent : body.field ["spec", "resources", map] = some (.obj quantities.entries))
    (same : objectAt before.live ["spec", "resources", map] = quantities.entries) (key : String) :
    after.live.field (["spec", "resources", map] ++ [key]) =
      before.live.field (["spec", "resources", map] ++ [key]) := by
  have outside : serverField (["spec", "resources", map] ++ [key]) = false := rfl
  have inBody : body.field (["spec", "resources", map] ++ [key]) = quantities.entries.lookup key := by
    rw [Json.field_append, sent, Option.bind_some, Json.field_singleton]
  rw [← lookup_objectAt before.live, same]
  cases found : quantities.entries.lookup key with
  | some value =>
    obtain ⟨entry, -, eq⟩ := List.mem_map.1 (Dict.mem_of_lookup found)
    cases eq
    exact applied.field_eq outside (inBody.trans found) rfl nofun
  | none =>
    have absent : before.live.leaf (["spec", "resources", map] ++ [key]) = none := by
      rw [Json.leaf, ← lookup_objectAt, same, found]
      rfl
    have gone := applied.leaf_eq outside (inBody.trans found)
    rw [absent, ite_self] at gone
    rw [← lookup_objectAt]
    rw [Json.leaf, ← lookup_objectAt] at gone
    cases stored : (objectAt after.live ["spec", "resources", map]).lookup key with
    | none => rfl
    | some value =>
      rw [stored] at gone
      rcases Schema.accepts_intOrString ((held.quantities map).2 _ (Dict.mem_of_lookup stored)) with
        ⟨n, ⟨⟩⟩ | ⟨text, ⟨⟩, -⟩ <;> cases gone

theorem desiredResource_requests (ns name : String) (desired : DeploymentUpsert) (runtimeImage : String)
    (artifactDigest : Option String) (resourceVersion : Json) :
    (desiredResource ns name desired runtimeImage artifactDigest resourceVersion).field requestsPath =
      some (.obj desired.resources.requests.entries) := rfl

theorem desiredResource_limits (ns name : String) (desired : DeploymentUpsert) (runtimeImage : String)
    (artifactDigest : Option String) (resourceVersion : Json) :
    (desiredResource ns name desired runtimeImage artifactDigest resourceVersion).field limitsPath =
      some (.obj desired.resources.limits.entries) := rfl

/-- The two labels of the API. -/
theorem desiredResource_labels (ns name : String) (desired : DeploymentUpsert) (runtimeImage : String)
    (artifactDigest : Option String) (resourceVersion : Json) :
    (desiredResource ns name desired runtimeImage artifactDigest resourceVersion).field
        ["metadata", "labels"] =
      some (.obj [("app.kubernetes.io/managed-by", .str "kernexys-control-api"),
        ("app.kubernetes.io/part-of", .str "kernexys")]) := by
  unfold desiredResource
  dsimp only
  split_ifs <;> rfl

/-- A label that is sent is stored. -/
theorem Applied.label_eq (applied : Applied (some before) body version after) {labels : Dict}
    (sent : body.field ["metadata", "labels"] = some (.obj labels)) {key text : String}
    (label : labels.lookup key = some (.str text)) :
    after.live.field ["metadata", "labels", key] = some (.str text) := by
  refine applied.field_eq rfl ?_ rfl (by simp)
  rw [show ["metadata", "labels", key] = ["metadata", "labels"] ++ [key] from rfl, Json.field_append,
    sent, Option.bind_some, Json.field_singleton]
  exact label

/-- A version without a digest annotates nothing. -/
theorem desiredResource_undigested (ns name : String) (desired : DeploymentUpsert)
    (runtimeImage : String) {artifactDigest : Option String} (none_ : artifactDigest.getD "" = "")
    (resourceVersion : Json) :
    (desiredResource ns name desired runtimeImage artifactDigest resourceVersion).field digestPath =
      none := by
  unfold desiredResource
  dsimp only
  rw [none_]
  cases resourceVersion.truthy <;> rfl

/-- Applying what a resource asks for with another version rolls it back. -/
theorem Desires.rolledBack {times : Timestamps lax} {ns name : String} {target : VersionName}
    {desired : DeploymentUpsert} {row : ModelVersion} {resourceVersion : Json}
    (desires : Desires before.live target desired)
    (applied : Applied (some before) (desiredResource ns name desired row.runtimeImage
      row.artifactDigest resourceVersion) version after)
    (held : Held times after.live) : RolledBack target.1 row before after := by
  refine ⟨?_, ?_, fun digest found nonempty => ?_, fun none_ => ?_, ?_, ?_, ?_, ?_, ?_, ?_, ?_,
    fun path outside other unmanaged => ?_⟩
  · rw [← desires.version]
    exact applied.field_eq rfl (desiredResource_modelVersion ..) rfl (by simp)
  · exact applied.field_eq rfl (desiredResource_image ..) rfl (by simp)
  · have nonempty : row.artifactDigest ≠ some "" := by
      rw [found]
      exact fun eq => nonempty (Option.some.inj eq)
    have sent := desiredResource_digest ns name desired row.runtimeImage resourceVersion nonempty
    rw [found] at sent
    refine applied.sent digestPath _ rfl ?_ (by simp)
    rw [Json.leaf, found, sent]
    rfl
  · exact applied.leaf_eq rfl (desiredResource_undigested ns name desired _ none_ resourceVersion)
  · rw [desires.model]
    exact applied.field_eq rfl (desiredResource_modelName ..) rfl (by simp)
  · rw [desires.replicas]
    exact applied.field_eq rfl (desiredResource_replicas ..) rfl (by simp)
  · rw [desires.port]
    exact applied.field_eq rfl (desiredResource_port ..) rfl (by simp)
  · exact applied.quantity_eq held (desiredResource_requests ..) desires.requests
  · exact applied.quantity_eq held (desiredResource_limits ..) desires.limits
  · exact applied.label_eq (desiredResource_labels ..) rfl
  · exact applied.label_eq (desiredResource_labels ..) rfl
  · exact applied.kept path outside (desiredResource_field_eq_none outside other) (by simpa using unmanaged)

/-- A resource with the requests and limits of another one can be read if that one can. -/
theorem Held.apiEntry {times : Timestamps lax} {live live' : Json} (held : Held times live')
    {map : String} (same : ∀ key, live'.field (["spec", "resources", map] ++ [key]) =
      live.field (["spec", "resources", map] ++ [key]))
    (allowed : ∀ entry ∈ objectAt live ["spec", "resources", map], ApiEntry entry) :
    ∀ entry ∈ objectAt live' ["spec", "resources", map], ApiEntry entry := by
  rintro ⟨key, value⟩ mem
  have found := Dict.lookup_of_mem (held.quantities map).1 mem
  rw [lookup_objectAt, same, ← lookup_objectAt] at found
  exact allowed _ (Dict.mem_of_lookup found)

theorem RolledBack.apiQuantities {times : Timestamps lax} {target : String} {row : ModelVersion}
    (rolledBack : RolledBack target row before after) (held : Held times after.live)
    (allowed : ApiQuantities before.live) : ApiQuantities after.live :=
  ⟨held.apiEntry rolledBack.requests allowed.requests, held.apiEntry rolledBack.limits allowed.limits⟩

end Effect

/-! ## Runs -/

/-- A handler that has answered. -/
def Succeeds (rest : Code (Except Failure Response)) : Prop := ∃ response, rest = .ret (.ok response)

section Runs

variable {ns name : ResourceName} {body : RollbackRequest}

theorem not_succeeds_afterRead (r : Except DeploymentGatewayError Json) :
    ¬Succeeds (afterRead lax ns name body r) := by
  rintro ⟨response, eq⟩
  unfold afterRead at eq
  split at eq
  · cases eq
  · split at eq <;> cases eq

theorem not_succeeds_afterLookup {current spec : Json} {model : String} (r : Option ModelVersion) :
    ¬Succeeds (afterLookup lax ns name body current spec model r) := by
  rintro ⟨response, eq⟩
  unfold afterLookup at eq
  split at eq
  · cases eq
  · split at eq <;> cases eq

theorem not_succeeds_afterWrite (e : DeploymentGatewayError) :
    ¬Succeeds (afterWrite lax ns name (.error e)) := by
  rintro ⟨response, eq⟩
  cases Program.ret.inj eq

/-- A resource version that is not empty is sent. -/
theorem desiredResource_resourceVersion (ns name : String) (desired : DeploymentUpsert)
    (runtimeImage : String) (artifactDigest : Option String) {resourceVersion : String}
    (nonempty : resourceVersion ≠ "") :
    (desiredResource ns name desired runtimeImage artifactDigest (.str resourceVersion)).field
      resourceVersionPath = some (.str resourceVersion) := by
  have truthy : (Json.str resourceVersion).truthy = true := by simpa [Json.truthy] using nonempty
  unfold desiredResource
  dsimp only
  rw [if_pos truthy]
  split <;> rfl

/-- What a rollback that is about to write has read. -/
structure ReadyToWrite (times : Timestamps lax) (s : Stores) (ns name : ResourceName)
    (body : RollbackRequest) (current resource : Json) (row : ModelVersion) : Prop where
  seen : Seen times s.cluster (ns.1, name.1) current
  registered : ∃ model, current.field modelNamePath = some (.str model) ∧
    s.registry.version model body.version.1 = some row
  resource : ∃ desired resourceVersion, Desires current body.version desired ∧ resourceVersion ≠ "" ∧
    current.field resourceVersionPath = some (.str resourceVersion) ∧
    resource = desiredResource ns.1 name.1 desired row.runtimeImage row.artifactDigest
      (.str resourceVersion)

/-- What a call of a rollback does to the resource: nothing, or it replaces the version in the
resource that is stored and the rollback has succeeded. -/
def NoLostUpdate (ns name : ResourceName) (body : RollbackRequest) (s t : Stores)
    (rest : Code (Except Failure Response)) : Prop :=
  (t.cluster = s.cluster ∧ ¬Succeeds rest) ∨
    (Succeeds rest ∧ ∃ before after model row,
      s.cluster.object (ns.1, name.1) = some before ∧
      t.cluster = s.cluster.put (ns.1, name.1) after ∧
      before.live.field modelNamePath = some (.str model) ∧
      s.registry.version model body.version.1 = some row ∧
      RolledBack body.version.1 row before after)

variable {times : Timestamps lax} {s t : Stores}

/-- A write that is admitted is for the resource that was read. -/
theorem ReadyToWrite.exists_before {current resource : Json} {row : ModelVersion}
    (ready : ReadyToWrite times s ns name body current resource row)
    (admits : s.cluster.Admits (ns.1, name.1) resource) :
    ∃ before, s.cluster.object (ns.1, name.1) = some before ∧ before.live = current := by
  obtain ⟨desired, resourceVersion, -, nonempty, version, rfl⟩ := ready.resource
  obtain ⟨before, found, same⟩ := admits.version _
    (desiredResource_resourceVersion ns.1 name.1 desired row.runtimeImage row.artifactDigest nonempty)
  exact ⟨before, found, ready.seen.same before found (same.trans version.symm)⟩

/-- The write of a rollback. -/
theorem ReadyToWrite.noLostUpdate {current resource : Json} {row : ModelVersion}
    (ready : ReadyToWrite times s ns name body current resource row)
    {r : Except DeploymentGatewayError (Option Json)}
    (executed : (rollbackHost times).executes s (.kubernetes (.patch ns.1 name.1 resource)) r t) :
    NoLostUpdate ns name body s t (afterWrite lax ns name r) := by
  obtain ⟨⟨c, executes, rfl⟩, unchanged, sound⟩ := executed
  rcases executes with ⟨rfl, e, rfl⟩ | ⟨admits, after, applied, rfl, outcome⟩
  · exact Or.inl ⟨rfl, not_succeeds_afterWrite e⟩
  obtain ⟨before, found, rfl⟩ := ready.exists_before admits
  rcases outcome with ⟨e, rfl⟩ | rfl | ⟨absent, -⟩
  · -- the call has failed, so it has written nothing
    have same := congrArg Cluster.nextVersion (unchanged ⟨e, rfl⟩)
    exact absurd same (Nat.succ_ne_self _)
  · obtain ⟨desired, resourceVersion, desires, -, -, rfl⟩ := ready.resource
    obtain ⟨model, named, registered⟩ := ready.registered
    rw [found] at applied
    have held := (sound _ after (s.cluster.object_put_self _ _)).1
    have rolledBack := desires.rolledBack applied held
    have allowed := exists_resources_iff.1 ⟨desired.resources, desires.requests, desires.limits⟩
    obtain ⟨value, read, -⟩ := held.exists_read (rolledBack.apiQuantities held allowed)
    refine Or.inr ⟨⟨.deployment value, ?_⟩, before, after, model, row, found, rfl, named, registered,
      rolledBack⟩
    rw [afterWrite, answerDeployment, read]
  · cases found.symm.trans absent

/-- Whatever other requests and clients do in between, every call of a rollback leaves the resources
alone and does not end in success, or replaces version, image and digest in the resource that is
stored just before, which keeps its other settings, and ends in success. -/
theorem rollback_loses_no_update {s₀ : Stores} (sound : s₀.cluster.Sound times)
    {c : Config Stores Request Op Op.Reply (Except Failure Response)}
    (reach : (rollbackHost times).Reachable s₀ c) {i : ℕ} {log : List Event} {op : Op}
    {next : op.Reply → Code (Except Failure Response)}
    (at_call : c.thread i = some ⟨.rollbackDeployment ns name body, log, .call op next⟩) {r : op.Reply}
    (executed : (rollbackHost times).executes c.shared op r t) :
    NoLostUpdate ns name body c.shared t (next r) := by
  have known := (shown_of_reachable sound reach).2 i _ at_call
  cases rollbackAt_of_reachable reach at_call with
  | read =>
    obtain ⟨⟨_, ⟨rfl, -⟩, rfl⟩, -, -⟩ := executed
    exact Or.inl ⟨rfl, not_succeeds_afterRead r⟩
  | lookup read =>
    obtain ⟨⟨_, -, rfl⟩, -, -⟩ := executed
    exact Or.inl ⟨rfl, not_succeeds_afterLookup r⟩
  | @write current spec model row resource read desired =>
    have seen := known _ List.mem_cons_self current rfl
    have registered := known _ (List.mem_cons_of_mem _ List.mem_cons_self) row rfl
    have ready : ReadyToWrite times c.shared ns name body current resource row :=
      ⟨seen, ⟨model, currentModel_eq_ok read, registered⟩, seen.held.rollbackResource_eq_ok read desired⟩
    exact ready.noLostUpdate executed
  | @reread current spec model row resource read desired =>
    -- a write that names a resource version creates nothing
    have seen := known _ List.mem_cons_self current rfl
    obtain ⟨desired, resourceVersion, -, nonempty, -, rfl⟩ :=
      seen.held.rollbackResource_eq_ok read desired
    have answered := known _ (List.mem_cons_of_mem _ (List.mem_cons_of_mem _ List.mem_cons_self))
    refine absurd rfl (answered ?_)
    rw [desiredResource_resourceVersion _ _ _ _ _ nonempty]
    exact nofun

end Runs

/-! ## A digest of another manager -/

/-- A resource with some metadata. -/
def document (metadata : Dict) (spec : Json) : Json :=
  .obj [("apiVersion", .str "platform.kernexys.io/v1alpha1"), ("kind", .str "ModelDeployment"),
    ("metadata", .obj metadata), ("spec", spec)]

theorem document_field {metadata metadata' : Dict} {spec : Json} {path : List String}
    (outside : serverField path = false)
    (same : ∀ key rest, path = "metadata" :: key :: rest →
      metadata.lookup key = metadata'.lookup key) :
    (document metadata spec).field path = (document metadata' spec).field path := by
  cases path with
  | nil => cases outside
  | cons key path =>
    by_cases atMetadata : key = "metadata"
    · subst atMetadata
      cases path with
      | nil => cases outside
      | cons key path =>
        show ((metadata.lookup key).bind fun value => value.field path) =
          (metadata'.lookup key).bind fun value => value.field path
        rw [same key path rfl]
    · have apart : (key == "metadata") = false := beq_false_of_ne atMetadata
      simp only [document, Json.field, List.lookup, apart]

/-- The spec that the API applies for the sample deployment. -/
def sampleSpec : Json :=
  .obj
    [("model", .obj [("name", .str "m"), ("version", .str "1")]),
      ("runtime", .obj [("image", .str "image"), ("port", .int 8080)]),
      ("replicas", .int 1),
      ("resources", .obj [("requests", .obj []), ("limits", .obj [])])]

/-- The metadata that the API applies. -/
def sampleMetadata : Dict :=
  [("name", .str "m"), ("namespace", .str "m"),
    ("labels", .obj [("app.kubernetes.io/managed-by", .str "kernexys-control-api"),
      ("app.kubernetes.io/part-of", .str "kernexys")])]

/-- The metadata of a resource that another client has annotated with a digest. -/
def annotatedMetadata : Dict :=
  sampleMetadata ++ [("annotations", .obj [(artifactDigestKey, .str "sha256:0")]),
    ("generation", .int 1), ("creationTimestamp", .str (Int.repr 0))]

/-- A resource with a resource version. -/
def versioned (metadata : Dict) (version : String) : Json :=
  document (metadata ++ [("resourceVersion", .str version)]) sampleSpec

theorem versioned_field {metadata : Dict} {version : String} {path : List String}
    (outside : serverField path = false) :
    (versioned metadata version).field path = (document metadata sampleSpec).field path := by
  refine document_field outside fun key rest eq => ?_
  subst eq
  have unversioned : key ≠ "resourceVersion" := by
    rintro rfl
    cases outside
  simp [List.lookup_append, Dict.lookup_cons_of_ne, unversioned]

/-- The annotation is the only field that the API does not apply. -/
theorem annotated_field {path : List String} (outside : serverField path = false)
    (other : ∀ rest, path ≠ "metadata" :: "annotations" :: rest) :
    (document annotatedMetadata sampleSpec).field path =
      (document sampleMetadata sampleSpec).field path := by
  refine document_field outside fun key rest eq => ?_
  subst eq
  have unset : key ≠ "annotations" := fun eq => other rest (by rw [eq])
  simp only [serverField, List.mem_cons, List.not_mem_nil, or_false, decide_eq_false_iff_not,
    not_or] at outside
  simp [annotatedMetadata, List.lookup_append, Dict.lookup_cons_of_ne, unset, outside]

/-- The stored resource, with what the API has applied last. -/
def annotated (version : String) (managed : Json) : Stored where
  live := versioned annotatedMetadata version
  managed := managed
  foreign path := path = digestPath

/-- A rollback keeps the annotation. -/
theorem applied_annotated : Applied (some (annotated "1" (document sampleMetadata sampleSpec)))
    (versioned sampleMetadata "1") 2 (annotated "2" (versioned sampleMetadata "1")) := by
  have sent : ∀ path value, serverField path = false →
      (versioned sampleMetadata "1").field path = some value →
      (versioned annotatedMetadata "2").field path = some value := by
    intro path value outside found
    rw [versioned_field outside] at found ⊢
    rw [annotated_field outside, found]
    rintro rest rfl
    cases found
  refine ⟨rfl, fun path => rfl, fun path value outside found _ => ?_, fun path outside found => ?_,
    fun path stored outside absent eq own _ => ?_, fun path outside absent _ => ?_, rfl⟩
  · obtain ⟨inBody, leaf⟩ := Option.filter_eq_some_iff.1 found
    exact Option.filter_eq_some_iff.2 ⟨sent path value outside inBody, leaf⟩
  · exact ⟨[], sent path _ outside (Option.filter_eq_some_iff.1 found).1⟩
  · cases eq
    rw [versioned_field outside] at absent
    refine absurd ?_ own
    show ((document sampleMetadata sampleSpec).field path).filter Json.isLeaf = none
    rw [absent]
    rfl
  · show ((versioned annotatedMetadata "2").field path).filter Json.isLeaf =
      ((versioned annotatedMetadata "1").field path).filter Json.isLeaf
    rw [versioned_field outside, versioned_field outside]

theorem Cluster.Sound.put {times : Timestamps lax} {c : Cluster} (sound : c.Sound times)
    {key : String × String} {stored : Stored} (held : Held times stored.live)
    (versioned : Versioned stored.live c.nextVersion) : (c.put key stored).Sound times := by
  intro key' stored' found
  by_cases same : key' = key
  · subst same
    obtain rfl := Option.some.inj ((c.object_put_self key' stored).symm.trans found)
    exact ⟨held, c.nextVersion, Nat.lt_succ_self _, versioned⟩
  · rw [c.object_put_ne stored same] at found
    obtain ⟨held, version, past, versioned⟩ := sound key' stored' found
    exact ⟨held, version, past.trans (Nat.lt_succ_self _), versioned⟩

theorem held_annotated {version : String} (nonempty : version ≠ "") :
    Held secondsTimestamps (versioned annotatedMetadata version) :=
  ⟨⟨_, rfl, by decide⟩, Or.inl rfl, ⟨_, rfl⟩, ⟨_, rfl⟩, ⟨_, rfl⟩, ⟨_, nonempty, rfl⟩, ⟨0, rfl⟩⟩

/-- The row of the sample version. -/
def sampleRow : ModelVersion := ⟨⟨"m", "1", "image", none, []⟩, 1, 0⟩

/-- A registry with one version, which has no digest, and a cluster with the annotated resource. -/
def annotatedStores : Stores where
  registry := (Database.empty.addModel ⟨"m", none, 0, 0⟩ rfl).addVersion 0 sampleRow.toVersionRecord
    (by decide) rfl
  cluster := Cluster.empty.put ("m", "m") (annotated "1" (document sampleMetadata sampleSpec))

theorem sound_annotated : annotatedStores.cluster.Sound secondsTimestamps := by
  have empty : Cluster.empty.Sound secondsTimestamps := fun key stored absent => by cases absent
  exact empty.put (held_annotated (by decide)) rfl

/-- What the rollback has read when it writes. -/
def annotatedLog : List Event :=
  [⟨.kubernetes (.get "m" "m"), .ok (versioned annotatedMetadata "1")⟩,
    ⟨.query (.getVersion "m" "1"), some sampleRow⟩]

/-- The rollback at its write. -/
def annotatedThread : Thread Request Op Op.Reply (Except Failure Response) :=
  ⟨.rollbackDeployment sampleModel sampleModel ⟨sampleVersion⟩, annotatedLog,
    .call (.kubernetes (.patch "m" "m" (versioned sampleMetadata "1")))
      (afterWrite secondsCoercions sampleModel sampleModel)⟩

theorem annotated_reachable : (rollbackHost secondsTimestamps).Reachable annotatedStores
    ⟨annotatedStores, Function.update (fun _ => none) 0 (some annotatedThread)⟩ := by
  have start : (rollbackHost secondsTimestamps).Reachable annotatedStores _ := Host.Reachable.start
  have read : (rollbackHost secondsTimestamps).executes annotatedStores (.kubernetes (.get "m" "m"))
      (.ok (versioned annotatedMetadata "1")) annotatedStores :=
    ⟨⟨_, ⟨rfl, Or.inr ⟨_, Cluster.object_put_self .., rfl⟩⟩, rfl⟩, fun _ => rfl, sound_annotated⟩
  have looked : (rollbackHost secondsTimestamps).executes annotatedStores
      (.query (.getVersion "m" "1")) (some sampleRow) annotatedStores :=
    ⟨⟨_, ⟨0, rfl⟩, rfl⟩, nofun, sound_annotated⟩
  have started := start.step
    (.start 0 (.rollbackDeployment sampleModel sampleModel ⟨sampleVersion⟩) rfl)
  have atLookup := started.call (rollbackDeployment_eq ..) read
  have atWrite : (rollbackHost secondsTimestamps).Reachable annotatedStores
      ⟨annotatedStores, Function.update (fun _ => none) 0 (some
        ⟨.rollbackDeployment sampleModel sampleModel ⟨sampleVersion⟩, annotatedLog,
          afterLookup secondsCoercions sampleModel sampleModel ⟨sampleVersion⟩
            (versioned annotatedMetadata "1") sampleSpec "m" (some sampleRow)⟩)⟩ :=
    atLookup.call rfl looked
  rwa [@afterLookup_some _ _ _ _ _ _ (versioned sampleMetadata "1") _ _ rfl] at atWrite

/-- The write of the rollback. -/
theorem annotated_executes : (rollbackHost secondsTimestamps).executes annotatedStores
    (.kubernetes (.patch "m" "m" (versioned sampleMetadata "1")))
    (.ok (some (versioned annotatedMetadata "2")))
    ⟨annotatedStores.registry,
      annotatedStores.cluster.put ("m", "m") (annotated "2" (versioned sampleMetadata "1"))⟩ := by
  have stored : annotatedStores.cluster.object ("m", "m") =
      some (annotated "1" (document sampleMetadata sampleSpec)) := Cluster.object_put_self ..
  refine ⟨⟨_, Or.inr ⟨⟨?_, ?_⟩, _, ?_, rfl, Or.inr (Or.inl rfl)⟩, rfl⟩, nofun,
    sound_annotated.put (held_annotated (by decide)) rfl⟩
  · rintro version ⟨⟩
    exact ⟨_, stored, rfl⟩
  · intro stored' path value found outside sent foreign
    rw [stored] at found
    cases found
    obtain rfl : path = digestPath := of_decide_eq_true foreign
    cases sent
  · rw [stored]
    exact applied_annotated

theorem rollback_loses_no_update_annotated : ∃ t,
    NoLostUpdate sampleModel sampleModel ⟨sampleVersion⟩ annotatedStores t
      (afterWrite secondsCoercions sampleModel sampleModel
        (.ok (some (versioned annotatedMetadata "2")))) :=
  ⟨_, @rollback_loses_no_update _ _ _ _ _ _ _ sound_annotated _ annotated_reachable 0 annotatedLog _ _
    rfl _ annotated_executes⟩

/-- A rollback to a version without a digest succeeds, and the resource still has the digest that
another manager has set. -/
theorem rollback_keeps_foreign_digest : ∃ c t after,
    annotatedStores.cluster.Sound secondsTimestamps ∧
    (rollbackHost secondsTimestamps).Reachable annotatedStores c ∧
    c.thread 0 = some ⟨.rollbackDeployment sampleModel sampleModel ⟨sampleVersion⟩, annotatedLog,
      .call (.kubernetes (.patch "m" "m" (versioned sampleMetadata "1")))
        (afterWrite secondsCoercions sampleModel sampleModel)⟩ ∧
    (rollbackHost secondsTimestamps).executes c.shared
      (.kubernetes (.patch "m" "m" (versioned sampleMetadata "1")))
      (.ok (some (versioned annotatedMetadata "2"))) t ∧
    Succeeds (afterWrite secondsCoercions sampleModel sampleModel
      (.ok (some (versioned annotatedMetadata "2")))) ∧
    t.cluster.object ("m", "m") = some after ∧
    (c.shared.registry.version "m" "1").bind (·.artifactDigest) = none ∧
    after.live.field digestPath = some (.str "sha256:0") := by
  refine ⟨_, _, _, sound_annotated, annotated_reachable, rfl, annotated_executes, ?_,
    Cluster.object_put_self .., rfl, rfl⟩
  have allowed : ApiQuantities (versioned annotatedMetadata "2") := ⟨nofun, nofun⟩
  obtain ⟨value, read, -⟩ := (held_annotated (by decide)).exists_read allowed
  exact ⟨.deployment value, by rw [afterWrite, answerDeployment, read]⟩

end Kernexys.Api
