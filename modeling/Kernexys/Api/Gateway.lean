import Kernexys.Api.Resource

/-!
# ModelDeployments in Kubernetes

The custom resources as the gateway of `kubernetes.py` sees them.  The API applies documents
server-side under one field manager.  A call may fail, and the reply to one that took effect may be
lost.
-/

namespace Kernexys.Api

/-- A stored resource: the document, the body that the field manager applied last, and the fields that
other managers have set.  The leaves of that body are the fields it manages. -/
structure Stored where
  live : Json
  managed : Json
  foreign : List String → Bool := fun _ => false

/-- The resources by namespace and name. -/
structure Cluster where
  object : String × String → Option Stored
  nextVersion : ℕ

/-- Where a resource has its version. -/
def resourceVersionPath : List String := ["metadata", "resourceVersion"]

/-- The fields that the server sets itself, and the objects that hold them. -/
def serverField : List String → Bool
  | [] => true
  | ["metadata"] => true
  | "status" :: _ => true
  | "metadata" :: key :: _ =>
    key ∈ ["creationTimestamp", "generation", "managedFields", "resourceVersion", "uid"]
  | _ => false

theorem serverField_of_ne {key : String} (status : key ≠ "status") (metadata : key ≠ "metadata")
    (path : List String) : serverField (key :: path) = false := by
  unfold serverField
  split <;> simp_all

theorem serverField_append {path : List String} (outside : serverField path = false)
    (path' : List String) : serverField (path ++ path') = false := by
  cases path with
  | nil => cases outside
  | cons key path =>
    by_cases status : key = "status"
    · subst status
      cases outside
    by_cases metadata : key = "metadata"
    · subst metadata
      cases path with
      | nil => cases outside
      | cons key path => exact outside
    · exact serverField_of_ne status metadata (path ++ path')

/-- What applying a body makes of a resource: the fields of the body are replaced, the fields that
only this manager has set and that it no longer sends are removed, and other fields are kept.  An
empty object is merged with what is there. -/
structure Applied (before : Option Stored) (body : Json) (version : ℕ) (after : Stored) : Prop where
  managed : after.managed = body
  foreign : ∀ path, after.foreign path = before.any fun stored => stored.foreign path
  sent : ∀ path value, serverField path = false → body.leaf path = some value → value ≠ .obj [] →
    after.live.leaf path = some value
  merged : ∀ path, serverField path = false → body.leaf path = some (.obj []) →
    ∃ fields, after.live.field path = some (.obj fields)
  removed : ∀ path stored, serverField path = false → body.field path = none →
    before = some stored → stored.managed.leaf path ≠ none → stored.foreign path = false →
    after.live.leaf path = none
  kept : ∀ path, serverField path = false → body.field path = none →
    (∀ stored, before = some stored →
      stored.managed.leaf path = none ∨ stored.foreign path = true) →
    after.live.leaf path = before.bind fun stored => stored.live.leaf path
  resourceVersion : after.live.field resourceVersionPath = some (.str (toString version))

namespace Cluster

/-- A cluster without resources. -/
def empty : Cluster := ⟨fun _ => none, 1⟩

/-- The cluster after a write, which takes the next version. -/
def put (c : Cluster) (key : String × String) (stored : Stored) : Cluster :=
  ⟨Function.update c.object key (some stored), c.nextVersion + 1⟩

/-- The cluster after a deletion. -/
def erase (c : Cluster) (key : String × String) : Cluster :=
  { c with object := Function.update c.object key none }

theorem object_put_self (c : Cluster) (key : String × String) (stored : Stored) :
    (c.put key stored).object key = some stored := Function.update_self ..

theorem object_put_ne (c : Cluster) {key key' : String × String} (stored : Stored)
    (ne : key' ≠ key) : (c.put key stored).object key' = c.object key' :=
  Function.update_of_ne ne _ _

theorem object_erase_self (c : Cluster) (key : String × String) :
    (c.erase key).object key = none := Function.update_self ..

theorem object_erase_ne (c : Cluster) {key key' : String × String} (ne : key' ≠ key) :
    (c.erase key).object key' = c.object key' := Function.update_of_ne ne _ _

/-- A body that names a resource version is only for the resource that has it, and no body changes
what another manager has set. -/
structure Admits (c : Cluster) (key : String × String) (body : Json) : Prop where
  version : ∀ version, body.field resourceVersionPath = some version →
    ∃ stored, c.object key = some stored ∧ stored.live.field resourceVersionPath = some version
  unconflicted : ∀ stored path value, c.object key = some stored → serverField path = false →
    body.leaf path = some value → stored.foreign path = true → stored.live.leaf path = some value

end Cluster

/-- The calls of the Kubernetes client. -/
inductive KubernetesCall where
  | patch (ns name : String) (body : Json)
  | get (ns name : String)
  | delete (ns name : String)

/-- What a call returns.  The client returns nothing for a resource that a patch created. -/
abbrev KubernetesCall.Reply : KubernetesCall → Type
  | patch _ _ _ => Except DeploymentGatewayError (Option Json)
  | get _ _ => Except DeploymentGatewayError Json
  | delete _ _ => Except DeploymentGatewayError Unit

/-- A call that may change the cluster. -/
def KubernetesCall.isWrite : KubernetesCall → Bool
  | patch _ _ _ => true
  | get _ _ => false
  | delete _ _ => true

/-- What the cluster can make of a call. -/
def Cluster.Executes (c : Cluster) : (call : KubernetesCall) → call.Reply → Cluster → Prop
  | .patch ns name body, r, c' =>
    (c' = c ∧ ∃ e, r = .error e) ∨
      (c.Admits (ns, name) body ∧ ∃ stored,
        Applied (c.object (ns, name)) body c.nextVersion stored ∧ c' = c.put (ns, name) stored ∧
        ((∃ e, r = .error e) ∨ r = .ok (some stored.live) ∨
          (c.object (ns, name) = none ∧ r = .ok none)))
  | .get ns name, r, c' =>
    c' = c ∧ ((∃ e, r = .error e) ∨ ∃ stored, c.object (ns, name) = some stored ∧ r = .ok stored.live)
  | .delete ns name, r, c' =>
    (c' = c ∧ ∃ e, r = .error e) ∨
      (c.object (ns, name) ≠ none ∧ c' = c.erase (ns, name) ∧ ((∃ e, r = .error e) ∨ r = .ok ()))

/-- The controller reports the status of a resource: only fields of the server change. -/
def Cluster.Reports (c c' : Cluster) : Prop :=
  ∃ key stored live, c.object key = some stored ∧
    (∀ path, serverField path = false → live.leaf path = stored.live.leaf path) ∧
    c' = c.put key { stored with live := live }

/-- Nobody else has set fields, and outside the fields of the server, the document is the body that
was applied last. -/
structure Stored.Tracks (stored : Stored) : Prop where
  foreign : ∀ path, stored.foreign path = false
  leaf : ∀ path, serverField path = false → stored.live.leaf path = stored.managed.leaf path

section Applied

variable {before : Option Stored} {body : Json} {version : ℕ} {after : Stored}

/-- Where a body has fields, the document has fields. -/
theorem Applied.leaf_eq_none (applied : Applied before body version after) {path : List String}
    (outside : serverField path = false) {entry : String × Json} {fields : Dict}
    (inner : body.field path = some (.obj (entry :: fields))) : after.live.leaf path = none := by
  obtain ⟨key, path', value, found⟩ := Json.exists_leaf_below entry fields
  rw [← Json.leaf_append inner] at found
  have below := serverField_append outside (key :: path')
  by_cases empty : value = .obj []
  · subst empty
    obtain ⟨merged, found⟩ := applied.merged _ below found
    exact Json.leaf_eq_none_of_below found
  · have sent := applied.sent _ _ below found empty
    exact Json.leaf_eq_none_of_below (Option.filter_eq_some_iff.1 sent).1

/-- With one field manager, a field that is not sent is gone. -/
theorem Applied.gone (applied : Applied before body version after)
    (tracks : ∀ stored, before = some stored → stored.Tracks) {path : List String}
    (outside : serverField path = false) (absent : body.field path = none) :
    after.live.leaf path = none := by
  cases before with
  | none => exact applied.kept path outside absent (by simp)
  | some stored =>
    obtain ⟨foreign, leaf⟩ := tracks stored rfl
    by_cases owned : stored.managed.leaf path = none
    · rw [applied.kept path outside absent (by simp [owned]), Option.bind_some, leaf path outside, owned]
    · exact applied.removed path stored outside absent rfl owned (foreign path)

/-- With one field manager, a resource is what was applied last. -/
theorem Applied.tracks (applied : Applied before body version after)
    (tracks : ∀ stored, before = some stored → stored.Tracks) : after.Tracks := by
  refine ⟨fun path => ?_, fun path outside => ?_⟩
  · rw [applied.foreign]
    cases before with
    | none => rfl
    | some stored => exact (tracks stored rfl).foreign path
  rw [applied.managed]
  cases found : body.field path with
  | none =>
    rw [applied.gone tracks outside found, Json.leaf, found]
    rfl
  | some value =>
    cases leaf : value.isLeaf with
    | false =>
      obtain ⟨entry, fields, rfl⟩ := Json.exists_fields_of_isLeaf_eq_false leaf
      rw [applied.leaf_eq_none outside found, Json.leaf, found]
      rfl
    | true =>
      have sent : body.leaf path = some value := by
        rw [Json.leaf, found]
        simp [leaf]
      rw [sent]
      by_cases empty : value = .obj []
      · subst empty
        obtain ⟨fields, merged⟩ := applied.merged path outside sent
        cases fields with
        | nil =>
          rw [Json.leaf, merged]
          rfl
        | cons entry fields =>
          -- a field below the empty object was not sent
          obtain ⟨key, path', inner, below⟩ := Json.exists_leaf_below entry fields
          rw [← Json.leaf_append merged] at below
          have absent : body.field (path ++ key :: path') = none := by
            rw [Json.field_append, found]
            rfl
          rw [applied.gone tracks (serverField_append outside _) absent] at below
          cases below
      · exact applied.sent path value outside sent empty

end Applied

end Kernexys.Api
