import Kernexys.Controller.Reconcile

/-!
# The API server

A cluster holds one object per kind and name and, for reads that are behind, every version it ever
stored.  Each stored version gets a resource version of its own.  `serve` is the API server that
answers from the stored state and refuses only what it must; `Executes` also allows calls to fail,
replies to be lost and reads to be stale.
-/

namespace Kernexys.Controller

section Update

variable {α : Kind → Type}

/-- Replace the entry of one kind and name. -/
def setEntry (f : (k : Kind) → NamespacedName → α k) (k : Kind) (key : NamespacedName) (a : α k) :
    (k : Kind) → NamespacedName → α k :=
  Function.update f k (Function.update (f k) key a)

variable (f : (k : Kind) → NamespacedName → α k) {k : Kind} {key : NamespacedName}

@[simp] theorem setEntry_self (a : α k) : setEntry f k key a k key = a := by
  simp [setEntry]

theorem setEntry_ne (a : α k) {k' : Kind} {key' : NamespacedName} (ne : k' = k → key' ≠ key) :
    setEntry f k key a k' key' = f k' key' := by
  by_cases same : k' = k
  · subst same
    simp [setEntry, Function.update_of_ne (ne rfl)]
  · simp [setEntry, Function.update_of_ne same]

/-- What holds of the new entry and of all old ones holds of all entries. -/
theorem forall_setEntry {P : (k : Kind) → NamespacedName → α k → Prop} {a : α k} (new : P k key a)
    (old : ∀ k' key', P k' key' (f k' key')) (k' : Kind) (key' : NamespacedName) :
    P k' key' (setEntry f k key a k' key') := by
  by_cases same : k' = k ∧ key' = key
  · obtain ⟨rfl, rfl⟩ := same
    rw [setEntry_self]
    exact new
  · rw [setEntry_ne f a fun hk hkey => same ⟨hk, hkey⟩]
    exact old k' key'

end Update

/-- The stored objects and every version ever stored, newest first. -/
structure Cluster where
  object : (k : Kind) → NamespacedName → Option k.Object
  history : (k : Kind) → NamespacedName → List k.Object
  nextVersion : ℕ
  clock : ℤ
  keyed : ∀ k key, ∀ o ∈ history k key, o.metadata.key = key
  versioned : ∀ k key, ∀ o ∈ history k key, ∃ v < nextVersion, o.metadata.resourceVersion = some v
  distinct : ∀ k key, ∀ o ∈ history k key, ∀ o' ∈ history k key,
    o.metadata.resourceVersion = o'.metadata.resourceVersion → o = o'
  stored : ∀ k key, ∀ o ∈ object k key, o ∈ history k key

namespace Cluster

/-- A cluster without objects. -/
def empty : Cluster where
  object _ _ := none
  history _ _ := []
  nextVersion := 0
  clock := 0
  keyed := by simp
  versioned := by simp
  distinct := by simp
  stored := by simp

/-- The object under the next resource version. -/
def stamp (c : Cluster) {k : Kind} (o : k.Object) : k.Object :=
  { o with metadata := { o.metadata with resourceVersion := some c.nextVersion } }

/-- Store a new version of an object. -/
def put (c : Cluster) (k : Kind) (o : k.Object) : Cluster where
  object := setEntry c.object k o.metadata.key (some (c.stamp o))
  history := setEntry c.history k o.metadata.key (c.stamp o :: c.history k o.metadata.key)
  nextVersion := c.nextVersion + 1
  clock := c.clock
  keyed := by
    refine forall_setEntry c.history (P := fun _ key l => ∀ o ∈ l, o.metadata.key = key) ?_ c.keyed
    simp only [List.forall_mem_cons]
    exact ⟨rfl, c.keyed k _⟩
  versioned := by
    have old : ∀ k key, ∀ o ∈ c.history k key, ∃ v < c.nextVersion + 1,
        o.metadata.resourceVersion = some v := by
      intro k key o mem
      obtain ⟨v, lt, eq⟩ := c.versioned k key o mem
      exact ⟨v, by omega, eq⟩
    refine forall_setEntry c.history (P := fun _ _ l => ∀ o ∈ l, ∃ v < c.nextVersion + 1,
      o.metadata.resourceVersion = some v) ?_ old
    simp only [List.forall_mem_cons]
    exact ⟨⟨c.nextVersion, by omega, rfl⟩, old k _⟩
  distinct := by
    have fresh : ∀ o' ∈ c.history k o.metadata.key,
        o'.metadata.resourceVersion ≠ (c.stamp o).metadata.resourceVersion := by
      intro o' mem eq
      obtain ⟨v, lt, eq'⟩ := c.versioned k _ o' mem
      rw [eq'] at eq
      have := Option.some.inj eq
      omega
    refine forall_setEntry c.history (P := fun _ _ l => ∀ o ∈ l, ∀ o' ∈ l,
      o.metadata.resourceVersion = o'.metadata.resourceVersion → o = o') ?_ c.distinct
    intro o₁ mem₁ o₂ mem₂ eq
    rcases List.mem_cons.1 mem₁ with rfl | old₁
    · rcases List.mem_cons.1 mem₂ with rfl | old₂
      · rfl
      · exact absurd eq.symm (fresh o₂ old₂)
    · rcases List.mem_cons.1 mem₂ with rfl | old₂
      · exact absurd eq (fresh o₁ old₁)
      · exact c.distinct k _ o₁ old₁ o₂ old₂ eq
  stored := by
    intro k' key' o' mem
    by_cases same : k' = k ∧ key' = o.metadata.key
    · obtain ⟨rfl, rfl⟩ := same
      rw [setEntry_self] at mem ⊢
      obtain rfl := Option.some.inj mem
      exact List.mem_cons_self
    · rw [setEntry_ne _ _ fun hk hkey => same ⟨hk, hkey⟩] at mem ⊢
      exact c.stored k' key' o' mem

/-- Delete an object; its old versions may still be read. -/
def delete (c : Cluster) (k : Kind) (key : NamespacedName) : Cluster where
  object := setEntry c.object k key none
  history := c.history
  nextVersion := c.nextVersion
  clock := c.clock
  keyed := c.keyed
  versioned := c.versioned
  distinct := c.distinct
  stored := by
    refine forall_setEntry c.object (P := fun k key o => ∀ x ∈ o, x ∈ c.history k key) ?_ c.stored
    intro x mem
    cases mem

theorem put_object_self (c : Cluster) (k : Kind) (o : k.Object) :
    (c.put k o).object k o.metadata.key = some (c.stamp o) := setEntry_self _ _

theorem put_object_ne (c : Cluster) {k : Kind} (o : k.Object) {k' : Kind} {key : NamespacedName}
    (ne : k' = k → key ≠ o.metadata.key) : (c.put k o).object k' key = c.object k' key :=
  setEntry_ne _ _ ne

theorem put_history_self (c : Cluster) (k : Kind) (o : k.Object) :
    (c.put k o).history k o.metadata.key = c.stamp o :: c.history k o.metadata.key :=
  setEntry_self _ _

theorem put_history_ne (c : Cluster) {k : Kind} (o : k.Object) {k' : Kind} {key : NamespacedName}
    (ne : k' = k → key ≠ o.metadata.key) : (c.put k o).history k' key = c.history k' key :=
  setEntry_ne _ _ ne

theorem put_ne_self (c : Cluster) {k : Kind} (o : k.Object) : c.put k o ≠ c := by
  intro eq
  have := congrArg nextVersion eq
  simp [put] at this

/-- A version that has the resource version of the stored one is the stored one. -/
theorem eq_of_resourceVersion (c : Cluster) {k : Kind} {key : NamespacedName} {o v : k.Object}
    (stored : c.object k key = some v) (seen : o ∈ c.history k key)
    (same : o.metadata.resourceVersion = v.metadata.resourceVersion) : o = v :=
  c.distinct k key o seen v (c.stored k key v stored) same

/-! ## Accepted writes -/

/-- The version stored for a create, when the name is free. -/
def acceptCreate (c : Cluster) (k : Kind) (o : k.Object) : Option k.Object :=
  match c.object k o.metadata.key with
  | some _ => none
  | none => some { o with metadata := { o.metadata with generation := 1 }, status := k.emptyStatus }

/-- The version stored for an update, when the resource version is the stored one; the update does
not touch the status. -/
def acceptUpdate (c : Cluster) (k : Kind) (o : k.Object) : Option k.Object :=
  match c.object k o.metadata.key with
  | none => none
  | some v =>
    if v.metadata.resourceVersion = o.metadata.resourceVersion then
      some
        { o with
          metadata :=
            { o.metadata with
              generation :=
                if v.spec = o.spec then v.metadata.generation else v.metadata.generation + 1 }
          status := v.status }
    else none

/-- The version stored for a status update, when the resource version is the stored one; it touches
nothing but the status. -/
def acceptStatus (c : Cluster) (o : ModelDeployment) : Option ModelDeployment :=
  match c.object .modelDeployment o.metadata.key with
  | none => none
  | some v =>
    if v.metadata.resourceVersion = o.metadata.resourceVersion then
      some { v with status := o.status }
    else none

/-- The reply to a write that the server accepts or refuses. -/
def write (c : Cluster) (k : Kind) (refusal : ErrorReason) :
    Option k.Object → Except ApiError k.Object × Cluster
  | some v => (.ok (c.stamp v), c.put k v)
  | none => (.error ⟨refusal, "the server refused the request"⟩, c)

/-- The error of a read that finds nothing. -/
def notFoundError : ApiError := ⟨.notFound, "the server could not find the requested resource"⟩

/-- The API server that answers from the stored state. -/
def serve : (op : Op) → Cluster → op.Reply × Cluster
  | .get k key, c =>
    (match c.object k key with
      | some o => .ok o
      | none => .error notFoundError, c)
  | .create k o, c => c.write k .alreadyExists (c.acceptCreate k o)
  | .update k o, c => c.write k .conflict (c.acceptUpdate k o)
  | .updateStatus o, c => c.write .modelDeployment .conflict (c.acceptStatus o)
  | .now, c => (fun _ => c.clock, c)

theorem serve_get_of_stored {c : Cluster} {k : Kind} {key : NamespacedName} {o : k.Object}
    (stored : c.object k key = some o) : serve (.get k key) c = (.ok o, c) := by
  simp only [serve, stored]

theorem serve_get_of_absent {c : Cluster} {k : Kind} {key : NamespacedName}
    (absent : c.object k key = none) : serve (.get k key) c = (.error notFoundError, c) := by
  simp only [serve, absent]

theorem serve_create_of_accepted {c : Cluster} {k : Kind} {o v : k.Object}
    (accepted : c.acceptCreate k o = some v) :
    serve (.create k o) c = (.ok (c.stamp v), c.put k v) := by
  simp only [serve, accepted, write]

theorem serve_update_of_accepted {c : Cluster} {k : Kind} {o v : k.Object}
    (accepted : c.acceptUpdate k o = some v) :
    serve (.update k o) c = (.ok (c.stamp v), c.put k v) := by
  simp only [serve, accepted, write]

/-- A status update that is answered with an object has changed the cluster. -/
theorem serve_updateStatus_ne {c : Cluster} {o v : ModelDeployment}
    (answer : (serve (.updateStatus o) c).1 = .ok v) : (serve (.updateStatus o) c).2 ≠ c := by
  simp only [serve] at answer ⊢
  cases accepted : c.acceptStatus o with
  | none =>
    rw [accepted] at answer
    cases answer
  | some stored => exact c.put_ne_self (k := .modelDeployment) stored

/-! ## Calls that may fail -/

/-- How a write may end: it fails and changes nothing, or the accepted version is stored and the
reply gets through or is lost. -/
def Writes (c : Cluster) (k : Kind) (accepted : Option k.Object) (r : Except ApiError k.Object)
    (c' : Cluster) : Prop :=
  (c' = c ∧ ∃ e, r = .error e) ∨
    ∃ v, accepted = some v ∧ c' = c.put k v ∧ (r = .ok (c.stamp v) ∨ ∃ e, r = .error e)

/-- How a call may end.  A read may fail, find nothing or return any version ever stored. -/
def Executes (c : Cluster) : (op : Op) → op.Reply → Cluster → Prop
  | .get k key, r, c' => c' = c ∧ ∀ o, r = .ok o → o ∈ c.history k key
  | .create k o, r, c' => c.Writes k (c.acceptCreate k o) r c'
  | .update k o, r, c' => c.Writes k (c.acceptUpdate k o) r c'
  | .updateStatus o, r, c' => c.Writes .modelDeployment (c.acceptStatus o) r c'
  | .now, _, c' => c' = c

theorem writes_write (c : Cluster) (k : Kind) (refusal : ErrorReason) (accepted : Option k.Object) :
    c.Writes k accepted (c.write k refusal accepted).1 (c.write k refusal accepted).2 := by
  cases accepted with
  | some v => exact Or.inr ⟨v, rfl, rfl, Or.inl rfl⟩
  | none => exact Or.inl ⟨rfl, _, rfl⟩

/-- The answers of `serve` are among those that `Executes` allows. -/
theorem executes_serve (op : Op) (c : Cluster) : c.Executes op (serve op c).1 (serve op c).2 := by
  cases op with
  | get k key =>
    refine ⟨rfl, fun o answer => c.stored k key o ?_⟩
    simp only [serve] at answer
    split at answer
    · rename_i o' found
      obtain rfl := Except.ok.inj answer
      exact found
    · cases answer
  | create k o => exact c.writes_write k _ _
  | update k o => exact c.writes_write k _ _
  | updateStatus o => exact c.writes_write .modelDeployment _ _
  | now => rfl

theorem acceptCreate_of_absent (c : Cluster) {k : Kind} {o : k.Object}
    (absent : c.object k o.metadata.key = none) : c.acceptCreate k o =
      some { o with metadata := { o.metadata with generation := 1 }, status := k.emptyStatus } := by
  simp only [acceptCreate, absent]

theorem acceptUpdate_of_stored (c : Cluster) {k : Kind} {o before : k.Object}
    (stored : c.object k o.metadata.key = some before)
    (same : before.metadata.resourceVersion = o.metadata.resourceVersion) : c.acceptUpdate k o =
      some
        { o with
          metadata :=
            { o.metadata with
              generation :=
                if before.spec = o.spec then before.metadata.generation
                else before.metadata.generation + 1 }
          status := before.status } := by
  simp only [acceptUpdate, stored, same, if_true]

theorem acceptCreate_eq_some {c : Cluster} {k : Kind} {o v : k.Object}
    (accepted : c.acceptCreate k o = some v) : c.object k o.metadata.key = none ∧
      v = { o with metadata := { o.metadata with generation := 1 }, status := k.emptyStatus } := by
  unfold acceptCreate at accepted
  split at accepted
  · cases accepted
  · rename_i free
    exact ⟨free, (Option.some.inj accepted).symm⟩

theorem acceptUpdate_eq_some {c : Cluster} {k : Kind} {o v : k.Object}
    (accepted : c.acceptUpdate k o = some v) : ∃ before, c.object k o.metadata.key = some before ∧
      before.metadata.resourceVersion = o.metadata.resourceVersion ∧
      v.metadata.key = o.metadata.key := by
  unfold acceptUpdate at accepted
  split at accepted
  · cases accepted
  · rename_i before found
    by_cases same : before.metadata.resourceVersion = o.metadata.resourceVersion
    · rw [if_pos same] at accepted
      obtain rfl := Option.some.inj accepted
      exact ⟨before, found, same, rfl⟩
    · rw [if_neg same] at accepted
      cases accepted

theorem acceptStatus_eq_some {c : Cluster} {o v : ModelDeployment}
    (accepted : c.acceptStatus o = some v) : ∃ before,
      c.object .modelDeployment o.metadata.key = some before ∧
      before.metadata.resourceVersion = o.metadata.resourceVersion ∧
      v = { before with status := o.status } := by
  unfold acceptStatus at accepted
  split at accepted
  · cases accepted
  · rename_i before found
    split_ifs at accepted with same
    exact ⟨before, found, same, (Option.some.inj accepted).symm⟩

end Cluster

end Kernexys.Controller
