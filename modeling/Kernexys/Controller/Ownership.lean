import Kernexys.Controller.System

/-!
# Ownership safety under interference

Any number of reconciles run together with clients that may create, change, re-own or delete any
object at any moment, reads may be stale, and calls may fail.  The controller still never writes
over an object that the ModelDeployment does not control: the check is made on a version that was
read, and an update that is accepted meets exactly that version.
-/

namespace Kernexys.Controller

/-- Other clients may store any version of any object, and delete any object. -/
inductive Foreign (c : Cluster) : Cluster → Prop where
  | put (k : Kind) (o : k.Object) : Foreign c (c.put k o)
  | delete (k : Kind) (key : NamespacedName) : Foreign c (c.delete k key)

theorem Foreign.grows {c c' : Cluster} (foreign : Foreign c c') : c.Grows c' := by
  cases foreign with
  | put k o => exact c.grows_put k o
  | delete k key => exact fun _ _ _ => id

/-! ## The check of a child step -/

section Child

variable {k : Kind} {md : ModelDeployment} {g : k.Object → k.Object}

/-- What a successful mutate says of the object it was given and the one it made. -/
theorem mutate_owned_inv {key : NamespacedName} {existing o : k.Object}
    (mutated : mutate (mutateOwned k md g) key existing = .ok o) :
    o.metadata.key = key ∧
      (existing.metadata.resourceVersion ≠ none → ControlledBy md existing.metadata) ∧
      ∃ owners, o = g { existing with
        metadata := { existing.metadata with ownerReferences := owners } } := by
  unfold mutate mutateOwned at mutated
  cases owned : ensureControllerOwnership k.goType md existing.metadata with
  | error e =>
    rw [owned] at mutated
    cases mutated
  | ok metadata =>
    obtain ⟨-, own, rfl⟩ := ensureControllerOwnership_eq_ok_iff.1 owned
    rw [owned] at mutated
    dsimp only at mutated
    split_ifs at mutated with same
    obtain rfl := Except.ok.inj mutated
    refine ⟨same, fun version => ?_, _, rfl⟩
    rcases own with ⟨new, -⟩ | controlled
    · exact absurd new version
    · exact controlled

/-- The event is not a refusal of the step for the children of kind `k`: no failed write, and no
read of an object that `md` does not control. -/
structure Clean (md : ModelDeployment) (k : Kind) (event : Event) : Prop where
  create : ∀ o e, event ≠ ⟨.create k o, .error e⟩
  update : ∀ o e, event ≠ ⟨.update k o, .error e⟩
  get : ∀ key v, event = ⟨.get k key, .ok v⟩ → ControlledBy md v.metadata

theorem clean_of_on {event : Event} (on : event.1.on ≠ some k) : Clean md k event := by
  refine ⟨?_, ?_, ?_⟩
  · rintro o e rfl
    exact on rfl
  · rintro o e rfl
    exact on rfl
  · rintro key v rfl
    exact absurd rfl on

theorem clean_get_error (key : NamespacedName) (e : ApiError) :
    Clean md k ⟨.get k key, .error e⟩ :=
  ⟨by rintro _ _ ⟨⟩, by rintro _ _ ⟨⟩, by rintro _ _ ⟨⟩⟩

theorem clean_get_ok (key : NamespacedName) {v : k.Object} (controlled : ControlledBy md v.metadata) :
    Clean md k ⟨.get k key, .ok v⟩ := by
  refine ⟨by rintro _ _ ⟨⟩, by rintro _ _ ⟨⟩, ?_⟩
  rintro _ _ ⟨⟩
  exact controlled

theorem clean_create_ok (o v : k.Object) : Clean md k ⟨.create k o, .ok v⟩ :=
  ⟨by rintro _ _ ⟨⟩, by rintro _ _ ⟨⟩, by rintro _ _ ⟨⟩⟩

theorem clean_update_ok (o v : k.Object) : Clean md k ⟨.update k o, .ok v⟩ :=
  ⟨by rintro _ _ ⟨⟩, by rintro _ _ ⟨⟩, by rintro _ _ ⟨⟩⟩

/-- A child step that succeeds has met no refusal. -/
theorem ChildEnds.clean {object v : k.Object} {step : List Event}
    (ends : ChildEnds k object (mutateOwned k md g) step (.ok v))
    (versions : ∀ key o, (⟨.get k key, .ok o⟩ : Event) ∈ step → o.metadata.resourceVersion ≠ none)
    {event : Event} (mem : event ∈ step) : Clean md k event := by
  cases ends with
  | created missing mutated =>
    simp only [List.mem_cons, List.not_mem_nil, or_false] at mem
    rcases mem with rfl | rfl
    · exact clean_get_error _ _
    · exact clean_create_ok _ _
  | unchanged mutated =>
    rw [List.mem_singleton.1 mem]
    exact clean_get_ok _ ((mutate_owned_inv mutated).2.1 (versions _ _ List.mem_cons_self))
  | updated mutated changed =>
    simp only [List.mem_cons, List.not_mem_nil, or_false] at mem
    rcases mem with rfl | rfl
    · exact clean_get_ok _ ((mutate_owned_inv mutated).2.1 (versions _ _ List.mem_cons_self))
    · exact clean_update_ok _ _

end Child

/-! ## Refusals -/

/-- The log shows that a child step was refused: a write of the child failed, or the child that was
read is not controlled by the ModelDeployment that was read. -/
def Refused (k : Kind) (log : List Event) : Prop :=
  (∃ o e, (⟨.create k o, .error e⟩ : Event) ∈ log) ∨
    (∃ o e, (⟨.update k o, .error e⟩ : Event) ∈ log) ∨
    ∃ key key' md v, (⟨.get .modelDeployment key, .ok md⟩ : Event) ∈ log ∧
      (⟨.get k key', .ok v⟩ : Event) ∈ log ∧ ¬ ControlledBy md v.metadata

section Log

variable {order : MapOrder} {request : NamespacedName} {log : List Event}

/-- The calls of a log are those of a reconcile. -/
def Made (order : MapOrder) (request : NamespacedName) (log : List Event) : Prop :=
  ∀ pre op r post, log = pre ++ ⟨op, r⟩ :: post → Stage order request pre op

theorem Made.mem (made : Made order request log) {event : Event} (mem : event ∈ log) :
    ∃ pre post, log = pre ++ event :: post ∧ Stage order request pre event.1 := by
  obtain ⟨pre, post, split⟩ := List.append_of_mem mem
  exact ⟨pre, post, split, made pre event.1 event.2 post split⟩

/-- The ModelDeployment is read once, first. -/
theorem Made.read (made : Made order request log) {key : NamespacedName}
    {r : Except ApiError ModelDeployment}
    (mem : (⟨.get .modelDeployment key, r⟩ : Event) ∈ log) :
    ∃ rest, log = ⟨.get .modelDeployment request, r⟩ :: rest := by
  obtain ⟨pre, post, split, stage⟩ := made.mem mem
  obtain ⟨rfl, same⟩ := stage.modelDeployment_inv rfl
  cases same
  exact ⟨post, split⟩

theorem not_refused {md : ModelDeployment} {k : Kind} {rest : List Event}
    (made : Made order request log)
    (first : log = ⟨.get .modelDeployment request, .ok md⟩ :: rest)
    (clean : ∀ event ∈ log, Clean md k event) : ¬ Refused k log := by
  rintro (⟨o, e, mem⟩ | ⟨o, e, mem⟩ | ⟨key, key', md', v, read, mem, foreign⟩)
  · exact (clean _ mem).create o e rfl
  · exact (clean _ mem).update o e rfl
  · obtain ⟨rest', first'⟩ := made.read read
    rw [first] at first'
    cases first'
    exact foreign ((clean _ mem).get key' v rfl)

/-- When the Service is written, the Deployment step has met no refusal. -/
theorem Made.service_written (made : Made order request log)
    (versions : ∀ k key o, (⟨.get k key, .ok o⟩ : Event) ∈ log → o.metadata.resourceVersion ≠ none)
    {event : Event} (mem : event ∈ log) (on : event.1.on = some .service)
    (write : event.1.isWrite = true) : ¬ Refused .deployment log := by
  obtain ⟨pre, post, split, stage⟩ := made.mem mem
  obtain ⟨md, step, d, step', before, ends, call⟩ := stage.service_inv on
  have first : log = ⟨.get .modelDeployment request, .ok md⟩ :: (step ++ step' ++ event :: post) := by
    rw [split, before]
    rfl
  refine not_refused made first fun other mem' => ?_
  by_cases here : other.1.on = some .deployment
  · rw [first] at mem'
    simp only [List.mem_cons, List.mem_append] at mem'
    rcases mem' with rfl | (early | early) | rfl | late
    · cases here
    · exact ends.clean (fun key o seen => versions .deployment key o (by
        rw [first]
        simp [seen])) early
    · rw [call.mem early] at here
      cases here
    · rw [on] at here
      cases here
    · obtain ⟨mid, last, rfl⟩ := List.append_of_mem late
      have after := made (pre ++ event :: mid) other.1 other.2 last (by simp [split])
      obtain ⟨md', step'', shape, call'⟩ := after.deployment_inv here
      have inStep : event ∈ (⟨.get .modelDeployment request, .ok md'⟩ :: step'' : List Event) := by
        rw [← shape]
        simp
      rcases List.mem_cons.1 inStep with rfl | inStep
      · cases on
      · rw [call'.mem inStep] at on
        cases on
  · exact clean_of_on here

/-- A reconcile whose log shows a refusal returns an error. -/
theorem Ends.error_of_refused {result : Option String} {k : Kind}
    (ends : Ends order request log result) (made : Made order request log)
    (versions : ∀ k key o, (⟨.get k key, .ok o⟩ : Event) ∈ log → o.metadata.resourceVersion ≠ none)
    (child : k ≠ .modelDeployment) (refused : Refused k log) : result ≠ none := by
  have single : ∀ r, ¬ Refused k [⟨.get .modelDeployment request, r⟩] := by
    rintro r (⟨o, e, mem⟩ | ⟨o, e, mem⟩ | ⟨key, key', md, v, -, mem, -⟩)
    · cases List.mem_singleton.1 mem
    · cases List.mem_singleton.1 mem
    · cases List.mem_singleton.1 mem
      exact child rfl
  cases ends with
  | missing | unread | deleting => exact absurd refused (single _)
  | @done md body desired error now last _ live ends status kept =>
    by_cases met : error = none
    · refine absurd refused (not_refused made rfl fun event mem => ?_)
      have tail : ∀ event ∈ (⟨.now, now⟩ :: last : List Event), event.1.on = none := by
        intro event mem
        rcases List.mem_cons.1 mem with rfl | mem
        · rfl
        · rcases status with rfl | ⟨r, rfl⟩
          · cases mem
          · rw [List.mem_singleton.1 mem]
            rfl
      rcases List.mem_cons.1 mem with rfl | mem
      · exact clean_of_on fun on => child (Option.some.inj on).symm
      rcases List.mem_append.1 mem with inBody | inTail
      · subst met
        cases ends with
        | invalid => cases inBody
        | observed valid ends ends' =>
          rcases List.mem_append.1 inBody with inStep | inStep
          · cases k with
            | modelDeployment => exact absurd rfl child
            | deployment =>
              exact ends.clean (fun key o seen => versions _ key o (by simp [seen])) inStep
            | service => exact clean_of_on (by rw [ends.on inStep]; simp)
          · cases k with
            | modelDeployment => exact absurd rfl child
            | deployment => exact clean_of_on (by rw [ends'.on inStep]; simp)
            | service =>
              exact ends'.clean (fun key o seen => versions _ key o (by simp [seen])) inStep
      · exact clean_of_on (by rw [tail event inTail]; simp)
    · exact kept met

/-- A reconcile that found no ModelDeployment, or one that is being deleted, writes nothing. -/
theorem Made.no_write (made : Made order request log) {key : NamespacedName}
    {r : Except ApiError ModelDeployment}
    (read : (⟨.get .modelDeployment key, r⟩ : Event) ∈ log)
    (gone : ∀ md, r = .ok md → md.metadata.deletionTimestamp ≠ none) {event : Event}
    (mem : event ∈ log) : event.1.isWrite = false := by
  by_contra write
  rw [Bool.not_eq_false] at write
  obtain ⟨rest, first⟩ := made.read read
  obtain ⟨pre, post, split, stage⟩ := made.mem mem
  obtain ⟨md, rest', before, live⟩ := stage.write_inv write
  rw [before, first] at split
  cases (List.cons.inj split).1
  exact gone md rfl live

end Log

/-! ## Accepted writes -/

/-- An update is made on the version that was read, which passed the check. -/
theorem Stage.update_inv {order : MapOrder} {request : NamespacedName} {log : List Event} {k : Kind}
    {o : k.Object} (stage : Stage order request log (.update k o)) :
    ∃ md existing, (⟨.get .modelDeployment request, .ok md⟩ : Event) ∈ log ∧
      (⟨.get k o.metadata.key, .ok existing⟩ : Event) ∈ log ∧
      o.metadata.key = md.metadata.key ∧
      o.metadata.resourceVersion = existing.metadata.resourceVersion ∧
      (existing.metadata.resourceVersion ≠ none → ControlledBy md existing.metadata) := by
  cases k with
  | modelDeployment =>
    cases (stage.modelDeployment_inv rfl).2
  | deployment =>
    obtain ⟨md, step, rfl, call⟩ := stage.deployment_inv rfl
    cases call with
    | update mutated changed =>
      obtain ⟨key, controlled, owners, made⟩ := mutate_owned_inv mutated
      refine ⟨md, _, List.mem_cons_self, ?_, key, by rw [made]; rfl, controlled⟩
      rw [key]
      simp
  | service =>
    obtain ⟨md, step, d, step', rfl, ends, call⟩ := stage.service_inv rfl
    cases call with
    | update mutated changed =>
      obtain ⟨key, controlled, owners, made⟩ := mutate_owned_inv mutated
      refine ⟨md, _, List.mem_cons_self, ?_, key, by rw [made]; rfl, controlled⟩
      rw [key]
      simp

/-- What holds in a state of the system about the children the controller writes. -/
structure OwnershipSafe (c : Config Cluster Job Op Op.Reply (Option String)) : Prop where
  /-- A create that does not fail meets a free name. -/
  create : ∀ i job log k o next r t, c.thread i = some ⟨job, log, .call (.create k o) next⟩ →
    c.shared.Executes (.create k o) r t →
      (t = c.shared ∧ ∃ e, r = .error e) ∨ c.shared.object k o.metadata.key = none
  /-- An update that does not fail meets an object that the ModelDeployment controls. -/
  update : ∀ i job log k o next r t, c.thread i = some ⟨job, log, .call (.update k o) next⟩ →
    c.shared.Executes (.update k o) r t →
      (t = c.shared ∧ ∃ e, r = .error e) ∨
        ∃ md v, (⟨.get .modelDeployment o.metadata.key, .ok md⟩ : Event) ∈ log ∧
          c.shared.object k o.metadata.key = some v ∧ ControlledBy md v.metadata
  /-- A reconcile that met a refusal returns an error. -/
  refused : ∀ i job log result k, c.thread i = some ⟨job, log, .ret result⟩ → k ≠ .modelDeployment →
    Refused k log → result ≠ none
  /-- A reconcile whose Deployment step was refused does not write the Service. -/
  service : ∀ i th, c.thread i = some th → Refused .deployment th.log →
    ∀ event ∈ th.log, event.1.on = some .service → event.1.isWrite = false
  /-- A reconcile of a missing or deleting ModelDeployment writes nothing. -/
  gone : ∀ i th key r, c.thread i = some th → (⟨.get .modelDeployment key, r⟩ : Event) ∈ th.log →
    (∀ md, r = .ok md → md.metadata.deletionTimestamp ≠ none) →
    ∀ event ∈ th.log, event.1.isWrite = false

/-- The versions in a log carry a resource version. -/
theorem resourceVersion_of_seen {c : Cluster} {log : List Event} (seen : ∀ event ∈ log, Seen c event)
    (k : Kind) (key : NamespacedName) (o : k.Object)
    (mem : (⟨.get k key, .ok o⟩ : Event) ∈ log) : o.metadata.resourceVersion ≠ none := by
  obtain ⟨v, -, eq⟩ := c.versioned k key o ((seen _ mem).get k key o rfl)
  simp [eq]

/-- With clients that may do anything to any object, stale reads and calls that may fail, the
controller never writes over a child that its ModelDeployment does not control. -/
theorem reconcile_ownership_safe {c₀ : Cluster} {c : Config Cluster Job Op Op.Reply (Option String)}
    (reach : (controllerHost Foreign).Reachable c₀ c) : OwnershipSafe c := by
  obtain ⟨-, follows, seen⟩ := verified_of_reachable (fun _ _ => Foreign.grows) reach
  refine ⟨fun i job log k o next r t running executed => ?_,
    fun i job log k o next r t running executed => ?_, fun i job log result k running child refused => ?_,
    fun i th running refused event mem on => ?_, fun i th key r running read gone event mem => ?_⟩
  · rcases executed with failed | ⟨v, accepted, -, -⟩
    · exact Or.inl failed
    · exact Or.inr (Cluster.acceptCreate_eq_some accepted).1
  · rcases executed with failed | ⟨v, accepted, -, -⟩
    · exact Or.inl failed
    · have thread := follows running
      obtain ⟨md, existing, read, readChild, key, version, controlled⟩ := thread.rest.1.update_inv
      obtain ⟨stored, found, same, -⟩ := Cluster.acceptUpdate_eq_some accepted
      have inHistory := (seen running _ readChild).get k _ existing rfl
      obtain rfl := c.shared.eq_of_resourceVersion found inHistory (version.symm.trans same.symm)
      have named := c.shared.keyed _ _ md ((seen running _ read).get _ _ md rfl)
      refine Or.inr ⟨md, existing, ?_, found, controlled ?_⟩
      · rw [key, named]
        exact read
      · exact resourceVersion_of_seen (seen running) k _ existing readChild
  · have thread := follows running
    exact Ends.error_of_refused thread.rest thread.made (resourceVersion_of_seen (seen running))
      child refused
  · have thread := follows running
    by_contra write
    rw [Bool.not_eq_false] at write
    have made : Made th.job.order th.job.request th.log := thread.made
    exact made.service_written (resourceVersion_of_seen (seen running)) mem on write refused
  · have thread := follows running
    have made : Made th.job.order th.job.request th.log := thread.made
    exact made.no_write read gone mem

/-- A cluster in which the name of the Deployment is taken by an object without an owner. -/
def takenCluster : Cluster :=
  (Cluster.empty.put .modelDeployment
    ⟨{ name := "sentiment", ns := "default", uid := "uid-1", generation := 1 },
      { model := ⟨"sentiment", "1"⟩, runtime := ⟨"registry/sentiment:1", 8080⟩ }, {}⟩).put .deployment
    ⟨{ name := "sentiment", ns := "default", generation := 1 }, {}, {}⟩

theorem reconcile_ownership_safe_taken :
    ∃ c job log result, (controllerHost Foreign).Reachable takenCluster c ∧
      c.thread 0 = some ⟨job, log, .ret result⟩ ∧ OwnershipSafe c := by
  have finished : (controllerHost Foreign).Reachable takenCluster _ :=
    Host.Reachable.start.start_run Cluster.executes_serve 0
      ⟨MapOrder.any, ⟨"sentiment", "default"⟩⟩ rfl
  exact ⟨_, _, _, _, finished, rfl, reconcile_ownership_safe finished⟩

end Kernexys.Controller
