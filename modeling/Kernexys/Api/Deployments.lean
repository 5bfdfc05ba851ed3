import Kernexys.Api.Registry

/-!
# Registry and cluster agree

Deployment requests read the registry and write to the cluster, with any other requests in between.
Every stored ModelDeployment is for a registered version and has its image and digest, because
registered versions never change.
-/

namespace Kernexys.Api

/-! ## What is applied -/

section Desired

variable (ns name : String) (desired : DeploymentUpsert) (runtimeImage : String)
  (artifactDigest : Option String) (resourceVersion : Json)

theorem desiredResource_modelName :
    (desiredResource ns name desired runtimeImage artifactDigest resourceVersion).field
      modelNamePath = some (.str desired.model.1) := rfl

theorem desiredResource_modelVersion :
    (desiredResource ns name desired runtimeImage artifactDigest resourceVersion).field
      modelVersionPath = some (.str desired.version.1) := rfl

theorem desiredResource_image :
    (desiredResource ns name desired runtimeImage artifactDigest resourceVersion).field
      imagePath = some (.str runtimeImage) := rfl

theorem desiredResource_replicas :
    (desiredResource ns name desired runtimeImage artifactDigest resourceVersion).field
      replicasPath = some (.int desired.replicas) := rfl

theorem desiredResource_port :
    (desiredResource ns name desired runtimeImage artifactDigest resourceVersion).field
      portPath = some (.int desired.port) := rfl

variable {artifactDigest}

/-- A digest that is not empty is annotated, and nothing is annotated without one. -/
theorem desiredResource_digest (nonempty : artifactDigest ≠ some "") :
    (desiredResource ns name desired runtimeImage artifactDigest resourceVersion).field digestPath =
      artifactDigest.map .str := by
  cases artifactDigest with
  | none =>
    unfold desiredResource
    cases resourceVersion.truthy <;> rfl
  | some digest =>
    have present : digest ≠ "" := fun eq => nonempty (by rw [eq])
    unfold desiredResource
    simp only [Option.getD_some, ne_eq, present, not_false_eq_true, if_true]
    rfl

end Desired

theorem bind_eq_ok {ε α β : Type} {x : Except ε α} {f : α → Except ε β} {b : β}
    (bound : (x >>= f) = .ok b) : ∃ a, x = .ok a ∧ f a = .ok b := by
  cases x with
  | error e => cases bound
  | ok a => exact ⟨a, rfl, bound⟩

theorem getOr_eq_ok {value default found : Json} {key : String}
    (read : getOr value key default = .ok found) :
    ∃ fields, value = .obj fields ∧ found = (fields.lookup key).getD default := by
  cases value with
  | obj fields => exact ⟨fields, rfl, (Except.ok.inj read).symm⟩
  | _ => cases read

/-- A value that was read by a key and is not the default is a field. -/
theorem field_of_getOr {value default found : Json} {key : String} {path : List String}
    {inner : Json} (read : getOr value key default = .ok found)
    (absent : default.field path = none) (deeper : found.field path = some inner) :
    value.field (key :: path) = some inner := by
  obtain ⟨fields, rfl, rfl⟩ := getOr_eq_ok read
  rw [Json.field]
  cases stored : fields.lookup key with
  | none =>
    rw [stored, Option.getD_none, absent] at deeper
    cases deeper
  | some value =>
    rw [stored, Option.getD_some] at deeper
    exact deeper

/-- A rollback reads the model name of the stored resource. -/
theorem currentModel_eq_ok {current spec : Json} {model : String}
    (read : currentModel current = .ok (spec, model)) :
    current.field modelNamePath = some (.str model) := by
  obtain ⟨spec', readSpec, read⟩ := bind_eq_ok read
  obtain ⟨modelValue, readModel, read⟩ := bind_eq_ok read
  obtain ⟨name, readName, read⟩ := bind_eq_ok read
  cases name with
  | str s =>
    cases read
    refine field_of_getOr readSpec rfl (field_of_getOr readModel rfl ?_)
    obtain ⟨fields, rfl, found⟩ := getOr_eq_ok readName
    rw [Json.field]
    cases stored : fields.lookup "name" with
    | none =>
      rw [stored] at found
      cases found
    | some value =>
      rw [stored] at found
      rw [found]
      rfl
  | _ => cases read

/-- What a rollback applies is a desired resource for the model and version it looked up. -/
theorem rollbackResource_eq_ok {lax : Coercions} {ns name : String} {current spec resource : Json}
    {model version : String} {row : ModelVersion}
    (applied : rollbackResource lax ns name current spec model version row = .ok resource) :
    ∃ desired resourceVersion, Name.parse _ _ model = some desired.model ∧
      Name.parse _ _ version = some desired.version ∧
      resource =
        desiredResource ns name desired row.runtimeImage row.artifactDigest resourceVersion := by
  obtain ⟨desired, wanted, applied⟩ := bind_eq_ok applied
  obtain ⟨metadata, -, applied⟩ := bind_eq_ok applied
  obtain ⟨resourceVersion, -, applied⟩ := bind_eq_ok applied
  obtain ⟨replicas, -, wanted⟩ := bind_eq_ok wanted
  obtain ⟨runtime, -, wanted⟩ := bind_eq_ok wanted
  obtain ⟨port, -, wanted⟩ := bind_eq_ok wanted
  obtain ⟨resources, -, wanted⟩ := bind_eq_ok wanted
  cases validated : DeploymentUpsert.validate lax model version replicas port resources with
  | none =>
    rw [validated] at wanted
    cases wanted
  | some desired' =>
    rw [validated] at wanted
    cases wanted
    obtain ⟨parsedModel, parsedVersion⟩ := DeploymentUpsert.validate_eq_some validated
    exact ⟨desired, resourceVersion, parsedModel, parsedVersion, (Except.ok.inj applied).symm⟩

/-! ## The invariant -/

/-- The resource was applied last for a version that is registered. -/
def Registered (db : Database) (key : String × String) (stored : Stored) : Prop :=
  ∃ desired row resourceVersion, db.version desired.model.1 desired.version.1 = some row ∧
    stored.managed = desiredResource key.1 key.2 desired row.runtimeImage row.artifactDigest
      resourceVersion ∧
    stored.Tracks

theorem Registered.mono {db db' : Database} (grows : db.Grows db') {key : String × String}
    {stored : Stored} (registered : Registered db key stored) : Registered db' key stored := by
  obtain ⟨desired, row, resourceVersion, found, managed, tracks⟩ := registered
  exact ⟨desired, row, resourceVersion, grows.version found, managed, tracks⟩

/-- Below a path that the server does not set, the document is the body that was applied. -/
theorem Stored.Tracks.agree {stored : Stored} (tracks : stored.Tracks) {path : List String}
    (outside : ∀ path', serverField (path ++ path') = false) (path' : List String) :
    stored.live.leaf (path ++ path') = stored.managed.leaf (path ++ path') :=
  tracks.leaf (path ++ path') (outside path')

theorem Registered.modelName {db : Database} {key : String × String} {stored : Stored}
    (registered : Registered db key stored) :
    ∃ model : ResourceName, stored.live.field modelNamePath = some (.str model.1) := by
  obtain ⟨desired, row, resourceVersion, -, managed, tracks⟩ := registered
  refine ⟨desired.model, Json.field_eq_str_of_agree (tracks.agree fun _ => rfl) ?_⟩
  rw [managed]
  rfl

/-- Digests are never empty, and every resource is for a registered version. -/
structure Agreement (s : Stores) : Prop where
  digests : ∀ row ∈ s.registry.versions.rows, row.artifactDigest ≠ some ""
  resources : ∀ key stored, s.cluster.object key = some stored → Registered s.registry key stored

theorem agreement_empty : Agreement Stores.empty := by
  refine ⟨?_, ?_⟩
  · rintro row ⟨⟩
  · rintro key stored ⟨⟩

/-- Storing a resource keeps the agreement if the resource is for a registered version. -/
theorem Agreement.put {s : Stores} (agree : Agreement s) {key : String × String} {stored : Stored}
    (registered : Registered s.registry key stored) :
    Agreement { s with cluster := s.cluster.put key stored } := by
  refine ⟨agree.digests, fun key' stored' found => ?_⟩
  by_cases same : key' = key
  · subst same
    obtain rfl := Option.some.inj ((s.cluster.object_put_self key' stored).symm.trans found)
    exact registered
  · rw [s.cluster.object_put_ne stored same] at found
    exact agree.resources key' stored' found

theorem Agreement.erase {s : Stores} (agree : Agreement s) (key : String × String) :
    Agreement { s with cluster := s.cluster.erase key } := by
  refine ⟨agree.digests, fun key' stored' found => ?_⟩
  by_cases same : key' = key
  · subst same
    cases (s.cluster.object_erase_self key').symm.trans found
  · rw [s.cluster.object_erase_ne same] at found
    exact agree.resources key' stored' found

/-- The controller's reports keep the agreement. -/
theorem Agreement.reports {s : Stores} (agree : Agreement s) {c : Cluster}
    (reports : s.cluster.Reports c) : Agreement { s with cluster := c } := by
  obtain ⟨key, stored, live, found, same, rfl⟩ := reports
  obtain ⟨desired, row, resourceVersion, version, managed, tracks⟩ :=
    agree.resources key stored found
  refine agree.put ⟨desired, row, resourceVersion, version, managed, tracks.foreign,
    fun path outside => ?_⟩
  rw [same path outside]
  exact tracks.leaf path outside

/-- A resource that was read names a model as the API writes it. -/
def ReadFact : Event → Prop
  | ⟨.kubernetes (.get _ _), r⟩ => ∀ current, r = .ok current →
    ∃ model : ResourceName, current.field modelNamePath = some (.str model.1)
  | _ => True

/-- What is known of the events in a log. -/
def DeploymentFact (s : Stores) (event : Event) : Prop := Recorded s.registry event ∧ ReadFact event

/-- What a request may do to the two stores. -/
def DeploymentRule (lax : Coercions) (request : Request) (log : List Event) (op : Op) : Prop :=
  RegistryRule request log op ∧ ∀ call, op = .kubernetes call → DeploymentCall lax request log op

theorem calls_deploymentRule (lax : Coercions) (request : Request) :
    (handle lax request).Calls Answerable (DeploymentRule lax request) (fun _ _ => True) [] := by
  cases deployment : request.isDeployment with
  | true =>
    exact (deployment_calls deployment).mono
      (fun _ _ call => ⟨call.registryRule, fun _ _ => call⟩) fun _ _ => id
  | false =>
    refine (calls_handle lax request).mono (fun log op rule => ⟨rule, fun call eq => ?_⟩)
      fun _ _ _ => trivial
    rw [rule.registry call eq] at deployment
    cases deployment

/-- A body that a request applies is for a version that is registered. -/
theorem DeploymentCall.registered {lax : Coercions} {s : Stores} {request : Request}
    {log : List Event} {ns name : String} {body : Json}
    (call : DeploymentCall lax request log (.kubernetes (.patch ns name body)))
    (known : ∀ event ∈ log, DeploymentFact s event) :
    ∃ desired row resourceVersion, s.registry.version desired.model.1 desired.version.1 = some row ∧
      body = desiredResource ns name desired row.runtimeImage row.artifactDigest resourceVersion := by
  cases call with
  | @patch _ _ desired row =>
    have found := (known _ List.mem_cons_self).1 row rfl
    exact ⟨desired, row, .null, found, rfl⟩
  | @rollbackPatch _ _ rollback current spec model row _ read applied =>
    obtain ⟨desired, resourceVersion, parsedModel, parsedVersion, rfl⟩ :=
      rollbackResource_eq_ok applied
    obtain ⟨name', stored⟩ := (known _ List.mem_cons_self).2 current rfl
    have same : model = name'.1 := by
      cases (currentModel_eq_ok read).symm.trans stored
      rfl
    subst same
    obtain rfl := Option.some.inj ((ResourceName.parse_val name').symm.trans parsedModel)
    have sameVersion :=
      Option.some.inj ((VersionName.parse_val rollback.version).symm.trans parsedVersion)
    refine ⟨desired, row, resourceVersion, ?_, rfl⟩
    rw [← sameVersion]
    exact (known _ (List.mem_cons_of_mem _ List.mem_cons_self)).1 row rfl

/-! ## Steps -/

section Steps

variable {s : Stores} {request : Request} {log : List Event}

/-- A round trip keeps the agreement. -/
theorem Agreement.query (agree : Agreement s) {query : Query} {r : query.Reply} {db : Database}
    (executes : s.registry.Executes query r db) (rule : RegistryRule request log (.query query)) :
    Agreement { s with registry := db } := by
  refine ⟨fun row mem => ?_, fun key stored found => ?_⟩
  · by_cases before : row ∈ s.registry.versions.rows
    · exact agree.digests row before
    · have insert := congrArg Sigma.fst (executes.new_version mem before)
      obtain ⟨modelName, version, body, -, record, -⟩ := rule.insert _ insert
      rw [record]
      exact body.artifactDigest_ne
  · exact (agree.resources key stored found).mono executes.grows

/-- A Kubernetes call keeps the agreement. -/
theorem Agreement.kubernetes (agree : Agreement s) {lax : Coercions} {call : KubernetesCall}
    {r : call.Reply} {c : Cluster} (executes : s.cluster.Executes call r c)
    (rule : DeploymentCall lax request log (.kubernetes call))
    (known : ∀ event ∈ log, DeploymentFact s event) : Agreement { s with cluster := c } := by
  cases call with
  | patch ns name body =>
    rcases executes with ⟨rfl, -⟩ | ⟨-, stored, applied, rfl, -⟩
    · exact agree
    · obtain ⟨desired, row, resourceVersion, found, sent⟩ := rule.registered known
      refine agree.put ⟨desired, row, resourceVersion, found, applied.managed.trans sent, ?_⟩
      refine applied.tracks fun before stored => ?_
      obtain ⟨-, -, -, -, -, tracks⟩ := agree.resources _ before stored
      exact tracks
  | get ns name =>
    obtain ⟨rfl, -⟩ := executes
    exact agree
  | delete ns name =>
    rcases executes with ⟨rfl, -⟩ | ⟨-, rfl, -⟩
    · exact agree
    · exact agree.erase (ns, name)

/-- What a Kubernetes call has read when it returns. -/
theorem Agreement.readFact (agree : Agreement s) {call : KubernetesCall} {r : call.Reply}
    {c : Cluster} (executes : s.cluster.Executes call r c) : ReadFact ⟨.kubernetes call, r⟩ := by
  cases call with
  | patch ns name body => trivial
  | delete ns name => trivial
  | get ns name =>
    rintro current rfl
    obtain ⟨-, ⟨e, failed⟩ | ⟨stored, found, eq⟩⟩ := executes
    · cases failed
    · cases eq
      exact (agree.resources _ stored found).modelName

end Steps

/-! ## Runs -/

variable {lax : Coercions} {c : Config Stores Request Op Op.Reply (Except Failure Response)}

theorem deployments_verified (reach : (apiHost lax).Reachable Stores.empty c) :
    Host.Verified (fun _ => Answerable) (DeploymentRule lax) (fun _ _ _ => True) Agreement
      DeploymentFact c := by
  refine reach.verified (calls_deploymentRule lax) agreement_empty ?_
    fun s request log op r t agree rule known executed => ?_
  · rintro s _ agree ⟨c, reports, rfl⟩
    exact ⟨agree.reports reports, fun _ => id⟩
  · have executes : s.Executes op r t := executed
    have answerable : Answerable log op r :=
      ⟨s, t, fun event mem => (known event mem).1, executes⟩
    refine ⟨answerable, ?_⟩
    have keep : ∀ event, DeploymentFact s event → DeploymentFact t event :=
      fun event fact => ⟨fact.1.mono executes.grows, fact.2⟩
    cases op with
    | query query =>
      obtain ⟨db, executes, rfl⟩ := executes
      refine ⟨agree.query executes rule.1, ⟨?_, trivial⟩, keep⟩
      exact executes.recorded rule.1 fun event mem => (known event mem).1
    | kubernetes call =>
      obtain ⟨c, executes, rfl⟩ := executes
      exact ⟨agree.kubernetes executes (rule.2 call rfl) known,
        ⟨trivial, agree.readFact executes⟩, keep⟩

/-- The version that a deployment request names.  A rollback names one once it has read the
resource. -/
inductive NamesVersion :
    Thread Request Op Op.Reply (Except Failure Response) → String → String → Prop where
  | put {ns name body log rest} :
      NamesVersion ⟨.putDeployment ns name body, log, rest⟩ body.model.1 body.version.1
  | rollback {ns name body current spec model log rest}
      (read : currentModel current = .ok (spec, model)) :
      NamesVersion ⟨.rollbackDeployment ns name body,
        ⟨.kubernetes (.get ns.1 name.1), .ok current⟩ :: log, rest⟩ model body.version.1

/-- Before a request writes, it has found the version it names. -/
theorem DeploymentCall.looked_up {th : Thread Request Op Op.Reply (Except Failure Response)}
    {modelName version : String} (names : NamesVersion th modelName version) {pre post : List Event}
    (split : th.log = pre ++ post) {call : KubernetesCall}
    (rule : DeploymentCall lax th.job pre (.kubernetes call)) (write : call.isWrite = true) :
    ∃ row, (⟨.query (.getVersion modelName version), some row⟩ : Event) ∈ pre := by
  cases names with
  | put =>
    cases rule with
    | @patch _ _ _ row => exact ⟨row, List.mem_cons_self⟩
    | reread => cases write
  | rollback read =>
    cases rule with
    | rollbackRead => cases write
    | @rollbackPatch _ _ _ _ _ _ row _ read' =>
      cases (List.cons.inj split).1
      obtain ⟨-, rfl⟩ := Prod.mk.inj (Except.ok.inj (read.symm.trans read'))
      exact ⟨row, List.mem_cons_of_mem _ List.mem_cons_self⟩

/-- A request that writes names a version that is registered. -/
theorem DeploymentCall.named {db : Database}
    {th : Thread Request Op Op.Reply (Except Failure Response)} {modelName version : String}
    (names : NamesVersion th modelName version) {pre post : List Event} (split : th.log = pre ++ post)
    {call : KubernetesCall} (rule : DeploymentCall lax th.job pre (.kubernetes call))
    (known : ∀ event ∈ th.log, Recorded db event) (absent : db.version modelName version = none) :
    call.isWrite = false := by
  by_contra write
  obtain ⟨row, mem⟩ := rule.looked_up names split (Bool.eq_true_of_not_eq_false write)
  have logged := List.mem_append_left post mem
  rw [← split] at logged
  have found := known _ logged row rfl
  cases absent.symm.trans found

/-- What holds of the two stores in a state of the system. -/
structure StoresAgree (c : Config Stores Request Op Op.Reply (Except Failure Response)) : Prop where
  /-- Every ModelDeployment is for a registered version and has its image and digest. -/
  resources : ∀ key stored, c.shared.cluster.object key = some stored →
    ∃ row ∈ c.shared.registry.versions.rows,
      stored.live.field modelNamePath = some (.str row.modelName) ∧
      stored.live.field modelVersionPath = some (.str row.version) ∧
      stored.live.field imagePath = some (.str row.runtimeImage) ∧
      stored.live.field digestPath = row.artifactDigest.map .str
  /-- A request that names an unregistered version has not written to the cluster and is not about
  to. -/
  unregistered : ∀ i th modelName version, c.thread i = some th →
    NamesVersion th modelName version → c.shared.registry.version modelName version = none →
    (∀ event ∈ th.log, ∀ call, event.1 = .kubernetes call → call.isWrite = false) ∧
    ∀ call next, th.rest = .call (.kubernetes call) next → call.isWrite = false

/-- For any interleaving of requests at their database and Kubernetes calls, every ModelDeployment
is for a registered version, and no request writes one for an unregistered version. -/
theorem registry_cluster_agree (reach : (apiHost lax).Reachable Stores.empty c) : StoresAgree c := by
  obtain ⟨agree, follows, known⟩ := deployments_verified reach
  refine ⟨fun key stored found => ?_, fun i th modelName version running names absent => ⟨?_, ?_⟩⟩
  · obtain ⟨desired, row, resourceVersion, registered, managed, tracks⟩ :=
      agree.resources key stored found
    obtain ⟨mem, rowKey⟩ := Table.find_eq_some_iff.1 registered
    obtain ⟨sameModel, sameVersion⟩ := Prod.mk.inj rowKey
    have nonempty := agree.digests row mem
    refine ⟨row, mem, ?_, ?_, ?_, ?_⟩
    · refine Json.field_eq_str_of_agree (tracks.agree fun _ => rfl) ?_
      rw [managed, desiredResource_modelName, sameModel]
    · refine Json.field_eq_str_of_agree (tracks.agree fun _ => rfl) ?_
      rw [managed, desiredResource_modelVersion, sameVersion]
    · refine Json.field_eq_str_of_agree (tracks.agree fun _ => rfl) ?_
      rw [managed, desiredResource_image]
    · have sent := desiredResource_digest key.1 key.2 desired row.runtimeImage resourceVersion nonempty
      rw [← managed] at sent
      cases digest : row.artifactDigest with
      | none =>
        rw [digest] at sent
        exact Json.field_eq_none_of_agree (tracks.agree fun _ => rfl) sent
      | some text =>
        rw [digest] at sent
        exact Json.field_eq_str_of_agree (tracks.agree fun _ => rfl) sent
  · rintro ⟨op, r⟩ mem call rfl
    obtain ⟨pre, post, split⟩ := List.append_of_mem mem
    exact DeploymentCall.named names split (((follows running).made pre _ _ post split).2 call rfl)
      (fun event mem => (known running event mem).1) absent
  · intro call next at_call
    have rule := (follows running).rest
    rw [at_call] at rule
    exact DeploymentCall.named names (List.append_nil _).symm (rule.1.2 call rfl)
      (fun event mem => (known running event mem).1) absent

/-- The resource version is not a field of what is applied. -/
theorem desiredResource_leaf (ns name : String) (desired : DeploymentUpsert) (runtimeImage : String)
    (artifactDigest : Option String) (resourceVersion : Json) {path : List String}
    (outside : serverField path = false) :
    (desiredResource ns name desired runtimeImage artifactDigest resourceVersion).leaf path =
      (desiredResource ns name desired runtimeImage artifactDigest).leaf path := by
  cases path with
  | nil => rfl
  | cons key path =>
    by_cases metadata : key = "metadata"
    · subst metadata
      cases path with
      | nil => rfl
      | cons key path =>
        have other : key ≠ "resourceVersion" := by
          rintro rfl
          cases outside
        have same : ∀ fields : Dict, List.lookup key (fields ++
            if resourceVersion.truthy then [("resourceVersion", resourceVersion)] else []) =
            List.lookup key fields := by
          intro fields
          rw [List.lookup_append]
          split <;> simp [List.lookup, beq_false_of_ne other]
        show (((List.lookup key (_ ++ _)).bind _).filter _) =
          (((List.lookup key (_ ++ [])).bind _).filter _)
        rw [same, List.append_nil]
    · have apart : (key == "metadata") = false := beq_false_of_ne metadata
      simp only [Json.leaf, desiredResource, Json.field, List.lookup, apart]

/-- The resource that a first apply stores. -/
def createdResource (ns name : String) (desired : DeploymentUpsert) (row : ModelVersion) : Stored where
  live := desiredResource ns name desired row.runtimeImage row.artifactDigest (.str "1")
  managed := desiredResource ns name desired row.runtimeImage row.artifactDigest

/-- A request for a version that is registered can create its resource. -/
theorem executes_create (db : Database) (ns name : String) (desired : DeploymentUpsert)
    (row : ModelVersion) :
    Stores.Executes ⟨db, Cluster.empty⟩ (.kubernetes (.patch ns name
      (desiredResource ns name desired row.runtimeImage row.artifactDigest))) (.ok none)
      ⟨db, Cluster.empty.put (ns, name) (createdResource ns name desired row)⟩ := by
  have unnamed : (desiredResource ns name desired row.runtimeImage row.artifactDigest).field
      resourceVersionPath = none := by
    unfold desiredResource
    dsimp only
    split <;> rfl
  have same := fun path => @desiredResource_leaf ns name desired row.runtimeImage row.artifactDigest
    (.str "1") path
  refine ⟨_, Or.inr ⟨⟨fun version named => ?_, ?_⟩, _, ?_, rfl, Or.inr (Or.inr ⟨rfl, rfl⟩)⟩, rfl⟩
  · cases unnamed.symm.trans named
  · rintro stored path value ⟨⟩
  · refine ⟨rfl, fun path => rfl, fun path value outside sent _ => (same path outside).trans sent,
      fun path outside sent => ?_, fun _ _ _ _ absent => ?_, fun path outside absent _ => ?_, ?_⟩
    · exact ⟨[], (Option.filter_eq_some_iff.1 ((same path outside).trans sent)).1⟩
    · cases absent
    · refine (same path outside).trans ?_
      rw [Json.leaf, absent]
      rfl
    · unfold createdResource desiredResource
      dsimp only
      split <;> rfl

/-- A request for one replica of the sample version. -/
def sampleDeployment : DeploymentUpsert := { model := sampleModel, version := sampleVersion }

/-- A deployment request for a registered version creates its resource in an empty cluster. -/
theorem deployment_stored {s₀ : Stores} {db : Database}
    {thread : ℕ → Option (Thread Request Op Op.Reply (Except Failure Response))}
    (reach : (apiHost lax).Reachable s₀ ⟨⟨db, Cluster.empty⟩, thread⟩) (i : ℕ)
    (free : thread i = none) (ns name : ResourceName) (desired : DeploymentUpsert)
    {row : ModelVersion} (found : db.version desired.model.1 desired.version.1 = some row) :
    ∃ d stored, (apiHost lax).Reachable s₀ d ∧
      d.shared.cluster.object (ns.1, name.1) = some stored := by
  have started := reach.step (.start i (.putDeployment ns name desired) free)
  have lookup : Stores.Executes ⟨db, Cluster.empty⟩
      (.query (.getVersion desired.model.1 desired.version.1)) (some row) ⟨db, Cluster.empty⟩ :=
    ⟨db, ⟨0, congrArg (·, db) found⟩, rfl⟩
  have looked := started.step (.call i (Function.update_self ..) lookup)
  have patched := looked.step (.call i (Function.update_self ..)
    (executes_create db ns.1 name.1 desired row))
  exact ⟨_, _, patched, Cluster.object_put_self ..⟩

theorem registry_cluster_agree_created :
    ∃ c stored, (apiHost strictCoercions).Reachable Stores.empty c ∧
      c.shared.cluster.object ("m", "m") = some stored ∧ StoresAgree c := by
  have start : (apiHost strictCoercions).Reachable Stores.empty _ := Host.Reachable.start
  have first := start.start_run Stores.executes_serve 0 (.putModel sampleModel ⟨none, by simp⟩) rfl
  have second := first.start_run Stores.executes_serve 1
    (.putVersion sampleModel sampleVersion sampleBody) rfl
  obtain ⟨c, stored, reach, found⟩ := deployment_stored second 2 rfl sampleModel sampleModel
    sampleDeployment rfl
  exact ⟨c, stored, reach, found, registry_cluster_agree reach⟩

end Kernexys.Api
