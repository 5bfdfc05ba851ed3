import Kernexys.Controller.System
import Kernexys.Controller.Convergence

/-!
# The status over whole runs

Any number of reconciles of any ModelDeployments run while specs are updated and children change,
with stale reads and calls that may fail.  A status write that is accepted meets the very version
that its reconcile read, so the status was computed from the current spec (`status_current`), and it
always is one of the consistent statuses of the controller (`status_written`).
-/

namespace Kernexys.Controller

/-! ## The conditions of a status -/

/-- A status from before the first write, or the three conditions in their order. -/
def Known (conditions : List Condition) : Prop :=
  conditions = [] ∨
    conditions.map Condition.type = [conditionAvailable, conditionProgressing, conditionDegraded]

/-- The status has a condition of this type and status. -/
def Has (status : ModelDeploymentStatus) (type : String) (value : ConditionStatus) : Prop :=
  ∃ c ∈ status.conditions, c.type = type ∧ c.status = value

/-- A report leaves exactly the three conditions. -/
theorem Report.write_conditions (report : Report) (now : String → ℤ) (generation : ℤ)
    {status : ModelDeploymentStatus} (known : Known status.conditions) :
    ∃ a p d, (report.write now generation status).conditions = [a, p, d] ∧
      (a.type = conditionAvailable ∧ a.status = report.available.status ∧
        a.observedGeneration = generation) ∧
      (p.type = conditionProgressing ∧ p.status = report.progressing.status ∧
        p.observedGeneration = generation) ∧
      (d.type = conditionDegraded ∧ d.status = report.degraded.status ∧
        d.observedGeneration = generation) := by
  have ap : conditionAvailable ≠ conditionProgressing := by decide
  have ad : conditionAvailable ≠ conditionDegraded := by decide
  have pd : conditionProgressing ≠ conditionDegraded := by decide
  rcases known with empty | types
  · simp only [Report.write, Finding.write, setCondition, empty, setStatusCondition, ap, ad, pd,
      if_false]
    exact ⟨_, _, _, rfl, ⟨rfl, rfl, rfl⟩, ⟨rfl, rfl, rfl⟩, ⟨rfl, rfl, rfl⟩⟩
  · obtain ⟨a, rest, eq, ha, types⟩ := List.map_eq_cons_iff.1 types
    obtain ⟨p, rest, rfl, hp, types⟩ := List.map_eq_cons_iff.1 types
    obtain ⟨d, rest, rfl, hd, types⟩ := List.map_eq_cons_iff.1 types
    obtain rfl := List.map_eq_nil_iff.1 types
    simp only [Report.write, Finding.write, setCondition, eq, setStatusCondition, ha, hp, hd, ap, ad,
      pd, if_true, if_false, Condition.refresh]
    exact ⟨_, _, _, rfl, ⟨rfl, rfl, rfl⟩, ⟨rfl, rfl, rfl⟩, ⟨rfl, rfl, rfl⟩⟩

/-- The status that a report leaves has one condition of each type, at this generation. -/
structure Report.Left (report : Report) (generation : ℤ) (status : ModelDeploymentStatus) : Prop where
  one : ∀ type ∈ [conditionAvailable, conditionProgressing, conditionDegraded],
    ∃ c, conditionsOf type status.conditions = [c] ∧ c.observedGeneration = generation
  known : Known status.conditions
  available : ∀ value, Has status conditionAvailable value ↔ report.available.status = value
  progressing : ∀ value, Has status conditionProgressing value ↔ report.progressing.status = value
  degraded : ∀ value, Has status conditionDegraded value ↔ report.degraded.status = value

theorem Report.left_write (report : Report) (now : String → ℤ) (generation : ℤ)
    (status : ModelDeploymentStatus) (known : Known status.conditions) :
    report.Left generation (report.write now generation status) := by
  obtain ⟨a, p, d, eq, ⟨ha, sa, ga⟩, ⟨hp, sp, gp⟩, ⟨hd, sd, gd⟩⟩ :=
    report.write_conditions now generation known
  have ap : conditionAvailable ≠ conditionProgressing := by decide
  have ad : conditionAvailable ≠ conditionDegraded := by decide
  have pd : conditionProgressing ≠ conditionDegraded := by decide
  refine ⟨?_, Or.inr ?_, fun value => ?_, fun value => ?_, fun value => ?_⟩
  · simp only [List.forall_mem_cons, List.not_mem_nil, false_implies, implies_true, and_true,
      conditionsOf, eq, List.filter_cons, List.filter_nil, ha, hp, hd, ap, ad, pd, ap.symm, ad.symm,
      pd.symm, decide_true, decide_false, if_true, Bool.false_eq_true, if_false]
    exact ⟨⟨a, rfl, ga⟩, ⟨p, rfl, gp⟩, ⟨d, rfl, gd⟩⟩
  · simp [eq, ha, hp, hd]
  · simp [Has, eq, ha, hp, hd, ap.symm, ad.symm, sa]
  · simp [Has, eq, ha, hp, hd, ap, pd.symm, sp]
  · simp [Has, eq, ha, hp, hd, ad, pd, sd]

/-! ## The status that a reconcile writes -/

/-- The Deployment in a reply. -/
def deploymentIn : Event → Option Deployment
  | ⟨.get .deployment _, .ok d⟩ => some d
  | ⟨.create .deployment _, .ok d⟩ => some d
  | ⟨.update .deployment _, .ok d⟩ => some d
  | _ => none

/-- The Deployment that was reported last. -/
def lastDeployment (log : List Event) : Option Deployment := log.reverse.findSome? deploymentIn

/-- What a status says that was computed from `md` after the calls of `log`. -/
structure WrittenStatus (md : ModelDeployment) (log : List Event) (status : ModelDeploymentStatus) :
    Prop where
  generation : status.observedGeneration = md.metadata.generation
  conditions : ∀ type ∈ [conditionAvailable, conditionProgressing, conditionDegraded],
    ∃ c, conditionsOf type status.conditions = [c] ∧
      c.observedGeneration = status.observedGeneration
  available : Has status conditionAvailable .true →
    status.readyReplicas = status.desiredReplicas ∧
      status.desiredReplicas = desiredReplicaCount md ∧
      status.endpoint = "http://" ++ md.metadata.name ++ "." ++ md.metadata.ns ++
        ".svc.cluster.local" ∧
      status.activeModel = md.spec.model.name ∧ status.activeVersion = md.spec.model.version
  rolledOut : Has status conditionAvailable .true → ∃ d, lastDeployment log = some d ∧
    d.status.observedGeneration = d.metadata.generation ∧
    d.status.replicas = desiredReplicaCount md ∧ d.status.updatedReplicas = desiredReplicaCount md ∧
    d.status.availableReplicas = desiredReplicaCount md ∧
    d.status.readyReplicas = desiredReplicaCount md
  progressing : Has status conditionProgressing .true →
    Has status conditionAvailable .false ∧ Has status conditionDegraded .false
  active : status.activeModel ≠ md.status.activeModel ∨
    status.activeVersion ≠ md.status.activeVersion → Has status conditionAvailable .true

theorem deploymentIn_eq_none {event : Event} (on : event.1.on ≠ some .deployment) :
    deploymentIn event = none := by
  unfold deploymentIn
  split
  · exact absurd rfl on
  · exact absurd rfl on
  · exact absurd rfl on
  · rfl

/-- The Deployment that the Deployment step ends with is the last one reported. -/
theorem lastDeployment_eq {md : ModelDeployment} {d : Deployment} {step rest : List Event}
    {first : Event} (ends : DeploymentEnds md step (.ok d))
    (later : ∀ event ∈ rest, event.1.on ≠ some .deployment) :
    lastDeployment (first :: (step ++ rest)) = some d := by
  have none_ : rest.reverse.findSome? deploymentIn = none := by
    rw [List.findSome?_eq_none_iff]
    intro event mem
    exact deploymentIn_eq_none (later event (List.mem_reverse.1 mem))
  have some_ : step.reverse.findSome? deploymentIn = some d := by
    obtain ⟨before, event, rfl, reported⟩ := ends.last
    have here : deploymentIn event = some d := by
      rcases reported with ⟨rfl, -⟩ | ⟨o, rfl, -⟩ | ⟨existing, o, rfl, -⟩ <;> rfl
    simp [here]
  unfold lastDeployment
  rw [List.reverse_cons, List.reverse_append, List.findSome?_append, List.findSome?_append, none_,
    some_]
  rfl

theorem observedReport_progressing {md : ModelDeployment} {d : Deployment}
    (progressing : (observedReport md d).progressing.status = .true) :
    (observedReport md d).available.status = .false ∧
      (observedReport md d).degraded.status = .false := by
  unfold observedReport at progressing ⊢
  dsimp only at progressing ⊢
  cases failure : terminalDeploymentFailure d with
  | some _ =>
    rw [failure] at progressing
    cases progressing
  | none =>
    rw [failure] at progressing
    dsimp only at progressing ⊢
    split_ifs at progressing ⊢
    exact ⟨rfl, rfl⟩

theorem observedReport_available (md : ModelDeployment) (d : Deployment) :
    (observedReport md d).available.status = .true ↔
      rolledOut d (desiredReplicaCount md) = true := by
  unfold observedReport
  dsimp only
  split_ifs with available <;> simp [available]

/-- The child that a child step ends with has the name of the ModelDeployment. -/
theorem ChildEnds.key {k : Kind} {object v : k.Object} {f : k.Object → Except String k.Object}
    {step : List Event} {c : Cluster} (ends : ChildEnds k object f step (.ok v))
    (seen : ∀ event ∈ step, Seen c event) : v.metadata.key = object.metadata.key := by
  have keeps : ∀ {existing o}, mutate f object.metadata.key existing = .ok o →
      o.metadata.key = object.metadata.key := by
    intro existing o mutated
    unfold mutate at mutated
    split at mutated
    · cases mutated
    · split_ifs at mutated with same
      obtain rfl := Except.ok.inj mutated
      exact same
  obtain ⟨before, event, rfl, ⟨rfl, mutated⟩ | ⟨o, rfl, mutated⟩ | ⟨existing, o, rfl, mutated⟩⟩ :=
    ends.last
  · exact keeps mutated
  · exact ((seen _ (by simp)).create k o v rfl).trans (keeps mutated)
  · exact ((seen _ (by simp)).update k o v rfl).trans (keeps mutated)

/-- A failure status says nothing of the rollout. -/
theorem written_failureStatus {md : ModelDeployment} {log : List Event} (known : Known md.status.conditions)
    (now : String → ℤ) (reason available progressing degraded : String) :
    WrittenStatus md log (failureStatus md now reason available progressing degraded) := by
  rw [failureStatus_eq]
  have left := (failureReport reason available progressing degraded).left_write now
    md.metadata.generation (failureFields md md.status) known
  refine ⟨rfl, left.one, fun has => ?_, fun has => ?_, fun has => ?_, fun changed => ?_⟩
  · cases (left.available _).1 has
  · cases (left.available _).1 has
  · cases (left.progressing _).1 has
  · rcases changed with changed | changed <;> exact absurd rfl changed

theorem written_observedStatus {md : ModelDeployment} {d : Deployment} {s : Service}
    {log : List Event} (known : Known md.status.conditions) (now : String → ℤ)
    (last : lastDeployment log = some d) (key : s.metadata.key = md.metadata.key) :
    WrittenStatus md log (observedStatus md d s now) := by
  rw [observedStatus_eq]
  have left := (observedReport md d).left_write now md.metadata.generation
    (observedFields md d s md.status) known
  have rolled : Has ((observedReport md d).write now md.metadata.generation
      (observedFields md d s md.status)) conditionAvailable .true ↔
      rolledOut d (desiredReplicaCount md) = true :=
    (left.available _).trans (observedReport_available md d)
  have name : s.metadata.name = md.metadata.name := congrArg NamespacedName.name key
  have ns : s.metadata.ns = md.metadata.ns := congrArg NamespacedName.ns key
  refine ⟨rfl, left.one, fun has => ?_, fun has => ?_, fun has => ?_, fun changed => ?_⟩
  · have out := rolled.1 has
    have fields : (observedFields md d s md.status).activeModel = md.spec.model.name ∧
        (observedFields md d s md.status).activeVersion = md.spec.model.version := by
      simp [observedFields, out]
    simp only [rolledOut, decide_eq_true_eq] at out
    refine ⟨out.2.2.2.2, rfl, ?_, fields⟩
    rw [← name, ← ns]
    rfl
  · have out := rolled.1 has
    simp only [rolledOut, decide_eq_true_eq] at out
    exact ⟨d, last, out⟩
  · obtain ⟨available, degraded⟩ := observedReport_progressing ((left.progressing _).1 has)
    exact ⟨(left.available _).2 available, (left.degraded _).2 degraded⟩
  · rw [rolled]
    by_contra waiting
    have fields : (observedFields md d s md.status).activeModel = md.status.activeModel ∧
        (observedFields md d s md.status).activeVersion = md.status.activeVersion := by
      simp [observedFields, waiting]
    rcases changed with changed | changed
    · exact changed fields.1
    · exact changed fields.2

/-- Whatever a reconcile met, the status it computes is a consistent one. -/
theorem Body.written {order : MapOrder} {md : ModelDeployment} {body : List Event}
    {desired : (String → ℤ) → ModelDeploymentStatus} {error : Option String} {c : Cluster}
    (ends : Body order md body desired error) (known : Known md.status.conditions)
    (seen : ∀ event ∈ body, Seen c event) (first : Event) (now : String → ℤ) :
    WrittenStatus md (first :: (body ++ [⟨.now, now⟩])) (desired now) := by
  cases ends with
  | invalid => exact written_failureStatus known now _ _ _ _
  | deploymentFailed => exact written_failureStatus known now _ _ _ _
  | serviceFailed => exact written_failureStatus known now _ _ _ _
  | observed valid ends ends' =>
    refine written_observedStatus known now ?_
      (ends'.key fun event mem => seen event (List.mem_append_right _ mem))
    rw [List.append_assoc]
    refine lastDeployment_eq ends fun event mem => ?_
    rcases List.mem_append.1 mem with inStep | inTail
    · rw [ends'.on inStep]
      simp
    · rw [List.mem_singleton.1 inTail]
      simp [Op.on]

/-- The status computed by a reconcile is a report on the status it read. -/
theorem Body.eq_write {order : MapOrder} {md : ModelDeployment} {body : List Event}
    {desired : (String → ℤ) → ModelDeploymentStatus} {error : Option String}
    (ends : Body order md body desired error) (now : String → ℤ) :
    ∃ report fields, desired now = Report.write report now md.metadata.generation fields ∧
      fields.observedGeneration = md.metadata.generation ∧
      fields.conditions = md.status.conditions := by
  cases ends with
  | invalid => exact ⟨_, _, failureStatus_eq md now _ _ _ _, rfl, rfl⟩
  | deploymentFailed => exact ⟨_, _, failureStatus_eq md now _ _ _ _, rfl, rfl⟩
  | serviceFailed => exact ⟨_, _, failureStatus_eq md now _ _ _ _, rfl, rfl⟩
  | observed => exact ⟨_, _, observedStatus_eq md _ _ now, rfl, rfl⟩

theorem Body.observedGeneration {order : MapOrder} {md : ModelDeployment} {body : List Event}
    {desired : (String → ℤ) → ModelDeploymentStatus} {error : Option String}
    (ends : Body order md body desired error) (now : String → ℤ) :
    (desired now).observedGeneration = md.metadata.generation := by
  obtain ⟨report, fields, eq, generation, -⟩ := ends.eq_write now
  rw [eq]
  exact generation

theorem Body.known {order : MapOrder} {md : ModelDeployment} {body : List Event}
    {desired : (String → ℤ) → ModelDeploymentStatus} {error : Option String}
    (ends : Body order md body desired error) (now : String → ℤ)
    (known : Known md.status.conditions) : Known (desired now).conditions := by
  obtain ⟨report, fields, eq, -, conditions⟩ := ends.eq_write now
  rw [eq]
  exact (report.left_write now md.metadata.generation fields (conditions ▸ known)).known

/-- A status write carries the version that was read, with the status computed from it. -/
theorem Stage.status_inv {order : MapOrder} {request : NamespacedName} {log : List Event}
    {m : ModelDeployment} (stage : Stage order request log (.updateStatus m)) :
    ∃ md body desired error now, log = ⟨.get .modelDeployment request, .ok md⟩ ::
      (body ++ [⟨.now, now⟩]) ∧ m = { md with status := desired now } ∧
      Body order md body desired error := by
  generalize hop : Op.updateStatus m = op at stage
  cases stage with
  | read => cases hop
  | deployment live valid call =>
    have on := call.on
    rw [← hop] at on
    cases on
  | service live valid ends call =>
    have on := call.on
    rw [← hop] at on
    cases on
  | now => cases hop
  | status live ends changed =>
    cases hop
    exact ⟨_, _, _, _, _, rfl, rfl, ends⟩

/-! ## Runs -/

/-- Specs are updated, each time to a higher generation, other metadata may change, and children may
change in any way.  Nobody but the controller writes a status. -/
inductive Evolves (c : Cluster) : Cluster → Prop where
  | child {k : Kind} (o : k.Object) (child : k ≠ .modelDeployment) : Evolves c (c.put k o)
  | delete {k : Kind} (key : NamespacedName) (child : k ≠ .modelDeployment) :
      Evolves c (c.delete k key)
  | create (md : ModelDeployment) (absent : c.object .modelDeployment md.metadata.key = none)
      (generation : md.metadata.generation = 1) (status : md.status = {}) :
      Evolves c (c.put .modelDeployment md)
  | update (before md : ModelDeployment)
      (stored : c.object .modelDeployment md.metadata.key = some before)
      (generation : (md.metadata.generation = before.metadata.generation ∧ md.spec = before.spec) ∨
        before.metadata.generation < md.metadata.generation)
      (status : md.status = before.status) : Evolves c (c.put .modelDeployment md)

theorem Evolves.grows {c c' : Cluster} (evolves : Evolves c c') : c.Grows c' := by
  cases evolves with
  | child o => exact c.grows_put _ o
  | delete key => exact fun _ _ _ => id
  | create md | update _ md => exact c.grows_put .modelDeployment md

/-- A change of the cluster: none, one from outside, or a status write on the stored version. -/
inductive Change (c : Cluster) : Cluster → Prop where
  | none : Change c c
  | outside {c' : Cluster} (evolves : Evolves c c') : Change c c'
  | status {order : MapOrder} {md : ModelDeployment} {body : List Event}
      {desired : (String → ℤ) → ModelDeploymentStatus} {error : Option String} {now : String → ℤ}
      (stored : c.object .modelDeployment md.metadata.key = some md)
      (ends : Body order md body desired error) (seen : ∀ event ∈ body, Seen c event) :
      Change c (c.put .modelDeployment { md with status := desired now })

section Runs

variable {c₀ : Cluster} {c d : Config Cluster Job Op Op.Reply (Option String)}

/-- What a reconcile has read was stored at some time. -/
theorem seen_of_running (reach : (controllerHost Evolves).Reachable c₀ c) {i : ℕ} {job : Job}
    {log : List Event} {rest : Code (Option String)}
    (running : c.thread i = some ⟨job, log, rest⟩) : ∀ event ∈ log, Seen c.shared event :=
  (verified_of_reachable (fun _ _ => Evolves.grows) reach).known running

/-- A reconcile makes the calls of its stages. -/
theorem stage_of_running (reach : (controllerHost Evolves).Reachable c₀ c) {i : ℕ} {job : Job}
    {log : List Event} {op : Op} {next : op.Reply → Code (Option String)}
    (running : c.thread i = some ⟨job, log, .call op next⟩) :
    Stage job.order job.request log op :=
  ((verified_of_reachable (fun _ _ => Evolves.grows) reach).follows running).rest.1

/-- A status write that the server accepts meets the version that its reconcile read. -/
theorem accepted_status (reach : (controllerHost Evolves).Reachable c₀ c) {i : ℕ} {job : Job}
    {log : List Event} {m v : ModelDeployment} {next : Op.Reply (.updateStatus m) → Code (Option String)}
    (running : c.thread i = some ⟨job, log, .call (.updateStatus m) next⟩)
    (accepted : c.shared.acceptStatus m = some v) :
    ∃ order md body desired error now, c.shared.object .modelDeployment m.metadata.key = some md ∧
      log = ⟨.get .modelDeployment m.metadata.key, .ok md⟩ :: (body ++ [⟨.now, now⟩]) ∧
      v = m ∧ m = { md with status := desired now } ∧ Body order md body desired error := by
  obtain ⟨order, request⟩ := job
  have stage : Stage order request log (.updateStatus m) := stage_of_running reach running
  have seen := seen_of_running reach running
  obtain ⟨md, body, desired, error, now, rfl, rfl, ends⟩ := stage.status_inv
  obtain ⟨before, stored, version, rfl⟩ := Cluster.acceptStatus_eq_some accepted
  have read := (seen _ List.mem_cons_self).get .modelDeployment request md rfl
  have named : md.metadata.key = request := c.shared.keyed _ _ md read
  subst named
  obtain rfl := c.shared.eq_of_resourceVersion stored read version.symm
  exact ⟨order, md, body, desired, error, now, stored, rfl, rfl, rfl, ends⟩

/-- What a step does to the cluster. -/
theorem step_change (reach : (controllerHost Evolves).Reachable c₀ c)
    (next : (controllerHost Evolves).Step c d) : Change c.shared d.shared := by
  have childWrite : ∀ {k : Kind} {accepted : Option k.Object} {r : Except ApiError k.Object}
      {t : Cluster}, k ≠ .modelDeployment → c.shared.Writes k accepted r t → Change c.shared t := by
    rintro k accepted r t child (⟨rfl, -⟩ | ⟨v, -, rfl, -⟩)
    · exact .none
    · exact .outside (.child v child)
  cases next with
  | interfere changed => exact .outside changed
  | start => exact .none
  | @call i job log op next r t running executed =>
    have stage := stage_of_running reach running
    have executed : c.shared.Executes op r t := executed
    cases op with
    | get k key =>
      obtain rfl := executed.1
      exact .none
    | create k o =>
      refine childWrite ?_ executed
      rintro rfl
      cases (stage.modelDeployment_inv rfl).2
    | update k o =>
      refine childWrite ?_ executed
      rintro rfl
      cases (stage.modelDeployment_inv rfl).2
    | updateStatus m =>
      rcases executed with ⟨rfl, -⟩ | ⟨v, accepted, rfl, -⟩
      · exact .none
      · obtain ⟨order, md, body, desired, error, now, stored, rfl, rfl, rfl, ends⟩ :=
          accepted_status reach running accepted
        have seen := seen_of_running reach running
        exact .status stored ends fun event mem => seen event (by simp [mem])
    | now =>
      obtain rfl : t = c.shared := executed
      exact .none

/-- Every version has seen no generation beyond its own, and has the conditions of a status the
controller writes. -/
def StatusInv (c : Cluster) : Prop :=
  ∀ key, ∀ md ∈ c.history .modelDeployment key,
    md.status.observedGeneration ≤ md.metadata.generation ∧ Known md.status.conditions

/-- No status was written yet. -/
def Unwritten (c : Cluster) : Prop :=
  ∀ key, ∀ md ∈ c.history .modelDeployment key, md.status = {} ∧ 0 ≤ md.metadata.generation

theorem Unwritten.statusInv {c : Cluster} (unwritten : Unwritten c) : StatusInv c := by
  intro key md mem
  obtain ⟨status, generation⟩ := unwritten key md mem
  rw [status]
  exact ⟨generation, Or.inl rfl⟩

theorem StatusInv.put {c : Cluster} (inv : StatusInv c) {md : ModelDeployment}
    (observed : md.status.observedGeneration ≤ md.metadata.generation)
    (known : Known md.status.conditions) : StatusInv (c.put .modelDeployment md) := by
  intro key md' mem
  by_cases same : key = md.metadata.key
  · subst same
    rw [Cluster.put_history_self c .modelDeployment md] at mem
    rcases List.mem_cons.1 mem with rfl | mem
    · exact ⟨observed, known⟩
    · exact inv _ md' mem
  · rw [Cluster.put_history_ne c (k := .modelDeployment) md fun _ => same] at mem
    exact inv key md' mem

theorem Change.statusInv {c c' : Cluster} (change : Change c c') (inv : StatusInv c) :
    StatusInv c' := by
  cases change with
  | none => exact inv
  | outside evolves =>
    cases evolves with
    | child o child =>
      intro key md mem
      rw [Cluster.put_history_ne c o fun eq => absurd eq.symm child] at mem
      exact inv key md mem
    | delete key child => exact inv
    | create md absent generation status =>
      refine inv.put ?_ ?_
      · rw [status, generation]
        decide
      · rw [status]
        exact Or.inl rfl
    | update before md stored generation status =>
      obtain ⟨observed, known⟩ := inv _ before (c.stored _ _ _ stored)
      rw [← status] at observed known
      refine inv.put ?_ known
      omega
  | @status order md body desired error now stored ends seen =>
    obtain ⟨-, known⟩ := inv _ md (c.stored _ _ _ stored)
    refine inv.put ?_ ?_
    · exact (ends.observedGeneration now).le
    · exact ends.known now known

theorem statusInv_of_reachable (unwritten : Unwritten c₀)
    (reach : (controllerHost Evolves).Reachable c₀ c) : StatusInv c.shared :=
  reach.invariant (I := fun c => StatusInv c.shared) unwritten.statusInv
    fun _ _ reach inv next => (step_change reach next).statusInv inv

/-- Every accepted status write leaves a consistent status: one condition of each type, all at the
generation of the spec it was computed from; Available only with every replica of a rolled out
Deployment; and a new active version only when Available. -/
theorem status_written (unwritten : Unwritten c₀)
    (reach : (controllerHost Evolves).Reachable c₀ c) {i : ℕ} {job : Job} {log : List Event}
    {m : ModelDeployment} {next : Op.Reply (.updateStatus m) → Code (Option String)}
    {r : Op.Reply (.updateStatus m)} {t : Cluster}
    (running : c.thread i = some ⟨job, log, .call (.updateStatus m) next⟩)
    (executed : c.shared.Executes (.updateStatus m) r t) (changed : t ≠ c.shared) :
    ∃ md, c.shared.object .modelDeployment m.metadata.key = some md ∧
      t.object .modelDeployment m.metadata.key =
        some (c.shared.stamp (k := .modelDeployment) { md with status := m.status }) ∧
      WrittenStatus md log m.status := by
  rcases executed with ⟨rfl, -⟩ | ⟨v, accepted, rfl, -⟩
  · exact absurd rfl changed
  obtain ⟨order, md, body, desired, error, now, stored, rfl, rfl, rfl, ends⟩ :=
    accepted_status reach running accepted
  have known := (statusInv_of_reachable unwritten reach _ md (c.shared.stored _ _ _ stored)).2
  have seen := seen_of_running reach running
  refine ⟨md, stored, ?_, ends.written known (fun event mem => seen event (by simp [mem])) _ now⟩
  exact c.shared.put_object_self .modelDeployment { md with status := desired now }

/-- The ModelDeployment as it is stored first. -/
def storedModelDeployment : ModelDeployment :=
  Cluster.empty.stamp (k := .modelDeployment) sampleModelDeployment

/-- A Deployment as the controller wants it, with its two replicas up. -/
def rolledOutDeployment : Deployment :=
  { adopt (k := .deployment) storedModelDeployment (childLabels storedModelDeployment)
      (fun _ => deploymentSpec storedModelDeployment) (desiredDeployment storedModelDeployment) with
    status := { replicas := 2, updatedReplicas := 2, readyReplicas := 2, availableReplicas := 2 } }

/-- A cluster with the ModelDeployment, its Deployment and no Service. -/
def rolledOutCluster : Cluster :=
  (Cluster.empty.put .modelDeployment sampleModelDeployment).put .deployment rolledOutDeployment

theorem rolledOutCluster_unwritten : Unwritten rolledOutCluster := by
  intro key md mem
  have mem : md ∈ (Cluster.empty.put .modelDeployment sampleModelDeployment).history
      .modelDeployment key := by
    rwa [rolledOutCluster, Cluster.put_history_ne _ (k := .deployment) _ (by simp)] at mem
  by_cases same : key = sampleModelDeployment.metadata.key
  · subst same
    rw [Cluster.put_history_self] at mem
    rcases List.mem_cons.1 mem with rfl | mem
    · exact ⟨rfl, by decide⟩
    · cases mem
  · rw [Cluster.put_history_ne _ (k := .modelDeployment) _ fun _ => same] at mem
    cases mem

/-- The Deployment as it is stored. -/
def storedDeployment : Deployment :=
  (Cluster.empty.put .modelDeployment sampleModelDeployment).stamp (k := .deployment)
    rolledOutDeployment

theorem storedDeployment_fixed :
    mutateOwned .deployment storedModelDeployment (mutateDeployment storedModelDeployment)
      storedDeployment = .ok storedDeployment := by
  have owned : mutateOwned .deployment storedModelDeployment
      (mutateDeployment storedModelDeployment) (desiredDeployment storedModelDeployment) = _ :=
    mutateOwned_eq_ok (k := .deployment) _ (fun _ => deploymentSpec storedModelDeployment) rfl
      (Or.inl ⟨rfl, rfl⟩)
  exact @mutateOwned_fixed .deployment _ _ (fun _ => deploymentSpec storedModelDeployment)
    (fun _ => rfl) _ _ storedDeployment owned rfl rfl rfl rfl

theorem storedDeployment_available (service : Service) (now : String → ℤ) :
    Has (observedStatus storedModelDeployment storedDeployment service now)
      conditionAvailable .true := by
  rw [observedStatus_eq]
  have left := (observedReport storedModelDeployment storedDeployment).left_write now
    storedModelDeployment.metadata.generation
    (observedFields storedModelDeployment storedDeployment service storedModelDeployment.status)
    (Or.inl rfl)
  refine (left.available _).2 ((observedReport_available _ _).2 ?_)
  decide

/-- A reconcile of the cluster comes to write an Available status, and the server accepts it. -/
theorem rolledOutCluster_writes :
    ∃ c job log m next, (controllerHost Evolves).Reachable rolledOutCluster c ∧
      c.thread 0 = some ⟨job, log, .call (.updateStatus m) next⟩ ∧
      (Cluster.serve (.updateStatus m) c.shared).2 ≠ c.shared ∧
      Has m.status conditionAvailable .true := by
  have valid : ValidSpec storedModelDeployment := sampleModelDeployment_valid.of_spec rfl
  have first : (reconcileDeployment storedModelDeployment).run Cluster.serve rolledOutCluster = _ :=
    run_createOrUpdate_fixed (k := .deployment) (desiredDeployment storedModelDeployment) rfl
      storedDeployment_fixed
  obtain ⟨log, service, c, second, done⟩ := run_child (k := .service) storedModelDeployment
    (childLabels storedModelDeployment) (serviceSpec_idem storedModelDeployment)
    (desiredService storedModelDeployment) (c := rolledOutCluster) rfl ⟨rfl, rfl⟩
    fun v found => by cases found
  have stored : c.object .modelDeployment ⟨"sentiment", "default"⟩ = some storedModelDeployment :=
    done.others .modelDeployment _ (by simp)
  have different : storedModelDeployment.status ≠ observedStatus storedModelDeployment
      storedDeployment service fun _ => c.clock := by
    intro eq
    have has := storedDeployment_available service fun _ => c.clock
    rw [← eq] at has
    obtain ⟨_, mem, -⟩ := has
    cases mem
  have third := run_updateStatusIfChanged_changed stored different
  have run := @run_reconcile rolledOutCluster ⟨"sentiment", "default"⟩ storedModelDeployment
    MapOrder.any rfl rfl valid
  rw [run_reconcileChildren first second third] at run
  have started : (controllerHost Evolves).Reachable rolledOutCluster _ :=
    Host.reachable_start rolledOutCluster ⟨MapOrder.any, ⟨"sentiment", "default"⟩⟩
  obtain ⟨d, log', next, reach, running, answer⟩ := @Host.Reachable.until _ _ _ _ _ _ _ _ _
    Cluster.executes_serve started 0 _ _ _ rfl (.updateStatus _) _ (by
      simp only [controllerHost]
      rw [run]
      simp only [List.mem_cons, List.mem_append]
      exact Or.inr (Or.inr (Or.inr (Or.inr (Or.inl rfl)))))
  exact ⟨d, _, log', _, next, reach, running, Cluster.serve_updateStatus_ne answer,
    storedDeployment_available _ _⟩

theorem status_written_rolledOut :
    ∃ c job log m next md, (controllerHost Evolves).Reachable rolledOutCluster c ∧
      c.thread 0 = some ⟨job, log, .call (.updateStatus m) next⟩ ∧
      Has m.status conditionAvailable .true ∧ WrittenStatus md log m.status := by
  obtain ⟨c, job, log, m, next, reach, running, changed, available⟩ := rolledOutCluster_writes
  obtain ⟨md, -, -, written⟩ := status_written rolledOutCluster_unwritten reach running
    (Cluster.executes_serve _ _) changed
  exact ⟨c, job, log, m, next, md, reach, running, available, written⟩

/-! ## No stale status -/

/-- A change of the cluster never takes back a generation that was observed. -/
theorem Change.observedGeneration_le {c c' : Cluster} (change : Change c c') (inv : StatusInv c)
    {key : NamespacedName} {md : ModelDeployment} (stored : c.object .modelDeployment key = some md) :
    ∃ md', c'.object .modelDeployment key = some md' ∧
      md.status.observedGeneration ≤ md'.status.observedGeneration := by
  have put : ∀ {md' : ModelDeployment}, (md'.metadata.key = key →
      md.status.observedGeneration ≤ md'.status.observedGeneration) →
      ∃ md'', (c.put .modelDeployment md').object .modelDeployment key = some md'' ∧
        md.status.observedGeneration ≤ md''.status.observedGeneration := by
    intro md' le
    by_cases same : md'.metadata.key = key
    · subst same
      exact ⟨_, c.put_object_self .modelDeployment md', le rfl⟩
    · refine ⟨md, ?_, le_refl _⟩
      rw [c.put_object_ne (k := .modelDeployment) md' fun _ eq => same eq.symm]
      exact stored
  cases change with
  | none => exact ⟨md, stored, le_refl _⟩
  | outside evolves =>
    cases evolves with
    | child o child =>
      refine ⟨md, ?_, le_refl _⟩
      rw [c.put_object_ne o fun eq => absurd eq.symm child]
      exact stored
    | delete key' child =>
      refine ⟨md, ?_, le_refl _⟩
      rw [← stored]
      exact setEntry_ne c.object _ fun eq => absurd eq.symm child
    | create md' absent =>
      refine put fun same => ?_
      rw [same, stored] at absent
      cases absent
    | update before md' stored' generation status =>
      refine put fun same => ?_
      rw [same, stored] at stored'
      obtain rfl := Option.some.inj stored'
      rw [status]
  | @status order md' body desired error now stored' ends seen =>
    refine put fun same => ?_
    have same : md'.metadata.key = key := same
    rw [same, stored] at stored'
    obtain rfl := Option.some.inj stored'
    exact (inv _ md (c.stored _ _ _ stored)).1.trans (ends.observedGeneration now).ge

/-- The status of the ModelDeployments in a state of the system. -/
structure StatusCurrent (c : Config Cluster Job Op Op.Reply (Option String)) : Prop where
  /-- No status is ahead of its spec. -/
  bounded : ∀ key md, c.shared.object .modelDeployment key = some md →
    md.status.observedGeneration ≤ md.metadata.generation
  /-- No later state goes back behind the generation that was observed. -/
  monotone : ∀ d, Relation.ReflTransGen (controllerHost Evolves).Step c d → ∀ key md md',
    c.shared.object .modelDeployment key = some md →
    d.shared.object .modelDeployment key = some md' →
    md.status.observedGeneration ≤ md'.status.observedGeneration
  /-- A status write that succeeds meets the version it was computed from. -/
  current : ∀ i job log m next r t, c.thread i = some ⟨job, log, .call (.updateStatus m) next⟩ →
    c.shared.Executes (.updateStatus m) r t → t ≠ c.shared →
    ∃ order md body desired error now, c.shared.object .modelDeployment m.metadata.key = some md ∧
      log = ⟨.get .modelDeployment m.metadata.key, .ok md⟩ :: (body ++ [⟨.now, now⟩]) ∧
      Body order md body desired error ∧ m = { md with status := desired now } ∧
      m.status.observedGeneration = md.metadata.generation

/-- With any number of overlapping reconciles, stale reads and spec updates, no status is ahead of
its spec or goes back, and every write that succeeds was computed from the current spec. -/
theorem status_current (unwritten : Unwritten c₀)
    (reach : (controllerHost Evolves).Reachable c₀ c) : StatusCurrent c := by
  refine ⟨fun key md stored => ?_, fun d steps key md md' stored stored' => ?_,
    fun i job log m next r t running executed changed => ?_⟩
  · exact (statusInv_of_reachable unwritten reach key md (c.shared.stored _ _ _ stored)).1
  · have keep := reach.steps_invariant
      (I := fun d => ∃ md', d.shared.object .modelDeployment key = some md' ∧
        md.status.observedGeneration ≤ md'.status.observedGeneration)
      (fun a b reachA known next => ?_) steps ⟨md, stored, le_refl _⟩
    · obtain ⟨md'', found, le⟩ := keep
      obtain rfl := Option.some.inj (found.symm.trans stored')
      exact le
    · obtain ⟨mdA, storedA, leA⟩ := known
      obtain ⟨mdB, storedB, leB⟩ := (step_change reachA next).observedGeneration_le
        (statusInv_of_reachable unwritten reachA) storedA
      exact ⟨mdB, storedB, leA.trans leB⟩
  · rcases executed with ⟨rfl, -⟩ | ⟨v, accepted, -, -⟩
    · exact absurd rfl changed
    obtain ⟨order, md, body, desired, error, now, stored, shape, -, rfl, ends⟩ :=
      accepted_status reach running accepted
    exact ⟨order, md, body, desired, error, now, stored, shape, ends, rfl,
      ends.observedGeneration now⟩

theorem status_current_rolledOut :
    ∃ c, (controllerHost Evolves).Reachable rolledOutCluster c ∧ (∃ th, c.thread 0 = some th) ∧
      StatusCurrent c := by
  obtain ⟨c, job, log, m, next, reach, running, -⟩ := rolledOutCluster_writes
  exact ⟨c, reach, ⟨_, running⟩, status_current rolledOutCluster_unwritten reach⟩

end Runs

end Kernexys.Controller
