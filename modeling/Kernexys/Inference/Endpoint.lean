import Kernexys.Api.Reading
import Kernexys.Controller.Serving
import Kernexys.Inference.Jobs

/-!
# The endpoint of a deployment

The controller writes the address of a deployment into its status, the API server stores the status as
JSON, and `_ready_endpoint` reads it back.  Whatever the controllers and their clients do, the
deployment is ready for the API exactly when its Available condition is True, and the address is then
the one of its Service, behind which all replicas serve the version that the status calls active
(`ready_endpoint_iff`).
-/

namespace Kernexys.Inference

open Controller
open Api hiding Cluster Op

/-! ## The status in JSON -/

/-- One of the conditions says Available. -/
def saysAvailable (conditions : List Condition) : Bool :=
  conditions.any fun condition => condition.type = conditionAvailable ∧ condition.status = .true

theorem saysAvailable_eq_true_iff {status : ModelDeploymentStatus} :
    saysAvailable status.conditions = true ↔ Has status conditionAvailable .true := by
  simp [saysAvailable, Has]

section

variable {lax : Coercions} (times : Timestamps lax)

theorem anyAvailable_encode (conditions : List Condition) :
    anyAvailable (conditions.map (encodeCondition times)) = .ok (saysAvailable conditions) := by
  induction conditions with
  | nil => rfl
  | cons condition conditions ih =>
    have type : getField (encodeCondition times condition) "type" .null =
      .ok (.str condition.type) := rfl
    have status : getField (encodeCondition times condition) "status" .null =
      .ok (.str (conditionStatusText condition.status)) := rfl
    have text : conditionStatusText condition.status = "True" ↔ condition.status = .true := by
      cases condition.status <;> decide
    have cons : saysAvailable (condition :: conditions) =
      (decide (condition.type = conditionAvailable ∧ condition.status = .true) ||
        saysAvailable conditions) := rfl
    rw [List.map_cons, anyAvailable, type, status, ih, cons]
    by_cases here : condition.type = conditionAvailable ∧ condition.status = .true
    · rw [decide_eq_true here, here.1, here.2]
      rfl
    · have other : ((Json.str condition.type).eq (.str "Available") &&
          (Json.str (conditionStatusText condition.status)).eq (.str "True")) = false := by
        rw [Bool.and_eq_false_iff]
        by_cases available : condition.type = conditionAvailable
        · exact Or.inr (beq_false_of_ne fun value => here ⟨available, text.1 value⟩)
        · exact Or.inl (beq_false_of_ne available)
      rw [decide_eq_false here, Bool.false_or]
      exact if_neg (Bool.eq_false_iff.1 other)

/-- The two fields of a status that `_ready_endpoint` reads. -/
theorem getField_encodeStatus (status : ModelDeploymentStatus) :
    getField (encodeStatus times status) "endpoint" .null =
        .ok (if status.endpoint = "" then .null else .str status.endpoint) ∧
      getField (encodeStatus times status) "conditions" (.arr []) =
        .ok (.arr (status.conditions.map (encodeCondition times))) := by
  have endpoint : ((omitEmpty "endpoint" status.endpoint "" Json.str).lookup "endpoint").getD .null =
      if status.endpoint = "" then .null else .str status.endpoint := by
    unfold omitEmpty
    split_ifs <;> rfl
  have conditions : ((omitEmpty "conditions" status.conditions [] fun conditions =>
      Json.arr (conditions.map (encodeCondition times))).lookup "conditions").getD (.arr []) =
        .arr (status.conditions.map (encodeCondition times)) := by
    unfold omitEmpty
    split_ifs with none
    · rw [none]
      rfl
    · rfl
  constructor
  · simp (disch := decide) only [getField, getOr, encodeStatus, List.lookup_append,
      lookup_omitEmpty_ne, Option.or_none, Option.none_or, endpoint]
    rfl
  · simp (disch := decide) only [getField, getOr, encodeStatus, List.lookup_append,
      lookup_omitEmpty_ne, Option.or_none, Option.none_or, conditions]
    rfl

/-- The resource has this status: in JSON, or none as long as nothing was written. -/
inductive Shows (status : ModelDeploymentStatus) : Json → Prop where
  | unwritten {fields : Dict} (none : fields.lookup "status" = none) (empty : status = {}) :
      Shows status (.obj fields)
  | written {fields : Dict} (found : fields.lookup "status" = some (encodeStatus times status)) :
      Shows status (.obj fields)

/-- What `_ready_endpoint` makes of a status that the controller wrote. -/
theorem Shows.readyEndpoint_eq {status : ModelDeploymentStatus} {resource : Json}
    (shows : Shows times status resource) :
    readyEndpoint resource =
      if saysAvailable status.conditions ∧ status.endpoint ≠ "" then .ok status.endpoint
      else .error .notReady := by
  cases shows with
  | @unwritten fields none empty =>
    have read : getField (.obj fields) "status" (.obj []) = .ok (.obj []) := by
      simp only [getField, getOr, none]
      rfl
    rw [empty]
    simp only [readyEndpoint, read, bind, Except.bind]
    rfl
  | @written fields found =>
    have read : getField (.obj fields) "status" (.obj []) = .ok (encodeStatus times status) := by
      simp only [getField, getOr, found]
      rfl
    obtain ⟨endpoint, conditions⟩ := getField_encodeStatus times status
    simp only [readyEndpoint, read, endpoint, conditions, iterate, anyAvailable_encode, bind,
      Except.bind]
    by_cases empty : status.endpoint = ""
    · rw [if_pos empty, if_neg fun ready => ready.2 empty]
      rfl
    · rw [if_neg empty]
      simp only [empty, ne_eq, not_false_eq_true, decide_true, Bool.and_true, and_true]
      rfl

end

/-! ## Over whole runs -/

/-- Whatever the controllers and their clients do, `_ready_endpoint` accepts a version of a deployment
exactly when its Available condition is True and answers 409 otherwise.  It then returns the address of
the Service of the deployment, and all replicas of an earlier version are ready to serve what the status
calls active: the version that the status has observed, with the current spec if nothing has changed
since. -/
theorem ready_endpoint_iff {lax : Coercions} (times : Timestamps lax) {c₀ : Cluster}
    {c : Config Cluster Job Op Op.Reply (Option String)} (unwritten : Unwritten c₀)
    (reach : (controllerHost Evolves).Reachable c₀ c) {key : NamespacedName} {md : ModelDeployment}
    (version : md ∈ c.shared.history .modelDeployment key) {resource : Json}
    (shows : Shows times md.status resource) :
    (Has md.status conditionAvailable .true → readyEndpoint resource = .ok (serviceURL key) ∧
      ∃ old ∈ c.shared.history .modelDeployment key, Serving old md) ∧
    (¬ Has md.status conditionAvailable .true → readyEndpoint resource = .error .notReady) := by
  have inv := servingInv_of_reachable unwritten reach
  have read := shows.readyEndpoint_eq times
  constructor
  · intro available
    obtain ⟨old, before, leads⟩ := inv key md version available
    have url : md.status.endpoint = serviceURL key := by
      rw [leads.endpoint, c.shared.keyed .modelDeployment _ md version]
    refine ⟨?_, old, before, leads⟩
    rw [read, url, if_pos ⟨saysAvailable_eq_true_iff.2 available, serviceURL_ne_empty key⟩]
  · intro unavailable
    rw [read, if_neg fun ready => unavailable (saysAvailable_eq_true_iff.1 ready.1)]

theorem ready_endpoint_iff_rolledOut :
    ∃ c md resource, (controllerHost Evolves).Reachable rolledOutCluster c ∧
      md ∈ c.shared.history .modelDeployment md.metadata.key ∧
      Shows secondsTimestamps md.status resource ∧
      readyEndpoint resource = .ok (serviceURL md.metadata.key) := by
  obtain ⟨c, md, reach, version, available⟩ := exists_available
  have shown : Shows secondsTimestamps md.status
      (.obj [("status", encodeStatus secondsTimestamps md.status)]) := .written rfl
  exact ⟨c, md, _, reach, version, shown,
    ((ready_endpoint_iff secondsTimestamps rolledOutCluster_unwritten reach version shown).1
      available).1⟩

end Kernexys.Inference
