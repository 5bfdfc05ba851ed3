import Kernexys.Controller.Convergence

/-!
# Invalid specs

`validateSpec` reports the first violation it meets while it iterates over the resource maps, and
its message becomes the Degraded condition.  The verdict does not depend on the order of the maps.
The message does not either, and a second reconcile writes nothing, exactly for the specs whose maps
have a single violation to report (`invalid_spec_settles_iff`).
-/

namespace Kernexys.Controller

open Cluster (serve)

/-! ## Searching a collection in any order -/

section Search

variable {α β : Type} {f : α → Option β} {s : Multiset α}

/-- When all findings agree, every order of the search gives the same one. -/
theorem findSome?_eq_of_agree {l l' : List α} (perm : (l : Multiset α) = l')
    (agree : ∀ a ∈ l, ∀ b ∈ l, f a ≠ none → f b ≠ none → f a = f b) :
    l.findSome? f = l'.findSome? f := by
  have members : ∀ a, a ∈ l ↔ a ∈ l' := fun a => (Multiset.coe_eq_coe.1 perm).mem_iff
  cases found : l.findSome? f with
  | none =>
    rw [List.findSome?_eq_none_iff] at found
    symm
    rw [List.findSome?_eq_none_iff]
    exact fun a mem => found a ((members a).2 mem)
  | some b =>
    obtain ⟨a, mem, reported⟩ := List.exists_of_findSome?_eq_some found
    cases found' : l'.findSome? f with
    | none =>
      rw [List.findSome?_eq_none_iff] at found'
      rw [found' a ((members a).1 mem)] at reported
      cases reported
    | some b' =>
      obtain ⟨a', mem', reported'⟩ := List.exists_of_findSome?_eq_some found'
      rw [← reported, ← reported']
      exact agree a mem a' ((members a').2 mem') (by simp [reported]) (by simp [reported'])

/-- When every order of the search gives the same finding, all findings agree. -/
theorem agree_of_findSome?_eq [DecidableEq α]
    (same : ∀ l l' : List α, (l : Multiset α) = s → (l' : Multiset α) = s →
      l.findSome? f = l'.findSome? f) {a b : α} (left : a ∈ s) (right : b ∈ s)
    (found : f a ≠ none) (found' : f b ≠ none) : f a = f b := by
  -- an order that starts with a given element
  have first : ∀ a ∈ s, ((a :: (s.erase a).toList : List α) : Multiset α) = s := by
    intro a mem
    rw [← Multiset.cons_coe, Multiset.coe_toList, Multiset.cons_erase mem]
  have equal := same _ _ (first a left) (first b right)
  rwa [List.findSome?_cons_of_isSome (Option.isSome_iff_ne_none.2 found),
    List.findSome?_cons_of_isSome (Option.isSome_iff_ne_none.2 found')] at equal

end Search

/-! ## The two parts of the validation -/

/-- The checks before the resource maps. -/
def fieldError (modelDeployment : ModelDeployment) : Option String :=
  let spec := modelDeployment.spec
  let replicas := desiredReplicaCount modelDeployment
  let port := desiredRuntimePort modelDeployment
  if trimSpace spec.model.name = "" then some "spec.model.name must not be empty"
  else if trimSpace spec.model.version = "" then some "spec.model.version must not be empty"
  else if trimSpace spec.runtime.image = "" ∨ containsAny spec.runtime.image " \t\r\n" then
    some "spec.runtime.image must be a non-empty OCI image reference without whitespace"
  else if replicas < 1 ∨ replicas > 100 then
    some ("spec.replicas must be between 1 and 100, got " ++ toString replicas)
  else if port < 1 ∨ port > 65535 then
    some ("spec.runtime.port must be between 1 and 65535, got " ++ toString port)
  else none

theorem validateSpec_eq (order : MapOrder) (modelDeployment : ModelDeployment) :
    validateSpec order modelDeployment =
      (fieldError modelDeployment).or
        (((order.requests modelDeployment.spec.resources.requests).findSome?
          (requestError modelDeployment.spec.resources.limits)).or
            ((order.limits modelDeployment.spec.resources.limits).findSome? limitError)) := by
  unfold validateSpec fieldError
  dsimp only
  split_ifs <;> rfl

/-- A resource map has at most one entry with an error. -/
def AtMostOne (error : (Σ _ : String, Quantity) → Option String) (m : ResourceList) : Prop :=
  ∀ a ∈ m.entries, ∀ b ∈ m.entries, error a ≠ none → error b ≠ none → a = b

/-- The validation has a single violation to report: it does not get to the maps, or one request is
wrong, or no request and at most one limit. -/
def SingleViolation (modelDeployment : ModelDeployment) : Prop :=
  let resources := modelDeployment.spec.resources
  fieldError modelDeployment ≠ none ∨
    AtMostOne (requestError resources.limits) resources.requests ∧
      ((∀ entry ∈ resources.requests.entries, requestError resources.limits entry = none) →
        AtMostOne limitError resources.limits)

/-! ## Messages name their entry -/

theorem entry_eq_of_key {m : ResourceList} {a b : Σ _ : String, Quantity} (left : a ∈ m.entries)
    (right : b ∈ m.entries) (key : a.1 = b.1) : a = b := by
  have first : m.lookup a.1 = some a.2 := Finmap.lookup_eq_some_iff.2 left
  have second : m.lookup b.1 = some b.2 := Finmap.lookup_eq_some_iff.2 right
  rw [key, second] at first
  exact Sigma.ext key (heq_of_eq (Option.some.inj first).symm)

/-- The name between a common start and two ends of different last characters is determined. -/
theorem name_eq_of_message {before name name' : String} {after after' : String}
    (same : before ++ name ++ after = before ++ name' ++ after')
    (ends : after = after' ∨ after.toList.getLast? ≠ after'.toList.getLast?)
    (given : after.toList ≠ []) (given' : after'.toList ≠ []) : name = name' := by
  have lists := congrArg String.toList same
  simp only [String.toList_append, List.append_assoc, List.append_cancel_left_eq] at lists
  rcases ends with rfl | differ
  · exact String.toList_injective (List.append_cancel_right lists)
  · have last := congrArg List.getLast? lists
    rw [List.getLast?_append_of_ne_nil _ given, List.getLast?_append_of_ne_nil _ given'] at last
    exact absurd last differ

theorem requestError_key {limits : ResourceList} {a b : Σ _ : String, Quantity}
    (violation : requestError limits a ≠ none)
    (same : requestError limits a = requestError limits b) : a.1 = b.1 := by
  unfold requestError at violation same
  split_ifs at violation same
  all_goals first
    | exact absurd rfl violation
    | exact name_eq_of_message (Option.some.inj same) (by decide) (by decide) (by decide)

theorem limitError_key {a b : Σ _ : String, Quantity} (violation : limitError a ≠ none)
    (same : limitError a = limitError b) : a.1 = b.1 := by
  unfold limitError at violation same
  split_ifs at violation same
  · exact name_eq_of_message (Option.some.inj same) (by decide) (by decide) (by decide)
  · exact absurd rfl violation

/-! ## The message and the order of the maps -/

/-- Go may iterate over two maps in any two orders. -/
theorem MapOrder.exists_of_lists {requests limits : ResourceList}
    {first second : List (Σ _ : String, Quantity)}
    (listed : (first : Multiset (Σ _ : String, Quantity)) = requests.entries)
    (listed' : (second : Multiset (Σ _ : String, Quantity)) = limits.entries) :
    ∃ order : MapOrder, order.requests requests = first ∧ order.limits limits = second := by
  refine ⟨⟨fun m => if m = requests then first else m.entries.toList,
    fun m => if m = limits then second else m.entries.toList, fun m => ?_, fun m => ?_⟩,
    if_pos rfl, if_pos rfl⟩
  · split_ifs with here
    · rw [here, listed]
    · exact m.entries.coe_toList
  · split_ifs with here
    · rw [here, listed']
    · exact m.entries.coe_toList

theorem AtMostOne.agree {error : (Σ _ : String, Quantity) → Option String} {m : ResourceList}
    (one : AtMostOne error m) {l : List (Σ _ : String, Quantity)}
    (listed : (l : Multiset (Σ _ : String, Quantity)) = m.entries) :
    ∀ a ∈ l, ∀ b ∈ l, error a ≠ none → error b ≠ none → error a = error b := by
  have members : ∀ a, a ∈ l → a ∈ m.entries := fun a mem => by
    rw [← listed]
    exact mem
  intro a left b right wrong wrong'
  rw [one a (members a left) b (members b right) wrong wrong']

/-- A single violation is reported in the same words whatever the order. -/
theorem SingleViolation.same_message {modelDeployment : ModelDeployment}
    (single : SingleViolation modelDeployment) (order order' : MapOrder) :
    validateSpec order modelDeployment = validateSpec order' modelDeployment := by
  rw [validateSpec_eq, validateSpec_eq]
  rcases single with earlier | ⟨oneRequest, oneLimit⟩
  · obtain ⟨e, found⟩ := Option.ne_none_iff_exists'.1 earlier
    rw [found, Option.some_or, Option.some_or]
  · have requests := findSome?_eq_of_agree
      ((order.requests_entries _).trans (order'.requests_entries _).symm)
      (oneRequest.agree (order.requests_entries _))
    cases report : (order'.requests modelDeployment.spec.resources.requests).findSome?
        (requestError modelDeployment.spec.resources.limits) with
    | some e => rw [requests, report, Option.some_or, Option.some_or]
    | none =>
      have none_wrong : ∀ entry ∈ modelDeployment.spec.resources.requests.entries,
          requestError modelDeployment.spec.resources.limits entry = none := by
        intro entry mem
        exact List.findSome?_eq_none_iff.1 report entry (order'.mem_requests.2 mem)
      have limits := findSome?_eq_of_agree
        ((order.limits_entries _).trans (order'.limits_entries _).symm)
        ((oneLimit none_wrong).agree (order.limits_entries _))
      rw [requests, report, limits]

/-- Two violations of one map are reported in different words by two orders. -/
theorem singleViolation_of_same_message {modelDeployment : ModelDeployment}
    (same : ∀ order order', validateSpec order modelDeployment = validateSpec order' modelDeployment) :
    SingleViolation modelDeployment := by
  by_cases earlier : fieldError modelDeployment = none
  · simp only [validateSpec_eq, earlier, Option.none_or] at same
    refine Or.inr ⟨fun a left b right wrong wrong' => ?_, fun fine a left b right wrong wrong' => ?_⟩
    · refine entry_eq_of_key left right (requestError_key wrong ?_)
      refine agree_of_findSome?_eq (fun l l' listed listed' => ?_) left right wrong wrong'
      -- a request is reported in both orders, so the limits are not looked at
      have reported : ∀ l : List (Σ _ : String, Quantity),
          (l : Multiset _) = modelDeployment.spec.resources.requests.entries →
          ∃ e, l.findSome? (requestError modelDeployment.spec.resources.limits) = some e := by
        intro l listed
        rw [← listed] at left
        have found := List.findSome?_isSome_iff.2 ⟨a, left, Option.isSome_iff_ne_none.2 wrong⟩
        exact Option.isSome_iff_exists.1 found
      obtain ⟨e, report⟩ := reported l listed
      obtain ⟨e', report'⟩ := reported l' listed'
      have limits := modelDeployment.spec.resources.limits.entries.coe_toList
      obtain ⟨order, requests, -⟩ := MapOrder.exists_of_lists listed limits
      obtain ⟨order', requests', -⟩ := MapOrder.exists_of_lists listed' limits
      have equal := same order order'
      rw [requests, requests', report, report', Option.some_or, Option.some_or] at equal
      rw [report, report', equal]
    · refine entry_eq_of_key left right (limitError_key wrong ?_)
      refine agree_of_findSome?_eq (fun l l' listed listed' => ?_) left right wrong wrong'
      have silent : ∀ order : MapOrder, (order.requests
          modelDeployment.spec.resources.requests).findSome?
            (requestError modelDeployment.spec.resources.limits) = none := fun order =>
        List.findSome?_eq_none_iff.2 fun entry mem => fine entry (order.mem_requests.1 mem)
      have requests := modelDeployment.spec.resources.requests.entries.coe_toList
      obtain ⟨order, -, limits⟩ := MapOrder.exists_of_lists requests listed
      obtain ⟨order', -, limits'⟩ := MapOrder.exists_of_lists requests listed'
      have equal := same order order'
      rwa [silent, silent, Option.none_or, Option.none_or, limits, limits'] at equal
  · exact Or.inl earlier

/-! ## The second reconcile -/

/-- A reconcile of a live ModelDeployment with an error reads it and records the error. -/
theorem run_reconcile_invalid {c : Cluster} {key : NamespacedName} {md : ModelDeployment}
    {order : MapOrder} {e : String} (stored : c.object .modelDeployment key = some md)
    (live : md.metadata.deletionTimestamp = none) (wrong : validateSpec order md = some e) :
    (reconcile order key).run serve c =
      let status := (updateStatusIfChanged md (invalidStatus md e fun _ => c.clock)).run serve c
      ⟨⟨.get .modelDeployment key, .ok md⟩ :: ⟨.now, fun _ => c.clock⟩ :: status.log, status.result,
        status.final⟩ := by
  have rest : reconcileRead order md = updateInvalidStatus md e := by
    simp [reconcileRead, live, wrong]
  rw [run_reconcile_stored stored, rest]
  unfold updateInvalidStatus
  rw [Program.perform_bind, Program.run_call_of_serve serve
    (show serve .now c = (fun _ => c.clock, c) from rfl)]

/-- The version of a ModelDeployment that is stored once an error is recorded. -/
def recorded (md : ModelDeployment) (version : Option ℕ) (e : String) (now : String → ℤ) :
    ModelDeployment :=
  { md with
    metadata := { md.metadata with resourceVersion := version }
    status := invalidStatus md e now }

theorem run_reconcile_records {c : Cluster} {key : NamespacedName} {md : ModelDeployment}
    {order : MapOrder} {e : String} (stored : c.object .modelDeployment key = some md)
    (live : md.metadata.deletionTimestamp = none) (wrong : validateSpec order md = some e) :
    ∃ version, ((reconcile order key).run serve c).final.object .modelDeployment key =
      some (recorded md version e fun _ => c.clock) := by
  obtain ⟨log, c', first, recorded, -⟩ :=
    run_updateStatusIfChanged (invalidStatus md e fun _ => c.clock) stored
  rw [run_reconcile_invalid stored live wrong, first]
  exact recorded

/-- Recording an error that the status shows already changes nothing. -/
theorem invalidStatus_recorded (md : ModelDeployment) (version : Option ℕ) (e : String)
    (now now' : String → ℤ) :
    invalidStatus (recorded md version e now) e now' = (recorded md version e now).status := by
  have status : (recorded md version e now).status = invalidStatus md e now := rfl
  have fields : failureFields (recorded md version e now) (invalidStatus md e now) =
      invalidStatus md e now := rfl
  unfold invalidStatus at status fields ⊢
  rw [failureStatus_eq, status, fields]
  refine Report.Shown.write_eq ?_ now'
  rw [failureStatus_eq]
  exact Report.shown_write _ _ _ _

/-- The recorded status determines the error. -/
theorem invalidStatus_injective {md : ModelDeployment} {e e' : String} {now now' : String → ℤ}
    (same : invalidStatus md e now = invalidStatus md e' now') : e = e' := by
  have shown : ∀ e now, Finding.Shown ⟨.true, "InvalidSpec", e⟩ md.metadata.generation
      conditionDegraded (invalidStatus md e now).conditions := by
    intro e now
    unfold invalidStatus
    rw [failureStatus_eq]
    exact (Report.shown_write _ _ _ _).degraded
  obtain ⟨time, others, first⟩ := shown e now
  obtain ⟨time', others', first'⟩ := shown e' now'
  rw [same, first'] at first
  simp only [List.cons.injEq, Condition.mk.injEq] at first
  exact first.1.2.2.2.2.2.symm

/-- The validation reports the same error whatever the order of the maps, and once a reconcile has
recorded an error, the next one finds nothing to write. -/
structure Settles (md : ModelDeployment) : Prop where
  message : ∀ order order', validateSpec order md = validateSpec order' md
  quiet : ∀ order order' key (c c' : Cluster), c.object .modelDeployment key = some md →
    validateSpec order md ≠ none →
    c'.object .modelDeployment key =
      ((reconcile order key).run serve c).final.object .modelDeployment key →
    ∀ event ∈ ((reconcile order' key).run serve c').log, event.1.isWrite = false

theorem quiet_of_same_message {md : ModelDeployment}
    (same : ∀ order order', validateSpec order md = validateSpec order' md) (order order' : MapOrder)
    {key : NamespacedName} {c c' : Cluster} (stored : c.object .modelDeployment key = some md)
    (wrong : validateSpec order md ≠ none)
    (unchanged : c'.object .modelDeployment key =
      ((reconcile order key).run serve c).final.object .modelDeployment key) :
    ∀ event ∈ ((reconcile order' key).run serve c').log, event.1.isWrite = false := by
  by_cases live : md.metadata.deletionTimestamp = none
  · obtain ⟨e, report⟩ := Option.ne_none_iff_exists'.1 wrong
    obtain ⟨version, stored'⟩ := run_reconcile_records stored live report
    have report' : validateSpec order' (recorded md version e fun _ => c.clock) = some e :=
      (same order' order).trans report
    rw [run_reconcile_invalid (unchanged.trans stored') live report',
      run_updateStatusIfChanged_same (invalidStatus_recorded md version e _ _)]
    simp [Op.isWrite]
  · rw [run_reconcile_deleted stored live] at unchanged
    rw [run_reconcile_deleted (unchanged.trans stored) live]
    simp [Op.isWrite]

/-- After a reconcile has recorded one error, a reconcile that finds another one writes the status. -/
theorem write_of_other_message {md : ModelDeployment} {order order' : MapOrder} {e e' : String}
    {key : NamespacedName} {c : Cluster} (stored : c.object .modelDeployment key = some md)
    (live : md.metadata.deletionTimestamp = none) (report : validateSpec order md = some e)
    (report' : validateSpec order' md = some e') (other : e ≠ e') :
    let c' := ((reconcile order key).run serve c).final
    ∃ event ∈ ((reconcile order' key).run serve c').log, event.1.isWrite = true := by
  intro c'
  obtain ⟨version, stored'⟩ := run_reconcile_records stored live report
  have found : validateSpec order' (recorded md version e fun _ => c.clock) = some e' := report'
  have differs : (recorded md version e fun _ => c.clock).status ≠
      invalidStatus (recorded md version e fun _ => c.clock) e' fun _ => c'.clock := by
    rw [← invalidStatus_recorded md version e _ fun _ => c'.clock]
    exact fun same => other (invalidStatus_injective same)
  rw [run_reconcile_invalid stored' live found, run_updateStatusIfChanged_changed stored' differs]
  exact ⟨_, List.mem_cons_of_mem _ (List.mem_cons_of_mem _ (List.mem_singleton_self _)), rfl⟩

/-- The verdict never depends on the order of the maps; the message does not, and the status
settles, exactly when the validation has a single violation to report. -/
theorem invalid_spec_settles_iff (md : ModelDeployment) :
    (∀ order order', validateSpec order md = none ↔ validateSpec order' md = none) ∧
      (Settles md ↔ SingleViolation md) := by
  refine ⟨fun order order' => ?_, fun settles => ?_, fun single => ?_⟩
  · rw [validateSpec_eq_none_iff, validateSpec_eq_none_iff]
  · exact singleViolation_of_same_message settles.message
  · refine ⟨single.same_message, fun order order' key c c' stored wrong unchanged => ?_⟩
    exact quiet_of_same_message single.same_message order order' stored wrong unchanged

/-- A ModelDeployment that requests less than nothing of two resources. -/
def negativeRequests : ModelDeployment where
  metadata := { name := "sentiment", ns := "default", uid := "uid-1", generation := 1 }
  spec :=
    { model := ⟨"sentiment", "v1"⟩
      runtime := { image := "kernexys/model-runtime:v1" }
      resources := { requests := (Finmap.singleton "cpu" (-1)).insert "memory" (-1) } }
  status := {}

/-- The error of `negativeRequests` is that of the entry that Go iterates over first. -/
theorem validateSpec_negativeRequests (name other : String)
    (listed : (([⟨name, -1⟩, ⟨other, -1⟩] : List (Σ _ : String, Quantity)) : Multiset _) =
      negativeRequests.spec.resources.requests.entries) :
    ∃ order, validateSpec order negativeRequests =
      some ("resource request " ++ name ++ " must not be negative") := by
  obtain ⟨order, requests, -⟩ := MapOrder.exists_of_lists listed
    negativeRequests.spec.resources.limits.entries.coe_toList
  have fields : fieldError negativeRequests = none := by decide
  refine ⟨order, ?_⟩
  rw [validateSpec_eq, fields, Option.none_or, requests]
  rfl

/-- The message depends on the order, and the second reconcile writes the status again. -/
theorem negativeRequests_rewritten : ∃ order order',
    validateSpec order negativeRequests = some "resource request cpu must not be negative" ∧
      validateSpec order' negativeRequests = some "resource request memory must not be negative" ∧
      let c := Cluster.empty.put .modelDeployment negativeRequests
      let c' := ((reconcile order ⟨"sentiment", "default"⟩).run serve c).final
      ∃ event ∈ ((reconcile order' ⟨"sentiment", "default"⟩).run serve c').log,
        event.1.isWrite = true := by
  obtain ⟨order, report⟩ := validateSpec_negativeRequests "cpu" "memory" (by decide)
  obtain ⟨order', report'⟩ := validateSpec_negativeRequests "memory" "cpu" (by decide)
  refine ⟨order, order', report, report', ?_⟩
  exact write_of_other_message (c := Cluster.empty.put .modelDeployment negativeRequests) rfl rfl
    report report' (by decide)

end Kernexys.Controller
