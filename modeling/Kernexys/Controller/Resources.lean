import Kernexys.Controller.Workload

/-!
# The resources of the runtime container

`validateSpec` compares the maps that the user gave, and `effectiveResources` then replaces an empty
map by its defaults.  The request of a resource stays within its limit exactly when the user's map
fits the defaults of the other one (`effective_resources_admissible_iff`).
-/

namespace Kernexys.Controller

/-- The rule of the API server: no request is negative or above the limit of its resource. -/
def ResourceRequirements.Admissible (resources : ResourceRequirements) : Prop :=
  ∀ name request limit, resources.requests.lookup name = some request →
    resources.limits.lookup name = some limit → 0 ≤ request ∧ request ≤ limit

/-- Where one of the maps is omitted, the entries of the other fit the defaults that take its
place. -/
structure DefaultsFit (resources : RuntimeResources) : Prop where
  cpuRequest : resources.limits = ∅ →
    ∀ request, resources.requests.lookup "cpu" = some request → request ≤ defaultCPULimit
  memoryRequest : resources.limits = ∅ →
    ∀ request, resources.requests.lookup "memory" = some request → request ≤ defaultMemoryLimit
  cpuLimit : resources.requests = ∅ →
    ∀ limit, resources.limits.lookup "cpu" = some limit → defaultCPURequest ≤ limit
  memoryLimit : resources.requests = ∅ →
    ∀ limit, resources.limits.lookup "memory" = some limit → defaultMemoryRequest ≤ limit

/-- A map with an amount of each of the two default resources. -/
def cpuAndMemory (cpu memory : Quantity) : ResourceList :=
  (Finmap.singleton "cpu" cpu).insert "memory" memory

theorem lookup_cpuAndMemory {cpu memory quantity : Quantity} {name : String} :
    (cpuAndMemory cpu memory).lookup name = some quantity ↔
      (name = "cpu" ∧ quantity = cpu) ∨ (name = "memory" ∧ quantity = memory) := by
  unfold cpuAndMemory
  by_cases isMemory : name = "memory"
  · subst isMemory
    rw [Finmap.lookup_insert]
    simp [eq_comm]
  · rw [Finmap.lookup_insert_of_ne _ isMemory]
    by_cases isCpu : name = "cpu"
    · subst isCpu
      rw [Finmap.lookup_singleton_eq]
      simp [eq_comm]
    · have absent : (Finmap.singleton "cpu" cpu : ResourceList).lookup name = none := by
        rw [Finmap.lookup_eq_none, Finmap.mem_singleton]
        exact isCpu
      simp [absent, isMemory, isCpu]

theorem ne_empty_of_lookup {resources : ResourceList} {name : String} {quantity : Quantity}
    (found : resources.lookup name = some quantity) : resources ≠ ∅ := by
  rintro rfl
  rw [Finmap.lookup_empty] at found
  cases found

theorem effectiveResources_requests (modelDeployment : ModelDeployment) :
    (effectiveResources modelDeployment).requests =
      if modelDeployment.spec.resources.requests = ∅ then
        cpuAndMemory defaultCPURequest defaultMemoryRequest
      else modelDeployment.spec.resources.requests := rfl

theorem effectiveResources_limits (modelDeployment : ModelDeployment) :
    (effectiveResources modelDeployment).limits =
      if modelDeployment.spec.resources.limits = ∅ then
        cpuAndMemory defaultCPULimit defaultMemoryLimit
      else modelDeployment.spec.resources.limits := rfl

theorem requestError_eq_none_iff {limits : ResourceList} {entry : Σ _ : String, Quantity} :
    requestError limits entry = none ↔
      0 ≤ entry.2 ∧ ∀ limit, limits.lookup entry.1 = some limit → entry.2 ≤ limit := by
  unfold requestError
  cases found : limits.lookup entry.1 with
  | none =>
    split_ifs with negative <;> simp_all
  | some limit =>
    split_ifs with negative above <;> simp_all

/-- The requests of a valid spec are not negative, and not above a limit that is given. -/
theorem ValidSpec.request {modelDeployment : ModelDeployment} (valid : ValidSpec modelDeployment)
    {name : String} {request : Quantity}
    (found : modelDeployment.spec.resources.requests.lookup name = some request) :
    0 ≤ request ∧ ∀ limit, modelDeployment.spec.resources.limits.lookup name = some limit →
      request ≤ limit :=
  requestError_eq_none_iff.1 (valid.requests ⟨name, request⟩ (Finmap.lookup_eq_some_iff.1 found))

/-- The effective resources of a valid spec follow the rule exactly when the defaults fit. -/
theorem ValidSpec.admissible_iff {modelDeployment : ModelDeployment}
    (valid : ValidSpec modelDeployment) :
    (effectiveResources modelDeployment).Admissible ↔
      DefaultsFit modelDeployment.spec.resources := by
  have positive : 0 ≤ defaultCPURequest ∧ 0 ≤ defaultMemoryRequest := by decide
  have ordered : defaultCPURequest ≤ defaultCPULimit ∧ defaultMemoryRequest ≤ defaultMemoryLimit := by
    decide
  unfold ResourceRequirements.Admissible
  rw [effectiveResources_requests, effectiveResources_limits]
  constructor
  · intro admissible
    refine ⟨fun omitted request found => ?_, fun omitted request found => ?_,
      fun omitted limit found => ?_, fun omitted limit found => ?_⟩
    · have given := ne_empty_of_lookup found
      rw [if_neg given, if_pos omitted] at admissible
      exact (admissible "cpu" request _ found (lookup_cpuAndMemory.2 (Or.inl ⟨rfl, rfl⟩))).2
    · have given := ne_empty_of_lookup found
      rw [if_neg given, if_pos omitted] at admissible
      exact (admissible "memory" request _ found (lookup_cpuAndMemory.2 (Or.inr ⟨rfl, rfl⟩))).2
    · have given := ne_empty_of_lookup found
      rw [if_pos omitted, if_neg given] at admissible
      exact (admissible "cpu" _ limit (lookup_cpuAndMemory.2 (Or.inl ⟨rfl, rfl⟩)) found).2
    · have given := ne_empty_of_lookup found
      rw [if_pos omitted, if_neg given] at admissible
      exact (admissible "memory" _ limit (lookup_cpuAndMemory.2 (Or.inr ⟨rfl, rfl⟩)) found).2
  · intro fit name request limit requested limited
    split_ifs at requested limited with noRequests noLimits noLimits
    · rcases lookup_cpuAndMemory.1 requested with ⟨rfl, rfl⟩ | ⟨rfl, rfl⟩
      · rcases lookup_cpuAndMemory.1 limited with ⟨-, rfl⟩ | ⟨other, -⟩
        · exact ⟨positive.1, ordered.1⟩
        · exact absurd other (by decide)
      · rcases lookup_cpuAndMemory.1 limited with ⟨other, -⟩ | ⟨-, rfl⟩
        · exact absurd other (by decide)
        · exact ⟨positive.2, ordered.2⟩
    · rcases lookup_cpuAndMemory.1 requested with ⟨rfl, rfl⟩ | ⟨rfl, rfl⟩
      · exact ⟨positive.1, fit.cpuLimit noRequests limit limited⟩
      · exact ⟨positive.2, fit.memoryLimit noRequests limit limited⟩
    · have given := valid.request requested
      rcases lookup_cpuAndMemory.1 limited with ⟨rfl, rfl⟩ | ⟨rfl, rfl⟩
      · exact ⟨given.1, fit.cpuRequest noLimits request requested⟩
      · exact ⟨given.1, fit.memoryRequest noLimits request requested⟩
    · have given := valid.request requested
      exact ⟨given.1, given.2 limit limited⟩

/-- For a spec that passes `validateSpec`, the containers that `mutateDeployment` writes follow the
rule of the API server exactly when the user's maps fit the defaults of the maps they omit. -/
theorem effective_resources_admissible_iff (order : MapOrder) (modelDeployment : ModelDeployment)
    (valid : validateSpec order modelDeployment = none) (deployment : Deployment) :
    (∀ container ∈ (mutateDeployment modelDeployment deployment).spec.template.spec.containers,
      container.resources.Admissible) ↔ DefaultsFit modelDeployment.spec.resources := by
  have spec := (validateSpec_eq_none_iff order modelDeployment).1 valid
  have containers : (mutateDeployment modelDeployment deployment).spec.template.spec.containers =
      [runtimeContainer modelDeployment] := rfl
  rw [containers, List.forall_mem_singleton]
  exact spec.admissible_iff

/-- A ModelDeployment that requests an amount of CPU and names no limits. -/
def cpuRequest (cpu : Quantity) : ModelDeployment where
  metadata := { name := "sentiment", ns := "default" }
  spec :=
    { model := ⟨"sentiment", "v1"⟩
      runtime := { image := "kernexys/model-runtime:v1" }
      resources := { requests := Finmap.singleton "cpu" cpu } }
  status := {}

theorem cpuRequest_valid (order : MapOrder) {cpu : Quantity} (positive : 0 ≤ cpu) :
    validateSpec order (cpuRequest cpu) = none := by
  rw [validateSpec_eq_none_iff]
  refine ⟨?_, ?_, ?_, ?_, ?_, ?_, fun entry mem => ?_, fun entry mem => ?_⟩
  · change trimSpace "sentiment" ≠ ""
    decide
  · change trimSpace "v1" ≠ ""
    decide
  · change trimSpace "kernexys/model-runtime:v1" ≠ ""
    decide
  · change containsAny "kernexys/model-runtime:v1" " \t\r\n" = false
    decide
  · exact ⟨le_refl (1 : ℤ), by change (1 : ℤ) ≤ 100; decide⟩
  · change (1 : ℤ) ≤ 8080 ∧ (8080 : ℤ) ≤ 65535
    decide
  · obtain rfl : entry = ⟨"cpu", cpu⟩ := Multiset.mem_singleton.1 mem
    rw [requestError_eq_none_iff]
    exact ⟨positive, fun limit found => absurd rfl (ne_empty_of_lookup found)⟩
  · exact absurd mem (Multiset.notMem_zero entry)

theorem cpuRequest_fits_iff {cpu : Quantity} :
    DefaultsFit (cpuRequest cpu).spec.resources ↔ cpu ≤ defaultCPULimit := by
  have given : (cpuRequest cpu).spec.resources.requests.lookup "cpu" = some cpu :=
    Finmap.lookup_singleton_eq
  constructor
  · intro fit
    exact fit.cpuRequest rfl cpu given
  · intro small
    refine ⟨fun _ request found => ?_, fun _ request found => ?_, fun omitted => ?_, fun omitted => ?_⟩
    · rw [given] at found
      cases found
      exact small
    · have absent : (cpuRequest cpu).spec.resources.requests.lookup "memory" = none := by
        rw [Finmap.lookup_eq_none]
        change "memory" ∉ (Finmap.singleton "cpu" cpu : ResourceList)
        rw [Finmap.mem_singleton]
        decide
      rw [absent] at found
      cases found
    · exact absurd omitted (ne_empty_of_lookup given)
    · exact absurd omitted (ne_empty_of_lookup given)

/-- Half a CPU is within the default limit. -/
theorem effective_resources_admissible_iff_half :
    validateSpec MapOrder.any (cpuRequest (500 * 10 ^ 6)) = none ∧
      ∀ container ∈ (mutateDeployment (cpuRequest (500 * 10 ^ 6))
        (desiredDeployment (cpuRequest (500 * 10 ^ 6)))).spec.template.spec.containers,
        container.resources.Admissible := by
  have valid : validateSpec MapOrder.any (cpuRequest (500 * 10 ^ 6)) = none :=
    cpuRequest_valid MapOrder.any (by decide)
  exact ⟨valid, (effective_resources_admissible_iff _ _ valid _).2 (cpuRequest_fits_iff.2 (by decide))⟩

/-- Four CPUs are accepted, and the container requests more than its limit of one. -/
theorem fourCpus_exceed_limit :
    (∀ order, validateSpec order (cpuRequest (4 * 10 ^ 9)) = none) ∧
      ∀ deployment, ∃ container ∈
        (mutateDeployment (cpuRequest (4 * 10 ^ 9)) deployment).spec.template.spec.containers,
        container.resources.requests.lookup "cpu" = some (4 * 10 ^ 9) ∧
          container.resources.limits.lookup "cpu" = some (10 ^ 9) ∧
          ¬ container.resources.Admissible := by
  refine ⟨fun order => cpuRequest_valid order (by decide), fun deployment =>
    ⟨runtimeContainer (cpuRequest (4 * 10 ^ 9)), List.mem_singleton_self _, ?_⟩⟩
  have requested : (runtimeContainer (cpuRequest (4 * 10 ^ 9))).resources.requests.lookup "cpu" =
      some (4 * 10 ^ 9) := Finmap.lookup_singleton_eq
  have limited : (runtimeContainer (cpuRequest (4 * 10 ^ 9))).resources.limits.lookup "cpu" =
      some (10 ^ 9) := lookup_cpuAndMemory.2 (Or.inl ⟨rfl, rfl⟩)
  refine ⟨requested, limited, fun admissible => ?_⟩
  exact absurd (admissible "cpu" _ _ requested limited).2 (by decide)

end Kernexys.Controller
