import FTuner.Workload.Dag
import Mathlib.Algebra.Ring.Int.Defs
import Mathlib.Data.List.Sort

namespace FTuner

/-! # Candidate filters

The per-instance filters of `EfficientSearch` take the parallel vectors `configs` and
`cand_states` and return the survivors as two parallel vectors.  A `State` is modelled by what
the filters read of it, its stage count and its split steps; an element of `cand_states` may
be a default-constructed, undefined `State`.  `floor_div` and `floor_by` of `utils.h`, which
are not under src/, are parameters.  The filters' `size_t` values are `Nat`, and their `float`
penalties are `FloatValue`s: exact when finite, with the infinities and NaN of a division by a
zero `floor_by`.
-/

/-- A transform step; the filters read only split steps. -/
inductive Step where
  /-- `SplitStepNode`: the extent it splits and its factors, each an `Optional`. -/
  | split (extent : Option ShapeExpr) (lengths : List (Option Int))
  | other
  deriving DecidableEq, Repr

/-- The parts of a defined `State` that the filters read. -/
structure State where
  stageCount : Nat
  transformSteps : List Step
  deriving DecidableEq, Repr

/-- `floor_div` and `floor_by` of `utils.h`.  Every call of `floor_div` in the filters stores
its result in a `size_t`, so it is taken with that type. -/
structure Rounding where
  floorDiv : Int → Int → Nat
  floorBy : Int → Int → Int

/-- Division rounded down, the reading of the helpers' names. -/
def Rounding.floor : Rounding :=
  ⟨fun a b => (a / b).toNat, fun a b => a / b * b⟩

/-- Division rounded up, the reading of the spec's occupancy score. -/
def Rounding.ceil : Rounding :=
  ⟨fun a b => ((a + b - 1) / b).toNat, fun a b => (a + b - 1) / b * b⟩

/-- `static_cast<size_t>(value)`. -/
def sizeT (value : Int) : Nat :=
  (value % 2 ^ 64).toNat

theorem sizeT_of_nonneg {value : Int} (nonnegative : 0 ≤ value) (small : value < 2 ^ 64) :
    sizeT value = value.toNat := by
  rw [sizeT, Int.emod_eq_of_lt nonnegative small]

/-- An `int` product as the target computes it: wrapped to 32 bits, two's complement. -/
def wrapInt (value : Int) : Int :=
  if value % 4294967296 ≥ 2147483648 then value % 4294967296 - 4294967296 else value % 4294967296

theorem wrapInt_of_bounds {value : Int} (low : -2147483648 ≤ value) (high : value < 2147483648) :
    wrapInt value = value := by
  unfold wrapInt
  split <;> omega

/-- A `float` or `double` value, its finite part exact: the filters divide by `floor_by(...)`,
which can be zero, and IEEE division then gives an infinity or NaN.  Rounding and overflow of
the finite part are not modelled. -/
inductive FloatValue where
  | finite (value : ℚ)
  | infinity (negative : Bool)
  | nan
  deriving DecidableEq, Repr

namespace FloatValue

/-- IEEE division of two finite values.  The divisors here are converted integers, so a zero
divisor is `+0`: it gives an infinity of the dividend's sign, and NaN for `0 / 0`. -/
def div (dividend divisor : ℚ) : FloatValue :=
  if divisor = 0 then (if dividend = 0 then .nan else .infinity (decide (dividend < 0)))
  else .finite (dividend / divisor)

/-- IEEE multiplication: NaN absorbs, an infinity times zero is NaN, and signs combine. -/
def mul : FloatValue → FloatValue → FloatValue
  | .nan, _ | _, .nan => .nan
  | .finite left, .finite right => .finite (left * right)
  | .infinity negative, .infinity negative' => .infinity (negative != negative')
  | .infinity negative, .finite value | .finite value, .infinity negative =>
      if value = 0 then .nan else .infinity (negative != decide (value < 0))

/-- `value > threshold`, which no NaN is. -/
def above (threshold : ℚ) : FloatValue → Bool
  | .finite value => decide (threshold < value)
  | .infinity negative => !negative
  | .nan => false

end FloatValue

/-- `state->...`: an undefined `State` cannot be read. -/
def deref : Option State → Except Fault State
  | some state => .ok state
  | none => .error (.nullDeref "cand_states")

/-- `Optional<T>::value()`. -/
def optionalValue : Option α → Except Fault α
  | some value => .ok value
  | none => .error (.fatal "data_ != nullptr")

/-- `shape_var_value_map` of a filter, after `CHECK(shape_vars.size() == wkl_inst.size())`. -/
def instanceBinding (task : SearchTask) (wklInst : List Int) :
    Except Fault (List (String × Int)) :=
  if task.shapeVars.length = wklInst.length then bindShapeVars task.shapeVars wklInst
  else .error (.fatal "shape_vars.size() == wkl_inst.size()")

/-- The extent of a split step under the instance, and the product of its factors. -/
def splitExtent (binding : List (String × Int)) (extent : Option ShapeExpr)
    (lengths : List (Option Int)) : Except Fault (Int × Int) := do
  let extent ← (← optionalValue extent).eval binding
  let splitLength ← lengths.foldlM (fun product length => do
    pure (product * (← optionalValue length))) 1
  pure (extent, splitLength)

/-- One step of the grid-size loop shared by `OccupancyFilter` and the launch-bounds filters. -/
def gridStep (rounding : Rounding) (binding : List (String × Int)) (grid : Nat) :
    Step → Except Fault Nat
  | .split extent lengths =>
      if lengths.length = 3 then do
        let (extent, splitLength) ← splitExtent binding extent lengths
        let extentRatio := rounding.floorDiv extent splitLength
        if extentRatio ≥ 1 then pure (grid * extentRatio)
        else .error (.fatal "extent_ratio >= 1")
      else pure grid
  | .other => pure grid

/-- The grid size of a candidate: the product of `floor_div(extent, ∏ factors)` over its split
steps with three factors. -/
def gridSize (rounding : Rounding) (binding : List (String × Int)) (state : Option State) :
    Except Fault Nat := do
  (← deref state).transformSteps.foldlM (gridStep rounding binding) 1

/-- One factor of the padding penalty: `extent * 1. / floor_by(extent, ∏ factors)` for a split
step with two or three factors. -/
def paddingStep (rounding : Rounding) (binding : List (String × Int)) (penalty : FloatValue) :
    Step → Except Fault FloatValue
  | .split extent lengths =>
      if lengths.length = 3 ∨ lengths.length = 2 then do
        let (extent, splitLength) ← splitExtent binding extent lengths
        pure (penalty.mul (FloatValue.div extent (rounding.floorBy extent splitLength)))
      else pure penalty
  | .other => pure penalty

def paddingPenalty (rounding : Rounding) (binding : List (String × Int)) (state : Option State) :
    Except Fault FloatValue := do
  (← deref state).transformSteps.foldlM (paddingStep rounding binding) (.finite 1)

/-- One push of a filter's survivor loop: `cand_states[index]`, then `configs[index]`. -/
def pushIndex (configs : List HwAlignedConfig) (states : List (Option State))
    (kept : List HwAlignedConfig × List (Option State)) (index : Nat) :
    Except Fault (List HwAlignedConfig × List (Option State)) := do
  let state ← readAt states index "cand_states"
  let config ← readAt configs index "configs"
  pure (kept.1 ++ [config], kept.2 ++ [state])

/-- The survivor loop of a filter, over the indices it keeps. -/
def pushIndices (indices : List Nat) (configs : List HwAlignedConfig)
    (states : List (Option State)) : Except Fault (List HwAlignedConfig × List (Option State)) :=
  indices.foldlM (pushIndex configs states) ([], [])

section Survivors

variable {configs : List HwAlignedConfig} {states : List (Option State)}

private theorem pushIndices_from : ∀ {indices : List Nat}
    (kept : List HwAlignedConfig × List (Option State)),
    (∀ index ∈ indices, index < configs.length ∧ index < states.length) →
      indices.foldlM (pushIndex configs states) kept =
        .ok (kept.1 ++ indices.filterMap (configs[·]?), kept.2 ++ indices.filterMap (states[·]?))
  | [], kept, _ => by simp
  | index :: indices, kept, inRange => by
      obtain ⟨inConfigs, inStates⟩ := inRange index (List.mem_cons_self _ _)
      simp only [List.foldlM_cons, pushIndex, readAt_of_lt inConfigs, readAt_of_lt inStates,
        ok_bind, pure_eq_ok, pushIndices_from _ fun other mem => inRange other (.tail _ mem),
        List.filterMap_cons_some (List.getElem?_eq_getElem inConfigs),
        List.filterMap_cons_some (List.getElem?_eq_getElem inStates), List.append_assoc,
        List.singleton_append]

theorem pushIndices_eq {indices : List Nat}
    (inRange : ∀ index ∈ indices, index < configs.length ∧ index < states.length) :
    pushIndices indices configs states =
      .ok (indices.filterMap (configs[·]?), indices.filterMap (states[·]?)) :=
  pushIndices_from ([], []) inRange

theorem filterMap_getElem?_eq_nil {values : List α} {indices : List Nat}
    (inRange : ∀ index ∈ indices, index < values.length) :
    indices.filterMap (values[·]?) = [] ↔ indices = [] := by
  cases indices with
  | nil => simp
  | cons index _ =>
      simp [List.filterMap_cons_some (List.getElem?_eq_getElem
        (inRange index (List.mem_cons_self _ _)))]

end Survivors

/-- The indices `i` with `valid_states[i]`, in order. -/
def validIndices (valid : List Bool) : List Nat :=
  valid.enum.filterMap fun (index, keep) => if keep then some index else none

/-- `valid_states` of a predicate filter: `check(configs[index], cand_states[index])` for every
index of `configs`, in a `parallel_for`. -/
def predicateMask (check : HwAlignedConfig → Option State → Except Fault Bool)
    (configs : List HwAlignedConfig) (states : List (Option State)) : Except Fault (List Bool) :=
  configs.enum.mapM fun (index, config) => do check config (← readAt states index "cand_states")

/-- A predicate filter: its mask, then the survivor loop. -/
def predicateFilter (check : HwAlignedConfig → Option State → Except Fault Bool)
    (configs : List HwAlignedConfig) (states : List (Option State)) :
    Except Fault (List HwAlignedConfig × List (Option State)) := do
  pushIndices (validIndices (← predicateMask check configs states)) configs states

section Predicate

variable {check : HwAlignedConfig → Option State → Except Fault Bool}
  {configs : List HwAlignedConfig} {states : List (Option State)} {valid : List Bool}

theorem mem_validIndices {index : Nat} :
    index ∈ validIndices valid ↔ valid[index]? = some true := by
  simp [validIndices, List.mem_enum_iff_getElem?]

theorem predicateFilter_eq (masked : predicateMask check configs states = .ok valid)
    (inRange : configs.length ≤ states.length) :
    predicateFilter check configs states =
      .ok ((validIndices valid).filterMap (configs[·]?),
        (validIndices valid).filterMap (states[·]?)) := by
  have lengthEq : valid.length = configs.length := by
    simpa using mapM_ok_length masked
  rw [predicateFilter, masked, ok_bind, pushIndices_eq]
  intro index kept
  have := (List.getElem?_eq_some_iff.mp (mem_validIndices.mp kept)).1
  omega

theorem predicateFilter_rejects_all
    (rejected : ∀ index (inConfigs : index < configs.length), ∃ state,
      states[index]? = some state ∧ check configs[index] state = .ok false) :
    predicateFilter check configs states = .ok ([], []) := by
  have masked : predicateMask check configs states = .ok (configs.enum.map fun _ => false) := by
    refine mapM_eq_ok_map fun (index, config) listed => ?_
    obtain ⟨inConfigs, found⟩ := List.getElem?_eq_some_iff.mp (List.mem_enum_iff_getElem?.mp listed)
    dsimp only at inConfigs found
    obtain ⟨state, stateFound, fails⟩ := rejected index inConfigs
    simp only [readAt, stateFound, ok_bind]
    exact found ▸ fails
  have none : validIndices (configs.enum.map fun _ => false) = [] := by
    simp [validIndices, List.filterMap_map, List.mem_enum_iff_getElem?, List.getElem?_replicate]
  rw [predicateFilter, masked, ok_bind, none]
  rfl

private theorem enumFrom_sorted_fst : ∀ (start : Nat) (values : List α),
    (values.enumFrom start).Pairwise fun entry other => entry.1 < other.1
  | _, [] => .nil
  | start, _ :: values => List.pairwise_cons.mpr ⟨fun ⟨_, _⟩ mem => by
      have := (List.mem_enumFrom mem).1
      omega, enumFrom_sorted_fst (start + 1) values⟩

theorem enum_filterMap_sorted {values : List α} {pick : Nat × α → Option Nat}
    (picksIndex : ∀ entry index, pick entry = some index → index = entry.1) :
    (values.enum.filterMap pick).Sorted (· < ·) :=
  (enumFrom_sorted_fst 0 values).filterMap pick fun entry other before index picked last
    picked' => by
      rw [picksIndex entry index picked, picksIndex other last picked']
      exact before

theorem validIndices_sorted (valid : List Bool) : (validIndices valid).Sorted (· < ·) :=
  enum_filterMap_sorted fun ⟨index, keep⟩ picked chosen => by
    cases keep <;> simp_all

theorem predicateFilter_exists {check : HwAlignedConfig → Option State → Except Fault Bool}
    (inRange : configs.length ≤ states.length)
    (computed : ∀ (index : Nat) config state, configs[index]? = some config →
      states[index]? = some state → ∃ keep, check config state = .ok keep) :
    ∃ indices : List Nat, predicateFilter check configs states =
        .ok (indices.filterMap (configs[·]?), indices.filterMap (states[·]?)) ∧
      indices.Sorted (· < ·) ∧ ∀ (index : Nat) config state, configs[index]? = some config →
        states[index]? = some state → (index ∈ indices ↔ check config state = .ok true) := by
  have stateAt : ∀ {index config}, configs[index]? = some config →
      ∃ state, states[index]? = some state := fun found => by
    have := (List.getElem?_eq_some_iff.mp found).1
    exact ⟨_, List.getElem?_eq_getElem (by omega)⟩
  obtain ⟨valid, masked⟩ : ∃ valid, predicateMask check configs states = .ok valid := by
    refine mapM_ok_of_forall fun ⟨index, config⟩ listed => ?_
    have found := List.mem_enum_iff_getElem?.mp listed
    obtain ⟨state, stateFound⟩ := stateAt found
    obtain ⟨keep, checked⟩ := computed index config state found stateFound
    exact ⟨keep, by simp [readAt, stateFound, checked]⟩
  refine ⟨validIndices valid, predicateFilter_eq masked inRange, validIndices_sorted valid,
    fun index config state found stateFound => ?_⟩
  obtain ⟨keep, checked, listed⟩ :=
    mapM_ok_getElem? masked
      (by simp [List.getElem?_enum, found] : configs.enum[index]? = some (index, config))
  simp only [readAt, stateFound, ok_bind] at checked
  rw [mem_validIndices, listed, checked]
  cases keep <;> simp

end Predicate

/-- `ThreadsNumberFilter`: the thread count is a multiple of `warp_size * compute_sm_partition[1]`.
Its loop reads a state only for a survivor, as the survivor loop does. -/
def threadsNumberFilter (task : SearchTask) (configs : List HwAlignedConfig)
    (states : List (Option State)) : Except Fault (List HwAlignedConfig × List (Option State)) := do
  let valid ← configs.mapM fun config => do
    let width := task.hardwareApi.warpSize *
      (← readAt task.hardwareApi.computeSmPartition 1 "compute_sm_partition")
    if width = 0 then .error (.fatal "division by zero")
    else pure (decide (config.threadsNum.tmod width = 0))
  pushIndices (validIndices valid) configs states

/-- The test of `PaddingFilter`: the padding penalty is above the threshold. -/
def paddingCheck (rounding : Rounding) (binding : List (String × Int)) (threshold : ℚ)
    (_config : HwAlignedConfig) (state : Option State) : Except Fault Bool := do
  pure ((← paddingPenalty rounding binding state).above threshold)

def paddingFilter (rounding : Rounding) (task : SearchTask) (configs : List HwAlignedConfig)
    (states : List (Option State)) (wklInst : List Int) (threshold : ℚ) :
    Except Fault (List HwAlignedConfig × List (Option State)) := do
  predicateFilter (paddingCheck rounding (← instanceBinding task wklInst) threshold) configs states

/-- `blocks_in_sm`: `min(size_t(smem_sm_partition[1]), floor_div(grid, smem_sm_partition[0]))`. -/
def blocksInSm (rounding : Rounding) (api : HardwareAPI) (grid : Nat) : Except Fault Nat := do
  let perPartition ← readAt api.smemSmPartition 1 "smem_sm_partition"
  let partitions ← readAt api.smemSmPartition 0 "smem_sm_partition"
  pure (min (sizeT perPartition) (rounding.floorDiv grid partitions))

/-- `RegisterLaunchBoundsFilter`.  `sch_base` is read from `cand_states[0]` before anything
else, and the register estimate adds `1/16` per reduce tile of `reduce_tiles[0][0]`; the `int`
products `reg * reduce_tiles[0][0]` and `reg * sch_base` wrap. -/
def registerLaunchBoundsFilter (rounding : Rounding) (task : SearchTask)
    (configs : List HwAlignedConfig) (states : List (Option State)) (wklInst : List Int) :
    Except Fault (List HwAlignedConfig × List (Option State)) := do
  let api := task.hardwareApi
  let first ← deref (← readAt states 0 "cand_states")
  let schBase : Int := if first.stageCount > 7 then 2 else 1
  let binding ← instanceBinding task wklInst
  predicateFilter (fun config state => do
    let blocks ← blocksInSm rounding api (← gridSize rounding binding state)
    let reduceTile ← readAt (← readAt config.reduceTiles 0 "reduce_tiles") 0 "reduce_tiles[0]"
    let reg := config.singleThreadRegUsage
    let spill := (wrapInt (reg * reduceTile) : ℚ) / 16
    pure (decide ((blocks : ℚ) * config.threadsNum * (reg + spill) < api.maxRegPerSm) &&
      decide ((wrapInt (reg * schBase) : ℚ) + spill < 255)))
    configs states

/-- `SharedMemoryLaunchBoundsFilter`; its second test, `> max`, never changes the first. -/
def sharedMemoryLaunchBoundsFilter (rounding : Rounding) (task : SearchTask)
    (configs : List HwAlignedConfig) (states : List (Option State)) (wklInst : List Int) :
    Except Fault (List HwAlignedConfig × List (Option State)) := do
  let api := task.hardwareApi
  let binding ← instanceBinding task wklInst
  predicateFilter (fun config state => do
    let blocks ← blocksInSm rounding api (← gridSize rounding binding state)
    let usage := (blocks : Int) * config.smemUsage
    pure (decide (usage < api.maxSmemUsagePerSm) && !decide (usage > api.maxSmemUsagePerSm)))
    configs states

/-- The compute-intensity filters: the `top` candidates of largest
`compute_intensive_ratio[level]`, by `std::sort` of the (config, index) pairs, which is not
stable; `List.mergeSort` is one of its orders. -/
def computeIntensiveFilter (level top : Nat) (configs : List HwAlignedConfig)
    (states : List (Option State)) : Except Fault (List HwAlignedConfig × List (Option State)) := do
  let keyed ← configs.enum.mapM fun (index, config) => do
    pure ((← readAt config.computeIntensiveRatio level "compute_intensive_ratio"), config, index)
  let sorted := keyed.mergeSort fun a b => decide (b.1 ≤ a.1)
  (sorted.take top).foldlM (fun (keptConfigs, keptStates) (_, config, index) => do
    pure (keptConfigs ++ [config], keptStates ++ [← readAt states index "cand_states"])) ([], [])

def sharedMemoryComputeIntensiveFilter (configs : List HwAlignedConfig)
    (states : List (Option State)) : Except Fault (List HwAlignedConfig × List (Option State)) :=
  computeIntensiveFilter 0 20 configs states

def regComputeIntensiveFilter (configs : List HwAlignedConfig) (states : List (Option State)) :
    Except Fault (List HwAlignedConfig × List (Option State)) :=
  computeIntensiveFilter 1 10 configs states

end FTuner
