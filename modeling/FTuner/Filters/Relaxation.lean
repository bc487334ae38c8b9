import FTuner.Filters.Candidates
import Mathlib.Algebra.Order.Archimedean.Basic

namespace FTuner

/-! # Progressive relaxation

`OccupancyFilter` and the padding loop of `EfficientSearch` run a filter at the thresholds
`0.95, 0.90, …` until it keeps a config.  The threshold is a `float` in `OccupancyFilter` and a
`double` in the padding loop, and each stops falling where `0.05` is below half an ulp.
`relaxUntilKept` is that loop, bounded by fuel.  It returns exactly when some round keeps a
config (`relaxUntilKept_returns`), so a candidate is eventually kept exactly when its penalty is
above the threshold's floor: a finite penalty above it or `+∞`, never NaN or `-∞`
(`above_relaxedThreshold_iff`).
-/

/-- Where `occupancy_ratio`, a `float`, stops falling: from `2^20` on half an ulp exceeds `0.05`,
so `occupancy_ratio -= 0.05` leaves `-2^20` unchanged. -/
def occupancyRatioFloor : ℚ :=
  -1048576

/-- Where `padding_penalty_threshold`, a `double`, stops falling: `-2^49`. -/
def paddingThresholdFloor : ℚ :=
  -562949953421312

/-- The threshold of round `step`: `0.95 - 0.05 * step`, until it reaches `floor`. -/
def relaxedThreshold (floor : ℚ) (step : Nat) : ℚ :=
  max (19 / 20 - step / 20) floor

theorem exists_relaxedThreshold_lt {floor penalty : ℚ} (above : floor < penalty) :
    ∃ step, relaxedThreshold floor step < penalty := by
  obtain ⟨step, large⟩ := exists_nat_gt (19 - 20 * penalty)
  exact ⟨step, max_lt (by linarith) above⟩

theorem above_relaxedThreshold_iff {floor : ℚ} {penalty : FloatValue} :
    (∃ step, penalty.above (relaxedThreshold floor step)) ↔ penalty.above floor := by
  cases penalty with
  | finite value =>
      simp only [FloatValue.above, decide_eq_true_eq]
      exact ⟨fun ⟨step, below⟩ => lt_of_le_of_lt (le_max_right _ _) below,
        exists_relaxedThreshold_lt⟩
  | infinity negative => exact ⟨fun ⟨_, kept⟩ => kept, fun kept => ⟨0, kept⟩⟩
  | nan => simp [FloatValue.above]

/-- The relaxation loop: `pass` at `relaxedThreshold floor step`, `step + 1`, … until a round
keeps a config. -/
def relaxUntilKept (floor : ℚ) (pass : ℚ → Except Fault (List α × List β)) :
    Nat → Nat → Except Fault (List α × List β)
  | 0, _ => .error .outOfFuel
  | fuel + 1, step => do
      let kept ← pass (relaxedThreshold floor step)
      if kept.1.isEmpty then relaxUntilKept floor pass fuel (step + 1) else pure kept

section Relax

variable {floor : ℚ} {pass : ℚ → Except Fault (List α × List β)}

theorem relaxUntilKept_kept : ∀ {fuel step : Nat} {kept : List α × List β},
    relaxUntilKept floor pass fuel step = .ok kept →
      kept.1 ≠ [] ∧ ∃ later, step ≤ later ∧ pass (relaxedThreshold floor later) = .ok kept
  | 0, _, _, ran => by cases ran
  | fuel + 1, step, kept, ran => by
      obtain ⟨round, computed, ran⟩ := bind_eq_ok.mp ran
      by_cases empty : round.1.isEmpty
      · simp only [empty, if_true] at ran
        obtain ⟨nonempty, later, le, keeps⟩ := relaxUntilKept_kept ran
        exact ⟨nonempty, later, by omega, keeps⟩
      · rw [if_neg empty] at ran
        cases ran
        exact ⟨by simpa using empty, step, le_rfl, computed⟩

theorem relaxUntilKept_never
    (keepsNothing : ∀ step, ∃ kept, pass (relaxedThreshold floor step) = .ok kept ∧ kept.1 = []) :
    ∀ fuel step, relaxUntilKept floor pass fuel step = .error .outOfFuel
  | 0, _ => rfl
  | fuel + 1, step => by
      obtain ⟨kept, computed, empty⟩ := keepsNothing step
      simp [relaxUntilKept, computed, empty, relaxUntilKept_never keepsNothing fuel (step + 1)]

theorem relaxUntilKept_error (computed : ∀ threshold, ∃ kept, pass threshold = .ok kept) :
    ∀ {fuel step : Nat} {fault : Fault}, relaxUntilKept floor pass fuel step = .error fault →
      fault = .outOfFuel
  | 0, _, _, ran => by cases ran; rfl
  | fuel + 1, step, fault, ran => by
      obtain ⟨round, computedRound⟩ := computed (relaxedThreshold floor step)
      rw [relaxUntilKept.eq_2, computedRound, ok_bind] at ran
      split at ran
      · exact relaxUntilKept_error computed ran
      · cases ran

theorem relaxUntilKept_returns (computed : ∀ threshold, ∃ kept, pass threshold = .ok kept)
    {later : Nat} (keeps : ∃ kept, pass (relaxedThreshold floor later) = .ok kept ∧ kept.1 ≠ []) :
    ∀ distance step, step + distance = later →
      ∃ kept, relaxUntilKept floor pass (distance + 1) step = .ok kept
  | 0, step, reached => by
      obtain ⟨kept, ran, nonempty⟩ := keeps
      rw [← reached, Nat.add_zero] at ran
      exact ⟨kept, by
        rw [relaxUntilKept.eq_2, ran, ok_bind, if_neg (by simpa [List.isEmpty_iff] using nonempty)]
        rfl⟩
  | distance + 1, step, reached => by
      obtain ⟨round, ran⟩ := computed (relaxedThreshold floor step)
      by_cases empty : round.1.isEmpty
      · obtain ⟨kept, rest⟩ := relaxUntilKept_returns computed keeps distance (step + 1) (by omega)
        exact ⟨kept, by rw [relaxUntilKept.eq_2, ran, ok_bind, if_pos empty, rest]⟩
      · exact ⟨round, by rw [relaxUntilKept.eq_2, ran, ok_bind, if_neg empty]; rfl⟩

end Relax

/-- The grid sizes of `OccupancyFilter`, one per index of `configs`. -/
def occupancyGrids (rounding : Rounding) (task : SearchTask) (configs : List HwAlignedConfig)
    (states : List (Option State)) (wklInst : List Int) : Except Fault (List Nat) := do
  let binding ← instanceBinding task wklInst
  (List.range configs.length).mapM fun index => do
    gridSize rounding binding (← readAt states index "cand_states")

/-- `max_grid_size`. -/
def maxGridSize (grids : List Nat) : Nat :=
  grids.foldl max 0

/-- The occupancy score `coeff * g / ((coeff - 1) * g + floor_by(g, num_cores))`, where `coeff`
is `lt_ratio` for a grid below `num_cores` and `gt_ratio` otherwise; a zero denominator gives an
infinity, or NaN when `coeff * g` is zero too. -/
def occupancyPenalty (rounding : Rounding) (api : HardwareAPI) (grid : Nat) : FloatValue :=
  let coeff := if grid < sizeT api.numCores then api.ltRatio else api.gtRatio
  FloatValue.div (coeff * grid) ((coeff - 1) * grid + rounding.floorBy grid api.numCores)

/-- The indices one round of `OccupancyFilter` pushes, in order: for each `sm_times` from `first`
up to `max_sm_times`, the candidates with `floor_div(grid, glbmem_sm_partition[0]) == sm_times`
whose score is above `occupancy_ratio`. -/
def occupancyPicks (rounding : Rounding) (api : HardwareAPI) (grids : List Nat) (glbmem : Int)
    (first maxSmTimes : Nat) (ratio : ℚ) : List Nat :=
  (List.range' first (maxSmTimes + 1 - first)).flatMap fun smTimes =>
    grids.enum.filterMap fun (index, grid) =>
      if rounding.floorDiv grid glbmem = smTimes ∧ (occupancyPenalty rounding api grid).above ratio
      then some index
      else none

/-- One round of the outer loop of `OccupancyFilter`; `sm_times` starts at
`smem_sm_partition[1]`. -/
def occupancyRound (rounding : Rounding) (api : HardwareAPI) (grids : List Nat) (glbmem : Int)
    (maxSmTimes : Nat) (configs : List HwAlignedConfig) (states : List (Option State))
    (ratio : ℚ) : Except Fault (List HwAlignedConfig × List (Option State)) := do
  let first := sizeT (← readAt api.smemSmPartition 1 "smem_sm_partition")
  pushIndices (occupancyPicks rounding api grids glbmem first maxSmTimes ratio) configs states

/-- `OccupancyFilter`, its `while (filtered_configs.size() == 0)` loop bounded by `fuel`. -/
def occupancyFilter (rounding : Rounding) (task : SearchTask) (configs : List HwAlignedConfig)
    (states : List (Option State)) (wklInst : List Int) (fuel : Nat) :
    Except Fault (List HwAlignedConfig × List (Option State)) := do
  let grids ← occupancyGrids rounding task configs states wklInst
  let glbmem ← readAt task.hardwareApi.glbmemSmPartition 0 "glbmem_sm_partition"
  let maxSmTimes := rounding.floorDiv (maxGridSize grids) glbmem
  relaxUntilKept occupancyRatioFloor
    (occupancyRound rounding task.hardwareApi grids glbmem maxSmTimes configs states) fuel 0

section Occupancy

variable {rounding : Rounding} {task : SearchTask} {configs : List HwAlignedConfig}
  {states : List (Option State)} {wklInst : List Int} {grids : List Nat}

theorem occupancyGrids_lengths
    (computed : occupancyGrids rounding task configs states wklInst = .ok grids) :
    grids.length = configs.length ∧ configs.length ≤ states.length := by
  obtain ⟨binding, -, computed⟩ := bind_eq_ok.mp computed
  refine ⟨by simpa using mapM_ok_length computed, ?_⟩
  cases lengthEq : configs.length with
  | zero => omega
  | succ last =>
      obtain ⟨grid, read⟩ := mapM_ok_forall computed last (by simp [lengthEq])
      obtain ⟨state, stateRead, -⟩ := bind_eq_ok.mp read
      obtain ⟨inRange, -⟩ := readAt_eq_ok stateRead
      omega

private theorem foldl_max_mem : ∀ (first : Nat) (rest : List Nat),
    rest.foldl max first ∈ first :: rest
  | _, [] => List.mem_singleton_self _
  | first, next :: rest => by
      rcases Nat.le_total first next with le | le
      · simpa [Nat.max_eq_right le] using List.mem_cons_of_mem _ (foldl_max_mem next rest)
      · have mem := foldl_max_mem first rest
        simp only [List.foldl_cons, Nat.max_eq_left le, List.mem_cons] at mem ⊢
        tauto

theorem maxGridSize_mem (nonempty : grids ≠ []) : maxGridSize grids ∈ grids := by
  obtain ⟨first, rest, rfl⟩ := List.exists_cons_of_ne_nil nonempty
  simpa [maxGridSize] using foldl_max_mem first rest

theorem mem_occupancyPicks {api : HardwareAPI} {glbmem : Int} {first maxSmTimes index : Nat}
    {ratio : ℚ} : index ∈ occupancyPicks rounding api grids glbmem first maxSmTimes ratio ↔
      ∃ grid, grids[index]? = some grid ∧ first ≤ rounding.floorDiv grid glbmem ∧
        rounding.floorDiv grid glbmem ≤ maxSmTimes ∧
        (occupancyPenalty rounding api grid).above ratio := by
  simp only [occupancyPicks, List.mem_flatMap, List.mem_range'_1, List.mem_filterMap,
    Option.ite_none_right_eq_some, Option.some.injEq, Prod.exists, List.mem_enum_iff_getElem?]
  constructor
  · rintro ⟨smTimes, window, _, grid, found, ⟨rfl, beats⟩, rfl⟩
    exact ⟨grid, found, window.1, by omega, beats⟩
  · rintro ⟨grid, found, low, high, beats⟩
    exact ⟨_, ⟨low, by omega⟩, index, grid, found, ⟨rfl, beats⟩, rfl⟩

section Window

variable {glbmem perPartition : Int}
  (gridsComputed : occupancyGrids rounding task configs states wklInst = .ok grids)
  (glbmemRead : task.hardwareApi.glbmemSmPartition[0]? = some glbmem)
  (partitionRead : task.hardwareApi.smemSmPartition[1]? = some perPartition)
include gridsComputed

theorem occupancyRound_eq (partitionRead : task.hardwareApi.smemSmPartition[1]? = some perPartition)
    (maxSmTimes : Nat) (ratio : ℚ) :
    let picks := occupancyPicks rounding task.hardwareApi grids glbmem (sizeT perPartition)
      maxSmTimes ratio
    occupancyRound rounding task.hardwareApi grids glbmem maxSmTimes configs states ratio =
      .ok (picks.filterMap (configs[·]?), picks.filterMap (states[·]?)) := by
  have lengths := occupancyGrids_lengths gridsComputed
  have inRange : ∀ index ∈ occupancyPicks rounding task.hardwareApi grids glbmem
      (sizeT perPartition) maxSmTimes ratio, index < configs.length ∧ index < states.length := by
    intro index picked
    obtain ⟨grid, found, -⟩ := mem_occupancyPicks.mp picked
    have := (List.getElem?_eq_some_iff.mp found).1
    omega
  simp only [occupancyRound, readAt, partitionRead, ok_bind]
  exact pushIndices_eq inRange

include glbmemRead in
theorem occupancyFilter_eq_relax (fuel : Nat) :
    occupancyFilter rounding task configs states wklInst fuel =
      relaxUntilKept occupancyRatioFloor (occupancyRound rounding task.hardwareApi grids glbmem
        (rounding.floorDiv (maxGridSize grids) glbmem) configs states) fuel 0 := by
  simp [occupancyFilter, gridsComputed, readAt, glbmemRead]

include glbmemRead partitionRead in
theorem occupancyFilter_never
    (empty : ¬(configs ≠ [] ∧ sizeT perPartition ≤ rounding.floorDiv (maxGridSize grids) glbmem))
    (fuel : Nat) :
    occupancyFilter rounding task configs states wklInst fuel = .error .outOfFuel := by
  have lengths := occupancyGrids_lengths gridsComputed
  rw [occupancyFilter_eq_relax gridsComputed glbmemRead]
  refine relaxUntilKept_never
    (fun step => ⟨_, occupancyRound_eq gridsComputed partitionRead _ _, ?_⟩)
    fuel 0
  simp only [List.filterMap_eq_nil_iff, Option.eq_none_iff_forall_not_mem]
  intro index picked
  obtain ⟨grid, found, low, high, -⟩ := mem_occupancyPicks.mp picked
  have inGrids := (List.getElem?_eq_some_iff.mp found).1
  exact absurd ⟨List.ne_nil_of_length_pos (by omega), by
    have := maxGridSize_mem (List.ne_nil_of_length_pos (by omega : 0 < grids.length))
    omega⟩ empty

include glbmemRead partitionRead in
theorem occupancyFilter_returns {index grid : Nat} (found : grids[index]? = some grid)
    (low : sizeT perPartition ≤ rounding.floorDiv grid glbmem)
    (high : rounding.floorDiv grid glbmem ≤ rounding.floorDiv (maxGridSize grids) glbmem)
    (above : (occupancyPenalty rounding task.hardwareApi grid).above occupancyRatioFloor) :
    ∃ fuel kept, occupancyFilter rounding task configs states wklInst fuel = .ok kept := by
  have lengths := occupancyGrids_lengths gridsComputed
  obtain ⟨step, below⟩ := above_relaxedThreshold_iff.mpr above
  let picks := occupancyPicks rounding task.hardwareApi grids glbmem (sizeT perPartition)
    (rounding.floorDiv (maxGridSize grids) glbmem) (relaxedThreshold occupancyRatioFloor step)
  have inConfigs : ∀ picked ∈ picks, picked < configs.length := fun picked mem => by
    obtain ⟨grid, found, -⟩ := mem_occupancyPicks.mp mem
    have := (List.getElem?_eq_some_iff.mp found).1
    omega
  have keeps : picks.filterMap (configs[·]?) ≠ [] := by
    rw [Ne, filterMap_getElem?_eq_nil inConfigs]
    exact List.ne_nil_of_mem (mem_occupancyPicks.mpr ⟨_, found, low, high, below⟩)
  obtain ⟨kept, ran⟩ := relaxUntilKept_returns
    (fun ratio => ⟨_, occupancyRound_eq gridsComputed partitionRead _ ratio⟩)
    ⟨_, occupancyRound_eq gridsComputed partitionRead _ _, keeps⟩ step 0 (Nat.zero_add step)
  exact ⟨step + 1, kept, by rw [occupancyFilter_eq_relax gridsComputed glbmemRead]; exact ran⟩

include glbmemRead partitionRead in
theorem occupancyFilter_kept_pairs {fuel : Nat} {kept : List HwAlignedConfig × List (Option State)}
    (ran : occupancyFilter rounding task configs states wklInst fuel = .ok kept) :
    ∃ picks : List Nat, (∀ index ∈ picks, index < configs.length) ∧
      kept = (picks.filterMap (configs[·]?), picks.filterMap (states[·]?)) := by
  rw [occupancyFilter_eq_relax gridsComputed glbmemRead] at ran
  obtain ⟨-, later, -, round⟩ := relaxUntilKept_kept ran
  rw [occupancyRound_eq gridsComputed partitionRead] at round
  cases round
  refine ⟨_, fun index picked => ?_, rfl⟩
  obtain ⟨grid, found, -⟩ := mem_occupancyPicks.mp picked
  have := (List.getElem?_eq_some_iff.mp found).1
  have := (occupancyGrids_lengths gridsComputed).1
  omega

include glbmemRead partitionRead in
theorem occupancyFilter_error {fuel : Nat} {fault : Fault}
    (ran : occupancyFilter rounding task configs states wklInst fuel = .error fault) :
    fault = .outOfFuel := by
  rw [occupancyFilter_eq_relax gridsComputed glbmemRead] at ran
  exact relaxUntilKept_error
    (fun ratio => ⟨_, occupancyRound_eq gridsComputed partitionRead _ ratio⟩) ran

end Window

theorem occupancyFilter_kept {fuel : Nat} {kept : List HwAlignedConfig × List (Option State)}
    (ran : occupancyFilter rounding task configs states wklInst fuel = .ok kept) : kept.1 ≠ [] := by
  obtain ⟨grids, -, ran⟩ := bind_eq_ok.mp ran
  obtain ⟨glbmem, -, ran⟩ := bind_eq_ok.mp ran
  exact (relaxUntilKept_kept ran).1

/-- `OccupancyFilter` returns exactly when some grid lies in its window, from
`smem_sm_partition[1]` to `floor_div(max grid, glbmem_sm_partition[0])`, with a score above the
floor of `occupancy_ratio`: a finite score above `-2^20`, or `+∞`, but never NaN.  What it
returns is non-empty. -/
theorem occupancyFilter_returns_iff_window {glbmem perPartition : Int}
    (gridsComputed : occupancyGrids rounding task configs states wklInst = .ok grids)
    (glbmemRead : task.hardwareApi.glbmemSmPartition[0]? = some glbmem)
    (partitionRead : task.hardwareApi.smemSmPartition[1]? = some perPartition) :
    ((∃ fuel kept, occupancyFilter rounding task configs states wklInst fuel = .ok kept) ↔
      ∃ grid ∈ grids, sizeT perPartition ≤ rounding.floorDiv grid glbmem ∧
        rounding.floorDiv grid glbmem ≤ rounding.floorDiv (maxGridSize grids) glbmem ∧
        (occupancyPenalty rounding task.hardwareApi grid).above occupancyRatioFloor) ∧
    ∀ fuel kept, occupancyFilter rounding task configs states wklInst fuel = .ok kept →
      kept.1 ≠ [] := by
  refine ⟨⟨fun ⟨fuel, kept, ran⟩ => ?_, fun ⟨grid, listed, low, high, above⟩ => ?_⟩,
    fun _ _ => occupancyFilter_kept⟩
  · rw [occupancyFilter_eq_relax gridsComputed glbmemRead] at ran
    obtain ⟨nonempty, later, -, round⟩ := relaxUntilKept_kept ran
    rw [occupancyRound_eq gridsComputed partitionRead] at round
    cases round
    obtain ⟨config, kept⟩ := List.exists_mem_of_ne_nil _ nonempty
    obtain ⟨index, picked, -⟩ := List.mem_filterMap.mp kept
    obtain ⟨grid, found, low, high, above⟩ := mem_occupancyPicks.mp picked
    exact ⟨grid, List.getElem?_mem found, low, high, above_relaxedThreshold_iff.mp ⟨later, above⟩⟩
  · obtain ⟨index, found⟩ := List.mem_iff_getElem?.mp listed
    exact occupancyFilter_returns gridsComputed glbmemRead partitionRead found low high above

end Occupancy

/-- The `while (true)` padding loop of `EfficientSearch`: `PaddingFilter` at `0.95, 0.90, …` on
the same candidates until it keeps a config. -/
def paddingRelaxation (rounding : Rounding) (task : SearchTask) (configs : List HwAlignedConfig)
    (states : List (Option State)) (wklInst : List Int) (fuel : Nat) :
    Except Fault (List HwAlignedConfig × List (Option State)) :=
  relaxUntilKept paddingThresholdFloor (paddingFilter rounding task configs states wklInst) fuel 0

section Padding

variable {rounding : Rounding} {task : SearchTask} {wklInst : List Int}
  {binding : List (String × Int)} (bound : instanceBinding task wklInst = .ok binding)
include bound

theorem paddingRelaxation_empty (fuel : Nat) :
    paddingRelaxation rounding task [] [] wklInst fuel = .error .outOfFuel :=
  relaxUntilKept_never (fun _ => ⟨([], []), by rw [paddingFilter, bound, ok_bind]; rfl, rfl⟩)
    fuel 0

variable {configs : List HwAlignedConfig} {states : List (Option State)}
  (computed : ∀ index < configs.length, ∃ state penalty,
    states[index]? = some state ∧ paddingPenalty rounding binding state = .ok penalty)
include computed

theorem paddingFilter_keeps_above (threshold : ℚ) :
    ∃ indices : List Nat, paddingFilter rounding task configs states wklInst threshold =
        .ok (indices.filterMap (configs[·]?), indices.filterMap (states[·]?)) ∧
      ∀ (index : Nat) config state penalty, configs[index]? = some config →
        states[index]? = some state → paddingPenalty rounding binding state = .ok penalty →
        (index ∈ indices ↔ penalty.above threshold) := by
  have inRange : configs.length ≤ states.length := by
    rcases Nat.eq_zero_or_pos configs.length with empty | positive
    · omega
    · obtain ⟨state, -, found, -⟩ := computed (configs.length - 1) (by omega)
      have := (List.getElem?_eq_some_iff.mp found).1
      omega
  have check : ∀ (index : Nat) config state penalty, configs[index]? = some config →
      states[index]? = some state → paddingPenalty rounding binding state = .ok penalty →
      paddingCheck rounding binding threshold config state = .ok (penalty.above threshold) :=
    fun _ _ _ _ _ _ penaltyOk => by simp [paddingCheck, penaltyOk]
  have penaltyAt : ∀ {index : Nat} {config state}, configs[index]? = some config →
      states[index]? = some state → ∃ penalty, paddingPenalty rounding binding state = .ok penalty :=
    fun found stateFound => by
      obtain ⟨_, penalty, stateFound', penaltyOk⟩ :=
        computed _ (List.getElem?_eq_some_iff.mp found).1
      rw [stateFound, Option.some.injEq] at stateFound'
      exact ⟨penalty, stateFound' ▸ penaltyOk⟩
  rw [paddingFilter, bound, ok_bind]
  obtain ⟨indices, filtered, -, keeps⟩ := predicateFilter_exists inRange
    fun index config state found stateFound => by
      obtain ⟨penalty, penaltyOk⟩ := penaltyAt found stateFound
      exact ⟨_, check index config state penalty found stateFound penaltyOk⟩
  refine ⟨indices, filtered, fun index config state penalty found stateFound penaltyOk => ?_⟩
  rw [keeps index config state found stateFound,
    check index config state penalty found stateFound penaltyOk, Except.ok.injEq]

/-- On candidates whose padding penalties compute, the padding loop returns, for some fuel,
exactly when some candidate's penalty is above the floor of `padding_penalty_threshold`: a finite
penalty above `-2^49`, or `+∞`, but never NaN, which a zero extent gives. -/
theorem paddingRelaxation_returns_iff :
    (∃ fuel kept, paddingRelaxation rounding task configs states wklInst fuel = .ok kept) ↔
      ∃ index < configs.length, ∃ state penalty, states[index]? = some state ∧
        paddingPenalty rounding binding state = .ok penalty ∧
        penalty.above paddingThresholdFloor := by
  constructor
  · rintro ⟨fuel, kept, ran⟩
    obtain ⟨nonempty, later, -, round⟩ := relaxUntilKept_kept ran
    obtain ⟨indices, filtered, keeps⟩ := paddingFilter_keeps_above bound computed
      (relaxedThreshold paddingThresholdFloor later)
    rw [filtered] at round
    cases round
    obtain ⟨config, kept⟩ := List.exists_mem_of_ne_nil _ nonempty
    obtain ⟨index, listed, found⟩ := List.mem_filterMap.mp kept
    have inConfigs := (List.getElem?_eq_some_iff.mp found).1
    obtain ⟨state, penalty, stateFound, penaltyOk⟩ := computed index inConfigs
    exact ⟨index, inConfigs, state, penalty, stateFound, penaltyOk, above_relaxedThreshold_iff.mp
      ⟨later, (keeps index config state penalty found stateFound penaltyOk).mp listed⟩⟩
  · rintro ⟨index, inConfigs, state, penalty, stateFound, penaltyOk, above⟩
    obtain ⟨step, below⟩ := above_relaxedThreshold_iff.mpr above
    obtain ⟨indices, filtered, keeps⟩ := paddingFilter_keeps_above bound computed
      (relaxedThreshold paddingThresholdFloor step)
    have found := List.getElem?_eq_getElem inConfigs
    have rounds : ∀ threshold, ∃ kept, paddingFilter rounding task configs states wklInst threshold =
        .ok kept := fun threshold => by
      obtain ⟨_, filtered, -⟩ := paddingFilter_keeps_above bound computed threshold
      exact ⟨_, filtered⟩
    obtain ⟨kept, ran⟩ := relaxUntilKept_returns rounds
      ⟨_, filtered, List.ne_nil_of_mem (List.mem_filterMap.mpr ⟨index,
        (keeps index _ state penalty found stateFound penaltyOk).mpr below, found⟩)⟩ step 0
      (Nat.zero_add step)
    exact ⟨step + 1, kept, ran⟩

end Padding

def oneBlockState : State :=
  ⟨3, [.split (some (.const 64)) [some 64, some 1, some 1]]⟩

def staticTask : SearchTask :=
  ⟨⟨[], []⟩, [], [[]], sampleHardwareApi⟩

/-- The padding penalty of `oneBlockState` is `64 / 64 = 1`, above the floor, so its loop
returns. -/
theorem oneBlock_padding_returns :
    ∃ fuel kept, paddingRelaxation Rounding.floor staticTask [HwAlignedConfig.empty]
      [some oneBlockState] [] fuel = .ok kept :=
  (paddingRelaxation_returns_iff (rfl : instanceBinding staticTask [] = .ok [])
    fun index below => ⟨some oneBlockState, .finite 1, by simp_all, by with_unfolding_all decide⟩).mpr
    ⟨0, by decide, some oneBlockState, .finite 1, rfl, by with_unfolding_all decide, by decide⟩

def narrowWindowTask : SearchTask :=
  { staticTask with
    hardwareApi := { sampleHardwareApi with smemSmPartition := [80, 1], glbmemSmPartition := [1] } }

/-- With one block per partition unit, the one-block grid fills the window; on 80 cores its score
is `1 / floor_by(1, 80) = 1 / 0 = +∞`, so `OccupancyFilter` returns. -/
theorem occupancyFilter_narrow_window_returns :
    ∃ fuel kept, occupancyFilter Rounding.floor narrowWindowTask [HwAlignedConfig.empty]
      [some oneBlockState] [] fuel = .ok kept :=
  (occupancyFilter_returns_iff_window (by decide : occupancyGrids Rounding.floor narrowWindowTask
    [HwAlignedConfig.empty] [some oneBlockState] [] = .ok [1]) rfl rfl).1.mpr
    ⟨1, List.mem_singleton_self 1, by decide, by decide, by with_unfolding_all decide⟩

/-- On the sample descriptor a single one-block candidate has its grid below the window
`[2, floor_div(1, 80)]`, with `floor_div` rounding down or up, so `OccupancyFilter` never
returns. -/
theorem occupancyFilter_one_block_never_returns :
    ∀ fuel, occupancyFilter Rounding.floor staticTask [HwAlignedConfig.empty] [some oneBlockState]
        [] fuel = .error .outOfFuel ∧
      occupancyFilter Rounding.ceil staticTask [HwAlignedConfig.empty] [some oneBlockState]
        [] fuel = .error .outOfFuel := by
  intro fuel
  have floorGrids : occupancyGrids Rounding.floor staticTask [HwAlignedConfig.empty]
      [some oneBlockState] [] = .ok [1] := by decide
  have ceilGrids : occupancyGrids Rounding.ceil staticTask [HwAlignedConfig.empty]
      [some oneBlockState] [] = .ok [1] := by decide
  exact ⟨occupancyFilter_never floorGrids rfl rfl (by decide) fuel,
    occupancyFilter_never ceilGrids rfl rfl (by decide) fuel⟩

end FTuner
