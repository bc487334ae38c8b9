import FTuner.Filters.Relaxation
import Mathlib.Data.List.Sort

namespace FTuner

/-! # What the filters keep

Each filter of `EfficientSearch` rebuilds its survivors as two parallel vectors, through a
validity mask, the `sm_times` loops of `OccupancyFilter`, or an index-tagged sort.  Each returns
the input pairs at distinct indices (`SelectsAt`), so that no config is paired with another
config's state.  The mask filters keep the input order; `OccupancyFilter` emits by `sm_times`
first and by index second (`occupancyBefore`), and the compute-intensity filters by ratio.
-/

/-- The output `kept` of a filter is the input pairs at `indices`, in that order: output element
`j` is `(configs[i_j], cand_states[i_j])`, and no index is taken twice. -/
structure SelectsAt (configs : List HwAlignedConfig) (states : List (Option State))
    (indices : List Nat) (kept : List HwAlignedConfig × List (Option State)) : Prop where
  distinct : indices.Nodup
  inRange : ∀ index ∈ indices, index < configs.length ∧ index < states.length
  pairs : kept = (indices.filterMap (configs[·]?), indices.filterMap (states[·]?))

/-- What a filter returns: two lists of equal length, the input pairs at indices in `order`. -/
def KeepsInOrder (order : Nat → Nat → Prop) (configs : List HwAlignedConfig)
    (states : List (Option State)) (kept : List HwAlignedConfig × List (Option State)) : Prop :=
  kept.1.length = kept.2.length ∧
    ∃ indices, indices.Sorted order ∧ SelectsAt configs states indices kept

/-- What a compute-intensity filter returns: the pairs of the `min(top, n)` candidates of
highest ratio at `level`, in non-increasing ratio order, so that every candidate left out has a
ratio at most that of every one kept. -/
def KeepsTopRatios (level top : Nat) (configs : List HwAlignedConfig)
    (states : List (Option State)) (kept : List HwAlignedConfig × List (Option State)) : Prop :=
  ∃ picked : List (ℚ × Nat), SelectsAt configs states (picked.map (·.2)) kept ∧
    picked.length = min top configs.length ∧ (picked.map (·.1)).Sorted (· ≥ ·) ∧
    (∀ entry ∈ picked, ∃ config, configs[entry.2]? = some config ∧
      config.computeIntensiveRatio[level]? = some entry.1) ∧
    ∀ entry ∈ picked, ∀ (index : Nat) config ratio, index ∉ picked.map (·.2) →
      configs[index]? = some config → config.computeIntensiveRatio[level]? = some ratio →
        ratio ≤ entry.1

/-- The order of a compute-intensity filter's output: `index` before `other` when its ratio at
`level` is at least the other's. -/
def ratioAtLeast (level : Nat) (configs : List HwAlignedConfig) (index other : Nat) : Prop :=
  (configs.getD other HwAlignedConfig.empty).computeIntensiveRatio.getD level 0 ≤
    (configs.getD index HwAlignedConfig.empty).computeIntensiveRatio.getD level 0

theorem filterMap_getElem?_length {values : List α} : ∀ {indices : List Nat},
    (∀ index ∈ indices, index < values.length) →
      (indices.filterMap (values[·]?)).length = indices.length
  | [], _ => rfl
  | index :: indices, inRange => by
      rw [List.filterMap_cons_some (List.getElem?_eq_getElem (inRange index (.head _))),
        List.length_cons, List.length_cons,
        filterMap_getElem?_length fun other mem => inRange other (.tail _ mem)]

theorem SelectsAt.length_eq {configs : List HwAlignedConfig} {states : List (Option State)}
    {indices : List Nat} {kept : List HwAlignedConfig × List (Option State)}
    (selects : SelectsAt configs states indices kept) : kept.1.length = kept.2.length := by
  rw [selects.pairs, filterMap_getElem?_length fun index mem => (selects.inRange index mem).1,
    filterMap_getElem?_length fun index mem => (selects.inRange index mem).2]

theorem KeepsInOrder.subset {order : Nat → Nat → Prop} {configs : List HwAlignedConfig}
    {states : List (Option State)} {kept : List HwAlignedConfig × List (Option State)}
    (keeps : KeepsInOrder order configs states kept) :
    kept.1.length = kept.2.length ∧ ∀ config ∈ kept.1, config ∈ configs := by
  obtain ⟨lengths, indices, -, selects⟩ := keeps
  refine ⟨lengths, fun config mem => ?_⟩
  rw [selects.pairs] at mem
  obtain ⟨index, -, found⟩ := List.mem_filterMap.mp mem
  exact List.getElem?_mem found

section Survivors

variable {configs : List HwAlignedConfig} {states : List (Option State)}
  {kept : List HwAlignedConfig × List (Option State)}

theorem keepsInOrder_pushIndices {order : Nat → Nat → Prop} {indices : List Nat}
    (sorted : indices.Sorted order) (distinct : indices.Nodup)
    (inRange : ∀ index ∈ indices, index < configs.length ∧ index < states.length)
    (pushed : pushIndices indices configs states = .ok kept) :
    KeepsInOrder order configs states kept := by
  have selects : SelectsAt configs states indices kept :=
    ⟨distinct, inRange, Except.ok.inj ((pushIndices_eq inRange).symm.trans pushed) |>.symm⟩
  exact ⟨selects.length_eq, indices, sorted, selects⟩

theorem validIndices_lt {valid : List Bool} {index : Nat} (mem : index ∈ validIndices valid) :
    index < valid.length :=
  (List.getElem?_eq_some_iff.mp (mem_validIndices.mp mem)).1

theorem keepsInOrder_validIndices {valid : List Bool} (lengths : configs.length = states.length)
    (masked : valid.length = configs.length)
    (pushed : pushIndices (validIndices valid) configs states = .ok kept) :
    KeepsInOrder (· < ·) configs states kept := by
  refine keepsInOrder_pushIndices (validIndices_sorted valid)
    ((validIndices_sorted valid).imp ne_of_lt) (fun index mem => ?_) pushed
  have := validIndices_lt mem
  omega

theorem predicateFilter_keepsInOrder {check : HwAlignedConfig → Option State → Except Fault Bool}
    (lengths : configs.length = states.length)
    (ran : predicateFilter check configs states = .ok kept) :
    KeepsInOrder (· < ·) configs states kept := by
  obtain ⟨valid, masked, pushed⟩ := bind_eq_ok.mp ran
  exact keepsInOrder_validIndices lengths (by simpa using mapM_ok_length masked) pushed

variable {rounding : Rounding} {task : SearchTask} {wklInst : List Int}
  (lengths : configs.length = states.length)
include lengths

theorem threadsNumberFilter_keepsInOrder
    (ran : threadsNumberFilter task configs states = .ok kept) :
    KeepsInOrder (· < ·) configs states kept := by
  obtain ⟨valid, masked, pushed⟩ := bind_eq_ok.mp ran
  exact keepsInOrder_validIndices lengths (mapM_ok_length masked) pushed

theorem paddingFilter_keepsInOrder {threshold : ℚ}
    (ran : paddingFilter rounding task configs states wklInst threshold = .ok kept) :
    KeepsInOrder (· < ·) configs states kept := by
  obtain ⟨binding, -, ran⟩ := bind_eq_ok.mp ran
  exact predicateFilter_keepsInOrder lengths ran

theorem registerLaunchBoundsFilter_keepsInOrder
    (ran : registerLaunchBoundsFilter rounding task configs states wklInst = .ok kept) :
    KeepsInOrder (· < ·) configs states kept := by
  obtain ⟨first, -, ran⟩ := bind_eq_ok.mp ran
  obtain ⟨first, -, ran⟩ := bind_eq_ok.mp ran
  obtain ⟨binding, -, ran⟩ := bind_eq_ok.mp ran
  exact predicateFilter_keepsInOrder lengths ran

theorem sharedMemoryLaunchBoundsFilter_keepsInOrder
    (ran : sharedMemoryLaunchBoundsFilter rounding task configs states wklInst = .ok kept) :
    KeepsInOrder (· < ·) configs states kept := by
  obtain ⟨binding, -, ran⟩ := bind_eq_ok.mp ran
  exact predicateFilter_keepsInOrder lengths ran

end Survivors

section ComputeIntensive

variable {configs : List HwAlignedConfig} {states : List (Option State)}

private theorem computeIntensivePush_eq : ∀ (picked : List (ℚ × HwAlignedConfig × Nat))
    (kept : List HwAlignedConfig × List (Option State)),
    (∀ entry ∈ picked, configs[entry.2.2]? = some entry.2.1 ∧ entry.2.2 < states.length) →
      picked.foldlM (fun kept entry => do
        let state ← readAt states entry.2.2 "cand_states"
        Except.ok (kept.1 ++ [entry.2.1], kept.2 ++ [state])) kept =
      .ok (kept.1 ++ (picked.map (·.2.2)).filterMap (configs[·]?),
        kept.2 ++ (picked.map (·.2.2)).filterMap (states[·]?))
  | [], _, _ => by simp
  | entry :: picked, kept, paired => by
      obtain ⟨found, inStates⟩ := paired _ (List.mem_cons_self _ _)
      simp only [List.foldlM_cons, readAt_of_lt inStates, ok_bind,
        computeIntensivePush_eq picked _ fun entry mem => paired entry (.tail _ mem),
        List.map_cons, List.filterMap_cons_some found,
        List.filterMap_cons_some (List.getElem?_eq_getElem inStates), List.append_assoc,
        List.singleton_append]

private theorem computeIntensiveFilter_picks {level top : Nat}
    {kept : List HwAlignedConfig × List (Option State)} (lengths : configs.length = states.length)
    (ran : computeIntensiveFilter level top configs states = .ok kept) :
    ∃ keyed : List (ℚ × HwAlignedConfig × Nat),
      (∀ entry ∈ keyed, configs[entry.2.2]? = some entry.2.1 ∧
        entry.2.1.computeIntensiveRatio[level]? = some entry.1) ∧
      keyed.map (·.2.2) = List.range configs.length ∧
      SelectsAt configs states
        (((keyed.mergeSort fun a b => decide (b.1 ≤ a.1)).take top).map (·.2.2)) kept := by
  obtain ⟨keyed, computed, ran⟩ := bind_eq_ok.mp ran
  have entries : ∀ entry ∈ keyed, configs[entry.2.2]? = some entry.2.1 ∧
      entry.2.1.computeIntensiveRatio[level]? = some entry.1 := by
    intro entry mem
    obtain ⟨⟨index, config⟩, listed, step⟩ := mapM_ok_mem_result computed mem
    obtain ⟨ratio, read, step⟩ := bind_eq_ok.mp step
    cases step
    exact ⟨List.mem_enum_iff_getElem?.mp listed, readAt_eq_ok_iff.mp read⟩
  have indices : keyed.map (·.2.2) = List.range configs.length := by
    have tagged : keyed.map (·.2.2) = configs.enum.map (·.1) :=
      mapM_ok_map (fun ⟨index, config⟩ result ran => by
        obtain ⟨ratio, -, ran⟩ := bind_eq_ok.mp ran
        cases ran
        rfl) computed
    rw [tagged, List.enum_map_fst]
  set picked := (keyed.mergeSort fun a b => decide (b.1 ≤ a.1)).take top
  have sub : picked.Sublist (keyed.mergeSort fun a b => decide (b.1 ≤ a.1)) :=
    List.take_sublist _ _
  have paired : ∀ entry ∈ picked, configs[entry.2.2]? = some entry.2.1 := fun entry mem =>
    (entries entry ((List.mergeSort_perm _ _).subset (sub.subset mem))).1
  have distinct : (picked.map (·.2.2)).Nodup := by
    refine (sub.map _).nodup ?_
    rw [((List.mergeSort_perm _ _).map _).nodup_iff, indices]
    exact List.nodup_range _
  have inRange :
      ∀ index ∈ picked.map (·.2.2), index < configs.length ∧ index < states.length := by
    intro index mem
    obtain ⟨entry, listed, rfl⟩ := List.mem_map.mp mem
    have := (List.getElem?_eq_some_iff.mp (paired entry listed)).1
    omega
  simp only [pure_eq_ok] at ran
  rw [computeIntensivePush_eq picked ([], []) fun entry mem =>
    ⟨paired entry mem, (inRange _ (List.mem_map_of_mem _ mem)).2⟩] at ran
  exact ⟨keyed, entries, indices, distinct, inRange, (Except.ok.inj ran).symm⟩

private theorem mergeSort_ratio_sorted {α : Type} (keyed : List (ℚ × α)) :
    (keyed.mergeSort fun a b => decide (b.1 ≤ a.1)).Pairwise fun a b => b.1 ≤ a.1 := by
  have sorted := @List.sorted_mergeSort _ (fun a b : ℚ × α => decide (b.1 ≤ a.1))
    (fun a b c ab bc => by simp only [decide_eq_true_eq] at ab bc ⊢; exact le_trans bc ab)
    (fun a b => by simpa using le_total b.1 a.1) keyed
  exact sorted.imp fun before => by simpa using before

theorem computeIntensiveFilter_keepsByRatio {level top : Nat}
    {kept : List HwAlignedConfig × List (Option State)} (lengths : configs.length = states.length)
    (ran : computeIntensiveFilter level top configs states = .ok kept) :
    KeepsInOrder (ratioAtLeast level configs) configs states kept := by
  obtain ⟨keyed, entries, -, selects⟩ := computeIntensiveFilter_picks lengths ran
  set sorted := keyed.mergeSort fun a b => decide (b.1 ≤ a.1)
  have ratioAt : ∀ entry ∈ sorted.take top,
      (configs.getD entry.2.2 HwAlignedConfig.empty).computeIntensiveRatio.getD level 0 =
        entry.1 := fun entry mem => by
    obtain ⟨found, read⟩ :=
      entries entry ((List.mergeSort_perm _ _).subset (List.mem_of_mem_take mem))
    simp [List.getD_eq_getElem?_getD, found, read]
  refine ⟨selects.length_eq, _, List.pairwise_map.mpr (((mergeSort_ratio_sorted keyed).sublist
    (List.take_sublist top _)).imp_of_mem fun firstMem secondMem before => ?_), selects⟩
  rw [ratioAtLeast, ratioAt _ firstMem, ratioAt _ secondMem]
  exact before

theorem computeIntensiveFilter_length {level top : Nat}
    {kept : List HwAlignedConfig × List (Option State)} (lengths : configs.length = states.length)
    (ran : computeIntensiveFilter level top configs states = .ok kept) :
    kept.1.length = min top configs.length := by
  obtain ⟨keyed, -, indices, selects⟩ := computeIntensiveFilter_picks lengths ran
  have counted : keyed.length = configs.length := by
    rw [← List.length_map keyed (·.2.2), indices, List.length_range]
  rw [selects.pairs, filterMap_getElem?_length fun index mem => (selects.inRange index mem).1]
  simp [List.length_mergeSort, counted]

/-- `SharedMemoryComputeIntensiveFilter` (`top` 20, ratio 0) and `RegComputeIntensiveFilter`
(`top` 10, ratio 1) keep the candidates of highest ratio. -/
theorem computeIntensiveFilter_keeps_top {level top : Nat}
    {kept : List HwAlignedConfig × List (Option State)} (lengths : configs.length = states.length)
    (ran : computeIntensiveFilter level top configs states = .ok kept) :
    KeepsTopRatios level top configs states kept := by
  obtain ⟨keyed, entries, indices, selects⟩ := computeIntensiveFilter_picks lengths ran
  set sorted := keyed.mergeSort fun a b => decide (b.1 ≤ a.1)
  have perm : sorted.Perm keyed := List.mergeSort_perm _ _
  have ordered : sorted.Pairwise fun a b => b.1 ≤ a.1 := mergeSort_ratio_sorted keyed
  have counted : keyed.length = configs.length := by
    rw [← List.length_map keyed (·.2.2), indices, List.length_range]
  have parts := List.pairwise_append.mp (List.take_append_drop top sorted ▸ ordered)
  refine ⟨(sorted.take top).map fun entry => (entry.1, entry.2.2), by simpa [List.map_map] using
    selects, by simp [perm.length_eq, counted], ?_, fun entry mem => ?_,
    fun entry mem index config ratio left found read => ?_⟩
  · rw [List.map_map]
    exact (parts.1.map _ fun a b before => by simpa using before)
  · obtain ⟨source, taken, rfl⟩ := List.mem_map.mp mem
    exact ⟨source.2.1, entries source (perm.subset (List.mem_of_mem_take taken))⟩
  · obtain ⟨source, taken, rfl⟩ := List.mem_map.mp mem
    have listed : index ∈ keyed.map (·.2.2) := by
      rw [indices, List.mem_range]
      exact (List.getElem?_eq_some_iff.mp found).1
    obtain ⟨other, otherMem, rfl⟩ := List.mem_map.mp listed
    obtain ⟨otherFound, otherRead⟩ := entries other otherMem
    rw [found, Option.some.injEq] at otherFound
    subst otherFound
    rw [read, Option.some.injEq] at otherRead
    subst otherRead
    have dropped : other ∈ sorted.drop top := by
      rcases List.mem_append.mp ((List.take_append_drop top sorted).symm ▸
        perm.symm.subset otherMem) with kept | dropped
      · exact absurd (List.mem_map.mpr ⟨other, kept, rfl⟩) (by simpa [List.map_map] using left)
      · exact dropped
    simpa using parts.2.2 source taken other dropped

def ratioConfig (ratio : ℚ) : HwAlignedConfig :=
  { HwAlignedConfig.empty with computeIntensiveRatio := [ratio, ratio] }

def elevenRatios : List HwAlignedConfig :=
  (List.range 11).map fun index => ratioConfig (index * 4 % 11 : Nat)

/-- `RegComputeIntensiveFilter` on eleven candidates keeps ten, by descending ratio, and drops
the one of ratio 0. -/
theorem regComputeIntensiveFilter_keeps_ten_of_eleven :
    regComputeIntensiveFilter elevenRatios (List.replicate 11 none) =
        .ok ((List.range 10).reverse.map (fun ratio => ratioConfig (ratio + 1 : Nat)),
          List.replicate 10 none) ∧
      KeepsTopRatios 1 10 elevenRatios (List.replicate 11 none)
        ((List.range 10).reverse.map (fun ratio => ratioConfig (ratio + 1 : Nat)),
          List.replicate 10 none) := by
  have ran : computeIntensiveFilter 1 10 elevenRatios (List.replicate 11 none) =
      .ok ((List.range 10).reverse.map (fun ratio => ratioConfig (ratio + 1 : Nat)),
        List.replicate 10 none) := by
    with_unfolding_all decide
  exact ⟨ran, computeIntensiveFilter_keeps_top rfl ran⟩

end ComputeIntensive

/-- The order of `OccupancyFilter`'s output: by `sm_times = floor_div(grid,
glbmem_sm_partition[0])`, then by index. -/
def occupancyBefore (rounding : Rounding) (grids : List Nat) (glbmem : Int) (index other : Nat) :
    Prop :=
  rounding.floorDiv (grids.getD index 0) glbmem < rounding.floorDiv (grids.getD other 0) glbmem ∨
    rounding.floorDiv (grids.getD index 0) glbmem = rounding.floorDiv (grids.getD other 0) glbmem ∧
      index < other

section Occupancy

variable {rounding : Rounding} {api : HardwareAPI} {grids : List Nat} {glbmem : Int}
  {ratio : ℚ}

private theorem mem_occupancyRow {smTimes index : Nat} :
    index ∈ grids.enum.filterMap (fun (index, grid) =>
      if rounding.floorDiv grid glbmem = smTimes ∧ (occupancyPenalty rounding api grid).above ratio
      then some index
      else none) → rounding.floorDiv (grids.getD index 0) glbmem = smTimes := by
  simp only [List.mem_filterMap, Option.ite_none_right_eq_some, Option.some.injEq, Prod.exists,
    List.mem_enum_iff_getElem?]
  rintro ⟨_, grid, found, ⟨rfl, -⟩, rfl⟩
  simp [List.getD_eq_getElem?_getD, found]

theorem occupancyPicks_sorted (first maxSmTimes : Nat) :
    (occupancyPicks rounding api grids glbmem first maxSmTimes ratio).Sorted
      (occupancyBefore rounding grids glbmem) := by
  refine List.pairwise_flatMap.mpr ⟨fun smTimes _ => ?_, ?_⟩
  · refine (enum_filterMap_sorted fun ⟨index, grid⟩ picked chosen => ?_).imp_of_mem
      fun first second before => .inr ⟨(mem_occupancyRow first).trans
        (mem_occupancyRow second).symm, before⟩
    simp only [Option.ite_none_right_eq_some, Option.some.injEq] at chosen
    exact chosen.2.symm
  · exact (List.pairwise_lt_range' _ _).imp fun before first firstMem second secondMem =>
      .inl (by rwa [mem_occupancyRow firstMem, mem_occupancyRow secondMem])

theorem occupancyBefore_irrefl (index : Nat) :
    ¬occupancyBefore rounding grids glbmem index index := by
  simp [occupancyBefore]

theorem occupancyFilter_keepsInOrder {task : SearchTask} {configs : List HwAlignedConfig}
    {states : List (Option State)} {wklInst : List Int} {fuel : Nat}
    {kept : List HwAlignedConfig × List (Option State)} (lengths : configs.length = states.length)
    (ran : occupancyFilter rounding task configs states wklInst fuel = .ok kept) :
    ∃ grids glbmem, occupancyGrids rounding task configs states wklInst = .ok grids ∧
      task.hardwareApi.glbmemSmPartition[0]? = some glbmem ∧
      KeepsInOrder (occupancyBefore rounding grids glbmem) configs states kept := by
  obtain ⟨grids, computed, ran⟩ := bind_eq_ok.mp ran
  obtain ⟨glbmem, glbmemRead, ran⟩ := bind_eq_ok.mp ran
  obtain ⟨-, later, -, round⟩ := relaxUntilKept_kept ran
  obtain ⟨first, -, pushed⟩ := bind_eq_ok.mp round
  refine ⟨grids, glbmem, computed, readAt_eq_ok_iff.mp glbmemRead, keepsInOrder_pushIndices
    (occupancyPicks_sorted _ _) ((occupancyPicks_sorted _ _).imp ?_) (fun index mem => ?_) pushed⟩
  · exact fun before same => occupancyBefore_irrefl _ (same ▸ before)
  · obtain ⟨grid, found, -⟩ := mem_occupancyPicks.mp mem
    have := (List.getElem?_eq_some_iff.mp found).1
    have := (occupancyGrids_lengths computed).1
    omega

end Occupancy

def gridState (blocks : Int) : State :=
  ⟨3, [.split (some (.const blocks)) [some 1, some 1, some 1]]⟩

def launchConfig (threads : Int) (ratio : ℚ) : HwAlignedConfig :=
  { HwAlignedConfig.empty with
    reduceTiles := [[1]]
    computeIntensiveRatio := [ratio, ratio]
    singleThreadRegUsage := 32
    threadsNum := threads }

def twoLaunchConfigs : List HwAlignedConfig :=
  [launchConfig 128 1, launchConfig 64 2]

def twoGridStates : List (Option State) :=
  [some (gridState 240), some (gridState 160)]

/-- Whenever one of the seven filters returns on configs and states of equal length, its two
lists have equal length and hold the input pairs at distinct indices: in input order for
`ThreadsNumberFilter`, the launch-bounds filters and `PaddingFilter`, by `sm_times` and then by
index for `OccupancyFilter`, and by non-increasing ratio for the compute-intensity filters. -/
theorem filters_keep_input_pairs (rounding : Rounding) (task : SearchTask)
    {configs : List HwAlignedConfig} {states : List (Option State)} (wklInst : List Int)
    (threshold : ℚ) (fuel : Nat) (lengths : configs.length = states.length) :
    (∀ kept, threadsNumberFilter task configs states = .ok kept →
      KeepsInOrder (· < ·) configs states kept) ∧
    (∀ kept, occupancyFilter rounding task configs states wklInst fuel = .ok kept →
      ∃ grids glbmem, occupancyGrids rounding task configs states wklInst = .ok grids ∧
        task.hardwareApi.glbmemSmPartition[0]? = some glbmem ∧
        KeepsInOrder (occupancyBefore rounding grids glbmem) configs states kept) ∧
    (∀ kept, registerLaunchBoundsFilter rounding task configs states wklInst = .ok kept →
      KeepsInOrder (· < ·) configs states kept) ∧
    (∀ kept, sharedMemoryLaunchBoundsFilter rounding task configs states wklInst = .ok kept →
      KeepsInOrder (· < ·) configs states kept) ∧
    (∀ kept, paddingFilter rounding task configs states wklInst threshold = .ok kept →
      KeepsInOrder (· < ·) configs states kept) ∧
    (∀ kept, sharedMemoryComputeIntensiveFilter configs states = .ok kept →
      KeepsInOrder (ratioAtLeast 0 configs) configs states kept) ∧
    (∀ kept, regComputeIntensiveFilter configs states = .ok kept →
      KeepsInOrder (ratioAtLeast 1 configs) configs states kept) :=
  ⟨fun _ => threadsNumberFilter_keepsInOrder lengths,
    fun _ => occupancyFilter_keepsInOrder lengths,
    fun _ => registerLaunchBoundsFilter_keepsInOrder lengths,
    fun _ => sharedMemoryLaunchBoundsFilter_keepsInOrder lengths,
    fun _ => paddingFilter_keepsInOrder lengths,
    fun _ => computeIntensiveFilter_keepsByRatio lengths,
    fun _ => computeIntensiveFilter_keepsByRatio lengths⟩

/-- On the sample descriptor the two candidates run through all seven filters: only the first
has a thread count that is a multiple of 128; `OccupancyFilter` emits the second (`sm_times` 2)
before the first (`sm_times` 3); the launch-bounds filters and `PaddingFilter` keep both in
order; the compute-intensity filters put the second, of higher ratio, first. -/
theorem twoCandidates_keep_input_pairs :
    (threadsNumberFilter staticTask twoLaunchConfigs twoGridStates =
        .ok ([launchConfig 128 1], [some (gridState 240)]) ∧
      KeepsInOrder (· < ·) twoLaunchConfigs twoGridStates
        ([launchConfig 128 1], [some (gridState 240)])) ∧
    (occupancyFilter Rounding.floor staticTask twoLaunchConfigs twoGridStates [] 1 =
        .ok (twoLaunchConfigs.reverse, twoGridStates.reverse) ∧
      ∃ grids glbmem, occupancyGrids Rounding.floor staticTask twoLaunchConfigs twoGridStates [] =
          .ok grids ∧ staticTask.hardwareApi.glbmemSmPartition[0]? = some glbmem ∧
        KeepsInOrder (occupancyBefore Rounding.floor grids glbmem) twoLaunchConfigs twoGridStates
          (twoLaunchConfigs.reverse, twoGridStates.reverse)) ∧
    (registerLaunchBoundsFilter Rounding.floor staticTask twoLaunchConfigs twoGridStates [] =
        .ok (twoLaunchConfigs, twoGridStates) ∧
      KeepsInOrder (· < ·) twoLaunchConfigs twoGridStates (twoLaunchConfigs, twoGridStates)) ∧
    (sharedMemoryLaunchBoundsFilter Rounding.floor staticTask twoLaunchConfigs twoGridStates [] =
        .ok (twoLaunchConfigs, twoGridStates) ∧
      KeepsInOrder (· < ·) twoLaunchConfigs twoGridStates (twoLaunchConfigs, twoGridStates)) ∧
    (paddingFilter Rounding.floor staticTask twoLaunchConfigs twoGridStates [] 0 =
        .ok (twoLaunchConfigs, twoGridStates) ∧
      KeepsInOrder (· < ·) twoLaunchConfigs twoGridStates (twoLaunchConfigs, twoGridStates)) ∧
    (sharedMemoryComputeIntensiveFilter twoLaunchConfigs twoGridStates =
        .ok (twoLaunchConfigs.reverse, twoGridStates.reverse) ∧
      KeepsInOrder (ratioAtLeast 0 twoLaunchConfigs) twoLaunchConfigs twoGridStates
        (twoLaunchConfigs.reverse, twoGridStates.reverse)) ∧
    (regComputeIntensiveFilter twoLaunchConfigs twoGridStates =
        .ok (twoLaunchConfigs.reverse, twoGridStates.reverse) ∧
      KeepsInOrder (ratioAtLeast 1 twoLaunchConfigs) twoLaunchConfigs twoGridStates
        (twoLaunchConfigs.reverse, twoGridStates.reverse)) := by
  obtain ⟨threads, occupied, registers, shared, padded, sharedIntense, regIntense⟩ :=
    @filters_keep_input_pairs Rounding.floor staticTask twoLaunchConfigs twoGridStates [] 0 1 rfl
  have threadsRan : threadsNumberFilter staticTask twoLaunchConfigs twoGridStates =
      .ok ([launchConfig 128 1], [some (gridState 240)]) := by decide
  have occupiedRan : occupancyFilter Rounding.floor staticTask twoLaunchConfigs twoGridStates [] 1 =
      .ok (twoLaunchConfigs.reverse, twoGridStates.reverse) := by with_unfolding_all decide
  have registersRan :
      registerLaunchBoundsFilter Rounding.floor staticTask twoLaunchConfigs twoGridStates [] =
        .ok (twoLaunchConfigs, twoGridStates) := by with_unfolding_all decide
  have sharedRan :
      sharedMemoryLaunchBoundsFilter Rounding.floor staticTask twoLaunchConfigs twoGridStates [] =
        .ok (twoLaunchConfigs, twoGridStates) := by decide
  have paddedRan : paddingFilter Rounding.floor staticTask twoLaunchConfigs twoGridStates [] 0 =
      .ok (twoLaunchConfigs, twoGridStates) := by with_unfolding_all decide
  have sharedIntenseRan : sharedMemoryComputeIntensiveFilter twoLaunchConfigs twoGridStates =
      .ok (twoLaunchConfigs.reverse, twoGridStates.reverse) := by with_unfolding_all decide
  have regIntenseRan : regComputeIntensiveFilter twoLaunchConfigs twoGridStates =
      .ok (twoLaunchConfigs.reverse, twoGridStates.reverse) := by with_unfolding_all decide
  exact ⟨⟨threadsRan, threads _ threadsRan⟩, ⟨occupiedRan, occupied _ occupiedRan⟩,
    ⟨registersRan, registers _ registersRan⟩, ⟨sharedRan, shared _ sharedRan⟩,
    ⟨paddedRan, padded _ paddedRan⟩, ⟨sharedIntenseRan, sharedIntense _ sharedIntenseRan⟩,
    ⟨regIntenseRan, regIntense _ regIntenseRan⟩⟩

/-- On the two candidates `OccupancyFilter` emits the second, of `sm_times` 2, before the first,
of `sm_times` 3, so that no increasing indices give its output. -/
theorem occupancyFilter_reorders :
    occupancyFilter Rounding.floor staticTask twoLaunchConfigs twoGridStates [] 1 =
      .ok (twoLaunchConfigs.reverse, twoGridStates.reverse) ∧
    ¬∃ indices : List Nat, indices.Sorted (· < ·) ∧
      SelectsAt twoLaunchConfigs twoGridStates indices
        (twoLaunchConfigs.reverse, twoGridStates.reverse) := by
  refine ⟨by with_unfolding_all decide, fun ⟨indices, sorted, selects⟩ => ?_⟩
  have counted := congrArg (·.1.length) selects.pairs
  simp only [filterMap_getElem?_length fun index mem => (selects.inRange index mem).1] at counted
  obtain ⟨first, second, rfl⟩ := List.length_eq_two.mp counted.symm
  have ordered := List.pairwise_pair.mp sorted
  have inRange := (selects.inRange second (by simp)).1
  obtain ⟨rfl, rfl⟩ : first = 0 ∧ second = 1 := by
    simp only [twoLaunchConfigs, List.length_cons, List.length_nil] at inRange
    omega
  exact absurd selects.pairs (by decide)

end FTuner
