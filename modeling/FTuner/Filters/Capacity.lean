import FTuner.Hardware.EmitConfig
import FTuner.Filters.Survivors

namespace FTuner

/-! # The capacity checks at their bounds

`ConfigFilter` (at the shared-memory level), `RegisterLaunchBoundsFilter` and
`SharedMemoryLaunchBoundsFilter` each compare a usage with a hardware bound.  The thread check
rejects from 1024 threads on (`>= 1024`), and the two launch-bounds filters keep a candidate
only when its usage is strictly below the bound (`< max`; the second test of the shared-memory
filter, `> max`, never changes the first).  A candidate whose usage equals its bound is
rejected.
-/

section ThreadCheck

variable {utils : Utils} {task : SearchTask} {pnext : List HwAlignedConfig}
  {baseConfig : HwAlignedConfig} {extractors : List (List ProducerLoad)}
  {spaceTiles reduceTiles : List Int}

theorem configFilter_threads_iff {tensorTypeSize smemUse smemCap regCap : Int}
    {baseSpace : List Int} (elementSize : task.computeDag.tensorTypeSize = .ok tensorTypeSize)
    (footprint : memFootPrint (iterNames task.computeDag.stages).1
      (iterNames task.computeDag.stages).2 extractors spaceTiles reduceTiles 1 tensorTypeSize =
        .ok smemUse)
    (smemRead : task.hardwareApi.smemCap[0]? = some smemCap) (fitsSmem : smemUse ≤ smemCap)
    (baseRead : baseConfig.spaceTiles[1]? = some baseSpace)
    (regRead : task.hardwareApi.regCap[0]? = some regCap)
    (fitsRegs :
      utils.getParallelism spaceTiles baseSpace * baseConfig.singleThreadRegUsage ≤ regCap) :
    configFilter utils task pnext baseConfig extractors spaceTiles reduceTiles 1 = .ok pnext ↔
      1024 ≤ utils.getParallelism spaceTiles baseSpace := by
  have smemFits : ¬smemCap < smemUse := by omega
  have regsFit :
      ¬regCap < utils.getParallelism spaceTiles baseSpace * baseConfig.singleThreadRegUsage := by
    omega
  simp only [configFilter, elementSize, ok_bind, footprint, readAt, smemRead, baseRead, regRead]
  by_cases crowded : 1024 ≤ utils.getParallelism spaceTiles baseSpace
  · simp [smemFits, regsFit, crowded]
  · simp only [smemFits, regsFit, crowded, iff_false]
    simp
    repeat' refine bind_ne_ok fun _ => ?_
    simp

end ThreadCheck

section LaunchBounds

variable {rounding : Rounding} {task : SearchTask} {configs : List HwAlignedConfig}
  {states : List (Option State)} {wklInst : List Int} {binding : List (String × Int)}
  {partitions perPartition : Int}
  (partitionsRead : task.hardwareApi.smemSmPartition[0]? = some partitions)
  (perPartitionRead : task.hardwareApi.smemSmPartition[1]? = some perPartition)
include partitionsRead perPartitionRead

theorem blocksInSm_eq (grid : Nat) :
    blocksInSm rounding task.hardwareApi grid =
      .ok (min (sizeT perPartition) (rounding.floorDiv grid partitions)) := by
  simp [blocksInSm, readAt, partitionsRead, perPartitionRead]

theorem registerLaunchBoundsFilter_keeps_iff {first : State}
    (lengths : configs.length = states.length) (bound : instanceBinding task wklInst = .ok binding)
    (firstRead : states[0]? = some (some first))
    (computed : ∀ (index : Nat) config state, configs[index]? = some config →
      states[index]? = some state → (∃ grid, gridSize rounding binding state = .ok grid) ∧
        ∃ (row : List Int) (reduceTile : Int),
          config.reduceTiles[0]? = some row ∧ row[0]? = some reduceTile) :
    ∃ indices : List Nat, registerLaunchBoundsFilter rounding task configs states wklInst =
        .ok (indices.filterMap (configs[·]?), indices.filterMap (states[·]?)) ∧
      indices.Sorted (· < ·) ∧
      ∀ (index : Nat) config state grid row (reduceTile : Int), configs[index]? = some config →
        states[index]? = some state → gridSize rounding binding state = .ok grid →
        config.reduceTiles[0]? = some row → row[0]? = some reduceTile →
        (index ∈ indices ↔
          ((min (sizeT perPartition) (rounding.floorDiv grid partitions) : Nat) : ℚ) *
              config.threadsNum * (config.singleThreadRegUsage +
                (wrapInt (config.singleThreadRegUsage * reduceTile) : ℚ) / 16) <
              task.hardwareApi.maxRegPerSm ∧
            (wrapInt (config.singleThreadRegUsage * if first.stageCount > 7 then 2 else 1) : ℚ) +
              (wrapInt (config.singleThreadRegUsage * reduceTile) : ℚ) / 16 < 255) := by
  simp only [registerLaunchBoundsFilter, readAt, firstRead, ok_bind, deref, bound]
  refine Exists.imp (fun indices ⟨filtered, sorted, keeps⟩ => ⟨filtered, sorted,
    fun index config state grid row reduceTile found stateFound gridOk rowFound tileFound => ?_⟩)
    (predicateFilter_exists lengths.le fun index config state found stateFound => ?_)
  · obtain ⟨⟨grid, gridOk⟩, row, reduceTile, rowFound, tileFound⟩ :=
      computed index config state found stateFound
    exact ⟨_, by
      simp [gridOk, blocksInSm_eq partitionsRead perPartitionRead, readAt, rowFound, tileFound]
      rfl⟩
  · rw [keeps index config state found stateFound]
    simp [gridOk, blocksInSm_eq partitionsRead perPartitionRead, readAt, rowFound, tileFound]

theorem sharedMemoryLaunchBoundsFilter_keeps_iff
    (lengths : configs.length = states.length) (bound : instanceBinding task wklInst = .ok binding)
    (computed : ∀ (index : Nat) config state, configs[index]? = some config →
      states[index]? = some state → ∃ grid, gridSize rounding binding state = .ok grid) :
    ∃ indices : List Nat, sharedMemoryLaunchBoundsFilter rounding task configs states wklInst =
        .ok (indices.filterMap (configs[·]?), indices.filterMap (states[·]?)) ∧
      indices.Sorted (· < ·) ∧
      ∀ (index : Nat) config state grid, configs[index]? = some config →
        states[index]? = some state → gridSize rounding binding state = .ok grid →
        (index ∈ indices ↔
          ((min (sizeT perPartition) (rounding.floorDiv grid partitions) : Nat) : Int) *
            config.smemUsage < task.hardwareApi.maxSmemUsagePerSm) := by
  simp only [sharedMemoryLaunchBoundsFilter, bound, ok_bind]
  refine Exists.imp (fun indices ⟨filtered, sorted, keeps⟩ => ⟨filtered, sorted,
    fun index config state grid found stateFound gridOk => ?_⟩)
    (predicateFilter_exists lengths.le fun index config state found stateFound => ?_)
  · obtain ⟨grid, gridOk⟩ := computed index config state found stateFound
    exact ⟨_, by simp [gridOk, blocksInSm_eq partitionsRead perPartitionRead]; rfl⟩
  · rw [keeps index config state found stateFound]
    simp [gridOk, blocksInSm_eq partitionsRead perPartitionRead]
    exact le_of_lt

end LaunchBounds

def blockUtils : Utils :=
  ⟨fun _ => [1], fun smemTiles regTiles =>
    ((smemTiles.zip regTiles).map fun (smem, reg) => smem / reg).foldl (· * ·) 1⟩

def registerBase : HwAlignedConfig :=
  { HwAlignedConfig.empty with
    spaceTiles := [[], [1, 1]]
    reduceTiles := [[], [1]]
    computeIntensiveRatio := [0, 1]
    singleThreadRegUsage := 32 }

def pressureConfig : HwAlignedConfig :=
  { HwAlignedConfig.empty with
    reduceTiles := [[16]]
    singleThreadRegUsage := 64
    threadsNum := 256 }

def fullSmemConfig : HwAlignedConfig :=
  { HwAlignedConfig.empty with smemUsage := 49152 }

theorem filterMap_singleton_eq_nil {value : α} {indices : List Nat} (absent : 0 ∉ indices) :
    indices.filterMap ([value][·]?) = [] :=
  List.filterMap_eq_nil_iff.mpr fun index mem => by
    cases index with
    | zero => exact absurd mem absent
    | succ => rfl

/-- Each capacity check rejects a candidate from the point where its usage reaches its bound: the
thread check of `ConfigFilter` from 1024 threads on, and the launch-bounds filters unless the
usage is strictly below the bound. -/
theorem capacityChecks_reject_at_bound :
    (∀ (utils : Utils) (task : SearchTask) (pnext : List HwAlignedConfig)
        (baseConfig : HwAlignedConfig) (extractors : List (List ProducerLoad))
        (spaceTiles reduceTiles : List Int) (tensorTypeSize smemUse smemCap regCap : Int)
        (baseSpace : List Int), task.computeDag.tensorTypeSize = .ok tensorTypeSize →
        memFootPrint (iterNames task.computeDag.stages).1 (iterNames task.computeDag.stages).2
          extractors spaceTiles reduceTiles 1 tensorTypeSize = .ok smemUse →
        task.hardwareApi.smemCap[0]? = some smemCap → smemUse ≤ smemCap →
        baseConfig.spaceTiles[1]? = some baseSpace → task.hardwareApi.regCap[0]? = some regCap →
        utils.getParallelism spaceTiles baseSpace * baseConfig.singleThreadRegUsage ≤ regCap →
        (configFilter utils task pnext baseConfig extractors spaceTiles reduceTiles 1 = .ok pnext ↔
          1024 ≤ utils.getParallelism spaceTiles baseSpace)) ∧
    (∀ (rounding : Rounding) (task : SearchTask) (configs : List HwAlignedConfig)
        (states : List (Option State)) (wklInst : List Int) (binding : List (String × Int))
        (partitions perPartition : Int) (first : State),
        task.hardwareApi.smemSmPartition[0]? = some partitions →
        task.hardwareApi.smemSmPartition[1]? = some perPartition →
        configs.length = states.length → instanceBinding task wklInst = .ok binding →
        states[0]? = some (some first) →
        (∀ (index : Nat) config state, configs[index]? = some config →
          states[index]? = some state → (∃ grid, gridSize rounding binding state = .ok grid) ∧
            ∃ (row : List Int) (reduceTile : Int),
              config.reduceTiles[0]? = some row ∧ row[0]? = some reduceTile) →
        ∃ indices : List Nat, registerLaunchBoundsFilter rounding task configs states wklInst =
            .ok (indices.filterMap (configs[·]?), indices.filterMap (states[·]?)) ∧
          indices.Sorted (· < ·) ∧
          ∀ (index : Nat) config state grid row (reduceTile : Int), configs[index]? = some config →
            states[index]? = some state → gridSize rounding binding state = .ok grid →
            config.reduceTiles[0]? = some row → row[0]? = some reduceTile →
            (index ∈ indices ↔
              ((min (sizeT perPartition) (rounding.floorDiv grid partitions) : Nat) : ℚ) *
                  config.threadsNum * (config.singleThreadRegUsage +
                    (wrapInt (config.singleThreadRegUsage * reduceTile) : ℚ) / 16) <
                task.hardwareApi.maxRegPerSm ∧
                (wrapInt (config.singleThreadRegUsage * if first.stageCount > 7 then 2 else 1) : ℚ) +
                  (wrapInt (config.singleThreadRegUsage * reduceTile) : ℚ) / 16 < 255)) ∧
    (∀ (rounding : Rounding) (task : SearchTask) (configs : List HwAlignedConfig)
        (states : List (Option State)) (wklInst : List Int) (binding : List (String × Int))
        (partitions perPartition : Int),
        task.hardwareApi.smemSmPartition[0]? = some partitions →
        task.hardwareApi.smemSmPartition[1]? = some perPartition →
        configs.length = states.length → instanceBinding task wklInst = .ok binding →
        (∀ (index : Nat) config state, configs[index]? = some config →
          states[index]? = some state → ∃ grid, gridSize rounding binding state = .ok grid) →
        ∃ indices : List Nat, sharedMemoryLaunchBoundsFilter rounding task configs states wklInst =
            .ok (indices.filterMap (configs[·]?), indices.filterMap (states[·]?)) ∧
          indices.Sorted (· < ·) ∧
          ∀ (index : Nat) config state grid, configs[index]? = some config →
            states[index]? = some state → gridSize rounding binding state = .ok grid →
            (index ∈ indices ↔
              ((min (sizeT perPartition) (rounding.floorDiv grid partitions) : Nat) : Int) *
                config.smemUsage < task.hardwareApi.maxSmemUsagePerSm)) :=
  ⟨fun _ _ _ _ _ _ _ _ _ _ _ _ elementSize footprint smemRead fitsSmem baseRead regRead fitsRegs =>
      configFilter_threads_iff elementSize footprint smemRead fitsSmem baseRead regRead fitsRegs,
    fun _ _ _ _ _ _ _ _ _ partitionsRead perPartitionRead lengths bound firstRead computed =>
      registerLaunchBoundsFilter_keeps_iff partitionsRead perPartitionRead lengths bound firstRead
        computed,
    fun _ _ _ _ _ _ _ _ partitionsRead perPartitionRead lengths bound computed =>
      sharedMemoryLaunchBoundsFilter_keeps_iff partitionsRead perPartitionRead lengths bound
        computed⟩

/-- Candidates exactly at their bounds are rejected: a `32 × 32` block of 1024 threads of 32
registers over `1 × 1` register tiles (within shared memory and the register file), a register
pressure of exactly 65536, and two blocks of 48 KiB of shared memory. -/
theorem boundaryCandidates_rejected :
    configFilter blockUtils matmulTask [] registerBase matmulLoads [32, 32] [8] 1 = .ok [] ∧
    registerLaunchBoundsFilter Rounding.floor matmulTask [pressureConfig]
      [some (gridState 160)] [] = .ok ([], []) ∧
    sharedMemoryLaunchBoundsFilter Rounding.floor matmulTask [fullSmemConfig]
      [some (gridState 160)] [] = .ok ([], []) := by
  refine ⟨(capacityChecks_reject_at_bound.1 blockUtils matmulTask [] registerBase matmulLoads
    [32, 32] [8] 4 2048 49152 65536 [1, 1] (by decide) (by decide) rfl (by decide) rfl rfl
    (by decide)).mpr (by decide), ?_, ?_⟩
  · obtain ⟨indices, ran, -, keeps⟩ := capacityChecks_reject_at_bound.2.1 Rounding.floor
      matmulTask [pressureConfig] [some (gridState 160)] [] [] 80 2 (gridState 160) rfl rfl rfl
      rfl rfl fun index config state found stateFound => by
        cases index with
        | zero =>
            obtain rfl : config = pressureConfig := (Option.some.inj found).symm
            obtain rfl : state = some (gridState 160) := (Option.some.inj stateFound).symm
            exact ⟨⟨160, by decide⟩, [16], 16, rfl, rfl⟩
        | succ => cases found
    have absent : 0 ∉ indices := by
      have two : Int.toNat 2 = 2 := rfl
      have unwrapped : wrapInt 1024 = 1024 ∧ wrapInt 64 = 64 := by decide
      rw [keeps 0 pressureConfig _ 160 [16] 16 rfl rfl (by decide) rfl rfl]
      norm_num [two, unwrapped.1, unwrapped.2, pressureConfig, HwAlignedConfig.empty, sizeT, Rounding.floor, matmulTask,
        sampleHardwareApi, gridState]
    rw [ran, filterMap_singleton_eq_nil absent, filterMap_singleton_eq_nil absent]
  · obtain ⟨indices, ran, -, keeps⟩ := capacityChecks_reject_at_bound.2.2 Rounding.floor
      matmulTask [fullSmemConfig] [some (gridState 160)] [] [] 80 2 rfl rfl rfl rfl
      fun index config state found stateFound => by
        cases index with
        | zero =>
            obtain rfl : state = some (gridState 160) := (Option.some.inj stateFound).symm
            exact ⟨160, by decide⟩
        | succ => cases found
    have absent : 0 ∉ indices := by
      rw [keeps 0 fullSmemConfig _ 160 rfl rfl (by decide)]
      decide
    rw [ran, filterMap_singleton_eq_nil absent, filterMap_singleton_eq_nil absent]

end FTuner
