import FTuner.Hardware.Emitted
import FTuner.Policy.EfficientSearch

namespace FTuner

/-! # `EfficientSearch` from `EmitConfig` to the measured cache

The stages of the hardware-aligned search composed.  On a two-level descriptor every config
`EmitConfig` returns holds one shared-memory and one register tile of the dimensions
`EfficientSearch` counts, so all of them have one shape.  Between configs of one shape
`HwAlignedConfig::operator<` is the lexicographic order of the tiles, and `filter_cand_states`
is then a map keyed by the tiles (`collectCandidates_last_assigned`).  A returning search appends
that map's states to the cache: at most ten per workload instance, and at least one when there is
an instance.

It never inserts them in `measured_states_set_`.  Every instance's filters keep a candidate, so
with a workload instance a returning search breaks the cache law of `Cache`.
-/

theorem emitConfig_shape {utils : Utils} {task : SearchTask} {spaceDims reduceDims : Int}
    {fuel : Nat} {configs : List HwAlignedConfig} (levels : task.hardwareApi.numLevel = 2)
    (returns : emitConfig utils task spaceDims reduceDims fuel = .ok configs) :
    ∀ config ∈ configs, config.shape =
      ([spaceDims.toNat, spaceDims.toNat], [reduceDims.toNat, reduceDims.toNat]) := by
  obtain ⟨extractors, -, origin⟩ := emitConfig_twoLevel levels returns
  intro config mem
  obtain ⟨registerTiles, base, registerSpace, registerReduce, sharedTiles, registerAligned,
    registerPushed, spaceRead, reduceRead, sharedAligned, sharedPushed⟩ := origin config mem
  obtain ⟨sharedSpace, sharedReduce, _, _, _, registerPaired, sharedPaired, spaceSet, reduceSet,
    -⟩ := registerPushed.twoLevels levels spaceRead reduceRead sharedPushed
  obtain ⟨table, collected, -, -, registerSpaceLength, reduceOnes, -⟩ :=
    registerTuple_ones registerAligned registerPushed.1 registerPushed.2.1 registerPaired
  obtain ⟨_, _, _, collected', -, -, sharedSpaceLength, sharedReduceLength, -⟩ :=
    sharedTuple_tiles sharedAligned sharedPaired
  rw [registerSpaceLength, reduceOnes, List.length_replicate, collected, Except.ok.injEq]
    at collected'
  subst collected'
  obtain ⟨spaceMaxSized, -, reduceSized⟩ := collectExtents_sized collected
  rw [reduceOnes, List.length_replicate] at sharedReduceLength
  simp only [HwAlignedConfig.shape, spaceSet, reduceSet, List.map_cons, List.map_nil,
    sharedSpaceLength, sharedReduceLength, registerSpaceLength, reduceOnes, List.length_replicate,
    spaceMaxSized, reduceSized, min_self]

theorem initCandidates_of_ok {oracles : EfficientOracles} {task : SearchTask}
    {emitted configs : List HwAlignedConfig} {states : List (Option State)}
    (ran : initCandidates oracles task emitted = .ok (configs, states)) :
    states = configs.map oracles.initRules ∧ ∀ config ∈ configs, config ∈ emitted := by
  obtain ⟨⟨threaded, _⟩, filtered, returned⟩ := bind_eq_ok.mp ran
  cases returned
  exact ⟨rfl,
    (threadsNumberFilter_keepsInOrder (List.length_replicate _ _).symm filtered).subset.2⟩

theorem efficientSearch_of_ok {utils : Utils} {rounding : Rounding} {oracles : EfficientOracles}
    {task : SearchTask} {cache searched : MeasuredCache (Option State)} {fuel : Nat}
    {dispatched : List (Option State) × List (Nat × Nat)}
    (ran : efficientSearch utils rounding oracles task cache fuel = .ok (dispatched, searched)) :
    ∃ emitted configs entries,
      emitConfig utils task (efficientSearchDims task.computeDag.stages).1
        (efficientSearchDims task.computeDag.stages).2 fuel = .ok emitted ∧
      initCandidates oracles task emitted = .ok (configs, configs.map oracles.initRules) ∧
      (∀ config ∈ configs, config ∈ emitted) ∧
      collectCandidates rounding task configs (configs.map oracles.initRules) fuel = .ok entries ∧
      searched = ({ cache with vector := cache.vector ++ entries.map Prod.snd }).appendThroughputs
        ((entries.map Prod.snd).map oracles.throughput) := by
  obtain ⟨emitted, emittedOk, ran⟩ := bind_eq_ok.mp ran
  obtain ⟨⟨configs, states⟩, initialized, ran⟩ := bind_eq_ok.mp ran
  obtain ⟨rfl, threaded⟩ := initCandidates_of_ok initialized
  obtain ⟨entries, collected, ran⟩ := bind_eq_ok.mp ran
  obtain ⟨_, -, ran⟩ := bind_eq_ok.mp ran
  cases ran
  exact ⟨emitted, configs, entries, emittedOk, initialized, threaded, collected, rfl⟩

/-- What a returning `EfficientSearch` measured on a two-level descriptor: `EmitConfig` returned
`emitted`; `ThreadsNumberFilter` kept `configs` of them, each with the state its init rules make;
the filters of the instances returned `runs`; and the cache gained the states of
`filter_cand_states`, a map keyed by the tiles of the one shape `EmitConfig` gives, which holds
for each tiles the state of their last survivor over the instances in order. -/
def MeasuresCandidateMap (utils : Utils) (rounding : Rounding) (oracles : EfficientOracles)
    (task : SearchTask) (cache searched : MeasuredCache (Option State)) (fuel : Nat) : Prop :=
  let dims := efficientSearchDims task.computeDag.stages
  ∃ emitted configs runs entries, emitConfig utils task dims.1 dims.2 fuel = .ok emitted ∧
    initCandidates oracles task emitted = .ok (configs, configs.map oracles.initRules) ∧
    (∀ config ∈ configs, config ∈ emitted) ∧
    task.wklInsts.mapM (fun wklInst => instanceFilters rounding task configs
      (configs.map oracles.initRules) wklInst fuel) = .ok runs ∧
    KeyedBy ([dims.1, dims.1], [dims.2, dims.2]) entries ∧
    (∀ tiles, lookupTiles entries tiles =
      lookupTiles (runs.flatMap fun run => run.1.zip run.2).reverse tiles) ∧
    searched = ({ cache with vector := cache.vector ++ entries.map Prod.snd }).appendThroughputs
      ((entries.map Prod.snd).map oracles.throughput)

/-- `EfficientSearch` on a two-level descriptor, whenever it returns, measures the map of the
last survivors keyed by their tiles: one state for each tiles some instance kept, in
`operator<` order, appended to the cache with its throughput. -/
theorem efficientSearch_measures_candidate_map {utils : Utils} {rounding : Rounding}
    {oracles : EfficientOracles} {task : SearchTask} {cache searched : MeasuredCache (Option State)}
    {fuel : Nat} {dispatched : List (Option State) × List (Nat × Nat)}
    (levels : task.hardwareApi.numLevel = 2)
    (ran : efficientSearch utils rounding oracles task cache fuel = .ok (dispatched, searched)) :
    MeasuresCandidateMap utils rounding oracles task cache searched fuel := by
  obtain ⟨emitted, configs, entries, emittedOk, initialized, threaded, collected, rfl⟩ :=
    efficientSearch_of_ok ran
  obtain ⟨runs, runsOk, keyed, looked⟩ := collectCandidates_last_assigned
    (fun config mem => emitConfig_shape levels emittedOk config (threaded config mem))
    (List.length_map _ _).symm collected
  unfold MeasuresCandidateMap
  exact ⟨emitted, configs, runs, entries, emittedOk, initialized, threaded, runsOk,
    by simpa using keyed, looked, rfl⟩

def oneCoreRowSumTask : SearchTask :=
  { rowSumTask with
    hardwareApi :=
      { sampleHardwareApi with
        warpSize := 1, computeSmPartition := [80, 1], smemSmPartition := [80, 1],
        glbmemSmPartition := [1], numCores := 1 } }

theorem oneCoreRowSum_search :
    efficientSearch doublingUtils Rounding.floor plainInit oneCoreRowSumTask oneStateCache 5 =
      .ok (([some plainState], [(0, 0)]),
        ⟨[], List.replicate 5 (some plainState), List.replicate 5 1⟩) := by
  with_unfolding_all decide

/-- The search of the row sum measures the four states of the map of its four configs. -/
theorem oneCoreRowSum_measures_candidate_map : ∃ dispatched searched,
    efficientSearch doublingUtils Rounding.floor plainInit oneCoreRowSumTask oneStateCache 5 =
      .ok (dispatched, searched) ∧ searched.vector.length = 5 ∧
    MeasuresCandidateMap doublingUtils Rounding.floor plainInit oneCoreRowSumTask oneStateCache
      searched 5 :=
  ⟨_, _, oneCoreRowSum_search, rfl,
    efficientSearch_measures_candidate_map rfl oneCoreRowSum_search⟩

/-- `EfficientSearch` hands the measurer at most ten states per workload instance, the top that
`RegComputeIntensiveFilter` keeps, and at least one when there is an instance; each gets its
throughput. -/
theorem efficientSearch_measures_within {utils : Utils} {rounding : Rounding}
    {oracles : EfficientOracles} {task : SearchTask} {cache searched : MeasuredCache (Option State)}
    {fuel : Nat} {dispatched : List (Option State) × List (Nat × Nat)}
    (ran : efficientSearch utils rounding oracles task cache fuel = .ok (dispatched, searched)) :
    ∃ measured, searched.vector = cache.vector ++ measured ∧
      searched.throughputs.length = cache.throughputs.length + measured.length ∧
      measured.length ≤ 10 * task.wklInsts.length ∧ (task.wklInsts ≠ [] → measured ≠ []) := by
  obtain ⟨-, configs, entries, -, -, -, collected, rfl⟩ := efficientSearch_of_ok ran
  obtain ⟨bounded, someMeasured⟩ := collectCandidates_length (List.length_map _ _).symm collected
  exact ⟨entries.map Prod.snd, rfl, by simp [MeasuredCache.appendThroughputs],
    by simpa using bounded, fun instances => by simpa using someMeasured instances⟩

/-- The row sum's one instance gets four states measured, within its ten. -/
theorem oneCoreRowSum_measures_within : ∃ dispatched searched,
    efficientSearch doublingUtils Rounding.floor plainInit oneCoreRowSumTask oneStateCache 5 =
      .ok (dispatched, searched) ∧
    ∃ measured, searched.vector = oneStateCache.vector ++ measured ∧
      searched.throughputs.length = oneStateCache.throughputs.length + measured.length ∧
      measured.length ≤ 10 * oneCoreRowSumTask.wklInsts.length ∧
      (oneCoreRowSumTask.wklInsts ≠ [] → measured ≠ []) :=
  ⟨_, _, oneCoreRowSum_search, efficientSearch_measures_within oneCoreRowSum_search⟩

/-- `EfficientSearch` pushes the states it measures on `measured_states_vector_` and their
throughputs on `measured_states_throughputs_`, but never inserts them in
`measured_states_set_`.  With a workload instance it always measures a state, so from a cache
that keeps the law, every returning search leaves one that breaks it. -/
theorem efficientSearch_breaks_cache_law {utils : Utils} {rounding : Rounding}
    {oracles : EfficientOracles} {task : SearchTask} {cache searched : MeasuredCache (Option State)}
    {fuel : Nat} {dispatched : List (Option State) × List (Nat × Nat)}
    (toStr : Option State → String) (consistent : cache.Consistent toStr)
    (instances : task.wklInsts ≠ [])
    (ran : efficientSearch utils rounding oracles task cache fuel = .ok (dispatched, searched)) :
    ¬searched.Consistent toStr := by
  obtain ⟨-, configs, entries, -, -, -, collected, rfl⟩ := efficientSearch_of_ok ran
  have measured := (collectCandidates_length (List.length_map _ _).symm collected).2 instances
  exact consistent.not_unrecorded toStr (by simpa using measured)

/-- From the empty cache the row sum's search measures four states that the set never records. -/
theorem oneCoreRowSum_breaks_cache_law : ∃ dispatched searched,
    efficientSearch doublingUtils Rounding.floor plainInit oneCoreRowSumTask MeasuredCache.empty 5 =
      .ok (dispatched, searched) ∧ searched.vector.length = 4 ∧
    ¬searched.Consistent reprStr := by
  have run : efficientSearch doublingUtils Rounding.floor plainInit oneCoreRowSumTask
      MeasuredCache.empty 5 = .ok (([some plainState], [(0, 0)]),
        ⟨[], List.replicate 4 (some plainState), List.replicate 4 1⟩) := by
    with_unfolding_all decide
  exact ⟨_, _, run, rfl, efficientSearch_breaks_cache_law reprStr
    (MeasuredCache.Consistent.empty reprStr) (by decide) run⟩

end FTuner
