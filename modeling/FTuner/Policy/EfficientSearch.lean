import FTuner.Hardware.EmitConfig
import FTuner.Filters.Survivors
import FTuner.Policy.Cache
import FTuner.Policy.ConfigOrder

namespace FTuner

/-! # `EfficientSearch`

The hardware-aligned path of the sketch policy: the configs of `EmitConfig` that pass
`ThreadsNumberFilter` are turned into states by the efficient init rules, filtered per workload
instance, merged in the `std::map` `filter_cand_states` keyed by `HwAlignedConfig::operator<`,
measured, and dispatched: each instance gets the measured state of highest adapted score.  The
init rules, the measurer and `AlignHWAdaptStateToWorkload` are oracles.

* `spillingCandidate_hangs_filters`: a candidate that `RegisterLaunchBoundsFilter` rejects
  leaves the padding loop with nothing to keep, and the filter chain never returns.
* `efficientSearch_hands_undefined_state`: a config whose init rules fail keeps the undefined
  `State` of its slot, and `OccupancyFilter` dereferences it.
* `selectStateId_first_best`: the dispatch loop picks the first state of highest positive adapted
  score, and state 0 when no score is positive.
* `efficientSearchFrom_dispatches`: once the candidates are collected, the search returns, maps
  each instance to its own slot, and hands it the state `selectStateId` picks.
-/

/-- The filters `EfficientSearch` runs for one workload instance, in order. -/
def instanceFilters (rounding : Rounding) (task : SearchTask) (configs : List HwAlignedConfig)
    (states : List (Option State)) (wklInst : List Int) (fuel : Nat) :
    Except Fault (List HwAlignedConfig × List (Option State)) := do
  let (configs, states) ← occupancyFilter rounding task configs states wklInst fuel
  let (configs, states) ← registerLaunchBoundsFilter rounding task configs states wklInst
  let (configs, states) ← sharedMemoryLaunchBoundsFilter rounding task configs states wklInst
  let (configs, states) ← paddingRelaxation rounding task configs states wklInst fuel
  let (configs, states) ← sharedMemoryComputeIntensiveFilter configs states
  regComputeIntensiveFilter configs states

/-- What `EfficientSearch` reads from outside the policy: the state the efficient init rules
make of `sketches[0]` for a config (`none` when a rule returns `kInvalid`), the throughput
recorded for a measured state, and the adapted score `AlignHWAdaptStateToWorkload` gives a
measured state for an instance from its throughput. -/
structure EfficientOracles where
  initRules : HwAlignedConfig → Option State
  throughput : Option State → ℚ
  adaptScore : Option State → List Int → ℚ → ℚ

/-- `cand_states` after `ThreadsNumberFilter` and the init rules: a slot is filled only when all
rules apply, and otherwise keeps its default-constructed, undefined `State`. -/
def initCandidates (oracles : EfficientOracles) (task : SearchTask)
    (configs : List HwAlignedConfig) :
    Except Fault (List HwAlignedConfig × List (Option State)) := do
  let (configs, _) ← threadsNumberFilter task configs (List.replicate configs.length none)
  pure (configs, configs.map oracles.initRules)

/-- The loop over `wkl_insts`: the filter chain, then `filter_cand_states[config] = state` for
every survivor. -/
def collectCandidates (rounding : Rounding) (task : SearchTask) (configs : List HwAlignedConfig)
    (states : List (Option State)) (fuel : Nat) :
    Except Fault (List (HwAlignedConfig × Option State)) :=
  task.wklInsts.foldlM (fun entries wklInst => do
    let (kept, keptStates) ← instanceFilters rounding task configs states wklInst fuel
    (List.range kept.length).foldlM (fun entries index => do
      mapAssign entries (← readAt kept index "inst_cand_configs")
        (← readAt keptStates index "inst_cand_states")) entries) []

/-- The measured state of highest adapted score for one instance: `state_id` runs over the
throughputs, and only a strictly larger score than the best so far, which starts at 0 for
state 0, wins. -/
def selectStateId (oracles : EfficientOracles) (cache : MeasuredCache (Option State))
    (wklInst : List Int) : Except Fault Nat := do
  let (best, _) ← (List.range cache.throughputs.length).foldlM (fun (best, maxScore) stateId => do
    let baseScore ← readAt cache.throughputs stateId "measured_states_throughputs_"
    let state ← readAt cache.vector stateId "measured_states_vector_"
    let score := oracles.adaptScore state wklInst baseScore
    pure (if score > maxScore then (stateId, score) else (best, maxScore))) (0, (0 : ℚ))
  pure best

/-- `EfficientSearch` after `EmitConfig`: the selected states, `inst_id_disp_map`, and the
cache, to whose vector and throughputs the measured states are appended while
`measured_states_set_` is left as it was. -/
def efficientSearchFrom (rounding : Rounding) (oracles : EfficientOracles) (task : SearchTask)
    (cache : MeasuredCache (Option State)) (fuel : Nat) (emitted : List HwAlignedConfig) :
    Except Fault ((List (Option State) × List (Nat × Nat)) × MeasuredCache (Option State)) := do
  let (configs, states) ← initCandidates oracles task emitted
  let entries ← collectCandidates rounding task configs states fuel
  let candStates := entries.map (·.2)
  let cache := { cache with vector := cache.vector ++ candStates }.appendThroughputs
    (candStates.map oracles.throughput)
  let (selected, dispMap) ← task.wklInsts.enum.foldlM
    (fun (selected, dispMap) (instId, wklInst) => do
    let stateId ← selectStateId oracles cache wklInst
    let state ← readAt cache.vector stateId "measured_states_vector_"
    pure (selected ++ [state], dispMap ++ [(instId, selected.length)])) ([], [])
  pure ((selected, dispMap), cache)

/-- `SketchPolicyNode::EfficientSearch`, its loops bounded by `fuel`. -/
def efficientSearch (utils : Utils) (rounding : Rounding) (oracles : EfficientOracles)
    (task : SearchTask) (cache : MeasuredCache (Option State)) (fuel : Nat) :
    Except Fault ((List (Option State) × List (Nat × Nat)) × MeasuredCache (Option State)) := do
  let (spaceDims, reduceDims) := efficientSearchDims task.computeDag.stages
  efficientSearchFrom rounding oracles task cache fuel
    (← emitConfig utils task spaceDims reduceDims fuel)

def spillingConfig : HwAlignedConfig :=
  { HwAlignedConfig.empty with reduceTiles := [[1]], singleThreadRegUsage := 255, threadsNum := 32 }

def plainState : State :=
  ⟨3, []⟩

def spillTask : SearchTask :=
  { narrowWindowTask with hardwareApi := { narrowWindowTask.hardwareApi with numCores := 1 } }

private theorem filterMap_singleton {value : α} : ∀ {picks : List Nat},
    (∀ index ∈ picks, index < 1) →
      picks.filterMap ([value][·]?) = List.replicate picks.length value
  | [], _ => rfl
  | index :: picks, inRange => by
      obtain rfl : index = 0 := by
        have := inRange index (List.mem_cons_self _ _)
        omega
      simp [filterMap_singleton fun other mem => inRange other (List.mem_cons_of_mem _ mem),
        List.replicate_succ]

theorem registerLaunchBoundsFilter_rejects_spilling (rounding : Rounding) {copies : Nat}
    (several : 0 < copies) :
    registerLaunchBoundsFilter rounding spillTask (List.replicate copies spillingConfig)
      (List.replicate copies (some plainState)) [] = .ok ([], []) := by
  have spills : ¬((255 : ℚ) + 255 / 16 < 255) := by norm_num
  have unwrapped : wrapInt 255 = 255 := by decide
  obtain ⟨copies, rfl⟩ : ∃ rest, copies = rest + 1 := ⟨copies - 1, by omega⟩
  simp only [registerLaunchBoundsFilter, List.replicate_succ, readAt, List.getElem?_cons_zero,
    ok_bind, deref]
  refine predicateFilter_rejects_all fun index inConfigs => ⟨some plainState, ?_, ?_⟩
  · simp only [List.length_cons, List.length_replicate] at inConfigs
    rw [← List.replicate_succ, List.getElem?_replicate, if_pos inConfigs]
  · simp only [← List.replicate_succ, List.getElem_replicate]
    simp [gridSize, deref, blocksInSm, readAt, spillingConfig, HwAlignedConfig.empty, spillTask,
      narrowWindowTask, staticTask, sampleHardwareApi, plainState, unwrapped, spills]
    norm_num

/-- A spilling candidate on a one-block grid never leaves the filters of `EfficientSearch`: either
`OccupancyFilter` finds no grid in its window, or it keeps the candidate, which
`RegisterLaunchBoundsFilter` rejects, and the padding loop then spins on no candidate at all. -/
theorem spillingCandidate_hangs_filters (rounding : Rounding) (fuel : Nat) :
    instanceFilters rounding spillTask [spillingConfig] [some plainState] [] fuel =
      .error .outOfFuel := by
  have gridsComputed :
      occupancyGrids rounding spillTask [spillingConfig] [some plainState] [] = .ok [1] := rfl
  cases occupied :
      occupancyFilter rounding spillTask [spillingConfig] [some plainState] [] fuel with
  | error fault =>
      obtain rfl := occupancyFilter_error gridsComputed rfl rfl occupied
      simp [instanceFilters, occupied]
  | ok kept =>
      have nonempty := occupancyFilter_kept occupied
      obtain ⟨picks, inRange, rfl⟩ := occupancyFilter_kept_pairs gridsComputed rfl rfl occupied
      rw [filterMap_singleton inRange, filterMap_singleton inRange] at *
      have copies : 0 < picks.length := by
        simpa [List.length_pos] using nonempty
      have emptied :
          sharedMemoryLaunchBoundsFilter rounding spillTask [] [] [] = .ok ([], []) := rfl
      simp [instanceFilters, occupied, registerLaunchBoundsFilter_rejects_spilling rounding copies,
        emptied, paddingRelaxation_empty (rfl : instanceBinding spillTask [] = .ok []) fuel]

theorem occupancyFilter_undefined {rounding : Rounding} {task : SearchTask}
    {configs : List HwAlignedConfig} {states : List (Option State)} {wklInst : List Int}
    {fuel : Nat} (undefined : none ∈ states) (lengthEq : states.length = configs.length) :
    ∃ fault, occupancyFilter rounding task configs states wklInst fuel = .error fault := by
  cases computed : occupancyGrids rounding task configs states wklInst with
  | error fault => exact ⟨fault, by simp [occupancyFilter, computed]⟩
  | ok grids =>
      exfalso
      obtain ⟨binding, -, gridsRan⟩ := bind_eq_ok.mp computed
      obtain ⟨index, found⟩ := List.mem_iff_getElem?.mp undefined
      have := (List.getElem?_eq_some_iff.mp found).1
      obtain ⟨grid, ran⟩ := mapM_ok_forall gridsRan index (List.mem_range.mpr (by omega))
      simp [readAt, found, gridSize, deref] at ran

/-- A config that passes `ThreadsNumberFilter` but fails an init rule keeps the undefined `State`
of its slot in `cand_states`, which `EfficientSearch` hands to `OccupancyFilter` for its first
instance; the dereference there fails, and so does the search. -/
theorem efficientSearch_hands_undefined_state {rounding : Rounding} {oracles : EfficientOracles}
    {task : SearchTask} {cache : MeasuredCache (Option State)} {fuel : Nat}
    {emitted kept : List HwAlignedConfig} {untouched : List (Option State)}
    (threads : threadsNumberFilter task emitted (List.replicate emitted.length none) =
      .ok (kept, untouched))
    (failed : ∃ config ∈ kept, oracles.initRules config = none) (instances : task.wklInsts ≠ []) :
    initCandidates oracles task emitted = .ok (kept, kept.map oracles.initRules) ∧
    none ∈ kept.map oracles.initRules ∧
    ∃ fault, efficientSearchFrom rounding oracles task cache fuel emitted = .error fault := by
  have undefined : none ∈ kept.map oracles.initRules := by
    obtain ⟨config, mem, fails⟩ := failed
    exact List.mem_map.mpr ⟨config, mem, fails⟩
  obtain ⟨first, rest, listed⟩ := List.exists_cons_of_ne_nil instances
  obtain ⟨fault, faulted⟩ : ∃ fault, occupancyFilter rounding task kept
      (kept.map oracles.initRules) first fuel = .error fault :=
    occupancyFilter_undefined undefined (List.length_map _ _)
  refine ⟨by simp [initCandidates, threads], undefined, fault, ?_⟩
  simp [efficientSearchFrom, initCandidates, threads, collectCandidates, listed, instanceFilters,
    faulted]

def wideConfig : HwAlignedConfig :=
  { HwAlignedConfig.empty with threadsNum := 128 }

def failingInit : EfficientOracles :=
  ⟨fun _ => none, fun _ => 0, fun _ _ _ => 0⟩

theorem failingInit_crashes_search :
    initCandidates failingInit staticTask [wideConfig] =
      .ok ([wideConfig], [wideConfig].map failingInit.initRules) ∧
    none ∈ [wideConfig].map failingInit.initRules ∧
    ∃ fault, efficientSearchFrom Rounding.floor failingInit staticTask MeasuredCache.empty 1
      [wideConfig] = .error fault :=
  efficientSearch_hands_undefined_state
    (by decide : threadsNumberFilter staticTask [wideConfig] [none] = .ok ([wideConfig], [none]))
    ⟨wideConfig, List.mem_singleton_self _, rfl⟩ (by simp [staticTask])

/-! ## Dispatch

The last loop of `EfficientSearch` hands each workload instance the first measured state of
highest positive adapted score, and `measured_states_vector_[0]` when no score is positive.
-/

/-- The adapted score `AlignHWAdaptStateToWorkload` gives each measured state for an instance,
from the throughput recorded for it. -/
def adaptedScores (oracles : EfficientOracles) (cache : MeasuredCache (Option State))
    (wklInst : List Int) : List ℚ :=
  List.zipWith (fun state baseScore => oracles.adaptScore state wklInst baseScore) cache.vector
    cache.throughputs

/-- `best` is the first index of the highest score when some score is positive, and 0 when
none is. -/
def IsFirstBest (scores : List ℚ) (best : Nat) : Prop :=
  best = 0 ∧ (∀ score ∈ scores, score ≤ 0) ∨
    ∃ top, scores[best]? = some top ∧ 0 < top ∧ (∀ score ∈ scores, score ≤ top) ∧
      ∀ score ∈ scores.take best, score < top

/-- `(select_state_id, max_score)` after the states below `visited`: `max_score` bounds their
scores and beats those below `select_state_id`, and is either the initial 0 at state 0 or the
score of `select_state_id`. -/
def BestSoFar (scores : List ℚ) (visited : Nat) (acc : Nat × ℚ) : Prop :=
  (∀ stateId < visited, ∀ score, scores[stateId]? = some score → score ≤ acc.2) ∧
    (∀ stateId < acc.1, ∀ score, scores[stateId]? = some score → score < acc.2) ∧
    (acc = (0, 0) ∨ 0 < acc.2 ∧ acc.1 < visited ∧ scores[acc.1]? = some acc.2)

theorem bestSoFar_start (scores : List ℚ) : BestSoFar scores 0 (0, 0) :=
  ⟨fun _ below => absurd below (Nat.not_lt_zero _),
    fun _ below => absurd below (Nat.not_lt_zero _), .inl rfl⟩

theorem bestSoFar_step {scores : List ℚ} {visited : Nat} {acc : Nat × ℚ} {score : ℚ}
    (kept : BestSoFar scores visited acc) (scored : scores[visited]? = some score) :
    BestSoFar scores (visited + 1) (if score > acc.2 then (visited, score) else acc) := by
  obtain ⟨bounded, beaten, start⟩ := kept
  have nonneg : 0 ≤ acc.2 := by
    rcases start with rfl | ⟨positive, -⟩
    exacts [le_refl _, positive.le]
  split_ifs with higher
  · refine ⟨fun stateId below other found => ?_, fun stateId below other found =>
      lt_of_le_of_lt (bounded stateId below other found) higher,
      .inr ⟨lt_of_le_of_lt nonneg higher, Nat.lt_succ_self _, scored⟩⟩
    rcases Nat.lt_succ_iff_lt_or_eq.mp below with below | rfl
    · exact (bounded stateId below other found).trans higher.le
    · exact (Option.some.inj (scored.symm.trans found)).ge
  · refine ⟨fun stateId below other found => ?_, beaten, start.imp_right fun ⟨positive, below,
      found⟩ => ⟨positive, Nat.lt_succ_of_lt below, found⟩⟩
    rcases Nat.lt_succ_iff_lt_or_eq.mp below with below | rfl
    · exact bounded stateId below other found
    · exact (Option.some.inj (scored.symm.trans found)) ▸ not_lt.mp higher

theorem BestSoFar.isFirstBest {scores : List ℚ} {acc : Nat × ℚ}
    (done : BestSoFar scores scores.length acc) : IsFirstBest scores acc.1 := by
  obtain ⟨bounded, beaten, start⟩ := done
  have all : ∀ score ∈ scores, score ≤ acc.2 := fun score mem => by
    obtain ⟨stateId, found⟩ := List.mem_iff_getElem?.mp mem
    exact bounded stateId (List.getElem?_eq_some_iff.mp found).1 score found
  rcases start with rfl | ⟨positive, -, found⟩
  · exact .inl ⟨rfl, all⟩
  · refine .inr ⟨acc.2, found, positive, all, fun score mem => ?_⟩
    obtain ⟨stateId, taken⟩ := List.mem_iff_getElem?.mp mem
    have below : stateId < acc.1 := by
      have := (List.getElem?_eq_some_iff.mp taken).1
      simp only [List.length_take] at this
      omega
    rw [List.getElem?_take, if_pos below] at taken
    exact beaten stateId below score taken

theorem selectStateId_first_best {oracles : EfficientOracles} {cache : MeasuredCache (Option State)}
    {wklInst : List Int} (covered : cache.throughputs.length ≤ cache.vector.length) :
    ∃ best, selectStateId oracles cache wklInst = .ok best ∧
      IsFirstBest (adaptedScores oracles cache wklInst) best := by
  have counted : (adaptedScores oracles cache wklInst).length = cache.throughputs.length := by
    simp [adaptedScores, covered]
  refine bind_ok_of_ok (foldlM_ok_indexed (BestSoFar (adaptedScores oracles cache wklInst))
    (fun stateId acc inRange kept => ?_) (bestSoFar_start _) fun acc done =>
      ⟨acc.1, rfl, BestSoFar.isFirstBest (by
        rwa [List.length_range, ← counted] at done)⟩)
  rw [List.length_range] at inRange
  obtain ⟨best, maxScore⟩ := acc
  have readThroughput := List.getElem?_eq_getElem inRange
  have readState := List.getElem?_eq_getElem (Nat.lt_of_lt_of_le inRange covered)
  have scored : (adaptedScores oracles cache wklInst)[stateId]? =
      some (oracles.adaptScore cache.vector[stateId] wklInst cache.throughputs[stateId]) := by
    simp [adaptedScores, List.getElem?_zipWith, readThroughput, readState]
  refine ⟨_, by simp only [List.getElem_range, readAt, readThroughput, readState]; rfl, ?_⟩
  simpa using bestSoFar_step kept scored

def throughputScores : EfficientOracles :=
  ⟨fun _ => none, fun _ => 0, fun _ _ baseScore => baseScore⟩

def tiedCache : MeasuredCache (Option State) :=
  ⟨[], [none, some plainState, none], [1, 3, 3]⟩

/-- Of two states tied on the highest score, the first is selected. -/
example : selectStateId throughputScores tiedCache [] = .ok 1 := by decide

theorem IsFirstBest.read {oracles : EfficientOracles} {cache : MeasuredCache (Option State)}
    {wklInst : List Int} {best : Nat}
    (first : IsFirstBest (adaptedScores oracles cache wklInst) best)
    (measured : cache.vector ≠ []) : ∃ state, cache.vector[best]? = some state := by
  rcases first with ⟨rfl, -⟩ | ⟨top, found, -⟩
  · exact ⟨_, List.getElem?_eq_getElem (List.length_pos.mpr measured)⟩
  · have := (List.getElem?_eq_some_iff.mp found).1
    simp only [adaptedScores, List.length_zipWith] at this
    exact ⟨_, List.getElem?_eq_getElem (by omega)⟩

/-- The dispatch of `EfficientSearch`: once the candidates are collected, and when the cache has a
measured state for each throughput and some state is measured, the search returns.  It appends
the candidate states and their throughputs to the cache, leaving `measured_states_set_` as it was;
it maps each instance to its own slot; and it gives each instance the first measured state of
highest positive adapted score, or `measured_states_vector_[0]` when no score is positive. -/
theorem efficientSearchFrom_dispatches {rounding : Rounding} {oracles : EfficientOracles}
    {task : SearchTask} {cache : MeasuredCache (Option State)} {fuel : Nat}
    {emitted configs : List HwAlignedConfig} {states : List (Option State)}
    {entries : List (HwAlignedConfig × Option State)}
    (covered : cache.throughputs.length ≤ cache.vector.length)
    (initialized : initCandidates oracles task emitted = .ok (configs, states))
    (collected : collectCandidates rounding task configs states fuel = .ok entries)
    (measuredSome : cache.vector ++ entries.map Prod.snd ≠ []) :
    let measured :=
      ({ cache with vector := cache.vector ++ entries.map Prod.snd }).appendThroughputs
        ((entries.map Prod.snd).map oracles.throughput)
    ∃ selected, efficientSearchFrom rounding oracles task cache fuel emitted =
        .ok ((selected, (List.range task.wklInsts.length).map fun instId => (instId, instId)),
          measured) ∧
      List.Forall₂ (fun wklInst state => ∃ best,
        IsFirstBest (adaptedScores oracles measured wklInst) best ∧
          measured.vector[best]? = some state) task.wklInsts selected := by
  intro measured
  have measuredCovered : measured.throughputs.length ≤ measured.vector.length := by
    simp only [measured, MeasuredCache.appendThroughputs, List.length_append, List.length_map]
    omega
  have measuredEq :
      ({ cache with vector := cache.vector ++ entries.map Prod.snd }).appendThroughputs
        ((entries.map Prod.snd).map oracles.throughput) = measured := rfl
  rw [efficientSearchFrom, initialized, ok_bind]
  dsimp only
  rw [collected, ok_bind, measuredEq]
  refine bind_ok_of_ok (foldlM_ok_indexed (fun visited (acc : List (Option State) × _) =>
    acc.2 = (List.range visited).map (fun instId => (instId, instId)) ∧
      List.Forall₂ (fun wklInst state => ∃ best,
        IsFirstBest (adaptedScores oracles measured wklInst) best ∧
          measured.vector[best]? = some state) (task.wklInsts.take visited) acc.1)
    (fun instId acc inRange kept => ?_) ⟨rfl, by simp⟩ fun acc done => ⟨acc.1, ?_, ?_⟩)
  · obtain ⟨selected, dispMap⟩ := acc
    obtain ⟨mapped, related⟩ := kept
    dsimp only at mapped related
    rw [List.enum_length] at inRange
    obtain ⟨best, selectedOk, first⟩ :=
      @selectStateId_first_best oracles measured task.wklInsts[instId] measuredCovered
    obtain ⟨state, read⟩ := first.read (by
      simpa [measured, MeasuredCache.appendThroughputs] using measuredSome)
    have counted : selected.length = instId := by
      rw [← related.length_eq, List.length_take]
      omega
    refine ⟨(selected ++ [state], dispMap ++ [(instId, selected.length)]), ?_, ?_, ?_⟩
    · simp only [List.getElem_enum, selectedOk, ok_bind, readAt, read]
      rfl
    · simp only [mapped, counted, List.range_succ, List.map_append, List.map_cons, List.map_nil]
    · rw [List.take_succ, List.getElem?_eq_getElem inRange, Option.toList_some]
      exact List.rel_append related (.cons ⟨best, first, read⟩ .nil)
  · rw [done.1, List.enum_length]
    rfl
  · simpa using done.2

def oneStateCache : MeasuredCache (Option State) :=
  ⟨[], [some plainState], [1]⟩

def plainInit : EfficientOracles :=
  ⟨fun _ => some plainState, fun _ => 1, fun _ _ baseScore => baseScore⟩

def lightConfig : HwAlignedConfig :=
  { wideConfig with
    reduceTiles := [[1]], singleThreadRegUsage := 32, computeIntensiveRatio := [1, 1] }

/-- On one core, `lightConfig` survives the filters of the one instance; its state joins the
cache's, both score 1, and the instance gets the first. -/
theorem lightConfig_dispatched :
    ∃ selected, efficientSearchFrom Rounding.floor plainInit spillTask oneStateCache 1
        [lightConfig] = .ok ((selected, [(0, 0)]), ⟨[], [some plainState, some plainState], [1, 1]⟩) ∧
      List.Forall₂ (fun wklInst state => ∃ best,
        IsFirstBest (adaptedScores plainInit ⟨[], [some plainState, some plainState], [1, 1]⟩
          wklInst) best ∧ [some plainState, some plainState][best]? = some state) [[]] selected :=
  efficientSearchFrom_dispatches (by decide)
    (by decide : initCandidates plainInit spillTask [lightConfig] =
      .ok ([lightConfig], [some plainState]))
    (by with_unfolding_all decide : collectCandidates Rounding.floor spillTask [lightConfig]
      [some plainState] 1 = .ok [(lightConfig, some plainState)]) (by decide)

/-! ## The candidate map

`filter_cand_states[config] = state` for the survivors of every instance in turn: the map keeps
the key of the first survivor with given tiles and the state of the last. -/

theorem instanceFilters_kept {rounding : Rounding} {task : SearchTask}
    {configs : List HwAlignedConfig} {states : List (Option State)} {wklInst : List Int}
    {fuel : Nat} {kept : List HwAlignedConfig × List (Option State)}
    (lengths : configs.length = states.length)
    (ran : instanceFilters rounding task configs states wklInst fuel = .ok kept) :
    kept.1.length = kept.2.length ∧ kept.1 ≠ [] ∧ kept.1.length ≤ 10 ∧
      ∀ config ∈ kept.1, config ∈ configs := by
  obtain ⟨⟨occupied, occupiedStates⟩, occupiedRan, ran⟩ := bind_eq_ok.mp ran
  obtain ⟨_, _, -, -, occupiedKeeps⟩ := occupancyFilter_keepsInOrder lengths occupiedRan
  obtain ⟨occupiedLengths, occupiedSub⟩ := occupiedKeeps.subset
  obtain ⟨⟨registered, registeredStates⟩, registeredRan, ran⟩ := bind_eq_ok.mp ran
  obtain ⟨registeredLengths, registeredSub⟩ :=
    (registerLaunchBoundsFilter_keepsInOrder occupiedLengths registeredRan).subset
  obtain ⟨⟨shared, sharedStates⟩, sharedRan, ran⟩ := bind_eq_ok.mp ran
  obtain ⟨sharedLengths, sharedSub⟩ :=
    (sharedMemoryLaunchBoundsFilter_keepsInOrder registeredLengths sharedRan).subset
  obtain ⟨⟨padded, paddedStates⟩, paddedRan, ran⟩ := bind_eq_ok.mp ran
  obtain ⟨paddedSome, _, -, paddedRan⟩ := relaxUntilKept_kept paddedRan
  obtain ⟨paddedLengths, paddedSub⟩ :=
    (paddingFilter_keepsInOrder sharedLengths paddedRan).subset
  obtain ⟨⟨intense, intenseStates⟩, intenseRan, ran⟩ := bind_eq_ok.mp ran
  obtain ⟨intenseLengths, intenseSub⟩ :=
    (computeIntensiveFilter_keepsByRatio paddedLengths intenseRan).subset
  dsimp only at ran
  obtain ⟨keptLengths, keptSub⟩ :=
    (computeIntensiveFilter_keepsByRatio intenseLengths ran).subset
  have paddedCount := List.length_pos.mpr paddedSome
  have intenseCount := computeIntensiveFilter_length paddedLengths intenseRan
  have keptCount := computeIntensiveFilter_length intenseLengths ran
  refine ⟨keptLengths, List.length_pos.mp (by omega), by omega, fun config mem => occupiedSub _
    (registeredSub _ (sharedSub _ (paddedSub _ (intenseSub _ (keptSub _ mem)))))⟩

theorem collectCandidates_last_assigned {rounding : Rounding} {task : SearchTask}
    {configs : List HwAlignedConfig} {states : List (Option State)} {fuel : Nat}
    {entries : List (HwAlignedConfig × Option State)} {shape : List Nat × List Nat}
    (oneShape : ∀ config ∈ configs, config.shape = shape)
    (lengths : configs.length = states.length)
    (collected : collectCandidates rounding task configs states fuel = .ok entries) :
    ∃ runs, task.wklInsts.mapM (fun wklInst =>
        instanceFilters rounding task configs states wklInst fuel) = .ok runs ∧
      KeyedBy shape entries ∧
      ∀ tiles, lookupTiles entries tiles =
        lookupTiles (runs.flatMap fun run => run.1.zip run.2).reverse tiles := by
  refine foldlM_ok_visited (fun done acc => ∃ runs, done.mapM (fun wklInst =>
      instanceFilters rounding task configs states wklInst fuel) = .ok runs ∧
      KeyedBy shape acc ∧
      ∀ tiles, lookupTiles acc tiles =
        lookupTiles (runs.flatMap fun run => run.1.zip run.2).reverse tiles)
    (fun done acc wklInst next ⟨runs, runsOk, keyed, looked⟩ stepped => ?_)
    (by exact ⟨[], rfl, ⟨nofun, List.sorted_nil⟩, fun _ => rfl⟩) collected
  obtain ⟨⟨kept, keptStates⟩, filtered, assigned⟩ := bind_eq_ok.mp stepped
  obtain ⟨-, -, -, survivorsSub⟩ := instanceFilters_kept lengths filtered
  have assignedAll := foldlM_ok_counted (fun visited acc => KeyedBy shape acc ∧
      ∀ tiles, lookupTiles acc tiles = lookupTiles ((runs.flatMap fun run => run.1.zip run.2) ++
        (kept.zip keptStates).take visited).reverse tiles)
    (fun index acc after inRange ⟨keyed, looked⟩ step => by
      rw [List.length_range] at inRange
      obtain ⟨config, configRead, step⟩ := bind_eq_ok.mp step
      obtain ⟨state, stateRead, step⟩ := bind_eq_ok.mp step
      rw [List.getElem_range] at configRead stateRead
      have configFound := readAt_eq_ok_iff.mp configRead
      have stateFound := readAt_eq_ok_iff.mp stateRead
      obtain ⟨assigned, assign, keyedAfter, lookedAfter, -⟩ := mapAssign_keyed state
        (oneShape config (survivorsSub config (List.getElem?_mem configFound))) keyed
      cases assign.symm.trans step
      refine ⟨keyedAfter, fun tiles => ?_⟩
      have pairFound : (kept.zip keptStates)[index]? = some (config, state) :=
        List.getElem?_zip_eq_some.mpr ⟨configFound, stateFound⟩
      rw [lookedAfter, looked, List.take_succ, pairFound, Option.toList_some, ← List.append_assoc]
      simp only [List.reverse_append, List.reverse_cons, List.reverse_nil, List.nil_append,
        List.singleton_append, lookupTiles_cons])
    ⟨keyed, fun tiles => by rw [looked, List.take_zero, List.append_nil]⟩ assigned
  rw [List.length_range, List.take_of_length_le (by simp)] at assignedAll
  refine ⟨runs ++ [(kept, keptStates)], ?_, assignedAll.1, fun tiles => ?_⟩
  · rw [List.mapM_append, runsOk, ok_bind, List.mapM_cons, filtered]
    rfl
  · rw [assignedAll.2, List.flatMap_append, List.flatMap_singleton]

theorem collectCandidates_length {rounding : Rounding} {task : SearchTask}
    {configs : List HwAlignedConfig} {states : List (Option State)} {fuel : Nat}
    {entries : List (HwAlignedConfig × Option State)} (lengths : configs.length = states.length)
    (collected : collectCandidates rounding task configs states fuel = .ok entries) :
    entries.length ≤ 10 * task.wklInsts.length ∧ (task.wklInsts ≠ [] → entries ≠ []) := by
  refine foldlM_ok_visited (fun done acc => acc.length ≤ 10 * done.length ∧ (done ≠ [] → acc ≠ []))
    (fun done acc _ next before stepped => ?_) ?_ collected
  · obtain ⟨⟨survivors, survivorStates⟩, filtered, assigned⟩ := bind_eq_ok.mp stepped
    obtain ⟨-, someKept, atMostTen, -⟩ := instanceFilters_kept lengths filtered
    have grown := foldlM_ok_counted (fun visited after =>
        after.length ≤ acc.length + visited ∧ (0 < visited → after ≠ []))
      (fun _ _ _ _ ⟨within, _⟩ step => by
        obtain ⟨_, -, step⟩ := bind_eq_ok.mp step
        obtain ⟨_, -, step⟩ := bind_eq_ok.mp step
        have assignedLength := mapAssign_length step
        exact ⟨by omega, fun _ => List.length_pos.mp assignedLength.1⟩)
      ⟨by simp, (absurd · (Nat.lt_irrefl 0))⟩ assigned
    rw [List.length_range] at grown
    have someSurvivor := List.length_pos.mpr someKept
    refine ⟨?_, fun _ => grown.2 someSurvivor⟩
    have bounded := before.1
    dsimp only at atMostTen
    simp only [List.length_append, List.length_singleton]
    omega
  · exact ⟨by simp, fun nothing => absurd rfl nothing⟩

end FTuner
