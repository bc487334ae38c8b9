import FTuner.Policy.Cache

namespace FTuner

/-! # Dispatch and build verification

For a dynamic task, `Search` ends by scoring every measured state for every workload instance
(`adapted_candidate_flops`, row `inst_id`, column `state_id`), dispatching the instances to
states, building one input per instance, and zeroing the score of a failed build.  The
dispatcher, `MapWklInstsToStates` and the builder are oracles.  `inst_id_disp_map` maps an
instance to a position in `selected_candidate_states`, and `operator[]` of the
`std::unordered_map` inserts `0` for an instance it does not hold.

The `do … while (changed_adapted_candidate_flops)` loop tests a flag that nothing sets, so it
makes one pass whatever the builds report (`dispatchLoop_one_pass`), and a failed instance keeps
the state it failed on (`failedBuild_stays_dispatched`).

The scores are laid out row-major with rows of `measured_states_vector_.size()` cells in a
vector of `measured_states_throughputs_.size()` cells per row: on an aligned cache they are the
score matrix (`adaptedCandidateFlops_eq_scoreRows`), and once states outnumber throughputs the
writes of a second instance run past the end (`adaptedCandidateFlops_overflows`).
-/

/-- What the dispatch reads from outside the policy: `AdaptStateToWorkload`'s adapted score of a
measured state for an instance given its throughput, `TopKDispatcher::dispatch` (instance to
measured state), `MapWklInstsToStates` (instance to position, and the selected states), and, per
pass, whether `Build` failed on each test input. -/
structure DispatchOracles (σ : Type) where
  adapt : σ → List Int → ℚ → ℚ
  dispatch : List ℚ → Nat → List (Nat × Nat)
  mapWklInstsToStates : List (Nat × Nat) → List σ → List ℚ → List (Nat × Nat) × List σ
  buildFails : Nat → List (σ × List Int) → List Bool

/-- `map[key]` of a `std::unordered_map<size_t, size_t>`: the value, inserting `0` when the key
is absent. -/
def lookupInsert (map : List (Nat × Nat)) (key : Nat) : Nat × List (Nat × Nat) :=
  match map.lookup key with
  | some value => (value, map)
  | none => (0, map ++ [(key, 0)])

variable {σ : Type} (oracles : DispatchOracles σ) (cache : MeasuredCache σ)
  (wklInsts : List (List Int))

/-- `adapted_candidate_flops`: sized `wkl_insts.size() * throughputs.size()`, but written at
`inst_id * measured_states_vector_.size() + state_id`. -/
def adaptedCandidateFlops : Except Fault (List ℚ) :=
  (List.range cache.throughputs.length).foldlM (fun adapted stateId =>
    wklInsts.enum.foldlM (fun adapted (instId, wklInst) => do
      let state ← readAt cache.vector stateId "measured_states_vector_"
      let throughput ← readAt cache.throughputs stateId "measured_states_throughputs_"
      writeAt adapted (instId * cache.vector.length + stateId)
        (oracles.adapt state wklInst throughput) "adapted_candidate_flops") adapted)
    (List.replicate (wklInsts.length * cache.throughputs.length) 0)

/-- The instance-by-state score matrix, row-major: row `inst_id` holds the adapted score of every
measured state for that instance. -/
def scoreRows : List ℚ :=
  wklInsts.flatMap fun wklInst =>
    List.zipWith (fun state throughput => oracles.adapt state wklInst throughput) cache.vector
      cache.throughputs

/-- The outcome of the dispatch: `selected_candidate_states`, `inst_id_disp_map`, and the
adapted scores as the last pass left them. -/
structure Dispatched (σ : Type) where
  selected : List σ
  dispMap : List (Nat × Nat)
  adapted : List ℚ
  deriving DecidableEq

/-- One test input per instance of `wkl_inst_ids`: its selected state and its instance. -/
def testInputs (selected : List σ) (dispMap : List (Nat × Nat)) (instIds : List Nat) :
    Except Fault (List (σ × List Int) × List (Nat × Nat)) :=
  instIds.foldlM (fun (tests, dispMap) instId => do
    let (position, dispMap) := lookupInsert dispMap instId
    let state ← readAt selected position "selected_candidate_states"
    let wklInst ← readAt wklInsts instId "wkl_insts"
    pure (tests ++ [(state, wklInst)], dispMap)) ([], dispMap)

/-- The build check of one pass: for a failed build of instance `inst_id`, the log line reads
`wkl_insts[state_id]` and `selected_candidate_states[state_id]`, the score at
`inst_id * measured_states_vector_.size() + state_id` is zeroed, and the instance is queued,
where `state_id` is the instance's position in the selected states. -/
def buildCheck (selected : List σ) (failed : List Bool) (instIds : List Nat)
    (adapted : List ℚ) (dispMap : List (Nat × Nat)) :
    Except Fault (List ℚ × List (Nat × Nat) × List Nat) :=
  instIds.enum.foldlM (fun (adapted, dispMap, next) (instI, instId) => do
    let (stateId, dispMap) := lookupInsert dispMap instId
    if ← readAt failed instI "build_results" then
      let _ ← readAt wklInsts stateId "wkl_insts"
      let _ ← readAt selected stateId "selected_candidate_states"
      let adapted ← writeAt adapted (instId * cache.vector.length + stateId) 0
        "adapted_candidate_flops"
      pure (adapted, dispMap, next ++ [instId])
    else pure (adapted, dispMap, next)) (adapted, dispMap, [])

/-- The `do … while (changed_adapted_candidate_flops)` loop, bounded by `fuel` passes.  The flag
starts `false` and no statement sets it, and `wkl_inst_ids` is never refilled from
`next_wkl_inst_ids`. -/
def dispatchLoop (instIds : List Nat) : Nat → Nat → List ℚ → Except Fault (Dispatched σ)
  | 0, _, _ => .error .outOfFuel
  | fuel + 1, pass, adapted => do
      let raw := oracles.dispatch adapted cache.vector.length
      let (dispMap, selected) := oracles.mapWklInstsToStates raw cache.vector adapted
      let (tests, dispMap) ← testInputs wklInsts selected dispMap instIds
      let failed := oracles.buildFails pass tests
      if failed.length ≠ tests.length then
        .error (.fatal "build_results.size() == test_inputs.size()")
      let (adapted, dispMap, _) ←
        buildCheck cache wklInsts selected failed instIds adapted dispMap
      for (instId, _) in dispMap do
        let _ ← readAt wklInsts instId "wkl_insts"
      let changedAdaptedCandidateFlops := false
      if changedAdaptedCandidateFlops then dispatchLoop instIds fuel (pass + 1) adapted
      else pure ⟨selected, dispMap, adapted⟩

/-- The end of `Search` for a dynamic task: score, then dispatch every instance. -/
def dispatchMeasured (fuel : Nat) : Except Fault (Dispatched σ) := do
  dispatchLoop oracles cache wklInsts (List.range wklInsts.length) fuel 0
    (← adaptedCandidateFlops oracles cache wklInsts)

theorem dispatchLoop_one_pass (instIds : List Nat) (fuel pass : Nat) (adapted : List ℚ) :
    dispatchLoop oracles cache wklInsts instIds (fuel + 1) pass adapted =
      dispatchLoop oracles cache wklInsts instIds 1 pass adapted :=
  rfl

def twoMeasured : MeasuredCache String :=
  ⟨["a", "b"], ["a", "b"], [2, 1]⟩

/-- Adapted scores equal to the throughputs, a dispatcher that sends instance 0 to the measured
state `stateId`, a `MapWklInstsToStates` that selects the dispatched states in instance order,
and a builder on which every build fails. -/
def failingBuilds (stateId : Nat) : DispatchOracles String :=
  { adapt := fun _ _ throughput => throughput
    dispatch := fun _ _ => [(0, stateId)]
    mapWklInstsToStates := fun raw vector _ =>
      (raw.enum.map fun (position, instId, _) => (instId, position),
        raw.filterMap fun (_, stateId) => vector[stateId]?)
    buildFails := fun _ tests => tests.map fun _ => true }

/-- Both states score above zero for the one instance, and every build fails.  Sent to `"a"`, the
instance stays with `"a"` although `"b"` was never tried; sent to `"b"`, the zeroed score is
`"a"`'s, at the instance's position 0 in the selected states, and `"b"` keeps its score. -/
theorem failedBuild_stays_dispatched (fuel : Nat) :
    dispatchMeasured (failingBuilds 0) twoMeasured [[1]] (fuel + 1) =
      .ok ⟨["a"], [(0, 0)], [0, 1]⟩ ∧
    dispatchMeasured (failingBuilds 1) twoMeasured [[1]] (fuel + 1) =
      .ok ⟨["b"], [(0, 0)], [0, 1]⟩ := by
  simp only [dispatchMeasured, dispatchLoop_one_pass]
  decide

section Scores

variable (aligned : cache.vector.length = cache.throughputs.length)
include aligned

theorem scoreRows_length :
    (scoreRows oracles cache wklInsts).length = wklInsts.length * cache.throughputs.length :=
  length_flatMap_uniform fun _ _ => by simp [aligned]

theorem scoreRows_getElem? {index stateId : Nat} {wklInst : List Int}
    (found : wklInsts[index]? = some wklInst) (inRange : stateId < cache.throughputs.length) :
    ∃ state throughput, cache.vector[stateId]? = some state ∧
      cache.throughputs[stateId]? = some throughput ∧
      (scoreRows oracles cache wklInsts)[index * cache.throughputs.length + stateId]? =
        some (oracles.adapt state wklInst throughput) := by
  have stateFound := List.getElem?_eq_getElem (aligned ▸ inRange)
  have throughputFound := List.getElem?_eq_getElem inRange
  refine ⟨_, _, stateFound, throughputFound, ?_⟩
  rw [scoreRows, getElem?_flatMap_uniform (fun _ => by simp [aligned]) inRange found,
    List.getElem?_zipWith, stateFound, throughputFound]

/-- On a cache with one throughput per measured state, `adapted_candidate_flops` is the score
matrix: the loops write every cell once, at row `inst_id` and column `state_id`. -/
theorem adaptedCandidateFlops_eq_scoreRows :
    adaptedCandidateFlops oracles cache wklInsts = .ok (scoreRows oracles cache wklInsts) := by
  set size := cache.throughputs.length
  suffices ∃ adapted, adaptedCandidateFlops oracles cache wklInsts = .ok adapted ∧
      adapted = scoreRows oracles cache wklInsts by
    obtain ⟨_, ran, rfl⟩ := this
    exact ran
  rw [adaptedCandidateFlops, aligned]
  refine foldlM_ok_indexed (fun visited adapted =>
      adapted.length = wklInsts.length * size ∧ ∀ index stateId, index < wklInsts.length →
        stateId < size → adapted[index * size + stateId]? = if stateId < visited then
          (scoreRows oracles cache wklInsts)[index * size + stateId]? else some 0)
    (fun column adapted columnRange ⟨counted, cells⟩ => ?_) ⟨by simp, fun index stateId row
      inRange => by simp [rowMajor_lt row inRange]⟩ fun adapted ⟨counted, cells⟩ =>
        rowMajor_ext counted (scoreRows_length oracles cache wklInsts aligned)
          fun index stateId row inRange => by rw [cells index stateId row inRange,
            List.length_range, if_pos inRange]
  -- One column: the instances in turn, each writing its own cell of the column.
  rw [List.length_range] at columnRange
  rw [List.getElem_range]
  refine foldlM_ok_indexed (fun visited adapted =>
      adapted.length = wklInsts.length * size ∧ ∀ index stateId, index < wklInsts.length →
        stateId < size → adapted[index * size + stateId]? =
          if stateId < column ∨ stateId = column ∧ index < visited then
            (scoreRows oracles cache wklInsts)[index * size + stateId]? else some 0)
    (fun row adapted rowRange ⟨counted, cells⟩ => ?_)
    ⟨counted, fun index stateId inRows inRange => by simp [cells index stateId inRows inRange]⟩
    fun adapted ⟨counted, cells⟩ => ⟨counted, fun index stateId inRows inRange => ?_⟩
  · rw [List.enum_length] at rowRange
    obtain ⟨state, throughput, stateFound, throughputFound, scored⟩ :=
      scoreRows_getElem? oracles cache wklInsts aligned (List.getElem?_eq_getElem rowRange)
        columnRange
    have written : row * size + column < wklInsts.length * size :=
      rowMajor_lt rowRange columnRange
    refine ⟨adapted.set (row * size + column) (oracles.adapt state wklInsts[row] throughput),
      ?_, by rw [List.length_set, counted], fun index stateId inRows inRange => ?_⟩
    · rw [List.getElem_enum]
      simp only [readAt, stateFound, throughputFound, ok_bind, writeAt, counted, written,
        if_true]
    by_cases here : index = row ∧ stateId = column
    · obtain ⟨rfl, rfl⟩ := here
      rw [List.getElem?_set_self (counted ▸ written), scored]
      simp
    · have apart : row * size + column ≠ index * size + stateId := fun same =>
        here ((rowMajor_inj columnRange inRange same).imp Eq.symm Eq.symm)
      rw [List.getElem?_set_ne apart, cells index stateId inRows inRange]
      exact if_congr (by omega) rfl rfl
  · rw [List.enum_length] at cells
    rw [cells index stateId inRows inRange]
    exact if_congr (by omega) rfl rfl

end Scores

/-- Scores of two instances on the two measured states of `twoMeasured`. -/
theorem twoInstances_scoreRows :
    twoMeasured.vector.length = twoMeasured.throughputs.length ∧
      adaptedCandidateFlops (failingBuilds 0) twoMeasured [[1], [2]] = .ok [2, 1, 2, 1] ∧
      adaptedCandidateFlops (failingBuilds 0) twoMeasured [[1], [2]] =
        .ok (scoreRows (failingBuilds 0) twoMeasured [[1], [2]]) :=
  ⟨rfl, by decide, adaptedCandidateFlops_eq_scoreRows _ _ _ rfl⟩

/-- When measured states outnumber the throughputs, as after an early stop, scoring two or more
instances writes past the end of `adapted_candidate_flops`: row `inst_id` starts at
`inst_id * measured_states_vector_.size()`, but the vector holds only
`wkl_insts.size() * measured_states_throughputs_.size()` cells. -/
theorem adaptedCandidateFlops_overflows (longer : cache.throughputs.length < cache.vector.length)
    (several : 2 ≤ wklInsts.length) (measured : cache.throughputs ≠ []) :
    adaptedCandidateFlops oracles cache wklInsts =
      .error (.outOfRange "adapted_candidate_flops") := by
  set size := cache.throughputs.length
  cases ran : adaptedCandidateFlops oracles cache wklInsts with
  | error fault =>
      rw [adaptedCandidateFlops] at ran
      refine congrArg Except.error (foldlM_error_of_steps (fun adapted stateId listed _ column =>
        foldlM_error_of_steps (fun adapted ⟨instId, wklInst⟩ _ _ step => ?_) column) ran)
      have inRange := List.mem_range.mp listed
      simp only [readAt_of_lt (Nat.lt_trans inRange longer), readAt_of_lt inRange, ok_bind,
        writeAt] at step
      split_ifs at step
      cases step
      rfl
  | ok adapted =>
      exfalso
      rw [adaptedCandidateFlops] at ran
      have done := foldlM_ok_counted (fun visited adapted =>
          adapted.length = wklInsts.length * size ∧ visited < size)
        (fun column adapted next columnRange ⟨counted, _⟩ column' => ?_)
        ⟨by simp, List.length_pos.mpr measured⟩ ran
      swap
      · exact Nat.lt_irrefl _ (List.length_range size ▸ done.2)
      -- One column: the write of the last instance in the last column is out of range.
      rw [List.getElem_range] at column'
      have filled := foldlM_ok_counted (fun visited adapted =>
          adapted.length = wklInsts.length * size ∧
            (column + 1 = size → visited < wklInsts.length))
        (fun row adapted next rowRange ⟨counted, below⟩ step => ?_)
        ⟨counted, fun _ => by omega⟩ column'
      swap
      · rw [List.enum_length] at filled
        exact ⟨filled.1, by have := filled.2; omega⟩
      rw [List.getElem_enum] at step
      obtain ⟨state, -, step⟩ := bind_eq_ok.mp step
      obtain ⟨throughput, -, step⟩ := bind_eq_ok.mp step
      obtain ⟨written, rfl⟩ := writeAt_eq_ok_iff.mp step
      refine ⟨by rw [List.length_set, counted], fun last => ?_⟩
      have widened : row * (size + 1) ≤ row * cache.vector.length :=
        Nat.mul_le_mul_left row longer
      rw [Nat.mul_succ] at widened
      by_contra notBelow
      have lastRow : (row + 1) * size = wklInsts.length * size := by
        rw [show row + 1 = wklInsts.length by have := below last; omega]
      rw [Nat.succ_mul] at lastRow
      omega

def earlyStopped : MeasuredCache String :=
  ⟨["a", "b"], ["a", "b"], [2]⟩

theorem earlyStopped_overflows :
    earlyStopped.throughputs.length < earlyStopped.vector.length ∧
      adaptedCandidateFlops (failingBuilds 0) earlyStopped [[1], [2]] =
        .error (.outOfRange "adapted_candidate_flops") :=
  ⟨by decide, adaptedCandidateFlops_overflows _ _ _ (by decide) (by decide) (by decide)⟩

end FTuner
