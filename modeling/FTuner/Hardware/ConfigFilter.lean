import FTuner.Hardware.AlignedTile
import Mathlib.Data.List.Dedup
import Mathlib.Algebra.BigOperators.Group.List
import Mathlib.Algebra.Ring.Int.Defs

namespace FTuner

/-! # The capacity filter of one candidate tile

`SketchPolicyNode::ConfigFilter` checks one tuple of tiles against the register capacity (at
the register level) or the shared-memory capacity, thread limit and combined register pressure
(at the shared-memory level, on top of a register-level `base_config`), and pushes the
resulting `HwAlignedConfig`.  `k_threshold` is computed there but read by no live code, so it
is left out.
-/

/-- `SketchPolicyNode::GetComputeIntensiveRatio`.  At the register level `mem_use` becomes
`std::accumulate(space_tiles, 1)`, a sum that starts at 1. -/
def getComputeIntensiveRatio (task : SearchTask) (tensorTypeSize : Int)
    (spaceTiles reduceTiles : List Int) (memLevel memUse : Int) : Except Fault ℚ := do
  let product : Int := reduceTiles.foldl (· * ·) (spaceTiles.foldl (· * ·) 1)
  let memUse := if memLevel = 2 then spaceTiles.foldl (· + ·) 1 else memUse
  let bandwidth ← readAt task.hardwareApi.bandwidth (memLevel - 1).toNat "bandwidth"
  pure (((product : ℚ) * 2 / task.hardwareApi.peakFlops) /
    ((memUse : ℚ) * tensorTypeSize / bandwidth))

/-- `field.resize(num_level)` followed by the writes of `ConfigFilter`, in order. -/
def levelsWith (levels : Nat) (default : α) (writes : List (Nat × α)) (what : String) :
    Except Fault (List α) :=
  writes.foldlM (fun values (index, value) => writeAt values index value what)
    (List.replicate levels default)

/-- `SketchPolicyNode::ConfigFilter`: `pnext` with the config of `spaceTiles`/`reduceTiles`
pushed when it fits the hardware, `pnext` itself otherwise. -/
def configFilter (utils : Utils) (task : SearchTask) (pnext : List HwAlignedConfig)
    (baseConfig : HwAlignedConfig) (extractors : List (List ProducerLoad))
    (spaceTiles reduceTiles : List Int) (memLevel : Int) : Except Fault (List HwAlignedConfig) := do
  let api := task.hardwareApi
  let tensorTypeSize ← task.computeDag.tensorTypeSize
  let (spaceNames, reduceNames) := iterNames task.computeDag.stages
  let levels := api.numLevel.toNat
  if memLevel = 2 then
    let regUse ←
      memFootPrint spaceNames reduceNames extractors spaceTiles reduceTiles memLevel tensorTypeSize
    if regUse > (← readAt api.regCap 1 "reg_cap") then return pnext
    let ratio ← getComputeIntensiveRatio task tensorTypeSize spaceTiles reduceTiles memLevel regUse
    let levelRatio ← levelsWith levels 0 [(1, ratio)] "compute_intensive_ratio"
    let levelSpace ← levelsWith levels [] [(1, spaceTiles)] "space_tiles"
    let levelReduce ← levelsWith levels [] [(1, reduceTiles)] "reduce_tiles"
    let newConfig : HwAlignedConfig :=
      { spaceTiles := levelSpace
        reduceTiles := levelReduce
        computeIntensiveRatio := levelRatio
        singleThreadRegUsage := regUse
        spaceProductionThreshold := 0
        smemUsage := 0
        threadsNum := 0 }
    pure (pnext ++ [newConfig])
  else if memLevel = 1 then
    let smemUse ←
      memFootPrint spaceNames reduceNames extractors spaceTiles reduceTiles memLevel tensorTypeSize
    if smemUse > (← readAt api.smemCap 0 "smem_cap") then return pnext
    let threadsNum := utils.getParallelism spaceTiles
      (← readAt baseConfig.spaceTiles 1 "base_config.space_tiles")
    if threadsNum * baseConfig.singleThreadRegUsage > (← readAt api.regCap 0 "reg_cap") then
      return pnext
    if threadsNum ≥ 1024 then return pnext
    let baseRatio ← readAt baseConfig.computeIntensiveRatio 1 "base_config.compute_intensive_ratio"
    let baseSpace ← readAt baseConfig.spaceTiles 1 "base_config.space_tiles"
    let baseReduce ← readAt baseConfig.reduceTiles 1 "base_config.reduce_tiles"
    let ratio ← getComputeIntensiveRatio task tensorTypeSize spaceTiles reduceTiles memLevel
      (← cDiv smemUse tensorTypeSize)
    let levelRatio ← levelsWith levels 0 [(1, baseRatio), (0, ratio)] "compute_intensive_ratio"
    let levelSpace ← levelsWith levels [] [(1, baseSpace), (0, spaceTiles)] "space_tiles"
    let levelReduce ← levelsWith levels [] [(1, baseReduce), (0, reduceTiles)] "reduce_tiles"
    let partition ← readAt api.computeSmPartition 0 "compute_sm_partition"
    let newConfig : HwAlignedConfig :=
      { spaceTiles := levelSpace
        reduceTiles := levelReduce
        computeIntensiveRatio := levelRatio
        singleThreadRegUsage := baseConfig.singleThreadRegUsage
        spaceProductionThreshold := partition * 2 * spaceTiles.foldl (· * ·) 1
        smemUsage := smemUse
        threadsNum := threadsNum }
    pure (pnext ++ [newConfig])
  else pure pnext

theorem configFilter_append (utils : Utils) (task : SearchTask) (pnext : List HwAlignedConfig)
    (baseConfig : HwAlignedConfig) (extractors : List (List ProducerLoad))
    (spaceTiles reduceTiles : List Int) (memLevel : Int) :
    configFilter utils task pnext baseConfig extractors spaceTiles reduceTiles memLevel =
      (pnext ++ ·) <$>
        configFilter utils task [] baseConfig extractors spaceTiles reduceTiles memLevel := by
  have mapIte : ∀ (c : Prop) [Decidable c] (a b : Except Fault (List HwAlignedConfig)),
      (pnext ++ ·) <$> (if c then a else b) =
        if c then (pnext ++ ·) <$> a else (pnext ++ ·) <$> b :=
    fun _ _ _ _ => by split <;> rfl
  unfold configFilter
  simp only [map_bind, mapIte, map_pure, List.append_nil, List.nil_append]

theorem configFilter_ok_append {utils : Utils} {task : SearchTask}
    {pnext next : List HwAlignedConfig} {baseConfig : HwAlignedConfig}
    {extractors : List (List ProducerLoad)} {spaceTiles reduceTiles : List Int} {memLevel : Int}
    (ran : configFilter utils task pnext baseConfig extractors spaceTiles reduceTiles memLevel =
      .ok next) :
    ∃ pushed, configFilter utils task [] baseConfig extractors spaceTiles reduceTiles memLevel =
      .ok pushed ∧ next = pnext ++ pushed := by
  rw [configFilter_append] at ran
  cases pushed : configFilter utils task [] baseConfig extractors spaceTiles reduceTiles memLevel with
  | error fault => rw [pushed] at ran; cases ran
  | ok pushed' => rw [pushed, map_ok, Except.ok.injEq] at ran; exact ⟨pushed', rfl, ran.symm⟩

/-! ## Footprints

`MemFootPrint` at the shared-memory level is the element size times the sum, over the distinct
producers the reduction body loads, of the product of the tiles of the first load's indices;
at the register level every extractor overwrites it with the product of the space tiles, so it
is that product as soon as the body has one expression, and 0 when it has none.
-/

/-- The tile of the dimension a load index names (the first dimension of that name), or 1 for an
index that names none. -/
def indexTile (names : List String) (tiles : List Int) : IndexExpr → Int
  | .var name => ((names.findIdx? (· == name)).bind fun position => tiles[position]?).getD 1
  | .other => 1

/-- The product, over a load's indices, of their space and reduction tiles. -/
def loadFootprint (spaceNames reduceNames : List String) (spaceTiles reduceTiles : List Int)
    (load : ProducerLoad) : Int :=
  (load.indices.map fun index =>
    indexTile spaceNames spaceTiles index * indexTile reduceNames reduceTiles index).prod

/-- The footprint of the first load of `producer` among `loads`. -/
def firstFootprint (spaceNames reduceNames : List String) (spaceTiles reduceTiles : List Int)
    (loads : List ProducerLoad) (producer : String) : Int :=
  ((loads.find? (·.producer == producer)).map
    (loadFootprint spaceNames reduceNames spaceTiles reduceTiles)).getD 0

/-- The sum of the first footprints of the distinct producers the loads read. -/
def footprint (spaceNames reduceNames : List String) (spaceTiles reduceTiles : List Int)
    (loads : List ProducerLoad) : Int :=
  ((loads.map (·.producer)).dedup.map
    (firstFootprint spaceNames reduceNames spaceTiles reduceTiles loads)).sum

theorem scaleByName_ok {names : List String} {tiles : List Int} {index : IndexExpr}
    {use scaled : Int} {what : String}
    (scaledOk : scaleByName names tiles index use what = .ok scaled) :
    scaled = use * indexTile names tiles index := by
  unfold scaleByName at scaledOk
  split_ifs at scaledOk with empty
  · cases scaledOk
    cases index <;> simp [indexTile, List.isEmpty_iff.mp empty]
  · cases index with
    | other => cases scaledOk
    | var name =>
      cases looked : names.findIdx? (· == name) with
      | none =>
        simp only [looked] at scaledOk
        cases scaledOk
        simp [indexTile, looked]
      | some position =>
        simp only [looked] at scaledOk
        obtain ⟨tile, read, scaledOk⟩ := bind_eq_ok.mp scaledOk
        cases scaledOk
        simp [indexTile, looked, readAt_eq_ok_iff.mp read]

theorem foldlM_scale {step : Int → IndexExpr → Except Fault Int} {factor : IndexExpr → Int}
    (scales : ∀ use index scaled, step use index = .ok scaled → scaled = use * factor index) :
    ∀ {indices : List IndexExpr} {init result : Int}, indices.foldlM step init = .ok result →
      result = init * (indices.map factor).prod
  | [], _, _, ran => by cases ran; simp
  | _ :: _, _, _, ran => by
      obtain ⟨scaled, scaledOk, ran⟩ := bind_eq_ok.mp ran
      rw [foldlM_scale scales ran, scales _ _ _ scaledOk, List.map_cons, List.prod_cons,
        Int.mul_assoc]

section Visited

variable {spaceNames reduceNames : List String} {spaceTiles reduceTiles : List Int}
  {done : List ProducerLoad} {load : ProducerLoad}

theorem firstFootprint_append {producer : String} (earlier : producer ∈ done.map (·.producer)) :
    firstFootprint spaceNames reduceNames spaceTiles reduceTiles (done ++ [load]) producer =
      firstFootprint spaceNames reduceNames spaceTiles reduceTiles done producer := by
  obtain ⟨first, mem, rfl⟩ := List.exists_of_mem_map earlier
  unfold firstFootprint
  rw [List.find?_append]
  cases found : done.find? (·.producer == first.producer) with
  | none => exact absurd (by simp) (List.find?_eq_none.mp found first mem)
  | some _ => rfl

theorem firstFootprint_new (fresh : load.producer ∉ done.map (·.producer)) :
    firstFootprint spaceNames reduceNames spaceTiles reduceTiles (done ++ [load]) load.producer =
      loadFootprint spaceNames reduceNames spaceTiles reduceTiles load := by
  have missing : done.find? (·.producer == load.producer) = none :=
    List.find?_eq_none.mpr fun other mem same =>
      fresh (List.mem_map.mpr ⟨other, mem, beq_iff_eq.mp same⟩)
  simp [firstFootprint, List.find?_append, missing]

/-- After the loads `done`, `visited_producer` holds each of their producers once and `reg_use`
the sum of their first footprints. -/
def Visited (spaceNames reduceNames : List String) (spaceTiles reduceTiles : List Int)
    (done : List ProducerLoad) (state : List String × Int) : Prop :=
  state.1.Nodup ∧ (∀ producer, producer ∈ state.1 ↔ producer ∈ done.map (·.producer)) ∧
    state.2 = (state.1.map (firstFootprint spaceNames reduceNames spaceTiles reduceTiles done)).sum

variable (load) in
theorem Visited.visit {visited : List String} {regUse : Int}
    (visit : Visited spaceNames reduceNames spaceTiles reduceTiles done (visited, regUse)) :
    Visited spaceNames reduceNames spaceTiles reduceTiles (done ++ [load])
      (if visited.contains load.producer then (visited, regUse)
        else (visited ++ [load.producer],
          regUse + loadFootprint spaceNames reduceNames spaceTiles reduceTiles load)) := by
  obtain ⟨nodup, members, summed⟩ := visit
  dsimp only at nodup members summed
  have kept : visited.map
      (firstFootprint spaceNames reduceNames spaceTiles reduceTiles (done ++ [load])) =
        visited.map (firstFootprint spaceNames reduceNames spaceTiles reduceTiles done) :=
    List.map_congr_left fun producer mem => firstFootprint_append ((members producer).mp mem)
  split_ifs with seen
  · have seen : load.producer ∈ visited := List.elem_iff.mp seen
    refine ⟨nodup, fun producer => ?_, by rw [kept]; exact summed⟩
    simp only [List.map_append, List.map_singleton, List.mem_append, List.mem_singleton,
      ← members]
    exact ⟨.inl, fun | .inl mem => mem | .inr same => same ▸ seen⟩
  · have fresh : load.producer ∉ done.map (·.producer) :=
      fun mem => seen (List.elem_iff.mpr ((members _).mpr mem))
    refine ⟨nodup.append (List.nodup_singleton _) (List.disjoint_singleton.mpr
      fun mem => fresh ((members _).mp mem)), fun producer => ?_, ?_⟩
    · simp only [List.map_append, List.map_singleton, List.mem_append, List.mem_singleton,
        members]
    · simp only [List.map_append, List.map_singleton, List.sum_append, List.sum_singleton, kept,
        firstFootprint_new fresh, summed]

end Visited

theorem memFootPrint_shared {spaceNames reduceNames : List String}
    {extractors : List (List ProducerLoad)} {spaceTiles reduceTiles : List Int}
    {tensorTypeSize use : Int}
    (ran : memFootPrint spaceNames reduceNames extractors spaceTiles reduceTiles 1
      tensorTypeSize = .ok use) :
    use = footprint spaceNames reduceNames spaceTiles reduceTiles extractors.flatten *
      tensorTypeSize := by
  obtain ⟨⟨visited, regUse⟩, folded, ran⟩ := bind_eq_ok.mp ran
  cases ran
  have visitedAll := foldlM_ok_visited
    (fun done state => Visited spaceNames reduceNames spaceTiles reduceTiles done.flatten state)
    (fun done state extractor next visit stepped => by
      obtain ⟨⟨visited, regUse⟩, inner, stepped⟩ := bind_eq_ok.mp stepped
      cases stepped
      simp only [show (1 : Int) ≠ 2 by decide, if_false, List.flatten_append,
        List.flatten_singleton]
      refine foldlM_ok_prefix (Visited spaceNames reduceNames spaceTiles reduceTiles)
        (fun done ⟨visited, regUse⟩ load next visit stepped => ?_) visit inner
      have visited := visit.visit load
      dsimp only at stepped
      split_ifs at stepped visited with seen
      · cases stepped
        exact visited
      · obtain ⟨scaled, scaledOk, stepped⟩ := bind_eq_ok.mp stepped
        cases stepped
        rw [foldlM_scale (fun use index scaled computed => by
          obtain ⟨spaced, spacedOk, computed⟩ := bind_eq_ok.mp computed
          rw [scaleByName_ok computed, scaleByName_ok spacedOk, Int.mul_assoc]) scaledOk,
          Int.one_mul]
        exact visited)
    ⟨List.nodup_nil, by simp, rfl⟩ folded
  obtain ⟨nodup, members, summed⟩ := visitedAll
  dsimp only at nodup members summed
  rw [if_pos rfl, summed, footprint]
  congr 1
  exact (((List.perm_ext_iff_of_nodup nodup (List.nodup_dedup _)).mpr fun producer => by
    rw [members, List.mem_dedup]).map _).sum_eq

theorem memFootPrint_register {spaceNames reduceNames : List String}
    {extractors : List (List ProducerLoad)} {spaceTiles reduceTiles : List Int}
    {tensorTypeSize use : Int}
    (ran : memFootPrint spaceNames reduceNames extractors spaceTiles reduceTiles 2
      tensorTypeSize = .ok use) :
    use = if extractors = [] then 0 else spaceTiles.prod := by
  obtain ⟨⟨visited, regUse⟩, folded, ran⟩ := bind_eq_ok.mp ran
  cases ran
  have overwritten := foldlM_ok_visited
    (fun done (state : List String × Int) => state.2 = if done = [] then 0 else spaceTiles.prod)
    (fun done state extractor next _ stepped => by
      obtain ⟨⟨visited, regUse⟩, -, stepped⟩ := bind_eq_ok.mp stepped
      cases stepped
      simp [List.prod_eq_foldl])
    rfl folded
  simpa using overwritten

@[simp] theorem levelsWith_register (default value : α) (what : String) :
    levelsWith (Int.toNat 2) default [(1, value)] what = .ok [default, value] := rfl

@[simp] theorem levelsWith_shared (default register shared : α) (what : String) :
    levelsWith (Int.toNat 2) default [(1, register), (0, shared)] what =
      .ok [shared, register] := rfl

section Pushed

variable {utils : Utils} {task : SearchTask} {baseConfig : HwAlignedConfig}
  {extractors : List (List ProducerLoad)} {spaceTile reduceTile : List Int}
  {out : List HwAlignedConfig}

theorem configFilter_register_pushed (levels : task.hardwareApi.numLevel = 2)
    (pushed : configFilter utils task [] baseConfig extractors spaceTile reduceTile 2 = .ok out) :
    ∀ config ∈ out, ∃ tensorTypeSize regUse cap,
      task.computeDag.tensorTypeSize = .ok tensorTypeSize ∧
      memFootPrint (iterNames task.computeDag.stages).1 (iterNames task.computeDag.stages).2
        extractors spaceTile reduceTile 2 tensorTypeSize = .ok regUse ∧
      task.hardwareApi.regCap[1]? = some cap ∧ regUse ≤ cap ∧
      config.singleThreadRegUsage = regUse ∧ config.spaceTiles = [[], spaceTile] ∧
      config.reduceTiles = [[], reduceTile] ∧ ∃ ratio, config.computeIntensiveRatio = [0, ratio] := by
  intro config mem
  obtain ⟨tensorTypeSize, elementSize, pushed⟩ := bind_eq_ok.mp pushed
  obtain ⟨regUse, used, pushed⟩ := bind_eq_ok.mp pushed
  obtain ⟨cap, capRead, pushed⟩ := bind_eq_ok.mp pushed
  split_ifs at pushed with over
  · cases pushed
    cases mem
  · simp only [levels, levelsWith_register, pure_eq_ok, ok_bind] at pushed
    obtain ⟨ratio, -, pushed⟩ := bind_eq_ok.mp pushed
    cases pushed
    rw [List.nil_append, List.mem_singleton] at mem
    subst mem
    exact ⟨tensorTypeSize, regUse, cap, elementSize, used, readAt_eq_ok_iff.mp capRead,
      Int.not_lt.mp over, rfl, rfl, rfl, _, rfl⟩

theorem configFilter_shared_pushed (levels : task.hardwareApi.numLevel = 2)
    (pushed : configFilter utils task [] baseConfig extractors spaceTile reduceTile 1 = .ok out) :
    ∀ config ∈ out, ∃ tensorTypeSize smemUse registerSpace registerReduce,
      task.computeDag.tensorTypeSize = .ok tensorTypeSize ∧
      memFootPrint (iterNames task.computeDag.stages).1 (iterNames task.computeDag.stages).2
        extractors spaceTile reduceTile 1 tensorTypeSize = .ok smemUse ∧
      baseConfig.spaceTiles[1]? = some registerSpace ∧
      baseConfig.reduceTiles[1]? = some registerReduce ∧
      (∃ cap, task.hardwareApi.smemCap[0]? = some cap ∧ smemUse ≤ cap) ∧
      (∃ cap, task.hardwareApi.regCap[0]? = some cap ∧
        utils.getParallelism spaceTile registerSpace * baseConfig.singleThreadRegUsage ≤ cap) ∧
      utils.getParallelism spaceTile registerSpace < 1024 ∧
      config.smemUsage = smemUse ∧
      config.threadsNum = utils.getParallelism spaceTile registerSpace ∧
      config.singleThreadRegUsage = baseConfig.singleThreadRegUsage ∧
      config.spaceTiles = [spaceTile, registerSpace] ∧
      config.reduceTiles = [reduceTile, registerReduce] := by
  intro config mem
  obtain ⟨tensorTypeSize, elementSize, pushed⟩ := bind_eq_ok.mp pushed
  simp only [show (1 : Int) ≠ 2 by decide, if_false, if_true] at pushed
  obtain ⟨smemUse, used, pushed⟩ := bind_eq_ok.mp pushed
  obtain ⟨smemCap, smemRead, pushed⟩ := bind_eq_ok.mp pushed
  split_ifs at pushed with overSmem
  · cases pushed
    cases mem
  obtain ⟨-, -, pushed⟩ := bind_eq_ok.mp pushed
  obtain ⟨registerSpace, spaceRead, pushed⟩ := bind_eq_ok.mp pushed
  obtain ⟨regCap, regRead, pushed⟩ := bind_eq_ok.mp pushed
  split_ifs at pushed with overRegs crowded
  · cases pushed
    cases mem
  · cases pushed
    cases mem
  obtain ⟨_, _, pushed⟩ := bind_eq_ok.mp pushed
  obtain ⟨_, _, pushed⟩ := bind_eq_ok.mp pushed
  obtain ⟨_, _, pushed⟩ := bind_eq_ok.mp pushed
  obtain ⟨baseSpace, baseSpaceRead, pushed⟩ := bind_eq_ok.mp pushed
  obtain ⟨registerReduce, reduceRead, pushed⟩ := bind_eq_ok.mp pushed
  obtain ⟨_, _, pushed⟩ := bind_eq_ok.mp pushed
  obtain ⟨_, _, pushed⟩ := bind_eq_ok.mp pushed
  rw [spaceRead, Except.ok.injEq] at baseSpaceRead
  subst baseSpaceRead
  simp only [levels, levelsWith_shared, ok_bind] at pushed
  obtain ⟨_, _, pushed⟩ := bind_eq_ok.mp pushed
  cases pushed
  rw [List.nil_append, List.mem_singleton] at mem
  subst mem
  exact ⟨tensorTypeSize, smemUse, registerSpace, registerReduce, elementSize, used,
    readAt_eq_ok_iff.mp spaceRead, readAt_eq_ok_iff.mp reduceRead,
    ⟨smemCap, readAt_eq_ok_iff.mp smemRead, Int.not_lt.mp overSmem⟩,
    ⟨regCap, readAt_eq_ok_iff.mp regRead, Int.not_lt.mp overRegs⟩, Int.not_le.mp crowded,
    rfl, rfl, rfl, rfl, rfl⟩

end Pushed

end FTuner
