import FTuner.Hardware.Emitted

namespace FTuner

/-! # When `EmitConfig` returns

Every loop of the model is bounded by `fuel`, so `EmitConfig` returns when, from some fuel on,
every fuel gives the same configs (`Settles`).  On a two-level descriptor whose transactions hold
at least one element and whose threads hold at least one register, with one reduction stage
whose loads index by iterators and whose iterators all have extents of at least 1, it does
(`emitConfig_settles`); with a transaction narrower than an element it never returns
(`matmulNarrowTransactions_never_settles`).
-/

/-- `run fuel` returns `result` for every fuel from some bound on. -/
def Settles (run : Nat → Except Fault α) (result : α) : Prop :=
  ∃ bound, ∀ fuel, bound ≤ fuel → run fuel = .ok result

theorem Settles.of_ok {run : Nat → Except Fault α} {result : α}
    (ran : ∀ fuel, run fuel = .ok result) : Settles run result :=
  ⟨0, fun fuel _ => ran fuel⟩

theorem Settles.bind {run : Nat → Except Fault α} {next : Nat → α → Except Fault β} {value : α}
    {result : β} (first : Settles run value) (second : Settles (next · value) result) :
    Settles (fun fuel => run fuel >>= next fuel) result := by
  obtain ⟨bound, settled⟩ := first
  obtain ⟨bound', settled'⟩ := second
  refine ⟨max bound bound', fun fuel enough => ?_⟩
  show run fuel >>= next fuel = _
  rw [settled fuel (le_of_max_le_left enough), ok_bind]
  exact settled' fuel (le_of_max_le_right enough)

theorem settles_foldlM {step : Nat → β → α → Except Fault β} :
    ∀ {values : List α}, (∀ acc, ∀ value ∈ values, ∃ next, Settles (step · acc value) next) →
      ∀ init, ∃ result, Settles (fun fuel => values.foldlM (step fuel) init) result
  | [], _, init => ⟨init, .of_ok fun _ => rfl⟩
  | value :: values, settles, init => by
      obtain ⟨next, first⟩ := settles init value (List.mem_cons_self _ _)
      obtain ⟨result, rest⟩ := settles_foldlM
        (fun acc other mem => settles acc other (List.mem_cons_of_mem _ mem)) next
      exact ⟨result, by simpa only [List.foldlM_cons] using first.bind rest⟩

theorem settles_mapM {step : Nat → α → Except Fault β} :
    ∀ {values : List α}, (∀ value ∈ values, ∃ result, Settles (step · value) result) →
      ∃ results, Settles (fun fuel => values.mapM (step fuel)) results
  | [], _ => ⟨[], .of_ok fun _ => rfl⟩
  | value :: values, settles => by
      obtain ⟨first, bound, firstSettles⟩ := settles value (List.mem_cons_self _ _)
      obtain ⟨rest, bound', restSettles⟩ :=
        settles_mapM fun other mem => settles other (List.mem_cons_of_mem _ mem)
      refine ⟨first :: rest, max bound bound', fun fuel enough => ?_⟩
      have firstRan : step fuel value = .ok first := firstSettles fuel (le_of_max_le_left enough)
      have restRan : values.mapM (step fuel) = .ok rest :=
        restSettles fuel (le_of_max_le_right enough)
      simp only [List.mapM_cons, firstRan, restRan, ok_bind]
      rfl

theorem exists_settles_bind {run : Nat → Except Fault α} {next : Nat → α → Except Fault β}
    (first : ∃ value, Settles run value)
    (second : ∀ value, ∃ result, Settles (next · value) result) :
    ∃ result, Settles (fun fuel => run fuel >>= next fuel) result := by
  obtain ⟨value, first⟩ := first
  obtain ⟨result, second⟩ := second value
  exact ⟨result, first.bind second⟩

theorem exists_settles_ok_bind {x : Except Fault α} {next : Nat → α → Except Fault β}
    (first : ∃ value, x = .ok value)
    (second : ∀ value, x = .ok value → ∃ result, Settles (next · value) result) :
    ∃ result, Settles (fun fuel => x >>= next fuel) result := by
  obtain ⟨value, ran⟩ := first
  obtain ⟨result, settled⟩ := second value ran
  exact ⟨result, by simpa only [ran, ok_bind] using settled⟩

theorem alignReduceLoop_turns {step : Int} (positive : 0 < step) (cap : Int) :
    ∀ (turns : Nat) (dim : Int) (tiles : List Int), (cap + 1 - dim).toNat ≤ turns →
      ∃ result, ∀ fuel, turns < fuel → alignReduceLoop fuel step cap dim tiles = .ok result
  | 0, dim, tiles, bounded => ⟨(dim, tiles), fun
      | fuel + 1, _ => by rw [alignReduceLoop, if_neg (by omega)]⟩
  | turns + 1, dim, tiles, bounded => by
      by_cases below : dim ≤ cap
      · obtain ⟨result, settled⟩ :=
          alignReduceLoop_turns positive cap turns (dim + step) (tiles ++ [dim]) (by omega)
        exact ⟨result, fun
          | fuel + 1, enough => by rw [alignReduceLoop, if_pos below, settled fuel (by omega)]⟩
      · exact ⟨(dim, tiles), fun
          | fuel + 1, _ => by rw [alignReduceLoop, if_neg below]⟩

theorem alignReduceLoop_settles {step : Int} (positive : 0 < step) (cap dim : Int)
    (tiles : List Int) : ∃ result, Settles (alignReduceLoop · step cap dim tiles) result :=
  let ⟨result, settled⟩ := alignReduceLoop_turns positive cap _ dim tiles le_rfl
  ⟨result, _, settled⟩

theorem stdGcd_ne_zero (m : Int) {n : Int} (nonzero : n ≠ 0) : stdGcd m n ≠ 0 :=
  fun zero => nonzero (zero_dvd_iff.mp (zero ▸ (stdGcd_dvd m n).2))

theorem cDiv_of_ne_zero (numerator : Int) {denominator : Int} (nonzero : denominator ≠ 0) :
    cDiv numerator denominator = .ok (numerator.tdiv denominator) := by
  rw [cDiv, if_neg nonzero]

theorem reduceSmemTile_settles {transactionNum : Int} (positive : 0 < transactionNum)
    (rbase : Int) (extents : List Int) :
    ∃ tiles, Settles (reduceSmemTile · transactionNum rbase extents) tiles := by
  simp only [reduceSmemTile, cDiv_of_ne_zero _ (stdGcd_ne_zero rbase positive.ne'), ok_bind]
  refine exists_settles_bind (settles_foldlM (fun loop extent _ => ?_) _)
    fun _ => ⟨_, .of_ok fun _ => rfl⟩
  exact exists_settles_bind (alignReduceLoop_settles positive _ _ _)
    fun _ => ⟨_, .of_ok fun _ => rfl⟩

theorem scaleByName_var_ok {names : List String} {tiles : List Int}
    (sized : tiles.length = names.length) (name : String) (use : Int) (what : String) :
    ∃ scaled, scaleByName names tiles (.var name) use what = .ok scaled := by
  unfold scaleByName
  split_ifs
  · exact ⟨_, rfl⟩
  dsimp only
  split
  · rename_i position found
    have inRange : position < tiles.length :=
      sized ▸ (List.findIdx?_eq_some_iff_findIdx_eq.mp found).1
    exact ⟨_, by simp only [readAt, List.getElem?_eq_getElem inRange, ok_bind]; rfl⟩
  · exact ⟨_, rfl⟩

theorem memFootPrint_ok {spaceNames reduceNames : List String}
    {extractors : List (List ProducerLoad)} {spaceTiles reduceTiles : List Int}
    (spaceSized : spaceTiles.length = spaceNames.length)
    (reduceSized : reduceTiles.length = reduceNames.length)
    (named : ∀ load ∈ extractors.flatten, ∀ index ∈ load.indices, ∃ name, index = .var name)
    (memLevel tensorTypeSize : Int) :
    ∃ use, memFootPrint spaceNames reduceNames extractors spaceTiles reduceTiles memLevel
      tensorTypeSize = .ok use := by
  refine exists_ok_bind (foldlM_ok_of_forall (fun _ extractor extractorMem =>
    exists_ok_bind (foldlM_ok_of_forall (fun ⟨visited, regUse⟩ load loadMem => ?_) _)
      fun _ _ => ⟨_, rfl⟩) _) fun _ _ => ⟨_, rfl⟩
  dsimp only
  split
  · exact ⟨_, rfl⟩
  refine exists_ok_bind (foldlM_ok_of_forall (fun use index indexMem => ?_) _) fun _ _ => ⟨_, rfl⟩
  obtain ⟨name, rfl⟩ := named load (List.mem_flatten.mpr ⟨extractor, extractorMem, loadMem⟩) index
    indexMem
  exact exists_ok_bind (scaleByName_var_ok spaceSized name use _)
    fun scaled _ => scaleByName_var_ok reduceSized name scaled _

theorem needAlignSpaceIdx_ok {spaceNames : List String} {extractors : List (List ProducerLoad)}
    (innermost : ∀ load ∈ extractors.flatten, ∃ name, load.indices.getLast? = some (.var name)) :
    ∃ aligned, needAlignSpaceIdx spaceNames extractors = .ok aligned := by
  refine foldlM_ok_of_forall (fun aligned load mem => ?_) _
  obtain ⟨name, last⟩ := innermost load mem
  rw [List.getLast?_eq_getElem?] at last
  split_ifs
  · exact ⟨_, rfl⟩
  · simp only [readAt, last, ok_bind]
    split <;> exact ⟨_, rfl⟩

section Candidate

variable {utils : Utils} {task : SearchTask} {extractors : List (List ProducerLoad)} {bytes : Int}
  (levels : task.hardwareApi.numLevel = 2) (elementSize : task.computeDag.tensorTypeSize = .ok bytes)
include levels elementSize

theorem configFilter_register_ok {spaceTile reduceTile : List Int} {regUse cap bandwidth : Int}
    (footprint : memFootPrint (iterNames task.computeDag.stages).1
      (iterNames task.computeDag.stages).2 extractors spaceTile reduceTile 2 bytes = .ok regUse)
    (capRead : task.hardwareApi.regCap[1]? = some cap)
    (bandwidthRead : task.hardwareApi.bandwidth[1]? = some bandwidth)
    (pnext : List HwAlignedConfig) (base : HwAlignedConfig) :
    ∃ out, configFilter utils task pnext base extractors spaceTile reduceTile 2 = .ok out ∧
      (regUse ≤ cap → out.length = pnext.length + 1) := by
  have registerLevel : ((2 : Int) - 1).toNat = 1 := rfl
  simp only [configFilter, elementSize, ok_bind, footprint, readAt, capRead, levels, if_true,
    getComputeIntensiveRatio, registerLevel, bandwidthRead, levelsWith_register, pure_bind]
  split
  · exact ⟨_, rfl, fun within => absurd within (by omega)⟩
  · exact ⟨_, rfl, fun _ => List.length_append _ _⟩

theorem configFilter_shared_ok {spaceTile reduceTile registerSpace registerReduce : List Int}
    {smemUse smemCap regCap partition bandwidth : Int} {ratio : ℚ} {base : HwAlignedConfig}
    (nonzero : bytes ≠ 0)
    (footprint : memFootPrint (iterNames task.computeDag.stages).1
      (iterNames task.computeDag.stages).2 extractors spaceTile reduceTile 1 bytes = .ok smemUse)
    (smemRead : task.hardwareApi.smemCap[0]? = some smemCap)
    (regRead : task.hardwareApi.regCap[0]? = some regCap)
    (bandwidthRead : task.hardwareApi.bandwidth[0]? = some bandwidth)
    (partitionRead : task.hardwareApi.computeSmPartition[0]? = some partition)
    (spaceRead : base.spaceTiles[1]? = some registerSpace)
    (reduceRead : base.reduceTiles[1]? = some registerReduce)
    (ratioRead : base.computeIntensiveRatio[1]? = some ratio) (pnext : List HwAlignedConfig) :
    ∃ out, configFilter utils task pnext base extractors spaceTile reduceTile 1 = .ok out := by
  have sharedLevel : ((1 : Int) - 1).toNat = 0 := rfl
  simp only [configFilter, elementSize, ok_bind, footprint, readAt, smemRead, regRead, spaceRead,
    reduceRead, ratioRead, partitionRead, levels, show (1 : Int) ≠ 2 by decide, if_false, if_true,
    getComputeIntensiveRatio, sharedLevel, bandwidthRead, levelsWith_shared, pure_bind,
    cDiv_of_ne_zero _ nonzero]
  split_ifs <;> exact ⟨_, rfl⟩

end Candidate

/-- The sizes `GetAlignedTile` gives the extent tables. -/
def ExtentTable.Sized (table : ExtentTable) (spaceDims reduceDims : Nat) : Prop :=
  table.spaceMax.length = spaceDims ∧ table.space.length = spaceDims ∧
    table.reduceMax.length = reduceDims ∧ table.reduce.length = reduceDims

theorem recordExtent_of_lt {maxima : List Int} {all : List (List Int)} {index : Nat}
    (inMaxima : index < maxima.length) (inAll : index < all.length) (extent : Int)
    (what : String) :
    ∃ maxima' all', recordExtent maxima all index extent what = .ok (maxima', all') ∧
      maxima'.length = maxima.length ∧ all'.length = all.length ∧
      (∀ d, maxima.getD d 0 ≤ maxima'.getD d 0) ∧ extent ≤ maxima'.getD index 0 := by
  simp only [recordExtent, readAt, List.getElem?_eq_getElem inMaxima, List.getElem?_eq_getElem inAll,
    ok_bind, writeAt, if_pos inMaxima, if_pos inAll]
  split_ifs with raised
  · refine ⟨_, _, rfl, List.length_set _ _ _, List.length_set _ _ _, fun d => ?_, ?_⟩
    · simp only [List.getD_eq_getElem?_getD, List.getElem?_set]
      split_ifs with same
      · subst same
        simp only [List.getElem?_eq_getElem inMaxima, Option.getD_some]
        exact raised.le
      · exact le_rfl
    · simp [List.getD_eq_getElem?_getD, List.getElem?_set, inMaxima]
  · refine ⟨_, _, rfl, rfl, List.length_set _ _ _, fun _ => le_rfl, ?_⟩
    simp only [List.getD_eq_getElem?_getD, List.getElem?_eq_getElem inMaxima, Option.getD_some]
    exact not_lt.mp raised

theorem recordIterators_ok {binding : List (String × Int)} :
    ∀ {iters : List Iterator} {table : ExtentTable} {spaceIdx reduceIdx : Nat},
      (∀ iter ∈ iters, ∃ extent, iter.extent.eval binding = .ok extent ∧ 1 ≤ extent) →
      spaceIdx + (iters.filter (·.kind == .spatial)).length = table.spaceMax.length →
      table.space.length = table.spaceMax.length →
      reduceIdx + (iters.filter (·.kind != .spatial)).length ≤ table.reduceMax.length →
      table.reduce.length = table.reduceMax.length →
      ∃ cursor, iters.foldlM (recordIterator binding) (table, spaceIdx, reduceIdx) = .ok cursor ∧
        cursor.1.Sized table.spaceMax.length table.reduceMax.length ∧
        (∀ d, table.spaceMax.getD d 0 ≤ cursor.1.spaceMax.getD d 0) ∧
        ∀ d, spaceIdx ≤ d → d < table.spaceMax.length → 1 ≤ cursor.1.spaceMax.getD d 0
  | [], _, _, _, _, spaceCount, spaceSized, _, reduceSized =>
      ⟨_, rfl, ⟨rfl, spaceSized, rfl, reduceSized⟩, fun _ => le_rfl,
        fun _ low high => absurd spaceCount (by simp; omega)⟩
  | iter :: iters, table, spaceIdx, reduceIdx, evaluated, spaceCount, spaceSized, reduceCount,
      reduceSized => by
      obtain ⟨extent, evaluates, positive⟩ := evaluated iter (List.mem_cons_self _ _)
      have later := fun other mem => evaluated other (List.mem_cons_of_mem _ mem)
      by_cases spatial : iter.kind = .spatial
      · simp only [List.filter_cons, spatial, beq_self_eq_true, bne_self_eq_false, if_true,
          Bool.false_eq_true, if_false, List.length_cons] at spaceCount reduceCount
        obtain ⟨maxima, all, recorded, maximaLength, allLength, raised, atLeast⟩ :=
          recordExtent_of_lt (show spaceIdx < table.spaceMax.length by omega)
            (show spaceIdx < table.space.length by omega) extent "space_max_extent"
        have stepped : recordIterator binding (table, spaceIdx, reduceIdx) iter =
            .ok ({ table with spaceMax := maxima, space := all }, spaceIdx + 1, reduceIdx) := by
          simp [recordIterator, evaluates, spatial, recorded]
        obtain ⟨cursor, ran, sized, grown, filled⟩ :=
          @recordIterators_ok binding iters { table with spaceMax := maxima, space := all }
            (spaceIdx + 1) reduceIdx later (by dsimp only; omega) (by dsimp only; omega)
            reduceCount reduceSized
        refine ⟨cursor, by rw [List.foldlM_cons, stepped, ok_bind]; exact ran,
          maximaLength ▸ sized, fun d => (raised d).trans (grown d), fun d low high => ?_⟩
        rcases Nat.eq_or_lt_of_le low with rfl | above
        · exact (positive.trans atLeast).trans (grown _)
        · exact filled d above (maximaLength ▸ high)
      · simp only [List.filter_cons, beq_iff_eq, spatial, if_false, bne_iff_ne, ne_eq,
          not_false_eq_true, if_true, List.length_cons] at spaceCount reduceCount
        obtain ⟨maxima, all, recorded, maximaLength, allLength, -⟩ :=
          recordExtent_of_lt (show reduceIdx < table.reduceMax.length by omega)
            (show reduceIdx < table.reduce.length by omega) extent "reduce_max_extent"
        have stepped : recordIterator binding (table, spaceIdx, reduceIdx) iter =
            .ok ({ table with reduceMax := maxima, reduce := all }, spaceIdx, reduceIdx + 1) := by
          simp [recordIterator, evaluates, spatial, recorded]
        obtain ⟨cursor, ran, sized, grown, filled⟩ :=
          @recordIterators_ok binding iters { table with reduceMax := maxima, reduce := all }
            spaceIdx (reduceIdx + 1) later spaceCount spaceSized (by dsimp only; omega)
            (by dsimp only; omega)
        exact ⟨cursor, by rw [List.foldlM_cons, stepped, ok_bind]; exact ran,
          maximaLength ▸ sized, grown, filled⟩

section Stage

variable {stage : Stage}

theorem Stage.spaceNames_length (stage : Stage) :
    stage.spaceNames.length = (stage.iters.filter (·.kind == .spatial)).length := by
  simp [Stage.spaceNames]

theorem Stage.reduceNames_length
    (kinds : ∀ iter ∈ stage.iters, iter.kind = .spatial ∨ iter.kind = .reduction) :
    stage.reduceNames.length = (stage.iters.filter (·.kind != .spatial)).length := by
  simp only [Stage.reduceNames, List.length_map]
  congr 1
  exact List.filter_congr fun iter mem => by rcases kinds iter mem with kind | kind <;> simp [kind]

theorem Stage.reduceNames_eq_nil (spatialOnly : stage.hasReduceIter = false) :
    stage.reduceNames = [] := by
  simp only [Stage.hasReduceIter, List.any_eq_false, bne_iff_ne, ne_eq, not_not] at spatialOnly
  simp only [Stage.reduceNames, List.map_eq_nil_iff, List.filter_eq_nil_iff, beq_iff_eq]
  exact fun iter mem => by simp [spatialOnly iter mem]

theorem iterNamesFrom_of_only (reduces : stage.reduceNames ≠ []) :
    ∀ {stages : List Stage} (names : List String × List String),
      stages.filter Stage.hasReduceIter = [stage] →
        iterNamesFrom names stages = (stage.spaceNames, stage.reduceNames)
  | [], _, only => by simp at only
  | first :: rest, names, only => by
      by_cases reducing : first.hasReduceIter
      · rw [List.filter_cons, if_pos reducing] at only
        obtain ⟨rfl, -⟩ := List.cons.inj only
        simp [iterNamesFrom, List.isEmpty_iff, reduces]
      · rw [List.filter_cons, if_neg reducing] at only
        rw [iterNamesFrom, if_pos (List.isEmpty_iff.mpr
          (Stage.reduceNames_eq_nil (Bool.eq_false_iff.mpr reducing)))]
        exact iterNamesFrom_of_only reduces _ only

theorem exprExtractor_of_only :
    ∀ {stages : List Stage}, stages.filter Stage.hasReduceIter = [stage] →
      exprExtractor stages = stage.body.mapM BodyExpr.extract
  | [], only => by simp at only
  | first :: rest, only => by
      by_cases reducing : first.hasReduceIter
      · rw [List.filter_cons, if_pos reducing] at only
        obtain ⟨rfl, -⟩ := List.cons.inj only
        rw [exprExtractor, if_pos reducing]
      · rw [List.filter_cons, if_neg reducing] at only
        rw [exprExtractor, if_neg reducing]
        exact exprExtractor_of_only only

variable (kinds : ∀ iter ∈ stage.iters, iter.kind = .spatial ∨ iter.kind = .reduction)
include kinds

theorem recordInstance_ok {shapeVars : List String} {stages : List Stage} {table : ExtentTable}
    {inst : List Int} {binding : List (String × Int)}
    (only : stages.filter Stage.hasReduceIter = [stage])
    (bound : bindShapeVars shapeVars inst = .ok binding)
    (evaluated : ∀ iter ∈ stage.iters, ∃ extent, iter.extent.eval binding = .ok extent ∧ 1 ≤ extent)
    (sized : table.Sized stage.spaceNames.length stage.reduceNames.length) :
    ∃ table', recordInstance shapeVars stages table inst = .ok table' ∧
      table'.Sized stage.spaceNames.length stage.reduceNames.length ∧
      ∀ d < stage.spaceNames.length, 1 ≤ table'.spaceMax.getD d 0 := by
  obtain ⟨spaceMaxSized, spaceSized, reduceMaxSized, reduceSized⟩ := sized
  have reducing : stage.hasReduceIter :=
    (List.mem_filter.mp (only ▸ List.mem_singleton_self stage : stage ∈ _)).2
  obtain ⟨cursor, ran, cursorSized, -, filled⟩ := @recordIterators_ok binding stage.iters table 0 0
    evaluated (by rw [spaceMaxSized, Stage.spaceNames_length, Nat.zero_add])
    (spaceSized.trans spaceMaxSized.symm)
    (by rw [reduceMaxSized, Stage.reduceNames_length kinds, Nat.zero_add])
    (reduceSized.trans reduceMaxSized.symm)
  have staged : stages.foldlM (recordStage binding) (table, 0, 0) = .ok cursor := by
    rw [foldlM_filter_noop (fun (other : Stage) _ (spatialOnly : other.hasReduceIter = false) _ =>
      by rw [recordStage, if_neg (by simp [spatialOnly])]) _, only, List.foldlM_cons, recordStage,
      if_pos reducing, ran]
    rfl
  refine ⟨cursor.1, by simp only [recordInstance, bound, staged, ok_bind]; rfl, ?_,
    fun d below => ?_⟩
  · rwa [spaceMaxSized, reduceMaxSized] at cursorSized
  · exact filled d (Nat.zero_le d) (spaceMaxSized ▸ below)

theorem collectExtents_ok {task : SearchTask}
    (only : task.computeDag.stages.filter Stage.hasReduceIter = [stage])
    (instances : task.wklInsts ≠ [])
    (extents : ∀ inst ∈ task.wklInsts, ∃ binding, bindShapeVars task.shapeVars inst = .ok binding ∧
      ∀ iter ∈ stage.iters, ∃ extent, iter.extent.eval binding = .ok extent ∧ 1 ≤ extent) :
    ∃ table, collectExtents task stage.spaceNames.length stage.reduceNames.length = .ok table ∧
      table.Sized stage.spaceNames.length stage.reduceNames.length ∧
      ∀ d < stage.spaceNames.length, 1 ≤ table.spaceMax.getD d 0 := by
  refine foldlM_ok_indexed (fun k (table : ExtentTable) =>
      table.Sized stage.spaceNames.length stage.reduceNames.length ∧
        (0 < k → ∀ d < stage.spaceNames.length, 1 ≤ table.spaceMax.getD d 0))
    (fun k table inRange kept => ?_) ⟨by simp [ExtentTable.Sized, ExtentTable.init],
      fun zero => absurd zero (Nat.lt_irrefl 0)⟩
    fun table kept => ⟨kept.1, kept.2 (List.length_pos.mpr instances)⟩
  obtain ⟨binding, bound, evaluated⟩ := extents _ (List.getElem_mem inRange)
  obtain ⟨next, recorded, sized, filled⟩ := recordInstance_ok kinds only bound evaluated kept.1
  exact ⟨next, recorded, sized, fun _ => filled⟩

end Stage

section Tiles

variable {utils : Utils} {task : SearchTask} {extractors : List (List ProducerLoad)}
  {table : ExtentTable} {aligned : List Nat}

theorem getAlignedTile_ones_ok {spaceDims reduceDims : Nat}
    (collected : collectExtents task spaceDims reduceDims = .ok table)
    (needAligned : needAlignSpaceIdx (iterNames task.computeDag.stages).1 extractors = .ok aligned)
    (sized : table.Sized spaceDims reduceDims)
    (filled : ∀ d < spaceDims, 1 ≤ table.spaceMax.getD d 0) :
    ∃ spaceTiles, (∀ fuel, getAlignedTile utils task (List.replicate spaceDims 1)
        (List.replicate reduceDims 1) 2 extractors fuel =
          .ok (spaceTiles, List.replicate reduceDims [1])) ∧
      spaceTiles.length = spaceDims ∧ ∀ row ∈ spaceTiles, ∃ rest, row = 1 :: rest := by
  obtain ⟨spaceMaxSized, spaceSized, -, -⟩ := sized
  refine ⟨_, fun fuel => by simp only [getAlignedTile, List.length_replicate, collected,
    needAligned, ok_bind, if_true, List.map_replicate]; rfl, by simp [spaceMaxSized, spaceSized],
    fun row mem => ?_⟩
  obtain ⟨⟨⟨base, maxExtent⟩, extents⟩, zipped, rfl⟩ := List.mem_map.mp mem
  obtain ⟨d, found⟩ := List.mem_iff_getElem?.mp zipped
  obtain ⟨baseFound, maxFound⟩ := List.getElem?_zip_eq_some.mp (List.getElem?_zip_eq_some.mp found).1
  have below : d < spaceDims := by simpa using (List.getElem?_eq_some_iff.mp baseFound).1
  rw [List.getElem?_replicate, if_pos below, Option.some.injEq] at baseFound
  subst baseFound
  have positive := filled d below
  rw [List.getD_eq_getElem?_getD, maxFound, Option.getD_some] at positive
  exact ⟨((utils.getPrimNumber extents).takeWhile fun j => 1 * j ≤ maxExtent).map (1 * ·),
    by simp [regTile, List.takeWhile_cons, positive]⟩

theorem getAlignedTile_shared_settles {sbase rbase : List Int} {bytes size : Int}
    (collected : collectExtents task sbase.length rbase.length = .ok table)
    (needAligned : needAlignSpaceIdx (iterNames task.computeDag.stages).1 extractors = .ok aligned)
    (elementSize : task.computeDag.tensorTypeSize = .ok bytes) (positive : 0 < bytes)
    (transactionRead : task.hardwareApi.transactionSize[0]? = some size) (wide : bytes ≤ size) :
    ∃ tiles, Settles (getAlignedTile utils task sbase rbase 1 extractors ·) tiles := by
  have transactions : 0 < size.tdiv bytes := by
    rw [Int.tdiv_eq_ediv (by omega) positive.le]
    exact (Int.le_ediv_iff_mul_le positive).mpr (by omega)
  simp only [getAlignedTile, collected, needAligned, elementSize, readAt, transactionRead,
    cDiv_of_ne_zero _ positive.ne', ok_bind, show (1 : Int) ≠ 2 by decide, if_false, if_true]
  refine exists_settles_ok_bind (mapM_ok_of_forall fun ⟨i, base, maxExtent⟩ _ => ?_)
    fun _ _ => exists_settles_bind (settles_mapM fun ⟨base, extents⟩ _ =>
      reduceSmemTile_settles transactions base extents) fun _ => ⟨_, .of_ok fun _ => rfl⟩
  dsimp only
  split
  · exact ⟨_, by rw [cDiv_of_ne_zero _ (stdGcd_ne_zero base transactions.ne')]; rfl⟩
  · exact ⟨_, rfl⟩

end Tiles

theorem hasZeroTiles_eq_false {tiles : List (List Int) × List (List Int)} :
    hasZeroTiles tiles = false ↔ ∀ row ∈ tiles.1 ++ tiles.2, row ≠ [] := by
  simp only [hasZeroTiles, Bool.or_eq_false_iff, List.any_eq_false, List.isEmpty_iff,
    List.mem_append]
  exact ⟨fun ⟨space, reduce⟩ row mem => mem.elim (space row) (reduce row),
    fun nonempty => ⟨fun row mem => nonempty row (.inl mem), fun row mem => nonempty row (.inr mem)⟩⟩

theorem configLoop_settles {utils : Utils} {task : SearchTask}
    {extractors : List (List ProducerLoad)} {base : HwAlignedConfig} {memLevel : Int}
    {tiles : List (List Int) × List (List Int)} (hasSpace : tiles.1 ≠ []) (hasReduce : tiles.2 ≠ [])
    (offered : hasZeroTiles tiles = false)
    (filters : ∀ pnext, ∀ tuple ∈ lexPairs tiles.1 tiles.2, ∃ out,
      configFilter utils task pnext base extractors tuple.1 tuple.2 memLevel = .ok out)
    (pnext : List HwAlignedConfig) :
    ∃ result, Settles (configLoop utils task extractors base memLevel tiles.1 tiles.2 · pnext
        (Odometer.start tiles)) result ∧
      (prunedCalls (filterPushes utils task base extractors memLevel) tiles.1 tiles.2).foldlM
        (fun pnext tuple => configFilter utils task pnext base extractors tuple.1 tuple.2 memLevel)
        pnext = .ok result := by
  obtain ⟨visited, walk, -⟩ := configLoop_prunedWalk utils task extractors base memLevel hasSpace
    hasReduce (hasZeroTiles_eq_false.mp offered) pnext
  obtain ⟨result, ran⟩ :=
    foldlM_ok_of_forall (fun acc tuple mem => filters acc tuple (visited.subset mem)) pnext
  exact ⟨result, ⟨_, fun fuel enough => (walk fuel enough).trans ran⟩, ran⟩

theorem Settles.exists_bind {run : Nat → Except Fault α} {next : Nat → α → Except Fault β}
    {value : α} (first : Settles run value) (second : ∃ result, Settles (next · value) result) :
    ∃ result, Settles (fun fuel => run fuel >>= next fuel) result :=
  let ⟨result, settled⟩ := second
  ⟨result, first.bind settled⟩

theorem lexTuples_heads : ∀ {tiles : List (List Int)}, (∀ row ∈ tiles, row ≠ []) →
    ∃ rest, lexTuples tiles = tiles.map (·.headD 0) :: rest
  | [], _ => ⟨[], rfl⟩
  | row :: tiles, nonempty => by
      obtain ⟨first, later, rfl⟩ := List.exists_cons_of_ne_nil (nonempty _ (List.mem_cons_self _ _))
      obtain ⟨rest, listed⟩ :=
        lexTuples_heads fun other mem => nonempty other (List.mem_cons_of_mem _ mem)
      exact ⟨rest.map (first :: ·) ++ later.flatMap fun tile => (lexTuples tiles).map (tile :: ·),
        by simp [lexTuples, listed]⟩

theorem prunedCalls_head (accept : List Int → List Int → Bool)
    {spaceTiles reduceTiles : List (List Int)} (hasSpace : spaceTiles ≠ [])
    (nonempty : ∀ row ∈ spaceTiles ++ reduceTiles, row ≠ []) :
    ∃ rest, prunedCalls accept spaceTiles reduceTiles =
      (spaceTiles.map (·.headD 0), reduceTiles.map (·.headD 0)) :: rest := by
  obtain ⟨reduceRest, reduceListed⟩ := lexTuples_heads fun row mem =>
    nonempty row (List.mem_append_right _ mem)
  obtain ⟨prefixRest, prefixListed⟩ := lexTuples_heads fun row (mem : row ∈ spaceTiles.dropLast) =>
    nonempty row (List.mem_append_left _ (List.dropLast_subset _ mem))
  obtain ⟨first, later, lastEq⟩ := List.exists_cons_of_ne_nil
    (nonempty _ (List.mem_append_left _ (List.getLast_mem hasSpace)))
  have heads : spaceTiles.dropLast.map (·.headD 0) ++ [first] = spaceTiles.map (·.headD 0) := by
    conv_rhs => rw [← List.dropLast_append_getLast hasSpace, lastEq]
    simp
  exact ⟨_, by
    rw [prunedCalls, reduceListed, List.flatMap_cons, prefixListed, List.flatMap_cons,
      List.getLast?_eq_getLast _ hasSpace, Option.getD_some, lastEq, siblingsAccepted_cons,
      List.map_cons, heads, List.cons_append, List.cons_append]⟩

/-- What `EmitConfig` needs to return: a two-level descriptor with the entries it reads, whose
first-level transaction holds at least one element and whose threads hold at least one register;
one stage with reduction iterators, whose iterators are spatial or reductions, at least one of
each, and whose body is made of reductions, products and loads indexed by iterator variables; and
workload instances under which every iterator of that stage has an extent of at least 1. -/
structure EmitConditions (task : SearchTask) (stage : Stage)
    (extractors : List (List ProducerLoad)) (bytes : Int) : Prop where
  levels : task.hardwareApi.numLevel = 2
  elementSize : task.computeDag.tensorTypeSize = .ok bytes
  bytesPositive : 0 < bytes
  transaction : ∃ size, task.hardwareApi.transactionSize[0]? = some size ∧ bytes ≤ size
  registers : ∃ perSm perThread, task.hardwareApi.regCap[0]? = some perSm ∧
    task.hardwareApi.regCap[1]? = some perThread ∧ 1 ≤ perThread
  sharedMemory : ∃ cap, task.hardwareApi.smemCap[0]? = some cap
  bandwidths : ∃ shared register, task.hardwareApi.bandwidth[0]? = some shared ∧
    task.hardwareApi.bandwidth[1]? = some register
  partition : ∃ partition, task.hardwareApi.computeSmPartition[0]? = some partition
  only : task.computeDag.stages.filter Stage.hasReduceIter = [stage]
  kinds : ∀ iter ∈ stage.iters, iter.kind = .spatial ∨ iter.kind = .reduction
  hasSpace : stage.spaceNames ≠ []
  hasReduce : stage.reduceNames ≠ []
  extracted : stage.body.mapM BodyExpr.extract = .ok extractors
  indexed : ∀ load ∈ extractors.flatten,
    load.indices ≠ [] ∧ ∀ index ∈ load.indices, ∃ name, index = .var name
  instances : task.wklInsts ≠ []
  extents : ∀ inst ∈ task.wklInsts, ∃ binding, bindShapeVars task.shapeVars inst = .ok binding ∧
    ∀ iter ∈ stage.iters, ∃ extent, iter.extent.eval binding = .ok extent ∧ 1 ≤ extent

namespace EmitConditions

variable {task : SearchTask} {stage : Stage} {extractors : List (List ProducerLoad)} {bytes : Int}
  (ready : EmitConditions task stage extractors bytes)
include ready

theorem names : iterNames task.computeDag.stages = (stage.spaceNames, stage.reduceNames) :=
  iterNamesFrom_of_only ready.hasReduce _ ready.only

theorem footprint {spaceTile reduceTile : List Int}
    (spaceSized : spaceTile.length = stage.spaceNames.length)
    (reduceSized : reduceTile.length = stage.reduceNames.length) (memLevel : Int) :
    ∃ use, memFootPrint (iterNames task.computeDag.stages).1 (iterNames task.computeDag.stages).2
      extractors spaceTile reduceTile memLevel bytes = .ok use := by
  rw [ready.names]
  exact memFootPrint_ok spaceSized reduceSized (fun load mem => (ready.indexed load mem).2) _ _

theorem tables : ∃ table aligned,
    collectExtents task stage.spaceNames.length stage.reduceNames.length = .ok table ∧
    needAlignSpaceIdx (iterNames task.computeDag.stages).1 extractors = .ok aligned ∧
    table.Sized stage.spaceNames.length stage.reduceNames.length ∧
    ∀ d < stage.spaceNames.length, 1 ≤ table.spaceMax.getD d 0 := by
  obtain ⟨table, collected, sized, filled⟩ :=
    collectExtents_ok ready.kinds ready.only ready.instances ready.extents
  obtain ⟨aligned, needAligned⟩ := needAlignSpaceIdx_ok fun load mem => by
    obtain ⟨nonempty, named⟩ := ready.indexed load mem
    obtain ⟨name, last⟩ := named _ (List.getLast_mem nonempty)
    exact ⟨name, by rw [List.getLast?_eq_getLast _ nonempty, last]⟩
  exact ⟨table, aligned, collected, needAligned, sized, filled⟩

variable (utils : Utils)

theorem extendBase_settles {base : HwAlignedConfig} {spaceTile reduceTile : List Int} {ratio : ℚ}
    (spaceSet : base.spaceTiles = [[], spaceTile]) (reduceSet : base.reduceTiles = [[], reduceTile])
    (ratioSet : base.computeIntensiveRatio = [0, ratio])
    (spaceSized : spaceTile.length = stage.spaceNames.length)
    (reduceSized : reduceTile.length = stage.reduceNames.length) (pnext : List HwAlignedConfig) :
    ∃ result, Settles (extendBase utils task extractors 1 · pnext base) result := by
  obtain ⟨table, aligned, collected, needAligned, ⟨spaceMaxSized, -, -, reduceSized'⟩, -⟩ :=
    ready.tables
  obtain ⟨size, sizeRead, wide⟩ := ready.transaction
  obtain ⟨perSm, -, perSmRead, -⟩ := ready.registers
  obtain ⟨smemCap, smemRead⟩ := ready.sharedMemory
  obtain ⟨sharedBandwidth, -, bandwidthRead, -⟩ := ready.bandwidths
  obtain ⟨partition, partitionRead⟩ := ready.partition
  obtain ⟨tiles, bound, settled⟩ : ∃ tiles,
      Settles (getAlignedTile utils task spaceTile reduceTile 1 extractors ·) tiles :=
    getAlignedTile_shared_settles (by rwa [spaceSized, reduceSized]) needAligned ready.elementSize
      ready.bytesPositive sizeRead wide
  obtain ⟨table', -, -, collected', -, -, spaceLength, reduceLength, -⟩ :=
    getAlignedTile_shared (settled bound le_rfl)
  rw [spaceSized, reduceSized, collected, Except.ok.injEq] at collected'
  subst collected'
  have one : (1 : Int).toNat = 1 := rfl
  simp only [extendBase, one, spaceSet, reduceSet, readAt, List.getElem?_cons_succ,
    List.getElem?_cons_zero, ok_bind]
  refine Settles.exists_bind ⟨bound, settled⟩ ?_
  cases zero : hasZeroTiles tiles
  · have counted : tiles.1.length = stage.spaceNames.length ∧
        tiles.2.length = stage.reduceNames.length := by
      constructor <;> omega
    obtain ⟨result, walked, -⟩ := @configLoop_settles utils task extractors base 1 tiles
      (List.ne_nil_of_length_pos (counted.1 ▸ List.length_pos.mpr ready.hasSpace))
      (List.ne_nil_of_length_pos (counted.2 ▸ List.length_pos.mpr ready.hasReduce)) zero
      (fun pnext tuple mem => by
        obtain ⟨spaceIn, reduceIn⟩ := mem_lexPairs mem
        obtain ⟨smemUse, used⟩ := ready.footprint ((mem_lexTuples spaceIn).1.trans counted.1)
          ((mem_lexTuples reduceIn).1.trans counted.2) 1
        exact configFilter_shared_ok ready.levels ready.elementSize ready.bytesPositive.ne' used
          smemRead perSmRead bandwidthRead partitionRead (by rw [spaceSet]; rfl)
          (by rw [reduceSet]; rfl) (by rw [ratioSet]; rfl) pnext) pnext
    exact ⟨result, by simpa only [Bool.false_eq_true, if_false] using walked⟩
  · exact ⟨pnext, .of_ok fun _ => by simp⟩

theorem onesAccepted : ∃ config, configFilter utils task [] HwAlignedConfig.empty extractors
    (List.replicate stage.spaceNames.length 1) (List.replicate stage.reduceNames.length 1) 2 =
      .ok [config] := by
  obtain ⟨-, perThread, -, perThreadRead, oneRegister⟩ := ready.registers
  obtain ⟨-, registerBandwidth, -, bandwidthRead⟩ := ready.bandwidths
  obtain ⟨regUse, used⟩ := ready.footprint (List.length_replicate _ (1 : Int))
    (List.length_replicate _ (1 : Int)) 2
  obtain ⟨out, filtered, grows⟩ := configFilter_register_ok ready.levels ready.elementSize used
    perThreadRead bandwidthRead [] HwAlignedConfig.empty
  have within : regUse ≤ perThread := by
    rw [memFootPrint_register used]
    split_ifs
    · omega
    · simpa using oneRegister
  obtain ⟨config, rfl⟩ := List.length_eq_one.mp (by simpa using grows within)
  exact ⟨config, filtered⟩

theorem registerWalk : ∃ registerSpace registers,
    (∀ fuel, getAlignedTile utils task (List.replicate stage.spaceNames.length 1)
      (List.replicate stage.reduceNames.length 1) 2 extractors fuel =
        .ok (registerSpace, List.replicate stage.reduceNames.length [1])) ∧
    hasZeroTiles (registerSpace, List.replicate stage.reduceNames.length [1]) = false ∧
    Settles (configLoop utils task extractors HwAlignedConfig.empty 2 registerSpace
      (List.replicate stage.reduceNames.length [1]) · []
      (Odometer.start (registerSpace, List.replicate stage.reduceNames.length [1]))) registers ∧
    registers ≠ [] ∧
    ∀ base ∈ registers, ∃ spaceTile reduceTile ratio, base.spaceTiles = [[], spaceTile] ∧
      base.reduceTiles = [[], reduceTile] ∧ base.computeIntensiveRatio = [0, ratio] ∧
      spaceTile.length = stage.spaceNames.length ∧ reduceTile.length = stage.reduceNames.length := by
  obtain ⟨table, aligned, collected, needAligned, sized, filled⟩ := ready.tables
  obtain ⟨-, perThread, -, perThreadRead, -⟩ := ready.registers
  obtain ⟨-, registerBandwidth, -, bandwidthRead⟩ := ready.bandwidths
  obtain ⟨registerSpace, registerRan, spaceLength, rows⟩ :=
    @getAlignedTile_ones_ok utils task extractors table aligned _ _ collected needAligned sized filled
  have nonempty : ∀ row ∈ registerSpace ++ List.replicate stage.reduceNames.length [1], row ≠ [] := by
    intro row mem
    rcases List.mem_append.mp mem with space | reduce
    · obtain ⟨rest, rfl⟩ := rows row space
      exact List.cons_ne_nil _ _
    · rw [List.eq_of_mem_replicate reduce]
      exact List.cons_ne_nil _ _
  have hasSpace : registerSpace ≠ [] :=
    List.ne_nil_of_length_pos (spaceLength ▸ List.length_pos.mpr ready.hasSpace)
  have counted : ∀ tuple ∈ lexPairs registerSpace (List.replicate stage.reduceNames.length [1]),
      tuple.1.length = stage.spaceNames.length ∧ tuple.2.length = stage.reduceNames.length :=
    fun tuple mem => ⟨(mem_lexTuples (mem_lexPairs mem).1).1.trans spaceLength,
      (mem_lexTuples (mem_lexPairs mem).2).1.trans (List.length_replicate _ _)⟩
  have filters : ∀ pnext, ∀ tuple ∈ lexPairs registerSpace
      (List.replicate stage.reduceNames.length [1]), ∃ out,
        configFilter utils task pnext HwAlignedConfig.empty extractors tuple.1 tuple.2 2 = .ok out :=
    fun pnext tuple mem => by
      obtain ⟨regUse, used⟩ := ready.footprint (counted tuple mem).1 (counted tuple mem).2 2
      obtain ⟨out, filtered, -⟩ := configFilter_register_ok ready.levels ready.elementSize used
        perThreadRead bandwidthRead pnext HwAlignedConfig.empty
      exact ⟨out, filtered⟩
  obtain ⟨registers, settled, folded⟩ := @configLoop_settles utils task extractors
    HwAlignedConfig.empty 2 (registerSpace, List.replicate stage.reduceNames.length [1]) hasSpace
    (List.ne_nil_of_length_pos (by simpa using List.length_pos.mpr ready.hasReduce))
    (hasZeroTiles_eq_false.mpr nonempty) filters []
  refine ⟨registerSpace, registers, registerRan, hasZeroTiles_eq_false.mpr nonempty, settled, ?_,
    fun base mem => ?_⟩
  · obtain ⟨rest, headed⟩ := prunedCalls_head
      (filterPushes utils task HwAlignedConfig.empty extractors 2) hasSpace nonempty
    have ones : registerSpace.map (·.headD 0) = List.replicate stage.spaceNames.length 1 :=
      List.eq_replicate_iff.mpr ⟨by rw [List.length_map, spaceLength], fun tile mem => by
        obtain ⟨row, rowMem, rfl⟩ := List.mem_map.mp mem
        obtain ⟨rest, rfl⟩ := rows row rowMem
        rfl⟩
    rw [headed, ones, List.map_replicate] at folded
    obtain ⟨pushes, pushed, rfl⟩ :=
      foldlM_ok_append (fun _ _ _ filtered => configFilter_ok_append filtered) folded
    obtain ⟨first, later, rfl, firstRan, -⟩ := mapM_ok_cons pushed
    obtain ⟨config, accepted⟩ := ready.onesAccepted utils
    obtain rfl : first = [config] := Except.ok.inj (firstRan.symm.trans accepted)
    simp
  · rcases configLoop_pushed (hasZeroTiles_eq_false.mpr nonempty) (settled.choose_spec _ le_rfl)
      base mem with absent | ⟨-, -, spaceTile, reduceTile, out, pairMem, filtered, inOut⟩
    · cases absent
    obtain ⟨-, -, -, -, -, -, -, -, spaceSet, reduceSet, ratio, ratioSet⟩ :=
      configFilter_register_pushed ready.levels filtered base inOut
    exact ⟨spaceTile, reduceTile, ratio, spaceSet, reduceSet, ratioSet, counted _ pairMem⟩

end EmitConditions

theorem matmulTask_ready : EmitConditions matmulTask matmulStage matmulLoads 4 where
  levels := rfl
  elementSize := by decide
  bytesPositive := by decide
  transaction := ⟨32, rfl, by decide⟩
  registers := ⟨65536, 255, rfl, rfl, by decide⟩
  sharedMemory := ⟨49152, rfl⟩
  bandwidths := ⟨900, 13800, rfl, rfl⟩
  partition := ⟨80, rfl⟩
  only := rfl
  kinds := by decide
  hasSpace := by decide
  hasReduce := by decide
  extracted := rfl
  indexed := by simp [matmulLoads]
  instances := by decide
  extents := by
    simp only [matmulTask, matmulNarrowTransactions, List.mem_singleton, forall_eq]
    exact ⟨[], rfl, by simp [matmulStage, ShapeExpr.eval]⟩

section NarrowTransactions

variable (utils : Utils) (fuel : Nat)

theorem matmulNarrowTransactions_registerTiles :
    getAlignedTile utils matmulNarrowTransactions [1, 1] [1] 2 matmulLoads fuel =
      .ok ([regTile utils 1 64 [64], regTile utils 1 64 [64]], [[1]]) := by
  have extents : collectExtents matmulNarrowTransactions 2 1 =
      .ok ⟨[64, 64], [64], [[64], [64]], [[64]]⟩ := by decide
  have aligned : needAlignSpaceIdx ["i", "j"] matmulLoads = .ok [1] := by decide
  have names : iterNames matmulNarrowTransactions.computeDag.stages = (["i", "j"], ["k"]) := by
    decide
  simp [getAlignedTile, names, extents, aligned]

theorem matmulNarrowTransactions_extendBase_fails {pnext result : List HwAlignedConfig}
    {base : HwAlignedConfig} {iTile jTile : Int} (spaceSet : base.spaceTiles = [[], [iTile, jTile]])
    (reduceSet : base.reduceTiles = [[], [1]]) :
    extendBase utils matmulNarrowTransactions matmulLoads 1 fuel pnext base ≠ .ok result := by
  rcases (matmulNarrowTransactions_never_tiles utils fuel iTile jTile).2 with fails | fails <;>
  · simp only [extendBase, spaceSet, reduceSet]
    simp [readAt, fails]

theorem matmulNarrowTransactions_sharedLevel_fails {pnow result : List HwAlignedConfig}
    (bases : ∀ base ∈ pnow, ∃ iTile jTile, base.spaceTiles = [[], [iTile, jTile]] ∧
      base.reduceTiles = [[], [1]]) :
    ∀ rounds, levelLoop utils matmulNarrowTransactions matmulLoads 2 1 fuel rounds 1 pnow ≠
      .ok result
  | 0 => by simp [levelLoop]
  | rounds + 1 => by
      cases pnow with
      | nil =>
          rcases (matmulNarrowTransactions_never_tiles utils fuel 1 1).2 with fails | fails <;>
          · simp [levelLoop, fails]
      | cons base rest =>
          obtain ⟨iTile, jTile, spaceSet, reduceSet⟩ := bases base (List.mem_cons_self _ _)
          intro ran
          simp only [levelLoop, List.isEmpty_cons, Int.reduceLE, reduceIte, Bool.false_eq_true,
            List.foldlM_cons] at ran
          obtain ⟨pnext, folded, -⟩ := bind_eq_ok.mp ran
          obtain ⟨first, extended, -⟩ := bind_eq_ok.mp folded
          exact matmulNarrowTransactions_extendBase_fails utils fuel spaceSet reduceSet extended

theorem matmulNarrowTransactions_never_emits (configs : List HwAlignedConfig) :
    emitConfig utils matmulNarrowTransactions 2 1 fuel ≠ .ok configs := by
  have extracted : exprExtractor matmulNarrowTransactions.computeDag.stages = .ok matmulLoads :=
    (matmulNarrowTransactions_never_tiles utils fuel 1 1).1
  have lexOne : lexTuples [[1]] = [[1]] := rfl
  rw [emitConfig, extracted, ok_bind, show matmulNarrowTransactions.hardwareApi.numLevel = 2 from rfl]
  suffices registerLevel : ∀ rounds,
      levelLoop utils matmulNarrowTransactions matmulLoads 2 1 fuel rounds 2 [] ≠ .ok configs from
    registerLevel fuel
  intro rounds
  induction rounds with
  | zero => simp [levelLoop]
  | succ rounds registerRepeats =>
      intro ran
      simp only [levelLoop, List.isEmpty_nil, Int.reduceLE, Int.reduceSub, reduceIte,
        Int.toNat_ofNat, List.replicate, matmulNarrowTransactions_registerTiles, ok_bind] at ran
      split at ran
      · exact registerRepeats ran
      rename_i offered
      obtain ⟨pnext, walked, ran⟩ := bind_eq_ok.mp ran
      refine matmulNarrowTransactions_sharedLevel_fails utils fuel (fun base mem => ?_) rounds ran
      rcases configLoop_pushed (Bool.eq_false_iff.mpr offered) walked base mem with absent |
        ⟨-, -, spaceTile, reduceTile, out, pairMem, filtered, inOut⟩
      · cases absent
      obtain ⟨-, -, -, -, -, -, -, -, spaceSet, reduceSet, -⟩ :=
        configFilter_register_pushed rfl filtered base inOut
      obtain ⟨spaceMem, reduceMem⟩ := mem_lexPairs pairMem
      rw [lexOne, List.mem_singleton] at reduceMem
      obtain ⟨iTile, jTile, rfl⟩ := List.length_eq_two.mp (mem_lexTuples spaceMem).1
      exact ⟨iTile, jTile, spaceSet, reduceMem ▸ reduceSet⟩

end NarrowTransactions

end FTuner
