import FTuner.Hardware.AlignedTile

namespace FTuner

/-! # The geometry of the tile candidates

What `GetAlignedTile` offers, dimension by dimension.  `std::__gcd` divides both of its
arguments, so a coalesced dimension's shared-memory tiles are multiples of both the register
tile and `transaction_num`; every shared-memory tile stays below the largest extent it was
sized by; and the reduction tiles grown from a base of 1 lie in `[1, 32]` when every extent is
at least 1.  The extent tables keep their sizes, and every largest extent is 0 or the extent of
the dimension's iterator under one workload instance.
-/

theorem natAbs_tmod_lt (a : Int) {b : Int} (nonzero : b ≠ 0) : (a.tmod b).natAbs < b.natAbs := by
  have positive : 0 < b.natAbs := Int.natAbs_pos.mpr nonzero
  cases a <;> cases b <;> simp only [Int.tmod, Int.natAbs_ofNat, Int.natAbs_neg,
    Int.natAbs_negSucc] at positive ⊢ <;> exact Nat.mod_lt _ positive

theorem stdGcd.go_dvd : ∀ (fuel : Nat) (m n : Int), n.natAbs < fuel →
    stdGcd.go fuel m n ∣ m ∧ stdGcd.go fuel m n ∣ n
  | 0, _, _, short => absurd short (Nat.not_lt_zero _)
  | fuel + 1, m, n, enough => by
      rw [stdGcd.go]
      split_ifs with zero
      · exact ⟨Int.dvd_refl m, zero ▸ Int.dvd_zero m⟩
      · obtain ⟨left, right⟩ := go_dvd fuel n (m.tmod n) (by
          have := natAbs_tmod_lt m zero
          omega)
        refine ⟨?_, left⟩
        generalize go fuel n (m.tmod n) = divisor at left right
        rw [← Int.tmod_add_tdiv m n]
        exact Int.dvd_add right (Int.dvd_trans left (Int.dvd_mul_right _ _))

theorem stdGcd_dvd (m n : Int) : stdGcd m n ∣ m ∧ stdGcd m n ∣ n :=
  stdGcd.go_dvd _ m n (Nat.lt_succ_self _)

theorem stdGcd.go_nonneg : ∀ (fuel : Nat) {m n : Int}, 0 ≤ m → 0 ≤ n → 0 ≤ stdGcd.go fuel m n
  | 0, _, _, left, _ => left
  | fuel + 1, m, n, left, right => by
      rw [stdGcd.go]
      split_ifs
      · exact left
      · exact go_nonneg fuel right (Int.tmod_nonneg _ left)

theorem stdGcd_one_left {n : Int} (nonneg : 0 ≤ n) : stdGcd 1 n = 1 :=
  Int.eq_one_of_dvd_one (stdGcd.go_nonneg _ Int.one_nonneg nonneg) (stdGcd_dvd 1 n).1

theorem dvd_of_lcm_ok {base transactionNum lcm : Int}
    (computed : cDiv (base * transactionNum) (stdGcd base transactionNum) = .ok lcm) :
    base ∣ lcm ∧ transactionNum ∣ lcm := by
  unfold cDiv at computed
  split_ifs at computed
  cases computed
  obtain ⟨left, right⟩ := stdGcd_dvd base transactionNum
  constructor
  · rw [Int.mul_tdiv_assoc _ right]
    exact Int.dvd_mul_right _ _
  · rw [Int.mul_tdiv_assoc' _ left]
    exact Int.dvd_mul_left _ _

theorem mem_smemTile {base maxExtent tile : Int} (mem : tile ∈ smemTile base maxExtent) :
    base ∣ tile ∧ tile < maxExtent := by
  have below := List.mem_takeWhile_imp mem
  obtain ⟨j, -, rfl⟩ := List.mem_map.mp ((List.takeWhile_prefix _).subset mem)
  exact ⟨Int.dvd_mul_right _ _, by simpa using below⟩

theorem regTile_ne_nil {utils : Utils} {sbase maxExtent : Int} {extents : List Int}
    (offered : regTile utils sbase maxExtent extents ≠ []) : sbase * 1 ≤ maxExtent := by
  unfold regTile at offered
  rw [List.takeWhile_cons] at offered
  split_ifs at offered with fits
  · simpa using fits
  · simp at offered

theorem alignReduceLoop_range {step cap : Int} : ∀ {fuel : Nat} {dim dim' : Int}
    {tiles tiles' : List Int}, alignReduceLoop fuel step cap dim tiles = .ok (dim', tiles') →
      dim ≤ dim' ∧ ∃ pushed, tiles' = tiles ++ pushed ∧
        ∀ tile ∈ pushed, 0 < step ∧ dim ≤ tile ∧ tile ≤ cap
  | 0, _, _, _, _, ran => by cases ran
  | fuel + 1, dim, dim', tiles, tiles', ran => by
      rw [alignReduceLoop] at ran
      split_ifs at ran with below
      · by_cases positive : 0 < step
        · obtain ⟨grows, pushed, rfl, within⟩ := alignReduceLoop_range ran
          refine ⟨by omega, dim :: pushed, by simp, ?_⟩
          rintro tile (_ | ⟨_, mem⟩)
          · exact ⟨positive, Int.le_refl dim, below⟩
          · obtain ⟨-, low, high⟩ := within tile mem
            exact ⟨positive, by omega, high⟩
        · rw [alignReduceLoop_stalls (by omega) fuel _ (by omega)] at ran
          cases ran
      · cases ran
        exact ⟨Int.le_refl dim, [], by simp, by simp⟩

theorem reduceSmemTile_within {fuel : Nat} {transactionNum : Int} {extents tiles : List Int}
    (positive : ∀ extent ∈ extents, 1 ≤ extent)
    (ran : reduceSmemTile fuel transactionNum 1 extents = .ok tiles) :
    ∀ tile ∈ tiles, 1 ≤ tile ∧ tile ≤ 32 := by
  obtain ⟨first, firstOk, ran⟩ := bind_eq_ok.mp ran
  obtain ⟨⟨cap, dim, grown⟩, grew, ran⟩ := bind_eq_ok.mp ran
  cases ran
  have start : 0 < transactionNum → 1 ≤ first := fun stepping => by
    rw [stdGcd_one_left (Int.le_of_lt stepping)] at firstOk
    simp only [cDiv, Int.one_ne_zero, if_false, Int.tdiv_one, Int.one_mul] at firstOk
    cases firstOk
    omega
  refine (foldlM_ok_invariant (fun (loop : Int × Int × List Int) =>
      1 ≤ loop.1 ∧ loop.1 ≤ 32 ∧ (0 < transactionNum → 1 ≤ loop.2.1) ∧
        ∀ tile ∈ loop.2.2, 1 ≤ tile ∧ tile ≤ 32) ?_ ⟨by simp, by simp, start, by simp⟩
      grew).2.2.2
  rintro ⟨cap, dim, tiles⟩ extent mem next ⟨low, high, dimLow, within⟩ stepped
  obtain ⟨⟨dim', tiles'⟩, looped, stepped⟩ := bind_eq_ok.mp stepped
  cases stepped
  obtain ⟨grows, pushed, rfl, pushedWithin⟩ := alignReduceLoop_range looped
  have capLow : 1 ≤ min cap extent := Int.le_min.mpr ⟨low, positive extent mem⟩
  have capHigh : min cap extent ≤ 32 := Int.le_trans (Int.min_le_left _ _) high
  have kept : ∀ tile ∈ tiles ++ pushed, 1 ≤ tile ∧ tile ≤ 32 := by
    intro tile member
    rcases List.mem_append.mp member with old | new
    · exact within tile old
    · obtain ⟨stepping, above, below⟩ := pushedWithin tile new
      exact ⟨Int.le_trans (dimLow stepping) above, Int.le_trans below capHigh⟩
  refine ⟨capLow, capHigh, fun stepping => Int.le_trans (dimLow stepping) grows, ?_⟩
  split_ifs
  · exact kept
  · intro tile member
    rcases List.mem_append.mp member with old | capped
    · exact kept tile old
    · rw [List.mem_singleton.mp capped]
      exact ⟨capLow, capHigh⟩

/-- The spatial dimensions, in order: the spatial iterators of the stages that have a reduction
iterator, as `space_dims` and the tile lists index them. -/
def alignedSpaceIters (stages : List Stage) : List Iterator :=
  ((stages.filter Stage.hasReduceIter).flatMap Stage.iters).filter (·.kind == .spatial)

/-- Every iterator extent is at least 1 under every workload instance. -/
def ExtentsPositive (task : SearchTask) : Prop :=
  ∀ inst ∈ task.wklInsts, ∀ binding, bindShapeVars task.shapeVars inst = .ok binding →
    ∀ stage ∈ task.computeDag.stages, ∀ iter ∈ stage.iters, ∀ extent,
      iter.extent.eval binding = .ok extent → 1 ≤ extent

theorem getElem?_set_eq_some {values : List α} {index d : Nat} {value found : α}
    (read : (values.set index value)[d]? = some found) :
    values[d]? = some found ∨ d = index ∧ found = value := by
  rw [List.getElem?_set] at read
  split_ifs at read with same
  · exact .inr ⟨same.symm, (Option.some.inj read).symm⟩
  · exact .inl read

theorem recordExtent_ok {maxima maxima' : List Int} {all all' : List (List Int)} {index : Nat}
    {extent : Int} {what : String}
    (recorded : recordExtent maxima all index extent what = .ok (maxima', all')) :
    maxima'.length = maxima.length ∧ all'.length = all.length ∧
      (∀ (d : Nat) largest, maxima'[d]? = some largest →
        maxima[d]? = some largest ∨ d = index ∧ largest = extent) ∧
      ∀ (d : Nat) extents', all'[d]? = some extents' → all[d]? = some extents' ∨
        ∃ extents, all[d]? = some extents ∧ extents' = extents ++ [extent] := by
  have appended : ∀ raised, (do
      let seen ← readAt all index what
      let all ← writeAt all index (seen ++ [extent]) what
      pure (raised, all) : Except Fault (List Int × List (List Int))) = .ok (maxima', all') →
      maxima' = raised ∧ all'.length = all.length ∧
        ∀ (d : Nat) extents', all'[d]? = some extents' → all[d]? = some extents' ∨
          ∃ extents, all[d]? = some extents ∧ extents' = extents ++ [extent] := by
    intro raised recorded
    obtain ⟨seen, seenRead, recorded⟩ := bind_eq_ok.mp recorded
    obtain ⟨appended, written, recorded⟩ := bind_eq_ok.mp recorded
    cases recorded
    obtain ⟨-, rfl⟩ := writeAt_eq_ok_iff.mp written
    refine ⟨rfl, List.length_set _ _ _, fun d extents' found => ?_⟩
    rcases getElem?_set_eq_some found with kept | ⟨rfl, rfl⟩
    · exact .inl kept
    · exact .inr ⟨seen, readAt_eq_ok_iff.mp seenRead, rfl⟩
  obtain ⟨current, -, recorded⟩ := bind_eq_ok.mp recorded
  split_ifs at recorded
  · obtain ⟨raised, raisedOk, recorded⟩ := bind_eq_ok.mp recorded
    obtain ⟨rfl, allLength, allFound⟩ := appended raised recorded
    obtain ⟨-, rfl⟩ := writeAt_eq_ok_iff.mp raisedOk
    exact ⟨List.length_set _ _ _, allLength, fun _ _ => getElem?_set_eq_some, allFound⟩
  · obtain ⟨rfl, allLength, allFound⟩ := appended maxima recorded
    exact ⟨rfl, allLength, fun _ _ found => .inl found, allFound⟩

theorem recordIterator_ok {binding : List (String × Int)} {table : ExtentTable}
    {spaceIdx reduceIdx : Nat} {iter : Iterator} {cursor' : ExtentTable × Nat × Nat}
    (ran : recordIterator binding (table, spaceIdx, reduceIdx) iter = .ok cursor') :
    ∃ extent, iter.extent.eval binding = .ok extent ∧
      ((iter.kind = .spatial ∧ ∃ maxima all, recordExtent table.spaceMax table.space spaceIdx
          extent "space_max_extent" = .ok (maxima, all) ∧
          cursor' = ({ table with spaceMax := maxima, space := all }, spaceIdx + 1, reduceIdx)) ∨
        (iter.kind ≠ .spatial ∧ ∃ maxima all, recordExtent table.reduceMax table.reduce reduceIdx
          extent "reduce_max_extent" = .ok (maxima, all) ∧
          cursor' = ({ table with reduceMax := maxima, reduce := all }, spaceIdx,
            reduceIdx + 1))) := by
  obtain ⟨extent, evaluated, ran⟩ := bind_eq_ok.mp ran
  refine ⟨extent, evaluated, ?_⟩
  by_cases spatial : iter.kind = .spatial
  · simp only [spatial, beq_self_eq_true, if_true] at ran
    obtain ⟨⟨maxima, all⟩, recorded, ran⟩ := bind_eq_ok.mp ran
    exact .inl ⟨spatial, maxima, all, recorded, (Except.ok.inj ran).symm⟩
  · simp only [beq_iff_eq, spatial, if_false] at ran
    obtain ⟨⟨maxima, all⟩, recorded, ran⟩ := bind_eq_ok.mp ran
    exact .inr ⟨spatial, maxima, all, recorded, (Except.ok.inj ran).symm⟩

theorem collectExtents_invariant {task : SearchTask} {spaceDims reduceDims : Nat}
    {table : ExtentTable} (keeps : ExtentTable → Prop)
    (init : keeps (ExtentTable.init spaceDims reduceDims))
    (step : ∀ inst ∈ task.wklInsts, ∀ binding, bindShapeVars task.shapeVars inst = .ok binding →
      ∀ stage ∈ task.computeDag.stages, ∀ iter ∈ stage.iters, ∀ table' spaceIdx reduceIdx cursor',
        keeps table' → recordIterator binding (table', spaceIdx, reduceIdx) iter = .ok cursor' →
          keeps cursor'.1)
    (ran : collectExtents task spaceDims reduceDims = .ok table) : keeps table := by
  refine foldlM_ok_invariant keeps (fun table inst mem table' kept recorded => ?_) init ran
  obtain ⟨binding, bound, recorded⟩ := bind_eq_ok.mp recorded
  obtain ⟨⟨table', _⟩, staged, recorded⟩ := bind_eq_ok.mp recorded
  cases recorded
  refine foldlM_ok_invariant (fun cursor => keeps cursor.1)
    (fun cursor stage stageMem cursor' kept stepped => ?_) kept staged
  unfold recordStage at stepped
  split_ifs at stepped
  · exact foldlM_ok_invariant (fun cursor => keeps cursor.1)
      (fun ⟨table, spaceIdx, reduceIdx⟩ iter iterMem _ =>
        step inst mem binding bound stage stageMem iter iterMem table spaceIdx reduceIdx _)
      kept stepped
  · cases stepped
    exact kept

theorem collectExtents_sized {task : SearchTask} {spaceDims reduceDims : Nat}
    {table : ExtentTable} (ran : collectExtents task spaceDims reduceDims = .ok table) :
    table.spaceMax.length = spaceDims ∧ table.space.length = spaceDims ∧
      table.reduce.length = reduceDims := by
  refine collectExtents_invariant (fun table => table.spaceMax.length = spaceDims ∧
      table.space.length = spaceDims ∧ table.reduce.length = reduceDims)
    (by simp [ExtentTable.init]) (fun _ _ _ _ _ _ iter _ table _ _ _ kept recorded => ?_) ran
  obtain ⟨extent, -, ⟨-, maxima, all, stored, rfl⟩ | ⟨-, maxima, all, stored, rfl⟩⟩ :=
    recordIterator_ok recorded
  · obtain ⟨maximaLength, allLength, -⟩ := recordExtent_ok stored
    exact ⟨maximaLength.trans kept.1, allLength.trans kept.2.1, kept.2.2⟩
  · obtain ⟨-, allLength, -⟩ := recordExtent_ok stored
    exact ⟨kept.1, kept.2.1, allLength.trans kept.2.2⟩

theorem collectExtents_reduce_positive {task : SearchTask} {spaceDims reduceDims : Nat}
    {table : ExtentTable} (positive : ExtentsPositive task)
    (ran : collectExtents task spaceDims reduceDims = .ok table) :
    ∀ (d : Nat) extents, table.reduce[d]? = some extents → ∀ extent ∈ extents, 1 ≤ extent := by
  refine collectExtents_invariant (fun table => ∀ (d : Nat) extents,
      table.reduce[d]? = some extents → ∀ extent ∈ extents, 1 ≤ extent) ?_
    (fun inst mem binding bound stage stageMem iter iterMem table _ _ _ kept recorded => ?_) ran
  · intro d extents found extent member
    simp only [ExtentTable.init, List.getElem?_replicate] at found
    split_ifs at found
    cases found
    cases member
  · obtain ⟨extent, evaluated, ⟨-, maxima, all, -, rfl⟩ | ⟨-, maxima, all, stored, rfl⟩⟩ :=
      recordIterator_ok recorded
    · exact kept
    · intro d extents found value member
      rcases (recordExtent_ok stored).2.2.2 d extents found with old | ⟨old, oldFound, rfl⟩
      · exact kept d extents old value member
      · rcases List.mem_append.mp member with earlier | last
        · exact kept d old oldFound value earlier
        · rw [List.mem_singleton.mp last]
          exact positive inst mem binding bound stage stageMem iter iterMem extent evaluated

/-- Within one workload instance, after the iterators `done`: `space_idx` counts their spatial
ones, and every largest space extent is the one before the instance or the extent of the
spatial iterator at its position. -/
def Tracks (binding : List (String × Int)) (before : ExtentTable) (done : List Iterator)
    (cursor : ExtentTable × Nat × Nat) : Prop :=
  cursor.2.1 = (done.filter (·.kind == .spatial)).length ∧
    ∀ (d : Nat) largest, cursor.1.spaceMax[d]? = some largest →
      before.spaceMax[d]? = some largest ∨
        ∃ iter, (done.filter (·.kind == .spatial))[d]? = some iter ∧
          iter.extent.eval binding = .ok largest

theorem Tracks.record {binding : List (String × Int)} {before : ExtentTable}
    {done : List Iterator} {cursor cursor' : ExtentTable × Nat × Nat} {iter : Iterator}
    (tracks : Tracks binding before done cursor)
    (recorded : recordIterator binding cursor iter = .ok cursor') :
    Tracks binding before (done ++ [iter]) cursor' := by
  obtain ⟨table, spaceIdx, reduceIdx⟩ := cursor
  obtain ⟨counted, largest⟩ := tracks
  dsimp only at counted largest
  obtain ⟨extent, evaluated, ⟨spatial, maxima, all, stored, rfl⟩ |
    ⟨spatial, maxima, all, -, rfl⟩⟩ := recordIterator_ok recorded
  · have appended : (done ++ [iter]).filter (·.kind == .spatial) =
        done.filter (·.kind == .spatial) ++ [iter] := by simp [spatial]
    refine ⟨by simp [appended, counted], fun d value found => ?_⟩
    rw [appended]
    rcases (recordExtent_ok stored).2.2.1 d value found with old | ⟨rfl, rfl⟩
    · refine (largest d value old).imp_right fun ⟨iter', listed, evaluated'⟩ => ⟨iter', ?_,
        evaluated'⟩
      rw [List.getElem?_append_left (List.getElem?_eq_some_iff.mp listed).1]
      exact listed
    · exact .inr ⟨iter, by rw [counted, List.getElem?_concat_length], evaluated⟩
  · have kept : (done ++ [iter]).filter (·.kind == .spatial) =
        done.filter (·.kind == .spatial) := by simp [spatial]
    rw [Tracks, kept]
    exact ⟨counted, largest⟩

theorem recordInstance_spaceMax {shapeVars : List String} {stages : List Stage}
    {before after : ExtentTable} {inst : List Int}
    (recorded : recordInstance shapeVars stages before inst = .ok after) :
    ∀ (d : Nat) largest, after.spaceMax[d]? = some largest → before.spaceMax[d]? = some largest ∨
      ∃ binding iter, bindShapeVars shapeVars inst = .ok binding ∧
        (alignedSpaceIters stages)[d]? = some iter ∧ iter.extent.eval binding = .ok largest := by
  obtain ⟨binding, bound, recorded⟩ := bind_eq_ok.mp recorded
  obtain ⟨⟨table, spaceIdx, reduceIdx⟩, staged, recorded⟩ := bind_eq_ok.mp recorded
  cases recorded
  have tracked := foldlM_ok_visited
    (fun done cursor => Tracks binding before ((done.filter Stage.hasReduceIter).flatMap
      Stage.iters) cursor)
    (fun done cursor stage cursor' tracks stepped => by
      unfold recordStage at stepped
      split_ifs at stepped with reducing
      · have grown := foldlM_ok_prefix (Tracks binding before)
          (fun _ _ _ _ tracks recorded => tracks.record recorded) tracks stepped
        simpa [reducing] using grown
      · cases stepped
        simpa [reducing] using tracks)
    ⟨rfl, fun _ _ found => .inl found⟩ staged
  intro d largest found
  exact (tracked.2 d largest found).imp_right fun ⟨iter, listed, evaluated⟩ =>
    ⟨binding, iter, bound, listed, evaluated⟩

theorem collectExtents_spaceMax {task : SearchTask} {spaceDims reduceDims : Nat}
    {table : ExtentTable} (ran : collectExtents task spaceDims reduceDims = .ok table) :
    ∀ (d : Nat) largest, table.spaceMax[d]? = some largest → largest = 0 ∨
      ∃ inst ∈ task.wklInsts, ∃ binding iter, bindShapeVars task.shapeVars inst = .ok binding ∧
        (alignedSpaceIters task.computeDag.stages)[d]? = some iter ∧
        iter.extent.eval binding = .ok largest := by
  refine foldlM_ok_invariant (fun (table : ExtentTable) => ∀ (d : Nat) largest,
      table.spaceMax[d]? = some largest → largest = 0 ∨ ∃ inst ∈ task.wklInsts, ∃ binding iter,
        bindShapeVars task.shapeVars inst = .ok binding ∧
        (alignedSpaceIters task.computeDag.stages)[d]? = some iter ∧
        iter.extent.eval binding = .ok largest)
    (fun before inst mem after kept recorded d largest found => ?_)
    (fun d largest found => ?_) ran
  · rcases recordInstance_spaceMax recorded d largest found with old | ⟨binding, iter, instanceOk⟩
    · exact kept d largest old
    · exact .inr ⟨inst, mem, binding, iter, instanceOk⟩
  · simp only [ExtentTable.init, List.getElem?_replicate] at found
    split_ifs at found
    exact .inl (Option.some.inj found).symm

theorem needAlignSpaceIdx_mem {spaceNames : List String} {extractors : List (List ProducerLoad)}
    {aligned : List Nat} (ran : needAlignSpaceIdx spaceNames extractors = .ok aligned)
    {load : ProducerLoad} (mem : load ∈ extractors.flatten) {name : String} {d : Nat}
    (innermost : load.indices.getLast? = some (.var name))
    (position : spaceNames.findIdx? (· == name) = some d) : d ∈ aligned := by
  refine foldlM_ok_visited (fun done (found : List Nat) => ∀ load ∈ done, ∀ name d,
      load.indices.getLast? = some (.var name) → spaceNames.findIdx? (· == name) = some d →
        d ∈ found) (fun done found load next kept stepped => ?_) (by simp) ran load mem name d
    innermost position
  split_ifs at stepped with empty
  · cases stepped
    intro other member name' d' last position'
    rcases List.mem_append.mp member with old | new
    · exact kept other old name' d' last position'
    · rw [List.isEmpty_iff.mp empty, List.findIdx?_nil] at position'
      cases position'
  · obtain ⟨index, read, stepped⟩ := bind_eq_ok.mp stepped
    have grown : ∀ x ∈ found, x ∈ next := by
      cases index with
      | other => cases stepped
      | var n =>
        cases looked : spaceNames.findIdx? (· == n) <;> simp only [looked] at stepped <;>
          cases stepped <;> simp_all
    intro other member name' d' last position'
    rcases List.mem_append.mp member with old | new
    · exact grown _ (kept other old name' d' last position')
    · obtain rfl := List.mem_singleton.mp new
      rw [List.getLast?_eq_getElem?] at last
      rw [readAt_eq_ok_iff.mpr last] at read
      cases read
      simp only [position'] at stepped
      cases stepped
      exact List.mem_append_right _ (List.mem_singleton_self _)

theorem getAlignedTile_register {utils : Utils} {task : SearchTask} {sbase rbase : List Int}
    {extractors : List (List ProducerLoad)} {fuel : Nat} {tiles : List (List Int) × List (List Int)}
    (ran : getAlignedTile utils task sbase rbase 2 extractors fuel = .ok tiles) :
    ∃ table, collectExtents task sbase.length rbase.length = .ok table ∧
      tiles.1.length = min sbase.length (min table.spaceMax.length table.space.length) ∧
      tiles.2 = rbase.map (fun _ => [1]) ∧
      ∀ (d : Nat) register, tiles.1[d]? = some register → ∃ base maxExtent,
        sbase[d]? = some base ∧ table.spaceMax[d]? = some maxExtent ∧
          (register ≠ [] → base * 1 ≤ maxExtent) := by
  obtain ⟨table, tabled, ran⟩ := bind_eq_ok.mp ran
  obtain ⟨aligned, -, ran⟩ := bind_eq_ok.mp ran
  simp only [if_true] at ran
  cases ran
  refine ⟨table, tabled, by simp [List.length_zip, Nat.min_assoc], rfl, fun d register found => ?_⟩
  rw [List.getElem?_map] at found
  obtain ⟨⟨⟨base, maxExtent⟩, extents⟩, zipped, rfl⟩ := Option.map_eq_some'.mp found
  obtain ⟨pair, -⟩ := List.getElem?_zip_eq_some.mp zipped
  obtain ⟨baseFound, maxFound⟩ := List.getElem?_zip_eq_some.mp pair
  exact ⟨base, maxExtent, baseFound, maxFound, regTile_ne_nil⟩

theorem getAlignedTile_ones {utils : Utils} {task : SearchTask} {spaceDims reduceDims : Nat}
    {extractors : List (List ProducerLoad)} {fuel : Nat} {tiles : List (List Int) × List (List Int)}
    (ran : getAlignedTile utils task (List.replicate spaceDims 1) (List.replicate reduceDims 1) 2
      extractors fuel = .ok tiles) :
    ∃ table, collectExtents task spaceDims reduceDims = .ok table ∧
      tiles.1.length = spaceDims ∧ tiles.2 = List.replicate reduceDims [1] ∧
      ∀ (d : Nat) register, tiles.1[d]? = some register → register ≠ [] →
        ∃ largest, table.spaceMax[d]? = some largest ∧ 1 ≤ largest := by
  obtain ⟨table, collected, spaceLength, reduceSet, bounded⟩ := getAlignedTile_register ran
  rw [List.length_replicate, List.length_replicate] at collected
  obtain ⟨spaceMaxSized, spaceSized, -⟩ := collectExtents_sized collected
  refine ⟨table, collected, by simp [spaceLength, spaceMaxSized, spaceSized],
    by rw [reduceSet, List.map_replicate], fun d register found nonempty => ?_⟩
  obtain ⟨base, largest, baseFound, largestFound, within⟩ := bounded d register found
  rw [List.getElem?_replicate] at baseFound
  split_ifs at baseFound
  cases baseFound
  exact ⟨largest, largestFound, by simpa using within nonempty⟩

theorem getAlignedTile_shared {utils : Utils} {task : SearchTask} {sbase rbase : List Int}
    {extractors : List (List ProducerLoad)} {fuel : Nat} {tiles : List (List Int) × List (List Int)}
    (ran : getAlignedTile utils task sbase rbase 1 extractors fuel = .ok tiles) :
    ∃ table aligned transactionNum,
      collectExtents task sbase.length rbase.length = .ok table ∧
      needAlignSpaceIdx (iterNames task.computeDag.stages).1 extractors = .ok aligned ∧
      (∀ transactionSize tensorTypeSize,
        task.hardwareApi.transactionSize[0]? = some transactionSize →
        task.computeDag.tensorTypeSize = .ok tensorTypeSize →
          transactionNum = transactionSize.tdiv tensorTypeSize) ∧
      tiles.1.length = min sbase.length table.spaceMax.length ∧
      tiles.2.length = min rbase.length table.reduce.length ∧
      (∀ (d : Nat) shared, tiles.1[d]? = some shared → ∃ base maxExtent,
        sbase[d]? = some base ∧ table.spaceMax[d]? = some maxExtent ∧
          ∀ tile ∈ shared, base ∣ tile ∧ tile < maxExtent ∧ (d ∈ aligned → transactionNum ∣ tile)) ∧
      ∀ (d : Nat) shared, tiles.2[d]? = some shared → ∃ base extents,
        rbase[d]? = some base ∧ table.reduce[d]? = some extents ∧
          reduceSmemTile fuel transactionNum base extents = .ok shared := by
  obtain ⟨table, tabled, ran⟩ := bind_eq_ok.mp ran
  obtain ⟨aligned, alignedOk, ran⟩ := bind_eq_ok.mp ran
  simp only [show (1 : Int) ≠ 2 by decide, if_false, if_true] at ran
  obtain ⟨tensorTypeSize, elementSize, ran⟩ := bind_eq_ok.mp ran
  obtain ⟨transactionSize, transactionRead, ran⟩ := bind_eq_ok.mp ran
  obtain ⟨transactionNum, divided, ran⟩ := bind_eq_ok.mp ran
  obtain ⟨spaceTiles, spaced, ran⟩ := bind_eq_ok.mp ran
  obtain ⟨reduceTiles, reduced, ran⟩ := bind_eq_ok.mp ran
  cases ran
  refine ⟨table, aligned, transactionNum, tabled, alignedOk, fun size width sizeRead widthOk => ?_,
    by simp [mapM_ok_length spaced, List.length_zip], by simp [mapM_ok_length reduced,
      List.length_zip], fun d shared found => ?_, fun d shared found => ?_⟩
  · rw [readAt_eq_ok_iff, sizeRead, Option.some.injEq] at transactionRead
    rw [elementSize, Except.ok.injEq] at widthOk
    subst transactionRead widthOk
    unfold cDiv at divided
    split_ifs at divided
    exact (Except.ok.inj divided).symm
  · obtain ⟨⟨i, base, maxExtent⟩, listed, computed⟩ := mapM_ok_getElem?_result spaced found
    rw [List.getElem?_enum] at listed
    obtain ⟨⟨base', maxExtent'⟩, zipped, same⟩ := Option.map_eq_some'.mp listed
    cases same
    obtain ⟨baseFound, maxFound⟩ := List.getElem?_zip_eq_some.mp zipped
    refine ⟨base, maxExtent, baseFound, maxFound, ?_⟩
    dsimp only at computed
    split_ifs at computed with isAligned
    · obtain ⟨lcm, lcmOk, computed⟩ := bind_eq_ok.mp computed
      cases computed
      obtain ⟨baseDvd, transactionDvd⟩ := dvd_of_lcm_ok lcmOk
      intro tile mem
      obtain ⟨divides, below⟩ := mem_smemTile mem
      exact ⟨Int.dvd_trans baseDvd divides, below, fun _ => Int.dvd_trans transactionDvd divides⟩
    · cases computed
      intro tile mem
      obtain ⟨divides, below⟩ := mem_smemTile mem
      exact ⟨divides, below, fun inAligned => absurd inAligned isAligned⟩
  · obtain ⟨⟨base, extents⟩, listed, computed⟩ := mapM_ok_getElem?_result reduced found
    obtain ⟨baseFound, extentsFound⟩ := List.getElem?_zip_eq_some.mp listed
    exact ⟨base, extents, baseFound, extentsFound, computed⟩

end FTuner
