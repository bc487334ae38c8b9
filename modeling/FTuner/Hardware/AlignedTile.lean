import FTuner.Workload.Dag

namespace FTuner

/-! # Aligned tile candidates

`SketchPolicyNode::GetAlignedTile` and `MemFootPrint`.  `GetAlignedTile` first reads the DAG
three times: the name lists of the first stage with a reduction iterator, the extents of the
iterators of every such stage under every workload instance, and the dimensions that the
innermost index of a load makes coalesced.  It then offers the register-level (`mem_level`
2) or shared-memory-level (`mem_level` 1) tile candidates of every dimension.
-/

/-- The per-dimension extent tables of `GetAlignedTile`: `space_max_extent`,
`reduce_max_extent`, `space_extent` and `reduce_extent`. -/
structure ExtentTable where
  spaceMax : List Int
  reduceMax : List Int
  space : List (List Int)
  reduce : List (List Int)
  deriving DecidableEq, Repr

def ExtentTable.init (spaceDims reduceDims : Nat) : ExtentTable :=
  ⟨List.replicate spaceDims 0, List.replicate reduceDims 0, List.replicate spaceDims [],
    List.replicate reduceDims []⟩

/-- `if (extent > max[index]) max[index] = extent; all[index].push_back(extent);` -/
def recordExtent (maxima : List Int) (all : List (List Int)) (index : Nat) (extent : Int)
    (what : String) : Except Fault (List Int × List (List Int)) := do
  let current ← readAt maxima index what
  let maxima ← if extent > current then writeAt maxima index extent what else pure maxima
  let seen ← readAt all index what
  let all ← writeAt all index (seen ++ [extent]) what
  pure (maxima, all)

/-- One iterator of the extent loop; `space_idx` and `reduce_idx` only ever grow, and every
iterator that is not spatial is recorded as a reduction one. -/
def recordIterator (binding : List (String × Int)) (cursor : ExtentTable × Nat × Nat)
    (iter : Iterator) : Except Fault (ExtentTable × Nat × Nat) := do
  let (table, spaceIdx, reduceIdx) := cursor
  let extent ← iter.extent.eval binding
  if iter.kind == .spatial then
    let (maxima, all) ← recordExtent table.spaceMax table.space spaceIdx extent "space_max_extent"
    pure ({ table with spaceMax := maxima, space := all }, spaceIdx + 1, reduceIdx)
  else
    let (maxima, all) ←
      recordExtent table.reduceMax table.reduce reduceIdx extent "reduce_max_extent"
    pure ({ table with reduceMax := maxima, reduce := all }, spaceIdx, reduceIdx + 1)

/-- The stage loop for one workload instance: every stage with a reduction iterator. -/
def recordStage (binding : List (String × Int)) (cursor : ExtentTable × Nat × Nat)
    (stage : Stage) : Except Fault (ExtentTable × Nat × Nat) :=
  if stage.hasReduceIter then stage.iters.foldlM (recordIterator binding) cursor
  else .ok cursor

def recordInstance (shapeVars : List String) (stages : List Stage) (table : ExtentTable)
    (wklInst : List Int) : Except Fault ExtentTable := do
  let binding ← bindShapeVars shapeVars wklInst
  let (table, _, _) ← stages.foldlM (recordStage binding) (table, 0, 0)
  pure table

/-- The extent loop of `GetAlignedTile` over all workload instances, into tables sized by the
base tiles. -/
def collectExtents (task : SearchTask) (spaceDims reduceDims : Nat) :
    Except Fault ExtentTable :=
  task.wklInsts.foldlM (recordInstance task.shapeVars task.computeDag.stages)
    (ExtentTable.init spaceDims reduceDims)

/-- `need_align_space_idx`: for every load, the position in `space_names` of its innermost
index.  The index is only read when `space_names` is not empty. -/
def needAlignSpaceIdx (spaceNames : List String) (extractors : List (List ProducerLoad)) :
    Except Fault (List Nat) :=
  extractors.flatten.foldlM (fun aligned load =>
    if spaceNames.isEmpty then .ok aligned
    else do
      match ← readAt load.indices (load.indices.length - 1) "indices" with
      | .other => .error (.nullDeref "as<VarNode>()")
      | .var name =>
          match spaceNames.findIdx? (· == name) with
          | some position => .ok (aligned ++ [position])
          | none => .ok aligned) []

/-- `std::__gcd`: Euclid's loop on C++ remainders; the divisor's magnitude bounds its rounds. -/
def stdGcd (m n : Int) : Int :=
  go (n.natAbs + 1) m n
where
  go : Nat → Int → Int → Int
    | 0, m, _ => m
    | fuel + 1, m, n => if n = 0 then m else go fuel n (m.tmod n)

/-- C++ `int` division, which truncates and traps on a zero divisor. -/
def cDiv (numerator denominator : Int) : Except Fault Int :=
  if denominator = 0 then .error (.fatal "division by zero") else .ok (numerator.tdiv denominator)

/-- The register tiles of one spatial dimension: `sbase * j` for the multipliers `1` and
`GetPrimNumber(extents)`, up to the first that exceeds the largest extent. -/
def regTile (utils : Utils) (sbase maxExtent : Int) (extents : List Int) : List Int :=
  ((1 :: utils.getPrimNumber extents).takeWhile (fun j => sbase * j ≤ maxExtent)).map (sbase * ·)

/-- The shared-memory tiles of one spatial dimension: at most 32 multiples of `base`, up to the
first that reaches the largest extent. -/
def smemTile (base maxExtent : Int) : List Int :=
  ((List.range 32).map (fun j => base * (j + 1))).takeWhile (· < maxExtent)

/-- `while (rbase_dim <= rlen_cap)`, pushing `rbase_dim` and adding `transaction_num` to it. -/
def alignReduceLoop : Nat → Int → Int → Int → List Int → Except Fault (Int × List Int)
  | 0, _, _, _, _ => .error .outOfFuel
  | fuel + 1, transactionNum, cap, dim, tiles =>
      if dim ≤ cap then
        alignReduceLoop fuel transactionNum cap (dim + transactionNum) (tiles ++ [dim])
      else .ok (dim, tiles)

theorem alignReduceLoop_stalls {step cap : Int} (nonpositive : step ≤ 0) :
    ∀ fuel {dim : Int} tiles, dim ≤ cap →
      alignReduceLoop fuel step cap dim tiles = .error .outOfFuel
  | 0, _, _, _ => rfl
  | fuel + 1, dim, tiles, below => by
      rw [alignReduceLoop, if_pos below]
      exact alignReduceLoop_stalls nonpositive fuel (tiles ++ [dim]) (by omega)

/-- The shared-memory tiles of one reduction dimension: transaction multiples up to the running
minimum of its extents (capped at 32), and each such minimum itself. -/
def reduceSmemTile (fuel : Nat) (transactionNum rbase : Int) (extents : List Int) :
    Except Fault (List Int) := do
  let dim ← cDiv (rbase * transactionNum) (stdGcd rbase transactionNum)
  let (_, _, tiles) ← extents.foldlM (fun (loop : Int × Int × List Int) extent => do
      let (cap, dim, tiles) := loop
      let cap := min cap extent
      let (dim, tiles) ← alignReduceLoop fuel transactionNum cap dim tiles
      pure (cap, dim, if tiles.contains cap then tiles else tiles ++ [cap])) (32, dim, [])
  pure tiles

/-- `SketchPolicyNode::GetAlignedTile`: per-dimension tile candidates at `memLevel`, grown from
the base tiles `sbase` and `rbase`.  Every `while` loop is bounded by `fuel`. -/
def getAlignedTile (utils : Utils) (task : SearchTask) (sbase rbase : List Int) (memLevel : Int)
    (extractors : List (List ProducerLoad)) (fuel : Nat) :
    Except Fault (List (List Int) × List (List Int)) := do
  let (spaceNames, _) := iterNames task.computeDag.stages
  let table ← collectExtents task sbase.length rbase.length
  let aligned ← needAlignSpaceIdx spaceNames extractors
  if memLevel = 2 then
    let spaceTiles := ((sbase.zip table.spaceMax).zip table.space).map
      fun ((base, maxExtent), extents) => regTile utils base maxExtent extents
    pure (spaceTiles, rbase.map fun _ => [1])
  else if memLevel = 1 then
    let tensorTypeSize ← task.computeDag.tensorTypeSize
    let transactionNum ←
      cDiv (← readAt task.hardwareApi.transactionSize 0 "transaction_size") tensorTypeSize
    let spaceTiles ← (sbase.zip table.spaceMax).enum.mapM fun (i, base, maxExtent) =>
      if i ∈ aligned then do
        pure (smemTile (← cDiv (base * transactionNum) (stdGcd base transactionNum)) maxExtent)
      else pure (smemTile base maxExtent)
    let reduceTiles ← (rbase.zip table.reduce).mapM fun (base, extents) =>
      reduceSmemTile fuel transactionNum base extents
    pure (spaceTiles, reduceTiles)
  else pure ([], [])

/-- The factor one load index contributes to a footprint: the tile of the first name it
matches.  The index's `name_hint` is read only when `names` is not empty. -/
def scaleByName (names : List String) (tiles : List Int) (index : IndexExpr) (use : Int)
    (what : String) : Except Fault Int :=
  if names.isEmpty then .ok use
  else match index with
    | .other => .error (.nullDeref "as<VarNode>()")
    | .var name =>
        match names.findIdx? (· == name) with
        | some position => do pure (use * (← readAt tiles position what))
        | none => .ok use

/-- `MemFootPrint`: the product of the tiles of each distinct loaded producer's indices, summed;
at the register level overwritten by the product of the space tiles, and at the
shared-memory level scaled by the element size. -/
def memFootPrint (spaceNames reduceNames : List String) (extractors : List (List ProducerLoad))
    (spaceTiles reduceTiles : List Int) (memLevel tensorTypeSize : Int) : Except Fault Int := do
  let (_, regUse) ← extractors.foldlM (fun (footprint : List String × Int) extractor => do
      let (visited, regUse) ← extractor.foldlM (fun (footprint : List String × Int) load => do
          let (visited, regUse) := footprint
          if visited.contains load.producer then pure (visited, regUse)
          else
            let varRegUse ← load.indices.foldlM (fun use index => do
                let use ← scaleByName spaceNames spaceTiles index use "space_tiles"
                scaleByName reduceNames reduceTiles index use "reduce_tiles") 1
            pure (visited ++ [load.producer], regUse + varRegUse)) footprint
      pure (visited, if memLevel = 2 then spaceTiles.foldl (· * ·) 1 else regUse)) ([], 0)
  pure (if memLevel = 1 then regUse * tensorTypeSize else regUse)

theorem reduceSmemTile_zero_transactions {rbase extent : Int} {extents : List Int}
    (nonzero : rbase ≠ 0) (nonnegative : 0 ≤ extent) (fuel : Nat) :
    reduceSmemTile fuel 0 rbase (extent :: extents) = .error .outOfFuel := by
  have gcd : stdGcd rbase 0 = rbase := by simp [stdGcd, stdGcd.go]
  have capped : (0 : Int) ≤ min 32 extent := by omega
  have looping := alignReduceLoop_stalls (Int.le_refl 0) fuel [] capped
  simp [reduceSmemTile, cDiv, gcd, nonzero, List.foldlM, looping]

def matmulStage : Stage :=
  ⟨[⟨"i", .spatial, .const 64⟩, ⟨"j", .spatial, .const 64⟩, ⟨"k", .reduction, .const 64⟩],
    [.reduce [.mul (.load "A" [.var "i", .var "k"]) (.load "B" [.var "k", .var "j"])]]⟩

/-- The matmul followed by the row sum `D[i] = Σ j, C[i, j]`: two stages with a reduction
iterator. -/
def matmulRowSum : ComputeDag :=
  { ops := [.placeholder, .placeholder, .compute [4, 4], .compute [4]]
    stages := [⟨[], []⟩, ⟨[], []⟩, matmulStage,
      ⟨[⟨"i", .spatial, .const 64⟩, ⟨"j", .reduction, .const 64⟩],
        [.reduce [.load "C" [.var "i", .var "j"]]]⟩] }

/-- On `matmulRowSum`, `EfficientSearch` sizes the tiles by the last reduction stage (one space
and one reduce dimension) while `GetAlignedTile` and `ConfigFilter` name the first one's two
space iterators: the extent loop then writes `space_max_extent[1]` of a one-element vector, and
`MemFootPrint` reads `space_tiles[1]` of a one-element tile. -/
theorem matmulRowSum_reads_dims_inconsistently :
    efficientSearchDims matmulRowSum.stages = (1, 1) ∧
    iterNames matmulRowSum.stages = (["i", "j"], ["k"]) ∧
    collectExtents ⟨matmulRowSum, [], [[]], sampleHardwareApi⟩ 1 1 =
      .error (.outOfRange "space_max_extent") ∧
    memFootPrint ["i", "j"] ["k"]
        [[⟨"A", [.var "i", .var "k"]⟩, ⟨"B", [.var "k", .var "j"]⟩]] [1] [1] 2 4 =
      .error (.outOfRange "space_tiles") := by
  decide

end FTuner
