import FTuner.Hardware.ConfigFilter

namespace FTuner

/-! # Enumerating hardware-aligned configurations

`GetNextConfig`/`HasNextConfig` walk the cartesian product of the per-dimension tile lists as
an odometer: the last space iterator moves fastest, a carry out of the first space iterator
moves the reduce iterators, and a rejected tuple sends the last space iterator to its end.
`EmitConfig` runs that walk once per memory level, from `num_level` down to 1.  An iterator is
modelled by its position in its list; dereferencing one at its end is an out-of-range read.
-/

structure Odometer where
  spacePtr : List Nat
  reducePtr : List Nat
  deriving DecidableEq, Repr

/-- `ptr[index]++`. -/
def bump (ptr : List Nat) (index : Nat) (what : String) : Except Fault (List Nat) := do
  writeAt ptr index ((← readAt ptr index what) + 1) what

/-- The carry through the reduce iterators, from position `j` down: an iterator at its end is
reset and moves its left neighbour, except the first, which stays at its end. -/
def carryReduce (reduceTiles : List (List Int)) : Nat → List Nat → Except Fault (List Nat)
  | 0, reducePtr => do
      let _ ← readAt reduceTiles 0 "reduce_tiles"
      let _ ← readAt reducePtr 0 "reduce_ptr"
      pure reducePtr
  | j + 1, reducePtr => do
      let tiles ← readAt reduceTiles (j + 1) "reduce_tiles"
      if (← readAt reducePtr (j + 1) "reduce_ptr") = tiles.length then
        let reset ← writeAt reducePtr (j + 1) 0 "reduce_ptr"
        carryReduce reduceTiles j (← bump reset j "reduce_ptr")
      else pure reducePtr

/-- The carry through the space iterators, from position `i` down; a carry out of the first
one moves the last reduce iterator. -/
def carrySpace (spaceTiles reduceTiles : List (List Int)) :
    Nat → Odometer → Except Fault Odometer
  | 0, odometer => do
      let tiles ← readAt spaceTiles 0 "space_tiles"
      if (← readAt odometer.spacePtr 0 "space_ptr") = tiles.length then
        let spacePtr ← writeAt odometer.spacePtr 0 0 "space_ptr"
        let last := odometer.reducePtr.length - 1
        let reducePtr ← carryReduce reduceTiles last (← bump odometer.reducePtr last "reduce_ptr")
        pure ⟨spacePtr, reducePtr⟩
      else pure odometer
  | i + 1, odometer => do
      let tiles ← readAt spaceTiles (i + 1) "space_tiles"
      if (← readAt odometer.spacePtr (i + 1) "space_ptr") = tiles.length then
        let reset ← writeAt odometer.spacePtr (i + 1) 0 "space_ptr"
        carrySpace spaceTiles reduceTiles i { odometer with spacePtr := ← bump reset i "space_ptr" }
      else pure odometer

/-- `SketchPolicyNode::GetNextConfig`: filter the tuple under the iterators, then advance. -/
def getNextConfig (utils : Utils) (task : SearchTask) (pnext : List HwAlignedConfig)
    (extractors : List (List ProducerLoad)) (baseConfig : HwAlignedConfig) (memLevel : Int)
    (odometer : Odometer) (spaceTiles reduceTiles : List (List Int)) :
    Except Fault (List HwAlignedConfig × Odometer) := do
  let spaceTile ← (odometer.spacePtr.zip spaceTiles).mapM fun (ptr, tiles) =>
    readAt tiles ptr "*space_ptr"
  let reduceTile ← (odometer.reducePtr.zip reduceTiles).mapM fun (ptr, tiles) =>
    readAt tiles ptr "*reduce_ptr"
  let last := odometer.spacePtr.length - 1
  let spacePtr ← bump odometer.spacePtr last "space_ptr"
  let filtered ← configFilter utils task pnext baseConfig extractors spaceTile reduceTile memLevel
  let spacePtr ← if filtered.length = pnext.length then do
      writeAt spacePtr last (← readAt spaceTiles last "space_tiles").length "space_ptr"
    else pure spacePtr
  pure (filtered, ← carrySpace spaceTiles reduceTiles last ⟨spacePtr, odometer.reducePtr⟩)

/-- `HasNextConfig`: the first reduce iterator is not at its end. -/
def hasNextConfig (reducePtr : List Nat) (reduceTiles : List (List Int)) : Except Fault Bool := do
  pure ((← readAt reducePtr 0 "reduce_ptr") != (← readAt reduceTiles 0 "reduce_tiles").length)

/-- `while (HasNextConfig(reduce_ptr, reduce_tiles)) GetNextConfig(...)`. -/
def configLoop (utils : Utils) (task : SearchTask) (extractors : List (List ProducerLoad))
    (baseConfig : HwAlignedConfig) (memLevel : Int) (spaceTiles reduceTiles : List (List Int)) :
    Nat → List HwAlignedConfig → Odometer → Except Fault (List HwAlignedConfig)
  | 0, _, _ => .error .outOfFuel
  | fuel + 1, pnext, odometer => do
      if ← hasNextConfig odometer.reducePtr reduceTiles then
        let (pnext, odometer) ← getNextConfig utils task pnext extractors baseConfig memLevel
          odometer spaceTiles reduceTiles
        configLoop utils task extractors baseConfig memLevel spaceTiles reduceTiles fuel pnext
          odometer
      else pure pnext

/-- A tile list with no candidate: the `has_zero_tiles` check of `EmitConfig`. -/
def hasZeroTiles (tiles : List (List Int) × List (List Int)) : Bool :=
  tiles.1.any (·.isEmpty) || tiles.2.any (·.isEmpty)

/-- The odometer at every `begin()`. -/
def Odometer.start (tiles : List (List Int) × List (List Int)) : Odometer :=
  ⟨tiles.1.map fun _ => 0, tiles.2.map fun _ => 0⟩

/-- One base config of the `else` branch of `EmitConfig`: its tiles at `mem_level` seed the
candidates, whose accepted configs are appended to `pnext`. -/
def extendBase (utils : Utils) (task : SearchTask) (extractors : List (List ProducerLoad))
    (memLevel : Int) (fuel : Nat) (pnext : List HwAlignedConfig) (baseConfig : HwAlignedConfig) :
    Except Fault (List HwAlignedConfig) := do
  let tiles ← getAlignedTile utils task
    (← readAt baseConfig.spaceTiles memLevel.toNat "space_tiles")
    (← readAt baseConfig.reduceTiles memLevel.toNat "reduce_tiles") memLevel extractors fuel
  if hasZeroTiles tiles then pure pnext
  else
    configLoop utils task extractors baseConfig memLevel tiles.1 tiles.2 fuel pnext
      (Odometer.start tiles)

/-- The `while (mem_level > 0)` loop of `EmitConfig`.  With no configs from the level above,
the all-ones base seeds the level; a zero-length tile list then `continue`s without
decrementing `mem_level`.  `rounds` bounds this loop and `fuel` every inner one. -/
def levelLoop (utils : Utils) (task : SearchTask) (extractors : List (List ProducerLoad))
    (spaceDims reduceDims : Int) (fuel : Nat) :
    Nat → Int → List HwAlignedConfig → Except Fault (List HwAlignedConfig)
  | 0, _, _ => .error .outOfFuel
  | rounds + 1, memLevel, pnow =>
      if memLevel ≤ 0 then pure pnow
      else if pnow.isEmpty then do
        let tiles ← getAlignedTile utils task (List.replicate spaceDims.toNat 1)
          (List.replicate reduceDims.toNat 1) memLevel extractors fuel
        if hasZeroTiles tiles then
          levelLoop utils task extractors spaceDims reduceDims fuel rounds memLevel pnow
        else
          let pnext ← configLoop utils task extractors HwAlignedConfig.empty memLevel tiles.1
            tiles.2 fuel [] (Odometer.start tiles)
          levelLoop utils task extractors spaceDims reduceDims fuel rounds (memLevel - 1) pnext
      else do
        let pnext ← pnow.foldlM (extendBase utils task extractors memLevel fuel) []
        levelLoop utils task extractors spaceDims reduceDims fuel rounds (memLevel - 1) pnext

/-- `SketchPolicyNode::EmitConfig(space_dims, reduce_dims)`, every loop bounded by `fuel`. -/
def emitConfig (utils : Utils) (task : SearchTask) (spaceDims reduceDims : Int) (fuel : Nat) :
    Except Fault (List HwAlignedConfig) := do
  let extractors ← exprExtractor task.computeDag.stages
  levelLoop utils task extractors spaceDims reduceDims fuel fuel task.hardwareApi.numLevel []

/-- The matmul alone, on a descriptor whose `transaction_size[0]` (2 bytes) is below the
4-byte element size, so that `transaction_num` is 0. -/
def matmulNarrowTransactions : SearchTask :=
  { computeDag := ⟨[.placeholder, .placeholder, .compute [4, 4]], [⟨[], []⟩, ⟨[], []⟩, matmulStage]⟩
    shapeVars := []
    wklInsts := [[]]
    hardwareApi := { sampleHardwareApi with transactionSize := [2] } }

def matmulTask : SearchTask :=
  { matmulNarrowTransactions with hardwareApi := sampleHardwareApi }

def matmulLoads : List (List ProducerLoad) :=
  [[⟨"A", [.var "i", .var "k"]⟩, ⟨"B", [.var "k", .var "j"]⟩]]

theorem matmulNarrowTransactions_never_tiles (utils : Utils) (fuel : Nat) (iTile jTile : Int) :
    exprExtractor matmulNarrowTransactions.computeDag.stages = .ok matmulLoads ∧
    (getAlignedTile utils matmulNarrowTransactions [iTile, jTile] [1] 1 matmulLoads fuel =
        .error .outOfFuel ∨
      getAlignedTile utils matmulNarrowTransactions [iTile, jTile] [1] 1 matmulLoads fuel =
        .error (.fatal "division by zero")) := by
  have names : iterNames matmulNarrowTransactions.computeDag.stages = (["i", "j"], ["k"]) := by
    decide
  have extents : collectExtents matmulNarrowTransactions 2 1 =
      .ok ⟨[64, 64], [64], [[64], [64]], [[64]]⟩ := by decide
  have aligned : needAlignSpaceIdx ["i", "j"] matmulLoads = .ok [1] := by decide
  have elementSize : matmulNarrowTransactions.computeDag.tensorTypeSize = .ok 4 := by decide
  have transaction : readAt matmulNarrowTransactions.hardwareApi.transactionSize 0
      "transaction_size" = .ok 2 := by decide
  have gcd : stdGcd jTile 0 = jTile := by simp [stdGcd, stdGcd.go]
  have transactionNum : Int.tdiv 2 4 = 0 := by decide
  have looping : reduceSmemTile fuel 0 1 [64] = .error .outOfFuel :=
    reduceSmemTile_zero_transactions (by omega) (by omega) fuel
  refine ⟨by decide, ?_⟩
  by_cases zero : jTile = 0
  · right
    subst zero
    simp [getAlignedTile, names, extents, aligned, elementSize, transaction, cDiv, gcd,
      transactionNum, List.enum, List.enumFrom, List.mapM.loop]
  · left
    simp [getAlignedTile, names, extents, aligned, elementSize, transaction, cDiv, gcd, zero,
      transactionNum, List.enum, List.enumFrom, List.mapM.loop, looping]

end FTuner
