import FTuner.Hardware.ConfigWalk
import FTuner.Hardware.TileGeometry

namespace FTuner

/-! # What a two-level `EmitConfig` returns

With `num_level = 2`, `EmitConfig` seeds the register level with the all-ones base, keeps what
the walk over its tiles pushes, and extends each of those configs at the shared-memory level.
A run that reaches the shared-memory level with no register config seeds it from
`no_base_config`, whose empty `space_tiles` cannot be read, so it returns nothing.  Every
returned config is therefore pushed at level 1 over a config pushed at level 2, and carries
the capacity checks of both pushes and the geometry of both levels' tiles.
-/

/-- `config` is pushed by `ConfigFilter` at `memLevel`, over `baseConfig`, on a tuple of the
product of `tiles`, a walk over tile lists none of which is empty. -/
def PushedFrom (utils : Utils) (task : SearchTask) (extractors : List (List ProducerLoad))
    (baseConfig : HwAlignedConfig) (memLevel : Int) (tiles : List (List Int) × List (List Int))
    (config : HwAlignedConfig) : Prop :=
  tiles.1 ≠ [] ∧ tiles.2 ≠ [] ∧ ∃ spaceTile reduceTile out,
    (spaceTile, reduceTile) ∈ lexPairs tiles.1 tiles.2 ∧
    configFilter utils task [] baseConfig extractors spaceTile reduceTile memLevel = .ok out ∧
    config ∈ out

/-- What one level's walk pushes, in order: the configs `ConfigFilter` pushes on each tuple of the
pruned enumeration of `tiles`. -/
def walkPushes (utils : Utils) (task : SearchTask) (extractors : List (List ProducerLoad))
    (baseConfig : HwAlignedConfig) (memLevel : Int) (tiles : List (List Int) × List (List Int)) :
    Except Fault (List HwAlignedConfig) :=
  List.flatten <$> (prunedCalls (filterPushes utils task baseConfig extractors memLevel) tiles.1
    tiles.2).mapM fun tuple =>
      configFilter utils task [] baseConfig extractors tuple.1 tuple.2 memLevel

/-- What a level pushes over one config of the level above: the pruned walk over the tiles its own
tiles at that level seed, and nothing when a tile list is empty. -/
def basePushes (utils : Utils) (task : SearchTask) (extractors : List (List ProducerLoad))
    (memLevel : Int) (fuel : Nat) (baseConfig : HwAlignedConfig) :
    Except Fault (List HwAlignedConfig) := do
  let tiles ← getAlignedTile utils task
    (← readAt baseConfig.spaceTiles memLevel.toNat "space_tiles")
    (← readAt baseConfig.reduceTiles memLevel.toNat "reduce_tiles") memLevel extractors fuel
  if hasZeroTiles tiles then pure []
  else walkPushes utils task extractors baseConfig memLevel tiles

section Walk

variable {utils : Utils} {task : SearchTask} {extractors : List (List ProducerLoad)}
  {baseConfig : HwAlignedConfig} {memLevel : Int}

theorem getNextConfig_no_space (pnext : List HwAlignedConfig) (odometer : Odometer)
    (reduceTiles : List (List Int)) (result : List HwAlignedConfig × Odometer)
    (empty : odometer.spacePtr = []) :
    getNextConfig utils task pnext extractors baseConfig memLevel odometer [] reduceTiles ≠
      .ok result := by
  unfold getNextConfig
  refine bind_ne_ok fun _ => bind_ne_ok fun _ => ?_
  simp [bump, readAt, empty]

theorem configLoop_walk {tiles : List (List Int) × List (List Int)} {fuel : Nat}
    {pnext result : List HwAlignedConfig} (offered : hasZeroTiles tiles = false)
    (ran : configLoop utils task extractors baseConfig memLevel tiles.1 tiles.2 fuel pnext
      (Odometer.start tiles) = .ok result) :
    tiles.1 ≠ [] ∧ tiles.2 ≠ [] ∧ ∃ pushes,
      walkPushes utils task extractors baseConfig memLevel tiles = .ok pushes ∧
      result = pnext ++ pushes := by
  obtain ⟨spaceTiles, reduceTiles⟩ := tiles
  have nonempty : ∀ each ∈ spaceTiles ++ reduceTiles, each ≠ [] := by
    simp only [hasZeroTiles, Bool.or_eq_false_iff, List.any_eq_false, List.isEmpty_iff] at offered
    intro each mem
    rcases List.mem_append.mp mem with space | reduce
    exacts [offered.1 each space, offered.2 each reduce]
  by_cases hasReduce : reduceTiles = []
  · subst hasReduce
    cases fuel <;> simp [configLoop, hasNextConfig, readAt, Odometer.start] at ran
  obtain ⟨first, rest, rfl⟩ := List.exists_cons_of_ne_nil hasReduce
  by_cases hasSpace : spaceTiles = []
  · subst hasSpace
    cases fuel with
    | zero => cases ran
    | succ fuel =>
      have firstNonempty : first ≠ [] := nonempty first (by simp)
      have more : hasNextConfig (Odometer.start ([], first :: rest)).reducePtr (first :: rest) =
          .ok true := by
        simp only [hasNextConfig, Odometer.start, List.map_cons, readAt, List.getElem?_cons_zero,
          ok_bind, pure_eq_ok, Except.ok.injEq, bne_iff_ne]
        exact fun same => firstNonempty (List.length_eq_zero.mp same.symm)
      rw [configLoop, more, ok_bind, if_pos rfl] at ran
      obtain ⟨next, stepped, -⟩ := bind_eq_ok.mp ran
      exact absurd stepped (getNextConfig_no_space _ _ _ _ rfl)
  have started := configLoop_start utils task extractors baseConfig memLevel hasSpace hasReduce
    nonempty fuel pnext
  rw [started] at ran
  dsimp only at ran
  split_ifs at ran
  · obtain ⟨pushes, pushesOk, rfl⟩ :=
      foldlM_ok_append (fun _ _ _ filtered => configFilter_ok_append filtered) ran
    exact ⟨hasSpace, hasReduce, pushes.flatten, by rw [walkPushes, pushesOk]; rfl, rfl⟩
  · exact absurd ran (bind_ne_ok fun _ => by simp)

theorem walkPushes_mem {tiles : List (List Int) × List (List Int)}
    {pushes : List HwAlignedConfig} (hasSpace : tiles.1 ≠ [])
    (walked : walkPushes utils task extractors baseConfig memLevel tiles = .ok pushes)
    {config : HwAlignedConfig} (mem : config ∈ pushes) :
    ∃ spaceTile reduceTile out, (spaceTile, reduceTile) ∈ lexPairs tiles.1 tiles.2 ∧
      configFilter utils task [] baseConfig extractors spaceTile reduceTile memLevel = .ok out ∧
      config ∈ out := by
  unfold walkPushes at walked
  cases listed : (prunedCalls (filterPushes utils task baseConfig extractors memLevel) tiles.1
      tiles.2).mapM fun tuple =>
        configFilter utils task [] baseConfig extractors tuple.1 tuple.2 memLevel with
  | error fault => rw [listed] at walked; cases walked
  | ok lists =>
    rw [listed, map_ok, Except.ok.injEq] at walked
    subst walked
    obtain ⟨out, outMem, inOut⟩ := List.mem_flatten.mp mem
    obtain ⟨tuple, called, pushed⟩ := mapM_ok_mem_result listed outMem
    exact ⟨tuple.1, tuple.2, out, (prunedCalls_sublist _ hasSpace).subset called, pushed, inOut⟩

theorem configLoop_pushed {tiles : List (List Int) × List (List Int)} {fuel : Nat}
    {pnext result : List HwAlignedConfig} (offered : hasZeroTiles tiles = false)
    (ran : configLoop utils task extractors baseConfig memLevel tiles.1 tiles.2 fuel pnext
      (Odometer.start tiles) = .ok result) :
    ∀ config ∈ result, config ∈ pnext ∨
      PushedFrom utils task extractors baseConfig memLevel tiles config := by
  obtain ⟨hasSpace, hasReduce, pushes, walked, rfl⟩ := configLoop_walk offered ran
  intro config mem
  exact (List.mem_append.mp mem).imp_right fun pushed =>
    ⟨hasSpace, hasReduce, walkPushes_mem hasSpace walked pushed⟩

theorem extendBase_mem {fuel : Nat} {pnext result : List HwAlignedConfig} {base : HwAlignedConfig}
    (ran : extendBase utils task extractors memLevel fuel pnext base = .ok result) :
    ∀ config ∈ result, config ∈ pnext ∨ ∃ sbase rbase tiles,
      base.spaceTiles[memLevel.toNat]? = some sbase ∧
      base.reduceTiles[memLevel.toNat]? = some rbase ∧
      getAlignedTile utils task sbase rbase memLevel extractors fuel = .ok tiles ∧
      PushedFrom utils task extractors base memLevel tiles config := by
  obtain ⟨sbase, spaceRead, ran⟩ := bind_eq_ok.mp ran
  obtain ⟨rbase, reduceRead, ran⟩ := bind_eq_ok.mp ran
  obtain ⟨tiles, aligned, ran⟩ := bind_eq_ok.mp ran
  split_ifs at ran with zero
  · cases ran
    exact fun config mem => .inl mem
  · exact fun config mem => (configLoop_pushed (by simpa using zero) ran config mem).imp_right
      fun pushed => ⟨sbase, rbase, tiles, readAt_eq_ok_iff.mp spaceRead,
        readAt_eq_ok_iff.mp reduceRead, aligned, pushed⟩

theorem extendBase_walk {fuel : Nat} {pnext result : List HwAlignedConfig}
    {base : HwAlignedConfig}
    (ran : extendBase utils task extractors memLevel fuel pnext base = .ok result) :
    ∃ pushed, basePushes utils task extractors memLevel fuel base = .ok pushed ∧
      result = pnext ++ pushed := by
  obtain ⟨sbase, spaceRead, ran⟩ := bind_eq_ok.mp ran
  obtain ⟨rbase, reduceRead, ran⟩ := bind_eq_ok.mp ran
  obtain ⟨tiles, aligned, ran⟩ := bind_eq_ok.mp ran
  unfold basePushes
  rw [spaceRead, ok_bind, reduceRead, ok_bind, aligned, ok_bind]
  split_ifs at ran ⊢ with zero
  · cases ran
    exact ⟨[], rfl, (List.append_nil _).symm⟩
  · obtain ⟨-, -, pushes, walked, rfl⟩ := configLoop_walk (by simpa using zero) ran
    exact ⟨pushes, walked, rfl⟩

theorem foldlM_extendBase_mem {fuel : Nat} :
    ∀ {bases pnext result : List HwAlignedConfig},
      bases.foldlM (extendBase utils task extractors memLevel fuel) pnext = .ok result →
      ∀ config ∈ result, config ∈ pnext ∨ ∃ base ∈ bases, ∃ sbase rbase tiles,
        base.spaceTiles[memLevel.toNat]? = some sbase ∧
        base.reduceTiles[memLevel.toNat]? = some rbase ∧
        getAlignedTile utils task sbase rbase memLevel extractors fuel = .ok tiles ∧
        PushedFrom utils task extractors base memLevel tiles config
  | [], _, _, ran, config, mem => by cases ran; exact .inl mem
  | base :: _, _, _, ran, config, mem => by
      obtain ⟨middle, extended, ran⟩ := bind_eq_ok.mp ran
      rcases foldlM_extendBase_mem ran config mem with old | ⟨other, otherMem, later⟩
      · exact (extendBase_mem extended config old).imp_right
          fun found => ⟨base, List.mem_cons_self _ _, found⟩
      · exact .inr ⟨other, List.mem_cons_of_mem _ otherMem, later⟩

end Walk

section Levels

variable {utils : Utils} {task : SearchTask} {extractors : List (List ProducerLoad)}
  {spaceDims reduceDims : Int} {fuel : Nat}

theorem levelLoop_seeded {memLevel : Int} (positive : 0 < memLevel) :
    ∀ {rounds : Nat} {result : List HwAlignedConfig},
      levelLoop utils task extractors spaceDims reduceDims fuel rounds memLevel [] = .ok result →
      ∃ tiles pnext rounds', getAlignedTile utils task (List.replicate spaceDims.toNat 1)
          (List.replicate reduceDims.toNat 1) memLevel extractors fuel = .ok tiles ∧
        hasZeroTiles tiles = false ∧
        configLoop utils task extractors HwAlignedConfig.empty memLevel tiles.1 tiles.2 fuel []
          (Odometer.start tiles) = .ok pnext ∧
        levelLoop utils task extractors spaceDims reduceDims fuel rounds' (memLevel - 1) pnext =
          .ok result
  | 0, _, ran => by cases ran
  | rounds + 1, result, ran => by
      rw [levelLoop, if_neg (Int.not_le.mpr positive), if_pos List.isEmpty_nil] at ran
      obtain ⟨tiles, aligned, ran⟩ := bind_eq_ok.mp ran
      split_ifs at ran with zero
      · exact levelLoop_seeded positive ran
      · obtain ⟨pnext, walked, ran⟩ := bind_eq_ok.mp ran
        exact ⟨tiles, pnext, rounds, aligned, by simpa using zero, walked, ran⟩

theorem levelLoop_extended {memLevel : Int} {pnow : List HwAlignedConfig} (positive : 0 < memLevel)
    (nonempty : pnow ≠ []) {rounds : Nat} {result : List HwAlignedConfig}
    (ran : levelLoop utils task extractors spaceDims reduceDims fuel rounds memLevel pnow =
      .ok result) :
    ∃ pnext rounds', pnow.foldlM (extendBase utils task extractors memLevel fuel) [] = .ok pnext ∧
      levelLoop utils task extractors spaceDims reduceDims fuel rounds' (memLevel - 1) pnext =
        .ok result := by
  cases rounds with
  | zero => cases ran
  | succ rounds =>
    rw [levelLoop, if_neg (Int.not_le.mpr positive),
      if_neg (by simpa [List.isEmpty_iff] using nonempty)] at ran
    obtain ⟨pnext, extended, ran⟩ := bind_eq_ok.mp ran
    exact ⟨pnext, rounds, extended, ran⟩

theorem levelLoop_done {pnow result : List HwAlignedConfig} {rounds : Nat}
    (ran : levelLoop utils task extractors spaceDims reduceDims fuel rounds 0 pnow = .ok result) :
    result = pnow := by
  cases rounds with
  | zero => cases ran
  | succ rounds =>
    rw [levelLoop, if_pos (Int.le_refl 0)] at ran
    exact (Except.ok.inj ran).symm

theorem emitConfig_levels {configs : List HwAlignedConfig}
    (levels : task.hardwareApi.numLevel = 2)
    (returns : emitConfig utils task spaceDims reduceDims fuel = .ok configs) :
    ∃ extractors registerTiles registers, exprExtractor task.computeDag.stages = .ok extractors ∧
      getAlignedTile utils task (List.replicate spaceDims.toNat 1)
        (List.replicate reduceDims.toNat 1) 2 extractors fuel = .ok registerTiles ∧
      hasZeroTiles registerTiles = false ∧
      configLoop utils task extractors HwAlignedConfig.empty 2 registerTiles.1 registerTiles.2
        fuel [] (Odometer.start registerTiles) = .ok registers ∧
      ((registers = [] ∧ ∃ sharedTiles, hasZeroTiles sharedTiles = false ∧
        configLoop utils task extractors HwAlignedConfig.empty 1 sharedTiles.1 sharedTiles.2
          fuel [] (Odometer.start sharedTiles) = .ok configs) ∨
        registers.foldlM (extendBase utils task extractors 1 fuel) [] = .ok configs) := by
  obtain ⟨extractors, extracted, ran⟩ := bind_eq_ok.mp returns
  rw [levels] at ran
  obtain ⟨registerTiles, registers, rounds, aligned, offered, walked, ran⟩ :=
    levelLoop_seeded (by decide) ran
  refine ⟨extractors, registerTiles, registers, extracted, aligned, offered, walked, ?_⟩
  rw [show (2 : Int) - 1 = 1 from rfl] at ran
  by_cases none : registers = []
  · subst none
    obtain ⟨sharedTiles, shared, _, _, offered', walked', ran⟩ := levelLoop_seeded (by decide) ran
    rw [show (1 : Int) - 1 = 0 from rfl] at ran
    rw [levelLoop_done ran]
    exact .inl ⟨rfl, sharedTiles, offered', walked'⟩
  · obtain ⟨shared, rounds', extended, ran⟩ := levelLoop_extended (by decide) none ran
    rw [show (1 : Int) - 1 = 0 from rfl] at ran
    rw [levelLoop_done ran]
    exact .inr extended

theorem configLoop_no_base {sharedTiles : List (List Int) × List (List Int)}
    {extractors : List (List ProducerLoad)} {result : List HwAlignedConfig}
    (levels : task.hardwareApi.numLevel = 2) (offered : hasZeroTiles sharedTiles = false)
    (ran : configLoop utils task extractors HwAlignedConfig.empty 1 sharedTiles.1 sharedTiles.2
      fuel [] (Odometer.start sharedTiles) = .ok result) : result = [] := by
  refine List.eq_nil_iff_forall_not_mem.mpr fun config mem => ?_
  rcases configLoop_pushed offered ran config mem with absent | ⟨-, -, _, _, out, -, pushed,
    inOut⟩
  · cases absent
  · obtain ⟨_, _, _, _, _, _, read, -⟩ := configFilter_shared_pushed levels pushed config inOut
    cases read

theorem emitConfig_twoLevel {configs : List HwAlignedConfig}
    (levels : task.hardwareApi.numLevel = 2)
    (returns : emitConfig utils task spaceDims reduceDims fuel = .ok configs) :
    ∃ extractors, exprExtractor task.computeDag.stages = .ok extractors ∧
      ∀ config ∈ configs, ∃ registerTiles base registerSpace registerReduce sharedTiles,
        getAlignedTile utils task (List.replicate spaceDims.toNat 1)
          (List.replicate reduceDims.toNat 1) 2 extractors fuel = .ok registerTiles ∧
        PushedFrom utils task extractors HwAlignedConfig.empty 2 registerTiles base ∧
        base.spaceTiles[1]? = some registerSpace ∧ base.reduceTiles[1]? = some registerReduce ∧
        getAlignedTile utils task registerSpace registerReduce 1 extractors fuel =
          .ok sharedTiles ∧
        PushedFrom utils task extractors base 1 sharedTiles config := by
  obtain ⟨extractors, registerTiles, registers, extracted, aligned, offered, walked,
    ⟨-, sharedTiles, offered', walked'⟩ | extended⟩ := emitConfig_levels levels returns
  · refine ⟨extractors, extracted, fun config mem => ?_⟩
    rw [configLoop_no_base levels offered' walked'] at mem
    cases mem
  refine ⟨extractors, extracted, fun config mem => ?_⟩
  rcases foldlM_extendBase_mem extended config mem with absent | ⟨base, baseMem, registerSpace,
    registerReduce, sharedTiles, spaceRead, reduceRead, sharedAligned, pushed⟩
  · cases absent
  · rcases configLoop_pushed offered walked base baseMem with absent | baseFrom
    · cases absent
    · exact ⟨registerTiles, base, registerSpace, registerReduce, sharedTiles, aligned, baseFrom,
        spaceRead, reduceRead, sharedAligned, pushed⟩

end Levels

section Returned

variable {utils : Utils} {task : SearchTask} {extractors : List (List ProducerLoad)}
  {registerTiles sharedTiles : List (List Int) × List (List Int)} {base config : HwAlignedConfig}
  {registerSpace registerReduce : List Int}

theorem PushedFrom.twoLevels (levels : task.hardwareApi.numLevel = 2)
    (registerPushed : PushedFrom utils task extractors HwAlignedConfig.empty 2 registerTiles base)
    (spaceRead : base.spaceTiles[1]? = some registerSpace)
    (reduceRead : base.reduceTiles[1]? = some registerReduce)
    (sharedPushed : PushedFrom utils task extractors base 1 sharedTiles config) :
    ∃ sharedSpace sharedReduce tensorTypeSize regUse smemUse,
      (registerSpace, registerReduce) ∈ lexPairs registerTiles.1 registerTiles.2 ∧
      (sharedSpace, sharedReduce) ∈ lexPairs sharedTiles.1 sharedTiles.2 ∧
      config.spaceTiles = [sharedSpace, registerSpace] ∧
      config.reduceTiles = [sharedReduce, registerReduce] ∧
      task.computeDag.tensorTypeSize = .ok tensorTypeSize ∧
      memFootPrint (iterNames task.computeDag.stages).1 (iterNames task.computeDag.stages).2
        extractors registerSpace registerReduce 2 tensorTypeSize = .ok regUse ∧
      (∃ cap, task.hardwareApi.regCap[1]? = some cap ∧ regUse ≤ cap) ∧
      config.singleThreadRegUsage = regUse ∧
      memFootPrint (iterNames task.computeDag.stages).1 (iterNames task.computeDag.stages).2
        extractors sharedSpace sharedReduce 1 tensorTypeSize = .ok smemUse ∧
      (∃ cap, task.hardwareApi.smemCap[0]? = some cap ∧ smemUse ≤ cap) ∧
      config.smemUsage = smemUse ∧ config.threadsNum < 1024 ∧
      (∃ cap, task.hardwareApi.regCap[0]? = some cap ∧
        config.threadsNum * config.singleThreadRegUsage ≤ cap) := by
  obtain ⟨-, -, spaceTile, reduceTile, out, paired, filtered, inOut⟩ := registerPushed
  obtain ⟨tensorTypeSize, regUse, regCap, elementSize, regRan, regCapRead, regWithin, regSet,
    baseSpace, baseReduce, -⟩ := configFilter_register_pushed levels filtered base inOut
  simp only [baseSpace, baseReduce, List.getElem?_cons_succ, List.getElem?_cons_zero,
    Option.some.injEq] at spaceRead reduceRead
  subst spaceRead reduceRead
  obtain ⟨-, -, sharedSpace, sharedReduce, out', sharedPaired, filtered', inOut'⟩ := sharedPushed
  obtain ⟨tensorTypeSize', smemUse, _, _, elementSize', smemRan, spaceRead, reduceRead,
    smemWithin, regWithin', threads, smemSet, threadsSet, regKept, spaceSet, reduceSet⟩ :=
    configFilter_shared_pushed levels filtered' config inOut'
  simp only [baseSpace, baseReduce, List.getElem?_cons_succ, List.getElem?_cons_zero,
    Option.some.injEq] at spaceRead reduceRead
  rw [elementSize, Except.ok.injEq] at elementSize'
  subst spaceRead reduceRead elementSize'
  refine ⟨sharedSpace, sharedReduce, tensorTypeSize, regUse, smemUse, paired, sharedPaired,
    spaceSet, reduceSet, elementSize, regRan, ⟨regCap, regCapRead, regWithin⟩,
    regKept.trans regSet, smemRan, smemWithin, smemSet, threadsSet ▸ threads, ?_⟩
  rw [threadsSet, regKept]
  exact regWithin'

theorem registerTuple_ones {spaceDims reduceDims : Nat} {fuel : Nat}
    (ran : getAlignedTile utils task (List.replicate spaceDims 1) (List.replicate reduceDims 1) 2
      extractors fuel = .ok registerTiles)
    (hasSpace : registerTiles.1 ≠ []) (hasReduce : registerTiles.2 ≠ [])
    (paired : (registerSpace, registerReduce) ∈ lexPairs registerTiles.1 registerTiles.2) :
    ∃ table, collectExtents task spaceDims reduceDims = .ok table ∧ 0 < spaceDims ∧
      0 < reduceDims ∧ registerSpace.length = spaceDims ∧
      registerReduce = List.replicate reduceDims 1 ∧
      ∀ (d : Nat) register, registerSpace[d]? = some register →
        ∃ largest, table.spaceMax[d]? = some largest ∧ 1 ≤ largest := by
  obtain ⟨table, collected, spaceLength, reduceOnes, offered⟩ := getAlignedTile_ones ran
  obtain ⟨⟨spaceTupleLength, spaceIn⟩, ⟨reduceTupleLength, reduceIn⟩⟩ :=
    (mem_lexPairs paired).imp mem_lexTuples mem_lexTuples
  have reduceLength : registerTiles.2.length = reduceDims := by
    rw [reduceOnes, List.length_replicate]
  refine ⟨table, collected, spaceLength ▸ List.length_pos.mpr hasSpace,
    reduceLength ▸ List.length_pos.mpr hasReduce, spaceTupleLength.trans spaceLength,
    List.eq_replicate_iff.mpr ⟨reduceTupleLength.trans reduceLength, fun tile tileMem => ?_⟩,
    fun d register found => ?_⟩
  · obtain ⟨d, tileFound⟩ := List.mem_iff_getElem?.mp tileMem
    obtain ⟨choices, choicesFound, tileIn⟩ := reduceIn d tile tileFound
    rw [reduceOnes, List.getElem?_replicate] at choicesFound
    split_ifs at choicesFound
    cases choicesFound
    exact List.mem_singleton.mp tileIn
  · obtain ⟨choices, choicesFound, registerIn⟩ := spaceIn d register found
    exact offered d choices choicesFound (List.ne_nil_of_mem registerIn)

theorem sharedTuple_tiles {fuel : Nat} {sharedSpace sharedReduce : List Int}
    (ran : getAlignedTile utils task registerSpace registerReduce 1 extractors fuel =
      .ok sharedTiles)
    (paired : (sharedSpace, sharedReduce) ∈ lexPairs sharedTiles.1 sharedTiles.2) :
    ∃ table aligned transactionNum,
      collectExtents task registerSpace.length registerReduce.length = .ok table ∧
      needAlignSpaceIdx (iterNames task.computeDag.stages).1 extractors = .ok aligned ∧
      (∀ transactionSize tensorTypeSize,
        task.hardwareApi.transactionSize[0]? = some transactionSize →
        task.computeDag.tensorTypeSize = .ok tensorTypeSize →
          transactionNum = transactionSize.tdiv tensorTypeSize) ∧
      sharedSpace.length = min registerSpace.length table.spaceMax.length ∧
      sharedReduce.length = min registerReduce.length table.reduce.length ∧
      (∀ (d : Nat) shared, sharedSpace[d]? = some shared → ∃ register largest,
        registerSpace[d]? = some register ∧ table.spaceMax[d]? = some largest ∧
          register ∣ shared ∧ shared < largest ∧ (d ∈ aligned → transactionNum ∣ shared)) ∧
      ∀ tile ∈ sharedReduce, ∃ (d : Nat) (register : Int) (extents choices : List Int),
        registerReduce[d]? = some register ∧ table.reduce[d]? = some extents ∧
          reduceSmemTile fuel transactionNum register extents = .ok choices ∧ tile ∈ choices := by
  obtain ⟨table, aligned, transactionNum, collected, needAligned, transactions, spaceSized,
    reduceSized, spaceTiles, reduceTiles⟩ := getAlignedTile_shared ran
  obtain ⟨⟨spaceLength, spaceIn⟩, ⟨reduceLength, reduceIn⟩⟩ :=
    (mem_lexPairs paired).imp mem_lexTuples mem_lexTuples
  refine ⟨table, aligned, transactionNum, collected, needAligned, transactions,
    spaceLength.trans spaceSized, reduceLength.trans reduceSized, fun d shared found => ?_,
    fun tile tileMem => ?_⟩
  · obtain ⟨choices, choicesFound, sharedIn⟩ := spaceIn d shared found
    obtain ⟨register, largest, registerFound, largestFound, facts⟩ :=
      spaceTiles d choices choicesFound
    exact ⟨register, largest, registerFound, largestFound, facts shared sharedIn⟩
  · obtain ⟨d, tileFound⟩ := List.mem_iff_getElem?.mp tileMem
    obtain ⟨choices, choicesFound, tileIn⟩ := reduceIn d tile tileFound
    obtain ⟨register, extents, registerFound, extentsFound, grown⟩ :=
      reduceTiles d choices choicesFound
    exact ⟨d, register, extents, choices, registerFound, extentsFound, grown, tileIn⟩

theorem exprExtractor_ne_nil {stages : List Stage} {extractors : List (List ProducerLoad)}
    (hasBody : ∀ stage ∈ stages, stage.hasReduceIter → stage.body ≠ [])
    (spatial : alignedSpaceIters stages ≠ [])
    (extracted : exprExtractor stages = .ok extractors) : extractors ≠ [] := by
  induction stages with
  | nil => exact absurd rfl spatial
  | cons stage rest ih =>
      unfold exprExtractor at extracted
      by_cases reducing : stage.hasReduceIter
      · rw [if_pos reducing] at extracted
        rw [← List.length_pos, mapM_ok_length extracted, List.length_pos]
        exact hasBody stage (List.mem_cons_self _ _) reducing
      · rw [if_neg reducing] at extracted
        refine ih (fun other mem => hasBody other (List.mem_cons_of_mem _ mem)) ?_ extracted
        simpa [alignedSpaceIters, reducing] using spatial

end Returned

def rowSumStage : Stage :=
  ⟨[⟨"i", .spatial, .const 4⟩, ⟨"k", .reduction, .const 8⟩],
    [.reduce [.load "A" [.var "i", .var "k"]]]⟩

def rowSumTask : SearchTask :=
  { computeDag := ⟨[.placeholder, .compute [4]], [⟨[], []⟩, rowSumStage]⟩
    shapeVars := [], wklInsts := [[]], hardwareApi := sampleHardwareApi }

def doublingUtils : Utils :=
  ⟨fun _ => [2], fun smemTiles regTiles =>
    ((smemTiles.zip regTiles).map fun (smem, reg) => smem / reg).foldl (· * ·) 1⟩

theorem rowSumTask_extentsPositive : ExtentsPositive rowSumTask := by
  intro inst _ binding _ stage stageMem iter iterMem extent evaluated
  simp only [rowSumTask, rowSumStage, List.mem_cons, List.mem_singleton, List.not_mem_nil,
    or_false] at stageMem
  rcases stageMem with rfl | rfl
  · cases iterMem
  · simp only [List.mem_cons, List.mem_singleton, List.not_mem_nil, or_false] at iterMem
    rcases iterMem with rfl | rfl <;> cases evaluated <;> decide

section Configs

variable {utils : Utils} {task : SearchTask} {spaceDims reduceDims : Int} {fuel : Nat}
  {configs : List HwAlignedConfig}

/-- Every config of a two-level `EmitConfig` passed the capacity checks of both levels: when
every stage with a reduction iterator has a body, as a TVM compute op with a reduce axis does,
its registers per thread are the product of its register tiles, and its shared memory is the
element size times the footprint of its shared tiles. -/
theorem emitConfig_within_capacity (levels : task.hardwareApi.numLevel = 2)
    (hasBody : ∀ stage ∈ task.computeDag.stages, stage.hasReduceIter → stage.body ≠ [])
    (returns : emitConfig utils task spaceDims reduceDims fuel = .ok configs) :
    ∃ extractors, exprExtractor task.computeDag.stages = .ok extractors ∧
      ∀ config ∈ configs, ∃ sharedSpace registerSpace sharedReduce registerReduce tensorTypeSize,
        config.spaceTiles = [sharedSpace, registerSpace] ∧
        config.reduceTiles = [sharedReduce, registerReduce] ∧
        task.computeDag.tensorTypeSize = .ok tensorTypeSize ∧
        config.singleThreadRegUsage = registerSpace.prod ∧
        (∃ cap, task.hardwareApi.regCap[1]? = some cap ∧ config.singleThreadRegUsage ≤ cap) ∧
        config.smemUsage = tensorTypeSize * footprint (iterNames task.computeDag.stages).1
          (iterNames task.computeDag.stages).2 sharedSpace sharedReduce extractors.flatten ∧
        (∃ cap, task.hardwareApi.smemCap[0]? = some cap ∧ config.smemUsage ≤ cap) ∧
        config.threadsNum < 1024 ∧
        (∃ cap, task.hardwareApi.regCap[0]? = some cap ∧
          config.threadsNum * config.singleThreadRegUsage ≤ cap) := by
  obtain ⟨extractors, extracted, origin⟩ := emitConfig_twoLevel levels returns
  refine ⟨extractors, extracted, fun config mem => ?_⟩
  obtain ⟨_, base, registerSpace, registerReduce, _, registerAligned, registerPushed, spaceRead,
    reduceRead, -, sharedPushed⟩ := origin config mem
  obtain ⟨sharedSpace, sharedReduce, tensorTypeSize, regUse, smemUse, registerPaired, -, spaceSet,
    reduceSet, elementSize, regRan, regWithin, regSet, smemRan, smemWithin, smemSet, threads,
    regWithin'⟩ := registerPushed.twoLevels levels spaceRead reduceRead sharedPushed
  have bodied : extractors ≠ [] := by
    obtain ⟨table, collected, spacePositive, -, spaceLength, -, offered⟩ :=
      registerTuple_ones registerAligned registerPushed.1 registerPushed.2.1 registerPaired
    obtain ⟨largest, largestFound, atLeastOne⟩ :=
      offered 0 _ (List.getElem?_eq_getElem (by omega))
    rcases collectExtents_spaceMax collected 0 largest largestFound with zero | ⟨-, -, -, iter, -,
      listed, -⟩
    · omega
    · exact exprExtractor_ne_nil hasBody (List.ne_nil_of_mem (List.getElem?_mem listed)) extracted
  refine ⟨sharedSpace, registerSpace, sharedReduce, registerReduce, tensorTypeSize, spaceSet,
    reduceSet, elementSize, ?_, regSet ▸ regWithin, ?_, smemSet ▸ smemWithin, threads, regWithin'⟩
  · rw [regSet, memFootPrint_register regRan, if_neg bodied]
  · rw [smemSet, memFootPrint_shared smemRan, Int.mul_comm]

/-- On the row sum every config holds the product of its register tiles in registers and stays
within the sample descriptor's capacities. -/
theorem rowSum_within_capacity : ∃ configs,
    emitConfig doublingUtils rowSumTask 1 1 5 = .ok configs ∧ configs.length = 4 ∧
      ∀ config ∈ configs, ∃ registerSpace, config.spaceTiles[1]? = some registerSpace ∧
        config.singleThreadRegUsage = registerSpace.prod ∧ config.singleThreadRegUsage ≤ 255 ∧
        config.smemUsage ≤ 49152 ∧ config.threadsNum < 1024 := by
  obtain ⟨configs, returns, counted⟩ : ∃ configs,
      emitConfig doublingUtils rowSumTask 1 1 5 = .ok configs ∧ configs.length = 4 :=
    ⟨_, rfl, by decide⟩
  obtain ⟨_, -, within⟩ := emitConfig_within_capacity rfl
    (by simp [rowSumTask, rowSumStage, Stage.hasReduceIter]) returns
  refine ⟨configs, returns, counted, fun config mem => ?_⟩
  obtain ⟨_, registerSpace, _, _, _, spaceSet, -, -, product, ⟨_, regRead, regWithin⟩, -,
    ⟨_, smemRead, smemWithin⟩, threads, -⟩ := within config mem
  cases regRead
  cases smemRead
  exact ⟨registerSpace, by simp [spaceSet], product, regWithin, smemWithin, threads⟩

/-- Every config of a two-level `EmitConfig` has the aligned tile geometry: two tile levels per
dimension, register reduce tiles of 1, shared space tiles that are multiples of the register
ones below the largest extent (and of `transaction_num` on a dimension a load reads innermost),
and shared reduce tiles between 1 and 32. -/
theorem emitConfig_aligned_geometry (levels : task.hardwareApi.numLevel = 2)
    (positive : ExtentsPositive task)
    (returns : emitConfig utils task spaceDims reduceDims fuel = .ok configs) :
    ∃ extractors, exprExtractor task.computeDag.stages = .ok extractors ∧
      ∀ config ∈ configs, ∃ sharedSpace registerSpace sharedReduce registerReduce,
        config.spaceTiles = [sharedSpace, registerSpace] ∧
        config.reduceTiles = [sharedReduce, registerReduce] ∧
        (sharedSpace.length : Int) = spaceDims ∧ (registerSpace.length : Int) = spaceDims ∧
        (sharedReduce.length : Int) = reduceDims ∧ (registerReduce.length : Int) = reduceDims ∧
        (∀ tile ∈ registerReduce, tile = 1) ∧
        (∀ (d : Nat) shared register, sharedSpace[d]? = some shared →
          registerSpace[d]? = some register → register ∣ shared ∧
            ∃ inst ∈ task.wklInsts, ∃ binding iter extent,
              bindShapeVars task.shapeVars inst = .ok binding ∧
              (alignedSpaceIters task.computeDag.stages)[d]? = some iter ∧
              iter.extent.eval binding = .ok extent ∧ shared < extent) ∧
        (∀ load ∈ extractors.flatten, ∀ name (d : Nat) shared,
          load.indices.getLast? = some (.var name) →
          (iterNames task.computeDag.stages).1.findIdx? (· == name) = some d →
          sharedSpace[d]? = some shared → ∀ transactionSize tensorTypeSize,
            task.hardwareApi.transactionSize[0]? = some transactionSize →
            task.computeDag.tensorTypeSize = .ok tensorTypeSize →
            transactionSize.tdiv tensorTypeSize ∣ shared) ∧
        (∀ tile ∈ sharedReduce, 1 ≤ tile ∧ tile ≤ 32) := by
  obtain ⟨extractors, extracted, origin⟩ := emitConfig_twoLevel levels returns
  refine ⟨extractors, extracted, fun config mem => ?_⟩
  obtain ⟨registerTiles, base, registerSpace, registerReduce, sharedTiles, registerAligned,
    registerPushed, spaceRead, reduceRead, sharedAligned, sharedPushed⟩ := origin config mem
  obtain ⟨sharedSpace, sharedReduce, _, _, _, registerPaired, sharedPaired, spaceSet, reduceSet,
    -⟩ := registerPushed.twoLevels levels spaceRead reduceRead sharedPushed
  obtain ⟨table, collected, spacePositive, reducePositive, registerSpaceLength, reduceOnes,
    offered⟩ :=
    registerTuple_ones registerAligned registerPushed.1 registerPushed.2.1 registerPaired
  obtain ⟨table', aligned, transactionNum, collected', needAligned, transactions, sharedSpaceLength,
    sharedReduceLength, sharedSpaceTiles, sharedReduceTiles⟩ :=
    sharedTuple_tiles sharedAligned sharedPaired
  rw [registerSpaceLength, reduceOnes, List.length_replicate, collected, Except.ok.injEq]
    at collected'
  subst collected'
  obtain ⟨spaceMaxSized, -, reduceSized⟩ := collectExtents_sized collected
  have ones : ∀ tile ∈ registerReduce, tile = 1 := fun tile tileMem => by
    rw [reduceOnes] at tileMem
    exact List.eq_of_mem_replicate tileMem
  refine ⟨sharedSpace, registerSpace, sharedReduce, registerReduce, spaceSet, reduceSet,
    by omega, by omega, by rw [reduceOnes, List.length_replicate] at sharedReduceLength; omega,
    by rw [reduceOnes, List.length_replicate]; omega, ones,
    fun d shared register sharedFound registerFound => ?_,
    fun load loadMem name d shared innermost position sharedFound transactionSize
      tensorTypeSize sizeRead elementSize => ?_, fun tile tileMem => ?_⟩
  · obtain ⟨_, largest, registerFound', largestFound, divides, below, -⟩ :=
      sharedSpaceTiles d shared sharedFound
    rw [registerFound, Option.some.injEq] at registerFound'
    subst registerFound'
    obtain ⟨largest', largestFound', atLeastOne⟩ := offered d _ registerFound
    rw [largestFound, Option.some.injEq] at largestFound'
    subst largestFound'
    rcases collectExtents_spaceMax collected d largest largestFound with zero | ⟨inst, instMem,
      binding, iter, bound, listed, evaluated⟩
    · omega
    · exact ⟨divides, inst, instMem, binding, iter, largest, bound, listed, evaluated, below⟩
  · obtain ⟨_, _, -, -, -, -, alignedDvd⟩ := sharedSpaceTiles d shared sharedFound
    rw [← transactions transactionSize tensorTypeSize sizeRead elementSize]
    exact alignedDvd (needAlignSpaceIdx_mem needAligned loadMem innermost position)
  · obtain ⟨d, _, extents, choices, registerFound, extentsFound, grown, tileIn⟩ :=
      sharedReduceTiles tile tileMem
    rw [ones _ (List.getElem?_mem registerFound)] at grown
    exact reduceSmemTile_within (collectExtents_reduce_positive positive collected d extents
      extentsFound) grown tile tileIn

/-- On the row sum every shared space tile is a multiple of its register tile below the
extent 4 of `i`. -/
theorem rowSum_aligned_geometry : ExtentsPositive rowSumTask ∧ ∃ configs,
    emitConfig doublingUtils rowSumTask 1 1 5 = .ok configs ∧ configs.length = 4 ∧
      ∀ config ∈ configs, ∃ sharedSpace registerSpace,
        config.spaceTiles = [sharedSpace, registerSpace] ∧ ∀ (d : Nat) shared register,
          sharedSpace[d]? = some shared → registerSpace[d]? = some register →
            register ∣ shared ∧ shared < 4 := by
  obtain ⟨configs, returns, counted⟩ : ∃ configs,
      emitConfig doublingUtils rowSumTask 1 1 5 = .ok configs ∧ configs.length = 4 :=
    ⟨_, rfl, by decide⟩
  obtain ⟨_, -, geometry⟩ :=
    emitConfig_aligned_geometry rfl rowSumTask_extentsPositive returns
  refine ⟨rowSumTask_extentsPositive, configs, returns, counted, fun config mem => ?_⟩
  obtain ⟨sharedSpace, registerSpace, _, _, spaceSet, -, -, -, -, -, -, tiled, -⟩ :=
    geometry config mem
  refine ⟨sharedSpace, registerSpace, spaceSet,
    fun d shared register sharedFound registerFound => ?_⟩
  obtain ⟨divides, _, _, _, _, extent, -, listed, evaluated, below⟩ :=
    tiled d shared register sharedFound registerFound
  have onlyI : alignedSpaceIters rowSumTask.computeDag.stages = [⟨"i", .spatial, .const 4⟩] := by
    decide
  rw [onlyI] at listed
  rw [List.mem_singleton.mp (List.getElem?_mem listed)] at evaluated
  cases evaluated
  exact ⟨divides, below⟩

/-- A two-level `EmitConfig` that returns is the nested pruned enumeration: the register configs
are what the pruned walk over the all-ones base's tiles pushes, and the configs returned are, in
order, what the pruned walk over each register config's tiles pushes. -/
theorem emitConfig_enumerates (levels : task.hardwareApi.numLevel = 2)
    (returns : emitConfig utils task spaceDims reduceDims fuel = .ok configs) :
    ∃ extractors registerTiles registers shared,
      exprExtractor task.computeDag.stages = .ok extractors ∧
      getAlignedTile utils task (List.replicate spaceDims.toNat 1)
        (List.replicate reduceDims.toNat 1) 2 extractors fuel = .ok registerTiles ∧
      hasZeroTiles registerTiles = false ∧
      walkPushes utils task extractors HwAlignedConfig.empty 2 registerTiles = .ok registers ∧
      registers.mapM (basePushes utils task extractors 1 fuel) = .ok shared ∧
      configs = shared.flatten := by
  obtain ⟨extractors, registerTiles, registers, extracted, aligned, offered, walked,
    ⟨rfl, sharedTiles, offered', walked'⟩ | extended⟩ := emitConfig_levels levels returns
  · obtain ⟨-, -, pushes, pushesOk, rfl⟩ := configLoop_walk offered walked
    rw [configLoop_no_base levels offered' walked']
    exact ⟨extractors, registerTiles, [], [], extracted, aligned, offered, pushesOk, rfl, rfl⟩
  · obtain ⟨-, -, pushes, pushesOk, same⟩ := configLoop_walk offered walked
    rw [List.nil_append] at same
    subst same
    obtain ⟨shared, sharedOk, rfl⟩ :=
      foldlM_ok_append (fun _ _ _ stepped => extendBase_walk stepped) extended
    exact ⟨extractors, registerTiles, _, shared, extracted, aligned, offered, pushesOk, sharedOk,
      List.nil_append _⟩

/-- On the row sum the configs are the shared-memory walks over the register configs. -/
theorem rowSum_enumerates : ∃ configs,
    emitConfig doublingUtils rowSumTask 1 1 5 = .ok configs ∧ configs.length = 4 ∧
      ∃ extractors registerTiles registers shared,
        walkPushes doublingUtils rowSumTask extractors HwAlignedConfig.empty 2 registerTiles =
          .ok registers ∧
        registers.mapM (basePushes doublingUtils rowSumTask extractors 1 5) = .ok shared ∧
        configs = shared.flatten := by
  obtain ⟨configs, returns, counted⟩ : ∃ configs,
      emitConfig doublingUtils rowSumTask 1 1 5 = .ok configs ∧ configs.length = 4 :=
    ⟨_, rfl, by decide⟩
  obtain ⟨extractors, registerTiles, registers, shared, -, -, -, walked, extended, flat⟩ :=
    emitConfig_enumerates rfl returns
  exact ⟨configs, returns, counted, extractors, registerTiles, registers, shared, walked,
    extended, flat⟩

end Configs

end FTuner
