import FTuner.Hardware.Carry

namespace FTuner

/-! # The walk of `EmitConfig` over the tile lists

`while (HasNextConfig) GetNextConfig` is a pruned enumeration of the lexicographic product of
the reduce and space tile lists (`prunedCalls`): it calls `ConfigFilter` once on every tuple whose
earlier siblings along the last space list were all accepted, in lexicographic order, and on no
other (`configLoop_prunedWalk`).  The proof reads the iterators as the mixed-radix rank of the
tuple under them (`Odometer.rank`): a step adds one to the rank, or rounds it up to the next row
of the last space list when the tuple was rejected, and the loop stops when the rank reaches the
size of the product.
-/

/-- The tuples of `tiles[0] × tiles[1] × …` in lexicographic order, the first list most
significant. -/
def lexTuples : List (List Int) → List (List Int)
  | [] => [[]]
  | tiles :: rest => tiles.flatMap fun tile => (lexTuples rest).map (tile :: ·)

/-- The pairs of a space tuple and a reduce tuple of `R_0 × … × R_{m-1} × S_0 × … × S_{n-1}` in
lexicographic order, `R_0` most significant. -/
def lexPairs (spaceTiles reduceTiles : List (List Int)) : List (List Int × List Int) :=
  (lexTuples reduceTiles).flatMap fun reduceTile =>
    (lexTuples spaceTiles).map fun spaceTile => (spaceTile, reduceTile)

/-- The tiles of `row` whose earlier siblings are all accepted. -/
def siblingsAccepted (accept : Int → Bool) (row : List Int) : List Int :=
  (row.enum.filter fun (position, _) => (row.take position).all accept).map Prod.snd

/-- The tuples of `R_0 × … × R_{m-1} × S_0 × … × S_{n-1}` in lexicographic order whose earlier
siblings along `S_{n-1}` (same other coordinates, earlier position in `S_{n-1}`) are all
accepted. -/
def prunedCalls (accept : List Int → List Int → Bool) (spaceTiles reduceTiles : List (List Int)) :
    List (List Int × List Int) :=
  (lexTuples reduceTiles).flatMap fun reduceTile =>
    (lexTuples spaceTiles.dropLast).flatMap fun spacePrefix =>
      (siblingsAccepted (fun tile => accept (spacePrefix ++ [tile]) reduceTile)
        (spaceTiles.getLast?.getD [])).map fun tile => (spacePrefix ++ [tile], reduceTile)

/-- `ConfigFilter` pushes a config for the tuple, or fails, which ends the walk. -/
def filterPushes (utils : Utils) (task : SearchTask) (baseConfig : HwAlignedConfig)
    (extractors : List (List ProducerLoad)) (memLevel : Int) (spaceTile reduceTile : List Int) :
    Bool :=
  configFilter utils task [] baseConfig extractors spaceTile reduceTile memLevel != .ok []

/-- The rank of the tuple under the iterators: the value of the reduce positions followed by the
space positions. -/
def Odometer.rank (spaceTiles reduceTiles : List (List Int)) (odometer : Odometer) : Nat :=
  digitsValue ((reduceTiles ++ spaceTiles).map List.length)
    (odometer.reducePtr ++ odometer.spacePtr)

/-- Iterators as a carry leaves them: every space iterator and every reduce iterator but the first
can be dereferenced; the first may be at its end. -/
def Odometer.Normal (spaceTiles reduceTiles : List (List Int)) (odometer : Odometer) : Prop :=
  FTuner.Normal (reduceTiles.map List.length) odometer.reducePtr ∧
    Within (spaceTiles.map List.length) odometer.spacePtr

theorem lexTuples_length : ∀ tiles : List (List Int),
    (lexTuples tiles).length = (tiles.map List.length).prod
  | [] => rfl
  | tiles :: rest => by
      rw [lexTuples, length_flatMap_uniform fun _ _ => by rw [List.length_map, lexTuples_length],
        List.map_cons, List.prod_cons]

theorem lexPairs_length (spaceTiles reduceTiles : List (List Int)) :
    (lexPairs spaceTiles reduceTiles).length =
      ((reduceTiles ++ spaceTiles).map List.length).prod := by
  rw [lexPairs, length_flatMap_uniform fun _ _ => List.length_map _ _, lexTuples_length,
    lexTuples_length, List.map_append, List.prod_append]

theorem mem_lexTuples : ∀ {tiles : List (List Int)} {tuple : List Int}, tuple ∈ lexTuples tiles →
    tuple.length = tiles.length ∧
      ∀ (d : Nat) tile, tuple[d]? = some tile → ∃ choices, tiles[d]? = some choices ∧ tile ∈ choices
  | [], _, mem => by
      rw [lexTuples, List.mem_singleton] at mem
      subst mem
      exact ⟨rfl, fun _ _ found => by simp at found⟩
  | choices :: rest, _, mem => by
      simp only [lexTuples, List.mem_flatMap, List.mem_map] at mem
      obtain ⟨tile, chosen, tuple, later, rfl⟩ := mem
      obtain ⟨length, each⟩ := mem_lexTuples later
      refine ⟨by simp [length], fun d value found => ?_⟩
      cases d with
      | zero =>
        rw [List.getElem?_cons_zero, Option.some.injEq] at found
        exact ⟨choices, List.getElem?_cons_zero, found ▸ chosen⟩
      | succ d =>
        rw [List.getElem?_cons_succ] at found ⊢
        exact each d value found

theorem mem_lexPairs {spaceTiles reduceTiles : List (List Int)} {tuple : List Int × List Int}
    (mem : tuple ∈ lexPairs spaceTiles reduceTiles) :
    tuple.1 ∈ lexTuples spaceTiles ∧ tuple.2 ∈ lexTuples reduceTiles := by
  simp only [lexPairs, List.mem_flatMap, List.mem_map] at mem
  obtain ⟨reduceTile, reduceMem, spaceTile, spaceMem, rfl⟩ := mem
  exact ⟨spaceMem, reduceMem⟩

theorem mapM_read_lexTuples (what : String) : ∀ {tiles : List (List Int)} {positions : List Nat},
    Within (tiles.map List.length) positions →
    ∃ tuple, (positions.zip tiles).mapM (fun (ptr, tiles) => readAt tiles ptr what) = .ok tuple ∧
      (lexTuples tiles)[digitsValue (tiles.map List.length) positions]? = some tuple
  | [], [], _ => ⟨[], rfl, rfl⟩
  | tiles :: rest, position :: positions, ⟨below, within⟩ => by
      obtain ⟨tuple, read, found⟩ := mapM_read_lexTuples what within
      refine ⟨tiles[position] :: tuple, ?_, ?_⟩
      · rw [List.zip_cons_cons, List.mapM_cons]
        simp only [readAt_of_lt below, read, ok_bind, pure_eq_ok]
      · rw [lexTuples, List.map_cons, digitsValue, ← lexTuples_length rest,
          getElem?_flatMap_uniform (fun _ => List.length_map _ _)
            (by rw [lexTuples_length]; exact within.digitsValue_lt)
            (List.getElem?_eq_getElem below), List.getElem?_map, found]
        rfl

theorem lexTuples_snoc (last : List Int) : ∀ tiles : List (List Int),
    lexTuples (tiles ++ [last]) = (lexTuples tiles).flatMap fun tuple => last.map (tuple ++ [·])
  | [] => by simp [lexTuples, List.flatMap_singleton, List.map_eq_flatMap]
  | tiles :: rest => by
      simp [lexTuples, lexTuples_snoc last rest, List.flatMap_assoc, List.map_flatMap,
        List.flatMap_map, Function.comp_def]

theorem siblingsAccepted_cons (accept : Int → Bool) (tile : Int) (row : List Int) :
    siblingsAccepted accept (tile :: row) =
      tile :: if accept tile then siblingsAccepted accept row else [] := by
  unfold siblingsAccepted
  rw [List.enum_cons, List.enumFrom_eq_map_enum, List.filter_cons, List.filter_map]
  cases accepted : accept tile <;> simp [Function.comp_def, accepted]

/-- The rows of the walk: a tuple of all space lists but the last, and a reduce tuple. -/
def walkRows (spaceTiles reduceTiles : List (List Int)) : List (List Int × List Int) :=
  (lexTuples reduceTiles).flatMap fun reduceTile =>
    (lexTuples spaceTiles.dropLast).map fun spacePrefix => (spacePrefix, reduceTile)

/-- The calls of a row from position `start` of the last space list on. -/
def rowCalls (accept : List Int → List Int → Bool) (lastTiles : List Int) (start : Nat)
    (row : List Int × List Int) : List (List Int × List Int) :=
  (siblingsAccepted (fun tile => accept (row.1 ++ [tile]) row.2) (lastTiles.drop start)).map
    fun tile => (row.1 ++ [tile], row.2)

/-- The calls the walk makes from the tuple of rank `rank` on. -/
def callsFrom (accept : List Int → List Int → Bool) (spaceTiles reduceTiles : List (List Int))
    (rank : Nat) : List (List Int × List Int) :=
  let lastTiles := spaceTiles.getLast?.getD []
  let rows := walkRows spaceTiles reduceTiles
  ((rows[rank / lastTiles.length]?.map (rowCalls accept lastTiles (rank % lastTiles.length))).getD
      []) ++
    (rows.drop (rank / lastTiles.length + 1)).flatMap (rowCalls accept lastTiles 0)

section Calls

variable (accept : List Int → List Int → Bool) {spaceTiles reduceTiles : List (List Int)}

theorem prunedCalls_eq_rows :
    prunedCalls accept spaceTiles reduceTiles =
      (walkRows spaceTiles reduceTiles).flatMap
        (rowCalls accept (spaceTiles.getLast?.getD []) 0) := by
  simp [prunedCalls, walkRows, rowCalls, List.flatMap_assoc, List.flatMap_map]

omit accept in
theorem lexPairs_eq_rows (hasSpace : spaceTiles ≠ []) :
    lexPairs spaceTiles reduceTiles =
      (walkRows spaceTiles reduceTiles).flatMap fun row =>
        (spaceTiles.getLast?.getD []).map fun tile => (row.1 ++ [tile], row.2) := by
  conv_lhs => rw [lexPairs, ← List.dropLast_append_getLast hasSpace, lexTuples_snoc]
  simp [walkRows, List.flatMap_assoc, List.flatMap_map, List.map_flatMap,
    List.getLast?_eq_getLast _ hasSpace, Function.comp_def]

variable (lastPositive : 0 < (spaceTiles.getLast?.getD []).length)
include lastPositive

theorem callsFrom_row_start (q : Nat) :
    callsFrom accept spaceTiles reduceTiles (q * (spaceTiles.getLast?.getD []).length) =
      ((walkRows spaceTiles reduceTiles).drop q).flatMap
        (rowCalls accept (spaceTiles.getLast?.getD []) 0) := by
  obtain ⟨divided, remainder⟩ := div_mod_of_lt q lastPositive
  rw [Nat.add_zero] at divided remainder
  unfold callsFrom
  simp only [divided, remainder]
  cases found : (walkRows spaceTiles reduceTiles)[q]? with
  | none =>
      rw [List.getElem?_eq_none_iff] at found
      simp [List.drop_eq_nil_of_le found, List.drop_eq_nil_of_le (Nat.le_succ_of_le found)]
  | some row =>
      obtain ⟨inRange, rfl⟩ := List.getElem?_eq_some_iff.mp found
      rw [List.drop_eq_getElem_cons inRange, List.flatMap_cons]
      rfl

omit lastPositive in
theorem callsFrom_in_row {rank : Nat} {row : List Int × List Int}
    (rowFound : (walkRows spaceTiles reduceTiles)[rank /
      (spaceTiles.getLast?.getD []).length]? = some row) :
    callsFrom accept spaceTiles reduceTiles rank =
      rowCalls accept (spaceTiles.getLast?.getD []) (rank % (spaceTiles.getLast?.getD []).length)
          row ++
        ((walkRows spaceTiles reduceTiles).drop
          (rank / (spaceTiles.getLast?.getD []).length + 1)).flatMap
            (rowCalls accept (spaceTiles.getLast?.getD []) 0) := by
  simp only [callsFrom, rowFound]
  rfl

variable (hasSpace : spaceTiles ≠ [])
include hasSpace

omit accept lastPositive in
theorem walkRows_length_mul :
    (walkRows spaceTiles reduceTiles).length * (spaceTiles.getLast?.getD []).length =
      (lexPairs spaceTiles reduceTiles).length := by
  rw [lexPairs_eq_rows hasSpace, length_flatMap_uniform fun _ _ => List.length_map _ _]

theorem callsFrom_of_le {rank : Nat} (past : (lexPairs spaceTiles reduceTiles).length ≤ rank) :
    callsFrom accept spaceTiles reduceTiles rank = [] := by
  have rows :
      (walkRows spaceTiles reduceTiles).length ≤ rank / (spaceTiles.getLast?.getD []).length :=
    (Nat.le_div_iff_mul_le lastPositive).mpr
      ((walkRows_length_mul hasSpace).trans_le past)
  simp [callsFrom, List.getElem?_eq_none rows, List.drop_eq_nil_of_le (Nat.le_succ_of_le rows)]

theorem callsFrom_step {rank : Nat} {tuple : List Int × List Int}
    (found : (lexPairs spaceTiles reduceTiles)[rank]? = some tuple) :
    callsFrom accept spaceTiles reduceTiles rank =
      tuple :: if accept tuple.1 tuple.2 then callsFrom accept spaceTiles reduceTiles (rank + 1)
        else callsFrom accept spaceTiles reduceTiles
          ((rank / (spaceTiles.getLast?.getD []).length + 1) *
            (spaceTiles.getLast?.getD []).length) := by
  have rankSplit := Nat.div_add_mod' rank (spaceTiles.getLast?.getD []).length
  have offsetBelow := Nat.mod_lt rank lastPositive
  obtain ⟨row, rowFound⟩ : ∃ row, (walkRows spaceTiles reduceTiles)[rank /
      (spaceTiles.getLast?.getD []).length]? = some row := by
    cases rowFound : (walkRows spaceTiles reduceTiles)[rank /
        (spaceTiles.getLast?.getD []).length]? with
    | some row => exact ⟨row, rfl⟩
    | none =>
        rw [List.getElem?_eq_none_iff, Nat.le_div_iff_mul_le lastPositive,
          walkRows_length_mul hasSpace] at rowFound
        simp [List.getElem?_eq_none rowFound] at found
  rw [lexPairs_eq_rows hasSpace, ← rankSplit,
    getElem?_flatMap_uniform (fun _ => List.length_map _ _) offsetBelow rowFound,
    List.getElem?_map, Option.map_eq_some'] at found
  obtain ⟨tile, tileFound, rfl⟩ := found
  obtain ⟨inRange, rfl⟩ := List.getElem?_eq_some_iff.mp tileFound
  rw [callsFrom_in_row accept rowFound, rowCalls, List.drop_eq_getElem_cons inRange,
    siblingsAccepted_cons]
  have nextRow := @callsFrom_row_start accept spaceTiles reduceTiles lastPositive
    (rank / (spaceTiles.getLast?.getD []).length + 1)
  cases accept
      (row.1 ++ [(spaceTiles.getLast?.getD [])[rank % (spaceTiles.getLast?.getD []).length]])
      row.2 with
  | false => simp [nextRow]
  | true =>
      by_cases inRow : rank % (spaceTiles.getLast?.getD []).length + 1 <
        (spaceTiles.getLast?.getD []).length
      · obtain ⟨sameRow, nextOffset⟩ := div_mod_of_lt (rank / (spaceTiles.getLast?.getD []).length)
          inRow
        rw [← Nat.add_assoc, rankSplit] at sameRow nextOffset
        rw [callsFrom_in_row accept (by rwa [sameRow]), rowCalls, sameRow, nextOffset]
        simp
      · have rowEnd : rank + 1 = (rank / (spaceTiles.getLast?.getD []).length + 1) *
            (spaceTiles.getLast?.getD []).length := by
          rw [Nat.succ_mul]
          omega
        rw [rowEnd, nextRow, List.drop_eq_nil_of_le (by omega)]
        simp [siblingsAccepted]

end Calls

section Step

variable {spaceTiles reduceTiles : List (List Int)}
  (spaceNonempty : ∀ tiles ∈ spaceTiles, tiles ≠ [])
  (reduceNonempty : ∀ tiles ∈ reduceTiles, tiles ≠ []) (hasReduce : reduceTiles ≠ [])
include spaceNonempty reduceNonempty hasReduce

theorem carrySpace_last {spacePre : List (List Int)} {lastTiles : List Int}
    {pre reducePtr : List Nat} {digit : Nat} (split : spaceTiles = spacePre ++ [lastTiles])
    (reduceWithin : Within (reduceTiles.map List.length) reducePtr)
    (preWithin : Within (spacePre.map List.length) pre) (atMost : digit ≤ lastTiles.length) :
    ∃ next, carrySpace spaceTiles reduceTiles pre.length ⟨pre ++ [digit], reducePtr⟩ = .ok next ∧
      next.Normal spaceTiles reduceTiles ∧
      next.rank spaceTiles reduceTiles =
        digitsValue ((reduceTiles ++ spaceTiles).map List.length)
          (reducePtr ++ pre ++ [digit]) := by
  have lengths := preWithin.length_eq
  rw [List.length_map] at lengths
  obtain ⟨pre', digit', reducePtr', carried, spaceWithin, normal, value⟩ :=
    @carrySpace_normal reduceTiles reduceNonempty spaceTiles spaceNonempty reducePtr reduceWithin
      hasReduce pre.length pre [] digit spacePre [] lastTiles split rfl lengths preWithin
      atMost
  refine ⟨⟨pre' ++ [digit'], reducePtr'⟩, carried, ⟨normal, by simpa [split] using spaceWithin⟩, ?_⟩
  simpa [Odometer.rank, split, List.append_assoc] using value

theorem getNextConfig_step (utils : Utils) (task : SearchTask) (pnext : List HwAlignedConfig)
    (extractors : List (List ProducerLoad)) (baseConfig : HwAlignedConfig) (memLevel : Int)
    {odometer : Odometer} (hasSpace : spaceTiles ≠ [])
    (reduceWithin : Within (reduceTiles.map List.length) odometer.reducePtr)
    (spaceWithin : Within (spaceTiles.map List.length) odometer.spacePtr) :
    ∃ tuple, (lexPairs spaceTiles reduceTiles)[odometer.rank spaceTiles reduceTiles]? = some tuple ∧
      ∃ next : List HwAlignedConfig → Odometer,
        getNextConfig utils task pnext extractors baseConfig memLevel odometer spaceTiles
            reduceTiles =
          (fun filtered => (filtered, next filtered)) <$>
            configFilter utils task pnext baseConfig extractors tuple.1 tuple.2 memLevel ∧
        ∀ filtered, (next filtered).Normal spaceTiles reduceTiles ∧
          (next filtered).rank spaceTiles reduceTiles =
            if filtered.length = pnext.length then
              (odometer.rank spaceTiles reduceTiles / (spaceTiles.getLast hasSpace).length + 1) *
                (spaceTiles.getLast hasSpace).length
            else odometer.rank spaceTiles reduceTiles + 1 := by
  obtain ⟨spacePtr, reducePtr⟩ := odometer
  obtain ⟨spacePre, lastTiles, split⟩ := exists_eq_snoc hasSpace
  have lastPositive := List.length_pos.mpr (spaceNonempty lastTiles (by simp [split]))
  have spaceLengths := spaceWithin.length_eq
  obtain ⟨pre, digit, rfl⟩ := exists_eq_snoc (List.ne_nil_of_length_pos
    (by rw [← spaceLengths, List.length_map]; exact List.length_pos.mpr hasSpace))
  simp only [split, List.map_append, List.map_singleton, List.length_append, List.length_map,
    List.length_singleton, Nat.add_right_cancel_iff] at spaceLengths
  obtain ⟨preWithin, below, -⟩ :=
    (@within_append (spacePre.map List.length) pre [lastTiles.length] [digit]
      (by simpa using spaceLengths)).mp (by simpa [split] using spaceWithin)
  obtain ⟨spaceTuple, spaceRead, spaceFound⟩ := mapM_read_lexTuples "*space_ptr" spaceWithin
  obtain ⟨reduceTuple, reduceRead, reduceFound⟩ := mapM_read_lexTuples "*reduce_ptr" reduceWithin
  obtain ⟨accepted, acceptedCarry, acceptedNormal, acceptedRank⟩ :=
    carrySpace_last spaceNonempty reduceNonempty hasReduce split reduceWithin preWithin below
  obtain ⟨rejected, rejectedCarry, rejectedNormal, rejectedRank⟩ :=
    carrySpace_last spaceNonempty reduceNonempty hasReduce split reduceWithin preWithin le_rfl
  -- the rank is `base * |S_{n-1}| + digit` for the rank `base` of the row
  have rowRank : ∀ last, digitsValue ((reduceTiles ++ spaceTiles).map List.length)
      (reducePtr ++ pre ++ [last]) =
        digitsValue ((reduceTiles ++ spacePre).map List.length) (reducePtr ++ pre) *
          lastTiles.length + last := fun last => by
    rw [split, ← List.append_assoc, List.map_append, List.map_singleton,
      digitsValue_snoc (by simp [reduceWithin.length_eq, spaceLengths])]
  have rank : Odometer.rank spaceTiles reduceTiles ⟨pre ++ [digit], reducePtr⟩ =
      digitsValue ((reduceTiles ++ spacePre).map List.length) (reducePtr ++ pre) *
        lastTiles.length + digit := by
    rw [Odometer.rank, ← rowRank, List.append_assoc]
  refine ⟨(spaceTuple, reduceTuple), ?_,
    fun filtered => if filtered.length = pnext.length then rejected else accepted, ?_,
    fun filtered => ?_⟩
  · rw [Odometer.rank, List.map_append, digitsValue_append _ _ reduceWithin.length_eq,
      ← lexTuples_length, lexPairs, getElem?_flatMap_uniform (fun _ => List.length_map _ _)
        (by rw [lexTuples_length]; exact spaceWithin.digitsValue_lt) reduceFound,
      List.getElem?_map, spaceFound]
    rfl
  · have lastAt : pre.length = (pre ++ [digit]).length - 1 := by simp
    have tilesRead : readAt spaceTiles ((pre ++ [digit]).length - 1) "space_tiles" =
        .ok lastTiles := by
      rw [split]
      exact readAt_append_cons _ (by simp [spaceLengths])
    unfold getNextConfig
    dsimp only
    rw [spaceRead, ok_bind, reduceRead, ok_bind, bump_append_cons _ lastAt, ok_bind]
    cases configFilter utils task pnext baseConfig extractors spaceTuple reduceTuple memLevel with
    | error fault => rfl
    | ok filtered =>
        rw [ok_bind]
        split_ifs with same
        · rw [tilesRead, ok_bind, writeAt_append_cons _ lastAt, ok_bind, ← lastAt,
            rejectedCarry]
          simp [same]
        · rw [pure_eq_ok, ok_bind, ← lastAt, acceptedCarry]
          simp [same]
  · have lastIs : spaceTiles.getLast hasSpace = lastTiles := by simp [split]
    dsimp only
    split_ifs
    · refine ⟨rejectedNormal, ?_⟩
      rw [rejectedRank, rowRank, rank, lastIs, Nat.add_comm _ digit,
        Nat.add_mul_div_right _ _ lastPositive, Nat.div_eq_of_lt below, Nat.zero_add,
        Nat.succ_mul]
    · refine ⟨acceptedNormal, ?_⟩
      rw [acceptedRank, rowRank, rank, Nat.add_assoc]

variable (utils : Utils) (task : SearchTask) (extractors : List (List ProducerLoad))
  (baseConfig : HwAlignedConfig) (memLevel : Int) (hasSpace : spaceTiles ≠ [])
include hasSpace

theorem configLoop_eq : ∀ (fuel : Nat) (pnext : List HwAlignedConfig) (odometer : Odometer),
    odometer.Normal spaceTiles reduceTiles →
    configLoop utils task extractors baseConfig memLevel spaceTiles reduceTiles fuel pnext
        odometer =
      let calls := callsFrom (filterPushes utils task baseConfig extractors memLevel) spaceTiles
        reduceTiles (odometer.rank spaceTiles reduceTiles)
      let call := fun pnext (tuple : List Int × List Int) =>
        configFilter utils task pnext baseConfig extractors tuple.1 tuple.2 memLevel
      if calls.length < fuel then calls.foldlM call pnext
      else (calls.take fuel).foldlM call pnext >>= fun _ => .error .outOfFuel
  | 0, pnext, odometer, _ => by simp [configLoop]
  | fuel + 1, pnext, ⟨spacePtr, reducePtr⟩, ⟨normal, spaceWithin⟩ => by
      obtain ⟨firstTiles, restTiles, split⟩ := List.exists_cons_of_ne_nil hasReduce
      have combined := normal.append spaceWithin
      rw [split, List.map_cons] at normal
      obtain _ | ⟨first, rest⟩ := reducePtr
      · exact normal.elim
      have hasNext : hasNextConfig (first :: rest) reduceTiles =
          .ok (first != firstTiles.length) := by
        simp [hasNextConfig, split, readAt]
      have lastEq : spaceTiles.getLast?.getD [] = spaceTiles.getLast hasSpace := by
        rw [List.getLast?_eq_getLast _ hasSpace]
        rfl
      have lastPositive : 0 < (spaceTiles.getLast?.getD []).length := by
        rw [lastEq]
        exact List.length_pos.mpr (spaceNonempty _ (List.getLast_mem _))
      unfold configLoop
      rw [hasNext, ok_bind]
      by_cases running : first < firstTiles.length
      · have reduceWithin : Within (reduceTiles.map List.length) (first :: rest) := by
          rw [split, List.map_cons]
          exact ⟨running, normal.2⟩
        obtain ⟨tuple, found, next, stepEq, nextProps⟩ :=
          getNextConfig_step spaceNonempty reduceNonempty hasReduce utils task pnext extractors
            baseConfig memLevel hasSpace reduceWithin spaceWithin
        rw [if_pos (bne_iff_ne.mpr (Nat.ne_of_lt running)), stepEq,
          callsFrom_step _ lastPositive hasSpace found]
        have callEq := configFilter_append utils task pnext baseConfig extractors tuple.1 tuple.2
          memLevel
        cases pushedEq :
            configFilter utils task [] baseConfig extractors tuple.1 tuple.2 memLevel with
        | error fault =>
            rw [pushedEq, map_error] at callEq
            split_ifs <;> simp [callEq, List.take_succ_cons]
        | ok pushed =>
            rw [pushedEq, map_ok] at callEq
            obtain ⟨nextNormal, nextRank⟩ := nextProps (pnext ++ pushed)
            rw [← lastEq] at nextRank
            rw [callEq, map_ok, ok_bind]
            dsimp only
            rw [configLoop_eq fuel _ _ nextNormal, nextRank]
            have restEq : ∀ rounded following : Nat,
                callsFrom (filterPushes utils task baseConfig extractors memLevel) spaceTiles
                    reduceTiles
                    (if (pnext ++ pushed).length = pnext.length then rounded else following) =
                  if filterPushes utils task baseConfig extractors memLevel tuple.1 tuple.2 then
                    callsFrom (filterPushes utils task baseConfig extractors memLevel) spaceTiles
                      reduceTiles following
                  else callsFrom (filterPushes utils task baseConfig extractors memLevel) spaceTiles
                    reduceTiles rounded := by
              intro rounded following
              cases pushed <;> simp [filterPushes, pushedEq]
            rw [restEq]
            simp only [List.length_cons, Nat.add_lt_add_iff_right, List.foldlM_cons, callEq,
              ok_bind, List.take_succ_cons]
      · have ended : first = firstTiles.length := le_antisymm normal.1 (not_lt.mp running)
        rw [if_neg (by simp [ended])]
        have past : (lexPairs spaceTiles reduceTiles).length ≤
            Odometer.rank spaceTiles reduceTiles ⟨spacePtr, first :: rest⟩ := by
          rw [lexPairs_length, Odometer.rank, List.map_append]
          rw [split, List.map_cons, List.cons_append, List.cons_append] at combined ⊢
          exact not_lt.mp fun below => running (combined.lt_prod_iff.mp below)
        simp [callsFrom_of_le _ lastPositive hasSpace past]

end Step

theorem within_zeros : ∀ {tiles : List (List Int)}, (∀ each ∈ tiles, each ≠ []) →
    Within (tiles.map List.length) (tiles.map fun _ => 0)
  | [], _ => trivial
  | first :: _, nonempty =>
      ⟨List.length_pos.mpr (nonempty first (List.mem_cons_self _ _)),
        within_zeros fun each mem => nonempty each (List.mem_cons_of_mem _ mem)⟩

theorem digitsValue_zeros : ∀ radices : List Nat,
    digitsValue radices (radices.map fun _ => 0) = 0
  | [] => rfl
  | _ :: radices => by
      rw [List.map_cons, digitsValue, digitsValue_zeros radices, Nat.zero_mul]

theorem Odometer.start_normal {spaceTiles reduceTiles : List (List Int)}
    (hasReduce : reduceTiles ≠ []) (nonempty : ∀ tiles ∈ spaceTiles ++ reduceTiles, tiles ≠ []) :
    (Odometer.start (spaceTiles, reduceTiles)).Normal spaceTiles reduceTiles ∧
      (Odometer.start (spaceTiles, reduceTiles)).rank spaceTiles reduceTiles = 0 := by
  refine ⟨⟨(within_zeros fun each mem => nonempty each (by simp [mem])).normal
      (by simpa [Odometer.start] using hasReduce),
    within_zeros fun each mem => nonempty each (by simp [mem])⟩, ?_⟩
  have zeros := digitsValue_zeros ((reduceTiles ++ spaceTiles).map List.length)
  simpa [Odometer.rank, Odometer.start, Function.comp_def] using zeros

theorem siblingsAccepted_sublist (accept : Int → Bool) (row : List Int) :
    (siblingsAccepted accept row).Sublist row := by
  have whole : row.enum.map Prod.snd = row := List.enum_map_snd row
  conv_rhs => rw [← whole]
  exact (List.filter_sublist _).map _

theorem siblingsAccepted_filter (accept : Int → Bool) : ∀ {row : List Int},
    (∀ (earlier later : Nat) (tile tile' : Int), earlier < later → row[earlier]? = some tile →
      row[later]? = some tile' → accept tile = false → accept tile' = false) →
    (siblingsAccepted accept row).filter accept = row.filter accept
  | [], _ => rfl
  | tile :: row, upward => by
      rw [siblingsAccepted_cons]
      cases accepted : accept tile
      · have rejected : row.filter accept = [] := List.filter_eq_nil_iff.mpr fun later mem => by
          obtain ⟨position, found⟩ := List.getElem?_of_mem mem
          simpa using upward 0 (position + 1) tile later (Nat.succ_pos _) List.getElem?_cons_zero
            (List.getElem?_cons_succ.trans found) accepted
        simp [accepted, rejected]
      · simp only [if_true, List.filter_cons, accepted]
        rw [siblingsAccepted_filter accept fun earlier later x y before found found' rejected =>
          upward (earlier + 1) (later + 1) x y (Nat.succ_lt_succ before)
            (List.getElem?_cons_succ.trans found) (List.getElem?_cons_succ.trans found') rejected]

theorem flatMap_sublist_flatMap {α β : Type} {expand expand' : α → List β} :
    ∀ {values : List α}, (∀ value ∈ values, (expand value).Sublist (expand' value)) →
      (values.flatMap expand).Sublist (values.flatMap expand')
  | [], _ => List.Sublist.slnil
  | value :: values, each => by
      rw [List.flatMap_cons, List.flatMap_cons]
      exact (each value (List.mem_cons_self _ _)).append
        (flatMap_sublist_flatMap fun other mem => each other (List.mem_cons_of_mem _ mem))

theorem foldlM_filter_noop {α β : Type} {call : α → β → Except Fault α} {keeps : β → Bool} :
    ∀ {calls : List β},
      (∀ tuple ∈ calls, keeps tuple = false → ∀ pushed, call pushed tuple = .ok pushed) →
      ∀ pushed, calls.foldlM call pushed = (calls.filter keeps).foldlM call pushed
  | [], _, _ => rfl
  | tuple :: calls, noop, pushed => by
      have rest := foldlM_filter_noop fun other mem => noop other (List.mem_cons_of_mem _ mem)
      cases kept : keeps tuple
      · simp [List.filter_cons, kept, noop tuple (List.mem_cons_self _ _) kept, rest]
      · simp only [List.filter_cons, kept, if_true, List.foldlM_cons]
        cases call pushed tuple
        · rfl
        · exact rest _

theorem prunedCalls_sublist (accept : List Int → List Int → Bool)
    {spaceTiles reduceTiles : List (List Int)} (hasSpace : spaceTiles ≠ []) :
    (prunedCalls accept spaceTiles reduceTiles).Sublist (lexPairs spaceTiles reduceTiles) := by
  rw [prunedCalls_eq_rows, lexPairs_eq_rows hasSpace]
  exact flatMap_sublist_flatMap fun row _ =>
    ((siblingsAccepted_sublist _ _).trans (List.drop_sublist _ _)).map _

theorem configLoop_start (utils : Utils) (task : SearchTask)
    (extractors : List (List ProducerLoad)) (baseConfig : HwAlignedConfig) (memLevel : Int)
    {spaceTiles reduceTiles : List (List Int)} (hasSpace : spaceTiles ≠ [])
    (hasReduce : reduceTiles ≠ []) (nonempty : ∀ tiles ∈ spaceTiles ++ reduceTiles, tiles ≠ [])
    (fuel : Nat) (pnext : List HwAlignedConfig) :
    configLoop utils task extractors baseConfig memLevel spaceTiles reduceTiles fuel pnext
        (Odometer.start (spaceTiles, reduceTiles)) =
      let calls := prunedCalls (filterPushes utils task baseConfig extractors memLevel) spaceTiles
        reduceTiles
      let call := fun pnext (tuple : List Int × List Int) =>
        configFilter utils task pnext baseConfig extractors tuple.1 tuple.2 memLevel
      if calls.length < fuel then calls.foldlM call pnext
      else (calls.take fuel).foldlM call pnext >>= fun _ => .error .outOfFuel := by
  have spaceNonempty : ∀ tiles ∈ spaceTiles, tiles ≠ [] :=
    fun tiles mem => nonempty tiles (List.mem_append_left _ mem)
  have lastPositive : 0 < (spaceTiles.getLast?.getD []).length := by
    rw [List.getLast?_eq_getLast _ hasSpace]
    exact List.length_pos.mpr (spaceNonempty _ (List.getLast_mem _))
  have fromStart := @callsFrom_row_start (filterPushes utils task baseConfig extractors memLevel)
    spaceTiles reduceTiles lastPositive 0
  rw [Nat.zero_mul, List.drop_zero, ← prunedCalls_eq_rows] at fromStart
  obtain ⟨startNormal, startRank⟩ := Odometer.start_normal hasReduce nonempty
  rw [configLoop_eq spaceNonempty (fun tiles mem => nonempty tiles (List.mem_append_right _ mem))
    hasReduce utils task extractors baseConfig memLevel hasSpace fuel pnext _ startNormal,
    startRank, fromStart]

/-- Starting with every iterator at `begin()`, `while (HasNextConfig) GetNextConfig` calls
`ConfigFilter` on the tuples of the product, in lexicographic order, whose earlier siblings along
the last space list were all accepted, and on no other; given more iterations than calls it
returns what they push, so it never reads past an end.  When rejection is upward-closed along the
last space list, it pushes what the accepted tuples of the whole product push, in that order. -/
theorem configLoop_prunedWalk (utils : Utils) (task : SearchTask)
    (extractors : List (List ProducerLoad)) (baseConfig : HwAlignedConfig) (memLevel : Int)
    {spaceTiles reduceTiles : List (List Int)} (hasSpace : spaceTiles ≠ [])
    (hasReduce : reduceTiles ≠ []) (nonempty : ∀ tiles ∈ spaceTiles ++ reduceTiles, tiles ≠ [])
    (pnext : List HwAlignedConfig) :
    let accept := filterPushes utils task baseConfig extractors memLevel
    let call := fun pnext (tuple : List Int × List Int) =>
      configFilter utils task pnext baseConfig extractors tuple.1 tuple.2 memLevel
    let walk := fun fuel => configLoop utils task extractors baseConfig memLevel spaceTiles
      reduceTiles fuel pnext (Odometer.start (spaceTiles, reduceTiles))
    (prunedCalls accept spaceTiles reduceTiles).Sublist (lexPairs spaceTiles reduceTiles) ∧
    (∀ fuel, (prunedCalls accept spaceTiles reduceTiles).length < fuel →
      walk fuel = (prunedCalls accept spaceTiles reduceTiles).foldlM call pnext) ∧
    ((∀ reduceTile ∈ lexTuples reduceTiles, ∀ spacePrefix ∈ lexTuples spaceTiles.dropLast,
        ∀ (earlier later : Nat) (tile tile' : Int), earlier < later →
          (spaceTiles.getLast?.getD [])[earlier]? = some tile →
          (spaceTiles.getLast?.getD [])[later]? = some tile' →
          accept (spacePrefix ++ [tile]) reduceTile = false →
          accept (spacePrefix ++ [tile']) reduceTile = false) →
      ∀ fuel, (prunedCalls accept spaceTiles reduceTiles).length < fuel →
        walk fuel =
          ((lexPairs spaceTiles reduceTiles).filter fun tuple => accept tuple.1 tuple.2).foldlM
            call pnext) := by
  intro accept call walk
  have walkEq : ∀ fuel, (prunedCalls accept spaceTiles reduceTiles).length < fuel →
      walk fuel = (prunedCalls accept spaceTiles reduceTiles).foldlM call pnext :=
    fun fuel enough => by
      have ran := configLoop_start utils task extractors baseConfig memLevel hasSpace hasReduce
        nonempty fuel pnext
      rw [if_pos enough] at ran
      exact ran
  refine ⟨prunedCalls_sublist accept hasSpace, walkEq, fun upward fuel enough => ?_⟩
  have noop : ∀ tuple ∈ prunedCalls accept spaceTiles reduceTiles,
      accept tuple.1 tuple.2 = false → ∀ pushed, call pushed tuple = .ok pushed := by
    intro tuple _ rejected pushed
    simp only [accept, filterPushes, bne_eq_false_iff_eq] at rejected
    simp [call, configFilter_append utils task pushed, rejected]
  rw [walkEq fuel enough,
    @foldlM_filter_noop _ _ call (fun tuple => accept tuple.1 tuple.2) _ noop pnext,
    prunedCalls_eq_rows, lexPairs_eq_rows hasSpace, List.filter_flatMap, List.filter_flatMap]
  congr 1
  refine List.flatMap_congr fun row mem => ?_
  simp only [walkRows, List.mem_flatMap, List.mem_map] at mem
  obtain ⟨reduceTile, reduceMem, spacePrefix, prefixMem, rfl⟩ := mem
  rw [rowCalls, List.drop_zero, List.filter_map, List.filter_map]
  exact congrArg _ (siblingsAccepted_filter _ (upward reduceTile reduceMem spacePrefix prefixMem))

/-- The matmul walk over two space lists of two tiles and one reduce list of one tile returns
what its pruned calls push, in five iterations. -/
theorem matmulWalk_returns :
    [[1, 2], [1, 2]] ≠ ([] : List (List Int)) ∧ [[1]] ≠ ([] : List (List Int)) ∧
    (∀ tiles ∈ [[1, 2], [1, 2]] ++ [[1]], tiles ≠ ([] : List Int)) ∧
    configLoop ⟨fun _ => [], fun _ _ => 1⟩ matmulNarrowTransactions matmulLoads
        HwAlignedConfig.empty 2 [[1, 2], [1, 2]] [[1]] 5 []
        (Odometer.start ([[1, 2], [1, 2]], [[1]])) =
      (prunedCalls (filterPushes ⟨fun _ => [], fun _ _ => 1⟩ matmulNarrowTransactions
          HwAlignedConfig.empty matmulLoads 2) [[1, 2], [1, 2]] [[1]]).foldlM
        (fun pnext tuple => configFilter ⟨fun _ => [], fun _ _ => 1⟩ matmulNarrowTransactions pnext
          HwAlignedConfig.empty matmulLoads tuple.1 tuple.2 2) [] := by
  obtain ⟨visited, walk, -⟩ := @configLoop_prunedWalk ⟨fun _ => [], fun _ _ => 1⟩
    matmulNarrowTransactions matmulLoads HwAlignedConfig.empty 2 [[1, 2], [1, 2]] [[1]]
    (by decide) (by decide) (by decide) []
  exact ⟨by decide, by decide, by decide, walk 5 (visited.length_le.trans_lt (by decide))⟩

end FTuner
