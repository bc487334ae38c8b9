import FTuner.Filters.Candidates
import Mathlib.Data.List.Lex
import Mathlib.Data.List.Sort

namespace FTuner

/-! # `HwAlignedConfig::operator<` and the map `filter_cand_states`

`operator<` walks the left config's space tiles, then its reduce tiles, row by row, and reads the
right config's vectors at the same positions; the first entry that differs decides.  Between
configs of one shape (the same nested lengths) it never reads out of range and is the
lexicographic order on the tiles read in that order (`configLess_eq`).  So it is a strict weak
order whose equivalence is tile equality, and the `std::map` `filter_cand_states` of
`EfficientSearch`, keyed by it, holds one entry per tiles (`mapAssign_keyed`).
-/

/-- The inner loop of `HwAlignedConfig::operator<` over one row: the first entry that differs
decides (`some true` for less), `none` when the row equals the other's prefix. -/
def compareRow (what : String) : List Int → List Int → Except Fault (Option Bool)
  | [], _ => .ok none
  | _ :: _, [] => .error (.outOfRange what)
  | value :: values, other :: others =>
      if value < other then .ok (some true)
      else if value > other then .ok (some false)
      else compareRow what values others

/-- The outer loop of `operator<` over one tile field, indexed by the left config's shape. -/
def compareTiles (what : String) : List (List Int) → List (List Int) → Except Fault (Option Bool)
  | [], _ => .ok none
  | _ :: _, [] => .error (.outOfRange what)
  | row :: rows, other :: others => do
      match ← compareRow what row other with
      | some decided => pure (some decided)
      | none => compareTiles what rows others

/-- `HwAlignedConfig::operator<`: the space tiles, then the reduce tiles, lexicographically. -/
def configLess (left right : HwAlignedConfig) : Except Fault Bool := do
  match ← compareTiles "config.space_tiles" left.spaceTiles right.spaceTiles with
  | some decided => pure decided
  | none =>
      pure ((← compareTiles "config.reduce_tiles" left.reduceTiles right.reduceTiles).getD false)

/-- `filter_cand_states[key] = value` on the `std::map`, kept as its entries in key order: an
entry whose key is equivalent under `operator<` gets the value and keeps its key, otherwise the
pair goes before the first greater key. -/
def mapAssign (entries : List (HwAlignedConfig × Option State)) (key : HwAlignedConfig)
    (value : Option State) : Except Fault (List (HwAlignedConfig × Option State)) :=
  match entries with
  | [] => .ok [(key, value)]
  | (existing, old) :: rest => do
      if ← configLess key existing then pure ((key, value) :: (existing, old) :: rest)
      else if ← configLess existing key then
        pure ((existing, old) :: (← mapAssign rest key value))
      else pure ((existing, value) :: rest)

/-- The nested lengths `operator<` walks. -/
def HwAlignedConfig.shape (config : HwAlignedConfig) : List Nat × List Nat :=
  (config.spaceTiles.map List.length, config.reduceTiles.map List.length)

/-- The tiles in the order `operator<` reads them. -/
def HwAlignedConfig.flatTiles (config : HwAlignedConfig) : List Int :=
  config.spaceTiles.flatten ++ config.reduceTiles.flatten

/-- The fields `operator<` reads. -/
def HwAlignedConfig.tiles (config : HwAlignedConfig) : List (List Int) × List (List Int) :=
  (config.spaceTiles, config.reduceTiles)

/-! ## `operator<` is the lexicographic order on the tiles

`<` on `List Int` is Mathlib's `List.Lex (· < ·)`. -/

theorem cons_lt_cons_iff (value : Int) {rest others : List Int} :
    value :: rest < value :: others ↔ rest < others :=
  List.Lex.cons_iff

theorem append_lt_append_left_iff (common : List Int) {rest others : List Int} :
    common ++ rest < common ++ others ↔ rest < others := by
  induction common with
  | nil => rfl
  | cons value common ih => exact (cons_lt_cons_iff value).trans ih

theorem compareRow_eq (what : String) : ∀ {row other : List Int}, row.length = other.length →
    ∀ rest others, compareRow what row other =
      .ok (if row = other then none else some (decide (row ++ rest < other ++ others)))
  | [], [], _, _, _ => by simp [compareRow]
  | value :: values, entry :: entries, same, rest, others => by
      rcases lt_trichotomy value entry with less | rfl | greater
      · have before : value :: (values ++ rest) < entry :: (entries ++ others) :=
          List.Lex.rel less
        simp [compareRow, less, less.ne, before]
      · simp only [List.length_cons, Nat.add_right_cancel_iff] at same
        simp [compareRow, compareRow_eq what same rest others, cons_lt_cons_iff]
      · have after : ¬value :: (values ++ rest) < entry :: (entries ++ others) :=
          lt_asymm (List.Lex.rel greater)
        simp [compareRow, greater, greater.ne', after, not_lt_of_gt greater]

theorem compareTiles_eq (what : String) : ∀ {rows others : List (List Int)},
    rows.map List.length = others.map List.length → ∀ rest rest',
    compareTiles what rows others = .ok (if rows = others then none
      else some (decide (rows.flatten ++ rest < others.flatten ++ rest')))
  | [], [], _, _, _ => by simp [compareTiles]
  | row :: rows, other :: others, same, rest, rest' => by
      simp only [List.map_cons, List.cons.injEq] at same
      simp only [compareTiles, compareRow_eq what same.1 (rows.flatten ++ rest)
        (others.flatten ++ rest'), ok_bind]
      by_cases equal : row = other
      · subst equal
        simp [compareTiles_eq what same.2 rest rest', append_lt_append_left_iff]
      · simp [equal]

theorem configLess_eq {left right : HwAlignedConfig} (same : left.shape = right.shape) :
    configLess left right = .ok (decide (left.flatTiles < right.flatTiles)) := by
  simp only [HwAlignedConfig.shape, Prod.mk.injEq] at same
  simp only [configLess, compareTiles_eq _ same.1 left.reduceTiles.flatten
    right.reduceTiles.flatten, compareTiles_eq _ same.2 [] [], HwAlignedConfig.flatTiles]
  by_cases space : left.spaceTiles = right.spaceTiles
  · by_cases reduce : left.reduceTiles = right.reduceTiles
    · simp [space, reduce]
    · simp [space, reduce, append_lt_append_left_iff]
  · simp [space]

theorem flatTiles_eq_iff {left right : HwAlignedConfig} (same : left.shape = right.shape) :
    left.flatTiles = right.flatTiles ↔ left.tiles = right.tiles := by
  simp only [HwAlignedConfig.shape, Prod.mk.injEq] at same
  constructor
  · intro equal
    have lengths : left.spaceTiles.flatten.length = right.spaceTiles.flatten.length := by
      simp only [List.length_flatten, same.1]
    obtain ⟨space, reduce⟩ := List.append_inj equal lengths
    simp only [HwAlignedConfig.tiles, Prod.mk.injEq, List.eq_iff_flatten_eq]
    exact ⟨⟨space, same.1⟩, reduce, same.2⟩
  · intro equal
    simp only [HwAlignedConfig.tiles, Prod.mk.injEq] at equal
    simp [HwAlignedConfig.flatTiles, equal]

/-- The entries of `filter_cand_states` as the `std::map` keeps them: keys of one shape, in
strictly increasing `operator<` order. -/
def KeyedBy (shape : List Nat × List Nat) (entries : List (HwAlignedConfig × Option State)) :
    Prop :=
  (∀ entry ∈ entries, entry.1.shape = shape) ∧ (entries.map (·.1.flatTiles)).Sorted (· < ·)

/-- The state the map holds for the tiles `tiles`, if any. -/
def lookupTiles (entries : List (HwAlignedConfig × Option State))
    (tiles : List (List Int) × List (List Int)) : Option (Option State) :=
  (entries.find? (·.1.tiles = tiles)).map Prod.snd

@[simp] theorem lookupTiles_nil (tiles : List (List Int) × List (List Int)) :
    lookupTiles [] tiles = none := rfl

@[simp] theorem lookupTiles_cons (key : HwAlignedConfig) (value : Option State)
    (rest : List (HwAlignedConfig × Option State)) (tiles : List (List Int) × List (List Int)) :
    lookupTiles ((key, value) :: rest) tiles =
      if key.tiles = tiles then some value else lookupTiles rest tiles := by
  by_cases same : key.tiles = tiles <;> simp [lookupTiles, List.find?_cons, same]

theorem mapAssign_length {key : HwAlignedConfig} {value : Option State} :
    ∀ {entries assigned}, mapAssign entries key value = .ok assigned →
      0 < assigned.length ∧ assigned.length ≤ entries.length + 1
  | [], _, ran => by
      cases ran
      simp
  | (existing, old) :: rest, _, ran => by
      simp only [mapAssign] at ran
      obtain ⟨less, -, ran⟩ := bind_eq_ok.mp ran
      split at ran
      · cases ran
        simp
      obtain ⟨greater, -, ran⟩ := bind_eq_ok.mp ran
      split at ran
      · obtain ⟨assigned, assign, ran⟩ := bind_eq_ok.mp ran
        cases ran
        have := (mapAssign_length assign).2
        simp only [List.length_cons]
        omega
      · cases ran
        simp

theorem mapAssign_keyed {shape : List Nat × List Nat} {key : HwAlignedConfig}
    (value : Option State) (keyShape : key.shape = shape) :
    ∀ {entries}, KeyedBy shape entries → ∃ assigned, mapAssign entries key value = .ok assigned ∧
      KeyedBy shape assigned ∧
      (∀ tiles, lookupTiles assigned tiles =
        if key.tiles = tiles then some value else lookupTiles entries tiles) ∧
      ∀ flat, flat ∈ assigned.map (·.1.flatTiles) ↔
        flat = key.flatTiles ∨ flat ∈ entries.map (·.1.flatTiles)
  | [], _ => ⟨[(key, value)], rfl, ⟨by simp [keyShape], List.sorted_singleton _⟩,
      fun tiles => by simp, fun flat => by simp⟩
  | (existing, old) :: rest, ⟨shapes, sorted⟩ => by
      have existingShape : existing.shape = shape := shapes _ (List.mem_cons_self _ _)
      have restKeyed : KeyedBy shape rest :=
        ⟨fun entry mem => shapes entry (List.mem_cons_of_mem _ mem), (List.sorted_cons.mp sorted).2⟩
      have above := (List.sorted_cons.mp sorted).1
      have same := keyShape.trans existingShape.symm
      simp only [mapAssign, configLess_eq same, configLess_eq same.symm, ok_bind,
        decide_eq_true_eq]
      rcases lt_trichotomy key.flatTiles existing.flatTiles with less | equal | greater
      · refine ⟨_, if_pos less, ⟨?_, List.sorted_cons.mpr ⟨fun flat mem => ?_, sorted⟩⟩,
          fun tiles => by simp, fun flat => by simp⟩
        · simpa [keyShape] using shapes
        · rcases List.mem_cons.mp mem with rfl | mem
          exacts [less, less.trans (above flat mem)]
      · have sameTiles := (flatTiles_eq_iff same).mp equal
        refine ⟨(existing, value) :: rest, by simp [equal], ⟨?_, sorted⟩, fun tiles => ?_,
          fun flat => by simp [equal]⟩
        · simpa [existingShape] using restKeyed.1
        · by_cases here : existing.tiles = tiles <;> simp [sameTiles, here]
      · obtain ⟨assigned, assign, keyed, looked, keys⟩ := mapAssign_keyed value keyShape restKeyed
        have apart : existing.tiles ≠ key.tiles :=
          fun tiles => greater.ne ((flatTiles_eq_iff same.symm).mpr tiles)
        refine ⟨(existing, old) :: assigned, by simp [not_lt_of_gt greater, greater, assign],
          ⟨?_, ?_⟩, fun tiles => ?_, fun flat => ?_⟩
        · simpa [existingShape] using keyed.1
        · refine List.sorted_cons.mpr ⟨fun flat mem => ?_, keyed.2⟩
          rcases (keys flat).mp mem with rfl | mem
          · exact greater
          · exact above flat mem
        · by_cases here : existing.tiles = tiles
          · subst here
            simp [apart.symm]
          · simp [here, looked]
        · simp only [List.map_cons, List.mem_cons, keys]
          exact or_left_comm

/-- Between configs of one shape `operator<` is irreflexive, transitive and asymmetric, and two
configs are incomparable exactly when their tiles are equal: a strict weak order whose
equivalence is tile equality.  So `filter_cand_states[config] = state` merges `config` into the
entry of equal tiles, if there is one, and leaves every other entry as it was. -/
theorem configLess_strictWeakOrder {a b c : HwAlignedConfig} (ab : a.shape = b.shape)
    (bc : b.shape = c.shape) :
    configLess a a = .ok false ∧
    (configLess a b = .ok true → configLess b c = .ok true → configLess a c = .ok true) ∧
    (configLess a b = .ok true → configLess b a = .ok false) ∧
    (configLess a b = .ok false ∧ configLess b a = .ok false ↔
      a.spaceTiles = b.spaceTiles ∧ a.reduceTiles = b.reduceTiles) ∧
    ∀ state entries, KeyedBy a.shape entries → ∃ assigned,
      mapAssign entries a state = .ok assigned ∧ KeyedBy a.shape assigned ∧
      ∀ tiles, lookupTiles assigned tiles =
        if a.tiles = tiles then some state else lookupTiles entries tiles := by
  simp only [configLess_eq rfl, configLess_eq ab, configLess_eq ab.symm, configLess_eq bc,
    configLess_eq (ab.trans bc), Except.ok.injEq, decide_eq_true_eq, decide_eq_false_iff_not]
  refine ⟨lt_irrefl _, lt_trans, lt_asymm, ?_, fun state entries keyed => ?_⟩
  · have incomparable :
        ¬a.flatTiles < b.flatTiles ∧ ¬b.flatTiles < a.flatTiles ↔ a.flatTiles = b.flatTiles :=
      ⟨fun ⟨notLess, notGreater⟩ => le_antisymm (not_lt.mp notGreater) (not_lt.mp notLess),
        fun equal => by simp [equal]⟩
    rw [incomparable, flatTiles_eq_iff ab, HwAlignedConfig.tiles, HwAlignedConfig.tiles,
      Prod.mk.injEq]
  · obtain ⟨assigned, assign, keyedAfter, looked, -⟩ := mapAssign_keyed state rfl keyed
    exact ⟨assigned, assign, keyedAfter, looked⟩

def tiledConfig (outer inner reduce : Int) : HwAlignedConfig :=
  { HwAlignedConfig.empty with spaceTiles := [[outer], [inner]], reduceTiles := [[reduce], [1]] }

theorem tiledConfigs_strictWeakOrder :
    configLess (tiledConfig 4 2 8) (tiledConfig 4 2 8) = .ok false ∧
    (configLess (tiledConfig 4 2 8) (tiledConfig 4 2 16) = .ok true →
      configLess (tiledConfig 4 2 16) (tiledConfig 8 2 1) = .ok true →
      configLess (tiledConfig 4 2 8) (tiledConfig 8 2 1) = .ok true) ∧
    (configLess (tiledConfig 4 2 8) (tiledConfig 4 2 16) = .ok true →
      configLess (tiledConfig 4 2 16) (tiledConfig 4 2 8) = .ok false) ∧
    (configLess (tiledConfig 4 2 8) (tiledConfig 4 2 16) = .ok false ∧
        configLess (tiledConfig 4 2 16) (tiledConfig 4 2 8) = .ok false ↔
      (tiledConfig 4 2 8).spaceTiles = (tiledConfig 4 2 16).spaceTiles ∧
        (tiledConfig 4 2 8).reduceTiles = (tiledConfig 4 2 16).reduceTiles) ∧
    ∀ state entries, KeyedBy (tiledConfig 4 2 8).shape entries → ∃ assigned,
      mapAssign entries (tiledConfig 4 2 8) state = .ok assigned ∧
      KeyedBy (tiledConfig 4 2 8).shape assigned ∧
      ∀ tiles, lookupTiles assigned tiles =
        if (tiledConfig 4 2 8).tiles = tiles then some state else lookupTiles entries tiles :=
  configLess_strictWeakOrder rfl rfl

end FTuner
