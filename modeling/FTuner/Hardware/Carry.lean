import FTuner.Hardware.EmitConfig
import Mathlib.Algebra.BigOperators.Group.List
import Mathlib.Tactic.Ring

namespace FTuner

/-! # The odometer's carries

The positions of the iterators of `GetNextConfig` read as one mixed-radix numeral: the reduce
iterators, then the space iterators, each of radix the length of its tile list, the first one
most significant.  A carry (`carrySpace`, `carryReduce`) keeps the value of that numeral and
leaves every digit below its radix, except the first reduce iterator, which may stand at its
end.  Lists of digits are split as `pre ++ digit :: post` around the position a carry reads, so
that each read and write of the carry is one rewrite.
-/

/-- The value of `digits` in the radices `radices`, the first digit most significant. -/
def digitsValue : List Nat → List Nat → Nat
  | _ :: radices, digit :: digits => digit * radices.prod + digitsValue radices digits
  | _, _ => 0

/-- One digit per radix, each below its radix: iterators that can all be dereferenced. -/
def Within : List Nat → List Nat → Prop
  | [], [] => True
  | radix :: radices, digit :: digits => digit < radix ∧ Within radices digits
  | _, _ => False

/-- The digits a carry leaves: `Within`, except that the first digit may have reached its radix,
as `reduce_ptr[0]` does at the end of the walk. -/
def Normal : List Nat → List Nat → Prop
  | radix :: radices, digit :: digits => digit ≤ radix ∧ Within radices digits
  | _, _ => False

section Digits

variable {radix digit : Nat} {radices digits : List Nat}

@[simp] theorem within_nil : Within [] [] := trivial

@[simp] theorem within_cons :
    Within (radix :: radices) (digit :: digits) ↔ digit < radix ∧ Within radices digits :=
  Iff.rfl

@[simp] theorem normal_cons :
    Normal (radix :: radices) (digit :: digits) ↔ digit ≤ radix ∧ Within radices digits :=
  Iff.rfl

theorem Within.length_eq : ∀ {radices digits : List Nat},
    Within radices digits → radices.length = digits.length
  | [], [], _ => rfl
  | _ :: _, _ :: _, ⟨_, rest⟩ => congrArg (· + 1) rest.length_eq

theorem Normal.length_eq : ∀ {radices digits : List Nat},
    Normal radices digits → radices.length = digits.length
  | _ :: _, _ :: _, ⟨_, rest⟩ => congrArg (· + 1) rest.length_eq

theorem within_append : ∀ {radices digits : List Nat} (radices' digits' : List Nat),
    radices.length = digits.length →
    (Within (radices ++ radices') (digits ++ digits') ↔
      Within radices digits ∧ Within radices' digits')
  | [], [], _, _, _ => by simp [Within]
  | _ :: radices, _ :: digits, radices', digits', same => by
      simp [within_append radices' digits' (Nat.succ.inj same), and_assoc]

theorem Within.normal : ∀ {radices digits : List Nat}, Within radices digits → digits ≠ [] →
    Normal radices digits
  | _ :: _, _ :: _, ⟨below, rest⟩, _ => ⟨le_of_lt below, rest⟩
  | [], [], _, empty => absurd rfl empty

theorem Normal.snoc : ∀ {radices digits : List Nat}, Normal radices digits → digit < radix →
    Normal (radices ++ [radix]) (digits ++ [digit])
  | _ :: _, _ :: _, ⟨first, rest⟩, below =>
      ⟨first, (within_append _ _ rest.length_eq).mpr ⟨rest, below, trivial⟩⟩

theorem Normal.append : ∀ {radices digits radices' digits' : List Nat}, Normal radices digits →
    Within radices' digits' → Normal (radices ++ radices') (digits ++ digits')
  | _ :: _, _ :: _, _, _, ⟨first, rest⟩, within =>
      ⟨first, (within_append _ _ rest.length_eq).mpr ⟨rest, within⟩⟩

theorem digitsValue_append : ∀ {radices digits : List Nat} (radices' digits' : List Nat),
    radices.length = digits.length →
    digitsValue (radices ++ radices') (digits ++ digits') =
      digitsValue radices digits * radices'.prod + digitsValue radices' digits'
  | [], [], _, _, _ => by simp [digitsValue]
  | _ :: radices, digit :: digits, radices', digits', same => by
      rw [List.cons_append, List.cons_append, digitsValue, digitsValue, List.prod_append,
        digitsValue_append radices' digits' (Nat.succ.inj same)]
      ring

theorem digitsValue_snoc (same : radices.length = digits.length) :
    digitsValue (radices ++ [radix]) (digits ++ [digit]) =
      digitsValue radices digits * radix + digit := by
  simp [digitsValue_append _ _ same, digitsValue]

theorem Within.digitsValue_lt : ∀ {radices digits : List Nat},
    Within radices digits → digitsValue radices digits < radices.prod
  | [], [], _ => by simp [digitsValue]
  | radix :: radices, digit :: digits, ⟨below, rest⟩ => by
      have := rest.digitsValue_lt
      calc digit * radices.prod + digitsValue radices digits < (digit + 1) * radices.prod := by
            rw [Nat.succ_mul]
            omega
        _ ≤ radix * radices.prod := Nat.mul_le_mul_right _ below

theorem Normal.lt_prod_iff (normal : Normal (radix :: radices) (digit :: digits)) :
    digitsValue (radix :: radices) (digit :: digits) < (radix :: radices).prod ↔ digit < radix := by
  have := normal.2.digitsValue_lt
  simp only [digitsValue, List.prod_cons]
  constructor
  · intro below
    by_contra reached
    have : radix * radices.prod ≤ digit * radices.prod :=
      Nat.mul_le_mul_right _ (not_lt.mp reached)
    omega
  · exact fun below => (within_cons.mpr ⟨below, normal.2⟩).digitsValue_lt

end Digits

section Access

variable {α : Type} {pre post : List α} {value : α} {index : Nat} (what : String)

@[simp] theorem readAt_append_cons (at_ : pre.length = index) :
    readAt (pre ++ value :: post) index what = .ok value := by
  rw [readAt, ← at_, List.getElem?_append_right (le_refl _), Nat.sub_self, List.getElem?_cons_zero]

@[simp] theorem writeAt_append_cons (at_ : pre.length = index) (other : α) :
    writeAt (pre ++ value :: post) index other what = .ok (pre ++ other :: post) := by
  subst at_
  simp [writeAt, List.set_append_right]

@[simp] theorem bump_append_cons {pre post : List Nat} {digit : Nat} (at_ : pre.length = index) :
    bump (pre ++ digit :: post) index what = .ok (pre ++ (digit + 1) :: post) := by
  simp [bump, at_]

end Access

theorem exists_eq_snoc {α : Type} {values : List α} (nonempty : values ≠ []) :
    ∃ front last, values = front ++ [last] :=
  match values.eq_nil_or_concat with
  | .inl empty => absurd empty nonempty
  | .inr ⟨front, last, split⟩ => ⟨front, last, by simpa using split⟩

section Carries

variable {reduceTiles : List (List Int)} (nonempty : ∀ tiles ∈ reduceTiles, tiles ≠ [])
include nonempty

theorem carryReduce_normal : ∀ (j : Nat) {pre post : List Nat} {digit : Nat}
    {tilesPre tilesPost : List (List Int)} {tiles : List Int},
    reduceTiles = tilesPre ++ tiles :: tilesPost → pre.length = j → tilesPre.length = j →
    Within (tilesPre.map List.length) pre → digit ≤ tiles.length →
    ∃ pre' digit', carryReduce reduceTiles j (pre ++ digit :: post) = .ok (pre' ++ digit' :: post) ∧
      Normal ((tilesPre ++ [tiles]).map List.length) (pre' ++ [digit']) ∧
      digitsValue ((tilesPre ++ [tiles]).map List.length) (pre' ++ [digit']) =
        digitsValue ((tilesPre ++ [tiles]).map List.length) (pre ++ [digit])
  | 0, pre, post, digit, tilesPre, tilesPost, tiles, split, preAt, tilesAt, _, atMost => by
      obtain rfl := List.length_eq_zero.mp preAt
      obtain rfl := List.length_eq_zero.mp tilesAt
      subst split
      refine ⟨[], digit, ?_, ⟨atMost, trivial⟩, rfl⟩
      simp [carryReduce, readAt]
  | j + 1, pre, post, digit, tilesPre, tilesPost, tiles, split, preAt, tilesAt, within, atMost => by
      obtain ⟨pre, last, rfl⟩ := exists_eq_snoc (List.ne_nil_of_length_eq_add_one preAt)
      obtain ⟨tilesPre, lastTiles, rfl⟩ :=
        exists_eq_snoc (List.ne_nil_of_length_eq_add_one tilesAt)
      simp only [List.length_append, List.length_singleton, Nat.succ.injEq] at preAt tilesAt
      have lengths : (tilesPre.map List.length).length = pre.length := by simp [preAt, tilesAt]
      obtain ⟨before, lastBelow, -⟩ :=
        (@within_append (tilesPre.map List.length) pre [lastTiles.length] [last] lengths).mp
          (by simpa using within)
      have tilesRead : readAt reduceTiles (j + 1) "reduce_tiles" = .ok tiles := by
        rw [split]
        exact readAt_append_cons _ (by simp [tilesAt])
      have digitRead : readAt (pre ++ [last] ++ digit :: post) (j + 1) "reduce_ptr" = .ok digit :=
        readAt_append_cons _ (by simp [preAt])
      rw [carryReduce, tilesRead, ok_bind, digitRead, ok_bind]
      split_ifs with reached
      · rw [writeAt_append_cons _ (by simp [preAt]), ok_bind, List.append_assoc,
          List.singleton_append, bump_append_cons _ preAt, ok_bind]
        obtain ⟨pre', digit', carried, normal, value⟩ := carryReduce_normal j
          (split.trans (List.append_assoc _ _ _)) preAt tilesAt before lastBelow
        refine ⟨pre' ++ [digit'], 0, by simpa using carried, ?_, ?_⟩
        · simpa using normal.snoc (List.length_pos.mpr (nonempty tiles (by simp [split])))
        · have normalLength := normal.length_eq
          simp only [List.map_append, List.map_cons, List.map_nil, List.length_append,
            List.length_map, List.length_singleton] at normalLength value ⊢
          rw [digitsValue_snoc (by simpa using normalLength), value,
            digitsValue_snoc (by simp [lengths]), digitsValue_snoc (by simp [lengths]),
            digitsValue_snoc (by simp [lengths]), reached, Nat.succ_eq_add_one]
          ring
      · refine ⟨pre ++ [last], digit, rfl, ?_, rfl⟩
        simpa using (within.normal (by simp)).snoc (lt_of_le_of_ne atMost reached)
omit nonempty in
theorem digitsValue_succ {radices digits : List Nat} {radix digit : Nat}
    (same : radices.length = digits.length) :
    digitsValue (radices ++ [radix]) (digits ++ [digit + 1]) =
      digitsValue (radices ++ [radix]) (digits ++ [digit]) + 1 := by
  rw [digitsValue_snoc same, digitsValue_snoc same]
  rfl

variable {spaceTiles : List (List Int)} (spaceNonempty : ∀ tiles ∈ spaceTiles, tiles ≠ [])
  {reducePtr : List Nat} (reduceWithin : Within (reduceTiles.map List.length) reducePtr)
  (hasReduce : reduceTiles ≠ [])
include spaceNonempty reduceWithin hasReduce

omit spaceNonempty in
theorem carryOut_normal : ∃ bumped reducePtr',
    bump reducePtr (reducePtr.length - 1) "reduce_ptr" = .ok bumped ∧
    carryReduce reduceTiles (reducePtr.length - 1) bumped = .ok reducePtr' ∧
    Normal (reduceTiles.map List.length) reducePtr' ∧
    digitsValue (reduceTiles.map List.length) reducePtr' =
      digitsValue (reduceTiles.map List.length) reducePtr + 1 := by
  obtain ⟨tilesPre, lastTiles, split⟩ := exists_eq_snoc hasReduce
  have lengths := reduceWithin.length_eq
  obtain ⟨pre, last, rfl⟩ := exists_eq_snoc (List.ne_nil_of_length_pos (by
    rw [← lengths, List.length_map]
    exact List.length_pos.mpr hasReduce))
  rw [split, List.map_append, List.length_append, List.length_append] at lengths
  simp only [List.length_map, List.map_cons, List.map_nil, List.length_singleton,
    Nat.add_right_cancel_iff] at lengths
  obtain ⟨before, lastBelow, -⟩ :=
    (@within_append (tilesPre.map List.length) pre [lastTiles.length] [last]
      (by simpa using lengths)).mp (by simpa [split] using reduceWithin)
  obtain ⟨pre', digit', carried, normal, value⟩ := carryReduce_normal nonempty pre.length
    (split.trans rfl) rfl lengths before lastBelow
  refine ⟨pre ++ [last + 1], pre' ++ [digit'], by simp [bump_append_cons], by simpa using carried,
    by rwa [split], ?_⟩
  · rw [split, value]
    simpa using digitsValue_succ (by simpa using lengths)

theorem carrySpace_normal : ∀ (i : Nat) {pre post : List Nat} {digit : Nat}
    {tilesPre tilesPost : List (List Int)} {tiles : List Int},
    spaceTiles = tilesPre ++ tiles :: tilesPost → pre.length = i → tilesPre.length = i →
    Within (tilesPre.map List.length) pre → digit ≤ tiles.length →
    ∃ pre' digit' reducePtr',
      carrySpace spaceTiles reduceTiles i ⟨pre ++ digit :: post, reducePtr⟩ =
        .ok ⟨pre' ++ digit' :: post, reducePtr'⟩ ∧
      Within (tilesPre.map List.length ++ [tiles.length]) (pre' ++ [digit']) ∧
      Normal (reduceTiles.map List.length) reducePtr' ∧
      digitsValue (reduceTiles.map List.length ++ tilesPre.map List.length ++ [tiles.length])
          (reducePtr' ++ pre' ++ [digit']) =
        digitsValue (reduceTiles.map List.length ++ tilesPre.map List.length ++ [tiles.length])
          (reducePtr ++ pre ++ [digit])
  | 0, pre, post, digit, tilesPre, tilesPost, tiles, split, preAt, tilesAt, _, atMost => by
      obtain rfl := List.length_eq_zero.mp preAt
      obtain rfl := List.length_eq_zero.mp tilesAt
      have tilesRead : readAt spaceTiles 0 "space_tiles" = .ok tiles := by
        rw [split]
        exact readAt_append_cons _ rfl
      have positive := List.length_pos.mpr (spaceNonempty tiles (by simp [split]))
      rw [carrySpace, tilesRead, ok_bind]
      have first : ([] : List Nat).length = 0 := rfl
      dsimp only
      rw [readAt_append_cons _ first, ok_bind]
      split_ifs with reached
      · obtain ⟨bumped, reducePtr', bumpedAt, carried, normal, value⟩ :=
          carryOut_normal nonempty reduceWithin hasReduce
        rw [writeAt_append_cons _ first, ok_bind, bumpedAt, ok_bind, carried, ok_bind]
        refine ⟨[], 0, reducePtr', rfl, by simpa using positive, normal, ?_⟩
        simp only [List.map_nil, List.append_nil]
        rw [digitsValue_snoc normal.length_eq, digitsValue_snoc reduceWithin.length_eq, value,
          reached]
        ring
      · refine ⟨[], digit, reducePtr, rfl, by simpa using lt_of_le_of_ne atMost reached,
          reduceWithin.normal fun empty => hasReduce ?_, rfl⟩
        simpa [empty] using reduceWithin.length_eq
  | i + 1, pre, post, digit, tilesPre, tilesPost, tiles, split, preAt, tilesAt, within, atMost => by
      obtain ⟨pre, last, rfl⟩ := exists_eq_snoc (List.ne_nil_of_length_eq_add_one preAt)
      obtain ⟨tilesPre, lastTiles, rfl⟩ :=
        exists_eq_snoc (List.ne_nil_of_length_eq_add_one tilesAt)
      have at_ : (pre ++ [last]).length = i + 1 := preAt
      simp only [List.length_append, List.length_singleton, Nat.succ.injEq] at preAt tilesAt
      have lengths : (tilesPre.map List.length).length = pre.length := by simp [preAt, tilesAt]
      obtain ⟨before, lastBelow, -⟩ :=
        (@within_append (tilesPre.map List.length) pre [lastTiles.length] [last] lengths).mp
          (by simpa using within)
      have tilesRead : readAt spaceTiles (i + 1) "space_tiles" = .ok tiles := by
        rw [split]
        exact readAt_append_cons _ (by simp [tilesAt])
      have positive := List.length_pos.mpr (spaceNonempty tiles (by simp [split]))
      have reduceLengths := reduceWithin.length_eq
      rw [carrySpace, tilesRead, ok_bind]
      dsimp only
      rw [readAt_append_cons _ at_, ok_bind]
      split_ifs with reached
      · rw [writeAt_append_cons _ at_, ok_bind, List.append_assoc, List.singleton_append,
          bump_append_cons _ preAt, ok_bind]
        obtain ⟨pre', digit', reducePtr', carried, spaceWithin, normal, value⟩ :=
          @carrySpace_normal i pre (0 :: post) (last + 1) tilesPre (tiles :: tilesPost) lastTiles
            (split.trans (List.append_assoc _ _ _)) preAt tilesAt before lastBelow
        have spaceLengths := spaceWithin.length_eq
        have normalLengths := normal.length_eq
        simp only [List.length_append, List.length_map, List.length_singleton] at *
        refine ⟨pre' ++ [digit'], 0, reducePtr', by simpa using carried, ?_, normal, ?_⟩
        · rw [List.map_append, List.map_singleton]
          exact (within_append _ _ (by simpa using spaceLengths)).mpr
            ⟨spaceWithin, by simpa using positive⟩
        · rw [List.map_append, List.map_singleton, ← List.append_assoc, ← List.append_assoc,
            ← List.append_assoc, digitsValue_snoc (by simp; omega), value,
            digitsValue_succ (by simp; omega), digitsValue_snoc (by simp; omega),
            digitsValue_snoc (by simp; omega), digitsValue_snoc (by simp; omega), reached]
          ring
      · refine ⟨pre ++ [last], digit, reducePtr, rfl, ?_,
          reduceWithin.normal fun empty => hasReduce ?_, rfl⟩
        · rw [List.map_append, List.map_singleton]
          exact (within_append _ _ (by simpa using lengths)).mpr
            ⟨(within_append _ _ lengths).mpr ⟨before, by simpa using lastBelow⟩,
              by simpa using lt_of_le_of_ne atMost reached⟩
        · simpa [empty] using reduceLengths

end Carries

end FTuner
