import FTuner.Policy.Cache
import Mathlib.Data.List.Sort
import Mathlib.Algebra.Order.Ring.Rat

namespace FTuner

/-! # The retention heap of EvolutionarySearch

Across its generations `EvolutionarySearch` keeps the best `out_size` states it has scored in a
`std::vector` kept as a heap under `cmp = left.second > right.second`, so that `front()` is a
state of least score, beside an `std::unordered_set` `in_heap` of `ToStr`s seeded with
`measured_states_set_`.  A state whose `ToStr` is not in `in_heap` is pushed while the heap is
short of `out_size`, and otherwise replaces the front when it scores higher; `in_heap` then
trades the front's `ToStr` for the new one.

The heap is modelled by its elements; which state of least score sits in front depends on the
heap's layout, and `HeapFront` leaves it open.  `Retention.Sound` is what the heap and `in_heap`
hold after any sequence of scored states (`Retention.Sound.retainState`), and `BestOf` is what
the sorted heap is for (`Retention.Sound.bestOf`).
-/

/-- `heap.front()`, the element `std::pop_heap` takes out: `choose step heap` is its index when the
`step`-th state is scored.  It has the least score; which one of least score it is is up to the
heap's layout. -/
structure HeapFront (σ : Type) where
  choose : Nat → List (σ × ℚ) → Nat
  least : ∀ step heap, heap ≠ [] →
    ∃ front, heap[choose step heap]? = some front ∧ ∀ item ∈ heap, front.2 ≤ item.2

/-- The first element that scores no higher than any after it. -/
def leastIndex {σ : Type} : List (σ × ℚ) → Nat
  | [] => 0
  | item :: rest => if ∀ other ∈ rest, item.2 ≤ other.2 then 0 else leastIndex rest + 1

/-- One layout's choice: the first element of least score. -/
def HeapFront.leftmost {σ : Type} : HeapFront σ where
  choose _ := leastIndex
  least _ heap nonempty := by
    dsimp only
    induction heap with
    | nil => exact absurd rfl nonempty
    | cons item rest ih =>
        by_cases first : ∀ other ∈ rest, item.2 ≤ other.2
        · refine ⟨item, by rw [leastIndex, if_pos first, List.getElem?_cons_zero], ?_⟩
          rintro other (_ | ⟨_, later⟩)
          exacts [le_rfl, first other later]
        · obtain ⟨other, otherMem, below⟩ : ∃ other ∈ rest, other.2 < item.2 := by
            simpa using first
          obtain ⟨front, read, frontLeast⟩ := ih (List.ne_nil_of_mem otherMem)
          refine ⟨front, by rwa [leastIndex, if_neg first, List.getElem?_cons_succ], ?_⟩
          rintro _ (_ | ⟨_, later⟩)
          exacts [(frontLeast other otherMem).trans below.le, frontLeast _ later]

/-- `heap` and `in_heap`, with the states scored so far, which the code does not keep. -/
structure Retention (σ : Type) where
  heap : List (σ × ℚ)
  inHeap : List String
  scored : List σ

variable {σ : Type} (toStr : σ → String) (predict : σ → ℚ)

/-- The `ToStr`s of the heap's states. -/
def heapStrs (heap : List (σ × ℚ)) : List String :=
  heap.map fun item => toStr item.1

@[simp] theorem heapStrs_append (heap rest : List (σ × ℚ)) :
    heapStrs toStr (heap ++ rest) = heapStrs toStr heap ++ heapStrs toStr rest :=
  List.map_append _ _ _

@[simp] theorem heapStrs_singleton (item : σ × ℚ) : heapStrs toStr [item] = [toStr item.1] :=
  rfl

theorem mem_heapStrs {heap : List (σ × ℚ)} {item : σ × ℚ} (mem : item ∈ heap) :
    toStr item.1 ∈ heapStrs toStr heap :=
  List.mem_map_of_mem _ mem

theorem mem_append_singleton {α : Type} {values : List α} {value other : α} :
    other ∈ values ++ [value] ↔ other ∈ values ∨ other = value := by
  simp

/-- The heap before the first generation: empty, and `in_heap(measured_states_set_)`. -/
def Retention.initial (measuredStatesSet : List String) : Retention σ :=
  ⟨[], measuredStatesSet, []⟩

variable (front : HeapFront σ) (outSize : Int)

/-- One turn of the loop over `*pnow`, the state scoring `predict state` (`pop_scores[i]`). -/
def retainState (kept : Retention σ) (state : σ) : Except Fault (Retention σ) := do
  let stateStr := toStr state
  let scored := kept.scored ++ [state]
  if stateStr ∈ kept.inHeap then pure { kept with scored }
  else if (kept.heap.length : Int) < outSize then
    pure ⟨kept.heap ++ [(state, predict state)], stateStr :: kept.inHeap, scored⟩
  else
    let index := front.choose kept.scored.length kept.heap
    let least ← readAt kept.heap index "heap"
    if predict state > least.2 then
      pure ⟨kept.heap.eraseIdx index ++ [(state, predict state)],
        stateStr :: kept.inHeap.filter (· != toStr least.1), scored⟩
    else pure { kept with scored }

/-- The loop over the states of one generation. -/
def retainStates (kept : Retention σ) (states : List σ) : Except Fault (Retention σ) :=
  states.foldlM (retainState toStr predict front outSize) kept

/-- `std::sort(heap.begin(), heap.end(), cmp)`: by non-increasing score.  `std::sort` is not
stable; insertion sort gives one of its orders. -/
def sortHeap (heap : List (σ × ℚ)) : List (σ × ℚ) :=
  heap.insertionSort fun left right => right.2 ≤ left.2

theorem retainState_ok (positive : 0 < outSize) (kept : Retention σ) (state : σ) :
    ∃ next, retainState toStr predict front outSize kept state = .ok next := by
  dsimp only [FTuner.retainState]
  split_ifs with present short
  · exact ⟨_, rfl⟩
  · exact ⟨_, rfl⟩
  · have nonempty : kept.heap ≠ [] := fun empty => by simp [empty] at short; omega
    obtain ⟨least, read, -⟩ := front.least kept.scored.length kept.heap nonempty
    simp only [readAt, read, ok_bind]
    split <;> exact ⟨_, rfl⟩

theorem retainStates_ok (positive : 0 < outSize) :
    ∀ (states : List σ) (kept : Retention σ),
      ∃ next, retainStates toStr predict front outSize kept states = .ok next
  | [], kept => ⟨kept, rfl⟩
  | state :: states, kept => by
      obtain ⟨next, turned⟩ := retainState_ok toStr predict front outSize positive kept state
      simpa [retainStates, turned] using retainStates_ok positive states next

section Sound

variable (measured : List String)

/-- What `EvolutionarySearch` is for, of the states with their scores it returns: sorted by
non-increasing score, pairwise distinct by `ToStr`, none measured, as many as `out_size` allows of
the distinct unmeasured `ToStr`s scored, and no scored state left out scoring above one kept. -/
structure BestOf (scored : List σ) (retained : List (σ × ℚ)) : Prop where
  sorted : retained.Pairwise fun left right => right.2 ≤ left.2
  distinct : (heapStrs toStr retained).Nodup
  unmeasured : ∀ item ∈ retained, toStr item.1 ∉ measured
  scoredRetained : ∀ item ∈ retained, item.1 ∈ scored ∧ item.2 = predict item.1
  full : (retained.length : Int) = min outSize (distinctUnmeasured toStr measured scored)
  best : ∀ state ∈ scored, toStr state ∉ measured → toStr state ∉ heapStrs toStr retained →
    ∀ item ∈ retained, predict state ≤ item.2

/-- The law of the heap and `in_heap` over the states scored so far. -/
structure Retention.Sound (kept : Retention σ) : Prop where
  inHeapExact : ∀ str, str ∈ kept.inHeap ↔ str ∈ measured ∨ str ∈ heapStrs toStr kept.heap
  distinct : (heapStrs toStr kept.heap).Nodup
  unmeasured : ∀ item ∈ kept.heap, toStr item.1 ∉ measured
  scoredHeap : ∀ item ∈ kept.heap, item.1 ∈ kept.scored ∧ item.2 = predict item.1
  bounded : (kept.heap.length : Int) ≤ outSize
  fillsFirst : (kept.heap.length : Int) < outSize → ∀ state ∈ kept.scored,
    toStr state ∉ measured → toStr state ∈ heapStrs toStr kept.heap
  dominated : ∀ state ∈ kept.scored, toStr state ∉ measured →
    toStr state ∉ heapStrs toStr kept.heap → ∀ item ∈ kept.heap, predict state ≤ item.2

theorem Retention.Sound.initial (nonnegative : 0 ≤ outSize) :
    (Retention.initial measured : Retention σ).Sound toStr predict outSize measured where
  inHeapExact _ := by simp [Retention.initial, heapStrs]
  distinct := List.nodup_nil
  unmeasured _ := nofun
  scoredHeap _ := nofun
  bounded := nonnegative
  fillsFirst _ _ := nofun
  dominated _ := nofun

variable {toStr predict outSize measured} {kept : Retention σ} {state : σ}

theorem Retention.Sound.skip (sound : kept.Sound toStr predict outSize measured)
    (present : toStr state ∈ kept.inHeap) :
    ({ kept with scored := kept.scored ++ [state] } : Retention σ).Sound toStr predict outSize
      measured where
  inHeapExact := sound.inHeapExact
  distinct := sound.distinct
  unmeasured := sound.unmeasured
  scoredHeap item mem := (sound.scoredHeap item mem).imp_left (List.mem_append_left _)
  bounded := sound.bounded
  fillsFirst short other mem fresh := by
    rcases mem_append_singleton.mp mem with old | rfl
    · exact sound.fillsFirst short other old fresh
    · exact ((sound.inHeapExact _).mp present).resolve_left fresh
  dominated other mem fresh outside := by
    rcases mem_append_singleton.mp mem with old | rfl
    · exact sound.dominated other old fresh outside
    · exact absurd (((sound.inHeapExact _).mp present).resolve_left fresh) outside

theorem Retention.Sound.push (sound : kept.Sound toStr predict outSize measured)
    (absent : toStr state ∉ kept.inHeap) (short : (kept.heap.length : Int) < outSize) :
    (⟨kept.heap ++ [(state, predict state)], toStr state :: kept.inHeap,
      kept.scored ++ [state]⟩ : Retention σ).Sound toStr predict outSize measured := by
  obtain ⟨fresh, outside⟩ := not_or.mp ((sound.inHeapExact _).not.mp absent)
  refine ⟨fun str => ?_, ?_, ?_, ?_, ?_, fun _ other mem unmeasured => ?_, ?_⟩
  · simp only [List.mem_cons, sound.inHeapExact, heapStrs_append, heapStrs_singleton,
      List.mem_append, List.not_mem_nil, or_false]
    exact or_comm.trans or_assoc
  · simp only [heapStrs_append, heapStrs_singleton]
    exact sound.distinct.append (List.nodup_singleton _) (List.disjoint_singleton.mpr outside)
  · intro item mem
    rcases mem_append_singleton.mp mem with old | rfl
    exacts [sound.unmeasured item old, fresh]
  · intro item mem
    rcases mem_append_singleton.mp mem with old | rfl
    · exact (sound.scoredHeap item old).imp_left (List.mem_append_left _)
    · exact ⟨List.mem_append_right _ (List.mem_singleton_self _), rfl⟩
  · simp only [List.length_append, List.length_singleton]
    omega
  · simp only [heapStrs_append, heapStrs_singleton, List.mem_append, List.mem_singleton]
    rcases mem_append_singleton.mp mem with old | rfl
    exacts [.inl (sound.fillsFirst short other old unmeasured), .inr rfl]
  · intro other mem unmeasured missing
    simp only [heapStrs_append, heapStrs_singleton, List.mem_append, List.mem_singleton,
      not_or] at missing
    rcases mem_append_singleton.mp mem with old | rfl
    exacts [absurd (sound.fillsFirst short other old unmeasured) missing.1, absurd rfl missing.2]

theorem perm_cons_eraseIdx {α : Type} {values : List α} {index : Nat} {value : α}
    (read : values[index]? = some value) : values.Perm (value :: values.eraseIdx index) := by
  obtain ⟨inRange, rfl⟩ := List.getElem?_eq_some_iff.mp read
  rw [List.eraseIdx_eq_take_drop_succ]
  refine List.Perm.trans ?_ List.perm_middle
  rw [← List.drop_eq_getElem_cons inRange, List.take_append_drop]

theorem heapStrs_eraseIdx {heap : List (σ × ℚ)} {index : Nat} {least : σ × ℚ}
    (read : heap[index]? = some least) (distinct : (heapStrs toStr heap).Nodup) :
    (heapStrs toStr (heap.eraseIdx index)).Nodup ∧
      toStr least.1 ∉ heapStrs toStr (heap.eraseIdx index) ∧
      ∀ str, str ∈ heapStrs toStr heap ↔
        str = toStr least.1 ∨ str ∈ heapStrs toStr (heap.eraseIdx index) := by
  have strs := (perm_cons_eraseIdx read).map fun item => toStr item.1
  obtain ⟨gone, rest⟩ := List.nodup_cons.mp (strs.nodup_iff.mp distinct)
  exact ⟨rest, gone, fun _ => strs.mem_iff.trans List.mem_cons⟩

section Full

variable {least : σ × ℚ}
  (sound : kept.Sound toStr predict outSize measured) (absent : toStr state ∉ kept.inHeap)
  (full : ¬(kept.heap.length : Int) < outSize)
  (leastMin : ∀ item ∈ kept.heap, least.2 ≤ item.2)
include sound absent full leastMin

theorem Retention.Sound.replace {index : Nat} (read : kept.heap[index]? = some least)
    (consistent : ∀ left right, toStr left = toStr right → predict left = predict right)
    (higher : predict state > least.2) :
    (⟨kept.heap.eraseIdx index ++ [(state, predict state)],
      toStr state :: kept.inHeap.filter (· != toStr least.1),
      kept.scored ++ [state]⟩ : Retention σ).Sound toStr predict outSize measured := by
  obtain ⟨fresh, outside⟩ := not_or.mp ((sound.inHeapExact _).not.mp absent)
  obtain ⟨restDistinct, oldGone, memHeap⟩ := heapStrs_eraseIdx read sound.distinct
  have sameLength := List.length_eraseIdx_add_one (List.getElem?_eq_some_iff.mp read).1
  have leastIn : least ∈ kept.heap := List.getElem?_mem read
  have oldUnmeasured := sound.unmeasured least leastIn
  have kept_of_mem item (mem : item ∈ kept.heap.eraseIdx index) : item ∈ kept.heap :=
    List.mem_of_mem_eraseIdx mem
  refine ⟨fun str => ?_, ?_, ?_, ?_, ?_, fun short => ?_, fun other mem unmeasured missing => ?_⟩
  · simp only [List.mem_cons, List.mem_filter, bne_iff_ne, ne_eq, sound.inHeapExact, memHeap,
      heapStrs_append, heapStrs_singleton, List.mem_append, List.not_mem_nil, or_false]
    constructor
    · rintro (rfl | ⟨inMeasured | rfl | inRest, other⟩)
      exacts [.inr (.inr rfl), .inl inMeasured, absurd rfl other, .inr (.inl inRest)]
    · rintro (inMeasured | inRest | rfl)
      · exact .inr ⟨.inl inMeasured, fun same => oldUnmeasured (same ▸ inMeasured)⟩
      · exact .inr ⟨.inr (.inr inRest), fun same => oldGone (same ▸ inRest)⟩
      · exact .inl rfl
  · simp only [heapStrs_append, heapStrs_singleton]
    exact restDistinct.append (List.nodup_singleton _)
      (List.disjoint_singleton.mpr fun inRest => outside ((memHeap _).mpr (.inr inRest)))
  · intro item mem
    rcases mem_append_singleton.mp mem with old | rfl
    exacts [sound.unmeasured item (kept_of_mem item old), fresh]
  · intro item mem
    rcases mem_append_singleton.mp mem with old | rfl
    · exact (sound.scoredHeap item (kept_of_mem item old)).imp_left (List.mem_append_left _)
    · exact ⟨List.mem_append_right _ (List.mem_singleton_self _), rfl⟩
  · have bounded := sound.bounded
    simp only [List.length_append, List.length_singleton]
    omega
  · simp only [List.length_append, List.length_singleton] at short
    omega
  · simp only [heapStrs_append, heapStrs_singleton, List.mem_append, List.mem_singleton,
      not_or] at missing
    have belowLeast : predict other ≤ least.2 := by
      by_cases inHeap : toStr other ∈ heapStrs toStr kept.heap
      · have same : toStr other = toStr least.1 :=
          ((memHeap _).mp inHeap).resolve_right missing.1
        exact (consistent _ _ same).trans (sound.scoredHeap least leastIn).2.symm |>.le
      · rcases mem_append_singleton.mp mem with old | rfl
        · exact sound.dominated other old unmeasured inHeap least leastIn
        · exact absurd rfl missing.2
    intro item itemMem
    rcases mem_append_singleton.mp itemMem with old | rfl
    · exact belowLeast.trans (leastMin item (kept_of_mem item old))
    · exact belowLeast.trans higher.le

theorem Retention.Sound.keep (lower : ¬predict state > least.2) :
    ({ kept with scored := kept.scored ++ [state] } : Retention σ).Sound toStr predict outSize
      measured where
  inHeapExact := sound.inHeapExact
  distinct := sound.distinct
  unmeasured := sound.unmeasured
  scoredHeap item mem := (sound.scoredHeap item mem).imp_left (List.mem_append_left _)
  bounded := sound.bounded
  fillsFirst short := absurd short full
  dominated other mem fresh outside := by
    rcases mem_append_singleton.mp mem with old | rfl
    · exact sound.dominated other old fresh outside
    · exact fun item mem => (not_lt.mp lower).trans (leastMin item mem)

end Full

variable (toStr predict outSize)
variable (consistent : ∀ left right, toStr left = toStr right → predict left = predict right)
  (positive : 0 < outSize)
include consistent positive

theorem Retention.Sound.retainState (sound : kept.Sound toStr predict outSize measured)
    (state : σ) : ∃ next, retainState toStr predict front outSize kept state = .ok next ∧
      next.Sound toStr predict outSize measured ∧ next.scored = kept.scored ++ [state] := by
  by_cases present : toStr state ∈ kept.inHeap
  · exact ⟨_, by simp [FTuner.retainState, present], sound.skip present, rfl⟩
  by_cases short : (kept.heap.length : Int) < outSize
  · exact ⟨_, by simp [FTuner.retainState, present, short], sound.push present short, rfl⟩
  have nonempty : kept.heap ≠ [] := fun empty => by simp [empty] at short; omega
  obtain ⟨least, read, leastMin⟩ := front.least kept.scored.length kept.heap nonempty
  by_cases higher : predict state > least.2
  · exact ⟨_, by simp [FTuner.retainState, present, short, readAt, read, higher],
      sound.replace present short leastMin read consistent higher, rfl⟩
  · exact ⟨_, by simp [FTuner.retainState, present, short, readAt, read, higher],
      sound.keep present short leastMin higher, rfl⟩

theorem Retention.Sound.retainStates : ∀ (states : List σ) (kept : Retention σ),
    kept.Sound toStr predict outSize measured →
    ∃ next, retainStates toStr predict front outSize kept states = .ok next ∧
      next.Sound toStr predict outSize measured ∧ next.scored = kept.scored ++ states
  | [], kept, sound => ⟨kept, rfl, sound, by simp⟩
  | state :: states, kept, sound => by
      obtain ⟨next, turned, nextSound, logged⟩ :=
        sound.retainState toStr predict front outSize consistent positive state
      obtain ⟨last, ran, lastSound, lastLogged⟩ :=
        Retention.Sound.retainStates states next nextSound
      refine ⟨last, ?_, lastSound, by simp [lastLogged, logged]⟩
      simpa [FTuner.retainStates, turned] using ran

omit consistent positive in
theorem Retention.Sound.length_eq (sound : kept.Sound toStr predict outSize measured) :
    (kept.heap.length : Int) = min outSize (distinctUnmeasured toStr measured kept.scored) := by
  have inScored : heapStrs toStr kept.heap ⊆
      ((kept.scored.map toStr).filter (· ∉ measured)).dedup := by
    intro str mem
    obtain ⟨item, itemMem, rfl⟩ := List.mem_map.mp mem
    simpa using ⟨⟨item.1, (sound.scoredHeap item itemMem).1, rfl⟩, sound.unmeasured item itemMem⟩
  have atMost := (List.subperm_of_subset sound.distinct inScored).length_le
  simp only [heapStrs, List.length_map] at atMost
  unfold distinctUnmeasured
  by_cases short : (kept.heap.length : Int) < outSize
  · have allIn : ((kept.scored.map toStr).filter (· ∉ measured)).dedup ⊆
        heapStrs toStr kept.heap := by
      intro str mem
      obtain ⟨⟨state, stateMem, rfl⟩, unmeasured⟩ := by simpa using mem
      exact sound.fillsFirst short state stateMem unmeasured
    have atLeast := (List.subperm_of_subset (List.nodup_dedup _) allIn).length_le
    simp only [heapStrs, List.length_map] at atLeast
    omega
  · have := sound.bounded
    omega

omit consistent positive in
theorem Retention.Sound.bestOf (sound : kept.Sound toStr predict outSize measured) :
    BestOf toStr predict outSize measured kept.scored (sortHeap kept.heap) := by
  have sorted := List.perm_insertionSort (fun left right : σ × ℚ => right.2 ≤ left.2) kept.heap
  have sameStrs := sorted.map fun item => toStr item.1
  refine ⟨?_, sameStrs.nodup_iff.mpr sound.distinct,
    fun item mem => sound.unmeasured item (sorted.mem_iff.mp mem),
    fun item mem => sound.scoredHeap item (sorted.mem_iff.mp mem), ?_,
    fun state mem unmeasured outside item itemMem => sound.dominated state mem unmeasured
      (fun inHeap => outside (sameStrs.mem_iff.mpr inHeap)) item (sorted.mem_iff.mp itemMem)⟩
  · have : IsTotal (σ × ℚ) fun left right => right.2 ≤ left.2 := ⟨fun _ _ => le_total _ _⟩
    have : IsTrans (σ × ℚ) fun left right => right.2 ≤ left.2 :=
      ⟨fun _ _ _ first second => second.trans first⟩
    exact List.sorted_insertionSort _ _
  · rw [sortHeap, sorted.length_eq]
    exact sound.length_eq

end Sound

end FTuner
