import FTuner.Hardware.Descriptor
import Mathlib.Data.List.Nodup
import Mathlib.Data.List.Dedup
import Mathlib.Data.Finset.Card

namespace FTuner

/-! # The measured-state cache

`SketchPolicyNode` keeps three fields across `Search`, `ContinueSearchOneRound` and
`EfficientSearch`: `measured_states_set_`, the `ToStr` of every state handed to the measurer,
and the parallel vectors `measured_states_vector_` and `measured_states_throughputs_`.  The
policy layer is generic in the state type and in `ToStr`.

`PickStatesWithEpsGreedy` is the one place that inserts into the set: it draws states from the
best and random lists and records every one whose `ToStr` is new, in the set and in the vector
at once (`pickStatesWithEpsGreedy_eq`), until the batch is full or both lists are used up, so
that no fresh `ToStr` offered is lost (`pickStatesWithEpsGreedy_count`).  Appending one
throughput per recorded state then keeps the cache law `MeasuredCache.Consistent`
(`Consistent.record`).
-/

/-- `measured_states_set_`, `measured_states_vector_` and `measured_states_throughputs_`. -/
structure MeasuredCache (σ : Type) where
  set : List String
  vector : List σ
  throughputs : List ℚ
  deriving DecidableEq, Repr

variable {σ : Type} (toStr : σ → String)

def MeasuredCache.empty : MeasuredCache σ :=
  ⟨[], [], []⟩

/-- The cache law: one throughput per measured state, no two measured states with the same
`ToStr`, and the set holding exactly their `ToStr`s. -/
structure MeasuredCache.Consistent (cache : MeasuredCache σ) : Prop where
  aligned : cache.vector.length = cache.throughputs.length
  distinct : (cache.vector.map toStr).Nodup
  setExact : ∀ str, str ∈ cache.set ↔ str ∈ cache.vector.map toStr

/-- `measured_states_set_.insert(state.ToStr())` and `measured_states_vector_.push_back(state)`
for each state in turn. -/
def MeasuredCache.record (cache : MeasuredCache σ) (states : List σ) : MeasuredCache σ :=
  { cache with set := cache.set ++ states.map toStr, vector := cache.vector ++ states }

/-- `measured_states_throughputs_.push_back(...)` for each value in turn. -/
def MeasuredCache.appendThroughputs (cache : MeasuredCache σ) (values : List ℚ) :
    MeasuredCache σ :=
  { cache with throughputs := cache.throughputs ++ values }

@[simp] theorem MeasuredCache.record_nil (cache : MeasuredCache σ) :
    cache.record toStr [] = cache := by
  simp [MeasuredCache.record]

theorem MeasuredCache.record_append (cache : MeasuredCache σ) (first rest : List σ) :
    (cache.record toStr first).record toStr rest = cache.record toStr (first ++ rest) := by
  simp [MeasuredCache.record]

theorem MeasuredCache.Consistent.empty : MeasuredCache.empty.Consistent toStr :=
  ⟨rfl, List.nodup_nil, by simp [MeasuredCache.empty]⟩

theorem MeasuredCache.Consistent.record {cache : MeasuredCache σ} {states : List σ}
    {values : List ℚ} (consistent : cache.Consistent toStr) (distinct : (states.map toStr).Nodup)
    (fresh : ∀ state ∈ states, toStr state ∉ cache.set) (counted : values.length = states.length) :
    ((cache.record toStr states).appendThroughputs values).Consistent toStr where
  aligned := by
    simp [MeasuredCache.record, MeasuredCache.appendThroughputs, consistent.aligned, counted]
  distinct := by
    simp only [MeasuredCache.appendThroughputs, MeasuredCache.record, List.map_append]
    refine consistent.distinct.append distinct fun str old new => ?_
    obtain ⟨state, mem, rfl⟩ := List.mem_map.mp new
    exact fresh state mem ((consistent.setExact _).mpr old)
  setExact str := by
    simp [MeasuredCache.appendThroughputs, MeasuredCache.record, consistent.setExact]

theorem MeasuredCache.Consistent.not_unrecorded {cache : MeasuredCache σ} {states : List σ}
    {values : List ℚ} (consistent : cache.Consistent toStr) (pushed : states ≠ []) :
    ¬({ cache with vector := cache.vector ++ states }.appendThroughputs values).Consistent toStr :=
  fun after => by
    obtain ⟨state, mem⟩ := List.exists_mem_of_ne_nil states pushed
    have listed : toStr state ∈ (cache.vector ++ states).map toStr :=
      List.mem_map_of_mem _ (List.mem_append_right _ mem)
    have measured := (consistent.setExact _).mp ((after.setExact _).mpr listed)
    have distinct := after.distinct
    simp only [MeasuredCache.appendThroughputs, List.map_append, List.nodup_append] at distinct
    exact distinct.2.2 measured (List.mem_map_of_mem _ mem)

/-- `static_cast<int>` of a `double`: truncation toward zero. -/
def castToInt (value : ℚ) : Int :=
  value.num.tdiv value.den

/-- One draw of `PickStatesWithEpsGreedy`: while fewer than `num_good` inputs are picked it
prefers the best states, afterwards the random ones; `none` is its `break` when both lists are
used up. -/
def drawState (preferBest : Bool) (best random : List σ) : Option (σ × List σ × List σ) :=
  if preferBest then
    match best with
    | state :: best => some (state, best, random)
    | [] =>
        match random with
        | state :: random => some (state, [], random)
        | [] => none
  else
    match random with
    | state :: random => some (state, best, random)
    | [] =>
        match best with
        | state :: best => some (state, best, [])
        | [] => none

/-- The `while` loop of `PickStatesWithEpsGreedy`.  Each round uses up one state, so `fuel`, the
number of states left to draw, bounds it exactly. -/
def pickLoop (numGood limit : Int) :
    Nat → List σ → List σ → List σ → MeasuredCache σ → List σ × MeasuredCache σ
  | 0, inputs, _, _, cache => (inputs, cache)
  | fuel + 1, inputs, best, random, cache =>
      if (inputs.length : Int) < limit then
        match drawState (decide ((inputs.length : Int) < numGood)) best random with
        | none => (inputs, cache)
        | some (state, best, random) =>
            if toStr state ∈ cache.set then pickLoop numGood limit fuel inputs best random cache
            else
              pickLoop numGood limit fuel (inputs ++ [state]) best random
                (cache.record toStr [state])
      else (inputs, cache)

/-- `SketchPolicyNode::PickStatesWithEpsGreedy(best_states, random_states, remaining_n_trials)`:
the inputs to measure, and the cache that records them. -/
def pickStatesWithEpsGreedy (epsGreedy : ℚ) (numMeasurePerIter : Int) (best random : List σ)
    (remainingNTrials : Int) (cache : MeasuredCache σ) : List σ × MeasuredCache σ :=
  let numRandom := castToInt (epsGreedy * numMeasurePerIter)
  pickLoop toStr (numMeasurePerIter - numRandom) (min numMeasurePerIter remainingNTrials)
    (best.length + random.length) [] best random cache

theorem pickLoop_eq (numGood limit : Int) : ∀ (fuel : Nat) (inputs best random : List σ)
    (cache : MeasuredCache σ), ∃ picked,
      pickLoop toStr numGood limit fuel inputs best random cache =
        (inputs ++ picked, cache.record toStr picked) ∧
      (picked.map toStr).Nodup ∧ (∀ state ∈ picked, toStr state ∉ cache.set) ∧
      (picked = [] ∨ (inputs.length : Int) + picked.length ≤ limit)
  | 0, inputs, _, _, cache => ⟨[], by simp [pickLoop]⟩
  | fuel + 1, inputs, best, random, cache => by
      simp only [pickLoop]
      split
      · rename_i below
        split
        · exact ⟨[], by simp⟩
        · rename_i state best random _
          split
          · exact pickLoop_eq numGood limit fuel inputs best random cache
          · rename_i new
            obtain ⟨picked, ran, distinct, fresh, bounded⟩ :=
              pickLoop_eq numGood limit fuel (inputs ++ [state]) best random
                (cache.record toStr [state])
            refine ⟨state :: picked, ?_, ?_, ?_, .inr ?_⟩
            · rw [ran, MeasuredCache.record_append]
              simp
            · refine List.nodup_cons.mpr ⟨fun mem => ?_, distinct⟩
              obtain ⟨other, otherMem, same⟩ := List.mem_map.mp mem
              exact fresh other otherMem (by simp [MeasuredCache.record, same])
            · rintro other (_ | ⟨_, mem⟩)
              · exact new
              · exact fun old => fresh other mem (by simp [MeasuredCache.record, old])
            · rcases bounded with rfl | bounded
              · simp only [List.length_singleton]
                omega
              · simp only [List.length_append, List.length_singleton, List.length_cons] at bounded ⊢
                omega
      · exact ⟨[], by simp⟩

theorem pickStatesWithEpsGreedy_eq (epsGreedy : ℚ) (numMeasurePerIter : Int) (best random : List σ)
    (remainingNTrials : Int) (cache : MeasuredCache σ) : ∃ picked,
      pickStatesWithEpsGreedy toStr epsGreedy numMeasurePerIter best random remainingNTrials cache =
        (picked, cache.record toStr picked) ∧
      (picked.map toStr).Nodup ∧ (∀ state ∈ picked, toStr state ∉ cache.set) ∧
      (picked.length : Int) ≤ max 0 (min numMeasurePerIter remainingNTrials) := by
  obtain ⟨picked, ran, distinct, fresh, bounded⟩ := pickLoop_eq toStr
    (numMeasurePerIter - castToInt (epsGreedy * numMeasurePerIter))
    (min numMeasurePerIter remainingNTrials) (best.length + random.length) [] best random cache
  refine ⟨picked, by simpa using ran, distinct, fresh, ?_⟩
  rcases bounded with rfl | bounded
  · simp
  · simp only [List.length_nil, Int.Nat.cast_ofNat_Int, Int.zero_add] at bounded
    omega

/-- The number of distinct `ToStr`s outside `measured` among `states`. -/
def distinctUnmeasured (measured : List String) (states : List σ) : Nat :=
  ((states.map toStr).filter (· ∉ measured)).dedup.length

theorem distinctUnmeasured_eq_card (measured : List String) (states : List σ) :
    distinctUnmeasured toStr measured states =
      ((states.map toStr).filter (· ∉ measured)).toFinset.card :=
  (List.card_toFinset _).symm

theorem distinctUnmeasured_perm {measured : List String} {states others : List σ}
    (perm : states.Perm others) :
    distinctUnmeasured toStr measured states = distinctUnmeasured toStr measured others := by
  simp only [distinctUnmeasured_eq_card,
    List.toFinset_eq_of_perm _ _ ((perm.map toStr).filter _)]

theorem distinctUnmeasured_cons_of_mem {measured : List String} {state : σ} (rest : List σ)
    (old : toStr state ∈ measured) :
    distinctUnmeasured toStr measured (state :: rest) = distinctUnmeasured toStr measured rest := by
  simp [distinctUnmeasured, old]

theorem distinctUnmeasured_cons_of_not_mem {measured : List String} {state : σ} (rest : List σ)
    (fresh : toStr state ∉ measured) :
    distinctUnmeasured toStr measured (state :: rest) =
      distinctUnmeasured toStr (measured ++ [toStr state]) rest + 1 := by
  set others := ((rest.map toStr).filter (· ∉ measured)).toFinset
  have erased : ((rest.map toStr).filter (· ∉ measured ++ [toStr state])).toFinset =
      others.erase (toStr state) := by
    ext str
    simp [others, and_comm, and_assoc]
  have inserted :
      insert (toStr state) others = insert (toStr state) (others.erase (toStr state)) := by
    ext str
    by_cases same : str = toStr state <;> simp [same]
  rw [distinctUnmeasured_eq_card, distinctUnmeasured_eq_card, erased]
  simp only [List.map_cons, List.filter_cons, fresh, not_false_eq_true, decide_True, if_true,
    List.toFinset_cons]
  rw [inserted, Finset.card_insert_of_not_mem (Finset.not_mem_erase _ _)]

theorem drawState_perm {preferBest : Bool} {best random rest restRandom : List σ} {state : σ}
    (drawn : drawState preferBest best random = some (state, rest, restRandom)) :
    (best ++ random).Perm (state :: (rest ++ restRandom)) := by
  unfold drawState at drawn
  split at drawn <;> split at drawn <;> (try split at drawn) <;>
    simp only [Option.some.injEq, Prod.mk.injEq, reduceCtorEq] at drawn <;>
    obtain ⟨rfl, rfl, rfl⟩ := drawn
  all_goals simp [List.perm_middle.symm]

theorem drawState_eq_none {preferBest : Bool} {best random : List σ}
    (drawn : drawState preferBest best random = none) : best = [] ∧ random = [] := by
  unfold drawState at drawn
  split at drawn <;> split at drawn <;> (try split at drawn) <;> simp_all

theorem pickLoop_length (numGood limit : Int) : ∀ (fuel : Nat) (inputs best random : List σ)
    (cache : MeasuredCache σ), best.length + random.length ≤ fuel →
    ((pickLoop toStr numGood limit fuel inputs best random cache).1.length : Int) =
      inputs.length +
        max 0 (min (limit - inputs.length) (distinctUnmeasured toStr cache.set (best ++ random)))
  | 0, inputs, best, random, cache, enough => by
      obtain ⟨rfl, rfl⟩ : best = [] ∧ random = [] := by
        simp only [List.length_eq_zero.symm]
        omega
      simp [pickLoop, distinctUnmeasured]
  | fuel + 1, inputs, best, random, cache, enough => by
      simp only [pickLoop]
      split
      · rename_i below
        split
        · rename_i drawn
          obtain ⟨rfl, rfl⟩ := drawState_eq_none drawn
          simp [distinctUnmeasured]
        · rename_i state rest restRandom drawn
          have perm := drawState_perm drawn
          have fewer : rest.length + restRandom.length ≤ fuel := by
            have := perm.length_eq
            simp only [List.length_append, List.length_cons] at this
            omega
          rw [distinctUnmeasured_perm toStr perm]
          split
          · rename_i old
            rw [distinctUnmeasured_cons_of_mem toStr _ old]
            exact pickLoop_length numGood limit fuel inputs rest restRandom cache fewer
          · rename_i fresh
            rw [distinctUnmeasured_cons_of_not_mem toStr _ fresh,
              pickLoop_length numGood limit fuel _ rest restRandom _ fewer]
            simp only [MeasuredCache.record, List.map_cons, List.map_nil, List.length_append,
              List.length_singleton]
            push_cast
            omega
      · dsimp only
        omega

/-- `PickStatesWithEpsGreedy` picks exactly `max(0, min(num_measure_per_iter_,
remaining_n_trials, D))` states, `D` the distinct unmeasured `ToStr`s among the offered ones;
they have new, pairwise distinct `ToStr`s, and the set and the vector are extended by exactly
them, in the order returned. -/
theorem pickStatesWithEpsGreedy_count (epsGreedy : ℚ) (numMeasurePerIter : Int)
    (best random : List σ) (remainingNTrials : Int) (cache : MeasuredCache σ) : ∃ picked,
      pickStatesWithEpsGreedy toStr epsGreedy numMeasurePerIter best random remainingNTrials cache =
        (picked, cache.record toStr picked) ∧
      (picked.length : Int) = max 0 (min (min numMeasurePerIter remainingNTrials)
        (distinctUnmeasured toStr cache.set (best ++ random))) ∧
      (picked.map toStr).Nodup ∧ ∀ state ∈ picked, toStr state ∉ cache.set := by
  obtain ⟨picked, picks, distinct, fresh, -⟩ := pickStatesWithEpsGreedy_eq toStr epsGreedy
    numMeasurePerIter best random remainingNTrials cache
  refine ⟨picked, picks, ?_, distinct, fresh⟩
  have counted := pickLoop_length toStr
    (numMeasurePerIter - castToInt (epsGreedy * numMeasurePerIter))
    (min numMeasurePerIter remainingNTrials) (best.length + random.length) [] best random cache
    le_rfl
  rw [show pickLoop toStr _ _ _ [] best random cache = _ from picks] at counted
  simpa using counted

end FTuner
