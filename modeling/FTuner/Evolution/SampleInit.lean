import FTuner.Hardware.Descriptor
import Mathlib.Algebra.Order.Ring.Rat
import Mathlib.Data.List.Nodup

namespace FTuner

/-! # `SampleInitPopulation`

Each iteration of the loop samples a batch of states from the sketches, applies the init rules,
`InferBound`, `PruneInvalidState` and the cost model, and keeps every candidate scored above
`-1e10` whose `ToStr` it has not explored.  After five iterations in a row that keep nothing it
halves its target `sample_init_min_pop_`, while that is above 1.  The scored batches, which
depend on the random generators, are an oracle indexed by the iteration `iter`.

The loop returns exactly when some batch holds a candidate above the floor
(`sampleInitPopulation_terminates_iff`).  Once a state is kept, every iteration lowers the
potential `5 * (target - |out_states|) + (4 - unchange_cnt)` (`samplePotential_lt`); before
that, the target stops at 1 and the loop waits for the first such batch.
-/

/-- The loop variables of `SampleInitPopulation` that decide its course: `out_states`,
`explored_state_strs`, `sample_init_min_pop_` and `unchange_cnt`.  `iter` is the oracle's index,
and `fail_ct` only feeds the log. -/
structure SampleState (σ : Type) where
  out : List σ
  explored : List String
  target : Int
  unchangeCnt : Nat

/-- The floor `-1e10` a sampled score must exceed. -/
def rejectFloor : ℚ := -10 ^ 10

variable {σ : Type} (toStr : σ → String)

/-- One candidate of a batch: kept when its score is above `-1e10` and its `ToStr` is not yet
explored. -/
def sampleCandidate (kept : SampleState σ) (candidate : σ × ℚ) : SampleState σ :=
  if rejectFloor < candidate.2 ∧ toStr candidate.1 ∉ kept.explored then
    { kept with
      out := kept.out ++ [candidate.1]
      explored := kept.explored ++ [toStr candidate.1]
      unchangeCnt := 0 }
  else kept

/-- One iteration of the loop on the scored candidates `batch`: `unchange_cnt++`, the candidates
in order, then the halving of the target after five fruitless iterations. -/
def sampleStep (kept : SampleState σ) (batch : List (σ × ℚ)) : SampleState σ :=
  let kept := batch.foldl (sampleCandidate toStr) { kept with unchangeCnt := kept.unchangeCnt + 1 }
  if kept.unchangeCnt = 5 then
    { kept with
      target := if kept.target > 1 then kept.target / 2 else kept.target
      unchangeCnt := 0 }
  else kept

/-- `while (out_states.size() < sample_init_min_pop_)` from iteration `iter`, bounded by
`fuel`. -/
def sampleLoop (batches : Nat → List (σ × ℚ)) :
    Nat → Nat → SampleState σ → Except Fault (SampleState σ)
  | 0, _, _ => .error .outOfFuel
  | fuel + 1, iter, kept =>
      if (kept.out.length : Int) < kept.target then
        sampleLoop batches fuel (iter + 1) (sampleStep toStr kept (batches iter))
      else .ok kept

/-- `SketchPolicyNode::SampleInitPopulation`: the sampled states, and `sample_init_min_pop_` as
the loop leaves it. -/
def sampleInitPopulation (batches : Nat → List (σ × ℚ)) (sampleInitMinPop : Int) (fuel : Nat) :
    Except Fault (List σ × Int) := do
  let kept ← sampleLoop toStr batches fuel 1 ⟨[], [], sampleInitMinPop, 0⟩
  pure (kept.out, kept.target)

/-- The explored strings are those of the kept states, which are distinct and were each scored
above the floor in some batch. -/
structure SampleState.Records (batches : Nat → List (σ × ℚ)) (kept : SampleState σ) : Prop where
  explored : kept.explored = kept.out.map toStr
  distinct : (kept.out.map toStr).Nodup
  scored : ∀ state ∈ kept.out,
    ∃ iter score, 1 ≤ iter ∧ (state, score) ∈ batches iter ∧ rejectFloor < score

@[simp] theorem sampleCandidate_target (kept : SampleState σ) (candidate : σ × ℚ) :
    (sampleCandidate toStr kept candidate).target = kept.target := by
  unfold sampleCandidate
  split <;> rfl

theorem sampleCandidate_cases (kept : SampleState σ) (candidate : σ × ℚ) :
    sampleCandidate toStr kept candidate = kept ∨
      (rejectFloor < candidate.2 ∧ toStr candidate.1 ∉ kept.explored ∧
        sampleCandidate toStr kept candidate =
          { kept with
            out := kept.out ++ [candidate.1]
            explored := kept.explored ++ [toStr candidate.1]
            unchangeCnt := 0 }) := by
  unfold sampleCandidate
  split
  · exact .inr ⟨‹_ ∧ _›.1, ‹_ ∧ _›.2, rfl⟩
  · exact .inl rfl

variable {batches : Nat → List (σ × ℚ)} {iter : Nat}

theorem SampleState.Records.candidate {kept : SampleState σ} {candidate : σ × ℚ}
    (records : kept.Records toStr batches) (first : 1 ≤ iter) (drawn : candidate ∈ batches iter) :
    (sampleCandidate toStr kept candidate).Records toStr batches := by
  rcases sampleCandidate_cases toStr kept candidate with same | ⟨above, fresh, kept'⟩
  · rwa [same]
  · rw [kept']
    refine ⟨by simp [records.explored], ?_, fun state mem => ?_⟩
    · rw [records.explored] at fresh
      simpa [List.nodup_append, fresh] using records.distinct
    · rcases List.mem_append.mp mem with old | new
      · exact records.scored state old
      · obtain rfl := List.mem_singleton.mp new
        exact ⟨iter, candidate.2, first, drawn, above⟩

theorem foldl_sampleCandidate_length_le : ∀ (batch : List (σ × ℚ)) (kept : SampleState σ),
    kept.out.length ≤ (batch.foldl (sampleCandidate toStr) kept).out.length
  | [], _ => le_rfl
  | candidate :: batch, kept => by
      rw [List.foldl_cons]
      refine le_trans ?_ (foldl_sampleCandidate_length_le batch _)
      rcases sampleCandidate_cases toStr kept candidate with same | ⟨-, -, kept'⟩
      · rw [same]
      · simp [kept']

theorem foldl_sampleCandidate (first : 1 ≤ iter) : ∀ {batch : List (σ × ℚ)},
    (∀ candidate ∈ batch, candidate ∈ batches iter) → ∀ {kept : SampleState σ},
    kept.Records toStr batches →
    let after := batch.foldl (sampleCandidate toStr) kept
    after.Records toStr batches ∧ after.target = kept.target ∧
      (after.out = kept.out ∧ after.unchangeCnt = kept.unchangeCnt ∨
        kept.out.length < after.out.length ∧ after.unchangeCnt = 0)
  | [], _, _, records => ⟨records, rfl, .inl ⟨rfl, rfl⟩⟩
  | candidate :: batch, drawn, kept, records => by
      have rest := fun {kept : SampleState σ} => @foldl_sampleCandidate first batch
        (fun other mem => drawn other (List.mem_cons_of_mem _ mem)) kept
      have next := records.candidate toStr first (drawn candidate (List.mem_cons_self _ _))
      simp only [List.foldl_cons]
      rcases sampleCandidate_cases toStr kept candidate with same | ⟨-, -, kept'⟩
      · rw [same] at next ⊢
        exact rest next
      · rw [kept'] at next ⊢
        obtain ⟨after, target, progress⟩ := rest next
        refine ⟨after, target, .inr ⟨?_, ?_⟩⟩
        · have := foldl_sampleCandidate_length_le toStr batch
            { kept with
              out := kept.out ++ [candidate.1]
              explored := kept.explored ++ [toStr candidate.1]
              unchangeCnt := 0 }
          simp only [List.length_append, List.length_singleton] at this
          omega
        · rcases progress with ⟨-, unchanged⟩ | ⟨-, unchanged⟩ <;> exact unchanged

theorem foldl_sampleCandidate_grows : ∀ {batch : List (σ × ℚ)} {kept : SampleState σ},
    (∃ candidate ∈ batch, rejectFloor < candidate.2 ∧ toStr candidate.1 ∉ kept.explored) →
    kept.out.length < (batch.foldl (sampleCandidate toStr) kept).out.length
  | [], _, ⟨_, absent, _⟩ => absurd absent (List.not_mem_nil _)
  | candidate :: batch, kept, ⟨good, mem, above, fresh⟩ => by
      rw [List.foldl_cons]
      rcases sampleCandidate_cases toStr kept candidate with same | ⟨-, -, kept'⟩
      · rcases List.mem_cons.mp mem with rfl | later
        · simp only [sampleCandidate, above, fresh, not_false_eq_true, and_self, if_true] at same
          simpa using congrArg (·.out.length) same
        · rw [same]
          exact foldl_sampleCandidate_grows ⟨good, later, above, fresh⟩
      · have := foldl_sampleCandidate_length_le toStr batch (sampleCandidate toStr kept candidate)
        rw [kept'] at this ⊢
        simp only [List.length_append, List.length_singleton] at this
        omega

theorem foldl_sampleCandidate_target : ∀ (batch : List (σ × ℚ)) (kept : SampleState σ),
    (batch.foldl (sampleCandidate toStr) kept).target = kept.target
  | [], _ => rfl
  | candidate :: batch, kept => by
      rw [List.foldl_cons, foldl_sampleCandidate_target, sampleCandidate_target]

theorem sampleStep_fields (kept : SampleState σ) (batch : List (σ × ℚ)) :
    let after :=
      batch.foldl (sampleCandidate toStr) { kept with unchangeCnt := kept.unchangeCnt + 1 }
    (sampleStep toStr kept batch).out = after.out ∧
      (sampleStep toStr kept batch).explored = after.explored ∧
      (sampleStep toStr kept batch).target =
        (if after.unchangeCnt = 5 ∧ kept.target > 1 then kept.target / 2 else kept.target) ∧
      (sampleStep toStr kept batch).unchangeCnt =
        if after.unchangeCnt = 5 then 0 else after.unchangeCnt := by
  have same := foldl_sampleCandidate_target toStr batch
    { kept with unchangeCnt := kept.unchangeCnt + 1 }
  dsimp only [sampleStep] at same ⊢
  split_ifs <;> simp_all

theorem sampleStep_target (kept : SampleState σ) (batch : List (σ × ℚ)) :
    (sampleStep toStr kept batch).target ≤ kept.target ∧
      (1 ≤ kept.target → 1 ≤ (sampleStep toStr kept batch).target) := by
  obtain ⟨-, -, target, -⟩ := sampleStep_fields toStr kept batch
  split_ifs at target <;> omega

theorem sampleStep_length_le (kept : SampleState σ) (batch : List (σ × ℚ)) :
    kept.out.length ≤ (sampleStep toStr kept batch).out.length := by
  rw [(sampleStep_fields toStr kept batch).1]
  exact foldl_sampleCandidate_length_le toStr batch
    { kept with unchangeCnt := kept.unchangeCnt + 1 }

/-- What holds of the loop variables before every iteration: the records, a target in
`[1, initial]`, and `unchange_cnt` below 5. -/
structure SampleState.Sound (batches : Nat → List (σ × ℚ)) (initial : Int) (kept : SampleState σ)
    extends SampleState.Records toStr batches kept : Prop where
  targetPos : 1 ≤ kept.target
  targetLe : kept.target ≤ initial
  unchanged : kept.unchangeCnt < 5

/-- The potential that every iteration lowers once a state is kept. -/
def samplePotential (kept : SampleState σ) : Nat :=
  5 * (kept.target - kept.out.length).toNat + (4 - kept.unchangeCnt)

section Sound

variable {initial : Int} {kept : SampleState σ} (first : 1 ≤ iter)
  (sound : kept.Sound toStr batches initial)
include first sound

theorem SampleState.Sound.batch :
    let after := (batches iter).foldl (sampleCandidate toStr)
      { kept with unchangeCnt := kept.unchangeCnt + 1 }
    after.Records toStr batches ∧
      (after.out = kept.out ∧ after.unchangeCnt = kept.unchangeCnt + 1 ∨
        kept.out.length < after.out.length ∧ after.unchangeCnt = 0) := by
  obtain ⟨records, -, progress⟩ := foldl_sampleCandidate toStr first (fun _ mem => mem)
    (⟨sound.explored, sound.distinct, sound.scored⟩ :
      SampleState.Records toStr batches { kept with unchangeCnt := kept.unchangeCnt + 1 })
  exact ⟨records, progress⟩

theorem SampleState.Sound.step :
    (sampleStep toStr kept (batches iter)).Sound toStr batches initial := by
  obtain ⟨records, progress⟩ := sound.batch toStr first
  obtain ⟨out, explored, -, unchanged⟩ := sampleStep_fields toStr kept (batches iter)
  obtain ⟨lower, atLeastOne⟩ := sampleStep_target toStr kept (batches iter)
  refine ⟨⟨?_, ?_, ?_⟩, atLeastOne sound.targetPos, lower.trans sound.targetLe, ?_⟩
  · rw [out, explored]
    exact records.explored
  · rw [out]
    exact records.distinct
  · rw [out]
    exact records.scored
  · have := sound.unchanged
    rw [unchanged]
    split_ifs with five
    · decide
    · rcases progress with ⟨-, counted⟩ | ⟨-, counted⟩ <;> omega

theorem samplePotential_lt (nonempty : kept.out ≠ [])
    (short : (kept.out.length : Int) < kept.target) :
    samplePotential (sampleStep toStr kept (batches iter)) < samplePotential kept := by
  obtain ⟨-, progress⟩ := sound.batch toStr first
  obtain ⟨out, -, target, unchanged⟩ := sampleStep_fields toStr kept (batches iter)
  have := sound.unchanged
  have positive := List.length_pos.mpr nonempty
  unfold samplePotential
  rw [out, target, unchanged]
  rcases progress with ⟨same, counted⟩ | ⟨longer, counted⟩
  · rw [same]
    split_ifs <;> omega
  · split_ifs <;> omega

end Sound

theorem sampleLoop_sound {initial : Int} : ∀ {fuel iter : Nat} {kept result : SampleState σ},
    1 ≤ iter → kept.Sound toStr batches initial →
    sampleLoop toStr batches fuel iter kept = .ok result →
    result.Sound toStr batches initial ∧ result.target ≤ result.out.length
  | 0, _, _, _, _, _, ran => nomatch ran
  | fuel + 1, iter, kept, result, first, sound, ran => by
      unfold sampleLoop at ran
      split_ifs at ran with short
      · exact sampleLoop_sound (Nat.le_succ_of_le first) (sound.step toStr first) ran
      · cases ran
        exact ⟨sound, by omega⟩

theorem SampleState.Sound.potential_lt {initial : Int} {kept : SampleState σ}
    (sound : kept.Sound toStr batches initial) (nonempty : kept.out ≠ []) :
    samplePotential kept < 5 * initial.toNat := by
  have := List.length_pos.mpr nonempty
  have := sound.targetPos
  have := sound.targetLe
  unfold samplePotential
  omega

theorem sampleLoop_returns_of_kept {initial : Int} : ∀ {fuel iter : Nat} {kept : SampleState σ},
    1 ≤ iter → kept.Sound toStr batches initial → kept.out ≠ [] → samplePotential kept < fuel →
    ∃ result, sampleLoop toStr batches fuel iter kept = .ok result
  | 0, _, _, _, _, _, spent => absurd spent (Nat.not_lt_zero _)
  | fuel + 1, iter, kept, first, sound, nonempty, spent => by
      unfold sampleLoop
      split_ifs with short
      · have lower := samplePotential_lt toStr first sound nonempty short
        have longer := sampleStep_length_le toStr kept (batches iter)
        refine sampleLoop_returns_of_kept (Nat.le_succ_of_le first) (sound.step toStr first)
          (List.ne_nil_of_length_pos ?_) (by omega)
        have := List.length_pos.mpr nonempty
        omega
      · exact ⟨kept, rfl⟩

theorem sampleLoop_returns {initial : Int} {good : Nat} {candidate : σ × ℚ}
    (drawn : candidate ∈ batches good) (above : rejectFloor < candidate.2) :
    ∀ {fuel iter : Nat} {kept : SampleState σ}, 1 ≤ iter → iter ≤ good →
    kept.Sound toStr batches initial → good - iter + 5 * initial.toNat < fuel →
    ∃ result, sampleLoop toStr batches fuel iter kept = .ok result
  | 0, _, _, _, _, _, spent => absurd spent (Nat.not_lt_zero _)
  | fuel + 1, iter, kept, first, before, sound, spent => by
      by_cases empty : kept.out = []
      · have short : (kept.out.length : Int) < kept.target := by
          have := sound.targetPos
          simp only [empty, List.length_nil, Nat.cast_zero]
          omega
        unfold sampleLoop
        rw [if_pos short]
        have next := sound.step toStr first
        by_cases stuck : (sampleStep toStr kept (batches iter)).out = []
        · have early : iter < good := by
            refine lt_of_le_of_ne before fun reached => ?_
            subst reached
            have grows := @foldl_sampleCandidate_grows σ toStr (batches iter)
              { kept with unchangeCnt := kept.unchangeCnt + 1 }
              ⟨candidate, drawn, above, by simp [sound.explored, empty]⟩
            rw [← (sampleStep_fields toStr kept (batches iter)).1, stuck] at grows
            exact absurd grows (Nat.not_lt_zero _)
          exact sampleLoop_returns drawn above (Nat.le_succ_of_le first) early next (by omega)
        · exact sampleLoop_returns_of_kept toStr (Nat.le_succ_of_le first) next stuck
            ((next.potential_lt toStr stuck).trans_le (by omega))
      · exact sampleLoop_returns_of_kept toStr first sound empty
          ((sound.potential_lt toStr empty).trans_le (by omega))

/-- `SampleInitPopulation` returns, for some fuel, exactly when some iteration draws a candidate
scored above `-1e10`.  What it returns are states of distinct `ToStr`, each scored above the
floor, at least as many as the final target, which lies in `[1, sample_init_min_pop_]`; and no
iteration raises the target or takes it below 1. -/
theorem sampleInitPopulation_terminates_iff (batches : Nat → List (σ × ℚ)) {initial : Int}
    (positive : 1 ≤ initial) :
    ((∃ fuel result, sampleInitPopulation toStr batches initial fuel = .ok result) ↔
      ∃ iter, 1 ≤ iter ∧ ∃ candidate ∈ batches iter, rejectFloor < candidate.2) ∧
    (∀ fuel out target, sampleInitPopulation toStr batches initial fuel = .ok (out, target) →
      (out.map toStr).Nodup ∧
      (∀ state ∈ out,
        ∃ iter score, 1 ≤ iter ∧ (state, score) ∈ batches iter ∧ rejectFloor < score) ∧
      target ≤ out.length ∧ 1 ≤ target ∧ target ≤ initial) ∧
    ∀ (kept : SampleState σ) (batch : List (σ × ℚ)),
      (sampleStep toStr kept batch).target ≤ kept.target ∧
        (1 ≤ kept.target → 1 ≤ (sampleStep toStr kept batch).target) := by
  have start : SampleState.Sound toStr batches initial ⟨[], [], initial, 0⟩ :=
    ⟨⟨rfl, List.nodup_nil, fun _ absent => absurd absent (List.not_mem_nil _)⟩, positive, le_rfl,
      Nat.succ_pos 4⟩
  have returned : ∀ {fuel result}, sampleInitPopulation toStr batches initial fuel = .ok result →
      ∃ kept : SampleState σ, (kept.Sound toStr batches initial ∧ kept.target ≤ kept.out.length) ∧
        result = (kept.out, kept.target) := fun ran => by
    obtain ⟨kept, ran, same⟩ := bind_eq_ok.mp ran
    exact ⟨kept, sampleLoop_sound toStr le_rfl start ran, (Except.ok.inj same).symm⟩
  refine ⟨⟨fun ⟨_, _, ran⟩ => ?_, fun ⟨good, first, candidate, drawn, above⟩ => ?_⟩,
    fun _ out target ran => ?_, sampleStep_target toStr⟩
  · obtain ⟨kept, ⟨sound, reached⟩, -⟩ := returned ran
    have := sound.targetPos
    obtain ⟨state, mem⟩ := List.exists_mem_of_length_pos (by omega : 0 < kept.out.length)
    obtain ⟨iter, score, first, drawn, above⟩ := sound.scored state mem
    exact ⟨iter, first, (state, score), drawn, above⟩
  · obtain ⟨kept, ran⟩ := sampleLoop_returns toStr drawn above le_rfl first start
      (by omega : good - 1 + 5 * initial.toNat < good + 5 * initial.toNat)
    exact ⟨_, _, bind_eq_ok.mpr ⟨kept, ran, rfl⟩⟩
  · obtain ⟨kept, ⟨sound, reached⟩, same⟩ := returned ran
    obtain ⟨rfl, rfl⟩ := Prod.mk.inj same
    exact ⟨sound.distinct, sound.scored, reached, sound.targetPos, sound.targetLe⟩

def lateBatches (iter : Nat) : List (String × ℚ) :=
  if iter = 3 then [("s", 0)] else []

theorem lateBatches_terminates :
    1 ≤ (4 : Int) ∧ ∃ fuel result, sampleInitPopulation id lateBatches 4 fuel = .ok result :=
  ⟨by decide, (sampleInitPopulation_terminates_iff id lateBatches (by decide)).1.2
    ⟨3, by decide, ("s", 0), by simp [lateBatches],
      show rejectFloor < 0 by unfold rejectFloor; decide⟩⟩

example : sampleInitPopulation id lateBatches 4 14 = .ok (["s"], 1) := by decide

end FTuner
