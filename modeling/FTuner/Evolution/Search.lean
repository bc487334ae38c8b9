import FTuner.Evolution.Retention
import FTuner.Evolution.Mutation

namespace FTuner

/-! # EvolutionarySearch

`EvolutionarySearch(init_population, out_size)` runs the generations `k = 0, …, num_iters`: it
infers bounds and prunes invalid states, scores the population with the cost model, offers every
state to the retention heap, and before every generation but the last fills the next population
by mutation.  It returns the heap's states sorted by score.

Every list it returns is the best of what it scored (`evolutionarySearch_bestOf`).  It does not
always return: a first generation whose mutations all fail never fills the next population
(`evolutionarySearch_starves`).
-/

/-- What the search reads from outside `src/`: `InferBound` then `PruneInvalidState` on a
population, the cost model's score of a state (`Predict`, or for a dynamic task the best score
over the instances raised to the power `floor_div(n_trials, 100) + 1`), and the draws of each
generation's mutation phase. -/
structure EvolutionOracles (σ : Type) where
  inferBoundAndPrune : List σ → List σ
  predict : σ → ℚ
  draws : Nat → MutationDraws σ

/-- The search parameters `population`, `mutation_prob` and `num_iters`, and whether the cost
model is not a `RandomModel`. -/
structure EvolutionParams where
  population : Nat
  mutationProb : ℚ
  numIters : Int
  isCostModelReasonable : Bool

/-- `num_iters`, set to 2 when it exceeds 2 under a random cost model. -/
def EvolutionParams.iterations (params : EvolutionParams) : Int :=
  if !params.isCostModelReasonable && params.numIters > 2 then 2 else params.numIters

variable {σ : Type} (toStr : σ → String) (front : HeapFront σ) (oracles : EvolutionOracles σ)
  (params : EvolutionParams) (outSize : Int) (fuel : Nat)

/-- The generations `k`, …, `k + left`: score and retain, then, unless `k == num_iters`, mutate
into the next population, each mutation phase bounded by `fuel` turns. -/
def generations : Nat → Nat → List σ → Retention σ → Except Fault (Retention σ)
  | left, k, pnow, kept => do
      let pnow := oracles.inferBoundAndPrune pnow
      let kept ← retainStates toStr oracles.predict front outSize kept pnow
      match left with
      | 0 => pure kept
      | left + 1 =>
          let (pnext, _) ← mutationLoop params.population params.mutationProb pnow
            (oracles.draws k) fuel 0 []
          generations left (k + 1) pnext kept

/-- The populations the generations `k`, …, `k + left` score, after `PruneInvalidState`, one after
the other. -/
def scoredPopulations : Nat → Nat → List σ → Except Fault (List σ)
  | left, k, pnow => do
      let pnow := oracles.inferBoundAndPrune pnow
      match left with
      | 0 => pure pnow
      | left + 1 =>
          let (pnext, _) ← mutationLoop params.population params.mutationProb pnow
            (oracles.draws k) fuel 0 []
          pure (pnow ++ (← scoredPopulations left (k + 1) pnext))

/-- Every population `for (int k = 0; k < num_iters + 1; ++k)` scores. -/
def evolutionaryPopulations (initPopulation : List σ) : Except Fault (List σ) :=
  if params.iterations < 0 then pure []
  else scoredPopulations oracles params fuel params.iterations.toNat 0 initPopulation

/-- The heap after `for (int k = 0; k < num_iters + 1; ++k)`. -/
def evolutionaryRetention (measuredStatesSet : List String) (initPopulation : List σ) :
    Except Fault (Retention σ) :=
  if params.iterations < 0 then pure (Retention.initial measuredStatesSet)
  else generations toStr front oracles params outSize fuel params.iterations.toNat 0
    initPopulation (Retention.initial measuredStatesSet)

/-- `SketchPolicyNode::EvolutionarySearch`: the heap sorted by `cmp`, its states copied out. -/
def evolutionarySearch (measuredStatesSet : List String) (initPopulation : List σ) :
    Except Fault (List σ) := do
  let kept ← evolutionaryRetention toStr front oracles params outSize fuel measuredStatesSet
    initPopulation
  pure ((sortHeap kept.heap).map Prod.fst)

section Consistent

variable {measured : List String}
  (consistent :
    ∀ left right, toStr left = toStr right → oracles.predict left = oracles.predict right)
  (positive : 0 < outSize)
include consistent positive

theorem generations_sound : ∀ (left k : Nat) (pnow : List σ) (kept next : Retention σ),
    kept.Sound toStr oracles.predict outSize measured →
    generations toStr front oracles params outSize fuel left k pnow kept = .ok next →
    next.Sound toStr oracles.predict outSize measured ∧ ∃ scored,
      scoredPopulations oracles params fuel left k pnow = .ok scored ∧
      next.scored = kept.scored ++ scored
  | left, k, pnow, kept, next, sound, ran => by
      obtain ⟨retained, turned, retainedSound, logged⟩ :=
        Retention.Sound.retainStates toStr oracles.predict front outSize consistent positive
          (oracles.inferBoundAndPrune pnow) kept sound
      rw [generations, turned, ok_bind] at ran
      cases left with
      | zero => exact Except.ok.inj ran ▸ ⟨retainedSound, _, rfl, logged⟩
      | succ left =>
          cases mutated : mutationLoop params.population params.mutationProb
              (oracles.inferBoundAndPrune pnow) (oracles.draws k) fuel 0 [] with
          | error fault => simp [mutated] at ran
          | ok result =>
              simp only [mutated, ok_bind] at ran
              obtain ⟨nextSound, later, laterRan, laterLogged⟩ :=
                generations_sound left (k + 1) result.1 retained next retainedSound ran
              refine ⟨nextSound, _, ?_, by rw [laterLogged, logged, List.append_assoc]⟩
              simp [scoredPopulations, mutated, laterRan]

/-- Whenever `EvolutionarySearch` returns, its states, with their scores, are the best of the
states its pruned populations hold: sorted by non-increasing score, distinct by `ToStr`, none
measured, `min(out_size, D)` of them, and no scored state left out above the least kept. -/
theorem evolutionarySearch_bestOf {initPopulation best : List σ}
    (ran : evolutionarySearch toStr front oracles params outSize fuel measured initPopulation =
      .ok best) :
    ∃ scored retained, evolutionaryPopulations oracles params fuel initPopulation = .ok scored ∧
      best = retained.map Prod.fst ∧
      BestOf toStr oracles.predict outSize measured scored retained := by
  obtain ⟨kept, retained, returned⟩ := bind_eq_ok.mp ran
  obtain ⟨sound, scored, populated, logged⟩ : kept.Sound toStr oracles.predict outSize measured ∧
      ∃ scored, evolutionaryPopulations oracles params fuel initPopulation = .ok scored ∧
        kept.scored = scored := by
    have initial := Retention.Sound.initial toStr oracles.predict outSize measured positive.le
    unfold evolutionaryRetention at retained
    unfold evolutionaryPopulations
    split at retained
    · exact Except.ok.inj retained ▸ ⟨initial, [], by simp [*], rfl⟩
    · simpa [*, Retention.initial] using generations_sound toStr front oracles params outSize
        fuel consistent positive _ 0 initPopulation _ kept initial retained
  exact ⟨scored, _, populated, (Except.ok.inj returned).symm,
    logged ▸ Retention.Sound.bestOf toStr oracles.predict outSize sound⟩

end Consistent

def lengthScores : EvolutionOracles String :=
  ⟨id, fun state => (state.length : ℚ), fun _ => alwaysInvalid⟩

/-- `num_iters = 0` and `out_size = 5` on six states of distinct scores: the five best, sorted
by descending score. -/
theorem lengthScores_bestOf :
    ∃ scored retained, evolutionaryPopulations lengthScores ⟨6, 0, 0, true⟩ 1
        ["bb", "eeeee", "a", "ffffff", "ccc", "dddd"] = .ok scored ∧
      ["ffffff", "eeeee", "dddd", "ccc", "bb"] = retained.map Prod.fst ∧
      BestOf id lengthScores.predict 5 [] scored retained :=
  evolutionarySearch_bestOf id HeapFront.leftmost lengthScores ⟨6, 0, 0, true⟩ 5 1
    (fun _ _ same => congrArg lengthScores.predict same) (by decide) (by decide)

/-- With `num_iters >= 1`, when every mutation of the first generation is drawn and every rule
fails, the search never returns, whatever its fuel. -/
theorem evolutionarySearch_starves {measuredStatesSet : List String} {initPopulation : List σ}
    (positive : 0 < outSize) (populated : 0 < params.population) (iterating : 1 ≤ params.numIters)
    (inRange : ∀ selection,
      (oracles.draws 0).parent selection < (oracles.inferBoundAndPrune initPopulation).length)
    (mutated : ∀ selection, (oracles.draws 0).uniform selection < params.mutationProb)
    (invalid : ∀ selection state, (oracles.draws 0).mutate selection state = none) :
    evolutionarySearch toStr front oracles params outSize fuel measuredStatesSet initPopulation =
      .error .outOfFuel := by
  have atLeastOne : 1 ≤ params.iterations := by
    unfold EvolutionParams.iterations
    split <;> omega
  obtain ⟨left, counted⟩ : ∃ left, params.iterations.toNat = left + 1 :=
    ⟨params.iterations.toNat - 1, by omega⟩
  obtain ⟨kept, turned⟩ := retainStates_ok toStr oracles.predict front outSize positive
    (oracles.inferBoundAndPrune initPopulation) (Retention.initial measuredStatesSet)
  have starved := mutationLoop_starves inRange mutated invalid
    (show ([] : List σ).length < params.population from populated) fuel 0
  have iterated : ¬params.iterations < 0 := by omega
  simp only [evolutionarySearch, evolutionaryRetention, if_neg iterated, counted]
  rw [generations, turned, ok_bind]
  simp only [starved, error_bind]

/-- One state `"s"`, scored `0`, every mutation drawn and failing: a search of one iteration
(`population = 1`, `mutation_prob = 1`, `out_size = 1`) never returns. -/
theorem oneIteration_never_returns :
    evolutionarySearch id HeapFront.leftmost ⟨id, fun _ => 0, fun _ => alwaysInvalid⟩
      ⟨1, 1, 1, true⟩ 1 1000 [] ["s"] = .error .outOfFuel :=
  evolutionarySearch_starves id HeapFront.leftmost ⟨id, fun _ => 0, fun _ => alwaysInvalid⟩
    ⟨1, 1, 1, true⟩ 1 1000 (by decide) Nat.zero_lt_one (by decide) (fun _ => Nat.zero_lt_one)
    (fun _ => show (0 : ℚ) < 1 by decide) (fun _ _ => rfl)

end FTuner
