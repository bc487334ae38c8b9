import FTuner.Policy.Cache

namespace FTuner

/-! # The measurement loop of `Search`

`SketchPolicyNode::Search` with `n_trials > 1` runs rounds of `SearchOneRound`,
`PickStatesWithEpsGreedy` and measurement until the trial budget is spent, an empty round finds
the retry counter at zero, or early stopping fires.  What the loop reads from outside the policy
(the cost-model-driven `SearchOneRound`, the measurer) is an oracle indexed by the round.
`ProgramMeasurer::Measure` returns one result per input, so both branches of the throughput
update push one throughput per measured input.

* `measurementLoop_returns_within`: the loop returns within `(n_trials + 1) * (max(E, 0) + 1)`
  rounds, having sent at most `n_trials` states to the measurer.
* `earlyStop_unaligns_cache`: the round in which early stopping fires leaves the recorded states
  without throughputs.
* `searchMeasurement_measures_once`: whatever the rounds and the early-stopping signals, the
  states a returning loop sent to the measurer have pairwise distinct `ToStr`s, none of them
  measured before the search; every round keeps `SearchLoop.SentOnce`.
-/

/-- What `Search` reads from outside the policy, round by round: the `best_states` and
`random_states` of `SearchOneRound` after `InferBound`, the throughput the round records for a
measured state, and the measurer's `best_ct` and `has_valid` for the task after the round. -/
structure SearchOracles (σ : Type) where
  searchOneRound : Nat → List σ × List σ
  throughput : Nat → σ → ℚ
  bestCt : Nat → Int
  hasValid : Nat → Bool

/-- The tuning parameters `Search` reads from `params`. -/
structure SearchParams where
  epsGreedy : ℚ
  emptyRetryCount : Int

/-- The variables of the measurement loop between rounds; `sent` lists the states handed to
`measurer->Measure` so far. -/
structure SearchLoop (σ : Type) where
  round : Nat
  ct : Int
  emptyRetryCount : Int
  cache : MeasuredCache σ
  sent : List σ

variable {σ : Type} (toStr : σ → String) (params : SearchParams) (oracles : SearchOracles σ)
  (nTrials numMeasurePerIter earlyStopping : Int)

/-- `while (ct < n_trials)` of `Search`, bounded by `fuel` rounds. -/
def measurementLoop : Nat → SearchLoop σ → Except Fault (SearchLoop σ)
  | 0, _ => .error .outOfFuel
  | fuel + 1, loop =>
      if loop.ct < nTrials then
        let (best, random) := oracles.searchOneRound loop.round
        let (inputs, cache) := pickStatesWithEpsGreedy toStr params.epsGreedy numMeasurePerIter
          best random (nTrials - loop.ct) loop.cache
        if inputs.isEmpty then
          if loop.emptyRetryCount > 0 then
            measurementLoop fuel { loop with
              round := loop.round + 1, emptyRetryCount := loop.emptyRetryCount - 1, cache }
          else pure { loop with emptyRetryCount := loop.emptyRetryCount - 1, cache }
        else
          let ct := loop.ct + inputs.length
          let measured : SearchLoop σ :=
            ⟨loop.round + 1, ct, params.emptyRetryCount, cache, loop.sent ++ inputs⟩
          if earlyStopping < ct - oracles.bestCt loop.round ∧ oracles.hasValid loop.round then
            pure measured
          else
            measurementLoop fuel { measured with
              cache := cache.appendThroughputs (inputs.map (oracles.throughput loop.round)) }
      else pure loop

/-- `early_stopping < 0 ? std::numeric_limits<int>::max() >> 1 : early_stopping`. -/
def effectiveEarlyStopping (earlyStopping : Int) : Int :=
  if earlyStopping < 0 then 2 ^ 30 - 1 else earlyStopping

/-- The measurement loop of `Search` from a fresh start, bounded by `fuel` rounds. -/
def searchMeasurement (cache : MeasuredCache σ) (fuel : Nat) : Except Fault (SearchLoop σ) :=
  measurementLoop toStr params oracles nTrials numMeasurePerIter
    (effectiveEarlyStopping earlyStopping) fuel ⟨0, 0, params.emptyRetryCount, cache, []⟩

/-- `ContinueSearchOneRound(num_measure)`: one round without a retry counter or early stopping;
its inputs and the cache after it. -/
def continueSearchOneRound (numMeasure : Int) (round : Nat) (cache : MeasuredCache σ) :
    List σ × MeasuredCache σ :=
  let (best, random) := oracles.searchOneRound round
  let (inputs, cache) := pickStatesWithEpsGreedy toStr params.epsGreedy numMeasure best random
    numMeasure cache
  (inputs, cache.appendThroughputs (inputs.map (oracles.throughput round)))

/-- The rounds the loop may still run: each productive round spends at least one trial, and
between two of them at most `max(E, 0)` rounds come back empty. -/
def roundsLeft (loop : SearchLoop σ) : Nat :=
  (nTrials - loop.ct).toNat * (params.emptyRetryCount.toNat + 1) + loop.emptyRetryCount.toNat

private theorem spentTrial_lowers {left spent retries : Nat} (spentSome : 1 ≤ spent)
    (within : spent ≤ left) : (left - spent) * (retries + 1) + retries < left * (retries + 1) := by
  have lowered : (left - spent) * (retries + 1) ≤ (left - 1) * (retries + 1) :=
    Nat.mul_le_mul_right _ (by omega)
  have restored : (left - 1) * (retries + 1) + (retries + 1) = left * (retries + 1) := by
    rw [← Nat.succ_mul, Nat.succ_eq_add_one, Nat.sub_add_cancel (by omega)]
  omega

theorem measurementLoop_returns_within : ∀ {fuel : Nat} {loop : SearchLoop σ},
    loop.ct ≤ nTrials → (loop.sent.length : Int) = loop.ct →
      roundsLeft params nTrials loop < fuel →
      ∃ final, measurementLoop toStr params oracles nTrials numMeasurePerIter earlyStopping fuel
          loop = .ok final ∧ final.ct ≤ nTrials ∧ (final.sent.length : Int) = final.ct
  | 0, _, _, _, enough => absurd enough (Nat.not_lt_zero _)
  | fuel + 1, loop, within, counted, enough => by
      obtain ⟨picked, picks, -, -, bounded⟩ := pickStatesWithEpsGreedy_eq toStr
        params.epsGreedy numMeasurePerIter (oracles.searchOneRound loop.round).1
        (oracles.searchOneRound loop.round).2 (nTrials - loop.ct) loop.cache
      by_cases running : loop.ct < nTrials
      · by_cases empty : picked = []
        · subst empty
          by_cases retry : loop.emptyRetryCount > 0
          · simp only [measurementLoop, running, picks, List.isEmpty_nil, retry, if_true]
            refine measurementLoop_returns_within within counted ?_
            unfold roundsLeft at enough ⊢
            dsimp only
            omega
          · simp only [measurementLoop, running, picks, List.isEmpty_nil, retry, if_true, if_false]
            exact ⟨_, rfl, within, counted⟩
        · have spent : 1 ≤ picked.length := List.length_pos.mpr empty
          simp only [measurementLoop, running, picks, List.isEmpty_iff, empty, if_true, if_false]
          split
          · exact ⟨_, rfl, by simp only; omega, by simp [counted]⟩
          · refine measurementLoop_returns_within (by simp only; omega) (by simp [counted]) ?_
            unfold roundsLeft at enough ⊢
            have lowers : ((nTrials - loop.ct).toNat - picked.length) *
                (params.emptyRetryCount.toNat + 1) + params.emptyRetryCount.toNat <
                (nTrials - loop.ct).toNat * (params.emptyRetryCount.toNat + 1) :=
              spentTrial_lowers spent (by omega)
            have left : (nTrials - (loop.ct + picked.length)).toNat =
                (nTrials - loop.ct).toNat - picked.length := by omega
            dsimp only
            rw [left]
            omega
      · simp only [measurementLoop, running, if_false]
        exact ⟨_, rfl, within, counted⟩

/-- With `n_trials > 1`, the measurement loop of `Search` returns within
`(n_trials + 1) * (max(E, 0) + 1)` rounds for every sequence of rounds, measurements and
early-stopping signals, and sends at most `n_trials` states to the measurer. -/
theorem searchMeasurement_within_budget (several : 1 < nTrials) (cache : MeasuredCache σ) :
    ∃ final, searchMeasurement toStr params oracles nTrials numMeasurePerIter earlyStopping cache
        ((nTrials + 1) * (max params.emptyRetryCount 0 + 1)).toNat = .ok final ∧
      (final.sent.length : Int) = final.ct ∧ final.ct ≤ nTrials := by
  have budget : roundsLeft params nTrials ⟨0, 0, params.emptyRetryCount, cache, []⟩ <
      ((nTrials + 1) * (max params.emptyRetryCount 0 + 1)).toNat := by
    have product : (nTrials + 1) * (max params.emptyRetryCount 0 + 1) =
        ((nTrials.toNat + 1) * (params.emptyRetryCount.toNat + 1) : Nat) := by
      push_cast
      rw [Int.toNat_of_nonneg (by omega), Int.toNat_eq_max]
    rw [product, Int.toNat_natCast, roundsLeft, Nat.succ_mul]
    simp only [Int.sub_zero]
    omega
  obtain ⟨final, ran, within, counted⟩ := measurementLoop_returns_within toStr params oracles
    nTrials numMeasurePerIter (effectiveEarlyStopping earlyStopping) (by simp only; omega) rfl
    budget
  exact ⟨final, ran, counted, within⟩

def oneStatePerRound : SearchOracles String :=
  ⟨fun round => ([toString round], []), fun _ _ => 1, fun _ => 0, fun _ => true⟩

theorem searchMeasurement_two_trials_within_budget :
    1 < (2 : Int) ∧ ∃ final, searchMeasurement id ⟨0, 0⟩ oneStatePerRound 2 1 0
        MeasuredCache.empty ((2 + 1) * (max 0 0 + 1) : Int).toNat = .ok final ∧
      (final.sent.length : Int) = final.ct ∧ final.ct ≤ 2 :=
  ⟨by decide, searchMeasurement_within_budget id ⟨0, 0⟩ oneStatePerRound 2 1 0 (by decide)
    MeasuredCache.empty⟩

/-- The round in which early stopping fires records its states in the set and the vector but
breaks out before their throughputs, so the vector outgrows the throughputs. -/
theorem earlyStop_unaligns_cache {loop : SearchLoop σ} {best random inputs : List σ}
    {cache : MeasuredCache σ} (consistent : loop.cache.Consistent toStr)
    (running : loop.ct < nTrials) (drawn : oracles.searchOneRound loop.round = (best, random))
    (picked : pickStatesWithEpsGreedy toStr params.epsGreedy numMeasurePerIter best random
      (nTrials - loop.ct) loop.cache = (inputs, cache))
    (measuredSome : inputs ≠ [])
    (stops : earlyStopping < loop.ct + inputs.length - oracles.bestCt loop.round)
    (valid : oracles.hasValid loop.round = true) (fuel : Nat) :
    measurementLoop toStr params oracles nTrials numMeasurePerIter earlyStopping (fuel + 1) loop =
      .ok ⟨loop.round + 1, loop.ct + inputs.length, params.emptyRetryCount, cache,
        loop.sent ++ inputs⟩ ∧
    cache.vector.length = cache.throughputs.length + inputs.length ∧ ¬cache.Consistent toStr := by
  obtain ⟨picked', picks, -⟩ := pickStatesWithEpsGreedy_eq toStr params.epsGreedy
    numMeasurePerIter best random (nTrials - loop.ct) loop.cache
  rw [picks, Prod.mk.injEq] at picked
  obtain ⟨rfl, rfl⟩ := picked
  have unaligned : (loop.cache.record toStr picked').vector.length =
      (loop.cache.record toStr picked').throughputs.length + picked'.length := by
    simp [MeasuredCache.record, consistent.aligned]
  refine ⟨?_, unaligned, fun recorded => ?_⟩
  · simp [measurementLoop, running, drawn, picks, List.isEmpty_iff, measuredSome, stops, valid]
  · have := recorded.aligned
    exact measuredSome (List.length_eq_zero.mp (by omega))

/-- The first round of `Search` from the empty cache, with `early_stopping = 0`: the measurer's
best is trial 0, so stopping fires after one measured state, which never gets a throughput. -/
theorem firstRound_earlyStop_unaligns_cache :
    measurementLoop id ⟨0, 0⟩ oneStatePerRound 2 1 0 1 ⟨0, 0, 0, MeasuredCache.empty, []⟩ =
      .ok ⟨1, 1, 0, ⟨["0"], ["0"], []⟩, ["0"]⟩ ∧
    [("0" : String)].length = ([] : List ℚ).length + 1 ∧
    ¬(⟨["0"], ["0"], []⟩ : MeasuredCache String).Consistent id :=
  @earlyStop_unaligns_cache String id ⟨0, 0⟩ oneStatePerRound 2 1 0
    ⟨0, 0, 0, MeasuredCache.empty, []⟩ ["0"] [] ["0"] ⟨["0"], ["0"], []⟩
    (MeasuredCache.Consistent.empty id) (by decide) rfl
    (by simp [pickStatesWithEpsGreedy, castToInt, pickLoop, drawState, MeasuredCache.record,
      MeasuredCache.empty])
    (by simp) (by decide) rfl 0

theorem measurementLoop_round {fuel : Nat} {loop final : SearchLoop σ}
    (ran : measurementLoop toStr params oracles nTrials numMeasurePerIter earlyStopping (fuel + 1)
      loop = .ok final) :
    ∃ picked next, (final = next ∨
        measurementLoop toStr params oracles nTrials numMeasurePerIter earlyStopping fuel next =
          .ok final) ∧
      (picked.map toStr).Nodup ∧ (∀ state ∈ picked, toStr state ∉ loop.cache.set) ∧
      next.sent = loop.sent ++ picked ∧ next.cache.set = loop.cache.set ++ picked.map toStr := by
  obtain ⟨picked, picks, distinct, fresh, -⟩ := pickStatesWithEpsGreedy_eq toStr
    params.epsGreedy numMeasurePerIter (oracles.searchOneRound loop.round).1
    (oracles.searchOneRound loop.round).2 (nTrials - loop.ct) loop.cache
  by_cases running : loop.ct < nTrials
  · simp only [measurementLoop, running, picks, if_true] at ran
    split at ran
    · have empty := List.isEmpty_iff.mp ‹_›
      subst empty
      split at ran
      · exact ⟨[], _, .inr ran, distinct, fresh, (List.append_nil _).symm, rfl⟩
      · exact ⟨[], _, .inl (Except.ok.inj ran).symm, distinct, fresh,
          (List.append_nil _).symm, rfl⟩
    · split at ran
      · exact ⟨picked, _, .inl (Except.ok.inj ran).symm, distinct, fresh, rfl, rfl⟩
      · exact ⟨picked, _, .inr ran, distinct, fresh, rfl, rfl⟩
  · simp only [measurementLoop, running, if_false, pure_eq_ok, Except.ok.injEq] at ran
    exact ⟨[], loop, .inl ran.symm, List.nodup_nil, nofun, (List.append_nil _).symm,
      (List.append_nil _).symm⟩

/-- Between rounds: the states sent so far have pairwise distinct `ToStr`s, none of them in the
set the search started from, and the set holds theirs and the ones it started with. -/
structure SearchLoop.SentOnce (initial : List String) (loop : SearchLoop σ) : Prop where
  distinct : (loop.sent.map toStr).Nodup
  fresh : ∀ state ∈ loop.sent, toStr state ∉ initial
  recorded : ∀ state ∈ loop.sent, toStr state ∈ loop.cache.set
  kept : ∀ str ∈ initial, str ∈ loop.cache.set

theorem SearchLoop.SentOnce.round {initial : List String} {loop next : SearchLoop σ}
    {picked : List σ} (once : loop.SentOnce toStr initial) (distinct : (picked.map toStr).Nodup)
    (fresh : ∀ state ∈ picked, toStr state ∉ loop.cache.set)
    (sent : next.sent = loop.sent ++ picked)
    (recorded : next.cache.set = loop.cache.set ++ picked.map toStr) :
    next.SentOnce toStr initial where
  distinct := by
    rw [sent, List.map_append]
    refine once.distinct.append distinct fun str old new => ?_
    obtain ⟨state, mem, rfl⟩ := List.mem_map.mp new
    obtain ⟨other, otherMem, same⟩ := List.mem_map.mp old
    exact fresh state mem (same ▸ once.recorded other otherMem)
  fresh state mem := by
    rcases List.mem_append.mp (sent ▸ mem) with old | new
    · exact once.fresh state old
    · exact fun started => fresh state new (once.kept _ started)
  recorded state mem := by
    rw [recorded, List.mem_append]
    rcases List.mem_append.mp (sent ▸ mem) with old | new
    exacts [.inl (once.recorded state old), .inr (List.mem_map_of_mem _ new)]
  kept str started := recorded ▸ List.mem_append_left _ (once.kept str started)

theorem measurementLoop_sentOnce {initial : List String} :
    ∀ {fuel : Nat} {loop final : SearchLoop σ},
    loop.SentOnce toStr initial →
      measurementLoop toStr params oracles nTrials numMeasurePerIter earlyStopping fuel loop =
        .ok final → final.SentOnce toStr initial
  | 0, _, _, _, ran => by cases ran
  | _ + 1, _, _, once, ran => by
      obtain ⟨picked, next, stopped | continued, distinct, fresh, sent, recorded⟩ :=
        measurementLoop_round toStr params oracles nTrials numMeasurePerIter earlyStopping ran
      · exact stopped ▸ once.round toStr distinct fresh sent recorded
      · exact measurementLoop_sentOnce (once.round toStr distinct fresh sent recorded) continued

/-- `Search` never hands the measurer a state twice: whenever its measurement loop returns, the
states it sent have pairwise distinct `ToStr`s, none of them in `measured_states_set_` when the
search began, whatever the rounds, the measurements and the early-stopping signals. -/
theorem searchMeasurement_measures_once {cache : MeasuredCache σ} {fuel : Nat}
    {final : SearchLoop σ}
    (ran : searchMeasurement toStr params oracles nTrials numMeasurePerIter earlyStopping cache
      fuel = .ok final) :
    (final.sent.map toStr).Nodup ∧ ∀ state ∈ final.sent, toStr state ∉ cache.set := by
  have start : SearchLoop.SentOnce toStr cache.set ⟨0, 0, params.emptyRetryCount, cache, []⟩ :=
    ⟨List.nodup_nil, nofun, nofun, fun _ => id⟩
  have once := measurementLoop_sentOnce toStr params oracles nTrials numMeasurePerIter
    (effectiveEarlyStopping earlyStopping) start ran
  exact ⟨once.distinct, once.fresh⟩

/-- From a cache that has measured state "0", the first round finds nothing new and retries,
and the next two rounds send "1" and "2": "0" is never sent again. -/
theorem measuredZero_measures_once : ∃ final,
    searchMeasurement id ⟨0, 1⟩ oneStatePerRound 2 1 (-1) ⟨["0"], ["0"], [1]⟩ 4 =
      .ok final ∧ final.sent = ["1", "2"] ∧
      (final.sent.map id).Nodup ∧ ∀ state ∈ final.sent, id state ∉ ["0"] := by
  have run : searchMeasurement id ⟨0, 1⟩ oneStatePerRound 2 1 (-1) ⟨["0"], ["0"], [1]⟩ 4 =
      .ok ⟨3, 2, 1, ⟨["0", "1", "2"], ["0", "1", "2"], [1, 1, 1]⟩, ["1", "2"]⟩ := by
    with_unfolding_all rfl
  exact ⟨_, run, rfl,
    searchMeasurement_measures_once id ⟨0, 1⟩ oneStatePerRound 2 1 (-1) run⟩

end FTuner
