import FTuner.Hardware.Descriptor

namespace FTuner

/-! # The mutation phase of EvolutionarySearch

Between two generations `EvolutionarySearch` fills `pnext` with
`while (pnext->size() < population)`: each turn selects a parent with `RandomChoose` over
`pop_selection_probs`, draws `dis(rand_gen)`, and below `mutation_prob` applies a rule drawn with
`RandomChoose` over the rule weights.  A `kValid` mutation is pushed, a failed one only counted in
`mutation_fail_ct`; with no mutation drawn the parent is pushed.  `MutationDraws` gives the
outcomes of the random draws and of the rules by the number of the parent selection.

Each turn pushes what `turnPush` says (`mutationLoop_turn`).  A failed mutation pushes nothing:
when every turn fails the loop never ends (`mutationLoop_starves`), and it ends after exactly
`population` selections when every turn pushes (`mutationLoop_fills`).
-/

/-- The outcomes of one generation's draws, by the number of the parent selection: the index
`RandomChoose(pop_selection_probs)` returns, the value of `dis(rand_gen)`, and what the rule
drawn by `RandomChoose(rule_selection_probs)` makes of the parent (the mutated state when `Apply`
returns `kValid`, `none` otherwise). -/
structure MutationDraws (σ : Type) where
  parent : Nat → Nat
  uniform : Nat → ℚ
  mutate : Nat → σ → Option σ

variable {σ : Type} (population : Nat) (mutationProb : ℚ) (pnow : List σ)
  (draws : MutationDraws σ)

/-- The `while (pnext->size() < population)` loop, bounded by `fuel` turns.  It also returns the
number of parent selections made, which the code does not keep. -/
def mutationLoop : Nat → Nat → List σ → Except Fault (List σ × Nat)
  | 0, _, _ => .error .outOfFuel
  | fuel + 1, selections, pnext =>
      if pnext.length < population then do
        let tmpS ← readAt pnow (draws.parent selections) "pnow"
        if draws.uniform selections < mutationProb then
          match draws.mutate selections tmpS with
          | some mutated => mutationLoop fuel (selections + 1) (pnext ++ [mutated])
          | none => mutationLoop fuel (selections + 1) pnext
        else mutationLoop fuel (selections + 1) (pnext ++ [tmpS])
      else pure (pnext, selections)

/-- What the `selection`-th turn pushes after selecting `parent`: the parent when no mutation is
drawn, its valid mutation, or nothing when the rule fails. -/
def turnPush (selection : Nat) (parent : σ) : Option σ :=
  if draws.uniform selection < mutationProb then draws.mutate selection parent else some parent

/-- What the turns `selections`, …, `selections + count - 1` push. -/
def pushes (selections count : Nat) : List σ :=
  (List.range' selections count).filterMap fun selection =>
    pnow[draws.parent selection]?.bind (turnPush mutationProb draws selection)

theorem pushes_succ (selections count : Nat) :
    pushes mutationProb pnow draws selections (count + 1) =
      (pnow[draws.parent selections]?.bind (turnPush mutationProb draws selections)).toList ++
        pushes mutationProb pnow draws (selections + 1) count := by
  cases h : pnow[draws.parent selections]?.bind (turnPush mutationProb draws selections) <;>
    simp [pushes, List.range'_succ, List.filterMap_cons, h]

variable {population mutationProb pnow draws}

theorem mutationLoop_turn {fuel selections : Nat} {pnext : List σ} {parent : σ}
    (short : pnext.length < population) (drawn : pnow[draws.parent selections]? = some parent) :
    mutationLoop population mutationProb pnow draws (fuel + 1) selections pnext =
      mutationLoop population mutationProb pnow draws fuel (selections + 1)
        (pnext ++ (turnPush mutationProb draws selections parent).toList) := by
  simp only [mutationLoop, if_pos short, readAt, drawn, turnPush, ok_bind]
  split
  · cases draws.mutate selections parent <;> simp
  · rfl

section InRange

variable (inRange : ∀ selection, draws.parent selection < pnow.length)
include inRange

theorem parent_drawn (selection : Nat) :
    ∃ parent, pnow[draws.parent selection]? = some parent :=
  ⟨_, List.getElem?_eq_getElem (inRange selection)⟩

/-- When every turn pushes, the loop ends after exactly `population - pnext.size()` parent
selections, having pushed each selected parent or its valid mutation. -/
theorem mutationLoop_fills
    (pushing : ∀ selection parent, (turnPush mutationProb draws selection parent).isSome) :
    ∀ (remaining selections : Nat) (pnext : List σ), pnext.length + remaining = population →
      mutationLoop population mutationProb pnow draws (remaining + 1) selections pnext =
        .ok (pnext ++ pushes mutationProb pnow draws selections remaining, selections + remaining)
      ∧ (pushes mutationProb pnow draws selections remaining).length = remaining
  | 0, selections, pnext, filled => by
      simp [mutationLoop, pushes, ← filled]
  | remaining + 1, selections, pnext, filled => by
      obtain ⟨parent, drawn⟩ := parent_drawn inRange selections
      obtain ⟨child, pushed⟩ := Option.isSome_iff_exists.mp (pushing selections parent)
      have grown : (pnext ++ [child]).length + remaining = population := by
        simp only [List.length_append, List.length_singleton]
        omega
      obtain ⟨ran, counted⟩ := mutationLoop_fills pushing remaining (selections + 1) _ grown
      rw [mutationLoop_turn (by omega) drawn, pushed]
      refine ⟨?_, by simp [pushes_succ, drawn, pushed, counted]⟩
      simpa [pushes_succ, drawn, pushed, Nat.add_assoc, Nat.add_comm 1 remaining] using ran

omit inRange in
def neverMutate : MutationDraws String :=
  ⟨fun _ => 0, fun _ => 1, fun _ _ => none⟩

omit inRange in
theorem neverMutate_fills :
    mutationLoop 3 1 ["s"] neverMutate 4 0 [] = .ok (["s", "s", "s"], 3) ∧
      (pushes 1 ["s"] neverMutate 0 3).length = 3 :=
  @mutationLoop_fills String 3 1 ["s"] neverMutate (fun _ => Nat.zero_lt_one) (fun _ _ => rfl)
    3 0 [] rfl

theorem mutationLoop_starves (mutated : ∀ selection, draws.uniform selection < mutationProb)
    (invalid : ∀ selection state, draws.mutate selection state = none) {pnext : List σ}
    (short : pnext.length < population) (fuel selections : Nat) :
    mutationLoop population mutationProb pnow draws fuel selections pnext = .error .outOfFuel := by
  induction fuel generalizing selections with
  | zero => rfl
  | succ fuel ih =>
      obtain ⟨parent, drawn⟩ := parent_drawn inRange selections
      rw [mutationLoop_turn short drawn]
      simpa [turnPush, mutated, invalid] using ih (selections + 1)

end InRange

def alwaysInvalid : MutationDraws String :=
  ⟨fun _ => 0, fun _ => 0, fun _ _ => none⟩

/-- With `mutation_prob = 1` and rules that always fail, one selection never fills `pnext`. -/
theorem alwaysInvalid_never_fills (fuel : Nat) :
    mutationLoop 1 1 ["s"] alwaysInvalid fuel 0 [] = .error .outOfFuel :=
  mutationLoop_starves (fun _ => Nat.zero_lt_one) (fun _ => show (0 : ℚ) < 1 by decide)
    (fun _ _ => rfl) Nat.zero_lt_one fuel 0

end FTuner
