import Mathlib.Computability.StateTransition

/-!
# Loops as state transitions

A loop is a function that gives the state after one more round, or `none` once
its condition fails.  What every round preserves holds in every state the loop
reaches, and a loop whose rounds make a measure smaller ends.
-/

namespace SimpleVpn.Loops

open StateTransition

variable {S : Type*} {round : S → Option S}

/-- What every round preserves holds in every state that is reached. -/
theorem invariant_of_reaches (invariant : S → Prop) {start state : S}
    (hreach : Reaches round start state) (hstart : invariant start)
    (hround : ∀ before after, invariant before → round before = some after →
      invariant after) : invariant state := by
  induction hreach with
  | refl => exact hstart
  | tail _ hstep ih => exact hround _ _ ih hstep

/-- A quantity that no round changes is the same in every state reached. -/
theorem eq_of_reaches {A : Type*} (quantity : S → A) {start state : S}
    (hreach : Reaches round start state)
    (hround : ∀ before after, round before = some after →
      quantity after = quantity before) : quantity state = quantity start :=
  invariant_of_reaches (fun state => quantity state = quantity start) hreach rfl
    fun before after heq hstep => (hround before after hstep).trans heq

/-- A loop ends, and with its invariant, when every round preserves the
invariant and makes a measure smaller. -/
theorem exists_mem_eval (invariant : S → Prop) (measure : S → ℕ)
    (hround : ∀ before after, invariant before → round before = some after →
      invariant after ∧ measure after < measure before)
    {start : S} (hstart : invariant start) :
    ∃ final ∈ eval round start, invariant final := by
  induction hsize : measure start using Nat.strongRecOn generalizing start with
  | ind size ih =>
      cases hstep : round start with
      | none =>
          exact ⟨start, mem_eval.mpr ⟨Relation.ReflTransGen.refl, hstep⟩, hstart⟩
      | some after =>
          obtain ⟨hafter, hlt⟩ := hround start after hstart hstep
          obtain ⟨final, hfinal, hkept⟩ :=
            ih (measure after) (hsize ▸ hlt) hafter rfl
          refine ⟨final, ?_, hkept⟩
          rwa [reaches_eval (Relation.ReflTransGen.single hstep)]

/-- One round first, and the rest of the loop after it. -/
theorem mem_eval_of_round {start after final : S} (hround : round start = some after)
    (hfinal : final ∈ eval round after) : final ∈ eval round start := by
  rwa [reaches_eval (Relation.ReflTransGen.single hround)]

/-- A loop whose condition fails at once. -/
theorem mem_eval_of_none {final : S} (hround : round final = none) :
    final ∈ eval round final :=
  mem_eval.mpr ⟨Relation.ReflTransGen.refl, hround⟩

end SimpleVpn.Loops
