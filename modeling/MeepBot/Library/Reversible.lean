import Mathlib.Logic.Function.Basic

/-!
# Reversible steps

Steps on words and arrays of words that lose nothing: a word combined with a shifted copy of
itself, an array with one place rewritten, and a sequence of blocks that are scrambled one after
the other, each with the result of the one before.
-/

namespace Reversible

/-! ### Words -/

section
variable {w k : Nat}

/-- The low bits stay as they are, and each bit above is told by the ones below it. -/
theorem xor_shiftLeft_injective (positive : 0 < k) :
    Function.Injective fun x : BitVec w => x ^^^ (x <<< k) := by
  intro x y same
  apply BitVec.eq_of_getLsbD_eq
  intro i inside
  induction i using Nat.strongRecOn with
  | ind i ih =>
    have bit := congrArg (·.getLsbD i) same
    simp only [BitVec.getLsbD_xor, BitVec.getLsbD_shiftLeft, inside, decide_true,
      Bool.true_and] at bit
    by_cases low : i < k
    · simpa [low] using bit
    · have below := ih (i - k) (by omega) (by omega)
      simpa [low, below] using bit

/-- The high bits stay as they are, and each bit below is told by the ones above it. -/
theorem xor_ushiftRight_injective (positive : 0 < k) :
    Function.Injective fun x : BitVec w => x ^^^ (x >>> k) := by
  intro x y same
  -- the induction goes down, on the distance from the top
  have fromTop (d : Nat) : ∀ i, w ≤ i + d → x.getLsbD i = y.getLsbD i := by
    induction d with
    | zero =>
      intro i outside
      rw [BitVec.getLsbD_of_ge x i outside, BitVec.getLsbD_of_ge y i outside]
    | succ d ih =>
      intro i near
      have bit := congrArg (·.getLsbD i) same
      simp only [BitVec.getLsbD_xor, BitVec.getLsbD_ushiftRight, ih (k + i) (by omega)] at bit
      simpa using bit
  exact BitVec.eq_of_getLsbD_eq fun i _ => fromTop w i (by omega)

end

/-! ### Arrays -/

section
variable {α : Type} {n : Nat}

/-- Two arrays with the same place rewritten tell what was written, and all other places. -/
theorem of_set_eq {i : Fin n} {v u : Vector α n} {x y : α} (same : v.set i x = u.set i y) :
    x = y ∧ ∀ j : Fin n, j ≠ i → v[j] = u[j] := by
  constructor
  · have written := congrArg (·[i]) same
    simpa using written
  · intro j other
    have distinct : (i : Nat) ≠ j := fun equal => other (Fin.ext equal.symm)
    have there := congrArg (·[j]) same
    simpa [distinct] using there

theorem eq_of_others {i : Fin n} {v u : Vector α n} (others : ∀ j : Fin n, j ≠ i → v[j] = u[j])
    (here : v[i] = u[i]) : v = u := by
  apply Vector.ext
  intro j inside
  by_cases place : (⟨j, inside⟩ : Fin n) = i
  · subst place
    exact here
  · exact others ⟨j, inside⟩ place

/-- To rewrite one place loses nothing, if what stood there is told by what is written and the
other places. -/
theorem set_injective (i : Fin n) (g : Vector α n → α)
    (tells : ∀ v u : Vector α n, (∀ j : Fin n, j ≠ i → v[j] = u[j]) → g v = g u → v[i] = u[i]) :
    Function.Injective fun v : Vector α n => v.set i (g v) := by
  intro v u same
  obtain ⟨written, others⟩ := of_set_eq same
  exact eq_of_others others (tells v u others written)

end

/-! ### Chains of blocks -/

section
variable {β : Type} (op : β → β → β) (scramble : β → β)

/-- The blocks of `src` scrambled one after the other, each together with the result of the one
before; in front of the first one stands `start`. -/
def chain (start : β) (src : Nat → β) : Nat → β
  | 0 => start
  | n + 1 => scramble (op (chain start src n) (src n))

variable {op scramble} (cancel : ∀ s, Function.Injective (op s))
  (reversible : Function.Injective scramble) {start start' : β} {src src' : Nat → β} {n : Nat}
include cancel reversible

/-- Two results in a row tell the block between them. -/
theorem chain_block (before : chain op scramble start src n = chain op scramble start' src' n)
    (behind : chain op scramble start src (n + 1) = chain op scramble start' src' (n + 1)) :
    src n = src' n := by
  apply cancel (chain op scramble start src n)
  apply reversible
  rw [chain, chain, ← before] at behind
  exact behind

/-- From the same start, a chain loses nothing. -/
theorem chain_blocks
    (same : ∀ k < n, chain op scramble start src (k + 1) = chain op scramble start src' (k + 1)) :
    ∀ k < n, src k = src' k := by
  intro k inside
  apply chain_block cancel reversible _ (same k inside)
  cases k with
  | zero => rfl
  | succ k => exact same k (by omega)

/-- Nor does a chain of two blocks at least that starts from its own last block. -/
theorem chain_self (several : 0 < n)
    (same : ∀ k < n + 1, chain op scramble (src n) src (k + 1) =
      chain op scramble (src' n) src' (k + 1)) : ∀ k < n + 1, src k = src' k := by
  have last : src n = src' n := by
    obtain ⟨k, rfl⟩ := Nat.exists_eq_succ_of_ne_zero (Nat.ne_of_gt several)
    exact chain_block cancel reversible (same k (by omega)) (same (k + 1) (by omega))
  rw [last] at same
  exact chain_blocks cancel reversible same

end
end Reversible
