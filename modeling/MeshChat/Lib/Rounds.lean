import Mathlib.Data.Finset.Card
import Mathlib.Logic.Function.Iterate
import Mathlib.Order.Iterate

/-! # Rounds that only add

    An operator that adds elements of a finite set `B` to its argument is at rest
    after as many rounds as `B` has elements.
-/

namespace Rounds

variable {α : Type} {f : Finset α → Finset α} {B : Finset α}

/-- What a round leaves alone, further rounds leave alone. -/
theorem iterate_fixed {s : Finset α} {k n : Nat} (hfix : f (f^[k] s) = f^[k] s) (hkn : k ≤ n) :
    f^[n] s = f^[k] s := by
  induction hkn with
  | refl => rfl
  | step _ ih => rw [Function.iterate_succ_apply', ih, hfix]

/-- As long as the operator is not at rest, each round adds an element. -/
theorem card_iterate (hadd : ∀ s, s ⊆ f s) {s : Finset α} {n : Nat}
    (hmoves : ∀ k < n, f (f^[k] s) ≠ f^[k] s) : s.card + n ≤ (f^[n] s).card := by
  induction n with
  | zero => rfl
  | succ n ih =>
    have hn := ih fun k hk => hmoves k (Nat.lt_succ_of_lt hk)
    rw [Function.iterate_succ_apply']
    have hlt : (f^[n] s).card < (f (f^[n] s)).card :=
      Finset.card_lt_card
        (Finset.ssubset_iff_subset_ne.mpr ⟨hadd _, (hmoves n (Nat.lt_succ_self n)).symm⟩)
    omega

variable [DecidableEq α]

theorem iterate_subset (hbound : ∀ s, f s ⊆ s ∪ B) (s : Finset α) (n : Nat) :
    f^[n] s ⊆ s ∪ B := by
  induction n with
  | zero => exact Finset.subset_union_left
  | succ n ih =>
    rw [Function.iterate_succ_apply']
    exact (hbound _).trans (Finset.union_subset ih Finset.subset_union_right)

/-- After one round for each element that can be added, the operator is at rest. -/
theorem iterate_card_fixed (hadd : ∀ s, s ⊆ f s) (hbound : ∀ s, f s ⊆ s ∪ B) (s : Finset α)
    {n : Nat} (hn : B.card ≤ n) : f (f^[n] s) = f^[n] s := by
  by_contra hmoving
  have hmoves : ∀ k < n + 1, f (f^[k] s) ≠ f^[k] s := by
    intro k hk hfix
    have hrest := iterate_fixed hfix (Nat.le_of_lt_succ hk)
    exact hmoving (by rw [hrest, hfix])
  have hlow := card_iterate hadd hmoves
  have hhigh := (Finset.card_le_card (iterate_subset hbound s (n + 1))).trans (Finset.card_union_le s B)
  omega

end Rounds
