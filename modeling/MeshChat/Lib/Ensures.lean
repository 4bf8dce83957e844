import MeshChat.Lib.Prog

/-! # What a program ensures when it is run on its own

    A program logic for `Runs`: from state `s` on, every run of the program that comes
    to an end has a state and a value with `Q`. The rules follow the constructs of a
    program, and a function is used by what it ensures.
-/

namespace Prog

variable {C R α β σ : Type} {S : σ → C → σ → R → Prop} {s : σ}

/-- Every run of the program that ends does so with `Q`. -/
def Ensures (S : σ → C → σ → R → Prop) (s : σ) (p : Prog C R α) (Q : σ → α → Prop) : Prop :=
  ∀ s' a, Runs S s p s' a → Q s' a

namespace Ensures

variable {p q : Prog C R α} {Q Q' : σ → α → Prop}

theorem ret {a : α} (h : Q s a) : Ensures S s (ret a) Q := by
  intro s' b hrun
  obtain ⟨rfl, rfl⟩ := runs_ret.mp hrun
  exact h

theorem call {c : C} {k : R → Prog C R α} (h : ∀ s' r, S s c s' r → Ensures S s' (k r) Q) :
    Ensures S s (call c k) Q := by
  intro s' a hrun
  obtain ⟨s₁, r, hcall, hk⟩ := runs_call.mp hrun
  exact h s₁ r hcall s' a hk

theorem bind {f : α → Prog C R β} {Q' : σ → β → Prop} (hp : Ensures S s p Q)
    (hf : ∀ s' a, Q s' a → Ensures S s' (f a) Q') : Ensures S s (p >>= f) Q' := by
  intro s' b hrun
  obtain ⟨s₁, a, hfirst, hrest⟩ := runs_bind.mp hrun
  exact hf s₁ a (hp s₁ a hfirst) s' b hrest

theorem ite {P : Prop} [Decidable P] (hp : P → Ensures S s p Q) (hq : ¬ P → Ensures S s q Q) :
    Ensures S s (if P then p else q) Q := by
  split
  · exact hp ‹_›
  · exact hq ‹_›

/-- The rule of consequence. -/
theorem mono (h : Ensures S s p Q) (hQ : ∀ s' a, Q s' a → Q' s' a) : Ensures S s p Q' :=
  fun s' a hrun => hQ s' a (h s' a hrun)

end Ensures

end Prog
