import Mathlib.Data.List.Nodup
import Mathlib.Logic.Function.Basic

/-! # Tables as partial functions

    A list of rows, each with a key, as the partial function from keys to what the rows
    hold. Adding a row with a new key, deleting the rows of a key and rewriting them are
    `Function.update`s of it.
-/

namespace Keyed

variable {α β κ : Type} [DecidableEq κ] {f : α → κ} {g : α → β} {l : List α} {k : κ}

/-- What the first row with the key holds. -/
def keyed (f : α → κ) (g : α → β) (l : List α) (k : κ) : Option β :=
  (l.find? fun a => f a = k).map g

theorem keyed_eq_none : keyed f g l k = none ↔ ∀ a ∈ l, f a ≠ k := by
  simp [keyed]

/-- With distinct keys every row is the first one of its key. -/
theorem find_of_mem (hnodup : (l.map f).Nodup) {a : α} (ha : a ∈ l) :
    (l.find? fun b => f b = f a) = some a := by
  cases hfind : l.find? fun b => f b = f a with
  | none => simpa using List.find?_eq_none.mp hfind a ha
  | some b =>
    have hkey : f b = f a := by simpa using List.find?_some hfind
    rw [List.inj_on_of_nodup_map hnodup (List.mem_of_find?_eq_some hfind) ha hkey]

theorem keyed_of_mem (hnodup : (l.map f).Nodup) {a : α} (ha : a ∈ l) (hk : f a = k) :
    keyed f g l k = some (g a) := by
  subst hk
  rw [keyed, find_of_mem hnodup ha]
  rfl

theorem exists_of_keyed {b : β} (h : keyed f g l k = some b) : ∃ a ∈ l, f a = k ∧ g a = b := by
  obtain ⟨a, hfind, rfl⟩ := Option.map_eq_some_iff.mp h
  exact ⟨a, List.mem_of_find?_eq_some hfind, by simpa using List.find?_some hfind, rfl⟩

theorem keyed_eq_some (hnodup : (l.map f).Nodup) {b : β} :
    keyed f g l k = some b ↔ ∃ a ∈ l, f a = k ∧ g a = b := by
  constructor
  · exact exists_of_keyed
  · rintro ⟨a, ha, hk, rfl⟩
    exact keyed_of_mem hnodup ha hk

/-- A row with a new key. -/
theorem keyed_snoc {a : α} (hnew : ∀ b ∈ l, f b ≠ f a) :
    keyed f g (l ++ [a]) = Function.update (keyed f g l) (f a) (some (g a)) := by
  funext k
  by_cases hk : k = f a
  · subst hk
    have hnone : (l.find? fun b => f b = f a) = none := by simpa using hnew
    simp [keyed, List.find?_append, hnone]
  · rw [Function.update_of_ne hk]
    have hother : ([a].find? fun b => f b = k) = none := by simpa using fun h => hk h.symm
    simp [keyed, List.find?_append, hother]

/-- The rows of a key are deleted. -/
theorem keyed_filter_ne (f : α → κ) (g : α → β) (l : List α) (k : κ) :
    keyed f g (l.filter (f · ≠ k)) = Function.update (keyed f g l) k none := by
  funext j
  by_cases hj : j = k
  · subst hj
    rw [Function.update_self, keyed_eq_none]
    intro a ha
    simpa using (List.mem_filter.mp ha).2
  · rw [Function.update_of_ne hj]
    unfold keyed
    rw [List.find?_filter]
    refine congrArg (Option.map g) (congrArg (List.find? · l) (funext fun a => ?_))
    by_cases ha : f a = j
    · simp [ha, hj]
    · simp [ha]

/-- The row of a key is rewritten, and keeps its key. -/
theorem keyed_rewrite (hnodup : (l.map f).Nodup) {t : α → α} (ht : ∀ a, f (t a) = f a) {a : α}
    (ha : a ∈ l) (hk : f a = k) :
    keyed f g (l.map fun b => if f b = k then t b else b) =
      Function.update (keyed f g l) k (some (g (t a))) := by
  have hkeys : ∀ b, f (if f b = k then t b else b) = f b := by
    intro b
    split
    · exact ht b
    · rfl
  have hsame : (l.map fun b => if f b = k then t b else b).map f = l.map f := by
    rw [List.map_map]
    exact List.map_congr_left fun b _ => hkeys b
  funext j
  by_cases hj : j = k
  · subst hj
    rw [Function.update_self]
    refine keyed_of_mem (by rw [hsame]; exact hnodup) (a := t a) ?_ ((ht a).trans hk)
    exact List.mem_map.mpr ⟨a, ha, if_pos hk⟩
  · rw [Function.update_of_ne hj]
    unfold keyed
    rw [List.find?_map, Option.map_map]
    have hpred : ((fun b => decide (f b = j)) ∘ fun b => if f b = k then t b else b) =
        fun b => decide (f b = j) := by
      funext b
      simp only [Function.comp, hkeys]
    rw [hpred]
    cases hfind : l.find? fun b => decide (f b = j) with
    | none => rfl
    | some b =>
      have hb : f b = j := by simpa using List.find?_some hfind
      simp [hb, hj]

end Keyed
