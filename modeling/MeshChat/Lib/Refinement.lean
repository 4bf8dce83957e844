import Mathlib.Data.List.Basic

/-! # Machines that take labelled steps

    A small library about systems whose steps carry a label, and about one such
    system doing no more than another allows.

    * `Machine`, `Machine.Steps`, `Machine.Run`: the machine, some of its steps in a row
      with their labels, and those from the start on.
    * `Run.invariant`, `Run.cut`: what holds in every run, and a run in two parts.
    * `Since`, `Run.since`: a fact that labels switch on and off holds if one of them has
      switched it on and none has switched it off since.
    * `Simulation`: the states of one machine stand for states of another. A step of
      the first is a step of the second, or is not seen there.
    * `Simulation.steps`, `Simulation.run`: and so are its runs.
-/

/-- Where a machine may begin, and the steps it may take. -/
structure Machine (σ ε : Type) where
  start : σ → Prop
  step : σ → ε → σ → Prop

/-- One of the labels switches on, and none behind it switches off. -/
def Since {ε : Type} (On Off : ε → Prop) (es : List ε) : Prop :=
  ∃ before e after, es = before ++ e :: after ∧ On e ∧ ∀ x ∈ after, ¬ Off x

/-- A list that ends in `x` and has `e` in it: that is the last one, or is before it. -/
theorem snoc_eq_append_cons {ε : Type} {es before after : List ε} {e x : ε}
    (h : es ++ [x] = before ++ e :: after) :
    (es = before ∧ x = e ∧ after = []) ∨
      ∃ init, after = init ++ [x] ∧ es = before ++ e :: init := by
  rcases List.eq_nil_or_concat after with rfl | ⟨init, last, rfl⟩
  · obtain ⟨rfl, he⟩ := List.append_inj' h rfl
    exact Or.inl ⟨rfl, by simpa using he, rfl⟩
  · have hsplit : es ++ [x] = (before ++ e :: init) ++ [last] := by
      rw [h]
      simp
    obtain ⟨rfl, hx⟩ := List.append_inj' hsplit rfl
    obtain rfl : x = last := by simpa using hx
    exact Or.inr ⟨init, by simp, rfl⟩

/-- There is one last label of a kind. -/
theorem last_unique {ε : Type} {P : ε → Prop} {before before' after after' : List ε} {e e' : ε}
    (h : before ++ e :: after = before' ++ e' :: after') (he : P e) (he' : P e')
    (hafter : ∀ x ∈ after, ¬ P x) (hafter' : ∀ x ∈ after', ¬ P x) :
    before = before' ∧ e = e' ∧ after = after' := by
  rcases List.append_eq_append_iff.mp h with ⟨mid, rfl, hmid⟩ | ⟨mid, rfl, hmid⟩
  · cases mid with
    | nil =>
      obtain ⟨rfl, rfl⟩ := List.cons.inj hmid
      exact ⟨by simp, rfl, rfl⟩
    | cons x mid =>
      obtain ⟨-, rfl⟩ := List.cons.inj hmid
      exact absurd he' (hafter e' (by simp))
  · cases mid with
    | nil =>
      obtain ⟨rfl, rfl⟩ := List.cons.inj hmid
      exact ⟨by simp, rfl, rfl⟩
    | cons x mid =>
      obtain ⟨-, rfl⟩ := List.cons.inj hmid
      exact absurd he (hafter' e (by simp))

theorem not_since_nil {ε : Type} {On Off : ε → Prop} : ¬ Since On Off [] := by
  rintro ⟨before, e, after, hes, -⟩
  simp at hes

theorem since_snoc {ε : Type} {On Off : ε → Prop} {es : List ε} {e : ε} :
    Since On Off (es ++ [e]) ↔ On e ∨ Since On Off es ∧ ¬ Off e := by
  constructor
  · rintro ⟨before, e', after, hes, hon, hoff⟩
    rcases snoc_eq_append_cons hes with ⟨-, rfl, -⟩ | ⟨init, rfl, rfl⟩
    · exact Or.inl hon
    · have hsince : Since On Off (before ++ e' :: init) :=
        ⟨before, e', init, rfl, hon, fun x hx => hoff x (by simp [hx])⟩
      exact Or.inr ⟨hsince, hoff e (by simp)⟩
  · rintro (hon | ⟨⟨before, e', after, rfl, hon, hoff⟩, hnot⟩)
    · exact ⟨es, e, [], rfl, hon, by simp⟩
    · refine ⟨before, e', after ++ [e], by simp, hon, fun x hx => ?_⟩
      rcases List.mem_append.mp hx with hx | hx
      · exact hoff x hx
      · rwa [List.mem_singleton.mp hx]

namespace Machine

variable {σ ε : Type} {m : Machine σ ε}

/-- Some steps in a row, with their labels. -/
inductive Steps (m : Machine σ ε) (s : σ) : List ε → σ → Prop
  | nil : Steps m s [] s
  | snoc {es : List ε} {s₁ s₂ : σ} {e : ε} (hsteps : Steps m s es s₁) (hstep : m.step s₁ e s₂) :
      Steps m s (es ++ [e]) s₂

/-- Steps from the start on. -/
def Run (m : Machine σ ε) (es : List ε) (s : σ) : Prop := ∃ s₀, m.start s₀ ∧ m.Steps s₀ es s

variable {es es' : List ε} {s s' : σ} {e : ε}

theorem steps_append : m.Steps s (es ++ es') s' ↔ ∃ s₁, m.Steps s es s₁ ∧ m.Steps s₁ es' s' := by
  constructor
  · intro h
    generalize hall : es ++ es' = all at h
    induction h generalizing es' with
    | nil =>
      obtain ⟨rfl, rfl⟩ := List.append_eq_nil_iff.mp hall
      exact ⟨s, .nil, .nil⟩
    | @snoc es₀ s₁ s₂ e hsteps hstep ih =>
      rcases List.eq_nil_or_concat es' with rfl | ⟨init, last, rfl⟩
      · rw [List.append_nil] at hall
        exact ⟨s₂, hall ▸ hsteps.snoc hstep, .nil⟩
      · rw [List.concat_eq_append, ← List.append_assoc] at hall
        obtain ⟨rfl, hlast⟩ := List.append_inj' hall rfl
        cases hlast
        obtain ⟨s₁', hfirst, hrest⟩ := ih rfl
        exact ⟨s₁', hfirst, by simpa using hrest.snoc hstep⟩
  · rintro ⟨s₁, hfirst, hrest⟩
    induction hrest with
    | nil => simpa using hfirst
    | snoc _ hstep ih =>
      rw [← List.append_assoc]
      exact ih.snoc hstep

theorem steps_nil : m.Steps s [] s' ↔ s = s' := by
  constructor
  · intro h
    generalize hnone : ([] : List ε) = es at h
    cases h with
    | nil => rfl
    | snoc _ _ => simp at hnone
  · rintro rfl
    exact .nil

theorem steps_singleton : m.Steps s [e] s' ↔ m.step s e s' := by
  constructor
  · intro h
    generalize hone : [e] = es at h
    cases h with
    | nil => cases hone
    | @snoc es s₁ _ e' hnone hstep =>
      obtain ⟨rfl, he⟩ := List.append_eq_singleton_iff.mp hone.symm |>.resolve_right (by simp)
      obtain rfl := List.singleton_inj.mp he
      rw [steps_nil.mp hnone]
      exact hstep
  · exact fun hstep => Steps.nil.snoc hstep

theorem steps_cons : m.Steps s (e :: es) s' ↔ ∃ s₁, m.step s e s₁ ∧ m.Steps s₁ es s' := by
  rw [← List.singleton_append, steps_append]
  simp only [steps_singleton]

namespace Run

theorem start (h : m.start s) : m.Run [] s := ⟨s, h, .nil⟩

theorem snoc (h : m.Run es s) (hstep : m.step s e s') : m.Run (es ++ [e]) s' := by
  obtain ⟨s₀, hstart, hsteps⟩ := h
  exact ⟨s₀, hstart, hsteps.snoc hstep⟩

/-- What holds at the start and is kept by every step holds in every run. -/
theorem invariant {I : List ε → σ → Prop} (hstart : ∀ s, m.start s → I [] s)
    (hstep : ∀ es s e s', m.Run es s → I es s → m.step s e s' → I (es ++ [e]) s')
    (h : m.Run es s) : I es s := by
  obtain ⟨s₀, hs₀, hsteps⟩ := h
  induction hsteps with
  | nil => exact hstart _ hs₀
  | snoc hsteps h ih => exact hstep _ _ _ _ ⟨s₀, hs₀, hsteps⟩ ih h

/-- The step behind a label, and what comes before it and behind it. -/
theorem cut {before behind : List ε} (h : m.Run (before ++ e :: behind) s) :
    ∃ s₁ s₂, m.Run before s₁ ∧ m.step s₁ e s₂ ∧ m.Steps s₂ behind s := by
  obtain ⟨s₀, hs₀, hsteps⟩ := h
  obtain ⟨s₁, hfirst, hrest⟩ := steps_append.mp hsteps
  obtain ⟨s₂, hstep, hbehind⟩ := steps_cons.mp hrest
  exact ⟨s₁, s₂, ⟨s₀, hs₀, hfirst⟩, hstep, hbehind⟩

/-- A fact that is switched by the labels, as long as there are at most `n`. -/
theorem since {P : σ → Prop} {On Off : ε → Prop} {n : Nat} (hstart : ∀ s, m.start s → ¬ P s)
    (hstep : ∀ es s e s', (es ++ [e]).length ≤ n → m.Run es s → m.step s e s' →
      (P s' ↔ On e ∨ P s ∧ ¬ Off e))
    (h : m.Run es s) : es.length ≤ n → (P s ↔ Since On Off es) := by
  refine h.invariant (I := fun es s => es.length ≤ n → (P s ↔ Since On Off es)) ?_ ?_
  · exact fun s hs _ => iff_of_false (hstart s hs) not_since_nil
  · intro es s e s' hrun ih hs' hlen
    have hlen' : es.length ≤ n := by
      rw [List.length_append] at hlen
      omega
    rw [since_snoc, hstep es s e s' hlen hrun hs', ih hlen']

end Run

end Machine

/-- Each state of `c` that keeps the invariant stands for one of `a`, and each label
    is one of `a` or is not seen there. -/
structure Simulation {σ ε τ δ : Type} (c : Machine σ ε) (a : Machine τ δ) where
  inv : σ → Prop
  abs : σ → τ
  obs : ε → Option δ
  inv_start : ∀ s, c.start s → inv s
  inv_step : ∀ s e s', inv s → c.step s e s' → inv s'
  start : ∀ s, c.start s → a.start (abs s)
  visible : ∀ s e s' d, inv s → c.step s e s' → obs e = some d → a.step (abs s) d (abs s')
  stutter : ∀ s e s', inv s → c.step s e s' → obs e = none → abs s' = abs s

namespace Simulation

variable {σ ε τ δ : Type} {c : Machine σ ε} {a : Machine τ δ}

/-- Steps stand for steps of the other machine. -/
theorem steps (S : Simulation c a) {es : List ε} {s s' : σ} (hinv : S.inv s)
    (h : c.Steps s es s') : S.inv s' ∧ a.Steps (S.abs s) (es.filterMap S.obs) (S.abs s') := by
  induction h with
  | nil => exact ⟨hinv, .nil⟩
  | @snoc es s₁ s₂ e hsteps hstep ih =>
    obtain ⟨hinv, hsim⟩ := ih
    refine ⟨S.inv_step _ _ _ hinv hstep, ?_⟩
    rw [List.filterMap_append]
    cases hobs : S.obs e with
    | none =>
      rw [S.stutter _ _ _ hinv hstep hobs]
      simpa [hobs] using hsim
    | some d =>
      have hnext := hsim.snoc (S.visible _ _ _ _ hinv hstep hobs)
      simpa [hobs] using hnext

/-- Every run stands for one of the other machine. -/
theorem run (S : Simulation c a) {es : List ε} {s : σ} (h : c.Run es s) :
    S.inv s ∧ a.Run (es.filterMap S.obs) (S.abs s) := by
  obtain ⟨s₀, hstart, hsteps⟩ := h
  obtain ⟨hinv, hsim⟩ := S.steps (S.inv_start _ hstart) hsteps
  exact ⟨hinv, S.abs s₀, S.start _ hstart, hsim⟩

end Simulation
