import Mathlib

/-! # Programs that make calls

    A small library for code whose only effects are calls to an environment (a
    database connection, a lock). A `Prog C R α` makes calls of type `C`, gets
    replies of type `R` and returns an `α`. Nothing is said about what a call
    does: the same program is run

    * on its own, over a state with a relation `S` for what a call may do
      (`Runs`);
    * against an arbitrary sequence of replies (`after`, `trace`);
    * interleaved with other programs over one shared state (`Interleaved`).

    All three are defined from the same two functions, `issue` (the next call)
    and `resume` (what is left after its reply). `Conforms` says that a program
    keeps to a protocol whatever replies it gets; it carries over to every
    interleaving. `Returns` says that a program comes to an end, and with what
    values. `play` runs a given schedule.
-/

/-- A program that makes calls `C` answered by `R` and returns an `α`.
    `drain c more seen k` is a loop: it makes the calls `c 0`, `c 1`, … as long
    as `more` holds of the reply, and goes on with all replies seen and the last
    one. -/
inductive Prog (C R α : Type) where
  | ret (a : α)
  | call (c : C) (k : R → Prog C R α)
  | drain (c : Nat → C) (more : R → Bool) (seen : List R) (k : List R → R → Prog C R α)

namespace Prog

variable {C R α β : Type}

protected def bind : Prog C R α → (α → Prog C R β) → Prog C R β
  | ret a, f => f a
  | call c k, f => call c fun r => (k r).bind f
  | drain c more seen k, f => drain c more seen fun rows r => (k rows r).bind f

instance : Monad (Prog C R) where
  pure := ret
  bind := Prog.bind

/-- A single call. -/
def invoke (c : C) : Prog C R R := call c ret

/-- Collect replies until one is not wanted; that one is returned too. -/
def collect (c : Nat → C) (more : R → Bool) : Prog C R (List R × R) :=
  drain c more [] fun rows r => ret (rows, r)

@[simp] theorem pure_eq (a : α) : (pure a : Prog C R α) = ret a := rfl

@[simp] theorem ret_bind (a : α) (f : α → Prog C R β) : (ret a >>= f) = f a := rfl

@[simp] theorem call_bind (c : C) (k : R → Prog C R α) (f : α → Prog C R β) :
    (call c k >>= f) = call c fun r => k r >>= f := rfl

@[simp] theorem drain_bind (c : Nat → C) (more : R → Bool) (seen : List R)
    (k : List R → R → Prog C R α) (f : α → Prog C R β) :
    (drain c more seen k >>= f) = drain c more seen fun rows r => k rows r >>= f := rfl

@[simp] theorem invoke_bind (c : C) (f : R → Prog C R β) : (invoke c >>= f) = call c f := rfl

@[simp] theorem collect_bind (c : Nat → C) (more : R → Bool) (f : List R × R → Prog C R β) :
    (collect c more >>= f) = drain c more [] fun rows r => f (rows, r) := rfl

@[simp] theorem ite_bind {c : Prop} [Decidable c] (p q : Prog C R α) (f : α → Prog C R β) :
    ((if c then p else q) >>= f) = if c then p >>= f else q >>= f := by
  split <;> rfl

theorem map_eq_bind (g : α → β) (p : Prog C R α) : g <$> p = p >>= fun a => ret (g a) := rfl

theorem bind_assoc {γ : Type} (p : Prog C R α) (f : α → Prog C R β) (g : β → Prog C R γ) :
    (p >>= f) >>= g = p >>= fun a => f a >>= g := by
  induction p with
  | ret a => rfl
  | call c k ih =>
    simp only [call_bind]
    exact congrArg (call c) (funext ih)
  | drain c more seen k ih =>
    simp only [drain_bind]
    exact congrArg (drain c more seen) (funext fun rows => funext (ih rows))

theorem bind_ret_self (p : Prog C R α) : (p >>= fun a => ret a) = p := by
  induction p with
  | ret a => rfl
  | call c k ih =>
    simp only [call_bind]
    exact congrArg (call c) (funext ih)
  | drain c more seen k ih =>
    simp only [drain_bind]
    exact congrArg (drain c more seen) (funext fun rows => funext (ih rows))

/-! ## One call at a time -/

/-- The next call, if the program has not returned. -/
def issue : Prog C R α → Option C
  | ret _ => none
  | call c _ => some c
  | drain c _ seen _ => some (c seen.length)

/-- What is left of the program after the reply to its next call. -/
def resume : Prog C R α → R → Prog C R α
  | ret a, _ => ret a
  | call _ k, r => k r
  | drain c more seen k, r => if more r then drain c more (seen ++ [r]) k else k seen r

/-- The value returned, if any. -/
def result : Prog C R α → Option α
  | ret a => some a
  | _ => none

@[simp] theorem issue_ret (a : α) : (ret a : Prog C R α).issue = none := rfl

@[simp] theorem issue_call (c : C) (k : R → Prog C R α) : (call c k).issue = some c := rfl

@[simp] theorem resume_call (c : C) (k : R → Prog C R α) (r : R) : (call c k).resume r = k r := rfl

@[simp] theorem result_ret (a : α) : (ret a : Prog C R α).result = some a := rfl

@[simp] theorem result_call (c : C) (k : R → Prog C R α) : (call c k).result = none := rfl

@[simp] theorem result_drain (c : Nat → C) (more : R → Bool) (seen : List R)
    (k : List R → R → Prog C R α) : (drain c more seen k).result = none := rfl

theorem eq_ret_of_result {p : Prog C R α} {a : α} (h : p.result = some a) : p = ret a := by
  cases p with
  | ret b => cases h; rfl
  | call c k => cases h
  | drain c more seen k => cases h

theorem eq_ret_of_issue {p : Prog C R α} (h : p.issue = none) : ∃ a, p = ret a := by
  cases p with
  | ret a => exact ⟨a, rfl⟩
  | call c k => cases h
  | drain c more seen k => cases h

theorem issue_bind {p : Prog C R α} {c : C} (h : p.issue = some c) (f : α → Prog C R β) :
    (p >>= f).issue = some c := by
  cases p with
  | ret a => cases h
  | call c' k => exact h
  | drain c' more seen k => exact h

theorem resume_bind {p : Prog C R α} {c : C} (h : p.issue = some c) (f : α → Prog C R β) (r : R) :
    (p >>= f).resume r = p.resume r >>= f := by
  cases p with
  | ret a => cases h
  | call c' k => rfl
  | drain c' more seen k =>
    simp only [drain_bind, resume]
    split <;> rfl

/-! ## Against given replies -/

/-- What is left of the program after the replies `rs`. -/
def after : Prog C R α → List R → Prog C R α
  | p, [] => p
  | p, r :: rs => (p.resume r).after rs

/-- The calls made and the replies they got. -/
def trace : Prog C R α → List R → List (C × R)
  | _, [] => []
  | p, r :: rs =>
    match p.issue with
    | none => []
    | some c => (c, r) :: (p.resume r).trace rs

@[simp] theorem after_nil (p : Prog C R α) : p.after [] = p := rfl

@[simp] theorem after_cons (p : Prog C R α) (r : R) (rs : List R) :
    p.after (r :: rs) = (p.resume r).after rs := rfl

theorem after_append (p : Prog C R α) (rs rs' : List R) :
    p.after (rs ++ rs') = (p.after rs).after rs' := by
  induction rs generalizing p with
  | nil => rfl
  | cons r rs ih => simpa using ih (p.resume r)

@[simp] theorem trace_nil (p : Prog C R α) : p.trace [] = [] := by
  cases p <;> rfl

@[simp] theorem trace_ret (a : α) (rs : List R) : (ret a : Prog C R α).trace rs = [] := by
  cases rs <;> rfl

@[simp] theorem after_ret (a : α) (rs : List R) : (ret a : Prog C R α).after rs = ret a := by
  induction rs with
  | nil => rfl
  | cons r rs ih => simpa [resume] using ih

theorem trace_cons {p : Prog C R α} {c : C} (hissue : p.issue = some c) (r : R) (rs : List R) :
    p.trace (r :: rs) = (c, r) :: (p.resume r).trace rs := by
  simp [trace, hissue]

@[simp] theorem trace_call (c : C) (k : R → Prog C R α) (r : R) (rs : List R) :
    (call c k).trace (r :: rs) = (c, r) :: (k r).trace rs := rfl

/-! ## On its own, over a state -/

section Sequential

variable {σ : Type} {S : σ → C → σ → R → Prop}

/-- `Runs S s p s' a`: started in `s`, with calls answered as `S` allows, the
    program returns `a` in state `s'`. A call that nothing answers blocks. -/
inductive Runs (S : σ → C → σ → R → Prop) : σ → Prog C R α → σ → α → Prop
  | ret (s : σ) (a : α) : Runs S s (.ret a) s a
  | step {s s' s'' : σ} {p : Prog C R α} {c : C} {r : R} {a : α} (hissue : p.issue = some c)
      (hcall : S s c s' r) (hrest : Runs S s' (p.resume r) s'' a) : Runs S s p s'' a

theorem runs_ret {s s' : σ} {a b : α} : Runs S s (ret a) s' b ↔ s' = s ∧ b = a := by
  constructor
  · intro h
    cases h with
    | ret => exact ⟨rfl, rfl⟩
    | step hissue _ _ => cases hissue
  · rintro ⟨rfl, rfl⟩
    exact .ret _ _

theorem runs_call {s s'' : σ} {c : C} {k : R → Prog C R α} {a : α} :
    Runs S s (call c k) s'' a ↔ ∃ s' r, S s c s' r ∧ Runs S s' (k r) s'' a := by
  constructor
  · intro h
    cases h with
    | step hissue hcall hrest =>
      cases hissue
      exact ⟨_, _, hcall, hrest⟩
  · rintro ⟨s', r, hcall, hrest⟩
    exact .step rfl hcall hrest

/-- Calls may be answered in more ways. -/
theorem Runs.mono {T : σ → C → σ → R → Prop} {s s' : σ} {p : Prog C R α} {a : α}
    (h : Runs S s p s' a) (hST : S ≤ T) : Runs T s p s' a := by
  induction h with
  | ret s a => exact .ret s a
  | step hissue hcall _ ih => exact .step hissue (hST _ _ _ _ hcall) ih

/-- Sequencing. -/
theorem runs_bind {s s'' : σ} {p : Prog C R α} {f : α → Prog C R β} {b : β} :
    Runs S s (p >>= f) s'' b ↔ ∃ s' a, Runs S s p s' a ∧ Runs S s' (f a) s'' b := by
  constructor
  · intro h
    -- over the run: its first calls are those of `p`, until `p` has returned
    generalize hq : p >>= f = q at h
    induction h generalizing p with
    | ret s b =>
      cases p with
      | ret a =>
        rw [ret_bind] at hq
        exact ⟨s, a, .ret s a, by rw [hq]; exact .ret s b⟩
      | call c k => cases hq
      | drain c more seen k => cases hq
    | @step s s' s'' q c r b hissue hcall hrest ih =>
      cases hp : p.issue with
      | none =>
        obtain ⟨a, rfl⟩ := eq_ret_of_issue hp
        rw [ret_bind] at hq
        exact ⟨s, a, .ret s a, by rw [hq]; exact .step hissue hcall hrest⟩
      | some c' =>
        have hsame : c' = c := by
          have := issue_bind hp f
          rw [hq, hissue] at this
          exact (Option.some.inj this).symm
        subst hsame
        obtain ⟨t, a, hp', hf⟩ := ih (by rw [← hq, resume_bind hp])
        exact ⟨t, a, .step hp hcall hp', hf⟩
  · -- over the run of `p`, whose calls are issued by the sequence as well
    rintro ⟨s', a, hp, hf⟩
    induction hp with
    | ret s a => exact hf
    | step hissue hcall _ ih =>
      exact .step (issue_bind hissue f) hcall (by rw [resume_bind hissue]; exact ih hf)

theorem runs_map {s s' : σ} {p : Prog C R α} {g : α → β} {b : β} :
    Runs S s (g <$> p) s' b ↔ ∃ a, Runs S s p s' a ∧ b = g a := by
  rw [map_eq_bind, runs_bind]
  constructor
  · rintro ⟨t, a, hp, hret⟩
    obtain ⟨rfl, rfl⟩ := runs_ret.mp hret
    exact ⟨a, hp, rfl⟩
  · rintro ⟨a, hp, rfl⟩
    exact ⟨s', a, hp, .ret _ _⟩

/-- A loop of calls that do not change the state: the replies collected are
    those of the successive calls in that state, and the first one that is not
    wanted ends it. -/
theorem runs_drain {s s'' : σ} {c : Nat → C} {more : R → Bool} {seen : List R}
    {k : List R → R → Prog C R α} {a : α}
    (hread : ∀ i s' r, S s (c i) s' r → s' = s)
    (h : Runs S s (drain c more seen k) s'' a) :
    ∃ rows last, (∀ j r, rows[j]? = some r → S s (c (seen.length + j)) s r ∧ more r = true) ∧
      S s (c (seen.length + rows.length)) s last ∧ more last = false ∧
      Runs S s (k (seen ++ rows) last) s'' a := by
  generalize hq : drain c more seen k = q at h
  -- over the run, with what was collected so far; the loop is the program in each state of it
  induction h generalizing seen with
  | ret s a => cases hq
  | @step s s' s'' q c' r a hissue hcall hrest ih =>
    subst hq
    simp only [issue, Option.some.injEq] at hissue
    subst hissue
    have hsame : s' = s := hread _ _ _ hcall
    subst hsame
    simp only [resume] at hrest ih
    by_cases hmore : more r = true
    · obtain ⟨rows, last, hrows, hlast, hstop, hk⟩ := ih hread (if_pos hmore).symm
      refine ⟨r :: rows, last, ?_, ?_, hstop, by simpa using hk⟩
      · intro j r' hj
        cases j with
        | zero =>
          simp only [List.getElem?_cons_zero, Option.some.injEq] at hj
          subst hj
          exact ⟨hcall, hmore⟩
        | succ j =>
          have := hrows j r' (by simpa using hj)
          simpa [Nat.add_assoc, Nat.add_comm 1 j] using this
      · simpa [Nat.add_assoc, Nat.add_comm 1] using hlast
    · rw [if_neg hmore] at hrest
      refine ⟨[], r, by simp, by simpa using hcall, by simpa using hmore, by simpa using hrest⟩

/-- The loop above, run. -/
theorem Runs.drain {s s'' : σ} {c : Nat → C} {more : R → Bool} {rows : List R} {last : R}
    {k : List R → R → Prog C R α} {a : α} {seen : List R}
    (hrows : ∀ j r, rows[j]? = some r → S s (c (seen.length + j)) s r ∧ more r = true)
    (hlast : S s (c (seen.length + rows.length)) s last) (hstop : more last = false)
    (hk : Runs S s (k (seen ++ rows) last) s'' a) : Runs S s (drain c more seen k) s'' a := by
  induction rows generalizing seen with
  | nil =>
    refine .step rfl (by simpa using hlast) ?_
    rw [resume, if_neg (by simp [hstop])]
    simpa using hk
  | cons r rows ih =>
    obtain ⟨hcall, hmore⟩ := hrows 0 r rfl
    refine .step rfl hcall ?_
    rw [resume, if_pos hmore]
    refine ih ?_ ?_ (by simpa using hk)
    · intro j r' hj
      have hnext := hrows (j + 1) r' (by simpa using hj)
      simpa [Nat.add_assoc, Nat.add_comm 1 j] using hnext
    · simpa [Nat.add_assoc, Nat.add_comm 1] using hlast

/-- Where each call has one answer, so has the program. -/
theorem Runs.unique (hdet : ∀ s c s₁ r₁ s₂ r₂, S s c s₁ r₁ → S s c s₂ r₂ → s₁ = s₂ ∧ r₁ = r₂)
    {s s₁ s₂ : σ} {p : Prog C R α} {a₁ a₂ : α} (h₁ : Runs S s p s₁ a₁) (h₂ : Runs S s p s₂ a₂) :
    s₁ = s₂ ∧ a₁ = a₂ := by
  -- the other run has to make the same call
  induction h₁ with
  | ret s a =>
    obtain ⟨rfl, rfl⟩ := runs_ret.mp h₂
    exact ⟨rfl, rfl⟩
  | step hissue hcall _ ih =>
    cases h₂ with
    | ret => cases hissue
    | step hissue' hcall' hrest' =>
      obtain rfl := Option.some.inj (hissue.symm.trans hissue')
      obtain ⟨rfl, rfl⟩ := hdet _ _ _ _ _ _ hcall hcall'
      exact ih hrest'

/-- Run a program with at most `fuel` calls, all of them answered by `f`. -/
def execute (f : σ → C → Option (σ × R)) : Nat → σ → Prog C R α → Option (σ × α)
  | _, s, ret a => some (s, a)
  | 0, _, _ => none
  | fuel + 1, s, p =>
    match p.issue with
    | none => none
    | some c =>
      match f s c with
      | none => none
      | some (s', r) => execute f fuel s' (p.resume r)

theorem runs_of_execute {f : σ → C → Option (σ × R)}
    (hf : ∀ s c s' r, f s c = some (s', r) → S s c s' r) {fuel : Nat} {s s' : σ}
    {p : Prog C R α} {a : α} (h : execute f fuel s p = some (s', a)) : Runs S s p s' a := by
  -- over the fuel, which bounds the number of calls
  induction fuel generalizing s p with
  | zero =>
    cases p with
    | ret b => cases h; exact .ret _ _
    | call c k => cases h
    | drain c more seen k => cases h
  | succ fuel ih =>
    cases p with
    | ret b => cases h; exact .ret _ _
    | call c k =>
      simp only [execute, issue] at h
      split at h
      · cases h
      · exact .step rfl (hf _ _ _ _ ‹_›) (ih h)
    | drain c more seen k =>
      simp only [execute, issue] at h
      split at h
      · cases h
      · exact .step rfl (hf _ _ _ _ ‹_›) (ih h)

end Sequential

/-! ## Keeping to a protocol -/

/-- A protocol: which calls are allowed in a phase `τ`, how a call and its reply
    change the phase, and which values may be returned in it. -/
structure Protocol (C R α τ : Type) where
  allows : τ → C → Prop
  next : τ → C → R → τ
  done : τ → α → Prop

section Conformance

variable {τ : Type} (A : Protocol C R α τ)

/-- From phase `t`, the program keeps to the protocol whatever replies it gets.
    The calls of a loop must leave the phase alone. -/
def Conforms : τ → Prog C R α → Prop
  | t, ret a => A.done t a
  | t, call c k => A.allows t c ∧ ∀ r, Conforms (A.next t c r) (k r)
  | t, drain c _ _ k =>
    (∀ i, A.allows t (c i) ∧ ∀ r, A.next t (c i) r = t) ∧ ∀ rows r, Conforms t (k rows r)

/-- The phase after a sequence of calls and replies. -/
def Protocol.along (t : τ) (tr : List (C × R)) : τ :=
  tr.foldl (fun t x => A.next t x.1 x.2) t

variable {A}

@[simp] theorem Protocol.along_snoc (t : τ) (tr : List (C × R)) (x : C × R) :
    A.along t (tr ++ [x]) = A.next (A.along t tr) x.1 x.2 := by
  simp [along]

@[simp] theorem conforms_ret {t : τ} {a : α} : Conforms A t (ret a) ↔ A.done t a := Iff.rfl

@[simp] theorem conforms_call {t : τ} {c : C} {k : R → Prog C R α} :
    Conforms A t (call c k) ↔ A.allows t c ∧ ∀ r, Conforms A (A.next t c r) (k r) := Iff.rfl

@[simp] theorem conforms_drain {t : τ} {c : Nat → C} {more : R → Bool} {seen : List R}
    {k : List R → R → Prog C R α} : Conforms A t (drain c more seen k) ↔
      (∀ i, A.allows t (c i) ∧ ∀ r, A.next t (c i) r = t) ∧ ∀ rows r, Conforms A t (k rows r) :=
  Iff.rfl

@[simp] theorem conforms_ite {t : τ} {c : Prop} [Decidable c] {p q : Prog C R α} :
    Conforms A t (if c then p else q) ↔ (c → Conforms A t p) ∧ (¬ c → Conforms A t q) := by
  by_cases hc : c <;> simp [hc]

theorem Conforms.ite {t : τ} {c : Prop} [Decidable c] {p q : Prog C R α} (hp : Conforms A t p)
    (hq : Conforms A t q) : Conforms A t (if c then p else q) :=
  conforms_ite.mpr ⟨fun _ => hp, fun _ => hq⟩

theorem Conforms.allowed {t : τ} {p : Prog C R α} (h : Conforms A t p) {c : C}
    (hissue : p.issue = some c) : A.allows t c := by
  cases p with
  | ret a => cases hissue
  | call c' k => cases hissue; exact h.1
  | drain c' more seen k => cases hissue; exact (h.1 _).1

theorem Conforms.resume {t : τ} {p : Prog C R α} (h : Conforms A t p) {c : C}
    (hissue : p.issue = some c) (r : R) : Conforms A (A.next t c r) (p.resume r) := by
  cases p with
  | ret a => cases hissue
  | call c' k => cases hissue; exact h.2 r
  | drain c' more seen k =>
    cases hissue
    -- a loop is in the phase that it started in
    rw [(h.1 _).2 r]
    simp only [Prog.resume]
    split
    · exact h
    · exact h.2 seen r

/-- What is returned after any replies was allowed in the phase they led to. -/
theorem Conforms.returned {t : τ} {p : Prog C R α} (h : Conforms A t p) (rs : List R) {a : α}
    (hret : p.after rs = ret a) : A.done (A.along t (p.trace rs)) a := by
  -- over the replies; those behind the return are not used
  induction rs generalizing p t with
  | nil =>
    rw [after_nil] at hret
    subst hret
    exact h
  | cons r rs ih =>
    cases hissue : p.issue with
    | none =>
      obtain ⟨b, rfl⟩ := eq_ret_of_issue hissue
      rw [after_ret] at hret
      cases hret
      exact h
    | some c =>
      rw [trace_cons hissue]
      exact ih (h.resume hissue r) hret

/-- Every call that is made is one the protocol allows. -/
theorem Conforms.trace_allowed {t : τ} {p : Prog C R α} (h : Conforms A t p) (rs : List R) :
    ∀ x ∈ p.trace rs, ∃ t', A.allows t' x.1 := by
  induction rs generalizing p t with
  | nil => simp
  | cons r rs ih =>
    cases hissue : p.issue with
    | none =>
      obtain ⟨a, rfl⟩ := eq_ret_of_issue hissue
      simp
    | some c =>
      rw [trace_cons hissue, List.forall_mem_cons]
      exact ⟨⟨t, h.allowed hissue⟩, ih (h.resume hissue r)⟩

/-- A protocol that allows more is kept too. -/
theorem Conforms.mono {B : Protocol C R α τ} {t : τ} {p : Prog C R α} (h : Conforms A t p)
    (hallows : ∀ t c, A.allows t c → B.allows t c) (hnext : ∀ t c r, A.next t c r = B.next t c r)
    (hdone : ∀ t a, A.done t a → B.done t a) : Conforms B t p := by
  induction p generalizing t with
  | ret a => exact hdone t a h
  | call c k ih => exact ⟨hallows t c h.1, fun r => ih r (hnext t c r ▸ h.2 r)⟩
  | drain c more seen k ih =>
    refine ⟨fun i => ⟨hallows t _ (h.1 i).1, fun r => ?_⟩, fun rows r => ih rows r (h.2 rows r)⟩
    rw [← hnext]
    exact (h.1 i).2 r

/-- Sequencing: the continuation takes over in the phase its value is returned in. -/
theorem Conforms.bind {B : Protocol C R β τ} {f : α → Prog C R β} {t : τ} {p : Prog C R α}
    (h : Conforms ⟨B.allows, B.next, fun t a => Conforms B t (f a)⟩ t p) :
    Conforms B t (p >>= f) := by
  induction p generalizing t with
  | ret a => exact h
  | call c k ih => exact ⟨h.1, fun r => ih r (h.2 r)⟩
  | drain c more seen k ih => exact ⟨h.1, fun rows r => ih rows r (h.2 rows r)⟩

/-- Only the returned value changes under a map. -/
theorem Conforms.map {B : Protocol C R β τ} {g : α → β} {t : τ} {p : Prog C R α}
    (h : Conforms ⟨B.allows, B.next, fun t a => B.done t (g a)⟩ t p) : Conforms B t (g <$> p) := by
  rw [map_eq_bind]
  exact Conforms.bind h

/-- What the allowed calls preserve, a program that keeps to the protocol does. -/
theorem Conforms.preserves {σ : Type} {S : σ → C → σ → R → Prop} {I : σ → Prop} {t : τ}
    {p : Prog C R α} {s s' : σ} {a : α} (h : Conforms A t p)
    (hcalls : ∀ t s c s' r, A.allows t c → S s c s' r → I s → I s')
    (hrun : Runs S s p s' a) (hs : I s) : I s' := by
  -- over the run, with the phase that the calls lead to
  induction hrun generalizing t with
  | ret s a => exact hs
  | step hissue hcall _ ih =>
    exact ih (h.resume hissue _) (hcalls _ _ _ _ _ (h.allowed hissue) hcall hs)

/-- The protocol of the programs that make only calls of one kind. -/
def onlyProtocol (P : C → Prop) : Protocol C R α Unit where
  allows _ c := P c
  next _ _ _ := ()
  done _ _ := True

/-- Whatever replies it gets, the program makes no other calls. -/
abbrev MakesOnly (P : C → Prop) (p : Prog C R α) : Prop := Conforms (onlyProtocol P) () p

theorem MakesOnly.bind {P : C → Prop} {p : Prog C R α} {f : α → Prog C R β}
    (hp : MakesOnly P p) (hf : ∀ a, MakesOnly P (f a)) : MakesOnly P (p >>= f) :=
  Conforms.bind (Conforms.mono hp (fun _ _ h => h) (fun _ _ _ => rfl) fun _ a _ => hf a)

theorem MakesOnly.mono {P Q : C → Prop} {p : Prog C R α} (hp : MakesOnly P p)
    (h : ∀ c, P c → Q c) : MakesOnly Q p :=
  Conforms.mono hp (fun _ c hc => h c hc) (fun _ _ _ => rfl) fun _ _ _ => trivial

end Conformance

/-! ## What a program returns -/

section Returning

/-- Given replies of the kind `D`, the program returns a value with `Q`, and every
    loop ends as soon as a reply is of the kind `stop`. -/
def Returns (D : C → R → Prop) (stop : R → Prop) (Q : α → Prop) : Prog C R α → Prop
  | ret a => Q a
  | call c k => ∀ r, D c r → Returns D stop Q (k r)
  | drain _ more _ k => (∀ r, stop r → more r = false) ∧ ∀ rows r, Returns D stop Q (k rows r)

variable {D : C → R → Prop} {stop : R → Prop} {P : β → Prop} {Q : α → Prop}

@[simp] theorem returns_ret {a : α} : Returns D stop Q (ret a) ↔ Q a := Iff.rfl

@[simp] theorem returns_call {c : C} {k : R → Prog C R α} :
    Returns D stop Q (call c k) ↔ ∀ r, D c r → Returns D stop Q (k r) := Iff.rfl

@[simp] theorem returns_drain {c : Nat → C} {more : R → Bool} {seen : List R}
    {k : List R → R → Prog C R α} : Returns D stop Q (drain c more seen k) ↔
      (∀ r, stop r → more r = false) ∧ ∀ rows r, Returns D stop Q (k rows r) := Iff.rfl

@[simp] theorem returns_ite {c : Prop} [Decidable c] {p q : Prog C R α} :
    Returns D stop Q (if c then p else q) ↔
      (c → Returns D stop Q p) ∧ (¬ c → Returns D stop Q q) := by
  by_cases hc : c <;> simp [hc]

/-- Sequencing. -/
theorem Returns.bind {p : Prog C R β} {f : β → Prog C R α} (hp : Returns D stop P p)
    (hf : ∀ b, P b → Returns D stop Q (f b)) : Returns D stop Q (p >>= f) := by
  induction p with
  | ret b => exact hf b hp
  | call c k ih => exact fun r hr => ih r (hp r hr)
  | drain c more seen k ih => exact ⟨hp.1, fun rows r => ih rows r (hp.2 rows r)⟩

theorem Returns.mono {Q' : α → Prop} {p : Prog C R α} (hp : Returns D stop Q p)
    (h : ∀ a, Q a → Q' a) : Returns D stop Q' p := by
  induction p with
  | ret a => exact h a hp
  | call c k ih => exact fun r hr => ih r (hp r hr)
  | drain c more seen k ih => exact ⟨hp.1, fun rows r => ih rows r (hp.2 rows r)⟩

theorem Returns.resume {p : Prog C R α} {c : C} {r : R} (hp : Returns D stop Q p)
    (hissue : p.issue = some c) (hr : D c r) : Returns D stop Q (p.resume r) := by
  cases p with
  | ret a => cases hissue
  | call c' k => cases hissue; exact hp r hr
  | drain c' more seen k =>
    simp only [Prog.resume]
    split
    · exact hp
    · exact hp.2 seen r

/-- The program returns `a` when it gets the replies `rs`, all of them of the kind
    `D`. -/
def Answered (D : C → R → Prop) (p : Prog C R α) (rs : List R) (a : α) : Prop :=
  (∀ x ∈ p.trace rs, D x.1 x.2) ∧ p.after rs = ret a

theorem answered_ret {rs : List R} {a b : α} : Answered D (ret a) rs b ↔ b = a := by
  constructor
  · rintro ⟨-, h⟩
    rw [after_ret] at h
    exact (ret.inj h).symm
  · rintro rfl
    exact ⟨by simp, after_ret _ _⟩

theorem answered_call {c : C} {k : R → Prog C R α} {rs : List R} {a : α} :
    Answered D (call c k) rs a ↔ ∃ r rs', rs = r :: rs' ∧ D c r ∧ Answered D (k r) rs' a := by
  constructor
  · rintro ⟨hrs, h⟩
    cases rs with
    | nil => cases h
    | cons r rs =>
      rw [trace_call, List.forall_mem_cons] at hrs
      exact ⟨r, rs, rfl, hrs.1, hrs.2, h⟩
  · rintro ⟨r, rs, rfl, hr, hrs, h⟩
    exact ⟨by rw [trace_call, List.forall_mem_cons]; exact ⟨hr, hrs⟩, h⟩

/-- A loop that was left, with the replies that kept it going. -/
theorem Answered.of_drain {c : Nat → C} {more : R → Bool} {seen : List R}
    {k : List R → R → Prog C R α} {rs : List R} {a : α} (h : Answered D (drain c more seen k) rs a) :
    ∃ r rs', Answered D (k (seen ++ rs.takeWhile more) r) rs' a := by
  induction rs generalizing seen with
  | nil => cases h.2
  | cons r rs ih =>
    obtain ⟨hrs, hret⟩ := h
    rw [trace_cons rfl, List.forall_mem_cons] at hrs
    rw [after_cons] at hret
    -- the loop goes on with one more reply seen, or ends here
    by_cases hmore : more r = true
    · simp only [Prog.resume, if_pos hmore] at hrs hret
      rw [List.takeWhile_cons_of_pos hmore, List.append_cons]
      exact ih ⟨hrs.2, hret⟩
    · simp only [Prog.resume, if_neg hmore] at hrs hret
      rw [List.takeWhile_cons_of_neg hmore, List.append_nil]
      exact ⟨r, rs, hrs.2, hret⟩

theorem Answered.mono {D' : C → R → Prop} {p : Prog C R α} {rs : List R} {a : α}
    (h : Answered D p rs a) (hD : ∀ c r, D c r → D' c r) : Answered D' p rs a :=
  ⟨fun x hx => hD _ _ (h.1 x hx), h.2⟩

/-- Every program returns something, if nothing has to end its loops. -/
theorem returns_any (p : Prog C R α) : Returns D (fun _ => False) (fun _ => True) p := by
  induction p with
  | ret a => trivial
  | call c k ih => exact fun r _ => ih r
  | drain c more seen k ih => exact ⟨fun _ h => h.elim, fun rows r => ih rows r⟩

/-- Against given replies. -/
theorem Returns.answered {p : Prog C R α} (hp : Returns D stop Q p) {rs : List R} {a : α}
    (h : Answered D p rs a) : Q a := by
  obtain ⟨hrs, hret⟩ := h
  induction rs generalizing p with
  | nil =>
    rw [after_nil] at hret
    subst hret
    exact hp
  | cons r rs ih =>
    cases hissue : p.issue with
    | none =>
      obtain ⟨b, rfl⟩ := eq_ret_of_issue hissue
      rw [after_ret] at hret
      cases hret
      exact hp
    | some c =>
      rw [trace_cons hissue, List.forall_mem_cons] at hrs
      exact ih (hp.resume hissue hrs.1) hrs.2 hret

/-- On its own, over a state. -/
theorem Returns.runs {σ : Type} {S : σ → C → σ → R → Prop}
    (hS : ∀ s c s' r, S s c s' r → D c r) {s s' : σ} {p : Prog C R α} {a : α}
    (hp : Returns D stop Q p) (h : Runs S s p s' a) : Q a := by
  induction h with
  | ret s a => exact hp
  | step hissue hcall _ ih => exact ih (hp.resume hissue (hS _ _ _ _ hcall))

/-- The first replies of a sequence. -/
def firstReplies (f : Nat → R) (n : Nat) : List R := (List.range n).map f

theorem firstReplies_succ (f : Nat → R) (n : Nat) :
    firstReplies f (n + 1) = f 0 :: firstReplies (fun i => f (i + 1)) n := by
  simp [firstReplies, List.range_succ_eq_map]

/-- A loop is left at the first reply that stops it. -/
theorem after_drain {f : Nat → R} {m : Nat} {c : Nat → C} {more : R → Bool} {seen : List R}
    {k : List R → R → Prog C R α} (hstop : ∀ r, stop r → more r = false) (hm : stop (f m)) :
    ∃ n rows r, (drain c more seen k).after (firstReplies f n) = k rows r := by
  -- over the position of a reply that stops it; another one may do so before
  induction m generalizing f seen with
  | zero =>
    refine ⟨1, seen, f 0, ?_⟩
    rw [firstReplies_succ, after_cons, Prog.resume, if_neg (by simp [hstop _ hm])]
    rfl
  | succ m ih =>
    by_cases hmore : more (f 0) = true
    · obtain ⟨n, rows, r, hafter⟩ := @ih (fun i => f (i + 1)) (seen ++ [f 0]) hm
      refine ⟨n + 1, rows, r, ?_⟩
      rw [firstReplies_succ, after_cons, Prog.resume, if_pos hmore]
      exact hafter
    · refine ⟨1, seen, f 0, ?_⟩
      rw [firstReplies_succ, after_cons, Prog.resume, if_neg hmore]
      rfl

theorem firstReplies_add (f : Nat → R) (m n : Nat) :
    firstReplies f (m + n) = firstReplies f m ++ firstReplies (fun i => f (m + i)) n := by
  simp [firstReplies, List.range_add, Function.comp_def]

theorem trace_append (p : Prog C R α) (rs rs' : List R) :
    p.trace (rs ++ rs') = p.trace rs ++ (p.after rs).trace rs' := by
  induction rs generalizing p with
  | nil => simp
  | cons r rs ih =>
    cases hissue : p.issue with
    | none =>
      obtain ⟨a, rfl⟩ := eq_ret_of_issue hissue
      rw [after_ret]
      simp
    | some c => rw [List.cons_append, trace_cons hissue, trace_cons hissue, ih]; rfl

/-- What follows the first `m` replies of a sequence. -/
theorem Answered.append {p : Prog C R α} {f : Nat → R} {m n : Nat} {a : α}
    (hf : ∀ x ∈ p.trace (firstReplies f m), D x.1 x.2)
    (h : Answered D (p.after (firstReplies f m)) (firstReplies (fun i => f (m + i)) n) a) :
    Answered D p (firstReplies f (m + n)) a := by
  rw [Answered, firstReplies_add, trace_append, after_append]
  refine ⟨fun x hx => ?_, h.2⟩
  rcases List.mem_append.mp hx with hx | hx
  · exact hf x hx
  · exact h.1 x hx

/-- The program comes to an end, if the replies that stop its loops keep coming. -/
def Halts (D : C → R → Prop) (stop : R → Prop) (p : Prog C R α) : Prop :=
  ∀ f : Nat → R, (∀ n, ∃ m, n ≤ m ∧ stop (f m)) →
    (∀ n, ∀ x ∈ p.trace (firstReplies f n), D x.1 x.2) → ∃ n a, Answered D p (firstReplies f n) a

/-- It is enough that what is left after some replies does. -/
theorem Halts.of_after {p : Prog C R α}
    (h : ∀ f : Nat → R, (∀ n, ∃ m, n ≤ m ∧ stop (f m)) →
      (∀ n, ∀ x ∈ p.trace (firstReplies f n), D x.1 x.2) →
      ∃ m, Halts D stop (p.after (firstReplies f m))) : Halts D stop p := by
  intro f hstop hf
  obtain ⟨m, hm⟩ := h f hstop hf
  -- the replies that stop a loop keep coming behind the first ones too
  have hlater : ∀ n, ∃ k, n ≤ k ∧ stop (f (m + k)) := by
    intro n
    obtain ⟨k, hk, hfk⟩ := hstop (m + n)
    exact ⟨k - m, by omega, by rwa [Nat.add_sub_of_le (by omega)]⟩
  obtain ⟨n, a, hn⟩ := hm (fun i => f (m + i)) hlater fun n x hx => hf (m + n) x (by
    rw [firstReplies_add, trace_append]
    exact List.mem_append_right _ hx)
  exact ⟨m + n, a, Answered.append (hf m) hn⟩

theorem Returns.halts {p : Prog C R α} (hp : Returns D stop Q p) : Halts D stop p := by
  -- over the program: one reply for a call, and as many as it takes for a loop
  induction p with
  | ret a => exact fun f _ _ => ⟨0, a, answered_ret.mpr rfl⟩
  | call c k ih =>
    refine Halts.of_after fun f _ hf => ⟨1, ?_⟩
    have hfirst : D c (f 0) := hf 1 (c, f 0) (by simp [firstReplies])
    exact ih (f 0) (hp (f 0) hfirst)
  | drain c more seen k ih =>
    refine Halts.of_after fun f hstop _ => ?_
    obtain ⟨m, -, hm⟩ := hstop 0
    obtain ⟨n, rows, r, hafter⟩ := after_drain hp.1 hm
    exact ⟨n, hafter ▸ ih rows r (hp.2 rows r)⟩

end Returning

/-! ## Interleaved with others -/

/-- One executed call: who made it, what was asked and answered, and the shared
    state before and after. -/
structure Entry (ι C R σ : Type) where
  tid : ι
  call : C
  reply : R
  pre : σ
  post : σ
  deriving DecidableEq

section Concurrent

variable {ι σ τ : Type} [DecidableEq ι]

/-- The calls of one party and their replies, in order. -/
def ownTrace (log : List (Entry ι C R σ)) (i : ι) : List (C × R) :=
  (log.filter (·.tid = i)).map fun e => (e.call, e.reply)

/-- What is left of party `i`'s program. -/
def residual (ops : ι → Prog C R α) (log : List (Entry ι C R σ)) (i : ι) : Prog C R α :=
  (ops i).after ((ownTrace log i).map Prod.snd)

/-- Runs in which the parties' calls are interleaved in any order, each call
    answered in the state the previous one left. -/
inductive Interleaved (S : σ → C → σ → R → Prop) (ops : ι → Prog C R α) (s₀ : σ) :
    List (Entry ι C R σ) → σ → Prop
  | start : Interleaved S ops s₀ [] s₀
  | step {log : List (Entry ι C R σ)} {s s' : σ} {i : ι} {c : C} {r : R}
      (hprev : Interleaved S ops s₀ log s) (hissue : (residual ops log i).issue = some c)
      (hcall : S s c s' r) : Interleaved S ops s₀ (log ++ [⟨i, c, r, s, s'⟩]) s'

/-- Every call of the log, with the log before it, is as `P` says. -/
def EachStep (P : List (Entry ι C R σ) → Entry ι C R σ → Prop) (log : List (Entry ι C R σ)) :
    Prop :=
  ∀ before e behind, log = before ++ e :: behind → P before e

section EachStep

omit [DecidableEq ι]

variable {P : List (Entry ι C R σ) → Entry ι C R σ → Prop} {log : List (Entry ι C R σ)}
  {e : Entry ι C R σ}

theorem EachStep.prev (h : EachStep P (log ++ [e])) : EachStep P log := by
  intro before e' behind hlog
  exact h before e' (behind ++ [e]) (by rw [hlog]; simp)

theorem EachStep.last (h : EachStep P (log ++ [e])) : P log e := h log e [] rfl

theorem eachStep_of_get (h : ∀ k : Fin log.length, P (log.take k) (log.get k)) :
    EachStep P log := by
  rintro before e behind rfl
  have hk := h ⟨before.length, by simp⟩
  simpa using hk

end EachStep

theorem ownTrace_snoc_self (log : List (Entry ι C R σ)) (e : Entry ι C R σ) :
    ownTrace (log ++ [e]) e.tid = ownTrace log e.tid ++ [(e.call, e.reply)] := by
  simp [ownTrace]

theorem ownTrace_snoc_other (log : List (Entry ι C R σ)) {e : Entry ι C R σ} {i : ι}
    (h : e.tid ≠ i) : ownTrace (log ++ [e]) i = ownTrace log i := by
  simp [ownTrace, h]

/-- What the parties `i w` each make of their own calls: one more call changes it for its party
    alone. -/
theorem foldl_ownTrace_snoc {W : Type} [DecidableEq W] {i : W → ι} (hi : Function.Injective i)
    (f : β → C × R → β) (b : β) (log : List (Entry ι C R σ)) (w : W) (c : C) (r : R)
    (pre post : σ) :
    (fun v => (ownTrace (log ++ [⟨i w, c, r, pre, post⟩]) (i v)).foldl f b) =
      Function.update (fun v => (ownTrace log (i v)).foldl f b) w
        (f ((ownTrace log (i w)).foldl f b) (c, r)) := by
  funext v
  by_cases hv : v = w
  · subst hv
    rw [Function.update_self, ownTrace_snoc_self log ⟨i v, c, r, pre, post⟩, List.foldl_append]
    rfl
  · have hother : (⟨i w, c, r, pre, post⟩ : Entry ι C R σ).tid ≠ i v := fun h => hv (hi h).symm
    rw [Function.update_of_ne hv, ownTrace_snoc_other log hother]

theorem residual_snoc_self (ops : ι → Prog C R α) (log : List (Entry ι C R σ))
    (e : Entry ι C R σ) :
    residual ops (log ++ [e]) e.tid = (residual ops log e.tid).resume e.reply := by
  simp [residual, ownTrace_snoc_self, after_append]

theorem residual_snoc_other (ops : ι → Prog C R α) (log : List (Entry ι C R σ))
    {e : Entry ι C R σ} {i : ι} (h : e.tid ≠ i) :
    residual ops (log ++ [e]) i = residual ops log i := by
  simp [residual, ownTrace_snoc_other log h]

variable {S : σ → C → σ → R → Prop} {ops : ι → Prog C R α} {s₀ s : σ}
  {log : List (Entry ι C R σ)}

/-- What a run was before one of its calls. -/
theorem Interleaved.before (hrun : Interleaved S ops s₀ log s) {before behind : List (Entry ι C R σ)}
    {e : Entry ι C R σ} (hlog : log = before ++ e :: behind) :
    Interleaved S ops s₀ before e.pre ∧ (residual ops before e.tid).issue = some e.call ∧
      S e.pre e.call e.post e.reply := by
  -- over the run, from its end: the call is the last one, or in the run before it
  induction hrun generalizing behind with
  | start => simp at hlog
  | @step log s s' i c r hprev hissue hcall ih =>
    rcases List.eq_nil_or_concat behind with rfl | ⟨behind', e', rfl⟩
    · obtain ⟨rfl, rfl⟩ := List.append_inj' hlog rfl |>.imp id List.singleton_inj.mp
      exact ⟨hprev, hissue, hcall⟩
    · rw [List.concat_eq_append, ← List.cons_append, ← List.append_assoc] at hlog
      exact ih (List.append_inj' hlog rfl).1

/-- Interference does not break a party's protocol: what is left of its program
    conforms from the phase its own calls led to. -/
theorem Conforms.interleaved {A : Protocol C R α τ} {t : τ} {i : ι} (h : Conforms A t (ops i))
    (hrun : Interleaved S ops s₀ log s) :
    Conforms A (A.along t (ownTrace log i)) (residual ops log i) := by
  induction hrun with
  | start => exact h
  | @step log s s' j c r _ hissue _ ih =>
    -- a call of another party changes neither the trace nor what is left
    by_cases hij : j = i
    · subst hij
      have hnext := ih.resume hissue r
      rw [residual_snoc_self ops log ⟨j, c, r, s, s'⟩,
        ownTrace_snoc_self log ⟨j, c, r, s, s'⟩, Protocol.along_snoc]
      exact hnext
    · rw [residual_snoc_other ops log (e := ⟨j, c, r, s, s'⟩) hij,
        ownTrace_snoc_other log (e := ⟨j, c, r, s, s'⟩) hij]
      exact ih

/-- What a schedule does when every call is answered by `f`: at each turn the
    named party makes its next call. `none` if it has none or the call blocks. -/
def play (f : σ → C → Option (σ × R)) (ops : ι → Prog C R α) :
    List (Entry ι C R σ) → σ → List ι → Option (List (Entry ι C R σ) × σ)
  | log, s, [] => some (log, s)
  | log, s, i :: is =>
    match (residual ops log i).issue with
    | none => none
    | some c =>
      match f s c with
      | none => none
      | some (s', r) => play f ops (log ++ [⟨i, c, r, s, s'⟩]) s' is

/-- A schedule that can be played is an interleaved run. -/
theorem interleaved_of_play {f : σ → C → Option (σ × R)}
    (hf : ∀ s c s' r, f s c = some (s', r) → S s c s' r) {log' : List (Entry ι C R σ)} {s' : σ}
    (hlog : Interleaved S ops s₀ log s) {schedule : List ι}
    (h : play f ops log s schedule = some (log', s')) : Interleaved S ops s₀ log' s' := by
  induction schedule generalizing log s with
  | nil =>
    cases h
    exact hlog
  | cons i is ih =>
    unfold play at h
    split at h
    · cases h
    · rename_i c hissue
      split at h
      · cases h
      · rename_i t r hcall
        exact ih (.step hlog hissue (hf _ _ _ _ hcall)) h

/-- The same with the replies given: `f` says what state a reply leads to, if it is
    possible. -/
def playReplies (f : σ → C → R → Option σ) (ops : ι → Prog C R α) :
    List (Entry ι C R σ) → σ → List (ι × R) → Option (List (Entry ι C R σ) × σ)
  | log, s, [] => some (log, s)
  | log, s, (i, r) :: turns =>
    match (residual ops log i).issue with
    | none => none
    | some c =>
      match f s c r with
      | none => none
      | some s' => playReplies f ops (log ++ [⟨i, c, r, s, s'⟩]) s' turns

theorem interleaved_of_playReplies {f : σ → C → R → Option σ}
    (hf : ∀ s c s' r, f s c r = some s' → S s c s' r) {log' : List (Entry ι C R σ)} {s' : σ}
    (hlog : Interleaved S ops s₀ log s) {turns : List (ι × R)}
    (h : playReplies f ops log s turns = some (log', s')) : Interleaved S ops s₀ log' s' := by
  induction turns generalizing log s with
  | nil =>
    cases h
    exact hlog
  | cons turn turns ih =>
    unfold playReplies at h
    split at h
    · cases h
    · rename_i c hissue
      split at h
      · cases h
      · rename_i t hcall
        exact ih (.step hlog hissue (hf _ _ _ _ hcall)) h

end Concurrent

end Prog
