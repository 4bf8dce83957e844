import Mathlib

/-! # Journals of a store with one transaction

    A small library about a store that is changed step by step, with at most one
    transaction open at a time. The store itself forgets how it came about; the
    journal keeps the changes that are in it, split into those a rollback would
    undo and those it would not.

    * `Chain`: a list of changes leads from one value of the store to another.
    * `Chain.lost`: what held after a change and no longer holds at the end was
      ended by a later change of the chain.
    * `Journal.Explains`: the journal accounts for the store and for the value a
      rollback would restore. Kept by `write`, `begin`, `commit` and `rollback`.
-/

namespace Journal

variable {ε δ : Type}

/-! ## Chains of changes -/

/-- The changes lead from `d` to `d'`; `pre` and `post` are the values of the
    store around a change. -/
def Chain (pre post : ε → δ) : δ → List ε → δ → Prop
  | d, [], d' => d' = d
  | d, e :: l, d' => pre e = d ∧ Chain pre post (post e) l d'

section Chain

variable {pre post : ε → δ} {d d' d'' : δ}

theorem chain_append {l l' : List ε} :
    Chain pre post d (l ++ l') d'' ↔
      ∃ d', Chain pre post d l d' ∧ Chain pre post d' l' d'' := by
  induction l generalizing d with
  | nil => simp [Chain]
  | cons e l ih =>
    simp only [List.cons_append, Chain, ih]
    constructor
    · rintro ⟨hpre, d', hl, hl'⟩
      exact ⟨d', ⟨hpre, hl⟩, hl'⟩
    · rintro ⟨d', ⟨hpre, hl⟩, hl'⟩
      exact ⟨hpre, d', hl, hl'⟩

theorem Chain.snoc {l : List ε} {e : ε} (h : Chain pre post d l (pre e)) :
    Chain pre post d (l ++ [e]) (post e) :=
  chain_append.mpr ⟨pre e, h, rfl, rfl⟩

/-- A property that holds at the start of a chain and not at its end was ended by
    one of its changes. -/
theorem Chain.ended {l : List ε} (h : Chain pre post d l d') (P : δ → Prop) (hd : P d)
    (hd' : ¬ P d') : ∃ e ∈ l, P (pre e) ∧ ¬ P (post e) := by
  induction l generalizing d with
  | nil =>
    obtain rfl : d' = d := h
    exact absurd hd hd'
  | cons e l ih =>
    obtain ⟨hpre, hl⟩ := h
    by_cases hpost : P (post e)
    · obtain ⟨e', he', hend⟩ := ih hl hpost
      exact ⟨e', List.mem_cons_of_mem _ he', hend⟩
    · exact ⟨e, List.mem_cons_self .., hpre ▸ hd, hpost⟩

/-- What a change brought about holds at the end of the chain, or a later change
    ended it. -/
theorem Chain.lost {l : List ε} (h : Chain pre post d l d') (P : δ → Prop) {e : ε} (he : e ∈ l)
    (hP : P (post e)) : P d' ∨ ∃ e', [e, e'].Sublist l ∧ P (pre e') ∧ ¬ P (post e') := by
  by_cases hd' : P d'
  · exact Or.inl hd'
  · obtain ⟨a, b, rfl⟩ := List.append_of_mem he
    obtain ⟨_, -, -, hrest⟩ := chain_append.mp h
    obtain ⟨e', he', hend⟩ := hrest.ended P hP hd'
    refine Or.inr ⟨e', ?_, hend⟩
    exact List.Sublist.trans (List.Sublist.cons_cons e (List.singleton_sublist.mpr he'))
      (List.sublist_append_right a (e :: b))

end Chain

end Journal

/-! ## The journal -/

/-- The changes in the store: those that stay, and those of the open
    transaction. -/
structure Journal (ε : Type) where
  committed : List ε := []
  uncommitted : List ε := []

namespace Journal

variable {ε δ : Type}

/-- All changes in the store, in order. -/
def live (j : Journal ε) : List ε := j.committed ++ j.uncommitted

/-- A change; it stays at once unless a transaction is open. -/
def write (inTransaction : Bool) (e : ε) (j : Journal ε) : Journal ε :=
  if inTransaction then { j with uncommitted := j.uncommitted ++ [e] }
  else { j with committed := j.committed ++ [e] }

def commit (j : Journal ε) : Journal ε := { committed := j.live }

def rollback (j : Journal ε) : Journal ε := { committed := j.committed }

/-- The journal explains a store that started as `d₀`: its changes lead to the
    current value `d`, and those that stay to the value `saved` a rollback would
    restore. -/
structure Explains (pre post : ε → δ) (d₀ : δ) (j : Journal ε) (d : δ) (saved : Option δ) :
    Prop where
  live : Chain pre post d₀ j.live d
  autocommit : saved = none → j.uncommitted = []
  saved : ∀ d', saved = some d' → Chain pre post d₀ j.committed d'

namespace Explains

variable {pre post : ε → δ} {d₀ d : δ} {j : Journal ε} {saved : Option δ}

theorem start (d₀ : δ) : Explains pre post d₀ ({} : Journal ε) d₀ none where
  live := rfl
  autocommit _ := rfl
  saved := by simp

theorem write (h : Explains pre post d₀ j d saved) {e : ε} (hpre : pre e = d) :
    Explains pre post d₀ (j.write saved.isSome e) (post e) saved := by
  subst hpre
  cases saved with
  | none =>
    have huncommitted := h.autocommit rfl
    have hlive := h.live
    rw [Journal.live, huncommitted, List.append_nil] at hlive
    refine ⟨?_, fun _ => huncommitted, by simp⟩
    simpa [Journal.live, Journal.write, huncommitted] using hlive.snoc
  | some d' =>
    refine ⟨?_, by simp, h.saved⟩
    have hsnoc := h.live.snoc
    simpa [Journal.live, Journal.write, List.append_assoc] using hsnoc

theorem begin (h : Explains pre post d₀ j d none) : Explains pre post d₀ j d (some d) where
  live := h.live
  autocommit := by simp
  saved d' hd' := by
    cases hd'
    have hlive := h.live
    rwa [Journal.live, h.autocommit rfl, List.append_nil] at hlive

theorem commit (h : Explains pre post d₀ j d saved) : Explains pre post d₀ j.commit d none where
  live := by simpa [Journal.live, Journal.commit] using h.live
  autocommit _ := rfl
  saved := by simp

theorem rollback {d' : δ} (h : Explains pre post d₀ j d (some d')) :
    Explains pre post d₀ j.rollback d' none where
  live := by simpa [Journal.live, Journal.rollback] using h.saved d' rfl
  autocommit _ := rfl
  saved := by simp

end Explains

/-- A change comes behind all others; without a transaction nothing is
    uncommitted. -/
theorem live_write {j : Journal ε} {b : Bool} (h : b = false → j.uncommitted = []) (e : ε) :
    (j.write b e).live = j.live ++ [e] := by
  cases b with
  | true => simp [write, live]
  | false => simp [write, live, h rfl]

@[simp] theorem live_commit (j : Journal ε) : j.commit.live = j.live := by
  simp [commit, live]

@[simp] theorem live_rollback (j : Journal ε) : j.rollback.live = j.committed := by
  simp [rollback, live]

end Journal
