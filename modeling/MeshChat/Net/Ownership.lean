import MeshChat.Net.Tables

/-! # Who may touch a connection

    The workers' holdings and the kernel's tables, put together.

    * `Owned`: what is held is open under its number, by one worker only, and epoll keeps
      its events back.
    * `owned_of_run`: that is so in every state of a run in which the reject frames of
      `handle_req` are written and the files of uploads created.
    * `exclusive_ownership`: in such a run every call is made on what its descriptor was
      handed out for, and by the only worker that holds it.
-/

namespace MeshChat.Net

open Prog

/-! ## Workers and kernel together -/

section Owned

variable {W : Type} [DecidableEq W] {H : W → Holding} {s s' : Kernel} {w : W} {d : Desc}

/-- What is held is open under its number, by one worker only, and epoll keeps its
    events back. -/
structure Owned (H : W → Holding) (s : Kernel) : Prop where
  sane : s.Sane
  unbroken : ∀ w, (H w).broken = false
  nodup : ∀ w, (H w).held.Nodup
  opened : ∀ w, ∀ d ∈ (H w).held, s.fds d.fd = some d.handle
  apart : ∀ w w', ∀ d ∈ (H w).held, ∀ d' ∈ (H w').held, d.handle = d'.handle → w = w'
  kept : ∀ w, ∀ d ∈ (H w).held, ∀ k, d.handle = .conn k →
    s.interest k ≠ .armed ∧ s.interest k ≠ .queued

omit [DecidableEq W] in
theorem owned_init : Owned (fun _ : W => {}) {} where
  sane := Kernel.sane_init
  unbroken _ := rfl
  nodup _ := List.nodup_nil
  opened _ _ hd := by cases hd
  apart _ _ _ hd := by cases hd
  kept _ _ hd := by cases hd

namespace Owned

omit [DecidableEq W] in
/-- A handle is held once. -/
theorem eq_of_handle (h : Owned H s) {w' : W} {d' : Desc} (hd : d ∈ (H w).held)
    (hd' : d' ∈ (H w').held) (hsame : d.handle = d'.handle) : w = w' ∧ d = d' := by
  have hfd : d.fd = d'.fd := h.sane.single d.fd d'.fd d.handle (h.opened w d hd)
    (hsame ▸ h.opened w' d' hd')
  refine ⟨h.apart w w' d hd d' hd' hsame, ?_⟩
  cases d
  cases d'
  simp_all

omit [DecidableEq W] in
theorem eq_of_fd (h : Owned H s) {w' : W} {d' : Desc} (hd : d ∈ (H w).held)
    (hd' : d' ∈ (H w').held) (hsame : d.fd = d'.fd) : w = w' ∧ d = d' := by
  refine h.eq_of_handle hd hd' (Option.some.inj ?_)
  rw [← h.opened w d hd, ← h.opened w' d' hd', hsame]

omit [DecidableEq W] in
/-- Nobody gets or gives away anything. -/
theorem keep (h : Owned H s) (hs' : s'.Sane) (hfds : s'.fds = s.fds)
    (hinterest : ∀ k, s.interest k ≠ .armed ∧ s.interest k ≠ .queued →
      s'.interest k ≠ .armed ∧ s'.interest k ≠ .queued) : Owned H s' where
  sane := hs'
  unbroken := h.unbroken
  nodup := h.nodup
  opened w d hd := by
    rw [hfds]
    exact h.opened w d hd
  apart := h.apart
  kept w d hd k hk := hinterest k (h.kept w d hd k hk)

/-- A worker gives a descriptor away. -/
theorem giveAway (h : Owned H s) (hd : d ∈ (H w).held) (hs' : s'.Sane)
    (hfds : ∀ fd, fd ≠ d.fd → s'.fds fd = s.fds fd)
    (hinterest : ∀ k, d.handle ≠ .conn k → s'.interest k = s.interest k) :
    Owned (Function.update H w { H w with held := (H w).held.erase d }) s' := by
  -- what is left was held before, and is something else
  have hleft : ∀ w', ∀ d' ∈ (Function.update H w
      { H w with held := (H w).held.erase d } w').held, d' ∈ (H w').held ∧ (w', d') ≠ (w, d) := by
    intro w' d' hd'
    by_cases hw : w' = w
    · subst hw
      rw [Function.update_self] at hd'
      refine ⟨List.mem_of_mem_erase hd', fun heq => ?_⟩
      cases heq
      exact (h.nodup w').not_mem_erase hd'
    · rw [Function.update_of_ne hw] at hd'
      exact ⟨hd', fun heq => hw (Prod.ext_iff.mp heq).1⟩
  refine ⟨hs', ?_, ?_, ?_, ?_, ?_⟩
  · intro w'
    by_cases hw : w' = w
    · subst hw
      rw [Function.update_self]
      exact h.unbroken w'
    · rw [Function.update_of_ne hw]
      exact h.unbroken w'
  · intro w'
    by_cases hw : w' = w
    · subst hw
      rw [Function.update_self]
      exact (h.nodup w').erase _
    · rw [Function.update_of_ne hw]
      exact h.nodup w'
  · intro w' d' hd'
    obtain ⟨hmem, hne⟩ := hleft w' d' hd'
    have hfd : d'.fd ≠ d.fd := fun hsame => hne (by
      obtain ⟨rfl, rfl⟩ := h.eq_of_fd hmem hd hsame
      rfl)
    rw [hfds d'.fd hfd]
    exact h.opened w' d' hmem
  · intro w₁ w₂ d₁ hd₁ d₂ hd₂ hsame
    exact h.apart w₁ w₂ d₁ (hleft w₁ d₁ hd₁).1 d₂ (hleft w₂ d₂ hd₂).1 hsame
  · intro w' d' hd' k hk
    obtain ⟨hmem, hne⟩ := hleft w' d' hd'
    have hhandle : d.handle ≠ .conn k := fun hsame => hne (by
      obtain ⟨rfl, rfl⟩ := h.eq_of_handle hmem hd (hk.trans hsame.symm)
      rfl)
    rw [hinterest k hhandle]
    exact h.kept w' d' hmem k hk

/-- A worker gets descriptors that nobody holds. -/
theorem take (h : Owned H s) {new : List Desc} (hs' : s'.Sane)
    (hfds : ∀ fd hd, s.fds fd = some hd → s'.fds fd = some hd)
    (hinterest : ∀ k, s.interest k ≠ .armed ∧ s.interest k ≠ .queued →
      s'.interest k ≠ .armed ∧ s'.interest k ≠ .queued)
    (hopened : ∀ d ∈ new, s'.fds d.fd = some d.handle)
    (hfree : ∀ d ∈ new, ∀ w', ∀ d' ∈ (H w').held, d.handle ≠ d'.handle)
    (hkept : ∀ d ∈ new, ∀ k, d.handle = .conn k →
      s'.interest k ≠ .armed ∧ s'.interest k ≠ .queued)
    (hnodup : new.Nodup) :
    Owned (Function.update H w { H w with held := new ++ (H w).held }) s' := by
  -- what is held is new, or was held before
  have hheld : ∀ w', ∀ d' ∈ (Function.update H w
      { H w with held := new ++ (H w).held } w').held, (w' = w ∧ d' ∈ new) ∨ d' ∈ (H w').held := by
    intro w' d' hd'
    by_cases hw : w' = w
    · subst hw
      rw [Function.update_self] at hd'
      rcases List.mem_append.mp hd' with hd' | hd'
      · exact Or.inl ⟨rfl, hd'⟩
      · exact Or.inr hd'
    · rw [Function.update_of_ne hw] at hd'
      exact Or.inr hd'
  refine ⟨hs', ?_, ?_, ?_, ?_, ?_⟩
  · intro w'
    by_cases hw : w' = w
    · subst hw
      rw [Function.update_self]
      exact h.unbroken w'
    · rw [Function.update_of_ne hw]
      exact h.unbroken w'
  · intro w'
    by_cases hw : w' = w
    · subst hw
      rw [Function.update_self]
      refine hnodup.append (h.nodup w') ?_
      intro d' hnew hold
      exact hfree d' hnew w' d' hold rfl
    · rw [Function.update_of_ne hw]
      exact h.nodup w'
  · intro w' d' hd'
    rcases hheld w' d' hd' with ⟨-, hnew⟩ | hold
    · exact hopened d' hnew
    · exact hfds d'.fd _ (h.opened w' d' hold)
  · intro w₁ w₂ d₁ hd₁ d₂ hd₂ hsame
    rcases hheld w₁ d₁ hd₁ with ⟨rfl, hnew₁⟩ | hold₁
    · rcases hheld w₂ d₂ hd₂ with ⟨rfl, -⟩ | hold₂
      · rfl
      · exact absurd hsame (hfree d₁ hnew₁ w₂ d₂ hold₂)
    · rcases hheld w₂ d₂ hd₂ with ⟨rfl, hnew₂⟩ | hold₂
      · exact absurd hsame.symm (hfree d₂ hnew₂ w₁ d₁ hold₁)
      · exact h.apart w₁ w₂ d₁ hold₁ d₂ hold₂ hsame
  · intro w' d' hd' k hk
    rcases hheld w' d' hd' with ⟨-, hnew⟩ | hold
    · exact hkept d' hnew k hk
    · exact hinterest k (h.kept w' d' hold k hk)

omit [DecidableEq W] in
/-- What happens outside. -/
theorem came (h : Owned H s) {k : Nat} (hs' : s'.Sane)
    (hcame : s' = if s.interest k = .armed then
      { s with interest := Function.update s.interest k .queued } else s) : Owned H s' := by
  split at hcame
  · rename_i harmed
    subst hcame
    refine h.keep hs' rfl fun k' hk' => ?_
    have hne : k' ≠ k := fun hk => hk'.1 (hk ▸ harmed)
    simpa [Function.update_of_ne hne] using hk'
  · rw [hcame]
    exact h

/-- A worker gets something new under a free number. -/
theorem takeNew (h : Owned H s) (hs' : s'.Sane) (hfree : s.fds d.fd = none)
    (hfds : s'.fds = Function.update s.fds d.fd (some d.handle)) (hinterest : s'.interest = s.interest)
    (hnew : ∀ fd, s.fds fd ≠ some d.handle)
    (hkept : ∀ k, d.handle = .conn k → s.interest k ≠ .armed ∧ s.interest k ≠ .queued) :
    Owned (Function.update H w { H w with held := [d] ++ (H w).held }) s' := by
  refine h.take hs' ?_ ?_ ?_ ?_ ?_ (List.nodup_singleton d)
  · intro fd hd hfd
    have hne : fd ≠ d.fd := by
      rintro rfl
      rw [hfree] at hfd
      cases hfd
    rw [hfds, Function.update_of_ne hne, hfd]
  · intro k hk
    rwa [hinterest]
  · intro d' hd'
    rw [List.mem_singleton.mp hd', hfds, Function.update_self]
  · intro d' hd' w' d'' hd'' hsame
    rw [List.mem_singleton.mp hd'] at hsame
    exact hnew d''.fd (hsame ▸ h.opened w' d'' hd'')
  · intro d' hd' k hk
    rw [List.mem_singleton.mp hd'] at hk
    rw [hinterest]
    exact hkept k hk

/-- A worker adds its connection to epoll, or re-arms it. -/
theorem giveToEpoll (h : Owned H s) (hd : d ∈ (H w).held) (hs' : s'.Sane)
    {allowed : Interest → Bool} {i : Interest} (hctl : s.ctl d.fd allowed i = some s') :
    Owned (Function.update H w { H w with held := (H w).held.erase d }) s' := by
  obtain ⟨k, hfd, rfl⟩ := Kernel.ctl_inv hctl
  refine h.giveAway hd hs' (fun _ _ => rfl) fun k' hk' => ?_
  have hne : k' ≠ k := by
    rintro rfl
    exact hk' (Option.some.inj ((h.opened w d hd).symm.trans hfd))
  exact Function.update_of_ne hne ..

/-- A call that a worker may make keeps the two in agreement, if it is not one of the
    mishaps. -/
theorem step (h : Owned H s) {c : SysCall} {r : SysReply} (hallows : (H w).Allows c)
    (heffect : s.Effect s' c r) (hok : ¬ Mishap c r) :
    Owned (Function.update H w ((H w).next c r)) s' := by
  have hsane := h.sane.step heffect
  have hbroken := h.unbroken w
  rcases hallows with hbad | ⟨hdesc, hwait⟩
  · rw [hbroken] at hbad
    cases hbad
  have hnone : ∀ {k : Nat}, s.interest k = .none → s.interest k ≠ .armed ∧ s.interest k ≠ .queued :=
    fun hk => by simp [hk]
  cases heffect with
  | @collected l hcollect =>
    have hc := Kernel.collect_inv hcollect
    have hnext : (H w).next .epollWait (.events l) =
        { H w with held := clients l ++ (H w).held } := by
      simp [Holding.next, hbroken, hwait rfl]
    rw [hnext]
    refine h.take hsane (fun fd hd hfd => by rwa [hc.fds]) ?_ ?_ ?_ ?_ hc.nodup
    · intro k hk
      rcases hc.interest k with hsame | ⟨hqueued, -⟩
      · rwa [hsame]
      · exact absurd hqueued hk.2
    · intro d hd
      rw [hc.fds]
      exact (hc.given d hd).1
    · -- a connection that is held is not queued
      intro d hd w' d' hd' hsame
      obtain ⟨-, k, hk, hqueued, -⟩ := hc.given d hd
      exact (h.kept w' d' hd' k (hsame.symm.trans hk)).2 hqueued
    · intro d hd k hk
      obtain ⟨-, k', hk', -, hdis⟩ := hc.given d hd
      cases hk.symm.trans hk'
      simp [hdis]
  | @accepted d haccept =>
    obtain ⟨k, rest, hbacklog, hd, hfree, rfl⟩ := Kernel.acceptAs_inv haccept
    have hfresh := h.sane.fresh k (Or.inl (by rw [hbacklog]; exact List.mem_cons_self ..))
    have hnext : (H w).next .accept (.opened d) = { H w with held := [d] ++ (H w).held } := by
      simp [Holding.next, hbroken]
    rw [hnext]
    refine h.takeNew hsane hfree rfl rfl (fun fd => hd ▸ hfresh.2 fd) ?_
    intro k' hk'
    cases hd.symm.trans hk'
    exact hnone hfresh.1
  | @created d hopen =>
    obtain ⟨hd, hfree, rfl⟩ := Kernel.openAs_inv hopen
    have hnext : (H w).next .create (.opened d) = { H w with held := [d] ++ (H w).held } := by
      simp [Holding.next, hbroken]
    rw [hnext]
    refine h.takeNew hsane hfree rfl rfl (fun fd => hd ▸ h.sane.freshFile _ le_rfl fd) ?_
    intro k hk
    cases hd.symm.trans hk
  | @opened d hopen =>
    obtain ⟨hd, hfree, rfl⟩ := Kernel.openAs_inv hopen
    have hnext : (H w).next .openRead (.opened d) = { H w with held := [d] ++ (H w).held } := by
      simp [Holding.next, hbroken]
    rw [hnext]
    refine h.takeNew hsane hfree rfl rfl (fun fd => hd ▸ h.sane.freshFile _ le_rfl fd) ?_
    intro k hk
    cases hd.symm.trans hk
  | @closed d r hrelease =>
    subst hrelease
    have hd : d ∈ (H w).held := hdesc d rfl
    have hnext : (H w).next (.close d) r = { H w with held := (H w).held.erase d } := by
      simp [Holding.next, hbroken]
    rw [hnext]
    refine h.giveAway hd hsane (fun fd hfd => Kernel.release_fds hfd) fun k hk => ?_
    exact Kernel.release_interest (by rw [h.opened w d hd]; simpa using hk)
  | @added d n hctl =>
    have hd : d ∈ (H w).held := hdesc d rfl
    have hnext : (H w).next (.ctlAdd d) (.done n) = { H w with held := (H w).held.erase d } := by
      simp [Holding.next, hbroken]
    rw [hnext]
    exact h.giveToEpoll hd hsane hctl
  | @rearmed d n hctl =>
    have hd : d ∈ (H w).held := hdesc d rfl
    have hnext : (H w).next (.ctlMod d) (.done n) = { H w with held := (H w).held.erase d } := by
      simp [Holding.next, hbroken]
    rw [hnext]
    exact h.giveToEpoll hd hsane hctl
  | @removed d n hctl =>
    have hnext : (H w).next (.ctlDel d) (.done n) = H w := by simp [Holding.next]
    rw [hnext, Function.update_eq_self]
    obtain ⟨k, -, rfl⟩ := Kernel.ctl_inv hctl
    refine h.keep hsane rfl fun k' hk' => ?_
    by_cases hk : k' = k
    · rw [hk]
      simp
    · simpa [Function.update_of_ne hk] using hk'
  | arrived harrive =>
    have hnext : (H w).next .arrive r = H w := by simp [Holding.next]
    rw [hnext, Function.update_eq_self]
    subst harrive
    exact h.keep hsane rfl fun _ hk => hk
  | @came k r hcame =>
    have hnext : (H w).next (.incoming k) r = H w := by simp [Holding.next]
    rw [hnext, Function.update_eq_self]
    exact h.came hsane hcame
  | still hsame hnext =>
    rw [hnext hok, Function.update_eq_self]
    refine h.keep hsane hsame.fds fun k hk => ?_
    rwa [hsame.interest]

end Owned

end Owned

/-! ## Runs -/

section Runs

variable {W : Type} [DecidableEq W] {rounds : W → Nat} {script : List Outside}
  {log : List (NetEntry W)} {s : Kernel}

theorem sane_of_run (hrun : NetRun rounds script log s) : s.Sane := by
  induction hrun with
  | start => exact Kernel.sane_init
  | step _ _ hcall ih => exact ih.step (Kernel.answers_effect hcall)

/-- What a worker holds after its calls so far. -/
def holding (log : List (NetEntry W)) (w : W) : Holding :=
  (ownTrace log (some w)).foldl (fun t x => t.next x.1 x.2) {}

theorem holding_snoc (log : List (NetEntry W)) (w : W) (c : SysCall) (r : SysReply)
    (pre post : Kernel) : holding (log ++ [⟨some w, c, r, pre, post⟩]) =
      Function.update (holding log) w ((holding log w).next c r) :=
  foldl_ownTrace_snoc (Option.some_injective W) (fun (t : Holding) x => t.next x.1 x.2) {} log w
    c r pre post

theorem holding_snoc_outside (log : List (NetEntry W)) (c : SysCall) (r : SysReply)
    (pre post : Kernel) : holding (log ++ [⟨none, c, r, pre, post⟩]) = holding log := by
  funext w
  rw [holding, ownTrace_snoc_other log (e := ⟨none, c, r, pre, post⟩) (by simp)]
  rfl

/-- What a worker may do next. -/
theorem allows_of_run (hrun : NetRun rounds script log s) {w : W} {c : SysCall}
    (hissue : (residual (party rounds script) log (some w)).issue = some c) :
    (holding log w).Allows c :=
  (Conforms.interleaved (i := some w) (@thFunc_owns (rounds w)) hrun).allowed hissue

/-- Only arrivals and incoming data come from outside. -/
def outsideProtocol : Protocol SysCall SysReply Unit Unit where
  allows _ c := c = .arrive ∨ ∃ k, c = .incoming k
  next _ _ _ := ()
  done _ _ := True

theorem outside_conforms (script : List Outside) : Conforms outsideProtocol () (outside script) := by
  induction script with
  | nil => trivial
  | cons o script ih =>
    cases o with
    | arrive => exact ⟨Or.inl rfl, fun _ => ih⟩
    | incoming k => exact ⟨Or.inr ⟨k, rfl⟩, fun _ => ih⟩

theorem outside_of_run (hrun : NetRun rounds script log s) {c : SysCall}
    (hissue : (residual (party rounds script) log none).issue = some c) :
    c = .arrive ∨ ∃ k, c = .incoming k :=
  (Conforms.interleaved (i := none) (outside_conforms script) hrun).allowed hissue

omit [DecidableEq W] in
/-- What happens outside takes nothing from the workers. -/
theorem Owned.step_outside {H : W → Holding} {s s' : Kernel} {c : SysCall} {r : SysReply}
    (h : Owned H s) (hout : c = .arrive ∨ ∃ k, c = .incoming k) (heffect : s.Effect s' c r) :
    Owned H s' := by
  have hsane := h.sane.step heffect
  cases heffect with
  | arrived harrive =>
    subst harrive
    exact h.keep hsane rfl fun _ hk => hk
  | came hcame => exact h.came hsane hcame
  | still hsame _ =>
    refine h.keep hsane hsame.fds fun k hk => ?_
    rwa [hsame.interest]
  | _ => simp at hout

/-- Workers and kernel agree in every state of a run without mishaps. -/
theorem owned_of_run (hrun : NetRun rounds script log s)
    (hok : ∀ e ∈ log, ¬ Mishap e.call e.reply) : Owned (holding log) s := by
  induction hrun with
  | start => exact owned_init
  | @step log s s' i c r hprev hissue hcall ih =>
    have hprior := ih fun e he => hok e (List.mem_append_left _ he)
    have hlast : ¬ Mishap c r := hok ⟨i, c, r, s, s'⟩ (by simp)
    cases i with
    | none =>
      rw [holding_snoc_outside]
      exact hprior.step_outside (outside_of_run hprev hissue) (Kernel.answers_effect hcall)
    | some w =>
      rw [holding_snoc]
      exact hprior.step (allows_of_run hprev hissue) (Kernel.answers_effect hcall) hlast

/-- The descriptor was handed to the worker: by an event, or because the worker has
    opened it. -/
def Given (log : List (NetEntry W)) (w : W) (d : Desc) : Prop :=
  ∃ e ∈ log, e.tid = some w ∧
    ((∃ l, e.call = .epollWait ∧ e.reply = .events l ∧ .client d true ∈ l) ∨
      (e.call = .accept ∨ e.call = .create ∨ e.call = .openRead) ∧ e.reply = .opened d)

theorem mem_clients {l : List Ready} {d : Desc} (h : d ∈ clients l) : .client d true ∈ l := by
  induction l with
  | nil => cases h
  | cons e l ih =>
    cases e with
    | listen => exact List.mem_cons_of_mem _ (ih h)
    | client d' epollin =>
      cases epollin with
      | false => exact List.mem_cons_of_mem _ (ih h)
      | true =>
        rw [clients_true] at h
        rcases List.mem_cons.mp h with rfl | h
        · exact List.mem_cons_self ..
        · exact List.mem_cons_of_mem _ (ih h)

/-- What is held was held before, or was handed out by the call. -/
theorem Holding.mem_next {t : Holding} {c : SysCall} {r : SysReply} {d : Desc}
    (h : d ∈ (t.next c r).held) :
    d ∈ t.held ∨ (∃ l, c = .epollWait ∧ r = .events l ∧ .client d true ∈ l) ∨
      (c = .accept ∨ c = .create ∨ c = .openRead) ∧ r = .opened d := by
  -- the branches of `next`: those that give, those that take, and the others
  unfold Holding.next at h
  split at h
  · exact Or.inl h
  split at h
  · split at h
    · exact Or.inr (Or.inl ⟨_, rfl, rfl, mem_clients h⟩)
    · exact Or.inl h
  iterate 2
    · split at h
      · rcases List.mem_cons.mp h with rfl | h
        · exact Or.inr (Or.inr ⟨by simp, rfl⟩)
        · exact Or.inl h
      · exact Or.inl h
  · split at h
    · rcases List.mem_cons.mp h with rfl | h
      · exact Or.inr (Or.inr ⟨by simp, rfl⟩)
      · exact Or.inl h
    · exact Or.inl h
  · split at h
    · exact Or.inl h
    · exact Or.inl h
  · exact Or.inl (List.mem_of_mem_erase h)
  iterate 2
    · split at h
      · exact Or.inl h
      · exact Or.inl (List.mem_of_mem_erase h)
  · exact Or.inl h

theorem given_of_holding {w : W} {d : Desc} (h : d ∈ (holding log w).held) : Given log w d := by
  induction log using List.reverseRecOn with
  | nil => cases h
  | append_singleton log e ih =>
    have hearlier : d ∈ (holding log w).held → Given (log ++ [e]) w d := by
      intro hold
      obtain ⟨e', he', hgiven⟩ := ih hold
      exact ⟨e', List.mem_append_left _ he', hgiven⟩
    obtain ⟨i, c, r, pre, post⟩ := e
    cases i with
    | none =>
      rw [holding_snoc_outside] at h
      exact hearlier h
    | some w' =>
      rw [holding_snoc] at h
      by_cases hw : w = w'
      · subst hw
        rw [Function.update_self] at h
        rcases Holding.mem_next h with hold | hnew
        · exact hearlier hold
        · exact ⟨_, List.mem_append_right _ (List.mem_singleton.mpr rfl), rfl, hnew⟩
      · rw [Function.update_of_ne hw] at h
        exact hearlier h

/-- What was closed in a run without mishaps is gone. -/
theorem gone_of_run (hrun : NetRun rounds script log s)
    (hok : ∀ e ∈ log, ¬ Mishap e.call e.reply) {e : NetEntry W} (he : e ∈ log) {d : Desc}
    (hclose : e.call = .close d) : s.Gone d.handle := by
  induction hrun with
  | start => cases he
  | @step log s s' i c r hprev hissue hcall ih =>
    have hprior : ∀ e ∈ log, ¬ Mishap e.call e.reply :=
      fun e he => hok e (List.mem_append_left _ he)
    have heffect := Kernel.answers_effect hcall
    rcases List.mem_append.mp he with he | he
    · exact (ih hprior he).step heffect
    · obtain rfl := List.mem_singleton.mp he
      obtain rfl : c = .close d := hclose
      have howned := owned_of_run hprev hprior
      cases i with
      | none => simpa using outside_of_run hprev hissue
      | some w =>
        have hallows := allows_of_run hprev hissue
        rw [Holding.Allows, howned.unbroken w] at hallows
        have hd := (hallows.resolve_left (by simp)).1 d rfl
        cases heffect with
        | closed hrelease =>
          rw [hrelease]
          exact howned.sane.gone_of_release (howned.opened w d hd)
        | still hsame hnext =>
          -- `close` always takes the descriptor from the worker
          have hself := hnext (hok ⟨some w, .close d, r, s, s'⟩ (by simp)) (holding log w)
          have herase : ((holding log w).held.erase d) = (holding log w).held := by
            simpa [Holding.next, howned.unbroken w] using congrArg Holding.held hself
          exact absurd (herase ▸ hd) (howned.nodup w).not_mem_erase

/-- The worker may make a call on the descriptor: it was given it and still holds it,
    nobody else holds what is behind it, nobody has closed that, and it is what the number
    stands for. -/
structure Rightful (before : List (NetEntry W)) (s : Kernel) (w : W) (d : Desc) : Prop where
  given : Given before w d
  held : d ∈ (holding before w).held
  current : s.fds d.fd = some d.handle
  alone : ∀ w', w' ≠ w → ∀ d' ∈ (holding before w').held, d'.handle ≠ d.handle
  unclosed : ∀ e ∈ before, ∀ d', e.call = .close d' → d'.handle ≠ d.handle

end Runs

/-- For any number of workers and any interleaving, in every run in which no reject frame
    of `handle_req` and no `open` of an upload fails: no connection or file is held by
    two workers, and every call on a descriptor is made by a worker that was given it and
    holds it, on what it was given for, and not after that was closed. -/
theorem exclusive_ownership {W : Type} [DecidableEq W] (rounds : W → Nat) (script : List Outside)
    (log : List (NetEntry W)) (s : Kernel) (hrun : NetRun rounds script log s)
    (hok : ∀ e ∈ log, ¬ Mishap e.call e.reply) :
    (∀ w w', ∀ d ∈ (holding log w).held, ∀ d' ∈ (holding log w').held,
      d.handle = d'.handle → w = w') ∧
    EachStep (fun before e => ∀ d ∈ e.call.desc,
      ∃ w, e.tid = some w ∧ Rightful before e.pre w d) log := by
  refine ⟨(owned_of_run hrun hok).apart, ?_⟩
  rintro before e behind rfl d hd
  -- the call is looked at in the state it was made in
  obtain ⟨hbefore, hissue, -⟩ := hrun.before rfl
  have hprior : ∀ e' ∈ before, ¬ Mishap e'.call e'.reply :=
    fun e' he' => hok e' (List.mem_append_left _ he')
  have howned := owned_of_run hbefore hprior
  obtain ⟨i, c, r, pre, post⟩ := e
  cases i with
  -- arrivals and incoming data are on no descriptor
  | none =>
    rcases outside_of_run hbefore hissue with hc | ⟨k, hc⟩
    · rw [hc] at hd
      cases hd
    · rw [hc] at hd
      cases hd
  | some w =>
    have hallows := allows_of_run hbefore hissue
    rw [Holding.Allows, howned.unbroken w] at hallows
    have hheld := (hallows.resolve_left (by simp)).1 d hd
    refine ⟨w, rfl, given_of_holding hheld, hheld, howned.opened w d hheld, ?_, ?_⟩
    · intro w' hw' d' hd' hsame
      exact hw' (howned.apart w' w d' hd' d hheld hsame)
    · -- a handle that was closed is open under no number
      intro e' he' d' hclose hsame
      have hgone := gone_of_run hbefore hprior he' hclose
      exact hgone.closed d.fd (hsame ▸ howned.opened w d hheld)

/-! ## Two workers -/

/-- The first connection, and the second one under the same number. -/
def firstClient : Desc := ⟨5, .conn 0⟩

def secondClient : Desc := ⟨5, .conn 1⟩

/-- Worker `w` accepts a connection and gets its first event. -/
def accepts (w : Bool) (d : Desc) (k : Nat) : List (Option Bool × SysReply) :=
  [(none, .done 0), (some w, .events [.listen]), (some w, .opened d), (some w, .done 0),
   (some w, .done 0), (some w, .done 0), (none, .done k), (some w, .events [.client d true])]

/-- Worker `true` answers a request and re-arms its connection. -/
def answersOne : List (Option Bool × SysReply) :=
  accepts true firstClient 0 ++
    [(some true, .done 8192), (some true, .done 0), (some true, .verdict .answer),
     (some true, .done 8192), (some true, .done 0)]

/-- Worker `true` cannot tell its client that the frame was malformed, and closes the
    connection; worker `false` is then given the next one under the same number. -/
def rejectFails : List (Option Bool × SysReply) :=
  accepts true firstClient 0 ++
    [(some true, .done 8192), (some true, .done 0), (some true, .verdict .malformed),
     (some true, .failed), (some true, .done 0), (some true, .done 0), (some true, .done 0),
     (some true, .done 0)] ++
  accepts false secondClient 1

/-- Two clients, who both send something. -/
def twoClients : List Outside := [.arrive, .incoming 0, .arrive, .incoming 1]

/-- Play these turns with two workers. -/
def playNet (turns : List (Option Bool × SysReply)) : Option (List (NetEntry Bool) × Kernel) :=
  playReplies Kernel.answer (party (fun _ => 3) twoClients) [] {} turns

theorem playNet_run {turns : List (Option Bool × SysReply)} {x : List (NetEntry Bool) × Kernel}
    (h : playNet turns = some x) : NetRun (fun _ => 3) twoClients x.1 x.2 :=
  interleaved_of_playReplies (fun _ _ _ _ h => h) .start h

/-- A request that is answered. -/
theorem exclusive_ownership_answered :
    ∃ log s, NetRun (fun _ : Bool => 3) twoClients log s ∧ log.length = 13 ∧
      EachStep (fun before e => ∀ d ∈ e.call.desc,
        ∃ w, e.tid = some w ∧ Rightful before e.pre w d) log := by
  have hplay : (playNet answersOne).any (fun x =>
      decide (x.1.length = 13 ∧ ∀ e ∈ x.1, e.reply ≠ .failed)) = true := by
    decide +kernel
  obtain ⟨⟨log, s⟩, hrun, hfacts⟩ := (Option.any_eq_true _ _).mp hplay
  obtain ⟨hlength, hgood⟩ := of_decide_eq_true hfacts
  have hrun := playNet_run hrun
  exact ⟨log, s, hrun, hlength,
    (exclusive_ownership _ _ log s hrun fun e he hbad => hgood e he hbad.1).2⟩

/-- Worker `true` goes on to re-arm the number that it has closed, which is now the
    connection that worker `false` is handling. -/
theorem rearms_other_connection :
    ∃ log s, NetRun (fun _ : Bool => 3) twoClients log s ∧
      (∃ before e, log = before ++ [e] ∧ e.tid = some true ∧ e.call = .ctlMod firstClient ∧
        e.reply = .done 0 ∧ e.pre.fds firstClient.fd = some (.conn 1) ∧
        secondClient ∈ (holding before false).held ∧ e.post.interest 1 = .armed) ∧
      ¬ EachStep (fun before e => ∀ d ∈ e.call.desc,
        ∃ w, e.tid = some w ∧ Rightful before e.pre w d) log := by
  have hplay : (playNet rejectFails).any (fun x =>
      decide ((residual (party (fun _ : Bool => 3) twoClients) x.1 (some true)).issue =
          some (.ctlMod firstClient) ∧ x.2.fds firstClient.fd = some (.conn 1) ∧
        secondClient ∈ (holding x.1 false).held) &&
      (x.2.answer (.ctlMod firstClient) (.done 0)).any fun s => decide (s.interest 1 = .armed)) =
        true := by
    decide +kernel
  obtain ⟨⟨log, s⟩, hrun, hfacts⟩ := (Option.any_eq_true _ _).mp hplay
  obtain ⟨hlog, hanswer⟩ := Bool.and_eq_true_iff.mp hfacts
  obtain ⟨hissue, hfd, hheld⟩ := of_decide_eq_true hlog
  obtain ⟨s', hcall, harmed⟩ := (Option.any_eq_true _ _).mp hanswer
  refine ⟨_, s', .step (playNet_run hrun) hissue hcall,
    ⟨log, _, rfl, rfl, rfl, rfl, hfd, hheld, of_decide_eq_true harmed⟩, fun heach => ?_⟩
  obtain ⟨w, -, hright⟩ := heach.last firstClient rfl
  have hcurrent := hright.current
  rw [show s.fds firstClient.fd = some (.conn 1) from hfd] at hcurrent
  cases hcurrent

end MeshChat.Net
