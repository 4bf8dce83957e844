import MeshChat.Net.Holdings

/-! # The tables of the kernel

    * `Kernel.Effect`: what a call that has returned did to them, and that all other
      calls leave what a worker holds alone.
    * `Kernel.Sane`: every connection and file is open under one number at most, and what
      has not been accepted or opened yet is unknown to the other tables.
    * `Kernel.Sane.step`: every call keeps that so, whoever makes it.
    * `Kernel.Gone`: what was closed never comes back.
-/

namespace MeshChat.Net

open Prog

/-! ## What a call does to the tables -/

/-- The two failures after which a worker goes on with a connection that it has closed:
    the reject frame of `handle_req` was not written, or the file of an upload was not
    created. -/
def Mishap (c : SysCall) (r : SysReply) : Prop :=
  r = .failed ∧ (c = .create ∨ ∃ d, c = .write d .reject)

@[simp] theorem Holding.next_write (t : Holding) (d : Desc) (what : Sent) (n : Nat) :
    t.next (.write d what) (.done n) = t := by
  cases what <;> simp [Holding.next]

/-- A failure changes nothing, but for `close` and for the two above. -/
theorem Holding.next_failed (t : Holding) {c : SysCall} (hclose : ∀ d, c ≠ .close d)
    (hok : ¬ Mishap c .failed) : t.next c .failed = t := by
  cases c with
  | create => exact absurd ⟨rfl, Or.inl rfl⟩ hok
  | close d => exact absurd rfl (hclose d)
  | write d what =>
    cases what with
    | reject => exact absurd ⟨rfl, Or.inr ⟨d, rfl⟩⟩ hok
    | response => simp [Holding.next]
    | data => simp [Holding.next]
  | _ => simp [Holding.next]

/-- The tables of the kernel are the same. -/
structure Kernel.SameTables (s s' : Kernel) : Prop where
  backlog : s'.backlog = s.backlog
  nextConn : s'.nextConn = s.nextConn
  nextFile : s'.nextFile = s.nextFile
  fds : s'.fds = s.fds
  interest : s'.interest = s.interest

theorem Kernel.SameTables.refl (s : Kernel) : s.SameTables s := ⟨rfl, rfl, rfl, rfl, rfl⟩

/-- What a call that has returned did to the tables of the kernel. -/
inductive Kernel.Effect (s s' : Kernel) : SysCall → SysReply → Prop
  | collected {l : List Ready} (h : s.collect l = some s') : Effect s s' .epollWait (.events l)
  | accepted {d : Desc} (h : s.acceptAs d = some s') : Effect s s' .accept (.opened d)
  | created {d : Desc} (h : s.openAs d = some s') : Effect s s' .create (.opened d)
  | opened {d : Desc} (h : s.openAs d = some s') : Effect s s' .openRead (.opened d)
  | closed {d : Desc} {r : SysReply} (h : s' = s.release d.fd) : Effect s s' (.close d) r
  | added {d : Desc} {n : Nat} (h : s.ctl d.fd (· = .none) .armed = some s') :
      Effect s s' (.ctlAdd d) (.done n)
  | rearmed {d : Desc} {n : Nat} (h : s.ctl d.fd (· ≠ .none) .armed = some s') :
      Effect s s' (.ctlMod d) (.done n)
  | removed {d : Desc} {n : Nat} (h : s.ctl d.fd (· ≠ .none) .none = some s') :
      Effect s s' (.ctlDel d) (.done n)
  | arrived {r : SysReply}
      (h : s' = { s with backlog := s.backlog ++ [s.nextConn], nextConn := s.nextConn + 1,
                         listenReady := true }) : Effect s s' .arrive r
  | came {k : Nat} {r : SysReply}
      (h : s' = if s.interest k = .armed then
        { s with interest := Function.update s.interest k .queued } else s) :
      Effect s s' (.incoming k) r
  | still {c : SysCall} {r : SysReply} (h : s.SameTables s')
      (hnext : ¬ Mishap c r → ∀ t : Holding, t.next c r = t) : Effect s s' c r

theorem Kernel.answers_effect {s s' : Kernel} {c : SysCall} {r : SysReply}
    (h : s.Answers c s' r) : s.Effect s' c r := by
  unfold Kernel.Answers Kernel.answer at h
  split at h
  · cases h
  split at h
  · exact .collected h
  · exact .accepted h
  · exact .created h
  · exact .opened h
  · exact .added h
  · exact .rearmed h
  · exact .removed h
  · split at h
    · cases h
      exact .closed rfl
    · cases h
  · cases h
    exact .closed rfl
  -- calls on a descriptor that is looked up only
  iterate 6
    · split at h
      · cases h
        exact .still (.refl s) fun _ t => by first | exact t.next_write _ _ _ | simp [Holding.next]
      · cases h
  · split at h
    · cases h
      exact .still (.refl s) fun _ t => by simp [Holding.next]
    · cases h
  iterate 3
    · cases h
      exact .still (.refl s) fun _ t => by simp [Holding.next]
  · cases h
    exact .still ⟨rfl, rfl, rfl, rfl, rfl⟩ fun _ t => by simp [Holding.next]
  · cases h
    exact .arrived rfl
  · cases h
    exact .came rfl
  iterate 4
    · cases h
  · rename_i hclose _ _ _ _
    cases h
    exact .still (.refl s) fun hok t => t.next_failed hclose hok
  · cases h

/-! ## The tables on their own -/

/-- A connection or file is open under one number at most, and what has not been
    accepted or opened yet is unknown to the other tables. -/
structure Kernel.Sane (s : Kernel) : Prop where
  single : ∀ fd fd' h, s.fds fd = some h → s.fds fd' = some h → fd = fd'
  waiting : s.backlog.Nodup
  known : ∀ k ∈ s.backlog, k < s.nextConn
  fresh : ∀ k, k ∈ s.backlog ∨ s.nextConn ≤ k →
    s.interest k = .none ∧ ∀ fd, s.fds fd ≠ some (.conn k)
  freshFile : ∀ n, s.nextFile ≤ n → ∀ fd, s.fds fd ≠ some (.file n)

namespace Kernel

variable {s s' : Kernel}

theorem sane_init : Sane {} where
  single _ _ _ h := by cases h
  waiting := List.nodup_nil
  known _ h := by cases h
  fresh _ _ := ⟨rfl, fun _ => by simp⟩
  freshFile _ _ _ := by simp

theorem Sane.of_sameTables (h : s.Sane) (hsame : s.SameTables s') : s'.Sane where
  single := by
    rw [hsame.fds]
    exact h.single
  waiting := by
    rw [hsame.backlog]
    exact h.waiting
  known := by
    rw [hsame.backlog, hsame.nextConn]
    exact h.known
  fresh := by
    rw [hsame.backlog, hsame.nextConn, hsame.interest, hsame.fds]
    exact h.fresh
  freshFile := by
    rw [hsame.nextFile, hsame.fds]
    exact h.freshFile

/-- The state of known connections may change, and numbers may be freed. -/
theorem Sane.of_sub (h : s.Sane) (hbacklog : s'.backlog = s.backlog)
    (hconn : s'.nextConn = s.nextConn) (hfile : s'.nextFile = s.nextFile)
    (hfds : ∀ fd h, s'.fds fd = some h → s.fds fd = some h)
    (hinterest : ∀ k, s.interest k = .none → (∀ fd, s.fds fd ≠ some (.conn k)) →
      s'.interest k = .none) : s'.Sane where
  single fd fd' hd h₁ h₂ := h.single fd fd' hd (hfds fd hd h₁) (hfds fd' hd h₂)
  waiting := by
    rw [hbacklog]
    exact h.waiting
  known := by
    rw [hbacklog, hconn]
    exact h.known
  fresh k hk := by
    rw [hbacklog, hconn] at hk
    obtain ⟨hnone, hunused⟩ := h.fresh k hk
    exact ⟨hinterest k hnone hunused, fun fd hfd => hunused fd (hfds fd _ hfd)⟩
  freshFile n hn fd hfd := by
    rw [hfile] at hn
    exact h.freshFile n hn fd (hfds fd _ hfd)

theorem Sane.release (h : s.Sane) (fd : Nat) : (s.release fd).Sane := by
  -- closing only takes entries out of the table
  have hfds : ∀ fd' hd, Function.update s.fds fd none fd' = some hd → s.fds fd' = some hd := by
    intro fd' hd hsome
    by_cases hfd : fd' = fd
    · rw [hfd, Function.update_self] at hsome
      cases hsome
    · rwa [Function.update_of_ne hfd] at hsome
  unfold Kernel.release
  split
  · rename_i k _
    refine h.of_sub rfl rfl rfl hfds fun k' hnone _ => ?_
    by_cases hk : k' = k
    · rw [hk]
      exact Function.update_self ..
    · exact (Function.update_of_ne hk ..).trans hnone
  · exact h.of_sub rfl rfl rfl hfds fun _ hnone _ => hnone
  · exact h

@[simp] theorem release_backlog (s : Kernel) (fd : Nat) : (s.release fd).backlog = s.backlog := by
  unfold Kernel.release
  split <;> rfl

@[simp] theorem release_nextConn (s : Kernel) (fd : Nat) :
    (s.release fd).nextConn = s.nextConn := by
  unfold Kernel.release
  split <;> rfl

@[simp] theorem release_nextFile (s : Kernel) (fd : Nat) :
    (s.release fd).nextFile = s.nextFile := by
  unfold Kernel.release
  split <;> rfl

@[simp] theorem release_fds_self (s : Kernel) (fd : Nat) : (s.release fd).fds fd = none := by
  unfold Kernel.release
  split
  · exact Function.update_self ..
  · exact Function.update_self ..
  · assumption

theorem release_fds {fd fd' : Nat} (h : fd' ≠ fd) : (s.release fd).fds fd' = s.fds fd' := by
  unfold Kernel.release
  split
  · exact Function.update_of_ne h ..
  · exact Function.update_of_ne h ..
  · rfl

theorem release_interest {fd k : Nat} (h : s.fds fd ≠ some (.conn k)) :
    (s.release fd).interest k = s.interest k := by
  unfold Kernel.release
  split
  · rename_i k' hfd
    have hne : k ≠ k' := fun hk => h (hk ▸ hfd)
    exact Function.update_of_ne hne ..
  · rfl
  · rfl

/-- What `epoll_ctl` has changed. -/
theorem ctl_inv {fd : Nat} {allowed : Interest → Bool} {i : Interest}
    (h : s.ctl fd allowed i = some s') :
    ∃ k, s.fds fd = some (.conn k) ∧ s' = { s with interest := Function.update s.interest k i } := by
  unfold ctl at h
  split at h
  · rename_i k hfd
    split at h
    · cases h
      exact ⟨k, hfd, rfl⟩
    · cases h
  · cases h

theorem Sane.ctl (h : s.Sane) {fd : Nat} {allowed : Interest → Bool} {i : Interest}
    (hctl : s.ctl fd allowed i = some s') : s'.Sane := by
  obtain ⟨k, hfd, rfl⟩ := ctl_inv hctl
  refine h.of_sub rfl rfl rfl (fun _ _ h => h) fun k' hnone hunused => ?_
  have hk : k' ≠ k := fun hk => hunused fd (hk ▸ hfd)
  exact (Function.update_of_ne hk ..).trans hnone

theorem Sane.came (h : s.Sane) (k : Nat) :
    (if s.interest k = .armed then
      { s with interest := Function.update s.interest k .queued } else s).Sane := by
  split
  · rename_i harmed
    refine h.of_sub rfl rfl rfl (fun _ _ h => h) fun k' hnone _ => ?_
    have hk : k' ≠ k := by
      intro hk
      rw [hk, harmed] at hnone
      cases hnone
    exact (Function.update_of_ne hk ..).trans hnone
  · exact h

theorem Sane.arrived (h : s.Sane) :
    Sane { s with backlog := s.backlog ++ [s.nextConn], nextConn := s.nextConn + 1,
                  listenReady := true } where
  single := h.single
  waiting := by
    refine h.waiting.append (List.nodup_singleton _) ?_
    intro k hk hlast
    have hlt := h.known k hk
    rw [List.mem_singleton.mp hlast] at hlt
    exact Nat.lt_irrefl _ hlt
  known k hk := by
    rcases List.mem_append.mp hk with hk | hk
    · exact Nat.lt_succ_of_lt (h.known k hk)
    · rw [List.mem_singleton.mp hk]
      exact Nat.lt_succ_self _
  fresh k hk := by
    refine h.fresh k ?_
    rcases hk with hk | hk
    · rcases List.mem_append.mp hk with hk | hk
      · exact Or.inl hk
      · exact Or.inr (le_of_eq (List.mem_singleton.mp hk).symm)
    · exact Or.inr (Nat.le_of_succ_le hk)
  freshFile := h.freshFile

/-- A new connection or file under a free number. -/
theorem single_update (h : s.Sane) {fd : Nat} {hd : Handle} (hnew : ∀ fd, s.fds fd ≠ some hd) :
    ∀ fd₁ fd₂ h', Function.update s.fds fd (some hd) fd₁ = some h' →
      Function.update s.fds fd (some hd) fd₂ = some h' → fd₁ = fd₂ := by
  have hother : ∀ fd', fd' ≠ fd → ∀ h', Function.update s.fds fd (some hd) fd' = some h' →
      s.fds fd' = some h' ∧ h' ≠ hd := by
    intro fd' hne h' hsome
    rw [Function.update_of_ne hne] at hsome
    exact ⟨hsome, fun heq => hnew fd' (heq ▸ hsome)⟩
  have hself : ∀ h', Function.update s.fds fd (some hd) fd = some h' → h' = hd := by
    intro h' hsome
    rw [Function.update_self] at hsome
    exact (Option.some.inj hsome).symm
  -- the new entry is the only one of its handle, and the old ones were single
  intro fd₁ fd₂ h' h₁ h₂
  by_cases heq₁ : fd₁ = fd
  · by_cases heq₂ : fd₂ = fd
    · exact heq₁.trans heq₂.symm
    · rw [heq₁] at h₁
      exact absurd (hself h' h₁) (hother fd₂ heq₂ h' h₂).2
  · by_cases heq₂ : fd₂ = fd
    · rw [heq₂] at h₂
      exact absurd (hself h' h₂) (hother fd₁ heq₁ h' h₁).2
    · exact h.single fd₁ fd₂ h' (hother fd₁ heq₁ h' h₁).1 (hother fd₂ heq₂ h' h₂).1

theorem ne_of_update {fds : Nat → Option Handle} {fd fd' : Nat} {h h' : Handle} (hne : h ≠ h')
    (hfds : fds fd' ≠ some h') : Function.update fds fd (some h) fd' ≠ some h' := by
  by_cases hfd : fd' = fd
  · rw [hfd, Function.update_self]
    simpa using hne
  · rwa [Function.update_of_ne hfd]

/-- What `accept` has changed. -/
theorem acceptAs_inv {d : Desc} (h : s.acceptAs d = some s') :
    ∃ k rest, s.backlog = k :: rest ∧ d.handle = .conn k ∧ s.fds d.fd = none ∧
      s' = { s with backlog := rest, fds := Function.update s.fds d.fd (some d.handle) } := by
  unfold acceptAs at h
  split at h
  · rename_i k rest hbacklog
    split at h
    · rename_i hd
      cases h
      exact ⟨k, rest, hbacklog, hd.1, hd.2, by rw [hd.1]⟩
    · cases h
  · cases h

theorem Sane.accepted (h : s.Sane) {d : Desc} (haccept : s.acceptAs d = some s') : s'.Sane := by
  obtain ⟨k, rest, hbacklog, hd, -, rfl⟩ := acceptAs_inv haccept
  have hk := h.fresh k (Or.inl (by rw [hbacklog]; exact List.mem_cons_self ..))
  have hnodup := h.waiting
  rw [hbacklog] at hnodup
  have hsub : ∀ k' ∈ rest, k' ∈ s.backlog := fun k' hk' => by
    rw [hbacklog]
    exact List.mem_cons_of_mem _ hk'
  refine ⟨?_, (List.nodup_cons.mp hnodup).2, fun k' hk' => h.known k' (hsub k' hk'), ?_, ?_⟩
  · rw [hd]
    exact single_update h hk.2
  · intro k' hk'
    have hwait : k' ∈ s.backlog ∨ s.nextConn ≤ k' := hk'.imp_left (hsub k')
    have hne : k' ≠ k := by
      rintro rfl
      rcases hk' with hk' | hk'
      · exact (List.nodup_cons.mp hnodup).1 hk'
      · exact absurd (h.known k' (by rw [hbacklog]; exact List.mem_cons_self ..)) (not_lt.mpr hk')
    obtain ⟨hnone, hunused⟩ := h.fresh k' hwait
    exact ⟨hnone, fun fd => ne_of_update (by rw [hd]; simpa using hne.symm) (hunused fd)⟩
  · intro n hn fd
    exact ne_of_update (by rw [hd]; simp) (h.freshFile n hn fd)

/-- What `open` has changed. -/
theorem openAs_inv {d : Desc} (h : s.openAs d = some s') :
    d.handle = .file s.nextFile ∧ s.fds d.fd = none ∧
      s' = { s with nextFile := s.nextFile + 1,
                    fds := Function.update s.fds d.fd (some d.handle) } := by
  unfold openAs at h
  split at h
  · rename_i hd
    cases h
    exact ⟨hd.1, hd.2, by rw [hd.1]⟩
  · cases h

theorem Sane.opened (h : s.Sane) {d : Desc} (hopen : s.openAs d = some s') : s'.Sane := by
  obtain ⟨hd, -, rfl⟩ := openAs_inv hopen
  refine ⟨?_, h.waiting, h.known, ?_, ?_⟩
  · rw [hd]
    exact single_update h (h.freshFile s.nextFile le_rfl)
  · intro k hk
    obtain ⟨hnone, hunused⟩ := h.fresh k hk
    exact ⟨hnone, fun fd => ne_of_update (by rw [hd]; simp) (hunused fd)⟩
  · intro n hn fd
    have hne : s.nextFile ≠ n := Nat.ne_of_lt hn
    exact ne_of_update (by rw [hd]; simpa using hne) (h.freshFile n (Nat.le_of_succ_le hn) fd)

/-- What an `epoll_wait` has changed: the delivered connections were queued, and are
    disarmed now. -/
structure Collected (s s' : Kernel) (l : List Ready) : Prop where
  backlog : s'.backlog = s.backlog
  nextConn : s'.nextConn = s.nextConn
  nextFile : s'.nextFile = s.nextFile
  fds : s'.fds = s.fds
  interest : ∀ k, s'.interest k = s.interest k ∨
    s.interest k = .queued ∧ s'.interest k = .disarmed
  given : ∀ d ∈ clients l, s.fds d.fd = some d.handle ∧
    ∃ k, d.handle = .conn k ∧ s.interest k = .queued ∧ s'.interest k = .disarmed
  nodup : (clients l).Nodup

theorem collect_inv {l : List Ready} (h : s.collect l = some s') : Collected s s' l := by
  induction l generalizing s with
  | nil =>
    cases h
    exact ⟨rfl, rfl, rfl, rfl, fun _ => Or.inl rfl, by simp, by simp⟩
  | cons e l ih =>
    cases e with
    | listen =>
      simp only [collect] at h
      split at h
      · obtain ⟨hb, hc, hf, hfds, hint, hgiven, hnodup⟩ := ih h
        exact ⟨hb, hc, hf, hfds, hint, hgiven, hnodup⟩
      · cases h
    | client d epollin =>
      simp only [collect] at h
      split at h
      · rename_i k hd
        split at h
        · rename_i hqueued
          obtain ⟨hb, hc, hf, hfds, hint, hgiven, hnodup⟩ := ih h
          dsimp only at hb hc hf hfds hint hgiven
          -- the connection is disarmed from here on, so that it cannot come again
          have hlast : s'.interest k = .disarmed := by
            rcases hint k with hk | ⟨hk, -⟩
            · rw [hk, Function.update_self]
            · rw [Function.update_self] at hk
              cases hk
          have hother : ∀ k', k' ≠ k →
              Function.update s.interest k Interest.disarmed k' = s.interest k' :=
            fun k' hne => Function.update_of_ne hne ..
          have hint' : ∀ k', s'.interest k' = s.interest k' ∨
              s.interest k' = .queued ∧ s'.interest k' = .disarmed := by
            intro k'
            by_cases hk : k' = k
            · rw [hk]
              exact Or.inr ⟨hqueued.2, hlast⟩
            · have hk' := hint k'
              rwa [hother k' hk] at hk'
          have hgiven' : ∀ d' ∈ clients l, d'.handle ≠ .conn k ∧
              s.fds d'.fd = some d'.handle ∧
              ∃ k', d'.handle = .conn k' ∧ s.interest k' = .queued ∧ s'.interest k' = .disarmed := by
            intro d' hd'
            obtain ⟨hfd, k', hk', hq, hdis⟩ := hgiven d' hd'
            have hne : k' ≠ k := by
              rintro rfl
              rw [Function.update_self] at hq
              cases hq
            rw [hother k' hne] at hq
            exact ⟨by rw [hk']; simpa using hne, hfd, k', hk', hq, hdis⟩
          cases epollin with
          | false =>
            exact ⟨hb, hc, hf, hfds, hint', fun d' hd' => (hgiven' d' hd').2, hnodup⟩
          | true =>
            refine ⟨hb, hc, hf, hfds, hint', ?_, ?_⟩
            · intro d' hd'
              rw [clients_true] at hd'
              rcases List.mem_cons.mp hd' with rfl | hd'
              · exact ⟨by rw [hd]; exact hqueued.1, k, hd, hqueued.2, hlast⟩
              · exact (hgiven' d' hd').2
            · rw [clients_true, List.nodup_cons]
              exact ⟨fun hmem => (hgiven' d hmem).1 hd, hnodup⟩
        · cases h
      · cases h

theorem Sane.collected (h : s.Sane) {l : List Ready} (hcollect : s.collect l = some s') :
    s'.Sane := by
  have hc := collect_inv hcollect
  refine h.of_sub hc.backlog hc.nextConn hc.nextFile (fun fd hd hfd => by rwa [hc.fds] at hfd) ?_
  intro k hnone _
  rcases hc.interest k with hk | ⟨hk, -⟩
  · rw [hk, hnone]
  · rw [hnone] at hk
    cases hk

theorem Sane.step (h : s.Sane) {c : SysCall} {r : SysReply} (heffect : s.Effect s' c r) :
    s'.Sane := by
  cases heffect with
  | collected hc => exact h.collected hc
  | accepted hc => exact h.accepted hc
  | created hc => exact h.opened hc
  | opened hc => exact h.opened hc
  | closed hc => exact hc ▸ h.release _
  | added hc => exact h.ctl hc
  | rearmed hc => exact h.ctl hc
  | removed hc => exact h.ctl hc
  | arrived hc => exact hc ▸ h.arrived
  | came hc => exact hc ▸ h.came _
  | still hc _ => exact h.of_sameTables hc

/-! ## What was closed -/

/-- It has been handed out at some time. -/
def Used (s : Kernel) : Handle → Prop
  | .conn k => k < s.nextConn ∧ k ∉ s.backlog
  | .file n => n < s.nextFile

/-- It was open, and is not any more. -/
structure Gone (s : Kernel) (h : Handle) : Prop where
  closed : ∀ fd, s.fds fd ≠ some h
  used : s.Used h

theorem Sane.used (h : s.Sane) {fd : Nat} {hd : Handle} (hfd : s.fds fd = some hd) : s.Used hd := by
  cases hd with
  | conn k =>
    refine ⟨?_, fun hk => (h.fresh k (Or.inl hk)).2 fd hfd⟩
    by_contra hk
    exact (h.fresh k (Or.inr (not_lt.mp hk))).2 fd hfd
  | file n =>
    show n < s.nextFile
    by_contra hn
    exact h.freshFile n (not_lt.mp hn) fd hfd

/-- What is closed is gone. -/
theorem Sane.gone_of_release (h : s.Sane) {fd : Nat} {hd : Handle} (hfd : s.fds fd = some hd) :
    (s.release fd).Gone hd := by
  refine ⟨fun fd' hfd' => ?_, ?_⟩
  · by_cases hne : fd' = fd
    · rw [hne, release_fds_self] at hfd'
      cases hfd'
    · rw [release_fds hne] at hfd'
      exact hne (h.single fd' fd hd hfd' hfd)
  · have hused := h.used hfd
    cases hd with
    | conn k => simpa [Used] using hused
    | file n => simpa [Used] using hused

/-- Numbers are only freed, or given to something else. -/
theorem Gone.mono {h : Handle} (hg : s.Gone h) (hfds : ∀ fd, s'.fds fd = some h → s.fds fd = some h)
    (hbacklog : ∀ k, k ∈ s'.backlog → k ∈ s.backlog) (hconn : s'.nextConn = s.nextConn)
    (hfile : s.nextFile ≤ s'.nextFile) : s'.Gone h := by
  obtain ⟨hclosed, hused⟩ := hg
  refine ⟨fun fd hfd => hclosed fd (hfds fd hfd), ?_⟩
  cases h with
  | conn k => exact ⟨hconn ▸ hused.1, fun hk => hused.2 (hbacklog k hk)⟩
  | file n => exact lt_of_lt_of_le hused hfile

theorem eq_of_update {fds : Nat → Option Handle} {fd fd' : Nat} {h h' : Handle} (hne : h ≠ h')
    (hfds : Function.update fds fd (some h) fd' = some h') : fds fd' = some h' := by
  by_contra hother
  exact ne_of_update hne hother hfds

/-- It never comes back. -/
theorem Gone.step {h : Handle} (hg : s.Gone h) {c : SysCall} {r : SysReply}
    (heffect : s.Effect s' c r) : s'.Gone h := by
  -- a new file has a number that was not used before
  have hopened : ∀ {d : Desc}, s.openAs d = some s' → s'.Gone h := by
    intro d hopen
    obtain ⟨hd, -, rfl⟩ := openAs_inv hopen
    have hne : d.handle ≠ h := by
      rintro rfl
      have hused := hg.used
      rw [hd] at hused
      exact Nat.lt_irrefl _ hused
    exact hg.mono (fun fd hfd => eq_of_update hne hfd) (fun _ hk => hk) rfl (Nat.le_succ _)
  -- `epoll_ctl` opens nothing
  have hctl : ∀ {fd : Nat} {allowed : Interest → Bool} {i : Interest},
      s.ctl fd allowed i = some s' → s'.Gone h := by
    intro fd allowed i hctl
    obtain ⟨k, -, rfl⟩ := ctl_inv hctl
    exact hg.mono (fun _ hfd => hfd) (fun _ hk => hk) rfl le_rfl
  cases heffect with
  | collected hcollect =>
    have hc := collect_inv hcollect
    refine hg.mono (fun fd hfd => by rwa [hc.fds] at hfd) (fun k hk => by rwa [hc.backlog] at hk)
      hc.nextConn (le_of_eq hc.nextFile.symm)
  -- who waits in the backlog has not been closed
  | accepted haccept =>
    obtain ⟨k, rest, hbacklog, hd, -, rfl⟩ := acceptAs_inv haccept
    rename_i d
    have hne : d.handle ≠ h := by
      rintro rfl
      have hused := hg.used
      rw [hd] at hused
      exact hused.2 (by rw [hbacklog]; exact List.mem_cons_self ..)
    refine hg.mono (fun fd hfd => eq_of_update hne hfd) (fun k' hk' => ?_) rfl le_rfl
    rw [hbacklog]
    exact List.mem_cons_of_mem _ hk'
  | created hopen => exact hopened hopen
  | opened hopen => exact hopened hopen
  | @closed d r hrelease =>
    subst hrelease
    have hfds : ∀ fd, (s.release d.fd).fds fd = some h → s.fds fd = some h := by
      intro fd hfd
      by_cases hne : fd = d.fd
      · rw [hne, release_fds_self] at hfd
        cases hfd
      · rwa [release_fds hne] at hfd
    exact hg.mono hfds (by simp) (by simp) (by simp)
  | added hc => exact hctl hc
  | rearmed hc => exact hctl hc
  | removed hc => exact hctl hc
  | arrived harrive =>
    subst harrive
    obtain ⟨hclosed, hused⟩ := hg
    refine ⟨hclosed, ?_⟩
    cases h with
    | conn k =>
      refine ⟨Nat.lt_succ_of_lt hused.1, fun hk => ?_⟩
      rcases List.mem_append.mp hk with hk | hk
      · exact hused.2 hk
      · exact Nat.lt_irrefl _ (List.mem_singleton.mp hk ▸ hused.1)
    | file n => exact hused
  | @came k r hcame =>
    split at hcame
    · subst hcame
      exact hg.mono (fun _ hfd => hfd) (fun _ hk => hk) rfl le_rfl
    · rw [hcame]
      exact hg
  | still hsame _ =>
    exact hg.mono (fun fd hfd => by rwa [hsame.fds] at hfd)
      (fun k hk => by rwa [hsame.backlog] at hk) hsame.nextConn (le_of_eq hsame.nextFile.symm)

end Kernel

end MeshChat.Net
