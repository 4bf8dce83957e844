import MeshChat.Net.Ownership

/-! # Connections that nobody accepts

    `listen_fd` is watched with `EPOLLET`, so that connections which arrive before an
    event is collected share that event, and `accept_new_client` accepts one connection
    for each event.

    * `inHand`: the events of `listen_fd` that a worker has collected and not answered
      with an `accept` yet.
    * `backlog_length`: in every state the backlog counts the event that is queued, the
      ones in hand, the arrivals that found an event queued, and the accepts that failed.
    * `backlog_empty_iff`: when all workers wait, only the last two are left.
-/

namespace MeshChat.Net

open Prog

/-! ## Events in hand -/

/-- The events of `listen_fd` among these. -/
def listens (l : List Ready) : Nat := l.count .listen

@[simp] theorem listens_nil : listens [] = 0 := rfl

@[simp] theorem listens_listen (l : List Ready) : listens (.listen :: l) = listens l + 1 := by
  simp [listens]

@[simp] theorem listens_client (d : Desc) (epollin : Bool) (l : List Ready) :
    listens (.client d epollin :: l) = listens l := by
  simp [listens]

/-- The events in hand behind a call: an `accept` uses one up, whatever it returns. -/
def listenNext (n : Nat) (c : SysCall) (r : SysReply) : Nat :=
  match c with
  | .epollWait =>
    match r with
    | .events l => listens l
    | _ => n
  | .accept => n - 1
  | _ => n

/-- There is an `accept` for every event, before the next ones are waited for. -/
def listenProtocol {α : Type} (Q : Nat → α → Prop) : Protocol SysCall SysReply α Nat where
  allows n c := (c = .accept → 0 < n) ∧ (c = .epollWait → n = 0)
  next := listenNext
  done := Q

/-- The calls that have nothing to do with `listen_fd`. -/
def SysCall.Elsewhere (c : SysCall) : Prop := c ≠ .accept ∧ c ≠ .epollWait

def elsewhereProtocol (α : Type) : Protocol SysCall SysReply α Unit where
  allows _ c := c.Elsewhere
  next _ _ _ := ()
  done _ _ := True

abbrev Elsewhere {α : Type} (p : NetProg α) : Prop := Conforms (elsewhereProtocol α) () p

theorem Elsewhere.listens {α : Type} {Q : Nat → α → Prop} {n : Nat} {p : NetProg α}
    (hp : Elsewhere p) (hQ : ∀ a, Q n a) : Conforms (listenProtocol Q) n p := by
  have hcall : ∀ {c : SysCall}, c.Elsewhere →
      (listenProtocol Q).allows n c ∧ ∀ r, (listenProtocol Q).next n c r = n := by
    intro c hc
    refine ⟨⟨fun h => absurd h hc.1, fun h => absurd h hc.2⟩, fun r => ?_⟩
    cases c with
    | accept => exact absurd rfl hc.1
    | epollWait => exact absurd rfl hc.2
    | _ => rfl
  induction p with
  | ret a => exact hQ a
  | call c k ih =>
    refine ⟨(hcall hp.1).1, fun r => ?_⟩
    rw [(hcall hp.1).2 r]
    exact ih r (hp.2 r)
  | drain c more seen k ih =>
    exact ⟨fun i => hcall (hp.1 i).1, fun rows r => ih rows r (hp.2 rows r)⟩

theorem Elsewhere.bind {α β : Type} {p : NetProg α} {k : α → NetProg β} (hp : Elsewhere p)
    (hk : ∀ a, Elsewhere (k a)) : Elsewhere (p >>= k) :=
  Conforms.bind (Conforms.mono hp (fun _ _ h => h) (fun _ _ _ => rfl) fun _ a _ => hk a)

theorem elsewhere_call {α : Type} {c : SysCall} {k : SysReply → NetProg α} (hc : c.Elsewhere)
    (hk : ∀ r, Elsewhere (k r)) : Elsewhere (call c k) := ⟨hc, hk⟩

section Programs

variable {d f : Desc}

theorem elsewhere_closeSock : Elsewhere (closeSock d) := by
  simp [closeSock, elsewhereProtocol, SysCall.Elsewhere]

theorem elsewhere_sendResponse : Elsewhere (sendResponse d) := by
  simp only [sendResponse, invoke_bind]
  refine elsewhere_call (by simp [SysCall.Elsewhere]) fun r => ?_
  simp only [conforms_ite]
  exact ⟨fun _ => elsewhere_closeSock.bind fun _ => trivial, fun _ => trivial⟩

theorem elsewhere_reject : Elsewhere (reject d) := by
  simp only [reject, invoke_bind]
  refine elsewhere_call (by simp [SysCall.Elsewhere]) fun r => ?_
  simp only [conforms_ite]
  exact ⟨fun _ => elsewhere_closeSock.bind fun _ => trivial, fun _ => trivial⟩

theorem elsewhere_close {α : Type} {k : SysReply → NetProg α} (hk : ∀ r, Elsewhere (k r)) :
    Elsewhere (call (.close f) k) :=
  elsewhere_call (by simp [SysCall.Elsewhere]) hk

theorem elsewhere_fileErrorHandling : Elsewhere (fileErrorHandling d f) :=
  elsewhere_close fun _ => elsewhere_closeSock.bind fun _ => trivial

theorem elsewhere_fileReceived : Elsewhere (fileReceived d f) :=
  elsewhere_close fun _ => elsewhere_sendResponse

theorem elsewhere_receiveLoop {rounds fsize : Nat} : Elsewhere (receiveLoop d f rounds fsize) := by
  induction rounds generalizing fsize with
  | zero => exact elsewhere_fileReceived
  | succ rounds ih =>
    simp only [receiveLoop, invoke_bind]
    refine elsewhere_call (by simp [SysCall.Elsewhere]) fun p => ?_
    simp only [conforms_ite]
    refine ⟨fun _ => elsewhere_close fun _ => elsewhere_sendResponse, fun _ =>
      ⟨fun _ => elsewhere_fileErrorHandling, fun _ => ?_⟩⟩
    refine elsewhere_call (by simp [SysCall.Elsewhere]) fun r => ?_
    cases r.count with
    | none =>
      simp only [conforms_ite]
      exact ⟨fun _ => elsewhere_fileReceived, fun _ => elsewhere_fileErrorHandling⟩
    | some nbytes =>
      simp only [conforms_ite]
      refine ⟨fun _ => elsewhere_fileErrorHandling, fun _ => ?_⟩
      refine elsewhere_call (by simp [SysCall.Elsewhere]) fun w => ?_
      simp only [conforms_ite]
      exact ⟨fun _ => elsewhere_fileErrorHandling, fun _ => ⟨fun _ => elsewhere_fileReceived,
        fun _ => ⟨fun _ => ih, fun _ => elsewhere_fileReceived⟩⟩⟩

theorem elsewhere_receiveFile {contentLen : Nat} : Elsewhere (receiveFile d contentLen) := by
  simp only [receiveFile, invoke_bind]
  refine elsewhere_call (by simp [SysCall.Elsewhere]) fun r => ?_
  cases r with
  | opened f => exact elsewhere_receiveLoop
  | _ => exact elsewhere_closeSock.bind fun _ => elsewhere_sendResponse

theorem elsewhere_fileSent : Elsewhere (fileSent f) := elsewhere_close fun _ => trivial

theorem elsewhere_sendLoop {rounds fsize : Nat} : Elsewhere (sendLoop d f rounds fsize) := by
  induction rounds generalizing fsize with
  | zero => exact elsewhere_fileSent
  | succ rounds ih =>
    simp only [sendLoop, invoke_bind]
    refine elsewhere_call (by simp [SysCall.Elsewhere]) fun r => ?_
    cases r.count with
    | none => exact elsewhere_fileSent
    | some nbytes =>
      refine elsewhere_call (by simp [SysCall.Elsewhere]) fun p => ?_
      simp only [conforms_ite]
      refine ⟨fun _ => elsewhere_fileSent, fun _ => ⟨fun _ => elsewhere_fileSent, fun _ => ?_⟩⟩
      refine elsewhere_call (by simp [SysCall.Elsewhere]) fun w => ?_
      simp only [conforms_ite]
      exact ⟨fun _ => elsewhere_fileSent, fun _ => ⟨fun _ => elsewhere_fileSent,
        fun _ => ⟨fun _ => ih, fun _ => elsewhere_fileSent⟩⟩⟩

theorem elsewhere_sendFile : Elsewhere (sendFile d) := by
  simp only [sendFile, invoke_bind]
  refine elsewhere_call (by simp [SysCall.Elsewhere]) fun r => ?_
  simp only [conforms_ite]
  refine ⟨fun _ => elsewhere_closeSock.bind fun _ => trivial, fun _ => ?_⟩
  refine elsewhere_call (by simp [SysCall.Elsewhere]) fun r => ?_
  cases r with
  | opened f =>
    refine elsewhere_call (by simp [SysCall.Elsewhere]) fun sb => ?_
    cases sb.count with
    | none => exact elsewhere_fileSent
    | some fsize => exact elsewhere_sendLoop
  | _ => trivial

theorem elsewhere_receive {rounds nbytes : Nat} : Elsewhere (receive d rounds nbytes) := by
  induction rounds generalizing nbytes with
  | zero => trivial
  | succ rounds ih =>
    simp only [receive, invoke_bind]
    refine elsewhere_call (by simp [SysCall.Elsewhere]) fun r => ?_
    cases r.count with
    | none =>
      simp only [conforms_ite]
      exact ⟨fun _ => trivial, fun _ => elsewhere_closeSock.bind fun _ => trivial⟩
    | some n =>
      simp only [conforms_ite]
      exact ⟨fun _ => elsewhere_closeSock.bind fun _ => trivial,
        fun _ => ⟨fun _ => ih, fun _ => trivial⟩⟩

theorem elsewhere_serveRequest (r : SysReply) : Elsewhere (serveRequest d r) := by
  unfold serveRequest
  split
  · exact elsewhere_reject
  · exact elsewhere_reject
  · exact elsewhere_call (by simp [SysCall.Elsewhere]) fun _ => elsewhere_close fun _ => trivial
  · exact elsewhere_receiveFile
  · exact elsewhere_sendFile
  · exact elsewhere_sendResponse

theorem elsewhere_handleReq : Elsewhere (handleReq d) := by
  simp only [handleReq, invoke_bind]
  refine elsewhere_receive.bind fun filled => ?_
  cases filled with
  | false => trivial
  | true =>
    refine elsewhere_call (by simp [SysCall.Elsewhere]) fun _ => ?_
    refine elsewhere_call (by simp [SysCall.Elsewhere]) fun v => ?_
    refine (elsewhere_serveRequest v).bind fun closeConn => ?_
    cases closeConn with
    | true => trivial
    | false =>
      refine elsewhere_call (by simp [SysCall.Elsewhere]) fun r => ?_
      simp only [conforms_ite]
      exact ⟨fun _ => elsewhere_closeSock, fun _ => trivial⟩

/-- One event, one `accept`. -/
theorem acceptNewClient_listens {n : Nat} :
    Conforms (listenProtocol fun m _ => m = n) (n + 1) acceptNewClient := by
  simp only [acceptNewClient, invoke_bind]
  refine ⟨⟨fun _ => Nat.succ_pos n, fun h => by cases h⟩, fun r => ?_⟩
  refine Elsewhere.listens ?_ fun _ => rfl
  cases r with
  | opened d => simp [elsewhereProtocol, SysCall.Elsewhere]
  | _ => trivial

theorem serveEvents_listens {l : List Ready} :
    Conforms (listenProtocol fun m _ => m = 0) (listens l) (serveEvents l) := by
  induction l with
  | nil => exact rfl
  | cons e l ih =>
    cases e with
    | listen =>
      rw [listens_listen]
      refine Conforms.bind (Conforms.mono acceptNewClient_listens (fun _ _ h => h)
        (fun _ _ _ => rfl) fun m _ hm => ?_)
      subst hm
      exact ih
    | client d epollin =>
      rw [listens_client]
      cases epollin with
      | true => exact Conforms.bind (elsewhere_handleReq.listens fun _ => ih)
      | false => exact ih

theorem thFunc_listens {rounds : Nat} :
    Conforms (listenProtocol fun _ _ => True) 0 (thFunc rounds) := by
  induction rounds with
  | zero => trivial
  | succ rounds ih =>
    simp only [thFunc, invoke_bind]
    refine ⟨⟨fun h => absurd h (by simp), fun _ => rfl⟩, fun r => ?_⟩
    cases r with
    | events l =>
      refine Conforms.bind (Conforms.mono serveEvents_listens (fun _ _ h => h)
        (fun _ _ _ => rfl) fun m _ hm => ?_)
      subst hm
      exact ih
    | _ => trivial

end Programs

/-! ## The event of `listen_fd` -/

/-- The event of `listen_fd` that is queued, as a number. -/
def Kernel.pending (s : Kernel) : Nat := if s.listenReady then 1 else 0

/-- What a call that has returned did to the backlog and to the event of `listen_fd`. -/
inductive Kernel.Listening (s s' : Kernel) : SysCall → SysReply → Prop
  | collected {l : List Ready} (hbacklog : s'.backlog = s.backlog)
      (hpending : s.pending = s'.pending + listens l) : Listening s s' .epollWait (.events l)
  | accepted {d : Desc} (hbacklog : s.backlog.length = s'.backlog.length + 1)
      (hpending : s'.pending = s.pending) : Listening s s' .accept (.opened d)
  | refused (hsame : s' = s) : Listening s s' .accept .failed
  | arrived {r : SysReply} (hbacklog : s'.backlog.length = s.backlog.length + 1)
      (hpending : s'.pending = 1) : Listening s s' .arrive r
  | still {c : SysCall} {r : SysReply} (hcall : c ≠ .accept ∧ c ≠ .arrive)
      (hnext : ∀ n, listenNext n c r = n) (hbacklog : s'.backlog = s.backlog)
      (hpending : s'.pending = s.pending) : Listening s s' c r

namespace Kernel

variable {s s' : Kernel}

theorem pending_congr (h : s'.listenReady = s.listenReady) : s'.pending = s.pending := by
  rw [Kernel.pending, h]
  rfl

/-- An `epoll_wait` takes the event of `listen_fd` once at most. -/
theorem pending_collect {l : List Ready} (h : s.collect l = some s') :
    s.pending = s'.pending + listens l := by
  induction l generalizing s with
  | nil =>
    cases h
    rfl
  | cons e l ih =>
    cases e with
    | listen =>
      simp only [collect] at h
      split at h
      · rename_i hready
        have hrest := ih h
        have hnone : ({ s with listenReady := false } : Kernel).pending = 0 := rfl
        have hone : s.pending = 1 := by simp [pending, hready]
        rw [listens_listen]
        omega
      · cases h
    | client d epollin =>
      simp only [collect] at h
      split at h
      · split at h
        · rw [listens_client, ← ih h]
          exact pending_congr rfl
        · cases h
      · cases h

theorem release_listenReady (s : Kernel) (fd : Nat) :
    (s.release fd).listenReady = s.listenReady := by
  unfold Kernel.release
  split <;> rfl

theorem still_of_ctl {c : SysCall} {r : SysReply} {fd : Nat} {allowed : Interest → Bool}
    {i : Interest} (hcall : c ≠ .accept ∧ c ≠ .arrive) (hnext : ∀ n, listenNext n c r = n)
    (h : s.ctl fd allowed i = some s') : s.Listening s' c r := by
  obtain ⟨k, -, rfl⟩ := ctl_inv h
  exact .still hcall hnext rfl (pending_congr rfl)

theorem still_of_open {c : SysCall} {r : SysReply} {d : Desc} (hcall : c ≠ .accept ∧ c ≠ .arrive)
    (hnext : ∀ n, listenNext n c r = n) (h : s.openAs d = some s') : s.Listening s' c r := by
  obtain ⟨-, -, rfl⟩ := openAs_inv h
  exact .still hcall hnext rfl (pending_congr rfl)

theorem still_self {c : SysCall} {r : SysReply} (hcall : c ≠ .accept ∧ c ≠ .arrive)
    (hnext : ∀ n, listenNext n c r = n) : s.Listening s c r :=
  .still hcall hnext rfl rfl

theorem answers_listening {c : SysCall} {r : SysReply} (h : s.Answers c s' r) :
    s.Listening s' c r := by
  -- one branch of `answer` after the other; only three of them touch the backlog
  unfold Kernel.Answers Kernel.answer at h
  split at h
  · cases h
  split at h
  · exact .collected (collect_inv h).backlog (pending_collect h)
  · obtain ⟨k, rest, hbacklog, -, -, rfl⟩ := acceptAs_inv h
    exact .accepted (by simp [hbacklog]) (pending_congr rfl)
  iterate 2
    · exact still_of_open (by simp) (fun _ => rfl) h
  iterate 3
    · exact still_of_ctl (by simp) (fun _ => rfl) h
  · split at h
    · cases h
      exact .still (by simp) (fun _ => rfl) (release_backlog ..) (pending_congr (release_listenReady ..))
    · cases h
  · cases h
    exact .still (by simp) (fun _ => rfl) (release_backlog ..) (pending_congr (release_listenReady ..))
  iterate 7
    · split at h
      · cases h
        exact still_self (by simp) fun _ => rfl
      · cases h
  iterate 3
    · cases h
      exact still_self (by simp) fun _ => rfl
  · cases h
    exact .still (by simp) (fun _ => rfl) rfl (pending_congr rfl)
  · cases h
    exact .arrived (by simp) rfl
  · cases h
    refine .still (by simp) (fun _ => rfl) ?_ (pending_congr ?_)
    · split <;> rfl
    · split <;> rfl
  iterate 4
    · cases h
  · rename_i hclose _ _ harrive _
    cases h
    cases c with
    | accept => exact .refused rfl
    | arrive => exact absurd rfl harrive
    | _ => exact still_self (by simp) fun _ => rfl
  · cases h

end Kernel

/-! ## Counting over a run -/

/-- The steps that leave a connection without an event: it arrives while the event of
    `listen_fd` is still queued, or the `accept` that its event led to fails. -/
def Strands {W : Type} (e : NetEntry W) : Prop :=
  (e.call = .arrive ∧ e.pre.listenReady = true) ∨ (e.call = .accept ∧ e.reply = .failed)

instance {W : Type} : DecidablePred (Strands (W := W)) := fun _ => instDecidableOr

section Runs

variable {W : Type} [DecidableEq W] {rounds : W → Nat} {script : List Outside}
  {log : List (NetEntry W)} {s : Kernel}

/-- The events of `listen_fd` that a worker has collected and not answered with an
    `accept` yet. -/
def inHand (log : List (NetEntry W)) (w : W) : Nat :=
  (ownTrace log (some w)).foldl (fun n x => listenNext n x.1 x.2) 0

theorem inHand_snoc (log : List (NetEntry W)) (w : W) (c : SysCall) (r : SysReply)
    (pre post : Kernel) : inHand (log ++ [⟨some w, c, r, pre, post⟩]) =
      Function.update (inHand log) w (listenNext (inHand log w) c r) :=
  foldl_ownTrace_snoc (Option.some_injective W) (fun n x => listenNext n x.1 x.2) 0 log w c r
    pre post

theorem inHand_snoc_outside (log : List (NetEntry W)) (c : SysCall) (r : SysReply)
    (pre post : Kernel) : inHand (log ++ [⟨none, c, r, pre, post⟩]) = inHand log := by
  funext w
  rw [inHand, ownTrace_snoc_other log (e := ⟨none, c, r, pre, post⟩) (by simp)]
  rfl

/-- What a worker has in hand when it accepts, and when it waits. -/
theorem listens_of_run (hrun : NetRun rounds script log s) {w : W} {c : SysCall}
    (hissue : (residual (party rounds script) log (some w)).issue = some c) :
    (c = .accept → 0 < inHand log w) ∧ (c = .epollWait → inHand log w = 0) := by
  have hworker : Conforms (listenProtocol fun _ _ => True) 0 (party rounds script (some w)) :=
    thFunc_listens
  exact (hworker.interleaved hrun).allowed hissue

variable [Fintype W]

/-- The events that all workers have in hand. -/
def allInHand (log : List (NetEntry W)) : Nat := ∑ w, inHand log w

theorem allInHand_snoc (log : List (NetEntry W)) (w : W) (c : SysCall) (r : SysReply)
    (pre post : Kernel) :
    allInHand (log ++ [⟨some w, c, r, pre, post⟩]) + inHand log w =
      allInHand log + listenNext (inHand log w) c r := by
  have hsplit := Finset.add_sum_erase Finset.univ (inHand log) (Finset.mem_univ w)
  rw [allInHand, inHand_snoc, Finset.sum_update_of_mem (Finset.mem_univ w),
    Finset.sdiff_singleton_eq_erase, allInHand]
  omega

theorem allInHand_snoc_outside (log : List (NetEntry W)) (c : SysCall) (r : SysReply)
    (pre post : Kernel) :
    allInHand (log ++ [⟨none, c, r, pre, post⟩]) = allInHand log := by
  rw [allInHand, inHand_snoc_outside]
  rfl

/-- How many steps of the run have left a connection without an event. -/
def strandings (log : List (NetEntry W)) : Nat := log.countP (Strands ·)

omit [DecidableEq W] [Fintype W] in
theorem strandings_snoc (log : List (NetEntry W)) (e : NetEntry W) :
    strandings (log ++ [e]) = strandings log + if Strands e then 1 else 0 := by
  simp [strandings, List.countP_append, List.countP_cons]

/-- Every connection in the backlog has an event that is queued, or one that a worker has
    in hand, or it was left without. -/
theorem backlog_length (hrun : NetRun rounds script log s) :
    s.backlog.length = s.pending + allInHand log + strandings log := by
  induction hrun with
  | start => simp [Kernel.pending, allInHand, inHand, strandings, ownTrace]
  | @step log s s' i c r hprev hissue hcall ih =>
    -- what the caller has in hand before and behind the call
    have hhand : ∃ n, (c = .accept → 0 < n) ∧ (c = .epollWait → n = 0) ∧
        allInHand (log ++ [⟨i, c, r, s, s'⟩]) + n = allInHand log + listenNext n c r := by
      cases i with
      | none =>
        have hout : c ≠ .accept ∧ c ≠ .epollWait ∧ listenNext 0 c r = 0 := by
          rcases outside_of_run hprev hissue with rfl | ⟨k, rfl⟩
          · exact ⟨by simp, by simp, rfl⟩
          · exact ⟨by simp, by simp, rfl⟩
        refine ⟨0, fun h => absurd h hout.1, fun h => absurd h hout.2.1, ?_⟩
        rw [allInHand_snoc_outside, hout.2.2]
      | some w =>
        obtain ⟨haccept, hwait⟩ := listens_of_run hprev hissue
        exact ⟨inHand log w, haccept, hwait, allInHand_snoc log w c r s s'⟩
    obtain ⟨n, haccept, hwait, hall⟩ := hhand
    rw [strandings_snoc]
    cases Kernel.answers_listening hcall with
    | @collected l hbacklog hpending =>
      have hnone : ¬ Strands (⟨i, .epollWait, .events l, s, s'⟩ : NetEntry W) := by simp [Strands]
      have hn := hwait rfl
      rw [if_neg hnone, hbacklog]
      simp only [listenNext] at hall
      omega
    | @accepted d hbacklog hpending =>
      have hnone : ¬ Strands (⟨i, .accept, .opened d, s, s'⟩ : NetEntry W) := by simp [Strands]
      have hn := haccept rfl
      rw [if_neg hnone]
      simp only [listenNext] at hall
      omega
    | refused hsame =>
      have hone : Strands (⟨i, .accept, .failed, s, s'⟩ : NetEntry W) := by simp [Strands]
      have hn := haccept rfl
      subst hsame
      rw [if_pos hone]
      simp only [listenNext] at hall
      omega
    | arrived hbacklog hpending =>
      have hiff : Strands (⟨i, .arrive, r, s, s'⟩ : NetEntry W) ↔ s.listenReady = true := by
        simp [Strands]
      simp only [listenNext] at hall
      rw [if_congr hiff rfl rfl]
      simp only [Kernel.pending] at ih hpending ⊢
      omega
    | still hc hnext hbacklog hpending =>
      have hnone : ¬ Strands (⟨i, c, r, s, s'⟩ : NetEntry W) := by simp [Strands, hc]
      rw [hnext] at hall
      rw [if_neg hnone, hbacklog, hpending]
      omega

end Runs

/-! ## Quiescent states -/

/-- All workers are blocked in `epoll_wait`, and no event is queued. -/
structure Quiescent {W : Type} [DecidableEq W] (rounds : W → Nat) (script : List Outside)
    (log : List (NetEntry W)) (s : Kernel) : Prop where
  waiting : ∀ w, (residual (party rounds script) log (some w)).issue = some .epollWait
  unready : s.listenReady = false
  unqueued : ∀ k, s.interest k ≠ .queued

/-- For any number of workers, any arrivals and any interleaving: in a quiescent state the
    backlog is empty if and only if no connection has arrived while the event of
    `listen_fd` was queued, and no `accept` has failed. -/
theorem backlog_empty_iff {W : Type} [DecidableEq W] [Fintype W] (rounds : W → Nat)
    (script : List Outside) (log : List (NetEntry W)) (s : Kernel)
    (hrun : NetRun rounds script log s) (hquiet : Quiescent rounds script log s) :
    s.backlog = [] ↔ ∀ e ∈ log, ¬ Strands e := by
  have hlength := backlog_length hrun
  have hpending : s.pending = 0 := by simp [Kernel.pending, hquiet.unready]
  have hhand : allInHand log = 0 :=
    Finset.sum_eq_zero fun w _ => (listens_of_run hrun (hquiet.waiting w)).2 rfl
  rw [hpending, hhand, Nat.zero_add] at hlength
  rw [← List.length_eq_zero_iff, hlength, strandings, List.countP_eq_zero]
  simp only [decide_eq_true_eq]

/-- Worker `w` accepts one connection, and waits again. -/
def acceptsOne (w : Bool) (d : Desc) : List (Option Bool × SysReply) :=
  [(some w, .events [.listen]), (some w, .opened d), (some w, .done 0), (some w, .done 0),
   (some w, .done 0)]

/-- Play these turns with two workers, while two clients connect. -/
def playArrivals (turns : List (Option Bool × SysReply)) :
    Option (List (NetEntry Bool) × Kernel) :=
  playReplies Kernel.answer (party (fun _ => 3) [.arrive, .arrive]) [] {} turns

/-- The two connections, each accepted before the other arrives. -/
def oneByOne : List (Option Bool × SysReply) :=
  (none, .done 0) :: acceptsOne true ⟨5, .conn 0⟩ ++
    (none, .done 0) :: acceptsOne false ⟨6, .conn 1⟩

/-- Both arrive before the event of `listen_fd` is collected. -/
def together : List (Option Bool × SysReply) :=
  [(none, .done 0), (none, .done 0)] ++ acceptsOne true ⟨5, .conn 0⟩

theorem playArrivals_run {turns : List (Option Bool × SysReply)}
    {x : List (NetEntry Bool) × Kernel} (h : playArrivals turns = some x) :
    NetRun (fun _ => 3) [.arrive, .arrive] x.1 x.2 :=
  interleaved_of_playReplies (fun _ _ _ _ h => h) .start h

/-- What is to be seen of a quiescent state. -/
def LooksQuiet (x : List (NetEntry Bool) × Kernel) : Prop :=
  (∀ w, (residual (party (fun _ : Bool => 3) [.arrive, .arrive]) x.1 (some w)).issue =
    some .epollWait) ∧ x.2.listenReady = false ∧ ∀ k < x.2.nextConn, x.2.interest k ≠ .queued

instance : DecidablePred LooksQuiet := fun _ => instDecidableAnd

theorem quiescent_of_looks {x : List (NetEntry Bool) × Kernel}
    (hrun : NetRun (fun _ => 3) [.arrive, .arrive] x.1 x.2) (h : LooksQuiet x) :
    Quiescent (fun _ => 3) [.arrive, .arrive] x.1 x.2 := by
  refine ⟨h.1, h.2.1, fun k => ?_⟩
  by_cases hk : k < x.2.nextConn
  · exact h.2.2 k hk
  · have hnone := ((sane_of_run hrun).fresh k (Or.inr (Nat.le_of_not_lt hk))).1
    simp [hnone]

/-- Connections that come one at a time are accepted. -/
theorem backlog_empty_one_by_one :
    ∃ log s, NetRun (fun _ : Bool => 3) [.arrive, .arrive] log s ∧
      Quiescent (fun _ : Bool => 3) [.arrive, .arrive] log s ∧ s.nextConn = 2 ∧ s.backlog = [] := by
  have hplay : (playArrivals oneByOne).any (fun x =>
      decide (LooksQuiet x ∧ x.2.nextConn = 2 ∧ ∀ e ∈ x.1, ¬ Strands e)) = true := by
    decide +kernel
  obtain ⟨⟨log, s⟩, hrun, hfacts⟩ := (Option.any_eq_true _ _).mp hplay
  obtain ⟨hlooks, htwo, hnone⟩ := of_decide_eq_true hfacts
  have hrun := playArrivals_run hrun
  have hquiet := quiescent_of_looks hrun hlooks
  exact ⟨log, s, hrun, hquiet, htwo, (backlog_empty_iff _ _ log s hrun hquiet).mpr hnone⟩

/-- Of two connections that come together, one is left waiting. -/
theorem second_connection_stranded :
    ∃ log s, NetRun (fun _ : Bool => 3) [.arrive, .arrive] log s ∧
      (∀ e ∈ log, e.reply ≠ .failed) ∧
      Quiescent (fun _ : Bool => 3) [.arrive, .arrive] log s ∧ s.backlog = [1] := by
  have hplay : (playArrivals together).any (fun x =>
      decide (LooksQuiet x ∧ (∀ e ∈ x.1, e.reply ≠ .failed) ∧ x.2.backlog = [1])) = true := by
    decide +kernel
  obtain ⟨⟨log, s⟩, hrun, hfacts⟩ := (Option.any_eq_true _ _).mp hplay
  obtain ⟨hlooks, hgood, hleft⟩ := of_decide_eq_true hfacts
  have hrun := playArrivals_run hrun
  exact ⟨log, s, hrun, hgood, quiescent_of_looks hrun hlooks, hleft⟩

end MeshChat.Net
