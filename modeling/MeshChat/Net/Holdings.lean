import MeshChat.Net.Workers

/-! # What a worker holds

    `EPOLLONESHOT` gives a connection to one worker at a time, as long as every path
    that closes it also leaves it alone from then on.

    * `Holding`: the descriptors a worker has been given and not given back, from its
      own calls. `broken` is set where the code goes on with a connection that it has
      closed: when the reject frame of `handle_req` cannot be written, and when the file
      of an upload cannot be created.
    * `Owns`: from here on, a program only makes calls on descriptors that are held.
    * `thFunc_owns`: that is so for every worker, whatever its calls return, unless it is
      broken.
-/

namespace MeshChat.Net

open Prog

/-! ## What a worker holds -/

/-- The descriptors that a worker holds. -/
structure Holding where
  held : List Desc := []
  broken : Bool := false
  deriving DecidableEq

/-- The connections that are handled for these events. -/
def clients (l : List Ready) : List Desc :=
  l.filterMap fun e => match e with
    | .client d true => some d
    | _ => none

@[simp] theorem clients_nil : clients [] = [] := rfl

@[simp] theorem clients_listen (l : List Ready) : clients (.listen :: l) = clients l := rfl

@[simp] theorem clients_true (d : Desc) (l : List Ready) :
    clients (.client d true :: l) = d :: clients l := rfl

@[simp] theorem clients_false (d : Desc) (l : List Ready) :
    clients (.client d false :: l) = clients l := rfl

/-- What a worker holds behind a call. A connection is given away by `close`, by adding
    it to epoll and by re-arming it. -/
def Holding.next (t : Holding) (c : SysCall) (r : SysReply) : Holding :=
  if t.broken then t
  else match c with
  | .epollWait =>
    match r with
    | .events l => { t with held := clients l }
    | _ => t
  | .accept | .openRead =>
    match r with
    | .opened d => { t with held := d :: t.held }
    | _ => t
  | .create =>
    match r with
    | .opened d => { t with held := d :: t.held }
    | _ => { t with broken := true }
  | .write _ .reject => if r = .failed then { t with broken := true } else t
  | .close d => { t with held := t.held.erase d }
  | .ctlAdd d | .ctlMod d => if r = .failed then t else { t with held := t.held.erase d }
  | _ => t

/-- A call is made on a descriptor that is held, and no event is waited for before the
    last ones are dealt with. -/
def Holding.Allows (t : Holding) (c : SysCall) : Prop :=
  t.broken = true ∨ (∀ d ∈ c.desc, d ∈ t.held) ∧ (c = .epollWait → t.held = [])

def ownProtocol {α : Type} (Q : Holding → α → Prop) : Protocol SysCall SysReply α Holding where
  allows := Holding.Allows
  next := Holding.next
  done t a := t.broken = true ∨ Q t a

/-- From `t` on, the program keeps to what the worker holds, and ends as `Q` says. -/
abbrev Owns {α : Type} (t : Holding) (p : NetProg α) (Q : Holding → α → Prop) : Prop :=
  Conforms (ownProtocol Q) t p

section Owns

variable {α β : Type} {Q : Holding → α → Prop}

/-- Nothing is asked of a worker that is broken. -/
theorem owns_broken {t : Holding} (ht : t.broken = true) (p : NetProg α) : Owns t p Q := by
  induction p with
  | ret a => exact Or.inl ht
  | call c k ih =>
    refine ⟨Or.inl ht, fun r => ?_⟩
    have hnext : (ownProtocol Q).next t c r = t := if_pos ht
    rw [hnext]
    exact ih r
  | drain c more seen k ih =>
    exact ⟨fun i => ⟨Or.inl ht, fun r => if_pos ht⟩, fun rows r => ih rows r⟩

theorem Owns.bind {P : Holding → β → Prop} {t : Holding} {p : NetProg β} {k : β → NetProg α}
    (hp : Owns t p P) (hk : ∀ t' b, P t' b → Owns t' (k b) Q) : Owns t (p >>= k) Q := by
  refine Conforms.bind (Conforms.mono hp (fun _ _ h => h) (fun _ _ _ => rfl) fun t' b h => ?_)
  rcases h with hbroken | h
  · exact owns_broken hbroken _
  · exact hk t' b h

theorem owns_ret {t : Holding} {a : α} (h : Q t a) : Owns t (ret a) Q := Or.inr h

/-- A call on a descriptor that is held. -/
theorem owns_call {t : Holding} {c : SysCall} {k : SysReply → NetProg α}
    (hdesc : ∀ d ∈ c.desc, d ∈ t.held) (hwait : c ≠ .epollWait)
    (hk : ∀ r, Owns (t.next c r) (k r) Q) : Owns t (call c k) Q :=
  ⟨Or.inr ⟨hdesc, fun h => absurd h hwait⟩, hk⟩

end Owns

/-! ## The programs -/

section Programs

variable {d f : Desc} {rest : List Desc}

theorem closeSock_owns {α : Type} {Q : Holding → α → Prop} {k : Unit → NetProg α}
    (hk : Owns ⟨rest, false⟩ (k ()) Q) : Owns ⟨d :: rest, false⟩ (closeSock d >>= k) Q := by
  simp only [closeSock, invoke_bind, call_bind]
  refine owns_call (by simp [SysCall.desc]) (by simp) fun _ => ?_
  refine owns_call (by simp [SysCall.desc, Holding.next]) (by simp) fun _ => ?_
  refine owns_call (by simp [SysCall.desc, Holding.next]) (by simp) fun _ => ?_
  refine owns_call (by simp [SysCall.desc, Holding.next]) (by simp) fun _ => ?_
  simpa [Holding.next] using hk

/-- The handlers of a request: the connection is closed if the value is true, and still
    held otherwise. -/
def Kept (d : Desc) (rest : List Desc) (t : Holding) (closeConn : Bool) : Prop :=
  t = ⟨if closeConn then rest else d :: rest, false⟩

theorem sendResponse_owns : Owns ⟨d :: rest, false⟩ (sendResponse d) (Kept d rest) := by
  simp only [sendResponse, invoke_bind]
  refine owns_call (by simp [SysCall.desc]) (by simp) fun r => ?_
  simp only [conforms_ite]
  refine ⟨fun _ => closeSock_owns (owns_ret rfl), fun _ => owns_ret rfl⟩

theorem reject_owns : Owns ⟨d :: rest, false⟩ (reject d) (Kept d rest) := by
  simp only [reject, invoke_bind]
  refine owns_call (by simp [SysCall.desc]) (by simp) fun r => ?_
  by_cases hr : r = .failed
  · -- here `close_conn` should be set
    exact owns_broken (by simp [Holding.next, hr]) _
  · rw [if_neg hr]
    exact owns_ret (by simp [Holding.next, hr, Kept])

/-- A file that is open is closed first. -/
theorem closeFile_owns {α : Type} {Q : Holding → α → Prop} {held : List Desc}
    {k : SysReply → NetProg α} (hk : ∀ r, Owns ⟨held, false⟩ (k r) Q) :
    Owns ⟨f :: held, false⟩ (call (.close f) k) Q := by
  refine owns_call (by simp [SysCall.desc]) (by simp) fun r => ?_
  simpa [Holding.next] using hk r

theorem fileErrorHandling_owns :
    Owns ⟨f :: d :: rest, false⟩ (fileErrorHandling d f) (Kept d rest) :=
  closeFile_owns fun _ => closeSock_owns (owns_ret rfl)

theorem fileReceived_owns : Owns ⟨f :: d :: rest, false⟩ (fileReceived d f) (Kept d rest) :=
  closeFile_owns fun _ => sendResponse_owns

theorem receiveLoop_owns {rounds fsize : Nat} :
    Owns ⟨f :: d :: rest, false⟩ (receiveLoop d f rounds fsize) (Kept d rest) := by
  induction rounds generalizing fsize with
  | zero => exact fileReceived_owns
  | succ rounds ih =>
    simp only [receiveLoop, invoke_bind]
    refine owns_call (by simp [SysCall.desc]) (by simp) fun p => ?_
    simp only [conforms_ite]
    refine ⟨fun _ => closeFile_owns fun _ => sendResponse_owns, fun _ =>
      ⟨fun _ => fileErrorHandling_owns, fun _ => ?_⟩⟩
    refine owns_call (by simp [SysCall.desc, Holding.next]) (by simp) fun r => ?_
    cases r.count with
    | none =>
      simp only [conforms_ite]
      exact ⟨fun _ => fileReceived_owns, fun _ => fileErrorHandling_owns⟩
    | some nbytes =>
      simp only [conforms_ite]
      refine ⟨fun _ => fileErrorHandling_owns, fun _ => ?_⟩
      refine owns_call (by simp [SysCall.desc, Holding.next]) (by simp) fun w => ?_
      simp only [conforms_ite]
      exact ⟨fun _ => fileErrorHandling_owns, fun _ => ⟨fun _ => fileReceived_owns,
        fun _ => ⟨fun _ => ih, fun _ => fileReceived_owns⟩⟩⟩

theorem receiveFile_owns {contentLen : Nat} :
    Owns ⟨d :: rest, false⟩ (receiveFile d contentLen) (Kept d rest) := by
  simp only [receiveFile, invoke_bind]
  refine owns_call (by simp [SysCall.desc]) (by simp) fun r => ?_
  cases r with
  | opened f => exact receiveLoop_owns
  -- the connection is closed, and answered on
  | _ => exact owns_broken rfl _

theorem fileSent_owns : Owns ⟨f :: d :: rest, false⟩ (fileSent f) (Kept d rest) :=
  closeFile_owns fun _ => owns_ret rfl

theorem sendLoop_owns {rounds fsize : Nat} :
    Owns ⟨f :: d :: rest, false⟩ (sendLoop d f rounds fsize) (Kept d rest) := by
  induction rounds generalizing fsize with
  | zero => exact fileSent_owns
  | succ rounds ih =>
    simp only [sendLoop, invoke_bind]
    refine owns_call (by simp [SysCall.desc]) (by simp) fun r => ?_
    cases r.count with
    | none => exact fileSent_owns
    | some nbytes =>
      refine owns_call (by simp [SysCall.desc, Holding.next]) (by simp) fun p => ?_
      simp only [conforms_ite]
      refine ⟨fun _ => fileSent_owns, fun _ => ⟨fun _ => fileSent_owns, fun _ => ?_⟩⟩
      refine owns_call (by simp [SysCall.desc, Holding.next]) (by simp) fun w => ?_
      simp only [conforms_ite]
      exact ⟨fun _ => fileSent_owns, fun _ => ⟨fun _ => fileSent_owns,
        fun _ => ⟨fun _ => ih, fun _ => fileSent_owns⟩⟩⟩

theorem sendFile_owns : Owns ⟨d :: rest, false⟩ (sendFile d) (Kept d rest) := by
  simp only [sendFile, invoke_bind]
  refine owns_call (by simp [SysCall.desc]) (by simp) fun r => ?_
  simp only [conforms_ite]
  refine ⟨fun _ => closeSock_owns (owns_ret rfl), fun _ => ?_⟩
  refine owns_call (by simp [SysCall.desc]) (by simp) fun r => ?_
  cases r with
  | opened f =>
    refine owns_call (by simp [SysCall.desc, Holding.next]) (by simp) fun sb => ?_
    cases sb.count with
    | none => exact fileSent_owns
    | some fsize => exact sendLoop_owns
  | _ => exact owns_ret rfl

theorem receive_owns {rounds nbytes : Nat} :
    Owns ⟨d :: rest, false⟩ (receive d rounds nbytes) fun t filled => Kept d rest t (!filled) := by
  induction rounds generalizing nbytes with
  | zero => exact owns_ret rfl
  | succ rounds ih =>
    simp only [receive, invoke_bind]
    refine owns_call (by simp [SysCall.desc]) (by simp) fun r => ?_
    cases r.count with
    | none =>
      simp only [conforms_ite]
      exact ⟨fun _ => owns_ret rfl, fun _ => closeSock_owns (owns_ret rfl)⟩
    | some n =>
      simp only [conforms_ite]
      exact ⟨fun _ => closeSock_owns (owns_ret rfl), fun _ => ⟨fun _ => ih, fun _ => owns_ret rfl⟩⟩

theorem serveRequest_owns (r : SysReply) :
    Owns ⟨d :: rest, false⟩ (serveRequest d r) (Kept d rest) := by
  unfold serveRequest
  split
  · exact reject_owns
  · exact reject_owns
  · refine owns_call (by simp [SysCall.desc]) (by simp) fun _ => ?_
    exact closeFile_owns fun _ => owns_ret rfl
  · exact receiveFile_owns
  · exact sendFile_owns
  · exact sendResponse_owns

/-- Behind `handle_req`, the connection is not held any more. -/
theorem handleReq_owns :
    Owns ⟨d :: rest, false⟩ (handleReq d) fun t _ => t = ⟨rest, false⟩ := by
  simp only [handleReq, invoke_bind]
  refine Owns.bind receive_owns fun t filled ht => ?_
  rw [Kept] at ht
  subst ht
  cases filled with
  | false => exact owns_ret rfl
  | true =>
    refine owns_call (by simp [SysCall.desc]) (by simp) fun _ => ?_
    refine owns_call (by simp [SysCall.desc]) (by simp) fun v => ?_
    refine Owns.bind (serveRequest_owns v) fun t closeConn ht => ?_
    rw [Kept] at ht
    subst ht
    cases closeConn with
    | true => exact owns_ret rfl
    | false =>
      refine owns_call (by simp [SysCall.desc]) (by simp) fun r => ?_
      by_cases hr : r = .failed
      · simp only [hr, if_true]
        exact Owns.bind (k := ret) (closeSock_owns (k := ret) (owns_ret rfl)) fun _ _ => owns_ret
      · simp only [hr, if_false]
        exact owns_ret (by simp [Holding.next, hr])

theorem acceptNewClient_owns :
    Owns ⟨rest, false⟩ acceptNewClient fun t _ => t = ⟨rest, false⟩ := by
  simp only [acceptNewClient, invoke_bind]
  refine owns_call (by simp [SysCall.desc]) (by simp) fun r => ?_
  cases r with
  | opened d =>
    have hgone : Owns ⟨d :: rest, false⟩ (call (.close d) fun _ => call .exit fun _ => ret ())
        fun t _ => t = ⟨rest, false⟩ :=
      closeFile_owns fun _ => owns_call (by simp [SysCall.desc]) (by simp) fun _ => owns_ret rfl
    refine owns_call (by simp [SysCall.desc, Holding.next]) (by simp) fun r => ?_
    simp only [conforms_ite]
    refine ⟨fun _ => hgone, fun _ => ?_⟩
    refine owns_call (by simp [SysCall.desc, Holding.next]) (by simp) fun r => ?_
    simp only [conforms_ite]
    refine ⟨fun _ => hgone, fun _ => ?_⟩
    refine owns_call (by simp [SysCall.desc, Holding.next]) (by simp) fun r => ?_
    by_cases hr : r = .failed
    · simp only [hr, if_true]
      exact closeFile_owns fun _ => owns_ret rfl
    · simp only [hr, if_false]
      exact owns_ret (by simp [Holding.next, hr])
  | _ => exact owns_ret rfl

theorem serveEvents_owns {l : List Ready} :
    Owns ⟨clients l, false⟩ (serveEvents l) fun t _ => t = {} := by
  induction l with
  | nil => exact owns_ret rfl
  | cons e l ih =>
    cases e with
    | listen =>
      exact Owns.bind acceptNewClient_owns fun t _ ht => by
        subst ht
        exact ih
    | client d epollin =>
      cases epollin with
      | true =>
        exact Owns.bind handleReq_owns fun t _ ht => by
          subst ht
          exact ih
      | false => exact ih

/-- Every worker keeps to what it holds. -/
theorem thFunc_owns {rounds : Nat} : Owns {} (thFunc rounds) fun _ _ => True := by
  induction rounds with
  | zero => exact owns_ret trivial
  | succ rounds ih =>
    simp only [thFunc, invoke_bind]
    refine ⟨Or.inr ⟨by simp [SysCall.desc], fun _ => rfl⟩, fun r => ?_⟩
    cases r with
    | events l =>
      exact Owns.bind serveEvents_owns fun t _ ht => by
        subst ht
        exact ih
    | _ => exact owns_ret trivial

end Programs

end MeshChat.Net
