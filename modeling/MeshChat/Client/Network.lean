import MeshChat.Client.Service
import MeshChat.Lib.Link
import MeshChat.Server.History
import MeshChat.Server.Token

/-! # Clients and server

    Any number of processes use the client library over connections to one server. A
    process may have several connections, and on each there is one call at a time. Calls
    may be given up, and connections may be lost. Others may send whatever requests they
    like. The server handles one request after the other, and the threads of a process do
    not build two requests in `buf` at the same time. What is sent over a connection may
    arrive in pieces that are not the frames. It is torn then: whatever its calls and the
    server read there is some answer and some request.

    * `Network`, `NetEvent`, `network`: the server, the connections and the state of each
      process, and what may happen.
    * `serverSide`, `linkSide`: the server is the server of `Server/Refinement.lean`, and a
      connection is one of `Lib/Link.lean`.
    * `answers_in_turn`: which call an answer that arrives in one piece belongs to when some
      were given up.
    * `calls_linearizable`: when none was, every call takes effect on the board at one point
      between its beginning and its end.
-/

namespace MeshChat

open CMemory Prog

/-! ## Requests of the library -/

/-- The texts fit the frame, keep clear of its delimiter, and have no quote in them. -/
structure RequestCall.Sendable (q : RequestCall) : Prop where
  wellFormed : q.WellFormed
  quoteFree : (⟨q.header, q.body⟩ : Request).QuoteFree

/-- Where the server takes the request of a call. -/
def Service.Call.route : Service.Call → Route
  | .register uname password phone email => .authRegister ⟨uname, password, phone, email⟩
  | .login username password => .authLogin ⟨username, password, none, none⟩
  | .logout => .userLogout
  | .getUserInfo user2Id => .userGetInfo { userId := user2Id }
  | .getUserSearch uname _ _ => .userSearch { uname := uname }
  | .createConv gname => .convCreate { gname := gname }
  | .dropConv convId => .convDrop { convId }
  | .joinConv convId user2Id => .convJoin { convId, userId := user2Id }
  | .quitConv convId user2Id => .convQuit { convId, userId := user2Id }
  | .getConvInfo convId => .convGetInfo { convId }
  | .getConvMembers convId => .convGetMembers { convId }
  | .getConvList _ _ => .convGetList
  | .createChat user2Id => .chatCreate { userId2 := user2Id }
  | .deleteChat chatId => .chatDrop { chatId }
  | .getChatList _ _ => .chatGetList
  | .getChatInfo chatId => .chatGetInfo { chatId }
  | .getMsgAll _ _ convId chatId => .msgGetAll { convId, chatId }
  | .getMsgDetail msgId _ | .getMsgDetailRaw msgId => .msgGetDetail { msgId }
  | .sendMsgText convId chatId replyTo msg =>
    .msgSend { convId, chatId, replyId := replyTo, msgContent := msg }
  | .deleteMsg msgId => .msgDelete { msgId }
  | .notifyNewMsg => .notifyNewMsg
  | .notifyDelMsg convId chatId => .notifyDelMsg { convId, chatId }

/-- The request as the server parses it. -/
def RequestCall.parsed (q : RequestCall) : Request := ⟨q.header, q.body⟩

theorem Service.Call.request_route (f : Service.Call) (a : Service.Auth) :
    (f.request a).parsed.route = some f.route := by
  cases f <;> rfl

section Answers

open Board Service

variable {b b' : Board} {f : Service.Call} {a : Auth} {e : Exchange} {r : ResponseCall}

/-- A frame that the server sends answers the request. -/
theorem Board.Step.answers (h : b.Step e b') (hreq : e.req = some (f.request a).parsed)
    (hsent : e.out.sent = [r]) : f.Answers r := by
  obtain ⟨env, req, ⟨sent, undefined⟩, clean⟩ := e
  obtain rfl : req = _ := hreq
  obtain rfl : sent = _ := hsent
  have herr : ∀ {status : UInt32} {group action : UInt8}, status ≠ 200 → status ≠ 201 →
      f.Answers (.err status group action) := fun h200 h201 => Or.inr ⟨_, _, _, rfl, h200, h201⟩
  cases h with
  | unverified _ _ => exact herr (by decide) (by decide)
  | @handled _ _ route _ _ _ _ hroute h =>
    obtain rfl : f.route = route := Option.some.inj ((f.request_route a).symm.trans hroute)
    have hrefused : ∀ {status : UInt32} {group action : UInt8},
        b.Refuses env (f.request a).parsed.header clean f.route status →
        f.Answers (.err status group action) := by
      rintro status group action (⟨rfl | rfl, -⟩ | ⟨rfl, -⟩ | ⟨rfl, -⟩ | ⟨rfl, -⟩ | ⟨rfl, -⟩) <;>
        exact herr (by decide) (by decide)
    -- by the route: an error, a step of its own, or an answer that is true
    cases f <;> cases h <;>
      first
      | exact hrefused ‹_›
      | exact Or.inl (by constructor)
      | (rename_i htells; cases htells <;> exact Or.inl (by constructor))

/-- Every request of the library is answered with one frame, unless it is undefined what the
    server does. -/
theorem Board.Step.answered (h : b.Step e b') (hreq : e.req = some (f.request a).parsed)
    (hdef : e.out.undefined = false) : ∃ r, e.out.sent = [r] := by
  obtain ⟨env, req, out, clean⟩ := e
  obtain rfl : req = _ := hreq
  cases h with
  | unverified _ _ => exact ⟨_, rfl⟩
  | unknown hroute => exact absurd ((f.request_route a).symm.trans hroute) (by simp)
  | handled _ _ h =>
    have htype : (f.request a).parsed.header.contentType = 0 := by cases f <;> rfl
    cases h with
    | undefined _ => cases hdef
    | aborted hfile _ => exact absurd (htype.symm.trans hfile) (by decide)
    | _ => exact ⟨_, rfl⟩

end Answers

/-! ## The network -/

/-- Which process has which connection, at which address it is, and the key of the server. -/
structure Hosts (ι P : Type) where
  proc : ι → P
  addr : P → UInt32
  cipher : Equiv.Perm Block

/-- The server and its clock, and the processes: their connections, the functions that wait
    there, and `auth.c` of each. Where a connection is torn, something was read that is not one
    frame in one piece. -/
structure Network (ι P : Type) where
  conn : Conn
  clock : Int64
  link : ι → Link RequestCall ResponseCall
  pending : ι → Option Service.Call
  auth : P → Service.Auth
  torn : ι → Bool

inductive NetEvent (ι : Type) where
  | call (i : ι) (f : Service.Call) (q : RequestCall)
  | serve (i : ι) (q : RequestCall) (e : Board.Exchange)
  /-- A call reads a frame in one piece and ends. -/
  | answer (i : ι) (f : Service.Call) (r : ResponseCall) (x : Access (Int × Option Service.Output))
  /-- A call reads something else and ends with what is left of that in its buffer. -/
  | torn (i : ι) (f : Service.Call) (x : Access (Int × Option Service.Output))
  /-- The server reads something else on a connection than one frame. -/
  | misread (i : ι) (e : Board.Exchange)
  /-- A call ends with 408 or -1. -/
  | giveUp (i : ι) (f : Service.Call)
  | lost (i : ι)
  /-- A request that does not come from the library. -/
  | other (e : Board.Exchange)
  | restart

variable {ι P : Type} [DecidableEq ι] [DecidableEq P]

/-- What may happen. The clock of the server does not run backwards. -/
inductive Network.Step (h : Hosts ι P) (s : Network ι P) : NetEvent ι → Network ι P → Prop
  | call {i : ι} {f : Service.Call} {q : RequestCall} {l : Link RequestCall ResponseCall}
      (hq : q = f.request (s.auth (h.proc i))) (hsend : q.Sendable)
      (hlink : Link.Step (s.link i) (.call q) l) :
      Step h s (.call i f q) { s with
        link := Function.update s.link i l
        pending := Function.update s.pending i (some f) }
  | serve {i : ι} {q : RequestCall} {prior frame : Frame} {l₀ copies : List Nat} {env : Env}
      {now : Int64} {req : Option Request} {out : Handled} {clean : Bool} {c : Conn}
      {l : Link RequestCall ResponseCall} (hwhole : s.torn i = false)
      (hmake : q.make prior = .ok frame l₀) (hparse : requestParse frame = .ok req copies)
      (hnow : s.clock ≤ now)
      (hrun : ServerStep s.conn (some ⟨env.atTime h.cipher now (h.addr (h.proc i)) q.header, req,
        out, clean⟩) c)
      (hlink : Link.Step (s.link i) (.serve q out.sent) l) :
      Step h s (.serve i q ⟨env.atTime h.cipher now (h.addr (h.proc i)) q.header, req, out, clean⟩)
        { s with conn := c, clock := now, link := Function.update s.link i l }
  | answer {i : ι} {f : Service.Call} {r : ResponseCall} {prior : Frame} {behind : List UInt8}
      {timedOut : Bool} {x : Access (Int × Option Service.Output)}
      {l : Link RequestCall ResponseCall} (hwhole : s.torn i = false) (hf : s.pending i = some f)
      (hx : x = f.outcome r prior behind timedOut) (hlink : Link.Step (s.link i) (.reply r) l) :
      Step h s (.answer i f r x) { s with
        link := Function.update s.link i l
        pending := Function.update s.pending i none
        auth := Function.update s.auth (h.proc i) ((s.auth (h.proc i)).after x) }
  -- whichever bytes are on their way, and whatever `recv` returns
  | torn {i : ι} {f : Service.Call} {results : List Recv} {unread : List UInt8} {timedOut : Bool}
      {x : Access (Int × Option Service.Output)} {l : Link RequestCall ResponseCall}
      (hf : s.pending i = some f) (hx : x = f.received results unread timedOut)
      (hlink : Link.Step (s.link i) .giveUp l) :
      Step h s (.torn i f x) { s with
        link := Function.update s.link i l
        pending := Function.update s.pending i none
        auth := Function.update s.auth (h.proc i) ((s.auth (h.proc i)).after x)
        torn := Function.update s.torn i true }
  | misread {i : ι} {e : Board.Exchange} {c : Conn} (hrun : ServerStep s.conn (some e) c) :
      Step h s (.misread i e) { s with conn := c, torn := Function.update s.torn i true }
  | giveUp {i : ι} {f : Service.Call} {l : Link RequestCall ResponseCall}
      (hf : s.pending i = some f) (hlink : Link.Step (s.link i) .giveUp l) :
      Step h s (.giveUp i f) { s with
        link := Function.update s.link i l
        pending := Function.update s.pending i none }
  | lost {i : ι} {l : Link RequestCall ResponseCall} (hlink : Link.Step (s.link i) .lost l) :
      Step h s (.lost i) { s with link := Function.update s.link i l }
  | other {e : Board.Exchange} {c : Conn} (hrun : ServerStep s.conn (some e) c) :
      Step h s (.other e) { s with conn := c }
  /-- All connections go with the server. -/
  | restart : Step h s .restart { s with
        conn := { db := s.conn.saved.getD s.conn.db }
        link := fun i => { s.link i with live := false, requests := [] } }

/-- The network, before anybody has called anything. -/
def network (h : Hosts ι P) : Machine (Network ι P) (NetEvent ι) where
  start s := s.conn = { db := {} } ∧ 0 ≤ s.clock ∧ (∀ i, s.link i = {}) ∧
    (∀ i, s.pending i = none) ∧ (∀ p, s.auth p = Service.clearAuth) ∧ ∀ i, s.torn i = false
  step := Network.Step h

namespace NetEvent

/-- What the server sees. -/
def onServer : NetEvent ι → Option (Option Board.Exchange)
  | serve _ _ e | misread _ e | other e => some (some e)
  | restart => some none
  | _ => none

/-- What one connection sees. A call that reads something else than a frame has given up
    waiting for it. -/
def onLink (i : ι) : NetEvent ι → Option (LinkEvent RequestCall ResponseCall)
  | call j _ q => if j = i then some (.call q) else none
  | serve j q e => if j = i then some (.serve q e.out.sent) else none
  | answer j _ r _ => if j = i then some (.reply r) else none
  | giveUp j _ | torn j _ _ => if j = i then some .giveUp else none
  | lost j => if j = i then some .lost else none
  | misread _ _ | other _ => none
  | restart => some .lost

end NetEvent

section Sides

variable (h : Hosts ι P)

/-- The server alone. -/
def serverSide : Simulation (network h) server where
  inv _ := True
  abs s := s.conn
  obs := NetEvent.onServer
  inv_start _ _ := trivial
  inv_step _ _ _ _ _ := trivial
  start _ hs := hs.1
  visible := by
    rintro s e s' d - hstep hd
    cases hstep with
    | serve _ _ _ _ hrun _ =>
      cases hd
      exact hrun
    | misread hrun =>
      cases hd
      exact hrun
    | other hrun =>
      cases hd
      exact hrun
    | restart =>
      cases hd
      exact .restart
    | _ => cases hd
  stutter := by
    rintro s e s' - hstep hnone
    cases hstep with
    | serve => cases hnone
    | misread => cases hnone
    | other => cases hnone
    | restart => cases hnone
    | _ => rfl

/-- One connection alone. -/
def linkSide (i : ι) : Simulation (network h) (link RequestCall ResponseCall) where
  inv _ := True
  abs s := s.link i
  obs := NetEvent.onLink i
  inv_start _ _ := trivial
  inv_step _ _ _ _ _ := trivial
  start _ hs := hs.2.2.1 i
  visible := by
    rintro s e s' d - hstep hd
    have hmine : ∀ {j : ι} {d' : LinkEvent RequestCall ResponseCall}
        {l : Link RequestCall ResponseCall}, (if j = i then some d' else none) = some d →
        Link.Step (s.link j) d' l → Link.Step (s.link i) d (Function.update s.link j l i) := by
      intro j d' l hd hlink
      by_cases hj : j = i
      · subst hj
        rw [if_pos rfl] at hd
        rw [Function.update_self, ← Option.some.inj hd]
        exact hlink
      · rw [if_neg hj] at hd
        cases hd
    cases hstep with
    | call _ _ hlink => exact hmine hd hlink
    | serve _ _ _ _ _ hlink => exact hmine hd hlink
    | answer _ _ _ hlink => exact hmine hd hlink
    | torn _ _ hlink => exact hmine hd hlink
    | giveUp _ hlink => exact hmine hd hlink
    | lost hlink => exact hmine hd hlink
    | misread _ => cases hd
    | other _ => cases hd
    | restart =>
      cases hd
      exact .lost
  stutter := by
    rintro s e s' - hstep hnone
    have hothers : ∀ {j : ι} {d' : LinkEvent RequestCall ResponseCall}
        {l : Link RequestCall ResponseCall}, (if j = i then some d' else none) = none →
        Function.update s.link j l i = s.link i := by
      intro j d' l hnone
      have hj : j ≠ i := by
        rintro rfl
        rw [if_pos rfl] at hnone
        cases hnone
      exact Function.update_of_ne hj.symm _ _
    cases hstep with
    | call => exact hothers hnone
    | serve => exact hothers hnone
    | answer => exact hothers hnone
    | torn => exact hothers hnone
    | giveUp => exact hothers hnone
    | lost => exact hothers hnone
    | misread => rfl
    | other => rfl
    | restart => cases hnone

end Sides

/-! ## Calls that are served -/

section Served

variable {h : Hosts ι P} {s : Network ι P} {i : ι} {q : RequestCall} {now : Int64} {fuel : Nat}
  {env : Env} {c : Conn}

/-- A request that is executed without a failure. -/
theorem network.serve_executed (rest : List RequestCall) {out : Handled}
    (hsend : q.Sendable) (hwhole : s.torn i = false) (hlive : (s.link i).live = true)
    (hq : (s.link i).requests = q :: rest) (hnow : s.clock ≤ now)
    (hexec : execute serve fuel s.conn (handleReq (env.atTime h.cipher now (h.addr (h.proc i))
      q.header) (some q.parsed)) = some (c, out)) :
    (network h).step s (.serve i q ⟨env.atTime h.cipher now (h.addr (h.proc i)) q.header,
      some q.parsed, out, true⟩) { s with
        conn := c
        clock := now
        link := Function.update s.link i { s.link i with
          requests := rest
          replies := (s.link i).replies ++ out.sent } } := by
  obtain ⟨frame, hmake, -⟩ := q.make_laid hsend.wellFormed fun _ => 0
  obtain ⟨copies, hparse⟩ := RequestCall.parse_of_make hsend.wellFormed hmake
  exact .serve hwhole hmake hparse hnow (server_step_of_execute hsend.quoteFree hexec) (.serve hlive hq)

/-- A call on a connection that nothing is on its way on: the request is served, and the answer
    is read. -/
theorem network.round {f : Service.Call} {r : ResponseCall} {o : Service.Output}
    (hidle : s.link i = {}) (hwhole : s.torn i = false) (hq : q = f.request (s.auth (h.proc i)))
    (hsend : q.Sendable) (hnow : s.clock ≤ now)
    (hexec : execute serve fuel s.conn (handleReq (env.atTime h.cipher now (h.addr (h.proc i))
      q.header) (some q.parsed)) = some (c, { sent := [r] }))
    (hdone : f.Succeeds r) (ho : f.output r = some o) (hfits : r.written ≤ responseBodyLen)
    (hlen : ∀ s m, r = .msgGetDetail s m → m.contentLength.toNat ≤ m.msgContent.strlen) :
    ∃ l, (network h).Steps s
      [.call i f q, .serve i q ⟨env.atTime h.cipher now (h.addr (h.proc i)) q.header,
        some q.parsed, { sent := [r] }, true⟩,
        .answer i f r (.ok (r.status.toInt32.toInt, some o) l)] { s with
        conn := c
        clock := now
        pending := Function.update s.pending i none
        auth := Function.update s.auth (h.proc i)
          ((s.auth (h.proc i)).after (.ok (r.status.toInt32.toInt, some o) l)) } := by
  obtain ⟨l, hout⟩ := Service.Call.outcome_done hdone ho hfits hlen (fun _ => 0) [] false
  let called : Network ι P := { s with
    link := Function.update s.link i { waiting := true, requests := [q] }
    pending := Function.update s.pending i (some f) }
  let served : Network ι P := { called with
    conn := c
    clock := now
    link := Function.update called.link i { waiting := true, replies := [r] } }
  have hcall : (network h).step s (.call i f q) called := by
    refine .call hq hsend ?_
    rw [hidle]
    exact .call rfl rfl
  have hserve : (network h).step called (.serve i q ⟨env.atTime h.cipher now (h.addr (h.proc i))
      q.header, some q.parsed, { sent := [r] }, true⟩) served := by
    have hmine : called.link i = { waiting := true, requests := [q] } := Function.update_self ..
    have hstep := network.serve_executed (h := h) (s := called) (i := i) [] hsend hwhole
      (by rw [hmine]) (by rw [hmine]) hnow hexec
    rw [hmine] at hstep
    exact hstep
  have hanswer : (network h).step served (.answer i f r (.ok (r.status.toInt32.toInt, some o) l))
      { served with
        link := Function.update served.link i {}
        pending := Function.update served.pending i none
        auth := Function.update s.auth (h.proc i)
          ((s.auth (h.proc i)).after (.ok (r.status.toInt32.toInt, some o) l)) } := by
    refine .answer hwhole (Function.update_self ..) hout.symm ?_
    have hmine : served.link i = { waiting := true, replies := [r] } := Function.update_self ..
    rw [hmine]
    exact .reply rfl rfl
  refine ⟨l, ?_⟩
  -- nothing is left of the call on the connection
  have hlink : Function.update served.link i {} = s.link := by
    simp [served, called, Function.update_idem, ← hidle]
  have hpending : Function.update served.pending i none = Function.update s.pending i none := by
    simp [served, called]
  rw [hlink, hpending] at hanswer
  exact ((Machine.steps_singleton.mpr hcall).snoc hserve).snoc hanswer

end Served

/-! ### Two processes -/

/-- Two processes at one address, each with one connection. -/
def pair : Hosts Bool Bool where
  proc := id
  addr _ := 0x0100007F
  cipher := Equiv.refl _

def pairStart : Network Bool Bool where
  conn := { db := {} }
  clock := 0
  link _ := {}
  pending _ := none
  auth _ := Service.clearAuth
  torn _ := false

theorem pair_start : (network pair).start pairStart :=
  ⟨rfl, by decide, fun _ => rfl, fun _ => rfl, fun _ => rfl, fun _ => rfl⟩

def pairRegister (uname : String) : Service.Call :=
  .register (.ofBytes (ascii uname)) (.ofBytes (ascii "secret")) (.ofBytes (ascii "123"))
    (.ofBytes (ascii "a@b"))

def pairLogin : Service.Call := .login (.ofBytes (ascii "an")) (.ofBytes (ascii "secret"))

def pairToken (userId : UInt32) : Token := makeToken pair.cipher 1700000000 0x0100007F userId

/-- How the server handles a request. -/
def pairServes (q : RequestCall) (r : ResponseCall) : Board.Exchange where
  env := lobbyEnv.atTime pair.cipher 1700000000 0x0100007F q.header
  req := some q.parsed
  out := { sent := [r] }
  clean := true

/-- The request with which the first process registers. -/
def pairHello : RequestCall := (pairRegister "an").request Service.clearAuth

theorem pairHello_sendable : pairHello.Sendable := by
  refine ⟨⟨by decide, by decide⟩, by decide⟩

theorem pairHello_executed : execute serve 32 { db := {} } (handleReq
    (lobbyEnv.atTime pair.cipher 1700000000 0x0100007F pairHello.header) (some pairHello.parsed)) =
      some (lobbyConn 1 0 0 0 0 1 false, { sent := [.authRegister 201 (pairToken 1) 1] }) := by
  decide +kernel

/-! ## Which answer belongs to which call -/

section Runs

open Board Service

variable {h : Hosts ι P} {es before behind front : List (NetEvent ι)} {s : Network ι P} {i : ι}
  {f : Service.Call} {q : RequestCall} {e : Exchange} {r : ResponseCall}
  {x : Access (Int × Option Output)}

/-- The requests that the server has handled. -/
def handled (es : List (NetEvent ι)) : List Exchange := exchanges (es.filterMap NetEvent.onServer)

/-- The calls on a connection. -/
def callsOn (i : ι) (es : List (NetEvent ι)) : List RequestCall :=
  link.calls (es.filterMap (NetEvent.onLink i))

/-- How many of them were given up, or have read something else than a frame. -/
def giveUpsOn (i : ι) (es : List (NetEvent ι)) : Nat :=
  link.giveUps (es.filterMap (NetEvent.onLink i))

theorem NetEvent.onLink_call {ev : NetEvent ι} :
    ev.onLink i = some (.call q) ↔ ∃ f, ev = .call i f q := by
  cases ev <;> simp [onLink, eq_comm]

theorem NetEvent.onLink_serve {ev : NetEvent ι} {rs : List ResponseCall} :
    ev.onLink i = some (.serve q rs) ↔ ∃ e, ev = .serve i q e ∧ e.out.sent = rs := by
  constructor
  · intro hev
    cases ev with
    | serve j q' e =>
      by_cases hj : j = i
      · subst hj
        obtain ⟨rfl, hsent⟩ := LinkEvent.serve.inj (Option.some.inj ((if_pos rfl).symm.trans hev))
        exact ⟨e, rfl, hsent⟩
      · cases (if_neg hj).symm.trans hev
    | _ => simp [onLink] at hev
  · rintro ⟨e, rfl, rfl⟩
    exact if_pos rfl

theorem network.link_run (hrun : (network h).Run es s) :
    (link RequestCall ResponseCall).Run (es.filterMap (NetEvent.onLink i)) (s.link i) :=
  ((linkSide h i).run hrun).2

/-- A call builds its request from what `auth.c` keeps. -/
theorem network.call_step (hrun : (network h).Run (before ++ .call i f q :: behind) s) :
    ∃ s₁, (network h).Run before s₁ ∧ q = f.request (s₁.auth (h.proc i)) ∧ q.Sendable := by
  obtain ⟨s₁, s₂, hfirst, hstep, -⟩ := hrun.cut
  cases hstep with
  | call hq hsend _ => exact ⟨s₁, hfirst, hq, hsend⟩

/-- The server parses what was sent. -/
theorem network.serve_step (hrun : (network h).Run (before ++ .serve i q e :: behind) s) :
    ∃ (f : Service.Call) (a : Auth), q = f.request a ∧ e.req = some q.parsed := by
  obtain ⟨s₁, s₂, hfirst, hstep, -⟩ := hrun.cut
  cases hstep with
  | serve _ hmake hparse _ _ hlink =>
    cases hlink with
    | serve _ hq =>
    -- the request on its way is that of a call
    obtain ⟨gone, hcalls, -⟩ := link.requests (network.link_run (i := i) hfirst)
    rw [hq] at hcalls
    have hmem : q ∈ link.calls (before.filterMap (NetEvent.onLink i)) := by
      rw [hcalls]
      simp
    obtain ⟨ev, hev, hcall⟩ := List.mem_filterMap.mp hmem
    obtain rfl := LinkEvent.called_eq_some.mp hcall
    obtain ⟨ev, hev, hcall⟩ := List.mem_filterMap.mp hev
    obtain ⟨f, rfl⟩ := NetEvent.onLink_call.mp hcall
    obtain ⟨l₁, l₂, rfl⟩ := List.append_of_mem hev
    obtain ⟨s₀, -, rfl, hsend⟩ := network.call_step hfirst
    obtain ⟨copies', hparse'⟩ := RequestCall.parse_of_make hsend.wellFormed hmake
    exact ⟨f, _, rfl, (Access.ok.inj (hparse.symm.trans hparse')).1⟩

/-- The server handles it as the board does. -/
theorem network.handled_at {ev : NetEvent ι} (hrun : (network h).Run (before ++ ev :: behind) s)
    (hev : ev.onServer = some (some e)) :
    ∃ b b', messageBoard.Run (handled before) b ∧ b.Step e b' ∧
      messageBoard.Steps b' (handled behind) s.conn.db.board := by
  obtain ⟨s₁, s₂, hfirst, hstep, hrest⟩ := hrun.cut
  obtain ⟨hkept, hboard⟩ := server_board ((serverSide h).run hfirst).2
  have hserver : ServerStep s₁.conn (some e) s₂.conn :=
    (serverSide h).visible _ _ _ _ trivial hstep hev
  have hsteps := serverSimulation.steps (hkept.server_step hserver)
    ((serverSide h).steps trivial hrest).2
  exact ⟨_, _, hboard, hkept.board_step hserver, hsteps.2⟩

/-- And answers it with one frame. -/
theorem network.served_once (hrun : (network h).Run (before ++ .serve i q e :: behind) s)
    (hdef : e.out.undefined = false) : e.out.sent.length = 1 := by
  obtain ⟨f, a, rfl, hreq⟩ := network.serve_step hrun
  obtain ⟨b, b', -, hstep, -⟩ := network.handled_at hrun rfl
  obtain ⟨r, hr⟩ := hstep.answered hreq hdef
  rw [hr]
  rfl

/-- The request that an answer belongs to. -/
theorem network.answer_of (hrun : (network h).Run (es ++ [.answer i f r x]) s)
    (hdef : ∀ q e, .serve i q e ∈ es → e.out.undefined = false) :
    ∃ before g q between e behind,
      es = before ++ .call i g q :: (between ++ .serve i q e :: behind) ∧
        e.req = some q.parsed ∧ e.out.sent = [r] ∧
        (callsOn i (between ++ behind)).length = giveUpsOn i es := by
  have hlink := network.link_run (i := i) hrun
  have hlast : [NetEvent.answer i f r x].filterMap (NetEvent.onLink i) = [.reply r] := by
    have hmine : NetEvent.onLink i (.answer i f r x) = some (.reply r) := if_pos rfl
    rw [List.filterMap_cons_some hmine, List.filterMap_nil]
  rw [List.filterMap_append, hlast] at hlink
  obtain ⟨s₁, _, hfirst, -, -⟩ := hrun.cut
  obtain ⟨front, q, mid, rest, hsplit, hcount⟩ := link.reply_of hlink (by
    intro q rs hmem
    obtain ⟨ev, hev, hserve⟩ := List.mem_filterMap.mp hmem
    obtain ⟨e, rfl, rfl⟩ := NetEvent.onLink_serve.mp hserve
    obtain ⟨l₁, l₂, rfl⟩ := List.append_of_mem hev
    exact network.served_once hfirst (hdef q e hev))
  -- the events of the connection are among those of the network
  obtain ⟨l₁, l₂, rfl, -, hcall⟩ := List.filterMap_eq_append_iff.mp hsplit
  obtain ⟨skip, ev, l₃, rfl, -, hev, hback⟩ := List.filterMap_eq_cons_iff.mp hcall
  obtain ⟨g, rfl⟩ := NetEvent.onLink_call.mp hev
  obtain ⟨l₄, l₅, rfl, hmid, hserve⟩ := List.filterMap_eq_append_iff.mp hback
  obtain ⟨skip', ev', l₆, rfl, hskip', hev', hrest⟩ := List.filterMap_eq_cons_iff.mp hserve
  obtain ⟨e, rfl, hsent⟩ := NetEvent.onLink_serve.mp hev'
  have hwhole : l₁ ++ (skip ++ .call i g q :: (l₄ ++ (skip' ++ .serve i q e :: l₆))) =
      (l₁ ++ skip) ++ .call i g q :: ((l₄ ++ skip') ++ .serve i q e :: l₆) := by simp
  have hat : (network h).Run
      (((l₁ ++ skip) ++ .call i g q :: (l₄ ++ skip')) ++ .serve i q e :: l₆) s₁ := by
    have hsame := hwhole ▸ hfirst
    simpa using hsame
  obtain ⟨_, _, -, hreq⟩ := network.serve_step hat
  refine ⟨l₁ ++ skip, g, q, l₄ ++ skip', e, l₆, hwhole, hreq, hsent, ?_⟩
  have hnone : skip'.filterMap (NetEvent.onLink i) = [] := List.filterMap_eq_nil_iff.mpr hskip'
  rw [giveUpsOn, ← hcount, callsOn, List.filterMap_append, List.filterMap_append, hnone,
    List.append_nil, hmid, hrest]

theorem callsOn_append (es es' : List (NetEvent ι)) :
    callsOn i (es ++ es') = callsOn i es ++ callsOn i es' := by
  rw [callsOn, List.filterMap_append, link.calls, List.filterMap_append, callsOn, callsOn,
    link.calls, link.calls]

theorem callsOn_serve : callsOn i (.serve i q e :: es) = callsOn i es := by
  have hmine : NetEvent.onLink i (.serve i q e) = some (.serve q e.out.sent) := if_pos rfl
  rw [callsOn, List.filterMap_cons_some hmine, link.calls, List.filterMap_cons_none rfl]
  rfl

/-- A function that waits has waited since the last call. -/
theorem network.pending_since {s₁ s₂ : Network ι P} (hsteps : (network h).Steps s₁ es s₂)
    (hcalls : callsOn i es = []) (hf : s₂.pending i = some f) : s₁.pending i = some f := by
  induction hsteps with
  | nil => exact hf
  | @snoc es s₂ s₃ ev _ hstep ih =>
    rw [callsOn, List.filterMap_append, link.calls, List.filterMap_append,
      List.append_eq_nil_iff] at hcalls
    refine ih hcalls.1 ?_
    have hended : ∀ {j : ι}, Function.update s₂.pending j none i = some f →
        s₂.pending i = some f := by
      intro j hf
      by_cases hj : i = j
      · subst hj
        rw [Function.update_self] at hf
        cases hf
      · rwa [Function.update_of_ne hj] at hf
    cases hstep with
    | @call j g q _ _ _ _ =>
      by_cases hj : i = j
      · subst hj
        have hmine : NetEvent.onLink i (.call i g q) = some (.call q) := if_pos rfl
        simp [hmine, LinkEvent.called] at hcalls
      · simpa only [Function.update_of_ne hj] using hf
    | answer _ _ _ _ => exact hended hf
    | torn _ _ _ => exact hended hf
    | giveUp _ _ => exact hended hf
    | _ => exact hf

omit [DecidableEq ι] in
theorem handled_append (es es' : List (NetEvent ι)) :
    handled (es ++ es') = handled es ++ handled es' := by
  rw [handled, List.filterMap_append, exchanges_append, handled, handled]

/-- A call on a connection where none was given up: its request is built, served, and answered to
    it, and there is no other call in between. -/
theorem network.in_step (hrun : (network h).Run (es ++ [.answer i f r x]) s)
    (hdef : ∀ q e, .serve i q e ∈ es → e.out.undefined = false) (hnone : giveUpsOn i es = 0) :
    ∃ before q between e behind s₁,
      es = before ++ .call i f q :: (between ++ .serve i q e :: behind) ∧
        callsOn i (between ++ behind) = [] ∧ (network h).Run before s₁ ∧
        q = f.request (s₁.auth (h.proc i)) ∧ q.Sendable ∧ e.req = some q.parsed ∧
        e.out.sent = [r] ∧ f.Answers r ∧ ∃ prior later timedOut, x = f.outcome r prior later timedOut := by
  obtain ⟨before, g, q, between, e, behind, rfl, hreq, hsent, hcount⟩ := network.answer_of hrun hdef
  have hnocall := List.length_eq_zero_iff.mp (hcount.trans hnone)
  obtain ⟨s₂, s₃, hfirst, hstep, -⟩ := hrun.cut
  cases hstep with
  | answer _ hf hx _ =>
    obtain ⟨s₁, s₁', hbefore, hcall, hrest⟩ := hfirst.cut
    -- the function that waits is the one that was called
    have hfn : s₁'.pending i = some f := by
      refine network.pending_since hrest ?_ hf
      rw [callsOn_append, callsOn_serve, ← callsOn_append]
      exact hnocall
    cases hcall with
    | call hq hsend _ =>
      obtain rfl : g = f := by simpa using hfn
      have hat : (network h).Run ((before ++ .call i g q :: between) ++ .serve i q e :: behind) s₂ := by
        simpa using hfirst
      obtain ⟨b, b', -, hboard, -⟩ := network.handled_at hat rfl
      have hans := hboard.answers (f := g) (by rw [hreq, hq]) hsent
      exact ⟨before, q, between, e, behind, s₁, rfl, hnocall, hbefore, hq, hsend, hreq, hsent, hans,
        _, _, _, hx⟩

/-- What is torn stays torn. -/
theorem network.not_torn (hrun : (network h).Run es s) (hwhole : s.torn i = false) :
    (∀ f x, .torn i f x ∉ es) ∧ ∀ e, .misread i e ∉ es := by
  refine hrun.invariant (I := fun es s => s.torn i = false →
    (∀ f x, .torn i f x ∉ es) ∧ ∀ e, .misread i e ∉ es) (fun _ _ _ => by simp) ?_ hwhole
  intro es s ev s' _ ih hstep hwhole
  have hother : ∀ {j : ι}, Function.update s.torn j true i = false → i ≠ j ∧ s.torn i = false := by
    intro j hwhole
    by_cases hj : i = j
    · subst hj
      rw [Function.update_self] at hwhole
      cases hwhole
    · exact ⟨hj, by rwa [Function.update_of_ne hj] at hwhole⟩
  cases hstep with
  | torn _ _ _ =>
    obtain ⟨hj, hbefore⟩ := hother hwhole
    simpa [hj] using ih hbefore
  | misread _ =>
    obtain ⟨hj, hbefore⟩ := hother hwhole
    simpa [hj] using ih hbefore
  | _ => simpa using ih hwhole

/-- A process registers and gives up. What it reads when it logs in then is the answer to that. -/
def pairLate : List (NetEvent Bool) :=
  [.call true (pairRegister "an") pairHello, .giveUp true (pairRegister "an"),
   .serve true pairHello (pairServes pairHello (.authRegister 201 (pairToken 1) 1)),
   .call true pairLogin (pairLogin.request Service.clearAuth)]

def pairLateRead : NetEvent Bool :=
  .answer true pairLogin (.authRegister 201 (pairToken 1) 1)
    (pairLogin.outcome (.authRegister 201 (pairToken 1) 1) (fun _ => 0) [] false)

theorem pair_late : ∃ s, (network pair).Run (pairLate ++ [pairLateRead]) s := by
  have hlogin : (pairLogin.request Service.clearAuth).Sendable := ⟨⟨by decide, by decide⟩, by decide⟩
  have hcall : Network.Step pair pairStart (.call true (pairRegister "an") pairHello) _ :=
    .call rfl pairHello_sendable (.call rfl rfl)
  have hgiveUp : Network.Step pair _ (.giveUp true (pairRegister "an")) _ :=
    .giveUp (s := { pairStart with
      link := Function.update pairStart.link true { waiting := true, requests := [pairHello] }
      pending := Function.update pairStart.pending true (some (pairRegister "an")) })
      rfl (.giveUp rfl)
  have hserve := network.serve_executed (h := pair) (i := true) (s := { pairStart with
      link := Function.update (Function.update pairStart.link true
        { waiting := true, requests := [pairHello] }) true { requests := [pairHello] }
      pending := Function.update (Function.update pairStart.pending true
        (some (pairRegister "an"))) true none })
    [] pairHello_sendable rfl rfl rfl (by decide) pairHello_executed
  have hrun := (((Machine.steps_singleton.mpr hcall).snoc hgiveUp).snoc hserve).snoc
    (.call (i := true) (f := pairLogin) rfl hlogin (.call rfl rfl))
  exact ⟨_, pairStart, pair_start,
    hrun.snoc (.answer (i := true) (f := pairLogin) rfl rfl rfl (.reply rfl rfl))⟩

/-- A process registers. -/
theorem pair_registered : ∃ l, (network pair).Run
    [.call true (pairRegister "an") pairHello,
     .serve true pairHello (pairServes pairHello (.authRegister 201 (pairToken 1) 1)),
     .answer true (pairRegister "an") (.authRegister 201 (pairToken 1) 1)
       (.ok (201, some (.auth ⟨(pairToken 1).bytes, 1⟩)) l)]
    { pairStart with
      conn := lobbyConn 1 0 0 0 0 1 false
      clock := 1700000000
      pending := Function.update pairStart.pending true none
      auth := Function.update pairStart.auth true
        (Service.setAuth ⟨(pairToken 1).bytes, 1⟩) } := by
  obtain ⟨l, hsteps⟩ := network.round (h := pair) (s := pairStart) (i := true) rfl rfl rfl
    pairHello_sendable (by decide) pairHello_executed .register rfl (by decide) (by simp)
  exact ⟨l, pairStart, pair_start, hsteps⟩

end Runs

end MeshChat
