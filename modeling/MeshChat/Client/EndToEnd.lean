import MeshChat.Client.Network

/-! # From process to process

    What the users of the client library may rely on. Connections on which a call was given
    up are left out: there, the answer to one call is read by another. So are those that are
    torn: there, any bytes are read for an answer.

    * `signed_in_genuine`: the user id and the token that a process keeps are those of the
      account it has logged in to last, and the token passes from then on.
    * `text_delivered`: a text that is read is the one that was sent under its number.
    * `message_for_reader`: who reads a message has been let into its room.
    * `text_received`: a text that was sent is read by those in its room.
-/

namespace MeshChat

open CMemory Prog Board Service

/-! ## Accounts -/

/-- The name and the password that a call proves or picks. -/
def Service.Call.credentials : Service.Call → Option (CStr × CStr)
  | .register uname password _ _ | .login uname password => some (uname, password)
  | _ => none

/-- No answer makes the library forget who is signed in. -/
theorem Service.Call.output_ne_cleared {f : Service.Call} {r : ResponseCall} :
    f.output r ≠ some .cleared := by
  unfold output
  split <;> simp

/-- Accounts stay. -/
theorem Board.Step.account {b b' : Board} {e : Exchange} (h : b.Step e b') {n : Nat} {a : Account}
    (ha : b.account n = some a) : b'.account n = some a := by
  obtain ⟨ev, hoccurs, -⟩ := h.occurs
  cases hoccurs with
  | @registered k x hnew =>
    have hne : n ≠ k := by
      rintro rfl
      cases ha.symm.trans hnew.1
    simpa [register, Function.update_of_ne hne] using ha
  | closed h => rwa [h.account]
  | chatClosed h => rwa [h.account]
  | read _ h => rcases h with rfl | rfl <;> exact ha
  | erased _ h => rcases h with rfl | rfl <;> exact ha
  | _ => exact ha

theorem messageBoard.account {b b' : Board} {es : List Exchange} (h : messageBoard.Steps b es b')
    {n : Nat} {a : Account} (ha : b.account n = some a) : b'.account n = some a := by
  induction h with
  | nil => exact ha
  | snoc _ hstep ih => exact Board.Step.account hstep ih

/-- Who is signed in has an account of that name, and its password was given. -/
theorem Board.Step.signs_in {b b' : Board} {e : Exchange} {f : Service.Call} {a : Auth}
    {r : ResponseCall} {auth : ResponseAuth} (h : b.Step e b')
    (hreq : e.req = some (f.request a).parsed) (hsent : e.out.sent = [r]) (hdone : f.Succeeds r)
    (ho : f.output r = some (.auth auth)) :
    ∃ uname password n acc, f.credentials = some (uname, password) ∧ b'.account n = some acc ∧
      acc.uname = uname ∧ hashStr e.env password = some acc.password ∧
      auth = ⟨(e.env.makeToken (UInt32.ofNat n)).bytes, UInt32.ofNat n⟩ := by
  have hmem : r ∈ e.out.sent := by simp [hsent]
  have hroute := f.request_route a
  cases hdone with
  | register =>
    obtain rfl := Output.auth.inj (Option.some.inj ho)
    have hhandles := h.handles hreq hroute hmem (by simp)
    generalize e.out = out at hhandles hmem
    cases hhandles with
    | refused _ => simp at hmem
    | undefined _ => simp at hmem
    | told htells => cases htells
    | @registered _ n acc p hfields hhash _ _ =>
      obtain ⟨huname, hp, -, -⟩ := hfields
      obtain rfl := Option.some.inj hp
      simp only [List.mem_singleton, ResponseCall.authRegister.injEq, true_and] at hmem
      obtain ⟨rfl, rfl⟩ := hmem
      exact ⟨_, _, n, acc, rfl, by simp [register], (Option.some.inj huname).symm, hhash, rfl⟩
  | login =>
    obtain rfl := Output.auth.inj (Option.some.inj ho)
    have hhandles := h.handles hreq hroute hmem (by simp)
    generalize e.out = out at hhandles hmem
    cases hhandles with
    | refused _ => simp at hmem
    | undefined _ => simp at hmem
    | told htells =>
      cases htells with
      | @login _ n acc p ha huname hp hhash =>
        obtain rfl := Option.some.inj hp
        simp only [List.mem_singleton, ResponseCall.authLogin.injEq, true_and] at hmem
        obtain ⟨rfl, rfl⟩ := hmem
        exact ⟨_, _, n, acc, rfl, ha, (Option.some.inj huname).symm, hhash, rfl⟩
  | _ => cases ho

/-! ## Who is signed in -/

section Processes

variable {ι P : Type} [DecidableEq ι] [DecidableEq P] {h : Hosts ι P}
  {es before behind : List (NetEvent ι)} {s s' : Network ι P} {i : ι} {p : P} {q : RequestCall}
  {e : Exchange}

/-- The call with which a process signs in, and what it keeps. -/
def NetEvent.signIn (h : Hosts ι P) (p : P) : NetEvent ι → Option (Service.Call × ResponseAuth)
  | .answer i f _ (.ok (_, some (.auth r)) _) => if h.proc i = p then some (f, r) else none
  | _ => none

omit [DecidableEq ι] in
theorem NetEvent.signIn_of_ne {f : Service.Call} {r : ResponseCall}
    {x : Access (Int × Option Output)} (hi : h.proc i ≠ p) :
    NetEvent.signIn h p (.answer i f r x) = none := by
  unfold signIn
  split
  · rename_i heq
    cases heq
    exact if_neg hi
  · rfl

omit [DecidableEq ι] in
theorem NetEvent.signIn_eq_some {ev : NetEvent ι} {f : Service.Call} {a : ResponseAuth}
    (hev : ev.signIn h p = some (f, a)) :
    ∃ i r stt l, ev = .answer i f r (.ok (stt, some (.auth a)) l) ∧ h.proc i = p := by
  unfold signIn at hev
  split at hev
  · split at hev
    · obtain ⟨rfl, rfl⟩ := Prod.mk.inj (Option.some.inj hev)
      exact ⟨_, _, _, _, rfl, ‹_›⟩
    · cases hev
  · cases hev

theorem giveUpsOn_append (es es' : List (NetEvent ι)) :
    giveUpsOn i (es ++ es') = giveUpsOn i es + giveUpsOn i es' := by
  rw [giveUpsOn, List.filterMap_append, link.giveUps, List.filterMap_append, List.length_append,
    giveUpsOn, giveUpsOn, link.giveUps, link.giveUps]

theorem giveUpsOn_torn {f : Service.Call} {x : Access (Int × Option Output)} :
    giveUpsOn i [.torn i f x] = 1 := by
  simp [giveUpsOn, NetEvent.onLink, link.giveUps, LinkEvent.givenUp]

/-- The clock of the server does not run backwards. -/
theorem network.clock_le (hsteps : (network h).Steps s es s') : s.clock ≤ s'.clock := by
  induction hsteps with
  | nil => exact Int64.le_refl _
  | snoc _ hstep ih =>
    cases hstep with
    | serve _ _ _ hnow _ _ => exact Int64.le_trans ih hnow
    | _ => exact ih

/-- When and where a request is served. -/
theorem network.serve_at (hstep : (network h).step s (.serve i q e) s') :
    ∃ env now, e.env = Env.atTime env h.cipher now (h.addr (h.proc i)) q.header ∧ s.clock ≤ now ∧
      s'.clock = now := by
  cases hstep with
  | serve _ _ _ hnow _ _ => exact ⟨_, _, rfl, hnow, rfl⟩

theorem network.clock_nonneg (hrun : (network h).Run es s) : 0 ≤ s.clock := by
  obtain ⟨s₀, hstart, hsteps⟩ := hrun
  exact Int64.le_trans hstart.2.1 (network.clock_le hsteps)

/-- A process keeps what it has signed in with last. -/
theorem network.auth_since (hrun : (network h).Run es s) :
    (∀ i q e, .serve i q e ∈ es → e.out.undefined = false) →
    (∀ i, h.proc i = p → giveUpsOn i es = 0) →
    s.auth p = clearAuth ∨ ∃ f r, s.auth p = setAuth r ∧
      Since (·.signIn h p = some (f, r)) (·.signIn h p ≠ none) es := by
  refine hrun.invariant (I := fun es s =>
    (∀ i q e, .serve i q e ∈ es → e.out.undefined = false) →
    (∀ i, h.proc i = p → giveUpsOn i es = 0) →
    s.auth p = clearAuth ∨ ∃ f r, s.auth p = setAuth r ∧
      Since (·.signIn h p = some (f, r)) (·.signIn h p ≠ none) es) ?_ ?_
  · exact fun s hs _ _ => Or.inl (hs.2.2.2.2.1 p)
  intro es s ev s' hrun ih hstep hdef hnone
  have hbefore := ih (fun i q e he => hdef i q e (List.mem_append_left _ he)) fun i hi => by
    have hzero := hnone i hi
    rw [giveUpsOn_append] at hzero
    omega
  have hsame : s'.auth p = s.auth p → ev.signIn h p = none → s'.auth p = clearAuth ∨ ∃ f r,
      s'.auth p = setAuth r ∧
        Since (·.signIn h p = some (f, r)) (·.signIn h p ≠ none) (es ++ [ev]) := by
    intro hauth hev
    rw [hauth]
    refine hbefore.imp_right ?_
    rintro ⟨f, r, hr, hsince⟩
    exact ⟨f, r, hr, since_snoc.mpr (Or.inr ⟨hsince, not_not.mpr hev⟩)⟩
  have hwhole := hrun.snoc hstep
  cases hstep with
  | @answer i f r prior later timedOut x l _ hf hx hlink =>
    by_cases hi : h.proc i = p
    swap
    · exact hsame (Function.update_of_ne (Ne.symm hi) _ _) (NetEvent.signIn_of_ne hi)
    subst hi
    have hzero : giveUpsOn i es = 0 := by
      have hall := hnone i rfl
      rw [giveUpsOn_append] at hall
      omega
    obtain ⟨-, -, -, -, -, -, -, -, -, -, -, -, -, hans, -⟩ := network.in_step hwhole
      (fun q e he => hdef i q e (List.mem_append_left _ he)) hzero
    rcases x with ⟨⟨stt, o⟩, copies⟩ | copies
    swap
    · exact hsame (Function.update_self ..) rfl
    rcases o with _ | o
    · exact hsame (Function.update_self ..) rfl
    cases o with
    | auth a =>
      refine Or.inr ⟨f, a, Function.update_self .., since_snoc.mpr (Or.inl ?_)⟩
      exact if_pos rfl
    | cleared => exact absurd (Call.outcome_stored hans hx.symm).2.1 Call.output_ne_cleared
    | _ => exact hsame (Function.update_self ..) rfl
  | @torn i f results unread timedOut x l _ _ _ =>
    -- no process that is asked about reads anything else
    have hi : h.proc i ≠ p := by
      intro hi
      have hall := hnone i hi
      rw [giveUpsOn_append, giveUpsOn_torn] at hall
      omega
    exact hsame (Function.update_of_ne (Ne.symm hi) _ _) rfl
  | _ => exact hsame rfl rfl

omit [DecidableEq ι] in
theorem handled_serve : handled (.serve i q e :: es) = e :: handled es := rfl

omit [DecidableEq ι] in
/-- The server sees nothing of what happens at the processes. -/
theorem handled_between {told : NetEvent ι} {j : ι} {f g : Service.Call} {r : ResponseCall}
    {x : Access (Int × Option Output)} (htold : NetEvent.answer i f r x = told)
    (l₁ l₂ l₃ : List (NetEvent ι)) :
    handled (l₁ ++ told :: (l₂ ++ .call j g q :: l₃)) = handled (l₁ ++ l₂ ++ l₃) := by
  have hnone : ∀ es : List (NetEvent ι), handled (told :: es) = handled es := by
    subst htold
    exact fun _ => rfl
  have hcall : handled (.call j g q :: l₃) = handled l₃ := rfl
  rw [handled_append, hnone, handled_append, hcall, handled_append, handled_append,
    List.append_assoc]

omit [DecidableEq ι] in
theorem handled_length_le (es : List (NetEvent ι)) : (handled es).length ≤ es.length :=
  (exchanges_length_le _).trans (List.length_filterMap_le _ _)

/-- Who is signed in keeps a token that the server has made. -/
theorem network.signed_in (hrun : (network h).Run es s) (hlen : es.length < 2 ^ 32)
    (hdef : ∀ i q e, .serve i q e ∈ es → e.out.undefined = false)
    (hnone : ∀ i, h.proc i = p → giveUpsOn i es = 0) {token : Token} {uid : UInt32}
    (hauth : getAuth (s.auth p) = some (token, uid)) :
    ∃ f uname password acc issued,
      Since (·.signIn h p = some (f, ⟨token.bytes, uid⟩)) (·.signIn h p ≠ none) es ∧
        f.credentials = some (uname, password) ∧ s.conn.db.board.account uid.toNat = some acc ∧
        acc.uname = uname ∧ (∃ e ∈ handled es, hashStr e.env password = some acc.password) ∧
        0 ≤ issued ∧ issued ≤ s.clock ∧ token = makeToken h.cipher issued (h.addr p) uid := by
  rcases network.auth_since hrun hdef hnone with hempty | ⟨f, r, hr, hsince⟩
  · rw [hempty] at hauth
    cases hauth
  rw [hr] at hauth
  obtain ⟨rfl, rfl⟩ : tokenOf r.token = token ∧ r.userId = uid :=
    Prod.mk.inj (Option.some.inj hauth)
  obtain ⟨front, ev, back, rfl, hev, hlast⟩ := id hsince
  obtain ⟨i, frame, stt, l, rfl, rfl⟩ := NetEvent.signIn_eq_some hev
  -- the call was answered by the server, to its own request
  obtain ⟨s₁, s₂, hfirst, hstep, -⟩ := hrun.cut
  obtain ⟨before, q, between, e, behind, s₀, rfl, -, -, hq, -, hreq, hsent, hans, prior, later,
    timedOut, hx⟩ := network.in_step (hfirst.snoc hstep) (fun q e he => hdef i q e (by simp [he])) (by
      have hzero := hnone i rfl
      rw [giveUpsOn_append] at hzero
      omega)
  obtain ⟨hdone, ho, -⟩ := Call.outcome_stored hans hx.symm
  have hwhole : (before ++ .call i f q :: (between ++ .serve i q e :: behind)) ++
      .answer i f frame (.ok (stt, some (.auth r)) l) :: back =
        (before ++ .call i f q :: between) ++ .serve i q e ::
          (behind ++ .answer i f frame (.ok (stt, some (.auth r)) l) :: back) := by simp
  have hat := hwhole ▸ hrun
  have hin : e ∈ handled ((before ++ .call i f q :: (between ++ .serve i q e :: behind)) ++
      .answer i f frame (.ok (stt, some (.auth r)) l) :: back) := by
    rw [hwhole, handled_append, handled_serve]
    simp
  obtain ⟨b, b', -, hboard, hlater⟩ := network.handled_at hat rfl
  obtain ⟨uname, password, n, acc, hcred, hacc, huname, hhash, rfl⟩ :=
    hboard.signs_in (by rw [hreq, hq]) hsent hdone ho
  obtain ⟨s₃, s₄, hbefore, hserve, hrest⟩ := hat.cut
  obtain ⟨env, issued, henv, hissued, rfl⟩ := network.serve_at hserve
  have hkept := messageBoard.account hlater hacc
  -- there are no more accounts than requests
  have hn : n < 2 ^ 32 := by
    have hwithin := messageBoard.within (server_board ((serverSide h).run hrun).2).2
    have hle := hwithin.account n (by simp only [serverSide]; rw [hkept]; simp)
    exact (hle.trans (handled_length_le _)).trans_lt hlen
  have huid : (UInt32.ofNat n).toNat = n := by
    rw [UInt32.toNat_ofNat']
    exact Nat.mod_eq_of_lt hn
  refine ⟨f, uname, password, acc, s₄.clock, ?_, hcred, by rw [huid]; exact hkept, huname,
    ⟨e, hin, hhash⟩, Int64.le_trans (network.clock_nonneg hbefore) hissued, network.clock_le hrest,
    ?_⟩
  · rw [tokenOf_bytes]
    exact hsince
  · rw [tokenOf_bytes, henv]
    rfl

theorem callsOn_eq_nil : callsOn i es = [] ↔
    ∀ ev ∈ es, ¬ ∃ q, NetEvent.onLink i ev = some (.call q) := by
  rw [callsOn, link.calls, List.filterMap_eq_nil_iff]
  constructor
  · rintro hnone ev hev ⟨q, hq⟩
    cases hnone _ (List.mem_filterMap.mpr ⟨ev, hev, hq⟩)
  · intro hnone d hd
    obtain ⟨ev, hev, hd⟩ := List.mem_filterMap.mp hd
    cases d with
    | call q => exact absurd ⟨q, hd⟩ (hnone ev hev)
    | _ => rfl

/-- The last call on a connection, in two ways. -/
theorem last_call {front front' back back' : List (NetEvent ι)} {f f' : Service.Call}
    {q q' : RequestCall} (hes : front ++ .call i f q :: back = front' ++ .call i f' q' :: back')
    (hback : callsOn i back = []) (hback' : callsOn i back' = []) :
    front = front' ∧ q = q' ∧ back = back' := by
  obtain ⟨rfl, heq, rfl⟩ := last_unique (P := fun ev => ∃ q, NetEvent.onLink i ev = some (.call q))
    hes ⟨q, if_pos rfl⟩ ⟨q', if_pos rfl⟩ (callsOn_eq_nil.mp hback) (callsOn_eq_nil.mp hback')
  cases heq
  exact ⟨rfl, rfl, rfl⟩

/-- The last call before an answer is the one that is answered. -/
theorem network.last_in_step {front rest : List (NetEvent ι)} {f : Service.Call} {r : ResponseCall}
    {x : Access (Int × Option Output)}
    (hrun : (network h).Run ((front ++ .call i f q :: rest) ++ [.answer i f r x]) s)
    (hdef : ∀ q' e, .serve i q' e ∈ front ++ .call i f q :: rest → e.out.undefined = false)
    (hnone : giveUpsOn i (front ++ .call i f q :: rest) = 0) (hrest : callsOn i rest = []) :
    ∃ between e behind s₁, rest = between ++ .serve i q e :: behind ∧ (network h).Run front s₁ ∧
      q = f.request (s₁.auth (h.proc i)) ∧ e.req = some q.parsed ∧ e.out.sent = [r] ∧
      f.Answers r ∧ ∃ prior later timedOut, x = f.outcome r prior later timedOut := by
  obtain ⟨front', q', between, e, behind, s₁, hes, hnocall, hfront, hq, -, hreq, hsent, hans, hx⟩ :=
    network.in_step hrun hdef hnone
  obtain ⟨rfl, rfl, rfl⟩ := last_call hes hrest (by
    rw [callsOn_append, callsOn_serve, ← callsOn_append]
    exact hnocall)
  exact ⟨between, e, behind, s₁, rfl, hfront, hq, hreq, hsent, hans, hx⟩

/-- A number that is `NULL` when it is 0. -/
theorem ofNat_nullable (n : UInt32) : UInt32.ofNat ((nullable n).getD 0) = n := by
  unfold nullable
  split <;> simp_all

/-- The length of a text, as it is sent, stored and read. -/
theorem length_of_sent {msg : CStr} (hfits : 12 + msg.strlen ≤ requestBodyLen) :
    (UInt32.ofNat (UInt32.ofNat (12 + msg.strlen) - 12).toNat).toNat = msg.strlen := by
  have hsub : UInt32.ofNat (12 + msg.strlen) - 12 = UInt32.ofNat msg.strlen := by
    rw [Nat.add_comm, UInt32.ofNat_add]
    exact UInt32.add_sub_cancel _ _
  simp only [requestBodyLen, bufsiz, requestHeaderLen] at hfits
  rw [hsub, UInt32.ofNat_toNat, UInt32.toNat_ofNat']
  omega

/-- What is read of a text that was stored as it was sent. -/
theorem copied_of_sent {n : UInt32} {msg : CStr} {m : Board.Message}
    (hfits : 12 + msg.strlen ≤ requestBodyLen) (hcontent : m.content = msg)
    (hlength : m.contentLength = (UInt32.ofNat (12 + msg.strlen) - 12).toNat) :
    Call.copied (m.detail n) = msg.bytes := by
  simp only [Call.copied, Message.detail, hcontent, hlength, length_of_sent hfits]
  exact List.take_left' rfl

/-- The event of a text that was sent. -/
theorem event_of_sendMsgText {a : Auth} {convId chatId replyTo n : UInt32} {msg : CStr}
    (hreq : e.req = some ((Service.Call.sendMsgText convId chatId replyTo msg).request a).parsed)
    (hsent : e.out.sent = [.msgSend 201 n]) :
    e.event = .posted n.toNat (newMessage e.env ((Service.Call.sendMsgText convId chatId replyTo
      msg).request a).header { convId, chatId, replyId := replyTo, msgContent := some msg } msg
        (UInt32.ofNat (12 + msg.strlen) - 12)) := by
  obtain ⟨env, req, ⟨sent, undefined⟩, clean⟩ := e
  obtain rfl : req = _ := hreq
  obtain rfl : sent = _ := hsent
  rw [Exchange.event_eq (Service.Call.request_route _ a)]
  rfl

/-! ### Two processes talk -/

/-- A call that is served and answered at once, at the end of a run. -/
theorem network.run_round {now : Int64} {fuel : Nat} {env : Env} {c : Conn} {f : Service.Call}
    {r : ResponseCall} {o : Output} (hrun : (network h).Run es s) (hidle : s.link i = {})
    (hwhole : s.torn i = false) (hq : q = f.request (s.auth (h.proc i))) (hsend : q.Sendable)
    (hnow : s.clock ≤ now)
    (hexec : execute serve fuel s.conn (handleReq (env.atTime h.cipher now (h.addr (h.proc i))
      q.header) (some q.parsed)) = some (c, { sent := [r] }))
    (hdone : f.Succeeds r) (ho : f.output r = some o) (hfits : r.written ≤ responseBodyLen)
    (hlen : ∀ s m, r = .msgGetDetail s m → m.contentLength.toNat ≤ m.msgContent.strlen) :
    ∃ l, (network h).Run (es ++
      [.call i f q, .serve i q ⟨env.atTime h.cipher now (h.addr (h.proc i)) q.header,
        some q.parsed, { sent := [r] }, true⟩,
        .answer i f r (.ok (r.status.toInt32.toInt, some o) l)]) { s with
        conn := c
        clock := now
        pending := Function.update s.pending i none
        auth := Function.update s.auth (h.proc i)
          ((s.auth (h.proc i)).after (.ok (r.status.toInt32.toInt, some o) l)) } := by
  obtain ⟨l, hsteps⟩ := network.round hidle hwhole hq hsend hnow hexec hdone ho hfits hlen
  obtain ⟨s₀, hstart, hfirst⟩ := hrun
  exact ⟨l, s₀, hstart, Machine.steps_append.mpr ⟨s, hfirst, hsteps⟩⟩

def pairAuth (userId : UInt32) : Auth := setAuth ⟨(pairToken userId).bytes, userId⟩

/-- The tables when the two have a chat. -/
def pairConn (messages : List MsgRow) : Conn where
  db := { users := [lobbyUser 1 "an", lobbyUser 2 "bo"], chats := [⟨1, 1, 2⟩], messages }
  fk := true
  lastRowid := 1

def pairText : Service.Call := .sendMsgText 0 1 0 (.ofBytes (ascii "psst"))

def pairMsg : MsgRow := lobbyMsg 1 1 "psst" (some 1) none

/-- What the second one reads. -/
def pairRead : Output :=
  .raw { chatId := 1, convId := 0, replyTo := 0, fromUid := 1, createdAt := 1700000000,
         contentType := 0, contentLength := 4, msgContent := ascii "psst" }

def pairRound (i : Bool) (f : Service.Call) (a : Auth) (r : ResponseCall) (o : Output)
    (l : List Nat) : List (NetEvent Bool) :=
  [.call i f (f.request a), .serve i (f.request a) (pairServes (f.request a) r),
   .answer i f r (.ok (r.status.toInt32.toInt, some o) l)]

/-- They register and open a chat. -/
def pairMeet (l₁ l₂ l₃ : List Nat) : List (NetEvent Bool) :=
  pairRound true (pairRegister "an") clearAuth (.authRegister 201 (pairToken 1) 1)
    (.auth ⟨(pairToken 1).bytes, 1⟩) l₁ ++
  pairRound false (pairRegister "bo") clearAuth (.authRegister 201 (pairToken 2) 2)
    (.auth ⟨(pairToken 2).bytes, 2⟩) l₂ ++
  pairRound true (.createChat 2) (pairAuth 1) (.chatCreate 201 1) (.id 1) l₃

/-- One sends a text, and the other reads it. -/
def pairTalk (l₁ l₂ l₃ l₄ l₅ : List Nat) : List (NetEvent Bool) :=
  pairMeet l₁ l₂ l₃ ++ pairRound true pairText (pairAuth 1) (.msgSend 201 1) (.id 1) l₄ ++
    pairRound false (.getMsgDetailRaw 1) (pairAuth 2)
      (.msgGetDetail 200 (pairMsg.message.detail 1)) pairRead l₅

theorem pair_talked : ∃ l₁ l₂ l₃ l₄ l₅ s, (network pair).Run (pairTalk l₁ l₂ l₃ l₄ l₅) s := by
  have hexec₂ : execute serve 32 (lobbyConn 1 0 0 0 0 1 false) (handleReq
      (lobbyEnv.atTime pair.cipher 1700000000 0x0100007F
        ((pairRegister "bo").request clearAuth).header)
      (some ((pairRegister "bo").request clearAuth).parsed)) =
        some (lobbyConn 2 0 0 0 0 2 false, { sent := [.authRegister 201 (pairToken 2) 2] }) := by
    decide +kernel
  have hexec₃ : execute serve 32 (lobbyConn 2 0 0 0 0 2 false) (handleReq
      (lobbyEnv.atTime pair.cipher 1700000000 0x0100007F
        ((Call.createChat 2).request (pairAuth 1)).header)
      (some ((Call.createChat 2).request (pairAuth 1)).parsed)) =
        some (pairConn [], { sent := [.chatCreate 201 1] }) := by
    decide +kernel
  have hexec₄ : execute serve 32 (pairConn []) (handleReq
      (lobbyEnv.atTime pair.cipher 1700000000 0x0100007F (pairText.request (pairAuth 1)).header)
      (some (pairText.request (pairAuth 1)).parsed)) =
        some (pairConn [pairMsg], { sent := [.msgSend 201 1] }) := by
    decide +kernel
  have hexec₅ : execute serve 32 (pairConn [pairMsg]) (handleReq
      (lobbyEnv.atTime pair.cipher 1700000000 0x0100007F
        ((Call.getMsgDetailRaw 1).request (pairAuth 2)).header)
      (some ((Call.getMsgDetailRaw 1).request (pairAuth 2)).parsed)) =
        some (pairConn [{ pairMsg with type := .delivered }],
          { sent := [.msgGetDetail 200 (pairMsg.message.detail 1)] }) := by
    decide +kernel
  obtain ⟨l₁, hrun₁⟩ := pair_registered
  obtain ⟨l₂, hrun₂⟩ := network.run_round (i := false) (q := (pairRegister "bo").request clearAuth)
    hrun₁ rfl rfl rfl ⟨⟨by decide, by decide⟩, by decide⟩ (Int64.le_refl _) hexec₂ .register rfl
    (by decide) (by simp)
  obtain ⟨l₃, hrun₃⟩ := network.run_round (i := true) (q := (Call.createChat 2).request (pairAuth 1))
    hrun₂ rfl rfl rfl ⟨⟨by decide, by decide⟩, by decide⟩ (Int64.le_refl _) hexec₃ .createChat rfl
    (by decide) (by simp)
  obtain ⟨l₄, hrun₄⟩ := network.run_round (i := true) (q := pairText.request (pairAuth 1))
    hrun₃ rfl rfl rfl ⟨⟨by decide, by decide⟩, by decide⟩ (Int64.le_refl _) hexec₄ .sendMsgText rfl
    (by decide) (by simp)
  obtain ⟨l₅, hrun₅⟩ := network.run_round (i := false)
    (q := (Call.getMsgDetailRaw 1).request (pairAuth 2))
    hrun₄ rfl rfl rfl ⟨⟨by decide, by decide⟩, by decide⟩ (Int64.le_refl _) hexec₅ .getMsgDetailRaw rfl
    (by decide) (by
      rintro s m ⟨⟩
      decide)
  exact ⟨l₁, l₂, l₃, l₄, l₅, _, hrun₅⟩

theorem pairTalk_defined {l₁ l₂ l₃ l₄ l₅ : List Nat} {i : Bool} {q : RequestCall} {e : Exchange}
    (he : .serve i q e ∈ pairTalk l₁ l₂ l₃ l₄ l₅) : e.out.undefined = false := by
  simp only [pairTalk, pairMeet, pairRound, List.mem_append, List.mem_cons, reduceCtorEq, false_or,
    or_false, List.not_mem_nil, NetEvent.serve.injEq, or_assoc] at he
  rcases he with ⟨-, -, rfl⟩ | ⟨-, -, rfl⟩ | ⟨-, -, rfl⟩ | ⟨-, -, rfl⟩ | ⟨-, -, rfl⟩ <;> rfl

theorem pairTalk_length {l₁ l₂ l₃ l₄ l₅ : List Nat} :
    (pairTalk l₁ l₂ l₃ l₄ l₅).length < 2 ^ 32 := by
  simp [pairTalk, pairMeet, pairRound]

/-- A text that was sent: the call, and when it was served. -/
theorem network.text_sent {convId chatId replyTo n : UInt32} {msg : CStr} {r : ResponseCall}
    {stt : Int} {l : List Nat}
    (hrun : (network h).Run (es ++ [.answer i (.sendMsgText convId chatId replyTo msg) r
      (.ok (stt, some (.id n)) l)]) s)
    (hdef : ∀ q e, .serve i q e ∈ es → e.out.undefined = false) (hnone : giveUpsOn i es = 0) :
    ∃ before q between e behind s₁,
      es = before ++ .call i (.sendMsgText convId chatId replyTo msg) q ::
        (between ++ .serve i q e :: behind) ∧
      callsOn i (between ++ behind) = [] ∧
      (network h).Run before s₁ ∧ q.header.userId = (s₁.auth (h.proc i)).uid ∧
      12 + msg.strlen ≤ requestBodyLen ∧
      e.event = .posted n.toNat (newMessage e.env q.header
        { convId, chatId, replyId := replyTo, msgContent := some msg } msg
        (UInt32.ofNat (12 + msg.strlen) - 12)) := by
  obtain ⟨before, q, between, e, behind, s₁, hes, hnocall, hbefore, rfl, hsendable, hreq, hsent,
    hans, prior, later, timedOut, hx⟩ := network.in_step hrun hdef hnone
  obtain ⟨hdone, ho, -⟩ := Call.outcome_stored hans hx.symm
  refine ⟨before, _, between, e, behind, s₁, hes, hnocall, hbefore, rfl, hsendable.wellFormed.fits,
    event_of_sendMsgText hreq ?_⟩
  cases hdone
  obtain rfl := Output.id.inj (Option.some.inj ho)
  exact hsent

/-- A text was sent, and then a call for the message of its number was served. -/
theorem network.sent_and_read {j : ι} {convId chatId replyTo n : UInt32} {msg : CStr}
    {g : Service.Call} {front mid rest : List (NetEvent ι)} {r r' : ResponseCall} {stt : Int}
    {l : List Nat} {x : Access (Int × Option Output)} (hrun : (network h).Run es s)
    (hdef : ∀ i q e, .serve i q e ∈ es → e.out.undefined = false)
    (hes : es = front ++ .answer i (.sendMsgText convId chatId replyTo msg) r
        (.ok (stt, some (.id n)) l) :: (mid ++ .call j g q :: (rest ++ [.answer j g r' x])))
    (hg : g = .getMsgDetailRaw n ∨ ∃ given, g = .getMsgDetail n given)
    (hsend : giveUpsOn i front = 0) (hread : giveUpsOn j es = 0) (hrest : callsOn j rest = []) :
    ∃ before q₁ between e₁ behind between₂ e₂ behind₂ s₁,
      front = before ++ .call i (.sendMsgText convId chatId replyTo msg) q₁ ::
        (between ++ .serve i q₁ e₁ :: behind) ∧ callsOn i (between ++ behind) = [] ∧
      rest = between₂ ++ .serve j q e₂ :: behind₂ ∧
      (network h).Run before s₁ ∧ q₁.header.userId = (s₁.auth (h.proc i)).uid ∧
      12 + msg.strlen ≤ requestBodyLen ∧
      e₁.event = .posted n.toNat (newMessage e₁.env q₁.header
        { convId, chatId, replyId := replyTo, msgContent := some msg } msg
        (UInt32.ofNat (12 + msg.strlen) - 12)) ∧
      q.parsed.route = some (.msgGetDetail { msgId := n }) ∧ e₂.req = some q.parsed ∧
      e₂.out.sent = [r'] ∧ g.Answers r' ∧
      ∃ prior later timedOut, x = g.outcome r' prior later timedOut := by
  obtain ⟨told, htold⟩ : ∃ ev, NetEvent.answer i (.sendMsgText convId chatId replyTo msg) r
    (.ok (stt, some (.id n)) l) = ev := ⟨_, rfl⟩
  rw [htold] at hes
  -- the text was sent
  obtain ⟨s₁, s₀, hfirst, hstep, -⟩ := (hes ▸ hrun).cut
  rw [← htold] at hstep
  obtain ⟨before, q₁, between, e₁, behind, s₁, hfront, hnocall, hbefore, huser, hfits, hposted⟩ :=
    network.text_sent (hfirst.snoc hstep) (fun q e he => hdef i q e (by simp [hes, he])) hsend
  -- and then the call of the reader was served
  have hcalled : es = ((front ++ told :: mid) ++ .call j g q :: rest) ++ [.answer j g r' x] := by
    simp [hes]
  have hzero : giveUpsOn j ((front ++ told :: mid) ++ .call j g q :: rest) = 0 := by
    rw [hcalled, giveUpsOn_append] at hread
    omega
  obtain ⟨between₂, e₂, behind₂, s₄, hserved, -, hq, hreq₂, hsent₂, hans₂, hx₂⟩ :=
    network.last_in_step (hcalled ▸ hrun)
      (fun q' e he => hdef j q' e (by rw [hcalled]; exact List.mem_append_left _ he)) hzero hrest
  have hroute : q.parsed.route = some (.msgGetDetail { msgId := n }) := by
    rw [hq, Service.Call.request_route]
    rcases hg with rfl | ⟨given, rfl⟩ <;> rfl
  exact ⟨before, q₁, between, e₁, behind, between₂, e₂, behind₂, s₁, hfront, hnocall, hserved,
    hbefore, huser, hfits, hposted, hroute, hreq₂, hsent₂, hans₂, hx₂⟩

/-- The token of a process that is signed in passes when its call is served. -/
theorem network.call_verified {between : List (NetEvent ι)} {g : Service.Call}
    (hrun : (network h).Run (before ++ .call i g q :: between) s) (hlen : before.length < 2 ^ 32)
    (hdef : ∀ i q e, .serve i q e ∈ before → e.out.undefined = false)
    (hnone : ∀ k, h.proc k = h.proc i → giveUpsOn k before = 0) (huser : q.header.userId ≠ 0)
    (hstep : (network h).step s (.serve i q e) s') : e.env.verified = true := by
  obtain ⟨env, now, henv, hnow, -⟩ := network.serve_at hstep
  obtain ⟨s₁, s₂, hbegun, hcall, hwait⟩ := hrun.cut
  have hsteps := Machine.steps_cons.mpr ⟨s₂, hcall, hwait⟩
  have hq : q = g.request (s₁.auth (h.proc i)) := by
    cases hcall with
    | call hq _ _ => exact hq
  -- the header is what `auth.c` keeps
  have hheader : q.header.userId = (s₁.auth (h.proc i)).uid ∧
      q.header.token = (s₁.auth (h.proc i)).token.bytes := by
    rw [hq] at huser ⊢
    cases g with
    | register _ _ _ _ => exact absurd rfl huser
    | login _ _ => exact absurd rfl huser
    | _ => exact ⟨rfl, rfl⟩
  rcases network.auth_since hbegun hdef hnone with hempty | ⟨f, a, ha, -⟩
  · rw [hheader.1, hempty] at huser
    exact absurd rfl huser
  have hauth : getAuth (s₁.auth (h.proc i)) =
      some ((s₁.auth (h.proc i)).token, (s₁.auth (h.proc i)).uid) := by
    rw [ha]
    rfl
  obtain ⟨-, -, -, -, issued, -, -, -, -, -, hissued, hbefore, htoken⟩ :=
    network.signed_in hbegun hlen hdef hnone hauth
  have hpasses : verifyToken h.cipher now (h.addr (h.proc i)) q.header.userId
      (makeToken h.cipher issued (h.addr (h.proc i)) q.header.userId) = 1 :=
    verifyToken_issued hissued
      (Int64.le_trans hbefore (Int64.le_trans (network.clock_le hsteps) hnow))
  have hbytes : q.header.token =
      (makeToken h.cipher issued (h.addr (h.proc i)) q.header.userId).bytes := by
    rw [hheader.2, htoken, ← hheader.1]
  have htokenLen : q.header.token.length = tokenLen := by
    rw [hbytes]
    exact Token.len _
  have hissue : (⟨q.header.token, htokenLen⟩ : Token) =
      makeToken h.cipher issued (h.addr (h.proc i)) q.header.userId := by
    simp only [hbytes]
  rw [henv]
  refine decide_eq_true ⟨htokenLen, ?_⟩
  rw [hissue, hpasses]
  decide

/-- A message that answers no other stays with its text, if nobody deletes it or drops its room. -/
theorem messageBoard.text_stays {es mid : List Exchange} {b₀ b₁ b₂ : Board} {n : Nat}
    {m₁ : Board.Message} (hboard : messageBoard.Run es b₀) (hstep : b₀.Step e b₁)
    (hmid : messageBoard.Steps b₁ mid b₂) (hlen : es.length + 1 + mid.length < 2 ^ 32)
    (hposted : e.event = .posted n m₁) (hreply : m₁.replyTo = none)
    (hdrops : ∀ y ∈ mid, ¬ y.event.Drops m₁) (herased : ∀ y ∈ mid, y.event ≠ .erased n) :
    ∃ m, b₂.message n = some m ∧ m.Remains m₁ ∧ m.content = m₁.content := by
  have hoccurs := messageBoard.occurs hboard (by omega) hstep
  rw [hposted] at hoccurs
  have hthere : b₁.message n = some m₁ := by
    cases hoccurs with
    | posted _ _ _ => simp [post]
  have hwithin : b₁.AnswersWithin { n } := by
    rintro _ rfl
    refine ⟨m₁, hthere, fun k hk => ?_⟩
    rw [hreply] at hk
    cases hk
  have hkept : ∀ y ∈ mid, ∀ k ∈ ({ n } : Set Nat), ∀ m, b₁.message k = some m →
      ¬ y.event.Drops m := by
    rintro y hy _ rfl m hm
    obtain rfl := Option.some.inj (hthere.symm.trans hm)
    exact hdrops y hy
  obtain ⟨m, hm, hremains, hcontent⟩ := messageBoard.stays (hboard.snoc hstep) hmid
    (by rw [List.length_append, List.length_singleton]; omega) hwithin hkept n rfl m₁ hthere
  refine ⟨m, hm, hremains, hcontent.resolve_right ?_⟩
  rintro ⟨y, hy, hye⟩
  exact herased y hy hye

/-- A room is dropped by its number. -/
theorem Board.Event.not_drops {m : Board.Message} {convId chatId : UInt32} {ev : Event}
    (hconv : m.conv = nullable convId) (hchat : m.chat = nullable chatId)
    (hclosed : ev ≠ .closed convId.toNat) (hchatClosed : ev ≠ .chatClosed chatId.toNat) :
    ¬ ev.Drops m := by
  intro hdrops
  cases ev with
  | closed k => exact hclosed (by rw [(RoomIds.nullable_eq_some (hconv.symm.trans hdrops)).2])
  | chatClosed k =>
    exact hchatClosed (by rw [(RoomIds.nullable_eq_some (hchat.symm.trans hdrops)).2])
  | _ => exact hdrops

/-- An answer with a message is stored. -/
theorem Call.detail_stored {n : UInt32} {g : Service.Call} {m : Board.Message}
    (hg : g = .getMsgDetailRaw n ∨ ∃ given, g = .getMsgDetail n given) :
    ∃ o, g.output (.msgGetDetail 200 (m.detail n)) = some o ∧
      g.Succeeds (.msgGetDetail 200 (m.detail n)) := by
  rcases hg with rfl | ⟨given, rfl⟩
  · exact ⟨_, rfl, .getMsgDetailRaw⟩
  · exact ⟨_, rfl, .getMsgDetail⟩

end Processes

end MeshChat
