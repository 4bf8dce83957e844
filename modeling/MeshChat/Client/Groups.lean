import MeshChat.Client.Text
import MeshChat.Server.Rooms

/-! # Creating a group (`CreateConvViewModel.java`)

    `handleCreate` asks the server for a conversation and then to let a user join for each
    selected user. The user it names is not the selected one but the one who asks.

    * `handleCreate`: a program whose calls are requests of the client.
    * `Others`, `ApiCalls`: such a request at the server, between requests of other users. The
      answer may be lost.
    * `Founded`: a conversation that its creator is the only member of.
    * `Founded.handleCreate`: it stays so, whatever the joins come to.
    * `group_members_iff`: the members are the creator and the selected users exactly when nobody
      else is selected.
-/

namespace MeshChat

open CMemory SqlLex Prog

/-! ## The client -/

/-- What `api_call` returns, and whether `errno` is `EWOULDBLOCK` when it is `NULL`. -/
structure ApiReply where
  res : Option Response
  timedOut : Bool

/-- A program that sends requests and waits for their responses. -/
abbrev ClientProg (α : Type) : Type := Prog RequestCall ApiReply α

/-- `_create_conv` of the C library, behind `api_call`. -/
def createConv (reply : ApiReply) : Access (Int × Option UInt32) :=
  handleResStt reply.timedOut reply.res fun res =>
    if res.header.statusCode = 201 then
      match res.body with
      | .conv rconv => pure (some rconv.convId)
      | _ => .fault []
    else pure none

/-- `_join_conv` stores nothing. -/
def joinConv (reply : ApiReply) : Access (Int × Option Unit) :=
  handleResStt reply.timedOut reply.res fun _ => pure none

namespace TCPNativeClient

/-- `_create_conv`, behind the one of the C library. A timeout is no exception. -/
def createConv (reply : ApiReply) : Access (Except JavaException Int) := do
  let (stt, gid) ← MeshChat.createConv reply
  if stt = 201 ∨ stt = 408 then pure (.ok (intValue (gid.getD 0)))
  else pure (.error (.apiCall stt))

/-- `_conv_join`, behind `_join_conv`. -/
def convJoin (reply : ApiReply) : Access (Except JavaException Unit) := do
  let (stt, _) ← joinConv reply
  if stt ≠ 200 ∧ stt ≠ 408 then pure (.error (.apiCall stt)) else pure (.ok ())

end TCPNativeClient

namespace CreateConvViewModel

/-- The loop over `selectedUsers`, with its `catch`. `none` is a fault in the C library. -/
def joinSelected (token : Token) (uid : UInt32) (convId : Int) :
    List UInt32 → ClientProg (Option Unit)
  | [] => pure (some ())
  -- the selected user is not looked at: `_conv_join(conv_id, get_uid())`
  | _ :: selectedUsers => do
    let reply ← invoke (.convJoin token uid (UInt32.ofInt convId) uid)
    match TCPNativeClient.convJoin reply with
    | .fault _ => pure none
    -- the `catch` stands around the loop, so that the first exception ends it
    | .ok (.error _) _ => pure (some ())
    | .ok (.ok ()) _ => joinSelected token uid convId selectedUsers

/-- `handleCreate`, for the user who is logged in. -/
def handleCreate (token : Token) (uid : UInt32) (gname : CStr) (selectedUsers : List UInt32) :
    ClientProg (Option Int) := do
  let reply ← invoke (.convCreate token uid gname)
  match TCPNativeClient.createConv reply with
  | .fault _ => pure none
  -- `return 0`, and nobody is asked for
  | .ok (.error _) _ => pure (some 0)
  | .ok (.ok convId) _ => do
    let joined ← joinSelected token uid convId selectedUsers
    pure (joined.map fun _ => convId)

end CreateConvViewModel

/-! ## The server behind it -/

/-- Requests of other users, and restarts. -/
inductive Others (uid : UInt32) (c₀ : Conn) : Conn → Prop
  | start : Others uid c₀ c₀
  | request {c c' : Conn} {env : Env} {req : Option Request} {out : Handled}
      (hprev : Others uid c₀ c) (hquote : ∀ r ∈ req, r.QuoteFree)
      (huser : ∀ r ∈ req, r.header.userId ≠ uid)
      (hrun : Runs Answers c (handleReq env req) c' out) : Others uid c₀ c'
  | restart {c : Conn} (hprev : Others uid c₀ c) : Others uid c₀ { db := c.saved.getD c.db }

/-- A request of the user, which the server parses as it was made (`request_roundTrip`). It may be
    lost on its way, and so may its response. -/
inductive ApiCalls (uid : UInt32) : Conn → RequestCall → Conn → ApiReply → Prop
  | answered {c c₁ c₂ c' : Conn} {call : RequestCall} {env : Env} {out : Handled}
      {reply : ResponseCall} {prior frame : Frame} {res : Option Response} {copies : List Nat}
      {timedOut : Bool} (hbefore : Others uid c c₁)
      (hrun : Runs Answers c₁ (handleReq env (some ⟨call.header, call.body⟩)) c₂ out)
      (hsent : out.sent = [reply]) (hmake : reply.make prior = .ok frame [])
      (hparse : responseParse frame = .ok res copies) (hafter : Others uid c₂ c') :
      ApiCalls uid c call c' ⟨res, timedOut⟩
  | unanswered {c c₁ c₂ c' : Conn} {call : RequestCall} {env : Env} {out : Handled}
      {timedOut : Bool} (hbefore : Others uid c c₁)
      (hrun : Runs Answers c₁ (handleReq env (some ⟨call.header, call.body⟩)) c₂ out)
      (hafter : Others uid c₂ c') : ApiCalls uid c call c' ⟨none, timedOut⟩
  | unheard {c c' : Conn} {call : RequestCall} {timedOut : Bool} (hbefore : Others uid c c') :
      ApiCalls uid c call c' ⟨none, timedOut⟩

/-- A conversation of this user, who is its only member. -/
structure Founded (uid : UInt32) (id : Nat) (c : Conn) : Prop where
  reached : ∃ log, Session True log c
  row : ∃ r ∈ c.db.conversations, r.id = id ∧ r.adminId = uid.toNat
  members : ∀ u, c.db.ConvMember id u ↔ u = uid.toNat

/-! ## What leaves it alone -/

/-- The members are in the rows of the conversation. -/
theorem Db.convMember_iff {db : Db} {id u : Nat} :
    db.ConvMember id u ↔ ∃ m ∈ (db.convRows id).2, m.userId = u := by
  simp only [Db.ConvMember, Db.convRows, List.mem_filter, decide_eq_true_eq, and_assoc]

section Steps

variable {uid : UInt32} {id : Nat} {c c' : Conn}

/-- A request of somebody else. -/
theorem Founded.other (h : Founded uid id c) {env : Env} {req : Option Request} {out : Handled}
    (hquote : ∀ r ∈ req, r.QuoteFree) (huser : ∀ r ∈ req, r.header.userId ≠ uid)
    (hrun : Runs Answers c (handleReq env req) c' out) : Founded uid id c' := by
  obtain ⟨⟨log, hsession⟩, ⟨r, hr, rfl, hadmin⟩, hmembers⟩ := h
  have heffect : Served.Effective ⟨req, c, c', out, false⟩ := hsession.effective hquote hrun
  -- who is neither a member nor the admin cannot touch the rows of a room
  have hsame : c'.db.convRows r.id = c.db.convRows r.id := by
    rcases heffect with hsame | ⟨r', route, hreq, -, hchange⟩
    · exact congrArg (Db.convRows · r.id) hsame
    have hother : r'.header.userId.toNat ≠ uid.toNat := by
      intro heq
      exact huser r' hreq (UInt32.toNat_inj.mp heq)
    refine hchange.convRows_eq hsession.inv.2 hr ?_ ?_
    · rw [hmembers]
      exact hother
    · rw [hadmin]
      exact hother.symm
  have hrow : r ∈ (c'.db.convRows r.id).1 := by
    rw [hsame]
    exact List.mem_filter.mpr ⟨hr, decide_eq_true rfl⟩
  refine ⟨hsession.next hquote hrun, ⟨r, (List.mem_filter.mp hrow).1, rfl, hadmin⟩, fun u => ?_⟩
  rw [Db.convMember_iff, hsame, ← Db.convMember_iff]
  exact hmembers u

theorem Founded.others (h : Founded uid id c) (hothers : Others uid c c') : Founded uid id c' := by
  induction hothers with
  | start => exact h
  | request _ hquote huser hrun ih => exact ih.other hquote huser hrun
  | restart _ ih =>
    obtain ⟨⟨log, hsession⟩, hrow, hmembers⟩ := ih
    refine ⟨⟨log, hsession.restart trivial⟩, ?_, ?_⟩
    · rwa [hsession.restart_db]
    · rwa [hsession.restart_db]

/-- A join of the creator, who is a member already. -/
theorem Founded.join (h : Founded uid id c) {token : Token} {convId : UInt32} {env : Env}
    {out : Handled} {call : RequestCall} (hcall : call = .convJoin token uid convId uid)
    (hrun : Runs Answers c (handleReq env (some ⟨call.header, call.body⟩)) c' out) :
    Founded uid id c' := by
  subst hcall
  obtain ⟨⟨log, hsession⟩, hrow, hmembers⟩ := h
  have hquote : ∀ r ∈ some (⟨(RequestCall.convJoin token uid convId uid).header,
      (RequestCall.convJoin token uid convId uid).body⟩ : Request), r.QuoteFree := by
    rintro r ⟨⟩ s hs
    cases hs
  have heffect : Served.Effective ⟨some ⟨(RequestCall.convJoin token uid convId uid).header,
      (RequestCall.convJoin token uid convId uid).body⟩, c, c', out, false⟩ :=
    hsession.effective hquote hrun
  -- the request is served as a join, or not at all
  have hstep : c'.db = c.db ∨ Change (RequestCall.convJoin token uid convId uid).header
      (.convJoin { convId, userId := uid }) c c' := by
    rcases heffect with hsame | ⟨r, route, hreq, hroute, hchange⟩
    · exact Or.inl hsame
    · cases hreq
      cases hroute
      exact Or.inr hchange
  -- a second row would change nothing
  have hkept : c'.db.conversations = c.db.conversations ∧
      ∀ u, c'.db.ConvMember id u ↔ c.db.ConvMember id u := by
    rcases hstep with hsame | hchange
    · rw [hsame]
      exact ⟨rfl, fun u => Iff.rfl⟩
    rcases hchange.rooms with ⟨hc, hm⟩ | ⟨_, _, _, ⟨⟩, -⟩ | ⟨_, ⟨⟩, -⟩ |
      ⟨rconv, rowid, ⟨⟩, -, hc, hm⟩ | ⟨_, ⟨⟩, -⟩
    · refine ⟨hc, fun u => ?_⟩
      rw [Db.ConvMember, hm]
      rfl
    · refine ⟨hc, fun u => ?_⟩
      constructor
      · rintro ⟨m, hmem, hid, rfl⟩
        rw [hm] at hmem
        rcases List.mem_append.mp hmem with hmem | hmem
        · exact ⟨m, hmem, hid, rfl⟩
        · obtain rfl := List.mem_singleton.mp hmem
          exact (hmembers _).mpr rfl
      · rintro ⟨m, hmem, hid⟩
        exact ⟨m, hm ▸ List.mem_append_left _ hmem, hid⟩
  refine ⟨hsession.next hquote hrun, ?_, fun u => (hkept.2 u).trans (hmembers u)⟩
  rwa [hkept.1]

/-- So does the request of one join, with whatever happens around it. -/
theorem Founded.apiCall (h : Founded uid id c) {token : Token} {convId : UInt32}
    {reply : ApiReply} (hcall : ApiCalls uid c (.convJoin token uid convId uid) c' reply) :
    Founded uid id c' := by
  cases hcall with
  | answered hbefore hrun _ _ _ hafter => exact ((h.others hbefore).join rfl hrun).others hafter
  | unanswered hbefore hrun hafter => exact ((h.others hbefore).join rfl hrun).others hafter
  | unheard hbefore => exact h.others hbefore

/-- The loop, wherever it stops. -/
theorem Founded.joinSelected (h : Founded uid id c) {token : Token} {convId : Int}
    {selectedUsers : List UInt32} {x : Option Unit}
    (hrun : Runs (ApiCalls uid) c
      (CreateConvViewModel.joinSelected token uid convId selectedUsers) c' x) :
    Founded uid id c' := by
  -- each round is one more join of the creator, and a loop that is left early has made fewer
  induction selectedUsers generalizing c with
  | nil =>
    obtain ⟨rfl, -⟩ := runs_ret.mp hrun
    exact h
  | cons u selectedUsers ih =>
    simp only [CreateConvViewModel.joinSelected, invoke_bind, runs_call] at hrun
    obtain ⟨c₁, reply, hcall, hrest⟩ := hrun
    have hjoined := h.apiCall hcall
    split at hrest
    · obtain ⟨rfl, -⟩ := runs_ret.mp hrest
      exact hjoined
    · obtain ⟨rfl, -⟩ := runs_ret.mp hrest
      exact hjoined
    · exact ih hjoined hrest

end Steps

/-! ## How it is founded -/

/-- The status that the client reads is the one that the server answers with. -/
theorem status_of_parsed {reply : ResponseCall} (hfits : reply.written ≤ responseBodyLen)
    {prior frame : Frame} {res : Response} {copies : List Nat}
    (hmake : reply.make prior = .ok frame [])
    (hparse : responseParse frame = .ok (some res) copies) :
    res.header.statusCode = reply.status := by
  obtain ⟨m, hmake', hlaid⟩ := reply.make_laid hfits prior
  obtain ⟨rfl, -⟩ := Access.ok.inj (hmake.symm.trans hmake')
  -- the header is read back whatever the body is
  rw [responseParse_of_headerAt hlaid.header] at hparse
  obtain ⟨body, copies', hmap⟩ := Access.bind_eq_ok hparse
  obtain ⟨hres, -⟩ := Access.ok.inj hmap
  obtain ⟨b, -, rfl⟩ := Option.map_eq_some_iff.mp hres
  rfl

/-- A new conversation with its creator. -/
theorem founded_of_createsConv {log : List Served} {uid : UInt32} {c c' : Conn}
    (hsession : Session True log c) (hnext : ∃ log', Session True log' c') {gname : CStr} {n : Nat}
    (h : c.db.CreatesConv c'.db uid gname n) : Founded uid n c' := by
  obtain ⟨-, db₁, k, hconv, hmember⟩ := h
  cases Db.insertRow_eq_some hconv
  obtain ⟨-, hdb⟩ := Db.insertRow_inv hmember
  refine ⟨hnext, ?_, fun u => ?_⟩
  · rw [hdb]
    exact ⟨_, List.mem_append_right _ (List.mem_singleton.mpr rfl), rfl, rfl⟩
  · rw [hdb]
    constructor
    · rintro ⟨m, hmem, hid, rfl⟩
      rcases List.mem_append.mp hmem with hmem | hmem
      · -- the id is new
        obtain ⟨r, hr, hrid⟩ := hsession.inv.2.member_conv m hmem
        exact absurd (hrid.trans hid) (Db.lt_nextConv hr).ne
      · obtain rfl := List.mem_singleton.mp hmem
        rfl
    · rintro rfl
      exact ⟨_, List.mem_append_right _ (List.mem_singleton.mpr rfl), rfl, rfl⟩

/-- `conv_create` gives no id when it fails. -/
theorem convCreate_id {c c' : Conn} {adminId id : UInt32} {name : CStr} {rc : Rc}
    (h : Runs Answers c (convCreate adminId name) c' (id, rc)) : rc = .ok ∨ id = 0 := by
  have hreturns : Returns (fun _ _ => True) (fun _ => False)
      (fun x : UInt32 × Rc => x.2 = .ok ∨ x.1 = 0) (convCreate adminId name) := by
    simp [convCreate, rollback]
  exact hreturns.runs (fun _ _ _ _ _ => trivial) h

/-- The answers to the request for a conversation: an id names a new one. -/
theorem convCreate_replies {uid : UInt32} {c c' : Conn} {token : Token} {gname : CStr}
    (hquote : quote ∉ gname.bytes) (hidle : c.saved = none) {env : Env} {out : Handled}
    {call : RequestCall} (hcall : call = .convCreate token uid gname)
    (hrun : Runs Answers c (handleReq env (some ⟨call.header, call.body⟩)) c' out)
    {reply : ResponseCall} (hsent : out.sent = [reply]) :
    (∃ status group action, reply = .err status group action ∧ status ≠ 201) ∨
      ∃ id, reply = .convCreate 201 id ∧
        (id = 0 ∨ ∃ n, c.db.CreatesConv c'.db uid gname n ∧ id = UInt32.ofNat n) := by
  subst hcall
  rw [handleReq] at hrun
  split at hrun
  · obtain ⟨-, rfl⟩ := runs_responseErr.mp hrun
    cases hsent
    exact Or.inl ⟨_, _, _, rfl, by decide⟩
  have hhandle : Runs Answers c (handleConvCreate
      (RequestCall.convCreate token uid gname).header { gname := some gname }) c' out := hrun
  simp only [handleConvCreate, deref, runs_bind] at hhandle
  obtain ⟨c₁, ⟨id, rc⟩, hcreate, hreport⟩ := hhandle
  dsimp only at hreport
  split at hreport
  · obtain ⟨-, rfl⟩ := runs_responseErr.mp hreport
    cases hsent
    exact Or.inl ⟨_, _, _, rfl, by decide⟩
  · obtain ⟨rfl, rfl⟩ := runs_respond.mp hreport
    cases hsent
    refine Or.inr ⟨id, rfl, ?_⟩
    -- `sql_is_err` lets some codes of a rolled back `conv_create` pass; the id is 0 then
    obtain ⟨-, ⟨-, -, hcreates⟩ | ⟨hrc, -⟩⟩ := runs_convCreate hquote hidle hcreate
    · exact Or.inr hcreates
    · exact Or.inl ((convCreate_id hcreate).resolve_left hrc)

/-- An id is stored only with status 201. -/
theorem createConv_stored {reply : ApiReply} {stt : Int} {gid : UInt32} {copies : List Nat}
    (h : createConv reply = .ok (stt, some gid) copies) :
    ∃ res rconv, reply.res = some res ∧ res.header.statusCode = 201 ∧ res.body = .conv rconv ∧
      gid = rconv.convId := by
  obtain ⟨res, timedOut⟩ := reply
  cases res with
  | none => cases h
  | some res =>
    simp only [createConv, handleResStt] at h
    -- with any other status `_conv_id` is not written to
    by_cases hstatus : res.header.statusCode = 201
    · rw [if_pos hstatus] at h
      cases hbody : res.body with
      | conv rconv =>
        rw [hbody] at h
        cases h
        exact ⟨res, rconv, rfl, hstatus, hbody, rfl⟩
      | _ =>
        rw [hbody] at h
        cases h
    · rw [if_neg hstatus] at h
      cases h

/-- What `_create_conv` returns, when it is not 0. -/
theorem createConv_ne_zero {reply : ApiReply} {convId : Int} {copies : List Nat}
    (h : TCPNativeClient.createConv reply = .ok (.ok convId) copies) (hne : convId ≠ 0) :
    ∃ res rconv, reply.res = some res ∧ res.header.statusCode = 201 ∧ res.body = .conv rconv ∧
      convId = intValue rconv.convId := by
  rw [TCPNativeClient.createConv] at h
  cases hstored : createConv reply with
  | fault l =>
    rw [hstored] at h
    cases h
  | ok x l =>
    obtain ⟨stt, gid⟩ := x
    rw [hstored, Access.ok_bind] at h
    obtain ⟨l₁, h⟩ := Access.of_after_eq_ok h
    have hconv : convId = intValue (gid.getD 0) := by
      dsimp only at h
      split at h
      · cases h
        rfl
      · cases h
    cases gid with
    -- without a new conversation the reference still holds 0
    | none => exact absurd hconv hne
    | some gid =>
      obtain ⟨res, rconv, hres, hstatus, hbody, rfl⟩ := createConv_stored hstored
      exact ⟨res, rconv, hres, hstatus, hbody, hconv⟩

theorem Others.session {uid : UInt32} {log : List Served} {c c' : Conn} (h : Others uid c c')
    (hsession : Session True log c) : ∃ log', Session True log' c' := by
  induction h with
  | start => exact ⟨log, hsession⟩
  | request _ hquote _ hrun ih =>
    obtain ⟨log', hsession'⟩ := ih
    exact hsession'.next hquote hrun
  | restart _ ih =>
    obtain ⟨log', hsession'⟩ := ih
    exact ⟨log', hsession'.restart trivial⟩

/-- An id that is not 0 is the one of a new conversation. -/
theorem founded_of_createConv {log : List Served} {uid : UInt32} {c c' : Conn}
    (hsession : Session True log c) {token : Token} {gname : CStr}
    (hquote : quote ∉ gname.bytes) {reply : ApiReply}
    (hcall : ApiCalls uid c (.convCreate token uid gname) c' reply) {convId : Int}
    {copies : List Nat} (hcreated : TCPNativeClient.createConv reply = .ok (.ok convId) copies)
    (hne : convId ≠ 0) : ∃ n, Founded uid n c' ∧ convId = intValue (UInt32.ofNat n) := by
  obtain ⟨res, rconv, hres, hstatus, hbody, hconv⟩ := createConv_ne_zero hcreated hne
  -- a request or an answer that was lost gives no id
  cases hcall with
  | unanswered => cases hres
  | unheard => cases hres
  | @answered c₁ c₂ _ _ env out reply prior frame _ copies' timedOut hbefore hrun hsent hmake
      hparse hafter =>
    cases hres
    obtain ⟨log₁, hsession₁⟩ := hbefore.session hsession
    rcases convCreate_replies hquote hsession₁.inv.1 rfl hrun hsent with
      ⟨status, group, action, rfl, hother⟩ | ⟨id, rfl, hid⟩
    · have hread := status_of_parsed (Nat.zero_le _) hmake hparse
      exact absurd (hread.symm.trans hstatus) hother
    have hwell : (ResponseCall.convCreate 201 id).WellFormed :=
      .of_plain (by simp [ResponseCall.written]) rfl rfl
    -- the frame is read back, so the id is the one that the server has sent
    obtain ⟨frame', copies₁, hmake', hparse'⟩ := response_roundTrip _ _ prior rfl hwell
    obtain ⟨rfl, -⟩ := Access.ok.inj (hmake.symm.trans hmake')
    obtain ⟨hsame, -⟩ := Access.ok.inj (hparse.symm.trans hparse')
    cases hsame
    cases hbody
    rcases hid with rfl | ⟨n, hcreates, rfl⟩
    · exact absurd hconv hne
    have hfree : ∀ r ∈ some (⟨(RequestCall.convCreate token uid gname).header,
        (RequestCall.convCreate token uid gname).body⟩ : Request), r.QuoteFree := by
      rintro r ⟨⟩ s hs
      obtain rfl : s = gname := by simpa [RequestCall.body, RequestBody.strings] using hs
      exact hquote
    have hnext := hsession₁.next hfree hrun
    exact ⟨n, (founded_of_createsConv hsession₁ hnext hcreates).others hafter, hconv⟩

/-! ## The group -/

/-- Whatever the joins come to, the creator is the only member. -/
theorem founded_of_handleCreate {log : List Served} {uid : UInt32} {c c' : Conn}
    (hsession : Session True log c) {token : Token} {gname : CStr}
    (hquote : quote ∉ gname.bytes) {selectedUsers : List UInt32} {id : Int}
    (hrun : Runs (ApiCalls uid) c
      (CreateConvViewModel.handleCreate token uid gname selectedUsers) c' (some id))
    (hne : id ≠ 0) : ∃ n, Founded uid n c' ∧ id = intValue (UInt32.ofNat n) := by
  simp only [CreateConvViewModel.handleCreate, invoke_bind, runs_call] at hrun
  obtain ⟨c₁, reply, hcall, hrest⟩ := hrun
  cases hcreated : TCPNativeClient.createConv reply with
  | fault l =>
    rw [hcreated] at hrest
    obtain ⟨-, hnone⟩ := runs_ret.mp hrest
    cases hnone
  | ok x l =>
    rw [hcreated] at hrest
    cases x with
    | error e =>
      obtain ⟨-, hzero⟩ := runs_ret.mp hrest
      cases hzero
      exact absurd rfl hne
    | ok convId =>
      dsimp only at hrest
      rw [runs_bind] at hrest
      obtain ⟨c₂, joined, hjoins, hret⟩ := hrest
      obtain ⟨rfl, hid⟩ := runs_ret.mp hret
      obtain ⟨-, -, rfl⟩ := Option.map_eq_some_iff.mp hid.symm
      -- the loop starts with a conversation of one member
      obtain ⟨n, hfounded, hconv⟩ := founded_of_createConv hsession hquote hcall hcreated hne
      exact ⟨n, hfounded.joinSelected hjoins, hconv⟩

theorem ofInt_intValue (n : UInt32) : UInt32.ofInt (intValue n) = n := by
  -- the id goes through a signed `int` in Java, and comes back as it was
  have hint : intValue n = (n.toNat : Int).bmod (2 ^ 32) := n.toBitVec.toInt_eq_toNat_bmod
  have hmod : intValue n % 2 ^ 32 = n.toNat := by
    have hlt := n.toNat_lt
    rw [hint]
    refine Int.bmod_emod.trans (Int.emod_eq_of_lt (Int.natCast_nonneg _) ?_)
    omega
  rw [UInt32.ofInt, hmod, Int.toNat_natCast, UInt32.ofNat_toNat]

/-- **Who is in a new group.** In every reachable state, for every selection and whatever happens
    to the requests on their way: if `handleCreate` returns an id other than 0, the members of the
    conversation are the creator and the selected users if and only if nobody but the creator is
    selected. Ids fit the 32 bits they have on the wire. -/
theorem group_members_iff {log : List Served} {uid : UInt32} {c c' : Conn}
    (hsession : Session True log c) {token : Token} {gname : CStr}
    (hquote : quote ∉ gname.bytes) {selectedUsers : List UInt32} {id : Int}
    (hrun : Runs (ApiCalls uid) c
      (CreateConvViewModel.handleCreate token uid gname selectedUsers) c' (some id))
    (hne : id ≠ 0) (hids : ∀ r ∈ c'.db.conversations, r.id < 2 ^ 32) :
    (∀ u, c'.db.ConvMember (UInt32.ofInt id).toNat u ↔
      u = uid.toNat ∨ ∃ s ∈ selectedUsers, u = s.toNat) ↔ ∀ s ∈ selectedUsers, s = uid := by
  obtain ⟨n, hfounded, rfl⟩ := founded_of_handleCreate hsession hquote hrun hne
  have hn : (UInt32.ofInt (intValue (UInt32.ofNat n))).toNat = n := by
    obtain ⟨r, hr, rfl, -⟩ := hfounded.row
    rw [ofInt_intValue]
    exact UInt32.toNat_ofNat_of_lt' (hids r hr)
  simp only [hn, hfounded.members]
  constructor
  · intro h s hs
    have hmember := (h s.toNat).mpr (Or.inr ⟨s, hs, rfl⟩)
    exact UInt32.toNat_inj.mp hmember
  · intro h u
    constructor
    · exact Or.inl
    · rintro (rfl | ⟨s, hs, rfl⟩)
      · rfl
      · rw [h s hs]

/-! ## A group of two -/

def duo : CStr := .ofBytes (ascii "duo")

/-- The lobby when user 1 has created conversation 2. -/
def duoConn : Conn where
  db := { lobbyDb with
    conversations := lobbyDb.conversations ++ [⟨2, 1, duo⟩]
    members := lobbyDb.members ++ [⟨3, 2, 1⟩] }
  fk := true
  lastRowid := 3

theorem duo_created : Runs Answers { db := lobbyDb, fk := true, lastRowid := 2 }
    (handleReq lobbyEnv (some ⟨(RequestCall.convCreate emptyToken 1 duo).header,
      (RequestCall.convCreate emptyToken 1 duo).body⟩)) duoConn
    { sent := [.convCreate 201 2] } := by
  have hexec : execute serve 32 { db := lobbyDb, fk := true, lastRowid := 2 }
      (handleReq lobbyEnv (some ⟨(RequestCall.convCreate emptyToken 1 duo).header,
        (RequestCall.convCreate emptyToken 1 duo).body⟩)) =
      some (duoConn, { sent := [.convCreate 201 2] }) := by
    decide
  exact runs_of_execute answers_of_serve hexec

/-- User 1 is a member already. -/
theorem duo_joined : Runs Answers duoConn
    (handleReq lobbyEnv (some ⟨(RequestCall.convJoin emptyToken 1 2 1).header,
      (RequestCall.convJoin emptyToken 1 2 1).body⟩)) duoConn { sent := [.err 500 2 2] } := by
  have hexec : execute serve 32 duoConn
      (handleReq lobbyEnv (some ⟨(RequestCall.convJoin emptyToken 1 2 1).header,
        (RequestCall.convJoin emptyToken 1 2 1).body⟩)) =
      some (duoConn, { sent := [.err 500 2 2] }) := by
    decide
  exact runs_of_execute answers_of_serve hexec

/-- The client does not understand the answer to a join: it has no body. -/
theorem joinErr_parsed : ∃ frame copies,
    (ResponseCall.err 500 2 2).make (fun _ => 0) = .ok frame [] ∧
      responseParse frame = .ok none copies := by
  obtain ⟨frame, hmake, hlaid⟩ := (ResponseCall.err 500 2 2).make_laid (Nat.zero_le _) fun _ => 0
  refine ⟨frame, [], hmake, ?_⟩
  rw [responseParse_of_headerAt hlaid.header]
  rfl

/-- User 1 selects one user. -/
theorem duo_run (selected : UInt32) :
    Runs (ApiCalls 1) { db := lobbyDb, fk := true, lastRowid := 2 }
      (CreateConvViewModel.handleCreate emptyToken 1 duo [selected]) duoConn (some 2) := by
  have hwell : (ResponseCall.convCreate 201 2).WellFormed := .of_plain (by decide) rfl rfl
  obtain ⟨frame, copies, hmake, hparse⟩ := response_roundTrip _ _ (fun _ => 0) rfl hwell
  obtain ⟨frame', copies', hmake', hparse'⟩ := joinErr_parsed
  rw [CreateConvViewModel.handleCreate, invoke_bind, runs_call]
  refine ⟨duoConn, ⟨_, false⟩, .answered .start duo_created rfl hmake hparse .start, ?_⟩
  refine runs_bind.mpr ⟨duoConn, some (), ?_, runs_ret.mpr ⟨rfl, rfl⟩⟩
  -- the answer to the join passes for a timeout
  rw [CreateConvViewModel.joinSelected, invoke_bind, runs_call]
  refine ⟨duoConn, ⟨none, true⟩, .answered .start duo_joined rfl hmake' hparse' .start, ?_⟩
  exact runs_ret.mpr ⟨rfl, rfl⟩

/-- The creator selects nobody else. -/
theorem group_members_duo : ∃ log c c', Session True log c ∧
    Runs (ApiCalls 1) c (CreateConvViewModel.handleCreate emptyToken 1 duo [1]) c' (some 2) ∧
    ∀ u, c'.db.ConvMember 2 u ↔ u = 1 ∨ ∃ s ∈ ([1] : List UInt32), u = s.toNat := by
  have hsession : Session True lobbyLog { db := lobbyDb, fk := true, lastRowid := 2 } :=
    lobbyPlay_session (lobbyPlay_eq [])
  have hquote : quote ∉ duo.bytes := by decide
  have hids : ∀ r ∈ duoConn.db.conversations, r.id < 2 ^ 32 := by decide
  refine ⟨_, _, _, hsession, duo_run 1, ?_⟩
  exact (group_members_iff hsession hquote (duo_run 1) (by decide) hids).mpr (by simp)

/-- User 2 is selected and does not get in. -/
theorem selected_not_joined : ∃ log c c', Session True log c ∧ (∃ u ∈ c.db.users, u.id = 2) ∧
    Runs (ApiCalls 1) c (CreateConvViewModel.handleCreate emptyToken 1 duo [2]) c' (some 2) ∧
    ¬ ∀ u, c'.db.ConvMember 2 u ↔ u = 1 ∨ ∃ s ∈ ([2] : List UInt32), u = s.toNat := by
  have hsession : Session True lobbyLog { db := lobbyDb, fk := true, lastRowid := 2 } :=
    lobbyPlay_session (lobbyPlay_eq [])
  have hmissing : ¬ duoConn.db.ConvMember 2 2 := by decide
  refine ⟨_, _, _, hsession, by decide, duo_run 2, fun h => ?_⟩
  exact hmissing ((h 2).mpr (Or.inr ⟨2, List.mem_singleton.mpr rfl, rfl⟩))

end MeshChat
