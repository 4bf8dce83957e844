import MeshChat.Server.Absent
import MeshChat.Server.Sending

/-! # The content of a message, as the client copies it

    `content_length` is declared by the sender, stored with the message, sent back with
    it, and trusted by the client library as the number of bytes to copy.

    * `getMsgDetailRaw`, `getMsgDetail`: what the client library does with the response.
    * `Copied`: it copies the content of the message, and no more.
    * `Lengths`: every stored length is the length of the stored content.
    * `Request.LengthsAgree`: the requests that keep it so. A message that is deleted
      keeps its length, and the length of a file is not the one of its path.
-/

namespace MeshChat

open CMemory SqlLex Prog

/-! ## The client library (`service.c`) -/

/-- `memcpy` out of a decoded string: there are its bytes and the terminator to be
    read. -/
def memcpyString (s : CStr) (len : Nat) : Access (List UInt8) :=
  if len ≤ s.strlen + 1 then .ok ((s.bytes ++ [0]).take len) [len] else .fault [len]

/-- `HANDLE_RES_STT` to `FREE_AND_RETURN_STT`: the status that is returned, and what the
    case of the status stores. Without a response `errno` decides. -/
def handleResStt {α : Type} (timedOut : Bool) (res : Option Response)
    (k : Response → Access (Option α)) : Access (Int × Option α) :=
  match res with
  | none => pure (if timedOut then 408 else -1, none)
  | some res => do
    let stored ← k res
    pure (res.header.statusCode.toInt32.toInt, stored)

/-- The member `r_msg` of the body and its text, which must be there. -/
def withMsg {α : Type} (res : Response) (k : ResponseMsg → CStr → Access α) : Access α :=
  match res.body with
  | .msg rmsg =>
    match rmsg.msgContent with
    | some content => k rmsg content
    | none => .fault []
  | _ => .fault []

/-- What `_get_msg_detail_raw` stores for its caller. -/
structure RawDetail where
  chatId : UInt32
  convId : UInt32
  replyTo : UInt32
  fromUid : UInt32
  createdAt : UInt32
  contentType : UInt32
  contentLength : UInt32
  msgContent : List UInt8
  deriving DecidableEq

/-- `_get_msg_detail_raw` behind `api_call`. -/
def getMsgDetailRaw (timedOut : Bool) (res : Option Response) : Access (Int × Option RawDetail) :=
  handleResStt timedOut res fun res =>
    if res.header.statusCode = 200 then
      withMsg res fun rmsg content => do
        let copied ← memcpyString content rmsg.contentLength.toNat
        pure (some { chatId := rmsg.chatId, convId := rmsg.convId, replyTo := rmsg.replyTo,
                     fromUid := rmsg.fromUid, createdAt := rmsg.createdAt,
                     contentType := rmsg.contentType.toUInt32,
                     contentLength := rmsg.contentLength, msgContent := copied })
    else pure none

/-- What `_get_msg_detail` stores in the `response_msg` of its caller. -/
structure DetailCopy where
  msgId : UInt32
  chatId : UInt32
  convId : UInt32
  replyTo : UInt32
  fromUid : UInt32
  createdAt : UInt32
  msgType : UInt8
  contentType : UInt8
  contentLength : UInt32
  msgContent : List UInt8
  deriving DecidableEq

/-- `_get_msg_detail` behind `api_call`; `given` says that the caller has a buffer. The
    size of a new one is computed with 32 bits. -/
def getMsgDetail (timedOut given : Bool) (res : Option Response) :
    Access (Int × Option DetailCopy) :=
  handleResStt timedOut res fun res =>
    if res.header.statusCode = 200 then
      withMsg res fun rmsg content => do
        let copied ← memcpyString content rmsg.contentLength.toNat
        if !given ∧ (rmsg.contentLength + 1).toNat < rmsg.contentLength.toNat then .fault []
        else
          pure (some { msgId := rmsg.msgId, chatId := rmsg.chatId, convId := rmsg.convId,
                       replyTo := rmsg.replyTo, fromUid := rmsg.fromUid,
                       createdAt := rmsg.createdAt, msgType := rmsg.msgType,
                       contentType := rmsg.contentType, contentLength := rmsg.contentLength,
                       msgContent := copied })
    else pure none

/-! ## What is copied -/

/-- The client copies the content of the message out of the response, and reads nothing
    behind the text that was decoded. -/
structure Copied (m : MsgRow) (res : Response) : Prop where
  inside : ∃ rmsg text, res.body = .msg rmsg ∧ rmsg.msgContent = some text ∧
    rmsg.contentLength.toNat ≤ text.strlen
  raw : ∀ timedOut, ∃ x copies,
    getMsgDetailRaw timedOut (some res) = .ok (200, some x) copies ∧ x.msgContent = m.content.bytes
  detail : ∀ timedOut given, ∃ x copies,
    getMsgDetail timedOut given (some res) = .ok (200, some x) copies ∧
      x.msgContent = m.content.bytes

/-- For every frame that is left of the response, the client copies the content of the
    message. -/
def ResponseCall.Copies (r : ResponseCall) (m : MsgRow) : Prop :=
  ∀ prior, ∃ frame res copies, r.make prior = .ok frame [] ∧
    responseParse frame = .ok (some res) copies ∧ Copied m res

theorem memcpyString_whole (s : CStr) : memcpyString s s.strlen = .ok s.bytes [s.strlen] := by
  have hwhole : (s.bytes ++ [0]).take s.strlen = s.bytes := List.take_left
  rw [memcpyString, if_pos (Nat.le_succ _), hwhole]

/-- What is stored for the caller when the length is right. -/
theorem getMsgDetailRaw_of_length {content : CStr} {res : Response} {rmsg : ResponseMsg}
    (hstatus : res.header.statusCode = 200) (hbody : res.body = .msg rmsg)
    (htext : rmsg.msgContent = some content) (hlen : rmsg.contentLength.toNat = content.strlen)
    (timedOut : Bool) :
    ∃ x copies, getMsgDetailRaw timedOut (some res) = .ok (200, some x) copies ∧
      x.contentLength = rmsg.contentLength ∧ x.msgContent = content.bytes := by
  have hcopy := memcpyString_whole content
  rw [← hlen] at hcopy
  simp only [getMsgDetailRaw, handleResStt, withMsg, hstatus, hbody, htext, hcopy, if_true,
    Access.ok_bind, Access.pure_eq, Access.after_ok]
  exact ⟨_, _, rfl, rfl, rfl⟩

/-- A response with the right length. -/
theorem copied_of_length {m : MsgRow} {res : Response} {rmsg : ResponseMsg}
    (hstatus : res.header.statusCode = 200) (hbody : res.body = .msg rmsg)
    (htext : rmsg.msgContent = some m.content) (hlen : rmsg.contentLength.toNat = m.content.strlen)
    (hshort : m.content.strlen ≤ responseBodyLen) : Copied m res := by
  have hcopy := memcpyString_whole m.content
  rw [← hlen] at hcopy
  -- the size of a new buffer does not overflow
  have hroom : ¬ (rmsg.contentLength + 1).toNat < rmsg.contentLength.toNat := by
    simp only [responseBodyLen, bufsiz, responseHeaderLen] at hshort
    rw [UInt32.toNat_add, hlen]
    simp
    omega
  refine ⟨⟨rmsg, m.content, hbody, htext, le_of_eq hlen⟩, ?_, ?_⟩
  · intro timedOut
    obtain ⟨x, copies, hraw, -, hcontent⟩ :=
      getMsgDetailRaw_of_length hstatus hbody htext hlen timedOut
    exact ⟨x, copies, hraw, hcontent⟩
  · intro timedOut given
    simp only [getMsgDetail, handleResStt, withMsg, hstatus, hbody, htext, hcopy, if_true,
      if_neg (show ¬ (_ ∧ _) from fun h => hroom h.2), Access.ok_bind, Access.pure_eq,
      Access.after_ok]
    exact ⟨_, _, rfl, rfl⟩

/-- The frame that is made for a message is parsed to its content and its length. -/
theorem detail_parsed {m : MsgRow} (msgId : UInt32) (hshort : 30 + m.content.strlen ≤ responseBodyLen)
    (prior : Frame) :
    ∃ frame res copies rmsg,
      (ResponseCall.msgGetDetail 200 (m.schema msgId).detail).make prior = .ok frame [] ∧
      responseParse frame = .ok (some res) copies ∧ res.header.statusCode = 200 ∧
      res.body = .msg rmsg ∧ rmsg.msgContent = some m.content ∧
      rmsg.contentLength = UInt32.ofNat m.contentLength := by
  have hwell : (ResponseCall.msgGetDetail 200 (m.schema msgId).detail).WellFormed := by
    refine ⟨hshort, ?_, by simp [ResponseCall.delimited]⟩
    intro s hs
    obtain rfl : s = m.content := by
      simpa [ResponseCall.strings, MsgSchema.detail, MsgRow.schema] using hs
    omega
  obtain ⟨frame, hmake, hlaid⟩ := ResponseCall.make_laid _ hwell.fits prior
  obtain ⟨copies, hbody⟩ := ResponseCall.parseBody_laid _ hwell rfl hlaid
  have hparse := responseParse_of_headerAt hlaid.header
  simp only [hbody, Access.ok_bind, Access.pure_eq, Access.after_ok, List.append_nil,
    Option.map_some] at hparse
  exact ⟨frame, _, copies, _, hmake, hparse, rfl, rfl, rfl, rfl⟩

/-- The response for a message whose length is right. -/
theorem copies_of_length {m : MsgRow} (msgId : UInt32) (hlen : m.contentLength = m.content.strlen)
    (hshort : 30 + m.content.strlen ≤ responseBodyLen) :
    (ResponseCall.msgGetDetail 200 (m.schema msgId).detail).Copies m := by
  intro prior
  obtain ⟨frame, res, copies, rmsg, hmake, hparse, hstatus, hbody, htext, hlength⟩ :=
    detail_parsed msgId hshort prior
  refine ⟨frame, res, copies, hmake, hparse,
    copied_of_length hstatus hbody htext ?_ (by omega)⟩
  simp only [responseBodyLen, bufsiz, responseHeaderLen] at hshort
  rw [hlength, UInt32.toNat_ofNat', hlen]
  omega

/-- A response with a length behind the terminator. -/
theorem overread_of_length {m : MsgRow} {res : Response} {rmsg : ResponseMsg}
    (hstatus : res.header.statusCode = 200) (hbody : res.body = .msg rmsg)
    (htext : rmsg.msgContent = some m.content)
    (hlen : m.content.strlen + 1 < rmsg.contentLength.toNat) (timedOut : Bool) :
    getMsgDetailRaw timedOut (some res) = .fault [rmsg.contentLength.toNat] := by
  have hcopy : memcpyString m.content rmsg.contentLength.toNat =
      .fault [rmsg.contentLength.toNat] := if_neg (Nat.not_le.mpr hlen)
  simp only [getMsgDetailRaw, handleResStt, withMsg, hstatus, hbody, htext, hcopy, if_true,
    Access.fault_bind]

/-! ## Stored lengths -/

/-- Every stored length is the length of the stored content. -/
def Lengths (db : Db) : Prop := ∀ m ∈ db.messages, m.contentLength = m.content.strlen

/-- The request keeps the stored lengths right: the length of a text is declared as it
    is, that of a file is the one of its path, and what is deleted was empty. -/
def Request.LengthsAgree (req : Request) (db : Db) : Prop :=
  match req.route with
  | some (.msgSend rm) => ∀ s, rm.msgContent = some s →
      (req.header.contentType = msgText → (req.header.contentLen - 12).toNat = s.strlen) ∧
      (req.header.contentType = msgFile → req.header.contentLen.toNat = pathLength s)
  | some (.msgDelete rm) => ∀ m ∈ db.messages, m.id = rm.msgId.toNat →
      db.Readable m req.header.userId.toNat → m.contentLength = 0
  | _ => True

def Served.LengthsAgree (e : Served) : Prop := ∀ r, e.req = some r → r.LengthsAgree e.pre.db

section Steps

variable {c c' : Conn} {env : Env} {header : RequestHeader} {rm : RequestMsgBody}

theorem Composed.length {msg : MsgSchema} {ops : List FileOp} (h : Composed env header rm msg ops)
    (hagree : ∀ s, rm.msgContent = some s →
      (header.contentType = msgText → (header.contentLen - 12).toNat = s.strlen) ∧
      (header.contentType = msgFile → header.contentLen.toNat = pathLength s)) :
    msg.contentLength.toNat = msg.content.strlen := by
  cases h with
  | text htype hs => exact (hagree _ hs).1 htype
  | file htype hs hpath =>
    rw [storagePath_strlen hpath]
    exact (hagree _ hs).2 htype

/-- A new message has the length it was sent with. -/
theorem Lengths.sent (h : Lengths c.db) {msg : MsgSchema} {now : UInt32} {n : Nat}
    (hsends : msg.Sends now c.db c'.db n)
    (hlen : msg.contentLength.toNat = msg.content.strlen) : Lengths c'.db := by
  rw [Lengths, hsends.messages]
  intro m hm
  rcases List.mem_append.mp hm with hm | hm
  · exact h m hm
  · rw [List.mem_singleton.mp hm]
    exact hlen

/-- A message is marked or deleted. -/
theorem Lengths.updated (h : Lengths c.db) {id : Nat} {f : MsgRow → MsgRow}
    (hdb : c'.db = c.db.updateMessage id f)
    (hf : ∀ m ∈ c.db.messages, m.id = id → (f m).contentLength = (f m).content.strlen) :
    Lengths c'.db := by
  rw [hdb]
  intro n hn
  obtain ⟨m, hm, rfl⟩ := List.mem_map.mp hn
  split
  · exact hf m hm (by simpa using ‹_›)
  · exact h m hm

/-- What the other requests do to the messages. -/
theorem Lengths.changed (h : Lengths c.db) (hids : RoomIds c.db) {req : Request} {route : Route}
    (hroute : req.route = some route) (hnotsend : ∀ rm, route ≠ .msgSend rm)
    (hchange : Change req.header route c c') (hagree : req.LengthsAgree c.db) : Lengths c'.db := by
  rcases hchange.messages with ⟨-, hsub⟩ | hsame | ⟨rm, -, -, hsend, -⟩ |
    ⟨rm, m, hm, hid, hread, ⟨-, hdb⟩ | ⟨hdelete, hdb⟩⟩
  · exact fun m hm => h m (hsub.subset hm)
  · rw [Lengths, hsame]
    exact h
  · exact absurd hsend (hnotsend rm)
  · exact h.updated hdb fun m hm _ => h m hm
  · -- the content goes, the length stays: it must be 0
    refine h.updated hdb fun m' hm' hid' => ?_
    obtain rfl : m' = m := eq_of_id_eq hids.messages_nodup hm' hm (hid'.trans hid.symm)
    rw [Request.LengthsAgree, hroute, hdelete] at hagree
    exact hagree m' hm hid hread

theorem Lengths.step (h : Lengths c.db) (hids : RoomIds c.db) (hidle : c.saved = none)
    {req : Option Request} {out : Handled} (hquote : ∀ r ∈ req, r.QuoteFree)
    (hagree : ∀ r, req = some r → r.LengthsAgree c.db)
    (hrun : Runs Answers c (handleReq env req) c' out) : Lengths c'.db := by
  rcases handleReq_cases le_rfl hrun with ⟨r, route, rfl, hroute, hhandle⟩ | ⟨rfl, -⟩ | ⟨rfl, -⟩
  · have hfree : ∀ s ∈ route.strings, quote ∉ s.bytes :=
      fun s hs => hquote r rfl s (Request.mem_strings_of_route hroute hs)
    have hreq := hagree r rfl
    by_cases hsend : ∃ rm, route = .msgSend rm
    · obtain ⟨rm, rfl⟩ := hsend
      rw [Request.LengthsAgree, hroute] at hreq
      rcases runs_handleMsgSend hfree hidle hhandle with hnone | ⟨msg, n, ops, hmsg, hsends, -⟩
      · rw [Lengths, hnone.same]
        exact h
      · exact h.sent hsends (hmsg.length hreq)
    · exact h.changed hids hroute (fun rm heq => hsend ⟨rm, heq⟩) (Route.change hfree hidle hhandle).2
        hreq
  · exact h
  · exact h

end Steps

/-- Over a whole session. -/
theorem Session.lengths {restarts : Prop} {log : List Served} {c : Conn}
    (h : Session restarts log c) (hagree : ∀ e ∈ log, e.LengthsAgree) : Lengths c.db := by
  induction h with
  | start => exact fun _ hm => by cases hm
  | @request log c c' env req out clean hprev hquote hrun hclean ih =>
    have hprior := ih fun e he => hagree e (List.mem_append_left _ he)
    have hlast := hagree ⟨req, c, c', out, clean⟩ (by simp)
    exact hprior.step hprev.inv.2 hprev.inv.1 hquote hlast hrun
  | restart _ hprev ih =>
    rw [hprev.restart_db]
    exact ih hagree

/-- A message that may be read is answered with, when nothing goes wrong. -/
theorem served_msgGetDetail {c : Conn} (hids : RoomIds c.db) {m : MsgRow} (hm : m ∈ c.db.messages)
    {header : RequestHeader} {rm : RequestMsgBody} (hid : m.id = rm.msgId.toNat)
    (hread : c.db.Readable m header.userId.toNat) :
    ∃ c', Runs Serves c (handleMsgGetDetail header rm) c'
      { sent := [.msgGetDetail 200 (m.schema rm.msgId).detail] } := by
  have hfirst := first_of_id hids.messages_nodup hm hid
  have hdelivered := served_sqlExecIgnored_run (c := c)
    (s := .setMessageType rm.msgId.toNat .delivered) (by simp)
  exact ⟨_, served_ifReadable hfirst hread (runs_bind.mpr ⟨_, _, hdelivered, .ret _ _⟩)⟩

/-- It is answered with or refused, whatever fails. -/
theorem runs_msgGetDetail {c c' : Conn} (hids : RoomIds c.db) {m : MsgRow} (hm : m ∈ c.db.messages)
    {header : RequestHeader} {rm : RequestMsgBody} (hid : m.id = rm.msgId.toNat) {out : Handled}
    (hrun : Runs Answers c (handleMsgGetDetail header rm) c' out) :
    Refused c c' out ∨ out = { sent := [.msgGetDetail 200 (m.schema rm.msgId).detail] } := by
  rcases runs_ifReadable le_rfl hrun with hrefused | ⟨m', hm', -, hrest⟩
  · exact Or.inl hrefused
  have hfirst := first_of_id hids.messages_nodup hm hid
  obtain rfl : m = m' := Option.some.inj (hfirst.symm.trans hm')
  simp only [runs_bind] at hrest
  obtain ⟨c₁, rc, -, hrespond⟩ := hrest
  obtain ⟨-, rfl⟩ := runs_respond.mp hrespond
  exact Or.inr rfl

/-- In every state that is reached by requests with the right lengths, for every message
    and everybody who may read it: the server answers with the message unless a call to
    sqlite fails, and from what it answers with the client copies the stored content. -/
theorem content_copied {log : List Served} {c : Conn} (h : Session True log c)
    (hagree : ∀ e ∈ log, e.LengthsAgree) (m : MsgRow) (hm : m ∈ c.db.messages)
    (header : RequestHeader) (rm : RequestMsgBody) (hid : m.id = rm.msgId.toNat)
    (hread : c.db.Readable m header.userId.toNat) :
    (∃ c' d, Runs Serves c (handleMsgGetDetail header rm) c' { sent := [.msgGetDetail 200 d] }) ∧
    ∀ c' out, Runs Answers c (handleMsgGetDetail header rm) c' out → Refused c c' out ∨
      ∃ d, out = { sent := [.msgGetDetail 200 d] } ∧ (ResponseCall.msgGetDetail 200 d).Copies m := by
  constructor
  · obtain ⟨c', hserved⟩ := served_msgGetDetail h.inv.2 hm hid hread
    exact ⟨c', _, hserved⟩
  · intro c' out hrun
    rcases runs_msgGetDetail h.inv.2 hm hid hrun with hrefused | rfl
    · exact Or.inl hrefused
    have hlen := h.lengths hagree m hm
    have hshort := h.textsFit.messages m hm
    refine Or.inr ⟨_, rfl, copies_of_length rm.msgId hlen ?_⟩
    simp only [queryLarge, responseBodyLen, bufsiz, responseHeaderLen] at hshort ⊢
    omega

/-! ## A note -/

instance (db : Db) (m : MsgRow) (userId : Nat) : Decidable (db.Readable m userId) :=
  inferInstanceAs (Decidable (_ ∨ _))

/-- Users 1 and 2 have a chat, to which user 1 sends a text of four bytes. -/
def noteRequests : List Request :=
  [registerAs "an", registerAs "bo", requestBy 1 3 0 (.chat { userId2 := 2 }),
   requestBy 1 4 2 (.msg { chatId := 1, msgContent := some (.ofBytes (ascii "psst")) })]

/-- The session of the requests above, followed by some more. -/
def notePlay (reqs : List Request) : Option (List Served × Conn) :=
  Session.play 32 ((noteRequests ++ reqs).map (lobbyEnv, ·)) [] { db := {} }

theorem notePlay_session {restarts : Prop} {reqs : List Request} {x : List Served × Conn}
    (h : notePlay reqs = some x) : Session restarts x.1 x.2 :=
  Session.of_play .start h

theorem noteRequests_agree {r : Request} (hr : r ∈ noteRequests) (db : Db) : r.LengthsAgree db := by
  simp only [noteRequests, List.mem_cons, List.not_mem_nil, or_false] at hr
  rcases hr with rfl | rfl | rfl | rfl
  · trivial
  · trivial
  · trivial
  · intro s hs
    obtain rfl : CStr.ofBytes (ascii "psst") = s := Option.some.inj hs
    exact ⟨fun _ => by decide, fun hfile => absurd hfile (by decide)⟩

/-- User 2 reads the note. -/
theorem content_copied_note :
    ∃ log c m, Session True log c ∧ m ∈ c.db.messages ∧
      m.content.bytes = [112, 115, 115, 116] ∧
      ∀ c' out, Runs Answers c (handleMsgGetDetail (requestBy 2 4 1 (.msg {})).header { msgId := 1 })
        c' out → Refused c c' out ∨
          ∃ d, out = { sent := [.msgGetDetail 200 d] } ∧
            (ResponseCall.msgGetDetail 200 d).Copies m := by
  have hplay : (notePlay []).any (fun x =>
      decide ((∀ e ∈ x.1, e.req ∈ noteRequests.map some) ∧
        ∃ m ∈ x.2.db.messages, m.id = 1 ∧ x.2.db.Readable m 2 ∧
          m.content.bytes = [112, 115, 115, 116])) = true := by
    decide +kernel
  obtain ⟨⟨log, c⟩, hrun, hfacts⟩ := (Option.any_eq_true _ _).mp hplay
  obtain ⟨hnotes, m, hm, hid, hread, hcontent⟩ := of_decide_eq_true hfacts
  have hsession : Session True log c := notePlay_session hrun
  have hagree : ∀ e ∈ log, e.LengthsAgree := by
    intro e he r hreq
    obtain ⟨r', hr', heq⟩ := List.mem_map.mp (hnotes e he)
    obtain rfl : r' = r := Option.some.inj (heq.trans hreq)
    exact noteRequests_agree hr' _
  exact ⟨log, c, m, hsession, hm, hcontent,
    (content_copied hsession hagree m hm (requestBy 2 4 1 (.msg {})).header { msgId := 1 } hid
      hread).2⟩

/-- User 1 deletes the note. User 2 is answered with the empty text and the old length:
    the client reads three bytes behind the text that it has decoded. -/
theorem deleted_content_overread :
    ∃ log c m, Session True log c ∧ m ∈ c.db.messages ∧ m.id = 1 ∧ m.content.bytes = [] ∧
      c.db.Readable m 2 ∧
      ∃ c' d, Runs Serves c
          (handleMsgGetDetail (requestBy 2 4 1 (.msg {})).header { msgId := 1 }) c'
          { sent := [.msgGetDetail 200 d] } ∧
        (∃ frame res copies, (ResponseCall.msgGetDetail 200 d).make (fun _ => 0) = .ok frame [] ∧
          responseParse frame = .ok (some res) copies ∧
          ∀ timedOut, getMsgDetailRaw timedOut (some res) = .fault [4]) ∧
        ¬ (ResponseCall.msgGetDetail 200 d).Copies m := by
  have hplay : (notePlay [requestBy 1 4 3 (.msg { msgId := 1 })]).any (fun x =>
      decide (∃ m ∈ x.2.db.messages, m.id = 1 ∧ x.2.db.Readable m 2 ∧ m.content.bytes = [] ∧
        m.contentLength = 4)) = true := by
    decide +kernel
  obtain ⟨⟨log, c⟩, hrun, hfacts⟩ := (Option.any_eq_true _ _).mp hplay
  obtain ⟨m, hm, hid, hread, hempty, hlength⟩ := of_decide_eq_true hfacts
  have hsession : Session True log c := notePlay_session hrun
  have hstrlen : m.content.strlen = 0 := by rw [CStr.strlen, hempty]; rfl
  obtain ⟨c', hserved⟩ : ∃ c', Runs Serves c
      (handleMsgGetDetail (requestBy 2 4 1 (.msg {})).header { msgId := 1 }) c'
      { sent := [.msgGetDetail 200 (m.schema 1).detail] } :=
    served_msgGetDetail hsession.inv.2 hm hid hread
  -- whatever frame is made, its length is still 4
  have hfault : ∀ prior, ∃ frame res copies,
      (ResponseCall.msgGetDetail 200 (m.schema 1).detail).make prior = .ok frame [] ∧
        responseParse frame = .ok (some res) copies ∧
        ∀ timedOut, getMsgDetailRaw timedOut (some res) = .fault [4] := by
    intro prior
    obtain ⟨frame, res, copies, rmsg, hmake, hparse, hstatus, hbody, htext, hlen⟩ :=
      detail_parsed (m := m) 1 (by rw [hstrlen]; decide) prior
    have hfour : rmsg.contentLength.toNat = 4 := by
      rw [hlen, hlength]
      rfl
    refine ⟨frame, res, copies, hmake, hparse, fun timedOut => ?_⟩
    have hover := overread_of_length hstatus hbody htext (by omega) timedOut
    rwa [hfour] at hover
  refine ⟨log, c, m, hsession, hm, hid, hempty, hread, c', _, hserved, hfault _, fun hcopies => ?_⟩
  obtain ⟨frame, res, copies, hmake, hparse, hcopied⟩ := hcopies fun _ => 0
  obtain ⟨frame', res', copies', hmake', hparse', hfault'⟩ := hfault fun _ => 0
  obtain ⟨rfl, -⟩ := Access.ok.inj (hmake.symm.trans hmake')
  obtain ⟨hres, -⟩ := Access.ok.inj (hparse.symm.trans hparse')
  obtain rfl := Option.some.inj hres
  obtain ⟨x, l, hraw, -⟩ := hcopied.raw false
  cases (hfault' false).symm.trans hraw

end MeshChat
