import MeshChat.Client.Details
import MeshChat.Lib.Unicode
import MeshChat.Server.Transfer

/-! # Text, from Java to Java (`TCPNativeClient.java`)

    Java counts a string in UTF-16 units, the C library and the server count it in bytes of
    UTF-8. `_get_msg_detail` decodes its whole buffer and cuts the string at the number of
    bytes.

    * `TCPNativeClient.sendMsg`, `TCPNativeClient.getMsgDetail`: the two methods, behind the
      calls of the C library.
    * `ReadsText`: the content that is returned.
    * `Fetches`: what a request for the message comes to.
    * `text_read_back_iff`: a text comes back as it was sent exactly when it is ASCII.
-/

namespace MeshChat

open CMemory SqlLex Prog Unicode

/-! ## The Java client -/

/-- `ChatRoomType`. -/
inductive ChatRoomType where
  | chat
  | conv
  deriving DecidableEq

namespace ChatRoomType

/-- The `conv_id` that `_send_msg` passes for a room. -/
def convId : ChatRoomType → UInt32 → UInt32
  | chat, _ => 0
  | conv, roomId => roomId

/-- The `chat_id`. -/
def chatId : ChatRoomType → UInt32 → UInt32
  | chat, roomId => roomId
  | conv, _ => 0

end ChatRoomType

/-- What the methods throw. -/
inductive JavaException where
  | apiCall (stt : Int)
  | stringIndexOutOfBounds
  deriving DecidableEq

/-- `MsgEntity`. -/
structure MsgEntity where
  id : Int := 0
  fromUserId : Int := 0
  replyTo : Int := 0
  content : List UInt16
  createdAt : Int := 0
  chatId : Int := 0
  convId : Int := 0
  type : Int := 0
  deriving DecidableEq

/-- `Message`. -/
structure Message where
  entity : MsgEntity
  isDeleted : Bool
  deriving DecidableEq

/-- The number in a reference that C has written to. -/
def intValue (n : UInt32) : Int := n.toInt32.toInt

def byteValue (n : UInt32) : Int := n.toUInt8.toInt8.toInt

/-- `String.substring`. -/
def substring (s : List UInt16) (beginIndex endIndex : Int) :
    Except JavaException (List UInt16) :=
  -- unlike the C library, Java checks the bounds
  if 0 ≤ beginIndex ∧ beginIndex ≤ endIndex ∧ endIndex ≤ s.length then
    .ok ((s.take endIndex.toNat).drop beginIndex.toNat)
  else .error .stringIndexOutOfBounds

/-- `new String(bytes, StandardCharsets.UTF_8)`. -/
def newString (malformed : List UInt8 → Nat) (bytes : List UInt8) : List UInt16 :=
  utf16 (decode malformed 0 bytes)

/-- A string as C receives it. -/
def nativeString (s : List Char) : CStr := .ofBytes (utf8 s)

/-- `_send_msg_text` of the C library, behind `api_call`. -/
def sendMsgText (timedOut : Bool) (res : Option Response) : Access (Int × Option UInt32) :=
  handleResStt timedOut res fun res =>
    if res.header.statusCode = 201 then
      match res.body with
      | .msg rmsg => pure (some rmsg.msgId)
      | _ => .fault []
    else pure none

/-- The buffer of `_get_msg_detail`. -/
def msgContentLen : Nat := 1000

/-- What is in the buffer when C has copied the content to it. -/
def msgContentOf (copied : List UInt8) : Access (List UInt8) :=
  -- the array is new, so it is zero behind what C copies
  if copied.length ≤ msgContentLen then
    .ok (copied ++ List.replicate (msgContentLen - copied.length) 0) []
  else .fault []

/-- The references of `_get_msg_detail`, before C writes to them. -/
def unsetDetail : RawDetail where
  chatId := 0xFFFFFFFF
  convId := 0xFFFFFFFF
  replyTo := 0xFFFFFFFF
  fromUid := 0xFFFFFFFF
  createdAt := 0xFFFFFFFF
  contentType := 0xFFFFFFFF
  contentLength := 0xFFFFFFFF
  msgContent := []

namespace TCPNativeClient

/-- The request of `_send_msg`. -/
def sendMsgCall (token : Token) (uid : UInt32) (type : ChatRoomType) (roomId replyTo : UInt32)
    (msg : List Char) : RequestCall :=
  .msgSendText token uid (type.convId roomId) (type.chatId roomId) replyTo (nativeString msg)

/-- `_send_msg`, behind `_send_msg_text`. -/
def sendMsg (uid replyTo : UInt32) (msg : List Char) (timedOut : Bool) (res : Option Response) :
    Access (Except JavaException Message) := do
  let (stt, msgId) ← sendMsgText timedOut res
  if stt = 201 then
    pure (.ok { entity := { id := intValue (msgId.getD 0xFFFFFFFF), fromUserId := uid.toNat,
                            replyTo := replyTo.toNat, content := utf16 msg }
                isDeleted := false })
  else pure (.error (.apiCall stt))

/-- The setters of `_get_msg_detail`. -/
def entityOf (msgId : UInt32) (raw : RawDetail) (content : List UInt16) : MsgEntity where
  id := msgId.toNat
  fromUserId := intValue raw.fromUid
  replyTo := intValue raw.replyTo
  content
  createdAt := intValue raw.createdAt
  chatId := intValue raw.chatId
  convId := intValue raw.convId
  type := byteValue raw.contentType

/-- `_get_msg_detail`, behind `_get_msg_detail_raw`. -/
def getMsgDetail (malformed : List UInt8 → Nat) (msgId : UInt32) (timedOut : Bool)
    (res : Option Response) : Access (Except JavaException MsgEntity) := do
  let (stt, stored) ← getMsgDetailRaw timedOut res
  let raw := stored.getD unsetDetail
  -- C writes to the buffer before the status is looked at
  let msgContent ← msgContentOf raw.msgContent
  if stt = 200 then
    pure ((substring (newString malformed msgContent) 0 (intValue raw.contentLength)).map
      (entityOf msgId raw))
  else pure (.error (.apiCall stt))

end TCPNativeClient

/-- The method returns, with this content. -/
def ReadsText (r : Access (Except JavaException MsgEntity)) (content : List UInt16) : Prop :=
  ∃ e copies, r = .ok (.ok e) copies ∧ e.content = content

/-! ## What is read -/

/-- The string is cut behind the text, which is followed by zeros. -/
theorem substring_padded {s : List UInt16} {n zeros : Nat} (hn : s.length ≤ n)
    (hroom : n ≤ s.length + zeros) :
    substring (s ++ List.replicate zeros 0) 0 n = .ok (s ++ List.replicate (n - s.length) 0) := by
  have hbounds : (0 : Int) ≤ 0 ∧ (0 : Int) ≤ n ∧
      (n : Int) ≤ (s ++ List.replicate zeros 0).length := by
    rw [List.length_append, List.length_replicate]
    omega
  have hzeros : min (n - s.length) zeros = n - s.length := by omega
  rw [substring, if_pos hbounds, Int.toNat_natCast, List.take_append, List.take_of_length_le hn,
    List.take_replicate, hzeros]
  rfl

theorem newString_padded (malformed : List UInt8 → Nat) (text : List Char) (zeros : Nat) :
    newString malformed (utf8 text ++ List.replicate zeros 0) =
      utf16 text ++ List.replicate zeros 0 := by
  -- the zeros are characters too, one byte and one unit each
  rw [newString, ← utf8_replicate_nul, ← utf8_append, decode_utf8, utf16_append,
    utf16_replicate_nul]

theorem intValue_of_lt {n : UInt32} (h : n.toNat < 2 ^ 31) : intValue n = n.toNat := by
  show n.toBitVec.toInt = n.toNat
  rw [BitVec.toInt_eq_toNat_of_lt]
  · rfl
  · show 2 * n.toNat < 2 ^ 32
    omega

/-- What `_get_msg_detail` makes of a text. -/
theorem getMsgDetail_text {malformed : List UInt8 → Nat} {msgId : UInt32} {timedOut : Bool}
    {res : Response} {x : RawDetail} {copies : List Nat}
    (hraw : getMsgDetailRaw timedOut (some res) = .ok (200, some x) copies) {text : List Char}
    (hcontent : x.msgContent = utf8 text) (hlen : x.contentLength.toNat = (utf8 text).length)
    (hfits : (utf8 text).length ≤ msgContentLen) :
    TCPNativeClient.getMsgDetail malformed msgId timedOut (some res) =
      .ok ((substring (utf16 text ++ List.replicate (msgContentLen - (utf8 text).length) 0) 0
        (utf8 text).length).map (TCPNativeClient.entityOf msgId x)) copies := by
  -- a length of at most 1000 is not negative as an `int`
  have hint : intValue x.contentLength = (utf8 text).length := by
    rw [← hlen]
    simp only [msgContentLen] at hfits
    exact intValue_of_lt (by omega)
  rw [TCPNativeClient.getMsgDetail, hraw]
  simp only [Access.ok_bind, Option.getD_some, hcontent, msgContentOf, if_pos hfits, if_true,
    newString_padded, hint, Access.pure_eq, Access.after_ok, List.append_nil]

/-- A text is read back when it has as many units as bytes: otherwise zeros follow it, or the
    string is too short to be cut. -/
theorem readsText_iff {text : List Char} {entity : List UInt16 → MsgEntity}
    (hentity : ∀ s, (entity s).content = s) {copies : List Nat} :
    ReadsText (.ok ((substring (utf16 text ++
        List.replicate (msgContentLen - (utf8 text).length) 0) 0 (utf8 text).length).map entity)
        copies) (utf16 text) ↔ ∀ c ∈ text, c.val < 0x80 := by
  have hle := length_utf16_le text
  rw [← length_utf16_eq_iff]
  constructor
  · rintro ⟨e, copies', hread, hcontent⟩
    by_cases hroom : (utf8 text).length ≤
        (utf16 text).length + (msgContentLen - (utf8 text).length)
    · -- the cut is behind the text: as many zeros follow as there are bytes more than units
      rw [substring_padded hle hroom] at hread
      cases hread
      rw [hentity] at hcontent
      have hlength := congrArg List.length hcontent
      rw [List.length_append, List.length_replicate] at hlength
      omega
    · -- the cut is behind the decoded string, and an exception is thrown
      rw [substring, if_neg] at hread
      · cases hread
      · rw [List.length_append, List.length_replicate]
        omega
  · intro heq
    refine ⟨_, copies, ?_, hentity _⟩
    rw [substring_padded hle (by omega), heq, Nat.sub_self, List.replicate_zero, List.append_nil]
    rfl

/-! ## Sending -/

/-- The message of a text. -/
def textMsg (header : RequestHeader) (rm : RequestMsgBody) (content : CStr) : MsgSchema where
  fromUid := header.userId
  replyTo := rm.replyId
  contentType := header.contentType.toUInt32.toInt32
  contentLength := header.contentLen - 12
  content
  convId := rm.convId
  chatId := rm.chatId

/-- A text of a member is stored and acknowledged, when nothing goes wrong. -/
theorem served_text {c : Conn} {env : Env} {header : RequestHeader} {rm : RequestMsgBody}
    {content : CStr} {db' : Db} {id : Nat} (hidle : c.saved = none) (hheld : c.held = false)
    (htext : header.contentType = msgText) (hcontent : rm.msgContent = some content)
    (hquote : quote ∉ content.bytes) (hshort : content.strlen < 1024)
    (hmember : c.db.ConvMember rm.convId.toNat header.userId.toNat ∨
      c.db.ChatMember rm.chatId.toNat header.userId.toNat)
    (hinsert : c.db.insertMessage true ((textMsg header rm content).newMsg env.now) =
      some (db', some id)) :
    ∃ c₁, c₁.db = db' ∧ Runs Serves c (handleMsgSend env header rm) c₁
      { sent := [.msgSend 201 (UInt32.ofNat id)] } := by
  have hfits : ((textMsg header rm content).textQuery env.now).Fits := by
    refine MsgSchema.fits_of_short hshort ?_ env.now
    show width header.contentType.toUInt32.toInt32.toInt = 1
    rw [htext]
    rfl
  refine ⟨{ c with db := db', fk := true, lastRowid := id }, rfl, ?_⟩
  rw [handleMsgSend, hcontent]
  refine served_ifRoomMember hmember ?_
  rw [if_pos htext]
  exact served_sendMsg hquote hidle hheld hfits hinsert

/-- What is acknowledged is stored. -/
theorem runs_text {c c₁ : Conn} {env : Env} {header : RequestHeader} {rm : RequestMsgBody}
    {content : CStr} (hidle : c.saved = none) (htext : header.contentType = msgText)
    (hcontent : rm.msgContent = some content) (hquote : quote ∉ content.bytes) {out : Handled}
    (h : Runs Answers c (handleMsgSend env header rm) c₁ out) {id : UInt32}
    (hout : out.sent = [.msgSend 201 id]) :
    ∃ n, c.db.insertMessage true ((textMsg header rm content).newMsg env.now) =
      some (c₁.db, some n) ∧ id = UInt32.ofNat n := by
  -- an error would be another answer
  have hcreated : out.Created := ⟨id, by rw [hout]; exact List.mem_singleton.mpr rfl⟩
  rw [handleMsgSend, hcontent] at h
  rcases runs_ifRoomMember le_rfl h with ⟨-, status, group, action, rfl⟩ | ⟨-, h⟩
  · cases hout
  have hsend : Runs Answers c (sendMsg env (textMsg header rm content)) c₁ out := by
    rwa [if_pos htext] at h
  rcases runs_sendMsg_id hquote hidle hsend with hnone | ⟨n, hsends, rfl⟩
  · exact absurd hcreated hnone.uncreated
  · cases hout
    exact ⟨n, hsends.2, rfl⟩

/-- C receives the whole text. -/
theorem nativeString_bytes {text : List Char} (hnul : Char.ofUInt8 0 ∉ text) :
    (nativeString text).bytes = utf8 text := by
  refine List.takeWhile_eq_self_iff.mpr fun b hb => ?_
  have hne : b ≠ 0 := by
    rintro rfl
    exact hnul (mem_of_mem_utf8 (by decide) hb)
  simpa using hne

theorem quoteFree_nativeString {text : List Char} (hnul : Char.ofUInt8 0 ∉ text)
    (hquote : Char.ofUInt8 quote ∉ text) : quote ∉ (nativeString text).bytes := by
  rw [nativeString_bytes hnul]
  exact fun hb => hquote (mem_of_mem_utf8 (by decide) hb)

/-! ## Fetching -/

/-- A user asks for the message. The request is parsed as it was made; it is answered unless it is
    refused; and whatever frame carries the answer, the client gets a result with this property. -/
structure Fetches (malformed : List UInt8 → Nat) (env : Env) (c : Conn) (token : Token)
    (uid msgId : UInt32) (P : Access (Except JavaException MsgEntity) → Prop) : Prop where
  asked : ∀ prior, ∃ frame copies, (RequestCall.msgGetDetail token uid msgId).make prior =
      .ok frame [] ∧
    requestParse frame = .ok (some ⟨(RequestCall.msgGetDetail token uid msgId).header,
      (RequestCall.msgGetDetail token uid msgId).body⟩) copies
  answered : ∃ reply,
    (∃ c', Runs Serves c (handleReq env (some ⟨(RequestCall.msgGetDetail token uid msgId).header,
      (RequestCall.msgGetDetail token uid msgId).body⟩)) c' { sent := [reply] }) ∧
    (∀ c' out, Runs Answers c (handleReq env
        (some ⟨(RequestCall.msgGetDetail token uid msgId).header,
          (RequestCall.msgGetDetail token uid msgId).body⟩)) c' out →
      Refused c c' out ∨ out = { sent := [reply] }) ∧
    ∀ prior timedOut, ∃ frame res copies, reply.make prior = .ok frame [] ∧
      responseParse frame = .ok (some res) copies ∧
      P (TCPNativeClient.getMsgDetail malformed msgId timedOut (some res))

/-- A stored text, as the client gets it. -/
theorem fetches_text {log : List Served} {c : Conn} {m : MsgRow} (hsession : Session True log c)
    (hkeeps : c.Keeps m) {text : List Char} (hcontent : m.content.bytes = utf8 text)
    (hlen : m.contentLength = (utf8 text).length) (hfits : (utf8 text).length ≤ msgContentLen)
    {env : Env} (hverified : env.verified = true) {uid msgId : UInt32} (hid : m.id = msgId.toNat)
    (hroom : c.db.InRoomOf m uid.toNat) (token : Token) (malformed : List UInt8 → Nat) :
    Fetches malformed env c token uid msgId fun r => ∃ x copies,
      r = .ok ((substring (utf16 text ++ List.replicate (msgContentLen - (utf8 text).length) 0) 0
        (utf8 text).length).map (TCPNativeClient.entityOf msgId x)) copies := by
  obtain ⟨type, hm⟩ := hkeeps
  have hids := hsession.inv.2
  have hread : c.db.Readable { m with type } uid.toNat := hids.readable_of_inRoomOf hm hroom
  have hhandle : handleReq env (some ⟨(RequestCall.msgGetDetail token uid msgId).header,
      (RequestCall.msgGetDetail token uid msgId).body⟩) =
        handleMsgGetDetail (RequestCall.msgGetDetail token uid msgId).header { msgId } := by
    rw [handleReq, if_neg (by simp [hverified])]
    rfl
  simp only [msgContentLen] at hfits
  -- the thirty bytes of the other fields and the content fit the frame
  have hshort : 30 + m.content.strlen ≤ responseBodyLen := by
    simp only [CStr.strlen, hcontent, responseBodyLen, bufsiz, responseHeaderLen]
    omega
  constructor
  · intro prior
    refine request_roundTrip _ prior ⟨?_, by simp [RequestCall.delimited]⟩
    simp [RequestCall.written]
  refine ⟨.msgGetDetail 200 (({ m with type } : MsgRow).schema msgId).detail, ?_, ?_, ?_⟩
  · rw [hhandle]
    exact served_msgGetDetail hids hm hid hread
  · intro c' out hrun
    rw [hhandle] at hrun
    exact runs_msgGetDetail hids hm hid hrun
  · intro prior timedOut
    obtain ⟨frame, res, copies, rmsg, hmake, hparse, hstatus, hbody, htext, hlength⟩ :=
      detail_parsed (m := { m with type }) msgId hshort prior
    have hwhole : rmsg.contentLength.toNat = (utf8 text).length := by
      rw [hlength]
      show (UInt32.ofNat m.contentLength).toNat = _
      rw [hlen]
      exact UInt32.toNat_ofNat_of_lt' (by rw [UInt32.size]; omega)
    -- C copies as many bytes as the length says, which is the whole content here
    obtain ⟨x, copied, hraw, hlong, hbytes⟩ := getMsgDetailRaw_of_length hstatus hbody htext
      (hwhole.trans (congrArg List.length hcontent).symm) timedOut
    exact ⟨frame, res, copies, hmake, hparse, x, copied,
      getMsgDetail_text hraw (hbytes.trans hcontent) (by rw [hlong, hwhole]) hfits⟩

theorem Fetches.mono {malformed : List UInt8 → Nat} {env : Env} {c : Conn} {token : Token}
    {uid msgId : UInt32} {P Q : Access (Except JavaException MsgEntity) → Prop}
    (h : Fetches malformed env c token uid msgId P) (himp : ∀ r, P r → Q r) :
    Fetches malformed env c token uid msgId Q := by
  obtain ⟨hasked, reply, hserved, hruns, hread⟩ := h
  refine ⟨hasked, reply, hserved, hruns, fun prior timedOut => ?_⟩
  obtain ⟨frame, res, copies, hmake, hparse, hP⟩ := hread prior timedOut
  exact ⟨frame, res, copies, hmake, hparse, himp _ hP⟩

/-! ## There and back -/

/-- What `_send_msg` returns. -/
def sentMessage (uid replyTo msgId : UInt32) (text : List Char) : Message where
  entity := { id := intValue msgId, fromUserId := uid.toNat, replyTo := replyTo.toNat,
              content := utf16 text }
  isDeleted := false

/-- The row of an acknowledged text: its content is the whole text, and its length the number of
    bytes. -/
theorem text_stored {c c₁ : Conn} (hidle : c.saved = none) {text : List Char}
    (hquote : Char.ofUInt8 quote ∉ text) (hnul : Char.ofUInt8 0 ∉ text)
    (hfits : (utf8 text).length ≤ msgContentLen) {token : Token} {uid roomId replyTo : UInt32}
    {type : ChatRoomType} {call : RequestCall}
    (hcall : call = TCPNativeClient.sendMsgCall token uid type roomId replyTo text) {env : Env}
    {out : Handled}
    (hsend : Runs Answers c (handleReq env (some ⟨call.header, call.body⟩)) c₁ out)
    {msgId : UInt32} (hout : out.sent = [.msgSend 201 msgId]) :
    ∃ m ∈ c₁.db.messages, msgId = UInt32.ofNat m.id ∧ m.content.bytes = utf8 text ∧
      m.contentLength = (utf8 text).length ∧ m.convId = nullable (type.convId roomId) ∧
      m.chatId = nullable (type.chatId roomId) ∧ m.type = .sent := by
  subst hcall
  have hbytes := nativeString_bytes hnul
  -- an unverified token would have been answered with an error
  have hrun : Runs Answers c (handleMsgSend env
      (TCPNativeClient.sendMsgCall token uid type roomId replyTo text).header
      { convId := type.convId roomId, chatId := type.chatId roomId, replyId := replyTo,
        msgContent := some (nativeString text) }) c₁ out := by
    rw [handleReq] at hsend
    split at hsend
    · obtain ⟨-, rfl⟩ := runs_responseErr.mp hsend
      cases hout
    · exact hsend
  obtain ⟨n, hinsert, hid⟩ :=
    runs_text hidle rfl rfl (quoteFree_nativeString hnul hquote) hrun hout
  refine ⟨_, mem_of_insertMessage hinsert, hid, hbytes, ?_, rfl, rfl, rfl⟩
  -- `content_len` counts the three ids as well
  show (UInt32.ofNat (12 + (nativeString text).bytes.length) - 12).toNat = _
  rw [hbytes]
  simp only [msgContentLen] at hfits
  have hsum : (UInt32.ofNat (12 + (utf8 text).length)).toNat = 12 + (utf8 text).length :=
    UInt32.toNat_ofNat_of_lt' (by rw [UInt32.size]; omega)
  have hle : (12 : UInt32) ≤ UInt32.ofNat (12 + (utf8 text).length) := by
    rw [UInt32.le_iff_toNat_le, hsum]
    exact Nat.le_add_right ..
  rw [UInt32.toNat_sub_of_le _ _ hle, hsum]
  exact Nat.add_sub_cancel_left ..

/-- The state behind the request is reached, too. -/
theorem session_text {log : List Served} {c c₁ : Conn} (hsession : Session True log c)
    {text : List Char} (hquote : Char.ofUInt8 quote ∉ text) (hnul : Char.ofUInt8 0 ∉ text)
    {token : Token} {uid roomId replyTo : UInt32} {type : ChatRoomType} {call : RequestCall}
    (hcall : call = TCPNativeClient.sendMsgCall token uid type roomId replyTo text) {env : Env}
    {out : Handled}
    (hsend : Runs Answers c (handleReq env (some ⟨call.header, call.body⟩)) c₁ out) :
    ∃ log', Session True log' c₁ := by
  have hfree : ∀ r ∈ some (⟨call.header, call.body⟩ : Request), r.QuoteFree := by
    subst hcall
    rintro r ⟨⟩ s hs
    obtain rfl : s = nativeString text := by
      simpa [TCPNativeClient.sendMsgCall, RequestCall.body, RequestBody.strings] using hs
    exact quoteFree_nativeString hnul hquote
  exact hsession.next hfree hsend

/-- **A text is read back exactly when it is ASCII.** A text without quotes and NULs that fits the
    buffer of the client is sent to a room and acknowledged. `_send_msg` returns a message with
    the id of the row. After any further requests and restarts in which the message is not
    deleted, `_get_msg_detail` for a member of the room returns the text as its content if and
    only if every character is ASCII. -/
theorem text_read_back_iff {log : List Served} {c c₁ : Conn} (hsession : Session True log c)
    {text : List Char} (hquote : Char.ofUInt8 quote ∉ text) (hnul : Char.ofUInt8 0 ∉ text)
    (hfits : (utf8 text).length ≤ msgContentLen) {token : Token} {uid roomId replyTo : UInt32}
    {type : ChatRoomType} {call : RequestCall}
    (hcall : call = TCPNativeClient.sendMsgCall token uid type roomId replyTo text) {env : Env}
    {out : Handled}
    (hsend : Runs Answers c (handleReq env (some ⟨call.header, call.body⟩)) c₁ out)
    {msgId : UInt32} (hout : out.sent = [.msgSend 201 msgId])
    (hids : ∀ m ∈ c₁.db.messages, m.id < 2 ^ 32) (malformed : List UInt8 → Nat) :
    (∀ prior, ∃ frame copies, call.make prior = .ok frame [] ∧
      requestParse frame = .ok (some ⟨call.header, call.body⟩) copies) ∧
    (∀ prior timedOut, ∃ frame res copies,
      (ResponseCall.msgSend 201 msgId).make prior = .ok frame [] ∧
      responseParse frame = .ok (some res) copies ∧
      TCPNativeClient.sendMsg uid replyTo text timedOut (some res) =
        .ok (.ok (sentMessage uid replyTo msgId text)) []) ∧
    ∃ m ∈ c₁.db.messages, m.id = msgId.toNat ∧ m.convId = nullable (type.convId roomId) ∧
      m.chatId = nullable (type.chatId roomId) ∧ m.type = .sent ∧
      ∀ disk₁ disk₂ c₂, Serving (·.HasUndeleted m.id) disk₁ c₁ disk₂ c₂ →
        ∀ (env' : Env) (token' : Token) (uid' : UInt32), env'.verified = true →
          c₂.db.InRoomOf m uid'.toNat →
          Fetches malformed env' c₂ token' uid' msgId fun r =>
            ReadsText r (utf16 text) ↔ ∀ ch ∈ text, ch.val < 0x80 := by
  obtain ⟨m, hm, hmsgId, hcontent, hlen, hconv, hchat, htype⟩ :=
    text_stored hsession.inv.1 hquote hnul hfits hcall hsend hout
  have hid : m.id = msgId.toNat := by
    rw [hmsgId]
    exact (UInt32.toNat_ofNat_of_lt' (hids m hm)).symm
  obtain ⟨log₁, hnext⟩ := session_text hsession hquote hnul hcall hsend
  refine ⟨fun prior => request_roundTrip call prior ?_, ?_, m, hm, hid, hconv, hchat, htype, ?_⟩
  · subst hcall
    refine ⟨?_, by simp [TCPNativeClient.sendMsgCall, RequestCall.delimited]⟩
    simp only [msgContentLen] at hfits
    simp only [TCPNativeClient.sendMsgCall, RequestCall.written, CStr.strlen,
      nativeString_bytes hnul, requestBodyLen, bufsiz, requestHeaderLen]
    omega
  · intro prior timedOut
    have hwell : (ResponseCall.msgSend 201 msgId).WellFormed :=
      .of_plain (by simp [ResponseCall.written]) rfl rfl
    obtain ⟨frame, copies, hmake, hparse⟩ := response_roundTrip _ _ prior rfl hwell
    exact ⟨frame, _, copies, hmake, hparse, rfl⟩
  · intro disk₁ disk₂ c₂ hserving env' token' uid' hverified hroom
    obtain ⟨⟨log', hsession'⟩, hkeeps⟩ := hserving.keeps hnext hm
    have hfetches := fetches_text hsession' hkeeps hcontent hlen hfits hverified hid hroom token'
      malformed
    refine hfetches.mono ?_
    rintro r ⟨x, copies, rfl⟩
    exact readsText_iff fun s => rfl

/-- User 1 sends a text to conversation 1. -/
def lobbyText (text : List Char) : RequestCall :=
  TCPNativeClient.sendMsgCall emptyToken 1 .conv 1 0 text

/-- The request, as it is handled. -/
def lobbyTextBody (text : List Char) : RequestMsgBody :=
  { convId := 1, msgContent := some (nativeString text) }

/-- The database with the text as message 3. -/
def lobbyTextDb (text : List Char) : Db :=
  { lobbyDb with
    messages := lobbyDb.messages ++ [((textMsg (lobbyText text).header (lobbyTextBody text)
      (nativeString text)).newMsg lobbyEnv.now).row 3] }

theorem lobbyText_sent {text : List Char} (hquote : Char.ofUInt8 quote ∉ text)
    (hnul : Char.ofUInt8 0 ∉ text) (hfits : (utf8 text).length ≤ msgContentLen) :
    ∃ c₁, c₁.db = lobbyTextDb text ∧
      Runs Answers { db := lobbyDb, fk := true, lastRowid := 2 }
        (handleReq lobbyEnv (some ⟨(lobbyText text).header, (lobbyText text).body⟩)) c₁
        { sent := [.msgSend 201 3] } := by
  have hshort : (nativeString text).strlen < 1024 := by
    rw [CStr.strlen, nativeString_bytes hnul]
    exact lt_of_le_of_lt hfits (by decide)
  have hmember : lobbyDb.ConvMember 1 1 := by decide
  have hserved : ∃ c₁, c₁.db = lobbyTextDb text ∧
      Runs Serves { db := lobbyDb, fk := true, lastRowid := 2 }
        (handleMsgSend lobbyEnv (lobbyText text).header (lobbyTextBody text)) c₁
        { sent := [.msgSend 201 3] } :=
    served_text rfl rfl rfl rfl (quoteFree_nativeString hnul hquote) hshort (Or.inl hmember) rfl
  obtain ⟨c₁, hdb, hrun⟩ := hserved
  refine ⟨c₁, hdb, ?_⟩
  rw [handleReq, if_neg (by simp [lobbyEnv])]
  exact hrun.mono Serves.le

theorem lobbyTextDb_ids (text : List Char) : ∀ m ∈ (lobbyTextDb text).messages, m.id < 2 ^ 32 := by
  have hbefore : ∀ m ∈ lobbyDb.messages, m.id < 2 ^ 32 := by decide
  intro m hm
  rcases List.mem_append.mp hm with hm | hm
  · exact hbefore m hm
  · obtain rfl := List.mem_singleton.mp hm
    show 3 < 2 ^ 32
    decide

theorem lobbyTextDb_member (text : List Char) : (lobbyTextDb text).ConvMember 1 2 := by
  have hmember : lobbyDb.ConvMember 1 2 := by decide
  exact hmember

/-- User 2 reads an ASCII text. -/
theorem text_read_back_hi : ∃ log c c₁, Session True log c ∧
    Runs Answers c (handleReq lobbyEnv
        (some ⟨(lobbyText ['h', 'i']).header, (lobbyText ['h', 'i']).body⟩)) c₁
      { sent := [.msgSend 201 3] } ∧
    Fetches (fun _ => 0) lobbyEnv c₁ emptyToken 2 3 (ReadsText · (utf16 ['h', 'i'])) := by
  have hsession : Session True lobbyLog { db := lobbyDb, fk := true, lastRowid := 2 } :=
    lobbyPlay_session (lobbyPlay_eq [])
  have hquote : Char.ofUInt8 quote ∉ ['h', 'i'] := by decide
  have hnul : Char.ofUInt8 0 ∉ ['h', 'i'] := by decide
  have hfits : (utf8 ['h', 'i']).length ≤ msgContentLen := by decide
  obtain ⟨c₁, hdb, hsend⟩ := lobbyText_sent hquote hnul hfits
  obtain ⟨-, -, m, hm, hid, hconv, -, htype, hfetches⟩ :=
    text_read_back_iff hsession hquote hnul hfits rfl hsend rfl
      (by rw [hdb]; exact lobbyTextDb_ids _) fun _ => 0
  have hundeleted : m.type ≠ .deleted := by
    rw [htype]
    decide
  have hroom : c₁.db.InRoomOf m 2 := by
    rw [hdb]
    exact Or.inl ⟨1, hconv, lobbyTextDb_member _⟩
  refine ⟨_, _, c₁, hsession, hsend, ?_⟩
  have hfetched := hfetches emptyDisk emptyDisk c₁ (.start ⟨m, hm, rfl, hundeleted⟩) lobbyEnv
    emptyToken 2 rfl hroom
  exact hfetched.mono fun r hread => hread.mpr (by simp)

/-- A letter of two bytes. -/
def eAcute : List Char := [Char.ofNat 0xE9]

/-- User 2 reads the letter and a NUL. -/
theorem text_not_read_back : ∃ log c c₁, Session True log c ∧
    Runs Answers c (handleReq lobbyEnv
        (some ⟨(lobbyText eAcute).header, (lobbyText eAcute).body⟩)) c₁
      { sent := [.msgSend 201 3] } ∧
    Fetches (fun _ => 0) lobbyEnv c₁ emptyToken 2 3 fun r =>
      ReadsText r (utf16 eAcute ++ [0]) ∧ ¬ ReadsText r (utf16 eAcute) := by
  have hsession : Session True lobbyLog { db := lobbyDb, fk := true, lastRowid := 2 } :=
    lobbyPlay_session (lobbyPlay_eq [])
  have hquote : Char.ofUInt8 quote ∉ eAcute := by decide
  have hnul : Char.ofUInt8 0 ∉ eAcute := by decide
  have hfits : (utf8 eAcute).length ≤ msgContentLen := by decide
  obtain ⟨c₁, hdb, hsend⟩ := lobbyText_sent hquote hnul hfits
  obtain ⟨m, hm, hmsgId, hcontent, hlen, hconv, -⟩ :=
    text_stored hsession.inv.1 hquote hnul hfits rfl hsend rfl
  obtain ⟨log₁, hnext⟩ := session_text hsession hquote hnul rfl hsend
  have hid : m.id = (3 : UInt32).toNat := by
    have hlt : m.id < 2 ^ 32 := by
      rw [hdb] at hm
      exact lobbyTextDb_ids _ m hm
    rw [hmsgId]
    exact (UInt32.toNat_ofNat_of_lt' hlt).symm
  have hroom : c₁.db.InRoomOf m (2 : UInt32).toNat := by
    rw [hdb]
    exact Or.inl ⟨1, hconv, lobbyTextDb_member _⟩
  refine ⟨_, _, c₁, hsession, hsend, ?_⟩
  have hfetches := fetches_text hnext ⟨m.type, hm⟩ hcontent hlen hfits
    (show lobbyEnv.verified = true from rfl) hid hroom emptyToken fun _ => 0
  refine hfetches.mono ?_
  rintro r ⟨x, copies, rfl⟩
  constructor
  · -- one unit and two bytes: the cut is one behind the text
    have hcut := substring_padded (s := utf16 eAcute) (n := 2) (show 1 ≤ 2 by decide)
      (show 2 ≤ 1 + (msgContentLen - 2) by decide)
    exact ⟨TCPNativeClient.entityOf 3 x (utf16 eAcute ++ [0]), copies,
      congrArg (fun y => Access.ok (y.map (TCPNativeClient.entityOf 3 x)) copies) hcut, rfl⟩
  · intro hread
    have hascii := (readsText_iff fun s => rfl).mp hread
    exact absurd hascii (by simp [eAcute])

end MeshChat
