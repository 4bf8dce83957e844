import MeshChat.Wire.Request

/-! # Round trip of request frames

    `RequestCall` lists the builder calls of `request.c` with their arguments.
    For each call we say which header and body it is meant to carry, and show
    that the parser reads exactly these back from the frame the builder
    produced, whatever the frame held before.

    The header is handled once for all builders: `HeaderAt m h` says that the
    first 64 bytes of `m` hold `h`, `makeRequestHeader` establishes it, later
    stores into the body keep it, and the parser reads `h` from it. What remains
    per builder is the layout of its body.
-/

namespace MeshChat

open CMemory

/-! ## Builder calls -/

/-- A call of one of the builders of `request.c`. -/
inductive RequestCall where
  | authRegister (uname password phone email : CStr)
  | authLogin (uname password : CStr)
  | userLogout (token : Token) (userId : UInt32)
  | userGetInfo (token : Token) (userId userId2 : UInt32)
  | userSearch (token : Token) (userId : UInt32) (uname : CStr) (limit offset : Int32)
  | convCreate (token : Token) (userId : UInt32) (gname : CStr)
  | convDrop (token : Token) (userId convId : UInt32)
  | convJoin (token : Token) (userId convId userId2 : UInt32)
  | convQuit (token : Token) (userId convId userId2 : UInt32)
  | convGetInfo (token : Token) (userId convId : UInt32)
  | convGetMembers (token : Token) (userId convId : UInt32)
  | convGetList (token : Token) (userId : UInt32) (limit offset : Int32)
  | chatCreate (token : Token) (userId userId2 : UInt32)
  | chatDelete (token : Token) (userId chatId : UInt32)
  | chatGetList (token : Token) (userId : UInt32) (limit offset : Int32)
  | chatGetInfo (token : Token) (userId chatId : UInt32)
  | msgGetAll (token : Token) (userId : UInt32) (limit offset : Int32) (convId chatId : UInt32)
  | msgGetDetail (token : Token) (userId msgId : UInt32)
  | msgSendText (token : Token) (userId convId chatId replyTo : UInt32) (msg : CStr)
  | msgSendFile (token : Token) (userId convId chatId replyTo fsize : UInt32) (fname : CStr)
  | msgDelete (token : Token) (userId msgId : UInt32)
  | msgNotifyNew (token : Token) (userId : UInt32)
  | msgNotifyDel (token : Token) (userId convId chatId : UInt32)
  | msgFileDownload (token : Token) (userId msgId : UInt32)

namespace RequestCall

/-- Run the builder over a frame with arbitrary old contents. -/
def make : RequestCall → Frame → Access Frame
  | authRegister u p h e => makeRequestAuthRegister u p h e
  | authLogin u p => makeRequestAuthLogin u p
  | userLogout t u => makeRequestUserLogout t u
  | userGetInfo t u v => makeRequestUserGetInfo t u v
  | userSearch t u s l o => makeRequestUserSearch t u s l o
  | convCreate t u g => makeRequestConvCreate t u g
  | convDrop t u c => makeRequestConvDrop t u c
  | convJoin t u c v => makeRequestConvJoin t u c v
  | convQuit t u c v => makeRequestConvQuit t u c v
  | convGetInfo t u c => makeRequestConvGetInfo t u c
  | convGetMembers t u c => makeRequestConvGetMembers t u c
  | convGetList t u l o => makeRequestConvGetList t u l o
  | chatCreate t u v => makeRequestChatCreate t u v
  | chatDelete t u c => makeRequestChatDelete t u c
  | chatGetList t u l o => makeRequestChatGetList t u l o
  | chatGetInfo t u c => makeRequestChatGetInfo t u c
  | msgGetAll t u l o c d => makeRequestMsgGetAll t u l o c d
  | msgGetDetail t u m => makeRequestMsgGetDetail t u m
  | msgSendText t u c d r s => makeRequestsMsgSendText t u c d r s
  | msgSendFile t u c d r z s => makeRequestsMsgSendFile t u c d r z s
  | msgDelete t u m => makeRequestMsgDelete t u m
  | msgNotifyNew t u => makeRequestMsgNotifyNew t u
  | msgNotifyDel t u c d => makeRequestMsgNotifyDel t u c d
  | msgFileDownload t u m => makeRequestMsgFileDownload t u m

/-- Group and action bytes of the call. -/
def kind : RequestCall → Int8 × Int8
  | authRegister .. => (0, 0)
  | authLogin .. => (0, 1)
  | userLogout .. => (1, 0)
  | userGetInfo .. => (1, 1)
  | userSearch .. => (1, 2)
  | convCreate .. => (2, 0)
  | convDrop .. => (2, 1)
  | convJoin .. => (2, 2)
  | convQuit .. => (2, 3)
  | convGetInfo .. => (2, 4)
  | convGetMembers .. => (2, 5)
  | convGetList .. => (2, 6)
  | chatCreate .. => (3, 0)
  | chatDelete .. => (3, 1)
  | chatGetList .. => (3, 2)
  | chatGetInfo .. => (3, 3)
  | msgGetAll .. => (4, 0)
  | msgGetDetail .. => (4, 1)
  | msgSendText .. => (4, 2)
  | msgSendFile .. => (4, 2)
  | msgDelete .. => (4, 3)
  | msgNotifyNew .. => (4, 4)
  | msgNotifyDel .. => (4, 5)
  | msgFileDownload .. => (4, 6)

/-- Content type, content length and body length the call declares. -/
def lengths : RequestCall → UInt8 × Nat × Nat
  | authRegister u p h e =>
    (0, u.strlen + p.strlen + h.strlen + e.strlen + 3,
      u.strlen + p.strlen + h.strlen + e.strlen + 3)
  | authLogin u p => (0, u.strlen + p.strlen + 1, u.strlen + p.strlen + 1)
  | userSearch _ _ s _ _ => (0, s.strlen, s.strlen)
  | convCreate _ _ s => (0, s.strlen, s.strlen)
  | msgGetAll .. => (0, 8, 8)
  | msgSendText _ _ _ _ _ s => (0, 12 + s.strlen, 12 + s.strlen)
  | msgSendFile _ _ _ _ _ z s => (1, z.toNat, 12 + s.strlen)
  | userLogout .. | convGetList .. | chatGetList .. | msgNotifyNew .. | msgNotifyDel .. => (0, 0, 0)
  | _ => (0, 4, 4)

/-- The token and user id the call is made with; an unauthenticated call sends
    `emptyToken` and user 0. -/
def caller : RequestCall → Token × UInt32
  | authRegister .. | authLogin .. => (emptyToken, 0)
  | userLogout t u | userGetInfo t u _ | userSearch t u _ _ _ | convCreate t u _
  | convDrop t u _ | convJoin t u _ _ | convQuit t u _ _ | convGetInfo t u _
  | convGetMembers t u _ | convGetList t u _ _ | chatCreate t u _ | chatDelete t u _
  | chatGetList t u _ _ | chatGetInfo t u _ | msgGetAll t u _ _ _ _ | msgGetDetail t u _
  | msgSendText t u _ _ _ _ | msgSendFile t u _ _ _ _ _ | msgDelete t u _
  | msgNotifyNew t u | msgNotifyDel t u _ _ | msgFileDownload t u _ => (t, u)

/-- Limit and offset of the call, `-1` where it asks for no page. -/
def page : RequestCall → Int32 × Int32
  | userSearch _ _ _ l o | convGetList _ _ l o | chatGetList _ _ l o
  | msgGetAll _ _ l o _ _ => (l, o)
  | _ => (-1, -1)

/-- The header the call encodes. -/
def header (c : RequestCall) : RequestHeader where
  group := c.kind.1
  action := c.kind.2
  contentType := c.lengths.1
  contentLen := UInt32.ofNat c.lengths.2.1
  bodyLen := UInt32.ofNat c.lengths.2.2
  token := c.caller.1.bytes
  userId := c.caller.2
  limit := c.page.1
  offset := c.page.2

/-- The body the call encodes. -/
def body : RequestCall → RequestBody
  | authRegister u p h e => .auth ⟨some u, some p, some h, some e⟩
  | authLogin u p => .auth ⟨some u, some p, none, none⟩
  | userLogout .. => .user {}
  | userGetInfo _ _ v => .user { userId := v }
  | userSearch _ _ s _ _ => .user { uname := some s }
  | convCreate _ _ s => .conv { gname := some s }
  | convDrop _ _ c | convGetInfo _ _ c | convGetMembers _ _ c => .conv { convId := c }
  | convJoin _ _ c v | convQuit _ _ c v => .conv { convId := c, userId := v }
  | convGetList .. => .conv {}
  | chatCreate _ _ v => .chat { userId2 := v }
  | chatDelete _ _ c | chatGetInfo _ _ c => .chat { chatId := c }
  | chatGetList .. => .chat {}
  | msgGetAll _ _ _ _ c d | msgNotifyDel _ _ c d => .msg { convId := c, chatId := d }
  | msgGetDetail _ _ m | msgDelete _ _ m | msgFileDownload _ _ m => .msg { msgId := m }
  | msgSendText _ _ c d r s | msgSendFile _ _ c d r _ s =>
    .msg { convId := c, chatId := d, replyId := r, msgContent := some s }
  | msgNotifyNew .. => .msg {}

/-- Number of body bytes the builder writes. -/
def written : RequestCall → Nat
  | authRegister u p h e => u.strlen + p.strlen + h.strlen + e.strlen + 3
  | authLogin u p => u.strlen + p.strlen + 2
  | userSearch _ _ s _ _ | convCreate _ _ s => s.strlen
  | msgSendText _ _ _ _ _ s | msgSendFile _ _ _ _ _ _ s => 12 + s.strlen
  | _ => 8

/-- The fields that are separated by delimiters. -/
def delimited : RequestCall → List CStr
  | authRegister u p h e => [u, p, h, e]
  | authLogin u p => [u, p]
  | _ => []

/-- What the format asks of the arguments: they fit the body, and delimited
    fields do not contain the delimiter. -/
structure WellFormed (c : RequestCall) : Prop where
  fits : c.written ≤ requestBodyLen
  delimFree : ∀ s ∈ c.delimited, bodyDelimiter ∉ s.bytes

end RequestCall

/-! ## The header -/

/-- The first 64 bytes of `m` hold the header `h`. -/
structure HeaderAt (h : RequestHeader) (m : Frame) : Prop where
  group : m.at' 0 = h.group.toUInt8
  action : m.at' 1 = h.action.toUInt8
  contentType : m.at' 2 = h.contentType
  contentLen : m.word 4 = h.contentLen
  bodyLen : m.word 8 = h.bodyLen
  token : m.slice 16 16 = h.token
  userId : m.word 32 = h.userId
  limit : m.word 36 = h.limit.toUInt32
  offset : m.word 40 = h.offset.toUInt32

/-- Stores into the body leave the header alone. -/
theorem HeaderAt.put {m : Frame} {h : RequestHeader} (hm : HeaderAt h m) {off : Nat}
    {bs : List UInt8} (hoff : 64 ≤ off) (hlen : off + bs.length ≤ 8192) :
    HeaderAt h (m.put off bs) where
  group := by rw [Mem.at'_put_disjoint hlen (by omega), hm.group]
  action := by rw [Mem.at'_put_disjoint hlen (by omega), hm.action]
  contentType := by rw [Mem.at'_put_disjoint hlen (by omega), hm.contentType]
  contentLen := by rw [Mem.word_put_disjoint hlen (by omega), hm.contentLen]
  bodyLen := by rw [Mem.word_put_disjoint hlen (by omega), hm.bodyLen]
  token := by rw [Mem.slice_put_disjoint hlen (by omega), hm.token]
  userId := by rw [Mem.word_put_disjoint hlen (by omega), hm.userId]
  limit := by rw [Mem.word_put_disjoint hlen (by omega), hm.limit]
  offset := by rw [Mem.word_put_disjoint hlen (by omega), hm.offset]

/-- The frame `make_request_header` leaves behind. -/
def headerImage (h : RequestHeader) (res : Frame) : Frame :=
  (((((((((res.put 0 (zeros requestHeaderLen)).put 0 [h.group.toUInt8]).put 1
    [h.action.toUInt8]).put 2 [h.contentType]).put 4 (beBytes h.contentLen)).put 8
    (beBytes h.bodyLen)).put 16 h.token).put 32 (beBytes h.userId)).put 36
    (beBytes h.limit.toUInt32)).put 40 (beBytes h.offset.toUInt32)

theorem makeRequestHeader_eq (h : RequestHeader) (htok : h.token.length = 16) (res : Frame) :
    makeRequestHeader h res = .ok (headerImage h res) [] := by
  simp [makeRequestHeader, headerImage, Mem.store, htok]

/-- Every field is where the header says, since the stores are disjoint. -/
theorem headerImage_at (h : RequestHeader) (htok : h.token.length = 16) (res : Frame) :
    HeaderAt h (headerImage h res) := by
  unfold headerImage
  constructor <;>
    simp (disch := simp [htok]) only [Mem.at'_put_disjoint, Mem.at'_put_self,
      Mem.word_put_disjoint, Mem.word_put_self, Mem.slice_put_disjoint]
  rw [← htok]
  exact Mem.slice_put_self (by simp [htok])

/-- The parser reads back the header that is there. -/
theorem requestParseHeader_of_headerAt {m : Frame} {h : RequestHeader} (hm : HeaderAt h m) :
    requestParseHeader m = .ok h [] := by
  have hgroup : h.group.toUInt8.toInt8 = h.group := rfl
  have haction : h.action.toUInt8.toInt8 = h.action := rfl
  have hlimit : h.limit.toUInt32.toInt32 = h.limit := rfl
  have hoffset : h.offset.toUInt32.toInt32 = h.offset := rfl
  simp [requestParseHeader, Mem.loadByte, Mem.loadWord, Mem.load, hm.group, hm.action,
    hm.contentType, hm.contentLen, hm.bodyLen, hm.token, hm.userId, hm.limit, hm.offset,
    hgroup, haction, hlimit, hoffset]

/-! ## The body -/

/-- `m` holds the header `h` and its body starts with the bytes `bs`. -/
abbrev RequestLaid (h : RequestHeader) (m : Frame) (bs : List UInt8) : Prop :=
  Laid requestHeaderLen (HeaderAt h) m bs

/-- `make_request_header` stores the header, whatever the frame held. -/
theorem makeRequestHeader_laid (h : RequestHeader) (htok : h.token.length = 16) (res : Frame) :
    ∃ m, makeRequestHeader h res = .ok m [] ∧ RequestLaid h m [] := by
  refine ⟨headerImage h res, makeRequestHeader_eq h htok res, ?_, headerImage_at h htok res, rfl⟩
  intro m off b hoff hlen hm
  exact hm.put hoff hlen

theorem RequestLaid.clear {m : Frame} {h : RequestHeader} {bs : List UInt8}
    (hm : RequestLaid h m bs) : ∃ m', clearRequestBody m = .ok m' [] ∧ RequestLaid h m' [] :=
  Laid.clear hm (by simp)

/-- The body of a call with one id. -/
theorem RequestLaid.oneWord {m : Frame} {h : RequestHeader} {w : UInt32} (hm : RequestLaid h m (beBytes w)) :
    m.loadWord requestHeaderLen = .ok w [] :=
  Laid.loadWord [] [] (by simpa using hm) _ rfl (by simp)

/-- The body of a call with two ids. -/
theorem RequestLaid.twoWords {m : Frame} {h : RequestHeader} {v w : UInt32}
    (hm : RequestLaid h m (beBytes v ++ beBytes w)) :
    m.loadWord requestHeaderLen = .ok v [] ∧ m.loadWord (requestHeaderLen + 4) = .ok w [] := by
  constructor
  · exact Laid.loadWord [] (beBytes w) (by simpa using hm) _ rfl (by simp)
  · exact Laid.loadWord (beBytes v) [] (by simpa using hm) _ (by simp) (by simp)

/-- The body of a call with one string. -/
theorem RequestLaid.string {m : Frame} {h : RequestHeader} {s : CStr} (hm : RequestLaid h m s.bytes)
    (hfit : s.strlen ≤ requestBodyLen) :
    s.strlen % 4294967296 = s.strlen ∧
      copyString m requestHeaderLen s.strlen = .ok s [s.strlen] := by
  simp only [requestBodyLen, bufsiz, requestHeaderLen] at hfit
  refine ⟨by omega, ?_⟩
  exact Laid.copyString [] hm _ rfl (by simp; omega)

/-- The body of a message: three ids and the text. -/
theorem RequestLaid.message {m : Frame} {h : RequestHeader} {c d r : UInt32} {s : CStr}
    (hm : RequestLaid h m (beBytes c ++ beBytes d ++ beBytes r ++ s.bytes))
    (hfit : 12 + s.strlen ≤ requestBodyLen) :
    m.loadWord requestHeaderLen = .ok c [] ∧ m.loadWord (requestHeaderLen + 4) = .ok d [] ∧
      m.loadWord (requestHeaderLen + 8) = .ok r [] ∧ s.strlen % 4294967296 = s.strlen ∧
      copyString m (requestHeaderLen + 12) s.strlen = .ok s [s.strlen] := by
  simp only [requestBodyLen, bufsiz, requestHeaderLen] at hfit
  refine ⟨?_, ?_, ?_, by omega, ?_⟩
  · exact Laid.loadWord [] (beBytes d ++ beBytes r ++ s.bytes)
      (by simpa [List.append_assoc] using hm) _ rfl (by simp)
  · exact Laid.loadWord (beBytes c) (beBytes r ++ s.bytes)
      (by simpa [List.append_assoc] using hm) _ (by simp) (by simp)
  · exact Laid.loadWord (beBytes c ++ beBytes d) s.bytes hm _ (by simp) (by simp)
  · exact Laid.copyString (beBytes c ++ beBytes d ++ beBytes r) hm _ (by simp) (by simp; omega)

namespace RequestCall

/-- The body bytes a call lays out. -/
def layout : RequestCall → List UInt8
  | authRegister u p h e =>
    u.bytes ++ [bodyDelimiter] ++ p.bytes ++ [bodyDelimiter] ++ h.bytes ++ [bodyDelimiter] ++
      e.bytes
  | authLogin u p => u.bytes ++ [bodyDelimiter] ++ p.bytes ++ [bodyDelimiter]
  | userSearch _ _ s _ _ | convCreate _ _ s => s.bytes
  | userGetInfo _ _ w | convDrop _ _ w | convGetInfo _ _ w | convGetMembers _ _ w
  | chatCreate _ _ w | chatDelete _ _ w | chatGetInfo _ _ w | msgGetDetail _ _ w
  | msgDelete _ _ w | msgFileDownload _ _ w => beBytes w
  | convJoin _ _ c v | convQuit _ _ c v | msgGetAll _ _ _ _ c v | msgNotifyDel _ _ c v =>
    beBytes c ++ beBytes v
  | msgSendText _ _ c d r s | msgSendFile _ _ c d r _ s =>
    beBytes c ++ beBytes d ++ beBytes r ++ s.bytes
  | userLogout .. | convGetList .. | chatGetList .. | msgNotifyNew .. => []

end RequestCall

/-! ### Builders lay out their bodies -/

theorem makeRequestUint32_laid (token : Token) (group action : UInt8) (userId num : UInt32)
    (res : Frame) :
    ∃ m, makeRequestUint32 token group action userId num res = .ok m [] ∧
      RequestLaid
        { group := group.toInt8, action := action.toInt8, contentType := 0, contentLen := 4,
          bodyLen := 4, token := token.bytes, userId, limit := -1, offset := -1 } m (beBytes num) := by
  obtain ⟨m₁, hheader, hlaid₁⟩ := makeRequestHeader_laid
    { group := group.toInt8, action := action.toInt8, contentType := 0, contentLen := 4,
      bodyLen := 4, token := token.bytes, userId, limit := -1, offset := -1 } token.len res
  obtain ⟨m₂, hclear, hlaid₂⟩ := RequestLaid.clear hlaid₁
  obtain ⟨m₃, hstore, hlaid₃⟩ := hlaid₂.store requestHeaderLen (beBytes num) rfl (by simp)
  refine ⟨m₃, ?_, hlaid₃⟩
  simp only [makeRequestUint32, hheader, hclear, hstore, Access.ok_bind, Access.after_nil]

/-- A header, a cleared body and a string at its start
    (`make_request_string`, `make_request_user_search`). -/
theorem stringBody_laid (h : RequestHeader) (htok : h.token.length = 16) (s : CStr)
    (hfit : s.strlen ≤ requestBodyLen) (res : Frame) :
    ∃ m, (do
        let res ← makeRequestHeader h res
        let res ← clearRequestBody res
        res.store requestHeaderLen s.bytes) = Access.ok m [] ∧ RequestLaid h m s.bytes := by
  obtain ⟨m₁, hheader, hlaid₁⟩ := makeRequestHeader_laid h htok res
  obtain ⟨m₂, hclear, hlaid₂⟩ := RequestLaid.clear hlaid₁
  have hroom : 64 + ([] : List UInt8).length + s.bytes.length ≤ 8192 := by
    simp [CStr.strlen] at hfit ⊢
    omega
  obtain ⟨m₃, hstore, hlaid₃⟩ := hlaid₂.store requestHeaderLen s.bytes rfl hroom
  refine ⟨m₃, ?_, hlaid₃⟩
  simp only [hheader, hclear, hstore, Access.ok_bind, Access.after_nil]

theorem makeRequestConvUser_laid (token : Token) (action : UInt8) (userId convId userId2 : UInt32)
    (res : Frame) :
    ∃ m, makeRequestConvUser token action userId convId userId2 res = .ok m [] ∧
      RequestLaid
        { group := 2, action := action.toInt8, contentType := 0, contentLen := 4, bodyLen := 4,
          token := token.bytes, userId, limit := -1, offset := -1 } m
        (beBytes convId ++ beBytes userId2) := by
  obtain ⟨m₁, hword, hlaid₁⟩ := makeRequestUint32_laid token 2 action userId convId res
  obtain ⟨m₂, hstore, hlaid₂⟩ :=
    hlaid₁.store (requestHeaderLen + 4) (beBytes userId2) (by simp) (by simp)
  refine ⟨m₂, ?_, hlaid₂⟩
  simp only [makeRequestConvUser, hword, hstore, Access.ok_bind, Access.after_nil]

theorem makeRequestRooms_laid (h : RequestHeader) (htok : h.token.length = 16)
    (convId chatId : UInt32) (res : Frame) :
    ∃ m, makeRequestRooms h convId chatId res = .ok m [] ∧
      RequestLaid h m (beBytes convId ++ beBytes chatId) := by
  obtain ⟨m₁, hheader, hlaid₁⟩ := makeRequestHeader_laid h htok res
  obtain ⟨m₂, hclear, hlaid₂⟩ := RequestLaid.clear hlaid₁
  obtain ⟨m₃, hconv, hlaid₃⟩ := hlaid₂.store requestHeaderLen (beBytes convId) rfl (by simp)
  obtain ⟨m₄, hchat, hlaid₄⟩ :=
    hlaid₃.store (requestHeaderLen + 4) (beBytes chatId) (by simp) (by simp)
  refine ⟨m₄, ?_, hlaid₄⟩
  simp only [makeRequestRooms, hheader, hclear, hconv, hchat, Access.ok_bind, Access.after_nil]

theorem makeRequestsMsgSend_laid (h : RequestHeader) (htok : h.token.length = 16)
    (convId chatId replyTo : UInt32) (text : CStr) (hfit : 12 + text.strlen ≤ requestBodyLen)
    (res : Frame) :
    ∃ m, makeRequestsMsgSend h convId chatId replyTo text res = .ok m [] ∧
      RequestLaid h m (beBytes convId ++ beBytes chatId ++ beBytes replyTo ++ text.bytes) := by
  obtain ⟨m₁, hheader, hlaid₁⟩ := makeRequestHeader_laid h htok res
  obtain ⟨m₂, hclear, hlaid₂⟩ := RequestLaid.clear hlaid₁
  obtain ⟨m₃, hconv, hlaid₃⟩ := hlaid₂.store requestHeaderLen (beBytes convId) rfl (by simp)
  obtain ⟨m₄, hchat, hlaid₄⟩ :=
    hlaid₃.store (requestHeaderLen + 4) (beBytes chatId) (by simp) (by simp)
  obtain ⟨m₅, hreply, hlaid₅⟩ :=
    hlaid₄.store (requestHeaderLen + 8) (beBytes replyTo) (by simp) (by simp)
  obtain ⟨m₆, htext, hlaid₆⟩ :=
    hlaid₅.store (requestHeaderLen + 12) text.bytes (by simp)
      (by simp [CStr.strlen] at hfit ⊢; omega)
  refine ⟨m₆, ?_, by simpa [List.append_assoc] using hlaid₆⟩
  simp only [makeRequestsMsgSend, hheader, hclear, hconv, hchat, hreply, htext, Access.ok_bind,
    Access.after_nil]

/-- A name and a password, each with its delimiter. -/
theorem RequestLaid.credentials {h : RequestHeader} {m : Frame} (hm : RequestLaid h m [])
    (u p : CStr) (hfit : u.strlen + p.strlen + 2 ≤ requestBodyLen) :
    ∃ m₁ m₂ m₃ m₄, m.store requestHeaderLen u.bytes = .ok m₁ [] ∧
      m₁.store (requestHeaderLen + u.strlen) [bodyDelimiter] = .ok m₂ [] ∧
      m₂.store (requestHeaderLen + (u.strlen + 1)) p.bytes = .ok m₃ [] ∧
      m₃.store (requestHeaderLen + (u.strlen + 1) + p.strlen) [bodyDelimiter] = .ok m₄ [] ∧
      RequestLaid h m₄ ([] ++ u.bytes ++ [bodyDelimiter] ++ p.bytes ++ [bodyDelimiter]) := by
  have hu : u.bytes.length = u.strlen := rfl
  simp only [requestBodyLen, bufsiz, requestHeaderLen] at hfit
  obtain ⟨m₁, m₂, huname, hdelim₁, hlaid₂⟩ := hm.field bodyDelimiter requestHeaderLen u rfl
    (by simp only [List.length_nil, requestHeaderLen, bufsiz]; omega)
  obtain ⟨m₃, m₄, hpass, hdelim₂, hlaid₄⟩ := hlaid₂.field bodyDelimiter
    (requestHeaderLen + (u.strlen + 1)) p (by simp [hu]) (by simp [hu]; omega)
  exact ⟨m₁, m₂, m₃, m₄, huname, hdelim₁, hpass, hdelim₂, hlaid₄⟩

theorem makeRequestAuthLogin_laid (u p : CStr) (hfit : u.strlen + p.strlen + 2 ≤ requestBodyLen)
    (res : Frame) :
    ∃ m, makeRequestAuthLogin u p res = .ok m [] ∧
      RequestLaid (RequestCall.authLogin u p).header m (RequestCall.authLogin u p).layout := by
  obtain ⟨m₁, hheader, hlaid₁⟩ := makeRequestHeader_laid (RequestCall.authLogin u p).header
    emptyToken.len res
  obtain ⟨m₂, hclear, hlaid₂⟩ := RequestLaid.clear hlaid₁
  obtain ⟨m₃, m₄, m₅, m₆, huname, hdelim₁, hpass, hdelim₂, hlaid₆⟩ := hlaid₂.credentials u p hfit
  refine ⟨m₆, ?_, by simpa [RequestCall.layout, List.append_assoc] using hlaid₆⟩
  simp only [RequestCall.header, RequestCall.kind, RequestCall.lengths, RequestCall.caller,
    RequestCall.page] at hheader
  simp only [makeRequestAuthLogin, hheader, hclear, huname, hdelim₁, hpass, hdelim₂,
    Access.ok_bind, Access.after_nil]

theorem makeRequestAuthRegister_laid (u p h e : CStr)
    (hfit : u.strlen + p.strlen + h.strlen + e.strlen + 3 ≤ requestBodyLen) (res : Frame) :
    ∃ m, makeRequestAuthRegister u p h e res = .ok m [] ∧
      RequestLaid (RequestCall.authRegister u p h e).header m
        (RequestCall.authRegister u p h e).layout := by
  have hu : u.bytes.length = u.strlen := rfl
  have hp : p.bytes.length = p.strlen := rfl
  have hh : h.bytes.length = h.strlen := rfl
  have he : e.bytes.length = e.strlen := rfl
  simp only [requestBodyLen, bufsiz, requestHeaderLen] at hfit
  obtain ⟨m₁, hheader, hlaid₁⟩ := makeRequestHeader_laid (RequestCall.authRegister u p h e).header
    emptyToken.len res
  obtain ⟨m₂, hclear, hlaid₂⟩ := RequestLaid.clear hlaid₁
  obtain ⟨m₃, m₄, m₅, m₆, huname, hdelim₁, hpass, hdelim₂, hlaid₆⟩ :=
    hlaid₂.credentials u p (by simp only [requestBodyLen, bufsiz, requestHeaderLen]; omega)
  obtain ⟨m₇, m₈, hphone, hdelim₃, hlaid₈⟩ :=
    hlaid₆.field bodyDelimiter (requestHeaderLen + (u.strlen + 1) + (p.strlen + 1)) h
      (by simp [hu, hp]; omega) (by simp [hu, hp]; omega)
  obtain ⟨m₉, hemail, hlaid₉⟩ :=
    hlaid₈.store (requestHeaderLen + (u.strlen + 1) + (p.strlen + 1) + (h.strlen + 1)) e.bytes
      (by simp [hu, hp, hh]; omega) (by simp [hu, hp, hh, he]; omega)
  refine ⟨m₉, ?_, by simpa [RequestCall.layout, List.append_assoc] using hlaid₉⟩
  simp only [RequestCall.header, RequestCall.kind, RequestCall.lengths, RequestCall.caller,
    RequestCall.page] at hheader
  simp only [makeRequestAuthRegister, hheader, hclear, huname, hdelim₁, hpass, hdelim₂, hphone,
    hdelim₃, hemail, Access.ok_bind, Access.after_nil]

/-- Every builder succeeds on arguments that fit and lays out its header and body. -/
theorem RequestCall.make_laid (c : RequestCall) (hc : c.WellFormed) (prior : Frame) :
    ∃ m, c.make prior = .ok m [] ∧ RequestLaid c.header m c.layout := by
  have hfits := hc.fits
  cases c with
  | authRegister u p h e => exact makeRequestAuthRegister_laid u p h e hfits prior
  | authLogin u p => exact makeRequestAuthLogin_laid u p hfits prior
  | userSearch t u s l o => exact stringBody_laid _ t.len s hfits prior
  | convCreate t u s => exact stringBody_laid _ t.len s hfits prior
  | userGetInfo t u w => exact makeRequestUint32_laid t 1 1 u w prior
  | convDrop t u w => exact makeRequestUint32_laid t 2 1 u w prior
  | convGetInfo t u w => exact makeRequestUint32_laid t 2 4 u w prior
  | convGetMembers t u w => exact makeRequestUint32_laid t 2 5 u w prior
  | chatCreate t u w => exact makeRequestUint32_laid t 3 0 u w prior
  | chatDelete t u w => exact makeRequestUint32_laid t 3 1 u w prior
  | chatGetInfo t u w => exact makeRequestUint32_laid t 3 3 u w prior
  | msgGetDetail t u w => exact makeRequestUint32_laid t 4 1 u w prior
  | msgDelete t u w => exact makeRequestUint32_laid t 4 3 u w prior
  | msgFileDownload t u w => exact makeRequestUint32_laid t 4 6 u w prior
  | convJoin t u v w => exact makeRequestConvUser_laid t 2 u v w prior
  | convQuit t u v w => exact makeRequestConvUser_laid t 3 u v w prior
  | msgGetAll t u l o v w => exact makeRequestRooms_laid _ t.len v w prior
  | msgNotifyDel t u v w => exact makeRequestRooms_laid _ t.len v w prior
  | msgSendText t u v w r s => exact makeRequestsMsgSend_laid _ t.len v w r s hfits prior
  | msgSendFile t u v w r z s =>
    have hsize : UInt32.ofNat z.toNat = z := UInt32.ofNat_toNat
    simp only [header, kind, lengths, caller, page, hsize]
    exact makeRequestsMsgSend_laid _ t.len v w r s hfits prior
  | userLogout t u => exact makeRequestHeader_laid _ t.len prior
  | convGetList t u l o => exact makeRequestHeader_laid _ t.len prior
  | chatGetList t u l o => exact makeRequestHeader_laid _ t.len prior
  | msgNotifyNew t u => exact makeRequestHeader_laid _ t.len prior

/-! ### The parser reads the bodies back -/

/-- Cutting a field off in front of its delimiter. -/
theorem fieldTokenizer_hit (bound : Option Nat) (pre : List UInt8) (s : CStr) (post : List UInt8)
    (hs : bodyDelimiter ∉ s.bytes) (hb : ∀ l ∈ bound, s.strlen ≤ l) (rest : Nat) :
    fieldTokenizer bound (pre ++ s.bytes ++ bodyDelimiter :: post) pre.length rest =
      .ok (pre ++ s.bytes ++ 0 :: post, pre.length + s.strlen + 1) [] := by
  have hdrop : (pre ++ s.bytes ++ bodyDelimiter :: post).drop pre.length =
      s.bytes ++ bodyDelimiter :: post := by
    simp [List.append_assoc]
  have hclean : ∀ b ∈ s.bytes, b ≠ 0 ∧ b ≠ bodyDelimiter :=
    fun b hmem => ⟨fun h => s.nulFree (h ▸ hmem), fun h => hs (h ▸ hmem)⟩
  have hscan : scanDelim bodyDelimiter bound (s.bytes ++ bodyDelimiter :: post) 0 =
      some (some (0 + s.bytes.length)) :=
    scanDelim_hit (by decide) s.bytes post hclean 0 (by simpa [CStr.strlen] using hb)
  have hset : (pre ++ s.bytes ++ bodyDelimiter :: post).set (pre.length + s.bytes.length) 0 =
      pre ++ s.bytes ++ 0 :: post := by
    rw [← List.length_append, List.set_append_right _ _ (le_refl _)]
    simp
  simp only [fieldTokenizer, hdrop, hscan, Nat.zero_add, hset, CStr.strlen, Access.pure_eq]

/-- A field that ends at the terminator is left alone. -/
theorem fieldTokenizer_miss (bound : Option Nat) (pre : List UInt8) (s : CStr) (post : List UInt8)
    (hs : bodyDelimiter ∉ s.bytes) (rest : Nat) :
    fieldTokenizer bound (pre ++ s.bytes ++ 0 :: post) pre.length rest =
      .ok (pre ++ s.bytes ++ 0 :: post, rest) [] := by
  have hdrop : (pre ++ s.bytes ++ 0 :: post).drop pre.length = s.bytes ++ 0 :: post := by
    simp [List.append_assoc]
  have hclean : ∀ b ∈ s.bytes, b ≠ 0 ∧ b ≠ bodyDelimiter :=
    fun b hmem => ⟨fun h => s.nulFree (h ▸ hmem), fun h => hs (h ▸ hmem)⟩
  simp only [fieldTokenizer, hdrop, scanDelim_miss s.bytes post hclean 0, Access.pure_eq]

/-- Cutting the first field off a scratch array. -/
theorem fieldTokenizer_first (s : CStr) (post : List UInt8) (hs : bodyDelimiter ∉ s.bytes)
    (hlen : s.strlen ≤ requestBodyLen) :
    fieldTokenizer (some requestBodyLen) (s.bytes ++ bodyDelimiter :: post) 0 0 =
      .ok (s.bytes ++ 0 :: post, s.strlen + 1) [] := by
  have hhit : fieldTokenizer (some requestBodyLen) ([] ++ s.bytes ++ bodyDelimiter :: post)
      ([] : List UInt8).length 0 = .ok ([] ++ s.bytes ++ 0 :: post, 0 + s.strlen + 1) [] :=
    fieldTokenizer_hit _ [] s post hs (by simpa using hlen) 0
  simpa using hhit

/-- The declared part of a body is what the parser copies. -/
theorem RequestLaid.load_declared {m : Frame} {h : RequestHeader} {bs body : List UInt8} {n : Nat}
    (rest : List UInt8) (hm : RequestLaid h m bs) (hbs : bs = body ++ rest)
    (hn : body.length = n) (hfit : requestHeaderLen + n ≤ bufsiz) :
    m.load requestHeaderLen n = .ok body [] := by
  subst hbs hn
  exact hm.load hfit

/-- Storing a terminator where one stands changes nothing. -/
theorem set_terminator (l : List UInt8) : (l ++ [0]).set l.length 0 = l ++ [0] := by
  rw [List.set_append_right _ _ (le_refl _), Nat.sub_self, List.set_cons_zero]

theorem requestParseAuth_login {m : Frame} (u p : CStr)
    (hc : (RequestCall.authLogin u p).WellFormed)
    (hm : RequestLaid (RequestCall.authLogin u p).header m (RequestCall.authLogin u p).layout) :
    requestParseAuth (RequestCall.authLogin u p).header m =
      .ok (some (RequestCall.authLogin u p).body) [u.strlen + p.strlen + 1] := by
  have hfit := hc.fits
  have hu := hc.delimFree u (by simp [RequestCall.delimited])
  have hp := hc.delimFree p (by simp [RequestCall.delimited])
  have hul : u.bytes.length = u.strlen := rfl
  have hpl : p.bytes.length = p.strlen := rfl
  simp only [RequestCall.written, requestBodyLen, bufsiz, requestHeaderLen] at hfit
  have hlen : (RequestCall.authLogin u p).header.bodyLen.toNat = u.strlen + p.strlen + 1 := by
    simp only [RequestCall.header, RequestCall.lengths, UInt32.toNat_ofNat']
    omega
  -- the local array is the declared body, without the delimiter behind the password
  have hload : m.load requestHeaderLen (u.strlen + p.strlen + 1) =
      .ok (u.bytes ++ bodyDelimiter :: p.bytes) [] := by
    refine RequestLaid.load_declared [bodyDelimiter] hm ?_ ?_ ?_
    · simp [RequestCall.layout, List.append_assoc]
    · simp [hul, hpl]; omega
    · simp only [requestHeaderLen, bufsiz]; omega
  have huname := fieldTokenizer_first u (p.bytes ++ [0]) hu (by simp; omega)
  have hpass : fieldTokenizer (some requestBodyLen) (u.bytes ++ [0] ++ p.bytes ++ 0 :: [])
      (u.bytes ++ [0]).length (u.strlen + 1) = _ :=
    fieldTokenizer_miss _ (u.bytes ++ [0]) p [] hp (u.strlen + 1)
  have hustr := strAt_append [] u (p.bytes ++ [0])
  have hpstr := strAt_append (u.bytes ++ [0]) p []
  simp only [List.append_assoc, List.cons_append, List.nil_append, List.length_append,
    List.length_cons, List.length_nil, hul, Nat.zero_add] at hpass hustr hpstr
  simp only [requestParseAuth, hlen, hload, Access.after_ok, Access.ok_bind, List.append_assoc,
    List.cons_append, huname, hpass, hustr, hpstr, Access.after_nil]
  simp [RequestCall.header, RequestCall.kind, RequestCall.body]

theorem requestParseAuth_register {m : Frame} (u p h e : CStr)
    (hc : (RequestCall.authRegister u p h e).WellFormed)
    (hm : RequestLaid (RequestCall.authRegister u p h e).header m
      (RequestCall.authRegister u p h e).layout) :
    requestParseAuth (RequestCall.authRegister u p h e).header m =
      .ok (some (RequestCall.authRegister u p h e).body)
        [u.strlen + p.strlen + h.strlen + e.strlen + 3] := by
  have hfit := hc.fits
  have hu := hc.delimFree u (by simp [RequestCall.delimited])
  have hp := hc.delimFree p (by simp [RequestCall.delimited])
  have hh := hc.delimFree h (by simp [RequestCall.delimited])
  have he := hc.delimFree e (by simp [RequestCall.delimited])
  have hul : u.bytes.length = u.strlen := rfl
  have hpl : p.bytes.length = p.strlen := rfl
  have hhl : h.bytes.length = h.strlen := rfl
  have hel : e.bytes.length = e.strlen := rfl
  simp only [RequestCall.written, requestBodyLen, bufsiz, requestHeaderLen] at hfit
  have hlen : (RequestCall.authRegister u p h e).header.bodyLen.toNat =
      u.strlen + p.strlen + h.strlen + e.strlen + 3 := by
    simp only [RequestCall.header, RequestCall.lengths, UInt32.toNat_ofNat']
    omega
  have hload : m.load requestHeaderLen (u.strlen + p.strlen + h.strlen + e.strlen + 3) =
      .ok (u.bytes ++ bodyDelimiter :: (p.bytes ++ bodyDelimiter :: (h.bytes ++
        bodyDelimiter :: e.bytes))) [] := by
    refine RequestLaid.load_declared [] hm ?_ ?_ ?_
    · simp [RequestCall.layout, List.append_assoc]
    · simp [hul, hpl, hhl, hel]; omega
    · simp only [requestHeaderLen, bufsiz]; omega
  -- each cut turns one more delimiter into a terminator
  have huname := fieldTokenizer_first u
    (p.bytes ++ bodyDelimiter :: (h.bytes ++ bodyDelimiter :: (e.bytes ++ [0]))) hu (by simp; omega)
  have hpass := fieldTokenizer_hit (some requestBodyLen) (u.bytes ++ [0]) p
    (h.bytes ++ bodyDelimiter :: (e.bytes ++ [0])) hp (by simp; omega) (u.strlen + 1)
  have hphone := fieldTokenizer_hit (some requestBodyLen)
    (u.bytes ++ [0] ++ p.bytes ++ [0]) h (e.bytes ++ [0]) hh (by simp; omega)
    (u.strlen + 1 + p.strlen + 1)
  have hemail := fieldTokenizer_miss (some requestBodyLen)
    (u.bytes ++ [0] ++ p.bytes ++ [0] ++ h.bytes ++ [0]) e [] he
    (u.strlen + 1 + p.strlen + 1 + h.strlen + 1)
  have hustr := strAt_append [] u (p.bytes ++ 0 :: (h.bytes ++ bodyDelimiter :: (e.bytes ++ [0])))
  have hpstr := strAt_append (u.bytes ++ [0]) p (h.bytes ++ bodyDelimiter :: (e.bytes ++ [0]))
  have hunow := strAt_append [] u (p.bytes ++ 0 :: (h.bytes ++ 0 :: (e.bytes ++ [0])))
  have hpnow := strAt_append (u.bytes ++ [0]) p (h.bytes ++ 0 :: (e.bytes ++ [0]))
  have hhnow := strAt_append (u.bytes ++ [0] ++ p.bytes ++ [0]) h (e.bytes ++ [0])
  have henow := strAt_append (u.bytes ++ [0] ++ p.bytes ++ [0] ++ h.bytes ++ [0]) e []
  have hl₁ : (u.bytes ++ [0]).length = u.strlen + 1 := by simp [hul]
  have hl₂ : (u.bytes ++ [0] ++ p.bytes ++ [0]).length = u.strlen + 1 + p.strlen + 1 := by
    simp [hul, hpl]; omega
  have hl₃ : (u.bytes ++ [0] ++ p.bytes ++ [0] ++ h.bytes ++ [0]).length =
      u.strlen + 1 + p.strlen + 1 + h.strlen + 1 := by
    simp [hul, hpl, hhl]; omega
  rw [hl₁] at hpass hpstr hpnow
  rw [hl₂] at hphone hhnow
  rw [hl₃] at hemail henow
  simp only [List.append_assoc, List.cons_append, List.nil_append, List.length_nil]
    at hpass hphone hemail hustr hpstr hunow hpnow hhnow henow
  -- what is left for the e-mail is its own length, so the last store hits the terminator
  have hrest : ((u.strlen + p.strlen + h.strlen + e.strlen + 3 : Nat) : Int) - u.strlen -
      p.strlen - h.strlen - 3 = e.strlen := by
    push_cast; ring
  have hlast : (u.bytes ++ 0 :: (p.bytes ++ 0 :: (h.bytes ++ 0 :: (e.bytes ++ [0])))).set
      (u.strlen + 1 + p.strlen + 1 + h.strlen + 1 + e.strlen) 0 =
        u.bytes ++ 0 :: (p.bytes ++ 0 :: (h.bytes ++ 0 :: (e.bytes ++ [0]))) := by
    have hidx : u.strlen + 1 + p.strlen + 1 + h.strlen + 1 + e.strlen =
        (u.bytes ++ [0] ++ p.bytes ++ [0] ++ h.bytes ++ [0] ++ e.bytes).length := by
      rw [List.length_append, hl₃, hel]
    have hassoc : u.bytes ++ 0 :: (p.bytes ++ 0 :: (h.bytes ++ 0 :: (e.bytes ++ [0]))) =
        (u.bytes ++ [0] ++ p.bytes ++ [0] ++ h.bytes ++ [0] ++ e.bytes) ++ [0] := by
      simp [List.append_assoc]
    rw [hidx, hassoc, set_terminator]
  have hroom : u.strlen + 1 + p.strlen + 1 + h.strlen + 1 + e.strlen <
      (u.bytes ++ 0 :: (p.bytes ++ 0 :: (h.bytes ++ 0 :: (e.bytes ++ [0])))).length := by
    simp [hul, hpl, hhl, hel]; omega
  have hpos : ¬ ((e.strlen : Int) < 0) := by omega
  have haction : (RequestCall.authRegister u p h e).header.action = 0 := rfl
  simp only [requestParseAuth, hlen, hload, Access.after_ok, Access.ok_bind, List.append_assoc,
    List.cons_append, huname, hpass, hustr, hpstr, Access.after_nil, haction, if_pos, hphone, hemail,
    hunow, hpnow, hhnow, hrest, if_neg hpos, Int.toNat_natCast, hroom, hlast, henow,
    Access.pure_eq, RequestCall.body, List.append_nil]

/-- The parser reads the body of every well-formed call back. -/
theorem RequestCall.parseBody_laid (c : RequestCall) (hc : c.WellFormed) {m : Frame}
    (hm : RequestLaid c.header m c.layout) :
    ∃ copies, requestParseBody c.header m = .ok (some c.body) copies := by
  have hfits := hc.fits
  cases c with
  | authRegister u p h e => exact ⟨_, requestParseAuth_register u p h e hc hm⟩
  | authLogin u p => exact ⟨_, requestParseAuth_login u p hc hm⟩
  | userLogout t u => exact ⟨[], rfl⟩
  | convGetList t u l o => exact ⟨[], rfl⟩
  | chatGetList t u l o => exact ⟨[], rfl⟩
  | msgNotifyNew t u => exact ⟨[], rfl⟩
  | userGetInfo t u w =>
    exact ⟨[], by simp [requestParseBody, requestParseUser, header, kind, body, RequestLaid.oneWord hm]⟩
  | convDrop t u w =>
    exact ⟨[], by simp [requestParseBody, requestParseConv, header, kind, body, RequestLaid.oneWord hm]⟩
  | convGetInfo t u w =>
    exact ⟨[], by simp [requestParseBody, requestParseConv, header, kind, body, RequestLaid.oneWord hm]⟩
  | convGetMembers t u w =>
    exact ⟨[], by simp [requestParseBody, requestParseConv, header, kind, body, RequestLaid.oneWord hm]⟩
  | chatCreate t u w =>
    exact ⟨[], by simp [requestParseBody, requestParseChat, header, kind, body, RequestLaid.oneWord hm]⟩
  | chatDelete t u w =>
    exact ⟨[], by simp [requestParseBody, requestParseChat, header, kind, body, RequestLaid.oneWord hm]⟩
  | chatGetInfo t u w =>
    exact ⟨[], by simp [requestParseBody, requestParseChat, header, kind, body, RequestLaid.oneWord hm]⟩
  | msgGetDetail t u w =>
    exact ⟨[], by simp [requestParseBody, requestParseMsg, header, kind, body, RequestLaid.oneWord hm]⟩
  | msgDelete t u w =>
    exact ⟨[], by simp [requestParseBody, requestParseMsg, header, kind, body, RequestLaid.oneWord hm]⟩
  | msgFileDownload t u w =>
    exact ⟨[], by simp [requestParseBody, requestParseMsg, header, kind, body, RequestLaid.oneWord hm]⟩
  | convJoin t u v w =>
    obtain ⟨hfst, hsnd⟩ := RequestLaid.twoWords hm
    exact ⟨[], by simp [requestParseBody, requestParseConv, header, kind, body, hfst, hsnd]⟩
  | convQuit t u v w =>
    obtain ⟨hfst, hsnd⟩ := RequestLaid.twoWords hm
    exact ⟨[], by simp [requestParseBody, requestParseConv, header, kind, body, hfst, hsnd]⟩
  | msgGetAll t u l o v w =>
    obtain ⟨hfst, hsnd⟩ := RequestLaid.twoWords hm
    exact ⟨[], by simp [requestParseBody, requestParseMsg, header, kind, body, hfst, hsnd]⟩
  | msgNotifyDel t u v w =>
    obtain ⟨hfst, hsnd⟩ := RequestLaid.twoWords hm
    exact ⟨[], by simp [requestParseBody, requestParseMsg, header, kind, body, hfst, hsnd]⟩
  | userSearch t u s l o =>
    obtain ⟨hlen, hcopy⟩ := RequestLaid.string hm hfits
    exact ⟨[s.strlen], by simp [requestParseBody, requestParseUser, header, kind, lengths, body,
      hlen, hcopy]⟩
  | convCreate t u s =>
    obtain ⟨hlen, hcopy⟩ := RequestLaid.string hm hfits
    exact ⟨[s.strlen], by simp [requestParseBody, requestParseConv, header, kind, lengths, body,
      hlen, hcopy]⟩
  | msgSendText t u c d r s =>
    obtain ⟨hconv, hchat, hreply, hlen, htext⟩ := RequestLaid.message hm hfits
    exact ⟨[s.strlen], by simp [requestParseBody, requestParseMsg, header, kind, lengths, body,
      hconv, hchat, hreply, hlen, htext]⟩
  | msgSendFile t u c d r z s =>
    obtain ⟨hconv, hchat, hreply, hlen, htext⟩ := RequestLaid.message hm hfits
    exact ⟨[s.strlen], by simp [requestParseBody, requestParseMsg, header, kind, lengths, body,
      hconv, hchat, hreply, hlen, htext]⟩

/-- **Round trip of the request format.** For every builder of `request.c` and
    all arguments that fit the body (and, in delimited fields, avoid the
    delimiter), the builder succeeds over any old frame and the parser returns
    exactly the header and the body fields that were encoded. -/
theorem request_roundTrip (c : RequestCall) (prior : Frame) (hc : c.WellFormed) :
    ∃ frame copies, c.make prior = .ok frame [] ∧
      requestParse frame = .ok (some ⟨c.header, c.body⟩) copies := by
  obtain ⟨m, hmake, hlaid⟩ := c.make_laid hc prior
  obtain ⟨copies, hbody⟩ := c.parseBody_laid hc hlaid
  refine ⟨m, copies, hmake, ?_⟩
  simp [requestParse, requestParseHeader_of_headerAt hlaid.header, hbody]

/-- The request of the test suite: registering `user123`. -/
theorem request_roundTrip_register :
    ∃ frame copies,
      (RequestCall.authRegister (.ofBytes (ascii "user123")) (.ofBytes (ascii "Pass@1234"))
        (.ofBytes (ascii "0123456789")) (.ofBytes (ascii "myemail@mail.com"))).make
          (fun _ => 0xFF) = .ok frame [] ∧
      requestParse frame = .ok (some ⟨(RequestCall.authRegister (.ofBytes (ascii "user123"))
        (.ofBytes (ascii "Pass@1234")) (.ofBytes (ascii "0123456789"))
        (.ofBytes (ascii "myemail@mail.com"))).header,
        .auth ⟨some (.ofBytes (ascii "user123")), some (.ofBytes (ascii "Pass@1234")),
          some (.ofBytes (ascii "0123456789")), some (.ofBytes (ascii "myemail@mail.com"))⟩⟩)
        copies :=
  request_roundTrip _ (fun _ => 0xFF) ⟨by decide, by decide⟩

end MeshChat
