import MeshChat.Wire.Response
import MeshChat.Wire.RequestRoundTrip

/-! # Round trip of response frames

    For each builder call of `response.c` we say which header and body it is
    meant to carry (`ResponseCall.header`, `ResponseCall.body`).

    * `ResponseCall.make_laid`: every builder whose body fits lays out that
      header and body, over any old buffer contents.
    * `response_roundTrip`: every response that carries a body is decoded to
      exactly these.
-/

namespace MeshChat

open CMemory

/-- The 30 packed bytes in front of a message's text. -/
def MsgDetail.packed (msg : MsgDetail) : List UInt8 :=
  beBytes msg.msgId ++ beBytes msg.fromUid ++ beBytes msg.replyTo ++ beBytes msg.convId ++
    beBytes msg.chatId ++ beBytes msg.createdAt ++ [msg.msgType] ++ [msg.contentType] ++
    beBytes msg.contentLength

namespace ResponseCall

/-! ## What a call is meant to carry -/

/-- Group and action bytes of the call. -/
def kind : ResponseCall → Int8 × Int8
  | err _ g a => (g.toInt8, a.toInt8)
  | authRegister .. => (0, 0)
  | authLogin .. => (0, 1)
  | userLogout .. => (1, 0)
  | userGetInfo .. => (1, 1)
  | userSearch .. => (1, 2)
  | convCreate .. => (2, 0)
  | convDrop .. => (2, 1)
  | convJoin .. => (2, 2)
  | convQuit .. => (2, 3)
  | convGetInfo .. => (2, 4)
  | convGetMembers .. => (2, 5)
  | convGetList .. => (2, 6)
  | chatCreate .. => (3, 0)
  | chatDelete .. => (3, 1)
  | chatGetList .. => (3, 2)
  | chatGetInfo .. => (3, 3)
  | msgGetAll .. => (4, 0)
  | msgGetDetail .. => (4, 1)
  | msgSend .. => (4, 2)
  | msgDelete .. => (4, 3)
  | msgNotifyNew .. => (4, 4)
  | msgNotifyDel .. => (4, 5)
  | msgDownloadFile .. => (4, 6)

/-- The ids of a list response. -/
def ids : ResponseCall → List UInt32
  | userSearch _ ls | convGetMembers _ ls | convGetList _ ls | chatGetList _ ls | msgGetAll _ ls
  | msgNotifyNew _ ls | msgNotifyDel _ ls => ls
  | _ => []

/-- Number of body bytes the builder writes. -/
def written : ResponseCall → Nat
  | authRegister .. | authLogin .. => tokenLen + 4
  | userGetInfo _ u p e => u.strlen + p.strlen + e.strlen + 2
  | userSearch _ ls | convGetMembers _ ls | convGetList _ ls | chatGetList _ ls | msgGetAll _ ls
  | msgNotifyNew _ ls | msgNotifyDel _ ls => 4 * ls.length
  | convCreate .. | chatCreate .. | msgSend .. => 4
  | convGetInfo _ _ g => 4 + g.strlen
  | chatGetInfo .. => 8
  | msgGetDetail _ m => 30 + m.msgContent.strlen
  | msgDownloadFile _ _ f => (UInt32.ofNat f.strlen).toNat
  | err .. | userLogout .. | convDrop .. | convJoin .. | convQuit .. | chatDelete ..
  | msgDelete .. => 0

/-- Content type and content length the call declares. -/
def content : ResponseCall → UInt8 × UInt32
  | msgGetDetail _ m => (m.contentType, m.contentLength)
  | msgDownloadFile _ z _ => (1, z)
  | c => (0, UInt32.ofNat c.written)

/-- The header the call encodes. -/
def header (c : ResponseCall) : ResponseHeader where
  group := c.kind.1
  action := c.kind.2
  contentType := c.content.1
  contentLen := c.content.2
  bodyLen := UInt32.ofNat c.written
  statusCode := c.status
  count := UInt32.ofNat c.ids.length

/-- The body the call encodes, `none` for the calls that send a header alone. -/
def body : ResponseCall → Option ResponseBody
  | authRegister _ t u | authLogin _ t u => some (.auth ⟨t.bytes, u⟩)
  | userGetInfo _ u p e => some (.user { uname := some u, phone := some p, email := some e })
  | userSearch _ ls => some (.user { idls := some ls })
  | convCreate _ w => some (.conv { convId := w })
  | convGetInfo _ a g => some (.conv { adminId := a, gname := some g })
  | convGetMembers _ ls | convGetList _ ls => some (.conv { idls := some ls })
  | chatCreate _ w => some (.chat { chatId := w })
  | chatGetList _ ls => some (.chat { idls := some ls })
  | chatGetInfo _ a b => some (.chat { memberId1 := a, memberId2 := b })
  | msgGetAll _ ls | msgNotifyNew _ ls | msgNotifyDel _ ls => some (.msg { idls := some ls })
  | msgGetDetail _ m =>
    some (.msg { msgId := m.msgId, convId := m.convId, chatId := m.chatId, fromUid := m.fromUid,
                 replyTo := m.replyTo, createdAt := m.createdAt, msgType := m.msgType,
                 contentType := m.contentType, contentLength := m.contentLength,
                 msgContent := some m.msgContent })
  | msgSend _ w => some (.msg { msgId := w })
  | msgDownloadFile _ _ f => some (.msg { msgContent := some f })
  | err .. | userLogout .. | convDrop .. | convJoin .. | convQuit .. | chatDelete ..
  | msgDelete .. => none

/-- The fields that are separated by delimiters. -/
def delimited : ResponseCall → List CStr
  | userGetInfo _ u p e => [u, p, e]
  | _ => []

/-- The strings of a call. -/
def strings : ResponseCall → List CStr
  | userGetInfo _ u p e => [u, p, e]
  | convGetInfo _ _ g => [g]
  | msgGetDetail _ m => [m.msgContent]
  | msgDownloadFile _ _ f => [f]
  | _ => []

/-- The arguments fit the body, and delimited fields avoid the delimiter. -/
structure WellFormed (c : ResponseCall) : Prop where
  fits : c.written ≤ responseBodyLen
  short : ∀ s ∈ c.strings, s.strlen ≤ responseBodyLen
  delimFree : ∀ s ∈ c.delimited, bodyDelimiter ∉ s.bytes

/-- A call without strings has only to fit. -/
theorem WellFormed.of_plain {c : ResponseCall} (hfits : c.written ≤ responseBodyLen)
    (hstrings : c.strings = []) (hdelimited : c.delimited = []) : c.WellFormed := by
  refine ⟨hfits, ?_, ?_⟩
  · rw [hstrings]
    simp
  · rw [hdelimited]
    simp

/-- The body bytes a call lays out. -/
def layout : ResponseCall → List UInt8
  | authRegister _ t u | authLogin _ t u => t.bytes ++ beBytes u
  | userGetInfo _ u p e =>
    u.bytes ++ [bodyDelimiter] ++ p.bytes ++ [bodyDelimiter] ++ e.bytes
  | userSearch _ ls | convGetMembers _ ls | convGetList _ ls | chatGetList _ ls | msgGetAll _ ls
  | msgNotifyNew _ ls | msgNotifyDel _ ls => beWords ls
  | convCreate _ w | chatCreate _ w | msgSend _ w => beBytes w
  | convGetInfo _ a g => beBytes a ++ g.bytes
  | chatGetInfo _ a b => beBytes a ++ beBytes b
  | msgGetDetail _ m => m.packed ++ m.msgContent.bytes
  | msgDownloadFile _ _ f => f.bytes.take (UInt32.ofNat f.strlen).toNat
  | err .. | userLogout .. | convDrop .. | convJoin .. | convQuit .. | chatDelete ..
  | msgDelete .. => []

end ResponseCall

/-! ## The header -/

/-- The first 32 bytes of `m` hold the header `h`. -/
structure ResponseHeaderAt (h : ResponseHeader) (m : Frame) : Prop where
  group : m.at' 0 = h.group.toUInt8
  action : m.at' 1 = h.action.toUInt8
  contentType : m.at' 2 = h.contentType
  contentLen : m.word 4 = h.contentLen
  bodyLen : m.word 8 = h.bodyLen
  statusCode : m.word 12 = h.statusCode
  count : m.word 16 = h.count

/-- Stores into the body leave the header alone. -/
theorem ResponseHeaderAt.put {m : Frame} {h : ResponseHeader} (hm : ResponseHeaderAt h m)
    {off : Nat} {bs : List UInt8} (hoff : 32 ≤ off) (hlen : off + bs.length ≤ 8192) :
    ResponseHeaderAt h (m.put off bs) where
  group := by rw [Mem.at'_put_disjoint hlen (by omega), hm.group]
  action := by rw [Mem.at'_put_disjoint hlen (by omega), hm.action]
  contentType := by rw [Mem.at'_put_disjoint hlen (by omega), hm.contentType]
  contentLen := by rw [Mem.word_put_disjoint hlen (by omega), hm.contentLen]
  bodyLen := by rw [Mem.word_put_disjoint hlen (by omega), hm.bodyLen]
  statusCode := by rw [Mem.word_put_disjoint hlen (by omega), hm.statusCode]
  count := by rw [Mem.word_put_disjoint hlen (by omega), hm.count]

/-- `m` holds the header `h` and its body starts with the bytes `bs`. -/
abbrev ResponseLaid (h : ResponseHeader) (m : Frame) (bs : List UInt8) : Prop :=
  Laid responseHeaderLen (ResponseHeaderAt h) m bs

theorem ResponseLaid.of_headerAt {h : ResponseHeader} {m : Frame} (hm : ResponseHeaderAt h m) :
    ResponseLaid h m [] := by
  refine ⟨?_, hm, rfl⟩
  intro m off b hoff hlen hm
  exact hm.put hoff hlen

/-- The frame `make_response_header` leaves behind. -/
def responseHeaderImage (h : ResponseHeader) (res : Frame) : Frame :=
  (((((((res.put 0 (zeros responseHeaderLen)).put 0 [h.group.toUInt8]).put 1
    [h.action.toUInt8]).put 2 [h.contentType]).put 4 (beBytes h.contentLen)).put 8
    (beBytes h.bodyLen)).put 12 (beBytes h.statusCode)).put 16 (beBytes h.count)

/-- `make_response_header` stores the header, whatever the buffer held. -/
theorem makeResponseHeader_laid (h : ResponseHeader) (res : Frame) :
    ∃ m, makeResponseHeader h res = .ok m [] ∧ ResponseLaid h m [] := by
  refine ⟨responseHeaderImage h res, ?_, ResponseLaid.of_headerAt ?_⟩
  · simp [makeResponseHeader, responseHeaderImage, Mem.store]
  · unfold responseHeaderImage
    constructor <;>
      simp (disch := simp) only [Mem.at'_put_disjoint, Mem.at'_put_self, Mem.word_put_disjoint,
        Mem.word_put_self]

/-- The frame `make_err_response` leaves behind. -/
def errResponseImage (status : UInt32) (group action : UInt8) (res : Frame) : Frame :=
  (((res.put 0 (zeros responseHeaderLen)).put 0 [group]).put 1 [action]).put 12 (beBytes status)

/-- An error frame is a header that declares no body; the fields not written
    are those cleared before. -/
theorem makeErrResponse_laid (status : UInt32) (group action : UInt8) (res : Frame) :
    ∃ m, makeErrResponse status group action res = .ok m [] ∧
      ResponseLaid (ResponseCall.err status group action).header m [] := by
  refine ⟨errResponseImage status group action res, ?_, ResponseLaid.of_headerAt ?_⟩
  · simp [makeErrResponse, errResponseImage, Mem.store]
  · unfold errResponseImage
    constructor <;>
      simp (disch := simp) only [Mem.at'_put_disjoint, Mem.at'_put_self, Mem.word_put_disjoint,
        Mem.word_put_self, Mem.word_put_zeros, Mem.at'_put_zeros] <;> rfl

/-- The parser reads back the header that is there. -/
theorem responseParseHeader_of_headerAt {m : Frame} {h : ResponseHeader}
    (hm : ResponseHeaderAt h m) : responseParseHeader m = .ok h [] := by
  have hgroup : h.group.toUInt8.toInt8 = h.group := rfl
  have haction : h.action.toUInt8.toInt8 = h.action := rfl
  simp [responseParseHeader, Mem.loadByte, Mem.loadWord, hm.group, hm.action, hm.contentType,
    hm.contentLen, hm.bodyLen, hm.statusCode, hm.count, hgroup, haction]

/-- What the parser makes of a frame whose header is known. -/
theorem responseParse_of_headerAt {m : Frame} {h : ResponseHeader} (hm : ResponseHeaderAt h m) :
    responseParse m = (responseParseBody h m >>= fun b => pure (b.map (Response.mk h))) := by
  simp [responseParse, responseParseHeader_of_headerAt hm]

theorem ResponseLaid.clear {m : Frame} {h : ResponseHeader} {bs : List UInt8}
    (hm : ResponseLaid h m bs) : ∃ m', clearResponseBody m = .ok m' [] ∧ ResponseLaid h m' [] :=
  Laid.clear hm (by simp)

/-! ## Builders lay out their bodies -/

/-- Every builder with a body starts with its header and a cleared body. -/
theorem responseHead_laid (h : ResponseHeader) (res : Frame) :
    ∃ m₁ m₂, makeResponseHeader h res = .ok m₁ [] ∧ clearResponseBody m₁ = .ok m₂ [] ∧
      ResponseLaid h m₂ [] := by
  obtain ⟨m₁, hheader, hlaid₁⟩ := makeResponseHeader_laid h res
  obtain ⟨m₂, hclear, hlaid₂⟩ := ResponseLaid.clear hlaid₁
  exact ⟨m₁, m₂, hheader, hclear, hlaid₂⟩

/-- The size of an id list that fits, as the builder computes it. -/
theorem idList_size (ls : List UInt32) (hfit : 4 * ls.length ≤ 8160) :
    UInt32.ofNat ls.length <<< 2 = UInt32.ofNat (4 * ls.length) := by
  apply UInt32.toNat_inj.mp
  have hlen : ls.length % 2 ^ 32 = ls.length := Nat.mod_eq_of_lt (by omega)
  have hshift : (2 : UInt32).toNat % 32 = 2 := rfl
  simp only [UInt32.toNat_shiftLeft, UInt32.toNat_ofNat', Nat.shiftLeft_eq, hlen, hshift]
  omega

theorem makeResponseIdList_laid (group action : UInt8) (statusCode : UInt32) (ls : List UInt32)
    (hfit : 4 * ls.length ≤ responseBodyLen) (res : Frame) :
    ∃ m, makeResponseIdList group action statusCode ls res = .ok m [] ∧
      ResponseLaid
        { group := group.toInt8, action := action.toInt8, statusCode,
          contentLen := UInt32.ofNat (4 * ls.length), bodyLen := UInt32.ofNat (4 * ls.length),
          count := UInt32.ofNat ls.length } m (beWords ls) := by
  simp only [responseBodyLen, bufsiz, responseHeaderLen] at hfit
  obtain ⟨m₁, m₂, hheader, hclear, hlaid₂⟩ := responseHead_laid
    { group := group.toInt8, action := action.toInt8, statusCode,
      contentLen := UInt32.ofNat (4 * ls.length), bodyLen := UInt32.ofNat (4 * ls.length),
      count := UInt32.ofNat ls.length } res
  have hroom : 32 + ([] : List UInt8).length + 4 * ls.length ≤ 8192 := by
    simp only [List.length_nil]; omega
  obtain ⟨m₃, hwords, hlaid₃⟩ := hlaid₂.storeWords ls responseHeaderLen rfl hroom
  refine ⟨m₃, ?_, hlaid₃⟩
  simp only [makeResponseIdList, idList_size ls hfit, hheader, hclear, hwords, Access.ok_bind,
    Access.after_nil]

theorem makeResponseUint32_laid (group action : UInt8) (statusCode num : UInt32) (res : Frame) :
    ∃ m, makeResponseUint32 group action statusCode num res = .ok m [] ∧
      ResponseLaid
        { group := group.toInt8, action := action.toInt8, statusCode, contentLen := 4,
          bodyLen := 4 } m (beBytes num) := by
  obtain ⟨m₁, m₂, hheader, hclear, hlaid₂⟩ := responseHead_laid
    { group := group.toInt8, action := action.toInt8, statusCode, contentLen := 4,
      bodyLen := 4 } res
  obtain ⟨m₃, hnum, hlaid₃⟩ := hlaid₂.store responseHeaderLen (beBytes num) rfl (by simp)
  refine ⟨m₃, ?_, hlaid₃⟩
  simp only [makeResponseUint32, hheader, hclear, hnum, Access.ok_bind, Access.after_nil]

theorem makeResponseAuth_laid (action : Int8) (statusCode : UInt32) (token : Token)
    (userId : UInt32) (res : Frame) :
    ∃ m, makeResponseAuth action statusCode token userId res = .ok m [] ∧
      ResponseLaid
        { group := 0, action, statusCode, contentLen := UInt32.ofNat (tokenLen + 4),
          bodyLen := UInt32.ofNat (tokenLen + 4) } m (token.bytes ++ beBytes userId) := by
  have htoken : token.bytes.length = 16 := token.len
  obtain ⟨m₁, m₂, hheader, hclear, hlaid₂⟩ := responseHead_laid
    { group := 0, action, statusCode, contentLen := UInt32.ofNat (tokenLen + 4),
      bodyLen := UInt32.ofNat (tokenLen + 4) } res
  obtain ⟨m₃, hstore, hlaid₃⟩ := hlaid₂.store responseHeaderLen token.bytes rfl (by simp [htoken])
  obtain ⟨m₄, huser, hlaid₄⟩ := hlaid₃.store (responseHeaderLen + tokenLen) (beBytes userId)
    (by simp [htoken]) (by simp [htoken])
  refine ⟨m₄, ?_, hlaid₄⟩
  simp only [makeResponseAuth, hheader, hclear, hstore, huser, Access.ok_bind, Access.after_nil]

theorem makeResponseUserGetInfo_laid (statusCode : UInt32) (u p e : CStr)
    (hfit : u.strlen + p.strlen + e.strlen + 2 ≤ responseBodyLen) (res : Frame) :
    ∃ m, makeResponseUserGetInfo statusCode u p e res = .ok m [] ∧
      ResponseLaid
        { group := 1, action := 1, statusCode,
          contentLen := UInt32.ofNat (u.strlen + p.strlen + e.strlen + 2),
          bodyLen := UInt32.ofNat (u.strlen + p.strlen + e.strlen + 2) } m
        (u.bytes ++ [bodyDelimiter] ++ p.bytes ++ [bodyDelimiter] ++ e.bytes) := by
  have hu : u.bytes.length = u.strlen := rfl
  have hp : p.bytes.length = p.strlen := rfl
  have he : e.bytes.length = e.strlen := rfl
  simp only [responseBodyLen, bufsiz, responseHeaderLen] at hfit
  obtain ⟨m₁, m₂, hheader, hclear, hlaid₂⟩ := responseHead_laid
    { group := 1, action := 1, statusCode,
      contentLen := UInt32.ofNat (u.strlen + p.strlen + e.strlen + 2),
      bodyLen := UInt32.ofNat (u.strlen + p.strlen + e.strlen + 2) } res
  obtain ⟨m₃, m₄, huname, hdelim₁, hlaid₄⟩ := hlaid₂.field bodyDelimiter responseHeaderLen u rfl
    (by simp only [List.length_nil, responseHeaderLen, bufsiz]; omega)
  obtain ⟨m₅, m₆, hphone, hdelim₂, hlaid₆⟩ :=
    hlaid₄.field bodyDelimiter (responseHeaderLen + (u.strlen + 1)) p (by simp [hu])
      (by simp [hu]; omega)
  obtain ⟨m₇, hemail, hlaid₇⟩ :=
    hlaid₆.store (responseHeaderLen + (u.strlen + 1) + (p.strlen + 1)) e.bytes
      (by simp [hu, hp]; omega) (by simp [hu, hp, he]; omega)
  refine ⟨m₇, ?_, by simpa [List.append_assoc] using hlaid₇⟩
  simp only [makeResponseUserGetInfo, hheader, hclear, huname, hdelim₁, hphone, hdelim₂, hemail,
    Access.ok_bind, Access.after_nil]

theorem makeResponseConvGetInfo_laid (statusCode adminId : UInt32) (gname : CStr)
    (hfit : 4 + gname.strlen ≤ responseBodyLen) (res : Frame) :
    ∃ m, makeResponseConvGetInfo statusCode adminId gname res = .ok m [] ∧
      ResponseLaid
        { group := 2, action := 4, statusCode, contentLen := UInt32.ofNat (4 + gname.strlen),
          bodyLen := UInt32.ofNat (4 + gname.strlen) } m (beBytes adminId ++ gname.bytes) := by
  have hg : gname.bytes.length = gname.strlen := rfl
  simp only [responseBodyLen, bufsiz, responseHeaderLen] at hfit
  obtain ⟨m₁, m₂, hheader, hclear, hlaid₂⟩ := responseHead_laid
    { group := 2, action := 4, statusCode, contentLen := UInt32.ofNat (4 + gname.strlen),
      bodyLen := UInt32.ofNat (4 + gname.strlen) } res
  obtain ⟨m₃, hadmin, hlaid₃⟩ := hlaid₂.store responseHeaderLen (beBytes adminId) rfl (by simp)
  obtain ⟨m₄, hname, hlaid₄⟩ := hlaid₃.store (responseHeaderLen + 4) gname.bytes (by simp)
    (by simp [hg]; omega)
  refine ⟨m₄, ?_, hlaid₄⟩
  simp only [makeResponseConvGetInfo, hheader, hclear, hadmin, hname, Access.ok_bind,
    Access.after_nil]

theorem makeResponseChatGetInfo_laid (statusCode memberId1 memberId2 : UInt32) (res : Frame) :
    ∃ m, makeResponseChatGetInfo statusCode memberId1 memberId2 res = .ok m [] ∧
      ResponseLaid { group := 3, action := 3, statusCode, contentLen := 8, bodyLen := 8 } m
        (beBytes memberId1 ++ beBytes memberId2) := by
  obtain ⟨m₁, m₂, hheader, hclear, hlaid₂⟩ := responseHead_laid
    { group := 3, action := 3, statusCode, contentLen := 8, bodyLen := 8 } res
  obtain ⟨m₃, hfst, hlaid₃⟩ := hlaid₂.store responseHeaderLen (beBytes memberId1) rfl (by simp)
  obtain ⟨m₄, hsnd, hlaid₄⟩ :=
    hlaid₃.store (responseHeaderLen + 4) (beBytes memberId2) (by simp) (by simp)
  refine ⟨m₄, ?_, hlaid₄⟩
  simp only [makeResponseChatGetInfo, hheader, hclear, hfst, hsnd, Access.ok_bind,
    Access.after_nil]

theorem makeResponseMsgGetDetail_laid (status : UInt32) (msg : MsgDetail)
    (hfit : 30 + msg.msgContent.strlen ≤ responseBodyLen) (res : Frame) :
    ∃ m, makeResponseMsgGetDetail status msg res = .ok m [] ∧
      ResponseLaid
        { group := 4, action := 1, contentType := msg.contentType, statusCode := status,
          contentLen := msg.contentLength, bodyLen := UInt32.ofNat (30 + msg.msgContent.strlen) } m
        (msg.packed ++ msg.msgContent.bytes) := by
  have hc : msg.msgContent.bytes.length = msg.msgContent.strlen := rfl
  simp only [responseBodyLen, bufsiz, responseHeaderLen] at hfit
  obtain ⟨m₁, m₂, hheader, hclear, hlaid₂⟩ := responseHead_laid
    { group := 4, action := 1, contentType := msg.contentType, statusCode := status,
      contentLen := msg.contentLength, bodyLen := UInt32.ofNat (30 + msg.msgContent.strlen) } res
  -- each store continues what was laid before it
  obtain ⟨m₃, h₁, hlaid₃⟩ := hlaid₂.store responseHeaderLen (beBytes msg.msgId) rfl (by simp)
  obtain ⟨m₄, h₂, hlaid₄⟩ :=
    hlaid₃.store (responseHeaderLen + 4) (beBytes msg.fromUid) (by simp) (by simp)
  obtain ⟨m₅, h₃, hlaid₅⟩ :=
    hlaid₄.store (responseHeaderLen + 8) (beBytes msg.replyTo) (by simp) (by simp)
  obtain ⟨m₆, h₄, hlaid₆⟩ :=
    hlaid₅.store (responseHeaderLen + 12) (beBytes msg.convId) (by simp) (by simp)
  obtain ⟨m₇, h₅, hlaid₇⟩ :=
    hlaid₆.store (responseHeaderLen + 16) (beBytes msg.chatId) (by simp) (by simp)
  obtain ⟨m₈, h₆, hlaid₈⟩ :=
    hlaid₇.store (responseHeaderLen + 20) (beBytes msg.createdAt) (by simp) (by simp)
  obtain ⟨m₉, h₇, hlaid₉⟩ :=
    hlaid₈.store (responseHeaderLen + 24) [msg.msgType] (by simp) (by simp)
  obtain ⟨m₁₀, h₈, hlaid₁₀⟩ :=
    hlaid₉.store (responseHeaderLen + 25) [msg.contentType] (by simp) (by simp)
  obtain ⟨m₁₁, h₉, hlaid₁₁⟩ :=
    hlaid₁₀.store (responseHeaderLen + 26) (beBytes msg.contentLength) (by simp) (by simp)
  obtain ⟨m₁₂, h₁₀, hlaid₁₂⟩ :=
    hlaid₁₁.store (responseHeaderLen + 30) msg.msgContent.bytes (by simp) (by simp [hc]; omega)
  refine ⟨m₁₂, ?_, by simpa [MsgDetail.packed, List.append_assoc] using hlaid₁₂⟩
  simp only [makeResponseMsgGetDetail, hheader, hclear, h₁, h₂, h₃, h₄, h₅, h₆, h₇, h₈, h₉, h₁₀,
    Access.ok_bind, Access.after_nil]

theorem makeResponseMsgDownloadFile_laid (statusCode fsize : UInt32) (fname : CStr)
    (hfit : (UInt32.ofNat fname.strlen).toNat ≤ responseBodyLen) (res : Frame) :
    ∃ m, makeResponseMsgDownloadFile statusCode fsize fname res = .ok m [] ∧
      ResponseLaid
        { group := 4, action := 6, contentType := 1, statusCode, contentLen := fsize,
          bodyLen := UInt32.ofNat fname.strlen } m
        (fname.bytes.take (UInt32.ofNat fname.strlen).toNat) := by
  simp only [responseBodyLen, bufsiz, responseHeaderLen] at hfit
  obtain ⟨m₁, m₂, hheader, hclear, hlaid₂⟩ := responseHead_laid
    { group := 4, action := 6, contentType := 1, statusCode, contentLen := fsize,
      bodyLen := UInt32.ofNat fname.strlen } res
  have hroom : 32 + ([] : List UInt8).length +
      (fname.bytes.take (UInt32.ofNat fname.strlen).toNat).length ≤ 8192 := by
    rw [List.length_take]; simp only [List.length_nil]; omega
  obtain ⟨m₃, hname, hlaid₃⟩ := hlaid₂.store responseHeaderLen _ rfl hroom
  refine ⟨m₃, ?_, hlaid₃⟩
  simp only [makeResponseMsgDownloadFile, hheader, hclear, hname, Access.ok_bind,
    Access.after_nil]

/-- Every builder succeeds on arguments that fit and lays out its header and body. -/
theorem ResponseCall.make_laid (c : ResponseCall) (hfit : c.written ≤ responseBodyLen)
    (prior : Frame) : ∃ m, c.make prior = .ok m [] ∧ ResponseLaid c.header m c.layout := by
  cases c with
  | err s g a => exact makeErrResponse_laid s g a prior
  | authRegister s t u => exact makeResponseAuth_laid 0 s t u prior
  | authLogin s t u => exact makeResponseAuth_laid 1 s t u prior
  | userGetInfo s u p e => exact makeResponseUserGetInfo_laid s u p e hfit prior
  | convGetInfo s a g => exact makeResponseConvGetInfo_laid s a g hfit prior
  | chatGetInfo s a b => exact makeResponseChatGetInfo_laid s a b prior
  | msgGetDetail s m => exact makeResponseMsgGetDetail_laid s m hfit prior
  | msgDownloadFile s z f =>
    have hsize : UInt32.ofNat (UInt32.ofNat f.strlen).toNat = UInt32.ofNat f.strlen :=
      UInt32.ofNat_toNat
    simp only [header, kind, content, written, status, hsize]
    exact makeResponseMsgDownloadFile_laid s z f hfit prior
  | userSearch s ls => exact makeResponseIdList_laid 1 2 s ls hfit prior
  | convGetMembers s ls => exact makeResponseIdList_laid 2 5 s ls hfit prior
  | convGetList s ls => exact makeResponseIdList_laid 2 6 s ls hfit prior
  | chatGetList s ls => exact makeResponseIdList_laid 3 2 s ls hfit prior
  | msgGetAll s ls => exact makeResponseIdList_laid 4 0 s ls hfit prior
  | msgNotifyNew s ls => exact makeResponseIdList_laid 4 4 s ls hfit prior
  | msgNotifyDel s ls => exact makeResponseIdList_laid 4 5 s ls hfit prior
  | convCreate s w => exact makeResponseUint32_laid 2 0 s w prior
  | chatCreate s w => exact makeResponseUint32_laid 3 0 s w prior
  | msgSend s w => exact makeResponseUint32_laid 4 2 s w prior
  | userLogout s => exact makeResponseHeader_laid _ prior
  | convDrop s => exact makeResponseHeader_laid _ prior
  | convJoin s => exact makeResponseHeader_laid _ prior
  | convQuit s => exact makeResponseHeader_laid _ prior
  | chatDelete s => exact makeResponseHeader_laid _ prior
  | msgDelete s => exact makeResponseHeader_laid _ prior

theorem makeResponseIdList_inside {group action : UInt8} {statusCode : UInt32} {ls : List UInt32}
    {res frame : Frame} {l : List Nat}
    (h : makeResponseIdList group action statusCode ls res = .ok frame l) :
    4 * ls.length ≤ responseBodyLen := by
  obtain ⟨_, _, h⟩ := Access.bind_eq_ok h
  obtain ⟨_, _, h⟩ := Access.bind_eq_ok h
  have hlast := Mem.storeWords_inside (by simp) h
  simp only [responseBodyLen, bufsiz, responseHeaderLen] at hlast ⊢
  omega

/-- A builder that returns has written its whole body inside the frame: its last
    store ends at the last byte of the body. -/
theorem ResponseCall.written_le_of_make {c : ResponseCall} {prior frame : Frame} {l : List Nat}
    (h : c.make prior = .ok frame l) : c.written ≤ responseBodyLen := by
  cases c with
  | userGetInfo s u p e =>
    repeat obtain ⟨_, _, h⟩ := Access.bind_eq_ok h
    have hlast := Mem.store_inside h
    simp only [written, CStr.strlen, responseBodyLen, bufsiz, responseHeaderLen] at hlast ⊢
    omega
  | convGetInfo s a g =>
    repeat obtain ⟨_, _, h⟩ := Access.bind_eq_ok h
    have hlast := Mem.store_inside h
    simp only [written, CStr.strlen, responseBodyLen, bufsiz, responseHeaderLen] at hlast ⊢
    omega
  | msgGetDetail s m =>
    repeat obtain ⟨_, _, h⟩ := Access.bind_eq_ok h
    have hlast := Mem.store_inside h
    simp only [written, CStr.strlen, responseBodyLen, bufsiz, responseHeaderLen] at hlast ⊢
    omega
  | msgDownloadFile s z f =>
    repeat obtain ⟨_, _, h⟩ := Access.bind_eq_ok h
    have hlast := Mem.store_inside h
    -- the 32-bit length never exceeds the real one, so the copy has that many bytes
    have hle : (UInt32.ofNat f.strlen).toNat ≤ f.bytes.length := by
      rw [UInt32.toNat_ofNat']
      exact Nat.mod_le _ _
    rw [List.length_take, Nat.min_eq_left hle] at hlast
    simp only [written, responseBodyLen, bufsiz, responseHeaderLen] at hlast ⊢
    omega
  | userSearch s ls | convGetMembers s ls | convGetList s ls | chatGetList s ls | msgGetAll s ls
  | msgNotifyNew s ls | msgNotifyDel s ls => exact makeResponseIdList_inside h
  | _ => simp [written]

/-! ## The parser reads the bodies back -/

/-- The delimited names of a user. -/
theorem responseParseUser_info {m : Frame} {s : UInt32} (u p e : CStr)
    (hc : (ResponseCall.userGetInfo s u p e).WellFormed)
    (hm : ResponseLaid (ResponseCall.userGetInfo s u p e).header m
      (ResponseCall.userGetInfo s u p e).layout) :
    responseParseUser (ResponseCall.userGetInfo s u p e).header m =
      .ok (some (.user { uname := some u, phone := some p, email := some e }))
        [u.strlen + p.strlen + e.strlen + 2] := by
  have hfit := hc.fits
  have hu := hc.delimFree u (by simp [ResponseCall.delimited])
  have hp := hc.delimFree p (by simp [ResponseCall.delimited])
  have he := hc.delimFree e (by simp [ResponseCall.delimited])
  have hul : u.bytes.length = u.strlen := rfl
  have hpl : p.bytes.length = p.strlen := rfl
  have hel : e.bytes.length = e.strlen := rfl
  simp only [ResponseCall.written, responseBodyLen, bufsiz, responseHeaderLen] at hfit
  have hlen : (ResponseCall.userGetInfo s u p e).header.bodyLen.toNat =
      u.strlen + p.strlen + e.strlen + 2 := by
    simp only [ResponseCall.header, ResponseCall.written, UInt32.toNat_ofNat']
    omega
  have hload : m.load responseHeaderLen (u.strlen + p.strlen + e.strlen + 2) =
      .ok (u.bytes ++ bodyDelimiter :: (p.bytes ++ bodyDelimiter :: e.bytes)) [] := by
    have hlaid : ResponseLaid (ResponseCall.userGetInfo s u p e).header m
        ((u.bytes ++ bodyDelimiter :: (p.bytes ++ bodyDelimiter :: e.bytes)) ++ []) := by
      simpa [ResponseCall.layout, List.append_assoc] using hm
    have hsize : (u.bytes ++ bodyDelimiter :: (p.bytes ++ bodyDelimiter :: e.bytes)).length =
        u.strlen + p.strlen + e.strlen + 2 := by
      simp [hul, hpl, hel]; omega
    rw [← hsize]
    exact hlaid.load (by rw [hsize]; simp only [responseHeaderLen, bufsiz]; omega)
  -- each cut turns one more delimiter into a terminator
  have huname := fieldTokenizer_hit none [] u (p.bytes ++ bodyDelimiter :: (e.bytes ++ [0])) hu
    (by simp) 0
  have hphone := fieldTokenizer_hit none (u.bytes ++ [0]) p (e.bytes ++ [0]) hp (by simp)
    (u.strlen + 1)
  have hemail := fieldTokenizer_miss none (u.bytes ++ [0] ++ p.bytes ++ [0]) e [] he
    (u.strlen + 1 + p.strlen + 1)
  have hustr := strAt_append [] u (p.bytes ++ 0 :: (e.bytes ++ [0]))
  have hpstr := strAt_append (u.bytes ++ [0]) p (e.bytes ++ [0])
  have hestr := strAt_append (u.bytes ++ [0] ++ p.bytes ++ [0]) e []
  have hl₁ : (u.bytes ++ [0]).length = u.strlen + 1 := by simp [hul]
  have hl₂ : (u.bytes ++ [0] ++ p.bytes ++ [0]).length = u.strlen + 1 + p.strlen + 1 := by
    simp [hul, hpl]; omega
  rw [hl₁] at hphone hpstr
  rw [hl₂] at hemail hestr
  simp only [List.append_assoc, List.cons_append, List.nil_append, List.length_nil, Nat.zero_add]
    at huname hphone hemail hustr hpstr hestr
  have haction : (ResponseCall.userGetInfo s u p e).header.action = 1 := rfl
  simp only [responseParseUser, haction, if_pos, hlen, hload, Access.after_ok, Access.ok_bind,
    List.append_assoc, List.cons_append, huname, hphone, hemail, hustr, hpstr, hestr,
    Access.pure_eq, List.append_nil]

/-- The packed message. -/
theorem responseParseMsgDetail_laid {m : Frame} {s : UInt32} (msg : MsgDetail)
    (hfit : 30 + msg.msgContent.strlen ≤ responseBodyLen)
    (hm : ResponseLaid (ResponseCall.msgGetDetail s msg).header m
      (ResponseCall.msgGetDetail s msg).layout) :
    responseParseMsgDetail (ResponseCall.msgGetDetail s msg).header m =
      .ok (ResponseCall.msgGetDetail s msg).body [msg.msgContent.strlen] := by
  simp only [responseBodyLen, bufsiz, responseHeaderLen] at hfit
  -- the text is as long as the body without its thirty fixed bytes
  have hlen : ((ResponseCall.msgGetDetail s msg).header.bodyLen - 30).toNat =
      msg.msgContent.strlen := by
    simp only [ResponseCall.header, ResponseCall.written]
    rw [UInt32.toNat_sub_of_le _ _ (by rw [UInt32.le_iff_toNat_le]; simp; omega)]
    simp
    omega
  simp only [ResponseCall.layout, MsgDetail.packed] at hm
  -- each field is read behind the ones before it
  have h₁ : m.loadWord responseHeaderLen = .ok msg.msgId [] :=
    Laid.loadWord [] _ (by simpa [List.append_assoc] using hm) _ (by simp) (by simp)
  have h₂ : m.loadWord (responseHeaderLen + 4) = .ok msg.fromUid [] :=
    Laid.loadWord (beBytes msg.msgId) _ (by simpa [List.append_assoc] using hm) _ (by simp)
      (by simp)
  have h₃ : m.loadWord (responseHeaderLen + 8) = .ok msg.replyTo [] :=
    Laid.loadWord (beBytes msg.msgId ++ beBytes msg.fromUid) _
      (by simpa [List.append_assoc] using hm) _ (by simp) (by simp)
  have h₄ : m.loadWord (responseHeaderLen + 12) = .ok msg.convId [] :=
    Laid.loadWord (beBytes msg.msgId ++ beBytes msg.fromUid ++ beBytes msg.replyTo) _
      (by simpa [List.append_assoc] using hm) _ (by simp) (by simp)
  have h₅ : m.loadWord (responseHeaderLen + 16) = .ok msg.chatId [] :=
    Laid.loadWord (beBytes msg.msgId ++ beBytes msg.fromUid ++ beBytes msg.replyTo ++
      beBytes msg.convId) _ (by simpa [List.append_assoc] using hm) _ (by simp) (by simp)
  have h₆ : m.loadWord (responseHeaderLen + 20) = .ok msg.createdAt [] :=
    Laid.loadWord (beBytes msg.msgId ++ beBytes msg.fromUid ++ beBytes msg.replyTo ++
      beBytes msg.convId ++ beBytes msg.chatId) _ (by simpa [List.append_assoc] using hm) _
      (by simp) (by simp)
  have h₇ : m.loadByte (responseHeaderLen + 24) = .ok msg.msgType [] :=
    Laid.loadByte (beBytes msg.msgId ++ beBytes msg.fromUid ++ beBytes msg.replyTo ++
      beBytes msg.convId ++ beBytes msg.chatId ++ beBytes msg.createdAt) _
      (by simpa [List.append_assoc] using hm) _ (by simp) (by simp)
  have h₈ : m.loadByte (responseHeaderLen + 25) = .ok msg.contentType [] :=
    Laid.loadByte (beBytes msg.msgId ++ beBytes msg.fromUid ++ beBytes msg.replyTo ++
      beBytes msg.convId ++ beBytes msg.chatId ++ beBytes msg.createdAt ++ [msg.msgType]) _
      (by simpa [List.append_assoc] using hm) _ (by simp) (by simp)
  have h₉ : m.loadWord (responseHeaderLen + 26) = .ok msg.contentLength [] :=
    Laid.loadWord (beBytes msg.msgId ++ beBytes msg.fromUid ++ beBytes msg.replyTo ++
      beBytes msg.convId ++ beBytes msg.chatId ++ beBytes msg.createdAt ++ [msg.msgType] ++
      [msg.contentType]) _ (by simpa [List.append_assoc] using hm) _ (by simp) (by simp)
  have h₁₀ : copyString m (responseHeaderLen + 30) msg.msgContent.strlen =
      .ok msg.msgContent [msg.msgContent.strlen] :=
    Laid.copyString msg.packed (by simpa [MsgDetail.packed] using hm) _
      (by simp [MsgDetail.packed]) (by simp [MsgDetail.packed]; omega)
  simp only [responseParseMsgDetail, h₁, h₂, h₃, h₄, h₅, h₆, h₇, h₈, h₉, hlen, h₁₀,
    Access.ok_bind, Access.after_ok, Access.pure_eq, List.append_nil, List.nil_append,
    ResponseCall.body]

/-- The ids of a list response. -/
theorem ResponseLaid.idList {h : ResponseHeader} {m : Frame} {ls : List UInt32}
    (hm : ResponseLaid h m (beWords ls)) (hfit : 4 * ls.length ≤ responseBodyLen)
    (hcount : h.count = UInt32.ofNat ls.length) :
    m.loadWords responseHeaderLen h.count.toNat = .ok ls [] := by
  simp only [responseBodyLen, bufsiz, responseHeaderLen] at hfit
  have hlen : h.count.toNat = ls.length := by
    rw [hcount, UInt32.toNat_ofNat']
    omega
  rw [hlen]
  exact Laid.loadWords [] ls hm _ (by simp)
    (by simp only [List.length_nil, responseHeaderLen, bufsiz]; omega)

theorem ResponseLaid.oneWord {h : ResponseHeader} {m : Frame} {w : UInt32}
    (hm : ResponseLaid h m (beBytes w)) : m.loadWord responseHeaderLen = .ok w [] :=
  Laid.loadWord [] [] (by simpa using hm) _ (by simp) (by simp)

theorem ResponseLaid.auth {h : ResponseHeader} {m : Frame} {t : Token} {w : UInt32}
    (hm : ResponseLaid h m (t.bytes ++ beBytes w)) :
    responseParseAuth m = .ok (some (.auth ⟨t.bytes, w⟩)) [] := by
  have hlen : t.bytes.length = 16 := t.len
  have htoken : m.load responseHeaderLen tokenLen = .ok t.bytes [] := by
    rw [tokenLen, ← hlen]
    exact hm.load (by simp [hlen])
  have huser : m.loadWord (responseHeaderLen + tokenLen) = .ok w [] :=
    Laid.loadWord t.bytes [] (by simpa using hm) _ (by simp [hlen]) (by simp [hlen])
  simp only [responseParseAuth, htoken, huser, Access.ok_bind, Access.after_nil, Access.pure_eq]

theorem responseParseConv_info {m : Frame} {s a : UInt32} {g : CStr}
    (hfit : 4 + g.strlen ≤ responseBodyLen)
    (hm : ResponseLaid (ResponseCall.convGetInfo s a g).header m
      (ResponseCall.convGetInfo s a g).layout) :
    responseParseConv (ResponseCall.convGetInfo s a g).header m =
      .ok (ResponseCall.convGetInfo s a g).body [g.strlen] := by
  simp only [responseBodyLen, bufsiz, responseHeaderLen] at hfit
  have hlen : ((ResponseCall.convGetInfo s a g).header.bodyLen - 4).toNat = g.strlen := by
    simp only [ResponseCall.header, ResponseCall.written]
    rw [UInt32.toNat_sub_of_le _ _ (by rw [UInt32.le_iff_toNat_le]; simp; omega)]
    simp
    omega
  have hadmin : m.loadWord responseHeaderLen = .ok a [] :=
    Laid.loadWord [] g.bytes hm _ (by simp) (by simp)
  have hname : copyString m (responseHeaderLen + 4) g.strlen = .ok g [g.strlen] :=
    Laid.copyString (beBytes a) hm _ (by simp) (by simp; omega)
  have h0 : ¬ ((ResponseCall.convGetInfo s a g).header.action = 0) := by
    show ¬ ((4 : Int8) = 0)
    decide
  have h4 : (ResponseCall.convGetInfo s a g).header.action = 4 := rfl
  simp only [responseParseConv, if_neg h0, if_pos h4, hadmin, hlen, hname, Access.ok_bind,
    Access.after_ok, Access.pure_eq, List.append_nil, List.nil_append, ResponseCall.body]

theorem responseParseMsg_download {m : Frame} {s z : UInt32} {f : CStr}
    (hfit : f.strlen ≤ responseBodyLen)
    (hm : ResponseLaid (ResponseCall.msgDownloadFile s z f).header m
      (ResponseCall.msgDownloadFile s z f).layout) :
    responseParseMsg (ResponseCall.msgDownloadFile s z f).header m =
      .ok (ResponseCall.msgDownloadFile s z f).body [f.strlen] := by
  simp only [responseBodyLen, bufsiz, responseHeaderLen] at hfit
  have hsize : (UInt32.ofNat f.strlen).toNat = f.strlen := by
    rw [UInt32.toNat_ofNat']; omega
  have hlen : (ResponseCall.msgDownloadFile s z f).header.bodyLen.toNat = f.strlen := by
    simp only [ResponseCall.header, ResponseCall.written, hsize]
  have hwhole : f.bytes.take f.strlen = f.bytes := List.take_length
  simp only [ResponseCall.layout, hsize, hwhole] at hm
  have hname : copyString m responseHeaderLen f.strlen = .ok f [f.strlen] :=
    Laid.copyString [] hm _ (by simp) (by simp; omega)
  have haction : (ResponseCall.msgDownloadFile s z f).header.action = 6 := rfl
  simp [responseParseMsg, haction, hlen, hname, ResponseCall.body]

section IdLists

variable {h : ResponseHeader} {m : Frame} {ls : List UInt32}

/-! Three parsers and the four list actions among the messages share one layout. -/

theorem responseParseUser_list (ha : h.action = 2)
    (hls : m.loadWords responseHeaderLen h.count.toNat = .ok ls []) :
    responseParseUser h m = .ok (some (.user { idls := some ls })) [] := by
  simp [responseParseUser, ha, hls]

theorem responseParseConv_list (ha : h.action = 5 ∨ h.action = 6)
    (hls : m.loadWords responseHeaderLen h.count.toNat = .ok ls []) :
    responseParseConv h m = .ok (some (.conv { idls := some ls })) [] := by
  rcases ha with ha | ha <;> simp [responseParseConv, ha, hls]

theorem responseParseChat_list (ha : h.action = 2)
    (hls : m.loadWords responseHeaderLen h.count.toNat = .ok ls []) :
    responseParseChat h m = .ok (some (.chat { idls := some ls })) [] := by
  simp [responseParseChat, ha, hls]

theorem responseParseMsg_list (ha : h.action = 0 ∨ h.action = 4 ∨ h.action = 5)
    (hls : m.loadWords responseHeaderLen h.count.toNat = .ok ls []) :
    responseParseMsg h m = .ok (some (.msg { idls := some ls })) [] := by
  simp [responseParseMsg, ha, hls]

end IdLists

/-- The parser reads the body of every well-formed call back. -/
theorem ResponseCall.parseBody_laid (c : ResponseCall) (hc : c.WellFormed) {b : ResponseBody}
    (hb : c.body = some b) {m : Frame} (hm : ResponseLaid c.header m c.layout) :
    ∃ copies, responseParseBody c.header m = .ok (some b) copies := by
  have hfits := hc.fits
  rw [← hb]
  cases c with
  | authRegister s t u => exact ⟨[], ResponseLaid.auth hm⟩
  | authLogin s t u => exact ⟨[], ResponseLaid.auth hm⟩
  | userGetInfo s u p e => exact ⟨_, responseParseUser_info u p e hc hm⟩
  | convGetInfo s a g => exact ⟨_, responseParseConv_info hfits hm⟩
  | msgGetDetail s msg => exact ⟨_, responseParseMsgDetail_laid msg hfits hm⟩
  | msgDownloadFile s z f =>
    exact ⟨_, responseParseMsg_download (hc.short f (by simp [strings])) hm⟩
  | chatGetInfo s a b' =>
    have hfst : m.loadWord responseHeaderLen = .ok a [] :=
      Laid.loadWord [] (beBytes b') hm _ (by simp) (by simp)
    have hsnd : m.loadWord (responseHeaderLen + 4) = .ok b' [] :=
      Laid.loadWord (beBytes a) [] (by simpa [layout] using hm) _ (by simp) (by simp)
    exact ⟨[], by simp [responseParseBody, responseParseChat, header, kind, body, hfst, hsnd]⟩
  | convCreate s w =>
    have hword := ResponseLaid.oneWord hm
    exact ⟨[], by simp [responseParseBody, responseParseConv, header, kind, body, hword]⟩
  | chatCreate s w =>
    have hword := ResponseLaid.oneWord hm
    exact ⟨[], by simp [responseParseBody, responseParseChat, header, kind, body, hword]⟩
  | msgSend s w =>
    have hword := ResponseLaid.oneWord hm
    exact ⟨[], by simp [responseParseBody, responseParseMsg, header, kind, body, hword]⟩
  | userSearch s ls =>
    exact ⟨[], responseParseUser_list rfl (ResponseLaid.idList hm hfits rfl)⟩
  | convGetMembers s ls =>
    exact ⟨[], responseParseConv_list (Or.inl rfl) (ResponseLaid.idList hm hfits rfl)⟩
  | convGetList s ls =>
    exact ⟨[], responseParseConv_list (Or.inr rfl) (ResponseLaid.idList hm hfits rfl)⟩
  | chatGetList s ls =>
    exact ⟨[], responseParseChat_list rfl (ResponseLaid.idList hm hfits rfl)⟩
  | msgGetAll s ls =>
    exact ⟨[], responseParseMsg_list (Or.inl rfl) (ResponseLaid.idList hm hfits rfl)⟩
  | msgNotifyNew s ls =>
    exact ⟨[], responseParseMsg_list (Or.inr (Or.inl rfl)) (ResponseLaid.idList hm hfits rfl)⟩
  | msgNotifyDel s ls =>
    exact ⟨[], responseParseMsg_list (Or.inr (Or.inr rfl)) (ResponseLaid.idList hm hfits rfl)⟩
  -- these have no body for the parser
  | err _ _ _ => cases hb
  | userLogout _ => cases hb
  | convDrop _ => cases hb
  | convJoin _ => cases hb
  | convQuit _ => cases hb
  | chatDelete _ => cases hb
  | msgDelete _ => cases hb

/-- **Round trip of the response format.** For every builder that sends a body
    and all arguments that fit it, the builder succeeds over any old frame and
    the client reads back the header and the body fields that were encoded. -/
theorem response_roundTrip (c : ResponseCall) (b : ResponseBody) (prior : Frame)
    (hb : c.body = some b) (hc : c.WellFormed) :
    ∃ frame copies, c.make prior = .ok frame [] ∧
      responseParse frame = .ok (some ⟨c.header, b⟩) copies := by
  obtain ⟨m, hmake, hlaid⟩ := c.make_laid hc.fits prior
  obtain ⟨copies, hbody⟩ := c.parseBody_laid hc hb hlaid
  refine ⟨m, copies, hmake, ?_⟩
  simp [responseParse_of_headerAt hlaid.header, hbody]

/-- The user of the test suite. -/
theorem response_roundTrip_user :
    ∃ frame copies,
      (ResponseCall.userGetInfo 200 (.ofBytes (ascii "user123")) (.ofBytes (ascii "0123456789"))
        (.ofBytes (ascii "myemail@mail.com"))).make (fun _ => 0xFF) = .ok frame [] ∧
      responseParse frame = .ok (some ⟨(ResponseCall.userGetInfo 200 (.ofBytes (ascii "user123"))
        (.ofBytes (ascii "0123456789")) (.ofBytes (ascii "myemail@mail.com"))).header,
        .user { uname := some (.ofBytes (ascii "user123")),
                phone := some (.ofBytes (ascii "0123456789")),
                email := some (.ofBytes (ascii "myemail@mail.com")) }⟩) copies :=
  response_roundTrip _ _ (fun _ => 0xFF) rfl ⟨by decide, by decide, by decide⟩

end MeshChat
