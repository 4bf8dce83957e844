import MeshChat.Client.Groups
import MeshChat.Wire.Decodable
import MeshChat.Wire.Segments

/-! # The client library (`service.c`, `auth.c`)

    A function of the library builds one request, with the user id and the token that
    `auth.c` keeps, and stores part of the response for its caller.

    * `Auth`: what `auth.c` keeps.
    * `Call`: a call of one of the functions, with its arguments; `Call.request`,
      `Call.finish`: what it does before `api_call` and behind it.
    * `Call.received`: what becomes of it, by what its calls of `recv` return.
    * `Call.outcome`: what becomes of it when a frame of the server is read in one piece.
    * `Call.output`: what is stored for an answer to the request.
    * `Call.outcome_stored`: behind an answer nothing else is ever stored.
    * `Call.outcome_done`: and what can be stored is.
-/

namespace MeshChat

open CMemory SqlLex Prog

/-- A frame that was made is read as what it was made of, if it has a body. -/
theorem ResponseCall.parse_of_make {r : ResponseCall} {b : ResponseBody} (hbody : r.body = some b)
    (hshort : ∀ s ∈ r.strings, s.strlen ≤ responseBodyLen)
    (hfree : ∀ s ∈ r.delimited, bodyDelimiter ∉ s.bytes) {prior frame : Frame} {l : List Nat}
    (hmake : r.make prior = .ok frame l) :
    ∃ copies, responseParse frame = .ok (some ⟨r.header, b⟩) copies := by
  have hfits := ResponseCall.written_le_of_make hmake
  obtain ⟨m, hmake', hlaid⟩ := r.make_laid hfits prior
  obtain ⟨rfl, -⟩ := Access.ok.inj (hmake.symm.trans hmake')
  obtain ⟨copies, hparse⟩ := r.parseBody_laid ⟨hfits, hshort, hfree⟩ hbody hlaid
  exact ⟨copies, by simp [responseParse_of_headerAt hlaid.header, hparse]⟩

/-- A request that was made is parsed to what it was made of. -/
theorem RequestCall.parse_of_make {q : RequestCall} (hq : q.WellFormed) {prior frame : Frame}
    {l : List Nat} (hmake : q.make prior = .ok frame l) :
    ∃ copies, requestParse frame = .ok (some ⟨q.header, q.body⟩) copies := by
  obtain ⟨m, hmake', hlaid⟩ := q.make_laid hq prior
  obtain ⟨rfl, -⟩ := Access.ok.inj (hmake.symm.trans hmake')
  obtain ⟨copies, hparse⟩ := q.parseBody_laid hq hlaid
  exact ⟨copies, by simp [requestParse, requestParseHeader_of_headerAt hlaid.header, hparse]⟩

namespace Service

/-! ## `auth.c` -/

/-- The static variables. -/
structure Auth where
  uid : UInt32 := 0
  token : Token := ⟨List.replicate 16 0, by decide⟩
  isAuth : Bool := false
  deriving DecidableEq

/-- `memcpy(__token, token, TOKEN_LEN)`. -/
def tokenOf (l : List UInt8) : Token := ⟨(l ++ zeros tokenLen).take tokenLen, by simp⟩

/-- `__set_auth`. -/
def setAuth (auth : ResponseAuth) : Auth where
  uid := auth.userId
  token := tokenOf auth.token
  isAuth := true

/-- `__clear_auth`. -/
def clearAuth : Auth := {}

/-- `get_auth`. -/
def getAuth (a : Auth) : Option (Token × UInt32) := if a.isAuth then some (a.token, a.uid) else none

theorem tokenOf_bytes (t : Token) : tokenOf t.bytes = t := by
  obtain ⟨l, hl⟩ := t
  simp only [tokenOf, Token.mk.injEq]
  exact List.take_left' hl

/-! ## Behind `api_call` -/

section Finish

variable {α : Type}

/-- The case of one status stores what it picks out of the body. What the body does not have is
    another member of the union, or `NULL`. -/
def storing (status : UInt32) (reply : ApiReply) (pick : ResponseBody → Option α) :
    Access (Int × Option α) :=
  handleResStt reply.timedOut reply.res fun res =>
    if res.header.statusCode = status then
      match pick res.body with
      | some x => pure (some x)
      | none => .fault []
    else pure none

/-- No case stores anything. -/
def storingNothing (reply : ApiReply) : Access (Int × Option Unit) :=
  handleResStt reply.timedOut reply.res fun _ => pure none

/-- `calloc(1, strlen(s))` and `strcpy`: the terminator is not counted. -/
def callocStrcpy (s : CStr) : Access CStr :=
  let size := s.strlen
  if s.strlen + 1 ≤ size then .ok s [s.strlen + 1] else .fault [s.strlen + 1]

/-- The member `r_auth` of the body. -/
def rAuth : ResponseBody → Option ResponseAuth
  | .auth r => some r
  | _ => none

/-- The member `r_user`. -/
def rUser : ResponseBody → Option ResponseUser
  | .user r => some r
  | _ => none

/-- The member `r_conv`. -/
def rConv : ResponseBody → Option ResponseConv
  | .conv r => some r
  | _ => none

/-- The member `r_chat`. -/
def rChat : ResponseBody → Option ResponseChat
  | .chat r => some r
  | _ => none

/-- The member `r_msg`. -/
def rMsg : ResponseBody → Option ResponseMsg
  | .msg r => some r
  | _ => none

end Finish

/-- `_register`; the response goes to `__set_auth`. -/
def register (reply : ApiReply) : Access (Int × Option ResponseAuth) := storing 201 reply rAuth

/-- `_login`; so does this one. -/
def login (reply : ApiReply) : Access (Int × Option ResponseAuth) := storing 200 reply rAuth

/-- `_logout`; what is stored stands for `__clear_auth`. -/
def logout (reply : ApiReply) : Access (Int × Option Unit) := storing 200 reply fun _ => some ()

/-- `_get_user_info`. -/
def getUserInfo (reply : ApiReply) : Access (Int × Option (CStr × CStr × CStr)) :=
  handleResStt reply.timedOut reply.res fun res =>
    if res.header.statusCode = 200 then
      match rUser res.body with
      | some ⟨_, some uname, some phone, some email⟩ => do
        let email ← callocStrcpy email
        let phone ← callocStrcpy phone
        let uname ← callocStrcpy uname
        pure (some (uname, phone, email))
      | _ => .fault []
    else pure none

/-- `_get_user_search`. -/
def getUserSearch (reply : ApiReply) : Access (Int × Option (List UInt32)) :=
  storing 200 reply fun body => (rUser body).bind (·.idls)

/-- `_drop_conv`. -/
def dropConv (reply : ApiReply) : Access (Int × Option Unit) := storingNothing reply

/-- `_quit_conv`. -/
def quitConv (reply : ApiReply) : Access (Int × Option Unit) := storingNothing reply

/-- `_get_conv_info`. -/
def getConvInfo (reply : ApiReply) : Access (Int × Option (UInt32 × CStr)) :=
  storing 200 reply fun body => (rConv body).bind fun r => r.gname.map (r.adminId, ·)

/-- `_get_conv_members` and `_get_conv_list`. -/
def getConvIds (reply : ApiReply) : Access (Int × Option (List UInt32)) :=
  storing 200 reply fun body => (rConv body).bind (·.idls)

/-- `_create_chat`. -/
def createChat (reply : ApiReply) : Access (Int × Option UInt32) :=
  storing 201 reply fun body => (rChat body).map (·.chatId)

/-- `_delete_chat`. -/
def deleteChat (reply : ApiReply) : Access (Int × Option Unit) := storingNothing reply

/-- `_get_chat_list`. -/
def getChatList (reply : ApiReply) : Access (Int × Option (List UInt32)) :=
  storing 200 reply fun body => (rChat body).bind (·.idls)

/-- `_get_chat_info`. -/
def getChatInfo (reply : ApiReply) : Access (Int × Option (UInt32 × UInt32)) :=
  storing 200 reply fun body => (rChat body).map fun r => (r.memberId1, r.memberId2)

/-- `_get_msg_all`, `_notify_new_msg` and `_notify_del_msg`. -/
def getMsgIds (reply : ApiReply) : Access (Int × Option (List UInt32)) :=
  storing 200 reply fun body => (rMsg body).bind (·.idls)

/-- `_delete_msg`. -/
def deleteMsg (reply : ApiReply) : Access (Int × Option Unit) := storingNothing reply

/-! ## The functions -/

/-- A call of a function that makes one request, with its arguments. -/
inductive Call where
  | register (uname password phone email : CStr)
  | login (username password : CStr)
  | logout
  | getUserInfo (user2Id : UInt32)
  | getUserSearch (uname : CStr) (offset limit : Int32)
  | createConv (gname : CStr)
  | dropConv (convId : UInt32)
  | joinConv (convId user2Id : UInt32)
  | quitConv (convId user2Id : UInt32)
  | getConvInfo (convId : UInt32)
  | getConvMembers (convId : UInt32)
  | getConvList (limit offset : Int32)
  | createChat (user2Id : UInt32)
  | deleteChat (chatId : UInt32)
  | getChatList (limit offset : Int32)
  | getChatInfo (chatId : UInt32)
  | getMsgAll (limit offset : Int32) (convId chatId : UInt32)
  /-- `given` says that the caller has a buffer for the text. -/
  | getMsgDetail (msgId : UInt32) (given : Bool)
  | getMsgDetailRaw (msgId : UInt32)
  | sendMsgText (convId chatId replyTo : UInt32) (msg : CStr)
  | deleteMsg (msgId : UInt32)
  | notifyNewMsg
  | notifyDelMsg (convId chatId : UInt32)
  deriving DecidableEq

/-- What a call stores. -/
inductive Output where
  | auth (r : ResponseAuth)
  | cleared
  | user (uname phone email : CStr)
  | ids (ls : List UInt32)
  | id (n : UInt32)
  | group (adminId : UInt32) (gname : CStr)
  | members (memberId1 memberId2 : UInt32)
  | detail (d : DetailCopy)
  | raw (d : RawDetail)
  deriving DecidableEq

namespace Call

/-- The request that is built. -/
def request (a : Auth) : Call → RequestCall
  | register uname password phone email => .authRegister uname password phone email
  | login username password => .authLogin username password
  | logout => .userLogout a.token a.uid
  | getUserInfo user2Id => .userGetInfo a.token a.uid user2Id
  | getUserSearch uname offset limit => .userSearch a.token a.uid uname limit offset
  | createConv gname => .convCreate a.token a.uid gname
  | dropConv convId => .convDrop a.token a.uid convId
  | joinConv convId user2Id => .convJoin a.token a.uid convId user2Id
  | quitConv convId user2Id => .convQuit a.token a.uid convId user2Id
  | getConvInfo convId => .convGetInfo a.token a.uid convId
  | getConvMembers convId => .convGetMembers a.token a.uid convId
  | getConvList limit offset => .convGetList a.token a.uid limit offset
  | createChat user2Id => .chatCreate a.token a.uid user2Id
  | deleteChat chatId => .chatDelete a.token a.uid chatId
  | getChatList limit offset => .chatGetList a.token a.uid limit offset
  | getChatInfo chatId => .chatGetInfo a.token a.uid chatId
  | getMsgAll limit offset convId chatId => .msgGetAll a.token a.uid limit offset convId chatId
  | getMsgDetail msgId _ | getMsgDetailRaw msgId => .msgGetDetail a.token a.uid msgId
  | sendMsgText convId chatId replyTo msg => .msgSendText a.token a.uid convId chatId replyTo msg
  | deleteMsg msgId => .msgDelete a.token a.uid msgId
  | notifyNewMsg => .msgNotifyNew a.token a.uid
  | notifyDelMsg convId chatId => .msgNotifyDel a.token a.uid convId chatId

/-- The status that is returned with what is stored, under its name. -/
def named {α : Type} (f : α → Output) (x : Access (Int × Option α)) :
    Access (Int × Option Output) := do
  let (stt, stored) ← x
  pure (stt, stored.map f)

/-- The status alone. -/
def silent (x : Access (Int × Option Unit)) : Access (Int × Option Output) := do
  let (stt, _) ← x
  pure (stt, none)

/-- What is done with the response. -/
def finish (reply : ApiReply) : Call → Access (Int × Option Output)
  | register .. => named .auth (Service.register reply)
  | login .. => named .auth (Service.login reply)
  | logout => named (fun _ => .cleared) (Service.logout reply)
  | getUserInfo _ => named (fun (u, p, e) => .user u p e) (Service.getUserInfo reply)
  | getUserSearch .. => named .ids (Service.getUserSearch reply)
  | createConv _ => named .id (MeshChat.createConv reply)
  | dropConv _ => silent (Service.dropConv reply)
  | joinConv .. => silent (MeshChat.joinConv reply)
  | quitConv .. => silent (Service.quitConv reply)
  | getConvInfo _ => named (fun (a, g) => .group a g) (Service.getConvInfo reply)
  | getConvMembers _ | getConvList .. => named .ids (Service.getConvIds reply)
  | createChat _ => named .id (Service.createChat reply)
  | deleteChat _ => silent (Service.deleteChat reply)
  | getChatList .. => named .ids (Service.getChatList reply)
  | getChatInfo _ => named (fun (a, b) => .members a b) (Service.getChatInfo reply)
  | getMsgAll .. | notifyNewMsg | notifyDelMsg .. => named .ids (Service.getMsgIds reply)
  | getMsgDetail _ given => named .detail (MeshChat.getMsgDetail reply.timedOut given reply.res)
  | getMsgDetailRaw _ => named .raw (MeshChat.getMsgDetailRaw reply.timedOut reply.res)
  | sendMsgText .. => named .id (MeshChat.sendMsgText reply.timedOut reply.res)
  | deleteMsg _ => silent (Service.deleteMsg reply)

/-- What becomes of the call when the loop of `api_call` reads these pieces of what is on its way:
    it gets what the loop leaves in the buffer. -/
def received (results : List Recv) (unread : List UInt8) (timedOut : Bool) (f : Call) :
    Access (Int × Option Output) := do
  let res ← apiCall results unread
  f.finish ⟨res, timedOut⟩

/-- What becomes of it when the next frame of the server arrives in one piece: `prior` is what was
    in the buffer the frame was made in, `behind` is what comes behind it. -/
def outcome (r : ResponseCall) (prior : Frame) (behind : List UInt8) (timedOut : Bool) (f : Call) :
    Access (Int × Option Output) := do
  let frame ← r.make prior
  f.received [.bytes bufsiz] (frameBytes frame ++ behind) timedOut

/-! ## Answers -/

/-- What is copied of a message. -/
def copied (m : MsgDetail) : List UInt8 :=
  (m.msgContent.bytes ++ [0]).take m.contentLength.toNat

/-- The frame with which the request of the call is answered when it was done. -/
inductive Succeeds : Call → ResponseCall → Prop
  | register {u p ph e : CStr} {t : Token} {n : UInt32} :
    Succeeds (.register u p ph e) (.authRegister 201 t n)
  | login {u p : CStr} {t : Token} {n : UInt32} : Succeeds (.login u p) (.authLogin 200 t n)
  | logout : Succeeds .logout (.userLogout 200)
  | getUserInfo {n : UInt32} {u p e : CStr} : Succeeds (.getUserInfo n) (.userGetInfo 200 u p e)
  | getUserSearch {u : CStr} {offset limit : Int32} {ls : List UInt32} :
    Succeeds (.getUserSearch u offset limit) (.userSearch 200 ls)
  | createConv {g : CStr} {n : UInt32} : Succeeds (.createConv g) (.convCreate 201 n)
  | dropConv {k : UInt32} : Succeeds (.dropConv k) (.convDrop 200)
  | joinConv {k u : UInt32} : Succeeds (.joinConv k u) (.convJoin 200)
  | quitConv {k u : UInt32} : Succeeds (.quitConv k u) (.convQuit 200)
  | getConvInfo {k a : UInt32} {g : CStr} : Succeeds (.getConvInfo k) (.convGetInfo 200 a g)
  | getConvMembers {k : UInt32} {ls : List UInt32} :
    Succeeds (.getConvMembers k) (.convGetMembers 200 ls)
  | getConvList {limit offset : Int32} {ls : List UInt32} :
    Succeeds (.getConvList limit offset) (.convGetList 200 ls)
  | createChat {u n : UInt32} : Succeeds (.createChat u) (.chatCreate 201 n)
  | deleteChat {k : UInt32} : Succeeds (.deleteChat k) (.chatDelete 200)
  | getChatList {limit offset : Int32} {ls : List UInt32} :
    Succeeds (.getChatList limit offset) (.chatGetList 200 ls)
  | getChatInfo {k a b : UInt32} : Succeeds (.getChatInfo k) (.chatGetInfo 200 a b)
  | getMsgAll {limit offset : Int32} {k k' : UInt32} {ls : List UInt32} :
    Succeeds (.getMsgAll limit offset k k') (.msgGetAll 200 ls)
  | getMsgDetail {n : UInt32} {given : Bool} {m : MsgDetail} :
    Succeeds (.getMsgDetail n given) (.msgGetDetail 200 m)
  | getMsgDetailRaw {n : UInt32} {m : MsgDetail} :
    Succeeds (.getMsgDetailRaw n) (.msgGetDetail 200 m)
  | sendMsgText {k k' reply n : UInt32} {msg : CStr} :
    Succeeds (.sendMsgText k k' reply msg) (.msgSend 201 n)
  | deleteMsg {n : UInt32} : Succeeds (.deleteMsg n) (.msgDelete 200)
  | notifyNewMsg {ls : List UInt32} : Succeeds .notifyNewMsg (.msgNotifyNew 200 ls)
  | notifyDelMsg {k k' : UInt32} {ls : List UInt32} :
    Succeeds (.notifyDelMsg k k') (.msgNotifyDel 200 ls)

/-- What is stored for it. -/
def output : Call → ResponseCall → Option Output
  | register .., .authRegister _ t u | login .., .authLogin _ t u => some (.auth ⟨t.bytes, u⟩)
  | getUserSearch .., .userSearch _ ls | getConvMembers _, .convGetMembers _ ls
  | getConvList .., .convGetList _ ls | getChatList .., .chatGetList _ ls
  | getMsgAll .., .msgGetAll _ ls | notifyNewMsg, .msgNotifyNew _ ls
  | notifyDelMsg .., .msgNotifyDel _ ls => some (.ids ls)
  | createConv _, .convCreate _ n | createChat _, .chatCreate _ n
  | sendMsgText .., .msgSend _ n => some (.id n)
  | getConvInfo _, .convGetInfo _ adminId gname => some (.group adminId gname)
  | getChatInfo _, .chatGetInfo _ a b => some (.members a b)
  | getMsgDetail .., .msgGetDetail _ m =>
    some (.detail { msgId := m.msgId, chatId := m.chatId, convId := m.convId,
                    replyTo := m.replyTo, fromUid := m.fromUid, createdAt := m.createdAt,
                    msgType := m.msgType, contentType := m.contentType,
                    contentLength := m.contentLength, msgContent := copied m })
  | getMsgDetailRaw _, .msgGetDetail _ m =>
    some (.raw { chatId := m.chatId, convId := m.convId, replyTo := m.replyTo,
                 fromUid := m.fromUid, createdAt := m.createdAt,
                 contentType := m.contentType.toUInt32, contentLength := m.contentLength,
                 msgContent := copied m })
  | _, _ => none

/-- An answer to the request of the call: it was done, or there is an error. -/
def Answers (f : Call) (r : ResponseCall) : Prop :=
  f.Succeeds r ∨ ∃ status group action, r = .err status group action ∧ status ≠ 200 ∧ status ≠ 201

end Call

/-- `auth.c` behind a call. -/
def Auth.after (a : Auth) : Access (Int × Option Output) → Auth
  | .ok (_, some (.auth r)) _ => setAuth r
  | .ok (_, some .cleared) _ => clearAuth
  | _ => a

/-! ## What is stored -/

section Stored

variable {α : Type} {reply : ApiReply} {stt : Int} {l : List Nat}

/-- What the case of one status stores. -/
theorem handleResStt_some {timedOut : Bool} {res : Option Response} {status : UInt32}
    {k : Response → Access (Option α)} {x : α}
    (h : handleResStt timedOut res (fun r =>
      if r.header.statusCode = status then k r else pure none) = .ok (stt, some x) l) :
    ∃ r l', res = some r ∧ r.header.statusCode = status ∧ k r = .ok (some x) l' ∧
      stt = status.toInt32.toInt := by
  cases res with
  | none => cases h
  | some r =>
    obtain ⟨stored, hk, heq⟩ := Access.bind_pure_eq_ok h
    obtain ⟨rfl, rfl⟩ := Prod.mk.inj heq
    dsimp only at hk
    by_cases hstatus : r.header.statusCode = status
    · rw [if_pos hstatus] at hk
      exact ⟨r, l, rfl, hstatus, hk, by rw [hstatus]⟩
    · rw [if_neg hstatus] at hk
      cases hk

theorem storing_some {status : UInt32} {pick : ResponseBody → Option α} {x : α}
    (h : storing status reply pick = .ok (stt, some x) l) :
    ∃ res, reply.res = some res ∧ res.header.statusCode = status ∧ pick res.body = some x ∧
      stt = status.toInt32.toInt := by
  obtain ⟨res, l', hres, hstatus, hk, hstt⟩ := handleResStt_some h
  split at hk
  · cases hk
    exact ⟨res, hres, hstatus, ‹_›, hstt⟩
  · cases hk

/-- There is never room for the terminator. -/
theorem getUserInfo_none {x : CStr × CStr × CStr} : getUserInfo reply ≠ .ok (stt, some x) l := by
  intro h
  obtain ⟨res, l', -, -, hk, -⟩ := handleResStt_some h
  split at hk
  · simp [callocStrcpy] at hk
  · cases hk

/-- The text of a message is copied if it is there. -/
theorem withMsg_some {β : Type} {res : Response} {k : ResponseMsg → CStr → Access β} {y : β}
    (h : withMsg res k = .ok y l) :
    ∃ rmsg content, res.body = .msg rmsg ∧ rmsg.msgContent = some content ∧
      k rmsg content = .ok y l := by
  unfold withMsg at h
  split at h
  · split at h
    · exact ⟨_, _, ‹_›, ‹_›, h⟩
    · cases h
  · cases h

theorem memcpyString_ok {s : CStr} {n : Nat} (h : n ≤ s.strlen + 1) :
    memcpyString s n = .ok ((s.bytes ++ [0]).take n) [n] := if_pos h

theorem memcpyString_bind {β : Type} {s : CStr} {n : Nat} {k : List UInt8 → Access β} {y : β}
    (h : (memcpyString s n >>= k) = .ok y l) :
    ∃ bs l', bs = (s.bytes ++ [0]).take n ∧ k bs = .ok y l' := by
  unfold memcpyString at h
  split at h
  · rw [Access.ok_bind] at h
    obtain ⟨l', hk⟩ := Access.of_after_eq_ok h
    exact ⟨_, l', rfl, hk⟩
  · cases h

namespace Call

theorem named_some {f : α → Output} {x : Access (Int × Option α)} {o : Output}
    (h : named f x = .ok (stt, some o) l) : ∃ v, x = .ok (stt, some v) l ∧ o = f v := by
  obtain ⟨⟨stt', stored⟩, hx, heq⟩ := Access.bind_pure_eq_ok h
  obtain ⟨rfl, hstored⟩ := Prod.mk.inj heq
  obtain ⟨v, rfl, rfl⟩ := Option.map_eq_some_iff.mp hstored
  exact ⟨v, hx, rfl⟩

theorem silent_none {x : Access (Int × Option Unit)} {o : Output} :
    silent x ≠ .ok (stt, some o) l := by
  intro h
  obtain ⟨y, -, heq⟩ := Access.bind_pure_eq_ok h
  cases heq

/-- Strings that fit with what is in front of them are short enough. -/
theorem short_of_fits {r : ResponseCall} (hfits : r.written ≤ responseBodyLen)
    (hfree : r.delimited = []) (hfile : ∀ s z f, r ≠ .msgDownloadFile s z f) :
    ∀ s ∈ r.strings, s.strlen ≤ responseBodyLen := by
  intro s hs
  cases r with
  | convGetInfo _ _ g =>
    obtain rfl : s = g := by simpa [ResponseCall.strings] using hs
    exact (Nat.le_add_left _ 4).trans hfits
  | msgGetDetail _ m =>
    obtain rfl : s = m.msgContent := by simpa [ResponseCall.strings] using hs
    exact (Nat.le_add_left _ 30).trans hfits
  | msgDownloadFile s z f => exact absurd rfl (hfile s z f)
  | userGetInfo _ _ _ _ => simp [ResponseCall.delimited] at hfree
  | _ => simp [ResponseCall.strings] at hs

/-- The client reads what was written into the frame, if the frame has a body. -/
theorem parsed_of_answer {r : ResponseCall} {prior frame : Frame} {res : Option Response}
    {l₀ copies : List Nat} (hmake : r.make prior = .ok frame l₀)
    (hparse : responseParse frame = .ok res copies) {b : ResponseBody} (hbody : r.body = some b)
    (hfree : r.delimited = []) (hfile : ∀ s z f, r ≠ .msgDownloadFile s z f) :
    res = some ⟨r.header, b⟩ := by
  have hshort := short_of_fits (ResponseCall.written_le_of_make hmake) hfree hfile
  obtain ⟨copies', hparse'⟩ := r.parse_of_make hbody hshort (by simp [hfree]) hmake
  exact (Access.ok.inj (hparse.symm.trans hparse')).1

/-- The parts of a call that ends well. -/
theorem outcome_parts {f : Call} {r : ResponseCall} {prior : Frame} {behind : List UInt8}
    {timedOut : Bool} {y : Int × Option Output} (h : f.outcome r prior behind timedOut = .ok y l) :
    ∃ frame l₀ res copies l', r.make prior = .ok frame l₀ ∧
      responseParse frame = .ok res copies ∧ f.finish ⟨res, timedOut⟩ = .ok y l' := by
  unfold outcome at h
  cases hmake : r.make prior with
  | fault _ =>
    rw [hmake] at h
    cases h
  | ok frame l₀ =>
    rw [hmake, Access.ok_bind, received, apiCall_whole] at h
    obtain ⟨l₁, h⟩ := Access.of_after_eq_ok h
    cases hparse : responseParse frame with
    | fault _ =>
      rw [hparse] at h
      cases h
    | ok res copies =>
      rw [hparse, Access.ok_bind] at h
      obtain ⟨l₂, h⟩ := Access.of_after_eq_ok h
      exact ⟨frame, l₀, res, copies, l₂, rfl, hparse, h⟩

/-- Something is stored only with a status for success. -/
theorem finish_some {f : Call} {o : Output} (h : f.finish reply = .ok (stt, some o) l) :
    ∃ res, reply.res = some res ∧ (res.header.statusCode = 200 ∨ res.header.statusCode = 201) ∧
      stt = res.header.statusCode.toInt32.toInt := by
  have hstoring : ∀ {α : Type} {g : α → Output} {status : UInt32} {pick : ResponseBody → Option α},
      named g (storing status reply pick) = .ok (stt, some o) l → (status = 200 ∨ status = 201) →
      ∃ res, reply.res = some res ∧ (res.header.statusCode = 200 ∨ res.header.statusCode = 201) ∧
        stt = res.header.statusCode.toInt32.toInt := by
    intro α g status pick h hstatus
    obtain ⟨v, hv, -⟩ := named_some h
    obtain ⟨res, hres, rfl, -, hstt⟩ := storing_some hv
    exact ⟨res, hres, hstatus, hstt⟩
  have hcase : ∀ {α : Type} {g : α → Output} {status : UInt32} {k : Response → Access (Option α)},
      named g (handleResStt reply.timedOut reply.res fun r =>
        if r.header.statusCode = status then k r else pure none) = .ok (stt, some o) l →
      (status = 200 ∨ status = 201) →
      ∃ res, reply.res = some res ∧ (res.header.statusCode = 200 ∨ res.header.statusCode = 201) ∧
        stt = res.header.statusCode.toInt32.toInt := by
    intro α g status k h hstatus
    obtain ⟨v, hv, -⟩ := named_some h
    obtain ⟨res, -, hres, rfl, -, hstt⟩ := handleResStt_some hv
    exact ⟨res, hres, hstatus, hstt⟩
  cases f with
  | register _ _ _ _ => exact hstoring h (Or.inr rfl)
  | createChat _ => exact hstoring h (Or.inr rfl)
  | createConv _ => exact hcase h (Or.inr rfl)
  | sendMsgText _ _ _ _ => exact hcase h (Or.inr rfl)
  | getUserInfo _ => exact hcase h (Or.inl rfl)
  | getMsgDetail _ _ => exact hcase h (Or.inl rfl)
  | getMsgDetailRaw _ => exact hcase h (Or.inl rfl)
  | dropConv _ => exact absurd h silent_none
  | joinConv _ _ => exact absurd h silent_none
  | quitConv _ _ => exact absurd h silent_none
  | deleteChat _ => exact absurd h silent_none
  | deleteMsg _ => exact absurd h silent_none
  | _ => exact hstoring h (Or.inl rfl)

/-- **What is stored was sent.** Behind an answer to its request, a call stores nothing but what
    the answer says, and only if the request was done. -/
theorem outcome_stored {f : Call} {r : ResponseCall} {prior : Frame} {behind : List UInt8}
    {timedOut : Bool} {o : Output} (hr : f.Answers r)
    (h : f.outcome r prior behind timedOut = .ok (stt, some o) l) :
    f.Succeeds r ∧ f.output r = some o ∧ stt = r.status.toInt32.toInt := by
  obtain ⟨frame, l₀, res, copies, l', hmake, hparse, hfinish⟩ := outcome_parts h
  have hfits := ResponseCall.written_le_of_make hmake
  obtain ⟨m, hmake', -⟩ := r.make_laid hfits prior
  obtain ⟨rfl, rfl⟩ := Access.ok.inj (hmake.symm.trans hmake')
  obtain ⟨res', rfl, hstatus, hstt⟩ := finish_some hfinish
  rw [status_of_parsed hfits hmake hparse] at hstatus hstt
  rcases hr with hdone | ⟨status, group, action, rfl, h200, h201⟩
  swap
  · exact absurd hstatus (not_or.mpr ⟨h200, h201⟩)
  refine ⟨hdone, ?_, hstt⟩
  have hbody : ∀ b, r.body = some b → r.delimited = [] → (∀ s z f, r ≠ .msgDownloadFile s z f) →
      res' = ⟨r.header, b⟩ := fun b hb hfree hfile =>
    Option.some.inj (parsed_of_answer hmake hparse hb hfree hfile)
  -- a function that stores part of the body stores it as it was read
  have hpick : ∀ {α : Type} {g : α → Output} {status : UInt32} {pick : ResponseBody → Option α}
      {x : α}, named g (storing status ⟨some res', timedOut⟩ pick) = .ok (stt, some o) l' →
      pick res'.body = some x → some (g x) = some o := by
    intro α g status pick x h hx
    obtain ⟨v, hv, rfl⟩ := named_some h
    obtain ⟨_, ⟨⟩, -, hv, -⟩ := storing_some hv
    rw [← Option.some.inj (hx.symm.trans hv)]
  have hcase : ∀ {α : Type} {g : α → Output} {status : UInt32} {k : Response → Access (Option α)},
      named g (handleResStt timedOut (some res') fun r =>
        if r.header.statusCode = status then k r else pure none) = .ok (stt, some o) l' →
      ∃ v l₁, k res' = .ok (some v) l₁ ∧ o = g v := by
    intro α g status k h
    obtain ⟨v, hv, ho⟩ := named_some h
    obtain ⟨_, l₁, ⟨⟩, -, hk, -⟩ := handleResStt_some hv
    exact ⟨v, l₁, hk, ho⟩
  cases hdone with
  | logout =>
    -- the client has no case for the frame
    obtain ⟨m, hmake', hlaid⟩ := (ResponseCall.userLogout 200).make_laid (Nat.zero_le _) prior
    obtain ⟨rfl, -⟩ := Access.ok.inj (hmake.symm.trans hmake')
    rw [responseParse_of_headerAt hlaid.header,
      responseParseBody_unknown (by decide) (by decide)] at hparse
    cases hparse
  | getUserInfo => exact absurd (named_some hfinish).choose_spec.1 getUserInfo_none
  | dropConv => exact absurd hfinish silent_none
  | joinConv => exact absurd hfinish silent_none
  | quitConv => exact absurd hfinish silent_none
  | deleteChat => exact absurd hfinish silent_none
  | deleteMsg => exact absurd hfinish silent_none
  | createConv =>
    obtain rfl := hbody _ rfl rfl (by simp)
    obtain ⟨v, l₁, hk, rfl⟩ := hcase hfinish
    cases hk
    rfl
  | sendMsgText =>
    obtain rfl := hbody _ rfl rfl (by simp)
    obtain ⟨v, l₁, hk, rfl⟩ := hcase hfinish
    cases hk
    rfl
  | getMsgDetail =>
    obtain rfl := hbody _ rfl rfl (by simp)
    obtain ⟨v, l₁, hk, rfl⟩ := hcase hfinish
    obtain ⟨_, _, ⟨⟩, ⟨⟩, hcopy⟩ := withMsg_some hk
    obtain ⟨bs, l₂, hbs, hrest⟩ := memcpyString_bind hcopy
    split at hrest
    · cases hrest
    · cases hrest
      rw [hbs]
      rfl
  | getMsgDetailRaw =>
    obtain rfl := hbody _ rfl rfl (by simp)
    obtain ⟨v, l₁, hk, rfl⟩ := hcase hfinish
    obtain ⟨_, _, ⟨⟩, ⟨⟩, hcopy⟩ := withMsg_some hk
    obtain ⟨bs, l₂, hbs, hrest⟩ := memcpyString_bind hcopy
    cases hrest
    rw [hbs]
    rfl
  | _ =>
    obtain rfl := hbody _ rfl rfl (by simp)
    have hout := hpick hfinish rfl
    exact hout

/-! ## What becomes of an answer -/

/-- **What was sent is stored.** An answer to a request that was done is stored, if its frame has
    a body and is no longer than a frame, and the length of a text is not more than there is. -/
theorem outcome_done {f : Call} {r : ResponseCall} {o : Output} (hdone : f.Succeeds r)
    (ho : f.output r = some o) (hfits : r.written ≤ responseBodyLen)
    (hlen : ∀ s m, r = .msgGetDetail s m → m.contentLength.toNat ≤ m.msgContent.strlen)
    (prior : Frame) (behind : List UInt8) (timedOut : Bool) :
    ∃ l, f.outcome r prior behind timedOut = .ok (r.status.toInt32.toInt, some o) l := by
  obtain ⟨frame, hmake, hlaid⟩ := r.make_laid hfits prior
  -- the frame is read to its body, and that is stored
  have hstored : ∀ b, r.body = some b → r.delimited = [] →
      (∀ s z f, r ≠ .msgDownloadFile s z f) →
      (∃ l, f.finish ⟨some ⟨r.header, b⟩, timedOut⟩ = .ok (r.status.toInt32.toInt, some o) l) →
      ∃ l, f.outcome r prior behind timedOut = .ok (r.status.toInt32.toInt, some o) l := by
    rintro b hb hfree hfile ⟨l, hfinish⟩
    obtain ⟨copies, hparse⟩ := r.parse_of_make hb (short_of_fits hfits hfree hfile) (by simp [hfree])
      hmake
    exact ⟨copies ++ l, by simp [outcome, received, apiCall_whole, hmake, hparse, hfinish]⟩
  cases hdone with
  | logout => cases ho
  | getUserInfo => cases ho
  | dropConv => cases ho
  | joinConv => cases ho
  | quitConv => cases ho
  | deleteChat => cases ho
  | deleteMsg => cases ho
  | @getMsgDetail n given m =>
    obtain rfl := Option.some.inj ho
    have hle := hlen _ m rfl
    refine hstored _ rfl rfl (by simp) ⟨[m.contentLength.toNat], ?_⟩
    -- the size of a new buffer does not overflow
    have hroom : ¬ (m.contentLength.toNat + 1) % 4294967296 < m.contentLength.toNat := by
      simp only [ResponseCall.written, responseBodyLen, bufsiz, responseHeaderLen] at hfits
      omega
    have hcopy := memcpyString_ok (hle.trans (Nat.le_succ _))
    simp [finish, named, MeshChat.getMsgDetail, handleResStt, withMsg, ResponseCall.header,
      ResponseCall.status, hcopy, hroom, copied]
  | @getMsgDetailRaw n m =>
    obtain rfl := Option.some.inj ho
    have hle := hlen _ m rfl
    refine hstored _ rfl rfl (by simp) ⟨[m.contentLength.toNat], ?_⟩
    have hcopy := memcpyString_ok (hle.trans (Nat.le_succ _))
    simp [finish, named, MeshChat.getMsgDetailRaw, handleResStt, withMsg, ResponseCall.header,
      ResponseCall.status, hcopy, copied]
  | _ =>
    obtain rfl := Option.some.inj ho
    exact hstored _ rfl rfl (by simp) ⟨_, rfl⟩

end Call

end Stored

end Service

end MeshChat
