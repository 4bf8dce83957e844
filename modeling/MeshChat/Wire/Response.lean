import MeshChat.Wire.Request

/-! # Response frames (`response.c`)

    A response is one frame of `bufsiz` bytes with a 32-byte header. The parser
    is the client's half of the protocol, the builders (`makeResponse…` and
    `makeErrResponse`) the server's. An error frame is a header alone: it
    declares a `body_len` of 0 and leaves the old bytes of the buffer behind it,
    but the client decodes it with the layout of the success frame of the same
    group and action.
-/

namespace MeshChat

open CMemory

/-! ## Constants and parsed structures -/

@[simp] abbrev responseHeaderLen : Nat := 32

@[simp] abbrev responseBodyLen : Nat := bufsiz - responseHeaderLen

/-- `response_header`. -/
structure ResponseHeader where
  group : Int8
  action : Int8
  contentType : UInt8 := 0
  contentLen : UInt32 := 0
  bodyLen : UInt32 := 0
  statusCode : UInt32
  count : UInt32 := 0
  deriving DecidableEq

/-- `response_auth`. -/
structure ResponseAuth where
  token : List UInt8
  userId : UInt32
  deriving DecidableEq

/-- `response_user`. -/
structure ResponseUser where
  idls : Option (List UInt32) := none
  uname : Option CStr := none
  phone : Option CStr := none
  email : Option CStr := none
  deriving DecidableEq

/-- `response_conv`. -/
structure ResponseConv where
  idls : Option (List UInt32) := none
  convId : UInt32 := 0
  adminId : UInt32 := 0
  gname : Option CStr := none
  deriving DecidableEq

/-- `response_chat`. -/
structure ResponseChat where
  idls : Option (List UInt32) := none
  chatId : UInt32 := 0
  memberId1 : UInt32 := 0
  memberId2 : UInt32 := 0
  deriving DecidableEq

/-- `response_msg`. -/
structure ResponseMsg where
  idls : Option (List UInt32) := none
  msgId : UInt32 := 0
  convId : UInt32 := 0
  chatId : UInt32 := 0
  fromUid : UInt32 := 0
  replyTo : UInt32 := 0
  createdAt : UInt32 := 0
  msgType : UInt8 := 0
  contentType : UInt8 := 0
  contentLength : UInt32 := 0
  msgContent : Option CStr := none
  deriving DecidableEq

/-- `response_body`: the union, tagged by the group that filled it. -/
inductive ResponseBody where
  | auth (r : ResponseAuth)
  | user (r : ResponseUser)
  | conv (r : ResponseConv)
  | chat (r : ResponseChat)
  | msg (r : ResponseMsg)
  deriving DecidableEq

/-- A parsed response. -/
structure Response where
  header : ResponseHeader
  body : ResponseBody
  deriving DecidableEq

/-! ## The parser -/

/-- `response_parse_auth`: every action is decoded alike. -/
def responseParseAuth (buf : Frame) : Access (Option ResponseBody) := do
  let token ← buf.load responseHeaderLen tokenLen
  let userId ← buf.loadWord (responseHeaderLen + tokenLen)
  pure (some (.auth ⟨token, userId⟩))

/-- `response_parse_user`. -/
def responseParseUser (header : ResponseHeader) (buf : Frame) : Access (Option ResponseBody) :=
  if header.action = 1 then do
    let bodyLen := header.bodyLen.toNat
    let copied ← (buf.load responseHeaderLen bodyLen).after [bodyLen]
    let uname := 0
    let (arr, rest) ← fieldTokenizer none (copied ++ [0]) uname 0
    let phone := rest
    let (arr, rest) ← fieldTokenizer none arr phone rest
    let email := rest
    let (arr, _) ← fieldTokenizer none arr email rest
    let unameStr ← strAt arr uname
    let phoneStr ← strAt arr phone
    let emailStr ← strAt arr email
    pure (some (.user { uname := some unameStr, phone := some phoneStr, email := some emailStr }))
  else if header.action = 2 then do
    let idls ← buf.loadWords responseHeaderLen header.count.toNat
    pure (some (.user { idls := some idls }))
  else pure none

/-- `response_parse_conv`. The length of the name, `body_len - 4`, is unsigned
    32-bit arithmetic. -/
def responseParseConv (header : ResponseHeader) (buf : Frame) : Access (Option ResponseBody) :=
  if header.action = 0 then do
    let convId ← buf.loadWord responseHeaderLen
    pure (some (.conv { convId }))
  else if header.action = 4 then do
    let adminId ← buf.loadWord responseHeaderLen
    let gname ← copyString buf (responseHeaderLen + 4) (header.bodyLen - 4).toNat
    pure (some (.conv { adminId, gname := some gname }))
  else if header.action = 5 ∨ header.action = 6 then do
    let idls ← buf.loadWords responseHeaderLen header.count.toNat
    pure (some (.conv { idls := some idls }))
  else pure none

/-- `response_parse_chat`. -/
def responseParseChat (header : ResponseHeader) (buf : Frame) : Access (Option ResponseBody) :=
  if header.action = 0 then do
    let chatId ← buf.loadWord responseHeaderLen
    pure (some (.chat { chatId }))
  else if header.action = 1 then
    pure (some (.chat {}))
  else if header.action = 2 then do
    let idls ← buf.loadWords responseHeaderLen header.count.toNat
    pure (some (.chat { idls := some idls }))
  else if header.action = 3 then do
    let memberId1 ← buf.loadWord responseHeaderLen
    let memberId2 ← buf.loadWord (responseHeaderLen + 4)
    pure (some (.chat { memberId1, memberId2 }))
  else pure none

/-- The packed message of `response_parse_msg`, action 1. The length of the
    text, `body_len - 30`, is unsigned 32-bit arithmetic. -/
def responseParseMsgDetail (header : ResponseHeader) (buf : Frame) :
    Access (Option ResponseBody) := do
  let msgId ← buf.loadWord responseHeaderLen
  let fromUid ← buf.loadWord (responseHeaderLen + 4)
  let replyTo ← buf.loadWord (responseHeaderLen + 8)
  let convId ← buf.loadWord (responseHeaderLen + 12)
  let chatId ← buf.loadWord (responseHeaderLen + 16)
  let createdAt ← buf.loadWord (responseHeaderLen + 20)
  let msgType ← buf.loadByte (responseHeaderLen + 24)
  let contentType ← buf.loadByte (responseHeaderLen + 25)
  let contentLength ← buf.loadWord (responseHeaderLen + 26)
  let text ← copyString buf (responseHeaderLen + 30) (header.bodyLen - 30).toNat
  pure (some (.msg { msgId, fromUid, replyTo, convId, chatId, createdAt, msgType, contentType,
                     contentLength, msgContent := some text }))

/-- `response_parse_msg`. -/
def responseParseMsg (header : ResponseHeader) (buf : Frame) : Access (Option ResponseBody) :=
  if header.action = 0 ∨ header.action = 4 ∨ header.action = 5 then do
    let idls ← buf.loadWords responseHeaderLen header.count.toNat
    pure (some (.msg { idls := some idls }))
  else if header.action = 1 then
    responseParseMsgDetail header buf
  else if header.action = 2 then do
    let msgId ← buf.loadWord responseHeaderLen
    pure (some (.msg { msgId }))
  else if header.action = 3 then
    pure (some (.msg {}))
  else if header.action = 6 then do
    let fname ← copyString buf responseHeaderLen header.bodyLen.toNat
    pure (some (.msg { msgContent := some fname }))
  else pure none

/-- The header fields at their fixed offsets. -/
def responseParseHeader (buf : Frame) : Access ResponseHeader := do
  let group ← buf.loadByte 0
  let action ← buf.loadByte 1
  let contentType ← buf.loadByte 2
  let contentLen ← buf.loadWord 4
  let bodyLen ← buf.loadWord 8
  let statusCode ← buf.loadWord 12
  let count ← buf.loadWord 16
  pure { group := group.toInt8, action := action.toInt8, contentType, contentLen, bodyLen,
         statusCode, count }

/-- The switch on the group byte. -/
def responseParseBody (header : ResponseHeader) (buf : Frame) : Access (Option ResponseBody) :=
  if header.group = 0 then responseParseAuth buf
  else if header.group = 1 then responseParseUser header buf
  else if header.group = 2 then responseParseConv header buf
  else if header.group = 3 then responseParseChat header buf
  else if header.group = 4 then responseParseMsg header buf
  else pure none

/-- `response_parse`; `none` is the `NULL` returned for a frame without a body. -/
def responseParse (buf : Frame) : Access (Option Response) := do
  let header ← responseParseHeader buf
  let body ← responseParseBody header buf
  pure (body.map (Response.mk header))

/-! ## The builders -/

/-- `make_err_response`. -/
def makeErrResponse (status : UInt32) (group action : UInt8) (res : Frame) : Access Frame := do
  let res ← res.store 0 (zeros responseHeaderLen)
  let res ← res.store 0 [group]
  let res ← res.store 1 [action]
  res.store 12 (beBytes status)

/-- `make_response_header`. -/
def makeResponseHeader (header : ResponseHeader) (res : Frame) : Access Frame := do
  let res ← res.store 0 (zeros responseHeaderLen)
  let res ← res.store 0 [header.group.toUInt8]
  let res ← res.store 1 [header.action.toUInt8]
  let res ← res.store 2 [header.contentType]
  let res ← res.store 4 (beBytes header.contentLen)
  let res ← res.store 8 (beBytes header.bodyLen)
  let res ← res.store 12 (beBytes header.statusCode)
  res.store 16 (beBytes header.count)

/-- `memset(body, 0, RESPONSE_BODY_LEN)`. -/
def clearResponseBody (res : Frame) : Access Frame :=
  res.store responseHeaderLen (zeros responseBodyLen)

/-- `make_response_empty_body`. -/
def makeResponseEmptyBody (group action : UInt8) (statusCode : UInt32) (res : Frame) :
    Access Frame :=
  makeResponseHeader { group := group.toInt8, action := action.toInt8, statusCode } res

/-- `make_response_id_list`; `count` is the length of the array. -/
def makeResponseIdList (group action : UInt8) (statusCode : UInt32) (ls : List UInt32)
    (res : Frame) : Access Frame := do
  let count := UInt32.ofNat ls.length
  let sz := count <<< 2
  let res ← makeResponseHeader
    { group := group.toInt8, action := action.toInt8, statusCode, contentLen := sz, bodyLen := sz,
      count } res
  let res ← clearResponseBody res
  res.storeWords responseHeaderLen ls

/-- `make_response_uint32`. -/
def makeResponseUint32 (group action : UInt8) (statusCode num : UInt32) (res : Frame) :
    Access Frame := do
  let res ← makeResponseHeader
    { group := group.toInt8, action := action.toInt8, statusCode, contentLen := 4,
      bodyLen := 4 } res
  let res ← clearResponseBody res
  res.store responseHeaderLen (beBytes num)

/-- `make_response_auth_register` and `make_response_auth_login`. -/
def makeResponseAuth (action : Int8) (statusCode : UInt32) (token : Token) (userId : UInt32)
    (res : Frame) : Access Frame := do
  let res ← makeResponseHeader
    { group := 0, action, statusCode, contentLen := UInt32.ofNat (tokenLen + 4),
      bodyLen := UInt32.ofNat (tokenLen + 4) } res
  let res ← clearResponseBody res
  let res ← res.store responseHeaderLen token.bytes
  res.store (responseHeaderLen + tokenLen) (beBytes userId)

def makeResponseAuthRegister (statusCode : UInt32) (token : Token) (userId : UInt32) :
    Frame → Access Frame :=
  makeResponseAuth 0 statusCode token userId

def makeResponseAuthLogin (statusCode : UInt32) (token : Token) (userId : UInt32) :
    Frame → Access Frame :=
  makeResponseAuth 1 statusCode token userId

def makeResponseUserLogout (statusCode : UInt32) : Frame → Access Frame :=
  makeResponseEmptyBody 1 0 statusCode

/-- `make_response_user_get_info`. -/
def makeResponseUserGetInfo (statusCode : UInt32) (uname phone email : CStr) (res : Frame) :
    Access Frame := do
  let sumLen := uname.strlen + phone.strlen + email.strlen
  let res ← makeResponseHeader
    { group := 1, action := 1, statusCode, contentLen := UInt32.ofNat (sumLen + 2),
      bodyLen := UInt32.ofNat (sumLen + 2) } res
  let res ← clearResponseBody res
  let body := responseHeaderLen
  let res ← res.store body uname.bytes
  let res ← res.store (body + uname.strlen) [bodyDelimiter]
  let body := body + (uname.strlen + 1)
  let res ← res.store body phone.bytes
  let res ← res.store (body + phone.strlen) [bodyDelimiter]
  let body := body + (phone.strlen + 1)
  res.store body email.bytes

def makeResponseUserSearch (statusCode : UInt32) (ls : List UInt32) : Frame → Access Frame :=
  makeResponseIdList 1 2 statusCode ls

def makeResponseConvCreate (statusCode convId : UInt32) : Frame → Access Frame :=
  makeResponseUint32 2 0 statusCode convId

def makeResponseConvDrop (statusCode : UInt32) : Frame → Access Frame :=
  makeResponseEmptyBody 2 1 statusCode

def makeResponseConvJoin (statusCode : UInt32) : Frame → Access Frame :=
  makeResponseEmptyBody 2 2 statusCode

def makeResponseConvQuit (statusCode : UInt32) : Frame → Access Frame :=
  makeResponseEmptyBody 2 3 statusCode

/-- `make_response_conv_get_info`. -/
def makeResponseConvGetInfo (statusCode adminId : UInt32) (gname : CStr) (res : Frame) :
    Access Frame := do
  let res ← makeResponseHeader
    { group := 2, action := 4, statusCode, contentLen := UInt32.ofNat (4 + gname.strlen),
      bodyLen := UInt32.ofNat (4 + gname.strlen) } res
  let res ← clearResponseBody res
  let res ← res.store responseHeaderLen (beBytes adminId)
  res.store (responseHeaderLen + 4) gname.bytes

def makeResponseConvGetMembers (statusCode : UInt32) (ls : List UInt32) : Frame → Access Frame :=
  makeResponseIdList 2 5 statusCode ls

def makeResponseConvGetList (statusCode : UInt32) (ls : List UInt32) : Frame → Access Frame :=
  makeResponseIdList 2 6 statusCode ls

def makeResponseChatCreate (statusCode chatId : UInt32) : Frame → Access Frame :=
  makeResponseUint32 3 0 statusCode chatId

def makeResponseChatDelete (statusCode : UInt32) : Frame → Access Frame :=
  makeResponseEmptyBody 3 1 statusCode

def makeResponseChatGetList (statusCode : UInt32) (ls : List UInt32) : Frame → Access Frame :=
  makeResponseIdList 3 2 statusCode ls

/-- `make_response_chat_get_info`. -/
def makeResponseChatGetInfo (statusCode memberId1 memberId2 : UInt32) (res : Frame) :
    Access Frame := do
  let res ← makeResponseHeader
    { group := 3, action := 3, statusCode, contentLen := 8, bodyLen := 8 } res
  let res ← clearResponseBody res
  let res ← res.store responseHeaderLen (beBytes memberId1)
  res.store (responseHeaderLen + 4) (beBytes memberId2)

def makeResponseMsgGetAll (statusCode : UInt32) (ls : List UInt32) : Frame → Access Frame :=
  makeResponseIdList 4 0 statusCode ls

/-- The fields of the `response_msg` that `make_response_msg_get_detail` sends. -/
structure MsgDetail where
  msgId : UInt32
  fromUid : UInt32
  replyTo : UInt32
  convId : UInt32
  chatId : UInt32
  createdAt : UInt32
  msgType : UInt8
  contentType : UInt8
  contentLength : UInt32
  msgContent : CStr
  deriving DecidableEq

/-- `make_response_msg_get_detail`. -/
def makeResponseMsgGetDetail (status : UInt32) (msg : MsgDetail) (res : Frame) :
    Access Frame := do
  let res ← makeResponseHeader
    { group := 4, action := 1, contentType := msg.contentType, statusCode := status,
      contentLen := msg.contentLength, bodyLen := UInt32.ofNat (30 + msg.msgContent.strlen) } res
  let res ← clearResponseBody res
  let res ← res.store responseHeaderLen (beBytes msg.msgId)
  let res ← res.store (responseHeaderLen + 4) (beBytes msg.fromUid)
  let res ← res.store (responseHeaderLen + 8) (beBytes msg.replyTo)
  let res ← res.store (responseHeaderLen + 12) (beBytes msg.convId)
  let res ← res.store (responseHeaderLen + 16) (beBytes msg.chatId)
  let res ← res.store (responseHeaderLen + 20) (beBytes msg.createdAt)
  let res ← res.store (responseHeaderLen + 24) [msg.msgType]
  let res ← res.store (responseHeaderLen + 25) [msg.contentType]
  let res ← res.store (responseHeaderLen + 26) (beBytes msg.contentLength)
  res.store (responseHeaderLen + 30) msg.msgContent.bytes

def makeResponsesMsgSend (statusCode msgId : UInt32) : Frame → Access Frame :=
  makeResponseUint32 4 2 statusCode msgId

def makeResponseMsgDelete (statusCode : UInt32) : Frame → Access Frame :=
  makeResponseEmptyBody 4 3 statusCode

def makeResponseMsgNotifyNew (statusCode : UInt32) (ls : List UInt32) : Frame → Access Frame :=
  makeResponseIdList 4 4 statusCode ls

def makeResponseMsgNotifyDel (statusCode : UInt32) (ls : List UInt32) : Frame → Access Frame :=
  makeResponseIdList 4 5 statusCode ls

/-- `make_response_msg_download_file`. The name length is held in 32 bits. -/
def makeResponseMsgDownloadFile (statusCode fsize : UInt32) (fname : CStr) (res : Frame) :
    Access Frame := do
  let fnameLen := UInt32.ofNat fname.strlen
  let res ← makeResponseHeader
    { group := 4, action := 6, contentType := 1, statusCode, contentLen := fsize,
      bodyLen := fnameLen } res
  let res ← clearResponseBody res
  res.store responseHeaderLen (fname.bytes.take fnameLen.toNat)

/-! ## Calls of the builders -/

/-- A frame the server emits: one call of a builder of `response.c`. -/
inductive ResponseCall where
  | err (status : UInt32) (group action : UInt8)
  | authRegister (status : UInt32) (token : Token) (userId : UInt32)
  | authLogin (status : UInt32) (token : Token) (userId : UInt32)
  | userLogout (status : UInt32)
  | userGetInfo (status : UInt32) (uname phone email : CStr)
  | userSearch (status : UInt32) (ls : List UInt32)
  | convCreate (status convId : UInt32)
  | convDrop (status : UInt32)
  | convJoin (status : UInt32)
  | convQuit (status : UInt32)
  | convGetInfo (status adminId : UInt32) (gname : CStr)
  | convGetMembers (status : UInt32) (ls : List UInt32)
  | convGetList (status : UInt32) (ls : List UInt32)
  | chatCreate (status chatId : UInt32)
  | chatDelete (status : UInt32)
  | chatGetList (status : UInt32) (ls : List UInt32)
  | chatGetInfo (status memberId1 memberId2 : UInt32)
  | msgGetAll (status : UInt32) (ls : List UInt32)
  | msgGetDetail (status : UInt32) (msg : MsgDetail)
  | msgSend (status msgId : UInt32)
  | msgDelete (status : UInt32)
  | msgNotifyNew (status : UInt32) (ls : List UInt32)
  | msgNotifyDel (status : UInt32) (ls : List UInt32)
  | msgDownloadFile (status fsize : UInt32) (fname : CStr)
  deriving DecidableEq

namespace ResponseCall

/-- Run the builder over a buffer with arbitrary old contents. -/
def make : ResponseCall → Frame → Access Frame
  | err s g a => makeErrResponse s g a
  | authRegister s t u => makeResponseAuthRegister s t u
  | authLogin s t u => makeResponseAuthLogin s t u
  | userLogout s => makeResponseUserLogout s
  | userGetInfo s u p e => makeResponseUserGetInfo s u p e
  | userSearch s ls => makeResponseUserSearch s ls
  | convCreate s w => makeResponseConvCreate s w
  | convDrop s => makeResponseConvDrop s
  | convJoin s => makeResponseConvJoin s
  | convQuit s => makeResponseConvQuit s
  | convGetInfo s a g => makeResponseConvGetInfo s a g
  | convGetMembers s ls => makeResponseConvGetMembers s ls
  | convGetList s ls => makeResponseConvGetList s ls
  | chatCreate s w => makeResponseChatCreate s w
  | chatDelete s => makeResponseChatDelete s
  | chatGetList s ls => makeResponseChatGetList s ls
  | chatGetInfo s a b => makeResponseChatGetInfo s a b
  | msgGetAll s ls => makeResponseMsgGetAll s ls
  | msgGetDetail s m => makeResponseMsgGetDetail s m
  | msgSend s w => makeResponsesMsgSend s w
  | msgDelete s => makeResponseMsgDelete s
  | msgNotifyNew s ls => makeResponseMsgNotifyNew s ls
  | msgNotifyDel s ls => makeResponseMsgNotifyDel s ls
  | msgDownloadFile s z f => makeResponseMsgDownloadFile s z f

/-- The status the frame carries. -/
def status : ResponseCall → UInt32
  | err s _ _ | authRegister s _ _ | authLogin s _ _ | userLogout s | userGetInfo s _ _ _
  | userSearch s _ | convCreate s _ | convDrop s | convJoin s | convQuit s | convGetInfo s _ _
  | convGetMembers s _ | convGetList s _ | chatCreate s _ | chatDelete s | chatGetList s _
  | chatGetInfo s _ _ | msgGetAll s _ | msgGetDetail s _ | msgSend s _ | msgDelete s
  | msgNotifyNew s _ | msgNotifyDel s _ | msgDownloadFile s _ _ => s

end ResponseCall

end MeshChat
