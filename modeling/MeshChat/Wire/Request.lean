import MeshChat.Lib.CMemory

/-! # Request frames (`request.c`)

    A request is one frame of `bufsiz` bytes: a 64-byte header with fixed
    offsets and a body whose layout depends on the group and action bytes.
    This file holds the parser (`requestParse` and one sub-parser per group) and
    the builders (`makeRequest…`), each over checked memory, so that an access
    outside the frame is visible as a fault and every copy length computed from
    `body_len` is recorded.
-/

namespace MeshChat

open CMemory

/-! ## Constants and parsed structures -/

/-- `BUFSIZ` of the C library: the size of every frame on the wire. -/
@[simp] abbrev bufsiz : Nat := 8192

@[simp] abbrev requestHeaderLen : Nat := 64

@[simp] abbrev requestBodyLen : Nat := bufsiz - requestHeaderLen

@[simp] abbrev tokenLen : Nat := 16

/-- `BODY_DEMLIMITER`. -/
abbrev bodyDelimiter : UInt8 := 0x1D

abbrev Frame : Type := Mem bufsiz

/-- A session token, `TOKEN_LEN` bytes. -/
structure Token where
  bytes : List UInt8
  len : bytes.length = tokenLen
  deriving DecidableEq

/-- `EMPTY_TOKEN`. -/
def emptyToken : Token := ⟨List.replicate 16 0x06, by decide⟩

/-- `request_header`. -/
structure RequestHeader where
  group : Int8
  action : Int8
  contentType : UInt8
  contentLen : UInt32
  bodyLen : UInt32
  token : List UInt8
  userId : UInt32
  limit : Int32
  offset : Int32
  deriving DecidableEq

/-- `request_auth`; a pointer that may be `NULL` is an option. -/
structure RequestAuth where
  uname : Option CStr := none
  password : Option CStr := none
  phone : Option CStr := none
  email : Option CStr := none
  deriving DecidableEq

/-- `request_user`. -/
structure RequestUser where
  userId : UInt32 := 0
  uname : Option CStr := none
  deriving DecidableEq

/-- `request_conv`. -/
structure RequestConv where
  convId : UInt32 := 0
  userId : UInt32 := 0
  gname : Option CStr := none
  deriving DecidableEq

/-- `request_chat`. -/
structure RequestChat where
  chatId : UInt32 := 0
  userId2 : UInt32 := 0
  deriving DecidableEq

/-- `request_msg`. -/
structure RequestMsgBody where
  convId : UInt32 := 0
  chatId : UInt32 := 0
  msgId : UInt32 := 0
  replyId : UInt32 := 0
  msgContent : Option CStr := none
  deriving DecidableEq

/-- `request_body`: the union, tagged by the group that filled it. -/
inductive RequestBody where
  | auth (r : RequestAuth)
  | user (r : RequestUser)
  | conv (r : RequestConv)
  | chat (r : RequestChat)
  | msg (r : RequestMsgBody)
  deriving DecidableEq

/-- A parsed request. -/
structure Request where
  header : RequestHeader
  body : RequestBody
  deriving DecidableEq

/-! ## The parser -/

/-- `field_tokenizer`: cut the field that starts at `buf` off the scratch array
    `arr`. Returns the array with the delimiter overwritten and the new `rest`;
    without a delimiter both are as before. `bound` is the limit on the length
    of a field, which only the request parser has. -/
def fieldTokenizer (bound : Option Nat) (arr : List UInt8) (buf rest : Nat) :
    Access (List UInt8 × Nat) :=
  match scanDelim bodyDelimiter bound (arr.drop buf) 0 with
  -- neither delimiter nor terminator before the end of the array
  | none => .fault []
  | some none => pure (arr, rest)
  | some (some k) => pure (arr.set (buf + k) 0, buf + k + 1)

/-- `request_parse_auth`. The body is copied into a local array of
    `body_len + 1` bytes, in which the fields are cut out in place. -/
def requestParseAuth (header : RequestHeader) (buf : Frame) : Access (Option RequestBody) := do
  let bodyLen := header.bodyLen.toNat
  -- nothing checks `body_len`: an array of any size, copied from a frame of `BUFSIZ` bytes
  let copied ← (buf.load requestHeaderLen bodyLen).after [bodyLen]
  let uname := 0
  let (arr, rest) ← fieldTokenizer (some requestBodyLen) (copied ++ [0]) uname 0
  let password := rest
  let (arr, rest) ← fieldTokenizer (some requestBodyLen) arr password rest
  -- `string_new` copies here, before the other cuts
  let unameStr ← strAt arr uname
  let passwordStr ← strAt arr password
  if header.action = 0 then
    let phone := rest
    let (arr, rest) ← fieldTokenizer (some requestBodyLen) arr phone rest
    let email := rest
    let (arr, _) ← fieldTokenizer (some requestBodyLen) arr email rest
    let unameNow ← strAt arr uname
    let passwordNow ← strAt arr password
    let phoneNow ← strAt arr phone
    -- without a delimiter the fields coincide, and their lengths are counted twice
    let emailLen : Int :=
      (bodyLen : Int) - unameNow.strlen - passwordNow.strlen - phoneNow.strlen - 3
    if emailLen < 0 then
      pure none
    else if email + emailLen.toNat < arr.length then
      let arr := arr.set (email + emailLen.toNat) 0
      let phoneStr ← strAt arr phone
      let emailStr ← strAt arr email
      pure (some (.auth ⟨some unameStr, some passwordStr, some phoneStr, some emailStr⟩))
    else .fault []
  -- the fields are read before the action is known to be one of the two
  else if header.action ≠ 1 then
    pure none
  else
    pure (some (.auth { uname := some unameStr, password := some passwordStr }))

/-- `request_parse_user`. -/
def requestParseUser (header : RequestHeader) (buf : Frame) : Access (Option RequestBody) :=
  if header.action = 0 then
    pure (some (.user {}))
  else if header.action = 1 then do
    let userId ← buf.loadWord requestHeaderLen
    pure (some (.user { userId }))
  else if header.action = 2 then do
    let uname ← copyString buf requestHeaderLen header.bodyLen.toNat
    pure (some (.user { uname := some uname }))
  else pure none

/-- `request_parse_conv`. -/
def requestParseConv (header : RequestHeader) (buf : Frame) : Access (Option RequestBody) :=
  if header.action = 0 then do
    let gname ← copyString buf requestHeaderLen header.bodyLen.toNat
    pure (some (.conv { gname := some gname }))
  else if header.action = 1 ∨ header.action = 4 ∨ header.action = 5 then do
    let convId ← buf.loadWord requestHeaderLen
    pure (some (.conv { convId }))
  else if header.action = 2 ∨ header.action = 3 then do
    let convId ← buf.loadWord requestHeaderLen
    let userId ← buf.loadWord (requestHeaderLen + 4)
    pure (some (.conv { convId, userId }))
  else if header.action = 6 then
    pure (some (.conv {}))
  else pure none

/-- `request_parse_chat`. -/
def requestParseChat (header : RequestHeader) (buf : Frame) : Access (Option RequestBody) :=
  if header.action = 0 then do
    let userId2 ← buf.loadWord requestHeaderLen
    pure (some (.chat { userId2 }))
  else if header.action = 1 ∨ header.action = 3 then do
    let chatId ← buf.loadWord requestHeaderLen
    pure (some (.chat { chatId }))
  else if header.action = 2 then
    pure (some (.chat {}))
  else pure none

/-- `request_parse_msg`. The length of the text, `body_len - 12`, is unsigned
    32-bit arithmetic. -/
def requestParseMsg (header : RequestHeader) (buf : Frame) : Access (Option RequestBody) :=
  if header.action = 0 ∨ header.action = 5 then do
    let convId ← buf.loadWord requestHeaderLen
    let chatId ← buf.loadWord (requestHeaderLen + 4)
    pure (some (.msg { convId, chatId }))
  else if header.action = 1 ∨ header.action = 3 then do
    let msgId ← buf.loadWord requestHeaderLen
    pure (some (.msg { msgId }))
  else if header.action = 2 then do
    let convId ← buf.loadWord requestHeaderLen
    let chatId ← buf.loadWord (requestHeaderLen + 4)
    let replyId ← buf.loadWord (requestHeaderLen + 8)
    let text ← copyString buf (requestHeaderLen + 12) (header.bodyLen - 12).toNat
    pure (some (.msg { convId, chatId, replyId, msgContent := some text }))
  else if header.action = 4 then
    pure (some (.msg {}))
  else if header.action = 6 then do
    let msgId ← buf.loadWord requestHeaderLen
    pure (some (.msg { msgId }))
  else pure none

/-- The header fields at their fixed offsets. -/
def requestParseHeader (buf : Frame) : Access RequestHeader := do
  let group ← buf.loadByte 0
  let action ← buf.loadByte 1
  let contentType ← buf.loadByte 2
  let contentLen ← buf.loadWord 4
  let bodyLen ← buf.loadWord 8
  let token ← buf.load 16 tokenLen
  let userId ← buf.loadWord 32
  let limit ← buf.loadWord 36
  let offset ← buf.loadWord 40
  pure { group := group.toInt8, action := action.toInt8, contentType, contentLen, bodyLen, token,
         userId, limit := limit.toInt32, offset := offset.toInt32 }

/-- The switch on the group byte. -/
def requestParseBody (header : RequestHeader) (buf : Frame) : Access (Option RequestBody) :=
  if header.group = 0 then requestParseAuth header buf
  else if header.group = 1 then requestParseUser header buf
  else if header.group = 2 then requestParseConv header buf
  else if header.group = 3 then requestParseChat header buf
  else if header.group = 4 then requestParseMsg header buf
  else pure none

/-- `request_parse`; `none` is the `NULL` returned for a frame without a body. -/
def requestParse (buf : Frame) : Access (Option Request) := do
  let header ← requestParseHeader buf
  -- `NULL` for a group or an action that does not exist
  let body ← requestParseBody header buf
  pure (body.map (Request.mk header))

/-! ## The builders -/

/-- `make_request_header`. -/
def makeRequestHeader (header : RequestHeader) (res : Frame) : Access Frame := do
  let res ← res.store 0 (zeros requestHeaderLen)
  let res ← res.store 0 [header.group.toUInt8]
  let res ← res.store 1 [header.action.toUInt8]
  let res ← res.store 2 [header.contentType]
  let res ← res.store 4 (beBytes header.contentLen)
  let res ← res.store 8 (beBytes header.bodyLen)
  let res ← res.store 16 header.token
  let res ← res.store 32 (beBytes header.userId)
  let res ← res.store 36 (beBytes header.limit.toUInt32)
  res.store 40 (beBytes header.offset.toUInt32)

/-- `memset(body, 0, REQUEST_BODY_LEN)`. -/
def clearRequestBody (res : Frame) : Access Frame :=
  res.store requestHeaderLen (zeros requestBodyLen)

/-- `make_request_string`. -/
def makeRequestString (token : Token) (group action : UInt8) (userId : UInt32) (str : CStr)
    (res : Frame) : Access Frame := do
  let len := UInt32.ofNat str.strlen
  let res ← makeRequestHeader
    { group := group.toInt8, action := action.toInt8, contentType := 0, contentLen := len,
      bodyLen := len, token := token.bytes, userId, limit := -1, offset := -1 } res
  let res ← clearRequestBody res
  res.store requestHeaderLen str.bytes

/-- `make_request_uint32`. -/
def makeRequestUint32 (token : Token) (group action : UInt8) (userId num : UInt32)
    (res : Frame) : Access Frame := do
  let res ← makeRequestHeader
    { group := group.toInt8, action := action.toInt8, contentType := 0, contentLen := 4,
      bodyLen := 4, token := token.bytes, userId, limit := -1, offset := -1 } res
  let res ← clearRequestBody res
  res.store requestHeaderLen (beBytes num)

/-- `make_request_page`: only a header, the body keeps its old bytes. -/
def makeRequestPage (token : Token) (group action : UInt8) (userId : UInt32)
    (limit offset : Int32) (res : Frame) : Access Frame :=
  makeRequestHeader
    { group := group.toInt8, action := action.toInt8, contentType := 0, contentLen := 0,
      bodyLen := 0, token := token.bytes, userId, limit, offset } res

/-- `make_request_auth_register`. -/
def makeRequestAuthRegister (uname password phone email : CStr) (res : Frame) : Access Frame := do
  let sumLen := uname.strlen + password.strlen + phone.strlen + email.strlen
  let res ← makeRequestHeader
    { group := 0, action := 0, contentType := 0, contentLen := UInt32.ofNat (sumLen + 3),
      bodyLen := UInt32.ofNat (sumLen + 3), token := emptyToken.bytes, userId := 0,
      limit := -1, offset := -1 } res
  let res ← clearRequestBody res
  let body := requestHeaderLen
  let res ← res.store body uname.bytes
  let res ← res.store (body + uname.strlen) [bodyDelimiter]
  let body := body + (uname.strlen + 1)
  let res ← res.store body password.bytes
  let res ← res.store (body + password.strlen) [bodyDelimiter]
  let body := body + (password.strlen + 1)
  let res ← res.store body phone.bytes
  let res ← res.store (body + phone.strlen) [bodyDelimiter]
  let body := body + (phone.strlen + 1)
  res.store body email.bytes

/-- `make_request_auth_login`. The second delimiter lies behind `body_len`. -/
def makeRequestAuthLogin (uname password : CStr) (res : Frame) : Access Frame := do
  let sumLen := uname.strlen + password.strlen
  let res ← makeRequestHeader
    { group := 0, action := 1, contentType := 0, contentLen := UInt32.ofNat (sumLen + 1),
      bodyLen := UInt32.ofNat (sumLen + 1), token := emptyToken.bytes, userId := 0,
      limit := -1, offset := -1 } res
  let res ← clearRequestBody res
  let body := requestHeaderLen
  let res ← res.store body uname.bytes
  let res ← res.store (body + uname.strlen) [bodyDelimiter]
  let body := body + (uname.strlen + 1)
  let res ← res.store body password.bytes
  res.store (body + password.strlen) [bodyDelimiter]

/-- A header alone, with no body and no page (`make_request_user_logout` and
    `make_request_msg_notify_new`). -/
def makeRequestBare (token : Token) (group action : Int8) (userId : UInt32)
    (res : Frame) : Access Frame :=
  makeRequestHeader
    { group, action, contentType := 0, contentLen := 0, bodyLen := 0, token := token.bytes,
      userId, limit := -1, offset := -1 } res

def makeRequestUserLogout (token : Token) (userId : UInt32) : Frame → Access Frame :=
  makeRequestBare token 1 0 userId

def makeRequestUserGetInfo (token : Token) (userId userId2 : UInt32) : Frame → Access Frame :=
  makeRequestUint32 token 1 1 userId userId2

/-- `make_request_user_search`: a string body together with a page. -/
def makeRequestUserSearch (token : Token) (userId : UInt32) (uname : CStr)
    (limit offset : Int32) (res : Frame) : Access Frame := do
  let len := UInt32.ofNat uname.strlen
  let res ← makeRequestHeader
    { group := 1, action := 2, contentType := 0, contentLen := len, bodyLen := len,
      token := token.bytes, userId, limit, offset } res
  let res ← clearRequestBody res
  res.store requestHeaderLen uname.bytes

def makeRequestConvCreate (token : Token) (userId : UInt32) (gname : CStr) :
    Frame → Access Frame :=
  makeRequestString token 2 0 userId gname

def makeRequestConvDrop (token : Token) (userId convId : UInt32) : Frame → Access Frame :=
  makeRequestUint32 token 2 1 userId convId

/-- `make_request_conv_join` and `make_request_conv_quit`: a second word behind
    the four bytes that `body_len` counts. -/
def makeRequestConvUser (token : Token) (action : UInt8) (userId convId userId2 : UInt32)
    (res : Frame) : Access Frame := do
  let res ← makeRequestUint32 token 2 action userId convId res
  res.store (requestHeaderLen + 4) (beBytes userId2)

def makeRequestConvJoin (token : Token) (userId convId userId2 : UInt32) : Frame → Access Frame :=
  makeRequestConvUser token 2 userId convId userId2

def makeRequestConvQuit (token : Token) (userId convId userId2 : UInt32) : Frame → Access Frame :=
  makeRequestConvUser token 3 userId convId userId2

def makeRequestConvGetInfo (token : Token) (userId convId : UInt32) : Frame → Access Frame :=
  makeRequestUint32 token 2 4 userId convId

def makeRequestConvGetMembers (token : Token) (userId convId : UInt32) : Frame → Access Frame :=
  makeRequestUint32 token 2 5 userId convId

def makeRequestConvGetList (token : Token) (userId : UInt32) (limit offset : Int32) :
    Frame → Access Frame :=
  makeRequestPage token 2 6 userId limit offset

def makeRequestChatCreate (token : Token) (userId userId2 : UInt32) : Frame → Access Frame :=
  makeRequestUint32 token 3 0 userId userId2

def makeRequestChatDelete (token : Token) (userId chatId : UInt32) : Frame → Access Frame :=
  makeRequestUint32 token 3 1 userId chatId

def makeRequestChatGetList (token : Token) (userId : UInt32) (limit offset : Int32) :
    Frame → Access Frame :=
  makeRequestPage token 3 2 userId limit offset

def makeRequestChatGetInfo (token : Token) (userId chatId : UInt32) : Frame → Access Frame :=
  makeRequestUint32 token 3 3 userId chatId

/-- A body of two room ids (`make_request_msg_get_all` and
    `make_request_msg_notify_del`, which declares a `body_len` of 0 for it). -/
def makeRequestRooms (header : RequestHeader) (convId chatId : UInt32) (res : Frame) :
    Access Frame := do
  let res ← makeRequestHeader header res
  let res ← clearRequestBody res
  let res ← res.store requestHeaderLen (beBytes convId)
  res.store (requestHeaderLen + 4) (beBytes chatId)

def makeRequestMsgGetAll (token : Token) (userId : UInt32) (limit offset : Int32)
    (convId chatId : UInt32) : Frame → Access Frame :=
  makeRequestRooms
    { group := 4, action := 0, contentType := 0, contentLen := 8, bodyLen := 8,
      token := token.bytes, userId, limit, offset } convId chatId

def makeRequestMsgGetDetail (token : Token) (userId msgId : UInt32) : Frame → Access Frame :=
  makeRequestUint32 token 4 1 userId msgId

/-- `make_requests_msg_send_text` and `make_requests_msg_send_file`: three ids
    and a string. -/
def makeRequestsMsgSend (header : RequestHeader) (convId chatId replyTo : UInt32) (text : CStr)
    (res : Frame) : Access Frame := do
  let res ← makeRequestHeader header res
  let res ← clearRequestBody res
  let res ← res.store requestHeaderLen (beBytes convId)
  let res ← res.store (requestHeaderLen + 4) (beBytes chatId)
  let res ← res.store (requestHeaderLen + 8) (beBytes replyTo)
  res.store (requestHeaderLen + 12) text.bytes

def makeRequestsMsgSendText (token : Token) (userId convId chatId replyTo : UInt32) (msg : CStr) :
    Frame → Access Frame :=
  makeRequestsMsgSend
    { group := 4, action := 2, contentType := 0, contentLen := UInt32.ofNat (12 + msg.strlen),
      bodyLen := UInt32.ofNat (12 + msg.strlen), token := token.bytes, userId,
      limit := -1, offset := -1 } convId chatId replyTo msg

def makeRequestsMsgSendFile (token : Token) (userId convId chatId replyTo fsize : UInt32)
    (fname : CStr) : Frame → Access Frame :=
  makeRequestsMsgSend
    { group := 4, action := 2, contentType := 1, contentLen := fsize,
      bodyLen := UInt32.ofNat (12 + fname.strlen), token := token.bytes, userId,
      limit := -1, offset := -1 } convId chatId replyTo fname

def makeRequestMsgDelete (token : Token) (userId msgId : UInt32) : Frame → Access Frame :=
  makeRequestUint32 token 4 3 userId msgId

def makeRequestMsgNotifyNew (token : Token) (userId : UInt32) : Frame → Access Frame :=
  makeRequestBare token 4 4 userId

def makeRequestMsgNotifyDel (token : Token) (userId convId chatId : UInt32) :
    Frame → Access Frame :=
  makeRequestRooms
    { group := 4, action := 5, contentType := 0, contentLen := 0, bodyLen := 0,
      token := token.bytes, userId, limit := -1, offset := -1 } convId chatId

def makeRequestMsgFileDownload (token : Token) (userId msgId : UInt32) : Frame → Access Frame :=
  makeRequestUint32 token 4 6 userId msgId

end MeshChat
