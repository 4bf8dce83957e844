import MeshChat.Db.Sql
import MeshChat.Wire.Request
import MeshChat.Wire.Response

/-! # The request handlers (`handler.c`)

    Each handler as a program over the calls of `sql.c`, from the parsed request
    to the frames it hands to `write`.

    * `Env`: what a handler takes from outside: the token check, the clock, MD5
      and the fate of an uploaded file.
    * `Handled`: the frames, and whether the C code does something undefined (a
      field of a row that is `NULL`, a string offset behind its end).
    * `Route`: the cases of the switch in `handle_req`; `Request.route` is the
      switch.
    * `handleReq`: `handle_req` behind `request_parse`.
-/

namespace MeshChat

open CMemory SqlLex Prog

/-! ## The environment -/

/-- How receiving the file of a message ends. -/
inductive Upload where
  | openFailed
  | pollFailed
  /-- A timeout or a failed read or write; the connection is closed. -/
  | aborted
  | closeFailed
  | received
  deriving DecidableEq

/-- What a handler takes from outside. -/
structure Env where
  /-- `verify_token` returns a positive number. -/
  verified : Bool
  /-- `make_token` for the address of the client. -/
  makeToken : UInt32 → Token
  /-- MD5; `none` is a failure of the library. -/
  md5 : CStr → Option (Vector UInt8 16)
  /-- `time(NULL)` in `msg_send` and in `process_fname`. -/
  now : UInt32
  fnameTime : Nat
  upload : Upload

/-- What is left of handling a request. -/
structure Handled where
  sent : List ResponseCall := []
  undefined : Bool := false
  deriving DecidableEq

/-! ## Helpers -/

def hexDigit (n : UInt8) : UInt8 := if n < 10 then 48 + n else 87 + n

/-- `hash_str`: the digest in hexadecimal. -/
def hashStr (env : Env) (str : CStr) : Option CStr :=
  (env.md5 str).map fun digest =>
    .ofBytes (digest.toList.flatMap fun b => [hexDigit (b / 16), hexDigit (b % 16)])

/-- The position of the last dot. -/
def lastDot (name : List UInt8) : Option Nat :=
  (name.reverse.findIdx? (· = 46)).map (name.length - 1 - ·)

/-- `process_fname`: the hash of the name up to its last dot and the time, and the
    rest of the name. A name without a dot is left out altogether. `none` is an
    access outside the local array of 1024 bytes, or an unfinished hash. -/
def processFname (env : Env) (fname : CStr) : Option CStr :=
  let i := (lastDot fname.bytes).getD 0
  let stem := fname.bytes.take i ++ (decimal env.fnameTime).take 19
  if 1024 ≤ fname.strlen ∨ 1024 ≤ stem.length then none
  else (hashStr env (.ofBytes stem)).map fun hash =>
    .ofBytes (hash.bytes ++ if i = 0 then [] else fname.bytes.drop i)

/-- The directory of uploaded files. -/
def storage : List UInt8 := ascii "./storage/"

/-- The path of an uploaded file, held in 1024 bytes. -/
def storagePath (env : Env) (fname : CStr) : Option CStr :=
  match processFname env fname with
  | none => none
  | some name => if 1024 ≤ storage.length + name.strlen then none else some (.ofBytes (storage ++ name.bytes))

/-- `SEND_RESPONSE`. -/
def respond (r : ResponseCall) : SqlProg Handled := return { sent := [r] }

/-- `RESPONSE_ERR`. -/
def responseErr (status : UInt32) (group action : UInt8) : SqlProg Handled :=
  respond (.err status group action)

def undefinedBehaviour : SqlProg Handled := return { undefined := true }

/-- Use a pointer that must not be `NULL`. -/
def deref {α : Type} (p : Option α) (k : α → SqlProg Handled) : SqlProg Handled :=
  match p with
  | some a => k a
  | none => undefinedBehaviour

/-- Negative limits and offsets count as 0. -/
def clampPage (n : Int32) : Int32 := if 0 < n then n else 0

/-- Handlers that answer with a list of ids. -/
def respondList (list : SqlProg (List UInt32 × Rc)) (group action : UInt8)
    (response : List UInt32 → ResponseCall) : SqlProg Handled := do
  let (ls, rc) ← list
  if sqlIsErr rc then responseErr 500 group action else respond (response ls)

/-- The membership check of the message handlers: a member of the conversation or
    of the chat may go on. -/
def ifRoomMember (convId chatId userId : UInt32) (action : UInt8) (k : SqlProg Handled) :
    SqlProg Handled := do
  let (isMember, rc) ← convIsMember convId userId
  if sqlIsErr rc then responseErr 500 4 action
  else if isMember then k
  else
    -- both ids come from the request, and one membership is enough
    let (isMember, rc) ← chatIsMember chatId userId
    if sqlIsErr rc then responseErr 500 4 action
    else if isMember then k
    else responseErr 403 4 action

/-- The message handlers that first read a message and check membership of its
    room. -/
def ifReadable (msgId userId : UInt32) (action : UInt8) (k : MsgSchema → SqlProg Handled) :
    SqlProg Handled := do
  let (msg, rc) ← msgGetDetail msgId
  if sqlIsErr rc then responseErr 500 4 action
  else if rc = .empty then responseErr 404 4 action
  -- the room is that of the row, and not one that the request names
  else deref msg fun msg => ifRoomMember msg.convId msg.chatId userId action (k msg)

/-! ## Users -/

def handleAuthRegister (env : Env) (ra : RequestAuth) : SqlProg Handled :=
  deref ra.uname fun uname => deref ra.password fun password =>
  deref ra.phone fun phone => deref ra.email fun email =>
  match hashStr env password with
  -- MD5 of the library may fail
  | none => responseErr 500 0 0
  | some hashed => do
    let (id, rc) ← userCreate uname hashed phone email
    if sqlIsErr rc then
      if rc = .constraint then responseErr 409 0 0 else responseErr 500 0 0
    else respond (.authRegister 201 (env.makeToken id) id)

def handleAuthLogin (env : Env) (ra : RequestAuth) : SqlProg Handled :=
  deref ra.uname fun uname => deref ra.password fun password => do
    let (user, rc) ← userGetByUname uname
    if sqlIsErr rc then responseErr 500 0 1
    else if rc = .empty then responseErr 404 0 1
    else
      -- here the result of `hash_str` is not looked at
      deref (hashStr env password) fun hashed => deref user fun user =>
      if hashed ≠ user.password then responseErr 403 0 1
      else respond (.authLogin 200 (env.makeToken user.id) user.id)

def handleUserGetInfo (ru : RequestUser) : SqlProg Handled := do
  let (user, rc) ← userGetById ru.userId
  if sqlIsErr rc then responseErr 500 1 1
  else if rc = .empty then responseErr 404 1 1
  else deref user fun user => respond (.userGetInfo 200 user.uname user.phone user.email)

def handleUserSearch (header : RequestHeader) (ru : RequestUser) : SqlProg Handled :=
  deref ru.uname fun uname =>
  respondList (userSearchByUname uname (clampPage header.limit) (clampPage header.offset)) 1 2
    (.userSearch 200)

/-! ## Conversations -/

def handleConvCreate (header : RequestHeader) (rconv : RequestConv) : SqlProg Handled :=
  deref rconv.gname fun gname => do
    let (id, rc) ← convCreate header.userId gname
    if sqlIsErr rc then responseErr 500 2 0 else respond (.convCreate 201 id)

/-- `handle_conv_drop`; its first errors carry action 4. -/
def handleConvDrop (header : RequestHeader) (rconv : RequestConv) : SqlProg Handled := do
  let (isAdmin, rc) ← convIsAdmin rconv.convId header.userId
  if sqlIsErr rc then responseErr 500 2 4
  else if !isAdmin then responseErr 403 2 4
  else
    let rc ← convDrop rconv.convId
    if sqlIsErr rc then responseErr 500 2 1 else respond (.convDrop 200)

/-- `handle_conv_join`; its first errors carry action 4. -/
def handleConvJoin (header : RequestHeader) (rconv : RequestConv) : SqlProg Handled := do
  let (isMember, rc) ← convIsMember rconv.convId header.userId
  if sqlIsErr rc then responseErr 500 2 4
  else if !isMember then responseErr 403 2 4
  else
    let rc ← convJoin rconv.userId rconv.convId
    if sqlIsErr rc then responseErr 500 2 2 else respond (.convJoin 200)

/-- `handle_conv_quit`. It removes the user who asks, whoever is named. -/
def handleConvQuit (header : RequestHeader) (rconv : RequestConv) : SqlProg Handled := do
  let (isMember, rc) ← convIsMember rconv.convId header.userId
  if sqlIsErr rc then responseErr 500 2 3
  else if !isMember then responseErr 403 2 3
  else
    let (isAdmin, rc) ← convIsAdmin rconv.convId header.userId
    if sqlIsErr rc then responseErr 500 2 3
    -- only the admin may name somebody else
    else if rconv.userId ≠ header.userId ∧ !isAdmin then responseErr 403 2 3
    -- an error frame, with the status of a success
    else if rconv.userId = header.userId ∧ isAdmin then responseErr 204 2 3
    else
      let rc ← convQuit header.userId rconv.convId
      if sqlIsErr rc then responseErr 500 2 3 else respond (.convQuit 200)

def handleConvGetInfo (rconv : RequestConv) : SqlProg Handled := do
  let (conv, rc) ← convGetInfo rconv.convId
  if sqlIsErr rc then responseErr 500 2 4
  else if rc = .empty then responseErr 404 2 4
  else deref conv fun conv => respond (.convGetInfo 200 conv.adminId conv.name)

def handleConvGetMembers (header : RequestHeader) (rconv : RequestConv) : SqlProg Handled := do
  let (isMember, rc) ← convIsMember rconv.convId header.userId
  if sqlIsErr rc then responseErr 500 2 5
  else if !isMember then responseErr 403 2 5
  else respondList (convGetMembers rconv.convId) 2 5 (.convGetMembers 200)

def handleConvGetList (header : RequestHeader) : SqlProg Handled :=
  respondList (userGetConvList header.userId (clampPage header.limit) (clampPage header.offset)) 2 6
    (.convGetList 200)

/-! ## Chats -/

def handleChatCreate (header : RequestHeader) (rchat : RequestChat) : SqlProg Handled :=
  if header.userId = rchat.userId2 then responseErr 403 3 0
  else do
    let (id, rc) ← chatCreate header.userId rchat.userId2
    if sqlIsErr rc then
      if rc = .constraint then responseErr 409 3 0 else responseErr 500 3 0
    else respond (.chatCreate 201 id)

def handleChatDrop (header : RequestHeader) (rchat : RequestChat) : SqlProg Handled := do
  let (isMember, rc) ← chatIsMember rchat.chatId header.userId
  if sqlIsErr rc then responseErr 500 3 1
  else if !isMember then responseErr 403 3 1
  else
    let rc ← chatDrop rchat.chatId
    if sqlIsErr rc then responseErr 500 3 1 else respond (.chatDelete 200)

def handleChatGetList (header : RequestHeader) : SqlProg Handled :=
  respondList (userGetChatList header.userId (clampPage header.limit) (clampPage header.offset)) 3 2
    (.chatGetList 200)

/-- `handle_chat_get_info`. An absent chat is not an error for `sql_is_err`, so
    that its `NULL` is used. -/
def handleChatGetInfo (header : RequestHeader) (rchat : RequestChat) : SqlProg Handled := do
  let (chat, rc) ← chatGetInfo rchat.chatId
  if sqlIsErr rc then responseErr 500 3 3
  else deref chat fun chat =>
    if chat.member1 ≠ header.userId ∧ chat.member2 ≠ header.userId then responseErr 403 3 3
    else respond (.chatGetInfo 200 chat.member1 chat.member2)

/-! ## Messages -/

def handleMsgGetAll (header : RequestHeader) (rm : RequestMsgBody) : SqlProg Handled :=
  let list :=
    -- the list is of the chat whenever one is named, also for a member of the conversation
    if 0 < rm.chatId then
      msgChatGetAll rm.chatId (clampPage header.limit) (clampPage header.offset)
    else msgConvGetAll rm.convId (clampPage header.limit) (clampPage header.offset)
  ifRoomMember rm.convId rm.chatId header.userId 0 do
    let (ls, rc) ← list
    if sqlIsErr rc then responseErr 500 4 0
    else if rc = .empty then responseErr 404 4 0
    else respond (.msgGetAll 200 ls)

/-- The fields of a message as they are sent. -/
def MsgSchema.detail (msg : MsgSchema) : MsgDetail where
  msgId := msg.id
  fromUid := msg.fromUid
  replyTo := msg.replyTo
  convId := msg.convId
  chatId := msg.chatId
  createdAt := msg.createdAt
  msgType := msg.type.toInt8.toUInt8
  contentType := msg.contentType.toInt8.toUInt8
  contentLength := msg.contentLength
  msgContent := msg.content

/-- `handle_msg_get_detail`. The message is marked as delivered behind the
    response. -/
def handleMsgGetDetail (header : RequestHeader) (rm : RequestMsgBody) : SqlProg Handled :=
  ifReadable rm.msgId header.userId 1 fun msg => do
    let _ ← msgDelivered rm.msgId
    respond (.msgGetDetail 200 msg.detail)

/-- The insert of `handle_msg_send` and its answer. -/
def sendMsg (env : Env) (msg : MsgSchema) : SqlProg Handled := do
  let (id, rc) ← msgSend msg env.now
  if sqlIsErr rc then
    if rc = .constraint then responseErr 409 4 2 else responseErr 500 4 2
  else respond (.msgSend 201 id)

/-- `handle_msg_send`; the errors of its check carry action 3. -/
def handleMsgSend (env : Env) (header : RequestHeader) (rm : RequestMsgBody) : SqlProg Handled :=
  deref rm.msgContent fun content =>
  ifRoomMember rm.convId rm.chatId header.userId 3
    (let msg : MsgSchema :=
      { fromUid := header.userId, replyTo := rm.replyId,
        contentType := header.contentType.toUInt32.toInt32, contentLength := 0, content,
        convId := rm.convId, chatId := rm.chatId }
    if header.contentType = msgText then
      -- the three ids in front of the text are counted by the client
      sendMsg env { msg with contentLength := header.contentLen - 12 }
    else if header.contentType = msgFile then
      deref (storagePath env content) fun path =>
      match env.upload with
      | .openFailed | .pollFailed | .closeFailed => responseErr 500 4 2
      -- `FILE_ERROR_HANDLING` closes the connection and returns
      | .aborted => return {}
      | .received =>
        sendMsg env { msg with contentLength := header.contentLen, content := path }
    else responseErr 400 4 2)

def handleMsgDelete (header : RequestHeader) (rm : RequestMsgBody) : SqlProg Handled :=
  ifReadable rm.msgId header.userId 3 fun msg => do
    let rc ← msgDelete msg.id
    if sqlIsErr rc then responseErr 500 4 3 else respond (.msgDelete 200)

def handleNotifyNewMsg (header : RequestHeader) : SqlProg Handled :=
  respondList (msgGetMsgSent header.userId) 4 4 (.msgNotifyNew 200)

/-- `handle_notify_del_msg`; its error carries action 4. -/
def handleNotifyDelMsg (header : RequestHeader) (rm : RequestMsgBody) : SqlProg Handled :=
  respondList (msgGetMsgDel header.userId rm.convId rm.chatId) 4 4 (.msgNotifyDel 200)

/-- `handle_msg_download_file`, without the file data that follows the frame. The
    name sent is the content behind the directory. -/
def handleMsgDownloadFile (header : RequestHeader) (rm : RequestMsgBody) : SqlProg Handled :=
  ifReadable rm.msgId header.userId 6 fun msg =>
    if msg.contentType.toInt ≠ msgFile.toNat then responseErr 400 4 6
    -- the pointer would be moved behind the end of the content
    else if msg.content.strlen < storage.length then undefinedBehaviour
    else respond (.msgDownloadFile 200 msg.contentLength
      (.ofBytes (msg.content.bytes.drop storage.length)))

/-! ## The switch -/

/-- The cases of the switch in `handle_req`, with the part of the body each of
    them reads. -/
inductive Route where
  | authRegister (ra : RequestAuth)
  | authLogin (ra : RequestAuth)
  | userLogout
  | userGetInfo (ru : RequestUser)
  | userSearch (ru : RequestUser)
  | convCreate (rconv : RequestConv)
  | convDrop (rconv : RequestConv)
  | convJoin (rconv : RequestConv)
  | convQuit (rconv : RequestConv)
  | convGetInfo (rconv : RequestConv)
  | convGetMembers (rconv : RequestConv)
  | convGetList
  | chatCreate (rchat : RequestChat)
  | chatDrop (rchat : RequestChat)
  | chatGetList
  | chatGetInfo (rchat : RequestChat)
  | msgGetAll (rm : RequestMsgBody)
  | msgGetDetail (rm : RequestMsgBody)
  | msgSend (rm : RequestMsgBody)
  | msgDelete (rm : RequestMsgBody)
  | notifyNewMsg
  | notifyDelMsg (rm : RequestMsgBody)
  | msgDownloadFile (rm : RequestMsgBody)
  deriving DecidableEq

/-- The switch on group and action. The body is the one the parser fills for the
    group. -/
def Request.route (req : Request) : Option Route :=
  match req.header.group.toInt, req.header.action.toInt, req.body with
  | 0, 0, .auth r => some (.authRegister r)
  | 0, 1, .auth r => some (.authLogin r)
  | 1, 0, .user _ => some .userLogout
  | 1, 1, .user r => some (.userGetInfo r)
  | 1, 2, .user r => some (.userSearch r)
  | 2, 0, .conv r => some (.convCreate r)
  | 2, 1, .conv r => some (.convDrop r)
  | 2, 2, .conv r => some (.convJoin r)
  | 2, 3, .conv r => some (.convQuit r)
  | 2, 4, .conv r => some (.convGetInfo r)
  | 2, 5, .conv r => some (.convGetMembers r)
  | 2, 6, .conv _ => some .convGetList
  | 3, 0, .chat r => some (.chatCreate r)
  | 3, 1, .chat r => some (.chatDrop r)
  | 3, 2, .chat _ => some .chatGetList
  | 3, 3, .chat r => some (.chatGetInfo r)
  | 4, 0, .msg r => some (.msgGetAll r)
  | 4, 1, .msg r => some (.msgGetDetail r)
  | 4, 2, .msg r => some (.msgSend r)
  | 4, 3, .msg r => some (.msgDelete r)
  | 4, 4, .msg _ => some .notifyNewMsg
  | 4, 5, .msg r => some (.notifyDelMsg r)
  | 4, 6, .msg r => some (.msgDownloadFile r)
  | _, _, _ => none

/-- The handler of a case. -/
def Route.handle (env : Env) (header : RequestHeader) : Route → SqlProg Handled
  | authRegister r => handleAuthRegister env r
  | authLogin r => handleAuthLogin env r
  | userLogout => respond (.userLogout 200)
  | userGetInfo r => handleUserGetInfo r
  | userSearch r => handleUserSearch header r
  | convCreate r => handleConvCreate header r
  | convDrop r => handleConvDrop header r
  | convJoin r => handleConvJoin header r
  | convQuit r => handleConvQuit header r
  | convGetInfo r => handleConvGetInfo r
  | convGetMembers r => handleConvGetMembers header r
  | convGetList => handleConvGetList header
  | chatCreate r => handleChatCreate header r
  | chatDrop r => handleChatDrop header r
  | chatGetList => handleChatGetList header
  | chatGetInfo r => handleChatGetInfo header r
  | msgGetAll r => handleMsgGetAll header r
  | msgGetDetail r => handleMsgGetDetail header r
  | msgSend r => handleMsgSend env header r
  | msgDelete r => handleMsgDelete header r
  | notifyNewMsg => handleNotifyNewMsg header
  | notifyDelMsg r => handleNotifyDelMsg header r
  | msgDownloadFile r => handleMsgDownloadFile header r

/-- `handle_req` behind `request_parse`. All groups but 0 need a token. -/
def handleReq (env : Env) : Option Request → SqlProg Handled
  | none => responseErr 400 0xFF 0xFF
  | some req =>
    if req.header.group ≠ 0 ∧ !env.verified then
      responseErr 403 req.header.group.toUInt8 req.header.action.toUInt8
    else
      match req.route with
      | some route => route.handle env req.header
      -- `default` of the switch: no answer
      | none => return {}

end MeshChat
