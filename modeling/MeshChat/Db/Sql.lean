import MeshChat.Db.Connection
import MeshChat.Db.SqlText

/-! # The operations of `sql.c`

    Each function of `sql.c` as a program over the calls of `Connection`. A
    function that stores a result code in `*lastrc` returns it beside its value;
    `NULL` is `none`. `Op` lists all operations with their arguments.
-/

namespace MeshChat

open CMemory SqlLex Prog

/-! ## Statements with client text -/

/-- The statement an `INSERT` with client text is. Losing the final semicolon
    leaves a complete statement; any other cut leaves an open literal or an open
    list of values. -/
def TextQuery.insertStmt (q : TextQuery) (s : Stmt) : Stmt :=
  if ¬ q.QuoteFree then .raw
  else if q.template.text.length ≤ q.room then s
  else .malformed

/-- The number a token stands for. -/
def Token.number? : Token → Option Nat
  | .word w =>
    if w ≠ [] ∧ w.all (fun b => 48 ≤ b && b ≤ 57) then
      some (w.foldl (fun n b => n * 10 + (b.toNat - 48)) 0)
    else none
  | _ => none

/-- The number at the front of a list of tokens, and the rest. -/
def signedNumber : List Token → Option (Int × List Token)
  | .punct 45 :: t :: ts => (Token.number? t).map fun n => (-(n : Int), ts)
  | t :: ts => (Token.number? t).map fun n => ((n : Int), ts)
  | [] => none

/-- The limit and offset a search asks for when its text was cut. -/
def cutPage : List Token → Option (Int × Int)
  | [] => some (-1, 0)
  | t :: ts =>
    if t = .word (ascii "LIMIT") then
      match signedNumber ts with
      | some (l, []) => some (l, 0)
      | some (l, t :: ts) =>
        if t = .word (ascii "OFFSET") then
          match signedNumber ts with
          | some (o, []) => some (l, o)
          | _ => none
        else none
      | none => none
    else none

/-- The query of a search. A cut can fall behind the literal, where what is left
    of the clauses may still be a query. -/
def searchQuery (uname : CStr) (limit offset : Int32) : Query :=
  let q := TextQuery.userSearchByUname uname limit offset
  let pattern := ascii "%" ++ uname.bytes ++ ascii "%"
  if ¬ q.QuoteFree then .raw
  else if q.Fits then .userSearch pattern limit.toInt offset.toInt
  else match (lex q.built).drop 7 with
    | .str p :: ts =>
      match cutPage ts with
      | some (l, o) => .userSearch p l o
      | none => .malformed
    | _ => .malformed

/-- The query of `user_get_by_uname`; a cut opens its literal. -/
def unameQuery (uname : CStr) : Query :=
  let q := TextQuery.userGetByUname uname
  if ¬ q.QuoteFree then .raw else if q.Fits then .userByUname uname else .malformed

/-! ## Shared shapes -/

/-- `sql_insert`. -/
def sqlInsert (query : Stmt) : SqlProg (UInt32 × Rc) := do
  let r ← invoke (.prepare query)
  if r.rc ≠ .ok then return (0, r.rc) else
  let _ ← invoke .lock
  let r ← invoke (.step query)
  if r.rc ≠ .done then
    let _ ← invoke .unlock
    return (0, r.rc)
  else
  -- the mutex is held from before the insert to here, so the rowid is its own
  let newid ← invoke .lastInsertRowid
  let _ ← invoke .unlock
  return (UInt32.ofNat newid.rowid, .ok)

/-- `sql_get_list`: column 0 of every row, the last row first. A failing step
    ends the loop, but its code is overwritten. -/
def sqlGetList (query : Query) : SqlProg (List UInt32 × Rc) := do
  let r ← invoke (.prepareQuery query)
  if r.rc ≠ .ok then return ([], r.rc) else
  let (rows, _) ← collect (.fetch query) (·.rc = .row)
  return (rows.reverse.map fun r => (r.cols.getD 0 .null).columnInt, .ok)

/-- The functions that look at the first row of a query: `f` makes their result
    of its columns. -/
def sqlFirstRow {α : Type} (query : Query) (f : List Val → α) : SqlProg (Option α × Rc) := do
  let r ← invoke (.prepareQuery query)
  if r.rc ≠ .ok then return (none, r.rc) else
  let r ← invoke (.fetch query 0)
  -- the end of the rows is reported as `SQLITE_EMPTY`
  if r.rc ≠ .row then return (none, if r.rc = .done then .empty else r.rc)
  else return (some (f r.cols), .ok)

/-- The same behind the `calloc` of the result. -/
def sqlGetInfo {α : Type} (query : Query) (f : List Val → α) : SqlProg (Option α × Rc) := do
  let r ← invoke .calloc
  if r.rc = .nomem then return (none, .nomem) else sqlFirstRow query f

/-- The functions that ask whether a row exists. -/
def sqlExists (query : Query) : SqlProg (Bool × Rc) := do
  let (row, rc) ← sqlFirstRow query fun _ => ()
  return (row.isSome, rc)

/-- `ROLLBACK()`, and the code that made it necessary. -/
def rollback {α : Type} (a : α) (rc : Rc) : SqlProg (α × Rc) := do
  let _ ← invoke (.exec [.rollback])
  return (a, rc)

/-- One statement, with the code as it is. -/
def sqlExec (s : Stmt) : SqlProg Rc := do
  let r ← invoke (.exec [s])
  return r.rc

/-- One statement whose code is overwritten with `SQLITE_OK`. -/
def sqlExecIgnored (s : Stmt) : SqlProg Rc := do
  let _ ← invoke (.exec [s])
  return .ok

/-- The statements of a transaction behind its `BEGIN`, then `COMMIT`; the first
    failure rolls back. -/
def commitAfter : List Stmt → SqlProg Rc
  | [] => do
    let r ← invoke (.exec [.commit])
    if r.rc ≠ .ok then
      let (_, rc) ← rollback () r.rc
      return rc
    else return .ok
  | s :: ss => do
    let r ← invoke (.exec [s])
    if r.rc ≠ .ok then
      let (_, rc) ← rollback () r.rc
      return rc
    else commitAfter ss

/-! ## Users -/

/-- `user_schema`. -/
structure UserSchema where
  id : UInt32
  uname : CStr
  password : CStr
  phone : CStr := default
  email : CStr := default
  deriving DecidableEq

def userGetById (id : UInt32) : SqlProg (Option UserSchema × Rc) :=
  sqlGetInfo (.userById id.toNat) fun cols =>
    { id, uname := (cols.getD 1 .null).columnText, password := (cols.getD 2 .null).columnText,
      phone := (cols.getD 3 .null).columnText, email := (cols.getD 4 .null).columnText }

def userGetByUname (uname : CStr) : SqlProg (Option UserSchema × Rc) :=
  sqlGetInfo (unameQuery uname) fun cols =>
    { id := (cols.getD 0 .null).columnInt, uname, password := (cols.getD 2 .null).columnText }

/-- Written out in the source, but the same loop as `sql_get_list`. -/
def userSearchByUname (uname : CStr) (limit offset : Int32) : SqlProg (List UInt32 × Rc) :=
  sqlGetList (searchQuery uname limit offset)

def userCreate (uname password phone email : CStr) : SqlProg (UInt32 × Rc) :=
  sqlInsert ((TextQuery.userCreate uname password phone email).insertStmt
    (.insertUser uname password phone email))

def userDrop (id : UInt32) : SqlProg Rc := do
  let r ← invoke (.prepare (.deleteUser id.toNat))
  if r.rc ≠ .ok then return r.rc else
  let r ← invoke (.step (.deleteUser id.toNat))
  if r.rc ≠ .done then return r.rc else return .ok

def userGetConvList (userId : UInt32) (limit offset : Int32) : SqlProg (List UInt32 × Rc) :=
  sqlGetList (.convsOfUser userId.toNat limit.toInt offset.toInt)

def userGetChatList (userId : UInt32) (limit offset : Int32) : SqlProg (List UInt32 × Rc) :=
  sqlGetList (.chatsOfUser userId.toNat limit.toInt offset.toInt)

/-! ## Conversations -/

/-- `conv_schema`. -/
structure ConvSchema where
  id : UInt32
  adminId : UInt32
  name : CStr
  deriving DecidableEq

/-- `conv_create`. The mutex is released only when the first insert succeeds, and
    the second insert runs without it. -/
def convCreate (adminId : UInt32) (name : CStr) : SqlProg (UInt32 × Rc) := do
  let r ← invoke (.exec [.pragmaForeignKeysOn, .begin])
  if r.rc ≠ .ok then return (0, r.rc) else
  let _ ← invoke .lock
  let r ← invoke (.exec [(TextQuery.convCreate adminId name).insertStmt
    (.insertConversation adminId.toNat name)])
  -- read before the code of the insert is tested
  let newid ← invoke .lastInsertRowid
  -- this way out keeps the mutex
  if r.rc ≠ .ok then rollback 0 r.rc else
  let _ ← invoke .unlock
  let r ← invoke (.exec [.insertMemberOfLast adminId.toNat])
  if r.rc ≠ .ok then rollback 0 r.rc else
  let r ← invoke (.exec [.commit])
  if r.rc ≠ .ok then rollback 0 r.rc else
  return (UInt32.ofNat newid.rowid, .ok)

def convIsAdmin (convId userId : UInt32) : SqlProg (Bool × Rc) :=
  sqlExists (.convAdmin convId.toNat userId.toNat)

def convIsMember (convId userId : UInt32) : SqlProg (Bool × Rc) :=
  sqlExists (.convMember convId.toNat userId.toNat)

/-- `conv_drop`; a failed `BEGIN` is rolled back too. -/
def convDrop (convId : UInt32) : SqlProg Rc :=
  let c := convId.toNat
  do
  let r ← invoke (.exec [.begin])
  if r.rc ≠ .ok then
    let (_, rc) ← rollback () r.rc
    return rc
  else commitAfter [.deleteMessagesOfConv c, .deleteMembersOf c, .deleteConversation c]

def convJoin (userId convId : UInt32) : SqlProg Rc := do
  let (_, rc) ← sqlInsert (.insertMember convId.toNat userId.toNat)
  return rc

def convQuit (userId convId : UInt32) : SqlProg Rc :=
  sqlExec (.deleteMember convId.toNat userId.toNat)

def convGetInfo (convId : UInt32) : SqlProg (Option ConvSchema × Rc) :=
  sqlGetInfo (.convById convId.toNat) fun cols =>
    { id := convId, adminId := (cols.getD 1 .null).columnInt,
      name := (cols.getD 2 .null).columnText }

def convGetMembers (convId : UInt32) : SqlProg (List UInt32 × Rc) :=
  sqlGetList (.membersOf convId.toNat)

/-! ## Chats -/

/-- `chat_schema`. -/
structure ChatSchema where
  id : UInt32
  member1 : UInt32
  member2 : UInt32
  deriving DecidableEq

def chatCreate (member1 member2 : UInt32) : SqlProg (UInt32 × Rc) := do
  let r ← invoke (.exec [.pragmaForeignKeysOn])
  if r.rc ≠ .ok then return (0, r.rc) else
  -- the `PRAGMA` is what makes both members be looked up
  sqlInsert (.insertChat member1.toNat member2.toNat)

def chatIsMember (chatId userId : UInt32) : SqlProg (Bool × Rc) :=
  sqlExists (.chatMember chatId.toNat userId.toNat)

/-- `chat_drop`; a failed `BEGIN` is rolled back too. -/
def chatDrop (chatId : UInt32) : SqlProg Rc :=
  let c := chatId.toNat
  do
  let r ← invoke (.exec [.begin])
  if r.rc ≠ .ok then
    let (_, rc) ← rollback () r.rc
    return rc
  else commitAfter [.deleteMessagesOfChat c, .deleteChat c]

def chatGetInfo (chatId : UInt32) : SqlProg (Option ChatSchema × Rc) :=
  sqlGetInfo (.chatById chatId.toNat) fun cols =>
    { id := chatId, member1 := (cols.getD 1 .null).columnInt,
      member2 := (cols.getD 2 .null).columnInt }

/-! ## Messages -/

/-- `msg_schema`. -/
structure MsgSchema where
  id : UInt32 := 0
  fromUid : UInt32
  replyTo : UInt32
  contentType : Int32
  contentLength : UInt32
  content : CStr
  createdAt : UInt32 := 0
  convId : UInt32
  chatId : UInt32
  type : Int32 := 0
  deriving DecidableEq

def msgConvGetAll (convId : UInt32) (limit offset : Int32) : SqlProg (List UInt32 × Rc) :=
  sqlGetList (.messagesOfConv convId.toNat limit.toInt offset.toInt)

def msgChatGetAll (chatId : UInt32) (limit offset : Int32) : SqlProg (List UInt32 × Rc) :=
  sqlGetList (.messagesOfChat chatId.toNat limit.toInt offset.toInt)

def msgGetDetail (msgId : UInt32) : SqlProg (Option MsgSchema × Rc) :=
  sqlGetInfo (.messageById msgId.toNat) fun cols =>
    { id := msgId
      fromUid := (cols.getD 1 .null).columnInt
      replyTo := (cols.getD 2 .null).columnInt
      contentType := (cols.getD 3 .null).columnInt.toInt32
      contentLength := (cols.getD 4 .null).columnInt
      content := (cols.getD 5 .null).columnText
      createdAt := (cols.getD 6 .null).columnInt
      chatId := (cols.getD 7 .null).columnInt
      convId := (cols.getD 8 .null).columnInt
      type := (cols.getD 9 .null).columnInt.toInt32 }

/-- An id that is written as `NULL` when it is 0. -/
def nullable (n : UInt32) : Option Nat := if n = 0 then none else some n.toNat

/-- The message that `msg_send` inserts; `now` is `time(NULL)`. -/
def MsgSchema.newMsg (msg : MsgSchema) (now : UInt32) : NewMsg where
  fromUid := msg.fromUid.toNat
  replyTo := nullable msg.replyTo
  contentType := msg.contentType.toInt
  contentLength := msg.contentLength.toNat
  content := msg.content
  createdAt := now.toNat
  chatId := nullable msg.chatId
  convId := nullable msg.convId

def msgSendStmt (msg : MsgSchema) (now : UInt32) : Stmt :=
  (TextQuery.msgSend msg.fromUid msg.replyTo msg.contentType msg.contentLength msg.content now
    msg.chatId msg.convId).insertStmt (.insertMessage (msg.newMsg now))

/-- `msg_send`. The mutex is released only when the insert succeeds. -/
def msgSend (msg : MsgSchema) (now : UInt32) : SqlProg (UInt32 × Rc) := do
  let r ← invoke (.exec [.pragmaForeignKeysOn])
  -- the second way out keeps the mutex, and the first has not taken it
  if r.rc ≠ .ok then return (0, r.rc) else
  let _ ← invoke .lock
  let r ← invoke (.exec [msgSendStmt msg now])
  let newmsg ← invoke .lastInsertRowid
  if r.rc ≠ .ok then return (0, r.rc) else
  let _ ← invoke .unlock
  return (UInt32.ofNat newmsg.rowid, .ok)

def msgDelivered (msgId : UInt32) : SqlProg Rc :=
  sqlExecIgnored (.setMessageType msgId.toNat .delivered)

def msgDelete (msgId : UInt32) : SqlProg Rc := sqlExecIgnored (.clearMessage msgId.toNat)

def msgDrop (msgId : UInt32) : SqlProg Rc := sqlExecIgnored (.deleteMessage msgId.toNat)

def msgGetMsgSent (userId : UInt32) : SqlProg (List UInt32 × Rc) :=
  sqlGetList (.sentTo userId.toNat)

/-- `msg_get_msg_del`; without a room the query is the empty text. -/
def msgGetMsgDel (userId convId chatId : UInt32) : SqlProg (List UInt32 × Rc) :=
  sqlGetList
    -- a conversation hides a chat that is named with it
    (if convId ≠ 0 then .deletedInConv userId.toNat convId.toNat
     else if chatId ≠ 0 then .deletedInChat userId.toNat chatId.toNat
     else .empty)

/-! ## All operations -/

/-- A call of a function of `sql.c`. -/
inductive Op where
  | userGetById (id : UInt32)
  | userGetByUname (uname : CStr)
  | userSearchByUname (uname : CStr) (limit offset : Int32)
  | userCreate (uname password phone email : CStr)
  | userDrop (id : UInt32)
  | userGetConvList (userId : UInt32) (limit offset : Int32)
  | userGetChatList (userId : UInt32) (limit offset : Int32)
  | convCreate (adminId : UInt32) (name : CStr)
  | convIsAdmin (convId userId : UInt32)
  | convIsMember (convId userId : UInt32)
  | convDrop (convId : UInt32)
  | convJoin (userId convId : UInt32)
  | convQuit (userId convId : UInt32)
  | convGetInfo (convId : UInt32)
  | convGetMembers (convId : UInt32)
  | chatCreate (member1 member2 : UInt32)
  | chatIsMember (chatId userId : UInt32)
  | chatDrop (chatId : UInt32)
  | chatGetInfo (chatId : UInt32)
  | msgConvGetAll (convId : UInt32) (limit offset : Int32)
  | msgChatGetAll (chatId : UInt32) (limit offset : Int32)
  | msgGetDetail (msgId : UInt32)
  | msgSend (msg : MsgSchema) (now : UInt32)
  | msgDelivered (msgId : UInt32)
  | msgDelete (msgId : UInt32)
  | msgDrop (msgId : UInt32)
  | msgGetMsgSent (userId : UInt32)
  | msgGetMsgDel (userId convId chatId : UInt32)
  deriving DecidableEq

/-- What an operation reports: the code in `*lastrc`, and the id it returns. -/
structure OpResult where
  rc : Rc
  id : UInt32 := 0
  deriving DecidableEq

/-- The report of an operation that returns an id. -/
def OpResult.ofId (x : UInt32 × Rc) : OpResult := ⟨x.2, x.1⟩

/-- The report of an operation that returns something else beside its code. -/
def OpResult.ofRc {α : Type} (x : α × Rc) : OpResult := ⟨x.2, 0⟩

/-- The program of an operation. -/
def Op.prog : Op → SqlProg OpResult
  | userGetById id => OpResult.ofRc <$> MeshChat.userGetById id
  | userGetByUname s => OpResult.ofRc <$> MeshChat.userGetByUname s
  | userSearchByUname s l o => OpResult.ofRc <$> MeshChat.userSearchByUname s l o
  | userCreate u p h e => OpResult.ofId <$> MeshChat.userCreate u p h e
  | userDrop id => (⟨·, 0⟩) <$> MeshChat.userDrop id
  | userGetConvList u l o => OpResult.ofRc <$> MeshChat.userGetConvList u l o
  | userGetChatList u l o => OpResult.ofRc <$> MeshChat.userGetChatList u l o
  | convCreate a n => OpResult.ofId <$> MeshChat.convCreate a n
  | convIsAdmin c u => OpResult.ofRc <$> MeshChat.convIsAdmin c u
  | convIsMember c u => OpResult.ofRc <$> MeshChat.convIsMember c u
  | convDrop c => (⟨·, 0⟩) <$> MeshChat.convDrop c
  | convJoin u c => (⟨·, 0⟩) <$> MeshChat.convJoin u c
  | convQuit u c => (⟨·, 0⟩) <$> MeshChat.convQuit u c
  | convGetInfo c => OpResult.ofRc <$> MeshChat.convGetInfo c
  | convGetMembers c => OpResult.ofRc <$> MeshChat.convGetMembers c
  | chatCreate a b => OpResult.ofId <$> MeshChat.chatCreate a b
  | chatIsMember c u => OpResult.ofRc <$> MeshChat.chatIsMember c u
  | chatDrop c => (⟨·, 0⟩) <$> MeshChat.chatDrop c
  | chatGetInfo c => OpResult.ofRc <$> MeshChat.chatGetInfo c
  | msgConvGetAll c l o => OpResult.ofRc <$> MeshChat.msgConvGetAll c l o
  | msgChatGetAll c l o => OpResult.ofRc <$> MeshChat.msgChatGetAll c l o
  | msgGetDetail m => OpResult.ofRc <$> MeshChat.msgGetDetail m
  | msgSend m now => OpResult.ofId <$> MeshChat.msgSend m now
  | msgDelivered m => (⟨·, 0⟩) <$> MeshChat.msgDelivered m
  | msgDelete m => (⟨·, 0⟩) <$> MeshChat.msgDelete m
  | msgDrop m => (⟨·, 0⟩) <$> MeshChat.msgDrop m
  | msgGetMsgSent u => OpResult.ofRc <$> MeshChat.msgGetMsgSent u
  | msgGetMsgDel u c d => OpResult.ofRc <$> MeshChat.msgGetMsgDel u c d

/-! ## Operations that only read -/

/-- The calls of a query. -/
def SqlCall.IsRead : SqlCall → Prop
  | calloc | prepareQuery _ | fetch _ _ => True
  | _ => False

/-- The program makes no calls but those of queries. -/
def readProtocol (α : Type) : Protocol SqlCall Reply α Unit where
  allows _ c := c.IsRead
  next _ _ _ := ()
  done _ _ := True

abbrev Reads {α : Type} (p : SqlProg α) : Prop := Conforms (readProtocol α) () p

/-- A protocol that is indifferent to queries is kept by a program of queries. -/
theorem Reads.conforms {α τ : Type} {A : Protocol SqlCall Reply α τ} {t : τ} {p : SqlProg α}
    (hp : Reads p) (hread : ∀ c, SqlCall.IsRead c → A.allows t c ∧ ∀ r, A.next t c r = t)
    (hdone : ∀ a, A.done t a) : Conforms A t p := by
  -- over the program; no call moves the state of the protocol
  induction p with
  | ret a => exact hdone a
  | call c k ih =>
    obtain ⟨hallow, hnext⟩ := hread c hp.1
    refine ⟨hallow, fun r => ?_⟩
    rw [hnext r]
    exact ih r (hp.2 r)
  | drain c more seen k ih =>
    exact ⟨fun i => hread (c i) (hp.1 i).1, fun rows r => ih rows r (hp.2 rows r)⟩

theorem reads_sqlGetList (q : Query) : Reads (sqlGetList q) := by
  simp [sqlGetList, readProtocol, SqlCall.IsRead]

theorem reads_sqlFirstRow {α : Type} (q : Query) (f : List Val → α) : Reads (sqlFirstRow q f) := by
  simp [sqlFirstRow, readProtocol, SqlCall.IsRead]

theorem Reads.map {α β : Type} {g : α → β} {p : SqlProg α} (hp : Reads p) : Reads (g <$> p) :=
  Conforms.map hp

theorem Reads.bind_ret {α β : Type} {g : α → β} {p : SqlProg α} (hp : Reads p) :
    Reads (p >>= fun a => ret (g a)) :=
  hp.map

theorem reads_sqlGetInfo {α : Type} (q : Query) (f : List Val → α) : Reads (sqlGetInfo q f) := by
  have hrow := reads_sqlFirstRow q f
  simp only [sqlGetInfo, invoke_bind, pure_eq, conforms_call, conforms_ite, conforms_ret]
  exact ⟨trivial, fun _ => ⟨fun _ => trivial, fun _ => hrow⟩⟩

theorem reads_sqlExists (q : Query) : Reads (sqlExists q) :=
  (reads_sqlFirstRow q fun _ => ()).bind_ret

/-- The operations that are queries. -/
def Op.isQuery : Op → Bool
  | userCreate .. | userDrop .. | convCreate .. | convDrop .. | convJoin .. | convQuit ..
  | chatCreate .. | chatDrop .. | msgSend .. | msgDelivered .. | msgDelete .. | msgDrop .. => false
  | _ => true

theorem Op.reads {op : Op} (h : op.isQuery = true) : Reads op.prog := by
  cases op with
  | userGetById id => exact (reads_sqlGetInfo _ _).map
  | userGetByUname s => exact (reads_sqlGetInfo _ _).map
  | userSearchByUname s l o => exact (reads_sqlGetList _).map
  | userGetConvList u l o => exact (reads_sqlGetList _).map
  | userGetChatList u l o => exact (reads_sqlGetList _).map
  | convIsAdmin c u => exact (reads_sqlExists _).map
  | convIsMember c u => exact (reads_sqlExists _).map
  | convGetInfo c => exact (reads_sqlGetInfo _ _).map
  | convGetMembers c => exact (reads_sqlGetList _).map
  | chatIsMember c u => exact (reads_sqlExists _).map
  | chatGetInfo c => exact (reads_sqlGetInfo _ _).map
  | msgConvGetAll c l o => exact (reads_sqlGetList _).map
  | msgChatGetAll c l o => exact (reads_sqlGetList _).map
  | msgGetDetail m => exact (reads_sqlGetInfo _ _).map
  | msgGetMsgSent u => exact (reads_sqlGetList _).map
  | msgGetMsgDel u c d => exact (reads_sqlGetList _).map
  | _ => cases h

end MeshChat
