import MeshChat.Lib.CMemory
import MeshChat.Lib.Prog

/-! # The tables and what statements do to them

    The five tables of `schema.up.sql` and the statements `sql.c` sends, with
    their constraints (checked for foreign keys only while these are enforced)
    and the cascades of deletions.

    * `Db`: the tables, as lists of rows; `Db.Has`: a row of any table is there.
    * `Stmt`: the SQL templates of `sql.c` that are not queries.
    * `Stmt.apply`: what a statement does to the tables.
-/

namespace MeshChat

open CMemory

/-! ## Result codes -/

/-- The sqlite result codes `sql.c` tells apart; `other` is any further error. -/
inductive Rc where
  | ok
  | error
  | nomem
  | empty
  | constraint
  | misuse
  | row
  | done
  | other (n : Nat)
  deriving DecidableEq

/-- `sql_is_ok`. -/
def sqlIsOk (rc : Rc) : Bool :=
  rc = .ok || rc = .row || rc = .done || rc = .empty

/-- `sql_is_err`. -/
def sqlIsErr (rc : Rc) : Bool := !sqlIsOk rc

/-! ## Tables -/

/-- `MSG_TYPE`. -/
inductive MsgType where
  | sent
  | delivered
  | deleted
  deriving DecidableEq

/-- The number stored for a message type. -/
def MsgType.code : MsgType → Nat
  | sent => 0
  | delivered => 1
  | deleted => 2

/-- `MSG_TEXT` and `MSG_FILE`. -/
def msgText : UInt8 := 0

def msgFile : UInt8 := 1

structure UserRow where
  id : Nat
  uname : CStr
  password : CStr
  phone : CStr
  email : CStr
  deriving DecidableEq

structure ChatRow where
  id : Nat
  member1 : Nat
  member2 : Nat
  deriving DecidableEq

structure ConvRow where
  id : Nat
  adminId : Nat
  name : CStr
  deriving DecidableEq

/-- A `members` row; its primary key is `(user_id, conv_id)`, so it has a rowid
    of its own. -/
structure MemberRow where
  rowid : Nat
  convId : Nat
  userId : Nat
  deriving DecidableEq

structure MsgRow where
  id : Nat
  fromUid : Nat
  replyTo : Option Nat
  contentType : Int
  contentLength : Nat
  content : CStr
  createdAt : Nat
  chatId : Option Nat
  convId : Option Nat
  type : MsgType
  deriving DecidableEq

/-- The database. -/
structure Db where
  users : List UserRow := []
  chats : List ChatRow := []
  conversations : List ConvRow := []
  members : List MemberRow := []
  messages : List MsgRow := []
  deriving DecidableEq

/-- A row of any table. -/
inductive Row where
  | user (r : UserRow)
  | chat (r : ChatRow)
  | conv (r : ConvRow)
  | member (r : MemberRow)
  | msg (r : MsgRow)
  deriving DecidableEq

namespace Row

/-- The rowid; for all tables but `members` it is the column `id`. -/
def rowid : Row → Nat
  | user r => r.id
  | chat r => r.id
  | conv r => r.id
  | member r => r.rowid
  | msg r => r.id

end Row

/-- The row is in its table. -/
def Db.Has (db : Db) : Row → Prop
  | .user r => r ∈ db.users
  | .chat r => r ∈ db.chats
  | .conv r => r ∈ db.conversations
  | .member r => r ∈ db.members
  | .msg r => r ∈ db.messages

instance (db : Db) : (r : Row) → Decidable (db.Has r)
  | .user r => inferInstanceAs (Decidable (r ∈ db.users))
  | .chat r => inferInstanceAs (Decidable (r ∈ db.chats))
  | .conv r => inferInstanceAs (Decidable (r ∈ db.conversations))
  | .member r => inferInstanceAs (Decidable (r ∈ db.members))
  | .msg r => inferInstanceAs (Decidable (r ∈ db.messages))

/-- The rowid sqlite gives a new row: one more than the largest in use. -/
def nextId (ids : List Nat) : Nat := ids.foldr max 0 + 1

theorem lt_nextId {ids : List Nat} {i : Nat} (h : i ∈ ids) : i < nextId ids :=
  Nat.lt_succ_of_le (List.le_max_of_le h (le_refl i))

theorem nextId_pos (ids : List Nat) : 0 < nextId ids := Nat.succ_pos _

/-! ## Deletions and their cascades -/

/-- One round of `reply_to … ON DELETE CASCADE`: the messages that answer one of
    `gone`. -/
def withReplies (ms : List MsgRow) (gone : List Nat) : List Nat :=
  gone ++ (ms.filter fun m => m.replyTo.any (· ∈ gone)).map (·.id)

/-- The ids deleted with those in `gone`; every round but the last adds one. -/
def closeReplies (ms : List MsgRow) (gone : List Nat) : List Nat :=
  (withReplies ms)^[ms.length] gone

/-- `DELETE FROM messages WHERE p`; replies go too when foreign keys are on. -/
def removeMessages (fk : Bool) (p : MsgRow → Bool) (ms : List MsgRow) : List MsgRow :=
  if fk then
    let gone := closeReplies ms ((ms.filter p).map (·.id))
    ms.filter fun m => m.id ∉ gone
  else ms.filter fun m => !p m

namespace Db

def deleteMessages (fk : Bool) (p : MsgRow → Bool) (db : Db) : Db :=
  { db with messages := removeMessages fk p db.messages }

def deleteMembers (p : MemberRow → Bool) (db : Db) : Db :=
  { db with members := db.members.filter fun m => !p m }

/-- `DELETE FROM conversations WHERE p`, with its members and messages when
    foreign keys are on. -/
def deleteConversations (fk : Bool) (p : ConvRow → Bool) (db : Db) : Db :=
  let gone := (db.conversations.filter p).map (·.id)
  let db := { db with conversations := db.conversations.filter fun c => !p c }
  if fk then
    (db.deleteMembers fun m => m.convId ∈ gone).deleteMessages true
      fun m => m.convId.any (· ∈ gone)
  else db

/-- `DELETE FROM chats WHERE p`. -/
def deleteChats (fk : Bool) (p : ChatRow → Bool) (db : Db) : Db :=
  let gone := (db.chats.filter p).map (·.id)
  let db := { db with chats := db.chats.filter fun c => !p c }
  if fk then db.deleteMessages true fun m => m.chatId.any (· ∈ gone) else db

/-- `DELETE FROM users WHERE id=?`. A message still sent by the user, which has
    no cascade, makes the statement fail. -/
def deleteUser (fk : Bool) (id : Nat) (db : Db) : Option Db :=
  if fk then
    let db := db.deleteChats true fun c => c.member1 = id || c.member2 = id
    let db := db.deleteConversations true fun c => c.adminId = id
    let db := db.deleteMembers fun m => m.userId = id
    let db := { db with users := db.users.filter fun u => u.id ≠ id }
    if db.messages.any (·.fromUid = id) then none else some db
  else some { db with users := db.users.filter fun u => u.id ≠ id }

def hasUser (db : Db) (id : Nat) : Bool := db.users.any (·.id = id)

def hasChat (db : Db) (id : Nat) : Bool := db.chats.any (·.id = id)

def hasConv (db : Db) (id : Nat) : Bool := db.conversations.any (·.id = id)

def hasMsg (db : Db) (id : Nat) : Bool := db.messages.any (·.id = id)

end Db

/-! ## Statements -/

/-- The values of an `INSERT INTO messages`; its type is always `MSG_SENT`. -/
structure NewMsg where
  fromUid : Nat
  replyTo : Option Nat
  contentType : Int
  contentLength : Nat
  content : CStr
  createdAt : Nat
  chatId : Option Nat
  convId : Option Nat
  deriving DecidableEq

/-- The statements of `sql.c`. `malformed` is a text sqlite rejects, `raw` one
    that a quote in an argument has turned into something else than its
    template. -/
inductive Stmt where
  | pragmaForeignKeysOn
  | begin
  | commit
  | rollback
  | insertUser (uname password phone email : CStr)
  | deleteUser (id : Nat)
  | insertConversation (adminId : Nat) (name : CStr)
  | insertMemberOfLast (userId : Nat)
  | insertMember (convId userId : Nat)
  | deleteMember (convId userId : Nat)
  | deleteMembersOf (convId : Nat)
  | deleteConversation (id : Nat)
  | insertChat (member1 member2 : Nat)
  | deleteChat (id : Nat)
  | insertMessage (m : NewMsg)
  | deleteMessagesOfConv (convId : Nat)
  | deleteMessagesOfChat (chatId : Nat)
  | deleteMessage (id : Nat)
  | setMessageType (id : Nat) (type : MsgType)
  | clearMessage (id : Nat)
  | malformed
  | raw
  deriving DecidableEq

namespace Db

/-- Insert a row when its constraint holds. -/
def insertRow (valid : Bool) (rowid : Nat) (db : Db) : Option (Db × Option Nat) :=
  if valid then some (db, some rowid) else none

def insertUser (uname password phone email : CStr) (db : Db) : Option (Db × Option Nat) :=
  let id := nextId (db.users.map (·.id))
  insertRow (!db.users.any (·.uname = uname)) id
    { db with users := db.users ++ [⟨id, uname, password, phone, email⟩] }

def insertConversation (fk : Bool) (adminId : Nat) (name : CStr) (db : Db) :
    Option (Db × Option Nat) :=
  let id := nextId (db.conversations.map (·.id))
  insertRow (!fk || db.hasUser adminId) id
    { db with conversations := db.conversations ++ [⟨id, adminId, name⟩] }

def insertMember (fk : Bool) (convId userId : Nat) (db : Db) : Option (Db × Option Nat) :=
  let rowid := nextId (db.members.map (·.rowid))
  insertRow (!db.members.any (fun m => m.convId = convId && m.userId = userId) &&
      (!fk || (db.hasConv convId && db.hasUser userId))) rowid
    { db with members := db.members ++ [⟨rowid, convId, userId⟩] }

def insertChat (fk : Bool) (member1 member2 : Nat) (db : Db) : Option (Db × Option Nat) :=
  let id := nextId (db.chats.map (·.id))
  insertRow (!db.chats.any (fun c => c.member1 = member1 && c.member2 = member2) &&
      (!fk || (db.hasUser member1 && db.hasUser member2))) id
    { db with chats := db.chats ++ [⟨id, member1, member2⟩] }

/-- A foreign key is checked at the end of the statement, so a message may answer
    itself. -/
def insertMessage (fk : Bool) (m : NewMsg) (db : Db) : Option (Db × Option Nat) :=
  let id := nextId (db.messages.map (·.id))
  let msg : MsgRow :=
    { id, fromUid := m.fromUid, replyTo := m.replyTo, contentType := m.contentType,
      contentLength := m.contentLength, content := m.content, createdAt := m.createdAt,
      chatId := m.chatId, convId := m.convId, type := .sent }
  insertRow (!fk || (db.hasUser m.fromUid && m.replyTo.all (fun r => r = id || db.hasMsg r) &&
      m.chatId.all db.hasChat && m.convId.all db.hasConv)) id
    { db with messages := db.messages ++ [msg] }

/-- `UPDATE messages SET … WHERE id=?`. -/
def updateMessage (id : Nat) (f : MsgRow → MsgRow) (db : Db) : Db :=
  { db with messages := db.messages.map fun m => if m.id = id then f m else m }

end Db

/-- What a statement does to the tables: `none` is a constraint violation; the
    rowid is that of an inserted row. -/
def Stmt.apply (fk : Bool) (last : Nat) : Stmt → Db → Option (Db × Option Nat)
  | insertUser u p h e, db => db.insertUser u p h e
  | deleteUser id, db => (db.deleteUser fk id).map (·, none)
  | insertConversation a n, db => db.insertConversation fk a n
  | insertMemberOfLast u, db => db.insertMember fk last u
  | insertMember c u, db => db.insertMember fk c u
  | deleteMember c u, db => some (db.deleteMembers fun m => m.convId = c && m.userId = u, none)
  | deleteMembersOf c, db => some (db.deleteMembers (·.convId = c), none)
  | deleteConversation c, db => some (db.deleteConversations fk (·.id = c), none)
  | insertChat a b, db => db.insertChat fk a b
  | deleteChat c, db => some (db.deleteChats fk (·.id = c), none)
  | insertMessage m, db => db.insertMessage fk m
  | deleteMessagesOfConv c, db => some (db.deleteMessages fk (·.convId = some c), none)
  | deleteMessagesOfChat c, db => some (db.deleteMessages fk (·.chatId = some c), none)
  | deleteMessage id, db => some (db.deleteMessages fk (·.id = id), none)
  | setMessageType id t, db => some (db.updateMessage id ({ · with type := t }), none)
  | clearMessage id, db =>
    some (db.updateMessage id ({ · with content := default, type := .deleted }), none)
  | pragmaForeignKeysOn, db | begin, db | commit, db | rollback, db | malformed, db | raw, db =>
    some (db, none)

end MeshChat
