import MeshChat.Lib.Keyed
import MeshChat.Lib.Refinement
import MeshChat.Server.Handler

/-! # What the server is for

    A message board: accounts, conversations with an admin and members, chats of two,
    and messages in either. There are no tables, statements or transactions here, and
    a request is one step.

    * `Board`: what is on it; `Board.Sees`: who a message is for.
    * `Board.Permits`, `Board.Knows`, `Board.Clashes`: when a request may be refused.
    * `Board.Tells`: the answers that are true.
    * `Board.Handles`: what a request does, together with its answer. An error is
      answered when nothing was done, and a success when all of it was.
    * `messageBoard`: the board as a machine whose steps are requests with their
      answers.
-/

namespace MeshChat

open CMemory Prog

namespace Board

structure Account where
  uname : CStr
  /-- The digest. -/
  password : CStr
  phone : CStr
  email : CStr

structure Group where
  admin : Nat
  name : CStr

structure Message where
  sender : Nat
  replyTo : Option Nat
  contentType : Int
  contentLength : Nat
  content : CStr
  createdAt : Nat
  chat : Option Nat
  conv : Option Nat
  state : MsgType

end Board

/-- The board. A conversation that does not exist may still be asked for its members. -/
structure Board where
  account : Nat → Option Board.Account
  conv : Nat → Option Board.Group
  members : Nat → Set Nat
  chat : Nat → Option (Nat × Nat)
  message : Nat → Option Board.Message

namespace Board

/-- Nothing is on the board yet. -/
def empty : Board where
  account _ := none
  conv _ := none
  members _ := ∅
  chat _ := none
  message _ := none

variable (b : Board)

/-! ## Rooms -/

def InChat (k u : Nat) : Prop := ∃ p, b.chat k = some p ∧ (p.1 = u ∨ p.2 = u)

def Heads (k u : Nat) : Prop := ∃ g, b.conv k = some g ∧ g.admin = u

/-- The user is in the conversation of the message or in its chat. -/
def Sees (m : Message) (u : Nat) : Prop :=
  (∃ k, m.conv = some k ∧ u ∈ b.members k) ∨ ∃ k, m.chat = some k ∧ b.InChat k u

/-- The user is in one of the two rooms that a request names. -/
def Enters (rm : RequestMsgBody) (u : Nat) : Prop :=
  u ∈ b.members rm.convId.toNat ∨ b.InChat rm.chatId.toNat u

/-- The message is a file; the column is read with 32 bits. -/
def Message.IsFile (m : Message) : Prop := UInt32.ofInt m.contentType = 1

/-- The fields that are sent. A room or message that is not there is 0. -/
def Message.detail (m : Message) (id : UInt32) : MsgDetail where
  msgId := id
  fromUid := UInt32.ofNat m.sender
  replyTo := UInt32.ofNat (m.replyTo.getD 0)
  convId := UInt32.ofNat (m.conv.getD 0)
  chatId := UInt32.ofNat (m.chat.getD 0)
  createdAt := UInt32.ofNat m.createdAt
  msgType := UInt8.ofNat m.state.code
  contentType := (UInt32.ofInt m.contentType).toUInt8
  contentLength := UInt32.ofNat m.contentLength
  msgContent := m.content

/-- The message once it has been read. -/
def Message.delivered (m : Message) : Message := { m with state := .delivered }

/-- What is left of a deleted message. -/
def Message.erased (m : Message) : Message := { m with content := default, state := .deleted }

/-! ## Refusals -/

/-- The request is one that its user may make. -/
def Permits (env : Env) (header : RequestHeader) : Route → Prop
  | .authLogin ra => ∃ n a p, b.account n = some a ∧ ra.uname = some a.uname ∧
      ra.password = some p ∧ hashStr env p = some a.password
  | .convDrop rconv => b.Heads rconv.convId.toNat header.userId.toNat
  | .convJoin rconv | .convGetMembers rconv => header.userId.toNat ∈ b.members rconv.convId.toNat
  -- the admin stays, and only the admin may name somebody else
  | .convQuit rconv => header.userId.toNat ∈ b.members rconv.convId.toNat ∧
      (rconv.userId = header.userId ↔ ¬ b.Heads rconv.convId.toNat header.userId.toNat)
  | .chatCreate rchat => header.userId ≠ rchat.userId2
  | .chatDrop rchat | .chatGetInfo rchat => b.InChat rchat.chatId.toNat header.userId.toNat
  | .msgGetAll rm | .msgSend rm => b.Enters rm header.userId.toNat
  | .msgGetDetail rm | .msgDelete rm | .msgDownloadFile rm =>
    ∃ m, b.message rm.msgId.toNat = some m ∧ b.Sees m header.userId.toNat
  | _ => True

/-- What the request names is on the board. -/
def Knows : Route → Prop
  | .authLogin ra => ∃ n a, b.account n = some a ∧ ra.uname = some a.uname
  | .userGetInfo ru => b.account ru.userId.toNat ≠ none
  | .convGetInfo rconv => b.conv rconv.convId.toNat ≠ none
  | .msgGetDetail rm | .msgDelete rm | .msgDownloadFile rm => b.message rm.msgId.toNat ≠ none
  | _ => True

/-- The new entry would not go with those on the board. -/
def Clashes (header : RequestHeader) : Route → Prop
  | .authRegister ra => ∃ n a, b.account n = some a ∧ ra.uname = some a.uname
  | .chatCreate rchat => (∃ n, b.chat n = some (header.userId.toNat, rchat.userId2.toNat)) ∨
      b.account header.userId.toNat = none ∨ b.account rchat.userId2.toNat = none
  | .msgSend rm => b.account header.userId.toNat = none ∨
      (∃ k, nullable rm.convId = some k ∧ b.conv k = none) ∨
      (∃ k, nullable rm.chatId = some k ∧ b.chat k = none) ∨
      ∃ k, nullable rm.replyId = some k ∧ b.message k = none
  | _ => False

/-- The request is of a form that there is something to do for. -/
def Supports (header : RequestHeader) : Route → Prop
  | .msgSend _ => header.contentType = msgText ∨ header.contentType = msgFile
  | .msgDownloadFile rm => ∀ m, b.message rm.msgId.toNat = some m → m.IsFile
  | _ => True

/-- A field is missing, or what it names is not there where the code relies on it. -/
def Strays (env : Env) (header : RequestHeader) : Route → Prop
  | .authRegister ra => ra.uname = none ∨ ra.password = none ∨ ra.phone = none ∨ ra.email = none
  | .authLogin ra => ra.uname = none ∨ ra.password = none ∨
      ∃ p, ra.password = some p ∧ hashStr env p = none
  | .userSearch ru => ru.uname = none
  | .convCreate rconv => rconv.gname = none
  | .chatGetInfo rchat => b.chat rchat.chatId.toNat = none
  | .msgSend rm => rm.msgContent = none ∨ header.contentType = msgFile ∧
      ∃ s, rm.msgContent = some s ∧ storagePath env s = none
  | .msgDownloadFile rm => ∃ m, b.message rm.msgId.toNat = some m ∧
      m.content.strlen < storage.length
  | _ => False

/-- What is stored for a request to send: a text as it is, a file by its path. -/
inductive Composes (env : Env) (header : RequestHeader) (rm : RequestMsgBody) :
    CStr → UInt32 → Prop
  | text {s : CStr} (htype : header.contentType = msgText) (hs : rm.msgContent = some s) :
      Composes env header rm s (header.contentLen - 12)
  | file {s path : CStr} (htype : header.contentType = msgFile) (hs : rm.msgContent = some s)
      (hupload : env.upload = .received) (hpath : storagePath env s = some path) :
      Composes env header rm path header.contentLen

/-- The text of an insert does not have room in its query buffer. -/
def TooLong (q : TextQuery) : Prop := ¬ q.template.text.length ≤ q.room

/-- A reason for an error that is not the server's: a text is too long, something cannot be
    hashed or received, or a new member or admin is not one who could be. -/
def Hampered (env : Env) (header : RequestHeader) : Route → Prop
  | .authRegister ra => ∃ p, ra.password = some p ∧ ∀ hash, hashStr env p = some hash →
      ∃ u ph e, ra.uname = some u ∧ ra.phone = some ph ∧ ra.email = some e ∧
        TooLong (.userCreate u hash ph e)
  | .authLogin ra => ∃ u, ra.uname = some u ∧ ¬ (TextQuery.userGetByUname u).Fits
  | .userSearch ru => ∃ u, ru.uname = some u ∧ ¬ (TextQuery.userSearchByUname u
      (clampPage header.limit) (clampPage header.offset)).Fits
  | .convCreate rconv => b.account header.userId.toNat = none ∨
      ∃ name, rconv.gname = some name ∧ TooLong (.convCreate header.userId name)
  | .convJoin rconv => rconv.userId.toNat ∈ b.members rconv.convId.toNat ∨
      b.account rconv.userId.toNat = none
  | .msgSend rm => header.contentType = msgFile ∧ env.upload ≠ .received ∨
      ∃ content length, Composes env header rm content length ∧
        TooLong (.msgSend header.userId rm.replyId header.contentType.toUInt32.toInt32 length
          content env.now rm.chatId rm.convId)
  | _ => False

/-- An error status says what is the matter. Only when a call has failed may 409 and 500 be
    answered without a reason. -/
def Refuses (env : Env) (header : RequestHeader) (clean : Bool) (route : Route) (status : UInt32) :
    Prop :=
  (status = 204 ∨ status = 403) ∧ ¬ b.Permits env header route ∨
    status = 404 ∧ ¬ b.Knows route ∨
    status = 409 ∧ (clean = true → b.Clashes header route) ∨
    status = 400 ∧ ¬ b.Supports header route ∨
    status = 500 ∧ (clean = true → b.Hampered env header route)

/-! ## Answers -/

/-- A page of `S` in an order along `r`, the last entry first. It may end early if a call
    has failed. -/
def Lists (S : Set Nat) (r : Nat → Nat → Prop) (limit offset : Int) (clean : Bool)
    (ids : List UInt32) : Prop :=
  ∃ l : List Nat, l.Nodup ∧ (∀ n, n ∈ l ↔ n ∈ S) ∧ l.Pairwise r ∧
    ∃ k, (clean = true → (page limit offset l).length ≤ k) ∧
      ids = (((page limit offset l).take k).map UInt32.ofNat).reverse

/-- The page that a header asks for. -/
def ListsPage (S : Set Nat) (r : Nat → Nat → Prop) (header : RequestHeader) (clean : Bool)
    (ids : List UInt32) : Prop :=
  Lists S r (clampPage header.limit).toInt (clampPage header.offset).toInt clean ids

/-- The whole of `S`. -/
def ListsAll (S : Set Nat) (r : Nat → Nat → Prop) (clean : Bool) (ids : List UInt32) : Prop :=
  Lists S r (-1) 0 clean ids

/-- In no order. -/
def anyOrder (_ _ : Nat) : Prop := True

/-- The names are in the order of their bytes. -/
def Named (n n' : Nat) : Prop :=
  ∀ a a', b.account n = some a → b.account n' = some a' → a.uname.bytes ≤ a'.uname.bytes

/-- The newer message comes first. -/
def Newer (n n' : Nat) : Prop :=
  ∀ m m', b.message n = some m → b.message n' = some m' → m'.createdAt ≤ m.createdAt

/-- The messages of the room that is listed: the chat, if one is named. -/
def roomMessages (rm : RequestMsgBody) : Set Nat :=
  { n | ∃ m, b.message n = some m ∧
    if 0 < rm.chatId then m.chat = some rm.chatId.toNat else m.conv = some rm.convId.toNat }

/-- The deleted messages of the room that is named, for somebody in it. -/
def deletedMessages (u : Nat) (rm : RequestMsgBody) : Set Nat :=
  { n | ∃ m, b.message n = some m ∧ m.state = .deleted ∧
    if rm.convId ≠ 0 then m.conv = some rm.convId.toNat ∧ u ∈ b.members rm.convId.toNat
    else rm.chatId ≠ 0 ∧ m.chat = some rm.chatId.toNat ∧ b.InChat rm.chatId.toNat u }

/-- The text of a search as it is asked for, if it fits its query. -/
def Asked (uname : CStr) (header : RequestHeader) (pattern : List UInt8) (limit offset : Int) :
    Prop :=
  (TextQuery.userSearchByUname uname (clampPage header.limit) (clampPage header.offset)).Fits →
    pattern = ascii "%" ++ uname.bytes ++ ascii "%" ∧
      limit = (clampPage header.limit).toInt ∧ offset = (clampPage header.offset).toInt

/-- The true answers to requests that change nothing. -/
inductive Tells (env : Env) (header : RequestHeader) (clean : Bool) : Route → ResponseCall → Prop
  | login {ra : RequestAuth} {n : Nat} {a : Account} {p : CStr} (ha : b.account n = some a)
      (huname : ra.uname = some a.uname) (hp : ra.password = some p)
      (hhash : hashStr env p = some a.password) :
      Tells env header clean (.authLogin ra)
        (.authLogin 200 (env.makeToken (UInt32.ofNat n)) (UInt32.ofNat n))
  | logout : Tells env header clean .userLogout (.userLogout 200)
  | user {ru : RequestUser} {a : Account} (ha : b.account ru.userId.toNat = some a) :
      Tells env header clean (.userGetInfo ru) (.userGetInfo 200 a.uname a.phone a.email)
  | search {ru : RequestUser} {uname : CStr} {pattern : List UInt8} {limit offset : Int}
      {ids : List UInt32} (huname : ru.uname = some uname)
      (hasked : Asked uname header pattern limit offset)
      (hids : Lists { n | ∃ a, b.account n = some a ∧ like pattern a.uname.bytes = true } b.Named
        limit offset clean ids) :
      Tells env header clean (.userSearch ru) (.userSearch 200 ids)
  | group {rconv : RequestConv} {g : Group} (hg : b.conv rconv.convId.toNat = some g) :
      Tells env header clean (.convGetInfo rconv) (.convGetInfo 200 (UInt32.ofNat g.admin) g.name)
  | members {rconv : RequestConv} {ids : List UInt32}
      (hu : header.userId.toNat ∈ b.members rconv.convId.toNat)
      (hids : ListsAll (b.members rconv.convId.toNat) anyOrder clean ids) :
      Tells env header clean (.convGetMembers rconv) (.convGetMembers 200 ids)
  | convs {ids : List UInt32}
      (hids : ListsPage { k | header.userId.toNat ∈ b.members k } anyOrder header clean ids) :
      Tells env header clean .convGetList (.convGetList 200 ids)
  | chats {ids : List UInt32}
      (hids : ListsPage { k | b.InChat k header.userId.toNat } (· > ·) header clean ids) :
      Tells env header clean .chatGetList (.chatGetList 200 ids)
  | chat {rchat : RequestChat} {p : Nat × Nat} (hp : b.chat rchat.chatId.toNat = some p)
      (hu : p.1 = header.userId.toNat ∨ p.2 = header.userId.toNat) :
      Tells env header clean (.chatGetInfo rchat)
        (.chatGetInfo 200 (UInt32.ofNat p.1) (UInt32.ofNat p.2))
  | messages {rm : RequestMsgBody} {ids : List UInt32} (hu : b.Enters rm header.userId.toNat)
      (hids : ListsPage (b.roomMessages rm) b.Newer header clean ids) :
      Tells env header clean (.msgGetAll rm) (.msgGetAll 200 ids)
  | unread {ids : List UInt32}
      (hids : ListsAll { n | ∃ m, b.message n = some m ∧ m.state = .sent ∧
        b.Sees m header.userId.toNat } (· < ·) clean ids) :
      Tells env header clean .notifyNewMsg (.msgNotifyNew 200 ids)
  | deleted {rm : RequestMsgBody} {ids : List UInt32}
      (hids : ListsAll (b.deletedMessages header.userId.toNat rm) anyOrder clean ids) :
      Tells env header clean (.notifyDelMsg rm) (.msgNotifyDel 200 ids)
  | file {rm : RequestMsgBody} {m : Message} (hm : b.message rm.msgId.toNat = some m)
      (hsees : b.Sees m header.userId.toNat) (hfile : m.IsFile)
      (hname : storage.length ≤ m.content.strlen) :
      Tells env header clean (.msgDownloadFile rm)
        (.msgDownloadFile 200 (UInt32.ofNat m.contentLength)
          (.ofBytes (m.content.bytes.drop storage.length)))

/-! ## What requests do -/

def register (n : Nat) (a : Account) : Board :=
  { b with account := Function.update b.account n (some a) }

/-- A new conversation has its admin as a member. -/
def found (n : Nat) (g : Group) : Board :=
  { b with conv := Function.update b.conv n (some g)
           members := Function.update b.members n (insert g.admin (b.members n)) }

def join (k u : Nat) : Board :=
  { b with members := Function.update b.members k (insert u (b.members k)) }

def leave (k u : Nat) : Board :=
  { b with members := Function.update b.members k (b.members k \ {u}) }

def openChat (n : Nat) (p : Nat × Nat) : Board :=
  { b with chat := Function.update b.chat n (some p) }

def post (n : Nat) (m : Message) : Board :=
  { b with message := Function.update b.message n (some m) }

/-- What goes with the messages of a room: if the answers to them follow, the answers to
    these do, too. -/
inductive GoesWith (follows : Bool) (P : Message → Prop) : Nat → Prop
  | room {n : Nat} {m : Message} (hm : b.message n = some m) (hP : P m) : GoesWith follows P n
  | reply {n k : Nat} {m : Message} (hfollows : follows = true) (hm : b.message n = some m)
      (hreply : m.replyTo = some k) (hk : GoesWith follows P k) : GoesWith follows P n

/-- The messages that are left when those of a room have gone. -/
def Leaves (follows : Bool) (P : Message → Prop) (b' : Board) : Prop :=
  ∀ n m, b'.message n = some m ↔ b.message n = some m ∧ ¬ b.GoesWith follows P n

structure ConvGone (follows : Bool) (k : Nat) (b' : Board) : Prop where
  account : b'.account = b.account
  conv : b'.conv = Function.update b.conv k none
  members : b'.members = Function.update b.members k ∅
  chat : b'.chat = b.chat
  message : b.Leaves follows (·.conv = some k) b'

structure ChatGone (follows : Bool) (k : Nat) (b' : Board) : Prop where
  account : b'.account = b.account
  conv : b'.conv = b.conv
  members : b'.members = b.members
  chat : b'.chat = Function.update b.chat k none
  message : b.Leaves follows (·.chat = some k) b'

/-- A number for a new entry: it is free, though it may have been in use before, and the one
    before it is in use, unless it is the first. -/
def Next {α : Type} (f : Nat → Option α) (n : Nat) : Prop :=
  f n = none ∧ ∃ k, n = k + 1 ∧ (k = 0 ∨ f k ≠ none)

/-- The message of a request to send. -/
def newMessage (env : Env) (header : RequestHeader) (rm : RequestMsgBody) (content : CStr)
    (length : UInt32) : Message where
  sender := header.userId.toNat
  replyTo := nullable rm.replyId
  contentType := header.contentType.toNat
  contentLength := length.toNat
  content := content
  createdAt := env.now.toNat
  chat := nullable rm.chatId
  conv := nullable rm.convId
  state := .sent

/-- What a request does, and how it is answered. -/
inductive Handles (env : Env) (header : RequestHeader) (clean : Bool) :
    Route → Handled → Board → Prop
  | refused {route : Route} {status : UInt32} {group action : UInt8}
      (h : b.Refuses env header clean route status) :
      Handles env header clean route { sent := [.err status group action] } b
  | undefined {route : Route} (h : b.Strays env header route) :
      Handles env header clean route { undefined := true } b
  /-- The connection is closed in the middle of a file. -/
  | aborted {rm : RequestMsgBody} (htype : header.contentType = msgFile)
      (h : env.upload = .aborted) :
      Handles env header clean (.msgSend rm) {} b
  | told {route : Route} {r : ResponseCall} (h : b.Tells env header clean route r) :
      Handles env header clean route { sent := [r] } b
  | registered {ra : RequestAuth} {n : Nat} {a : Account} {p : CStr}
      (hfields : ra.uname = some a.uname ∧ ra.password = some p ∧ ra.phone = some a.phone ∧
        ra.email = some a.email) (hhash : hashStr env p = some a.password)
      (hname : ∀ k a', b.account k = some a' → a'.uname ≠ a.uname) (hnew : Next b.account n) :
      Handles env header clean (.authRegister ra)
        { sent := [.authRegister 201 (env.makeToken (UInt32.ofNat n)) (UInt32.ofNat n)] }
        (b.register n a)
  | founded {rconv : RequestConv} {n : Nat} {name : CStr} (hname : rconv.gname = some name)
      (huser : b.account header.userId.toNat ≠ none) (hnew : Next b.conv n) :
      Handles env header clean (.convCreate rconv) { sent := [.convCreate 201 (UInt32.ofNat n)] }
        (b.found n ⟨header.userId.toNat, name⟩)
  | closed {rconv : RequestConv} {follows : Bool} {b' : Board}
      (h : b.Permits env header (.convDrop rconv))
      (hgone : b.ConvGone follows rconv.convId.toNat b') :
      Handles env header clean (.convDrop rconv) { sent := [.convDrop 200] } b'
  | joined {rconv : RequestConv} (h : b.Permits env header (.convJoin rconv))
      (hnew : rconv.userId.toNat ∉ b.members rconv.convId.toNat) :
      Handles env header clean (.convJoin rconv) { sent := [.convJoin 200] }
        (b.join rconv.convId.toNat rconv.userId.toNat)
  /-- Whoever is named, the one who asks leaves. -/
  | left {rconv : RequestConv} (h : b.Permits env header (.convQuit rconv)) :
      Handles env header clean (.convQuit rconv) { sent := [.convQuit 200] }
        (b.leave rconv.convId.toNat header.userId.toNat)
  | chatOpened {rchat : RequestChat} {n : Nat} (h : b.Permits env header (.chatCreate rchat))
      (hclash : ¬ b.Clashes header (.chatCreate rchat)) (hnew : Next b.chat n) :
      Handles env header clean (.chatCreate rchat) { sent := [.chatCreate 201 (UInt32.ofNat n)] }
        (b.openChat n (header.userId.toNat, rchat.userId2.toNat))
  | chatClosed {rchat : RequestChat} {follows : Bool} {b' : Board}
      (h : b.Permits env header (.chatDrop rchat))
      (hgone : b.ChatGone follows rchat.chatId.toNat b') :
      Handles env header clean (.chatDrop rchat) { sent := [.chatDelete 200] } b'
  /-- A message may answer itself. -/
  | posted {rm : RequestMsgBody} {n : Nat} {content : CStr} {length : UInt32}
      (h : b.Permits env header (.msgSend rm)) (hmsg : Composes env header rm content length)
      (huser : b.account header.userId.toNat ≠ none)
      (hconv : ∀ k, nullable rm.convId = some k → b.conv k ≠ none)
      (hchat : ∀ k, nullable rm.chatId = some k → b.chat k ≠ none)
      (hreply : ∀ k, nullable rm.replyId = some k → k = n ∨ b.message k ≠ none)
      (hnew : Next b.message n) :
      Handles env header clean (.msgSend rm) { sent := [.msgSend 201 (UInt32.ofNat n)] }
        (b.post n (newMessage env header rm content length))
  /-- The answer goes out even if the mark could not be made. -/
  | read {rm : RequestMsgBody} {m : Message} {b' : Board} (hm : b.message rm.msgId.toNat = some m)
      (hsees : b.Sees m header.userId.toNat)
      (h : b' = b.post rm.msgId.toNat m.delivered ∨ clean = false ∧ b' = b) :
      Handles env header clean (.msgGetDetail rm)
        { sent := [.msgGetDetail 200 (m.detail rm.msgId)] } b'
  /-- So does this one. -/
  | erased {rm : RequestMsgBody} {m : Message} {b' : Board} (hm : b.message rm.msgId.toNat = some m)
      (hsees : b.Sees m header.userId.toNat)
      (h : b' = b.post rm.msgId.toNat m.erased ∨ clean = false ∧ b' = b) :
      Handles env header clean (.msgDelete rm) { sent := [.msgDelete 200] } b'

/-! ## The machine -/

/-- A request with its answer, and whether no call to sqlite has failed. -/
structure Exchange where
  env : Env
  req : Option Request
  out : Handled
  clean : Bool

/-- What handling a request may do to the board. -/
inductive Step : Exchange → Board → Prop
  | unparsed {env : Env} {clean : Bool} :
      Step ⟨env, none, { sent := [.err 400 0xFF 0xFF] }, clean⟩ b
  | unverified {env : Env} {req : Request} {clean : Bool} (hgroup : req.header.group ≠ 0)
      (htoken : env.verified = false) :
      Step ⟨env, some req, { sent := [.err 403 req.header.group.toUInt8
        req.header.action.toUInt8] }, clean⟩ b
  | unknown {env : Env} {req : Request} {clean : Bool} (hroute : req.route = none) :
      Step ⟨env, some req, {}, clean⟩ b
  | handled {env : Env} {req : Request} {route : Route} {out : Handled} {clean : Bool} {b' : Board}
      (htoken : req.header.group = 0 ∨ env.verified = true) (hroute : req.route = some route)
      (h : b.Handles env req.header clean route out b') : Step ⟨env, some req, out, clean⟩ b'

end Board

/-- The board under requests, empty at first. -/
def messageBoard : Machine Board Board.Exchange where
  start b := b = .empty
  step b e b' := b.Step e b'

end MeshChat
