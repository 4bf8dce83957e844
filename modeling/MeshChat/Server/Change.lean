import MeshChat.Db.SqlServed
import MeshChat.Server.Paths

/-! # What a request changes

    `Change` sums up `handler.c`: all that a request can do to the tables, with
    what its handler has checked before. The results about sequences of requests
    split on these cases and never look at the handlers again.

    * `Db.ConvMember`, `Db.ConvAdmin`, `Db.ChatMember`: who belongs to a room.
    * `Route.change`: a handler that runs alone, with any of its calls to sqlite
      failing, makes one of the changes, and leaves no transaction open.
-/

namespace MeshChat

open CMemory SqlLex Prog

/-! ## Who belongs to a room -/

namespace Db

def ConvMember (db : Db) (convId userId : Nat) : Prop :=
  ∃ m ∈ db.members, m.convId = convId ∧ m.userId = userId

def ConvAdmin (db : Db) (convId userId : Nat) : Prop :=
  ∃ r ∈ db.conversations, r.id = convId ∧ r.adminId = userId

def ChatMember (db : Db) (chatId userId : Nat) : Prop :=
  ∃ r ∈ db.chats, r.id = chatId ∧ (r.member1 = userId ∨ r.member2 = userId)

instance (db : Db) (convId userId : Nat) : Decidable (db.ConvMember convId userId) :=
  inferInstanceAs (Decidable (∃ m ∈ db.members, m.convId = convId ∧ m.userId = userId))

instance (db : Db) (convId userId : Nat) : Decidable (db.ConvAdmin convId userId) :=
  inferInstanceAs (Decidable (∃ r ∈ db.conversations, r.id = convId ∧ r.adminId = userId))

instance (db : Db) (chatId userId : Nat) : Decidable (db.ChatMember chatId userId) :=
  inferInstanceAs (Decidable (∃ r ∈ db.chats, r.id = chatId ∧
    (r.member1 = userId ∨ r.member2 = userId)))

end Db

theorem idRows_filter_ne_nil {α : Type} {l : List α} {p : α → Bool} {f : α → Nat} :
    idRows ((l.filter p).map f) ≠ [] ↔ ∃ a ∈ l, p a = true := by
  simp [idRows]

theorem convMember_rows {db : Db} {c u : Nat} :
    (Query.convMember c u).rows db ≠ [] ↔ db.ConvMember c u := by
  rw [Query.rows, idRows_filter_ne_nil]
  simp [Db.ConvMember]

theorem convAdmin_rows {db : Db} {c u : Nat} :
    (Query.convAdmin c u).rows db ≠ [] ↔ db.ConvAdmin c u := by
  rw [Query.rows, idRows_filter_ne_nil]
  simp [Db.ConvAdmin]

theorem chatMember_rows {db : Db} {c u : Nat} :
    (Query.chatMember c u).rows db ≠ [] ↔ db.ChatMember c u := by
  rw [Query.rows, idRows_filter_ne_nil]
  simp [Db.ChatMember]

/-! ## Quote-free requests -/

/-- The text fields of a request. -/
def RequestBody.strings : RequestBody → List CStr
  | .auth r => [r.uname, r.password, r.phone, r.email].filterMap id
  | .user r => [r.uname].filterMap id
  | .conv r => [r.gname].filterMap id
  | .chat _ => []
  | .msg r => [r.msgContent].filterMap id

/-- The text fields are free of single quotes. -/
def Request.QuoteFree (req : Request) : Prop := ∀ s ∈ req.body.strings, quote ∉ s.bytes

instance (req : Request) : Decidable req.QuoteFree :=
  inferInstanceAs (Decidable (∀ s ∈ req.body.strings, quote ∉ s.bytes))

/-! ## Changes -/

/-- The message guard: membership of the room ids as they are read back from the
    message, where `NULL` is 0. -/
def Db.Readable (db : Db) (msg : MsgRow) (userId : Nat) : Prop :=
  db.ConvMember (Val.ofOption msg.convId).columnInt.toNat userId ∨
    db.ChatMember (Val.ofOption msg.chatId).columnInt.toNat userId

/-- What a request can do to the tables. -/
inductive Change (header : RequestHeader) : Route → Conn → Conn → Prop
  | unchanged {route : Route} {c c' : Conn} (h : c'.db = c.db) : Change header route c c'
  | registered {ra : RequestAuth} {c c' : Conn} {uname password phone email : CStr} {n : Nat}
      (hroom : (TextQuery.userCreate uname password phone email).template.text.length ≤ querySmall)
      (h : c.db.insertUser uname password phone email = some (c'.db, some n)) :
      Change header (.authRegister ra) c c'
  | convCreated {rconv : RequestConv} {c c' : Conn} {name : CStr} {n : Nat}
      (h : c.db.CreatesConv c'.db header.userId name n) (hfk : c'.fk = true) :
      Change header (.convCreate rconv) c c'
  | convDropped {rconv : RequestConv} {c c' : Conn}
      (hadmin : c.db.ConvAdmin rconv.convId.toNat header.userId.toNat)
      (h : c'.db = c.db.dropConv c.fk rconv.convId.toNat) : Change header (.convDrop rconv) c c'
  | convJoined {rconv : RequestConv} {c c' : Conn} {n : Nat}
      (hmember : c.db.ConvMember rconv.convId.toNat header.userId.toNat)
      (h : c.db.insertMember c.fk rconv.convId.toNat rconv.userId.toNat = some (c'.db, some n)) :
      Change header (.convJoin rconv) c c'
  /-- An admin who names somebody else leaves too. -/
  | convQuit {rconv : RequestConv} {c c' : Conn}
      (hmember : c.db.ConvMember rconv.convId.toNat header.userId.toNat)
      (hwho : rconv.userId = header.userId ↔
        ¬ c.db.ConvAdmin rconv.convId.toNat header.userId.toNat)
      (h : c'.db = c.db.deleteMembers fun m =>
        m.convId = rconv.convId.toNat && m.userId = header.userId.toNat) :
      Change header (.convQuit rconv) c c'
  | chatCreated {rchat : RequestChat} {c c' : Conn} {n : Nat} (hne : header.userId ≠ rchat.userId2)
      (h : c.db.insertChat true header.userId.toNat rchat.userId2.toNat = some (c'.db, some n))
      (hfk : c'.fk = true) : Change header (.chatCreate rchat) c c'
  | chatDropped {rchat : RequestChat} {c c' : Conn}
      (hmember : c.db.ChatMember rchat.chatId.toNat header.userId.toNat)
      (h : c'.db = c.db.dropChat c.fk rchat.chatId.toNat) : Change header (.chatDrop rchat) c c'
  | msgSent {rm : RequestMsgBody} {c c' : Conn} {msg : MsgSchema} {now : UInt32} {n : Nat}
      (hroom : c.db.ConvMember rm.convId.toNat header.userId.toNat ∨
        c.db.ChatMember rm.chatId.toNat header.userId.toNat)
      (hfrom : msg.fromUid = header.userId) (hreply : msg.replyTo = rm.replyId)
      (hconv : msg.convId = rm.convId) (hchat : msg.chatId = rm.chatId)
      (h : msg.Sends now c.db c'.db n) : Change header (.msgSend rm) c c'
  | msgDelivered {rm : RequestMsgBody} {c c' : Conn} {msg : MsgRow} (hmsg : msg ∈ c.db.messages)
      (hid : msg.id = rm.msgId.toNat) (hread : c.db.Readable msg header.userId.toNat)
      (h : c'.db = c.db.updateMessage rm.msgId.toNat ({ · with type := .delivered })) :
      Change header (.msgGetDetail rm) c c'
  | msgDeleted {rm : RequestMsgBody} {c c' : Conn} {msg : MsgRow} (hmsg : msg ∈ c.db.messages)
      (hid : msg.id = rm.msgId.toNat) (hread : c.db.Readable msg header.userId.toNat)
      (h : c'.db = c.db.updateMessage rm.msgId.toNat
        ({ · with content := default, type := .deleted })) : Change header (.msgDelete rm) c c'

/-! ## The parts of the handlers -/

variable {c c' : Conn} {out : Handled}

theorem runs_respond {r : ResponseCall} :
    Runs Answers c (respond r) c' out ↔ c' = c ∧ out = { sent := [r] } := runs_ret

theorem runs_responseErr {status : UInt32} {group action : UInt8} :
    Runs Answers c (responseErr status group action) c' out ↔
      c' = c ∧ out = { sent := [.err status group action] } := runs_ret

theorem runs_deref {α : Type} {p : Option α} {k : α → SqlProg Handled} :
    Runs Answers c (deref p k) c' out ↔ (∃ a, p = some a ∧ Runs Answers c (k a) c' out) ∨
      p = none ∧ c' = c ∧ out = { undefined := true } := by
  cases p with
  | none => simp [deref, undefinedBehaviour, runs_ret]
  | some a => simp [deref]

/-- The answer of a query for existence, unless it failed. -/
theorem exists_or_err {b : Bool} {rc : Rc} {rows : List (List Val)} {P : Prop}
    (hP : rows ≠ [] ↔ P)
    (h : b = true ∧ rc = .ok ∧ rows ≠ [] ∨
      b = false ∧ (rc = .empty ∧ rows = [] ∨ sqlIsErr rc = true)) :
    sqlIsErr rc = true ∨ (b = true ↔ P) := by
  rcases h with ⟨rfl, -, hrows⟩ | ⟨rfl, ⟨-, hnil⟩ | herr⟩
  · exact Or.inr ⟨fun _ => hP.mp hrows, fun _ => rfl⟩
  · refine Or.inr ⟨by simp, fun h => absurd hnil (hP.mpr h)⟩
  · exact Or.inl herr

theorem runs_convIsMember {convId userId : UInt32} {b : Bool} {rc : Rc}
    (h : Runs Answers c (convIsMember convId userId) c' (b, rc)) :
    c' = c ∧ (sqlIsErr rc = true ∨ (b = true ↔ c.db.ConvMember convId.toNat userId.toNat)) := by
  obtain ⟨rfl, hcases⟩ := runs_sqlExists (by simp) h
  exact ⟨rfl, exists_or_err convMember_rows hcases⟩

theorem runs_convIsAdmin {convId userId : UInt32} {b : Bool} {rc : Rc}
    (h : Runs Answers c (convIsAdmin convId userId) c' (b, rc)) :
    c' = c ∧ (sqlIsErr rc = true ∨ (b = true ↔ c.db.ConvAdmin convId.toNat userId.toNat)) := by
  obtain ⟨rfl, hcases⟩ := runs_sqlExists (by simp) h
  exact ⟨rfl, exists_or_err convAdmin_rows hcases⟩

theorem runs_chatIsMember {chatId userId : UInt32} {b : Bool} {rc : Rc}
    (h : Runs Answers c (chatIsMember chatId userId) c' (b, rc)) :
    c' = c ∧ (sqlIsErr rc = true ∨ (b = true ↔ c.db.ChatMember chatId.toNat userId.toNat)) := by
  obtain ⟨rfl, hcases⟩ := runs_sqlExists (by simp) h
  exact ⟨rfl, exists_or_err chatMember_rows hcases⟩

/-- An error answer, with the tables as they were. -/
def Refused (c c' : Conn) (out : Handled) : Prop :=
  c' = c ∧ ∃ status group action, out = { sent := [.err status group action] }

theorem refused_responseErr {status : UInt32} {group action : UInt8}
    (h : Runs Answers c (responseErr status group action) c' out) : Refused c c' out := by
  obtain ⟨rfl, rfl⟩ := runs_responseErr.mp h
  exact ⟨rfl, status, group, action, rfl⟩

/-- A handler that asks for the existence of a row first. -/
theorem runs_ifExists {check : SqlProg (Bool × Rc)} {P : Prop}
    (hcheck : ∀ {c₁ : Conn} {b : Bool} {rc : Rc}, Runs Answers c check c₁ (b, rc) →
      c₁ = c ∧ (sqlIsErr rc = true ∨ (b = true ↔ P)))
    {status status' : UInt32} {group group' action action' : UInt8} {k : SqlProg Handled}
    (h : Runs Answers c (do
      let (found, rc) ← check
      if sqlIsErr rc then responseErr status group action
      else if !found then responseErr status' group' action'
      else k) c' out) : Refused c c' out ∨ P ∧ Runs Answers c k c' out := by
  simp only [runs_bind] at h
  obtain ⟨c₁, ⟨b, rc⟩, hfound, h⟩ := h
  obtain ⟨rfl, hb⟩ := hcheck hfound
  dsimp only at h
  split at h
  · exact Or.inl (refused_responseErr h)
  rename_i hnoterr
  split at h
  · exact Or.inl (refused_responseErr h)
  · rename_i hnot
    exact Or.inr ⟨(hb.resolve_left hnoterr).mp (by simpa using hnot), h⟩

/-- A handler that asks for membership of the conversation first. -/
theorem runs_ifConvMember {convId userId : UInt32} {status : UInt32} {action action' : UInt8}
    {k : SqlProg Handled}
    (h : Runs Answers c (do
      let (isMember, rc) ← convIsMember convId userId
      if sqlIsErr rc then responseErr 500 2 action
      else if !isMember then responseErr status 2 action'
      else k) c' out) :
    Refused c c' out ∨ c.db.ConvMember convId.toNat userId.toNat ∧ Runs Answers c k c' out :=
  runs_ifExists runs_convIsMember h

/-- A message as `msg_get_detail` returns it. -/
def MsgRow.schema (m : MsgRow) (msgId : UInt32) : MsgSchema where
  id := msgId
  fromUid := UInt32.ofNat m.fromUid
  replyTo := (Val.ofOption m.replyTo).columnInt
  contentType := (Val.int m.contentType).columnInt.toInt32
  contentLength := UInt32.ofNat m.contentLength
  content := m.content
  createdAt := UInt32.ofNat m.createdAt
  chatId := (Val.ofOption m.chatId).columnInt
  convId := (Val.ofOption m.convId).columnInt
  type := (UInt32.ofNat m.type.code).toInt32

section Guards

variable {S : Conn → SqlCall → Conn → Reply → Prop} (hS : S ≤ Answers)
include hS

/-- The guard of the message handlers. -/
theorem runs_ifRoomMember {convId chatId userId : UInt32} {action : UInt8} {k : SqlProg Handled}
    (h : Runs S c (ifRoomMember convId chatId userId action k) c' out) :
    Refused c c' out ∨
      (c.db.ConvMember convId.toNat userId.toNat ∨ c.db.ChatMember chatId.toNat userId.toNat) ∧
        Runs S c k c' out := by
  simp only [ifRoomMember, runs_bind] at h
  obtain ⟨c₁, ⟨b, rc⟩, hmember, h⟩ := h
  obtain ⟨rfl, hb⟩ := runs_convIsMember (hmember.mono hS)
  dsimp only at h
  split at h
  · exact Or.inl (refused_responseErr (h.mono hS))
  rename_i hnoterr
  split at h
  · rename_i hmem
    exact Or.inr ⟨Or.inl ((hb.resolve_left hnoterr).mp hmem), h⟩
  simp only [runs_bind] at h
  -- not a member of the conversation: the chat decides
  obtain ⟨c₂, ⟨b', rc'⟩, hmember', h⟩ := h
  obtain ⟨rfl, hb'⟩ := runs_chatIsMember (hmember'.mono hS)
  dsimp only at h
  split at h
  · exact Or.inl (refused_responseErr (h.mono hS))
  rename_i hnoterr'
  split at h
  · rename_i hmem
    exact Or.inr ⟨Or.inr ((hb'.resolve_left hnoterr').mp hmem), h⟩
  · exact Or.inl (refused_responseErr (h.mono hS))

/-- A handler that looks up a row first and goes on with it. -/
theorem runs_lookup {α : Type} {q : Query} {f : List Val → α} {group action : UInt8}
    {k : α → SqlProg Handled} (hq : q ≠ .raw)
    (h : Runs S c (do
      let (row, rc) ← sqlGetInfo q f
      if sqlIsErr rc then responseErr 500 group action
      else if rc = .empty then responseErr 404 group action
      else deref row k) c' out) :
    Refused c c' out ∨ ∃ cols, (q.rows c.db)[0]? = some cols ∧ Runs S c (k (f cols)) c' out := by
  simp only [runs_bind] at h
  obtain ⟨c₁, ⟨row, rc⟩, hget, h⟩ := h
  obtain ⟨rfl, hcases⟩ := runs_sqlGetInfo hq (hget.mono hS)
  dsimp only at h
  split at h
  · exact Or.inl (refused_responseErr (h.mono hS))
  split at h
  · exact Or.inl (refused_responseErr (h.mono hS))
  rename_i hnoterr hnotempty
  rcases hcases with ⟨cols, hcols, rfl, -⟩ | ⟨-, ⟨hempty, -⟩ | herr⟩
  · exact Or.inr ⟨cols, hcols, h⟩
  · exact absurd hempty hnotempty
  · exact absurd herr hnoterr

/-- The guard of the handlers that take the id of a message: it is there, it is the
    first one with that id, and the user may read it. -/
theorem runs_ifReadable {msgId userId : UInt32} {action : UInt8} {k : MsgSchema → SqlProg Handled}
    (h : Runs S c (ifReadable msgId userId action k) c' out) :
    Refused c c' out ∨ ∃ m, (c.db.messages.filter (·.id = msgId.toNat))[0]? = some m ∧
      c.db.Readable m userId.toNat ∧ Runs S c (k (m.schema msgId)) c' out := by
  unfold ifReadable msgGetDetail at h
  rcases runs_lookup hS (by simp) h with hrefused | ⟨cols, hcols, hrun⟩
  · exact Or.inl hrefused
  obtain ⟨m, hm, rfl⟩ : ∃ m, (c.db.messages.filter (·.id = msgId.toNat))[0]? = some m ∧
      m.cols = cols := by
    simpa [Query.rows] using hcols
  -- the columns of the row are the fields of the schema
  have hschema : Runs S c (ifRoomMember (m.schema msgId).convId (m.schema msgId).chatId
      userId action (k (m.schema msgId))) c' out := by
    simpa [MsgRow.cols, MsgRow.schema, Val.columnText] using hrun
  rcases runs_ifRoomMember hS hschema with hrefused | ⟨hread, hrun⟩
  · exact Or.inl hrefused
  · exact Or.inr ⟨m, hm, hread, hrun⟩

end Guards

/-- When no call fails, membership of either room passes the guard. -/
theorem Delivers.ifRoomMember {S : Conn → SqlCall → Conn → Reply → Prop}
    {convId chatId userId : UInt32} {action : UInt8} {k : SqlProg Handled}
    (hconvs : Delivers S c (.convMember convId.toNat userId.toNat)
      ((Query.convMember convId.toNat userId.toNat).rows c.db))
    (hchats : Delivers S c (.chatMember chatId.toNat userId.toNat)
      ((Query.chatMember chatId.toNat userId.toNat).rows c.db))
    (hroom : c.db.ConvMember convId.toNat userId.toNat ∨
      c.db.ChatMember chatId.toNat userId.toNat)
    (hk : Runs S c k c' out) : Runs S c (ifRoomMember convId chatId userId action k) c' out := by
  rw [MeshChat.ifRoomMember, runs_bind]
  by_cases hconv : c.db.ConvMember convId.toNat userId.toNat
  · exact ⟨c, _, hconvs.sqlExists_some (convMember_rows.mpr hconv), hk⟩
  -- the chat is only asked for when the conversation did not answer
  · have hchat := hroom.resolve_left hconv
    have hnone : (Query.convMember convId.toNat userId.toNat).rows c.db = [] :=
      not_not.mp fun hrows => hconv (convMember_rows.mp hrows)
    refine ⟨c, _, hconvs.sqlExists_none hnone, runs_bind.mpr ?_⟩
    exact ⟨c, _, hchats.sqlExists_some (chatMember_rows.mpr hchat), hk⟩

/-- A list of ids is answered from the rows of its query. -/
theorem runs_respondList {q : Query} {group action : UInt8} {response : List UInt32 → ResponseCall}
    (hq : q ≠ .raw) (h : Runs Answers c (respondList (sqlGetList q) group action response) c' out) :
    Refused c c' out ∨ c' = c ∧ ∃ n,
      out = { sent := [response (((q.rows c.db).take n).map columnZero).reverse] } := by
  simp only [respondList, runs_bind] at h
  obtain ⟨c₁, ⟨ls, rc⟩, hlist, h⟩ := h
  obtain ⟨rfl, hcases⟩ := runs_sqlGetList hq hlist
  dsimp only at h
  split at h
  · exact Or.inl (refused_responseErr h)
  · rename_i hnoterr
    obtain ⟨rfl, rfl⟩ := runs_respond.mp h
    rcases hcases with ⟨n, rfl, -⟩ | ⟨-, herr⟩
    · exact Or.inr ⟨rfl, n, rfl⟩
    · exact absurd herr hnoterr

/-- The room whose messages `handle_msg_get_all` lists: the chat, if one is named. -/
def msgGetAllQuery (header : RequestHeader) (rm : RequestMsgBody) : Query :=
  if 0 < rm.chatId then
    .messagesOfChat rm.chatId.toNat (clampPage header.limit).toInt (clampPage header.offset).toInt
  else
    .messagesOfConv rm.convId.toNat (clampPage header.limit).toInt (clampPage header.offset).toInt

theorem handleMsgGetAll_eq (header : RequestHeader) (rm : RequestMsgBody) :
    handleMsgGetAll header rm = ifRoomMember rm.convId rm.chatId header.userId 0 (do
      let (ls, rc) ← sqlGetList (msgGetAllQuery header rm)
      if sqlIsErr rc then responseErr 500 4 0
      else if rc = .empty then responseErr 404 4 0
      else respond (.msgGetAll 200 ls)) := by
  have hlist : (if 0 < rm.chatId then
      msgChatGetAll rm.chatId (clampPage header.limit) (clampPage header.offset)
      else msgConvGetAll rm.convId (clampPage header.limit) (clampPage header.offset)) =
      sqlGetList (msgGetAllQuery header rm) := by
    unfold msgGetAllQuery
    split <;> rfl
  unfold handleMsgGetAll
  dsimp only
  rw [hlist]

theorem runs_handleMsgGetAll {header : RequestHeader} {rm : RequestMsgBody}
    (h : Runs Answers c (handleMsgGetAll header rm) c' out) :
    Refused c c' out ∨
      (c.db.ConvMember rm.convId.toNat header.userId.toNat ∨
        c.db.ChatMember rm.chatId.toNat header.userId.toNat) ∧
      c' = c ∧ ∃ n, out = { sent := [.msgGetAll 200
        ((((msgGetAllQuery header rm).rows c.db).take n).map columnZero).reverse] } := by
  have hraw : msgGetAllQuery header rm ≠ .raw := by
    unfold msgGetAllQuery
    split <;> simp
  rw [handleMsgGetAll_eq] at h
  rcases runs_ifRoomMember le_rfl h with hrefused | ⟨hroom, hrest⟩
  · exact Or.inl hrefused
  simp only [runs_bind] at hrest
  obtain ⟨c₁, ⟨ls, rc⟩, hget, hrest⟩ := hrest
  obtain ⟨rfl, hcases⟩ := runs_sqlGetList hraw hget
  dsimp only at hrest
  split at hrest
  · exact Or.inl (refused_responseErr hrest)
  split at hrest
  · exact Or.inl (refused_responseErr hrest)
  rename_i hnoterr _
  obtain ⟨rfl, rfl⟩ := runs_respond.mp hrest
  -- a failing step cuts the list short
  rcases hcases with ⟨n, rfl, -⟩ | ⟨-, herr⟩
  · exact Or.inr ⟨hroom, rfl, n, rfl⟩
  · exact absurd herr hnoterr

/-- The answer behind a write. -/
theorem runs_report {rc : Rc} {status : UInt32} {group action : UInt8} {r : ResponseCall}
    (h : Runs Answers c (if sqlIsErr rc then responseErr status group action else respond r) c'
      out) : c' = c := by
  split at h
  · exact (refused_responseErr h).1
  · exact (runs_respond.mp h).1

/-- The answer behind an insert, where a violated constraint is a conflict. -/
theorem runs_reportInsert {rc : Rc} {status status' : UInt32} {group action : UInt8}
    {r : ResponseCall}
    (h : Runs Answers c (if sqlIsErr rc then
        if rc = .constraint then responseErr status group action
        else responseErr status' group action
      else respond r) c' out) : c' = c := by
  split at h
  · split at h
    · exact (refused_responseErr h).1
    · exact (refused_responseErr h).1
  · exact (runs_respond.mp h).1

/-- `handle_conv_quit`: the one who asks leaves, and is told so, or nothing happens. An
    admin passes if another is named, all others if they name themselves. -/
theorem runs_handleConvQuit {header : RequestHeader} {rconv : RequestConv}
    (h : Runs Answers c (handleConvQuit header rconv) c' out) :
    Refused c c' out ∨ c.db.ConvMember rconv.convId.toNat header.userId.toNat ∧
      (rconv.userId = header.userId ↔
        ¬ c.db.ConvAdmin rconv.convId.toNat header.userId.toNat) ∧
      c' = { c with db := c.db.deleteMembers fun m =>
        m.convId = rconv.convId.toNat && m.userId = header.userId.toNat } ∧
      out = { sent := [.convQuit 200] } := by
  rcases runs_ifConvMember h with hrefused | ⟨hmember, hrest⟩
  · exact Or.inl hrefused
  simp only [runs_bind] at hrest
  obtain ⟨c₁, ⟨b, rc⟩, hadmin, hrest⟩ := hrest
  obtain ⟨rfl, hb⟩ := runs_convIsAdmin hadmin
  dsimp only at hrest
  split at hrest
  · exact Or.inl (refused_responseErr hrest)
  rename_i hnoterr
  split at hrest
  · exact Or.inl (refused_responseErr hrest)
  rename_i hother
  split at hrest
  · exact Or.inl (refused_responseErr hrest)
  rename_i hself
  have hwho : rconv.userId = header.userId ↔
      ¬ c₁.db.ConvAdmin rconv.convId.toNat header.userId.toNat := by
    rw [← hb.resolve_left hnoterr]
    by_cases hname : rconv.userId = header.userId
    · simpa [hname] using hself
    · simpa [hname] using hother
  simp only [runs_bind] at hrest
  obtain ⟨c₂, rc', hquit, hrest⟩ := hrest
  -- the delete has no constraint to violate, so that any code but `SQLITE_OK` is a failure
  rcases runs_sqlExec (by simp) hquit with ⟨rfl, rfl⟩ | ⟨rfl, hfail⟩
  · rw [if_neg (by simp [Stmt.run, Stmt.apply, sqlIsErr, sqlIsOk])] at hrest
    obtain ⟨rfl, rfl⟩ := runs_respond.mp hrest
    exact Or.inr ⟨hmember, hwho, rfl, rfl⟩
  · rw [if_pos (sqlIsErr_of_isFailure hfail)] at hrest
    exact Or.inl (refused_responseErr hrest)

/-! ## The handlers -/

theorem Refused.change {header : RequestHeader} {route : Route} (h : Refused c c' out)
    (hidle : c.saved = none) : Settled c c' ∧ Change header route c c' := by
  obtain ⟨rfl, -⟩ := h
  exact ⟨⟨hidle, id⟩, .unchanged rfl⟩

section Handlers

variable {env : Env} {header : RequestHeader} (hidle : c.saved = none)
include hidle

theorem handleAuthRegister_change {ra : RequestAuth}
    (hquote : ∀ s ∈ (RequestBody.auth ra).strings, quote ∉ s.bytes)
    (h : Runs Answers c (handleAuthRegister env ra) c' out) :
    Settled c c' ∧ Change header (.authRegister ra) c c' := by
  simp only [handleAuthRegister, runs_deref] at h
  -- a field that is `NULL` ends the handler before it reaches sqlite
  rcases h with ⟨uname, huname, h⟩ | ⟨-, rfl, -⟩
  swap
  · exact ⟨⟨hidle, id⟩, .unchanged rfl⟩
  rcases h with ⟨password, -, h⟩ | ⟨-, rfl, -⟩
  swap
  · exact ⟨⟨hidle, id⟩, .unchanged rfl⟩
  rcases h with ⟨phone, hphone, h⟩ | ⟨-, rfl, -⟩
  swap
  · exact ⟨⟨hidle, id⟩, .unchanged rfl⟩
  rcases h with ⟨email, hemail, h⟩ | ⟨-, rfl, -⟩
  swap
  · exact ⟨⟨hidle, id⟩, .unchanged rfl⟩
  split at h
  · exact (refused_responseErr h).change hidle
  rename_i hashed hhash
  -- the strings of the request and the hexadecimal digits
  have hfree : (TextQuery.userCreate uname hashed phone email).QuoteFree := by
    intro s hs
    simp only [TextQuery.strings, List.mem_cons, List.not_mem_nil, or_false] at hs
    rcases hs with rfl | rfl | rfl | rfl
    · exact hquote _ (by simp [RequestBody.strings, huname])
    · exact quoteFree_hashStr hhash
    · exact hquote _ (by simp [RequestBody.strings, hphone])
    · exact hquote _ (by simp [RequestBody.strings, hemail])
  simp only [runs_bind] at h
  obtain ⟨c₁, ⟨id, rc⟩, hcreate, h⟩ := h
  obtain ⟨hsaved, hfk, hcases⟩ := runs_sqlInsert (TextQuery.isInsert hfree rfl) hcreate
  obtain rfl := runs_reportInsert h
  refine ⟨⟨hsaved.trans hidle, hfk.trans⟩, ?_⟩
  rcases hcases with ⟨-, n, happly, -⟩ | ⟨-, hdb⟩
  · obtain ⟨hroom, happly⟩ := TextQuery.apply_insertStmt hfree happly
    exact .registered hroom happly
  · exact .unchanged hdb

theorem handleConvCreate_change {rconv : RequestConv}
    (hquote : ∀ s ∈ (RequestBody.conv rconv).strings, quote ∉ s.bytes)
    (h : Runs Answers c (handleConvCreate header rconv) c' out) :
    Settled c c' ∧ Change header (.convCreate rconv) c c' := by
  simp only [handleConvCreate, runs_deref] at h
  rcases h with ⟨gname, hgname, h⟩ | ⟨-, rfl, -⟩
  · have hfree : quote ∉ gname.bytes := hquote gname (by simp [RequestBody.strings, hgname])
    simp only [runs_bind] at h
    obtain ⟨c₁, ⟨id, rc⟩, hcreate, h⟩ := h
    obtain ⟨hsettled, hcases⟩ := runs_convCreate hfree hidle hcreate
    obtain rfl := runs_report h
    refine ⟨hsettled, ?_⟩
    rcases hcases with ⟨-, hfk, n, hcreates, -⟩ | ⟨-, hdb⟩
    · exact .convCreated hcreates hfk
    · exact .unchanged hdb
  · exact ⟨⟨hidle, id⟩, .unchanged rfl⟩

theorem handleConvDrop_change {rconv : RequestConv}
    (h : Runs Answers c (handleConvDrop header rconv) c' out) :
    Settled c c' ∧ Change header (.convDrop rconv) c c' := by
  rcases runs_ifExists runs_convIsAdmin h with hrefused | ⟨hadmin, h⟩
  · exact hrefused.change hidle
  simp only [runs_bind] at h
  obtain ⟨c₂, rc', hdrop, h⟩ := h
  obtain ⟨hsaved, hfk, hcases⟩ := runs_convDrop hidle hdrop
  obtain rfl := runs_report h
  refine ⟨⟨hsaved, hfk.trans⟩, ?_⟩
  rcases hcases with ⟨-, hdb⟩ | ⟨-, hdb⟩
  · exact .convDropped hadmin hdb
  · -- rolled back
    exact .unchanged hdb

theorem handleConvJoin_change {rconv : RequestConv}
    (h : Runs Answers c (handleConvJoin header rconv) c' out) :
    Settled c c' ∧ Change header (.convJoin rconv) c c' := by
  rcases runs_ifConvMember h with hrefused | ⟨hmember, h⟩
  · exact hrefused.change hidle
  simp only [convJoin, pure_eq, runs_bind, runs_ret] at h
  obtain ⟨c₁, rc, ⟨c₂, ⟨id, rc₂⟩, hinsert, rfl, rfl⟩, h⟩ := h
  obtain ⟨hsaved, hfk, hcases⟩ := runs_sqlInsert ⟨by simp, Or.inl rfl⟩ hinsert
  obtain rfl := runs_report h
  refine ⟨⟨hsaved.trans hidle, hfk.trans⟩, ?_⟩
  rcases hcases with ⟨-, n, happly, -⟩ | ⟨-, hdb⟩
  · exact .convJoined hmember happly
  · exact .unchanged hdb

theorem handleConvQuit_change {rconv : RequestConv}
    (h : Runs Answers c (handleConvQuit header rconv) c' out) :
    Settled c c' ∧ Change header (.convQuit rconv) c c' := by
  rcases runs_handleConvQuit h with hrefused | ⟨hmember, hwho, rfl, -⟩
  · exact hrefused.change hidle
  · exact ⟨⟨hidle, id⟩, .convQuit hmember hwho rfl⟩

theorem handleChatCreate_change {rchat : RequestChat}
    (h : Runs Answers c (handleChatCreate header rchat) c' out) :
    Settled c c' ∧ Change header (.chatCreate rchat) c c' := by
  unfold handleChatCreate at h
  split at h
  · exact (refused_responseErr h).change hidle
  rename_i hne
  simp only [runs_bind] at h
  obtain ⟨c₁, ⟨id, rc⟩, hcreate, h⟩ := h
  obtain ⟨hsettled, hcases⟩ := runs_chatCreate hidle hcreate
  obtain rfl := runs_reportInsert h
  refine ⟨hsettled, ?_⟩
  rcases hcases with ⟨-, hfk, n, happly, -⟩ | ⟨-, hdb⟩
  · exact .chatCreated hne happly hfk
  · exact .unchanged hdb

theorem handleChatDrop_change {rchat : RequestChat}
    (h : Runs Answers c (handleChatDrop header rchat) c' out) :
    Settled c c' ∧ Change header (.chatDrop rchat) c c' := by
  rcases runs_ifExists runs_chatIsMember h with hrefused | ⟨hmember, h⟩
  · exact hrefused.change hidle
  simp only [runs_bind] at h
  obtain ⟨c₂, rc', hdrop, h⟩ := h
  obtain ⟨hsaved, hfk, hcases⟩ := runs_chatDrop hidle hdrop
  obtain rfl := runs_report h
  refine ⟨⟨hsaved, hfk.trans⟩, ?_⟩
  rcases hcases with ⟨-, hdb⟩ | ⟨-, hdb⟩
  · exact .chatDropped hmember hdb
  · -- rolled back
    exact .unchanged hdb

theorem handleMsgGetDetail_change {rm : RequestMsgBody}
    (h : Runs Answers c (handleMsgGetDetail header rm) c' out) :
    Settled c c' ∧ Change header (.msgGetDetail rm) c c' := by
  rcases runs_ifReadable le_rfl h with hrefused | ⟨m, hm, hread, h⟩
  · exact hrefused.change hidle
  simp only [runs_bind] at h
  obtain ⟨c₁, rc, hdelivered, h⟩ := h
  obtain ⟨rfl, -⟩ := runs_respond.mp h
  obtain ⟨hmem, hid⟩ := List.mem_filter.mp (List.mem_of_getElem? hm)
  -- the code of the update is not looked at
  rcases runs_sqlExecIgnored (by simp) hdelivered with ⟨-, rfl | rfl⟩
  · exact ⟨⟨hidle, id⟩, .msgDelivered hmem (by simpa using hid) hread rfl⟩
  · exact ⟨⟨hidle, id⟩, .unchanged rfl⟩

theorem handleMsgDelete_change {rm : RequestMsgBody}
    (h : Runs Answers c (handleMsgDelete header rm) c' out) :
    Settled c c' ∧ Change header (.msgDelete rm) c c' := by
  rcases runs_ifReadable le_rfl h with hrefused | ⟨m, hm, hread, h⟩
  · exact hrefused.change hidle
  simp only [runs_bind] at h
  obtain ⟨c₁, rc, hdelete, h⟩ := h
  obtain rfl := runs_report h
  obtain ⟨hmem, hid⟩ := List.mem_filter.mp (List.mem_of_getElem? hm)
  -- 200 is answered even if the update has failed
  rcases runs_sqlExecIgnored (by simp) hdelete with ⟨-, rfl | rfl⟩
  · exact ⟨⟨hidle, id⟩, .msgDeleted hmem (by simpa using hid) hread rfl⟩
  · exact ⟨⟨hidle, id⟩, .unchanged rfl⟩

theorem sendMsg_change {rm : RequestMsgBody} {msg : MsgSchema}
    (hroom : c.db.ConvMember rm.convId.toNat header.userId.toNat ∨
      c.db.ChatMember rm.chatId.toNat header.userId.toNat)
    (hquote : quote ∉ msg.content.bytes) (hfrom : msg.fromUid = header.userId)
    (hreply : msg.replyTo = rm.replyId) (hconv : msg.convId = rm.convId)
    (hchat : msg.chatId = rm.chatId) (h : Runs Answers c (sendMsg env msg) c' out) :
    Settled c c' ∧ Change header (.msgSend rm) c c' := by
  simp only [sendMsg, runs_bind] at h
  obtain ⟨c₁, ⟨id, rc⟩, hsend, h⟩ := h
  obtain ⟨hsettled, hcases⟩ := runs_msgSend hquote hidle hsend
  obtain rfl := runs_reportInsert h
  refine ⟨hsettled, ?_⟩
  rcases hcases with ⟨-, n, hsends, -⟩ | ⟨-, hdb⟩
  · exact .msgSent hroom hfrom hreply hconv hchat hsends
  · exact .unchanged hdb

theorem handleMsgSend_change {rm : RequestMsgBody}
    (hquote : ∀ s ∈ (RequestBody.msg rm).strings, quote ∉ s.bytes)
    (h : Runs Answers c (handleMsgSend env header rm) c' out) :
    Settled c c' ∧ Change header (.msgSend rm) c c' := by
  simp only [handleMsgSend, runs_deref] at h
  rcases h with ⟨content, hcontent, h⟩ | ⟨-, rfl, -⟩
  swap
  · exact ⟨⟨hidle, id⟩, .unchanged rfl⟩
  have hfree : quote ∉ content.bytes := hquote content (by simp [RequestBody.strings, hcontent])
  rcases runs_ifRoomMember le_rfl h with hrefused | ⟨hroom, h⟩
  · exact hrefused.change hidle
  split at h
  · exact sendMsg_change hidle hroom hfree rfl rfl rfl rfl h
  split at h
  -- a file: what is stored is its path, once it has been received
  · simp only [runs_deref] at h
    rcases h with ⟨path, hpath, h⟩ | ⟨-, rfl, -⟩
    · split at h
      · exact (refused_responseErr h).change hidle
      · exact (refused_responseErr h).change hidle
      · exact (refused_responseErr h).change hidle
      · rw [pure_eq, runs_ret] at h
        obtain ⟨rfl, -⟩ := h
        exact ⟨⟨hidle, id⟩, .unchanged rfl⟩
      · exact sendMsg_change hidle hroom (quoteFree_storagePath hfree hpath) rfl rfl rfl rfl h
    · exact ⟨⟨hidle, id⟩, .unchanged rfl⟩
  · exact (refused_responseErr h).change hidle

end Handlers

/-! ### Handlers that only read -/

/-- Only queries, and only such as are instances of their templates. -/
def queryProtocol (α : Type) : Protocol SqlCall Reply α Unit where
  allows _ c := c.IsRead ∧ c.Modelled
  next _ _ _ := ()
  done _ _ := True

abbrev Queries {α : Type} (p : SqlProg α) : Prop := Conforms (queryProtocol α) () p

/-- A program of queries leaves the connection as it is. -/
theorem Queries.runs {α : Type} {p : SqlProg α} {a : α} (hp : Queries p)
    (h : Runs Answers c p c' a) : c' = c := by
  refine hp.preserves (I := (· = c)) ?_ h rfl
  rintro _ c₁ call c₂ r ⟨hread, hmodel⟩ hcall rfl
  cases call with
  | calloc => exact answers_calloc hcall
  | prepareQuery q => exact (answers_prepareQuery hmodel hcall).1
  | fetch q i => exact (answers_fetch hmodel hcall).1
  | _ => exact hread.elim

theorem Queries.bind {α β : Type} {p : SqlProg α} {k : α → SqlProg β} (hp : Queries p)
    (hk : ∀ a, Queries (k a)) : Queries (p >>= k) :=
  Conforms.bind (hp.mono (fun _ _ h => h) (fun _ _ _ => rfl) fun _ a _ => hk a)

@[simp] theorem queries_respond (r : ResponseCall) : Queries (respond r) := trivial

@[simp] theorem queries_responseErr (status : UInt32) (group action : UInt8) :
    Queries (responseErr status group action) := trivial

theorem queries_deref {α : Type} {p : Option α} {k : α → SqlProg Handled}
    (hk : ∀ a, p = some a → Queries (k a)) : Queries (deref p k) := by
  cases p with
  | none => exact trivial
  | some a => exact hk a rfl

theorem queries_sqlFirstRow {α : Type} {q : Query} {f : List Val → α} (hq : q ≠ .raw) :
    Queries (sqlFirstRow q f) := by
  simp [sqlFirstRow, queryProtocol, SqlCall.IsRead, SqlCall.Modelled, hq]

theorem queries_sqlGetInfo {α : Type} {q : Query} {f : List Val → α} (hq : q ≠ .raw) :
    Queries (sqlGetInfo q f) := by
  have hrow := queries_sqlFirstRow (f := f) hq
  simp only [sqlGetInfo, invoke_bind, pure_eq, conforms_call, conforms_ite, conforms_ret]
  exact ⟨⟨trivial, trivial⟩, fun _ => ⟨fun _ => trivial, fun _ => hrow⟩⟩

theorem queries_sqlExists {q : Query} (hq : q ≠ .raw) : Queries (sqlExists q) :=
  (queries_sqlFirstRow hq).bind fun _ => trivial

theorem queries_sqlGetList {q : Query} (hq : q ≠ .raw) : Queries (sqlGetList q) := by
  simp [sqlGetList, queryProtocol, SqlCall.IsRead, SqlCall.Modelled, hq]

theorem queries_respondList {q : Query} {group action : UInt8}
    {response : List UInt32 → ResponseCall} (hq : q ≠ .raw) :
    Queries (respondList (sqlGetList q) group action response) := by
  refine (queries_sqlGetList hq).bind fun x => ?_
  simp

theorem unameQuery_ne_raw {uname : CStr} (h : quote ∉ uname.bytes) : unameQuery uname ≠ .raw := by
  have hfree : (TextQuery.userGetByUname uname).QuoteFree := by
    simpa [TextQuery.QuoteFree, TextQuery.strings] using h
  unfold unameQuery
  dsimp only
  rw [if_neg (not_not.mpr hfree)]
  split <;> simp

theorem searchQuery_ne_raw {uname : CStr} {limit offset : Int32} (h : quote ∉ uname.bytes) :
    searchQuery uname limit offset ≠ .raw := by
  have hfree : (TextQuery.userSearchByUname uname limit offset).QuoteFree := by
    simpa [TextQuery.QuoteFree, TextQuery.strings] using h
  unfold searchQuery
  dsimp only
  rw [if_neg (not_not.mpr hfree)]
  split
  · simp
  split
  · split <;> simp
  · simp

theorem queries_handleAuthLogin {env : Env} {ra : RequestAuth}
    (hquote : ∀ s ∈ (RequestBody.auth ra).strings, quote ∉ s.bytes) :
    Queries (handleAuthLogin env ra) := by
  refine queries_deref fun uname huname => queries_deref fun password _ => ?_
  have hfree : quote ∉ uname.bytes := hquote uname (by simp [RequestBody.strings, huname])
  refine (queries_sqlGetInfo (unameQuery_ne_raw hfree)).bind fun x => ?_
  simp only [conforms_ite, queries_responseErr, implies_true, true_and]
  intro _ _
  refine queries_deref fun hashed _ => queries_deref fun user _ => ?_
  simp

theorem queries_handleUserSearch {header : RequestHeader} {ru : RequestUser}
    (hquote : ∀ s ∈ (RequestBody.user ru).strings, quote ∉ s.bytes) :
    Queries (handleUserSearch header ru) := by
  refine queries_deref fun uname huname => ?_
  have hfree : quote ∉ uname.bytes := hquote uname (by simp [RequestBody.strings, huname])
  exact queries_respondList (searchQuery_ne_raw hfree)

theorem queries_handleUserGetInfo (ru : RequestUser) : Queries (handleUserGetInfo ru) := by
  refine (queries_sqlGetInfo (by simp)).bind fun x => ?_
  simp only [conforms_ite, queries_responseErr, implies_true, true_and]
  intro _ _
  exact queries_deref fun user _ => trivial

theorem queries_handleConvGetInfo (rconv : RequestConv) : Queries (handleConvGetInfo rconv) := by
  refine (queries_sqlGetInfo (by simp)).bind fun x => ?_
  simp only [conforms_ite, queries_responseErr, implies_true, true_and]
  intro _ _
  exact queries_deref fun conv _ => trivial

theorem queries_handleConvGetMembers (header : RequestHeader) (rconv : RequestConv) :
    Queries (handleConvGetMembers header rconv) := by
  refine (queries_sqlExists (by simp)).bind fun x => ?_
  simp only [conforms_ite, queries_responseErr, implies_true, true_and]
  intro _ _
  exact queries_respondList (by simp)

theorem queries_handleChatGetInfo (header : RequestHeader) (rchat : RequestChat) :
    Queries (handleChatGetInfo header rchat) := by
  refine (queries_sqlGetInfo (by simp)).bind fun x => ?_
  simp only [conforms_ite, queries_responseErr, implies_true, true_and]
  intro _
  refine queries_deref fun chat _ => ?_
  simp

/-- The query of `msg_get_msg_del`. -/
def msgGetMsgDelQuery (userId convId chatId : UInt32) : Query :=
  if convId ≠ 0 then .deletedInConv userId.toNat convId.toNat
  else if chatId ≠ 0 then .deletedInChat userId.toNat chatId.toNat
  else .empty

theorem msgGetMsgDelQuery_ne_raw {userId convId chatId : UInt32} :
    msgGetMsgDelQuery userId convId chatId ≠ .raw := by
  unfold msgGetMsgDelQuery
  split
  · simp
  · split <;> simp

theorem queries_ifRoomMember {convId chatId userId : UInt32} {action : UInt8}
    {k : SqlProg Handled} (hk : Queries k) :
    Queries (ifRoomMember convId chatId userId action k) := by
  refine (queries_sqlExists (by simp)).bind fun x => ?_
  simp only [conforms_ite, queries_responseErr, implies_true, true_and]
  refine fun _ => ⟨fun _ => hk, fun _ => ?_⟩
  refine (queries_sqlExists (by simp)).bind fun y => ?_
  simp only [conforms_ite, queries_responseErr, implies_true, true_and, and_true]
  exact fun _ _ => hk

theorem queries_handleMsgGetAll (header : RequestHeader) (rm : RequestMsgBody) :
    Queries (handleMsgGetAll header rm) := by
  refine queries_ifRoomMember ?_
  split
  · refine (queries_sqlGetList (by simp)).bind fun x => ?_
    simp
  · refine (queries_sqlGetList (by simp)).bind fun x => ?_
    simp

theorem queries_handleMsgDownloadFile (header : RequestHeader) (rm : RequestMsgBody) :
    Queries (handleMsgDownloadFile header rm) := by
  refine (queries_sqlGetInfo (by simp)).bind fun x => ?_
  simp only [conforms_ite, queries_responseErr, implies_true, true_and]
  intro _ _
  refine queries_deref fun msg _ => queries_ifRoomMember ?_
  simp only [conforms_ite, queries_responseErr, implies_true, true_and]
  exact fun _ => ⟨fun _ => trivial, fun _ => trivial⟩

/-! ## All handlers -/

/-- The text fields that a case of the switch reads. -/
def Route.strings : Route → List CStr
  | authRegister r | authLogin r => (RequestBody.auth r).strings
  | userSearch r => (RequestBody.user r).strings
  | convCreate r => (RequestBody.conv r).strings
  | msgSend r => (RequestBody.msg r).strings
  | _ => []

theorem Request.mem_strings_of_route {req : Request} {route : Route} (h : req.route = some route)
    {s : CStr} (hs : s ∈ route.strings) : s ∈ req.body.strings := by
  unfold Request.route at h
  split at h
  case h_24 => cases h
  all_goals
    rename_i hbody
    rw [hbody]
    cases h
    first | exact hs | cases hs

/-- A program of queries changes nothing. -/
theorem Queries.change {header : RequestHeader} {route : Route} {p : SqlProg Handled}
    (hp : Queries p) (hidle : c.saved = none) (h : Runs Answers c p c' out) :
    Settled c c' ∧ Change header route c c' := by
  obtain rfl := hp.runs h
  exact ⟨⟨hidle, id⟩, .unchanged rfl⟩

/-- What each case of the switch can do. -/
theorem Route.change {env : Env} {header : RequestHeader} {route : Route}
    (hquote : ∀ s ∈ route.strings, quote ∉ s.bytes) (hidle : c.saved = none)
    (h : Runs Answers c (route.handle env header) c' out) :
    Settled c c' ∧ Change header route c c' := by
  -- queries change nothing; the others have a lemma of their own
  cases route with
  | authRegister ra => exact handleAuthRegister_change hidle hquote h
  | authLogin ra => exact (queries_handleAuthLogin hquote).change hidle h
  | userLogout => exact (queries_respond _).change hidle h
  | userGetInfo ru => exact (queries_handleUserGetInfo ru).change hidle h
  | userSearch ru => exact (queries_handleUserSearch hquote).change hidle h
  | convCreate rconv => exact handleConvCreate_change hidle hquote h
  | convDrop rconv => exact handleConvDrop_change hidle h
  | convJoin rconv => exact handleConvJoin_change hidle h
  | convQuit rconv => exact handleConvQuit_change hidle h
  | convGetInfo rconv => exact (queries_handleConvGetInfo rconv).change hidle h
  | convGetMembers rconv => exact (queries_handleConvGetMembers header rconv).change hidle h
  | convGetList => exact Queries.change (queries_respondList (by simp)) hidle h
  | chatCreate rchat => exact handleChatCreate_change hidle h
  | chatDrop rchat => exact handleChatDrop_change hidle h
  | chatGetList => exact Queries.change (queries_respondList (by simp)) hidle h
  | chatGetInfo rchat => exact (queries_handleChatGetInfo header rchat).change hidle h
  | msgGetAll rm => exact (queries_handleMsgGetAll header rm).change hidle h
  | msgGetDetail rm => exact handleMsgGetDetail_change hidle h
  | msgSend rm => exact handleMsgSend_change hidle hquote h
  | msgDelete rm => exact handleMsgDelete_change hidle h
  | notifyNewMsg => exact Queries.change (queries_respondList (by simp)) hidle h
  | notifyDelMsg rm => exact Queries.change (queries_respondList msgGetMsgDelQuery_ne_raw) hidle h
  | msgDownloadFile rm => exact (queries_handleMsgDownloadFile header rm).change hidle h

/-- A request with a valid token reaches its handler. -/
theorem handleReq_of_route {env : Env} {r : Request} {route : Route} (henv : env.verified = true)
    (hroute : r.route = some route) : handleReq env (some r) = route.handle env r.header := by
  rw [handleReq, if_neg (by simp [henv]), hroute]

/-- A request reaches its handler, or changes nothing and is answered with an error
    or not at all. -/
theorem handleReq_cases {S : Conn → SqlCall → Conn → Reply → Prop} (hS : S ≤ Answers) {env : Env}
    {req : Option Request} (h : Runs S c (handleReq env req) c' out) :
    (∃ r route, req = some r ∧ r.route = some route ∧
      Runs S c (route.handle env r.header) c' out) ∨ Refused c c' out ∨ c' = c ∧ out = {} := by
  cases req with
  | none => exact Or.inr (Or.inl (refused_responseErr (h.mono hS)))
  | some r =>
    simp only [handleReq] at h
    split at h
    · exact Or.inr (Or.inl (refused_responseErr (h.mono hS)))
    split at h
    · rename_i route hroute
      exact Or.inl ⟨r, route, rfl, hroute, h⟩
    · exact Or.inr (Or.inr (runs_ret.mp h))

/-- What a request can do. -/
theorem handleReq_change {env : Env} {req : Option Request} (hquote : ∀ r ∈ req, r.QuoteFree)
    (hidle : c.saved = none) (h : Runs Answers c (handleReq env req) c' out) :
    Settled c c' ∧ (c'.db = c.db ∨ ∃ r route, req = some r ∧ r.route = some route ∧
      Change r.header route c c') := by
  rcases handleReq_cases le_rfl h with ⟨r, route, rfl, hroute, hrun⟩ | ⟨rfl, -⟩ | ⟨rfl, -⟩
  · have hfree : ∀ s ∈ route.strings, quote ∉ s.bytes :=
      fun s hs => hquote r rfl s (Request.mem_strings_of_route hroute hs)
    obtain ⟨hsettled, hchange⟩ := Route.change hfree hidle hrun
    exact ⟨hsettled, Or.inr ⟨r, route, rfl, hroute, hchange⟩⟩
  · exact ⟨⟨hidle, id⟩, Or.inl rfl⟩
  · exact ⟨⟨hidle, id⟩, Or.inl rfl⟩

end MeshChat
