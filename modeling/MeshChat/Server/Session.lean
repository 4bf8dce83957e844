import MeshChat.Db.SqlServed
import MeshChat.Server.Change

/-! # Sequences of requests

    * `Change.rooms`, `Change.chats`, `Change.messages`: what a request does to
      each table.
    * `RoomIds`: ids are unique, no room has id 0, a member is one of an existing
      conversation, and the rooms of a message have 32-bit ids.
    * `Session`: the connection after some requests, executed one after the other,
      from the empty tables on, where the server may be restarted in between.
    * `Session.inv`: between requests no transaction is open, and `RoomIds` holds.
-/

namespace MeshChat

open CMemory SqlLex Prog

section Tables

variable {header : RequestHeader} {route : Route} {c c' : Conn}

/-! ## Tables -/

/-- An insert that was made. -/
theorem Db.insertRow_inv {valid : Bool} {rowid n : Nat} {db db' : Db}
    (h : Db.insertRow valid rowid db = some (db', some n)) : valid = true ∧ db' = db := by
  unfold Db.insertRow at h
  split at h
  · cases h
    exact ⟨‹_›, rfl⟩
  · cases h

/-- The row of a new message. -/
def NewMsg.row (m : NewMsg) (id : Nat) : MsgRow where
  id := id
  fromUid := m.fromUid
  replyTo := m.replyTo
  contentType := m.contentType
  contentLength := m.contentLength
  content := m.content
  createdAt := m.createdAt
  chatId := m.chatId
  convId := m.convId
  type := .sent

theorem removeMessages_sublist (fk : Bool) (p : MsgRow → Bool) (ms : List MsgRow) :
    (removeMessages fk p ms).Sublist ms := by
  unfold removeMessages
  split
  · exact List.filter_sublist
  · exact List.filter_sublist

/-- The ids of the rows with one id. -/
theorem id_of_mem_filter {α : Type} {l : List α} {f : α → Nat} {id k : Nat}
    (h : k ∈ (l.filter (f · = id)).map f) : k = id := by
  obtain ⟨r, hr, rfl⟩ := List.mem_map.mp h
  exact of_decide_eq_true (List.mem_filter.mp hr).2

namespace Db

variable (db : Db) (fk : Bool) (id : Nat)

@[simp] theorem dropConv_conversations :
    (db.dropConv fk id).conversations = db.conversations.filter (·.id ≠ id) := by
  cases fk <;> simp [dropConv, deleteConversations, deleteMessages, deleteMembers]

@[simp] theorem dropConv_members :
    (db.dropConv fk id).members = db.members.filter (·.convId ≠ id) := by
  cases fk with
  | false => simp [dropConv, deleteConversations, deleteMessages, deleteMembers]
  | true =>
    -- the cascade finds no member that is left
    simp only [dropConv, deleteConversations, deleteMessages, deleteMembers, if_true,
      List.filter_filter]
    refine List.filter_congr fun m _ => ?_
    by_cases hm : m.convId = id
    · simp [hm]
    · have hgone : m.convId ∉ (db.conversations.filter (·.id = id)).map (·.id) :=
        fun hmem => hm (id_of_mem_filter hmem)
      simp [hm, hgone]

@[simp] theorem dropConv_chats : (db.dropConv fk id).chats = db.chats := by
  cases fk <;> rfl

@[simp] theorem dropConv_users : (db.dropConv fk id).users = db.users := by
  cases fk <;> rfl

theorem dropConv_messages_true : (db.dropConv true id).messages =
    removeMessages true
      (fun m => m.convId.any (· ∈ (db.conversations.filter (·.id = id)).map (·.id)))
      (removeMessages true (·.convId = some id) db.messages) := rfl

theorem dropConv_messages : (db.dropConv fk id).messages.Sublist db.messages := by
  unfold dropConv deleteConversations
  split
  · dsimp only [deleteMessages, deleteMembers]
    exact (removeMessages_sublist ..).trans (removeMessages_sublist ..)
  · exact removeMessages_sublist ..

@[simp] theorem dropChat_chats :
    (db.dropChat fk id).chats = db.chats.filter (·.id ≠ id) := by
  cases fk <;> simp [dropChat, deleteChats, deleteMessages]

@[simp] theorem dropChat_conversations : (db.dropChat fk id).conversations = db.conversations := by
  cases fk <;> rfl

@[simp] theorem dropChat_members : (db.dropChat fk id).members = db.members := by
  cases fk <;> rfl

@[simp] theorem dropChat_users : (db.dropChat fk id).users = db.users := by
  cases fk <;> rfl

theorem dropChat_messages_true : (db.dropChat true id).messages =
    removeMessages true
      (fun m => m.chatId.any (· ∈ (db.chats.filter (·.id = id)).map (·.id)))
      (removeMessages true (·.chatId = some id) db.messages) := rfl

theorem dropChat_messages : (db.dropChat fk id).messages.Sublist db.messages := by
  unfold dropChat deleteChats
  split
  · dsimp only [deleteMessages]
    exact (removeMessages_sublist ..).trans (removeMessages_sublist ..)
  · exact removeMessages_sublist ..

end Db

/-- The id of a new conversation. -/
def Db.nextConv (db : Db) : Nat := nextId (db.conversations.map (·.id))

/-- The id of a new message. -/
def Db.nextMsg (db : Db) : Nat := nextId (db.messages.map (·.id))

/-- A message that is sent is added. -/
theorem MsgSchema.Sends.messages {msg : MsgSchema} {now : UInt32} {db db' : Db} {n : Nat}
    (h : msg.Sends now db db' n) :
    db'.messages = db.messages ++ [(msg.newMsg now).row db.nextMsg] := by
  obtain ⟨-, hdb⟩ := Db.insertRow_inv h.2
  rw [hdb]
  rfl

theorem Db.lt_nextConv {db : Db} {r : ConvRow} (h : r ∈ db.conversations) : r.id < db.nextConv :=
  lt_nextId (List.mem_map_of_mem h)

/-- What a request does to conversations and their members. -/
theorem Change.rooms (h : Change header route c c') :
    (c'.db.conversations = c.db.conversations ∧ c'.db.members = c.db.members) ∨
    (∃ rconv name rowid, route = .convCreate rconv ∧ c'.fk = true ∧
      c'.db.conversations = c.db.conversations ++ [⟨c.db.nextConv, header.userId.toNat, name⟩] ∧
      c'.db.members = c.db.members ++ [⟨rowid, c.db.nextConv, header.userId.toNat⟩]) ∨
    (∃ rconv, route = .convDrop rconv ∧ c.db.ConvAdmin rconv.convId.toNat header.userId.toNat ∧
      c'.db.conversations = c.db.conversations.filter (·.id ≠ rconv.convId.toNat) ∧
      c'.db.members = c.db.members.filter (·.convId ≠ rconv.convId.toNat)) ∨
    (∃ rconv rowid, route = .convJoin rconv ∧
      c.db.ConvMember rconv.convId.toNat header.userId.toNat ∧
      c'.db.conversations = c.db.conversations ∧
      c'.db.members = c.db.members ++ [⟨rowid, rconv.convId.toNat, rconv.userId.toNat⟩]) ∨
    (∃ rconv, route = .convQuit rconv ∧ c.db.ConvMember rconv.convId.toNat header.userId.toNat ∧
      (rconv.userId = header.userId ↔
        ¬ c.db.ConvAdmin rconv.convId.toNat header.userId.toNat) ∧
      c'.db.conversations = c.db.conversations ∧
      c'.db.members = c.db.members.filter fun m =>
        !(m.convId = rconv.convId.toNat && m.userId = header.userId.toNat)) := by
  cases h with
  | unchanged h =>
    rw [h]
    exact Or.inl ⟨rfl, rfl⟩
  | registered _ h =>
    obtain ⟨-, hdb⟩ := Db.insertRow_inv h
    rw [hdb]
    exact Or.inl ⟨rfl, rfl⟩
  | convCreated h hfk =>
    obtain ⟨-, db₁, n, hconv, hmember⟩ := h
    obtain ⟨-, rfl⟩ := Db.insertRow_inv hconv
    obtain ⟨-, hdb⟩ := Db.insertRow_inv hmember
    -- the member is inserted with the rowid of the conversation before it
    cases Db.insertRow_eq_some hconv
    rw [hdb]
    exact Or.inr (Or.inl ⟨_, _, _, rfl, hfk, rfl, rfl⟩)
  | convDropped hadmin h =>
    rw [h]
    exact Or.inr (Or.inr (Or.inl
      ⟨_, rfl, hadmin, Db.dropConv_conversations .., Db.dropConv_members ..⟩))
  | convJoined hmember h =>
    obtain ⟨-, hdb⟩ := Db.insertRow_inv h
    rw [hdb]
    exact Or.inr (Or.inr (Or.inr (Or.inl ⟨_, _, rfl, hmember, rfl, rfl⟩)))
  | convQuit hmember hwho h =>
    rw [h]
    exact Or.inr (Or.inr (Or.inr (Or.inr ⟨_, rfl, hmember, hwho, rfl, rfl⟩)))
  -- the rest leaves both tables alone
  | chatCreated _ h _ =>
    obtain ⟨-, hdb⟩ := Db.insertRow_inv h
    rw [hdb]
    exact Or.inl ⟨rfl, rfl⟩
  | chatDropped _ h =>
    rw [h]
    exact Or.inl ⟨Db.dropChat_conversations .., Db.dropChat_members ..⟩
  | msgSent _ _ _ _ _ h =>
    obtain ⟨-, hdb⟩ := Db.insertRow_inv h.2
    rw [hdb]
    exact Or.inl ⟨rfl, rfl⟩
  | msgDelivered _ _ _ h =>
    rw [h]
    exact Or.inl ⟨rfl, rfl⟩
  | msgDeleted _ _ _ h =>
    rw [h]
    exact Or.inl ⟨rfl, rfl⟩

/-- What a request does to chats. -/
theorem Change.chats (h : Change header route c c') :
    c'.db.chats = c.db.chats ∨
    (∃ rchat, route = .chatCreate rchat ∧ header.userId ≠ rchat.userId2 ∧ c'.fk = true ∧
      c'.db.chats = c.db.chats ++
        [⟨nextId (c.db.chats.map (·.id)), header.userId.toNat, rchat.userId2.toNat⟩]) ∨
    (∃ rchat, route = .chatDrop rchat ∧ c.db.ChatMember rchat.chatId.toNat header.userId.toNat ∧
      c'.db.chats = c.db.chats.filter (·.id ≠ rchat.chatId.toNat)) := by
  cases h with
  | unchanged h =>
    rw [h]
    exact Or.inl rfl
  | registered _ h =>
    obtain ⟨-, hdb⟩ := Db.insertRow_inv h
    rw [hdb]
    exact Or.inl rfl
  | convCreated h hfk =>
    obtain ⟨-, db₁, n, hconv, hmember⟩ := h
    obtain ⟨-, rfl⟩ := Db.insertRow_inv hconv
    obtain ⟨-, hdb⟩ := Db.insertRow_inv hmember
    rw [hdb]
    exact Or.inl rfl
  | convDropped _ h =>
    rw [h]
    exact Or.inl (Db.dropConv_chats ..)
  | convJoined _ h =>
    obtain ⟨-, hdb⟩ := Db.insertRow_inv h
    rw [hdb]
    exact Or.inl rfl
  | convQuit _ _ h =>
    rw [h]
    exact Or.inl rfl
  -- only these two touch the table
  | chatCreated hne h hfk =>
    obtain ⟨-, hdb⟩ := Db.insertRow_inv h
    rw [hdb]
    exact Or.inr (Or.inl ⟨_, rfl, hne, hfk, rfl⟩)
  | chatDropped hmember h =>
    rw [h]
    exact Or.inr (Or.inr ⟨_, rfl, hmember, Db.dropChat_chats ..⟩)
  | msgSent _ _ _ _ _ h =>
    obtain ⟨-, hdb⟩ := Db.insertRow_inv h.2
    rw [hdb]
    exact Or.inl rfl
  | msgDelivered _ _ _ h =>
    rw [h]
    exact Or.inl rfl
  | msgDeleted _ _ _ h =>
    rw [h]
    exact Or.inl rfl

/-- What a request does to the messages: it removes some with their room, adds one,
    or rewrites the one it names. -/
theorem Change.messages (h : Change header route c c') :
    ((∃ rconv, route = .convDrop rconv) ∨ (∃ rchat, route = .chatDrop rchat)) ∧
      c'.db.messages.Sublist c.db.messages ∨
    c'.db.messages = c.db.messages ∨
    (∃ rm msg now, route = .msgSend rm ∧
      (c.db.ConvMember rm.convId.toNat header.userId.toNat ∨
        c.db.ChatMember rm.chatId.toNat header.userId.toNat) ∧
      msg.fromUid = header.userId ∧ msg.replyTo = rm.replyId ∧ msg.convId = rm.convId ∧
      msg.chatId = rm.chatId ∧
      c'.db.messages = c.db.messages ++ [(MsgSchema.newMsg msg now).row c.db.nextMsg]) ∨
    (∃ rm m, m ∈ c.db.messages ∧ m.id = rm.msgId.toNat ∧
      c.db.Readable m header.userId.toNat ∧
      (route = .msgGetDetail rm ∧
        c'.db = c.db.updateMessage rm.msgId.toNat ({ · with type := .delivered }) ∨
       route = .msgDelete rm ∧ c'.db = c.db.updateMessage rm.msgId.toNat
        ({ · with content := default, type := .deleted }))) := by
  cases h with
  | unchanged h =>
    rw [h]
    exact Or.inr (Or.inl rfl)
  | registered _ h =>
    obtain ⟨-, hdb⟩ := Db.insertRow_inv h
    rw [hdb]
    exact Or.inr (Or.inl rfl)
  | convCreated h _ =>
    obtain ⟨-, db₁, n, hconv, hmember⟩ := h
    obtain ⟨-, rfl⟩ := Db.insertRow_inv hconv
    obtain ⟨-, hdb⟩ := Db.insertRow_inv hmember
    rw [hdb]
    exact Or.inr (Or.inl rfl)
  | convDropped _ h =>
    rw [h]
    -- with foreign keys on, answers in other rooms may go too: only a sublist is known
    exact Or.inl ⟨Or.inl ⟨_, rfl⟩, Db.dropConv_messages ..⟩
  | convJoined _ h =>
    obtain ⟨-, hdb⟩ := Db.insertRow_inv h
    rw [hdb]
    exact Or.inr (Or.inl rfl)
  | convQuit _ _ h =>
    rw [h]
    exact Or.inr (Or.inl rfl)
  | chatCreated _ h _ =>
    obtain ⟨-, hdb⟩ := Db.insertRow_inv h
    rw [hdb]
    exact Or.inr (Or.inl rfl)
  | chatDropped _ h =>
    rw [h]
    exact Or.inl ⟨Or.inr ⟨_, rfl⟩, Db.dropChat_messages ..⟩
  | msgSent hroom hfrom hreply hconv hchat h =>
    exact Or.inr (Or.inr (Or.inl ⟨_, _, _, rfl, hroom, hfrom, hreply, hconv, hchat, h.messages⟩))
  | msgDelivered hmsg hid hread h =>
    exact Or.inr (Or.inr (Or.inr ⟨_, _, hmsg, hid, hread, Or.inl ⟨rfl, h⟩⟩))
  | msgDeleted hmsg hid hread h =>
    exact Or.inr (Or.inr (Or.inr ⟨_, _, hmsg, hid, hread, Or.inr ⟨rfl, h⟩⟩))

/-! ### Rewritten messages -/

/-- A message keeps all but its content and type. -/
def MsgRow.Rewrites (f : MsgRow → MsgRow) : Prop :=
  ∀ m, ∃ content type, f m = { m with content, type }

theorem rewrites_delivered : MsgRow.Rewrites ({ · with type := .delivered }) :=
  fun m => ⟨m.content, _, rfl⟩

theorem rewrites_deleted : MsgRow.Rewrites ({ · with content := default, type := .deleted }) :=
  fun _ => ⟨_, _, rfl⟩

/-- Every message behind an update is one of those before, up to content and type. -/
theorem Db.mem_updateMessage {db : Db} {id : Nat} {f : MsgRow → MsgRow} (hf : MsgRow.Rewrites f)
    {n : MsgRow} (hn : n ∈ (db.updateMessage id f).messages) :
    ∃ m ∈ db.messages, ∃ content type, n = { m with content, type } := by
  obtain ⟨m, hm, rfl⟩ := List.mem_map.mp hn
  refine ⟨m, hm, ?_⟩
  split
  · exact hf m
  · exact ⟨m.content, m.type, rfl⟩

theorem Db.updateMessage_ids (db : Db) (id : Nat) {f : MsgRow → MsgRow} (hf : MsgRow.Rewrites f) :
    (db.updateMessage id f).messages.map (·.id) = db.messages.map (·.id) := by
  rw [Db.updateMessage, List.map_map]
  refine List.map_congr_left fun m _ => ?_
  dsimp only [Function.comp]
  split
  · obtain ⟨content, type, hfm⟩ := hf m
    rw [hfm]
  · rfl

/-- The update of a message in either of its two forms. -/
theorem Change.update_cases {db db' : Db} {id : Nat} {p q : Prop}
    (h : p ∧ db' = db.updateMessage id ({ · with type := .delivered }) ∨
      q ∧ db' = db.updateMessage id ({ · with content := default, type := .deleted })) :
    ∃ f, MsgRow.Rewrites f ∧ db' = db.updateMessage id f := by
  rcases h with ⟨-, h⟩ | ⟨-, h⟩
  · exact ⟨_, rewrites_delivered, h⟩
  · exact ⟨_, rewrites_deleted, h⟩

/-! ## Ids -/

/-- What the ids in the tables obey between requests. -/
structure RoomIds (db : Db) : Prop where
  convs_nodup : (db.conversations.map (·.id)).Nodup
  chats_nodup : (db.chats.map (·.id)).Nodup
  messages_nodup : (db.messages.map (·.id)).Nodup
  conv_ne_zero : ∀ r ∈ db.conversations, r.id ≠ 0
  chat_ne_zero : ∀ r ∈ db.chats, r.id ≠ 0
  member_conv : ∀ m ∈ db.members, ∃ r ∈ db.conversations, r.id = m.convId
  msg_rooms : ∀ m ∈ db.messages, (∀ k, m.convId = some k → k < 2 ^ 32) ∧
    ∀ k, m.chatId = some k → k < 2 ^ 32

/-- A new id is a new one. -/
theorem nodup_snoc_nextId {α : Type} {l : List α} {f : α → Nat} (h : (l.map f).Nodup) {a : α}
    (ha : f a = nextId (l.map f)) : ((l ++ [a]).map f).Nodup := by
  rw [List.map_append, List.nodup_append]
  refine ⟨h, List.nodup_singleton _, ?_⟩
  rintro x hx y hy rfl
  obtain rfl : x = f a := by simpa using hy
  exact absurd (lt_nextId hx) (by rw [ha]; exact lt_irrefl _)

/-- Rows of one id are one row. -/
theorem eq_of_id_eq {α : Type} {l : List α} {f : α → Nat} (h : (l.map f).Nodup) {a b : α}
    (ha : a ∈ l) (hb : b ∈ l) (hab : f a = f b) : a = b :=
  List.inj_on_of_nodup_map h ha hb hab

/-- A row is the first one of its id. -/
theorem first_of_id {α β : Type} [DecidableEq β] {l : List α} {f : α → β} (h : (l.map f).Nodup)
    {a : α} (ha : a ∈ l) {n : β} (hn : f a = n) : (l.filter (f · = n))[0]? = some a := by
  have hmem : a ∈ l.filter (f · = n) := List.mem_filter.mpr ⟨ha, by simpa using hn⟩
  obtain ⟨b, hb⟩ : ∃ b, (l.filter (f · = n))[0]? = some b :=
    ⟨_, List.getElem?_eq_getElem (List.length_pos_of_mem hmem)⟩
  obtain ⟨hbl, hbn⟩ := List.mem_filter.mp (List.mem_of_getElem? hb)
  rw [hb, List.inj_on_of_nodup_map h hbl ha ((of_decide_eq_true hbn).trans hn.symm)]

namespace RoomIds

theorem empty : RoomIds {} where
  convs_nodup := List.nodup_nil
  chats_nodup := List.nodup_nil
  messages_nodup := List.nodup_nil
  conv_ne_zero := by simp
  chat_ne_zero := by simp
  member_conv := by simp
  msg_rooms := by simp

theorem convs_step (hdb : RoomIds c.db) (h : Change header route c c') :
    (c'.db.conversations.map (·.id)).Nodup ∧ (∀ r ∈ c'.db.conversations, r.id ≠ 0) ∧
      ∀ m ∈ c'.db.members, ∃ r ∈ c'.db.conversations, r.id = m.convId := by
  rcases h.rooms with ⟨hc, hm⟩ | ⟨_, name, rowid, -, -, hc, hm⟩ | ⟨_, -, -, hc, hm⟩ |
    ⟨_, rowid, -, ⟨m₀, hm₀, hconv, -⟩, hc, hm⟩ | ⟨_, -, -, -, hc, hm⟩
  · rw [hc, hm]
    exact ⟨hdb.convs_nodup, hdb.conv_ne_zero, hdb.member_conv⟩
  · rw [hc, hm]
    -- a new conversation, with its admin as a member
    refine ⟨nodup_snoc_nextId hdb.convs_nodup rfl, ?_, ?_⟩
    · intro r hr
      rcases List.mem_append.mp hr with hr | hr
      · exact hdb.conv_ne_zero r hr
      · obtain rfl := List.mem_singleton.mp hr
        exact (nextId_pos _).ne'
    · intro m hmem
      rcases List.mem_append.mp hmem with hmem | hmem
      · obtain ⟨r, hr, hrm⟩ := hdb.member_conv m hmem
        exact ⟨r, List.mem_append_left _ hr, hrm⟩
      · obtain rfl := List.mem_singleton.mp hmem
        exact ⟨_, List.mem_append_right _ (List.mem_singleton_self _), rfl⟩
  · rw [hc, hm]
    -- a dropped one takes its members with it
    refine ⟨hdb.convs_nodup.sublist (List.filter_sublist.map _),
      fun r hr => hdb.conv_ne_zero r (List.mem_filter.mp hr).1, ?_⟩
    intro m hmem
    obtain ⟨hmem, hne⟩ := List.mem_filter.mp hmem
    obtain ⟨r, hr, hrm⟩ := hdb.member_conv m hmem
    exact ⟨r, List.mem_filter.mpr ⟨hr, by rw [hrm]; exact hne⟩, hrm⟩
  · rw [hc, hm]
    refine ⟨hdb.convs_nodup, hdb.conv_ne_zero, ?_⟩
    intro m hmem
    rcases List.mem_append.mp hmem with hmem | hmem
    · exact hdb.member_conv m hmem
    · -- the one who asks is a member, so the conversation is there
      obtain rfl := List.mem_singleton.mp hmem
      obtain ⟨r, hr, hrm⟩ := hdb.member_conv m₀ hm₀
      exact ⟨r, hr, hrm.trans hconv⟩
  · rw [hc, hm]
    exact ⟨hdb.convs_nodup, hdb.conv_ne_zero,
      fun m hmem => hdb.member_conv m (List.mem_filter.mp hmem).1⟩

theorem chats_step (hdb : RoomIds c.db) (h : Change header route c c') :
    (c'.db.chats.map (·.id)).Nodup ∧ ∀ r ∈ c'.db.chats, r.id ≠ 0 := by
  rcases h.chats with hc | ⟨_, -, -, -, hc⟩ | ⟨_, -, -, hc⟩
  · rw [hc]
    exact ⟨hdb.chats_nodup, hdb.chat_ne_zero⟩
  · rw [hc]
    refine ⟨nodup_snoc_nextId hdb.chats_nodup rfl, ?_⟩
    intro r hr
    rcases List.mem_append.mp hr with hr | hr
    · exact hdb.chat_ne_zero r hr
    · obtain rfl := List.mem_singleton.mp hr
      exact (nextId_pos _).ne'
  · rw [hc]
    exact ⟨hdb.chats_nodup.sublist (List.filter_sublist.map _),
      fun r hr => hdb.chat_ne_zero r (List.mem_filter.mp hr).1⟩

theorem nullable_eq_some {n : UInt32} {k : Nat} (h : nullable n = some k) :
    n ≠ 0 ∧ n.toNat = k := by
  unfold nullable at h
  split at h
  · cases h
  · exact ⟨‹_›, Option.some.inj h⟩

theorem nullable_lt {n : UInt32} {k : Nat} (h : nullable n = some k) : k < 2 ^ 32 := by
  obtain ⟨-, rfl⟩ := nullable_eq_some h
  exact n.toNat_lt

theorem messages_step (hdb : RoomIds c.db) (h : Change header route c c') :
    (c'.db.messages.map (·.id)).Nodup ∧
      ∀ m ∈ c'.db.messages, (∀ k, m.convId = some k → k < 2 ^ 32) ∧
        ∀ k, m.chatId = some k → k < 2 ^ 32 := by
  rcases h.messages with ⟨-, hsub⟩ | hsame | ⟨rm, msg, now, -, -, -, -, -, -, hadd⟩ |
    ⟨rm, m₀, -, -, -, hupdate⟩
  · exact ⟨hdb.messages_nodup.sublist (hsub.map _), fun m hm => hdb.msg_rooms m (hsub.subset hm)⟩
  · rw [hsame]
    exact ⟨hdb.messages_nodup, hdb.msg_rooms⟩
  · rw [hadd]
    -- the rooms of a new message come from the wire, where ids have 32 bits
    refine ⟨nodup_snoc_nextId hdb.messages_nodup rfl, ?_⟩
    intro m hm
    rcases List.mem_append.mp hm with hm | hm
    · exact hdb.msg_rooms m hm
    · obtain rfl := List.mem_singleton.mp hm
      exact ⟨fun k hk => nullable_lt hk, fun k hk => nullable_lt hk⟩
  -- an update rewrites type and content only
  · obtain ⟨f, hf, hdb'⟩ := Change.update_cases hupdate
    rw [hdb', Db.updateMessage_ids _ _ hf]
    refine ⟨hdb.messages_nodup, fun n hn => ?_⟩
    obtain ⟨m, hm, content, type, rfl⟩ := Db.mem_updateMessage hf hn
    exact hdb.msg_rooms m hm

/-- The ids stay in order. -/
theorem step (hdb : RoomIds c.db) (h : Change header route c c') : RoomIds c'.db := by
  obtain ⟨hconvs, hconv0, hmember⟩ := hdb.convs_step h
  obtain ⟨hchats, hchat0⟩ := hdb.chats_step h
  obtain ⟨hmsgs, hrooms⟩ := hdb.messages_step h
  exact ⟨hconvs, hchats, hmsgs, hconv0, hchat0, hmember, hrooms⟩

/-- No conversation has id 0. -/
theorem not_convMember_zero {db : Db} (hdb : RoomIds db) (u : Nat) : ¬ db.ConvMember 0 u := by
  rintro ⟨m, hm, hzero, -⟩
  obtain ⟨r, hr, hrm⟩ := hdb.member_conv m hm
  exact hdb.conv_ne_zero r hr (hrm.trans hzero)

/-- No chat has id 0. -/
theorem not_chatMember_zero {db : Db} (hdb : RoomIds db) (u : Nat) : ¬ db.ChatMember 0 u := by
  rintro ⟨r, hr, hzero, -⟩
  exact hdb.chat_ne_zero r hr hzero

end RoomIds

end Tables

/-! ## Sessions -/

/-- A request that was handled: the connection before and behind it, the answer,
    and whether no call to sqlite has failed. A request that could not be parsed is
    `none`. -/
structure Served where
  req : Option Request
  pre : Conn
  post : Conn
  out : Handled
  clean : Bool
  deriving DecidableEq

/-- The case of the switch that is taken. -/
def Served.route (e : Served) : Option Route := e.req.bind Request.route

theorem Served.route_eq {e : Served} {r : Request} {route : Route} (hreq : e.req = some r)
    (hroute : r.route = some route) : e.route = some route := by
  rw [Served.route, hreq]
  exact hroute

/-- The user in the header. -/
def Served.user (e : Served) : Nat := (e.req.map (·.header.userId.toNat)).getD 0

theorem Served.user_eq {e : Served} {r : Request} (hreq : e.req = some r) :
    e.user = r.header.userId.toNat := by
  rw [Served.user, hreq]
  rfl

/-- Requests executed one at a time, each to its end, from the empty tables on.
    Their texts are free of quotes and any call to sqlite may fail. Between two of
    them the server may be restarted, if `restarts` says so: the file is opened
    anew, with foreign keys off. -/
inductive Session (restarts : Prop) : List Served → Conn → Prop
  | start : Session restarts [] { db := {} }
  | request {log : List Served} {c c' : Conn} {env : Env} {req : Option Request} {out : Handled}
      {clean : Bool} (hprev : Session restarts log c) (hquote : ∀ r ∈ req, r.QuoteFree)
      (hrun : Runs Answers c (handleReq env req) c' out)
      (hclean : clean = true → Runs Serves c (handleReq env req) c' out) :
      Session restarts (log ++ [⟨req, c, c', out, clean⟩]) c'
  | restart {log : List Served} {c : Conn} (hrestart : restarts) (hprev : Session restarts log c) :
      Session restarts log { db := c.saved.getD c.db }

/-- A request leaves the tables as they are or makes the change its case allows. -/
def Served.Effective (e : Served) : Prop :=
  e.post.db = e.pre.db ∨
    ∃ r route, e.req = some r ∧ e.route = some route ∧ Change r.header route e.pre e.post

namespace Session

variable {restarts : Prop} {log : List Served} {c : Conn}

/-- The invariant of a session. -/
theorem inv (h : Session restarts log c) : c.saved = none ∧ RoomIds c.db := by
  induction h with
  | start => exact ⟨rfl, .empty⟩
  | request _ hquote hrun _ ih =>
    obtain ⟨hidle, hdb⟩ := ih
    -- what is left open by a call is closed before the handler returns
    obtain ⟨hsettled, hsame | ⟨r, route, -, -, hchange⟩⟩ := handleReq_change hquote hidle hrun
    · rw [hsame]
      exact ⟨hsettled.saved, hdb⟩
    · exact ⟨hsettled.saved, hdb.step hchange⟩
  | restart _ _ ih =>
    obtain ⟨hidle, hdb⟩ := ih
    refine ⟨rfl, ?_⟩
    rw [hidle]
    exact hdb

/-- A restart finds the tables as they were. -/
theorem restart_db (h : Session restarts log c) : c.saved.getD c.db = c.db := by
  rw [h.inv.1]
  rfl

/-- The state behind a request is one of a session, too. -/
theorem next (h : Session restarts log c) {c' : Conn} {env : Env} {req : Option Request}
    {out : Handled} (hquote : ∀ r ∈ req, r.QuoteFree)
    (hrun : Runs Answers c (handleReq env req) c' out) : ∃ log', Session restarts log' c' := by
  have hnext : Session restarts (log ++ [⟨req, c, c', out, false⟩]) c' :=
    h.request hquote hrun fun hclean => by cases hclean
  exact ⟨_, hnext⟩

/-- Every request of a session was handled in a state of the session. -/
theorem handled (h : Session restarts log c) {e : Served} (he : e ∈ log) :
    ∃ env log₀, Session restarts log₀ e.pre ∧ (∀ r ∈ e.req, r.QuoteFree) ∧
      Runs Answers e.pre (handleReq env e.req) e.post e.out ∧
      (e.clean = true → Runs Serves e.pre (handleReq env e.req) e.post e.out) := by
  induction h with
  | start => cases he
  | @request log c c' env req out clean hprev hquote hrun hclean ih =>
    rcases List.mem_append.mp he with he | he
    · exact ih he
    · obtain rfl := List.mem_singleton.mp he
      exact ⟨env, log, hprev, hquote, hrun, hclean⟩
  | restart _ _ ih => exact ih he

/-- Every request of a session reached its handler, or was answered with an error or
    not at all. -/
theorem handled_route (h : Session restarts log c) {e : Served} (he : e ∈ log) :
    ∃ env, (∃ r route, e.req = some r ∧ e.route = some route ∧
      Runs Answers e.pre (route.handle env r.header) e.post e.out) ∨
      Refused e.pre e.post e.out ∨ e.post = e.pre ∧ e.out = {} := by
  obtain ⟨env, log₀, -, -, hrun, -⟩ := h.handled he
  refine ⟨env, ?_⟩
  rcases handleReq_cases le_rfl hrun with ⟨r, route, hreq, hroute, hhandle⟩ | hrest
  · exact Or.inl ⟨r, route, hreq, Served.route_eq hreq hroute, hhandle⟩
  · exact Or.inr hrest

theorem effective {e : Served} {env : Env} (h : Session restarts log e.pre)
    (hquote : ∀ r ∈ e.req, r.QuoteFree)
    (hrun : Runs Answers e.pre (handleReq env e.req) e.post e.out) : e.Effective := by
  rcases (handleReq_change hquote h.inv.1 hrun).2 with hsame | ⟨r, route, hreq, hroute, hchange⟩
  · exact Or.inl hsame
  · exact Or.inr ⟨r, route, hreq, Served.route_eq hreq hroute, hchange⟩

/-- What a request of a session has changed. -/
theorem change (h : Session restarts log c) {e : Served} (he : e ∈ log) :
    RoomIds e.pre.db ∧ e.Effective := by
  obtain ⟨env, log₀, hsession, hquote, hrun, -⟩ := h.handled he
  exact ⟨hsession.inv.2, hsession.effective hquote hrun⟩

/-- What holds at the start, is kept by every request and survives a restart, holds
    in every state of a session. -/
theorem induct {I : List Served → Conn → Prop} (hstart : I [] { db := {} })
    (hstep : ∀ log e, Session restarts log e.pre → e.Effective → Settled e.pre e.post →
      I log e.pre → I (log ++ [e]) e.post)
    (hrestart : ∀ log c, restarts → Session restarts log c → I log c → I log { db := c.db })
    (h : Session restarts log c) : I log c := by
  induction h with
  | start => exact hstart
  | @request log c c' env req out clean hprev hquote hrun _ ih =>
    exact hstep log ⟨req, c, c', out, clean⟩ hprev (hprev.effective hquote hrun)
      (handleReq_change hquote hprev.inv.1 hrun).1 ih
  | restart hr hprev ih =>
    rw [hprev.restart_db]
    exact hrestart _ _ hr hprev ih

/-- Run requests with at most `fuel` calls each, none of which fails. -/
def play (fuel : Nat) : List (Env × Request) → List Served → Conn → Option (List Served × Conn)
  | [], log, c => some (log, c)
  | (env, req) :: reqs, log, c =>
    if req.QuoteFree then
      match execute serve fuel c (handleReq env (some req)) with
      | some (c', out) => play fuel reqs (log ++ [⟨some req, c, c', out, true⟩]) c'
      | none => none
    else none

theorem play_append {fuel : Nat} (first rest : List (Env × Request)) (log : List Served)
    (c : Conn) :
    play fuel (first ++ rest) log c =
      (play fuel first log c).bind fun x => play fuel rest x.1 x.2 := by
  induction first generalizing log c with
  | nil => rfl
  | cons r first ih =>
    simp only [List.cons_append, play]
    split
    · split
      · exact ih _ _
      · rfl
    · rfl

theorem of_play {fuel : Nat} {reqs : List (Env × Request)} {x : List Served × Conn}
    (hprev : Session restarts log c) (h : play fuel reqs log c = some x) :
    Session restarts x.1 x.2 := by
  induction reqs generalizing log c with
  | nil =>
    cases h
    exact hprev
  | cons r reqs ih =>
    unfold play at h
    split at h
    · rename_i hquote
      split at h
      · rename_i c' out hexec
        -- the run that is executed is one that the relation allows
        refine ih (hprev.request ?_ (runs_of_execute answers_of_serve hexec)
          fun _ => runs_of_execute (fun _ _ _ _ h => h) hexec) h
        rintro _ ⟨⟩
        exact hquote
      · cases h
    · cases h

end Session

/-! ### A session -/

/-- The password of everybody, and its digest. -/
def lobbyEnv : Env where
  verified := true
  makeToken _ := emptyToken
  md5 _ := some #v[0x5e, 0xbe, 0x22, 0x94, 0xec, 0xd0, 0xe0, 0xf0, 0x8e, 0xab, 0x76, 0x90, 0xd2,
    0xa6, 0xee, 0x69]
  now := 1700000000
  fnameTime := 1700000000
  upload := .received

/-- A request as the parser delivers it. -/
def requestBy (userId : UInt32) (group action : Int8) (body : RequestBody) : Request where
  header := { group, action, contentType := 0, contentLen := 16, bodyLen := 16,
              token := emptyToken.bytes, userId, limit := 10, offset := 0 }
  body

def registerAs (uname : String) : Request :=
  requestBy 0 0 0 (.auth
    { uname := some (.ofBytes (ascii uname)), password := some (.ofBytes (ascii "secret")),
      phone := some (.ofBytes (ascii "123")), email := some (.ofBytes (ascii "a@b")) })

/-- User 1 opens conversation 1 and takes user 2 in; users 2 and 3 open chat 1,
    which is not a room of user 1. Both rooms get a message. -/
def lobbyRequests : List Request :=
  [registerAs "an", registerAs "bo", registerAs "cy",
   requestBy 1 2 0 (.conv { gname := some (.ofBytes (ascii "team")) }),
   requestBy 1 2 2 (.conv { convId := 1, userId := 2 }),
   requestBy 2 3 0 (.chat { userId2 := 3 }),
   requestBy 1 4 2 (.msg { convId := 1, msgContent := some (.ofBytes (ascii "hi")) }),
   requestBy 2 4 2 (.msg { chatId := 1, msgContent := some (.ofBytes (ascii "psst")) })]

/-- The session of the requests above, followed by some more. -/
def lobbyPlay (reqs : List Request) : Option (List Served × Conn) :=
  Session.play 32 ((lobbyRequests ++ reqs).map (lobbyEnv, ·)) [] { db := {} }

def lobbyUser (id : Nat) (uname : String) : UserRow where
  id
  uname := .ofBytes (ascii uname)
  password := .ofBytes (ascii "5ebe2294ecd0e0f08eab7690d2a6ee69")
  phone := .ofBytes (ascii "123")
  email := .ofBytes (ascii "a@b")

def lobbyMsg (id fromUid : Nat) (content : String) (chatId convId : Option Nat) : MsgRow where
  id
  fromUid
  replyTo := none
  contentType := 0
  contentLength := 4
  content := .ofBytes (ascii content)
  createdAt := 1700000000
  chatId
  convId
  type := .sent

/-- The database after `lobbyRequests`. -/
def lobbyDb : Db where
  users := [lobbyUser 1 "an", lobbyUser 2 "bo", lobbyUser 3 "cy"]
  chats := [⟨1, 2, 3⟩]
  conversations := [⟨1, 1, .ofBytes (ascii "team")⟩]
  members := [⟨1, 1, 1⟩, ⟨2, 1, 2⟩]
  messages := [lobbyMsg 1 1 "hi" none (some 1), lobbyMsg 2 2 "psst" (some 1) none]

/-- The connection when the tables have so many of these rows. -/
def lobbyConn (users chats conversations members messages lastRowid : Nat) (fk : Bool) : Conn where
  db := { users := lobbyDb.users.take users, chats := lobbyDb.chats.take chats,
          conversations := lobbyDb.conversations.take conversations,
          members := lobbyDb.members.take members, messages := lobbyDb.messages.take messages }
  lastRowid
  fk

/-- The connection before each of `lobbyRequests`, and after the last. -/
def lobbyConns : List Conn :=
  [{ db := {} }, lobbyConn 1 0 0 0 0 1 false, lobbyConn 2 0 0 0 0 2 false,
   lobbyConn 3 0 0 0 0 3 false, lobbyConn 3 0 1 1 0 1 true, lobbyConn 3 0 1 2 0 2 true,
   lobbyConn 3 1 1 2 0 1 true, lobbyConn 3 1 1 2 1 1 true, lobbyConn 3 1 1 2 2 2 true]

def lobbyReplies : List ResponseCall :=
  [.authRegister 201 emptyToken 1, .authRegister 201 emptyToken 2, .authRegister 201 emptyToken 3,
   .convCreate 201 1, .convJoin 200, .chatCreate 201 1, .msgSend 201 1, .msgSend 201 2]

def lobbyLog : List Served :=
  ((lobbyRequests.zip lobbyReplies).zip (lobbyConns.zip lobbyConns.tail)).map fun x =>
    ⟨some x.1.1, x.2.1, x.2.2, { sent := [x.1.2] }, true⟩

theorem lobby_played : Session.play 32 (lobbyRequests.map (lobbyEnv, ·)) [] { db := {} } =
    some (lobbyLog, { db := lobbyDb, fk := true, lastRowid := 2 }) := by
  decide +kernel

/-- The first requests of such a session need not be run again. -/
theorem lobbyPlay_eq (reqs : List Request) : lobbyPlay reqs =
    Session.play 32 (reqs.map (lobbyEnv, ·)) lobbyLog
      { db := lobbyDb, fk := true, lastRowid := 2 } := by
  rw [lobbyPlay, List.map_append, Session.play_append, lobby_played]
  rfl

theorem lobbyPlay_session {restarts : Prop} {reqs : List Request} {x : List Served × Conn}
    (h : lobbyPlay reqs = some x) : Session restarts x.1 x.2 :=
  Session.of_play .start h

/-- The same, and then a restart. -/
theorem lobbyPlay_restarted {reqs : List Request} {x : List Served × Conn}
    (h : lobbyPlay reqs = some x) : Session True x.1 { db := x.2.db } := by
  have hsession : Session True x.1 x.2 := lobbyPlay_session h
  have hrestart := hsession.restart trivial
  rw [hsession.restart_db] at hrestart
  exact hrestart

end MeshChat
