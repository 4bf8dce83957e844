import MeshChat.Db.SqlEnsures
import MeshChat.Server.Board
import MeshChat.Server.Drops
import MeshChat.Server.Messages

/-! # The board that the tables stand for

    * `Db.board`: the board of the tables.
    * `Kept`: what the connection keeps between requests. It lets the rows of the tables
      be read off the board.
    * `Db.board_register`, …: what a statement does to the board.
    * `lists_of_rows`: the ids of a page of rows as a page of the board.
-/

namespace MeshChat

open CMemory SqlLex Prog Keyed

/-! ## The board of the tables -/

def UserRow.account (r : UserRow) : Board.Account := ⟨r.uname, r.password, r.phone, r.email⟩

def ConvRow.group (r : ConvRow) : Board.Group := ⟨r.adminId, r.name⟩

def ChatRow.users (r : ChatRow) : Nat × Nat := (r.member1, r.member2)

def MsgRow.message (m : MsgRow) : Board.Message where
  sender := m.fromUid
  replyTo := m.replyTo
  contentType := m.contentType
  contentLength := m.contentLength
  content := m.content
  createdAt := m.createdAt
  chat := m.chatId
  conv := m.convId
  state := m.type

namespace Db

variable (db : Db)

def board : Board where
  account := keyed (·.id) UserRow.account db.users
  conv := keyed (·.id) ConvRow.group db.conversations
  members k := { u | db.ConvMember k u }
  chat := keyed (·.id) ChatRow.users db.chats
  message := keyed (·.id) MsgRow.message db.messages

@[simp] theorem mem_board_members {k u : Nat} : u ∈ db.board.members k ↔ db.ConvMember k u :=
  Iff.rfl

@[simp] theorem board_empty : ({} : Db).board = Board.empty := by
  simp only [board, Board.empty, ConvMember]
  congr
  funext k
  simp

end Db

/-- What the connection keeps between requests. -/
structure Kept (c : Conn) : Prop where
  idle : c.saved = none
  ids : RoomIds c.db
  users_nodup : (c.db.users.map (·.id)).Nodup
  names_nodup : (c.db.users.map (·.uname)).Nodup
  members_nodup : (c.db.members.map fun m => (m.convId, m.userId)).Nodup
  pairs : ∀ r ∈ c.db.chats, r.member1 < 2 ^ 32 ∧ r.member2 < 2 ^ 32

namespace Kept

variable {c : Conn} (hc : Kept c)
include hc

theorem account_iff {n : Nat} {a : Board.Account} :
    c.db.board.account n = some a ↔ ∃ r ∈ c.db.users, r.id = n ∧ r.account = a :=
  keyed_eq_some hc.users_nodup

theorem conv_iff {n : Nat} {g : Board.Group} :
    c.db.board.conv n = some g ↔ ∃ r ∈ c.db.conversations, r.id = n ∧ r.group = g :=
  keyed_eq_some hc.ids.convs_nodup

theorem chat_iff {n : Nat} {p : Nat × Nat} :
    c.db.board.chat n = some p ↔ ∃ r ∈ c.db.chats, r.id = n ∧ r.users = p :=
  keyed_eq_some hc.ids.chats_nodup

theorem message_iff {n : Nat} {m : Board.Message} :
    c.db.board.message n = some m ↔ ∃ r ∈ c.db.messages, r.id = n ∧ r.message = m :=
  keyed_eq_some hc.ids.messages_nodup

theorem heads_iff {k u : Nat} : c.db.board.Heads k u ↔ c.db.ConvAdmin k u := by
  constructor
  · rintro ⟨g, hg, hadmin⟩
    obtain ⟨r, hr, hid, rfl⟩ := hc.conv_iff.mp hg
    exact ⟨r, hr, hid, hadmin⟩
  · rintro ⟨r, hr, hid, hadmin⟩
    exact ⟨r.group, hc.conv_iff.mpr ⟨r, hr, hid, rfl⟩, hadmin⟩

theorem inChat_iff {k u : Nat} : c.db.board.InChat k u ↔ c.db.ChatMember k u := by
  constructor
  · rintro ⟨p, hp, hu⟩
    obtain ⟨r, hr, hid, rfl⟩ := hc.chat_iff.mp hp
    exact ⟨r, hr, hid, hu⟩
  · rintro ⟨r, hr, hid, hu⟩
    exact ⟨r.users, hc.chat_iff.mpr ⟨r, hr, hid, rfl⟩, hu⟩

theorem sees_iff {m : MsgRow} {u : Nat} : c.db.board.Sees m.message u ↔ c.db.InRoomOf m u := by
  simp only [Board.Sees, Db.InRoomOf, MsgRow.message, Db.mem_board_members, hc.inChat_iff]

theorem enters_iff {rm : RequestMsgBody} {u : Nat} :
    c.db.board.Enters rm u ↔
      c.db.ConvMember rm.convId.toNat u ∨ c.db.ChatMember rm.chatId.toNat u := by
  simp only [Board.Enters, Db.mem_board_members, hc.inChat_iff]

omit hc in
theorem hasUser_iff {id : Nat} : c.db.hasUser id = true ↔ c.db.board.account id ≠ none := by
  rw [ne_eq, Db.board, keyed_eq_none]
  simp [Db.hasUser]

omit hc in
theorem hasConv_iff {id : Nat} : c.db.hasConv id = true ↔ c.db.board.conv id ≠ none := by
  rw [ne_eq, Db.board, keyed_eq_none]
  simp [Db.hasConv]

omit hc in
theorem hasChat_iff {id : Nat} : c.db.hasChat id = true ↔ c.db.board.chat id ≠ none := by
  rw [ne_eq, Db.board, keyed_eq_none]
  simp [Db.hasChat]

omit hc in
theorem hasMsg_iff {id : Nat} : c.db.hasMsg id = true ↔ c.db.board.message id ≠ none := by
  rw [ne_eq, Db.board, keyed_eq_none]
  simp [Db.hasMsg]

end Kept

/-! ### Requests keep them -/

/-- A row with a key that no row has. -/
theorem nodup_snoc {α β : Type} {f : α → β} {l : List α} {a : α} (h : (l.map f).Nodup)
    (hnew : ∀ b ∈ l, f b ≠ f a) : ((l ++ [a]).map f).Nodup := by
  rw [List.map_append, List.nodup_append]
  refine ⟨h, List.nodup_singleton _, ?_⟩
  rintro _ hx y hy rfl
  obtain ⟨b, hb, hba⟩ := List.mem_map.mp hx
  exact hnew b hb (hba.trans (List.mem_singleton.mp hy))

theorem Db.insertUser_nodup {db db' : Db} {u p h e : CStr} {n : Nat}
    (hnodup : (db.users.map (·.uname)).Nodup) (hdb : db.insertUser u p h e = some (db', some n)) :
    (db'.users.map (·.uname)).Nodup := by
  obtain ⟨hvalid, rfl⟩ := insertRow_inv hdb
  refine nodup_snoc hnodup fun r hr hsame => ?_
  have hany : db.users.any (·.uname = u) = true :=
    List.any_eq_true.mpr ⟨r, hr, decide_eq_true hsame⟩
  rw [hany] at hvalid
  cases hvalid

theorem Db.insertMember_nodup {db db' : Db} {fk : Bool} {k u n : Nat}
    (hnodup : (db.members.map fun m => (m.convId, m.userId)).Nodup)
    (hdb : db.insertMember fk k u = some (db', some n)) :
    (db'.members.map fun m => (m.convId, m.userId)).Nodup := by
  obtain ⟨hvalid, rfl⟩ := insertRow_inv hdb
  refine nodup_snoc hnodup fun m hm hsame => ?_
  have hany : db.members.any (fun m => m.convId = k && m.userId = u) = true :=
    List.any_eq_true.mpr ⟨m, hm, by simpa using hsame⟩
  rw [hany] at hvalid
  cases hvalid

section Change

variable {header : RequestHeader} {route : Route} {c c' : Conn}

/-- What a request does to the accounts. -/
theorem Change.users (h : Change header route c c') : c'.db.users = c.db.users ∨
    ∃ u p ph e n, c.db.insertUser u p ph e = some (c'.db, some n) := by
  cases h with
  | unchanged h => exact Or.inl (by rw [h])
  | registered _ h => exact Or.inr ⟨_, _, _, _, _, h⟩
  | convCreated h _ =>
    obtain ⟨-, db₁, n, hconv, hmember⟩ := h
    obtain ⟨-, rfl⟩ := Db.insertRow_inv hconv
    obtain ⟨-, hdb⟩ := Db.insertRow_inv hmember
    exact Or.inl (by rw [hdb])
  | convDropped _ h => exact Or.inl (by rw [h, Db.dropConv_users])
  | convJoined _ h =>
    obtain ⟨-, hdb⟩ := Db.insertRow_inv h
    exact Or.inl (by rw [hdb])
  | convQuit _ _ h => exact Or.inl (by rw [h]; rfl)
  | chatCreated _ h _ =>
    obtain ⟨-, hdb⟩ := Db.insertRow_inv h
    exact Or.inl (by rw [hdb])
  | chatDropped _ h => exact Or.inl (by rw [h, Db.dropChat_users])
  | msgSent _ _ _ _ _ h =>
    obtain ⟨-, hdb⟩ := Db.insertRow_inv h.2
    exact Or.inl (by rw [hdb])
  | msgDelivered _ _ _ h => exact Or.inl (by rw [h]; rfl)
  | msgDeleted _ _ _ h => exact Or.inl (by rw [h]; rfl)

/-- A member is inserted, or nobody is added. -/
theorem Change.members (h : Change header route c c') : c'.db.members.Sublist c.db.members ∨
    ∃ db fk k u n, db.members = c.db.members ∧
      Db.insertMember fk k u db = some (c'.db, some n) := by
  have hsame : c'.db.members = c.db.members → c'.db.members.Sublist c.db.members := by
    intro heq
    rw [heq]
  cases h with
  | unchanged h => exact Or.inl (hsame (by rw [h]))
  | registered _ h =>
    obtain ⟨-, hdb⟩ := Db.insertRow_inv h
    exact Or.inl (hsame (by rw [hdb]))
  | convCreated h _ =>
    obtain ⟨-, db₁, n, hconv, hmember⟩ := h
    obtain ⟨-, rfl⟩ := Db.insertRow_inv hconv
    refine Or.inr ⟨_, _, _, _, _, ?_, hmember⟩
    rfl
  | convDropped _ h =>
    refine Or.inl ?_
    rw [h, Db.dropConv_members]
    exact List.filter_sublist
  | convJoined _ h => exact Or.inr ⟨_, _, _, _, _, rfl, h⟩
  | convQuit _ _ h =>
    refine Or.inl ?_
    rw [h]
    exact List.filter_sublist
  | chatCreated _ h _ =>
    obtain ⟨-, hdb⟩ := Db.insertRow_inv h
    exact Or.inl (hsame (by rw [hdb]))
  | chatDropped _ h => exact Or.inl (hsame (by rw [h, Db.dropChat_members]))
  | msgSent _ _ _ _ _ h =>
    obtain ⟨-, hdb⟩ := Db.insertRow_inv h.2
    exact Or.inl (hsame (by rw [hdb]))
  | msgDelivered _ _ _ h => exact Or.inl (hsame (by rw [h]; rfl))
  | msgDeleted _ _ _ h => exact Or.inl (hsame (by rw [h]; rfl))

theorem Kept.step (hc : Kept c) (hsettled : Settled c c') (h : Change header route c c') :
    Kept c' where
  idle := hsettled.saved
  ids := hc.ids.step h
  users_nodup := by
    rcases h.users with hsame | ⟨u, p, ph, e, n, hdb⟩
    · rw [hsame]
      exact hc.users_nodup
    · obtain ⟨-, hdb⟩ := Db.insertRow_inv hdb
      rw [hdb]
      exact nodup_snoc_nextId hc.users_nodup rfl
  names_nodup := by
    rcases h.users with hsame | ⟨u, p, ph, e, n, hdb⟩
    · rw [hsame]
      exact hc.names_nodup
    · exact Db.insertUser_nodup hc.names_nodup hdb
  members_nodup := by
    rcases h.members with hsub | ⟨db, fk, k, u, n, hmembers, hdb⟩
    · exact hc.members_nodup.sublist (hsub.map _)
    · refine Db.insertMember_nodup ?_ hdb
      rw [hmembers]
      exact hc.members_nodup
  pairs := by
    intro r hr
    rcases h.chats with hsame | ⟨rchat, -, -, -, hchats⟩ | ⟨rchat, -, -, hchats⟩
    · exact hc.pairs r (hsame ▸ hr)
    · rw [hchats] at hr
      rcases List.mem_append.mp hr with hr | hr
      · exact hc.pairs r hr
      · obtain rfl := List.mem_singleton.mp hr
        exact ⟨header.userId.toNat_lt, rchat.userId2.toNat_lt⟩
    · rw [hchats] at hr
      exact hc.pairs r (List.mem_of_mem_filter hr)

end Change

/-- What is kept holds of the empty tables. -/
theorem Kept.start : Kept { db := {} } where
  idle := rfl
  ids := .empty
  users_nodup := List.nodup_nil
  names_nodup := List.nodup_nil
  members_nodup := List.nodup_nil
  pairs := by simp

/-- The same tables, and no transaction. -/
theorem Kept.same {c c' : Conn} (hc : Kept c) (hidle : c'.saved = none) (hdb : c'.db = c.db) :
    Kept c' := by
  obtain ⟨-, hids, husers, hnames, hmembers, hpairs⟩ := hc
  rw [← hdb] at hids husers hnames hmembers hpairs
  exact ⟨hidle, hids, husers, hnames, hmembers, hpairs⟩

/-! ## What writes do to the board -/

/-- A row with the next rowid has a key of its own. -/
theorem ne_nextId {α : Type} {f : α → Nat} {l : List α} : ∀ a ∈ l, f a ≠ nextId (l.map f) :=
  fun _ ha => (lt_nextId (List.mem_map_of_mem ha)).ne

/-- The largest number is one of those. -/
theorem nextId_eq (ids : List Nat) : ∃ k, nextId ids = k + 1 ∧ (k = 0 ∨ k ∈ ids) := by
  refine ⟨ids.foldr max 0, rfl, ?_⟩
  induction ids with
  | nil => exact Or.inl rfl
  | cons n ids ih =>
    rw [List.foldr_cons]
    rcases max_choice n (ids.foldr max 0) with h | h
    · rw [h]
      exact Or.inr (List.mem_cons_self ..)
    · rw [h]
      exact ih.imp_right (List.mem_cons_of_mem n)

theorem next_nextId {α β : Type} {f : α → Nat} {g : α → β} {l : List α} :
    Board.Next (keyed f g l) (nextId (l.map f)) := by
  obtain ⟨k, hk, hused⟩ := nextId_eq (l.map f)
  refine ⟨keyed_eq_none.mpr ne_nextId, k, hk, hused.imp_right fun hmem hnone => ?_⟩
  obtain ⟨a, ha, rfl⟩ := List.mem_map.mp hmem
  exact keyed_eq_none.mp hnone a ha rfl

namespace Db

variable {db db' : Db}

theorem board_register {u p h e : CStr} {n : Nat}
    (hdb : db.insertUser u p h e = some (db', some n)) :
    db'.board = db.board.register n ⟨u, p, h, e⟩ ∧ Board.Next db.board.account n ∧
      ∀ k a, db.board.account k = some a → a.uname ≠ u := by
  have hn := Db.insertRow_eq_some hdb
  cases hn
  obtain ⟨hvalid, -⟩ := Db.insertRow_inv hdb
  refine ⟨?_, next_nextId, ?_⟩
  · simp only [board, Board.register]
    congr 1
    exact keyed_snoc ne_nextId
  · intro k a ha heq
    obtain ⟨r, hr, -, rfl⟩ := exists_of_keyed ha
    have hany : db.users.any (·.uname = u) = true :=
      List.any_eq_true.mpr ⟨r, hr, decide_eq_true heq⟩
    rw [hany] at hvalid
    cases hvalid

theorem members_snoc (rowid k u : Nat) :
    ({ db with members := db.members ++ [⟨rowid, k, u⟩] } : Db).board.members =
      Function.update db.board.members k (insert u (db.board.members k)) := by
  funext j
  ext v
  by_cases hj : j = k
  · subst hj
    simp only [board, ConvMember, List.mem_append, List.mem_singleton, Set.mem_ofPred_eq,
      Function.update_self, Set.mem_insert_iff]
    constructor
    · rintro ⟨m, hm | rfl, hk, rfl⟩
      · exact Or.inr ⟨m, hm, hk, rfl⟩
      · exact Or.inl rfl
    · rintro (rfl | ⟨m, hm, rfl, rfl⟩)
      · exact ⟨_, Or.inr rfl, rfl, rfl⟩
      · exact ⟨m, Or.inl hm, rfl, rfl⟩
  · simp only [board, ConvMember, List.mem_append, List.mem_singleton, Set.mem_ofPred_eq,
      Function.update_of_ne hj]
    constructor
    · rintro ⟨m, hm | rfl, rfl, rfl⟩
      · exact ⟨m, hm, rfl, rfl⟩
      · exact absurd rfl hj
    · rintro ⟨m, hm, rfl, rfl⟩
      exact ⟨m, Or.inl hm, rfl, rfl⟩

theorem board_join {fk : Bool} {k u n : Nat} (hdb : db.insertMember fk k u = some (db', some n)) :
    db'.board = db.board.join k u ∧ u ∉ db.board.members k := by
  obtain ⟨hvalid, -⟩ := Db.insertRow_inv hdb
  cases Db.insertRow_eq_some hdb
  refine ⟨?_, ?_⟩
  · simp only [Board.join, ← members_snoc (nextId (db.members.map (·.rowid)))]
    rfl
  · rintro ⟨m, hm, hk, hu⟩
    have hany : db.members.any (fun m => m.convId = k && m.userId = u) = true :=
      List.any_eq_true.mpr ⟨m, hm, by simp [hk, hu]⟩
    rw [hany] at hvalid
    cases hvalid

theorem board_found {a : UInt32} {name : CStr} {n : Nat} (hdb : db.CreatesConv db' a name n) :
    db'.board = db.board.found n ⟨a.toNat, name⟩ ∧ db.board.account a.toNat ≠ none ∧
      Board.Next db.board.conv n := by
  obtain ⟨-, db₁, rowid, hconv, hmember⟩ := hdb
  obtain ⟨hvalid, -⟩ := Db.insertRow_inv hconv
  cases Db.insertRow_eq_some hconv
  have hthere : db.hasUser a.toNat = true := by simpa using hvalid
  refine ⟨?_, (Kept.hasUser_iff (c := { db := db })).mp hthere, next_nextId⟩
  rw [(board_join hmember).1]
  simp only [Board.found, Board.join, board]
  congr 1
  exact keyed_snoc ne_nextId

theorem board_leave (k u : Nat) :
    (db.deleteMembers fun m => m.convId = k && m.userId = u).board = db.board.leave k u := by
  simp only [board, Board.leave, deleteMembers]
  congr 1
  funext j
  ext v
  simp only [ConvMember, List.mem_filter, Set.mem_ofPred_eq]
  by_cases hj : j = k
  · subst hj
    rw [Function.update_self]
    constructor
    · rintro ⟨m, ⟨hm, hkept⟩, rfl, rfl⟩
      refine ⟨⟨m, hm, rfl, rfl⟩, ?_⟩
      rintro rfl
      simp at hkept
    · rintro ⟨⟨m, hm, rfl, rfl⟩, hne⟩
      exact ⟨m, ⟨hm, by simpa using hne⟩, rfl, rfl⟩
  · rw [Function.update_of_ne hj]
    constructor
    · rintro ⟨m, ⟨hm, -⟩, rfl, rfl⟩
      exact ⟨m, hm, rfl, rfl⟩
    · rintro ⟨m, hm, rfl, rfl⟩
      exact ⟨m, ⟨hm, by simp [hj]⟩, rfl, rfl⟩

theorem board_openChat {a b n : Nat} (hdb : db.insertChat true a b = some (db', some n)) :
    db'.board = db.board.openChat n (a, b) ∧ Board.Next db.board.chat n := by
  cases Db.insertRow_eq_some hdb
  refine ⟨?_, next_nextId⟩
  simp only [board, Board.openChat]
  congr 1
  exact keyed_snoc ne_nextId

theorem board_post {m : NewMsg} {n : Nat} (hdb : db.insertMessage true m = some (db', some n)) :
    db'.board = db.board.post n (m.row n).message ∧ Board.Next db.board.message n := by
  cases Db.insertRow_eq_some hdb
  refine ⟨?_, next_nextId⟩
  simp only [board, Board.post]
  congr 1
  exact keyed_snoc ne_nextId

theorem board_rewrite (hnodup : (db.messages.map (·.id)).Nodup) {f : MsgRow → MsgRow}
    (hf : ∀ m, (f m).id = m.id) {m : MsgRow} (hm : m ∈ db.messages) :
    (db.updateMessage m.id f).board = db.board.post m.id (f m).message := by
  simp only [board, Board.post, updateMessage]
  congr 1
  exact keyed_rewrite hnodup hf hm rfl

end Db

theorem Board.GoesWith.there {b : Board} {follows : Bool} {P : Board.Message → Prop} {n : Nat}
    (h : b.GoesWith follows P n) : ∃ m, b.message n = some m := by
  cases h with
  | room hm _ => exact ⟨_, hm⟩
  | reply _ hm _ _ => exact ⟨_, hm⟩

/-- A message that goes with a room goes with it on the board. -/
theorem Kept.goesWith_iff {c : Conn} (hc : Kept c) {fk : Bool} {p : MsgRow → Prop}
    {P : Board.Message → Prop} (hp : ∀ m : MsgRow, P m.message ↔ p m) {m : MsgRow}
    (hm : m ∈ c.db.messages) :
    c.db.board.GoesWith fk P m.id ↔ GoesWith c.db.messages fk p m := by
  constructor
  · intro h
    generalize hn : m.id = n at h
    induction h generalizing m with
    | room hmsg hP =>
      obtain ⟨r, hr, hid, rfl⟩ := hc.message_iff.mp hmsg
      obtain rfl := eq_of_id_eq hc.ids.messages_nodup hm hr (hn.trans hid.symm)
      exact .room hm ((hp m).mp hP)
    | reply hfollows hmsg hreply hk ih =>
      obtain ⟨r, hr, hid, rfl⟩ := hc.message_iff.mp hmsg
      obtain rfl := eq_of_id_eq hc.ids.messages_nodup hm hr (hn.trans hid.symm)
      -- the message that is answered has a row of its own
      obtain ⟨_, hparent⟩ := hk.there
      obtain ⟨parent, hmem, rfl, -⟩ := hc.message_iff.mp hparent
      exact .reply hfollows hm (ih hmem rfl) hreply
  · intro h
    induction h with
    | room hm hpm => exact .room (hc.message_iff.mpr ⟨_, hm, rfl, rfl⟩) ((hp _).mpr hpm)
    | reply hfk hm hparent hreply ih =>
      exact .reply hfk (hc.message_iff.mpr ⟨_, hm, rfl, rfl⟩) hreply (ih hparent.mem)

/-- The messages that a drop leaves. -/
theorem Kept.leaves {c : Conn} (hc : Kept c) {fk : Bool} {p : MsgRow → Prop} {db' : Db}
    {P : Board.Message → Prop} (hp : ∀ m : MsgRow, P m.message ↔ p m)
    (hsub : db'.messages.Sublist c.db.messages)
    (hleft : ∀ m ∈ c.db.messages, m ∈ db'.messages ↔ ¬ GoesWith c.db.messages fk p m) :
    c.db.board.Leaves fk P db'.board := by
  have hnodup : (db'.messages.map (·.id)).Nodup := hc.ids.messages_nodup.sublist (hsub.map _)
  have hafter : ∀ n m, db'.board.message n = some m ↔
      ∃ r ∈ db'.messages, r.id = n ∧ r.message = m :=
    fun _ _ => keyed_eq_some hnodup
  intro n m
  rw [hafter, hc.message_iff]
  constructor
  · rintro ⟨r, hr, rfl, rfl⟩
    have hold := hsub.subset hr
    refine ⟨⟨r, hold, rfl, rfl⟩, fun hgoes => ?_⟩
    exact (hleft r hold).mp hr ((hc.goesWith_iff hp hold).mp hgoes)
  · rintro ⟨⟨r, hr, rfl, rfl⟩, hstays⟩
    exact ⟨r, (hleft r hr).mpr fun hgoes => hstays ((hc.goesWith_iff hp hr).mpr hgoes), rfl, rfl⟩

theorem Kept.convGone {c : Conn} (hc : Kept c) {fk : Bool} {k : Nat} {db' : Db}
    (h : ConvDropped fk k c.db db') : c.db.board.ConvGone fk k db'.board where
  account := by simp only [Db.board, h.users]
  conv := by
    simp only [Db.board, h.conversations]
    exact keyed_filter_ne _ _ _ _
  members := by
    funext j
    ext u
    simp only [Db.board, Db.ConvMember, h.members, List.mem_filter, Set.mem_ofPred_eq]
    by_cases hj : j = k
    · subst hj
      rw [Function.update_self]
      constructor
      · rintro ⟨m, ⟨-, hne⟩, heq, -⟩
        exact absurd heq (by simpa using hne)
      · intro hnobody
        cases hnobody
    · simp only [Function.update_of_ne hj, Set.mem_ofPred_eq]
      constructor
      · rintro ⟨m, ⟨hm, -⟩, hconv, hu⟩
        exact ⟨m, hm, hconv, hu⟩
      · rintro ⟨m, hm, rfl, hu⟩
        exact ⟨m, ⟨hm, by simpa using hj⟩, rfl, hu⟩
  chat := by simp only [Db.board, h.chats]
  message := hc.leaves (fun _ => Iff.rfl) h.in_order h.messages

theorem Kept.chatGone {c : Conn} (hc : Kept c) {fk : Bool} {k : Nat} {db' : Db}
    (h : ChatDropped fk k c.db db') : c.db.board.ChatGone fk k db'.board where
  account := by simp only [Db.board, h.users]
  conv := by simp only [Db.board, h.conversations]
  members := by simp only [Db.board, Db.ConvMember, h.members]
  chat := by
    simp only [Db.board, h.chats]
    exact keyed_filter_ne _ _ _ _
  message := hc.leaves (fun _ => Iff.rfl) h.in_order h.messages

/-! ## Lists -/

/-- The rows of a list that is answered. -/
theorem lists_of_rows {S : Set Nat} {r : Nat → Nat → Prop} {limit offset : Int} {clean : Bool}
    {l : List Nat} (hnodup : l.Nodup) (hmem : ∀ n, n ∈ l ↔ n ∈ S) (hord : l.Pairwise r)
    {ids : List UInt32} {rc : Rc} (hlist : ListOf clean (idRows (page limit offset l)) (ids, rc))
    (hrc : sqlIsErr rc = false) : Board.Lists S r limit offset clean ids := by
  cases hlist with
  | upTo n hall =>
    refine ⟨l, hnodup, hmem, hord, n, fun hclean => ?_, ?_⟩
    · simpa [idRows] using hall hclean
    · simp [idRows, columnZero, Function.comp_def, ← List.map_take]
  | failed _ herr => cases hrc.symm.trans herr

theorem page_all {α : Type} (l : List α) : page (-1) 0 l = l := by
  simp [page]

namespace Kept

variable {c : Conn} (hc : Kept c)
include hc

theorem nodup_convIdsOf (u : Nat) : (c.db.convIdsOf u).Nodup := by
  refine (List.nodup_map_iff_inj_on (hc.members_nodup.of_map _ |>.filter _)).mpr ?_
  intro m hm m' hm' heq
  refine List.inj_on_of_nodup_map hc.members_nodup (List.mem_of_mem_filter hm)
    (List.mem_of_mem_filter hm') ?_
  have hu : m.userId = u := by simpa using (List.mem_filter.mp hm).2
  have hu' : m'.userId = u := by simpa using (List.mem_filter.mp hm').2
  rw [heq, hu, hu']

theorem nodup_membersOf (k : Nat) :
    ((c.db.members.filter (·.convId = k)).map (·.userId)).Nodup := by
  refine (List.nodup_map_iff_inj_on (hc.members_nodup.of_map _ |>.filter _)).mpr ?_
  intro m hm m' hm' heq
  refine List.inj_on_of_nodup_map hc.members_nodup (List.mem_of_mem_filter hm)
    (List.mem_of_mem_filter hm') ?_
  have hk : m.convId = k := by simpa using (List.mem_filter.mp hm).2
  have hk' : m'.convId = k := by simpa using (List.mem_filter.mp hm').2
  rw [heq, hk, hk']

theorem nodup_chatIdsOf (u : Nat) : (c.db.chatIdsOf u).Nodup :=
  hc.ids.chats_nodup.sublist (List.filter_sublist.map _)

omit hc in
theorem mem_filter_ids {p : MsgRow → Bool} {l : List MsgRow} {n : Nat} :
    n ∈ (l.filter p).map (·.id) ↔ ∃ m ∈ l, p m = true ∧ m.id = n := by
  simp only [List.mem_map, List.mem_filter, and_assoc]

/-- Messages in a filter of the table, by their ids. -/
theorem mem_messages {p : MsgRow → Bool} {P : Board.Message → Prop}
    (hp : ∀ m : MsgRow, p m = true ↔ P m.message) (n : Nat) :
    n ∈ (c.db.messages.filter p).map (·.id) ↔
      n ∈ { n | ∃ m, c.db.board.message n = some m ∧ P m } := by
  rw [mem_filter_ids]
  constructor
  · rintro ⟨m, hm, hpm, rfl⟩
    exact ⟨m.message, hc.message_iff.mpr ⟨m, hm, rfl, rfl⟩, (hp m).mp hpm⟩
  · rintro ⟨_, hmsg, hP⟩
    obtain ⟨m, hm, rfl, rfl⟩ := hc.message_iff.mp hmsg
    exact ⟨m, hm, (hp m).mpr hP, rfl⟩

/-- The rows of a room, the newest first. -/
theorem lists_newest {p : MsgRow → Bool} {P : Board.Message → Prop}
    (hp : ∀ m : MsgRow, p m = true ↔ P m.message) {limit offset : Int} {clean : Bool}
    {ids : List UInt32} {rc : Rc}
    (hlist : ListOf clean (idRows (page limit offset (((c.db.messages.filter p).insertionSort
      (·.createdAt ≥ ·.createdAt)).map (·.id)))) (ids, rc)) (hrc : sqlIsErr rc = false) :
    Board.Lists { n | ∃ m, c.db.board.message n = some m ∧ P m } c.db.board.Newer limit offset clean
      ids := by
  have hperm := List.perm_insertionSort (fun m m' : MsgRow => m.createdAt ≥ m'.createdAt)
    (c.db.messages.filter p)
  have hnodup : ((c.db.messages.filter p).map (·.id)).Nodup :=
    hc.ids.messages_nodup.sublist (List.filter_sublist.map _)
  refine lists_of_rows ((hperm.map _).nodup_iff.mpr hnodup) (fun n => ?_) ?_ hlist hrc
  · rw [(hperm.map _).mem_iff]
    exact hc.mem_messages hp n
  · have htotal : Std.Total fun m m' : MsgRow => m.createdAt ≥ m'.createdAt :=
      ⟨fun m m' => le_total m'.createdAt m.createdAt⟩
    have htrans : IsTrans MsgRow fun m m' => m.createdAt ≥ m'.createdAt :=
      ⟨fun _ _ _ h h' => le_trans h' h⟩
    have hsorted := List.pairwise_insertionSort
      (fun m m' : MsgRow => m.createdAt ≥ m'.createdAt) (c.db.messages.filter p)
    rw [List.pairwise_map]
    refine hsorted.imp_of_mem fun {m m'} hm hm' hle => ?_
    have hmem : m ∈ c.db.messages := List.mem_of_mem_filter ((List.mem_insertionSort _).mp hm)
    have hmem' : m' ∈ c.db.messages := List.mem_of_mem_filter ((List.mem_insertionSort _).mp hm')
    intro x x' hx hx'
    have hsame := hc.message_iff.mpr ⟨m, hmem, rfl, rfl⟩
    have hsame' := hc.message_iff.mpr ⟨m', hmem', rfl, rfl⟩
    obtain rfl := Option.some.inj (hsame.symm.trans hx)
    obtain rfl := Option.some.inj (hsame'.symm.trans hx')
    exact hle

/-- The accounts that a search finds, by name. -/
theorem lists_named {pattern : List UInt8} {limit offset : Int} {clean : Bool} {ids : List UInt32}
    {rc : Rc} (hlist : ListOf clean ((Query.userSearch pattern limit offset).rows c.db) (ids, rc))
    (hrc : sqlIsErr rc = false) :
    Board.Lists { n | ∃ a, c.db.board.account n = some a ∧ like pattern a.uname.bytes = true }
      c.db.board.Named limit offset clean ids := by
  have hperm := List.perm_insertionSort (fun r r' : UserRow => r.uname.bytes ≤ r'.uname.bytes)
    (c.db.users.filter fun u => like pattern u.uname.bytes)
  have hnodup : ((c.db.users.filter fun u => like pattern u.uname.bytes).map (·.id)).Nodup :=
    hc.users_nodup.sublist (List.filter_sublist.map _)
  refine lists_of_rows ((hperm.map _).nodup_iff.mpr hnodup) (fun n => ?_) ?_ hlist hrc
  · rw [(hperm.map _).mem_iff]
    simp only [List.mem_map, List.mem_filter, Set.mem_ofPred_eq]
    constructor
    · rintro ⟨r, ⟨hr, hlike⟩, rfl⟩
      exact ⟨r.account, hc.account_iff.mpr ⟨r, hr, rfl, rfl⟩, hlike⟩
    · rintro ⟨a, ha, hlike⟩
      obtain ⟨r, hr, rfl, rfl⟩ := hc.account_iff.mp ha
      exact ⟨r, ⟨hr, hlike⟩, rfl⟩
  · have htotal : Std.Total fun r r' : UserRow => r.uname.bytes ≤ r'.uname.bytes :=
      ⟨fun r r' => Std.Total.total r.uname.bytes r'.uname.bytes⟩
    have htrans : IsTrans UserRow fun r r' => r.uname.bytes ≤ r'.uname.bytes :=
      ⟨fun _ _ _ h h' => List.le_trans h h'⟩
    have hsorted := List.pairwise_insertionSort
      (fun r r' : UserRow => r.uname.bytes ≤ r'.uname.bytes)
      (c.db.users.filter fun u => like pattern u.uname.bytes)
    rw [List.pairwise_map]
    refine hsorted.imp_of_mem fun {r r'} hr hr' hle => ?_
    have hmem : r ∈ c.db.users := List.mem_of_mem_filter ((List.mem_insertionSort _).mp hr)
    have hmem' : r' ∈ c.db.users := List.mem_of_mem_filter ((List.mem_insertionSort _).mp hr')
    intro x x' hx hx'
    have hsame := hc.account_iff.mpr ⟨r, hmem, rfl, rfl⟩
    have hsame' := hc.account_iff.mpr ⟨r', hmem', rfl, rfl⟩
    obtain rfl := Option.some.inj (hsame.symm.trans hx)
    obtain rfl := Option.some.inj (hsame'.symm.trans hx')
    exact hle

end Kept

end MeshChat
