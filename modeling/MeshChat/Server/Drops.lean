import MeshChat.Server.Integrity
import MeshChat.Server.Storage

/-! # What is left when a room is dropped

    `conv_drop` and `chat_drop` delete the messages of the room, its members and the room
    itself. With foreign keys on, `reply_to … ON DELETE CASCADE` also deletes every answer to
    a deleted message, in whatever room it was sent.

    * `ConvDropped`, `ChatDropped`: the tables behind a drop, given by which rows are left.
    * `drop_removes_room`: a drop that reports success ends in them, with foreign keys on or
      off.
-/

namespace MeshChat

open CMemory SqlLex Prog

/-! ## Messages that are left -/

/-- What goes with the deleted rows is not left. -/
theorem GoesWith.removed {ms : List MsgRow} {fk : Bool} {p : MsgRow → Bool} {m : MsgRow}
    (h : GoesWith ms fk (p · = true) m) : m ∉ removeMessages fk p ms := by
  cases fk with
  | false =>
    cases h with
    | room _ hp =>
      intro hleft
      have hkept := (not_of_mem_removeMessages hleft).2
      rw [hp] at hkept
      cases hkept
    | reply hfk _ _ _ => cases hfk
  | true =>
    -- along the answers, every id is one the cascade has reached
    have hgone : m.id ∈ closeReplies ms ((ms.filter p).map (·.id)) := by
      induction h with
      | room hm hp =>
        apply subset_closeReplies
        exact List.mem_map.mpr ⟨_, List.mem_filter.mpr ⟨hm, hp⟩, rfl⟩
      | reply _ hm _ hreply ih => exact closeReplies_closed hm hreply ih
    intro hleft
    exact of_decide_eq_true (List.mem_filter.mp hleft).2 hgone

/-! ## Behind a drop -/

/-- The tables behind the drop of conversation `id`: its row, its members and its messages are
    gone, and so is every message that answers, directly or through other answers, one of its
    messages while foreign keys are on. Every other row is as it was. -/
structure ConvDropped (fk : Bool) (id : Nat) (db db' : Db) : Prop where
  conversations : db'.conversations = db.conversations.filter (·.id ≠ id)
  members : db'.members = db.members.filter (·.convId ≠ id)
  chats : db'.chats = db.chats
  users : db'.users = db.users
  none_left : ∀ m ∈ db'.messages, m.convId ≠ some id
  in_order : db'.messages.Sublist db.messages
  messages : ∀ m ∈ db.messages,
    m ∈ db'.messages ↔ ¬ GoesWith db.messages fk (·.convId = some id) m

/-- The same for chat `id`. -/
structure ChatDropped (fk : Bool) (id : Nat) (db db' : Db) : Prop where
  chats : db'.chats = db.chats.filter (·.id ≠ id)
  conversations : db'.conversations = db.conversations
  members : db'.members = db.members
  users : db'.users = db.users
  none_left : ∀ m ∈ db'.messages, m.chatId ≠ some id
  in_order : db'.messages.Sublist db.messages
  messages : ∀ m ∈ db.messages,
    m ∈ db'.messages ↔ ¬ GoesWith db.messages fk (·.chatId = some id) m

namespace Db

variable {db : Db} {fk : Bool} {id : Nat} {m : MsgRow}

/-- What is left behind the first deletion of a drop may only become less. -/
theorem dropConv_messages_subset :
    (db.dropConv fk id).messages ⊆ removeMessages fk (·.convId = some id) db.messages := by
  cases fk with
  | false => exact List.Subset.refl _
  | true =>
    rw [dropConv_messages_true]
    exact (removeMessages_sublist ..).subset

theorem dropChat_messages_subset :
    (db.dropChat fk id).messages ⊆ removeMessages fk (·.chatId = some id) db.messages := by
  cases fk with
  | false => exact List.Subset.refl _
  | true =>
    rw [dropChat_messages_true]
    exact (removeMessages_sublist ..).subset

theorem convDropped (hids : (db.messages.map (·.id)).Nodup) :
    ConvDropped fk id db (db.dropConv fk id) where
  conversations := dropConv_conversations ..
  members := dropConv_members ..
  chats := dropConv_chats ..
  users := dropConv_users ..
  none_left _ hm := (mem_dropConv_messages hm).2
  in_order := dropConv_messages ..
  messages := by
    intro m hm
    constructor
    · intro hleft hgoes
      have hgoes' := hgoes.mono (fun _ h => h) (p := fun m => decide (m.convId = some id) = true)
        fun _ h => decide_eq_true h
      exact hgoes'.removed (dropConv_messages_subset hleft)
    · intro hstays
      by_contra hgone
      exact hstays (goesWith_of_dropConv hids hm hgone)

theorem chatDropped (hids : (db.messages.map (·.id)).Nodup) :
    ChatDropped fk id db (db.dropChat fk id) where
  chats := dropChat_chats ..
  conversations := dropChat_conversations ..
  members := dropChat_members ..
  users := dropChat_users ..
  none_left _ hm := (mem_dropChat_messages hm).2
  in_order := dropChat_messages ..
  messages := by
    intro m hm
    constructor
    · intro hleft hgoes
      have hgoes' := hgoes.mono (fun _ h => h) (p := fun m => decide (m.chatId = some id) = true)
        fun _ h => decide_eq_true h
      exact hgoes'.removed (dropChat_messages_subset hleft)
    · intro hstays
      by_contra hgone
      exact hstays (goesWith_of_dropChat hids hm hgone)

end Db

/-! ## Drops that report success -/

variable {c c' : Conn}

/-- Inside an open transaction the `BEGIN` of a drop fails. -/
theorem idle_of_begin {k : SqlProg Rc}
    (h : Runs Answers c (do
      let r ← invoke (.exec [.begin])
      if r.rc ≠ .ok then
        let (_, rc) ← rollback () r.rc
        return rc
      else k) c' .ok) : c.saved = none := by
  simp only [invoke_bind, runs_call] at h
  obtain ⟨c₁, r₁, hbegin, h⟩ := h
  by_contra hopen
  have hsome : c.saved.isSome = true := Option.isSome_iff_ne_none.mpr hopen
  have hfail : r₁.rc ≠ .ok := by
    rcases answers_exec (by simp) hbegin with ⟨-, hrc⟩ | ⟨-, ⟨hrc, -⟩, -⟩
    · rw [hrc, Stmt.run, if_pos hsome]
      simp
    · exact hrc
  rw [if_pos hfail] at h
  exact hfail (runs_rollback_rc h).1.symm

/-- A drop that reports `SQLITE_OK` has removed the room and, with foreign keys on, all answers
    to its messages; nothing else has changed. `PRIMARY KEY` keeps the ids of messages apart. -/
theorem drop_removes_room (hids : (c.db.messages.map (·.id)).Nodup) (id : UInt32) :
    (Runs Answers c (convDrop id) c' .ok → ConvDropped c.fk id.toNat c.db c'.db) ∧
      (Runs Answers c (chatDrop id) c' .ok → ChatDropped c.fk id.toNat c.db c'.db) := by
  constructor
  · intro hrun
    obtain ⟨-, -, ⟨-, hdb⟩ | ⟨hrc, -⟩⟩ := runs_convDrop (idle_of_begin hrun) hrun
    · rw [hdb]
      exact Db.convDropped hids
    · exact absurd rfl hrc
  · intro hrun
    obtain ⟨-, -, ⟨-, hdb⟩ | ⟨hrc, -⟩⟩ := runs_chatDrop (idle_of_begin hrun) hrun
    · rw [hdb]
      exact Db.chatDropped hids
    · exact absurd rfl hrc

/-- User 2 answers in chat 1 what user 1 wrote in conversation 1. -/
def crossReply : Request :=
  requestBy 2 4 2 (.msg { chatId := 1, replyId := 1, msgContent := some (.ofBytes (ascii "yes")) })

/-- After that session conversation 1 is dropped, and then chat 1. -/
theorem drop_removes_room_lobby :
    ∃ log c c₁ c₂, Session False log c ∧ Runs Answers c (convDrop 1) c₁ .ok ∧
      Runs Answers c₁ (chatDrop 1) c₂ .ok ∧ ConvDropped c.fk 1 c.db c₁.db ∧
      ChatDropped c₁.fk 1 c₁.db c₂.db := by
  have hplay : (lobbyPlay [crossReply]).any (fun x =>
      (execute serve 16 x.2 (convDrop 1)).any fun y =>
        (execute serve 16 y.1 (chatDrop 1)).any fun z => decide (y.2 = .ok ∧ z.2 = .ok)) = true := by
    rw [lobbyPlay_eq]
    decide +kernel
  obtain ⟨⟨log, c⟩, hsession, hrest⟩ := (Option.any_eq_true _ _).mp hplay
  obtain ⟨⟨c₁, rc₁⟩, hconv, hrest⟩ := (Option.any_eq_true _ _).mp hrest
  obtain ⟨⟨c₂, rc₂⟩, hchat, hcodes⟩ := (Option.any_eq_true _ _).mp hrest
  obtain ⟨rfl, rfl⟩ := of_decide_eq_true hcodes
  have hreached : Session False log c := lobbyPlay_session hsession
  have hrun₁ : Runs Answers c (convDrop 1) c₁ .ok := runs_of_execute answers_of_serve hconv
  have hrun₂ : Runs Answers c₁ (chatDrop 1) c₂ .ok := runs_of_execute answers_of_serve hchat
  have hids := hreached.inv.2.messages_nodup
  have hdropped := (drop_removes_room hids 1).1 hrun₁
  have hids₁ := hids.sublist (hdropped.in_order.map _)
  exact ⟨log, c, c₁, c₂, hreached, hrun₁, hrun₂, hdropped, (drop_removes_room hids₁ 1).2 hrun₂⟩

/-- With foreign keys on, the answer in chat 1 is removed with conversation 1. -/
theorem drop_removes_answers :
    ∃ log c c', Session False log c ∧ Runs Answers c (convDrop 1) c' .ok ∧
      ∃ m ∈ c.db.messages, m.convId ≠ some 1 ∧ m.chatId = some 1 ∧ m ∉ c'.db.messages := by
  have hplay : (lobbyPlay [crossReply]).any (fun x =>
      (execute serve 16 x.2 (convDrop 1)).any fun y => decide (y.2 = .ok ∧
        ∃ m ∈ x.2.db.messages, m.convId ≠ some 1 ∧ m.chatId = some 1 ∧
          m ∉ y.1.db.messages)) = true := by
    rw [lobbyPlay_eq]
    decide +kernel
  obtain ⟨⟨log, c⟩, hsession, hrest⟩ := (Option.any_eq_true _ _).mp hplay
  obtain ⟨⟨c', rc⟩, hconv, hfacts⟩ := (Option.any_eq_true _ _).mp hrest
  obtain ⟨rfl, hmsg⟩ := of_decide_eq_true hfacts
  exact ⟨log, c, c', lobbyPlay_session hsession, runs_of_execute answers_of_serve hconv, hmsg⟩

end MeshChat
