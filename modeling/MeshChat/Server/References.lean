import MeshChat.Server.Together
import MeshChat.Server.Integrity

/-! # References while requests run together

    `Integrity` follows requests that are executed one at a time. Here their calls
    come in any order, and a statement of one may stand in the middle of another's
    transaction. References stay good all the same, because each single statement
    keeps them while foreign keys are on, and the first room is created behind the
    `PRAGMA` that switches them on.

    * `RefsExist.apply`: a statement with foreign keys on.
    * `Roomless`: no room has been created yet.
    * `references_kept`: from a connection on which foreign keys are on, or that has
      no rooms, every reference names an existing row at all times.
-/

namespace MeshChat

open CMemory SqlLex Prog

/-! ## Single statements -/

namespace Db

variable {db : Db}

/-- What a deletion of conversations leaves of the messages. -/
theorem mem_deleteConversations_messages {id : Nat} {m : MsgRow}
    (h : m ∈ (db.deleteConversations true (·.id = id)).messages) :
    m ∈ db.messages ∧ ∀ k, m.convId = some k →
      k ∉ (db.conversations.filter (·.id = id)).map (·.id) := by
  have hkept : m ∈ removeMessages true
      (fun m => m.convId.any (· ∈ (db.conversations.filter (·.id = id)).map (·.id))) db.messages := h
  obtain ⟨hm, hkept⟩ := not_of_mem_removeMessages hkept
  refine ⟨hm, fun k hk => ?_⟩
  rw [hk] at hkept
  simpa using hkept

theorem mem_deleteChats_messages {id : Nat} {m : MsgRow}
    (h : m ∈ (db.deleteChats true (·.id = id)).messages) :
    m ∈ db.messages ∧ ∀ k, m.chatId = some k →
      k ∉ (db.chats.filter (·.id = id)).map (·.id) := by
  have hkept : m ∈ removeMessages true
      (fun m => m.chatId.any (· ∈ (db.chats.filter (·.id = id)).map (·.id))) db.messages := h
  obtain ⟨hm, hkept⟩ := not_of_mem_removeMessages hkept
  refine ⟨hm, fun k hk => ?_⟩
  rw [hk] at hkept
  simpa using hkept

end Db

/-- A row that a reference names is still there unless the reference was found to name one
    that went. -/
theorem exists_kept {α : Type} {l : List α} {f : α → Nat} {id k : Nat} (h : ∃ r ∈ l, f r = k)
    (hkept : k ∉ (l.filter (f · = id)).map f) : ∃ r ∈ l.filter fun r => !decide (f r = id), f r = k := by
  obtain ⟨r, hr, rfl⟩ := h
  refine ⟨r, List.mem_filter.mpr ⟨hr, ?_⟩, rfl⟩
  have hne : f r ≠ id := fun hid =>
    hkept (List.mem_map.mpr ⟨r, List.mem_filter.mpr ⟨hr, by simpa using hid⟩, rfl⟩)
  simpa using hne

namespace RefsExist

variable {db : Db}

/-- A deletion of messages takes the answers along. -/
theorem messagesDeleted (h : RefsExist db) (p : MsgRow → Bool) :
    RefsExist (db.deleteMessages true p) := by
  have hsub : ∀ m ∈ (db.deleteMessages true p).messages, m ∈ db.messages :=
    fun m hm => (removeMessages_sublist true p db.messages).subset hm
  have hreply : RepliesIn (removeMessages true p db.messages) :=
    h.msg_reply.removeMessages (by simp)
  exact ⟨h.member_conv, h.member_user, h.chat_users, fun m hm => h.msg_from m (hsub m hm), hreply,
    fun m hm => h.msg_chat m (hsub m hm), fun m hm => h.msg_conv m (hsub m hm)⟩

/-- A conversation takes its members and messages along. -/
theorem convDeleted (h : RefsExist db) (id : Nat) :
    RefsExist (db.deleteConversations true (·.id = id)) := by
  have hsub := fun m (hm : m ∈ (db.deleteConversations true (·.id = id)).messages) =>
    (Db.mem_deleteConversations_messages hm).1
  have hreply : RepliesIn (removeMessages true
      (fun m => m.convId.any (· ∈ (db.conversations.filter (·.id = id)).map (·.id)))
      db.messages) := h.msg_reply.removeMessages (by simp)
  refine ⟨?_, fun m hm => h.member_user m (List.mem_filter.mp hm).1, h.chat_users,
    fun m hm => h.msg_from m (hsub m hm), hreply, fun m hm => h.msg_chat m (hsub m hm), ?_⟩
  · intro m hm
    obtain ⟨hm, hkept⟩ := List.mem_filter.mp hm
    exact exists_kept (h.member_conv m hm) (by simpa using hkept)
  · intro m hm k hk
    exact exists_kept (h.msg_conv m (hsub m hm) k hk)
      ((Db.mem_deleteConversations_messages hm).2 k hk)

/-- A chat takes its messages along. -/
theorem chatDeleted (h : RefsExist db) (id : Nat) :
    RefsExist (db.deleteChats true (·.id = id)) := by
  have hsub := fun m (hm : m ∈ (db.deleteChats true (·.id = id)).messages) =>
    (Db.mem_deleteChats_messages hm).1
  have hreply : RepliesIn (removeMessages true
      (fun m => m.chatId.any (· ∈ (db.chats.filter (·.id = id)).map (·.id)))
      db.messages) := h.msg_reply.removeMessages (by simp)
  refine ⟨h.member_conv, h.member_user, fun r hr => h.chat_users r (List.mem_filter.mp hr).1,
    fun m hm => h.msg_from m (hsub m hm), hreply, ?_, fun m hm => h.msg_conv m (hsub m hm)⟩
  intro m hm k hk
  exact exists_kept (h.msg_chat m (hsub m hm) k hk) ((Db.mem_deleteChats_messages hm).2 k hk)

/-- A member that sqlite has accepted. -/
theorem memberInserted (h : RefsExist db) {convId userId : Nat} {x : Db × Option Nat}
    (hinsert : db.insertMember true convId userId = some x) : RefsExist x.1 := by
  cases Db.insertRow_eq_some hinsert
  obtain ⟨hvalid, -⟩ := Db.insertRow_inv hinsert
  simp only [Bool.not_true, Bool.false_or, Bool.and_eq_true] at hvalid
  exact h.memberAdded (by simpa [Db.hasConv] using hvalid.2.1) (Db.exists_of_hasUser hvalid.2.2)

/-- A single statement of a request, with foreign keys on. -/
theorem apply (h : RefsExist db) {s : Stmt} {userId last : Nat} {seen : Check → Prop}
    {x : Db × Option Nat} (hs : s.Permitted userId seen) (happly : s.apply true last db = some x) :
    RefsExist x.1 := by
  cases s with
  | insertUser u p ph e =>
    cases Db.insertRow_eq_some happly
    exact h.registered _
  | insertConversation a n =>
    cases Db.insertRow_eq_some happly
    exact h.convCreated _
  | insertMemberOfLast u => exact h.memberInserted happly
  | insertMember c u => exact h.memberInserted happly
  | insertChat a b =>
    cases Db.insertRow_eq_some happly
    obtain ⟨hvalid, -⟩ := Db.insertRow_inv happly
    simp only [Bool.not_true, Bool.false_or, Bool.and_eq_true] at hvalid
    exact h.chatCreated (Db.exists_of_hasUser hvalid.2.1) (Db.exists_of_hasUser hvalid.2.2)
  | insertMessage m =>
    cases Db.insertRow_eq_some happly
    exact h.msgSent happly
  | deleteMember c u => cases happly; exact h.membersLeft _
  | deleteMembersOf c => cases happly; exact h.membersLeft _
  | deleteConversation c => cases happly; exact h.convDeleted c
  | deleteChat c => cases happly; exact h.chatDeleted c
  | deleteMessagesOfConv c => cases happly; exact h.messagesDeleted _
  | deleteMessagesOfChat c => cases happly; exact h.messagesDeleted _
  | setMessageType id t =>
    cases happly
    exact h.msgUpdated fun m => ⟨m.content, t, rfl⟩
  | clearMessage id => cases happly; exact h.msgUpdated rewrites_deleted
  | deleteUser id => exact hs.elim
  | deleteMessage id => exact hs.elim
  | raw => exact hs.elim
  | _ => cases happly; exact h

end RefsExist

/-! ## Before the first room -/

/-- No room has been created yet, and no transaction is open. -/
structure Roomless (c : Conn) : Prop where
  saved : c.saved = none
  conversations : c.db.conversations = []
  chats : c.db.chats = []
  members : c.db.members = []

section Together

variable {ι : Type} [DecidableEq ι] {env : ι → Env} {req : ι → Request} {c₀ c : Conn}
  {log : List (Entry ι SqlCall Reply Conn)}

/-- Foreign keys have never been on, and there have never been rooms. -/
structure Untouched (log : List (Entry ι SqlCall Reply Conn)) (c : Conn) : Prop where
  off : c.fk = false
  roomless : Roomless c
  before : ∀ e ∈ log, Roomless e.pre ∧ e.post.fk = false

namespace Untouched

omit [DecidableEq ι] in
/-- Nobody can have found a room. -/
theorem not_foundBy (h : Untouched log c) {i : ι} {chk : Check}
    (hne : ∀ id cols, chk ≠ .message id cols) : ¬ FoundBy log i chk := by
  rintro ⟨e, he, -, -, hholds⟩
  obtain ⟨hroomless, hoff⟩ := h.before e he
  cases chk with
  | convMember k u =>
    obtain ⟨m, hm, -⟩ := hholds
    rw [hroomless.members] at hm
    cases hm
  | convAdmin k u =>
    obtain ⟨r, hr, -⟩ := hholds
    rw [hroomless.conversations] at hr
    cases hr
  | chatMember k u =>
    obtain ⟨r, hr, -⟩ := hholds
    rw [hroomless.chats] at hr
    cases hr
  | message id cols => exact hne id cols rfl
  | enforced =>
    have hon := hholds hroomless.saved
    rw [hoff] at hon
    cases hon

omit [DecidableEq ι] in
theorem not_ownsRoom (h : Untouched log c) {i : ι} {userId : Nat} :
    ¬ OwnsRoom userId (FoundBy log i) := by
  rintro (⟨k, hk⟩ | ⟨k, hk⟩)
  · exact h.not_foundBy (by simp) hk
  · exact h.not_foundBy (by simp) hk

omit [DecidableEq ι] in
theorem not_mayRead (h : Untouched log c) {i : ι} {userId id : Nat} :
    ¬ MayRead userId (FoundBy log i) id := by
  rintro ⟨cols, -, hroom | hroom⟩
  · exact h.not_foundBy (by simp) hroom
  · exact h.not_foundBy (by simp) hroom

omit [DecidableEq ι] in
/-- A statement that was permitted all the same registers somebody, or is about foreign
    keys and transactions only. -/
theorem permitted_cases (h : Untouched log c) {i : ι} {userId : Nat} {s : Stmt}
    (hs : s.Permitted userId (FoundBy log i)) :
    (∃ u p ph e, s = .insertUser u p ph e) ∨ s = .pragmaForeignKeysOn ∨ s = .begin ∨
      s = .commit ∨ s = .rollback ∨ s = .malformed := by
  cases s with
  | insertUser u p ph e => exact Or.inl ⟨u, p, ph, e, rfl⟩
  | insertConversation a n => exact absurd hs.2 (h.not_foundBy (by simp))
  | insertMemberOfLast u => exact absurd hs.2 (h.not_foundBy (by simp))
  | insertMember k u => exact absurd hs (h.not_foundBy (by simp))
  | deleteMember k u => exact absurd hs.2 (h.not_foundBy (by simp))
  | deleteMessagesOfConv k => exact absurd hs (h.not_foundBy (by simp))
  | deleteMembersOf k => exact absurd hs (h.not_foundBy (by simp))
  | deleteConversation k => exact absurd hs (h.not_foundBy (by simp))
  | insertChat a b => exact absurd hs.2.2 (h.not_foundBy (by simp))
  | deleteMessagesOfChat k => exact absurd hs (h.not_foundBy (by simp))
  | deleteChat k => exact absurd hs (h.not_foundBy (by simp))
  | insertMessage m => exact absurd hs.2.1 (h.not_foundBy (by simp))
  | setMessageType id t => exact absurd hs.2 h.not_mayRead
  | clearMessage id => exact absurd hs h.not_mayRead
  | deleteUser id => exact hs.elim
  | deleteMessage id => exact hs.elim
  | raw => exact hs.elim
  | _ => simp

end Untouched

/-- The tables, and those that a rollback would bring back, refer to existing rows. -/
structure RefsKept (log : List (Entry ι SqlCall Reply Conn)) (c : Conn) : Prop where
  db : RefsExist c.db
  saved : ∀ db ∈ c.saved, RefsExist db
  first : c.fk = true ∨ Untouched log c

omit [DecidableEq ι] in
/-- A call with foreign keys on. -/
theorem RefsExist.answers {c c' : Conn} {call : SqlCall} {r : Reply} {i : ι} (hon : c.fk = true)
    (hdb : RefsExist c.db) (hsaved : ∀ db ∈ c.saved, RefsExist db) (h : Answers c call c' r)
    (hallowed : call.Allowed ((env i).verified = true) (req i).header.userId.toNat
      (FoundBy log i)) : RefsExist c'.db := by
  cases h.outcome hallowed.modelled with
  | @ran _ s _ hstmt _ =>
    have hmem : s ∈ call.stmts := by
      rcases SqlCall.eq_of_stmt hstmt with rfl | rfl <;> simp [SqlCall.stmts]
    cases heffect : s.effect with
    | writes k =>
      rcases Stmt.run_of_writes heffect c with ⟨x, happly, hrun⟩ | ⟨-, hrun⟩
      · rw [hrun]
        rw [hon] at happly
        exact hdb.apply (hallowed.stmts s hmem).1 happly
      · rw [hrun]
        exact hdb
    | rollsBack =>
      have hback := s.run_effect c
      rw [heffect] at hback
      rw [hback.1]
      cases hopen : c.saved with
      | none => exact hdb
      | some db => exact hsaved db hopen
    | mixed => cases s <;> cases heffect
    | _ =>
      have hsame := s.run_effect c
      rw [heffect] at hsame
      rw [hsame.1]
      exact hdb
  | began fk =>
    have hsame : (Stmt.run .begin { c with fk }).1.db = c.db := by
      simp only [Stmt.run]
      split <;> rfl
    rw [hsame]
    exact hdb
  | mixed heffect => exact absurd heffect hallowed.plain
  | _ => exact hdb

omit [DecidableEq ι] in
/-- A call before the first room. -/
theorem Untouched.step {c c' : Conn} {call : SqlCall} {r : Reply} {i : ι} (h : Untouched log c)
    (hdb : RefsExist c.db) (hanswers : Answers c call c' r)
    (hallowed : call.Allowed ((env i).verified = true) (req i).header.userId.toNat
      (FoundBy log i)) :
    RefsExist c'.db ∧ (∀ db ∈ c'.saved, RefsExist db) ∧ (c'.fk = true ∨ Roomless c') := by
  obtain ⟨hoff, hroomless, -⟩ := id h
  have hidle := hroomless.saved
  have hsame : ∀ held, RefsExist c.db ∧ (∀ db ∈ c.saved, RefsExist db) ∧
      (c.fk = true ∨ Roomless { c with held }) := by
    refine fun held => ⟨hdb, by simp [hidle], Or.inr ⟨hidle, ?_, ?_, ?_⟩⟩
    · exact hroomless.conversations
    · exact hroomless.chats
    · exact hroomless.members
  by_cases hbegin : call = .exec [.pragmaForeignKeysOn, .begin]
  · -- the transaction is only opened with foreign keys on
    subst hbegin
    rcases answers_pragmaBegin hidle hanswers with ⟨rfl, -⟩ | ⟨⟨fk, rfl, -⟩, -⟩
    · exact ⟨hdb, by simpa using hdb, Or.inl rfl⟩
    · refine ⟨hdb, by simp [hidle], ?_⟩
      cases fk with
      | true => exact Or.inl rfl
      | false => exact Or.inr ⟨hidle, hroomless.conversations, hroomless.chats, hroomless.members⟩
  cases hanswers.outcome hallowed.modelled with
  | @ran _ s _ hstmt _ =>
    have hmem : s ∈ call.stmts := by
      rcases SqlCall.eq_of_stmt hstmt with rfl | rfl <;> simp [SqlCall.stmts]
    rcases h.permitted_cases (hallowed.stmts s hmem).1 with
      ⟨u, p, ph, e, rfl⟩ | rfl | rfl | rfl | rfl | rfl
    · have hinsert : Stmt.effect (.insertUser u p ph e) = .writes .insert := rfl
      rcases Stmt.run_of_writes hinsert c with ⟨x, happly, hrun⟩ | ⟨-, hrun⟩
      · rw [hrun]
        have happly : c.db.insertUser u p ph e = some x := happly
        cases Db.insertRow_eq_some happly
        refine ⟨hdb.registered _, by simp [hidle], Or.inr ⟨hidle, ?_, ?_, ?_⟩⟩
        · exact hroomless.conversations
        · exact hroomless.chats
        · exact hroomless.members
      · rw [hrun]
        exact hsame c.held
    · have hrun : Stmt.run .pragmaForeignKeysOn c = ({ c with fk := true }, .ok) := by
        simp [Stmt.run, hidle]
      rw [hrun]
      exact ⟨hdb, by simp [hidle], Or.inl rfl⟩
    · exact absurd (hallowed.opens hstmt) h.not_ownsRoom
    · have hrun : Stmt.run .commit c = (c, .error) := by simp [Stmt.run, hidle]
      rw [hrun]
      exact hsame c.held
    · have hrun : Stmt.run .rollback c = (c, .error) := by simp [Stmt.run, hidle]
      rw [hrun]
      exact hsame c.held
    · exact hsame c.held
  | failed _ _ _ => exact hsame c.held
  | began fk => exact absurd rfl hbegin
  | notBegan fk => exact absurd rfl hbegin
  | passive _ _ => exact hsame _
  | mixed heffect => exact absurd heffect hallowed.plain

/-- Whatever order the calls of any requests come in, and whichever of them fail, every
    reference names an existing row at all times. Foreign keys are on at the start, or there
    are no rooms yet. -/
theorem references_kept (hquote : ∀ i, (req i).QuoteFree) (hidle : c₀.saved = none)
    (hstart : RefsExist c₀.db) (hfirst : c₀.fk = true ∨ Roomless c₀)
    (h : HandledTogether env req c₀ log c) : RefsExist c.db := by
  have hkept : RefsKept log c := by
    induction h with
    | start =>
      refine ⟨hstart, by simp [hidle], ?_⟩
      by_cases hon : c₀.fk = true
      · exact Or.inl hon
      · exact Or.inr ⟨by simpa using hon, hfirst.resolve_left hon, by simp⟩
    | @step log s s' i call r hprev hissue hcall ih =>
      obtain ⟨hdb, hsaved, hfirst⟩ := ih
      have hallowed := allowed_next hquote hprev hissue
      rcases hfirst with hon | huntouched
      · refine ⟨hdb.answers hon hsaved hcall hallowed, fun db hopen => ?_,
          Or.inl (hcall.fk hallowed.modelled hon)⟩
        rcases hcall.saved_cases hallowed.modelled hallowed.plain hopen with hopen | rfl
        · exact hsaved db hopen
        · exact hdb
      · obtain ⟨hdb', hsaved', hfirst'⟩ := huntouched.step hdb hcall hallowed
        refine ⟨hdb', hsaved', ?_⟩
        by_cases hon : s'.fk = true
        · exact Or.inl hon
        -- still nobody has created a room
        have hoff : s'.fk = false := by simpa using hon
        refine Or.inr ⟨hoff, hfirst'.resolve_left hon, fun e he => ?_⟩
        rcases List.mem_append.mp he with he | he
        · exact huntouched.before e he
        · obtain rfl := List.mem_singleton.mp he
          exact ⟨huntouched.roomless, hoff⟩
  exact hkept.db

end Together

/-- The member that is taken in while the conversation is dropped goes with it. -/
theorem references_kept_meet :
    ∃ log c, HandledTogether (fun _ => lobbyEnv) meetReq meetConn log c ∧
      c.db.conversations = [] ∧ RefsExist c.db := by
  obtain ⟨log, c, hrun, hnone⟩ := meet_played (p := fun c => c.db.conversations = [])
    [true, true, false, false, false, false, false, true, true, true, true, true, false, false]
    (by decide +kernel)
  refine ⟨log, c, hrun, hnone, references_kept meetReq_quoteFree rfl ?_ (Or.inl rfl) hrun⟩
  exact ⟨by decide, by decide, by decide, by decide, by simp [RepliesIn, meetConn, meetDb],
    by simp [meetConn, meetDb], by simp [meetConn, meetDb]⟩

end MeshChat
