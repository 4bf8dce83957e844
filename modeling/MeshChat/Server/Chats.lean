import MeshChat.Server.Session

/-! # One chat for two users

    `chats` is unique in `(member1, member2)`, but a chat of two users may be stored
    in either order. The requests that open and drop chats run at the same time
    here, their calls to sqlite in any order.

    * `OneChatPerPair`: no two chats have the same two members, and no user has a
      chat with himself.
    * `SqlCall.OnChats`: all calls that these requests make.
    * `one_chat_per_pair`: that is kept as long as no chat is stored while there is
      one the other way round.
-/

namespace MeshChat

open CMemory Prog

/-! ## Pairs -/

/-- The members of a chat, in no order. -/
def ChatRow.pair (r : ChatRow) : Sym2 Nat := s(r.member1, r.member2)

/-- At most one chat for two users, and none for one. -/
structure OneChatPerPair (db : Db) : Prop where
  unique : ∀ a b, (db.chats.filter (·.pair = s(a, b))).length ≤ 1
  distinct : ∀ r ∈ db.chats, r.member1 ≠ r.member2

namespace OneChatPerPair

variable {db db' : Db}

/-- Chats may go. -/
theorem sublist (h : OneChatPerPair db) (hsub : db'.chats.Sublist db.chats) : OneChatPerPair db' := by
  refine ⟨fun a b => ?_, fun r hr => h.distinct r (hsub.subset hr)⟩
  exact (hsub.filter _).length_le.trans (h.unique a b)

/-- A chat may be added if there is none of the same two users. -/
theorem snoc (h : OneChatPerPair db) {r : ChatRow} (hchats : db'.chats = db.chats ++ [r])
    (hne : r.member1 ≠ r.member2) (hnew : ∀ r' ∈ db.chats, r'.pair ≠ r.pair) :
    OneChatPerPair db' := by
  refine ⟨fun a b => ?_, fun r' hr' => ?_⟩
  · rw [hchats, List.filter_append, List.length_append]
    have hone := h.unique a b
    by_cases hr : r.pair = s(a, b)
    · -- then no other one is of these two
      have hnone : db.chats.filter (·.pair = s(a, b)) = [] := by
        refine List.filter_eq_nil_iff.mpr fun r' hr' => ?_
        rw [← hr]
        simpa using hnew r' hr'
      rw [hnone]
      simp [hr]
    · simpa [hr] using hone
  · rw [hchats] at hr'
    rcases List.mem_append.mp hr' with hr' | hr'
    · exact h.distinct r' hr'
    · obtain rfl := List.mem_singleton.mp hr'
      exact hne

end OneChatPerPair

/-! ## The calls -/

/-- The calls of `handle_chat_create` and `handle_chat_drop`. -/
def SqlCall.OnChats : SqlCall → Prop
  | exec [s] => s = .pragmaForeignKeysOn ∨ s = .begin ∨ s = .commit ∨ s = .rollback ∨
      (∃ c, s = .deleteMessagesOfChat c) ∨ ∃ c, s = .deleteChat c
  | prepare s => ∃ a b, s = .insertChat a b
  | step s => ∃ a b, s = .insertChat a b ∧ a ≠ b
  | prepareQuery q | fetch q _ => ∃ c u, q = .chatMember c u
  | lastInsertRowid | lock | unlock => True
  | _ => False

/-- None of them depends on a text of the client, and none is more than a statement. -/
theorem SqlCall.OnChats.plain {call : SqlCall} (h : call.OnChats) :
    call.Modelled ∧ call.effect ≠ .mixed := by
  unfold SqlCall.OnChats at h
  split at h
  · rcases h with rfl | rfl | rfl | rfl | ⟨c, rfl⟩ | ⟨c, rfl⟩
    all_goals exact ⟨by simp [SqlCall.Modelled], by simp [SqlCall.effect, Stmt.effect]⟩
  · obtain ⟨a, b, rfl⟩ := h
    exact ⟨by simp [SqlCall.Modelled], by simp [SqlCall.effect]⟩
  · obtain ⟨a, b, rfl, -⟩ := h
    exact ⟨by simp [SqlCall.Modelled], by simp [SqlCall.effect, Stmt.effect]⟩
  · obtain ⟨c, u, rfl⟩ := h
    exact ⟨by simp [SqlCall.Modelled], by simp [SqlCall.effect]⟩
  · obtain ⟨c, u, rfl⟩ := h
    exact ⟨by simp [SqlCall.Modelled], by simp [SqlCall.effect]⟩
  · exact ⟨trivial, by simp [SqlCall.effect]⟩
  · exact ⟨trivial, by simp [SqlCall.effect]⟩
  · exact ⟨trivial, by simp [SqlCall.effect]⟩
  · exact h.elim

/-- The program makes no other calls. -/
def chatsProtocol (α : Type) : Protocol SqlCall Reply α Unit where
  allows _ c := c.OnChats
  next _ _ _ := ()
  done _ _ := True

theorem conforms_chatIsMember (chatId userId : UInt32) :
    Conforms (chatsProtocol _) () (chatIsMember chatId userId) := by
  simp [chatIsMember, sqlExists, sqlFirstRow, chatsProtocol, SqlCall.OnChats]

theorem conforms_chatCreate {a b : UInt32} (h : a ≠ b) :
    Conforms (chatsProtocol _) () (chatCreate a b) := by
  have hne : a.toNat ≠ b.toNat := fun heq => h (UInt32.toNat_inj.mp heq)
  simp [chatCreate, sqlInsert, chatsProtocol, SqlCall.OnChats, hne]

theorem conforms_chatDrop (c : UInt32) : Conforms (chatsProtocol _) () (chatDrop c) := by
  simp [chatDrop, commitAfter, rollback, chatsProtocol, SqlCall.OnChats]

theorem conforms_handleChatCreate (header : RequestHeader) (rchat : RequestChat) :
    Conforms (chatsProtocol _) () (handleChatCreate header rchat) := by
  unfold handleChatCreate
  split
  · exact trivial
  · rename_i hne
    refine Conforms.bind ((conforms_chatCreate hne).mono (fun _ _ h => h) (fun _ _ _ => rfl) ?_)
    rintro _ ⟨id, rc⟩ -
    simp [responseErr, respond, chatsProtocol]

theorem conforms_handleChatDrop (header : RequestHeader) (rchat : RequestChat) :
    Conforms (chatsProtocol _) () (handleChatDrop header rchat) := by
  refine Conforms.bind ((conforms_chatIsMember ..).mono (fun _ _ h => h) (fun _ _ _ => rfl) ?_)
  rintro _ ⟨isMember, rc⟩ -
  simp only [conforms_ite]
  refine ⟨fun _ => trivial, fun _ => ⟨fun _ => trivial, fun _ => ?_⟩⟩
  refine Conforms.bind ((conforms_chatDrop _).mono (fun _ _ h => h) (fun _ _ _ => rfl) ?_)
  rintro _ rc' -
  simp [responseErr, respond, chatsProtocol]

/-- A request that opens or drops a chat. -/
def Request.IsOnChats (r : Request) : Prop :=
  (∃ rchat, r.route = some (.chatCreate rchat)) ∨ ∃ rchat, r.route = some (.chatDrop rchat)

theorem conforms_chats {env : Env} {r : Request} (h : r.IsOnChats) :
    Conforms (chatsProtocol _) () (handleReq env (some r)) := by
  unfold handleReq
  dsimp only
  split
  · exact trivial
  · rcases h with ⟨rchat, hroute⟩ | ⟨rchat, hroute⟩
    · rw [hroute]
      exact conforms_handleChatCreate ..
    · rw [hroute]
      exact conforms_handleChatDrop ..

/-! ## Interleaved requests -/

/-- The members of the chat that a call stores. -/
def SqlCall.storesChat : SqlCall → Option (Nat × Nat)
  | step (.insertChat a b) => some (a, b)
  | _ => none

/-- There is no chat of `b` and `a` when one of `a` and `b` is stored. -/
def NoneReversed (db : Db) (call : SqlCall) : Prop :=
  ∀ x ∈ call.storesChat, ∀ r ∈ db.chats, ¬ (r.member1 = x.2 ∧ r.member2 = x.1)

instance (db : Db) (call : SqlCall) : Decidable (NoneReversed db call) :=
  inferInstanceAs (Decidable (∀ x ∈ call.storesChat, ∀ r ∈ db.chats,
    ¬ (r.member1 = x.2 ∧ r.member2 = x.1)))

/-- The tables, and those that a rollback would bring back. -/
def ChatsKept (c : Conn) : Prop := OneChatPerPair c.db ∧ ∀ db ∈ c.saved, OneChatPerPair db

/-- A statement of these requests, executed. -/
theorem ChatsKept.run {c : Conn} (h : ChatsKept c) {s : Stmt}
    (hs : s = .pragmaForeignKeysOn ∨ s = .begin ∨ s = .commit ∨ s = .rollback ∨
      (∃ c, s = .deleteMessagesOfChat c) ∨ ∃ c, s = .deleteChat c) : ChatsKept (s.run c).1 := by
  obtain ⟨hdb, hsaved⟩ := h
  rcases hs with rfl | rfl | rfl | rfl | ⟨k, rfl⟩ | ⟨k, rfl⟩
  · unfold Stmt.run
    dsimp only
    split
    · exact ⟨hdb, hsaved⟩
    · exact ⟨hdb, hsaved⟩
  · unfold Stmt.run
    dsimp only
    split
    · exact ⟨hdb, hsaved⟩
    · refine ⟨hdb, ?_⟩
      rintro _ ⟨⟩
      exact hdb
  · unfold Stmt.run
    dsimp only
    split
    · exact ⟨hdb, by simp⟩
    · exact ⟨hdb, hsaved⟩
  · -- the tables as they were at the `BEGIN`
    cases hopen : c.saved with
    | none =>
      simp only [Stmt.run, hopen]
      exact ⟨hdb, hsaved⟩
    | some db =>
      simp only [Stmt.run, hopen]
      exact ⟨hsaved db hopen, by simp⟩
  · exact ⟨hdb.sublist (List.Sublist.refl _), hsaved⟩
  · refine ⟨hdb.sublist ?_, hsaved⟩
    show (c.db.deleteChats c.fk (·.id = k)).chats.Sublist c.db.chats
    unfold Db.deleteChats
    dsimp only
    split
    · exact List.filter_sublist
    · exact List.filter_sublist

/-- The insert. `UNIQUE` covers one order, the condition the other one. -/
theorem ChatsKept.insert {c : Conn} (h : ChatsKept c) {a b : Nat} (hne : a ≠ b)
    (hcond : ∀ r ∈ c.db.chats, ¬ (r.member1 = b ∧ r.member2 = a)) :
    ChatsKept (Stmt.run (.insertChat a b) c).1 := by
  obtain ⟨hdb, hsaved⟩ := h
  have hins : Stmt.effect (.insertChat a b) = .writes .insert := rfl
  rcases Stmt.run_of_writes hins c with ⟨x, happly, hrun⟩ | ⟨-, hrun⟩
  · rw [hrun]
    refine ⟨?_, hsaved⟩
    have happly : c.db.insertChat c.fk a b = some x := happly
    cases Db.insertRow_eq_some happly
    obtain ⟨hvalid, -⟩ := Db.insertRow_inv happly
    obtain ⟨hunique, -⟩ := (Bool.and_eq_true _ _).mp hvalid
    refine hdb.snoc rfl hne fun r hr hpair => ?_
    rcases Sym2.eq_iff.mp hpair with ⟨h1, h2⟩ | ⟨h1, h2⟩
    · have hother : ∀ r ∈ c.db.chats, r.member1 = a → r.member2 ≠ b := by simpa using hunique
      exact hother r hr h1 h2
    · exact hcond r hr ⟨h1, h2⟩
  · rw [hrun]
    exact ⟨hdb, hsaved⟩

/-- What one call can do to the chats. -/
theorem ChatsKept.step {c c' : Conn} {call : SqlCall} {r : Reply} (h : ChatsKept c)
    (hcall : call.OnChats) (hcond : NoneReversed c.db call) (hanswers : Answers c call c' r) :
    ChatsKept c' := by
  obtain ⟨hmodel, hmixed⟩ := hcall.plain
  cases hanswers.outcome hmodel with
  | @ran _ s _ hstmt _ =>
    rcases SqlCall.eq_of_stmt hstmt with rfl | rfl
    · exact h.run hcall
    · obtain ⟨a, b, rfl, hne⟩ := hcall
      exact h.insert hne (hcond (a, b) rfl)
  | failed _ _ _ => exact h
  | began fk => exact hcall.elim
  | notBegan fk => exact hcall.elim
  | passive _ _ => exact h
  | mixed heffect => exact absurd heffect hmixed

/-- The handlers of some requests. -/
def handlers {ι : Type} (env : ι → Env) (req : ι → Request) (i : ι) : SqlProg Handled :=
  handleReq (env i) (some (req i))

/-- The requests are handled at the same time: their calls come in any order. -/
abbrev HandledTogether {ι : Type} [DecidableEq ι] (env : ι → Env) (req : ι → Request) (c₀ : Conn) :
    List (Entry ι SqlCall Reply Conn) → Conn → Prop :=
  Interleaved Answers (handlers env req) c₀

/-- No two users ever have two chats, as long as no chat is stored while there is one
    the other way round. -/
theorem one_chat_per_pair {ι : Type} [DecidableEq ι] {env : ι → Env} {req : ι → Request}
    {c₀ c : Conn} {log : List (Entry ι SqlCall Reply Conn)} (hreq : ∀ i, (req i).IsOnChats)
    (hstart : OneChatPerPair c₀.db) (hidle : c₀.saved = none) (h : HandledTogether env req c₀ log c)
    (hcond : ∀ e ∈ log, NoneReversed e.pre.db e.call) : OneChatPerPair c.db := by
  have hkept : ChatsKept c := by
    induction h with
    | start => exact ⟨hstart, by simp [hidle]⟩
    | @step log s s' i call r hprev hissue hcall ih =>
      have hconforms : Conforms (chatsProtocol _) () (handlers env req i) :=
        conforms_chats (hreq i)
      have hallowed : call.OnChats := (hconforms.interleaved hprev).allowed hissue
      have hbefore := ih fun e he => hcond e (List.mem_append_left _ he)
      exact hbefore.step hallowed (hcond ⟨i, call, r, s, s'⟩ (by simp)) hcall
  exact hkept.1

/-- Users 1, 2 and 3, of whom 2 and 3 have a chat. -/
def pairsDb : Db where
  users := [⟨1, default, default, default, default⟩, ⟨2, default, default, default, default⟩,
    ⟨3, default, default, default, default⟩]
  chats := [⟨1, 2, 3⟩]

def openedBy1 : Request := requestBy 1 3 0 (.chat { userId2 := 2 })

def openedBy2 : Request := requestBy 2 3 0 (.chat { userId2 := 1 })

def droppedBy3 : Request := requestBy 3 3 1 (.chat { chatId := 1 })

/-- User 1 opens a chat with user 2 while user 3 drops theirs. -/
theorem one_chat_per_pair_drop :
    ∃ (log : List (Entry Bool SqlCall Reply Conn)) (c : Conn),
      HandledTogether (fun _ => lobbyEnv) (fun i => if i then openedBy1 else droppedBy3)
        { db := pairsDb } log c ∧
      c.db.chats = [⟨2, 1, 2⟩] ∧ OneChatPerPair c.db := by
  have hplay : (Prog.play serve (handlers (fun _ : Bool => lobbyEnv)
      fun i => if i then openedBy1 else droppedBy3) [] { db := pairsDb }
      [false, true, false, true, false, true, true, true, true, false, false, false]).any
      (fun x => decide (x.2.db.chats = [⟨2, 1, 2⟩] ∧
        ∀ e ∈ x.1, NoneReversed e.pre.db e.call)) = true := by
    decide +kernel
  obtain ⟨⟨log, c⟩, hrun, hfacts⟩ := (Option.any_eq_true _ _).mp hplay
  obtain ⟨hchats, hcond⟩ := of_decide_eq_true hfacts
  have hlog := interleaved_of_play answers_of_serve .start hrun
  refine ⟨log, c, hlog, hchats, one_chat_per_pair ?_ ?_ rfl hlog hcond⟩
  · intro i
    cases i with
    | false => exact Or.inr ⟨_, rfl⟩
    | true => exact Or.inl ⟨_, rfl⟩
  · exact ⟨fun a b => List.length_filter_le _ _, by decide⟩

/-- User 1 opens a chat with user 2, and user 2 one with user 1. -/
theorem reversed_chat_stored :
    ∃ (log : List (Entry Bool SqlCall Reply Conn)) (c : Conn),
      HandledTogether (fun _ => lobbyEnv) (fun i => if i then openedBy1 else openedBy2)
        { db := { pairsDb with chats := [] } } log c ∧
      ¬ OneChatPerPair c.db := by
  have hplay : (Prog.play serve (handlers (fun _ : Bool => lobbyEnv)
      fun i => if i then openedBy1 else openedBy2) [] { db := { pairsDb with chats := [] } }
      [true, true, true, true, true, true, false, false, false, false, false, false]).any
      (fun x => decide (x.2.db.chats = [⟨1, 1, 2⟩, ⟨2, 2, 1⟩])) = true := by
    decide +kernel
  obtain ⟨⟨log, c⟩, hrun, hchats⟩ := (Option.any_eq_true _ _).mp hplay
  refine ⟨log, c, interleaved_of_play answers_of_serve .start hrun, fun h => ?_⟩
  have htwo := h.unique 1 2
  rw [of_decide_eq_true hchats] at htwo
  exact absurd htwo (by decide)

end MeshChat
