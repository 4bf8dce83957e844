import MeshChat.Db.Locks

/-! # What calls do to the connection

    What a statement does to rows, and what a call can do to the tables, to the
    transaction, to the last rowid and to the mutex. The results about
    concurrent operations only use these facts about a call.

    * `Effect`: what a call is for; `Stmt.run_effect`: that is what it does.
    * `Answers.outcome`: all a call can do, failures included. From it follow
      `Answers.effect` (the tables and the transaction), `Answers.inserted` and
      `Answers.lastRowid` (new rows and their rowids).
    * `Answers.held`: the mutex.
-/

namespace MeshChat

open CMemory Prog

/-! ## Effects of calls -/

/-- What a statement does to rows. -/
inductive WriteKind where
  | insert
  | delete
  | update
  deriving DecidableEq

/-- What a call does to the connection; `mixed` is left open. -/
inductive Effect where
  | neutral
  | opens
  | commits
  | rollsBack
  | writes (k : WriteKind)
  | mixed
  deriving DecidableEq

def Stmt.effect : Stmt → Effect
  | begin => .opens
  | commit => .commits
  | rollback => .rollsBack
  | insertUser .. | insertConversation .. | insertMemberOfLast .. | insertMember ..
  | insertChat .. | insertMessage .. => .writes .insert
  | deleteUser .. | deleteMember .. | deleteMembersOf .. | deleteConversation .. | deleteChat ..
  | deleteMessagesOfConv .. | deleteMessagesOfChat .. | deleteMessage .. => .writes .delete
  | setMessageType .. | clearMessage .. => .writes .update
  | pragmaForeignKeysOn | malformed | raw => .neutral

def SqlCall.effect : SqlCall → Effect
  | exec [s] => s.effect
  | exec [.pragmaForeignKeysOn, .begin] => .opens
  | exec _ => .mixed
  | step s => s.effect
  | _ => .neutral

theorem SqlCall.IsRead.effect {c : SqlCall} (h : c.IsRead) : c.effect = .neutral := by
  cases c with
  | calloc => rfl
  | prepareQuery q => rfl
  | fetch q i => rfl
  | _ => cases h

@[simp] theorem Stmt.effect_commit : Stmt.commit.effect = .commits := rfl

@[simp] theorem Stmt.effect_rollback : Stmt.rollback.effect = .rollsBack := rfl

@[simp] theorem Stmt.effect_pragma : Stmt.pragmaForeignKeysOn.effect = .neutral := rfl

@[simp] theorem Stmt.effect_insertMemberOfLast (u : Nat) :
    (Stmt.insertMemberOfLast u).effect = .writes .insert := rfl

/-- The connection before and after a call with this effect. Any call may also
    fail; only the rollback of an open transaction never does. -/
def Effect.Allows (c c' : Conn) : Effect → Prop
  | neutral => c'.db = c.db ∧ c'.saved = c.saved
  | opens => c'.db = c.db ∧ (c'.saved = c.saved ∨ c.saved = none ∧ c'.saved = some c.db)
  | commits => c'.db = c.db ∧ (c'.saved = c.saved ∨ c'.saved = none)
  | rollsBack => c'.db = c.saved.getD c.db ∧ c'.saved = none
  | writes k =>
    c'.saved = c.saved ∧ (k = .insert → ∀ row, c.db.Has row → c'.db.Has row) ∧
      (k = .delete → ∀ row, c'.db.Has row → c.db.Has row)
  | mixed => True

/-- A call without effect. -/
theorem Effect.allows_self {e : Effect} {c : Conn} (h : e = .rollsBack → c.saved = none) :
    e.Allows c c := by
  cases e with
  | neutral => exact ⟨rfl, rfl⟩
  | opens => exact ⟨rfl, Or.inl rfl⟩
  | commits => exact ⟨rfl, Or.inl rfl⟩
  | rollsBack =>
    have hsaved := h rfl
    exact ⟨by rw [hsaved]; rfl, hsaved⟩
  | writes k => exact ⟨rfl, fun _ _ hrow => hrow, fun _ _ hrow => hrow⟩
  | mixed => trivial

/-! ### Rows under a statement -/

/-- Every row of `db` is in `db'`. -/
def Db.Within (db db' : Db) : Prop := ∀ row, db.Has row → db'.Has row

theorem Db.Within.trans {a b c : Db} (h : a.Within b) (h' : b.Within c) : a.Within c :=
  fun row hrow => h' row (h row hrow)

theorem Db.insertRow_eq_some {valid : Bool} {rowid : Nat} {db : Db} {x : Db × Option Nat}
    (h : Db.insertRow valid rowid db = some x) : x = (db, some rowid) := by
  unfold Db.insertRow at h
  split at h
  · exact (Option.some.inj h).symm
  · cases h

theorem removeMessages_subset {fk : Bool} {p : MsgRow → Bool} {ms : List MsgRow} {m : MsgRow}
    (h : m ∈ removeMessages fk p ms) : m ∈ ms := by
  unfold removeMessages at h
  split at h
  · exact List.mem_of_mem_filter h
  · exact List.mem_of_mem_filter h

theorem Db.deleteMessages_within (fk : Bool) (p : MsgRow → Bool) (db : Db) :
    (db.deleteMessages fk p).Within db := by
  intro row hrow
  cases row with
  | msg m => exact removeMessages_subset hrow
  | _ => exact hrow

theorem Db.deleteMembers_within (p : MemberRow → Bool) (db : Db) :
    (db.deleteMembers p).Within db := by
  intro row hrow
  cases row with
  | member m => exact List.mem_of_mem_filter hrow
  | _ => exact hrow

theorem Db.filterConversations_within (p : ConvRow → Bool) (db : Db) :
    Db.Within { db with conversations := db.conversations.filter p } db := by
  intro row hrow
  cases row with
  | conv c => exact List.mem_of_mem_filter hrow
  | _ => exact hrow

theorem Db.filterChats_within (p : ChatRow → Bool) (db : Db) :
    Db.Within { db with chats := db.chats.filter p } db := by
  intro row hrow
  cases row with
  | chat c => exact List.mem_of_mem_filter hrow
  | _ => exact hrow

theorem Db.filterUsers_within (p : UserRow → Bool) (db : Db) :
    Db.Within { db with users := db.users.filter p } db := by
  intro row hrow
  cases row with
  | user u => exact List.mem_of_mem_filter hrow
  | _ => exact hrow

theorem Db.deleteConversations_within (fk : Bool) (p : ConvRow → Bool) (db : Db) :
    (db.deleteConversations fk p).Within db := by
  unfold Db.deleteConversations
  dsimp only
  split
  · exact ((deleteMessages_within _ _ _).trans (deleteMembers_within _ _)).trans
      (filterConversations_within _ db)
  · exact filterConversations_within _ db

theorem Db.deleteChats_within (fk : Bool) (p : ChatRow → Bool) (db : Db) :
    (db.deleteChats fk p).Within db := by
  unfold Db.deleteChats
  dsimp only
  split
  · exact (deleteMessages_within _ _ _).trans (filterChats_within _ db)
  · exact filterChats_within _ db

theorem Db.deleteUser_within {fk : Bool} {id : Nat} {db db' : Db}
    (h : db.deleteUser fk id = some db') : db'.Within db := by
  unfold Db.deleteUser at h
  split at h
  · dsimp only at h
    split at h
    · cases h
    · cases h
      exact (((filterUsers_within _ _).trans (deleteMembers_within _ _)).trans
        (deleteConversations_within _ _ _)).trans (deleteChats_within _ _ db)
  · cases h
    exact filterUsers_within _ db

/-- The row an insert adds, when its rowid is `id` and the last rowid was
    `last`. -/
def Stmt.newRow (last id : Nat) : Stmt → Option Row
  | insertUser u p h e => some (.user ⟨id, u, p, h, e⟩)
  | insertConversation a n => some (.conv ⟨id, a, n⟩)
  | insertMemberOfLast u => some (.member ⟨id, last, u⟩)
  | insertMember c u => some (.member ⟨id, c, u⟩)
  | insertChat a b => some (.chat ⟨id, a, b⟩)
  | insertMessage m =>
    some (.msg { id, fromUid := m.fromUid, replyTo := m.replyTo, contentType := m.contentType,
                 contentLength := m.contentLength, content := m.content, createdAt := m.createdAt,
                 chatId := m.chatId, convId := m.convId, type := .sent })
  | _ => none

/-- `db'` is `db` with one more row. -/
structure Db.Added (db db' : Db) (row : Row) : Prop where
  fresh : ¬ db.Has row
  has : ∀ row', db'.Has row' ↔ db.Has row' ∨ row' = row

/-- A row with the next rowid is new. -/
theorem not_mem_of_rowid {α : Type} {l : List α} (f : α → Nat) {a : α}
    (h : f a = nextId (l.map f)) : a ∉ l := by
  intro ha
  have hlt : f a < nextId (l.map f) := lt_nextId (List.mem_map_of_mem ha)
  omega

namespace Db

variable {db : Db}

theorem added_user {r : UserRow} (h : r.id = nextId (db.users.map (·.id))) :
    db.Added { db with users := db.users ++ [r] } (.user r) :=
  ⟨not_mem_of_rowid _ h, fun row => by cases row <;> simp [Has]⟩

theorem added_chat {r : ChatRow} (h : r.id = nextId (db.chats.map (·.id))) :
    db.Added { db with chats := db.chats ++ [r] } (.chat r) :=
  ⟨not_mem_of_rowid _ h, fun row => by cases row <;> simp [Has]⟩

theorem added_conv {r : ConvRow} (h : r.id = nextId (db.conversations.map (·.id))) :
    db.Added { db with conversations := db.conversations ++ [r] } (.conv r) :=
  ⟨not_mem_of_rowid _ h, fun row => by cases row <;> simp [Has]⟩

theorem added_member {r : MemberRow} (h : r.rowid = nextId (db.members.map (·.rowid))) :
    db.Added { db with members := db.members ++ [r] } (.member r) :=
  ⟨not_mem_of_rowid _ h, fun row => by cases row <;> simp [Has]⟩

theorem added_msg {r : MsgRow} (h : r.id = nextId (db.messages.map (·.id))) :
    db.Added { db with messages := db.messages ++ [r] } (.msg r) :=
  ⟨not_mem_of_rowid _ h, fun row => by cases row <;> simp [Has]⟩

end Db

/-- An insert adds one row, to which it gives a new rowid. -/
theorem Stmt.apply_insert {s : Stmt} {fk : Bool} {last : Nat} {db : Db} {x : Db × Option Nat}
    (hs : s.effect = .writes .insert) (h : s.apply fk last db = some x) :
    ∃ row, s.newRow last row.rowid = some row ∧ x.2 = some row.rowid ∧ db.Added x.1 row := by
  cases s with
  | insertUser u p h' e =>
    cases Db.insertRow_eq_some h
    exact ⟨_, rfl, rfl, Db.added_user rfl⟩
  | insertConversation a n =>
    cases Db.insertRow_eq_some h
    exact ⟨_, rfl, rfl, Db.added_conv rfl⟩
  | insertMemberOfLast u =>
    cases Db.insertRow_eq_some h
    exact ⟨_, rfl, rfl, Db.added_member rfl⟩
  | insertMember c u =>
    cases Db.insertRow_eq_some h
    exact ⟨_, rfl, rfl, Db.added_member rfl⟩
  | insertChat a b =>
    cases Db.insertRow_eq_some h
    exact ⟨_, rfl, rfl, Db.added_chat rfl⟩
  | insertMessage m =>
    cases Db.insertRow_eq_some h
    exact ⟨_, rfl, rfl, Db.added_msg rfl⟩
  | _ => cases hs

/-- Any other statement gives no rowid. -/
theorem Stmt.apply_rowid {s : Stmt} {fk : Bool} {last : Nat} {db : Db} {x : Db × Option Nat}
    (hs : s.effect ≠ .writes .insert) (h : s.apply fk last db = some x) : x.2 = none := by
  cases s with
  | insertUser u p h' e => exact absurd rfl hs
  | insertConversation a n => exact absurd rfl hs
  | insertMemberOfLast u => exact absurd rfl hs
  | insertMember c u => exact absurd rfl hs
  | insertChat a b => exact absurd rfl hs
  | insertMessage m => exact absurd rfl hs
  | deleteUser id =>
    obtain ⟨db', -, rfl⟩ := Option.map_eq_some_iff.mp h
    rfl
  | _ => cases h; rfl

/-- A delete adds no row. -/
theorem Stmt.apply_delete_within {s : Stmt} {fk : Bool} {last : Nat} {db : Db}
    {x : Db × Option Nat} (hs : s.effect = .writes .delete) (h : s.apply fk last db = some x) :
    x.1.Within db := by
  cases s with
  | deleteUser id =>
    obtain ⟨db', hdb', rfl⟩ := Option.map_eq_some_iff.mp h
    exact Db.deleteUser_within hdb'
  | deleteMember c u => cases h; exact Db.deleteMembers_within _ db
  | deleteMembersOf c => cases h; exact Db.deleteMembers_within _ db
  | deleteConversation c => cases h; exact Db.deleteConversations_within _ _ db
  | deleteChat c => cases h; exact Db.deleteChats_within _ _ db
  | deleteMessagesOfConv c => cases h; exact Db.deleteMessages_within _ _ db
  | deleteMessagesOfChat c => cases h; exact Db.deleteMessages_within _ _ db
  | deleteMessage id => cases h; exact Db.deleteMessages_within _ _ db
  | _ => cases hs

/-- A statement that writes changes the tables as `apply` says, or nothing. -/
theorem Stmt.run_of_writes {s : Stmt} {k : WriteKind} (hs : s.effect = .writes k) (c : Conn) :
    (∃ x, s.apply c.fk c.lastRowid c.db = some x ∧
      s.run c = ({ c with db := x.1, lastRowid := x.2.getD c.lastRowid }, .ok)) ∨
    s.apply c.fk c.lastRowid c.db = none ∧ s.run c = (c, .constraint) := by
  -- `apply` decides for every statement that writes
  cases happly : s.apply c.fk c.lastRowid c.db with
  | none =>
    refine Or.inr ⟨rfl, ?_⟩
    cases s <;> first | (simp only [Stmt.run, happly]; done) | cases hs
  | some x =>
    refine Or.inl ⟨x, rfl, ?_⟩
    cases s <;> first | (simp only [Stmt.run, happly]; done) | cases hs

theorem Stmt.run_effect (s : Stmt) (c : Conn) : s.effect.Allows c (s.run c).1 := by
  -- a writing statement by what `apply` does, each other one by itself
  cases heffect : s.effect with
  | writes k =>
    rcases Stmt.run_of_writes heffect c with ⟨x, happly, hrun⟩ | ⟨-, hrun⟩
    · rw [hrun]
      refine ⟨rfl, ?_, ?_⟩
      · rintro rfl
        obtain ⟨row, -, -, hadded⟩ := Stmt.apply_insert heffect happly
        exact fun row' hrow => (hadded.has row').mpr (Or.inl hrow)
      · rintro rfl
        exact Stmt.apply_delete_within heffect happly
    · rw [hrun]
      exact Effect.allows_self (by simp)
  | _ =>
    cases s <;> try cases heffect
    all_goals
      simp only [Stmt.run, Effect.Allows]
      try split
      all_goals simp_all

theorem Stmt.run_ne_done (s : Stmt) (c : Conn) : (s.run c).2 ≠ .done := by
  unfold Stmt.run
  split
  all_goals
    try split
    all_goals simp

theorem Stmt.effect_eq_rollsBack {s : Stmt} (h : s.effect = .rollsBack) : s = .rollback := by
  cases s <;> first | rfl | cases h

theorem execAll_singleton (s : Stmt) (c : Conn) : execAll [s] c = s.run c := by
  unfold execAll
  generalize s.run c = x
  obtain ⟨c', rc⟩ := x
  cases rc <;> rfl

/-- `PRAGMA foreign_keys=ON` touches neither the tables nor the transaction. -/
theorem execAll_pragma (ss : List Stmt) (c : Conn) :
    ∃ fk, execAll (.pragmaForeignKeysOn :: ss) c = execAll ss { c with fk } := by
  by_cases hopen : c.saved.isSome = true
  · exact ⟨c.fk, by simp [execAll, Stmt.run, hopen]⟩
  · exact ⟨true, by simp [execAll, Stmt.run, hopen]⟩

/-- The texts with an effect of their own. -/
theorem SqlCall.exec_cases (stmts : List Stmt) :
    (∃ s, stmts = [s]) ∨ stmts = [.pragmaForeignKeysOn, .begin] ∨
      (exec stmts).effect = .mixed := by
  unfold SqlCall.effect
  split <;> simp_all

/-! ## What a call can do -/

/-- What tells a call that it was successful: `sqlite3_step` returns
    `SQLITE_DONE`. -/
def SqlCall.succeeds (call : SqlCall) (r : Reply) : Bool :=
  match call with
  | step _ => r.rc = .done
  | _ => r.rc = .ok

theorem Rc.IsFailure.not_succeeds {rc : Rc} (h : rc.IsFailure) (call : SqlCall) :
    call.succeeds { rc } = false := by
  cases call <;> simp [SqlCall.succeeds, h.1, h.2.2.1]

/-- The statement of a call that executes one. -/
def SqlCall.stmt : SqlCall → Option Stmt
  | exec [s] => some s
  | step s => some s
  | _ => none

theorem SqlCall.effect_of_stmt {call : SqlCall} {s : Stmt} (h : call.stmt = some s) :
    call.effect = s.effect := by
  unfold SqlCall.stmt at h
  split at h <;> cases h <;> rfl

theorem SqlCall.eq_of_stmt {call : SqlCall} {s : Stmt} (h : call.stmt = some s) :
    call = .exec [s] ∨ call = .step s := by
  unfold SqlCall.stmt at h
  split at h
  · cases h
    exact Or.inl rfl
  · cases h
    exact Or.inr rfl
  · cases h

/-- What a call whose text is an instance of its template can do. A single
    statement is run or fails without effect; `PRAGMA foreign_keys=ON; BEGIN` may
    stop between the two; all calls but these only touch the mutex. -/
inductive Outcome (c : Conn) : SqlCall → Conn → Reply → Prop
  | ran {call : SqlCall} {s : Stmt} {r : Reply} (hstmt : call.stmt = some s)
      (hr : call.succeeds r = decide ((s.run c).2 = .ok)) : Outcome c call (s.run c).1 r
  | failed {call : SqlCall} {s : Stmt} {r : Reply} (hstmt : call.stmt = some s)
      (hrollback : s = .rollback → c.saved = none) (hr : call.succeeds r = false) :
      Outcome c call c r
  | began {r : Reply} (fk : Bool) :
      Outcome c (.exec [.pragmaForeignKeysOn, .begin]) (Stmt.run .begin { c with fk }).1 r
  | notBegan {r : Reply} (fk : Bool) :
      Outcome c (.exec [.pragmaForeignKeysOn, .begin]) { c with fk } r
  | passive {call : SqlCall} {r : Reply} (heffect : call.effect = .neutral)
      (hstmt : call.stmt = none) : Outcome c call { c with held := lockStep c.held call } r
  | mixed {call : SqlCall} {c' : Conn} {r : Reply} (heffect : call.effect = .mixed) :
      Outcome c call c' r

theorem outcome_served {c c' : Conn} {call : SqlCall} {r : Reply}
    (h : answer c call = some (c', r)) : Outcome c call c' r := by
  cases call with
  | exec stmts =>
    cases h
    -- all texts of `sql.c` are one statement, or the `PRAGMA` with `BEGIN`
    obtain ⟨s, rfl⟩ | rfl | hmixed := SqlCall.exec_cases stmts
    · rw [execAll_singleton]
      exact .ran rfl rfl
    · obtain ⟨fk, hpragma⟩ := execAll_pragma [.begin] c
      rw [hpragma, execAll_singleton]
      exact .began fk
    · exact .mixed hmixed
  | step s =>
    cases h
    refine .ran rfl ?_
    by_cases hok : (s.run c).2 = .ok
    · simp [SqlCall.succeeds, hok]
    · simp [SqlCall.succeeds, hok, s.run_ne_done c]
  | fetch q i =>
    simp only [answer] at h
    split at h <;> cases h <;> exact .passive rfl rfl
  | lock =>
    simp only [answer] at h
    split at h
    · cases h
    · cases h; exact .passive rfl rfl
  | calloc => cases h; exact .passive rfl rfl
  | prepare s => cases h; exact .passive rfl rfl
  | prepareQuery q => cases h; exact .passive rfl rfl
  | lastInsertRowid => cases h; exact .passive rfl rfl
  | unlock => cases h; exact .passive rfl rfl

theorem Answers.outcome {c c' : Conn} {call : SqlCall} {r : Reply} (h : Answers c call c' r)
    (hmodel : call.Modelled) : Outcome c call c' r := by
  cases h with
  | served _ h => exact outcome_served h
  | @execFault stmts rc k _ hk _ hrollback hrc =>
    obtain ⟨s, rfl⟩ | rfl | hmixed := SqlCall.exec_cases stmts
    · obtain rfl : k = 0 := by simpa using hk
      exact .failed rfl hrollback (hrc.not_succeeds _)
    · -- the `PRAGMA` fails, or `BEGIN` behind it
      obtain rfl | rfl : k = 0 ∨ k = 1 := by simp at hk; omega
      · exact .notBegan c.fk
      · obtain ⟨fk, hpragma⟩ := execAll_pragma [] c
        simp only [List.take_succ_cons, List.take_zero, hpragma]
        exact .notBegan fk
    · exact .mixed hmixed
  | stepFault _ hrollback hrc => exact .failed rfl hrollback (hrc.not_succeeds _)
  | callocFault => exact .passive rfl rfl
  | prepareFault _ => exact .passive rfl rfl
  | queryFault _ => exact .passive rfl rfl
  | fetchFault _ => exact .passive rfl rfl
  | foreign hforeign => exact absurd hmodel hforeign

/-- The tables and the transaction. -/
theorem Answers.effect {c c' : Conn} {call : SqlCall} {r : Reply} (h : Answers c call c' r)
    (hmodel : call.Modelled) : call.effect.Allows c c' := by
  cases h.outcome hmodel with
  | @ran _ s _ hstmt _ =>
    rw [SqlCall.effect_of_stmt hstmt]
    exact s.run_effect c
  | failed hstmt hrollback _ =>
    rw [SqlCall.effect_of_stmt hstmt]
    exact Effect.allows_self fun hs => hrollback (Stmt.effect_eq_rollsBack hs)
  | began fk => exact Stmt.run_effect .begin { c with fk }
  | notBegan fk => exact ⟨rfl, Or.inl rfl⟩
  | passive heffect _ =>
    rw [heffect]
    exact ⟨rfl, rfl⟩
  | mixed heffect =>
    rw [heffect]
    trivial

/-- A statement that did not succeed is not reported as `SQLITE_OK`. -/
theorem Answers.rc_ne_ok {c c' : Conn} {call : SqlCall} {r : Reply} (h : Answers c call c' r)
    (hmodel : call.Modelled) (hr : call.succeeds r = false) : r.rc ≠ .ok := by
  cases call with
  | step s =>
    cases h with
    | served _ h =>
      cases h
      dsimp only
      split
      · simp
      · assumption
    | stepFault _ _ hrc => exact hrc.1
    | foreign hforeign => exact absurd hmodel hforeign
  | _ => exact of_decide_eq_false hr

/-! ### Rowids -/

/-- A successful insert adds its row, whose rowid becomes the last one. -/
theorem Answers.inserted {c c' : Conn} {call : SqlCall} {r : Reply} (h : Answers c call c' r)
    (hmodel : call.Modelled) (heffect : call.effect = .writes .insert)
    (hr : call.succeeds r = true) :
    ∃ s row, call.stmt = some s ∧ s.newRow c.lastRowid row.rowid = some row ∧
      c'.lastRowid = row.rowid ∧ c.db.Added c'.db row := by
  cases h.outcome hmodel with
  | @ran _ s _ hstmt hsuccess =>
    have hs : s.effect = .writes .insert := by rw [← SqlCall.effect_of_stmt hstmt, heffect]
    rcases Stmt.run_of_writes hs c with ⟨x, happly, hrun⟩ | ⟨-, hrun⟩
    · obtain ⟨row, hrow, hrowid, hadded⟩ := Stmt.apply_insert hs happly
      rw [hrun, hrowid]
      exact ⟨s, row, hstmt, hrow, rfl, hadded⟩
    · rw [hr, hrun] at hsuccess
      cases hsuccess
  | failed _ _ hfail => cases hr.symm.trans hfail
  | began fk => cases heffect
  | notBegan fk => cases heffect
  | passive hneutral _ => cases heffect.symm.trans hneutral
  | mixed hmixed => cases heffect.symm.trans hmixed

theorem Stmt.run_lastRowid {s : Stmt} {c : Conn}
    (h : s.effect = .writes .insert → (s.run c).2 ≠ .ok) :
    (s.run c).1.lastRowid = c.lastRowid := by
  by_cases hw : ∃ k, s.effect = .writes k
  · obtain ⟨k, hk⟩ := hw
    rcases Stmt.run_of_writes hk c with ⟨x, happly, hrun⟩ | ⟨-, hrun⟩
    · have hnot : s.effect ≠ .writes .insert := fun hi => h hi (by rw [hrun])
      rw [hrun, Stmt.apply_rowid hnot happly]
      rfl
    · rw [hrun]
  · cases s <;> first | exact absurd ⟨_, rfl⟩ hw | skip
    all_goals
      simp only [Stmt.run]
      try split
      all_goals rfl

/-- An insert that is refused changes nothing. -/
theorem Answers.refused {c c' : Conn} {call : SqlCall} {r : Reply} (h : Answers c call c' r)
    (hmodel : call.Modelled) (heffect : call.effect = .writes .insert)
    (hr : call.succeeds r = false) : c' = c := by
  cases h.outcome hmodel with
  | @ran _ s _ hstmt hsuccess =>
    have hs : s.effect = .writes .insert := by rw [← SqlCall.effect_of_stmt hstmt, heffect]
    rcases Stmt.run_of_writes hs c with ⟨x, -, hrun⟩ | ⟨-, hrun⟩
    · rw [hr, hrun] at hsuccess
      cases hsuccess
    · rw [hrun]
  | failed _ _ _ => rfl
  | began fk => cases heffect
  | notBegan fk => cases heffect
  | passive hneutral _ => cases heffect.symm.trans hneutral
  | mixed hmixed => cases heffect.symm.trans hmixed

/-- The row that an insert added is the one its statement says. -/
theorem Answers.added {c c' : Conn} {call : SqlCall} {r : Reply} (h : Answers c call c' r)
    (hmodel : call.Modelled) (heffect : call.effect = .writes .insert) {row : Row}
    (hadded : c.db.Added c'.db row) :
    ∃ s, call.stmt = some s ∧ s.newRow c.lastRowid row.rowid = some row := by
  by_cases hr : call.succeeds r = true
  · obtain ⟨s, row', hstmt, hrow, -, hadded'⟩ := h.inserted hmodel heffect hr
    have hsame : row = row' := by
      have hin : c'.db.Has row := (hadded.has row).mpr (Or.inr rfl)
      exact ((hadded'.has row).mp hin).resolve_left hadded.fresh
    subst hsame
    exact ⟨s, hstmt, hrow⟩
  · have hsame := h.refused hmodel heffect (Bool.eq_false_of_not_eq_true hr)
    have hin : c'.db.Has row := (hadded.has row).mpr (Or.inr rfl)
    rw [hsame] at hin
    exact absurd hin hadded.fresh

/-- Any other call leaves the last rowid alone. -/
theorem Answers.lastRowid {c c' : Conn} {call : SqlCall} {r : Reply} (h : Answers c call c' r)
    (hmodel : call.Modelled) (hmixed : call.effect ≠ .mixed)
    (hnot : call.effect = .writes .insert → call.succeeds r = false) :
    c'.lastRowid = c.lastRowid := by
  cases h.outcome hmodel with
  | ran hstmt hsuccess =>
    rw [SqlCall.effect_of_stmt hstmt, hsuccess] at hnot
    exact Stmt.run_lastRowid fun hs => of_decide_eq_false (hnot hs)
  | failed _ _ _ => rfl
  | began fk => exact Stmt.run_lastRowid (s := .begin) (c := { c with fk }) (by simp [Stmt.effect])
  | notBegan fk => rfl
  | passive _ _ => rfl
  | mixed hmixed' => exact absurd hmixed' hmixed

/-! ### The mutex -/

theorem Stmt.run_held (s : Stmt) (c : Conn) : (s.run c).1.held = c.held := by
  unfold Stmt.run
  split
  all_goals
    try split
    all_goals rfl

theorem execAll_held (stmts : List Stmt) (c : Conn) : (execAll stmts c).1.held = c.held := by
  induction stmts generalizing c with
  | nil => rfl
  | cons s ss ih =>
    have hrun := s.run_held c
    unfold execAll
    split
    · rename_i c' heq
      rw [heq] at hrun
      exact (ih c').trans hrun
    · rename_i c' rc _ heq
      rw [heq] at hrun
      exact hrun

/-- Only lock and unlock change the mutex, and a lock is given only when it is
    free. -/
theorem Answers.held {c c' : Conn} {call : SqlCall} {r : Reply} (h : Answers c call c' r) :
    c'.held = lockStep c.held call ∧ (call = .lock → c.held = false) := by
  cases h with
  | served _ h =>
    cases call with
    | exec stmts =>
      cases h
      exact ⟨execAll_held stmts c, by simp⟩
    | step s =>
      cases h
      exact ⟨s.run_held c, by simp⟩
    | fetch q i =>
      simp only [answer] at h
      split at h <;> cases h <;> exact ⟨rfl, by simp⟩
    | lock =>
      simp only [answer] at h
      split at h
      · cases h
      · cases h
        exact ⟨rfl, fun _ => Bool.eq_false_of_not_eq_true ‹_›⟩
    | calloc => cases h; exact ⟨rfl, by simp⟩
    | prepare s => cases h; exact ⟨rfl, by simp⟩
    | prepareQuery q => cases h; exact ⟨rfl, by simp⟩
    | lastInsertRowid => cases h; exact ⟨rfl, by simp⟩
    | unlock => cases h; exact ⟨rfl, by simp⟩
  | execFault k _ _ _ _ _ => exact ⟨execAll_held _ c, by simp⟩
  | callocFault => exact ⟨rfl, by simp⟩
  | prepareFault _ => exact ⟨rfl, by simp⟩
  | stepFault _ _ _ => exact ⟨rfl, by simp⟩
  | queryFault _ => exact ⟨rfl, by simp⟩
  | fetchFault _ => exact ⟨rfl, by simp⟩
  | foreign hforeign hheld =>
    cases call with
    | lock => exact absurd trivial hforeign
    | unlock => exact absurd trivial hforeign
    | _ => exact ⟨hheld, by simp⟩

end MeshChat
