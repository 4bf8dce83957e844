import MeshChat.Db.Durability

/-! # Whose row is it

    `last_insert_rowid` belongs to the connection. An operation that inserts a row
    asks for its id while it holds the mutex, but the second insert of
    `conv_create` comes behind its unlock: it uses `last_insert_rowid()` inside
    the statement, and changes it.

    * `Op.conforms_insert`: how an operation inserts its row and learns its id.
    * `MembersUndisturbed`: the second insert of a `conv_create` comes before any
      other operation inserts a row, and not while another one is about to ask for
      its id.
    * `ids_attributed`: then every operation returns the id of its own row, and the
      first member of a conversation is put into that conversation.
    * `foreignIds_not_attributed`: a schedule in which both go wrong.
-/

namespace MeshChat

open CMemory Prog

/-! ## How one operation inserts -/

/-- The statement with which an operation inserts its row. -/
def Op.mainStmt : Op → Option Stmt
  | userCreate u p h e =>
    some ((TextQuery.userCreate u p h e).insertStmt (.insertUser u p h e))
  | convCreate a n => some ((TextQuery.convCreate a n).insertStmt (.insertConversation a.toNat n))
  | convJoin u c => some (.insertMember c.toNat u.toNat)
  | chatCreate a b => some (.insertChat a.toNat b.toNat)
  | msgSend m now => some (msgSendStmt m now)
  | _ => none

/-- `conv_join` does not return the id of its row. -/
def Op.returnsId : Op → Bool
  | userCreate .. | convCreate .. | chatCreate .. | msgSend .. => true
  | _ => false

/-- The row is one that the operation inserts. -/
def Op.Creates (op : Op) (row : Row) : Prop :=
  ∃ s last, op.mainStmt = some s ∧ s.newRow last row.rowid = some row

/-- How far an operation has come with its row. -/
inductive InsertStage where
  | before
  /-- Inserted; the next call asks for its id. -/
  | fresh
  /-- The insert has failed with this code. -/
  | refused (rc : Rc)
  | known (n : Nat)
  /-- `conv_create` has also inserted its member. -/
  | joined (n : Nat)
  deriving DecidableEq

structure InsertPhase where
  held : Bool := false
  stage : InsertStage := .before

/-- The call executes the statement that inserts the operation's row. -/
def Op.IsMain (op : Op) (c : SqlCall) : Prop := op.mainStmt ≠ none ∧ c.stmt = op.mainStmt

instance (op : Op) (c : SqlCall) : Decidable (op.IsMain c) :=
  inferInstanceAs (Decidable (_ ∧ _))

def InsertStage.next (op : Op) (t : InsertStage) (c : SqlCall) (r : Reply) : InsertStage :=
  if op.IsMain c then (if c.succeeds r then .fresh else .refused r.rc)
  else match t, c with
    | .fresh, .lastInsertRowid => .known r.rowid
    | .known n, .exec [.insertMemberOfLast _] => .joined n
    | t, _ => t

/-- An operation inserts its row under the mutex and asks for its id at once;
    the only other row it inserts is the member of `conv_create`. -/
def insertProtocol (op : Op) : Protocol SqlCall Reply OpResult InsertPhase where
  allows t c :=
    (op.IsMain c → t.held = true ∧ t.stage = .before) ∧
    (c.effect = .writes .insert → op.IsMain c ∨
      ∃ a n u k, op = .convCreate a n ∧ c = .exec [.insertMemberOfLast u] ∧ t.stage = .known k) ∧
    (t.stage = .fresh → c = .lastInsertRowid) ∧ (c = .unlock → t.held = true)
  next t c r := { held := lockStep t.held c, stage := t.stage.next op c r }
  done t res :=
    t.stage ≠ .fresh ∧ (res.rc = .ok → op.mainStmt ≠ none → t.stage ≠ .refused .ok →
      ∃ n, (t.stage = .known n ∨ t.stage = .joined n) ∧
        (op.returnsId = true → res.id = UInt32.ofNat n))

/-- An operation without a row of its own makes no insert. -/
theorem Op.conforms_insert_of_none {op : Op} (h : op.mainStmt = none) :
    Conforms (insertProtocol op) {} op.prog := by
  -- queries as a whole, the others one by one
  by_cases hq : op.isQuery = true
  · apply (Op.reads hq).conforms
    · intro c hc
      have hmain : ¬ op.IsMain c := fun hmain => hmain.1 h
      refine ⟨⟨fun h => absurd h hmain, by simp [hc.effect], by simp, ?_⟩, fun r => ?_⟩
      · rintro rfl
        cases hc
      · cases c with
        | calloc => simp [insertProtocol, InsertStage.next, hmain, lockStep]
        | prepareQuery q => simp [insertProtocol, InsertStage.next, hmain, lockStep]
        | fetch q i => simp [insertProtocol, InsertStage.next, hmain, lockStep]
        | _ => cases hc
    · exact fun _ => ⟨by simp, fun _ hmain => absurd h hmain⟩
  cases op with
  | convDrop c =>
    simp [Op.prog, MeshChat.convDrop, commitAfter, rollback, map_eq_bind, insertProtocol,
      Op.IsMain, Op.mainStmt, SqlCall.effect, Stmt.effect, InsertStage.next, lockStep]
  | chatDrop c =>
    simp [Op.prog, MeshChat.chatDrop, commitAfter, rollback, map_eq_bind, insertProtocol,
      Op.IsMain, Op.mainStmt, SqlCall.effect, Stmt.effect, InsertStage.next, lockStep]
  | userDrop id =>
    simp [Op.prog, MeshChat.userDrop, map_eq_bind, insertProtocol,
      Op.IsMain, Op.mainStmt, SqlCall.effect, Stmt.effect, InsertStage.next, lockStep]
  | convQuit u c =>
    simp [Op.prog, MeshChat.convQuit, sqlExec, map_eq_bind, insertProtocol,
      Op.IsMain, Op.mainStmt, SqlCall.effect, Stmt.effect, InsertStage.next, lockStep]
  | msgDelivered m =>
    simp [Op.prog, MeshChat.msgDelivered, sqlExecIgnored, map_eq_bind, insertProtocol,
      Op.IsMain, Op.mainStmt, SqlCall.effect, Stmt.effect, InsertStage.next, lockStep]
  | msgDelete m =>
    simp [Op.prog, MeshChat.msgDelete, sqlExecIgnored, map_eq_bind, insertProtocol,
      Op.IsMain, Op.mainStmt, SqlCall.effect, Stmt.effect, InsertStage.next, lockStep]
  | msgDrop m =>
    simp [Op.prog, MeshChat.msgDrop, sqlExecIgnored, map_eq_bind, insertProtocol,
      Op.IsMain, Op.mainStmt, SqlCall.effect, Stmt.effect, InsertStage.next, lockStep]
  | userCreate u p h' e => cases h
  | convCreate a n => cases h
  | convJoin u c => cases h
  | chatCreate a b => cases h
  | msgSend m t => cases h
  | _ => exact absurd rfl hq

theorem Op.not_isMain {op : Op} {c : SqlCall} (h : c.stmt = none) : ¬ op.IsMain c := by
  rintro ⟨hsome, heq⟩
  exact hsome (heq.symm.trans h)

/-- `sql_insert` as a part of an operation. -/
theorem sqlInsert_conforms_insert {op : Op} {s : Stmt} (hs : op.mainStmt = some s)
    {f : UInt32 × Rc → OpResult} (hf : ∀ x, (f x).rc = x.2)
    (hid : op.returnsId = true → ∀ x, (f x).id = x.1) :
    Conforms (insertProtocol op) {} (f <$> sqlInsert s) := by
  have hmain : op.IsMain (.step s) := ⟨by simp [hs], by simp [hs, SqlCall.stmt]⟩
  have hprepare : ¬ op.IsMain (.prepare s) := Op.not_isMain rfl
  have hlock : ¬ op.IsMain .lock := Op.not_isMain rfl
  have hunlock : ¬ op.IsMain .unlock := Op.not_isMain rfl
  have hrowid : ¬ op.IsMain .lastInsertRowid := Op.not_isMain rfl
  simp only [sqlInsert, map_eq_bind, invoke_bind, call_bind, ite_bind, pure_eq, ret_bind]
  simp +contextual [insertProtocol, InsertStage.next, hmain, hprepare, hlock, hunlock, hrowid,
    lockStep, SqlCall.effect, SqlCall.succeeds, hf, hid]

/-- A row that comes from a statement with client text comes from the one it is
    meant to be. -/
theorem TextQuery.newRow_insertStmt {q : TextQuery} {s : Stmt} {last id : Nat} {row : Row}
    (h : (q.insertStmt s).newRow last id = some row) : s.newRow last id = some row := by
  rcases q.insertStmt_cases s with hs | hs | hs
  · rwa [hs] at h
  · rw [hs] at h
    cases h
  · rw [hs] at h
    cases h

theorem Op.Creates.conv {a : UInt32} {n : CStr} {row : Row}
    (h : (Op.convCreate a n).Creates row) : ∃ conv, row = .conv conv := by
  obtain ⟨s, last, hs, hrow⟩ := h
  rw [← Option.some.inj hs] at hrow
  exact ⟨_, (Option.some.inj (TextQuery.newRow_insertStmt hrow)).symm⟩

theorem Op.Creates.msg {m : MsgSchema} {now : UInt32} {row : Row}
    (h : (Op.msgSend m now).Creates row) : ∃ r, row = .msg r := by
  obtain ⟨s, last, hs, hrow⟩ := h
  rw [← Option.some.inj hs] at hrow
  exact ⟨_, (Option.some.inj (TextQuery.newRow_insertStmt hrow)).symm⟩

theorem Op.mainStmt_cases {op : Op} {s : Stmt} (h : op.mainStmt = some s) :
    s.effect = .writes .insert ∨ s = .malformed ∨ s = .raw := by
  have htext : ∀ (q : TextQuery) (s' : Stmt), s'.effect = .writes .insert → s = q.insertStmt s' →
      s.effect = .writes .insert ∨ s = .malformed ∨ s = .raw := by
    rintro q s' hs' rfl
    rcases q.insertStmt_cases s' with hs | hs | hs
    · exact Or.inl (by rw [hs, hs'])
    · exact Or.inr (Or.inl hs)
    · exact Or.inr (Or.inr hs)
  cases op with
  | userCreate u p h' e => exact htext _ (.insertUser u p h' e) rfl (Option.some.inj h).symm
  | convCreate a n => exact htext _ (.insertConversation a.toNat n) rfl (Option.some.inj h).symm
  | convJoin u c => cases h; exact Or.inl rfl
  | chatCreate a b => cases h; exact Or.inl rfl
  | msgSend m t => exact htext _ (.insertMessage _) rfl (Option.some.inj h).symm
  | _ => cases h

/-- When the operation's own insert succeeds, its row is there. -/
theorem Op.IsMain.inserted {op : Op} {c c' : Conn} {call : SqlCall} {r : Reply}
    (hmain : op.IsMain call) (h : Answers c call c' r) (hmodel : call.Modelled)
    (hr : call.succeeds r = true) :
    call.effect = .writes .insert ∧
      ∃ row, op.Creates row ∧ c'.lastRowid = row.rowid ∧ c.db.Added c'.db row := by
  obtain ⟨s, hs⟩ := Option.ne_none_iff_exists'.mp hmain.1
  have hstmt : call.stmt = some s := hmain.2.trans hs
  have hinsert : s.effect = .writes .insert := by
    rcases Op.mainStmt_cases hs with hinsert | rfl | rfl
    · exact hinsert
    · cases h.outcome hmodel with
      | ran hstmt' hr' =>
        cases hstmt.symm.trans hstmt'
        cases hr.symm.trans hr'
      | failed _ _ hfail => cases hr.symm.trans hfail
      | began fk => cases hstmt
      | notBegan fk => cases hstmt
      | passive _ hnone => cases hstmt.symm.trans hnone
      | mixed hmixed => cases (SqlCall.effect_of_stmt hstmt).symm.trans hmixed
    · rcases SqlCall.eq_of_stmt hstmt with rfl | rfl
      · exact absurd (List.mem_singleton_self _) hmodel
      · exact absurd rfl hmodel
  have heffect : call.effect = .writes .insert := by rw [SqlCall.effect_of_stmt hstmt, hinsert]
  obtain ⟨s', row, hstmt', hrow, hlast, hadded⟩ := h.inserted hmodel heffect hr
  cases hstmt.symm.trans hstmt'
  exact ⟨heffect, row, ⟨s, c.lastRowid, hs, hrow⟩, hlast, hadded⟩

/-- A locked insert whose first call is not the insert itself. -/
theorem lockedInsert_conforms_insert {op : Op} {first : List Stmt} {s : Stmt}
    {fail : Rc → SqlProg OpResult} {succeed : Nat → SqlProg OpResult}
    (hs : op.mainStmt = some s) (hfirst : ¬ op.IsMain (.exec first))
    (heffect : (SqlCall.exec first).effect ≠ .writes .insert)
    (hfail : ∀ rc, rc ≠ .ok → Conforms (insertProtocol op) ⟨true, .refused rc⟩ (fail rc))
    (hsucceed : ∀ n, Conforms (insertProtocol op) ⟨false, .known n⟩ (succeed n)) :
    Conforms (insertProtocol op) {} (lockedInsert first s fail succeed) := by
  have hmain : op.IsMain (.exec [s]) := ⟨by simp [hs], by simp [hs, SqlCall.stmt]⟩
  have hlock : ¬ op.IsMain .lock := Op.not_isMain rfl
  have hunlock : ¬ op.IsMain .unlock := Op.not_isMain rfl
  have hrowid : ¬ op.IsMain .lastInsertRowid := Op.not_isMain rfl
  have hnext : ∀ r, (insertProtocol op).next {} (.exec first) r = {} := fun r => by
    simp [insertProtocol, InsertStage.next, hfirst, lockStep]
  refine ⟨⟨fun h => absurd h hfirst, fun h => absurd h heffect, by simp, by simp⟩, fun r => ?_⟩
  rw [hnext r, conforms_ite]
  refine ⟨fun hr => ⟨by simp, fun hok => absurd hok hr⟩, fun _ => ?_⟩
  refine ⟨⟨fun h => absurd h hlock, by simp [SqlCall.effect], by simp, by simp⟩, fun _ => ?_⟩
  have hlocked : ∀ r, (insertProtocol op).next {} .lock r = ⟨true, .before⟩ := fun r => by
    simp [insertProtocol, InsertStage.next, hlock, lockStep]
  rw [hlocked]
  refine ⟨⟨fun _ => ⟨rfl, rfl⟩, fun _ => Or.inl hmain, by simp, by simp⟩, fun r => ?_⟩
  -- from here on the phase tells whether there is a row
  by_cases hr : r.rc = .ok
  · have hfresh : (insertProtocol op).next ⟨true, .before⟩ (.exec [s]) r = ⟨true, .fresh⟩ := by
      simp [insertProtocol, InsertStage.next, hmain, SqlCall.succeeds, hr, lockStep]
    rw [hfresh]
    refine ⟨⟨fun h => absurd h hrowid, by simp [SqlCall.effect], fun _ => rfl, by simp⟩,
      fun newid => ?_⟩
    have hknown : (insertProtocol op).next ⟨true, .fresh⟩ .lastInsertRowid newid =
        ⟨true, .known newid.rowid⟩ := by
      simp [insertProtocol, InsertStage.next, hrowid, lockStep]
    rw [hknown]
    refine conforms_ite.mpr ⟨fun h => absurd hr h, fun _ => ?_⟩
    refine ⟨⟨fun h => absurd h hunlock, by simp [SqlCall.effect], by simp, fun _ => rfl⟩,
      fun r' => ?_⟩
    have hfree : (insertProtocol op).next ⟨true, .known newid.rowid⟩ .unlock r' =
        ⟨false, .known newid.rowid⟩ := by
      simp [insertProtocol, InsertStage.next, hunlock, lockStep]
    rw [hfree]
    exact hsucceed newid.rowid
  · have hrefused : (insertProtocol op).next ⟨true, .before⟩ (.exec [s]) r =
        ⟨true, .refused r.rc⟩ := by
      simp [insertProtocol, InsertStage.next, hmain, SqlCall.succeeds, hr, lockStep]
    rw [hrefused]
    refine ⟨⟨fun h => absurd h hrowid, by simp [SqlCall.effect], by simp, by simp⟩,
      fun newid => ?_⟩
    have hsame : (insertProtocol op).next ⟨true, .refused r.rc⟩ .lastInsertRowid newid =
        ⟨true, .refused r.rc⟩ := by
      simp [insertProtocol, InsertStage.next, hrowid, lockStep]
    rw [hsame]
    exact conforms_ite.mpr ⟨hfail r.rc, fun h => absurd hr h⟩

theorem Op.conforms_insert (op : Op) : Conforms (insertProtocol op) {} op.prog := by
  cases op with
  | userCreate u p h e => exact sqlInsert_conforms_insert rfl (fun _ => rfl) (fun _ _ => rfl)
  | convJoin u c =>
    have hprog : (convJoin u c).prog =
        (fun x => { rc := x.2 }) <$> sqlInsert (.insertMember c.toNat u.toNat) := by
      simp only [prog, MeshChat.convJoin, map_eq_bind, bind_assoc, pure_eq, ret_bind]
    rw [hprog]
    exact sqlInsert_conforms_insert rfl (fun _ => rfl) fun h => by cases h
  | chatCreate a b =>
    have hprog : (chatCreate a b).prog = .call (.exec [.pragmaForeignKeysOn]) fun r =>
        if r.rc ≠ .ok then .ret (.ofId (0, r.rc)) else
        OpResult.ofId <$> sqlInsert (.insertChat a.toNat b.toNat) := by
      simp only [prog, MeshChat.chatCreate, map_eq_bind, invoke_bind, call_bind, ite_bind, pure_eq,
        ret_bind]
    have hmain : ¬ Op.IsMain (.chatCreate a b) (.exec [.pragmaForeignKeysOn]) := by
      rintro ⟨-, heq⟩
      cases heq
    rw [hprog]
    refine ⟨⟨fun h => absurd h hmain, by simp [SqlCall.effect], by simp, by simp⟩, fun r => ?_⟩
    have hnext : (insertProtocol (.chatCreate a b)).next {} (.exec [.pragmaForeignKeysOn]) r = {} := by
      simp [insertProtocol, InsertStage.next, hmain, lockStep]
    rw [hnext, conforms_ite]
    exact ⟨fun hr => ⟨by simp, fun hok => absurd hok hr⟩,
      fun _ => sqlInsert_conforms_insert rfl (fun _ => rfl) fun _ _ => rfl⟩
  | convCreate a n =>
    have hcases := (TextQuery.convCreate a n).insertStmt_cases (.insertConversation a.toNat n)
    -- the statements behind the insert are none of those that it can be
    have hother : ∀ {s : Stmt}, s ≠ .insertConversation a.toNat n → s ≠ .malformed → s ≠ .raw →
        ¬ Op.IsMain (.convCreate a n) (.exec [s]) := by
      rintro s hconv hmalformed hraw ⟨-, heq⟩
      have hs : s = (TextQuery.convCreate a n).insertStmt (.insertConversation a.toNat n) :=
        Option.some.inj heq
      rcases hcases with h | h | h
      · exact hconv (hs.trans h)
      · exact hmalformed (hs.trans h)
      · exact hraw (hs.trans h)
    have hmain : ∀ u, ¬ Op.IsMain (.convCreate a n) (.exec [.insertMemberOfLast u]) :=
      fun u => hother (by simp) (by simp) (by simp)
    have hcommit : ¬ Op.IsMain (.convCreate a n) (.exec [.commit]) :=
      hother (by simp) (by simp) (by simp)
    have hrollback : ¬ Op.IsMain (.convCreate a n) (.exec [.rollback]) :=
      hother (by simp) (by simp) (by simp)
    rw [prog_convCreate]
    refine lockedInsert_conforms_insert rfl (Op.not_isMain rfl) (by simp [SqlCall.effect])
      (fun rc hrc => ?_) (fun k => ?_)
    · simp [rollbackReport, insertProtocol, hrollback, InsertStage.next, SqlCall.effect, lockStep,
        hrc]
    · simp +contextual [convCreateTail, rollbackReport, insertProtocol, hmain, hcommit, hrollback,
        InsertStage.next, SqlCall.effect, lockStep]
  | msgSend m t =>
    have hcases : msgSendStmt m t ≠ .pragmaForeignKeysOn := by
      unfold msgSendStmt
      intro heq
      rcases TextQuery.insertStmt_cases _ _ with hs | hs | hs <;> rw [hs] at heq <;> cases heq
    rw [prog_msgSend]
    refine lockedInsert_conforms_insert rfl ?_ (by simp [SqlCall.effect, Stmt.effect])
      (fun rc hrc => ?_) (fun k => ?_)
    · rintro ⟨-, heq⟩
      exact hcases (Option.some.inj heq).symm
    · exact ⟨by simp, fun hok => absurd hok hrc⟩
    · exact ⟨by simp, fun _ _ _ => ⟨k, Or.inl rfl, fun _ => rfl⟩⟩
  | _ => exact Op.conforms_insert_of_none rfl

/-! ## Runs -/

section Runs

variable {ι : Type}

/-- The call inserted this row. -/
def Inserts (e : SqlEntry ι) (row : Row) : Prop :=
  e.call.effect = .writes .insert ∧ e.pre.db.Added e.post.db row

/-- The second insert of `conv_create`. -/
def SqlCall.insertsMemberOfLast : SqlCall → Bool
  | exec [.insertMemberOfLast _] => true
  | _ => false

/-- The operation whose insert was the last to succeed. -/
def lastInserter (log : List (SqlEntry ι)) : Option ι :=
  log.foldl (fun i e =>
    if e.call.effect = .writes .insert ∧ e.call.succeeds e.reply = true then some e.tid else i) none

/-- Operation `i` has inserted a row of its own with rowid `n`. -/
def InsertedOwn (ops : ι → Op) (log : List (SqlEntry ι)) (i : ι) (n : Nat) : Prop :=
  ∃ e ∈ log, e.tid = i ∧ ∃ row, (ops i).Creates row ∧ Inserts e row ∧ row.rowid = n

theorem InsertedOwn.mono {ops : ι → Op} {log log' : List (SqlEntry ι)} {i : ι} {n : Nat}
    (h : InsertedOwn ops log i n) : InsertedOwn ops (log ++ log') i n := by
  obtain ⟨e, he, hrest⟩ := h
  exact ⟨e, List.mem_append_left _ he, hrest⟩

theorem lastInserter_snoc_insert (log : List (SqlEntry ι)) {e : SqlEntry ι}
    (heffect : e.call.effect = .writes .insert) (hr : e.call.succeeds e.reply = true) :
    lastInserter (log ++ [e]) = some e.tid := by
  simp [lastInserter, heffect, hr]

theorem lastInserter_snoc_other (log : List (SqlEntry ι)) {e : SqlEntry ι}
    (h : e.call.effect = .writes .insert → e.call.succeeds e.reply = false) :
    lastInserter (log ++ [e]) = lastInserter log := by
  simp only [lastInserter, List.foldl_append, List.foldl_cons, List.foldl_nil]
  rw [if_neg]
  rintro ⟨heffect, hr⟩
  cases (h heffect).symm.trans hr

variable [DecidableEq ι]

/-- The calls of the run are instances of their templates, and the second insert
    of a `conv_create` is made while its first is still the last one of the
    connection and no other operation is about to call
    `sqlite3_last_insert_rowid`. -/
def MembersUndisturbed (ops : ι → Op) (log : List (SqlEntry ι)) : Prop :=
  EachStep (fun before e => e.call.Modelled ∧
    (e.call.insertsMemberOfLast = true → lastInserter before = some e.tid ∧
      ∀ j ≠ e.tid, (residual (fun i => (ops i).prog) before j).issue ≠ some .lastInsertRowid)) log

/-- Ids are attributed to the right request. -/
structure Attributed (ops : ι → Op) (log : List (SqlEntry ι)) : Prop where
  /-- An operation that reports `SQLITE_OK` has inserted a row and returns its
      rowid. -/
  ids : ∀ i res, reported ops log i = some res → res.rc = .ok → (ops i).mainStmt ≠ none →
    ∃ e ∈ log, e.tid = i ∧ ∃ row, (ops i).Creates row ∧ Inserts e row ∧
      ((ops i).returnsId = true → res.id = UInt32.ofNat row.rowid)
  /-- The member that `conv_create` inserts is one of the conversation it has
      inserted. -/
  members : ∀ i a n, ops i = .convCreate a n → ∀ e ∈ log, e.tid = i → ∀ m,
    Inserts e (.member m) → ∃ e' conv, [e', e].Sublist log ∧ e'.tid = i ∧
      Inserts e' (.conv conv) ∧ m.convId = conv.id

/-- How far operation `i` has come with its row. -/
def insertPhase (ops : ι → Op) (log : List (SqlEntry ι)) (i : ι) : InsertPhase :=
  (insertProtocol (ops i)).along {} (ownTrace log i)

theorem insertPhase_snoc_self (ops : ι → Op) (log : List (SqlEntry ι)) (e : SqlEntry ι) :
    insertPhase ops (log ++ [e]) e.tid =
      (insertProtocol (ops e.tid)).next (insertPhase ops log e.tid) e.call e.reply := by
  simp only [insertPhase, ownTrace_snoc_self, Protocol.along_snoc]

theorem insertPhase_snoc_other (ops : ι → Op) (log : List (SqlEntry ι)) {e : SqlEntry ι} {i : ι}
    (h : e.tid ≠ i) : insertPhase ops (log ++ [e]) i = insertPhase ops log i := by
  simp only [insertPhase, ownTrace_snoc_other log h]

/-! ### The mutex excludes -/

/-- An operation that holds the mutex is the only one. -/
structure LockInv (ops : ι → Op) (log : List (SqlEntry ι)) (c : Conn) : Prop where
  owner : ∀ i, (insertPhase ops log i).held = true → c.held = true
  exclusive : ∀ i j, (insertPhase ops log i).held = true → (insertPhase ops log j).held = true →
    i = j

theorem lockStep_eq_true {b : Bool} {c : SqlCall} :
    lockStep b c = true ↔ c = .lock ∨ b = true ∧ c ≠ .unlock := by
  cases c <;> simp [lockStep]

variable {ops : ι → Op} {c₀ c : Conn} {log : List (SqlEntry ι)} {e : SqlEntry ι}

@[simp] theorem insertPhase_nil (i : ι) : insertPhase ops [] i = {} := rfl

theorem insertPhase_snoc_held (i : ι) :
    (insertPhase ops (log ++ [e]) i).held =
      if e.tid = i then lockStep (insertPhase ops log i).held e.call
      else (insertPhase ops log i).held := by
  split
  · rename_i h
    subst h
    rw [insertPhase_snoc_self]
    rfl
  · rename_i h
    rw [insertPhase_snoc_other ops log h]

theorem LockInv.step (h : LockInv ops log e.pre) (hanswer : Answers e.pre e.call e.post e.reply)
    (hunlock : e.call = .unlock → (insertPhase ops log e.tid).held = true) :
    LockInv ops (log ++ [e]) e.post := by
  obtain ⟨hheld, hlock⟩ := hanswer.held
  -- whoever holds the mutex after a call took it with this call or held it before
  have hback : ∀ i, (insertPhase ops (log ++ [e]) i).held = true →
      e.call = .lock ∧ e.tid = i ∨ (insertPhase ops log i).held = true ∧ e.call ≠ .unlock := by
    intro i hi
    rw [insertPhase_snoc_held] at hi
    split at hi
    · rcases lockStep_eq_true.mp hi with hl | hl
      · exact Or.inl ⟨hl, ‹_›⟩
      · exact Or.inr hl
    · exact Or.inr ⟨hi, fun hu => ‹¬ _› (h.exclusive _ _ (hunlock hu) hi)⟩
  constructor
  · intro i hi
    rw [hheld, lockStep_eq_true]
    rcases hback i hi with ⟨hl, -⟩ | ⟨hi, hu⟩
    · exact Or.inl hl
    · exact Or.inr ⟨h.owner i hi, hu⟩
  · intro i j hi hj
    rcases hback i hi with ⟨hl, rfl⟩ | ⟨hi, -⟩
    · rcases hback j hj with ⟨-, hj⟩ | ⟨hj, -⟩
      · exact hj
      · cases (hlock hl).symm.trans (h.owner j hj)
    · rcases hback j hj with ⟨hl, rfl⟩ | ⟨hj, -⟩
      · cases (hlock hl).symm.trans (h.owner i hi)
      · exact h.exclusive i j hi hj

theorem SqlRun.conforms_insert (hrun : SqlRun ops c₀ log c) (i : ι) :
    Conforms (insertProtocol (ops i)) (insertPhase ops log i)
      (residual (fun i => (ops i).prog) log i) := by
  refine Conforms.interleaved ?_ hrun
  exact Op.conforms_insert (ops i)

theorem SqlRun.lockInv (hrun : SqlRun ops c₀ log c) : LockInv ops log c := by
  induction hrun with
  | start => exact ⟨by simp, by simp⟩
  | @step log c c' i call r hprev hissue hcall ih =>
    have hallowed := (SqlRun.conforms_insert hprev i).allowed hissue
    exact ih.step (e := ⟨i, call, r, c, c'⟩) hcall hallowed.2.2.2

/-! ### Rows and their ids -/

/-- An operation that has inserted its row and does not know its id is about to
    ask for it. -/
theorem SqlRun.issue_of_fresh (hrun : SqlRun ops c₀ log c) {i : ι}
    (h : (insertPhase ops log i).stage = .fresh) :
    (residual (fun i => (ops i).prog) log i).issue = some .lastInsertRowid := by
  have hconforms := hrun.conforms_insert i
  cases hissue : (residual (fun i => (ops i).prog) log i).issue with
  | none =>
    obtain ⟨res, hres⟩ := eq_ret_of_issue hissue
    rw [hres] at hconforms
    exact absurd h hconforms.1
  | some call => rw [(hconforms.allowed hissue).2.2.1 h]

/-- The stage of an operation after a call of its own. -/
theorem InsertStage.next_cases (op : Op) (t : InsertStage) (c : SqlCall) (r : Reply) :
    op.IsMain c ∧ c.succeeds r = true ∧ t.next op c r = .fresh ∨
    op.IsMain c ∧ c.succeeds r = false ∧ t.next op c r = .refused r.rc ∨
    t = .fresh ∧ c = .lastInsertRowid ∧ t.next op c r = .known r.rowid ∨
    (∃ n u, t = .known n ∧ c = .exec [.insertMemberOfLast u] ∧ t.next op c r = .joined n) ∨
    ¬ op.IsMain c ∧ t.next op c r = t ∧ (∀ n u, t = .known n → c ≠ .exec [.insertMemberOfLast u]) ∧
      (t = .fresh → c ≠ .lastInsertRowid) := by
  unfold InsertStage.next
  split
  · rename_i hmain
    by_cases hr : c.succeeds r = true
    · exact Or.inl ⟨hmain, hr, by simp [hr]⟩
    · exact Or.inr (Or.inl ⟨hmain, Bool.eq_false_of_not_eq_true hr, by simp [hr]⟩)
  · split
    · simp
    · simp
    · rename_i hmain _ _ hfresh hknown
      refine Or.inr (Or.inr (Or.inr (Or.inr ⟨hmain, rfl, ?_, ?_⟩)))
      · rintro n u rfl rfl
        exact hknown n u rfl rfl
      · rintro rfl rfl
        exact hfresh rfl rfl

/-- The rows that operations have inserted and what they know of their ids. -/
structure RowInv (ops : ι → Op) (log : List (SqlEntry ι)) (c : Conn) : Prop where
  held : ∀ i, (insertPhase ops log i).stage = .fresh → (insertPhase ops log i).held = true
  fresh : ∀ i, (insertPhase ops log i).stage = .fresh → InsertedOwn ops log i c.lastRowid
  known : ∀ i n, (insertPhase ops log i).stage = .known n ∨
    (insertPhase ops log i).stage = .joined n → InsertedOwn ops log i n
  last : ∀ i n, (insertPhase ops log i).stage = .known n → lastInserter log = some i →
    c.lastRowid = n
  refused : ∀ i, (insertPhase ops log i).stage ≠ .refused .ok

/-- What a step of a run is: a call of operation `e.tid` that its protocol allows,
    answered by the connection, and undisturbed. -/
structure UndisturbedStep (ops : ι → Op) (log : List (SqlEntry ι)) (e : SqlEntry ι) : Prop where
  allowed : (insertProtocol (ops e.tid)).allows (insertPhase ops log e.tid) e.call
  answered : Answers e.pre e.call e.post e.reply
  modelled : e.call.Modelled
  notMixed : e.call.effect ≠ .mixed
  locks : LockInv ops log e.pre
  quiet : ∀ u, e.call = .exec [.insertMemberOfLast u] → lastInserter log = some e.tid ∧
    ∀ j ≠ e.tid, (insertPhase ops log j).stage ≠ .fresh

namespace UndisturbedStep

/-- The call of another operation leaves the rowid alone that one is about to ask
    for. -/
theorem lastRowid_of_fresh (h : UndisturbedStep ops log e) (hinv : RowInv ops log e.pre) {i : ι}
    (hi : i ≠ e.tid) (hfresh : (insertPhase ops log i).stage = .fresh) :
    e.post.lastRowid = e.pre.lastRowid := by
  refine h.answered.lastRowid h.modelled h.notMixed fun heffect => ?_
  exfalso
  rcases h.allowed.2.1 heffect with hmain | ⟨_, _, u, _, -, hcall, -⟩
  · -- another insert under the mutex is excluded by the mutex
    exact hi (h.locks.exclusive _ _ (hinv.held i hfresh) (h.allowed.1 hmain).1)
  · exact (h.quiet u hcall).2 i hi hfresh

/-- The operation's own insert. -/
theorem insertedOwn (h : UndisturbedStep ops log e) (hmain : (ops e.tid).IsMain e.call)
    (hr : e.call.succeeds e.reply = true) :
    InsertedOwn ops (log ++ [e]) e.tid e.post.lastRowid := by
  obtain ⟨heffect, row, hrow, hlast, hadded⟩ := hmain.inserted h.answered h.modelled hr
  exact ⟨e, List.mem_append_right _ (List.mem_singleton_self e), rfl, row, hrow,
    ⟨heffect, hadded⟩, hlast.symm⟩

/-- `sqlite3_last_insert_rowid` is answered with the last rowid. -/
theorem rowid (h : UndisturbedStep ops log e) (hcall : e.call = .lastInsertRowid) :
    e.reply.rowid = e.pre.lastRowid ∧ e.post = e.pre := by
  have hanswer := h.answered
  rw [hcall] at hanswer
  cases hanswer with
  | served _ hserved =>
    simp only [answer, Option.some.injEq, Prod.mk.injEq] at hserved
    exact ⟨by rw [← hserved.2], hserved.1.symm⟩
  | foreign hforeign _ => exact absurd trivial hforeign

/-- The invariant for the operation that made the call. -/
theorem self (h : UndisturbedStep ops log e) (hinv : RowInv ops log e.pre) :
    let t := (insertPhase ops log e.tid).stage.next (ops e.tid) e.call e.reply
    (t = .fresh → lockStep (insertPhase ops log e.tid).held e.call = true ∧
      InsertedOwn ops (log ++ [e]) e.tid e.post.lastRowid) ∧
    (∀ n, t = .known n ∨ t = .joined n → InsertedOwn ops (log ++ [e]) e.tid n) ∧
    (∀ n, t = .known n → lastInserter (log ++ [e]) = some e.tid → e.post.lastRowid = n) ∧
    t ≠ .refused .ok := by
  dsimp only
  rcases InsertStage.next_cases (ops e.tid) (insertPhase ops log e.tid).stage e.call e.reply with
    ⟨hmain, hr, ht⟩ | ⟨hmain, hr, ht⟩ | ⟨hfresh, hcall, ht⟩ | ⟨n, u, hknown, hcall, ht⟩ |
    ⟨hmain, ht, hjoin, hask⟩
  · -- its own insert succeeds
    rw [ht]
    refine ⟨fun _ => ⟨?_, h.insertedOwn hmain hr⟩, ?_, by simp, by simp⟩
    · have hheld := (h.allowed.1 hmain).1
      refine lockStep_eq_true.mpr (Or.inr ⟨hheld, fun hunlock => ?_⟩)
      exact Op.not_isMain (by rw [hunlock]; rfl) hmain
    · rintro n (hn | hn) <;> cases hn
  · -- its own insert fails
    rw [ht]
    refine ⟨by simp, ?_, by simp, ?_⟩
    · rintro n (hn | hn) <;> cases hn
    · intro hok
      exact h.answered.rc_ne_ok h.modelled hr (InsertStage.refused.inj hok)
  · -- it asks for the id of its row
    obtain ⟨hrowid, hpost⟩ := h.rowid hcall
    rw [ht]
    refine ⟨by simp, ?_, ?_, by simp⟩
    · rintro n (hn | hn)
      · cases hn
        rw [hrowid]
        exact (hinv.fresh _ hfresh).mono
      · cases hn
    · intro n hn _
      cases hn
      rw [hpost, hrowid]
  · -- the second insert of `conv_create`
    rw [ht]
    refine ⟨by simp, ?_, by simp, by simp⟩
    rintro k (hk | hk)
    · cases hk
    · cases hk
      exact (hinv.known _ _ (Or.inl hknown)).mono
  · -- any other call
    rw [ht]
    refine ⟨fun hfresh => absurd (h.allowed.2.2.1 hfresh) (hask hfresh), ?_, ?_, hinv.refused _⟩
    · intro n hn
      exact (hinv.known _ n hn).mono
    · intro n hn hlast
      have hnot : e.call.effect ≠ .writes .insert := by
        intro heffect
        rcases h.allowed.2.1 heffect with hmain' | ⟨_, _, u, k, -, hcall, hk⟩
        · exact hmain hmain'
        · exact hjoin k u hk hcall
      rw [lastInserter_snoc_other log fun heffect => absurd heffect hnot] at hlast
      rw [h.answered.lastRowid h.modelled h.notMixed fun heffect => absurd heffect hnot]
      exact hinv.last _ n hn hlast

end UndisturbedStep

theorem RowInv.step (hinv : RowInv ops log e.pre) (h : UndisturbedStep ops log e) :
    RowInv ops (log ++ [e]) e.post := by
  have hself := h.self hinv
  dsimp only at hself
  have hphase : insertPhase ops (log ++ [e]) e.tid =
      ⟨lockStep (insertPhase ops log e.tid).held e.call,
        (insertPhase ops log e.tid).stage.next (ops e.tid) e.call e.reply⟩ :=
    insertPhase_snoc_self ops log e
  obtain ⟨hfresh, hknown, hlast, hrefused⟩ := hself
  constructor
  · intro i hi
    by_cases hij : e.tid = i
    · subst hij
      rw [hphase] at hi ⊢
      exact (hfresh hi).1
    · rw [insertPhase_snoc_other ops log hij] at hi ⊢
      exact hinv.held i hi
  · intro i hi
    by_cases hij : e.tid = i
    · subst hij
      rw [hphase] at hi
      exact (hfresh hi).2
    · rw [insertPhase_snoc_other ops log hij] at hi
      rw [h.lastRowid_of_fresh hinv (Ne.symm hij) hi]
      exact (hinv.fresh i hi).mono
  · intro i n hi
    by_cases hij : e.tid = i
    · subst hij
      rw [hphase] at hi
      exact hknown n hi
    · rw [insertPhase_snoc_other ops log hij] at hi
      exact (hinv.known i n hi).mono
  · intro i n hi hl
    by_cases hij : e.tid = i
    · subst hij
      rw [hphase] at hi
      exact hlast n hi hl
    · rw [insertPhase_snoc_other ops log hij] at hi
      -- the call was no insert, or it would be the last one
      have hnot : e.call.effect = .writes .insert → e.call.succeeds e.reply = false := by
        intro heffect
        refine Bool.eq_false_of_not_eq_true fun hr => hij ?_
        rw [lastInserter_snoc_insert log heffect hr] at hl
        exact Option.some.inj hl
      rw [lastInserter_snoc_other log hnot] at hl
      rw [h.answered.lastRowid h.modelled h.notMixed hnot]
      exact hinv.last i n hi hl
  · intro i
    by_cases hij : e.tid = i
    · subst hij
      rw [hphase]
      exact hrefused
    · rw [insertPhase_snoc_other ops log hij]
      exact hinv.refused i

/-- A step of an undisturbed run. -/
theorem SqlRun.undisturbedStep {c c' : Conn} {i : ι} {call : SqlCall} {r : Reply}
    (hprev : SqlRun ops c₀ log c)
    (hissue : (residual (fun i => (ops i).prog) log i).issue = some call)
    (hcall : Answers c call c' r) (h : MembersUndisturbed ops (log ++ [⟨i, call, r, c, c'⟩])) :
    UndisturbedStep ops log ⟨i, call, r, c, c'⟩ := by
  obtain ⟨hmodel, hquiet⟩ := h.last
  refine ⟨(hprev.conforms_insert i).allowed hissue, hcall, hmodel,
    ((hprev.conforms_write i).allowed hissue).1, hprev.lockInv, fun u hu => ?_⟩
  have hu : call = .exec [.insertMemberOfLast u] := hu
  obtain ⟨hlast, hask⟩ := hquiet (by rw [hu]; rfl)
  exact ⟨hlast, fun j hj hfresh => hask j hj (hprev.issue_of_fresh hfresh)⟩

theorem SqlRun.rowInv (hrun : SqlRun ops c₀ log c) (h : MembersUndisturbed ops log) :
    RowInv ops log c := by
  induction hrun with
  | start =>
    refine ⟨by simp, by simp, ?_, by simp, by simp⟩
    rintro i n (hn | hn) <;> cases hn
  | @step log c c' i call r hprev hissue hcall ih =>
    exact (ih h.prev).step (SqlRun.undisturbedStep hprev hissue hcall h)

/-- The second insert of a `conv_create` in an undisturbed step. -/
theorem UndisturbedStep.member (h : UndisturbedStep ops log e) (hinv : RowInv ops log e.pre)
    {a : UInt32} {n : CStr} (hop : ops e.tid = .convCreate a n) {m : MemberRow}
    (hm : Inserts e (.member m)) :
    ∃ e' conv, e' ∈ log ∧ e'.tid = e.tid ∧ Inserts e' (.conv conv) ∧ m.convId = conv.id := by
  obtain ⟨heffect, hadded⟩ := hm
  obtain ⟨s, hstmt, hrow⟩ := h.answered.added h.modelled heffect hadded
  rcases h.allowed.2.1 heffect with hmain | ⟨_, _, u, k, -, hcall, hk⟩
  · -- the rows of its first insert are conversations
    have hcreates : (ops e.tid).Creates (.member m) :=
      ⟨s, e.pre.lastRowid, hmain.2.symm.trans hstmt, hrow⟩
    rw [hop] at hcreates
    obtain ⟨conv, hbad⟩ := hcreates.conv
    cases hbad
  · obtain ⟨e', he', htid, row, hcreates, hinserts, hrowid⟩ := hinv.known _ k (Or.inl hk)
    rw [hop] at hcreates
    obtain ⟨conv, rfl⟩ := hcreates.conv
    refine ⟨e', conv, he', htid, hinserts, ?_⟩
    have hlast := hinv.last _ k hk (h.quiet u hcall).1
    rw [hcall] at hstmt
    cases hstmt
    have hconvId : e.pre.lastRowid = m.convId :=
      congrArg MemberRow.convId (Row.member.inj (Option.some.inj hrow))
    rw [← hconvId, hlast]
    exact hrowid.symm

/-- **Ids are attributed to the right request** in every run in which the second
    inserts of `conv_create` are undisturbed: each operation that reports
    `SQLITE_OK` returns the rowid of a row it inserted itself, and the member that
    a `conv_create` inserts belongs to the conversation which that call inserted. -/
theorem ids_attributed (hrun : SqlRun ops c₀ log c) (h : MembersUndisturbed ops log) :
    Attributed ops log := by
  constructor
  · intro i res hres hok hmain
    have hinv := hrun.rowInv h
    have hdone := hrun.conforms_insert i
    rw [eq_ret_of_result hres] at hdone
    obtain ⟨n, hstage, hid⟩ := hdone.2 hok hmain (hinv.refused i)
    obtain ⟨e, he, htid, row, hcreates, hinserts, hrowid⟩ := hinv.known i n hstage
    exact ⟨e, he, htid, row, hcreates, hinserts, fun hret => by rw [hrowid]; exact hid hret⟩
  · induction hrun with
    | start => exact fun i a n _ e he => absurd he List.not_mem_nil
    | @step log c c' j call r hprev hissue hcall ih =>
      intro i a n hop e he htid m hm
      rcases List.mem_append.mp he with he | he
      · obtain ⟨e', conv, hsub, hrest⟩ := ih h.prev i a n hop e he htid m hm
        exact ⟨e', conv, hsub.trans (List.sublist_append_left _ _), hrest⟩
      · cases List.mem_singleton.mp he
        subst htid
        have hstep := SqlRun.undisturbedStep hprev hissue hcall h
        obtain ⟨e', conv, he', hrest⟩ := hstep.member (SqlRun.rowInv hprev h.prev) hop hm
        refine ⟨e', conv, ?_, hrest⟩
        exact List.Sublist.append (List.singleton_sublist.mpr he') (List.Sublist.refl _)

end Runs

/-! ## Two operations

    One user opens a group while another sends a message. -/

/-- A message in the first group. -/
def groupMessage (id : Nat) (content : CStr) : MsgRow where
  id := id
  fromUid := 1
  replyTo := none
  contentType := 0
  contentLength := 2
  content := content
  createdAt := 100
  chatId := none
  convId := some 1
  type := .sent

/-- Three groups; user 1 is in the first two of them. -/
def groupConn : Conn where
  db :=
    { users := [⟨1, .ofBytes (ascii "an"), .ofBytes (ascii "x"), default, default⟩,
                ⟨2, .ofBytes (ascii "bo"), .ofBytes (ascii "y"), default, default⟩]
      conversations := [⟨1, 1, .ofBytes (ascii "a")⟩, ⟨2, 1, .ofBytes (ascii "b")⟩,
                        ⟨3, 2, .ofBytes (ascii "c")⟩]
      members := [⟨1, 1, 1⟩, ⟨2, 2, 1⟩, ⟨3, 3, 2⟩]
      messages := [groupMessage 1 (.ofBytes (ascii "m1")), groupMessage 2 (.ofBytes (ascii "m2"))] }

def groupOps : Fin 2 → Op
  | 0 => .convCreate 1 (.ofBytes (ascii "new"))
  | 1 => .msgSend { fromUid := 1, replyTo := 0, contentType := 0, contentLength := 2,
                    content := .ofBytes (ascii "hi"), convId := 1, chatId := 0 } 100

/-- Play a schedule of the two. -/
def groupPlay (schedule : List (Fin 2)) : Option (List (SqlEntry (Fin 2)) × Conn) :=
  play serve (fun i => (groupOps i).prog) [] groupConn schedule

theorem groupPlay_run {schedule : List (Fin 2)} {x : List (SqlEntry (Fin 2)) × Conn}
    (h : groupPlay schedule = some x) : SqlRun groupOps groupConn x.1 x.2 :=
  interleaved_of_play answers_of_serve .start h

/-- The message is sent after the group is complete, but before its transaction
    is committed. -/
theorem ids_attributed_group :
    ∃ log c, SqlRun groupOps groupConn log c ∧ MembersUndisturbed groupOps log ∧
      reported groupOps log 0 = some ⟨.ok, 4⟩ ∧ reported groupOps log 1 = some ⟨.ok, 3⟩ ∧
      Attributed groupOps log := by
  have hplay : (groupPlay [0, 1, 0, 0, 0, 0, 0, 1, 1, 1, 1, 0]).any (fun x =>
      decide (reported groupOps x.1 0 = some ⟨.ok, 4⟩ ∧ reported groupOps x.1 1 = some ⟨.ok, 3⟩ ∧
        ∀ k : Fin x.1.length, (x.1.get k).call.Modelled ∧
          ((x.1.get k).call.insertsMemberOfLast = true →
            lastInserter (x.1.take k) = some (x.1.get k).tid ∧
            ∀ j ≠ (x.1.get k).tid,
              (residual (fun i => (groupOps i).prog) (x.1.take k) j).issue ≠
                some .lastInsertRowid))) = true := by
    decide +kernel
  obtain ⟨⟨log, c⟩, hrun, hfacts⟩ := (Option.any_eq_true _ _).mp hplay
  obtain ⟨h₀, h₁, hsteps⟩ := of_decide_eq_true hfacts
  have hquiet : MembersUndisturbed groupOps log := eachStep_of_get hsteps
  exact ⟨log, c, groupPlay_run hrun, hquiet, h₀, h₁, ids_attributed (groupPlay_run hrun) hquiet⟩

/-- The second insert of the `conv_create` comes between the insert of the message
    and the question for its id. The message has id 3, but 4 is returned for it;
    and its sender becomes a member of group 3 and not of the new group 4. -/
theorem foreignIds_not_attributed :
    ∃ log c, SqlRun groupOps groupConn log c ∧
      reported groupOps log 0 = some ⟨.ok, 4⟩ ∧ reported groupOps log 1 = some ⟨.ok, 4⟩ ∧
      c.db.Has (.msg (groupMessage 3 (.ofBytes (ascii "hi")))) ∧ c.db.Has (.member ⟨4, 3, 1⟩) ∧
      ¬ Attributed groupOps log := by
  have hplay : (groupPlay [0, 0, 0, 0, 0, 1, 1, 1, 0, 1, 1, 0]).any (fun x =>
      decide (reported groupOps x.1 0 = some ⟨.ok, 4⟩ ∧ reported groupOps x.1 1 = some ⟨.ok, 4⟩ ∧
        x.2.db.Has (.msg (groupMessage 3 (.ofBytes (ascii "hi")))) ∧
        x.2.db.Has (.member ⟨4, 3, 1⟩) ∧
        ∀ e ∈ x.1, e.tid = 1 → ∀ r ∈ e.post.db.messages, r ∉ e.pre.db.messages →
          r.id = 3)) = true := by
    decide +kernel
  obtain ⟨⟨log, c⟩, hrun, hfacts⟩ := (Option.any_eq_true _ _).mp hplay
  obtain ⟨h₀, h₁, hmsg, hmember, hids⟩ := of_decide_eq_true hfacts
  refine ⟨log, c, groupPlay_run hrun, h₀, h₁, hmsg, hmember, fun hattributed => ?_⟩
  obtain ⟨e, he, htid, row, hcreates, hinserts, hid⟩ :=
    hattributed.ids 1 _ h₁ rfl (by decide +kernel)
  -- the row is a message, and the only message inserted has id 3
  obtain ⟨r, rfl⟩ := hcreates.msg
  have hin : e.post.db.Has (.msg r) := (hinserts.2.has _).mpr (Or.inr rfl)
  have hthree := hids e he htid r hin hinserts.2.fresh
  have hfour : (4 : UInt32) = UInt32.ofNat r.id := hid rfl
  rw [hthree] at hfour
  exact absurd hfour (by decide)

end MeshChat
