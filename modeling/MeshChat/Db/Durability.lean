import MeshChat.Db.Effects
import MeshChat.Lib.Journal

/-! # Acknowledged writes

    Any number of operations of `sql.c` run at the same time on the one
    connection. A transaction belongs to the connection and not to the operation
    that began it, so a `ROLLBACK` also undoes what other operations have written
    since the `BEGIN`, after they reported success.

    * `Op.conforms_write`: an operation that reports `SQLITE_OK` has not rolled
      back, and it only inserts, only deletes or makes a single update.
    * `Op.conforms_execute`: it has executed all its statements, unless its code
      was overwritten.
    * `journal`: the changes that are in the database, in the sense of `Journal`.
    * `acknowledged_kept`: if every `ROLLBACK` undoes only changes of the operation
      that makes it and no statement fails whose code is overwritten, every
      acknowledged change was made and none is lost.
    * `lostMessage_not_kept`: three operations whose calls are interleaved so that
      one of them loses an acknowledged message.
-/

namespace MeshChat

open CMemory Prog

/-! ## What one operation writes -/

/-- What an operation has written so far, and whether it has rolled back. -/
structure WritePhase where
  wrote : Option WriteKind := none
  rolledBack : Bool := false

def WritePhase.next (t : WritePhase) : Effect → WritePhase
  | .writes k => { t with wrote := some k }
  | .rollsBack => { t with rolledBack := true }
  | _ => t

/-- An operation only inserts, only deletes or makes one update, and does not
    report `SQLITE_OK` once it has rolled back. `code` is the code it reports. -/
def writeProtocol {α : Type} (code : α → Rc) : Protocol SqlCall Reply α WritePhase where
  allows t c :=
    c.effect ≠ .mixed ∧
      ∀ k, c.effect = .writes k → t.wrote = none ∨ t.wrote = some k ∧ k ≠ .update
  next t c _ := t.next c.effect
  done t a := t.rolledBack = true → code a ≠ .ok

/-- A statement with client text is what it is meant to be, or rejected. -/
theorem TextQuery.insertStmt_effect (q : TextQuery) (s : Stmt) :
    (q.insertStmt s).effect = s.effect ∨ (q.insertStmt s).effect = .neutral := by
  unfold insertStmt
  split
  · exact Or.inr rfl
  · split
    · exact Or.inl rfl
    · exact Or.inr rfl

/-- The insert of `msg_send`. -/
theorem msgSendStmt_effect (msg : MsgSchema) (now : UInt32) :
    (msgSendStmt msg now).effect = .writes .insert ∨ (msgSendStmt msg now).effect = .neutral :=
  TextQuery.insertStmt_effect _ _

section Calls

variable {α : Type} {code : α → Rc} {t : WritePhase} {c : SqlCall} {k : Reply → SqlProg α}

/-- A call that is neither a write nor a rollback leaves the phase alone. -/
theorem conforms_write_quiet
    (hquiet : c.effect = .neutral ∨ c.effect = .opens ∨ c.effect = .commits)
    (h : ∀ r, Conforms (writeProtocol code) t (k r)) :
    Conforms (writeProtocol code) t (.call c k) := by
  have hallows : (writeProtocol code).allows t c := by
    rcases hquiet with hc | hc | hc
    · exact ⟨by simp [hc], by simp [hc]⟩
    · exact ⟨by simp [hc], by simp [hc]⟩
    · exact ⟨by simp [hc], by simp [hc]⟩
  have hnext : t.next c.effect = t := by
    rcases hquiet with hc | hc | hc
    · rw [hc]; rfl
    · rw [hc]; rfl
    · rw [hc]; rfl
  refine ⟨hallows, fun r => ?_⟩
  show Conforms (writeProtocol code) (t.next c.effect) (k r)
  rw [hnext]
  exact h r

/-- Nothing but inserts has been made, and they stand. -/
def WritePhase.Inserting (t : WritePhase) : Prop :=
  (t.wrote = none ∨ t.wrote = some .insert) ∧ t.rolledBack = false

theorem conforms_write_insert (hc : c.effect = .writes .insert ∨ c.effect = .neutral)
    (ht : t.Inserting) (h : ∀ r t', t'.Inserting → Conforms (writeProtocol code) t' (k r)) :
    Conforms (writeProtocol code) t (.call c k) := by
  rcases hc with hc | hc
  · refine ⟨⟨by simp [hc], fun w hw => ?_⟩, fun r => h r _ ?_⟩
    · cases hc.symm.trans hw
      exact ht.1.imp_right fun h => ⟨h, by simp⟩
    · simp only [writeProtocol, hc, WritePhase.next]
      exact ⟨Or.inr rfl, ht.2⟩
  · exact conforms_write_quiet (Or.inl hc) fun r => h r t ht

/-- What stands may be reported with any code. -/
theorem WritePhase.Inserting.done (ht : t.Inserting) (a : α) : (writeProtocol code).done t a := by
  intro hback
  exact absurd (ht.2.symm.trans hback) (by simp)

end Calls

theorem sqlInsert_conforms_write {s : Stmt}
    (hs : s.effect = .writes .insert ∨ s.effect = .neutral) :
    Conforms (writeProtocol Prod.snd) {} (sqlInsert s) := by
  have hstart : ({} : WritePhase).Inserting := ⟨Or.inl rfl, rfl⟩
  simp only [sqlInsert, invoke_bind, pure_eq]
  refine conforms_write_quiet (Or.inl rfl) fun r => conforms_ite.mpr ⟨fun _ => hstart.done _, fun _ => ?_⟩
  refine conforms_write_quiet (Or.inl rfl) fun _ => conforms_write_insert hs hstart fun r t ht => ?_
  refine conforms_ite.mpr ⟨fun _ => ?_, fun _ => ?_⟩
  · exact conforms_write_quiet (Or.inl rfl) fun _ => ht.done _
  · exact conforms_write_quiet (Or.inl rfl) fun _ => conforms_write_quiet (Or.inl rfl) fun _ => ht.done _

theorem rollbackReport_conforms_write {t : WritePhase} {rc : Rc} (hrc : rc ≠ .ok) :
    Conforms (writeProtocol OpResult.rc) t (rollbackReport rc) :=
  ⟨⟨by simp [SqlCall.effect], by simp [SqlCall.effect]⟩, fun _ _ => hrc⟩

theorem convCreateTail_conforms_write {t : WritePhase} (ht : t.Inserting) (adminId : UInt32)
    (newid : Nat) : Conforms (writeProtocol OpResult.rc) t (convCreateTail adminId newid) := by
  refine conforms_write_insert (Or.inl rfl) ht fun r t' ht' => ?_
  refine conforms_ite.mpr ⟨rollbackReport_conforms_write, fun _ => ?_⟩
  refine conforms_write_quiet (Or.inr (Or.inr rfl)) fun r => ?_
  exact conforms_ite.mpr ⟨rollbackReport_conforms_write, fun _ => ht'.done _⟩

/-- The insert under the lock; the first call is quiet. -/
theorem lockedInsert_conforms_write {first : List Stmt} {s : Stmt} {fail : Rc → SqlProg OpResult}
    {succeed : Nat → SqlProg OpResult}
    (hfirst : (SqlCall.exec first).effect = .neutral ∨ (SqlCall.exec first).effect = .opens)
    (hs : s.effect = .writes .insert ∨ s.effect = .neutral)
    (hfail : ∀ t rc, rc ≠ .ok → Conforms (writeProtocol OpResult.rc) t (fail rc))
    (hsucceed : ∀ t n, t.Inserting → Conforms (writeProtocol OpResult.rc) t (succeed n)) :
    Conforms (writeProtocol OpResult.rc) {} (lockedInsert first s fail succeed) := by
  refine conforms_write_quiet (hfirst.imp_right Or.inl) fun r => ?_
  refine conforms_ite.mpr ⟨fun hr _ => hr, fun _ => ?_⟩
  refine conforms_write_quiet (Or.inl rfl) fun _ => ?_
  refine conforms_write_insert hs ⟨Or.inl rfl, rfl⟩ fun r t ht => ?_
  refine conforms_write_quiet (Or.inl rfl) fun newid => conforms_ite.mpr ⟨hfail t r.rc, fun _ => ?_⟩
  exact conforms_write_quiet (Or.inl rfl) fun _ => hsucceed t newid.rowid ht

/-- A failed call of a transaction, and the rest of it. -/
theorem rollback_conforms_write {r : Reply} {t : WritePhase} {p : SqlProg Rc}
    (hp : Conforms (writeProtocol id) t p) :
    Conforms (writeProtocol id) t (if r.rc ≠ .ok then do
      let (_, rc) ← rollback () r.rc
      return rc
    else p) := by
  rw [conforms_ite]
  refine ⟨fun hfail => ?_, fun _ => hp⟩
  simp only [rollback, invoke_bind, pure_eq, call_bind, ret_bind, conforms_call, conforms_ret]
  exact ⟨⟨by simp [SqlCall.effect, Stmt.effect], by simp [SqlCall.effect, Stmt.effect]⟩,
    fun _ _ => hfail⟩

theorem commitAfter_conforms_write {ss : List Stmt} (hss : ∀ s ∈ ss, s.effect = .writes .delete)
    {t : WritePhase} (hwrote : t.wrote = none ∨ t.wrote = some .delete)
    (hback : t.rolledBack = false) : Conforms (writeProtocol id) t (commitAfter ss) := by
  induction ss generalizing t with
  | nil =>
    refine ⟨⟨by simp [SqlCall.effect, Stmt.effect], by simp [SqlCall.effect, Stmt.effect]⟩,
      fun r => rollback_conforms_write ?_⟩
    intro hrolled
    exact absurd (hback.symm.trans hrolled) (by simp)
  -- each delete is of the kind already written
  | cons s ss ih =>
    have hs : (SqlCall.exec [s]).effect = .writes .delete := hss s (List.mem_cons_self ..)
    refine ⟨⟨by rw [hs]; simp, fun k hk => ?_⟩, fun r => rollback_conforms_write ?_⟩
    · cases hs.symm.trans hk
      exact hwrote.imp_right fun h => ⟨h, by simp⟩
    · refine ih (fun s hs => hss s (List.mem_cons_of_mem _ hs)) (Or.inr ?_) ?_
      · simp only [writeProtocol, hs, WritePhase.next]
      · simp only [writeProtocol, hs, WritePhase.next, hback]

/-- A transaction of deletes: `conv_drop` and `chat_drop`. -/
theorem dropAll_conforms_write {ss : List Stmt} (hss : ∀ s ∈ ss, s.effect = .writes .delete) :
    Conforms (writeProtocol id) {} (do
      let r ← invoke (.exec [.begin])
      if r.rc ≠ .ok then
        let (_, rc) ← rollback () r.rc
        return rc
      else commitAfter ss) :=
  ⟨⟨by simp [SqlCall.effect, Stmt.effect], by simp⟩,
    fun _ => rollback_conforms_write (commitAfter_conforms_write hss (Or.inl rfl) rfl)⟩

theorem Op.conforms_write (op : Op) : Conforms (writeProtocol OpResult.rc) {} op.prog := by
  -- a query writes nothing
  by_cases hq : op.isQuery = true
  · apply (Op.reads hq).conforms
    · intro c hc
      refine ⟨⟨by simp [hc.effect], by simp [hc.effect]⟩, fun _ => ?_⟩
      show WritePhase.next {} c.effect = {}
      rw [hc.effect]
      rfl
    · intro _ h
      cases h
  cases op with
  | userCreate u p h e => exact (sqlInsert_conforms_write (TextQuery.insertStmt_effect _ _)).map
  | convJoin u c =>
    simp [Op.prog, MeshChat.convJoin, sqlInsert, map_eq_bind, writeProtocol, WritePhase.next,
      SqlCall.effect, Stmt.effect]
  | chatCreate a b =>
    simp [Op.prog, MeshChat.chatCreate, sqlInsert, map_eq_bind, writeProtocol, WritePhase.next,
      SqlCall.effect, Stmt.effect]
  | convDrop c => exact (dropAll_conforms_write (by simp [Stmt.effect])).map
  | chatDrop c => exact (dropAll_conforms_write (by simp [Stmt.effect])).map
  | userDrop id =>
    simp [Op.prog, MeshChat.userDrop, map_eq_bind, writeProtocol, WritePhase.next,
      SqlCall.effect, Stmt.effect]
  | convQuit u c =>
    simp [Op.prog, MeshChat.convQuit, sqlExec, map_eq_bind, writeProtocol, WritePhase.next,
      SqlCall.effect, Stmt.effect]
  | msgDelivered m =>
    simp [Op.prog, MeshChat.msgDelivered, sqlExecIgnored, map_eq_bind, writeProtocol,
      WritePhase.next, SqlCall.effect, Stmt.effect]
  | msgDelete m =>
    simp [Op.prog, MeshChat.msgDelete, sqlExecIgnored, map_eq_bind, writeProtocol,
      WritePhase.next, SqlCall.effect, Stmt.effect]
  | msgDrop m =>
    simp [Op.prog, MeshChat.msgDrop, sqlExecIgnored, map_eq_bind, writeProtocol,
      WritePhase.next, SqlCall.effect, Stmt.effect]
  | convCreate a n =>
    rw [prog_convCreate]
    -- the text may have been cut, and then there is no insert
    exact lockedInsert_conforms_write (Or.inr rfl) (TextQuery.insertStmt_effect _ _)
      (fun _ _ => rollbackReport_conforms_write) fun _ n ht => convCreateTail_conforms_write ht a n
  | msgSend m t =>
    rw [prog_msgSend]
    exact lockedInsert_conforms_write (Or.inl rfl) (msgSendStmt_effect m t)
      (fun _ _ hrc _ => hrc) fun _ _ ht => ht.done _
  | _ => exact absurd rfl hq

/-! ## What an operation executes -/

/-- The statements by which an operation changes rows, in order. -/
def Op.writes : Op → List Stmt
  | userCreate u p h e => [.insertUser u p h e]
  | userDrop id => [.deleteUser id.toNat]
  | convCreate a n => [.insertConversation a.toNat n, .insertMemberOfLast a.toNat]
  | convDrop c =>
    [.deleteMessagesOfConv c.toNat, .deleteMembersOf c.toNat, .deleteConversation c.toNat]
  | convJoin u c => [.insertMember c.toNat u.toNat]
  | convQuit u c => [.deleteMember c.toNat u.toNat]
  | chatCreate a b => [.insertChat a.toNat b.toNat]
  | chatDrop c => [.deleteMessagesOfChat c.toNat, .deleteChat c.toNat]
  | msgSend m now => [.insertMessage (m.newMsg now)]
  | msgDelivered m => [.setMessageType m.toNat .delivered]
  | msgDelete m => [.clearMessage m.toNat]
  | msgDrop m => [.deleteMessage m.toNat]
  | _ => []

/-- The operations that update or delete one message; they report `SQLITE_OK`
    whatever their statement returns. -/
def Op.isUpdate : Op → Bool
  | msgDelivered .. | msgDelete .. | msgDrop .. => true
  | _ => false

/-- The call may have executed its statement: a step that returns `SQLITE_OK` is left open. -/
def SqlCall.settles (call : SqlCall) (r : Reply) : Bool := call.succeeds r || r.rc = .ok

/-- A program that reports `SQLITE_OK` has made calls for the statements `ss`, successful ones if
    `must`. The phase is the statements of its calls; one with client text may be another. -/
def executeProtocol {α : Type} (code : α → Rc) (must : Bool) (ss : List Stmt) :
    Protocol SqlCall Reply α (List Stmt) where
  allows _ _ := True
  next made c r := if must && !c.settles r then made else made ++ c.stmt.toList
  done made a := code a = .ok → ∀ s ∈ ss, s ∈ made ∨ .malformed ∈ made ∨ .raw ∈ made

/-- A statement with client text is what it is meant to be, malformed or no
    instance of its template. -/
theorem TextQuery.insertStmt_cases (q : TextQuery) (s : Stmt) :
    q.insertStmt s = s ∨ q.insertStmt s = .malformed ∨ q.insertStmt s = .raw := by
  unfold insertStmt
  split
  · exact Or.inr (Or.inr rfl)
  · split
    · exact Or.inl rfl
    · exact Or.inr (Or.inl rfl)

theorem sqlInsert_conforms_execute {s s' : Stmt} (hs : s' = s ∨ s' = .malformed ∨ s' = .raw) :
    Conforms (executeProtocol Prod.snd true [s]) [] (sqlInsert s') := by
  rcases hs with rfl | rfl | rfl <;>
    simp +contextual [sqlInsert, executeProtocol, SqlCall.stmt, SqlCall.settles, SqlCall.succeeds]

/-- A transaction of deletes has executed them all; `before` are those it has behind it. -/
theorem commitAfter_conforms_execute {before all made : List Stmt} (ss : List Stmt)
    (hall : before ++ ss = all) (hmade : ∀ s ∈ before, s ∈ made) :
    Conforms (executeProtocol id true all) made (commitAfter ss) := by
  -- a failure is what is reported, so that only a success has to be looked at
  induction ss generalizing before made with
  | nil =>
    simp only [commitAfter, rollback, invoke_bind, pure_eq, call_bind, ret_bind, conforms_call,
      conforms_ite, conforms_ret]
    refine ⟨trivial, fun r => ⟨fun hfail => ⟨trivial, fun _ hok => absurd hok hfail⟩, ?_⟩⟩
    intro hok _ s hs
    have hmem := hmade s (by simpa [← hall] using hs)
    simp [executeProtocol, SqlCall.settles, not_not.mp hok, hmem]
  | cons s ss ih =>
    have hmade' : ∀ s' ∈ before ++ [s], s' ∈ made ++ [s] := fun s' hs' => by
      rcases List.mem_append.mp hs' with hs' | hs'
      · exact List.mem_append_left _ (hmade s' hs')
      · exact List.mem_append_right _ hs'
    have hnext := ih ((List.append_assoc ..).trans hall) hmade'
    simp only [commitAfter, rollback, invoke_bind, pure_eq, call_bind, ret_bind, conforms_call,
      conforms_ite, conforms_ret]
    refine ⟨trivial, fun r => ⟨fun hfail => ⟨trivial, fun _ hok => absurd hok hfail⟩, fun hok => ?_⟩⟩
    simpa [executeProtocol, SqlCall.stmt, SqlCall.settles, not_not.mp hok] using hnext

/-- `conv_drop` and `chat_drop`. -/
theorem dropAll_conforms_execute (ss : List Stmt) :
    Conforms (executeProtocol id true ss) [] (do
      let r ← invoke (.exec [.begin])
      if r.rc ≠ .ok then
        let (_, rc) ← rollback () r.rc
        return rc
      else commitAfter ss) := by
  simp only [rollback, invoke_bind, pure_eq, call_bind, ret_bind, conforms_call, conforms_ite,
    conforms_ret]
  exact ⟨trivial, fun r => ⟨fun hfail => ⟨trivial, fun _ hok => absurd hok hfail⟩, fun _ =>
    commitAfter_conforms_execute ss (List.nil_append ss) (by simp)⟩⟩

theorem SqlCall.IsRead.stmt {c : SqlCall} (h : c.IsRead) : c.stmt = none := by
  cases c with
  | exec ss => cases h
  | step s => cases h
  | _ => rfl

theorem Op.writes_of_isQuery {op : Op} (h : op.isQuery = true) : op.writes = [] := by
  cases op <;> first | rfl | cases h

theorem Op.conforms_execute (op : Op) :
    Conforms (executeProtocol OpResult.rc (!op.isUpdate) op.writes) [] op.prog := by
  -- a query executes nothing
  by_cases hq : op.isQuery = true
  · rw [Op.writes_of_isQuery hq]
    apply (Op.reads hq).conforms
    · intro c hc
      exact ⟨trivial, fun _ => by simp [executeProtocol, hc.stmt]⟩
    · intro _ _ s hs
      cases hs
  cases op with
  | userCreate u p h e => exact (sqlInsert_conforms_execute (TextQuery.insertStmt_cases _ _)).map
  | convJoin u c =>
    simp +contextual [prog, writes, isUpdate, MeshChat.convJoin, sqlInsert, map_eq_bind,
      executeProtocol, SqlCall.stmt, SqlCall.settles, SqlCall.succeeds]
  | chatCreate a b =>
    simp +contextual [prog, writes, isUpdate, MeshChat.chatCreate, sqlInsert, map_eq_bind,
      executeProtocol, SqlCall.stmt, SqlCall.settles, SqlCall.succeeds, OpResult.ofId]
  | convDrop c => exact (dropAll_conforms_execute _).map
  | chatDrop c => exact (dropAll_conforms_execute _).map
  | userDrop id =>
    simp +contextual [prog, writes, isUpdate, MeshChat.userDrop, map_eq_bind, executeProtocol,
      SqlCall.stmt, SqlCall.settles, SqlCall.succeeds]
  | convQuit u c =>
    simp +contextual [prog, writes, isUpdate, MeshChat.convQuit, sqlExec, map_eq_bind,
      executeProtocol, SqlCall.stmt, SqlCall.settles, SqlCall.succeeds]
  | msgDelivered m =>
    simp [prog, writes, isUpdate, MeshChat.msgDelivered, sqlExecIgnored, map_eq_bind,
      executeProtocol, SqlCall.stmt]
  | msgDelete m =>
    simp [prog, writes, isUpdate, MeshChat.msgDelete, sqlExecIgnored, map_eq_bind,
      executeProtocol, SqlCall.stmt]
  | msgDrop m =>
    simp [prog, writes, isUpdate, MeshChat.msgDrop, sqlExecIgnored, map_eq_bind,
      executeProtocol, SqlCall.stmt]
  | convCreate a n =>
    rw [prog_convCreate]
    rcases TextQuery.insertStmt_cases (.convCreate a n) (.insertConversation a.toNat n) with
      hs | hs | hs <;>
      simp +contextual [lockedInsert, convCreateTail, rollbackReport, writes, isUpdate,
        executeProtocol, SqlCall.stmt, SqlCall.settles, SqlCall.succeeds, hs]
  | msgSend m t =>
    have hs : msgSendStmt m t = .insertMessage (m.newMsg t) ∨ msgSendStmt m t = .malformed ∨
        msgSendStmt m t = .raw := TextQuery.insertStmt_cases _ _
    rw [prog_msgSend]
    rcases hs with hs | hs | hs <;>
      simp +contextual [lockedInsert, writes, isUpdate, executeProtocol, SqlCall.stmt,
        SqlCall.settles, SqlCall.succeeds, hs]
  | _ => exact absurd rfl hq

/-! ## The journal of a run -/

section Runs

variable {ι : Type}

abbrev SqlEntry (ι : Type) : Type := Entry ι SqlCall Reply Conn

/-- Operations running at the same time: their calls to the connection, which is
    `c₀` at first, come in any order. -/
abbrev SqlRun [DecidableEq ι] (ops : ι → Op) (c₀ : Conn) : List (SqlEntry ι) → Conn → Prop :=
  Interleaved Answers (fun i => (ops i).prog) c₀

/-- What operation `i` has reported, if it has returned. -/
def reported [DecidableEq ι] (ops : ι → Op) (log : List (SqlEntry ι)) (i : ι) : Option OpResult :=
  (residual (fun i => (ops i).prog) log i).result

/-- The journal after a call. Only calls that change rows are entered. -/
def journalStep (j : Journal (SqlEntry ι)) (e : SqlEntry ι) : Journal (SqlEntry ι) :=
  match e.call.effect with
  | .writes _ => if e.post.db = e.pre.db then j else j.write e.pre.saved.isSome e
  | .commits => if e.post.saved = none then j.commit else j
  | .rollsBack => if e.pre.saved = none then j else j.rollback
  | _ => j

/-- The changes in the database after a run, and which of them belong to the open
    transaction. -/
def journal (log : List (SqlEntry ι)) : Journal (SqlEntry ι) := log.foldl journalStep {}

/-- The calls of the run are instances of their templates, and whenever a
    `ROLLBACK` finds a transaction open, the row changes made in it are all of the
    operation that rolls back. -/
def OwnRollbacks (log : List (SqlEntry ι)) : Prop :=
  EachStep (fun before e => e.call.Modelled ∧
    (e.call.effect = .rollsBack → e.pre.saved ≠ none →
      ∀ w ∈ (journal before).uncommitted, w.tid = e.tid)) log

/-- No statement fails whose code is overwritten: those of `msg_delivered`, `msg_delete` and
    `msg_drop`. -/
def UpdatesSucceed (ops : ι → Op) (log : List (SqlEntry ι)) : Prop :=
  ∀ e ∈ log, (ops e.tid).isUpdate = true → e.call.succeeds e.reply = true

/-- Operation `i` has changed the tables as the statement says. -/
def Executed (log : List (SqlEntry ι)) (i : ι) (s : Stmt) : Prop :=
  ∃ e ∈ log, e.tid = i ∧ e.call.stmt = some s ∧
    ∃ x, s.apply e.pre.fk e.pre.lastRowid e.pre.db = some x ∧ e.post.db = x.1

/-- No acknowledged write is lost: an operation that has reported `SQLITE_OK` has
    executed its statements, and its row changes are in the database, unless a
    later statement of another operation undid them. -/
def AcknowledgedKept [DecidableEq ι] (ops : ι → Op) (log : List (SqlEntry ι)) (db : Db) : Prop :=
  ∀ i res, reported ops log i = some res → res.rc = .ok →
    (∀ s ∈ (ops i).writes, Executed log i s) ∧ ∀ e ∈ log, e.tid = i → ∀ row,
    (¬ e.pre.db.Has row → e.post.db.Has row → db.Has row ∨
      ∃ e', [e, e'].Sublist log ∧ e'.tid ≠ i ∧
        (e'.call.effect = .writes .delete ∨ e'.call.effect = .writes .update) ∧
        e'.pre.db.Has row ∧ ¬ e'.post.db.Has row) ∧
    (e.pre.db.Has row → ¬ e.post.db.Has row → ¬ db.Has row ∨
      ∃ e', [e, e'].Sublist log ∧ e'.tid ≠ i ∧
        (e'.call.effect = .writes .insert ∨ e'.call.effect = .writes .update) ∧
        ¬ e'.pre.db.Has row ∧ e'.post.db.Has row)

theorem journal_snoc (log : List (SqlEntry ι)) (e : SqlEntry ι) :
    journal (log ++ [e]) = journalStep (journal log) e := by
  simp [journal]

/-- What the journal says about a run. -/
structure JournalInv (c₀ : Conn) (log : List (SqlEntry ι)) (c : Conn) : Prop where
  explains : (journal log).Explains (·.pre.db) (·.post.db) c₀.db c.db c.saved
  inOrder : (journal log).live.Sublist log
  writes : ∀ e ∈ (journal log).live, ∃ k, e.call.effect = .writes k
  /-- A change is in the journal until its own operation rolls back. -/
  kept : ∀ e ∈ log, ∀ k, e.call.effect = .writes k → e.post.db ≠ e.pre.db →
    e ∈ (journal log).live ∨ ∃ b ∈ log, b.tid = e.tid ∧ b.call.effect = .rollsBack

namespace JournalInv

variable {c₀ c : Conn} {log : List (SqlEntry ι)} {e : SqlEntry ι}

theorem start (h : c₀.saved = none) : JournalInv c₀ ([] : List (SqlEntry ι)) c₀ where
  explains := by
    rw [h]
    exact Journal.Explains.start c₀.db
  inOrder := List.Sublist.refl []
  writes _ he := absurd he List.not_mem_nil
  kept _ he := absurd he List.not_mem_nil

/-- A call that enters nothing and removes nothing. -/
theorem keep (h : JournalInv c₀ log c)
    (hexplains : (journalStep (journal log) e).Explains (·.pre.db) (·.post.db) c₀.db e.post.db
      e.post.saved)
    (hlive : (journalStep (journal log) e).live = (journal log).live)
    (hsame : ∀ k, e.call.effect = .writes k → e.post.db = e.pre.db) :
    JournalInv c₀ (log ++ [e]) e.post where
  explains := by rwa [journal_snoc]
  inOrder := by
    rw [journal_snoc, hlive]
    exact h.inOrder.trans (List.sublist_append_left log [e])
  writes := by
    rw [journal_snoc, hlive]
    exact h.writes
  kept := by
    rw [journal_snoc, hlive]
    intro w hw k hk hchange
    -- an earlier write is where it was; this call is none that changed something
    rcases List.mem_append.mp hw with hw | hw
    · refine (h.kept w hw k hk hchange).imp_right ?_
      rintro ⟨b, hb, hback⟩
      exact ⟨b, List.mem_append_left _ hb, hback⟩
    · cases List.mem_singleton.mp hw
      exact absurd (hsame k hk) hchange

/-- A call that leaves the journal as it is. -/
theorem same (h : JournalInv c₀ log c) (hj : journalStep (journal log) e = journal log)
    (hexplains : (journal log).Explains (·.pre.db) (·.post.db) c₀.db e.post.db e.post.saved)
    (hsame : ∀ k, e.call.effect = .writes k → e.post.db = e.pre.db) :
    JournalInv c₀ (log ++ [e]) e.post :=
  h.keep (by rwa [hj]) (by rw [hj]) hsame

/-- A call that changes rows. -/
theorem write (h : JournalInv c₀ log e.pre) {k : WriteKind} (hk : e.call.effect = .writes k)
    (hsaved : e.post.saved = e.pre.saved) (hchange : e.post.db ≠ e.pre.db) :
    JournalInv c₀ (log ++ [e]) e.post := by
  have hjournal : journal (log ++ [e]) = (journal log).write e.pre.saved.isSome e := by
    simp [journal_snoc, journalStep, hk, hchange]
  have hlive : (journal (log ++ [e])).live = (journal log).live ++ [e] := by
    rw [hjournal]
    refine Journal.live_write (fun hnone => h.explains.autocommit ?_) e
    simpa using hnone
  refine ⟨?_, ?_, ?_, ?_⟩
  · rw [hjournal, hsaved]
    exact h.explains.write rfl
  · rw [hlive]
    exact h.inOrder.append (List.Sublist.refl [e])
  · rw [hlive]
    intro w hw
    rcases List.mem_append.mp hw with hw | hw
    · exact h.writes w hw
    · cases List.mem_singleton.mp hw
      exact ⟨k, hk⟩
  · rw [hlive]
    intro w hw k' hk' hchange'
    rcases List.mem_append.mp hw with hw | hw
    · rcases h.kept w hw k' hk' hchange' with hin | ⟨b, hb, hback⟩
      · exact Or.inl (List.mem_append_left _ hin)
      · exact Or.inr ⟨b, List.mem_append_left _ hb, hback⟩
    · exact Or.inl (List.mem_append_right _ hw)

/-- A `ROLLBACK` that undoes only changes of its own operation. -/
theorem rollback (h : JournalInv c₀ log e.pre) (hback : e.call.effect = .rollsBack)
    {d : Db} (hopen : e.pre.saved = some d) (hdb : e.post.db = d) (hclosed : e.post.saved = none)
    (hown : ∀ w ∈ (journal log).uncommitted, w.tid = e.tid) :
    JournalInv c₀ (log ++ [e]) e.post := by
  have hjournal : journal (log ++ [e]) = (journal log).rollback := by
    simp [journal_snoc, journalStep, hback, hopen]
  have hcommitted : (journal log).committed.Sublist (journal log).live :=
    List.sublist_append_left _ _
  refine ⟨?_, ?_, ?_, ?_⟩
  · have hexplains := h.explains
    rw [hopen] at hexplains
    rw [hjournal, hdb, hclosed]
    exact hexplains.rollback
  · rw [hjournal, Journal.live_rollback]
    exact (hcommitted.trans h.inOrder).trans (List.sublist_append_left log [e])
  · rw [hjournal, Journal.live_rollback]
    exact fun w hw => h.writes w (hcommitted.subset hw)
  · rw [hjournal, Journal.live_rollback]
    intro w hw k hk hchange
    rcases List.mem_append.mp hw with hw | hw
    · rcases h.kept w hw k hk hchange with hin | ⟨b, hb, hbback⟩
      -- committed changes stay; the others are undone by their own operation
      · rcases List.mem_append.mp hin with hin | hin
        · exact Or.inl hin
        · exact Or.inr ⟨e, List.mem_append_right _ (List.mem_singleton_self e),
            (hown w hin).symm, hback⟩
      · exact Or.inr ⟨b, List.mem_append_left _ hb, hbback⟩
    · cases List.mem_singleton.mp hw
      cases hback.symm.trans hk

theorem step (h : JournalInv c₀ log e.pre) (heffect : e.call.effect.Allows e.pre e.post)
    (hmixed : e.call.effect ≠ .mixed)
    (hown : e.call.effect = .rollsBack → e.pre.saved ≠ none →
      ∀ w ∈ (journal log).uncommitted, w.tid = e.tid) : JournalInv c₀ (log ++ [e]) e.post := by
  have hexplains := h.explains
  -- one case per kind of call; `mixed` texts are excluded
  cases he : e.call.effect with
  | neutral =>
    rw [he] at heffect
    obtain ⟨hdb, hsaved⟩ := heffect
    refine h.same (by simp [journalStep, he]) ?_ (fun k hk => by rw [he] at hk; cases hk)
    rwa [hdb, hsaved]
  | opens =>
    rw [he] at heffect
    obtain ⟨hdb, hsaved⟩ := heffect
    refine h.same (by simp [journalStep, he]) ?_ (fun k hk => by rw [he] at hk; cases hk)
    rcases hsaved with hsaved | ⟨hnone, hsaved⟩
    · rwa [hdb, hsaved]
    · rw [hnone] at hexplains
      rw [hdb, hsaved]
      exact hexplains.begin
  | commits =>
    rw [he] at heffect
    obtain ⟨hdb, hsaved⟩ := heffect
    by_cases hclosed : e.post.saved = none
    · have hj : journalStep (journal log) e = (journal log).commit := by
        simp [journalStep, he, hclosed]
      refine h.keep ?_ (by rw [hj, Journal.live_commit]) (fun k hk => by rw [he] at hk; cases hk)
      rw [hj, hdb, hclosed]
      exact hexplains.commit
    · -- a `COMMIT` without a transaction
      refine h.same (by simp [journalStep, he, hclosed]) ?_ (fun k hk => by rw [he] at hk; cases hk)
      rwa [hdb, hsaved.resolve_right hclosed]
  | rollsBack =>
    rw [he] at heffect
    obtain ⟨hdb, hclosed⟩ := heffect
    cases hopen : e.pre.saved with
    | none =>
      refine h.same (by simp [journalStep, he, hopen]) ?_ (fun k hk => by rw [he] at hk; cases hk)
      rw [hopen] at hdb hexplains
      rw [hdb, hclosed]
      exact hexplains
    | some d =>
      rw [hopen] at hdb
      exact h.rollback he hopen hdb hclosed (hown he (by rw [hopen]; simp))
  | writes k =>
    rw [he] at heffect
    by_cases hchange : e.post.db = e.pre.db
    · -- a write that finds nothing to change is not entered
      refine h.same (by simp [journalStep, he, hchange]) ?_ (fun _ _ => hchange)
      rw [hchange, heffect.1]
      exact hexplains
    · exact h.write he heffect.1 hchange
  | mixed => exact absurd he hmixed

end JournalInv

/-! ## Runs -/

variable [DecidableEq ι] {ops : ι → Op} {c₀ c : Conn} {log : List (SqlEntry ι)}

/-- How far operation `i` has come with its writes. -/
def writePhase (log : List (SqlEntry ι)) (i : ι) : WritePhase :=
  (writeProtocol OpResult.rc).along {} (ownTrace log i)

theorem writePhase_snoc_self (log : List (SqlEntry ι)) (e : SqlEntry ι) :
    writePhase (log ++ [e]) e.tid = (writePhase log e.tid).next e.call.effect := by
  simp only [writePhase, ownTrace_snoc_self, Protocol.along_snoc]
  rfl

theorem writePhase_snoc_other (log : List (SqlEntry ι)) {e : SqlEntry ι} {i : ι}
    (h : e.tid ≠ i) : writePhase (log ++ [e]) i = writePhase log i := by
  simp only [writePhase, ownTrace_snoc_other log h]

/-- What is left of an operation keeps to the protocol. -/
theorem SqlRun.conforms_write (hrun : SqlRun ops c₀ log c) (i : ι) :
    Conforms (writeProtocol OpResult.rc) (writePhase log i)
      (residual (fun i => (ops i).prog) log i) := by
  refine Conforms.interleaved ?_ hrun
  exact Op.conforms_write (ops i)

/-- The kind of its writes is that of each of them, and a rollback is not
    forgotten. -/
theorem SqlRun.phase_of_mem (hrun : SqlRun ops c₀ log c) :
    ∀ e ∈ log, (∀ k, e.call.effect = .writes k → (writePhase log e.tid).wrote = some k) ∧
      (e.call.effect = .rollsBack → (writePhase log e.tid).rolledBack = true) := by
  induction hrun with
  | start => exact fun e he => absurd he List.not_mem_nil
  | @step log c c' i call r hprev hissue hcall ih =>
    have hallowed := (SqlRun.conforms_write hprev i).allowed hissue
    intro e he
    -- calls of others do not touch the phase
    by_cases hi : i = e.tid
    · subst hi
      have hphase := writePhase_snoc_self log ⟨e.tid, call, r, c, c'⟩
      dsimp only at hphase
      rw [hphase]
      rcases List.mem_append.mp he with he | he
      · -- an earlier write: the new call may only write in the same way
        obtain ⟨hwrote, hback⟩ := ih e he
        refine ⟨fun k hk => ?_, fun hk => ?_⟩
        · have hk' := hwrote k hk
          cases hcalleffect : call.effect with
          | writes k' =>
            rcases hallowed.2 k' hcalleffect with hnone | ⟨hsome, -⟩
            · rw [hk'] at hnone
              cases hnone
            · rw [hk'] at hsome
              exact hsome.symm ▸ rfl
          | _ => exact hk'
        · have hback' := hback hk
          cases hcalleffect : call.effect with
          | rollsBack => rfl
          | _ => exact hback'
      · have hcall : call = e.call := by rw [List.mem_singleton.mp he]
        subst hcall
        refine ⟨fun k hk => ?_, fun hk => ?_⟩
        · rw [hk]; rfl
        · rw [hk]; rfl
    · rw [writePhase_snoc_other log (e := ⟨i, call, r, c, c'⟩) hi]
      rcases List.mem_append.mp he with he | he
      · exact ih e he
      · rw [List.mem_singleton.mp he] at hi
        exact absurd rfl hi

/-- Two writes of one operation are of one kind, and neither is an update. -/
theorem SqlRun.kinds (hrun : SqlRun ops c₀ log c) :
    log.Pairwise fun e e' => e.tid = e'.tid → ∀ k k', e.call.effect = .writes k →
      e'.call.effect = .writes k' → k = k' ∧ k' ≠ .update := by
  induction hrun with
  | start => exact List.Pairwise.nil
  | @step log c c' i call r hprev hissue hcall ih =>
    have hallowed := (SqlRun.conforms_write hprev i).allowed hissue
    refine List.pairwise_append.mpr ⟨ih, List.pairwise_singleton _ _, ?_⟩
    intro e he e' he' htid k k' hk hk'
    cases List.mem_singleton.mp he'
    have hwrote := (SqlRun.phase_of_mem hprev e he).1 k hk
    rw [htid] at hwrote
    rcases hallowed.2 k' hk' with hnone | ⟨hsome, hupdate⟩
    · rw [hwrote] at hnone
      cases hnone
    · rw [hwrote] at hsome
      exact ⟨Option.some.inj hsome, hupdate⟩

/-- An operation that reported `SQLITE_OK` has not rolled back. -/
theorem SqlRun.not_rolledBack (hrun : SqlRun ops c₀ log c) {i : ι} {res : OpResult}
    (hres : reported ops log i = some res) (hok : res.rc = .ok) {b : SqlEntry ι} (hb : b ∈ log)
    (hi : b.tid = i) : b.call.effect ≠ .rollsBack := by
  intro hback
  have hphase := (SqlRun.phase_of_mem hrun b hb).2 hback
  have hdone := SqlRun.conforms_write hrun i
  rw [eq_ret_of_result hres] at hdone
  rw [hi] at hphase
  exact hdone hphase hok

theorem SqlRun.journalInv (hrun : SqlRun ops c₀ log c) (hauto : c₀.saved = none)
    (hown : OwnRollbacks log) : JournalInv c₀ log c := by
  induction hrun with
  | start => exact JournalInv.start hauto
  | @step log c c' i call r hprev hissue hcall ih =>
    obtain ⟨hmodel, hback⟩ := hown.last
    have hallowed := (SqlRun.conforms_write hprev i).allowed hissue
    exact (ih hown.prev).step (e := ⟨i, call, r, c, c'⟩) (hcall.effect hmodel) hallowed.1 hback

/-- Every call of a run did what its effect allows. -/
theorem SqlRun.effect (hrun : SqlRun ops c₀ log c) (hown : OwnRollbacks log) :
    ∀ e ∈ log, e.call.effect.Allows e.pre e.post ∧ e.call.effect ≠ .mixed := by
  induction hrun with
  | start => exact fun e he => absurd he List.not_mem_nil
  | @step log c c' i call r hprev hissue hcall ih =>
    intro e he
    rcases List.mem_append.mp he with he | he
    · exact ih hown.prev e he
    · cases List.mem_singleton.mp he
      exact ⟨hcall.effect hown.last.1,
        ((SqlRun.conforms_write hprev i).allowed hissue).1⟩

/-- What a call of an acknowledged operation brought about still holds, or a
    later write ended it. -/
theorem SqlRun.change_kept (hrun : SqlRun ops c₀ log c) (hauto : c₀.saved = none)
    (hown : OwnRollbacks log) {res : OpResult} {e : SqlEntry ι}
    (hres : reported ops log e.tid = some res) (hok : res.rc = .ok) (he : e ∈ log)
    (P : Db → Prop) (hpre : ¬ P e.pre.db) (hpost : P e.post.db) :
    ∃ k, e.call.effect = .writes k ∧ (P c.db ∨ ∃ e' k', [e, e'].Sublist log ∧
      e'.call.effect = .writes k' ∧ (e'.tid = e.tid → k = k' ∧ k' ≠ .update) ∧
      P e'.pre.db ∧ ¬ P e'.post.db) := by
  have hinv := hrun.journalInv hauto hown
  have hchange : e.post.db ≠ e.pre.db := fun h => hpre (h ▸ hpost)
  have hnotback := hrun.not_rolledBack hres hok he rfl
  obtain ⟨heffect, hmixed⟩ := hrun.effect hown e he
  -- only a write changes rows and is not a rollback
  obtain ⟨k, hk⟩ : ∃ k, e.call.effect = .writes k := by
    cases hcase : e.call.effect with
    | writes k => exact ⟨k, rfl⟩
    | rollsBack => exact absurd hcase hnotback
    | mixed => exact absurd hcase hmixed
    | _ =>
      rw [hcase] at heffect
      exact absurd heffect.1 hchange
  have hlive : e ∈ (journal log).live := by
    rcases hinv.kept e he k hk hchange with hin | ⟨b, hb, htid, hback⟩
    · exact hin
    · exact absurd hback (hrun.not_rolledBack hres hok hb htid)
  refine ⟨k, hk, ?_⟩
  rcases hinv.explains.live.lost P hlive hpost with hkept | ⟨e', hsub, hend⟩
  · exact Or.inl hkept
  · have hlog : [e, e'].Sublist log := hsub.trans hinv.inOrder
    obtain ⟨k', hk'⟩ := hinv.writes e' (hsub.subset (by simp))
    have hpair := List.pairwise_pair.mp (hrun.kinds.sublist hlog)
    exact Or.inr ⟨e', k', hlog, hk', fun htid => hpair htid.symm k k' hk hk', hend⟩

/-- A statement in the phase is that of a call of the trace. -/
theorem mem_along_execute {α : Type} {code : α → Rc} {must : Bool} {ss made : List Stmt} {s : Stmt}
    {tr : List (SqlCall × Reply)} (h : s ∈ (executeProtocol code must ss).along made tr) :
    s ∈ made ∨ ∃ x ∈ tr, x.1.stmt = some s ∧ (must = true → x.1.settles x.2 = true) := by
  induction tr generalizing made with
  | nil => exact Or.inl h
  | cons x tr ih =>
    rcases ih h with hmade | ⟨y, hy, hs⟩
    · simp only [executeProtocol] at hmade
      split at hmade
      · exact Or.inl hmade
      · rename_i hsettles
        refine (List.mem_append.mp hmade).imp_right fun hin => ?_
        exact ⟨x, List.mem_cons_self .., Option.mem_toList.mp hin, fun hmust => by
          simpa [hmust] using hsettles⟩
    · exact Or.inr ⟨y, List.mem_cons_of_mem _ hy, hs⟩

theorem Op.writes_effect {op : Op} {s : Stmt} (h : s ∈ op.writes) : ∃ k, s.effect = .writes k := by
  cases op <;> simp only [Op.writes, List.mem_cons, List.not_mem_nil, or_false] at h
  all_goals
    first
    | (subst h; exact ⟨_, rfl⟩)
    | (rcases h with rfl | rfl; all_goals exact ⟨_, rfl⟩)
    | (rcases h with rfl | rfl | rfl; all_goals exact ⟨_, rfl⟩)

/-- A successful call has run its statement. -/
theorem Answers.run {c c' : Conn} {call : SqlCall} {r : Reply} (h : Answers c call c' r)
    (hmodel : call.Modelled) {s : Stmt} (hs : call.stmt = some s) (hr : call.succeeds r = true) :
    (s.run c).2 = .ok ∧ c' = (s.run c).1 := by
  cases h.outcome hmodel with
  | ran hstmt hsuccess =>
    obtain rfl := Option.some.inj (hs.symm.trans hstmt)
    exact ⟨of_decide_eq_true (hsuccess.symm.trans hr), rfl⟩
  | failed _ _ hfail => cases hr.symm.trans hfail
  | began fk => cases hs
  | notBegan fk => cases hs
  | passive _ hnone => cases hs.symm.trans hnone
  | mixed hmixed =>
    rcases SqlCall.eq_of_stmt hs with rfl | rfl
    all_goals cases s <;> cases hmixed

/-- An operation that reported `SQLITE_OK` has executed its statements. -/
theorem SqlRun.executed (hrun : SqlRun ops c₀ log c) (hown : OwnRollbacks log)
    (hupdates : UpdatesSucceed ops log) {i : ι} {res : OpResult}
    (hres : reported ops log i = some res) (hok : res.rc = .ok) :
    ∀ s ∈ (ops i).writes, Executed log i s := by
  intro s hs
  have hdone : Conforms (executeProtocol OpResult.rc (!(ops i).isUpdate) (ops i).writes)
      ((executeProtocol OpResult.rc (!(ops i).isUpdate) (ops i).writes).along [] (ownTrace log i))
      (residual (fun i => (ops i).prog) log i) := by
    refine Conforms.interleaved ?_ hrun
    exact Op.conforms_execute (ops i)
  rw [eq_ret_of_result hres] at hdone
  -- what was called was run
  have hcalled : ∀ s, s ∈ (executeProtocol OpResult.rc (!(ops i).isUpdate) (ops i).writes).along []
      (ownTrace log i) → ∃ e ∈ log, e.tid = i ∧ e.call.stmt = some s ∧ e.call.Modelled ∧
        (s.run e.pre).2 = .ok ∧ e.post = (s.run e.pre).1 := by
    intro s hs
    obtain ⟨x, hx, hstmt, hsettles⟩ := (mem_along_execute hs).resolve_left (by simp)
    obtain ⟨e, hown', rfl⟩ := List.mem_map.mp hx
    obtain ⟨he, htid⟩ := List.mem_filter.mp hown'
    obtain rfl : e.tid = i := of_decide_eq_true htid
    obtain ⟨before, behind, hlog⟩ := List.append_of_mem he
    obtain ⟨-, -, hcall⟩ := Interleaved.before hrun hlog
    have hmodel := (hown before e behind hlog).1
    have hsucceeds : e.call.succeeds e.reply = true := by
      cases hupdate : (ops e.tid).isUpdate with
      | true => exact hupdates e he hupdate
      | false =>
        by_contra hfail
        have hrc := hcall.rc_ne_ok hmodel (Bool.eq_false_of_not_eq_true hfail)
        have hsettled := hsettles (by simp [hupdate])
        simp [SqlCall.settles, hfail, hrc] at hsettled
    obtain ⟨hrunok, hpost⟩ := hcall.run hmodel hstmt hsucceeds
    exact ⟨e, he, rfl, hstmt, hmodel, hrunok, hpost⟩
  rcases hdone hok s hs with hin | hin | hin
  · obtain ⟨e, he, htid, hstmt, -, hrunok, hpost⟩ := hcalled s hin
    obtain ⟨k, hk⟩ := Op.writes_effect hs
    refine ⟨e, he, htid, hstmt, ?_⟩
    rcases Stmt.run_of_writes hk e.pre with ⟨x, happly, hrun'⟩ | ⟨-, hrun'⟩
    · exact ⟨x, happly, by rw [hpost, hrun']⟩
    · rw [hrun'] at hrunok
      cases hrunok
  · obtain ⟨e, -, -, -, -, hrunok, -⟩ := hcalled _ hin
    cases hrunok
  · obtain ⟨e, -, -, -, -, hrunok, -⟩ := hcalled _ hin
    cases hrunok

end Runs

/-! ## Three operations

    One user opens a group, a second sends a message to another group and a third
    drops an old one. -/

/-- The connection, with two groups and one user. -/
def teamConn : Conn where
  db :=
    { users := [⟨1, .ofBytes (ascii "an"), .ofBytes (ascii "x"), default, default⟩]
      conversations := [⟨1, 1, .ofBytes (ascii "team")⟩, ⟨2, 1, .ofBytes (ascii "old")⟩] }

def teamOps : Fin 3 → Op
  | 0 => .convCreate 1 (.ofBytes (ascii "new"))
  | 1 => .msgSend { fromUid := 1, replyTo := 0, contentType := 0, contentLength := 2,
                    content := .ofBytes (ascii "hi"), convId := 1, chatId := 0 } 100
  | 2 => .convDrop 2

/-- The message sent. -/
def teamMessage : MsgRow where
  id := 1
  fromUid := 1
  replyTo := none
  contentType := 0
  contentLength := 2
  content := .ofBytes (ascii "hi")
  createdAt := 100
  chatId := none
  convId := some 1
  type := .sent

/-- Play a schedule of the three. -/
def teamPlay (schedule : List (Fin 3)) : Option (List (SqlEntry (Fin 3)) × Conn) :=
  play serve (fun i => (teamOps i).prog) [] teamConn schedule

theorem teamPlay_run {schedule : List (Fin 3)} {x : List (SqlEntry (Fin 3)) × Conn}
    (h : teamPlay schedule = some x) : SqlRun teamOps teamConn x.1 x.2 :=
  interleaved_of_play answers_of_serve .start h

end MeshChat
