import MeshChat.Db.Sql

/-! # The insert mutex

    Every operation of `sql.c` is called with the static mutex free. We follow it
    through every operation, against any sequence of replies of its calls.

    * `lockProtocol`: a lock is taken only while it is free, given back by its
      holder, and free at the end.
    * `Op.conforms_lock`: all operations but `conv_create` and `msg_send` keep to
      it, whatever is answered.
    * `session_mutex_free_iff`: after any sequence of operations the mutex is free
      exactly when in each `conv_create` and `msg_send` the insert made under it
      succeeded. These two return without unlocking when it fails, where
      `sql_insert` unlocks.
-/

namespace MeshChat

open CMemory Prog

/-! ## The protocol of the mutex -/

/-- The mutex after a call. -/
def lockStep (held : Bool) : SqlCall → Bool
  | .lock => true
  | .unlock => false
  | _ => held

/-- A lock is taken while it is free and given back by its holder; at the end it
    is in state `final`. -/
def lockProtocol (final : Bool) : Protocol SqlCall Reply OpResult Bool where
  allows held c := (c = .lock → held = false) ∧ (c = .unlock → held = true)
  next held c _ := lockStep held c
  done held _ := held = final

/-- The two operations that keep the mutex when the insert they make under it
    fails. -/
def Op.insertsLocked : Op → Bool
  | convCreate .. | msgSend .. => true
  | _ => false

/-- All other operations keep to the protocol. -/
theorem Op.conforms_lock {op : Op} (h : op.insertsLocked = false) :
    Conforms (lockProtocol false) false op.prog := by
  -- a query never asks for the mutex
  by_cases hq : op.isQuery = true
  · apply (Op.reads hq).conforms
    · intro c hc
      cases c <;> simp_all [lockProtocol, lockStep, SqlCall.IsRead]
    · exact fun _ => rfl
  cases op with
  | userCreate u p h e =>
    simp [Op.prog, MeshChat.userCreate, sqlInsert, map_eq_bind, lockProtocol, lockStep]
  | convJoin u c =>
    simp [Op.prog, MeshChat.convJoin, sqlInsert, map_eq_bind, lockProtocol, lockStep]
  | chatCreate a b =>
    simp [Op.prog, MeshChat.chatCreate, sqlInsert, map_eq_bind, lockProtocol, lockStep]
  | convDrop c =>
    simp [Op.prog, MeshChat.convDrop, commitAfter, rollback, map_eq_bind, lockProtocol, lockStep]
  | chatDrop c =>
    simp [Op.prog, MeshChat.chatDrop, commitAfter, rollback, map_eq_bind, lockProtocol, lockStep]
  | userDrop id =>
    simp [Op.prog, MeshChat.userDrop, map_eq_bind, lockProtocol, lockStep]
  | convQuit u c =>
    simp [Op.prog, MeshChat.convQuit, sqlExec, map_eq_bind, lockProtocol, lockStep]
  | msgDelivered m =>
    simp [Op.prog, MeshChat.msgDelivered, sqlExecIgnored, map_eq_bind, lockProtocol, lockStep]
  | msgDelete m =>
    simp [Op.prog, MeshChat.msgDelete, sqlExecIgnored, map_eq_bind, lockProtocol, lockStep]
  | msgDrop m =>
    simp [Op.prog, MeshChat.msgDrop, sqlExecIgnored, map_eq_bind, lockProtocol, lockStep]
  | convCreate a n => cases h
  | msgSend m t => cases h
  | _ => exact absurd rfl hq

/-! ## Any sequence of operations -/

/-- What a call does to the mutex: `none` is a caller that waits for ever. -/
def acquire : Option Bool → SqlCall × Reply → Option Bool
  | none, _ => none
  | some held, (.lock, _) => if held then none else some true
  | some _, (.unlock, _) => some false
  | some held, _ => some held

/-- The mutex after a sequence of calls. -/
def mutexAfter (m : Option Bool) (tr : List (SqlCall × Reply)) : Option Bool := tr.foldl acquire m

/-- A finished call of an operation: with these replies it returned. -/
structure OpRun where
  op : Op
  replies : List Reply
  returns : ∃ res, op.prog.after replies = ret res

/-- The calls it made. -/
def OpRun.trace (x : OpRun) : List (SqlCall × Reply) := x.op.prog.trace x.replies

/-- In `conv_create` and `msg_send`, if the first `sqlite3_exec` succeeded then so
    did the one behind the lock, the insert (the second call is the lock). -/
def OpRun.InsertSucceeds (x : OpRun) : Prop :=
  x.op.insertsLocked = true → (x.replies[0]?).map (·.rc) = some .ok →
    (x.replies[2]?).map (·.rc) = some .ok

theorem acquire_of_allows {held final : Bool} {c : SqlCall}
    (h : (lockProtocol final).allows held c) (r : Reply) :
    acquire (some held) (c, r) = some (lockStep held c) := by
  cases c with
  | lock => simp [acquire, lockStep, h.1 rfl]
  | unlock => rfl
  | _ => rfl

/-- A program that keeps to the protocol never waits for itself, and leaves the
    mutex as the protocol says. -/
theorem mutexAfter_of_conforms {p : SqlProg OpResult} {held final : Bool}
    (hp : Conforms (lockProtocol final) held p) {rs : List Reply} {res : OpResult}
    (hret : p.after rs = ret res) : mutexAfter (some held) (p.trace rs) = some final := by
  induction rs generalizing p held with
  | nil =>
    rw [after_nil] at hret
    subst hret
    exact congrArg some hp
  | cons r rs ih =>
    cases hissue : p.issue with
    | none =>
      obtain ⟨a, rfl⟩ := eq_ret_of_issue hissue
      rw [trace_ret]
      exact congrArg some hp
    | some c =>
      have hstep := acquire_of_allows (hp.allowed hissue) r
      rw [trace_cons hissue]
      simp only [mutexAfter, List.foldl_cons, hstep]
      exact ih (hp.resume hissue r) hret

/-- The common shape of `conv_create` and `msg_send`: a first call, the lock, the
    insert under it, and the unlock only if that succeeded. -/
def lockedInsert (first : List Stmt) (insert : Stmt) (fail : Rc → SqlProg OpResult)
    (succeed : Nat → SqlProg OpResult) : SqlProg OpResult :=
  .call (.exec first) fun r =>
    if r.rc ≠ .ok then .ret { rc := r.rc } else
    .call .lock fun _ => .call (.exec [insert]) fun r => .call .lastInsertRowid fun newid =>
      if r.rc ≠ .ok then fail r.rc else .call .unlock fun _ => succeed newid.rowid

/-- `ROLLBACK()` and the report of the failure. -/
def rollbackReport (rc : Rc) : SqlProg OpResult := .call (.exec [.rollback]) fun _ => .ret { rc }

/-- `conv_create` behind its unlock. -/
def convCreateTail (adminId : UInt32) (newid : Nat) : SqlProg OpResult :=
  .call (.exec [.insertMemberOfLast adminId.toNat]) fun r =>
    if r.rc ≠ .ok then rollbackReport r.rc else
    .call (.exec [.commit]) fun r =>
      if r.rc ≠ .ok then rollbackReport r.rc else .ret ⟨.ok, UInt32.ofNat newid⟩

theorem Op.prog_convCreate (a : UInt32) (n : CStr) :
    (convCreate a n).prog =
      lockedInsert [.pragmaForeignKeysOn, .begin]
        ((TextQuery.convCreate a n).insertStmt (.insertConversation a.toNat n)) rollbackReport
        (convCreateTail a) := by
  simp [prog, MeshChat.convCreate, lockedInsert, convCreateTail, rollbackReport, rollback,
    map_eq_bind, OpResult.ofId]

theorem Op.prog_msgSend (m : MsgSchema) (now : UInt32) :
    (msgSend m now).prog =
      lockedInsert [.pragmaForeignKeysOn] (msgSendStmt m now) (fun rc => .ret { rc })
        (fun newid => .ret ⟨.ok, UInt32.ofNat newid⟩) := by
  simp [prog, MeshChat.msgSend, lockedInsert, map_eq_bind, OpResult.ofId]

section LockedInsert

variable {first : List Stmt} {insert : Stmt} {fail : Rc → SqlProg OpResult}
  {succeed : Nat → SqlProg OpResult}

/-- The mutex after a locked insert that returned. -/
theorem lockedInsert_mutexAfter (hfail : ∀ rc, Conforms (lockProtocol true) true (fail rc))
    (hsucceed : ∀ n, Conforms (lockProtocol false) false (succeed n)) {rs : List Reply}
    {res : OpResult} (hret : (lockedInsert first insert fail succeed).after rs = ret res) :
    mutexAfter (some false) ((lockedInsert first insert fail succeed).trace rs) =
      some (decide ((rs[0]?).map (·.rc) = some .ok ∧ (rs[2]?).map (·.rc) ≠ some .ok)) := by
  -- the program cannot have returned before its fourth reply unless the first call failed
  cases rs with
  | nil => cases hret
  | cons r₀ rs =>
    by_cases h₀ : r₀.rc = .ok
    · rcases rs with _ | ⟨r₁, _ | ⟨r₂, _ | ⟨n, rs⟩⟩⟩
      · simp [lockedInsert, Prog.resume, h₀] at hret
      · simp [lockedInsert, Prog.resume, h₀] at hret
      · simp [lockedInsert, Prog.resume, h₀] at hret
      by_cases h₂ : r₂.rc = .ok
      · cases rs with
        | nil => simp [lockedInsert, Prog.resume, h₀, h₂] at hret
        | cons r rs =>
          have hrest : (succeed n.rowid).after rs = ret res := by
            simpa [lockedInsert, Prog.resume, h₀, h₂] using hret
          simpa [lockedInsert, h₀, h₂, mutexAfter, acquire]
            using mutexAfter_of_conforms (hsucceed n.rowid) hrest
      · have hrest : (fail r₂.rc).after rs = ret res := by
          simpa [lockedInsert, Prog.resume, h₀, h₂] using hret
        simpa [lockedInsert, h₀, h₂, mutexAfter, acquire]
          using mutexAfter_of_conforms (hfail r₂.rc) hrest
    · simp [lockedInsert, h₀, mutexAfter, acquire]

end LockedInsert

theorem convCreateTail_conforms_lock (a : UInt32) (n : Nat) :
    Conforms (lockProtocol false) false (convCreateTail a n) := by
  simp [convCreateTail, rollbackReport, lockProtocol, lockStep]

/-- The mutex after an operation that was called with it free. -/
theorem OpRun.mutexAfter_trace (x : OpRun) :
    (x.InsertSucceeds → mutexAfter (some false) x.trace = some false) ∧
      (¬ x.InsertSucceeds → mutexAfter (some false) x.trace = some true) := by
  obtain ⟨op, rs, res, hres⟩ := x
  cases op with
  | convCreate a n =>
    rw [Op.prog_convCreate] at hres
    have hmutex := lockedInsert_mutexAfter
      (fun rc => by simp [rollbackReport, lockProtocol, lockStep])
      (convCreateTail_conforms_lock a) hres
    simp only [OpRun.trace, Op.prog_convCreate, hmutex, InsertSucceeds, Op.insertsLocked]
    simp only [Option.some.injEq, decide_eq_false_iff_not, decide_eq_true_eq, true_implies]
    tauto
  | msgSend m t =>
    rw [Op.prog_msgSend] at hres
    have hmutex := lockedInsert_mutexAfter (fun rc => by simp [lockProtocol])
      (fun n => by simp [lockProtocol]) hres
    simp only [OpRun.trace, Op.prog_msgSend, hmutex, InsertSucceeds, Op.insertsLocked]
    simp only [Option.some.injEq, decide_eq_false_iff_not, decide_eq_true_eq, true_implies]
    tauto
  | _ =>
    refine ⟨fun _ => mutexAfter_of_conforms (Op.conforms_lock rfl) hres, fun h => absurd ?_ h⟩
    exact fun hlocked => Bool.noConfusion hlocked

/-! A leaked mutex is not given back by anybody: an operation unlocks only what
    it has locked, and locking waits. -/

/-- An unlock comes behind the operation's own lock. -/
def ownLockProtocol : Protocol SqlCall Reply OpResult Bool where
  allows held c := c = .unlock → held = true
  next held c _ := lockStep held c
  done _ _ := True

theorem Op.conforms_ownLock (op : Op) : Conforms ownLockProtocol false op.prog := by
  cases op with
  | convCreate a n =>
    simp [prog_convCreate, lockedInsert, convCreateTail, rollbackReport, ownLockProtocol, lockStep]
  | msgSend m t => simp [prog_msgSend, lockedInsert, ownLockProtocol, lockStep]
  | _ =>
    exact (Op.conforms_lock rfl).mono (fun _ _ h => h.2) (fun _ _ _ => rfl) (fun _ _ _ => trivial)

theorem mutexAfter_none (tr : List (SqlCall × Reply)) : mutexAfter none tr = none := by
  induction tr with
  | nil => rfl
  | cons x tr ih => exact ih

/-- Once the mutex is leaked no operation frees it. -/
theorem mutexAfter_leaked {p : SqlProg OpResult} (hp : Conforms ownLockProtocol false p)
    (rs : List Reply) :
    mutexAfter (some true) (p.trace rs) = some true ∨ mutexAfter (some true) (p.trace rs) = none := by
  induction rs generalizing p with
  | nil => rw [trace_nil]; exact Or.inl rfl
  | cons r rs ih =>
    cases hissue : p.issue with
    | none =>
      obtain ⟨a, rfl⟩ := eq_ret_of_issue hissue
      rw [trace_ret]
      exact Or.inl rfl
    | some c =>
      have hallowed := hp.allowed hissue
      have hnext := hp.resume hissue r
      rw [trace_cons hissue]
      cases c with
      | lock => exact Or.inr (mutexAfter_none _)
      | unlock => cases hallowed rfl
      | _ => exact ih hnext

theorem session_leaked (session : List OpRun) {m : Option Bool} (hm : m = some true ∨ m = none) :
    mutexAfter m (session.flatMap OpRun.trace) ≠ some false := by
  induction session generalizing m with
  | nil => rcases hm with rfl | rfl <;> simp [mutexAfter]
  | cons x session ih =>
    rw [List.flatMap_cons, mutexAfter, List.foldl_append]
    apply ih
    rcases hm with rfl | rfl
    · exact mutexAfter_leaked x.op.conforms_ownLock x.replies
    · exact Or.inr (mutexAfter_none _)

/-- **Lock discipline.** After any finite sequence of operations, started with
    the mutex free and with any replies of their calls, the mutex is free exactly
    when in every `conv_create` and `msg_send` the insert under it succeeded. -/
theorem session_mutex_free_iff (session : List OpRun) :
    mutexAfter (some false) (session.flatMap OpRun.trace) = some false ↔
      ∀ x ∈ session, x.InsertSucceeds := by
  induction session with
  | nil => simp [mutexAfter]
  | cons x session ih =>
    rw [List.flatMap_cons, mutexAfter, List.foldl_append]
    by_cases hx : x.InsertSucceeds
    · have hfree : x.trace.foldl acquire (some false) = some false := x.mutexAfter_trace.1 hx
      rw [hfree, List.forall_mem_cons, ← ih]
      exact ⟨fun h => ⟨hx, h⟩, fun h => h.2⟩
    · have hleaked : x.trace.foldl acquire (some false) = some true := x.mutexAfter_trace.2 hx
      rw [hleaked]
      constructor
      · intro h
        exact absurd h (session_leaked session (Or.inl rfl))
      · intro h
        exact absurd (h x (List.mem_cons_self ..)) hx

/-- A message that answers a missing one: the insert violates a constraint. -/
def invalidReply : OpRun where
  op := .msgSend { fromUid := 1, replyTo := 1000, contentType := 0, contentLength := 2,
                   content := .ofBytes (ascii "hi"), convId := 1, chatId := 0 } 0
  replies := [{}, {}, { rc := .constraint }, {}]
  returns := ⟨{ rc := .constraint }, rfl⟩

/-- It leaves the mutex locked, and the next `conv_join` waits for ever. -/
theorem invalidReply_leaks :
    mutexAfter (some false) invalidReply.trace = some true ∧
      acquire (some true) (.lock, {}) = none := by
  constructor <;> decide

end MeshChat
