import MeshChat.Db.Durability
import MeshChat.Db.SqlSpec

/-! # What the operations report

    Two things a caller relies on when it looks at `*lastrc`.

    * `errors_reported_iff`: for every operation and any replies of its calls, `sql_is_err` of
      the reported code says whether a call has failed, exactly as long as no failing call is
      one whose code the operation overwrites: a step of a list, or the statement of
      `msg_delivered`, `msg_delete` and `msg_drop`.
    * `operations_atomic`: `conv_create`, `conv_drop` and `chat_drop` report success with all
      their statements executed or an error with none of them, and leave no transaction open.
-/

namespace MeshChat

open CMemory SqlLex Prog

/-! ## Failing calls -/

/-- A call that is needed for the result has failed. `calloc` reports so with a null pointer;
    a `ROLLBACK` comes when the result is settled. -/
def SqlCall.fails (call : SqlCall) (r : Reply) : Bool :=
  match call with
  | calloc => r.rc = .nomem
  | exec stmts => stmts ≠ [.rollback] && sqlIsErr r.rc
  | prepare _ | step _ | prepareQuery _ | fetch _ _ => sqlIsErr r.rc
  | lastInsertRowid | lock | unlock => false

/-- A call of the trace has failed. -/
def Failed (tr : List (SqlCall × Reply)) : Prop := ∃ x ∈ tr, x.1.fails x.2 = true

/-- The operations that read a list. -/
def Op.isList : Op → Bool
  | userSearchByUname .. | userGetConvList .. | userGetChatList .. | convGetMembers ..
  | msgConvGetAll .. | msgChatGetAll .. | msgGetMsgSent .. | msgGetMsgDel .. => true
  | _ => false

/-- The calls whose code the operation overwrites with `SQLITE_OK`. -/
def Op.overwrites (op : Op) : SqlCall → Bool
  | .fetch _ _ => op.isList
  | .exec _ => op.isUpdate
  | _ => false

theorem Op.prog_isList {op : Op} (h : op.isList = true) :
    ∃ q, op.prog = OpResult.ofRc <$> sqlGetList q := by
  cases op with
  | userSearchByUname s l o => exact ⟨_, rfl⟩
  | userGetConvList u l o => exact ⟨_, rfl⟩
  | userGetChatList u l o => exact ⟨_, rfl⟩
  | convGetMembers c => exact ⟨_, rfl⟩
  | msgConvGetAll c l o => exact ⟨_, rfl⟩
  | msgChatGetAll c l o => exact ⟨_, rfl⟩
  | msgGetMsgSent u => exact ⟨_, rfl⟩
  | msgGetMsgDel u c d => exact ⟨_, rfl⟩
  | _ => cases h

theorem Op.prog_isUpdate {op : Op} (h : op.isUpdate = true) :
    ∃ s, op.prog = (⟨·, 0⟩) <$> sqlExecIgnored s := by
  cases op with
  | msgDelivered m => exact ⟨_, rfl⟩
  | msgDelete m => exact ⟨_, rfl⟩
  | msgDrop m => exact ⟨_, rfl⟩
  | _ => cases h

/-! ## A protocol for reports -/

/-- The phase is whether a call has failed, leaving out those that are overwritten; at the end
    the reported code says so. -/
def reportProtocol {α : Type} (overwrites : SqlCall → Bool) (code : α → Rc) :
    Protocol SqlCall Reply α Bool where
  allows _ _ := True
  next failed c r := failed || (!overwrites c && c.fails r)
  done failed a := sqlIsErr (code a) = failed

/-- The program reports exactly the failures of its calls. -/
abbrev Reports {α : Type} (code : α → Rc) (p : SqlProg α) : Prop :=
  Conforms (reportProtocol (fun _ => false) code) false p

@[simp] theorem sqlIsErr_ok : sqlIsErr .ok = false := rfl

@[simp] theorem sqlIsErr_row : sqlIsErr .row = false := rfl

@[simp] theorem sqlIsErr_done : sqlIsErr .done = false := rfl

/-- `SQLITE_DONE` in place of a row is reported as `SQLITE_EMPTY`, which is no error. -/
theorem sqlIsErr_emptied (rc : Rc) : sqlIsErr (if rc = .done then .empty else rc) = sqlIsErr rc := by
  split
  · rename_i h
    rw [h]
    rfl
  · rfl

theorem reports_sqlInsert (s : Stmt) : Reports Prod.snd (sqlInsert s) := by
  simp +contextual [sqlInsert, reportProtocol, SqlCall.fails]

theorem reports_sqlFirstRow {α : Type} (q : Query) (f : List Val → α) :
    Reports Prod.snd (sqlFirstRow q f) := by
  simp +contextual [sqlFirstRow, reportProtocol, SqlCall.fails, sqlIsErr_emptied]

theorem reports_sqlExists (q : Query) : Reports Prod.snd (sqlExists q) := by
  simp +contextual [sqlExists, sqlFirstRow, reportProtocol, SqlCall.fails, sqlIsErr_emptied]

theorem reports_sqlGetInfo {α : Type} (q : Query) (f : List Val → α) :
    Reports Prod.snd (sqlGetInfo q f) := by
  have hrow := reports_sqlFirstRow q f
  simp only [sqlGetInfo, invoke_bind, pure_eq, conforms_call, conforms_ite, conforms_ret]
  refine ⟨trivial, fun r => ⟨fun hnomem => ?_, fun hok => ?_⟩⟩
  · simp [reportProtocol, SqlCall.fails, hnomem, sqlIsErr, sqlIsOk]
  · -- the memory is there: nothing has failed so far
    have hphase : (reportProtocol (fun _ => false) (Prod.snd (α := Option α))).next false .calloc r =
        false := by
      simp [reportProtocol, SqlCall.fails, hok]
    rw [hphase]
    exact hrow

/-- A transaction reports the failure that made it roll back. -/
theorem reports_commitAfter {ss : List Stmt} (hss : .rollback ∉ ss) :
    Reports id (commitAfter ss) := by
  induction ss with
  | nil => simp +contextual [commitAfter, rollback, reportProtocol, SqlCall.fails]
  | cons s ss ih =>
    obtain ⟨hs, hss⟩ := not_or.mp (mt List.mem_cons.mpr hss)
    simp only [commitAfter, rollback, invoke_bind, pure_eq, conforms_call, conforms_ite]
    refine ⟨trivial, fun r => ⟨fun hfail => ?_, fun hok => ?_⟩⟩
    · simp [reportProtocol, SqlCall.fails, Ne.symm hs]
    · have hphase : (reportProtocol (fun _ => false) id).next false (.exec [s]) r = false := by
        simp [reportProtocol, SqlCall.fails, not_not.mp hok]
      rw [hphase]
      exact ih hss

theorem TextQuery.insertStmt_ne_rollback (q : TextQuery) {s : Stmt} (hs : s ≠ .rollback) :
    q.insertStmt s ≠ .rollback := by
  unfold insertStmt
  split
  · simp
  · split
    · exact hs
    · simp

theorem reports_convCreate (a : UInt32) (n : CStr) : Reports Prod.snd (convCreate a n) := by
  have hinsert : (TextQuery.convCreate a n).insertStmt (.insertConversation a.toNat n) ≠
      .rollback := TextQuery.insertStmt_ne_rollback _ (by simp)
  simp +contextual [convCreate, rollback, reportProtocol, SqlCall.fails, hinsert]

theorem reports_msgSend (m : MsgSchema) (now : UInt32) : Reports Prod.snd (msgSend m now) := by
  have hinsert : msgSendStmt m now ≠ .rollback := TextQuery.insertStmt_ne_rollback _ (by simp)
  simp +contextual [msgSend, reportProtocol, SqlCall.fails, hinsert]

theorem reports_drop {ss : List Stmt} (hss : .rollback ∉ ss) :
    Reports id (do
      let r ← invoke (.exec [.begin])
      if r.rc ≠ .ok then
        let (_, rc) ← rollback () r.rc
        return rc
      else commitAfter ss) := by
  have hrest := reports_commitAfter hss
  simp only [rollback, invoke_bind, pure_eq, conforms_call, conforms_ite]
  refine ⟨trivial, fun r => ⟨fun hfail => ?_, fun hok => ?_⟩⟩
  · simp [reportProtocol, SqlCall.fails]
  · have hphase : (reportProtocol (fun _ => false) id).next false (.exec [.begin]) r = false := by
      simp [reportProtocol, SqlCall.fails, not_not.mp hok]
    rw [hphase]
    exact hrest

/-- The operations that overwrite nothing report what happened. -/
theorem Op.reports {op : Op} (hlist : op.isList = false) (hupdate : op.isUpdate = false) :
    Reports OpResult.rc op.prog := by
  cases op with
  | userGetById id => exact Conforms.map (reports_sqlGetInfo _ _)
  | userGetByUname s => exact Conforms.map (reports_sqlGetInfo _ _)
  | userCreate u p h e => exact Conforms.map (reports_sqlInsert _)
  | userDrop id =>
    simp +contextual [prog, MeshChat.userDrop, map_eq_bind, reportProtocol, SqlCall.fails]
  | convCreate a n => exact Conforms.map (reports_convCreate a n)
  | convIsAdmin c u => exact Conforms.map (reports_sqlExists _)
  | convIsMember c u => exact Conforms.map (reports_sqlExists _)
  | convDrop c => exact Conforms.map (reports_drop (by simp))
  | convJoin u c =>
    simp +contextual [prog, MeshChat.convJoin, sqlInsert, map_eq_bind, reportProtocol, SqlCall.fails]
  | convQuit u c =>
    simp [prog, MeshChat.convQuit, sqlExec, map_eq_bind, reportProtocol, SqlCall.fails]
  | convGetInfo c => exact Conforms.map (reports_sqlGetInfo _ _)
  | chatCreate a b =>
    simp +contextual [prog, MeshChat.chatCreate, sqlInsert, map_eq_bind, OpResult.ofId,
      reportProtocol, SqlCall.fails]
  | chatIsMember c u => exact Conforms.map (reports_sqlExists _)
  | chatDrop c => exact Conforms.map (reports_drop (by simp))
  | chatGetInfo c => exact Conforms.map (reports_sqlGetInfo _ _)
  | msgGetDetail m => exact Conforms.map (reports_sqlGetInfo _ _)
  | msgSend m now => exact Conforms.map (reports_msgSend m now)
  | msgDelivered m => cases hupdate
  | msgDelete m => cases hupdate
  | msgDrop m => cases hupdate
  | _ => cases hlist

/-! ## What an operation reports -/

section Reported

variable {op : Op} {rs : List Reply} {res : OpResult}

/-- Along a trace the phase is whether a call that counts has failed. -/
theorem along_reportProtocol {α : Type} {code : α → Rc} {ow : SqlCall → Bool}
    (tr : List (SqlCall × Reply)) (failed : Bool) :
    (reportProtocol ow code).along failed tr =
      (failed || tr.any fun x => !ow x.1 && x.1.fails x.2) := by
  induction tr generalizing failed with
  | nil => simp [Protocol.along]
  | cons x tr ih =>
    have hstep : (reportProtocol ow code).along failed (x :: tr) =
        (reportProtocol ow code).along (failed || (!ow x.1 && x.1.fails x.2)) tr := rfl
    rw [hstep, ih, List.any_cons, Bool.or_assoc]

/-- Without overwritten calls the report is right. -/
theorem Op.reported (hlist : op.isList = false) (hupdate : op.isUpdate = false)
    (hret : op.prog.after rs = ret res) :
    sqlIsErr res.rc = true ↔ Failed (op.prog.trace rs) := by
  have hdone := (Op.reports hlist hupdate).returned rs hret
  rw [along_reportProtocol] at hdone
  have hcode : sqlIsErr res.rc = (op.prog.trace rs).any fun x => x.1.fails x.2 := by
    simpa [reportProtocol] using hdone
  rw [hcode, List.any_eq_true]
  rfl

/-- The loop of a list: it makes steps of its query and reports `SQLITE_OK`. -/
def listProtocol (q : Query) : Protocol SqlCall Reply OpResult Unit where
  allows _ c := ∃ i, c = .fetch q i
  next _ _ _ := ()
  done _ res := res.rc = .ok

/-- A list is reported as complete as soon as its query is prepared. -/
theorem list_reported {q : Query} (hret : (OpResult.ofRc <$> sqlGetList q).after rs = ret res) :
    ∃ r rows, (OpResult.ofRc <$> sqlGetList q).trace rs = (.prepareQuery q, r) :: rows ∧
      (r.rc ≠ .ok ∧ rows = [] ∧ res.rc = r.rc ∨
        r.rc = .ok ∧ (∀ x ∈ rows, ∃ i, x.1 = .fetch q i) ∧ res.rc = .ok) := by
  simp only [map_eq_bind, sqlGetList, invoke_bind, pure_eq, collect_bind, call_bind, ite_bind,
    ret_bind, drain_bind] at hret ⊢
  cases rs with
  | nil => cases hret
  | cons r rs =>
    rw [after_cons, resume_call] at hret
    rw [trace_call]
    refine ⟨r, _, rfl, ?_⟩
    by_cases hok : r.rc = .ok
    · rw [if_neg (not_not.mpr hok)] at hret ⊢
      have hloop : Conforms (listProtocol q) () (drain (.fetch q) (fun r => decide (r.rc = .row)) []
          fun rows _ => ret (OpResult.ofRc
            (rows.reverse.map fun r => (r.cols.getD 0 .null).columnInt, Rc.ok))) :=
        ⟨fun i => ⟨⟨i, rfl⟩, fun _ => rfl⟩, fun _ _ => rfl⟩
      refine Or.inr ⟨hok, fun x hx => ?_, hloop.returned rs hret⟩
      obtain ⟨_, hfetch⟩ := hloop.trace_allowed rs x hx
      exact hfetch
    · rw [if_pos hok] at hret ⊢
      rw [after_ret] at hret
      cases hret
      exact Or.inl ⟨hok, trace_ret _ _, rfl⟩

/-- The report of a list is right if no step has failed. -/
theorem list_reported_iff {q : Query} (hret : (OpResult.ofRc <$> sqlGetList q).after rs = ret res) :
    (sqlIsErr res.rc = true ↔ Failed ((OpResult.ofRc <$> sqlGetList q).trace rs)) ↔
      ∀ x ∈ (OpResult.ofRc <$> sqlGetList q).trace rs,
        (∃ q' i, x.1 = .fetch q' i) → x.1.fails x.2 = false := by
  obtain ⟨r, rows, htrace, ⟨hfail, rfl, hres⟩ | ⟨hok, hrows, hres⟩⟩ := list_reported hret
  · rw [htrace, hres]
    simp [Failed, SqlCall.fails]
  · have hprepared : SqlCall.fails (.prepareQuery q) r = false := by
      simp [SqlCall.fails, hok]
    rw [htrace, hres]
    constructor
    · intro hreport x hx _
      by_contra hx'
      exact absurd (hreport.mpr ⟨x, hx, by simpa using hx'⟩) (by simp)
    · intro hsteps
      constructor
      · intro herr
        cases herr
      · rintro ⟨x, hx, hfails⟩
        -- neither the prepare nor a step has failed
        rcases List.mem_cons.mp hx with rfl | hrow
        · rw [hprepared] at hfails
          cases hfails
        · obtain ⟨i, hi⟩ := hrows x hrow
          rw [hsteps x hx ⟨q, i, hi⟩] at hfails
          cases hfails

/-- The report of an update is right if its statement has not failed. -/
theorem update_reported_iff {s : Stmt}
    (hret : ((⟨·, 0⟩ : Rc → OpResult) <$> sqlExecIgnored s).after rs = ret res) :
    (sqlIsErr res.rc = true ↔
        Failed (((⟨·, 0⟩ : Rc → OpResult) <$> sqlExecIgnored s).trace rs)) ↔
      ∀ x ∈ ((⟨·, 0⟩ : Rc → OpResult) <$> sqlExecIgnored s).trace rs,
        (∃ ss, x.1 = .exec ss) → x.1.fails x.2 = false := by
  simp only [map_eq_bind, sqlExecIgnored, invoke_bind, pure_eq, call_bind, ret_bind] at hret ⊢
  cases rs with
  | nil => cases hret
  | cons r rs =>
    rw [after_cons, resume_call, after_ret] at hret
    cases hret
    simp [Failed]

theorem Op.overwrites_iff {c : SqlCall} : op.overwrites c = true ↔
    op.isList = true ∧ (∃ q i, c = .fetch q i) ∨ op.isUpdate = true ∧ ∃ ss, c = .exec ss := by
  cases c <;> simp [overwrites]

theorem Op.not_isUpdate_of_isList (h : op.isList = true) : op.isUpdate = false := by
  cases op <;> first | rfl | cases h

/-- **When errors are reported.** For every operation and any replies with which it returns,
    the reported code is an error exactly when a call it needed has failed, if and only if no
    failed call is one whose code it overwrites. -/
theorem errors_reported_iff (hret : op.prog.after rs = ret res) :
    (sqlIsErr res.rc = true ↔ Failed (op.prog.trace rs)) ↔
      ∀ x ∈ op.prog.trace rs, op.overwrites x.1 = true → x.1.fails x.2 = false := by
  cases hlist : op.isList with
  | true =>
    have hupdate := Op.not_isUpdate_of_isList hlist
    obtain ⟨q, hq⟩ := Op.prog_isList hlist
    simp only [Op.overwrites_iff, hlist, hupdate, Bool.false_eq_true, false_and, or_false, true_and]
    rw [hq] at hret ⊢
    exact list_reported_iff hret
  | false =>
    cases hupdate : op.isUpdate with
    | true =>
      obtain ⟨s, hs⟩ := Op.prog_isUpdate hupdate
      simp only [Op.overwrites_iff, hlist, hupdate, Bool.false_eq_true, false_and, false_or, true_and]
      rw [hs] at hret ⊢
      exact update_reported_iff hret
    | false =>
      simp only [Op.overwrites_iff, hlist, hupdate, Bool.false_eq_true, false_and, or_self,
        false_implies, implies_true, iff_true]
      exact Op.reported hlist hupdate hret

end Reported

/-- The member list of conversation 1: one row, and then the disk fails. -/
def brokenList : List Reply :=
  [{}, { rc := .row, cols := [.int 1] }, { rc := .other 10 }]

/-- A `conv_drop` whose second statement fails, and whose error is reported. -/
theorem errors_reported_convDrop :
    sqlIsErr (.other 10) = true ∧ Failed ((Op.convDrop 1).prog.trace [{}, { rc := .other 10 }, {}]) := by
  have hfailed : Failed ((Op.convDrop 1).prog.trace [{}, { rc := .other 10 }, {}]) :=
    ⟨(.exec [.deleteMessagesOfConv 1], { rc := .other 10 }), by decide, rfl⟩
  have hret : (Op.convDrop 1).prog.after [{}, { rc := .other 10 }, {}] = ret { rc := .other 10 } :=
    rfl
  exact ⟨((errors_reported_iff hret).mpr (by decide)).mpr hfailed, hfailed⟩

/-- The list that was cut short is reported as complete, and so is a message that was not
    deleted. -/
theorem failures_unreported :
    ((Op.convGetMembers 1).prog.after brokenList = ret { rc := .ok } ∧
        (convGetMembers 1).after brokenList = ret ([1], .ok) ∧
        Failed ((Op.convGetMembers 1).prog.trace brokenList)) ∧
      (Op.msgDelete 1).prog.after [{ rc := .other 5 }] = ret { rc := .ok } ∧
        Failed ((Op.msgDelete 1).prog.trace [{ rc := .other 5 }]) := by
  refine ⟨⟨rfl, rfl, ?_⟩, rfl, ?_⟩
  · exact ⟨(.fetch (.membersOf 1) 1, { rc := .other 10 }), by decide, rfl⟩
  · exact ⟨(.exec [.clearMessage 1], { rc := .other 5 }), by decide, rfl⟩

/-! ## Transactions -/

theorem execAll_code (ss : List Stmt) (c : Conn) :
    (execAll ss c).2 = .ok ∨ (execAll ss c).2.IsFailure := by
  induction ss generalizing c with
  | nil => exact Or.inl rfl
  | cons s ss ih =>
    rw [execAll]
    split
    · exact ih _
    · rename_i rc hnot hrun
      have hcode := s.run_code c
      rw [hrun] at hcode
      exact hcode

/-- A text that is an instance of its template is answered with a documented code. -/
theorem Answers.documented {c c' : Conn} {call : SqlCall} {r : Reply} (h : Answers c call c' r)
    (hmodel : call.Modelled) : call.Documented r := by
  cases h with
  | served _ h =>
    cases call with
    | calloc => cases h; exact Or.inl rfl
    | exec ss => cases h; exact execAll_code ss c
    | prepare s =>
      cases h
      by_cases hs : s = .malformed
      · exact Or.inr (by simp [hs, Rc.IsFailure])
      · exact Or.inl (by simp [hs])
    | step s =>
      cases h
      rcases s.run_code c with hok | hfail
      · exact Or.inr (Or.inl (by simp [hok]))
      · exact Or.inr (Or.inr (by simpa [hfail.1] using hfail))
    | prepareQuery q =>
      cases h
      cases q <;> first | exact Or.inl rfl | exact Or.inr (by simp [Query.prepareRc, Rc.IsFailure])
    | fetch q i =>
      simp only [answer] at h
      split at h
      · cases h; exact Or.inl rfl
      · cases h
        cases q <;> first
          | exact Or.inr (Or.inl rfl)
          | exact Or.inr (Or.inr (by simp [Query.endRc, Rc.IsFailure]))
    | lastInsertRowid => trivial
    | lock => trivial
    | unlock => trivial
  | execFault _ _ _ _ _ hrc => exact Or.inr hrc
  | callocFault => exact Or.inr rfl
  | prepareFault hrc => exact Or.inr hrc
  | stepFault _ _ hrc => exact Or.inr (Or.inr hrc)
  | queryFault hrc => exact Or.inr hrc
  | fetchFault hrc => exact Or.inr (Or.inr hrc)
  -- a text with quotes may return anything
  | foreign hforeign _ => exact absurd hmodel hforeign

/-- Given documented codes for its texts, the program reports `SQLITE_OK` or a failure. -/
abbrev Settles {α : Type} (code : α → Rc) (p : SqlProg α) : Prop :=
  Returns (fun c r => c.Modelled → c.Documented r) (fun _ => False)
    (fun a => code a = .ok ∨ (code a).IsFailure) p

theorem Settles.runs {α : Type} {code : α → Rc} {p : SqlProg α} (hp : Settles code p)
    {c c' : Conn} {a : α} (h : Runs Answers c p c' a) : code a = .ok ∨ sqlIsErr (code a) = true := by
  have hcode := Returns.runs (fun _ _ _ _ hcall hmodel => hcall.documented hmodel) hp h
  exact hcode.imp_right sqlIsErr_of_isFailure

/-- A failure that is rolled back is the one that is reported. -/
theorem settles_rollback {s : Stmt} (hs : s ≠ .raw) {k : SqlProg Rc} (hk : Settles id k) :
    Settles id (do
      let r ← invoke (.exec [s])
      if r.rc ≠ .ok then
        let (_, rc) ← rollback () r.rc
        return rc
      else k) := by
  simp only [rollback, invoke_bind, pure_eq, call_bind, ret_bind, returns_call, returns_ite,
    returns_ret]
  intro r hr
  have hcode := hr (by simpa [SqlCall.Modelled] using hs.symm)
  exact ⟨fun hfail _ _ => Or.inr (hcode.resolve_left hfail), fun _ => hk⟩

theorem settles_commitAfter {ss : List Stmt} (hss : .raw ∉ ss) : Settles id (commitAfter ss) := by
  induction ss with
  | nil => exact settles_rollback (by simp) (Or.inl rfl)
  | cons s ss ih =>
    obtain ⟨hs, hss⟩ := not_or.mp (mt List.mem_cons.mpr hss)
    exact settles_rollback (Ne.symm hs) (ih hss)

theorem settles_convCreate {a : UInt32} {n : CStr} (hquote : quote ∉ n.bytes) :
    Settles Prod.snd (convCreate a n) := by
  have hfree : (TextQuery.convCreate a n).QuoteFree := by
    simpa [TextQuery.QuoteFree, TextQuery.strings] using hquote
  have hraw : (TextQuery.convCreate a n).insertStmt (.insertConversation a.toNat n) ≠ .raw :=
    (TextQuery.isInsert hfree rfl).modelled
  simp only [convCreate, rollback, invoke_bind, pure_eq, returns_call, returns_ite, returns_ret]
  -- each failing statement on the way is the one that is reported
  intro r₁ hr₁
  refine ⟨fun hfail => Or.inr ((hr₁ (by simp [SqlCall.Modelled])).resolve_left hfail), fun _ => ?_⟩
  intro _ _ r₂ hr₂ _ _
  refine ⟨fun hfail _ _ => Or.inr ?_, fun _ => ?_⟩
  · exact (hr₂ (by simpa [SqlCall.Modelled] using hraw.symm)).resolve_left hfail
  intro _ _ r₃ hr₃
  refine ⟨fun hfail _ _ => Or.inr ((hr₃ (by simp [SqlCall.Modelled])).resolve_left hfail),
    fun _ => ?_⟩
  intro r₄ hr₄
  exact ⟨fun hfail _ _ => Or.inr ((hr₄ (by simp [SqlCall.Modelled])).resolve_left hfail),
    fun _ => Or.inl trivial⟩

/-- All or nothing: an error with the tables as before, or `SQLITE_OK` with the tables that
    `done` describes; and no transaction is left open. -/
def Atomically (done : Db → Prop) (c c' : Conn) (rc : Rc) : Prop :=
  (sqlIsErr rc = true ∧ c'.db = c.db ∨ rc = .ok ∧ done c'.db) ∧ c'.saved = none

section Atomic

variable {c c' : Conn} {rc : Rc}

theorem Atomically.of_spec {done : Db → Prop} (hsaved : c'.saved = none)
    (hspec : rc = .ok ∧ done c'.db ∨ rc ≠ .ok ∧ c'.db = c.db)
    (hcode : rc = .ok ∨ sqlIsErr rc = true) : Atomically done c c' rc := by
  refine ⟨?_, hsaved⟩
  rcases hspec with hdone | ⟨hfail, hsame⟩
  · exact Or.inr hdone
  · exact Or.inl ⟨hcode.resolve_left hfail, hsame⟩

/-- **Transactions are atomic.** `conv_create`, `conv_drop` and `chat_drop`, run alone from any
    tables with no transaction open and with any of their calls failing, have executed all their
    statements when they report `SQLITE_OK` and none when they report an error. The name of a
    conversation must be free of quotes, so that the text of its insert is one statement. -/
theorem operations_atomic (hidle : c.saved = none) :
    (∀ adminId name id, quote ∉ name.bytes → Runs Answers c (convCreate adminId name) c' (id, rc) →
      Atomically (fun db => ∃ n, c.db.CreatesConv db adminId name n ∧ id = UInt32.ofNat n) c c' rc) ∧
    (∀ convId, Runs Answers c (convDrop convId) c' rc →
      Atomically (fun db => db = c.db.dropConv c.fk convId.toNat) c c' rc) ∧
    ∀ chatId, Runs Answers c (chatDrop chatId) c' rc →
      Atomically (fun db => db = c.db.dropChat c.fk chatId.toNat) c c' rc := by
  refine ⟨?_, ?_, ?_⟩
  · intro adminId name id hquote hrun
    obtain ⟨hsettled, hspec⟩ := runs_convCreate hquote hidle hrun
    have hdone : rc = .ok ∧ (∃ n, c.db.CreatesConv c'.db adminId name n ∧ id = UInt32.ofNat n) ∨
        rc ≠ .ok ∧ c'.db = c.db := by
      rcases hspec with ⟨hok, -, hcreated⟩ | hfail
      · exact Or.inl ⟨hok, hcreated⟩
      · exact Or.inr hfail
    exact Atomically.of_spec hsettled.saved hdone ((settles_convCreate hquote).runs hrun)
  · intro convId hrun
    obtain ⟨hsaved, -, hspec⟩ := runs_convDrop hidle hrun
    have hsettles : Settles id (convDrop convId) :=
      settles_rollback (by simp) (settles_commitAfter (by simp))
    exact Atomically.of_spec hsaved hspec (hsettles.runs hrun)
  · intro chatId hrun
    obtain ⟨hsaved, -, hspec⟩ := runs_chatDrop hidle hrun
    have hsettles : Settles id (chatDrop chatId) :=
      settles_rollback (by simp) (settles_commitAfter (by simp))
    exact Atomically.of_spec hsaved hspec (hsettles.runs hrun)

end Atomic

/-- One user. -/
def oneUser : Conn where
  db := { users := [⟨1, .ofBytes (ascii "an"), .ofBytes (ascii "x"), .ofBytes (ascii "1"),
                     .ofBytes (ascii "a@b")⟩] }

/-- User 1 opens a conversation, which is then dropped. -/
theorem operations_atomic_oneUser :
    ∃ c₁ c₂, Runs Answers oneUser (convCreate 1 (.ofBytes (ascii "team"))) c₁ (1, .ok) ∧
      Runs Answers c₁ (convDrop 1) c₂ .ok ∧
      Atomically (fun db => ∃ n, oneUser.db.CreatesConv db 1 (.ofBytes (ascii "team")) n ∧
        (1 : UInt32) = UInt32.ofNat n) oneUser c₁ .ok ∧
      Atomically (fun db => db = c₁.db.dropConv c₁.fk 1) c₁ c₂ .ok := by
  have hplay : (execute serve 16 oneUser (convCreate 1 (.ofBytes (ascii "team")))).any (fun x =>
      (execute serve 16 x.1 (convDrop 1)).any fun y =>
        decide (x.2 = (1, .ok) ∧ x.1.saved = none ∧ y.2 = .ok)) = true := by
    decide +kernel
  obtain ⟨⟨c₁, r₁⟩, hcreate, hrest⟩ := (Option.any_eq_true _ _).mp hplay
  obtain ⟨⟨c₂, rc₂⟩, hdrop, hfacts⟩ := (Option.any_eq_true _ _).mp hrest
  obtain ⟨rfl, hidle, rfl⟩ := of_decide_eq_true hfacts
  have hrun₁ : Runs Answers oneUser (convCreate 1 (.ofBytes (ascii "team"))) c₁ (1, .ok) :=
    runs_of_execute answers_of_serve hcreate
  have hrun₂ : Runs Answers c₁ (convDrop 1) c₂ .ok := runs_of_execute answers_of_serve hdrop
  exact ⟨c₁, c₂, hrun₁, hrun₂, (operations_atomic rfl).1 1 _ 1 (by decide) hrun₁,
    (operations_atomic hidle).2.1 1 hrun₂⟩

/-- A name that ends the literal, the insert and the transaction. -/
def endingName : CStr := .ofBytes (ascii "x');COMMIT;SELECT('")

/-- A connection that executes its text as the three statements it consists of; the last one
    changes nothing. -/
def serveEnding (c : Conn) (call : SqlCall) : Option (Conn × Reply) :=
  if call = .exec [.raw] then
    answer c (.exec [.insertConversation 1 (.ofBytes (ascii "x")), .commit])
  else serve c call

theorem answers_of_serveEnding (c : Conn) (call : SqlCall) (c' : Conn) (r : Reply)
    (h : serveEnding c call = some (c', r)) : Answers c call c' r := by
  unfold serveEnding at h
  split at h
  · rename_i hraw
    subst hraw
    refine .foreign (by simp [SqlCall.Modelled]) ?_
    cases h
    exact execAll_held _ c
  · exact answers_of_serve c call c' r h

/-- The text with that name commits the conversation before it has a member; the `COMMIT` of
    `conv_create` then finds no transaction, an error is reported, and the rows stay. -/
theorem ending_name_not_atomic :
    (TextQuery.convCreate 1 endingName).built =
        ascii "INSERT INTO conversations(admin_id,name) VALUES(1, 'x');COMMIT;SELECT('');" ∧
      ∃ c', execute serveEnding 16 oneUser (convCreate 1 endingName) = some (c', (0, .error)) ∧
        Runs Answers oneUser (convCreate 1 endingName) c' (0, .error) ∧
        c'.db.conversations = [⟨1, 1, .ofBytes (ascii "x")⟩] ∧ c'.db.members = [⟨1, 1, 1⟩] := by
  refine ⟨by decide +kernel, ?_⟩
  have hplay : (execute serveEnding 16 oneUser (convCreate 1 endingName)).any (fun x =>
      decide (x.2 = (0, .error) ∧ x.1.db.conversations = [⟨1, 1, .ofBytes (ascii "x")⟩] ∧
        x.1.db.members = [⟨1, 1, 1⟩])) = true := by
    decide +kernel
  obtain ⟨⟨c', x⟩, hexec, hfacts⟩ := (Option.any_eq_true _ _).mp hplay
  obtain ⟨rfl, hrows⟩ := of_decide_eq_true hfacts
  exact ⟨c', hexec, runs_of_execute answers_of_serveEnding hexec, hrows⟩

end MeshChat
