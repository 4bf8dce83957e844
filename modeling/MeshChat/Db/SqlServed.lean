import MeshChat.Db.SqlSpec

/-! # What the operations do when no call fails

    `Serves` is the connection on which sqlite executes every call. Each call has
    one answer there, so that one run of an operation is the only one.

    * Queries return their rows.
    * `served_sqlInsert`, `refused_sqlInsert`: an insert returns the new rowid, or
      reports the violated constraint.
    * `served_msgSend`: a message is stored.
-/

namespace MeshChat

open CMemory Prog

/-- A call that sqlite executes as it should. -/
def Serves (c : Conn) (call : SqlCall) (c' : Conn) (r : Reply) : Prop := serve c call = some (c', r)

theorem Serves.le : Serves ≤ Answers := fun c call c' r h => answers_of_serve c call c' r h

theorem Serves.unique (c : Conn) (call : SqlCall) (c₁ : Conn) (r₁ : Reply) (c₂ : Conn) (r₂ : Reply)
    (h₁ : Serves c call c₁ r₁) (h₂ : Serves c call c₂ r₂) : c₁ = c₂ ∧ r₁ = r₂ := by
  have hsame := Option.some.inj (h₁.symm.trans h₂)
  exact ⟨congrArg Prod.fst hsame, congrArg Prod.snd hsame⟩

variable {c : Conn}

theorem serves_of_answer (call : SqlCall) {c' : Conn} {r : Reply} (hmodel : call.Modelled)
    (h : answer c call = some (c', r)) : Serves c call c' r := by
  unfold Serves serve
  rw [if_pos hmodel]
  exact h

theorem serves_calloc : Serves c .calloc c {} := serves_of_answer .calloc trivial rfl

theorem serves_lock (h : c.held = false) : Serves c .lock { c with held := true } {} := by
  refine serves_of_answer .lock trivial ?_
  simp [answer, h]

theorem serves_unlock : Serves c .unlock { c with held := false } {} :=
  serves_of_answer .unlock trivial rfl

theorem serves_lastInsertRowid : Serves c .lastInsertRowid c { rowid := c.lastRowid } :=
  serves_of_answer .lastInsertRowid trivial rfl

/-! ## Queries -/

/-- A query whose text is a query. -/
structure Query.Sound (q : Query) : Prop where
  modelled : q ≠ .raw
  prepared : q.prepareRc = .ok
  ended : q.endRc = .done

theorem serves_prepareQuery {q : Query} (hq : q.Sound) : Serves c (.prepareQuery q) c {} := by
  refine serves_of_answer (.prepareQuery q) hq.modelled ?_
  rw [answer, hq.prepared]

theorem serves_fetch_row {q : Query} (hq : q.Sound) {i : Nat} {cols : List Val}
    (h : (q.rows c.db)[i]? = some cols) : Serves c (.fetch q i) c { rc := .row, cols } := by
  refine serves_of_answer (.fetch q i) hq.modelled ?_
  rw [answer, h]

theorem serves_fetch_end {q : Query} (hq : q.Sound) {i : Nat} (h : (q.rows c.db)[i]? = none) :
    Serves c (.fetch q i) c { rc := .done } := by
  refine serves_of_answer (.fetch q i) hq.modelled ?_
  rw [answer, h, ← hq.ended]

/-- What a function that looks at the first row returns. -/
def Query.first {α : Type} (q : Query) (f : List Val → α) (db : Db) : Option α × Rc :=
  match (q.rows db)[0]? with
  | some cols => (some (f cols), .ok)
  | none => (none, .empty)

/-- The query is prepared, and its steps deliver `rows` and then end. -/
structure Delivers (S : Conn → SqlCall → Conn → Reply → Prop) (c : Conn) (q : Query)
    (rows : List (List Val)) : Prop where
  prepared : S c (.prepareQuery q) c {}
  row : ∀ i cols, rows[i]? = some cols → S c (.fetch q i) c { rc := .row, cols }
  ended : ∀ i, rows[i]? = none → S c (.fetch q i) c { rc := .done }

theorem Query.Sound.delivers {q : Query} (hq : q.Sound) : Delivers Serves c q (q.rows c.db) where
  prepared := serves_prepareQuery hq
  row _ _ h := serves_fetch_row hq h
  ended _ h := serves_fetch_end hq h

namespace Delivers

variable {S : Conn → SqlCall → Conn → Reply → Prop} {q : Query} {rows : List (List Val)}

theorem sqlFirstRow_some {α : Type} (h : Delivers S c q rows) (f : List Val → α) {cols : List Val}
    (hrow : rows[0]? = some cols) : Runs S c (sqlFirstRow q f) c (some (f cols), .ok) := by
  simp only [sqlFirstRow, invoke_bind, pure_eq, runs_call]
  refine ⟨c, {}, h.prepared, ?_⟩
  rw [if_neg (not_not.mpr rfl), runs_call]
  exact ⟨c, _, h.row 0 cols hrow, .ret _ _⟩

theorem sqlFirstRow_none {α : Type} (h : Delivers S c q rows) (f : List Val → α)
    (hrow : rows[0]? = none) : Runs S c (sqlFirstRow q f) c (none, .empty) := by
  simp only [sqlFirstRow, invoke_bind, pure_eq, runs_call]
  refine ⟨c, {}, h.prepared, ?_⟩
  rw [if_neg (not_not.mpr rfl), runs_call]
  exact ⟨c, _, h.ended 0 hrow, .ret _ _⟩

theorem sqlExists_some (h : Delivers S c q rows) (hrows : rows ≠ []) :
    Runs S c (sqlExists q) c (true, .ok) := by
  obtain ⟨cols, rest, rfl⟩ := List.exists_cons_of_ne_nil hrows
  rw [sqlExists, runs_bind]
  exact ⟨c, _, h.sqlFirstRow_some (fun _ => ()) rfl, .ret _ _⟩

theorem sqlExists_none (h : Delivers S c q rows) (hrows : rows = []) :
    Runs S c (sqlExists q) c (false, .empty) := by
  subst hrows
  rw [sqlExists, runs_bind]
  exact ⟨c, _, h.sqlFirstRow_none (fun _ => ()) rfl, .ret _ _⟩

/-- A list has all rows, the last one first. -/
theorem sqlGetList (h : Delivers S c q rows) :
    Runs S c (sqlGetList q) c ((rows.map columnZero).reverse, .ok) := by
  simp only [MeshChat.sqlGetList, invoke_bind, pure_eq, collect_bind, runs_call]
  refine ⟨c, {}, h.prepared, ?_⟩
  rw [if_neg (not_not.mpr rfl)]
  have hreplies : Runs S c (drain (.fetch q) (fun r => decide (r.rc = .row)) []
      fun rows _ => ret (rows.reverse.map fun r => (r.cols.getD 0 .null).columnInt, Rc.ok)) c
      (((rows.map fun cols => ({ rc := .row, cols } : Reply)).reverse.map
        fun r => (r.cols.getD 0 .null).columnInt), .ok) := by
    have hlast : S c (.fetch q (0 + rows.length)) c { rc := .done } := h.ended _ (by simp)
    rw [← List.length_map fun cols => ({ rc := .row, cols } : Reply)] at hlast
    refine Runs.drain ?_ hlast rfl (.ret _ _)
    intro j r hj
    obtain ⟨cols, hcols, rfl⟩ : ∃ cols, rows[j]? = some cols ∧
        ({ rc := .row, cols } : Reply) = r := by
      simpa using hj
    exact ⟨by simpa using h.row j cols hcols, rfl⟩
  rw [List.map_reverse, List.map_map] at hreplies
  exact hreplies

end Delivers

theorem served_sqlFirstRow {α : Type} {q : Query} (hq : q.Sound) (f : List Val → α) :
    Runs Serves c (sqlFirstRow q f) c (q.first f c.db) := by
  unfold Query.first
  split
  · exact hq.delivers.sqlFirstRow_some f ‹_›
  · exact hq.delivers.sqlFirstRow_none f ‹_›

theorem Query.sound_of_rows {q : Query} {db : Db} (h : q.rows db ≠ []) : q.Sound := by
  cases q
  case empty => exact absurd rfl h
  case malformed => exact absurd rfl h
  case raw => exact absurd rfl h
  all_goals exact ⟨by simp, rfl, rfl⟩

theorem served_sqlExists {q : Query} (hrows : q.rows c.db ≠ []) :
    Runs Serves c (sqlExists q) c (true, .ok) :=
  (Query.sound_of_rows hrows).delivers.sqlExists_some hrows

theorem served_sqlExists_none {q : Query} (hq : q.Sound) (hrows : q.rows c.db = []) :
    Runs Serves c (sqlExists q) c (false, .empty) :=
  hq.delivers.sqlExists_none hrows

theorem served_sqlGetInfo {α : Type} {q : Query} (hq : q.Sound) (f : List Val → α) :
    Runs Serves c (sqlGetInfo q f) c (q.first f c.db) := by
  simp only [sqlGetInfo, invoke_bind, runs_call]
  refine ⟨c, {}, serves_calloc, ?_⟩
  rw [if_neg (by simp)]
  exact served_sqlFirstRow hq f

theorem served_sqlGetList {q : Query} (hq : q.Sound) :
    Runs Serves c (sqlGetList q) c (((q.rows c.db).map columnZero).reverse, .ok) :=
  hq.delivers.sqlGetList

/-! ## Inserts -/

/-- An insert is a statement, and its text is complete. -/
theorem serves_prepare {s : Stmt} {k : WriteKind} (hs : s.effect = .writes k) :
    Serves c (.prepare s) c {} := by
  have hraw : s ≠ .raw := by
    rintro rfl
    cases hs
  have hgood : s ≠ .malformed := by
    rintro rfl
    cases hs
  refine serves_of_answer (.prepare s) hraw ?_
  rw [answer, if_neg hgood]

theorem serves_step {s : Stmt} {k : WriteKind} (hs : s.effect = .writes k) {db : Db} {n : Option Nat}
    (happly : s.apply c.fk c.lastRowid c.db = some (db, n)) :
    Serves c (.step s) { c with db, lastRowid := n.getD c.lastRowid } { rc := .done } := by
  have hraw : s ≠ .raw := by
    rintro rfl
    cases hs
  refine serves_of_answer (.step s) hraw ?_
  rcases Stmt.run_of_writes hs c with ⟨x, hx, hrun⟩ | ⟨hnone, -⟩
  · obtain rfl := Option.some.inj (hx.symm.trans happly)
    rw [answer, hrun]
    rfl
  · cases hnone.symm.trans happly

theorem serves_step_constraint {s : Stmt} {k : WriteKind} (hs : s.effect = .writes k)
    (happly : s.apply c.fk c.lastRowid c.db = none) : Serves c (.step s) c { rc := .constraint } := by
  have hraw : s ≠ .raw := by
    rintro rfl
    cases hs
  refine serves_of_answer (.step s) hraw ?_
  rcases Stmt.run_of_writes hs c with ⟨x, hx, -⟩ | ⟨-, hrun⟩
  · cases hx.symm.trans happly
  · rw [answer, hrun]
    rfl

/-- An insert that is made. -/
theorem served_sqlInsert {s : Stmt} {db : Db} {n : Nat} (hs : s.effect = .writes .insert)
    (hheld : c.held = false) (happly : s.apply c.fk c.lastRowid c.db = some (db, some n)) :
    Runs Serves c (sqlInsert s) { c with db, lastRowid := n, held := false } (UInt32.ofNat n, .ok) := by
  simp only [sqlInsert, invoke_bind, pure_eq, runs_call]
  refine ⟨c, {}, serves_prepare hs, ?_⟩
  rw [if_neg (not_not.mpr rfl)]
  simp only [runs_call]
  refine ⟨_, _, serves_lock hheld, _, _, serves_step hs happly, ?_⟩
  rw [if_neg (not_not.mpr rfl)]
  simp only [runs_call]
  exact ⟨_, _, serves_lastInsertRowid, _, _, serves_unlock, .ret _ _⟩

/-- An insert that violates a constraint. -/
theorem refused_sqlInsert {s : Stmt} (hs : s.effect = .writes .insert) (hheld : c.held = false)
    (happly : s.apply c.fk c.lastRowid c.db = none) :
    Runs Serves c (sqlInsert s) { c with held := false } (0, .constraint) := by
  simp only [sqlInsert, invoke_bind, pure_eq, runs_call]
  refine ⟨c, {}, serves_prepare hs, ?_⟩
  rw [if_neg (not_not.mpr rfl)]
  simp only [runs_call]
  refine ⟨_, _, serves_lock hheld, _, _, serves_step_constraint hs happly, ?_⟩
  rw [if_pos (by simp)]
  simp only [runs_call]
  exact ⟨_, _, serves_unlock, .ret _ _⟩

/-! ## Single statements -/

theorem serves_exec {s : Stmt} {c' : Conn} {r : Reply} (hs : s ≠ .raw)
    (h : Serves c (.exec [s]) c' r) : c' = (s.run c).1 := by
  have hmodel : SqlCall.Modelled (.exec [s]) := by simpa [SqlCall.Modelled] using hs.symm
  unfold Serves serve at h
  rw [if_pos hmodel, answer, execAll_singleton] at h
  exact (congrArg Prod.fst (Option.some.inj h)).symm

theorem serves_exec_run {s : Stmt} (hs : s ≠ .raw) :
    Serves c (.exec [s]) (s.run c).1 { rc := (s.run c).2 } := by
  refine serves_of_answer (.exec [s]) (by simpa [SqlCall.Modelled] using hs.symm) ?_
  rw [answer, execAll_singleton]

/-- One statement, executed. -/
theorem served_sqlExec {s : Stmt} (hs : s ≠ .raw) :
    Runs Serves c (sqlExec s) (s.run c).1 (s.run c).2 := by
  simp only [sqlExec, invoke_bind, pure_eq, runs_call, runs_ret]
  exact ⟨(s.run c).1, { rc := (s.run c).2 }, serves_exec_run hs, rfl, rfl⟩

theorem served_sqlExecIgnored_run {s : Stmt} (hs : s ≠ .raw) :
    Runs Serves c (sqlExecIgnored s) (s.run c).1 .ok := by
  simp only [sqlExecIgnored, invoke_bind, pure_eq, runs_call, runs_ret]
  exact ⟨(s.run c).1, { rc := (s.run c).2 }, serves_exec_run hs, rfl, trivial⟩

/-- One statement whose code is overwritten, executed. -/
theorem served_sqlExecIgnored {s : Stmt} {c' : Conn} {rc : Rc} (hs : s ≠ .raw)
    (h : Runs Serves c (sqlExecIgnored s) c' rc) : c' = (s.run c).1 := by
  simp only [sqlExecIgnored, invoke_bind, pure_eq, runs_call, runs_ret] at h
  obtain ⟨c₁, r₁, hexec, rfl, rfl⟩ := h
  exact serves_exec hs hexec

/-- A message is stored, outside a transaction and with the mutex free. -/
theorem served_msgSend {msg : MsgSchema} {now : UInt32} {db' : Db} {n : Nat}
    (hquote : SqlLex.quote ∉ msg.content.bytes) (hidle : c.saved = none) (hheld : c.held = false)
    (hsends : msg.Sends now c.db db' n) :
    Runs Serves c (msgSend msg now) { c with db := db', fk := true, lastRowid := n }
      (UInt32.ofNat n, .ok) := by
  obtain ⟨hroom, hinsert⟩ := hsends
  have hfree : (msg.textQuery now).QuoteFree := by
    simpa [MsgSchema.textQuery, TextQuery.QuoteFree, TextQuery.strings] using hquote
  have hstmt : msgSendStmt msg now = .insertMessage (msg.newMsg now) := by
    show (msg.textQuery now).insertStmt _ = _
    rw [TextQuery.insertStmt, if_neg (not_not.mpr hfree), if_pos hroom]
  have hpragma : (Stmt.pragmaForeignKeysOn.run c) = ({ c with fk := true }, .ok) := by
    simp [Stmt.run, hidle]
  simp only [msgSend, invoke_bind, pure_eq, runs_call, hstmt]
  refine ⟨_, _, serves_exec_run (by simp), ?_⟩
  rw [hpragma, if_neg (not_not.mpr rfl)]
  simp only [runs_call]
  refine ⟨_, _, serves_lock hheld, _, _, serves_exec_run (by simp), _, _,
    serves_lastInsertRowid, ?_⟩
  have hrun : ∀ b, (Stmt.insertMessage (msg.newMsg now)).run { c with fk := true, held := b } =
      ({ c with db := db', fk := true, held := b, lastRowid := n }, .ok) := by
    intro b
    simp [Stmt.run, Stmt.apply, hinsert]
  rw [hrun, if_neg (not_not.mpr rfl)]
  simp only [runs_call]
  refine ⟨_, _, serves_unlock, ?_⟩
  rw [← hheld]
  exact .ret _ _

end MeshChat
