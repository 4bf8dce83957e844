import MeshChat.Db.Effects

/-! # What the operations do on their own

    One specification for each shape of operation in `sql.c`, run alone on the
    connection with any of its calls failing. Only the texts must be instances of
    their templates.

    * Queries change nothing; `runs_sqlExists`, `runs_sqlGetInfo` and
      `runs_sqlGetList` say what they return.
    * Writes either change the tables as their statements say, and then report
      `SQLITE_OK`, or change nothing; and they leave no transaction open.
-/

namespace MeshChat

open CMemory Prog

variable {c c' : Conn}

/-! ## Queries -/

theorem answers_calloc {r : Reply} (h : Answers c .calloc c' r) : c' = c := by
  cases h with
  | served _ h => cases h; rfl
  | callocFault => rfl
  | foreign hforeign _ => exact absurd trivial hforeign

theorem sqlIsErr_of_isFailure {rc : Rc} (h : rc.IsFailure) : sqlIsErr rc = true := by
  simp [sqlIsErr, sqlIsOk, h.1, h.2.1, h.2.2.1, h.2.2.2]

theorem answers_prepareQuery {q : Query} {r : Reply} (hq : q ≠ .raw)
    (h : Answers c (.prepareQuery q) c' r) : c' = c ∧ (r.rc ≠ .ok → sqlIsErr r.rc = true) := by
  cases h with
  | served _ h =>
    cases h
    refine ⟨rfl, fun hrc => ?_⟩
    cases q <;> first | rfl | exact absurd rfl hrc
  | queryFault hrc => exact ⟨rfl, fun _ => sqlIsErr_of_isFailure hrc⟩
  | foreign hforeign _ => exact absurd hq hforeign

/-- A step of a query delivers its next row, ends it or fails. -/
theorem answers_fetch {q : Query} {i : Nat} {r : Reply} (hq : q ≠ .raw)
    (h : Answers c (.fetch q i) c' r) :
    c' = c ∧ (r.rc = .row ∧ (q.rows c.db)[i]? = some r.cols ∨
      r.rc = .done ∧ (q.rows c.db)[i]? = none ∨ sqlIsErr r.rc = true) := by
  cases h with
  | served _ h =>
    simp only [answer] at h
    split at h
    · rename_i cols hcols
      cases h
      exact ⟨rfl, Or.inl ⟨rfl, hcols⟩⟩
    · rename_i hnone
      cases h
      refine ⟨rfl, Or.inr ?_⟩
      cases q <;> first | exact Or.inl ⟨rfl, hnone⟩ | exact Or.inr rfl
  | fetchFault hrc => exact ⟨rfl, Or.inr (Or.inr (sqlIsErr_of_isFailure hrc))⟩
  | foreign hforeign _ => exact absurd hq hforeign

/-- The first row of a query, its absence, or an error. -/
theorem runs_sqlFirstRow {α : Type} {q : Query} {f : List Val → α} {a : Option α} {rc : Rc}
    (hq : q ≠ .raw) (h : Runs Answers c (sqlFirstRow q f) c' (a, rc)) :
    c' = c ∧ ((∃ cols, (q.rows c.db)[0]? = some cols ∧ a = some (f cols) ∧ rc = .ok) ∨
      a = none ∧ (rc = .empty ∧ q.rows c.db = [] ∨ sqlIsErr rc = true)) := by
  simp only [sqlFirstRow, invoke_bind, pure_eq, runs_call] at h
  obtain ⟨c₁, r₁, hprepare, h⟩ := h
  obtain ⟨rfl, herr⟩ := answers_prepareQuery hq hprepare
  by_cases hok : r₁.rc = .ok
  · rw [if_neg (not_not.mpr hok), runs_call] at h
    obtain ⟨c₂, r₂, hfetch, h⟩ := h
    obtain ⟨rfl, hrow⟩ := answers_fetch hq hfetch
    -- the first step: a row, the end, or an error
    by_cases hr : r₂.rc = .row
    · rw [if_neg (not_not.mpr hr), runs_ret] at h
      obtain ⟨rfl, heq⟩ := h
      cases heq
      refine ⟨rfl, Or.inl ⟨r₂.cols, ?_, rfl, rfl⟩⟩
      rcases hrow with ⟨-, hcols⟩ | ⟨hdone, -⟩ | hbad
      · exact hcols
      · rw [hr] at hdone
        cases hdone
      · rw [hr] at hbad
        cases hbad
    · rw [if_pos hr, runs_ret] at h
      obtain ⟨rfl, heq⟩ := h
      cases heq
      refine ⟨rfl, Or.inr ⟨rfl, ?_⟩⟩
      rcases hrow with ⟨hrow, -⟩ | ⟨hdone, hnone⟩ | hbad
      · exact absurd hrow hr
      · rw [if_pos hdone]
        exact Or.inl ⟨rfl, by simpa using hnone⟩
      · refine Or.inr ?_
        rw [if_neg]
        · exact hbad
        · intro hdone
          rw [hdone] at hbad
          cases hbad
  · rw [if_pos hok, runs_ret] at h
    obtain ⟨rfl, heq⟩ := h
    cases heq
    exact ⟨rfl, Or.inr ⟨rfl, Or.inr (herr hok)⟩⟩

/-- The same behind the `calloc` of the result. -/
theorem runs_sqlGetInfo {α : Type} {q : Query} {f : List Val → α} {a : Option α} {rc : Rc}
    (hq : q ≠ .raw) (h : Runs Answers c (sqlGetInfo q f) c' (a, rc)) :
    c' = c ∧ ((∃ cols, (q.rows c.db)[0]? = some cols ∧ a = some (f cols) ∧ rc = .ok) ∨
      a = none ∧ (rc = .empty ∧ q.rows c.db = [] ∨ sqlIsErr rc = true)) := by
  simp only [sqlGetInfo, invoke_bind, pure_eq, runs_call] at h
  obtain ⟨c₁, r₁, hcalloc, h⟩ := h
  obtain rfl := answers_calloc hcalloc
  split at h
  · rw [runs_ret] at h
    obtain ⟨rfl, heq⟩ := h
    cases heq
    exact ⟨rfl, Or.inr ⟨rfl, Or.inr rfl⟩⟩
  · exact runs_sqlFirstRow hq h

theorem runs_sqlExists {q : Query} {b : Bool} {rc : Rc} (hq : q ≠ .raw)
    (h : Runs Answers c (sqlExists q) c' (b, rc)) :
    c' = c ∧ (b = true ∧ rc = .ok ∧ q.rows c.db ≠ [] ∨
      b = false ∧ (rc = .empty ∧ q.rows c.db = [] ∨ sqlIsErr rc = true)) := by
  simp only [sqlExists, pure_eq, runs_bind, runs_ret] at h
  obtain ⟨c₁, ⟨a, rc₁⟩, hrow, rfl, heq⟩ := h
  cases heq
  obtain ⟨rfl, hcases⟩ := runs_sqlFirstRow hq hrow
  refine ⟨rfl, ?_⟩
  rcases hcases with ⟨cols, hcols, rfl, rfl⟩ | ⟨rfl, hrc⟩
  · refine Or.inl ⟨rfl, rfl, fun hnil => ?_⟩
    rw [hnil] at hcols
    cases hcols
  · exact Or.inr ⟨rfl, hrc⟩

/-- Column 0 of a row. -/
def columnZero (cols : List Val) : UInt32 := (cols.getD 0 .null).columnInt

/-- A list has the rows up to a failing step, the last one first. -/
theorem runs_sqlGetList {q : Query} {ls : List UInt32} {rc : Rc} (hq : q ≠ .raw)
    (h : Runs Answers c (sqlGetList q) c' (ls, rc)) :
    c' = c ∧ ((∃ n, ls = (((q.rows c.db).take n).map columnZero).reverse ∧ rc = .ok) ∨
      ls = [] ∧ sqlIsErr rc = true) := by
  simp only [sqlGetList, invoke_bind, pure_eq, collect_bind, runs_call] at h
  obtain ⟨c₁, r₁, hprepare, h⟩ := h
  obtain ⟨rfl, herr⟩ := answers_prepareQuery hq hprepare
  split at h
  · rename_i hfail
    rw [runs_ret] at h
    obtain ⟨rfl, heq⟩ := h
    cases heq
    exact ⟨rfl, Or.inr ⟨rfl, herr hfail⟩⟩
  · have hread : ∀ i s' r, Answers c₁ (.fetch q i) s' r → s' = c₁ :=
      fun i s' r hfetch => (answers_fetch hq hfetch).1
    obtain ⟨rows, last, hrows, -, -, hk⟩ := runs_drain hread h
    rw [runs_ret] at hk
    obtain ⟨rfl, heq⟩ := hk
    cases heq
    refine ⟨rfl, Or.inl ⟨rows.length, ?_, rfl⟩⟩
    -- the replies are the first rows of the query
    have htake : rows.map (·.cols) = (q.rows c'.db).take rows.length := by
      apply List.ext_getElem?
      intro j
      by_cases hj : j < rows.length
      · obtain ⟨hfetch, hmore⟩ := hrows j rows[j] (List.getElem?_eq_getElem hj)
        rw [List.length_nil, Nat.zero_add] at hfetch
        have hrow : rows[j].rc = .row := by simpa using hmore
        obtain ⟨-, hcols⟩ := answers_fetch hq hfetch
        rcases hcols with ⟨-, hcols⟩ | ⟨hdone, -⟩ | hbad
        · rw [List.getElem?_take_of_lt hj, hcols]
          simp [hj]
        · rw [hrow] at hdone
          cases hdone
        · rw [hrow] at hbad
          cases hbad
      · simp [hj]
    rw [← htake]
    simp [columnZero, List.map_reverse]

/-! ## Single statements -/

/-- A text of one statement is executed or fails without effect. -/
theorem answers_exec {s : Stmt} {r : Reply} (hs : s ≠ .raw) (h : Answers c (.exec [s]) c' r) :
    c' = (s.run c).1 ∧ r.rc = (s.run c).2 ∨
      c' = c ∧ r.rc.IsFailure ∧ (s = .rollback → c.saved = none) := by
  have hmodel : SqlCall.Modelled (.exec [s]) := by simpa [SqlCall.Modelled] using hs.symm
  cases h with
  | served _ h =>
    simp only [answer, execAll_singleton, Option.some.injEq, Prod.mk.injEq] at h
    obtain ⟨rfl, rfl⟩ := h
    exact Or.inl ⟨rfl, rfl⟩
  | execFault k _ hk _ hrollback hrc =>
    obtain rfl : k = 0 := by simpa using hk
    exact Or.inr ⟨rfl, hrc, hrollback⟩
  | foreign hforeign _ => exact absurd hmodel hforeign

theorem Stmt.run_code (s : Stmt) (c : Conn) : (s.run c).2 = .ok ∨ (s.run c).2.IsFailure := by
  have hcode : (s.run c).2 = .ok ∨ (s.run c).2 = .error ∨ (s.run c).2 = .constraint := by
    unfold Stmt.run
    split
    · exact Or.inl rfl
    iterate 3
      · split
        · simp
        · simp
    iterate 2
      · simp
    · split
      · simp
      · simp
  rcases hcode with hcode | hcode | hcode
  · exact Or.inl hcode
  · exact Or.inr (by rw [hcode]; simp [Rc.IsFailure])
  · exact Or.inr (by rw [hcode]; simp [Rc.IsFailure])

/-- `sqlite3_exec` reports success or a failure. -/
theorem answers_exec_code {s : Stmt} {r : Reply} (hs : s ≠ .raw) (h : Answers c (.exec [s]) c' r) :
    r.rc = .ok ∨ r.rc.IsFailure := by
  rcases answers_exec hs h with ⟨-, hrc⟩ | ⟨-, hrc, -⟩
  · rw [hrc]
    exact s.run_code c
  · exact Or.inr hrc

theorem answers_prepare {s : Stmt} {r : Reply} (hs : s ≠ .raw)
    (h : Answers c (.prepare s) c' r) : c' = c := by
  cases h with
  | served _ h => cases h; rfl
  | prepareFault _ => rfl
  | foreign hforeign _ => exact absurd hs hforeign

theorem answers_lock {r : Reply} (h : Answers c .lock c' r) : c' = { c with held := true } := by
  cases h with
  | served _ h =>
    simp only [answer] at h
    split at h
    · cases h
    · cases h; rfl
  | foreign hforeign _ => exact absurd trivial hforeign

theorem answers_unlock {r : Reply} (h : Answers c .unlock c' r) : c' = { c with held := false } := by
  cases h with
  | served _ h => cases h; rfl
  | foreign hforeign _ => exact absurd trivial hforeign

theorem answers_lastInsertRowid {r : Reply} (h : Answers c .lastInsertRowid c' r) :
    c' = c ∧ r.rowid = c.lastRowid := by
  cases h with
  | served _ h => cases h; exact ⟨rfl, rfl⟩
  | foreign hforeign _ => exact absurd trivial hforeign

theorem answers_step {s : Stmt} {r : Reply} (hs : s ≠ .raw) (h : Answers c (.step s) c' r) :
    c' = (s.run c).1 ∧ r.rc = (if (s.run c).2 = .ok then .done else (s.run c).2) ∨
      c' = c ∧ r.rc ≠ .ok ∧ r.rc ≠ .done := by
  cases h with
  | served _ h => cases h; exact Or.inl ⟨rfl, rfl⟩
  | stepFault _ _ hrc => exact Or.inr ⟨rfl, hrc.1, hrc.2.2.1⟩
  | foreign hforeign _ => exact absurd hs hforeign

/-- The insert of a row, or a text that was cut. -/
structure Stmt.IsInsert (s : Stmt) : Prop where
  modelled : s ≠ .raw
  effect : s.effect = .writes .insert ∨ s = .malformed

/-- An insert was made, or nothing has changed. -/
theorem Stmt.IsInsert.run {s : Stmt} (hs : s.IsInsert) (c : Conn) :
    (∃ db n, s.apply c.fk c.lastRowid c.db = some (db, some n) ∧
      s.run c = ({ c with db, lastRowid := n }, .ok)) ∨
    (s.run c).1 = c ∧ (s.run c).2 ≠ .ok ∧ (s.run c).2 ≠ .done := by
  rcases hs.effect with heffect | rfl
  · rcases Stmt.run_of_writes heffect c with ⟨⟨db, n⟩, happly, hrun⟩ | ⟨-, hrun⟩
    · obtain ⟨row, -, hn, -⟩ := Stmt.apply_insert heffect happly
      dsimp only at hn
      subst hn
      exact Or.inl ⟨db, row.rowid, happly, hrun⟩
    · rw [hrun]
      exact Or.inr ⟨rfl, by simp, by simp⟩
  · exact Or.inr ⟨rfl, by simp [Stmt.run], by simp [Stmt.run]⟩

/-- What changes besides the mutex when an insert is made and reported with the
    rowid `id`. -/
def Inserted (s : Stmt) (c c' : Conn) (id : UInt32) : Prop :=
  ∃ n, s.apply c.fk c.lastRowid c.db = some (c'.db, some n) ∧ id = UInt32.ofNat n

/-- `sql_insert`. -/
theorem runs_sqlInsert {s : Stmt} {id : UInt32} {rc : Rc} (hs : s.IsInsert)
    (h : Runs Answers c (sqlInsert s) c' (id, rc)) :
    c'.saved = c.saved ∧ c'.fk = c.fk ∧
      (rc = .ok ∧ Inserted s c c' id ∨ rc ≠ .ok ∧ c'.db = c.db) := by
  simp only [sqlInsert, invoke_bind, pure_eq, runs_call] at h
  obtain ⟨c₁, r₁, hprepare, h⟩ := h
  obtain rfl := answers_prepare hs.modelled hprepare
  split at h
  · rename_i hfail
    rw [runs_ret] at h
    obtain ⟨rfl, heq⟩ := h
    cases heq
    exact ⟨rfl, rfl, Or.inr ⟨hfail, rfl⟩⟩
  simp only [runs_call] at h
  obtain ⟨c₂, r₂, hlock, c₃, r₃, hstep, h⟩ := h
  obtain rfl := answers_lock hlock
  -- the step runs the statement or fails without effect; only `SQLITE_DONE` counts
  have hcases : (∃ db n, s.apply c₁.fk c₁.lastRowid c₁.db = some (db, some n) ∧ r₃.rc = .done ∧
      c₃ = { c₁ with db, lastRowid := n, held := true }) ∨
      (r₃.rc ≠ .ok ∧ r₃.rc ≠ .done) ∧ c₃ = { c₁ with held := true } := by
    rcases answers_step hs.modelled hstep with ⟨rfl, hrc⟩ | ⟨rfl, hrc⟩
    · rcases hs.run { c₁ with held := true } with ⟨db, n, happly, hrun⟩ | ⟨hsame, hok, hdone⟩
      · rw [hrun] at hrc ⊢
        exact Or.inl ⟨db, n, happly, hrc, rfl⟩
      · rw [if_neg hok] at hrc
        rw [hrc]
        exact Or.inr ⟨⟨hok, hdone⟩, hsame⟩
    · exact Or.inr ⟨hrc, rfl⟩
  rcases hcases with ⟨db, n, happly, hdone, rfl⟩ | ⟨⟨hok, hdone⟩, rfl⟩
  · rw [if_neg (not_not.mpr hdone)] at h
    simp only [runs_call, runs_ret] at h
    obtain ⟨c₄, r₄, hrowid, c₅, r₅, hunlock, rfl, heq⟩ := h
    obtain ⟨rfl, hn⟩ := answers_lastInsertRowid hrowid
    obtain rfl := answers_unlock hunlock
    cases heq
    refine ⟨rfl, rfl, Or.inl ⟨rfl, n, happly, ?_⟩⟩
    rw [hn]
  · rw [if_pos hdone] at h
    simp only [runs_call, runs_ret] at h
    obtain ⟨c₄, r₄, hunlock, rfl, heq⟩ := h
    obtain rfl := answers_unlock hunlock
    cases heq
    exact ⟨rfl, rfl, Or.inr ⟨hok, rfl⟩⟩

/-- One statement, its code reported as it is. -/
theorem runs_sqlExec {s : Stmt} {rc : Rc} (hs : s ≠ .raw) (h : Runs Answers c (sqlExec s) c' rc) :
    c' = (s.run c).1 ∧ rc = (s.run c).2 ∨ c' = c ∧ rc.IsFailure := by
  simp only [sqlExec, invoke_bind, pure_eq, runs_call, runs_ret] at h
  obtain ⟨c₁, r₁, hexec, rfl, rfl⟩ := h
  rcases answers_exec hs hexec with hran | ⟨rfl, hrc, -⟩
  · exact Or.inl hran
  · exact Or.inr ⟨rfl, hrc⟩

/-- One statement, its code overwritten. -/
theorem runs_sqlExecIgnored {s : Stmt} {rc : Rc} (hs : s ≠ .raw)
    (h : Runs Answers c (sqlExecIgnored s) c' rc) : rc = .ok ∧ (c' = (s.run c).1 ∨ c' = c) := by
  simp only [sqlExecIgnored, invoke_bind, pure_eq, runs_call, runs_ret] at h
  obtain ⟨c₁, r₁, hexec, rfl, rfl⟩ := h
  rcases answers_exec hs hexec with ⟨hran, -⟩ | ⟨hsame, -⟩
  · exact ⟨rfl, Or.inl hran⟩
  · exact ⟨rfl, Or.inr hsame⟩

/-! ## Transactions -/

/-- `ROLLBACK()` restores the tables as they were at the `BEGIN`, if there was
    one. -/
theorem answers_rollback {r : Reply} (h : Answers c (.exec [.rollback]) c' r) :
    c' = { c with db := c.saved.getD c.db, saved := none } := by
  obtain ⟨db, saved, fk, last, held⟩ := c
  rcases answers_exec (by simp) h with ⟨rfl, -⟩ | ⟨rfl, -, hnone⟩
  · cases saved <;> rfl
  · obtain rfl : saved = none := hnone rfl
    rfl

theorem runs_rollback {α : Type} {a b : α} {rc rc' : Rc}
    (h : Runs Answers c (rollback a rc) c' (b, rc')) :
    rc' = rc ∧ c' = { c with db := c.saved.getD c.db, saved := none } := by
  simp only [rollback, invoke_bind, pure_eq, runs_call, runs_ret] at h
  obtain ⟨c₁, r₁, hrollback, rfl, heq⟩ := h
  cases heq
  exact ⟨rfl, answers_rollback hrollback⟩

/-- The same where only the code is returned. -/
theorem runs_rollback_rc {rc rc' : Rc}
    (h : Runs Answers c (do let (_, rc) ← rollback () rc; return rc) c' rc') :
    rc' = rc ∧ c' = { c with db := c.saved.getD c.db, saved := none } := by
  simp only [pure_eq, runs_bind, runs_ret] at h
  obtain ⟨c₁, ⟨_, rc₁⟩, hrollback, rfl, rfl⟩ := h
  exact runs_rollback hrollback

/-- The tables after a list of statements that are all executed. -/
def runAll (ss : List Stmt) (c : Conn) : Conn := ss.foldl (fun c s => (s.run c).1) c

/-- The rest of a transaction: all its statements are executed and it is
    committed, or the tables are as at its `BEGIN`. -/
theorem runs_commitAfter {ss : List Stmt} {d : Db} {rc : Rc}
    (hss : ∀ s ∈ ss, ∃ k, s.effect = .writes k) (hopen : c.saved = some d)
    (h : Runs Answers c (commitAfter ss) c' rc) :
    c'.saved = none ∧ c'.fk = c.fk ∧
      (rc = .ok ∧ c'.db = (runAll ss c).db ∨ rc ≠ .ok ∧ c'.db = d) := by
  induction ss generalizing c with
  | nil =>
    simp only [commitAfter, invoke_bind, pure_eq, runs_call] at h
    obtain ⟨c₁, r₁, hcommit, h⟩ := h
    rcases answers_exec (by simp) hcommit with ⟨rfl, hrc⟩ | ⟨rfl, ⟨hrc, -⟩, -⟩
    · simp only [Stmt.run, hopen, Option.isSome_some, if_true] at hrc h
      rw [if_neg (not_not.mpr hrc), runs_ret] at h
      obtain ⟨rfl, rfl⟩ := h
      exact ⟨rfl, rfl, Or.inl ⟨rfl, rfl⟩⟩
    · rw [if_pos hrc] at h
      obtain ⟨rfl, rfl⟩ := runs_rollback_rc h
      exact ⟨rfl, rfl, Or.inr ⟨hrc, by simp [hopen]⟩⟩
  | cons s ss ih =>
    obtain ⟨k, hk⟩ := hss s (List.mem_cons_self ..)
    have hraw : s ≠ .raw := by
      rintro rfl
      cases hk
    simp only [commitAfter, invoke_bind, runs_call] at h
    obtain ⟨c₁, r₁, hexec, h⟩ := h
    rcases answers_exec hraw hexec with ⟨rfl, hrc⟩ | ⟨rfl, ⟨hrc, -⟩, -⟩
    · obtain ⟨hsaved, hfk⟩ : (s.run c).1.saved = some d ∧ (s.run c).1.fk = c.fk := by
        rcases Stmt.run_of_writes hk c with ⟨x, -, hrun⟩ | ⟨-, hrun⟩
        · rw [hrun]
          exact ⟨hopen, rfl⟩
        · rw [hrun]
          exact ⟨hopen, rfl⟩
      by_cases hok : r₁.rc = .ok
      · rw [if_neg (not_not.mpr hok)] at h
        rw [← hfk]
        exact ih (fun s hs => hss s (List.mem_cons_of_mem _ hs)) hsaved h
      · -- a failed call is followed by a rollback
        rw [if_pos hok] at h
        obtain ⟨rfl, rfl⟩ := runs_rollback_rc h
        exact ⟨rfl, hfk, Or.inr ⟨hok, by simp [hsaved]⟩⟩
    · rw [if_pos hrc] at h
      obtain ⟨rfl, rfl⟩ := runs_rollback_rc h
      exact ⟨rfl, rfl, Or.inr ⟨hrc, by simp [hopen]⟩⟩

/-- A transaction of statements, begun with none open. -/
theorem runs_dropAll {ss : List Stmt} {rc : Rc} (hss : ∀ s ∈ ss, ∃ k, s.effect = .writes k)
    (hidle : c.saved = none)
    (h : Runs Answers c (do
      let r ← invoke (.exec [.begin])
      if r.rc ≠ .ok then
        let (_, rc) ← rollback () r.rc
        return rc
      else commitAfter ss) c' rc) :
    c'.saved = none ∧ c'.fk = c.fk ∧
      (rc = .ok ∧ c'.db = (runAll ss { c with saved := some c.db }).db ∨ rc ≠ .ok ∧ c'.db = c.db) := by
  simp only [invoke_bind, runs_call] at h
  obtain ⟨c₁, r₁, hbegin, h⟩ := h
  rcases answers_exec (by simp) hbegin with ⟨rfl, hrc⟩ | ⟨rfl, ⟨hrc, -⟩, -⟩
  · simp only [Stmt.run, hidle, Option.isSome_none, Bool.false_eq_true, if_false] at hrc h
    rw [if_neg (not_not.mpr hrc)] at h
    exact runs_commitAfter hss rfl h
  · rw [if_pos hrc] at h
    obtain ⟨rfl, rfl⟩ := runs_rollback_rc h
    exact ⟨rfl, rfl, Or.inr ⟨hrc, by simp [hidle]⟩⟩

/-- The statements of `conv_drop`. -/
def Db.dropConv (fk : Bool) (id : Nat) (db : Db) : Db :=
  ((db.deleteMessages fk (·.convId = some id)).deleteMembers (·.convId = id)).deleteConversations fk
    (·.id = id)

/-- The statements of `chat_drop`. -/
def Db.dropChat (fk : Bool) (id : Nat) (db : Db) : Db :=
  (db.deleteMessages fk (·.chatId = some id)).deleteChats fk (·.id = id)

theorem runs_convDrop {id : UInt32} {rc : Rc} (hidle : c.saved = none)
    (h : Runs Answers c (convDrop id) c' rc) :
    c'.saved = none ∧ c'.fk = c.fk ∧
      (rc = .ok ∧ c'.db = c.db.dropConv c.fk id.toNat ∨ rc ≠ .ok ∧ c'.db = c.db) :=
  runs_dropAll (by simp [Stmt.effect]) hidle h

theorem runs_chatDrop {id : UInt32} {rc : Rc} (hidle : c.saved = none)
    (h : Runs Answers c (chatDrop id) c' rc) :
    c'.saved = none ∧ c'.fk = c.fk ∧
      (rc = .ok ∧ c'.db = c.db.dropChat c.fk id.toNat ∨ rc ≠ .ok ∧ c'.db = c.db) :=
  runs_dropAll (by simp [Stmt.effect]) hidle h

/-! ## Inserts with foreign keys -/

/-- No transaction is left open, and the foreign key switch is not turned off. -/
structure Settled (c c' : Conn) : Prop where
  saved : c'.saved = none
  fk : c.fk = true → c'.fk = true

/-- `PRAGMA foreign_keys=ON` outside a transaction. -/
theorem answers_pragma {r : Reply} (hidle : c.saved = none)
    (h : Answers c (.exec [.pragmaForeignKeysOn]) c' r) :
    c' = { c with fk := true } ∧ r.rc = .ok ∨ c' = c ∧ r.rc ≠ .ok := by
  rcases answers_exec (by simp) h with ⟨rfl, hrc⟩ | ⟨rfl, ⟨hrc, -⟩, -⟩
  · simp only [Stmt.run, hidle, Option.isSome_none, Bool.false_eq_true, if_false] at hrc ⊢
    exact Or.inl ⟨trivial, hrc⟩
  · exact Or.inr ⟨rfl, hrc⟩

/-- The switch changes no table. -/
theorem answers_pragma_db {r : Reply} (h : Answers c (.exec [.pragmaForeignKeysOn]) c' r) :
    c'.db = c.db := by
  rcases answers_exec (by simp) h with ⟨rfl, -⟩ | ⟨rfl, -⟩
  · simp only [Stmt.run]
    split <;> rfl
  · rfl

/-- `chat_create` behind its `PRAGMA`, inside a transaction or not. -/
theorem runs_chatCreate_step {a b id : UInt32} {rc : Rc}
    (h : Runs Answers c (chatCreate a b) c' (id, rc)) :
    ∃ c₁ r₁, Answers c (.exec [.pragmaForeignKeysOn]) c₁ r₁ ∧ c'.saved = c₁.saved ∧
      c'.fk = c₁.fk ∧
      (rc = .ok ∧ r₁.rc = .ok ∧ Inserted (.insertChat a.toNat b.toNat) c₁ c' id ∨
        rc ≠ .ok ∧ c'.db = c₁.db) := by
  simp only [chatCreate, invoke_bind, pure_eq, runs_call] at h
  obtain ⟨c₁, r₁, hpragma, h⟩ := h
  refine ⟨c₁, r₁, hpragma, ?_⟩
  by_cases hrc : r₁.rc = .ok
  · rw [if_neg (not_not.mpr hrc)] at h
    obtain ⟨hsaved, hfk, ⟨hok, hinserted⟩ | hfailed⟩ := runs_sqlInsert ⟨by simp, Or.inl rfl⟩ h
    · exact ⟨hsaved, hfk, Or.inl ⟨hok, hrc, hinserted⟩⟩
    · exact ⟨hsaved, hfk, Or.inr hfailed⟩
  · rw [if_pos hrc, runs_ret] at h
    obtain ⟨rfl, heq⟩ := h
    cases heq
    exact ⟨rfl, rfl, Or.inr ⟨hrc, rfl⟩⟩

theorem runs_chatCreate {a b id : UInt32} {rc : Rc} (hidle : c.saved = none)
    (h : Runs Answers c (chatCreate a b) c' (id, rc)) :
    Settled c c' ∧ (rc = .ok ∧ c'.fk = true ∧
      (∃ n, c.db.insertChat true a.toNat b.toNat = some (c'.db, some n) ∧ id = UInt32.ofNat n) ∨
      rc ≠ .ok ∧ c'.db = c.db) := by
  obtain ⟨c₁, r₁, hpragma, hsaved, hfk, hcases⟩ := runs_chatCreate_step h
  rcases answers_pragma hidle hpragma with ⟨rfl, -⟩ | ⟨rfl, hfail⟩
  · refine ⟨⟨hsaved.trans hidle, fun _ => hfk⟩, ?_⟩
    rcases hcases with ⟨hok, -, hinserted⟩ | hfailed
    · exact Or.inl ⟨hok, hfk, hinserted⟩
    · exact Or.inr hfailed
  · refine ⟨⟨hsaved.trans hidle, fun hon => hfk.trans hon⟩, ?_⟩
    rcases hcases with ⟨-, hrc, -⟩ | hfailed
    · exact absurd hrc hfail
    · exact Or.inr hfailed

/-- An insert by `sqlite3_exec`. -/
theorem answers_insert {s : Stmt} {r : Reply} (hs : s.IsInsert) (h : Answers c (.exec [s]) c' r) :
    (∃ db n, s.apply c.fk c.lastRowid c.db = some (db, some n) ∧ r.rc = .ok ∧
      c' = { c with db, lastRowid := n }) ∨ r.rc ≠ .ok ∧ c' = c := by
  rcases answers_exec hs.modelled h with ⟨rfl, hrc⟩ | ⟨rfl, ⟨hrc, -⟩, -⟩
  · rcases hs.run c with ⟨db, n, happly, hrun⟩ | ⟨hsame, hok, -⟩
    · rw [hrun] at hrc ⊢
      exact Or.inl ⟨db, n, happly, hrc, rfl⟩
    · exact Or.inr ⟨by rw [hrc]; exact hok, hsame⟩
  · exact Or.inr ⟨hrc, rfl⟩

/-- A statement with quote-free text is the one it is meant to be, or cut. -/
theorem TextQuery.isInsert {q : TextQuery} (hq : q.QuoteFree) {s : Stmt}
    (hs : s.effect = .writes .insert) : (q.insertStmt s).IsInsert := by
  unfold insertStmt
  rw [if_neg (not_not.mpr hq)]
  split
  · refine ⟨?_, Or.inl hs⟩
    rintro rfl
    cases hs
  · exact ⟨by simp, Or.inr rfl⟩

theorem TextQuery.apply_insertStmt {q : TextQuery} {s : Stmt} (hq : q.QuoteFree) {fk : Bool}
    {last : Nat} {db : Db} {db' : Db} {n : Nat}
    (h : (q.insertStmt s).apply fk last db = some (db', some n)) :
    q.template.text.length ≤ q.room ∧ s.apply fk last db = some (db', some n) := by
  unfold insertStmt at h
  rw [if_neg (not_not.mpr hq)] at h
  split at h
  · exact ⟨‹_›, h⟩
  · cases h

/-- The text of `msg_send`. -/
def MsgSchema.textQuery (msg : MsgSchema) (now : UInt32) : TextQuery :=
  .msgSend msg.fromUid msg.replyTo msg.contentType msg.contentLength msg.content now msg.chatId
    msg.convId

/-- The message is inserted, and its text had room in the query buffer. -/
def MsgSchema.Sends (msg : MsgSchema) (now : UInt32) (db db' : Db) (n : Nat) : Prop :=
  (msg.textQuery now).template.text.length ≤ (msg.textQuery now).room ∧
    db.insertMessage true (msg.newMsg now) = some (db', some n)

/-- `msg_send` behind its `PRAGMA`, inside a transaction or not. -/
theorem runs_msgSend_step {msg : MsgSchema} {now id : UInt32} {rc : Rc}
    (hquote : SqlLex.quote ∉ msg.content.bytes)
    (h : Runs Answers c (msgSend msg now) c' (id, rc)) :
    ∃ c₁ r₁, Answers c (.exec [.pragmaForeignKeysOn]) c₁ r₁ ∧ c'.saved = c₁.saved ∧
      c'.fk = c₁.fk ∧
      (rc = .ok ∧ r₁.rc = .ok ∧ (msg.textQuery now).template.text.length ≤
          (msg.textQuery now).room ∧ Inserted (.insertMessage (msg.newMsg now)) c₁ c' id ∨
        rc ≠ .ok ∧ c'.db = c₁.db) := by
  have hfree : (msg.textQuery now).QuoteFree := by
    simpa [MsgSchema.textQuery, TextQuery.QuoteFree, TextQuery.strings] using hquote
  simp only [msgSend, invoke_bind, pure_eq, runs_call] at h
  obtain ⟨c₁, r₁, hpragma, h⟩ := h
  refine ⟨c₁, r₁, hpragma, ?_⟩
  by_cases hrc : r₁.rc = .ok
  · rw [if_neg (not_not.mpr hrc)] at h
    simp only [runs_call] at h
    obtain ⟨c₂, r₂, hlock, c₃, r₃, hinsert, c₄, r₄, hrowid, h⟩ := h
    obtain rfl := answers_lock hlock
    obtain ⟨rfl, hn⟩ := answers_lastInsertRowid hrowid
    -- the rowid is read either way, but used only after a success
    rcases answers_insert (TextQuery.isInsert hfree rfl) hinsert with
      ⟨db, n, happly, hok, rfl⟩ | ⟨hok, rfl⟩
    · rw [if_neg (not_not.mpr hok)] at h
      simp only [runs_call, runs_ret] at h
      obtain ⟨c₅, r₅, hunlock, rfl, heq⟩ := h
      obtain rfl := answers_unlock hunlock
      cases heq
      obtain ⟨hroom, hmsg⟩ := TextQuery.apply_insertStmt hfree happly
      refine ⟨rfl, rfl, Or.inl ⟨rfl, hrc, hroom, n, hmsg, ?_⟩⟩
      rw [hn]
    · rw [if_pos hok, runs_ret] at h
      obtain ⟨rfl, heq⟩ := h
      cases heq
      exact ⟨rfl, rfl, Or.inr ⟨hok, rfl⟩⟩
  · rw [if_pos hrc, runs_ret] at h
    obtain ⟨rfl, heq⟩ := h
    cases heq
    exact ⟨rfl, rfl, Or.inr ⟨hrc, rfl⟩⟩

theorem runs_msgSend {msg : MsgSchema} {now id : UInt32} {rc : Rc}
    (hquote : SqlLex.quote ∉ msg.content.bytes) (hidle : c.saved = none)
    (h : Runs Answers c (msgSend msg now) c' (id, rc)) :
    Settled c c' ∧ (rc = .ok ∧ (∃ n, msg.Sends now c.db c'.db n ∧ id = UInt32.ofNat n) ∨
      rc ≠ .ok ∧ c'.db = c.db) := by
  obtain ⟨c₁, r₁, hpragma, hsaved, hfk, hcases⟩ := runs_msgSend_step hquote h
  rcases answers_pragma hidle hpragma with ⟨rfl, -⟩ | ⟨rfl, hfail⟩
  · refine ⟨⟨hsaved.trans hidle, fun _ => hfk⟩, ?_⟩
    rcases hcases with ⟨hok, -, hroom, n, hinsert, hid⟩ | hfailed
    · exact Or.inl ⟨hok, n, ⟨hroom, hinsert⟩, hid⟩
    · exact Or.inr hfailed
  · refine ⟨⟨hsaved.trans hidle, fun hon => hfk.trans hon⟩, ?_⟩
    rcases hcases with ⟨-, hrc, -⟩ | hfailed
    · exact absurd hrc hfail
    · exact Or.inr hfailed

/-- A message that is not stored is reported as an error. -/
theorem runs_msgSend_code {msg : MsgSchema} {now id : UInt32} {rc : Rc}
    (hquote : SqlLex.quote ∉ msg.content.bytes)
    (h : Runs Answers c (msgSend msg now) c' (id, rc)) : rc = .ok ∨ rc.IsFailure := by
  have hfree : (msg.textQuery now).QuoteFree := by
    simpa [MsgSchema.textQuery, TextQuery.QuoteFree, TextQuery.strings] using hquote
  have hinsert : (msgSendStmt msg now).IsInsert := TextQuery.isInsert hfree rfl
  simp only [msgSend, invoke_bind, pure_eq, runs_call] at h
  obtain ⟨c₁, r₁, hpragma, h⟩ := h
  have hfirst := answers_exec_code (by simp) hpragma
  split at h
  · obtain ⟨-, heq⟩ := runs_ret.mp h
    cases heq
    exact hfirst
  simp only [runs_call] at h
  obtain ⟨c₂, r₂, -, c₃, r₃, hexec, c₄, r₄, -, h⟩ := h
  have hsecond := answers_exec_code hinsert.modelled hexec
  split at h
  · obtain ⟨-, heq⟩ := runs_ret.mp h
    cases heq
    exact hsecond
  · simp only [runs_call, runs_ret] at h
    obtain ⟨c₅, r₅, -, -, heq⟩ := h
    cases heq
    exact Or.inl rfl

/-- `PRAGMA foreign_keys=ON; BEGIN` outside a transaction. -/
theorem answers_pragmaBegin {r : Reply} (hidle : c.saved = none)
    (h : Answers c (.exec [.pragmaForeignKeysOn, .begin]) c' r) :
    c' = { c with fk := true, saved := some c.db } ∧ r.rc = .ok ∨
      (∃ fk, c' = { c with fk } ∧ (c.fk = true → fk = true)) ∧ r.rc ≠ .ok := by
  have hmodel : SqlCall.Modelled (.exec [.pragmaForeignKeysOn, .begin]) := by
    simp [SqlCall.Modelled]
  cases h with
  | served _ h =>
    simp only [answer, execAll, Stmt.run, hidle, Option.isSome_none, Bool.false_eq_true, if_false,
      Option.some.injEq, Prod.mk.injEq] at h
    obtain ⟨rfl, rfl⟩ := h
    exact Or.inl ⟨rfl, rfl⟩
  | execFault k _ hk _ _ hrc =>
    refine Or.inr ⟨?_, hrc.1⟩
    obtain rfl | rfl : k = 0 ∨ k = 1 := by simp at hk; omega
    · exact ⟨c.fk, rfl, id⟩
    · refine ⟨true, ?_, fun _ => rfl⟩
      simp [execAll, Stmt.run, hidle]
  | foreign hforeign _ => exact absurd hmodel hforeign

/-- A conversation with its first member, whose text had room in the query buffer. -/
def Db.CreatesConv (db db' : Db) (adminId : UInt32) (name : CStr) (id : Nat) : Prop :=
  (TextQuery.convCreate adminId name).template.text.length ≤ querySmall ∧
    ∃ db₁ n, db.insertConversation true adminId.toNat name = some (db₁, some id) ∧
      db₁.insertMember true id adminId.toNat = some (db', some n)

/-- `conv_create`: between its two inserts nothing else is inserted, so that the
    member is one of the new conversation. -/
theorem runs_convCreate {adminId id : UInt32} {name : CStr} {rc : Rc}
    (hquote : SqlLex.quote ∉ name.bytes) (hidle : c.saved = none)
    (h : Runs Answers c (convCreate adminId name) c' (id, rc)) :
    Settled c c' ∧ (rc = .ok ∧ c'.fk = true ∧
      (∃ n, c.db.CreatesConv c'.db adminId name n ∧ id = UInt32.ofNat n) ∨
      rc ≠ .ok ∧ c'.db = c.db) := by
  have hfree : (TextQuery.convCreate adminId name).QuoteFree := by
    simpa [TextQuery.QuoteFree, TextQuery.strings] using hquote
  -- every failure behind the `BEGIN` is followed by a rollback
  have hback : ∀ {c₁ : Conn} {rc₁ : Rc}, c₁.saved = some c.db → c₁.fk = true → rc₁ ≠ .ok →
      Runs Answers c₁ (rollback 0 rc₁) c' (id, rc) →
      Settled c c' ∧ (rc = .ok ∧ c'.fk = true ∧
        (∃ n, c.db.CreatesConv c'.db adminId name n ∧ id = UInt32.ofNat n) ∨
        rc ≠ .ok ∧ c'.db = c.db) := by
    intro c₁ rc₁ hc₁ hfk₁ hrc₁ hrun
    obtain ⟨rfl, rfl⟩ := runs_rollback hrun
    exact ⟨⟨rfl, fun _ => hfk₁⟩, Or.inr ⟨hrc₁, by simp [hc₁]⟩⟩
  simp only [convCreate, invoke_bind, pure_eq, runs_call] at h
  obtain ⟨c₁, r₁, hbegin, h⟩ := h
  rcases answers_pragmaBegin hidle hbegin with ⟨rfl, hrc⟩ | ⟨⟨fk, rfl, hfk⟩, hrc⟩
  · rw [if_neg (not_not.mpr hrc)] at h
    simp only [runs_call] at h
    obtain ⟨c₂, r₂, hlock, c₃, r₃, hinsert, c₄, r₄, hrowid, h⟩ := h
    obtain rfl := answers_lock hlock
    obtain ⟨rfl, hn⟩ := answers_lastInsertRowid hrowid
    rcases answers_insert (TextQuery.isInsert hfree rfl) hinsert with
      ⟨db₁, n, happly, hok, rfl⟩ | ⟨hok, rfl⟩
    · rw [if_neg (not_not.mpr hok)] at h
      simp only [runs_call] at h
      obtain ⟨c₅, r₅, hunlock, c₆, r₆, hmember, h⟩ := h
      obtain rfl := answers_unlock hunlock
      rcases answers_insert ⟨by simp, Or.inl rfl⟩ hmember with
        ⟨db₂, m, happly₂, hok₂, rfl⟩ | ⟨hok₂, rfl⟩
      · rw [if_neg (not_not.mpr hok₂)] at h
        simp only [runs_call] at h
        obtain ⟨c₇, r₇, hcommit, h⟩ := h
        rcases answers_exec (by simp) hcommit with ⟨rfl, hrc₇⟩ | ⟨rfl, ⟨hrc₇, -⟩, -⟩
        · simp only [Stmt.run, Option.isSome_some, if_true] at hrc₇ h
          rw [if_neg (not_not.mpr hrc₇), runs_ret] at h
          obtain ⟨rfl, heq⟩ := h
          cases heq
          obtain ⟨hroom, hconv⟩ := TextQuery.apply_insertStmt hfree happly
          refine ⟨⟨rfl, fun _ => rfl⟩, Or.inl ⟨rfl, rfl, n, ⟨hroom, db₁, m, hconv, happly₂⟩, ?_⟩⟩
          rw [hn]
        · rw [if_pos hrc₇] at h
          exact hback rfl rfl hrc₇ h
      · rw [if_pos hok₂] at h
        exact hback rfl rfl hok₂ h
    · rw [if_pos hok] at h
      exact hback rfl rfl hok h
  · rw [if_pos hrc, runs_ret] at h
    obtain ⟨rfl, heq⟩ := h
    cases heq
    exact ⟨⟨hidle, hfk⟩, Or.inr ⟨hrc, rfl⟩⟩

end MeshChat
