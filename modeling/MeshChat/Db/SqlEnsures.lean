import MeshChat.Db.Reports
import MeshChat.Db.SqlServed
import MeshChat.Lib.Ensures

/-! # What the operations ensure, with and without failing calls

    One triple for each operation that the handlers use. `clean` says whether every
    call is executed as it should be; an operation that reports an error on a clean
    connection has a reason for it.

    * `FirstRow`, `Existence`, `ListOf`, `Insertion`: how a query or an insert can end.
    * `ensures_…`: that is how the operations do end.
-/

namespace MeshChat

open CMemory SqlLex Prog

/-- What a call may do: anything `Answers` allows, and on a clean connection what it is
    there for. -/
def Calls (clean : Bool) (c : Conn) (call : SqlCall) (c' : Conn) (r : Reply) : Prop :=
  Answers c call c' r ∧ (clean = true → Serves c call c' r)

variable {clean : Bool} {c c' : Conn}

theorem Calls.le : Calls clean ≤ Answers := fun _ _ _ _ h => h.1

theorem Calls.le_serves : Calls true ≤ Serves := fun _ _ _ _ h => h.2 rfl

theorem runs_calls {α : Type} {p : SqlProg α} {a : α} (h : Runs Answers c p c' a)
    (hclean : clean = true → Runs Serves c p c' a) : Runs (Calls clean) c p c' a := by
  cases clean with
  | false =>
    refine h.mono fun _ _ _ _ hcall => ⟨hcall, fun hfalse => ?_⟩
    cases hfalse
  | true => exact (hclean rfl).mono fun _ _ _ _ hcall => ⟨Serves.le _ _ _ _ hcall, fun _ => hcall⟩

/-! ## Calls -/

theorem Calls.answered {call : SqlCall} {r : Reply} (h : Calls clean c call c' r)
    (hmodel : call.Modelled) : answer c call = some (c', r) ∨ clean = false := by
  cases clean with
  | false => exact Or.inr rfl
  | true =>
    have hserved : serve c call = some (c', r) := h.2 rfl
    rw [serve, if_pos hmodel] at hserved
    exact Or.inl hserved

theorem calls_exec {s : Stmt} {r : Reply} (hs : s ≠ .raw) (h : Calls clean c (.exec [s]) c' r) :
    c' = (s.run c).1 ∧ r.rc = (s.run c).2 ∨ clean = false ∧ c' = c ∧ r.rc.IsFailure := by
  rcases answers_exec hs h.1 with hran | ⟨rfl, hrc, -⟩
  · exact Or.inl hran
  · rcases h.answered (by simpa [SqlCall.Modelled] using hs.symm) with hserved | hclean
    · simp only [answer, execAll_singleton, Option.some.injEq, Prod.mk.injEq] at hserved
      obtain ⟨hc, rfl⟩ := hserved
      exact Or.inl ⟨hc.symm, rfl⟩
    · exact Or.inr ⟨hclean, rfl, hrc⟩

theorem calls_prepare {s : Stmt} {r : Reply} (hs : s ≠ .raw) (h : Calls clean c (.prepare s) c' r) :
    c' = c ∧ (r.rc = .ok ∧ s ≠ .malformed ∨
      r.rc.IsFailure ∧ (clean = true → s = .malformed ∧ r.rc = .error)) := by
  refine ⟨answers_prepare hs h.1, ?_⟩
  have hserved : answer c (.prepare s) = some (c', r) →
      r.rc = .ok ∧ s ≠ .malformed ∨
        r.rc.IsFailure ∧ (clean = true → s = .malformed ∧ r.rc = .error) := by
    intro hanswer
    cases hanswer
    by_cases hs : s = .malformed
    · exact Or.inr ⟨by simp [hs, Rc.IsFailure], fun _ => ⟨hs, by simp [hs]⟩⟩
    · exact Or.inl ⟨by simp [hs], hs⟩
  rcases h.answered hs with hanswer | hclean
  · exact hserved hanswer
  · cases h.1 with
    | served _ hanswer => exact hserved hanswer
    | prepareFault hrc =>
      refine Or.inr ⟨hrc, fun htrue => ?_⟩
      rw [hclean] at htrue
      cases htrue
    | foreign hforeign _ => exact absurd hs hforeign

theorem calls_step {s : Stmt} {r : Reply} (hs : s ≠ .raw) (h : Calls clean c (.step s) c' r) :
    c' = (s.run c).1 ∧ r.rc = (if (s.run c).2 = .ok then .done else (s.run c).2) ∨
      clean = false ∧ c' = c ∧ r.rc.IsFailure := by
  rcases h.answered hs with hanswer | hclean
  · cases hanswer
    exact Or.inl ⟨rfl, rfl⟩
  · cases h.1 with
    | served _ hanswer =>
      cases hanswer
      exact Or.inl ⟨rfl, rfl⟩
    | stepFault _ _ hrc => exact Or.inr ⟨hclean, rfl, hrc⟩
    | foreign hforeign _ => exact absurd hs hforeign

/-! ## Queries -/

/-- How a query for its first row ends. -/
inductive FirstRow {α : Type} (clean : Bool) (rows : List (List Val)) (f : List Val → α) :
    Option α × Rc → Prop
  | there {cols : List Val} (h : rows[0]? = some cols) : FirstRow clean rows f (some (f cols), .ok)
  | absent (h : rows = []) : FirstRow clean rows f (none, .empty)
  | failed {rc : Rc} (hclean : clean = false) (herr : sqlIsErr rc = true) :
      FirstRow clean rows f (none, rc)

/-- A run on a clean connection is the one that is known. -/
theorem eq_of_clean {α : Type} {p : SqlProg α} {a a₀ : α} {c₀ : Conn} (hclean : clean = true)
    (hrun : Runs (Calls clean) c p c' a) (hserved : Runs Serves c p c₀ a₀) : c' = c₀ ∧ a = a₀ := by
  subst hclean
  exact Runs.unique Serves.unique (hrun.mono Calls.le_serves) hserved

theorem Query.first_cases {α : Type} (q : Query) (f : List Val → α) (db : Db) :
    (∃ cols, (q.rows db)[0]? = some cols ∧ q.first f db = (some (f cols), .ok)) ∨
      q.rows db = [] ∧ q.first f db = (none, .empty) := by
  unfold first
  split
  · rename_i cols hcols
    exact Or.inl ⟨cols, hcols, rfl⟩
  · rename_i hnone
    exact Or.inr ⟨by simpa using hnone, rfl⟩

theorem firstRow_of_clean {α : Type} {q : Query} {f : List Val → α} {x : Option α × Rc}
    {p : SqlProg (Option α × Rc)} (hserved : Runs Serves c p c (q.first f c.db))
    (hrun : Runs (Calls clean) c p c' x)
    (hcases : c' = c ∧ ((∃ cols, (q.rows c.db)[0]? = some cols ∧ x = (some (f cols), .ok)) ∨
      x.1 = none ∧ (x.2 = .empty ∧ q.rows c.db = [] ∨ sqlIsErr x.2 = true))) :
    c' = c ∧ FirstRow clean (q.rows c.db) f x := by
  obtain ⟨a, rc⟩ := x
  obtain ⟨hc, ⟨cols, hcols, hx⟩ | ⟨hnone, ⟨hempty, hrows⟩ | herr⟩⟩ := hcases
  · rw [hx]
    exact ⟨hc, .there hcols⟩
  · dsimp only at hnone hempty
    subst hnone hempty
    exact ⟨hc, .absent hrows⟩
  · dsimp only at hnone herr
    subst hnone
    refine ⟨hc, ?_⟩
    cases hclean : clean with
    | false => exact .failed rfl herr
    | true =>
      -- the run without failures has another code
      obtain ⟨-, hx⟩ := eq_of_clean hclean hrun hserved
      rcases q.first_cases f c.db with ⟨cols, -, hfirst⟩ | ⟨-, hfirst⟩
      · rw [hfirst] at hx
        cases hx
      · rw [hfirst] at hx
        cases hx
        cases herr

theorem ensures_sqlFirstRow {α : Type} {q : Query} (hq : q.Sound) (f : List Val → α) :
    Ensures (Calls clean) c (sqlFirstRow q f) fun c' x =>
      c' = c ∧ FirstRow clean (q.rows c.db) f x := by
  intro c' x hrun
  obtain ⟨hc, hcases⟩ := runs_sqlFirstRow hq.modelled (hrun.mono Calls.le)
  refine firstRow_of_clean (served_sqlFirstRow hq f) hrun ⟨hc, hcases.imp_left ?_⟩
  rintro ⟨cols, hcols, hfst, hsnd⟩
  exact ⟨cols, hcols, Prod.ext hfst hsnd⟩

theorem ensures_sqlGetInfo {α : Type} {q : Query} (hq : q.Sound) (f : List Val → α) :
    Ensures (Calls clean) c (sqlGetInfo q f) fun c' x =>
      c' = c ∧ FirstRow clean (q.rows c.db) f x := by
  intro c' x hrun
  obtain ⟨hc, hcases⟩ := runs_sqlGetInfo hq.modelled (hrun.mono Calls.le)
  refine firstRow_of_clean (served_sqlGetInfo hq f) hrun ⟨hc, hcases.imp_left ?_⟩
  rintro ⟨cols, hcols, hfst, hsnd⟩
  exact ⟨cols, hcols, Prod.ext hfst hsnd⟩

/-- How a query for existence ends. -/
inductive Existence (clean : Bool) (P : Prop) : Bool × Rc → Prop
  | yes (h : P) : Existence clean P (true, .ok)
  | no (h : ¬ P) : Existence clean P (false, .empty)
  | failed {rc : Rc} (hclean : clean = false) (herr : sqlIsErr rc = true) :
      Existence clean P (false, rc)

theorem ensures_sqlExists {q : Query} {P : Prop} (hq : q.Sound) (hP : q.rows c.db ≠ [] ↔ P) :
    Ensures (Calls clean) c (sqlExists q) fun c' x => c' = c ∧ Existence clean P x := by
  refine (ensures_sqlFirstRow hq fun _ => ()).bind ?_
  rintro c' x ⟨rfl, hfirst⟩
  refine .ret ⟨rfl, ?_⟩
  cases hfirst with
  | there h =>
    refine .yes (hP.mp fun hnil => ?_)
    rw [hnil] at h
    cases h
  | absent h => exact .no fun hp => hP.mpr hp h
  | failed hclean herr => exact .failed hclean herr

/-- How a query for a list ends. -/
inductive ListOf (clean : Bool) (rows : List (List Val)) : List UInt32 × Rc → Prop
  | upTo (n : Nat) (hall : clean = true → rows.length ≤ n) :
      ListOf clean rows (((rows.take n).map columnZero).reverse, .ok)
  | failed {rc : Rc} (hclean : clean = false) (herr : sqlIsErr rc = true) :
      ListOf clean rows ([], rc)

/-- The empty text has no statement to step, but it is prepared. -/
theorem served_sqlGetList_empty : Runs Serves c (sqlGetList .empty) c ([], .ok) := by
  simp only [sqlGetList, invoke_bind, pure_eq, collect_bind, runs_call]
  have hmodel : SqlCall.Modelled (.prepareQuery .empty) := by simp [SqlCall.Modelled]
  refine ⟨c, _, serves_of_answer _ hmodel rfl, ?_⟩
  rw [if_neg (by simp [Query.prepareRc])]
  have hfetch : Serves c (.fetch .empty (0 + 0)) c { rc := .misuse } :=
    serves_of_answer _ (by simp [SqlCall.Modelled]) rfl
  have hnorows : ∀ j r, ([] : List Reply)[j]? = some r → Serves c (.fetch .empty (0 + j)) c r ∧
      decide (r.rc = .row) = true := by
    intro j r hj
    cases hj
  exact Runs.drain hnorows hfetch rfl (.ret _ _)

theorem served_list {q : Query} (hq : q.Sound ∨ q = .empty) :
    Runs Serves c (sqlGetList q) c (((q.rows c.db).map columnZero).reverse, .ok) := by
  rcases hq with hq | rfl
  · exact served_sqlGetList hq
  · exact served_sqlGetList_empty

theorem ensures_sqlGetList {q : Query} (hq : q.Sound ∨ q = .empty) :
    Ensures (Calls clean) c (sqlGetList q) fun c' x => c' = c ∧ ListOf clean (q.rows c.db) x := by
  have hraw : q ≠ .raw := by
    rcases hq with hq | rfl
    · exact hq.modelled
    · simp
  rintro c' ⟨ls, rc⟩ hrun
  obtain ⟨hc, hcases⟩ := runs_sqlGetList hraw (hrun.mono Calls.le)
  refine ⟨hc, ?_⟩
  cases hclean : clean with
  | true =>
    obtain ⟨-, hx⟩ := eq_of_clean hclean hrun (served_list hq)
    have hall : ListOf true (q.rows c.db)
        ((((q.rows c.db).take (q.rows c.db).length).map columnZero).reverse, .ok) :=
      .upTo _ fun _ => le_rfl
    rw [List.take_length] at hall
    rw [hx]
    exact hall
  | false =>
    rcases hcases with ⟨n, rfl, rfl⟩ | ⟨rfl, herr⟩
    · exact .upTo n (by simp)
    · exact .failed rfl herr

/-- A text that was cut is rejected when it is prepared. -/
theorem answers_prepare_malformed {r : Reply} (h : Answers c (.prepareQuery .malformed) c' r) :
    c' = c ∧ r.rc ≠ .ok ∧ sqlIsErr r.rc = true := by
  cases h with
  | served _ h =>
    cases h
    exact ⟨rfl, by simp [Query.prepareRc], rfl⟩
  | queryFault hrc => exact ⟨rfl, hrc.1, sqlIsErr_of_isFailure hrc⟩
  | foreign hforeign _ => exact absurd (by simp [SqlCall.Modelled]) hforeign

theorem ensures_getList_malformed : Ensures (Calls clean) c (sqlGetList .malformed) fun c' x =>
    c' = c ∧ sqlIsErr x.2 = true := by
  simp only [sqlGetList, invoke_bind, pure_eq]
  refine .call fun c₁ r hcall => ?_
  obtain ⟨rfl, hrc, herr⟩ := answers_prepare_malformed hcall.1
  rw [if_pos hrc]
  exact .ret ⟨rfl, herr⟩

theorem ensures_getInfo_malformed {α : Type} (f : List Val → α) :
    Ensures (Calls clean) c (sqlGetInfo .malformed f) fun c' x => c' = c ∧ sqlIsErr x.2 = true := by
  simp only [sqlGetInfo, sqlFirstRow, invoke_bind, pure_eq]
  refine .call fun c₁ r hcalloc => ?_
  obtain rfl := answers_calloc hcalloc.1
  refine .ite (fun _ => .ret ⟨rfl, rfl⟩) fun _ => .call fun c₂ r₂ hcall => ?_
  obtain ⟨rfl, hrc, herr⟩ := answers_prepare_malformed hcall.1
  rw [if_pos hrc]
  exact .ret ⟨rfl, herr⟩

/-! ## Inserts -/

/-- How an insert ends: `made` is what it does to the tables, if no constraint forbids it, and
    `fits` that its text had room in the query buffer. -/
inductive Insertion (clean : Bool) (fits : Prop) (made : Option (Db × Option Nat)) (db : Db) :
    Db → UInt32 × Rc → Prop
  | done {db' : Db} {n : Nat} (hfits : fits) (h : made = some (db', some n)) :
      Insertion clean fits made db db' (UInt32.ofNat n, .ok)
  | refused {id : UInt32} {rc : Rc} (hrc : rc.IsFailure)
      (hclean : clean = true → ¬ fits ∧ rc = .error ∨ made = none ∧ rc = .constraint) :
      Insertion clean fits made db db (id, rc)

/-- The insert that is meant, or a text that was cut. -/
def Stmt.OrCut (fits : Prop) (s s' : Stmt) : Prop := fits ∧ s' = s ∨ ¬ fits ∧ s' = .malformed

theorem TextQuery.orCut {q : TextQuery} (hq : q.QuoteFree) (s : Stmt) :
    s.OrCut (q.template.text.length ≤ q.room) (q.insertStmt s) := by
  unfold insertStmt
  rw [if_neg (not_not.mpr hq)]
  split
  · exact Or.inl ⟨‹_›, rfl⟩
  · exact Or.inr ⟨‹_›, rfl⟩

/-- What the run of an insert or of a cut text does. -/
theorem Stmt.OrCut.run {fits : Prop} {s s' : Stmt} (hcut : s.OrCut fits s')
    (hs : s.effect = .writes .insert) (c : Conn) :
    (∃ db n, fits ∧ s.apply c.fk c.lastRowid c.db = some (db, some n) ∧
      s'.run c = ({ c with db, lastRowid := n }, .ok)) ∨
    ∃ rc, s'.run c = (c, rc) ∧ rc.IsFailure ∧
      (¬ fits ∧ rc = .error ∨ s.apply c.fk c.lastRowid c.db = none ∧ rc = .constraint) := by
  rcases hcut with ⟨hfits, rfl⟩ | ⟨hfits, rfl⟩
  · rcases Stmt.run_of_writes hs c with ⟨⟨db, n⟩, happly, hrun⟩ | ⟨hnone, hrun⟩
    · obtain ⟨row, -, hn, -⟩ := Stmt.apply_insert hs happly
      dsimp only at hn
      subst hn
      exact Or.inl ⟨db, row.rowid, hfits, happly, hrun⟩
    · exact Or.inr ⟨.constraint, hrun, by simp [Rc.IsFailure], Or.inr ⟨hnone, rfl⟩⟩
  · exact Or.inr ⟨.error, rfl, by simp [Rc.IsFailure], Or.inl ⟨hfits, rfl⟩⟩

theorem Stmt.OrCut.ne_raw {fits : Prop} {s s' : Stmt} (hcut : s.OrCut fits s')
    (hs : s.effect = .writes .insert) : s' ≠ .raw := by
  rcases hcut with ⟨-, rfl⟩ | ⟨-, rfl⟩
  · rintro rfl
    cases hs
  · simp

/-- An insert by `sqlite3_exec`. -/
theorem calls_insert {fits : Prop} {s s' : Stmt} {r : Reply} (hcut : s.OrCut fits s')
    (hs : s.effect = .writes .insert) (h : Calls clean c (.exec [s']) c' r) :
    (∃ db n, fits ∧ s.apply c.fk c.lastRowid c.db = some (db, some n) ∧ r.rc = .ok ∧
      c' = { c with db, lastRowid := n }) ∨
    c' = c ∧ r.rc.IsFailure ∧ (clean = true → ¬ fits ∧ r.rc = .error ∨
      s.apply c.fk c.lastRowid c.db = none ∧ r.rc = .constraint) := by
  rcases calls_exec (hcut.ne_raw hs) h with ⟨rfl, hrc⟩ | ⟨hclean, rfl, hrc⟩
  · rcases hcut.run hs c with ⟨db, n, hfits, happly, hrun⟩ | ⟨rc, hrun, hfail, hwhy⟩
    · rw [hrun] at hrc ⊢
      exact Or.inl ⟨db, n, hfits, happly, hrc, rfl⟩
    · rw [hrun] at hrc ⊢
      dsimp only at hrc
      rw [hrc]
      exact Or.inr ⟨rfl, hfail, fun _ => hwhy⟩
  · refine Or.inr ⟨rfl, hrc, fun htrue => ?_⟩
    rw [hclean] at htrue
    cases htrue

theorem ensures_sqlInsert {fits : Prop} {s s' : Stmt} (hcut : s.OrCut fits s')
    (hs : s.effect = .writes .insert) :
    Ensures (Calls clean) c (sqlInsert s') fun c' x => c'.saved = c.saved ∧
      Insertion clean fits (s.apply c.fk c.lastRowid c.db) c.db c'.db x := by
  simp only [sqlInsert, invoke_bind, pure_eq]
  refine .call fun c₁ r hprepare => ?_
  obtain ⟨rfl, hrc⟩ := calls_prepare (hcut.ne_raw hs) hprepare
  refine .ite (fun hfail => .ret ⟨rfl, ?_⟩) fun hok => ?_
  · -- only a text that was cut is rejected at once
    obtain ⟨hfailure, hwhy⟩ := hrc.resolve_left fun hgood => hfail hgood.1
    refine .refused hfailure fun hclean => ?_
    obtain ⟨hmalformed, herror⟩ := hwhy hclean
    rcases hcut with ⟨-, rfl⟩ | ⟨hunfit, -⟩
    · rw [hmalformed] at hs
      cases hs
    · exact Or.inl ⟨hunfit, herror⟩
  refine .call fun c₂ r₂ hlock => .call fun c₃ r₃ hstep => ?_
  obtain rfl := answers_lock hlock.1
  rcases calls_step (hcut.ne_raw hs) hstep with ⟨rfl, hcode⟩ | ⟨hclean, rfl, hcode⟩
  · rcases hcut.run hs { c₁ with held := true } with ⟨db, n, hfits, happly, hrun⟩ |
      ⟨rc, hrun, hfailure, hwhy⟩
    · rw [hrun] at hcode ⊢
      simp only [if_pos] at hcode
      rw [if_neg (not_not.mpr hcode)]
      refine .call fun c₄ r₄ hrowid => .call fun c₅ r₅ hunlock => ?_
      obtain ⟨rfl, hn⟩ := answers_lastInsertRowid hrowid.1
      obtain rfl := answers_unlock hunlock.1
      refine .ret ⟨rfl, ?_⟩
      rw [hn]
      exact .done hfits happly
    · rw [hrun] at hcode ⊢
      dsimp only at hcode
      rw [if_neg hfailure.1] at hcode
      rw [if_pos (by rw [hcode]; exact hfailure.2.2.1)]
      refine .call fun c₄ r₄ hunlock => ?_
      obtain rfl := answers_unlock hunlock.1
      refine .ret ⟨rfl, ?_⟩
      rw [hcode]
      exact .refused hfailure fun _ => hwhy
  · rw [if_pos hcode.2.2.1]
    refine .call fun c₄ r₄ hunlock => ?_
    obtain rfl := answers_unlock hunlock.1
    refine .ret ⟨rfl, .refused hcode fun htrue => ?_⟩
    rw [hclean] at htrue
    cases htrue

/-- The handlers that insert outside a transaction switch foreign keys on first. -/
theorem calls_pragma {r : Reply} (hidle : c.saved = none)
    (h : Calls clean c (.exec [.pragmaForeignKeysOn]) c' r) :
    c' = { c with fk := true } ∧ r.rc = .ok ∨ clean = false ∧ c' = c ∧ r.rc.IsFailure := by
  rcases calls_exec (by simp) h with ⟨rfl, hrc⟩ | hfailed
  · simp only [Stmt.run, hidle, Option.isSome_none, Bool.false_eq_true, if_false] at hrc ⊢
    exact Or.inl ⟨trivial, hrc⟩
  · exact Or.inr hfailed

theorem insertion_of_fault {fits : Prop} {made : Option (Db × Option Nat)} {db : Db} {id : UInt32}
    {rc : Rc} (hclean : clean = false) (hrc : rc.IsFailure) :
    Insertion clean fits made db db (id, rc) := by
  refine .refused hrc fun htrue => ?_
  rw [hclean] at htrue
  cases htrue

theorem ensures_userCreate {uname password phone email : CStr}
    (hfree : (TextQuery.userCreate uname password phone email).QuoteFree) :
    Ensures (Calls clean) c (userCreate uname password phone email) fun c' x => c'.saved = c.saved ∧
      Insertion clean
        ((TextQuery.userCreate uname password phone email).template.text.length ≤ querySmall)
        (c.db.insertUser uname password phone email) c.db c'.db x :=
  ensures_sqlInsert (TextQuery.orCut hfree _) rfl

theorem ensures_convJoin {userId convId : UInt32} :
    Ensures (Calls clean) c (convJoin userId convId) fun c' rc => c'.saved = c.saved ∧
      ∃ id, Insertion clean True (c.db.insertMember c.fk convId.toNat userId.toNat) c.db c'.db
        (id, rc) := by
  refine (ensures_sqlInsert (Or.inl ⟨trivial, rfl⟩) rfl).bind ?_
  rintro c' ⟨id, rc⟩ ⟨hsaved, hinsertion⟩
  exact .ret ⟨hsaved, id, hinsertion⟩

theorem ensures_chatCreate {a b : UInt32} (hidle : c.saved = none) :
    Ensures (Calls clean) c (chatCreate a b) fun c' x => c'.saved = none ∧
      Insertion clean True (c.db.insertChat true a.toNat b.toNat) c.db c'.db x := by
  simp only [chatCreate, invoke_bind, pure_eq]
  refine .call fun c₁ r hpragma => ?_
  rcases calls_pragma hidle hpragma with ⟨rfl, hrc⟩ | ⟨hclean, rfl, hrc⟩
  · rw [if_neg (not_not.mpr hrc)]
    refine (ensures_sqlInsert (Or.inl ⟨trivial, rfl⟩) rfl).mono ?_
    rintro c' x ⟨hsaved, hinsertion⟩
    exact ⟨hsaved.trans hidle, hinsertion⟩
  · rw [if_pos hrc.1]
    exact .ret ⟨hidle, insertion_of_fault hclean hrc⟩

theorem ensures_msgSend {msg : MsgSchema} {now : UInt32} (hquote : quote ∉ msg.content.bytes)
    (hidle : c.saved = none) :
    Ensures (Calls clean) c (msgSend msg now) fun c' x => c'.saved = none ∧
      Insertion clean ((msg.textQuery now).template.text.length ≤ (msg.textQuery now).room)
        (c.db.insertMessage true (msg.newMsg now)) c.db c'.db x := by
  have hfree : (msg.textQuery now).QuoteFree := by
    simpa [MsgSchema.textQuery, TextQuery.QuoteFree, TextQuery.strings] using hquote
  simp only [msgSend, invoke_bind, pure_eq]
  refine .call fun c₁ r hpragma => ?_
  rcases calls_pragma hidle hpragma with ⟨rfl, hrc⟩ | ⟨hclean, rfl, hrc⟩
  swap
  · rw [if_pos hrc.1]
    exact .ret ⟨hidle, insertion_of_fault hclean hrc⟩
  rw [if_neg (not_not.mpr hrc)]
  refine .call fun c₂ r₂ hlock => .call fun c₃ r₃ hexec => .call fun c₄ r₄ hrowid => ?_
  obtain rfl := answers_lock hlock.1
  obtain ⟨rfl, hn⟩ := answers_lastInsertRowid hrowid.1
  rcases calls_insert (TextQuery.orCut hfree (.insertMessage (msg.newMsg now))) rfl hexec with
    ⟨db, n, hfits, happly, hok, rfl⟩ | ⟨rfl, hfailure, hwhy⟩
  · rw [if_neg (not_not.mpr hok)]
    refine .call fun c₅ r₅ hunlock => ?_
    obtain rfl := answers_unlock hunlock.1
    refine .ret ⟨hidle, ?_⟩
    rw [hn]
    exact .done hfits happly
  · rw [if_pos hfailure.1]
    exact .ret ⟨hidle, .refused hfailure hwhy⟩

/-! ## Transactions -/

/-- A failed call of a transaction is followed by a rollback. -/
theorem ensures_rollback {α : Type} {a : α} {rc : Rc} :
    Ensures (Calls clean) c (rollback a rc) fun c' x => x = (a, rc) ∧
      c' = { c with db := c.saved.getD c.db, saved := none } := by
  simp only [rollback, invoke_bind, pure_eq]
  exact .call fun c₁ r hcall => .ret ⟨rfl, answers_rollback hcall.1⟩

theorem ensures_rollback_rc {rc : Rc} :
    Ensures (Calls clean) c (do let (_, rc) ← rollback () rc; return rc) fun c' rc' => rc' = rc ∧
      c' = { c with db := c.saved.getD c.db, saved := none } := by
  refine ensures_rollback.bind ?_
  rintro c' x ⟨rfl, rfl⟩
  exact .ret ⟨rfl, rfl⟩

/-- How a transaction ends that has no constraint to violate. -/
def Transacted (clean : Bool) (made db db' : Db) (rc : Rc) : Prop :=
  rc = .ok ∧ db' = made ∨ clean = false ∧ rc.IsFailure ∧ db' = db

/-- A deletion without a constraint is made. -/
theorem Stmt.run_delete {s : Stmt} (hs : s.effect = .writes .delete)
    (huser : ∀ id, s ≠ .deleteUser id) (c : Conn) : (s.run c).2 = .ok := by
  rcases Stmt.run_of_writes hs c with ⟨x, -, hrun⟩ | ⟨hnone, -⟩
  · rw [hrun]
  · cases s with
    | deleteUser id => exact absurd rfl (huser id)
    | _ => first | cases hnone | cases hs

theorem ensures_commitAfter {ss : List Stmt} {d : Db}
    (hss : ∀ s ∈ ss, s.effect = .writes .delete ∧ ∀ id, s ≠ .deleteUser id)
    (hopen : c.saved = some d) :
    Ensures (Calls clean) c (commitAfter ss) fun c' rc => c'.saved = none ∧
      Transacted clean (runAll ss c).db d c'.db rc := by
  have hback : ∀ {c₁ : Conn} {rc : Rc}, c₁.saved = some d → clean = false → rc.IsFailure →
      Ensures (Calls clean) c₁ (do let (_, rc) ← rollback () rc; return rc) fun c' rc =>
        c'.saved = none ∧ Transacted clean (runAll ss c).db d c'.db rc := by
    intro c₁ rc hsaved hclean hrc
    refine ensures_rollback_rc.mono ?_
    rintro c' rc' ⟨rfl, rfl⟩
    exact ⟨rfl, Or.inr ⟨hclean, hrc, by simp [hsaved]⟩⟩
  induction ss generalizing c with
  | nil =>
    simp only [commitAfter, invoke_bind, pure_eq]
    refine .call fun c₁ r hcommit => ?_
    rcases calls_exec (by simp) hcommit with ⟨rfl, hrc⟩ | ⟨hclean, rfl, hrc⟩
    · simp only [Stmt.run, hopen, Option.isSome_some, if_true] at hrc ⊢
      rw [if_neg (not_not.mpr hrc)]
      exact .ret ⟨rfl, Or.inl ⟨rfl, rfl⟩⟩
    · rw [if_pos hrc.1]
      exact hback hopen hclean hrc
  | cons s ss ih =>
    obtain ⟨heffect, huser⟩ := hss s (List.mem_cons_self ..)
    have hraw : s ≠ .raw := by
      rintro rfl
      cases heffect
    simp only [commitAfter, invoke_bind]
    refine .call fun c₁ r hexec => ?_
    rcases calls_exec hraw hexec with ⟨rfl, hrc⟩ | ⟨hclean, rfl, hrc⟩
    · rw [Stmt.run_delete heffect huser] at hrc
      have hsaved : (s.run c).1.saved = some d := by
        rcases Stmt.run_of_writes heffect c with ⟨x, -, hrun⟩ | ⟨-, hrun⟩
        · rw [hrun]
          exact hopen
        · rw [hrun]
          exact hopen
      rw [if_neg (not_not.mpr hrc)]
      exact ih (fun s hs => hss s (List.mem_cons_of_mem _ hs)) hsaved hback
    · rw [if_pos hrc.1]
      exact hback hopen hclean hrc

/-- A transaction of deletions, begun with none open. -/
theorem ensures_dropAll {ss : List Stmt}
    (hss : ∀ s ∈ ss, s.effect = .writes .delete ∧ ∀ id, s ≠ .deleteUser id)
    (hidle : c.saved = none) :
    Ensures (Calls clean) c (do
      let r ← invoke (.exec [.begin])
      if r.rc ≠ .ok then
        let (_, rc) ← rollback () r.rc
        return rc
      else commitAfter ss) fun c' rc => c'.saved = none ∧
        Transacted clean (runAll ss { c with saved := some c.db }).db c.db c'.db rc := by
  simp only [invoke_bind]
  refine .call fun c₁ r hbegin => ?_
  rcases calls_exec (by simp) hbegin with ⟨rfl, hrc⟩ | ⟨hclean, rfl, hrc⟩
  · simp only [Stmt.run, hidle, Option.isSome_none, Bool.false_eq_true, if_false] at hrc ⊢
    rw [if_neg (not_not.mpr hrc)]
    exact ensures_commitAfter hss rfl
  · rw [if_pos hrc.1]
    refine ensures_rollback_rc.mono ?_
    rintro c' rc ⟨rfl, rfl⟩
    exact ⟨rfl, Or.inr ⟨hclean, hrc, by simp [hidle]⟩⟩

theorem ensures_convDrop {id : UInt32} (hidle : c.saved = none) :
    Ensures (Calls clean) c (convDrop id) fun c' rc => c'.saved = none ∧
      Transacted clean (c.db.dropConv c.fk id.toNat) c.db c'.db rc :=
  ensures_dropAll (by simp [Stmt.effect]) hidle

theorem ensures_chatDrop {id : UInt32} (hidle : c.saved = none) :
    Ensures (Calls clean) c (chatDrop id) fun c' rc => c'.saved = none ∧
      Transacted clean (c.db.dropChat c.fk id.toNat) c.db c'.db rc :=
  ensures_dropAll (by simp [Stmt.effect]) hidle

/-- How `conv_create` ends. -/
inductive Founding (clean : Bool) (db : Db) (adminId : UInt32) (name : CStr) :
    Db → UInt32 × Rc → Prop
  | done {db' : Db} {n : Nat} (h : db.CreatesConv db' adminId name n) :
      Founding clean db adminId name db' (UInt32.ofNat n, .ok)
  | refused {id : UInt32} {rc : Rc} (hrc : rc.IsFailure)
      (hclean : clean = true →
        ¬ (TextQuery.convCreate adminId name).template.text.length ≤ querySmall ∨
          db.hasUser adminId.toNat = false) : Founding clean db adminId name db (id, rc)

/-- The first member of a conversation that was just created can be inserted. -/
theorem Db.insertMember_of_new {db db₁ : Db} {a id : Nat} {name : CStr}
    (hmembers : ∀ m ∈ db.members, ∃ r ∈ db.conversations, r.id = m.convId)
    (h : db.insertConversation true a name = some (db₁, some id)) :
    ∃ db₂ n, db₁.insertMember true id a = some (db₂, some n) := by
  unfold insertConversation insertRow at h
  split at h
  swap
  · cases h
  rename_i hvalid
  cases h
  have hvacant : db.members.any (fun m =>
      m.convId = nextId (db.conversations.map (·.id)) && m.userId = a) = false := by
    rw [List.any_eq_false]
    intro m hm hboth
    obtain ⟨r, hr, hrm⟩ := hmembers m hm
    have hlt : r.id < nextId (db.conversations.map (·.id)) := lt_nextId (List.mem_map_of_mem hr)
    simp only [Bool.and_eq_true, decide_eq_true_eq] at hboth
    omega
  have hthere : db.hasUser a = true := by simpa using hvalid
  refine ⟨_, _, if_pos ?_⟩
  simp only [hvacant, Bool.not_false, Bool.not_true, Bool.false_or, Bool.true_and,
    Bool.and_eq_true]
  exact ⟨by simp [hasConv], hthere⟩

theorem ensures_convCreate {adminId : UInt32} {name : CStr} (hquote : quote ∉ name.bytes)
    (hidle : c.saved = none)
    (hmembers : ∀ m ∈ c.db.members, ∃ r ∈ c.db.conversations, r.id = m.convId) :
    Ensures (Calls clean) c (convCreate adminId name) fun c' x => c'.saved = none ∧
      Founding clean c.db adminId name c'.db x := by
  have hfree : (TextQuery.convCreate adminId name).QuoteFree := by
    simpa [TextQuery.QuoteFree, TextQuery.strings] using hquote
  have hback : ∀ {c₁ : Conn} {rc : Rc}, c₁.saved = some c.db → rc.IsFailure →
      (clean = true →
        ¬ (TextQuery.convCreate adminId name).template.text.length ≤ querySmall ∨
          c.db.hasUser adminId.toNat = false) →
      Ensures (Calls clean) c₁ (rollback 0 rc) fun c' x =>
        c'.saved = none ∧ Founding clean c.db adminId name c'.db x := by
    intro c₁ rc hsaved hrc hwhy
    refine ensures_rollback.mono ?_
    rintro c' x ⟨rfl, rfl⟩
    refine ⟨rfl, ?_⟩
    simp only [hsaved, Option.getD_some]
    exact .refused hrc hwhy
  have hfault : ∀ {P : Prop}, clean = false → clean = true → P := by
    intro P hfalse htrue
    rw [hfalse] at htrue
    cases htrue
  simp only [convCreate, invoke_bind, pure_eq]
  refine .call fun c₁ r hbegin => ?_
  have hfirst : c₁ = { c with fk := true, saved := some c.db } ∧ r.rc = .ok ∨
      clean = false ∧ c₁.saved = none ∧ c₁.db = c.db ∧ r.rc.IsFailure := by
    rcases answers_pragmaBegin hidle hbegin.1 with hbegan | ⟨⟨fk, rfl, -⟩, hrc⟩
    · exact Or.inl hbegan
    · have hmodel : SqlCall.Modelled (.exec [.pragmaForeignKeysOn, .begin]) := by
        simp [SqlCall.Modelled]
      rcases hbegin.answered hmodel with hserved | hclean
      · simp only [answer, execAll, Stmt.run, hidle, Option.isSome_none, Bool.false_eq_true,
          if_false, Option.some.injEq, Prod.mk.injEq] at hserved
        obtain ⟨-, rfl⟩ := hserved
        exact absurd rfl hrc
      · rcases hbegin.1.documented hmodel with hok | hfail
        · exact absurd hok hrc
        · exact Or.inr ⟨hclean, hidle, rfl, hfail⟩
  rcases hfirst with ⟨rfl, hrc⟩ | ⟨hclean, hsaved, hdb, hrc⟩
  swap
  · rw [if_pos hrc.1]
    refine .ret ⟨hsaved, ?_⟩
    rw [hdb]
    exact .refused hrc (hfault hclean)
  rw [if_neg (not_not.mpr hrc)]
  refine .call fun c₂ r₂ hlock => .call fun c₃ r₃ hinsert => .call fun c₄ r₄ hrowid => ?_
  obtain rfl := answers_lock hlock.1
  obtain ⟨rfl, hn⟩ := answers_lastInsertRowid hrowid.1
  have hcut := TextQuery.orCut hfree (.insertConversation adminId.toNat name)
  rcases calls_insert hcut rfl hinsert with
    ⟨db₁, n, hfits, happly, hok, rfl⟩ | ⟨rfl, hfailure, hwhy⟩
  swap
  · rw [if_pos hfailure.1]
    refine hback rfl hfailure fun hclean => ?_
    rcases hwhy hclean with ⟨hunfit, -⟩ | ⟨hnone, -⟩
    · exact Or.inl hunfit
    · right
      simp only [Stmt.apply, Db.insertConversation, Db.insertRow] at hnone
      split at hnone
      · cases hnone
      · rename_i hinvalid
        simpa using hinvalid
  rw [if_neg (not_not.mpr hok)]
  refine .call fun c₅ r₅ hunlock => .call fun c₆ r₆ hmember => ?_
  obtain rfl := answers_unlock hunlock.1
  have huncut : (Stmt.insertMemberOfLast adminId.toNat).OrCut True _ := Or.inl ⟨trivial, rfl⟩
  rcases calls_insert huncut rfl hmember with
    ⟨db₂, m, -, happly₂, hok₂, rfl⟩ | ⟨rfl, hfailure, hwhy⟩
  swap
  · rw [if_pos hfailure.1]
    refine hback rfl hfailure fun hclean => ?_
    -- the admin was found for the conversation, and nobody is a member of it yet
    obtain ⟨db₂, m, hinserted⟩ := Db.insertMember_of_new hmembers happly
    rcases hwhy hclean with ⟨hunfit, -⟩ | ⟨hnone, -⟩
    · exact absurd trivial hunfit
    · cases hnone.symm.trans hinserted
  rw [if_neg (not_not.mpr hok₂)]
  refine .call fun c₇ r₇ hcommit => ?_
  rcases calls_exec (by simp) hcommit with ⟨rfl, hrc₇⟩ | ⟨hclean, rfl, hrc₇⟩
  · simp only [Stmt.run, Option.isSome_some, if_true] at hrc₇ ⊢
    rw [if_neg (not_not.mpr hrc₇)]
    refine .ret ⟨rfl, ?_⟩
    rw [hn]
    exact .done ⟨hfits, db₁, m, happly, happly₂⟩
  · rw [if_pos hrc₇.1]
    exact hback rfl hrc₇ (hfault hclean)

/-! ## Single statements -/

theorem ensures_sqlExec {s : Stmt} (hs : s.effect = .writes .delete)
    (huser : ∀ id, s ≠ .deleteUser id) :
    Ensures (Calls clean) c (sqlExec s) fun c' rc => c' = (s.run c).1 ∧ rc = .ok ∨
      clean = false ∧ c' = c ∧ rc.IsFailure := by
  have hraw : s ≠ .raw := by
    rintro rfl
    cases hs
  simp only [sqlExec, invoke_bind, pure_eq]
  refine .call fun c₁ r hexec => .ret ?_
  rw [← Stmt.run_delete hs huser c]
  exact calls_exec hraw hexec

/-- The code of the statement is overwritten, so that a failure does not show. -/
theorem ensures_sqlExecIgnored {s : Stmt} (hs : s ≠ .raw) :
    Ensures (Calls clean) c (sqlExecIgnored s) fun c' rc => rc = .ok ∧
      (c' = (s.run c).1 ∨ clean = false ∧ c' = c) := by
  simp only [sqlExecIgnored, invoke_bind, pure_eq]
  refine .call fun c₁ r hexec => .ret ⟨rfl, ?_⟩
  rcases calls_exec hs hexec with ⟨hran, -⟩ | ⟨hclean, hsame, -⟩
  · exact Or.inl hran
  · exact Or.inr ⟨hclean, hsame⟩

end MeshChat
