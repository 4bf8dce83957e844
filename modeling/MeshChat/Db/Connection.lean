import MeshChat.Db.Schema
import MeshChat.Lib.Prog

/-! # The shared database connection

    The queries of `sql.c` and what the one sqlite connection does with the
    calls it gets, whichever thread makes them.

    * `Query.rows`: the result rows of a query.
    * `Conn`: the connection. It has one autocommit or transaction state, one
      `last_insert_rowid` and one foreign key switch. The insert mutex of
      `sql.c` is kept beside it.
    * `answer`: what a call does when nothing goes wrong.
    * `Answers`: what a call may do; any call may also fail, without effect.
-/

namespace MeshChat

open CMemory

/-! ## Queries -/

/-- A column value. -/
inductive Val where
  | null
  | int (n : Int)
  | text (s : CStr)
  deriving DecidableEq

namespace Val

/-- `sqlite3_column_int`, stored in 32 bits: the low bits, and 0 for `NULL`. -/
def columnInt : Val → UInt32
  | int n => UInt32.ofInt n
  | _ => 0

@[simp] theorem columnInt_natCast (n : Nat) : (int n).columnInt = UInt32.ofNat n := by
  apply UInt32.toNat_inj.mp
  simp only [columnInt, UInt32.ofInt, UInt32.toNat_ofNat']
  omega

/-- `sqlite3_column_text`; the text columns are `NOT NULL`. -/
def columnText : Val → CStr
  | text s => s
  | _ => default

def ofOption : Option Nat → Val
  | some n => int n
  | none => null

end Val

/-- The queries of `sql.c`. `empty` is the empty text, `malformed` and `raw` are
    as for statements. -/
inductive Query where
  | userById (id : Nat)
  | userByUname (uname : CStr)
  | userSearch (pattern : List UInt8) (limit offset : Int)
  | convsOfUser (userId : Nat) (limit offset : Int)
  | chatsOfUser (userId : Nat) (limit offset : Int)
  | convAdmin (convId userId : Nat)
  | convMember (convId userId : Nat)
  | convById (id : Nat)
  | membersOf (convId : Nat)
  | chatMember (chatId userId : Nat)
  | chatById (id : Nat)
  | messagesOfConv (convId : Nat) (limit offset : Int)
  | messagesOfChat (chatId : Nat) (limit offset : Int)
  | messageById (id : Nat)
  | sentTo (userId : Nat)
  | deletedInConv (userId convId : Nat)
  | deletedInChat (userId chatId : Nat)
  | empty
  | malformed
  | raw
  deriving DecidableEq

/-! ### `LIKE` -/

/-- ASCII case folding. -/
def foldCase (b : UInt8) : UInt8 := if 65 ≤ b ∧ b ≤ 90 then b + 32 else b

/-- Drop one UTF-8 character. -/
def dropChar : List UInt8 → List UInt8
  | [] => []
  -- a byte that begins a character takes those that continue it along
  | b :: t => if 0xC0 ≤ b then t.dropWhile fun c => 0x80 ≤ c && c < 0xC0 else t

/-- The suffixes of a text at character boundaries; `n` bounds their number. -/
def charSuffixes : Nat → List UInt8 → List (List UInt8)
  | 0, t => [t]
  | n + 1, t => if t = [] then [[]] else t :: charSuffixes n (dropChar t)

/-- `text LIKE pattern`: `%` stands for any characters, `_` for one, and case is
    ignored for ASCII letters. -/
def like : List UInt8 → List UInt8 → Bool
  | [], t => t = []
  | p :: ps, t =>
    if p = 37 then (charSuffixes t.length t).any (like ps)
    else if p = 95 then t ≠ [] && like ps (dropChar t)
    else match t with
      | [] => false
      | b :: t => foldCase b = foldCase p && like ps t

/-! ### Rows of a query -/

/-- `LIMIT … OFFSET …`; a negative limit is none. -/
def page {α : Type} (limit offset : Int) (l : List α) : List α :=
  -- a negative offset is 0
  let l := l.drop offset.toNat
  if limit < 0 then l else l.take limit.toNat

theorem mem_of_mem_page {α : Type} {limit offset : Int} {l : List α} {a : α}
    (h : a ∈ page limit offset l) : a ∈ l := by
  unfold page at h
  dsimp only at h
  split at h
  · exact List.mem_of_mem_drop h
  · exact List.mem_of_mem_drop (List.mem_of_mem_take h)

/-- The rows of a message, in the order of `CREATE TABLE`. -/
def MsgRow.cols (m : MsgRow) : List Val :=
  [.int m.id, .int m.fromUid, .ofOption m.replyTo, .int m.contentType, .int m.contentLength,
   .text m.content, .int m.createdAt, .ofOption m.chatId, .ofOption m.convId, .int m.type.code]

/-- A column of ids. -/
def idRows (ids : List Nat) : List (List Val) := ids.map fun i : Nat => [.int i]

namespace Db

/-- `SELECT conv_id FROM members WHERE user_id=?`. -/
def convIdsOf (db : Db) (userId : Nat) : List Nat :=
  (db.members.filter (·.userId = userId)).map (·.convId)

/-- `SELECT id FROM chats WHERE member1=? OR member2=?`. -/
def chatIdsOf (db : Db) (userId : Nat) : List Nat :=
  (db.chats.filter fun c => c.member1 = userId || c.member2 = userId).map (·.id)

/-- The messages of the query of `msg_get_msg_sent`, without duplicates. -/
def sentTo (db : Db) (userId : Nat) : List Nat :=
  let inChats := db.messages.filter fun m =>
    m.chatId.any (· ∈ db.chatIdsOf userId) && m.type = .sent
  let inConvs := db.messages.filter fun m =>
    m.convId.any (· ∈ db.convIdsOf userId) && m.type = .sent
  -- `UNION` of the two, which sorts as well
  ((inChats.map (·.id) ++ inConvs.map (·.id)).dedup).insertionSort (· ≤ ·)

end Db

/-- The rows of a query, in the order sqlite delivers them; without `ORDER BY`
    that is table order, and for a search the order of the index on `uname`, which
    covers it. -/
def Query.rows : Query → Db → List (List Val)
  | userById id, db =>
    (db.users.filter (·.id = id)).map fun u =>
      [.int u.id, .text u.uname, .text u.password, .text u.phone, .text u.email]
  | userByUname s, db =>
    (db.users.filter (·.uname = s)).map fun u => [.int u.id, .text u.uname, .text u.password]
  | userSearch p l o, db =>
    let rows := (db.users.filter fun u => like p u.uname.bytes).insertionSort
      (·.uname.bytes ≤ ·.uname.bytes)
    idRows (page l o (rows.map (·.id)))
  | convsOfUser u l o, db =>
    let rows := (db.members.filter (·.userId = u)).insertionSort (·.rowid ≥ ·.rowid)
    idRows (page l o (rows.map (·.convId)))
  | chatsOfUser u l o, db => idRows (page l o ((db.chatIdsOf u).insertionSort (· ≥ ·)))
  | convAdmin c u, db =>
    idRows ((db.conversations.filter fun r => r.id = c && r.adminId = u).map (·.id))
  | convMember c u, db =>
    idRows ((db.members.filter fun m => m.convId = c && m.userId = u).map (·.rowid))
  | convById id, db =>
    (db.conversations.filter (·.id = id)).map fun c => [.int c.id, .int c.adminId, .text c.name]
  | membersOf c, db => idRows ((db.members.filter (·.convId = c)).map (·.userId))
  | chatMember c u, db =>
    idRows ((db.chats.filter fun r => r.id = c && (r.member1 = u || r.member2 = u)).map (·.id))
  | chatById id, db =>
    (db.chats.filter (·.id = id)).map fun c => [.int c.id, .int c.member1, .int c.member2]
  | messagesOfConv c l o, db =>
    let rows := (db.messages.filter (·.convId = some c)).insertionSort (·.createdAt ≥ ·.createdAt)
    idRows (page l o (rows.map (·.id)))
  | messagesOfChat c l o, db =>
    let rows := (db.messages.filter (·.chatId = some c)).insertionSort (·.createdAt ≥ ·.createdAt)
    idRows (page l o (rows.map (·.id)))
  | messageById id, db => (db.messages.filter (·.id = id)).map (·.cols)
  | sentTo u, db => idRows (db.sentTo u)
  | deletedInConv u c, db =>
    idRows ((db.messages.filter fun m =>
      m.convId.any (fun k => k = c && k ∈ db.convIdsOf u) && m.type = .deleted).map (·.id))
  | deletedInChat u c, db =>
    idRows ((db.messages.filter fun m =>
      m.chatId.any (fun k => k = c && k ∈ db.chatIdsOf u) && m.type = .deleted).map (·.id))
  | empty, _ | malformed, _ | raw, _ => []

/-- What `sqlite3_prepare_v2` says about the text. -/
def Query.prepareRc : Query → Rc
  | malformed => .error
  | _ => .ok

/-- What `sqlite3_step` returns behind the last row; the empty text has no
    statement to step. -/
def Query.endRc : Query → Rc
  | empty => .misuse
  | _ => .done

/-! ## The connection -/

/-- The connection and the mutex. `saved` is the database as it was at the
    `BEGIN` of the open transaction. -/
structure Conn where
  db : Db
  saved : Option Db := none
  fk : Bool := false
  lastRowid : Nat := 0
  held : Bool := false
  deriving DecidableEq

/-- Execute one statement. -/
def Stmt.run (s : Stmt) (c : Conn) : Conn × Rc :=
  match s with
  -- without effect inside a transaction
  | pragmaForeignKeysOn => (if c.saved.isSome then c else { c with fk := true }, .ok)
  | begin => if c.saved.isSome then (c, .error) else ({ c with saved := some c.db }, .ok)
  | commit => if c.saved.isSome then ({ c with saved := none }, .ok) else (c, .error)
  | rollback =>
    match c.saved with
    | some db => ({ c with db, saved := none }, .ok)
    | none => (c, .error)
  -- `raw` is never served: see `Answers.foreign`
  | malformed | raw => (c, .error)
  | s =>
    match s.apply c.fk c.lastRowid c.db with
    | some (db, rowid) => ({ c with db, lastRowid := rowid.getD c.lastRowid }, .ok)
    -- `apply` is undefined where a constraint is violated
    | none => (c, .constraint)

/-- `sqlite3_exec`: the statements of a text in order, up to the first failure. -/
def execAll : List Stmt → Conn → Conn × Rc
  | [], c => (c, .ok)
  | s :: ss, c =>
    match s.run c with
    | (c, .ok) => execAll ss c
    | (c, rc) => (c, rc)

/-- The calls `sql.c` makes. A prepared statement is stepped once, a prepared
    query until its rows are exhausted (`fetch q i` is the step for row `i`). -/
inductive SqlCall where
  | calloc
  | exec (stmts : List Stmt)
  | prepare (s : Stmt)
  | step (s : Stmt)
  | prepareQuery (q : Query)
  | fetch (q : Query) (i : Nat)
  | lastInsertRowid
  | lock
  | unlock
  deriving DecidableEq

/-- A reply: the result code, the columns of a row, or a rowid. -/
structure Reply where
  rc : Rc := .ok
  cols : List Val := []
  rowid : Nat := 0
  deriving DecidableEq

abbrev SqlProg (α : Type) : Type := Prog SqlCall Reply α

/-- What a call does when nothing goes wrong; `none` is a lock that blocks. -/
def answer (c : Conn) : SqlCall → Option (Conn × Reply)
  | .calloc => some (c, {})
  | .exec stmts => some ((execAll stmts c).1, { rc := (execAll stmts c).2 })
  | .prepare s => some (c, { rc := if s = .malformed then .error else .ok })
  | .step s => some ((s.run c).1, { rc := if (s.run c).2 = .ok then .done else (s.run c).2 })
  | .prepareQuery q => some (c, { rc := q.prepareRc })
  | .fetch q i =>
    match (q.rows c.db)[i]? with
    | some cols => some (c, { rc := .row, cols })
    | none => some (c, { rc := q.endRc })
  | .lastInsertRowid => some (c, { rowid := c.lastRowid })
  | .lock => if c.held then none else some ({ c with held := true }, {})
  | .unlock => some ({ c with held := false }, {})

/-- The call's text is an instance of its template. -/
def SqlCall.Modelled : SqlCall → Prop
  | exec stmts => .raw ∉ stmts
  | prepare s | step s => s ≠ .raw
  | prepareQuery q | fetch q _ => q ≠ .raw
  | calloc | lastInsertRowid | lock | unlock => True

instance : DecidablePred SqlCall.Modelled
  | .exec stmts => inferInstanceAs (Decidable (.raw ∉ stmts))
  | .prepare s | .step s => inferInstanceAs (Decidable (s ≠ .raw))
  | .prepareQuery q | .fetch q _ => inferInstanceAs (Decidable (q ≠ .raw))
  | .calloc | .lastInsertRowid | .lock | .unlock => inferInstanceAs (Decidable True)

/-- The codes of a failing call. `SQLITE_EMPTY` is never returned by sqlite. -/
def Rc.IsFailure (rc : Rc) : Prop := rc ≠ .ok ∧ rc ≠ .row ∧ rc ≠ .done ∧ rc ≠ .empty

/-- The codes that a call may return. -/
def SqlCall.Documented (call : SqlCall) (r : Reply) : Prop :=
  match call with
  | calloc => r.rc = .ok ∨ r.rc = .nomem
  | exec _ | prepare _ | prepareQuery _ => r.rc = .ok ∨ r.rc.IsFailure
  | step _ | fetch _ _ => r.rc = .row ∨ r.rc = .done ∨ r.rc.IsFailure
  | lastInsertRowid | lock | unlock => True

/-- What a call may do.

    * `served`: it is served as `answer` says;
    * `execFault`: statement `k` of a text fails without effect, after the ones
      before it were served; only the rollback of an open transaction never
      fails;
    * `callocFault`: there is no memory;
    * `prepareFault`, `stepFault`, `queryFault`, `fetchFault`: the same for the
      other calls into sqlite;
    * `foreign`: a text that is not its template may do anything to the
      connection. -/
inductive Answers : Conn → SqlCall → Conn → Reply → Prop
  | served {c c' : Conn} {call : SqlCall} {r : Reply} (hmodel : call.Modelled)
      (h : answer c call = some (c', r)) : Answers c call c' r
  | execFault {c : Conn} {stmts : List Stmt} {rc : Rc} (k : Nat) (hmodel : .raw ∉ stmts)
      (hk : k < stmts.length) (hserved : (execAll (stmts.take k) c).2 = .ok)
      (hrollback : stmts[k] = .rollback → (execAll (stmts.take k) c).1.saved = none)
      (hrc : rc.IsFailure) :
      Answers c (.exec stmts) (execAll (stmts.take k) c).1 { rc }
  | callocFault {c : Conn} : Answers c .calloc c { rc := .nomem }
  | prepareFault {c : Conn} {s : Stmt} {rc : Rc} (hrc : rc.IsFailure) :
      Answers c (.prepare s) c { rc }
  | stepFault {c : Conn} {s : Stmt} {rc : Rc} (hmodel : s ≠ .raw)
      (hrollback : s = .rollback → c.saved = none) (hrc : rc.IsFailure) :
      Answers c (.step s) c { rc }
  | queryFault {c : Conn} {q : Query} {rc : Rc} (hrc : rc.IsFailure) :
      Answers c (.prepareQuery q) c { rc }
  | fetchFault {c : Conn} {q : Query} {i : Nat} {rc : Rc} (hrc : rc.IsFailure) :
      Answers c (.fetch q i) c { rc }
  | foreign {c c' : Conn} {call : SqlCall} {r : Reply} (hmodel : ¬ call.Modelled)
      (hheld : c'.held = c.held) : Answers c call c' r

/-- A call whose text is an instance of its template, when nothing goes wrong. -/
def serve (c : Conn) (call : SqlCall) : Option (Conn × Reply) :=
  if call.Modelled then answer c call else none

theorem answers_of_serve (c : Conn) (call : SqlCall) (c' : Conn) (r : Reply)
    (h : serve c call = some (c', r)) : Answers c call c' r := by
  unfold serve at h
  split at h
  · exact .served ‹_› h
  · cases h

end MeshChat
