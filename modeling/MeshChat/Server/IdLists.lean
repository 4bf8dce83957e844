import MeshChat.Db.SqlServed
import MeshChat.Wire.ResponseRoundTrip

/-! # Lists of ids, from the rows to the client

    A list of ids is built backwards as a linked list of `long` values, counted,
    copied into an array, written to a frame and read from it by the client.

    * `Sll`: the linked list of `sll.c`.
    * `collectRows`, `copyIds`: the loop of `sql_get_list` and the copy loop of the
      handlers, with the conversions they make.
    * `ListQuery`: the functions that return lists, with their responses.
    * `idList_intact`: the client gets the rows in reverse order.
-/

namespace MeshChat

open CMemory Prog

/-! ## Linked lists -/

/-- A `Jval` that holds a `long`. -/
structure Jval where
  l : Int64
  deriving DecidableEq

/-- `new_jval_l`. -/
def newJvalL (l : Int64) : Jval := ⟨l⟩

/-- `sllnode_t *`. -/
inductive Sll where
  | null
  | node (val : Jval) (next : Sll)
  deriving DecidableEq

/-- `sll_insert_node`. -/
def sllInsertNode (head : Sll) (val : Jval) : Sll := .node val head

/-- The loop of `sll_length`. -/
def sllLengthFrom (cnt : Nat) : Sll → Nat
  | .null => cnt
  | .node _ next => sllLengthFrom (cnt + 1) next

/-- `sll_length`. -/
def sllLength (head : Sll) : Nat := sllLengthFrom 0 head

/-- The values in order. -/
def Sll.toList : Sll → List Jval
  | null => []
  | node val next => val :: next.toList

theorem sllLengthFrom_eq (cnt : Nat) (head : Sll) :
    sllLengthFrom cnt head = cnt + head.toList.length := by
  induction head generalizing cnt with
  | null => rfl
  | node val next ih =>
    rw [sllLengthFrom, ih, Sll.toList, List.length_cons]
    omega

theorem sllLength_eq (head : Sll) : sllLength head = head.toList.length := by
  rw [sllLength, sllLengthFrom_eq, Nat.zero_add]

/-! ## The loops -/

/-- `sqlite3_column_int` as the `int` that it is. -/
def Val.columnSigned (v : Val) : Int32 := v.columnInt.toInt32

/-- The loop of `sql_get_list` over the rows that `sqlite3_step` delivers. -/
def collectRows (list : Sll) : List (List Val) → Sll
  | [] => list
  | cols :: rows =>
    collectRows (sllInsertNode list (newJvalL (cols.getD 0 .null).columnSigned.toInt64)) rows

/-- A `long` stored in a `uint32_t`. -/
def Jval.toUInt32 (v : Jval) : UInt32 := v.l.toUInt64.toUInt32

/-- The copy loop of the handlers, with `n` elements to go: `done` is the part of the array that
    is written, and `none` the use of a null pointer. -/
def copyIds : Nat → Sll → List UInt32 → Option (List UInt32)
  | 0, _, done => some done
  | n + 1, .node val next, done => copyIds n next (done ++ [val.toUInt32])
  | _ + 1, .null, _ => none

/-- The list has the rows in reverse order. -/
theorem toList_collectRows (list : Sll) (rows : List (List Val)) :
    (collectRows list rows).toList =
      (rows.map fun cols => newJvalL (cols.getD 0 .null).columnSigned.toInt64).reverse ++
        list.toList := by
  induction rows generalizing list with
  | nil => rfl
  | cons cols rows ih =>
    rw [collectRows, ih, List.map_cons, List.reverse_cons, List.append_assoc]
    rfl

/-- The copy of as many elements as the list has is the whole list. -/
theorem copyIds_eq (head : Sll) (done : List UInt32) :
    copyIds head.toList.length head done = some (done ++ head.toList.map Jval.toUInt32) := by
  induction head generalizing done with
  | null => simp [copyIds, Sll.toList]
  | node val next ih =>
    rw [Sll.toList, List.length_cons, copyIds, ih, List.map_cons, List.append_assoc,
      List.singleton_append]

/-- The sign extension to `long` is undone by the array. -/
theorem toUInt32_newJvalL (v : Val) : (newJvalL v.columnSigned.toInt64).toUInt32 = v.columnInt := by
  apply UInt32.toBitVec_inj.mp
  show (BitVec.signExtend 64 v.columnInt.toBitVec).setWidth 32 = v.columnInt.toBitVec
  apply BitVec.eq_of_getLsbD_eq
  intro i hi
  rw [BitVec.getLsbD_setWidth, BitVec.getLsbD_signExtend]
  simp [hi]
  omega

/-- The array that the handlers send. -/
theorem copyIds_collectRows (rows : List (List Val)) :
    copyIds (sllLength (collectRows .null rows)) (collectRows .null rows) [] =
      some (rows.map columnZero).reverse := by
  rw [sllLength_eq, copyIds_eq, toList_collectRows, List.nil_append, Sll.toList, List.append_nil,
    List.map_reverse, List.map_map]
  congr 2
  apply List.map_congr_left
  intro cols _
  exact toUInt32_newJvalL _

/-! ## The queries and their responses -/

/-- A call of a function that returns a list of ids. -/
inductive ListQuery where
  | userSearch (uname : CStr) (limit offset : Int32)
  | convGetList (userId : UInt32) (limit offset : Int32)
  | convGetMembers (convId : UInt32)
  | chatGetList (userId : UInt32) (limit offset : Int32)
  | msgConvGetAll (convId : UInt32) (limit offset : Int32)
  | msgChatGetAll (chatId : UInt32) (limit offset : Int32)
  | notifyNew (userId : UInt32)
  | notifyDel (userId convId chatId : UInt32)

namespace ListQuery

/-- The function of `sql.c`. -/
def list : ListQuery → SqlProg (List UInt32 × Rc)
  | userSearch s l o => userSearchByUname s l o
  | convGetList u l o => userGetConvList u l o
  | convGetMembers c => MeshChat.convGetMembers c
  | chatGetList u l o => userGetChatList u l o
  | msgConvGetAll c l o => MeshChat.msgConvGetAll c l o
  | msgChatGetAll c l o => MeshChat.msgChatGetAll c l o
  | notifyNew u => msgGetMsgSent u
  | notifyDel u c d => msgGetMsgDel u c d

/-- The query behind it. -/
def query : ListQuery → Query
  | userSearch s l o => searchQuery s l o
  | convGetList u l o => .convsOfUser u.toNat l.toInt o.toInt
  | convGetMembers c => .membersOf c.toNat
  | chatGetList u l o => .chatsOfUser u.toNat l.toInt o.toInt
  | msgConvGetAll c l o => .messagesOfConv c.toNat l.toInt o.toInt
  | msgChatGetAll c l o => .messagesOfChat c.toNat l.toInt o.toInt
  | notifyNew u => .sentTo u.toNat
  | notifyDel u c d =>
    if c ≠ 0 then .deletedInConv u.toNat c.toNat
    else if d ≠ 0 then .deletedInChat u.toNat d.toNat
    else .empty

/-- The response that its handler makes of the array. -/
def response : ListQuery → List UInt32 → ResponseCall
  | userSearch .. => .userSearch 200
  | convGetList .. => .convGetList 200
  | convGetMembers .. => .convGetMembers 200
  | chatGetList .. => .chatGetList 200
  | msgConvGetAll .. | msgChatGetAll .. => .msgGetAll 200
  | notifyNew .. => .msgNotifyNew 200
  | notifyDel .. => .msgNotifyDel 200

theorem list_eq (k : ListQuery) : k.list = sqlGetList k.query := by
  cases k <;> rfl

end ListQuery

/-- The ids of a parsed response. -/
def ResponseBody.idls : ResponseBody → Option (List UInt32)
  | auth _ => none
  | user r => r.idls
  | conv r => r.idls
  | chat r => r.idls
  | msg r => r.idls

/-- A list that fits the body is read back by the client. -/
theorem ListQuery.parse_response (k : ListQuery) {ls : List UInt32}
    (hlen : ls.length ≤ responseBodyLen / 4) (prior : Frame) :
    ∃ frame res copies, (k.response ls).make prior = .ok frame [] ∧
      responseParse frame = .ok (some res) copies ∧ res.body.idls = some ls ∧
      res.header.count.toNat = ls.length := by
  have hwritten : (k.response ls).written = 4 * ls.length := by cases k <;> rfl
  have hids : (k.response ls).ids = ls := by cases k <;> rfl
  have hwellFormed : (k.response ls).WellFormed := by
    refine ⟨by rw [hwritten]; omega, ?_, ?_⟩
    · cases k <;> simp [response, ResponseCall.strings]
    · cases k <;> simp [response, ResponseCall.delimited]
  obtain ⟨b, hb, hidls⟩ : ∃ b, (k.response ls).body = some b ∧ b.idls = some ls := by
    cases k <;> exact ⟨_, rfl, rfl⟩
  obtain ⟨m, hmake, hlaid⟩ := (k.response ls).make_laid hwellFormed.fits prior
  obtain ⟨copies, hbody⟩ := (k.response ls).parseBody_laid hwellFormed hb hlaid
  refine ⟨m, ⟨(k.response ls).header, b⟩, copies, hmake, ?_, hidls, ?_⟩
  · simp [responseParse_of_headerAt hlaid.header, hbody]
  · show (UInt32.ofNat (k.response ls).ids.length).toNat = _
    rw [hids, UInt32.toNat_ofNat']
    have hsmall : ls.length ≤ 2040 := hlen
    omega

/-- **Id lists reach the client intact.** For every query of ids and every sequence of rows that
    fits the body, the list that is collected, counted, copied, encoded and decoded is the reverse
    of the rows modulo `2^32`, and the header counts it. The array is the list that the function of
    `sql.c` returns when these are the rows of its query. -/
theorem idList_intact (k : ListQuery) (rows : List (List Val))
    (hlen : rows.length ≤ responseBodyLen / 4) (prior : Frame) :
    ∃ idls frame res copies,
      copyIds (sllLength (collectRows .null rows)) (collectRows .null rows) [] = some idls ∧
        (k.response idls).make prior = .ok frame [] ∧
        responseParse frame = .ok (some res) copies ∧
        res.body.idls = some (rows.map columnZero).reverse ∧
        res.header.count.toNat = rows.length ∧
        ∀ c, k.query.Sound → k.query.rows c.db = rows → Runs Serves c k.list c (idls, .ok) := by
  have hlength : (rows.map columnZero).reverse.length = rows.length := by simp
  have hfits : (rows.map columnZero).reverse.length ≤ responseBodyLen / 4 := by
    rw [hlength]
    exact hlen
  obtain ⟨frame, res, copies, hmake, hparse, hidls, hcount⟩ := k.parse_response hfits prior
  refine ⟨_, frame, res, copies, copyIds_collectRows rows, hmake, hparse, hidls,
    hcount.trans hlength, ?_⟩
  intro c hsound hrows
  have hserved := served_sqlGetList (c := c) hsound
  rw [hrows] at hserved
  rw [k.list_eq]
  exact hserved

/-- Three ids, the second beyond 32 bits. -/
theorem idList_intact_three :
    ∃ frame res copies, (ResponseCall.msgNotifyNew 200 [4294967295, 5, 7]).make (fun _ => 0xFF) =
        .ok frame [] ∧ responseParse frame = .ok (some res) copies ∧
      res.body.idls = some [4294967295, 5, 7] ∧ res.header.count.toNat = 3 := by
  obtain ⟨idls, frame, res, copies, hcopy, hmake, hparse, hidls, hcount, -⟩ :=
    idList_intact (.notifyNew 1) [[.int 7], [.int 4294967301], [.int (-1)]] (by decide)
      (fun _ => 0xFF)
  have hsame : idls = [4294967295, 5, 7] := by
    rw [copyIds_collectRows] at hcopy
    cases hcopy
    decide
  rw [hsame] at hmake
  exact ⟨frame, res, copies, hmake, hparse, hidls, hcount⟩

end MeshChat
