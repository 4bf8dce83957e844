import MeshChat.Server.Change
import MeshChat.Server.IdLists

/-! # Pages of a list

    The lists of conversations, chats and messages are asked for page by page, by
    a limit and an offset in the header. In which order sqlite evaluates such a
    query is left open, apart from it being one order.

    * `RowOrder`: an order of the matching ids for each list; `RowOrder.serve` is
      the connection that evaluates the queries over it. The order of
      `Query.rows` is one of them (`tableOrder_serve`).
    * `PageRequest`: the handlers that answer with a page.
    * `pages_partition`: the pages make up the list.
-/

namespace MeshChat

open CMemory Prog

/-! ## Orders -/

/-- A list that is asked for in pages. -/
inductive Listing where
  | convsOfUser (userId : Nat)
  | chatsOfUser (userId : Nat)
  | messagesOfConv (convId : Nat)
  | messagesOfChat (chatId : Nat)

namespace Listing

/-- The ids of the rows that match its `WHERE`. -/
def matching : Listing → Db → List Nat
  | convsOfUser u, db => db.convIdsOf u
  | chatsOfUser u, db => db.chatIdsOf u
  | messagesOfConv c, db => (db.messages.filter (·.convId = some c)).map (·.id)
  | messagesOfChat c, db => (db.messages.filter (·.chatId = some c)).map (·.id)

/-- The query for a page. -/
def query : Listing → Int → Int → Query
  | convsOfUser u, l, o => .convsOfUser u l o
  | chatsOfUser u, l, o => .chatsOfUser u l o
  | messagesOfConv c, l, o => .messagesOfConv c l o
  | messagesOfChat c, l, o => .messagesOfChat c l o

theorem sound (k : Listing) (l o : Int) : (k.query l o).Sound := by
  cases k <;> exact ⟨by simp [query], rfl, rfl⟩

end Listing

/-- One fixed order of the matching rows of each list. -/
structure RowOrder where
  ids : Listing → Db → List Nat
  perm : ∀ k db, (ids k db).Perm (k.matching db)

namespace RowOrder

/-- The rows of a query when its pages are cut from the order. -/
def rows (order : RowOrder) : Query → Db → List (List Val)
  | .convsOfUser u l o, db => idRows (page l o (order.ids (.convsOfUser u) db))
  | .chatsOfUser u l o, db => idRows (page l o (order.ids (.chatsOfUser u) db))
  | .messagesOfConv c l o, db => idRows (page l o (order.ids (.messagesOfConv c) db))
  | .messagesOfChat c l o, db => idRows (page l o (order.ids (.messagesOfChat c) db))
  | q, db => q.rows db

/-- The connection that evaluates the lists over the order. -/
def serve (order : RowOrder) (c : Conn) : SqlCall → Option (Conn × Reply)
  | .fetch q i =>
    if q = .raw then none
    else match (order.rows q c.db)[i]? with
      | some cols => some (c, { rc := .row, cols })
      | none => some (c, { rc := q.endRc })
  | other => MeshChat.serve c other

def Serves (order : RowOrder) (c : Conn) (call : SqlCall) (c' : Conn) (r : Reply) : Prop :=
  order.serve c call = some (c', r)

theorem rows_query (order : RowOrder) (k : Listing) (l o : Int) (db : Db) :
    order.rows (k.query l o) db = idRows (page l o (order.ids k db)) := by
  cases k <;> rfl

end RowOrder

/-- The order of `Query.rows`: table order, sorted by what `ORDER BY` names. -/
def tableOrder : RowOrder where
  ids
    | .convsOfUser u, db =>
      ((db.members.filter (·.userId = u)).insertionSort (·.rowid ≥ ·.rowid)).map (·.convId)
    | .chatsOfUser u, db => (db.chatIdsOf u).insertionSort (· ≥ ·)
    | .messagesOfConv c, db =>
      ((db.messages.filter (·.convId = some c)).insertionSort (·.createdAt ≥ ·.createdAt)).map
        (·.id)
    | .messagesOfChat c, db =>
      ((db.messages.filter (·.chatId = some c)).insertionSort (·.createdAt ≥ ·.createdAt)).map
        (·.id)
  perm k db := by
    cases k with
    | convsOfUser u => exact (List.perm_insertionSort _ _).map _
    | chatsOfUser u => exact List.perm_insertionSort _ _
    | messagesOfConv c => exact (List.perm_insertionSort _ _).map _
    | messagesOfChat c => exact (List.perm_insertionSort _ _).map _

/-- The connection of the model is one of these. -/
theorem tableOrder_serve (c : Conn) (call : SqlCall) : tableOrder.serve c call = serve c call := by
  cases call with
  | fetch q i =>
    have hrows : tableOrder.rows q c.db = q.rows c.db := by cases q <;> rfl
    have hmodel : SqlCall.Modelled (.fetch q i) ↔ q ≠ .raw := Iff.rfl
    rw [RowOrder.serve, serve, hrows]
    by_cases hq : q = .raw
    · rw [if_pos hq, if_neg (by rw [hmodel]; exact not_not.mpr hq)]
    · rw [if_neg hq, if_pos (hmodel.mpr hq)]
      rfl
  | _ => rfl

variable {c c' : Conn} {order : RowOrder}

theorem RowOrder.delivers {q : Query} (hq : q.Sound) :
    Delivers order.Serves c q (order.rows q c.db) where
  prepared := serves_prepareQuery hq
  row i cols h := by
    show (if _ then _ else _) = _
    rw [if_neg hq.modelled, h]
  ended i h := by
    show (if _ then _ else _) = _
    rw [if_neg hq.modelled, h, ← hq.ended]

theorem RowOrder.Serves.unique (c : Conn) (call : SqlCall) (c₁ : Conn) (r₁ : Reply) (c₂ : Conn)
    (r₂ : Reply) (h₁ : order.Serves c call c₁ r₁) (h₂ : order.Serves c call c₂ r₂) :
    c₁ = c₂ ∧ r₁ = r₂ := by
  have hsame := Option.some.inj (h₁.symm.trans h₂)
  exact ⟨congrArg Prod.fst hsame, congrArg Prod.snd hsame⟩

/-! ## Requests for a page -/

/-- A request that is answered with a page. -/
inductive PageRequest where
  | convGetList
  | chatGetList
  | msgGetAll (rm : RequestMsgBody)

/-- The header with this limit and offset. -/
def RequestHeader.page (header : RequestHeader) (limit offset : Nat) : RequestHeader :=
  { header with limit := Int32.ofNat limit, offset := Int32.ofNat offset }

namespace PageRequest

/-- Its handler. -/
def handle : PageRequest → RequestHeader → SqlProg Handled
  | convGetList, header => handleConvGetList header
  | chatGetList, header => handleChatGetList header
  | msgGetAll rm, header => handleMsgGetAll header rm

/-- What it lists: of the user, or of the room. -/
def listing : PageRequest → RequestHeader → Listing
  | convGetList, header => .convsOfUser header.userId.toNat
  | chatGetList, header => .chatsOfUser header.userId.toNat
  | msgGetAll rm, _ =>
    if 0 < rm.chatId then .messagesOfChat rm.chatId.toNat else .messagesOfConv rm.convId.toNat

/-- Messages are for the members of a room. -/
def Allowed : PageRequest → RequestHeader → Db → Prop
  | convGetList, _, _ | chatGetList, _, _ => True
  | msgGetAll rm, header, db =>
    db.ConvMember rm.convId.toNat header.userId.toNat ∨
      db.ChatMember rm.chatId.toNat header.userId.toNat

/-- The frame for a list of ids. -/
def response : PageRequest → List UInt32 → ResponseCall
  | convGetList => .convGetList 200
  | chatGetList => .chatGetList 200
  | msgGetAll _ => .msgGetAll 200

end PageRequest

/-- Limits and offsets in range pass the clamp. -/
theorem clampPage_ofNat {n : Nat} (h : n < 2 ^ 31) : (clampPage (Int32.ofNat n)).toInt = n := by
  have hvalue : (Int32.ofNat n).toInt = n := Int32.toInt_ofNat_of_lt h
  unfold clampPage
  split
  · exact hvalue
  · rename_i hnot
    rw [Int32.lt_iff_toInt_lt, hvalue] at hnot
    have hzero : n = 0 := by
      simpa using hnot
    simp [hzero]

theorem page_natCast {α : Type} (limit offset : Nat) (l : List α) :
    page (limit : Int) (offset : Int) l = (l.drop offset).take limit := by
  unfold page
  simp

theorem columnZero_idRows (ids : List Nat) :
    (idRows ids).map columnZero = ids.map UInt32.ofNat := by
  simp [idRows, columnZero]

/-- The ids of page `i`: a block of the order, reversed. -/
def RowOrder.pageIds (order : RowOrder) (k : Listing) (db : Db) (limit i : Nat) : List UInt32 :=
  ((((order.ids k db).drop (i * limit)).take limit).map UInt32.ofNat).reverse

/-- A request for a page that is allowed is answered with the rows that its clamped limit and
    offset cut from the order. -/
theorem PageRequest.answered (k : PageRequest) {header : RequestHeader}
    (hallowed : k.Allowed header c.db) :
    Runs order.Serves c (k.handle header) c
      { sent := [k.response ((((page (clampPage header.limit).toInt (clampPage header.offset).toInt
        (order.ids (k.listing header) c.db))).map UInt32.ofNat).reverse)] } := by
  have hlist := (order.delivers (c := c) ((k.listing header).sound (clampPage header.limit).toInt
    (clampPage header.offset).toInt)).sqlGetList
  rw [order.rows_query, columnZero_idRows] at hlist
  cases k with
  | convGetList => exact runs_bind.mpr ⟨c, _, hlist, .ret _ _⟩
  | chatGetList => exact runs_bind.mpr ⟨c, _, hlist, .ret _ _⟩
  | msgGetAll rm =>
    have hquery : msgGetAllQuery header rm =
        ((PageRequest.msgGetAll rm).listing header).query (clampPage header.limit).toInt
          (clampPage header.offset).toInt := by
      by_cases hchat : 0 < rm.chatId
      · simp only [msgGetAllQuery, listing, if_pos hchat]
        rfl
      · simp only [msgGetAllQuery, listing, if_neg hchat]
        rfl
    show Runs order.Serves c (handleMsgGetAll header rm) c _
    rw [handleMsgGetAll_eq, hquery]
    refine Delivers.ifRoomMember (RowOrder.delivers ⟨by simp, rfl, rfl⟩)
      (RowOrder.delivers ⟨by simp, rfl, rfl⟩) hallowed ?_
    exact runs_bind.mpr ⟨c, _, hlist, .ret _ _⟩

/-- The same for a limit and an offset in range. -/
theorem PageRequest.served (k : PageRequest) {header : RequestHeader}
    (hallowed : k.Allowed header c.db) {limit offset : Nat} (hlimit : limit < 2 ^ 31)
    (hoffset : offset < 2 ^ 31) :
    Runs order.Serves c (k.handle (header.page limit offset)) c
      { sent := [k.response
        (((((order.ids (k.listing header) c.db).drop offset).take limit).map
          UInt32.ofNat).reverse)] } := by
  have hpaged : k.Allowed (header.page limit offset) c.db := by cases k <;> exact hallowed
  have hlisting : k.listing (header.page limit offset) = k.listing header := by cases k <;> rfl
  have hanswer : Runs order.Serves c _ c _ := k.answered hpaged
  rw [hlisting] at hanswer
  simp only [RequestHeader.page, clampPage_ofNat hlimit, clampPage_ofNat hoffset, page_natCast]
    at hanswer
  exact hanswer

/-! ## All pages -/

/-- The blocks of a list, one behind the other. -/
theorem flatMap_blocks {α : Type} (l : List α) (limit n : Nat) :
    (List.range n).flatMap (fun i => (l.drop (i * limit)).take limit) = l.take (n * limit) := by
  induction n with
  | zero => simp
  | succ n ih =>
    rw [List.range_succ, List.flatMap_append, ih, Nat.succ_mul, List.take_add]
    simp

/-- A page fits its frame, and the client reads it. -/
theorem PageRequest.read_page (k : PageRequest) {ls : List UInt32}
    (hlen : ls.length ≤ responseBodyLen / 4) (prior : Frame) :
    ∃ frame res copies, (k.response ls).make prior = .ok frame [] ∧
      responseParse frame = .ok (some res) copies ∧ res.body.idls = some ls ∧
      res.header.count.toNat = ls.length := by
  cases k with
  | convGetList => exact (ListQuery.convGetList 0 0 0).parse_response hlen prior
  | chatGetList => exact (ListQuery.chatGetList 0 0 0).parse_response hlen prior
  | msgGetAll rm => exact (ListQuery.msgConvGetAll 0 0 0).parse_response hlen prior

/-- **Pages partition the list.** Over any fixed order of the matching rows, for every database
    and every page size that a frame has room for: a request for page `i` is answered with the
    block `i` of the order, reversed, and the client reads these ids; pages behind the last row
    are empty; and enough pages have every matching id once, in blocks that make up the order. -/
theorem pages_partition (order : RowOrder) (c : Conn) (k : PageRequest) (header : RequestHeader)
    (hallowed : k.Allowed header c.db) {limit : Nat} (hfits : limit ≤ responseBodyLen / 4) :
    (∀ i, i * limit < 2 ^ 31 → ∀ c' out,
      Runs order.Serves c (k.handle (header.page limit (i * limit))) c' out ↔ c' = c ∧
        out = { sent := [k.response (order.pageIds (k.listing header) c.db limit i)] }) ∧
    (∀ i prior, ∃ frame res copies,
      (k.response (order.pageIds (k.listing header) c.db limit i)).make prior = .ok frame [] ∧
        responseParse frame = .ok (some res) copies ∧
        res.body.idls = some (order.pageIds (k.listing header) c.db limit i)) ∧
    (∀ i, ((k.listing header).matching c.db).length ≤ i * limit →
      order.pageIds (k.listing header) c.db limit i = []) ∧
    ∀ n, ((k.listing header).matching c.db).length ≤ n * limit →
      (List.range n).flatMap (fun i => (order.pageIds (k.listing header) c.db limit i).reverse) =
        (order.ids (k.listing header) c.db).map UInt32.ofNat ∧
      ((List.range n).flatMap (order.pageIds (k.listing header) c.db limit)).Perm
        (((k.listing header).matching c.db).map UInt32.ofNat) := by
  have hlength := (order.perm (k.listing header) c.db).length_eq
  refine ⟨?_, ?_, ?_, ?_⟩
  · intro i hoffset c' out
    have hlimit : limit < 2 ^ 31 := by
      simp only [responseBodyLen, bufsiz, responseHeaderLen] at hfits
      omega
    have hserved : Runs order.Serves c (k.handle (header.page limit (i * limit))) c
        { sent := [k.response (order.pageIds (k.listing header) c.db limit i)] } :=
      k.served hallowed hlimit hoffset
    constructor
    · intro hrun
      exact Runs.unique RowOrder.Serves.unique hrun hserved
    · rintro ⟨rfl, rfl⟩
      exact hserved
  · intro i prior
    have hlen : (order.pageIds (k.listing header) c.db limit i).length ≤ responseBodyLen / 4 := by
      rw [RowOrder.pageIds, List.length_reverse, List.length_map, List.length_take]
      omega
    obtain ⟨frame, res, copies, hmake, hparse, hidls, -⟩ := k.read_page hlen prior
    exact ⟨frame, res, copies, hmake, hparse, hidls⟩
  · intro i hbehind
    rw [← hlength] at hbehind
    simp [RowOrder.pageIds, List.drop_eq_nil_of_le hbehind]
  · intro n hall
    have hblocks : (List.range n).flatMap
        (fun i => (order.pageIds (k.listing header) c.db limit i).reverse) =
          (order.ids (k.listing header) c.db).map UInt32.ofNat := by
      have htake := flatMap_blocks ((order.ids (k.listing header) c.db).map UInt32.ofNat) limit n
      rw [List.take_of_length_le (by rw [List.length_map, hlength]; exact hall)] at htake
      simp only [RowOrder.pageIds, List.reverse_reverse, List.map_take, List.map_drop]
      exact htake
    refine ⟨hblocks, ?_⟩
    refine List.Perm.trans ?_ ((order.perm (k.listing header) c.db).map UInt32.ofNat)
    rw [← hblocks]
    exact List.Perm.flatMap_left _ fun i _ => (List.reverse_perm _).symm

/-- User 1 in a conversation with three messages. -/
def threeMessages : Conn :=
  let msg (id : Nat) : MsgRow := ⟨id, 1, none, 0, 2, .ofBytes (ascii "hi"), 10 * id, none, some 1, .sent⟩
  { db := { conversations := [⟨1, 1, .ofBytes (ascii "team")⟩], members := [⟨1, 1, 1⟩],
            messages := [msg 1, msg 2, msg 3] } }

def firstUserHeader : RequestHeader := ⟨4, 0, 0, 0, 0, [], 1, 0, 0⟩

/-- In pages of two: 3 and 2, then 1, then none. -/
theorem pages_partition_three :
    Runs tableOrder.Serves threeMessages
        (handleMsgGetAll (firstUserHeader.page 2 2) { convId := 1 }) threeMessages
        { sent := [.msgGetAll 200 [1]] } ∧
      (List.range 3).map (tableOrder.pageIds (.messagesOfConv 1) threeMessages.db 2) =
        [[2, 3], [1], []] ∧
      ((List.range 2).flatMap (tableOrder.pageIds (.messagesOfConv 1) threeMessages.db 2)).Perm
        [1, 2, 3] := by
  have hallowed : (PageRequest.msgGetAll { convId := 1 }).Allowed firstUserHeader threeMessages.db :=
    Or.inl ⟨⟨1, 1, 1⟩, by decide, rfl, rfl⟩
  obtain ⟨hanswer, -, -, hall⟩ := pages_partition tableOrder threeMessages
    (.msgGetAll { convId := 1 }) firstUserHeader hallowed (show 2 ≤ responseBodyLen / 4 by decide)
  refine ⟨(hanswer 1 (by decide) _ _).mpr ⟨rfl, by decide⟩, by decide, ?_⟩
  exact (hall 2 (by decide)).2

end MeshChat
