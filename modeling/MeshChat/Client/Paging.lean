import MeshChat.Server.Pages
import MeshChat.Server.Session

/-! # Going through the pages (`PaginateViewModel.java`)

    The client counts pages from 1 and asks for the messages of a page by its size and
    its offset. Older messages are on higher pages: `goToNextPage` counts down.

    * `Paginate`: the page number and the page size, Java's `int`.
    * `PageOp`: the calls; `visited` lists the states of a sequence of them.
    * `Paginate.window`: the messages of a page, as the server cuts them.
    * `StepsFit`: no sum or product leaves the range of an `int`.
    * `StaysBack`: `goToNextPage` is not called on page 1, where its guard lets it pass.
    * `pages_apart_iff`: no page is below 1, and different pages have no message in
      common, exactly when it is not.
-/

namespace MeshChat

open CMemory Prog

/-! ## The view model -/

/-- `PaginateViewModel`. -/
structure Paginate where
  page : Int32
  pageSize : Int32
  deriving DecidableEq

namespace Paginate

def resetPage (p : Paginate) : Paginate := { p with page := 1 }

/-- The constructor. -/
def new (pageSize : Int32) : Paginate := resetPage { page := 0, pageSize }

/-- `goToNextPage`; `none` is the exception. -/
def goToNextPage (p : Paginate) : Option Paginate :=
  if 1 ≤ p.page then some { p with page := p.page - 1 } else none

def goToPrevPage (p : Paginate) : Paginate := { p with page := p.page + 1 }

/-- `IPaginateViewModel.getOffset`. -/
def getOffset (p : Paginate) : Int32 := (p.page - 1) * p.pageSize

/-- What the server shows for the page: it clamps the limit and the offset. -/
def window (order : RowOrder) (k : Listing) (db : Db) (p : Paginate) : List Nat :=
  MeshChat.page (clampPage p.pageSize).toInt (clampPage p.getOffset).toInt (order.ids k db)

/-- The product of the offset is an `int`. -/
def Fits (p : Paginate) : Prop := (p.page.toInt - 1) * p.pageSize.toInt < 2 ^ 31

end Paginate

/-- A call of the view model. -/
inductive PageOp where
  | next
  | prev
  | reset
  deriving DecidableEq

/-- The state after a call; the caller catches the exception. -/
def PageOp.run (p : Paginate) : PageOp → Paginate
  | next => p.goToNextPage.getD p
  | prev => p.goToPrevPage
  | reset => p.resetPage

/-- The states of a sequence of calls, the first one included. -/
def visited : List PageOp → Paginate → List Paginate
  | [], p => [p]
  | op :: ops, p => p :: visited ops (op.run p)

/-- Nothing overflows along the sequence. -/
def StepsFit : List PageOp → Paginate → Prop
  | [], p => p.Fits
  | op :: ops, p => p.Fits ∧ (op = .prev → p.page.toInt + 1 < 2 ^ 31) ∧ StepsFit ops (op.run p)

/-- `goToNextPage` is never called on page 1. -/
def StaysBack : List PageOp → Paginate → Prop
  | [], _ => True
  | op :: ops, p => (op = .next → p.page ≠ 1) ∧ StaysBack ops (op.run p)

/-- The window is what a member of the room is answered with. -/
theorem window_answered (order : RowOrder) {c : Conn} {header : RequestHeader}
    {rm : RequestMsgBody} (hallowed : (PageRequest.msgGetAll rm).Allowed header c.db)
    (p : Paginate) :
    Runs order.Serves c
      (handleMsgGetAll { header with limit := p.pageSize, offset := p.getOffset } rm) c
      { sent := [.msgGetAll 200 ((p.window order ((PageRequest.msgGetAll rm).listing header)
        c.db).map UInt32.ofNat).reverse] } := by
  have hpaged : (PageRequest.msgGetAll rm).Allowed
      { header with limit := p.pageSize, offset := p.getOffset } c.db := hallowed
  exact PageRequest.answered _ hpaged

/-! ## Page numbers -/

theorem toInt_one : (1 : Int32).toInt = 1 := rfl

theorem clampPage_toInt {n : Int32} (h : 0 ≤ n.toInt) : (clampPage n).toInt = n.toInt := by
  unfold clampPage
  split
  · rfl
  · rename_i hnot
    rw [Int32.lt_iff_toInt_lt] at hnot
    have hzero : (0 : Int32).toInt = 0 := rfl
    omega

namespace Paginate

variable {p q : Paginate}

theorem le_page_iff : 1 ≤ p.page ↔ 1 ≤ p.page.toInt := by
  rw [Int32.le_iff_toInt_le, toInt_one]

/-- On page 1 and above the offset is what it should be. -/
theorem getOffset_toInt (hpage : 1 ≤ p.page.toInt) (hsize : 1 ≤ p.pageSize.toInt) (hfits : p.Fits) :
    p.getOffset.toInt = (p.page.toInt - 1) * p.pageSize.toInt := by
  have hupper := Int32.toInt_lt p.page
  -- neither the subtraction nor the product leaves the range of an `int`
  have hsub : (p.page - 1).toInt = p.page.toInt - 1 := by
    rw [Int32.toInt_sub, toInt_one]
    exact Int.bmod_eq_of_le (by omega) (by omega)
  have hnonneg : 0 ≤ (p.page.toInt - 1) * p.pageSize.toInt :=
    Int.mul_nonneg (by omega) (by omega)
  unfold Fits at hfits
  rw [getOffset, Int32.toInt_mul, hsub]
  exact Int.bmod_eq_of_le (by omega) (by omega)

theorem getOffset_nonneg (hpage : 1 ≤ p.page.toInt) (hsize : 1 ≤ p.pageSize.toInt)
    (hfits : p.Fits) : 0 ≤ p.getOffset.toInt := by
  rw [getOffset_toInt hpage hsize hfits]
  exact Int.mul_nonneg (by omega) (by omega)

/-- The window of page `i + 1` is block `i`. -/
theorem window_eq {order : RowOrder} {k : Listing} {db : Db} (hpage : 1 ≤ p.page.toInt)
    (hsize : 1 ≤ p.pageSize.toInt) (hfits : p.Fits) :
    p.window order k db =
      ((order.ids k db).drop ((p.page.toInt - 1).toNat * p.pageSize.toInt.toNat)).take
        p.pageSize.toInt.toNat := by
  have hoffset := getOffset_toInt hpage hsize hfits
  have hnonneg := getOffset_nonneg hpage hsize hfits
  -- the server changes neither number, since neither is negative
  rw [window, clampPage_toInt (by omega), clampPage_toInt hnonneg, hoffset, MeshChat.page,
    if_neg (by omega), Int.toNat_mul (by omega) (by omega)]

/-- Blocks of a list without repetition have nothing in common. -/
theorem blocks_disjoint {l : List Nat} (hl : l.Nodup) {i j : Nat} (n : Nat) (hij : i ≠ j) :
    ((l.drop (i * n)).take n).Disjoint ((l.drop (j * n)).take n) := by
  have hordered : ∀ {i j : Nat}, i < j →
      ((l.drop (i * n)).take n).Disjoint ((l.drop (j * n)).take n) := by
    intro i j hlt
    have hle : i * n + n ≤ j * n := by
      rw [← Nat.succ_mul]
      exact Nat.mul_le_mul_right n hlt
    -- the first block ends where the second one begins, or before
    have hsplit := List.disjoint_take_drop hl hle
    intro a hfirst hsecond
    refine hsplit ?_ (List.mem_of_mem_take hsecond)
    rw [List.take_add]
    exact List.mem_append_right _ hfirst
  rcases Nat.lt_or_gt_of_ne hij with hlt | hgt
  · exact hordered hlt
  · exact (hordered hgt).symm

theorem window_disjoint {order : RowOrder} {k : Listing} {db : Db} (hdb : (k.matching db).Nodup)
    (hp : 1 ≤ p.page.toInt) (hq : 1 ≤ q.page.toInt) (hsize : 1 ≤ p.pageSize.toInt)
    (hsame : q.pageSize = p.pageSize) (hpfits : p.Fits) (hqfits : q.Fits) (hne : p.page ≠ q.page) :
    (p.window order k db).Disjoint (q.window order k db) := by
  have hids : (order.ids k db).Nodup := (order.perm k db).nodup_iff.mpr hdb
  rw [window_eq hp hsize hpfits, window_eq hq (by rw [hsame]; exact hsize) hqfits, hsame]
  refine blocks_disjoint hids _ fun heq => hne (Int32.toInt_inj.mp ?_)
  omega

end Paginate

/-! ## Sequences of calls -/

section Sequences

variable {ops : List PageOp} {p : Paginate}

@[simp] theorem PageOp.run_pageSize (op : PageOp) (p : Paginate) : (op.run p).pageSize = p.pageSize := by
  cases op with
  | next =>
    simp only [run, Paginate.goToNextPage]
    split
    · rfl
    · rfl
  | prev => rfl
  | reset => rfl

theorem mem_visited_self (ops : List PageOp) (p : Paginate) : p ∈ visited ops p := by
  cases ops with
  | nil => exact List.mem_singleton_self p
  | cons op ops => exact List.mem_cons_self ..

theorem visited_pageSize {q : Paginate} (hq : q ∈ visited ops p) : q.pageSize = p.pageSize := by
  induction ops generalizing p with
  | nil => rw [List.mem_singleton.mp hq]
  | cons op ops ih =>
    rcases List.mem_cons.mp hq with rfl | hq
    · rfl
    · exact (ih hq).trans (op.run_pageSize p)

theorem StepsFit.fits (h : StepsFit ops p) {q : Paginate} (hq : q ∈ visited ops p) : q.Fits := by
  induction ops generalizing p with
  | nil =>
    rw [List.mem_singleton.mp hq]
    exact h
  | cons op ops ih =>
    rcases List.mem_cons.mp hq with rfl | hq
    · exact h.1
    · exact ih h.2.2 hq

/-- A call keeps the page number above 0, except for `goToNextPage` on page 1. -/
theorem PageOp.run_page (op : PageOp) (hpage : 1 ≤ p.page.toInt)
    (hfits : op = .prev → p.page.toInt + 1 < 2 ^ 31) :
    1 ≤ (op.run p).page.toInt ↔ (op = .next → p.page ≠ 1) := by
  have hupper := Int32.toInt_lt p.page
  cases op with
  | next =>
    have hone : p.page ≠ 1 ↔ p.page.toInt ≠ 1 := by
      rw [ne_eq, ← Int32.toInt_inj, toInt_one]
    have hsub : (p.page - 1).toInt = p.page.toInt - 1 := by
      rw [Int32.toInt_sub, toInt_one]
      exact Int.bmod_eq_of_le (by omega) (by omega)
    -- the guard lets page 1 pass
    have hrun : run p .next = { p with page := p.page - 1 } := by
      rw [run, Paginate.goToNextPage, if_pos (Paginate.le_page_iff.mpr hpage), Option.getD_some]
    rw [hrun, hone, hsub]
    simp only [forall_const]
    omega
  | prev =>
    have hadd : (p.page + 1).toInt = p.page.toInt + 1 := by
      rw [Int32.toInt_add, toInt_one]
      have := hfits rfl
      exact Int.bmod_eq_of_le (by omega) (by omega)
    show 1 ≤ (p.page + 1).toInt ↔ _
    rw [hadd]
    simp only [reduceCtorEq, false_implies, iff_true]
    omega
  | reset =>
    simp only [reduceCtorEq, false_implies, iff_true]
    exact le_of_eq toInt_one.symm

/-- Over a whole sequence. -/
theorem visited_page_iff (hpage : 1 ≤ p.page.toInt) (hfits : StepsFit ops p) :
    (∀ q ∈ visited ops p, 1 ≤ q.page.toInt) ↔ StaysBack ops p := by
  -- a page below 1 is never reached, or the step to it comes from page 1
  induction ops generalizing p with
  | nil =>
    simp only [visited, List.forall_mem_singleton, StaysBack, iff_true]
    exact hpage
  | cons op ops ih =>
    obtain ⟨-, hprev, hrest⟩ := hfits
    have hstep := op.run_page hpage hprev
    simp only [visited, List.forall_mem_cons, StaysBack]
    constructor
    · rintro ⟨-, hall⟩
      have hnext := hall _ (mem_visited_self ops (op.run p))
      exact ⟨hstep.mp hnext, (ih hnext hrest).mp hall⟩
    · rintro ⟨hop, hback⟩
      exact ⟨hpage, (ih (hstep.mpr hop) hrest).mpr hback⟩

end Sequences

/-- The messages of a room have different ids. -/
theorem Session.matching_nodup {restarts : Prop} {log : List Served} {c : Conn}
    (h : Session restarts log c) (header : RequestHeader) (rm : RequestMsgBody) :
    (((PageRequest.msgGetAll rm).listing header).matching c.db).Nodup := by
  have hids := h.inv.2.messages_nodup
  simp only [PageRequest.listing]
  split
  · exact hids.sublist (List.filter_sublist.map _)
  · exact hids.sublist (List.filter_sublist.map _)

/-- **When the pages stay apart.** For every page size and every sequence of calls that does not
    overflow: every page number is at least 1, every offset is at least 0, and in every database
    of a session the windows of different page numbers have no message in common, if and only if
    `goToNextPage` is never called on page 1. -/
theorem pages_apart_iff {size : Int32} {ops : List PageOp} (hsize : 1 ≤ size.toInt)
    (hfits : StepsFit ops (.new size)) :
    (∀ p ∈ visited ops (.new size), 1 ≤ p.page.toInt ∧ 0 ≤ p.getOffset.toInt ∧
      ∀ q ∈ visited ops (.new size), p.page ≠ q.page →
        ∀ (restarts : Prop) (log : List Served) (c : Conn), Session restarts log c →
        ∀ (order : RowOrder) (header : RequestHeader) (rm : RequestMsgBody),
          (p.window order ((PageRequest.msgGetAll rm).listing header) c.db).Disjoint
            (q.window order ((PageRequest.msgGetAll rm).listing header) c.db)) ↔
      StaysBack ops (.new size) := by
  have hstart : 1 ≤ (Paginate.new size).page.toInt := le_of_eq toInt_one.symm
  rw [← visited_page_iff hstart hfits]
  constructor
  · intro h p hp
    exact (h p hp).1
  · -- offsets and windows follow from the page numbers alone
    intro hpages p hp
    have hpsize : 1 ≤ p.pageSize.toInt := by
      rw [visited_pageSize hp]
      exact hsize
    refine ⟨hpages p hp, Paginate.getOffset_nonneg (hpages p hp) hpsize (hfits.fits hp), ?_⟩
    intro q hq hne restarts log c hsession order header rm
    exact Paginate.window_disjoint (hsession.matching_nodup header rm) (hpages p hp) (hpages q hq)
      hpsize ((visited_pageSize hq).trans (visited_pageSize hp).symm) (hfits.fits hp)
      (hfits.fits hq) hne

/-- Two pages back and one forward, in pages of ten: pages 1, 2, 3 and 2. -/
theorem pages_apart_back_and_forth :
    StaysBack [.prev, .prev, .next] (.new 10) ∧
      ∀ p ∈ visited [.prev, .prev, .next] (.new 10), 1 ≤ p.page.toInt ∧ 0 ≤ p.getOffset.toInt ∧
        ∀ q ∈ visited [.prev, .prev, .next] (.new 10), p.page ≠ q.page →
          ∀ (restarts : Prop) (log : List Served) (c : Conn), Session restarts log c →
          ∀ (order : RowOrder) (header : RequestHeader) (rm : RequestMsgBody),
            (p.window order ((PageRequest.msgGetAll rm).listing header) c.db).Disjoint
              (q.window order ((PageRequest.msgGetAll rm).listing header) c.db) := by
  have hfits : StepsFit [.prev, .prev, .next] (.new 10) := by
    simp only [StepsFit, Paginate.Fits]
    decide
  have hback : StaysBack [.prev, .prev, .next] (.new 10) := by
    simp only [StaysBack]
    decide
  exact ⟨hback, (pages_apart_iff (by decide) hfits).mpr hback⟩

/-- One call of `goToNextPage` leads from page 1 to page 0, with the offset -10 that the server
    takes for 0: the messages of page 1 are shown again. -/
theorem nextPage_below_one :
    visited [.next] (.new 10) = [⟨1, 10⟩, ⟨0, 10⟩] ∧
      (¬ ∀ p ∈ visited [.next] (.new 10), 1 ≤ p.page.toInt ∧ 0 ≤ p.getOffset.toInt) ∧
      (Paginate.mk 0 10).getOffset = -10 ∧
      ∃ log c, Session False log c ∧
        (Paginate.mk 0 10).window tableOrder (.messagesOfConv 1) c.db = [1] ∧
        (Paginate.mk 1 10).window tableOrder (.messagesOfConv 1) c.db = [1] := by
  have hplay : lobbyPlay [] = some (lobbyLog, { db := lobbyDb, fk := true, lastRowid := 2 }) := by
    rw [lobbyPlay_eq]
    rfl
  exact ⟨by decide, by decide, by decide, _, _, lobbyPlay_session hplay, by decide, by decide⟩

end MeshChat
