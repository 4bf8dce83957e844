import Mathlib

/-! # Singly linked lists in memory

    A small library for C code that keeps a singly linked list of values, with cells from
    `malloc` that go back to `free`.

    * `Heap`: the blocks that are allocated. A block is a string of bytes or a cell of a list.
      `Allocator`: a `malloc` that may fail, but returns no address that is still allocated.
    * `HeapM`: code over the heap. What C leaves undefined is a `Trap`: among others, `free`
      of what is not allocated.
    * `Segment`, `Linked`: the cells between two pointers, and the list that starts at a
      pointer. A linked list visits no cell twice (`Linked.nodup`).
    * `Linked.push`, `Linked.unlink`: a cell is put in front, or taken out behind another.
-/

namespace LinkedList

variable {α β γ : Type}

/-! ## Blocks -/

/-- A cell holds a value and the address of the next cell; 0 is the null pointer. -/
structure Cell (α : Type) where
  val : α
  next : Nat
  deriving DecidableEq

/-- What is allocated at one address. A byte that was never written has no value. -/
inductive Block (α : Type) where
  | bytes (content : List (Option UInt8))
  | cell (c : Cell α)
  deriving DecidableEq

/-- The cell that a block is. -/
def Block.cell? : Block α → Option (Cell α)
  | .bytes _ => none
  | .cell c => some c

def Block.isBytes : Block α → Bool
  | .bytes _ => true
  | .cell _ => false

/-- The blocks with their addresses, and the number of calls of `malloc` so far. -/
structure Heap (α : Type) where
  store : AList (fun _ : Nat => Block α) := ∅
  calls : Nat := 0

/-- What is allocated at an address. -/
def Heap.blocks (h : Heap α) (a : Nat) : Option (Block α) := h.store.lookup a

/-- The cells among the blocks. -/
def Heap.cells (h : Heap α) (a : Nat) : Option (Cell α) := (h.blocks a).bind Block.cell?

/-- Is there a block of bytes at this address? -/
def Heap.hasBytes (h : Heap α) (a : Nat) : Bool := (h.blocks a).any Block.isBytes

/-- Change what is at one address. -/
def Heap.put (h : Heap α) (a : Nat) : Option (Block α) → Heap α
  | some b => { h with store := h.store.insert a b }
  | none => { h with store := h.store.erase a }

/-- A block of bytes from a call of `malloc`. -/
def Heap.allocate (h : Heap α) (a size : Nat) : Heap α :=
  { h.put a (some (.bytes (List.replicate size none))) with calls := h.calls + 1 }

/-- A `malloc`. The null pointer stands for its failure. It may go by all that is allocated and
    by what it has done before, but it gives out nothing that is still allocated. -/
structure Allocator (α : Type) where
  pick : Heap α → Nat → Nat
  fresh : ∀ (h : Heap α) (size : Nat), pick h size ≠ 0 → h.blocks (pick h size) = none

/-! ## Code over the heap -/

/-- Where the code stops. -/
inductive Trap where
  /-- an access through the null pointer -/
  | null
  /-- an access outside its block -/
  | bounds
  /-- an access to what is not allocated, or to a block of the other kind -/
  | dangling
  /-- a variable is read before it has a value -/
  | indeterminate
  /-- a failed `assert` -/
  | assertion
  /-- `free` of what is not allocated -/
  | invalidFree
  /-- a loop that does not end -/
  | endless
  deriving DecidableEq

abbrev HeapM (α : Type) : Type → Type := StateT (Heap α) (Except Trap)

/-- `assert`. -/
def require {σ : Type} (cond : Bool) : StateT σ (Except Trap) Unit :=
  if cond then pure () else throw .assertion

/-- A value and a pointer of eight bytes each. -/
def cellSize : Nat := 16

def malloc (alloc : Allocator α) (size : Nat) : HeapM α Nat := fun h =>
  let p := alloc.pick h size
  .ok (p, if p = 0 then { h with calls := h.calls + 1 } else h.allocate p size)

/-- In C nothing happens for the null pointer; here that is an error, too. -/
def free (p : Nat) : HeapM α Unit := fun h =>
  match h.blocks p with
  | none => .error .invalidFree
  | some _ => .ok ((), h.put p none)

/-- Write some bytes, from an offset on. -/
def writeBytes (p off : Nat) (bs : List UInt8) : HeapM α Unit := fun h =>
  if p = 0 then .error .null
  else
    match h.blocks p with
    | some (.bytes content) =>
      if off + bs.length ≤ content.length then
        .ok ((), h.put p (some (.bytes
          (content.take off ++ bs.map some ++ content.drop (off + bs.length)))))
      else .error .bounds
    | _ => .error .dangling

def loadCell (p : Nat) : HeapM α (Cell α) := fun h =>
  if p = 0 then .error .null
  else
    match h.blocks p with
    | some (.cell c) => .ok (c, h)
    | _ => .error .dangling

/-- Both fields of a cell are written. A block that is fresh from `malloc` becomes a cell by it,
    if it has the size of one. -/
def storeCell (p : Nat) (c : Cell α) : HeapM α Unit := fun h =>
  if p = 0 then .error .null
  else
    match h.blocks p with
    | some (.cell _) => .ok ((), h.put p (some (.cell c)))
    | some (.bytes content) =>
      if content.length = cellSize then .ok ((), h.put p (some (.cell c)))
      else .error .bounds
    | none => .error .dangling

/-! ### Outcomes -/

section Outcomes

variable {σ : Type} {x : StateT σ (Except Trap) β} {f : β → StateT σ (Except Trap) γ} {s s' : σ}
  {v : β} {post : β → σ → Prop} {post' : γ → σ → Prop} {excuse : Trap → Prop}

/-- The code ends as `post` says, or it stops with a trap that is excused. -/
def Yields (x : StateT σ (Except Trap) β) (s : σ) (post : β → σ → Prop) (excuse : Trap → Prop) :
    Prop :=
  (∃ v s', x s = .ok (v, s') ∧ post v s') ∨ (∃ t, x s = .error t ∧ excuse t)

theorem bind_ok (hx : x s = .ok (v, s')) : (x >>= f) s = f v s' := by
  show Except.bind (x s) _ = _
  rw [hx]
  rfl

theorem bind_error {t : Trap} (hx : x s = .error t) : (x >>= f) s = .error t := by
  show Except.bind (x s) _ = _
  rw [hx]
  rfl

theorem get_eq_ok : (get : StateT σ (Except Trap) σ) s = .ok (s, s) := rfl

theorem pure_eq_ok : (pure v : StateT σ (Except Trap) β) s = .ok (v, s) := rfl

theorem Yields.of_ok (hx : x s = .ok (v, s')) (hpost : post v s') : Yields x s post excuse :=
  .inl ⟨v, s', hx, hpost⟩

theorem Yields.of_error {t : Trap} (hx : x s = .error t) (ht : excuse t) :
    Yields x s post excuse :=
  .inr ⟨t, hx, ht⟩

theorem Yields.mono {post₁ : β → σ → Prop} (hx : Yields x s post excuse)
    (hpost : ∀ v s', post v s' → post₁ v s') : Yields x s post₁ excuse := by
  rcases hx with ⟨v, s', hok, h⟩ | herror
  · exact .inl ⟨v, s', hok, hpost v s' h⟩
  · exact .inr herror

theorem Yields.weaken {excuse₁ : Trap → Prop} (hx : Yields x s post excuse)
    (hexcuse : ∀ t, excuse t → excuse₁ t) : Yields x s post excuse₁ := by
  rcases hx with hok | ⟨t, herror, ht⟩
  · exact .inl hok
  · exact .inr ⟨t, herror, hexcuse t ht⟩

/-- One piece of code after the other. -/
theorem Yields.bind (hx : Yields x s post excuse)
    (hf : ∀ v s', post v s' → Yields (f v) s' post' excuse) :
    Yields (x >>= f) s post' excuse := by
  rcases hx with ⟨v, s', hok, hpost⟩ | ⟨t, herror, ht⟩
  · unfold Yields
    rw [bind_ok hok]
    exact hf v s' hpost
  · exact .inr ⟨t, bind_error herror, ht⟩

/-- A piece of code whose outcome is known. -/
theorem Yields.after_ok (hx : x s = .ok (v, s')) (hf : Yields (f v) s' post' excuse) :
    Yields (x >>= f) s post' excuse := by
  unfold Yields
  rw [bind_ok hx]
  exact hf

/-- What is yielded holds where the code ends. -/
theorem Yields.post_of_ok (hx : Yields x s post excuse) (hok : x s = .ok (v, s')) : post v s' := by
  rcases hx with ⟨w, s₁, hok', hpost⟩ | ⟨t, herror, -⟩
  · obtain ⟨rfl, rfl⟩ : w = v ∧ s₁ = s' := by simpa [hok'] using hok
    exact hpost
  · rw [herror] at hok
    cases hok

theorem Yields.excuse_of_error {t : Trap} (hx : Yields x s post excuse)
    (herror : x s = .error t) : excuse t := by
  rcases hx with ⟨w, s₁, hok, -⟩ | ⟨t', herror', ht⟩
  · rw [hok] at herror
    cases herror
  · obtain rfl : t' = t := by simpa [herror'] using herror
    exact ht

end Outcomes

/-! ### What the operations do -/

section Code

variable {h h' : Heap α} {a p : Nat} {b : Option (Block α)}

@[simp] theorem Heap.put_calls : (h.put a b).calls = h.calls := by
  cases b <;> rfl

@[simp] theorem Heap.put_self : (h.put a b).blocks a = b := by
  cases b with
  | none => exact AList.lookup_erase _ _
  | some b => exact AList.lookup_insert _

@[simp] theorem Heap.put_ne {q : Nat} (hq : q ≠ a) : (h.put a b).blocks q = h.blocks q := by
  cases b with
  | none => exact AList.lookup_erase_ne hq
  | some b => exact AList.lookup_insert_ne hq

/-- What is not allocated is not allocated after a `free` either. -/
theorem Heap.put_none {q : Nat} (hq : h.blocks q = none) : (h.put a none).blocks q = none := by
  by_cases hqa : q = a
  · rw [hqa, Heap.put_self]
  · rw [Heap.put_ne hqa, hq]

theorem Heap.cells_put {q : Nat} :
    (h.put a b).cells q = if q = a then b.bind Block.cell? else h.cells q := by
  by_cases hq : q = a
  · simp [Heap.cells, hq]
  · simp [Heap.cells, hq]

theorem Heap.hasBytes_put {q : Nat} :
    (h.put a b).hasBytes q = if q = a then b.any Block.isBytes else h.hasBytes q := by
  by_cases hq : q = a
  · simp [Heap.hasBytes, hq]
  · simp [Heap.hasBytes, hq]

/-- The cells stay as they are. -/
theorem Heap.cells_put_of_eq (hb : b.bind Block.cell? = h.cells a) :
    (h.put a b).cells = h.cells := by
  funext q
  rw [Heap.cells_put]
  split
  · next hq => rw [hb, hq]
  · rfl

/-- The strings stay where they are. -/
theorem Heap.hasBytes_put_of_eq (hb : b.any Block.isBytes = h.hasBytes a) :
    (h.put a b).hasBytes = h.hasBytes := by
  funext q
  rw [Heap.hasBytes_put]
  split
  · next hq => rw [hb, hq]
  · rfl

@[simp] theorem Heap.allocate_calls {size : Nat} : (h.allocate a size).calls = h.calls + 1 := rfl

@[simp] theorem Heap.allocate_self {size : Nat} :
    (h.allocate a size).blocks a = some (.bytes (List.replicate size none)) := Heap.put_self

theorem Heap.allocate_ne {q size : Nat} (hq : q ≠ a) :
    (h.allocate a size).blocks q = h.blocks q := Heap.put_ne hq

theorem Heap.cells_allocate {size : Nat} (ha : h.blocks a = none) :
    (h.allocate a size).cells = h.cells :=
  Heap.cells_put_of_eq (by simp [Heap.cells, ha, Block.cell?])

theorem Heap.hasBytes_allocate {q size : Nat} :
    (h.allocate a size).hasBytes q = if q = a then true else h.hasBytes q := Heap.hasBytes_put

theorem Heap.cells_eq_some {c : Cell α} : h.cells a = some c ↔ h.blocks a = some (.cell c) := by
  unfold Heap.cells
  cases h.blocks a with
  | none => simp
  | some block => cases block <;> simp [Block.cell?]

theorem Heap.hasBytes_iff : h.hasBytes a = true ↔ ∃ content, h.blocks a = some (.bytes content) := by
  unfold Heap.hasBytes
  cases h.blocks a with
  | none => simp
  | some block => cases block <;> simp [Block.isBytes]

/-- A string is no cell. -/
theorem Heap.cells_eq_none (ha : h.hasBytes a = true) : h.cells a = none := by
  obtain ⟨content, hcontent⟩ := Heap.hasBytes_iff.mp ha
  simp [Heap.cells, hcontent, Block.cell?]

/-- Cells and strings have different addresses. -/
theorem Heap.cell_ne_bytes {c : Cell α} (ha : h.cells a = some c) (hp : h.hasBytes p = true) :
    a ≠ p := by
  intro heq
  rw [heq, Heap.cells_eq_none hp] at ha
  cases ha

theorem Heap.hasBytes_eq_false {c : Cell α} (ha : h.cells a = some c) : h.hasBytes a = false := by
  simp [Heap.hasBytes, Heap.cells_eq_some.mp ha, Block.isBytes]

theorem malloc_eq_null {alloc : Allocator α} {size : Nat} (hp : alloc.pick h size = 0) :
    malloc alloc size h = .ok (0, { h with calls := h.calls + 1 }) := by
  simp [malloc, hp]

theorem malloc_eq_ok {alloc : Allocator α} {size : Nat} (hp : alloc.pick h size ≠ 0) :
    malloc alloc size h = .ok (alloc.pick h size, h.allocate (alloc.pick h size) size) := by
  simp [malloc, hp]

theorem free_eq_ok (hp : h.blocks p ≠ none) : free p h = .ok ((), h.put p none) := by
  unfold free
  split
  · contradiction
  · rfl

theorem loadCell_eq_ok {c : Cell α} (hp : p ≠ 0) (hc : h.cells p = some c) :
    loadCell p h = .ok (c, h) := by
  rw [Heap.cells_eq_some] at hc
  simp [loadCell, hp, hc]

/-- A cell that is there already is overwritten. -/
theorem storeCell_eq_ok {c c' : Cell α} (hp : p ≠ 0) (hc : h.cells p = some c) :
    storeCell p c' h = .ok ((), h.put p (some (.cell c'))) := by
  rw [Heap.cells_eq_some] at hc
  simp [storeCell, hp, hc]

/-- A block from `malloc` becomes a cell. -/
theorem storeCell_fresh {c : Cell α} {content : List (Option UInt8)} (hp : p ≠ 0)
    (hb : h.blocks p = some (.bytes content)) (hsize : content.length = cellSize) :
    storeCell p c h = .ok ((), h.put p (some (.cell c))) := by
  simp [storeCell, hp, hb, hsize]

theorem require_eq_ok {σ : Type} {s : σ} {cond : Bool} (hc : cond = true) :
    require cond s = .ok ((), s) := by
  rw [require, if_pos hc]
  rfl

end Code

/-! ## Segments of a list -/

section Segments

variable {cells cells' : Nat → Option (Cell α)} {p q a : Nat} {v : α} {l l' l₁ l₂ : List (Nat × α)}

/-- From `p` to `q` the pointers lead through these cells, each with its value. -/
def Segment (cells : Nat → Option (Cell α)) : Nat → List (Nat × α) → Nat → Prop
  | p, [], q => p = q
  | p, (a, v) :: l, q =>
    p = a ∧ a ≠ 0 ∧ ∃ next, cells a = some ⟨v, next⟩ ∧ Segment cells next l q

/-- The list that starts at `p` ends with the null pointer. -/
def Linked (cells : Nat → Option (Cell α)) (p : Nat) (l : List (Nat × α)) : Prop :=
  Segment cells p l 0

theorem segment_append :
    Segment cells p (l₁ ++ l₂) q ↔ ∃ r, Segment cells p l₁ r ∧ Segment cells r l₂ q := by
  induction l₁ generalizing p with
  | nil => simp [Segment]
  | cons x l₁ ih =>
    simp only [List.cons_append, Segment, ih]
    constructor
    · rintro ⟨rfl, hne, next, hcell, r, hfront, hback⟩
      exact ⟨r, ⟨rfl, hne, next, hcell, hfront⟩, hback⟩
    · rintro ⟨r, ⟨rfl, hne, next, hcell, hfront⟩, hback⟩
      exact ⟨rfl, hne, next, hcell, r, hfront, hback⟩

/-- A segment depends only on the cells that it leads through. -/
theorem Segment.congr (hseg : Segment cells p l q)
    (hsame : ∀ a ∈ l.map Prod.fst, cells' a = cells a) : Segment cells' p l q := by
  induction l generalizing p with
  | nil => exact hseg
  | cons x l ih =>
    obtain ⟨rfl, hne, next, hcell, hrest⟩ := hseg
    refine ⟨rfl, hne, next, ?_, ih hrest fun a ha => hsame a (List.mem_cons_of_mem _ ha)⟩
    rw [hsame x.1 (by simp), hcell]

/-- Every cell of a segment is allocated, with the value that the segment has for it. -/
theorem Segment.cell_of_mem (hseg : Segment cells p l q) (hmem : (a, v) ∈ l) :
    a ≠ 0 ∧ ∃ next, cells a = some ⟨v, next⟩ := by
  induction l generalizing p with
  | nil => cases hmem
  | cons x l ih =>
    obtain ⟨rfl, hne, next, hcell, hrest⟩ := hseg
    rcases List.mem_cons.mp hmem with rfl | hmem
    · exact ⟨hne, next, hcell⟩
    · exact ih hrest hmem

/-- Where nothing occurs twice, `x` shares nothing with what is in front of it and behind it. -/
theorem nodup_map_middle {f : γ → β} {x : γ} {xs ys : List γ} :
    ((xs ++ x :: ys).map f).Nodup ↔
      f x ∉ (xs ++ ys).map f ∧ ((xs ++ ys).map f).Nodup := by
  rw [List.map_append, List.map_cons, List.nodup_middle, List.nodup_cons, List.map_append]

/-! ## Whole lists -/

@[simp] theorem linked_nil : Linked cells p [] ↔ p = 0 := Iff.rfl

theorem linked_cons : Linked cells p ((a, v) :: l) ↔
    p = a ∧ a ≠ 0 ∧ ∃ next, cells a = some ⟨v, next⟩ ∧ Linked cells next l := Iff.rfl

/-- The cells decide which list starts at a pointer. -/
theorem Linked.unique (hl : Linked cells p l) (hl' : Linked cells p l') : l = l' := by
  induction l generalizing p l' with
  | nil =>
    cases l' with
    | nil => rfl
    | cons x l' =>
      obtain ⟨rfl, hne, -⟩ := linked_cons.mp hl'
      exact absurd hl hne
  | cons x l ih =>
    obtain ⟨rfl, hne, next, hcell, hrest⟩ := linked_cons.mp hl
    cases l' with
    | nil => exact absurd hl' hne
    | cons y l' =>
      obtain ⟨heq, -, next', hcell', hrest'⟩ := linked_cons.mp hl'
      rw [← heq, hcell] at hcell'
      obtain ⟨hval, rfl⟩ : x.2 = y.2 ∧ next = next' := by simpa using hcell'
      rw [ih hrest hrest', Prod.ext heq hval]

/-- No cell is visited twice: from its second visit on, the list would be its own tail. -/
theorem Linked.nodup (hl : Linked cells p l) : (l.map Prod.fst).Nodup := by
  induction l generalizing p with
  | nil => exact List.nodup_nil
  | cons x l ih =>
    have hwhole := hl
    obtain ⟨rfl, -, next, -, hrest⟩ := linked_cons.mp hl
    rw [List.map_cons, List.nodup_cons]
    refine ⟨?_, ih hrest⟩
    intro hmem
    obtain ⟨y, hy, hsame⟩ := List.mem_map.mp hmem
    obtain ⟨l₁, l₂, rfl⟩ := List.append_of_mem hy
    obtain ⟨r, -, hagain⟩ := segment_append.mp hrest
    obtain ⟨hr, -⟩ := linked_cons.mp hagain
    rw [hr, hsame] at hagain
    have hloop := congrArg List.length (hwhole.unique hagain)
    simp at hloop
    omega

/-- A new cell in front. -/
theorem Linked.push (hl : Linked cells p l) (ha : a ≠ 0) (hnew : a ∉ l.map Prod.fst)
    (hcell : cells' a = some ⟨v, p⟩) (hsame : ∀ q, q ≠ a → cells' q = cells q) :
    Linked cells' a ((a, v) :: l) := by
  refine linked_cons.mpr ⟨rfl, ha, p, hcell, ?_⟩
  apply Segment.congr hl
  intro q hq
  exact hsame q (ne_of_mem_of_not_mem hq hnew)

/-- The first cell is passed by. -/
theorem Linked.tail {next : Nat} (hl : Linked cells p ((a, v) :: l))
    (hcell : cells a = some ⟨v, next⟩)
    (hsame : ∀ q ∈ l.map Prod.fst, q ≠ a → cells' q = cells q) : Linked cells' next l := by
  have hnodup := hl.nodup
  obtain ⟨-, -, next', hcell', hrest⟩ := linked_cons.mp hl
  obtain rfl : next = next' := by simpa [hcell] using hcell'
  rw [List.map_cons, List.nodup_cons] at hnodup
  apply Segment.congr hrest
  intro q hq
  exact hsame q hq (ne_of_mem_of_not_mem hq hnodup.1)

/-- The cell at `b` passes by the one behind it, at `a`. -/
theorem Linked.unlink {b next : Nat} {w : α} (hl : Linked cells p (l₁ ++ (b, w) :: (a, v) :: l₂))
    (hcell : cells a = some ⟨v, next⟩) (hpass : cells' b = some ⟨w, next⟩)
    (hsame : ∀ q, q ≠ a → q ≠ b → cells' q = cells q) :
    Linked cells' p (l₁ ++ (b, w) :: l₂) := by
  have hnodup := hl.nodup
  simp only [List.map_append, List.map_cons, List.nodup_append, List.nodup_cons] at hnodup
  obtain ⟨-, ⟨hb, ha, -⟩, hdisjoint⟩ := hnodup
  obtain ⟨r, hfront, hback⟩ := segment_append.mp hl
  obtain ⟨rfl, hne, next', -, hbehind⟩ := linked_cons.mp hback
  refine segment_append.mpr ⟨r, ?_, ?_⟩
  · -- in front of both nothing changes
    apply hfront.congr
    intro q hq
    exact hsame q (hdisjoint q hq a (by simp)) (hdisjoint q hq r (by simp))
  · refine linked_cons.mpr ⟨rfl, hne, next, hpass, ?_⟩
    apply Linked.tail hbehind hcell
    intro q hq hqa
    apply hsame q hqa
    rintro rfl
    exact hb (List.mem_cons_of_mem _ hq)

end Segments

end LinkedList
