import MeshChat.Lib.LinkedList

/-! # The registry of strings, with its pointers (`utils/sll.c`, `utils/string.c`)

    The strings of the server are allocated by `string_new` and its siblings, which keep their
    addresses in a singly linked list; `string_remove` and `string_clean` free them.

    * `sllInsertNode`, `sllFindNode`, `sllDeleteFreeNode`, `sllRemoveFree`: the list, over cells
      in memory.
    * `stringNew`, `stringNewN`, `stringMemN`, `stringAppend`, `stringRemove`, `stringClean`: the
      functions of the registry.
    * `Holds`: the cells of the heap are those of the list, and its strings are the values of the
      list.
    * `StrOp.exec_yields`: what one call does. `registry_exact`: what holds after any number of
      calls. `runOps_ne_invalidFree`: no run frees what is not allocated.
-/

namespace MeshChat.Utils

open LinkedList

/-! ## The list -/

/-- A `Jval` that holds a pointer. It takes up all eight bytes, so that `memcmp` compares
    addresses. -/
abbrev Jval := Nat

def newJvalS (s : Nat) : Jval := s

/-- `sll_insert_node`; the new head is returned. -/
def sllInsertNode (alloc : Allocator Jval) (head : Nat) (val : Jval) : HeapM Jval Nat := do
  let node ← malloc alloc cellSize
  require (node ≠ 0)
  storeCell node ⟨val, head⟩
  return node

/-- The loop of `sll_find_node`. `_prev` is the node before; a list with more nodes than there
    were calls of `malloc` is a cycle. -/
def sllFindLoop (val : Jval) : Nat → Nat → Nat → HeapM Jval (Option (Nat × Nat))
  | fuel, node, _prev =>
    if node = 0 then return none
    else
      match fuel with
      | 0 => throw .endless
      | fuel + 1 => do
        let cell ← loadCell node
        if cell.val = val then return some (node, _prev)
        else sllFindLoop val fuel cell.next node

/-- `sll_find_node`: the node, or `NULL`, and what `*prev` holds then. It is written only if a
    node was found. -/
def sllFindNode (head : Nat) (val : Jval) (prev : Option Nat) : HeapM Jval (Nat × Option Nat) := do
  match ← sllFindLoop val (← get).calls head 0 with
  | some (node, _prev) => return (node, some _prev)
  | none => return (0, prev)

/-- `sll_delete_free_node`; the head is returned. -/
def sllDeleteFreeNode (head : Nat) (val : Jval) (func : Jval → HeapM Jval Unit) :
    HeapM Jval Nat := do
  -- `prev` has no value yet
  let (node, prev) ← sllFindNode head val none
  if node = 0 then return head
  match prev with
  | none => throw .indeterminate
  | some prev =>
    if prev ≠ 0 then
      storeCell prev { ← loadCell prev with next := (← loadCell node).next }
    let head' ← if node = head then do pure (← loadCell head).next else pure head
    func val
    LinkedList.free node
    return head'

/-- The loop of `sll_remove_free`. Every round frees a node, so there are no more rounds than
    there were calls of `malloc`. -/
def sllRemoveFreeLoop (func : Jval → HeapM Jval Unit) : Nat → Nat → HeapM Jval Unit
  | fuel, head =>
    if head = 0 then return ()
    else
      match fuel with
      | 0 => throw .endless
      | fuel + 1 => do
        let next := (← loadCell head).next
        func (← loadCell head).val
        LinkedList.free head
        sllRemoveFreeLoop func fuel next

/-- `sll_remove_free`; the head is `NULL` after it. -/
def sllRemoveFree (head : Nat) (func : Jval → HeapM Jval Unit) : HeapM Jval Nat := do
  sllRemoveFreeLoop func (← get).calls head
  return 0

/-! ## The strings -/

/-- `size_t`. -/
def sizeT (n : Nat) : Nat := n % 2 ^ 64

/-- `strlen` of a pointer into an object that has these bytes from there on. -/
def strlen (str : List UInt8) : Except Trap Nat :=
  if 0 ∈ str then .ok (str.idxOf 0) else .error .bounds

/-- The `n` bytes that `strncpy` writes: the text, and then zeros. -/
def strncpyBytes (str : List UInt8) (n : Nat) : Except Trap (List UInt8) :=
  let text := str.takeWhile (· ≠ 0)
  if n ≤ text.length then .ok (text.take n)
  else if 0 ∈ str then .ok (text ++ List.replicate (n - text.length) 0)
  else .error .bounds

def strncpy (dst off : Nat) (str : List UInt8) (n : Nat) : HeapM Jval Unit := do
  writeBytes dst off (← strncpyBytes str n)

/-- `memcpy`; the pointers have to be valid for `n = 0`, too. -/
def memcpy (dst : Nat) (str : List UInt8) (n : Nat) : HeapM Jval Unit := do
  if n ≤ str.length then writeBytes dst 0 (str.take n) else throw .bounds

/-- The assignment `dst[off] = c`. -/
def storeByte (dst off : Nat) (c : UInt8) : HeapM Jval Unit := writeBytes dst off [c]

/-- Memory with the variable `head` of `utils/string.c`. -/
structure Registry where
  heap : Heap Jval := {}
  head : Nat := 0

abbrev RegistryM := StateT Registry (Except Trap)

instance : MonadLift (HeapM Jval) RegistryM where
  monadLift x := fun r => do
    let (v, h) ← x r.heap
    return (v, { r with heap := h })

/-- The end of the functions that make a string. -/
def insertString (alloc : Allocator Jval) (newstr : Nat) : RegistryM Nat := do
  let head ← sllInsertNode alloc (← get).head (newJvalS newstr)
  modify fun r => { r with head := head }
  return newstr

def stringNew (alloc : Allocator Jval) (str : List UInt8) : RegistryM Nat := do
  let strLen ← strlen str
  let newstr ← malloc alloc (sizeT (strLen + 1))
  strncpy newstr 0 str (sizeT (strLen + 1))
  insertString alloc newstr

def stringNewN (alloc : Allocator Jval) (str : List UInt8) (n : UInt64) : RegistryM Nat := do
  let newstr ← malloc alloc (sizeT (n.toNat + 1))
  strncpy newstr 0 str n.toNat
  storeByte newstr n.toNat 0
  insertString alloc newstr

def stringMemN (alloc : Allocator Jval) (str : List UInt8) (n : UInt64) : RegistryM Nat := do
  let newstr ← malloc alloc n.toNat
  memcpy newstr str n.toNat
  insertString alloc newstr

def stringAppend (alloc : Allocator Jval) (str1 str2 : List UInt8) : RegistryM Nat := do
  let str1Len ← strlen str1
  let str2Len ← strlen str2
  let newLen := sizeT (str1Len + str2Len)
  let newstr ← malloc alloc (sizeT (newLen + 1))
  require (newstr ≠ 0)
  strncpy newstr 0 str1 str1Len
  strncpy newstr str1Len str2 (sizeT (str2Len + 1))
  insertString alloc newstr

def freeNode (v : Jval) : HeapM Jval Unit := LinkedList.free v

def stringRemove (str : Nat) : RegistryM Unit := do
  let head ← sllDeleteFreeNode (← get).head (newJvalS str) freeNode
  modify fun r => { r with head := head }

def stringClean : RegistryM Unit := do
  let head ← sllRemoveFree (← get).head freeNode
  modify fun r => { r with head := head }
  modify fun r => { r with head := 0 }

/-! ## What the heap holds -/

/-- The cells of the heap are those of the list `l` from `head` on. Its strings are the values of
    the list, each once, and a few (`loose`) that are not in the list yet. -/
structure Holds (h : Heap Jval) (loose : List Nat) (head : Nat) (l : List (Nat × Jval)) :
    Prop where
  linked : Linked h.cells head l
  cells : ∀ a, (h.cells a).isSome → a ∈ l.map Prod.fst
  strings : ∀ p, h.hasBytes p = true ↔ p ∈ loose ++ l.map Prod.snd
  nodup : (loose ++ l.map Prod.snd).Nodup
  length : loose.length + l.length ≤ h.calls
  null : h.blocks 0 = none

section Holds

variable {h : Heap Jval} {loose : List Nat} {head a b p next : Nat} {v w : Jval}
  {l l₁ l₂ : List (Nat × Jval)}

theorem Holds.start : Holds {} [] 0 [] where
  linked := linked_nil.mpr rfl
  cells := by simp [Heap.cells, Heap.blocks]
  strings := by simp [Heap.hasBytes, Heap.blocks]
  nodup := List.nodup_nil
  length := le_refl 0
  null := rfl

theorem Holds.cell_of_mem (hh : Holds h loose head l) (hmem : (a, v) ∈ l) :
    a ≠ 0 ∧ ∃ next, h.cells a = some ⟨v, next⟩ :=
  Segment.cell_of_mem hh.linked hmem

theorem Holds.hasBytes_of_mem (hh : Holds h loose head l) (hmem : (a, v) ∈ l) :
    h.hasBytes v = true :=
  (hh.strings v).mpr (List.mem_append_right _ (List.mem_map_of_mem hmem))

theorem Holds.ne_zero (hh : Holds h loose head l) (hp : h.hasBytes p = true) : p ≠ 0 := by
  intro hzero
  rw [hzero, Heap.hasBytes, hh.null] at hp
  cases hp

/-! ### Allocation and registration -/

/-- A fresh block of bytes. -/
theorem Holds.malloc (hh : Holds h loose head l) (hp : p ≠ 0) (hfresh : h.blocks p = none)
    (size : Nat) : Holds (h.allocate p size) (p :: loose) head l := by
  have hnew : p ∉ loose ++ l.map Prod.snd := by
    intro hmem
    obtain ⟨content, hcontent⟩ := Heap.hasBytes_iff.mp ((hh.strings p).mpr hmem)
    rw [hfresh] at hcontent
    cases hcontent
  constructor
  · rw [Heap.cells_allocate hfresh]
    exact hh.linked
  · rw [Heap.cells_allocate hfresh]
    exact hh.cells
  · intro q
    rw [Heap.hasBytes_allocate, List.cons_append, List.mem_cons, ← hh.strings q]
    by_cases hq : q = p
    · simp [hq]
    · simp [hq]
  · exact List.nodup_cons.mpr ⟨hnew, hh.nodup⟩
  · simpa [Nat.add_right_comm] using hh.length
  · rw [Heap.allocate_ne hp.symm, hh.null]

/-- Other bytes are written to a string. -/
theorem Holds.write (hh : Holds h loose head l) (hp : h.hasBytes p = true)
    (content : List (Option UInt8)) : Holds (h.put p (some (.bytes content))) loose head l := by
  have hcells : (h.put p (some (.bytes content))).cells = h.cells :=
    Heap.cells_put_of_eq (Heap.cells_eq_none hp).symm
  have hbytes : (h.put p (some (.bytes content))).hasBytes = h.hasBytes :=
    Heap.hasBytes_put_of_eq hp.symm
  constructor
  · rw [hcells]
    exact hh.linked
  · rw [hcells]
    exact hh.cells
  · intro q
    rw [hbytes, hh.strings]
  · exact hh.nodup
  · exact hh.length
  · rw [Heap.put_ne (hh.ne_zero hp).symm, hh.null]

/-- A block becomes the first cell, with a string as its value. -/
theorem Holds.push (hh : Holds h (a :: v :: loose) head l) :
    Holds (h.put a (some (.cell ⟨v, head⟩))) loose a ((a, v) :: l) := by
  have hbytes : h.hasBytes a = true := (hh.strings a).mpr (by simp)
  have hne : a ≠ 0 := hh.ne_zero hbytes
  -- the string moves from the loose ones to the first place of the list
  have hperm : (loose ++ ((a, v) :: l).map Prod.snd).Perm (v :: (loose ++ l.map Prod.snd)) :=
    List.perm_middle
  have hnodup := hh.nodup
  rw [List.cons_append, List.cons_append, List.nodup_cons] at hnodup
  have hnew : a ∉ l.map Prod.fst := by
    intro hmem
    obtain ⟨x, hx, rfl⟩ := List.mem_map.mp hmem
    obtain ⟨-, next, hcell⟩ := hh.cell_of_mem hx
    exact Heap.cell_ne_bytes hcell hbytes rfl
  constructor
  · apply hh.linked.push hne hnew
    · simp [Heap.cells_put, Block.cell?]
    · intro q hq
      simp [Heap.cells_put, hq]
  · intro q hq
    rw [Heap.cells_put] at hq
    split at hq
    · next hqa =>
      rw [hqa]
      exact List.mem_cons_self
    · exact List.mem_cons_of_mem _ (hh.cells q hq)
  · intro q
    rw [Heap.hasBytes_put, hperm.mem_iff]
    split
    · next hq => simpa [hq, Block.isBytes] using hnodup.1
    · next hq => rw [hh.strings, List.cons_append, List.cons_append, List.mem_cons, or_iff_right hq]
  · exact hperm.nodup_iff.mpr hnodup.2
  · have := hh.length
    simp at this ⊢
    omega
  · rw [Heap.put_ne hne.symm, hh.null]

/-! ### Removal -/

/-- A cell that the list passes by is freed, and its string with it. -/
theorem Holds.removed {h₁ : Heap Jval} {head' : Nat} (hh : Holds h [] head (l₁ ++ (a, v) :: l₂))
    (hlinked : Linked h₁.cells head' (l₁ ++ l₂))
    (hcells : ∀ q, (h₁.cells q).isSome = (h.cells q).isSome)
    (hbytes : ∀ q, h₁.hasBytes q = h.hasBytes q) (hcalls : h₁.calls = h.calls)
    (hnull : h₁.blocks 0 = none) : Holds ((h₁.put v none).put a none) [] head' (l₁ ++ l₂) := by
  have hperm : (l₁ ++ (a, v) :: l₂).Perm ((a, v) :: (l₁ ++ l₂)) := List.perm_middle
  have hfst := hperm.map Prod.fst
  have hsnd := hperm.map Prod.snd
  obtain ⟨hnode, -⟩ := nodup_map_middle.mp hh.linked.nodup
  obtain ⟨hvalues, hnodup⟩ := nodup_map_middle.mp hh.nodup
  obtain ⟨-, next, hcell⟩ := hh.cell_of_mem (List.mem_append_right l₁ List.mem_cons_self)
  have hvalue : h₁.hasBytes v = true := by
    rw [hbytes]
    exact hh.hasBytes_of_mem (List.mem_append_right l₁ List.mem_cons_self)
  constructor
  · apply hlinked.congr
    intro q hq
    have hqa : q ≠ a := ne_of_mem_of_not_mem hq hnode
    have hqv : q ≠ v := by
      obtain ⟨x, hx, rfl⟩ := List.mem_map.mp hq
      obtain ⟨-, next', hcell'⟩ := hlinked.cell_of_mem hx
      exact Heap.cell_ne_bytes hcell' hvalue
    rw [Heap.cells_put, if_neg hqa, Heap.cells_put, if_neg hqv]
  · intro q hq
    rw [Heap.cells_put, Heap.cells_put] at hq
    split at hq
    · cases hq
    · next hqa =>
      split at hq
      · cases hq
      · rw [hcells] at hq
        exact (List.mem_cons.mp (hfst.mem_iff.mp (hh.cells q hq))).resolve_left hqa
  · intro q
    rw [Heap.hasBytes_put, Heap.hasBytes_put, List.nil_append]
    have hall : h.hasBytes q = true ↔ q = v ∨ q ∈ (l₁ ++ l₂).map Prod.snd := by
      rw [hh.strings, List.nil_append, hsnd.mem_iff]
      exact List.mem_cons
    split
    · next hqa =>
      -- the node is no string
      rw [hqa, Heap.hasBytes_eq_false hcell] at hall
      simp only [Option.any_none, Bool.false_eq_true, false_iff] at hall ⊢
      rw [hqa]
      exact fun hmem => hall (Or.inr hmem)
    · split
      · next hqv => simpa [hqv] using hvalues
      · next hqv => rw [hbytes, hall, or_iff_right hqv]
  · exact hnodup
  · have := hh.length
    simp [hcalls] at this ⊢
    omega
  · exact Heap.put_none (Heap.put_none hnull)

/-- The first cell is removed. -/
theorem Holds.remove_head (hh : Holds h [] head ((a, v) :: l))
    (hcell : h.cells a = some ⟨v, next⟩) : Holds ((h.put v none).put a none) [] next l := by
  have hlinked : Linked h.cells next l := hh.linked.tail hcell fun _ _ _ => rfl
  have hfirst : Holds h [] head ([] ++ (a, v) :: l) := hh
  exact hfirst.removed hlinked (fun _ => rfl) (fun _ => rfl) rfl hh.null

/-- The cell behind the one at `b` is removed. -/
theorem Holds.remove_next (hh : Holds h [] head (l₁ ++ (b, w) :: (a, v) :: l₂))
    (hcell : h.cells a = some ⟨v, next⟩) :
    Holds (((h.put b (some (.cell ⟨w, next⟩))).put v none).put a none) [] head
      (l₁ ++ (b, w) :: l₂) := by
  obtain ⟨hb, next', hcellb⟩ := hh.cell_of_mem (List.mem_append_right l₁ List.mem_cons_self)
  have hlinked : Linked (h.put b (some (.cell ⟨w, next⟩))).cells head (l₁ ++ (b, w) :: l₂) := by
    apply hh.linked.unlink hcell
    · rw [Heap.cells_put, if_pos rfl]
      rfl
    · intro q _ hqb
      rw [Heap.cells_put, if_neg hqb]
  rw [List.append_cons] at hh hlinked ⊢
  apply hh.removed hlinked
  · intro q
    rw [Heap.cells_put]
    split
    · next hq => simp [hq, hcellb, Block.cell?]
    · rfl
  · intro q
    have hb : (some (.cell ⟨w, next⟩) : Option (Block Jval)).any Block.isBytes = h.hasBytes b :=
      (Heap.hasBytes_eq_false hcellb).symm
    rw [Heap.hasBytes_put_of_eq hb]
  · exact Heap.put_calls
  · rw [Heap.put_ne hb.symm, hh.null]

end Holds

/-! ## What the functions of the list do -/

section Lists

variable {h : Heap Jval} {head a b p next : Nat} {v w : Jval} {l l₁ l₂ : List (Nat × Jval)}

/-- The first node with a value, and the one before it. -/
def search (val : Jval) (prev : Nat) : List (Nat × Jval) → Option (Nat × Nat)
  | [] => none
  | (node, v) :: l => if v = val then some (node, prev) else search val node l

theorem search_eq_none {prev : Nat} : search v prev l = none ↔ v ∉ l.map Prod.snd := by
  induction l generalizing prev with
  | nil => simp [search]
  | cons x l ih =>
    rw [search, List.map_cons, List.mem_cons, not_or]
    split
    · next hx => simp [hx]
    · next hx =>
      rw [ih]
      exact (and_iff_right (Ne.symm hx)).symm

/-- Where a node was found: in front, or behind another node. -/
theorem search_eq_some {prev q : Nat} (hs : search v prev l = some (a, q)) :
    (q = prev ∧ ∃ l₂, l = (a, v) :: l₂) ∨ ∃ l₁ w l₂, l = l₁ ++ (q, w) :: (a, v) :: l₂ := by
  induction l generalizing prev with
  | nil => cases hs
  | cons x l ih =>
    rw [search] at hs
    split at hs
    · next hx =>
      obtain ⟨rfl, rfl⟩ : x.1 = a ∧ prev = q := by simpa using hs
      exact .inl ⟨rfl, l, by rw [← hx]⟩
    · rcases ih hs with ⟨rfl, l₂, rfl⟩ | ⟨l₁, w, l₂, rfl⟩
      · exact .inr ⟨[], x.2, l₂, rfl⟩
      · exact .inr ⟨x :: l₁, w, l₂, rfl⟩

theorem sllFindLoop_eq {node : Nat} (hl : Linked h.cells node l) {fuel : Nat}
    (hfuel : l.length ≤ fuel) (v : Jval) (prev : Nat) :
    sllFindLoop v fuel node prev h = .ok (search v prev l, h) := by
  induction l generalizing node prev fuel with
  | nil =>
    obtain rfl := linked_nil.mp hl
    rw [sllFindLoop.eq_def]
    rfl
  | cons x l ih =>
    obtain ⟨rfl, hne, next, hcell, hrest⟩ := linked_cons.mp hl
    cases fuel with
    | zero => cases hfuel
    | succ fuel =>
      rw [sllFindLoop.eq_def]
      simp only [if_neg hne]
      rw [bind_ok (loadCell_eq_ok hne hcell), search]
      split
      · rfl
      · exact ih hrest (Nat.le_of_succ_le_succ hfuel) x.1

theorem sllFindNode_eq_null (hh : Holds h [] head l) (hv : v ∉ l.map Prod.snd)
    (prev : Option Nat) : sllFindNode head v prev h = .ok ((0, prev), h) := by
  have hloop := sllFindLoop_eq hh.linked (by simpa using hh.length) v 0
  rw [search_eq_none.mpr hv] at hloop
  rw [sllFindNode, bind_ok get_eq_ok, bind_ok hloop]
  rfl

theorem sllFindNode_eq_node (hh : Holds h [] head l) {q : Nat} (hs : search v 0 l = some (a, q))
    (prev : Option Nat) : sllFindNode head v prev h = .ok ((a, some q), h) := by
  have hloop := sllFindLoop_eq hh.linked (by simpa using hh.length) v 0
  rw [hs] at hloop
  rw [sllFindNode, bind_ok get_eq_ok, bind_ok hloop]
  rfl

/-- A string is freed, and then a node. -/
theorem free_both {β : Type} {k : Unit → HeapM Jval β} {c : Cell Jval}
    (hv : h.hasBytes v = true) (ha : h.cells a = some c) :
    (freeNode v >>= fun _ => LinkedList.free a >>= k) h = k () ((h.put v none).put a none) := by
  have hne : a ≠ v := Heap.cell_ne_bytes ha hv
  obtain ⟨content, hcontent⟩ := Heap.hasBytes_iff.mp hv
  have hvalue : freeNode v h = .ok ((), h.put v none) := free_eq_ok (by simp [hcontent])
  have hnode : (h.put v none).blocks a ≠ none := by
    rw [Heap.put_ne hne, Heap.cells_eq_some.mp ha]
    simp
  rw [bind_ok hvalue, bind_ok (free_eq_ok hnode)]

theorem sllDeleteFreeNode_absent (hh : Holds h [] head l) (hv : v ∉ l.map Prod.snd) :
    sllDeleteFreeNode head v freeNode h = .ok (head, h) := by
  rw [sllDeleteFreeNode, bind_ok (sllFindNode_eq_null hh hv none)]
  rfl

/-- The first node is found. -/
theorem sllDeleteFreeNode_head (hh : Holds h [] head ((a, v) :: l)) :
    ∃ next, h.cells a = some ⟨v, next⟩ ∧
      sllDeleteFreeNode head v freeNode h = .ok (next, (h.put v none).put a none) := by
  obtain ⟨rfl, hne, next, hcell, -⟩ := linked_cons.mp hh.linked
  have hsearch : search v 0 ((head, v) :: l) = some (head, 0) := by simp [search]
  have hload := loadCell_eq_ok hne hcell
  have hvalue : h.hasBytes v = true := hh.hasBytes_of_mem List.mem_cons_self
  refine ⟨next, hcell, ?_⟩
  rw [sllDeleteFreeNode, bind_ok (sllFindNode_eq_node hh hsearch none)]
  simp only [if_neg hne, if_true, ne_eq, not_true_eq_false, if_false]
  rw [bind_ok hload, bind_ok pure_eq_ok, free_both hvalue hcell]
  rfl

/-- A node behind another one is found. -/
theorem sllDeleteFreeNode_next (hh : Holds h [] head (l₁ ++ (b, w) :: (a, v) :: l₂))
    (hsearch : search v 0 (l₁ ++ (b, w) :: (a, v) :: l₂) = some (a, b)) :
    ∃ next, h.cells a = some ⟨v, next⟩ ∧
      sllDeleteFreeNode head v freeNode h =
        .ok (head, ((h.put b (some (.cell ⟨w, next⟩))).put v none).put a none) := by
  have hmemb : (b, w) ∈ l₁ ++ (b, w) :: (a, v) :: l₂ := by simp
  have hmema : (a, v) ∈ l₁ ++ (b, w) :: (a, v) :: l₂ := by simp
  obtain ⟨hb, next', hcellb⟩ := hh.cell_of_mem hmemb
  obtain ⟨ha, next, hcella⟩ := hh.cell_of_mem hmema
  have hnodup := hh.linked.nodup
  simp only [List.map_append, List.map_cons, List.nodup_append, List.nodup_cons,
    List.mem_cons, not_or] at hnodup
  obtain ⟨-, ⟨⟨hba, -⟩, -⟩, hdisjoint⟩ := hnodup
  -- the head is the node `b`, or one before it
  have hhead : a ≠ head := by
    cases l₁ with
    | nil =>
      obtain ⟨rfl, -⟩ := linked_cons.mp hh.linked
      exact Ne.symm hba
    | cons x l₁ =>
      obtain ⟨rfl, -⟩ := linked_cons.mp hh.linked
      exact Ne.symm (hdisjoint x.1 (by simp) a (by simp))
  have hloadb := loadCell_eq_ok hb hcellb
  have hloada := loadCell_eq_ok ha hcella
  have hstring : h.hasBytes v = true := hh.hasBytes_of_mem hmema
  have hvalue : (h.put b (some (.cell ⟨w, next⟩))).hasBytes v = true := by
    rw [Heap.hasBytes_put, if_neg (Heap.cell_ne_bytes hcellb hstring).symm, hstring]
  have hnode : (h.put b (some (.cell ⟨w, next⟩))).cells a = some ⟨v, next⟩ := by
    rw [Heap.cells_put, if_neg (Ne.symm hba), hcella]
  refine ⟨next, hcella, ?_⟩
  rw [sllDeleteFreeNode, bind_ok (sllFindNode_eq_node hh hsearch none)]
  simp only [if_neg ha, if_neg hhead, ne_eq, hb, not_false_eq_true, if_true]
  rw [bind_ok hloadb, bind_ok hloada, bind_ok (storeCell_eq_ok hb hcellb), bind_ok pure_eq_ok,
    free_both hvalue hnode]
  rfl

theorem filter_absent (hv : v ∉ l.map Prod.snd) : (l.filter fun x => x.2 ≠ v) = l := by
  apply List.filter_eq_self.mpr
  intro x hx
  exact decide_eq_true (ne_of_mem_of_not_mem (List.mem_map_of_mem hx) hv)

/-- Without the entry for `v`, the others in their order. -/
theorem filter_removed (hnodup : ((l₁ ++ (a, v) :: l₂).map Prod.snd).Nodup) :
    (l₁ ++ (a, v) :: l₂).filter (fun x => x.2 ≠ v) = l₁ ++ l₂ := by
  have hkeep := filter_absent (nodup_map_middle.mp hnodup).1
  rw [List.filter_append] at hkeep ⊢
  rw [List.filter_cons_of_neg (by simp), hkeep]

/-- `sll_delete_free_node` takes out the node with the value, if there is one, and frees what is
    to be freed. -/
theorem sllDeleteFreeNode_yields (hh : Holds h [] head l) (v : Jval) {excuse : Trap → Prop} :
    Yields (sllDeleteFreeNode head v freeNode) h
      (fun head' h' => Holds h' [] head' (l.filter fun x => x.2 ≠ v)) excuse := by
  cases hs : search v 0 l with
  | none =>
    have hv := search_eq_none.mp hs
    apply Yields.of_ok (sllDeleteFreeNode_absent hh hv)
    rwa [filter_absent hv]
  | some found =>
    obtain ⟨a, b⟩ := found
    -- in front, or behind the node `b`
    rcases search_eq_some hs with ⟨rfl, l₂, rfl⟩ | ⟨l₁, w, l₂, rfl⟩
    · obtain ⟨next, hcell, hrun⟩ := sllDeleteFreeNode_head hh
      apply Yields.of_ok hrun
      have hnodup : (([] ++ (a, v) :: l₂).map Prod.snd).Nodup := hh.nodup
      have hrest : ((a, v) :: l₂).filter (fun x => x.2 ≠ v) = l₂ := filter_removed hnodup
      rw [hrest]
      exact hh.remove_head hcell
    · obtain ⟨next, hcell, hrun⟩ := sllDeleteFreeNode_next hh hs
      apply Yields.of_ok hrun
      have hrest := hh.remove_next hcell
      rw [List.append_cons] at hh ⊢
      rw [filter_removed hh.nodup, List.append_assoc]
      exact hrest

theorem sllRemoveFreeLoop_frees (hh : Holds h [] head l) {fuel : Nat} (hfuel : l.length ≤ fuel) :
    ∃ h', sllRemoveFreeLoop freeNode fuel head h = .ok ((), h') ∧ Holds h' [] 0 [] := by
  -- round by round, each on the list that is left
  induction l generalizing h head fuel with
  | nil =>
    obtain rfl := linked_nil.mp hh.linked
    refine ⟨h, ?_, hh⟩
    rw [sllRemoveFreeLoop.eq_def]
    rfl
  | cons x l ih =>
    obtain ⟨rfl, hne, next, hcell, hrest⟩ := linked_cons.mp hh.linked
    cases fuel with
    | zero => cases hfuel
    | succ fuel =>
      have hload := loadCell_eq_ok hne hcell
      have hvalue : h.hasBytes x.2 = true := hh.hasBytes_of_mem List.mem_cons_self
      obtain ⟨h', hrun, hh'⟩ := ih (hh.remove_head hcell) (Nat.le_of_succ_le_succ hfuel)
      refine ⟨h', ?_, hh'⟩
      rw [sllRemoveFreeLoop.eq_def]
      simp only [if_neg hne]
      rw [bind_ok hload, bind_ok hload, free_both hvalue hcell]
      exact hrun

theorem sllRemoveFree_yields (hh : Holds h [] head l) {excuse : Trap → Prop} :
    Yields (sllRemoveFree head freeNode) h
      (fun head' h' => head' = 0 ∧ Holds h' [] 0 []) excuse := by
  obtain ⟨h', hrun, hh'⟩ := sllRemoveFreeLoop_frees hh (by simpa using hh.length)
  unfold sllRemoveFree
  apply Yields.after_ok get_eq_ok
  apply Yields.after_ok hrun
  exact .of_ok rfl ⟨rfl, hh'⟩

end Lists

/-! ## What the functions of the registry do -/

/-- Can `malloc` fail? -/
def Failing (alloc : Allocator Jval) : Prop := ∃ h size, alloc.pick h size = 0

/-- Why a call may stop: its arguments do not allow the copy, or there is no memory. -/
def Excuse (alloc : Allocator Jval) (ready : Prop) (t : Trap) : Prop :=
  (t = .bounds ∧ ¬ ready) ∨ ((t = .null ∨ t = .assertion) ∧ Failing alloc)

/-- `p` is a string of `size` bytes that is not in the list yet. -/
structure Pending (h : Heap Jval) (head : Nat) (l : List (Nat × Jval)) (size p : Nat) : Prop where
  holds : Holds h [p] head l
  sized : ∃ content, h.blocks p = some (.bytes content) ∧ content.length = size

section Registry

variable {alloc : Allocator Jval} {ready : Prop} {h : Heap Jval} {head p off size : Nat}
  {loose : List Nat} {v : Jval} {l : List (Nat × Jval)}

theorem Pending.ne_zero (hp : Pending h head l size p) : p ≠ 0 := by
  obtain ⟨content, hcontent, -⟩ := hp.sized
  exact hp.holds.ne_zero (Heap.hasBytes_iff.mpr ⟨content, hcontent⟩)

theorem malloc_yields (hh : Holds h [] head l) :
    Yields (malloc alloc size) h
      (fun p h' => p = 0 ∧ Failing alloc ∨ Pending h' head l size p) (Excuse alloc ready) := by
  by_cases hp : alloc.pick h size = 0
  · exact .of_ok (malloc_eq_null hp) (.inl ⟨rfl, h, size, hp⟩)
  · apply Yields.of_ok (malloc_eq_ok hp)
    right
    exact ⟨hh.malloc hp (alloc.fresh h size hp) size, _, Heap.allocate_self,
      List.length_replicate⟩

/-- A write to what `malloc` returned. -/
theorem writeBytes_yields {bs : List UInt8}
    (hp : p = 0 ∧ Failing alloc ∨ Pending h head l size p)
    (hfits : ready → off + bs.length ≤ size) :
    Yields (writeBytes p off bs) h (fun _ h' => Pending h' head l size p)
      (Excuse alloc ready) := by
  rcases hp with ⟨rfl, hfail⟩ | hp
  · exact .of_error rfl (.inr ⟨.inl rfl, hfail⟩)
  · obtain ⟨content, hcontent, hsize⟩ := hp.sized
    by_cases hbound : off + bs.length ≤ content.length
    · have hrun : writeBytes p off bs h = .ok ((), h.put p (some (.bytes
          (content.take off ++ bs.map some ++ content.drop (off + bs.length))))) := by
        simp [writeBytes, hp.ne_zero, hcontent, hbound]
      apply Yields.of_ok hrun
      refine ⟨hp.holds.write (Heap.hasBytes_iff.mpr ⟨content, hcontent⟩) _, _, Heap.put_self, ?_⟩
      simp
      omega
    · have hrun : writeBytes p off bs h = .error .bounds := by
        simp [writeBytes, hp.ne_zero, hcontent, hbound]
      apply Yields.of_error hrun
      exact .inl ⟨rfl, fun hready => hbound (hsize ▸ hfits hready)⟩

/-- Can `strncpy` read what it has to read? -/
theorem strncpyBytes_cases (str : List UInt8) (n : Nat) :
    (∃ bs, strncpyBytes str n = .ok bs ∧ bs.length = n) ∨
      (strncpyBytes str n = .error .bounds ∧ ¬ (0 ∈ str ∨ n ≤ str.length)) := by
  unfold strncpyBytes
  extract_lets text
  split
  · next hn => exact .inl ⟨_, rfl, by simpa using hn⟩
  · next hn =>
    split
    · refine .inl ⟨_, rfl, ?_⟩
      simp at hn ⊢
      omega
    · next hzero =>
      -- without a terminator, the text is all that there is
      have hall : text = str := by
        apply List.takeWhile_eq_self_iff.mpr
        intro c hc
        exact decide_eq_true (ne_of_mem_of_not_mem hc hzero)
      rw [hall] at hn
      exact .inr ⟨rfl, by simp [hzero]; omega⟩

theorem strncpy_yields {str : List UInt8} {n : Nat}
    (hp : p = 0 ∧ Failing alloc ∨ Pending h head l size p)
    (hfits : ready → (0 ∈ str ∨ n ≤ str.length) ∧ off + n ≤ size) :
    Yields (strncpy p off str n) h (fun _ h' => Pending h' head l size p)
      (Excuse alloc ready) := by
  rcases strncpyBytes_cases str n with ⟨bs, hbytes, hlength⟩ | ⟨herror, hshort⟩
  · have hrun : strncpy p off str n h = writeBytes p off bs h := by
      rw [strncpy, hbytes]
      rfl
    unfold Yields
    rw [hrun]
    exact writeBytes_yields hp fun hready => hlength ▸ (hfits hready).2
  · have hrun : strncpy p off str n h = .error .bounds := by
      rw [strncpy, herror]
      rfl
    exact .of_error hrun (.inl ⟨rfl, fun hready => hshort (hfits hready).1⟩)

theorem memcpy_yields {str : List UInt8} {n : Nat}
    (hp : p = 0 ∧ Failing alloc ∨ Pending h head l n p) (hfits : ready → n ≤ str.length) :
    Yields (memcpy p str n) h (fun _ h' => Pending h' head l n p) (Excuse alloc ready) := by
  unfold memcpy
  split
  · apply writeBytes_yields hp
    intro _
    simp
  · next hshort => exact .of_error rfl (.inl ⟨rfl, fun hready => hshort (hfits hready)⟩)

theorem sllInsertNode_yields (hh : Holds h (v :: loose) head l) :
    Yields (sllInsertNode alloc head v) h (fun node h' => Holds h' loose node ((node, v) :: l))
      (Excuse alloc ready) := by
  unfold sllInsertNode
  by_cases hnode : alloc.pick h cellSize = 0
  · apply Yields.of_error
    · rw [bind_ok (malloc_eq_null hnode)]
      rfl
    · exact .inr ⟨.inr rfl, h, cellSize, hnode⟩
  · have hmalloc := hh.malloc hnode (alloc.fresh h cellSize hnode) cellSize
    apply Yields.of_ok
    · rw [bind_ok (malloc_eq_ok hnode), bind_ok (require_eq_ok (decide_eq_true hnode)),
        bind_ok (storeCell_fresh hnode Heap.allocate_self List.length_replicate)]
      rfl
    · exact hmalloc.push

/-- Code over the heap leaves the variable `head` alone. -/
theorem lift_yields {β : Type} {x : HeapM Jval β} {r : Registry} {post : β → Heap Jval → Prop}
    {excuse : Trap → Prop} (hx : Yields x r.heap post excuse) :
    Yields (liftM x : RegistryM β) r (fun v r' => post v r'.heap ∧ r'.head = r.head) excuse := by
  rcases hx with ⟨v, h, hok, hpost⟩ | ⟨t, herror, ht⟩
  · apply Yields.of_ok
    · show (x r.heap >>= _) = _
      rw [hok]
      rfl
    · exact ⟨hpost, rfl⟩
  · refine .of_error ?_ ht
    show (x r.heap >>= _) = _
    rw [herror]
    rfl

theorem strlen_yields {str : List UInt8} {r : Registry} (hready : ready → 0 ∈ str) :
    Yields (liftM (strlen str) : RegistryM Nat) r
      (fun n r' => r' = r ∧ 0 ∈ str ∧ n = str.idxOf 0) (Excuse alloc ready) := by
  by_cases hzero : 0 ∈ str
  · rw [strlen, if_pos hzero]
    exact .of_ok rfl ⟨rfl, hzero, rfl⟩
  · rw [strlen, if_neg hzero]
    exact .of_error rfl (.inl ⟨rfl, fun h => hzero (hready h)⟩)

/-- The new string is the first entry of the list. -/
def Registered (l : List (Nat × Jval)) (s : Nat) (r : Registry) : Prop :=
  ∃ node, Holds r.heap [] r.head ((node, s) :: l)

theorem insertString_yields {r : Registry} (hp : Pending r.heap head l size p)
    (hhead : r.head = head) :
    Yields (insertString alloc p) r (Registered l) (Excuse alloc ready) := by
  subst hhead
  unfold insertString
  apply Yields.after_ok get_eq_ok
  apply (lift_yields (sllInsertNode_yields hp.holds)).bind
  rintro node r' ⟨hnode, -⟩
  exact .of_ok rfl ⟨node, hnode⟩

/-! ### The six functions -/

section Functions

variable {r : Registry} {str str1 str2 : List UInt8} {n : UInt64}

theorem stringNew_yields (hh : Holds r.heap [] r.head l) :
    Yields (stringNew alloc str) r (Registered l) (Excuse alloc (0 ∈ str)) := by
  unfold stringNew
  apply (strlen_yields id).bind
  rintro strLen r' ⟨rfl, hzero, -⟩
  apply (lift_yields (malloc_yields hh)).bind
  rintro newstr r₁ ⟨hnew, hhead₁⟩
  have hfits : 0 ∈ str → (0 ∈ str ∨ sizeT (strLen + 1) ≤ str.length) ∧
      0 + sizeT (strLen + 1) ≤ sizeT (strLen + 1) := fun hready => ⟨.inl hready, by omega⟩
  apply (lift_yields (strncpy_yields hnew hfits)).bind
  rintro _ r₂ ⟨hcopy, hhead₂⟩
  exact insertString_yields hcopy (hhead₂.trans hhead₁)

theorem stringNewN_yields (hh : Holds r.heap [] r.head l) :
    Yields (stringNewN alloc str n) r (Registered l)
      (Excuse alloc (n.toNat + 1 < 2 ^ 64 ∧ (0 ∈ str ∨ n.toNat ≤ str.length))) := by
  unfold stringNewN
  apply (lift_yields (malloc_yields hh)).bind
  rintro newstr r₁ ⟨hnew, hhead₁⟩
  have hsize : n.toNat + 1 < 2 ^ 64 → sizeT (n.toNat + 1) = n.toNat + 1 := Nat.mod_eq_of_lt
  apply (lift_yields (strncpy_yields hnew _)).bind
  · rintro _ r₂ ⟨hcopy, hhead₂⟩
    apply (lift_yields (writeBytes_yields (.inr hcopy) _)).bind
    · rintro _ r₃ ⟨hterm, hhead₃⟩
      exact insertString_yields hterm (hhead₃.trans (hhead₂.trans hhead₁))
    · rintro ⟨hn, -⟩
      rw [hsize hn]
      exact le_refl _
  · rintro ⟨hn, hread⟩
    rw [hsize hn]
    exact ⟨hread, by omega⟩

theorem stringMemN_yields (hh : Holds r.heap [] r.head l) :
    Yields (stringMemN alloc str n) r (Registered l) (Excuse alloc (n.toNat ≤ str.length)) := by
  unfold stringMemN
  apply (lift_yields (malloc_yields hh)).bind
  rintro newstr r₁ ⟨hnew, hhead₁⟩
  apply (lift_yields (memcpy_yields hnew id)).bind
  rintro _ r₂ ⟨hcopy, hhead₂⟩
  exact insertString_yields hcopy (hhead₂.trans hhead₁)

/-- `assert(newstr)`. -/
theorem require_yields (hp : p = 0 ∧ Failing alloc ∨ Pending r.heap head l size p) :
    Yields (require (p ≠ 0)) r (fun _ r' => r' = r ∧ Pending r.heap head l size p)
      (Excuse alloc ready) := by
  rcases hp with ⟨rfl, hfail⟩ | hp
  · exact .of_error rfl (.inr ⟨.inr rfl, hfail⟩)
  · exact .of_ok (require_eq_ok (decide_eq_true hp.ne_zero)) ⟨rfl, hp⟩

/-- Both arguments have a terminator, and the lengths do not wrap around. -/
def Appendable (str1 str2 : List UInt8) : Prop :=
  0 ∈ str1 ∧ 0 ∈ str2 ∧ str1.idxOf 0 + str2.idxOf 0 + 1 < 2 ^ 64

theorem stringAppend_yields (hh : Holds r.heap [] r.head l) :
    Yields (stringAppend alloc str1 str2) r (Registered l)
      (Excuse alloc (Appendable str1 str2)) := by
  unfold stringAppend
  apply (strlen_yields And.left).bind
  rintro str1Len r' ⟨rfl, -, rfl⟩
  apply (strlen_yields fun hready => hready.2.1).bind
  rintro str2Len r'' ⟨rfl, -, rfl⟩
  apply (lift_yields (malloc_yields hh)).bind
  rintro newstr r₁ ⟨hnew, hhead₁⟩
  have hsize : Appendable str1 str2 →
      sizeT (sizeT (str1.idxOf 0 + str2.idxOf 0) + 1) = str1.idxOf 0 + str2.idxOf 0 + 1 ∧
        sizeT (str2.idxOf 0 + 1) = str2.idxOf 0 + 1 := by
    rintro ⟨-, -, hlength⟩
    unfold sizeT
    omega
  apply (require_yields hnew).bind
  rintro _ r₁' ⟨rfl, hstr⟩
  apply (lift_yields (strncpy_yields (.inr hstr) _)).bind
  · rintro _ r₂ ⟨hcopy, hhead₂⟩
    apply (lift_yields (strncpy_yields (.inr hcopy) _)).bind
    · rintro _ r₃ ⟨hcopy', hhead₃⟩
      exact insertString_yields hcopy' (hhead₃.trans (hhead₂.trans hhead₁))
    · intro hready
      rw [(hsize hready).1, (hsize hready).2]
      exact ⟨.inl hready.2.1, by omega⟩
  · intro hready
    rw [(hsize hready).1]
    exact ⟨.inl hready.1, by omega⟩

theorem stringRemove_yields (hh : Holds r.heap [] r.head l) (s : Nat) {excuse : Trap → Prop} :
    Yields (stringRemove s) r
      (fun _ r' => Holds r'.heap [] r'.head (l.filter fun x => x.2 ≠ s)) excuse := by
  unfold stringRemove
  apply Yields.after_ok get_eq_ok
  apply (lift_yields (sllDeleteFreeNode_yields hh (newJvalS s))).bind
  rintro head' r' ⟨hrest, -⟩
  exact .of_ok rfl hrest

theorem stringClean_yields (hh : Holds r.heap [] r.head l) {excuse : Trap → Prop} :
    Yields stringClean r (fun _ r' => Holds r'.heap [] r'.head []) excuse := by
  unfold stringClean
  apply Yields.after_ok get_eq_ok
  apply (lift_yields (sllRemoveFree_yields hh)).bind
  rintro head' r' ⟨⟨-, hempty⟩, -⟩
  exact .of_ok rfl hempty

end Functions

end Registry

/-! ## Calls -/

/-- A call from outside. The argument of `string_remove` is any pointer at all. -/
inductive StrOp where
  | new (str : List UInt8)
  | newN (str : List UInt8) (n : UInt64)
  | memN (str : List UInt8) (n : UInt64)
  | append (str1 str2 : List UInt8)
  | remove (str : Nat)
  | clean
  deriving DecidableEq

def StrOp.exec (alloc : Allocator Jval) : StrOp → RegistryM Unit
  | .new str => do
    let _ ← stringNew alloc str
    return ()
  | .newN str n => do
    let _ ← stringNewN alloc str n
    return ()
  | .memN str n => do
    let _ ← stringMemN alloc str n
    return ()
  | .append str1 str2 => do
    let _ ← stringAppend alloc str1 str2
    return ()
  | .remove str => stringRemove str
  | .clean => stringClean

def runOps (alloc : Allocator Jval) : List StrOp → RegistryM Unit
  | [] => pure ()
  | op :: ops => do
    op.exec alloc
    runOps alloc ops

/-- Do the arguments allow the copies? -/
def StrOp.Ready : StrOp → Prop
  | .new str => 0 ∈ str
  | .newN str n => n.toNat + 1 < 2 ^ 64 ∧ (0 ∈ str ∨ n.toNat ≤ str.length)
  | .memN str n => n.toNat ≤ str.length
  | .append str1 str2 => Appendable str1 str2
  | .remove _ | .clean => True

/-- Why a call may stop. `string_remove` and `string_clean` do not. -/
def StrOp.Excuse (alloc : Allocator Jval) : StrOp → Trap → Prop
  | .remove _, _ | .clean, _ => False
  | op, t => Utils.Excuse alloc op.Ready t

/-- What a call does to the entries of the list, newest first. -/
def StrOp.Changes : StrOp → List Nat → List Nat → Prop
  | .remove str, strs, strs' => strs' = strs.filter fun s => s ≠ str
  | .clean, _, strs' => strs' = []
  | _, strs, strs' => ∃ s, s ∉ strs ∧ strs' = s :: strs

/-- The list has these entries, each once, and they are the strings that are allocated. -/
structure Registry.Exact (r : Registry) (strs : List Nat) : Prop where
  entries : ∃ l, Linked r.heap.cells r.head l ∧ l.map Prod.snd = strs
  nodup : strs.Nodup
  allocated : ∀ s, s ∈ strs ↔ r.heap.hasBytes s = true

section Calls

variable {alloc : Allocator Jval} {r r' : Registry} {l : List (Nat × Jval)} {t : Trap}

theorem Holds.exact (hh : Holds r.heap [] r.head l) : r.Exact (l.map Prod.snd) where
  entries := ⟨l, hh.linked, rfl⟩
  nodup := hh.nodup
  allocated s := (hh.strings s).symm

/-- A call that makes a string. -/
theorem makes_yields {x : RegistryM Nat} {excuse : Trap → Prop}
    (hx : Yields x r (Registered l) excuse) :
    Yields (x >>= fun _ => pure ()) r
      (fun _ r' => ∃ l', Holds r'.heap [] r'.head l' ∧
        ∃ s, s ∉ l.map Prod.snd ∧ l'.map Prod.snd = s :: l.map Prod.snd) excuse := by
  apply hx.bind
  rintro s r' ⟨node, hh'⟩
  exact .of_ok rfl ⟨(node, s) :: l, hh', s, (List.nodup_cons.mp hh'.nodup).1, rfl⟩

/-- One call. -/
theorem StrOp.exec_yields (alloc : Allocator Jval) (hh : Holds r.heap [] r.head l)
    (op : StrOp) :
    Yields (op.exec alloc) r
      (fun _ r' => ∃ l', Holds r'.heap [] r'.head l' ∧
        op.Changes (l.map Prod.snd) (l'.map Prod.snd))
      (op.Excuse alloc) := by
  cases op with
  | new str => exact makes_yields (stringNew_yields hh)
  | newN str n => exact makes_yields (stringNewN_yields hh)
  | memN str n => exact makes_yields (stringMemN_yields hh)
  | append str1 str2 => exact makes_yields (stringAppend_yields hh)
  | remove str =>
    apply (stringRemove_yields hh str).mono
    intro _ r' hrest
    refine ⟨_, hrest, ?_⟩
    show (l.filter fun x => x.2 ≠ str).map Prod.snd = (l.map Prod.snd).filter fun s => s ≠ str
    rw [List.filter_map]
    rfl
  | clean =>
    apply (stringClean_yields hh).mono
    intro _ r' hempty
    exact ⟨[], hempty, rfl⟩

theorem StrOp.not_excused (op : StrOp) : ¬ op.Excuse alloc .invalidFree := by
  cases op <;> simp [StrOp.Excuse, Utils.Excuse]

/-- Any number of calls. -/
theorem runOps_yields (hh : Holds r.heap [] r.head l) (ops : List StrOp) :
    Yields (runOps alloc ops) r (fun _ r' => ∃ l', Holds r'.heap [] r'.head l')
      (fun t => ∃ op ∈ ops, op.Excuse alloc t) := by
  induction ops generalizing r l with
  | nil => exact .of_ok rfl ⟨l, hh⟩
  | cons op ops ih =>
    have hop := (op.exec_yields alloc hh).weaken
      fun t ht => (⟨op, List.mem_cons_self, ht⟩ : ∃ op' ∈ op :: ops, op'.Excuse alloc t)
    apply hop.bind
    intro _ r₁ hafter
    obtain ⟨l₁, hh₁, -⟩ := hafter
    apply (ih hh₁).weaken
    intro t ht
    obtain ⟨op', hmem, hexcuse⟩ := ht
    exact ⟨op', List.mem_cons_of_mem _ hmem, hexcuse⟩

theorem runOps_holds {ops : List StrOp} (hrun : runOps alloc ops {} = .ok ((), r)) :
    ∃ l, Holds r.heap [] r.head l :=
  (runOps_yields Holds.start ops).post_of_ok hrun

/-- No run comes to a `free` of what is not allocated. -/
theorem runOps_ne_invalidFree (ops : List StrOp) :
    runOps alloc ops {} ≠ .error .invalidFree := by
  intro hfree
  obtain ⟨op, -, hexcuse⟩ := (runOps_yields Holds.start ops).excuse_of_error hfree
  exact op.not_excused hexcuse

/-- Whatever was called so far, the list has exactly the strings that are allocated, and so it
    has after the next call: that adds a new string in front, takes out one and keeps the order
    of the others, or frees them all. A call that stops has bad arguments or no memory; it never
    frees what is not allocated. -/
theorem registry_exact (alloc : Allocator Jval) {ops : List StrOp} {r : Registry}
    (hrun : runOps alloc ops {} = .ok ((), r)) :
    ∃ strs, r.Exact strs ∧ ∀ op : StrOp,
      Yields (op.exec alloc) r (fun _ r' => ∃ strs', r'.Exact strs' ∧ op.Changes strs strs')
        (op.Excuse alloc) ∧
      op.exec alloc r ≠ .error .invalidFree := by
  obtain ⟨l, hh⟩ := runOps_holds hrun
  refine ⟨l.map Prod.snd, hh.exact, ?_⟩
  intro op
  have hop := op.exec_yields alloc hh
  constructor
  · apply hop.mono
    rintro _ r' ⟨l', hh', hchanges⟩
    exact ⟨l'.map Prod.snd, hh'.exact, hchanges⟩
  · intro hfree
    exact op.not_excused (hop.excuse_of_error hfree)

/-- A `malloc` that gives out the lowest address that is free. -/
def lowest : Allocator Jval where
  pick h _ :=
    ((List.range' 1 (h.store.keys.length + 1)).find? fun p => (h.blocks p).isNone).getD 0
  fresh h size hp := by
    cases hfind : (List.range' 1 (h.store.keys.length + 1)).find?
        fun p => (h.blocks p).isNone with
    | none =>
      rw [hfind] at hp
      exact absurd rfl hp
    | some p => simpa using List.find?_some hfind

/-- Two strings, of which the first is removed twice, and a third one at its address. -/
def reuse : List StrOp :=
  [.new [72, 105, 0], .memN [1, 2, 3] 2, .remove 1, .remove 1, .remove 0, .append [65, 0] [66, 0]]

theorem registry_exact_reuse : ∃ r, runOps lowest reuse {} = .ok ((), r) ∧
    ∃ strs, r.Exact strs ∧ ∀ op : StrOp,
      Yields (op.exec lowest) r (fun _ r' => ∃ strs', r'.Exact strs' ∧ op.Changes strs strs')
        (op.Excuse lowest) ∧
      op.exec lowest r ≠ .error .invalidFree := by
  have hends : (runOps lowest reuse {}).toBool = true := by decide +kernel
  cases hrun : runOps lowest reuse {} with
  | error t =>
    rw [hrun] at hends
    cases hends
  | ok x => exact ⟨x.2, rfl, registry_exact lowest hrun⟩

end Calls

end MeshChat.Utils
