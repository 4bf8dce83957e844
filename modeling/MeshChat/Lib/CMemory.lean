import Mathlib

/-! # C memory: bounded buffers, words in network order, NUL-terminated strings

    A small library for modelling C code that lays out and reads fixed-size
    buffers by hand.

    * `Access`: the outcome of a piece of C code over memory. An access outside
      its object is a `fault`; the outcome also records the length of every
      copy whose size was computed at run time, so that "no copy is longer
      than the buffer" can be stated about the code itself.
    * `Mem n`: an object of `n` bytes, with checked loads and stores.
    * `beBytes` / `ofBe`: 32-bit words in network byte order.
    * `CStr`: a NUL-terminated string, as the NUL-free bytes before its
      terminator.
    * `Laid`: what a frame that is written front to back holds so far.
    * `scanDelim` and friends: a scan of a scratch array for a delimiter.
-/

namespace CMemory

/-! ## Outcomes of C code -/

/-- Outcome of running C code over memory. Both constructors carry the lengths
    of the run-time sized copies requested so far. -/
inductive Access (α : Type) where
  | ok (val : α) (copies : List Nat)
  | fault (copies : List Nat)

namespace Access

variable {α β : Type}

/-- Add earlier copies in front of the record of an outcome. -/
def after (l : List Nat) : Access α → Access α
  | .ok a l' => .ok a (l ++ l')
  | .fault l' => .fault (l ++ l')

protected def bind (x : Access α) (f : α → Access β) : Access β :=
  match x with
  | .ok a l => (f a).after l
  | .fault l => .fault l

instance : Monad Access where
  pure a := .ok a []
  bind := Access.bind

/-- The copies requested, whatever the outcome. -/
def copies : Access α → List Nat
  | .ok _ l => l
  | .fault l => l

@[simp] theorem pure_eq (a : α) : (pure a : Access α) = .ok a [] := rfl

@[simp] theorem ok_bind (a : α) (l : List Nat) (f : α → Access β) :
    (Access.ok a l >>= f) = (f a).after l := rfl

@[simp] theorem fault_bind (l : List Nat) (f : α → Access β) :
    (Access.fault l >>= f) = .fault l := rfl

@[simp] theorem after_ok (l l' : List Nat) (a : α) :
    (Access.ok a l').after l = .ok a (l ++ l') := rfl

@[simp] theorem after_fault (l l' : List Nat) :
    (Access.fault l' : Access α).after l = .fault (l ++ l') := rfl

@[simp] theorem after_nil (x : Access α) : x.after [] = x := by
  cases x <;> rfl

@[simp] theorem copies_after (l : List Nat) (x : Access α) :
    (x.after l).copies = l ++ x.copies := by
  cases x <;> rfl

theorem after_append (l l' : List Nat) (x : Access α) : (x.after l').after l = x.after (l ++ l') := by
  cases x with
  | ok a m => simp
  | fault m => simp

protected theorem bind_assoc {γ : Type} (x : Access α) (f : α → Access β) (g : β → Access γ) :
    (x >>= f) >>= g = x >>= fun a => f a >>= g := by
  cases x with
  | fault l => rfl
  | ok a l =>
    rw [ok_bind, ok_bind]
    cases f a with
    | fault l' => rfl
    | ok b l' => rw [after_ok, ok_bind, ok_bind, after_append]

/-- Packing a result makes no copies. -/
@[simp] theorem copies_bind_ok (x : Access α) (g : α → β) :
    (x >>= fun a => Access.ok (g a) []).copies = x.copies := by
  cases x with
  | ok a l => simp [copies]
  | fault l => rfl

theorem bind_pure_eq_ok {x : Access α} {g : α → β} {b : β} {l : List Nat}
    (h : (x >>= fun a => pure (g a)) = .ok b l) : ∃ a, x = .ok a l ∧ g a = b := by
  cases x with
  | fault _ => cases h
  | ok a l' =>
    rw [ok_bind, pure_eq, after_ok, List.append_nil] at h
    cases h
    exact ⟨a, rfl, rfl⟩

/-- What ends well after some copies ends well without them. -/
theorem of_after_eq_ok {x : Access α} {a : α} {l l' : List Nat} (h : x.after l = .ok a l') :
    ∃ l₁, x = .ok a l₁ := by
  cases x with
  | fault _ => cases h
  | ok a' l₁ =>
    cases h
    exact ⟨l₁, rfl⟩

/-- A sequence that ends well passed through its first part. -/
theorem bind_eq_ok {x : Access α} {f : α → Access β} {b : β} {l : List Nat}
    (h : (x >>= f) = .ok b l) : ∃ a l', f a = .ok b l' := by
  cases x with
  | fault _ => cases h
  | ok a l₁ =>
    rw [ok_bind] at h
    cases hfa : f a with
    | fault _ => rw [hfa] at h; cases h
    | ok b' l₂ =>
      rw [hfa, after_ok] at h
      cases h
      exact ⟨a, l₂, hfa⟩

end Access

/-! ## Words in network byte order -/

/-- The four bytes `htonl` and `memcpy` leave in memory, most significant first. -/
def beBytes (w : UInt32) : List UInt8 :=
  [UInt8.ofNat (w.toNat / 2 ^ 24), UInt8.ofNat (w.toNat / 2 ^ 16),
   UInt8.ofNat (w.toNat / 2 ^ 8), UInt8.ofNat w.toNat]

/-- The word `memcpy` and `ntohl` read back. -/
def ofBe (l : List UInt8) : UInt32 :=
  UInt32.ofNat (l.foldl (fun acc b => acc * 256 + b.toNat) 0)

@[simp] theorem beBytes_length (w : UInt32) : (beBytes w).length = 4 := by
  simp [beBytes]

@[simp] theorem ofBe_beBytes (w : UInt32) : ofBe (beBytes w) = w := by
  apply UInt32.toNat_inj.mp
  have hw := w.toNat_lt
  simp only [ofBe, beBytes, List.foldl_cons, List.foldl_nil, UInt32.toNat_ofNat',
    UInt8.toNat_ofNat']
  omega

/-! ## Objects of a fixed size -/

/-- The bytes `memset(_, 0, n)` writes. -/
def zeros (n : Nat) : List UInt8 := List.replicate n 0

@[simp] theorem zeros_length (n : Nat) : (zeros n).length = n := by
  rw [zeros, List.length_replicate]

/-- An object of `n` bytes. -/
def Mem (n : Nat) : Type := Fin n → UInt8

namespace Mem

variable {n : Nat}

/-- The byte at offset `i`; `0` stands for a byte outside the object, which the
    checked accesses below never return. -/
def at' (m : Mem n) (i : Nat) : UInt8 :=
  if h : i < n then m ⟨i, h⟩ else 0

/-- The `len` bytes from offset `off`. -/
def slice (m : Mem n) (off len : Nat) : List UInt8 :=
  (List.range len).map fun i => m.at' (off + i)

/-- The object after the bytes `bs` were put at offset `off`. -/
def put (m : Mem n) (off : Nat) (bs : List UInt8) : Mem n :=
  fun i => if off ≤ i.val ∧ i.val < off + bs.length then bs.getD (i.val - off) 0 else m i

/-- The word at offset `off`. -/
def word (m : Mem n) (off : Nat) : UInt32 := ofBe (m.slice off 4)

/-- A checked read of `len` bytes. -/
def load (m : Mem n) (off len : Nat) : Access (List UInt8) :=
  if off + len ≤ n then .ok (m.slice off len) [] else .fault []

/-- A checked write (`memcpy`, `memset` and single stores). -/
def store (m : Mem n) (off : Nat) (bs : List UInt8) : Access (Mem n) :=
  if off + bs.length ≤ n then .ok (m.put off bs) [] else .fault []

/-- A checked read of a word in network byte order. -/
def loadWord (m : Mem n) (off : Nat) : Access UInt32 :=
  if off + 4 ≤ n then .ok (m.word off) [] else .fault []

/-- A checked read of one byte. -/
def loadByte (m : Mem n) (off : Nat) : Access UInt8 :=
  if off < n then .ok (m.at' off) [] else .fault []

@[simp] theorem slice_length (m : Mem n) (off len : Nat) : (m.slice off len).length = len := by
  simp [slice]

@[simp] theorem slice_zero (m : Mem n) (off : Nat) : m.slice off 0 = [] := rfl

theorem load_ok {m : Mem n} {off len : Nat} (h : off + len ≤ n) :
    m.load off len = .ok (m.slice off len) [] := if_pos h

theorem store_ok {m : Mem n} {off : Nat} {bs : List UInt8} (h : off + bs.length ≤ n) :
    m.store off bs = .ok (m.put off bs) [] := if_pos h

/-- A store that went through was inside the object. -/
theorem store_inside {m m' : Mem n} {off : Nat} {bs : List UInt8} {l : List Nat}
    (h : m.store off bs = .ok m' l) : off + bs.length ≤ n := by
  unfold store at h
  split at h
  · assumption
  · cases h

theorem loadWord_ok {m : Mem n} {off : Nat} (h : off + 4 ≤ n) :
    m.loadWord off = .ok (m.word off) [] := if_pos h

theorem loadByte_ok {m : Mem n} {off : Nat} (h : off < n) :
    m.loadByte off = .ok (m.at' off) [] := if_pos h

theorem at'_put {m : Mem n} {off : Nat} {bs : List UInt8} (h : off + bs.length ≤ n) (i : Nat) :
    (m.put off bs).at' i =
      if off ≤ i ∧ i < off + bs.length then bs.getD (i - off) 0 else m.at' i := by
  unfold at' put
  by_cases hi : i < n
  · simp only [hi, dif_pos]
  · have hout : ¬ (off ≤ i ∧ i < off + bs.length) := by omega
    simp only [hi, dif_neg, not_false_eq_true, if_neg hout]

/-- A read inside the bytes just written returns that part of them. -/
theorem slice_put_inside {m : Mem n} {off : Nat} {bs : List UInt8} (h : off + bs.length ≤ n)
    {i len : Nat} (hi : i + len ≤ bs.length) :
    (m.put off bs).slice (off + i) len = (bs.drop i).take len := by
  apply List.ext_getElem
  · simp; omega
  · intro k hk _
    simp only [slice_length] at hk
    have hin : off ≤ off + i + k ∧ off + i + k < off + bs.length := by omega
    have hsub : off + i + k - off = i + k := by omega
    simp [slice, at'_put h, if_pos hin, hsub, List.getElem?_eq_getElem (show i + k < bs.length by omega)]

/-- The bytes just written are read back. -/
theorem slice_put_self {m : Mem n} {off : Nat} {bs : List UInt8} (h : off + bs.length ≤ n) :
    (m.put off bs).slice off bs.length = bs := by
  have hread : (m.put off bs).slice (off + 0) bs.length = (bs.drop 0).take bs.length :=
    slice_put_inside h (by omega)
  simpa using hread

/-- A write elsewhere does not change a slice. -/
theorem slice_put_disjoint {m : Mem n} {off : Nat} {bs : List UInt8} (h : off + bs.length ≤ n)
    {off' len : Nat} (hd : off' + len ≤ off ∨ off + bs.length ≤ off') :
    (m.put off bs).slice off' len = m.slice off' len := by
  apply List.ext_getElem
  · simp
  · intro k hk _
    simp only [slice_length] at hk
    have hout : ¬ (off ≤ off' + k ∧ off' + k < off + bs.length) := by omega
    simp [slice, at'_put h, if_neg hout]

theorem at'_put_disjoint {m : Mem n} {off : Nat} {bs : List UInt8} (h : off + bs.length ≤ n)
    {i : Nat} (hd : i < off ∨ off + bs.length ≤ i) :
    (m.put off bs).at' i = m.at' i := by
  rw [at'_put h, if_neg (by omega)]

theorem at'_put_self {m : Mem n} {off : Nat} {b : UInt8} (h : off < n) :
    (m.put off [b]).at' off = b := by
  rw [at'_put (by simpa using h), if_pos (by simp)]
  simp

theorem word_put_self {m : Mem n} {off : Nat} {w : UInt32} (h : off + 4 ≤ n) :
    (m.put off (beBytes w)).word off = w := by
  have hread : (m.put off (beBytes w)).slice off (beBytes w).length = beBytes w :=
    slice_put_self (by simpa using h)
  rw [beBytes_length] at hread
  rw [word, hread, ofBe_beBytes]

/-- Cleared memory reads as zero. -/
theorem word_put_zeros {m : Mem n} {k off : Nat} (h : k ≤ n) (hoff : off + 4 ≤ k) :
    (m.put 0 (zeros k)).word off = 0 := by
  have hread : (m.put 0 (zeros k)).slice (0 + off) 4 = ((zeros k).drop off).take 4 :=
    slice_put_inside (by simpa using h) (by simpa using hoff)
  have hzero : ((zeros k).drop off).take 4 = [0, 0, 0, 0] := by
    simp only [zeros, List.drop_replicate, List.take_replicate]
    rw [Nat.min_eq_left (by omega)]
    rfl
  rw [Nat.zero_add, hzero] at hread
  rw [word, hread]
  rfl

theorem at'_put_zeros {m : Mem n} {k i : Nat} (h : k ≤ n) (hi : i < k) :
    (m.put 0 (zeros k)).at' i = 0 := by
  rw [at'_put (by simpa using h), if_pos (by simpa using hi)]
  simp only [Nat.sub_zero, zeros, List.getD_eq_getElem?_getD, List.getElem?_replicate, if_pos hi,
    Option.getD_some]

theorem word_put_disjoint {m : Mem n} {off : Nat} {bs : List UInt8} (h : off + bs.length ≤ n)
    {off' : Nat} (hd : off' + 4 ≤ off ∨ off + bs.length ≤ off') :
    (m.put off bs).word off' = m.word off' := by
  rw [word, slice_put_disjoint h hd, word]

/-- Consecutive slices join. -/
theorem slice_append (m : Mem n) (off a b : Nat) :
    m.slice off (a + b) = m.slice off a ++ m.slice (off + a) b := by
  simp only [slice, List.range_add, List.map_append, List.map_map]
  congr 1
  apply List.map_congr_left
  intro i _
  simp [Nat.add_assoc]

/-- A store right behind a run of bytes extends the run. -/
theorem slice_put_append {m : Mem n} {off : Nat} {a b : List UInt8}
    (h : off + a.length + b.length ≤ n) (ha : m.slice off a.length = a) :
    (m.put (off + a.length) b).slice off (a ++ b).length = a ++ b := by
  rw [List.length_append, slice_append, slice_put_disjoint h (by omega), slice_put_self h, ha]

/-- A run of bytes inside a longer run. -/
theorem slice_of_append {m : Mem n} {off : Nat} {a b c : List UInt8}
    (h : m.slice off (a ++ b ++ c).length = a ++ b ++ c) :
    m.slice (off + a.length) b.length = b := by
  rw [List.length_append, slice_append, List.length_append, slice_append] at h
  have hab := (List.append_inj h (by simp)).1
  exact (List.append_inj hab (by simp)).2

end Mem

/-! ## Arrays of words -/

/-- Read `count` consecutive words. -/
def Mem.loadWords {n : Nat} (m : Mem n) (off : Nat) : Nat → Access (List UInt32)
  | 0 => pure []
  | count + 1 => do
    let w ← m.loadWord off
    let ws ← m.loadWords (off + 4) count
    pure (w :: ws)

/-- Write consecutive words. -/
def Mem.storeWords {n : Nat} (m : Mem n) (off : Nat) : List UInt32 → Access (Mem n)
  | [] => pure m
  | w :: ws => do
    let m ← m.store off (beBytes w)
    m.storeWords (off + 4) ws

/-- The bytes of an array of words. -/
def beWords (ws : List UInt32) : List UInt8 := ws.flatMap beBytes

@[simp] theorem beWords_nil : beWords [] = [] := rfl

@[simp] theorem beWords_cons (w : UInt32) (ws : List UInt32) :
    beWords (w :: ws) = beBytes w ++ beWords ws := rfl

@[simp] theorem beWords_length (ws : List UInt32) : (beWords ws).length = 4 * ws.length := by
  induction ws with
  | nil => rfl
  | cons w ws ih => simp [ih]; omega

/-- Words inside the object are read without a fault. -/
theorem Mem.loadWords_ok {n : Nat} (m : Mem n) (off count : Nat) (h : off + 4 * count ≤ n) :
    ∃ ws, m.loadWords off count = .ok ws [] := by
  induction count generalizing off with
  | zero => exact ⟨[], rfl⟩
  | succ count ih =>
    obtain ⟨ws, hws⟩ := ih (off + 4) (by omega)
    refine ⟨m.word off :: ws, ?_⟩
    simp [Mem.loadWords, Mem.loadWord_ok (show off + 4 ≤ n by omega), hws]

/-- A write of words that went through was inside the object. -/
theorem Mem.storeWords_inside {n : Nat} {m m' : Mem n} {off : Nat} {ws : List UInt32}
    {l : List Nat} (hoff : off ≤ n) (h : m.storeWords off ws = .ok m' l) :
    off + 4 * ws.length ≤ n := by
  induction ws generalizing m off l with
  | nil => simpa using hoff
  | cons w ws ih =>
    unfold Mem.storeWords at h
    by_cases hw : off + 4 ≤ n
    · obtain ⟨_, _, hrest⟩ := Access.bind_eq_ok h
      have hend := ih hw hrest
      simp only [List.length_cons]
      omega
    · have hstore : m.store off (beBytes w) = .fault [] := by
        unfold Mem.store
        rw [if_neg (by simpa using hw)]
      rw [hstore] at h
      cases h

/-! ## NUL-terminated strings -/

/-- A C string: the bytes before its terminator. -/
structure CStr where
  bytes : List UInt8
  nulFree : (0 : UInt8) ∉ bytes
  deriving DecidableEq

namespace CStr

@[ext] theorem ext' {s t : CStr} (h : s.bytes = t.bytes) : s = t := by
  cases s; cases t; simp_all

/-- `strlen`. -/
def strlen (s : CStr) : Nat := s.bytes.length

/-- The string a run of bytes denotes: everything before its first NUL. -/
def ofBytes (l : List UInt8) : CStr where
  bytes := l.takeWhile (· ≠ 0)
  nulFree := by
    intro h
    simpa using List.mem_takeWhile_imp h

theorem ofBytes_bytes (s : CStr) : ofBytes s.bytes = s := by
  apply CStr.ext'
  simp only [ofBytes]
  apply List.takeWhile_eq_self_iff.mpr
  intro b hb
  have : b ≠ 0 := fun h => s.nulFree (h ▸ hb)
  simpa using this

theorem ofBytes_of_nulFree {l : List UInt8} (h : (0 : UInt8) ∉ l) : (ofBytes l).bytes = l :=
  congrArg CStr.bytes (ofBytes_bytes ⟨l, h⟩)

theorem ofBytes_append_nul (s : CStr) (rest : List UInt8) :
    ofBytes (s.bytes ++ 0 :: rest) = s := by
  apply CStr.ext'
  have hs := congrArg CStr.bytes (ofBytes_bytes s)
  simp only [ofBytes] at hs ⊢
  rw [List.takeWhile_append, if_pos (by rw [hs])]
  simp

instance : Inhabited CStr := ⟨⟨[], by simp⟩⟩

end CStr

/-- The bytes of an ASCII literal. -/
def ascii (s : String) : List UInt8 := s.toList.map fun c => UInt8.ofNat c.toNat

/-- `strncpy` of at most `len` bytes from offset `off` into a fresh array of
    `len + 1` bytes, then terminated. The source is read up to its first NUL, so
    the read leaves the object when there is none before its end. -/
def copyString {n : Nat} (m : Mem n) (off len : Nat) : Access CStr :=
  let avail := m.slice off (min len (n - off))
  if avail.length < len ∧ 0 ∉ avail then .fault [len] else .ok (CStr.ofBytes avail) [len]

/-- A string of exactly `len` bytes inside the object is copied whole. -/
theorem copyString_of_slice {n : Nat} {m : Mem n} {off : Nat} {s : CStr}
    (h : off + s.strlen ≤ n) (hs : m.slice off s.strlen = s.bytes) :
    copyString m off s.strlen = .ok s [s.strlen] := by
  have hmin : min s.strlen (n - off) = s.strlen := by omega
  unfold copyString
  rw [hmin, hs, if_neg (by simp [CStr.strlen]), CStr.ofBytes_bytes]

/-- A copy that ends inside the object reads nothing outside it. -/
theorem copyString_ok {n : Nat} (m : Mem n) (off len : Nat) (h : off + len ≤ n) :
    ∃ s, copyString m off len = .ok s [len] := by
  refine ⟨CStr.ofBytes (m.slice off (min len (n - off))), ?_⟩
  unfold copyString
  rw [if_neg]
  simp
  omega

theorem copies_copyString {n : Nat} (m : Mem n) (off len : Nat) :
    (copyString m off len).copies = [len] := by
  unfold copyString
  dsimp only
  split <;> rfl

/-! ## Frames laid out front to back

    A frame is a header of `base` bytes and a body behind it. `H` is what is
    known about the header; it looks at bytes below `base` only, so that writing
    the body keeps it. -/

/-- `m` satisfies `H`, which stores from `base` on do not disturb, and its body
    starts with the bytes `bs`. -/
structure Laid {n : Nat} (base : Nat) (H : Mem n → Prop) (m : Mem n) (bs : List UInt8) : Prop where
  below : ∀ (m : Mem n) (off : Nat) (b : List UInt8), base ≤ off → off + b.length ≤ n →
    H m → H (m.put off b)
  header : H m
  body : m.slice base bs.length = bs

namespace Laid

variable {n base : Nat} {H : Mem n → Prop} {m : Mem n} {bs : List UInt8}

/-- Clearing the body forgets what was laid out there. -/
theorem clear (hm : Laid base H m bs) {k : Nat} (hfit : base + k ≤ n) :
    ∃ m', m.store base (zeros k) = .ok m' [] ∧ Laid base H m' [] := by
  have hlen : base + (zeros k).length ≤ n := by simpa using hfit
  refine ⟨_, Mem.store_ok hlen, hm.below, ?_, rfl⟩
  exact hm.below m base (zeros k) (le_refl _) hlen hm.header

/-- A store right behind the laid out bytes extends them. -/
theorem store (hm : Laid base H m bs) (off : Nat) (b : List UInt8) (hoff : off = base + bs.length)
    (hfit : base + bs.length + b.length ≤ n) :
    ∃ m', m.store off b = .ok m' [] ∧ Laid base H m' (bs ++ b) := by
  subst hoff
  refine ⟨_, Mem.store_ok hfit, hm.below, ?_, ?_⟩
  · exact hm.below m _ b (by omega) hfit hm.header
  · exact Mem.slice_put_append hfit hm.body

/-- A word inside the laid out bytes. -/
theorem loadWord (pre post : List UInt8) {w : UInt32}
    (hm : Laid base H m (pre ++ beBytes w ++ post)) (off : Nat) (hoff : off = base + pre.length)
    (hfit : base + pre.length + 4 ≤ n) :
    m.loadWord off = .ok w [] := by
  subst hoff
  have hslice := Mem.slice_of_append hm.body
  rw [beBytes_length] at hslice
  rw [Mem.loadWord_ok hfit, Mem.word, hslice, ofBe_beBytes]

/-- A byte inside the laid out bytes. -/
theorem loadByte (pre post : List UInt8) {b : UInt8} (hm : Laid base H m (pre ++ [b] ++ post))
    (off : Nat) (hoff : off = base + pre.length) (hfit : base + pre.length < n) :
    m.loadByte off = .ok b [] := by
  subst hoff
  have hslice := Mem.slice_of_append hm.body
  have hat : m.at' (base + pre.length) = b := by
    simpa [Mem.slice] using hslice
  rw [Mem.loadByte_ok hfit, hat]

/-- A string at the end of the laid out bytes. -/
theorem copyString (pre : List UInt8) {s : CStr} (hm : Laid base H m (pre ++ s.bytes)) (off : Nat)
    (hoff : off = base + pre.length) (hfit : base + pre.length + s.strlen ≤ n) :
    copyString m off s.strlen = .ok s [s.strlen] := by
  subst hoff
  apply copyString_of_slice hfit
  have hbody := hm.body
  rw [← List.append_nil (pre ++ s.bytes)] at hbody
  exact Mem.slice_of_append hbody

/-- The first bytes of the body as a block. -/
theorem load {rest : List UInt8} (hm : Laid base H m (bs ++ rest)) (hfit : base + bs.length ≤ n) :
    m.load base bs.length = .ok bs [] := by
  have hbody := hm.body
  rw [← List.nil_append bs] at hbody
  have hslice := Mem.slice_of_append hbody
  rw [Mem.load_ok hfit]
  simpa using hslice

/-- An array of words at the end of the laid out bytes. -/
theorem loadWords (pre : List UInt8) (ws : List UInt32) (hm : Laid base H m (pre ++ beWords ws))
    (off : Nat) (hoff : off = base + pre.length) (hfit : base + pre.length + 4 * ws.length ≤ n) :
    m.loadWords off ws.length = .ok ws [] := by
  induction ws generalizing pre off with
  | nil => rfl
  | cons w ws ih =>
    simp only [List.length_cons] at hfit ⊢
    have hword : m.loadWord off = .ok w [] :=
      Laid.loadWord pre (beWords ws) (by simpa [List.append_assoc] using hm) off hoff (by omega)
    have hrest : m.loadWords (off + 4) ws.length = .ok ws [] :=
      ih (pre ++ beBytes w) (by simpa [List.append_assoc] using hm) (off + 4)
        (by simp [hoff]; omega) (by simp; omega)
    simp [Mem.loadWords, hword, hrest]

/-- Storing an array of words behind the laid out bytes. -/
theorem storeWords (ws : List UInt32) (hm : Laid base H m bs) (off : Nat)
    (hoff : off = base + bs.length) (hfit : base + bs.length + 4 * ws.length ≤ n) :
    ∃ m', m.storeWords off ws = .ok m' [] ∧ Laid base H m' (bs ++ beWords ws) := by
  induction ws generalizing m bs off with
  | nil => exact ⟨m, rfl, by simpa using hm⟩
  | cons w ws ih =>
    simp only [List.length_cons] at hfit
    obtain ⟨m₁, hstore, hlaid₁⟩ := hm.store off (beBytes w) hoff (by simp; omega)
    obtain ⟨m₂, hrest, hlaid₂⟩ := ih hlaid₁ (off + 4) (by simp [hoff]; omega) (by simp; omega)
    refine ⟨m₂, ?_, by simpa [List.append_assoc] using hlaid₂⟩
    simp [Mem.storeWords, hstore, hrest]

/-- A string with one separator byte behind it. -/
theorem field (hm : Laid base H m bs) (delim : UInt8) (off : Nat) (s : CStr)
    (hoff : off = base + bs.length) (hfit : base + bs.length + s.strlen + 1 ≤ n) :
    ∃ m₁ m₂, m.store off s.bytes = .ok m₁ [] ∧
      m₁.store (off + s.strlen) [delim] = .ok m₂ [] ∧
      Laid base H m₂ (bs ++ s.bytes ++ [delim]) := by
  have hlen : s.bytes.length = s.strlen := rfl
  obtain ⟨m₁, hstr, hlaid₁⟩ := hm.store off s.bytes hoff (by omega)
  obtain ⟨m₂, hdelim, hlaid₂⟩ := hlaid₁.store (off + s.strlen) [delim]
    (by simp [hoff, hlen]; omega) (by simp [hlen]; omega)
  exact ⟨m₁, m₂, hstr, hdelim, hlaid₂⟩

end Laid

/-! ## Scratch arrays and delimiter scans -/

/-- Scan for `delim`, stopping at a NUL or once more than `bound` bytes were
    passed. The outer option is `none` when the scan runs off the array, the
    inner one when it stops without finding the delimiter. -/
def scanDelim (delim : UInt8) (bound : Option Nat) : List UInt8 → Nat → Option (Option Nat)
  | [], _ => none
  | b :: bs, k =>
    if b = 0 ∨ bound.any (· < k) then some none
    else if b = delim then some (some k)
    else scanDelim delim bound bs (k + 1)

/-- A string in a scratch array, read from index `p` to its terminator. -/
def strAt (arr : List UInt8) (p : Nat) : Access CStr :=
  if 0 ∈ arr.drop p then .ok (CStr.ofBytes (arr.drop p)) [] else .fault []

/-- The scan passes over a field without the delimiter and stops on it. -/
theorem scanDelim_hit {delim : UInt8} {bound : Option Nat} (hd : delim ≠ 0)
    (field post : List UInt8) (hf : ∀ b ∈ field, b ≠ 0 ∧ b ≠ delim) (k : Nat)
    (hb : ∀ l ∈ bound, k + field.length ≤ l) :
    scanDelim delim bound (field ++ delim :: post) k = some (some (k + field.length)) := by
  induction field generalizing k with
  | nil =>
    have hstop : ¬ (delim = 0 ∨ bound.any (· < k)) := by
      cases bound with
      | none => simpa using hd
      | some l => have := hb l rfl; simp [hd]; simpa using this
    simp [scanDelim, if_neg hstop]
  -- induction on the field; the index moves with it
  | cons b field ih =>
    obtain ⟨hb0, hbd⟩ := hf b (List.mem_cons_self ..)
    have hstop : ¬ (b = 0 ∨ bound.any (· < k)) := by
      cases bound with
      | none => simpa using hb0
      | some l => have := hb l rfl; simp [hb0] at this ⊢; omega
    have hrest := ih (fun c hc => hf c (List.mem_cons_of_mem _ hc)) (k + 1)
      (fun l hl => by have := hb l hl; simp only [List.length_cons] at this; omega)
    simp only [List.cons_append, scanDelim, if_neg hstop, if_neg hbd, hrest, List.length_cons]
    congr 2
    omega

/-- The scan of a field that ends in a NUL finds nothing. -/
theorem scanDelim_miss {delim : UInt8} {bound : Option Nat}
    (field post : List UInt8) (hf : ∀ b ∈ field, b ≠ 0 ∧ b ≠ delim) (k : Nat) :
    scanDelim delim bound (field ++ 0 :: post) k = some none := by
  induction field generalizing k with
  | nil => simp [scanDelim]
  | cons b field ih =>
    obtain ⟨_, hbd⟩ := hf b (List.mem_cons_self ..)
    have hrest := ih (fun c hc => hf c (List.mem_cons_of_mem _ hc)) (k + 1)
    simp only [List.cons_append, scanDelim, if_neg hbd, hrest]
    split <;> rfl

/-- The scan of a terminated run stops. A delimiter it found is followed by the
    terminator, and there is none before. -/
theorem scanDelim_total (delim : UInt8) (bound : Option Nat) (l : List UInt8) (k : Nat)
    (hl : 0 ∈ l) :
    scanDelim delim bound l k = some none ∨
      ∃ j, scanDelim delim bound l k = some (some (k + j)) ∧ 0 ∈ l.drop (j + 1) ∧
        ∀ i < j, l[i]? ≠ some 0 := by
  induction l generalizing k with
  | nil => cases hl
  | cons b l ih =>
    -- the two ways to stop without a find
    by_cases hstop : b = 0 ∨ bound.any (· < k)
    · left
      rw [scanDelim, if_pos hstop]
    have hb : b ≠ 0 := fun h => hstop (Or.inl h)
    have hl : 0 ∈ l := (List.mem_cons.mp hl).resolve_left (Ne.symm hb)
    by_cases hd : b = delim
    · right
      refine ⟨0, ?_, by simpa using hl, by simp⟩
      rw [scanDelim, if_neg hstop, if_pos hd, Nat.add_zero]
    · have hstep : scanDelim delim bound (b :: l) k = scanDelim delim bound l (k + 1) := by
        rw [scanDelim, if_neg hstop, if_neg hd]
      rw [hstep]
      rcases ih (k + 1) hl with h | ⟨j, h, hj, hclear⟩
      · exact Or.inl h
      · refine Or.inr ⟨j + 1, ?_, by simpa using hj, ?_⟩
        · rw [h]
          congr 2
          omega
        · intro i hi
          cases i with
          | zero => simpa using hb
          | succ i => simpa using hclear i (by omega)

/-- Overwriting a byte with a terminator keeps every string terminated. -/
theorem mem_drop_set_zero {arr : List UInt8} {p : Nat} (h : (0 : UInt8) ∈ arr.drop p) (k : Nat) :
    0 ∈ (arr.set k 0).drop p := by
  obtain ⟨i, hi⟩ := List.mem_iff_getElem?.mp h
  rw [List.getElem?_drop] at hi
  apply List.mem_iff_getElem?.mpr
  refine ⟨i, ?_⟩
  rw [List.getElem?_drop, List.getElem?_set]
  by_cases hk : k = p + i
  · have hlt : p + i < arr.length := (List.getElem?_eq_some_iff.mp hi).1
    rw [if_pos hk, if_pos (by rwa [hk])]
  · rw [if_neg hk, hi]

/-- The string before a terminator inside a scratch array. -/
theorem strAt_append (pre : List UInt8) (s : CStr) (post : List UInt8) :
    strAt (pre ++ s.bytes ++ 0 :: post) pre.length = .ok s [] := by
  have hdrop : (pre ++ s.bytes ++ 0 :: post).drop pre.length = s.bytes ++ 0 :: post := by
    simp [List.append_assoc]
  unfold strAt
  rw [hdrop, if_pos (by simp), CStr.ofBytes_append_nul]

end CMemory
