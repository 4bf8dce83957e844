import Mathlib

/-! # UTF-8 and UTF-16

    A text is a list of characters, Unicode scalar values.

    * `utf8`, `utf16`: its bytes and its units.
    * `decode`: the characters of any bytes, with a replacement for what is not UTF-8.
    * `decode_utf8`: decoding undoes encoding.
    * `length_utf16_eq_iff`: a text has as many units as bytes only when it is ASCII.
-/

namespace Unicode

/-- The bytes of a text. -/
def utf8 (s : List Char) : List UInt8 := s.flatMap String.utf8EncodeChar

/-- The units of a character: one, or a pair of surrogates. -/
def units (c : Char) : List UInt16 :=
  if c.val < 0x10000 then [c.val.toUInt16]
  else
    let v := c.val - 0x10000
    [((v >>> 10) + 0xD800).toUInt16, ((v &&& 0x3FF) + 0xDC00).toUInt16]

/-- The units of a text. -/
def utf16 (s : List Char) : List UInt16 := s.flatMap units

/-- U+FFFD. -/
def replacement : Char := Char.ofNat 0xFFFD

/-- The characters behind the next `inside` bytes. A decoder chooses how many bytes one
    replacement stands for: `malformed` is the number of those behind the first. -/
def decode (malformed : List UInt8 → Nat) : Nat → List UInt8 → List Char
  | _, [] => []
  | inside + 1, _ :: l => decode malformed inside l
  | 0, b :: l =>
    match (b :: l).toByteArray.utf8DecodeChar? 0 with
    | some c => c :: decode malformed (c.utf8Size - 1) l
    | none => replacement :: decode malformed (malformed (b :: l)) l

/-! ## Decoding undoes encoding -/

theorem utf8_append (s t : List Char) : utf8 (s ++ t) = utf8 s ++ utf8 t := List.flatMap_append

theorem utf16_append (s t : List Char) : utf16 (s ++ t) = utf16 s ++ utf16 t :=
  List.flatMap_append

theorem utf8_replicate_nul (n : Nat) :
    utf8 (List.replicate n (Char.ofUInt8 0)) = List.replicate n 0 := by
  induction n with
  | zero => rfl
  | succ n ih =>
    rw [List.replicate_succ, List.replicate_succ, ← ih]
    rfl

theorem utf16_replicate_nul (n : Nat) :
    utf16 (List.replicate n (Char.ofUInt8 0)) = List.replicate n 0 := by
  induction n with
  | zero => rfl
  | succ n ih =>
    rw [List.replicate_succ, List.replicate_succ, ← ih]
    rfl

/-- The rest of a character is passed over. -/
theorem decode_inside (malformed : List UInt8 → Nat) (l rest : List UInt8) :
    decode malformed l.length (l ++ rest) = decode malformed 0 rest := by
  induction l with
  | nil => rfl
  | cons b l ih => rw [List.length_cons, List.cons_append, decode, ih]

theorem decode_char (malformed : List UInt8 → Nat) (c : Char) (rest : List UInt8) :
    decode malformed 0 (String.utf8EncodeChar c ++ rest) = c :: decode malformed 0 rest := by
  -- what follows the character does not change how it is read
  have hdecodes : (String.utf8EncodeChar c ++ rest).toByteArray.utf8DecodeChar? 0 = some c := by
    rw [List.toByteArray_append]
    exact ByteArray.utf8DecodeChar?_utf8EncodeChar_append
  have hsize := String.length_utf8EncodeChar c
  -- the first byte decides, and the others are passed over
  cases hbytes : String.utf8EncodeChar c with
  | nil => exact absurd hbytes String.utf8EncodeChar_ne_nil
  | cons b l =>
    rw [hbytes] at hdecodes hsize
    have hrest : c.utf8Size - 1 = l.length := by
      rw [← hsize, List.length_cons, Nat.add_sub_cancel]
    rw [List.cons_append] at hdecodes ⊢
    rw [decode, hdecodes]
    dsimp only
    rw [hrest, decode_inside]

theorem decode_utf8 (malformed : List UInt8 → Nat) (s : List Char) :
    decode malformed 0 (utf8 s) = s := by
  induction s with
  | nil => rfl
  | cons c s ih =>
    show decode malformed 0 (String.utf8EncodeChar c ++ utf8 s) = c :: s
    rw [decode_char, ih]

/-! ## Bytes and units -/

theorem length_units (c : Char) : (units c).length = if c.val < 0x10000 then 1 else 2 := by
  unfold units
  split
  · rfl
  · rfl

/-- A character has one byte for one unit only when it is ASCII. -/
theorem length_units_le (c : Char) :
    (units c).length ≤ c.utf8Size ∧ ((units c).length = c.utf8Size ↔ c.val < 0x80) := by
  have hone := c.utf8Size_eq_one_iff
  have htwo := c.utf8Size_eq_two_iff
  have hthree := c.utf8Size_eq_three_iff
  have hfour := c.utf8Size_eq_four_iff
  simp only [UInt32.le_iff_toNat_le, UInt32.lt_iff_toNat_lt, UInt32.reduceToNat] at hone htwo hthree hfour
  rw [length_units]
  simp only [UInt32.lt_iff_toNat_lt, UInt32.reduceToNat]
  have hpos := c.utf8Size_pos
  -- two units need four bytes, and one unit needs one to three
  rcases c.utf8Size_eq with h | h | h | h
  all_goals
    split
    all_goals omega

theorem length_utf16_le (s : List Char) : (utf16 s).length ≤ (utf8 s).length := by
  induction s with
  | nil => exact Nat.le_refl 0
  | cons c s ih =>
    have hc := (length_units_le c).1
    simp only [utf16, utf8, List.flatMap_cons, List.length_append,
      String.length_utf8EncodeChar] at ih ⊢
    omega

theorem length_utf16_eq_iff (s : List Char) :
    (utf16 s).length = (utf8 s).length ↔ ∀ c ∈ s, c.val < 0x80 := by
  induction s with
  | nil => simp [utf16, utf8]
  | cons c s ih =>
    -- no character has more units than bytes, so none can make up for another
    have hle := length_utf16_le s
    have hc := length_units_le c
    rw [List.forall_mem_cons, ← ih, ← hc.2]
    simp only [utf16, utf8, List.flatMap_cons, List.length_append,
      String.length_utf8EncodeChar] at hle ⊢
    omega

/-- A character of several bytes has the high bit in each. -/
theorem le_of_mem_utf8EncodeChar {c : Char} (hc : 0x7F < c.val.toNat) {b : UInt8}
    (h : b ∈ String.utf8EncodeChar c) : 128 ≤ b.toNat := by
  have hhigh : ∀ {n : Nat}, 128 ≤ n → n < 256 → 128 ≤ (UInt8.ofNat n).toNat := by
    intro n hlow hlt
    rwa [UInt8.toNat_ofNat', Nat.mod_eq_of_lt hlt]
  -- one case for each number of bytes; only the first has a byte below 128
  revert h
  fun_cases String.utf8EncodeChar c with
  | case1 v hv => exact absurd hv (Nat.not_le.mpr hc)
  | case2 v =>
    intro h
    simp only [List.mem_cons, List.not_mem_nil, or_false] at h
    rcases h with rfl | rfl
    all_goals exact hhigh (by omega) (by omega)
  | case3 v =>
    intro h
    simp only [List.mem_cons, List.not_mem_nil, or_false] at h
    rcases h with rfl | rfl | rfl
    all_goals exact hhigh (by omega) (by omega)
  | case4 v =>
    intro h
    simp only [List.mem_cons, List.not_mem_nil, or_false] at h
    rcases h with rfl | rfl | rfl | rfl
    all_goals exact hhigh (by omega) (by omega)

/-- An ASCII byte is a character by itself. -/
theorem eq_of_mem_utf8EncodeChar {c : Char} {b : UInt8} (hascii : b.toNat < 128)
    (h : b ∈ String.utf8EncodeChar c) : Char.ofUInt8 b = c := by
  by_cases hc : c.val.toNat ≤ 0x7F
  · have hone : c.utf8Size = 1 := c.utf8Size_eq_one_iff.mpr hc
    rw [String.utf8EncodeChar_eq_singleton hone] at h
    obtain rfl := List.mem_singleton.mp h
    apply Char.ext
    apply UInt32.toNat_inj.mp
    show c.val.toUInt8.toNat = c.val.toNat
    rw [UInt32.toNat_toUInt8]
    omega
  · exact absurd (le_of_mem_utf8EncodeChar (Nat.not_le.mp hc) h) (Nat.not_le.mpr hascii)

theorem mem_of_mem_utf8 {s : List Char} {b : UInt8} (hascii : b.toNat < 128) (h : b ∈ utf8 s) :
    Char.ofUInt8 b ∈ s := by
  obtain ⟨c, hc, hb⟩ := List.mem_flatMap.mp h
  rwa [eq_of_mem_utf8EncodeChar hascii hb]

end Unicode
