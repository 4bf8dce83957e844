import MeshChat.Wire.Request

/-! # Cutting fields out of a scratch array

    `field_tokenizer` always ends on a terminated array, and what it cuts off is no
    longer than the string that is left in front of the cut.
-/

namespace MeshChat

open CMemory

theorem strAt_total {arr : List UInt8} {p : Nat} (h : 0 ∈ arr.drop p) :
    ∃ s, strAt arr p = .ok s [] :=
  ⟨_, if_pos h⟩

theorem le_strlen_ofBytes {l : List UInt8} {j : Nat} (hl : 0 ∈ l) (hclear : ∀ i < j, l[i]? ≠ some 0) :
    j ≤ (CStr.ofBytes l).strlen := by
  induction l generalizing j with
  | nil => cases hl
  | cons b l ih =>
    cases j with
    | zero => exact Nat.zero_le _
    -- one byte more is no terminator, so the string goes on
    | succ j =>
      have hb : b ≠ 0 := by simpa using hclear 0 (by omega)
      have hl : 0 ∈ l := (List.mem_cons.mp hl).resolve_left (Ne.symm hb)
      have hrest : j ≤ (CStr.ofBytes l).strlen :=
        ih hl fun i hi => by simpa using hclear (i + 1) (by omega)
      simpa [CStr.ofBytes, CStr.strlen, hb] using hrest

/-- A string is at least as long as the run of bytes without terminator it starts
    with. -/
theorem le_strlen_strAt {arr : List UInt8} {p j : Nat} {s : CStr} {l : List Nat}
    (hs : strAt arr p = .ok s l) (hclear : ∀ i < j, arr[p + i]? ≠ some 0) : j ≤ s.strlen := by
  unfold strAt at hs
  split at hs
  · rename_i hmem
    cases hs
    refine le_strlen_ofBytes hmem fun i hi => ?_
    rw [List.getElem?_drop]
    exact hclear i hi
  · cases hs

/-- What is known of the array and the position behind a cut at `p`. The first `j`
    bytes from `p` on are a field without terminator. -/
structure Cut (arr : List UInt8) (p : Nat) (arr' : List UInt8) (p' j : Nat) : Prop where
  length : arr'.length = arr.length
  behind : p + j ≤ p'
  next : p' ≤ p + j + 1
  clear : ∀ i < j, arr[p + i]? ≠ some 0
  before : ∀ i < p + j, arr'[i]? = arr[i]?

/-- Cutting a field off a terminated scratch array always ends, and leaves every
    string in it terminated. -/
theorem fieldTokenizer_total (bound : Option Nat) {arr : List UInt8} {p : Nat}
    (hp : 0 ∈ arr.drop p) :
    ∃ arr' p', fieldTokenizer bound arr p p = .ok (arr', p') [] ∧ 0 ∈ arr'.drop p' ∧
      (∀ q, 0 ∈ arr.drop q → 0 ∈ arr'.drop q) ∧ ∃ j, Cut arr p arr' p' j := by
  rcases scanDelim_total bodyDelimiter bound (arr.drop p) 0 hp with hscan | ⟨j, hscan, hj, hclear⟩
  -- no delimiter: nothing is cut off
  · refine ⟨arr, p, by simp [fieldTokenizer, hscan], hp, fun q hq => hq, 0, ?_⟩
    exact ⟨rfl, by omega, by omega, by simp, fun _ _ => rfl⟩
  -- the delimiter becomes a terminator
  · refine ⟨arr.set (p + j) 0, p + j + 1, by simp [fieldTokenizer, hscan], ?_, ?_, j, ?_⟩
    · apply mem_drop_set_zero
      rwa [List.drop_drop, ← Nat.add_assoc] at hj
    · intro q hq
      exact mem_drop_set_zero hq _
    · refine ⟨List.length_set, by omega, le_rfl, ?_, ?_⟩
      · intro i hi
        have := hclear i hi
        rwa [List.getElem?_drop] at this
      · intro i hi
        exact List.getElem?_set_ne (by omega)

end MeshChat
