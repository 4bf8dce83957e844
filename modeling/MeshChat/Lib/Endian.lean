import Mathlib

/-! # Integers in little-endian bytes

    * `leBytes n w`: the `n` low bytes of `w`, the lowest first; what `memcpy` sees
      of an integer in memory.
    * `ofLe`: the integer that bytes stand for.
-/

namespace Endian

def leBytes : Nat → Nat → List UInt8
  | 0, _ => []
  | n + 1, w => UInt8.ofNat w :: leBytes n (w / 256)

def ofLe : List UInt8 → Nat
  | [] => 0
  | b :: l => b.toNat + 256 * ofLe l

@[simp] theorem leBytes_length (n w : Nat) : (leBytes n w).length = n := by
  induction n generalizing w with
  | zero => rfl
  | succ n ih => rw [leBytes, List.length_cons, ih]

theorem ofLe_leBytes (n w : Nat) : ofLe (leBytes n w) = w % 256 ^ n := by
  induction n generalizing w with
  | zero => simp [leBytes, ofLe, Nat.mod_one]
  | succ n ih =>
    have hlow : (UInt8.ofNat w).toNat = w % 256 := UInt8.toNat_ofNat'
    rw [leBytes, ofLe, ih, hlow, Nat.pow_succ', Nat.mod_mul]

theorem leBytes_inj {n w w' : Nat} (h : leBytes n w = leBytes n w') (hw : w < 256 ^ n)
    (hw' : w' < 256 ^ n) : w = w' := by
  have hmod := congrArg ofLe h
  rwa [ofLe_leBytes, ofLe_leBytes, Nat.mod_eq_of_lt hw, Nat.mod_eq_of_lt hw'] at hmod

/-- A wide integer is two narrow ones. -/
theorem leBytes_add (m n w : Nat) : leBytes (m + n) w = leBytes m w ++ leBytes n (w / 256 ^ m) := by
  induction m generalizing w with
  | zero => simp [leBytes]
  | succ m ih =>
    rw [Nat.add_right_comm, leBytes, ih, leBytes, List.cons_append, Nat.div_div_eq_div_mul,
      ← Nat.pow_succ']

end Endian
