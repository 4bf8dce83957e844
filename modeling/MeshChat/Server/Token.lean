import Mathlib.Logic.Equiv.Defs
import MeshChat.Lib.Endian
import MeshChat.Server.Handler

/-! # Tokens (`make_token`, `verify_token`)

    A token is two blocks, encrypted one by one: address and user, and the time at
    which it expires. Blowfish under the key of the server is any permutation of
    the blocks. Integers are as they lie in memory, the low byte first.

    * `token_lifetime`: a token never expires, so that the check of its age is right
      exactly up to `EXPIRY_TIME`.
    * `token_binding`: a token is good for one pair of address and user. The blocks
      of tokens can be put together to new ones, which are good for the pairs of
      the tokens, and for pairs that are read off an expiry time.
-/

namespace MeshChat

open CMemory Endian Prog

/-! ## Blocks -/

/-- What Blowfish encrypts at a time. -/
abbrev Block : Type := { l : List UInt8 // l.length = 8 }

/-- `EXPIRY_TIME`, 30 hours in seconds. -/
def expiryTime : Int64 := 108000

/-- Bytes 0 to 7 of a token. -/
def Token.first (token : Token) : Block :=
  ⟨token.bytes.take 8, by simp [token.len]⟩

/-- Bytes 8 to 15 of a token. -/
def Token.second (token : Token) : Block :=
  ⟨token.bytes.drop 8, by simp [token.len]⟩

/-- The token of two blocks. -/
def Token.ofBlocks (b₁ b₂ : Block) : Token :=
  ⟨b₁.1 ++ b₂.1, by simp [b₁.2, b₂.2]⟩

@[simp] theorem Token.first_ofBlocks (b₁ b₂ : Block) : (Token.ofBlocks b₁ b₂).first = b₁ :=
  Subtype.ext (List.take_left' b₁.2)

@[simp] theorem Token.second_ofBlocks (b₁ b₂ : Block) : (Token.ofBlocks b₁ b₂).second = b₂ :=
  Subtype.ext (List.drop_left' b₁.2)

/-- Address and user. -/
def identityBlock (addr userId : UInt32) : Block :=
  ⟨leBytes 4 addr.toNat ++ leBytes 4 userId.toNat, by simp⟩

/-- A time. -/
def timeBlock (t : Int64) : Block := ⟨leBytes 8 t.toUInt64.toNat, by simp⟩

/-! ## The two functions -/

section Cipher

variable (bf : Equiv.Perm Block)

/-- `make_token`, at time `now`. -/
def makeToken (now : Int64) (addr userId : UInt32) : Token :=
  .ofBlocks (bf (identityBlock addr userId)) (bf (timeBlock (now + expiryTime)))

/-- `verify_token`, at time `now`. -/
def verifyToken (now : Int64) (addr userId : UInt32) (token : Token) : Int :=
  let decrypt := (bf.symm token.first).1 ++ (bf.symm token.second).1
  if decrypt.take 4 ≠ leBytes 4 addr.toNat then -1
  else if (decrypt.drop 4).take 4 ≠ leBytes 4 userId.toNat then -1
  else
    let expiry := (UInt64.ofNat (ofLe (decrypt.drop 8))).toInt64
    if expiry - now > expiryTime then 0 else 1

variable {bf}

theorem Block.eq_identityBlock_iff {b : Block} {addr userId : UInt32} :
    b = identityBlock addr userId ↔
      b.1.take 4 = leBytes 4 addr.toNat ∧ b.1.drop 4 = leBytes 4 userId.toNat := by
  constructor
  · rintro rfl
    exact ⟨List.take_left' (leBytes_length ..), List.drop_left' (leBytes_length ..)⟩
  · rintro ⟨haddr, huser⟩
    refine Subtype.ext ?_
    calc b.1 = b.1.take 4 ++ b.1.drop 4 := (List.take_append_drop 4 b.1).symm
      _ = leBytes 4 addr.toNat ++ leBytes 4 userId.toNat := by rw [haddr, huser]

/-- The two blocks are looked at one by one. -/
theorem verifyToken_eq (now : Int64) (addr userId : UInt32) (token : Token) :
    verifyToken bf now addr userId token =
      if bf.symm token.first ≠ identityBlock addr userId then -1
      else if (UInt64.ofNat (ofLe (bf.symm token.second).1)).toInt64 - now > expiryTime then 0
      else 1 := by
  have hlen := (bf.symm token.first).2
  have haddr : ((bf.symm token.first).1 ++ (bf.symm token.second).1).take 4 =
      (bf.symm token.first).1.take 4 := List.take_append_of_le_length (by omega)
  have huser : (((bf.symm token.first).1 ++ (bf.symm token.second).1).drop 4).take 4 =
      (bf.symm token.first).1.drop 4 := by
    rw [List.drop_append_of_le_length (by omega), List.take_left' (by simp [hlen])]
  have htime : ((bf.symm token.first).1 ++ (bf.symm token.second).1).drop 8 =
      (bf.symm token.second).1 := List.drop_left' hlen
  unfold verifyToken
  simp only [haddr, huser, htime]
  -- the two comparisons of words are one of blocks
  by_cases hfirst : bf.symm token.first = identityBlock addr userId
  · obtain ⟨htake, hdrop⟩ := Block.eq_identityBlock_iff.mp hfirst
    rw [if_neg (not_not.mpr htake), if_neg (not_not.mpr hdrop), if_neg (not_not.mpr hfirst)]
  · rw [if_pos hfirst]
    by_cases htake : (bf.symm token.first).1.take 4 = leBytes 4 addr.toNat
    · have hdrop : (bf.symm token.first).1.drop 4 ≠ leBytes 4 userId.toNat :=
        fun h => hfirst (Block.eq_identityBlock_iff.mpr ⟨htake, h⟩)
      rw [if_neg (not_not.mpr htake), if_pos hdrop]
    · rw [if_pos htake]

/-- A token is taken to be that of address and user if its first block is. -/
theorem verifyToken_ne_neg_one {now : Int64} {addr userId : UInt32} {token : Token} :
    verifyToken bf now addr userId token ≠ -1 ↔
      bf.symm token.first = identityBlock addr userId := by
  rw [verifyToken_eq]
  by_cases hfirst : bf.symm token.first = identityBlock addr userId
  · rw [if_neg (not_not.mpr hfirst)]
    refine ⟨fun _ => hfirst, fun _ => ?_⟩
    split <;> decide
  · rw [if_pos hfirst]
    exact ⟨fun h => absurd rfl h, fun h => absurd h hfirst⟩

/-! ## Lifetime -/

theorem ofLe_timeBlock (t : Int64) : (UInt64.ofNat (ofLe (timeBlock t).1)).toInt64 = t := by
  have hlt : t.toUInt64.toNat < 256 ^ 8 := t.toUInt64.toNat_lt
  rw [timeBlock, ofLe_leBytes, Nat.mod_eq_of_lt hlt, UInt64.ofNat_toNat]
  exact Int64.toInt64_toUInt64 t

/-- The age of a token is compared the wrong way round: it is old if it was issued
    in the future. -/
theorem verifyToken_makeToken (now issued : Int64) (addr userId : UInt32) :
    verifyToken bf now addr userId (makeToken bf issued addr userId) =
      if issued + expiryTime - now > expiryTime then 0 else 1 := by
  rw [verifyToken_eq, makeToken, Token.first_ofBlocks, Token.second_ofBlocks,
    Equiv.symm_apply_apply, Equiv.symm_apply_apply, if_neg (not_not.mpr rfl), ofLe_timeBlock]

/-- Nothing wraps around for times since the epoch. -/
theorem remaining_toInt {issued now : Int64} (hissued : 0 ≤ issued) (hnow : issued ≤ now) :
    (issued + expiryTime - now).toInt = issued.toInt + 108000 - now.toInt := by
  have h₀ : 0 ≤ issued.toInt := Int64.le_iff_toInt_le.mp hissued
  have h₁ : issued.toInt ≤ now.toInt := Int64.le_iff_toInt_le.mp hnow
  have h₂ : now.toInt < 2 ^ 63 := now.toInt_lt
  have hexpiry : expiryTime.toInt = 108000 := rfl
  rw [Int64.toInt_sub, Int64.toInt_add, hexpiry, Int.bmod_sub_bmod]
  exact Int.bmod_eq_of_le (by omega) (by omega)

/-- A token passes at any time from its issue on. -/
theorem verifyToken_issued {addr userId : UInt32} {issued now : Int64} (hissued : 0 ≤ issued)
    (hnow : issued ≤ now) :
    verifyToken bf now addr userId (makeToken bf issued addr userId) = 1 := by
  rw [verifyToken_makeToken, if_neg]
  -- what is left of the lifetime never exceeds the whole of it
  intro hold
  have hexpiry : expiryTime.toInt = 108000 := rfl
  have hage : issued.toInt ≤ now.toInt := Int64.le_iff_toInt_le.mp hnow
  have hlt := Int64.lt_iff_toInt_lt.mp hold
  rw [remaining_toInt hissued hnow, hexpiry] at hlt
  omega

/-- That it passes up to `EXPIRY_TIME` later and no longer is right for exactly that
    time. -/
theorem token_lifetime (bf : Equiv.Perm Block) (addr userId : UInt32) {issued now : Int64}
    (hissued : 0 ≤ issued) (hnow : issued ≤ now) :
    (verifyToken bf now addr userId (makeToken bf issued addr userId) = 1 ↔
      now.toInt ≤ issued.toInt + expiryTime.toInt) ↔
    now.toInt ≤ issued.toInt + expiryTime.toInt := by
  rw [verifyToken_issued hissued hnow]
  exact ⟨fun h => h.mp rfl, fun h => ⟨fun _ => h, fun _ => rfl⟩⟩

/-- An hour after its issue. -/
theorem token_lifetime_hour :
    (0 : Int64) ≤ 1700000000 ∧ (1700000000 : Int64) ≤ 1700003600 ∧
      ∀ bf : Equiv.Perm Block,
        (verifyToken bf 1700003600 0x0100007F 7 (makeToken bf 1700000000 0x0100007F 7) = 1 ↔
          (1700003600 : Int64).toInt ≤ (1700000000 : Int64).toInt + expiryTime.toInt) ↔
        (1700003600 : Int64).toInt ≤ (1700000000 : Int64).toInt + expiryTime.toInt :=
  ⟨by decide, by decide, fun bf => token_lifetime bf _ _ (by decide) (by decide)⟩

/-- A token passes a second after its 30 hours. -/
theorem expired_token_passes :
    ¬ (1700108001 : Int64).toInt ≤ (1700000000 : Int64).toInt + expiryTime.toInt ∧
      ∀ bf : Equiv.Perm Block,
        verifyToken bf 1700108001 0x0100007F 7 (makeToken bf 1700000000 0x0100007F 7) = 1 := by
  refine ⟨by decide, fun bf => ?_⟩
  rw [verifyToken_makeToken]
  rfl

/-- The environment of a request from a client at `addr`, at time `now`. -/
def Env.atTime (env : Env) (bf : Equiv.Perm Block) (now : Int64) (addr : UInt32)
    (header : RequestHeader) : Env :=
  { env with
    verified := decide (∃ h : header.token.length = tokenLen,
      0 < verifyToken bf now addr header.userId ⟨header.token, h⟩)
    makeToken := MeshChat.makeToken bf now addr }

/-! ## Identity -/

theorem identityBlock_inj {addr addr' userId userId' : UInt32}
    (h : identityBlock addr userId = identityBlock addr' userId') :
    addr = addr' ∧ userId = userId' := by
  obtain ⟨haddr, huser⟩ := Block.eq_identityBlock_iff.mp h
  obtain ⟨haddr', huser'⟩ := Block.eq_identityBlock_iff.mp (rfl : identityBlock addr userId = _)
  have hword : ∀ w w' : UInt32, leBytes 4 w.toNat = leBytes 4 w'.toNat → w = w' :=
    fun w w' hw => UInt32.toNat_inj.mp (leBytes_inj hw w.toNat_lt w'.toNat_lt)
  exact ⟨hword _ _ (haddr'.symm.trans haddr), hword _ _ (huser'.symm.trans huser)⟩

/-- A time as it is read for an address and a user: its low and its high word. -/
theorem timeBlock_eq_identityBlock {t : Int64} {addr userId : UInt32}
    (h : timeBlock t = identityBlock addr userId) :
    addr.toNat = t.toUInt64.toNat % 2 ^ 32 ∧ userId.toNat = t.toUInt64.toNat / 2 ^ 32 := by
  have hsplit : (timeBlock t).1 =
      leBytes 4 t.toUInt64.toNat ++ leBytes 4 (t.toUInt64.toNat / 256 ^ 4) :=
    leBytes_add 4 4 t.toUInt64.toNat
  obtain ⟨haddr, huser⟩ := Block.eq_identityBlock_iff.mp h
  rw [hsplit, List.take_left' (leBytes_length ..)] at haddr
  rw [hsplit, List.drop_left' (leBytes_length ..)] at huser
  -- the words of the block, the low one first
  have hhigh : t.toUInt64.toNat / 256 ^ 4 < 256 ^ 4 := by
    have hlt : t.toUInt64.toNat < 2 ^ 64 := t.toUInt64.toNat_lt
    omega
  refine ⟨?_, (leBytes_inj huser hhigh userId.toNat_lt).symm⟩
  have hlow := congrArg ofLe haddr
  rw [ofLe_leBytes, ofLe_leBytes] at hlow
  exact (hlow.trans (Nat.mod_eq_of_lt addr.toNat_lt)).symm

/-- A call of `make_token`. -/
structure Issue where
  time : Int64
  addr : UInt32
  userId : UInt32
  deriving DecidableEq

def Issue.token (bf : Equiv.Perm Block) (i : Issue) : Token := makeToken bf i.time i.addr i.userId

/-- Both blocks are blocks of issued tokens. -/
def AssembledFrom (bf : Equiv.Perm Block) (issued : Set Issue) (token : Token) : Prop :=
  (∃ i ∈ issued, token.first = (i.token bf).first ∨ token.first = (i.token bf).second) ∧
    ∃ i ∈ issued, token.second = (i.token bf).first ∨ token.second = (i.token bf).second

/-- No other pair passes with the blocks of issued tokens. -/
def BindsBlocks (bf : Equiv.Perm Block) (issued : Set Issue) : Prop :=
  ∀ token, AssembledFrom bf issued token → ∀ now addr userId,
    verifyToken bf now addr userId token ≠ -1 →
    ∃ i ∈ issued, i.addr = addr ∧ i.userId = userId

/-- A string of 16 bytes is good for at most one pair, a token for its own, and a
    string of blocks of tokens for the pair of one of them, unless it starts with
    the time of one: then that is read as the pair. -/
theorem token_binding (bf : Equiv.Perm Block) :
    (∀ token now now' addr addr' userId userId', verifyToken bf now addr userId token ≠ -1 →
      verifyToken bf now' addr' userId' token ≠ -1 → addr = addr' ∧ userId = userId') ∧
    (∀ (i : Issue) now, verifyToken bf now i.addr i.userId (i.token bf) ≠ -1) ∧
    ∀ (issued : Set Issue) token, AssembledFrom bf issued token → ∀ now addr userId,
      verifyToken bf now addr userId token ≠ -1 →
      (∃ i ∈ issued, i.addr = addr ∧ i.userId = userId) ∨
      ∃ i ∈ issued, token.first = (i.token bf).second ∧
        addr.toNat = (i.time + expiryTime).toUInt64.toNat % 2 ^ 32 ∧
        userId.toNat = (i.time + expiryTime).toUInt64.toNat / 2 ^ 32 := by
  refine ⟨?_, ?_, ?_⟩
  · intro token now now' addr addr' userId userId' h h'
    rw [verifyToken_ne_neg_one] at h h'
    exact identityBlock_inj (h.symm.trans h')
  · intro i now
    rw [verifyToken_ne_neg_one, Issue.token, makeToken, Token.first_ofBlocks,
      Equiv.symm_apply_apply]
  · rintro issued token ⟨⟨i, hi, hfirst⟩, -⟩ now addr userId h
    rw [verifyToken_ne_neg_one] at h
    rcases hfirst with hfirst | hfirst
    -- the first block names the pair it was made for
    · rw [hfirst, Issue.token, makeToken, Token.first_ofBlocks, Equiv.symm_apply_apply] at h
      exact Or.inl ⟨i, hi, identityBlock_inj h⟩
    -- a second block in its place is read as one
    · refine Or.inr ⟨i, hi, hfirst, ?_⟩
      rw [hfirst, Issue.token, makeToken, Token.second_ofBlocks, Equiv.symm_apply_apply] at h
      exact timeBlock_eq_identityBlock h

end Cipher

/-- A token of user 7. -/
def issueOfSeven : Issue where
  time := 1700000000
  addr := 0x0100007F
  userId := 7

/-- Its second block twice passes for user 0 at the address 1700108000. -/
theorem time_passes_as_identity :
    (∀ bf : Equiv.Perm Block, verifyToken bf 1700000000 1700108000 0
      (.ofBlocks (issueOfSeven.token bf).second (issueOfSeven.token bf).second) = 1) ∧
    ∀ bf : Equiv.Perm Block, ¬ BindsBlocks bf { issueOfSeven } := by
  have hpass : ∀ bf : Equiv.Perm Block, verifyToken bf 1700000000 1700108000 0
      (.ofBlocks (issueOfSeven.token bf).second (issueOfSeven.token bf).second) = 1 := by
    intro bf
    rw [verifyToken_eq, Token.first_ofBlocks, Token.second_ofBlocks, Issue.token, makeToken,
      Token.second_ofBlocks, Equiv.symm_apply_apply, ofLe_timeBlock]
    decide
  refine ⟨hpass, fun bf hbinds => ?_⟩
  -- no token was issued for that address
  obtain ⟨i, hi, haddr, -⟩ := hbinds
    (.ofBlocks (issueOfSeven.token bf).second (issueOfSeven.token bf).second)
    ⟨⟨_, rfl, Or.inr (Token.first_ofBlocks ..)⟩, _, rfl, Or.inr (Token.second_ofBlocks ..)⟩
    1700000000 1700108000 0 (by rw [hpass bf]; decide)
  obtain rfl : i = issueOfSeven := hi
  cases haddr

end MeshChat
