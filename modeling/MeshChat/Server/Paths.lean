import Mathlib.Data.Set.Function
import MeshChat.Db.SqlText
import MeshChat.Server.Handler

/-! # The names of uploaded files

    `process_fname` makes the name of a file on the server of the name that the client
    gives: the hash of its stem and of the time, and what stands from the last dot on.

    * `hexText`: a digest as it is printed.
    * `cutAt`, `hashedText`, `keptSuffix`: the parts of a name; `processFname_some` and
      `storagePath_some` say what the two functions make of them.
    * `storagePath_contained`: the path stays below the directory.
    * `fnames_apart_iff`: when two names lead to two paths.
-/

namespace MeshChat

open CMemory SqlLex Prog

/-! ## Digests as text -/

/-- The digest in hexadecimal. -/
def hexText (digest : Vector UInt8 16) : List UInt8 :=
  digest.toList.flatMap fun b => [hexDigit (b / 16), hexDigit (b % 16)]

theorem hexDigit_toNat {n : UInt8} (h : n.toNat < 16) :
    (hexDigit n).toNat = if n.toNat < 10 then 48 + n.toNat else 87 + n.toNat := by
  have h10 : n < 10 ↔ n.toNat < 10 := UInt8.lt_iff_toNat_lt
  unfold hexDigit
  by_cases hlt : n.toNat < 10
  · rw [if_pos (h10.mpr hlt), if_pos hlt, UInt8.toNat_add]
    exact Nat.mod_eq_of_lt (by simp; omega)
  · rw [if_neg (mt h10.mp hlt), if_neg hlt, UInt8.toNat_add]
    exact Nat.mod_eq_of_lt (by simp; omega)

theorem hexDigit_inj {n m : UInt8} (hn : n.toNat < 16) (hm : m.toNat < 16)
    (h : hexDigit n = hexDigit m) : n.toNat = m.toNat := by
  have hnat := congrArg UInt8.toNat h
  rw [hexDigit_toNat hn, hexDigit_toNat hm] at hnat
  -- a number below ten is between 48 and 57, any other between 97 and 102
  split at hnat <;> split at hnat <;> omega

theorem high_lt (b : UInt8) : (b / 16).toNat < 16 := by
  have := b.toNat_lt
  rw [UInt8.toNat_div]
  simp
  omega

theorem low_lt (b : UInt8) : (b % 16).toNat < 16 := by
  rw [UInt8.toNat_mod]
  simp
  omega

theorem hexDigits_inj {l m : List UInt8}
    (h : (l.flatMap fun b => [hexDigit (b / 16), hexDigit (b % 16)]) =
      m.flatMap fun b => [hexDigit (b / 16), hexDigit (b % 16)]) : l = m := by
  induction l generalizing m with
  | nil =>
    cases m with
    | nil => rfl
    | cons b m => simp at h
  | cons a l ih =>
    cases m with
    | nil => simp at h
    | cons b m =>
      simp only [List.flatMap_cons, List.cons_append, List.nil_append, List.cons.injEq] at h
      obtain ⟨hhigh, hlow, hrest⟩ := h
      -- the two digits are quotient and remainder of the byte
      have hdiv := hexDigit_inj (high_lt a) (high_lt b) hhigh
      have hmod := hexDigit_inj (low_lt a) (low_lt b) hlow
      have hsixteen : (16 : UInt8).toNat = 16 := rfl
      rw [UInt8.toNat_div, UInt8.toNat_div, hsixteen] at hdiv
      rw [UInt8.toNat_mod, UInt8.toNat_mod, hsixteen] at hmod
      have hab : a = b := UInt8.toNat_inj.mp (by omega)
      rw [hab, ih hrest]

/-- `0` to `9` and `a` to `f`. -/
def IsHexDigit (b : UInt8) : Prop := 48 ≤ b.toNat ∧ b.toNat ≤ 57 ∨ 97 ≤ b.toNat ∧ b.toNat ≤ 102

theorem isHexDigit_hexDigit {n : UInt8} (h : n.toNat < 16) : IsHexDigit (hexDigit n) := by
  rw [IsHexDigit, hexDigit_toNat h]
  split <;> omega

theorem isHexDigit_of_mem_hexText {digest : Vector UInt8 16} {b : UInt8}
    (hb : b ∈ hexText digest) : IsHexDigit b := by
  obtain ⟨a, -, ha⟩ := List.mem_flatMap.mp hb
  simp only [List.mem_cons, List.not_mem_nil, or_false] at ha
  rcases ha with rfl | rfl
  · exact isHexDigit_hexDigit (high_lt a)
  · exact isHexDigit_hexDigit (low_lt a)

/-- A byte that is no digit is not in a digest. -/
theorem not_mem_hexText {b : UInt8} (hb : ¬ IsHexDigit b) (digest : Vector UInt8 16) :
    b ∉ hexText digest :=
  fun hmem => hb (isHexDigit_of_mem_hexText hmem)

theorem nul_not_mem_hexText (digest : Vector UInt8 16) : 0 ∉ hexText digest :=
  not_mem_hexText (by unfold IsHexDigit; decide) digest

theorem hexText_length (digest : Vector UInt8 16) : (hexText digest).length = 32 := by
  rw [hexText, List.length_flatMap]
  simp

/-- Different digests have different texts. -/
theorem hexText_inj {d d' : Vector UInt8 16}
    (h : CStr.ofBytes (hexText d) = CStr.ofBytes (hexText d')) : d = d' := by
  have hbytes : ∀ d, (CStr.ofBytes (hexText d)).bytes = hexText d := fun d =>
    congrArg CStr.bytes (CStr.ofBytes_bytes ⟨hexText d, nul_not_mem_hexText d⟩)
  have htext : hexText d = hexText d' := by
    rw [← hbytes d, h, hbytes d']
  exact Vector.toList_inj.mp (hexDigits_inj htext)

theorem hashStr_bytes {env : Env} {str hash : CStr} (h : hashStr env str = some hash) :
    ∃ digest, env.md5 str = some digest ∧ hash.bytes = hexText digest := by
  obtain ⟨digest, hdigest, rfl⟩ := Option.map_eq_some_iff.mp h
  exact ⟨digest, hdigest, CStr.ofBytes_of_nulFree (nul_not_mem_hexText digest)⟩

theorem hashStr_strlen {env : Env} {str hash : CStr} (h : hashStr env str = some hash) :
    hash.strlen = 32 := by
  obtain ⟨digest, -, hbytes⟩ := hashStr_bytes h
  rw [CStr.strlen, hbytes, hexText_length]

theorem quoteFree_hashStr {env : Env} {str hash : CStr} (h : hashStr env str = some hash) :
    quote ∉ hash.bytes := by
  obtain ⟨digest, -, hbytes⟩ := hashStr_bytes h
  rw [hbytes]
  exact not_mem_hexText (by unfold IsHexDigit; decide) digest

/-! ## The parts of a name -/

theorem lastDot_append (stem : List UInt8) {rest : List UInt8} (hrest : 46 ∉ rest) :
    lastDot (stem ++ 46 :: rest) = some stem.length := by
  -- the scan goes backwards, so it looks at what stands behind the dot first
  have hnone : rest.reverse.findIdx? (fun b => decide (b = 46)) = none := by
    rw [List.findIdx?_eq_none_iff]
    rintro b hb
    rw [decide_eq_false_iff_not]
    rintro rfl
    exact hrest (List.mem_reverse.mp hb)
  rw [lastDot, List.reverse_append, List.reverse_cons, List.append_assoc, List.findIdx?_append,
    hnone]
  simp [List.findIdx?_cons]

theorem lastDot_of_not_mem {name : List UInt8} (h : 46 ∉ name) : lastDot name = none := by
  rw [lastDot, Option.map_eq_none_iff, List.findIdx?_eq_none_iff]
  rintro b hb
  rw [decide_eq_false_iff_not]
  rintro rfl
  exact h (List.mem_reverse.mp hb)

/-- A name has a last dot, or none. -/
theorem last_dot_cases (name : List UInt8) :
    46 ∉ name ∨ ∃ stem rest, name = stem ++ 46 :: rest ∧ 46 ∉ rest := by
  by_cases h : 46 ∈ name
  · -- the first dot of the reversed name
    obtain ⟨front, back, heq, hfront⟩ := List.eq_append_cons_of_mem (List.mem_reverse.mpr h)
    refine Or.inr ⟨back.reverse, front.reverse, ?_, by simpa using hfront⟩
    rw [← List.reverse_reverse name, heq]
    simp
  · exact Or.inl h

/-- Where the name is cut: at its last dot, or at its begin if there is none. -/
def cutAt (fname : CStr) : Nat := (lastDot fname.bytes).getD 0

/-- The text that is hashed. -/
def hashedText (env : Env) (fname : CStr) : List UInt8 :=
  fname.bytes.take (cutAt fname) ++ (decimal env.fnameTime).take 19

/-- What is kept of the name. -/
def keptSuffix (fname : CStr) : List UInt8 :=
  if cutAt fname = 0 then [] else fname.bytes.drop (cutAt fname)

/-- A name that is cut behind its begin is cut at its last dot. -/
theorem parts_of_cutAt_pos {fname : CStr} (h : 0 < cutAt fname) :
    ∃ rest, fname.bytes = fname.bytes.take (cutAt fname) ++ 46 :: rest ∧ 46 ∉ rest ∧
      keptSuffix fname = 46 :: rest := by
  rcases last_dot_cases fname.bytes with hnone | ⟨stem, rest, heq, hrest⟩
  · rw [cutAt, lastDot_of_not_mem hnone] at h
    exact absurd h (by simp)
  · have hcut : cutAt fname = stem.length := by
      rw [cutAt, heq, lastDot_append stem hrest, Option.getD_some]
    refine ⟨rest, ?_, hrest, ?_⟩
    · rw [hcut, heq, List.take_left]
    · rw [keptSuffix, if_neg (by omega), hcut, heq, List.drop_left]

theorem keptSuffix_of_cutAt_eq {fname : CStr} (h : cutAt fname = 0) : keptSuffix fname = [] :=
  if_pos h

/-- What is kept is nothing or begins with the only dot in it. -/
theorem keptSuffix_cases (fname : CStr) :
    keptSuffix fname = [] ∨ ∃ rest, keptSuffix fname = 46 :: rest ∧ 46 ∉ rest := by
  -- a dot at index 0 counts as none
  rcases Nat.eq_zero_or_pos (cutAt fname) with hzero | hpos
  · exact Or.inl (keptSuffix_of_cutAt_eq hzero)
  · obtain ⟨rest, -, hrest, hkept⟩ := parts_of_cutAt_pos hpos
    exact Or.inr ⟨rest, hkept, hrest⟩

theorem mem_of_mem_keptSuffix {fname : CStr} {b : UInt8} (h : b ∈ keptSuffix fname) :
    b ∈ fname.bytes := by
  unfold keptSuffix at h
  split at h
  · cases h
  · exact List.mem_of_mem_drop h

theorem nul_not_mem_hashedText (env : Env) (fname : CStr) : 0 ∉ hashedText env fname := by
  rw [hashedText, List.mem_append]
  rintro (hmem | hmem)
  · exact fname.nulFree (List.mem_of_mem_take hmem)
  · rcases mem_decimal (List.mem_of_mem_take hmem) with h | h
    · cases h
    · simp at h

theorem nul_not_mem_stored (digest : Vector UInt8 16) (fname : CStr) :
    0 ∉ hexText digest ++ keptSuffix fname :=
  List.not_mem_append (nul_not_mem_hexText digest)
    fun hmem => fname.nulFree (mem_of_mem_keptSuffix hmem)

/-! ## What the two functions make of the parts -/

/-- `process_fname`, when its arrays are long enough and the hash is finished. -/
theorem processFname_eq_some_iff {env : Env} {fname name : CStr} :
    processFname env fname = some name ↔
      fname.strlen < 1024 ∧ (hashedText env fname).length < 1024 ∧
        ∃ digest, env.md5 (.ofBytes (hashedText env fname)) = some digest ∧
          name = .ofBytes (hexText digest ++ keptSuffix fname) := by
  -- the model with the names of its parts
  have hdef : processFname env fname =
      if 1024 ≤ fname.strlen ∨ 1024 ≤ (hashedText env fname).length then none
      else (hashStr env (.ofBytes (hashedText env fname))).map fun hash =>
        .ofBytes (hash.bytes ++ keptSuffix fname) := rfl
  have hbytes : ∀ digest, (CStr.ofBytes (hexText digest)).bytes = hexText digest := fun digest =>
    CStr.ofBytes_of_nulFree (nul_not_mem_hexText digest)
  rw [hdef]
  split
  · rename_i hlong
    constructor
    · rintro ⟨⟩
    · rintro ⟨hfname, htext, -⟩
      omega
  · rename_i hshort
    rw [hashStr, Option.map_map, Option.map_eq_some_iff]
    constructor
    · rintro ⟨digest, hdigest, rfl⟩
      refine ⟨by omega, by omega, digest, hdigest, ?_⟩
      rw [Function.comp_apply, ← hexText, hbytes]
    · rintro ⟨-, -, digest, hdigest, rfl⟩
      refine ⟨digest, hdigest, ?_⟩
      rw [Function.comp_apply, ← hexText, hbytes]

/-- The bytes of a stored name. -/
theorem processFname_bytes {env : Env} {fname name : CStr}
    (h : processFname env fname = some name) :
    ∃ digest, env.md5 (.ofBytes (hashedText env fname)) = some digest ∧
      name.bytes = hexText digest ++ keptSuffix fname := by
  obtain ⟨-, -, digest, hdigest, rfl⟩ := processFname_eq_some_iff.mp h
  exact ⟨digest, hdigest, CStr.ofBytes_of_nulFree (nul_not_mem_stored digest fname)⟩

theorem storagePath_eq_some_iff {env : Env} {fname path : CStr} :
    storagePath env fname = some path ↔
      ∃ name, processFname env fname = some name ∧ storage.length + name.strlen < 1024 ∧
        path.bytes = storage ++ name.bytes := by
  -- `snprintf` copies up to the terminator, and neither part has one inside
  have hfree : ∀ name : CStr, 0 ∉ storage ++ name.bytes := fun name =>
    List.not_mem_append (by decide) name.nulFree
  unfold storagePath
  cases hname : processFname env fname with
  | none => simp
  | some name =>
    dsimp only
    constructor
    · intro h
      split at h
      · cases h
      · rename_i hroom
        cases h
        exact ⟨name, rfl, by omega, CStr.ofBytes_of_nulFree (hfree name)⟩
    · rintro ⟨_, ⟨⟩, hroom, hbytes⟩
      rw [if_neg (by omega), ← hbytes, CStr.ofBytes_bytes]

/-- The bytes of a path. -/
theorem storagePath_bytes {env : Env} {fname path : CStr}
    (h : storagePath env fname = some path) :
    ∃ digest, env.md5 (.ofBytes (hashedText env fname)) = some digest ∧
      path.bytes = storage ++ (hexText digest ++ keptSuffix fname) := by
  obtain ⟨name, hname, -, hpath⟩ := storagePath_eq_some_iff.mp h
  obtain ⟨digest, hdigest, hbytes⟩ := processFname_bytes hname
  exact ⟨digest, hdigest, by rw [hpath, hbytes]⟩

/-- Only what is kept of the name can bring a quote into the path. -/
theorem quoteFree_of_keptSuffix {env : Env} {fname path : CStr} (hkept : quote ∉ keptSuffix fname)
    (h : storagePath env fname = some path) : quote ∉ path.bytes := by
  obtain ⟨digest, -, hbytes⟩ := storagePath_bytes h
  rw [hbytes]
  refine List.not_mem_append (by decide) (List.not_mem_append ?_ hkept)
  exact not_mem_hexText (by unfold IsHexDigit; decide) digest

theorem quoteFree_storagePath {env : Env} {fname path : CStr} (hname : quote ∉ fname.bytes)
    (h : storagePath env fname = some path) : quote ∉ path.bytes :=
  quoteFree_of_keptSuffix (fun hmem => hname (mem_of_mem_keptSuffix hmem)) h

/-- The length of the path that `handle_msg_send` makes of a file name: the directory, 32
    digits, and what stands from the last dot on. -/
def pathLength (fname : CStr) : Nat :=
  let i := (lastDot fname.bytes).getD 0
  storage.length + 32 + if i = 0 then 0 else fname.strlen - i

theorem pathLength_eq (fname : CStr) :
    pathLength fname = storage.length + 32 + (keptSuffix fname).length := by
  unfold pathLength keptSuffix cutAt
  dsimp only
  split
  · rfl
  · rw [List.length_drop, CStr.strlen]

theorem storagePath_strlen {env : Env} {fname path : CStr}
    (h : storagePath env fname = some path) : path.strlen = pathLength fname := by
  obtain ⟨digest, -, hbytes⟩ := storagePath_bytes h
  rw [CStr.strlen, hbytes, pathLength_eq, List.length_append, List.length_append, hexText_length]
  omega

/-- The path of a file is short enough for its own buffer. -/
theorem storagePath_lt {env : Env} {fname path : CStr} (h : storagePath env fname = some path) :
    path.strlen < 1024 := by
  obtain ⟨name, -, hroom, hbytes⟩ := storagePath_eq_some_iff.mp h
  rw [CStr.strlen, hbytes, List.length_append]
  exact hroom

/-- A name that fits the arrays has a path. -/
theorem exists_storagePath {env : Env} {fname : CStr}
    (hmd5 : (env.md5 (.ofBytes (hashedText env fname))).isSome)
    (hname : fname.strlen < 1024) (htext : (hashedText env fname).length < 1024)
    (hlength : pathLength fname < 1024) : ∃ path, storagePath env fname = some path := by
  obtain ⟨digest, hdigest⟩ := Option.isSome_iff_exists.mp hmd5
  have hprocess := processFname_eq_some_iff.mpr ⟨hname, htext, digest, hdigest, rfl⟩
  obtain ⟨digest', hdigest', hbytes⟩ := processFname_bytes hprocess
  refine ⟨⟨storage ++ (CStr.ofBytes (hexText digest ++ keptSuffix fname)).bytes, ?_⟩,
    storagePath_eq_some_iff.mpr ⟨_, hprocess, ?_, rfl⟩⟩
  · exact List.not_mem_append (by decide) (CStr.nulFree _)
  · rw [CStr.strlen, hbytes, List.length_append, hexText_length]
    rw [pathLength_eq] at hlength
    omega

/-! ## Where a path leads -/

/-- The parts of a path between its slashes. -/
def components (path : CStr) : List (List UInt8) := path.bytes.splitOn 47

/-- One component of a path, followed from a directory below the working directory. -/
def enter (dir : List (List UInt8)) (component : List UInt8) : List (List UInt8) :=
  if component = [] ∨ component = [46] then dir
  else if component = [46, 46] then dir.dropLast
  else dir ++ [component]

/-- Where a path leads, from the working directory of the server. -/
def resolve (path : CStr) : List (List UInt8) := (components path).foldl enter []

/-- A component has no more of any byte than the path. -/
theorem count_le_of_mem_splitOn {l c : List UInt8} {sep : UInt8} (b : UInt8)
    (h : c ∈ l.splitOn sep) : c.count b ≤ l.count b := by
  -- splitting puts each byte into one component, or drops it where it separates two
  induction l generalizing c with
  | nil =>
    rw [List.splitOn_nil, List.mem_singleton] at h
    rw [h]
  | cons a l ih =>
    rw [List.splitOn_cons_eq_if_modifyHead] at h
    have hgrow : l.count b ≤ (a :: l).count b := List.count_le_count_cons
    split at h
    · rcases List.mem_cons.mp h with rfl | h
      · exact Nat.zero_le _
      · exact (ih h).trans hgrow
    · -- only the first component gets the byte
      cases hsplit : l.splitOn sep with
      | nil => exact absurd hsplit (List.splitOn_ne_nil _ _)
      | cons first others =>
        rw [hsplit] at ih h
        rcases List.mem_cons.mp h with rfl | h
        · have := ih List.mem_cons_self
          rw [List.count_cons, List.count_cons]
          omega
        · exact (ih (List.mem_cons_of_mem _ h)).trans hgrow

/-- Without `..` a path leads only further down. -/
theorem prefix_foldl_enter {cs : List (List UInt8)} (hup : [46, 46] ∉ cs)
    (dir : List (List UInt8)) : dir <+: cs.foldl enter dir := by
  -- a component other than `..` adds a directory or none
  induction cs generalizing dir with
  | nil => exact List.prefix_refl dir
  | cons c cs ih =>
    rw [List.mem_cons, not_or] at hup
    refine List.IsPrefix.trans ?_ (ih hup.2 (enter dir c))
    unfold enter
    rw [if_neg (Ne.symm hup.1)]
    split
    · exact List.prefix_refl dir
    · exact List.prefix_append dir [c]

theorem components_storage {path : CStr} {name : List UInt8}
    (h : path.bytes = storage ++ name) :
    components path = [46] :: ascii "storage" :: name.splitOn 47 := by
  have hstorage : storage ++ name = [46] ++ 47 :: (ascii "storage" ++ 47 :: name) := rfl
  rw [components, h, hstorage, List.splitOn_append_cons_self_of_not_mem (by decide),
    List.splitOn_append_cons_self_of_not_mem (by decide)]

/-- A stored name has at most one dot. -/
theorem count_dot_le (digest : Vector UInt8 16) (fname : CStr) :
    (hexText digest ++ keptSuffix fname).count 46 ≤ 1 := by
  have hhex : (hexText digest).count 46 = 0 :=
    List.count_eq_zero.mpr (not_mem_hexText (by unfold IsHexDigit; decide) digest)
  rw [List.count_append, hhex, Nat.zero_add]
  rcases keptSuffix_cases fname with h | ⟨rest, h, hrest⟩
  · rw [h, List.count_nil]
    exact Nat.zero_le 1
  · rw [h, List.count_cons_self, List.count_eq_zero.mpr hrest]

/-- **Uploaded files stay in the directory.** For every name that fits the local arrays, the
    path is the directory, 32 hexadecimal digits and a suffix that is empty or begins with its
    only dot; no component is `..`, and the path leads to a place below the directory. -/
theorem storagePath_contained {env : Env} {fname : CStr}
    (hmd5 : (env.md5 (.ofBytes (hashedText env fname))).isSome)
    (hname : fname.strlen < 1024) (htext : (hashedText env fname).length < 1024)
    (hlength : pathLength fname < 1024) :
    ∃ path digits suffix, storagePath env fname = some path ∧
      path.bytes = ascii "./storage/" ++ (digits ++ suffix) ∧
      digits.length = 32 ∧ (∀ b ∈ digits, IsHexDigit b) ∧
      (suffix = [] ∨ ∃ rest, suffix = 46 :: rest ∧ 46 ∉ rest) ∧
      [46, 46] ∉ components path ∧ [ascii "storage"] <+: resolve path := by
  obtain ⟨path, hpath⟩ := exists_storagePath hmd5 hname htext hlength
  obtain ⟨digest, -, hbytes⟩ := storagePath_bytes hpath
  have hcomponents := components_storage hbytes
  -- a component `..` would have two dots, and all of the name has one
  have hup : [46, 46] ∉ (hexText digest ++ keptSuffix fname).splitOn 47 := by
    intro hmem
    have htwo : List.count 46 [46, 46] ≤ 1 :=
      (count_le_of_mem_splitOn 46 hmem).trans (count_dot_le digest fname)
    exact absurd htwo (by decide)
  refine ⟨path, hexText digest, keptSuffix fname, hpath, hbytes, hexText_length digest,
    fun b hb => isHexDigit_of_mem_hexText hb, keptSuffix_cases fname, ?_, ?_⟩
  · rw [hcomponents, List.mem_cons, List.mem_cons]
    rintro (h | h | h)
    · exact absurd h (by decide)
    · exact absurd h (by decide)
    · exact hup h
  · rw [resolve, hcomponents]
    exact prefix_foldl_enter hup [ascii "storage"]

/-- The digests of some texts that are hashed in one second. -/
def uploadDigests : List (CStr × Vector UInt8 16) :=
  [(.ofBytes (ascii "1700000000"),
    #v[0x24, 0x92, 0x0d, 0xec, 0xf8, 0x3f, 0x69, 0x60, 0xb8, 0x0f, 0x73, 0x7a, 0x28, 0xee, 0xaf, 0xc1]),
   (.ofBytes (ascii "a1700000000"),
    #v[0xc1, 0x8a, 0xcb, 0x11, 0xf3, 0xe5, 0x0a, 0xe8, 0x23, 0x21, 0xac, 0xa3, 0xf1, 0x89, 0x6b, 0x35]),
   (.ofBytes (ascii "b1700000000"),
    #v[0xf4, 0x4f, 0xdd, 0xca, 0x38, 0x7f, 0xa6, 0xbf, 0x1b, 0xdd, 0x19, 0xde, 0x68, 0x07, 0xcb, 0x29]),
   (.ofBytes (ascii "../up.d/.1700000000"),
    #v[0x7f, 0xba, 0x45, 0x5f, 0xa6, 0xef, 0xfa, 0x48, 0xa1, 0xa5, 0x65, 0xbc, 0xc3, 0x9f, 0xdf, 0x22])]

def uploadEnv : Env where
  verified := true
  makeToken _ := ⟨List.replicate 16 0, rfl⟩
  md5 s := uploadDigests.lookup s
  now := 1700000000
  fnameTime := 1700000000
  upload := .received

theorem storagePath_contained_slashes : ∃ path digits suffix,
    storagePath uploadEnv (.ofBytes (ascii "../up.d/../c")) = some path ∧
      path.bytes = ascii "./storage/" ++ (digits ++ suffix) ∧
      digits.length = 32 ∧ (∀ b ∈ digits, IsHexDigit b) ∧
      (suffix = [] ∨ ∃ rest, suffix = 46 :: rest ∧ 46 ∉ rest) ∧
      [46, 46] ∉ components path ∧ [ascii "storage"] <+: resolve path :=
  storagePath_contained (by decide) (by decide) (by decide) (by decide)

/-! ## Two names in one second -/

/-- A name that is cut behind its begin can be read off the parts. -/
theorem eq_of_parts_eq {env env' : Env} (htime : env.fnameTime = env'.fnameTime) {a b : CStr}
    (hcut : 0 < cutAt a) (htext : hashedText env a = hashedText env' b)
    (hkept : keptSuffix a = keptSuffix b) : a = b := by
  obtain ⟨rest, ha, -, hkepta⟩ := parts_of_cutAt_pos hcut
  -- the suffix of the other name is not empty either
  have hcutb : 0 < cutAt b := by
    by_contra h
    rw [hkepta, keptSuffix_of_cutAt_eq (Nat.eq_zero_of_not_pos h)] at hkept
    cases hkept
  obtain ⟨rest', hb, -, hkeptb⟩ := parts_of_cutAt_pos hcutb
  rw [hkepta, hkeptb] at hkept
  -- the time is at the end of both texts
  rw [hashedText, hashedText, htime] at htext
  apply CStr.ext'
  rw [ha, hb, hkept, List.append_cancel_right htext]

/-- A name whose last dot is at its begin, or that has none, is left out of the hash. -/
theorem parts_of_cutAt_eq {fname : CStr} (h : cutAt fname = 0) (env : Env) :
    hashedText env fname = (decimal env.fnameTime).take 19 ∧ keptSuffix fname = [] := by
  refine ⟨?_, keptSuffix_of_cutAt_eq h⟩
  rw [hashedText, h, List.take_zero, List.nil_append]

/-- Equal stored names have the same digest and the same suffix. -/
theorem digests_eq_of_stored_eq {digest digest' : Vector UInt8 16} {s s' : List UInt8}
    (h : hexText digest ++ s = hexText digest' ++ s') : digest = digest' ∧ s = s' := by
  -- the digests are of one length, so the names split at the same place
  have hlength : (hexText digest).length = (hexText digest').length := by
    rw [hexText_length, hexText_length]
  obtain ⟨hhex, hs⟩ := List.append_inj h hlength
  exact ⟨hexText_inj (congrArg CStr.ofBytes hhex), hs⟩

/-- **Two names, two files.** Where no two texts of the two hashes collide, different names
    that are processed in one second are stored under different names, and so under different
    paths, if and only if one of them has a dot behind its first byte. -/
theorem fnames_apart_iff {env env' : Env} (hmd5 : env'.md5 = env.md5)
    (htime : env.fnameTime = env'.fnameTime) {a b : CStr} (hne : a ≠ b) {name name' : CStr}
    (hname : processFname env a = some name) (hname' : processFname env' b = some name')
    (hinj : Set.InjOn env.md5
      {.ofBytes (hashedText env a), .ofBytes (hashedText env' b)}) :
    (name ≠ name' ↔ 0 < cutAt a ∨ 0 < cutAt b) ∧
      ∀ path path', storagePath env a = some path → storagePath env' b = some path' →
        (path ≠ path' ↔ 0 < cutAt a ∨ 0 < cutAt b) := by
  have hnames : name ≠ name' ↔ 0 < cutAt a ∨ 0 < cutAt b := by
    obtain ⟨digest, hdigest, hbytes⟩ := processFname_bytes hname
    obtain ⟨digest', hdigest', hbytes'⟩ := processFname_bytes hname'
    rw [hmd5] at hdigest'
    constructor
    · intro hapart
      by_contra hcuts
      obtain ⟨htexta, hkepta⟩ := parts_of_cutAt_eq (show cutAt a = 0 by omega) env
      obtain ⟨htextb, hkeptb⟩ := parts_of_cutAt_eq (show cutAt b = 0 by omega) env'
      -- both hashes are of the time alone
      rw [htexta] at hdigest
      rw [htextb, ← htime, hdigest] at hdigest'
      cases hdigest'
      apply hapart
      apply CStr.ext'
      rw [hbytes, hbytes', hkepta, hkeptb]
    · -- equal names would have equal hashed texts, and the names can be read off these
      rintro hcuts rfl
      obtain ⟨rfl, hkept⟩ := digests_eq_of_stored_eq (hbytes.symm.trans hbytes')
      have htexts := hinj (by simp) (by simp) (hdigest.trans hdigest'.symm)
      have htext : hashedText env a = hashedText env' b := by
        have h := congrArg CStr.bytes htexts
        rwa [CStr.ofBytes_of_nulFree (nul_not_mem_hashedText env a),
          CStr.ofBytes_of_nulFree (nul_not_mem_hashedText env' b)] at h
      rcases hcuts with hcut | hcut
      · exact hne (eq_of_parts_eq htime hcut htext hkept)
      · exact hne (eq_of_parts_eq htime.symm hcut htext.symm hkept.symm).symm
  refine ⟨hnames, fun path path' hpath hpath' => ?_⟩
  obtain ⟨n, hn, -, hbytes⟩ := storagePath_eq_some_iff.mp hpath
  obtain ⟨n', hn', -, hbytes'⟩ := storagePath_eq_some_iff.mp hpath'
  rw [hname] at hn
  rw [hname'] at hn'
  cases hn
  cases hn'
  rw [← hnames, not_iff_not]
  constructor
  · rintro rfl
    exact CStr.ext' (List.append_cancel_left (hbytes.symm.trans hbytes'))
  · rintro rfl
    exact CStr.ext' (hbytes.trans hbytes'.symm)

theorem fnames_apart_dotted :
    processFname uploadEnv (.ofBytes (ascii "a.txt")) =
        some (.ofBytes (ascii "c18acb11f3e50ae82321aca3f1896b35.txt")) ∧
      processFname uploadEnv (.ofBytes (ascii "b.txt")) =
        some (.ofBytes (ascii "f44fddca387fa6bf1bdd19de6807cb29.txt")) ∧
      (CStr.ofBytes (ascii "c18acb11f3e50ae82321aca3f1896b35.txt") ≠
          .ofBytes (ascii "f44fddca387fa6bf1bdd19de6807cb29.txt") ↔
        0 < cutAt (.ofBytes (ascii "a.txt")) ∨ 0 < cutAt (.ofBytes (ascii "b.txt"))) := by
  have ha : processFname uploadEnv (.ofBytes (ascii "a.txt")) =
      some (.ofBytes (ascii "c18acb11f3e50ae82321aca3f1896b35.txt")) := by decide
  have hb : processFname uploadEnv (.ofBytes (ascii "b.txt")) =
      some (.ofBytes (ascii "f44fddca387fa6bf1bdd19de6807cb29.txt")) := by decide
  refine ⟨ha, hb, (fnames_apart_iff rfl rfl (by decide) ha hb ?_).1⟩
  rintro s (rfl | rfl) t (rfl | rfl) hst
  · rfl
  · exact absurd hst (by decide)
  · exact absurd hst (by decide)
  · rfl

/-- Names without a dot are stored under one name. -/
theorem fnames_collide_undotted :
    CStr.ofBytes (ascii "a") ≠ .ofBytes (ascii "b") ∧
      Set.InjOn uploadEnv.md5 {.ofBytes (hashedText uploadEnv (.ofBytes (ascii "a"))),
        .ofBytes (hashedText uploadEnv (.ofBytes (ascii "b")))} ∧
      (∃ name, processFname uploadEnv (.ofBytes (ascii "a")) = some name ∧
        processFname uploadEnv (.ofBytes (ascii "b")) = some name) ∧
      ∃ path, storagePath uploadEnv (.ofBytes (ascii "a")) = some path ∧
        storagePath uploadEnv (.ofBytes (ascii "b")) = some path := by
  refine ⟨by decide, ?_, ⟨.ofBytes (ascii "24920decf83f6960b80f737a28eeafc1"), by decide, by decide⟩,
    .ofBytes (ascii "./storage/24920decf83f6960b80f737a28eeafc1"), by decide, by decide⟩
  rintro s (rfl | rfl) t (rfl | rfl) _ <;> rfl

end MeshChat
