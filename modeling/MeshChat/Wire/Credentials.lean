import MeshChat.Wire.ParseBounds
import MeshChat.Wire.RequestRoundTrip

/-! # Register and login bodies

    The fields of a register or login body are cut out of a copy of it, one delimiter after the
    other. Nothing counts the delimiters: where one is missing, the same text is read again.

    * `authScan`: the parser behind the copy.
    * `register_accepts_iff`: on a body without NUL, a register frame is accepted exactly when
      it has three delimiters, and then the fields are the segments between them.
    * `auth_fields_apart_iff`: on any accepted body, the fields lie apart exactly when enough
      delimiters come before the first NUL.
-/

namespace MeshChat

open CMemory

/-- The bytes of a body that `body_len` counts. -/
def bodyOf (buf : Frame) : List UInt8 := buf.slice requestHeaderLen (buf.word 8).toNat

/-- The bytes up to the first delimiter, or all of them. -/
def segment (l : List UInt8) : List UInt8 := l.takeWhile (· ≠ bodyDelimiter)

/-! ## Texts and their delimiters -/

/-- A text with a delimiter is a field, the delimiter and the rest. -/
theorem exists_cut {t : List UInt8} (hnul : 0 ∉ t) (hmem : bodyDelimiter ∈ t) :
    ∃ (s : CStr) (r : List UInt8), t = s.bytes ++ bodyDelimiter :: r ∧ bodyDelimiter ∉ s.bytes ∧
      0 ∉ r ∧ r.count bodyDelimiter + 1 = t.count bodyDelimiter := by
  obtain ⟨s, r, rfl, hs⟩ := List.eq_append_cons_of_mem hmem
  have hnul' := hnul
  rw [List.mem_append, List.mem_cons, not_or, not_or] at hnul'
  refine ⟨⟨s, hnul'.1⟩, r, rfl, hs, hnul'.2.2, ?_⟩
  rw [List.count_append, List.count_cons_self, List.count_eq_zero_of_not_mem hs, Nat.zero_add]

/-- The bytes before the first NUL, and what the terminated copy has behind them. -/
theorem exists_terminated (l : List UInt8) :
    ∃ post, l ++ [0] = l.takeWhile (· ≠ 0) ++ 0 :: post := by
  induction l with
  | nil => exact ⟨[], rfl⟩
  | cons b l ih =>
    obtain ⟨post, hpost⟩ := ih
    by_cases hb : b = 0
    · refine ⟨l ++ [0], ?_⟩
      simp [hb]
    · refine ⟨post, ?_⟩
      simp [hb, hpost]

/-- A cut in a text that may or may not have a delimiter. -/
theorem fieldTokenizer_segment (pre g post : List UInt8) (hg : 0 ∉ g)
    (hlen : g.length ≤ requestBodyLen) :
    ∃ post' rest, fieldTokenizer (some requestBodyLen) (pre ++ g ++ 0 :: post) pre.length pre.length =
      .ok (pre ++ segment g ++ 0 :: post', rest) [] ∧
      (segment g).length + post'.length = g.length + post.length := by
  by_cases hmem : bodyDelimiter ∈ g
  · obtain ⟨s, r, rfl, hs, -, -⟩ := exists_cut hg hmem
    have hsegment : segment (s.bytes ++ bodyDelimiter :: r) = s.bytes := by
      rw [segment, List.takeWhile_append_of_pos, List.takeWhile_cons_of_neg (by simp), List.append_nil]
      intro b hb
      simpa using fun heq : b = bodyDelimiter => hs (heq ▸ hb)
    have hhit := fieldTokenizer_hit (some requestBodyLen) pre s (r ++ 0 :: post) hs
      (by simp only [List.length_append, List.length_cons] at hlen
          simp only [Option.mem_some_iff, forall_eq', CStr.strlen]; omega) pre.length
    refine ⟨r ++ 0 :: post, pre.length + s.strlen + 1, ?_, ?_⟩
    · rw [hsegment]
      simpa [List.append_assoc] using hhit
    · rw [hsegment]
      simp only [List.length_append, List.length_cons]
      omega
  · have hsegment : segment g = g := by
      apply List.takeWhile_eq_self_iff.mpr
      intro b hb
      simpa using fun heq : b = bodyDelimiter => hmem (heq ▸ hb)
    have hmiss := fieldTokenizer_miss (some requestBodyLen) pre ⟨g, hg⟩ post hmem pre.length
    exact ⟨post, _, by rw [hsegment]; exact hmiss, by rw [hsegment]⟩

/-- A store behind a field leaves the field and its terminator. -/
theorem set_behind (pre s post : List UInt8) {q : Nat} (hq : pre.length + s.length ≤ q) :
    ∃ post', (pre ++ s ++ 0 :: post).set q 0 = pre ++ s ++ 0 :: post' := by
  rw [List.set_append_right _ _ (by rw [List.length_append]; exact hq)]
  cases q - (pre ++ s).length with
  | zero => exact ⟨post, rfl⟩
  | succ k => exact ⟨post.set k 0, rfl⟩

/-! ## The parser behind the copy -/

/-- `request_parse_auth` behind the copy of the body. -/
def authScan (action : Int8) (bodyLen : Nat) (arr : List UInt8) : Access (Option RequestBody) := do
  let uname := 0
  let (arr, rest) ← fieldTokenizer (some requestBodyLen) arr uname 0
  let password := rest
  let (arr, rest) ← fieldTokenizer (some requestBodyLen) arr password rest
  let unameStr ← strAt arr uname
  let passwordStr ← strAt arr password
  if action = 0 then
    let phone := rest
    let (arr, rest) ← fieldTokenizer (some requestBodyLen) arr phone rest
    let email := rest
    let (arr, _) ← fieldTokenizer (some requestBodyLen) arr email rest
    let unameNow ← strAt arr uname
    let passwordNow ← strAt arr password
    let phoneNow ← strAt arr phone
    let emailLen : Int :=
      (bodyLen : Int) - unameNow.strlen - passwordNow.strlen - phoneNow.strlen - 3
    if emailLen < 0 then
      pure none
    else if email + emailLen.toNat < arr.length then
      let arr := arr.set (email + emailLen.toNat) 0
      let phoneStr ← strAt arr phone
      let emailStr ← strAt arr email
      pure (some (.auth ⟨some unameStr, some passwordStr, some phoneStr, some emailStr⟩))
    else .fault []
  else if action ≠ 1 then
    pure none
  else
    pure (some (.auth { uname := some unameStr, password := some passwordStr }))

theorem requestParseAuth_scan {header : RequestHeader} {buf : Frame}
    (hlen : header.bodyLen.toNat ≤ requestBodyLen) :
    requestParseAuth header buf =
      (authScan header.action header.bodyLen.toNat
        (buf.slice requestHeaderLen header.bodyLen.toNat ++ [0])).after [header.bodyLen.toNat] := by
  have hload : buf.load requestHeaderLen header.bodyLen.toNat =
      .ok (buf.slice requestHeaderLen header.bodyLen.toNat) [] :=
    Mem.load_ok (by simp only [requestBodyLen, requestHeaderLen, bufsiz] at hlen ⊢; omega)
  unfold requestParseAuth
  simp only [hload, Access.after_ok, Access.ok_bind, List.append_nil]
  rfl

/-! ### Enough delimiters -/

/-- The text behind the last field that is cut off, as a string. -/
def segmentStr (g : List UInt8) (hg : 0 ∉ g) : CStr :=
  ⟨segment g, fun h => hg ((List.takeWhile_prefix _).subset h)⟩

theorem authScan_login {u : CStr} {g post : List UInt8} {bodyLen : Nat}
    (hu : bodyDelimiter ∉ u.bytes) (hg : 0 ∉ g) (hlen : u.strlen + g.length ≤ requestBodyLen) :
    authScan 1 bodyLen (u.bytes ++ bodyDelimiter :: (g ++ 0 :: post)) =
      .ok (some (.auth { uname := some u, password := some (segmentStr g hg) })) [] := by
  have hfirst := fieldTokenizer_first u (g ++ 0 :: post) hu (by omega)
  obtain ⟨post', rest, hsecond, -⟩ := fieldTokenizer_segment (u.bytes ++ [0]) g post hg (by omega)
  have hul : (u.bytes ++ [0]).length = u.strlen + 1 := by simp [CStr.strlen]
  have hustr := strAt_append [] u (segment g ++ 0 :: post')
  have hpstr := strAt_append (u.bytes ++ [0]) (segmentStr g hg) post'
  rw [hul] at hsecond hpstr
  simp only [segmentStr, List.append_assoc, List.cons_append, List.nil_append, List.length_nil]
    at hsecond hustr hpstr
  simp only [authScan, hfirst, Access.ok_bind, Access.after_nil, hsecond, hustr, hpstr]
  rfl

theorem authScan_register {u p h : CStr} {g post : List UInt8} {bodyLen : Nat}
    (hu : bodyDelimiter ∉ u.bytes) (hp : bodyDelimiter ∉ p.bytes) (hh : bodyDelimiter ∉ h.bytes)
    (hg : 0 ∉ g) (hlen : bodyLen ≤ requestBodyLen)
    (hbody : u.strlen + p.strlen + h.strlen + 3 + g.length + post.length = bodyLen) :
    authScan 0 bodyLen (u.bytes ++ bodyDelimiter :: (p.bytes ++ bodyDelimiter :: (h.bytes ++
        bodyDelimiter :: (g ++ 0 :: post)))) =
      .ok (some (.auth ⟨some u, some p, some h, some (segmentStr g hg)⟩)) [] := by
  have hroom : bodyLen ≤ 8128 := hlen
  have hfirst := fieldTokenizer_first u
    (p.bytes ++ bodyDelimiter :: (h.bytes ++ bodyDelimiter :: (g ++ 0 :: post))) hu (by omega)
  have hsecond := fieldTokenizer_hit (some requestBodyLen) (u.bytes ++ [0]) p
    (h.bytes ++ bodyDelimiter :: (g ++ 0 :: post)) hp (by simp; omega) (u.strlen + 1)
  have hthird := fieldTokenizer_hit (some requestBodyLen) (u.bytes ++ [0] ++ p.bytes ++ [0]) h
    (g ++ 0 :: post) hh (by simp; omega) (u.strlen + 1 + p.strlen + 1)
  obtain ⟨post₄, rest, hfourth, hlen₄⟩ := fieldTokenizer_segment
    (u.bytes ++ [0] ++ p.bytes ++ [0] ++ h.bytes ++ [0]) g post hg (by omega)
  have hl₁ : (u.bytes ++ [0]).length = u.strlen + 1 := by simp [CStr.strlen]
  have hl₂ : (u.bytes ++ [0] ++ p.bytes ++ [0]).length = u.strlen + 1 + p.strlen + 1 := by
    simp [CStr.strlen]; omega
  have hl₃ : (u.bytes ++ [0] ++ p.bytes ++ [0] ++ h.bytes ++ [0]).length =
      u.strlen + 1 + p.strlen + 1 + h.strlen + 1 := by
    simp [CStr.strlen]; omega
  -- the e-mail is given all that is left, so its terminator is stored at the end of the copy
  obtain ⟨post₅, hset⟩ := set_behind (u.bytes ++ [0] ++ p.bytes ++ [0] ++ h.bytes ++ [0])
    (segment g) post₄ (q := u.strlen + 1 + p.strlen + 1 + h.strlen + 1 + (g.length + post.length))
    (by rw [hl₃]; omega)
  have hemailLen : (bodyLen : Int) - u.strlen - p.strlen - h.strlen - 3 =
      ((g.length + post.length : Nat) : Int) := by
    rw [← hbody]
    push_cast
    ring
  have hpos : ¬ (((g.length + post.length : Nat) : Int) < 0) := by omega
  have hinside : u.strlen + 1 + p.strlen + 1 + h.strlen + 1 + (g.length + post.length) <
      (u.bytes ++ 0 :: (p.bytes ++ 0 :: (h.bytes ++ 0 :: (segment g ++ 0 :: post₄)))).length := by
    simp only [List.length_append, List.length_cons, CStr.strlen]
    omega
  have hustr := strAt_append [] u (p.bytes ++ 0 :: (h.bytes ++ bodyDelimiter :: (g ++ 0 :: post)))
  have hpstr := strAt_append (u.bytes ++ [0]) p (h.bytes ++ bodyDelimiter :: (g ++ 0 :: post))
  have hunow := strAt_append [] u (p.bytes ++ 0 :: (h.bytes ++ 0 :: (segment g ++ 0 :: post₄)))
  have hpnow := strAt_append (u.bytes ++ [0]) p (h.bytes ++ 0 :: (segment g ++ 0 :: post₄))
  have hhnow := strAt_append (u.bytes ++ [0] ++ p.bytes ++ [0]) h (segment g ++ 0 :: post₄)
  have hhstr := strAt_append (u.bytes ++ [0] ++ p.bytes ++ [0]) h (segment g ++ 0 :: post₅)
  have hestr := strAt_append (u.bytes ++ [0] ++ p.bytes ++ [0] ++ h.bytes ++ [0])
    (segmentStr g hg) post₅
  rw [hl₁] at hsecond hpstr hpnow
  rw [hl₂] at hthird hhnow hhstr
  rw [hl₃] at hfourth hestr
  simp only [segmentStr, List.append_assoc, List.cons_append, List.nil_append, List.length_nil]
    at hsecond hthird hfourth hset hustr hpstr hunow hpnow hhnow hhstr hestr
  simp only [authScan, hfirst, Access.ok_bind, Access.after_nil, hsecond, hustr, hpstr, if_pos,
    hthird, hfourth, hunow, hpnow, hhnow, hemailLen, if_neg hpos, Int.toNat_natCast, hinside, hset,
    hhstr, hestr, segmentStr, Access.pure_eq]

/-! ### Too few delimiters

    Where a delimiter is missing the position stays, and the fields that follow are the last
    segment once more. Their lengths are then more than the body has. -/

theorem authScan_none {u : CStr} (hu : bodyDelimiter ∉ u.bytes) :
    authScan 0 u.strlen (u.bytes ++ [0]) = .ok none [] := by
  have hcut : fieldTokenizer (some requestBodyLen) (u.bytes ++ [0]) 0 0 = .ok (u.bytes ++ [0], 0) [] :=
    fieldTokenizer_miss (some requestBodyLen) [] u [] hu 0
  have hstr : strAt (u.bytes ++ [0]) 0 = .ok u [] := strAt_append [] u []
  have hneg : ((u.strlen : Int) - u.strlen - u.strlen - u.strlen - 3 < 0) := by omega
  simp only [authScan, hcut, Access.ok_bind, Access.after_nil, hstr, if_pos, hneg, Access.pure_eq]

theorem authScan_one {u p : CStr} (hu : bodyDelimiter ∉ u.bytes) (hp : bodyDelimiter ∉ p.bytes)
    (hlen : u.strlen + 1 + p.strlen ≤ requestBodyLen) :
    authScan 0 (u.strlen + 1 + p.strlen) (u.bytes ++ bodyDelimiter :: (p.bytes ++ [0])) =
      .ok none [] := by
  have hfirst := fieldTokenizer_first u (p.bytes ++ [0]) hu (by omega)
  have hsecond := fieldTokenizer_miss (some requestBodyLen) (u.bytes ++ [0]) p [] hp (u.strlen + 1)
  have hustr := strAt_append [] u (p.bytes ++ [0])
  have hpstr := strAt_append (u.bytes ++ [0]) p []
  have hl : (u.bytes ++ [0]).length = u.strlen + 1 := by simp [CStr.strlen]
  rw [hl] at hsecond hpstr
  simp only [List.append_assoc, List.cons_append, List.nil_append, List.length_nil]
    at hsecond hustr hpstr
  have hneg : (((u.strlen + 1 + p.strlen : Nat) : Int) - u.strlen - p.strlen - p.strlen - 3 < 0) := by
    omega
  simp only [authScan, hfirst, Access.ok_bind, Access.after_nil, hsecond, hustr, hpstr, if_pos, hneg,
    Access.pure_eq]

theorem authScan_two {u p h : CStr} (hu : bodyDelimiter ∉ u.bytes) (hp : bodyDelimiter ∉ p.bytes)
    (hh : bodyDelimiter ∉ h.bytes) (hlen : u.strlen + 1 + p.strlen + 1 + h.strlen ≤ requestBodyLen) :
    authScan 0 (u.strlen + 1 + p.strlen + 1 + h.strlen)
        (u.bytes ++ bodyDelimiter :: (p.bytes ++ bodyDelimiter :: (h.bytes ++ [0]))) =
      .ok none [] := by
  have hroom : u.strlen + 1 + p.strlen + 1 + h.strlen ≤ 8128 := hlen
  have hfirst := fieldTokenizer_first u (p.bytes ++ bodyDelimiter :: (h.bytes ++ [0])) hu (by omega)
  have hsecond := fieldTokenizer_hit (some requestBodyLen) (u.bytes ++ [0]) p (h.bytes ++ [0]) hp
    (by simp; omega) (u.strlen + 1)
  have hthird := fieldTokenizer_miss (some requestBodyLen) (u.bytes ++ [0] ++ p.bytes ++ [0]) h [] hh
    (u.strlen + 1 + p.strlen + 1)
  have hustr := strAt_append [] u (p.bytes ++ 0 :: (h.bytes ++ [0]))
  have hpstr := strAt_append (u.bytes ++ [0]) p (h.bytes ++ [0])
  have hhstr := strAt_append (u.bytes ++ [0] ++ p.bytes ++ [0]) h []
  have hl₁ : (u.bytes ++ [0]).length = u.strlen + 1 := by simp [CStr.strlen]
  have hl₂ : (u.bytes ++ [0] ++ p.bytes ++ [0]).length = u.strlen + 1 + p.strlen + 1 := by
    simp [CStr.strlen]; omega
  rw [hl₁] at hsecond hpstr
  rw [hl₂] at hthird hhstr
  simp only [List.append_assoc, List.cons_append, List.nil_append, List.length_nil]
    at hsecond hthird hustr hpstr hhstr
  have hneg : (((u.strlen + 1 + p.strlen + 1 + h.strlen : Nat) : Int) - u.strlen - p.strlen -
      h.strlen - 3 < 0) := by
    omega
  simp only [authScan, hfirst, Access.ok_bind, Access.after_nil, hsecond, hustr, hpstr, if_pos,
    hthird, hhstr, hneg, Access.pure_eq]

/-- `request_parse` on a frame of group 0. -/
theorem requestParse_auth {buf : Frame} (hgroup : buf.at' 0 = 0)
    (hlen : (buf.word 8).toNat ≤ requestBodyLen) :
    requestParse buf =
      ((authScan (buf.at' 1).toInt8 (buf.word 8).toNat (bodyOf buf ++ [0])).after
        [(buf.word 8).toNat] >>= fun body => pure (body.map (Request.mk (headerOf buf)))) := by
  have hzero : (headerOf buf).group = 0 := by
    simp only [headerOf, hgroup]
    rfl
  rw [requestParse_eq, requestParseBody, if_pos hzero, requestParseAuth_scan hlen]
  rfl

/-! ## Register frames -/

/-- The fields of a register body are its segments. -/
def RegisterFields (body : List UInt8) (r : RequestAuth) : Prop :=
  ∃ (u p h e : CStr) (g : List UInt8),
    body = u.bytes ++ bodyDelimiter :: (p.bytes ++ bodyDelimiter :: (h.bytes ++ bodyDelimiter :: g)) ∧
    bodyDelimiter ∉ u.bytes ∧ bodyDelimiter ∉ p.bytes ∧ bodyDelimiter ∉ h.bytes ∧
    e.bytes = segment g ∧ r = ⟨some u, some p, some h, some e⟩

/-- On the copy of a body without NUL. -/
theorem authScan_register_iff {body : List UInt8} (hnul : 0 ∉ body)
    (hlen : body.length ≤ requestBodyLen) :
    ∃ r, authScan 0 body.length (body ++ [0]) = .ok r [] ∧
      (r ≠ none ↔ 3 ≤ body.count bodyDelimiter) ∧
      ∀ b, r = some b → ∃ ra, b = .auth ra ∧ RegisterFields body ra := by
  by_cases h₁ : bodyDelimiter ∈ body
  swap
  · have hscan := authScan_none (u := ⟨body, hnul⟩) h₁
    exact ⟨none, hscan, by simp [List.count_eq_zero_of_not_mem h₁], by simp⟩
  obtain ⟨u, r₁, rfl, hu, hnul₁, hcount₁⟩ := exists_cut hnul h₁
  by_cases h₂ : bodyDelimiter ∈ r₁
  swap
  · obtain ⟨p, rfl⟩ : ∃ p : CStr, p.bytes = r₁ := ⟨⟨r₁, hnul₁⟩, rfl⟩
    have hcount₀ := List.count_eq_zero_of_not_mem h₂
    have hsize : (u.bytes ++ bodyDelimiter :: p.bytes).length = u.strlen + 1 + p.strlen := by
      simp [CStr.strlen]; omega
    have hscan := authScan_one hu h₂ (by rw [← hsize]; exact hlen)
    refine ⟨none, ?_, ?_, by simp⟩
    · rw [hsize]
      simpa using hscan
    · simp only [ne_eq, not_true, false_iff]
      omega
  obtain ⟨p, r₂, rfl, hp, hnul₂, hcount₂⟩ := exists_cut hnul₁ h₂
  by_cases h₃ : bodyDelimiter ∈ r₂
  swap
  · obtain ⟨h, rfl⟩ : ∃ h : CStr, h.bytes = r₂ := ⟨⟨r₂, hnul₂⟩, rfl⟩
    have hcount₀ := List.count_eq_zero_of_not_mem h₃
    have hsize : (u.bytes ++ bodyDelimiter :: (p.bytes ++ bodyDelimiter :: h.bytes)).length =
        u.strlen + 1 + p.strlen + 1 + h.strlen := by
      simp [CStr.strlen]; omega
    have hscan := authScan_two hu hp h₃ (by rw [← hsize]; exact hlen)
    refine ⟨none, ?_, ?_, by simp⟩
    · rw [hsize]
      simpa using hscan
    · simp only [ne_eq, not_true, false_iff]
      omega
  obtain ⟨h, g, rfl, hh, hnul₃, hcount₃⟩ := exists_cut hnul₂ h₃
  -- three delimiters: the fields are there
  have hsize : u.strlen + p.strlen + h.strlen + 3 + g.length + ([] : List UInt8).length =
      (u.bytes ++ bodyDelimiter :: (p.bytes ++ bodyDelimiter :: (h.bytes ++
        bodyDelimiter :: g))).length := by
    simp only [CStr.strlen, List.length_append, List.length_cons, List.length_nil]
    omega
  have hscan := authScan_register hu hp hh hnul₃ hlen hsize
  refine ⟨some (.auth ⟨some u, some p, some h, some (segmentStr g hnul₃)⟩), ?_, ?_, ?_⟩
  · simpa using hscan
  · simp only [ne_eq, reduceCtorEq, not_false_eq_true, true_iff]
    omega
  · intro b hb
    cases hb
    exact ⟨_, rfl, u, p, h, segmentStr g hnul₃, g, rfl, hu, hp, hh, rfl, rfl⟩

/-- **The grammar of register.** For every frame of group 0 and action 0 whose body fits and has
    no NUL, `request_parse` accepts it exactly when the body has three delimiters, and then the
    fields are its segments. -/
theorem register_accepts_iff {buf : Frame} (hgroup : buf.at' 0 = 0) (haction : buf.at' 1 = 0)
    (hlen : (buf.word 8).toNat ≤ requestBodyLen) (hnul : 0 ∉ bodyOf buf) :
    ∃ r copies, requestParse buf = .ok r copies ∧
      (r ≠ none ↔ 3 ≤ (bodyOf buf).count bodyDelimiter) ∧
      ∀ req, r = some req → ∃ ra, req.body = .auth ra ∧ RegisterFields (bodyOf buf) ra := by
  obtain ⟨r, hscan, haccept, hfields⟩ :=
    authScan_register_iff hnul (by rw [bodyOf, Mem.slice_length]; exact hlen)
  have hparse := requestParse_auth hgroup hlen
  rw [haction] at hparse
  refine ⟨r.map (Request.mk (headerOf buf)), [(buf.word 8).toNat], ?_, ?_, ?_⟩
  · rw [hparse]
    rw [bodyOf, Mem.slice_length] at hscan
    have hscan' : authScan (UInt8.toInt8 0) (buf.word 8).toNat (bodyOf buf ++ [0]) = .ok r [] := hscan
    rw [hscan']
    rfl
  · rw [← haccept]
    cases r <;> simp
  · intro req hreq
    obtain ⟨b, hb, rfl⟩ := Option.map_eq_some_iff.mp hreq
    exact hfields b hb

/-- A frame of group 0 with the given action and body; the rest is zero. -/
def authFrame (action : UInt8) (body : List UInt8) : Frame :=
  Mem.put (Mem.put (Mem.put (fun _ => 0) 1 [action]) 8 (beBytes (UInt32.ofNat body.length)))
    requestHeaderLen body

/-- The four fields `a`, `b`, `c` and `d`. -/
def registerBytes : List UInt8 := [97, 0x1D, 98, 0x1D, 99, 0x1D, 100]

theorem register_accepts_fields :
    ∃ req copies ra, requestParse (authFrame 0 registerBytes) = .ok (some req) copies ∧
      req.body = .auth ra ∧ RegisterFields registerBytes ra := by
  have hbody : bodyOf (authFrame 0 registerBytes) = registerBytes := by decide
  have hgroup : (authFrame 0 registerBytes).at' 0 = 0 := by decide
  obtain ⟨r, copies, hparse, haccept, hfields⟩ := register_accepts_iff hgroup (by decide)
    (by decide) (by rw [hbody]; decide)
  rw [hbody] at haccept hfields
  obtain ⟨req, rfl⟩ := Option.ne_none_iff_exists'.mp (haccept.mpr (by decide))
  obtain ⟨ra, hra, hlaid⟩ := hfields req rfl
  exact ⟨req, copies, ra, hparse, hra, hlaid⟩

/-! ## Fields that lie apart -/

/-- The fields that were read, in order. -/
def RequestAuth.fields (r : RequestAuth) : List CStr :=
  [r.uname, r.password, r.phone, r.email].reduceOption

/-- The body starts with the fields, one behind the other, with a delimiter between each two. -/
def FieldsApart (body : List UInt8) (fields : List CStr) : Prop :=
  [bodyDelimiter].intercalate (fields.map (·.bytes)) <+: body

/-- The number of delimiters that the fields of an action need. -/
def delimitersNeeded (action : UInt8) : Nat := if action = 0 then 3 else 1

/-- What is accepted has four fields in a register frame and two in a login frame. -/
theorem authScan_shape {action : Int8} {bodyLen : Nat} {arr : List UInt8} {b : RequestBody}
    {l : List Nat} (h : authScan action bodyLen arr = .ok (some b) l) :
    action = 0 ∧ (∃ u p h e, b = .auth ⟨some u, some p, some h, some e⟩) ∨
      action = 1 ∧ ∃ u p, b = .auth { uname := some u, password := some p } := by
  -- access by access; none of them changes the shape of the result
  unfold authScan at h
  obtain ⟨⟨arr₁, rest₁⟩, _, h⟩ := Access.bind_eq_ok h
  obtain ⟨⟨arr₂, rest₂⟩, _, h⟩ := Access.bind_eq_ok h
  obtain ⟨u, _, h⟩ := Access.bind_eq_ok h
  obtain ⟨p, _, h⟩ := Access.bind_eq_ok h
  dsimp only at h
  split at h
  · rename_i hregister
    refine Or.inl ⟨hregister, ?_⟩
    obtain ⟨⟨arr₃, rest₃⟩, _, h⟩ := Access.bind_eq_ok h
    obtain ⟨⟨arr₄, _⟩, _, h⟩ := Access.bind_eq_ok h
    obtain ⟨_, _, h⟩ := Access.bind_eq_ok h
    obtain ⟨_, _, h⟩ := Access.bind_eq_ok h
    obtain ⟨_, _, h⟩ := Access.bind_eq_ok h
    dsimp only at h
    split at h
    · cases h
    split at h
    · obtain ⟨ph, _, h⟩ := Access.bind_eq_ok h
      obtain ⟨em, _, h⟩ := Access.bind_eq_ok h
      cases h
      exact ⟨u, p, ph, em, rfl⟩
    · cases h
  · split at h
    · cases h
    · rename_i hlogin
      cases h
      exact Or.inr ⟨not_not.mp hlogin, u, p, rfl⟩

/-- The bytes of a body before its first NUL. -/
def beforeNul (body : List UInt8) : List UInt8 := body.takeWhile (· ≠ 0)

theorem nul_not_mem_beforeNul (body : List UInt8) : 0 ∉ beforeNul body := by
  intro h
  simpa using List.mem_takeWhile_imp h

/-- A run without NUL that a body starts with is before its first NUL. -/
theorem prefix_beforeNul {l body : List UInt8} (h : l <+: body) (hnul : 0 ∉ l) :
    l <+: beforeNul body := by
  obtain ⟨r, rfl⟩ := h
  rw [beforeNul, List.takeWhile_append_of_pos]
  · exact List.prefix_append _ _
  · intro b hb
    simpa using fun heq : b = 0 => hnul (heq ▸ hb)

theorem intercalate_two (u p : CStr) :
    [bodyDelimiter].intercalate ([u, p].map (·.bytes)) = u.bytes ++ bodyDelimiter :: p.bytes := by
  simp [List.intercalate]

theorem intercalate_four (u p h e : CStr) :
    [bodyDelimiter].intercalate ([u, p, h, e].map (·.bytes)) =
      u.bytes ++ bodyDelimiter :: (p.bytes ++ bodyDelimiter :: (h.bytes ++
        bodyDelimiter :: e.bytes)) := by
  simp [List.intercalate]

theorem nul_ne_bodyDelimiter : (0 : UInt8) ≠ bodyDelimiter := by decide

/-- Two fields that lie apart have a delimiter before the first NUL. -/
theorem FieldsApart.two {body : List UInt8} {u p : CStr} (h : FieldsApart body [u, p]) :
    1 ≤ (beforeNul body).count bodyDelimiter := by
  unfold FieldsApart at h
  rw [intercalate_two] at h
  have hnul : 0 ∉ u.bytes ++ bodyDelimiter :: p.bytes := by
    simp [u.nulFree, p.nulFree, nul_ne_bodyDelimiter]
  have hcount := (prefix_beforeNul h hnul).sublist.count_le bodyDelimiter
  rw [List.count_append, List.count_cons_self] at hcount
  omega

/-- Four fields have three. -/
theorem FieldsApart.four {body : List UInt8} {u p h e : CStr}
    (hapart : FieldsApart body [u, p, h, e]) : 3 ≤ (beforeNul body).count bodyDelimiter := by
  unfold FieldsApart at hapart
  rw [intercalate_four] at hapart
  have hnul : 0 ∉ u.bytes ++ bodyDelimiter :: (p.bytes ++ bodyDelimiter :: (h.bytes ++
      bodyDelimiter :: e.bytes)) := by
    simp [u.nulFree, p.nulFree, h.nulFree, e.nulFree, nul_ne_bodyDelimiter]
  have hcount := (prefix_beforeNul hapart hnul).sublist.count_le bodyDelimiter
  simp only [List.count_append, List.count_cons_self] at hcount
  omega

/-- A login body with a delimiter before its first NUL. -/
theorem login_apart {body : List UInt8} (hlen : body.length ≤ requestBodyLen)
    (hcount : 1 ≤ (beforeNul body).count bodyDelimiter) :
    ∃ ra, authScan 1 body.length (body ++ [0]) = .ok (some (.auth ra)) [] ∧
      FieldsApart body ra.fields := by
  obtain ⟨post, hpost⟩ := exists_terminated body
  have hprefix : beforeNul body <+: body := List.takeWhile_prefix _
  have hfits := hprefix.length_le
  have hpost' : body ++ [0] = beforeNul body ++ 0 :: post := hpost
  obtain ⟨u, g, hcut, hu, hg, -⟩ :=
    exists_cut (nul_not_mem_beforeNul body) (List.count_pos_iff.mp hcount)
  rw [hcut] at hpost' hprefix hfits
  simp only [List.length_append, List.length_cons] at hfits
  have hscan : authScan 1 body.length (u.bytes ++ bodyDelimiter :: (g ++ 0 :: post)) =
      .ok (some (.auth { uname := some u, password := some (segmentStr g hg) })) [] :=
    authScan_login hu hg (by simp only [CStr.strlen]; omega)
  refine ⟨{ uname := some u, password := some (segmentStr g hg) }, ?_, ?_⟩
  · rw [hpost']
    simpa using hscan
  · show FieldsApart body [u, segmentStr g hg]
    unfold FieldsApart
    rw [intercalate_two]
    refine List.IsPrefix.trans ?_ hprefix
    exact (List.prefix_append_right_inj _).mpr (List.cons_prefix_cons.mpr
      ⟨rfl, List.takeWhile_prefix _⟩)

/-- A register body with three. -/
theorem register_apart {body : List UInt8} (hlen : body.length ≤ requestBodyLen)
    (hcount : 3 ≤ (beforeNul body).count bodyDelimiter) :
    ∃ ra, authScan 0 body.length (body ++ [0]) = .ok (some (.auth ra)) [] ∧
      FieldsApart body ra.fields := by
  obtain ⟨post, hpost⟩ := exists_terminated body
  have hprefix : beforeNul body <+: body := List.takeWhile_prefix _
  have hpost' : body ++ [0] = beforeNul body ++ 0 :: post := hpost
  -- three delimiters before the terminator make three cuts
  obtain ⟨u, r₁, hcut₁, hu, hnul₁, hcount₁⟩ :=
    exists_cut (nul_not_mem_beforeNul body) (List.count_pos_iff.mp (by omega))
  obtain ⟨p, r₂, rfl, hp, hnul₂, hcount₂⟩ := exists_cut hnul₁ (List.count_pos_iff.mp (by omega))
  obtain ⟨h, g, rfl, hh, hg, -⟩ := exists_cut hnul₂ (List.count_pos_iff.mp (by omega))
  rw [hcut₁] at hpost' hprefix
  have hsize := congrArg List.length hpost'
  simp only [List.length_append, List.length_cons, List.length_nil] at hsize
  have hbody : u.strlen + p.strlen + h.strlen + 3 + g.length + post.length = body.length := by
    simp only [CStr.strlen]
    omega
  have hscan := authScan_register hu hp hh hg hlen hbody
  refine ⟨⟨some u, some p, some h, some (segmentStr g hg)⟩, ?_, ?_⟩
  · rw [hpost']
    simpa using hscan
  · show FieldsApart body [u, p, h, segmentStr g hg]
    unfold FieldsApart
    rw [intercalate_four]
    refine List.IsPrefix.trans ?_ hprefix
    simp only [List.prefix_append_right_inj, List.cons_prefix_cons, true_and]
    exact List.takeWhile_prefix _

/-- **When the fields lie apart.** For every frame of group 0 that `request_parse` accepts, the
    fields lie one behind the other with a delimiter between each two exactly when the body has
    enough delimiters before its first NUL: three in a register frame, one in a login frame. -/
theorem auth_fields_apart_iff {buf : Frame} (hgroup : buf.at' 0 = 0)
    (hlen : (buf.word 8).toNat ≤ requestBodyLen) {req : Request} {copies : List Nat}
    (hparse : requestParse buf = .ok (some req) copies) :
    (∃ ra, req.body = .auth ra ∧ FieldsApart (bodyOf buf) ra.fields) ↔
      delimitersNeeded (buf.at' 1) ≤ (beforeNul (bodyOf buf)).count bodyDelimiter := by
  have hsize : (bodyOf buf).length = (buf.word 8).toNat := Mem.slice_length ..
  rw [requestParse_auth hgroup hlen, ← hsize] at hparse
  obtain ⟨body, hafter, hbody⟩ := Access.bind_pure_eq_ok hparse
  obtain ⟨b, rfl, rfl⟩ := Option.map_eq_some_iff.mp hbody
  obtain ⟨l, hscan⟩ := Access.of_after_eq_ok hafter
  -- the action tells how many delimiters are needed: three, or one
  rcases authScan_shape hscan with ⟨haction, u, p, h, e, rfl⟩ | ⟨haction, u, p, rfl⟩
  · have hneeded : delimitersNeeded (buf.at' 1) = 3 := by
      rw [show buf.at' 1 = 0 from congrArg Int8.toUInt8 haction]
      rfl
    rw [hneeded]
    constructor
    · rintro ⟨ra, hra, hapart⟩
      cases hra
      exact FieldsApart.four hapart
    · intro hcount
      obtain ⟨ra, hra, hapart⟩ := register_apart (by rw [hsize]; exact hlen) hcount
      rw [haction, hra] at hscan
      cases hscan
      exact ⟨_, rfl, hapart⟩
  · have hneeded : delimitersNeeded (buf.at' 1) = 1 := by
      rw [show buf.at' 1 = 1 from congrArg Int8.toUInt8 haction]
      rfl
    rw [hneeded]
    constructor
    · rintro ⟨ra, hra, hapart⟩
      cases hra
      exact FieldsApart.two hapart
    · intro hcount
      obtain ⟨ra, hra, hapart⟩ := login_apart (by rw [hsize]; exact hlen) hcount
      rw [haction, hra] at hscan
      cases hscan
      exact ⟨_, rfl, hapart⟩

/-- The request that a login frame with these two fields is read as. -/
def loginRequest (buf : Frame) (uname password : CStr) : Request :=
  ⟨headerOf buf, .auth { uname := some uname, password := some password }⟩

/-- The two fields `a` and `b`. -/
def loginBytes : List UInt8 := [97, 0x1D, 98]

def loginRead : Request :=
  loginRequest (authFrame 1 loginBytes) ⟨[97], by decide⟩ ⟨[98], by decide⟩

theorem auth_fields_apart_login :
    requestParse (authFrame 1 loginBytes) = .ok (some loginRead) [3] ∧
      ∃ ra, loginRead.body = .auth ra ∧ FieldsApart loginBytes ra.fields := by
  have hbody : bodyOf (authFrame 1 loginBytes) = loginBytes := by decide
  have hparse : requestParse (authFrame 1 loginBytes) = .ok (some loginRead) [3] := rfl
  have hiff := auth_fields_apart_iff (by decide) (by decide) hparse
  rw [hbody] at hiff
  exact ⟨hparse, hiff.mpr (by decide)⟩

/-- One field `abc` and no delimiter. -/
def undelimitedBytes : List UInt8 := [97, 98, 99]

def undelimitedStr : CStr := ⟨undelimitedBytes, by decide⟩

def undelimitedRead : Request :=
  loginRequest (authFrame 1 undelimitedBytes) undelimitedStr undelimitedStr

/-- A login body without a delimiter is accepted, and its bytes are the name and the password
    both: `field_tokenizer` leaves the rest where it stands when it finds no delimiter. -/
theorem undelimited_login_accepted :
    ∃ (buf : Frame) (req : Request) (ra : RequestAuth),
      buf.at' 0 = 0 ∧ (buf.word 8).toNat ≤ requestBodyLen ∧
        requestParse buf = .ok (some req) [3] ∧ req.body = .auth ra ∧
        bodyDelimiter ∉ bodyOf buf ∧ ra.uname = ra.password ∧
        ¬ FieldsApart (bodyOf buf) ra.fields := by
  refine ⟨authFrame 1 undelimitedBytes, undelimitedRead, _, by decide, by decide,
    rfl, rfl, by decide, rfl, ?_⟩
  have hbody : bodyOf (authFrame 1 undelimitedBytes) = undelimitedBytes := by decide
  intro hapart
  rw [hbody] at hapart
  have hcount := FieldsApart.two hapart
  exact absurd hcount (by decide)

end MeshChat
