import MeshChat.Wire.Fields

/-! # Which request frames are parsed inside their bounds

    `request_parse` takes the length of a body from the frame and does not compare
    it with the size of the frame.

    * `ParsesInside`: no access outside the frame or the local copy of the body, and
      no copy longer than a body.
    * `parses_inside_iff`: the frames of which this holds.
-/

namespace MeshChat

open CMemory

/-- All reads are inside the frame, all writes inside the local copy, and the copies
    are of `body_len` or `body_len - 12` bytes and no longer than a body. -/
def ParsesInside (buf : Frame) : Prop :=
  ∃ r copies, requestParse buf = .ok r copies ∧
    ∀ n ∈ copies, n ≤ requestBodyLen ∧
      (n = (buf.word 8).toNat ∨ n + 12 = (buf.word 8).toNat)

/-- The length that is fit for group and action. A text behind the three ids of a
    message may start up to 12 bytes late, if it ends inside the frame. -/
def LengthFits (buf : Frame) : Prop :=
  let group := (buf.at' 0).toInt8
  let action := (buf.at' 1).toInt8
  let bodyLen := (buf.word 8).toNat
  if group = 0 ∨ (group = 1 ∧ action = 2) ∨ (group = 2 ∧ action = 0) then
    bodyLen ≤ requestBodyLen
  else if group = 4 ∧ action = 2 then
    12 ≤ bodyLen ∧ (bodyLen ≤ requestBodyLen ∨
      bodyLen ≤ requestBodyLen + 12 ∧ 0 ∈ buf.slice (requestHeaderLen + 12) (requestBodyLen - 12))
  else True

/-! ## The header -/

/-- The header of a frame. -/
def headerOf (buf : Frame) : RequestHeader where
  group := (buf.at' 0).toInt8
  action := (buf.at' 1).toInt8
  contentType := buf.at' 2
  contentLen := buf.word 4
  bodyLen := buf.word 8
  token := buf.slice 16 tokenLen
  userId := buf.word 32
  limit := (buf.word 36).toInt32
  offset := (buf.word 40).toInt32

theorem requestParse_eq (buf : Frame) :
    requestParse buf = (requestParseBody (headerOf buf) buf >>= fun body =>
      pure (body.map (Request.mk (headerOf buf)))) := by
  have hheader : requestParseHeader buf = .ok (headerOf buf) [] := by
    simp [requestParseHeader, headerOf, Mem.loadByte, Mem.loadWord, Mem.load]
  rw [requestParse, hheader, Access.ok_bind, Access.after_nil]

/-! ## Names and passwords -/

/-- Four fields are cut off, and the first three strings are read back. Each of them is
    at least as long as what was cut off for it, so that the bytes left for the
    fourth one end inside the array. -/
theorem lastField_inside {arr₀ arr₁ arr₂ arr₃ arr₄ : List UInt8} {p₁ p₂ p₃ p₄ j₁ j₂ j₃ j₄ : Nat}
    (cut₁ : Cut arr₀ 0 arr₁ p₁ j₁) (cut₂ : Cut arr₁ p₁ arr₂ p₂ j₂) (cut₃ : Cut arr₂ p₂ arr₃ p₃ j₃)
    (cut₄ : Cut arr₃ p₃ arr₄ p₄ j₄) {u p ph : CStr} (hu : strAt arr₄ 0 = .ok u [])
    (hp : strAt arr₄ p₁ = .ok p []) (hph : strAt arr₄ p₂ = .ok ph []) {x : Int}
    (hx : x = (arr₀.length : Int) - 1 - u.strlen - p.strlen - ph.strlen - 3) (hpos : ¬ x < 0) :
    p₃ + x.toNat < arr₄.length := by
  have hbehind₁ := cut₁.behind
  have hbehind₂ := cut₂.behind
  have hbehind₃ := cut₃.behind
  have hnext₁ := cut₁.next
  have hnext₂ := cut₂.next
  have hnext₃ := cut₃.next
  -- later cuts store at or behind their own start, so the bytes in front are as they were
  have hlong₁ : j₁ ≤ u.strlen := by
    refine le_strlen_strAt hu fun i hi => ?_
    rw [cut₄.before _ (by omega), cut₃.before _ (by omega), cut₂.before _ (by omega),
      cut₁.before _ (by omega)]
    exact cut₁.clear i hi
  have hlong₂ : j₂ ≤ p.strlen := by
    refine le_strlen_strAt hp fun i hi => ?_
    rw [cut₄.before _ (by omega), cut₃.before _ (by omega), cut₂.before _ (by omega)]
    exact cut₂.clear i hi
  have hlong₃ : j₃ ≤ ph.strlen := by
    refine le_strlen_strAt hph fun i hi => ?_
    rw [cut₄.before _ (by omega), cut₃.before _ (by omega)]
    exact cut₃.clear i hi
  have hsize : arr₄.length = arr₀.length := by
    rw [cut₄.length, cut₃.length, cut₂.length, cut₁.length]
  omega

/-- The fields of a registration or login are cut out of any body of fitting length.
    However the delimiters lie, the end of the last field is inside the copy. -/
theorem requestParseAuth_inside {header : RequestHeader} (buf : Frame)
    (hlen : header.bodyLen.toNat ≤ requestBodyLen) :
    ∃ b, requestParseAuth header buf = .ok b [header.bodyLen.toNat] := by
  have hload : buf.load requestHeaderLen header.bodyLen.toNat =
      .ok (buf.slice requestHeaderLen header.bodyLen.toNat) [] :=
    Mem.load_ok (by simp only [requestBodyLen, requestHeaderLen, bufsiz] at hlen ⊢; omega)
  obtain ⟨arr₀, harr⟩ : ∃ arr, arr = buf.slice requestHeaderLen header.bodyLen.toNat ++ [0] :=
    ⟨_, rfl⟩
  have hsize : arr₀.length = header.bodyLen.toNat + 1 := by simp [harr]
  have hstart : 0 ∈ arr₀.drop 0 := by simp [harr]
  -- a login reads its strings behind two cuts, a registration behind four
  obtain ⟨arr₁, p₁, hcut₁, hp₁, hkeep₁, j₁, cut₁⟩ :=
    fieldTokenizer_total (some requestBodyLen) hstart
  obtain ⟨arr₂, p₂, hcut₂, hp₂, hkeep₂, j₂, cut₂⟩ :=
    fieldTokenizer_total (some requestBodyLen) hp₁
  obtain ⟨u, hu⟩ := strAt_total (hkeep₂ _ (hkeep₁ _ hstart))
  obtain ⟨p, hp⟩ := strAt_total (hkeep₂ _ hp₁)
  obtain ⟨arr₃, p₃, hcut₃, hp₃, hkeep₃, j₃, cut₃⟩ :=
    fieldTokenizer_total (some requestBodyLen) hp₂
  obtain ⟨arr₄, p₄, hcut₄, hp₄, hkeep₄, j₄, cut₄⟩ :=
    fieldTokenizer_total (some requestBodyLen) hp₃
  obtain ⟨u', hu'⟩ := strAt_total (hkeep₄ _ (hkeep₃ _ (hkeep₂ _ (hkeep₁ _ hstart))))
  obtain ⟨p', hp'⟩ := strAt_total (hkeep₄ _ (hkeep₃ _ (hkeep₂ _ hp₁)))
  obtain ⟨ph, hph⟩ := strAt_total (hkeep₄ _ (hkeep₃ _ hp₂))
  obtain ⟨x, hx⟩ : ∃ x : Int, x = (header.bodyLen.toNat : Int) - u'.strlen - p'.strlen -
    ph.strlen - 3 := ⟨_, rfl⟩
  have hend : ¬ x < 0 → p₃ + x.toNat < arr₄.length :=
    lastField_inside cut₁ cut₂ cut₃ cut₄ hu' hp' hph (by rw [hx, hsize]; omega)
  obtain ⟨ph', hph'⟩ := strAt_total (mem_drop_set_zero (hkeep₄ _ (hkeep₃ _ hp₂)) (p₃ + x.toNat))
  obtain ⟨e, he⟩ := strAt_total (mem_drop_set_zero (hkeep₄ _ hp₃) (p₃ + x.toNat))
  simp only [requestParseAuth, hload, Access.after_ok, Access.ok_bind, ← harr, hcut₁, hcut₂, hcut₃,
    hcut₄, hu, hp, hu', hp', hph, ← hx, Access.after_nil, List.append_nil, Access.pure_eq]
  by_cases haction : header.action = 0
  · by_cases hneg : x < 0
    · simp only [if_pos haction, if_pos hneg, Access.after_ok, List.append_nil]
      exact ⟨_, rfl⟩
    · simp only [if_pos haction, if_neg hneg, if_pos (hend hneg), hph', he, Access.ok_bind,
        Access.after_ok, List.append_nil]
      exact ⟨_, rfl⟩
  · by_cases hlogin : header.action = 1
    · simp only [if_neg haction, if_neg (not_not.mpr hlogin), Access.after_ok, List.append_nil]
      exact ⟨_, rfl⟩
    · simp only [if_neg haction, if_pos hlogin, Access.after_ok, List.append_nil]
      exact ⟨_, rfl⟩

theorem requestParseAuth_outside {header : RequestHeader} (buf : Frame)
    (hlen : ¬ header.bodyLen.toNat ≤ requestBodyLen) :
    requestParseAuth header buf = .fault [header.bodyLen.toNat] := by
  have hload : buf.load requestHeaderLen header.bodyLen.toNat = .fault [] :=
    if_neg (by simp only [requestBodyLen, requestHeaderLen, bufsiz] at hlen ⊢; omega)
  simp only [requestParseAuth, hload, Access.after_fault, Access.fault_bind, List.append_nil]

/-! ## Copies of a text -/

/-- A copied text stays inside the frame if its length does, or if it ends before. -/
theorem copyString_cases {n : Nat} (m : Mem n) {off : Nat} (hoff : off ≤ n) (len : Nat) :
    (∃ s, copyString m off len = .ok s [len]) ∧ (off + len ≤ n ∨ 0 ∈ m.slice off (n - off)) ∨
      copyString m off len = .fault [len] ∧ ¬ (off + len ≤ n ∨ 0 ∈ m.slice off (n - off)) := by
  by_cases hfit : off + len ≤ n
  · exact Or.inl ⟨copyString_ok m off len hfit, Or.inl hfit⟩
  have hmin : min len (n - off) = n - off := by omega
  have hshort : (m.slice off (n - off)).length < len := by
    rw [Mem.slice_length]
    omega
  unfold copyString
  rw [hmin]
  -- too long, but `strncpy` stops reading at a terminator inside the frame
  by_cases hnul : 0 ∈ m.slice off (n - off)
  · left
    rw [if_neg fun h => h.2 hnul]
    exact ⟨⟨_, rfl⟩, Or.inr hnul⟩
  · right
    rw [if_pos ⟨hshort, hnul⟩]
    exact ⟨rfl, fun h => h.elim hfit hnul⟩

/-! ## All frames -/

/-- The condition on an outcome of the body's parser. -/
def BodyInside (bodyLen : Nat) (x : Access (Option RequestBody)) : Prop :=
  ∃ b copies, x = .ok b copies ∧
    ∀ n ∈ copies, n ≤ requestBodyLen ∧ (n = bodyLen ∨ n + 12 = bodyLen)

theorem parsesInside_iff_body (buf : Frame) : ParsesInside buf ↔
    BodyInside (buf.word 8).toNat (requestParseBody (headerOf buf) buf) := by
  unfold ParsesInside BodyInside
  rw [requestParse_eq]
  constructor
  · rintro ⟨r, copies, h, hcopies⟩
    obtain ⟨b, hb, -⟩ := Access.bind_pure_eq_ok h
    exact ⟨b, copies, hb, hcopies⟩
  · rintro ⟨b, copies, h, hcopies⟩
    rw [h]
    refine ⟨b.map (Request.mk (headerOf buf)), copies, ?_, hcopies⟩
    simp

/-- Nothing is copied. -/
theorem bodyInside_quiet {bodyLen : Nat} {x : Access (Option RequestBody)} {b : Option RequestBody}
    (h : x = .ok b []) : BodyInside bodyLen x :=
  ⟨b, [], h, by simp⟩

theorem not_bodyInside_fault {bodyLen : Nat} {copies : List Nat} :
    ¬ BodyInside bodyLen (.fault copies) := by
  rintro ⟨b, copies', h, -⟩
  cases h

/-- A text that is the whole body. -/
theorem bodyInside_copyBody {buf : Frame} {bodyLen : Nat} {f : CStr → Option RequestBody} :
    BodyInside bodyLen (copyString buf requestHeaderLen bodyLen >>= fun s => pure (f s)) ↔
      bodyLen ≤ requestBodyLen := by
  rcases copyString_cases buf (show requestHeaderLen ≤ bufsiz by decide) bodyLen with
    ⟨⟨s, hs⟩, -⟩ | ⟨hs, hout⟩
  · rw [hs]
    constructor
    · rintro ⟨b, copies, h, hcopies⟩
      simp only [Access.ok_bind, Access.pure_eq, Access.after_ok, List.append_nil] at h
      cases h
      exact (hcopies bodyLen (by simp)).1
    · intro hlen
      exact ⟨f s, [bodyLen], rfl, by simpa using hlen⟩
  · rw [hs]
    refine ⟨fun h => (not_bodyInside_fault h).elim, fun hlen => (hout (Or.inl ?_)).elim⟩
    simp only [requestBodyLen, requestHeaderLen, bufsiz] at hlen ⊢
    omega

/-- A text behind the three ids of a message. -/
theorem bodyInside_copyText {buf : Frame} {bodyLen : UInt32} {f : CStr → Option RequestBody} :
    BodyInside bodyLen.toNat
      (copyString buf (requestHeaderLen + 12) (bodyLen - 12).toNat >>= fun s => pure (f s)) ↔
      12 ≤ bodyLen.toNat ∧ (bodyLen.toNat ≤ requestBodyLen ∨
        bodyLen.toNat ≤ requestBodyLen + 12 ∧
          0 ∈ buf.slice (requestHeaderLen + 12) (requestBodyLen - 12)) := by
  have htwelve : (12 : UInt32).toNat = 12 := rfl
  have hlt : bodyLen.toNat < 2 ^ 32 := bodyLen.toNat_lt
  -- below 12 the difference wraps around to nearly 4 GiB
  have hsub : (bodyLen - 12).toNat = (2 ^ 32 - 12 + bodyLen.toNat) % 2 ^ 32 := by
    rw [UInt32.toNat_sub, htwelve]
  obtain ⟨n, hn⟩ : ∃ n, n = (bodyLen - 12).toNat := ⟨_, rfl⟩
  rw [← hn]
  rw [← hn] at hsub
  have hrest : bufsiz - (requestHeaderLen + 12) = requestBodyLen - 12 := rfl
  rcases copyString_cases buf (show requestHeaderLen + 12 ≤ bufsiz by decide) n with
    ⟨⟨s, hs⟩, hin⟩ | ⟨hs, hout⟩
  · rw [hs]
    rw [hrest] at hin
    constructor
    · rintro ⟨b, copies, h, hcopies⟩
      simp only [Access.ok_bind, Access.pure_eq, Access.after_ok, List.append_nil] at h
      cases h
      obtain ⟨hle, hkind⟩ := hcopies n (by simp)
      simp only [requestBodyLen, requestHeaderLen, bufsiz] at hle hin ⊢
      refine ⟨by omega, ?_⟩
      rcases hin with hin | hnul
      · exact Or.inl (by omega)
      · exact Or.inr ⟨by omega, hnul⟩
    · rintro ⟨htw, hlen⟩
      refine ⟨f s, [n], rfl, ?_⟩
      simp only [requestBodyLen, requestHeaderLen, bufsiz, List.mem_singleton, forall_eq] at hlen ⊢
      rcases hlen with hlen | ⟨hlen, -⟩ <;> omega
  · rw [hs]
    rw [hrest] at hout
    refine ⟨fun h => (not_bodyInside_fault h).elim, ?_⟩
    rintro ⟨htw, hlen⟩
    refine (hout ?_).elim
    rcases hlen with hlen | ⟨-, hnul⟩
    · left
      simp only [requestBodyLen, requestHeaderLen, bufsiz] at hlen ⊢
      omega
    · exact Or.inr hnul

section Groups

variable {header : RequestHeader} {buf : Frame}

theorem requestParseUser_inside :
    BodyInside header.bodyLen.toNat (requestParseUser header buf) ↔
      (header.action = 2 → header.bodyLen.toNat ≤ requestBodyLen) := by
  unfold requestParseUser
  split
  · rename_i h
    exact iff_of_true (bodyInside_quiet rfl) fun h' => absurd (h.symm.trans h') (by decide)
  split
  · rename_i h
    exact iff_of_true (bodyInside_quiet rfl) fun h' => absurd (h.symm.trans h') (by decide)
  split
  · rename_i h
    rw [bodyInside_copyBody]
    exact ⟨fun hlen _ => hlen, fun hlen => hlen h⟩
  · rename_i h
    exact iff_of_true (bodyInside_quiet rfl) fun h' => absurd h' h

theorem requestParseConv_inside :
    BodyInside header.bodyLen.toNat (requestParseConv header buf) ↔
      (header.action = 0 → header.bodyLen.toNat ≤ requestBodyLen) := by
  unfold requestParseConv
  split
  · rename_i h
    rw [bodyInside_copyBody]
    exact ⟨fun hlen _ => hlen, fun hlen => hlen h⟩
  rename_i h
  refine iff_of_true ?_ fun h' => absurd h' h
  split
  · exact bodyInside_quiet rfl
  split
  · exact bodyInside_quiet rfl
  split
  · exact bodyInside_quiet rfl
  · exact bodyInside_quiet rfl

theorem requestParseChat_inside :
    BodyInside header.bodyLen.toNat (requestParseChat header buf) := by
  unfold requestParseChat
  split
  · exact bodyInside_quiet rfl
  split
  · exact bodyInside_quiet rfl
  split
  · exact bodyInside_quiet rfl
  · exact bodyInside_quiet rfl

theorem requestParseMsg_inside :
    BodyInside header.bodyLen.toNat (requestParseMsg header buf) ↔
      (header.action = 2 → 12 ≤ header.bodyLen.toNat ∧
        (header.bodyLen.toNat ≤ requestBodyLen ∨ header.bodyLen.toNat ≤ requestBodyLen + 12 ∧
          0 ∈ buf.slice (requestHeaderLen + 12) (requestBodyLen - 12))) := by
  unfold requestParseMsg
  split
  · rename_i h
    refine iff_of_true (bodyInside_quiet rfl) fun h' => ?_
    rcases h with h | h <;> exact absurd (h.symm.trans h') (by decide)
  split
  · rename_i h
    refine iff_of_true (bodyInside_quiet rfl)
      fun h' => ?_
    rcases h with h | h <;> exact absurd (h.symm.trans h') (by decide)
  split
  · rename_i h
    -- the three ids are always inside the frame
    simp only [Mem.loadWord_ok (show requestHeaderLen + 4 ≤ bufsiz by decide),
      Mem.loadWord_ok (show requestHeaderLen + 4 + 4 ≤ bufsiz by decide),
      Mem.loadWord_ok (show requestHeaderLen + 8 + 4 ≤ bufsiz by decide), Access.ok_bind,
      Access.after_nil]
    rw [bodyInside_copyText]
    exact ⟨fun hlen _ => hlen, fun hlen => hlen h⟩
  rename_i h
  refine iff_of_true ?_ fun h' => absurd h' h
  split
  · exact bodyInside_quiet rfl
  split
  · exact bodyInside_quiet rfl
  · exact bodyInside_quiet rfl

end Groups

/-- The frames that are parsed inside their bounds. -/
theorem parses_inside_iff (buf : Frame) : ParsesInside buf ↔ LengthFits buf := by
  rw [parsesInside_iff_body]
  have hlen : (headerOf buf).bodyLen = buf.word 8 := rfl
  have hgroup : (headerOf buf).group = (buf.at' 0).toInt8 := rfl
  have haction : (headerOf buf).action = (buf.at' 1).toInt8 := rfl
  unfold LengthFits requestParseBody
  rw [← hlen, ← hgroup, ← haction]
  -- only group, action and length of the header matter from here on
  generalize headerOf buf = header
  dsimp only
  by_cases h0 : header.group = 0
  · rw [if_pos h0, if_pos (Or.inl h0)]
    by_cases hfit : header.bodyLen.toNat ≤ requestBodyLen
    -- the body is copied as a whole, whatever the action
    · obtain ⟨b, hb⟩ := requestParseAuth_inside buf hfit
      exact iff_of_true ⟨b, _, hb, by simpa using hfit⟩ hfit
    · rw [requestParseAuth_outside buf hfit]
      exact iff_of_false not_bodyInside_fault hfit
  rw [if_neg h0]
  by_cases h1 : header.group = 1
  · rw [if_pos h1, requestParseUser_inside]
    simp [h1]
  rw [if_neg h1]
  by_cases h2 : header.group = 2
  · rw [if_pos h2, requestParseConv_inside]
    simp [h2]
  rw [if_neg h2]
  by_cases h3 : header.group = 3
  · rw [if_pos h3]
    simpa [h3] using requestParseChat_inside
  rw [if_neg h3]
  by_cases h4 : header.group = 4
  · rw [if_pos h4, requestParseMsg_inside]
    simp [h4]
  · rw [if_neg h4, if_neg (by simp [h0, h1, h2]), if_neg (by simp [h4])]
    exact iff_of_true (bodyInside_quiet rfl) trivial

/-- A message whose declared body is shorter than its three ids: 2^32 - 12 bytes are
    to be copied. -/
def shortMsgFrame : Frame := fun i => if i.val = 0 then 4 else if i.val = 1 then 2 else 0

/-- A login with a declared body of 4 GiB. -/
def hugeLoginFrame : Frame := fun i =>
  if i.val = 1 then 1 else if 8 ≤ i.val ∧ i.val < 12 then 0xFF else 0

theorem frames_parsed_outside :
    ¬ ParsesInside shortMsgFrame ∧ ¬ ParsesInside hugeLoginFrame := by
  rw [parsesInside_iff_body, parsesInside_iff_body]
  constructor
  · have hbody : requestParseBody (headerOf shortMsgFrame) shortMsgFrame =
        requestParseMsg (headerOf shortMsgFrame) shortMsgFrame := rfl
    have hshort : ¬ 12 ≤ (headerOf shortMsgFrame).bodyLen.toNat := by decide
    rw [hbody]
    change ¬ BodyInside (headerOf shortMsgFrame).bodyLen.toNat _
    rw [requestParseMsg_inside]
    exact fun h => hshort (h (by decide)).1
  · have hbody : requestParseBody (headerOf hugeLoginFrame) hugeLoginFrame =
        requestParseAuth (headerOf hugeLoginFrame) hugeLoginFrame := rfl
    rw [hbody, requestParseAuth_outside hugeLoginFrame (by decide)]
    exact not_bodyInside_fault

end MeshChat
