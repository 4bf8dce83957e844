import MeshChat.Wire.Fields
import MeshChat.Wire.ResponseRoundTrip

/-! # Which frames of the server the client can decode

    The actions the decoder has a case for are written down in `response.c`
    independently of the actions the handlers answer with, and an error frame is
    decoded with the layout of the success frame of its group and action.

    * `Decodes`: the headers `response_parse` accepts, whatever bytes follow.
    * `Understood`: a frame is built, decoded to a response with its status, and
      no length the decoder computes exceeds the body.
    * `understood_iff`: this holds exactly of the `Decodable` calls.
-/

namespace MeshChat

open CMemory

/-! ## What the decoder accepts -/

/-- The group and action pairs with a case of their own in the parsers below the
    group switch; group 0 has no switch on the action. -/
def decodedActions : List (Int8 × Int8) :=
  [(1, 1), (1, 2), (2, 0), (2, 4), (2, 5), (2, 6), (3, 0), (3, 1), (3, 2), (3, 3),
   (4, 0), (4, 1), (4, 2), (4, 3), (4, 4), (4, 5), (4, 6)]

/-- The bytes in front of a string whose length is `body_len` minus these. -/
def fixedPart (kind : Int8 × Int8) : Nat :=
  if kind = (2, 4) then 4 else if kind = (4, 1) then 30 else 0

/-- The pair has a case and the declared body covers its fixed part. -/
structure Decodes (kind : Int8 × Int8) (bodyLen : Nat) : Prop where
  known : kind.1 = 0 ∨ kind ∈ decodedActions
  covered : fixedPart kind ≤ bodyLen

/-- The names of a user are cut out of any body. -/
theorem responseParseUser_info_total {h : ResponseHeader} (m : Frame) (ha : h.action = 1)
    (hlen : h.bodyLen.toNat ≤ responseBodyLen) :
    ∃ b, responseParseUser h m = .ok (some b) [h.bodyLen.toNat] := by
  simp only [responseBodyLen, bufsiz, responseHeaderLen] at hlen
  have hload : m.load responseHeaderLen h.bodyLen.toNat =
      .ok (m.slice responseHeaderLen h.bodyLen.toNat) [] :=
    Mem.load_ok (by simp only [responseHeaderLen, bufsiz]; omega)
  obtain ⟨arr₀, harr⟩ : ∃ arr, arr = m.slice responseHeaderLen h.bodyLen.toNat ++ [0] := ⟨_, rfl⟩
  have hstart : 0 ∈ arr₀.drop 0 := by simp [harr]
  obtain ⟨arr₁, rest₁, hcut₁, hrest₁, hkeep₁, -⟩ := fieldTokenizer_total none hstart
  obtain ⟨arr₂, rest₂, hcut₂, hrest₂, hkeep₂, -⟩ := fieldTokenizer_total none hrest₁
  obtain ⟨arr₃, rest₃, hcut₃, hrest₃, hkeep₃, -⟩ := fieldTokenizer_total none hrest₂
  -- all three strings are read from the array after the last cut
  obtain ⟨u, hu⟩ := strAt_total (hkeep₃ _ (hkeep₂ _ (hkeep₁ _ hstart)))
  obtain ⟨p, hp⟩ := strAt_total (hkeep₃ _ (hkeep₂ _ hrest₁))
  obtain ⟨e, he⟩ := strAt_total (hkeep₃ _ hrest₂)
  refine ⟨.user { uname := some u, phone := some p, email := some e }, ?_⟩
  simp only [responseParseUser, ha, if_pos, hload, Access.after_ok, Access.ok_bind, ← harr, hcut₁,
    hcut₂, hcut₃, hu, hp, he, Access.pure_eq, List.append_nil]

section Accepted

variable {h : ResponseHeader} {m : Frame}

/-- The decoder returns a body, and no copy it made is longer than a body. -/
def Accepts (r : Access (Option ResponseBody)) : Prop :=
  ∃ b copies, r = .ok (some b) copies ∧ ∀ n ∈ copies, n ≤ responseBodyLen

theorem responseParseAuth_accepts : Accepts (responseParseAuth m) := by
  refine ⟨.auth ⟨m.slice 32 16, m.word 48⟩, [], ?_, by simp⟩
  simp [responseParseAuth, Mem.load, Mem.loadWord]

theorem responseParseUser_accepts (hlen : h.bodyLen.toNat ≤ responseBodyLen)
    (hcount : 4 * h.count.toNat ≤ responseBodyLen) (ha : h.action = 1 ∨ h.action = 2) :
    Accepts (responseParseUser h m) := by
  rcases ha with ha | ha
  · obtain ⟨b, hb⟩ := responseParseUser_info_total m ha hlen
    exact ⟨b, _, hb, by simpa using hlen⟩
  · obtain ⟨ls, hls⟩ := m.loadWords_ok 32 h.count.toNat (by simp at hcount ⊢; omega)
    exact ⟨_, _, responseParseUser_list ha hls, by simp⟩

theorem responseParseConv_accepts (hlen : h.bodyLen.toNat ≤ responseBodyLen)
    (hcount : 4 * h.count.toNat ≤ responseBodyLen)
    (ha : h.action = 0 ∨ (h.action = 4 ∧ 4 ≤ h.bodyLen.toNat) ∨ h.action = 5 ∨ h.action = 6) :
    Accepts (responseParseConv h m) := by
  rcases ha with ha | ⟨ha, h4⟩ | ha
  · exact ⟨.conv { convId := m.word 32 }, [], by simp [responseParseConv, ha, Mem.loadWord],
      by simp⟩
  · have hsub : (h.bodyLen - 4).toNat = h.bodyLen.toNat - 4 :=
      UInt32.toNat_sub_of_le _ _ (by rw [UInt32.le_iff_toNat_le]; simpa using h4)
    obtain ⟨g, hg⟩ := copyString_ok m 36 (h.bodyLen - 4).toNat
      (by simp at hlen ⊢; omega)
    refine ⟨.conv { adminId := m.word 32, gname := some g }, [(h.bodyLen - 4).toNat],
      by simp [responseParseConv, ha, Mem.loadWord, hg], ?_⟩
    simp at hlen ⊢
    omega
  · obtain ⟨ls, hls⟩ := m.loadWords_ok 32 h.count.toNat (by simp at hcount ⊢; omega)
    exact ⟨_, _, responseParseConv_list ha hls, by simp⟩

theorem responseParseChat_accepts (hcount : 4 * h.count.toNat ≤ responseBodyLen)
    (ha : h.action = 0 ∨ h.action = 1 ∨ h.action = 2 ∨ h.action = 3) :
    Accepts (responseParseChat h m) := by
  rcases ha with ha | ha | ha | ha
  · exact ⟨.chat { chatId := m.word 32 }, [], by simp [responseParseChat, ha, Mem.loadWord],
      by simp⟩
  · exact ⟨.chat {}, [], by simp [responseParseChat, ha], by simp⟩
  · obtain ⟨ls, hls⟩ := m.loadWords_ok 32 h.count.toNat (by simp at hcount ⊢; omega)
    exact ⟨_, _, responseParseChat_list ha hls, by simp⟩
  · exact ⟨.chat { memberId1 := m.word 32, memberId2 := m.word 36 }, [],
      by simp [responseParseChat, ha, Mem.loadWord], by simp⟩

theorem responseParseMsg_accepts (hlen : h.bodyLen.toNat ≤ responseBodyLen)
    (hcount : 4 * h.count.toNat ≤ responseBodyLen)
    (ha : (h.action = 0 ∨ h.action = 4 ∨ h.action = 5) ∨ (h.action = 1 ∧ 30 ≤ h.bodyLen.toNat) ∨
      h.action = 2 ∨ h.action = 3 ∨ h.action = 6) :
    Accepts (responseParseMsg h m) := by
  rcases ha with ha | ⟨ha, h30⟩ | ha | ha | ha
  · obtain ⟨ls, hls⟩ := m.loadWords_ok 32 h.count.toNat (by simp at hcount ⊢; omega)
    exact ⟨_, _, responseParseMsg_list ha hls, by simp⟩
  -- the text is what is left of the body behind the fixed part
  · have hsub : (h.bodyLen - 30).toNat = h.bodyLen.toNat - 30 :=
      UInt32.toNat_sub_of_le _ _ (by rw [UInt32.le_iff_toNat_le]; simpa using h30)
    obtain ⟨text, htext⟩ := copyString_ok m 62 (h.bodyLen - 30).toNat
      (by simp at hlen ⊢; omega)
    refine ⟨.msg { msgId := m.word 32, fromUid := m.word 36, replyTo := m.word 40,
                   convId := m.word 44, chatId := m.word 48, createdAt := m.word 52,
                   msgType := m.at' 56, contentType := m.at' 57, contentLength := m.word 58,
                   msgContent := some text }, [(h.bodyLen - 30).toNat],
      by simp [responseParseMsg, responseParseMsgDetail, ha, Mem.loadWord, Mem.loadByte, htext], ?_⟩
    simp at hlen ⊢
    omega
  · exact ⟨.msg { msgId := m.word 32 }, [], by simp [responseParseMsg, ha, Mem.loadWord], by simp⟩
  · exact ⟨.msg {}, [], by simp [responseParseMsg, ha], by simp⟩
  · obtain ⟨f, hf⟩ := copyString_ok m 32 h.bodyLen.toNat (by simp at hlen ⊢; omega)
    exact ⟨.msg { msgContent := some f }, [h.bodyLen.toNat],
      by simp [responseParseMsg, ha, hf], by simpa using hlen⟩

end Accepted

/-- The table, group by group. -/
theorem mem_decodedActions {group action : Int8} : (group, action) ∈ decodedActions ↔
    (group = 1 ∧ (action = 1 ∨ action = 2)) ∨
    (group = 2 ∧ (action = 0 ∨ action = 4 ∨ action = 5 ∨ action = 6)) ∨
    (group = 3 ∧ (action = 0 ∨ action = 1 ∨ action = 2 ∨ action = 3)) ∨
    (group = 4 ∧ (action = 0 ∨ action = 1 ∨ action = 2 ∨ action = 3 ∨ action = 4 ∨ action = 5 ∨
      action = 6)) := by
  simp only [decodedActions, List.mem_cons, Prod.mk.injEq, List.not_mem_nil, or_false, and_or_left,
    or_assoc]

/-- A header with a case in the decoder is accepted, whatever its body holds. -/
theorem responseParseBody_accepts {h : ResponseHeader} {m : Frame}
    (hd : Decodes (h.group, h.action) h.bodyLen.toNat)
    (hlen : h.bodyLen.toNat ≤ responseBodyLen) (hcount : 4 * h.count.toNat ≤ responseBodyLen) :
    Accepts (responseParseBody h m) := by
  obtain ⟨hknown, hcovered⟩ := hd
  unfold responseParseBody
  by_cases h0 : h.group = 0
  · rw [if_pos h0]
    exact responseParseAuth_accepts
  rw [if_neg h0]
  -- the group of the tokens has no cases by action
  rcases mem_decodedActions.mp (hknown.resolve_left h0) with ⟨hg, ha⟩ | ⟨hg, ha⟩ | ⟨hg, ha⟩ | ⟨hg, ha⟩
  · rw [if_pos hg]
    exact responseParseUser_accepts hlen hcount ha
  · rw [if_neg (by rw [hg]; decide), if_pos hg]
    refine responseParseConv_accepts hlen hcount ?_
    rcases ha with ha | ha | ha
    · exact Or.inl ha
    · rw [hg, ha] at hcovered
      exact Or.inr (Or.inl ⟨ha, hcovered⟩)
    · exact Or.inr (Or.inr ha)
  · rw [if_neg (by rw [hg]; decide), if_neg (by rw [hg]; decide), if_pos hg]
    exact responseParseChat_accepts hcount ha
  · rw [if_neg (by rw [hg]; decide), if_neg (by rw [hg]; decide), if_neg (by rw [hg]; decide),
      if_pos hg]
    refine responseParseMsg_accepts hlen hcount ?_
    -- only the detail has a fixed part that the length must cover
    rcases ha with ha | ha | ha | ha | ha | ha | ha
    · exact Or.inl (Or.inl ha)
    · rw [hg, ha] at hcovered
      exact Or.inr (Or.inl ⟨ha, hcovered⟩)
    · exact Or.inr (Or.inr (Or.inl ha))
    · exact Or.inr (Or.inr (Or.inr (Or.inl ha)))
    · exact Or.inl (Or.inr (Or.inl ha))
    · exact Or.inl (Or.inr (Or.inr ha))
    · exact Or.inr (Or.inr (Or.inr (Or.inr ha)))

/-- A header without a case is answered with `NULL`. -/
theorem responseParseBody_unknown {h : ResponseHeader} {m : Frame} (h0 : h.group ≠ 0)
    (hmem : (h.group, h.action) ∉ decodedActions) : responseParseBody h m = .ok none [] := by
  rw [mem_decodedActions] at hmem
  simp only [not_or, not_and] at hmem
  obtain ⟨huser, hconv, hchat, hmsg⟩ := hmem
  unfold responseParseBody
  rw [if_neg h0]
  split_ifs with h1 h2 h3 h4
  · obtain ⟨ha₁, ha₂⟩ := huser h1
    rw [responseParseUser, if_neg ha₁, if_neg ha₂, Access.pure_eq]
  · obtain ⟨ha₀, ha₄, ha₅, ha₆⟩ := hconv h2
    rw [responseParseConv, if_neg ha₀, if_neg ha₄, if_neg (not_or.mpr ⟨ha₅, ha₆⟩), Access.pure_eq]
  · obtain ⟨ha₀, ha₁, ha₂, ha₃⟩ := hchat h3
    rw [responseParseChat, if_neg ha₀, if_neg ha₁, if_neg ha₂, if_neg ha₃, Access.pure_eq]
  · obtain ⟨ha₀, ha₁, ha₂, ha₃, ha₄, ha₅, ha₆⟩ := hmsg h4
    rw [responseParseMsg, if_neg (not_or.mpr ⟨ha₀, not_or.mpr ⟨ha₄, ha₅⟩⟩), if_neg ha₁, if_neg ha₂,
      if_neg ha₃, if_neg ha₆, Access.pure_eq]
  · rfl

/-- A difference below zero wraps to a length no body has. -/
theorem wrapped_length {a k : UInt32} (hk : k.toNat ≤ 30) (h : a.toNat < k.toNat) :
    responseBodyLen < (a - k).toNat := by
  have hsub : (a - k).toNat = (2 ^ 32 - k.toNat + a.toNat) % 2 ^ 32 := UInt32.toNat_sub a k
  rw [hsub]
  simp only [responseBodyLen, bufsiz, responseHeaderLen]
  omega

/-- A declared body shorter than the fixed part makes the decoder copy a wrapped
    number of bytes. -/
theorem responseParseBody_uncovered {h : ResponseHeader} {m : Frame}
    (hcov : h.bodyLen.toNat < fixedPart (h.group, h.action)) :
    ∃ n ∈ (responseParseBody h m).copies, responseBodyLen < n := by
  by_cases h24 : (h.group, h.action) = (2, 4)
  · obtain ⟨hg, ha⟩ := Prod.mk.inj h24
    have hlt : h.bodyLen.toNat < (4 : UInt32).toNat := by simpa [fixedPart, h24] using hcov
    refine ⟨(h.bodyLen - 4).toNat, ?_, wrapped_length (by decide) hlt⟩
    simp [responseParseBody, responseParseConv, hg, ha, Mem.loadWord, copies_copyString]
  by_cases h41 : (h.group, h.action) = (4, 1)
  · obtain ⟨hg, ha⟩ := Prod.mk.inj h41
    have hlt : h.bodyLen.toNat < (30 : UInt32).toNat := by simpa [fixedPart, h41] using hcov
    refine ⟨(h.bodyLen - 30).toNat, ?_, wrapped_length (by decide) hlt⟩
    simp [responseParseBody, responseParseMsg, responseParseMsgDetail, hg, ha, Mem.loadWord,
      Mem.loadByte, copies_copyString]
  · simp [fixedPart, h24, h41] at hcov

/-- The decoder accepts a header exactly when it has a case for it. -/
theorem responseParseBody_accepts_iff {h : ResponseHeader} {m : Frame}
    (hlen : h.bodyLen.toNat ≤ responseBodyLen) (hcount : 4 * h.count.toNat ≤ responseBodyLen) :
    Accepts (responseParseBody h m) ↔ Decodes (h.group, h.action) h.bodyLen.toNat := by
  constructor
  · rintro ⟨b, copies, hparse, hcopies⟩
    refine ⟨?_, ?_⟩
    · by_contra hunknown
      rw [not_or] at hunknown
      rw [responseParseBody_unknown hunknown.1 hunknown.2] at hparse
      cases hparse
    · by_contra hshort
      obtain ⟨n, hn, hbig⟩ := responseParseBody_uncovered (m := m) (Nat.lt_of_not_le hshort)
      rw [hparse] at hn
      exact absurd (hcopies n hn) (Nat.not_le.mpr hbig)
  · intro hd
    exact responseParseBody_accepts hd hlen hcount

/-! ## Frames of the server -/

/-- The frame of the call is decoded: the builder returns, the client gets a
    response with the status that was sent, and every length it computed from the
    header is at most that of a body. -/
def Understood (c : ResponseCall) (prior : Frame) : Prop :=
  ∃ frame r copies, c.make prior = .ok frame [] ∧ responseParse frame = .ok (some r) copies ∧
    r.header.statusCode = c.status ∧ ∀ n ∈ copies, n ≤ responseBodyLen

/-- The body fits the frame, the decoder has a case for the group and action, and
    the frame is not an error frame of an action that subtracts from `body_len`
    (`fixedPart` is positive for those, and an error frame writes no body). -/
structure ResponseCall.Decodable (c : ResponseCall) : Prop where
  fits : c.written ≤ responseBodyLen
  decodes : Decodes c.kind c.written

theorem ResponseCall.ids_le_written (c : ResponseCall) : 4 * c.ids.length ≤ c.written := by
  cases c <;> simp [ids, written]

/-- The header of a call whose body fits declares the real length. -/
theorem ResponseCall.header_lengths {c : ResponseCall} (hfit : c.written ≤ responseBodyLen) :
    c.header.bodyLen.toNat = c.written ∧ 4 * c.header.count.toNat ≤ responseBodyLen := by
  have hids := c.ids_le_written
  simp only [responseBodyLen, bufsiz, responseHeaderLen] at hfit ⊢
  simp only [header, UInt32.toNat_ofNat']
  omega

theorem ResponseCall.Decodable.of_understood {c : ResponseCall} {prior : Frame}
    (h : Understood c prior) : c.Decodable := by
  obtain ⟨frame, r, copies, hmake, hparse, -, hcopies⟩ := h
  have hfit := ResponseCall.written_le_of_make hmake
  obtain ⟨hlen, hcount⟩ := ResponseCall.header_lengths hfit
  obtain ⟨m, hmake', hlaid⟩ := c.make_laid hfit prior
  rw [hmake] at hmake'
  cases hmake'
  rw [responseParse_of_headerAt hlaid.header] at hparse
  obtain ⟨b, hbody, hsome⟩ := Access.bind_pure_eq_ok hparse
  cases b with
  | none => cases hsome
  | some b =>
    have hdecodes := (responseParseBody_accepts_iff (by rw [hlen]; exact hfit) hcount).mp
      ⟨b, copies, hbody, hcopies⟩
    rw [hlen] at hdecodes
    exact ⟨hfit, hdecodes⟩

theorem ResponseCall.Decodable.understood {c : ResponseCall} (hc : c.Decodable) (prior : Frame) :
    Understood c prior := by
  obtain ⟨hfit, hdecodes⟩ := hc
  obtain ⟨hlen, hcount⟩ := ResponseCall.header_lengths hfit
  obtain ⟨m, hmake, hlaid⟩ := c.make_laid hfit prior
  obtain ⟨b, copies, hbody, hcopies⟩ :=
    (responseParseBody_accepts_iff (m := m) (by rw [hlen]; exact hfit) hcount).mpr
      (by rw [hlen]; exact hdecodes)
  refine ⟨m, ⟨c.header, b⟩, copies, hmake, ?_, rfl, hcopies⟩
  rw [responseParse_of_headerAt hlaid.header, hbody]
  simp

/-- **Which frames the client understands.** Over any old buffer, the frame of a
    call is understood exactly when the call is decodable. -/
theorem understood_iff (c : ResponseCall) (prior : Frame) :
    Understood c prior ↔ c.Decodable :=
  ⟨.of_understood, fun hc => hc.understood prior⟩

/-- The decoder has no case for the answer to a successful join, and reads the
    refusal of a join (group 2, action 4) as a name of `0 - 4` bytes. -/
theorem convJoin_not_understood :
    ¬ Understood (.convJoin 200) (fun _ => 0) ∧ ¬ Understood (.err 403 2 4) (fun _ => 0) := by
  constructor
  · intro h
    have hknown := (ResponseCall.Decodable.of_understood h).decodes.known
    exact absurd hknown (by decide)
  · intro h
    have hcovered := (ResponseCall.Decodable.of_understood h).decodes.covered
    exact absurd hcovered (by decide)

end MeshChat
