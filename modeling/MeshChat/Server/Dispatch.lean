import MeshChat.Server.Change
import MeshChat.Wire.ParseBounds

/-! # Every parsed request has a handler

    `request_parse` and the switch of `handle_req` are two tables over the same group
    and action bytes, written by hand.

    * `Request.Accepted`: the requests that `request_parse` makes of some frame.
    * `Route.Complete`: the texts that a handler reads were filled in by the parser.
    * `Request.Accepted.route`: each of them has a case in the switch, with all texts
      it needs.
-/

namespace MeshChat

open CMemory

/-- The parser makes the request of some frame. -/
def Request.Accepted (r : Request) : Prop := ∃ buf copies, requestParse buf = .ok (some r) copies

/-- The texts that the handler uses are not `NULL`. -/
def Route.Complete : Route → Prop
  | authRegister r => r.uname.isSome ∧ r.password.isSome ∧ r.phone.isSome ∧ r.email.isSome
  | authLogin r => r.uname.isSome ∧ r.password.isSome
  | userSearch r => r.uname.isSome
  | convCreate r => r.gname.isSome
  | msgSend r => r.msgContent.isSome
  | _ => True

/-! ## The parsers of the groups -/

section Parsers

variable {header : RequestHeader} {buf : Frame} {b : RequestBody} {l : List Nat}

theorem requestParseAuth_body (h : requestParseAuth header buf = .ok (some b) l) :
    ∃ r, b = .auth r ∧ r.uname.isSome ∧ r.password.isSome ∧
      (header.action = 0 ∧ r.phone.isSome ∧ r.email.isSome ∨ header.action = 1) := by
  unfold requestParseAuth at h
  dsimp only at h
  obtain ⟨copied, _, h⟩ := Access.bind_eq_ok h
  obtain ⟨⟨arr₁, rest₁⟩, _, h⟩ := Access.bind_eq_ok h
  obtain ⟨⟨arr₂, rest₂⟩, _, h⟩ := Access.bind_eq_ok h
  obtain ⟨uname, _, h⟩ := Access.bind_eq_ok h
  obtain ⟨password, _, h⟩ := Access.bind_eq_ok h
  split at h
  · rename_i haction
    obtain ⟨⟨arr₃, rest₃⟩, _, h⟩ := Access.bind_eq_ok h
    obtain ⟨⟨arr₄, rest₄⟩, _, h⟩ := Access.bind_eq_ok h
    obtain ⟨_, _, h⟩ := Access.bind_eq_ok h
    obtain ⟨_, _, h⟩ := Access.bind_eq_ok h
    obtain ⟨_, _, h⟩ := Access.bind_eq_ok h
    split at h
    · cases h
    split at h
    · obtain ⟨phone, _, h⟩ := Access.bind_eq_ok h
      obtain ⟨email, _, h⟩ := Access.bind_eq_ok h
      cases h
      exact ⟨_, rfl, rfl, rfl, Or.inl ⟨haction, rfl, rfl⟩⟩
    · cases h
  split at h
  · cases h
  · rename_i haction
    cases h
    exact ⟨_, rfl, rfl, rfl, Or.inr (not_not.mp haction)⟩

theorem requestParseUser_body (h : requestParseUser header buf = .ok (some b) l) :
    ∃ r, b = .user r ∧
      (header.action = 0 ∨ header.action = 1 ∨ header.action = 2 ∧ r.uname.isSome) := by
  unfold requestParseUser at h
  split at h
  · rename_i haction
    cases h
    exact ⟨_, rfl, Or.inl haction⟩
  split at h
  · rename_i haction
    obtain ⟨userId, _, h⟩ := Access.bind_eq_ok h
    cases h
    exact ⟨_, rfl, Or.inr (Or.inl haction)⟩
  split at h
  · rename_i haction
    obtain ⟨uname, _, h⟩ := Access.bind_eq_ok h
    cases h
    exact ⟨_, rfl, Or.inr (Or.inr ⟨haction, rfl⟩)⟩
  · cases h

theorem requestParseConv_body (h : requestParseConv header buf = .ok (some b) l) :
    ∃ r, b = .conv r ∧ (header.action = 0 ∧ r.gname.isSome ∨
      (header.action = 1 ∨ header.action = 4 ∨ header.action = 5) ∨
      (header.action = 2 ∨ header.action = 3) ∨ header.action = 6) := by
  unfold requestParseConv at h
  split at h
  · rename_i haction
    obtain ⟨gname, _, h⟩ := Access.bind_eq_ok h
    cases h
    exact ⟨_, rfl, Or.inl ⟨haction, rfl⟩⟩
  split at h
  · rename_i haction
    obtain ⟨convId, _, h⟩ := Access.bind_eq_ok h
    cases h
    exact ⟨_, rfl, Or.inr (Or.inl haction)⟩
  split at h
  · rename_i haction
    obtain ⟨convId, _, h⟩ := Access.bind_eq_ok h
    obtain ⟨userId, _, h⟩ := Access.bind_eq_ok h
    cases h
    exact ⟨_, rfl, Or.inr (Or.inr (Or.inl haction))⟩
  split at h
  · rename_i haction
    cases h
    exact ⟨_, rfl, Or.inr (Or.inr (Or.inr haction))⟩
  · cases h

theorem requestParseChat_body (h : requestParseChat header buf = .ok (some b) l) :
    ∃ r, b = .chat r ∧
      (header.action = 0 ∨ (header.action = 1 ∨ header.action = 3) ∨ header.action = 2) := by
  unfold requestParseChat at h
  split at h
  · rename_i haction
    obtain ⟨userId2, _, h⟩ := Access.bind_eq_ok h
    cases h
    exact ⟨_, rfl, Or.inl haction⟩
  split at h
  · rename_i haction
    obtain ⟨chatId, _, h⟩ := Access.bind_eq_ok h
    cases h
    exact ⟨_, rfl, Or.inr (Or.inl haction)⟩
  split at h
  · rename_i haction
    cases h
    exact ⟨_, rfl, Or.inr (Or.inr haction)⟩
  · cases h

theorem requestParseMsg_body (h : requestParseMsg header buf = .ok (some b) l) :
    ∃ r, b = .msg r ∧ ((header.action = 0 ∨ header.action = 5) ∨
      (header.action = 1 ∨ header.action = 3) ∨ header.action = 2 ∧ r.msgContent.isSome ∨
      header.action = 4 ∨ header.action = 6) := by
  unfold requestParseMsg at h
  split at h
  · rename_i haction
    obtain ⟨convId, _, h⟩ := Access.bind_eq_ok h
    obtain ⟨chatId, _, h⟩ := Access.bind_eq_ok h
    cases h
    exact ⟨_, rfl, Or.inl haction⟩
  split at h
  · rename_i haction
    obtain ⟨msgId, _, h⟩ := Access.bind_eq_ok h
    cases h
    exact ⟨_, rfl, Or.inr (Or.inl haction)⟩
  split at h
  · rename_i haction
    obtain ⟨convId, _, h⟩ := Access.bind_eq_ok h
    obtain ⟨chatId, _, h⟩ := Access.bind_eq_ok h
    obtain ⟨replyId, _, h⟩ := Access.bind_eq_ok h
    obtain ⟨text, _, h⟩ := Access.bind_eq_ok h
    cases h
    exact ⟨_, rfl, Or.inr (Or.inr (Or.inl ⟨haction, rfl⟩))⟩
  split at h
  · rename_i haction
    cases h
    exact ⟨_, rfl, Or.inr (Or.inr (Or.inr (Or.inl haction)))⟩
  split at h
  · rename_i haction
    obtain ⟨msgId, _, h⟩ := Access.bind_eq_ok h
    cases h
    exact ⟨_, rfl, Or.inr (Or.inr (Or.inr (Or.inr haction)))⟩
  · cases h

end Parsers

/-! ## The two tables agree -/

theorem Request.Accepted.route {r : Request} (h : r.Accepted) :
    ∃ route, r.route = some route ∧ route.Complete := by
  obtain ⟨buf, copies, hparse⟩ := h
  rw [requestParse_eq] at hparse
  obtain ⟨body, hbody, hsome⟩ := Access.bind_pure_eq_ok hparse
  obtain ⟨b, rfl, rfl⟩ := Option.map_eq_some_iff.mp hsome
  generalize headerOf buf = header at hbody
  unfold requestParseBody at hbody
  split at hbody
  · rename_i hgroup
    obtain ⟨r, rfl, huname, hpassword, ⟨haction, hphone, hemail⟩ | haction⟩ :=
      requestParseAuth_body hbody
    · exact ⟨.authRegister r, by simp [Request.route, hgroup, haction],
        huname, hpassword, hphone, hemail⟩
    · exact ⟨.authLogin r, by simp [Request.route, hgroup, haction], huname, hpassword⟩
  split at hbody
  · rename_i hgroup
    obtain ⟨r, rfl, haction | haction | ⟨haction, huname⟩⟩ := requestParseUser_body hbody
    · exact ⟨.userLogout, by simp [Request.route, hgroup, haction], trivial⟩
    · exact ⟨.userGetInfo r, by simp [Request.route, hgroup, haction], trivial⟩
    · exact ⟨.userSearch r, by simp [Request.route, hgroup, haction], huname⟩
  split at hbody
  · rename_i hgroup
    obtain ⟨r, rfl, ⟨haction, hgname⟩ | (haction | haction | haction) | (haction | haction) |
      haction⟩ := requestParseConv_body hbody
    · exact ⟨.convCreate r, by simp [Request.route, hgroup, haction], hgname⟩
    · exact ⟨.convDrop r, by simp [Request.route, hgroup, haction], trivial⟩
    · exact ⟨.convGetInfo r, by simp [Request.route, hgroup, haction], trivial⟩
    · exact ⟨.convGetMembers r, by simp [Request.route, hgroup, haction], trivial⟩
    · exact ⟨.convJoin r, by simp [Request.route, hgroup, haction], trivial⟩
    · exact ⟨.convQuit r, by simp [Request.route, hgroup, haction], trivial⟩
    · exact ⟨.convGetList, by simp [Request.route, hgroup, haction], trivial⟩
  split at hbody
  · rename_i hgroup
    obtain ⟨r, rfl, haction | (haction | haction) | haction⟩ := requestParseChat_body hbody
    · exact ⟨.chatCreate r, by simp [Request.route, hgroup, haction], trivial⟩
    · exact ⟨.chatDrop r, by simp [Request.route, hgroup, haction], trivial⟩
    · exact ⟨.chatGetInfo r, by simp [Request.route, hgroup, haction], trivial⟩
    · exact ⟨.chatGetList, by simp [Request.route, hgroup, haction], trivial⟩
  split at hbody
  · rename_i hgroup
    obtain ⟨r, rfl, (haction | haction) | (haction | haction) | ⟨haction, hcontent⟩ | haction |
      haction⟩ := requestParseMsg_body hbody
    · exact ⟨.msgGetAll r, by simp [Request.route, hgroup, haction], trivial⟩
    · exact ⟨.notifyDelMsg r, by simp [Request.route, hgroup, haction], trivial⟩
    · exact ⟨.msgGetDetail r, by simp [Request.route, hgroup, haction], trivial⟩
    · exact ⟨.msgDelete r, by simp [Request.route, hgroup, haction], trivial⟩
    · exact ⟨.msgSend r, by simp [Request.route, hgroup, haction], hcontent⟩
    · exact ⟨.notifyNewMsg, by simp [Request.route, hgroup, haction], trivial⟩
    · exact ⟨.msgDownloadFile r, by simp [Request.route, hgroup, haction], trivial⟩
  · cases hbody

end MeshChat
