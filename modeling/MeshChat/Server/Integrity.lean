import MeshChat.Lib.Rounds
import MeshChat.Server.Delivery

/-! # References between the tables

    * `refs_exist`: every reference names a row, as long as what is done while
      foreign keys are off would have been allowed with them on.
    * `messages_placed`: without restarts, every message is attached to the rooms that
      the request which inserted it named, of which there is at least one, and what it
      answers exists.
-/

namespace MeshChat

open CMemory SqlLex Prog

variable {log : List Served} {c : Conn}

/-! ## Cascades -/

/-- One round of the cascade on sets of ids. -/
def replyRound (ms : List MsgRow) (s : Finset Nat) : Finset Nat :=
  s ∪ ((ms.filter fun m => m.replyTo.any (· ∈ s)).map (·.id)).toFinset

theorem withReplies_toFinset (ms : List MsgRow) (gone : List Nat) :
    (withReplies ms gone).toFinset = replyRound ms gone.toFinset := by
  simp [withReplies, replyRound]

theorem iterate_withReplies_toFinset (ms : List MsgRow) (gone : List Nat) (n : Nat) :
    ((withReplies ms)^[n] gone).toFinset = (replyRound ms)^[n] gone.toFinset := by
  induction n with
  | zero => rfl
  | succ n ih =>
    rw [Function.iterate_succ_apply', Function.iterate_succ_apply', withReplies_toFinset, ih]

/-- The cascade has come to rest: whatever answers a deleted message is deleted. -/
theorem closeReplies_closed {ms : List MsgRow} {gone : List Nat} {m : MsgRow} {k : Nat}
    (hm : m ∈ ms) (hreply : m.replyTo = some k) (hk : k ∈ closeReplies ms gone) :
    m.id ∈ closeReplies ms gone := by
  have hcard : ((ms.map (·.id)).toFinset).card ≤ ms.length := by
    calc ((ms.map (·.id)).toFinset).card ≤ (ms.map (·.id)).length := List.toFinset_card_le _
      _ = ms.length := List.length_map ..
  -- as many rounds as there are messages: one that adds nothing is among them
  have hrest := Rounds.iterate_card_fixed (f := replyRound ms) (B := (ms.map (·.id)).toFinset)
    (fun _ => Finset.subset_union_left)
    (fun s => Finset.union_subset_union_right (by
      intro i hi
      simp only [List.mem_toFinset, List.mem_map, List.mem_filter] at hi ⊢
      obtain ⟨m, ⟨hm, -⟩, rfl⟩ := hi
      exact ⟨m, hm, rfl⟩)) gone.toFinset hcard
  rw [← List.mem_toFinset] at hk ⊢
  unfold closeReplies at hk ⊢
  rw [iterate_withReplies_toFinset] at hk ⊢
  rw [← hrest]
  refine Finset.mem_union_right _ ?_
  simp only [List.mem_toFinset, List.mem_map, List.mem_filter]
  exact ⟨m, ⟨hm, by simp [hreply, hk]⟩, rfl⟩

theorem subset_closeReplies {ms : List MsgRow} {gone : List Nat} {i : Nat} (h : i ∈ gone) :
    i ∈ closeReplies ms gone := by
  unfold closeReplies
  induction ms.length with
  | zero => exact h
  | succ n ih =>
    rw [Function.iterate_succ_apply']
    exact List.mem_append_left _ ih

/-- What is deleted is deleted. -/
theorem not_of_mem_removeMessages {fk : Bool} {p : MsgRow → Bool} {ms : List MsgRow} {m : MsgRow}
    (h : m ∈ removeMessages fk p ms) : m ∈ ms ∧ p m = false := by
  refine ⟨(removeMessages_sublist fk p ms).subset h, ?_⟩
  unfold removeMessages at h
  split at h
  · obtain ⟨hm, hkept⟩ := List.mem_filter.mp h
    -- the cascade starts with the rows that are deleted themselves
    by_contra hp
    refine absurd (subset_closeReplies ?_) (of_decide_eq_true hkept)
    exact List.mem_map.mpr ⟨m, List.mem_filter.mpr ⟨hm, by simpa using hp⟩, rfl⟩
  · simpa using (List.mem_filter.mp h).2

/-- Every message that is answered is there. -/
def RepliesIn (ms : List MsgRow) : Prop :=
  ∀ m ∈ ms, ∀ k, m.replyTo = some k → ∃ m' ∈ ms, m'.id = k

/-- With foreign keys on, a deletion leaves no answer behind. With them off, there
    must be none from outside. -/
theorem RepliesIn.removeMessages {ms : List MsgRow} (h : RepliesIn ms) {fk : Bool}
    {p : MsgRow → Bool}
    (hoff : fk = false → ∀ m ∈ ms, p m = false → ∀ k, m.replyTo = some k →
      ∀ m' ∈ ms, m'.id = k → p m' = false) : RepliesIn (removeMessages fk p ms) := by
  intro m hm k hk
  obtain ⟨hms, hp⟩ := not_of_mem_removeMessages hm
  obtain ⟨m', hm', hid⟩ := h m hms k hk
  refine ⟨m', ?_, hid⟩
  cases fk with
  | false =>
    have hkept := hoff rfl m hms hp k hk m' hm' hid
    exact List.mem_filter.mpr ⟨hm', by simp [hkept]⟩
  | true =>
    -- if the answered message went, the cascade would have taken this one too
    refine List.mem_filter.mpr ⟨hm', decide_eq_true fun hgone => ?_⟩
    rw [hid] at hgone
    exact of_decide_eq_true (List.mem_filter.mp hm).2 (closeReplies_closed hms hk hgone)

/-- Nothing outside `p` answers a message in `p`. -/
def Db.NoReplyInto (db : Db) (p : MsgRow → Bool) : Prop :=
  ∀ m ∈ db.messages, p m = false → ∀ k, m.replyTo = some k →
    ∀ m' ∈ db.messages, m'.id = k → p m' = false

namespace Db

variable {db : Db} {fk : Bool} {id : Nat}

theorem dropConv_repliesIn (h : RepliesIn db.messages)
    (hoff : fk = false → db.NoReplyInto (·.convId = some id)) :
    RepliesIn (db.dropConv fk id).messages := by
  have hfirst := h.removeMessages hoff
  cases fk with
  | false => exact hfirst
  | true =>
    rw [dropConv_messages_true]
    exact hfirst.removeMessages (by simp)

theorem dropChat_repliesIn (h : RepliesIn db.messages)
    (hoff : fk = false → db.NoReplyInto (·.chatId = some id)) :
    RepliesIn (db.dropChat fk id).messages := by
  have hfirst := h.removeMessages hoff
  cases fk with
  | false => exact hfirst
  | true =>
    rw [dropChat_messages_true]
    exact hfirst.removeMessages (by simp)

theorem mem_dropConv_messages {m : MsgRow} (h : m ∈ (db.dropConv fk id).messages) :
    m ∈ db.messages ∧ m.convId ≠ some id := by
  have hfirst : m ∈ removeMessages fk (·.convId = some id) db.messages := by
    cases fk with
    | false => exact h
    | true =>
      rw [dropConv_messages_true] at h
      exact (not_of_mem_removeMessages h).1
  obtain ⟨hm, hkept⟩ := not_of_mem_removeMessages hfirst
  exact ⟨hm, by simpa using hkept⟩

theorem mem_dropChat_messages {m : MsgRow} (h : m ∈ (db.dropChat fk id).messages) :
    m ∈ db.messages ∧ m.chatId ≠ some id := by
  have hfirst : m ∈ removeMessages fk (·.chatId = some id) db.messages := by
    cases fk with
    | false => exact h
    | true =>
      rw [dropChat_messages_true] at h
      exact (not_of_mem_removeMessages h).1
  obtain ⟨hm, hkept⟩ := not_of_mem_removeMessages hfirst
  exact ⟨hm, by simpa using hkept⟩

end Db

/-! ## References -/

/-- Every reference names an existing row. -/
structure RefsExist (db : Db) : Prop where
  member_conv : ∀ m ∈ db.members, ∃ r ∈ db.conversations, r.id = m.convId
  member_user : ∀ m ∈ db.members, ∃ u ∈ db.users, u.id = m.userId
  chat_users : ∀ r ∈ db.chats, (∃ u ∈ db.users, u.id = r.member1) ∧ ∃ u ∈ db.users, u.id = r.member2
  msg_from : ∀ m ∈ db.messages, ∃ u ∈ db.users, u.id = m.fromUid
  msg_reply : RepliesIn db.messages
  msg_chat : ∀ m ∈ db.messages, ∀ k, m.chatId = some k → ∃ r ∈ db.chats, r.id = k
  msg_conv : ∀ m ∈ db.messages, ∀ k, m.convId = some k → ∃ r ∈ db.conversations, r.id = k

/-- What a request does while foreign keys are off is what it could do with them on:
    a member takes an existing user in, and a room is dropped that nothing outside
    refers to. -/
def Served.Enforced (e : Served) : Prop :=
  e.pre.fk = false →
    match e.route with
    | some (.convJoin rconv) => e.pre.db.ConvMember rconv.convId.toNat e.user →
        ∃ u ∈ e.pre.db.users, u.id = rconv.userId.toNat
    | some (.convDrop rconv) => e.pre.db.ConvAdmin rconv.convId.toNat e.user →
        e.pre.db.NoReplyInto (·.convId = some rconv.convId.toNat)
    | some (.chatDrop rchat) => e.pre.db.ChatMember rchat.chatId.toNat e.user →
        e.pre.db.NoReplyInto (·.chatId = some rchat.chatId.toNat)
    | _ => True

theorem Db.exists_of_hasUser {db : Db} {id : Nat} (h : db.hasUser id = true) :
    ∃ u ∈ db.users, u.id = id := by
  simpa [Db.hasUser] using h

/-- References to users outlive a new user. -/
theorem exists_snoc {α : Type} {l : List α} {p : α → Prop} (h : ∃ a ∈ l, p a) (b : α) :
    ∃ a ∈ l ++ [b], p a := by
  obtain ⟨a, ha, hp⟩ := h
  exact ⟨a, List.mem_append_left _ ha, hp⟩

theorem exists_filter {α : Type} {l : List α} {f : α → Nat} {k n : Nat} (h : ∃ a ∈ l, f a = k)
    (hne : k ≠ n) : ∃ a ∈ l.filter (f · ≠ n), f a = k := by
  obtain ⟨a, ha, rfl⟩ := h
  exact ⟨a, List.mem_filter.mpr ⟨ha, by simpa using hne⟩, rfl⟩

namespace RefsExist

theorem empty : RefsExist {} where
  member_conv := by simp
  member_user := by simp
  chat_users := by simp
  msg_from := by simp
  msg_reply := by simp [RepliesIn]
  msg_chat := by simp
  msg_conv := by simp

variable {db : Db}

theorem registered (h : RefsExist db) (u : UserRow) :
    RefsExist { db with users := db.users ++ [u] } where
  member_conv := h.member_conv
  member_user m hm := exists_snoc (h.member_user m hm) u
  chat_users r hr := ⟨exists_snoc (h.chat_users r hr).1 u, exists_snoc (h.chat_users r hr).2 u⟩
  msg_from m hm := exists_snoc (h.msg_from m hm) u
  msg_reply := h.msg_reply
  msg_chat := h.msg_chat
  msg_conv := h.msg_conv

theorem convCreated (h : RefsExist db) (r : ConvRow) :
    RefsExist { db with conversations := db.conversations ++ [r] } where
  member_conv m hm := exists_snoc (h.member_conv m hm) r
  member_user := h.member_user
  chat_users := h.chat_users
  msg_from := h.msg_from
  msg_reply := h.msg_reply
  msg_chat := h.msg_chat
  msg_conv m hm k hk := exists_snoc (h.msg_conv m hm k hk) r

theorem memberAdded (h : RefsExist db) {m : MemberRow} (hconv : ∃ r ∈ db.conversations, r.id = m.convId)
    (huser : ∃ u ∈ db.users, u.id = m.userId) :
    RefsExist { db with members := db.members ++ [m] } where
  member_conv := by
    intro m' hm'
    rcases List.mem_append.mp hm' with hm' | hm'
    · exact h.member_conv m' hm'
    · obtain rfl := List.mem_singleton.mp hm'
      exact hconv
  member_user := by
    intro m' hm'
    rcases List.mem_append.mp hm' with hm' | hm'
    · exact h.member_user m' hm'
    · obtain rfl := List.mem_singleton.mp hm'
      exact huser
  chat_users := h.chat_users
  msg_from := h.msg_from
  msg_reply := h.msg_reply
  msg_chat := h.msg_chat
  msg_conv := h.msg_conv

theorem chatCreated (h : RefsExist db) {r : ChatRow} (h1 : ∃ u ∈ db.users, u.id = r.member1)
    (h2 : ∃ u ∈ db.users, u.id = r.member2) :
    RefsExist { db with chats := db.chats ++ [r] } where
  member_conv := h.member_conv
  member_user := h.member_user
  chat_users := by
    intro r' hr'
    rcases List.mem_append.mp hr' with hr' | hr'
    · exact h.chat_users r' hr'
    · obtain rfl := List.mem_singleton.mp hr'
      exact ⟨h1, h2⟩
  msg_from := h.msg_from
  msg_reply := h.msg_reply
  msg_chat m hm k hk := exists_snoc (h.msg_chat m hm k hk) r
  msg_conv := h.msg_conv

theorem convDropped (h : RefsExist db) {fk : Bool} {id : Nat}
    (hoff : fk = false → db.NoReplyInto (·.convId = some id)) : RefsExist (db.dropConv fk id) where
  member_conv := by
    intro m hm
    rw [Db.dropConv_members] at hm
    obtain ⟨hm, hne⟩ := List.mem_filter.mp hm
    rw [Db.dropConv_conversations]
    exact exists_filter (h.member_conv m hm) (by simpa using hne)
  member_user := by
    intro m hm
    rw [Db.dropConv_members] at hm
    rw [Db.dropConv_users]
    exact h.member_user m (List.mem_filter.mp hm).1
  chat_users := by
    rw [Db.dropConv_chats, Db.dropConv_users]
    exact h.chat_users
  msg_from := by
    intro m hm
    rw [Db.dropConv_users]
    exact h.msg_from m (Db.mem_dropConv_messages hm).1
  msg_reply := Db.dropConv_repliesIn h.msg_reply hoff
  msg_chat := by
    intro m hm k hk
    rw [Db.dropConv_chats]
    exact h.msg_chat m (Db.mem_dropConv_messages hm).1 k hk
  msg_conv := by
    intro m hm k hk
    obtain ⟨hm, hne⟩ := Db.mem_dropConv_messages hm
    rw [Db.dropConv_conversations]
    exact exists_filter (h.msg_conv m hm k hk) fun hkid => hne (hkid ▸ hk)

theorem chatDropped (h : RefsExist db) {fk : Bool} {id : Nat}
    (hoff : fk = false → db.NoReplyInto (·.chatId = some id)) : RefsExist (db.dropChat fk id) where
  member_conv := by
    rw [Db.dropChat_members, Db.dropChat_conversations]
    exact h.member_conv
  member_user := by
    rw [Db.dropChat_members, Db.dropChat_users]
    exact h.member_user
  chat_users := by
    intro r hr
    rw [Db.dropChat_chats] at hr
    rw [Db.dropChat_users]
    exact h.chat_users r (List.mem_filter.mp hr).1
  msg_from := by
    intro m hm
    rw [Db.dropChat_users]
    exact h.msg_from m (Db.mem_dropChat_messages hm).1
  msg_reply := Db.dropChat_repliesIn h.msg_reply hoff
  msg_chat := by
    intro m hm k hk
    obtain ⟨hm, hne⟩ := Db.mem_dropChat_messages hm
    rw [Db.dropChat_chats]
    exact exists_filter (h.msg_chat m hm k hk) fun hkid => hne (hkid ▸ hk)
  msg_conv := by
    intro m hm k hk
    rw [Db.dropChat_conversations]
    exact h.msg_conv m (Db.mem_dropChat_messages hm).1 k hk

theorem membersLeft (h : RefsExist db) (p : MemberRow → Bool) : RefsExist (db.deleteMembers p) where
  member_conv m hm := h.member_conv m (List.mem_filter.mp hm).1
  member_user m hm := h.member_user m (List.mem_filter.mp hm).1
  chat_users := h.chat_users
  msg_from := h.msg_from
  msg_reply := h.msg_reply
  msg_chat := h.msg_chat
  msg_conv := h.msg_conv

theorem msgSent (h : RefsExist db) {m : NewMsg} {db' : Db} {n : Nat}
    (hinsert : db.insertMessage true m = some (db', some n)) : RefsExist db' := by
  obtain ⟨hvalid, rfl⟩ := Db.insertRow_inv hinsert
  simp only [Bool.not_true, Bool.false_or, Bool.and_eq_true, Option.all_eq_true] at hvalid
  obtain ⟨⟨⟨hfrom, hreply⟩, hchat⟩, hconv⟩ := hvalid
  refine ⟨h.member_conv, h.member_user, h.chat_users, ?_, ?_, ?_, ?_⟩
  · intro m' hm'
    rcases List.mem_append.mp hm' with hm' | hm'
    · exact h.msg_from m' hm'
    · obtain rfl := List.mem_singleton.mp hm'
      exact Db.exists_of_hasUser hfrom
  · intro m' hm' k hk
    rcases List.mem_append.mp hm' with hm' | hm'
    · exact exists_snoc (h.msg_reply m' hm' k hk) _
    · obtain rfl := List.mem_singleton.mp hm'
      -- sqlite checks the new row against a table that holds it: it may answer itself
      rcases Bool.or_eq_true_iff.mp (hreply k hk) with hself | hother
      · exact ⟨_, List.mem_append_right _ (List.mem_singleton_self _), (of_decide_eq_true hself).symm⟩
      · exact exists_snoc (by simpa [Db.hasMsg] using hother) _
  · intro m' hm' k hk
    rcases List.mem_append.mp hm' with hm' | hm'
    · exact h.msg_chat m' hm' k hk
    · obtain rfl := List.mem_singleton.mp hm'
      simpa [Db.hasChat] using hchat k hk
  · intro m' hm' k hk
    rcases List.mem_append.mp hm' with hm' | hm'
    · exact h.msg_conv m' hm' k hk
    · obtain rfl := List.mem_singleton.mp hm'
      simpa [Db.hasConv] using hconv k hk

theorem msgUpdated (h : RefsExist db) {id : Nat} {f : MsgRow → MsgRow} (hf : MsgRow.Rewrites f) :
    RefsExist (db.updateMessage id f) := by
  -- an update keeps the ids, so what was answered still is there
  have hids : ∀ {k : Nat}, (∃ m ∈ db.messages, m.id = k) →
      ∃ m ∈ (db.updateMessage id f).messages, m.id = k := by
    intro k hk
    have hk' : k ∈ db.messages.map (·.id) := by simpa using hk
    rw [← Db.updateMessage_ids db id hf] at hk'
    simpa using hk'
  refine ⟨h.member_conv, h.member_user, h.chat_users, ?_, ?_, ?_, ?_⟩
  · intro n hn
    obtain ⟨m, hm, content, type, rfl⟩ := Db.mem_updateMessage hf hn
    exact h.msg_from m hm
  · intro n hn k hk
    obtain ⟨m, hm, content, type, rfl⟩ := Db.mem_updateMessage hf hn
    exact hids (h.msg_reply m hm k hk)
  · intro n hn k hk
    obtain ⟨m, hm, content, type, rfl⟩ := Db.mem_updateMessage hf hn
    exact h.msg_chat m hm k hk
  · intro n hn k hk
    obtain ⟨m, hm, content, type, rfl⟩ := Db.mem_updateMessage hf hn
    exact h.msg_conv m hm k hk

/-- References stay good under a request that is as if foreign keys were on. -/
theorem step {e : Served} (h : RefsExist e.pre.db) (heffect : e.Effective) (hon : e.Enforced) :
    RefsExist e.post.db := by
  rcases heffect with hsame | ⟨req, route, hreq, hroute, hchange⟩
  · rw [hsame]
    exact h
  have huser := Served.user_eq hreq
  cases hchange with
  | unchanged hdb =>
    rw [hdb]
    exact h
  | registered _ hinsert =>
    obtain ⟨-, hdb⟩ := Db.insertRow_inv hinsert
    rw [hdb]
    exact h.registered _
  | convCreated hcreates _ =>
    obtain ⟨-, db₁, n, hconv, hmember⟩ := hcreates
    obtain ⟨-, rfl⟩ := Db.insertRow_inv hconv
    obtain ⟨hvalid, hdb⟩ := Db.insertRow_inv hmember
    simp only [Bool.not_true, Bool.false_or, Bool.and_eq_true] at hvalid
    rw [hdb]
    exact (h.convCreated _).memberAdded (by simpa [Db.hasConv] using hvalid.2.1)
      (Db.exists_of_hasUser hvalid.2.2)
  | convDropped hadmin hdb =>
    rw [hdb]
    -- only without foreign keys is there something to be afraid of
    refine h.convDropped fun hoff => ?_
    have hclear := hon hoff
    rw [hroute] at hclear
    exact hclear (by rw [huser]; exact hadmin)
  | convJoined hmember hinsert =>
    obtain ⟨hvalid, hdb⟩ := Db.insertRow_inv hinsert
    rw [hdb]
    -- the conversation is there because the one who asks is in it; the user named is
    -- only checked by the foreign key
    obtain ⟨m, hm, hconv, -⟩ := id hmember
    refine h.memberAdded (by rw [← hconv]; exact h.member_conv m hm) ?_
    cases hfk : e.pre.fk with
    | true =>
      simp only [hfk, Bool.not_true, Bool.false_or, Bool.and_eq_true] at hvalid
      exact Db.exists_of_hasUser hvalid.2.2
    | false =>
      have hclear := hon hfk
      rw [hroute] at hclear
      exact hclear (by rw [huser]; exact hmember)
  | convQuit _ _ hdb =>
    rw [hdb]
    exact h.membersLeft _
  | chatCreated _ hinsert _ =>
    obtain ⟨hvalid, hdb⟩ := Db.insertRow_inv hinsert
    simp only [Bool.not_true, Bool.false_or, Bool.and_eq_true] at hvalid
    rw [hdb]
    exact h.chatCreated (Db.exists_of_hasUser hvalid.2.1) (Db.exists_of_hasUser hvalid.2.2)
  | chatDropped hmember hdb =>
    rw [hdb]
    refine h.chatDropped fun hoff => ?_
    have hclear := hon hoff
    rw [hroute] at hclear
    exact hclear (by rw [huser]; exact hmember)
  | msgSent _ _ _ _ _ hsends => exact h.msgSent hsends.2
  | msgDelivered _ _ _ hdb =>
    rw [hdb]
    exact h.msgUpdated rewrites_delivered
  | msgDeleted _ _ _ hdb =>
    rw [hdb]
    exact h.msgUpdated rewrites_deleted

end RefsExist

theorem Session.refsExist {restarts : Prop} (h : Session restarts log c)
    (hon : ∀ e ∈ log, e.Enforced) : RefsExist c.db := by
  refine h.induct (I := fun log c => (∀ e ∈ log, e.Enforced) → RefsExist c.db) ?_ ?_ ?_ hon
  · exact fun _ => .empty
  · intro log e _ heffect _ ih hon
    exact (ih fun e' he' => hon e' (List.mem_append_left _ he')).step heffect (hon e (by simp))
  · exact fun _ _ _ _ ih => ih

/-! ## Without restarts -/

/-- While there is a room, foreign keys are on: creating one has switched them on. -/
theorem Session.fk_of_room (h : Session False log c) :
    (c.db.conversations ≠ [] ∨ c.db.chats ≠ []) → c.fk = true := by
  refine h.induct (I := fun _ c => (c.db.conversations ≠ [] ∨ c.db.chats ≠ []) → c.fk = true)
    (by simp) ?_ (fun _ _ hno => hno.elim)
  rintro log e _ (hsame | ⟨req, route, -, -, hchange⟩) hsettled ih hroom
  · rw [hsame] at hroom
    exact hsettled.fk (ih hroom)
  -- a room that is there now was there before, or has just been created
  rcases hroom with hroom | hroom
  · rcases hchange.rooms with ⟨hc, -⟩ | ⟨_, _, _, -, hfk, -⟩ | ⟨_, -, -, hc, -⟩ |
      ⟨_, _, -, -, hc, -⟩ | ⟨_, -, -, -, hc, -⟩
    · exact hsettled.fk (ih (Or.inl (hc ▸ hroom)))
    · exact hfk
    · refine hsettled.fk (ih (Or.inl fun hnil => hroom ?_))
      rw [hc, hnil]
      rfl
    · exact hsettled.fk (ih (Or.inl (hc ▸ hroom)))
    · exact hsettled.fk (ih (Or.inl (hc ▸ hroom)))
  · rcases hchange.chats with hc | ⟨_, -, -, hfk, -⟩ | ⟨_, -, -, hc⟩
    · exact hsettled.fk (ih (Or.inr (hc ▸ hroom)))
    · exact hfk
    · refine hsettled.fk (ih (Or.inr fun hnil => hroom ?_))
      rw [hc, hnil]
      rfl

theorem Session.enforced (h : Session False log c) {e : Served} (he : e ∈ log) : e.Enforced := by
  intro hoff
  obtain ⟨env, log₀, hsession, -⟩ := h.handled he
  -- with foreign keys off there is no room to join or to drop
  have hnone : ∀ {p : Prop}, p → (p → e.pre.db.conversations ≠ [] ∨ e.pre.db.chats ≠ []) → False := by
    intro p hp hroom
    rw [hsession.fk_of_room (hroom hp)] at hoff
    cases hoff
  split
  · rintro hmember
    refine (hnone hmember ?_).elim
    rintro ⟨m, hm, -⟩
    obtain ⟨r, hr, -⟩ := hsession.inv.2.member_conv m hm
    exact Or.inl (List.ne_nil_of_mem hr)
  · rintro hadmin
    refine (hnone hadmin ?_).elim
    rintro ⟨r, hr, -⟩
    exact Or.inl (List.ne_nil_of_mem hr)
  · rintro hmember
    refine (hnone hmember ?_).elim
    rintro ⟨r, hr, -⟩
    exact Or.inr (List.ne_nil_of_mem hr)
  · trivial

/-! ## Across restarts -/

/-- References are good across restarts, as long as requests made with foreign keys
    off do nothing that foreign keys forbid. -/
theorem refs_exist (h : Session True log c) (hon : ∀ e ∈ log, e.Enforced) : RefsExist c.db :=
  h.refsExist hon

/-- A restart, and then member 1 takes the existing user 3 into conversation 1. -/
theorem refs_exist_lobby :
    ∃ log c, Session True log c ∧ (∀ e ∈ log, e.Enforced) ∧ c.fk = false ∧
      c.db.ConvMember 1 3 ∧ RefsExist c.db := by
  have hplay : (lobbyPlay []).any (fun x =>
      (Session.play 32 [(lobbyEnv, requestBy 1 2 2 (.conv { convId := 1, userId := 3 }))] x.1
        { db := x.2.db }).any fun y => decide (y.2.fk = false ∧ y.2.db.ConvMember 1 3 ∧
          ∀ e ∈ y.1, e ∈ x.1 ∨
            e.route = some (.convJoin { convId := 1, userId := 3 }) ∧
              ∃ u ∈ e.pre.db.users, u.id = 3)) = true := by
    rw [lobbyPlay_eq]
    decide
  obtain ⟨⟨log₀, c₀⟩, hrun₀, hrest⟩ := (Option.any_eq_true _ _).mp hplay
  obtain ⟨⟨log, c⟩, hrun, hfacts⟩ := (Option.any_eq_true _ _).mp hrest
  obtain ⟨hfk, hmember, hlog⟩ := of_decide_eq_true hfacts
  have hon : ∀ e ∈ log, e.Enforced := by
    intro e he
    rcases hlog e he with hold | ⟨hroute, huser⟩
    · exact (lobbyPlay_session hrun₀).enforced hold
    · intro _
      rw [hroute]
      exact fun _ => huser
  have hsession : Session True log c := Session.of_play (lobbyPlay_restarted hrun₀) hrun
  exact ⟨log, c, hsession, hon, hfk, hmember, refs_exist hsession hon⟩

/-- After a restart a member takes user 99 into the conversation, who does not exist. -/
theorem restart_admits_nobody : ∃ log c, Session True log c ∧ ¬ RefsExist c.db := by
  have hplay : (lobbyPlay []).any (fun x =>
      (Session.play 32 [(lobbyEnv, requestBy 1 2 2 (.conv { convId := 1, userId := 99 }))] x.1
        { db := x.2.db }).any fun y => decide (∃ m ∈ y.2.db.members,
          ∀ u ∈ y.2.db.users, u.id ≠ m.userId)) = true := by
    rw [lobbyPlay_eq]
    decide
  obtain ⟨⟨log₀, c₀⟩, hrun₀, hrest⟩ := (Option.any_eq_true _ _).mp hplay
  obtain ⟨⟨log, c⟩, hrun, hfacts⟩ := (Option.any_eq_true _ _).mp hrest
  obtain ⟨m, hm, hnobody⟩ := of_decide_eq_true hfacts
  refine ⟨log, c, Session.of_play (lobbyPlay_restarted hrun₀) hrun, fun hrefs => ?_⟩
  obtain ⟨u, hu, hid⟩ := hrefs.member_user m hm
  exact hnobody u hu hid

/-! ## Rooms and answers of a message -/

/-- Every message is in exactly one room and answers one of the same room. -/
def RoomCoherent (db : Db) : Prop :=
  ∀ m ∈ db.messages, (m.convId = none ↔ m.chatId ≠ none) ∧
    ∀ k, m.replyTo = some k →
      ∃ m' ∈ db.messages, m'.id = k ∧ m'.convId = m.convId ∧ m'.chatId = m.chatId

/-- The request inserted the message and named these rooms and this answer. -/
def Served.Sends (e : Served) (m : MsgRow) : Prop :=
  e.Inserts m ∧ ∃ rm, e.route = some (.msgSend rm) ∧ m.convId = nullable rm.convId ∧
    m.chatId = nullable rm.chatId ∧ m.replyTo = nullable rm.replyId

/-- The row that a request of the log has inserted is in these rooms still: it was there ever
    since, and only its text and its type may have changed. -/
def SentBy (log : List Served) (m : MsgRow) : Prop :=
  ∃ before e behind content type, log = before ++ e :: behind ∧
    e.Sends { m with content, type } ∧ ∀ e' ∈ behind, e'.post.db.HasMessage m.id

/-- The message has a room, its rooms are those that the request which inserted it
    named, and what it answers is there. -/
structure Placed (log : List Served) (db : Db) (m : MsgRow) : Prop where
  room : m.convId ≠ none ∨ m.chatId ≠ none
  sent : SentBy log m
  reply : ∀ k, m.replyTo = some k → ∃ m' ∈ db.messages, m'.id = k

theorem SentBy.snoc {m : MsgRow} (h : SentBy log m) {e : Served}
    (hstays : e.post.db.HasMessage m.id) : SentBy (log ++ [e]) m := by
  obtain ⟨before, e₀, behind, content, type, rfl, hsends, hbehind⟩ := h
  refine ⟨before, e₀, behind ++ [e], content, type, by simp, hsends, fun e' he' => ?_⟩
  rcases List.mem_append.mp he' with he' | he'
  · exact hbehind e' he'
  · obtain rfl := List.mem_singleton.mp he'
    exact hstays

/-- All but the last: what is fixed when the message is sent. -/
def SentInto (log : List Served) (m : MsgRow) : Prop :=
  (m.convId ≠ none ∨ m.chatId ≠ none) ∧ SentBy log m

theorem SentInto.snoc {m : MsgRow} (h : SentInto log m) {e : Served}
    (hstays : e.post.db.HasMessage m.id) : SentInto (log ++ [e]) m :=
  ⟨h.1, h.2.snoc hstays⟩

theorem nullable_ne_none {n : UInt32} (h : n ≠ 0) : nullable n ≠ none := by
  rw [nullable, if_neg h]
  simp

theorem sentInto_step {e : Served} (hids : RoomIds e.pre.db) (heffect : e.Effective)
    (h : ∀ m ∈ e.pre.db.messages, SentInto log m) :
    ∀ m ∈ e.post.db.messages, SentInto (log ++ [e]) m := by
  intro m hm
  have hstays : e.post.db.HasMessage m.id := ⟨m, hm, rfl⟩
  rcases heffect with hsame | ⟨req, route, hreq, hroute, hchange⟩
  · rw [hsame] at hm
    exact (h m hm).snoc hstays
  rcases hchange.messages with ⟨-, hsub⟩ | hsame |
    ⟨rm, msg, now, rfl, hroom, -, hreply, hconv, hchat, hadd⟩ | ⟨_, _, -, -, -, hupdate⟩
  · exact (h m (hsub.subset hm)).snoc hstays
  · rw [hsame] at hm
    exact (h m hm).snoc hstays
  · have hpost := hm
    rw [hadd] at hm
    rcases List.mem_append.mp hm with hm | hm
    · exact (h m hm).snoc hstays
    obtain rfl := List.mem_singleton.mp hm
    have hcv : nullable msg.convId = nullable rm.convId := by rw [hconv]
    have hch : nullable msg.chatId = nullable rm.chatId := by rw [hchat]
    have hrp : nullable msg.replyTo = nullable rm.replyId := by rw [hreply]
    have hnew : e.Inserts ((MsgSchema.newMsg msg now).row e.pre.db.nextMsg) := by
      refine ⟨hpost, ?_⟩
      rintro ⟨m', hm', hid⟩
      exact absurd hid (lt_nextId (List.mem_map_of_mem hm')).ne
    refine ⟨?_, log, e, [], _, _, rfl, ⟨hnew, rm, hroute, hcv, hch, hrp⟩, by simp⟩
    -- the guard has found a member of a room, and room 0 has none
    rcases hroom with hroom | hroom
    · refine Or.inl (fun hnone => ?_)
      refine nullable_ne_none (n := rm.convId) ?_ (hcv.symm.trans hnone)
      intro hzero
      rw [hzero] at hroom
      exact hids.not_convMember_zero _ hroom
    · refine Or.inr (fun hnone => ?_)
      refine nullable_ne_none (n := rm.chatId) ?_ (hch.symm.trans hnone)
      intro hzero
      rw [hzero] at hroom
      exact hids.not_chatMember_zero _ hroom
  -- updates leave rooms and answers alone
  · obtain ⟨f, hf, hdb⟩ := Change.update_cases hupdate
    rw [hdb] at hm
    obtain ⟨m', hm', content, type, rfl⟩ := Db.mem_updateMessage hf hm
    exact (h m' hm').snoc hstays

/-- Every message is in the rooms that the request which inserted it named, at least one,
    and answers a message that is there. -/
theorem messages_placed (h : Session False log c) : ∀ m ∈ c.db.messages, Placed log c.db m := by
  intro m hm
  have hsent : ∀ m ∈ c.db.messages, SentInto log m :=
    h.induct (I := fun log c => ∀ m ∈ c.db.messages, SentInto log m) (by simp)
      (fun _ _ hprev heffect _ ih => sentInto_step hprev.inv.2 heffect ih) (fun _ _ _ _ ih => ih)
  obtain ⟨hroom, hnamed⟩ := hsent m hm
  exact ⟨hroom, hnamed, (h.refsExist fun e he => h.enforced he).msg_reply m hm⟩

/-- A message for chat 1 that answers message 2, which is there. -/
def replyInChat : RequestMsgBody where
  chatId := 1
  replyId := 2
  msgContent := some (.ofBytes (ascii "ok"))

/-- A message for chat 1 that answers message 1 of the conversation. -/
def replyAcross : RequestMsgBody where
  chatId := 1
  replyId := 1
  msgContent := some (.ofBytes (ascii "eh"))

/-- A message for both rooms of user 2. -/
def toBoth : RequestMsgBody where
  convId := 1
  chatId := 1
  msgContent := some (.ofBytes (ascii "hey"))

/-- User 2 answers message 2 in chat 1. -/
theorem messages_placed_lobby :
    ∃ log c, Session False log c ∧ (∃ m ∈ c.db.messages, m.replyTo = some 2) ∧
      ∀ m ∈ c.db.messages, Placed log c.db m := by
  have hplay : (lobbyPlay [requestBy 2 4 2 (.msg replyInChat)]).any (fun x =>
      decide (∃ m ∈ x.2.db.messages, m.replyTo = some 2)) = true := by
    rw [lobbyPlay_eq]
    decide +kernel
  obtain ⟨⟨log, c⟩, hrun, hfacts⟩ := (Option.any_eq_true _ _).mp hplay
  exact ⟨log, c, lobbyPlay_session hrun, of_decide_eq_true hfacts,
    messages_placed (lobbyPlay_session hrun)⟩

/-- User 2, a member of conversation 1 and of chat 1, sends one message to both, and
    another one to the chat that answers message 1 of the conversation. -/
theorem twoRooms_not_coherent :
    ∃ log c, Session False log c ∧
      (∃ m ∈ c.db.messages, m.convId = some 1 ∧ m.chatId = some 1) ∧
      (∃ m ∈ c.db.messages, m.chatId = some 1 ∧ m.replyTo = some 1) ∧
      (∀ m ∈ c.db.messages, m.id = 1 → m.chatId = none) ∧ ¬ RoomCoherent c.db := by
  have hplay : (lobbyPlay [requestBy 2 4 2 (.msg toBoth),
      requestBy 2 4 2 (.msg replyAcross)]).any (fun x =>
      decide ((∃ m ∈ x.2.db.messages, m.convId = some 1 ∧ m.chatId = some 1) ∧
        (∃ m ∈ x.2.db.messages, m.chatId = some 1 ∧ m.replyTo = some 1) ∧
        ∀ m ∈ x.2.db.messages, m.id = 1 → m.chatId = none)) = true := by
    rw [lobbyPlay_eq]
    decide +kernel
  obtain ⟨⟨log, c⟩, hrun, hfacts⟩ := (Option.any_eq_true _ _).mp hplay
  obtain ⟨hboth, hacross, hfirst⟩ := of_decide_eq_true hfacts
  -- a message in two rooms is enough
  refine ⟨log, c, lobbyPlay_session hrun, hboth, hacross, hfirst, fun hcoherent => ?_⟩
  obtain ⟨m, hm, hconv, hchat⟩ := hboth
  have hone := (hcoherent m hm).1
  rw [hconv, hchat] at hone
  exact absurd (hone.mpr (by simp)) (by simp)

end MeshChat
