import MeshChat.Server.Session

/-! # Who reads and writes messages

    * `message_requests_respect`: requests that name a message, and the lists of new
      and deleted messages, are for members of the message's conversation or chat.
    * `room_requests_respect`: requests that name a room respect its membership when
      the two rooms they can name agree on it. The guard asks for one of them, the
      query and the insert use the other.
-/

namespace MeshChat

open CMemory SqlLex Prog

variable {log : List Served} {c : Conn}

/-! ## Rooms of a message -/

/-- A member of the message's conversation or of its chat. -/
def Db.InRoomOf (db : Db) (m : MsgRow) (userId : Nat) : Prop :=
  (∃ k, m.convId = some k ∧ db.ConvMember k userId) ∨
    ∃ k, m.chatId = some k ∧ db.ChatMember k userId

/-- A member of every room the message is attached to. -/
def Db.InAllRoomsOf (db : Db) (m : MsgRow) (userId : Nat) : Prop :=
  (∀ k, m.convId = some k → db.ConvMember k userId) ∧
    ∀ k, m.chatId = some k → db.ChatMember k userId

instance (db : Db) (m : MsgRow) (userId : Nat) : Decidable (db.InRoomOf m userId) :=
  decidable_of_iff (m.convId.any (fun k => db.ConvMember k userId) ∨
      m.chatId.any (fun k => db.ChatMember k userId))
    (by simp [Db.InRoomOf, Option.any_eq_true])

instance (db : Db) (m : MsgRow) (userId : Nat) : Decidable (db.InAllRoomsOf m userId) :=
  inferInstanceAs (Decidable ((∀ k ∈ m.convId, db.ConvMember k userId) ∧
    ∀ k ∈ m.chatId, db.ChatMember k userId))

/-- The id of a message on the wire. -/
def MsgRow.wireId (m : MsgRow) : UInt32 := UInt32.ofNat m.id

theorem columnInt_toNat {k : Nat} (h : k < 2 ^ 32) : (Val.int k).columnInt.toNat = k := by
  rw [Val.columnInt_natCast, UInt32.toNat_ofNat']
  exact Nat.mod_eq_of_lt h

/-- `NULL` is read as room 0, which nobody is a member of. -/
theorem RoomIds.inRoomOf_of_readable {db : Db} (hids : RoomIds db) {m : MsgRow}
    (hm : m ∈ db.messages) {u : Nat} (h : db.Readable m u) : db.InRoomOf m u := by
  obtain ⟨hconv, hchat⟩ := hids.msg_rooms m hm
  rcases h with h | h
  · cases hk : m.convId with
    | none =>
      rw [hk] at h
      exact absurd h (hids.not_convMember_zero u)
    | some k =>
      rw [hk, Val.ofOption, columnInt_toNat (hconv k hk)] at h
      exact Or.inl ⟨k, hk, h⟩
  · cases hk : m.chatId with
    | none =>
      rw [hk] at h
      exact absurd h (hids.not_chatMember_zero u)
    | some k =>
      rw [hk, Val.ofOption, columnInt_toNat (hchat k hk)] at h
      exact Or.inr ⟨k, hk, h⟩

/-! ## Lists of ids -/

/-- The ids answered from a column of ids. -/
theorem mem_answered {ids : List Nat} {n : Nat} {x : UInt32}
    (h : x ∈ (((idRows ids).take n).map columnZero).reverse) : ∃ i ∈ ids, x = UInt32.ofNat i := by
  simp only [List.mem_reverse, List.mem_map] at h
  obtain ⟨cols, hcols, rfl⟩ := h
  obtain ⟨i, hi, rfl⟩ := List.mem_map.mp (List.mem_of_mem_take hcols)
  exact ⟨i, hi, by simp [columnZero]⟩

/-- Rows behind a list of ids. -/
theorem exists_rows {l : List UInt32} {P : MsgRow → Prop}
    (h : ∀ x ∈ l, ∃ m, P m ∧ m.wireId = x) :
    ∃ rows : List MsgRow, l = rows.map (·.wireId) ∧ ∀ m ∈ rows, P m := by
  induction l with
  | nil => exact ⟨[], rfl, by simp⟩
  | cons x l ih =>
    obtain ⟨m, hm, rfl⟩ := h x (List.mem_cons_self ..)
    obtain ⟨rows, rfl, hrows⟩ := ih fun y hy => h y (List.mem_cons_of_mem _ hy)
    exact ⟨m :: rows, rfl, List.forall_mem_cons.mpr ⟨hm, hrows⟩⟩

/-- The list is of messages of the user's rooms, given by their ids. -/
def Db.ListsOwn (db : Db) (userId : Nat) (ids : List UInt32) : Prop :=
  ∃ rows : List MsgRow, ids = rows.map (·.wireId) ∧
    ∀ m ∈ rows, m ∈ db.messages ∧ db.InRoomOf m userId

theorem Db.mem_convIdsOf {db : Db} {u k : Nat} : k ∈ db.convIdsOf u ↔ db.ConvMember k u := by
  simp only [Db.convIdsOf, Db.ConvMember, List.mem_map, List.mem_filter, decide_eq_true_eq]
  constructor
  · rintro ⟨m, ⟨hm, hu⟩, hk⟩
    exact ⟨m, hm, hk, hu⟩
  · rintro ⟨m, hm, hk, hu⟩
    exact ⟨m, ⟨hm, hu⟩, hk⟩

theorem Db.mem_chatIdsOf {db : Db} {u k : Nat} : k ∈ db.chatIdsOf u ↔ db.ChatMember k u := by
  simp only [Db.chatIdsOf, Db.ChatMember, List.mem_map, List.mem_filter, Bool.or_eq_true,
    decide_eq_true_eq]
  constructor
  · rintro ⟨m, ⟨hm, hu⟩, hk⟩
    exact ⟨m, hm, hk, hu⟩
  · rintro ⟨m, hm, hk, hu⟩
    exact ⟨m, ⟨hm, hu⟩, hk⟩

/-- The new messages of a user. -/
theorem Db.mem_sentTo {db : Db} {u i : Nat} :
    i ∈ db.sentTo u ↔ ∃ m ∈ db.messages, m.id = i ∧ m.type = .sent ∧ db.InRoomOf m u := by
  simp only [Db.sentTo, List.mem_insertionSort, List.mem_dedup, List.mem_append, List.mem_map,
    List.mem_filter, Bool.and_eq_true, decide_eq_true_eq, Option.any_eq_true, Db.mem_chatIdsOf,
    Db.mem_convIdsOf]
  constructor
  · rintro (⟨m, ⟨hm, ⟨k, hk, hmem⟩, htype⟩, rfl⟩ | ⟨m, ⟨hm, ⟨k, hk, hmem⟩, htype⟩, rfl⟩)
    · exact ⟨m, hm, rfl, htype, Or.inr ⟨k, hk, hmem⟩⟩
    · exact ⟨m, hm, rfl, htype, Or.inl ⟨k, hk, hmem⟩⟩
  · rintro ⟨m, hm, rfl, htype, ⟨k, hk, hmem⟩ | ⟨k, hk, hmem⟩⟩
    · exact Or.inr ⟨m, ⟨hm, ⟨k, hk, hmem⟩, htype⟩, rfl⟩
    · exact Or.inl ⟨m, ⟨hm, ⟨k, hk, hmem⟩, htype⟩, rfl⟩

theorem sentTo_listsOwn {db : Db} {u n : Nat} :
    db.ListsOwn u (((((Query.sentTo u).rows db).take n).map columnZero).reverse) := by
  refine exists_rows fun x hx => ?_
  obtain ⟨i, hi, rfl⟩ := mem_answered hx
  obtain ⟨m, hm, rfl, -, hroom⟩ := Db.mem_sentTo.mp hi
  exact ⟨m, ⟨hm, hroom⟩, rfl⟩

theorem msgGetMsgDelQuery_listsOwn {db : Db} {userId convId chatId : UInt32} {n : Nat} :
    db.ListsOwn userId.toNat
      (((((msgGetMsgDelQuery userId convId chatId).rows db).take n).map columnZero).reverse) := by
  refine exists_rows fun x hx => ?_
  unfold msgGetMsgDelQuery at hx
  -- the conversation, if one is named, else the chat, else the empty text
  split at hx
  · obtain ⟨i, hi, rfl⟩ := mem_answered hx
    simp only [List.mem_map, List.mem_filter, Bool.and_eq_true, Option.any_eq_true,
      decide_eq_true_eq, Db.mem_convIdsOf] at hi
    obtain ⟨m, ⟨hm, ⟨k, hk, -, hmem⟩, -⟩, rfl⟩ := hi
    exact ⟨m, ⟨hm, Or.inl ⟨k, hk, hmem⟩⟩, rfl⟩
  split at hx
  · obtain ⟨i, hi, rfl⟩ := mem_answered hx
    simp only [List.mem_map, List.mem_filter, Bool.and_eq_true, Option.any_eq_true,
      decide_eq_true_eq, Db.mem_chatIdsOf] at hi
    obtain ⟨m, ⟨hm, ⟨k, hk, -, hmem⟩, -⟩, rfl⟩ := hi
    exact ⟨m, ⟨hm, Or.inr ⟨k, hk, hmem⟩⟩, rfl⟩
  · simp [Query.rows] at hx

/-! ## Requests that name a message -/

/-- An answer that is more than an error came from the handler of the request. -/
theorem Session.answered {restarts : Prop} (h : Session restarts log c) {e : Served} (he : e ∈ log)
    {route : Route} (hroute : e.route = some route) {r : ResponseCall} (hr : r ∈ e.out.sent)
    (hnoterr : ∀ status group action, r ≠ .err status group action) :
    ∃ env req, e.req = some req ∧ Runs Answers e.pre (route.handle env req.header) e.post e.out := by
  obtain ⟨env, ⟨req, route', hreq, hroute', hrun⟩ | ⟨-, status, group, action, hout⟩ | ⟨-, hout⟩⟩ :=
    h.handled_route he
  · obtain rfl : route' = route := Option.some.inj (hroute'.symm.trans hroute)
    exact ⟨env, req, hreq, hrun⟩
  · rw [hout] at hr
    exact absurd (List.mem_singleton.mp hr) (hnoterr status group action)
  · rw [hout] at hr
    cases hr

/-- A refused request has no other answer. -/
theorem Refused.not_mem {c c' : Conn} {out : Handled} (h : Refused c c' out) {r : ResponseCall}
    (hr : r ∈ out.sent) (hnoterr : ∀ status group action, r ≠ .err status group action) : False := by
  obtain ⟨-, status, group, action, rfl⟩ := h
  exact hnoterr status group action (List.mem_singleton.mp hr)

/-- A handler behind the guard of a message has answered: the user is in its room. -/
theorem inRoomOf_of_answer {c c' : Conn} {out : Handled} {msgId userId : UInt32} {action : UInt8}
    {k : MsgSchema → SqlProg Handled} (hids : RoomIds c.db)
    (h : Runs Answers c (ifReadable msgId userId action k) c' out) {r : ResponseCall}
    (hr : r ∈ out.sent) (hnoterr : ∀ status group action, r ≠ .err status group action)
    {m : MsgRow} (hm : m ∈ c.db.messages) (hid : m.id = msgId.toNat) :
    c.db.InRoomOf m userId.toNat := by
  rcases runs_ifReadable le_rfl h with hrefused | ⟨m', hm', hread, -⟩
  · exact absurd hnoterr fun h => hrefused.not_mem hr h
  · obtain ⟨hmem, hid'⟩ := List.mem_filter.mp (List.mem_of_getElem? hm')
    obtain rfl : m = m' :=
      eq_of_id_eq hids.messages_nodup hm hmem (hid.trans (of_decide_eq_true hid').symm)
    exact hids.inRoomOf_of_readable hm hread

/-- The messages but the one with the given id. -/
def Db.otherMessages (db : Db) (id : Nat) : List MsgRow := db.messages.filter (·.id ≠ id)

theorem Db.otherMessages_updateMessage {db : Db} {id : Nat} {f : MsgRow → MsgRow}
    (hf : MsgRow.Rewrites f) : (db.updateMessage id f).otherMessages id = db.otherMessages id := by
  unfold Db.otherMessages Db.updateMessage
  induction db.messages with
  | nil => rfl
  | cons m ms ih =>
    rw [List.map_cons, List.filter_cons, List.filter_cons, ih]
    by_cases hm : m.id = id
    · obtain ⟨content, type, hfm⟩ := hf m
      simp [hm, hfm]
    · simp [hm]

/-- Requests about single messages are for those in the message's room. -/
structure Served.RespectsMessages (e : Served) : Prop where
  /-- `get_detail` answers 200 only to them. -/
  detail : ∀ rm d, e.route = some (.msgGetDetail rm) → .msgGetDetail 200 d ∈ e.out.sent →
    ∀ m ∈ e.pre.db.messages, m.id = rm.msgId.toNat → e.pre.db.InRoomOf m e.user
  /-- So does the download of a file. -/
  download : ∀ rm len name, e.route = some (.msgDownloadFile rm) →
    .msgDownloadFile 200 len name ∈ e.out.sent →
    ∀ m ∈ e.pre.db.messages, m.id = rm.msgId.toNat → e.pre.db.InRoomOf m e.user
  /-- `delete` changes a message only for them. -/
  delete : ∀ rm, e.route = some (.msgDelete rm) →
    ∀ m ∈ e.pre.db.messages, m ∉ e.post.db.messages → e.pre.db.InRoomOf m e.user
  /-- The lists of new and of deleted messages are of their messages. -/
  notify : ∀ ids, (.msgNotifyNew 200 ids ∈ e.out.sent ∨ .msgNotifyDel 200 ids ∈ e.out.sent) →
    e.route = some .notifyNewMsg ∨ (∃ rm, e.route = some (.notifyDelMsg rm)) →
    e.pre.db.ListsOwn e.user ids
  /-- Messages that are not named stay as they are. -/
  others : ∀ rm, e.route = some (.msgGetDetail rm) ∨ e.route = some (.msgDelete rm) →
    e.post.db.otherMessages rm.msgId.toNat = e.pre.db.otherMessages rm.msgId.toNat
  /-- Downloads and lists change none. -/
  same : (∃ rm, e.route = some (.msgDownloadFile rm)) ∨ e.route = some .notifyNewMsg ∨
    (∃ rm, e.route = some (.notifyDelMsg rm)) → e.post.db.messages = e.pre.db.messages

theorem Served.Effective.deletes {e : Served} (h : e.Effective) (hids : RoomIds e.pre.db)
    {rm : RequestMsgBody} (hroute : e.route = some (.msgDelete rm)) {m : MsgRow}
    (hm : m ∈ e.pre.db.messages) (hgone : m ∉ e.post.db.messages) :
    e.pre.db.InRoomOf m e.user := by
  rcases h with hsame | ⟨req, route, hreq, hroute', hchange⟩
  · rw [hsame] at hgone
    exact absurd hm hgone
  obtain rfl : route = .msgDelete rm := Option.some.inj (hroute'.symm.trans hroute)
  rcases hchange.messages with ⟨⟨_, ⟨⟩⟩ | ⟨_, ⟨⟩⟩, -⟩ | hsame | ⟨_, _, _, ⟨⟩, -⟩ |
    ⟨rm', m', hm', hid', hread, hupdate⟩
  · rw [hsame] at hgone
    exact absurd hm hgone
  · rcases hupdate with ⟨⟨⟩, -⟩ | ⟨-, hdb⟩
    -- the update is of the message that was named, which the guard has seen
    have hnamed : m.id = rm'.msgId.toNat := by
      by_contra hne
      refine hgone ?_
      rw [hdb]
      exact List.mem_map.mpr ⟨m, hm, if_neg hne⟩
    obtain rfl := eq_of_id_eq hids.messages_nodup hm hm' (hnamed.trans hid'.symm)
    rw [Served.user_eq hreq]
    exact hids.inRoomOf_of_readable hm hread

theorem Served.Effective.keepsOthers {e : Served} (h : e.Effective) {rm : RequestMsgBody}
    (hroute : e.route = some (.msgGetDetail rm) ∨ e.route = some (.msgDelete rm)) :
    e.post.db.otherMessages rm.msgId.toNat = e.pre.db.otherMessages rm.msgId.toNat := by
  rcases h with hsame | ⟨req, route, hreq, hroute', hchange⟩
  · rw [hsame]
  have hone : route = .msgGetDetail rm ∨ route = .msgDelete rm := by
    rcases hroute with hroute | hroute
    · exact Or.inl (Option.some.inj (hroute'.symm.trans hroute))
    · exact Or.inr (Option.some.inj (hroute'.symm.trans hroute))
  -- drops and sends belong to other requests
  rcases hchange.messages with ⟨⟨_, rfl⟩ | ⟨_, rfl⟩, -⟩ | hsame | ⟨_, _, _, rfl, -⟩ |
    ⟨rm', m', -, -, -, hupdate⟩
  · rcases hone with ⟨⟨⟩⟩ | ⟨⟨⟩⟩
  · rcases hone with ⟨⟨⟩⟩ | ⟨⟨⟩⟩
  · rw [Db.otherMessages, hsame, Db.otherMessages]
  · rcases hone with ⟨⟨⟩⟩ | ⟨⟨⟩⟩
  · obtain ⟨f, hf, hdb⟩ := Change.update_cases hupdate
    have hrm : rm' = rm := by
      rcases hupdate with ⟨rfl, -⟩ | ⟨rfl, -⟩
      · rcases hone with ⟨⟨⟩⟩ | ⟨⟨⟩⟩
        rfl
      · rcases hone with ⟨⟨⟩⟩ | ⟨⟨⟩⟩
        rfl
    subst hrm
    rw [hdb, Db.otherMessages_updateMessage hf]

theorem Session.notify_listsOwn {restarts : Prop} (h : Session restarts log c) {e : Served}
    (he : e ∈ log) {ids : List UInt32}
    (hsent : .msgNotifyNew 200 ids ∈ e.out.sent ∨ .msgNotifyDel 200 ids ∈ e.out.sent)
    (hroute : e.route = some .notifyNewMsg ∨ ∃ rm, e.route = some (.notifyDelMsg rm)) :
    e.pre.db.ListsOwn e.user ids := by
  -- both lists are answered in the same way, by a response that is no error
  obtain ⟨r, hr, hids, hnoterr⟩ : ∃ r ∈ e.out.sent, (r = .msgNotifyNew 200 ids ∨
      r = .msgNotifyDel 200 ids) ∧ ∀ status group action, r ≠ .err status group action := by
    rcases hsent with hsent | hsent
    · exact ⟨_, hsent, Or.inl rfl, by simp⟩
    · exact ⟨_, hsent, Or.inr rfl, by simp⟩
  rcases hroute with hroute | ⟨rm, hroute⟩
  · obtain ⟨env, req, hreq, hrun⟩ := h.answered he hroute hr hnoterr
    rcases runs_respondList (by simp) hrun with hrefused | ⟨-, n, hout⟩
    · exact (hrefused.not_mem hr hnoterr).elim
    · rw [hout, List.mem_singleton] at hr
      subst hr
      rcases hids with ⟨⟨⟩⟩ | ⟨⟨⟩⟩
      rw [Served.user_eq hreq]
      exact sentTo_listsOwn
  · obtain ⟨env, req, hreq, hrun⟩ := h.answered he hroute hr hnoterr
    rcases runs_respondList msgGetMsgDelQuery_ne_raw hrun with hrefused | ⟨-, n, hout⟩
    · exact (hrefused.not_mem hr hnoterr).elim
    · rw [hout, List.mem_singleton] at hr
      subst hr
      rcases hids with ⟨⟨⟩⟩ | ⟨⟨⟩⟩
      rw [Served.user_eq hreq]
      exact msgGetMsgDelQuery_listsOwn

/-- The handlers of downloads and lists are queries. -/
theorem Session.same_of_reads {restarts : Prop} (h : Session restarts log c) {e : Served}
    (he : e ∈ log) (hroute : (∃ rm, e.route = some (.msgDownloadFile rm)) ∨
      e.route = some .notifyNewMsg ∨ ∃ rm, e.route = some (.notifyDelMsg rm)) :
    e.post = e.pre := by
  obtain ⟨env, ⟨req, route, hreq, hroute', hrun⟩ | ⟨hsame, -⟩ | ⟨hsame, -⟩⟩ := h.handled_route he
  · rw [hroute'] at hroute
    rcases hroute with ⟨rm, ⟨⟩⟩ | ⟨⟨⟩⟩ | ⟨rm, ⟨⟩⟩
    · exact (queries_handleMsgDownloadFile _ rm).runs hrun
    · exact Queries.runs (queries_respondList (by simp)) hrun
    · exact Queries.runs (queries_respondList msgGetMsgDelQuery_ne_raw) hrun
  · exact hsame
  · exact hsame

/-- Requests about single messages respect membership, in every state that requests
    can lead to. -/
theorem message_requests_respect (h : Session True log c) {e : Served} (he : e ∈ log) :
    e.RespectsMessages := by
  obtain ⟨hids, heffect⟩ := h.change he
  refine ⟨?_, ?_, ?_, fun ids hsent hroute => h.notify_listsOwn he hsent hroute,
    fun rm hroute => heffect.keepsOthers hroute, fun hroute => by rw [h.same_of_reads he hroute]⟩
  · intro rm d hroute hsent m hm hid
    obtain ⟨env, req, hreq, hrun⟩ := h.answered he hroute hsent (by simp)
    rw [Served.user_eq hreq]
    exact inRoomOf_of_answer hids hrun hsent (by simp) hm hid
  · intro rm len name hroute hsent m hm hid
    obtain ⟨env, req, hreq, hrun⟩ := h.answered he hroute hsent (by simp)
    rw [Served.user_eq hreq]
    exact inRoomOf_of_answer hids hrun hsent (by simp) hm hid
  · intro rm hroute m hm hgone
    exact heffect.deletes hids hroute hm hgone

/-- User 2 reads message 1 of conversation 1; user 3 asks for it in vain. -/
theorem message_requests_respect_lobby :
    ∃ log c, Session True log c ∧
      (∃ e ∈ log, e.user = 2 ∧ e.route = some (.msgGetDetail { msgId := 1 }) ∧
        e.post ≠ e.pre ∧ e.RespectsMessages) ∧
      ∃ e ∈ log, e.user = 3 ∧ e.route = some (.msgGetDetail { msgId := 1 }) ∧
        e.out.sent = [.err 403 4 1] := by
  have hplay : (lobbyPlay [requestBy 2 4 1 (.msg { msgId := 1 }),
      requestBy 3 4 1 (.msg { msgId := 1 })]).any (fun x =>
      decide ((∃ e ∈ x.1, e.user = 2 ∧ e.route = some (.msgGetDetail { msgId := 1 }) ∧
        e.post ≠ e.pre) ∧
      ∃ e ∈ x.1, e.user = 3 ∧ e.route = some (.msgGetDetail { msgId := 1 }) ∧
        e.out.sent = [.err 403 4 1])) = true := by
    rw [lobbyPlay_eq]
    decide
  obtain ⟨⟨log, c⟩, hrun, hfacts⟩ := (Option.any_eq_true _ _).mp hplay
  obtain ⟨⟨e, he, huser, hroute, hchanged⟩, hrefused⟩ := of_decide_eq_true hfacts
  exact ⟨log, c, lobbyPlay_session hrun,
    ⟨e, he, huser, hroute, hchanged, message_requests_respect (lobbyPlay_session hrun) he⟩, hrefused⟩

/-! ## Requests that name a room -/

/-- A request that names a room respects its membership. -/
structure Served.RespectsRooms (e : Served) : Prop where
  /-- The list of a room's messages is of messages in rooms of the user. -/
  getAll : ∀ rm status ids, e.route = some (.msgGetAll rm) → .msgGetAll status ids ∈ e.out.sent →
    ∀ x ∈ ids, ∃ m ∈ e.pre.db.messages, m.wireId = x ∧ e.pre.db.InRoomOf m e.user
  /-- A message is inserted only by a member of every room it is attached to. -/
  send : ∀ rm, e.route = some (.msgSend rm) → ∀ m ∈ e.post.db.messages, m ∉ e.pre.db.messages →
    e.pre.db.InAllRoomsOf m e.user

/-- The rooms named agree: the chat that is listed is one of the user if the
    conversation is, and all rooms of a message that is sent are if one of them is. -/
def Served.RoomsAgree (e : Served) : Prop :=
  match e.route with
  | some (.msgGetAll rm) => rm.chatId ≠ 0 → e.pre.db.ConvMember rm.convId.toNat e.user →
      e.pre.db.ChatMember rm.chatId.toNat e.user
  | some (.msgSend rm) =>
    (rm.chatId ≠ 0 → e.pre.db.ConvMember rm.convId.toNat e.user →
      e.pre.db.ChatMember rm.chatId.toNat e.user) ∧
    (rm.convId ≠ 0 → e.pre.db.ChatMember rm.chatId.toNat e.user →
      e.pre.db.ConvMember rm.convId.toNat e.user)
  | _ => True

theorem mem_msgGetAllQuery {header : RequestHeader} {rm : RequestMsgBody} {db : Db} {n : Nat}
    {x : UInt32}
    (hx : x ∈ ((((msgGetAllQuery header rm).rows db).take n).map columnZero).reverse) :
    ∃ m ∈ db.messages, m.wireId = x ∧
      if rm.chatId ≠ 0 then m.chatId = some rm.chatId.toNat else m.convId = some rm.convId.toNat := by
  have hpos : 0 < rm.chatId ↔ rm.chatId ≠ 0 := UInt32.pos_iff_ne_zero
  unfold msgGetAllQuery at hx
  -- the chat has precedence over the conversation
  by_cases hchat : 0 < rm.chatId
  · rw [if_pos hchat] at hx
    obtain ⟨i, hi, rfl⟩ := mem_answered hx
    have hi' := mem_of_mem_page hi
    simp only [List.mem_map, List.mem_insertionSort, List.mem_filter, decide_eq_true_eq] at hi'
    obtain ⟨m, ⟨hm, hroom⟩, rfl⟩ := hi'
    exact ⟨m, hm, rfl, by rw [if_pos (hpos.mp hchat)]; exact hroom⟩
  · rw [if_neg hchat] at hx
    obtain ⟨i, hi, rfl⟩ := mem_answered hx
    have hi' := mem_of_mem_page hi
    simp only [List.mem_map, List.mem_insertionSort, List.mem_filter, decide_eq_true_eq] at hi'
    obtain ⟨m, ⟨hm, hroom⟩, rfl⟩ := hi'
    exact ⟨m, hm, rfl, by rw [if_neg (mt hpos.mpr hchat)]; exact hroom⟩

theorem Session.getAll_inRoom {restarts : Prop} (h : Session restarts log c) {e : Served}
    (he : e ∈ log) (hagree : e.RoomsAgree) {rm : RequestMsgBody} {status : UInt32}
    {ids : List UInt32} (hroute : e.route = some (.msgGetAll rm))
    (hsent : .msgGetAll status ids ∈ e.out.sent) {x : UInt32} (hx : x ∈ ids) :
    ∃ m ∈ e.pre.db.messages, m.wireId = x ∧ e.pre.db.InRoomOf m e.user := by
  obtain ⟨hids, -⟩ := h.change he
  simp only [Served.RoomsAgree, hroute] at hagree
  obtain ⟨env, req, hreq, hrun⟩ := h.answered he hroute hsent (by simp)
  rw [Served.user_eq hreq] at hagree ⊢
  rcases runs_handleMsgGetAll hrun with hrefused | ⟨hroom, -, n, hout⟩
  · exact (hrefused.not_mem hsent (by simp)).elim
  rw [hout, List.mem_singleton] at hsent
  cases hsent
  obtain ⟨m, hm, hid, hplace⟩ := mem_msgGetAllQuery hx
  refine ⟨m, hm, hid, ?_⟩
  by_cases hchat : rm.chatId = 0
  · -- no chat is named, and nobody is in chat 0
    rw [if_neg (not_not.mpr hchat)] at hplace
    rcases hroom with hroom | hroom
    · exact Or.inl ⟨_, hplace, hroom⟩
    · rw [hchat] at hroom
      exact absurd hroom (hids.not_chatMember_zero _)
  · -- the chat is listed, whichever room has let the request pass
    rw [if_pos hchat] at hplace
    rcases hroom with hroom | hroom
    · exact Or.inr ⟨_, hplace, hagree hchat hroom⟩
    · exact Or.inr ⟨_, hplace, hroom⟩

theorem Served.Effective.sends {e : Served} (h : e.Effective) (hagree : e.RoomsAgree)
    {rm : RequestMsgBody} (hroute : e.route = some (.msgSend rm)) {m : MsgRow}
    (hm : m ∈ e.post.db.messages) (hnew : m ∉ e.pre.db.messages) :
    e.pre.db.InAllRoomsOf m e.user := by
  simp only [Served.RoomsAgree, hroute] at hagree
  rcases h with hsame | ⟨req, route, hreq, hroute', hchange⟩
  · rw [hsame] at hm
    exact absurd hm hnew
  obtain rfl : route = .msgSend rm := Option.some.inj (hroute'.symm.trans hroute)
  rw [Served.user_eq hreq] at hagree ⊢
  rcases hchange.messages with ⟨⟨_, ⟨⟩⟩ | ⟨_, ⟨⟩⟩, -⟩ | hsame |
    ⟨_, msg, now, ⟨⟩, hroom, -, -, hconv, hchat, hadd⟩ | ⟨_, _, -, -, -, ⟨⟨⟩, -⟩ | ⟨⟨⟩, -⟩⟩
  · rw [hsame] at hm
    exact absurd hm hnew
  rw [hadd] at hm
  rcases List.mem_append.mp hm with hm | hm
  · exact absurd hm hnew
  obtain rfl := List.mem_singleton.mp hm
  -- a room id of 0 is stored as `NULL`, so a room of the row is one that was named
  constructor
  · intro k hk
    obtain ⟨hne, rfl⟩ := RoomIds.nullable_eq_some hk
    rw [hconv] at hne ⊢
    rcases hroom with hroom | hroom
    · exact hroom
    · exact hagree.2 hne hroom
  · intro k hk
    obtain ⟨hne, rfl⟩ := RoomIds.nullable_eq_some hk
    rw [hchat] at hne ⊢
    rcases hroom with hroom | hroom
    · exact hagree.1 hne hroom
    · exact hroom

/-- Requests about rooms respect membership when the rooms they name agree on it. -/
theorem room_requests_respect (h : Session True log c) {e : Served} (he : e ∈ log)
    (hagree : e.RoomsAgree) : e.RespectsRooms := by
  constructor
  · intro rm status ids hroute hsent x hx
    exact h.getAll_inRoom he hagree hroute hsent hx
  · intro rm hroute m hm hnew
    exact (h.change he).2.sends hagree hroute hm hnew

/-- User 1 lists conversation 1, without naming a chat. -/
theorem room_requests_respect_lobby :
    ∃ log c, Session True log c ∧ ∃ e ∈ log, e.user = 1 ∧ e.RoomsAgree ∧
      e.out.sent = [.msgGetAll 200 [1]] ∧ e.RespectsRooms := by
  have hplay : (lobbyPlay [requestBy 1 4 0 (.msg { convId := 1 })]).any (fun x =>
      decide (∃ e ∈ x.1, e.user = 1 ∧ e.route = some (.msgGetAll { convId := 1 }) ∧
        e.out.sent = [.msgGetAll 200 [1]])) = true := by
    rw [lobbyPlay_eq]
    decide
  obtain ⟨⟨log, c⟩, hrun, hfacts⟩ := (Option.any_eq_true _ _).mp hplay
  obtain ⟨e, he, huser, hroute, hsent⟩ := of_decide_eq_true hfacts
  have hagree : e.RoomsAgree := by
    simp [Served.RoomsAgree, hroute]
  exact ⟨log, c, lobbyPlay_session hrun, e, he, huser, hagree, hsent,
    room_requests_respect (lobbyPlay_session hrun) he hagree⟩

/-- A message for conversation 1 and chat 1. -/
def bothRooms : RequestMsgBody where
  convId := 1
  chatId := 1
  msgContent := some (.ofBytes (ascii "boo"))

/-- User 1, a member of conversation 1 but not of chat 1, names both: the list has
    the message of the chat, and a message is inserted there. -/
theorem foreignChat_not_respected :
    ∃ log c, Session False log c ∧
      (∃ e ∈ log, e.user = 1 ∧ e.out.sent = [.msgGetAll 200 [2]] ∧ ¬ e.RespectsRooms) ∧
      ∃ e ∈ log, e.user = 1 ∧ e.out.sent = [.msgSend 201 3] ∧ ¬ e.RespectsRooms := by
  -- user 1 passes the guard through the conversation
  have hplay : (lobbyPlay [requestBy 1 4 0 (.msg { convId := 1, chatId := 1 }),
      requestBy 1 4 2 (.msg bothRooms)]).any (fun x =>
      decide ((∃ e ∈ x.1, e.user = 1 ∧ e.out.sent = [.msgGetAll 200 [2]] ∧
        e.route = some (.msgGetAll { convId := 1, chatId := 1 }) ∧
        ∀ m ∈ e.pre.db.messages, m.wireId = 2 → ¬ e.pre.db.InRoomOf m e.user) ∧
      ∃ e ∈ x.1, e.user = 1 ∧ e.out.sent = [.msgSend 201 3] ∧
        e.route = some (.msgSend bothRooms) ∧
        ∃ m ∈ e.post.db.messages, m ∉ e.pre.db.messages ∧
          ¬ e.pre.db.InAllRoomsOf m e.user)) = true := by
    rw [lobbyPlay_eq]
    decide +kernel
  obtain ⟨⟨log, c⟩, hrun, hfacts⟩ := (Option.any_eq_true _ _).mp hplay
  obtain ⟨⟨e, he, huser, hsent, hroute, hforeign⟩, e', he', huser', hsent', hroute', m, hm, hnew,
    hroom⟩ := of_decide_eq_true hfacts
  refine ⟨log, c, lobbyPlay_session hrun, ⟨e, he, huser, hsent, fun hrespects => ?_⟩,
    e', he', huser', hsent', fun hrespects => ?_⟩
  · obtain ⟨m, hm, hid, hroom⟩ := hrespects.getAll _ 200 [2] hroute (by rw [hsent]; simp) 2 (by simp)
    exact hforeign m hm hid hroom
  · exact hroom (hrespects.send _ hroute' m hm hnew)

end MeshChat
