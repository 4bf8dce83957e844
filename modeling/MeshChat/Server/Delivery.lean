import MeshChat.Server.Messages

/-! # New, delivered and deleted messages

    The `type` of a message is written by `msg_send`, `msg_delivered` and
    `msg_delete`, none of which looks at it first.

    * `Session.lasts`: what all requests from some point on keep, lasts.
    * `deletion_final`: a deleted message stays deleted, and listed so, as long as
      nobody asks for its detail.
    * `new_until_read`: a message is listed as new to everybody in its rooms until
      somebody in them asks for its detail or deletes it.
-/

namespace MeshChat

open CMemory SqlLex Prog

/-! ## Answers -/

/-- If no call fails, the program answers with `r` and does nothing else. -/
def Replies (c : Conn) (p : SqlProg Handled) (r : ResponseCall) : Prop :=
  ∀ c' out, Runs Serves c p c' out ↔ c' = c ∧ out = { sent := [r] }

theorem replies_of_runs {c : Conn} {p : SqlProg Handled} {r : ResponseCall}
    (h : Runs Serves c p c { sent := [r] }) : Replies c p r := by
  intro c' out
  constructor
  · intro h'
    exact Runs.unique Serves.unique h' h
  · rintro ⟨rfl, rfl⟩
    exact h

theorem replies_respondList {c : Conn} {q : Query} (hq : q.Sound) {group action : UInt8}
    {response : List UInt32 → ResponseCall} :
    Replies c (respondList (sqlGetList q) group action response)
      (response ((q.rows c.db).map columnZero).reverse) := by
  refine replies_of_runs ?_
  rw [respondList, runs_bind]
  exact ⟨c, _, served_sqlGetList hq, .ret _ _⟩

/-- An id in a column of ids is answered. -/
theorem mem_answered_of_mem {ids : List Nat} {i : Nat} (h : i ∈ ids) :
    UInt32.ofNat i ∈ ((idRows ids).map columnZero).reverse := by
  rw [List.mem_reverse, List.mem_map]
  exact ⟨_, List.mem_map_of_mem h, by simp [columnZero]⟩

/-! ## From some point on -/

theorem take_cons_drop {α : Type} {l : List α} {i : Nat} {a : α} (h : l[i]? = some a) :
    l.take i ++ a :: l.drop (i + 1) = l := by
  obtain ⟨hlt, rfl⟩ := List.getElem?_eq_some_iff.mp h
  rw [← List.drop_eq_getElem_cons, List.take_append_drop]

/-- What every request from some point on keeps, still holds at the end. -/
theorem Session.lasts {restarts : Prop} {before behind : List Served} {e : Served} {c : Conn}
    {P : Db → Prop} {B : Served → Prop}
    (hstep : ∀ e : Served, RoomIds e.pre.db → e.Effective → B e → P e.pre.db → P e.post.db)
    (h : Session restarts (before ++ e :: behind) c) (he : P e.post.db)
    (hbehind : ∀ e' ∈ behind, B e') : P c.db := by
  -- induction on the session, with the point from which on it holds left open
  generalize hlog : before ++ e :: behind = log at h
  revert before e behind
  refine h.induct (I := fun log c => ∀ {before behind : List Served} {e : Served},
    P e.post.db → (∀ e' ∈ behind, B e') → before ++ e :: behind = log → P c.db) ?_ ?_ ?_
  · intro before behind e _ _ hlog
    exact absurd hlog (by simp)
  · intro log e₁ hprev heffect _ ih before behind e he hbehind hlog
    rcases List.eq_nil_or_concat behind with rfl | ⟨behind', e₂, rfl⟩
    · -- the last request is the one from which on it holds
      obtain ⟨-, heq⟩ := List.append_inj' hlog rfl
      obtain rfl := List.singleton_inj.mp heq
      exact he
    · have hsnoc : (before ++ e :: behind') ++ [e₂] = log ++ [e₁] := by simpa using hlog
      obtain ⟨hinit, heq⟩ := List.append_inj' hsnoc rfl
      obtain rfl := List.singleton_inj.mp heq
      -- it held in front of the last request, which keeps it
      have hpre : P e₂.pre.db := by
        refine ih he (fun e' he' => hbehind e' ?_) hinit
        rw [List.concat_eq_append]
        exact List.mem_append_left _ he'
      exact hstep e₂ hprev.inv.2 heffect (hbehind e₂ (by simp)) hpre
  · intro log c _ _ ih
    exact ih

/-! ## What happens to one message -/

/-- There is a message of that id. -/
def Db.HasMessage (db : Db) (id : Nat) : Prop := ∃ m ∈ db.messages, m.id = id

/-- The message whose detail is asked for. -/
def Route.asksDetailOf : Route → Option Nat
  | .msgGetDetail rm => some rm.msgId.toNat
  | _ => none

/-- The message that is to be deleted. -/
def Route.asksDeletionOf : Route → Option Nat
  | .msgDelete rm => some rm.msgId.toNat
  | _ => none

/-- Somebody in the room of the message asks for its detail. -/
def Served.Reads (e : Served) (id : Nat) : Prop :=
  e.route.bind (·.asksDetailOf) = some id ∧
    ∃ m ∈ e.pre.db.messages, m.id = id ∧ e.pre.db.InRoomOf m e.user

/-- Somebody in the room of the message asks for its deletion. -/
def Served.Deletes (e : Served) (id : Nat) : Prop :=
  e.route.bind (·.asksDeletionOf) = some id ∧
    ∃ m ∈ e.pre.db.messages, m.id = id ∧ e.pre.db.InRoomOf m e.user

instance (db : Db) (id : Nat) : Decidable (db.HasMessage id) :=
  inferInstanceAs (Decidable (∃ m ∈ db.messages, m.id = id))

instance (e : Served) (id : Nat) : Decidable (e.Reads id) :=
  inferInstanceAs (Decidable (_ ∧ ∃ m ∈ e.pre.db.messages, m.id = id ∧ e.pre.db.InRoomOf m e.user))

instance (e : Served) (id : Nat) : Decidable (e.Deletes id) :=
  inferInstanceAs (Decidable (_ ∧ ∃ m ∈ e.pre.db.messages, m.id = id ∧ e.pre.db.InRoomOf m e.user))

/-- A message that is still there has not changed, or was read or deleted. -/
theorem Served.Effective.message {e : Served} (h : e.Effective) (hids : RoomIds e.pre.db)
    {m : MsgRow} (hm : m ∈ e.pre.db.messages) (hstays : e.post.db.HasMessage m.id) :
    m ∈ e.post.db.messages ∨
      e.Reads m.id ∧ { m with type := .delivered } ∈ e.post.db.messages ∨
      e.Deletes m.id ∧
        { m with content := default, type := .deleted } ∈ e.post.db.messages := by
  rcases h with hsame | ⟨req, route, hreq, hroute, hchange⟩
  · rw [hsame]
    exact Or.inl hm
  rcases hchange.messages with ⟨-, hsub⟩ | hsame | ⟨_, msg, now, -, -, -, -, -, -, hadd⟩ |
    ⟨rm, m', hm', hid', hread, hupdate⟩
  -- a room was dropped: the message that is left with this id is the same one
  · obtain ⟨n, hn, hnid⟩ := hstays
    obtain rfl := eq_of_id_eq hids.messages_nodup (hsub.subset hn) hm hnid
    exact Or.inl hn
  · rw [hsame]
    exact Or.inl hm
  · rw [hadd]
    exact Or.inl (List.mem_append_left _ hm)
  -- one message was rewritten, this one or another
  by_cases hid : m.id = rm.msgId.toNat
  · obtain rfl := eq_of_id_eq hids.messages_nodup hm hm' (hid.trans hid'.symm)
    have hroom : e.pre.db.InRoomOf m e.user := by
      rw [Served.user_eq hreq]
      exact hids.inRoomOf_of_readable hm hread
    rcases hupdate with ⟨rfl, hdb⟩ | ⟨rfl, hdb⟩
    · rw [hdb]
      exact Or.inr (Or.inl ⟨⟨by rw [hroute, hid]; rfl, m, hm, rfl, hroom⟩,
        List.mem_map.mpr ⟨m, hm, if_pos hid⟩⟩)
    · rw [hdb]
      exact Or.inr (Or.inr ⟨⟨by rw [hroute, hid]; rfl, m, hm, rfl, hroom⟩,
        List.mem_map.mpr ⟨m, hm, if_pos hid⟩⟩)
  · obtain ⟨f, -, hdb⟩ := Change.update_cases hupdate
    rw [hdb]
    exact Or.inl (List.mem_map.mpr ⟨m, hm, if_neg hid⟩)

/-! ## Deleted messages -/

/-- The request to delete the message was answered with 200, and no call to sqlite
    has failed: `msg_delete` reports success either way. -/
def Served.Deleted (e : Served) (id : Nat) : Prop :=
  e.route.bind (·.asksDeletionOf) = some id ∧ .msgDelete 200 ∈ e.out.sent ∧ e.clean = true

instance (e : Served) (id : Nat) : Decidable (e.Deleted id) :=
  inferInstanceAs (Decidable (_ ∧ _ ∧ _))

/-- The row of the message is that of a deleted one. -/
def Db.IsDeleted (db : Db) (id : Nat) : Prop :=
  ∃ m ∈ db.messages, m.id = id ∧ m.type = .deleted ∧ m.content = default

/-- A successful delete has written the row. -/
theorem Session.isDeleted {restarts : Prop} {log : List Served} {c : Conn}
    (h : Session restarts log c) {e : Served} (he : e ∈ log) {id : Nat} (hdel : e.Deleted id) :
    e.post.db.IsDeleted id := by
  obtain ⟨hasks, hanswer, hclean⟩ := hdel
  obtain ⟨route, hroute, hasks⟩ := Option.bind_eq_some_iff.mp hasks
  obtain ⟨rm, rfl, rfl⟩ : ∃ rm, route = .msgDelete rm ∧ rm.msgId.toNat = id := by
    cases route with
    | msgDelete rm => exact ⟨rm, rfl, Option.some.inj hasks⟩
    | _ => cases hasks
  -- only a run without failures is known to have executed the update
  obtain ⟨env, log₀, -, -, -, hserves⟩ := h.handled he
  rcases handleReq_cases Serves.le (hserves hclean) with
    ⟨req, route, hreq, hroute', hrun⟩ | hrefused | ⟨-, hout⟩
  · obtain rfl : route = .msgDelete rm :=
      Option.some.inj ((Served.route_eq hreq hroute').symm.trans hroute)
    rcases runs_ifReadable Serves.le hrun with hrefused | ⟨m, hm, -, hdelete⟩
    · exact (hrefused.not_mem hanswer (by simp)).elim
    simp only [runs_bind] at hdelete
    obtain ⟨c₁, rc, hexec, hreport⟩ := hdelete
    rw [runs_report (hreport.mono Serves.le), served_sqlExecIgnored (by simp) hexec]
    obtain ⟨hmem, hid⟩ := List.mem_filter.mp (List.mem_of_getElem? hm)
    have hid : m.id = rm.msgId.toNat := of_decide_eq_true hid
    exact ⟨_, List.mem_map.mpr ⟨m, hmem, if_pos hid⟩, hid, rfl, rfl⟩
  · exact (hrefused.not_mem hanswer (by simp)).elim
  · rw [hout] at hanswer
    cases hanswer

/-- Deleted messages stay deleted, but for `get_detail`. -/
theorem isDeleted_step {e : Served} {id : Nat} (hids : RoomIds e.pre.db) (heffect : e.Effective)
    (hquiet : ¬ e.Reads id ∧ e.post.db.HasMessage id) (h : e.pre.db.IsDeleted id) :
    e.post.db.IsDeleted id := by
  obtain ⟨hunread, hstays⟩ := hquiet
  obtain ⟨m, hm, rfl, htype, hcontent⟩ := h
  rcases heffect.message hids hm hstays with hm' | ⟨hread, -⟩ | ⟨-, hm'⟩
  · exact ⟨m, hm', rfl, htype, hcontent⟩
  · exact absurd hread hunread
  · exact ⟨_, hm', rfl, rfl, rfl⟩

/-- The request for deleted messages names a room of the user that the message is
    in. The conversation counts, if one is named. -/
def RequestMsgBody.NamesRoomOf (rm : RequestMsgBody) (db : Db) (m : MsgRow) (userId : Nat) : Prop :=
  if rm.convId ≠ 0 then m.convId = some rm.convId.toNat ∧ db.ConvMember rm.convId.toNat userId
  else m.chatId = some rm.chatId.toNat ∧ db.ChatMember rm.chatId.toNat userId

/-- What deletion means to those in the rooms of a message. -/
structure Conn.TreatsAsDeleted (c : Conn) (m : MsgRow) : Prop where
  type : m.type = .deleted
  content : m.content = default
  /-- `notify_del` for its room answers with its id. -/
  listed : ∀ env r rm, env.verified = true → r.route = some (.notifyDelMsg rm) →
    rm.NamesRoomOf c.db m r.header.userId.toNat →
    ∃ ids, Replies c (handleReq env (some r)) (.msgNotifyDel 200 ids) ∧ m.wireId ∈ ids
  /-- `notify_new` answers with the ids of other messages. -/
  notNew : ∀ env r c' out ids, r.route = some .notifyNewMsg →
    Runs Answers c (handleReq env (some r)) c' out → .msgNotifyNew 200 ids ∈ out.sent →
    ∃ rows : List MsgRow, ids = rows.map (·.wireId) ∧ ∀ n ∈ rows, n ∈ c.db.messages ∧ n.id ≠ m.id

theorem mem_msgGetMsgDelQuery {db : Db} (hids : RoomIds db) {rm : RequestMsgBody} {m : MsgRow}
    {userId : UInt32} (hm : m ∈ db.messages) (htype : m.type = .deleted)
    (hroom : rm.NamesRoomOf db m userId.toNat) :
    (msgGetMsgDelQuery userId rm.convId rm.chatId).Sound ∧
      m.wireId ∈ ((((msgGetMsgDelQuery userId rm.convId rm.chatId).rows db).map
        columnZero)).reverse := by
  unfold RequestMsgBody.NamesRoomOf at hroom
  unfold msgGetMsgDelQuery
  split at hroom
  · rename_i hconv
    obtain ⟨hplace, hmember⟩ := hroom
    rw [if_pos hconv]
    refine ⟨⟨by simp, rfl, rfl⟩, mem_answered_of_mem (List.mem_map_of_mem (List.mem_filter.mpr
      ⟨hm, ?_⟩))⟩
    simp [hplace, htype, Db.mem_convIdsOf, hmember]
  · rename_i hconv
    obtain ⟨hplace, hmember⟩ := hroom
    -- chat 0 does not exist, so the query for the chat is made
    have hchat : rm.chatId ≠ 0 := by
      intro hzero
      rw [hzero] at hmember
      exact hids.not_chatMember_zero _ hmember
    rw [if_neg hconv, if_pos hchat]
    refine ⟨⟨by simp, rfl, rfl⟩, mem_answered_of_mem (List.mem_map_of_mem (List.mem_filter.mpr
      ⟨hm, ?_⟩))⟩
    simp [hplace, htype, Db.mem_chatIdsOf, hmember]

/-- The answers about a deleted message. -/
theorem treatsAsDeleted {c : Conn} (hids : RoomIds c.db) {m : MsgRow} (hm : m ∈ c.db.messages)
    (htype : m.type = .deleted) (hcontent : m.content = default) : c.TreatsAsDeleted m := by
  refine ⟨htype, hcontent, ?_, ?_⟩
  · intro env r rm henv hroute hroom
    obtain ⟨hsound, hmem⟩ := mem_msgGetMsgDelQuery hids hm htype hroom
    rw [handleReq_of_route henv hroute]
    exact ⟨_, replies_respondList hsound, hmem⟩
  · intro env r c' out ids hroute hrun hsent
    rcases handleReq_cases le_rfl hrun with ⟨_, route, ⟨⟩, hroute', hlist⟩ | hrefused | ⟨-, rfl⟩
    · obtain rfl : route = .notifyNewMsg := Option.some.inj (hroute'.symm.trans hroute)
      rcases runs_respondList (by simp) hlist with hrefused | ⟨-, n, rfl⟩
      · exact (hrefused.not_mem hsent (by simp)).elim
      cases List.mem_singleton.mp hsent
      refine exists_rows fun x hx => ?_
      obtain ⟨i, hi, rfl⟩ := mem_answered hx
      -- what is listed as new has another type than this message
      obtain ⟨n, hn, rfl, hsenttype, -⟩ := Db.mem_sentTo.mp hi
      refine ⟨n, ⟨hn, fun heq => ?_⟩, rfl⟩
      obtain rfl := eq_of_id_eq hids.messages_nodup hn hm heq
      rw [htype] at hsenttype
      cases hsenttype
    · exact (hrefused.not_mem hsent (by simp)).elim
    · cases hsent

/-- A deleted message stays so for as long as its row is there and nobody in its
    rooms asks for its detail. -/
theorem deletion_final {before behind : List Served} {e : Served} {c : Conn} {id : Nat}
    (h : Session True (before ++ e :: behind) c) (hdel : e.Deleted id)
    (hstays : ∀ e' ∈ behind, e'.post.db.HasMessage id) (hunread : ∀ e' ∈ behind, ¬ e'.Reads id) :
    ∃ m ∈ c.db.messages, m.id = id ∧ c.TreatsAsDeleted m := by
  have hpost : e.post.db.IsDeleted id := h.isDeleted (by simp) hdel
  obtain ⟨m, hm, hid, htype, hcontent⟩ : c.db.IsDeleted id :=
    h.lasts (P := (·.IsDeleted id)) (fun _ => isDeleted_step) hpost
      fun e' he' => ⟨hunread e' he', hstays e' he'⟩
  exact ⟨m, hm, hid, treatsAsDeleted h.inv.2 hm htype hcontent⟩

/-- User 2 deletes message 1 of conversation 1, user 1 sends another message and
    asks for the deleted ones. -/
theorem deletion_final_lobby :
    ∃ before e behind c, Session True (before ++ e :: behind) c ∧ e.Deleted 1 ∧
      (∀ e' ∈ behind, e'.post.db.HasMessage 1) ∧ (∀ e' ∈ behind, ¬ e'.Reads 1) ∧
      behind.length = 2 ∧ ∃ m ∈ c.db.messages, m.id = 1 ∧ c.TreatsAsDeleted m := by
  have hplay : (lobbyPlay [requestBy 2 4 3 (.msg { msgId := 1 }),
      requestBy 1 4 2 (.msg { convId := 1, msgContent := some (.ofBytes (ascii "eh")) }),
      requestBy 1 4 5 (.msg { convId := 1 })]).any (fun x =>
      decide (x.1.length = 11 ∧ (∃ e ∈ x.1[8]?, e.Deleted 1) ∧
        (∀ e ∈ x.1.drop 9, e.post.db.HasMessage 1) ∧ ∀ e ∈ x.1.drop 9, ¬ e.Reads 1)) = true := by
    rw [lobbyPlay_eq]
    decide +kernel
  obtain ⟨⟨log, c⟩, hrun, hfacts⟩ := (Option.any_eq_true _ _).mp hplay
  obtain ⟨hlength, ⟨e, he, hdel⟩, hstays, hunread⟩ := of_decide_eq_true hfacts
  have hsession : Session True (log.take 8 ++ e :: log.drop 9) c := by
    rw [take_cons_drop he]
    exact lobbyPlay_session hrun
  exact ⟨_, e, _, c, hsession, hdel, hstays, hunread, by simp [hlength],
    deletion_final hsession hdel hstays hunread⟩

/-- Message 1 is deleted, and then user 1 asks for its detail: it is no longer a
    deleted one. -/
theorem detail_undeletes :
    ∃ before e behind c, Session False (before ++ e :: behind) c ∧ e.Deleted 1 ∧
      (∀ e' ∈ behind, e'.post.db.HasMessage 1) ∧
      ¬ ∃ m ∈ c.db.messages, m.id = 1 ∧ c.TreatsAsDeleted m := by
  have hplay : (lobbyPlay [requestBy 2 4 3 (.msg { msgId := 1 }),
      requestBy 1 4 1 (.msg { msgId := 1 })]).any (fun x =>
      decide ((∃ e ∈ x.1[8]?, e.Deleted 1) ∧ (∀ e ∈ x.1.drop 9, e.post.db.HasMessage 1) ∧
        ∀ m ∈ x.2.db.messages, m.id = 1 → m.type = .delivered)) = true := by
    rw [lobbyPlay_eq]
    decide
  obtain ⟨⟨log, c⟩, hrun, hfacts⟩ := (Option.any_eq_true _ _).mp hplay
  obtain ⟨⟨e, he, hdel⟩, hstays, htype⟩ := of_decide_eq_true hfacts
  have hsession : Session False (log.take 8 ++ e :: log.drop 9) c := by
    rw [take_cons_drop he]
    exact lobbyPlay_session hrun
  refine ⟨_, e, _, c, hsession, hdel, hstays, ?_⟩
  rintro ⟨m, hm, hid, htreats⟩
  have hdelivered := htype m hm hid
  rw [htreats.type] at hdelivered
  cases hdelivered

/-! ## New messages -/

/-- The request has inserted the message. -/
def Served.Inserts (e : Served) (m : MsgRow) : Prop :=
  m ∈ e.post.db.messages ∧ ¬ e.pre.db.HasMessage m.id

instance (e : Served) (m : MsgRow) : Decidable (e.Inserts m) :=
  inferInstanceAs (Decidable (_ ∧ _))

theorem Served.Effective.inserts {e : Served} (h : e.Effective) {m : MsgRow} (hnew : e.Inserts m) :
    m.type = .sent ∧ m.fromUid = e.user := by
  obtain ⟨hm, hfresh⟩ := hnew
  rcases h with hsame | ⟨req, route, hreq, hroute, hchange⟩
  · rw [hsame] at hm
    exact absurd ⟨m, hm, rfl⟩ hfresh
  rcases hchange.messages with ⟨-, hsub⟩ | hsame | ⟨_, msg, now, -, -, hfrom, -, -, -, hadd⟩ |
    ⟨rm, _, -, -, -, hupdate⟩
  -- all other changes leave only ids that were there before
  · exact absurd ⟨m, hsub.subset hm, rfl⟩ hfresh
  · rw [hsame] at hm
    exact absurd ⟨m, hm, rfl⟩ hfresh
  · rw [hadd] at hm
    rcases List.mem_append.mp hm with hm | hm
    · exact absurd ⟨m, hm, rfl⟩ hfresh
    · obtain rfl := List.mem_singleton.mp hm
      refine ⟨rfl, ?_⟩
      rw [Served.user_eq hreq, ← hfrom]
      rfl
  · obtain ⟨f, hf, hdb⟩ := Change.update_cases hupdate
    rw [hdb] at hm
    obtain ⟨m', hm', content, type, rfl⟩ := Db.mem_updateMessage hf hm
    exact absurd ⟨m', hm', rfl⟩ hfresh

/-- A message that is new and is left alone stays as it is. -/
theorem new_step {e : Served} {m : MsgRow} (hids : RoomIds e.pre.db) (heffect : e.Effective)
    (hquiet : (¬ e.Reads m.id ∧ ¬ e.Deletes m.id) ∧ e.post.db.HasMessage m.id)
    (hm : m ∈ e.pre.db.messages) : m ∈ e.post.db.messages := by
  obtain ⟨⟨hunread, hundeleted⟩, hstays⟩ := hquiet
  rcases heffect.message hids hm hstays with hm' | ⟨hread, -⟩ | ⟨hdelete, -⟩
  · exact hm'
  · exact absurd hread hunread
  · exact absurd hdelete hundeleted

/-- The list of new messages, with all that is new in the rooms of the user. -/
theorem replies_notifyNew {c : Conn} {env : Env} {r : Request} (henv : env.verified = true)
    (hroute : r.route = some .notifyNewMsg) {m : MsgRow} (hm : m ∈ c.db.messages)
    (htype : m.type = .sent) (hroom : c.db.InRoomOf m r.header.userId.toNat) :
    ∃ ids, Replies c (handleReq env (some r)) (.msgNotifyNew 200 ids) ∧ m.wireId ∈ ids := by
  have hsound : (Query.sentTo r.header.userId.toNat).Sound := ⟨by simp, rfl, rfl⟩
  rw [handleReq_of_route henv hroute]
  exact ⟨_, replies_respondList hsound,
    mem_answered_of_mem (Db.mem_sentTo.mpr ⟨m, hm, rfl, htype, hroom⟩)⟩

/-- A message that was sent is listed as new to everybody in its rooms, as long as it
    is there and nobody in them has asked for its detail or deleted it. -/
theorem new_until_read {before behind : List Served} {e : Served} {c : Conn} {m : MsgRow}
    (h : Session True (before ++ e :: behind) c) (hnew : e.Inserts m)
    (hstays : ∀ e' ∈ behind, e'.post.db.HasMessage m.id)
    (hunread : ∀ e' ∈ behind, ¬ e'.Reads m.id) (hundeleted : ∀ e' ∈ behind, ¬ e'.Deletes m.id)
    {env : Env} {r : Request} (henv : env.verified = true) (hroute : r.route = some .notifyNewMsg)
    (hroom : c.db.InRoomOf m r.header.userId.toNat) :
    ∃ ids, Replies c (handleReq env (some r)) (.msgNotifyNew 200 ids) ∧ m.wireId ∈ ids := by
  obtain ⟨-, heffect⟩ := h.change (List.mem_append_right _ (List.mem_cons_self ..))
  -- the row is still the one that was inserted
  have hm : m ∈ c.db.messages :=
    h.lasts (P := (m ∈ ·.messages)) (fun _ => new_step) hnew.1
      fun e' he' => ⟨⟨hunread e' he', hundeleted e' he'⟩, hstays e' he'⟩
  exact replies_notifyNew henv hroute hm (heffect.inserts hnew).1 hroom

/-- Message 1 is listed to user 2. -/
theorem new_until_read_lobby :
    ∃ before e behind c m, Session True (before ++ e :: behind) c ∧ e.Inserts m ∧
      (∀ e' ∈ behind, e'.post.db.HasMessage m.id) ∧ (∀ e' ∈ behind, ¬ e'.Reads m.id) ∧
      (∀ e' ∈ behind, ¬ e'.Deletes m.id) ∧ m.fromUid = 1 ∧ c.db.InRoomOf m 2 ∧
      ∃ ids, Replies c (handleReq lobbyEnv (some (requestBy 2 4 4 (.msg {}))))
        (.msgNotifyNew 200 ids) ∧ m.wireId ∈ ids := by
  have hplay : (lobbyPlay []).any (fun x => decide (∃ e ∈ x.1[6]?, ∃ m ∈ e.post.db.messages,
      e.Inserts m ∧ (∀ e' ∈ x.1.drop 7, e'.post.db.HasMessage m.id) ∧
      (∀ e' ∈ x.1.drop 7, ¬ e'.Reads m.id) ∧ (∀ e' ∈ x.1.drop 7, ¬ e'.Deletes m.id) ∧
      m.fromUid = 1 ∧ x.2.db.InRoomOf m 2)) = true := by
    rw [lobbyPlay_eq]
    decide
  obtain ⟨⟨log, c⟩, hrun, hfacts⟩ := (Option.any_eq_true _ _).mp hplay
  obtain ⟨e, he, m, -, hnew, hstays, hunread, hundeleted, hfrom, hroom⟩ := of_decide_eq_true hfacts
  have hsession : Session True (log.take 6 ++ e :: log.drop 7) c := by
    rw [take_cons_drop he]
    exact lobbyPlay_session hrun
  exact ⟨_, e, _, c, m, hsession, hnew, hstays, hunread, hundeleted, hfrom, hroom,
    new_until_read hsession hnew hstays hunread hundeleted rfl rfl hroom⟩

/-- User 3 joins conversation 1 and asks for the detail of message 1, and user 2,
    who has not, does not learn of it. -/
theorem read_by_other_hides :
    ∃ before e behind c m, Session False (before ++ e :: behind) c ∧ e.Inserts m ∧
      (∀ e' ∈ behind, e'.post.db.HasMessage m.id) ∧
      (∀ e' ∈ behind, e'.user = 2 → ¬ e'.Reads m.id) ∧
      (∀ e' ∈ behind, ¬ e'.Deletes m.id) ∧ m.fromUid = 1 ∧ c.db.InRoomOf m 2 ∧ m.wireId = 1 ∧
      Replies c (handleReq lobbyEnv (some (requestBy 2 4 4 (.msg {})))) (.msgNotifyNew 200 [2]) := by
  have hplay : (lobbyPlay [requestBy 1 2 2 (.conv { convId := 1, userId := 3 }),
      requestBy 3 4 1 (.msg { msgId := 1 })]).any (fun x =>
      decide ((∃ e ∈ x.1[6]?, ∃ m ∈ e.post.db.messages, e.Inserts m ∧
        (∀ e' ∈ x.1.drop 7, e'.post.db.HasMessage m.id) ∧
        (∀ e' ∈ x.1.drop 7, e'.user = 2 → ¬ e'.Reads m.id) ∧
        (∀ e' ∈ x.1.drop 7, ¬ e'.Deletes m.id) ∧ m.fromUid = 1 ∧ x.2.db.InRoomOf m 2 ∧
        m.wireId = 1) ∧
        execute serve 8 x.2 (handleReq lobbyEnv (some (requestBy 2 4 4 (.msg {})))) =
          some (x.2, { sent := [.msgNotifyNew 200 [2]] }))) = true := by
    rw [lobbyPlay_eq]
    decide
  obtain ⟨⟨log, c⟩, hrun, hfacts⟩ := (Option.any_eq_true _ _).mp hplay
  obtain ⟨⟨e, he, m, -, hnew, hstays, hunread, hundeleted, hfrom, hroom, hid⟩, hreply⟩ :=
    of_decide_eq_true hfacts
  have hsession : Session False (log.take 6 ++ e :: log.drop 7) c := by
    rw [take_cons_drop he]
    exact lobbyPlay_session hrun
  exact ⟨_, e, _, c, m, hsession, hnew, hstays, hunread, hundeleted, hfrom, hroom, hid,
    replies_of_runs (runs_of_execute (fun _ _ _ _ h => h) hreply)⟩

end MeshChat
