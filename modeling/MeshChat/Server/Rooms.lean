import MeshChat.Server.Session

/-! # Who changes a room

    * `rooms_guarded`: nobody but its members and its admin changes a conversation,
      nobody but its two members a chat; and whoever is a member of a conversation
      without being its admin was taken in by a member.
    * `admin_stays`: the admin of a conversation stays its member as long as no
      admin asks for somebody else to leave. Such a request removes the admin.
    * `quit_removes_named_iff`: that is the only request to leave whose answer is
      not true of the members.
-/

namespace MeshChat

open CMemory SqlLex Prog

variable {log : List Served} {c : Conn}

/-! ## Rows of one room -/

theorem filter_snoc {α : Type} {l : List α} {p : α → Bool} {a : α} (h : p a = false) :
    (l ++ [a]).filter p = l.filter p := by
  simp [h]

theorem filter_filter_of_imp {α : Type} {l : List α} {p q : α → Bool}
    (h : ∀ a ∈ l, p a = true → q a = true) : (l.filter q).filter p = l.filter p := by
  rw [List.filter_filter]
  refine List.filter_congr fun a ha => ?_
  cases hp : p a with
  | false => rfl
  | true => simp [h a ha hp]

/-- The row and the members of a conversation. -/
def Db.convRows (db : Db) (id : Nat) : List ConvRow × List MemberRow :=
  (db.conversations.filter (·.id = id), db.members.filter (·.convId = id))

/-- The row of a chat. -/
def Db.chatRows (db : Db) (id : Nat) : List ChatRow := db.chats.filter (·.id = id)

/-! ## Outsiders -/

/-- A request leaves the rooms alone that its user has no part in. -/
structure Served.KeepsForeignRooms (e : Served) : Prop where
  conv : ∀ r ∈ e.pre.db.conversations, ¬ e.pre.db.ConvMember r.id e.user → r.adminId ≠ e.user →
    e.post.db.convRows r.id = e.pre.db.convRows r.id
  chat : ∀ r ∈ e.pre.db.chats, r.member1 ≠ e.user → r.member2 ≠ e.user →
    e.post.db.chatRows r.id = e.pre.db.chatRows r.id

theorem Change.convRows_eq {header : RequestHeader} {route : Route} {c c' : Conn}
    (h : Change header route c c') (hids : RoomIds c.db) {r : ConvRow}
    (hr : r ∈ c.db.conversations) (hmember : ¬ c.db.ConvMember r.id header.userId.toNat)
    (hadmin : r.adminId ≠ header.userId.toNat) : c'.db.convRows r.id = c.db.convRows r.id := by
  have hnew : c.db.nextConv ≠ r.id := (Db.lt_nextConv hr).ne'
  unfold Db.convRows
  rcases h.rooms with ⟨hc, hm⟩ | ⟨_, name, rowid, -, -, hc, hm⟩ | ⟨rconv, -, hdrop, hc, hm⟩ |
    ⟨rconv, rowid, -, hjoin, hc, hm⟩ | ⟨rconv, -, hquit, -, hc, hm⟩
  · rw [hc, hm]
  · rw [hc, hm, filter_snoc (by simpa using hnew), filter_snoc (by simpa using hnew)]
  · -- an admin of the dropped conversation is the admin of this one only if they are one
    have hother : r.id ≠ rconv.convId.toNat := by
      intro hid
      obtain ⟨r', hr', hid', hadmin'⟩ := hdrop
      obtain rfl := eq_of_id_eq hids.convs_nodup hr hr' (hid.trans hid'.symm)
      exact hadmin hadmin'
    rw [hc, hm, filter_filter_of_imp, filter_filter_of_imp]
    · intro m _ hm'
      simpa [of_decide_eq_true hm'] using hother
    · intro a _ ha
      simpa [of_decide_eq_true ha] using hother
  -- joins and departures are requests of members
  · have hother : rconv.convId.toNat ≠ r.id := by
      intro hid
      exact hmember (hid ▸ hjoin)
    rw [hc, hm, filter_snoc (by simpa using hother)]
  · have hother : rconv.convId.toNat ≠ r.id := by
      intro hid
      exact hmember (hid ▸ hquit)
    rw [hc, hm, filter_filter_of_imp]
    intro m _ hm'
    have hid : m.convId = r.id := of_decide_eq_true hm'
    simp [hid, hother.symm]

theorem Change.chatRows_eq {header : RequestHeader} {route : Route} {c c' : Conn}
    (h : Change header route c c') (hids : RoomIds c.db) {r : ChatRow} (hr : r ∈ c.db.chats)
    (h1 : r.member1 ≠ header.userId.toNat) (h2 : r.member2 ≠ header.userId.toNat) :
    c'.db.chatRows r.id = c.db.chatRows r.id := by
  unfold Db.chatRows
  rcases h.chats with hc | ⟨rchat, -, -, -, hc⟩ | ⟨rchat, -, hdrop, hc⟩
  · rw [hc]
  · have hnew : nextId (c.db.chats.map (·.id)) ≠ r.id :=
      (lt_nextId (List.mem_map_of_mem hr)).ne'
    rw [hc, filter_snoc (by simpa using hnew)]
  -- only its members drop a chat
  · have hother : r.id ≠ rchat.chatId.toNat := by
      intro hid
      obtain ⟨r', hr', hid', hmember⟩ := hdrop
      obtain rfl := eq_of_id_eq hids.chats_nodup hr hr' (hid.trans hid'.symm)
      exact hmember.elim h1 h2
    rw [hc, filter_filter_of_imp]
    intro a _ ha
    simpa [of_decide_eq_true ha] using hother

theorem Served.Effective.keepsForeignRooms {e : Served} (h : e.Effective) (hids : RoomIds e.pre.db) :
    e.KeepsForeignRooms := by
  rcases h with hsame | ⟨r, route, hreq, -, hchange⟩
  · exact ⟨fun _ _ _ _ => by rw [hsame], fun _ _ _ _ => by rw [hsame]⟩
  · have huser := Served.user_eq hreq
    refine ⟨fun r' hr' hmember hadmin => ?_, fun r' hr' h1 h2 => ?_⟩
    · rw [huser] at hmember hadmin
      exact hchange.convRows_eq hids hr' hmember hadmin
    · rw [huser] at h1 h2
      exact hchange.chatRows_eq hids hr' h1 h2

/-! ## Invitations -/

/-- A `conv_join` that names the user, by a member of the conversation. -/
def Served.Joins (e : Served) (convId userId : Nat) : Prop :=
  ∃ rconv, e.route = some (.convJoin rconv) ∧ rconv.convId.toNat = convId ∧
    rconv.userId.toNat = userId ∧ e.pre.db.ConvMember convId e.user

/-- The user was taken into the conversation, which has been there ever since. -/
def Invited (log : List Served) (r : ConvRow) (userId : Nat) : Prop :=
  ∃ before e behind, log = before ++ e :: behind ∧ e.Joins r.id userId ∧
    ∀ e' ∈ e :: behind, r ∈ e'.pre.db.conversations

theorem Invited.snoc {r : ConvRow} {userId : Nat} (h : Invited log r userId) {e : Served}
    (he : r ∈ e.pre.db.conversations) : Invited (log ++ [e]) r userId := by
  obtain ⟨before, e₀, behind, rfl, hjoins, hstays⟩ := h
  refine ⟨before, e₀, behind ++ [e], by simp, hjoins, ?_⟩
  intro e' he'
  rw [← List.cons_append] at he'
  rcases List.mem_append.mp he' with he' | he'
  · exact hstays e' he'
  · obtain rfl := List.mem_singleton.mp he'
    exact he

theorem Served.Joins.invited {e : Served} {r : ConvRow} {userId : Nat} (h : e.Joins r.id userId)
    (hr : r ∈ e.pre.db.conversations) : Invited (log ++ [e]) r userId := by
  refine ⟨log, e, [], rfl, h, ?_⟩
  -- nothing has happened since
  intro e' he'
  obtain rfl := List.mem_singleton.mp he'
  exact hr

/-- Members that are not the admin were invited. -/
def MembersInvited (log : List Served) (db : Db) : Prop :=
  ∀ r ∈ db.conversations, ∀ u, db.ConvMember r.id u → u ≠ r.adminId → Invited log r u

theorem membersInvited_step {e : Served} (hids : RoomIds e.pre.db) (heffect : e.Effective)
    (h : MembersInvited log e.pre.db) : MembersInvited (log ++ [e]) e.post.db := by
  -- rows that were there before
  have hold : ∀ r ∈ e.pre.db.conversations, ∀ m ∈ e.pre.db.members, m.convId = r.id →
      m.userId ≠ r.adminId → Invited (log ++ [e]) r m.userId :=
    fun r hr m hm hconv hne => (h r hr m.userId ⟨m, hm, hconv, rfl⟩ hne).snoc hr
  rintro r hr u ⟨m, hm, hconv, rfl⟩ hne
  rcases heffect with hsame | ⟨req, route, hreq, hroute, hchange⟩
  · rw [hsame] at hr hm
    exact hold r hr m hm hconv hne
  rcases hchange.rooms with ⟨hc, hmem⟩ | ⟨_, name, rowid, -, -, hc, hmem⟩ | ⟨_, -, -, hc, hmem⟩ |
    ⟨rconv, rowid, rfl, hjoin, hc, hmem⟩ | ⟨_, -, -, -, hc, hmem⟩
  · rw [hc] at hr
    rw [hmem] at hm
    exact hold r hr m hm hconv hne
  · -- a new conversation has its admin as the only member, and an old one no new member
    rw [hc] at hr
    rw [hmem] at hm
    rcases List.mem_append.mp hr with hr | hr
    · rcases List.mem_append.mp hm with hm | hm
      · exact hold r hr m hm hconv hne
      · obtain rfl := List.mem_singleton.mp hm
        exact absurd hconv (Db.lt_nextConv hr).ne'
    · obtain rfl := List.mem_singleton.mp hr
      rcases List.mem_append.mp hm with hm | hm
      · obtain ⟨r', hr', hid⟩ := hids.member_conv m hm
        exact absurd (hid.trans hconv) (Db.lt_nextConv hr').ne
      · obtain rfl := List.mem_singleton.mp hm
        exact absurd rfl hne
  · rw [hc] at hr
    rw [hmem] at hm
    exact hold r (List.mem_filter.mp hr).1 m (List.mem_filter.mp hm).1 hconv hne
  · rw [hc] at hr
    rw [hmem] at hm
    rcases List.mem_append.mp hm with hm | hm
    · exact hold r hr m hm hconv hne
    · obtain rfl := List.mem_singleton.mp hm
      refine Served.Joins.invited ⟨rconv, hroute, hconv, rfl, ?_⟩ hr
      rw [Served.user_eq hreq, ← hconv]
      exact hjoin
  · rw [hc] at hr
    rw [hmem] at hm
    exact hold r hr m (List.mem_filter.mp hm).1 hconv hne

theorem Session.membersInvited {restarts : Prop} (h : Session restarts log c) :
    MembersInvited log c.db :=
  h.induct (I := fun log c => MembersInvited log c.db) (by simp [MembersInvited])
    (fun _ _ hprev heffect _ ih => membersInvited_step hprev.inv.2 heffect ih)
    (fun _ _ _ _ ih => ih)

/-- Outsiders change no room, and nobody enters a conversation but by invitation. -/
theorem rooms_guarded (h : Session True log c) :
    (∀ e ∈ log, e.KeepsForeignRooms) ∧ MembersInvited log c.db := by
  refine ⟨fun e he => ?_, h.membersInvited⟩
  obtain ⟨hids, heffect⟩ := h.change he
  exact heffect.keepsForeignRooms hids

/-- User 2 was taken into conversation 1, user 3 has asked in vain to drop it. -/
theorem rooms_guarded_lobby :
    ∃ log c, Session True log c ∧ c.db.ConvMember 1 2 ∧ (∃ e ∈ log, e.user = 3 ∧
      e.route = some (.convDrop { convId := 1 })) ∧
      (∀ e ∈ log, e.KeepsForeignRooms) ∧ MembersInvited log c.db := by
  have hplay : (lobbyPlay [requestBy 3 2 1 (.conv { convId := 1 })]).any (fun x =>
      decide (x.2.db.ConvMember 1 2 ∧ ∃ e ∈ x.1, e.user = 3 ∧
        e.route = some (.convDrop { convId := 1 }))) = true := by
    rw [lobbyPlay_eq]
    decide
  obtain ⟨⟨log, c⟩, hrun, hfacts⟩ := (Option.any_eq_true _ _).mp hplay
  obtain ⟨hmember, hasked⟩ := of_decide_eq_true hfacts
  exact ⟨log, c, lobbyPlay_session hrun, hmember, hasked, rooms_guarded (lobbyPlay_session hrun)⟩

/-! ## Admins -/

/-- The admin of every conversation is one of its members. -/
def AdminsIn (db : Db) : Prop := ∀ r ∈ db.conversations, db.ConvMember r.id r.adminId

instance (db : Db) : Decidable (AdminsIn db) :=
  inferInstanceAs (Decidable (∀ r ∈ db.conversations, db.ConvMember r.id r.adminId))

/-- The body of a request to leave. -/
def Route.quits? : Route → Option RequestConv
  | convQuit rconv => some rconv
  | _ => none

/-- An admin who asks to leave names nobody else. -/
def Served.AdminNamesSelf (e : Served) : Prop :=
  ∀ rconv ∈ e.route.bind Route.quits?,
    e.pre.db.ConvAdmin rconv.convId.toNat e.user → rconv.userId.toNat = e.user

instance (e : Served) : Decidable e.AdminNamesSelf :=
  inferInstanceAs (Decidable (∀ rconv ∈ e.route.bind Route.quits?,
    e.pre.db.ConvAdmin rconv.convId.toNat e.user → rconv.userId.toNat = e.user))

theorem adminsIn_step {e : Served} (heffect : e.Effective) (hquit : e.AdminNamesSelf)
    (h : AdminsIn e.pre.db) : AdminsIn e.post.db := by
  intro r hr
  rcases heffect with hsame | ⟨req, route, hreq, hroute, hchange⟩
  · rw [hsame] at hr ⊢
    exact h r hr
  rcases hchange.rooms with ⟨hc, hmem⟩ | ⟨_, name, rowid, -, -, hc, hmem⟩ | ⟨_, -, -, hc, hmem⟩ |
    ⟨rconv, rowid, -, -, hc, hmem⟩ | ⟨rconv, rfl, -, hwho, hc, hmem⟩
  · rw [hc] at hr
    obtain ⟨m, hm, hrow⟩ := h r hr
    exact ⟨m, by rw [hmem]; exact hm, hrow⟩
  · rw [hc] at hr
    rcases List.mem_append.mp hr with hr | hr
    · obtain ⟨m, hm, hrow⟩ := h r hr
      exact ⟨m, by rw [hmem]; exact List.mem_append_left _ hm, hrow⟩
    · obtain rfl := List.mem_singleton.mp hr
      refine ⟨⟨rowid, e.pre.db.nextConv, req.header.userId.toNat⟩, ?_, rfl, rfl⟩
      rw [hmem]
      exact List.mem_append_right _ (List.mem_singleton_self _)
  · rw [hc] at hr
    obtain ⟨hr, hne⟩ := List.mem_filter.mp hr
    obtain ⟨m, hm, hconv, huser⟩ := h r hr
    refine ⟨m, ?_, hconv, huser⟩
    rw [hmem]
    exact List.mem_filter.mpr ⟨hm, by rw [hconv]; exact hne⟩
  · rw [hc] at hr
    obtain ⟨m, hm, hrow⟩ := h r hr
    exact ⟨m, by rw [hmem]; exact List.mem_append_left _ hm, hrow⟩
  · rw [hc] at hr
    obtain ⟨m, hm, hconv, huser⟩ := h r hr
    refine ⟨m, ?_, hconv, huser⟩
    rw [hmem]
    refine List.mem_filter.mpr ⟨hm, ?_⟩
    -- the one who leaves is not the admin
    have hnot : ¬ e.pre.db.ConvAdmin rconv.convId.toNat req.header.userId.toNat := by
      intro hadmin
      have hself := hquit rconv (by rw [hroute]; rfl) (by rw [Served.user_eq hreq]; exact hadmin)
      rw [Served.user_eq hreq] at hself
      exact hwho.mp (UInt32.toNat_inj.mp hself) hadmin
    have hkept : ¬ (m.convId = rconv.convId.toNat ∧ m.userId = req.header.userId.toNat) := by
      rintro ⟨hid, hleaves⟩
      exact hnot ⟨r, hr, hconv.symm.trans hid, huser.symm.trans hleaves⟩
    simpa using not_and_or.mp hkept

/-- The admin of a conversation stays its member while no admin asks for somebody
    else to leave. -/
theorem admin_stays (h : Session True log c) (hquit : ∀ e ∈ log, e.AdminNamesSelf) :
    AdminsIn c.db := by
  refine h.induct (I := fun log c => (∀ e ∈ log, e.AdminNamesSelf) → AdminsIn c.db) ?_ ?_ ?_ hquit
  · rintro - r ⟨⟩
  · intro log e _ heffect _ ih hquit
    exact adminsIn_step heffect (hquit e (by simp))
      (ih fun e' he' => hquit e' (List.mem_append_left _ he'))
  · exact fun _ _ _ _ ih => ih

/-- User 2 leaves conversation 1; its admin stays. -/
theorem admin_stays_lobby :
    ∃ log c, Session True log c ∧ (∀ e ∈ log, e.AdminNamesSelf) ∧ c.db.conversations ≠ [] ∧
      ¬ c.db.ConvMember 1 2 ∧ AdminsIn c.db := by
  have hplay : (lobbyPlay [requestBy 2 2 3 (.conv { convId := 1, userId := 2 })]).any (fun x =>
      decide ((∀ e ∈ x.1, e.AdminNamesSelf) ∧ x.2.db.conversations ≠ [] ∧
        ¬ x.2.db.ConvMember 1 2)) = true := by
    rw [lobbyPlay_eq]
    decide
  obtain ⟨⟨log, c⟩, hrun, hfacts⟩ := (Option.any_eq_true _ _).mp hplay
  obtain ⟨hquit, hconvs, hleft⟩ := of_decide_eq_true hfacts
  exact ⟨log, c, lobbyPlay_session hrun, hquit, hconvs, hleft,
    admin_stays (lobbyPlay_session hrun) hquit⟩

/-- User 1, the admin of conversation 1, asks for user 2 to leave, and leaves. -/
theorem kick_removes_admin :
    ∃ log c, Session False log c ∧ ¬ AdminsIn c.db := by
  have hplay : (lobbyPlay [requestBy 1 2 3 (.conv { convId := 1, userId := 2 })]).any (fun x =>
      decide (¬ AdminsIn x.2.db)) = true := by
    rw [lobbyPlay_eq]
    decide
  obtain ⟨⟨log, c⟩, hrun, hfacts⟩ := (Option.any_eq_true _ _).mp hplay
  exact ⟨log, c, lobbyPlay_session hrun, of_decide_eq_true hfacts⟩

/-! ## Departures -/

/-- What the answer to a request to leave says: 200, and the named user and nobody
    else has left; any other answer, and nobody has. -/
structure QuitsNamed (rconv : RequestConv) (c c' : Conn) (out : Handled) : Prop where
  left : out.sent = [.convQuit 200] → c'.db.members = c.db.members.filter fun m =>
    !(m.convId = rconv.convId.toNat && m.userId = rconv.userId.toNat)
  stayed : out.sent ≠ [.convQuit 200] → c'.db.members = c.db.members

theorem Refused.quitsNamed {c c' : Conn} {out : Handled} (h : Refused c c' out)
    (rconv : RequestConv) : QuitsNamed rconv c c' out := by
  obtain ⟨rfl, status, group, action, rfl⟩ := h
  exact ⟨by simp, fun _ => rfl⟩

/-- The request of an admin for another member to leave, when no call fails: the
    admin is gone, and it is answered with 200. -/
theorem served_kick {header : RequestHeader} {rconv : RequestConv} {c : Conn}
    (hmember : c.db.ConvMember rconv.convId.toNat header.userId.toNat)
    (hadmin : c.db.ConvAdmin rconv.convId.toNat header.userId.toNat)
    (hother : rconv.userId ≠ header.userId) :
    Runs Serves c (handleConvQuit header rconv)
      { c with db := c.db.deleteMembers fun m =>
        m.convId = rconv.convId.toNat && m.userId = header.userId.toNat }
      { sent := [.convQuit 200] } := by
  simp only [handleConvQuit, runs_bind]
  refine ⟨c, (true, .ok), served_sqlExists (convMember_rows.mpr hmember), ?_⟩
  dsimp only
  rw [if_neg (by simp [sqlIsErr, sqlIsOk]), if_neg (by simp)]
  simp only [runs_bind]
  refine ⟨c, (true, .ok), served_sqlExists (convAdmin_rows.mpr hadmin), ?_⟩
  dsimp only
  rw [if_neg (by simp [sqlIsErr, sqlIsOk]), if_neg (by simp), if_neg (by simp [hother])]
  simp only [runs_bind]
  refine ⟨_, _, served_sqlExec (by simp), ?_⟩
  rw [if_neg (by simp [Stmt.run, Stmt.apply, sqlIsErr, sqlIsOk])]
  exact .ret _ _

/-- The answer to a request to leave is true of the members, whichever calls fail, if
    and only if it is not that of an admin, who is a member, for somebody else. -/
theorem quit_removes_named_iff {env : Env} {r : Request} {rconv : RequestConv} {c : Conn}
    (hroute : r.route = some (.convQuit rconv)) (henv : env.verified = true) :
    (∀ c' out, Runs Answers c (handleReq env (some r)) c' out → QuitsNamed rconv c c' out) ↔
      (c.db.ConvMember rconv.convId.toNat r.header.userId.toNat →
        c.db.ConvAdmin rconv.convId.toNat r.header.userId.toNat →
        rconv.userId = r.header.userId) := by
  rw [handleReq_of_route henv hroute]
  constructor
  · intro h hmember hadmin
    by_contra hother
    have hquits := h _ _ ((served_kick hmember hadmin hother).mono Serves.le)
    have hleft := hquits.left rfl
    -- the row of the admin is gone, but is not the one that was named
    obtain ⟨m, hm, hconv, huser⟩ := hmember
    have hkept : m ∈ c.db.members.filter fun m =>
        !(m.convId = rconv.convId.toNat && m.userId = rconv.userId.toNat) := by
      refine List.mem_filter.mpr ⟨hm, ?_⟩
      have hne : m.userId ≠ rconv.userId.toNat := by
        rw [huser]
        intro heq
        exact hother (UInt32.toNat_inj.mp heq).symm
      simp [hne]
    rw [← hleft] at hkept
    simpa [hconv, huser] using (List.mem_filter.mp hkept).2
  · intro hcond c' out hrun
    rcases runs_handleConvQuit hrun with hrefused | ⟨hmember, hwho, rfl, rfl⟩
    · exact hrefused.quitsNamed rconv
    · -- an admin would have named himself, and was refused
      have hself : rconv.userId = r.header.userId := by
        by_contra hother
        have hadmin := not_not.mp (mt hwho.mpr hother)
        exact hother (hcond hmember hadmin)
      refine ⟨fun _ => ?_, fun hne => absurd rfl hne⟩
      rw [hself]
      rfl

/-- User 2 asks to leave conversation 1, and is the one who leaves. -/
theorem quit_removes_named_iff_lobby :
    ∃ c c' out, (∃ log, Session True log c) ∧ c.db.ConvMember 1 2 ∧ ¬ c'.db.ConvMember 1 2 ∧
      Runs Answers c (handleReq lobbyEnv
        (some (requestBy 2 2 3 (.conv { convId := 1, userId := 2 })))) c' out ∧
      QuitsNamed { convId := 1, userId := 2 } c c' out := by
  have hplay : (lobbyPlay []).any (fun x => decide (x.2.db.ConvMember 1 2 ∧
      ¬ x.2.db.ConvAdmin 1 2 ∧
      (execute serve 32 x.2 (handleReq lobbyEnv
        (some (requestBy 2 2 3 (.conv { convId := 1, userId := 2 }))))).any
          fun y => decide (¬ y.1.db.ConvMember 1 2))) = true := by
    rw [lobbyPlay_eq]
    decide
  obtain ⟨⟨log, c⟩, hrun, hfacts⟩ := (Option.any_eq_true _ _).mp hplay
  obtain ⟨hmember, hadmin, hexec⟩ := of_decide_eq_true hfacts
  obtain ⟨⟨c', out⟩, hquit, hleft⟩ := (Option.any_eq_true _ _).mp hexec
  have hruns := runs_of_execute answers_of_serve hquit
  have hquits := (quit_removes_named_iff rfl rfl).mpr (fun _ h => absurd h hadmin) c' out hruns
  exact ⟨c, c', out, ⟨log, lobbyPlay_session hrun⟩, hmember, of_decide_eq_true hleft, hruns, hquits⟩

/-- User 1, the admin of conversation 1, asks for user 2 to leave. The answer is 200,
    but user 2 is still there and user 1 is not. -/
theorem kick_leaves_named :
    ∃ c c' out, (∃ log, Session False log c) ∧
      Runs Answers c (handleReq lobbyEnv
        (some (requestBy 1 2 3 (.conv { convId := 1, userId := 2 })))) c' out ∧
      out.sent = [.convQuit 200] ∧ c'.db.ConvMember 1 2 ∧
      ¬ QuitsNamed { convId := 1, userId := 2 } c c' out := by
  have hplay : (lobbyPlay []).any (fun x =>
      (execute serve 32 x.2 (handleReq lobbyEnv
        (some (requestBy 1 2 3 (.conv { convId := 1, userId := 2 }))))).any
          fun y => decide (y.2.sent = [.convQuit 200] ∧ y.1.db.ConvMember 1 2)) = true := by
    rw [lobbyPlay_eq]
    decide
  obtain ⟨⟨log, c⟩, hrun, hexec⟩ := (Option.any_eq_true _ _).mp hplay
  obtain ⟨⟨c', out⟩, hquit, hfacts⟩ := (Option.any_eq_true _ _).mp hexec
  obtain ⟨hsent, hmember⟩ := of_decide_eq_true hfacts
  refine ⟨c, c', out, ⟨log, lobbyPlay_session hrun⟩, runs_of_execute answers_of_serve hquit, hsent,
    hmember, fun hquits => ?_⟩
  -- nobody but the named user would be missing
  obtain ⟨m, hm, hconv, huser⟩ := hmember
  have hleft := hquits.left hsent
  rw [hleft] at hm
  simpa [hconv, huser] using (List.mem_filter.mp hm).2

end MeshChat
