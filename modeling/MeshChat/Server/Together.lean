import MeshChat.Server.Asked
import MeshChat.Server.Storage

/-! # Rows while requests run together

    Any requests of any users, their calls to sqlite in any order and any of them
    failing, transactions of one thread open while others write.

    * `rows_authored`: a row that was not there at the start was put there by a
      request that asks for it, of a user who was entitled to it.
    * `rows_guarded`: a row that is no longer there, or no longer what it was, was
      removed or rewritten by a request that asks for that, of a user who was entitled
      to it.
-/

namespace MeshChat

open CMemory SqlLex Prog

/-! ## Where rows come from -/

/-- The message is what is left of another one. -/
def MsgRow.Remains (m m₀ : MsgRow) : Prop :=
  ∃ content type, (content = m₀.content ∨ content = default) ∧ m = { m₀ with content, type }

theorem MsgRow.Remains.refl (m : MsgRow) : m.Remains m := ⟨m.content, m.type, Or.inl rfl, rfl⟩

theorem MsgRow.Remains.trans {a b c : MsgRow} (h : a.Remains b) (h' : b.Remains c) :
    a.Remains c := by
  obtain ⟨content, type, hcontent, rfl⟩ := h
  obtain ⟨content', type', hcontent', rfl⟩ := h'
  refine ⟨content, type, ?_, rfl⟩
  rcases hcontent with rfl | rfl
  · exact hcontent'
  · exact Or.inr rfl

theorem MsgRow.remains_delivered (t : MsgType) (m : MsgRow) :
    MsgRow.Remains { m with type := t } m := ⟨m.content, t, Or.inl rfl, rfl⟩

theorem MsgRow.remains_cleared (m : MsgRow) :
    MsgRow.Remains { m with content := default, type := .deleted } m :=
  ⟨default, .deleted, Or.inr rfl, rfl⟩

/-- Only messages are ever rewritten. -/
def Row.Remains : Row → Row → Prop
  | .msg m, .msg m₀ => m.Remains m₀
  | row, row₀ => row = row₀

theorem Row.Remains.refl (row : Row) : row.Remains row := by
  cases row with
  | msg m => exact MsgRow.Remains.refl m
  | _ => rfl

theorem Row.Remains.trans {a b c : Row} (h : a.Remains b) (h' : b.Remains c) : a.Remains c := by
  cases a with
  | msg m =>
    cases b with
    | msg m' =>
      cases c with
      | msg m'' => exact MsgRow.Remains.trans h h'
      | _ => cases h'
    | _ => cases h
  | _ =>
    have hab := h
    simp only [Row.Remains] at hab
    rw [hab]
    exact h'

/-- The row is one that the statement inserts into these tables. -/
def Stmt.Inserts (s : Stmt) (c : Conn) (row : Row) : Prop :=
  s.newRow c.lastRowid row.rowid = some row ∧ ¬ c.db.Has row

/-- An update leaves what it does not rewrite. -/
theorem Db.has_updateMessage {db : Db} {id : Nat} {f : MsgRow → MsgRow}
    (hf : ∀ m, (f m).Remains m) {row : Row} (h : (db.updateMessage id f).Has row) :
    ∃ row₀, row.Remains row₀ ∧ db.Has row₀ := by
  cases row with
  | msg m =>
    obtain ⟨m₀, hm₀, rfl⟩ := List.mem_map.mp h
    refine ⟨.msg m₀, ?_, hm₀⟩
    show MsgRow.Remains _ m₀
    split
    · exact hf m₀
    · exact MsgRow.Remains.refl m₀
  | _ => exact ⟨_, rfl, h⟩

/-- A row behind a write was there before, up to an update, or is new. -/
theorem Stmt.has_apply {s : Stmt} {c : Conn} {k : WriteKind} {x : Db × Option Nat} {row : Row}
    (heffect : s.effect = .writes k) (happly : s.apply c.fk c.lastRowid c.db = some x)
    (h : x.1.Has row) : (∃ row₀, row.Remains row₀ ∧ c.db.Has row₀) ∨ s.Inserts c row := by
  cases k with
  | insert =>
    obtain ⟨row', hnew, -, hadded⟩ := Stmt.apply_insert heffect happly
    rcases (hadded.has row).mp h with hold | rfl
    · exact Or.inl ⟨row, .refl row, hold⟩
    · exact Or.inr ⟨hnew, hadded.fresh⟩
  | delete => exact Or.inl ⟨row, .refl row, Stmt.apply_delete_within heffect happly row h⟩
  | update =>
    cases s with
    | setMessageType id t =>
      cases happly
      exact Or.inl (Db.has_updateMessage (MsgRow.remains_delivered t) h)
    | clearMessage id =>
      cases happly
      exact Or.inl (Db.has_updateMessage MsgRow.remains_cleared h)
    | _ => cases heffect

/-- The tables behind a statement are those before it, what it makes of them, or those that a
    rollback brings back. -/
theorem Stmt.run_db (s : Stmt) (c : Conn) :
    (s.run c).1.db = c.db ∨
      (∃ k x, s.effect = .writes k ∧ s.apply c.fk c.lastRowid c.db = some x ∧
        (s.run c).1.db = x.1) ∨
      ∃ db ∈ c.saved, (s.run c).1.db = db := by
  have hdb := s.run_effect c
  cases heffect : s.effect with
  | writes k =>
    rcases Stmt.run_of_writes heffect c with ⟨x, happly, hrun⟩ | ⟨-, hrun⟩
    · exact Or.inr (Or.inl ⟨k, x, rfl, happly, by rw [hrun]⟩)
    · exact Or.inl (by rw [hrun])
  | rollsBack =>
    rw [heffect] at hdb
    rw [hdb.1]
    cases hsaved : c.saved with
    | none => exact Or.inl rfl
    | some db => exact Or.inr (Or.inr ⟨db, rfl, rfl⟩)
  | mixed => cases s <;> cases heffect
  | _ =>
    rw [heffect] at hdb
    exact Or.inl hdb.1

/-- The tables of an open transaction are those before the call, or the current ones. -/
theorem Answers.saved_cases {c c' : Conn} {call : SqlCall} {r : Reply} (h : Answers c call c' r)
    (hmodel : call.Modelled) (hmixed : call.effect ≠ .mixed) {db : Db} (hdb : db ∈ c'.saved) :
    db ∈ c.saved ∨ db = c.db := by
  have heffect := h.effect hmodel
  cases hcall : call.effect with
  | neutral => rw [hcall] at heffect; exact Or.inl (heffect.2 ▸ hdb)
  | opens =>
    rw [hcall] at heffect
    rcases heffect.2 with hsame | ⟨-, hopen⟩
    · exact Or.inl (hsame ▸ hdb)
    · rw [hopen] at hdb
      exact Or.inr (Option.mem_some.mp hdb).symm
  | commits =>
    rw [hcall] at heffect
    rcases heffect.2 with hsame | hclosed
    · exact Or.inl (hsame ▸ hdb)
    · rw [hclosed] at hdb
      cases hdb
  | rollsBack =>
    rw [hcall] at heffect
    rw [heffect.2] at hdb
    cases hdb
  | writes k => rw [hcall] at heffect; exact Or.inl (heffect.1 ▸ hdb)
  | mixed => exact absurd hcall hmixed

/-- So are the tables behind a call. -/
theorem Answers.db_cases {c c' : Conn} {call : SqlCall} {r : Reply} (h : Answers c call c' r)
    (hmodel : call.Modelled) (hmixed : call.effect ≠ .mixed) :
    c'.db = c.db ∨
      (∃ s ∈ call.stmts, ∃ k x, s.effect = .writes k ∧ s.apply c.fk c.lastRowid c.db = some x ∧
        c'.db = x.1) ∨
      ∃ db ∈ c.saved, c'.db = db := by
  cases h.outcome hmodel with
  | @ran _ s _ hstmt _ =>
    have hmem : s ∈ call.stmts := by
      rcases SqlCall.eq_of_stmt hstmt with rfl | rfl <;> simp [SqlCall.stmts]
    exact (s.run_db c).imp id (Or.imp (fun hwrites => ⟨s, hmem, hwrites⟩) id)
  | began fk =>
    left
    simp only [Stmt.run]
    split <;> rfl
  | mixed heffect => exact absurd heffect hmixed
  | _ => exact Or.inl rfl

/-- A row behind a call. -/
theorem Answers.has {c c' : Conn} {call : SqlCall} {r : Reply} (h : Answers c call c' r)
    (hmodel : call.Modelled) (hmixed : call.effect ≠ .mixed) {row : Row} (hrow : c'.db.Has row) :
    (∃ row₀, row.Remains row₀ ∧ (c.db.Has row₀ ∨ ∃ db ∈ c.saved, db.Has row₀)) ∨
      ∃ s ∈ call.stmts, s.Inserts c row := by
  rcases h.db_cases hmodel hmixed with hsame | ⟨s, hs, k, x, heffect, happly, hpost⟩ | ⟨db, hdb, hback⟩
  · exact Or.inl ⟨row, .refl row, Or.inl (hsame ▸ hrow)⟩
  · rcases Stmt.has_apply heffect happly (hpost ▸ hrow) with ⟨row₀, hremains, hold⟩ | hnew
    · exact Or.inl ⟨row₀, hremains, Or.inl hold⟩
    · exact Or.inr ⟨s, hs, hnew⟩
  · exact Or.inl ⟨row, .refl row, Or.inr ⟨db, hdb, hback ▸ hrow⟩⟩

/-! ## Who puts a row there -/

/-- The request asks for the row, and its user has found what entitles to it; `last` is the
    rowid that the connection has used last. -/
def Row.AuthoredBy (env : Env) (r : Request) (seen : Check → Prop) (last : Nat) : Row → Prop
  | user u => ∃ ra password, r.route = some (.authRegister ra) ∧ ra.uname = some u.uname ∧
      ra.password = some password ∧ hashStr env password = some u.password ∧
      ra.phone = some u.phone ∧ ra.email = some u.email
  | conv k => ∃ rconv, r.route = some (.convCreate rconv) ∧ k.adminId = r.header.userId.toNat ∧
      rconv.gname = some k.name
  -- the founder, or one who was taken in by a member
  | member m => (∃ rconv, r.route = some (.convCreate rconv) ∧ m.convId = last ∧
        m.userId = r.header.userId.toNat) ∨
      ∃ rconv, r.route = some (.convJoin rconv) ∧ m.convId = rconv.convId.toNat ∧
        m.userId = rconv.userId.toNat ∧ seen (.convMember m.convId r.header.userId.toNat)
  | chat k => ∃ rchat, r.route = some (.chatCreate rchat) ∧
      k.member1 = r.header.userId.toNat ∧ k.member2 = rchat.userId2.toNat ∧ k.member1 ≠ k.member2
  | msg m => ∃ rm msg ops, r.route = some (.msgSend rm) ∧ Composed env r.header rm msg ops ∧
      (Stmt.insertMessage (msg.newMsg env.now)).newRow last m.id = some (.msg m) ∧
      (seen (.convMember rm.convId.toNat r.header.userId.toNat) ∨
        seen (.chatMember rm.chatId.toNat r.header.userId.toNat))

/-- What a request composes is from its user and for the rooms that it names. -/
theorem Composed.fields {env : Env} {header : RequestHeader} {rm : RequestMsgBody}
    {msg : MsgSchema} {ops : List FileOp} (h : Composed env header rm msg ops) :
    msg.fromUid = header.userId ∧ msg.convId = rm.convId ∧ msg.chatId = rm.chatId := by
  cases h with
  | text _ _ => exact ⟨rfl, rfl, rfl⟩
  | file _ _ _ => exact ⟨rfl, rfl, rfl⟩

/-- A room that is written down as the one of a request is that one. -/
theorem nullable_inj {a b : UInt32} (h : nullable a = nullable b) : a = b := by
  unfold nullable at h
  split at h
  · rename_i ha
    split at h
    · rename_i hb
      rw [ha, hb]
    · cases h
  · split at h
    · cases h
    · exact UInt32.toNat_inj.mp (Option.some.inj h)

/-- A row that is inserted by a permitted statement that the request asks for. -/
theorem Stmt.Permitted.authored {s : Stmt} {env : Env} {r : Request} {seen : Check → Prop}
    {last : Nat} {row : Row} (h : s.Permitted r.header.userId.toNat seen) (hasked : s.AskedIn env r)
    (hrow : s.newRow last row.rowid = some row) : row.AuthoredBy env r seen last := by
  obtain ⟨route, hroute, hasked⟩ := hasked
  cases s with
  | insertUser u p ph e =>
    obtain ⟨ra, password, rfl, huname, hpassword, hhash, hphone, hemail⟩ := hasked
    have huser := Option.some.inj hrow
    rw [← huser]
    exact ⟨ra, password, hroute, huname, hpassword, hhash, hphone, hemail⟩
  | insertConversation a n =>
    obtain ⟨rconv, rfl, hadmin, hname⟩ := hasked
    have hconv := Option.some.inj hrow
    rw [← hconv]
    exact ⟨rconv, hroute, hadmin, hname⟩
  | insertMemberOfLast u =>
    obtain ⟨rconv, rfl, huser⟩ := hasked
    have hmember := Option.some.inj hrow
    rw [← hmember]
    exact Or.inl ⟨rconv, hroute, rfl, huser⟩
  | insertMember c u =>
    obtain ⟨rconv, rfl, hconv, huser⟩ := hasked
    have hmember := Option.some.inj hrow
    rw [← hmember]
    exact Or.inr ⟨rconv, hroute, hconv, huser, h⟩
  | insertChat a b =>
    obtain ⟨rchat, rfl, hfirst, hsecond⟩ := hasked
    have hchat := Option.some.inj hrow
    rw [← hchat]
    exact ⟨rchat, hroute, hfirst, hsecond, h.2.1⟩
  | insertMessage nm =>
    obtain ⟨rm, msg, ops, rfl, hcomposed, rfl⟩ := hasked
    obtain ⟨-, hconv, hchat⟩ := hcomposed.fields
    obtain ⟨-, -, hroom⟩ := h
    have hmsg := Option.some.inj hrow
    rw [← hmsg] at hrow ⊢
    refine ⟨rm, msg, ops, hroute, hcomposed, hrow, ?_⟩
    -- the room of the row is the room that was found
    rcases hroom with ⟨c, hc, hseen⟩ | ⟨c, hc, hseen⟩
    · obtain rfl := nullable_inj hc
      exact Or.inl (hconv ▸ hseen)
    · obtain rfl := nullable_inj hc
      exact Or.inr (hchat ▸ hseen)
  | _ => cases hrow

section Together

variable {ι : Type} [DecidableEq ι] {env : ι → Env} {req : ι → Request} {c₀ c : Conn}
  {log : List (Entry ι SqlCall Reply Conn)}

/-- The row was put there by a call of the run, for a request that asks for it, and its
    request had found what entitles to it in calls before. -/
def AuthoredIn (env : ι → Env) (req : ι → Request) (log : List (Entry ι SqlCall Reply Conn))
    (row : Row) : Prop :=
  ∃ before e behind, log = before ++ e :: behind ∧
    ((env e.tid).verified = true ∨ ∃ u, row = .user u) ∧
    ¬ e.pre.db.Has row ∧ e.post.db.Has row ∧
    row.AuthoredBy (env e.tid) (req e.tid) (FoundBy before e.tid) e.pre.lastRowid

omit [DecidableEq ι] in
theorem AuthoredIn.snoc {row : Row} (h : AuthoredIn env req log row)
    (e : Entry ι SqlCall Reply Conn) : AuthoredIn env req (log ++ [e]) row := by
  obtain ⟨before, e', behind, rfl, hauthor⟩ := h
  exact ⟨before, e', behind ++ [e], by simp, hauthor⟩

omit [DecidableEq ι] in
/-- A statement without a token writes nothing but accounts. -/
theorem Warranted.authored {e : Entry ι SqlCall Reply Conn} {s : Stmt} {row : Row}
    (h : Warranted env req log e.tid s) (hasked : s.AskedIn (env e.tid) (req e.tid))
    (hinserts : s.Inserts e.pre row) (hrow : e.post.db.Has row) :
    AuthoredIn env req (log ++ [e]) row := by
  obtain ⟨hpermitted, hverified⟩ := h
  obtain ⟨hnew, hfresh⟩ := hinserts
  refine ⟨log, e, [], rfl, ?_, hfresh, hrow, hpermitted.authored hasked hnew⟩
  rcases hverified with hverified | rfl | ⟨u, p, ph, e, rfl⟩
  · exact Or.inl hverified
  · cases hnew
  · exact Or.inr ⟨_, (Option.some.inj hnew).symm⟩

/-- The row, or the one that it remains of, was there at the start or was put there by a
    request. -/
def Stems (env : ι → Env) (req : ι → Request) (c₀ : Conn)
    (log : List (Entry ι SqlCall Reply Conn)) (row : Row) : Prop :=
  ∃ row₀, row.Remains row₀ ∧ (c₀.db.Has row₀ ∨ AuthoredIn env req log row₀)

omit [DecidableEq ι] in
theorem Stems.snoc {row : Row} (h : Stems env req c₀ log row) (e : Entry ι SqlCall Reply Conn) :
    Stems env req c₀ (log ++ [e]) row := by
  obtain ⟨row₀, hremains, hstart | hauthor⟩ := h
  · exact ⟨row₀, hremains, Or.inl hstart⟩
  · exact ⟨row₀, hremains, Or.inr (hauthor.snoc e)⟩

omit [DecidableEq ι] in
theorem Stems.of_remains {row row₀ : Row} (h : Stems env req c₀ log row₀) (hr : row.Remains row₀) :
    Stems env req c₀ log row := by
  obtain ⟨row₁, hremains, hstem⟩ := h
  exact ⟨row₁, hr.trans hremains, hstem⟩

/-- Whatever order the calls of any requests come in, every row that was not there at the
    start was put there by a request that asks for it, of a user who was entitled to it, or
    is what is left of one. -/
theorem rows_authored (hquote : ∀ i, (req i).QuoteFree) (hidle : c₀.saved = none)
    (h : HandledTogether env req c₀ log c) {row : Row} (hrow : c.db.Has row) :
    Stems env req c₀ log row := by
  -- also in the tables that a rollback would bring back
  have hstems : (∀ row, c.db.Has row → Stems env req c₀ log row) ∧
      ∀ db ∈ c.saved, ∀ row, db.Has row → Stems env req c₀ log row := by
    clear hrow row
    induction h with
    | start =>
      refine ⟨fun row hrow => ⟨row, .refl row, Or.inl hrow⟩, ?_⟩
      rw [hidle]
      simp
    | @step log s s' i call r hprev hissue hcall ih =>
      obtain ⟨ihdb, ihsaved⟩ := ih
      obtain ⟨hmodel, hmixed, hwarranted, -⟩ := allowed_next hquote hprev hissue
      have hasked := asked_next hquote hprev hissue
      refine ⟨fun row hrow => ?_, fun db hdb row hrow => ?_⟩
      · rcases hcall.has hmodel hmixed hrow with ⟨row₀, hremains, hold⟩ | ⟨st, hst, hinserts⟩
        · have hbefore : Stems env req c₀ log row₀ := by
            rcases hold with hold | ⟨db, hdb, hold⟩
            · exact ihdb row₀ hold
            · exact ihsaved db hdb row₀ hold
          exact (hbefore.of_remains hremains).snoc _
        · have hauthored : AuthoredIn env req (log ++ [⟨i, call, r, s, s'⟩]) row :=
            Warranted.authored (hwarranted st hst) (hasked st hst) hinserts hrow
          exact ⟨row, .refl row, Or.inr hauthored⟩
      · rcases hcall.saved_cases hmodel hmixed hdb with hold | rfl
        · exact (ihsaved db hold row hrow).snoc _
        · exact (ihdb row hrow).snoc _
  exact hstems.1 row hrow

end Together

/-- User 3 was taken in by somebody who was entitled to that. -/
theorem rows_authored_meet :
    ∃ log c, HandledTogether (fun _ => lobbyEnv) meetReq meetConn log c ∧
      c.db.Has (.member ⟨3, 1, 3⟩) ∧
      Stems (fun _ => lobbyEnv) meetReq meetConn log (.member ⟨3, 1, 3⟩) := by
  obtain ⟨log, c, hrun, hrow⟩ := meet_played (p := fun c => c.db.Has (.member ⟨3, 1, 3⟩))
    [true, true, false, false, true, true, true, true, true] (by decide +kernel)
  exact ⟨log, c, hrun, hrow, rows_authored meetReq_quoteFree rfl hrun hrow⟩

/-! ## Who removes or rewrites a row -/

/-- The request asks for the removal of the row, or rewrites it, and its user has found what
    entitles to that. -/
def Row.RemovableBy (r : Request) (seen : Check → Prop) (c : Conn) : Row → Prop
  | user _ => False
  | conv k => ∃ rconv, r.route = some (.convDrop rconv) ∧ k.id = rconv.convId.toNat ∧
      seen (.convAdmin k.id r.header.userId.toNat)
  -- nobody but the admin removes somebody else, and only with the conversation
  | member m => (∃ rconv, r.route = some (.convQuit rconv) ∧ m.convId = rconv.convId.toNat ∧
        m.userId = r.header.userId.toNat ∧ seen (.convMember m.convId m.userId)) ∨
      ∃ rconv, r.route = some (.convDrop rconv) ∧ m.convId = rconv.convId.toNat ∧
        seen (.convAdmin m.convId r.header.userId.toNat)
  | chat k => ∃ rchat, r.route = some (.chatDrop rchat) ∧ k.id = rchat.chatId.toNat ∧
      seen (.chatMember k.id r.header.userId.toNat)
  -- read or deleted by one of its room, or gone with a room or with what it answers
  | msg m => (∃ rm, (r.route = some (.msgGetDetail rm) ∨ r.route = some (.msgDelete rm)) ∧
        m.id = rm.msgId.toNat ∧ MayRead r.header.userId.toNat seen m.id) ∨
      (∃ rconv m', r.route = some (.convDrop rconv) ∧
        seen (.convAdmin rconv.convId.toNat r.header.userId.toNat) ∧ m'.id = m.id ∧
        GoesWith c.db.messages c.fk (·.convId = some rconv.convId.toNat) m') ∨
      ∃ rchat m', r.route = some (.chatDrop rchat) ∧
        seen (.chatMember rchat.chatId.toNat r.header.userId.toNat) ∧ m'.id = m.id ∧
        GoesWith c.db.messages c.fk (·.chatId = some rchat.chatId.toNat) m'

section Lost

variable {db : Db} {fk : Bool} {row : Row}

theorem Db.lost_deleteMembers {p : MemberRow → Bool} (h : db.Has row)
    (hlost : ¬ (db.deleteMembers p).Has row) : ∃ m, row = .member m ∧ p m = true := by
  cases row with
  | member m =>
    refine ⟨m, rfl, ?_⟩
    by_contra hkept
    exact hlost (List.mem_filter.mpr ⟨h, by simpa using hkept⟩)
  | _ => exact absurd h hlost

theorem Db.lost_deleteMessages {p : MsgRow → Bool} (h : db.Has row)
    (hlost : ¬ (db.deleteMessages fk p).Has row) :
    ∃ m m', row = .msg m ∧ m'.id = m.id ∧ GoesWith db.messages fk (p · = true) m' := by
  cases row with
  | msg m =>
    obtain ⟨m', hid, hgoes⟩ := goesWith_of_gone fk p h hlost
    exact ⟨m, m', rfl, hid, hgoes⟩
  | _ => exact absurd h hlost

/-- What goes with a conversation. -/
theorem Db.lost_deleteConversations {id : Nat} (h : db.Has row)
    (hlost : ¬ (db.deleteConversations fk (·.id = id)).Has row) :
    (∃ k, row = .conv k ∧ k.id = id) ∨ (∃ m, row = .member m ∧ m.convId = id) ∨
      ∃ m m', row = .msg m ∧ m'.id = m.id ∧ GoesWith db.messages fk (·.convId = some id) m' := by
  have hfirst : ¬ Db.Has { db with conversations := db.conversations.filter fun c => !decide (c.id = id) }
      row → ∃ k, row = .conv k ∧ k.id = id := by
    intro hnot
    cases row with
    | conv k =>
      refine ⟨k, rfl, ?_⟩
      by_contra hkept
      exact hnot (List.mem_filter.mpr ⟨h, by simpa using hkept⟩)
    | _ => exact absurd h hnot
  by_cases hconv :
      Db.Has { db with conversations := db.conversations.filter fun c => !decide (c.id = id) } row
  swap
  · exact Or.inl (hfirst hconv)
  right
  unfold Db.deleteConversations at hlost
  dsimp only at hlost
  split at hlost
  swap
  · exact absurd hconv hlost
  rename_i hfk
  subst hfk
  -- the cascade takes the members, and then the messages
  by_cases hmember : (Db.deleteMembers (fun m => m.convId ∈ (db.conversations.filter (·.id = id)).map
      (·.id)) { db with conversations := db.conversations.filter fun c => !decide (c.id = id) }).Has row
  · obtain ⟨m, m', hrow, hid, hgoes⟩ := Db.lost_deleteMessages hmember hlost
    refine Or.inr ⟨m, m', hrow, hid, hgoes.mono (fun _ hm => hm) fun m₁ hany => ?_⟩
    obtain ⟨k, hk, hgone⟩ := (Option.any_eq_true _ _).mp hany
    rw [hk, id_of_mem_filter (of_decide_eq_true hgone)]
  · obtain ⟨m, hrow, hgone⟩ := Db.lost_deleteMembers hconv hmember
    exact Or.inl ⟨m, hrow, id_of_mem_filter (of_decide_eq_true hgone)⟩

/-- What goes with a chat. -/
theorem Db.lost_deleteChats {id : Nat} (h : db.Has row)
    (hlost : ¬ (db.deleteChats fk (·.id = id)).Has row) :
    (∃ k, row = .chat k ∧ k.id = id) ∨
      ∃ m m', row = .msg m ∧ m'.id = m.id ∧ GoesWith db.messages fk (·.chatId = some id) m' := by
  by_cases hchat : Db.Has { db with chats := db.chats.filter fun c => !decide (c.id = id) } row
  · right
    unfold Db.deleteChats at hlost
    dsimp only at hlost
    split at hlost
    swap
    · exact absurd hchat hlost
    rename_i hfk
    subst hfk
    obtain ⟨m, m', hrow, hid, hgoes⟩ := Db.lost_deleteMessages hchat hlost
    refine ⟨m, m', hrow, hid, hgoes.mono (fun _ hm => hm) fun m₁ hany => ?_⟩
    obtain ⟨k, hk, hgone⟩ := (Option.any_eq_true _ _).mp hany
    rw [hk, id_of_mem_filter (of_decide_eq_true hgone)]
  · left
    cases row with
    | chat k =>
      refine ⟨k, rfl, ?_⟩
      by_contra hkept
      exact hchat (List.mem_filter.mpr ⟨h, by simpa using hkept⟩)
    | _ => exact absurd h hchat

theorem Db.lost_updateMessage {id : Nat} {f : MsgRow → MsgRow} (h : db.Has row)
    (hlost : ¬ (db.updateMessage id f).Has row) : ∃ m, row = .msg m ∧ m.id = id := by
  cases row with
  | msg m =>
    refine ⟨m, rfl, ?_⟩
    by_contra hother
    exact hlost (List.mem_map.mpr ⟨m, h, if_neg hother⟩)
  | _ => exact absurd h hlost

end Lost

/-- A permitted statement that the request asks for removes or rewrites only what the user
    may. -/
theorem Stmt.Permitted.removable {s : Stmt} {env : Env} {r : Request} {seen : Check → Prop}
    {c : Conn} {row : Row} {x : Db × Option Nat} (h : s.Permitted r.header.userId.toNat seen)
    (hasked : s.AskedIn env r) (happly : s.apply c.fk c.lastRowid c.db = some x)
    (hrow : c.db.Has row) (hlost : ¬ x.1.Has row) : row.RemovableBy r seen c := by
  -- an insert loses nothing
  have hinsert : s.effect ≠ .writes .insert := by
    intro heffect
    obtain ⟨row', -, -, hadded⟩ := Stmt.apply_insert heffect happly
    exact hlost ((hadded.has row).mpr (Or.inl hrow))
  obtain ⟨route, hroute, hasked⟩ := hasked
  cases s with
  | deleteMember c u =>
    cases happly
    obtain ⟨rconv, rfl, hconv, -⟩ := hasked
    obtain ⟨rfl, hseen⟩ := h
    obtain ⟨m, rfl, hboth⟩ := Db.lost_deleteMembers hrow hlost
    simp only [Bool.and_eq_true, decide_eq_true_eq] at hboth
    obtain ⟨rfl, huser⟩ := hboth
    exact Or.inl ⟨rconv, hroute, hconv, huser, huser ▸ hseen⟩
  | deleteMembersOf c =>
    cases happly
    obtain ⟨rconv, rfl, hconv⟩ := hasked
    obtain ⟨m, rfl, hid⟩ := Db.lost_deleteMembers hrow hlost
    obtain rfl := of_decide_eq_true hid
    exact Or.inr ⟨rconv, hroute, hconv, h⟩
  | deleteConversation c =>
    cases happly
    obtain ⟨rconv, rfl, rfl⟩ := hasked
    rcases Db.lost_deleteConversations hrow hlost with
      ⟨k, rfl, hid⟩ | ⟨m, rfl, hid⟩ | ⟨m, m', rfl, hid, hgoes⟩
    · exact ⟨rconv, hroute, hid, hid ▸ h⟩
    · exact Or.inr ⟨rconv, hroute, hid, hid ▸ h⟩
    · exact Or.inr (Or.inl ⟨rconv, m', hroute, h, hid, hgoes⟩)
  | deleteChat c =>
    cases happly
    obtain ⟨rchat, rfl, rfl⟩ := hasked
    rcases Db.lost_deleteChats hrow hlost with ⟨k, rfl, hid⟩ | ⟨m, m', rfl, hid, hgoes⟩
    · exact ⟨rchat, hroute, hid, hid ▸ h⟩
    · exact Or.inr (Or.inr ⟨rchat, m', hroute, h, hid, hgoes⟩)
  | deleteMessagesOfConv c =>
    cases happly
    obtain ⟨rconv, rfl, rfl⟩ := hasked
    obtain ⟨m, m', rfl, hid, hgoes⟩ := Db.lost_deleteMessages hrow hlost
    exact Or.inr (Or.inl ⟨rconv, m', hroute, h, hid,
      hgoes.mono (fun _ hm => hm) fun _ => of_decide_eq_true⟩)
  | deleteMessagesOfChat c =>
    cases happly
    obtain ⟨rchat, rfl, rfl⟩ := hasked
    obtain ⟨m, m', rfl, hid, hgoes⟩ := Db.lost_deleteMessages hrow hlost
    exact Or.inr (Or.inr ⟨rchat, m', hroute, h, hid,
      hgoes.mono (fun _ hm => hm) fun _ => of_decide_eq_true⟩)
  | setMessageType id t =>
    cases happly
    obtain ⟨rm, rfl, rfl, -⟩ := hasked
    obtain ⟨m, rfl, hid⟩ := Db.lost_updateMessage hrow hlost
    exact Or.inl ⟨rm, Or.inl hroute, hid, hid ▸ h.2⟩
  | clearMessage id =>
    cases happly
    obtain ⟨rm, rfl, rfl⟩ := hasked
    obtain ⟨m, rfl, hid⟩ := Db.lost_updateMessage hrow hlost
    exact Or.inl ⟨rm, Or.inr hroute, hid, hid ▸ h⟩
  | deleteUser id => exact h.elim
  | deleteMessage id => exact h.elim
  | raw => exact h.elim
  | pragmaForeignKeysOn | begin | commit | rollback | malformed =>
    cases happly
    exact absurd hrow hlost
  | _ => exact absurd rfl hinsert

section Together

variable {ι : Type} [DecidableEq ι] {env : ι → Env} {req : ι → Request} {c₀ c : Conn}
  {log : List (Entry ι SqlCall Reply Conn)}

/-- The row was removed or rewritten by a call of the run, for a request that asks for that,
    and its request had found what entitles to it in calls before. -/
def RemovedIn (env : ι → Env) (req : ι → Request) (log : List (Entry ι SqlCall Reply Conn))
    (row : Row) : Prop :=
  ∃ before e behind, log = before ++ e :: behind ∧ (env e.tid).verified = true ∧
    e.pre.db.Has row ∧ ¬ e.post.db.Has row ∧
    row.RemovableBy (req e.tid) (FoundBy before e.tid) e.pre

omit [DecidableEq ι] in
theorem RemovedIn.snoc {row : Row} (h : RemovedIn env req log row)
    (e : Entry ι SqlCall Reply Conn) : RemovedIn env req (log ++ [e]) row := by
  obtain ⟨before, e', behind, rfl, hremoved⟩ := h
  exact ⟨before, e', behind ++ [e], by simp, hremoved⟩

omit [DecidableEq ι] in
/-- A statement without a token removes nothing. -/
theorem Warranted.removed {e : Entry ι SqlCall Reply Conn} {s : Stmt} {row : Row}
    {x : Db × Option Nat} (h : Warranted env req log e.tid s)
    (hasked : s.AskedIn (env e.tid) (req e.tid))
    (happly : s.apply e.pre.fk e.pre.lastRowid e.pre.db = some x) (hpost : e.post.db = x.1)
    (hrow : e.pre.db.Has row) (hlost : ¬ e.post.db.Has row) :
    RemovedIn env req (log ++ [e]) row := by
  obtain ⟨hpermitted, hverified⟩ := h
  have hremovable := hpermitted.removable hasked happly hrow (hpost ▸ hlost)
  rcases hverified with hverified | rfl | ⟨u, p, ph, em, rfl⟩
  · exact ⟨log, e, [], rfl, hverified, hrow, hlost, hremovable⟩
  · cases happly
    rw [hpost] at hlost
    exact absurd hrow hlost
  · obtain ⟨row', -, -, hadded⟩ := Stmt.apply_insert rfl happly
    exact absurd ((hadded.has row).mpr (Or.inl hrow)) (hpost ▸ hlost)

/-- A call that loses a row which a rollback would bring back is one of its statements. -/
theorem Answers.lost {c c' : Conn} {call : SqlCall} {r : Reply} {row : Row}
    (h : Answers c call c' r) (hmodel : call.Modelled) (hmixed : call.effect ≠ .mixed)
    (hrow : c.db.Has row) (hsaved : ∀ db ∈ c.saved, db.Has row) (hlost : ¬ c'.db.Has row) :
    ∃ s ∈ call.stmts, ∃ x, s.apply c.fk c.lastRowid c.db = some x ∧ c'.db = x.1 := by
  rcases h.db_cases hmodel hmixed with hsame | ⟨s, hs, k, x, -, happly, hpost⟩ | ⟨db, hdb, hback⟩
  · exact absurd (hsame ▸ hrow) hlost
  · exact ⟨s, hs, x, happly, hpost⟩
  · exact absurd (hback ▸ hsaved db hdb) hlost

/-- Whatever order the calls of any requests come in, a row that was there at the start is
    still there as it was, or was removed or rewritten by a request that asks for that, of a
    user who was entitled to it. -/
theorem rows_guarded (hquote : ∀ i, (req i).QuoteFree) (hidle : c₀.saved = none)
    (h : HandledTogether env req c₀ log c) {row : Row} (hrow : c₀.db.Has row) :
    c.db.Has row ∨ RemovedIn env req log row := by
  by_cases hremoved : RemovedIn env req log row
  · exact Or.inr hremoved
  -- then it stays in the tables, and in those that a rollback would bring back
  have hkept : c.db.Has row ∧ ∀ db ∈ c.saved, db.Has row := by
    induction h with
    | start =>
      refine ⟨hrow, ?_⟩
      rw [hidle]
      simp
    | @step log s s' i call r hprev hissue hcall ih =>
      obtain ⟨hdb, hsaved⟩ := ih fun hbefore => hremoved (hbefore.snoc _)
      obtain ⟨hmodel, hmixed, hwarranted, -⟩ := allowed_next hquote hprev hissue
      refine ⟨?_, fun db hopen => ?_⟩
      · by_contra hlost
        obtain ⟨st, hst, x, happly, hpost⟩ := hcall.lost hmodel hmixed hdb hsaved hlost
        have hlast : RemovedIn env req (log ++ [⟨i, call, r, s, s'⟩]) row :=
          Warranted.removed (hwarranted st hst) (asked_next hquote hprev hissue st hst) happly hpost
              hdb hlost
        exact hremoved hlast
      · rcases hcall.saved_cases hmodel hmixed hopen with hopen | rfl
        · exact hsaved db hopen
        · exact hdb
  exact Or.inl hkept.1

end Together

/-- The conversation was dropped by somebody who was entitled to that. -/
theorem rows_guarded_meet :
    ∃ log c, HandledTogether (fun _ => lobbyEnv) meetReq meetConn log c ∧
      c.db.conversations = [] ∧
      (c.db.Has (.conv ⟨1, 1, default⟩) ∨
        RemovedIn (fun _ => lobbyEnv) meetReq log (.conv ⟨1, 1, default⟩)) := by
  obtain ⟨log, c, hrun, hnone⟩ := meet_played (p := fun c => c.db.conversations = [])
    [true, true, false, false, true, true, true, true, true, false, false, false, false, false]
    (by decide +kernel)
  exact ⟨log, c, hrun, hnone, rows_guarded meetReq_quoteFree rfl hrun (by decide)⟩

end MeshChat
