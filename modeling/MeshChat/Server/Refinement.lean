import MeshChat.Server.Abstraction
import MeshChat.Server.Transfer

/-! # The server is a message board

    The handlers do on the tables what `Board.Handles` says, with the answers it says.

    * `ensures_…`: the parts that the handlers share.
    * `Route.does`: a case of the switch does what the board may do.
    * `server`: the server as a machine, whose steps are requests and restarts.
    * `server_refines`: its runs are runs of the board. Which calls to sqlite fail and
      when the server is restarted shows in no answer but the errors.
-/

namespace MeshChat

open CMemory SqlLex Prog Keyed

/-! ## The parts of the handlers -/

/-- The board may do the same, with the same answer. -/
def Does (env : Env) (header : RequestHeader) (clean : Bool) (c : Conn) (route : Route) (c' : Conn)
    (out : Handled) : Prop :=
  c.db.board.Handles env header clean route out c'.db.board

section Parts

variable {env : Env} {header : RequestHeader} {clean : Bool} {c c₁ : Conn} {route : Route}

theorem ensures_err {status : UInt32} {group action : UInt8} (hdb : c₁.db = c.db)
    (h : c.db.board.Refuses env header clean route status) :
    Ensures (Calls clean) c₁ (responseErr status group action) (Does env header clean c route) := by
  refine .ret ?_
  unfold Does
  rw [hdb]
  exact .refused h

theorem ensures_hampered {group action : UInt8} (hdb : c₁.db = c.db)
    (h : clean = true → c.db.board.Hampered env header route) :
    Ensures (Calls clean) c₁ (responseErr 500 group action) (Does env header clean c route) :=
  ensures_err hdb (Or.inr (Or.inr (Or.inr (Or.inr ⟨rfl, h⟩))))

/-- A call has failed. -/
theorem ensures_fault {group action : UInt8} (hdb : c₁.db = c.db) (hclean : clean = false) :
    Ensures (Calls clean) c₁ (responseErr 500 group action) (Does env header clean c route) := by
  refine ensures_hampered hdb fun htrue => ?_
  rw [hclean] at htrue
  cases htrue

theorem ensures_forbidden {group action : UInt8} (h : ¬ c.db.board.Permits env header route) :
    Ensures (Calls clean) c (responseErr 403 group action) (Does env header clean c route) :=
  ensures_err rfl (Or.inl ⟨Or.inr rfl, h⟩)

theorem ensures_missing {group action : UInt8} (h : ¬ c.db.board.Knows route) :
    Ensures (Calls clean) c (responseErr 404 group action) (Does env header clean c route) :=
  ensures_err rfl (Or.inr (Or.inl ⟨rfl, h⟩))

theorem ensures_unsupported {group action : UInt8} (h : ¬ c.db.board.Supports header route) :
    Ensures (Calls clean) c (responseErr 400 group action) (Does env header clean c route) :=
  ensures_err rfl (Or.inr (Or.inr (Or.inr (Or.inl ⟨rfl, h⟩))))

theorem ensures_told {r : ResponseCall} (h : c.db.board.Tells env header clean route r) :
    Ensures (Calls clean) c (respond r) (Does env header clean c route) :=
  .ret (.told h)

theorem ensures_deref {α : Type} {p : Option α} {k : α → SqlProg Handled}
    (hnone : p = none → c.db.board.Strays env header route)
    (hk : ∀ a, p = some a → Ensures (Calls clean) c (k a) (Does env header clean c route)) :
    Ensures (Calls clean) c (deref p k) (Does env header clean c route) := by
  cases hp : p with
  | none => exact .ret (.undefined (hnone hp))
  | some a => exact hk a hp

/-- A handler that asks for the existence of a row first. -/
theorem ensures_ifExists {q : Query} {P : Prop} {group action group' action' : UInt8}
    {k : SqlProg Handled} (hq : q.Sound) (hP : q.rows c.db ≠ [] ↔ P)
    (hno : ¬ P → ¬ c.db.board.Permits env header route)
    (hk : P → Ensures (Calls clean) c k (Does env header clean c route)) :
    Ensures (Calls clean) c (do
      let (found, rc) ← sqlExists q
      if sqlIsErr rc then responseErr 500 group action
      else if !found then responseErr 403 group' action'
      else k) (Does env header clean c route) := by
  refine (ensures_sqlExists hq hP).bind ?_
  rintro c' x ⟨rfl, hfound⟩
  cases hfound with
  | yes h =>
    refine .ite (fun herr => by cases herr) fun _ => ?_
    exact .ite (fun hnot => by cases hnot) fun _ => hk h
  | no h =>
    refine .ite (fun herr => by cases herr) fun _ => ?_
    exact .ite (fun _ => ensures_forbidden (hno h)) fun hnot => absurd rfl hnot
  | failed hclean herr => exact .ite (fun _ => ensures_fault rfl hclean) fun hok => absurd herr hok

/-- A handler that looks up a row first. -/
theorem ensures_lookup {α : Type} {q : Query} {f : List Val → α} {group action : UInt8}
    {k : α → SqlProg Handled} (hq : q.Sound) (hnone : q.rows c.db = [] → ¬ c.db.board.Knows route)
    (hk : ∀ cols, (q.rows c.db)[0]? = some cols →
      Ensures (Calls clean) c (k (f cols)) (Does env header clean c route)) :
    Ensures (Calls clean) c (do
      let (row, rc) ← sqlGetInfo q f
      if sqlIsErr rc then responseErr 500 group action
      else if rc = .empty then responseErr 404 group action
      else deref row k) (Does env header clean c route) := by
  refine (ensures_sqlGetInfo hq f).bind ?_
  rintro c' x ⟨rfl, hrow⟩
  cases hrow with
  | there h =>
    refine .ite (fun herr => by cases herr) fun _ => ?_
    exact .ite (fun hempty => by cases hempty) fun _ => hk _ h
  | absent h =>
    refine .ite (fun herr => by cases herr) fun _ => ?_
    exact .ite (fun _ => ensures_missing (hnone h)) fun hrows => absurd rfl hrows
  | failed hclean herr => exact .ite (fun _ => ensures_fault rfl hclean) fun hok => absurd herr hok

/-- The membership check of the message handlers. -/
theorem ensures_ifRoomMember {convId chatId : UInt32} {action : UInt8} {k : SqlProg Handled}
    (hno : ¬ (c.db.ConvMember convId.toNat header.userId.toNat ∨
      c.db.ChatMember chatId.toNat header.userId.toNat) → ¬ c.db.board.Permits env header route)
    (hk : c.db.ConvMember convId.toNat header.userId.toNat ∨
      c.db.ChatMember chatId.toNat header.userId.toNat →
      Ensures (Calls clean) c k (Does env header clean c route)) :
    Ensures (Calls clean) c (ifRoomMember convId chatId header.userId action k)
      (Does env header clean c route) := by
  refine (ensures_sqlExists ⟨by simp, rfl, rfl⟩ convMember_rows).bind ?_
  rintro c' x ⟨rfl, hconv⟩
  cases hconv with
  | yes h =>
    refine .ite (fun herr => by cases herr) fun _ => ?_
    exact .ite (fun _ => hk (Or.inl h)) fun hnot => absurd rfl hnot
  | failed hclean herr => exact .ite (fun _ => ensures_fault rfl hclean) fun hok => absurd herr hok
  | no hnoconv =>
    refine .ite (fun herr => by cases herr) fun _ => ?_
    refine .ite (fun hmember => by cases hmember) fun _ => ?_
    refine (ensures_sqlExists ⟨by simp, rfl, rfl⟩ chatMember_rows).bind ?_
    rintro c'' y ⟨rfl, hchat⟩
    cases hchat with
    | yes h =>
      refine .ite (fun herr => by cases herr) fun _ => ?_
      exact .ite (fun _ => hk (Or.inr h)) fun hnot => absurd rfl hnot
    | no hnochat =>
      refine .ite (fun herr => by cases herr) fun _ => ?_
      refine .ite (fun hmember => by cases hmember) fun _ => ?_
      exact ensures_forbidden (hno (not_or.mpr ⟨hnoconv, hnochat⟩))
    | failed hclean herr => exact .ite (fun _ => ensures_fault rfl hclean) fun hok => absurd herr hok

/-- The guard of the handlers that take the id of a message. -/
theorem ensures_ifReadable (hc : Kept c) {rm : RequestMsgBody} {action : UInt8}
    {k : MsgSchema → SqlProg Handled}
    (hknows : c.db.board.message rm.msgId.toNat = none → ¬ c.db.board.Knows route)
    (hpermits : c.db.board.Permits env header route →
      ∃ m, c.db.board.message rm.msgId.toNat = some m ∧ c.db.board.Sees m header.userId.toNat)
    (hk : ∀ m ∈ c.db.messages, m.id = rm.msgId.toNat →
      c.db.board.message rm.msgId.toNat = some m.message →
      c.db.board.Sees m.message header.userId.toNat →
      Ensures (Calls clean) c (k (m.schema rm.msgId)) (Does env header clean c route)) :
    Ensures (Calls clean) c (ifReadable rm.msgId header.userId action k)
      (Does env header clean c route) := by
  refine ensures_lookup ⟨by simp, rfl, rfl⟩ (fun hrows => hknows ?_) fun cols hcols => ?_
  · rw [Query.rows, List.map_eq_nil_iff, List.filter_eq_nil_iff] at hrows
    exact keyed_eq_none.mpr fun m hm hid => hrows m hm (decide_eq_true hid)
  obtain ⟨m, hm, rfl⟩ : ∃ m, (c.db.messages.filter (·.id = rm.msgId.toNat))[0]? = some m ∧
      m.cols = cols := by
    simpa [Query.rows] using hcols
  obtain ⟨hmem, hid⟩ := List.mem_filter.mp (List.mem_of_getElem? hm)
  have hid : m.id = rm.msgId.toNat := of_decide_eq_true hid
  have hmsg : c.db.board.message rm.msgId.toNat = some m.message :=
    hc.message_iff.mpr ⟨m, hmem, hid, rfl⟩
  have hguard : Ensures (Calls clean) c (ifRoomMember (m.schema rm.msgId).convId
      (m.schema rm.msgId).chatId header.userId action (k (m.schema rm.msgId)))
      (Does env header clean c route) := by
    refine ensures_ifRoomMember (fun hout hpermit => hout ?_) fun hin => ?_
    · obtain ⟨x, hx, hsees⟩ := hpermits hpermit
      obtain rfl := Option.some.inj (hmsg.symm.trans hx)
      exact hc.ids.readable_of_inRoomOf hmem (hc.sees_iff.mp hsees)
    · exact hk m hmem hid hmsg (hc.sees_iff.mpr (hc.ids.inRoomOf_of_readable hmem hin))
  -- the columns of the row are the fields of the schema
  simpa [MsgRow.cols, MsgRow.schema, Val.columnText] using hguard

/-- The answer behind an insert. -/
theorem ensures_reportInsert {fits : Prop} {made : Option (Db × Option Nat)} {id : UInt32} {rc : Rc}
    {group action : UInt8} {r : UInt32 → ResponseCall}
    (hins : Insertion clean fits made c.db c₁.db (id, rc))
    (hclash : made = none → c.db.board.Clashes header route)
    (hlong : ¬ fits → c.db.board.Hampered env header route)
    (hdone : ∀ db' n, fits → made = some (db', some n) → c.db.board.Handles env header clean route
      { sent := [r (UInt32.ofNat n)] } db'.board) :
    Ensures (Calls clean) c₁ (if sqlIsErr rc then
        if rc = .constraint then responseErr 409 group action else responseErr 500 group action
      else respond (r id)) (Does env header clean c route) := by
  generalize hdb : c₁.db = db' at hins
  cases hins with
  | done hfits hmade =>
    refine .ite (fun herr => by cases herr) fun _ => .ret ?_
    unfold Does
    rw [hdb]
    exact hdone _ _ hfits hmade
  | refused hrc hwhy =>
    refine .ite (fun _ => ?_) fun hok => absurd (sqlIsErr_of_isFailure hrc) hok
    refine .ite (fun hconstraint => ?_) fun hother => ?_
    · refine ensures_err hdb (Or.inr (Or.inr (Or.inl ⟨rfl, fun hclean => ?_⟩)))
      rcases hwhy hclean with ⟨-, herror⟩ | ⟨hnone, -⟩
      · cases herror.symm.trans hconstraint
      · exact hclash hnone
    · refine ensures_hampered hdb fun hclean => ?_
      rcases hwhy hclean with ⟨hunfit, -⟩ | ⟨-, hconstraint⟩
      · exact hlong hunfit
      · exact absurd hconstraint hother

/-- A list that is answered. -/
theorem ensures_respondList {q : Query} {group action : UInt8}
    {response : List UInt32 → ResponseCall} (hq : q.Sound ∨ q = .empty)
    (htold : ∀ ids rc, ListOf clean (q.rows c.db) (ids, rc) → sqlIsErr rc = false →
      c.db.board.Tells env header clean route (response ids)) :
    Ensures (Calls clean) c (respondList (sqlGetList q) group action response)
      (Does env header clean c route) := by
  refine (ensures_sqlGetList hq).bind ?_
  rintro c' ⟨ids, rc⟩ ⟨rfl, hlist⟩
  refine .ite (fun herr => ?_) fun hok => ensures_told (htold ids rc hlist (by simpa using hok))
  cases hlist with
  | upTo n _ => cases herr
  | failed hclean _ => exact ensures_fault rfl hclean

/-- The answer behind a transaction. -/
theorem ensures_transacted {made : Db} {rc : Rc} {group action : UInt8}
    {r : ResponseCall} (h : Transacted clean made c.db c₁.db rc)
    (hmade : c.db.board.Handles env header clean route { sent := [r] } made.board) :
    Ensures (Calls clean) c₁ (if sqlIsErr rc then responseErr 500 group action else respond r)
      (Does env header clean c route) := by
  rcases h with ⟨rfl, hdb⟩ | ⟨hclean, hrc, hdb⟩
  · refine .ite (fun herr => by cases herr) fun _ => .ret ?_
    unfold Does
    rw [hdb]
    exact hmade
  · exact .ite (fun _ => ensures_fault hdb hclean) fun hok => absurd (sqlIsErr_of_isFailure hrc) hok

/-- A search whose text was cut may be another query or none. -/
theorem searchQuery_cases {uname : CStr} (hquote : quote ∉ uname.bytes) (limit offset : Int32) :
    (∃ p l o, searchQuery uname limit offset = .userSearch p l o ∧
      ((TextQuery.userSearchByUname uname limit offset).Fits →
        p = ascii "%" ++ uname.bytes ++ ascii "%" ∧ l = limit.toInt ∧ o = offset.toInt)) ∨
    searchQuery uname limit offset = .malformed ∧
      ¬ (TextQuery.userSearchByUname uname limit offset).Fits := by
  have hfree : (TextQuery.userSearchByUname uname limit offset).QuoteFree := by
    simpa [TextQuery.QuoteFree, TextQuery.strings] using hquote
  unfold searchQuery
  dsimp only
  rw [if_neg (not_not.mpr hfree)]
  split
  · exact Or.inl ⟨_, _, _, rfl, fun _ => ⟨rfl, rfl, rfl⟩⟩
  rename_i hlong
  split
  · split
    · exact Or.inl ⟨_, _, _, rfl, fun hfits => absurd hfits hlong⟩
    · exact Or.inr ⟨rfl, hlong⟩
  · exact Or.inr ⟨rfl, hlong⟩

/-- Why a member cannot be inserted. -/
theorem Db.insertMember_none {db : Db} {fk : Bool} {k u : Nat} (h : db.insertMember fk k u = none) :
    db.ConvMember k u ∨ db.hasConv k = false ∨ db.hasUser u = false := by
  simp only [insertMember, insertRow] at h
  split at h
  · cases h
  rename_i hinvalid
  by_cases hany : db.members.any (fun m => m.convId = k && m.userId = u) = true
  · obtain ⟨m, hm, hboth⟩ := List.any_eq_true.mp hany
    simp only [Bool.and_eq_true, decide_eq_true_eq] at hboth
    exact Or.inl ⟨m, hm, hboth⟩
  · rw [Bool.eq_false_of_not_eq_true hany] at hinvalid
    right
    cases hconv : db.hasConv k with
    | false => exact Or.inl rfl
    | true =>
      refine Or.inr ?_
      simp only [hconv] at hinvalid
      simp_all

end Parts

/-- Why a message cannot be inserted. -/
theorem Db.insertMessage_none {db : Db} {m : NewMsg} (h : db.insertMessage true m = none) :
    db.hasUser m.fromUid = false ∨ (∃ k, m.convId = some k ∧ db.hasConv k = false) ∨
      (∃ k, m.chatId = some k ∧ db.hasChat k = false) ∨
      ∃ k, m.replyTo = some k ∧ db.hasMsg k = false := by
  simp only [insertMessage, insertRow, ite_eq_right_iff, reduceCtorEq, imp_false, Bool.not_true,
    Bool.false_or, Bool.and_eq_true, not_and_or, Bool.not_eq_true, Option.all_eq_false,
    Bool.or_eq_false_iff] at h
  rcases h with ((huser | ⟨k, hk, -, hmsg⟩) | hchat) | hconv
  · exact Or.inl huser
  · exact Or.inr (Or.inr (Or.inr ⟨k, hk, hmsg⟩))
  · exact Or.inr (Or.inr (Or.inl hchat))
  · exact Or.inr (Or.inl hconv)

/-- What an inserted message refers to is there. -/
theorem Db.insertMessage_some {db db' : Db} {m : NewMsg} {n : Nat}
    (h : db.insertMessage true m = some (db', some n)) :
    db.hasUser m.fromUid = true ∧ (∀ k, m.convId = some k → db.hasConv k = true) ∧
      (∀ k, m.chatId = some k → db.hasChat k = true) ∧
      ∀ k, m.replyTo = some k → k = n ∨ db.hasMsg k = true := by
  obtain ⟨hvalid, -⟩ := insertRow_inv h
  cases insertRow_eq_some h
  simp only [Bool.not_true, Bool.false_or, Bool.and_eq_true, Option.all_eq_true,
    Bool.or_eq_true, decide_eq_true_eq] at hvalid
  obtain ⟨⟨⟨huser, hreply⟩, hchat⟩, hconv⟩ := hvalid
  exact ⟨huser, hconv, hchat, hreply⟩

/-- A message is sent as it is on the board. -/
theorem MsgRow.schema_detail (m : MsgRow) (msgId : UInt32) :
    (m.schema msgId).detail = m.message.detail msgId := by
  have hoption : ∀ o : Option Nat, (Val.ofOption o).columnInt = UInt32.ofNat (o.getD 0) := by
    intro o
    cases o with
    | none => rfl
    | some n => exact Val.columnInt_natCast n
  -- a tag is cut to 8 bits in either way
  have hcut : ∀ x : UInt32, x.toInt32.toInt8.toUInt8 = x.toUInt8 := by
    intro x
    exact UInt8.toBitVec_inj.mp (BitVec.signExtend_eq_setWidth_of_le _ (by decide))
  have htype : ∀ t : MsgType, (UInt32.ofNat t.code).toUInt8 = UInt8.ofNat t.code := by
    intro t
    cases t <;> rfl
  simp only [MsgSchema.detail, schema, message, Board.Message.detail, hoption, hcut, htype]
  rfl

/-! ## The handlers -/

section Handlers

variable {env : Env} {header : RequestHeader} {clean : Bool} {c : Conn} (hc : Kept c)
include hc

theorem handleAuthRegister_does {ra : RequestAuth}
    (hquote : ∀ s ∈ (RequestBody.auth ra).strings, quote ∉ s.bytes) :
    Ensures (Calls clean) c (handleAuthRegister env ra)
      (Does env header clean c (.authRegister ra)) := by
  refine ensures_deref (fun h => Or.inl h) fun uname huname => ?_
  refine ensures_deref (fun h => Or.inr (Or.inl h)) fun password hpassword => ?_
  refine ensures_deref (fun h => Or.inr (Or.inr (Or.inl h))) fun phone hphone => ?_
  refine ensures_deref (fun h => Or.inr (Or.inr (Or.inr h))) fun email hemail => ?_
  cases hhash : hashStr env password with
  | none =>
    refine ensures_hampered rfl fun _ => ⟨password, hpassword, fun hash hsome => ?_⟩
    cases hhash.symm.trans hsome
  | some hashed =>
    have hfree : (TextQuery.userCreate uname hashed phone email).QuoteFree := by
      intro s hs
      simp only [TextQuery.strings, List.mem_cons, List.not_mem_nil, or_false] at hs
      rcases hs with rfl | rfl | rfl | rfl
      · exact hquote _ (by simp [RequestBody.strings, huname])
      · exact quoteFree_hashStr hhash
      · exact hquote _ (by simp [RequestBody.strings, hphone])
      · exact hquote _ (by simp [RequestBody.strings, hemail])
    refine (ensures_userCreate hfree).bind ?_
    rintro c' ⟨id, rc⟩ ⟨-, hins⟩
    refine ensures_reportInsert (r := fun id => .authRegister 201 (env.makeToken id) id) hins
      (fun hnone => ?_) (fun hlong => ?_) fun db' n _ hmade => ?_
    · -- the constraint is that the name is free
      simp only [Db.insertUser, Db.insertRow] at hnone
      split at hnone
      · cases hnone
      rename_i htaken
      obtain ⟨r, hr, hsame⟩ : ∃ r ∈ c.db.users, r.uname = uname := by simpa using htaken
      exact ⟨r.id, r.account, hc.account_iff.mpr ⟨r, hr, rfl, rfl⟩, by rw [huname, ← hsame]; rfl⟩
    · refine ⟨password, hpassword, fun hash hsome => ?_⟩
      obtain rfl := Option.some.inj (hhash.symm.trans hsome)
      exact ⟨uname, phone, email, huname, hphone, hemail, hlong⟩
    · obtain ⟨hboard, hnew, hname⟩ := Db.board_register hmade
      rw [hboard]
      exact .registered ⟨huname, hpassword, hphone, hemail⟩ hhash hname hnew

theorem handleAuthLogin_does {ra : RequestAuth}
    (hquote : ∀ s ∈ (RequestBody.auth ra).strings, quote ∉ s.bytes) :
    Ensures (Calls clean) c (handleAuthLogin env ra) (Does env header clean c (.authLogin ra)) := by
  refine ensures_deref (fun h => Or.inl h) fun uname huname => ?_
  refine ensures_deref (fun h => Or.inr (Or.inl h)) fun password hpassword => ?_
  have hfree : (TextQuery.userGetByUname uname).QuoteFree := by
    intro s hs
    obtain rfl : s = uname := by simpa [TextQuery.strings] using hs
    exact hquote _ (by simp [RequestBody.strings, huname])
  by_cases hfits : (TextQuery.userGetByUname uname).Fits
  swap
  · -- a name that does not fit is looked up with a cut text
    have hquery : unameQuery uname = .malformed := by
      simp [unameQuery, hfree, hfits]
    simp only [userGetByUname, hquery]
    refine (ensures_getInfo_malformed _).bind ?_
    rintro c' ⟨user, rc⟩ ⟨rfl, herr⟩
    refine .ite (fun _ => ensures_hampered rfl fun _ => ⟨uname, huname, hfits⟩) fun hok => ?_
    exact absurd herr hok
  have hquery : unameQuery uname = .userByUname uname := by
    simp [unameQuery, hfree, hfits]
  simp only [userGetByUname, hquery]
  refine (ensures_sqlGetInfo ⟨by simp, rfl, rfl⟩ _).bind ?_
  rintro c' x ⟨rfl, hrow⟩
  cases hrow with
  | failed hclean herr => exact .ite (fun _ => ensures_fault rfl hclean) fun hok => absurd herr hok
  | absent hnone =>
    refine .ite (fun herr => by cases herr) fun _ => ?_
    refine .ite (fun _ => ensures_missing ?_) fun hrows => absurd rfl hrows
    rintro ⟨n, a, ha, hname⟩
    obtain ⟨r, hr, -, rfl⟩ := hc.account_iff.mp ha
    rw [Query.rows, List.map_eq_nil_iff, List.filter_eq_nil_iff] at hnone
    have hsame : r.uname = uname := Option.some.inj (hname.symm.trans huname)
    exact hnone r hr (decide_eq_true hsame)
  | there hcols =>
    refine .ite (fun herr => by cases herr) fun _ => ?_
    refine .ite (fun hempty => by cases hempty) fun _ => ?_
    refine ensures_deref (fun h => Or.inr (Or.inr ⟨password, hpassword, h⟩)) fun hashed hhash => ?_
    obtain ⟨r, hfirst, rfl⟩ : ∃ r, (c'.db.users.filter (·.uname = uname))[0]? = some r ∧
        [Val.int r.id, .text r.uname, .text r.password] = _ := by
      simpa [Query.rows] using hcols
    obtain ⟨hr, hname⟩ := List.mem_filter.mp (List.mem_of_getElem? hfirst)
    have hname : r.uname = uname := of_decide_eq_true hname
    have haccount := hc.account_iff.mpr ⟨r, hr, rfl, rfl⟩
    refine .ite (fun hwrong => ensures_forbidden ?_) fun hright => ensures_told ?_
    · -- the name belongs to one account only
      rintro ⟨n, a, p, ha, hname', hp, hhash'⟩
      obtain ⟨r', hr', -, rfl⟩ := hc.account_iff.mp ha
      have hsame : r'.uname = uname := Option.some.inj (hname'.symm.trans huname)
      obtain rfl := List.inj_on_of_nodup_map hc.names_nodup hr' hr (hsame.trans hname.symm)
      obtain rfl := Option.some.inj (hpassword.symm.trans hp)
      exact hwrong (Option.some.inj (hhash.symm.trans hhash'))
    · have hcolumn : hashed = r.password := not_not.mp hright
      subst hcolumn
      have htells : c'.db.board.Tells env header clean (.authLogin ra)
          (.authLogin 200 (env.makeToken (UInt32.ofNat r.id)) (UInt32.ofNat r.id)) :=
        .login haccount (huname.trans (congrArg some hname.symm)) hpassword hhash
      simpa using htells

theorem handleUserGetInfo_does {ru : RequestUser} :
    Ensures (Calls clean) c (handleUserGetInfo ru) (Does env header clean c (.userGetInfo ru)) := by
  refine ensures_lookup ⟨by simp, rfl, rfl⟩ (fun hrows hknown => hknown ?_) fun cols hcols => ?_
  · rw [Query.rows, List.map_eq_nil_iff, List.filter_eq_nil_iff] at hrows
    exact keyed_eq_none.mpr fun r hr hid => hrows r hr (decide_eq_true hid)
  · obtain ⟨r, hfirst, rfl⟩ : ∃ r, (c.db.users.filter (·.id = ru.userId.toNat))[0]? = some r ∧
        [Val.int r.id, .text r.uname, .text r.password, .text r.phone, .text r.email] = cols := by
      simpa [Query.rows] using hcols
    obtain ⟨hr, hid⟩ := List.mem_filter.mp (List.mem_of_getElem? hfirst)
    exact ensures_told (.user (hc.account_iff.mpr ⟨r, hr, of_decide_eq_true hid, rfl⟩))

theorem handleUserSearch_does {ru : RequestUser}
    (hquote : ∀ s ∈ (RequestBody.user ru).strings, quote ∉ s.bytes) :
    Ensures (Calls clean) c (handleUserSearch header ru)
      (Does env header clean c (.userSearch ru)) := by
  refine ensures_deref (fun h => h) fun uname huname => ?_
  have hfree : quote ∉ uname.bytes := hquote uname (by simp [RequestBody.strings, huname])
  rcases searchQuery_cases hfree (clampPage header.limit) (clampPage header.offset) with
    ⟨p, l, o, hquery, hasked⟩ | ⟨hquery, hlong⟩
  · simp only [userSearchByUname, hquery]
    refine ensures_respondList (Or.inl ⟨by simp, rfl, rfl⟩) fun ids rc hlist hrc => ?_
    exact .search huname hasked (hc.lists_named hlist hrc)
  · simp only [userSearchByUname, hquery]
    refine ensures_getList_malformed.bind ?_
    rintro c' ⟨ids, rc⟩ ⟨rfl, herr⟩
    refine .ite (fun _ => ensures_hampered rfl fun _ => ⟨uname, huname, hlong⟩) fun hok => ?_
    exact absurd herr hok

theorem handleConvCreate_does {rconv : RequestConv}
    (hquote : ∀ s ∈ (RequestBody.conv rconv).strings, quote ∉ s.bytes) :
    Ensures (Calls clean) c (handleConvCreate header rconv)
      (Does env header clean c (.convCreate rconv)) := by
  refine ensures_deref (fun h => h) fun gname hgname => ?_
  have hfree : quote ∉ gname.bytes := hquote gname (by simp [RequestBody.strings, hgname])
  refine (ensures_convCreate hfree hc.idle hc.ids.member_conv).bind ?_
  rintro c' ⟨id, rc⟩ ⟨-, hfounding⟩
  generalize hdb : c'.db = db' at hfounding
  cases hfounding with
  | done h =>
    refine .ite (fun herr => by cases herr) fun _ => .ret ?_
    obtain ⟨hboard, huser, hnew⟩ := Db.board_found h
    unfold Does
    rw [hdb, hboard]
    exact .founded hgname huser hnew
  | refused hrc hwhy =>
    refine .ite (fun _ => ensures_hampered hdb fun hclean => ?_) fun hok =>
      absurd (sqlIsErr_of_isFailure hrc) hok
    rcases hwhy hclean with hlong | hnobody
    · exact Or.inr ⟨gname, hgname, hlong⟩
    · left
      by_contra hsome
      rw [Kept.hasUser_iff.mpr hsome] at hnobody
      cases hnobody

theorem handleConvDrop_does {rconv : RequestConv} :
    Ensures (Calls clean) c (handleConvDrop header rconv)
      (Does env header clean c (.convDrop rconv)) := by
  refine ensures_ifExists ⟨by simp, rfl, rfl⟩ convAdmin_rows (mt hc.heads_iff.mp) fun hadmin => ?_
  refine (ensures_convDrop hc.idle).bind ?_
  rintro c' rc ⟨-, hdone⟩
  exact ensures_transacted hdone (.closed (hc.heads_iff.mpr hadmin)
    (hc.convGone (Db.convDropped hc.ids.messages_nodup)))

theorem handleConvJoin_does {rconv : RequestConv} :
    Ensures (Calls clean) c (handleConvJoin header rconv)
      (Does env header clean c (.convJoin rconv)) := by
  refine ensures_ifExists ⟨by simp, rfl, rfl⟩ convMember_rows (fun h => h) fun hmember => ?_
  refine ensures_convJoin.bind ?_
  rintro c' rc ⟨-, id, hins⟩
  generalize hdb : c'.db = db' at hins
  cases hins with
  | done _ hmade =>
    refine .ite (fun herr => by cases herr) fun _ => .ret ?_
    obtain ⟨hboard, hnew⟩ := Db.board_join hmade
    unfold Does
    rw [hdb, hboard]
    exact .joined hmember hnew
  | refused hrc hwhy =>
    refine .ite (fun _ => ensures_hampered hdb fun hclean => ?_) fun hok =>
      absurd (sqlIsErr_of_isFailure hrc) hok
    rcases hwhy hclean with ⟨hunfit, -⟩ | ⟨hnone, -⟩
    · exact absurd trivial hunfit
    · rcases Db.insertMember_none hnone with hold | hnoconv | hnouser
      · exact Or.inl hold
      · -- the one who asks is a member of it
        obtain ⟨m, hm, hk, -⟩ := hmember
        obtain ⟨r, hr, hid⟩ := hc.ids.member_conv m hm
        have hthere : c.db.hasConv rconv.convId.toNat = true :=
          List.any_eq_true.mpr ⟨r, hr, decide_eq_true (hid.trans hk)⟩
        cases hthere.symm.trans hnoconv
      · right
        by_contra hsome
        cases (Kept.hasUser_iff.mpr hsome).symm.trans hnouser

theorem handleConvQuit_does {rconv : RequestConv} :
    Ensures (Calls clean) c (handleConvQuit header rconv)
      (Does env header clean c (.convQuit rconv)) := by
  refine ensures_ifExists ⟨by simp, rfl, rfl⟩ convMember_rows (fun hno h => hno h.1)
    fun hmember => ?_
  refine (ensures_sqlExists ⟨by simp, rfl, rfl⟩ convAdmin_rows).bind ?_
  rintro c' x ⟨rfl, hadmin⟩
  have hgo : ∀ {isAdmin : Bool}, (isAdmin = true ↔
        c'.db.ConvAdmin rconv.convId.toNat header.userId.toNat) →
      Ensures (Calls clean) c' (
        if rconv.userId ≠ header.userId ∧ !isAdmin then responseErr 403 2 3
        else if rconv.userId = header.userId ∧ isAdmin then responseErr 204 2 3
        else do
          let rc ← convQuit header.userId rconv.convId
          if sqlIsErr rc then responseErr 500 2 3 else respond (.convQuit 200))
        (Does env header clean c' (.convQuit rconv)) := by
    intro isAdmin hwho
    rw [← hc.heads_iff] at hwho
    refine .ite (fun hother => ensures_forbidden ?_) fun hother => ?_
    · rintro ⟨-, hiff⟩
      exact hother.1 (hiff.mpr fun hheads => by simp [hwho.mpr hheads] at hother)
    refine .ite (fun hself => ?_) fun hself => ?_
    · refine ensures_err rfl (Or.inl ⟨Or.inl rfl, ?_⟩)
      rintro ⟨-, hiff⟩
      exact hiff.mp hself.1 (hwho.mp hself.2)
    have hpermits : c'.db.board.Permits env header (.convQuit rconv) := by
      refine ⟨hmember, ?_⟩
      rw [← hwho]
      by_cases hsame : rconv.userId = header.userId
      · simpa [hsame] using hself
      · simpa [hsame] using hother
    refine (ensures_sqlExec rfl (by simp)).bind ?_
    rintro c₁ rc (⟨rfl, rfl⟩ | ⟨hclean, rfl, hrc⟩)
    · refine .ite (fun herr => by cases herr) fun _ => .ret ?_
      have hleft : Board.Handles c'.db.board env header clean (.convQuit rconv) _ _ :=
        .left hpermits
      rw [← Db.board_leave] at hleft
      exact hleft
    · refine .ite (fun _ => ensures_fault rfl hclean) fun hok => ?_
      exact absurd (sqlIsErr_of_isFailure hrc) hok
  cases hadmin with
  | yes h => exact .ite (fun herr => by cases herr) fun _ => hgo (iff_of_true rfl h)
  | no h => exact .ite (fun herr => by cases herr) fun _ => hgo (iff_of_false (by simp) h)
  | failed hclean herr => exact .ite (fun _ => ensures_fault rfl hclean) fun hok => absurd herr hok

theorem handleConvGetInfo_does {rconv : RequestConv} :
    Ensures (Calls clean) c (handleConvGetInfo rconv)
      (Does env header clean c (.convGetInfo rconv)) := by
  refine ensures_lookup ⟨by simp, rfl, rfl⟩ (fun hrows hknown => hknown ?_) fun cols hcols => ?_
  · rw [Query.rows, List.map_eq_nil_iff, List.filter_eq_nil_iff] at hrows
    exact keyed_eq_none.mpr fun r hr hid => hrows r hr (decide_eq_true hid)
  · obtain ⟨r, hfirst, rfl⟩ : ∃ r, (c.db.conversations.filter (·.id = rconv.convId.toNat))[0]? =
        some r ∧ [Val.int r.id, .int r.adminId, .text r.name] = cols := by
      simpa [Query.rows] using hcols
    obtain ⟨hr, hid⟩ := List.mem_filter.mp (List.mem_of_getElem? hfirst)
    have htells : c.db.board.Tells env header clean (.convGetInfo rconv)
        (.convGetInfo 200 (UInt32.ofNat r.adminId) r.name) :=
      .group (hc.conv_iff.mpr ⟨r, hr, of_decide_eq_true hid, rfl⟩)
    exact ensures_told (by simpa [Val.columnText] using htells)

theorem handleConvGetMembers_does {rconv : RequestConv} :
    Ensures (Calls clean) c (handleConvGetMembers header rconv)
      (Does env header clean c (.convGetMembers rconv)) := by
  refine ensures_ifExists ⟨by simp, rfl, rfl⟩ convMember_rows (fun h => h) fun hmember => ?_
  refine ensures_respondList (Or.inl ⟨by simp, rfl, rfl⟩) fun ids rc hlist hrc => ?_
  rw [Query.rows, ← page_all ((c.db.members.filter _).map _)] at hlist
  refine .members hmember (lists_of_rows (hc.nodup_membersOf _) (fun u => ?_) ?_ hlist hrc)
  · simp only [List.mem_map, List.mem_filter, decide_eq_true_eq, Db.mem_board_members,
      Db.ConvMember, and_assoc]
  · exact List.pairwise_of_forall fun _ _ => trivial

theorem handleConvGetList_does :
    Ensures (Calls clean) c (handleConvGetList header) (Does env header clean c .convGetList) := by
  refine ensures_respondList (Or.inl ⟨by simp, rfl, rfl⟩) fun ids rc hlist hrc => ?_
  have hperm := (List.perm_insertionSort (fun m m' : MemberRow => m.rowid ≥ m'.rowid)
    (c.db.members.filter (·.userId = header.userId.toNat))).map (·.convId)
  have hnodup := hperm.nodup_iff.mpr (hc.nodup_convIdsOf _)
  refine .convs (lists_of_rows hnodup (fun k => ?_) ?_ hlist hrc)
  · rw [hperm.mem_iff]
    exact Db.mem_convIdsOf
  · exact List.pairwise_of_forall fun _ _ => trivial

/-! ### Chats -/

/-- The constraint of a chat is that it is a new one, of two accounts. -/
theorem chatCreate_clashes {rchat : RequestChat} :
    c.db.board.Clashes header (.chatCreate rchat) ↔
      c.db.insertChat true header.userId.toNat rchat.userId2.toNat = none := by
  have hpair : (∃ n, c.db.board.chat n = some (header.userId.toNat, rchat.userId2.toNat)) ↔
      ∃ r ∈ c.db.chats, r.member1 = header.userId.toNat ∧ r.member2 = rchat.userId2.toNat := by
    constructor
    · rintro ⟨n, hn⟩
      obtain ⟨r, hr, -, hboth⟩ := hc.chat_iff.mp hn
      exact ⟨r, hr, congrArg Prod.fst hboth, congrArg Prod.snd hboth⟩
    · rintro ⟨r, hr, h₁, h₂⟩
      exact ⟨r.id, hc.chat_iff.mpr ⟨r, hr, rfl, Prod.ext h₁ h₂⟩⟩
  have huser : ∀ u, c.db.board.account u = none ↔ c.db.hasUser u = false := by
    intro u
    rw [← not_iff_not, Bool.not_eq_false]
    exact Kept.hasUser_iff.symm
  rw [Board.Clashes, hpair, huser, huser]
  simp only [Db.insertChat, Db.insertRow, ite_eq_right_iff, reduceCtorEq, imp_false,
    Bool.and_eq_true, Bool.not_eq_true', Bool.not_true, Bool.false_or, not_and_or,
    Bool.not_eq_true, Bool.not_eq_false, List.any_eq_true, decide_eq_true_eq]

theorem handleChatCreate_does {rchat : RequestChat} :
    Ensures (Calls clean) c (handleChatCreate header rchat)
      (Does env header clean c (.chatCreate rchat)) := by
  refine .ite (fun hself => ensures_forbidden (not_not.mpr hself)) fun hother => ?_
  refine (ensures_chatCreate hc.idle).bind ?_
  rintro c' ⟨id, rc⟩ ⟨-, hins⟩
  refine ensures_reportInsert (r := fun id => .chatCreate 201 id) hins
    (chatCreate_clashes hc).mpr (fun hlong => absurd trivial hlong) fun db' n _ hmade => ?_
  have hclash : ¬ c.db.board.Clashes header (.chatCreate rchat) := by
    rw [chatCreate_clashes hc, hmade]
    exact Option.some_ne_none _
  obtain ⟨hboard, hnew⟩ := Db.board_openChat hmade
  rw [hboard]
  exact .chatOpened hother hclash hnew

theorem handleChatDrop_does {rchat : RequestChat} :
    Ensures (Calls clean) c (handleChatDrop header rchat)
      (Does env header clean c (.chatDrop rchat)) := by
  refine ensures_ifExists ⟨by simp, rfl, rfl⟩ chatMember_rows (mt hc.inChat_iff.mp)
    fun hmember => ?_
  refine (ensures_chatDrop hc.idle).bind ?_
  rintro c' rc ⟨-, hdone⟩
  exact ensures_transacted hdone (.chatClosed (hc.inChat_iff.mpr hmember)
    (hc.chatGone (Db.chatDropped hc.ids.messages_nodup)))

theorem handleChatGetList_does :
    Ensures (Calls clean) c (handleChatGetList header) (Does env header clean c .chatGetList) := by
  refine ensures_respondList (Or.inl ⟨by simp, rfl, rfl⟩) fun ids rc hlist hrc => ?_
  have hnodup := hc.nodup_chatIdsOf header.userId.toNat
  have hperm := List.perm_insertionSort (· ≥ ·) (c.db.chatIdsOf header.userId.toNat)
  have hsorted := List.sortedGE_insertionSort (l := c.db.chatIdsOf header.userId.toNat)
  have hgt := (hsorted.sortedGT_of_nodup (hperm.nodup_iff.mpr hnodup)).pairwise
  refine .chats (lists_of_rows (hperm.nodup_iff.mpr hnodup) (fun k => ?_) hgt hlist hrc)
  rw [hperm.mem_iff, Db.mem_chatIdsOf]
  exact hc.inChat_iff.symm

theorem handleChatGetInfo_does {rchat : RequestChat} :
    Ensures (Calls clean) c (handleChatGetInfo header rchat)
      (Does env header clean c (.chatGetInfo rchat)) := by
  refine (ensures_sqlGetInfo ⟨by simp, rfl, rfl⟩ _).bind ?_
  rintro c' x ⟨rfl, hrow⟩
  cases hrow with
  | failed hclean herr => exact .ite (fun _ => ensures_fault rfl hclean) fun hok => absurd herr hok
  | absent hnone =>
    -- the code of an absent row is not an error, and the pointer is used
    refine .ite (fun herr => by cases herr) fun _ => ?_
    refine ensures_deref (fun _ => keyed_eq_none.mpr fun r hr hid => ?_) fun a ha => by cases ha
    rw [Query.rows, List.map_eq_nil_iff, List.filter_eq_nil_iff] at hnone
    exact hnone r hr (decide_eq_true hid)
  | there hcols =>
    refine .ite (fun herr => by cases herr) fun _ => ?_
    obtain ⟨r, hfirst, rfl⟩ : ∃ r, (c'.db.chats.filter (·.id = rchat.chatId.toNat))[0]? = some r ∧
        [Val.int r.id, .int r.member1, .int r.member2] = _ := by
      simpa [Query.rows] using hcols
    obtain ⟨hr, hid⟩ := List.mem_filter.mp (List.mem_of_getElem? hfirst)
    have hchat := hc.chat_iff.mpr ⟨r, hr, of_decide_eq_true hid, rfl⟩
    obtain ⟨h₁, h₂⟩ := hc.pairs r hr
    have hmember : ∀ n, n < 2 ^ 32 →
        (UInt32.ofNat n = header.userId ↔ n = header.userId.toNat) := by
      intro n hn
      rw [← UInt32.toNat_inj, UInt32.toNat_ofNat_of_lt' hn]
    have hgoal : Ensures (Calls clean) c'
        (if UInt32.ofNat r.member1 ≠ header.userId ∧ UInt32.ofNat r.member2 ≠ header.userId then
          responseErr 403 3 3
        else respond (.chatGetInfo 200 (UInt32.ofNat r.member1) (UInt32.ofNat r.member2)))
        (Does env header clean c' (.chatGetInfo rchat)) := by
      refine .ite (fun hneither => ensures_forbidden ?_) fun hone => ?_
      · rintro ⟨p, hp, hu⟩
        obtain rfl := Option.some.inj (hchat.symm.trans hp)
        exact hu.elim (mt (hmember _ h₁).mpr hneither.1) (mt (hmember _ h₂).mpr hneither.2)
      · refine ensures_told (.chat hchat ?_)
        by_cases hfirst : UInt32.ofNat r.member1 = header.userId
        · exact Or.inl ((hmember _ h₁).mp hfirst)
        · exact Or.inr ((hmember _ h₂).mp (not_not.mp fun hsecond => hone ⟨hfirst, hsecond⟩))
    simpa [deref] using hgoal

/-! ### Messages -/

theorem handleMsgGetAll_does {rm : RequestMsgBody} :
    Ensures (Calls clean) c (handleMsgGetAll header rm)
      (Does env header clean c (.msgGetAll rm)) := by
  rw [handleMsgGetAll_eq]
  refine ensures_ifRoomMember (mt hc.enters_iff.mp) fun hin => ?_
  have hsound : (msgGetAllQuery header rm).Sound := by
    unfold msgGetAllQuery
    split <;> exact ⟨by simp, rfl, rfl⟩
  refine (ensures_sqlGetList (Or.inl hsound)).bind ?_
  rintro c' ⟨ids, rc⟩ ⟨rfl, hlist⟩
  refine .ite (fun herr => ?_) fun hok => .ite (fun hempty => ?_) fun _ => ?_
  · cases hlist with
    | upTo n _ => cases herr
    | failed hclean _ => exact ensures_fault rfl hclean
  · -- a list does not end with the code of an absent row
    cases hlist with
    | upTo n _ => cases hempty
    | failed _ herr => exact absurd herr hok
  have hrc : sqlIsErr rc = false := by simpa using hok
  refine ensures_told (.messages (hc.enters_iff.mpr hin) ?_)
  unfold Board.ListsPage Board.roomMessages
  by_cases hchat : 0 < rm.chatId
  · rw [msgGetAllQuery, if_pos hchat] at hlist
    simp only [if_pos hchat]
    exact hc.lists_newest (P := (·.chat = some rm.chatId.toNat)) (fun m => by simp [MsgRow.message])
      hlist hrc
  · rw [msgGetAllQuery, if_neg hchat] at hlist
    simp only [if_neg hchat]
    exact hc.lists_newest (P := (·.conv = some rm.convId.toNat)) (fun m => by simp [MsgRow.message])
      hlist hrc

theorem handleMsgGetDetail_does {rm : RequestMsgBody} :
    Ensures (Calls clean) c (handleMsgGetDetail header rm)
      (Does env header clean c (.msgGetDetail rm)) := by
  refine ensures_ifReadable hc (fun hnone hknown => hknown hnone) (fun h => h)
    fun m hm hid hmsg hsees => ?_
  refine (ensures_sqlExecIgnored (by simp)).bind ?_
  rintro c' rc ⟨-, hrun⟩
  refine .ret ?_
  unfold Does
  rw [MsgRow.schema_detail]
  refine .read hmsg hsees ?_
  rcases hrun with rfl | ⟨hclean, rfl⟩
  · left
    have hboard := Db.board_rewrite hc.ids.messages_nodup (f := ({ · with type := .delivered }))
      (fun _ => rfl) hm
    rw [hid] at hboard
    exact hboard
  · exact Or.inr ⟨hclean, rfl⟩

theorem handleMsgDelete_does {rm : RequestMsgBody} :
    Ensures (Calls clean) c (handleMsgDelete header rm)
      (Does env header clean c (.msgDelete rm)) := by
  refine ensures_ifReadable hc (fun hnone hknown => hknown hnone) (fun h => h)
    fun m hm hid hmsg hsees => ?_
  refine (ensures_sqlExecIgnored (by simp)).bind ?_
  rintro c' rc ⟨rfl, hrun⟩
  refine .ite (fun herr => by cases herr) fun _ => .ret (.erased hmsg hsees ?_)
  rcases hrun with rfl | ⟨hclean, rfl⟩
  · left
    have hboard := Db.board_rewrite hc.ids.messages_nodup
      (f := ({ · with content := default, type := .deleted })) (fun _ => rfl) hm
    rw [hid] at hboard
    exact hboard
  · exact Or.inr ⟨hclean, rfl⟩

theorem sendMsg_does {rm : RequestMsgBody} {content : CStr} {length : UInt32}
    (hpermits : c.db.board.Permits env header (.msgSend rm))
    (hmsg : Board.Composes env header rm content length) (hquote : quote ∉ content.bytes) :
    Ensures (Calls clean) c (sendMsg env
      { fromUid := header.userId, replyTo := rm.replyId,
        contentType := header.contentType.toUInt32.toInt32, contentLength := length, content,
        convId := rm.convId, chatId := rm.chatId }) (Does env header clean c (.msgSend rm)) := by
  have hnone : ∀ {α : Type} {o : Option α} {b : Bool}, (b = true ↔ o ≠ none) → b = false →
      o = none := by
    intro α o b hiff hfalse
    by_contra hsome
    cases (hiff.mpr hsome).symm.trans hfalse
  refine (ensures_msgSend hquote hc.idle).bind ?_
  rintro c' ⟨id, rc⟩ ⟨-, hins⟩
  refine ensures_reportInsert (r := fun id => .msgSend 201 id) hins (fun hinvalid => ?_)
    (fun hlong => Or.inr ⟨content, length, hmsg, hlong⟩) fun db' n _ hmade => ?_
  · rcases Db.insertMessage_none hinvalid with huser | ⟨k, hk, hconv⟩ | ⟨k, hk, hchat⟩ |
      ⟨k, hk, hreply⟩
    · exact Or.inl (hnone Kept.hasUser_iff huser)
    · exact Or.inr (Or.inl ⟨k, hk, hnone Kept.hasConv_iff hconv⟩)
    · exact Or.inr (Or.inr (Or.inl ⟨k, hk, hnone Kept.hasChat_iff hchat⟩))
    · exact Or.inr (Or.inr (Or.inr ⟨k, hk, hnone Kept.hasMsg_iff hreply⟩))
  · obtain ⟨hboard, hnew⟩ := Db.board_post hmade
    obtain ⟨huser, hconv, hchat, hreply⟩ := Db.insertMessage_some hmade
    have htype : header.contentType.toUInt32.toInt32.toInt = header.contentType.toNat := by
      cases hmsg with
      | text htype _ => rw [htype]; rfl
      | file htype _ _ _ => rw [htype]; rfl
    rw [hboard]
    simp only [MsgSchema.newMsg, NewMsg.row, MsgRow.message, htype]
    exact .posted hpermits hmsg (Kept.hasUser_iff.mp huser)
      (fun k hk => Kept.hasConv_iff.mp (hconv k hk)) (fun k hk => Kept.hasChat_iff.mp (hchat k hk))
      (fun k hk => (hreply k hk).imp_right Kept.hasMsg_iff.mp) hnew

theorem handleMsgSend_does {rm : RequestMsgBody}
    (hquote : ∀ s ∈ (RequestBody.msg rm).strings, quote ∉ s.bytes) :
    Ensures (Calls clean) c (handleMsgSend env header rm)
      (Does env header clean c (.msgSend rm)) := by
  refine ensures_deref (fun h => Or.inl h) fun content hcontent => ?_
  have hfree : quote ∉ content.bytes := hquote content (by simp [RequestBody.strings, hcontent])
  refine ensures_ifRoomMember (mt hc.enters_iff.mp) fun hin => ?_
  have hpermits := hc.enters_iff.mpr hin
  refine .ite (fun htext => sendMsg_does hc hpermits (.text htext hcontent) hfree) fun hnotext => ?_
  refine .ite (fun hfile => ?_) fun hnofile => ensures_unsupported ?_
  · refine ensures_deref (fun hnone => Or.inr ⟨hfile, content, hcontent, hnone⟩)
      fun path hpath => ?_
    have hfailed : env.upload ≠ .received → c.db.board.Hampered env header (.msgSend rm) :=
      fun hnot => Or.inl ⟨hfile, hnot⟩
    cases hupload : env.upload with
    | openFailed => exact ensures_hampered rfl fun _ => hfailed (by simp [hupload])
    | pollFailed => exact ensures_hampered rfl fun _ => hfailed (by simp [hupload])
    | closeFailed => exact ensures_hampered rfl fun _ => hfailed (by simp [hupload])
    | aborted => exact .ret (.aborted hfile hupload)
    | received =>
      exact sendMsg_does hc hpermits (.file hfile hcontent hupload hpath)
        (quoteFree_storagePath hfree hpath)
  · rintro (htext | hfile)
    · exact hnotext htext
    · exact hnofile hfile

theorem handleMsgDownloadFile_does {rm : RequestMsgBody} :
    Ensures (Calls clean) c (handleMsgDownloadFile header rm)
      (Does env header clean c (.msgDownloadFile rm)) := by
  refine ensures_ifReadable hc (fun hnone hknown => hknown hnone) (fun h => h)
    fun m hm hid hmsg hsees => ?_
  have hfile : (m.schema rm.msgId).contentType.toInt = msgFile.toNat ↔ m.message.IsFile := by
    have hint : ∀ x : UInt32, x.toInt32.toInt = 1 ↔ x = 1 := by
      intro x
      constructor
      · intro h
        have hx : x.toInt32 = 1 := Int32.toInt_inj.mp h
        exact congrArg Int32.toUInt32 hx
      · rintro rfl
        rfl
    exact hint _
  refine .ite (fun hother => ensures_unsupported fun hall => ?_) fun hsame => ?_
  · exact hother (hfile.mpr (hall _ hmsg))
  refine .ite (fun hshort => .ret (.undefined ⟨_, hmsg, hshort⟩)) fun hlong => ?_
  exact ensures_told (.file hmsg hsees (hfile.mp (not_not.mp hsame)) (not_lt.mp hlong))

theorem handleNotifyNewMsg_does :
    Ensures (Calls clean) c (handleNotifyNewMsg header)
      (Does env header clean c .notifyNewMsg) := by
  refine ensures_respondList (Or.inl ⟨by simp, rfl, rfl⟩) fun ids rc hlist hrc => ?_
  rw [Query.rows, ← page_all (c.db.sentTo _)] at hlist
  have hnodup : (c.db.sentTo header.userId.toNat).Nodup :=
    (List.perm_insertionSort _ _).nodup_iff.mpr (List.nodup_dedup _)
  have hlt := (List.sortedLE_insertionSort.sortedLT_of_nodup hnodup).pairwise
  refine .unread (lists_of_rows hnodup (fun n => ?_) hlt hlist hrc)
  rw [Db.mem_sentTo]
  constructor
  · rintro ⟨m, hm, rfl, htype, hroom⟩
    exact ⟨m.message, hc.message_iff.mpr ⟨m, hm, rfl, rfl⟩, htype, hc.sees_iff.mpr hroom⟩
  · rintro ⟨_, hmsg, htype, hsees⟩
    obtain ⟨m, hm, rfl, rfl⟩ := hc.message_iff.mp hmsg
    exact ⟨m, hm, rfl, htype, hc.sees_iff.mp hsees⟩

theorem handleNotifyDelMsg_does {rm : RequestMsgBody} :
    Ensures (Calls clean) c (handleNotifyDelMsg header rm)
      (Does env header clean c (.notifyDelMsg rm)) := by
  have hquery : msgGetMsgDelQuery header.userId rm.convId rm.chatId = .empty ∨
      (msgGetMsgDelQuery header.userId rm.convId rm.chatId).Sound := by
    unfold msgGetMsgDelQuery
    split_ifs
    · exact Or.inr ⟨by simp, rfl, rfl⟩
    · exact Or.inr ⟨by simp, rfl, rfl⟩
    · exact Or.inl rfl
  have hnodup : ∀ p : MsgRow → Bool, ((c.db.messages.filter p).map (·.id)).Nodup := fun p =>
    hc.ids.messages_nodup.sublist (List.filter_sublist.map _)
  have hany : ∀ l : List Nat, l.Pairwise Board.anyOrder := fun l =>
    List.pairwise_of_forall fun _ _ => trivial
  refine ensures_respondList hquery.symm fun ids rc hlist hrc => .deleted ?_
  unfold Board.ListsAll Board.deletedMessages
  by_cases hconv : rm.convId ≠ 0
  · rw [if_pos hconv, Query.rows, ← page_all (List.map _ _)] at hlist
    simp only [if_pos hconv]
    refine lists_of_rows (hnodup _) (hc.mem_messages (fun m => ?_)) (hany _) hlist hrc
    simp only [MsgRow.message, Bool.and_eq_true, Option.any_eq_true, decide_eq_true_eq,
      Db.mem_convIdsOf, Db.mem_board_members]
    constructor
    · rintro ⟨⟨k, hk, rfl, hmember⟩, htype⟩
      exact ⟨htype, hk, hmember⟩
    · rintro ⟨htype, hk, hmember⟩
      exact ⟨⟨_, hk, rfl, hmember⟩, htype⟩
  rw [if_neg hconv] at hlist
  simp only [if_neg hconv]
  by_cases hchat : rm.chatId ≠ 0
  · rw [if_pos hchat, Query.rows, ← page_all (List.map _ _)] at hlist
    refine lists_of_rows (hnodup _) (hc.mem_messages (fun m => ?_)) (hany _) hlist hrc
    simp only [MsgRow.message, Bool.and_eq_true, Option.any_eq_true, decide_eq_true_eq,
      Db.mem_chatIdsOf, hc.inChat_iff]
    constructor
    · rintro ⟨⟨k, hk, rfl, hmember⟩, htype⟩
      exact ⟨htype, hchat, hk, hmember⟩
    · rintro ⟨htype, -, hk, hmember⟩
      exact ⟨⟨_, hk, rfl, hmember⟩, htype⟩
  · rw [if_neg hchat] at hlist
    have hempty : (Query.empty).rows c.db = idRows (page (-1) 0 []) := rfl
    rw [hempty] at hlist
    refine lists_of_rows List.nodup_nil (fun n => ?_) (hany _) hlist hrc
    constructor
    · intro hn
      cases hn
    · rintro ⟨m, -, -, hsome, -⟩
      exact absurd hsome hchat

/-- Every case of the switch does what the board may do. -/
theorem Route.does {route : Route} (hquote : ∀ s ∈ route.strings, quote ∉ s.bytes) :
    Ensures (Calls clean) c (route.handle env header) (Does env header clean c route) := by
  cases route with
  | authRegister ra => exact handleAuthRegister_does hc hquote
  | authLogin ra => exact handleAuthLogin_does hc hquote
  | userLogout => exact ensures_told .logout
  | userGetInfo ru => exact handleUserGetInfo_does hc
  | userSearch ru => exact handleUserSearch_does hc hquote
  | convCreate rconv => exact handleConvCreate_does hc hquote
  | convDrop rconv => exact handleConvDrop_does hc
  | convJoin rconv => exact handleConvJoin_does hc
  | convQuit rconv => exact handleConvQuit_does hc
  | convGetInfo rconv => exact handleConvGetInfo_does hc
  | convGetMembers rconv => exact handleConvGetMembers_does hc
  | convGetList => exact handleConvGetList_does hc
  | chatCreate rchat => exact handleChatCreate_does hc
  | chatDrop rchat => exact handleChatDrop_does hc
  | chatGetList => exact handleChatGetList_does hc
  | chatGetInfo rchat => exact handleChatGetInfo_does hc
  | msgGetAll rm => exact handleMsgGetAll_does hc
  | msgGetDetail rm => exact handleMsgGetDetail_does hc
  | msgSend rm => exact handleMsgSend_does hc hquote
  | msgDelete rm => exact handleMsgDelete_does hc
  | notifyNewMsg => exact handleNotifyNewMsg_does hc
  | notifyDelMsg rm => exact handleNotifyDelMsg_does hc
  | msgDownloadFile rm => exact handleMsgDownloadFile_does hc

/-- A request is a step of the board. -/
theorem handleReq_does {req : Option Request} (hquote : ∀ r ∈ req, r.QuoteFree) :
    Ensures (Calls clean) c (handleReq env req) fun c' out =>
      c.db.board.Step ⟨env, req, out, clean⟩ c'.db.board := by
  cases req with
  | none => exact .ret .unparsed
  | some r =>
    unfold handleReq
    refine .ite (fun hno => .ret (.unverified hno.1 (by simpa using hno.2))) fun hyes => ?_
    have htoken : r.header.group = 0 ∨ env.verified = true := by
      by_cases hgroup : r.header.group = 0
      · exact Or.inl hgroup
      · exact Or.inr (by simpa [hgroup] using hyes)
    split
    · rename_i route hroute
      refine (Route.does hc fun s hs => ?_).mono fun c' out hdoes => .handled htoken hroute hdoes
      exact hquote r rfl s (Request.mem_strings_of_route hroute hs)
    · exact .ret (.unknown ‹_›)

end Handlers

/-! ## The server -/

/-- What the server may do: it handles a request to its end, while any of the calls to sqlite
    may fail, or it is restarted, and the file is opened anew. -/
inductive ServerStep : Conn → Option Board.Exchange → Conn → Prop
  | request {c c' : Conn} {env : Env} {req : Option Request} {out : Handled} {clean : Bool}
      (hquote : ∀ r ∈ req, r.QuoteFree) (hrun : Runs (Calls clean) c (handleReq env req) c' out) :
      ServerStep c (some ⟨env, req, out, clean⟩) c'
  | restart {c : Conn} : ServerStep c none { db := c.saved.getD c.db }

/-- The server, with empty tables at first. -/
def server : Machine Conn (Option Board.Exchange) where
  start c := c = { db := {} }
  step := ServerStep

theorem Kept.server_step {c c' : Conn} {e : Option Board.Exchange} (hc : Kept c)
    (h : ServerStep c e c') : Kept c' := by
  cases h with
  | request hquote hrun =>
    obtain ⟨hsettled, hsame | ⟨r, route, -, -, hchange⟩⟩ :=
      handleReq_change hquote hc.idle (hrun.mono Calls.le)
    · exact hc.same hsettled.saved hsame
    · exact hc.step hsettled hchange
  | restart => exact hc.same rfl (by rw [hc.idle, Option.getD_none])

/-- Behind the tables of the server is a board. -/
def serverSimulation : Simulation server messageBoard where
  inv := Kept
  abs c := c.db.board
  obs e := e
  inv_start := by
    rintro _ rfl
    exact Kept.start
  inv_step _ _ _ hc h := hc.server_step h
  start := by
    rintro _ rfl
    exact Db.board_empty
  visible := by
    rintro c e c' d hc h rfl
    cases h with
    | request hquote hrun => exact handleReq_does hc hquote c' _ hrun
  stutter := by
    rintro c e c' hc h rfl
    cases h with
    | restart => rw [hc.idle, Option.getD_none]

/-- The requests, without the restarts. -/
def exchanges (es : List (Option Board.Exchange)) : List Board.Exchange := es.filterMap id

theorem exchanges_length_le (es : List (Option Board.Exchange)) :
    (exchanges es).length ≤ es.length := List.length_filterMap_le _ _

theorem exchanges_append (es es' : List (Option Board.Exchange)) :
    exchanges (es ++ es') = exchanges es ++ exchanges es' := List.filterMap_append

/-- Behind the tables of the server is the board of its requests. -/
theorem server_board {es : List (Option Board.Exchange)} {c : Conn} (h : server.Run es c) :
    Kept c ∧ messageBoard.Run (exchanges es) c.db.board := serverSimulation.run h

/-- A request that is executed without a failure. -/
theorem server_step_of_execute {fuel : Nat} {env : Env} {req : Request} {c c' : Conn}
    {out : Handled} (hquote : req.QuoteFree)
    (h : execute serve fuel c (handleReq env (some req)) = some (c', out)) :
    server.step c (some ⟨env, some req, out, true⟩) c' := by
  refine .request ?_ (runs_calls (runs_of_execute answers_of_serve h) fun _ =>
    runs_of_execute (fun _ _ _ _ h => h) h)
  rintro _ ⟨⟩
  exact hquote

/-- Requests that are played, with their answers. -/
def playedExchanges (reqs : List (Env × Request)) (log : List Served) :
    List (Option Board.Exchange) :=
  (reqs.zip log).map fun x => some ⟨x.1.1, some x.1.2, x.2.out, true⟩

theorem server_steps_of_play {fuel : Nat} {reqs : List (Env × Request)} {log : List Served}
    {c : Conn} {x : List Served × Conn} (h : Session.play fuel reqs log c = some x) :
    ∃ new, x.1 = log ++ new ∧ server.Steps c (playedExchanges reqs new) x.2 := by
  induction reqs generalizing log c with
  | nil =>
    cases h
    exact ⟨[], by simp, .nil⟩
  | cons r reqs ih =>
    unfold Session.play at h
    split at h
    · rename_i hquote
      split at h
      · rename_i c' out hexec
        obtain ⟨new, hlog, hsteps⟩ := ih h
        refine ⟨⟨some r.2, c, c', out, true⟩ :: new, by simp [hlog], ?_⟩
        exact Machine.steps_cons.mpr ⟨c', server_step_of_execute hquote hexec, hsteps⟩
      · cases h
    · cases h

/-- The requests of `lobbyRequests` with their answers. -/
def lobbyExchanges : List (Option Board.Exchange) :=
  playedExchanges (lobbyRequests.map (lobbyEnv, ·)) lobbyLog

theorem lobby_run : server.Run lobbyExchanges { db := lobbyDb, fk := true, lastRowid := 2 } := by
  obtain ⟨new, hlog, hsteps⟩ := server_steps_of_play lobby_played
  obtain rfl : lobbyLog = new := hlog
  exact ⟨_, rfl, hsteps⟩

end MeshChat
