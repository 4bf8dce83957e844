import MeshChat.Server.Guards
import MeshChat.Server.Sending

/-! # What requests ask for

    A handler sends sqlite nothing but reads and the statements that its request asks
    for: their values are the fields of its body and the user of its header, whatever
    replies it gets.

    * `Stmt.AskedBy`: the requests that ask for a statement.
    * `Route.handle_asked`: a handler executes no other statements.
-/

namespace MeshChat

open CMemory SqlLex Prog

/-- The request asks for the statement. -/
def Stmt.AskedBy (env : Env) (header : RequestHeader) (route : Route) : Stmt → Prop
  | insertUser u p ph e => ∃ ra password, route = .authRegister ra ∧ ra.uname = some u ∧
      ra.password = some password ∧ hashStr env password = some p ∧ ra.phone = some ph ∧
      ra.email = some e
  | insertConversation a n => ∃ rconv, route = .convCreate rconv ∧ a = header.userId.toNat ∧
      rconv.gname = some n
  | insertMemberOfLast u => ∃ rconv, route = .convCreate rconv ∧ u = header.userId.toNat
  | insertMember c u => ∃ rconv, route = .convJoin rconv ∧ c = rconv.convId.toNat ∧
      u = rconv.userId.toNat
  -- whoever the body names
  | deleteMember c u => ∃ rconv, route = .convQuit rconv ∧ c = rconv.convId.toNat ∧
      u = header.userId.toNat
  | deleteMessagesOfConv c | deleteMembersOf c | deleteConversation c =>
    ∃ rconv, route = .convDrop rconv ∧ c = rconv.convId.toNat
  | insertChat a b => ∃ rchat, route = .chatCreate rchat ∧ a = header.userId.toNat ∧
      b = rchat.userId2.toNat
  | deleteMessagesOfChat c | deleteChat c =>
    ∃ rchat, route = .chatDrop rchat ∧ c = rchat.chatId.toNat
  | insertMessage m => ∃ rm msg ops, route = .msgSend rm ∧ Composed env header rm msg ops ∧
      m = msg.newMsg env.now
  | setMessageType id type => ∃ rm, route = .msgGetDetail rm ∧ id = rm.msgId.toNat ∧
      type = .delivered
  | clearMessage id => ∃ rm, route = .msgDelete rm ∧ id = rm.msgId.toNat
  | deleteUser _ | deleteMessage _ | raw => False
  | pragmaForeignKeysOn | begin | commit | rollback | malformed => True

/-- All statements of the call. -/
def SqlCall.AskedBy (env : Env) (header : RequestHeader) (route : Route) (call : SqlCall) : Prop :=
  ∀ s ∈ call.stmts, s.AskedBy env header route

/-- The program executes only what the request asks for. -/
abbrev Obeys {α : Type} (env : Env) (header : RequestHeader) (route : Route) (p : SqlProg α) :
    Prop :=
  MakesOnly (·.AskedBy env header route) p

section Rules

variable {α : Type} {env : Env} {header : RequestHeader} {route : Route}

theorem askedBy_read {call : SqlCall} (h : call.IsRead) : call.AskedBy env header route := by
  cases call with
  | exec ss => cases h
  | step s => cases h
  | _ => exact fun s hs => absurd hs List.not_mem_nil

theorem obeys_reads {p : SqlProg α} (hp : Reads p) : Obeys env header route p :=
  hp.conforms (fun _ hc => ⟨askedBy_read hc, fun _ => rfl⟩) fun _ => trivial

theorem askedBy_exec {s : Stmt} :
    (SqlCall.exec [s]).AskedBy env header route ↔ s.AskedBy env header route :=
  List.forall_mem_singleton

/-- A statement with quote-free text, or what is left of it when it is cut. -/
theorem TextQuery.askedBy_insertStmt {q : TextQuery} (hq : q.QuoteFree) {s : Stmt}
    (hs : s.AskedBy env header route) : (q.insertStmt s).AskedBy env header route := by
  rcases TextQuery.insertStmt_of_quoteFree hq s with h | h
  · rw [h]
    exact hs
  · rw [h]
    trivial

theorem obeys_sqlInsert {s : Stmt} (hs : s.AskedBy env header route) :
    Obeys env header route (sqlInsert s) := by
  simp [sqlInsert, onlyProtocol, SqlCall.AskedBy, SqlCall.stmts, hs]

theorem obeys_sqlExec {s : Stmt} (hs : s.AskedBy env header route) :
    Obeys env header route (sqlExec s) := by
  simp [sqlExec, onlyProtocol, SqlCall.AskedBy, SqlCall.stmts, hs]

theorem obeys_sqlExecIgnored {s : Stmt} (hs : s.AskedBy env header route) :
    Obeys env header route (sqlExecIgnored s) := by
  simp [sqlExecIgnored, onlyProtocol, SqlCall.AskedBy, SqlCall.stmts, hs]

theorem obeys_rollback (a : α) (rc : Rc) : Obeys env header route (rollback a rc) := by
  simp [rollback, onlyProtocol, SqlCall.AskedBy, SqlCall.stmts, Stmt.AskedBy]

theorem obeys_commitAfter {ss : List Stmt} (hss : ∀ s ∈ ss, s.AskedBy env header route) :
    Obeys env header route (commitAfter ss) := by
  induction ss with
  | nil =>
    simp [commitAfter, rollback, onlyProtocol, SqlCall.AskedBy, SqlCall.stmts,
      Stmt.AskedBy]
  | cons s ss ih =>
    obtain ⟨hs, hss⟩ := List.forall_mem_cons.mp hss
    simp only [commitAfter, invoke_bind, pure_eq]
    refine ⟨askedBy_exec.mpr hs, fun r => ?_⟩
    exact conforms_ite.mpr ⟨fun _ => (obeys_rollback () r.rc).bind fun _ => trivial,
      fun _ => ih hss⟩

/-- A transaction of deletes: `conv_drop` and `chat_drop`. -/
theorem obeys_dropAll {ss : List Stmt} (hss : ∀ s ∈ ss, s.AskedBy env header route) :
    Obeys env header route (do
      let r ← invoke (.exec [.begin])
      if r.rc ≠ .ok then
        let (_, rc) ← rollback () r.rc
        return rc
      else commitAfter ss) := by
  simp only [invoke_bind, pure_eq]
  refine ⟨askedBy_exec.mpr trivial, fun r => ?_⟩
  exact conforms_ite.mpr ⟨fun _ => (obeys_rollback () r.rc).bind fun _ => trivial,
    fun _ => obeys_commitAfter hss⟩

theorem obeys_deref {a : Option α} {k : α → SqlProg Handled}
    (hk : ∀ x, a = some x → Obeys env header route (k x)) : Obeys env header route (deref a k) := by
  cases a with
  | none => trivial
  | some x => exact hk x rfl

theorem obeys_report {p : Prop} [Decidable p] {status : UInt32} {group action : UInt8}
    {r : ResponseCall} :
    Obeys env header route (if p then responseErr status group action else respond r) :=
  .ite trivial trivial

theorem obeys_reportInsert {p p' : Prop} [Decidable p] [Decidable p'] {status status' : UInt32}
    {group action : UInt8} {r : ResponseCall} :
    Obeys env header route
      (if p then if p' then responseErr status group action else responseErr status' group action
       else respond r) :=
  .ite (.ite trivial trivial) trivial

theorem obeys_respondList {q : Query} {group action : UInt8}
    {response : List UInt32 → ResponseCall} :
    Obeys env header route (respondList (sqlGetList q) group action response) :=
  (obeys_reads (reads_sqlGetList q)).bind fun _ => obeys_report

/-- A check in front of what is done. -/
theorem obeys_guarded {q : Query} {group action : UInt8} {k : SqlProg Handled}
    (hk : Obeys env header route k) :
    Obeys env header route (do
      let x ← sqlExists q
      if sqlIsErr x.2 then responseErr 500 group action
      else if !x.1 then responseErr 403 group action
      else k) :=
  (obeys_reads (reads_sqlExists q)).bind fun _ => .ite trivial (.ite trivial hk)

theorem obeys_lookup {q : Query} {f : List Val → α} {group action : UInt8} {k : α → SqlProg Handled}
    (hk : ∀ a, Obeys env header route (k a)) :
    Obeys env header route (do
      let x ← sqlGetInfo q f
      if sqlIsErr x.2 then responseErr 500 group action
      else if x.2 = .empty then responseErr 404 group action
      else deref x.1 k) :=
  (obeys_reads (reads_sqlGetInfo q f)).bind fun _ =>
    .ite trivial (.ite trivial (obeys_deref fun a _ => hk a))

theorem obeys_ifRoomMember {convId chatId userId : UInt32} {action : UInt8} {k : SqlProg Handled}
    (hk : Obeys env header route k) :
    Obeys env header route (ifRoomMember convId chatId userId action k) :=
  (obeys_reads (reads_sqlExists _)).bind fun _ => .ite trivial (.ite hk
    ((obeys_reads (reads_sqlExists _)).bind fun _ => .ite trivial (.ite hk trivial)))

/-- The message that is read is the one that is named. -/
theorem obeys_ifReadable {msgId userId : UInt32} {action : UInt8} {k : MsgSchema → SqlProg Handled}
    (hk : ∀ msg : MsgSchema, msg.id = msgId → Obeys env header route (k msg)) :
    Obeys env header route (ifReadable msgId userId action k) := by
  have hnamed : ∀ x : Option MsgSchema × Rc, (∀ msg ∈ x.1, msg.id = msgId) →
      Obeys env header route (if sqlIsErr x.2 then responseErr 500 4 action
        else if x.2 = .empty then responseErr 404 4 action
        else deref x.1 fun msg => ifRoomMember msg.convId msg.chatId userId action (k msg)) :=
    fun x hx => .ite trivial (.ite trivial
      (obeys_deref fun msg hmsg => obeys_ifRoomMember (hk msg (hx msg hmsg))))
  simp only [ifReadable, msgGetDetail, sqlGetInfo, sqlFirstRow, invoke_bind, pure_eq, call_bind,
    ite_bind, ret_bind]
  have hnone : ∀ rc, ∀ msg ∈ ((none, rc) : Option MsgSchema × Rc).1, msg.id = msgId :=
    fun _ _ h => by cases h
  refine ⟨askedBy_read trivial, fun r => .ite (hnamed _ (hnone _)) ?_⟩
  refine ⟨askedBy_read trivial, fun r => .ite (hnamed _ (hnone _)) ?_⟩
  refine ⟨askedBy_read trivial, fun r => .ite (hnamed _ (hnone _)) (hnamed (some _, _) ?_)⟩
  rintro msg ⟨⟩
  rfl

end Rules

/-! ## The handlers -/

section Handlers

variable {env : Env} {header : RequestHeader}

theorem obeys_handleAuthRegister {ra : RequestAuth}
    (hquote : ∀ s ∈ (RequestBody.auth ra).strings, quote ∉ s.bytes) :
    Obeys env header (.authRegister ra) (handleAuthRegister env ra) := by
  refine obeys_deref fun uname huname => obeys_deref fun password hpassword => ?_
  refine obeys_deref fun phone hphone => obeys_deref fun email hemail => ?_
  split
  · trivial
  rename_i hashed hhash
  have hfree : (TextQuery.userCreate uname hashed phone email).QuoteFree := by
    intro s hs
    simp only [TextQuery.strings, List.mem_cons, List.not_mem_nil, or_false] at hs
    rcases hs with rfl | rfl | rfl | rfl
    · exact hquote _ (by simp [RequestBody.strings, huname])
    · exact quoteFree_hashStr hhash
    · exact hquote _ (by simp [RequestBody.strings, hphone])
    · exact hquote _ (by simp [RequestBody.strings, hemail])
  have hasked : (Stmt.insertUser uname hashed phone email).AskedBy env header (.authRegister ra) :=
    ⟨ra, password, rfl, huname, hpassword, hhash, hphone, hemail⟩
  exact (obeys_sqlInsert (TextQuery.askedBy_insertStmt hfree hasked)).bind fun _ =>
    obeys_reportInsert

theorem obeys_handleAuthLogin (ra : RequestAuth) :
    Obeys env header (.authLogin ra) (handleAuthLogin env ra) := by
  refine obeys_deref fun uname _ => obeys_deref fun password _ => ?_
  refine (obeys_reads (reads_sqlGetInfo _ _)).bind fun x => .ite trivial (.ite trivial ?_)
  exact obeys_deref fun hashed _ => obeys_deref fun user _ => .ite trivial trivial

theorem obeys_handleConvCreate {rconv : RequestConv}
    (hquote : ∀ s ∈ (RequestBody.conv rconv).strings, quote ∉ s.bytes) :
    Obeys env header (.convCreate rconv) (handleConvCreate header rconv) := by
  refine obeys_deref fun gname hgname => ?_
  have hfree : (TextQuery.convCreate header.userId gname).QuoteFree := by
    simpa [TextQuery.QuoteFree, TextQuery.strings] using
      hquote gname (by simp [RequestBody.strings, hgname])
  have hconv : ((TextQuery.convCreate header.userId gname).insertStmt
      (.insertConversation header.userId.toNat gname)).AskedBy env header (.convCreate rconv) :=
    TextQuery.askedBy_insertStmt hfree ⟨rconv, rfl, rfl, hgname⟩
  have hmember : (Stmt.insertMemberOfLast header.userId.toNat).AskedBy env header
      (.convCreate rconv) := ⟨rconv, rfl, rfl⟩
  refine MakesOnly.bind ?_ fun x => obeys_report
  simp [convCreate, rollback, onlyProtocol, SqlCall.AskedBy, SqlCall.stmts, hconv,
    hmember]
  simp [Stmt.AskedBy]

theorem obeys_handleConvQuit (rconv : RequestConv) :
    Obeys env header (.convQuit rconv) (handleConvQuit header rconv) := by
  refine obeys_guarded ((obeys_reads (reads_sqlExists _)).bind fun x => ?_)
  refine .ite trivial (.ite trivial (.ite trivial ?_))
  exact (obeys_sqlExec (s := .deleteMember rconv.convId.toNat header.userId.toNat)
    ⟨rconv, rfl, rfl, rfl⟩).bind fun _ => obeys_report

theorem obeys_handleChatCreate (rchat : RequestChat) :
    Obeys env header (.chatCreate rchat) (handleChatCreate header rchat) := by
  refine .ite trivial (MakesOnly.bind ?_ fun x => obeys_reportInsert)
  simp only [chatCreate, invoke_bind, pure_eq]
  refine ⟨askedBy_exec.mpr trivial, fun r => .ite trivial ?_⟩
  exact obeys_sqlInsert ⟨rchat, rfl, rfl, rfl⟩

theorem obeys_handleMsgGetAll (rm : RequestMsgBody) :
    Obeys env header (.msgGetAll rm) (handleMsgGetAll header rm) := by
  refine obeys_ifRoomMember ?_
  split
  · exact (obeys_reads (reads_sqlGetList _)).bind fun _ => .ite trivial (.ite trivial trivial)
  · exact (obeys_reads (reads_sqlGetList _)).bind fun _ => .ite trivial (.ite trivial trivial)

/-- The insert of a message that the request has composed. -/
theorem obeys_sendMsg {rm : RequestMsgBody} {msg : MsgSchema} {ops : List FileOp}
    (hfree : quote ∉ msg.content.bytes) (hmsg : Composed env header rm msg ops) :
    Obeys env header (.msgSend rm) (sendMsg env msg) := by
  have hq : (TextQuery.msgSend msg.fromUid msg.replyTo msg.contentType msg.contentLength msg.content
      env.now msg.chatId msg.convId).QuoteFree := by
    simpa [TextQuery.QuoteFree, TextQuery.strings] using hfree
  have hasked : (msgSendStmt msg env.now).AskedBy env header (.msgSend rm) :=
    TextQuery.askedBy_insertStmt hq ⟨rm, msg, ops, rfl, hmsg, rfl⟩
  refine MakesOnly.bind ?_ fun x => obeys_reportInsert
  simp [msgSend, onlyProtocol, SqlCall.AskedBy, SqlCall.stmts, hasked]
  simp [Stmt.AskedBy]

theorem obeys_handleMsgSend {rm : RequestMsgBody}
    (hquote : ∀ s ∈ (RequestBody.msg rm).strings, quote ∉ s.bytes) :
    Obeys env header (.msgSend rm) (handleMsgSend env header rm) := by
  refine obeys_deref fun content hcontent => obeys_ifRoomMember ?_
  have hfree : quote ∉ content.bytes := hquote content (by simp [RequestBody.strings, hcontent])
  refine conforms_ite.mpr ⟨fun htext => obeys_sendMsg hfree (.text htext hcontent), fun _ => ?_⟩
  refine conforms_ite.mpr ⟨fun hfile => ?_, fun _ => trivial⟩
  refine obeys_deref fun path hpath => ?_
  split
  · trivial
  · trivial
  · trivial
  · trivial
  · exact obeys_sendMsg (quoteFree_storagePath hfree hpath) (.file hfile hcontent hpath)

/-- Whatever replies it gets, a handler executes only what its request asks for. -/
theorem Route.handle_asked {route : Route} (hquote : ∀ s ∈ route.strings, quote ∉ s.bytes) :
    Obeys env header route (route.handle env header) := by
  cases route with
  | authRegister ra => exact obeys_handleAuthRegister hquote
  | authLogin ra => exact obeys_handleAuthLogin ra
  | userLogout => trivial
  | userGetInfo ru => exact obeys_lookup fun _ => trivial
  | userSearch ru => exact obeys_deref fun _ _ => obeys_respondList
  | convCreate rconv => exact obeys_handleConvCreate hquote
  | convDrop rconv =>
    refine obeys_guarded ((obeys_dropAll ?_).bind fun _ => obeys_report)
    simp [Stmt.AskedBy]
  | convJoin rconv =>
    have hasked : (Stmt.insertMember rconv.convId.toNat rconv.userId.toNat).AskedBy env header
        (.convJoin rconv) := ⟨rconv, rfl, rfl, rfl⟩
    refine obeys_guarded (MakesOnly.bind ?_ fun rc => obeys_report)
    refine (obeys_sqlInsert hasked).bind fun x => ?_
    trivial
  | convQuit rconv => exact obeys_handleConvQuit rconv
  | convGetInfo rconv => exact obeys_lookup fun _ => trivial
  | convGetMembers rconv => exact obeys_guarded obeys_respondList
  | convGetList => exact obeys_respondList
  | chatCreate rchat => exact obeys_handleChatCreate rchat
  | chatDrop rchat =>
    refine obeys_guarded ((obeys_dropAll ?_).bind fun _ => obeys_report)
    simp [Stmt.AskedBy]
  | chatGetList => exact obeys_respondList
  | chatGetInfo rchat =>
    exact (obeys_reads (reads_sqlGetInfo _ _)).bind fun _ =>
      .ite trivial (obeys_deref fun _ _ => .ite trivial trivial)
  | msgGetAll rm => exact obeys_handleMsgGetAll rm
  | msgGetDetail rm =>
    refine obeys_ifReadable fun msg _ => (obeys_sqlExecIgnored ?_).bind fun _ => trivial
    exact ⟨rm, rfl, rfl, rfl⟩
  | msgSend rm => exact obeys_handleMsgSend hquote
  | msgDelete rm =>
    refine obeys_ifReadable fun msg hid => (obeys_sqlExecIgnored ?_).bind fun _ => obeys_report
    exact ⟨rm, rfl, congrArg UInt32.toNat hid⟩
  | notifyNewMsg => exact obeys_respondList
  | notifyDelMsg rm => exact obeys_respondList
  | msgDownloadFile rm => exact obeys_ifReadable fun _ _ => .ite trivial (.ite trivial trivial)

end Handlers

/-- The request asks for the statement, by the case of the switch it leads to. -/
def Stmt.AskedIn (env : Env) (r : Request) (s : Stmt) : Prop :=
  ∃ route, r.route = some route ∧ s.AskedBy env r.header route

theorem handleReq_asked {env : Env} {r : Request} (hquote : r.QuoteFree) :
    MakesOnly (fun call : SqlCall => ∀ s ∈ call.stmts, s.AskedIn env r)
      (handleReq env (some r)) := by
  unfold handleReq
  dsimp only
  split
  · trivial
  split
  swap
  · trivial
  rename_i route hroute
  have hfree : ∀ s ∈ route.strings, quote ∉ s.bytes :=
    fun s hs => hquote s (Request.mem_strings_of_route hroute hs)
  exact MakesOnly.mono (Route.handle_asked hfree) fun call hcall s hs => ⟨route, hroute, hcall s hs⟩

/-- What a handler does next is asked for by its request, whatever the others do. -/
theorem asked_next {ι : Type} [DecidableEq ι] {env : ι → Env} {req : ι → Request} {c₀ c : Conn}
    {log : List (Entry ι SqlCall Reply Conn)} (hquote : ∀ i, (req i).QuoteFree)
    (h : HandledTogether env req c₀ log c) {i : ι} {call : SqlCall}
    (hissue : (residual (handlers env req) log i).issue = some call) :
    ∀ s ∈ call.stmts, s.AskedIn (env i) (req i) :=
  have hasked : MakesOnly (fun call : SqlCall => ∀ s ∈ call.stmts, s.AskedIn (env i) (req i))
      (handlers env req i) := handleReq_asked (hquote i)
  (hasked.interleaved h).allowed hissue

end MeshChat
