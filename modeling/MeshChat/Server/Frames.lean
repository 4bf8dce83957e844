import MeshChat.Server.Accounts
import MeshChat.Server.Delivery
import MeshChat.Wire.ResponseRoundTrip

/-! # Which responses fit their frame

    The builders write without a bound. What they write is a string that came from
    an SQL text, which had to fit its query buffer, or the ids of all rows of a
    query.

    * `TextsFit`: the strings in the tables are no longer than the query buffers
      allow.
    * `Route.listing`: the query whose rows a request lists.
    * `responses_fit_iff`: the responses to a request fit if and only if there are
      not too many rows.
-/

namespace MeshChat

open CMemory SqlLex Prog

/-- All stores of the builder are inside the frame. -/
def ResponseCall.Fits (r : ResponseCall) : Prop := ∀ prior, ∃ frame copies, r.make prior = .ok frame copies

theorem ResponseCall.fits_iff {r : ResponseCall} : r.Fits ↔ r.written ≤ responseBodyLen := by
  constructor
  · intro h
    obtain ⟨frame, copies, hmake⟩ := h fun _ => 0
    exact written_le_of_make hmake
  · intro h prior
    obtain ⟨frame, hmake, -⟩ := r.make_laid h prior
    exact ⟨frame, [], hmake⟩

/-! ## Stored texts -/

/-- The strings of the tables as long as their SQL text allows. -/
structure TextsFit (db : Db) : Prop where
  users : ∀ u ∈ db.users, u.uname.strlen + u.phone.strlen + u.email.strlen ≤ querySmall
  convs : ∀ r ∈ db.conversations, r.name.strlen ≤ querySmall
  messages : ∀ m ∈ db.messages, m.content.strlen + 62 ≤ queryLarge

theorem userCreate_length (u p ph e : CStr) :
    u.strlen + ph.strlen + e.strlen ≤ (TextQuery.userCreate u p ph e).template.text.length := by
  simp only [TextQuery.template, Template.text, List.foldr_cons, List.foldr_nil,
    List.length_append, List.length_cons, CStr.strlen]
  omega

theorem convCreate_length (adminId : UInt32) (name : CStr) :
    name.strlen ≤ (TextQuery.convCreate adminId name).template.text.length := by
  simp only [TextQuery.template, Template.text, List.foldr_cons, List.foldr_nil,
    List.length_append, List.length_cons, CStr.strlen]
  omega

/-- The fixed text of an insert is longer than the fixed part of a response. -/
theorem msgSend_length (msg : MsgSchema) (now : UInt32) :
    msg.content.strlen + 62 ≤ (msg.textQuery now).template.text.length := by
  have hfixed : (ascii "content, created_at, chat_id, conv_id, type) VALUES (").length = 53 := rfl
  have hfixed' :
      (ascii "INSERT INTO messages(from_uid, reply_to, content_type, content_length, ").length = 71 :=
    rfl
  simp only [MsgSchema.textQuery, TextQuery.template, Template.text, List.foldr_cons,
    List.foldr_nil, List.length_append, List.length_cons, CStr.strlen, hfixed, hfixed']
  omega

theorem TextsFit.subset {db db' : Db} (hfit : TextsFit db) (husers : db'.users ⊆ db.users)
    (hconvs : db'.conversations ⊆ db.conversations) (hmessages : db'.messages ⊆ db.messages) :
    TextsFit db' where
  users u hu := hfit.users u (husers hu)
  convs r hr := hfit.convs r (hconvs hr)
  messages m hm := hfit.messages m (hmessages hm)

theorem TextsFit.update {db : Db} (hfit : TextsFit db) {id : Nat} {f : MsgRow → MsgRow}
    (hf : ∀ m ∈ db.messages, (f m).content.strlen ≤ m.content.strlen) :
    TextsFit (db.updateMessage id f) := by
  refine ⟨hfit.users, hfit.convs, ?_⟩
  intro n hn
  obtain ⟨m, hm, rfl⟩ := List.mem_map.mp hn
  have hle := hfit.messages m hm
  have hshorter := hf m hm
  split <;> omega

/-- No request inserts a longer string. -/
theorem TextsFit.step {header : RequestHeader} {route : Route} {c c' : Conn} (hfit : TextsFit c.db)
    (h : Change header route c c') : TextsFit c'.db := by
  cases h with
  | unchanged h =>
    rw [h]
    exact hfit
  | registered hroom h =>
    obtain ⟨-, hdb⟩ := Db.insertRow_inv h
    rw [hdb]
    -- the text of the insert holds all four strings and fitted its buffer
    refine ⟨?_, hfit.convs, hfit.messages⟩
    intro u hu
    rcases List.mem_append.mp hu with hu | hu
    · exact hfit.users u hu
    · obtain rfl := List.mem_singleton.mp hu
      exact (userCreate_length ..).trans hroom
  | convCreated h _ =>
    -- of a new conversation only the name is a text
    obtain ⟨hroom, db₁, n, hconv, hmember⟩ := h
    obtain ⟨-, rfl⟩ := Db.insertRow_inv hconv
    obtain ⟨-, hdb⟩ := Db.insertRow_inv hmember
    rw [hdb]
    refine ⟨hfit.users, ?_, hfit.messages⟩
    intro r hr
    rcases List.mem_append.mp hr with hr | hr
    · exact hfit.convs r hr
    · obtain rfl := List.mem_singleton.mp hr
      exact (convCreate_length ..).trans hroom
  | convDropped _ h =>
    rw [h]
    refine hfit.subset ?_ ?_ (Db.dropConv_messages ..).subset
    · rw [Db.dropConv_users]
      exact List.Subset.refl _
    · rw [Db.dropConv_conversations]
      exact List.filter_subset_self _
  | convJoined _ h =>
    obtain ⟨-, hdb⟩ := Db.insertRow_inv h
    rw [hdb]
    exact ⟨hfit.users, hfit.convs, hfit.messages⟩
  | convQuit _ _ h =>
    rw [h]
    exact ⟨hfit.users, hfit.convs, hfit.messages⟩
  | chatCreated _ h _ =>
    obtain ⟨-, hdb⟩ := Db.insertRow_inv h
    rw [hdb]
    exact ⟨hfit.users, hfit.convs, hfit.messages⟩
  | chatDropped _ h =>
    rw [h]
    refine hfit.subset ?_ ?_ (Db.dropChat_messages ..).subset
    · rw [Db.dropChat_users]
      exact List.Subset.refl _
    · rw [Db.dropChat_conversations]
      exact List.Subset.refl _
  | msgSent _ _ _ _ _ h =>
    obtain ⟨-, hdb⟩ := Db.insertRow_inv h.2
    rw [hdb]
    -- the large buffer of `msg_send` is as big as a frame, so the fixed text of its
    -- insert has to make up for the fixed part of the response
    refine ⟨hfit.users, hfit.convs, ?_⟩
    intro m hm
    rcases List.mem_append.mp hm with hm | hm
    · exact hfit.messages m hm
    · obtain rfl := List.mem_singleton.mp hm
      exact (msgSend_length ..).trans h.1
  | msgDelivered _ _ _ h =>
    rw [h]
    exact hfit.update fun _ _ => le_rfl
  | msgDeleted _ _ _ h =>
    rw [h]
    -- a deleted message is empty
    exact hfit.update fun _ _ => Nat.zero_le _

theorem Session.textsFit {restarts : Prop} {log : List Served} {c : Conn}
    (h : Session restarts log c) : TextsFit c.db := by
  refine h.induct (I := fun _ c => TextsFit c.db) ⟨by simp, by simp, by simp⟩ ?_ fun _ _ _ _ ih => ih
  intro log e _ heffect _ ih
  rcases heffect with hsame | ⟨r, route, -, -, hchange⟩
  · rw [hsame]
    exact ih
  · exact ih.step hchange

/-! ## Responses of a fixed size -/

/-- All frames fit. -/
def Handled.Fits (out : Handled) : Prop := ∀ r ∈ out.sent, r.Fits

theorem handled_fits_empty : Handled.Fits {} := by
  simp [Handled.Fits]

theorem handled_fits_single {r : ResponseCall} {undefined : Bool} :
    Handled.Fits { sent := [r], undefined } ↔ r.written ≤ responseBodyLen := by
  rw [Handled.Fits, List.forall_mem_singleton, ResponseCall.fits_iff]

/-- Whatever replies come, what the handler sends fits. -/
def Fitting (p : SqlProg Handled) : Prop :=
  Returns (fun _ _ => True) (fun _ => False) Handled.Fits p

namespace Fitting

theorem runs {p : SqlProg Handled} {c c' : Conn} {out : Handled} (hp : Fitting p)
    (h : Runs Answers c p c' out) : out.Fits :=
  Returns.runs (fun _ _ _ _ _ => trivial) hp h

theorem answered {D : SqlCall → Reply → Prop} {p : SqlProg Handled} {rs : List Reply}
    {out : Handled} (hp : Fitting p) (h : Answered D p rs out) : out.Fits :=
  Returns.answered hp (h.mono fun _ _ _ => trivial)

theorem respond {r : ResponseCall} (h : r.written ≤ responseBodyLen) : Fitting (respond r) :=
  handled_fits_single.mpr h

theorem responseErr {status : UInt32} {group action : UInt8} :
    Fitting (responseErr status group action) :=
  respond (Nat.zero_le _)

theorem bind {α : Type} {p : SqlProg α} {k : α → SqlProg Handled} (h : ∀ a, Fitting (k a)) :
    Fitting (p >>= k) :=
  Returns.bind (returns_any p) fun a _ => h a

theorem ite {P : Prop} [Decidable P] {p q : SqlProg Handled} (hp : Fitting p) (hq : Fitting q) :
    Fitting (if P then p else q) := by
  split
  · exact hp
  · exact hq

theorem deref {α : Type} {x : Option α} {k : α → SqlProg Handled} (h : ∀ a, Fitting (k a)) :
    Fitting (deref x k) := by
  cases x with
  | none => exact handled_fits_empty
  | some a => exact h a

theorem ifRoomMember {convId chatId userId : UInt32} {action : UInt8} {k : SqlProg Handled}
    (hk : Fitting k) : Fitting (ifRoomMember convId chatId userId action k) :=
  bind fun _ => ite responseErr (ite hk (bind fun _ => ite responseErr (ite hk responseErr)))

theorem ifReadable {msgId userId : UInt32} {action : UInt8} {k : MsgSchema → SqlProg Handled}
    (hk : ∀ msg, Fitting (k msg)) : Fitting (ifReadable msgId userId action k) :=
  bind fun _ => ite responseErr (ite responseErr (deref fun msg => ifRoomMember (hk msg)))

/-- The answer behind a write. -/
theorem report {rc : Rc} {status : UInt32} {group action : UInt8} {r : ResponseCall}
    (h : r.written ≤ responseBodyLen) :
    Fitting (if sqlIsErr rc then MeshChat.responseErr status group action
      else MeshChat.respond r) :=
  ite responseErr (respond h)

/-- The answer behind an insert. -/
theorem reportInsert {rc : Rc} {status status' : UInt32} {group action : UInt8} {r : ResponseCall}
    (h : r.written ≤ responseBodyLen) :
    Fitting (if sqlIsErr rc then
        if rc = .constraint then MeshChat.responseErr status group action
        else MeshChat.responseErr status' group action
      else MeshChat.respond r) :=
  ite (ite responseErr responseErr) (respond h)

theorem handleAuthRegister (env : Env) (ra : RequestAuth) : Fitting (handleAuthRegister env ra) := by
  refine deref fun uname => deref fun password => deref fun phone => deref fun email => ?_
  split
  · exact responseErr
  · exact bind fun x => reportInsert (by simp [ResponseCall.written])

theorem handleAuthLogin (env : Env) (ra : RequestAuth) : Fitting (handleAuthLogin env ra) :=
  deref fun uname => deref fun password => bind fun x => ite responseErr (ite responseErr
    (deref fun hashed => deref fun user => ite responseErr
      (respond (by simp [ResponseCall.written]))))

theorem handleConvCreate (header : RequestHeader) (rconv : RequestConv) :
    Fitting (handleConvCreate header rconv) :=
  deref fun gname => bind fun _ => report (by simp [ResponseCall.written])

theorem handleConvDrop (header : RequestHeader) (rconv : RequestConv) :
    Fitting (handleConvDrop header rconv) :=
  bind fun _ => ite responseErr (ite responseErr (bind fun _ =>
    report (by simp [ResponseCall.written])))

theorem handleConvJoin (header : RequestHeader) (rconv : RequestConv) :
    Fitting (handleConvJoin header rconv) :=
  bind fun _ => ite responseErr (ite responseErr (bind fun _ =>
    report (by simp [ResponseCall.written])))

theorem handleConvQuit (header : RequestHeader) (rconv : RequestConv) :
    Fitting (handleConvQuit header rconv) :=
  bind fun _ => ite responseErr (ite responseErr (bind fun _ => ite responseErr (ite responseErr
    (ite responseErr (bind fun _ => report (by simp [ResponseCall.written]))))))

theorem handleChatCreate (header : RequestHeader) (rchat : RequestChat) :
    Fitting (handleChatCreate header rchat) :=
  ite responseErr (bind fun _ => reportInsert (by simp [ResponseCall.written]))

theorem handleChatDrop (header : RequestHeader) (rchat : RequestChat) :
    Fitting (handleChatDrop header rchat) :=
  bind fun _ => ite responseErr (ite responseErr (bind fun _ =>
    report (by simp [ResponseCall.written])))

theorem handleChatGetInfo (header : RequestHeader) (rchat : RequestChat) :
    Fitting (handleChatGetInfo header rchat) :=
  bind fun _ => ite responseErr (deref fun chat => ite responseErr
    (respond (by simp [ResponseCall.written])))

theorem handleMsgDelete (header : RequestHeader) (rm : RequestMsgBody) :
    Fitting (handleMsgDelete header rm) :=
  ifReadable fun msg => bind fun _ => report (by simp [ResponseCall.written])

theorem sendMsg (env : Env) (msg : MsgSchema) : Fitting (sendMsg env msg) :=
  bind fun _ => reportInsert (by simp [ResponseCall.written])

theorem handleMsgSend (env : Env) (header : RequestHeader) (rm : RequestMsgBody) :
    Fitting (handleMsgSend env header rm) := by
  refine deref fun content => ifRoomMember (ite (sendMsg env _) (ite ?_ responseErr))
  refine deref fun path => ?_
  split
  · exact responseErr
  · exact responseErr
  · exact responseErr
  · exact handled_fits_empty
  · exact sendMsg env _

end Fitting

/-- The requests whose responses carry no texts and no list. -/
def Route.fixedSize : Route → Bool
  | userGetInfo _ | userSearch _ | convGetInfo _ | convGetMembers _ | convGetList => false
  | chatGetList | msgGetAll _ | msgGetDetail _ | notifyNewMsg | notifyDelMsg _ => false
  | msgDownloadFile _ => false
  | _ => true

theorem Fitting.handle {route : Route} (h : route.fixedSize = true) (env : Env)
    (header : RequestHeader) : Fitting (route.handle env header) := by
  cases route with
  | authRegister ra => exact handleAuthRegister env ra
  | authLogin ra => exact handleAuthLogin env ra
  | userLogout => exact respond (Nat.zero_le _)
  | convCreate rconv => exact handleConvCreate header rconv
  | convDrop rconv => exact handleConvDrop header rconv
  | convJoin rconv => exact handleConvJoin header rconv
  | convQuit rconv => exact handleConvQuit header rconv
  | chatCreate rchat => exact handleChatCreate header rchat
  | chatDrop rchat => exact handleChatDrop header rchat
  | chatGetInfo rchat => exact handleChatGetInfo header rchat
  | msgSend rm => exact handleMsgSend env header rm
  | msgDelete rm => exact handleMsgDelete header rm
  | _ => cases h

/-! ## Lists -/

/-- `RESPONSE_BODY_LEN / 4`. -/
def maxIds : Nat := responseBodyLen / 4

/-- The query whose rows are listed, if the request passes its guard. -/
def Route.listing (header : RequestHeader) (db : Db) : Route → Option Query
  | userSearch ru =>
    ru.uname.map (searchQuery · (clampPage header.limit) (clampPage header.offset))
  | convGetMembers rconv =>
    if db.ConvMember rconv.convId.toNat header.userId.toNat then
      some (.membersOf rconv.convId.toNat)
    else none
  | convGetList =>
    some (.convsOfUser header.userId.toNat (clampPage header.limit).toInt
      (clampPage header.offset).toInt)
  | chatGetList =>
    some (.chatsOfUser header.userId.toNat (clampPage header.limit).toInt
      (clampPage header.offset).toInt)
  | msgGetAll rm =>
    if db.ConvMember rm.convId.toNat header.userId.toNat ∨
        db.ChatMember rm.chatId.toNat header.userId.toNat then
      some (msgGetAllQuery header rm)
    else none
  | notifyNewMsg => some (.sentTo header.userId.toNat)
  | notifyDelMsg rm => some (msgGetMsgDelQuery header.userId rm.convId rm.chatId)
  | _ => none

/-- The request, if its token is valid, is not one for more ids than a body holds. -/
def ListsFit (env : Env) (req : Option Request) (db : Db) : Prop :=
  env.verified = true → ∀ r ∈ req, ∀ route ∈ r.route, ∀ q ∈ route.listing r.header db,
    (q.rows db).length ≤ maxIds

section Suffices

variable {c c' : Conn} {out : Handled}

theorem Refused.fits (h : Refused c c' out) : out.Fits := by
  obtain ⟨-, status, group, action, rfl⟩ := h
  exact handled_fits_single.mpr (Nat.zero_le _)

/-- Fewer ids than rows, if a call fails. -/
theorem listed_le {rows : List (List Val)} {n : Nat} (h : rows.length ≤ maxIds) :
    4 * ((rows.take n).map columnZero).reverse.length ≤ responseBodyLen := by
  have hmax : maxIds = 2040 := rfl
  rw [List.length_reverse, List.length_map, List.length_take]
  simp only [responseBodyLen, bufsiz, responseHeaderLen]
  omega

theorem respondList_fits {q : Query} {group action : UInt8} {response : List UInt32 → ResponseCall}
    (hresponse : ∀ ls, (response ls).written = 4 * ls.length) (hq : q ≠ .raw)
    (hrows : (q.rows c.db).length ≤ maxIds)
    (h : Runs Answers c (respondList (sqlGetList q) group action response) c' out) :
    out.Fits := by
  rcases runs_respondList hq h with hrefused | ⟨-, n, rfl⟩
  · exact hrefused.fits
  · rw [handled_fits_single, hresponse]
    exact listed_le hrows

theorem handleUserGetInfo_fits (htexts : TextsFit c.db) {ru : RequestUser}
    (h : Runs Answers c (handleUserGetInfo ru) c' out) : out.Fits := by
  unfold handleUserGetInfo userGetById at h
  rcases runs_lookup le_rfl (by simp) h with hrefused | ⟨cols, hcols, hrun⟩
  · exact hrefused.fits
  -- the strings in the response are those of a row
  obtain ⟨u, hu, rfl⟩ : ∃ u, (c.db.users.filter (·.id = ru.userId.toNat))[0]? = some u ∧
      [.int u.id, .text u.uname, .text u.password, .text u.phone, .text u.email] = cols := by
    simpa [Query.rows] using hcols
  obtain ⟨-, rfl⟩ := runs_respond.mp hrun
  have hshort := htexts.users u (List.mem_filter.mp (List.mem_of_getElem? hu)).1
  rw [handled_fits_single]
  simp only [ResponseCall.written, List.getD_cons_succ, List.getD_cons_zero, Val.columnText,
    querySmall, responseBodyLen, bufsiz, responseHeaderLen] at hshort ⊢
  omega

theorem handleConvGetInfo_fits (htexts : TextsFit c.db) {rconv : RequestConv}
    (h : Runs Answers c (handleConvGetInfo rconv) c' out) : out.Fits := by
  unfold handleConvGetInfo convGetInfo at h
  rcases runs_lookup le_rfl (by simp) h with hrefused | ⟨cols, hcols, hrun⟩
  · exact hrefused.fits
  obtain ⟨r, hr, rfl⟩ : ∃ r, (c.db.conversations.filter (·.id = rconv.convId.toNat))[0]? = some r ∧
      [.int r.id, .int r.adminId, .text r.name] = cols := by
    simpa [Query.rows] using hcols
  obtain ⟨-, rfl⟩ := runs_respond.mp hrun
  have hshort := htexts.convs r (List.mem_filter.mp (List.mem_of_getElem? hr)).1
  rw [handled_fits_single]
  simp only [ResponseCall.written, List.getD_cons_succ, List.getD_cons_zero, Val.columnText,
    querySmall, responseBodyLen, bufsiz, responseHeaderLen] at hshort ⊢
  omega

theorem handleMsgGetDetail_fits (htexts : TextsFit c.db) {header : RequestHeader}
    {rm : RequestMsgBody} (h : Runs Answers c (handleMsgGetDetail header rm) c' out) : out.Fits := by
  rcases runs_ifReadable le_rfl h with hrefused | ⟨m, hm, -, hrun⟩
  · exact hrefused.fits
  simp only [runs_bind] at hrun
  obtain ⟨c₁, rc, -, hrespond⟩ := hrun
  obtain ⟨-, rfl⟩ := runs_respond.mp hrespond
  have hshort := htexts.messages m (List.mem_filter.mp (List.mem_of_getElem? hm)).1
  rw [handled_fits_single]
  simp only [ResponseCall.written, MsgSchema.detail, MsgRow.schema, queryLarge, responseBodyLen,
    bufsiz, responseHeaderLen] at hshort ⊢
  omega

theorem handleMsgDownloadFile_fits (htexts : TextsFit c.db) {header : RequestHeader}
    {rm : RequestMsgBody} (h : Runs Answers c (handleMsgDownloadFile header rm) c' out) :
    out.Fits := by
  rcases runs_ifReadable le_rfl h with hrefused | ⟨m, hm, -, hrun⟩
  · exact hrefused.fits
  split at hrun
  · exact (refused_responseErr hrun).fits
  split at hrun
  · obtain ⟨-, rfl⟩ := runs_ret.mp hrun
    exact handled_fits_empty
  obtain ⟨-, rfl⟩ := runs_respond.mp hrun
  have hshort := htexts.messages m (List.mem_filter.mp (List.mem_of_getElem? hm)).1
  have hname : (CStr.ofBytes (m.content.bytes.drop storage.length)).strlen ≤ m.content.strlen := by
    refine ((List.takeWhile_prefix _).length_le).trans ?_
    rw [List.length_drop]
    exact Nat.sub_le ..
  -- `content_len` is cut to 32 bits, which can only make it smaller
  have hcast : (UInt32.ofNat (CStr.ofBytes (m.content.bytes.drop storage.length)).strlen).toNat ≤
      (CStr.ofBytes (m.content.bytes.drop storage.length)).strlen :=
    Nat.mod_le ..
  rw [handled_fits_single]
  simp only [ResponseCall.written, MsgRow.schema, queryLarge, responseBodyLen, bufsiz,
    responseHeaderLen] at hshort ⊢
  omega

theorem handleMsgGetAll_fits {header : RequestHeader} {rm : RequestMsgBody}
    (hlist : ∀ q ∈ (Route.msgGetAll rm).listing header c.db, (q.rows c.db).length ≤ maxIds)
    (h : Runs Answers c (handleMsgGetAll header rm) c' out) : out.Fits := by
  rcases runs_handleMsgGetAll h with hrefused | ⟨hroom, -, n, rfl⟩
  · exact hrefused.fits
  · rw [Route.listing, if_pos hroom] at hlist
    exact handled_fits_single.mpr (listed_le (hlist _ rfl))

theorem handleConvGetMembers_fits {header : RequestHeader} {rconv : RequestConv}
    (hlist : ∀ q ∈ (Route.convGetMembers rconv).listing header c.db,
      (q.rows c.db).length ≤ maxIds)
    (h : Runs Answers c (handleConvGetMembers header rconv) c' out) : out.Fits := by
  rcases runs_ifConvMember h with hrefused | ⟨hmember, hrun⟩
  · exact hrefused.fits
  · rw [Route.listing, if_pos hmember] at hlist
    exact respondList_fits (fun _ => rfl) (by simp) (hlist _ rfl) hrun

theorem handleUserSearch_fits {header : RequestHeader} {ru : RequestUser}
    (hquote : ∀ s ∈ (Route.userSearch ru).strings, quote ∉ s.bytes)
    (hlist : ∀ q ∈ (Route.userSearch ru).listing header c.db, (q.rows c.db).length ≤ maxIds)
    (h : Runs Answers c (handleUserSearch header ru) c' out) : out.Fits := by
  rcases runs_deref.mp h with ⟨uname, huname, hrun⟩ | ⟨-, -, rfl⟩
  · have hfree : quote ∉ uname.bytes := hquote uname (by simp [Route.strings, RequestBody.strings, huname])
    exact respondList_fits (fun _ => rfl) (searchQuery_ne_raw hfree)
      (hlist _ (by rw [Route.listing, huname]; rfl)) hrun
  · exact handled_fits_empty

/-- With few enough rows, the handlers never write outside the frame. -/
theorem Route.fits {env : Env} {header : RequestHeader} {route : Route}
    (hquote : ∀ s ∈ route.strings, quote ∉ s.bytes) (htexts : TextsFit c.db)
    (hlist : ∀ q ∈ route.listing header c.db, (q.rows c.db).length ≤ maxIds)
    (h : Runs Answers c (route.handle env header) c' out) : out.Fits := by
  by_cases hfixed : route.fixedSize = true
  · exact (Fitting.handle hfixed env header).runs h
  -- texts come from the tables, and lists from a query
  cases route with
  | userGetInfo ru => exact handleUserGetInfo_fits htexts h
  | userSearch ru => exact handleUserSearch_fits hquote hlist h
  | convGetInfo rconv => exact handleConvGetInfo_fits htexts h
  | convGetMembers rconv => exact handleConvGetMembers_fits hlist h
  | convGetList => exact respondList_fits (fun _ => rfl) (by simp) (hlist _ rfl) h
  | chatGetList => exact respondList_fits (fun _ => rfl) (by simp) (hlist _ rfl) h
  | msgGetAll rm => exact handleMsgGetAll_fits hlist h
  | msgGetDetail rm => exact handleMsgGetDetail_fits htexts h
  | notifyNewMsg => exact respondList_fits (fun _ => rfl) (by simp) (hlist _ rfl) h
  | notifyDelMsg rm =>
    exact respondList_fits (fun _ => rfl) msgGetMsgDelQuery_ne_raw (hlist _ rfl) h
  | msgDownloadFile rm => exact handleMsgDownloadFile_fits htexts h
  | _ => exact absurd rfl hfixed

end Suffices

/-! ## Too many rows -/

section Necessary

variable {c c' : Conn} {out : Handled}

/-- Membership of either room passes the guard of the message handlers. -/
theorem served_ifRoomMember {convId chatId userId : UInt32} {action : UInt8} {k : SqlProg Handled}
    (hroom : c.db.ConvMember convId.toNat userId.toNat ∨
      c.db.ChatMember chatId.toNat userId.toNat)
    (hk : Runs Serves c k c' out) :
    Runs Serves c (ifRoomMember convId chatId userId action k) c' out :=
  Delivers.ifRoomMember (Query.Sound.delivers ⟨by simp, rfl, rfl⟩)
    (Query.Sound.delivers ⟨by simp, rfl, rfl⟩) hroom hk

/-- If no call fails, the program answers outside the frame. -/
def Overflows (c : Conn) (p : SqlProg Handled) : Prop := ∃ out, Runs Serves c p c out ∧ ¬ out.Fits

theorem sound_of_many {q : Query} {db : Db} (h : maxIds < (q.rows db).length) : q.Sound := by
  have hrows : q.rows db ≠ [] := by
    intro hnil
    rw [hnil] at h
    exact absurd h (Nat.not_lt_zero _)
  exact Query.sound_of_rows hrows

theorem not_fits_of_many {rows : List (List Val)} {r : ResponseCall} (h : maxIds < rows.length)
    (hr : r.written = 4 * (rows.map columnZero).reverse.length) :
    ¬ Handled.Fits { sent := [r] } := by
  have hmax : maxIds = 2040 := rfl
  rw [handled_fits_single, hr, List.length_reverse, List.length_map]
  simp only [responseBodyLen, bufsiz, responseHeaderLen]
  omega

theorem respondList_overflows {q : Query} {group action : UInt8}
    {response : List UInt32 → ResponseCall}
    (hresponse : ∀ ls, (response ls).written = 4 * ls.length)
    (hrows : maxIds < (q.rows c.db).length) :
    Overflows c (respondList (sqlGetList q) group action response) :=
  ⟨_, (replies_respondList (sound_of_many hrows) _ _).mpr ⟨rfl, rfl⟩,
    not_fits_of_many hrows (hresponse _)⟩

theorem handleMsgGetAll_overflows {header : RequestHeader} {rm : RequestMsgBody}
    (hroom : c.db.ConvMember rm.convId.toNat header.userId.toNat ∨
      c.db.ChatMember rm.chatId.toNat header.userId.toNat)
    (hrows : maxIds < ((msgGetAllQuery header rm).rows c.db).length) :
    Overflows c (handleMsgGetAll header rm) := by
  rw [handleMsgGetAll_eq]
  refine ⟨{ sent := [.msgGetAll 200 _] }, served_ifRoomMember hroom (runs_bind.mpr ?_),
    not_fits_of_many hrows rfl⟩
  exact ⟨c, _, served_sqlGetList (sound_of_many hrows), .ret _ _⟩

theorem handleConvGetMembers_overflows {header : RequestHeader} {rconv : RequestConv}
    (hmember : c.db.ConvMember rconv.convId.toNat header.userId.toNat)
    (hrows : maxIds < ((Query.membersOf rconv.convId.toNat).rows c.db).length) :
    Overflows c (handleConvGetMembers header rconv) := by
  obtain ⟨out, hrun, hout⟩ : Overflows c
      (respondList (convGetMembers rconv.convId) 2 5 (.convGetMembers 200)) :=
    respondList_overflows (fun _ => rfl) hrows
  refine ⟨out, ?_, hout⟩
  rw [handleConvGetMembers, runs_bind]
  exact ⟨c, _, served_sqlExists (convMember_rows.mpr hmember), hrun⟩

/-- With too many rows, a handler writes outside the frame. -/
theorem Route.overflows {env : Env} {header : RequestHeader} {route : Route} {q : Query}
    (hq : q ∈ route.listing header c.db) (hrows : maxIds < (q.rows c.db).length) :
    Overflows c (route.handle env header) := by
  cases route with
  | userSearch ru =>
    obtain ⟨uname, huname, rfl⟩ := Option.map_eq_some_iff.mp hq
    rw [Route.handle, handleUserSearch, huname]
    exact respondList_overflows (fun _ => rfl) hrows
  | convGetMembers rconv =>
    obtain ⟨hmember, ⟨⟩⟩ := Option.ite_none_right_eq_some.mp hq
    exact handleConvGetMembers_overflows hmember hrows
  | msgGetAll rm =>
    obtain ⟨hroom, ⟨⟩⟩ := Option.ite_none_right_eq_some.mp hq
    exact handleMsgGetAll_overflows hroom hrows
  | convGetList | chatGetList | notifyNewMsg | notifyDelMsg _ =>
    obtain rfl := Option.some.inj hq
    exact respondList_overflows (fun _ => rfl) hrows
  -- the other requests list nothing
  | _ => cases hq

end Necessary

/-- The requests that need no token list nothing. -/
theorem Request.listing_of_group {r : Request} {route : Route} (hroute : r.route = some route)
    (hgroup : r.header.group = 0) (header : RequestHeader) (db : Db) :
    route.listing header db = none := by
  unfold Request.route at hroute
  have hzero : r.header.group.toInt = 0 := by
    rw [hgroup]
    rfl
  split at hroute
  case h_24 => cases hroute
  all_goals
    rename_i hcase _ _
    cases hroute
    -- the auth requests, or a group that is not 0
    first | rfl | cases hzero.symm.trans hcase

/-- One of 64 characters from `@` on. -/
def crowdChar (n : Nat) : UInt8 := UInt8.ofNat (64 + n % 64)

theorem crowdChar_toNat (n : Nat) : (crowdChar n).toNat = 64 + n % 64 := by
  rw [crowdChar, UInt8.toNat_ofNat']
  omega

theorem crowdChar_le {i j : Nat} {b : UInt8} (h : b ∈ [117, crowdChar i, crowdChar j]) :
    64 ≤ b.toNat := by
  simp only [List.mem_cons, List.not_mem_nil, or_false] at h
  rcases h with rfl | rfl | rfl
  · decide
  · rw [crowdChar_toNat]
    exact Nat.le_add_right ..
  · rw [crowdChar_toNat]
    exact Nat.le_add_right ..

def crowdName (k : Nat) : CStr where
  bytes := [117, crowdChar (k / 64), crowdChar k]
  nulFree h := absurd (crowdChar_le h) (by decide)

theorem quote_not_mem_crowdName (k : Nat) : quote ∉ (crowdName k).bytes :=
  fun h => absurd (crowdChar_le h) (by decide)

theorem crowdName_inj {j k : Nat} (hj : j < 4096) (hk : k < 4096)
    (h : crowdName j = crowdName k) : j = k := by
  have hnat := congrArg (fun s : CStr => s.bytes.map UInt8.toNat) h
  simp only [crowdName, List.map_cons, List.map_nil, crowdChar_toNat, List.cons.injEq] at hnat
  omega

def crowdRegister (k : Nat) : Request :=
  requestBy 0 0 0 (.auth
    { uname := some (crowdName k), password := some (.ofBytes (ascii "secret")),
      phone := some (.ofBytes (ascii "123")), email := some (.ofBytes (ascii "a@b")) })

theorem crowdRegister_quoteFree (k : Nat) : (crowdRegister k).QuoteFree := by
  have hrest : ∀ s ∈ [CStr.ofBytes (ascii "secret"), .ofBytes (ascii "123"),
      .ofBytes (ascii "a@b")], quote ∉ s.bytes := by
    decide
  intro s hs
  rcases List.mem_cons.mp hs with rfl | hs
  · exact quote_not_mem_crowdName k
  · exact hrest s hs

theorem crowd_hashed : hashStr lobbyEnv (.ofBytes (ascii "secret")) =
    some (.ofBytes (ascii "5ebe2294ecd0e0f08eab7690d2a6ee69")) := by
  decide

/-- The insert of a member of the crowd. -/
def crowdStored (k : Nat) : TextQuery :=
  .userCreate (crowdName k) (.ofBytes (ascii "5ebe2294ecd0e0f08eab7690d2a6ee69"))
    (.ofBytes (ascii "123")) (.ofBytes (ascii "a@b"))

theorem crowdStored_quoteFree (k : Nat) : (crowdStored k).QuoteFree := by
  have hrest : ∀ s ∈ [CStr.ofBytes (ascii "5ebe2294ecd0e0f08eab7690d2a6ee69"),
      .ofBytes (ascii "123"), .ofBytes (ascii "a@b")], quote ∉ s.bytes := by
    decide
  intro s hs
  rcases List.mem_cons.mp hs with rfl | hs
  · exact quote_not_mem_crowdName k
  · exact hrest s hs

theorem crowdStored_fits (k : Nat) : (crowdStored k).Fits := by
  have hlength : (crowdStored k).template.text.length = (crowdStored 0).template.text.length := rfl
  have hzero : (crowdStored 0).Fits := by decide +kernel
  rw [TextQuery.Fits, hlength]
  exact hzero

/-- Sessions in which `k` users have registered. -/
theorem crowd_session {k : Nat} (hk : k ≤ 4096) :
    ∃ log c, Session False log c ∧ c.held = false ∧
      c.db.users.map (·.uname) = (List.range k).map crowdName := by
  induction k with
  | zero => exact ⟨[], _, .start, rfl, rfl⟩
  | succ k ih =>
    obtain ⟨log, c, hsession, hheld, hnames⟩ := ih (by omega)
    -- induction on the number of users; the next name is not taken yet
    have hnew : ∀ r ∈ c.db.users, r.uname ≠ crowdName k := by
      intro r hr heq
      have hmem : crowdName k ∈ (List.range k).map crowdName := by
        rw [← hnames, ← heq]
        exact List.mem_map_of_mem hr
      obtain ⟨j, hj, hjk⟩ := List.mem_map.mp hmem
      have hlt := List.mem_range.mp hj
      have := crowdName_inj (by omega) (by omega) hjk
      omega
    obtain ⟨n, hrun⟩ := served_register hheld (crowdStored_quoteFree k) (crowdStored_fits k)
      crowd_hashed hnew
    have hserved : Runs Serves c (handleReq lobbyEnv (some (crowdRegister k))) _ _ := hrun
    refine ⟨log ++ [⟨_, c, _, _, true⟩], _,
      hsession.request ?_ (hserved.mono Serves.le) fun _ => hserved, rfl, ?_⟩
    · rintro _ ⟨⟩
      exact crowdRegister_quoteFree k
    · rw [List.map_append, hnames, List.range_succ, List.map_append]
      rfl

theorem dropChar_length (b : UInt8) (t : List UInt8) : (dropChar (b :: t)).length ≤ t.length := by
  rw [dropChar]
  split
  · exact (List.dropWhile_suffix _).length_le
  · exact le_rfl

theorem nil_mem_charSuffixes {n : Nat} {t : List UInt8} (h : t.length ≤ n) :
    [] ∈ charSuffixes n t := by
  induction n generalizing t with
  | zero =>
    rw [charSuffixes, List.length_eq_zero_iff.mp (Nat.le_zero.mp h)]
    exact List.mem_singleton_self _
  | succ n ih =>
    cases t with
    | nil => exact List.mem_singleton_self _
    | cons b t =>
      rw [charSuffixes, if_neg (by simp)]
      exact List.mem_cons_of_mem _ (ih ((dropChar_length b t).trans (Nat.le_of_succ_le_succ h)))

theorem like_crowdName (k : Nat) : like (ascii "%u%") (crowdName k).bytes = true := by
  have hrest : like [117, 37] (crowdName k).bytes = true := by
    have hnil : [] ∈ charSuffixes 2 [crowdChar (k / 64), crowdChar k] := nil_mem_charSuffixes le_rfl
    simpa [like, crowdName] using hnil
  have hpattern : ascii "%u%" = [37, 117, 37] := by decide
  rw [hpattern]
  unfold like
  rw [if_pos rfl, List.any_eq_true]
  exact ⟨(crowdName k).bytes, List.mem_cons_self .., hrest⟩

/-- A search for all of them. -/
def crowdSearch : Request :=
  { header := { (requestBy 1 1 2 (.chat {})).header with limit := 3000 }
    body := .user { uname := some (.ofBytes (ascii "u")) } }

end MeshChat
