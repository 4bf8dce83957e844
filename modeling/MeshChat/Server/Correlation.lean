import MeshChat.Server.Dispatch
import MeshChat.Server.Frames

/-! # Which response answers which request

    The client chooses the decoder of a response by its group and action bytes, and
    the handlers repeat these pairs by hand at every exit.

    * `Sends`: whatever documented codes come, a handler sends one response, of the
      given group and action.
    * `Correlated`: one frame is sent, with the group and action of the request.
    * `Request.inKind`: the sequences of result codes for which that is so. Some
      errors of four handlers carry the pair of another request, and
      `handle_chat_get_info` uses the row of an absent chat.
-/

namespace MeshChat

open CMemory Prog

/-! ## Result codes -/

/-- A reply that is not a further row. -/
def Reply.Ends (r : Reply) : Prop := r.rc ≠ .row

/-- What a program returns, whatever documented codes it gets. -/
abbrev Answering {α : Type} (Q : α → Prop) (p : SqlProg α) : Prop :=
  Returns SqlCall.Documented Reply.Ends Q p

/-- What the codes of a query with one row say. -/
inductive Look where
  | row
  | none
  | failed
  deriving DecidableEq

def look : List Rc → Look
  | .ok :: .row :: _ => .row
  | .ok :: .done :: _ => .none
  | _ => .failed

/-- The codes of a sequence of replies. -/
def codes (rs : List Reply) : List Rc := rs.map (·.rc)

theorem look_failed_of_prepare {rc : Rc} (h : rc ≠ .ok) (l : List Rc) : look (rc :: l) = .failed := by
  cases rc <;> simp_all [look]

theorem look_failed_of_fetch {rc : Rc} (h : rc.IsFailure) (l : List Rc) :
    look (.ok :: rc :: l) = .failed := by
  obtain ⟨_, hrow, hdone, _⟩ := h
  cases rc <;> simp_all [look]

/-! ## The operations of `sql.c` -/

section Operations

variable {α : Type}

theorem answering_sqlGetList (q : Query) : Answering (fun _ => True) (sqlGetList q) := by
  simp [sqlGetList, Reply.Ends]

theorem answering_sqlInsert (s : Stmt) : Answering (fun _ => True) (sqlInsert s) := by
  simp [sqlInsert]

theorem answering_sqlExec (s : Stmt) : Answering (fun _ => True) (sqlExec s) := by
  simp [sqlExec]

theorem answering_sqlExecIgnored (s : Stmt) : Answering (fun _ => True) (sqlExecIgnored s) := by
  simp [sqlExecIgnored]

theorem answering_commitAfter (ss : List Stmt) : Answering (fun _ => True) (commitAfter ss) := by
  induction ss with
  | nil => simp [commitAfter, rollback]
  | cons s ss ih => simp [commitAfter, rollback, ih]

theorem answering_convCreate (adminId : UInt32) (name : CStr) :
    Answering (fun _ => True) (convCreate adminId name) := by
  simp [convCreate, rollback]

theorem answering_convDrop (convId : UInt32) : Answering (fun _ => True) (convDrop convId) := by
  simp [convDrop, rollback, answering_commitAfter]

theorem answering_chatCreate (member1 member2 : UInt32) :
    Answering (fun _ => True) (chatCreate member1 member2) := by
  simp [chatCreate, answering_sqlInsert]

theorem answering_chatDrop (chatId : UInt32) : Answering (fun _ => True) (chatDrop chatId) := by
  simp [chatDrop, rollback, answering_commitAfter]

theorem answering_msgSend (msg : MsgSchema) (now : UInt32) :
    Answering (fun _ => True) (msgSend msg now) := by
  simp [msgSend]

/-- The row, none, or a failure: `SQLITE_EMPTY` and a row come together only with
    the right pointer. -/
def LookedUp (x : Option α × Rc) : Prop :=
  (∃ a, x = (some a, .ok)) ∨ x = (none, .empty) ∨ ∃ rc, x = (none, rc) ∧ rc.IsFailure

theorem answering_sqlFirstRow (q : Query) (f : List Val → α) :
    Answering LookedUp (sqlFirstRow q f) := by
  simp only [sqlFirstRow, invoke_bind, pure_eq, returns_call, returns_ite, returns_ret]
  intro r hr
  refine ⟨fun hprep => Or.inr (Or.inr ⟨_, rfl, hr.resolve_left hprep⟩), fun _ r hr => ⟨?_, ?_⟩⟩
  · intro hrow
    rcases hr.resolve_left hrow with hdone | hfail
    · exact Or.inr (Or.inl (by simp [hdone]))
    · exact Or.inr (Or.inr ⟨r.rc, by simp [hfail.2.2.1], hfail⟩)
  · exact fun _ => Or.inl ⟨_, rfl⟩

theorem answering_sqlGetInfo (q : Query) (f : List Val → α) :
    Answering LookedUp (sqlGetInfo q f) := by
  simp only [sqlGetInfo, invoke_bind, pure_eq, returns_call, returns_ite, returns_ret]
  refine fun r _ => ⟨fun _ => Or.inr (Or.inr ⟨_, rfl, ?_⟩), fun _ => answering_sqlFirstRow q f⟩
  simp [Rc.IsFailure]

theorem answering_sqlExists (q : Query) : Answering (fun _ => True) (sqlExists q) :=
  (answering_sqlFirstRow q fun _ => ()).bind fun _ _ => trivial

/-- How many rows a list query finds: the rows behind the code of its query. -/
def rowCount (cs : List Rc) : Nat :=
  if cs.head? = some .ok then (cs.tail.takeWhile (· = .row)).length else 0

/-- A list is there unless its query could not be prepared. -/
theorem answered_sqlGetList {β : Type} {q : Query} {k : List UInt32 × Rc → SqlProg β}
    {rs : List Reply} {b : β} (h : Answered SqlCall.Documented (sqlGetList q >>= k) rs b) :
    ((codes rs).head? = some .ok ∧ ∃ ls rs', ls.length = rowCount (codes rs) ∧
      Answered SqlCall.Documented (k (ls, .ok)) rs' b) ∨
    ((codes rs).head? ≠ some .ok ∧
      ∃ rc rs', rc.IsFailure ∧ Answered SqlCall.Documented (k ([], rc)) rs' b) := by
  simp only [sqlGetList, invoke_bind, pure_eq, call_bind, ite_bind, ret_bind, collect_bind,
    drain_bind] at h
  obtain ⟨r, rs, rfl, hr, h⟩ := answered_call.mp h
  by_cases hprep : r.rc = .ok
  · rw [if_neg (not_not.mpr hprep)] at h
    obtain ⟨_, rs', h⟩ := h.of_drain
    refine Or.inl ⟨by simp [codes, hprep], _, rs', ?_, h⟩
    simp [codes, rowCount, hprep, List.takeWhile_map, Function.comp_def]
  · rw [if_pos hprep] at h
    exact Or.inr ⟨by simp [codes, hprep], _, _, hr.resolve_left hprep, h⟩

/-- The codes decide what a query with one row says. -/
theorem answered_sqlFirstRow {β : Type} {q : Query} {f : List Val → α}
    {k : Option α × Rc → SqlProg β} {rs : List Reply} {b : β}
    (h : Answered SqlCall.Documented (sqlFirstRow q f >>= k) rs b) :
    (look (codes rs) = .row ∧ ∃ r, rs[1]? = some r ∧
      Answered SqlCall.Documented (k (some (f r.cols), .ok)) (rs.drop 2) b) ∨
    (look (codes rs) = .none ∧
      Answered SqlCall.Documented (k (none, .empty)) (rs.drop 2) b) ∨
    (look (codes rs) = .failed ∧
      ∃ rc rs', rc.IsFailure ∧ Answered SqlCall.Documented (k (none, rc)) rs' b) := by
  simp only [sqlFirstRow, invoke_bind, pure_eq, call_bind, ite_bind, ret_bind] at h
  obtain ⟨r₁, rs, rfl, hr₁, h⟩ := answered_call.mp h
  by_cases hprep : r₁.rc = .ok
  · rw [if_neg (not_not.mpr hprep)] at h
    obtain ⟨r₂, rs, rfl, hr₂, h⟩ := answered_call.mp h
    rcases hr₂ with hrow | hdone | hfail
    · rw [if_neg (not_not.mpr hrow)] at h
      exact Or.inl ⟨by simp [codes, look, hprep, hrow], r₂, rfl, h⟩
    · rw [if_pos (by simp [hdone]), if_pos hdone] at h
      exact Or.inr (Or.inl ⟨by simp [codes, look, hprep, hdone], h⟩)
    · rw [if_pos hfail.2.1, if_neg hfail.2.2.1] at h
      refine Or.inr (Or.inr ⟨?_, _, _, hfail, h⟩)
      simp only [codes, List.map_cons, hprep]
      exact look_failed_of_fetch hfail _
  · rw [if_pos hprep] at h
    exact Or.inr (Or.inr ⟨look_failed_of_prepare hprep _, _, _, hr₁.resolve_left hprep, h⟩)

theorem answered_sqlExists {β : Type} {q : Query} {k : Bool × Rc → SqlProg β} {rs : List Reply}
    {b : β} (h : Answered SqlCall.Documented (sqlExists q >>= k) rs b) :
    (look (codes rs) = .row ∧ Answered SqlCall.Documented (k (true, .ok)) (rs.drop 2) b) ∨
    (look (codes rs) = .none ∧ Answered SqlCall.Documented (k (false, .empty)) (rs.drop 2) b) ∨
    (look (codes rs) = .failed ∧
      ∃ rc rs', rc.IsFailure ∧ Answered SqlCall.Documented (k (false, rc)) rs' b) := by
  have hassoc : (sqlExists q >>= k) =
      sqlFirstRow q (fun _ => ()) >>= fun x => k (x.1.isSome, x.2) := by
    simp [sqlExists, sqlFirstRow]
  rw [hassoc] at h
  rcases answered_sqlFirstRow h with ⟨hlook, _, _, h⟩ | h | h
  · exact Or.inl ⟨hlook, h⟩
  · exact Or.inr (Or.inl h)
  · exact Or.inr (Or.inr h)

/-- The same behind the `calloc` of the result. -/
theorem answered_sqlGetInfo {β : Type} {q : Query} {f : List Val → α}
    {k : Option α × Rc → SqlProg β} {rs : List Reply} {b : β}
    (h : Answered SqlCall.Documented (sqlGetInfo q f >>= k) rs b) :
    ((codes rs).head? = some .ok ∧ look (codes rs).tail = .row ∧ ∃ r, rs[2]? = some r ∧
      Answered SqlCall.Documented (k (some (f r.cols), .ok)) (rs.drop 3) b) ∨
    ((codes rs).head? = some .ok ∧ look (codes rs).tail = .none ∧
      Answered SqlCall.Documented (k (none, .empty)) (rs.drop 3) b) ∨
    (((codes rs).head? = some .ok → look (codes rs).tail = .failed) ∧
      ∃ rc rs', rc.IsFailure ∧ Answered SqlCall.Documented (k (none, rc)) rs' b) := by
  simp only [sqlGetInfo, invoke_bind, call_bind, ite_bind, pure_eq, ret_bind] at h
  obtain ⟨r, rs, rfl, hr, h⟩ := answered_call.mp h
  rcases hr with hok | hnomem
  · rw [if_neg (by simp [hok])] at h
    rcases answered_sqlFirstRow h with ⟨hlook, hk⟩ | ⟨hlook, hk⟩ | ⟨hlook, hk⟩
    · exact Or.inl ⟨by simp [codes, hok], hlook, hk⟩
    · exact Or.inr (Or.inl ⟨by simp [codes, hok], hlook, hk⟩)
    · exact Or.inr (Or.inr ⟨fun _ => hlook, hk⟩)
  · rw [if_pos hnomem] at h
    refine Or.inr (Or.inr ⟨?_, _, _, ?_, h⟩)
    · simp [codes, hnomem]
    · simp [Rc.IsFailure]

end Operations

/-! ## One response of one kind -/

/-- One response is sent, of the given group and action. -/
def Handled.IsOne (kind : Int8 × Int8) (out : Handled) : Prop :=
  ∃ resp : ResponseCall, out = { sent := [resp] } ∧ resp.kind = kind

/-- Whatever documented codes come, one response of the kind is sent. -/
abbrev Sends (kind : Int8 × Int8) (p : SqlProg Handled) : Prop := Answering (Handled.IsOne kind) p

namespace Sends

variable {α : Type} {kind : Int8 × Int8}

theorem respond {resp : ResponseCall} (h : resp.kind = kind) : Sends kind (respond resp) :=
  ⟨resp, rfl, h⟩

theorem responseErr {status : UInt32} {group action : UInt8}
    (h : (group.toInt8, action.toInt8) = kind) :
    Sends kind (MeshChat.responseErr status group action) :=
  Sends.respond h

theorem ite {P : Prop} [Decidable P] {p q : SqlProg Handled} (hp : Sends kind p)
    (hq : Sends kind q) : Sends kind (if P then p else q) := by
  split
  · exact hp
  · exact hq

/-- An error, or the response. -/
theorem report {rc : Rc} {status : UInt32} {group action : UInt8} {resp : ResponseCall}
    (herr : (group.toInt8, action.toInt8) = kind) (h : resp.kind = kind) :
    Sends kind (if sqlIsErr rc then MeshChat.responseErr status group action
      else MeshChat.respond resp) :=
  ite (responseErr herr) (respond h)

/-- The same with an error of its own for a violated constraint. -/
theorem reportInsert {rc : Rc} {status status' : UInt32} {group action : UInt8}
    {resp : ResponseCall} (herr : (group.toInt8, action.toInt8) = kind) (h : resp.kind = kind) :
    Sends kind (if sqlIsErr rc then
        if rc = .constraint then MeshChat.responseErr status group action
        else MeshChat.responseErr status' group action
      else MeshChat.respond resp) :=
  ite (ite (responseErr herr) (responseErr herr)) (respond h)

theorem respondList {list : SqlProg (List UInt32 × Rc)} {group action : UInt8}
    {response : List UInt32 → ResponseCall} (hlist : Answering (fun _ => True) list)
    (herr : (group.toInt8, action.toInt8) = kind) (h : ∀ ls, (response ls).kind = kind) :
    Sends kind (respondList list group action response) :=
  hlist.bind fun _ _ => report herr (h _)

/-- A member check in front of what is sent. -/
theorem guarded {q : Query} {group action : UInt8} {k : SqlProg Handled}
    (herr : (group.toInt8, action.toInt8) = kind) (hk : Sends kind k) :
    Sends kind (do
      let x ← sqlExists q
      if sqlIsErr x.2 then MeshChat.responseErr 500 group action
      else if !x.1 then MeshChat.responseErr 403 group action
      else k) :=
  (answering_sqlExists q).bind fun _ _ => ite (responseErr herr) (ite (responseErr herr) hk)

/-- A row that is looked up and used only where it is there. -/
theorem lookup {q : Query} {f : List Val → α} {group action : UInt8} {k : α → SqlProg Handled}
    (herr : (group.toInt8, action.toInt8) = kind) (hk : ∀ a, Sends kind (k a)) :
    Sends kind (do
      let x ← sqlGetInfo q f
      if sqlIsErr x.2 then MeshChat.responseErr 500 group action
      else if x.2 = .empty then MeshChat.responseErr 404 group action
      else deref x.1 k) := by
  refine (answering_sqlGetInfo q f).bind fun x hx => ?_
  rcases hx with ⟨a, rfl⟩ | rfl | ⟨rc, rfl, hrc⟩
  · exact ite (responseErr herr) (ite (responseErr herr) (hk a))
  · exact responseErr herr
  · rw [if_pos (sqlIsErr_of_isFailure hrc)]
    exact responseErr herr

theorem ifRoomMember {convId chatId userId : UInt32} {action : UInt8} {k : SqlProg Handled}
    (herr : (4, action.toInt8) = kind) (hk : Sends kind k) :
    Sends kind (ifRoomMember convId chatId userId action k) := by
  have hchat : ∀ x : Bool × Rc, Sends kind (if sqlIsErr x.2 then MeshChat.responseErr 500 4 action
      else if x.1 then k else MeshChat.responseErr 403 4 action) :=
    fun _ => ite (responseErr herr) (ite hk (responseErr herr))
  refine (answering_sqlExists _).bind fun x _ => ite (responseErr herr) (ite hk ?_)
  exact (answering_sqlExists _).bind fun x _ => hchat x

theorem ifReadable {msgId userId : UInt32} {action : UInt8} {k : MsgSchema → SqlProg Handled}
    (herr : (4, action.toInt8) = kind) (hk : ∀ msg, Sends kind (k msg)) :
    Sends kind (ifReadable msgId userId action k) :=
  lookup herr fun msg => ifRoomMember herr (hk msg)

theorem sendMsg (env : Env) (msg : MsgSchema) : Sends (4, 2) (sendMsg env msg) :=
  (answering_msgSend msg env.now).bind fun _ _ => reportInsert rfl rfl

end Sends

/-! ## The handlers -/

/-- The group and action of a case of the switch. -/
def Route.kind : Route → Int8 × Int8
  | authRegister _ => (0, 0)
  | authLogin _ => (0, 1)
  | userLogout => (1, 0)
  | userGetInfo _ => (1, 1)
  | userSearch _ => (1, 2)
  | convCreate _ => (2, 0)
  | convDrop _ => (2, 1)
  | convJoin _ => (2, 2)
  | convQuit _ => (2, 3)
  | convGetInfo _ => (2, 4)
  | convGetMembers _ => (2, 5)
  | convGetList => (2, 6)
  | chatCreate _ => (3, 0)
  | chatDrop _ => (3, 1)
  | chatGetList => (3, 2)
  | chatGetInfo _ => (3, 3)
  | msgGetAll _ => (4, 0)
  | msgGetDetail _ => (4, 1)
  | msgSend _ => (4, 2)
  | msgDelete _ => (4, 3)
  | notifyNewMsg => (4, 4)
  | notifyDelMsg _ => (4, 5)
  | msgDownloadFile _ => (4, 6)

theorem Request.kind_of_route {r : Request} {route : Route} (h : r.route = some route) :
    (r.header.group, r.header.action) = route.kind := by
  unfold Request.route at h
  split at h
  all_goals cases h
  all_goals
    rename_i hgroup haction _
    exact Prod.ext (Int8.toInt_inj.mp hgroup) (Int8.toInt_inj.mp haction)

/-- A file is sent or fetched. -/
def Route.IsTransfer (header : RequestHeader) : Route → Prop
  | msgSend _ => header.contentType = msgFile
  | msgDownloadFile _ => True
  | _ => False

/-- For these codes a handler sends one response of its own kind.

    * `conv_drop`, `conv_join`: the membership check found its row, as its errors
      carry action 4;
    * `msg_send`: one of its two checks did, as their errors carry action 3;
    * `notify_del_msg`: the query could be prepared, as its error carries action 4;
    * `chat_get_info`: the chat was not reported as absent;
    * `auth_login`: the hash of the password, which is not checked, was made. -/
def Route.inKind (env : Env) (cs : List Rc) : Route → Prop
  | convDrop _ | convJoin _ => look cs = .row
  | msgSend _ => look cs = .row ∨ look cs = .none ∧ look (cs.drop 2) = .row
  | notifyDelMsg _ => cs.head? = some .ok
  | chatGetInfo _ => ¬ (cs.head? = some .ok ∧ look cs.tail = .none)
  | authLogin r =>
    (r.password.bind (hashStr env)).isSome ∨ ¬ (cs.head? = some .ok ∧ look cs.tail = .row)
  | _ => True

/-- An error of another kind is sent, or the behaviour is undefined. -/
def Handled.Astray (kind : Int8 × Int8) (out : Handled) : Prop :=
  out.undefined = true ∨ ∃ status group action, out = { sent := [.err status group action] } ∧
    (group.toInt8, action.toInt8) ≠ kind

/-- What a handler does with given replies. -/
structure Route.Spec (env : Env) (header : RequestHeader) (route : Route) : Prop where
  returns : Answering (fun _ => True) (route.handle env header)
  inKind : ∀ rs out, Answered SqlCall.Documented (route.handle env header) rs out →
    route.inKind env (codes rs) → out.IsOne route.kind
  astray : ∀ rs out, Answered SqlCall.Documented (route.handle env header) rs out →
    ¬ route.inKind env (codes rs) → out.Astray route.kind

section Handlers

variable {env : Env} {header : RequestHeader}

/-- Most handlers send their own kind always. -/
theorem Route.Spec.of_sends {route : Route} (h : Sends route.kind (route.handle env header))
    (hkind : ∀ cs, route.inKind env cs) : route.Spec env header where
  returns := h.mono fun _ _ => trivial
  inKind _ _ hout _ := h.answered hout
  astray _ _ _ hnot := absurd (hkind _) hnot

theorem spec_authRegister {ra : RequestAuth} (hc : (Route.authRegister ra).Complete) :
    (Route.authRegister ra).Spec env header := by
  obtain ⟨huname, hpassword, hphone, hemail⟩ := hc
  obtain ⟨uname, huname⟩ := Option.isSome_iff_exists.mp huname
  obtain ⟨password, hpassword⟩ := Option.isSome_iff_exists.mp hpassword
  obtain ⟨phone, hphone⟩ := Option.isSome_iff_exists.mp hphone
  obtain ⟨email, hemail⟩ := Option.isSome_iff_exists.mp hemail
  refine .of_sends ?_ fun _ => trivial
  simp only [Route.handle, handleAuthRegister, huname, hpassword, hphone, hemail, deref]
  split
  · exact Sends.responseErr rfl
  · exact (answering_sqlInsert _).bind fun _ _ => Sends.reportInsert rfl rfl

theorem spec_userSearch {ru : RequestUser} (hc : (Route.userSearch ru).Complete) :
    (Route.userSearch ru).Spec env header := by
  obtain ⟨uname, huname⟩ := Option.isSome_iff_exists.mp hc
  refine .of_sends ?_ fun _ => trivial
  simp only [Route.handle, handleUserSearch, huname, deref]
  exact Sends.respondList (answering_sqlGetList _) rfl fun _ => rfl

theorem spec_convCreate {rconv : RequestConv} (hc : (Route.convCreate rconv).Complete) :
    (Route.convCreate rconv).Spec env header := by
  obtain ⟨gname, hgname⟩ := Option.isSome_iff_exists.mp hc
  refine .of_sends ?_ fun _ => trivial
  simp only [Route.handle, handleConvCreate, hgname, deref]
  exact (answering_convCreate _ _).bind fun _ _ => Sends.report rfl rfl

theorem spec_convQuit (rconv : RequestConv) : (Route.convQuit rconv).Spec env header := by
  refine .of_sends (Sends.guarded rfl ?_) fun _ => trivial
  refine (answering_sqlExists _).bind fun _ _ => ?_
  refine Sends.ite (Sends.responseErr rfl) (Sends.ite (Sends.responseErr rfl)
    (Sends.ite (Sends.responseErr rfl) ?_))
  exact (answering_sqlExec _).bind fun _ _ => Sends.report rfl rfl

theorem spec_chatCreate (rchat : RequestChat) : (Route.chatCreate rchat).Spec env header := by
  refine .of_sends (Sends.ite (Sends.responseErr rfl) ?_) fun _ => trivial
  exact (answering_chatCreate _ _).bind fun _ _ => Sends.reportInsert rfl rfl

theorem spec_msgGetAll (rm : RequestMsgBody) : (Route.msgGetAll rm).Spec env header := by
  refine .of_sends (Sends.ifRoomMember rfl ?_) fun _ => trivial
  have hlist : ∀ x : List UInt32 × Rc, Sends (4, 0) (if sqlIsErr x.2 then responseErr 500 4 0
      else if x.2 = .empty then responseErr 404 4 0 else respond (.msgGetAll 200 x.1)) :=
    fun _ => Sends.ite (Sends.responseErr rfl)
      (Sends.ite (Sends.responseErr rfl) (Sends.respond rfl))
  split
  · exact (answering_sqlGetList _).bind fun x _ => hlist x
  · exact (answering_sqlGetList _).bind fun x _ => hlist x

/-- A check whose errors are of another kind, in front of what is sent. -/
theorem spec_of_guarded {route : Route} {q : Query} {group action : UInt8} {k : SqlProg Handled}
    (hhandle : route.handle env header = (do
      let x ← sqlExists q
      if sqlIsErr x.2 then responseErr 500 group action
      else if !x.1 then responseErr 403 group action
      else k))
    (hk : Sends route.kind k) (hkind : ∀ cs, route.inKind env cs ↔ look cs = .row)
    (hother : (group.toInt8, action.toInt8) ≠ route.kind) : route.Spec env header where
  -- whatever the check finds, one frame is sent
  returns := by
    rw [hhandle]
    refine (answering_sqlExists q).bind fun x _ => ?_
    simp only [returns_ite]
    exact ⟨fun _ => trivial, fun _ => ⟨fun _ => trivial, fun _ => hk.mono fun _ _ => trivial⟩⟩
  inKind rs out h hin := by
    rw [hhandle] at h
    rw [hkind] at hin
    rcases answered_sqlExists h with ⟨_, h⟩ | ⟨hlook, _⟩ | ⟨hlook, _⟩
    · exact hk.answered h
    · rw [hin] at hlook
      cases hlook
    · rw [hin] at hlook
      cases hlook
  -- the two errors of the check carry an action that is not its own
  astray rs out h hnot := by
    rw [hhandle] at h
    rw [hkind] at hnot
    rcases answered_sqlExists h with ⟨hlook, _⟩ | ⟨_, h⟩ | ⟨_, rc, rs', hrc, h⟩
    · exact absurd hlook hnot
    · exact Or.inr ⟨403, group, action, answered_ret.mp h, hother⟩
    · dsimp only at h
      rw [if_pos (sqlIsErr_of_isFailure hrc)] at h
      exact Or.inr ⟨500, group, action, answered_ret.mp h, hother⟩

theorem spec_convDrop (rconv : RequestConv) : (Route.convDrop rconv).Spec env header :=
  spec_of_guarded rfl ((answering_convDrop _).bind fun _ _ => Sends.report rfl rfl)
    (fun _ => Iff.rfl) (by simp [Route.kind])

theorem spec_convJoin (rconv : RequestConv) : (Route.convJoin rconv).Spec env header := by
  refine spec_of_guarded rfl ?_ (fun _ => Iff.rfl) (by simp [Route.kind])
  have hjoin : Answering (fun _ => True) (convJoin rconv.userId rconv.convId) :=
    (answering_sqlInsert _).bind fun _ _ => trivial
  exact hjoin.bind fun _ _ => Sends.report rfl rfl

theorem spec_notifyDelMsg (rm : RequestMsgBody) : (Route.notifyDelMsg rm).Spec env header where
  returns := (answering_sqlGetList _).bind fun _ _ => by
    simp only [returns_ite]
    exact ⟨fun _ => trivial, fun _ => trivial⟩
  inKind rs out h hin := by
    rcases answered_sqlGetList h with ⟨_, ls, rs', _, h⟩ | ⟨hhead, _⟩
    · exact ⟨_, answered_ret.mp h, rfl⟩
    · exact absurd hin hhead
  astray rs out h hnot := by
    rcases answered_sqlGetList h with ⟨hhead, _⟩ | ⟨_, rc, rs', hrc, h⟩
    · exact absurd hhead hnot
    · dsimp only at h
      rw [if_pos (sqlIsErr_of_isFailure hrc)] at h
      exact Or.inr ⟨500, 4, 4, answered_ret.mp h, by simp [Route.kind]⟩

theorem spec_chatGetInfo (rchat : RequestChat) : (Route.chatGetInfo rchat).Spec env header where
  returns := (answering_sqlGetInfo _ _).bind fun x _ => by
    obtain ⟨chat, rc⟩ := x
    cases chat <;> simp [deref, respond, responseErr, undefinedBehaviour]
  inKind rs out h hin := by
    rcases answered_sqlGetInfo h with ⟨_, _, _, _, h⟩ | ⟨hhead, hlook, _⟩ | ⟨_, rc, rs', hrc, h⟩
    · have hsend : ∀ chat : ChatSchema, Sends (3, 3)
          (if chat.member1 ≠ header.userId ∧ chat.member2 ≠ header.userId then responseErr 403 3 3
           else respond (.chatGetInfo 200 chat.member1 chat.member2)) :=
        fun _ => Sends.ite (Sends.responseErr rfl) (Sends.respond rfl)
      exact (hsend _).answered h
    · exact absurd ⟨hhead, hlook⟩ hin
    · dsimp only at h
      rw [if_pos (sqlIsErr_of_isFailure hrc)] at h
      exact ⟨_, answered_ret.mp h, rfl⟩
  astray rs out h hnot := by
    rcases answered_sqlGetInfo h with ⟨_, hlook, _⟩ | ⟨_, _, h⟩ | ⟨hlook, _⟩
    · have habsent := (not_not.mp hnot).2
      rw [hlook] at habsent
      cases habsent
    · -- the absent chat is used
      exact Or.inl (by rw [answered_ret.mp h])
    · obtain ⟨hhead, habsent⟩ := not_not.mp hnot
      rw [hlook hhead] at habsent
      cases habsent

theorem spec_authLogin {ra : RequestAuth} (hc : (Route.authLogin ra).Complete) :
    (Route.authLogin ra).Spec env header := by
  obtain ⟨uname, huname⟩ := Option.isSome_iff_exists.mp hc.1
  obtain ⟨password, hpassword⟩ := Option.isSome_iff_exists.mp hc.2
  have hhandle : (Route.authLogin ra).handle env header = (do
      let x ← userGetByUname uname
      if sqlIsErr x.2 then responseErr 500 0 1
      else if x.2 = .empty then responseErr 404 0 1
      else
        deref (hashStr env password) fun hashed => deref x.1 fun user =>
        if hashed ≠ user.password then responseErr 403 0 1
        else respond (.authLogin 200 (env.makeToken user.id) user.id)) := by
    simp only [Route.handle, handleAuthLogin, huname, hpassword, deref]
  cases hhash : hashStr env password with
  | some hashed =>
    refine .of_sends ?_ fun _ => Or.inl (by simp [hpassword, hhash])
    rw [hhandle, hhash]
    exact Sends.lookup rfl fun _ => Sends.ite (Sends.responseErr rfl) (Sends.respond rfl)
  | none =>
    -- without a hash the password of the row is compared with an unset array
    rw [hhash] at hhandle
    refine ⟨?_, fun rs out h hin => ?_, fun rs out h hnot => ?_⟩
    · rw [hhandle]
      refine (answering_sqlGetInfo _ _).bind fun x _ => ?_
      simp only [returns_ite]
      exact ⟨fun _ => trivial, fun _ => ⟨fun _ => trivial, fun _ => trivial⟩⟩
    · rw [hhandle] at h
      rcases answered_sqlGetInfo h with ⟨hhead, hlook, _⟩ | ⟨_, _, h⟩ | ⟨_, rc, rs', hrc, h⟩
      · rcases hin with hin | hin
        · simp [hpassword, hhash] at hin
        · exact absurd ⟨hhead, hlook⟩ hin
      · exact ⟨_, answered_ret.mp h, rfl⟩
      · dsimp only at h
        rw [if_pos (sqlIsErr_of_isFailure hrc)] at h
        exact ⟨_, answered_ret.mp h, rfl⟩
    · rw [hhandle] at h
      obtain ⟨hhead, hfound⟩ := not_not.mp (not_or.mp hnot).2
      rcases answered_sqlGetInfo h with ⟨_, _, _, _, h⟩ | ⟨_, hlook, _⟩ | ⟨hlook, _⟩
      · exact Or.inl (by rw [answered_ret.mp h])
      · rw [hfound] at hlook
        cases hlook
      · rw [hlook hhead] at hfound
        cases hfound

/-- A check of the conversation and then of the chat. -/
theorem answered_ifRoomMember {convId chatId userId : UInt32} {action : UInt8}
    {k : SqlProg Handled} {rs : List Reply} {out : Handled}
    (h : Answered SqlCall.Documented (ifRoomMember convId chatId userId action k) rs out) :
    (look (codes rs) = .row ∧ Answered SqlCall.Documented k (rs.drop 2) out) ∨
    ((look (codes rs) = .none ∧ look ((codes rs).drop 2) = .row) ∧
      Answered SqlCall.Documented k (rs.drop 4) out) ∨
    (¬ (look (codes rs) = .row ∨ look (codes rs) = .none ∧ look ((codes rs).drop 2) = .row) ∧
      ∃ status, out = { sent := [.err status 4 action] }) := by
  rcases answered_sqlExists h with ⟨hconv, h⟩ | ⟨hconv, h⟩ | ⟨hconv, rc, rs', hrc, h⟩
  · exact Or.inl ⟨hconv, h⟩
  · have hdrop : (codes rs).drop 2 = codes (rs.drop 2) := by simp [codes]
    rw [hdrop]
    rcases answered_sqlExists h with ⟨hchat, h⟩ | ⟨hchat, h⟩ | ⟨hchat, rc, rs', hrc, h⟩
    · rw [List.drop_drop] at h
      exact Or.inr (Or.inl ⟨⟨hconv, hchat⟩, h⟩)
    · exact Or.inr (Or.inr ⟨by simp [hconv, hchat], 403, answered_ret.mp h⟩)
    · dsimp only at h
      rw [if_pos (sqlIsErr_of_isFailure hrc)] at h
      exact Or.inr (Or.inr ⟨by simp [hconv, hchat], 500, answered_ret.mp h⟩)
  · dsimp only at h
    rw [if_pos (sqlIsErr_of_isFailure hrc)] at h
    exact Or.inr (Or.inr ⟨by simp [hconv], 500, answered_ret.mp h⟩)

theorem spec_msgSend {rm : RequestMsgBody} (hc : (Route.msgSend rm).Complete)
    (hfile : ¬ (Route.msgSend rm).IsTransfer header) : (Route.msgSend rm).Spec env header := by
  obtain ⟨content, hcontent⟩ := Option.isSome_iff_exists.mp hc
  -- behind the check everything is answered under the own action
  have hk : ∃ k, (Route.msgSend rm).handle env header =
      ifRoomMember rm.convId rm.chatId header.userId 3 k ∧ Sends (4, 2) k := by
    simp only [Route.handle, handleMsgSend, hcontent, deref]
    refine ⟨_, rfl, ?_⟩
    rw [if_neg (show ¬ header.contentType = msgFile from hfile)]
    exact Sends.ite (Sends.sendMsg env _) (Sends.responseErr rfl)
  obtain ⟨k, hhandle, hk⟩ := hk
  refine ⟨?_, fun rs out h hin => ?_, fun rs out h hnot => ?_⟩
  · rw [hhandle]
    have hreturns : Answering (fun _ => True) k := hk.mono fun _ _ => trivial
    refine (answering_sqlExists _).bind fun x _ => ?_
    simp only [returns_ite]
    refine ⟨fun _ => trivial, fun _ => ⟨fun _ => hreturns, fun _ => ?_⟩⟩
    refine (answering_sqlExists _).bind fun x _ => ?_
    simp only [returns_ite]
    exact ⟨fun _ => trivial, fun _ => ⟨fun _ => hreturns, fun _ => trivial⟩⟩
  · rw [hhandle] at h
    rcases answered_ifRoomMember h with ⟨_, h⟩ | ⟨_, h⟩ | ⟨hnot, _⟩
    · exact hk.answered h
    · exact hk.answered h
    · exact absurd hin hnot
  · rw [hhandle] at h
    rcases answered_ifRoomMember h with ⟨hin, _⟩ | ⟨hin, _⟩ | ⟨_, status, h⟩
    · exact absurd (Or.inl hin) hnot
    · exact absurd (Or.inr hin) hnot
    · exact Or.inr ⟨status, 4, 3, h, by simp [Route.kind]⟩

/-- Every handler but those of files, on the codes it may get. -/
theorem Route.spec {route : Route} (hc : route.Complete) (hfile : ¬ route.IsTransfer header) :
    route.Spec env header := by
  cases route with
  | authRegister ra => exact spec_authRegister hc
  | authLogin ra => exact spec_authLogin hc
  | userLogout => exact .of_sends (Sends.respond rfl) fun _ => trivial
  | userGetInfo ru => exact .of_sends (Sends.lookup rfl fun _ => Sends.respond rfl) fun _ => trivial
  | userSearch ru => exact spec_userSearch hc
  | convCreate rconv => exact spec_convCreate hc
  | convDrop rconv => exact spec_convDrop rconv
  | convJoin rconv => exact spec_convJoin rconv
  | convQuit rconv => exact spec_convQuit rconv
  | convGetInfo rconv =>
    exact .of_sends (Sends.lookup rfl fun _ => Sends.respond rfl) fun _ => trivial
  | convGetMembers rconv =>
    have hlist := answering_sqlGetList (.membersOf rconv.convId.toNat)
    exact .of_sends (Sends.guarded rfl (Sends.respondList hlist rfl fun _ => rfl)) fun _ => trivial
  | convGetList =>
    exact .of_sends (Sends.respondList (answering_sqlGetList _) rfl fun _ => rfl) fun _ => trivial
  | chatCreate rchat => exact spec_chatCreate rchat
  | chatDrop rchat =>
    refine .of_sends (Sends.guarded rfl ?_) fun _ => trivial
    exact (answering_chatDrop _).bind fun _ _ => Sends.report rfl rfl
  | chatGetList =>
    exact .of_sends (Sends.respondList (answering_sqlGetList _) rfl fun _ => rfl) fun _ => trivial
  | chatGetInfo rchat => exact spec_chatGetInfo rchat
  | msgGetAll rm => exact spec_msgGetAll rm
  | msgGetDetail rm =>
    refine .of_sends (Sends.ifReadable rfl fun msg => ?_) fun _ => trivial
    exact (answering_sqlExecIgnored _).bind fun _ _ => Sends.respond rfl
  | msgSend rm => exact spec_msgSend hc hfile
  | msgDelete rm =>
    refine .of_sends (Sends.ifReadable rfl fun msg => ?_) fun _ => trivial
    exact (answering_sqlExecIgnored _).bind fun _ _ => Sends.report rfl rfl
  | notifyNewMsg =>
    exact .of_sends (Sends.respondList (answering_sqlGetList _) rfl fun _ => rfl) fun _ => trivial
  | notifyDelMsg rm => exact spec_notifyDelMsg rm
  | msgDownloadFile rm => exact absurd trivial hfile

end Handlers

/-! ## The length of the response -/

/-- A text column of a row. -/
def Reply.text (r : Reply) (i : Nat) : CStr := (r.cols.getD i .null).columnText

/-- The row of a query with one row, behind the `calloc` of the result. -/
def infoRow (rs : List Reply) : Option Reply :=
  if (codes rs).head? = some .ok ∧ look (codes rs).tail = .row then rs[2]? else none

/-- How many bytes of rows the response to these replies carries. A list is not bounded,
    and a text is as long as its column. -/
def Route.rowBytes (rs : List Reply) : Route → Nat
  | userGetInfo _ => ((infoRow rs).map fun r =>
      (r.text 1).strlen + (r.text 3).strlen + (r.text 4).strlen + 2).getD 0
  | convGetInfo _ => ((infoRow rs).map fun r => 4 + (r.text 2).strlen).getD 0
  | msgGetDetail _ =>
    if look ((codes rs).drop 3) = .row ∨
        look ((codes rs).drop 3) = .none ∧ look ((codes rs).drop 5) = .row then
      ((infoRow rs).map fun r => 30 + (r.text 5).strlen).getD 0
    else 0
  | userSearch _ | convGetList | chatGetList | notifyNewMsg | notifyDelMsg _ =>
    4 * rowCount (codes rs)
  | convGetMembers _ => if look (codes rs) = .row then 4 * rowCount ((codes rs).drop 2) else 0
  | msgGetAll _ =>
    if look (codes rs) = .row then 4 * rowCount ((codes rs).drop 2)
    else if look (codes rs) = .none ∧ look ((codes rs).drop 2) = .row then
      4 * rowCount ((codes rs).drop 4)
    else 0
  | _ => 0

section Lengths

variable {env : Env} {header : RequestHeader} {rs : List Reply} {out : Handled}

theorem handled_fits_err {status : UInt32} {group action : UInt8} :
    Handled.Fits { sent := [.err status group action] } :=
  handled_fits_single.mpr (Nat.zero_le _)

theorem codes_drop (rs : List Reply) (n : Nat) : codes (rs.drop n) = (codes rs).drop n :=
  List.map_drop ..

theorem answered_respondList {q : Query} {group action : UInt8}
    {response : List UInt32 → ResponseCall} (hresponse : ∀ ls, (response ls).written = 4 * ls.length)
    (h : Answered SqlCall.Documented (respondList (sqlGetList q) group action response) rs out) :
    out.Fits ↔ 4 * rowCount (codes rs) ≤ responseBodyLen := by
  rcases answered_sqlGetList h with ⟨_, ls, rs', hlength, h⟩ | ⟨hhead, rc, rs', hrc, h⟩
  · obtain rfl := answered_ret.mp h
    rw [handled_fits_single, hresponse, hlength]
  · dsimp only at h
    rw [if_pos (sqlIsErr_of_isFailure hrc)] at h
    obtain rfl := answered_ret.mp h
    exact iff_of_true handled_fits_err (by simp [rowCount, hhead])

/-- A row that is looked up, and what is sent of it. -/
theorem answered_lookup {α : Type} {q : Query} {f : List Val → α} {group action : UInt8}
    {k : α → SqlProg Handled}
    (h : Answered SqlCall.Documented (do
      let x ← sqlGetInfo q f
      if sqlIsErr x.2 then responseErr 500 group action
      else if x.2 = .empty then responseErr 404 group action
      else deref x.1 k) rs out) :
    (∃ r, infoRow rs = some r ∧ Answered SqlCall.Documented (k (f r.cols)) (rs.drop 3) out) ∨
      infoRow rs = none ∧ out.Fits := by
  rcases answered_sqlGetInfo h with ⟨hhead, hlook, r, hr, h⟩ | ⟨_, hlook, h⟩ | ⟨hlook, rc, rs', hrc, h⟩
  · exact Or.inl ⟨r, by rw [infoRow, if_pos ⟨hhead, hlook⟩, hr], h⟩
  · obtain rfl := answered_ret.mp h
    exact Or.inr ⟨by simp [infoRow, hlook], handled_fits_err⟩
  · dsimp only at h
    rw [if_pos (sqlIsErr_of_isFailure hrc)] at h
    obtain rfl := answered_ret.mp h
    refine Or.inr ⟨if_neg fun hfound => ?_, handled_fits_err⟩
    rw [hlook hfound.1] at hfound
    cases hfound.2

/-- Behind a lookup the response is one of the row. -/
theorem answered_lookup_fits {α : Type} {q : Query} {f : List Val → α} {group action : UInt8}
    {response : α → ResponseCall} {size : Reply → Nat}
    (hsize : ∀ r, (response (f r.cols)).written = size r)
    (h : Answered SqlCall.Documented (do
      let x ← sqlGetInfo q f
      if sqlIsErr x.2 then responseErr 500 group action
      else if x.2 = .empty then responseErr 404 group action
      else deref x.1 fun a => respond (response a)) rs out) :
    out.Fits ↔ ((infoRow rs).map size).getD 0 ≤ responseBodyLen := by
  rcases answered_lookup h with ⟨r, hrow, h⟩ | ⟨hrow, hfits⟩
  · obtain rfl := answered_ret.mp h
    rw [handled_fits_single, hsize, hrow]
    rfl
  · rw [hrow]
    exact iff_of_true hfits (Nat.zero_le _)

theorem answered_convGetMembers {rconv : RequestConv}
    (h : Answered SqlCall.Documented (handleConvGetMembers header rconv) rs out) :
    out.Fits ↔ (Route.convGetMembers rconv).rowBytes rs ≤ responseBodyLen := by
  rcases answered_sqlExists h with ⟨hlook, h⟩ | ⟨hlook, h⟩ | ⟨hlook, rc, rs', hrc, h⟩
  · rw [Route.rowBytes, if_pos hlook, ← codes_drop]
    exact answered_respondList (fun _ => rfl) h
  · obtain rfl := answered_ret.mp h
    exact iff_of_true handled_fits_err (by simp [Route.rowBytes, hlook])
  · dsimp only at h
    rw [if_pos (sqlIsErr_of_isFailure hrc)] at h
    obtain rfl := answered_ret.mp h
    exact iff_of_true handled_fits_err (by simp [Route.rowBytes, hlook])

/-- The list of `msg_get_all`, behind its check. -/
theorem answered_msgGetAllList {q : Query}
    (h : Answered SqlCall.Documented (do
      let x ← sqlGetList q
      if sqlIsErr x.2 then responseErr 500 4 0
      else if x.2 = .empty then responseErr 404 4 0
      else respond (.msgGetAll 200 x.1)) rs out) :
    out.Fits ↔ 4 * rowCount (codes rs) ≤ responseBodyLen := by
  rcases answered_sqlGetList h with ⟨_, ls, rs', hlength, h⟩ | ⟨hhead, rc, rs', hrc, h⟩
  · obtain rfl := answered_ret.mp h
    rw [handled_fits_single, ← hlength]
    rfl
  · dsimp only at h
    rw [if_pos (sqlIsErr_of_isFailure hrc)] at h
    obtain rfl := answered_ret.mp h
    exact iff_of_true handled_fits_err (by simp [rowCount, hhead])

theorem answered_msgGetAll {rm : RequestMsgBody}
    (h : Answered SqlCall.Documented (handleMsgGetAll header rm) rs out) :
    out.Fits ↔ (Route.msgGetAll rm).rowBytes rs ≤ responseBodyLen := by
  rw [handleMsgGetAll_eq] at h
  rcases answered_ifRoomMember h with ⟨hlook, h⟩ | ⟨hlook, h⟩ | ⟨hnot, status, rfl⟩
  · rw [Route.rowBytes, if_pos hlook, ← codes_drop]
    exact answered_msgGetAllList h
  · rw [Route.rowBytes, if_neg (by simp [hlook.1]), if_pos hlook, ← codes_drop]
    exact answered_msgGetAllList h
  · rw [not_or] at hnot
    rw [Route.rowBytes, if_neg hnot.1, if_neg hnot.2]
    exact iff_of_true handled_fits_err (Nat.zero_le _)

/-- A message behind the update whose code is not looked at. -/
theorem answered_detail {msgId : UInt32} {msg : MsgSchema}
    (h : Answered SqlCall.Documented (do
      let _ ← msgDelivered msgId
      respond (.msgGetDetail 200 msg.detail)) rs out) :
    out.Fits ↔ 30 + msg.content.strlen ≤ responseBodyLen := by
  obtain ⟨r, rs, rfl, -, h⟩ := answered_call.mp h
  obtain rfl := answered_ret.mp h
  exact handled_fits_single

theorem answered_msgGetDetail {rm : RequestMsgBody}
    (h : Answered SqlCall.Documented (handleMsgGetDetail header rm) rs out) :
    out.Fits ↔ (Route.msgGetDetail rm).rowBytes rs ≤ responseBodyLen := by
  rcases answered_lookup h with ⟨r, hrow, h⟩ | ⟨hrow, hfits⟩
  · rcases answered_ifRoomMember h with ⟨hlook, h⟩ | ⟨hlook, h⟩ | ⟨hnot, status, rfl⟩
    · rw [codes_drop] at hlook
      rw [Route.rowBytes, if_pos (Or.inl hlook), hrow]
      exact answered_detail h
    · rw [codes_drop, List.drop_drop] at hlook
      rw [Route.rowBytes, if_pos (Or.inr hlook), hrow]
      exact answered_detail h
    · rw [codes_drop, List.drop_drop] at hnot
      rw [Route.rowBytes, if_neg hnot]
      exact iff_of_true handled_fits_err (Nat.zero_le _)
  · exact iff_of_true hfits (by simp [Route.rowBytes, hrow])

/-- What is sent fits its frame, if the rows do. -/
theorem Route.fits_iff_rowBytes {route : Route} (hc : route.Complete)
    (hfile : ¬ route.IsTransfer header)
    (h : Answered SqlCall.Documented (route.handle env header) rs out) :
    out.Fits ↔ route.rowBytes rs ≤ responseBodyLen := by
  by_cases hfixed : route.fixedSize = true
  · refine iff_of_true ((Fitting.handle hfixed env header).answered h) ?_
    cases route with
    | _ => first | exact Nat.zero_le _ | cases hfixed
  cases route with
  | userGetInfo ru => exact answered_lookup_fits (fun _ => rfl) h
  | userSearch ru =>
    obtain ⟨uname, huname⟩ := Option.isSome_iff_exists.mp hc
    simp only [handle, handleUserSearch, huname, deref] at h
    exact answered_respondList (fun _ => rfl) h
  | convGetInfo rconv => exact answered_lookup_fits (fun _ => rfl) h
  | convGetMembers rconv => exact answered_convGetMembers h
  | convGetList => exact answered_respondList (fun _ => rfl) h
  | chatGetList => exact answered_respondList (fun _ => rfl) h
  | msgGetAll rm => exact answered_msgGetAll h
  | msgGetDetail rm => exact answered_msgGetDetail h
  | notifyNewMsg => exact answered_respondList (fun _ => rfl) h
  | notifyDelMsg rm => exact answered_respondList (fun _ => rfl) h
  | msgDownloadFile rm => exact absurd trivial hfile
  | _ => exact absurd rfl hfixed

end Lengths

/-! ## The frames -/

/-- One frame is written, whatever the buffer held, and it has the group and action bytes
    of the request. -/
def Correlated (r : Request) (out : Handled) : Prop :=
  out.undefined = false ∧ ∃ resp, out.sent = [resp] ∧ ∀ prior, ∃ frame copies,
    resp.make prior = .ok frame copies ∧
      frame.at' 0 = r.header.group.toUInt8 ∧ frame.at' 1 = r.header.action.toUInt8

theorem ResponseCall.make_kind {resp : ResponseCall} {prior frame : Frame} {copies : List Nat}
    (h : resp.make prior = .ok frame copies) :
    frame.at' 0 = resp.kind.1.toUInt8 ∧ frame.at' 1 = resp.kind.2.toUInt8 := by
  obtain ⟨m, hm, hlaid⟩ := resp.make_laid (ResponseCall.written_le_of_make h) prior
  rw [hm] at h
  cases h
  exact ⟨hlaid.header.group, hlaid.header.action⟩

theorem Handled.IsOne.correlated {r : Request} {out : Handled}
    (h : out.IsOne (r.header.group, r.header.action)) (hfits : out.Fits) : Correlated r out := by
  obtain ⟨resp, rfl, hkind⟩ := h
  refine ⟨rfl, resp, rfl, fun prior => ?_⟩
  obtain ⟨frame, copies, hmake⟩ := hfits resp (List.mem_singleton_self _) prior
  have hbytes := ResponseCall.make_kind hmake
  rw [hkind] at hbytes
  exact ⟨frame, copies, hmake, hbytes⟩

theorem Correlated.fits {r : Request} {out : Handled} (h : Correlated r out) : out.Fits := by
  obtain ⟨-, resp, hsent, hframe⟩ := h
  rw [Handled.Fits, hsent, List.forall_mem_singleton]
  intro prior
  obtain ⟨frame, copies, hmake, -⟩ := hframe prior
  exact ⟨frame, copies, hmake⟩

theorem Handled.Astray.not_correlated {r : Request} {out : Handled}
    (h : out.Astray (r.header.group, r.header.action)) : ¬ Correlated r out := by
  rintro ⟨hdefined, resp, hsent, hframe⟩
  rcases h with hundef | ⟨status, group, action, rfl, hkind⟩
  · rw [hdefined] at hundef
    cases hundef
  · cases hsent
    obtain ⟨frame, copies, hmake, hgroup, haction⟩ := hframe fun _ => 0
    obtain ⟨hgroup', haction'⟩ := ResponseCall.make_kind hmake
    refine hkind (Prod.ext ?_ ?_)
    · simpa [ResponseCall.kind] using congrArg UInt8.toInt8 (hgroup'.symm.trans hgroup)
    · simpa [ResponseCall.kind] using congrArg UInt8.toInt8 (haction'.symm.trans haction)

/-- For these codes `handle_req` answers in kind; a request without a valid token is
    refused with its own bytes. -/
def Request.inKind (env : Env) (r : Request) (cs : List Rc) : Prop :=
  r.header.group ≠ 0 ∧ env.verified = false ∨ ∃ route, r.route = some route ∧ route.inKind env cs

/-- What the rows put into the response fits its body; a refused request has none. -/
def Request.RowsFit (env : Env) (r : Request) (rs : List Reply) : Prop :=
  r.header.group ≠ 0 ∧ env.verified = false ∨
    ∃ route, r.route = some route ∧ route.rowBytes rs ≤ responseBodyLen

/-- A file is sent or fetched. -/
def Request.IsTransfer (r : Request) : Prop :=
  ∃ route, r.route = some route ∧ route.IsTransfer r.header

/-- For every accepted request that is not a transfer of a file and every sequence of
    replies, `handle_req` comes to an end, and it answers with one frame of the kind of
    the request exactly for the codes of `Request.inKind` and the rows that fit a frame. -/
theorem correlated_iff_inKind (env : Env) (r : Request) (haccepted : r.Accepted)
    (hfile : ¬ r.IsTransfer) :
    Halts SqlCall.Documented Reply.Ends (handleReq env (some r)) ∧
    ∀ rs out, Answered SqlCall.Documented (handleReq env (some r)) rs out →
      (Correlated r out ↔ r.inKind env (codes rs) ∧ r.RowsFit env rs) := by
  -- the refusal of a token repeats group and action of the request
  by_cases hrefused : r.header.group ≠ 0 ∧ env.verified = false
  · have hreq : handleReq env (some r) =
        responseErr 403 r.header.group.toUInt8 r.header.action.toUInt8 := by
      simp only [handleReq, hrefused.2, Bool.not_false, and_true]
      exact if_pos hrefused.1
    have hsend : Sends (r.header.group, r.header.action) (handleReq env (some r)) := by
      rw [hreq]
      exact Sends.responseErr (by simp)
    have hfitting : Fitting (handleReq env (some r)) := by
      rw [hreq]
      exact Fitting.responseErr
    exact ⟨hsend.halts, fun rs out h => iff_of_true
      ((hsend.answered h).correlated (hfitting.answered h)) ⟨Or.inl hrefused, Or.inl hrefused⟩⟩
  · obtain ⟨route, hroute, hcomplete⟩ := haccepted.route
    have hreq : handleReq env (some r) = route.handle env r.header := by
      have hgo : ¬ (r.header.group ≠ 0 ∧ (!env.verified) = true) := by simpa using hrefused
      simp only [handleReq, hroute]
      exact if_neg hgo
    have htransfer : ¬ route.IsTransfer r.header := fun h => hfile ⟨route, hroute, h⟩
    have hspec : route.Spec env r.header := Route.spec hcomplete htransfer
    rw [hreq]
    refine ⟨hspec.returns.halts, fun rs out h => ⟨fun hcorrelated => ⟨?_, ?_⟩, ?_⟩⟩
    · refine Or.inr ⟨route, hroute, ?_⟩
      by_contra hnot
      have hastray := hspec.astray rs out h hnot
      rw [← r.kind_of_route hroute] at hastray
      exact hastray.not_correlated hcorrelated
    · exact Or.inr ⟨route, hroute,
        (Route.fits_iff_rowBytes hcomplete htransfer h).mp hcorrelated.fits⟩
    · rintro ⟨hin | ⟨route', hroute', hin⟩, hfits | ⟨route'', hroute'', hfits⟩⟩
      · exact absurd hin hrefused
      · exact absurd hin hrefused
      · exact absurd hfits hrefused
      · cases hroute.symm.trans hroute'
        cases hroute.symm.trans hroute''
        have hone := hspec.inKind rs out h hin
        rw [← r.kind_of_route hroute] at hone
        exact hone.correlated ((Route.fits_iff_rowBytes hcomplete htransfer h).mpr hfits)

/-- The frame of a request with one id. -/
def idFrame (group action userId id : UInt8) : Frame := fun i =>
  ([group, action, 0, 0, 0, 0, 0, 16, 0, 0, 0, 16, 0, 0, 0, 0] ++ emptyToken.bytes ++
    [0, 0, 0, userId, 0, 0, 0, 10, 0, 0, 0, 0]).getD i (if i = 67 then id else 0)

/-- `conv_drop` of conversation 1 by user 3. -/
def dropRequest : Request := requestBy 3 2 1 (.conv { convId := 1 })

theorem dropRequest_accepted : dropRequest.Accepted := ⟨idFrame 2 1 3 1, [], rfl⟩

theorem dropRequest_not_transfer : ¬ dropRequest.IsTransfer := by
  rintro ⟨route, hroute, htransfer⟩
  cases hroute
  exact htransfer

/-- Sent by the admin, the request is answered in kind. -/
theorem correlated_iff_inKind_drop :
    dropRequest.Accepted ∧ Correlated dropRequest { sent := [.convDrop 200] } := by
  refine ⟨dropRequest_accepted, ?_⟩
  have hiff := (correlated_iff_inKind lobbyEnv dropRequest dropRequest_accepted
    dropRequest_not_transfer).2 [{}, { rc := .row }, {}, {}, {}, {}, {}] { sent := [.convDrop 200] }
  refine (hiff ⟨?_, rfl⟩).mpr ⟨Or.inr ⟨.convDrop { convId := 1 }, rfl, rfl⟩,
    Or.inr ⟨.convDrop { convId := 1 }, rfl, Nat.zero_le _⟩⟩
  show ∀ x ∈ [_, _, _, _, _, _, _], _
  simp [SqlCall.Documented]

/-- User 3 is not the admin of conversation 1, and is told so by a response to
    `conv_get_info`. -/
theorem drop_answered_astray :
    ∃ c c' out, (∃ log, Session False log c) ∧ dropRequest.Accepted ∧ ¬ dropRequest.IsTransfer ∧
      Runs Answers c (handleReq lobbyEnv (some dropRequest)) c' out ∧
      Answered SqlCall.Documented (handleReq lobbyEnv (some dropRequest)) [{}, { rc := .done }] out ∧
      out.sent = [.err 403 2 4] ∧ ¬ Correlated dropRequest out := by
  have hplay : (lobbyPlay []).any (fun x =>
      (execute serve 32 x.2 (handleReq lobbyEnv (some dropRequest))).any
        fun y => decide (y.2 = { sent := [.err 403 2 4] })) = true := by
    rw [lobbyPlay_eq]
    decide
  obtain ⟨⟨log, c⟩, hrun, hexec⟩ := (Option.any_eq_true _ _).mp hplay
  obtain ⟨⟨c', out⟩, hdrop, hfacts⟩ := (Option.any_eq_true _ _).mp hexec
  obtain rfl : out = { sent := [.err 403 2 4] } := of_decide_eq_true hfacts
  refine ⟨c, c', _, ⟨log, lobbyPlay_session hrun⟩, dropRequest_accepted, dropRequest_not_transfer,
    runs_of_execute answers_of_serve hdrop, ⟨?_, rfl⟩, rfl, ?_⟩
  · show ∀ x ∈ [_, _], _
    simp [SqlCall.Documented]
  · exact Handled.Astray.not_correlated (Or.inr ⟨403, 2, 4, rfl, by decide⟩)

end MeshChat
