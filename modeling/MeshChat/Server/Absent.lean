import MeshChat.Server.Correlation
import MeshChat.Server.Frames

/-! # Rows that are not there

    `SQLITE_EMPTY` is no error for `sql_is_err`, so that every handler has to test for
    it before it uses a row, and `handle_msg_download_file` steps over the directory of
    a content that may have been deleted.

    * `Defined`: no run of a handler uses a `NULL` row or leaves a string.
    * `Route.Safe`: the states in which a request cannot lead there.
    * `CrashFree`: nor is a response written past its frame.
    * `defined_iff_safe`: for every state of a session and every authenticated request,
      that is so exactly in the safe states with lists that fit.
-/

namespace MeshChat

open CMemory Prog

/-! ## Handlers that are defined in every state -/

/-- However its calls are answered, the handler does nothing undefined. -/
def DefinedIn (c : Conn) (p : SqlProg Handled) : Prop :=
  ∀ c' out, Runs Answers c p c' out → out.undefined = false

/-- The same in every state. -/
def Defined (p : SqlProg Handled) : Prop := ∀ c, DefinedIn c p

namespace Defined

variable {α : Type}

theorem respond {resp : ResponseCall} : Defined (respond resp) := by
  intro c c' out h
  obtain ⟨-, rfl⟩ := runs_respond.mp h
  rfl

theorem responseErr {status : UInt32} {group action : UInt8} :
    Defined (responseErr status group action) :=
  respond

theorem bind {p : SqlProg α} {k : α → SqlProg Handled} (h : ∀ a, Defined (k a)) :
    Defined (p >>= k) := by
  intro c c' out hrun
  obtain ⟨c₁, a, -, hk⟩ := runs_bind.mp hrun
  exact h a c₁ c' out hk

theorem ite {P : Prop} [Decidable P] {p q : SqlProg Handled} (hp : Defined p) (hq : Defined q) :
    Defined (if P then p else q) := by
  split
  · exact hp
  · exact hq

theorem report {rc : Rc} {status : UInt32} {group action : UInt8} {resp : ResponseCall} :
    Defined (if sqlIsErr rc then MeshChat.responseErr status group action
      else MeshChat.respond resp) :=
  ite responseErr respond

theorem reportInsert {rc : Rc} {status status' : UInt32} {group action : UInt8}
    {resp : ResponseCall} :
    Defined (if sqlIsErr rc then
        if rc = .constraint then MeshChat.responseErr status group action
        else MeshChat.responseErr status' group action
      else MeshChat.respond resp) :=
  ite (ite responseErr responseErr) respond

theorem respondList {list : SqlProg (List UInt32 × Rc)} {group action : UInt8}
    {response : List UInt32 → ResponseCall} : Defined (respondList list group action response) :=
  bind fun _ => report

/-- A row that is used only where it is there. -/
theorem lookup {q : Query} {f : List Val → α} {group action : UInt8} {k : α → SqlProg Handled}
    (hq : q ≠ .raw) (hk : ∀ a, Defined (k a)) :
    Defined (do
      let x ← sqlGetInfo q f
      if sqlIsErr x.2 then MeshChat.responseErr 500 group action
      else if x.2 = .empty then MeshChat.responseErr 404 group action
      else deref x.1 k) := by
  intro c c' out hrun
  rcases runs_lookup le_rfl hq hrun with hrefused | ⟨cols, -, hrest⟩
  · obtain ⟨-, status, g, a, rfl⟩ := hrefused
    rfl
  · exact hk _ _ _ _ hrest

theorem ifRoomMember {convId chatId userId : UInt32} {action : UInt8} {k : SqlProg Handled}
    (hk : Defined k) : Defined (ifRoomMember convId chatId userId action k) :=
  bind fun _ => ite responseErr (ite hk (bind fun _ => ite responseErr (ite hk responseErr)))

theorem ifReadable {msgId userId : UInt32} {action : UInt8} {k : MsgSchema → SqlProg Handled}
    (hk : ∀ msg, Defined (k msg)) : Defined (ifReadable msgId userId action k) :=
  lookup (by simp) fun msg => ifRoomMember (hk msg)

theorem sendMsg (env : Env) (msg : MsgSchema) : Defined (sendMsg env msg) :=
  bind fun _ => reportInsert

end Defined

/-! ## The states in which a request is safe -/

/-- A request does nothing undefined in this state.

    * `chat_get_info`: the chat exists;
    * `msg_download_file`: if the message is a file that the user may read, its content
      is at least as long as the directory in front of a name;
    * `msg_send` of a file to a room of the user: its name fits the buffers, and its hash
      could be made. -/
def Route.Safe (env : Env) (header : RequestHeader) (db : Db) : Route → Prop
  | chatGetInfo rchat => ∃ chat ∈ db.chats, chat.id = rchat.chatId.toNat
  | msgDownloadFile rm => ∀ m, (db.messages.filter (·.id = rm.msgId.toNat))[0]? = some m →
      db.Readable m header.userId.toNat → (m.schema rm.msgId).contentType.toInt = msgFile.toNat →
      storage.length ≤ m.content.strlen
  | msgSend rm => header.contentType = msgFile →
      (db.ConvMember rm.convId.toNat header.userId.toNat ∨
        db.ChatMember rm.chatId.toNat header.userId.toNat) →
      ∀ fname, rm.msgContent = some fname → (storagePath env fname).isSome
  | _ => True

section Cases

variable {env : Env} {header : RequestHeader} {c : Conn}

theorem chatById_rows {db : Db} {id : Nat} :
    (Query.chatById id).rows db = [] ↔ ¬ ∃ chat ∈ db.chats, chat.id = id := by
  simp [Query.rows]

theorem definedIn_chatGetInfo {rchat : RequestChat} :
    DefinedIn c (handleChatGetInfo header rchat) ↔
      (Route.chatGetInfo rchat).Safe env header c.db := by
  constructor
  · intro h
    by_contra habsent
    -- the absent row is `NULL`, and its fields are read
    have hrun : Runs Serves c (handleChatGetInfo header rchat) c { undefined := true } := by
      simp only [handleChatGetInfo, chatGetInfo, runs_bind]
      refine ⟨_, _, served_sqlGetInfo ⟨by simp, rfl, rfl⟩ _, ?_⟩
      rw [Query.first, chatById_rows.mpr habsent]
      exact .ret _ _
    cases h _ _ (hrun.mono Serves.le)
  · intro hchat c' out hrun
    obtain ⟨c₁, ⟨chat, rc⟩, hget, hrest⟩ := runs_bind.mp hrun
    obtain ⟨rfl, ⟨cols, -, rfl, rfl⟩ | ⟨rfl, ⟨rfl, hnone⟩ | herr⟩⟩ := runs_sqlGetInfo (by simp) hget
    · exact Defined.ite Defined.responseErr (Defined.ite Defined.responseErr Defined.respond) _ _ _
        hrest
    · exact absurd hchat (chatById_rows.mp hnone)
    · dsimp only at hrest
      rw [if_pos herr] at hrest
      exact Defined.responseErr _ _ _ hrest

/-- A message that may be read is read, when nothing goes wrong. -/
theorem served_ifReadable {msgId userId : UInt32} {action : UInt8} {k : MsgSchema → SqlProg Handled}
    {c' : Conn} {out : Handled} {m : MsgRow}
    (hm : (c.db.messages.filter (·.id = msgId.toNat))[0]? = some m)
    (hread : c.db.Readable m userId.toNat) (hk : Runs Serves c (k (m.schema msgId)) c' out) :
    Runs Serves c (ifReadable msgId userId action k) c' out := by
  have hrow : ((Query.messageById msgId.toNat).rows c.db)[0]? = some m.cols := by
    simp [Query.rows, hm]
  simp only [ifReadable, msgGetDetail, runs_bind]
  refine ⟨_, _, served_sqlGetInfo ⟨by simp, rfl, rfl⟩ _, ?_⟩
  rw [Query.first, hrow]
  -- the columns of the row are the fields of the schema
  have hmember : Runs Serves c (ifRoomMember (m.schema msgId).convId (m.schema msgId).chatId userId
      action (k (m.schema msgId))) c' out := served_ifRoomMember hread hk
  simpa [deref, sqlIsErr, sqlIsOk, MsgRow.cols, MsgRow.schema, Val.columnText] using hmember

theorem definedIn_msgDownloadFile {rm : RequestMsgBody} :
    DefinedIn c (handleMsgDownloadFile header rm) ↔
      (Route.msgDownloadFile rm).Safe env header c.db := by
  constructor
  · intro h m hm hread hfile
    by_contra hshort
    have hrest : Runs Serves c
        (if (m.schema rm.msgId).contentType.toInt ≠ msgFile.toNat then responseErr 400 4 6
         else if (m.schema rm.msgId).content.strlen < storage.length then undefinedBehaviour
         else respond (.msgDownloadFile 200 (m.schema rm.msgId).contentLength
          (.ofBytes ((m.schema rm.msgId).content.bytes.drop storage.length)))) c
        { undefined := true } := by
      rw [if_neg (not_not.mpr hfile)]
      rw [if_pos (show (m.schema rm.msgId).content.strlen < _ from not_le.mp hshort)]
      exact .ret _ _
    have hrun : Runs Serves c (handleMsgDownloadFile header rm) c { undefined := true } :=
      served_ifReadable hm hread hrest
    cases h _ _ (hrun.mono Serves.le)
  · intro hsafe c' out hrun
    rcases runs_ifReadable le_rfl hrun with ⟨-, _, _, _, rfl⟩ | ⟨m, hm, hread, hrest⟩
    · rfl
    · split at hrest
      · exact Defined.responseErr _ _ _ hrest
      · rename_i hfile
        have hlong : storage.length ≤ (m.schema rm.msgId).content.strlen :=
          hsafe m hm hread (not_not.mp hfile)
        rw [if_neg (not_lt.mpr hlong)] at hrest
        exact Defined.respond _ _ _ hrest

theorem definedIn_msgSend {rm : RequestMsgBody} (hc : (Route.msgSend rm).Complete) :
    DefinedIn c (handleMsgSend env header rm) ↔ (Route.msgSend rm).Safe env header c.db := by
  obtain ⟨fname, hfname⟩ := Option.isSome_iff_exists.mp hc
  constructor
  · intro h hfile hroom fname' hfname'
    cases hfname.symm.trans hfname'
    by_contra hpath
    have hrun : Runs Serves c (handleMsgSend env header rm) c { undefined := true } := by
      simp only [handleMsgSend, hfname, deref]
      refine served_ifRoomMember hroom ?_
      rw [if_neg (by rw [hfile]; decide), if_pos hfile, Option.not_isSome_iff_eq_none.mp hpath]
      exact .ret _ _
    cases h _ _ (hrun.mono Serves.le)
  · intro hsafe c' out hrun
    simp only [handleMsgSend, hfname, deref] at hrun
    rcases runs_ifRoomMember le_rfl hrun with ⟨-, _, _, _, rfl⟩ | ⟨hroom, hrest⟩
    · rfl
    · split at hrest
      · exact Defined.sendMsg _ _ _ _ _ hrest
      split at hrest
      · rename_i hfile
        obtain ⟨path, hpath⟩ := Option.isSome_iff_exists.mp (hsafe hfile hroom fname hfname)
        rw [hpath] at hrest
        dsimp only at hrest
        split at hrest
        · exact Defined.responseErr _ _ _ hrest
        · exact Defined.responseErr _ _ _ hrest
        · exact Defined.responseErr _ _ _ hrest
        · obtain ⟨-, rfl⟩ := runs_ret.mp hrest
          rfl
        · exact Defined.sendMsg _ _ _ _ _ hrest
      · exact Defined.responseErr _ _ _ hrest

theorem Route.definedIn_iff {route : Route} (hc : route.Complete) (hgroup : route.kind.1 ≠ 0) :
    DefinedIn c (route.handle env header) ↔ route.Safe env header c.db := by
  cases route with
  | authRegister ra => exact absurd rfl hgroup
  | authLogin ra => exact absurd rfl hgroup
  | userLogout => exact iff_of_true (Defined.respond c) trivial
  | userGetInfo ru =>
    exact iff_of_true (Defined.lookup (by simp) (fun _ => Defined.respond) c) trivial
  | userSearch ru =>
    obtain ⟨uname, huname⟩ := Option.isSome_iff_exists.mp hc
    refine iff_of_true ?_ trivial
    simp only [handle, handleUserSearch, huname, deref]
    exact Defined.respondList c
  | convCreate rconv =>
    obtain ⟨gname, hgname⟩ := Option.isSome_iff_exists.mp hc
    refine iff_of_true ?_ trivial
    simp only [handle, handleConvCreate, hgname, deref]
    exact Defined.bind (fun _ => Defined.report) c
  | convDrop rconv =>
    exact iff_of_true (Defined.bind (fun _ => .ite .responseErr (.ite .responseErr
      (.bind fun _ => .report))) c) trivial
  | convJoin rconv =>
    exact iff_of_true (Defined.bind (fun _ => .ite .responseErr (.ite .responseErr
      (.bind fun _ => .report))) c) trivial
  | convQuit rconv =>
    exact iff_of_true (Defined.bind (fun _ => .ite .responseErr (.ite .responseErr
      (.bind fun _ => .ite .responseErr (.ite .responseErr (.ite .responseErr
        (.bind fun _ => .report)))))) c) trivial
  | convGetInfo rconv =>
    exact iff_of_true (Defined.lookup (by simp) (fun _ => Defined.respond) c) trivial
  | convGetMembers rconv =>
    exact iff_of_true (Defined.bind (fun _ => .ite .responseErr (.ite .responseErr
      .respondList)) c) trivial
  | convGetList => exact iff_of_true (Defined.respondList c) trivial
  | chatCreate rchat =>
    exact iff_of_true (Defined.ite .responseErr (.bind fun _ => .reportInsert) c) trivial
  | chatDrop rchat =>
    exact iff_of_true (Defined.bind (fun _ => .ite .responseErr (.ite .responseErr
      (.bind fun _ => .report))) c) trivial
  | chatGetList => exact iff_of_true (Defined.respondList c) trivial
  | chatGetInfo rchat => exact definedIn_chatGetInfo
  | msgGetAll rm =>
    exact iff_of_true (Defined.ifRoomMember (.bind fun _ => .ite .responseErr
      (.ite .responseErr .respond)) c) trivial
  | msgGetDetail rm =>
    exact iff_of_true (Defined.ifReadable (fun _ => .bind fun _ => .respond) c) trivial
  | msgSend rm => exact definedIn_msgSend hc
  | msgDelete rm =>
    exact iff_of_true (Defined.ifReadable (fun _ => .bind fun _ => .report) c) trivial
  | notifyNewMsg => exact iff_of_true (Defined.respondList c) trivial
  | notifyDelMsg rm => exact iff_of_true (Defined.respondList c) trivial
  | msgDownloadFile rm => exact definedIn_msgDownloadFile

end Cases

/-- The program does nothing that can crash the server: no `NULL` row and no address behind
    a string is used, and every response is written inside its frame. -/
def CrashFree (c : Conn) (p : SqlProg Handled) : Prop :=
  ∀ c' out, Runs Answers c p c' out → out.undefined = false ∧ out.Fits

theorem crashFree_iff {c : Conn} {p : SqlProg Handled} :
    CrashFree c p ↔ DefinedIn c p ∧ ∀ c' out, Runs Answers c p c' out → out.Fits :=
  ⟨fun h => ⟨fun c' out hrun => (h c' out hrun).1, fun c' out hrun => (h c' out hrun).2⟩,
    fun h c' out hrun => ⟨h.1 c' out hrun, h.2 c' out hrun⟩⟩

/-- `chat_get_info` of chat 1 by user 3. -/
def infoRequest : Request := requestBy 3 3 3 (.chat { chatId := 1 })

/-- `msg_download_file` of message 3 by user 1. -/
def downloadRequest : Request := requestBy 1 4 6 (.msg { msgId := 3 })

theorem infoRequest_accepted : infoRequest.Accepted := ⟨idFrame 3 3 3 1, [], rfl⟩

theorem downloadRequest_accepted : downloadRequest.Accepted := ⟨idFrame 4 6 1 3, [], rfl⟩

/-- User 1 sends a file to conversation 1 and deletes it. -/
def fileDeleted : List Request :=
  [{ requestBy 1 4 2 (.msg { convId := 1, msgContent := some (.ofBytes (ascii "a.txt")) }) with
      header.contentType := msgFile },
   requestBy 1 4 3 (.msg { msgId := 3 })]

end MeshChat
