import MeshChat.Server.Session

/-! # What a sent message leaves behind

    `handle_msg_send` stores a row, and for a file also the file under `./storage`.

    * `FileOp`: what is done to the directory.
    * `handleMsgSendFiles`: the handler with the files that it creates and removes;
      `handleMsgSendFiles_fst`: its answers are those of the handler.
    * `Composed`: the message that is stored for a request.
    * `Taken`: what each outcome of an upload does to the directory.
    * `runs_handleMsgSendFiles`: a message is stored if and only if 201 is answered.
-/

namespace MeshChat

open CMemory SqlLex Prog

/-! ## The directory -/

/-- A call on a file under `./storage`. -/
inductive FileOp where
  /-- `open` with `O_CREAT | O_EXCL` that succeeds. -/
  | create (path : CStr)
  | remove (path : CStr)
  deriving DecidableEq

/-- A handler that does this to the directory. -/
def withFiles (ops : List FileOp) (p : SqlProg Handled) : SqlProg (Handled × List FileOp) :=
  (·, ops) <$> p

/-- Use a pointer that must not be `NULL`. -/
def derefFiles {α : Type} (p : Option α) (k : α → SqlProg (Handled × List FileOp)) :
    SqlProg (Handled × List FileOp) :=
  match p with
  | some a => k a
  | none => withFiles [] undefinedBehaviour

/-- The membership check of the message handlers, `ifRoomMember`. -/
def ifRoomMemberFiles (convId chatId userId : UInt32) (action : UInt8)
    (k : SqlProg (Handled × List FileOp)) : SqlProg (Handled × List FileOp) := do
  let (isMember, rc) ← convIsMember convId userId
  if sqlIsErr rc then withFiles [] (responseErr 500 4 action)
  else if isMember then k
  else
    let (isMember, rc) ← chatIsMember chatId userId
    if sqlIsErr rc then withFiles [] (responseErr 500 4 action)
    else if isMember then k
    else withFiles [] (responseErr 403 4 action)

/-- The insert for a file that was received, and its answer. The file is removed when the
    insert fails. -/
def sendMsgFile (env : Env) (path : CStr) (msg : MsgSchema) :
    SqlProg (Handled × List FileOp) := do
  let (id, rc) ← msgSend msg env.now
  if sqlIsErr rc then
    withFiles [.create path, .remove path]
      (if rc = .constraint then responseErr 409 4 2 else responseErr 500 4 2)
  else withFiles [.create path] (respond (.msgSend 201 id))

/-- `handle_msg_send` with its files. A failing `poll` leaves the file behind. -/
def handleMsgSendFiles (env : Env) (header : RequestHeader) (rm : RequestMsgBody) :
    SqlProg (Handled × List FileOp) :=
  derefFiles rm.msgContent fun content =>
  ifRoomMemberFiles rm.convId rm.chatId header.userId 3
    (let msg : MsgSchema :=
      { fromUid := header.userId, replyTo := rm.replyId,
        contentType := header.contentType.toUInt32.toInt32, contentLength := 0, content,
        convId := rm.convId, chatId := rm.chatId }
    if header.contentType = msgText then
      withFiles [] (sendMsg env { msg with contentLength := header.contentLen - 12 })
    else if header.contentType = msgFile then
      derefFiles (storagePath env content) fun path =>
      match env.upload with
      | .openFailed => withFiles [] (responseErr 500 4 2)
      | .pollFailed => withFiles [.create path] (responseErr 500 4 2)
      | .closeFailed => withFiles [.create path, .remove path] (responseErr 500 4 2)
      | .aborted => withFiles [.create path, .remove path] (return {})
      | .received =>
        sendMsgFile env path { msg with contentLength := header.contentLen, content := path }
    else withFiles [] (responseErr 400 4 2))

/-! ### The same handler -/

theorem withFiles_fst (ops : List FileOp) (p : SqlProg Handled) :
    Prod.fst <$> withFiles ops p = p := by
  rw [withFiles, map_eq_bind, map_eq_bind, bind_assoc]
  exact bind_ret_self p

theorem derefFiles_fst {α : Type} {p : Option α} {k : α → SqlProg (Handled × List FileOp)}
    {k' : α → SqlProg Handled} (hk : ∀ a, Prod.fst <$> k a = k' a) :
    Prod.fst <$> derefFiles p k = deref p k' := by
  cases p with
  | none => exact withFiles_fst [] _
  | some a => exact hk a

theorem ite_fst {β : Type} {p : Prop} [Decidable p] {x y : SqlProg (Handled × β)}
    {x' y' : SqlProg Handled} (hx : Prod.fst <$> x = x') (hy : Prod.fst <$> y = y') :
    Prod.fst <$> (if p then x else y) = if p then x' else y' := by
  split
  · exact hx
  · exact hy

theorem ifRoomMemberFiles_fst {convId chatId userId : UInt32} {action : UInt8}
    {k : SqlProg (Handled × List FileOp)} {k' : SqlProg Handled} (hk : Prod.fst <$> k = k') :
    Prod.fst <$> ifRoomMemberFiles convId chatId userId action k =
      ifRoomMember convId chatId userId action k' := by
  simp only [ifRoomMemberFiles, ifRoomMember]
  rw [map_eq_bind, bind_assoc]
  congr 1
  funext x
  refine ite_fst (withFiles_fst ..) (ite_fst hk ?_)
  rw [map_eq_bind, bind_assoc]
  congr 1
  funext y
  exact ite_fst (withFiles_fst ..) (ite_fst hk (withFiles_fst ..))

theorem sendMsgFile_fst (env : Env) (path : CStr) (msg : MsgSchema) :
    Prod.fst <$> sendMsgFile env path msg = sendMsg env msg := by
  simp only [sendMsgFile, sendMsg]
  rw [map_eq_bind, bind_assoc]
  congr 1
  funext x
  exact ite_fst (withFiles_fst ..) (withFiles_fst ..)

theorem handleMsgSendFiles_fst (env : Env) (header : RequestHeader) (rm : RequestMsgBody) :
    Prod.fst <$> handleMsgSendFiles env header rm = handleMsgSend env header rm := by
  refine derefFiles_fst fun content => ifRoomMemberFiles_fst (ite_fst (withFiles_fst ..) ?_)
  refine ite_fst (derefFiles_fst fun path => ?_) (withFiles_fst ..)
  cases env.upload with
  | received => exact sendMsgFile_fst ..
  | _ => exact withFiles_fst ..

/-! ## What is stored -/

/-- The message that is stored for a request, and what is done to the directory for it. -/
inductive Composed (env : Env) (header : RequestHeader) (rm : RequestMsgBody) :
    MsgSchema → List FileOp → Prop
  | text {s : CStr} (htype : header.contentType = msgText) (hs : rm.msgContent = some s) :
      Composed env header rm
        { fromUid := header.userId, replyTo := rm.replyId,
          contentType := header.contentType.toUInt32.toInt32,
          contentLength := header.contentLen - 12, content := s, convId := rm.convId,
          chatId := rm.chatId } []
  | file {s path : CStr} (htype : header.contentType = msgFile) (hs : rm.msgContent = some s)
      (hpath : storagePath env s = some path) :
      Composed env header rm
        { fromUid := header.userId, replyTo := rm.replyId,
          contentType := header.contentType.toUInt32.toInt32,
          contentLength := header.contentLen, content := path, convId := rm.convId,
          chatId := rm.chatId } [.create path]

/-- The answer says that a message was stored. -/
def Handled.Created (out : Handled) : Prop := ∃ id, ResponseCall.msgSend 201 id ∈ out.sent

section Runs

variable {c c' : Conn} {out : Handled} {ops : List FileOp}

theorem runs_withFiles {S : Conn → SqlCall → Conn → Reply → Prop} {ops' : List FileOp}
    {p : SqlProg Handled} (h : Runs S c (withFiles ops' p) c' (out, ops)) :
    Runs S c p c' out ∧ ops = ops' := by
  obtain ⟨a, hp, heq⟩ := runs_map.mp h
  cases heq
  exact ⟨hp, rfl⟩

/-- Nothing was stored. -/
structure Dismissed (c c' : Conn) (out : Handled) : Prop where
  same : c'.db = c.db
  uncreated : ¬ out.Created

theorem dismissed_responseErr {status : UInt32} {group action : UInt8}
    (h : Runs Answers c (responseErr status group action) c' out) : Dismissed c c' out := by
  obtain ⟨rfl, rfl⟩ := runs_responseErr.mp h
  exact ⟨rfl, by simp [Handled.Created]⟩

variable {env : Env} {header : RequestHeader} {rm : RequestMsgBody} {msg : MsgSchema}

/-- The id that is answered is the one of the row. -/
theorem runs_sendMsg_id (hquote : quote ∉ msg.content.bytes) (hidle : c.saved = none)
    (h : Runs Answers c (sendMsg env msg) c' out) :
    Dismissed c c' out ∨ ∃ n, msg.Sends env.now c.db c'.db n ∧
      out = { sent := [.msgSend 201 (UInt32.ofNat n)] } := by
  simp only [sendMsg, runs_bind] at h
  obtain ⟨c₁, ⟨id, rc⟩, hsend, h⟩ := h
  obtain ⟨-, hcases⟩ := runs_msgSend hquote hidle hsend
  dsimp only at h
  rcases hcases with ⟨rfl, n, hsends, rfl⟩ | ⟨hrc, hdb⟩
  · rw [if_neg (by simp [sqlIsErr, sqlIsOk])] at h
    obtain ⟨rfl, rfl⟩ := runs_respond.mp h
    exact Or.inr ⟨n, hsends, rfl⟩
  · -- what is not stored is reported
    have hfail := (runs_msgSend_code hquote hsend).resolve_left hrc
    rw [if_pos (sqlIsErr_of_isFailure hfail)] at h
    have herr : Dismissed c₁ c' out := by
      split at h
      · exact dismissed_responseErr h
      · exact dismissed_responseErr h
    exact Or.inl ⟨herr.same.trans hdb, herr.uncreated⟩

theorem runs_sendMsg (hquote : quote ∉ msg.content.bytes) (hidle : c.saved = none)
    (h : Runs Answers c (sendMsg env msg) c' out) :
    Dismissed c c' out ∨ (∃ n, msg.Sends env.now c.db c'.db n) ∧ out.Created := by
  rcases runs_sendMsg_id hquote hidle h with hnone | ⟨n, hsends, rfl⟩
  · exact Or.inl hnone
  · exact Or.inr ⟨⟨n, hsends⟩, _, List.mem_singleton.mpr rfl⟩

/-! ### With the files -/

/-- Nothing was stored. A file was created if anything was done to the directory. -/
def DismissedFiles (c c' : Conn) (out : Handled) (ops : List FileOp) : Prop :=
  Dismissed c c' out ∧ (ops = [] ∨ ∃ path, .create path ∈ ops)

theorem dismissed_withFiles {ops' : List FileOp} {status : UInt32} {group action : UInt8}
    (h : Runs Answers c (withFiles ops' (responseErr status group action)) c' (out, ops)) :
    Dismissed c c' out ∧ ops = ops' := by
  obtain ⟨hrun, hops⟩ := runs_withFiles h
  exact ⟨dismissed_responseErr hrun, hops⟩

theorem runs_derefFiles {α : Type} {p : Option α} {k : α → SqlProg (Handled × List FileOp)}
    (h : Runs Answers c (derefFiles p k) c' (out, ops)) :
    (Dismissed c c' out ∧ ops = []) ∨ ∃ a, p = some a ∧ Runs Answers c (k a) c' (out, ops) := by
  cases p with
  | none =>
    obtain ⟨hrun, rfl⟩ := runs_withFiles h
    obtain ⟨rfl, rfl⟩ := runs_ret.mp hrun
    exact Or.inl ⟨⟨rfl, by simp [Handled.Created]⟩, rfl⟩
  | some a => exact Or.inr ⟨a, rfl, h⟩

theorem runs_ifRoomMemberFiles {convId chatId userId : UInt32} {action : UInt8}
    {k : SqlProg (Handled × List FileOp)}
    (h : Runs Answers c (ifRoomMemberFiles convId chatId userId action k) c' (out, ops)) :
    (Dismissed c c' out ∧ ops = []) ∨ Runs Answers c k c' (out, ops) := by
  simp only [ifRoomMemberFiles, runs_bind] at h
  obtain ⟨c₁, ⟨b, rc⟩, hmember, h⟩ := h
  obtain ⟨rfl, -⟩ := runs_convIsMember hmember
  dsimp only at h
  split at h
  · exact Or.inl (dismissed_withFiles h)
  split at h
  · exact Or.inr h
  simp only [runs_bind] at h
  obtain ⟨c₂, ⟨b', rc'⟩, hmember', h⟩ := h
  obtain ⟨rfl, -⟩ := runs_chatIsMember hmember'
  dsimp only at h
  split at h
  · exact Or.inl (dismissed_withFiles h)
  split at h
  · exact Or.inr h
  · exact Or.inl (dismissed_withFiles h)

/-- The file of a message that is stored stays, and any other is removed. -/
theorem runs_sendMsgFile {path : CStr} (hquote : quote ∉ msg.content.bytes)
    (hidle : c.saved = none) (h : Runs Answers c (sendMsgFile env path msg) c' (out, ops)) :
    (Dismissed c c' out ∧ ops = [.create path, .remove path]) ∨
      (∃ n, msg.Sends env.now c.db c'.db n) ∧ out.Created ∧ ops = [.create path] := by
  have hplain : Runs Answers c (sendMsg env msg) c' out := by
    rw [← sendMsgFile_fst env path msg]
    exact runs_map.mpr ⟨(out, ops), h, rfl⟩
  -- the answer tells which branch was taken
  have hops : ops = [.create path, .remove path] ∧ ¬ out.Created ∨
      ops = [.create path] ∧ out.Created := by
    simp only [sendMsgFile, runs_bind] at h
    obtain ⟨c₁, ⟨id, rc⟩, -, h⟩ := h
    dsimp only at h
    split at h
    · obtain ⟨hrun, hops⟩ := runs_withFiles h
      refine Or.inl ⟨hops, ?_⟩
      split at hrun
      · exact (dismissed_responseErr hrun).uncreated
      · exact (dismissed_responseErr hrun).uncreated
    · obtain ⟨hrun, hops⟩ := runs_withFiles h
      obtain ⟨-, rfl⟩ := runs_respond.mp hrun
      exact Or.inr ⟨hops, id, List.mem_singleton.mpr rfl⟩
  rcases runs_sendMsg hquote hidle hplain with hnone | ⟨hsends, hcreated⟩
  · rcases hops with ⟨hops, -⟩ | ⟨-, hcreated⟩
    · exact Or.inl ⟨hnone, hops⟩
    · exact absurd hcreated hnone.uncreated
  · rcases hops with ⟨-, huncreated⟩ | ⟨hops, -⟩
    · exact absurd hcreated huncreated
    · exact Or.inr ⟨hsends, hcreated, hops⟩

/-- Once the file is to be received, with what each outcome does to the directory. -/
inductive Taken (env : Env) (path : CStr) (msg : MsgSchema) (c c' : Conn) (out : Handled) :
    List FileOp → Prop
  | openFailed (hupload : env.upload = .openFailed) (hnone : Dismissed c c' out) :
      Taken env path msg c c' out []
  /-- Nothing removes the file. -/
  | pollFailed (hupload : env.upload = .pollFailed) (hnone : Dismissed c c' out) :
      Taken env path msg c c' out [.create path]
  | removed (hupload : env.upload ≠ .openFailed) (hpoll : env.upload ≠ .pollFailed)
      (hnone : Dismissed c c' out) :
      Taken env path msg c c' out [.create path, .remove path]
  | stored {n : Nat} (hupload : env.upload = .received) (hsends : msg.Sends env.now c.db c'.db n)
      (hcreated : out.Created) : Taken env path msg c c' out [.create path]

/-- What a request does to the directory: a file is created, and removed again at most then. -/
inductive Tidy : List FileOp → Prop
  | nothing : Tidy []
  | kept (path : CStr) : Tidy [.create path]
  | removed (path : CStr) : Tidy [.create path, .remove path]

theorem Taken.tidy {path : CStr} (h : Taken env path msg c c' out ops) : Tidy ops := by
  cases h with
  | openFailed => exact .nothing
  | pollFailed => exact .kept path
  | removed => exact .removed path
  | stored => exact .kept path

theorem Taken.dismissed {path : CStr} (h : Taken env path msg c c' out ops) :
    DismissedFiles c c' out ops ∨
      (∃ n, msg.Sends env.now c.db c'.db n) ∧ out.Created ∧ ops = [.create path] := by
  cases h with
  | openFailed _ hnone => exact Or.inl ⟨hnone, Or.inl rfl⟩
  | pollFailed _ hnone => exact Or.inl ⟨hnone, Or.inr ⟨path, by simp⟩⟩
  | removed _ _ hnone => exact Or.inl ⟨hnone, Or.inr ⟨path, by simp⟩⟩
  | stored _ hsends hcreated => exact Or.inr ⟨⟨_, hsends⟩, hcreated, rfl⟩

/-- The message of a file. -/
def fileMsg (header : RequestHeader) (rm : RequestMsgBody) (path : CStr) : MsgSchema where
  fromUid := header.userId
  replyTo := rm.replyId
  contentType := header.contentType.toUInt32.toInt32
  contentLength := header.contentLen
  content := path
  convId := rm.convId
  chatId := rm.chatId

/-- A file that is sent is dismissed before its path is made, or it is received. Only a file
    that was received gets into a statement. -/
theorem runs_receive {content : CStr} (hfile : header.contentType = msgFile)
    (hcontent : rm.msgContent = some content)
    (hfree : env.upload = .received → quote ∉ keptSuffix content) (hidle : c.saved = none)
    (h : Runs Answers c (handleMsgSendFiles env header rm) c' (out, ops)) :
    (Dismissed c c' out ∧ ops = []) ∨
      ∃ path, storagePath env content = some path ∧
        Taken env path (fileMsg header rm path) c c' out ops := by
  rw [handleMsgSendFiles, hcontent] at h
  rcases runs_ifRoomMemberFiles h with hnone | h
  · exact Or.inl hnone
  rw [if_neg (by rw [hfile]; decide), if_pos hfile] at h
  rcases runs_derefFiles h with hnone | ⟨path, hpath, h⟩
  · exact Or.inl hnone
  refine Or.inr ⟨path, hpath, ?_⟩
  cases hupload : env.upload with
  | openFailed =>
    rw [hupload] at h
    obtain ⟨hnone, rfl⟩ := dismissed_withFiles h
    exact .openFailed hupload hnone
  | pollFailed =>
    rw [hupload] at h
    obtain ⟨hnone, rfl⟩ := dismissed_withFiles h
    exact .pollFailed hupload hnone
  | closeFailed =>
    rw [hupload] at h
    obtain ⟨hnone, rfl⟩ := dismissed_withFiles h
    exact .removed (by rw [hupload]; decide) (by rw [hupload]; decide) hnone
  | aborted =>
    -- the connection is closed without an answer
    rw [hupload] at h
    obtain ⟨hrun, rfl⟩ := runs_withFiles h
    obtain ⟨rfl, rfl⟩ := runs_ret.mp hrun
    exact .removed (by rw [hupload]; decide) (by rw [hupload]; decide)
      ⟨rfl, by simp [Handled.Created]⟩
  | received =>
    rw [hupload] at h
    rcases runs_sendMsgFile (quoteFree_of_keptSuffix (hfree hupload) hpath) hidle h with
      ⟨hnone, rfl⟩ | ⟨⟨n, hsends⟩, hcreated, rfl⟩
    · exact .removed (by rw [hupload]; decide) (by rw [hupload]; decide) hnone
    · exact .stored hupload hsends hcreated

/-- Only a file does something to the directory. -/
theorem ops_of_not_file (hfile : header.contentType ≠ msgFile)
    (h : Runs Answers c (handleMsgSendFiles env header rm) c' (out, ops)) : ops = [] := by
  rcases runs_derefFiles h with ⟨-, hops⟩ | ⟨content, -, h⟩
  · exact hops
  rcases runs_ifRoomMemberFiles h with ⟨-, hops⟩ | h
  · exact hops
  split at h
  · exact (runs_withFiles h).2
  · exact (runs_withFiles h).2

/-- What `handle_msg_send` stores, and when it says so. -/
theorem runs_handleMsgSendFiles (hquote : ∀ s ∈ (RequestBody.msg rm).strings, quote ∉ s.bytes)
    (hidle : c.saved = none)
    (h : Runs Answers c (handleMsgSendFiles env header rm) c' (out, ops)) :
    DismissedFiles c c' out ops ∨
      ∃ msg n, Composed env header rm msg ops ∧ msg.Sends env.now c.db c'.db n ∧ out.Created := by
  cases hcontent : rm.msgContent with
  | none =>
    rw [handleMsgSendFiles, hcontent] at h
    rcases runs_derefFiles h with ⟨hnone, hops⟩ | ⟨content, ⟨⟩, -⟩
    exact Or.inl ⟨hnone, Or.inl hops⟩
  | some content =>
    have hfree : quote ∉ content.bytes := hquote content (by simp [RequestBody.strings, hcontent])
    by_cases hfile : header.contentType = msgFile
    · rcases runs_receive hfile hcontent (fun _ hmem => hfree (mem_of_mem_keptSuffix hmem)) hidle
        h with
        ⟨hnone, hops⟩ | ⟨path, hpath, htaken⟩
      · exact Or.inl ⟨hnone, Or.inl hops⟩
      rcases htaken.dismissed with hnone | ⟨⟨n, hsends⟩, hcreated, rfl⟩
      · exact Or.inl hnone
      · exact Or.inr ⟨_, n, .file hfile hcontent hpath, hsends, hcreated⟩
    · rw [handleMsgSendFiles, hcontent] at h
      rcases runs_ifRoomMemberFiles h with ⟨hnone, hops⟩ | h
      · exact Or.inl ⟨hnone, Or.inl hops⟩
      split at h
      · rename_i htext
        obtain ⟨hrun, rfl⟩ := runs_withFiles h
        rcases runs_sendMsg hfree hidle hrun with hnone | ⟨⟨n, hsends⟩, hcreated⟩
        · exact Or.inl ⟨hnone, Or.inl rfl⟩
        · exact Or.inr ⟨_, n, .text htext hcontent, hsends, hcreated⟩
      · obtain ⟨hnone, hops⟩ := dismissed_withFiles h
        exact Or.inl ⟨hnone, Or.inl hops⟩

theorem runs_handleMsgSend (hquote : ∀ s ∈ (RequestBody.msg rm).strings, quote ∉ s.bytes)
    (hidle : c.saved = none) (h : Runs Answers c (handleMsgSend env header rm) c' out) :
    Dismissed c c' out ∨ ∃ msg n ops, Composed env header rm msg ops ∧
      msg.Sends env.now c.db c'.db n ∧ out.Created := by
  rw [← handleMsgSendFiles_fst] at h
  obtain ⟨⟨out, ops⟩, hrun, rfl⟩ := runs_map.mp h
  rcases runs_handleMsgSendFiles hquote hidle hrun with hnone | ⟨msg, n, hmsg, hsends, hcreated⟩
  · exact Or.inl hnone.1
  · exact Or.inr ⟨msg, n, ops, hmsg, hsends, hcreated⟩

end Runs

end MeshChat
