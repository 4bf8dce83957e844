import MeshChat.Server.Sending

/-! # The files and the messages that name them

    Uploaded files are kept under `./storage`, and their paths in the table of messages.

    * `handleReqFiles`: `handle_req` with the files that it creates and removes.
    * `StorageRun`: requests executed one after the other, with the directory.
    * `Correspond`: the files are those that a message names, each by one message.
    * `GoesWith`: the messages that are removed with a room.
    * `Request.KeepsFiles`: the requests that keep the two in step. Nothing removes a file
      when its message is deleted, or dropped with its room.
-/

namespace MeshChat

open CMemory SqlLex Prog

/-! ## Requests with their files -/

/-- The handler of a case with its files: only `handle_msg_send` has any. -/
def Route.handleFiles (env : Env) (header : RequestHeader) :
    Route → SqlProg (Handled × List FileOp)
  | msgSend rm => handleMsgSendFiles env header rm
  | route => withFiles [] (route.handle env header)

/-- `handle_req` behind `request_parse`, with its files. -/
def handleReqFiles (env : Env) : Option Request → SqlProg (Handled × List FileOp)
  | none => withFiles [] (responseErr 400 0xFF 0xFF)
  | some req =>
    if req.header.group ≠ 0 ∧ !env.verified then
      withFiles [] (responseErr 403 req.header.group.toUInt8 req.header.action.toUInt8)
    else
      match req.route with
      | some route => route.handleFiles env req.header
      | none => withFiles [] (return {})

theorem Route.handleFiles_fst (env : Env) (header : RequestHeader) (route : Route) :
    Prod.fst <$> route.handleFiles env header = route.handle env header := by
  cases route with
  | msgSend rm => exact handleMsgSendFiles_fst env header rm
  | _ => exact withFiles_fst [] _

theorem handleReqFiles_fst (env : Env) (req : Option Request) :
    Prod.fst <$> handleReqFiles env req = handleReq env req := by
  cases req with
  | none => exact withFiles_fst [] _
  | some req =>
    refine ite_fst (withFiles_fst [] _) ?_
    cases req.route with
    | some route => exact route.handleFiles_fst env req.header
    | none => exact withFiles_fst [] _

/-- A run with the files is a run of the handler. -/
theorem runs_of_files {S : Conn → SqlCall → Conn → Reply → Prop} {env : Env}
    {req : Option Request} {c c' : Conn} {out : Handled} {ops : List FileOp}
    (h : Runs S c (handleReqFiles env req) c' (out, ops)) : Runs S c (handleReq env req) c' out := by
  rw [← handleReqFiles_fst]
  exact runs_map.mpr ⟨(out, ops), h, rfl⟩

/-- What a call does to the directory; `none` if the file to be created is there. -/
def FileOp.run (files : Finset CStr) : FileOp → Option (Finset CStr)
  | create path => if path ∈ files then none else some (insert path files)
  | remove path => some (files.erase path)

def runOps : List FileOp → Finset CStr → Option (Finset CStr)
  | [], files => some files
  | op :: ops, files =>
    match op.run files with
    | some files => runOps ops files
    | none => none

/-- A request that was handled, and what it did to the directory. -/
structure Stored where
  served : Served
  ops : List FileOp
  deriving DecidableEq

/-- Requests executed one at a time, from an empty database and an empty directory on. -/
inductive StorageRun : List Stored → Finset CStr → Conn → Prop
  | start : StorageRun [] ∅ { db := {} }
  | request {log : List Stored} {files files' : Finset CStr} {c c' : Conn} {env : Env}
      {req : Option Request} {out : Handled} {ops : List FileOp} (hprev : StorageRun log files c)
      (hquote : ∀ r ∈ req, r.QuoteFree)
      (hrun : Runs Answers c (handleReqFiles env req) c' (out, ops))
      (hops : runOps ops files = some files') :
      StorageRun (log ++ [⟨⟨req, c, c', out, false⟩, ops⟩]) files' c'
  | restart {log : List Stored} {files : Finset CStr} {c : Conn} (hprev : StorageRun log files c) :
      StorageRun log files { db := c.saved.getD c.db }

/-- The database goes through a session. -/
theorem StorageRun.session {log : List Stored} {files : Finset CStr} {c : Conn}
    (h : StorageRun log files c) : Session True (log.map (·.served)) c := by
  induction h with
  | start => exact .start
  | @request log files files' c c' env req out ops _ hquote hrun _ ih =>
    rw [List.map_append]
    exact ih.request hquote (runs_of_files hrun) (fun hclean => by cases hclean)
  | restart _ ih => exact ih.restart trivial

/-! ## The two in step -/

/-- The message is one of a file. -/
def MsgRow.IsFile (m : MsgRow) : Prop := m.contentType = msgFile.toNat

instance : DecidablePred MsgRow.IsFile := fun _ => inferInstanceAs (Decidable (_ = _))

/-- The paths of the file messages that are not deleted. -/
def Db.storedPaths (db : Db) : List CStr :=
  (db.messages.filter fun m => m.IsFile ∧ m.type ≠ .deleted).map (·.content)

/-- The files are those that a message names, each by one message. -/
structure Correspond (files : Finset CStr) (db : Db) : Prop where
  same : files = db.storedPaths.toFinset
  single : db.storedPaths.Nodup

/-- The invariant: the same of all file messages, none of which is deleted. -/
structure InStep (files : Finset CStr) (ms : List MsgRow) : Prop where
  present : ∀ m ∈ ms, m.IsFile → m.type ≠ .deleted
  same : files = ((ms.filter (·.IsFile)).map (·.content)).toFinset
  single : ((ms.filter (·.IsFile)).map (·.content)).Nodup

theorem InStep.correspond {files : Finset CStr} {db : Db} (h : InStep files db.messages) :
    Correspond files db := by
  have hpaths : db.storedPaths = (db.messages.filter (·.IsFile)).map (·.content) := by
    rw [Db.storedPaths]
    refine congrArg (List.map _) (List.filter_congr fun m hm => ?_)
    have := h.present m hm
    simpa using this
  refine ⟨?_, ?_⟩
  · rw [hpaths]
    exact h.same
  · rw [hpaths]
    exact h.single

namespace InStep

variable {files : Finset CStr} {ms ms' : List MsgRow}

/-- The file messages are the same. -/
theorem of_same (h : InStep files ms)
    (hsame : (ms'.filter (·.IsFile)).map (·.content) = (ms.filter (·.IsFile)).map (·.content))
    (hpresent : ∀ m ∈ ms', m.IsFile → m.type ≠ .deleted) : InStep files ms' where
  present := hpresent
  same := by rw [hsame]; exact h.same
  single := by rw [hsame]; exact h.single

/-- Messages are removed, none of them of a file. -/
theorem removed (h : InStep files ms) (hsub : ms'.Sublist ms) (hnodup : ms.Nodup)
    (hkept : ∀ m ∈ ms, m.IsFile → m ∈ ms') : InStep files ms' := by
  have hall : ms'.filter (·.IsFile) = ms.filter (·.IsFile) := by
    have hback : ms.filter (·.IsFile) ⊆ ms'.filter (·.IsFile) := by
      intro m hm
      obtain ⟨hm, hfile⟩ := List.mem_filter.mp hm
      exact List.mem_filter.mpr ⟨hkept m hm (of_decide_eq_true hfile), hfile⟩
    have hlength := (List.subperm_of_subset (hnodup.filter _) hback).length_le
    exact (hsub.filter _).eq_of_length_le hlength
  exact h.of_same (by rw [hall]) fun m hm => h.present m (hsub.subset hm)

/-- A text is added. -/
theorem addText (h : InStep files ms) {m : MsgRow} (hm : ¬ m.IsFile) : InStep files (ms ++ [m]) := by
  refine h.of_same ?_ ?_
  · simp [List.filter_append, hm]
  · intro m' hm' hfile
    rcases List.mem_append.mp hm' with hm' | hm'
    · exact h.present m' hm' hfile
    · exact absurd (List.mem_singleton.mp hm' ▸ hfile) hm

/-- A file and its message are added. -/
theorem addFile (h : InStep files ms) {m : MsgRow} {path : CStr} (hm : m.IsFile)
    (htype : m.type ≠ .deleted) (hpath : m.content = path) (hnew : path ∉ files) :
    InStep (insert path files) (ms ++ [m]) := by
  subst hpath
  have hpaths : ((ms ++ [m]).filter (·.IsFile)).map (·.content) =
      (ms.filter (·.IsFile)).map (·.content) ++ [m.content] := by
    simp [List.filter_append, hm]
  have hfresh : m.content ∉ (ms.filter (·.IsFile)).map (·.content) := by
    rw [h.same] at hnew
    exact fun hmem => hnew (List.mem_toFinset.mpr hmem)
  refine ⟨?_, ?_, ?_⟩
  · intro m' hm' hfile
    rcases List.mem_append.mp hm' with hm' | hm'
    · exact h.present m' hm' hfile
    · rwa [List.mem_singleton.mp hm']
  · rw [hpaths, List.toFinset_append, ← h.same]
    ext path
    simp
  · rw [hpaths, List.nodup_append]
    refine ⟨h.single, List.nodup_singleton _, ?_⟩
    rintro path hpath path' hpath' rfl
    rw [List.mem_singleton.mp hpath'] at hpath
    exact hfresh hpath

/-- Messages are rewritten; the content of a file message stays. -/
theorem rewritten (h : InStep files ms) {g : MsgRow → MsgRow}
    (htype : ∀ m ∈ ms, (g m).contentType = m.contentType)
    (hfile : ∀ m ∈ ms, m.IsFile → (g m).content = m.content ∧ (g m).type ≠ .deleted) :
    InStep files (ms.map g) := by
  refine h.of_same ?_ ?_
  · rw [List.filter_map, List.map_map]
    have hfilter : ms.filter ((fun m => decide m.IsFile) ∘ g) = ms.filter (·.IsFile) := by
      refine List.filter_congr fun m hm => ?_
      exact decide_eq_decide.mpr (by rw [MsgRow.IsFile, MsgRow.IsFile, htype m hm])
    rw [hfilter]
    refine List.map_congr_left fun m hm => ?_
    obtain ⟨hm, hf⟩ := List.mem_filter.mp hm
    exact (hfile m hm (of_decide_eq_true hf)).1
  · intro m' hm' hf
    obtain ⟨m, hm, rfl⟩ := List.mem_map.mp hm'
    rw [MsgRow.IsFile, htype m hm] at hf
    exact (hfile m hm hf).2

end InStep

/-! ## What goes with a room -/

/-- The messages that are removed when those with `p` are: with foreign keys on, the
    answers to them too, and the answers to these. -/
inductive GoesWith (ms : List MsgRow) (fk : Bool) (p : MsgRow → Prop) : MsgRow → Prop
  | room {m : MsgRow} (hm : m ∈ ms) (hp : p m) : GoesWith ms fk p m
  | reply {m parent : MsgRow} (hfk : fk = true) (hm : m ∈ ms) (hparent : GoesWith ms fk p parent)
      (hreply : m.replyTo = some parent.id) : GoesWith ms fk p m

theorem GoesWith.mono {ms ms' : List MsgRow} {fk : Bool} {p p' : MsgRow → Prop}
    (hms : ms' ⊆ ms) (hp : ∀ m, p' m → p m) {m : MsgRow} (h : GoesWith ms' fk p' m) :
    GoesWith ms fk p m := by
  induction h with
  | room hm hpm => exact .room (hms hm) (hp _ hpm)
  | reply hfk hm _ hreply ih => exact .reply hfk (hms hm) ih hreply

/-- What the rounds of the cascade reach. -/
theorem goesWith_of_round {ms : List MsgRow} {p : MsgRow → Bool} {id : Nat} (n : Nat)
    (h : id ∈ (withReplies ms)^[n] ((ms.filter p).map (·.id))) :
    ∃ m, m.id = id ∧ GoesWith ms true (p · = true) m := by
  induction n generalizing id with
  | zero =>
    obtain ⟨m, hm, rfl⟩ := List.mem_map.mp h
    obtain ⟨hm, hp⟩ := List.mem_filter.mp hm
    exact ⟨m, rfl, .room hm hp⟩
  | succ n ih =>
    rw [Function.iterate_succ_apply', withReplies] at h
    rcases List.mem_append.mp h with h | h
    · exact ih h
    · obtain ⟨m, hm, rfl⟩ := List.mem_map.mp h
      obtain ⟨hm, hreply⟩ := List.mem_filter.mp hm
      obtain ⟨k, hk, hgone⟩ := (Option.any_eq_true _ _).mp hreply
      obtain ⟨parent, rfl, hparent⟩ := ih (of_decide_eq_true hgone)
      exact ⟨m, rfl, .reply rfl hm hparent hk⟩

theorem GoesWith.mem {ms : List MsgRow} {fk : Bool} {p : MsgRow → Prop} {m : MsgRow}
    (h : GoesWith ms fk p m) : m ∈ ms := by
  cases h with
  | room hm _ => exact hm
  | reply _ hm _ _ => exact hm

/-- What is removed has the id of a message that goes with those that are asked for. -/
theorem goesWith_of_gone (fk : Bool) (p : MsgRow → Bool) {ms : List MsgRow} {m : MsgRow}
    (hm : m ∈ ms) (hgone : m ∉ removeMessages fk p ms) :
    ∃ m', m'.id = m.id ∧ GoesWith ms fk (p · = true) m' := by
  unfold removeMessages at hgone
  split at hgone
  · rename_i hfk
    have hround : m.id ∈ closeReplies ms ((ms.filter p).map (·.id)) := by
      by_contra hnot
      exact hgone (List.mem_filter.mpr ⟨hm, by simpa using hnot⟩)
    subst hfk
    exact goesWith_of_round ms.length hround
  · refine ⟨m, rfl, .room hm ?_⟩
    by_contra hnot
    exact hgone (List.mem_filter.mpr ⟨hm, by simpa using hnot⟩)

/-- What is removed goes with the messages that are asked for. -/
theorem goesWith_of_removed (fk : Bool) (p : MsgRow → Bool) {ms : List MsgRow}
    (hids : (ms.map (·.id)).Nodup) {m : MsgRow} (hm : m ∈ ms)
    (hgone : m ∉ removeMessages fk p ms) : GoesWith ms fk (p · = true) m := by
  obtain ⟨m', hid, hgoes⟩ := goesWith_of_gone fk p hm hgone
  rwa [eq_of_id_eq hids hm hgoes.mem hid.symm]

namespace Db

variable {db : Db} {fk : Bool} {id : Nat} {m : MsgRow}

/-- The two passes of a drop with foreign keys on. -/
theorem goesWith_of_passes {ms : List MsgRow} (hids : (ms.map (·.id)).Nodup) {p q : MsgRow → Bool}
    (hq : ∀ m, q m = true → p m = true) (hm : m ∈ ms)
    (hgone : m ∉ removeMessages true q (removeMessages true p ms)) :
    GoesWith ms true (p · = true) m := by
  by_cases hfirst : m ∈ removeMessages true p ms
  · have hsub := removeMessages_sublist true p ms
    have hrest := goesWith_of_removed true q (hids.sublist (hsub.map _)) hfirst hgone
    exact hrest.mono hsub.subset hq
  · exact goesWith_of_removed true p hids hm hfirst

theorem goesWith_of_dropConv (hids : (db.messages.map (·.id)).Nodup) (hm : m ∈ db.messages)
    (hgone : m ∉ (db.dropConv fk id).messages) :
    GoesWith db.messages fk (·.convId = some id) m := by
  cases fk with
  | false =>
    exact (goesWith_of_removed false (·.convId = some id) hids hm hgone).mono (fun _ h => h)
      fun _ h => of_decide_eq_true h
  | true =>
    rw [dropConv_messages_true] at hgone
    refine (goesWith_of_passes hids ?_ hm hgone).mono (fun _ h => h) fun _ h => of_decide_eq_true h
    -- only this conversation is dropped
    intro m' hm'
    obtain ⟨k, hk, hdropped⟩ := (Option.any_eq_true _ _).mp hm'
    simp [hk, id_of_mem_filter (of_decide_eq_true hdropped)]

theorem goesWith_of_dropChat (hids : (db.messages.map (·.id)).Nodup) (hm : m ∈ db.messages)
    (hgone : m ∉ (db.dropChat fk id).messages) :
    GoesWith db.messages fk (·.chatId = some id) m := by
  cases fk with
  | false =>
    exact (goesWith_of_removed false (·.chatId = some id) hids hm hgone).mono (fun _ h => h)
      fun _ h => of_decide_eq_true h
  | true =>
    rw [dropChat_messages_true] at hgone
    refine (goesWith_of_passes hids ?_ hm hgone).mono (fun _ h => h) fun _ h => of_decide_eq_true h
    intro m' hm'
    obtain ⟨k, hk, hdropped⟩ := (Option.any_eq_true _ _).mp hm'
    simp [hk, id_of_mem_filter (of_decide_eq_true hdropped)]

end Db

/-! ## Requests that keep them in step -/

/-- The request keeps files and messages in step: no message that it deletes, or removes
    with a room, is one of a file. -/
def Request.KeepsFiles (req : Request) (c : Conn) : Prop :=
  match req.route with
  | some (.msgDelete rm) => ∀ m ∈ c.db.messages, m.id = rm.msgId.toNat →
      c.db.Readable m req.header.userId.toNat → ¬ m.IsFile
  | some (.convDrop rconv) => c.db.ConvAdmin rconv.convId.toNat req.header.userId.toNat →
      ∀ m, GoesWith c.db.messages c.fk (·.convId = some rconv.convId.toNat) m → ¬ m.IsFile
  | some (.chatDrop rchat) => c.db.ChatMember rchat.chatId.toNat req.header.userId.toNat →
      ∀ m, GoesWith c.db.messages c.fk (·.chatId = some rchat.chatId.toNat) m → ¬ m.IsFile
  | _ => True

def Stored.KeepsFiles (x : Stored) : Prop :=
  ∀ r, x.served.req = some r → r.KeepsFiles x.served.pre

/-- No upload has failed: the message of a file that was created is stored. -/
def Stored.Uploaded (x : Stored) : Prop :=
  (∃ path, .create path ∈ x.ops) → x.served.out.Created

section Steps

variable {files files' : Finset CStr} {c c' : Conn} {env : Env} {out : Handled} {ops : List FileOp}

theorem Change.convDrop_cases {header : RequestHeader} {rconv : RequestConv}
    (h : Change header (.convDrop rconv) c c') :
    c'.db = c.db ∨ c.db.ConvAdmin rconv.convId.toNat header.userId.toNat ∧
      c'.db = c.db.dropConv c.fk rconv.convId.toNat := by
  cases h with
  | unchanged h => exact Or.inl h
  | convDropped hadmin h => exact Or.inr ⟨hadmin, h⟩

theorem Change.chatDrop_cases {header : RequestHeader} {rchat : RequestChat}
    (h : Change header (.chatDrop rchat) c c') :
    c'.db = c.db ∨ c.db.ChatMember rchat.chatId.toNat header.userId.toNat ∧
      c'.db = c.db.dropChat c.fk rchat.chatId.toNat := by
  cases h with
  | unchanged h => exact Or.inl h
  | chatDropped hmember h => exact Or.inr ⟨hmember, h⟩

/-- Messages go with a room. -/
theorem InStep.dropped (h : InStep files c.db.messages) (hids : RoomIds c.db)
    (hsub : c'.db.messages.Sublist c.db.messages) {p : MsgRow → Prop}
    (hgone : ∀ m ∈ c.db.messages, m ∉ c'.db.messages → GoesWith c.db.messages c.fk p m)
    (hkeep : ∀ m, GoesWith c.db.messages c.fk p m → ¬ m.IsFile) : InStep files c'.db.messages := by
  refine h.removed hsub (List.Nodup.of_map _ hids.messages_nodup) fun m hm hfile => ?_
  by_contra hnot
  exact hkeep m (hgone m hm hnot) hfile

/-- What requests other than `msg_send` do to the messages. -/
theorem InStep.changed (h : InStep files c.db.messages) (hids : RoomIds c.db) {req : Request}
    {route : Route} (hroute : req.route = some route) (hnotsend : ∀ rm, route ≠ .msgSend rm)
    (hchange : Change req.header route c c') (hkeep : req.KeepsFiles c) :
    InStep files c'.db.messages := by
  rw [Request.KeepsFiles, hroute] at hkeep
  rcases hchange.messages with ⟨⟨rconv, rfl⟩ | ⟨rchat, rfl⟩, hsub⟩ | hsame | ⟨rm, -, -, hsend, -⟩ |
    ⟨rm, m, hm, hid, hread, ⟨-, hdb⟩ | ⟨hdelete, hdb⟩⟩
  · rcases hchange.convDrop_cases with hdb | ⟨hadmin, hdb⟩
    · rwa [hdb]
    · exact h.dropped hids hsub
        (fun m hm hgone => Db.goesWith_of_dropConv hids.messages_nodup hm (hdb ▸ hgone))
        (hkeep hadmin)
  · rcases hchange.chatDrop_cases with hdb | ⟨hmember, hdb⟩
    · rwa [hdb]
    · exact h.dropped hids hsub
        (fun m hm hgone => Db.goesWith_of_dropChat hids.messages_nodup hm (hdb ▸ hgone))
        (hkeep hmember)
  · rwa [hsame]
  · exact absurd hsend (hnotsend rm)
  · rw [hdb]
    refine h.rewritten (fun m' _ => ?_) fun m' hm' hfile => ?_
    · split <;> rfl
    · split
      · exact ⟨rfl, by simp⟩
      · exact ⟨rfl, h.present m' hm' hfile⟩
  · -- the message that loses its content is not of a file
    subst hdelete
    rw [hdb]
    refine h.rewritten (fun m' _ => ?_) fun m' hm' hfile => ?_
    · split <;> rfl
    · split
      · rename_i hid'
        obtain rfl : m' = m :=
          eq_of_id_eq hids.messages_nodup hm' hm ((by simpa using hid' : m'.id = _).trans hid.symm)
        exact absurd hfile (hkeep m' hm hid hread)
      · exact ⟨rfl, h.present m' hm' hfile⟩

/-- A message is sent. -/
theorem InStep.sent (h : InStep files c.db.messages) {header : RequestHeader} {rm : RequestMsgBody}
    {msg : MsgSchema} {n : Nat} (hmsg : Composed env header rm msg ops)
    (hsends : msg.Sends env.now c.db c'.db n) (hops : runOps ops files = some files') :
    InStep files' c'.db.messages := by
  rw [hsends.messages]
  cases hmsg with
  | text htype hs =>
    cases hops
    refine h.addText ?_
    show ¬ header.contentType.toUInt32.toInt32.toInt = msgFile.toNat
    rw [htype]
    decide
  | @file s path htype hs hpath =>
    simp only [runOps, FileOp.run] at hops
    by_cases hthere : path ∈ files
    · simp [hthere] at hops
    · simp only [if_neg hthere, Option.some.injEq] at hops
      subst hops
      refine h.addFile ?_ ?_ rfl hthere
      · show header.contentType.toUInt32.toInt32.toInt = msgFile.toNat
        rw [htype]
        decide
      · show MsgType.sent ≠ .deleted
        decide

theorem InStep.step (h : InStep files c.db.messages) (hids : RoomIds c.db) (hidle : c.saved = none)
    {req : Option Request} (hquote : ∀ r ∈ req, r.QuoteFree)
    (hkeep : ∀ r, req = some r → r.KeepsFiles c)
    (hupload : (∃ path, .create path ∈ ops) → out.Created)
    (hrun : Runs Answers c (handleReqFiles env req) c' (out, ops))
    (hops : runOps ops files = some files') : InStep files' c'.db.messages := by
  -- nothing was stored, and so no file was created
  have hnone : DismissedFiles c c' out ops → InStep files' c'.db.messages := by
    rintro ⟨⟨hsame, huncreated⟩, hnofile⟩
    obtain rfl := hnofile.resolve_right fun hcreate => huncreated (hupload hcreate)
    cases hops
    rwa [hsame]
  cases req with
  | none =>
    obtain ⟨hdismissed, hnofile⟩ := dismissed_withFiles hrun
    exact hnone ⟨hdismissed, Or.inl hnofile⟩
  | some r =>
    simp only [handleReqFiles] at hrun
    split at hrun
    · obtain ⟨hdismissed, hnofile⟩ := dismissed_withFiles hrun
      exact hnone ⟨hdismissed, Or.inl hnofile⟩
    cases hroute : r.route with
    | none =>
      rw [hroute] at hrun
      obtain ⟨hret, rfl⟩ := runs_withFiles hrun
      obtain ⟨rfl, -⟩ := runs_ret.mp hret
      cases hops
      exact h
    | some route =>
      rw [hroute] at hrun
      have hfree : ∀ s ∈ route.strings, quote ∉ s.bytes :=
        fun s hs => hquote r rfl s (Request.mem_strings_of_route hroute hs)
      by_cases hsend : ∃ rm, route = .msgSend rm
      · obtain ⟨rm, rfl⟩ := hsend
        rcases runs_handleMsgSendFiles hfree hidle hrun with hdismissed | ⟨msg, n, hmsg, hsends, -⟩
        · exact hnone hdismissed
        · exact h.sent hmsg hsends hops
      · -- the other handlers leave the directory alone
        have hnotsend : ∀ rm, route ≠ .msgSend rm := fun rm heq => hsend ⟨rm, heq⟩
        have hplain : Runs Answers c (route.handle env r.header) c' out ∧ ops = [] := by
          cases route with
          | msgSend rm => exact absurd rfl (hnotsend rm)
          | _ => exact runs_withFiles hrun
        obtain ⟨hhandle, rfl⟩ := hplain
        cases hops
        exact h.changed hids hroute hnotsend (Route.change hfree hidle hhandle).2 (hkeep r rfl)

end Steps

/-- Over a whole run. -/
theorem StorageRun.inStep {log : List Stored} {files : Finset CStr} {c : Conn}
    (h : StorageRun log files c) (hupload : ∀ x ∈ log, x.Uploaded)
    (hkeep : ∀ x ∈ log, x.KeepsFiles) : InStep files c.db.messages := by
  induction h with
  | start => exact ⟨by simp, rfl, List.nodup_nil⟩
  | @request log files files' c c' env req out ops hprev hquote hrun hops ih =>
    have hprior := ih (fun x hx => hupload x (List.mem_append_left _ hx))
      fun x hx => hkeep x (List.mem_append_left _ hx)
    have hlast : (⟨⟨req, c, c', out, false⟩, ops⟩ : Stored) ∈
        log ++ [⟨⟨req, c, c', out, false⟩, ops⟩] := by simp
    exact hprior.step hprev.session.inv.2 hprev.session.inv.1 hquote (hkeep _ hlast)
      (hupload _ hlast) hrun hops
  | restart hprev ih =>
    rw [hprev.session.restart_db]
    exact ih hupload hkeep

/-- In every state of a run in which no upload fails, and no message of a file is deleted or
    removed with a room: the files under `./storage` are those that the file messages
    name, each by one message. -/
theorem files_correspond {log : List Stored} {files : Finset CStr} {c : Conn}
    (h : StorageRun log files c) (hupload : ∀ x ∈ log, x.Uploaded)
    (hkeep : ∀ x ∈ log, x.KeepsFiles) : Correspond files c.db :=
  (h.inStep hupload hkeep).correspond

/-! ## A picture -/

namespace StorageRun

/-- Run requests with at most `fuel` calls each, none of which fails. -/
def play (fuel : Nat) : List (Env × Request) → List Stored × Finset CStr × Conn →
    Option (List Stored × Finset CStr × Conn)
  | [], x => some x
  | (env, req) :: reqs, (log, files, c) =>
    if req.QuoteFree then
      match execute serve fuel c (handleReqFiles env (some req)) with
      | some (c', out, ops) =>
        match runOps ops files with
        | some files' => play fuel reqs (log ++ [⟨⟨some req, c, c', out, false⟩, ops⟩], files', c')
        | none => none
      | none => none
    else none

theorem of_play {fuel : Nat} {reqs : List (Env × Request)} {log : List Stored}
    {files : Finset CStr} {c : Conn} {x : List Stored × Finset CStr × Conn}
    (hprev : StorageRun log files c) (h : play fuel reqs (log, files, c) = some x) :
    StorageRun x.1 x.2.1 x.2.2 := by
  induction reqs generalizing log files c with
  | nil =>
    cases h
    exact hprev
  | cons r reqs ih =>
    unfold play at h
    split at h
    · rename_i hquote
      split at h
      · rename_i c' out ops hexec
        split at h
        · rename_i files' hops
          refine ih (hprev.request ?_ (runs_of_execute answers_of_serve hexec) hops) h
          rintro _ ⟨⟩
          exact hquote
        · cases h
      · cases h
    · cases h

end StorageRun

/-- User 1 sends a picture to the chat. -/
def pictureRequest : Request where
  header := { group := 4, action := 2, contentType := msgFile, contentLen := 5000, bodyLen := 19,
              token := emptyToken.bytes, userId := 1, limit := 10, offset := 0 }
  body := .msg { chatId := 1, msgContent := some (.ofBytes (ascii "cat.png")) }

/-- Users 1 and 2 have a chat with a picture in it. -/
def albumRequests : List Request :=
  [registerAs "an", registerAs "bo", requestBy 1 3 0 (.chat { userId2 := 2 }), pictureRequest]

/-- The run of the requests above, followed by some more. -/
def albumPlay (reqs : List Request) : Option (List Stored × Finset CStr × Conn) :=
  StorageRun.play 32 ((albumRequests ++ reqs).map (lobbyEnv, ·)) ([], ∅, { db := {} })

theorem albumPlay_run {reqs : List Request} {x : List Stored × Finset CStr × Conn}
    (h : albumPlay reqs = some x) : StorageRun x.1 x.2.1 x.2.2 :=
  StorageRun.of_play .start h

/-- An upload can be seen to have succeeded. -/
theorem Stored.uploaded_of {x : Stored}
    (h : x.ops = [] ∨ x.served.out.sent = [.msgSend 201 1]) : x.Uploaded := by
  rintro ⟨path, hpath⟩
  rcases h with h | h
  · rw [h] at hpath
    cases hpath
  · exact ⟨1, by rw [h]; simp⟩

theorem albumRequests_keep {r : Request} (hr : r ∈ albumRequests) (c : Conn) : r.KeepsFiles c := by
  simp only [albumRequests, List.mem_cons, List.not_mem_nil, or_false] at hr
  rcases hr with rfl | rfl | rfl | rfl
  · trivial
  · trivial
  · trivial
  · trivial

/-- The picture is there, and its message names it. -/
theorem files_correspond_album :
    ∃ log files c, StorageRun log files c ∧ files.card = 1 ∧ Correspond files c.db := by
  have hplay : (albumPlay []).any (fun x =>
      decide ((∀ y ∈ x.1, (y.ops = [] ∨ y.served.out.sent = [.msgSend 201 1]) ∧
        y.served.req ∈ albumRequests.map some) ∧ x.2.1.card = 1)) = true := by
    decide +kernel
  obtain ⟨⟨log, files, c⟩, hrun, hfacts⟩ := (Option.any_eq_true _ _).mp hplay
  obtain ⟨hlog, hcard⟩ := of_decide_eq_true hfacts
  have hkeep : ∀ x ∈ log, x.KeepsFiles := by
    intro x hx r hreq
    obtain ⟨r', hr', heq⟩ := List.mem_map.mp (hlog x hx).2
    obtain rfl : r' = r := Option.some.inj (heq.trans hreq)
    exact albumRequests_keep hr' _
  exact ⟨log, files, c, albumPlay_run hrun, hcard, files_correspond (albumPlay_run hrun)
    (fun x hx => Stored.uploaded_of (hlog x hx).1) hkeep⟩

/-- User 1 deletes the message of the picture: the file is left. -/
theorem deleted_picture_left :
    ∃ log files c, StorageRun log files c ∧ (∀ x ∈ log, x.Uploaded) ∧ files.card = 1 ∧
      c.db.storedPaths = [] ∧ ¬ Correspond files c.db := by
  have hplay : (albumPlay [requestBy 1 4 3 (.msg { msgId := 1 })]).any (fun x =>
      decide ((∀ y ∈ x.1, y.ops = [] ∨ y.served.out.sent = [.msgSend 201 1]) ∧ x.2.1.card = 1 ∧
        x.2.2.db.storedPaths = [])) = true := by
    decide +kernel
  obtain ⟨⟨log, files, c⟩, hrun, hfacts⟩ := (Option.any_eq_true _ _).mp hplay
  obtain ⟨hlog, hcard, hnone⟩ := of_decide_eq_true hfacts
  refine ⟨log, files, c, albumPlay_run hrun, fun x hx => Stored.uploaded_of (hlog x hx), hcard, hnone,
    fun hsame => ?_⟩
  have hempty := hsame.same
  rw [show c.db.storedPaths = [] from hnone] at hempty
  rw [show files = ∅ from hempty] at hcard
  cases hcard

end MeshChat
