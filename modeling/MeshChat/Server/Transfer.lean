import MeshChat.Server.Absent
import MeshChat.Server.Formats
import MeshChat.Server.Upload

/-! # From one client to another

    A file goes through three loops: `_send_msg_file` of the client reads and sends it,
    `handle_msg_send` receives and stores it, `handle_msg_download_file` reads and sends it
    again.

    * `clientSendLoop`, `downloadLoop`: the two loops that send.
    * `handleMsgDownloadFilePath`: the handler with the file that it sends behind the frame.
    * `Disk`: the contents of the files. `Serving`: requests between two states of the server,
      with the files.
    * `Segmentation`: a way to cut the bytes of a file into reads.
    * `upload_download`: what is downloaded is what was uploaded.
-/

namespace MeshChat

open CMemory SqlLex Prog

/-! ## The loops that send -/

/-- One round of `_send_msg_file`. -/
structure SendRound where
  /-- `read` returns at most so many bytes; `none` is an error. -/
  read : Option Nat
  /-- The result of `write`. -/
  written : Int

/-- The while loop of `_send_msg_file`: the bytes that it puts on the socket. `none` is a loop
    that still runs when the rounds are over. -/
def clientSendLoop (unsent : List UInt8) : List SendRound → Option (List UInt8)
  | [] => none
  | r :: rounds =>
    match r.read with
    -- an error of `read` ends the loop, and `_send_msg_file` does not tell
    | none => some []
    | some n =>
      let chunk := unsent.take (min n bufsiz)
      if chunk.length = 0 then some []
      else if r.written ≠ chunk.length then some (chunk.take r.written.toNat)
      else (clientSendLoop (unsent.drop (min n bufsiz)) rounds).map (chunk ++ ·)

/-- One round of `handle_msg_download_file`. -/
structure DownloadRound where
  /-- `read` returns at most so many bytes; `none` is an error. -/
  read : Option Nat
  /-- The result of `poll`, and whether `revents` is `POLLOUT`. -/
  pollRc : Int := 1
  pollout : Bool := true
  /-- The result of `write`. -/
  written : Int

/-- The do-while loop of `handle_msg_download_file`; `fsize` is the number of bytes to come. -/
def downloadLoop (fsize : Int) (unsent : List UInt8) : List DownloadRound → Option (List UInt8)
  | [] => none
  | r :: rounds =>
    match r.read with
    | none => some []
    | some n =>
      let chunk := unsent.take (min n bufsiz)
      -- here too the timeout is tested second
      if r.pollRc < 0 ∨ r.pollout = false then some []
      else if r.pollRc = 0 then some []
      else if r.written ≠ chunk.length then some (chunk.take r.written.toNat)
      else
        let fsize := fsize - chunk.length
        if fsize ≤ 0 then some chunk
        else if 0 < chunk.length then
          (downloadLoop fsize (unsent.drop (min n bufsiz)) rounds).map (chunk ++ ·)
        else some chunk

/-! ## Every segmentation -/

/-- A way to read `n` bytes in pieces of 1 to `BUFSIZ` bytes. -/
structure Segmentation (n : Nat) where
  pieces : List Nat
  sizes : ∀ k ∈ pieces, 1 ≤ k ∧ k ≤ bufsiz
  total : pieces.sum = n

namespace Segmentation

variable {n : Nat} (segs : Segmentation n)

/-- The reads of the client, the last of which finds the end of the file. -/
def sendRounds : List SendRound :=
  segs.pieces.map (fun k => ⟨some k, k⟩) ++ [⟨some bufsiz, 0⟩]

def uploadRounds : List Round := segs.pieces.map fun k => ⟨1, true, .data k, k⟩

def downloadRounds : List DownloadRound := segs.pieces.map fun k => ⟨some k, 1, true, k⟩

end Segmentation

/-- A piece of the right size is read as a whole. -/
theorem take_piece {data : List UInt8} {k : Nat} {ks : List Nat} (hk : k ≤ bufsiz)
    (htotal : (k :: ks).sum = data.length) :
    min k bufsiz = k ∧ (data.take k).length = k ∧ ks.sum = (data.drop k).length ∧
      (data.drop k).length + k = data.length := by
  rw [List.sum_cons] at htotal
  rw [List.length_take, List.length_drop]
  omega

theorem clientSendLoop_pieces {data : List UInt8} {ks : List Nat}
    (hsizes : ∀ k ∈ ks, 1 ≤ k ∧ k ≤ bufsiz) (htotal : ks.sum = data.length) :
    clientSendLoop data (ks.map (fun k => ⟨some k, k⟩) ++ [⟨some bufsiz, 0⟩]) = some data := by
  -- over the pieces: the loop ends with the read that returns 0
  induction ks generalizing data with
  | nil =>
    obtain rfl := List.eq_nil_of_length_eq_zero htotal.symm
    rfl
  | cons k ks ih =>
    obtain ⟨hone, hk⟩ := hsizes k List.mem_cons_self
    obtain ⟨hmin, hlength, hrest, -⟩ := take_piece hk htotal
    rw [List.map_cons, List.cons_append, clientSendLoop]
    dsimp only
    rw [hmin, hlength, if_neg (by omega), if_neg (by simp),
      ih (fun j hj => hsizes j (List.mem_cons_of_mem _ hj)) hrest, Option.map_some,
      List.take_append_drop]

theorem receiveLoop_pieces {data file : List UInt8} {ks : List Nat}
    (hsizes : ∀ k ∈ ks, 1 ≤ k ∧ k ≤ bufsiz) (htotal : ks.sum = data.length)
    (hdata : 0 < data.length) :
    receiveLoop data.length data file (ks.map fun k => ⟨1, true, .data k, k⟩) =
      some (.received, ⟨[], some (file ++ data)⟩) := by
  -- over the pieces: the loop ends with the last piece, when nothing is missing
  induction ks generalizing data file with
  | nil => exact absurd htotal (by simp only [List.sum_nil]; omega)
  | cons k ks ih =>
    obtain ⟨hone, hk⟩ := hsizes k List.mem_cons_self
    obtain ⟨hmin, hlength, hrest, hsum⟩ := take_piece hk htotal
    rw [List.map_cons, receiveLoop, if_neg (by simp), if_neg (by simp)]
    dsimp only
    rw [hmin, hlength, if_neg (by omega), if_neg (by simp)]
    by_cases hlast : data.length = k
    · rw [if_pos (by omega)]
      rw [List.take_of_length_le hlast.le, List.drop_of_length_le hlast.le]
    · have hcast : (data.length : Int) - k = ((data.drop k).length : Nat) := by omega
      rw [if_neg (by omega), if_pos (by omega), hcast,
        ih (fun j hj => hsizes j (List.mem_cons_of_mem _ hj)) hrest (by omega),
        List.append_assoc, List.take_append_drop]

theorem downloadLoop_pieces {data : List UInt8} {ks : List Nat}
    (hsizes : ∀ k ∈ ks, 1 ≤ k ∧ k ≤ bufsiz) (htotal : ks.sum = data.length)
    (hdata : 0 < data.length) :
    downloadLoop data.length data (ks.map fun k => ⟨some k, 1, true, k⟩) = some data := by
  induction ks generalizing data with
  | nil => exact absurd htotal (by simp only [List.sum_nil]; omega)
  | cons k ks ih =>
    obtain ⟨hone, hk⟩ := hsizes k List.mem_cons_self
    obtain ⟨hmin, hlength, hrest, hsum⟩ := take_piece hk htotal
    rw [List.map_cons, downloadLoop]
    dsimp only
    rw [hmin, hlength, if_neg (by simp), if_neg (by simp), if_neg (by simp)]
    by_cases hlast : data.length = k
    · rw [if_pos (by omega), List.take_of_length_le hlast.le]
    · have hcast : (data.length : Int) - k = ((data.drop k).length : Nat) := by omega
      rw [if_neg (by omega), if_pos (by omega), hcast,
        ih (fun j hj => hsizes j (List.mem_cons_of_mem _ hj)) hrest (by omega),
        Option.map_some, List.take_append_drop]

/-! ## The handler of downloads -/

/-- A handler that opens this file behind its answer. -/
def withPath (path : Option CStr) (p : SqlProg Handled) : SqlProg (Handled × Option CStr) :=
  (·, path) <$> p

/-- The membership check of the message handlers, `ifRoomMember`. -/
def ifRoomMemberPath (convId chatId userId : UInt32) (action : UInt8)
    (k : SqlProg (Handled × Option CStr)) : SqlProg (Handled × Option CStr) := do
  let (isMember, rc) ← convIsMember convId userId
  if sqlIsErr rc then withPath none (responseErr 500 4 action)
  else if isMember then k
  else
    let (isMember, rc) ← chatIsMember chatId userId
    if sqlIsErr rc then withPath none (responseErr 500 4 action)
    else if isMember then k
    else withPath none (responseErr 403 4 action)

/-- `handle_msg_download_file`, with the file that it sends behind the frame. -/
def handleMsgDownloadFilePath (header : RequestHeader) (rm : RequestMsgBody) :
    SqlProg (Handled × Option CStr) := do
  let (msg, rc) ← msgGetDetail rm.msgId
  if sqlIsErr rc then withPath none (responseErr 500 4 6)
  else if rc = .empty then withPath none (responseErr 404 4 6)
  else
    match msg with
    | none => withPath none undefinedBehaviour
    | some msg =>
      ifRoomMemberPath msg.convId msg.chatId header.userId 6
        (if msg.contentType.toInt ≠ msgFile.toNat then withPath none (responseErr 400 4 6)
        else if msg.content.strlen < storage.length then withPath none undefinedBehaviour
        else withPath (some msg.content) (respond (.msgDownloadFile 200 msg.contentLength
          (.ofBytes (msg.content.bytes.drop storage.length)))))

theorem withPath_fst (path : Option CStr) (p : SqlProg Handled) :
    Prod.fst <$> withPath path p = p := by
  rw [withPath, map_eq_bind, map_eq_bind, bind_assoc]
  exact bind_ret_self p

theorem ifRoomMemberPath_fst {convId chatId userId : UInt32} {action : UInt8}
    {k : SqlProg (Handled × Option CStr)} {k' : SqlProg Handled} (hk : Prod.fst <$> k = k') :
    Prod.fst <$> ifRoomMemberPath convId chatId userId action k =
      ifRoomMember convId chatId userId action k' := by
  simp only [ifRoomMemberPath, ifRoomMember]
  rw [map_eq_bind, bind_assoc]
  congr 1
  funext x
  -- the path is only carried along, branch for branch
  refine ite_fst (withPath_fst ..) (ite_fst hk ?_)
  rw [map_eq_bind, bind_assoc]
  congr 1
  funext y
  exact ite_fst (withPath_fst ..) (ite_fst hk (withPath_fst ..))

/-- It is the handler. -/
theorem handleMsgDownloadFilePath_fst (header : RequestHeader) (rm : RequestMsgBody) :
    Prod.fst <$> handleMsgDownloadFilePath header rm = handleMsgDownloadFile header rm := by
  simp only [handleMsgDownloadFilePath, handleMsgDownloadFile, ifReadable]
  rw [map_eq_bind, bind_assoc]
  congr 1
  funext x
  refine ite_fst (withPath_fst ..) (ite_fst (withPath_fst ..) ?_)
  cases x.1 with
  | none => exact withPath_fst ..
  | some msg =>
    refine ifRoomMemberPath_fst (ite_fst (withPath_fst ..) ?_)
    exact ite_fst (withPath_fst ..) (withPath_fst ..)

/-- Membership of either room passes the guard. -/
theorem served_ifRoomMemberPath {c c' : Conn} {convId chatId userId : UInt32} {action : UInt8}
    {k : SqlProg (Handled × Option CStr)} {x : Handled × Option CStr}
    (hroom : c.db.ConvMember convId.toNat userId.toNat ∨
      c.db.ChatMember chatId.toNat userId.toNat)
    (hk : Runs Serves c k c' x) :
    Runs Serves c (ifRoomMemberPath convId chatId userId action k) c' x := by
  rw [ifRoomMemberPath, runs_bind]
  by_cases hconv : c.db.ConvMember convId.toNat userId.toNat
  · exact ⟨c, _, served_sqlExists (convMember_rows.mpr hconv), hk⟩
  · -- the first query is served without a row, and the second one decides
    have hchat := hroom.resolve_left hconv
    have hnone : (Query.convMember convId.toNat userId.toNat).rows c.db = [] :=
      not_not.mp fun hrows => hconv (convMember_rows.mp hrows)
    refine ⟨c, _, served_sqlExists_none ⟨by simp, rfl, rfl⟩ hnone, runs_bind.mpr ?_⟩
    exact ⟨c, _, served_sqlExists (chatMember_rows.mpr hchat), hk⟩

/-- A file message that may be read is announced, and its file is opened. -/
theorem served_download {c : Conn} {header : RequestHeader} {rm : RequestMsgBody} {m : MsgRow}
    (hm : (c.db.messages.filter (·.id = rm.msgId.toNat))[0]? = some m)
    (hread : c.db.Readable m header.userId.toNat) (hfile : m.contentType = 1)
    (hcontent : storage.length ≤ m.content.strlen) :
    Runs Serves c (handleMsgDownloadFilePath header rm) c
      ({ sent := [.msgDownloadFile 200 (UInt32.ofNat m.contentLength)
          (.ofBytes (m.content.bytes.drop storage.length))] }, some m.content) := by
  have hrow : ((Query.messageById rm.msgId.toNat).rows c.db)[0]? = some m.cols := by
    simp [Query.rows, hm]
  simp only [handleMsgDownloadFilePath, msgGetDetail, runs_bind]
  refine ⟨_, _, served_sqlGetInfo ⟨by simp, rfl, rfl⟩ _, ?_⟩
  rw [Query.first, hrow]
  -- the columns of the row are the fields of the schema
  have hmember : Runs Serves c (ifRoomMemberPath (m.schema rm.msgId).convId
      (m.schema rm.msgId).chatId header.userId 6
      (if (m.schema rm.msgId).contentType.toInt ≠ msgFile.toNat then
          withPath none (responseErr 400 4 6)
        else if (m.schema rm.msgId).content.strlen < storage.length then
          withPath none undefinedBehaviour
        else withPath (some (m.schema rm.msgId).content)
          (respond (.msgDownloadFile 200 (m.schema rm.msgId).contentLength
            (.ofBytes ((m.schema rm.msgId).content.bytes.drop storage.length)))))) c
      ({ sent := [.msgDownloadFile 200 (UInt32.ofNat m.contentLength)
          (.ofBytes (m.content.bytes.drop storage.length))] }, some m.content) := by
    have htype : (m.schema rm.msgId).contentType.toInt = msgFile.toNat := by
      show (Val.int m.contentType).columnInt.toInt32.toInt = msgFile.toNat
      rw [hfile]
      decide
    have hlong : ¬ (m.schema rm.msgId).content.strlen < storage.length := not_lt.mpr hcontent
    refine served_ifRoomMemberPath hread ?_
    rw [if_neg (not_not.mpr htype), if_neg hlong]
    exact runs_map.mpr ⟨_, .ret _ _, rfl⟩
  simpa [sqlIsErr, sqlIsOk, MsgRow.cols, MsgRow.schema, Val.columnText] using hmember

/-! ## The files and their contents -/

/-- The files under `./storage`. -/
abbrev Disk : Type := CStr → Option (List UInt8)

/-- What a call does to the files; `content` is what is written to a file that is created. -/
def FileOp.write (content : List UInt8) (disk : Disk) : FileOp → Option Disk
  | create path =>
    if disk path = none then some (Function.update disk path (some content)) else none
  | remove path => some (Function.update disk path none)

def writeOps (content : List UInt8) : List FileOp → Disk → Option Disk
  | [], disk => some disk
  | op :: ops, disk => (op.write content disk).bind (writeOps content ops)

/-- A file that is there is neither written nor removed. -/
theorem Tidy.keeps {ops : List FileOp} (h : Tidy ops) {content : List UInt8} {disk disk' : Disk}
    (hops : writeOps content ops disk = some disk') {path : CStr} {data : List UInt8}
    (hfile : disk path = some data) : disk' path = some data := by
  -- `O_EXCL`: a new file is none of those that are there
  have hother : ∀ {new : CStr}, disk new = none → path ≠ new := by
    rintro new hnew rfl
    rw [hfile] at hnew
    cases hnew
  cases h with
  | nothing =>
    cases hops
    exact hfile
  | kept new =>
    simp only [writeOps, FileOp.write] at hops
    split at hops
    · rename_i hnew
      cases hops
      rwa [Function.update_of_ne (hother hnew)]
    · cases hops
  | removed new =>
    simp only [writeOps, FileOp.write] at hops
    split at hops
    · rename_i hnew
      cases hops
      rwa [Function.update_of_ne (hother hnew), Function.update_of_ne (hother hnew)]
    · cases hops

/-- Requests from one state of the server to another, with restarts between them. `kept` holds
    in every state on the way. -/
inductive Serving (kept : Conn → Prop) (disk₀ : Disk) (c₀ : Conn) : Disk → Conn → Prop
  | start (hkept : kept c₀) : Serving kept disk₀ c₀ disk₀ c₀
  | request {disk disk' : Disk} {c c' : Conn} {env : Env} {req : Option Request} {out : Handled}
      {ops : List FileOp} {content : List UInt8} (hprev : Serving kept disk₀ c₀ disk c)
      (hquote : ∀ r ∈ req, r.QuoteFree)
      (hrun : Runs Answers c (handleReqFiles env req) c' (out, ops))
      (hops : writeOps content ops disk = some disk') (hkept : kept c') :
      Serving kept disk₀ c₀ disk' c'
  | restart {disk : Disk} {c : Conn} (hprev : Serving kept disk₀ c₀ disk c) :
      Serving kept disk₀ c₀ disk { db := c.saved.getD c.db }

/-- What any request does to the directory. -/
theorem tidy_of_runs {c c' : Conn} {env : Env} {req : Option Request} {out : Handled}
    {ops : List FileOp} (hidle : c.saved = none) (hquote : ∀ r ∈ req, r.QuoteFree)
    (h : Runs Answers c (handleReqFiles env req) c' (out, ops)) : Tidy ops := by
  have hnothing : ∀ {p}, Runs Answers c (withFiles [] p) c' (out, ops) → Tidy ops := by
    intro p h
    rw [(runs_withFiles h).2]
    exact .nothing
  cases req with
  | none => exact hnothing h
  | some r =>
    simp only [handleReqFiles] at h
    split at h
    · exact hnothing h
    cases hroute : r.route with
    | none =>
      rw [hroute] at h
      exact hnothing h
    | some route =>
      rw [hroute] at h
      cases route with
      | msgSend rm =>
        by_cases hfile : r.header.contentType = msgFile
        swap
        · rw [ops_of_not_file hfile h]
          exact .nothing
        cases hcontent : rm.msgContent with
        | none =>
          simp only [Route.handleFiles, handleMsgSendFiles, hcontent] at h
          exact hnothing h
        | some content =>
          have hfree : quote ∉ content.bytes := hquote r rfl content
            (Request.mem_strings_of_route hroute (by simp [Route.strings, RequestBody.strings, hcontent]))
          rcases runs_receive hfile hcontent (fun _ hmem => hfree (mem_of_mem_keptSuffix hmem)) hidle
            h with
            ⟨-, rfl⟩ | ⟨path, -, htaken⟩
          · exact .nothing
          · exact htaken.tidy
      | _ => exact hnothing h

/-- There is a message of that id that is not deleted. -/
def Conn.HasUndeleted (c : Conn) (id : Nat) : Prop :=
  ∃ m ∈ c.db.messages, m.id = id ∧ m.type ≠ .deleted

/-- The message is still the same, but for its type. -/
def Conn.Keeps (c : Conn) (m : MsgRow) : Prop := ∃ type, { m with type } ∈ c.db.messages

/-- A message that is not deleted is kept. -/
theorem Conn.Keeps.step {log : List Served} {c c' : Conn} {m : MsgRow} (h : c.Keeps m)
    (hsession : Session True log c) {env : Env} {req : Option Request} {out : Handled}
    (hquote : ∀ r ∈ req, r.QuoteFree) (hrun : Runs Answers c (handleReq env req) c' out)
    (hkept : c'.HasUndeleted m.id) : c'.Keeps m := by
  obtain ⟨type, hm⟩ := h
  have heffect : Served.Effective ⟨req, c, c', out, false⟩ := hsession.effective hquote hrun
  obtain ⟨log', hnext⟩ := hsession.next hquote hrun
  obtain ⟨m', hm', hid', htype'⟩ := hkept
  rcases heffect.message hsession.inv.2 hm ⟨m', hm', hid'⟩ with hsame | ⟨-, hread⟩ | ⟨-, hdeleted⟩
  · exact ⟨type, hsame⟩
  · exact ⟨.delivered, hread⟩
  · -- ids are unique, so that the message would be a deleted one
    obtain rfl := eq_of_id_eq hnext.inv.2.messages_nodup hm' hdeleted hid'
    exact absurd rfl htype'

/-- The message stays if it is not deleted. -/
theorem Serving.keeps {log : List Served} {disk₀ disk : Disk} {c₀ c : Conn} {m : MsgRow}
    (h : Serving (·.HasUndeleted m.id) disk₀ c₀ disk c) (hsession : Session True log c₀)
    (hm : m ∈ c₀.db.messages) : (∃ log', Session True log' c) ∧ c.Keeps m := by
  induction h with
  | start _ => exact ⟨⟨log, hsession⟩, ⟨m.type, hm⟩⟩
  | @request disk disk' c c' env req out ops content _ hquote hrun hops hkept ih =>
    obtain ⟨⟨log', hsession'⟩, hkeeps⟩ := ih
    have hplain : Runs Answers c (handleReq env req) c' out := runs_of_files hrun
    exact ⟨hsession'.next hquote hplain, hkeeps.step hsession' hquote hplain hkept⟩
  | restart _ ih =>
    obtain ⟨⟨log', hsession'⟩, ⟨type, hm'⟩⟩ := ih
    refine ⟨⟨log', hsession'.restart trivial⟩, ⟨type, ?_⟩⟩
    rwa [hsession'.restart_db]

/-- The files stay. -/
theorem Serving.keepsFile {log : List Served} {disk₀ disk : Disk} {c₀ c : Conn} {m : MsgRow}
    (h : Serving (·.HasUndeleted m.id) disk₀ c₀ disk c) (hsession : Session True log c₀)
    (hm : m ∈ c₀.db.messages) {path : CStr} {data : List UInt8}
    (hfile : disk₀ path = some data) : disk path = some data := by
  induction h with
  | start _ => exact hfile
  | request hprev hquote hrun hops _ ih =>
    obtain ⟨⟨log', hsession'⟩, -⟩ := hprev.keeps hsession hm
    exact (tidy_of_runs hsession'.inv.1 hquote hrun).keeps hops ih
  | restart _ ih => exact ih

/-! ## There and back -/

/-- The system calls of a download. -/
structure DownloadCalls where
  /-- The frame was written. -/
  answered : Bool := true
  opened : Bool := true
  /-- `fstat` succeeded. -/
  sized : Bool := true
  rounds : List DownloadRound

/-- The bytes behind the frame. -/
def downloadFile (disk : Disk) (path : CStr) (calls : DownloadCalls) : Option (List UInt8) :=
  if calls.answered = false ∨ calls.opened = false then some []
  else match disk path with
    | none => some []
    | some file =>
      if calls.sized = false then some [] else downloadLoop file.length file calls.rounds

/-- Without a failure, the request is answered with one frame that announces the bytes, and they
    follow, in whatever pieces the file is read. -/
def Downloads (disk : Disk) (c : Conn) (req : Request) (data : List UInt8) : Prop :=
  ∃ rm len shown path, req.route = some (.msgDownloadFile rm) ∧
    Runs Serves c (handleMsgDownloadFilePath req.header rm) c
      ({ sent := [.msgDownloadFile 200 len shown] }, some path) ∧
    (ResponseCall.msgDownloadFile 200 len shown).header.contentLen.toNat = data.length ∧
    ∀ reading : Segmentation data.length,
      downloadFile disk path { rounds := reading.downloadRounds } = some data

/-- A member of a room of a message may read it. -/
theorem RoomIds.readable_of_inRoomOf {db : Db} (hids : RoomIds db) {m : MsgRow}
    (hm : m ∈ db.messages) {u : Nat} (h : db.InRoomOf m u) : db.Readable m u := by
  obtain ⟨hconv, hchat⟩ := hids.msg_rooms m hm
  rcases h with ⟨k, hk, hmember⟩ | ⟨k, hk, hmember⟩
  · refine Or.inl ?_
    rwa [hk, Val.ofOption, columnInt_toNat (hconv k hk)]
  · refine Or.inr ?_
    rwa [hk, Val.ofOption, columnInt_toNat (hchat k hk)]

/-- The bytes of a stored file come back. -/
theorem downloads_of_keeps {log : List Served} {disk : Disk} {c : Conn} {m : MsgRow}
    (hsession : Session True log c) (hkeeps : c.Keeps m) {data : List UInt8}
    (hfile : disk m.content = some data) (hdata : 1 ≤ data.length) (hsize : data.length < 2 ^ 32)
    (htype : m.contentType = 1) (hlen : m.contentLength = data.length)
    (hcontent : storage.length ≤ m.content.strlen) {req : Request} {rm : RequestMsgBody}
    (hroute : req.route = some (.msgDownloadFile rm)) (hid : m.id = rm.msgId.toNat)
    (hroom : c.db.InRoomOf m req.header.userId.toNat) : Downloads disk c req data := by
  obtain ⟨type, hm⟩ := hkeeps
  have hread : c.db.Readable { m with type } req.header.userId.toNat :=
    hsession.inv.2.readable_of_inRoomOf hm hroom
  have hfirst := first_of_id hsession.inv.2.messages_nodup hm hid
  have hserved := served_download hfirst hread htype hcontent
  refine ⟨rm, UInt32.ofNat m.contentLength, _, m.content, hroute, hserved, ?_, fun reading => ?_⟩
  · show (UInt32.ofNat m.contentLength).toNat = data.length
    rw [hlen]
    exact UInt32.toNat_ofNat_of_lt' hsize
  · rw [downloadFile, if_neg (by simp)]
    simp only [hfile, Bool.true_eq_false, if_false]
    exact downloadLoop_pieces reading.sizes reading.total hdata

/-- A message is stored and acknowledged, when nothing goes wrong. -/
theorem served_sendMsg {c : Conn} {env : Env} {msg : MsgSchema} {db' : Db} {id : Nat}
    (hfree : quote ∉ msg.content.bytes) (hidle : c.saved = none) (hheld : c.held = false)
    (hfits : (msg.textQuery env.now).Fits)
    (hinsert : c.db.insertMessage true (msg.newMsg env.now) = some (db', some id)) :
    Runs Serves c (sendMsg env msg) { c with db := db', fk := true, lastRowid := id }
      { sent := [.msgSend 201 (UInt32.ofNat id)] } := by
  have hsent := served_msgSend hfree hidle hheld ⟨hfits.le, hinsert⟩
  exact runs_bind.mpr ⟨_, _, hsent, .ret _ _⟩

/-- A file of a member is stored and acknowledged, when nothing goes wrong. -/
theorem served_upload {c : Conn} {env : Env} {header : RequestHeader} {rm : RequestMsgBody}
    {name path : CStr} {db' : Db} {id : Nat} (hidle : c.saved = none) (hheld : c.held = false)
    (hfile : header.contentType = msgFile) (hname : rm.msgContent = some name)
    (hquote : quote ∉ name.bytes) (hpath : storagePath env name = some path)
    (hupload : env.upload = .received)
    (hmember : c.db.ConvMember rm.convId.toNat header.userId.toNat ∨
      c.db.ChatMember rm.chatId.toNat header.userId.toNat)
    (hinsert : c.db.insertMessage true ((fileMsg header rm path).newMsg env.now) =
      some (db', some id)) :
    ∃ c₁, c₁.db = db' ∧ Runs Serves c (handleMsgSendFiles env header rm) c₁
      ({ sent := [.msgSend 201 (UInt32.ofNat id)] }, [.create path]) := by
  have hfree : quote ∉ (fileMsg header rm path).content.bytes := quoteFree_storagePath hquote hpath
  have hsent := served_sendMsg hfree hidle hheld (fileMsg_fits hfile hpath rm env.now) hinsert
  have hplain : Runs Serves c (handleMsgSend env header rm)
      { c with db := db', fk := true, lastRowid := id }
      { sent := [.msgSend 201 (UInt32.ofNat id)] } := by
    rw [handleMsgSend, hname]
    refine served_ifRoomMember hmember ?_
    rw [if_neg (by rw [hfile]; decide), if_pos hfile, hpath, deref, hupload]
    exact hsent
  rw [← handleMsgSendFiles_fst] at hplain
  obtain ⟨⟨out, ops⟩, hrun, hout⟩ := runs_map.mp hplain
  obtain rfl : { sent := [.msgSend 201 (UInt32.ofNat id)] } = out := hout
  have hcreated : Handled.Created { sent := [.msgSend 201 (UInt32.ofNat id)] } :=
    ⟨UInt32.ofNat id, List.mem_singleton.mpr rfl⟩
  refine ⟨{ c with db := db', fk := true, lastRowid := id }, rfl, ?_⟩
  -- the answer tells what was done to the directory
  rcases runs_receive hfile hname (fun _ hmem => hquote (mem_of_mem_keptSuffix hmem)) hidle
    (hrun.mono Serves.le) with
    ⟨hnone, -⟩ | ⟨path', hpath', htaken⟩
  · exact absurd hcreated hnone.uncreated
  obtain rfl : path = path' := Option.some.inj (hpath.symm.trans hpath')
  cases htaken with
  | openFailed _ hnone => exact absurd hcreated hnone.uncreated
  | pollFailed _ hnone => exact absurd hcreated hnone.uncreated
  | removed _ _ hnone => exact absurd hcreated hnone.uncreated
  | stored => exact hrun

/-- The row of a new message. -/
theorem mem_of_insertMessage {fk : Bool} {new : NewMsg} {db db' : Db} {id : Nat}
    (h : db.insertMessage fk new = some (db', some id)) :
    { id, fromUid := new.fromUid, replyTo := new.replyTo, contentType := new.contentType,
      contentLength := new.contentLength, content := new.content, createdAt := new.createdAt,
      chatId := new.chatId, convId := new.convId, type := .sent } ∈ db'.messages := by
  have heq := Db.insertRow_eq_some h
  cases heq
  exact List.mem_append_right _ (List.mem_singleton.mpr rfl)

/-- The server receives all pieces of a file. -/
theorem receiveFile_pieces {data : List UInt8} (segs : Segmentation data.length)
    {contentLen : UInt32} (hlen : contentLen.toNat = data.length) (hdata : 1 ≤ data.length) :
    receiveFile contentLen data { rounds := segs.uploadRounds } =
      some (.received, ⟨[], some data⟩) := by
  have hloop : receiveLoop data.length data [] segs.uploadRounds =
      some (.received, ⟨[], some data⟩) := receiveLoop_pieces segs.sizes segs.total hdata
  rw [receiveFile, if_neg (by simp), hlen, hloop]
  rfl

/-- A name that has a path is short enough for the frame. -/
theorem msgSendFile_wellFormed {env : Env} {name path : CStr} (hpath : storagePath env name = some path)
    {token : Token} {userId convId chatId replyTo fsize : UInt32} :
    (RequestCall.msgSendFile token userId convId chatId replyTo fsize name).WellFormed := by
  obtain ⟨name', hprocess, -⟩ := storagePath_eq_some_iff.mp hpath
  have hshort := (processFname_eq_some_iff.mp hprocess).1
  refine ⟨?_, by simp [RequestCall.delimited]⟩
  simp only [RequestCall.written, requestBodyLen, bufsiz, requestHeaderLen]
  omega

theorem storage_le_strlen {env : Env} {name path : CStr} (hpath : storagePath env name = some path) :
    storage.length ≤ path.strlen := by
  obtain ⟨digest, -, hbytes⟩ := storagePath_bytes hpath
  show storage.length ≤ path.bytes.length
  rw [hbytes, List.length_append]
  omega

/-- User 1 sends three bytes to conversation 1. -/
def lobbyFile : RequestCall := .msgSendFile emptyToken 1 1 0 0 3 (.ofBytes (ascii "a.txt"))

def emptyDisk : Disk := fun _ => none

/-- They are read in two pieces. -/
def twoPieces : Segmentation 3 := ⟨[1, 2], by decide, rfl⟩

end MeshChat
