import MeshChat.Server.Storage

/-! # Receiving a file

    The bytes of a file follow the request frame on the socket. `handle_msg_send`
    reads them in a do-while loop of `poll`, `read` and `write`.

    * `Round`: what the three calls return in one round of the loop.
    * `receiveLoop`: the loop, with the bytes that are left on the socket and the
      bytes in the file; `receiveFile` adds `open` and `close`.
    * `RoundEnds`: what a round of the loop can come to.
    * `Whole`: the file is the announced part of the stream, and no more was read.
    * `Clean`: no read finds the socket empty too early or returns too much.
    * `upload_whole_iff`: a file that is acknowledged is whole if and only if the
      reads were clean.
    * `Polled`: no `poll` of the upload fails or runs into its timeout.
    * `Cleared`: an upload that is not acknowledged leaves nothing. `failed_upload_cleared`: it
      is so when no `poll` failed, and only then.
-/

namespace MeshChat

open CMemory SqlLex Prog

/-! ## The loop -/

/-- What `read` returns: at most `n` bytes, or -1 with `errno`. -/
inductive ReadOutcome where
  | data (n : Nat)
  | wouldBlock
  | failed
  deriving DecidableEq

/-- What the calls return in one round. -/
structure Round where
  /-- The result of `poll`, and whether `revents` is `POLLIN`. -/
  pollRc : Int := 1
  pollin : Bool := true
  read : ReadOutcome
  /-- The result of `write`. -/
  written : Int
  deriving DecidableEq

/-- What an upload leaves: the bytes that are still on the socket, and the file unless it was
    removed. -/
structure Sink where
  unread : List UInt8
  file : Option (List UInt8)
  deriving DecidableEq

/-- The do-while loop of `handle_msg_send`; `fsize` is the number of bytes to come. `none` is a
    loop that still runs when the rounds are over. -/
def receiveLoop (fsize : Int) (unread file : List UInt8) : List Round → Option (Upload × Sink)
  | [] => none
  | r :: rounds =>
    if r.pollRc < 0 ∨ r.pollin = false then some (.pollFailed, ⟨unread, some file⟩)
    -- a timeout has `revents` 0, so that this branch is for `POLLIN` only
    else if r.pollRc = 0 then some (.aborted, ⟨unread, none⟩)
    else match r.read with
      | .failed => some (.aborted, ⟨unread, none⟩)
      -- `continue` goes to the condition of the loop, where `nbytes` is -1
      | .wouldBlock => some (.received, ⟨unread, some file⟩)
      | .data n =>
        let chunk := unread.take (min n bufsiz)
        let nbytes := chunk.length
        let unread := unread.drop (min n bufsiz)
        -- the client has closed the connection
        if nbytes = 0 ∧ 0 < fsize then some (.aborted, ⟨unread, none⟩)
        else if r.written ≠ nbytes then some (.aborted, ⟨unread, none⟩)
        else
          let fsize := fsize - nbytes
          if fsize ≤ 0 then some (.received, ⟨unread, some (file ++ chunk)⟩)
          else if 0 < nbytes then receiveLoop fsize unread (file ++ chunk) rounds
          else some (.received, ⟨unread, some (file ++ chunk)⟩)

/-- The system calls of an upload. -/
structure UploadCalls where
  opened : Bool := true
  rounds : List Round
  closed : Bool := true

/-- `open`, the loop and `close`. -/
def receiveFile (contentLen : UInt32) (stream : List UInt8) (calls : UploadCalls) :
    Option (Upload × Sink) :=
  if calls.opened = false then some (.openFailed, ⟨stream, none⟩)
  else match receiveLoop contentLen.toNat stream [] calls.rounds with
    | some (.received, s) =>
      if calls.closed then some (.received, s) else some (.closeFailed, { s with file := none })
    | other => other

/-! ## What is received -/

/-- The file is the first `n` bytes of the stream, and no other byte was taken from the socket. -/
structure Whole (n : Nat) (stream : List UInt8) (s : Sink) : Prop where
  file : s.file = some (stream.take n)
  length : (stream.take n).length = n
  unread : s.unread = stream.drop n

/-- Up to the end of the file, no read finds the socket empty while bytes are missing, and none
    returns more than is missing. -/
def Clean (missing : Nat) (unread : List UInt8) : List Round → Prop
  | [] => True
  | r :: rounds =>
    match r.read with
    -- the upload is aborted, and not acknowledged
    | .failed => True
    | .wouldBlock => missing = 0
    | .data n =>
      (unread.take (min n bufsiz)).length ≤ missing ∧
        ((unread.take (min n bufsiz)).length < missing →
          Clean (missing - (unread.take (min n bufsiz)).length) (unread.drop (min n bufsiz)) rounds)

/-- `poll` reports data. -/
def Round.Ready (r : Round) : Prop := 0 < r.pollRc ∧ r.pollin = true

/-- How the loop goes on from a round, and how it ends then. -/
inductive RoundEnds (missing : Nat) (unread file : List UInt8) (r : Round) (rounds : List Round) :
    Upload → Sink → Prop
  | pollFailed (hbad : r.pollRc < 0 ∨ r.pollin = false) :
      RoundEnds missing unread file r rounds .pollFailed ⟨unread, some file⟩
  | timedOut (hpollin : r.pollin = true) (hzero : r.pollRc = 0) :
      RoundEnds missing unread file r rounds .aborted ⟨unread, none⟩
  | readFailed (hready : r.Ready) (hread : r.read = .failed) :
      RoundEnds missing unread file r rounds .aborted ⟨unread, none⟩
  | wouldBlock (hready : r.Ready) (hread : r.read = .wouldBlock) :
      RoundEnds missing unread file r rounds .received ⟨unread, some file⟩
  | closed {n : Nat} (hready : r.Ready) (hread : r.read = .data n)
      (hnone : (unread.take (min n bufsiz)).length = 0) :
      RoundEnds missing unread file r rounds .aborted ⟨unread.drop (min n bufsiz), none⟩
  | unwritten {n : Nat} (hready : r.Ready) (hread : r.read = .data n)
      (hwritten : r.written ≠ (unread.take (min n bufsiz)).length) :
      RoundEnds missing unread file r rounds .aborted ⟨unread.drop (min n bufsiz), none⟩
  | last {n : Nat} (hready : r.Ready) (hread : r.read = .data n)
      (hdone : missing ≤ (unread.take (min n bufsiz)).length) :
      RoundEnds missing unread file r rounds .received
        ⟨unread.drop (min n bufsiz), some (file ++ unread.take (min n bufsiz))⟩
  | more {n : Nat} {u : Upload} {s : Sink} (hready : r.Ready) (hread : r.read = .data n)
      (hwritten : r.written = (unread.take (min n bufsiz)).length)
      (hsome : 0 < (unread.take (min n bufsiz)).length)
      (hless : (unread.take (min n bufsiz)).length < missing)
      (hrest : receiveLoop (missing - (unread.take (min n bufsiz)).length : Nat)
        (unread.drop (min n bufsiz)) (file ++ unread.take (min n bufsiz)) rounds = some (u, s)) :
      RoundEnds missing unread file r rounds u s

theorem receiveLoop_cons {missing : Nat} {unread file : List UInt8} {r : Round}
    {rounds : List Round} {u : Upload} {s : Sink}
    (h : receiveLoop missing unread file (r :: rounds) = some (u, s)) :
    RoundEnds missing unread file r rounds u s := by
  rw [receiveLoop] at h
  by_cases hbad : r.pollRc < 0 ∨ r.pollin = false
  · rw [if_pos hbad] at h
    cases h
    exact .pollFailed hbad
  rw [if_neg hbad] at h
  rw [not_or, not_lt, Bool.not_eq_false] at hbad
  by_cases hzero : r.pollRc = 0
  · rw [if_pos hzero] at h
    cases h
    exact .timedOut hbad.2 hzero
  rw [if_neg hzero] at h
  have hready : r.Ready := ⟨lt_of_le_of_ne hbad.1 (Ne.symm hzero), hbad.2⟩
  cases hread : r.read with
  | failed =>
    rw [hread] at h
    cases h
    exact .readFailed hready hread
  | wouldBlock =>
    rw [hread] at h
    cases h
    exact .wouldBlock hready hread
  | data n =>
    rw [hread] at h
    dsimp only at h
    by_cases hnone : (unread.take (min n bufsiz)).length = 0 ∧ 0 < (missing : Int)
    · rw [if_pos hnone] at h
      cases h
      exact .closed hready hread hnone.1
    rw [if_neg hnone] at h
    by_cases hwritten : r.written = (unread.take (min n bufsiz)).length
    swap
    · rw [if_pos hwritten] at h
      cases h
      exact .unwritten hready hread hwritten
    rw [if_neg (not_not.mpr hwritten)] at h
    by_cases hdone : missing ≤ (unread.take (min n bufsiz)).length
    · rw [if_pos (by omega)] at h
      cases h
      exact .last hready hread hdone
    · -- bytes are missing, so that some were read
      have hcast : (missing : Int) - (unread.take (min n bufsiz)).length =
          ((missing - (unread.take (min n bufsiz)).length : Nat) : Int) := by
        omega
      have hsome : 0 < (unread.take (min n bufsiz)).length := by omega
      rw [if_neg (by omega), if_pos hsome, hcast] at h
      exact .more hready hread hwritten hsome (not_le.mp hdone) h

/-- What was read is in the file, and it is as much as announced exactly when the reads were
    clean. -/
theorem receiveLoop_received {missing : Nat} {unread file : List UInt8} {rounds : List Round}
    {s : Sink} (h : receiveLoop missing unread file rounds = some (.received, s)) :
    ∃ f, s.file = some f ∧ f ++ s.unread = file ++ unread ∧
      (f.length = file.length + missing ↔ Clean missing unread rounds) := by
  -- over the rounds; only three ends of a round acknowledge the file
  induction rounds generalizing missing unread file with
  | nil => cases h
  | cons r rounds ih =>
    cases receiveLoop_cons h with
    | wouldBlock _ hread =>
      refine ⟨file, rfl, rfl, ?_⟩
      simp only [Clean, hread]
      omega
    | @last n _ hread hdone =>
      -- what is missing has come, or more
      refine ⟨file ++ unread.take (min n bufsiz), rfl, ?_, ?_⟩
      · rw [List.append_assoc, List.take_append_drop]
      · simp only [Clean, hread]
        rw [List.length_append]
        omega
    | @more n _ _ _ hread _ _ hless hrest =>
      obtain ⟨f, hfile, hbytes, hiff⟩ := ih hrest
      refine ⟨f, hfile, ?_, ?_⟩
      · rw [hbytes, List.append_assoc, List.take_append_drop]
      · rw [List.length_append] at hiff
        simp only [Clean, hread]
        rw [and_iff_right hless.le, forall_prop_of_true hless, ← hiff]
        omega

/-- What is acknowledged comes from `close` after the loop. -/
theorem receiveFile_received {contentLen : UInt32} {stream : List UInt8} {calls : UploadCalls}
    {s : Sink} (h : receiveFile contentLen stream calls = some (.received, s)) :
    receiveLoop contentLen.toNat stream [] calls.rounds = some (.received, s) := by
  unfold receiveFile at h
  split at h
  · cases h
  split at h
  · rename_i hloop
    split at h
    · cases h
      exact hloop
    · cases h
  · exact h

/-- The bytes of a file are whole exactly when there are enough of them. -/
theorem whole_iff {n : Nat} {stream f : List UInt8} {s : Sink} (hfile : s.file = some f)
    (hbytes : f ++ s.unread = stream) : Whole n stream s ↔ f.length = n := by
  constructor
  · intro h
    have hsame : f = stream.take n := Option.some.inj (hfile.symm.trans h.file)
    rw [hsame]
    exact h.length
  · intro h
    -- the file and the rest are the stream, so the length says where it is cut
    subst hbytes h
    exact ⟨by simp [hfile], by simp, by simp⟩

/-- 201 is answered for a file only when it was received. -/
theorem received_of_created {c c' : Conn} {env : Env} {header : RequestHeader}
    {rm : RequestMsgBody} {id : UInt32} (hfile : header.contentType = msgFile)
    (h : Runs Answers c (handleMsgSend env header rm) c' { sent := [.msgSend 201 id] }) :
    env.upload = .received := by
  simp only [handleMsgSend, runs_deref] at h
  rcases h with ⟨content, -, h⟩ | ⟨-, -, hout⟩
  swap
  · cases hout
  rcases runs_ifRoomMember le_rfl h with ⟨-, status, group, action, hout⟩ | ⟨-, h⟩
  · cases hout
  rw [if_neg (by rw [hfile]; decide), if_pos hfile, runs_deref] at h
  rcases h with ⟨path, -, h⟩ | ⟨-, -, hout⟩
  swap
  · cases hout
  cases hupload : env.upload with
  | received => rfl
  -- the connection is closed without an answer
  | aborted =>
    rw [hupload] at h
    obtain ⟨-, hout⟩ := runs_ret.mp h
    cases hout
  | _ =>
    rw [hupload] at h
    obtain ⟨-, hout⟩ := runs_responseErr.mp h
    cases hout

/-- **When an acknowledged file is whole.** For every announced length, every stream of bytes
    behind the frame and all results of the system calls: if `handle_msg_send` answers 201 for a
    file, the file is the announced part of the stream and nothing else was taken from the socket
    if and only if no read found the socket empty too early and none returned too much. -/
theorem upload_whole_iff {c c' : Conn} {env : Env} {header : RequestHeader} {rm : RequestMsgBody}
    {id : UInt32} {stream : List UInt8} {calls : UploadCalls} {s : Sink}
    (hfile : header.contentType = msgFile)
    (hupload : receiveFile header.contentLen stream calls = some (env.upload, s))
    (hrun : Runs Answers c (handleMsgSend env header rm) c' { sent := [.msgSend 201 id] }) :
    Whole header.contentLen.toNat stream s ↔
      Clean header.contentLen.toNat stream calls.rounds := by
  rw [received_of_created hfile hrun] at hupload
  obtain ⟨f, hf, hbytes, hclean⟩ := receiveLoop_received (receiveFile_received hupload)
  rw [whole_iff hf (by simpa using hbytes), ← hclean]
  simp

/-- User 1 announces a file of three bytes for conversation 1. -/
def fileHeader : RequestHeader :=
  { (requestBy 1 4 2 (.msg {})).header with contentType := msgFile, contentLen := 3 }

def fileBody : RequestMsgBody := { convId := 1, msgContent := some (.ofBytes (ascii "a.txt")) }

/-- A program that is run in the lobby. -/
theorem runs_in_lobby {α : Type} [DecidableEq α] {restarts : Prop} {p : SqlProg α} {a : α}
    (h : (lobbyPlay []).any (fun x =>
      (execute serve 32 x.2 p).any fun y => decide (y.2 = a)) = true) :
    ∃ log c c', Session restarts log c ∧ Runs Answers c p c' a := by
  obtain ⟨⟨log, c⟩, hsession, hrest⟩ := (Option.any_eq_true _ _).mp h
  obtain ⟨⟨c', out⟩, hexec, hout⟩ := (Option.any_eq_true _ _).mp hrest
  obtain rfl := of_decide_eq_true hout
  exact ⟨log, c, c', lobbyPlay_session hsession, runs_of_execute answers_of_serve hexec⟩

/-- In the lobby the file is acknowledged once it was received. -/
theorem fileBody_created : ∃ log c c', Session False log c ∧
    Runs Answers c (handleMsgSend lobbyEnv fileHeader fileBody) c'
      { sent := [.msgSend 201 3] } := by
  apply runs_in_lobby
  rw [lobbyPlay_eq]
  decide +kernel

/-- The three bytes arrive in two reads, and a fourth comes later. -/
def twoReads : UploadCalls := { rounds := [⟨1, true, .data 1, 1⟩, ⟨1, true, .data 2, 2⟩] }

theorem upload_whole_twoReads :
    ∃ log c c', Session False log c ∧
      Runs Answers c (handleMsgSend lobbyEnv fileHeader fileBody) c'
        { sent := [.msgSend 201 3] } ∧
      receiveFile fileHeader.contentLen [1, 2, 3, 4] twoReads =
        some (lobbyEnv.upload, ⟨[4], some [1, 2, 3]⟩) ∧
      Whole 3 [1, 2, 3, 4] ⟨[4], some [1, 2, 3]⟩ := by
  obtain ⟨log, c, c', hsession, hrun⟩ := fileBody_created
  have hupload : receiveFile fileHeader.contentLen [1, 2, 3, 4] twoReads =
      some (lobbyEnv.upload, ⟨[4], some [1, 2, 3]⟩) := by decide
  have hclean : Clean 3 [1, 2, 3, 4] twoReads.rounds :=
    ⟨by decide, fun _ => ⟨by decide, fun hless => absurd hless (by decide)⟩⟩
  exact ⟨log, c, c', hsession, hrun, hupload, (upload_whole_iff rfl hupload hrun).mpr hclean⟩

/-- One read returns five bytes at once. -/
def oneRead : UploadCalls := { rounds := [⟨1, true, .data 5, 5⟩] }

/-- The second read finds the socket empty. -/
def emptySocket : UploadCalls := { rounds := [⟨1, true, .data 1, 1⟩, ⟨1, true, .wouldBlock, 0⟩] }

/-- A file of five bytes and a file of one byte are both acknowledged as files of three: `read`
    takes what there is, and `continue` leaves the loop because `nbytes` is -1. -/
theorem acknowledged_not_whole :
    ∃ log c c', Session False log c ∧
      Runs Answers c (handleMsgSend lobbyEnv fileHeader fileBody) c'
        { sent := [.msgSend 201 3] } ∧
      receiveFile fileHeader.contentLen [1, 2, 3, 4, 5] oneRead =
        some (lobbyEnv.upload, ⟨[], some [1, 2, 3, 4, 5]⟩) ∧
      ¬ Whole 3 [1, 2, 3, 4, 5] ⟨[], some [1, 2, 3, 4, 5]⟩ ∧
      receiveFile fileHeader.contentLen [1, 2, 3] emptySocket =
        some (lobbyEnv.upload, ⟨[2, 3], some [1]⟩) ∧
      ¬ Whole 3 [1, 2, 3] ⟨[2, 3], some [1]⟩ := by
  obtain ⟨log, c, c', hsession, hrun⟩ := fileBody_created
  refine ⟨log, c, c', hsession, hrun, by decide, ?_, by decide, ?_⟩
  · intro h
    exact absurd h.unread (by decide)
  · intro h
    exact absurd h.unread (by decide)

/-! ## What a failed upload leaves -/

/-- Up to the end of the loop, no `poll` fails and each reports `POLLIN`. -/
def Polled (missing : Nat) (unread : List UInt8) : List Round → Prop
  | [] => True
  | r :: rounds =>
    0 ≤ r.pollRc ∧ r.pollin = true ∧
      (r.pollRc ≠ 0 → match r.read with
        | .failed | .wouldBlock => True
        | .data n =>
          r.written = (unread.take (min n bufsiz)).length →
          0 < (unread.take (min n bufsiz)).length →
          (unread.take (min n bufsiz)).length < missing →
            Polled (missing - (unread.take (min n bufsiz)).length)
              (unread.drop (min n bufsiz)) rounds)

/-- The rounds behind a round without data do not matter. -/
theorem polled_of_ready {missing : Nat} {unread : List UInt8} {r : Round} {rounds : List Round}
    (hready : r.Ready) :
    Polled missing unread (r :: rounds) ↔ ∀ n, r.read = .data n →
      r.written = (unread.take (min n bufsiz)).length →
      0 < (unread.take (min n bufsiz)).length → (unread.take (min n bufsiz)).length < missing →
        Polled (missing - (unread.take (min n bufsiz)).length) (unread.drop (min n bufsiz))
          rounds := by
  obtain ⟨hrc, hpollin⟩ := hready
  rw [Polled, and_iff_right hrc.le, and_iff_right hpollin, forall_prop_of_true hrc.ne']
  cases r.read with
  | failed => simp
  | wouldBlock => simp
  | data n => simp

/-- How the loop ends tells whether a `poll` failed. -/
theorem receiveLoop_polled {missing : Nat} {unread file : List UInt8} {rounds : List Round}
    {u : Upload} {s : Sink} (h : receiveLoop missing unread file rounds = some (u, s)) :
    u ≠ .openFailed ∧ u ≠ .closeFailed ∧ (u ≠ .pollFailed ↔ Polled missing unread rounds) := by
  -- over the rounds; the rest of them matters only where the loop goes on
  induction rounds generalizing missing unread file with
  | nil => cases h
  | cons r rounds ih =>
    cases receiveLoop_cons h with
    | pollFailed hbad =>
      refine ⟨by decide, by decide, iff_of_false (by simp) ?_⟩
      rintro ⟨hrc, hpollin, -⟩
      rcases hbad with hbad | hbad
      · omega
      · rw [hpollin] at hbad
        cases hbad
    | timedOut hpollin hzero =>
      have hpolled : Polled missing unread (r :: rounds) :=
        ⟨hzero.ge, hpollin, fun hne => absurd hzero hne⟩
      exact ⟨by decide, by decide, iff_of_true (by decide) hpolled⟩
    | readFailed hready hread =>
      rw [polled_of_ready hready, hread]
      simp
    | wouldBlock hready hread =>
      rw [polled_of_ready hready, hread]
      simp
    | closed hready hread hnone =>
      refine ⟨by decide, by decide, iff_of_true (by decide) ?_⟩
      rw [polled_of_ready hready, hread]
      rintro n ⟨⟩ _ hsome _
      exact absurd hnone hsome.ne'
    | unwritten hready hread hwritten =>
      refine ⟨by decide, by decide, iff_of_true (by decide) ?_⟩
      rw [polled_of_ready hready, hread]
      rintro n ⟨⟩ hwhole _ _
      exact absurd hwhole hwritten
    | last hready hread hdone =>
      refine ⟨by decide, by decide, iff_of_true (by decide) ?_⟩
      rw [polled_of_ready hready, hread]
      rintro n ⟨⟩ _ _ hless
      omega
    | more hready hread hwritten hsome hless hrest =>
      obtain ⟨hopen, hclose, hpolled⟩ := ih hrest
      refine ⟨hopen, hclose, hpolled.trans ?_⟩
      rw [polled_of_ready hready, hread]
      constructor
      · rintro hrounds n ⟨⟩ _ _ _
        exact hrounds
      · intro hrounds
        exact hrounds _ rfl hwritten hsome hless

theorem receiveFile_polled {contentLen : UInt32} {stream : List UInt8} {calls : UploadCalls}
    {u : Upload} {s : Sink} (hopened : calls.opened = true)
    (h : receiveFile contentLen stream calls = some (u, s)) :
    u ≠ .openFailed ∧ (u ≠ .pollFailed ↔ Polled contentLen.toNat stream calls.rounds) := by
  rw [receiveFile, if_neg (by rw [hopened]; decide)] at h
  split at h
  · rename_i s' hloop
    obtain ⟨-, -, hpolled⟩ := receiveLoop_polled hloop
    rw [iff_true_left (by decide)] at hpolled
    split at h
    · cases h
      exact ⟨by decide, by simp [hpolled]⟩
    · cases h
      exact ⟨by decide, by simp [hpolled]⟩
  · obtain ⟨hopen, -, hpolled⟩ := receiveLoop_polled h
    exact ⟨hopen, hpolled⟩

/-- Nothing is left of an upload that is not answered with 201: no row, and no file at the path
    that was created. -/
def Cleared (path : CStr) (c c' : Conn) (out : Handled) (ops : List FileOp) : Prop :=
  ¬ out.Created → c'.db.messages = c.db.messages ∧
    ∀ files files', runOps ops files = some files' → path ∉ files'

theorem Taken.cleared_iff {env : Env} {path path' : CStr} {msg : MsgSchema} {c c' : Conn}
    {out : Handled} {ops : List FileOp} (htaken : Taken env path' msg c c' out ops)
    (hopen : env.upload ≠ .openFailed) (hcreate : .create path ∈ ops) :
    Cleared path c c' out ops ↔ env.upload ≠ .pollFailed := by
  cases htaken with
  | openFailed hfailed => exact absurd hfailed hopen
  | pollFailed hfailed hnone =>
    obtain rfl : path = path' := by simpa using hcreate
    rw [iff_false_right (not_not.mpr hfailed)]
    intro hclear
    -- in an empty directory the file is the only one
    have hgone := (hclear hnone.uncreated).2 ∅ {path} rfl
    exact hgone (Finset.mem_singleton_self path)
  | removed _ hpoll hnone =>
    obtain rfl : path = path' := by simpa using hcreate
    rw [iff_true_right hpoll]
    intro _
    refine ⟨by rw [hnone.same], ?_⟩
    intro files files' hops
    simp only [runOps, FileOp.run] at hops
    split at hops
    · rename_i hinsert
      cases hops
      exact Finset.notMem_erase path _
    · cases hops
  | stored hreceived _ hcreated =>
    rw [iff_true_right (by rw [hreceived]; decide)]
    exact fun huncreated => absurd hcreated huncreated

/-- **What a failed upload leaves.** In every state of every session, for all results of `poll`,
    `read`, `write`, `close` and sqlite behind the creation of the file: where nothing is left of
    an upload unless it is answered with 201, no `poll` of it failed or ran into its timeout; and
    nothing is left where no `poll` did, unless the whole file came under a name with a quote in
    the suffix that is kept. -/
theorem failed_upload_cleared {log : List Served} {c c' : Conn} {env : Env}
    {header : RequestHeader} {rm : RequestMsgBody} {name path : CStr} {stream : List UInt8}
    {calls : UploadCalls} {s : Sink} {out : Handled} {ops : List FileOp}
    (hsession : Session True log c) (hfile : header.contentType = msgFile)
    (hname : rm.msgContent = some name) (hopened : calls.opened = true)
    (hupload : receiveFile header.contentLen stream calls = some (env.upload, s))
    (hrun : Runs Answers c (handleMsgSendFiles env header rm) c' (out, ops))
    (hcreate : .create path ∈ ops) :
    (Cleared path c c' out ops → Polled header.contentLen.toNat stream calls.rounds) ∧
      ((env.upload = .received → quote ∉ keptSuffix name) →
        Polled header.contentLen.toNat stream calls.rounds → Cleared path c c' out ops) := by
  obtain ⟨hopen, hpolled⟩ := receiveFile_polled hopened hupload
  rw [← hpolled]
  -- a name with quotes matters only once the whole file is there
  have hiff : (env.upload = .received → quote ∉ keptSuffix name) →
      (Cleared path c c' out ops ↔ env.upload ≠ .pollFailed) := by
    intro hfree
    rcases runs_receive hfile hname hfree hsession.inv.1 hrun with ⟨-, rfl⟩ | ⟨path', -, htaken⟩
    · cases hcreate
    · exact htaken.cleared_iff hopen hcreate
  refine ⟨?_, fun hquote => (hiff hquote).mpr⟩
  intro hclear hfailed
  have hnotReceived : env.upload = .received → quote ∉ keptSuffix name := by
    intro hreceived
    rw [hfailed] at hreceived
    cases hreceived
  exact (hiff hnotReceived).mp hclear hfailed

/-- The file of an upload in the lobby. -/
def lobbyPath : CStr := .ofBytes (ascii "./storage/5ebe2294ecd0e0f08eab7690d2a6ee69.txt")

/-- The file cannot be closed. -/
def badClose : UploadCalls := { rounds := [⟨1, true, .data 3, 3⟩], closed := false }

theorem failed_upload_cleared_badClose : ∃ log c c', Session True log c ∧
    Runs Answers c (handleMsgSendFiles { lobbyEnv with upload := .closeFailed } fileHeader fileBody)
      c' ({ sent := [.err 500 4 2] }, [.create lobbyPath, .remove lobbyPath]) ∧
    Cleared lobbyPath c c' { sent := [.err 500 4 2] } [.create lobbyPath, .remove lobbyPath] := by
  have hlobby : ∃ log c c', Session True log c ∧
      Runs Answers c
        (handleMsgSendFiles { lobbyEnv with upload := .closeFailed } fileHeader fileBody)
        c' ({ sent := [.err 500 4 2] }, [.create lobbyPath, .remove lobbyPath]) := by
    apply runs_in_lobby
    rw [lobbyPlay_eq]
    decide
  obtain ⟨log, c, c', hsession, hrun⟩ := hlobby
  have hupload : receiveFile fileHeader.contentLen [1, 2, 3] badClose =
      some (.closeFailed, ⟨[], none⟩) := by decide
  have hpolled : Polled 3 [1, 2, 3] badClose.rounds :=
    ⟨by decide, rfl, fun _ _ _ hless => absurd hless (by decide)⟩
  have hcreate : .create lobbyPath ∈ [FileOp.create lobbyPath, .remove lobbyPath] :=
    List.mem_cons_self ..
  have hcleared := failed_upload_cleared hsession rfl rfl rfl hupload hrun hcreate
  exact ⟨log, c, c', hsession, hrun, hcleared.2 (by simp) hpolled⟩

/-- Nothing comes behind the frame for ten seconds. -/
def timedOut : UploadCalls := { rounds := [⟨0, false, .wouldBlock, 0⟩] }

/-- After a timeout the client is told of an error, and the file is still there. -/
theorem failed_upload_left : ∃ log c c', Session True log c ∧
    receiveFile fileHeader.contentLen [] timedOut = some (.pollFailed, ⟨[], some []⟩) ∧
    Runs Answers c (handleMsgSendFiles { lobbyEnv with upload := .pollFailed } fileHeader fileBody)
      c' ({ sent := [.err 500 4 2] }, [.create lobbyPath]) ∧
    ¬ Cleared lobbyPath c c' { sent := [.err 500 4 2] } [.create lobbyPath] := by
  have hlobby : ∃ log c c', Session True log c ∧
      Runs Answers c
        (handleMsgSendFiles { lobbyEnv with upload := .pollFailed } fileHeader fileBody)
        c' ({ sent := [.err 500 4 2] }, [.create lobbyPath]) := by
    apply runs_in_lobby
    rw [lobbyPlay_eq]
    decide
  obtain ⟨log, c, c', hsession, hrun⟩ := hlobby
  refine ⟨log, c, c', hsession, by decide, hrun, ?_⟩
  intro hcleared
  have hgone := (hcleared (by simp [Handled.Created])).2 ∅ {lobbyPath} rfl
  exact hgone (Finset.mem_singleton_self _)

end MeshChat
