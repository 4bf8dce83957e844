import MeshChat.Lib.Prog
import MeshChat.Wire.Request

/-! # The workers and the kernel (`main.c`, `handle_req`)

    The server's threads all run `th_func`: they wait for events of one epoll
    instance, accept connections and handle requests. This is their code as programs
    over system calls, and the part of the kernel that they share.

    * `Desc`: a descriptor together with what the kernel opened under its number. The
      C code has the number only, and the kernel looks at nothing else.
    * `thFunc`, `acceptNewClient`, `handleReq`: the code between `epoll_wait` and
      re-arming, with every call that takes a descriptor. What a request asks for and
      what the database says is one call, `request`, answered by a `Verdict`.
    * `Kernel.answer`: what a call may do. Descriptor numbers are reused as soon as they
      are closed, and any call may fail.
    * `NetRun`: any number of workers, interleaved in any order with each other and with
      what happens outside.
-/

namespace MeshChat.Net

open Prog

/-! ## Descriptors -/

/-- What is open: a connection or a file. Each of them has a number of its own, which
    is never used again. -/
inductive Handle where
  | conn (k : Nat)
  | file (n : Nat)
  deriving DecidableEq

/-- A descriptor, and what it stood for when it was handed out. -/
structure Desc where
  fd : Nat
  handle : Handle
  deriving DecidableEq

/-- An event of `epoll_wait`. `epollin` is its `EPOLLIN` bit. -/
inductive Ready where
  | listen
  | client (d : Desc) (epollin : Bool)
  deriving DecidableEq

/-! ## System calls -/

/-- What is written to a connection: the frame that `handle_req` itself answers a bad
    frame or token with, the frame of a handler, or the data of a file. -/
inductive Sent where
  | reject
  | response
  | data
  deriving DecidableEq

/-- What becomes of a request, as far as its connection is concerned. -/
inductive Verdict where
  /-- `request_parse` returned `NULL`. -/
  | malformed
  /-- The token is not valid. -/
  | refused
  | logout
  /-- A handler that sends one frame. -/
  | answer
  /-- `msg_send` of a file of this size by a member. -/
  | upload (contentLen : Nat)
  /-- `msg_download_file` of a file by a member. -/
  | download
  deriving DecidableEq

inductive SysCall where
  | epollWait
  | accept
  | setsockopt (d : Desc)
  | ctlAdd (d : Desc)
  | ctlMod (d : Desc)
  | ctlDel (d : Desc)
  | fcntl (d : Desc)
  | close (d : Desc)
  | recv (d : Desc)
  | getpeername (d : Desc)
  | poll (d : Desc)
  | read (d : Desc)
  | write (d : Desc) (what : Sent)
  /-- `request_parse`, `verify_token` and the work of the handler. -/
  | request
  /-- `open` of an uploaded file, with `O_CREAT | O_EXCL`. -/
  | create
  /-- `open` of a file to be sent. -/
  | openRead
  | fstat (d : Desc)
  | exit
  /-- From outside: a client connects. -/
  | arrive
  /-- From outside: there is something to read on a connection. -/
  | incoming (k : Nat)
  deriving DecidableEq

/-- What a call returns. -/
inductive SysReply where
  | failed
  /-- A failure with `EWOULDBLOCK`. -/
  | wouldBlock
  | done (n : Nat)
  | opened (d : Desc)
  | events (l : List Ready)
  /-- `poll`: the number of descriptors, and whether `revents` is what was asked for. -/
  | polled (rc : Nat) (asked : Bool)
  | verdict (v : Verdict)
  deriving DecidableEq

namespace SysReply

/-- A number that is not negative. -/
def count : SysReply → Option Nat
  | done n => some n
  | _ => none

/-- `revents` is what was asked for. -/
def asked : SysReply → Bool
  | polled _ b => b
  | _ => false

end SysReply

/-- The descriptor a call is made on. -/
def SysCall.desc : SysCall → Option Desc
  | setsockopt d | ctlAdd d | ctlMod d | ctlDel d | fcntl d | close d | recv d | getpeername d
  | poll d | read d | write d _ | fstat d => some d
  | _ => none

abbrev NetProg (α : Type) : Type := Prog SysCall SysReply α

/-! ## Closing and answering -/

/-- `close_sock`. -/
def closeSock (d : Desc) : NetProg Unit := do
  let _ ← invoke (.ctlDel d)
  let _ ← invoke (.fcntl d)
  let _ ← invoke (.fcntl d)
  -- none of the results before is looked at
  let _ ← invoke (.close d)
  return ()

/-- `SEND_RESPONSE`; the value is `*close_conn`. -/
def sendResponse (d : Desc) : NetProg Bool := do
  let r ← invoke (.write d .response)
  if r ≠ .done bufsiz then
    closeSock d
    return true
  else return false

/-- The answer of `handle_req` to a bad frame or token. When it cannot be written the
    connection is closed, but `close_conn` stays 0. -/
def reject (d : Desc) : NetProg Bool := do
  let r ← invoke (.write d .reject)
  if r = .failed then
    -- `handle_req` goes on to re-arm the descriptor that was closed here
    closeSock d
    return false
  else return false

/-! ## Files -/

/-- `FILE_ERROR_HANDLING`. -/
def fileErrorHandling (d f : Desc) : NetProg Bool := do
  let _ ← invoke (.close f)
  closeSock d
  return true

/-- Behind the loop of an upload: the file is closed, the message is stored, and the
    answer says whether both went well. -/
def fileReceived (d f : Desc) : NetProg Bool := do
  let _ ← invoke (.close f)
  sendResponse d

/-- The loop of an upload. Every round takes a byte at least, so that `fsize + 1` rounds
    are enough. -/
def receiveLoop (d f : Desc) : Nat → Nat → NetProg Bool
  | 0, _ => fileReceived d f
  | rounds + 1, fsize => do
    let p ← invoke (.poll d)
    -- a timeout has no `revents`, so it is found here and not by the test below
    if !p.asked then
      let _ ← invoke (.close f)
      sendResponse d
    else if p = .polled 0 true then fileErrorHandling d f
    else
      let r ← invoke (.read d)
      match r.count with
      -- `continue` leaves the loop: its condition has `nbytes > 0`
      | none => if r = .wouldBlock then fileReceived d f else fileErrorHandling d f
      | some nbytes =>
        if nbytes = 0 ∧ 0 < fsize then fileErrorHandling d f
        else
          let w ← invoke (.write f .data)
          if w ≠ .done nbytes then fileErrorHandling d f
          else if fsize ≤ nbytes then fileReceived d f
          else if 0 < nbytes then receiveLoop d f rounds (fsize - nbytes)
          else fileReceived d f

/-- `handle_msg_send` of a file. When the file cannot be created, the connection is
    closed and then answered on. -/
def receiveFile (d : Desc) (contentLen : Nat) : NetProg Bool := do
  match ← invoke .create with
  | .opened f => receiveLoop d f (contentLen + 1) contentLen
  | _ =>
    closeSock d
    sendResponse d

def fileSent (f : Desc) : NetProg Bool := do
  let _ ← invoke (.close f)
  return false

/-- The loop of a download, with at most `fsize + 1` rounds. -/
def sendLoop (d f : Desc) : Nat → Nat → NetProg Bool
  | 0, _ => fileSent f
  | rounds + 1, fsize => do
    let r ← invoke (.read f)
    match r.count with
    | none => fileSent f
    | some nbytes =>
      let p ← invoke (.poll d)
      if !p.asked then fileSent f
      else if p = .polled 0 true then fileSent f
      else
        let w ← invoke (.write d .data)
        if w ≠ .done nbytes then fileSent f
        else if fsize ≤ nbytes then fileSent f
        else if 0 < nbytes then sendLoop d f rounds (fsize - nbytes)
        else fileSent f

/-- `handle_msg_download_file`, from its frame on. -/
def sendFile (d : Desc) : NetProg Bool := do
  let r ← invoke (.write d .response)
  if r ≠ .done bufsiz then
    closeSock d
    return true
  else
    match ← invoke .openRead with
    | .opened f =>
      let sb ← invoke (.fstat f)
      match sb.count with
      | none => fileSent f
      | some fsize => sendLoop d f (fsize + 1) fsize
    | _ => return false

/-! ## Requests -/

/-- The receive loop; `false` if the connection was closed. A round takes a byte at
    least, so that `BUFSIZ` rounds are enough. -/
def receive (d : Desc) : Nat → Nat → NetProg Bool
  | 0, _ => return true
  | rounds + 1, nbytes => do
    let r ← invoke (.recv d)
    match r.count with
    | none =>
      -- what came before is parsed as a frame
      if 0 < nbytes then return true
      else
        closeSock d
        return false
    | some n =>
      if n = 0 then
        closeSock d
        return false
      else if nbytes + n < bufsiz then receive d rounds (nbytes + n)
      else return true

/-- The switch of `handle_req`; the value is `close_conn`. -/
def serveRequest (d : Desc) : SysReply → NetProg Bool
  | .verdict .malformed | .verdict .refused => reject d
  | .verdict .logout => do
    let _ ← invoke (.write d .response)
    -- `close` alone, without `close_sock`
    let _ ← invoke (.close d)
    return true
  | .verdict (.upload contentLen) => receiveFile d contentLen
  | .verdict .download => sendFile d
  | _ => sendResponse d

/-- `handle_req`. -/
def handleReq (d : Desc) : NetProg Unit := do
  let filled ← receive d bufsiz 0
  if filled then
    let _ ← invoke (.getpeername d)
    let v ← invoke .request
    let closeConn ← serveRequest d v
    if closeConn then return ()
    else
      -- `EPOLLONESHOT`: until then no worker gets an event of this descriptor
      let r ← invoke (.ctlMod d)
      if r = .failed then closeSock d else return ()
  else return ()

/-! ### The rounds of the loops

    A loop is left before its rounds are used up, so that their number makes no
    difference. -/

theorem receive_rounds (d : Desc) {rounds rounds' nbytes : Nat} (hmore : nbytes < bufsiz)
    (h : bufsiz ≤ nbytes + rounds) (h' : bufsiz ≤ nbytes + rounds') :
    receive d rounds nbytes = receive d rounds' nbytes := by
  -- each round that goes on has taken a byte
  induction rounds generalizing rounds' nbytes with
  | zero => omega
  | succ rounds ih =>
    cases rounds' with
    | zero => omega
    | succ rounds' =>
      simp only [receive, invoke_bind]
      congr 1
      funext r
      cases r.count with
      | none => rfl
      | some n =>
        by_cases hn : n = 0
        · simp only [hn, if_true]
        · by_cases hstop : nbytes + n < bufsiz
          · simp only [if_neg hn, if_pos hstop]
            exact ih hstop (by omega) (by omega)
          · simp only [if_neg hn, if_neg hstop]

theorem receiveLoop_rounds (d f : Desc) {rounds rounds' fsize : Nat} (h : fsize < rounds)
    (h' : fsize < rounds') : receiveLoop d f rounds fsize = receiveLoop d f rounds' fsize := by
  induction rounds generalizing rounds' fsize with
  | zero => omega
  | succ rounds ih =>
    cases rounds' with
    | zero => omega
    | succ rounds' =>
      simp only [receiveLoop, invoke_bind]
      congr 1
      funext p
      by_cases hasked : (!p.asked) = true
      · simp only [if_pos hasked]
      by_cases htime : p = .polled 0 true
      · simp only [if_neg hasked, if_pos htime]
      simp only [if_neg hasked, if_neg htime]
      congr 1
      funext r
      cases r.count with
      | none => rfl
      | some nbytes =>
        by_cases hnone : nbytes = 0 ∧ 0 < fsize
        · simp only [if_pos hnone]
        simp only [if_neg hnone]
        congr 1
        funext w
        -- what is missing gets less in each round that goes on
        by_cases hlast : fsize ≤ nbytes
        · simp only [if_pos hlast]
        · rw [@ih rounds' (fsize - nbytes) (by omega) (by omega)]

theorem sendLoop_rounds (d f : Desc) {rounds rounds' fsize : Nat} (h : fsize < rounds)
    (h' : fsize < rounds') : sendLoop d f rounds fsize = sendLoop d f rounds' fsize := by
  induction rounds generalizing rounds' fsize with
  | zero => omega
  | succ rounds ih =>
    cases rounds' with
    | zero => omega
    | succ rounds' =>
      simp only [sendLoop, invoke_bind]
      congr 1
      funext r
      cases r.count with
      | none => rfl
      | some nbytes =>
        dsimp only
        by_cases hlast : fsize ≤ nbytes
        · simp only [if_pos hlast]
        by_cases hpos : 0 < nbytes
        · rw [@ih rounds' (fsize - nbytes) (by omega) (by omega)]
        · simp only [if_neg hpos]

/-! ## Workers -/

/-- `accept_new_client`: one `accept` for one event. -/
def acceptNewClient : NetProg Unit := do
  match ← invoke .accept with
  | .opened d =>
    let r ← invoke (.setsockopt d)
    if r = .failed then
      let _ ← invoke (.close d)
      -- the whole server ends
      let _ ← invoke .exit
      return ()
    else
      let r ← invoke (.setsockopt d)
      if r = .failed then
        let _ ← invoke (.close d)
        let _ ← invoke .exit
        return ()
      else
        let r ← invoke (.ctlAdd d)
        if r = .failed then
          let _ ← invoke (.close d)
          return ()
        else return ()
  | _ => return ()

/-- The events of one `epoll_wait`, in order. -/
def serveEvents : List Ready → NetProg Unit
  | [] => return ()
  | .listen :: l => do
    acceptNewClient
    serveEvents l
  | .client d true :: l => do
    handleReq d
    serveEvents l
  | .client _ false :: l => serveEvents l

/-- `th_func`, for at most so many rounds. -/
def thFunc : Nat → NetProg Unit
  | 0 => return ()
  | rounds + 1 => do
    match ← invoke .epollWait with
    | .events l =>
      serveEvents l
      thFunc rounds
    | _ => return ()

/-! ## The kernel -/

/-- What epoll knows of a connection. -/
inductive Interest where
  | none
  | armed
  /-- Its event waits for an `epoll_wait`. -/
  | queued
  /-- Its event was delivered, and `EPOLLONESHOT` keeps others back. -/
  | disarmed
  deriving DecidableEq

/-- What the workers share. -/
structure Kernel where
  /-- Connections that nobody has accepted yet. -/
  backlog : List Nat := []
  nextConn : Nat := 0
  nextFile : Nat := 0
  /-- The event of `listen_fd` waits for an `epoll_wait`. -/
  listenReady : Bool := false
  fds : Nat → Option Handle := fun _ => .none
  interest : Nat → Interest := fun _ => .none
  exited : Bool := false

namespace Kernel

/-- An `epoll_wait` takes these events. -/
def collect : Kernel → List Ready → Option Kernel
  | s, [] => some s
  | s, .listen :: l => if s.listenReady then collect { s with listenReady := false } l else none
  | s, .client d _ :: l =>
    match d.handle with
    | .conn k =>
      if s.fds d.fd = some (.conn k) ∧ s.interest k = .queued then
        collect { s with interest := Function.update s.interest k .disarmed } l
      else none
    -- only connections are registered
    | .file _ => none

/-- A descriptor is closed: its number is free, and epoll forgets the connection. -/
def release (s : Kernel) (fd : Nat) : Kernel :=
  match s.fds fd with
  | some (.conn k) =>
    { s with fds := Function.update s.fds fd none, interest := Function.update s.interest k .none }
  | some (.file _) => { s with fds := Function.update s.fds fd none }
  | none => s

/-- A call of `epoll_ctl` on whatever the number stands for now. -/
def ctl (s : Kernel) (fd : Nat) (allowed : Interest → Bool) (i : Interest) : Option Kernel :=
  match s.fds fd with
  | some (.conn k) =>
    if allowed (s.interest k) then some { s with interest := Function.update s.interest k i }
    else none
  | _ => none

/-- A connection is accepted under a free number. -/
def acceptAs (s : Kernel) (d : Desc) : Option Kernel :=
  match s.backlog with
  | k :: rest =>
    -- the oldest connection, and any number that is free
    if d.handle = .conn k ∧ s.fds d.fd = none then
      some { s with backlog := rest, fds := Function.update s.fds d.fd (some (.conn k)) }
    else none
  | [] => none

/-- A file is opened under a free number. -/
def openAs (s : Kernel) (d : Desc) : Option Kernel :=
  if d.handle = .file s.nextFile ∧ s.fds d.fd = none then
    some { s with nextFile := s.nextFile + 1,
                  fds := Function.update s.fds d.fd (some (.file s.nextFile)) }
  else none

/-- What a call does when it returns `r`; `none` if it cannot return that. A number
    that is not open leads to a failure, a failing `close` frees the number all the
    same. -/
def answer (s : Kernel) (c : SysCall) (r : SysReply) : Option Kernel :=
  if s.exited then none
  else match c, r with
  | .epollWait, .events l => s.collect l
  | .accept, .opened d => s.acceptAs d
  | .create, .opened d | .openRead, .opened d => s.openAs d
  | .ctlAdd d, .done _ => s.ctl d.fd (· = .none) .armed
  | .ctlMod d, .done _ => s.ctl d.fd (· ≠ .none) .armed
  | .ctlDel d, .done _ => s.ctl d.fd (· ≠ .none) .none
  | .close d, .done _ => if (s.fds d.fd).isSome then some (s.release d.fd) else none
  | .close d, .failed => some (s.release d.fd)
  | .setsockopt d, .done n | .fcntl d, .done n | .recv d, .done n | .getpeername d, .done n
  | .read d, .done n | .write d _, .done n =>
    if (s.fds d.fd).isSome ∧ n ≤ bufsiz then some s else none
  | .fstat d, .done _ => if (s.fds d.fd).isSome then some s else none
  | .read _, .wouldBlock => some s
  | .poll _, .polled .. => some s
  | .request, .verdict _ => some s
  | .exit, .done _ => some { s with exited := true }
  | .arrive, .done _ =>
    some { s with backlog := s.backlog ++ [s.nextConn], nextConn := s.nextConn + 1,
                  listenReady := true }
  -- data on a connection that is not armed makes no event
  | .incoming k, .done _ =>
    some (if s.interest k = .armed then
      { s with interest := Function.update s.interest k .queued } else s)
  | .exit, .failed | .request, .failed | .arrive, .failed | .incoming _, .failed => none
  | _, .failed => some s
  | _, _ => none

/-- What a call may do. -/
def Answers (s : Kernel) (c : SysCall) (s' : Kernel) (r : SysReply) : Prop := s.answer c r = some s'

end Kernel

/-! ## Runs -/

/-- What happens outside: a client connects, or something can be read on a
    connection. -/
inductive Outside where
  | arrive
  | incoming (k : Nat)
  deriving DecidableEq

/-- What happens outside, in this order. -/
def outside : List Outside → NetProg Unit
  | [] => return ()
  | .arrive :: l => do
    let _ ← invoke .arrive
    outside l
  | .incoming k :: l => do
    let _ ← invoke (.incoming k)
    outside l

variable {W : Type} [DecidableEq W]

/-- The workers, and the rest of the world. -/
def party (rounds : W → Nat) (script : List Outside) : Option W → NetProg Unit
  | none => outside script
  | some w => thFunc (rounds w)

abbrev NetEntry (W : Type) : Type := Entry (Option W) SysCall SysReply Kernel

/-- The system calls of any number of workers, in any order, from a server without
    connections on. -/
abbrev NetRun (rounds : W → Nat) (script : List Outside) (log : List (NetEntry W)) (s : Kernel) :
    Prop :=
  Interleaved Kernel.Answers (party rounds script) {} log s

end MeshChat.Net
