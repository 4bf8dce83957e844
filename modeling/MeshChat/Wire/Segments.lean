import MeshChat.Wire.ResponseRoundTrip

/-! # Frames and segments

    TCP delivers a stream of bytes in pieces of any size. Both ends read a frame with
    a loop of `recv` calls that always ask for `BUFSIZ` bytes.

    * `recvFrame`: the loop at the start of `handle_req`. It stores each piece behind
      the ones before, and may read more than one frame.
    * `apiRecv`: the loop of `api_call`. Its offset is set back to 0 for every piece.
    * `framed_iff`: the server reads one frame exactly if some pieces add up to one.
    * `delivered_iff`: the client gets the frame exactly if every byte is the one of the
      last piece that covers it; for all frames only if there is a single piece.
-/

namespace MeshChat

open CMemory

/-- What a call of `recv` returns: an error, or the number of bytes; 0 is the end of
    the stream. -/
inductive Recv where
  | failed
  | bytes (n : Nat)
  deriving DecidableEq

/-- How a loop of `recv` calls ends: the connection is given up, the next call has not
    returned, or the loop is left. -/
inductive Received (α : Type) where
  | closed
  | waiting
  | left (a : α)

/-! ## The server -/

/-- The buffer of `handle_req`. -/
abbrev RecvBuf : Type := Mem (bufsiz + 1)

/-- What `handle_req` has behind its loop; `unread` is what the client has sent and
    was not read yet. -/
structure Filled where
  buf : RecvBuf
  nbytes : Nat
  unread : List UInt8

/-- The receive loop of `handle_req`. An error behind the first piece only leaves the
    loop. -/
def recvFrame : List Recv → RecvBuf → Nat → List UInt8 → Access (Received Filled)
  | [], _, _, _ => pure .waiting
  | .failed :: _, buf, nbytes, unread =>
    pure (if 0 < nbytes then .left ⟨buf, nbytes, unread⟩ else .closed)
  | .bytes n :: results, buf, nbytes, unread =>
    if n = 0 then pure .closed
    else do
      let buf ← buf.store nbytes (unread.take n)
      if nbytes + n < bufsiz then recvFrame results buf (nbytes + n) (unread.drop n)
      else pure (.left ⟨buf, nbytes + n, unread.drop n⟩)

/-- A way to cut the first bytes of a stream into results of `recv`, enough for a
    frame. -/
structure Segments (stream : List UInt8) (cuts : List Nat) : Prop where
  size : ∀ n ∈ cuts, 0 < n ∧ n ≤ bufsiz
  inside : cuts.sum ≤ stream.length
  enough : bufsiz ≤ cuts.sum

/-- The loop has read the first frame of the stream and nothing else. -/
def Framed (stream : List UInt8) (x : Access (Received Filled)) : Prop :=
  ∃ f copies, x = .ok (.left f) copies ∧ f.buf.slice 0 bufsiz = stream.take bufsiz ∧
    f.unread = stream.drop bufsiz

/-- How many bytes the loop has read when it is left. -/
def stopsAt (nbytes : Nat) : List Nat → Nat
  | [] => nbytes
  | n :: cuts => if nbytes + n < bufsiz then stopsAt (nbytes + n) cuts else nbytes + n

section Server

variable {stream : List UInt8}

theorem le_stopsAt {cuts : List Nat} {nbytes : Nat} (h : bufsiz ≤ nbytes + cuts.sum) :
    bufsiz ≤ stopsAt nbytes cuts := by
  induction cuts generalizing nbytes with
  | nil => simpa [stopsAt] using h
  | cons n cuts ih =>
    unfold stopsAt
    split
    · exact ih (by simpa [Nat.add_assoc] using h)
    · omega

theorem stopsAt_le {cuts : List Nat} {nbytes : Nat} : stopsAt nbytes cuts ≤ nbytes + cuts.sum := by
  induction cuts generalizing nbytes with
  | nil => simp [stopsAt]
  | cons n cuts ih =>
    unfold stopsAt
    rw [List.sum_cons]
    split
    · exact ih.trans (by omega)
    · omega

/-- The loop stops at the end of a frame exactly if some pieces end there. -/
theorem stopsAt_eq_iff {cuts : List Nat} {nbytes : Nat} (hpos : ∀ n ∈ cuts, 0 < n)
    (hstart : nbytes < bufsiz) (henough : bufsiz ≤ nbytes + cuts.sum) :
    stopsAt nbytes cuts = bufsiz ↔ ∃ k, nbytes + (cuts.take k).sum = bufsiz := by
  induction cuts generalizing nbytes with
  | nil =>
    rw [List.sum_nil] at henough
    omega
  | cons n cuts ih =>
    have hn := hpos n (List.mem_cons_self ..)
    have hrest : ∀ m ∈ cuts, 0 < m := fun m hm => hpos m (List.mem_cons_of_mem _ hm)
    have hshift : (∃ k, nbytes + ((n :: cuts).take k).sum = bufsiz) ↔
        ∃ k, nbytes + n + (cuts.take k).sum = bufsiz := by
      constructor
      · rintro ⟨k, hk⟩
        cases k with
        | zero =>
          rw [List.take_zero, List.sum_nil] at hk
          omega
        | succ k =>
          rw [List.take_succ_cons, List.sum_cons] at hk
          exact ⟨k, by omega⟩
      · rintro ⟨k, hk⟩
        exact ⟨k + 1, by rw [List.take_succ_cons, List.sum_cons]; omega⟩
    rw [hshift]
    unfold stopsAt
    split
    · rename_i hmore
      exact ih hrest hmore (by rw [List.sum_cons] at henough; omega)
    · rename_i hlast
      constructor
      · intro hstop
        exact ⟨0, by simpa using hstop⟩
      · rintro ⟨k, hk⟩
        omega

/-- The loop up to where it stops: the bytes are in the buffer, or a piece went over
    its end. -/
theorem recvFrame_cuts (stream : List UInt8) (cuts : List Nat) (buf : RecvBuf) (nbytes : Nat)
    (hpos : ∀ n ∈ cuts, 0 < n) (hinside : nbytes + cuts.sum ≤ stream.length)
    (henough : bufsiz ≤ nbytes + cuts.sum) (hstart : nbytes < bufsiz)
    (hread : buf.slice 0 nbytes = stream.take nbytes) :
    (stopsAt nbytes cuts ≤ bufsiz + 1 ∧
      ∃ f, recvFrame (cuts.map .bytes) buf nbytes (stream.drop nbytes) = .ok (.left f) [] ∧
        f.buf.slice 0 (stopsAt nbytes cuts) = stream.take (stopsAt nbytes cuts) ∧
        f.unread = stream.drop (stopsAt nbytes cuts)) ∨
    (bufsiz + 1 < stopsAt nbytes cuts ∧
      recvFrame (cuts.map .bytes) buf nbytes (stream.drop nbytes) = .fault []) := by
  induction cuts generalizing buf nbytes with
  | nil =>
    rw [List.sum_nil] at henough
    omega
  | cons n cuts ih =>
    have hn := hpos n (List.mem_cons_self ..)
    have hrest : ∀ m ∈ cuts, 0 < m := fun m hm => hpos m (List.mem_cons_of_mem _ hm)
    rw [List.sum_cons] at hinside henough
    have hpiece : ((stream.drop nbytes).take n).length = n := by
      rw [List.length_take, List.length_drop]
      omega
    simp only [List.map_cons, recvFrame, if_neg (show ¬ n = 0 by omega)]
    by_cases hfit : nbytes + n ≤ bufsiz + 1
    · -- the piece is stored behind the bytes before it
      have hstore : buf.store nbytes ((stream.drop nbytes).take n) =
          .ok (buf.put nbytes ((stream.drop nbytes).take n)) [] :=
        Mem.store_ok (by rw [hpiece]; exact hfit)
      have hread' : (buf.put nbytes ((stream.drop nbytes).take n)).slice 0 (nbytes + n) =
          stream.take (nbytes + n) := by
        have hprior : (stream.take nbytes).length = nbytes := by
          rw [List.length_take]
          omega
        have happend := @Mem.slice_put_append _ buf 0 (stream.take nbytes)
          ((stream.drop nbytes).take n) (by rw [hprior, hpiece]; omega) (by rw [hprior, hread])
        rw [List.length_append, hprior, hpiece, Nat.zero_add] at happend
        rw [happend, List.take_add]
      rw [hstore, Access.ok_bind, Access.after_nil, List.drop_drop]
      unfold stopsAt
      split
      · exact ih _ _ hrest (by omega) (by omega) ‹_› hread'
      · exact Or.inl ⟨hfit, _, rfl, hread', rfl⟩
    · have hstore : buf.store nbytes ((stream.drop nbytes).take n) = .fault [] :=
        if_neg (by rw [hpiece]; exact hfit)
      rw [hstore, Access.fault_bind]
      unfold stopsAt
      rw [if_neg (by omega)]
      exact Or.inr ⟨by omega, rfl⟩

/-- For every stream and every segmentation of it: the server reads one frame, inside
    its buffer, exactly if the first pieces add up to one. -/
theorem framed_iff (stream : List UInt8) (cuts : List Nat) (prior : RecvBuf)
    (hcuts : Segments stream cuts) :
    Framed stream (recvFrame (cuts.map .bytes) prior 0 stream) ↔
      ∃ k, (cuts.take k).sum = bufsiz := by
  have hpos : ∀ n ∈ cuts, 0 < n := fun n hn => (hcuts.size n hn).1
  have hinside := hcuts.inside
  have henough := hcuts.enough
  have hstops : stopsAt 0 cuts = bufsiz ↔ ∃ k, (cuts.take k).sum = bufsiz := by
    simpa using stopsAt_eq_iff hpos (Nat.zero_lt_succ _) (by simpa using henough)
  have hloop := recvFrame_cuts stream cuts prior 0 hpos (by simpa using hinside)
    (by simpa using henough) (Nat.zero_lt_succ _) rfl
  rw [← hstops]
  rw [List.drop_zero] at hloop
  rcases hloop with ⟨hle, f, hf, hbuf, hunread⟩ | ⟨hover, hfault⟩
  · rw [hf]
    constructor
    · -- one byte too many would be missing in what is left
      rintro ⟨f', copies, heq, -, hrest⟩
      cases heq
      rw [hunread] at hrest
      have hlength := congrArg List.length hrest
      rw [List.length_drop, List.length_drop] at hlength
      have hmin : bufsiz ≤ stopsAt 0 cuts := le_stopsAt (by simpa using henough)
      have hmax : stopsAt 0 cuts ≤ 0 + cuts.sum := stopsAt_le
      omega
    · intro hstop
      rw [hstop] at hbuf hunread
      exact ⟨f, [], rfl, hbuf, hunread⟩
  · rw [hfault]
    constructor
    · rintro ⟨f, copies, heq, -⟩
      cases heq
    · intro hstop
      omega

/-- A frame that arrives in two halves. -/
theorem framed_iff_halves :
    Framed (zeros bufsiz) (recvFrame ([4096, 4096].map .bytes) (fun _ => 0) 0 (zeros bufsiz)) := by
  refine (framed_iff (zeros bufsiz) [4096, 4096] (fun _ => 0) ⟨?_, ?_, ?_⟩).mpr ⟨2, rfl⟩
  · simp
  · simp
  · simp

/-- A frame and 1000 bytes of a file behind it: the second piece, of 5096 bytes, is
    stored at offset 4096 of 8193 bytes. -/
theorem file_behind_request_overruns :
    Segments (zeros (bufsiz + 1000)) [4096, 5096] ∧
      recvFrame ([4096, 5096].map .bytes) (fun _ => 0) 0 (zeros (bufsiz + 1000)) = .fault [] ∧
      ¬ Framed (zeros (bufsiz + 1000))
        (recvFrame ([4096, 5096].map .bytes) (fun _ => 0) 0 (zeros (bufsiz + 1000))) := by
  have hfault : recvFrame ([4096, 5096].map .bytes) (fun _ => 0) 0 (zeros (bufsiz + 1000)) =
      .fault [] := by
    have hloop := recvFrame_cuts (zeros (bufsiz + 1000)) [4096, 5096] (fun _ => 0) 0
      (by simp) (by simp) (by simp) (by simp) rfl
    rcases hloop with ⟨hle, -⟩ | ⟨-, hfault⟩
    · simp [stopsAt] at hle
    · exact hfault
  refine ⟨⟨by simp, by simp, by simp⟩, hfault, ?_⟩
  rw [hfault]
  rintro ⟨f, copies, heq, -⟩
  cases heq

end Server

/-! ## The client -/

/-- The receive loop of `api_call`. The offset `cur_recv` is 0 for every piece. -/
def apiRecv : List Recv → Frame → Nat → List UInt8 → Access (Received Frame)
  | [], _, _, _ => pure .waiting
  | .failed :: _, _, _, _ => pure .closed
  | .bytes n :: results, buf, sz, unread =>
    if n = 0 then pure .closed
    else do
      let buf ← buf.store 0 (unread.take n)
      if sz + n < bufsiz then apiRecv results buf (sz + n) (unread.drop n)
      else pure (.left buf)

/-- `api_call` behind `send`: the buffer is cleared, and what the loop leaves in it is
    parsed. -/
def apiCall (results : List Recv) (unread : List UInt8) : Access (Option Response) := do
  match ← apiRecv results (fun _ => 0) 0 unread with
  | .left buf => responseParse buf
  | .closed | .waiting => pure none

/-- The bytes of a frame. -/
def frameBytes (frame : Frame) : List UInt8 := frame.slice 0 bufsiz

/-- `response_parse` is given the frame that was sent. -/
def Delivered (frame : Frame) (cuts : List Nat) : Prop :=
  apiRecv (cuts.map .bytes) (fun _ => 0) 0 (frameBytes frame) = .ok (.left frame) []

/-- Where the last piece that is longer than `i` starts; `off` is the start of the
    first one. -/
def lastCover (i off : Nat) : List Nat → Option Nat
  | [] => none
  | n :: cuts => (lastCover i (off + n) cuts).or (if i < n then some off else none)

/-- The byte that ends up at `i`. -/
def overlaid (frame : Frame) (cuts : List Nat) (i : Nat) : UInt8 :=
  ((lastCover i 0 cuts).map fun off => frame.at' (off + i)).getD 0

/-- Every byte of the frame is the one at the same place of the last piece that is long
    enough, or 0 where no piece is. -/
def Repeats (frame : Frame) (cuts : List Nat) : Prop :=
  ∀ i < bufsiz, frame.at' i = overlaid frame cuts i

section Client

variable {frame : Frame}

theorem eq_nil_of_sum_eq_zero {l : List Nat} (hpos : ∀ n ∈ l, 0 < n) (hsum : l.sum = 0) :
    l = [] := by
  cases l with
  | nil => rfl
  | cons n l =>
    have hn := hpos n (List.mem_cons_self ..)
    rw [List.sum_cons] at hsum
    omega

/-- Every piece is laid over the front of the buffer. -/
theorem apiRecv_cuts (frame buf : Frame) {cuts : List Nat} {sz : Nat} (hpos : ∀ n ∈ cuts, 0 < n)
    (hsum : sz + cuts.sum = bufsiz) (hmore : sz < bufsiz) :
    ∃ buf', apiRecv (cuts.map .bytes) buf sz ((frameBytes frame).drop sz) = .ok (.left buf') [] ∧
      ∀ i < bufsiz, buf'.at' i =
        ((lastCover i sz cuts).map fun off => frame.at' (off + i)).getD (buf.at' i) := by
  induction cuts generalizing buf sz with
  | nil =>
    rw [List.sum_nil] at hsum
    omega
  | cons n cuts ih =>
    have hn := hpos n (List.mem_cons_self ..)
    have hrest : ∀ m ∈ cuts, 0 < m := fun m hm => hpos m (List.mem_cons_of_mem _ hm)
    rw [List.sum_cons] at hsum
    have hpiece : (((frameBytes frame).drop sz).take n).length = n := by
      rw [List.length_take, List.length_drop, frameBytes, Mem.slice_length]
      omega
    have hstore : buf.store 0 (((frameBytes frame).drop sz).take n) =
        .ok (buf.put 0 (((frameBytes frame).drop sz).take n)) [] :=
      Mem.store_ok (by rw [hpiece]; omega)
    -- the piece covers the first bytes, the others are as they were
    have hput : ∀ i, (buf.put 0 (((frameBytes frame).drop sz).take n)).at' i =
        if i < n then frame.at' (sz + i) else buf.at' i := by
      intro i
      rw [Mem.at'_put (by rw [hpiece]; omega), hpiece]
      by_cases hi : i < n
      · rw [if_pos (by omega), if_pos hi, Nat.sub_zero, List.getD_eq_getElem?_getD,
          List.getElem?_take_of_lt hi, List.getElem?_drop, frameBytes, Mem.slice,
          List.getElem?_map, List.getElem?_range (by omega)]
        simp
      · rw [if_neg (by omega), if_neg hi]
    simp only [List.map_cons, apiRecv, if_neg (show ¬ n = 0 by omega), hstore, Access.ok_bind,
      Access.after_nil, List.drop_drop]
    split
    · rename_i hmore'
      obtain ⟨buf', hrun, hbytes⟩ := ih (buf.put 0 (((frameBytes frame).drop sz).take n)) hrest
        (by omega) hmore'
      refine ⟨buf', hrun, fun i hi => ?_⟩
      rw [hbytes i hi, hput, lastCover]
      cases lastCover i (sz + n) cuts with
      | some off => rfl
      | none => by_cases hin : i < n <;> simp [hin]
    · -- the last piece
      obtain rfl : cuts = [] := eq_nil_of_sum_eq_zero hrest (by omega)
      refine ⟨_, rfl, fun i _ => ?_⟩
      rw [hput, lastCover, lastCover]
      by_cases hin : i < n <;> simp [hin]

theorem delivered_iff_repeats {cuts : List Nat} (hpos : ∀ n ∈ cuts, 0 < n)
    (hsum : cuts.sum = bufsiz) : Delivered frame cuts ↔ Repeats frame cuts := by
  obtain ⟨buf, hrun, hbytes⟩ := apiRecv_cuts frame (fun _ => 0) hpos
    (by simpa using hsum) (Nat.zero_lt_succ _)
  rw [List.drop_zero] at hrun
  have hzero : ∀ i, Mem.at' (n := bufsiz) (fun _ => 0) i = 0 := by
    intro i
    unfold Mem.at'
    split <;> rfl
  unfold Delivered
  rw [hrun]
  constructor
  · intro heq i hi
    cases heq
    rw [overlaid, hbytes i hi, hzero]
  · intro hrepeats
    have hsame : buf = frame := by
      funext i
      have hi := hbytes i i.isLt
      rw [hzero] at hi
      simpa [Mem.at'] using hi.trans (hrepeats i i.isLt).symm
    rw [hsame]

/-- A piece that is not the whole frame does not reach its last byte. -/
theorem lastCover_last {cuts : List Nat} {off : Nat} (hshort : ∀ n ∈ cuts, n < bufsiz) :
    lastCover (bufsiz - 1) off cuts = none := by
  induction cuts generalizing off with
  | nil => rfl
  | cons n cuts ih =>
    have hn := hshort n (List.mem_cons_self ..)
    rw [lastCover, ih fun m hm => hshort m (List.mem_cons_of_mem _ hm), if_neg (by omega)]
    rfl

/-- All frames arrive only in one piece. -/
theorem delivered_all_iff {cuts : List Nat} (hpos : ∀ n ∈ cuts, 0 < n)
    (hsum : cuts.sum = bufsiz) : (∀ frame, Delivered frame cuts) ↔ cuts = [bufsiz] := by
  constructor
  · intro hall
    by_contra hcuts
    have hshort : ∀ n ∈ cuts, n < bufsiz := by
      intro n hn
      by_contra hlong
      -- the other pieces are empty, and there are none of those
      obtain ⟨before, behind, rfl⟩ := List.append_of_mem hn
      rw [List.sum_append, List.sum_cons] at hsum
      have hbefore : before = [] := eq_nil_of_sum_eq_zero
        (fun m hm => hpos m (List.mem_append_left _ hm)) (by omega)
      have hbehind : behind = [] := eq_nil_of_sum_eq_zero
        (fun m hm => hpos m (List.mem_append_right _ (List.mem_cons_of_mem _ hm))) (by omega)
      rw [hbefore, hbehind] at hcuts
      exact hcuts (by simp only [List.nil_append, List.cons.injEq, and_true]; omega)
    have hlast := (delivered_iff_repeats hpos hsum).mp (hall fun _ => 1) (bufsiz - 1) (by simp)
    unfold overlaid at hlast
    rw [lastCover_last hshort] at hlast
    simp [Mem.at'] at hlast
  · rintro rfl frame
    refine (delivered_iff_repeats hpos hsum).mpr fun i hi => ?_
    simp [overlaid, lastCover, hi]

end Client

/-- For every frame and every way to cut it: `response_parse` gets the frame exactly if
    its bytes repeat as the pieces do, and it gets every frame only in one piece. Where
    it does, `api_call` returns what the frame says. -/
theorem delivered_iff (cuts : List Nat) (hpos : ∀ n ∈ cuts, 0 < n) (hsum : cuts.sum = bufsiz) :
    (∀ frame, Delivered frame cuts ↔ Repeats frame cuts) ∧
    ((∀ frame, Delivered frame cuts) ↔ cuts = [bufsiz]) ∧
    ∀ frame, Delivered frame cuts →
      apiCall (cuts.map .bytes) (frameBytes frame) = responseParse frame := by
  refine ⟨fun frame => delivered_iff_repeats hpos hsum, delivered_all_iff hpos hsum, ?_⟩
  intro frame hdelivered
  rw [apiCall, hdelivered, Access.ok_bind, Access.after_nil]

/-- A frame that is read in one piece is parsed as it was sent, whatever comes behind it. -/
theorem apiCall_whole (frame : Frame) (behind : List UInt8) :
    apiCall [.bytes bufsiz] (frameBytes frame ++ behind) = responseParse frame := by
  have hlen : (frameBytes frame).length = bufsiz := Mem.slice_length ..
  have hpiece : (frameBytes frame ++ behind).take bufsiz = (frameBytes frame).take bufsiz := by
    rw [List.take_left' hlen, List.take_of_length_le hlen.le]
  have hread : apiRecv [.bytes bufsiz] (fun _ => 0) 0 (frameBytes frame) = .ok (.left frame) [] :=
    (delivered_all_iff (by simp) (by simp)).mpr rfl frame
  have hsame : apiRecv [.bytes bufsiz] (fun _ => 0) 0 (frameBytes frame ++ behind) =
      apiRecv [.bytes bufsiz] (fun _ => 0) 0 (frameBytes frame) := by
    simp [apiRecv, hpiece]
  rw [apiCall, hsame, hread, Access.ok_bind, Access.after_nil]

/-- One piece. -/
theorem delivered_iff_whole :
    Delivered (fun _ => 1) [bufsiz] ∧
      apiCall ([bufsiz].map .bytes) (frameBytes fun _ => 1) = responseParse fun _ => 1 := by
  obtain ⟨-, hall, hcall⟩ := delivered_iff [bufsiz] (by simp) (by simp)
  have hone := hall.mpr rfl fun _ => 1
  exact ⟨hone, hcall _ hone⟩

/-- A response to `conv_drop` that arrives in two halves: the second one, which is all
    zeros, is laid over the header. -/
theorem halves_not_delivered :
    ∃ frame, (ResponseCall.convDrop 200).make (fun _ => 0) = .ok frame [] ∧
      frame.at' 0 = 2 ∧ frame.at' 4096 = 0 ∧ ¬ Delivered frame [4096, 4096] := by
  have hmake : (ResponseCall.convDrop 200).make (fun _ => 0) =
      .ok (responseHeaderImage { group := 2, action := 1, statusCode := 200 } fun _ => 0) [] := by
    simp [ResponseCall.make, makeResponseConvDrop, makeResponseEmptyBody, makeResponseHeader,
      responseHeaderImage, Mem.store]
  have hgroup : (responseHeaderImage { group := 2, action := 1, statusCode := 200 }
      fun _ => 0).at' 0 = 2 := by decide
  have hhalf : (responseHeaderImage { group := 2, action := 1, statusCode := 200 }
      fun _ => 0).at' 4096 = 0 := by decide
  refine ⟨_, hmake, hgroup, hhalf, fun hdelivered => ?_⟩
  have hrepeats := (delivered_iff_repeats (by simp) (by simp)).mp hdelivered 0 (by simp)
  rw [hgroup] at hrepeats
  have hcover : lastCover 0 0 [4096, 4096] = some 4096 := rfl
  unfold overlaid at hrepeats
  rw [hcover, Option.map_some, Option.getD_some, Nat.add_zero, hhalf] at hrepeats
  cases hrepeats

end MeshChat
