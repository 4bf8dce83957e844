import MeshChat.Utils.Strings
import MeshChat.Wire.Response

/-! # The strings of the parsers (`utils/string.c`)

    `string_new` and its siblings keep each string they allocate in a global list, and
    `string_remove` frees a string that it finds there. The parsers of frames take their
    strings from it, and `request_destroy` and `response_destroy` should give them back.

    * `Strings`: the list and the allocated blocks; `Malloc`: a `malloc` that returns no
      address twice.
    * `StrM`: code over memory and over the list.
    * `Represents`: the same list in memory; `string_remove` does the same to both.
    * `enroll`: register some strings one after the other. `destroy_enroll`: removing them
      leaves the list as it was before.
    * `requestParsePtr`, `responseParsePtr`: the parsers with the addresses of their strings.
      `requestParseBodyPtr_eq`, `responseParseBodyPtr_eq`: they parse as the parsers do, and
      then register the strings of what was parsed.
    * `parseDestroy_leaves`: one frame; `balanced_iff`: any number of frames. Only the parser
      of responses gives back what it takes.
-/

namespace MeshChat

open CMemory

/-! ## The list -/

/-- The list of `utils/string.c`, newest first, and the blocks that `malloc` has given out for
    strings and `free` has not taken back. -/
structure Strings where
  head : List Nat := []
  blocks : List (Nat × List UInt8) := []
  deriving DecidableEq

/-- A `malloc` that does not fail and returns no address that is still allocated. -/
structure Malloc where
  pick : Strings → Nat
  nonnull : ∀ s, pick s ≠ 0
  fresh : ∀ s, pick s ∉ s.blocks.map Prod.fst

/-- Code that reads memory and changes the list. -/
def StrM (α : Type) : Type := Strings → Access (α × Strings)

namespace StrM

variable {α β : Type}

instance : Monad StrM where
  pure a := fun s => .ok (a, s) []
  bind p f := fun s => p s >>= fun x => f x.1 x.2

instance : MonadLift Access StrM where
  monadLift x := fun s => x >>= fun a => .ok (a, s) []

/-- An access outside an object. -/
def fault : StrM α := fun _ => .fault []

theorem lift_bind (x : Access α) (f : α → StrM β) (s : Strings) :
    ((liftM x : StrM α) >>= f) s = x >>= fun a => f a s := by
  show ((x >>= fun a => .ok (a, s) []) >>= fun y => f y.1 y.2) = _
  cases x with
  | fault l => rfl
  | ok a l => simp

/-- An access that is followed by the same on both sides. -/
theorem lift_bind_eq {γ : Type} {x : Access α} {f : α → StrM β} {g : α → Access γ}
    {k : γ → Access (β × Strings)} {s : Strings} (h : ∀ a, f a s = g a >>= k) :
    ((liftM x : StrM α) >>= f) s = (x >>= g) >>= k := by
  rw [lift_bind, Access.bind_assoc, funext h]

end StrM

/-- Register a block with these bytes. -/
def Strings.push (s : Strings) (x : Nat × List UInt8) : Strings := ⟨x.1 :: s.head, x :: s.blocks⟩

/-- `string_new`, `string_new_n` and `string_mem_n` differ in the bytes that they copy. -/
def register (malloc : Malloc) (bytes : List UInt8) : StrM Nat := fun s =>
  .ok (malloc.pick s, s.push (malloc.pick s, bytes)) []

def stringNew (malloc : Malloc) (str : CStr) : StrM Nat := register malloc str.bytes

def stringNewN (malloc : Malloc) (str : CStr) : StrM Nat := register malloc str.bytes

def stringMemN (malloc : Malloc) (bytes : List UInt8) : StrM Nat := register malloc bytes

theorem stringNew_bind {α : Type} (malloc : Malloc) (str : CStr) (f : Nat → StrM α) (s : Strings) :
    (stringNew malloc str >>= f) s =
      f (malloc.pick s) (s.push (malloc.pick s, str.bytes)) :=
  Access.after_nil _

theorem stringMemN_bind {α : Type} (malloc : Malloc) (bytes : List UInt8) (f : Nat → StrM α)
    (s : Strings) :
    (stringMemN malloc bytes >>= f) s = f (malloc.pick s) (s.push (malloc.pick s, bytes)) :=
  Access.after_nil _

/-- `free`; it must not be called for what is not allocated. -/
def free (p : Nat) : StrM Unit := fun s =>
  if p ∈ s.blocks.map Prod.fst then
    .ok ((), { s with blocks := s.blocks.eraseP fun x => x.1 = p }) []
  else .fault []

/-- `string_remove`: the first node with this address is taken out of the list, and the address
    is freed. -/
def stringRemove (p : Nat) : StrM Unit := fun s =>
  -- an address that is not in the list is left alone
  if p ∈ s.head then free p { s with head := s.head.erase p } else .ok ((), s) []

/-- The pointers of a body, in the order in which they are tested for `NULL` and removed. -/
def bodyDestroy : List Nat → StrM Unit
  | [] => pure ()
  | p :: ps =>
    if p = 0 then bodyDestroy ps
    else do
      stringRemove p
      bodyDestroy ps

/-! ## The list in memory -/

/-- The list in memory has these entries, and nothing else is allocated for strings. -/
def Represents (r : Utils.Registry) (s : Strings) : Prop :=
  s.blocks.map Prod.fst = s.head ∧ ∃ l, Utils.Holds r.heap [] r.head l ∧ l.map Prod.snd = s.head

theorem Represents.exact {r : Utils.Registry} {s : Strings} (h : Represents r s) :
    r.Exact s.head := by
  obtain ⟨-, l, hh, hl⟩ := h
  rw [← hl]
  exact hh.exact

/-- A string that was registered in memory. -/
theorem Represents.push {r r' : Utils.Registry} {s : Strings} (h : Represents r s)
    {x : Utils.RegistryM Nat} {p : Nat} {excuse : LinkedList.Trap → Prop}
    (hx : ∀ l, Utils.Holds r.heap [] r.head l →
      LinkedList.Yields x r (Utils.Registered l) excuse)
    (hrun : x r = .ok (p, r')) (bytes : List UInt8) : Represents r' (s.push (p, bytes)) := by
  obtain ⟨hblocks, l, hh, hl⟩ := h
  obtain ⟨node, hh'⟩ := (hx l hh).post_of_ok hrun
  refine ⟨?_, _, hh', ?_⟩
  · rw [Strings.push, List.map_cons, hblocks]
  · rw [Strings.push, List.map_cons, hl]

/-- `string_remove` does the same to the list in memory as to the list of addresses. -/
theorem Represents.stringRemove {r : Utils.Registry} {s : Strings} (h : Represents r s)
    (p : Nat) : ∃ r' s', Utils.stringRemove p r = .ok ((), r') ∧
      MeshChat.stringRemove p s = .ok ((), s') [] ∧ Represents r' s' := by
  obtain ⟨hblocks, l, hh, hl⟩ := h
  have hnodup : s.head.Nodup := hl ▸ hh.nodup
  have hmemory : LinkedList.Yields (Utils.stringRemove p) r
      (fun _ r' => Utils.Holds r'.heap [] r'.head (l.filter fun x => x.2 ≠ p))
      (fun _ => False) := Utils.stringRemove_yields hh p
  rcases hmemory with ⟨_, r', hrun, hrest⟩ | ⟨_, _, hfalse⟩
  · have hentries : (l.filter fun x => x.2 ≠ p).map Prod.snd = s.head.erase p := by
      rw [hnodup.erase_eq_filter, ← hl, List.filter_map]
      congr 1
      apply List.filter_congr
      intro x _
      simp [bne, beq_eq_decide]
    by_cases hp : p ∈ s.head
    · have hfree : free p { s with head := s.head.erase p } =
          .ok ((), ⟨s.head.erase p, s.blocks.eraseP fun x => x.1 = p⟩) [] := by
        rw [free, if_pos (hblocks ▸ hp)]
      have hleft : (s.blocks.eraseP fun x => x.1 = p).map Prod.fst = s.head.erase p := by
        rw [← hblocks, List.erase_eq_eraseP', List.eraseP_map]
        rfl
      refine ⟨r', ⟨s.head.erase p, s.blocks.eraseP fun x => x.1 = p⟩, hrun, ?_, hleft, _, hrest,
        hentries⟩
      rw [MeshChat.stringRemove, if_pos hp, hfree]
    · refine ⟨r', s, hrun, ?_, hblocks, _, hrest, ?_⟩
      · rw [MeshChat.stringRemove, if_neg hp]
      · rw [hentries, List.erase_of_not_mem hp]
  · exact hfalse.elim

/-! ## Registering and removing -/

/-- Several blocks, the last one newest. -/
def Strings.pushAll (s : Strings) (xs : List (Nat × List UInt8)) : Strings :=
  ⟨(xs.map Prod.fst).reverse ++ s.head, xs.reverse ++ s.blocks⟩

theorem Strings.pushAll_cons (s : Strings) (x : Nat × List UInt8) (xs : List (Nat × List UInt8)) :
    s.pushAll (x :: xs) = (s.push x).pushAll xs := by
  simp [pushAll, push]

/-- The oldest of some blocks is removed. -/
theorem stringRemove_pushAll (s : Strings) (x : Nat × List UInt8) {xs : List (Nat × List UInt8)}
    (hx : x.1 ∉ xs.map Prod.fst) :
    stringRemove x.1 (s.pushAll (x :: xs)) = .ok ((), s.pushAll xs) [] := by
  -- the addresses in front are those of newer strings, and all different from this one
  have hhead : (s.pushAll (x :: xs)).head.erase x.1 = (s.pushAll xs).head := by
    have hnot : x.1 ∉ (xs.map Prod.fst).reverse := by simpa using hx
    simp only [Strings.pushAll, List.map_cons, List.reverse_cons, List.append_assoc]
    rw [List.erase_append_right _ hnot]
    simp
  have hblocks : (s.pushAll (x :: xs)).blocks.eraseP (fun y => y.1 = x.1) =
      (s.pushAll xs).blocks := by
    have hnot : ∀ y ∈ xs.reverse, ¬ (decide (y.1 = x.1)) = true := by
      intro y hy
      rw [decide_eq_true_eq]
      intro heq
      exact hx (List.mem_map.mpr ⟨y, List.mem_reverse.mp hy, heq⟩)
    simp only [Strings.pushAll, List.reverse_cons, List.append_assoc]
    rw [List.eraseP_append_right _ hnot]
    simp
  rw [stringRemove, if_pos (by simp [Strings.pushAll]), free, if_pos (by simp [Strings.pushAll])]
  rw [hhead, hblocks]

/-- Removing all of them, oldest first, leaves what was there before. -/
theorem bodyDestroy_pushAll {ps : List Nat} {xs : List (Nat × List UInt8)}
    (hps : ps.filter (· ≠ 0) = xs.map Prod.fst) (hxs : (xs.map Prod.fst).Nodup) (s : Strings) :
    bodyDestroy ps (s.pushAll xs) = .ok ((), s) [] := by
  -- over the pointers; those that are `NULL` have no block
  induction ps generalizing xs with
  | nil =>
    obtain rfl : xs = [] := by simpa using hps.symm
    rfl
  | cons p ps ih =>
    by_cases hp : p = 0
    · rw [List.filter_cons_of_neg (by simpa using hp)] at hps
      rw [bodyDestroy, if_pos hp]
      exact ih hps hxs
    · rw [List.filter_cons_of_pos (by simpa using hp)] at hps
      cases xs with
      | nil => cases hps
      | cons x xs =>
        rw [List.map_cons, List.cons.injEq] at hps
        rw [List.map_cons, List.nodup_cons] at hxs
        obtain ⟨rfl, hps⟩ := hps
        rw [bodyDestroy, if_neg hp]
        show (stringRemove x.1 (s.pushAll (x :: xs)) >>= fun y => bodyDestroy ps y.2) = _
        rw [stringRemove_pushAll s x hxs.1, Access.ok_bind, Access.after_nil]
        exact ih hps hxs.2

/-- Register the strings of some fields one after the other; an empty field is `NULL`. -/
def enroll (malloc : Malloc) : List (Option (List UInt8)) → Strings → List Nat × Strings
  | [], s => ([], s)
  | none :: fields, s => (0 :: (enroll malloc fields s).1, (enroll malloc fields s).2)
  | some bytes :: fields, s =>
    let s' := s.push (malloc.pick s, bytes)
    (malloc.pick s :: (enroll malloc fields s').1, (enroll malloc fields s').2)

theorem enroll_pushAll (malloc : Malloc) (fields : List (Option (List UInt8))) (s : Strings) :
    ∃ xs, (enroll malloc fields s).2 = s.pushAll xs ∧
      (enroll malloc fields s).1.filter (· ≠ 0) = xs.map Prod.fst ∧ (xs.map Prod.fst).Nodup ∧
      ∀ p ∈ xs.map Prod.fst, p ∉ s.blocks.map Prod.fst := by
  induction fields generalizing s with
  | nil => exact ⟨[], rfl, rfl, List.nodup_nil, by simp⟩
  | cons field fields ih =>
    cases field with
    | none =>
      obtain ⟨xs, hstate, hptrs, hnodup, hfresh⟩ := ih s
      exact ⟨xs, hstate, by rw [enroll, List.filter_cons_of_neg (by simp), hptrs], hnodup, hfresh⟩
    | some bytes =>
      -- a later address is fresh in a registry that has this one already
      obtain ⟨xs, hstate, hptrs, hnodup, hfresh⟩ := ih (s.push (malloc.pick s, bytes))
      have hnew : ∀ p ∈ xs.map Prod.fst, p ≠ malloc.pick s ∧ p ∉ s.blocks.map Prod.fst := by
        intro p hp
        have := hfresh p hp
        simpa [Strings.push] using this
      refine ⟨(malloc.pick s, bytes) :: xs, ?_, ?_, ?_, ?_⟩
      · rw [Strings.pushAll_cons]
        exact hstate
      · rw [enroll, List.filter_cons_of_pos (by simpa using malloc.nonnull s), hptrs]
        rfl
      · rw [List.map_cons, List.nodup_cons]
        exact ⟨fun hmem => (hnew _ hmem).1 rfl, hnodup⟩
      · rw [List.map_cons, List.forall_mem_cons]
        exact ⟨malloc.fresh s, fun p hp => (hnew p hp).2⟩

/-- **Registering and removing.** -/
theorem destroy_enroll (malloc : Malloc) (fields : List (Option (List UInt8))) (s : Strings) :
    bodyDestroy (enroll malloc fields s).1 (enroll malloc fields s).2 = .ok ((), s) [] := by
  obtain ⟨xs, hstate, hptrs, hnodup, -⟩ := enroll_pushAll malloc fields s
  rw [hstate]
  exact bodyDestroy_pushAll hptrs hnodup s

/-! ## Requests -/

/-- The strings of a body, in the order of `request_body_destroy`. -/
def RequestBody.fields : RequestBody → List (Option (List UInt8))
  | .auth r => [r.uname, r.password, r.phone, r.email].map (·.map CStr.bytes)
  | .user r => [r.uname.map CStr.bytes]
  | .conv r => [r.gname.map CStr.bytes]
  | .chat _ => []
  | .msg r => [r.msgContent.map CStr.bytes]

def requestBodyDestroy (ptrs : List Nat) : StrM Unit := bodyDestroy ptrs

/-- `request_parse_auth`. A frame that is rejected gives back the two strings that it has. -/
def requestParseAuthPtr (malloc : Malloc) (header : RequestHeader) (buf : Frame) :
    StrM (Option (RequestBody × List Nat)) := do
  let bodyLen := header.bodyLen.toNat
  let copied ← (buf.load requestHeaderLen bodyLen).after [bodyLen]
  let uname := 0
  let (arr, rest) ← fieldTokenizer (some requestBodyLen) (copied ++ [0]) uname 0
  let password := rest
  let (arr, rest) ← fieldTokenizer (some requestBodyLen) arr password rest
  let unameStr ← strAt arr uname
  let unamePtr ← stringNew malloc unameStr
  let passwordStr ← strAt arr password
  let passwordPtr ← stringNew malloc passwordStr
  if header.action = 0 then
    let phone := rest
    let (arr, rest) ← fieldTokenizer (some requestBodyLen) arr phone rest
    let email := rest
    let (arr, _) ← fieldTokenizer (some requestBodyLen) arr email rest
    -- the lengths are taken again: the cuts have moved the terminators
    let unameNow ← strAt arr uname
    let passwordNow ← strAt arr password
    let phoneNow ← strAt arr phone
    let emailLen : Int :=
      (bodyLen : Int) - unameNow.strlen - passwordNow.strlen - phoneNow.strlen - 3
    if emailLen < 0 then
      requestBodyDestroy [unamePtr, passwordPtr, 0, 0]
      pure none
    -- the last store may be outside of the array
    else if email + emailLen.toNat < arr.length then
      let arr := arr.set (email + emailLen.toNat) 0
      let phoneStr ← strAt arr phone
      let phonePtr ← stringNew malloc phoneStr
      let emailStr ← strAt arr email
      let emailPtr ← stringNew malloc emailStr
      pure (some (.auth ⟨some unameStr, some passwordStr, some phoneStr, some emailStr⟩,
        [unamePtr, passwordPtr, phonePtr, emailPtr]))
    else StrM.fault
  else if header.action ≠ 1 then
    requestBodyDestroy [unamePtr, passwordPtr, 0, 0]
    pure none
  else
    pure (some (.auth { uname := some unameStr, password := some passwordStr },
      [unamePtr, passwordPtr, 0, 0]))

/-- `request_parse_user`. -/
def requestParseUserPtr (malloc : Malloc) (header : RequestHeader) (buf : Frame) :
    StrM (Option (RequestBody × List Nat)) :=
  if header.action = 0 then
    pure (some (.user {}, [0]))
  else if header.action = 1 then do
    let userId ← buf.loadWord requestHeaderLen
    pure (some (.user { userId }, [0]))
  else if header.action = 2 then do
    let uname ← copyString buf requestHeaderLen header.bodyLen.toNat
    let unamePtr ← stringNewN malloc uname
    pure (some (.user { uname := some uname }, [unamePtr]))
  else do
    requestBodyDestroy [0]
    pure none

/-- `request_parse_conv`. -/
def requestParseConvPtr (malloc : Malloc) (header : RequestHeader) (buf : Frame) :
    StrM (Option (RequestBody × List Nat)) :=
  if header.action = 0 then do
    let gname ← copyString buf requestHeaderLen header.bodyLen.toNat
    let gnamePtr ← stringNewN malloc gname
    pure (some (.conv { gname := some gname }, [gnamePtr]))
  else if header.action = 1 ∨ header.action = 4 ∨ header.action = 5 then do
    let convId ← buf.loadWord requestHeaderLen
    pure (some (.conv { convId }, [0]))
  else if header.action = 2 ∨ header.action = 3 then do
    let convId ← buf.loadWord requestHeaderLen
    let userId ← buf.loadWord (requestHeaderLen + 4)
    pure (some (.conv { convId, userId }, [0]))
  else if header.action = 6 then
    pure (some (.conv {}, [0]))
  else do
    requestBodyDestroy [0]
    pure none

/-- `request_parse_chat`. -/
def requestParseChatPtr (header : RequestHeader) (buf : Frame) :
    StrM (Option (RequestBody × List Nat)) :=
  if header.action = 0 then do
    let userId2 ← buf.loadWord requestHeaderLen
    pure (some (.chat { userId2 }, []))
  else if header.action = 1 ∨ header.action = 3 then do
    let chatId ← buf.loadWord requestHeaderLen
    pure (some (.chat { chatId }, []))
  else if header.action = 2 then
    pure (some (.chat {}, []))
  else do
    requestBodyDestroy []
    pure none

/-- `request_parse_msg`. -/
def requestParseMsgPtr (malloc : Malloc) (header : RequestHeader) (buf : Frame) :
    StrM (Option (RequestBody × List Nat)) :=
  if header.action = 0 ∨ header.action = 5 then do
    let convId ← buf.loadWord requestHeaderLen
    let chatId ← buf.loadWord (requestHeaderLen + 4)
    pure (some (.msg { convId, chatId }, [0]))
  else if header.action = 1 ∨ header.action = 3 then do
    let msgId ← buf.loadWord requestHeaderLen
    pure (some (.msg { msgId }, [0]))
  else if header.action = 2 then do
    let convId ← buf.loadWord requestHeaderLen
    let chatId ← buf.loadWord (requestHeaderLen + 4)
    let replyId ← buf.loadWord (requestHeaderLen + 8)
    let text ← copyString buf (requestHeaderLen + 12) (header.bodyLen - 12).toNat
    let textPtr ← stringNewN malloc text
    pure (some (.msg { convId, chatId, replyId, msgContent := some text }, [textPtr]))
  else if header.action = 4 then
    pure (some (.msg {}, [0]))
  else if header.action = 6 then do
    let msgId ← buf.loadWord requestHeaderLen
    pure (some (.msg { msgId }, [0]))
  else do
    requestBodyDestroy [0]
    pure none

/-- The switch on the group byte. -/
def requestParseBodyPtr (malloc : Malloc) (header : RequestHeader) (buf : Frame) :
    StrM (Option (RequestBody × List Nat)) :=
  if header.group = 0 then requestParseAuthPtr malloc header buf
  else if header.group = 1 then requestParseUserPtr malloc header buf
  else if header.group = 2 then requestParseConvPtr malloc header buf
  else if header.group = 3 then requestParseChatPtr header buf
  else if header.group = 4 then requestParseMsgPtr malloc header buf
  else pure none

/-- A parsed request with the addresses of its strings. -/
structure RequestPtr where
  request : Request
  token : Nat
  body : List Nat

/-- `request_parse`. The token is registered before anything is checked. -/
def requestParsePtr (malloc : Malloc) (buf : Frame) : StrM (Option RequestPtr) := do
  let header ← requestParseHeader buf
  -- nothing keeps this address but the header
  let token ← stringMemN malloc header.token
  let body ← requestParseBodyPtr malloc header buf
  pure (body.map fun x => ⟨⟨header, x.1⟩, token, x.2⟩)

/-- `request_destroy`: the body only. -/
def requestDestroy : Option RequestPtr → StrM Unit
  | none => pure ()
  | some req => requestBodyDestroy req.body

/-! ### The same parser -/

/-- What was parsed, with its strings registered. -/
def enrollBody {β : Type} (malloc : Malloc) (fields : β → List (Option (List UInt8)))
    (s : Strings) : Option β → Option (β × List Nat) × Strings
  | none => (none, s)
  | some b => (some (b, (enroll malloc (fields b) s).1), (enroll malloc (fields b) s).2)

section Requests

variable (malloc : Malloc) (header : RequestHeader) (buf : Frame) (s : Strings)

theorem requestParseUserPtr_eq : requestParseUserPtr malloc header buf s =
    requestParseUser header buf >>= fun r =>
      .ok (enrollBody malloc RequestBody.fields s r) [] := by
  unfold requestParseUserPtr requestParseUser
  split
  · rfl
  split
  · exact StrM.lift_bind_eq fun _ => rfl
  split
  · exact StrM.lift_bind_eq fun _ => rfl
  · rfl

theorem requestParseConvPtr_eq : requestParseConvPtr malloc header buf s =
    requestParseConv header buf >>= fun r =>
      .ok (enrollBody malloc RequestBody.fields s r) [] := by
  unfold requestParseConvPtr requestParseConv
  split
  · exact StrM.lift_bind_eq fun _ => rfl
  split
  · exact StrM.lift_bind_eq fun _ => rfl
  split
  · exact StrM.lift_bind_eq fun _ => rfl
  split
  · rfl
  · rfl

theorem requestParseChatPtr_eq : requestParseChatPtr header buf s =
    requestParseChat header buf >>= fun r =>
      .ok (enrollBody malloc RequestBody.fields s r) [] := by
  unfold requestParseChatPtr requestParseChat
  split
  · exact StrM.lift_bind_eq fun _ => rfl
  split
  · exact StrM.lift_bind_eq fun _ => rfl
  split
  · rfl
  · rfl

theorem requestParseMsgPtr_eq : requestParseMsgPtr malloc header buf s =
    requestParseMsg header buf >>= fun r =>
      .ok (enrollBody malloc RequestBody.fields s r) [] := by
  unfold requestParseMsgPtr requestParseMsg
  split
  · exact StrM.lift_bind_eq fun _ => rfl
  split
  · exact StrM.lift_bind_eq fun _ => rfl
  split
  · refine StrM.lift_bind_eq fun convId => ?_
    refine StrM.lift_bind_eq fun chatId => ?_
    refine StrM.lift_bind_eq fun replyId => ?_
    exact StrM.lift_bind_eq fun _ => rfl
  split
  · rfl
  split
  · exact StrM.lift_bind_eq fun _ => rfl
  · rfl

/-- The two strings of a frame that is rejected are removed again. -/
theorem authRejected (uname password : List UInt8) :
    (requestBodyDestroy [malloc.pick s, malloc.pick (s.push (malloc.pick s, uname)), 0, 0] >>=
        fun _ => pure none : StrM (Option (RequestBody × List Nat)))
      ((s.push (malloc.pick s, uname)).push
        (malloc.pick (s.push (malloc.pick s, uname)), password)) = .ok (none, s) [] := by
  have hdestroy := destroy_enroll malloc [some uname, some password, none, none] s
  show (bodyDestroy (enroll malloc [some uname, some password, none, none] s).1
    (enroll malloc [some uname, some password, none, none] s).2 >>= fun x => .ok (none, x.2) []) = _
  rw [hdestroy]
  rfl

theorem requestParseAuthPtr_eq : requestParseAuthPtr malloc header buf s =
    requestParseAuth header buf >>= fun r =>
      .ok (enrollBody malloc RequestBody.fields s r) [] := by
  unfold requestParseAuthPtr requestParseAuth
  dsimp only
  -- access for access: only the two calls of `string_new` touch the registry
  refine StrM.lift_bind_eq fun copied => ?_
  refine StrM.lift_bind_eq fun ⟨arr, rest⟩ => ?_
  dsimp only
  refine StrM.lift_bind_eq fun ⟨arr, rest⟩ => ?_
  dsimp only
  refine StrM.lift_bind_eq fun unameStr => ?_
  rw [stringNew_bind]
  refine StrM.lift_bind_eq fun passwordStr => ?_
  rw [stringNew_bind]
  split
  · refine StrM.lift_bind_eq fun ⟨arr, rest⟩ => ?_
    dsimp only
    refine StrM.lift_bind_eq fun ⟨arr, rest⟩ => ?_
    dsimp only
    refine StrM.lift_bind_eq fun unameNow => ?_
    refine StrM.lift_bind_eq fun passwordNow => ?_
    refine StrM.lift_bind_eq fun phoneNow => ?_
    split
    · exact authRejected malloc s unameStr.bytes passwordStr.bytes
    split
    · refine StrM.lift_bind_eq fun phoneStr => ?_
      rw [stringNew_bind]
      exact StrM.lift_bind_eq fun _ => rfl
    · rfl
  split
  · exact authRejected malloc s unameStr.bytes passwordStr.bytes
  · rfl

/-- The body of a request is parsed as before, and its strings are registered. -/
theorem requestParseBodyPtr_eq : requestParseBodyPtr malloc header buf s =
    requestParseBody header buf >>= fun r =>
      .ok (enrollBody malloc RequestBody.fields s r) [] := by
  unfold requestParseBodyPtr requestParseBody
  split
  · exact requestParseAuthPtr_eq malloc header buf s
  split
  · exact requestParseUserPtr_eq malloc header buf s
  split
  · exact requestParseConvPtr_eq malloc header buf s
  split
  · exact requestParseChatPtr_eq malloc header buf s
  split
  · exact requestParseMsgPtr_eq malloc header buf s
  · rfl

end Requests

/-! ## Responses -/

/-- The strings of a body, in the order of `response_body_destroy`; lists of ids are not in the
    registry. -/
def ResponseBody.fields : ResponseBody → List (Option (List UInt8))
  | .auth r => [some r.token]
  | .user r => [r.uname, r.phone, r.email].map (·.map CStr.bytes)
  | .conv r => [r.gname.map CStr.bytes]
  | .chat _ => []
  | .msg r => [r.msgContent.map CStr.bytes]

def responseBodyDestroy (ptrs : List Nat) : StrM Unit := bodyDestroy ptrs

/-- `response_parse_auth`. -/
def responseParseAuthPtr (malloc : Malloc) (buf : Frame) :
    StrM (Option (ResponseBody × List Nat)) := do
  let token ← buf.load responseHeaderLen tokenLen
  let tokenPtr ← stringMemN malloc token
  let userId ← buf.loadWord (responseHeaderLen + tokenLen)
  pure (some (.auth ⟨token, userId⟩, [tokenPtr]))

/-- `response_parse_user`. -/
def responseParseUserPtr (malloc : Malloc) (header : ResponseHeader) (buf : Frame) :
    StrM (Option (ResponseBody × List Nat)) :=
  if header.action = 1 then do
    let bodyLen := header.bodyLen.toNat
    let copied ← (buf.load responseHeaderLen bodyLen).after [bodyLen]
    let uname := 0
    let (arr, rest) ← fieldTokenizer none (copied ++ [0]) uname 0
    let phone := rest
    let (arr, rest) ← fieldTokenizer none arr phone rest
    let email := rest
    let (arr, _) ← fieldTokenizer none arr email rest
    let unameStr ← strAt arr uname
    let unamePtr ← stringNew malloc unameStr
    let phoneStr ← strAt arr phone
    let phonePtr ← stringNew malloc phoneStr
    let emailStr ← strAt arr email
    let emailPtr ← stringNew malloc emailStr
    pure (some (.user { uname := some unameStr, phone := some phoneStr, email := some emailStr },
      [unamePtr, phonePtr, emailPtr]))
  else if header.action = 2 then do
    let idls ← buf.loadWords responseHeaderLen header.count.toNat
    pure (some (.user { idls := some idls }, [0, 0, 0]))
  else do
    responseBodyDestroy [0, 0, 0]
    pure none

/-- `response_parse_conv`. -/
def responseParseConvPtr (malloc : Malloc) (header : ResponseHeader) (buf : Frame) :
    StrM (Option (ResponseBody × List Nat)) :=
  if header.action = 0 then do
    let convId ← buf.loadWord responseHeaderLen
    pure (some (.conv { convId }, [0]))
  else if header.action = 4 then do
    let adminId ← buf.loadWord responseHeaderLen
    let gname ← copyString buf (responseHeaderLen + 4) (header.bodyLen - 4).toNat
    let gnamePtr ← stringNewN malloc gname
    pure (some (.conv { adminId, gname := some gname }, [gnamePtr]))
  else if header.action = 5 ∨ header.action = 6 then do
    let idls ← buf.loadWords responseHeaderLen header.count.toNat
    pure (some (.conv { idls := some idls }, [0]))
  else do
    responseBodyDestroy [0]
    pure none

/-- `response_parse_chat`. -/
def responseParseChatPtr (header : ResponseHeader) (buf : Frame) :
    StrM (Option (ResponseBody × List Nat)) :=
  if header.action = 0 then do
    let chatId ← buf.loadWord responseHeaderLen
    pure (some (.chat { chatId }, []))
  else if header.action = 1 then
    pure (some (.chat {}, []))
  else if header.action = 2 then do
    let idls ← buf.loadWords responseHeaderLen header.count.toNat
    pure (some (.chat { idls := some idls }, []))
  else if header.action = 3 then do
    let memberId1 ← buf.loadWord responseHeaderLen
    let memberId2 ← buf.loadWord (responseHeaderLen + 4)
    pure (some (.chat { memberId1, memberId2 }, []))
  else do
    responseBodyDestroy []
    pure none

/-- `response_parse_msg`. -/
def responseParseMsgPtr (malloc : Malloc) (header : ResponseHeader) (buf : Frame) :
    StrM (Option (ResponseBody × List Nat)) :=
  if header.action = 0 ∨ header.action = 4 ∨ header.action = 5 then do
    let idls ← buf.loadWords responseHeaderLen header.count.toNat
    pure (some (.msg { idls := some idls }, [0]))
  else if header.action = 1 then do
    let msgId ← buf.loadWord responseHeaderLen
    let fromUid ← buf.loadWord (responseHeaderLen + 4)
    let replyTo ← buf.loadWord (responseHeaderLen + 8)
    let convId ← buf.loadWord (responseHeaderLen + 12)
    let chatId ← buf.loadWord (responseHeaderLen + 16)
    let createdAt ← buf.loadWord (responseHeaderLen + 20)
    let msgType ← buf.loadByte (responseHeaderLen + 24)
    let contentType ← buf.loadByte (responseHeaderLen + 25)
    let contentLength ← buf.loadWord (responseHeaderLen + 26)
    let text ← copyString buf (responseHeaderLen + 30) (header.bodyLen - 30).toNat
    let textPtr ← stringNewN malloc text
    pure (some (.msg { msgId, fromUid, replyTo, convId, chatId, createdAt, msgType, contentType,
                       contentLength, msgContent := some text }, [textPtr]))
  else if header.action = 2 then do
    let msgId ← buf.loadWord responseHeaderLen
    pure (some (.msg { msgId }, [0]))
  else if header.action = 3 then
    pure (some (.msg {}, [0]))
  else if header.action = 6 then do
    let fname ← copyString buf responseHeaderLen header.bodyLen.toNat
    let fnamePtr ← stringNewN malloc fname
    pure (some (.msg { msgContent := some fname }, [fnamePtr]))
  else do
    responseBodyDestroy [0]
    pure none

/-- The switch on the group byte. -/
def responseParseBodyPtr (malloc : Malloc) (header : ResponseHeader) (buf : Frame) :
    StrM (Option (ResponseBody × List Nat)) :=
  if header.group = 0 then responseParseAuthPtr malloc buf
  else if header.group = 1 then responseParseUserPtr malloc header buf
  else if header.group = 2 then responseParseConvPtr malloc header buf
  else if header.group = 3 then responseParseChatPtr header buf
  else if header.group = 4 then responseParseMsgPtr malloc header buf
  else pure none

/-- A parsed response with the addresses of its strings. -/
structure ResponsePtr where
  response : Response
  body : List Nat

/-- `response_parse`. -/
def responseParsePtr (malloc : Malloc) (buf : Frame) : StrM (Option ResponsePtr) := do
  let header ← responseParseHeader buf
  let body ← responseParseBodyPtr malloc header buf
  pure (body.map fun x => ⟨⟨header, x.1⟩, x.2⟩)

/-- `response_destroy`. -/
def responseDestroy : Option ResponsePtr → StrM Unit
  | none => pure ()
  | some res => responseBodyDestroy res.body

/-! ### The same parser -/

section Responses

variable (malloc : Malloc) (header : ResponseHeader) (buf : Frame) (s : Strings)

theorem responseParseAuthPtr_eq : responseParseAuthPtr malloc buf s =
    responseParseAuth buf >>= fun r => .ok (enrollBody malloc ResponseBody.fields s r) [] := by
  unfold responseParseAuthPtr responseParseAuth
  refine StrM.lift_bind_eq fun token => ?_
  rw [stringMemN_bind]
  exact StrM.lift_bind_eq fun _ => rfl

theorem responseParseUserPtr_eq : responseParseUserPtr malloc header buf s =
    responseParseUser header buf >>= fun r =>
      .ok (enrollBody malloc ResponseBody.fields s r) [] := by
  unfold responseParseUserPtr responseParseUser
  split
  · dsimp only
    refine StrM.lift_bind_eq fun copied => ?_
    refine StrM.lift_bind_eq fun ⟨arr, rest⟩ => ?_
    dsimp only
    refine StrM.lift_bind_eq fun ⟨arr, rest⟩ => ?_
    dsimp only
    refine StrM.lift_bind_eq fun ⟨arr, rest⟩ => ?_
    dsimp only
    refine StrM.lift_bind_eq fun unameStr => ?_
    rw [stringNew_bind]
    refine StrM.lift_bind_eq fun phoneStr => ?_
    rw [stringNew_bind]
    exact StrM.lift_bind_eq fun _ => rfl
  split
  · exact StrM.lift_bind_eq fun _ => rfl
  · rfl

theorem responseParseConvPtr_eq : responseParseConvPtr malloc header buf s =
    responseParseConv header buf >>= fun r =>
      .ok (enrollBody malloc ResponseBody.fields s r) [] := by
  unfold responseParseConvPtr responseParseConv
  split
  · exact StrM.lift_bind_eq fun _ => rfl
  split
  · refine StrM.lift_bind_eq fun adminId => ?_
    exact StrM.lift_bind_eq fun _ => rfl
  split
  · exact StrM.lift_bind_eq fun _ => rfl
  · rfl

theorem responseParseChatPtr_eq : responseParseChatPtr header buf s =
    responseParseChat header buf >>= fun r =>
      .ok (enrollBody malloc ResponseBody.fields s r) [] := by
  unfold responseParseChatPtr responseParseChat
  split
  · exact StrM.lift_bind_eq fun _ => rfl
  split
  · rfl
  split
  · exact StrM.lift_bind_eq fun _ => rfl
  split
  · exact StrM.lift_bind_eq fun _ => rfl
  · rfl

theorem responseParseMsgPtr_eq : responseParseMsgPtr malloc header buf s =
    responseParseMsg header buf >>= fun r =>
      .ok (enrollBody malloc ResponseBody.fields s r) [] := by
  unfold responseParseMsgPtr responseParseMsg
  split
  · exact StrM.lift_bind_eq fun _ => rfl
  split
  · unfold responseParseMsgDetail
    refine StrM.lift_bind_eq fun msgId => ?_
    refine StrM.lift_bind_eq fun fromUid => ?_
    refine StrM.lift_bind_eq fun replyTo => ?_
    refine StrM.lift_bind_eq fun convId => ?_
    refine StrM.lift_bind_eq fun chatId => ?_
    refine StrM.lift_bind_eq fun createdAt => ?_
    refine StrM.lift_bind_eq fun msgType => ?_
    refine StrM.lift_bind_eq fun contentType => ?_
    refine StrM.lift_bind_eq fun contentLength => ?_
    exact StrM.lift_bind_eq fun _ => rfl
  split
  · exact StrM.lift_bind_eq fun _ => rfl
  split
  · rfl
  split
  · exact StrM.lift_bind_eq fun _ => rfl
  · rfl

/-- The body of a response is parsed as before, and its strings are registered. -/
theorem responseParseBodyPtr_eq : responseParseBodyPtr malloc header buf s =
    responseParseBody header buf >>= fun r =>
      .ok (enrollBody malloc ResponseBody.fields s r) [] := by
  unfold responseParseBodyPtr responseParseBody
  split
  · exact responseParseAuthPtr_eq malloc buf s
  split
  · exact responseParseUserPtr_eq malloc header buf s
  split
  · exact responseParseConvPtr_eq malloc header buf s
  split
  · exact responseParseChatPtr_eq malloc header buf s
  split
  · exact responseParseMsgPtr_eq malloc header buf s
  · rfl

end Responses

/-! ## The balance -/

/-- The two kinds of frames. -/
inductive FrameKind where
  | request
  | response
  deriving DecidableEq

namespace FrameKind

/-- The parser stays inside the frame; whether it accepts it or rejects it does not matter. -/
def Parses (kind : FrameKind) (buf : Frame) : Prop :=
  match kind with
  | request => ∃ r l, requestParse buf = .ok r l
  | response => ∃ r l, responseParse buf = .ok r l

/-- A frame is parsed, and what was parsed is destroyed. -/
def parseDestroy (malloc : Malloc) (buf : Frame) : FrameKind → StrM Unit
  | request => requestParsePtr malloc buf >>= requestDestroy
  | response => responseParsePtr malloc buf >>= responseDestroy

/-- Any number of frames, one after the other. -/
def parseDestroyAll (malloc : Malloc) : List (FrameKind × Frame) → StrM Unit
  | [] => pure ()
  | (kind, buf) :: frames => do
    kind.parseDestroy malloc buf
    parseDestroyAll malloc frames

end FrameKind

/-- The token of a request stays. -/
theorem parseDestroy_request (malloc : Malloc) (buf : Frame) (s : Strings) :
    FrameKind.request.parseDestroy malloc buf s =
      requestParseHeader buf >>= fun header => requestParseBody header buf >>= fun _ =>
        .ok ((), s.push (malloc.pick s, header.token)) [] := by
  -- the strings of the body are registered on top of the token
  have hparse : requestParsePtr malloc buf s =
      requestParseHeader buf >>= fun header => requestParseBody header buf >>= fun r =>
        .ok (((enrollBody malloc RequestBody.fields (s.push (malloc.pick s, header.token)) r).1.map
            fun x => ⟨⟨header, x.1⟩, malloc.pick s, x.2⟩),
          (enrollBody malloc RequestBody.fields (s.push (malloc.pick s, header.token)) r).2) [] := by
    unfold requestParsePtr
    rw [StrM.lift_bind]
    congr 1
    funext header
    rw [stringMemN_bind]
    show (requestParseBodyPtr malloc header buf _ >>= _) = _
    rw [requestParseBodyPtr_eq, Access.bind_assoc]
    rfl
  show (requestParsePtr malloc buf s >>= fun x => requestDestroy x.1 x.2) = _
  rw [hparse, Access.bind_assoc]
  congr 1
  funext header
  rw [Access.bind_assoc]
  congr 1
  funext r
  rw [Access.ok_bind, Access.after_nil]
  cases r with
  | none => rfl
  | some body => exact destroy_enroll malloc body.fields _

/-- A response leaves nothing. -/
theorem parseDestroy_response (malloc : Malloc) (buf : Frame) (s : Strings) :
    FrameKind.response.parseDestroy malloc buf s =
      responseParse buf >>= fun _ => .ok ((), s) [] := by
  have hparse : responseParsePtr malloc buf s =
      responseParseHeader buf >>= fun header => responseParseBody header buf >>= fun r =>
        .ok (((enrollBody malloc ResponseBody.fields s r).1.map fun x => ⟨⟨header, x.1⟩, x.2⟩),
          (enrollBody malloc ResponseBody.fields s r).2) [] := by
    unfold responseParsePtr
    rw [StrM.lift_bind]
    congr 1
    funext header
    show (responseParseBodyPtr malloc header buf _ >>= _) = _
    rw [responseParseBodyPtr_eq, Access.bind_assoc]
    rfl
  show (responseParsePtr malloc buf s >>= fun x => responseDestroy x.1 x.2) = _
  rw [hparse, Access.bind_assoc, responseParse, Access.bind_assoc]
  congr 1
  funext header
  rw [Access.bind_assoc, Access.bind_assoc]
  congr 1
  funext r
  rw [Access.ok_bind, Access.after_nil]
  cases r with
  | none => rfl
  | some body => exact destroy_enroll malloc body.fields _

/-- One frame ends, and only a request leaves something: its token. -/
theorem parseDestroy_leaves (malloc : Malloc) {kind : FrameKind} {buf : Frame}
    (h : kind.Parses buf) (s : Strings) :
    ∃ s' l, kind.parseDestroy malloc buf s = .ok ((), s') l ∧ (kind = .response → s' = s) ∧
      (kind = .request → s'.head = malloc.pick s :: s.head) := by
  cases kind with
  | request =>
    obtain ⟨r, l, hparse⟩ := h
    rw [parseDestroy_request]
    unfold requestParse at hparse
    cases hheader : requestParseHeader buf with
    | fault l' =>
      rw [hheader] at hparse
      cases hparse
    | ok header l' =>
      rw [hheader, Access.ok_bind] at hparse
      obtain ⟨l'', hparse⟩ := Access.of_after_eq_ok hparse
      obtain ⟨body, hbody, -⟩ := Access.bind_pure_eq_ok hparse
      refine ⟨s.push (malloc.pick s, header.token), l' ++ l'', ?_, ?_, fun _ => rfl⟩
      · rw [Access.ok_bind, hbody]
        simp
      · intro hkind
        cases hkind
  | response =>
    obtain ⟨r, l, hparse⟩ := h
    refine ⟨s, l, ?_, fun _ => rfl, fun hkind => by cases hkind⟩
    rw [parseDestroy_response, hparse]
    simp

/-- Each request among the frames adds one string, and responses add none. -/
theorem parseDestroyAll_leaves (malloc : Malloc) {frames : List (FrameKind × Frame)}
    (h : ∀ x ∈ frames, x.1.Parses x.2) (s : Strings) :
    ∃ s' l, FrameKind.parseDestroyAll malloc frames s = .ok ((), s') l ∧
      ((∀ x ∈ frames, x.1 = .response) → s' = s) ∧
      s'.head.length = s.head.length + frames.countP (·.1 = .request) := by
  -- over the frames, from the registry that the first one leaves
  induction frames generalizing s with
  | nil => exact ⟨s, [], rfl, fun _ => rfl, rfl⟩
  | cons x frames ih =>
    obtain ⟨kind, buf⟩ := x
    rw [List.forall_mem_cons] at h
    obtain ⟨s₁, l₁, hfirst, hsame, hpushed⟩ := parseDestroy_leaves malloc h.1 s
    obtain ⟨s₂, l₂, hrest, hall, hcount⟩ := ih h.2 s₁
    refine ⟨s₂, l₁ ++ l₂, ?_, ?_, ?_⟩
    · show (kind.parseDestroy malloc buf s >>= fun y =>
        FrameKind.parseDestroyAll malloc frames y.2) = _
      rw [hfirst, Access.ok_bind, hrest]
      rfl
    · intro hresponses
      rw [List.forall_mem_cons] at hresponses
      rw [hall hresponses.2, hsame hresponses.1]
    · rw [hcount]
      cases kind with
      | request =>
        rw [hpushed rfl, List.length_cons, List.countP_cons_of_pos (by simp)]
        omega
      | response => rw [hsame rfl, List.countP_cons_of_neg (by simp)]

/-- **The balance of the registry.** For any number of frames, each of which the parser of its
    kind accepts or rejects, and whatever is registered before: parsing the frames and destroying
    the results ends, and leaves the registry exactly as it was if and only if all of them are
    parsed as responses. Each request that is parsed adds one string. -/
theorem balanced_iff (malloc : Malloc) {frames : List (FrameKind × Frame)}
    (h : ∀ x ∈ frames, x.1.Parses x.2) (s : Strings) :
    ∃ s' l, FrameKind.parseDestroyAll malloc frames s = .ok ((), s') l ∧
      (s' = s ↔ ∀ x ∈ frames, x.1 = .response) ∧
      s'.head.length = s.head.length + frames.countP (·.1 = .request) := by
  obtain ⟨s', l, hrun, hall, hcount⟩ := parseDestroyAll_leaves malloc h s
  refine ⟨s', l, hrun, ⟨?_, hall⟩, hcount⟩
  -- where a request is among the frames, the list is longer than before
  intro hsame x hx
  rw [hsame] at hcount
  have hnone : frames.countP (·.1 = .request) = 0 := by omega
  rw [List.countP_eq_zero] at hnone
  cases hkind : x.1 with
  | request => exact absurd (decide_eq_true hkind) (hnone x hx)
  | response => rfl

/-- The first address behind all that are allocated. -/
def nextAddress : Malloc where
  pick s := (s.blocks.map Prod.fst).foldr max 0 + 1
  nonnull s := Nat.succ_ne_zero _
  fresh s hmem := by
    have hle : ∀ (l : List Nat) (a : Nat), a ∈ l → a ≤ l.foldr max 0 := by
      intro l a ha
      induction l with
      | nil => cases ha
      | cons b l ih =>
        rcases List.mem_cons.mp ha with rfl | ha
        · exact Nat.le_max_left _ _
        · exact (ih ha).trans (Nat.le_max_right _ _)
    exact absurd (hle _ _ hmem) (by omega)

def zeroFrame : Frame := fun _ => 0

/-- Group 1, action 0. -/
def logoutFrame : Frame := fun i => if i.val = 0 then 1 else 0

/-- Two responses. -/
theorem balanced_zero_responses :
    ∃ s' l, FrameKind.parseDestroyAll nextAddress [(.response, zeroFrame), (.response, zeroFrame)]
        {} = .ok ((), s') l ∧
      (s' = {} ↔ ∀ x ∈ [(FrameKind.response, zeroFrame), (.response, zeroFrame)],
        x.1 = .response) ∧ s'.head.length = 0 := by
  have hparses : FrameKind.response.Parses zeroFrame := ⟨_, _, rfl⟩
  exact balanced_iff nextAddress (by simpa using hparses) {}

/-- The frame of a logout is accepted, a frame of zeros is rejected, and both leave the token. -/
theorem request_leaves_token :
    (∃ req l, requestParse logoutFrame = .ok (some req) l) ∧
    (∃ l, FrameKind.request.parseDestroy nextAddress logoutFrame {} =
      .ok ((), ⟨[1], [(1, zeros 16)]⟩) l) ∧
    (∃ l, requestParse zeroFrame = .ok none l) ∧
    ∃ l, FrameKind.request.parseDestroy nextAddress zeroFrame {} =
      .ok ((), ⟨[1], [(1, zeros 16)]⟩) l := by
  refine ⟨⟨_, _, rfl⟩, ⟨[], ?_⟩, ⟨_, rfl⟩, ⟨[0], ?_⟩⟩
  · rw [parseDestroy_request]
    rfl
  · rw [parseDestroy_request]
    rfl

end MeshChat
