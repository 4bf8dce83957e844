import MeshChat.Server.Chats

/-! # Checks before writes

    Requests of many users handled at the same time, their calls to sqlite in any
    order. A handler asks sqlite for permission first and acts on the answer
    afterwards, and between the two anybody else may have changed the tables. What
    can be relied on is this: nothing is written without a permission that the
    same request has found in the tables.

    * `Check`: what a handler finds out before it writes.
    * `Stmt.Permitted`: the checks that a statement of a user's request needs.
    * `handleReq_guarded`: each handler makes them, whatever replies it gets.
    * `writes_permitted`: so every statement that is executed in a run of any
      requests was permitted by the tables at an earlier call of its request.
-/

namespace MeshChat

open CMemory SqlLex Prog

/-! ## Checks -/

/-- What a handler finds out: a membership, a message with its columns, or that
    foreign keys were asked for. -/
inductive Check where
  | convMember (convId userId : Nat)
  | convAdmin (convId userId : Nat)
  | chatMember (chatId userId : Nat)
  | message (id : Nat) (cols : List Val)
  | enforced
  deriving DecidableEq

namespace Check

/-- What a call and its reply tell. -/
def of : SqlCall → Reply → Option Check
  | .fetch (.convMember c u) 0, r => if r.rc = .row then some (convMember c u) else none
  | .fetch (.convAdmin c u) 0, r => if r.rc = .row then some (convAdmin c u) else none
  | .fetch (.chatMember c u) 0, r => if r.rc = .row then some (chatMember c u) else none
  | .fetch (.messageById id) 0, r => if r.rc = .row then some (message id r.cols) else none
  | .exec (.pragmaForeignKeysOn :: _), r => if r.rc = .ok then some enforced else none
  | _, _ => none

/-- That it is so, when the call is made. The `PRAGMA` does nothing inside a
    transaction. -/
def Holds (pre post : Conn) : Check → Prop
  | convMember c u => pre.db.ConvMember c u
  | convAdmin c u => pre.db.ConvAdmin c u
  | chatMember c u => pre.db.ChatMember c u
  | message id cols => ∃ m, (pre.db.messages.filter (·.id = id))[0]? = some m ∧ m.cols = cols
  | enforced => pre.saved = none → post.fk = true

end Check

/-- Membership of a room of a message, by the columns that were read. -/
def MayRead (userId : Nat) (seen : Check → Prop) (id : Nat) : Prop :=
  ∃ cols, seen (.message id cols) ∧
    (seen (.convMember (cols.getD 8 .null).columnInt.toNat userId) ∨
      seen (.chatMember (cols.getD 7 .null).columnInt.toNat userId))

/-- The checks a statement needs in a request of a user; `seen` are those made. -/
def Stmt.Permitted (userId : Nat) (seen : Check → Prop) : Stmt → Prop
  | insertUser .. => True
  | insertConversation adminId _ => adminId = userId ∧ seen .enforced
  | insertMemberOfLast u => u = userId ∧ seen .enforced
  | insertMember c _ => seen (.convMember c userId)
  -- who asks is removed, and nobody else
  | deleteMember c u => u = userId ∧ seen (.convMember c userId)
  | deleteMessagesOfConv c | deleteMembersOf c | deleteConversation c => seen (.convAdmin c userId)
  | insertChat a b => a = userId ∧ a ≠ b ∧ seen .enforced
  | deleteMessagesOfChat c | deleteChat c => seen (.chatMember c userId)
  | insertMessage m => m.fromUid = userId ∧ seen .enforced ∧
      ((∃ c : UInt32, m.convId = nullable c ∧ seen (.convMember c.toNat userId)) ∨
        ∃ c : UInt32, m.chatId = nullable c ∧ seen (.chatMember c.toNat userId))
  | setMessageType id type => type = .delivered ∧ MayRead userId seen id
  | clearMessage id => MayRead userId seen id
  -- no handler deletes users or rows of messages
  | deleteUser _ | deleteMessage _ | raw => False
  | pragmaForeignKeysOn | begin | commit | rollback | malformed => True

theorem MayRead.mono {userId : Nat} {seen seen' : Check → Prop} {id : Nat}
    (hsub : ∀ k, seen k → seen' k) (h : MayRead userId seen id) : MayRead userId seen' id := by
  obtain ⟨cols, hmsg, hroom⟩ := h
  exact ⟨cols, hsub _ hmsg, hroom.imp (hsub _) (hsub _)⟩

theorem Stmt.Permitted.mono {userId : Nat} {seen seen' : Check → Prop} {s : Stmt}
    (hsub : ∀ k, seen k → seen' k) (h : s.Permitted userId seen) : s.Permitted userId seen' := by
  cases s with
  | insertConversation a n => exact h.imp_right (hsub _)
  | insertMemberOfLast u => exact h.imp_right (hsub _)
  | insertMember c u => exact hsub _ h
  | deleteMember c u => exact h.imp_right (hsub _)
  | deleteMessagesOfConv c => exact hsub _ h
  | deleteMembersOf c => exact hsub _ h
  | deleteConversation c => exact hsub _ h
  | insertChat a b => exact ⟨h.1, h.2.1, hsub _ h.2.2⟩
  | deleteMessagesOfChat c => exact hsub _ h
  | deleteChat c => exact hsub _ h
  | insertMessage m =>
    obtain ⟨hfrom, hfk, hroom⟩ := h
    exact ⟨hfrom, hsub _ hfk, hroom.imp (fun ⟨c, hc, hseen⟩ => ⟨c, hc, hsub _ hseen⟩)
      fun ⟨c, hc, hseen⟩ => ⟨c, hc, hsub _ hseen⟩⟩
  | setMessageType id type => exact h.imp_right (MayRead.mono hsub)
  | clearMessage id => exact MayRead.mono hsub h
  | _ => exact h

/-- The user is in charge of a room: only rooms are dropped in a transaction of their own. -/
def OwnsRoom (userId : Nat) (seen : Check → Prop) : Prop :=
  (∃ c, seen (.convAdmin c userId)) ∨ ∃ c, seen (.chatMember c userId)

theorem OwnsRoom.mono {userId : Nat} {seen seen' : Check → Prop} (hsub : ∀ k, seen k → seen' k)
    (h : OwnsRoom userId seen) : OwnsRoom userId seen' :=
  h.imp (fun ⟨c, hc⟩ => ⟨c, hsub _ hc⟩) fun ⟨c, hc⟩ => ⟨c, hsub _ hc⟩

/-- The statements that a call executes. -/
def SqlCall.stmts : SqlCall → List Stmt
  | exec stmts => stmts
  | step s => [s]
  | _ => []

/-! ## The handlers make them -/

/-- A call whose statements are permitted by the checks made so far; `verified` is the token
    check. -/
structure SqlCall.Allowed (verified : Prop) (userId : Nat) (seen : Check → Prop)
    (call : SqlCall) : Prop where
  modelled : call.Modelled
  plain : call.effect ≠ .mixed
  stmts : ∀ s ∈ call.stmts, s.Permitted userId seen ∧
    (verified ∨ s = .malformed ∨ ∃ u p h e, s = .insertUser u p h e)
  opens : call.stmt = some .begin → OwnsRoom userId seen

/-- The calls of a handler that asks before it writes. The phase is the list of checks that
    have succeeded. -/
def guardProtocol (α : Type) (verified : Prop) (userId : Nat) :
    Protocol SqlCall Reply α (List Check) where
  allows seen call := call.Allowed verified userId (· ∈ seen)
  next seen call r := (Check.of call r).toList ++ seen
  done _ _ := True

section Rules

variable {verified : Prop} {userId : Nat} {seen : List Check}

/-- A handler that makes the checks its statements need. -/
abbrev Guarded (verified : Prop) (userId : Nat) (seen : List Check) (p : SqlProg Handled) : Prop :=
  Conforms (guardProtocol Handled verified userId) seen p

theorem guarded_respond (r : ResponseCall) : Guarded verified userId seen (respond r) := trivial

theorem guarded_responseErr (status : UInt32) (group action : UInt8) :
    Guarded verified userId seen (responseErr status group action) := trivial

theorem guarded_ite {p : Prop} [Decidable p] {x y : SqlProg Handled}
    (hx : p → Guarded verified userId seen x) (hy : ¬ p → Guarded verified userId seen y) :
    Guarded verified userId seen (if p then x else y) := conforms_ite.mpr ⟨hx, hy⟩

theorem guarded_deref {α : Type} {p : Option α} {k : α → SqlProg Handled}
    (hk : ∀ a, p = some a → Guarded verified userId seen (k a)) :
    Guarded verified userId seen (deref p k) := by
  cases p with
  | none => exact trivial
  | some a => exact hk a rfl

/-- The first row of a query, and what it tells. -/
theorem guarded_sqlFirstRow {α : Type} {q : Query} {f : List Val → α}
    {k : Option α × Rc → SqlProg Handled} (hq : q ≠ .raw)
    (hnone : ∀ rc, Guarded verified userId seen (k (none, rc)))
    (hsome : ∀ r : Reply, r.rc = .row →
      Guarded verified userId ((Check.of (.fetch q 0) r).toList ++ seen) (k (some (f r.cols), .ok)))
    (hend : ∀ r : Reply, r.rc ≠ .row → Check.of (.fetch q 0) r = none) :
    Guarded verified userId seen (sqlFirstRow q f >>= k) := by
  simp only [sqlFirstRow, invoke_bind, pure_eq, call_bind, ite_bind, ret_bind, conforms_call,
    conforms_ite]
  refine ⟨⟨hq, by simp [SqlCall.effect], by simp [SqlCall.stmts], by simp [SqlCall.stmt]⟩, fun r₁ => ?_⟩
  refine ⟨fun _ => hnone _, fun _ => ⟨⟨hq, by simp [SqlCall.effect], by simp [SqlCall.stmts],
    by simp [SqlCall.stmt]⟩, ?_⟩⟩
  refine fun r => ⟨fun hrow => ?_, fun hrow => hsome r (not_not.mp hrow)⟩
  -- without a row nothing is learned
  have hnothing : (guardProtocol Handled verified userId).next seen (.fetch q 0) r = seen := by
    simp [guardProtocol, hend r hrow]
  show Conforms _ ((guardProtocol Handled verified userId).next seen (.fetch q 0) r) _
  rw [hnothing]
  exact hnone _

/-- The functions that look for a row. -/
theorem guarded_sqlExists {q : Query} {chk : Check} {k : Bool × Rc → SqlProg Handled}
    (hq : q ≠ .raw)
    (hof : ∀ r : Reply, Check.of (.fetch q 0) r = if r.rc = .row then some chk else none)
    (hk : ∀ b rc seen', seen ⊆ seen' → (b = true → chk ∈ seen') →
      Guarded verified userId seen' (k (b, rc))) :
    Guarded verified userId seen (sqlExists q >>= k) := by
  unfold sqlExists
  rw [Prog.bind_assoc]
  refine guarded_sqlFirstRow hq (fun rc => ?_) (fun r hrow => ?_) fun r hrow => ?_
  · exact hk false rc seen (List.Subset.refl _) (by simp)
  · have hchk : Check.of (.fetch q 0) r = some chk := by rw [hof, if_pos hrow]
    rw [hchk]
    exact hk true .ok (chk :: seen) (List.subset_cons_self _ _) fun _ => List.mem_cons_self
  · rw [hof, if_neg hrow]

theorem guarded_convIsMember {c u : UInt32} {k : Bool × Rc → SqlProg Handled}
    (hk : ∀ b rc seen', seen ⊆ seen' → (b = true → .convMember c.toNat u.toNat ∈ seen') →
      Guarded verified userId seen' (k (b, rc))) :
    Guarded verified userId seen (convIsMember c u >>= k) :=
  guarded_sqlExists (by simp) (fun _ => rfl) hk

theorem guarded_convIsAdmin {c u : UInt32} {k : Bool × Rc → SqlProg Handled}
    (hk : ∀ b rc seen', seen ⊆ seen' → (b = true → .convAdmin c.toNat u.toNat ∈ seen') →
      Guarded verified userId seen' (k (b, rc))) :
    Guarded verified userId seen (convIsAdmin c u >>= k) :=
  guarded_sqlExists (by simp) (fun _ => rfl) hk

theorem guarded_chatIsMember {c u : UInt32} {k : Bool × Rc → SqlProg Handled}
    (hk : ∀ b rc seen', seen ⊆ seen' → (b = true → .chatMember c.toNat u.toNat ∈ seen') →
      Guarded verified userId seen' (k (b, rc))) :
    Guarded verified userId seen (chatIsMember c u >>= k) :=
  guarded_sqlExists (by simp) (fun _ => rfl) hk

/-- The functions that read a row. -/
theorem guarded_sqlGetInfo {α : Type} {q : Query} {f : List Val → α}
    {k : Option α × Rc → SqlProg Handled} (hq : q ≠ .raw)
    (hend : ∀ r : Reply, r.rc ≠ .row → Check.of (.fetch q 0) r = none)
    (hk : ∀ a rc seen', seen ⊆ seen' →
      (∀ x, a = some x → ∃ r : Reply, r.rc = .row ∧ x = f r.cols ∧
        ∀ chk, Check.of (.fetch q 0) r = some chk → chk ∈ seen') →
      Guarded verified userId seen' (k (a, rc))) :
    Guarded verified userId seen (sqlGetInfo q f >>= k) := by
  simp only [sqlGetInfo, invoke_bind, pure_eq, call_bind, ite_bind, ret_bind, conforms_call,
    conforms_ite]
  refine ⟨⟨trivial, by simp [SqlCall.effect], by simp [SqlCall.stmts], by simp [SqlCall.stmt]⟩, fun _ => ?_⟩
  refine ⟨fun _ => ?_, ?_⟩
  · exact hk none _ _ (List.Subset.refl _) (by simp)
  · refine fun _ => guarded_sqlFirstRow hq (fun rc => ?_) (fun r hrow => ?_) hend
    · exact hk none rc _ (List.Subset.refl _) (by simp)
    · refine hk _ _ _ (List.subset_append_right _ _) ?_
      rintro x ⟨⟩
      refine ⟨r, hrow, rfl, fun chk hchk => ?_⟩
      rw [hchk]
      exact List.mem_cons_self

/-- A list that is no check. -/
theorem guarded_sqlGetList {q : Query} {k : List UInt32 × Rc → SqlProg Handled} (hq : q ≠ .raw)
    (hof : ∀ i r, Check.of (.fetch q i) r = none)
    (hk : ∀ x, Guarded verified userId seen (k x)) :
    Guarded verified userId seen (sqlGetList q >>= k) := by
  have hread : ∀ call, call = .prepareQuery q ∨ (∃ i, call = .fetch q i) →
      (guardProtocol Handled verified userId).allows seen call := by
    rintro call (rfl | ⟨i, rfl⟩)
    all_goals exact ⟨hq, by simp [SqlCall.effect], by simp [SqlCall.stmts], by simp [SqlCall.stmt]⟩
  simp only [sqlGetList, invoke_bind, collect_bind, pure_eq, call_bind, drain_bind, ite_bind,
    ret_bind, conforms_call, conforms_drain, conforms_ite]
  refine ⟨hread _ (Or.inl rfl), fun r => ⟨fun _ => hk _, fun _ => ⟨fun i => ⟨?_, fun r => ?_⟩, ?_⟩⟩⟩
  · exact hread _ (Or.inr ⟨i, rfl⟩)
  · simp [guardProtocol, hof]
  · exact fun rows r => hk _

theorem guarded_respondList {q : Query} {group action : UInt8}
    {response : List UInt32 → ResponseCall} (hq : q ≠ .raw)
    (hof : ∀ i r, Check.of (.fetch q i) r = none) :
    Guarded verified userId seen (respondList (sqlGetList q) group action response) := by
  refine guarded_sqlGetList hq hof fun x => ?_
  exact guarded_ite (fun _ => guarded_responseErr ..) fun _ => guarded_respond _

/-- Membership of either room. -/
theorem guarded_ifRoomMember {convId chatId u : UInt32} {action : UInt8} {k : SqlProg Handled}
    (hk : ∀ seen', seen ⊆ seen' →
      .convMember convId.toNat u.toNat ∈ seen' ∨ .chatMember chatId.toNat u.toNat ∈ seen' →
      Guarded verified userId seen' k) :
    Guarded verified userId seen (ifRoomMember convId chatId u action k) := by
  refine guarded_convIsMember fun b rc seen' hsub hconv => ?_
  refine guarded_ite (fun _ => guarded_responseErr ..) fun _ => ?_
  refine guarded_ite (fun hb => hk _ hsub (Or.inl (hconv hb))) fun _ => ?_
  refine guarded_chatIsMember fun b' rc' seen'' hsub' hchat => ?_
  refine guarded_ite (fun _ => guarded_responseErr ..) fun _ => ?_
  refine guarded_ite (fun hb => ?_) fun _ => guarded_responseErr ..
  exact hk _ (List.Subset.trans hsub hsub') (Or.inr (hchat hb))

/-- A message, and membership of its room. -/
theorem guarded_ifReadable {msgId u : UInt32} {action : UInt8} {k : MsgSchema → SqlProg Handled}
    (hk : ∀ msg seen', msg.id = msgId → MayRead u.toNat (· ∈ seen') msgId.toNat →
      Guarded verified userId seen' (k msg)) :
    Guarded verified userId seen (ifReadable msgId u action k) := by
  refine guarded_sqlGetInfo (by simp) (fun r hr => if_neg hr) fun a rc seen' _ hrow => ?_
  refine guarded_ite (fun _ => guarded_responseErr ..) fun _ => ?_
  refine guarded_ite (fun _ => guarded_responseErr ..) fun _ => ?_
  refine guarded_deref fun msg hmsg => ?_
  obtain ⟨r, hr, rfl, hchk⟩ := hrow msg hmsg
  refine guarded_ifRoomMember fun seen'' hsub hroom => hk _ _ rfl ?_
  -- the columns are those that the check has recorded
  exact ⟨r.cols, hsub (hchk _ (if_pos hr)), hroom⟩

/-! ### The operations that write -/

/-- A statement of a verified request that has made the checks it needs. -/
theorem allowed_exec (hverified : verified) {s : Stmt} (hraw : s ≠ .raw)
    (hs : s.Permitted userId (· ∈ seen)) (hopens : s = .begin → OwnsRoom userId (· ∈ seen)) :
    SqlCall.Allowed verified userId (· ∈ seen) (.exec [s]) where
  modelled := by simpa [SqlCall.Modelled] using hraw.symm
  plain := by cases s <;> simp [SqlCall.effect, Stmt.effect]
  stmts := by simpa [SqlCall.stmts] using ⟨hs, Or.inl hverified⟩
  opens h := hopens (by simpa [SqlCall.stmt] using h)

/-- A statement with quote-free text is the one it is meant to be, or cut. -/
theorem TextQuery.insertStmt_of_quoteFree {q : TextQuery} (hq : q.QuoteFree) (s : Stmt) :
    q.insertStmt s = s ∨ q.insertStmt s = .malformed := by
  unfold insertStmt
  rw [if_neg (not_not.mpr hq)]
  split
  · exact Or.inl rfl
  · exact Or.inr rfl

/-- `sql_insert`. -/
theorem guarded_sqlInsert {s : Stmt} {k : UInt32 × Rc → SqlProg Handled} (hraw : s ≠ .raw)
    (hplain : s ≠ .begin) (hs : s.Permitted userId (· ∈ seen))
    (hverified : verified ∨ s = .malformed ∨ ∃ u p h e, s = .insertUser u p h e)
    (hk : ∀ x, Guarded verified userId seen (k x)) :
    Guarded verified userId seen (sqlInsert s >>= k) := by
  have hstep : SqlCall.Allowed verified userId (· ∈ seen) (.step s) := by
    refine ⟨hraw, ?_, ?_, by simp [SqlCall.stmt, hplain]⟩
    · cases s <;> simp [SqlCall.effect, Stmt.effect]
    · simpa [SqlCall.stmts] using ⟨hs, hverified⟩
  have hother : ∀ call, call = .prepare s ∨ call = .lock ∨ call = .unlock ∨
      call = .lastInsertRowid → SqlCall.Allowed verified userId (· ∈ seen) call := by
    rintro call (rfl | rfl | rfl | rfl)
    all_goals exact ⟨by simp [SqlCall.Modelled, hraw], by simp [SqlCall.effect],
      by simp [SqlCall.stmts], by simp [SqlCall.stmt]⟩
  simp only [sqlInsert, invoke_bind, pure_eq, call_bind, ite_bind, ret_bind, conforms_call,
    conforms_ite]
  -- none of these calls is a check
  refine ⟨hother _ (Or.inl rfl), fun _ => ⟨fun _ => hk _, fun _ => ?_⟩⟩
  refine ⟨hother _ (Or.inr (Or.inl rfl)), fun _ => ⟨hstep, fun _ => ⟨fun _ => ?_, fun _ => ?_⟩⟩⟩
  · exact ⟨hother _ (Or.inr (Or.inr (Or.inl rfl))), fun _ => hk _⟩
  · refine ⟨hother _ (Or.inr (Or.inr (Or.inr rfl))), fun _ => ?_⟩
    exact ⟨hother _ (Or.inr (Or.inr (Or.inl rfl))), fun _ => hk _⟩

/-- One statement, with or without its code. -/
theorem guarded_exec (hverified : verified) {s : Stmt} {k : Reply → SqlProg Handled}
    (hraw : s ≠ .raw) (hs : s.Permitted userId (· ∈ seen)) (hplain : s ≠ .begin)
    (hk : ∀ seen', seen ⊆ seen' → ∀ r, Guarded verified userId seen' (k r)) :
    Guarded verified userId seen (invoke (.exec [s]) >>= k) :=
  ⟨allowed_exec hverified hraw hs fun h => absurd h hplain,
    fun r => hk _ (List.subset_append_right _ _) r⟩

/-- The start of a transaction that drops a room. -/
theorem guarded_begin (hverified : verified) {k : Reply → SqlProg Handled}
    (hroom : OwnsRoom userId (· ∈ seen))
    (hk : ∀ seen', seen ⊆ seen' → ∀ r, Guarded verified userId seen' (k r)) :
    Guarded verified userId seen (invoke (.exec [.begin]) >>= k) :=
  ⟨allowed_exec hverified (by simp) trivial fun _ => hroom,
    fun r => hk _ (List.subset_append_right _ _) r⟩

/-- A failed transaction, and what its function returns. -/
theorem guarded_rollback (hverified : verified) {α : Type} {a : α} {rc : Rc}
    {k : α × Rc → SqlProg Handled} (hk : ∀ seen', Guarded verified userId seen' (k (a, rc))) :
    Guarded verified userId seen (rollback a rc >>= k) :=
  guarded_exec hverified (by simp) trivial (by simp) fun seen' _ _ => hk seen'

/-- The statements of a transaction. -/
theorem guarded_commitAfter (hverified : verified) {ss : List Stmt} {k : Rc → SqlProg Handled}
    (hss : ∀ s ∈ ss, s ≠ .raw ∧ s ≠ .begin ∧ s.Permitted userId (· ∈ seen))
    (hk : ∀ seen' rc, Guarded verified userId seen' (k rc)) :
    Guarded verified userId seen (commitAfter ss >>= k) := by
  -- on the statements; every failure ends in the rollback
  induction ss generalizing seen with
  | nil =>
    unfold commitAfter
    rw [Prog.bind_assoc]
    refine guarded_exec hverified (by simp) trivial (by simp) fun seen' _ r => ?_
    rw [ite_bind, Prog.bind_assoc]
    exact guarded_ite (fun _ => guarded_rollback hverified fun _ => hk _ _) fun _ => hk _ _
  | cons s ss ih =>
    obtain ⟨⟨hraw, hplain, hs⟩, hss⟩ := List.forall_mem_cons.mp hss
    unfold commitAfter
    rw [Prog.bind_assoc]
    refine guarded_exec hverified hraw hs hplain fun seen' hsub r => ?_
    rw [ite_bind, Prog.bind_assoc]
    refine guarded_ite (fun _ => guarded_rollback hverified fun _ => hk _ _) fun _ => ?_
    refine ih fun s' hs' => ?_
    obtain ⟨hraw', hplain', hpermitted⟩ := hss s' hs'
    exact ⟨hraw', hplain', hpermitted.mono fun _ h => hsub h⟩

theorem guarded_convDrop (hverified : verified) {c : UInt32} {k : Rc → SqlProg Handled}
    (hadmin : .convAdmin c.toNat userId ∈ seen)
    (hk : ∀ seen' rc, Guarded verified userId seen' (k rc)) :
    Guarded verified userId seen (convDrop c >>= k) := by
  unfold convDrop
  dsimp only
  rw [Prog.bind_assoc]
  refine guarded_begin hverified (Or.inl ⟨_, hadmin⟩) fun seen' hsub r => ?_
  rw [ite_bind, Prog.bind_assoc]
  refine guarded_ite (fun _ => guarded_rollback hverified fun _ => hk _ _) fun _ => ?_
  refine guarded_commitAfter hverified ?_ hk
  simp [Stmt.Permitted, hsub hadmin]

theorem guarded_chatDrop (hverified : verified) {c : UInt32} {k : Rc → SqlProg Handled}
    (hmember : .chatMember c.toNat userId ∈ seen)
    (hk : ∀ seen' rc, Guarded verified userId seen' (k rc)) :
    Guarded verified userId seen (chatDrop c >>= k) := by
  unfold chatDrop
  dsimp only
  rw [Prog.bind_assoc]
  refine guarded_begin hverified (Or.inr ⟨_, hmember⟩) fun seen' hsub r => ?_
  rw [ite_bind, Prog.bind_assoc]
  refine guarded_ite (fun _ => guarded_rollback hverified fun _ => hk _ _) fun _ => ?_
  refine guarded_commitAfter hverified ?_ hk
  simp [Stmt.Permitted, hsub hmember]

/-- A successful `PRAGMA` is remembered. -/
theorem guarded_pragma (hverified : verified) {rest : List Stmt}
    (hrest : rest = [] ∨ rest = [.begin]) {k : Reply → SqlProg Handled}
    (hfail : ∀ r : Reply, r.rc ≠ .ok → Guarded verified userId seen (k r))
    (hok : ∀ r : Reply, r.rc = .ok → Guarded verified userId (.enforced :: seen) (k r)) :
    Guarded verified userId seen (invoke (.exec (.pragmaForeignKeysOn :: rest)) >>= k) := by
  have hallowed : SqlCall.Allowed verified userId (· ∈ seen)
      (.exec (.pragmaForeignKeysOn :: rest)) := by
    rcases hrest with rfl | rfl
    all_goals exact ⟨by simp [SqlCall.Modelled], by simp [SqlCall.effect, Stmt.effect],
      by simp [SqlCall.stmts, Stmt.Permitted, hverified], by simp [SqlCall.stmt]⟩
  refine ⟨hallowed, fun r => ?_⟩
  by_cases hr : r.rc = .ok
  · have hnext : (guardProtocol Handled verified userId).next seen
        (.exec (.pragmaForeignKeysOn :: rest)) r = .enforced :: seen := by
      simp [guardProtocol, Check.of, hr]
    rw [hnext]
    exact hok r hr
  · have hnext : (guardProtocol Handled verified userId).next seen
        (.exec (.pragmaForeignKeysOn :: rest)) r = seen := by
      simp [guardProtocol, Check.of, hr]
    rw [hnext]
    exact hfail r hr

/-- A call that neither executes a statement nor checks anything. -/
theorem guarded_aside {call : SqlCall} (hcall : call = .lock ∨ call = .unlock ∨
      call = .lastInsertRowid) {k : Reply → SqlProg Handled}
    (hk : ∀ r, Guarded verified userId seen (k r)) :
    Guarded verified userId seen (invoke call >>= k) := by
  rcases hcall with rfl | rfl | rfl
  all_goals exact ⟨⟨trivial, by simp [SqlCall.effect], by simp [SqlCall.stmts], by simp [SqlCall.stmt]⟩, hk⟩

end Rules

/-! ### The handlers -/

section Handlers

variable {verified : Prop} {env : Env} {header : RequestHeader}

/-- The answers behind an operation that reports a code. -/
theorem guarded_report {userId : Nat} {seen : List Check} {p : Prop} [Decidable p] {status : UInt32}
    {group action : UInt8} {r : ResponseCall} : Guarded verified userId seen
      (if p then responseErr status group action else respond r) :=
  guarded_ite (fun _ => guarded_responseErr ..) fun _ => guarded_respond _

/-- The same when a violated constraint has an answer of its own. -/
theorem guarded_reportInsert {userId : Nat} {seen : List Check} {p p' : Prop} [Decidable p]
    [Decidable p'] {status status' : UInt32} {group group' action action' : UInt8}
    {r : ResponseCall} : Guarded verified userId seen
      (if p then if p' then responseErr status group action else responseErr status' group' action'
       else respond r) :=
  guarded_ite (fun _ => guarded_ite (fun _ => guarded_responseErr ..) fun _ => guarded_responseErr ..)
    fun _ => guarded_respond _

/-- Registering is the only request that writes without a token. -/
theorem guarded_handleAuthRegister {userId : Nat} {ra : RequestAuth}
    (hquote : ∀ s ∈ (RequestBody.auth ra).strings, quote ∉ s.bytes) :
    Guarded verified userId [] (handleAuthRegister env ra) := by
  refine guarded_deref fun uname huname => guarded_deref fun password _ => ?_
  refine guarded_deref fun phone hphone => guarded_deref fun email hemail => ?_
  split
  · exact guarded_responseErr ..
  rename_i hashed hhash
  have hfree : (TextQuery.userCreate uname hashed phone email).QuoteFree := by
    intro s hs
    simp only [TextQuery.strings, List.mem_cons, List.not_mem_nil, or_false] at hs
    rcases hs with rfl | rfl | rfl | rfl
    · exact hquote _ (by simp [RequestBody.strings, huname])
    · exact quoteFree_hashStr hhash
    · exact hquote _ (by simp [RequestBody.strings, hphone])
    · exact hquote _ (by simp [RequestBody.strings, hemail])
  have hcases := TextQuery.insertStmt_of_quoteFree hfree (.insertUser uname hashed phone email)
  refine guarded_sqlInsert ?_ ?_ ?_ ?_ fun x => guarded_reportInsert
  all_goals rcases hcases with h | h <;> rw [h]
  · simp
  · simp
  · simp
  · simp
  · exact trivial
  · exact trivial
  · exact Or.inr (Or.inr ⟨uname, hashed, phone, email, rfl⟩)
  · exact Or.inr (Or.inl rfl)

theorem guarded_handleAuthLogin {userId : Nat} {ra : RequestAuth}
    (hquote : ∀ s ∈ (RequestBody.auth ra).strings, quote ∉ s.bytes) :
    Guarded verified userId [] (handleAuthLogin env ra) := by
  refine guarded_deref fun uname huname => guarded_deref fun password _ => ?_
  have hfree : quote ∉ uname.bytes := hquote uname (by simp [RequestBody.strings, huname])
  have hend : ∀ r : Reply, r.rc ≠ .row → Check.of (.fetch (unameQuery uname) 0) r = none := by
    intro r _
    unfold unameQuery
    dsimp only
    split
    · rfl
    · split
      · rfl
      · rfl
  refine guarded_sqlGetInfo (unameQuery_ne_raw hfree) hend fun a rc _ _ _ => ?_
  refine guarded_ite (fun _ => guarded_responseErr ..) fun _ => ?_
  refine guarded_ite (fun _ => guarded_responseErr ..) fun _ => ?_
  refine guarded_deref fun hashed _ => guarded_deref fun user _ => ?_
  exact guarded_ite (fun _ => guarded_responseErr ..) fun _ => guarded_respond _

theorem guarded_handleUserGetInfo {userId : Nat} (ru : RequestUser) :
    Guarded verified userId [] (handleUserGetInfo ru) := by
  refine guarded_sqlGetInfo (by simp) (fun _ _ => rfl) fun a rc _ _ _ => ?_
  refine guarded_ite (fun _ => guarded_responseErr ..) fun _ => ?_
  refine guarded_ite (fun _ => guarded_responseErr ..) fun _ => ?_
  exact guarded_deref fun user _ => guarded_respond _

theorem guarded_handleUserSearch {userId : Nat} {ru : RequestUser}
    (hquote : ∀ s ∈ (RequestBody.user ru).strings, quote ∉ s.bytes) :
    Guarded verified userId [] (handleUserSearch header ru) := by
  refine guarded_deref fun uname huname => ?_
  have hfree : quote ∉ uname.bytes := hquote uname (by simp [RequestBody.strings, huname])
  refine guarded_respondList (searchQuery_ne_raw hfree) fun i r => ?_
  unfold searchQuery
  dsimp only
  -- whatever was cut off, the query is not one that checks
  split
  · rfl
  split
  · rfl
  split
  · split
    · rfl
    · rfl
  · rfl

theorem guarded_handleConvGetInfo {userId : Nat} (rconv : RequestConv) :
    Guarded verified userId [] (handleConvGetInfo rconv) := by
  refine guarded_sqlGetInfo (by simp) (fun _ _ => rfl) fun a rc _ _ _ => ?_
  refine guarded_ite (fun _ => guarded_responseErr ..) fun _ => ?_
  refine guarded_ite (fun _ => guarded_responseErr ..) fun _ => ?_
  exact guarded_deref fun conv _ => guarded_respond _

theorem guarded_handleConvGetMembers {userId : Nat} (rconv : RequestConv) :
    Guarded verified userId [] (handleConvGetMembers header rconv) := by
  refine guarded_convIsMember fun b rc _ _ _ => ?_
  refine guarded_ite (fun _ => guarded_responseErr ..) fun _ => ?_
  refine guarded_ite (fun _ => guarded_responseErr ..) fun _ => ?_
  exact guarded_respondList (by simp) fun _ _ => rfl

theorem guarded_handleChatGetInfo {userId : Nat} (rchat : RequestChat) :
    Guarded verified userId [] (handleChatGetInfo header rchat) := by
  refine guarded_sqlGetInfo (by simp) (fun _ _ => rfl) fun a rc _ _ _ => ?_
  refine guarded_ite (fun _ => guarded_responseErr ..) fun _ => ?_
  refine guarded_deref fun chat _ => ?_
  exact guarded_ite (fun _ => guarded_responseErr ..) fun _ => guarded_respond _

theorem guarded_handleMsgGetAll {userId : Nat} (rm : RequestMsgBody) :
    Guarded verified userId [] (handleMsgGetAll header rm) := by
  refine guarded_ifRoomMember fun seen' _ _ => ?_
  split
  · refine guarded_sqlGetList (by simp) (fun _ _ => rfl) fun x => ?_
    exact guarded_ite (fun _ => guarded_responseErr ..) fun _ => guarded_report
  · refine guarded_sqlGetList (by simp) (fun _ _ => rfl) fun x => ?_
    exact guarded_ite (fun _ => guarded_responseErr ..) fun _ => guarded_report

theorem guarded_handleNotifyDelMsg {userId : Nat} (rm : RequestMsgBody) :
    Guarded verified userId [] (handleNotifyDelMsg header rm) := by
  refine guarded_respondList msgGetMsgDelQuery_ne_raw fun i r => ?_
  split
  · rfl
  · split
    · rfl
    · rfl

theorem guarded_handleMsgDownloadFile {userId : Nat} (rm : RequestMsgBody) :
    Guarded verified userId [] (handleMsgDownloadFile header rm) := by
  refine guarded_ifReadable fun msg seen' _ _ => ?_
  refine guarded_ite (fun _ => guarded_responseErr ..) fun _ => ?_
  exact guarded_ite (fun _ => trivial) fun _ => guarded_respond _

variable (hverified : verified)
include hverified

theorem guarded_handleConvCreate {rconv : RequestConv}
    (hquote : ∀ s ∈ (RequestBody.conv rconv).strings, quote ∉ s.bytes) :
    Guarded verified header.userId.toNat [] (handleConvCreate header rconv) := by
  refine guarded_deref fun gname hgname => ?_
  have hfree : (TextQuery.convCreate header.userId gname).QuoteFree := by
    simpa [TextQuery.QuoteFree, TextQuery.strings] using
      hquote gname (by simp [RequestBody.strings, hgname])
  have hcases := TextQuery.insertStmt_of_quoteFree hfree
    (.insertConversation header.userId.toNat gname)
  simp only [convCreate, Prog.bind_assoc, ite_bind, pure_eq, ret_bind]
  refine guarded_pragma hverified (Or.inr rfl) (fun r hr => ?_) fun r hr => ?_
  · rw [if_pos hr]
    exact guarded_report
  rw [if_neg (not_not.mpr hr)]
  refine guarded_aside (Or.inl rfl) fun _ => ?_
  -- the conversation, and then its first member
  refine guarded_exec hverified ?_ ?_ ?_ fun seen' hsub r' => ?_
  · rcases hcases with h | h <;> rw [h] <;> simp
  · rcases hcases with h | h <;> rw [h]
    · exact ⟨rfl, List.mem_cons_self⟩
    · exact trivial
  · rcases hcases with h | h <;> rw [h] <;> simp
  refine guarded_aside (Or.inr (Or.inr rfl)) fun _ => ?_
  refine guarded_ite (fun _ => guarded_rollback hverified fun _ => guarded_report) fun _ => ?_
  refine guarded_aside (Or.inr (Or.inl rfl)) fun _ => ?_
  refine guarded_exec hverified (by simp) ⟨rfl, hsub List.mem_cons_self⟩ (by simp)
    fun seen'' _ _ => ?_
  refine guarded_ite (fun _ => guarded_rollback hverified fun _ => guarded_report) fun _ => ?_
  refine guarded_exec hverified (by simp) trivial (by simp) fun _ _ _ => ?_
  exact guarded_ite (fun _ => guarded_rollback hverified fun _ => guarded_report) fun _ =>
    guarded_report

theorem guarded_handleConvDrop (rconv : RequestConv) :
    Guarded verified header.userId.toNat [] (handleConvDrop header rconv) := by
  refine guarded_convIsAdmin fun b rc seen' _ hadmin => ?_
  refine guarded_ite (fun _ => guarded_responseErr ..) fun _ => ?_
  refine guarded_ite (fun _ => guarded_responseErr ..) fun hb => ?_
  exact guarded_convDrop hverified (hadmin (by simpa using hb)) fun _ _ => guarded_report

theorem guarded_handleConvJoin (rconv : RequestConv) :
    Guarded verified header.userId.toNat [] (handleConvJoin header rconv) := by
  refine guarded_convIsMember fun b rc seen' _ hmember => ?_
  refine guarded_ite (fun _ => guarded_responseErr ..) fun _ => ?_
  refine guarded_ite (fun _ => guarded_responseErr ..) fun hb => ?_
  unfold convJoin
  rw [Prog.bind_assoc]
  exact guarded_sqlInsert (by simp) (by simp) (hmember (by simpa using hb)) (Or.inl hverified)
    fun _ => guarded_report

theorem guarded_handleConvQuit (rconv : RequestConv) :
    Guarded verified header.userId.toNat [] (handleConvQuit header rconv) := by
  refine guarded_convIsMember fun b rc seen' _ hmember => ?_
  refine guarded_ite (fun _ => guarded_responseErr ..) fun _ => ?_
  refine guarded_ite (fun _ => guarded_responseErr ..) fun hb => ?_
  refine guarded_convIsAdmin fun b' rc' seen'' hsub _ => ?_
  refine guarded_ite (fun _ => guarded_responseErr ..) fun _ => ?_
  refine guarded_ite (fun _ => guarded_responseErr ..) fun _ => ?_
  refine guarded_ite (fun _ => guarded_responseErr ..) fun _ => ?_
  unfold convQuit sqlExec
  rw [Prog.bind_assoc]
  refine guarded_exec hverified (by simp) ⟨rfl, ?_⟩ (by simp) fun _ _ _ => guarded_report
  exact hsub (hmember (by simpa using hb))

theorem guarded_handleChatCreate (rchat : RequestChat) :
    Guarded verified header.userId.toNat [] (handleChatCreate header rchat) := by
  refine guarded_ite (fun _ => guarded_responseErr ..) fun hne => ?_
  have hdistinct : header.userId.toNat ≠ rchat.userId2.toNat :=
    fun h => hne (UInt32.toNat_inj.mp h)
  simp only [chatCreate, Prog.bind_assoc, ite_bind, pure_eq, ret_bind]
  refine guarded_pragma hverified (Or.inl rfl) (fun r hr => ?_) fun r hr => ?_
  · rw [if_pos hr]
    exact guarded_reportInsert
  · rw [if_neg (not_not.mpr hr)]
    exact guarded_sqlInsert (by simp) (by simp) ⟨rfl, hdistinct, List.mem_cons_self⟩
      (Or.inl hverified) fun _ => guarded_reportInsert

theorem guarded_handleChatDrop (rchat : RequestChat) :
    Guarded verified header.userId.toNat [] (handleChatDrop header rchat) := by
  refine guarded_chatIsMember fun b rc seen' _ hmember => ?_
  refine guarded_ite (fun _ => guarded_responseErr ..) fun _ => ?_
  refine guarded_ite (fun _ => guarded_responseErr ..) fun hb => ?_
  exact guarded_chatDrop hverified (hmember (by simpa using hb)) fun _ _ => guarded_report

theorem guarded_handleMsgGetDetail (rm : RequestMsgBody) :
    Guarded verified header.userId.toNat [] (handleMsgGetDetail header rm) := by
  refine guarded_ifReadable fun msg seen' _ hread => ?_
  unfold msgDelivered sqlExecIgnored
  rw [Prog.bind_assoc]
  exact guarded_exec hverified (by simp) ⟨rfl, hread⟩ (by simp) fun _ _ _ => guarded_respond _

theorem guarded_handleMsgDelete (rm : RequestMsgBody) :
    Guarded verified header.userId.toNat [] (handleMsgDelete header rm) := by
  refine guarded_ifReadable fun msg seen' hid hread => ?_
  unfold msgDelete sqlExecIgnored
  rw [Prog.bind_assoc, hid]
  exact guarded_exec hverified (by simp) hread (by simp) fun _ _ _ => guarded_respond _

/-- The insert of a message into a room that its sender was found in. -/
theorem guarded_sendMsg {seen : List Check} {msg : MsgSchema} (hfree : quote ∉ msg.content.bytes)
    (hfrom : msg.fromUid = header.userId)
    (hroom : .convMember msg.convId.toNat header.userId.toNat ∈ seen ∨
      .chatMember msg.chatId.toNat header.userId.toNat ∈ seen) :
    Guarded verified header.userId.toNat seen (sendMsg env msg) := by
  have hq : (TextQuery.msgSend msg.fromUid msg.replyTo msg.contentType msg.contentLength msg.content
      env.now msg.chatId msg.convId).QuoteFree := by
    simpa [TextQuery.QuoteFree, TextQuery.strings] using hfree
  have hcases := TextQuery.insertStmt_of_quoteFree hq (.insertMessage (msg.newMsg env.now))
  simp only [sendMsg, msgSend, Prog.bind_assoc, ite_bind, pure_eq, ret_bind, msgSendStmt]
  refine guarded_pragma hverified (Or.inl rfl) (fun r hr => ?_) fun r hr => ?_
  · rw [if_pos hr]
    exact guarded_reportInsert
  rw [if_neg (not_not.mpr hr)]
  refine guarded_aside (Or.inl rfl) fun _ => ?_
  refine guarded_exec hverified ?_ ?_ ?_ fun _ _ _ => ?_
  · rcases hcases with h | h <;> rw [h] <;> simp
  · rcases hcases with h | h <;> rw [h]
    · refine ⟨by simp [MsgSchema.newMsg, hfrom], List.mem_cons_self, ?_⟩
      rcases hroom with hconv | hchat
      · exact Or.inl ⟨msg.convId, rfl, List.mem_cons_of_mem _ hconv⟩
      · exact Or.inr ⟨msg.chatId, rfl, List.mem_cons_of_mem _ hchat⟩
    · exact trivial
  · rcases hcases with h | h <;> rw [h] <;> simp
  refine guarded_aside (Or.inr (Or.inr rfl)) fun _ => ?_
  refine guarded_ite (fun _ => guarded_reportInsert) fun _ => ?_
  exact guarded_aside (Or.inr (Or.inl rfl)) fun _ => guarded_reportInsert

theorem guarded_handleMsgSend {rm : RequestMsgBody}
    (hquote : ∀ s ∈ (RequestBody.msg rm).strings, quote ∉ s.bytes) :
    Guarded verified header.userId.toNat [] (handleMsgSend env header rm) := by
  refine guarded_deref fun content hcontent => ?_
  have hfree : quote ∉ content.bytes := hquote content (by simp [RequestBody.strings, hcontent])
  refine guarded_ifRoomMember fun seen' _ hroom => ?_
  refine guarded_ite (fun _ => guarded_sendMsg hverified hfree rfl hroom) fun _ => ?_
  refine guarded_ite (fun _ => ?_) fun _ => guarded_responseErr ..
  refine guarded_deref fun path hpath => ?_
  -- only a file that was received whole is stored
  split
  · exact guarded_responseErr ..
  · exact guarded_responseErr ..
  · exact guarded_responseErr ..
  · exact trivial
  · exact guarded_sendMsg hverified (quoteFree_storagePath hfree hpath) rfl hroom

end Handlers

/-- Only registering and logging in come without a token. -/
theorem Request.group_ne_zero {r : Request} {route : Route} (h : r.route = some route)
    (hauth : ∀ ra, route ≠ .authRegister ra ∧ route ≠ .authLogin ra) : r.header.group ≠ 0 := by
  intro hzero
  have hint : r.header.group.toInt = 0 := by rw [hzero]; rfl
  unfold Request.route at h
  rw [hint] at h
  split at h
  case h_1 => exact (hauth _).1 (Option.some.inj h).symm
  case h_2 => exact (hauth _).2 (Option.some.inj h).symm
  case h_24 => cases h
  all_goals
    rename_i hgroup _ _
    exact absurd hgroup (by decide)

/-- Every handler asks before it writes, whatever replies it gets. -/
theorem handleReq_guarded {env : Env} {r : Request} (hquote : r.QuoteFree) :
    Guarded (env.verified = true) r.header.userId.toNat [] (handleReq env (some r)) := by
  unfold handleReq
  dsimp only
  split
  · exact guarded_responseErr ..
  rename_i hgroup
  split
  swap
  · exact trivial
  rename_i route hroute
  have hfree : ∀ s ∈ route.strings, quote ∉ s.bytes :=
    fun s hs => hquote s (Request.mem_strings_of_route hroute hs)
  -- all groups but 0 have come with a token
  have hverified : (∀ ra, route ≠ .authRegister ra ∧ route ≠ .authLogin ra) →
      env.verified = true := by
    intro hauth
    by_contra hnot
    exact hgroup ⟨Request.group_ne_zero hroute hauth, by simpa using hnot⟩
  cases route with
  | authRegister ra => exact guarded_handleAuthRegister hfree
  | authLogin ra => exact guarded_handleAuthLogin hfree
  | userLogout => exact guarded_respond _
  | userGetInfo ru => exact guarded_handleUserGetInfo ru
  | userSearch ru => exact guarded_handleUserSearch hfree
  | convCreate rconv => exact guarded_handleConvCreate (hverified (by simp)) hfree
  | convDrop rconv => exact guarded_handleConvDrop (hverified (by simp)) rconv
  | convJoin rconv => exact guarded_handleConvJoin (hverified (by simp)) rconv
  | convQuit rconv => exact guarded_handleConvQuit (hverified (by simp)) rconv
  | convGetInfo rconv => exact guarded_handleConvGetInfo rconv
  | convGetMembers rconv => exact guarded_handleConvGetMembers rconv
  | convGetList => exact guarded_respondList (by simp) fun _ _ => rfl
  | chatCreate rchat => exact guarded_handleChatCreate (hverified (by simp)) rchat
  | chatDrop rchat => exact guarded_handleChatDrop (hverified (by simp)) rchat
  | chatGetList => exact guarded_respondList (by simp) fun _ _ => rfl
  | chatGetInfo rchat => exact guarded_handleChatGetInfo rchat
  | msgGetAll rm => exact guarded_handleMsgGetAll rm
  | msgGetDetail rm => exact guarded_handleMsgGetDetail (hverified (by simp)) rm
  | msgSend rm => exact guarded_handleMsgSend (hverified (by simp)) hfree
  | msgDelete rm => exact guarded_handleMsgDelete (hverified (by simp)) rm
  | notifyNewMsg => exact guarded_respondList (by simp) fun _ _ => rfl
  | notifyDelMsg rm => exact guarded_handleNotifyDelMsg rm
  | msgDownloadFile rm => exact guarded_handleMsgDownloadFile rm

/-! ## Foreign keys stay on -/

theorem Stmt.run_fk (s : Stmt) {c : Conn} (h : c.fk = true) : (s.run c).1.fk = true := by
  unfold Stmt.run
  split
  all_goals
    try split
    all_goals simp [h]

theorem execAll_fk (stmts : List Stmt) {c : Conn} (h : c.fk = true) :
    (execAll stmts c).1.fk = true := by
  induction stmts generalizing c with
  | nil => exact h
  | cons s ss ih =>
    have hrun := s.run_fk h
    unfold execAll
    split
    · rename_i c' heq
      rw [heq] at hrun
      exact ih hrun
    · rename_i c' rc _ heq
      rw [heq] at hrun
      exact hrun

/-- No call switches them off. -/
theorem Answers.fk {c c' : Conn} {call : SqlCall} {r : Reply} (h : Answers c call c' r)
    (hmodel : call.Modelled) (hon : c.fk = true) : c'.fk = true := by
  cases h with
  | served _ h =>
    cases call with
    | exec stmts => cases h; exact execAll_fk stmts hon
    | step s => cases h; exact s.run_fk hon
    | fetch q i =>
      simp only [answer] at h
      split at h <;> cases h <;> exact hon
    | lock =>
      simp only [answer] at h
      split at h
      · cases h
      · cases h; exact hon
    | calloc => cases h; exact hon
    | prepare s => cases h; exact hon
    | prepareQuery q => cases h; exact hon
    | lastInsertRowid => cases h; exact hon
    | unlock => cases h; exact hon
  | execFault k _ _ _ _ _ => exact execAll_fk _ hon
  | foreign hforeign _ => exact absurd hmodel hforeign
  | _ => exact hon

/-! ## Requests handled at the same time -/

/-- The `PRAGMA` in front of a text, when the text was executed. -/
theorem answers_pragma_first {c c' : Conn} {stmts : List Stmt} {r : Reply}
    (hcall : Answers c (.exec (.pragmaForeignKeysOn :: stmts)) c' r)
    (hmodel : SqlCall.Modelled (.exec (.pragmaForeignKeysOn :: stmts))) (hr : r.rc = .ok)
    (hidle : c.saved = none) : c'.fk = true := by
  cases hcall with
  | served _ h =>
    cases h
    have hpragma : Stmt.run .pragmaForeignKeysOn c = ({ c with fk := true }, .ok) := by
      simp [Stmt.run, hidle]
    unfold execAll
    rw [hpragma]
    exact execAll_fk stmts rfl
  | execFault k _ _ _ _ hrc => exact absurd hr hrc.1
  | foreign hforeign _ => exact absurd hmodel hforeign

/-- A check that has succeeded held when its call was made. -/
theorem Check.holds {c c' : Conn} {call : SqlCall} {r : Reply} {chk : Check}
    (hcall : Answers c call c' r) (hmodel : call.Modelled) (hof : Check.of call r = some chk) :
    chk.Holds c c' := by
  -- a row was delivered, so the query has one
  have hrow : ∀ q, call = .fetch q 0 → q ≠ .raw → r.rc = .row →
      (q.rows c.db)[0]? = some r.cols := by
    rintro q rfl hq hr
    obtain ⟨-, ⟨-, hcols⟩ | ⟨hdone, -⟩ | herr⟩ := answers_fetch hq hcall
    · exact hcols
    · rw [hr] at hdone
      cases hdone
    · rw [hr] at herr
      cases herr
  have hsome : ∀ q, call = .fetch q 0 → q ≠ .raw → r.rc = .row → q.rows c.db ≠ [] := by
    intro q hq hraw hr hnil
    have := hrow q hq hraw hr
    rw [hnil] at this
    cases this
  unfold Check.of at hof
  split at hof
  case h_6 => cases hof
  all_goals
    split at hof
    swap
    · cases hof
    rename_i hr
    cases hof
  · exact convMember_rows.mp (hsome _ rfl (by simp) hr)
  · exact convAdmin_rows.mp (hsome _ rfl (by simp) hr)
  · exact chatMember_rows.mp (hsome _ rfl (by simp) hr)
  · simpa [Check.Holds, Query.rows] using hrow _ rfl (by simp) hr
  · exact answers_pragma_first hcall hmodel hr

section Together

variable {ι : Type} [DecidableEq ι] {env : ι → Env} {req : ι → Request} {c₀ c : Conn}
  {log : List (Entry ι SqlCall Reply Conn)}

/-- A request has made a check, and what it found was so at that time. -/
def FoundBy (log : List (Entry ι SqlCall Reply Conn)) (i : ι) (chk : Check) : Prop :=
  ∃ e ∈ log, e.tid = i ∧ Check.of e.call e.reply = some chk ∧ chk.Holds e.pre e.post

omit [DecidableEq ι] in
theorem FoundBy.snoc {i : ι} {chk : Check} (h : FoundBy log i chk)
    (e : Entry ι SqlCall Reply Conn) : FoundBy (log ++ [e]) i chk := by
  obtain ⟨e', he', hfound⟩ := h
  exact ⟨e', List.mem_append_left _ he', hfound⟩

/-- A statement that its request may execute, by what it has found before. -/
def Warranted (env : ι → Env) (req : ι → Request) (log : List (Entry ι SqlCall Reply Conn)) (i : ι)
    (s : Stmt) : Prop :=
  s.Permitted (req i).header.userId.toNat (FoundBy log i) ∧
    ((env i).verified = true ∨ s = .malformed ∨ ∃ u p h e, s = .insertUser u p h e)

/-- The checks that a phase has recorded were made. -/
theorem mem_along {verified : Prop} {userId : Nat} {tr : List (SqlCall × Reply)} {chk : Check}
    (h : chk ∈ (guardProtocol Handled verified userId).along [] tr) :
    ∃ x ∈ tr, Check.of x.1 x.2 = some chk := by
  induction tr using List.reverseRecOn with
  | nil => cases h
  | append_singleton tr x ih =>
    rw [Protocol.along_snoc] at h
    rcases List.mem_append.mp h with hnew | hold
    · exact ⟨x, by simp, Option.mem_toList.mp hnew⟩
    · obtain ⟨y, hy, hof⟩ := ih hold
      exact ⟨y, List.mem_append_left _ hy, hof⟩

/-- What a handler does next is allowed by the checks in its own calls. -/
theorem allowed_next_own (hquote : ∀ i, (req i).QuoteFree) (h : HandledTogether env req c₀ log c)
    {i : ι} {call : SqlCall} (hissue : (residual (handlers env req) log i).issue = some call) :
    call.Allowed ((env i).verified = true) (req i).header.userId.toNat
      (· ∈ (guardProtocol Handled ((env i).verified = true)
        (req i).header.userId.toNat).along [] (ownTrace log i)) :=
  have hguarded : Guarded ((env i).verified = true) (req i).header.userId.toNat []
      (handlers env req i) := handleReq_guarded (hquote i)
  (hguarded.interleaved h).allowed hissue

/-- All calls of the run are instances of their templates. -/
theorem modelled_of_mem (hquote : ∀ i, (req i).QuoteFree) (h : HandledTogether env req c₀ log c)
    {e : Entry ι SqlCall Reply Conn} (he : e ∈ log) :
    e.call.Modelled ∧ Answers e.pre e.call e.post e.reply := by
  obtain ⟨before, behind, hlog⟩ := List.append_of_mem he
  obtain ⟨hprev, hissue, hcall⟩ := h.before hlog
  exact ⟨(allowed_next_own hquote hprev hissue).modelled, hcall⟩

/-- The checks of a phase were found. -/
theorem foundBy_of_along (hquote : ∀ i, (req i).QuoteFree) (h : HandledTogether env req c₀ log c)
    {i : ι} {verified : Prop} {userId : Nat} {chk : Check}
    (hchk : chk ∈ (guardProtocol Handled verified userId).along [] (ownTrace log i)) :
    FoundBy log i chk := by
  obtain ⟨x, hx, hof⟩ := mem_along hchk
  obtain ⟨e, he, rfl⟩ := List.mem_map.mp hx
  obtain ⟨hlog, htid⟩ := List.mem_filter.mp he
  obtain ⟨hmodel, hcall⟩ := modelled_of_mem hquote h hlog
  exact ⟨e, hlog, of_decide_eq_true htid, hof, Check.holds hcall hmodel hof⟩

/-- What a handler does next is allowed by what it has found. -/
theorem allowed_next (hquote : ∀ i, (req i).QuoteFree) (h : HandledTogether env req c₀ log c)
    {i : ι} {call : SqlCall} (hissue : (residual (handlers env req) log i).issue = some call) :
    call.Allowed ((env i).verified = true) (req i).header.userId.toNat (FoundBy log i) := by
  have hown := allowed_next_own hquote h hissue
  have hfound : ∀ chk, chk ∈ (guardProtocol Handled ((env i).verified = true)
      (req i).header.userId.toNat).along [] (ownTrace log i) → FoundBy log i chk :=
    fun _ hchk => foundBy_of_along hquote h hchk
  exact ⟨hown.modelled, hown.plain,
    fun s hs => (hown.stmts s hs).imp_left fun hs => hs.mono hfound,
    fun hopens => (hown.opens hopens).mono hfound⟩

/-- Whatever order the calls of any requests come in, no statement is executed without
    a permission that its own request has found in the tables before. -/
theorem writes_permitted (hquote : ∀ i, (req i).QuoteFree) (h : HandledTogether env req c₀ log c) :
    EachStep (fun before e => ∀ s ∈ e.call.stmts, Warranted env req before e.tid s) log := by
  intro before e behind hlog
  obtain ⟨hprev, hissue, -⟩ := h.before hlog
  exact (allowed_next hquote hprev hissue).stmts

end Together

/-- Users 1, 2 and 3; the first two are in a conversation of user 1. -/
def meetDb : Db where
  users := [⟨1, default, default, default, default⟩, ⟨2, default, default, default, default⟩,
    ⟨3, default, default, default, default⟩]
  conversations := [⟨1, 1, default⟩]
  members := [⟨1, 1, 1⟩, ⟨2, 1, 2⟩]

def meetConn : Conn := { db := meetDb, fk := true }

/-- User 2 takes user 3 in, while user 1 drops the conversation. -/
def meetReq (joins : Bool) : Request :=
  if joins then requestBy 2 2 2 (.conv { convId := 1, userId := 3 })
  else requestBy 1 2 1 (.conv { convId := 1 })

theorem meetReq_quoteFree (joins : Bool) : (meetReq joins).QuoteFree := by
  cases joins <;> decide

/-- The requests, in the order of a schedule. -/
theorem meet_played (schedule : List Bool) {p : Conn → Prop} [DecidablePred p]
    (h : (Prog.play serve (handlers (fun _ => lobbyEnv) meetReq) [] meetConn schedule).any
      (fun x => decide (p x.2)) = true) :
    ∃ log c, HandledTogether (fun _ => lobbyEnv) meetReq meetConn log c ∧ p c := by
  obtain ⟨⟨log, c⟩, hrun, hp⟩ := (Option.any_eq_true _ _).mp h
  exact ⟨log, c, interleaved_of_play answers_of_serve .start hrun, of_decide_eq_true hp⟩

/-- Both have found what they need before either of them writes. -/
theorem writes_permitted_meet :
    ∃ log c, HandledTogether (fun _ => lobbyEnv) meetReq meetConn log c ∧ c.db.conversations = [] ∧
      EachStep (fun before e => ∀ s ∈ e.call.stmts,
        Warranted (fun _ => lobbyEnv) meetReq before e.tid s) log := by
  obtain ⟨log, c, hrun, hnone⟩ := meet_played (p := fun c => c.db.conversations = [])
    [true, true, false, false, true, true, true, true, true, false, false, false, false, false]
    (by decide +kernel)
  exact ⟨log, c, hrun, hnone, writes_permitted meetReq_quoteFree hrun⟩

end MeshChat
