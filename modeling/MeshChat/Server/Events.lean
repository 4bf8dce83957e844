import MeshChat.Server.Board

/-! # What the answers tell

    What is on the board can be told from the requests and their answers alone.

    * `Event`, `Exchange.event`: what has happened, by a request and its answer.
    * `Board.Occurs`: what that does to the board; `Step.occurs`: every step is such an
      event. Only a number may have lost bits in the answer.
    * `Board.Within`, `messageBoard.within`: there are no more numbers than requests.
    * `Occurs.member_iff`, `Occurs.inChat_iff`: the event decides who is where.
    * `messageBoard.member_iff`, `messageBoard.inChat_iff`: and so it is in every run.
-/

namespace MeshChat

open CMemory Prog

namespace Board

/-! ## Events -/

/-- What has happened to the board. -/
inductive Event where
  | nothing
  | registered (n : Nat)
  | founded (n admin : Nat)
  | closed (k : Nat)
  | joined (k u : Nat)
  | left (k u : Nat)
  | opened (n u u' : Nat)
  | chatClosed (k : Nat)
  | posted (n : Nat) (m : Message)
  | read (n : Nat)
  | erased (n : Nat)

namespace Event

/-- The event with its new number as it is answered, in 32 bits. -/
def wire : Event → Event
  | registered n => registered (n % 2 ^ 32)
  | founded n admin => founded (n % 2 ^ 32) admin
  | opened n u u' => opened (n % 2 ^ 32) u u'
  | posted n m => posted (n % 2 ^ 32) m
  | ev => ev

/-- The user is a member from now on. -/
def Admits (k u : Nat) : Event → Prop
  | founded n admin => n = k ∧ admin = u
  | joined k' u' => k' = k ∧ u' = u
  | _ => False

/-- The user is no member from now on. -/
def Ousts (k u : Nat) : Event → Prop
  | closed k' => k' = k
  | left k' u' => k' = k ∧ u' = u
  | _ => False

/-- The chat is opened for the user. -/
def Opens (k u : Nat) : Event → Prop
  | opened n a b => n = k ∧ (a = u ∨ b = u)
  | _ => False

def Closes (k : Nat) (ev : Event) : Prop := ev = chatClosed k

/-- A room of the message is dropped. -/
def Drops (m : Message) : Event → Prop
  | closed k => m.conv = some k
  | chatClosed k => m.chat = some k
  | _ => False

end Event

/-- What is stored for a request to send, a text or a file. -/
def composed (env : Env) (header : RequestHeader) (rm : RequestMsgBody) : CStr × UInt32 :=
  let s := rm.msgContent.getD default
  if header.contentType = msgFile then ((storagePath env s).getD default, header.contentLen)
  else (s, header.contentLen - 12)

theorem Composes.eq {env : Env} {header : RequestHeader} {rm : RequestMsgBody} {content : CStr}
    {length : UInt32} (h : Composes env header rm content length) :
    composed env header rm = (content, length) := by
  cases h with
  | text htype hs => simp [composed, htype, hs, msgText, msgFile]
  | file htype hs _ hpath => simp [composed, htype, hs, hpath]

/-- What an answer says has happened. -/
def eventOf (env : Env) (header : RequestHeader) : Route → ResponseCall → Event
  | .authRegister _, .authRegister _ _ id => .registered id.toNat
  | .convCreate _, .convCreate _ id => .founded id.toNat header.userId.toNat
  | .convDrop rconv, .convDrop _ => .closed rconv.convId.toNat
  | .convJoin rconv, .convJoin _ => .joined rconv.convId.toNat rconv.userId.toNat
  -- whoever is named
  | .convQuit rconv, .convQuit _ => .left rconv.convId.toNat header.userId.toNat
  | .chatCreate rchat, .chatCreate _ id => .opened id.toNat header.userId.toNat rchat.userId2.toNat
  | .chatDrop rchat, .chatDelete _ => .chatClosed rchat.chatId.toNat
  | .msgSend rm, .msgSend _ id =>
    let (content, length) := composed env header rm
    .posted id.toNat (newMessage env header rm content length)
  | .msgGetDetail rm, .msgGetDetail _ _ => .read rm.msgId.toNat
  | .msgDelete rm, .msgDelete _ => .erased rm.msgId.toNat
  | _, _ => .nothing

/-- What has happened, by a request and its answer. -/
def Exchange.event (e : Exchange) : Event :=
  match e.req, e.out.sent with
  | some req, [r] => (req.route.map fun route => eventOf e.env req.header route r).getD .nothing
  | _, _ => .nothing

theorem Exchange.event_eq {env : Env} {req : Request} {route : Route} {r : ResponseCall}
    {undefined clean : Bool} (hroute : req.route = some route) :
    Exchange.event ⟨env, some req, { sent := [r], undefined }, clean⟩ =
      eventOf env req.header route r := by
  simp [event, hroute]

/-! ## What events do -/

/-- What an event does to the board. A mark may fail. -/
inductive Occurs (b : Board) : Event → Board → Prop
  | nothing : Occurs b .nothing b
  | registered {n : Nat} {a : Account} (hnew : Next b.account n) :
      Occurs b (.registered n) (b.register n a)
  | founded {n : Nat} {g : Group} (hnew : Next b.conv n) :
      Occurs b (.founded n g.admin) (b.found n g)
  | closed {k : Nat} {follows : Bool} {b' : Board} (h : b.ConvGone follows k b') :
      Occurs b (.closed k) b'
  | joined {k u u' : Nat} (h : u' ∈ b.members k) : Occurs b (.joined k u) (b.join k u)
  | left {k u : Nat} : Occurs b (.left k u) (b.leave k u)
  | opened {n u u' : Nat} (hnew : Next b.chat n) : Occurs b (.opened n u u') (b.openChat n (u, u'))
  | chatClosed {k : Nat} {follows : Bool} {b' : Board} (h : b.ChatGone follows k b') :
      Occurs b (.chatClosed k) b'
  | posted {n : Nat} {m : Message} (hconv : ∀ k, m.conv = some k → b.conv k ≠ none)
      (hchat : ∀ k, m.chat = some k → b.chat k ≠ none) (hnew : Next b.message n) :
      Occurs b (.posted n m) (b.post n m)
  | read {n : Nat} {m : Message} {b' : Board} (hm : b.message n = some m)
      (h : b' = b.post n m.delivered ∨ b' = b) : Occurs b (.read n) b'
  | erased {n : Nat} {m : Message} {b' : Board} (hm : b.message n = some m)
      (h : b' = b.post n m.erased ∨ b' = b) : Occurs b (.erased n) b'

variable {b b' : Board} {e : Exchange} {ev : Event}

/-- An error, or no answer, says that nothing has happened. -/
theorem eventOf_err (env : Env) (header : RequestHeader) (route : Route) (status : UInt32)
    (group action : UInt8) : eventOf env header route (.err status group action) = .nothing := by
  cases route <;> rfl

theorem eventOf_tells {env : Env} {header : RequestHeader} {clean : Bool} {route : Route}
    {r : ResponseCall} (h : b.Tells env header clean route r) :
    eventOf env header route r = .nothing := by
  cases h <;> rfl

/-- What an exchange says has happened has happened. -/
theorem Step.occurs (h : b.Step e b') : ∃ ev, b.Occurs ev b' ∧ e.event = ev.wire := by
  cases h with
  | unparsed => exact ⟨.nothing, .nothing, rfl⟩
  | @unverified _ req _ _ _ =>
    refine ⟨.nothing, .nothing, ?_⟩
    cases hroute : req.route with
    | none => simp [Exchange.event, hroute, Event.wire]
    | some route =>
      rw [Exchange.event_eq hroute, eventOf_err]
      rfl
  | unknown _ => exact ⟨.nothing, .nothing, rfl⟩
  | handled _ hroute h =>
    cases h with
    | refused h => exact ⟨.nothing, .nothing, by rw [Exchange.event_eq hroute, eventOf_err]; rfl⟩
    | undefined h => exact ⟨.nothing, .nothing, rfl⟩
    | aborted _ _ => exact ⟨.nothing, .nothing, rfl⟩
    | told h => exact ⟨.nothing, .nothing, by rw [Exchange.event_eq hroute, eventOf_tells h]; rfl⟩
    | registered _ _ _ hnew =>
      refine ⟨_, .registered hnew, ?_⟩
      rw [Exchange.event_eq hroute, eventOf, UInt32.toNat_ofNat', Event.wire]
    | founded _ _ hnew =>
      refine ⟨_, .founded hnew, ?_⟩
      rw [Exchange.event_eq hroute, eventOf, UInt32.toNat_ofNat', Event.wire]
    | closed _ hgone => exact ⟨_, .closed hgone, Exchange.event_eq hroute⟩
    | joined h _ => exact ⟨_, .joined h, Exchange.event_eq hroute⟩
    | left _ => exact ⟨_, .left, Exchange.event_eq hroute⟩
    | chatOpened _ _ hnew =>
      refine ⟨_, .opened hnew, ?_⟩
      rw [Exchange.event_eq hroute, eventOf, UInt32.toNat_ofNat', Event.wire]
    | chatClosed _ hgone => exact ⟨_, .chatClosed hgone, Exchange.event_eq hroute⟩
    | posted _ hmsg _ hconv hchat _ hnew =>
      refine ⟨_, .posted hconv hchat hnew, ?_⟩
      rw [Exchange.event_eq hroute, eventOf, hmsg.eq, UInt32.toNat_ofNat', Event.wire]
    | read hm _ h => exact ⟨_, .read hm (h.imp_right And.right), Exchange.event_eq hroute⟩
    | erased hm _ h => exact ⟨_, .erased hm (h.imp_right And.right), Exchange.event_eq hroute⟩

/-! ### Numbers -/

/-- No number is larger than `N`. -/
structure Within (N : Nat) (b : Board) : Prop where
  account : ∀ n, b.account n ≠ none → n ≤ N
  conv : ∀ n, b.conv n ≠ none → n ≤ N
  chat : ∀ n, b.chat n ≠ none → n ≤ N
  message : ∀ n, b.message n ≠ none → n ≤ N

theorem Within.mono {N N' : Nat} (h : b.Within N) (hle : N ≤ N') : b.Within N' where
  account n hn := (h.account n hn).trans hle
  conv n hn := (h.conv n hn).trans hle
  chat n hn := (h.chat n hn).trans hle
  message n hn := (h.message n hn).trans hle

/-- A new number is the next one at most. -/
theorem Next.update_le {α : Type} {f : Nat → Option α} {n N : Nat} (hnew : Next f n)
    (hf : ∀ k, f k ≠ none → k ≤ N) (o : Option α) :
    ∀ k, Function.update f n o k ≠ none → k ≤ N + 1 := by
  intro k hk
  by_cases hkn : k = n
  · obtain ⟨-, j, rfl, hj⟩ := hnew
    rcases hj with rfl | hj
    · omega
    · have := hf j hj
      omega
  · rw [Function.update_of_ne hkn] at hk
    exact (hf k hk).trans (Nat.le_succ N)

theorem update_none_le {α : Type} {f : Nat → Option α} {n N : Nat}
    (hf : ∀ k, f k ≠ none → k ≤ N) : ∀ k, Function.update f n none k ≠ none → k ≤ N := by
  intro k hk
  by_cases hkn : k = n
  · simp [hkn] at hk
  · rw [Function.update_of_ne hkn] at hk
    exact hf k hk

theorem Leaves.le {follows : Bool} {P : Message → Prop} {N : Nat} (h : b.Leaves follows P b')
    (hb : ∀ n, b.message n ≠ none → n ≤ N) : ∀ n, b'.message n ≠ none → n ≤ N := by
  intro n hn
  obtain ⟨m, hm⟩ := Option.ne_none_iff_exists'.mp hn
  exact hb n (by rw [((h n m).mp hm).1]; simp)

/-- A message that is rewritten has its number already. -/
theorem Within.rewrite {N n : Nat} {m m' : Message} (hb : b.Within N) (hm : b.message n = some m)
    (h : b' = b.post n m' ∨ b' = b) : b'.Within N := by
  rcases h with rfl | rfl
  · refine ⟨hb.account, hb.conv, hb.chat, fun k hk => ?_⟩
    by_cases hkn : k = n
    · exact hkn ▸ hb.message n (by simp [hm])
    · refine hb.message k ?_
      simpa only [post, Function.update_of_ne hkn] using hk
  · exact hb

theorem Within.occurs {N : Nat} (hb : b.Within N) (h : b.Occurs ev b') : b'.Within (N + 1) := by
  have hsucc := hb.mono (Nat.le_succ N)
  cases h with
  | nothing => exact hsucc
  | registered hnew => exact { hsucc with account := hnew.update_le hb.account _ }
  | founded hnew => exact { hsucc with conv := hnew.update_le hb.conv _ }
  | closed h =>
    refine Within.mono (N := N) ⟨?_, ?_, ?_, h.message.le hb.message⟩ (Nat.le_succ N)
    · rw [h.account]
      exact hb.account
    · rw [h.conv]
      exact update_none_le hb.conv
    · rw [h.chat]
      exact hb.chat
  | joined _ => exact { hsucc with }
  | left => exact { hsucc with }
  | opened hnew => exact { hsucc with chat := hnew.update_le hb.chat _ }
  | chatClosed h =>
    refine Within.mono (N := N) ⟨?_, ?_, ?_, h.message.le hb.message⟩ (Nat.le_succ N)
    · rw [h.account]
      exact hb.account
    · rw [h.conv]
      exact hb.conv
    · rw [h.chat]
      exact update_none_le hb.chat
  | posted _ _ hnew => exact { hsucc with message := hnew.update_le hb.message _ }
  | read hm h => exact (hb.rewrite hm h).mono (Nat.le_succ N)
  | erased hm h => exact (hb.rewrite hm h).mono (Nat.le_succ N)

/-- A number that has not outgrown 32 bits is answered as it is. -/
theorem Occurs.wire {N : Nat} (h : b.Occurs ev b') (hb : b'.Within N) (hN : N < 2 ^ 32) :
    ev.wire = ev := by
  have hmod : ∀ n, n ≤ N → n % 2 ^ 32 = n := fun n hn => Nat.mod_eq_of_lt (by omega)
  cases h with
  | registered _ => rw [Event.wire, hmod _ (hb.account _ (by simp [register]))]
  | founded _ => rw [Event.wire, hmod _ (hb.conv _ (by simp [found]))]
  | opened _ => rw [Event.wire, hmod _ (hb.chat _ (by simp [openChat]))]
  | posted _ _ _ => rw [Event.wire, hmod _ (hb.message _ (by simp [post]))]
  | _ => rfl

/-! ### Rooms -/

theorem Occurs.member_iff (h : b.Occurs ev b') (k u : Nat) :
    u ∈ b'.members k ↔ ev.Admits k u ∨ u ∈ b.members k ∧ ¬ ev.Ousts k u := by
  cases h with
  | @founded n g hnew =>
    simp only [found, Event.Admits, Event.Ousts, not_false_iff, and_true]
    by_cases hk : k = n
    · subst hk
      rw [Function.update_self, Set.mem_insert_iff]
      exact or_congr ⟨fun h => ⟨rfl, h.symm⟩, fun h => h.2.symm⟩ Iff.rfl
    · rw [Function.update_of_ne hk]
      exact (or_iff_right fun h => hk h.1.symm).symm
  | @closed j follows b' h =>
    simp only [Event.Admits, Event.Ousts, false_or, h.members]
    by_cases hk : k = j
    · simp [hk]
    · rw [Function.update_of_ne hk]
      exact (and_iff_left fun h => hk h.symm).symm
  | @joined j v v' _ =>
    simp only [join, Event.Admits, Event.Ousts, not_false_iff, and_true]
    by_cases hk : k = j
    · subst hk
      rw [Function.update_self, Set.mem_insert_iff]
      exact or_congr ⟨fun h => ⟨rfl, h.symm⟩, fun h => h.2.symm⟩ Iff.rfl
    · rw [Function.update_of_ne hk]
      exact (or_iff_right fun h => hk h.1.symm).symm
  | @left j v =>
    simp only [leave, Event.Admits, Event.Ousts, false_or]
    by_cases hk : k = j
    · subst hk
      rw [Function.update_self, Set.mem_sdiff, Set.mem_singleton_iff]
      exact and_congr_right fun _ => ⟨fun hne h => hne h.2.symm, fun hne h => hne ⟨rfl, h.symm⟩⟩
    · rw [Function.update_of_ne hk]
      exact (and_iff_left fun h => hk h.1.symm).symm
  | chatClosed h => simp [Event.Admits, Event.Ousts, h.members]
  | read _ h => rcases h with rfl | rfl <;> simp [Event.Admits, Event.Ousts, post]
  | erased _ h => rcases h with rfl | rfl <;> simp [Event.Admits, Event.Ousts, post]
  | nothing => simp [Event.Admits, Event.Ousts]
  | registered _ => simp [Event.Admits, Event.Ousts, register]
  | opened _ => simp [Event.Admits, Event.Ousts, openChat]
  | posted _ _ _ => simp [Event.Admits, Event.Ousts, post]

/-- The chats after an event. -/
theorem Occurs.chat_eq (h : b.Occurs ev b') : b'.chat = b.chat ∧
      (∀ k u, ¬ ev.Opens k u ∧ ¬ ev.Closes k) ∨
    (∃ n u u', ev = .opened n u u' ∧ b.chat n = none ∧
      b'.chat = Function.update b.chat n (some (u, u'))) ∨
    ∃ k, ev = .chatClosed k ∧ b'.chat = Function.update b.chat k none := by
  cases h with
  | opened hnew => exact Or.inr (Or.inl ⟨_, _, _, rfl, hnew.1, rfl⟩)
  | chatClosed h => exact Or.inr (Or.inr ⟨_, rfl, h.chat⟩)
  | closed h => exact Or.inl ⟨h.chat, by simp [Event.Opens, Event.Closes]⟩
  | read _ h =>
    exact Or.inl ⟨by rcases h with rfl | rfl <;> rfl, by simp [Event.Opens, Event.Closes]⟩
  | erased _ h =>
    exact Or.inl ⟨by rcases h with rfl | rfl <;> rfl, by simp [Event.Opens, Event.Closes]⟩
  | _ => exact Or.inl ⟨rfl, by simp [Event.Opens, Event.Closes]⟩

theorem Occurs.inChat_iff (h : b.Occurs ev b') (k u : Nat) :
    b'.InChat k u ↔ ev.Opens k u ∨ b.InChat k u ∧ ¬ ev.Closes k := by
  rcases h.chat_eq with ⟨hchat, hno⟩ | ⟨n, v, v', rfl, hnew, hchat⟩ | ⟨j, rfl, hchat⟩
  · obtain ⟨hopens, hcloses⟩ := hno k u
    simp [InChat, hchat, hopens, hcloses]
  · have hnot : ¬ (Event.opened n v v').Closes k := by simp [Event.Closes]
    simp only [InChat, hchat, Event.Opens, hnot, not_false_iff, and_true]
    by_cases hk : k = n
    · subst hk
      simp [hnew]
    · rw [Function.update_of_ne hk]
      exact (or_iff_right fun h => hk h.1.symm).symm
  · simp only [InChat, hchat, Event.Opens, Event.Closes, false_or, Event.chatClosed.injEq]
    by_cases hk : k = j
    · simp [hk]
    · rw [Function.update_of_ne hk]
      exact (and_iff_left fun h => hk h.symm).symm

end Board

namespace messageBoard

open Board

variable {es : List Exchange} {b : Board}

/-- There are no more numbers than requests. -/
theorem within (h : messageBoard.Run es b) : b.Within es.length := by
  refine h.invariant (I := fun es b => b.Within es.length) ?_ ?_
  · rintro _ rfl
    refine ⟨?_, ?_, ?_, ?_⟩ <;> exact fun n hn => absurd rfl hn
  · intro es b e b' _ hb hstep
    obtain ⟨ev, hoccurs, -⟩ := hstep.occurs
    rw [List.length_append]
    exact hb.occurs hoccurs

/-- As long as there are less than 2^32 requests, the event of each has happened. -/
theorem occurs {e : Exchange} {b' : Board} (h : messageBoard.Run es b)
    (hlen : es.length + 1 < 2 ^ 32) (hstep : messageBoard.step b e b') : b.Occurs e.event b' := by
  obtain ⟨ev, hoccurs, hwire⟩ := Step.occurs hstep
  rw [hwire, hoccurs.wire ((within h).occurs hoccurs) hlen]
  exact hoccurs

/-- **The members of a conversation are known from the answers**: those who have been let in,
    and have not left since, unless the conversation was dropped. -/
theorem member_iff (h : messageBoard.Run es b) (hlen : es.length < 2 ^ 32) (k u : Nat) :
    u ∈ b.members k ↔ Since (·.event.Admits k u) (·.event.Ousts k u) es := by
  refine h.since (P := fun b => u ∈ b.members k) ?_ (fun es₁ b₁ e b₂ hle hrun hstep => ?_) le_rfl
  · rintro _ rfl hu
    cases hu
  · rw [List.length_append, List.length_singleton] at hle
    exact (occurs hrun (by omega) hstep).member_iff k u

/-- So are the users of a chat. -/
theorem inChat_iff (h : messageBoard.Run es b) (hlen : es.length < 2 ^ 32) (k u : Nat) :
    b.InChat k u ↔ Since (·.event.Opens k u) (·.event.Closes k) es := by
  refine h.since (P := fun b => b.InChat k u) ?_ (fun es₁ b₁ e b₂ hle hrun hstep => ?_) le_rfl
  · rintro _ rfl ⟨p, hp, -⟩
    cases hp
  · rw [List.length_append, List.length_singleton] at hle
    exact (occurs hrun (by omega) hstep).inChat_iff k u

end messageBoard

end MeshChat
