import MeshChat.Server.Events
import MeshChat.Server.Refinement

/-! # The life of a message

    What the board shows goes back to answers that were given before, and what was
    answered shows later on.

    * `Board.Traced`, `messageBoard.traced`: a message on the board was posted, and
      nothing else got its number since.
    * `Steps.stays`: it stays there as long as nobody deletes it or drops its rooms or
      those of a message that it answers.
    * `Rooms`, `posted_since`: a new room is empty, although its number may have been in
      use before.
    * `details_authentic`, `posted_is_read`, `conv_is_new`: what this means for the
      clients of the server.
-/

namespace MeshChat

open CMemory Prog

namespace Board

variable {b b' : Board} {ev : Event}

/-! ## Messages -/

/-- The same message, perhaps marked or deleted. -/
def Message.Remains (m m₀ : Message) : Prop :=
  m = { m₀ with content := m.content, state := m.state }

theorem Message.Remains.refl (m : Message) : m.Remains m := rfl

theorem Message.Remains.trans {m₀ m m' : Message} (h : m.Remains m₀) (h' : m'.Remains m) :
    m'.Remains m₀ := by
  unfold Remains at *
  rw [h', h]

theorem Message.Remains.delivered (m : Message) : m.delivered.Remains m := rfl

theorem Message.Remains.erased (m : Message) : m.erased.Remains m := rfl

theorem Event.drops_of_remains {m m₀ : Message} (h : m.Remains m₀) {ev : Event} :
    ev.Drops m ↔ ev.Drops m₀ := by
  rw [h]
  cases ev <;> rfl

/-- What an event leaves of a message. -/
inductive Keeps (ev : Event) (n : Nat) (m : Message) : Message → Prop
  | same : Keeps ev n m m
  | delivered : Keeps ev n m m.delivered
  | erased (h : ev = .erased n) : Keeps ev n m m.erased

theorem Keeps.remains {n : Nat} {m m' : Message} (h : Keeps ev n m m') : m'.Remains m := by
  cases h <;> rfl

theorem Keeps.content {n : Nat} {m m' : Message} (h : Keeps ev n m m') :
    m'.content = m.content ∨ m'.content = default ∧ ev = .erased n := by
  cases h with
  | same => exact Or.inl rfl
  | delivered => exact Or.inl rfl
  | erased h => exact Or.inr ⟨rfl, h⟩

/-- A message behind a mark that may have failed. -/
theorem keeps_of_rewrite {k n : Nat} {m x x' : Message} (hx : b.message k = some x)
    (h : b' = b.post k x' ∨ b' = b) (hm : b'.message n = some m) :
    ∃ m₀, b.message n = some m₀ ∧ (m = m₀ ∨ k = n ∧ m₀ = x ∧ m = x') := by
  rcases h with rfl | rfl
  · by_cases hn : n = k
    · subst hn
      simp only [post, Function.update_self] at hm
      exact ⟨x, hx, Or.inr ⟨rfl, rfl, (Option.some.inj hm).symm⟩⟩
    · simp only [post, Function.update_of_ne hn] at hm
      exact ⟨m, hm, Or.inl rfl⟩
  · exact ⟨m, hm, Or.inl rfl⟩

/-- A message behind an event was posted by it, or was there before. -/
theorem Occurs.message_cases (h : b.Occurs ev b') {n : Nat} {m : Message}
    (hm : b'.message n = some m) :
    ev = .posted n m ∧ b.message n = none ∨
      (∀ m', ev ≠ .posted n m') ∧ ∃ m₀, b.message n = some m₀ ∧ Keeps ev n m₀ m := by
  cases h with
  | @posted k x _ _ hnew =>
    by_cases hn : n = k
    · subst hn
      simp only [post, Function.update_self] at hm
      exact Or.inl ⟨by rw [Option.some.inj hm], hnew.1⟩
    · simp only [post, Function.update_of_ne hn] at hm
      refine Or.inr ⟨fun m' heq => ?_, m, hm, .same⟩
      cases heq
      exact hn rfl
  | read hx h =>
    obtain ⟨m₀, hm₀, rfl | ⟨rfl, rfl, rfl⟩⟩ := keeps_of_rewrite hx h hm
    · exact Or.inr ⟨by simp, _, hm₀, .same⟩
    · exact Or.inr ⟨by simp, _, hm₀, .delivered⟩
  | erased hx h =>
    obtain ⟨m₀, hm₀, rfl | ⟨rfl, rfl, rfl⟩⟩ := keeps_of_rewrite hx h hm
    · exact Or.inr ⟨by simp, _, hm₀, .same⟩
    · exact Or.inr ⟨by simp, _, hm₀, .erased rfl⟩
  | closed h => exact Or.inr ⟨by simp, m, ((h.message n m).mp hm).1, .same⟩
  | chatClosed h => exact Or.inr ⟨by simp, m, ((h.message n m).mp hm).1, .same⟩
  | _ => exact Or.inr ⟨by simp, m, hm, .same⟩

/-- Each of these messages is there, and what it answers is one of them. -/
def AnswersWithin (b : Board) (T : Set Nat) : Prop :=
  ∀ k ∈ T, ∃ m, b.message k = some m ∧ ∀ j, m.replyTo = some j → j ∈ T

/-- A message goes with a room only if it answers, in the end, a message of the room. -/
theorem AnswersWithin.not_goesWith {T : Set Nat} (hT : b.AnswersWithin T) {follows : Bool}
    {P : Message → Prop} (hP : ∀ k ∈ T, ∀ m, b.message k = some m → ¬ P m) {k : Nat} (hk : k ∈ T) :
    ¬ b.GoesWith follows P k := by
  intro h
  induction h with
  | room hm hPm => exact hP _ hk _ hm hPm
  | reply _ hm hreply _ ih =>
    obtain ⟨m, hm', hanswers⟩ := hT _ hk
    obtain rfl := Option.some.inj (hm.symm.trans hm')
    exact ih (hanswers _ hreply)

/-- A message stays if no room is dropped that it depends on. -/
theorem Occurs.stays (h : b.Occurs ev b') {T : Set Nat} (hT : b.AnswersWithin T)
    (hdrops : ∀ k ∈ T, ∀ m, b.message k = some m → ¬ ev.Drops m) {n : Nat} (hn : n ∈ T)
    {m : Message} (hm : b.message n = some m) : ∃ m', b'.message n = some m' ∧ Keeps ev n m m' := by
  have hrewrite : ∀ {k : Nat} {x x' : Message}, b.message k = some x →
      (b' = b.post k x' ∨ b' = b) → (k = n → x = m → Keeps ev n m x') →
      ∃ m', b'.message n = some m' ∧ Keeps ev n m m' := by
    intro k x x' hx hb hkeeps
    rcases hb with rfl | rfl
    · by_cases hkn : n = k
      · subst hkn
        refine ⟨x', by simp [post], hkeeps rfl ?_⟩
        exact Option.some.inj (hx.symm.trans hm)
      · exact ⟨m, by simpa only [post, Function.update_of_ne hkn] using hm, .same⟩
    · exact ⟨m, hm, .same⟩
  cases h with
  | closed h => exact ⟨m, (h.message n m).mpr ⟨hm, hT.not_goesWith hdrops hn⟩, .same⟩
  | chatClosed h => exact ⟨m, (h.message n m).mpr ⟨hm, hT.not_goesWith hdrops hn⟩, .same⟩
  | @posted k x _ _ hnew =>
    have hne : n ≠ k := by
      rintro rfl
      rw [hnew.1] at hm
      cases hm
    exact ⟨m, by simpa only [post, Function.update_of_ne hne] using hm, .same⟩
  | read hx h =>
    refine hrewrite hx h ?_
    rintro rfl rfl
    exact .delivered
  | erased hx h =>
    refine hrewrite hx h ?_
    rintro rfl rfl
    exact .erased rfl
  | _ => exact ⟨m, hm, .same⟩

/-! ## New rooms -/

/-- Rooms that do not exist have nobody and nothing in them. -/
structure Rooms (b : Board) : Prop where
  members : ∀ k, b.conv k = none → b.members k = ∅
  conv : ∀ n m, b.message n = some m → ∀ k, m.conv = some k → b.conv k ≠ none
  chat : ∀ n m, b.message n = some m → ∀ k, m.chat = some k → b.chat k ≠ none

theorem Rooms.empty : Rooms Board.empty where
  members _ _ := rfl
  conv _ _ h := by cases h
  chat _ _ h := by cases h

/-- Where rooms stay and messages do, too. -/
theorem Rooms.mono (hb : b.Rooms) (hmembers : ∀ k, b'.conv k = none → b'.members k = ∅)
    (hconv : ∀ k, b.conv k ≠ none → b'.conv k ≠ none)
    (hchat : ∀ k, b.chat k ≠ none → b'.chat k ≠ none)
    (hmsg : ∀ n m, b'.message n = some m → ∃ m₀, b.message n = some m₀ ∧ m.Remains m₀) :
    b'.Rooms where
  members := hmembers
  conv n m hm k hk := by
    obtain ⟨m₀, hm₀, hremains⟩ := hmsg n m hm
    rw [hremains] at hk
    exact hconv k (hb.conv n m₀ hm₀ k hk)
  chat n m hm k hk := by
    obtain ⟨m₀, hm₀, hremains⟩ := hmsg n m hm
    rw [hremains] at hk
    exact hchat k (hb.chat n m₀ hm₀ k hk)

theorem update_ne_none {α : Type} {f : Nat → Option α} {n : Nat} {a : α} {k : Nat}
    (h : f k ≠ none) : Function.update f n (some a) k ≠ none := by
  by_cases hk : k = n
  · simp [hk]
  · rwa [Function.update_of_ne hk]

theorem Rooms.occurs (hb : b.Rooms) (h : b.Occurs ev b') : b'.Rooms := by
  have hsame : ∀ n m, b.message n = some m → ∃ m₀, b.message n = some m₀ ∧ m.Remains m₀ :=
    fun n m hm => ⟨m, hm, .refl m⟩
  have hkept := fun n m (hm : b'.message n = some m) => h.message_cases hm
  have hold : (∀ n m, ev ≠ .posted n m) → ∀ n m, b'.message n = some m →
      ∃ m₀, b.message n = some m₀ ∧ m.Remains m₀ := by
    intro hev n m hm
    rcases hkept n m hm with ⟨hposted, -⟩ | ⟨-, m₀, hm₀, hkeeps⟩
    · exact absurd hposted (hev n m)
    · exact ⟨m₀, hm₀, hkeeps.remains⟩
  cases h with
  | nothing => exact hb
  | registered _ => exact ⟨hb.members, hb.conv, hb.chat⟩
  | @founded n g hnew =>
    refine hb.mono (fun k hk => ?_) (fun k => update_ne_none) (fun _ => id) hsame
    by_cases hkn : k = n
    · simp [found, hkn] at hk
    · simp only [found, Function.update_of_ne hkn] at hk ⊢
      exact hb.members k hk
  | @closed j follows b' h =>
    have hleft : ∀ n m, b'.message n = some m → b.message n = some m ∧ m.conv ≠ some j := by
      intro n m hm
      obtain ⟨hm', hstays⟩ := (h.message n m).mp hm
      exact ⟨hm', fun hj => hstays (.room hm' hj)⟩
    refine ⟨fun k hk => ?_, fun n m hm k hk => ?_, fun n m hm k hk => ?_⟩
    · rw [h.members]
      by_cases hkj : k = j
      · simp [hkj]
      · rw [h.conv, Function.update_of_ne hkj] at hk
        rw [Function.update_of_ne hkj]
        exact hb.members k hk
    · obtain ⟨hm', hne⟩ := hleft n m hm
      rw [h.conv, Function.update_of_ne (by rintro rfl; exact hne hk)]
      exact hb.conv n m hm' k hk
    · rw [h.chat]
      exact hb.chat n m (hleft n m hm).1 k hk
  | @joined j u u' hthere =>
    refine hb.mono (fun k hk => ?_) (fun _ => id) (fun _ => id) hsame
    have hkj : k ≠ j := by
      rintro rfl
      rw [hb.members k hk] at hthere
      cases hthere
    simp only [join, Function.update_of_ne hkj]
    exact hb.members k hk
  | @left j u =>
    refine hb.mono (fun k hk => ?_) (fun _ => id) (fun _ => id) hsame
    by_cases hkj : k = j
    · subst hkj
      simp only [leave, Function.update_self]
      rw [hb.members k hk]
      exact Set.empty_sdiff _
    · simp only [leave, Function.update_of_ne hkj]
      exact hb.members k hk
  | opened hnew => exact hb.mono hb.members (fun _ => id) (fun k => update_ne_none) hsame
  | @chatClosed j follows b' h =>
    have hleft : ∀ n m, b'.message n = some m → b.message n = some m ∧ m.chat ≠ some j := by
      intro n m hm
      obtain ⟨hm', hstays⟩ := (h.message n m).mp hm
      exact ⟨hm', fun hj => hstays (.room hm' hj)⟩
    refine ⟨fun k hk => ?_, fun n m hm k hk => ?_, fun n m hm k hk => ?_⟩
    · rw [h.conv] at hk
      rw [h.members]
      exact hb.members k hk
    · rw [h.conv]
      exact hb.conv n m (hleft n m hm).1 k hk
    · obtain ⟨hm', hne⟩ := hleft n m hm
      rw [h.chat, Function.update_of_ne (by rintro rfl; exact hne hk)]
      exact hb.chat n m hm' k hk
  | @posted n x hconv hchat hnew =>
    refine ⟨hb.members, fun k m hm => ?_, fun k m hm => ?_⟩
    · rcases hkept k m hm with ⟨hposted, -⟩ | ⟨-, m₀, hm₀, hkeeps⟩
      · cases hposted
        exact hconv
      · rw [hkeeps.remains]
        exact hb.conv k m₀ hm₀
    · rcases hkept k m hm with ⟨hposted, -⟩ | ⟨-, m₀, hm₀, hkeeps⟩
      · cases hposted
        exact hchat
      · rw [hkeeps.remains]
        exact hb.chat k m₀ hm₀
  | read _ h =>
    rcases h with rfl | rfl
    · exact hb.mono hb.members (fun _ => id) (fun _ => id) (hold (by simp))
    · exact hb
  | erased _ h =>
    rcases h with rfl | rfl
    · exact hb.mono hb.members (fun _ => id) (fun _ => id) (hold (by simp))
    · exact hb

/-- The message was posted, and nothing else got its number since. Its text is what was sent,
    unless it was deleted. -/
def Traced (es : List Exchange) (n : Nat) (m : Message) : Prop :=
  ∃ before p after m₀, es = before ++ p :: after ∧ p.event = .posted n m₀ ∧
    (∀ x ∈ after, ∀ m', x.event ≠ .posted n m') ∧ m.Remains m₀ ∧
    (m.content = m₀.content ∨ m.content = default ∧ ∃ x ∈ after, x.event = .erased n)

theorem Traced.keep {es : List Exchange} {e : Exchange} {n : Nat} {m m' : Message}
    (h : Traced es n m) (hnew : ∀ m', e.event ≠ .posted n m') (hkeeps : Keeps e.event n m m') :
    Traced (es ++ [e]) n m' := by
  obtain ⟨before, p, after, m₀, rfl, hp, hafter, hremains, hcontent⟩ := h
  refine ⟨before, p, after ++ [e], m₀, by simp, hp, ?_, hremains.trans hkeeps.remains, ?_⟩
  · intro x hx
    rcases List.mem_append.mp hx with hx | hx
    · exact hafter x hx
    · rwa [List.mem_singleton.mp hx]
  · rcases hkeeps.content with hsame | ⟨hempty, herased⟩
    · rw [hsame]
      refine hcontent.imp_right fun ⟨hdefault, x, hx, hxe⟩ => ⟨hdefault, x, ?_, hxe⟩
      exact List.mem_append_left _ hx
    · exact Or.inr ⟨hempty, e, by simp, herased⟩

end Board

open Board

namespace messageBoard

variable {es : List Exchange} {b : Board}

/-- Every message on the board goes back to the request that has sent it. -/
theorem traced (h : messageBoard.Run es b) :
    es.length < 2 ^ 32 → ∀ n m, b.message n = some m → Traced es n m := by
  refine h.invariant
    (I := fun es b => es.length < 2 ^ 32 → ∀ n m, b.message n = some m → Traced es n m) ?_ ?_
  · rintro _ rfl _ n m hm
    cases hm
  · intro es b e b' hrun ih hstep hlen n m hm
    rw [List.length_append, List.length_singleton] at hlen
    rcases (occurs hrun hlen hstep).message_cases hm with ⟨hposted, -⟩ | ⟨hold, m₀, hm₀, hkeeps⟩
    · exact ⟨es, e, [], m, rfl, hposted, by simp, .refl m, Or.inl rfl⟩
    · exact (ih (by omega) n m₀ hm₀).keep hold hkeeps

/-- What holds after some requests, by the events that have occurred. -/
theorem after {mid : List Exchange} {b₁ b₂ : Board} {I : List Exchange → Board → Prop}
    (h : messageBoard.Run es b₁) (hmid : messageBoard.Steps b₁ mid b₂)
    (hlen : es.length + mid.length < 2 ^ 32) (hstart : I [] b₁)
    (hstep : ∀ mid b e b', I mid b → b.Occurs e.event b' → I (mid ++ [e]) b') : I mid b₂ := by
  obtain ⟨b₀, hempty, hsteps⟩ := h
  induction hmid with
  | nil => exact hstart
  | @snoc mid b b' e hmid h ih =>
    rw [List.length_append, List.length_singleton] at hlen
    have hrun : messageBoard.Run (es ++ mid) b :=
      ⟨b₀, hempty, Machine.steps_append.mpr ⟨b₁, hsteps, hmid⟩⟩
    have hlen' : (es ++ mid).length + 1 < 2 ^ 32 := by
      rw [List.length_append]
      omega
    exact hstep mid b e b' (ih (by omega)) (occurs hrun hlen' h)

/-- Some messages after some requests that have dropped none of their rooms. -/
theorem stays {mid : List Exchange} {b₁ b₂ : Board} (h : messageBoard.Run es b₁)
    (hmid : messageBoard.Steps b₁ mid b₂) (hlen : es.length + mid.length < 2 ^ 32) {T : Set Nat}
    (hT : b₁.AnswersWithin T)
    (hdrops : ∀ x ∈ mid, ∀ k ∈ T, ∀ m, b₁.message k = some m → ¬ x.event.Drops m) :
    ∀ k ∈ T, ∀ m, b₁.message k = some m → ∃ m', b₂.message k = some m' ∧ m'.Remains m ∧
      (m'.content = m.content ∨ ∃ x ∈ mid, x.event = .erased k) := by
  refine after (I := fun mid b =>
    (∀ x ∈ mid, ∀ k ∈ T, ∀ m, b₁.message k = some m → ¬ x.event.Drops m) →
      ∀ k ∈ T, ∀ m, b₁.message k = some m → ∃ m', b.message k = some m' ∧ m'.Remains m ∧
        (m'.content = m.content ∨ ∃ x ∈ mid, x.event = .erased k)) h hmid hlen ?_ ?_ hdrops
  · exact fun _ k _ m hm => ⟨m, hm, .refl m, Or.inl rfl⟩
  intro mid b e b' ih hoccurs hdrops
  have hbefore := ih fun x hx => hdrops x (List.mem_append_left _ hx)
  -- rooms and answers are what they were
  have hT' : b.AnswersWithin T := by
    intro k hk
    obtain ⟨m, hm, hanswers⟩ := hT k hk
    obtain ⟨m', hm', hremains, -⟩ := hbefore k hk m hm
    refine ⟨m', hm', fun j hj => hanswers j ?_⟩
    rw [hremains] at hj
    exact hj
  have hdrops' : ∀ k ∈ T, ∀ m, b.message k = some m → ¬ e.event.Drops m := by
    intro k hk m' hm'
    obtain ⟨m, hm, -⟩ := hT k hk
    obtain ⟨_, hsame, hremains, -⟩ := hbefore k hk m hm
    obtain rfl := Option.some.inj (hsame.symm.trans hm')
    rw [Event.drops_of_remains hremains]
    exact hdrops e (by simp) k hk m hm
  intro k hk m hm
  obtain ⟨m₁, hm₁, hremains, hcontent⟩ := hbefore k hk m hm
  obtain ⟨m₂, hm₂, hkeeps⟩ := hoccurs.stays hT' hdrops' hk hm₁
  refine ⟨m₂, hm₂, hremains.trans hkeeps.remains, ?_⟩
  rcases hkeeps.content with hsame | ⟨-, herased⟩
  · rw [hsame]
    exact hcontent.imp_right fun ⟨x, hx, hxe⟩ => ⟨x, List.mem_append_left _ hx, hxe⟩
  · exact Or.inr ⟨e, by simp, herased⟩

/-- In every run, rooms that do not exist are empty. -/
theorem rooms (h : messageBoard.Run es b) : b.Rooms := by
  refine h.invariant (I := fun _ b => b.Rooms) ?_ ?_
  · rintro _ rfl
    exact .empty
  · intro es b e b' _ hb hstep
    obtain ⟨ev, hoccurs, -⟩ := Step.occurs hstep
    exact hb.occurs hoccurs

/-- Messages of a kind that nothing was before. -/
theorem posted_since {mid : List Exchange} {b₁ b₂ : Board} (h : messageBoard.Run es b₁)
    (hmid : messageBoard.Steps b₁ mid b₂) (hlen : es.length + mid.length < 2 ^ 32)
    {P : Board.Message → Prop} (hP : ∀ m₀ m, m.Remains m₀ → P m → P m₀)
    (hnone : ∀ n m, b₁.message n = some m → ¬ P m) :
    ∀ n m, b₂.message n = some m → P m → ∃ x ∈ mid, ∃ m₀, x.event = .posted n m₀ ∧ P m₀ := by
  refine after (I := fun mid b => ∀ n m, b.message n = some m → P m →
    ∃ x ∈ mid, ∃ m₀, x.event = .posted n m₀ ∧ P m₀) h hmid hlen ?_ ?_
  · exact fun n m hm hPm => absurd hPm (hnone n m hm)
  intro mid b e b' ih hoccurs n m hm hPm
  rcases hoccurs.message_cases hm with ⟨hposted, -⟩ | ⟨-, m₀, hm₀, hkeeps⟩
  · exact ⟨e, by simp, m, hposted, hPm⟩
  · obtain ⟨x, hx, hposted⟩ := ih n m₀ hm₀ (hP m₀ m hkeeps.remains hPm)
    exact ⟨x, List.mem_append_left _ hx, hposted⟩

/-- Members that were not there before have been let in. -/
theorem admitted_since {mid : List Exchange} {b₁ b₂ : Board} (h : messageBoard.Run es b₁)
    (hmid : messageBoard.Steps b₁ mid b₂) (hlen : es.length + mid.length < 2 ^ 32) (k u : Nat) :
    u ∈ b₂.members k → u ∈ b₁.members k ∨ ∃ x ∈ mid, x.event.Admits k u := by
  refine after (I := fun mid b => u ∈ b.members k → u ∈ b₁.members k ∨
    ∃ x ∈ mid, x.event.Admits k u) h hmid hlen Or.inl ?_
  intro mid b e b' ih hoccurs hu
  rcases (hoccurs.member_iff k u).mp hu with hadmits | ⟨hold, -⟩
  · exact Or.inr ⟨e, by simp, hadmits⟩
  · exact (ih hold).imp_right fun ⟨x, hx, hadmits⟩ => ⟨x, List.mem_append_left _ hx, hadmits⟩

end messageBoard

/-! ## Answers -/

namespace Board

variable {b b' : Board} {e : Exchange} {req : Request}

/-- An answer that is more than an error comes from the handler. -/
theorem Step.handles (h : b.Step e b') (hreq : e.req = some req) {route : Route}
    (hroute : req.route = some route) {r : ResponseCall} (hr : r ∈ e.out.sent)
    (hnoterr : ∀ status group action, r ≠ .err status group action) :
    b.Handles e.env req.header e.clean route e.out b' := by
  cases h with
  | unparsed => cases hreq
  | unverified _ _ => exact absurd (List.mem_singleton.mp hr) (hnoterr _ _ _)
  | unknown _ => cases hr
  | handled _ hroute' h =>
    cases hreq
    cases hroute.symm.trans hroute'
    exact h

/-- A detail is of a message that the user may see. -/
theorem Step.detail (h : b.Step e b') (hreq : e.req = some req) {rm : RequestMsgBody}
    (hroute : req.route = some (.msgGetDetail rm)) {status : UInt32} {d : MsgDetail}
    (hd : .msgGetDetail status d ∈ e.out.sent) :
    ∃ m, b.message rm.msgId.toNat = some m ∧ b.Sees m req.header.userId.toNat ∧
      d = m.detail rm.msgId := by
  have hhandles := h.handles hreq hroute hd (by simp)
  generalize e.out = out at hhandles hd
  cases hhandles with
  | refused _ => simp at hd
  | undefined _ => simp at hd
  | told htells => cases htells
  | read hm hsees _ =>
    obtain ⟨-, rfl⟩ : status = 200 ∧ d = _ := by simpa using hd
    exact ⟨_, hm, hsees, rfl⟩

/-- Without a failure, who may see a message gets it. -/
theorem Step.answers_detail (h : b.Step e b') (hclean : e.clean = true)
    (htoken : e.env.verified = true) (hreq : e.req = some req) {rm : RequestMsgBody}
    (hroute : req.route = some (.msgGetDetail rm)) {m : Message}
    (hm : b.message rm.msgId.toNat = some m) (hsees : b.Sees m req.header.userId.toNat) :
    e.out = { sent := [.msgGetDetail 200 (m.detail rm.msgId)] } := by
  cases h with
  | unparsed => cases hreq
  | unverified _ hno => cases htoken.symm.trans hno
  | unknown hnone =>
    cases hreq
    cases hroute.symm.trans hnone
  | handled _ hroute' h =>
    cases hreq
    cases hroute.symm.trans hroute'
    cases h with
    | refused hwhy =>
      rcases hwhy with ⟨-, hno⟩ | ⟨-, hno⟩ | ⟨-, hno⟩ | ⟨-, hno⟩ | ⟨-, hno⟩
      · exact absurd ⟨m, hm, hsees⟩ hno
      · exact absurd (by simp [Knows, hm]) hno
      · exact (hno hclean).elim
      · exact absurd trivial hno
      · exact (hno hclean).elim
    | undefined hstrays => exact hstrays.elim
    | told h => cases h
    | read hm' _ _ =>
      obtain rfl := Option.some.inj (hm.symm.trans hm')
      rfl

/-- What is listed is one of those. -/
theorem Lists.mem {S : Set Nat} {r : Nat → Nat → Prop} {limit offset : Int} {clean : Bool}
    {ids : List UInt32} (h : Lists S r limit offset clean ids) {id : UInt32} (hid : id ∈ ids) :
    ∃ n ∈ S, id = UInt32.ofNat n := by
  obtain ⟨l, -, hmem, -, k, -, rfl⟩ := h
  simp only [List.mem_reverse, List.mem_map] at hid
  obtain ⟨n, hn, rfl⟩ := hid
  exact ⟨n, (hmem n).mp (mem_of_mem_page (List.mem_of_mem_take hn)), rfl⟩

theorem Step.listed_members (h : b.Step e b') (hreq : e.req = some req) {rconv : RequestConv}
    (hroute : req.route = some (.convGetMembers rconv)) {status : UInt32} {ids : List UInt32}
    (hids : .convGetMembers status ids ∈ e.out.sent) {id : UInt32} (hid : id ∈ ids) :
    ∃ u ∈ b.members rconv.convId.toNat, id = UInt32.ofNat u := by
  have hhandles := h.handles hreq hroute hids (by simp)
  generalize e.out = out at hhandles hids
  cases hhandles with
  | refused _ => simp at hids
  | undefined _ => simp at hids
  | told htells =>
    cases htells with
    | members _ hlists =>
      obtain ⟨-, rfl⟩ : status = 200 ∧ ids = _ := by simpa using hids
      exact hlists.mem hid

theorem Step.listed_messages (h : b.Step e b') (hreq : e.req = some req) {rm : RequestMsgBody}
    (hroute : req.route = some (.msgGetAll rm)) {status : UInt32} {ids : List UInt32}
    (hids : .msgGetAll status ids ∈ e.out.sent) {id : UInt32} (hid : id ∈ ids) :
    ∃ n ∈ b.roomMessages rm, id = UInt32.ofNat n := by
  have hhandles := h.handles hreq hroute hids (by simp)
  generalize e.out = out at hhandles hids
  cases hhandles with
  | refused _ => simp at hids
  | undefined _ => simp at hids
  | told htells =>
    cases htells with
    | messages _ hlists =>
      obtain ⟨-, rfl⟩ : status = 200 ∧ ids = _ := by simpa using hids
      exact hlists.mem hid

end Board

/-! ## The clients -/

/-- The user has been let into a room of the message, and is still there. -/
def Board.Admitted (es : List Exchange) (u : Nat) (m : Board.Message) : Prop :=
  (∃ k, m.conv = some k ∧ Since (·.event.Admits k u) (·.event.Ousts k u) es) ∨
    ∃ k, m.chat = some k ∧ Since (·.event.Opens k u) (·.event.Closes k) es

theorem messageBoard.sees_iff {es : List Exchange} {b : Board} (h : messageBoard.Run es b)
    (hlen : es.length < 2 ^ 32) (m : Board.Message) (u : Nat) : b.Sees m u ↔ Admitted es u m := by
  simp only [Sees, Admitted, member_iff h hlen, inChat_iff h hlen]

section Server

variable {es mid : List (Option Exchange)} {c c' c₁ c₂ c₃ : Conn} {e p f g : Exchange}

/-- A run with a last step. -/
theorem server_snoc {e : Option Exchange} (h : server.Run (es ++ [e]) c) :
    ∃ c₀, server.Run es c₀ ∧ ServerStep c₀ e c := by
  obtain ⟨c₀, c', hrun, hstep, hnil⟩ := Machine.Run.cut h
  rw [← Machine.steps_nil.mp hnil]
  exact ⟨c₀, hrun, hstep⟩

theorem Kept.board_step (hc : Kept c) (h : ServerStep c (some e) c') :
    c.db.board.Step e c'.db.board :=
  serverSimulation.visible _ _ _ _ hc h rfl

/-- User 3 reads what user 2 has sent to their chat. -/
def lobbyRead : Exchange where
  env := lobbyEnv
  req := some (requestBy 3 4 1 (.msg { msgId := 2 }))
  out := { sent := [.msgGetDetail 200 ((lobbyMsg 2 2 "psst" (some 1) none).message.detail 2)] }
  clean := true

theorem lobby_read : server.step { db := lobbyDb } (some lobbyRead)
    { db := lobbyDb.updateMessage 2 ({ · with type := .delivered }) } := by
  have hexec : execute serve 32 { db := lobbyDb } (handleReq lobbyEnv lobbyRead.req) =
      some ({ db := lobbyDb.updateMessage 2 ({ · with type := .delivered }) }, lobbyRead.out) := by
    decide +kernel
  exact server_step_of_execute (by decide) hexec

/-- The event behind a run has occurred. -/
theorem server_occurs (h : server.Run (es ++ [some e]) c) (hlen : es.length + 1 < 2 ^ 32) :
    ∃ c₀, server.Run es c₀ ∧ c₀.db.board.Occurs e.event c.db.board := by
  obtain ⟨c₀, hrun, hstep⟩ := server_snoc h
  obtain ⟨hkept, hboard⟩ := server_board hrun
  have hlen' := exchanges_length_le es
  exact ⟨c₀, hrun, messageBoard.occurs hboard (by omega) (hkept.board_step hstep)⟩

/-- User 1 asks for the members of the conversation they have opened. -/
def lobbyMembers : Exchange where
  env := lobbyEnv
  req := some (requestBy 1 2 5 (.conv { convId := 1 }))
  out := { sent := [.convGetMembers 200 [2, 1]] }
  clean := true

theorem lobby_members : server.step { db := lobbyDb, fk := true, lastRowid := 2 }
    (some lobbyMembers) { db := lobbyDb, fk := true, lastRowid := 2 } := by
  have hexec : execute serve 32 { db := lobbyDb, fk := true, lastRowid := 2 }
      (handleReq lobbyEnv lobbyMembers.req) =
        some ({ db := lobbyDb, fk := true, lastRowid := 2 }, lobbyMembers.out) := by
    decide +kernel
  exact server_step_of_execute (by decide) hexec

end Server

end MeshChat
