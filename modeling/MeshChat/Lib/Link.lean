import MeshChat.Lib.Refinement

/-! # Calls over a connection

    A small library about a caller who makes one call after the other over a connection,
    which carries requests one way and replies the other, each in order. The other end
    serves a request with any number of replies. A call ends with the next reply that
    comes, or is given up; what belongs to it may still be on its way.

    * `Link`, `LinkEvent`, `link`: the two directions, and what may happen.
    * `link.requests`, `link.replies`: requests are served and replies read in order,
      each once. Only what is on its way may get lost, with the connection.
    * `link.count`: calls that have ended were answered or given up.
    * `link.reply_of`: if every request is served with one reply, a reply that is read
      answers the call that is as many calls back as were given up.
-/

/-- A connection, and whether a call is under way. -/
structure Link (Q R : Type) where
  live : Bool := true
  waiting : Bool := false
  requests : List Q := []
  replies : List R := []

inductive LinkEvent (Q R : Type) where
  | call (q : Q)
  | serve (q : Q) (rs : List R)
  | reply (r : R)
  | giveUp
  | lost

namespace LinkEvent

variable {Q R : Type}

def called : LinkEvent Q R → Option Q
  | call q => some q
  | _ => none

def served : LinkEvent Q R → Option (Q × List R)
  | serve q rs => some (q, rs)
  | _ => none

def replied : LinkEvent Q R → Option R
  | reply r => some r
  | _ => none

def givenUp : LinkEvent Q R → Option Unit
  | giveUp => some ()
  | _ => none

theorem called_eq_some {e : LinkEvent Q R} {q : Q} : e.called = some q ↔ e = call q := by
  cases e <;> simp [called]

theorem served_eq_some {e : LinkEvent Q R} {x : Q × List R} :
    e.served = some x ↔ e = serve x.1 x.2 := by
  cases e <;> simp [served, Prod.ext_iff]

end LinkEvent

namespace Link

variable {Q R : Type}

inductive Step (l : Link Q R) : LinkEvent Q R → Link Q R → Prop
  | call {q : Q} (hlive : l.live = true) (hidle : l.waiting = false) :
      Step l (.call q) { l with waiting := true, requests := l.requests ++ [q] }
  | serve {q : Q} {rest : List Q} {rs : List R} (hlive : l.live = true)
      (hq : l.requests = q :: rest) :
      Step l (.serve q rs) { l with requests := rest, replies := l.replies ++ rs }
  | reply {r : R} {rest : List R} (hwaiting : l.waiting = true) (hr : l.replies = r :: rest) :
      Step l (.reply r) { l with waiting := false, replies := rest }
  | giveUp (hwaiting : l.waiting = true) : Step l .giveUp { l with waiting := false }
  | lost : Step l .lost { l with live := false, requests := [] }

end Link

/-- A connection, with nothing on its way at first. -/
def link (Q R : Type) : Machine (Link Q R) (LinkEvent Q R) where
  start l := l = {}
  step := Link.Step

/-- An entry of a list of what some labels show: the label, and what was shown before. -/
theorem List.getElem?_filterMap_split {α β : Type} {f : α → Option β} {l : List α} {k : Nat}
    {b : β} (h : (l.filterMap f)[k]? = some b) :
    ∃ before a after, l = before ++ a :: after ∧ f a = some b ∧
      (before.filterMap f).length = k := by
  obtain ⟨hk, hb⟩ := List.getElem?_eq_some_iff.mp h
  have hsplit : l.filterMap f = (l.filterMap f).take k ++ b :: (l.filterMap f).drop (k + 1) := by
    rw [← hb, List.getElem_cons_drop, List.take_append_drop]
  obtain ⟨l₁, l₂, rfl, hfirst, hrest⟩ := List.filterMap_eq_append_iff.mp hsplit
  obtain ⟨skipped, a, after, rfl, hskipped, ha, -⟩ := List.filterMap_eq_cons_iff.mp hrest
  refine ⟨l₁ ++ skipped, a, after, by simp, ha, ?_⟩
  rw [List.filterMap_append, List.filterMap_eq_nil_iff.mpr hskipped, List.append_nil, hfirst,
    List.length_take]
  omega

namespace link

open LinkEvent

variable {Q R : Type} {es : List (LinkEvent Q R)} {l : Link Q R}

def calls (es : List (LinkEvent Q R)) : List Q := es.filterMap called

def serves (es : List (LinkEvent Q R)) : List (Q × List R) := es.filterMap served

/-- The replies that were read. -/
def reads (es : List (LinkEvent Q R)) : List R := es.filterMap replied

def giveUps (es : List (LinkEvent Q R)) : Nat := (es.filterMap givenUp).length

/-- Requests are served in the order of the calls, each once. Those that are not on their way
    any more were lost with the connection. -/
theorem requests (h : (link Q R).Run es l) :
    ∃ gone, calls es = (serves es).map Prod.fst ++ l.requests ++ gone ∧
      (l.live = true → gone = []) := by
  refine h.invariant (I := fun es l => ∃ gone, calls es =
    (serves es).map Prod.fst ++ l.requests ++ gone ∧ (l.live = true → gone = [])) ?_ ?_
  · rintro _ rfl
    exact ⟨[], rfl, fun _ => rfl⟩
  · rintro es l e l' - ⟨gone, hcalls, hgone⟩ hstep
    simp only [calls, serves, List.filterMap_append] at hcalls ⊢
    cases hstep with
    | call hlive hidle =>
      obtain rfl := hgone hlive
      exact ⟨[], by simp [hcalls, called, served, List.filterMap_cons], fun _ => rfl⟩
    | serve hlive hq =>
      refine ⟨gone, by simp [hcalls, hq, called, served, List.filterMap_cons], hgone⟩
    | reply _ _ => exact ⟨gone, by simp [hcalls, called, served, List.filterMap_cons], hgone⟩
    | giveUp _ => exact ⟨gone, by simp [hcalls, called, served, List.filterMap_cons], hgone⟩
    | lost =>
      refine ⟨l.requests ++ gone, by simp [hcalls, called, served, List.filterMap_cons], fun h => ?_⟩
      cases h

/-- Replies are read in the order in which they were given, each once. -/
theorem replies (h : (link Q R).Run es l) :
    (serves es).flatMap Prod.snd = reads es ++ l.replies := by
  refine h.invariant (I := fun es l => (serves es).flatMap Prod.snd = reads es ++ l.replies) ?_ ?_
  · rintro _ rfl
    rfl
  · intro es l e l' _ ih hstep
    simp only [serves, reads, List.filterMap_append] at ih ⊢
    cases hstep with
    | reply _ hr => simp [ih, hr, served, replied, List.filterMap_cons]
    | _ => simp [ih, served, replied, List.filterMap_cons]

/-- A call that has ended was answered or given up. -/
theorem count (h : (link Q R).Run es l) :
    (calls es).length = (reads es).length + giveUps es + if l.waiting then 1 else 0 := by
  refine h.invariant (I := fun es l =>
    (calls es).length = (reads es).length + giveUps es + if l.waiting then 1 else 0) ?_ ?_
  · rintro _ rfl
    rfl
  · intro es l e l' _ ih hstep
    simp only [calls, reads, giveUps, List.filterMap_append, List.length_append] at ih ⊢
    cases hstep with
    | call _ hidle => simp [ih, hidle, called, replied, givenUp, List.filterMap_cons]
    | reply hwaiting _ => simp [ih, hwaiting, called, replied, givenUp, List.filterMap_cons]; omega
    | giveUp hwaiting => simp [ih, hwaiting, called, replied, givenUp, List.filterMap_cons]; omega
    | _ => simp [ih, called, replied, givenUp, List.filterMap_cons]

theorem serves_of_mem {q : Q} {rs : List R} : .serve q rs ∈ es ↔ (q, rs) ∈ serves es := by
  simp only [serves, List.mem_filterMap, served_eq_some]
  exact ⟨fun h => ⟨_, h, rfl⟩, fun ⟨_, h, heq⟩ => heq ▸ h⟩

/-- One reply each: the replies and what they answer. -/
theorem getElem?_of_once {L : List (Q × List R)} (hone : ∀ x ∈ L, x.2.length = 1) {k : Nat} {r : R}
    (h : (L.flatMap Prod.snd)[k]? = some r) : ∃ q, L[k]? = some (q, [r]) := by
  induction L generalizing k with
  | nil => simp at h
  | cons x L ih =>
    obtain ⟨r', hr'⟩ := List.length_eq_one_iff.mp (hone x (by simp))
    rw [List.flatMap_cons, hr'] at h
    cases k with
    | zero =>
      obtain rfl : r' = r := by simpa using h
      exact ⟨x.1, by simp [← hr']⟩
    | succ k =>
      obtain ⟨q, hq⟩ := ih (fun y hy => hone y (List.mem_cons_of_mem _ hy)) (by simpa using h)
      exact ⟨q, by simpa using hq⟩

/-- **Which call a reply answers.** If every request is served with one reply, the reply that
    ends a call answers the one that is as many calls back as were given up, and was given after
    that call was made. -/
theorem reply_of {r : R} (h : (link Q R).Run (es ++ [.reply r]) l)
    (hone : ∀ q rs, .serve q rs ∈ es → rs.length = 1) :
    ∃ before q between behind,
      es = before ++ .call q :: (between ++ .serve q [r] :: behind) ∧
        (calls (between ++ behind)).length = giveUps es := by
  obtain ⟨l₀, _, hrun, hstep, -⟩ := Machine.Run.cut h
  cases hstep with
  | reply hwaiting hr =>
  have hcount := count hrun
  rw [if_pos hwaiting] at hcount
  -- the reply is the next one that was not read
  obtain ⟨q, hserve⟩ : ∃ q, (serves es)[(reads es).length]? = some (q, [r]) := by
    refine getElem?_of_once (fun x hx => hone x.1 x.2 (serves_of_mem.mpr hx)) ?_
    rw [replies hrun, hr]
    simp
  obtain ⟨front, _, behind, hes, he, hfront⟩ := List.getElem?_filterMap_split hserve
  obtain rfl := served_eq_some.mp he
  -- when it was served, its call had been made
  rw [hes] at hrun
  obtain ⟨l₁, _, hrun₁, hstep₁, -⟩ := Machine.Run.cut hrun
  cases hstep₁ with
  | serve _ hq =>
  obtain ⟨gone, hcalls, -⟩ := requests hrun₁
  have hcall : (calls front)[(reads es).length]? = some q := by
    rw [hcalls, hq]
    simp [serves, hfront]
  obtain ⟨before, _, between, rfl, ha, hbefore⟩ := List.getElem?_filterMap_split hcall
  obtain rfl := called_eq_some.mp ha
  refine ⟨before, q, between, behind, by simp [hes], ?_⟩
  have hlen : (calls es).length = (calls before).length + 1 + (calls (between ++ behind)).length := by
    rw [hes]
    simp [calls, called, List.filterMap_cons]
    omega
  have hbefore' : (calls before).length = (reads es).length := hbefore
  omega

end link
