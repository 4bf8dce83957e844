import MeshChat.Client.Paging

/-! # Polling for new messages (`MessageViewModel.java`)

    Once a second the client asks for the last ten ids of the room, compares them with
    those of the poll before, and shows what is new.

    * `notifyMsgList`: what a poll collects in `newItems` and keeps in `lastedIds`; the
      two loops compare backwards and stop at the first id that both lists have.
    * `lastTen`: the window of a room; `window_lastTen`: it is what the server answers.
    * `poll_delivers_iff`: the new ids are delivered once and in order exactly when there
      is none, or one in a room of ten messages or more.
-/

namespace MeshChat

/-! ## A poll -/

/-- The inner loop, over the new ids from the last to the first: the items collected, and
    `closeFlag`. -/
def collectUpTo (old : Int64) : List Int64 → List Int64 → List Int64 × Bool
  | [], newItems => (newItems, false)
  | new :: news, newItems =>
    -- `closeFlag = true; break`
    if old = new then (newItems, true) else collectUpTo old news (newItems ++ [new])

/-- The outer loop, over the old ids from the last to the first. -/
def collectNew (news : List Int64) : List Int64 → List Int64 → List Int64
  | [], newItems => newItems
  | old :: olds, newItems =>
    match collectUpTo old news newItems with
    | (newItems, true) => newItems
    -- the ids that were collected for this old one stay in `newItems`
    | (newItems, false) => collectNew news olds newItems

/-- `notifyMsgList` with the ids it gets: `newItems`, and `lastedIds` from then on. Unless
    there were ten ids before, nothing is compared. -/
def notifyMsgList (lastedIds newLs : List Int64) : List Int64 × List Int64 :=
  if lastedIds.length ≠ 10 then ([], newLs)
  else (collectNew newLs.reverse lastedIds.reverse [], newLs)

/-- The last ten ids of a room, the oldest first. -/
def lastTen (ids : List Int64) : List Int64 := ids.drop (ids.length - 10)

/-- The first page of a room that is listed from the newest message on, reversed. -/
theorem window_lastTen {order : RowOrder} {k : Listing} {db : Db} {ids : List Nat}
    (hids : order.ids k db = ids.reverse) :
    ((((Paginate.new 10).window order k db).map Int64.ofNat).reverse) =
      lastTen (ids.map Int64.ofNat) := by
  have hwindow : (Paginate.new 10).window order k db = (order.ids k db).take 10 :=
    Paginate.window_eq (by decide) (by decide) (by unfold Paginate.Fits; decide)
  rw [hwindow, hids, lastTen, ← List.map_reverse, List.reverse_take, List.reverse_reverse,
    List.length_reverse, List.map_drop, List.length_map]

/-! ## The loops -/

section Loops

variable {old : Int64} {news newItems : List Int64}

theorem collectUpTo_miss (h : old ∉ news) :
    collectUpTo old news newItems = (newItems ++ news, false) := by
  -- the loop runs to the end of the new ids
  induction news generalizing newItems with
  | nil => rw [collectUpTo, List.append_nil]
  | cons new news ih =>
    rw [List.mem_cons, not_or] at h
    rw [collectUpTo, if_neg h.1, ih h.2, List.append_assoc, List.singleton_append]

theorem collectUpTo_hit {rest : List Int64} (h : old ∉ news) :
    collectUpTo old (news ++ old :: rest) newItems = (newItems ++ news, true) := by
  induction news generalizing newItems with
  | nil => rw [List.nil_append, collectUpTo, if_pos rfl, List.append_nil]
  | cons new news ih =>
    rw [List.mem_cons, not_or] at h
    rw [List.cons_append, collectUpTo, if_neg h.1, ih h.2, List.append_assoc,
      List.singleton_append]

/-- When the two lists have nothing in common, all new ids are collected for every old one. -/
theorem collectNew_length {olds : List Int64} (h : ∀ old ∈ olds, old ∉ news) :
    (collectNew news olds newItems).length = newItems.length + olds.length * news.length := by
  induction olds generalizing newItems with
  | nil => simp [collectNew]
  | cons old olds ih =>
    rw [collectNew, collectUpTo_miss (h old (List.mem_cons_self ..))]
    dsimp only
    rw [ih fun o ho => h o (List.mem_cons_of_mem _ ho), List.length_append, List.length_cons,
      Nat.succ_mul]
    omega

end Loops

/-! ## Two polls -/

section Polls

variable {before more : List Int64}

theorem lastTen_length (ids : List Int64) : (lastTen ids).length = min ids.length 10 := by
  rw [lastTen, List.length_drop]
  omega

theorem lastTen_sublist (ids : List Int64) : (lastTen ids).Sublist ids := List.drop_sublist ..

/-- Of the ids before, as many are left in the window as there is room for. -/
theorem lastTen_append (hmore : more.length ≤ 10) :
    lastTen (before ++ more) = before.drop (before.length - (10 - more.length)) ++ more := by
  have hlen : before.length + more.length - 10 = before.length - (10 - more.length) := by omega
  rw [lastTen, List.length_append, hlen, List.drop_append_of_le_length (by omega)]

theorem lastTen_append_of_ge (hmore : 10 ≤ more.length) : lastTen (before ++ more) = lastTen more := by
  have hlen : before.length + more.length - 10 = before.length + (more.length - 10) := by omega
  rw [lastTen, lastTen, List.length_append, hlen, ← List.drop_drop, List.drop_left]

/-- Up to ten new ids are the new part of the window. -/
theorem newPart_eq (hids : (before ++ more).Nodup) (hmore : more.length ≤ 10) :
    (lastTen (before ++ more)).filter (· ∉ lastTen before) = more := by
  have hapart := List.disjoint_of_nodup_append hids
  -- of the old ids, the window has none that the window before did not have
  have hold : (before.drop (before.length - (10 - more.length))).filter (· ∉ lastTen before) = [] := by
    rw [List.filter_eq_nil_iff]
    intro id hid
    have hmem : id ∈ lastTen before := by
      have hle : before.length - 10 ≤ before.length - (10 - more.length) := by omega
      exact (List.drop_sublist_drop_left before hle).subset hid
    simpa using hmem
  have hnew : more.filter (· ∉ lastTen before) = more := by
    rw [List.filter_eq_self]
    intro id hid
    simpa using fun hmem => hapart ((lastTen_sublist before).subset hmem) hid
  rw [lastTen_append hmore, List.filter_append, hold, hnew, List.nil_append]

/-- More than ten new ids fill the window. -/
theorem newPart_eq_of_ge (hids : (before ++ more).Nodup) (hmore : 10 ≤ more.length) :
    (lastTen (before ++ more)).filter (· ∉ lastTen before) = lastTen more := by
  have hapart := List.disjoint_of_nodup_append hids
  rw [lastTen_append_of_ge hmore, List.filter_eq_self]
  intro id hid
  simpa using fun hmem =>
    hapart ((lastTen_sublist before).subset hmem) ((lastTen_sublist more).subset hid)

/-- In a room of ten messages or more, fewer than ten new ids are collected backwards. -/
theorem newItems_reverse (hids : (before ++ more).Nodup) (hbefore : 10 ≤ before.length)
    (hmore : more.length < 10) :
    (notifyMsgList (lastTen before) (lastTen (before ++ more))).1 = more.reverse := by
  have hfull : (lastTen before).length = 10 := by
    rw [lastTen_length]
    omega
  have hne : before ≠ [] := by
    rintro rfl
    simp at hbefore
  -- the last of the old ids stands right in front of the new ones
  obtain ⟨front, last, rfl⟩ : ∃ front last, before = front ++ [last] :=
    ⟨before.dropLast, before.getLast hne, (List.dropLast_append_getLast hne).symm⟩
  have hlast : last ∉ more.reverse := by
    rw [List.mem_reverse]
    exact List.disjoint_of_nodup_append hids (by simp)
  rw [List.length_append, List.length_singleton] at hbefore
  have holds : ∃ olds, (lastTen (front ++ [last])).reverse = last :: olds := by
    refine ⟨(front.drop (front.length + 1 - 10)).reverse, ?_⟩
    rw [lastTen, List.length_append, List.length_singleton,
      List.drop_append_of_le_length (by omega), List.reverse_append]
    rfl
  have hnews : ∃ rest, (lastTen (front ++ [last] ++ more)).reverse =
      more.reverse ++ last :: rest := by
    refine ⟨(front.drop (front.length + 1 - (10 - more.length))).reverse, ?_⟩
    rw [lastTen_append (by omega), List.length_append, List.length_singleton,
      List.drop_append_of_le_length (by omega), List.reverse_append, List.reverse_append]
    rfl
  -- so the first round of the outer loop ends at once, with the new ids in reverse
  obtain ⟨olds, holds⟩ := holds
  obtain ⟨rest, hnews⟩ := hnews
  rw [notifyMsgList, if_neg (by rw [hfull]; simp), holds, hnews, collectNew,
    collectUpTo_hit hlast]
  rfl

/-- In a room of ten messages or more, ten new ids or more leave nothing of the old window, and
    the ids of the new one are collected ten times. -/
theorem newItems_length (hids : (before ++ more).Nodup) (hbefore : 10 ≤ before.length)
    (hmore : 10 ≤ more.length) :
    (notifyMsgList (lastTen before) (lastTen (before ++ more))).1.length = 100 := by
  have hten : (lastTen more).length = 10 := by
    rw [lastTen_length]
    omega
  have hfull : (lastTen before).length = 10 := by
    rw [lastTen_length]
    omega
  have hnone : ∀ old ∈ (lastTen before).reverse, old ∉ (lastTen more).reverse := by
    intro old hold hnew
    rw [List.mem_reverse] at hold hnew
    exact List.disjoint_of_nodup_append hids ((lastTen_sublist before).subset hold)
      ((lastTen_sublist more).subset hnew)
  rw [lastTen_append_of_ge hmore, notifyMsgList, if_neg (by rw [hfull]; simp),
    collectNew_length hnone]
  simp only [List.length_nil, List.length_reverse, hten, hfull]

/-- In a smaller room nothing is collected: a window that is not full is only replaced. -/
theorem newItems_nil (hbefore : before.length < 10) (newLs : List Int64) :
    (notifyMsgList (lastTen before) newLs).1 = [] := by
  have hshort : (lastTen before).length ≠ 10 := by
    rw [lastTen_length]
    omega
  rw [notifyMsgList, if_pos hshort]

/-- Nothing is new in the window only when nothing was sent. -/
theorem newPart_eq_nil_iff (hids : (before ++ more).Nodup) :
    (lastTen (before ++ more)).filter (· ∉ lastTen before) = [] ↔ more.length = 0 := by
  by_cases hfew : more.length ≤ 10
  · rw [newPart_eq hids hfew, List.length_eq_zero_iff]
  · rw [newPart_eq_of_ge hids (by omega), ← List.length_eq_zero_iff, lastTen_length]
    omega

/-- What a poll keeps for the next one is what it got. -/
theorem notifyMsgList_kept (lastedIds newLs : List Int64) :
    (notifyMsgList lastedIds newLs).2 = newLs := by
  unfold notifyMsgList
  split
  · rfl
  · rfl

/-- A list without repetition reads the same backwards only if it has one entry at most. -/
theorem reverse_eq_self_iff {l : List Int64} (hl : l.Nodup) : l.reverse = l ↔ l.length ≤ 1 := by
  cases l with
  | nil => simp
  | cons a t =>
    constructor
    · intro heq
      by_contra hlong
      have hne : t ≠ [] := by
        rintro rfl
        simp at hlong
      -- the last entry would be the first one
      obtain ⟨front, last, rfl⟩ : ∃ front last, t = front ++ [last] :=
        ⟨t.dropLast, t.getLast hne, (List.dropLast_append_getLast hne).symm⟩
      rw [List.reverse_cons, List.reverse_append] at heq
      obtain ⟨rfl, -⟩ := List.cons.inj heq
      simp at hl
    · intro hshort
      have hnil : t = [] := List.length_eq_zero_iff.mp (by simpa using hshort)
      rw [hnil]
      rfl

end Polls

/-- **When a poll delivers what is new.** For every room whose ids are appended one by one, and
    any two successive polls with `more` messages between them: the ids collected by the second
    one are those of its window that the first window did not have, each once and in order, if
    and only if nothing was sent, or one message in a room that had ten or more. -/
theorem poll_delivers_iff {lastedIds before more : List Int64} (hids : (before ++ more).Nodup) :
    (notifyMsgList (notifyMsgList lastedIds (lastTen before)).2 (lastTen (before ++ more))).1 =
        (lastTen (before ++ more)).filter (· ∉ lastTen before) ↔
      more.length = 0 ∨ more.length = 1 ∧ 10 ≤ before.length := by
  have hmore : more.Nodup := (List.nodup_append.mp hids).2.1
  rw [notifyMsgList_kept]
  by_cases hbefore : 10 ≤ before.length
  · by_cases hfew : more.length < 10
    · rw [newItems_reverse hids hbefore hfew, newPart_eq hids hfew.le, reverse_eq_self_iff hmore]
      omega
    · -- a hundred ids are collected, and ten are new
      constructor
      · intro heq
        have hlength := newItems_length hids hbefore (not_lt.mp hfew)
        rw [heq, newPart_eq_of_ge hids (not_lt.mp hfew), lastTen_length] at hlength
        omega
      · omega
  · rw [newItems_nil (not_le.mp hbefore), eq_comm, newPart_eq_nil_iff hids]
    omega

/-- Message 11 comes into a room of ten. -/
theorem poll_delivers_eleventh :
    (notifyMsgList (notifyMsgList [] [1, 2, 3, 4, 5, 6, 7, 8, 9, 10]).2
      [2, 3, 4, 5, 6, 7, 8, 9, 10, 11]).1 = [11] ∧
    (notifyMsgList (notifyMsgList [] (lastTen [1, 2, 3, 4, 5, 6, 7, 8, 9, 10])).2
      (lastTen ([1, 2, 3, 4, 5, 6, 7, 8, 9, 10] ++ [11]))).1 =
        (lastTen ([1, 2, 3, 4, 5, 6, 7, 8, 9, 10] ++ [11])).filter
          (· ∉ lastTen [1, 2, 3, 4, 5, 6, 7, 8, 9, 10]) :=
  ⟨by decide, (poll_delivers_iff (by decide)).mpr (Or.inr ⟨rfl, by decide⟩)⟩

/-- Messages 11 and 12 are delivered the newest first, and the second message of a room is not
    delivered at all. -/
theorem poll_out_of_order :
    (notifyMsgList (notifyMsgList [] [1, 2, 3, 4, 5, 6, 7, 8, 9, 10]).2
      [3, 4, 5, 6, 7, 8, 9, 10, 11, 12]).1 = [12, 11] ∧
    (notifyMsgList (notifyMsgList [] [1]).2 [1, 2]).1 = [] ∧
    ¬ ((notifyMsgList (notifyMsgList [] (lastTen [1, 2, 3, 4, 5, 6, 7, 8, 9, 10])).2
        (lastTen ([1, 2, 3, 4, 5, 6, 7, 8, 9, 10] ++ [11, 12]))).1 =
          (lastTen ([1, 2, 3, 4, 5, 6, 7, 8, 9, 10] ++ [11, 12])).filter
            (· ∉ lastTen [1, 2, 3, 4, 5, 6, 7, 8, 9, 10])) := by
  decide

end MeshChat
