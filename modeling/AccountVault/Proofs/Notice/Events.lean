import AccountVault.Notice.Board
import Mathlib.Data.List.Nodup

/-!
# What happens to a notice board

The events of a board in any order, and what is handed out along them.  The queue is first in, first
out, and takes nothing once the board is closed (`Board.taken_append_queue`).  A subscriber is called
once for each notice that is taken while it is there and that its filter accepts, in their order, and
for no other (`Board.calls_of_subscribe`).
-/

namespace AccountVault

/-- A filter asks for one account and for keys with a given beginning; a deletion has any keys. -/
theorem NoticeFilter.accepts_iff {f : NoticeFilter} {n : Notice} :
    f.accepts n = true ↔
      (∀ id, f.account = some id → n.account = id) ∧
        ∀ p, f.keyLead = some p →
          n.kind = .deleted ∨ ∃ key ∈ n.keys, p.toList <+: key.toList := by
  rw [accepts, Bool.and_eq_true]
  refine and_congr ?_ ?_
  · cases f.account with
    | none => simp
    | some id => simp [eq_comm]
  · cases f.keyLead with
    | none => simp
    | some p => simp [Table.hasPrefix]

namespace Board

/-- What can happen to a board. -/
inductive Event
  | subscribe (f : NoticeFilter)
  | unsubscribe (id : SubscriptionId)
  | publish (n : Notice)
  /-- The first waiting notice is taken and handed out. -/
  | dispatch
  | close
  deriving DecidableEq, Repr

/-- The board after an event. -/
def after (b : Board) : Event → Board
  | .subscribe f => (b.subscribe f).1
  | .unsubscribe id => b.unsubscribe id
  | .publish n => b.publish n
  | .dispatch => b.dispatch.1
  | .close => b.close

def play (b : Board) (es : List Event) : Board := es.foldl after b

/-- The notice that is taken in an event. -/
def takenIn (b : Board) : Event → List Notice
  | .dispatch => b.queue.take 1
  | _ => []

/-- Who is called in an event, and with what. -/
def handedIn (b : Board) : Event → List Delivery
  | .dispatch => b.dispatch.2
  | _ => []

/-- The notices that are taken along some events. -/
def taken : Board → List Event → List Notice
  | _, [] => []
  | b, e :: es => b.takenIn e ++ taken (b.after e) es

/-- The calls that are made along some events. -/
def handed : Board → List Event → List Delivery
  | _, [] => []
  | b, e :: es => b.handedIn e ++ handed (b.after e) es

/-- The notices that are to be put up, in order. -/
def announced : List Event → List Notice
  | [] => []
  | .publish n :: es => n :: announced es
  | _ :: es => announced es

/-- The events before the board is closed. -/
def beforeClose (es : List Event) : List Event := es.takeWhile (· ≠ .close)

/-- What a subscriber is called with. -/
def calls (id : SubscriptionId) (ds : List Delivery) : List Notice :=
  (ds.filter (·.subscription = id)).map (·.notice)

variable {b : Board} {e : Event} {es : List Event} {id : SubscriptionId} {f : NoticeFilter}
  {n : Notice}

@[simp] theorem play_nil (b : Board) : b.play [] = b := rfl

@[simp] theorem play_cons (b : Board) (e : Event) (es : List Event) :
    b.play (e :: es) = (b.after e).play es := rfl

theorem play_append (b : Board) (es fs : List Event) :
    b.play (es ++ fs) = (b.play es).play fs := List.foldl_append

theorem handed_append (b : Board) (es fs : List Event) :
    b.handed (es ++ fs) = b.handed es ++ (b.play es).handed fs := by
  induction es generalizing b with
  | nil => rfl
  | cons e es ih => rw [List.cons_append, handed, handed, ih, List.append_assoc, play_cons]

theorem taken_append (b : Board) (es fs : List Event) :
    b.taken (es ++ fs) = b.taken es ++ (b.play es).taken fs := by
  induction es generalizing b with
  | nil => rfl
  | cons e es ih => rw [List.cons_append, taken, taken, ih, List.append_assoc, play_cons]

theorem taken_eq_nil (hes : .dispatch ∉ es) : b.taken es = [] := by
  induction es generalizing b with
  | nil => rfl
  | cons e es ih =>
    obtain ⟨he, hes⟩ := not_or.1 (mt List.mem_cons.2 hes)
    have hnone : b.takenIn e = [] := by
      cases e with
      | dispatch => exact absurd rfl he
      | _ => rfl
    rw [taken, hnone, ih hes, List.append_nil]

theorem handed_eq_nil (hes : .dispatch ∉ es) : b.handed es = [] := by
  induction es generalizing b with
  | nil => rfl
  | cons e es ih =>
    obtain ⟨he, hes⟩ := not_or.1 (mt List.mem_cons.2 hes)
    have hnone : b.handedIn e = [] := by
      cases e with
      | dispatch => exact absurd rfl he
      | _ => rfl
    rw [handed, hnone, ih hes, List.append_nil]

@[simp] theorem calls_append (id : SubscriptionId) (ds ds' : List Delivery) :
    calls id (ds ++ ds') = calls id ds ++ calls id ds' := by
  simp [calls]

/-! ### The queue -/

theorem takenIn_append_queue (b : Board) (e : Event) (he : e ≠ .close) :
    b.takenIn e ++ (b.after e).queue =
      b.queue ++ if b.isOpen then announced [e] else [] := by
  cases e with
  | subscribe f => simp [takenIn, after, subscribe, announced]
  | unsubscribe id => simp [takenIn, after, unsubscribe, announced]
  | publish n =>
    have hqueue : (b.after (.publish n)).queue = _ := queue_publish b n
    rw [hqueue]
    split_ifs <;> simp [takenIn, announced]
  | dispatch =>
    rw [takenIn, after, dispatch]
    cases hq : b.queue <;> simp [hq, announced]
  | close => exact absurd rfl he

theorem isOpen_after (b : Board) (e : Event) (he : e ≠ .close) : (b.after e).isOpen = b.isOpen := by
  cases e with
  | subscribe | unsubscribe => rfl
  | publish n =>
    rw [after, publish]
    split_ifs <;> rfl
  | dispatch =>
    rw [after, dispatch]
    split <;> rfl
  | close => exact absurd rfl he

theorem taken_append_queue_of_closed (h : b.isOpen = false) (es : List Event) :
    b.taken es ++ (b.play es).queue = b.queue := by
  induction es generalizing b with
  | nil => rfl
  | cons e es ih =>
    by_cases he : e = .close
    · subst he
      exact ih rfl
    · have hstep := takenIn_append_queue b e he
      rw [h] at hstep
      rw [taken, play_cons, List.append_assoc, ih ((isOpen_after b e he).trans h), hstep]
      simp

/-- What has been taken and what waits is, in order, what was put up before the board was closed. -/
theorem taken_append_queue (h : b.isOpen = true) (es : List Event) :
    b.taken es ++ (b.play es).queue = b.queue ++ announced (beforeClose es) := by
  induction es generalizing b with
  | nil => simp [taken, beforeClose, announced]
  | cons e es ih =>
    by_cases he : e = .close
    · subst he
      have hnone : announced (beforeClose (.close :: es)) = [] := rfl
      rw [hnone, List.append_nil]
      exact taken_append_queue_of_closed (b := b.close) rfl es
    · have hstep := takenIn_append_queue b e he
      rw [h, if_pos rfl] at hstep
      have hsplit : announced (beforeClose (e :: es)) = announced [e] ++ announced (beforeClose es) := by
        rw [beforeClose, List.takeWhile_cons_of_pos (by simpa using he)]
        cases e <;> rfl
      rw [taken, play_cons, List.append_assoc, ih ((isOpen_after b e he).trans h),
        ← List.append_assoc, hstep, hsplit, List.append_assoc]

/-- A board that has been closed stays so. -/
theorem isOpen_play_of_closed (h : b.isOpen = false) (es : List Event) :
    (b.play es).isOpen = false := by
  induction es generalizing b with
  | nil => exact h
  | cons e es ih =>
    by_cases he : e = .close
    · exact ih (he ▸ rfl)
    · exact ih ((isOpen_after b e he).trans h)

/-- A board is open until it is closed. -/
theorem isOpen_play (h : b.isOpen = true) (es : List Event) :
    (b.play es).isOpen = true ↔ .close ∉ es := by
  induction es generalizing b with
  | nil => simpa using h
  | cons e es ih =>
    by_cases he : e = .close
    · simp [he, after, isOpen_play_of_closed (b := b.close) rfl es]
    · refine (ih ((isOpen_after b e he).trans h)).trans ?_
      simp [Ne.symm he]

/-! ### Subscribers -/

/-- Subscriptions have ids of their own, and the next id is none of them. -/
structure Numbered (b : Board) : Prop where
  nodup : (b.subscribers.map (·.id)).Nodup
  lt_next : ∀ s ∈ b.subscribers, s.id < b.next

/-- The filter of a subscription that is there. -/
def filter? (b : Board) (id : SubscriptionId) : Option NoticeFilter :=
  (b.subscribers.find? (·.id = id)).map (·.filter)

theorem Numbered.after (h : b.Numbered) (e : Event) : (b.after e).Numbered := by
  cases e with
  | subscribe f =>
    refine ⟨?_, fun s hs => ?_⟩
    · rw [Board.after, subscribe, List.map_append, List.map_singleton, List.nodup_append']
      refine ⟨h.nodup, List.nodup_singleton _, ?_⟩
      simp only [List.disjoint_singleton, List.mem_map, not_exists, not_and]
      exact fun s hs hid => Nat.ne_of_lt (h.lt_next s hs) hid
    · rcases List.mem_append.1 hs with hs | hs
      · exact Nat.lt_succ_of_lt (h.lt_next s hs)
      · rw [List.mem_singleton.1 hs]
        exact Nat.lt_succ_self _
  | unsubscribe id =>
    exact ⟨h.nodup.sublist (List.filter_sublist.map _), fun s hs =>
      h.lt_next s (List.mem_of_mem_filter hs)⟩
  | publish n =>
    rw [Board.after, publish]
    split_ifs
    · exact ⟨h.nodup, h.lt_next⟩
    · exact h
  | dispatch =>
    rw [Board.after, dispatch]
    split
    · exact h
    · exact ⟨h.nodup, h.lt_next⟩
  | close => exact ⟨h.nodup, h.lt_next⟩

theorem Numbered.play (h : b.Numbered) (es : List Event) : (b.play es).Numbered := by
  induction es generalizing b with
  | nil => exact h
  | cons e es ih => exact ih (h.after e)

theorem Numbered.filter?_eq_none (h : b.Numbered) (hid : b.next ≤ id) : b.filter? id = none := by
  rw [filter?, Option.map_eq_none_iff, List.find?_eq_none]
  intro s hs hsid
  have hsid : s.id = id := of_decide_eq_true hsid
  exact Nat.not_lt.2 hid (hsid ▸ h.lt_next s hs)

theorem filter?_subscribe (b : Board) (g : NoticeFilter) (id : SubscriptionId) :
    (b.subscribe g).1.filter? id = (b.filter? id).or (if b.next = id then some g else none) := by
  rw [filter?, subscribe, List.find?_append, Option.map_or, filter?]
  congr 1
  by_cases hid : b.next = id <;> simp [hid]

theorem filter?_unsubscribe (b : Board) (i id : SubscriptionId) :
    (b.unsubscribe i).filter? id = if i = id then none else b.filter? id := by
  rw [filter?, unsubscribe, List.find?_filter]
  split_ifs with hid
  · subst hid
    rw [Option.map_eq_none_iff, List.find?_eq_none]
    simp
  · rw [filter?]
    congr 2
    funext s
    by_cases hs : s.id = id
    · simp [hs, Ne.symm hid]
    · simp [hs]

/-- Nothing else changes who is subscribed. -/
theorem filter?_after (b : Board) (e : Event) (id : SubscriptionId) :
    (∃ g, e = .subscribe g) ∨ (∃ i, e = .unsubscribe i) ∨
      (b.after e).filter? id = b.filter? id ∧ (b.after e).next = b.next := by
  cases e with
  | subscribe g => exact Or.inl ⟨g, rfl⟩
  | unsubscribe i => exact Or.inr (Or.inl ⟨i, rfl⟩)
  | publish n =>
    refine Or.inr (Or.inr ?_)
    rw [after, publish]
    split_ifs <;> exact ⟨rfl, rfl⟩
  | dispatch =>
    refine Or.inr (Or.inr ?_)
    rw [after, dispatch]
    split <;> exact ⟨rfl, rfl⟩
  | close => exact Or.inr (Or.inr ⟨rfl, rfl⟩)

theorem next_le_after (b : Board) (e : Event) : b.next ≤ (b.after e).next := by
  rcases filter?_after b e 0 with ⟨g, rfl⟩ | ⟨i, rfl⟩ | ⟨-, hnext⟩
  · exact Nat.le_succ _
  · exact Nat.le_refl _
  · exact Nat.le_of_eq hnext.symm

theorem next_le_play (b : Board) (es : List Event) : b.next ≤ (b.play es).next := by
  induction es generalizing b with
  | nil => exact Nat.le_refl _
  | cons e es ih => exact Nat.le_trans (next_le_after b e) (ih _)

/-- A subscription stays until it is dropped. -/
theorem filter?_after_of_some (hf : b.filter? id = some f) (he : e ≠ .unsubscribe id) :
    (b.after e).filter? id = some f := by
  rcases filter?_after b e id with ⟨g, rfl⟩ | ⟨i, rfl⟩ | ⟨hsame, -⟩
  · rw [after, filter?_subscribe, hf, Option.some_or]
  · have hi : i ≠ id := fun h => he (h ▸ rfl)
    rw [after, filter?_unsubscribe, if_neg hi, hf]
  · rw [hsame, hf]

/-- The id of a subscription that is gone is not given out again. -/
theorem filter?_after_of_none (hnone : b.filter? id = none) (hid : id < b.next) :
    (b.after e).filter? id = none := by
  rcases filter?_after b e id with ⟨g, rfl⟩ | ⟨i, rfl⟩ | ⟨hsame, -⟩
  · rw [after, filter?_subscribe, hnone, if_neg (Nat.ne_of_gt hid), Option.none_or]
  · rw [after, filter?_unsubscribe, hnone]
    split_ifs <;> rfl
  · rw [hsame, hnone]

/-! ### Calls -/

/-- A subscriber is called with a notice once, if it is there and its filter accepts the notice. -/
theorem Numbered.calls_deliveries (h : b.Numbered) (id : SubscriptionId) (n : Notice) :
    calls id (b.deliveries n) = if (b.filter? id).any (·.accepts n) then [n] else [] := by
  obtain ⟨hnodup, -⟩ := h
  unfold deliveries filter?
  generalize b.subscribers = subs at hnodup ⊢
  induction subs with
  | nil => rfl
  | cons s subs ih =>
    obtain ⟨hs, hnodup⟩ := List.nodup_cons.1 hnodup
    have hrest := ih hnodup
    by_cases hid : s.id = id
    · -- those that come after have other ids
      have hnone : subs.find? (fun s => decide (s.id = id)) = none := by
        rw [List.find?_eq_none]
        intro s' hs' hid'
        exact hs (List.mem_map.2 ⟨s', hs', (of_decide_eq_true hid').trans hid.symm⟩)
      rw [hnone, Option.map_none] at hrest
      by_cases haccepts : s.filter.accepts n = true
      · simpa [calls, hid, haccepts] using hrest
      · simpa [calls, hid, haccepts] using hrest
    · rw [List.find?_cons_of_neg (by simpa using hid), ← hrest]
      by_cases haccepts : s.filter.accepts n = true <;> simp [calls, hid, haccepts]

theorem handedIn_eq (b : Board) (e : Event) :
    b.handedIn e = (b.takenIn e).flatMap b.deliveries := by
  cases e with
  | dispatch =>
    rw [handedIn, takenIn, dispatch]
    cases b.queue <;> simp
  | _ => rfl

theorem Numbered.calls_handedIn (h : b.Numbered) (e : Event) (id : SubscriptionId) :
    calls id (b.handedIn e) = (b.takenIn e).filter fun n => (b.filter? id).any (·.accepts n) := by
  have hmany : ∀ ns : List Notice, calls id (ns.flatMap b.deliveries) =
      ns.filter fun n => (b.filter? id).any (·.accepts n) := by
    intro ns
    induction ns with
    | nil => rfl
    | cons n ns ih =>
      rw [List.flatMap_cons, calls_append, h.calls_deliveries, ih, List.filter_cons]
      split_ifs <;> rfl
  rw [handedIn_eq, hmany]

/-- A subscription that is gone is not called any more. -/
theorem calls_handed_of_gone (h : b.Numbered) (hnone : b.filter? id = none) (hid : id < b.next)
    (es : List Event) : calls id (b.handed es) = [] := by
  induction es generalizing b with
  | nil => rfl
  | cons e es ih =>
    rw [handed, calls_append, h.calls_handedIn, hnone,
      ih (h.after e) (filter?_after_of_none hnone hid) (Nat.lt_of_lt_of_le hid (next_le_after b e))]
    simp

/-- A subscription is not called before it is there. -/
theorem calls_handed_of_later (h : b.Numbered) (es : List Event) (hid : (b.play es).next ≤ id) :
    calls id (b.handed es) = [] := by
  induction es generalizing b with
  | nil => rfl
  | cons e es ih =>
    have hnext : b.next ≤ id := Nat.le_trans (next_le_play b (e :: es)) hid
    rw [handed, calls_append, h.calls_handedIn, h.filter?_eq_none hnext, ih (h.after e) hid]
    simp

/-- While a subscription is there it is called with what is taken and its filter accepts. -/
theorem calls_handed_of_there (h : b.Numbered) (hid : id < b.next) (hf : b.filter? id = some f)
    (es : List Event) :
    calls id (b.handed es) = (b.taken (es.takeWhile (· ≠ .unsubscribe id))).filter f.accepts := by
  induction es generalizing b with
  | nil => rfl
  | cons e es ih =>
    have hid' : id < (b.after e).next := Nat.lt_of_lt_of_le hid (next_le_after b e)
    by_cases he : e = .unsubscribe id
    · have hnone : (b.after e).filter? id = none := by
        rw [he, after, filter?_unsubscribe, if_pos rfl]
      have hrest := calls_handed_of_gone (h.after e) hnone hid' es
      rw [handed, calls_append, hrest, List.takeWhile_cons_of_neg (by simpa using he), he]
      rfl
    · rw [handed, calls_append, h.calls_handedIn, hf, ih (h.after e) hid' (filter?_after_of_some hf he),
        List.takeWhile_cons_of_pos (by simpa using he), taken, List.filter_append]
      rfl

/-- A subscriber is called with each notice that its filter accepts and that is taken between its
subscription and the end of it: once, in their order, and with nothing else. -/
theorem calls_of_subscribe (h : b.Numbered) (before : List Event) (f : NoticeFilter)
    (rest : List Event) :
    let id := (b.play before).next
    calls id (b.handed (before ++ .subscribe f :: rest)) =
      ((b.play (before ++ [.subscribe f])).taken
        (rest.takeWhile (· ≠ .unsubscribe id))).filter f.accepts := by
  intro id
  have hthere : ((b.play before).after (.subscribe f)).filter? id = some f := by
    rw [after, filter?_subscribe, (h.play before).filter?_eq_none (Nat.le_refl _), if_pos rfl]
    rfl
  have hcalls := calls_handed_of_there ((h.play before).after (.subscribe f)) (Nat.lt_succ_self id)
    hthere rest
  have hbefore := calls_handed_of_later h before (Nat.le_refl _)
  rw [handed_append, calls_append, hbefore, List.nil_append, handed, calls_append, hcalls, play_append]
  rfl

theorem mem_subscribers_after {s : Subscription} (hs : s ∈ (b.after e).subscribers) :
    s ∈ b.subscribers ∨ ∃ g, e = .subscribe g ∧ s = ⟨b.next, g⟩ := by
  cases e with
  | subscribe g =>
    rcases List.mem_append.1 hs with hs | hs
    · exact Or.inl hs
    · exact Or.inr ⟨g, rfl, List.mem_singleton.1 hs⟩
  | unsubscribe i => exact Or.inl (List.mem_of_mem_filter hs)
  | publish n =>
    rw [after, publish] at hs
    split_ifs at hs <;> exact Or.inl hs
  | dispatch =>
    rw [after, dispatch] at hs
    split at hs <;> exact Or.inl hs
  | close => exact Or.inl hs

theorem exists_subscriber_of_handed {d : Delivery} (hd : d ∈ b.handed es) :
    (∃ s ∈ b.subscribers, s.id = d.subscription) ∨
      ∃ before f rest, es = before ++ .subscribe f :: rest ∧
        d.subscription = (b.play before).next := by
  induction es generalizing b with
  | nil => exact absurd hd List.not_mem_nil
  | cons e es ih =>
    rcases List.mem_append.1 hd with hd | hd
    · rw [handedIn_eq] at hd
      obtain ⟨n, -, hd⟩ := List.mem_flatMap.1 hd
      obtain ⟨s, hs, rfl⟩ := List.mem_map.1 hd
      exact Or.inl ⟨s, List.mem_of_mem_filter hs, rfl⟩
    · rcases ih hd with ⟨s, hs, hid⟩ | ⟨before, f, rest, rfl, hid⟩
      · rcases mem_subscribers_after hs with hs | ⟨g, rfl, rfl⟩
        · exact Or.inl ⟨s, hs, hid⟩
        · exact Or.inr ⟨[], g, es, rfl, hid.symm⟩
      · exact Or.inr ⟨e :: before, f, rest, rfl, hid⟩

/-- Nobody is called but those who have subscribed. -/
theorem exists_subscribe_of_handed (hb : b.subscribers = []) {d : Delivery} (hd : d ∈ b.handed es) :
    ∃ before f rest, es = before ++ .subscribe f :: rest ∧
      d.subscription = (b.play before).next := by
  rcases exists_subscriber_of_handed hd with ⟨s, hs, -⟩ | h
  · rw [hb] at hs
    exact absurd hs List.not_mem_nil
  · exact h

end Board

end AccountVault
