import AccountVault.Proofs.Reporting
import AccountVault.Proofs.System.Closing

/-!
# What a flush has gone over

A flush goes over the accounts that it found dirty, one after the other (`Visit`).  What its sweep keeps
count of is told by the visits (`Sweep.past`), and so is what it has done to the vault and the storage, with
all else left as it was (`System.Swept`).  Other tasks may delete accounts meanwhile, of those that are
exposed to that: such an account is as it would be else, but deleted (`System.Has`), and what they do leaves
`System.Swept` as it is (`System.Still`).
-/

namespace AccountVault

/-- How a flush can be done with an account. -/
inductive VisitEnd
  | saved
  | failed (e : Fault)
  /-- The account was found deleted. -/
  | skipped
  deriving DecidableEq

/-- An account that a flush has gone over, as it was when the flush began. -/
structure Visit where
  id : AccountId
  account : Account
  ending : VisitEnd

namespace Visit

def isSaved (w : Visit) : Bool := w.ending = .saved

def fault? (w : Visit) : Option Fault :=
  match w.ending with
  | .failed e => some e
  | _ => none

def request (w : Visit) : Request := .save w.id (Record.ofAccount w.id w.account).encode

/-- The result of the commit. -/
def result (w : Visit) : Except Problem Unit :=
  match w.ending with
  | .saved => .ok ()
  | .failed e => .error (.persistence (.fault e))
  | .skipped => .error (.stale w.id)

/-- The account after the visit. -/
def after (w : Visit) : Account :=
  if w.isSaved then w.account.markSaved w.account.changes.revision else w.account

def notice (w : Visit) : Notice :=
  .updated w.id w.account.changes.pendingKeys w.account.changes.pendingServices

/-- The result of a flush that has gone over all accounts: the first failure, or how many are saved. -/
def outcome (ws : List Visit) : Outcome :=
  match ws.findSome? fault? with
  | some e => .error (.persistence (.fault e))
  | none => .ok (ws.filter isSaved).length

theorem forall_concat {P : Visit → Prop} {ws : List Visit} {w : Visit} (h : ∀ v ∈ ws, P v)
    (hw : P w) : ∀ v ∈ ws ++ [w], P v :=
  List.forall_mem_append.2 ⟨h, List.forall_mem_singleton.2 hw⟩

/-- A saved account is clean. -/
theorem isDirty_after {w : Visit} (h : w.isSaved = true) : w.after.isDirty = false := by
  rw [after, if_pos h]
  simp [Account.isDirty, Account.markSaved, ChangeLog.isDirty]

/-- What is stored of an account is the same before and after the visit. -/
theorem ofAccount_after (w : Visit) : Record.ofAccount w.id w.after = Record.ofAccount w.id w.account := by
  rw [after]
  split <;> rfl

end Visit

/-- A sweep that has gone over some accounts. -/
def Sweep.past (token : Option TokenId) (ws : List Visit) (rest : List AccountId) : Sweep where
  token := token
  closing := false
  rest := rest
  flushed := (ws.filter Visit.isSaved).length
  failure := (ws.findSome? Visit.fault?).map fun e => .persistence (.fault e)

theorem Sweep.note_past (token : Option TokenId) (ws : List Visit) (rest : List AccountId) (w : Visit) :
    (past token ws rest).note w.result = past token (ws ++ [w]) rest := by
  unfold past Visit.result
  cases hw : w.ending with
  | saved => simp [note, Visit.isSaved, Visit.fault?, hw]
  | skipped => simp [note, Visit.isSaved, Visit.fault?, hw]
  | failed e =>
    cases hf : ws.findSome? Visit.fault? <;> simp [note, Visit.isSaved, Visit.fault?, hw, hf]

theorem Sweep.outcome_past (token : Option TokenId) (ws : List Visit) (rest : List AccountId) :
    (past token ws rest).outcome = Visit.outcome ws := by
  unfold outcome past Visit.outcome
  cases ws.findSome? Visit.fault? <;> rfl

namespace System

variable {exposed : AccountId → Bool} {s s' u u' : System} {t : TaskId} {a : Action} {ws : List Visit}
  {id : AccountId} {b : Account} {w : Visit}

/-! ### What others do meanwhile -/

/-- An account is as given, or so until it was deleted. -/
def Has (exposed : AccountId → Bool) (s : System) (id : AccountId) (a : Account) : Prop :=
  s.vault.account? id = some a ∨
    exposed id = true ∧ s.vault.account? id = some { a with state := .deleted }

/-- An account has been deleted that is exposed to that. -/
def Lost (exposed : AccountId → Bool) (s : System) (id : AccountId) : Prop :=
  exposed id = true ∧ s.Reached id .deleted

/-- Of all that a flush depends on or does, nothing has changed but that accounts have been created, and
accounts deleted that are exposed to that. -/
structure Still (exposed : AccountId → Bool) (s s' : System) : Prop where
  accounts : ∀ id a, s.vault.account? id = some a → s'.Has exposed id a
  records : ∀ id, s'.contents.record? id = s.contents.record? id ∨ s'.Lost exposed id
  saves : s'.served.filter Request.isSave = s.served.filter Request.isSave
  isOpen : s'.vault.board.isOpen = s.vault.board.isOpen
  news : s'.published.filter (·.kind ≠ .deleted) = s.published.filter (·.kind ≠ .deleted)

theorem Has.still (h : u.Has exposed id b) (hu : u.Still exposed u') : u'.Has exposed id b := by
  rcases h with h | ⟨hexposed, h⟩
  · exact hu.accounts id b h
  · refine .inr ⟨hexposed, ?_⟩
    rcases hu.accounts id _ h with h' | ⟨-, h'⟩ <;> exact h'

theorem Lost.still (h : u.Lost exposed id) (hu : u.Still exposed u') : u'.Lost exposed id := by
  obtain ⟨hexposed, hdel⟩ := h
  obtain ⟨b, hb, hs⟩ := reached_deleted_iff.1 hdel
  refine ⟨hexposed, reached_deleted_iff.2 ?_⟩
  rcases hu.accounts id b hb with h' | ⟨-, h'⟩
  · exact ⟨b, h', hs⟩
  · exact ⟨_, h', rfl⟩

/-- Where an account is not as given, it has been deleted. -/
theorem Has.lost (h : u.Has exposed id b) (hne : u.vault.account? id ≠ some b) : u.Lost exposed id := by
  rcases h with h | ⟨hexposed, h⟩
  · exact absurd h hne
  · exact ⟨hexposed, reached_deleted_iff.2 ⟨_, h, rfl⟩⟩

namespace Still

theorem of_eq (haccount : ∀ id a, s.vault.account? id = some a → s'.vault.account? id = some a)
    (hcontents : ∀ id, s'.contents.record? id = s.contents.record? id) (hserved : s'.served = s.served)
    (hopen : s'.vault.board.isOpen = s.vault.board.isOpen) (hpublished : s'.published = s.published) :
    s.Still exposed s' :=
  ⟨fun id a h => .inl (haccount id a h), fun id => .inl (hcontents id), by rw [hserved], hopen,
    by rw [hpublished]⟩

/-- A step that changes the turns at most. -/
theorem record {p : Progress} (ha : p.vault.accounts = s.vault.accounts)
    (hb : p.vault.board = s.vault.board) : s.Still exposed (s.record t p) := by
  refine of_eq (fun id a h => ?_) (fun _ => rfl) rfl (congrArg _ hb) ?_
  · rw [← h]
    exact congrArg (·[id]?) ha
  · show s.handed ++ p.vault.board.queue = _
    rw [hb]
    rfl

theorem create (hs : s.Sound) (provider : String) :
    s.Still exposed { s with vault :=
      { s.vault.putAccount s.vault.nextId { provider } with nextId := s.vault.nextId + 1 } } := by
  refine of_eq (fun id a ha => ?_) (fun _ => rfl) rfl rfl rfl
  have hlt : id < s.vault.nextId := hs.orderly.fresh id (by rw [ha]; rfl)
  have hne : s.vault.nextId ≠ id := (UInt64.ne_of_lt hlt).symm
  refine (Vault.account?_putAccount ..).trans ?_
  rw [if_neg hne, ha]

theorem of_same (h : s.Same s') : s.Still exposed s' := by
  refine of_eq (fun id a ha => ?_) (fun id => by rw [h.contents]) h.served h.isOpen h.published
  rw [Vault.account?, h.accounts]
  exact ha

end Still

end System

/-- The account that a task has been asked to delete, while it is not done. -/
def Task.deletes? : Task → Option AccountId
  | starting (.delete id) => some id
  | starting (.deleteFound id) => some id
  | working _ id .delete _ => some id
  | _ => none

namespace System

variable {exposed : AccountId → Bool} {s s' u u' : System} {t : TaskId} {a : Action} {ws : List Visit}
  {id : AccountId} {b : Account} {w : Visit} {task : Task} {p : Progress}

namespace Still

/-- The account of a deletion that holds the turn is deleted at once if it was never written. -/
theorem discard {turns : Turns} (hexposed : exposed id = true) (hb : s.vault.account? id = some b)
    (hv : p.vault = { s.vault.putAccount id { b with state := .deleted } with turns }) :
    s.Still exposed (s.record t p) := by
  refine ⟨fun other a ha => ?_, fun _ => .inl rfl, rfl, ?_, ?_⟩
  · have haccount : (s.record t p).vault.account? other =
        if id = other then some { b with state := .deleted } else s.vault.account? other := by
      show p.vault.account? other = _
      rw [hv]
      exact Vault.account?_putAccount ..
    by_cases hid : id = other
    · subst other
      obtain rfl := Option.some.inj (hb.symm.trans ha)
      exact .inr ⟨hexposed, haccount.trans (if_pos rfl)⟩
    · exact .inl (haccount.trans ((if_neg hid).trans ha))
  · show p.vault.board.isOpen = _
    rw [hv]
    rfl
  · show (s.handed ++ p.vault.board.queue).filter _ = _
    rw [hv]
    rfl

/-- An account is removed. -/
theorem removed {turns : Turns} (hexposed : exposed id = true) (hb : s.vault.account? id = some b)
    (hv : s'.vault = { s.vault.recordRemoved id with turns })
    (hcontents : s'.contents = (s.contents.serve (.remove id)).1)
    (hserved : s'.served = s.served ++ [.remove id]) (hhanded : s'.handed = s.handed) :
    s.Still exposed s' := by
  have haccount : ∀ other, s'.vault.account? other =
      if id = other then some { b with state := .deleted } else s.vault.account? other := by
    intro other
    have hremoved := s.vault.account?_recordRemoved id other
    rw [hb] at hremoved
    rw [hv]
    exact hremoved
  have hboard : s'.vault.board = s.vault.board.publish (.deleted id) := by
    rw [hv]
    exact s.vault.board_recordRemoved id
  refine ⟨fun other a ha => ?_, fun other => ?_, ?_, ?_, ?_⟩
  · by_cases hid : id = other
    · subst other
      obtain rfl := Option.some.inj (hb.symm.trans ha)
      exact .inr ⟨hexposed, (haccount id).trans (if_pos rfl)⟩
    · exact .inl ((haccount other).trans ((if_neg hid).trans ha))
  · by_cases hid : id = other
    · subst other
      exact .inr ⟨hexposed, reached_deleted_iff.2 ⟨_, (haccount id).trans (if_pos rfl), rfl⟩⟩
    · refine .inl ?_
      rw [hcontents, Contents.record?_serve_remove, if_neg hid]
  · simp [hserved, Request.isSave]
  · rw [hboard, Board.publish]
    split <;> rfl
  · rw [published, published, hhanded, hboard, Board.queue_publish]
    split
    · simp [Notice.deleted]
    · rfl

/-- What a task does to the vault that deletes an exposed account. -/
theorem of_deletion_step (hid : task.deletes? = some id) (hexposed : exposed id = true)
    (hp : task.step s.isCancelled s.vault t = some p) : s.Still exposed (s.record t p) := by
  cases task with
  | starting op =>
    cases hp
    cases op with
    | delete => exact .record rfl rfl
    | deleteFound other =>
      rw [Task.start]
      split <;> exact .record rfl rfl
    | commit | flush | close => exact absurd hid (by simp [Task.deletes?])
  | working goal other work q =>
    cases work with
    | commit => exact absurd hid (by simp [Task.deletes?])
    | delete =>
      cases hid
      cases Task.stepped hp with
      | pass h' | shut _ h' | enqueue _ _ _ h' => exact absurd h' (by simp [Task.place?])
      | raise | skip => exact .record rfl rfl
      | enter _ _ hent =>
        cases hent with
        | refused | removal => exact .record rfl rfl
        | discard hb => exact .discard hexposed hb rfl
  | sweeping | draining | finished => exact absurd hid (by simp [Task.deletes?])

/-- What comes of the request of such a task. -/
theorem of_deletion_reply (hsound : s.Sound) (hfit : s.Fitting) (ht : s.tasks[t]? = some task)
    (hid : task.deletes? = some id) (hexposed : exposed id = true) {r : Request}
    (hr : task.request? = some r) :
    (∀ e, s.Still exposed (s.record t (task.answered s.vault t (.error e)))) ∧
      s.Still exposed { s.record t (task.answered s.vault t (.ok (s.contents.serve r).2)) with
        contents := (s.contents.serve r).1, served := s.served ++ [r] } := by
  cases task with
  | working goal other work q =>
    cases work with
    | commit => exact absurd hid (by simp [Task.deletes?])
    | delete =>
      cases hid
      have hq := (hfit t _ ht).2
      cases q with
      | entering | awaitingMark => exact absurd hr (by simp [Task.request?, Point.request?])
      | raisingMark => exact absurd hq.1 (by simp)
      | saving => exact absurd hq (by simp [Point.Fits])
      | removing =>
        cases hr
        obtain ⟨c, hc⟩ := hsound.desks id
        obtain ⟨b, hb, -⟩ := hc.removing t (hsound.active_eq_some ht (by simp))
        exact ⟨fun e => .record rfl rfl, .removed hexposed hb rfl rfl rfl rfl⟩
  | starting | sweeping | draining | finished => exact absurd hr (by simp [Task.request?])

end Still

/-- What may happen beside a flush: steps of tasks that delete exposed accounts, and whatever callers do
but edit accounts. -/
def spares (exposed : AccountId → Bool) (s : System) : Action → Bool
  | .edit .. => false
  | .run u | .answer u _ => (s.tasks[u]?.bind Task.deletes?).any exposed
  | _ => true

theorem Still.of_spares (hsound : s.Sound) (hfit : s.Fitting) (ha : s.spares exposed a = true)
    (hs : s.step? a = some s') : s.Still exposed s' := by
  -- a task that takes a step deletes an exposed account
  have hdeletion : ∀ {u : TaskId} {task : Task}, s.tasks[u]? = some task →
      (s.tasks[u]?.bind Task.deletes?).any exposed = true →
      ∃ id, task.deletes? = some id ∧ exposed id = true := by
    intro u task hu h
    rw [hu, Option.bind_some] at h
    cases hid : task.deletes? with
    | none => exact absurd h (by simp [hid])
    | some id => exact ⟨id, rfl, by simpa [hid] using h⟩
  cases stepped hs with
  | quiet _ hsame => exact .of_same hsame
  | create provider => exact .create hsound provider
  | edit => exact absurd ha (by simp [spares])
  | spawn => exact .of_eq (fun _ _ h => h) (fun _ => rfl) rfl rfl rfl
  | run ht hp =>
    obtain ⟨id, hid, hexposed⟩ := hdeletion ht ha
    exact .of_deletion_step hid hexposed hp
  | fail e ht hr =>
    obtain ⟨id, hid, hexposed⟩ := hdeletion ht ha
    exact (Still.of_deletion_reply hsound hfit ht hid hexposed hr).1 e
  | serve ht hr =>
    obtain ⟨id, hid, hexposed⟩ := hdeletion ht ha
    exact (Still.of_deletion_reply hsound hfit ht hid hexposed hr).2

/-! ### What the flush does -/

/-- An account is saved, and nothing else is done. -/
structure Saves (w : Visit) (u u' : System) : Prop where
  account : ∀ id, u'.vault.account? id = if w.id = id then some w.after else u.vault.account? id
  record : ∀ id, u'.contents.record? id =
    if w.id = id then some (Record.ofAccount w.id w.account).encode else u.contents.record? id
  served : u'.served = u.served ++ [w.request]
  isOpen : u'.vault.board.isOpen = u.vault.board.isOpen
  published : u'.published = u.published ++ if u.vault.board.isOpen then [w.notice] else []

namespace Saves

theorem of_recordSaved {turns : Turns} (hw : w.isSaved = true)
    (ha : u.vault.account? w.id = some w.account) (hs : w.account.state = .saved)
    (hv : u'.vault = { u.vault.recordSaved w.id (.ofAccount w.id w.account) with turns })
    (hcontents : u'.contents = (u.contents.serve w.request).1)
    (hserved : u'.served = u.served ++ [w.request]) (hhanded : u'.handed = u.handed) : u.Saves w u' := by
  have hnotice : (Draft.ofAccount w.id w.account).notice = w.notice := by
    simp [Draft.notice, Draft.ofAccount, hs, Visit.notice, Record.ofAccount]
  have hboard : u'.vault.board = u.vault.board.publish w.notice := by
    rw [hv, ← hnotice]
    exact u.vault.board_recordSaved w.id _
  refine ⟨fun id => ?_, fun id => ?_, hserved, ?_, ?_⟩
  · have hrecorded := u.vault.account?_recordSaved w.id id (.ofAccount w.id w.account)
    rw [ha] at hrecorded
    rw [hv, Visit.after, if_pos hw]
    exact hrecorded
  · rw [hcontents]
    exact u.contents.record?_serve_save w.id id _
  · rw [hboard, Board.publish]
    split <;> rfl
  · rw [System.published, System.published, hhanded, hboard, Board.queue_publish]
    split
    · rw [List.append_assoc]
    · rw [List.append_nil]

variable (h : u.Saves w u')
include h

theorem has (hne : w.id ≠ id) (hb : u.Has exposed id b) : u'.Has exposed id b := by
  rw [Has, h.account, if_neg hne]
  exact hb

theorem lost (hne : w.id ≠ id) (hid : u.Lost exposed id) : u'.Lost exposed id := by
  rw [Lost, Reached, h.account, if_neg hne]
  exact hid

theorem kept {record : Option Bytes} (hne : w.id ≠ id)
    (hid : u.contents.record? id = record ∨ u.Lost exposed id) :
    u'.contents.record? id = record ∨ u'.Lost exposed id := by
  rw [h.record, if_neg hne]
  exact hid.imp_right (h.lost hne)

end Saves

/-- What a flush has done that has gone over some accounts.  Those whose saves went well are clean and
stored, and there is a notice of each; those that were skipped had been deleted; whatever else there was is
as it was.  Exposed accounts may have been deleted by others in all this. -/
structure Swept (exposed : AccountId → Bool) (s u : System) (ws : List Visit) : Prop where
  found : ∀ w ∈ ws, s.vault.account? w.id = some w.account
  visited : ∀ w ∈ ws, u.Has exposed w.id w.after
  others : ∀ id a, s.vault.account? id = some a → (∀ w ∈ ws, w.id ≠ id) → u.Has exposed id a
  stored : ∀ w ∈ ws, w.isSaved = true →
    u.contents.record? w.id = some (Record.ofAccount w.id w.account).encode ∨ u.Lost exposed w.id
  unstored : ∀ id, (∀ w ∈ ws, w.id = id → w.isSaved = false) →
    u.contents.record? id = s.contents.record? id ∨ u.Lost exposed id
  skipped : ∀ w ∈ ws, w.ending = .skipped → u.Lost exposed w.id
  saves : u.served.filter Request.isSave =
    s.served.filter Request.isSave ++ (ws.filter Visit.isSaved).map Visit.request
  isOpen : u.vault.board.isOpen = s.vault.board.isOpen
  news : u.published.filter (·.kind ≠ .deleted) = s.published.filter (·.kind ≠ .deleted) ++
    if s.vault.board.isOpen then (ws.filter Visit.isSaved).map Visit.notice else []

namespace Swept

theorem refl (s : System) : s.Swept exposed s [] :=
  ⟨by simp, by simp, fun _ _ h _ => .inl h, by simp, fun _ _ => .inl rfl, by simp, by simp, rfl, by simp⟩

/-- What others do leaves what the flush has done as it is. -/
theorem still (h : s.Swept exposed u ws) (hu : u.Still exposed u') : s.Swept exposed u' ws := by
  have hrecord : ∀ {id : AccountId} {record : Option Bytes},
      u.contents.record? id = record ∨ u.Lost exposed id →
      u'.contents.record? id = record ∨ u'.Lost exposed id := by
    intro id record hid
    rcases hid with hid | hid
    · rw [← hid]
      exact hu.records id
    · exact .inr (hid.still hu)
  exact ⟨h.found, fun w hw => (h.visited w hw).still hu, fun id a ha hne => (h.others id a ha hne).still hu,
    fun w hw hsaved => hrecord (h.stored w hw hsaved), fun id hid => hrecord (h.unstored id hid),
    fun w hw hskip => (h.skipped w hw hskip).still hu, hu.saves.trans h.saves, hu.isOpen.trans h.isOpen,
    hu.news.trans h.news⟩

/-- The flush has gone over an account without saving it. -/
theorem pass (h : s.Swept exposed u ws) (hfound : s.vault.account? w.id = some w.account)
    (hw : w.isSaved = false) (ha : u.Has exposed w.id w.account)
    (hskip : w.ending = .skipped → u.Lost exposed w.id) : s.Swept exposed u (ws ++ [w]) := by
  have hafter : w.after = w.account := by
    rw [Visit.after, hw]
    rfl
  have hfilter : (ws ++ [w]).filter Visit.isSaved = ws.filter Visit.isSaved := by simp [hw]
  refine ⟨Visit.forall_concat h.found hfound, Visit.forall_concat h.visited (hafter ▸ ha),
    fun id a hid hne => ?_, Visit.forall_concat h.stored fun hsaved => ?_, fun id hid => ?_,
    Visit.forall_concat h.skipped hskip, by rw [hfilter, h.saves], h.isOpen, by rw [hfilter, h.news]⟩
  · exact h.others id a hid fun v hv => hne v (List.mem_append_left _ hv)
  · exact absurd (hw.symm.trans hsaved) (by simp)
  · exact h.unstored id fun v hv => hid v (List.mem_append_left _ hv)

/-- The flush has saved an account. -/
theorem save (h : s.Swept exposed u ws) (hfound : s.vault.account? w.id = some w.account)
    (hfresh : ∀ v ∈ ws, w.id ≠ v.id) (hw : w.isSaved = true) (hu : u.Saves w u') :
    s.Swept exposed u' (ws ++ [w]) := by
  have hfilter : (ws ++ [w]).filter Visit.isSaved = ws.filter Visit.isSaved ++ [w] := by simp [hw]
  refine ⟨Visit.forall_concat h.found hfound, Visit.forall_concat (fun v hv => ?_) ?_,
    fun id a hid hne => ?_, Visit.forall_concat (fun v hv hsaved => ?_) fun _ => ?_, fun id hid => ?_,
    Visit.forall_concat (fun v hv hskipped => ?_) fun hskipped => ?_, ?_, hu.isOpen.trans h.isOpen, ?_⟩
  · exact hu.has (hfresh v hv) (h.visited v hv)
  · exact .inl ((hu.account _).trans (if_pos rfl))
  · exact hu.has (hne w (by simp)) (h.others id a hid fun v hv => hne v (List.mem_append_left _ hv))
  · exact hu.kept (hfresh v hv) (h.stored v hv hsaved)
  · exact .inl ((hu.record _).trans (if_pos rfl))
  · have hne : w.id ≠ id := fun heq => absurd (hid w (by simp) heq) (by simp [hw])
    exact hu.kept hne (h.unstored id fun v hv => hid v (List.mem_append_left _ hv))
  · exact hu.lost (hfresh v hv) (h.skipped v hv hskipped)
  · exact absurd hw (by simp [Visit.isSaved, hskipped])
  · rw [hu.served, List.filter_append, h.saves, hfilter, List.map_append, List.append_assoc]
    rfl
  · rw [hu.published, List.filter_append, h.news, hfilter, h.isOpen, List.map_append, List.append_assoc]
    split <;> rfl

end Swept

end System

end AccountVault
