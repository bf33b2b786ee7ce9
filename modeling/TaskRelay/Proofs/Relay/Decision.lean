import Mathlib
import TaskRelay.Proofs.Relay.Abridged
import TaskRelay.Proofs.Relay.Life
import TaskRelay.Proofs.Relay.Order
import TaskRelay.Proofs.Relay.Spending
import TaskRelay.Proofs.Relay.Work

/-!
# Submissions are accepted or refused as a whole

What a submission is told depends on the settings, on whether a callback was ever installed, and on
whether the dispatch was closed, in this order and as of one moment (`verdict?`). A refused
submission leaves nothing behind: it uses up nothing, and any of them can be left out of a run. An
accepted one uses up one id and counts once, and its task is there.
Main statement: `decided`.
-/

namespace TaskRelay

variable {s t first : State} {a : Action} {c : Caller} {x : Call} {settings : Settings}
variable {site : Site} {hosted : Bool} {as : List Action}

/-! ## Callbacks come from outside -/

/-- There is no callback, and nobody is inside one. -/
structure Uncalled (s : State) : Prop where
  registry : s.registry.isInstalled = false
  notices : s.notices = []

theorem State.Reachable.isInstalled_of_notifying (h : s.Reachable) {u : Task} (hu : u ∈ s.tasks)
    {e : Ending} {i : Invocation} (hs : u.stage = .notifying e i) : s.registry.isInstalled := by
  refine h.isInstalled hu ?_
  have hl := h.lives.tasks u hu
  rw [hs] at hl
  generalize s.life u.id = l at hl
  cases hl with
  | live hn => cases hn
  | notifying _ ht =>
    -- a callback that runs was called with a pointer
    generalize u.envelope.wake = w at ht ⊢
    cases ht
    rfl

theorem CallMove.notices_eq (m : CallMove s x t) : t.notices = s.notices := by
  cases m with
  | refuse | launch | abandon | unlock => exact State.answer_notices _ _ _
  | _ => rfl

theorem Move.notices_eq (m : Move s a t) (hn : ∀ n w, a ≠ .notify n w) (hr : ∀ n, a ≠ .react n) :
    t.notices = s.notices := by
  cases m with
  | outside m =>
    cases m with
    | notify n w => exact absurd rfl (hn n w)
    | react n => exact absurd rfl (hr n)
    | _ => rfl
  | call _ m => exact m.notices_eq
  | worker m => cases m <;> rfl
  | task _ m =>
    cases m with
    | notify | react => simp only [State.afterTurn, State.noteSigns_eq, State.setStage, State.note]
    | _ => rfl
  | ask | askInside | close | drop => rfl

namespace Uncalled

theorem step (h : s.Reachable) (hu : Uncalled s) (hs : s.step? a = some t)
    (ha : ∀ c, a ≠ .install c) : Uncalled t := by
  have hnone : s.registry.callback = none := by
    simpa [Registry.isInstalled] using hu.registry
  have m := move_of_step? hs
  by_cases hnotify : ∃ n w, a = .notify n w
  · obtain ⟨n, w, rfl⟩ := hnotify
    simp only [State.step?, hu.notices, List.any_nil, Bool.false_eq_true, if_false,
      Registry.notify_of_none hnone] at hs
    obtain rfl := Option.some.inj hs
    exact ⟨by simpa [Registry.missing, Registry.isInstalled] using hnone, by
      simp [State.afterTurn, State.note, hu.notices]⟩
  by_cases hreact : ∃ n, a = .react n
  · obtain ⟨n, rfl⟩ := hreact
    rw [State.step?, hu.notices] at hs
    cases hs
  push Not at hnotify hreact
  refine ⟨?_, (m.notices_eq hnotify hreact).trans hu.notices⟩
  rcases m.split with hb | m | ⟨y, hy, m⟩
  · rw [hb.registry, hu.registry]
  · cases m with
    | install c => exact absurd rfl (ha c)
    | notify n w => exact absurd rfl (hnotify n w)
    | react n => exact absurd rfl (hreact n)
    | _ => exact hu.registry
  · have hy := (task?_spec hy).1
    cases m with
    | @notify e w _ hw =>
      have := h.isInstalled hy (by rw [hw]; rfl)
      rw [hu.registry] at this
      cases this
    | react hstage =>
      have := h.isInstalled_of_notifying hy hstage
      rw [hu.registry] at this
      cases this
    | _ => exact hu.registry

end Uncalled

def Action.isInstall : Action → Bool
  | .install _ => true
  | _ => false

theorem Leads.isInstalled (hl : Leads s t) (h : s.registry.isInstalled) :
    t.registry.isInstalled := by
  induction hl with
  | here => exact h
  | step _ hs ih => exact (move_of_step? hs).isInstalled ih

/-- From a state without a callback on, there is one iff one is installed from outside. -/
theorem isInstalled_after (h : s.Reachable) (hu : Uncalled s) (hs : s.after? as = some t) :
    t.registry.isInstalled = as.any Action.isInstall := by
  induction as generalizing s with
  | nil =>
    obtain rfl := Option.some.inj hs
    exact hu.registry
  | cons a as ih =>
    obtain ⟨v, hv, hs⟩ := Option.bind_eq_some_iff.mp hs
    rw [List.any_cons]
    cases ha : a.isInstall with
    | true =>
      rw [Bool.true_or]
      refine (leads_of_after? hs).isInstalled ?_
      cases a with
      | install c =>
        obtain rfl := Option.some.inj hv
        rfl
      | _ => cases ha
    | false =>
      rw [Bool.false_or]
      refine ih (h.step hv) (hu.step h hv ?_) hs
      rintro c rfl
      cases ha

/-! ## Pools come from the settings -/

theorem Leads.isSome_get? (hl : Leads s t) (n : PoolName) :
    (t.pools.get? n).isSome = (s.pools.get? n).isSome := by
  induction hl with
  | here => rfl
  | step _ hs ih => exact ((move_of_step? hs).isSome_get? n).trans ih

/-- Whether the settings ask for the pool that a submission goes to. -/
def Settings.provides (s : Settings) : Entry → Bool
  | .interactive => s.interactiveThreads != 0
  | .single => s.localPool
  | .direct | .serial => true

theorem isSome_get?_around (q : Pool) (entry : Entry) :
    ((Pools.around q settings).get? entry.pool).isSome = settings.provides entry := by
  cases entry with
  | direct | serial => rfl
  | interactive =>
    by_cases hi : settings.interactiveThreads = 0 <;>
      simp [Entry.pool, Pools.get?, Pools.around, Settings.provides, hi]
  | single =>
    cases hl : settings.localPool <;>
      simp [Entry.pool, Pools.get?, Pools.around, Settings.provides, hl]

/-! ## The verdict -/

def Mark.isClosed : Mark → Bool
  | .closed => true
  | _ => false

/-- Why a submission is refused that is decided now, after this run of a relay with these settings:
first for its pool, then for its wake pointer, and last for the dispatch. -/
def verdict? (settings : Settings) (as : List Action) (s : State) (entry : Entry)
    (wake : Option WakePointer) : Option RelayError :=
  if !settings.provides entry then some entry.missingPool
  else if wake.isSome && !as.any Action.isInstall then some .wakeCallbackMissing
  else if entry = .serial ∧ s.journal.any Mark.isClosed then some .dispatchClosed
  else none

theorem refusal?_eq_verdict? (hf : State.startWith site hosted settings = .running first)
    (hs : first.after? as = some s) (hd : s.dropped = false) (entry : Entry)
    (wake : Option WakePointer) : s.refusal? entry wake = verdict? settings as s entry wake := by
  have hr : first.Reachable := ⟨site, hosted, settings, first, hf, .here⟩
  obtain rfl := eq_start_of_startWith hf
  obtain ⟨q, hq, -⟩ := Pools.ofSettings_eq_around hosted settings
  have hpool : (s.pools.get? entry.pool).isNone = !settings.provides entry := by
    rw [← isSome_get?_around q entry, ← hq, ← Option.not_isSome, (leads_of_after? hs).isSome_get?]
    rfl
  have hready : (!s.registry.ready wake) = (wake.isSome && !as.any Action.isInstall) := by
    rw [Registry.ready, isInstalled_after hr ⟨rfl, rfl⟩ hs]
    cases wake <;> simp
  have hopen : s.dispatch.isOpen = false ↔ s.journal.any Mark.isClosed := by
    rw [(hr.after hs).isOpen_eq_false_iff hd, List.any_eq_true]
    constructor
    · exact fun h => ⟨_, h, rfl⟩
    · rintro ⟨m, hm, hc⟩
      cases m with
      | closed => exact hm
      | _ => cases hc
  rw [State.refusal?, verdict?, hpool, hready]
  simp only [hopen]

/-! ## One decision for each submission -/

theorem Leads.dropped (hl : Leads s t) (h : s.dropped) : t.dropped := by
  induction hl with
  | here => exact h
  | step _ hs ih =>
    rcases (move_of_step? hs).gate with hg | hg
    · rw [hg.dropped, ih]
    · cases hg with
      | drop => rfl
      | enter | leave | close => exact ih

/-- Steps of submissions and of the worker change nothing that refusals depend on. -/
theorem refusal?_of_front (ha : ∀ a ∈ as, a.isOfFront) (hs : s.after? as = some t) (entry : Entry)
    (wake : Option WakePointer) : t.refusal? entry wake = s.refusal? entry wake := by
  induction as generalizing s with
  | nil => rw [Option.some.inj hs]
  | cons a as ih =>
    obtain ⟨u, hu, hs⟩ := Option.bind_eq_some_iff.mp hs
    rw [ih (fun b hb => ha b (List.mem_cons_of_mem _ hb)) hs]
    have hsame : u.pools = s.pools ∧ SameBack s u ∧ SameGate s u := by
      have m := move_of_step? hu
      cases a with
      | call =>
        cases m with
        | call _ m => exact ⟨m.pools_eq, m.sameBack, m.sameGate⟩
        | outside m => cases m
        | task _ m => cases m
      | worker =>
        cases m with
        | worker m => exact ⟨m.pools_eq, m.sameBack, m.sameGate⟩
        | outside m => cases m
        | task _ m => cases m
      | _ => cases ha _ (List.mem_cons_self ..)
    rw [State.refusal?, State.refusal?, hsame.1, hsame.2.1.registry, hsame.2.2.isOpen]

/-- A submission is only answered in a relay that is not given up. -/
theorem State.Settles.dropped (h : s.Reachable) {r : Except RelayError Ticket}
    {bs cs ds : List Action} {w : State} (hs : s.Settles c bs r t) (hb : bs = cs ++ ds)
    (hw : s.after? cs = some w) : w.dropped = false := by
  obtain ⟨v, hv, -, hstep, -⟩ := hs
  rw [hb, after?_append, hw] at hv
  by_contra hd
  have hvd := (leads_of_after? hv).dropped (by simpa using hd)
  have hn := ((h.after hw).after hv).abandoned hvd
  rw [State.step?, State.call?, hn.calls] at hstep
  cases hstep

/-! ## What a refused submission does -/

/-- Nothing happened but that `c` got on with its submission. -/
structure Untouched (c : Caller) (s t : State) : Prop where
  sight : t.sight = s.sight
  dispatch : t.dispatch = s.dispatch
  tasks : ∀ u ∈ s.tasks, c ≠ .task u.id → u ∈ t.tasks
  logs : t.logs = s.logs
  notes : t.notes = s.notes

/-- Nobody sees a stage that is not the end. -/
theorem endings_setStage (hc : Coherent s) {u : Task} (hu : u ∈ s.tasks) {stage : Stage}
    (hs : u.stage.ending? = none) (he : stage.ending? = none) :
    ((s.setStage u.id stage).tasks.map fun w => (w.id, w.ending?)) =
      s.tasks.map fun w => (w.id, w.ending?) := by
  rw [State.setStage, List.map_map]
  refine List.map_congr_left fun w hw => ?_
  simp only [Function.comp]
  split_ifs with hid
  · obtain rfl := hc.eq_of_id_eq hw hu hid
    simp [Task.ending?, hs, he]
  · rfl

namespace Untouched

theorem setStage (hc : Coherent s) {u : Task} (hu : u ∈ s.tasks) {stage : Stage}
    (hs : u.stage.ending? = none) (he : stage.ending? = none) :
    Untouched (.task u.id) s (s.setStage u.id stage) where
  sight := by
    rw [State.sight, State.sight, endings_setStage hc hu hs he]
    rfl
  dispatch := rfl
  tasks w hw hne := (s.mem_setStage).mpr (.inr ⟨hw, fun hid => hne (by rw [hid])⟩)
  logs := rfl
  notes := rfl

/-- Beginning a submission is noted, but is neither logged nor a note for anybody. -/
theorem ask {u : State} (h : Untouched c s u) (entry : Entry) (e : Envelope) :
    Untouched c s (u.ask c entry e) where
  sight := h.sight
  dispatch := h.dispatch
  tasks := h.tasks
  logs := h.logs ▸ (filterMap_history Mark.log? (t := u.ask c entry e) rfl).trans
    (List.append_nil _)
  notes := h.notes ▸ (filterMap_history Mark.note? (t := u.ask c entry e) rfl).trans
    (List.append_nil _)

theorem of_asks (hc : Coherent s) (h : Asks s a c t) : Untouched c s t := by
  cases h with
  | thread => exact ask ⟨rfl, rfl, fun _ hu _ => hu, rfl, rfl⟩ _ _
  | task _ hu hs => exact ask (setStage hc (task?_spec hu).1 (by rw [hs]; rfl) rfl) _ _

theorem answer (hc : Coherent s) (c : Caller) (r : Except RelayError Ticket) :
    Untouched c s (s.answer c r) := by
  have hlogs : (s.answer c r).logs = s.logs :=
    (filterMap_history Mark.log? (s.answer_journal c r)).trans (List.append_nil _)
  have hnotes : (s.answer c r).notes = s.notes :=
    (filterMap_history Mark.note? (s.answer_journal c r)).trans (List.append_nil _)
  obtain ⟨tasks, he, rfl | ⟨u, next, rfl, hu, hs, rfl⟩⟩ := s.answer_eq c r
  · rw [he] at hlogs hnotes ⊢
    exact ⟨rfl, rfl, fun _ hu _ => hu, hlogs, hnotes⟩
  · rw [he] at hlogs hnotes ⊢
    have hset : Untouched (.task u.id) s (s.setStage u.id (.running (next r))) :=
      setStage hc (task?_spec hu).1 (by rw [hs]; rfl) rfl
    exact ⟨hset.sight, hset.dispatch, hset.tasks, hlogs, hnotes⟩

end Untouched

/-- A submission that is refused touches nothing from its beginning to its end. -/
theorem untouched_of_refused {bs : List Action} {last : State} (h : s.Reachable)
    (ha : s.asker? a = some c ∨ a = .call c) (hs : s.step? a = some t)
    (hl : t.after? bs = some last) (hr : (s.refused? last c).isSome) : Untouched c s t := by
  rcases ha with ha | rfl
  · exact .of_asks h.coherent (asks_of_asker? hs ha)
  · obtain ⟨e, hr⟩ := Option.isSome_iff_exists.mp hr
    obtain ⟨x, hcall, -⟩ := Option.bind_eq_some_iff.mp hs
    obtain ⟨hx, rfl⟩ := call?_spec hcall
    rcases step_of_refused h hx hs hl hr with rfl | rfl
    · exact .answer h.coherent _ _
    · exact ⟨rfl, rfl, fun _ hu _ => hu, rfl, rfl⟩

/-! ## The whole -/

/-- What holds of submissions after this run of a relay with these settings. -/
structure Decided (settings : Settings) (first : State) (as : List Action) (s : State) : Prop where
  /-- A submission under way can be answered, whatever tasks and threads outside do. -/
  answered : ∀ x ∈ s.calls, ∃ bs r t, (∀ b ∈ bs, b.isOfFront) ∧ s.Settles x.caller bs r t
  /-- Whatever it is answered is the verdict at one moment since it began. -/
  verdict : ∀ x ∈ s.calls, x.stage = .asked → ∀ bs r t, s.Settles x.caller bs r t →
    ∃ cs ds w, bs = cs ++ ds ∧ s.after? cs = some w ∧
      refusalIn r = verdict? settings (as ++ cs) w x.entry x.envelope.wake
  /-- If nobody else does anything meanwhile, it is the verdict now. -/
  verdictNow : ∀ x ∈ s.calls, x.stage = .asked → ∀ bs r t, s.Settles x.caller bs r t →
    (∀ b ∈ bs, b.isOfFront) → refusalIn r = verdict? settings as s x.entry x.envelope.wake
  /-- If it is accepted, its task is there, and was not before. -/
  task : ∀ x ∈ s.calls, x.stage = .asked → ∀ bs k t, s.Settles x.caller bs (.ok k) t →
    k.id ∉ s.tasks.map Task.id ∧
      ∃ u ∈ t.tasks, u.id = k.id ∧ u.caller = x.caller ∧ u.envelope = x.envelope
  /-- From its beginning to its answer it uses up what is due for it, which is nothing if it is
  refused. -/
  spent : ∀ x ∈ s.calls, x.stage = .asked → ∀ bs r t, s.Settles x.caller bs r t →
    s.spent x.caller (bs ++ [.call x.caller]) = Bill.due x.entry r
  /-- Nothing is used up otherwise. -/
  unspent : ∀ a t, s.step? a = some t → (∀ c, s.actsFor c a = false) → t.totals = s.totals
  /-- No step of a submission that is going to be refused touches anything. -/
  untouched : ∀ c a t bs last, s.asker? a = some c ∨ a = .call c → s.step? a = some t →
    t.after? bs = some last → (s.refused? last c).isSome → Untouched c s t
  /-- Any of the refused submissions so far can be left out: all other steps can be taken without
  them, show what they showed, and come to the same state. -/
  erased : ∀ gone, ∃ past, first.play? ((Edit.refused gone).abridge s first as).1 =
    some (((Edit.refused gone).abridge s first as).2, { s with journal := past })

theorem decided (hf : State.startWith site hosted settings = .running first)
    (hs : first.after? as = some s) : Decided settings first as s := by
  have hfirst : first.Reachable := ⟨site, hosted, settings, first, hf, .here⟩
  have h := hfirst.after hs
  have hverdict : ∀ x ∈ s.calls, x.stage = .asked → ∀ bs r t, s.Settles x.caller bs r t →
      ∃ cs ds w, bs = cs ++ ds ∧ s.after? cs = some w ∧ w.dropped = false ∧
        w.refusal? x.entry x.envelope.wake = refusalIn r := by
    intro x hx hb bs r t hset
    obtain ⟨cs, ds, w, rfl, hw, hr⟩ := hset.exists_decides h hx (by rw [Call.isDecided, hb])
    exact ⟨cs, ds, w, rfl, hw, hset.dropped h rfl hw, hr⟩
  refine ⟨fun x hx => h.exists_settles hx, fun x hx hb bs r t hset => ?_,
    fun x hx hb bs r t hset ha => ?_,
    fun x hx hb bs k t hset => ⟨fun hk => ?_, hset.exists_task h hx⟩,
    fun x hx hb bs r t hset => spent_of_settles h hx hb hset,
    fun a t ht => totals_of_not_actsFor h.handover (move_of_step? ht),
    fun c a t bs last ha ht => untouched_of_refused h ha ht, fun gone => ?_⟩
  · obtain ⟨cs, ds, w, rfl, hw, hd, hr⟩ := hverdict x hx hb bs r t hset
    have hrun : first.after? (as ++ cs) = some w := by
      rw [after?_append, hs]
      exact hw
    exact ⟨cs, ds, w, rfl, hw, by rw [← hr, refusal?_eq_verdict? hf hrun hd]⟩
  · obtain ⟨cs, ds, w, rfl, hw, -, hr⟩ := hverdict x hx hb bs r t hset
    rw [← hr, refusal?_of_front (fun a hc => ha a (List.mem_append_left _ hc)) hw,
      refusal?_eq_verdict? hf hs (hset.dropped h (List.nil_append _).symm rfl)]
  · have := nextId_le_of_asked h hx hb hset
    have := h.lt_of_task hk
    omega
  · obtain ⟨past, hp⟩ := (Edit.refused gone).play?_abridge hfirst hs first.journal
    refine ⟨past, ?_⟩
    obtain rfl := eq_start_of_startWith hf
    rw [abridged_of_none (fun _ => omits?_eq_none_of_calls rfl),
      abridged_of_none (fun _ => omits?_self)] at hp
    exact hp

/-- Submissions of threads and of a task, most of them refused, around the closing of the dispatch;
another one is under way at the end. -/
def refusals : List Action := List.flatten [
  [.submit 0 .interactive (.comingTo (.value .null) none), .call (.thread 0),
    .submit 0 .direct (.comingTo (.value .null) (WakePointer.ofAddress? 8)), .call (.thread 0),
    .submit 0 .direct (.submitting .interactive (.comingTo (.value .null) none))],
  List.replicate 4 (.call (.thread 0)), List.replicate 2 (.task 0), [.call (.task 0)],
  [.shutdown 1, .close 1, .submit 2 .serial (.comingTo (.value .null) none)],
  List.replicate 2 (.call (.thread 2)), [.submit 0 .single (.comingTo (.value .null) none)],
  List.replicate 4 (.call (.thread 0)),
  [.submit 2 .serial (.comingTo (.value .null) (WakePointer.ofAddress? 8))]]

theorem decided_refusals : ∃ s, State.plain.after? refusals = some s ∧
    s.submissions.map (fun z => refusalIn z.answer) = [some .interactivePoolDisabled,
      some .wakeCallbackMissing, none, some .interactivePoolDisabled, some .dispatchClosed, none] ∧
    s.calls.map Call.caller = [.thread 2] ∧
    verdict? (.default .one) refusals s .serial (WakePointer.ofAddress? 8) =
        some .wakeCallbackMissing ∧
      Decided (.default .one) .plain refusals s := by
  obtain ⟨s, hs, -, h1, h2, h3⟩ := exists_run (P := fun s =>
    s.submissions.map (fun z => refusalIn z.answer) = [some .interactivePoolDisabled,
      some .wakeCallbackMissing, none, some .interactivePoolDisabled, some .dispatchClosed, none] ∧
    s.calls.map Call.caller = [.thread 2] ∧
    verdict? (.default .one) refusals s .serial (WakePointer.ofAddress? 8) =
      some .wakeCallbackMissing)
      refusals (by decide +kernel)
  have hfirst : State.startWith .generous false (.default .one) = .running .plain := rfl
  exact ⟨s, hs, h1, h2, h3, decided hfirst hs⟩

end TaskRelay
