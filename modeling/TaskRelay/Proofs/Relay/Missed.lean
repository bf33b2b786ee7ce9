import Mathlib
import TaskRelay.Proofs.Relay.Completion
import TaskRelay.Proofs.Relay.Course
import TaskRelay.Proofs.Relay.Decision

/-!
# What is missed

A notification is missed if there is no callback, and it is one that a thread outside makes by
itself before the first callback is installed: from then on there always is a callback, and a task
with a wake pointer is only accepted from then on. So whatever tasks and callbacks notify of reaches
a callback, also after the relay was given up.
Main statement: `noneMissed`.
-/

namespace TaskRelay

variable {s t first : State} {a : Action} {as : List Action} {u : Task} {w : WakePointer}
variable {site : Site} {hosted : Bool} {settings : Settings}

/-! ## What was missed -/

def Mark.missing? : Mark → Option (Source × WakePointer)
  | .sign source (.missed w) => some (source, w)
  | _ => none

/-- The notifications that were missed, with their origins, in order. -/
def State.missings (s : State) : List (Source × WakePointer) := s.history.filterMap Mark.missing?

/-- The notification that a thread outside begins by this step. -/
def Action.notification? : Action → Option (Source × WakePointer)
  | .notify n w => some (.thread n, w)
  | _ => none

theorem missing?_eq_none_of_isFront {m : Mark} (h : m.isFront) : m.missing? = none := by
  cases m <;> first | rfl | cases h

theorem isSome_missing? (m : Mark) : m.missing?.isSome = Figure.missed.counts m := by
  cases m with
  | sign source x => cases x <;> rfl
  | _ => rfl

theorem missings_of_marks (ms : List Mark) (h : t.journal = ms ++ s.journal) :
    t.missings = s.missings ++ ms.reverse.filterMap Mark.missing? := by
  rw [State.missings, State.history, h, List.reverse_append, List.filterMap_append]
  rfl

theorem SameBack.missings (h : SameBack s t) : t.missings = s.missings := by
  obtain ⟨ms, hj, hm⟩ := h.marks
  have hnone : ms.reverse.filterMap Mark.missing? = [] := by
    rw [List.filterMap_eq_nil_iff]
    exact fun m hi => missing?_eq_none_of_isFront (hm m (List.mem_reverse.mp hi))
  rw [missings_of_marks ms hj, hnone, List.append_nil]

theorem State.Reachable.missed_eq (h : s.Reachable) : s.figure .missed = s.missings.length := by
  rw [h.figure_eq rfl, State.missings, State.history, List.filterMap_reverse, List.length_reverse]
  induction s.journal with
  | nil => rfl
  | cons m journal ih =>
    rw [List.countP_cons, List.filterMap_cons, ih, ← isSome_missing? m]
    cases m.missing? <;> rfl

/-! ## Nothing is missed while there is a callback -/

/-- Signs none of which says that something was missed. -/
theorem missing?_signs (source : Source) {l : List Sign} (h : l.countP Sign.isMissed = 0) :
    (l.map (Mark.sign source)).filterMap Mark.missing? = [] := by
  rw [List.filterMap_map, List.filterMap_eq_nil_iff]
  intro x hx
  have hn := List.countP_eq_zero.mp h x hx
  cases x with
  | missed => exact absurd rfl hn
  | note | called | returned => rfl

/-- The marks of a turn without a miss, perhaps begun by a mark that is none. -/
theorem missings_of_turn (source : Source) (ms : List Mark) {turn : Turn}
    (hj : t.journal = (turn.signs.map (Mark.sign source)).reverse ++ ms ++ s.journal)
    (hm : ms.filterMap Mark.missing? = []) (hs : turn.signs.countP Sign.isMissed = 0) :
    t.missings = s.missings := by
  rw [missings_of_marks _ hj, List.reverse_append, List.reverse_reverse, List.filterMap_append,
    List.filterMap_reverse, hm, missing?_signs source hs]
  exact List.append_nil _

theorem TaskMove.missings (m : TaskMove s u a t) (h : s.registry.isInstalled) :
    t.missings = s.missings := by
  cases m with
  | resume | go | finish | pass | cancel => rfl
  | log | record | resolve | cancelUnwinding =>
    exact (missings_of_marks [_] rfl).trans (List.append_nil _)
  | @notify e w =>
    refine missings_of_turn (.task u.id) [.notify (.task u.id) w] ?_ rfl
      (s.registry.notify_missed h w)
    simp [State.setStage, State.note]
  | @react e i =>
    refine missings_of_turn (.task u.id) [] ?_ rfl (s.registry.step_missed h i)
    simp [State.setStage]

theorem OutsideMove.missings (m : OutsideMove s a t) (h : s.registry.isInstalled) :
    t.missings = s.missings := by
  cases m with
  | notify n w notices =>
    refine missings_of_turn (.thread n) [.notify (.thread n) w] ?_ rfl
      (s.registry.notify_missed h w)
    simp [State.note]
  | react n i notices =>
    refine missings_of_turn (.thread n) [] ?_ rfl (s.registry.step_missed h i)
    simp
  | _ => rfl

theorem Move.missings (m : Move s a t) (h : s.registry.isInstalled) : t.missings = s.missings := by
  rcases m.split with hb | m | ⟨x, -, m⟩
  · exact hb.missings
  · exact m.missings h
  · exact m.missings h

theorem Leads.missings (hl : Leads s t) (h : s.registry.isInstalled) : t.missings = s.missings := by
  induction hl with
  | here => rfl
  | step hl hs ih => rw [(move_of_step? hs).missings (hl.isInstalled h), ih]

/-! ## What is missed before -/

/-- Without a callback what is notified of is missed, and nobody but a thread outside notifies. -/
theorem Uncalled.missings (hu : Uncalled s) (h : s.Reachable) (hs : s.step? a = some t) :
    t.missings = s.missings ++ a.notification?.toList := by
  have hnone : s.registry.callback = none := by
    simpa [Registry.isInstalled] using hu.registry
  by_cases hnotify : ∃ n w, a = .notify n w
  · obtain ⟨n, w, rfl⟩ := hnotify
    simp only [State.step?, hu.notices, List.any_nil, Bool.false_eq_true, if_false,
      Registry.notify_of_none hnone] at hs
    obtain rfl := Option.some.inj hs
    exact missings_of_marks [.sign (.thread n) (.missed w), .notify (.thread n) w] rfl
  push Not at hnotify
  have hquiet : a.notification?.toList = [] := by
    cases a with
    | notify n w => exact absurd rfl (hnotify n w)
    | _ => rfl
  rw [hquiet, List.append_nil]
  rcases (move_of_step? hs).split with hb | m | ⟨y, hy, m⟩
  · exact hb.missings
  · cases m with
    | notify n w => exact absurd rfl (hnotify n w)
    | react n =>
      rw [State.step?, hu.notices] at hs
      cases hs
    | _ => rfl
  · have hy := (task?_spec hy).1
    cases m with
    | resume | go | finish | pass | cancel => rfl
    | log | record | resolve | cancelUnwinding =>
      exact (missings_of_marks [_] rfl).trans (List.append_nil _)
    | notify _ hw =>
      have := h.isInstalled hy (by rw [hw]; rfl)
      rw [hu.registry] at this
      cases this
    | react hstage =>
      have := h.isInstalled_of_notifying hy hstage
      rw [hu.registry] at this
      cases this

/-- What threads outside notify of before the first callback is installed. -/
def earlyNotifications (as : List Action) : List (Source × WakePointer) :=
  (as.takeWhile fun a => !a.isInstall).filterMap Action.notification?

theorem missings_after (h : s.Reachable) (hu : Uncalled s) (hs : s.after? as = some t) :
    t.missings = s.missings ++ earlyNotifications as := by
  induction as generalizing s with
  | nil =>
    obtain rfl := Option.some.inj hs
    exact (List.append_nil _).symm
  | cons a as ih =>
    obtain ⟨v, hv, hs⟩ := Option.bind_eq_some_iff.mp hs
    rw [earlyNotifications, List.takeWhile_cons]
    cases ha : a.isInstall with
    | true =>
      -- from here on there is a callback
      have hinst : v.registry.isInstalled := by
        cases a with
        | install c =>
          obtain rfl := Option.some.inj hv
          rfl
        | _ => cases ha
      have hq : a.notification?.toList = [] := by
        cases a <;> first | rfl | cases ha
      rw [(leads_of_after? hs).missings hinst, hu.missings h hv, hq]
      rfl
    | false =>
      have hv' : Uncalled v := by
        refine hu.step h hv ?_
        rintro c rfl
        cases ha
      rw [ih (h.step hv) hv' hs, hu.missings h hv, List.append_assoc]
      cases a <;> rfl

/-! ## Tasks are told of through a callback -/

/-- The notification of a task begins with the call of a callback. -/
theorem Life.called {id : Nat} {stage : Stage} {l : List Mark} (h : Life id (some w) stage l)
    (ht : stage.isTold) : [.notify (.task id) w, .sign (.task id) (.called w)] <:+: l := by
  have htold : ∀ {n l'}, Told id (some w) n l' →
      [.notify (.task id) w, .sign (.task id) (.called w)] <+: l' := by
    intro n l' h
    cases h with
    | notify hn =>
      obtain ⟨rest, rfl⟩ := hn.begins
      exact ⟨_, rfl⟩
  cases h with
  | live hs => cases stage <;> simp [Stage.isTold, Stage.recorded?] at hs ht
  | recorded => cases ht
  | notifying _ h' | notified _ h' =>
    exact (htold h').isInfix.trans (List.suffix_append _ _).isInfix
  | resolved _ h' => exact (htold h').isInfix.trans (List.infix_append _ _ _)

/-- Nothing is missed within the notification of a task. -/
theorem Told.not_missed {id n : Nat} {wake : Option WakePointer} {l : List Mark}
    (h : Told id wake n l) (v : WakePointer) : .sign (.task id) (.missed v) ∉ l := by
  cases h with
  | nobody => exact List.not_mem_nil
  | notify hn =>
    intro hm
    obtain ⟨x, hx, hv⟩ := List.mem_map.mp ((List.mem_cons.mp hm).resolve_left (by simp))
    obtain rfl := (Mark.sign.inj hv).2
    exact List.countP_eq_zero.mp hn.missed _ hx rfl

theorem Entered.not_sign {id : Nat} {e : Ending} {l : List Mark} (h : Entered id e l) (x : Sign) :
    .sign (.task id) x ∉ l := by
  cases h <;> simp

theorem Life.not_missed {id : Nat} {wake : Option WakePointer} {stage : Stage} {l : List Mark}
    (h : Life id wake stage l) (v : WakePointer) : .sign (.task id) (.missed v) ∉ l := by
  cases h with
  | live => exact List.not_mem_nil
  | recorded he => exact he.not_sign _
  | notifying he ht | notified he ht | resolved he ht =>
    simp [he.not_sign, ht.not_missed]

namespace State.Reachable

/-- Neither the notification of a task nor what its callback notifies of is ever missed. -/
theorem not_missed (h : s.Reachable) (id : Nat) (v : WakePointer) :
    .sign (.task id) (.missed v) ∉ s.journal := by
  intro hm
  have hlife : .sign (.task id) (.missed v) ∈ s.life id :=
    List.mem_filter.mpr ⟨List.mem_reverse.mpr hm, by simp [Mark.isOf]⟩
  by_cases hid : id ∈ s.tasks.map Task.id
  · obtain ⟨u, hu, rfl⟩ := List.mem_map.mp hid
    exact (h.lives.tasks u hu).not_missed v hlife
  · rw [h.lives.others id hid] at hlife
    cases hlife

/-- Once the end of a task is certain, at most two steps of its own bring the call of a callback
with its pointer. -/
theorem exists_called (h : s.Reachable) (hu : u ∈ s.tasks) (hw : u.envelope.wake = some w)
    {e : Ending} (hd : u.stage.decided? = some e) : ∃ n ≤ 2, ∃ t,
      s.after? (List.replicate n (.task u.id)) = some t ∧
        [.notify (.task u.id) w, .sign (.task u.id) (.called w)] <:+: t.life u.id := by
  obtain ⟨n, hn, t, stage, ht, hstage, hmem⟩ := h.exists_isTold hu hd
  have hl := (h.after ht).lives.tasks _ hmem
  rw [hw] at hl
  exact ⟨n, hn, t, ht, hl.called hstage⟩

end State.Reachable

/-! ## The whole -/

/-- With a callback a notification from outside is its call, of a thread that makes none already. -/
theorem step?_notify_of_some {c : Callback} (hc : s.registry.callback = some c) {n : Nat}
    (hn : ∀ x ∈ s.notices, x.thread ≠ n) (w : WakePointer) :
    s.step? (.notify n w) = some { s with
      notices := s.notices ++ [⟨n, ⟨c w, []⟩⟩],
      journal := .sign (.thread n) (.called w) :: .notify (.thread n) w :: s.journal } := by
  have hany : (s.notices.any fun x => x.thread == n) = false := by
    simpa using hn
  rw [State.step?, hany, if_neg Bool.false_ne_true, Registry.notify_of_some hc]
  rfl

/-- With a callback no submission is refused for want of one. -/
theorem State.Settles.not_callbackMissing {x : Call} {bs : List Action}
    {r : Except RelayError Ticket} (h : s.Reachable) (hi : s.registry.isInstalled)
    (hx : x ∈ s.calls) (hb : x.stage = .asked) (hs : s.Settles x.caller bs r t) :
    refusalIn r ≠ some .wakeCallbackMissing := by
  obtain ⟨cs, ds, v, -, hv, hr⟩ := hs.exists_decides h hx (by rw [Call.isDecided, hb])
  have hready : v.registry.ready x.envelope.wake := by
    rw [Registry.ready, (leads_of_after? hv).isInstalled hi, Bool.or_true]
  rw [← hr, State.refusal?, hready]
  simp only [Bool.not_true, Bool.false_eq_true, if_false]
  cases x.entry <;> split_ifs <;> simp [Entry.missingPool]

/-- What holds of notifications after this run of a relay. -/
structure NoneMissed (as : List Action) (s : State) : Prop where
  /-- There is a callback if and only if one was installed, and then there always will be one, so
  that any wake pointer is accepted. -/
  installed : s.registry.isInstalled = as.any Action.isInstall
  lasting : s.registry.isInstalled → ∀ t, Leads s t →
    t.registry.isInstalled ∧ ∀ wake, t.registry.ready wake
  /-- With one, whoever notifies calls a callback, be it a thread outside, a task or a callback. -/
  calling : s.registry.isInstalled → ∃ c, s.registry.callback = some c ∧
    (∀ n w, (∀ x ∈ s.notices, x.thread ≠ n) → s.step? (.notify n w) = some { s with
      notices := s.notices ++ [⟨n, ⟨c w, []⟩⟩],
      journal := .sign (.thread n) (.called w) :: .notify (.thread n) w :: s.journal }) ∧
    ∀ w next waiting, s.registry.step ⟨.notify w next, waiting⟩ =
      ⟨s.registry, [.called w], .running ⟨c w, next :: waiting⟩⟩
  /-- So nothing is missed from then on, whatever happens. -/
  silent : s.registry.isInstalled → ∀ t, Leads s t →
    t.missings = s.missings ∧ t.figure .missed = s.figure .missed
  /-- Nor is a submission refused for want of a callback. -/
  admitted : s.registry.isInstalled → ∀ x ∈ s.calls, x.stage = .asked → ∀ bs r t,
    s.Settles x.caller bs r t → refusalIn r ≠ some .wakeCallbackMissing
  /-- Once a task with a wake pointer is certain to end, at most two steps of its own, which nothing
  keeps it from taking, bring the call of a callback with this pointer. -/
  called : ∀ u ∈ s.tasks, ∀ w, u.envelope.wake = some w → ∀ e, u.stage.decided? = some e →
    ∃ n ≤ 2, ∃ t, s.after? (List.replicate n (.task u.id)) = some t ∧
      [.notify (.task u.id) w, .sign (.task u.id) (.called w)] <:+: t.life u.id
  /-- Before anybody can have its result the callback has returned and was counted. -/
  delivered : ∀ u ∈ s.tasks, ∀ w, u.envelope.wake = some w → ∀ e, s.ending? u.id = some e →
    [.notify (.task u.id) w, .sign (.task u.id) (.called w)] <:+: s.life u.id ∧
      0 < s.share .delivered u.id
  /-- Nothing is ever missed on behalf of a task, nor is it counted so. -/
  spared : ∀ id, s.share .missed id = 0 ∧ ∀ v, .sign (.task id) (.missed v) ∉ s.journal
  /-- What was missed is what threads outside notified of before the first callback was installed,
  and is counted as such. -/
  missed : s.missings = earlyNotifications as ∧
    s.figure .missed = (earlyNotifications as).length

theorem noneMissed (hf : State.startWith site hosted settings = .running first)
    (hs : first.after? as = some s) : NoneMissed as s := by
  have hfirst : first.Reachable := ⟨site, hosted, settings, first, hf, .here⟩
  have h := hfirst.after hs
  have hmissed : s.missings = earlyNotifications as := by
    obtain rfl := eq_start_of_startWith hf
    exact missings_after hfirst ⟨rfl, rfl⟩ hs
  refine ⟨?_, fun hi t ht => ⟨ht.isInstalled hi, fun wake => ?_⟩, fun hi => ?_,
    fun hi t ht => ?_,
    fun hi x hx hb bs r t hset => hset.not_callbackMissing h hi hx hb,
    fun u hu w hw e hd => h.exists_called hu hw hd, fun u hu w hw e he => ?_, fun id => ?_,
    hmissed, by rw [h.missed_eq, hmissed]⟩
  · obtain rfl := eq_start_of_startWith hf
    exact isInstalled_after hfirst ⟨rfl, rfl⟩ hs
  · rw [Registry.ready, ht.isInstalled hi, Bool.or_true]
  · obtain ⟨c, hc⟩ := Option.isSome_iff_exists.mp hi
    exact ⟨c, hc, fun n w hn => step?_notify_of_some hc hn w,
      fun w next waiting => by simp only [Registry.step, hc]⟩
  · have hm := ht.missings hi
    exact ⟨hm, by rw [(h.leads ht).missed_eq, h.missed_eq, hm]⟩
  · have hl := h.lives.tasks u hu
    have hstage := h.coherent.stage_of_ending? hu he
    refine ⟨(hw ▸ hl).called (by rw [hstage]; rfl), ?_⟩
    exact ((endsInOrder hf hs hu).result e he w hw).2.1
  · have hnone := h.not_missed id
    refine ⟨List.countP_eq_zero.mpr fun m hm hc => ?_, hnone⟩
    cases m with
    | sign source x =>
      cases x with
      | missed v =>
        have hof := (List.mem_filter.mp hm).2
        cases source with
        | task i =>
          obtain rfl : i = id := by simpa [Mark.isOf] using hof
          exact hnone v (mem_journal_of_mem_life hm)
        | thread n => cases hof
      | note | called | returned => cases hc
    | _ => cases hc

/-- A pointer is missed before there is a callback; then the callback is replaced by the first one
that runs, and one more task is told of, and a thread notifies, after the relay was given up. -/
def missedOnce : List Action := List.flatten [
  [.notify 7 ⟨8, by decide⟩, .install Observer.successor.callback,
    .submit 0 .direct (.comingTo (.failure (.message "no")) (WakePointer.ofAddress? 16))],
  List.replicate 4 (.call (.thread 0)), List.replicate 9 (.task 0),
  [.submit 0 .direct (.comingTo (.value .null) (WakePointer.ofAddress? 24))],
  List.replicate 4 (.call (.thread 0)),
  [.drop, .cancel 1 false], List.replicate 4 (.task 1),
  [.notify 7 ⟨32, by decide⟩], List.replicate 2 (.react 7)]

theorem noneMissed_missedOnce : ∃ s, State.plain.after? missedOnce = some s ∧ s.dropped ∧
    s.missings.map (fun x => x.2.address) = [8] ∧ s.figures = [2, 0, 0, 1, 0, 3, 1] ∧
      (s.ending? 0).isSome ∧ (s.ending? 1).isSome ∧ NoneMissed missedOnce s := by
  obtain ⟨s, hs, -, hd, hm, hfig, h0, h1⟩ := exists_run (P := fun s => s.dropped ∧
    s.missings.map (fun x => x.2.address) = [8] ∧ s.figures = [2, 0, 0, 1, 0, 3, 1] ∧
      (s.ending? 0).isSome ∧ (s.ending? 1).isSome) missedOnce (by decide +kernel)
  have hfirst : State.startWith .generous false (.default .one) = .running .plain := rfl
  exact ⟨s, hs, hd, hm, hfig, h0, h1, noneMissed hfirst hs⟩

end TaskRelay
