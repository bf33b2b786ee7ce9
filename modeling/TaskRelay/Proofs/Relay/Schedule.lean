import Mathlib
import TaskRelay.Call.Layer
import TaskRelay.Proofs.Relay.Accepted
import TaskRelay.Proofs.Relay.Traces

/-!
# Results do not depend on the schedule

Self-contained callables come to the same in every order of the steps, on threads of any number and
of any owner: what each task leaves is certain from the beginning, so that all of them together
leave the same, in another order at most (`Charted`).
Main statement: `Schedule.sameResults`.
-/

namespace TaskRelay

variable {s t : State} {a : Action} {as : List Action} {x : Call} {u : Task}

/-! ## Charted runs -/

/-- An action by which nothing but a self-contained callable is submitted, no pool ends, and neither
a notification of a thread's own nor another callback comes in. -/
def Action.IsOrdinary : Action → Prop
  | .submit _ _ e => e.IsSelfContained
  | .install _ | .notify _ _ | .drop | .killHost => False
  | _ => True

/-- What tasks have left and what is due from them is what they are going to leave altogether. -/
structure Charted (s : State) : Prop where
  callback : ∃ c, s.registry.callback = some c ∧ c.Records
  notices : s.notices = []
  up : ∀ n, (s.pools.get? n).isSome → s.pools.isUp n
  calls : ∀ y ∈ s.calls, y.envelope.IsSelfContained
  tasks : ∀ u ∈ s.tasks, u.OnCourse s.pools
  balanced : ∀ p, s.traces.countP p + (s.tasks.map fun u => (u.due s.pools).countP p).sum =
    (s.tasks.map fun u => (u.envelope.traces u.id).countP p).sum

namespace Charted

/-- Nothing else in a state matters. -/
theorem keep (h : Charted s) (hr : t.registry.callback = s.registry.callback)
    (hm : t.traces = s.traces) (ht : t.tasks = s.tasks) (hp : t.pools = s.pools)
    (hn : t.notices = s.notices) (hc : ∀ y ∈ t.calls, y.envelope.IsSelfContained) :
    Charted t where
  callback := hr ▸ h.callback
  notices := hn.trans h.notices
  up := hp ▸ h.up
  calls := hc
  tasks := by
    rw [ht, hp]
    exact h.tasks
  balanced p := by
    rw [hm, ht, hp]
    exact h.balanced p

/-- No task waits for an answer. -/
theorem answer (h : Charted s) (c : Caller) (r : Except RelayError Ticket) :
    Charted (s.answer c r) := by
  have hb : SameBack s (s.answer c r) := .answer c r
  refine h.keep (by rw [hb.registry]) hb.traces ?_ (s.answer_pools c r) (s.answer_notices c r) ?_
  · obtain ⟨tasks, he, rfl | ⟨u, next, -, hu, hs, -⟩⟩ := s.answer_eq c r
    · rw [he]
    · have := (h.tasks u (task?_spec hu).1).isSome_destiny
      rw [hs] at this
      cases this
  · exact fun y hy => h.calls y ((s.mem_answer c r).mp hy).1

/-- All that a new task is going to leave is due. -/
theorem launch (h : Charted s) {e : Envelope} (he : e.IsSelfContained) {pool : PoolName}
    (ha : (s.pools.get? pool).isSome) (id : Nat) (c : Caller) :
    Charted (s.launch id c pool e) := by
  obtain ⟨hcourse, hdue⟩ := Task.OnCourse.launch he (h.up pool ha) id c
  refine ⟨h.callback, h.notices, h.up, h.calls, fun u hu => ?_, fun p => ?_⟩
  · rcases s.mem_launch.mp hu with hu | rfl
    · exact h.tasks u hu
    · exact hcourse
  · have hb := h.balanced p
    have ht : (s.launch id c pool e).traces = s.traces := (SameBack.launch id c pool e).traces
    have hl : (s.launch id c pool e).tasks =
        s.tasks ++ [⟨id, c, e, pool, false, .suspended e.program⟩] := rfl
    have hp : (s.launch id c pool e).pools = s.pools := rfl
    rw [ht, hl, hp]
    simp only [List.map_append, List.map_cons, List.map_nil, List.sum_append, List.sum_cons,
      List.sum_nil, hdue]
    omega

theorem callMove (h : Charted s) (hr : s.Reachable) (hx : x ∈ s.calls) (m : CallMove s x t) :
    Charted t := by
  have hb := m.sameBack
  have hset : ∀ {stage}, ∀ y ∈ (s.setCall x.caller stage).calls, y.envelope.IsSelfContained := by
    intro stage y hy
    rcases eq_or_ne_of_mem_setCall hr.coherent hx hy with rfl | ⟨hy, -⟩
    · exact h.calls x hx
    · exact h.calls y hy
  cases m with
  | refuse => exact h.answer _ _
  | allow | lock | number | count | send | receive =>
    exact h.keep (by rw [hb.registry]) hb.traces rfl rfl rfl hset
  | launch hs =>
    have ha := (hr.admitted x hx (by rw [hs]; simp)).1
    exact (h.launch (h.calls x hx) ha _ _).answer _ _
  | abandon hw hs => exact absurd hw (hr.handover.worker_ne_gone hx hs)
  | unlock =>
    have h' : Charted (s.setHolder none) := h.keep rfl rfl rfl rfl rfl h.calls
    exact h'.answer _ _

theorem workerMove (h : Charted s) (hh : Handover s) (m : WorkerMove s t) : Charted t := by
  have hb := m.sameBack
  cases m with
  | @launch k id hw =>
    obtain ⟨y, rfl, hy⟩ := hh.of_counted hw
    have ha : (s.pools.get? .parallel).isSome := rfl
    have hl := h.launch (h.calls y hy.mem) ha id y.caller
    exact hl.keep rfl rfl rfl rfl rfl hl.calls
  | _ => exact h.keep (by rw [hb.registry]) hb.traces rfl rfl rfl h.calls

theorem taskMove (h : Charted s) (hc : Coherent s) (hu : u ∈ s.tasks) (m : TaskMove s u a t)
    (hs : s.step? a = some t) : Charted t := by
  have hcourse := h.tasks u hu
  obtain ⟨c, hcb, hrec⟩ := h.callback
  have ha : a = .task u.id := by
    cases m with
    | cancel _ hp | cancelUnwinding _ hp =>
      -- the pool of the task is up
      rw [hcourse.up] at hp
      cases hp
    | _ => rfl
  have hpools := m.pools_eq
  have hcalls := m.sameFront.calls
  have hnotices : t.notices = s.notices := by
    cases m with
    | notify | react => simp only [State.afterTurn, State.noteSigns_eq, State.setStage, State.note]
    | _ => rfl
  subst ha
  obtain ⟨f, ms, hl⟩ := exists_leavesDue hc hu hcourse hcb hrec hs
  refine ⟨⟨c, hl.callback.trans hcb, hrec⟩, hnotices.trans h.notices, hpools ▸ h.up,
    hcalls ▸ h.calls, fun v hv => ?_, fun p => ?_⟩
  · rw [hl.tasks] at hv
    rw [hpools]
    rcases mem_change.mp hv with ⟨w, hw, hid, rfl⟩ | ⟨hv, -⟩
    · obtain rfl := hc.eq_of_id_eq hw hu hid
      exact hl.onCourse
    · exact h.tasks v hv
  · -- what the step has left is due no longer
    have hb := h.balanced p
    have hdue := congrArg (List.countP p) hl.due
    have hsum := sum_change hc.ids_nodup hu f fun v => (v.due s.pools).countP p
    have hall : (t.tasks.map fun v => (v.envelope.traces v.id).countP p) =
        s.tasks.map fun v => (v.envelope.traces v.id).countP p := by
      rw [hl.tasks]
      exact map_map_change (fun v => by rw [(hl.keep v).1, (hl.keep v).2]) u.id
    rw [hall, hpools, traces_of_marks hl.journal, hl.tasks, List.countP_append]
    rw [List.countP_append] at hdue
    omega

theorem step (h : Charted s) (hr : s.Reachable) (ha : a.IsOrdinary) (hs : s.step? a = some t) :
    Charted t := by
  cases move_of_step? hs with
  | outside m =>
    cases m with
    | install | killHost | notify => exact absurd ha id
    | react n =>
      rw [State.step?, h.notices] at hs
      cases hs
    | _ => exact h.keep rfl rfl rfl rfl rfl h.calls
  | ask =>
    refine h.keep rfl (SameBack.ask _ _ _).traces rfl rfl rfl fun y hy => ?_
    rcases s.mem_ask.mp hy with hy | rfl
    · exact h.calls y hy
    · exact ha
  | askInside hx hp =>
    have := (h.tasks _ (task?_spec hx).1).isSome_destiny
    rw [hp] at this
    cases this
  | call hx m => exact h.callMove hr (call?_spec hx).1 m
  | worker m => exact h.workerMove hr.handover m
  | close => exact h.keep rfl (SameBack.close _ _).traces rfl rfl rfl h.calls
  | drop => exact absurd ha id
  | task hx m => exact h.taskMove hr.coherent (task?_spec hx).1 m hs

theorem after (h : Charted s) (hr : s.Reachable) (ha : ∀ a ∈ as, a.IsOrdinary)
    (hs : s.after? as = some t) : Charted t := by
  induction as generalizing s with
  | nil =>
    obtain rfl := Option.some.inj hs
    exact h
  | cons a as ih =>
    obtain ⟨v, hv, hs⟩ := Option.bind_eq_some_iff.mp hs
    obtain ⟨ha, has⟩ := List.forall_mem_cons.mp ha
    exact ih (h.step hr ha hv) (hr.step hv) has hs

/-- When all tasks are through they have left everything. -/
theorem traces_perm (h : Charted s) (hu : ∀ u ∈ s.tasks, u.isResolved) :
    s.traces.Perm (s.tasks.flatMap fun u => u.envelope.traces u.id) := by
  classical
  rw [List.perm_iff_count]
  intro m
  have hb := h.balanced (· == m)
  have hnone : (s.tasks.map fun u => (u.due s.pools).countP (· == m)).sum = 0 := by
    rw [List.sum_eq_zero_iff]
    intro n hn
    obtain ⟨u, hmem, rfl⟩ := List.mem_map.mp hn
    rw [Task.OnCourse.due_of_resolved (hu u hmem), List.countP_nil]
  rw [hnone, Nat.add_zero] at hb
  rw [List.count_flatMap]
  exact hb

end Charted

/-! ## Relays that have just started -/

theorem isUp_around {parallel : Pool} (hp : parallel.stage = .up) (settings : Settings)
    (n : PoolName) (h : ((Pools.around parallel settings).get? n).isSome) :
    (Pools.around parallel settings).isUp n := by
  rw [Pools.isUp, Pools.stage]
  cases n with
  | parallel => exact beq_iff_eq.mpr hp
  | interactive =>
    by_cases h0 : settings.interactiveThreads = 0
    · simp [Pools.around, Pools.get?, h0] at h
    · simp [Pools.around, Pools.get?, h0]
  | single =>
    cases h0 : settings.localPool with
    | false => simp [Pools.around, Pools.get?, h0] at h
    | true => simp [Pools.around, Pools.get?, h0]

/-- The pools of a relay that has just started are up, whoever owns them. -/
theorem charted_install {site : Site} {hosted : Bool} {settings : Settings} {first : State}
    {c : Callback} (hf : State.startWith site hosted settings = .running first) (hc : c.Records) :
    Charted { first with registry := first.registry.install c } := by
  obtain ⟨q, hq, -, hup⟩ := Pools.ofSettings_eq_around hosted settings
  obtain rfl := eq_start_of_startWith hf
  rw [hq]
  exact ⟨⟨c, rfl, hc⟩, rfl, isUp_around hup settings, by simp [State.start],
    by simp [State.start], fun _ => rfl⟩

/-! ## Schedules -/

/-- A complete run of some relay with one callback that only records, in which these submissions are
accepted, numbered in this order, and nothing is left to be done. -/
structure Schedule (q : List (Entry × Envelope)) where
  site : Site
  hosted : Bool
  settings : Settings
  first : State
  callback : Callback
  actions : List Action
  last : State
  started : State.startWith site hosted settings = .running first
  records : callback.Records
  ordinary : ∀ a ∈ actions, a.IsOrdinary
  run : first.after? (.install callback :: actions) = some last
  accepted : last.accepted.Perm (numbered q)
  answered : last.calls = []
  resolved : ∀ u ∈ last.tasks, u.isResolved

/-- The wake pointer that a mark says a callback was called with. -/
def Mark.delivery? : Mark → Option WakePointer
  | .sign _ (.called w) => some w
  | _ => none

/-- The wake pointers that callbacks were called with, in order. -/
def State.deliveries (s : State) : List WakePointer := s.history.filterMap Mark.delivery?

/-- A reading of marks that sees the traces alone. -/
theorem filterMap_traces {α : Type} {f : Mark → Option α}
    (hf : ∀ m : Mark, m.isTrace = false → f m = none) (s : State) :
    s.history.filterMap f = s.traces.filterMap f := by
  rw [State.traces, List.filterMap_filter]
  refine List.filterMap_congr fun m _ => ?_
  cases hm : m.isTrace with
  | true => rfl
  | false => exact hf m hm

theorem isTrace_of_counts {m : Mark} {f : Figure} (h : f.counts m) : m.isTrace := by
  cases m with
  | sign source x => cases x <;> first | rfl | cases f <;> cases h
  | recorded | cancelledUnwinding => rfl
  | _ => cases f <;> cases h

theorem map_numbered (q : List (Entry × Envelope)) :
    (numbered q).map (fun k => (k.entry, k.envelope)) = q :=
  List.ext_getElem (by simp [numbered]) fun i _ _ => by simp [numbered]

/-- What the tasks of these submissions leave. -/
def tracesOf (q : List (Entry × Envelope)) : List Mark :=
  (numbered q).flatMap fun k => k.envelope.traces k.id

/-- What a figure comes to with these submissions. -/
def figureOf (q : List (Entry × Envelope)) : Figure → Nat
  | .direct => q.countP fun x => x.1 != .serial
  | .dispatched => q.countP fun x => !(x.1 != .serial)
  | f => (tracesOf q).countP f.counts

namespace Schedule

variable {q : List (Entry × Envelope)} (z : Schedule q)

theorem reachable_first : z.first.Reachable :=
  ⟨z.site, z.hosted, z.settings, z.first, z.started, .here⟩

theorem reachable : z.last.Reachable := z.reachable_first.after z.run

theorem charted : Charted z.last := by
  have hinstall : z.first.step? (.install z.callback) =
      some { z.first with registry := z.first.registry.install z.callback } := rfl
  refine (charted_install z.started z.records).after (z.reachable_first.step hinstall) z.ordinary ?_
  exact (after?_cons hinstall z.actions).symm.trans z.run

/-- The tasks are the submissions, numbered in their order. -/
theorem tasks_perm : (z.last.tasks.map fun u => (u.id, u.envelope)).Perm
    ((numbered q).map fun k => (k.id, k.envelope)) :=
  (z.reachable.accepted_perm_tasks z.answered).symm.trans (z.accepted.map _)

theorem traces_perm : z.last.traces.Perm (tracesOf q) := by
  have h := z.tasks_perm.flatMap_right fun k => k.2.traces k.1
  rw [List.flatMap_map, List.flatMap_map] at h
  exact (z.charted.traces_perm z.resolved).trans h

theorem logs_perm : z.last.logs.Perm ((tracesOf q).filterMap Mark.log?) := by
  rw [State.logs, filterMap_traces fun m hm => ?_]
  · exact z.traces_perm.filterMap _
  · cases m with
    | sign source x => cases x <;> first | rfl | cases hm
    | loggedFailure | recorded | cancelledUnwinding => cases hm
    | _ => rfl

theorem deliveries_perm : z.last.deliveries.Perm ((tracesOf q).filterMap Mark.delivery?) := by
  rw [State.deliveries, filterMap_traces fun m hm => ?_]
  · exact z.traces_perm.filterMap _
  · cases m with
    | sign source x => cases x <;> first | rfl | cases hm
    | _ => rfl

theorem handles_perm : z.last.handles.Perm ((numbered q).map Acceptance.ticket) := by
  rw [z.reachable.handles_eq]
  exact z.accepted.map _

/-- Each task ends as the course of its own callable says. -/
theorem exists_outcome {k : Acceptance} (hk : k ∈ numbered q) :
    ∃ o, k.envelope.ending? = some (.outcome o) ∧ z.last.ending? k.id = some (.outcome o) := by
  have hpair : (k.id, k.envelope) ∈ z.last.tasks.map fun u => (u.id, u.envelope) :=
    z.tasks_perm.mem_iff.mpr (List.mem_map.mpr ⟨k, hk, rfl⟩)
  obtain ⟨u, hu, he⟩ := List.mem_map.mp hpair
  obtain ⟨hid, henv⟩ := Prod.mk.inj he
  have hcourse := z.charted.tasks u hu
  obtain ⟨o, ho⟩ := Option.isSome_iff_exists.mp hcourse.selfContained.outcome
  have hend : u.envelope.ending? = some (.outcome o) := by
    rw [Envelope.ending?, ho]
    rfl
  obtain ⟨e, he⟩ := Option.isSome_iff_exists.mp (z.resolved u hu)
  have hstage : u.stage = .resolved e := by
    cases hs : u.stage <;> simp [Task.ending?, Stage.ending?, hs] at he ⊢
    exact he
  refine ⟨o, henv ▸ hend, ?_⟩
  rw [State.ending?, ← hid, z.reachable.coherent.task?_eq hu, ← hend, hcourse.of_resolved hstage]
  exact he

theorem figure_eq (f : Figure) : z.last.figure f = figureOf q f := by
  have hr := z.reachable
  have hdirect : z.last.counters.direct = q.countP fun x => x.1 != .serial := by
    rw [hr.direct_eq z.answered, z.accepted.countP_eq]
    conv_rhs => rw [← map_numbered q, List.countP_map]
    rfl
  have htraces : f.isOfSubmissions = false → z.last.figure f = (tracesOf q).countP f.counts := by
    intro hf
    rw [hr.figure_eq hf, ← z.traces_perm.countP_eq, State.traces, State.history,
      List.countP_filter, List.countP_reverse]
    refine List.countP_congr fun m _ => ?_
    rw [Bool.and_eq_true]
    exact ⟨fun h => ⟨h, isTrace_of_counts h⟩, And.left⟩
  cases f with
  | direct => exact hdirect
  | dispatched =>
    have hsum := hr.direct_add_dispatched z.answered
    have hlen : z.last.accepted.length = q.length := by
      rw [z.accepted.length_eq]
      simp [numbered]
    have hsplit := List.length_eq_countP_add_countP (l := q) fun x => x.1 != .serial
    show z.last.counters.dispatched = q.countP fun x => !(x.1 != .serial)
    simp only [decide_not, Bool.decide_eq_true] at hsplit
    omega
  | completed | failed | panicked | delivered | missed => exact htraces rfl

end Schedule

/-- What one can see of two relays that are through. -/
structure SameResults (s t : State) : Prop where
  /-- Submitters were given the same handles. -/
  handles : s.handles.Perm t.handles
  /-- Each of them has its outcome, and the same one. -/
  outcomes : ∀ k ∈ s.handles, ∃ o, s.ending? k.id = some (.outcome o) ∧
    t.ending? k.id = some (.outcome o)
  figures : s.figures = t.figures
  deliveries : s.deliveries.Perm t.deliveries
  logs : s.logs.Perm t.logs

theorem Schedule.sameResults {q : List (Entry × Envelope)} (y z : Schedule q) :
    SameResults y.last z.last where
  handles := y.handles_perm.trans z.handles_perm.symm
  outcomes k hk := by
    obtain ⟨k, hmem, rfl⟩ := List.mem_map.mp (y.handles_perm.mem_iff.mp hk)
    obtain ⟨o, ho, hy⟩ := y.exists_outcome hmem
    obtain ⟨o', ho', hz⟩ := z.exists_outcome hmem
    exact ⟨o, hy, hz.trans (ho'.symm.trans ho)⟩
  figures := List.map_congr_left fun f _ => (y.figure_eq f).trans (z.figure_eq f).symm
  deliveries := y.deliveries_perm.trans z.deliveries_perm.symm
  logs := y.logs_perm.trans z.logs_perm.symm

/-- An envelope with a callable that suspends this often and then comes to the outcome. -/
def Envelope.pausing (n : Nat) (o : Outcome) (wake : Option WakePointer) : Envelope :=
  ⟨⟨"callable", fun _ => Program.pause^[n] (.finish o)⟩, .empty, wake⟩

/-- With a layer that logs failures. -/
def Envelope.logged (e : Envelope) : Envelope := { e with callable := e.callable.logged }

theorem isSelfContained_pausing (n : Nat) (o : Outcome) (wake : Option WakePointer) :
    (Envelope.pausing n o wake).IsSelfContained := by
  have hcourse : ∀ th, (Program.pause^[n] (.finish o)).course th = ⟨[], some o⟩ := by
    intro th
    induction n with
    | zero => rfl
    | succ n ih =>
      rw [Function.iterate_succ_apply']
      exact ih
  refine ⟨?_, fun th => (hcourse th).trans (hcourse "").symm⟩
  show ((Program.pause^[n] (.finish o)).course "").outcome.isSome
  rw [hcourse]
  rfl

/-- A failure that is logged, a value and a panic, by three ways. -/
def threeWays : List (Entry × Envelope) := [
  (.direct, (Envelope.pausing 1 (.failure (.message "no")) (WakePointer.ofAddress? 8)).logged),
  (.serial, .pausing 0 (.value .null) (WakePointer.ofAddress? 16)),
  (.single, .pausing 2 (.panic .other) none)]

/-- One after another. -/
def inOrder : List Action := List.flatten [
  [.submit 0 .direct (Envelope.pausing 1 (.failure (.message "no"))
    (WakePointer.ofAddress? 8)).logged],
  List.replicate 4 (.call (.thread 0)), List.replicate 10 (.task 0),
  [.submit 1 .serial (.pausing 0 (.value .null) (WakePointer.ofAddress? 16))],
  List.replicate 3 (.call (.thread 1)), List.replicate 5 .worker,
  List.replicate 2 (.call (.thread 1)), List.replicate 7 (.task 1),
  [.submit 0 .single (.pausing 2 (.panic .other) none)],
  List.replicate 4 (.call (.thread 0)), List.replicate 9 (.task 2)]

/-- The task that came last ends first, and the first one last. -/
def interleaved : List Action := List.flatten [
  [.submit 0 .direct (Envelope.pausing 1 (.failure (.message "no"))
    (WakePointer.ofAddress? 8)).logged],
  List.replicate 4 (.call (.thread 0)), List.replicate 3 (.task 0),
  [.submit 1 .serial (.pausing 0 (.value .null) (WakePointer.ofAddress? 16))],
  List.replicate 3 (.call (.thread 1)), List.replicate 3 .worker,
  [.submit 0 .single (.pausing 2 (.panic .other) none), .task 0],
  List.replicate 4 (.call (.thread 0)), List.replicate 9 (.task 2), List.replicate 2 .worker,
  List.replicate 2 (.call (.thread 1)), List.replicate 7 (.task 1), List.replicate 6 (.task 0)]

theorem sameResults_threeWays : ∃ y z : Schedule threeWays, y.hosted = false ∧ z.hosted = true ∧
    y.last.figures = [2, 1, 1, 1, 1, 2, 0] ∧
    y.last.deliveries.map WakePointer.address = [8, 16] ∧
    z.last.deliveries.map WakePointer.address = [16, 8] ∧
    y.last.logs.map LogEvent.figure? = [none, some .failed, some .panicked] ∧
    z.last.logs.map LogEvent.figure? = [none, some .panicked, some .failed] ∧
    SameResults y.last z.last := by
  have hlogged : (Envelope.pausing 1 (.failure (.message "no"))
      (WakePointer.ofAddress? 8)).logged.IsSelfContained := ⟨rfl, fun _ => rfl⟩
  have hordinary : (∀ a ∈ inOrder, a.IsOrdinary) ∧ ∀ a ∈ interleaved, a.IsOrdinary := by
    simp [inOrder, interleaved, Action.IsOrdinary, hlogged, isSelfContained_pausing]
  obtain ⟨s, hs, hfig, hwakes, hlogs, hcalls, hres⟩ := exists_after? (P := fun s =>
    s.figures = [2, 1, 1, 1, 1, 2, 0] ∧ s.deliveries.map WakePointer.address = [8, 16] ∧
    s.logs.map LogEvent.figure? = [none, some .failed, some .panicked] ∧
    s.calls.length = 0 ∧ ∀ u ∈ s.tasks, u.isResolved)
    .plain (.install Observer.first.callback :: inOrder) (by decide +kernel)
  obtain ⟨t, ht, hwakes', hlogs', hcalls', hres'⟩ := exists_after? (P := fun s =>
    s.deliveries.map WakePointer.address = [16, 8] ∧
    s.logs.map LogEvent.figure? = [none, some .panicked, some .failed] ∧
    s.calls.length = 0 ∧ ∀ u ∈ s.tasks, u.isResolved)
    (.attached (.default .one)) (.install Observer.second.callback :: interleaved)
    (by decide +kernel)
  have hacc : s.accepted = numbered threeWays := by
    have h : (State.plain.after? (.install Observer.first.callback :: inOrder)).map
        State.accepted = some (numbered threeWays) := rfl
    rw [hs] at h
    exact Option.some.inj h
  have hacc' : t.accepted.Perm (numbered threeWays) := by
    have h : ((State.attached (.default .one)).after?
        (.install Observer.second.callback :: interleaved)).map State.accepted =
          some [⟨0, threeWays[0].1, threeWays[0].2⟩, ⟨2, threeWays[2].1, threeWays[2].2⟩,
            ⟨1, threeWays[1].1, threeWays[1].2⟩] := rfl
    rw [ht] at h
    rw [Option.some.inj h]
    exact (List.Perm.swap _ _ []).cons _
  let y : Schedule threeWays := ⟨.generous, false, .default .one, .plain, _, _, s, rfl,
    fun _ => .note .finish, hordinary.1, hs, hacc ▸ .refl _,
    List.eq_nil_of_length_eq_zero hcalls, hres⟩
  let z : Schedule threeWays := ⟨.generous, true, .default .one, .attached (.default .one), _, _, t,
    rfl, fun _ => .note .finish, hordinary.2, ht, hacc',
    List.eq_nil_of_length_eq_zero hcalls', hres'⟩
  exact ⟨y, z, rfl, rfl, hfig, hwakes, hwakes', hlogs, hlogs', y.sameResults z⟩

end TaskRelay
