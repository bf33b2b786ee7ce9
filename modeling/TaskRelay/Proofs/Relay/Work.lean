import Mathlib
import TaskRelay.Proofs.Relay.Closing
import TaskRelay.Proofs.Relay.Queues

/-!
# The dispatch gets done

Every step of a submission, of the dispatch worker and of a thread inside `shutdown` brings the
dispatch nearer to rest: what is left to do (`State.work`) gets less. And while anything is left,
one of them can take a step, whatever the tasks do: the holder of the lock or the worker can while
the lock is held, and otherwise whoever waits for the lock. So all submissions and all calls of
`shutdown` return without a step of anybody else.
Main statement: `State.Reachable.unblocked`.
-/

namespace TaskRelay

variable {s t : State} {x y : Call} {a : Action}

/-! ## What is left to do -/

/-- How many steps there are still to take for a submission, at most, the worker's among them. -/
def CallStage.left : CallStage → Nat
  | .asked => 10
  | .admitted => 9
  | .numbered _ => 2
  | .counted _ => 1
  | .locked => 8
  | .sent => 2
  | .received _ => 1

/-- How many steps the worker has still to take until it is gone. -/
def WorkerStage.left : WorkerStage → Nat
  | .idle => 1
  | .holding _ => 5
  | .numbered _ _ => 4
  | .counted _ _ => 3
  | .launched _ => 2
  | .gone => 0

def Dispatch.left (d : Dispatch) : Nat := d.worker.left + 5 * d.inbound.toList.length

def Closer.left (x : Closer) : Nat := if x.joining then 1 else 2

namespace State

def callsLeft (s : State) : Nat := (s.calls.map fun y => y.stage.left).sum

/-- What the submissions, the worker and the threads inside `shutdown` have still to do. -/
def work (s : State) : Nat := s.callsLeft + s.dispatch.left + (s.closers.map Closer.left).sum

end State

/-- A step of a submission, of the worker, or of a thread inside `shutdown`. -/
def Action.isOfDispatch : Action → Bool
  | .call _ | .worker | .close _ => true
  | _ => false

/-- A step of a submission or of the worker. -/
def Action.isOfFront : Action → Bool
  | .call _ | .worker => true
  | _ => false

theorem callsLeft_setCall (hd : (s.calls.map Call.caller).Nodup) (hx : x ∈ s.calls)
    (stage : CallStage) :
    (s.setCall x.caller stage).callsLeft + x.stage.left = s.callsLeft + stage.left :=
  sum_change hd hx (fun y => { y with stage := stage }) fun y => y.stage.left

theorem callsLeft_answer (hd : (s.calls.map Call.caller).Nodup) (hx : x ∈ s.calls)
    (r : Except RelayError Ticket) :
    (s.answer x.caller r).callsLeft + x.stage.left = s.callsLeft := by
  rw [State.callsLeft, State.answer_calls]
  exact sum_remove hd hx fun y => y.stage.left

/-- A call moves on, and there is less to do for it. -/
theorem work_setCall (hd : (s.calls.map Call.caller).Nodup) (hx : x ∈ s.calls) {stage : CallStage}
    (hcalls : t.calls = (s.setCall x.caller stage).calls) (hclosers : t.closers = s.closers)
    (hl : stage.left + t.dispatch.left < x.stage.left + s.dispatch.left) : t.work < s.work := by
  have h := callsLeft_setCall hd hx stage
  rw [State.callsLeft, ← hcalls] at h
  rw [State.work, State.work, hclosers, State.callsLeft]
  omega

/-- An answer leaves nothing to do for the submission. -/
theorem work_answer (hd : (s.calls.map Call.caller).Nodup) (hx : x ∈ s.calls)
    (r : Except RelayError Ticket) : (s.answer x.caller r).work + x.stage.left = s.work := by
  have h := callsLeft_answer hd hx r
  rw [State.work, State.work, State.answer_dispatch, State.answer_closers]
  omega

theorem CallStage.left_pos (stage : CallStage) : 0 < stage.left := by
  cases stage <;> exact Nat.succ_pos _

theorem CallMove.work_lt (hc : Coherent s) (hx : x ∈ s.calls) (m : CallMove s x t) :
    t.work < s.work := by
  have hd := hc.callers
  have hpos := x.stage.left_pos
  cases m with
  | @refuse e hr =>
    have := work_answer hd hx (.error e)
    omega
  | allow hs | lock hs | number hs | count hs =>
    refine work_setCall hd hx rfl rfl ?_
    rw [hs]
    exact Nat.add_lt_add_right (by simp [CallStage.left]) s.dispatch.left
  | @launch id hs =>
    have := work_answer (s := s.launch id x.caller x.entry.pool x.envelope) hd hx
      (.ok (State.ticket id x.envelope))
    exact (Nat.lt_add_of_pos_right hpos).trans_eq this
  | abandon _ hs =>
    have := work_answer (s := s.setHolder none) hd hx (.error .dispatchClosed)
    exact (Nat.lt_add_of_pos_right hpos).trans_eq this
  | send hs hi =>
    refine work_setCall hd hx rfl rfl ?_
    rw [hs]
    simp only [Dispatch.left, State.note, State.setCall, CallStage.left, hi, Option.toList]
    simp
    omega
  | receive hs ho =>
    refine work_setCall hd hx rfl rfl ?_
    rw [hs]
    exact Nat.add_lt_add_right (by simp [CallStage.left]) s.dispatch.left
  | @unlock k hs =>
    have := work_answer (s := s.setHolder none) hd hx (.ok k)
    exact (Nat.lt_add_of_pos_right hpos).trans_eq this

theorem work_setWorker (hcalls : t.calls = s.calls) (hclosers : t.closers = s.closers)
    (hl : t.dispatch.left < s.dispatch.left) : t.work < s.work := by
  rw [State.work, State.work, State.callsLeft, State.callsLeft, hcalls, hclosers]
  omega

theorem WorkerMove.work_lt (m : WorkerMove s t) : t.work < s.work := by
  cases m with
  | take hw hi =>
    refine work_setWorker rfl rfl ?_
    simp [Dispatch.left, WorkerStage.left, hw, hi]
  | leave hw | number hw | count hw | launch hw | lose hw | publish hw =>
    refine work_setWorker rfl rfl ?_
    simp [Dispatch.left, WorkerStage.left, State.setWorker, State.launch, State.note, hw]

/-- A thread that closes the dispatch has less to do, and one that leaves has nothing. -/
theorem work_of_stepCloser? {x : Closer} (hx : x ∈ s.closers) (h : s.stepCloser? x = some t) :
    t.work < s.work := by
  have hsub : (s.closers.filter fun y => y.thread != x.thread).Sublist (s.closers.erase x) := by
    have := List.filter_sublist (p := fun y : Closer => y.thread != x.thread) (l := s.closers)
    rw [← List.erase_of_not_mem (a := x) (l := s.closers.filter fun y => y.thread != x.thread)
      (by simp)]
    exact this.erase x
  have hsum : ((s.closers.filter fun y => y.thread != x.thread).map Closer.left).sum + x.left ≤
      (s.closers.map Closer.left).sum := by
    have h1 := (hsub.map Closer.left).sum_le_sum (by simp)
    have h2 := List.sum_map_erase (f := Closer.left) hx
    omega
  have hpos : 0 < x.left := by
    unfold Closer.left
    split_ifs <;> decide
  unfold State.stepCloser? at h
  simp only at h
  split_ifs at h with hj hh ho
  · split at h
    · obtain rfl := Option.some.inj h
      simp only [State.work, State.callsLeft] at hsum ⊢
      omega
    · cases h
  · obtain rfl := Option.some.inj h
    have hl : x.left = 2 := if_neg hj
    simp only [State.work, State.callsLeft, State.note, Dispatch.left, List.map_cons,
      List.sum_cons] at hsum ⊢
    have : Closer.left ⟨x.thread, true⟩ = 1 := rfl
    omega
  · obtain rfl := Option.some.inj h
    simp only [State.work, State.callsLeft] at hsum ⊢
    omega

theorem work_lt (hc : Coherent s) (ha : a.isOfDispatch) (h : s.step? a = some t) :
    t.work < s.work := by
  cases a with
  | call c =>
    obtain ⟨x, hx, hs⟩ := Option.bind_eq_some_iff.mp h
    exact (callMove_of_stepCall? hs).work_lt hc (call?_spec hx).1
  | worker => exact (workerMove_of_stepWorker? h).work_lt
  | close n =>
    obtain ⟨x, hx, hs⟩ := Option.bind_eq_some_iff.mp h
    exact work_of_stepCloser? (List.mem_of_find?_eq_some hx) hs
  | _ => cases ha

/-- Such steps come to an end. -/
theorem length_add_work_le {as : List Action} (h : s.Reachable) (ha : ∀ a ∈ as, a.isOfDispatch)
    (hs : s.after? as = some t) : as.length + t.work ≤ s.work := by
  induction as generalizing s with
  | nil =>
    obtain rfl := Option.some.inj hs
    exact (Nat.zero_add _).le
  | cons a as ih =>
    obtain ⟨u, hu, hs⟩ := Option.bind_eq_some_iff.mp hs
    have h1 := work_lt h.coherent (ha a (List.mem_cons_self ..)) hu
    have h2 := ih (h.step hu) (fun b hb => ha b (List.mem_cons_of_mem _ hb)) hs
    rw [List.length_cons]
    omega

/-- Steps of some kinds can be taken until there is none left to take. -/
theorem exists_exhausted (p : Action → Prop) (hp : ∀ a, p a → a.isOfDispatch) (h : s.Reachable) :
    ∃ as t, s.after? as = some t ∧ (∀ a ∈ as, p a) ∧ ∀ a, p a → t.step? a = none := by
  -- by induction on what is left to do
  induction hn : s.work using Nat.strong_induction_on generalizing s with
  | _ n ih =>
    by_cases hs : ∀ a, p a → s.step? a = none
    · exact ⟨[], s, rfl, by simp, hs⟩
    · push Not at hs
      obtain ⟨a, ha, hs⟩ := hs
      obtain ⟨u, hu⟩ := Option.ne_none_iff_exists'.mp hs
      obtain ⟨as, t, ht, has, hend⟩ :=
        ih u.work (hn ▸ work_lt h.coherent (hp a ha) hu) (h.step hu) rfl
      refine ⟨a :: as, t, ?_, List.forall_mem_cons.mpr ⟨ha, has⟩, hend⟩
      show (s.step? a).bind _ = _
      rw [hu]
      exact ht

/-! ## Who can step -/

/-- Whoever is outside can go on while the lock is free. -/
theorem Vacant.canCall (h : Vacant s) (hc : Coherent s) (hy : y ∈ s.calls) :
    (s.step? (.call y.caller)).isSome := by
  have ho := h.outside y hy
  have hstep : s.step? (.call y.caller) = s.stepCall? y := by
    show (s.call? y.caller).bind s.stepCall? = _
    rw [hc.call?_eq hy]
    rfl
  rw [hstep]
  unfold State.stepCall?
  cases hs : y.stage with
  | asked => dsimp only; split_ifs <;> rfl
  | admitted => simp only [h.holder]; split_ifs <;> first | rfl | simp_all
  | numbered | counted => rfl
  | locked | sent | received =>
    rw [hs] at ho
    cases ho

/-- Whoever is within a submission can go on while the lock is free, and otherwise its holder or the
worker can. -/
theorem exists_callStep (h : s.Reachable) (hy : y ∈ s.calls) :
    (∃ x ∈ s.calls, (x = y ∨ x.entry = .serial) ∧ (s.step? (.call x.caller)).isSome) ∨
      (s.step? .worker).isSome := by
  have hc := h.coherent
  rcases h.handover.phase with hv | ⟨x, p, hp⟩
  · exact .inl ⟨y, hy, .inl rfl, hv.canCall hc hy⟩
  · exact (hp.canStep (hc.call?_eq hp.mem)).imp_left fun hs => ⟨x, hp.mem, .inr hp.serial, hs⟩

/-- A thread inside `shutdown` can go on while the lock is free, or the worker can leave. -/
theorem Vacant.canClose (hv : Vacant s) (h : s.Reachable) (hn : s.closers ≠ []) :
    (∃ n, (s.step? (.close n)).isSome) ∨ (s.step? .worker).isSome := by
  obtain ⟨x, rest, hx⟩ := List.exists_cons_of_ne_nil hn
  have hfind : s.step? (.close x.thread) = s.stepCloser? x := by
    show (s.closers.find? _).bind _ = _
    rw [hx, List.find?_cons_of_pos (by simp)]
    rfl
  cases hj : x.joining with
  | false =>
    refine .inl ⟨x.thread, ?_⟩
    rw [hfind]
    unfold State.stepCloser?
    simp only [hj, hv.holder]
    split_ifs <;> first | rfl | simp_all
  | true =>
    have ho := h.isOpen_of_joining x (by rw [hx]; exact List.mem_cons_self ..) hj
    rcases hv.worker with hw | ⟨hw, -⟩
    · right
      simp [State.step?, State.stepWorker?, hw, hv.inbound, ho]
    · refine .inl ⟨x.thread, ?_⟩
      rw [hfind]
      simp [State.stepCloser?, hj, hw]

/-- A step of a submission through the dispatch, of the worker, or of a thread inside `shutdown`. -/
def State.Serves (s : State) : Action → Prop
  | .call c => ∃ y ∈ s.calls, y.caller = c ∧ y.entry = .serial
  | .worker | .close _ => True
  | _ => False

theorem State.Reachable.exists_serves (h : s.Reachable)
    (hn : (∃ y ∈ s.calls, y.entry = .serial) ∨ s.closers ≠ []) :
    ∃ a, s.Serves a ∧ (s.step? a).isSome := by
  rcases hn with ⟨y, hy, he⟩ | hn
  · rcases exists_callStep h hy with ⟨x, hx, hxy, hs⟩ | hs
    · have hxe : x.entry = .serial := by
        rcases hxy with rfl | hxy
        · exact he
        · exact hxy
      exact ⟨.call x.caller, ⟨x, hx, rfl, hxe⟩, hs⟩
    · exact ⟨.worker, trivial, hs⟩
  · rcases h.handover.phase with hv | ⟨x, p, hp⟩
    · rcases hv.canClose h hn with ⟨n, hs⟩ | hs
      · exact ⟨.close n, trivial, hs⟩
      · exact ⟨.worker, trivial, hs⟩
    · rcases hp.canStep (h.coherent.call?_eq hp.mem) with hs | hs
      · exact ⟨.call x.caller, ⟨x, hp.mem, rfl, hp.serial⟩, hs⟩
      · exact ⟨.worker, trivial, hs⟩

/-! ## Nobody is left waiting -/

/-- Where no submission can go on and the worker cannot either, no submission is left. -/
theorem State.Reachable.calls_eq_nil (h : s.Reachable)
    (hend : ∀ a, a.isOfFront → s.step? a = none) : s.calls = [] := by
  by_contra hn
  obtain ⟨y, hy⟩ := List.exists_mem_of_ne_nil _ hn
  rcases exists_callStep h hy with ⟨x, -, -, hs⟩ | hs
  · rw [hend _ rfl] at hs
    cases hs
  · rw [hend _ rfl] at hs
    cases hs

/-- All submissions can be answered by steps of submissions and of the worker alone. -/
theorem State.Reachable.exists_answered (h : s.Reachable) : ∃ as t, s.after? as = some t ∧
    (∀ a ∈ as, a.isOfFront) ∧ t.calls = [] := by
  obtain ⟨as, t, ht, has, hend⟩ := exists_exhausted (fun a => a.isOfFront = true)
    (fun a ha => by cases a <;> first | rfl | cases ha) h
  exact ⟨as, t, ht, has, (h.after ht).calls_eq_nil hend⟩

/-- So each of them can be. -/
theorem State.Reachable.exists_settles (h : s.Reachable) (hx : x ∈ s.calls) :
    ∃ bs r t, (∀ b ∈ bs, b.isOfFront) ∧ s.Settles x.caller bs r t := by
  obtain ⟨as, t, ht, ha, hn⟩ := h.exists_answered
  rcases course h hx ht with ⟨stage, hm, -⟩ | ⟨bs, cs, r, w, rfl, hset, -⟩
  · rw [hn] at hm
    cases hm
  · exact ⟨bs, r, w, fun b hb => ha b (List.mem_append_left _ hb), hset⟩

/-- With the steps of threads inside `shutdown` all of these return, too. -/
theorem State.Reachable.exists_emptied (h : s.Reachable) : ∃ as t, s.after? as = some t ∧
    (∀ a ∈ as, a.isOfDispatch) ∧ t.calls = [] ∧ t.closers = [] := by
  obtain ⟨as, t, ht, has, hend⟩ := exists_exhausted (fun a => a.isOfDispatch = true)
    (fun a ha => ha) h
  have htr := h.after ht
  refine ⟨as, t, ht, has, htr.calls_eq_nil fun a ha => hend a ?_, ?_⟩
  · cases a <;> first | rfl | cases ha
  · by_contra hn
    obtain ⟨a, ha, hs⟩ := htr.exists_serves (.inr hn)
    rw [hend a (by cases a <;> first | rfl | cases ha)] at hs
    cases hs

structure Unblocked (s : State) : Prop where
  /-- While a submission through the dispatch or a call of `shutdown` is under way, one of them or
  the worker can take a step. -/
  lively : (∃ y ∈ s.calls, y.entry = .serial) ∨ s.closers ≠ [] →
    ∃ a, s.Serves a ∧ (s.step? a).isSome
  /-- All of them can return without a step of anybody else. -/
  returns : ∃ as t, s.after? as = some t ∧ (∀ a ∈ as, a.isOfDispatch) ∧
    t.calls = [] ∧ t.closers = []
  /-- They do, whatever the order, unless others get in between. -/
  bounded : ∀ as t, s.after? as = some t → (∀ a ∈ as, a.isOfDispatch) → as.length ≤ s.work
  /-- The holder of the lock never waits to send. -/
  send : ∀ y ∈ s.calls, y.stage = .locked → s.dispatch.inbound = none ∧
    ∃ t, s.step? (.call y.caller) = some t ∧ t.dispatch.inbound = some ⟨y.caller, y.envelope⟩
  /-- The worker never waits to publish, and always finds somebody to take the handle. -/
  publish : ∀ k, s.dispatch.worker = .launched k → s.dispatch.outbound = none ∧
    ∃ t, s.step? .worker = some t ∧ t.dispatch.outbound = some k ∧ t.dispatch.worker = .idle
  /-- The worker is there until the dispatch is closed. -/
  worker : s.dispatch.isOpen → s.dispatch.worker ≠ .gone
  /-- The holder of the lock never finds the worker gone. -/
  holder : ∀ c, s.dispatch.holder = some c → s.dispatch.isOpen ∧ s.dispatch.worker ≠ .gone ∧
    ∀ t, s.step? (.call c) = some t → ∀ e, t.answersTo c ≠ s.answersTo c ++ [.error e]

theorem Occupied.canSend (h : Occupied s x .locked) (hc : Coherent s) :
    s.dispatch.inbound = none ∧ ∃ t, s.step? (.call x.caller) = some t ∧
      t.dispatch.inbound = some ⟨x.caller, x.envelope⟩ := by
  have hd := h.dispatch
  have hstep : s.step? (.call x.caller) = some (({ s with
      dispatch := { s.dispatch with
        inbound := some ⟨x.caller, x.envelope⟩ } }.setCall x.caller .sent).note
          (.sent x.caller)) := by
    simp [State.step?, hc.call?_eq h.mem, State.stepCall?, h.stage, hd, Phase.stage, Phase.dispatch]
  exact ⟨by rw [hd]; rfl, _, hstep, rfl⟩

theorem Occupied.canPublish {id : Nat} (h : Occupied s x (.launched id)) {k : Ticket}
    (hk : s.dispatch.worker = .launched k) : s.dispatch.outbound = none ∧
    ∃ t, s.step? .worker = some t ∧ t.dispatch.outbound = some k ∧ t.dispatch.worker = .idle := by
  have hd := h.dispatch
  have hstep : s.step? .worker = some ({ s with
      dispatch := { s.dispatch with outbound := some k, worker := .idle } }.note
        (.published k)) := by
    have ho : s.dispatch.outbound = none := by rw [hd]; rfl
    simp [State.step?, State.stepWorker?, hk, h.isOpen, ho]
  exact ⟨by rw [hd]; rfl, _, hstep, rfl, rfl⟩

theorem Occupied.isDecided {p : Phase} (h : Occupied s x p) : x.isDecided := by
  rw [Call.isDecided, h.stage]
  cases p <;> rfl

theorem State.Reachable.unblocked (h : s.Reachable) : Unblocked s := by
  have hc := h.coherent
  have hh := h.handover
  refine ⟨h.exists_serves, h.exists_emptied, fun as t hs ha => ?_, fun y hy hs => ?_,
    fun k hk => ?_, fun ho hw => ?_, fun c hn => ?_⟩
  · have := length_add_work_le h ha hs
    omega
  · exact (hh.of_locked hy hs).canSend hc
  · rcases hh.phase with hv | ⟨x, p, hp⟩
    · have := hv.worker
      simp [hk] at this
    · have hd := hk
      rw [hp.dispatch] at hd
      cases p <;> cases hd
      exact hp.canPublish hk
  · rcases hh.phase with hv | ⟨x, p, hp⟩
    · have := hv.worker
      simp [hw, ho] at this
    · exact hp.worker_ne_gone hw
  · rcases hh.phase with hv | ⟨x, p, hp⟩
    · rw [hv.holder] at hn
      cases hn
    · rw [hp.holder] at hn
      obtain rfl := Option.some.inj hn
      exact ⟨hp.isOpen, hp.worker_ne_gone,
        fun t ht => not_refused_of_isDecided h hp.mem hp.isDecided ht⟩

/-- A thread has the lock and the worker its envelope, a task and another thread wait for it, and so
do two threads inside `shutdown`. -/
def crowd : List Action := List.flatten [
  [.submit 0 .direct (.submitting .serial (.comingTo (.value .null) none))],
  List.replicate 4 (.call (.thread 0)), List.replicate 2 (.task 0),
  [.submit 1 .serial (.comingTo (.value .null) none)], List.replicate 3 (.call (.thread 1)),
  [.worker, .submit 2 .serial (.comingTo (.value .null) none), .shutdown 3, .shutdown 4]]

theorem unblocked_crowd : ∃ s, State.plain.after? crowd = some s ∧
    s.calls.map Call.caller = [.task 0, .thread 1, .thread 2] ∧
      s.closers = [⟨3, false⟩, ⟨4, false⟩] ∧ s.dispatch.holder = some (.thread 1) ∧
        Unblocked s := by
  obtain ⟨s, hs, hr, h1, h2, h3⟩ := exists_run (P := fun s =>
    s.calls.map Call.caller = [.task 0, .thread 1, .thread 2] ∧
      s.closers = [⟨3, false⟩, ⟨4, false⟩] ∧ s.dispatch.holder = some (.thread 1))
    crowd (by decide +kernel)
  exact ⟨s, hs, h1, h2, h3, hr.unblocked⟩

end TaskRelay
