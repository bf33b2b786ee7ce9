import Mathlib
import TaskRelay.Proofs.Relay.Handover

/-!
# What becomes of a submission

A submission that was accepted went through all of its steps, once and in order, with its own
envelope; one that was refused went through none (`Answers`). The tasks are those that were
launched, and the id of each was given to its submitter or is on the way there (`Accounts`).
Main statements: `State.Reachable.answers`, `State.Reachable.accounts`.
-/

namespace TaskRelay

variable {s t : State} {x : Call}

/-! ## Submissions that were answered -/

/-- All steps of a submission through the dispatch. -/
def serialSteps (c : Caller) (e : Envelope) (id : Nat) : List Mark :=
  [.locked c, .sent c, .launched id c e, .received c (State.ticket id e)]

namespace Submission

/-- All steps of a submission that becomes the task with this id. -/
def allSteps (x : Submission) (id : Nat) : List Mark :=
  if x.entry = .serial then serialSteps x.caller x.envelope id
  else [.launched id x.caller x.envelope]

/-- Everything was done for it and the answer is its own handle, or nothing was done. -/
def IsServed (x : Submission) : Prop :=
  match x.answer with
  | .ok t => t = State.ticket t.id x.envelope ∧ x.steps = x.allSteps t.id
  | .error _ => x.steps = []

theorem launched_mem_allSteps (x : Submission) (id : Nat) :
    .launched id x.caller x.envelope ∈ x.allSteps id := by
  unfold allSteps
  split_ifs <;> simp [serialSteps]

end Submission

theorem submissionsIn_answered {c : Caller} {entry : Entry} {e : Envelope} {journal : List Mark}
    (h : lastAsked c journal = some (entry, e)) (r : Except RelayError Ticket) :
    submissionsIn (.answered c r :: journal) =
      ⟨c, entry, e, stepsSince c journal, r⟩ :: submissionsIn journal := by
  simp [submissionsIn, Mark.submission?, h]

theorem mem_of_mem_stepsSince {c : Caller} {m : Mark} {journal : List Mark}
    (h : m ∈ stepsSince c journal) : m ∈ journal := by
  rw [stepsSince, List.mem_reverse, List.mem_filter] at h
  exact List.takeWhile_subset _ h.1

/-- The steps of a submission stand in the journal. -/
theorem mem_of_mem_steps {z : Submission} {m : Mark} {journal : List Mark}
    (hz : z ∈ submissionsIn journal) (hm : m ∈ z.steps) : m ∈ journal := by
  induction journal with
  | nil => cases hz
  | cons n before ih =>
    -- it was answered by this mark, or before
    rw [submissionsIn, List.mem_append, Option.mem_toList] at hz
    rcases hz with hz | hz
    · cases n with
      | answered c r =>
        obtain ⟨q, -, rfl⟩ := Option.map_eq_some_iff.mp hz
        exact List.mem_cons_of_mem _ (mem_of_mem_stepsSince hm)
      | _ => cases hz
    · exact List.mem_cons_of_mem _ (ih hz)

/-- The id of the task that an accepted submission became. -/
def Submission.acceptedId? (z : Submission) : Option Nat :=
  (Mark.answered z.caller z.answer).acceptedId?

/-- What was accepted was answered so. -/
theorem acceptedIds_sublist (journal : List Mark) :
    ((submissionsIn journal).filterMap Submission.acceptedId?).Sublist
      (journal.filterMap Mark.acceptedId?) := by
  induction journal with
  | nil => exact .slnil
  | cons m before ih =>
    have hskip : (m :: before).filterMap Mark.acceptedId? =
        m.acceptedId?.toList ++ before.filterMap Mark.acceptedId? := by
      cases hm : m.acceptedId? <;> simp [hm]
    rw [submissionsIn, List.filterMap_append, hskip]
    refine List.Sublist.append ?_ ih
    cases m with
    | answered c r =>
      cases hq : lastAsked c before with
      | none => simp [Mark.submission?, hq]
      | some q =>
        simp only [Mark.submission?, hq, Option.map_some, Option.toList_some, List.filterMap_cons,
          List.filterMap_nil, Submission.acceptedId?]
        cases (Mark.answered c r).acceptedId? <;> exact List.Sublist.refl _
    | _ => exact List.nil_sublist _

structure Answers (s : State) : Prop where
  /-- A submission under way is what its caller asked for last. -/
  asked : ∀ y ∈ s.calls, lastAsked y.caller s.journal = some (y.entry, y.envelope)
  /-- Only the worker draws ids for submissions through the dispatch. -/
  direct : ∀ y ∈ s.calls, y.stage.id?.isSome → y.entry ≠ .serial
  served : ∀ z ∈ submissionsIn s.journal, z.IsServed

namespace Answers

theorem of_sameFront (h : Answers s) (hf : SameFront s t) : Answers t where
  asked := by
    rw [hf.calls]
    intro y hy
    rw [hf.lastAsked, h.asked y hy]
  direct := by
    rw [hf.calls]
    exact h.direct
  served := by
    rw [hf.submissionsIn]
    exact h.served

theorem setCall (h : Answers s) {stage : CallStage}
    (hx : x ∈ s.calls) (hid : stage.id?.isSome → x.entry ≠ .serial)
    (hcalls : t.calls = (s.setCall x.caller stage).calls) (hc : Coherent s)
    (hl : ∀ c, lastAsked c t.journal = lastAsked c s.journal)
    (hs : submissionsIn t.journal = submissionsIn s.journal) : Answers t where
  asked := by
    rw [hcalls]
    intro y hy
    rw [hl]
    rcases eq_or_ne_of_mem_setCall hc hx hy with rfl | ⟨hy, -⟩
    · exact h.asked x hx
    · exact h.asked y hy
  direct := by
    rw [hcalls]
    intro y hy
    rcases eq_or_ne_of_mem_setCall hc hx hy with rfl | ⟨hy, -⟩
    · exact hid
    · exact h.direct y hy
  served := by
    rw [hs]
    exact h.served

theorem answer (h : Answers s) (hx : x ∈ s.calls) {r : Except RelayError Ticket}
    (hr : Submission.IsServed ⟨x.caller, x.entry, x.envelope, stepsSince x.caller s.journal, r⟩) :
    Answers (s.answer x.caller r) where
  asked := by
    rw [State.answer_calls, State.answer_journal]
    intro y hy
    rw [lastAsked_other rfl]
    exact h.asked y (List.mem_of_mem_filter hy)
  direct := by
    rw [State.answer_calls]
    exact fun y hy => h.direct y (List.mem_of_mem_filter hy)
  served := by
    rw [State.answer_journal, submissionsIn_answered (h.asked x hx)]
    exact List.forall_mem_cons.mpr ⟨hr, h.served⟩

theorem launch (h : Answers s) (id : Nat) (c : Caller) (pool : PoolName) (e : Envelope) :
    Answers (s.launch id c pool e) where
  asked y hy := (lastAsked_other rfl).trans (h.asked y hy)
  direct := h.direct
  served := h.served

theorem callMove (h : Answers s) (hc : Coherent s) (hh : Handover s) (hx : x ∈ s.calls)
    (m : CallMove s x t) : Answers t := by
  cases m with
  | refuse hr =>
    have ho : x.stage.isInside = false := by cases hr <;> simp [*, CallStage.isInside]
    exact h.answer hx (hh.begin x hx ho)
  | allow => exact h.setCall hx (fun hi => by cases hi) rfl hc (fun _ => rfl) rfl
  | lock | send | receive =>
    exact h.setCall hx (fun hi => by cases hi) rfl hc (fun _ => lastAsked_other rfl) rfl
  | number _ he => exact h.setCall hx (fun _ => he) rfl hc (fun _ => rfl) rfl
  | count hs =>
    exact h.setCall hx (fun _ => h.direct x hx (by rw [hs]; rfl)) rfl hc (fun _ => rfl) rfl
  | @launch id hs =>
    have hn := hh.begin x hx (by rw [hs]; rfl)
    have he := h.direct x hx (by rw [hs]; rfl)
    refine (h.launch id x.caller x.entry.pool x.envelope).answer hx ⟨rfl, ?_⟩
    show stepsSince x.caller (.launched id x.caller x.envelope :: s.journal) = _
    rw [stepsSince_step (by simp [Mark.isStepOf]), hn, Submission.allSteps, if_neg he]
    rfl
  | abandon hw hs => exact absurd hw (hh.worker_ne_gone hx hs)
  | unlock hs =>
    obtain ⟨id, rfl, hp⟩ := hh.of_received hx hs
    have h' : Answers (s.setHolder none) := ⟨h.asked, h.direct, h.served⟩
    refine h'.answer hx ⟨rfl, ?_⟩
    rw [Submission.allSteps, if_pos hp.serial]
    exact hp.steps

theorem workerMove (h : Answers s) (m : WorkerMove s t) : Answers t := by
  cases m with
  | launch | publish =>
    exact ⟨fun y hy => (lastAsked_other rfl).trans (h.asked y hy), h.direct, h.served⟩
  | _ => exact ⟨h.asked, h.direct, h.served⟩

theorem ask (h : Answers s) {c : Caller} (hc : c ∉ s.calls.map Call.caller) (entry : Entry)
    (e : Envelope) : Answers (s.ask c entry e) where
  asked y hy := by
    rcases s.mem_ask.mp hy with hy | rfl
    · have hne : y.caller ≠ c := fun he => hc (he ▸ List.mem_map_of_mem hy)
      rw [← h.asked y hy]
      exact lastAsked_of_caller? fun he => hne (Option.some.inj he).symm
    · exact lastAsked_asked entry e
  direct y hy hi := by
    rcases s.mem_ask.mp hy with hy | rfl
    · exact h.direct y hy hi
    · cases hi
  served := h.served

end Answers

theorem Move.answers {a : Action} (hc : Coherent s) (hh : Handover s) (h : Answers s)
    (m : Move s a t) : Answers t := by
  cases m with
  | outside m => exact h.of_sameFront m.sameFront
  | ask _ hn => exact h.ask (not_mem_callers hn) _ _
  | @askInside x entry name body args wake next hx hs =>
    have h' : Answers (s.setStage x.id (.submitting next)) := h.of_sameFront (.setStage _ _)
    exact h'.ask (hc.not_asking (task?_spec hx).1 hs) _ _
  | call hx m => exact h.callMove hc hh (call?_spec hx).1 m
  | worker m => exact h.workerMove m
  | close => exact ⟨fun y hy => (lastAsked_other rfl).trans (h.asked y hy), h.direct, h.served⟩
  | drop => exact ⟨h.asked, h.direct, h.served⟩
  | task hx m => exact h.of_sameFront m.sameFront

theorem State.Reachable.answers (h : s.Reachable) : Answers s := by
  refine h.induct (fun pools color => ?_) fun _ _ _ hr => Move.answers hr.coherent hr.handover
  exact ⟨by simp [State.start], by simp [State.start], by simp [State.start, submissionsIn]⟩

/-! ## Tasks and accepted submissions -/

def CallStage.ticketId? : CallStage → Option Nat
  | .received t => some t.id
  | _ => none

def WorkerStage.ticketId? : WorkerStage → Option Nat
  | .launched t => some t.id
  | _ => none

/-- The ids of the handles that the worker holds or has put into its queue. -/
def Dispatch.ticketIds (d : Dispatch) : List Nat :=
  d.worker.ticketId?.toList ++ (d.outbound.map Ticket.id).toList

/-- In how many places a handle with this id is that its submitter is still waiting for. -/
def State.onTheWay (s : State) (i : Nat) : Nat :=
  s.dispatch.ticketIds.count i + s.calls.countP fun x => x.stage.ticketId? == some i

structure Accounts (s : State) : Prop where
  launches : s.launches = s.tasks.map Task.launchMark
  /-- The id of each task was answered once, or is on the way. -/
  accepted : ∀ i, s.acceptedIds.count i + s.onTheWay i = (s.tasks.map Task.id).count i

theorem filterMap_history {α : Type} (f : Mark → Option α) {m : Mark}
    (h : t.journal = m :: s.journal) :
    t.history.filterMap f = s.history.filterMap f ++ (f m).toList := by
  rw [State.history, h, List.reverse_cons, List.filterMap_append]
  cases hf : f m <;> simp [hf, State.history]

theorem launches_of_mark {m : Mark} (h : t.journal = m :: s.journal) :
    t.launches = s.launches ++ m.launch?.toList :=
  filterMap_history _ h

theorem acceptedIds_of_mark {m : Mark} (h : t.journal = m :: s.journal) :
    t.acceptedIds = s.acceptedIds ++ m.acceptedId?.toList :=
  filterMap_history _ h

theorem onTheWay_setCall (hd : (s.calls.map Call.caller).Nodup) (hx : x ∈ s.calls)
    (stage : CallStage) (i : Nat) :
    (s.setCall x.caller stage).onTheWay i + x.stage.ticketId?.toList.count i =
      s.onTheWay i + stage.ticketId?.toList.count i := by
  have h := countP_change hd hx (fun y => { y with stage := stage })
    fun y => y.stage.ticketId? == some i
  rw [count_toList, count_toList]
  unfold State.onTheWay State.setCall
  dsimp only at h ⊢
  omega

theorem onTheWay_answer (hd : (s.calls.map Call.caller).Nodup) (hx : x ∈ s.calls)
    (r : Except RelayError Ticket) (i : Nat) :
    (s.answer x.caller r).onTheWay i + x.stage.ticketId?.toList.count i = s.onTheWay i := by
  have h := countP_remove hd hx fun y => y.stage.ticketId? == some i
  rw [count_toList]
  simp only [State.onTheWay, State.answer_calls, State.answer_dispatch]
  omega

namespace Accounts

theorem of_sameFront (h : Accounts s) (hf : SameFront s t) : Accounts t where
  launches := by rw [hf.launches, hf.launchMarks, h.launches]
  accepted i := by
    rw [hf.acceptedIds, hf.ids, ← h.accepted i]
    simp only [State.onTheWay, hf.dispatch, hf.calls]

/-- An answer gives the submitter what is on the way to it, or nothing if nothing is. -/
theorem answer (h : Accounts s) (hd : (s.calls.map Call.caller).Nodup) (hx : x ∈ s.calls)
    {r : Except RelayError Ticket}
    (hr : (Mark.answered x.caller r).acceptedId? = x.stage.ticketId?) :
    Accounts (s.answer x.caller r) where
  launches := by
    rw [launches_of_mark (s.answer_journal _ _), State.answer_launchMarks, h.launches]
    exact List.append_nil _
  accepted i := by
    have ho := onTheWay_answer hd hx r i
    have hi := h.accepted i
    rw [acceptedIds_of_mark (s.answer_journal _ _), State.answer_ids, List.count_append, hr]
    omega

/-- A handle may pass from the queue to the call that moves. -/
theorem setCall (h : Accounts s) (hd : (s.calls.map Call.caller).Nodup) (hx : x ∈ s.calls)
    (d : Dispatch) (stage : CallStage)
    (he : ∀ i, d.ticketIds.count i + stage.ticketId?.toList.count i =
      s.dispatch.ticketIds.count i + x.stage.ticketId?.toList.count i) :
    Accounts ({ s with dispatch := d }.setCall x.caller stage) where
  launches := by
    rw [State.setCall]
    exact h.launches
  accepted i := by
    have ho := onTheWay_setCall (s := { s with dispatch := d }) hd hx stage i
    have hi := h.accepted i
    have hs := he i
    show s.acceptedIds.count i + _ = (s.tasks.map Task.id).count i
    unfold State.onTheWay at hi ho ⊢
    dsimp only at ho
    omega

theorem note (h : Accounts s) {m : Mark} (hl : m.launch? = none) (ha : m.acceptedId? = none) :
    Accounts (s.note m) where
  launches := by
    rw [launches_of_mark (s := s) rfl, hl, Option.toList_none, List.append_nil]
    exact h.launches
  accepted i := by
    rw [acceptedIds_of_mark (s := s) rfl, ha, Option.toList_none, List.append_nil]
    exact h.accepted i

theorem of_dispatch (h : Accounts s) (d : Dispatch)
    (hd : ∀ i, d.ticketIds.count i = s.dispatch.ticketIds.count i) :
    Accounts { s with dispatch := d } where
  launches := h.launches
  accepted i := by
    rw [← h.accepted i]
    simp only [State.onTheWay, hd]
    rfl

theorem launch_launches (h : Accounts s) (id : Nat) (c : Caller) (pool : PoolName) (e : Envelope) :
    (s.launch id c pool e).launches = (s.launch id c pool e).tasks.map Task.launchMark := by
  rw [launches_of_mark (s := s) rfl, h.launches]
  simp [State.launch, State.note, Mark.launch?, Task.launchMark]

/-- A task that was launched just now is still to be answered. -/
theorem launch_accepted (h : Accounts s) (id : Nat) (c : Caller) (pool : PoolName) (e : Envelope)
    (i : Nat) :
    (s.launch id c pool e).acceptedIds.count i + (s.launch id c pool e).onTheWay i +
      [id].count i = ((s.launch id c pool e).tasks.map Task.id).count i := by
  rw [acceptedIds_of_mark (s := s) rfl]
  simp [State.onTheWay, State.launch, State.note, Mark.acceptedId?, ← h.accepted i]

theorem callMove (h : Accounts s) (hc : Coherent s) (hx : x ∈ s.calls) (m : CallMove s x t) :
    Accounts t := by
  have hd := hc.callers
  cases m with
  | refuse hr =>
    exact h.answer hd hx (by cases hr <;> simp [*, CallStage.ticketId?, Mark.acceptedId?])
  | allow hs => exact h.setCall hd hx s.dispatch .admitted fun i => by rw [hs]; rfl
  | lock hs =>
    have h' := h.setCall hd hx { s.dispatch with holder := some x.caller } .locked
      fun i => by rw [hs]; rfl
    exact h'.note rfl rfl
  | number hs =>
    have h' := h.setCall hd hx s.dispatch (.numbered s.nextId) fun i => by rw [hs]; rfl
    exact ⟨h'.launches, h'.accepted⟩
  | @count id hs =>
    have h' := h.setCall hd hx s.dispatch (.counted id) fun i => by rw [hs]; rfl
    exact ⟨h'.launches, h'.accepted⟩
  | @launch id hs =>
    refine ⟨?_, fun i => ?_⟩
    · rw [launches_of_mark (State.answer_journal _ _ _), State.answer_launchMarks,
        h.launch_launches]
      exact List.append_nil _
    · have ho := onTheWay_answer (s := s.launch id x.caller x.entry.pool x.envelope) hd hx
        (.ok (State.ticket id x.envelope)) i
      have hi := h.launch_accepted id x.caller x.entry.pool x.envelope i
      rw [hs] at ho
      rw [acceptedIds_of_mark (State.answer_journal _ _ _), State.answer_ids, List.count_append]
      simp only [CallStage.ticketId?, Mark.acceptedId?, State.ticket, Option.toList_none,
        Option.toList_some, List.count_nil] at ho ⊢
      omega
  | abandon _ hs =>
    have h' := h.of_dispatch { s.dispatch with holder := none } fun _ => rfl
    refine h'.answer hd hx ?_
    rcases hs with hs | ⟨hs, -⟩ <;> rw [hs] <;> rfl
  | send hs =>
    have h' := h.setCall hd hx { s.dispatch with inbound := some ⟨x.caller, x.envelope⟩ } .sent
      fun i => by rw [hs]; rfl
    exact h'.note rfl rfl
  | @receive tk hs ho =>
    have h' := h.setCall hd hx { s.dispatch with outbound := none } (.received tk) fun i => by
      rw [hs]
      simp [Dispatch.ticketIds, CallStage.ticketId?, ho]
    exact h'.note rfl rfl
  | unlock hs =>
    have h' := h.of_dispatch { s.dispatch with holder := none } fun _ => rfl
    exact h'.answer hd hx (by rw [hs]; rfl)

theorem workerMove (h : Accounts s) (hh : Handover s) (m : WorkerMove s t) : Accounts t := by
  cases m with
  | take hw | leave hw =>
    exact h.of_dispatch _ fun i => by simp [Dispatch.ticketIds, WorkerStage.ticketId?, hw]
  | @number p hw =>
    have h' := h.of_dispatch { s.dispatch with worker := .numbered p s.nextId } fun i => by
      simp [Dispatch.ticketIds, WorkerStage.ticketId?, hw]
    exact ⟨h'.launches, h'.accepted⟩
  | @count p id hw =>
    have h' := h.of_dispatch { s.dispatch with worker := .counted p id } fun i => by
      simp [Dispatch.ticketIds, WorkerStage.ticketId?, hw]
    exact ⟨h'.launches, h'.accepted⟩
  | @launch p id hw =>
    refine ⟨h.launch_launches id p.sender .parallel p.envelope, fun i => ?_⟩
    have hi := h.launch_accepted id p.sender .parallel p.envelope i
    have hw' : (s.launch id p.sender .parallel p.envelope).dispatch.worker = .counted p id := hw
    simp only [State.onTheWay, Dispatch.ticketIds, hw', WorkerStage.ticketId?, List.count_append,
      Option.toList_none, List.count_nil] at hi
    simp only [State.onTheWay, Dispatch.ticketIds, State.setWorker, WorkerStage.ticketId?,
      State.ticket, List.count_append, Option.toList_some]
    show List.count i (s.launch id p.sender .parallel p.envelope).acceptedIds + _ = _
    omega
  | @lose tk hw ho =>
    -- a worker with a handle is within a handover, which keeps the dispatch open
    rcases hh.phase with hv | ⟨x, p, hp⟩
    · have := hv.worker
      simp [hw] at this
    · rw [hp.isOpen] at ho
      cases ho
  | @publish tk hw ho hi =>
    have h' := h.of_dispatch { s.dispatch with outbound := some tk, worker := .idle } fun i => by
      simp [Dispatch.ticketIds, WorkerStage.ticketId?, hw, hi]
    exact h'.note rfl rfl

theorem ask (h : Accounts s) (c : Caller) (entry : Entry) (e : Envelope) :
    Accounts (s.ask c entry e) where
  launches := by
    rw [launches_of_mark (s := s) rfl]
    exact (List.append_nil _).trans h.launches
  accepted i := by
    rw [acceptedIds_of_mark (s := s) rfl]
    simpa [State.onTheWay, State.ask, State.note, CallStage.ticketId?, Mark.acceptedId?]
      using h.accepted i

end Accounts

theorem Move.accounts {a : Action} (hc : Coherent s) (hh : Handover s) (h : Accounts s)
    (m : Move s a t) : Accounts t := by
  cases m with
  | outside m => exact h.of_sameFront m.sameFront
  | ask => exact h.ask _ _ _
  | @askInside x entry name body args wake next =>
    have h' : Accounts (s.setStage x.id (.submitting next)) := h.of_sameFront (.setStage _ _)
    exact h'.ask _ _ _
  | call hx m => exact h.callMove hc (call?_spec hx).1 m
  | worker m => exact h.workerMove hh m
  | close =>
    have h' := h.of_dispatch { s.dispatch with isOpen := false } fun _ => rfl
    have h'' := h'.note (m := .closed) rfl rfl
    exact ⟨h''.launches, h''.accepted⟩
  | drop =>
    have h' := h.of_dispatch { s.dispatch with isOpen := false } fun _ => rfl
    exact ⟨h'.launches, h'.accepted⟩
  | task hx m => exact h.of_sameFront m.sameFront

theorem State.Reachable.accounts (h : s.Reachable) : Accounts s := by
  refine h.induct (fun pools color => ?_) fun _ _ _ hr => Move.accounts hr.coherent hr.handover
  exact ⟨rfl, fun i => rfl⟩

/-! ## What follows -/

namespace State.Reachable

/-- Whatever was launched is a task, with the envelope and the caller of the launch. -/
theorem mem_tasks_of_launched (h : s.Reachable) {id : Nat} {c : Caller} {e : Envelope}
    (hm : .launched id c e ∈ s.journal) :
    ∃ u ∈ s.tasks, u.id = id ∧ u.caller = c ∧ u.envelope = e := by
  have hl : .launched id c e ∈ s.launches :=
    List.mem_filterMap.mpr ⟨_, List.mem_reverse.mpr hm, rfl⟩
  rw [h.accounts.launches] at hl
  obtain ⟨u, hu, he⟩ := List.mem_map.mp hl
  obtain ⟨rfl, rfl, rfl⟩ := Mark.launched.inj he
  exact ⟨u, hu, rfl, rfl, rfl⟩

/-- No task is given to two submissions. -/
theorem acceptedIds_nodup (h : s.Reachable) : s.acceptedIds.Nodup := by
  rw [List.nodup_iff_count_le_one]
  intro i
  have hi := h.accounts.accepted i
  have hn := List.nodup_iff_count_le_one.mp h.coherent.ids_nodup i
  omega

/-- What was accepted has its task, with the envelope that was submitted. -/
theorem exists_task_of_accepted (h : s.Reachable) {z : Submission} (hz : z ∈ s.submissions)
    {k : Ticket} (hk : z.answer = .ok k) :
    ∃ u ∈ s.tasks, u.id = k.id ∧ u.caller = z.caller ∧ u.envelope = z.envelope := by
  have hz' := List.mem_reverse.mp hz
  have hs := h.answers.served z hz'
  rw [Submission.IsServed, hk] at hs
  have hm := z.launched_mem_allSteps k.id
  rw [← hs.2] at hm
  exact h.mem_tasks_of_launched (mem_of_mem_steps hz' hm)

theorem submissions_acceptedIds_nodup (h : s.Reachable) :
    (s.submissions.filterMap Submission.acceptedId?).Nodup := by
  have hn := h.acceptedIds_nodup
  rw [State.acceptedIds, State.history, List.filterMap_reverse, List.nodup_reverse] at hn
  rw [State.submissions, List.filterMap_reverse, List.nodup_reverse]
  exact hn.sublist (acceptedIds_sublist s.journal)

/-- Without a submission under way every task was given to its submitter. -/
theorem acceptedIds_perm (h : s.Reachable) (hc : s.calls = []) :
    s.acceptedIds.Perm (s.tasks.map Task.id) := by
  rw [List.perm_iff_count]
  intro i
  rcases h.handover.phase with hv | ⟨x, p, hp⟩
  · have hw : s.dispatch.worker.ticketId? = none := by
      rcases hv.worker with hw | ⟨hw, -⟩ <;> rw [hw] <;> rfl
    have hi := h.accounts.accepted i
    simpa [State.onTheWay, Dispatch.ticketIds, hw, hv.outbound, hc] using hi
  · have := hp.mem
    rw [hc] at this
    cases this

end State.Reachable

end TaskRelay
