import Mathlib
import TaskRelay.Proofs.Relay.Programs
import TaskRelay.Proofs.Relay.Submissions
import TaskRelay.Wake.Observer

/-!
# The order in the queues

The two queues of the dispatch know nothing of each other, but whoever sends an envelope is the next
to take a handle: who received is who sent, as far as handles were published, and what was received
is what was published (`Queues`). The worker draws the ids of these handles in that order.
-/

namespace TaskRelay

variable {s t : State} {x : Call}

/-! ## What is between the ends of the queues -/

/-- The worker has an envelope, or the handle it got for it. -/
def WorkerStage.isBusy : WorkerStage → Bool
  | .idle | .gone => false
  | .holding _ | .numbered _ _ | .counted _ _ | .launched _ => true

/-- The id that the worker drew for the envelope it has. -/
def WorkerStage.drawn? : WorkerStage → Option Nat
  | .numbered _ id | .counted _ id => some id
  | .launched t => some t.id
  | _ => none

namespace Dispatch

/-- How many envelopes and handles are in the queues and with the worker. -/
def items (d : Dispatch) : Nat :=
  d.inbound.toList.length + d.worker.isBusy.toNat + d.outbound.toList.length

/-- Who is to take a handle out of the queue. -/
def pending (d : Dispatch) : List Caller := if d.items = 0 then [] else d.holder.toList

end Dispatch

structure Queues (s : State) : Prop where
  senders : s.senders = s.receipts.map Prod.fst ++ s.dispatch.pending
  publications : s.publications = s.receipts.map Prod.snd ++ s.dispatch.outbound.toList
  ascending : (s.publications.map Ticket.id ++ s.dispatch.worker.drawn?.toList).Pairwise (· < ·)
  bounded : ∀ i ∈ s.publications.map Ticket.id ++ s.dispatch.worker.drawn?.toList, i < s.nextId

theorem pending_setWorker {w : WorkerStage} (h : w.isBusy = s.dispatch.worker.isBusy) :
    (s.setWorker w).dispatch.pending = s.dispatch.pending := by
  have hi : (s.setWorker w).dispatch.items = s.dispatch.items := by
    simp only [Dispatch.items, State.setWorker, h]
  rw [Dispatch.pending, Dispatch.pending, hi]
  rfl

namespace Queues

theorem of_sameFront (h : Queues s) (hf : SameFront s t) : Queues t := by
  refine ⟨?_, ?_, ?_, ?_⟩
  · rw [hf.senders, hf.receipts, hf.dispatch, h.senders]
  · rw [hf.publications, hf.receipts, hf.dispatch, h.publications]
  · rw [hf.publications, hf.dispatch]
    exact h.ascending
  · rw [hf.publications, hf.dispatch, hf.nextId]
    exact h.bounded

/-- A step that is noted moves something from one end of a queue to the other. -/
theorem of_mark (h : Queues s) {m : Mark} (hj : t.journal = m :: s.journal)
    (hn : t.nextId = s.nextId)
    (hs : s.dispatch.pending ++ m.sender?.toList =
      (m.receipt?.map Prod.fst).toList ++ t.dispatch.pending)
    (hp : s.dispatch.outbound.toList ++ m.publication?.toList =
      (m.receipt?.map Prod.snd).toList ++ t.dispatch.outbound.toList)
    (hw : s.dispatch.worker.drawn?.toList =
      (m.publication?.map Ticket.id).toList ++ t.dispatch.worker.drawn?.toList) : Queues t := by
  have e₁ : t.senders = s.senders ++ m.sender?.toList := filterMap_history _ hj
  have e₂ : t.receipts = s.receipts ++ m.receipt?.toList := filterMap_history _ hj
  have e₃ : t.publications = s.publications ++ m.publication?.toList := filterMap_history _ hj
  have e₄ : t.publications.map Ticket.id ++ t.dispatch.worker.drawn?.toList =
      s.publications.map Ticket.id ++ s.dispatch.worker.drawn?.toList := by
    rw [e₃, hw, List.map_append, List.append_assoc, Option.toList_map]
  refine ⟨?_, ?_, ?_, ?_⟩
  · rw [e₁, e₂, h.senders, List.map_append, List.append_assoc, List.append_assoc, hs,
      Option.toList_map]
  · rw [e₃, e₂, h.publications, List.map_append, List.append_assoc, List.append_assoc, hp,
      Option.toList_map]
  · rw [e₄]
    exact h.ascending
  · rw [e₄, hn]
    exact h.bounded

theorem of_quiet (h : Queues s) (hj : t.journal = s.journal) (hn : s.nextId ≤ t.nextId)
    (hs : t.dispatch.pending = s.dispatch.pending) (hp : t.dispatch.outbound = s.dispatch.outbound)
    (hw : t.dispatch.worker.drawn? = s.dispatch.worker.drawn?) : Queues t := by
  have e : t.history = s.history := congrArg List.reverse hj
  refine ⟨?_, ?_, ?_, ?_⟩
  · rw [State.senders, State.receipts, e, hs]
    exact h.senders
  · rw [State.publications, State.receipts, e, hp]
    exact h.publications
  · rw [State.publications, e, hw]
    exact h.ascending
  · rw [State.publications, e, hw]
    exact fun i hi => (h.bounded i hi).trans_le hn

/-- The worker draws a later id than those before. -/
theorem number (h : Queues s) {p : Parcel} (hw : s.dispatch.worker = .holding p) :
    Queues ({ s with nextId := s.nextId + 1 }.setWorker (.numbered p s.nextId)) := by
  have hd : s.dispatch.worker.drawn?.toList = [] := by rw [hw]; rfl
  have ha := h.ascending
  have hb := h.bounded
  rw [hd, List.append_nil] at ha hb
  refine ⟨?_, h.publications, ?_, ?_⟩
  · have hi : (s.setWorker (.numbered p s.nextId)).dispatch.pending = s.dispatch.pending :=
      pending_setWorker (by rw [hw]; rfl)
    exact h.senders.trans (congrArg _ hi.symm)
  · exact List.pairwise_append.mpr ⟨ha, List.pairwise_singleton _ _, fun i hi j hj => by
      rw [List.mem_singleton.mp hj]
      exact hb i hi⟩
  · intro i hi
    rcases List.mem_append.mp hi with hi | hi
    · exact (hb i hi).trans (Nat.lt_succ_self _)
    · rw [List.mem_singleton.mp hi]
      exact Nat.lt_succ_self _

theorem launch (h : Queues s) (id : Nat) (c : Caller) (pool : PoolName) (e : Envelope) :
    Queues (s.launch id c pool e) :=
  h.of_mark rfl rfl (List.append_nil _) (List.append_nil _) rfl

theorem answer (h : Queues s) (c : Caller) (r : Except RelayError Ticket) :
    Queues (s.answer c r) := by
  refine h.of_mark (s.answer_journal c r) (s.answer_nextId c r) ?_ ?_ ?_ <;>
    rw [State.answer_dispatch]
  · exact List.append_nil _
  · exact List.append_nil _
  · rfl

/-- The holder of the lock changes while nothing is between the queues. -/
theorem setHolder (h : Queues s) (hi : s.dispatch.items = 0) (c : Option Caller) :
    Queues (s.setHolder c) := by
  refine h.of_quiet rfl le_rfl ?_ rfl rfl
  have hi' : (s.setHolder c).dispatch.items = 0 := hi
  rw [Dispatch.pending, Dispatch.pending, if_pos hi, if_pos hi']

theorem callMove (h : Queues s) (hh : Handover s) (hx : x ∈ s.calls) (m : CallMove s x t) :
    Queues t := by
  cases m with
  | refuse => exact h.answer _ _
  | allow | count => exact h.of_quiet rfl le_rfl rfl rfl rfl
  | number => exact h.of_quiet rfl (Nat.le_succ _) rfl rfl rfl
  | lock _ _ hn =>
    rcases hh.phase with hv | ⟨y, p, hy⟩
    · have hi : s.dispatch.items = 0 := by
        rcases hv.worker with hw | ⟨hw, -⟩ <;>
          simp [Dispatch.items, hv.inbound, hv.outbound, hw, WorkerStage.isBusy]
      exact (h.setHolder hi (some x.caller)).of_mark rfl rfl (List.append_nil _)
        (List.append_nil _) rfl
    · rw [hy.holder] at hn
      cases hn
  | launch => exact (h.launch _ _ _ _).answer _ _
  | abandon hw hs => exact absurd hw (hh.worker_ne_gone hx hs)
  | send hs =>
    have hd := (hh.of_locked hx hs).dispatch
    refine h.of_mark rfl rfl ?_ (List.append_nil _) rfl
    simp only [State.setCall, State.note, hd]
    rfl
  | receive hs ho =>
    -- the only one who can be pending takes the only handle there is
    obtain ⟨id, rfl, hp⟩ := hh.of_sent hx hs ho
    have hd := hp.dispatch
    refine h.of_mark rfl rfl ?_ ?_ rfl
    · simp only [State.setCall, State.note, hd]
      rfl
    · rw [ho]
      rfl
  | unlock hs =>
    obtain ⟨id, -, hp⟩ := hh.of_received hx hs
    have hi : s.dispatch.items = 0 := by
      rw [hp.dispatch]
      rfl
    exact (h.setHolder hi none).answer _ _

theorem workerMove (h : Queues s) (hh : Handover s) (m : WorkerMove s t) : Queues t := by
  rcases hh.phase with hv | ⟨x, p, hp⟩
  · have hw := hv.worker
    cases m with
    | take _ hi =>
      rw [hv.inbound] at hi
      cases hi
    | leave hw =>
      exact h.of_quiet rfl le_rfl (pending_setWorker (by rw [hw]; rfl)) rfl (by rw [hw]; rfl)
    | number hi | count hi | launch hi | lose hi | publish hi => simp [hi] at hw
  · have hd := hp.dispatch
    cases m with
    | take hw hi =>
      rw [hd] at hw hi
      cases p <;> cases hw <;> cases hi
      refine h.of_quiet rfl le_rfl ?_ rfl ?_ <;> rw [hd] <;> rfl
    | leave hw hi ho | lose hw ho =>
      rw [hp.isOpen] at ho
      cases ho
    | number hw => exact h.number hw
    | count hw =>
      exact h.of_quiet rfl le_rfl (pending_setWorker (by rw [hw]; rfl)) rfl (by rw [hw]; rfl)
    | @launch p id hw =>
      refine (h.launch id p.sender .parallel p.envelope).of_quiet rfl le_rfl
        (pending_setWorker ?_) rfl ?_
      · exact (congrArg WorkerStage.isBusy hw).symm
      · exact (congrArg WorkerStage.drawn? hw).symm
    | @publish tk hw ho hi =>
      refine h.of_mark rfl rfl ?_ ?_ ?_
      · simp [State.note, Dispatch.pending, Dispatch.items, hw, hi, WorkerStage.isBusy,
          Mark.sender?, Mark.receipt?]
      · rw [hi]
        rfl
      · rw [hw]
        rfl

end Queues

theorem Move.queues {a : Action} (hh : Handover s) (h : Queues s) (m : Move s a t) : Queues t := by
  cases m with
  | outside m => exact h.of_sameFront m.sameFront
  | ask => exact h.of_mark rfl rfl (List.append_nil _) (List.append_nil _) rfl
  | @askInside x entry name body args wake next =>
    have h' : Queues (s.setStage x.id (.submitting next)) := h.of_sameFront (.setStage _ _)
    exact h'.of_mark rfl rfl (List.append_nil _) (List.append_nil _) rfl
  | call hx m => exact h.callMove hh (call?_spec hx).1 m
  | worker m => exact h.workerMove hh m
  | close => exact h.of_mark rfl rfl (List.append_nil _) (List.append_nil _) rfl
  | drop => exact h.of_quiet rfl le_rfl rfl rfl rfl
  | task hx m => exact h.of_sameFront m.sameFront

theorem State.Reachable.queues (h : s.Reachable) : Queues s := by
  refine h.induct (fun pools color => ?_) fun _ _ _ hr => Move.queues hr.handover
  exact ⟨rfl, rfl, .nil, fun i hi => by cases hi⟩

/-! ## Every submitter gets the handle of its own envelope -/

theorem Phase.steps_isPrefix (p : Phase) (c : Caller) (e : Envelope) :
    ∃ id, p.steps c e <+: serialSteps c e id := by
  cases p with
  | locked => exact ⟨0, [.sent c, .launched 0 c e, .received c (State.ticket 0 e)], rfl⟩
  | queued | held | numbered | counted =>
    exact ⟨0, [.launched 0 c e, .received c (State.ticket 0 e)], rfl⟩
  | launched id | published id => exact ⟨id, [.received c (State.ticket id e)], rfl⟩
  | received id => exact ⟨id, [], rfl⟩

theorem Phase.items_le_one (p : Phase) (c : Caller) (e : Envelope) :
    (p.dispatch c e).items ≤ 1 := by
  cases p <;> simp [Dispatch.items, dispatch, WorkerStage.isBusy]

/-- Whoever holds the lock can go on, or the worker can. -/
theorem Occupied.canStep {p : Phase} (h : Occupied s x p) (hx : s.call? x.caller = some x) :
    (s.step? (.call x.caller)).isSome ∨ (s.step? .worker).isSome := by
  have hd := h.dispatch
  have hs := h.stage
  cases p with
  | locked | published | received =>
    left
    simp [State.step?, hx, State.stepCall?, hs, hd, Phase.stage, Phase.dispatch]
  | queued | held | numbered | counted | launched =>
    right
    simp [State.step?, State.stepWorker?, hd, Phase.dispatch]

structure Serialized (s : State) : Prop where
  /-- While the submit lock is free, both queues are empty and the worker has no envelope. -/
  free : s.dispatch.holder = none →
    s.dispatch.inbound = none ∧ s.dispatch.outbound = none ∧ s.dispatch.worker.isBusy = false
  /-- While it is held, there is at most one envelope or handle. -/
  held : s.dispatch.items ≤ 1
  lively : ∀ c, s.dispatch.holder = some c →
    (s.step? (.call c)).isSome ∨ (s.step? .worker).isSome
  /-- An accepted submission took each of its steps once, with its own envelope, and was answered
  with the handle of the task that runs its own callable on its own arguments. -/
  accepted : ∀ z ∈ s.submissions, z.entry = .serial → ∀ k, z.answer = .ok k →
    k.notifies = z.envelope.wake.isSome ∧ z.steps = serialSteps z.caller z.envelope k.id ∧
      ∃ u ∈ s.tasks, u.id = k.id ∧ u.caller = z.caller ∧ u.envelope = z.envelope ∧ u.IsFaithful
  /-- An envelope that was refused was never sent. -/
  refused : ∀ z ∈ s.submissions, z.entry = .serial → ∀ e, z.answer = .error e → z.steps = []
  underWay : ∀ y ∈ s.calls, y.entry = .serial →
    ∃ id, stepsSince y.caller s.journal <+: serialSteps y.caller y.envelope id
  /-- A task is that of one accepted submission, or of the one that holds the lock. -/
  credited : ∀ u ∈ s.tasks, s.acceptedIds.count u.id = 1 ∨ s.acceptedIds.count u.id = 0 ∧
    ∃ y ∈ s.calls, y.caller = u.caller ∧ y.envelope = u.envelope ∧
      s.dispatch.holder = some y.caller
  /-- Who is the `n`th to receive is the `n`th who sent, and gets the `n`th handle published. -/
  order : ∀ (n : Nat) c k, s.receipts[n]? = some (c, k) →
    s.senders[n]? = some c ∧ s.publications[n]? = some k
  /-- Of those who sent, all have received but the one that may hold the lock. -/
  complete : s.senders.length = s.receipts.length + s.dispatch.pending.length
  ascending : (s.publications.map Ticket.id).Pairwise (· < ·)

/-- Only calls within the handover are given handles. -/
theorem isInside_of_ticketId? {stage : CallStage} {i : Nat} (h : stage.ticketId? = some i) :
    stage.isInside := by
  cases stage <;> first | rfl | cases h

theorem Vacant.onTheWay (h : Vacant s) (i : Nat) : s.onTheWay i = 0 := by
  have hw : s.dispatch.worker.ticketId? = none := by
    rcases h.worker with hw | ⟨hw, -⟩ <;> rw [hw] <;> rfl
  have hc : s.calls.countP (fun y => y.stage.ticketId? == some i) = 0 := by
    rw [List.countP_eq_zero]
    intro y hy he
    have hi := isInside_of_ticketId? (by simpa using he)
    rw [h.outside y hy] at hi
    cases hi
  rw [State.onTheWay, Dispatch.ticketIds, hw, h.outbound, hc]
  rfl

/-- A handle that is on the way was launched in the handover. -/
theorem Occupied.launched_of_onTheWay {p : Phase} (h : Occupied s x p) {i : Nat}
    (ho : s.onTheWay i ≠ 0) : .launched i x.caller x.envelope ∈ p.steps x.caller x.envelope := by
  have hor : i ∈ s.dispatch.ticketIds ∨ ∃ y ∈ s.calls, y.stage.ticketId? = some i := by
    by_contra hn
    rw [not_or, ← List.count_eq_zero] at hn
    refine ho ?_
    rw [State.onTheWay, hn.1, Nat.zero_add, List.countP_eq_zero]
    exact fun y hy he => hn.2 ⟨y, hy, by simpa using he⟩
  rcases hor with hi | ⟨y, hy, he⟩
  · rw [h.dispatch] at hi
    cases p <;> simp_all [Phase.dispatch, Dispatch.ticketIds, WorkerStage.ticketId?, Phase.steps,
      State.ticket]
  · obtain rfl := h.alone y hy (isInside_of_ticketId? he)
    rw [h.stage] at he
    cases p <;> simp_all [Phase.stage, CallStage.ticketId?, Phase.steps, State.ticket]

/-- A handle that is on the way is that of the submission that holds the lock. -/
theorem State.Reachable.holder_of_onTheWay (h : s.Reachable) {u : Task} (hu : u ∈ s.tasks)
    (ho : s.onTheWay u.id ≠ 0) : ∃ y ∈ s.calls, y.caller = u.caller ∧ y.envelope = u.envelope ∧
      s.dispatch.holder = some y.caller := by
  rcases h.handover.phase with hv | ⟨x, p, hp⟩
  · exact absurd (hv.onTheWay u.id) ho
  · have hm := hp.launched_of_onTheWay ho
    rw [← hp.steps] at hm
    obtain ⟨v, hv, hid, hc, he⟩ := h.mem_tasks_of_launched (mem_of_mem_stepsSince hm)
    obtain rfl := h.coherent.eq_of_id_eq hv hu hid
    exact ⟨x, hp.mem, hc.symm, he.symm, hp.holder⟩

theorem State.Reachable.serialized (h : s.Reachable) : Serialized s := by
  have hq := h.queues
  have hh := h.handover
  refine ⟨fun hn => ?_, ?_, fun c hc => ?_, fun z hz he k hk => ?_, fun z hz _ e he => ?_,
    fun y hy _ => ?_, fun u hu => ?_, fun n c k hn => ⟨?_, ?_⟩, ?_, ?_⟩
  · rcases hh.phase with hv | ⟨x, p, hp⟩
    · refine ⟨hv.inbound, hv.outbound, ?_⟩
      rcases hv.worker with hw | ⟨hw, -⟩ <;> rw [hw] <;> rfl
    · rw [hp.holder] at hn
      cases hn
  · rcases hh.phase with hv | ⟨x, p, hp⟩
    · rcases hv.worker with hw | ⟨hw, -⟩ <;>
        simp [Dispatch.items, hv.inbound, hv.outbound, hw, WorkerStage.isBusy]
    · rw [hp.dispatch]
      exact p.items_le_one _ _
  · rcases hh.phase with hv | ⟨x, p, hp⟩
    · rw [hv.holder] at hc
      cases hc
    · rw [hp.holder] at hc
      obtain rfl := Option.some.inj hc
      exact hp.canStep (h.coherent.call?_eq hp.mem)
  · have hs := h.answers.served z (List.mem_reverse.mp hz)
    rw [Submission.IsServed, hk] at hs
    obtain ⟨u, hu, hid, hc, hu'⟩ := h.exists_task_of_accepted hz hk
    refine ⟨congrArg Ticket.notifies hs.1, ?_, u, hu, hid, hc, hu', h.allFaithful u hu⟩
    rw [hs.2, Submission.allSteps, if_pos he]
  · have hs := h.answers.served z (List.mem_reverse.mp hz)
    rw [Submission.IsServed, he] at hs
    exact hs
  · by_cases hi : y.stage.isInside
    · obtain ⟨p, hp⟩ := hh.occupied hy hi
      rw [hp.steps]
      exact p.steps_isPrefix _ _
    · rw [hh.begin y hy (by simpa using hi)]
      exact ⟨0, List.nil_prefix⟩
  · have hi := h.accounts.accepted u.id
    rw [List.count_eq_one_of_mem h.coherent.ids_nodup (List.mem_map_of_mem hu)] at hi
    by_cases ho : s.onTheWay u.id = 0
    · exact .inl (by omega)
    · exact .inr ⟨by omega, h.holder_of_onTheWay hu ho⟩
  · rw [hq.senders, List.getElem?_append_left]
    · simp [hn]
    · simpa using (List.getElem?_eq_some_iff.mp hn).1
  · rw [hq.publications, List.getElem?_append_left]
    · simp [hn]
    · simpa using (List.getElem?_eq_some_iff.mp hn).1
  · rw [hq.senders, List.length_append, List.length_map]
  · exact (List.pairwise_append.mp hq.ascending).1

/-- Three threads submit at once, the second behind the first, and the third after a shutdown. -/
def threeSubmitters : List Action :=
  [.install Observer.first.callback,
    .submit 0 .serial (.comingTo (.value .null) (WakePointer.ofAddress? 8)),
    .submit 1 .serial (.comingTo (.value (.bool true)) none),
    .submit 2 .serial (.comingTo (.value .null) none),
    .call (.thread 0), .call (.thread 1), .call (.thread 2), .call (.thread 0), .shutdown 3,
    .call (.thread 0), .worker, .worker, .worker, .worker, .worker, .call (.thread 0),
    .call (.thread 0), .call (.thread 1), .call (.thread 1), .worker, .worker, .worker, .worker,
    .worker, .call (.thread 1), .call (.thread 1), .close 3, .call (.thread 2), .worker, .close 3]

theorem serialized_threeSubmitters : ∃ s, State.plain.after? threeSubmitters = some s ∧
    s.receipts = [(.thread 0, ⟨0, true⟩), (.thread 1, ⟨1, false⟩)] ∧ s.submissions.length = 3 ∧
      Serialized s := by
  obtain ⟨s, hs, hr, h1, h2⟩ := exists_run (P := fun s =>
    s.receipts = [(.thread 0, ⟨0, true⟩), (.thread 1, ⟨1, false⟩)] ∧ s.submissions.length = 3)
      threeSubmitters (by decide +kernel)
  exact ⟨s, hs, h1, h2, hr.serialized⟩

end TaskRelay
