import Mathlib
import TaskRelay.Proofs.Relay.Replies
import TaskRelay.Proofs.Relay.Queues

/-!
# One order of ids

Submitters draw ids on three ways and the dispatch worker on the fourth, all from one count. No id
is drawn twice, none is left out, and a submission that begins after another was accepted gets a
later id: whatever is drawn for it is drawn from then on (`drawnFor_of_step?`).
Main statement: `State.Reachable.ordered`.
-/

namespace TaskRelay

variable {s t : State} {a : Action} {x : Call}

/-! ## What is drawn for a submission -/

/-- The id in the dispatch, from when the worker draws it until its handle is taken. -/
def Dispatch.drawn (d : Dispatch) : List Nat :=
  d.worker.drawn?.toList ++ (d.outbound.map Ticket.id).toList

/-- The id that was drawn for a submission, by itself or by the worker, wherever it is now. -/
def State.drawnFor (s : State) (x : Call) : List Nat :=
  x.stage.id?.toList ++ x.stage.ticketId?.toList ++
    if x.stage.isInside then s.dispatch.drawn else []

theorem drawnFor_of_outside (h : x.stage.isInside = false) :
    s.drawnFor x = x.stage.id?.toList := by
  have ht : x.stage.ticketId? = none := by
    cases hs : x.stage <;> rw [hs] at h <;> first | rfl | cases h
  rw [State.drawnFor, ht, h]
  simp

theorem drawnFor_of_drawn (h : t.dispatch.drawn = s.dispatch.drawn) :
    t.drawnFor x = s.drawnFor x := by
  rw [State.drawnFor, State.drawnFor, h]

theorem Vacant.drawn (h : Vacant s) : s.dispatch.drawn = [] := by
  rw [Dispatch.drawn, h.outbound]
  rcases h.worker with hw | ⟨hw, -⟩ <;> rw [hw] <;> rfl

variable {x' : Call}

/-- The step of a submission draws the next id for it at most. -/
theorem CallMove.drawnFor (hc : Coherent s) (hh : Handover s) (hx : x ∈ s.calls)
    (m : CallMove s x t) (hx' : x' ∈ t.calls) (he : x'.caller = x.caller) :
    ∀ i ∈ t.drawnFor x', i ∈ s.drawnFor x ∨ i = s.nextId := by
  cases m with
  | refuse | launch | abandon | unlock => exact absurd hx' (not_mem_answer he _ _)
  | allow hs =>
    obtain rfl := eq_of_mem_setCall hc hx hx' he
    intro i hi
    rw [drawnFor_of_outside rfl] at hi
    cases hi
  | lock hs _ hn =>
    obtain rfl := eq_of_mem_setCall hc hx hx' he
    -- the lock is free only while nothing is in the dispatch
    rcases hh.phase with hv | ⟨y, p, hy⟩
    · have hd : ((s.setHolder (some x.caller)).setCall x.caller .locked).dispatch.drawn = [] :=
        hv.drawn
      intro i hi
      simp [State.drawnFor, CallStage.id?, CallStage.ticketId?, State.note, hd] at hi
    · rw [hy.holder] at hn
      cases hn
  | number hs =>
    obtain rfl := eq_of_mem_setCall hc hx hx' he
    intro i hi
    rw [drawnFor_of_outside rfl] at hi
    exact .inr (by simpa [CallStage.id?] using hi)
  | count hs =>
    obtain rfl := eq_of_mem_setCall hc hx hx' he
    intro i hi
    rw [drawnFor_of_outside rfl] at hi
    rw [drawnFor_of_outside (by rw [hs]; rfl), hs]
    exact .inl hi
  | send hs =>
    obtain rfl := eq_of_mem_setCall hc hx hx' he
    intro i hi
    rw [State.drawnFor, hs]
    exact .inl hi
  | receive hs ho =>
    obtain rfl := eq_of_mem_setCall hc hx hx' he
    intro i hi
    left
    simp only [State.drawnFor, CallStage.id?, CallStage.ticketId?, CallStage.isInside,
      Dispatch.drawn, State.note, State.setCall, hs, ho, List.mem_append, Option.toList, if_true,
      Option.map, List.mem_singleton, List.not_mem_nil, or_false, false_or] at hi ⊢
    exact hi.symm

/-- What is in the dispatch only changes for the holder of the lock. -/
theorem WorkerMove.drawn (m : WorkerMove s t) :
    ∀ i ∈ t.dispatch.drawn, i ∈ s.dispatch.drawn ∨ i = s.nextId := by
  intro i hi
  cases m with
  | take hw | leave hw =>
    left
    simpa [Dispatch.drawn, State.setWorker, hw, WorkerStage.drawn?] using hi
  | number hw =>
    rw [or_comm]
    simpa [Dispatch.drawn, State.setWorker, hw, WorkerStage.drawn?] using hi
  | count hw | launch hw =>
    left
    simpa [Dispatch.drawn, State.setWorker, State.launch, State.note, State.ticket, hw,
      WorkerStage.drawn?] using hi
  | lose hw =>
    left
    simp only [Dispatch.drawn, State.setWorker, WorkerStage.drawn?, Option.toList, List.nil_append]
      at hi ⊢
    exact List.mem_append_right _ hi
  | publish hw _ ho =>
    left
    simpa [Dispatch.drawn, State.note, hw, ho, WorkerStage.drawn?] using hi

/-- In a step the next id is drawn for a submission, or none. -/
theorem drawnFor_of_step? (h : s.Reachable) (hs : s.step? a = some t) (hx : x ∈ s.calls)
    (hx' : x' ∈ t.calls) (he : x'.caller = x.caller) :
    ∀ i ∈ t.drawnFor x', i ∈ s.drawnFor x ∨ i = s.nextId := by
  by_cases ha : a = .call x.caller
  · subst ha
    exact (CallMove.of_step? h.coherent hx hs).drawnFor h.coherent h.handover hx hx' he
  · have m := move_of_step? hs
    obtain rfl := (h.step hs).coherent.eq_of_caller_eq hx' ((m.keeps ha).2 x hx rfl) he
    have hsame : t.dispatch.drawn = s.dispatch.drawn →
        ∀ i ∈ t.drawnFor x', i ∈ s.drawnFor x' ∨ i = s.nextId :=
      fun hd i hi => .inl (drawnFor_of_drawn hd ▸ hi)
    cases hin : x'.stage.isInside with
    | false =>
      intro i hi
      rw [drawnFor_of_outside hin] at hi ⊢
      exact .inl hi
    | true =>
      cases m with
      | outside m => exact hsame (by rw [m.sameFront.dispatch])
      | ask | askInside | close | drop => exact hsame rfl
      | call hy m =>
        exact hsame (congrArg Dispatch.drawn (m.dispatch_eq h.handover (call?_spec hy).1 hx hin
          fun e => ha (congrArg Action.call e)))
      | worker m =>
        intro i hi
        rw [State.drawnFor, hin, if_pos rfl] at hi ⊢
        rcases List.mem_append.mp hi with hi | hi
        · exact .inl (List.mem_append_left _ hi)
        · exact (m.drawn i hi).imp_left (List.mem_append_right _)
      | task _ m => exact hsame (by rw [m.sameFront.dispatch])

/-! ## Later submissions get later ids -/

theorem nextId_le_of_step? (hs : s.step? a = some t) : s.nextId ≤ t.nextId := by
  rcases (move_of_step? hs).frontAdvance.nextId with e | e <;> omega

/-- Whatever a submission without an id is given is drawn later. -/
theorem nextId_le_of_settles {as : List Action} {k : Ticket} (h : s.Reachable) {n : Nat}
    (hx : x ∈ s.calls) (hn : n ≤ s.nextId) (hd : ∀ i ∈ s.drawnFor x, n ≤ i)
    (hs : s.Settles x.caller as (.ok k) t) : n ≤ k.id := by
  refine hs.induct (P := fun s x _ => n ≤ s.nextId → (∀ i ∈ s.drawnFor x, n ≤ i) → n ≤ k.id)
    (fun s x h hx hstep hrep hn hd => ?_)
    (fun s x a t stage as h hx hstep hm _ ih hn hd => ?_) h hx hn hd
  · cases hrep with
    | @launched id hstage => exact hd id (by simp [State.drawnFor, hstage, CallStage.id?])
    | received hstage => exact hd k.id (by simp [State.drawnFor, hstage, CallStage.ticketId?])
  · -- no matter whose step it is, the submission goes on with an id that is no earlier
    refine ih (hn.trans (nextId_le_of_step? hstep)) fun i hi => ?_
    rcases drawnFor_of_step? h hstep hx hm rfl i hi with hi | rfl
    · exact hd i hi
    · exact hn

/-- Whoever has just begun is given a later id than all that were drawn. -/
theorem nextId_le_of_asked {as : List Action} {k : Ticket} (h : s.Reachable) (hx : x ∈ s.calls)
    (hb : x.stage = .asked) (hs : s.Settles x.caller as (.ok k) t) : s.nextId ≤ k.id := by
  refine nextId_le_of_settles h hx le_rfl ?_ hs
  rw [drawnFor_of_outside (by rw [hb]; rfl), hb]
  exact fun j hj => by cases hj

/-! ## No more ids than submissions -/

def Mark.submitter? : Mark → Option Caller
  | .asked c _ _ => some c
  | _ => none

/-- Who submitted, accepted or not, in order. -/
def State.submitters (s : State) : List Caller := s.history.filterMap Mark.submitter?

/-- Still to draw an id, or to send an envelope for which the worker draws one. -/
def CallStage.isBlank : CallStage → Bool
  | .asked | .admitted | .locked => true
  | _ => false

def WorkerStage.isBlank : WorkerStage → Bool
  | .holding _ => true
  | _ => false

/-- The envelopes for which the worker has not drawn an id yet. -/
def Dispatch.blanks (d : Dispatch) : Nat := d.inbound.toList.length + d.worker.isBlank.toNat

/-- For every submission there is at most one id, drawn or still to be drawn. -/
structure Sparse (s : State) : Prop where
  le : s.nextId + s.calls.countP (fun y => y.stage.isBlank) + s.dispatch.blanks ≤
    s.submitters.length

namespace Sparse

theorem of_quiet (h : Sparse s) (hcalls : t.calls = s.calls) (hq : t.submitters = s.submitters)
    (hd : t.nextId + t.dispatch.blanks ≤ s.nextId + s.dispatch.blanks) : Sparse t := by
  have hle := h.le
  constructor
  rw [hcalls, hq]
  omega

theorem setCall (h : Sparse s) (hc : Coherent s) (hx : x ∈ s.calls) {stage : CallStage}
    (hcalls : t.calls = (s.setCall x.caller stage).calls) (hq : t.submitters = s.submitters)
    (hd : t.nextId + stage.isBlank.toNat + t.dispatch.blanks ≤
      s.nextId + x.stage.isBlank.toNat + s.dispatch.blanks) : Sparse t := by
  have hn := countP_change hc.callers hx (fun y => { y with stage := stage })
    fun y => y.stage.isBlank
  have hle := h.le
  constructor
  rw [hcalls, hq]
  simp only [Bool.toNat, cond_eq_ite, State.setCall] at hd hn ⊢
  omega

theorem answer (h : Sparse s) (c : Caller) (r : Except RelayError Ticket) :
    Sparse (s.answer c r) := by
  have hq : (s.answer c r).submitters = s.submitters :=
    (filterMap_history _ (s.answer_journal c r)).trans (List.append_nil _)
  have hn := (s.calls.filter_sublist (p := fun y => y.caller != c)).countP_le
    (p := fun y => y.stage.isBlank)
  have hle := h.le
  constructor
  rw [State.answer_nextId, State.answer_dispatch, State.answer_calls, hq]
  omega

theorem ask (h : Sparse s) (c : Caller) (entry : Entry) (e : Envelope) :
    Sparse (s.ask c entry e) := by
  have hq : (s.ask c entry e).submitters = s.submitters ++ [c] :=
    filterMap_history Mark.submitter? (m := .asked c entry e) rfl
  have hn : ((s.ask c entry e).calls.countP fun y => y.stage.isBlank) =
      (s.calls.countP fun y => y.stage.isBlank) + 1 := List.countP_append
  have hle := h.le
  constructor
  rw [hq, hn, List.length_append, List.length_singleton]
  show s.nextId + _ + s.dispatch.blanks ≤ _
  omega

theorem callMove (h : Sparse s) (hc : Coherent s) (hx : x ∈ s.calls) (m : CallMove s x t) :
    Sparse t := by
  have hnote : ∀ {u : State} {m : Mark}, m.submitter? = none → u.journal = m :: s.journal →
      u.submitters = s.submitters := by
    intro u m hm hj
    rw [State.submitters, filterMap_history _ hj, hm]
    exact List.append_nil _
  cases m with
  | refuse => exact h.answer _ _
  | allow hs | number hs | count hs =>
    refine h.setCall hc hx rfl rfl ?_
    rw [hs]
    exact le_rfl
  | lock hs =>
    refine h.setCall hc hx rfl (hnote rfl rfl) ?_
    rw [hs]
    exact le_rfl
  | launch =>
    refine Sparse.answer (s := s.launch _ _ _ _) (h.of_quiet rfl ?_ le_rfl) _ _
    exact hnote rfl rfl
  | abandon | unlock =>
    exact Sparse.answer (s := s.setHolder none) (h.of_quiet rfl rfl le_rfl) _ _
  | send hs hi =>
    refine h.setCall hc hx rfl (hnote rfl rfl) ?_
    rw [hs]
    simp [Dispatch.blanks, CallStage.isBlank, State.note, State.setCall, hi]
    omega
  | receive hs =>
    refine h.setCall hc hx rfl (hnote rfl rfl) ?_
    rw [hs]
    exact le_rfl

theorem workerMove (h : Sparse s) (m : WorkerMove s t) : Sparse t := by
  have hq : t.submitters = s.submitters := by
    cases m with
    | launch | publish => exact (filterMap_history _ rfl).trans (List.append_nil _)
    | _ => rfl
  refine h.of_quiet (m.front_eq (.thread 0)).2 hq ?_
  cases m with
  | take hw hi => simp [Dispatch.blanks, WorkerStage.isBlank, hw, hi]
  | number hw =>
    simp only [Dispatch.blanks, WorkerStage.isBlank, State.setWorker, hw, Bool.toNat, cond]
    omega
  | leave hw | count hw | launch hw | lose hw | publish hw =>
    simp [Dispatch.blanks, WorkerStage.isBlank, State.setWorker, State.launch, State.note, hw]

end Sparse

theorem SameFront.submitters (h : SameFront s t) : t.submitters = s.submitters :=
  h.history fun m hm => by cases m <;> first | rfl | cases hm

theorem Move.sparse (hc : Coherent s) (h : Sparse s) (m : Move s a t) : Sparse t := by
  have hfront : SameFront s t → Sparse t := fun hf =>
    h.of_quiet hf.calls hf.submitters (by rw [hf.nextId, hf.dispatch])
  cases m with
  | outside m => exact hfront m.sameFront
  | ask => exact h.ask _ _ _
  | @askInside x entry name body args wake next =>
    have h' : Sparse (s.setStage x.id (.submitting next)) := ⟨h.le⟩
    exact h'.ask _ _ _
  | call hx m => exact h.callMove hc (call?_spec hx).1 m
  | worker m => exact h.workerMove m
  | close =>
    refine h.of_quiet rfl ?_ le_rfl
    exact (filterMap_history _ rfl).trans (List.append_nil _)
  | drop => exact h.of_quiet rfl rfl le_rfl
  | task _ m => exact hfront m.sameFront

theorem State.Reachable.nextId_le (h : s.Reachable) : s.nextId ≤ s.submitters.length := by
  have hs : Sparse s :=
    h.induct (fun _ _ => ⟨Nat.zero_le _⟩) fun _ _ _ hr => Move.sparse hr.coherent
  have := hs.le
  omega

/-! ## The order -/

/-- Without a submission under way the ids of the tasks are all that were drawn. -/
theorem State.Reachable.ids_perm (h : s.Reachable) (hc : s.calls = []) :
    (s.tasks.map Task.id).Perm (List.range s.nextId) := by
  have hw : s.dispatch.worker.id? = none := by
    rcases h.handover.phase with hv | ⟨x, p, hp⟩
    · rcases hv.worker with hw | ⟨hw, -⟩ <;> rw [hw] <;> rfl
    · have := hp.mem
      rw [hc] at this
      cases this
  rw [List.perm_iff_count]
  intro i
  have hi := h.coherent.places i
  rw [State.places, hc, hw, List.countP_nil, Option.toList_none, List.count_nil] at hi
  rw [List.nodup_range.count]
  simpa using hi

/-- A task has an id that was drawn. -/
theorem State.Reachable.lt_of_task (h : s.Reachable) {i : Nat} (hi : i ∈ s.tasks.map Task.id) :
    i < s.nextId := by
  have hp := h.coherent.places i
  have := List.count_pos_iff.mpr hi
  rw [State.places] at hp
  split_ifs at hp <;> omega

/-- An accepted submission has the id of a task. -/
theorem State.Reachable.lt_of_accepted (h : s.Reachable) {i : Nat} (hi : i ∈ s.acceptedIds) :
    i < s.nextId := by
  refine h.lt_of_task (List.count_pos_iff.mp ?_)
  have ha := h.accounts.accepted i
  have := List.count_pos_iff.mpr hi
  omega

structure Ordered (s : State) : Prop where
  /-- No two accepted submissions have the same id. -/
  distinct : s.acceptedIds.Nodup
  /-- When nobody is in the middle of a submission, no id was left out. -/
  gapless : s.calls = [] → s.acceptedIds.Perm (List.range s.acceptedIds.length)
  /-- A submission that begins when others were accepted gets a later id than theirs. -/
  later : ∀ x ∈ s.calls, x.stage = .asked → ∀ as k t, s.Settles x.caller as (.ok k) t →
    ∀ i ∈ s.acceptedIds, i < k.id
  /-- There are no more ids than submissions, so a count of 64 bits does not overflow. -/
  bounded : s.nextId ≤ s.submitters.length

theorem State.Reachable.ordered (h : s.Reachable) : Ordered s := by
  refine ⟨h.acceptedIds_nodup, fun hc => ?_, fun x hx hs as k t hset i hi => ?_, h.nextId_le⟩
  · have hp := (h.acceptedIds_perm hc).trans (h.ids_perm hc)
    have hl : s.acceptedIds.length = s.nextId := by rw [hp.length_eq, List.length_range]
    rw [hl]
    exact hp
  · exact (h.lt_of_accepted hi).trans_le (nextId_le_of_asked h hx hs hset)

/-- Submissions of two threads and of a task, one of them behind the worker; two are refused in
between. -/
def mixedWays : List Action := List.flatten [
  [.submit 0 .direct (.submitting .single (.comingTo (.value .null) none))],
  List.replicate 4 (.call (.thread 0)), [.submit 1 .serial (.comingTo (.value .null) none),
    .submit 2 .interactive (.comingTo (.value .null) none)],
  List.replicate 2 (.task 0), List.replicate 3 (.call (.thread 1)), [.call (.thread 2)],
  List.replicate 5 .worker, List.replicate 4 (.call (.task 0)),
  [.submit 2 .direct (.comingTo (.value .null) (WakePointer.ofAddress? 8)), .call (.thread 2)],
  List.replicate 2 (.call (.thread 1))]

theorem ordered_mixedWays : ∃ s, State.plain.after? mixedWays = some s ∧ s.calls.isEmpty ∧
    s.acceptedIds = [0, 2, 1] ∧
      s.submitters = [.thread 0, .thread 1, .thread 2, .task 0, .thread 2] ∧ Ordered s := by
  obtain ⟨s, hs, hr, h1, h2, h3⟩ := exists_run (P := fun s => s.calls.isEmpty ∧
    s.acceptedIds = [0, 2, 1] ∧
      s.submitters = [.thread 0, .thread 1, .thread 2, .task 0, .thread 2])
    mixedWays (by decide +kernel)
  exact ⟨s, hs, h1, h2, h3, hr.ordered⟩

end TaskRelay
