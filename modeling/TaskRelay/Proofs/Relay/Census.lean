import Mathlib
import TaskRelay.Proofs.Relay.Identity

/-!
# Ids drawn and submissions counted

An id is drawn for every task, and for every submission and envelope that is about to become one;
the same goes for the count of submissions, a step later (`State.Reachable.census`).
-/

namespace TaskRelay

variable {s t : State} {a : Action}

def CallStage.isCounted : CallStage → Bool
  | .counted _ => true
  | _ => false

def WorkerStage.isCounted : WorkerStage → Bool
  | .counted _ _ => true
  | _ => false

/-- The tasks, with the submissions that are on the way to one and have come so far. -/
def State.under (s : State) (p : CallStage → Bool) (q : WorkerStage → Bool) : Nat :=
  s.tasks.length + s.calls.countP (fun x => p x.stage) + (q s.dispatch.worker).toNat

section under

variable {x : Call} (p : CallStage → Bool) (q : WorkerStage → Bool)

theorem SameFront.under (h : SameFront s t) : t.under p q = s.under p q := by
  have hl := congrArg List.length h.ids
  rw [List.length_map, List.length_map] at hl
  rw [State.under, State.under, h.calls, h.dispatch, hl]

theorem under_setCall (hd : (s.calls.map Call.caller).Nodup) (hx : x ∈ s.calls)
    (stage : CallStage) : (s.setCall x.caller stage).under p q + (if p x.stage then 1 else 0) =
      s.under p q + (if p stage then 1 else 0) := by
  have h := countP_change hd hx (fun y => { y with stage := stage }) fun y => p y.stage
  simp only [State.under, State.setCall] at h ⊢
  omega

theorem under_answer (hd : (s.calls.map Call.caller).Nodup) (hx : x ∈ s.calls)
    (r : Except RelayError Ticket) :
    (s.answer x.caller r).under p q + (if p x.stage then 1 else 0) = s.under p q := by
  have h := countP_remove hd hx fun y => p y.stage
  have hl := congrArg List.length (s.answer_ids x.caller r)
  rw [List.length_map, List.length_map] at hl
  simp only [State.under, State.answer_calls, State.answer_dispatch, hl] at h ⊢
  omega

theorem under_launch (id : Nat) (c : Caller) (pool : PoolName) (e : Envelope) :
    (s.launch id c pool e).under p q = s.under p q + 1 := by
  simp only [State.under, State.launch, State.note, List.length_append, List.length_singleton]
  omega

theorem under_setWorker (w : WorkerStage) :
    (s.setWorker w).under p q + (q s.dispatch.worker).toNat = s.under p q + (q w).toNat := by
  simp only [State.under, State.setWorker]
  omega

end under

/-- Ids are drawn and submissions counted for the tasks, and for those that are still to come. -/
structure Census (s : State) : Prop where
  nextId : s.nextId = s.under (fun c => c.id?.isSome) fun w => w.id?.isSome
  counted : s.counters.direct + s.counters.dispatched =
    s.under CallStage.isCounted WorkerStage.isCounted

namespace Census

theorem of_sameFront (h : Census s) (hf : SameFront s t) : Census t where
  nextId := by rw [hf.nextId, hf.under, h.nextId]
  counted := by rw [hf.direct, hf.dispatched, hf.under, h.counted]

/-- A call moves on, and what is counted moves with it. -/
theorem setCall (h : Census s) {x : Call} (hd : (s.calls.map Call.caller).Nodup) (hx : x ∈ s.calls)
    {stage : CallStage} (hcalls : t.calls = (s.setCall x.caller stage).calls)
    (ht : t.tasks = s.tasks) (hw : t.dispatch.worker = s.dispatch.worker)
    (hn : t.nextId + (if x.stage.id?.isSome then 1 else 0) =
      s.nextId + (if stage.id?.isSome then 1 else 0))
    (hc : t.counters.direct + t.counters.dispatched + (if x.stage.isCounted then 1 else 0) =
      s.counters.direct + s.counters.dispatched + (if stage.isCounted then 1 else 0)) :
    Census t := by
  have hu : ∀ p q, t.under p q = (s.setCall x.caller stage).under p q := fun p q => by
    simp only [State.under, hcalls, ht, hw]
    rfl
  have h1 := h.nextId
  have h2 := h.counted
  have h3 := under_setCall (fun c => c.id?.isSome) (fun w => w.id?.isSome) hd hx stage
  have h4 := under_setCall CallStage.isCounted WorkerStage.isCounted hd hx stage
  refine ⟨?_, ?_⟩
  · rw [hu]
    omega
  · rw [hu]
    omega

theorem answer (h : Census s) {x : Call} (hd : (s.calls.map Call.caller).Nodup) (hx : x ∈ s.calls)
    (hs : x.stage.id? = none) (r : Except RelayError Ticket) : Census (s.answer x.caller r) := by
  have hc : x.stage.isCounted = false := by
    cases he : x.stage <;> rw [he] at hs <;> first | rfl | cases hs
  have h1 := under_answer (fun c => c.id?.isSome) (fun w => w.id?.isSome) hd hx r
  have h2 := under_answer CallStage.isCounted WorkerStage.isCounted hd hx r
  rw [hs] at h1
  rw [hc] at h2
  refine ⟨?_, ?_⟩
  · rw [State.answer_nextId, h.nextId]
    exact h1.symm
  · rw [State.answer_counters, h.counted]
    exact h2.symm

/-- A task takes the place of the submission or the envelope that it was made from. -/
theorem launch (h : Census s) {id : Nat} {c : Caller} {pool : PoolName} {e : Envelope}
    (hn : t.nextId = s.nextId) (hc : t.counters = s.counters)
    (h1 : t.under (fun c => c.id?.isSome) (fun w => w.id?.isSome) + 1 =
      (s.launch id c pool e).under (fun c => c.id?.isSome) fun w => w.id?.isSome)
    (h2 : t.under CallStage.isCounted WorkerStage.isCounted + 1 =
      (s.launch id c pool e).under CallStage.isCounted WorkerStage.isCounted) : Census t := by
  rw [under_launch] at h1 h2
  refine ⟨?_, ?_⟩
  · rw [hn, h.nextId]
    omega
  · rw [hc, h.counted]
    omega

theorem callMove (h : Census s) {x : Call} (hd : (s.calls.map Call.caller).Nodup)
    (hx : x ∈ s.calls) (m : CallMove s x t) : Census t := by
  cases m with
  | refuse hr => exact h.answer hd hx (by cases hr <;> simp [*, CallStage.id?]) _
  | allow hs | lock hs | send hs | receive hs | number hs =>
    exact h.setCall hd hx rfl rfl rfl (by rw [hs]; rfl) (by rw [hs]; rfl)
  | @count id hs =>
    refine h.setCall hd hx rfl rfl rfl (by rw [hs]; rfl) ?_
    rw [hs]
    show s.counters.direct + 1 + s.counters.dispatched + 0 =
      s.counters.direct + s.counters.dispatched + 1
    omega
  | @launch id hs =>
    have hu : ∀ p q, p x.stage → ((s.launch id x.caller x.entry.pool x.envelope).answer x.caller
        (.ok (State.ticket id x.envelope))).under p q + 1 =
          (s.launch id x.caller x.entry.pool x.envelope).under p q := by
      intro p q hp
      rw [← under_answer p q (s := s.launch id x.caller x.entry.pool x.envelope) hd hx, if_pos hp]
    exact h.launch (State.answer_nextId _ _ _) (State.answer_counters _ _ _)
      (hu _ _ (by rw [hs]; rfl)) (hu _ _ (by rw [hs]; rfl))
  | abandon _ hs =>
    have h' : Census (s.setHolder none) := ⟨h.nextId, h.counted⟩
    exact h'.answer hd hx (by rcases hs with hs | ⟨hs, -⟩ <;> rw [hs] <;> rfl) _
  | unlock hs =>
    have h' : Census (s.setHolder none) := ⟨h.nextId, h.counted⟩
    exact h'.answer hd hx (by rw [hs]; rfl) _

/-- The worker moves on, and what is counted moves with it. -/
theorem setWorker (h : Census s) (ht : t.tasks = s.tasks) (hcalls : t.calls = s.calls)
    (hn : t.nextId + s.dispatch.worker.id?.isSome.toNat =
      s.nextId + t.dispatch.worker.id?.isSome.toNat)
    (hc : t.counters.direct + t.counters.dispatched + s.dispatch.worker.isCounted.toNat =
      s.counters.direct + s.counters.dispatched + t.dispatch.worker.isCounted.toNat) :
    Census t := by
  have h1 := h.nextId
  have h2 := h.counted
  rw [State.under] at h1 h2
  refine ⟨?_, ?_⟩
  · rw [State.under, ht, hcalls]
    omega
  · rw [State.under, ht, hcalls]
    omega

theorem workerMove (h : Census s) (m : WorkerMove s t) : Census t := by
  cases m with
  | take hw | leave hw | lose hw | publish hw | number hw | count hw =>
    exact h.setWorker rfl rfl (by rw [hw]; rfl) (by rw [hw]; rfl)
  | @launch p id hw =>
    have hu : ∀ (q : CallStage → Bool) (r : WorkerStage → Bool), r (.counted p id) = true →
        r (.launched (State.ticket id p.envelope)) = false →
        ((s.launch id p.sender .parallel p.envelope).setWorker
          (.launched (State.ticket id p.envelope))).under q r + 1 =
            (s.launch id p.sender .parallel p.envelope).under q r := by
      intro q r h1 h2
      have hs := under_setWorker (s := s.launch id p.sender .parallel p.envelope) q r
        (.launched (State.ticket id p.envelope))
      rw [show (s.launch id p.sender .parallel p.envelope).dispatch.worker = .counted p id from hw,
        h1, h2] at hs
      exact hs
    exact h.launch rfl rfl (hu _ _ rfl rfl) (hu _ _ rfl rfl)

theorem ask (h : Census s) (c : Caller) (entry : Entry) (e : Envelope) :
    Census (s.ask c entry e) := by
  have hu : ∀ p q, p CallStage.asked = false → (s.ask c entry e).under p q = s.under p q := by
    intro p q hp
    simp [State.under, State.ask, State.note, hp]
  exact ⟨h.nextId.trans (hu _ _ rfl).symm, h.counted.trans (hu _ _ rfl).symm⟩

end Census

theorem Move.census (hd : (s.calls.map Call.caller).Nodup) (h : Census s) (m : Move s a t) :
    Census t := by
  cases m with
  | outside m => exact h.of_sameFront m.sameFront
  | ask => exact h.ask _ _ _
  | @askInside x entry name body args wake next =>
    have h' : Census (s.setStage x.id (.submitting next)) := h.of_sameFront (.setStage _ _)
    exact h'.ask _ _ _
  | call hx m => exact h.callMove hd (call?_spec hx).1 m
  | worker m => exact h.workerMove m
  | close | drop => exact ⟨h.nextId, h.counted⟩
  | task _ m => exact h.of_sameFront m.sameFront

theorem State.Reachable.census (h : s.Reachable) : Census s :=
  h.induct (fun _ _ => ⟨rfl, rfl⟩) fun _ _ _ hr => Move.census hr.coherent.callers

theorem Census.tasks_le (h : Census s) :
    s.tasks.length ≤ s.counters.direct + s.counters.dispatched := by
  rw [h.counted, State.under]
  omega

/-- An id is drawn before the submission is counted. -/
theorem Census.counted_le (h : Census s) :
    s.counters.direct + s.counters.dispatched ≤ s.nextId := by
  rw [h.counted, h.nextId, State.under, State.under]
  have hc : s.calls.countP (fun x => x.stage.isCounted) ≤
      s.calls.countP (fun x => x.stage.id?.isSome) := by
    apply List.countP_mono_left
    intro x _ hx
    cases hs : x.stage <;> rw [hs] at hx <;> first | rfl | cases hx
  have hw : s.dispatch.worker.isCounted.toNat ≤ s.dispatch.worker.id?.isSome.toNat := by
    cases s.dispatch.worker <;> simp [WorkerStage.isCounted, WorkerStage.id?]
  omega

end TaskRelay
