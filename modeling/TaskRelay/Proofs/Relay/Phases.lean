import Mathlib
import TaskRelay.Proofs.Relay.Replies

/-!
# The steps of a handover

While a submission is within its handover, every step takes the handover on to its next phase,
leaves it as it is, or ends it with the handle (`Occupied.step`). What the dispatch is afterwards is
said by the phase alone (`HandoverStep.occupied`).
-/

namespace TaskRelay

variable {s t : State} {a : Action} {x : Call} {p q : Phase}

/-- What a step does while `x` is within its handover, and to which phase it leads: the steps of `x`
and of the worker take the handover on, and all others leave it as it is. -/
inductive HandoverStep (s : State) (x : Call) : Phase → Action → State → Phase → Prop
  | send : HandoverStep s x .locked (.call x.caller)
      (({ s with dispatch := Phase.queued.dispatch x.caller x.envelope }.setCall x.caller
        .sent).note (.sent x.caller)) .queued
  | take : HandoverStep s x .queued .worker
      { s with dispatch := Phase.held.dispatch x.caller x.envelope } .held
  | number : HandoverStep s x .held .worker
      { s with
        nextId := s.nextId + 1
        dispatch := (Phase.numbered s.nextId).dispatch x.caller x.envelope } (.numbered s.nextId)
  | count {id : Nat} : HandoverStep s x (.numbered id) .worker
      { s with
        counters := { s.counters with dispatched := s.counters.dispatched + 1 }
        dispatch := (Phase.counted id).dispatch x.caller x.envelope } (.counted id)
  | launch {id : Nat} : HandoverStep s x (.counted id) .worker
      { s.launch id x.caller .parallel x.envelope with
        dispatch := (Phase.launched id).dispatch x.caller x.envelope } (.launched id)
  | publish {id : Nat} : HandoverStep s x (.launched id) .worker
      ({ s with dispatch := (Phase.published id).dispatch x.caller x.envelope }.note
        (.published (State.ticket id x.envelope))) (.published id)
  | receive {id : Nat} : HandoverStep s x (.published id) (.call x.caller)
      (({ s with dispatch := (Phase.received id).dispatch x.caller x.envelope }.setCall x.caller
        (.received (State.ticket id x.envelope))).note
          (.received x.caller (State.ticket id x.envelope))) (.received id)
  | other {p : Phase} {a : Action} {t : State} : a ≠ .call x.caller → a ≠ .worker →
      t.dispatch = s.dispatch → HandoverStep s x p a t p

theorem Phase.eq_of_dispatch {c : Caller} {e : Envelope} (hd : p.dispatch c e = q.dispatch c e)
    (hs : p.stage e = q.stage e) : p = q := by
  cases p <;> cases q <;> simp_all [Phase.dispatch, Phase.stage, State.ticket]

theorem Occupied.phase_eq (h : Occupied s x p) (hq : Occupied s x q) : p = q :=
  Phase.eq_of_dispatch (h.dispatch.symm.trans hq.dispatch) (h.stage.symm.trans hq.stage)

/-- The call and the dispatch together say which phase it is. -/
theorem Handover.occupied_of (h : Handover s) (hx : x ∈ s.calls) (hs : x.stage = p.stage x.envelope)
    (hd : s.dispatch = p.dispatch x.caller x.envelope) : Occupied s x p := by
  obtain ⟨q, hq⟩ := h.occupied hx (by rw [hs]; exact p.isInside_stage _)
  obtain rfl := Phase.eq_of_dispatch (hd.symm.trans hq.dispatch) (hs.symm.trans hq.stage)
  exact hq

theorem Occupied.not_isUnused (h : Occupied s x p) : s.isUnused = false := by
  rw [State.isUnused, h.holder]
  simp

/-- Nobody else closes the dispatch or gives up the relay, or gets to the lock. -/
theorem Occupied.dispatch_of_other (h : Occupied s x p) (hr : s.Reachable) (m : Move s a t)
    (ha : a ≠ .call x.caller) (hw : a ≠ .worker) : t.dispatch = s.dispatch := by
  cases m with
  | outside m => exact m.sameFront.dispatch
  | ask | askInside => rfl
  | @call y _ hy m =>
    exact m.dispatch_eq hr.handover (call?_spec hy).1 h.mem h.isInside fun he => ha (by rw [he])
  | worker => exact absurd rfl hw
  | close hh =>
    rw [h.holder] at hh
    cases hh
  | drop hu =>
    rw [h.not_isUnused] at hu
    cases hu
  | task _ m => exact m.sameFront.dispatch

theorem Occupied.callMove (h : Occupied s x p) (m : CallMove s x t) :
    (∃ q, HandoverStep s x p (.call x.caller) t q) ∨
      ∃ id, p = .received id ∧
        t = (s.setHolder none).answer x.caller (.ok (State.ticket id x.envelope)) := by
  have hs := h.stage
  have hd := h.dispatch
  cases m with
  | refuse hr => cases hr with
    | noPool hst | noCallback hst | closed hst => rw [hs] at hst; cases p <;> cases hst
  | allow hst | lock hst | number hst | count hst | launch hst =>
    rw [hs] at hst
    cases p <;> cases hst
  | abandon hw => exact absurd hw h.worker_ne_gone
  | send hst hi =>
    rw [hs] at hst
    cases p <;> cases hst
    left
    rw [hd]
    exact ⟨_, .send⟩
  | receive hst ho =>
    rw [hs] at hst
    rw [hd] at ho
    cases p <;> cases hst <;> cases ho
    left
    rw [hd]
    exact ⟨_, .receive⟩
  | unlock hst =>
    rw [hs] at hst
    cases p <;> cases hst
    exact .inr ⟨_, rfl, rfl⟩

theorem Occupied.workerMove (h : Occupied s x p) (m : WorkerMove s t) :
    ∃ q, HandoverStep s x p .worker t q := by
  have hd := h.dispatch
  cases m with
  | take hw hi =>
    rw [hd] at hw hi
    cases p <;> cases hw <;> cases hi
    rw [hd]
    exact ⟨_, .take⟩
  | leave _ _ ho | lose _ ho =>
    rw [h.isOpen] at ho
    cases ho
  | number hw =>
    rw [hd] at hw
    cases p <;> cases hw
    simp only [State.setWorker, hd]
    exact ⟨_, .number⟩
  | count hw =>
    rw [hd] at hw
    cases p <;> cases hw
    simp only [State.setWorker, hd]
    exact ⟨_, .count⟩
  | launch hw =>
    rw [hd] at hw
    cases p <;> cases hw
    simp only [State.setWorker, State.launch, State.note, hd]
    exact ⟨_, .launch⟩
  | publish hw =>
    rw [hd] at hw
    cases p <;> cases hw
    rw [hd]
    exact ⟨_, .publish⟩

/-- A step within a handover takes it on, leaves it as it is, or ends it with the handle. -/
theorem Occupied.step (h : Occupied s x p) (hr : s.Reachable) (hs : s.step? a = some t) :
    (∃ q, HandoverStep s x p a t q) ∨ ∃ id, p = .received id ∧ a = .call x.caller ∧
      t = (s.setHolder none).answer x.caller (.ok (State.ticket id x.envelope)) := by
  by_cases ha : a = .call x.caller
  · subst ha
    rcases h.callMove (CallMove.of_step? hr.coherent h.mem hs) with hq | ⟨id, hp, ht⟩
    · exact .inl hq
    · exact .inr ⟨id, hp, rfl, ht⟩
  by_cases hw : a = .worker
  · subst hw
    exact .inl (h.workerMove (workerMove_of_stepWorker? hs))
  · exact .inl ⟨p, .other ha hw (h.dispatch_of_other hr (move_of_step? hs) ha hw)⟩

/-- After such a step the call is in the phase that it leads to. -/
theorem HandoverStep.occupied (h : HandoverStep s x p a t q) (ho : Occupied s x p)
    (hr : s.Reachable) (hs : s.step? a = some t) :
    Occupied t { x with stage := q.stage x.envelope } q := by
  have hh := (hr.step hs).handover
  cases h with
  | send | receive => exact hh.occupied_of (mem_setCall_self ho.mem _) rfl rfl
  | take | number | count | launch | publish =>
    refine hh.occupied_of ?_ rfl rfl
    have he : x.stage = _ := ho.stage
    exact he ▸ ho.mem
  | other ha hw hd =>
    have hx := ((move_of_step? hs).keeps ha).2 x ho.mem rfl
    refine hh.occupied_of ?_ rfl (hd.trans ho.dispatch)
    exact ho.stage ▸ hx

end TaskRelay
