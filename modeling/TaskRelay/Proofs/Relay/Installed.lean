import Mathlib
import TaskRelay.Proofs.Relay.Figures
import TaskRelay.Proofs.Relay.Handover

/-!
# Wake pointers need a callback

A submission with a wake pointer is only accepted when there is a callback, and from then on there
is always one, be it another. So nobody who is to be told of a task is ever missed
(`State.Reachable.isInstalled`).
-/

namespace TaskRelay

variable {s t : State} {a : Action}

/-! ## A callback stays -/

theorem TaskMove.isInstalled {x : Task} (m : TaskMove s x a t) (h : s.registry.isInstalled) :
    t.registry.isInstalled := by
  cases m with
  | notify => simpa [State.setStage] using s.registry.notify_isInstalled h _
  | react => simpa [State.setStage] using s.registry.step_isInstalled h _
  | _ => exact h

theorem OutsideMove.isInstalled (m : OutsideMove s a t) (h : s.registry.isInstalled) :
    t.registry.isInstalled := by
  cases m with
  | install => rfl
  | notify => simpa using s.registry.notify_isInstalled h _
  | react => simpa using s.registry.step_isInstalled h _
  | _ => exact h

theorem Move.isInstalled (m : Move s a t) (h : s.registry.isInstalled) :
    t.registry.isInstalled := by
  rcases m.split with hb | hm | ⟨x, -, hm⟩
  · rw [hb.registry]
    exact h
  · exact hm.isInstalled h
  · exact hm.isInstalled h

/-! ## Nobody is to be told without one -/

/-- Of all that was allowed nothing has a wake pointer. -/
structure Wakeless (s : State) : Prop where
  calls : ∀ y ∈ s.calls, y.stage ≠ .asked → y.envelope.wake = none
  tasks : ∀ u ∈ s.tasks, u.envelope.wake = none

/-- An envelope stays with its task. -/
theorem wake_of_launchMarks (h : ∀ u ∈ s.tasks, u.envelope.wake = none)
    (hl : t.tasks.map Task.launchMark = s.tasks.map Task.launchMark) :
    ∀ u ∈ t.tasks, u.envelope.wake = none := by
  intro u hu
  have hm : u.launchMark ∈ s.tasks.map Task.launchMark := hl ▸ List.mem_map_of_mem hu
  obtain ⟨v, hv, e⟩ := List.mem_map.mp hm
  obtain ⟨-, -, e⟩ := Mark.launched.inj e
  rw [← e]
  exact h v hv

namespace Wakeless

theorem of_sameFront (h : Wakeless s) (hf : SameFront s t) : Wakeless t where
  calls := by
    rw [hf.calls]
    exact h.calls
  tasks := wake_of_launchMarks h.tasks hf.launchMarks

theorem setCall (h : Wakeless s) {x : Call} (hc : Coherent s) (hx : x ∈ s.calls)
    (hw : x.envelope.wake = none) {stage : CallStage}
    (hcalls : t.calls = (s.setCall x.caller stage).calls) (ht : t.tasks = s.tasks) :
    Wakeless t where
  calls := by
    rw [hcalls]
    intro y hy hs
    rcases eq_or_ne_of_mem_setCall hc hx hy with rfl | ⟨hy, -⟩
    · exact hw
    · exact h.calls y hy hs
  tasks := by
    rw [ht]
    exact h.tasks

theorem answer (h : Wakeless s) (c : Caller) (r : Except RelayError Ticket) :
    Wakeless (s.answer c r) where
  calls := by
    rw [State.answer_calls]
    exact fun y hy => h.calls y (List.mem_of_mem_filter hy)
  tasks := wake_of_launchMarks h.tasks (s.answer_launchMarks c r)

theorem launch (h : Wakeless s) (id : Nat) (c : Caller) (pool : PoolName) {e : Envelope}
    (he : e.wake = none) : Wakeless (s.launch id c pool e) where
  calls := h.calls
  tasks u hu := by
    rcases s.mem_launch.mp hu with hu | rfl
    · exact h.tasks u hu
    · exact he

theorem callMove (h : Wakeless s) {x : Call} (hc : Coherent s) (hx : x ∈ s.calls)
    (hn : s.registry.isInstalled = false) (m : CallMove s x t) : Wakeless t := by
  cases m with
  | refuse => exact h.answer _ _
  | allow hs _ hr =>
    refine h.setCall hc hx ?_ rfl rfl
    simpa [Registry.ready, hn] using hr
  | lock hs | number hs | count hs | send hs | receive hs =>
    exact h.setCall hc hx (h.calls x hx (by rw [hs]; simp)) rfl rfl
  | launch hs => exact (h.launch _ _ _ (h.calls x hx (by rw [hs]; simp))).answer _ _
  | abandon | unlock => exact Wakeless.answer (s := s.setHolder none) ⟨h.calls, h.tasks⟩ _ _

theorem workerMove (h : Wakeless s) (hh : Handover s) (m : WorkerMove s t) : Wakeless t := by
  cases m with
  | @launch p id hw =>
    obtain ⟨x, rfl, hp⟩ := hh.of_counted hw
    have hs : x.stage ≠ .asked := by
      rw [hp.stage]
      simp [Phase.stage]
    have hl := h.launch id x.caller .parallel (h.calls x hp.mem hs)
    exact ⟨hl.calls, hl.tasks⟩
  | _ => exact ⟨h.calls, h.tasks⟩

theorem ask (h : Wakeless s) (c : Caller) (entry : Entry) (e : Envelope) :
    Wakeless (s.ask c entry e) where
  calls y hy hs := by
    rcases s.mem_ask.mp hy with hy | rfl
    · exact h.calls y hy hs
    · exact absurd rfl hs
  tasks := h.tasks

end Wakeless

theorem Move.wakeless (hc : Coherent s) (hh : Handover s) (hn : s.registry.isInstalled = false)
    (h : Wakeless s) (m : Move s a t) : Wakeless t := by
  cases m with
  | outside m => exact h.of_sameFront m.sameFront
  | ask => exact h.ask _ _ _
  | @askInside x entry name body args wake next =>
    have h' : Wakeless (s.setStage x.id (.submitting next)) := h.of_sameFront (.setStage _ _)
    exact h'.ask _ _ _
  | call hx m => exact h.callMove hc (call?_spec hx).1 hn m
  | worker m => exact h.workerMove hh m
  | close | drop => exact ⟨h.calls, h.tasks⟩
  | task _ m => exact h.of_sameFront m.sameFront

theorem State.Reachable.wakeless (h : s.Reachable) (hn : s.registry.isInstalled = false) :
    Wakeless s := by
  revert hn
  refine State.Reachable.induct (P := fun s => s.registry.isInstalled = false → Wakeless s)
    (fun pools color _ => ?_) (fun s a t hr ih m hn => ?_) h
  · exact ⟨by simp [State.start], by simp [State.start]⟩
  · -- callbacks stay, so if there is none now there was none before
    have hs : s.registry.isInstalled = false := by
      by_contra hs
      rw [m.isInstalled (by simpa using hs)] at hn
      cases hn
    exact m.wakeless hr.coherent hr.handover hs (ih hs)

/-- Whoever is to be told of a task can be told. -/
theorem State.Reachable.isInstalled (h : s.Reachable) {u : Task} (hu : u ∈ s.tasks)
    (hw : u.envelope.wake.isSome) : s.registry.isInstalled := by
  by_contra hn
  rw [(h.wakeless (by simpa using hn)).tasks u hu] at hw
  cases hw

end TaskRelay
