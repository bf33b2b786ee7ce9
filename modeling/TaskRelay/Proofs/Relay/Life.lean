import Mathlib
import TaskRelay.Proofs.Relay.Installed
import TaskRelay.Proofs.Relay.Programs

/-!
# The end of a task

The marks about the end of one task, which stand in the journal in one order whatever the rest of
the relay does: the outcome is recorded, the notification runs until its callback has returned, and
the handle is resolved. `Life` says of each stage exactly which of these marks there are.
Main statement: `State.Reachable.lives`.
-/

namespace TaskRelay

variable {s t : State} {x : Task} {a : Action}

/-! ## Marks about one task -/

/-- A mark about the end of the task with this id. -/
def Mark.isOf (id : Nat) : Mark → Bool
  | .recorded i _ | .cancelledUnwinding i | .notify (.task i) _ | .sign (.task i) _
  | .resolved i _ => i == id
  | _ => false

/-- What stands in the journal about the end of a task, from the beginning. -/
def State.life (s : State) (id : Nat) : List Mark := s.history.filter (Mark.isOf id)

theorem life_of_marks {ms : List Mark} (h : t.journal = ms ++ s.journal) (id : Nat) :
    t.life id = s.life id ++ ms.reverse.filter (Mark.isOf id) := by
  rw [State.life, State.history, h, List.reverse_append, List.filter_append]
  rfl

theorem isOf_of_isFront {m : Mark} (h : m.isFront) (id : Nat) : m.isOf id = false := by
  cases m <;> first | rfl | cases h

/-- The signs of a task's notification are all about it. -/
theorem filter_signs (id : Nat) (l : List Sign) :
    (l.map (Mark.sign (.task id))).filter (Mark.isOf id) = l.map (Mark.sign (.task id)) := by
  rw [List.filter_eq_self]
  intro m hm
  obtain ⟨x, -, rfl⟩ := List.mem_map.mp hm
  simp [Mark.isOf]

theorem SameBack.life (h : SameBack s t) (id : Nat) : t.life id = s.life id := by
  obtain ⟨ms, hj, hm⟩ := h.marks
  have h0 : ms.reverse.filter (Mark.isOf id) = [] := by
    rw [List.filter_eq_nil_iff]
    intro m hi
    simp [isOf_of_isFront (hm m (List.mem_reverse.mp hi))]
  rw [life_of_marks hj, h0, List.append_nil]

theorem OutsideMove.life (m : OutsideMove s a t) (id : Nat) : t.life id = s.life id := by
  have hsigns : ∀ (n : Nat) (l : List Sign),
      (l.map (Mark.sign (.thread n))).filter (Mark.isOf id) = [] := by
    intro n l
    simp [Mark.isOf]
  cases m with
  | notify n w notices =>
    simp [State.life, State.history, State.note, hsigns, Mark.isOf]
  | react n i notices => simp [State.life, State.history, hsigns]
  | _ => rfl

/-! ## How a task ends -/

/-- The end of a task, once it is counted and logged. -/
def Stage.recorded? : Stage → Option Ending
  | .recorded e | .notifying e _ | .notified e | .resolved e => some e
  | _ => none

/-- The marks by which an end is counted and logged. -/
inductive Entered (id : Nat) : Ending → List Mark → Prop
  | outcome (o : Outcome) : Entered id (.outcome o) [.recorded id o]
  | cancelled : Entered id .cancelled []
  /-- Dropped on a thread that was unwinding. -/
  | unwound : Entered id .cancelled [.cancelledUnwinding id]

/-- The marks of the notification of a task, while so many callbacks are running. -/
inductive Told (id : Nat) : Option WakePointer → Nat → List Mark → Prop
  | nobody : Told id none 0 []
  | notify {w : WakePointer} {n : Nat} {l : List Sign} : Nesting w n l →
      Told id (some w) n (.notify (.task id) w :: l.map (Mark.sign (.task id)))

/-- The marks about the end of a task, by its stage. -/
inductive Life (id : Nat) (wake : Option WakePointer) : Stage → List Mark → Prop
  | live {stage : Stage} : stage.recorded? = none → Life id wake stage []
  | recorded {e : Ending} {l : List Mark} : Entered id e l → Life id wake (.recorded e) l
  | notifying {e : Ending} {i : Invocation} {l l' : List Mark} : Entered id e l →
      Told id wake (i.waiting.length + 1) l' → Life id wake (.notifying e i) (l ++ l')
  | notified {e : Ending} {l l' : List Mark} : Entered id e l → Told id wake 0 l' →
      Life id wake (.notified e) (l ++ l')
  | resolved {e : Ending} {l l' : List Mark} : Entered id e l → Told id wake 0 l' →
      Life id wake (.resolved e) (l ++ l' ++ [.resolved id e])

namespace Life

variable {id : Nat} {wake : Option WakePointer} {l l' : List Mark} {e : Ending}

theorem ofProgress {p : Progress} (h : Entered id e l) (h' : Told id wake p.depth l') :
    Life id wake (.ofProgress e p) (l ++ l') := by
  cases p with
  | running i => exact .notifying h h'
  | done b => exact .notified h h'

theorem eq_nil {stage : Stage} (h : Life id wake stage l) (hs : stage.recorded? = none) :
    l = [] := by
  cases h with
  | live => rfl
  | recorded | notifying | notified | resolved => cases hs

end Life

/-- A turn of the registry adds its signs to those of the task. -/
theorem Told.step {id : Nat} {wake : Option WakePointer} {l : List Mark} {i : Invocation}
    {r : Registry} (hr : wake.isSome → r.isInstalled)
    (h : Told id wake (i.waiting.length + 1) l) :
    Told id wake (r.step i).progress.depth
      (l ++ (r.step i).signs.map (Mark.sign (.task id))) := by
  cases h with
  | notify hn =>
    rw [List.cons_append, ← List.map_append]
    exact .notify (Registry.nesting_step (hr rfl) hn)

structure Lives (s : State) : Prop where
  tasks : ∀ u ∈ s.tasks, Life u.id u.envelope.wake u.stage (s.life u.id)
  /-- There is nothing about a task that does not exist. -/
  others : ∀ id, id ∉ s.tasks.map Task.id → s.life id = []

namespace Lives

/-- A change of one task comes with marks about it alone. -/
theorem change (h : Lives s) (hc : Coherent s) (hx : x ∈ s.tasks) (f : Task → Task)
    (ms : List Mark) (hf : ∀ u, (f u).id = u.id ∧ (f u).envelope = u.envelope)
    (ht : t.tasks = s.tasks.map fun u => if u.id = x.id then f u else u)
    (hj : t.journal = ms ++ s.journal)
    (hms : ∀ id, id ≠ x.id → ms.reverse.filter (Mark.isOf id) = [])
    (hl : Life x.id x.envelope.wake (f x).stage
      (s.life x.id ++ ms.reverse.filter (Mark.isOf x.id))) : Lives t := by
  have hkeep : ∀ id, id ≠ x.id → t.life id = s.life id := by
    intro id hne
    rw [life_of_marks hj, hms id hne, List.append_nil]
  refine ⟨fun u hu => ?_, fun id hid => ?_⟩
  · rw [ht] at hu
    rcases mem_change.mp hu with ⟨v, hv, hid, rfl⟩ | ⟨hu, hne⟩
    · obtain rfl := hc.eq_of_id_eq hv hx hid
      rw [(hf v).1, (hf v).2, life_of_marks hj]
      exact hl
    · rw [hkeep u.id hne]
      exact h.tasks u hu
  · rw [ht, map_map_change (fun u => (hf u).1) x.id] at hid
    have hne : id ≠ x.id := by
      rintro rfl
      exact hid (List.mem_map_of_mem hx)
    rw [hkeep id hne]
    exact h.others id hid

/-- The same for a change of the stage. -/
theorem setStage (h : Lives s) (hc : Coherent s) (hx : x ∈ s.tasks) {stage : Stage}
    (ms : List Mark) (ht : t.tasks = (s.setStage x.id stage).tasks)
    (hj : t.journal = ms ++ s.journal)
    (hms : ∀ id, id ≠ x.id → ms.reverse.filter (Mark.isOf id) = [])
    (hl : Life x.id x.envelope.wake stage
      (s.life x.id ++ ms.reverse.filter (Mark.isOf x.id))) : Lives t :=
  h.change hc hx (fun u => { u with stage := stage }) ms (fun _ => ⟨rfl, rfl⟩) ht hj hms hl

theorem life_eq_nil (h : Lives s) (hx : x ∈ s.tasks) (hs : x.stage.recorded? = none) :
    s.life x.id = [] :=
  (h.tasks x hx).eq_nil hs

/-- A change of stage before the end, which is noted by nothing about the end. -/
theorem setLive (h : Lives s) (hc : Coherent s) (hx : x ∈ s.tasks) {stage : Stage}
    (ms : List Mark) (ht : t.tasks = (s.setStage x.id stage).tasks)
    (hj : t.journal = ms ++ s.journal) (hms : ∀ id, ms.reverse.filter (Mark.isOf id) = [])
    (hx' : x.stage.recorded? = none) (hs : stage.recorded? = none) : Lives t := by
  refine h.setStage hc hx ms ht hj (fun id _ => hms id) ?_
  rw [h.life_eq_nil hx hx', hms]
  exact .live hs

theorem taskMove (h : Lives s) (hc : Coherent s)
    (hw : x.envelope.wake.isSome → s.registry.isInstalled) (hx : x ∈ s.tasks)
    (m : TaskMove s x a t) : Lives t := by
  have hl := h.tasks x hx
  cases m with
  | @resume p hs =>
    refine h.change hc hx (fun u => { u with begun := true, stage := .running p }) []
      (fun _ => ⟨rfl, rfl⟩) rfl rfl (fun _ _ => rfl) ?_
    rw [h.life_eq_nil hx (by rw [hs]; rfl)]
    exact .live rfl
  | go hs hg =>
    exact h.setLive hc hx [] rfl rfl (fun _ => rfl) (by rw [hs]; rfl) (by cases hg <;> rfl)
  | finish hs => exact h.setLive hc hx [] rfl rfl (fun _ => rfl) (by rw [hs]; rfl) rfl
  | @log name f next hs =>
    exact h.setLive hc hx [.loggedFailure name f] rfl rfl (fun _ => rfl) (by rw [hs]; rfl) rfl
  | @record o hs =>
    refine h.setStage hc hx [.recorded x.id o] rfl rfl (fun id hne => ?_) ?_
    · simp [Mark.isOf, hne.symm]
    · rw [h.life_eq_nil hx (by rw [hs]; rfl)]
      simpa [Mark.isOf] using Life.recorded (.outcome o)
  | @pass e hs hn =>
    refine h.setStage hc hx [] rfl rfl (fun _ _ => rfl) ?_
    rw [hs] at hl
    generalize s.life x.id = l at hl ⊢
    cases hl with
    | live hs => cases hs
    | recorded he =>
      rw [hn]
      exact .notified he .nobody
  | @notify e w hs hn =>
    have hr := hw (by rw [hn]; rfl)
    refine h.setStage hc hx
      (((s.registry.notify w).signs.map (Mark.sign (.task x.id))).reverse ++
        [.notify (.task x.id) w]) (State.setStage_tasks (State.afterTurn_tasks _ _ _) _ _) ?_
      (fun id hne => ?_) ?_
    · simp [State.setStage, State.note]
    · simp [Mark.isOf, hne.symm]
    · -- a task that is told of has its callback, so the notification begins with a call
      have ht : Told x.id (some w) _ _ := .notify (Registry.nesting_notify hr w)
      rw [hs] at hl
      generalize s.life x.id = l at hl ⊢
      cases hl with
      | live hs => cases hs
      | recorded he =>
        rw [hn]
        simpa [Mark.isOf, filter_signs] using Life.ofProgress he ht
  | @react e i hs =>
    refine h.setStage hc hx ((s.registry.step i).signs.map (Mark.sign (.task x.id))).reverse
      (State.setStage_tasks (State.afterTurn_tasks _ _ _) _ _) ?_ (fun id hne => ?_) ?_
    · simp [State.setStage]
    · simp [Mark.isOf, hne.symm]
    · rw [hs] at hl
      generalize s.life x.id = l at hl ⊢
      cases hl with
      | live hs => cases hs
      | notifying he ht =>
        have ht' := ht.step hw
        simpa [filter_signs] using Life.ofProgress he ht'
  | @resolve e hs =>
    refine h.setStage hc hx [.resolved x.id e] rfl rfl (fun id hne => ?_) ?_
    · simp [Mark.isOf, hne.symm]
    · rw [hs] at hl
      generalize s.life x.id = l at hl ⊢
      cases hl with
      | live hs => cases hs
      | notified he ht => simpa [Mark.isOf] using Life.resolved he ht
  | cancel hs =>
    refine h.setStage hc hx [] rfl rfl (fun _ _ => rfl) ?_
    rw [h.life_eq_nil hx (by rw [hs]; rfl)]
    exact .recorded .cancelled
  | cancelUnwinding hs =>
    refine h.setStage hc hx [.cancelledUnwinding x.id] rfl rfl (fun id hne => ?_) ?_
    · simp [Mark.isOf, hne.symm]
    · rw [h.life_eq_nil hx (by rw [hs]; rfl)]
      have he : Entered x.id .cancelled [.cancelledUnwinding x.id] := .unwound
      simpa [Mark.isOf] using Life.recorded he

/-- A task that goes on after an answer is still far from its end. -/
theorem answer (h : Lives s) (hd : (s.tasks.map Task.id).Nodup) (c : Caller)
    (r : Except RelayError Ticket) : Lives (s.answer c r) := by
  have hlife := (SameBack.answer (s := s) c r).life
  refine ⟨?_, fun id hid => ?_⟩
  · refine State.forall_answer s c r (fun u hu => ?_) (fun u hu next hs => ?_) hd
    · rw [hlife]
      exact h.tasks u hu
    · rw [hlife, h.life_eq_nil hu (by rw [hs]; rfl)]
      exact .live rfl
  · rw [State.answer_ids] at hid
    rw [hlife]
    exact h.others id hid

theorem launch (h : Lives s) {id : Nat} (hid : id ∉ s.tasks.map Task.id) (c : Caller)
    (pool : PoolName) (e : Envelope) : Lives (s.launch id c pool e) := by
  have hlife := (SameBack.launch (s := s) id c pool e).life
  refine ⟨fun u hu => ?_, fun i hi => ?_⟩
  · rw [hlife]
    rcases s.mem_launch.mp hu with hu | rfl
    · exact h.tasks u hu
    · rw [h.others id hid]
      exact .live rfl
  · rw [hlife]
    refine h.others i fun hm => hi ?_
    simp only [State.launch, State.note, List.map_append]
    exact List.mem_append_left _ hm

/-- A move of the front that leaves the tasks alone. -/
theorem of_sameBack (h : Lives s) (hb : SameBack s t) (ht : t.tasks = s.tasks) : Lives t := by
  refine ⟨?_, ?_⟩
  · rw [ht]
    intro u hu
    rw [hb.life]
    exact h.tasks u hu
  · rw [ht]
    intro id hid
    rw [hb.life]
    exact h.others id hid

end Lives

theorem Move.lives (hc : Coherent s)
    (hw : ∀ u ∈ s.tasks, u.envelope.wake.isSome → s.registry.isInstalled) (h : Lives s)
    (m : Move s a t) : Lives t := by
  cases m with
  | outside m =>
    refine ⟨?_, ?_⟩
    · rw [m.tasks_eq]
      intro u hu
      rw [m.life]
      exact h.tasks u hu
    · rw [m.tasks_eq]
      intro id hid
      rw [m.life]
      exact h.others id hid
  | ask => exact h.of_sameBack (.ask _ _ _) rfl
  | @askInside x entry name body args wake next hx hs =>
    have h' : Lives (s.setStage x.id (.submitting next)) :=
      h.setLive hc (task?_spec hx).1 [] rfl rfl (fun _ => rfl) (by rw [hs]; rfl) rfl
    exact h'.of_sameBack (.ask _ _ _) rfl
  | call hx m =>
    have hb := m.sameBack
    cases m with
    | allow | lock | number | count | send | receive => exact h.of_sameBack hb rfl
    | refuse => exact h.answer hc.ids_nodup _ _
    | abandon | unlock =>
      exact Lives.answer (s := s.setHolder none) ⟨h.tasks, h.others⟩ hc.ids_nodup _ _
    | @launch id hs =>
      have hn := (hc.id_of_call (call?_spec hx).1 (by rw [hs]; rfl)).2
      exact (h.launch hn _ _ _).answer (hc.nodup_launch hn _ _ _) _ _
  | worker m =>
    have hb := m.sameBack
    cases m with
    | @launch p id hw =>
      have hn := (hc.id_of_worker (by rw [hw]; rfl)).2
      have h' := h.launch hn p.sender .parallel p.envelope
      exact ⟨h'.tasks, h'.others⟩
    | _ => exact h.of_sameBack hb rfl
  | close => exact h.of_sameBack (.close _ _) rfl
  | drop => exact ⟨h.tasks, h.others⟩
  | task hx m => exact h.taskMove hc (hw _ (task?_spec hx).1) (task?_spec hx).1 m

theorem State.Reachable.lives (h : s.Reachable) : Lives s := by
  refine h.induct (fun pools color => ?_) fun s a t hr ih m =>
    m.lives hr.coherent (fun u => hr.isInstalled) ih
  exact ⟨by simp [State.start], fun _ _ => rfl⟩

end TaskRelay
