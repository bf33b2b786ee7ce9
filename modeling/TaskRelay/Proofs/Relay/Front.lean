import Mathlib
import TaskRelay.Proofs.Relay.Moves
import TaskRelay.Proofs.Relay.Updates

/-!
# The front of a relay

The front is what submissions and the dispatch worker see: the calls under way, the dispatch, the
ids, and which tasks there are. Moves of tasks and moves from outside leave it as it is
(`SameFront`).
-/

namespace TaskRelay

/-! ## What the front is -/

/-- Marks of submissions and of the dispatch. -/
def Mark.isFront : Mark → Bool
  | .asked _ _ _ | .locked _ | .sent _ | .launched _ _ _ | .published _ | .received _ _
  | .answered _ _ | .closed => true
  | _ => false

structure SameFront (s t : State) : Prop where
  calls : t.calls = s.calls
  dispatch : t.dispatch = s.dispatch
  nextId : t.nextId = s.nextId
  ids : t.tasks.map Task.id = s.tasks.map Task.id
  launchMarks : t.tasks.map Task.launchMark = s.tasks.map Task.launchMark
  direct : t.counters.direct = s.counters.direct
  dispatched : t.counters.dispatched = s.counters.dispatched
  marks : t.journal.filter Mark.isFront = s.journal.filter Mark.isFront

variable {s t : State} {a : Action}

namespace SameFront

theorem trans {u : State} (h : SameFront s t) (h' : SameFront t u) : SameFront s u where
  calls := h'.calls.trans h.calls
  dispatch := h'.dispatch.trans h.dispatch
  nextId := h'.nextId.trans h.nextId
  ids := h'.ids.trans h.ids
  launchMarks := h'.launchMarks.trans h.launchMarks
  direct := h'.direct.trans h.direct
  dispatched := h'.dispatched.trans h.dispatched
  marks := h'.marks.trans h.marks

theorem note {m : Mark} (h : m.isFront = false) : SameFront s (s.note m) where
  calls := rfl
  dispatch := rfl
  nextId := rfl
  ids := rfl
  launchMarks := rfl
  direct := rfl
  dispatched := rfl
  marks := List.filter_cons_of_neg (by simp [h])

theorem setStage (id : Nat) (stage : Stage) : SameFront s (s.setStage id stage) where
  calls := rfl
  dispatch := rfl
  nextId := rfl
  ids := s.setStage_ids id stage
  launchMarks := s.setStage_launchMarks id stage
  direct := rfl
  dispatched := rfl
  marks := rfl

theorem resume (id : Nat) (p : Program) : SameFront s (s.resume id p) where
  calls := rfl
  dispatch := rfl
  nextId := rfl
  ids := s.resume_ids id p
  launchMarks := s.resume_launchMarks id p
  direct := rfl
  dispatched := rfl
  marks := rfl

theorem afterTurn (source : Source) (turn : Turn) : SameFront s (s.afterTurn source turn) := by
  have hm : ((turn.signs.map (Mark.sign source)).reverse).filter Mark.isFront = [] := by
    simp [Mark.isFront]
  rw [State.afterTurn, State.noteSigns_eq]
  refine ⟨rfl, rfl, rfl, rfl, rfl, rfl, rfl, ?_⟩
  rw [List.filter_append, hm, List.nil_append]

theorem countOutcome (o : Outcome) :
    SameFront s { s with counters := State.countOutcome s.counters o } := by
  cases o <;> exact ⟨rfl, rfl, rfl, rfl, rfl, rfl, rfl, rfl⟩

end SameFront

theorem OutsideMove.sameFront (h : OutsideMove s a t) : SameFront s t := by
  cases h with
  | notify n w notices =>
    have hn : SameFront s (s.note (.notify (.thread n) w)) := .note rfl
    refine (hn.trans (.afterTurn (.thread n) (s.registry.notify w))).trans ?_
    exact ⟨rfl, rfl, rfl, rfl, rfl, rfl, rfl, rfl⟩
  | react n i notices =>
    refine (SameFront.afterTurn (.thread n) (s.registry.step i)).trans ?_
    exact ⟨rfl, rfl, rfl, rfl, rfl, rfl, rfl, rfl⟩
  | _ => exact ⟨rfl, rfl, rfl, rfl, rfl, rfl, rfl, rfl⟩

theorem OutsideMove.tasks_eq (h : OutsideMove s a t) : t.tasks = s.tasks := by
  cases h with
  | notify | react => simp only [State.afterTurn, State.noteSigns_eq, State.note]
  | _ => rfl

theorem TaskMove.sameFront {x : Task} (h : TaskMove s x a t) : SameFront s t := by
  cases h with
  | resume => exact .resume x.id _
  | go | finish | pass | cancel => exact .setStage x.id _
  | log | resolve => exact (SameFront.setStage x.id _).trans (.note rfl)
  | record => exact ((SameFront.countOutcome _).trans (.note rfl)).trans (.setStage x.id _)
  | notify => exact ((SameFront.note rfl).trans (.afterTurn _ _)).trans (.setStage x.id _)
  | react => exact (SameFront.afterTurn _ _).trans (.setStage x.id _)
  | cancelUnwinding =>
    refine SameFront.trans ?_ (.setStage x.id _)
    refine SameFront.trans ?_ (.note rfl)
    exact ⟨rfl, rfl, rfl, rfl, rfl, rfl, rfl, rfl⟩

/-- A move of a task changes that task alone. -/
theorem TaskMove.exists_change {x : Task} (h : TaskMove s x a t) :
    ∃ f : Task → Task, t.tasks = s.tasks.map fun u => if u.id = x.id then f u else u := by
  cases h with
  | notify | react =>
    simp only [State.afterTurn, State.noteSigns_eq]
    exact ⟨_, rfl⟩
  | _ => exact ⟨_, rfl⟩

end TaskRelay
