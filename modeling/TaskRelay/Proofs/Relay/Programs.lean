import Mathlib
import TaskRelay.Proofs.Relay.Identity

/-!
# What a task runs

A task runs the program that its own callable makes of its own arguments, from the beginning and
step by step; if it ends with an outcome, that is where this program comes to (`Task.IsFaithful`).
Main statement: `State.Reachable.allFaithful`.
-/

namespace TaskRelay

/-- What the callable makes of the arguments. -/
def Envelope.program (e : Envelope) : Program := e.callable.body e.arguments

/-- What a program can come to by its own steps. -/
def Program.Follows : Program → Program → Prop := Relation.ReflTransGen Program.Next

/-- How a task ends, once that is certain. -/
def Stage.decided? : Stage → Option Ending
  | .suspended _ | .running _ | .submitting _ => none
  | .ended o => some (.outcome o)
  | .recorded e | .notifying e _ | .notified e | .resolved e => some e

/-- The stage belongs to a run of this program. -/
def Stage.Continues (start : Program) : Stage → Prop
  | .suspended p | .running p => start.Follows p
  | .submitting next => ∀ r, start.Follows (next r)
  | stage => ∀ o, stage.decided? = some (.outcome o) → start.Follows (.finish o)

structure Task.IsFaithful (u : Task) : Prop where
  program : u.stage.Continues u.envelope.program
  /-- Before it has been on a thread it has done nothing. -/
  fresh : u.begun = false →
    u.stage = .suspended u.envelope.program ∨ u.stage.decided? = some .cancelled

variable {s t : State} {x : Task}

@[simp] theorem Stage.decided?_ofProgress (e : Ending) (p : Progress) :
    (Stage.ofProgress e p).decided? = some e := by
  cases p <;> rfl

theorem Stage.continues_iff {start : Program} {stage : Stage} {e : Ending}
    (h : stage.decided? = some e) :
    stage.Continues start ↔ ∀ o, e = .outcome o → start.Follows (.finish o) := by
  cases stage with
  | suspended | running | submitting => cases h
  | ended | recorded | notifying | notified | resolved =>
    obtain rfl := Option.some.inj h
    simp [Continues, decided?]

namespace Task.IsFaithful

/-- A task that has begun may go on to any stage of a run of its program. -/
theorem goOn {stage : Stage} (hb : x.begun = true) (hs : stage.Continues x.envelope.program) :
    IsFaithful { x with stage := stage } :=
  ⟨hs, fun h => by rw [hb] at h; cases h⟩

theorem begun (h : x.IsFaithful) (hs : x.stage ≠ .suspended x.envelope.program)
    (hc : x.stage.decided? ≠ some .cancelled) : x.begun = true := by
  by_contra hb
  rcases h.fresh (by simpa using hb) with e | e
  · exact hs e
  · exact hc e

theorem begun_of_running (h : x.IsFaithful) {p : Program} (hs : x.stage = .running p) :
    x.begun = true :=
  h.begun (by simp [hs]) (by simp [hs, Stage.decided?])

/-- Once its end is certain, a task keeps to it. -/
theorem keep {stage : Stage} {e : Ending} (h : x.IsFaithful) (he : x.stage.decided? = some e)
    (hs : stage.decided? = some e) : IsFaithful { x with stage := stage } where
  program := (Stage.continues_iff hs).mpr ((Stage.continues_iff he).mp h.program)
  fresh hb := by
    rcases h.fresh hb with e' | e'
    · rw [e'] at he
      cases he
    · exact .inr (hs.trans (he.symm.trans e'))

/-- A task that is dropped does nothing more. -/
theorem drop : IsFaithful { x with stage := .recorded .cancelled } :=
  ⟨(Stage.continues_iff rfl).mpr fun _ h => (nomatch h), fun _ => .inr rfl⟩

end Task.IsFaithful

/-! ## Programs are kept -/

/-- Every task runs its own program. -/
def State.AllFaithful (s : State) : Prop := ∀ u ∈ s.tasks, u.IsFaithful

namespace State.AllFaithful

theorem setStage (h : s.AllFaithful) (hc : Coherent s) (hx : x ∈ s.tasks) {stage : Stage}
    (hs : Task.IsFaithful { x with stage := stage })
    (ht : t.tasks = (s.setStage x.id stage).tasks) : t.AllFaithful := by
  rw [AllFaithful, ht]
  apply forall_setStage s h
  intro u hu hid
  rw [hc.eq_of_id_eq hu hx hid]
  exact hs

theorem answer (h : s.AllFaithful) (hd : (s.tasks.map Task.id).Nodup) (c : Caller)
    (r : Except RelayError Ticket) : (s.answer c r).AllFaithful := by
  refine forall_answer s c r h (fun u hu next hs => ?_) hd
  have hp := (h u hu).program
  rw [hs] at hp
  exact .goOn ((h u hu).begun (by simp [hs]) (by simp [hs, Stage.decided?])) (hp r)

theorem launch (h : s.AllFaithful) (id : Nat) (c : Caller) (pool : PoolName) (e : Envelope) :
    (s.launch id c pool e).AllFaithful := by
  intro u hu
  rcases s.mem_launch.mp hu with hu | rfl
  · exact h u hu
  · exact ⟨.refl, fun _ => .inl rfl⟩

theorem taskMove {a : Action} (h : s.AllFaithful) (hc : Coherent s) (hx : x ∈ s.tasks)
    (m : TaskMove s x a t) : t.AllFaithful := by
  have hf := h x hx
  have hp := hf.program
  cases m with
  | @resume p hs =>
    rw [hs] at hp
    intro u hu
    rcases (State.mem_resume s).mp hu with ⟨v, hv, hid, rfl⟩ | ⟨hu, -⟩
    · rw [hc.eq_of_id_eq hv hx hid]
      exact ⟨hp, fun hb => by cases hb⟩
    · exact h u hu
  | @go p stage hs hg =>
    have hb := hf.begun_of_running hs
    rw [hs] at hp
    refine h.setStage hc hx (.goOn hb ?_) rfl
    cases hg with
    | on hn | off hn => exact hp.tail hn
    | wait => exact hp
  | @log name f next hs =>
    have hb := hf.begun_of_running hs
    rw [hs] at hp
    have hn : (Stage.running next).Continues x.envelope.program := hp.tail .logFailure
    exact h.setStage hc hx (.goOn hb hn) rfl
  | finish hs =>
    have hb := hf.begun_of_running hs
    rw [hs] at hp
    refine h.setStage hc hx (.goOn hb fun o he => ?_) rfl
    obtain rfl := Ending.outcome.inj (Option.some.inj he)
    exact hp
  | record hs | pass hs | resolve hs =>
    exact h.setStage hc hx (hf.keep (by rw [hs]; rfl) rfl) rfl
  | notify hs | react hs =>
    exact h.setStage hc hx (hf.keep (by rw [hs]; rfl) (Stage.decided?_ofProgress _ _))
      (setStage_tasks (afterTurn_tasks _ _ _) _ _)
  | cancel | cancelUnwinding => exact h.setStage hc hx .drop rfl

end State.AllFaithful

theorem Move.allFaithful {a : Action} (hc : Coherent s) (h : s.AllFaithful) (m : Move s a t) :
    t.AllFaithful := by
  cases m with
  | outside m =>
    rw [State.AllFaithful, m.tasks_eq]
    exact h
  | @askInside x entry name body args wake next hx hs =>
    have hx := (task?_spec hx).1
    have hp := (h x hx).program
    have hb := (h x hx).begun_of_running hs
    rw [hs] at hp
    have hn : (Stage.submitting next).Continues x.envelope.program := fun r => hp.tail (.submit r)
    exact h.setStage hc hx (.goOn hb hn) rfl
  | call hx m =>
    cases m with
    | allow | lock | number | count | send | receive => exact h
    | refuse => exact h.answer hc.ids_nodup _ _
    | unlock | abandon => exact State.AllFaithful.answer (s := s.setHolder none) h hc.ids_nodup _ _
    | @launch id hs =>
      have hn := (hc.id_of_call (call?_spec hx).1 (by rw [hs]; rfl)).2
      exact (h.launch _ _ _ _).answer (hc.nodup_launch hn _ _ _) _ _
  | worker m =>
    cases m with
    | launch => exact h.launch _ _ _ _
    | _ => exact h
  | ask | close | drop => exact h
  | task hx m => exact h.taskMove hc (task?_spec hx).1 m

theorem State.Reachable.allFaithful (h : s.Reachable) : s.AllFaithful := by
  refine h.induct (fun pools color => ?_) fun _ _ _ hr => Move.allFaithful hr.coherent
  simp [State.AllFaithful, State.start]

end TaskRelay
