import Mathlib
import TaskRelay.Call.Builtin
import TaskRelay.Proofs.Relay.Completion
import TaskRelay.Proofs.Relay.Course

/-!
# Where a task goes on from

Whatever a relay does, a task keeps to the program that it is at, and to its end once that is
certain (`Stage.Onward`). So what a program can come to at all is all that the task can end with,
from any point on. Main statement: `Leads.exists_continuing`.
-/

namespace TaskRelay

variable {s t : State} {a : Action} {u : Task} {p q : Program}

/-- One step of a task, as far as its program and its end go. -/
inductive Stage.Onward : Stage → Stage → Prop where
  | stay (stage : Stage) : Onward stage stage
  | resume (p : Program) : Onward (.suspended p) (.running p)
  | go {p : Program} {stage : Stage} : p.Goes stage → Onward (.running p) stage
  | submit {entry : Entry} {name : String} {body : Arguments → Program} {args : Arguments}
      {wake : Option WakePointer} {next : Option (Except RelayError Ticket) → Program} :
      Onward (.running (.submit entry name body args wake next)) (.submitting next)
  | answered (next : Option (Except RelayError Ticket) → Program) (r : Except RelayError Ticket) :
      Onward (.submitting next) (.running (next r))
  | finish (o : Outcome) : Onward (.running (.finish o)) (.ended o)
  | keep {stage stage' : Stage} {e : Ending} : stage.decided? = some e → stage'.decided? = some e →
      Onward stage stage'
  | drop (p : Program) : Onward (.suspended p) (.recorded .cancelled)

theorem Stage.Onward.continues {stage stage' : Stage} (h : stage.Onward stage')
    (hs : stage.Continues p) : stage'.Continues p := by
  cases h with
  | stay => exact hs
  | resume => exact hs
  | go hg =>
    cases hg with
    | on hn | off hn => exact Relation.ReflTransGen.tail hs hn
    | wait => exact hs
  | submit => exact fun r => Relation.ReflTransGen.tail hs (.submit r)
  | answered next r => exact hs r
  | finish o =>
    intro o' ho
    obtain rfl := Ending.outcome.inj (Option.some.inj ho)
    exact hs
  | keep he he' => exact (Stage.continues_iff he').mpr ((Stage.continues_iff he).mp hs)
  | drop => exact (Stage.continues_iff rfl).mpr fun _ h => (nomatch h)

theorem exists_onward_setStage (hc : Coherent s) {x : Task} (hx : x ∈ s.tasks) (hu : u ∈ s.tasks)
    {stage : Stage} (ho : x.stage.Onward stage) (ht : t.tasks = (s.setStage x.id stage).tasks) :
    ∃ v ∈ t.tasks, u.Later v ∧ u.stage.Onward v.stage := by
  rw [ht]
  by_cases hid : u.id = x.id
  · obtain rfl := hc.eq_of_id_eq hu hx hid
    exact ⟨_, mem_setStage_self hu stage, ⟨rfl, rfl, rfl, rfl⟩, ho⟩
  · exact ⟨u, (State.mem_setStage s).mpr (.inr ⟨hu, hid⟩), .refl u, .stay _⟩

theorem exists_onward_answer (hd : (s.tasks.map Task.id).Nodup) (hu : u ∈ s.tasks) (c : Caller)
    (r : Except RelayError Ticket) :
    ∃ v ∈ (s.answer c r).tasks, u.Later v ∧ u.stage.Onward v.stage := by
  obtain ⟨tasks, he, rfl | ⟨x, next, -, hx, hs, rfl⟩⟩ := s.answer_eq c r
  · rw [he]
    exact ⟨u, hu, .refl u, .stay _⟩
  · rw [he]
    by_cases hid : u.id = x.id
    · obtain rfl := List.inj_on_of_nodup_map hd hu (task?_spec hx).1 hid
      refine ⟨_, mem_setStage_self hu _, ⟨rfl, rfl, rfl, rfl⟩, ?_⟩
      rw [hs]
      exact .answered next r
    · exact ⟨u, (State.mem_setStage s).mpr (.inr ⟨hu, hid⟩), .refl u, .stay _⟩

theorem TaskMove.exists_onward (hc : Coherent s) {x : Task} (hx : x ∈ s.tasks) (hu : u ∈ s.tasks)
    (m : TaskMove s x a t) : ∃ v ∈ t.tasks, u.Later v ∧ u.stage.Onward v.stage := by
  cases m with
  | @resume p hs =>
    by_cases hid : u.id = x.id
    · obtain rfl := hc.eq_of_id_eq hu hx hid
      refine ⟨_, mem_resume_self hu p, ⟨rfl, rfl, rfl, rfl⟩, ?_⟩
      rw [hs]
      exact .resume p
    · exact ⟨u, (State.mem_resume s).mpr (.inr ⟨hu, hid⟩), .refl u, .stay _⟩
  | go hs hg => exact exists_onward_setStage hc hx hu (by rw [hs]; exact .go hg) rfl
  | log hs => exact exists_onward_setStage hc hx hu (by rw [hs]; exact .go (.on .logFailure)) rfl
  | finish hs => exact exists_onward_setStage hc hx hu (by rw [hs]; exact .finish _) rfl
  | record hs | pass hs | resolve hs =>
    exact exists_onward_setStage hc hx hu (.keep (by rw [hs]; rfl) rfl) rfl
  | notify hs | react hs =>
    exact exists_onward_setStage hc hx hu
      (.keep (by rw [hs]; rfl) (Stage.decided?_ofProgress _ _))
      (State.setStage_tasks (State.afterTurn_tasks _ _ _) _ _)
  | cancel hs | cancelUnwinding hs =>
    exact exists_onward_setStage hc hx hu (by rw [hs]; exact .drop _) rfl

theorem Move.exists_onward (hc : Coherent s) (hu : u ∈ s.tasks) (m : Move s a t) :
    ∃ v ∈ t.tasks, u.Later v ∧ u.stage.Onward v.stage := by
  cases m with
  | outside m => exact ⟨u, m.tasks_eq ▸ hu, .refl u, .stay _⟩
  | ask | close | drop => exact ⟨u, hu, .refl u, .stay _⟩
  | askInside hx hs =>
    exact exists_onward_setStage hc (task?_spec hx).1 hu (by rw [hs]; exact .submit) rfl
  | call hx m =>
    cases m with
    | refuse => exact exists_onward_answer hc.ids_nodup hu _ _
    | allow | lock | number | count | send | receive => exact ⟨u, hu, .refl u, .stay _⟩
    | launch hs =>
      have hn := (hc.id_of_call (call?_spec hx).1 (by rw [hs]; rfl)).2
      exact exists_onward_answer (hc.nodup_launch hn _ _ _) (List.mem_append_left _ hu) _ _
    | abandon | unlock =>
      exact exists_onward_answer (s := s.setHolder none) hc.ids_nodup hu _ _
  | worker m =>
    cases m with
    | launch => exact ⟨u, List.mem_append_left _ hu, .refl u, .stay _⟩
    | _ => exact ⟨u, hu, .refl u, .stay _⟩
  | task hx m => exact m.exists_onward hc (task?_spec hx).1 hu

/-- From any point on a task keeps to every program that it is at. -/
theorem Leads.exists_continuing (h : Leads s t) (hr : s.Reachable) (hu : u ∈ s.tasks) :
    ∃ v ∈ t.tasks, u.Later v ∧ ∀ p, u.stage.Continues p → v.stage.Continues p := by
  induction h with
  | here => exact ⟨u, hu, .refl u, fun _ hp => hp⟩
  | step hl hs ih =>
    obtain ⟨v, hv, hlater, hcont⟩ := ih
    obtain ⟨w, hw, hlater', honward⟩ :=
      (move_of_step? hs).exists_onward (hr.leads hl).coherent hv
    exact ⟨w, hw, hlater.trans hlater', fun p hp => honward.continues (hcont p hp)⟩

/-! ## Programs that fail -/

/-- All that a program can end with is a failure that says this and has no causes. -/
inductive Program.Fails (text : String) : Program → Prop where
  | finish {f : Failure} : f.chain = ⟨text, []⟩ → Fails text (.finish (.failure f))
  | pause {p : Program} : Fails text p → Fails text (.pause p)
  | passGate {g : String} {p : Program} : Fails text p → Fails text (.passGate g p)
  | onThread {next : String → Program} : (∀ th, Fails text (next th)) → Fails text (.onThread next)
  | logFailure {name : String} {f : Failure} {p : Program} : Fails text p →
      Fails text (.logFailure name f p)
  | submit {entry : Entry} {name : String} {body : Arguments → Program} {args : Arguments}
      {wake : Option WakePointer} {next : Option (Except RelayError Ticket) → Program} :
      (∀ r, Fails text (next r)) → Fails text (.submit entry name body args wake next)
  | await {k : Ticket} {next : Except TaskError Json.Value → Program} :
      (∀ r, Fails text (next r)) → Fails text (.await k next)

namespace Program.Fails

variable {text : String}

theorem next (h : p.Fails text) (hn : p.Next q) : q.Fails text := by
  cases hn with
  | pause | passGate | logFailure =>
    cases h with
    | _ h => exact h
  | onThread | submit | await =>
    cases h with
    | _ h => exact h _

theorem follows (h : p.Fails text) (hf : p.Follows q) : q.Fails text := by
  induction hf with
  | refl => exact h
  | tail _ hn ih => exact ih.next hn

theorem outcome {o : Outcome} (h : Fails text (.finish o)) :
    ∃ f, o = .failure f ∧ f.chain = ⟨text, []⟩ := by
  cases h with
  | finish hf => exact ⟨_, rfl, hf⟩

end Program.Fails

theorem TaskError.chain_toFailure (err : TaskError) : err.toFailure.chain = ⟨err.message, []⟩ := by
  cases err <;> rfl

theorem Program.follows_finish {o : Outcome} (h : Program.Follows (.finish o) q) :
    q = .finish o := by
  rcases Relation.ReflTransGen.cases_head h with rfl | ⟨_, hn, -⟩
  · rfl
  · cases hn

/-- The ready-made callable that submits another one fails with what it learns of it. -/
theorem Program.fails_of_nested {entry : Entry} {e : Envelope} {k : Ticket}
    {next : Except TaskError Json.Value → Program}
    (h : (Program.nested entry e).Follows (.await k next)) (err : TaskError) :
    (next (.error err)).Fails err.message := by
  rcases Relation.ReflTransGen.cases_head h with heq | ⟨_, hn, h⟩
  · cases heq
  cases hn with
  | submit r =>
    match r with
    | none | some (.error _) => cases follows_finish h
    | some (.ok ticket) =>
      rcases Relation.ReflTransGen.cases_head h with heq | ⟨_, hn, h⟩
      · obtain ⟨-, rfl⟩ := Program.await.inj heq
        exact .finish err.chain_toFailure
      · cases hn with
        | await r => cases r <;> cases follows_finish h

/-- A task that is at a program that fails can end with no other outcome. -/
theorem State.Reachable.failure_of_fails {text : String} (h : s.Reachable) (hl : Leads s t)
    (hu : u ∈ s.tasks) (hs : u.stage = .running p) (hp : p.Fails text) {o : Outcome}
    (ho : t.ending? u.id = some (.outcome o)) : ∃ f, o = .failure f ∧ f.chain = ⟨text, []⟩ := by
  obtain ⟨v, hv, hlater, hcont⟩ := hl.exists_continuing h hu
  have hv' := hcont p (by rw [hs]; exact .refl)
  rw [← hlater.id] at ho
  rw [(h.leads hl).coherent.stage_of_ending? hv ho] at hv'
  exact (hp.follows (hv' o rfl)).outcome

end TaskRelay
