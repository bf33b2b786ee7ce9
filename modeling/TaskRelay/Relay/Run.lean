import TaskRelay.Relay.Start
import TaskRelay.Relay.Stats
import TaskRelay.Relay.Step

/-!
# Runs

`Leads s t` says that some steps lead from `s` to `t`; a run may also be given as the list of its
actions. `State.settle` is one way to run: it takes steps until nobody can take one, and wherever it
stops is led to (`leads_settle`).
-/

namespace TaskRelay

/-! ## All runs -/

inductive Leads (s : State) : State → Prop where
  | here : Leads s s
  | step {t u : State} {a : Action} : Leads s t → t.step? a = some u → Leads s u

theorem Leads.trans {s t u : State} (h : Leads s t) (h' : Leads t u) : Leads s u := by
  induction h' with
  | here => exact h
  | step _ e ih => exact ih.step e

/-- The states that a relay can come to, wherever it is started. -/
def State.Reachable (s : State) : Prop :=
  ∃ site hosted settings first, State.startWith site hosted settings = .running first ∧
    Leads first s

/-- Takes the steps one after another, if every one can be taken. -/
def State.after? (s : State) : List Action → Option State
  | [] => some s
  | a :: rest => s.step? a >>= fun t => t.after? rest

theorem leads_of_after? {as : List Action} :
    ∀ {s t : State}, s.after? as = some t → Leads s t := by
  induction as with
  | nil =>
    intro s t h
    obtain rfl := Option.some.inj h
    exact .here
  | cons a rest ih =>
    intro s t h
    obtain ⟨u, hu, h⟩ := Option.bind_eq_some_iff.mp h
    exact (Leads.here.step hu).trans (ih h)

theorem after?_append (s : State) (as bs : List Action) :
    s.after? (as ++ bs) = s.after? as >>= fun t => t.after? bs := by
  induction as generalizing s with
  | nil => rfl
  | cons a rest ih =>
    show (s.step? a).bind _ = ((s.step? a).bind _).bind _
    cases s.step? a with
    | none => rfl
    | some t => exact ih t

theorem exists_after?_of_leads {s t : State} (h : Leads s t) : ∃ as, s.after? as = some t := by
  induction h with
  | here => exact ⟨[], rfl⟩
  | @step t u a _ e ih =>
    obtain ⟨as, h⟩ := ih
    refine ⟨as ++ [a], ?_⟩
    rw [after?_append, h]
    show (t.step? a).bind _ = _
    rw [e]
    rfl

/-- Figures read one after another, with any steps before each. -/
inductive ReadsAlong : State → List Figure → List Nat → Prop where
  | nil (s : State) : ReadsAlong s [] []
  | cons {s t : State} {f : Figure} {fs : List Figure} {ns : List Nat} :
      Leads s t → ReadsAlong t fs ns → ReadsAlong s (f :: fs) (t.figure f :: ns)

/-! ## Running until nothing moves -/

namespace State

/--
What could be the next step without anything done from outside, in the order of trying. Pools that
end drop a task rather than take steps of it.
-/
def candidates (s : State) : List Action :=
  (s.calls.map fun x => .call x.caller) ++
    .worker :: (s.closers.map fun x => .close x.thread) ++
    (s.notices.map fun x => .react x.thread) ++
    (s.tasks.filter fun t => !t.isResolved).flatMap fun t => [.cancel t.id false, .task t.id]

def next? (s : State) : Option State := s.candidates.findSome? s.step?

/-- Takes steps until there is none left to take, but at most `fuel`. -/
def settle : Nat → State → State
  | 0, s => s
  | fuel + 1, s =>
    match s.next? with
    | some t => settle fuel t
    | none => s

theorem leads_settle (fuel : Nat) (s : State) : Leads s (settle fuel s) := by
  induction fuel generalizing s with
  | zero => exact .here
  | succ fuel ih =>
    unfold settle
    split
    · next t h =>
      obtain ⟨a, _, ha⟩ := List.exists_of_findSome?_eq_some h
      exact (Leads.here.step ha).trans (ih t)
    · exact .here

end State

end TaskRelay
