import Mathlib
import TaskRelay.Relay.Step

/-!
# What the updates of a state change

Calls are found by their caller and tasks by their id. Where such keys are distinct, an update
changes or removes one entry, and a sum or a count over the list moves by what that entry adds to it
(`sum_change`, `sum_remove`, `countP_change`, `countP_remove`). Below them, field by field, what the
updates of a state do.
-/

namespace TaskRelay

/-! ## One entry of a list with distinct keys -/

section Keyed

variable {α κ : Type} [DecidableEq κ] {key : α → κ} {l : List α} {x : α}

theorem map_change_of_not_mem (f : α → α) {k : κ} (hk : k ∉ l.map key) :
    (l.map fun y => if key y = k then f y else y) = l := by
  refine (List.map_congr_left fun y hy => if_neg ?_).trans l.map_id
  rintro rfl
  exact hk (List.mem_map_of_mem hy)

theorem filter_key_of_not_mem {k : κ} (hk : k ∉ l.map key) :
    (l.filter fun y => key y != k) = l := by
  rw [List.filter_eq_self]
  intro y hy
  rw [bne_iff_ne]
  rintro rfl
  exact hk (List.mem_map_of_mem hy)

theorem sum_change (hd : (l.map key).Nodup) (hx : x ∈ l) (f : α → α) (g : α → Nat) :
    ((l.map fun y => if key y = key x then f y else y).map g).sum + g x =
      (l.map g).sum + g (f x) := by
  induction l with
  | nil => simp at hx
  | cons y l ih =>
    rw [List.map_cons, List.nodup_cons] at hd
    rw [List.map_cons, List.map_cons, List.map_cons, List.sum_cons, List.sum_cons]
    rcases List.mem_cons.mp hx with rfl | hx
    · -- no other entry has this key
      rw [map_change_of_not_mem f hd.1, if_pos rfl]
      omega
    · have hne : key y ≠ key x := fun h => hd.1 (h ▸ List.mem_map_of_mem hx)
      rw [if_neg hne]
      have := ih hd.2 hx
      omega

theorem sum_remove (hd : (l.map key).Nodup) (hx : x ∈ l) (g : α → Nat) :
    ((l.filter fun y => key y != key x).map g).sum + g x = (l.map g).sum := by
  induction l with
  | nil => simp at hx
  | cons y l ih =>
    rw [List.map_cons, List.nodup_cons] at hd
    rw [List.map_cons, List.sum_cons]
    rcases List.mem_cons.mp hx with rfl | hx
    · rw [List.filter_cons_of_neg (by simp), filter_key_of_not_mem hd.1, Nat.add_comm]
    · have hne : key y ≠ key x := fun h => hd.1 (h ▸ List.mem_map_of_mem hx)
      rw [List.filter_cons_of_pos (by simpa using hne), List.map_cons, List.sum_cons]
      have := ih hd.2 hx
      omega

theorem sum_map_ite {α : Type} (l : List α) (q : α → Bool) :
    (l.map fun x => if q x then 1 else 0).sum = l.countP q := by
  induction l with
  | nil => rfl
  | cons x l ih =>
    rw [List.map_cons, List.sum_cons, List.countP_cons, ih]
    omega

theorem countP_change (hd : (l.map key).Nodup) (hx : x ∈ l) (f : α → α) (p : α → Bool) :
    (l.map fun y => if key y = key x then f y else y).countP p + (if p x then 1 else 0) =
      l.countP p + (if p (f x) then 1 else 0) := by
  rw [← sum_map_ite, ← sum_map_ite]
  exact sum_change hd hx f fun y => if p y then 1 else 0

theorem countP_remove (hd : (l.map key).Nodup) (hx : x ∈ l) (p : α → Bool) :
    (l.filter fun y => key y != key x).countP p + (if p x then 1 else 0) = l.countP p := by
  rw [← sum_map_ite, ← sum_map_ite]
  exact sum_remove hd hx fun y => if p y then 1 else 0

/-- What no change touches is the same for the whole list. -/
theorem map_map_change {β : Type} {f : α → α} {g : α → β} (hg : ∀ y, g (f y) = g y) (k : κ) :
    (l.map fun y => if key y = k then f y else y).map g = l.map g := by
  rw [List.map_map]
  apply List.map_congr_left
  intro y _
  by_cases hk : key y = k
  · simp [hk, hg]
  · simp [hk]

theorem mem_change {f : α → α} {k : κ} {y : α} :
    y ∈ (l.map fun y => if key y = k then f y else y) ↔
      (∃ x ∈ l, key x = k ∧ y = f x) ∨ y ∈ l ∧ key y ≠ k := by
  rw [List.mem_map]
  constructor
  · rintro ⟨x, hx, rfl⟩
    by_cases hk : key x = k
    · exact .inl ⟨x, hx, hk, if_pos hk⟩
    · rw [if_neg hk]
      exact .inr ⟨hx, hk⟩
  · rintro (⟨x, hx, hk, rfl⟩ | ⟨hy, hk⟩)
    · exact ⟨x, hx, if_pos hk⟩
    · exact ⟨y, hy, if_neg hk⟩

end Keyed

/-! ## Updates of a state -/

variable (s : State)

/-- How a task came into being. -/
def Task.launchMark (t : Task) : Mark := .launched t.id t.caller t.envelope

namespace State

@[simp] theorem noteSigns_eq (source : Source) (signs : List Sign) :
    s.noteSigns source signs =
      { s with journal := (signs.map (Mark.sign source)).reverse ++ s.journal } := by
  induction signs generalizing s with
  | nil => rfl
  | cons x signs ih =>
    show (s.note (.sign source x)).noteSigns source signs = _
    rw [ih]
    simp [note]

@[simp] theorem afterTurn_tasks (source : Source) (turn : Turn) :
    (s.afterTurn source turn).tasks = s.tasks := by
  rw [afterTurn, noteSigns_eq]

@[simp] theorem afterTurn_journal (source : Source) (turn : Turn) :
    (s.afterTurn source turn).journal =
      (turn.signs.map (Mark.sign source)).reverse ++ s.journal := by
  rw [afterTurn, noteSigns_eq]

@[simp] theorem afterTurn_registry (source : Source) (turn : Turn) :
    (s.afterTurn source turn).registry = turn.registry := by
  rw [afterTurn, noteSigns_eq]

@[simp] theorem afterTurn_counters (source : Source) (turn : Turn) :
    (s.afterTurn source turn).counters = s.counters := by
  rw [afterTurn, noteSigns_eq]

theorem mem_ask {c : Caller} {entry : Entry} {e : Envelope} {y : Call} :
    y ∈ (s.ask c entry e).calls ↔ y ∈ s.calls ∨ y = ⟨c, entry, e, .asked⟩ :=
  List.mem_append.trans (or_congr_right List.mem_singleton)

theorem mem_launch {id : Nat} {c : Caller} {pool : PoolName} {e : Envelope} {u : Task} :
    u ∈ (s.launch id c pool e).tasks ↔
      u ∈ s.tasks ∨ u = ⟨id, c, e, pool, false, .suspended (e.callable.body e.arguments)⟩ :=
  List.mem_append.trans (or_congr_right List.mem_singleton)

theorem mem_setCall {c : Caller} {stage : CallStage} {y : Call} :
    y ∈ (s.setCall c stage).calls ↔
      (∃ x ∈ s.calls, x.caller = c ∧ y = { x with stage := stage }) ∨ y ∈ s.calls ∧ y.caller ≠ c :=
  mem_change

@[simp] theorem setCall_callers (c : Caller) (stage : CallStage) :
    (s.setCall c stage).calls.map Call.caller = s.calls.map Call.caller :=
  map_map_change (fun _ => by rfl) c

theorem mem_setStage {id : Nat} {stage : Stage} {y : Task} :
    y ∈ (s.setStage id stage).tasks ↔
      (∃ x ∈ s.tasks, x.id = id ∧ y = { x with stage := stage }) ∨ y ∈ s.tasks ∧ y.id ≠ id :=
  mem_change

theorem setStage_tasks {s t : State} (h : t.tasks = s.tasks) (id : Nat) (stage : Stage) :
    (t.setStage id stage).tasks = (s.setStage id stage).tasks := by
  rw [setStage, setStage, h]

/-- What holds of all tasks, and of the changed one, holds of all tasks after the change. -/
theorem forall_setStage {P : Task → Prop} {id : Nat} {stage : Stage} (h : ∀ u ∈ s.tasks, P u)
    (hx : ∀ u ∈ s.tasks, u.id = id → P { u with stage := stage }) :
    ∀ u ∈ (s.setStage id stage).tasks, P u := by
  intro u hu
  rcases (mem_setStage s).mp hu with ⟨v, hv, hid, rfl⟩ | ⟨hu, -⟩
  · exact hx v hv hid
  · exact h u hu

@[simp] theorem setStage_ids (id : Nat) (stage : Stage) :
    (s.setStage id stage).tasks.map Task.id = s.tasks.map Task.id :=
  map_map_change (fun _ => by rfl) id

@[simp] theorem setStage_launchMarks (id : Nat) (stage : Stage) :
    (s.setStage id stage).tasks.map Task.launchMark = s.tasks.map Task.launchMark :=
  map_map_change (fun _ => by rfl) id

theorem mem_resume {id : Nat} {p : Program} {y : Task} :
    y ∈ (s.resume id p).tasks ↔
      (∃ x ∈ s.tasks, x.id = id ∧ y = { x with begun := true, stage := .running p }) ∨
        y ∈ s.tasks ∧ y.id ≠ id :=
  mem_change

@[simp] theorem resume_ids (id : Nat) (p : Program) :
    (s.resume id p).tasks.map Task.id = s.tasks.map Task.id :=
  map_map_change (fun _ => by rfl) id

@[simp] theorem resume_launchMarks (id : Nat) (p : Program) :
    (s.resume id p).tasks.map Task.launchMark = s.tasks.map Task.launchMark :=
  map_map_change (fun _ => by rfl) id

/-- An answer takes the call off, is noted, and lets a task within its submission go on. -/
theorem answer_eq (c : Caller) (r : Except RelayError Ticket) :
    ∃ tasks, s.answer c r = { s with
        calls := s.calls.filter fun x => x.caller != c,
        journal := .answered c r :: s.journal,
        tasks := tasks } ∧
      (tasks = s.tasks ∨ ∃ x next, c = .task x.id ∧ s.task? x.id = some x ∧
        x.stage = .submitting next ∧ tasks = (s.setStage x.id (.running (next r))).tasks) := by
  cases c with
  | thread n => exact ⟨s.tasks, rfl, .inl rfl⟩
  | task id =>
    simp only [answer]
    split
    · next next h =>
      obtain ⟨x, hx, hs⟩ := Option.map_eq_some_iff.mp h
      have hid : x.id = id := by simpa using List.find?_some hx
      exact ⟨_, rfl, .inr ⟨x, next, by rw [hid], by rw [hid]; exact hx, hs, by rw [hid]; rfl⟩⟩
    · exact ⟨s.tasks, rfl, .inl rfl⟩

/-- What holds of all tasks still does after an answer, if it does of the one that goes on. -/
theorem forall_answer {P : Task → Prop} (c : Caller) (r : Except RelayError Ticket)
    (h : ∀ u ∈ s.tasks, P u)
    (hx : ∀ u ∈ s.tasks, ∀ next, u.stage = .submitting next →
      P { u with stage := .running (next r) })
    (hd : (s.tasks.map Task.id).Nodup) : ∀ u ∈ (s.answer c r).tasks, P u := by
  obtain ⟨tasks, e, rfl | ⟨x, next, -, hm, hs, rfl⟩⟩ := answer_eq s c r
  · rw [e]
    exact h
  · rw [e]
    apply forall_setStage s h
    intro u hu hid
    obtain rfl := List.inj_on_of_nodup_map hd hu (List.mem_of_find?_eq_some hm) hid
    exact hx u hu next hs

section answer

variable (c : Caller) (r : Except RelayError Ticket)

@[simp] theorem answer_calls : (s.answer c r).calls = s.calls.filter fun x => x.caller != c := by
  obtain ⟨tasks, h, -⟩ := answer_eq s c r
  rw [h]

theorem mem_answer {y : Call} : y ∈ (s.answer c r).calls ↔ y ∈ s.calls ∧ y.caller ≠ c := by
  rw [answer_calls, List.mem_filter, bne_iff_ne]

@[simp] theorem answer_journal : (s.answer c r).journal = .answered c r :: s.journal := by
  obtain ⟨tasks, h, -⟩ := answer_eq s c r
  rw [h]

@[simp] theorem answer_dispatch : (s.answer c r).dispatch = s.dispatch := by
  obtain ⟨tasks, h, -⟩ := answer_eq s c r
  rw [h]

@[simp] theorem answer_nextId : (s.answer c r).nextId = s.nextId := by
  obtain ⟨tasks, h, -⟩ := answer_eq s c r
  rw [h]

@[simp] theorem answer_counters : (s.answer c r).counters = s.counters := by
  obtain ⟨tasks, h, -⟩ := answer_eq s c r
  rw [h]

@[simp] theorem answer_registry : (s.answer c r).registry = s.registry := by
  obtain ⟨tasks, h, -⟩ := answer_eq s c r
  rw [h]

@[simp] theorem answer_closers : (s.answer c r).closers = s.closers := by
  obtain ⟨tasks, h, -⟩ := answer_eq s c r
  rw [h]

@[simp] theorem answer_pools : (s.answer c r).pools = s.pools := by
  obtain ⟨tasks, h, -⟩ := answer_eq s c r
  rw [h]

@[simp] theorem answer_gateOpen : (s.answer c r).gateOpen = s.gateOpen := by
  obtain ⟨tasks, h, -⟩ := answer_eq s c r
  rw [h]

@[simp] theorem answer_dropped : (s.answer c r).dropped = s.dropped := by
  obtain ⟨tasks, h, -⟩ := answer_eq s c r
  rw [h]

@[simp] theorem answer_notices : (s.answer c r).notices = s.notices := by
  obtain ⟨tasks, h, -⟩ := answer_eq s c r
  rw [h]

@[simp] theorem answer_ids : (s.answer c r).tasks.map Task.id = s.tasks.map Task.id := by
  obtain ⟨tasks, h, rfl | ⟨x, next, -, -, -, rfl⟩⟩ := answer_eq s c r
  · rw [h]
  · rw [h]
    exact setStage_ids s x.id _

@[simp] theorem answer_launchMarks :
    (s.answer c r).tasks.map Task.launchMark = s.tasks.map Task.launchMark := by
  obtain ⟨tasks, h, rfl | ⟨x, next, -, -, -, rfl⟩⟩ := answer_eq s c r
  · rw [h]
  · rw [h]
    exact setStage_launchMarks s x.id _

end answer

end State

end TaskRelay
