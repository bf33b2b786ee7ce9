import Mathlib
import TaskRelay.Proofs.Relay.Descent
import TaskRelay.Proofs.Relay.Dropping
import TaskRelay.Proofs.Relay.Pursuit

/-!
# Tasks that wait for tasks of their own

Where a task takes from a handle how a task of its own ended, that one is over and all marks about
its end stand in the journal, and there is none yet about the task that waited. So along a line of
tasks, each of which waits for the next, the ends follow one another from the innermost on.
Main statement: `life_of_chain`.
-/

namespace TaskRelay

variable {first s t : State} {as bs : List Action} {i j : Nat} {l : List Nat}

/-- The step of a run in which a task takes from the handle of a task of its own how that one
ended. -/
structure Receipt (first : State) (as : List Action) where
  before : List Action
  after : List Action
  state : State
  outer : Task
  inner : Task
  ticket : Ticket
  next : Except TaskError Json.Value → Program
  ending : Ending
  split : as = before ++ .task outer.id :: after
  reached : first.after? before = some state
  outer_mem : outer ∈ state.tasks
  awaits : outer.stage = .running (.await ticket next)
  inner_mem : inner ∈ state.tasks
  ticket_id : ticket.id = inner.id
  caller : inner.caller = .task outer.id
  ended : inner.ending? = some ending

/-- The task with the one id submits the task with the other and waits for it. -/
def Gets (first : State) (as : List Action) (i j : Nat) : Prop :=
  ∃ r : Receipt first as, r.outer.id = i ∧ r.inner.id = j

theorem Coherent.exists_task_of_ending? (h : Coherent s) {e : Ending} (he : s.ending? i = some e) :
    ∃ u ∈ s.tasks, u.id = i ∧ u.stage = .resolved e := by
  obtain ⟨u, hu, -⟩ := Option.bind_eq_some_iff.mp he
  obtain ⟨hm, rfl⟩ := task?_spec hu
  exact ⟨u, hm, rfl, h.stage_of_ending? hm he⟩

/-- Nothing more is heard of a task with a result. -/
theorem Leads.ending?_life (hl : Leads s t) (h : s.Reachable) {e : Ending}
    (he : s.ending? i = some e) : t.ending? i = some e ∧ t.life i = s.life i := by
  obtain ⟨u, hm, rfl, hs⟩ := h.coherent.exists_task_of_ending? he
  obtain ⟨hv, hlife⟩ := hl.resolved h hm (by rw [Task.isResolved, Task.ending?, hs]; rfl)
  refine ⟨?_, hlife⟩
  rw [State.ending?, (h.leads hl).coherent.task?_eq hv, Option.bind_some, Task.ending?, hs]
  rfl

/-- So whatever is noted later is about others. -/
theorem Leads.exists_later_history (hl : Leads s t) (h : s.Reachable) :
    ∃ later, t.history = s.history ++ later ∧
      ∀ i, (s.ending? i).isSome → ∀ m ∈ later, m.isOf i = false := by
  obtain ⟨later, hlater⟩ := hl.history_isPrefix
  refine ⟨later, hlater.symm, fun i hi m hm => ?_⟩
  obtain ⟨e, he⟩ := Option.isSome_iff_exists.mp hi
  have hlife := (hl.ending?_life h he).2
  rw [State.life, ← hlater, List.filter_append] at hlife
  have hnil := List.append_right_eq_self.mp hlife
  exact Bool.eq_false_of_not_eq_true (List.filter_eq_nil_iff.mp hnil m hm)

namespace Receipt

variable (r : Receipt first as)

theorem leads (hs : first.after? as = some s) : Leads r.state s := by
  rw [r.split, after?_append, r.reached] at hs
  exact leads_of_after? hs

theorem reachable (hf : first.Reachable) : r.state.Reachable := hf.after r.reached

theorem lt (hf : first.Reachable) : r.outer.id < r.inner.id :=
  (r.reachable hf).lt_of_caller r.inner_mem r.caller

theorem inner_ending? (hf : first.Reachable) : r.state.ending? r.inner.id = some r.ending := by
  rw [State.ending?, (r.reachable hf).coherent.task?_eq r.inner_mem]
  exact r.ended

theorem outer_life (hf : first.Reachable) : r.state.life r.outer.id = [] :=
  (r.reachable hf).lives.life_eq_nil r.outer_mem (by rw [r.awaits]; rfl)

theorem outer_ending? (hf : first.Reachable) : r.state.ending? r.outer.id = none := by
  rw [State.ending?, (r.reachable hf).coherent.task?_eq r.outer_mem, Option.bind_some, Task.ending?,
    r.awaits]
  rfl

/-- Whoever has ended has taken what it has taken before. -/
theorem exists_earlier (hf : first.Reachable) (hb : bs <+: as) (ht : first.after? bs = some t)
    (he : (t.ending? r.outer.id).isSome) :
    ∃ r' : Receipt first bs, r'.outer.id = r.outer.id ∧ r'.inner.id = r.inner.id := by
  have hearlier : ∀ after, bs = r.before ++ .task r.outer.id :: after →
      ∃ r' : Receipt first bs, r'.outer.id = r.outer.id ∧ r'.inner.id = r.inner.id :=
    fun after h => ⟨{ r with after := after, split := h }, rfl, rfl⟩
  have hr : r.before ++ [.task r.outer.id] <+: as :=
    ⟨r.after, (List.append_assoc _ _ _).trans r.split.symm⟩
  rcases List.prefix_or_prefix_of_prefix hr hb with ⟨after, h⟩ | h
  · exact hearlier after (h.symm.trans (List.append_assoc _ _ _))
  rcases List.prefix_concat_iff.mp h with h | ⟨rest, h⟩
  · exact hearlier [] h
  · -- a task that has ended is not running later
    obtain ⟨e, he⟩ := Option.isSome_iff_exists.mp he
    have hl : Leads t r.state := by
      have hr := r.reached
      rw [← h, after?_append, ht] at hr
      exact leads_of_after? hr
    have he' := (hl.ending?_life (hf.after ht) he).1
    rw [r.outer_ending? hf] at he'
    cases he'

end Receipt

/-- The next step of the task is such a step. -/
def State.takes (s : State) (i j : Nat) : Bool :=
  match s.task? i, s.task? j with
  | some outer, some inner =>
    match outer.stage with
    | .running (.await k _) => k.id = j ∧ inner.caller = .task i ∧ inner.isResolved
    | _ => false
  | _, _ => false

theorem exists_receipt (hs : first.after? bs = some s) (h : s.takes i j) (as : List Action) :
    ∃ r : Receipt first (bs ++ .task i :: as), r.outer.id = i ∧ r.inner.id = j ∧
      s.task? i = some r.outer := by
  unfold State.takes at h
  split at h
  case h_1 outer inner ho hi =>
    obtain ⟨hom, rfl⟩ := task?_spec ho
    obtain ⟨him, rfl⟩ := task?_spec hi
    split at h
    case h_1 k next hawaits =>
      obtain ⟨hk, hcaller, he⟩ := of_decide_eq_true h
      obtain ⟨e, he⟩ := Option.isSome_iff_exists.mp he
      exact ⟨⟨bs, as, s, outer, inner, k, next, e, rfl, hs, hom, hawaits, him, hk, hcaller, he⟩,
        rfl, rfl, ho⟩
    case h_2 => cases h
  case h_2 => cases h

/-! ## Lines of tasks -/

/-- Before the outermost task of a line ended, all others had ended and had been waited for. -/
theorem chain_earlier (hf : first.Reachable) (hb : bs <+: as) (ht : first.after? bs = some t)
    (hl : l.IsChain (Gets first as)) (he : ∀ i ∈ l.head?, (t.ending? i).isSome) :
    l.IsChain (Gets first bs) ∧ ∀ i ∈ l, (t.ending? i).isSome := by
  induction l with
  | nil => exact ⟨.nil, fun _ hi => (nomatch hi)⟩
  | cons i l ih =>
    have hi : (t.ending? i).isSome := he i rfl
    cases l with
    | nil => exact ⟨.singleton i, fun _ hm => List.eq_of_mem_singleton hm ▸ hi⟩
    | cons j l =>
      obtain ⟨⟨r, rfl, rfl⟩, htail⟩ := List.isChain_cons_cons.mp hl
      obtain ⟨r', ho, hin⟩ := r.exists_earlier hf hb ht hi
      have hj := ((r'.leads ht).ending?_life (r'.reachable hf) (r'.inner_ending? hf)).1
      rw [hin] at hj
      obtain ⟨hchain, hall⟩ := ih htail fun k hk => by
        obtain rfl := Option.some.inj hk
        exact Option.isSome_of_eq_some hj
      exact ⟨.cons_cons ⟨r', ho, hin⟩ hchain, List.forall_mem_cons.mpr ⟨hi, hall⟩⟩

/-- Ids go up from the outermost to the innermost. -/
theorem pairwise_of_chain (hf : first.Reachable) (hl : l.IsChain (Gets first as)) :
    l.Pairwise (· < ·) :=
  (hl.imp fun _ _ ⟨r, ho, hi⟩ => ho ▸ hi ▸ r.lt hf).pairwise

/-- The marks about the ends of the tasks stand in the journal task by task, those about the
innermost first. -/
theorem life_of_chain (hf : first.Reachable) (hs : first.after? as = some s)
    (hl : l.IsChain (Gets first as)) :
    s.history.filter (fun m => l.any fun i => m.isOf i) = l.reverse.flatMap s.life := by
  induction l generalizing as s with
  | nil => simp
  | cons i l ih =>
    cases l with
    | nil => simp [State.life]
    | cons j l =>
      obtain ⟨⟨r, rfl, rfl⟩, htail⟩ := List.isChain_cons_cons.mp hl
      have hr := r.reachable hf
      -- when the outermost task takes the result, the others are over, and it is not
      obtain ⟨hearlier, hover⟩ := chain_earlier hf ⟨_, r.split.symm⟩ r.reached htail fun k hk => by
        obtain rfl := Option.some.inj hk
        exact Option.isSome_of_eq_some (r.inner_ending? hf)
      obtain ⟨later, hhist, hothers⟩ := (r.leads hs).exists_later_history hr
      have hout : ∀ m ∈ r.state.history, m.isOf r.outer.id = false := fun m hm =>
        Bool.eq_false_of_not_eq_true (List.filter_eq_nil_iff.mp (r.outer_life hf) m hm)
      have hin : ∀ m ∈ later, ((r.inner.id :: l).any fun k => m.isOf k) = false := fun m hm =>
        List.any_eq_false.mpr fun k hk => by simp [hothers k (hover k hk) m hm]
      have hlife : ∀ k ∈ r.inner.id :: l, r.state.life k = s.life k := fun k hk => by
        obtain ⟨e, he⟩ := Option.isSome_iff_exists.mp (hover k hk)
        exact ((r.leads hs).ending?_life hr he).2.symm
      have hlast : later.filter (Mark.isOf r.outer.id) = s.life r.outer.id := by
        have hnil : r.state.history.filter (Mark.isOf r.outer.id) = [] := r.outer_life hf
        rw [State.life, hhist, List.filter_append, hnil, List.nil_append]
      calc s.history.filter (fun m => (r.outer.id :: r.inner.id :: l).any fun k => m.isOf k)
          = r.state.history.filter (fun m => (r.inner.id :: l).any fun k => m.isOf k) ++
              later.filter (Mark.isOf r.outer.id) := by
            rw [hhist, List.filter_append]
            congr 1
            · exact List.filter_congr fun m hm => by rw [List.any_cons, hout m hm, Bool.false_or]
            · exact List.filter_congr fun m hm => by rw [List.any_cons, hin m hm, Bool.or_false]
        _ = (r.inner.id :: l).reverse.flatMap s.life ++ s.life r.outer.id := by
            rw [ih r.reached hearlier, hlast]
            congr 1
            exact List.flatMap_congr fun k hk => hlife k (List.mem_reverse.mp hk)
        _ = (r.outer.id :: r.inner.id :: l).reverse.flatMap s.life := by
            rw [List.reverse_cons (a := r.outer.id), List.flatMap_append, List.flatMap_singleton]

end TaskRelay
