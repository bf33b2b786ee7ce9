import Mathlib
import TaskRelay.Proofs.Relay.Course
import TaskRelay.Proofs.Relay.Detour
import TaskRelay.Proofs.Relay.Replies

/-!
# A submission on its two ways

A relay with a submission through the dispatch beside the same relay with that submission straight
to a pool (`Beside`). Whoever has no part in it takes the same steps in both. Of the steps through
the dispatch, those in which the worker draws the id, counts and launches are the own steps of the
submission on the other way, and the others have no counterpart there.
-/

namespace TaskRelay

variable {s t : State} {a : Action} {x : Call} {c : Caller} {e : Envelope}

/-! ## Where the submission is by another way -/

/-- The pool of the task of this answer, if it has one. -/
def movedTo (pool : PoolName) (r : Except RelayError Ticket) (id : Nat) : Option PoolName :=
  match r with
  | .ok k => if id = k.id then some pool else none
  | .error _ => none

namespace Detour

/-- One submission is under way as `z`. -/
def standing (z : Call) (vacant : Bool) (shift : Nat) : Detour where
  call y := if y.caller = z.caller then some z else some y
  caller_eq h := by
    split_ifs at h with hc <;> obtain rfl := Option.some.inj h
    · exact hc.symm
    · rfl
  told _ := none
  pool _ := none
  vacant := vacant
  shift := shift

/-- The submission of `c` was accepted, which it does not know yet. -/
def ahead (c : Caller) (k : Ticket) (pool : PoolName) : Detour where
  call y := if y.caller = c then none else some y
  caller_eq h := by
    split_ifs at h
    rw [Option.some.inj h]
  told id := if c = .task id then some (.ok k) else none
  pool := movedTo pool (.ok k)
  vacant := true
  shift := 1

/-- The submission is over with this answer. -/
def settled (r : Except RelayError Ticket) (pool : PoolName) : Detour where
  call := some
  caller_eq h := by rw [Option.some.inj h]
  told _ := none
  pool := movedTo pool r
  vacant := false
  shift := match r with
    | .ok _ => 1
    | .error _ => 0

end Detour

/-- Where a submission through the dispatch is by the way `d`. -/
def Phase.detour (d : Entry) (x : Call) : Phase → Detour
  | .locked | .queued | .held => .standing ⟨x.caller, d, x.envelope, .admitted⟩ true 0
  | .numbered id => .standing ⟨x.caller, d, x.envelope, .numbered id⟩ true 0
  | .counted id => .standing ⟨x.caller, d, x.envelope, .counted id⟩ true 1
  | .launched id | .published id | .received id =>
    .ahead x.caller (State.ticket id x.envelope) d.pool

/-- What it is told there already. -/
def Phase.answers (e : Envelope) : Phase → List (Except RelayError Ticket)
  | .launched id | .published id | .received id => [.ok (State.ticket id e)]
  | _ => []

/-- Marks of how the submission of `c` that is answered `r` comes to its answer. -/
def Mark.isWayOf (c : Caller) (r : Except RelayError Ticket) : Mark → Bool
  | .asked d _ _ | .locked d | .sent d | .received d _ | .answered d _ => d == c
  | .published t => match r with
    | .ok k => t == k
    | .error _ => false
  | _ => false

/-- All that is behind the relay but those. -/
def State.aside (c : Caller) (r : Except RelayError Ticket) (s : State) : List Mark :=
  s.journal.filter fun m => !m.isWayOf c r

theorem aside_answer (s : State) (c : Caller) (r r' : Except RelayError Ticket) :
    (s.answer c r').aside c r = s.aside c r := by
  rw [State.aside, State.aside, State.answer_journal, List.filter_cons_of_neg]
  simp [Mark.isWayOf]

/-- The relay `y` is `s` but for the submission of `c` with the answer `r`, of which it has given
`given` before `s` has. -/
structure Beside (c : Caller) (e : Envelope) (d : Entry) (r : Except RelayError Ticket)
    (v : Detour) (given : List (Except RelayError Ticket)) (s y : State) : Prop where
  now : y.now = s.now.detour v
  /-- Only its task is in another pool. -/
  moved : ∀ id n, v.pool id = some n → movedTo d.pool r id = some n ∧
    ∃ u ∈ s.tasks, u.id = id ∧ u.caller = c ∧ u.envelope = e ∧ u.pool = .parallel
  shift : v.shift ≤ s.counters.dispatched
  answers : y.answersTo c = s.answersTo c ++ given
  aside : y.aside c r = s.aside c r

namespace Beside

variable {d : Entry} {r : Except RelayError Ticket} {v : Detour} {y : State}
variable {given : List (Except RelayError Ticket)}

theorem suits (h : Beside c e d r v given s y) (hc : Coherent s) : v.Suits s where
  call z hz id hid := by
    by_contra hn
    obtain ⟨n, hn⟩ := Option.ne_none_iff_exists'.mp hn
    obtain ⟨-, u, hu, rfl, -⟩ := h.moved id n hn
    exact (hc.id_of_call hz (by rw [hid]; rfl)).2 (List.mem_map_of_mem hu)
  worker p id hid := by
    by_contra hn
    obtain ⟨n, hn⟩ := Option.ne_none_iff_exists'.mp hn
    obtain ⟨-, u, hu, rfl, -⟩ := h.moved id n hn
    exact (hc.id_of_worker (by rw [hid]; rfl)).2 (List.mem_map_of_mem hu)
  shift := h.shift

/-- Where both note the same, what is behind them stays the same but for the submission. -/
theorem of_marks {y' : State} {ms : List Mark} (h : Beside c e d r v given s y) (m : Move s a t)
    (hn : y'.now = t.now.detour v) (hj : t.journal = ms ++ s.journal)
    (hj' : y'.journal = ms ++ y.journal)
    (ha : given = [] ∨ t.answersTo c = s.answersTo c) :
    Beside c e d r v given t y' where
  now := hn
  moved id n hid := by
    obtain ⟨hr, u, hu, rfl, hc, he, hp⟩ := h.moved id n hid
    obtain ⟨w, hw, hl⟩ := m.exists_later hu
    exact ⟨hr, w, hw, hl.id, hl.caller.trans hc, hl.envelope.trans he, hl.pool.trans hp⟩
  shift := h.shift.trans (m.figure_advance .dispatched).1
  answers := by
    have hadd : ∀ {u u' : State}, u'.journal = ms ++ u.journal → u'.answersTo c =
        u.answersTo c ++ ms.reverse.filterMap (Mark.answer? c) := by
      intro u u' hu
      rw [State.answersTo, State.history, hu, List.reverse_append, List.filterMap_append]
      rfl
    rw [hadd hj', h.answers]
    rcases ha with rfl | ha
    · rw [hadd hj, List.append_nil, List.append_nil]
    · have hnil := List.append_right_eq_self.mp ((hadd hj).symm.trans ha)
      rw [ha, hnil, List.append_nil]
  aside := by rw [State.aside, State.aside, hj, hj', List.filter_append, List.filter_append,
    show y.journal.filter _ = _ from h.aside]; rfl

/-- Whoever does not come across the submission takes the same step in both. -/
theorem forth (h : Beside c e d r v given s y) (hr : s.Reachable) (hk : v.Keeps s a)
    (hs : s.step? a = some t) (ha : given = [] ∨ a ≠ .call c) :
    ∃ ms y', y.step? a = some y' ∧ Beside c e d r v given t y' ∧
      t.journal = ms ++ s.journal ∧ y'.journal = ms ++ y.journal := by
  obtain ⟨ms, y', hy, hn, hj, hj'⟩ := (h.suits hr.coherent).forth hk h.now hs
  have m := move_of_step? hs
  exact ⟨ms, y', hy, h.of_marks m hn hj hj' (ha.imp id fun ha => (m.keeps ha).1), hj, hj'⟩

theorem back (h : Beside c e d r v [] s y) (hr : s.Reachable) (hk : v.Keeps s a) {y' : State}
    (hs : y.step? a = some y') : ∃ ms t, s.step? a = some t ∧ Beside c e d r v [] t y' ∧
      t.journal = ms ++ s.journal ∧ y'.journal = ms ++ y.journal := by
  obtain ⟨ms, t, ht, hn, hj, hj'⟩ := (h.suits hr.coherent).back hk h.now hs
  exact ⟨ms, t, ht, h.of_marks (move_of_step? ht) hn hj hj' (.inl rfl), hj, hj'⟩

/-- Whatever does not read the marks of the way reads the same in both. -/
theorem filterMap_history {α : Type} (h : Beside c e d r v given s y) (f : Mark → Option α)
    (hf : ∀ m : Mark, m.isWayOf c r → f m = none) :
    y.history.filterMap f = s.history.filterMap f := by
  have haside : ∀ w : State,
      w.history.filterMap f = ((w.aside c r).filterMap f).reverse := by
    intro w
    rw [State.history, List.filterMap_reverse, State.aside, List.filterMap_filter]
    refine congrArg List.reverse (List.filterMap_congr fun m _ => ?_)
    cases hm : m.isWayOf c r with
    | true => exact hf m hm
    | false => rfl
  rw [haside, haside, h.aside]

/-- A step that only the submission through the dispatch takes. -/
theorem stay {v' : Detour} (h : Beside c e d r v given s y) (ms : List Mark)
    (hn : t.now.detour v' = s.now.detour v) (hp : v'.pool = v.pool) (hv : v'.shift = v.shift)
    (ht : t.tasks = s.tasks) (hc : t.counters = s.counters) (hj : t.journal = ms ++ s.journal)
    (hms : ∀ m ∈ ms, m.isWayOf c r ∧ m.answer? c = none) :
    Beside c e d r v' given t y where
  now := h.now.trans hn.symm
  moved := by
    rw [hp, ht]
    exact h.moved
  shift := by
    rw [hv, hc]
    exact h.shift
  answers := by
    have hnone : ms.reverse.filterMap (Mark.answer? c) = [] :=
      List.filterMap_eq_nil_iff.mpr fun m hm => (hms m (List.mem_reverse.mp hm)).2
    rw [h.answers, State.answersTo, State.answersTo, State.history, State.history, hj,
      List.reverse_append, List.filterMap_append, hnone, List.append_nil]
  aside := by
    have hnone : ms.filter (fun m => !m.isWayOf c r) = [] :=
      List.filter_eq_nil_iff.mpr fun m hm => by simp [(hms m hm).1]
    rw [h.aside, State.aside, State.aside, hj, List.filter_append, hnone, List.nil_append]

end Beside

/-! ## Steps of the submission itself -/

/-- A task goes on with the answer of its own submission. -/
def Task.hears (c : Caller) (r : Except RelayError Ticket) (u : Task) : Task :=
  { u with stage := u.stage.told (if c = .task u.id then some r else none) }

namespace State

variable {d : Entry} {v : Detour} {z : Call}

theorem answer_tasks (hd : (s.tasks.map Task.id).Nodup) (c : Caller)
    (r : Except RelayError Ticket) : (s.answer c r).tasks = s.tasks.map (Task.hears c r) := by
  have hsame : (∀ u ∈ s.tasks, c = .task u.id → u.stage.isSubmitting = false) →
      s.tasks.map (Task.hears c r) = s.tasks := by
    intro h
    refine (List.map_congr_left fun u hu => ?_).trans s.tasks.map_id
    by_cases hc : c = .task u.id
    · rw [Task.hears, Stage.told_of_not_submitting (h u hu hc)]
      rfl
    · rw [Task.hears, if_neg hc, Stage.told_none]
      rfl
  cases c with
  | thread n => exact (hsame fun u _ hu => by cases hu).symm
  | task id =>
    have hfind : ∀ u ∈ s.tasks, Caller.task id = .task u.id → s.task? id = some u := by
      intro u hu he
      cases hf : s.task? id with
      | none => exact absurd (by simpa using he.symm) (List.find?_eq_none.mp hf u hu)
      | some w =>
        obtain ⟨hw, hid⟩ := task?_spec hf
        rw [List.inj_on_of_nodup_map hd hw hu (hid.trans (Caller.task.inj he))]
    simp only [answer]
    split
    · next next hn =>
      -- the task that goes on is the only one with this id
      refine List.map_congr_left fun u hu => ?_
      by_cases hid : u.id = id
      · subst hid
        have hs : u.stage = .submitting next := by
          have hn : (s.task? u.id).map Task.stage = some (.submitting next) := hn
          rw [hfind u hu rfl] at hn
          exact Option.some.inj hn
        simp only [Task.hears, if_true, hs]
        rfl
      · rw [if_neg hid, Task.hears, if_neg fun he => hid (Caller.task.inj he).symm, Stage.told_none]
    · next hn =>
      refine (hsame fun u hu he => ?_).symm
      by_contra hs
      cases hst : u.stage with
      | submitting next =>
        refine hn next ?_
        show (s.task? id).map Task.stage = _
        rw [hfind u hu he, Option.map_some, hst]
      | _ => simp [hst, Stage.isSubmitting] at hs

/-- Another dispatch makes no difference where it is taken to be free. -/
theorem detour_set_dispatch (hv : v.vacant = true) (d : Dispatch) :
    { s with dispatch := d }.detour v = s.detour v := by
  simp only [detour, hv, if_true]

theorem detour_setCall (hv : ∀ y stage, y.caller = c → v.call { y with stage := stage } = v.call y)
    (stage : CallStage) : (s.setCall c stage).detour v = s.detour v := by
  simp only [setCall, detour, State.mk.injEq, true_and, and_true, List.filterMap_map]
  apply List.filterMap_congr
  intro y _
  simp only [Function.comp]
  split_ifs with hy
  · exact hv y stage hy
  · rfl

theorem setCall_detour_standing (b : Bool) (n : Nat) (stage : CallStage) :
    (s.detour (.standing z b n)).setCall z.caller stage =
      s.detour (.standing { z with stage := stage } b n) := by
  have hcalls : ((s.calls.filterMap (Detour.standing z b n).call).map fun y =>
      if y.caller = z.caller then { y with stage := stage } else y) =
      s.calls.filterMap (Detour.standing { z with stage := stage } b n).call := by
    rw [List.map_filterMap]
    refine List.filterMap_congr fun y _ => ?_
    simp only [Detour.standing]
    split_ifs with hy <;> simp [hy]
  exact congrArg (fun l => { s.detour (.standing z b n) with calls := l }) hcalls

/-- What becomes of a relay with an answer, but for what is behind it. -/
theorem now_answer (hd : (s.tasks.map Task.id).Nodup) (c : Caller) (r : Except RelayError Ticket) :
    (s.answer c r).now = { s.now with
      calls := s.calls.filter fun y => y.caller != c
      tasks := s.tasks.map (Task.hears c r) } := by
  have ht := answer_tasks hd c r
  obtain ⟨tasks, he, -⟩ := s.answer_eq c r
  rw [he] at ht ⊢
  obtain rfl : tasks = _ := ht
  rfl

@[simp] theorem tasks_detour_standing (b : Bool) (n : Nat) :
    s.tasks.map (Task.detour (.standing z b n)) = s.tasks := by
  refine (List.map_congr_left fun u _ => ?_).trans s.tasks.map_id
  rw [Task.detour, Detour.standing]
  simp only [Stage.told_none, Option.getD_none, id]

/-- A submission that is refused leaves nothing elsewhere. -/
@[simp] theorem detour_settled_error (e : RelayError) (pool : PoolName) :
    s.detour (.settled (.error e) pool) = s := by
  have hself : Task.detour (.settled (.error e) pool) = id := by
    funext u
    simp only [Task.detour, Detour.settled, movedTo, Option.getD_none, Stage.told_none, id]
  rw [detour, hself]
  simp [Detour.settled]

theorem filter_calls_standing (b : Bool) (n : Nat) :
    (s.calls.filterMap (Detour.standing z b n).call).filter (fun y => y.caller != z.caller) =
      s.calls.filter fun y => y.caller != z.caller := by
  rw [List.filter_filterMap, ← List.filterMap_eq_filter]
  refine List.filterMap_congr fun y _ => ?_
  by_cases hy : y.caller = z.caller <;> simp [Detour.standing, hy, Option.filter, Option.guard]

theorem calls_detour_ahead (k : Ticket) (pool : PoolName) :
    s.calls.filterMap (Detour.ahead c k pool).call = s.calls.filter fun y => y.caller != c := by
  rw [← List.filterMap_eq_filter]
  refine List.filterMap_congr fun y _ => ?_
  by_cases hy : y.caller = c <;> simp [Detour.ahead, hy, Option.guard]

end State

namespace Beside

variable {d : Entry} {r : Except RelayError Ticket} {v : Detour} {y : State} {z : Call}
variable {given : List (Except RelayError Ticket)} {b : Bool} {n : Nat}

theorem of_standing (hn : y.now = s.now.detour (.standing z b n)) (hv : n ≤ s.counters.dispatched)
    (ha : y.answersTo c = s.answersTo c)
    (hm : y.aside c r = s.aside c r) : Beside c e d r (.standing z b n) [] s y :=
  ⟨hn, fun _ _ hp => (by cases hp), hv, ha.trans (List.append_nil _).symm, hm⟩

theorem pools_eq (h : Beside c e d r v given s y) : y.pools = s.pools := by
  have hn := congrArg State.pools h.now
  exact hn

theorem registry_eq (h : Beside c e d r v given s y) : y.registry = s.registry := by
  have hn := congrArg State.registry h.now
  exact hn

theorem nextId_eq (h : Beside c e d r v given s y) : y.nextId = s.nextId := by
  have hn := congrArg State.nextId h.now
  exact hn

theorem counters_eq (h : Beside c e d r v given s y) : y.counters = { s.counters with
    direct := s.counters.direct + v.shift
    dispatched := s.counters.dispatched - v.shift } := by
  have hn := congrArg State.counters h.now
  exact hn

theorem calls_eq (h : Beside c e d r v given s y) : y.calls = s.calls.filterMap v.call := by
  have hn := congrArg State.calls h.now
  exact hn

theorem tasks_eq (h : Beside c e d r v given s y) : y.tasks = s.tasks.map (Task.detour v) := by
  have hn := congrArg State.tasks h.now
  exact hn

/-- By the other way its own step is one of `z`. -/
theorem step?_eq (h : Beside x.caller x.envelope d r (.standing z b n) given s y) (hc : Coherent s)
    (hx : x ∈ s.calls) (hz : z.caller = x.caller) :
    y.step? (.call x.caller) = y.stepCall? z := by
  have hcall : y.call? x.caller = some z := by
    have hs : s.now.call? x.caller = some x := hc.call?_eq hx
    show y.now.call? x.caller = _
    rw [h.now, State.call?_detour_eq, hs]
    · simp [Detour.standing, hz]
    · intro w hw
      simp [Detour.standing, hw, hz]
  show (y.call? x.caller).bind y.stepCall? = _
  rw [hcall]
  rfl

section before

variable (h : Beside x.caller x.envelope d r (.standing { x with entry := d } false 0) [] s y)
variable (hc : Coherent s) (hx : x ∈ s.calls) (hp : (s.pools.get? d.pool).isSome)

include h hc hx hp

theorem allow (hs : x.stage = .asked) (hw : s.registry.ready x.envelope.wake) :
    ∃ y', y.step? (.call x.caller) = some y' ∧
      Beside x.caller x.envelope d r
        (.standing { x with entry := d, stage := .admitted } false 0) []
        (s.setCall x.caller .admitted) y' := by
  refine ⟨y.setCall x.caller .admitted, ?_, of_standing ?_ (Nat.zero_le _) ?_ h.aside⟩
  · rw [h.step?_eq hc hx rfl, State.stepCall?]
    simp [hs, h.pools_eq, h.registry_eq, hw, Option.isSome_iff_ne_none.mp hp]
  · show y.now.setCall x.caller .admitted = (s.now.setCall x.caller .admitted).detour _
    rw [h.now, State.detour_setCall fun w _ hw => by simp only [Detour.standing, if_pos hw]]
    exact State.setCall_detour_standing (z := { x with entry := d }) false 0 .admitted
  · exact h.answers.trans (List.append_nil _)

theorem refuse (hr : r = .error .wakeCallbackMissing) (hs : x.stage = .asked)
    (hw : s.registry.ready x.envelope.wake = false) :
    ∃ y', y.step? (.call x.caller) = some y' ∧
      Beside x.caller x.envelope d r (.settled r d.pool) [] (s.answer x.caller r) y' := by
  have htasks : y.tasks = s.tasks := h.tasks_eq.trans (State.tasks_detour_standing false 0)
  subst hr
  refine ⟨y.answer x.caller (.error .wakeCallbackMissing), ?_, ?_, ?_, ?_, ?_, ?_⟩
  · rw [h.step?_eq hc hx rfl, State.stepCall?]
    simp [hs, h.pools_eq, h.registry_eq, hw, Option.isSome_iff_ne_none.mp hp]
  · rw [State.now_answer, State.now_answer hc.ids_nodup]
    · have hcalls : (y.calls.filter fun w => w.caller != x.caller) =
          s.calls.filter fun w => w.caller != x.caller :=
        (congrArg (List.filter _) h.calls_eq).trans
          (State.filter_calls_standing (z := { x with entry := d }) false 0)
      rw [h.now, hcalls, htasks, State.detour_settled_error]
      rfl
    · rw [htasks]
      exact hc.ids_nodup
  · exact fun _ _ hn => by cases hn
  · exact Nat.zero_le _
  · rw [answersTo_answer_self, answersTo_answer_self, h.answers, List.append_nil, List.append_nil]
  · rw [aside_answer, aside_answer, h.aside]

end before

section inside

variable {id : Nat}

/-- The worker draws the id, and the submission draws it by itself. -/
theorem number (h : Beside x.caller x.envelope d r (Phase.held.detour d x) given s y)
    (hc : Coherent s) (hx : x ∈ s.calls) (hd : d ≠ .serial) (hg : given = []) (w : Dispatch) :
    ∃ y', y.step? (.call x.caller) = some y' ∧
      Beside x.caller x.envelope d r ((Phase.numbered s.nextId).detour d x) []
        { s with nextId := s.nextId + 1, dispatch := w } y' := by
  subst hg
  refine ⟨{ y with nextId := y.nextId + 1 }.setCall x.caller (.numbered y.nextId), ?_,
    of_standing ?_ (Nat.zero_le _) ?_ h.aside⟩
  · rw [h.step?_eq hc hx rfl, State.stepCall?]
    simp [hd]
  · show { y.now with nextId := y.nextId + 1 }.setCall x.caller (.numbered y.nextId) = _
    rw [h.now, h.nextId_eq]
    refine (State.setCall_detour_standing (s := { s.now with nextId := s.nextId + 1 }) true 0
      (.numbered s.nextId)).trans ?_
    rfl
  · exact h.answers.trans (List.append_nil _)

/-- The worker counts the submission as dispatched, and it counts itself as direct. -/
theorem count (h : Beside x.caller x.envelope d r ((Phase.numbered id).detour d x) given s y)
    (hc : Coherent s) (hx : x ∈ s.calls) (hg : given = []) (w : Dispatch) :
    ∃ y', y.step? (.call x.caller) = some y' ∧
      Beside x.caller x.envelope d r ((Phase.counted id).detour d x) []
        { s with
          counters := { s.counters with dispatched := s.counters.dispatched + 1 }
          dispatch := w } y' := by
  subst hg
  refine ⟨{ y with counters := { y.counters with direct := y.counters.direct + 1 } }.setCall
    x.caller (.counted id), ?_, of_standing ?_ (Nat.le_add_left _ _) ?_ h.aside⟩
  · rw [h.step?_eq hc hx rfl, State.stepCall?]
  · show { y.now with
      counters := { y.now.counters with direct := y.now.counters.direct + 1 } }.setCall
        x.caller (.counted id) = _
    rw [h.now]
    refine (State.setCall_detour_standing (s := { s.now with
      counters := { s.counters with direct := s.counters.direct + 1 } }) true 0
        (.counted id)).trans ?_
    rfl
  · exact h.answers.trans (List.append_nil _)

/-- All tasks but the new one only hear the answer. -/
theorem hears_eq_detour {u : Task} {k : Ticket} (hu : u.id ≠ k.id) (pool : PoolName) :
    u.hears c (.ok k) = u.detour (.ahead c k pool) := by
  simp only [Task.hears, Task.detour, Detour.ahead, movedTo, if_neg hu, Option.getD_none]

/-- The worker launches the task, and the submission launches it by itself and is over. -/
theorem launch (h : Beside x.caller x.envelope d r ((Phase.counted id).detour d x) given s y)
    (hc : Coherent s) (hx : x ∈ s.calls) (hid : id ∉ s.tasks.map Task.id)
    (hr : r = .ok (State.ticket id x.envelope)) (hg : given = []) (w : Dispatch) :
    ∃ y', y.step? (.call x.caller) = some y' ∧
      Beside x.caller x.envelope d r ((Phase.launched id).detour d x) [r]
        { s.launch id x.caller .parallel x.envelope with dispatch := w } y' := by
  subst hg hr
  have htasks : y.tasks = s.tasks := h.tasks_eq.trans (State.tasks_detour_standing true 1)
  have hcalls : (y.calls.filter fun w => w.caller != x.caller) =
      s.calls.filterMap (Detour.ahead x.caller (State.ticket id x.envelope) d.pool).call := by
    rw [State.calls_detour_ahead, h.calls_eq]
    exact State.filter_calls_standing (z := ⟨x.caller, d, x.envelope, .counted id⟩) true 1
  -- the task is in its own pool, and all others are where they were
  have hold : s.tasks.map (Task.hears x.caller (.ok (State.ticket id x.envelope))) =
      s.tasks.map (Task.detour (.ahead x.caller (State.ticket id x.envelope) d.pool)) :=
    List.map_congr_left fun u hu =>
      hears_eq_detour (fun he : u.id = id => hid (he ▸ List.mem_map_of_mem hu)) d.pool
  have hnew : Task.hears x.caller (.ok (State.ticket id x.envelope)) (Task.mk id x.caller
      x.envelope d.pool false (.suspended (x.envelope.callable.body x.envelope.arguments))) =
      Task.detour (.ahead x.caller (State.ticket id x.envelope) d.pool) (Task.mk id x.caller
        x.envelope .parallel false
          (.suspended (x.envelope.callable.body x.envelope.arguments))) := by
    simp [Task.hears, Task.detour, Detour.ahead, movedTo, State.ticket]
  have hnodup : ((y.launch id x.caller d.pool x.envelope).tasks.map Task.id).Nodup := by
    have hn := hc.nodup_launch hid x.caller d.pool x.envelope
    simp only [State.launch, State.note, htasks] at hn ⊢
    exact hn
  refine ⟨(y.launch id x.caller d.pool x.envelope).answer x.caller
    (.ok (State.ticket id x.envelope)), ?_, ?_, ?_, h.shift, ?_, ?_⟩
  · rw [h.step?_eq hc hx rfl, State.stepCall?]
  · rw [State.now_answer hnodup]
    show { y.now with
      calls := y.calls.filter fun w => w.caller != x.caller
      tasks := (y.tasks ++ [Task.mk id x.caller x.envelope d.pool false
        (.suspended (x.envelope.callable.body x.envelope.arguments))]).map
          (Task.hears x.caller (.ok (State.ticket id x.envelope))) } = _
    rw [h.now, hcalls, htasks, List.map_append, hold, List.map_singleton, hnew,
      ← List.map_singleton, ← List.map_append]
    rfl
  · intro i m hm
    refine ⟨hm, _, List.mem_append_right _ (List.mem_singleton_self _), ?_, rfl, rfl, rfl⟩
    simp only [Phase.detour, Detour.ahead, movedTo] at hm
    split_ifs at hm with hi
    exact hi.symm
  · rw [answersTo_answer_self]
    refine congrArg (· ++ [_]) ?_
    refine (answersTo_of_other rfl rfl).trans ((h.answers.trans (List.append_nil _)).trans ?_)
    exact (answersTo_of_other (s := s) rfl rfl).symm
  · rw [aside_answer]
    exact congrArg (Mark.launched id x.caller x.envelope :: ·) h.aside

/-- The submission gets the handle that it has by the other way already. -/
theorem settle (h : Beside x.caller x.envelope d r ((Phase.received id).detour d x) given s y)
    (hc : Coherent s) (ho : Occupied s x (.received id))
    (hr : r = .ok (State.ticket id x.envelope)) (hg : given = [r]) :
    Beside x.caller x.envelope d r (.settled r d.pool) []
      ((s.setHolder none).answer x.caller r) y := by
  subst hg hr
  refine ⟨?_, ?_, ?_, ?_, ?_⟩
  · have hd : s.dispatch = ⟨some x.caller, true, none, none, .idle⟩ := ho.dispatch
    have htasks : (s.tasks.map (Task.hears x.caller (.ok (State.ticket id x.envelope)))).map
        (Task.detour (.settled (.ok (State.ticket id x.envelope)) d.pool)) =
        s.now.tasks.map (Task.detour (.ahead x.caller (State.ticket id x.envelope) d.pool)) := by
      rw [List.map_map]
      refine List.map_congr_left fun u _ => ?_
      simp only [Function.comp, Task.hears, Task.detour, Detour.settled, Detour.ahead,
        Stage.told_none]
    rw [State.now_answer (s := s.setHolder none) hc.ids_nodup, h.now]
    simp only [State.detour, Phase.detour]
    rw [State.calls_detour_ahead (s := s.now), ← htasks]
    simp only [State.now, State.setHolder, hd, Detour.settled, List.filterMap_some]
    rfl
  · intro i m hm
    obtain ⟨hr, u, hu, hi, hcaller, he, hp⟩ := h.moved i m hm
    obtain ⟨w, hw, hl⟩ := exists_later_answer (s := s.setHolder none) hu x.caller
      (.ok (State.ticket id x.envelope))
    exact ⟨hr, w, hw, hl.id.trans hi, hl.caller.trans hcaller, hl.envelope.trans he,
      hl.pool.trans hp⟩
  · rw [State.answer_counters]
    exact h.shift
  · rw [h.answers, answersTo_answer_self, List.append_nil]
    rfl
  · rw [aside_answer]
    exact h.aside

end inside

end Beside

end TaskRelay
