import Mathlib
import TaskRelay.Proofs.Relay.Closing
import TaskRelay.Proofs.Relay.Views

/-!
# Runs with refused submissions left out

Any of the refused submissions may be left out of a run, those of tasks included: a task is then
told of the refusal as soon as it would submit. What is left can happen, from the same state on, and
each of its steps shows what it showed before. If all submissions that a closed dispatch refused are
left out, the closing may be left out as well.
Main statement: `Edit.play?_abridge`.
-/

namespace TaskRelay

variable {s t last : State} {a : Action} {c : Caller} {x : Call} {ed : Edit}

/-! ## What is to be seen -/

/-- What can be seen of a relay at one moment. -/
structure Sight where
  registry : Registry
  counters : Counters
  nextId : Nat
  pools : Pools
  notices : List Notice
  endings : List (Nat × Option Ending)
  gateOpen : String → Bool
  taken : List Nat
  dropped : Bool

namespace State

def sight (s : State) : Sight where
  registry := s.registry
  counters := s.counters
  nextId := s.nextId
  pools := s.pools
  notices := s.notices
  endings := s.tasks.map fun x => (x.id, x.ending?)
  gateOpen := s.gateOpen
  taken := s.taken
  dropped := s.dropped

/-- What a step from `s` to `t` notes, and what is to be seen after it. -/
def glimpse (s t : State) : List Mark × Sight :=
  (t.journal.take (t.journal.length - s.journal.length), t.sight)

end State

/-! ## Abridging a run -/

/-- What to leave out of a run. -/
structure Edit where
  /-- Whether to leave out a submission: whose it is, how many the caller had before, and what it
  is refused with. -/
  gone : Caller → Nat → RelayError → Bool
  /-- Whether to leave out the closing of the dispatch. -/
  unclosed : Bool
  closing : unclosed → ∀ c n, gone c n .dispatchClosed

/-- Leaves out refused submissions, and nothing else. -/
def Edit.refused (gone : Caller → Nat → RelayError → Bool) : Edit :=
  ⟨gone, false, fun h => by cases h⟩

/-- A step that is not left out, or what becomes of a submission that a task would make. -/
inductive Event where
  | step (a : Action)
  | told (id : Nat) (e : RelayError)

/-- What the caller of a submission that is left out is told instead. -/
def Caller.told (e : RelayError) : Caller → List Event
  | .thread _ => []
  | .task id => [.told id e]

/-- What is to be seen of an event on the way from `s` to `t`. -/
def Event.glimpse? (s t : State) : Event → Option (List Mark × Sight)
  | .step _ => some (s.glimpse t)
  | .told _ _ => none

namespace State

/-- Who begins a submission by this step. -/
def asker? (s : State) : Action → Option Caller
  | .submit n _ _ => some (.thread n)
  | .task id =>
    match s.dropped, (s.task? id).map Task.stage with
    | false, some (.running (.submit ..)) => some (.task id)
    | _, _ => none
  | _ => none

/-- What the submission of `c` under way will be refused with, if it is left out. -/
def omits? (s : State) (ed : Edit) (last : State) (c : Caller) : Option RelayError :=
  if (s.call? c).isSome then (s.refused? last c).filter (ed.gone c (s.answersTo c).length) else none

end State

namespace Edit

/-- Whether a step is left out that does not begin a submission. -/
def cuts (ed : Edit) (last s : State) : Action → Bool
  | .call c => (s.omits? ed last c).isSome
  | .worker => ed.unclosed && !s.dispatch.isOpen
  | .shutdown _ | .close _ => ed.unclosed
  | _ => false

/-- What is left of a step from `s` to `t` in a run that ends in `last`. -/
def events (ed : Edit) (last s t : State) (a : Action) : List Event :=
  match s.asker? a with
  | some c =>
    match t.omits? ed last c with
    | some e => c.told e
    | none => [.step a]
  | none => if ed.cuts last s a then [] else [.step a]

/-- What is left of a run that ends in `last`, and what is to be seen of it. -/
def abridge (ed : Edit) (last : State) :
    State → List Action → List Event × List (List Mark × Sight)
  | _, [] => ([], [])
  | s, a :: as =>
    match s.step? a with
    | none => ([], [])
    | some t =>
      let es := ed.events last s t a
      let rest := ed.abridge last t as
      (es ++ rest.1, es.filterMap (Event.glimpse? s t) ++ rest.2)

/-- What is left out of a state of that run, with this behind it. -/
def view (ed : Edit) (last s : State) (past : List Mark) : View :=
  ⟨s.omits? ed last, past, ed.unclosed⟩

end Edit

namespace State

/-- A task that would submit is told instead that this is refused. -/
def tell? (s : State) (id : Nat) (e : RelayError) : Option State :=
  match (s.task? id).map Task.stage with
  | some (.running (.submit _ _ _ _ _ next)) =>
    some (s.setStage id (.running (next (some (.error e)))))
  | _ => none

def happen? (s : State) : Event → Option State
  | .step a => s.step? a
  | .told id e => s.tell? id e

/-- Lets the events happen one after another, and tells what is to be seen of them. -/
def play? : State → List Event → Option (List (List Mark × Sight) × State)
  | s, [] => some ([], s)
  | s, e :: es => s.happen? e >>= fun t =>
    (t.play? es).map fun (seen, u) => ((e.glimpse? s t).toList ++ seen, u)

/-- The state as it is in the abridged run. -/
def abridged (s : State) (ed : Edit) (last : State) (past : List Mark) : State :=
  s.now.through (ed.view last s past)

end State

/-! ## Who is left out -/

theorem isSome_call?_iff : (s.call? c).isSome ↔ ∃ y ∈ s.calls, y.caller = c := by
  rw [State.call?, List.find?_isSome]
  simp only [beq_iff_eq]

theorem omits?_of_call?_eq_none (h : s.call? c = none) : s.omits? ed last c = none := by
  rw [State.omits?, if_neg (by simp [h])]

theorem refused?_of_omits? {e : RelayError} (h : s.omits? ed last c = some e) :
    s.refused? last c = some e ∧ (s.call? c).isSome := by
  unfold State.omits? at h
  split_ifs at h with hc
  exact ⟨(Option.filter_eq_some_iff.mp h).1, hc⟩

theorem CallMove.exists_caller (m : CallMove s x t) :
    ∀ z ∈ t.calls, ∃ y ∈ s.calls, y.caller = z.caller := by
  have hset : ∀ stage, ∀ z ∈ (s.setCall x.caller stage).calls,
      ∃ y ∈ s.calls, y.caller = z.caller := by
    intro stage z hz
    rcases (s.mem_setCall).mp hz with ⟨y, hy, -, rfl⟩ | ⟨hy, -⟩
    · exact ⟨y, hy, rfl⟩
    · exact ⟨z, hy, rfl⟩
  have hans : ∀ (u : State) r, u.calls = s.calls → ∀ z ∈ (u.answer x.caller r).calls,
      ∃ y ∈ s.calls, y.caller = z.caller :=
    fun u r hu z hz => ⟨z, hu ▸ ((u.mem_answer _ _).mp hz).1, rfl⟩
  cases m with
  | refuse => exact hans s _ rfl
  | launch => exact hans (s.launch _ _ _ _) _ rfl
  | abandon | unlock => exact hans (s.setHolder none) _ rfl
  | _ => exact hset _

/-- A caller is newly within a submission only after the step that begins it. -/
theorem Move.exists_caller (m : Move s a t) :
    ∀ z ∈ t.calls, (∃ y ∈ s.calls, y.caller = z.caller) ∨ s.asker? a = some z.caller := by
  intro z hz
  cases m with
  | outside m => exact .inl ⟨z, m.sameFront.calls ▸ hz, rfl⟩
  | ask =>
    rcases (s.mem_ask).mp hz with hz | rfl
    · exact .inl ⟨z, hz, rfl⟩
    · exact .inr rfl
  | @askInside x entry name body args wake next hx hs hd =>
    rcases (State.mem_ask _).mp hz with hz | rfl
    · exact .inl ⟨z, hz, rfl⟩
    · right
      simp [State.asker?, hd, hx, hs]
  | call _ m => exact .inl (m.exists_caller z hz)
  | worker m => exact .inl ⟨z, (m.front_eq z.caller).2 ▸ hz, rfl⟩
  | close | drop => exact .inl ⟨z, hz, rfl⟩
  | task _ m => exact .inl ⟨z, m.sameFront.calls ▸ hz, rfl⟩

theorem omits?_congr (ha : t.answersTo c = s.answersTo c)
    (hc : (t.call? c).isSome ↔ (s.call? c).isSome) : t.omits? ed last c = s.omits? ed last c := by
  rw [State.omits?, State.omits?, refused?_of_answersTo ha, ha]
  simp only [hc]

/-- A step changes nothing about who else is left out. -/
theorem Move.omits?_eq (m : Move s a t) (hc : a ≠ .call c) (hk : s.asker? a ≠ some c) :
    t.omits? ed last c = s.omits? ed last c := by
  obtain ⟨ha, hcalls⟩ := m.keeps hc
  refine omits?_congr ha ?_
  rw [isSome_call?_iff, isSome_call?_iff]
  constructor
  · rintro ⟨z, hz, rfl⟩
    exact (m.exists_caller z hz).resolve_right hk
  · rintro ⟨y, hy, hyc⟩
    exact ⟨y, hcalls y hy hyc, hyc⟩

/-! ## Steps that leave no trace -/

theorem Task.told_congr {ρ σ : Caller → Option RelayError} {u : Task}
    (h : ρ (.task u.id) = σ (.task u.id)) : u.told ρ = u.told σ := by
  unfold told
  rw [h]

/-- If a step changes calls and tasks, and the same calls are left of them, only tasks are seen to
change. -/
theorem abridged_eq (h : t.now = { s.now with calls := t.calls, tasks := t.tasks })
    (hc : (t.calls.filter fun y => (t.omits? ed last y.caller).isNone) =
      s.calls.filter fun y => (s.omits? ed last y.caller).isNone) (past : List Mark) :
    t.abridged ed last past = { s.abridged ed last past with
      tasks := t.tasks.map (Task.told (t.omits? ed last)) } := by
  rw [State.abridged, State.abridged, h]
  simp only [State.through, Edit.view, State.now, hc]
  rfl

theorem call?_eq_none_of_task (hc : Coherent s) {u : Task} (hu : s.task? u.id = some u)
    (hs : u.stage.isSubmitting = false) : s.call? (.task u.id) = none := by
  cases hy : s.call? (.task u.id) with
  | none => rfl
  | some y =>
    obtain ⟨hy, hyc⟩ := call?_spec hy
    obtain ⟨w, hw, hid, hws⟩ := hc.inside y hy _ hyc
    obtain rfl := hc.eq_of_id_eq hw (task?_spec hu).1 hid
    rw [hs] at hws
    cases hws

section begin

variable {r : RelayError}

/-- A submission that is left out is none of those that are left. -/
theorem calls_of_ask (hn : s.call? c = none) (ho : t.omits? ed last c = some r)
    (hsame : ∀ d, d ≠ c → t.omits? ed last d = s.omits? ed last d) {entry : Entry} {e : Envelope}
    (hc : t.calls = s.calls ++ [⟨c, entry, e, .asked⟩]) :
    (t.calls.filter fun y => (t.omits? ed last y.caller).isNone) =
      s.calls.filter fun y => (s.omits? ed last y.caller).isNone := by
  rw [hc, List.filter_append, List.filter_cons_of_neg (by simp [ho]), List.filter_nil,
    List.append_nil]
  refine List.filter_congr fun y hy => ?_
  rw [hsame]
  exact fun he => not_mem_callers hn (he ▸ List.mem_map_of_mem hy)

/-- The submission of a thread that is left out is not seen to begin. -/
theorem abridged_ask {n : Nat} {entry : Entry} {e : Envelope} (hd : s.dropped = false)
    (hn : s.call? (.thread n) = none) (ht : t = s.ask (.thread n) entry e)
    (ho : t.omits? ed last (.thread n) = some r) (past : List Mark) :
    t.abridged ed last past = s.abridged ed last past := by
  have m : Move s (.submit n entry e) t := ht ▸ .ask hd hn
  have hsame : ∀ d, d ≠ .thread n → t.omits? ed last d = s.omits? ed last d :=
    fun d hd => m.omits?_eq (by simp) (by simpa [State.asker?] using hd.symm)
  have htasks : t.tasks.map (Task.told (t.omits? ed last)) = (s.abridged ed last past).tasks := by
    subst ht
    exact List.map_congr_left fun u _ => Task.told_congr (hsame _ (by simp))
  rw [abridged_eq (s := s) (by rw [ht]; rfl) (calls_of_ask hn ho hsame (by rw [ht]; rfl)), htasks]

/-- What is seen of the submission of a task that is left out is that the task is told. -/
theorem tell?_abridged (hc : Coherent s) {u : Task} {entry : Entry} {name : String}
    {body : Arguments → Program} {args : Arguments} {wake : Option WakePointer}
    {next : Option (Except RelayError Ticket) → Program} (hd : s.dropped = false)
    (hu : s.task? u.id = some u) (hs : u.stage = .running (.submit entry name body args wake next))
    (ht : t = (s.setStage u.id (.submitting next)).ask (.task u.id) entry
      ⟨⟨name, body⟩, args, wake⟩)
    (ho : t.omits? ed last (.task u.id) = some r) (past : List Mark) :
    (s.abridged ed last past).tell? u.id r = some (t.abridged ed last past) := by
  have m : Move s (.task u.id) t := ht ▸ .askInside hu hs hd
  have hcall : s.call? (.task u.id) = none := call?_eq_none_of_task hc hu (by rw [hs]; rfl)
  have hsame : ∀ d, d ≠ .task u.id → t.omits? ed last d = s.omits? ed last d :=
    fun d hne => m.omits?_eq (by simp) (by simpa [State.asker?, hd, hu, hs] using hne.symm)
  have htask : (s.abridged ed last past).task? u.id = some u :=
    (State.task?_through_of_not_omitted (omits?_of_call?_eq_none hcall)).trans hu
  have htasks : t.tasks.map (Task.told (t.omits? ed last)) =
      ((s.abridged ed last past).setStage u.id (.running (next (some (.error r))))).tasks := by
    subst ht
    show (List.map _ (List.map _ s.tasks)) = List.map _ (List.map _ s.tasks)
    rw [List.map_map, List.map_map]
    refine List.map_congr_left fun w hw => ?_
    simp only [Function.comp, Task.told_id]
    split_ifs with hid
    · obtain rfl := hc.eq_of_id_eq hw (task?_spec hu).1 hid
      have hw : w.told (ed.view last s past).omitted = w :=
        Task.told_of_not_omitted (omits?_of_call?_eq_none hcall)
      rw [hw]
      simp only [Task.told, ho]
    · exact Task.told_congr (hsame _ (by simpa using hid))
  rw [State.tell?, htask, Option.map_some, hs,
    abridged_eq (s := s) (by rw [ht]; rfl) (calls_of_ask hcall ho hsame (by rw [ht]; rfl)), htasks]
  rfl

end begin

/-- The submission of a task is answered, and the task goes on. -/
theorem answer_task {u : Task} {next : Option (Except RelayError Ticket) → Program}
    (hu : s.task? u.id = some u) (hs : u.stage = .submitting next) (r : Except RelayError Ticket) :
    (s.answer (.task u.id) r).tasks = (s.setStage u.id (.running (next r))).tasks := by
  have hu' : ({ s with calls := s.calls.filter fun x => x.caller != Caller.task u.id }.note
      (.answered (.task u.id) r)).task? u.id = some u := hu
  simp only [State.answer, hu', Option.map_some, hs]
  rfl

section refuse

variable {r : RelayError}

/-- With a submission that is left out none is lost of those that are left. -/
theorem calls_of_refuse (ho : s.omits? ed last x.caller = some r)
    (ht : t = s.answer x.caller (.error r))
    (hsame : ∀ d, d ≠ x.caller → t.omits? ed last d = s.omits? ed last d) :
    (t.calls.filter fun y => (t.omits? ed last y.caller).isNone) =
      s.calls.filter fun y => (s.omits? ed last y.caller).isNone := by
  have hc : t.calls = s.calls.filter fun y => y.caller != x.caller := by
    rw [ht, State.answer_calls]
  rw [hc, List.filter_filter]
  refine List.filter_congr fun y _ => ?_
  by_cases hy : y.caller = x.caller
  · simp [hy, ho]
  · simp [hy, hsame _ hy]

/-- A task goes on with the refusal as it was shown to. -/
theorem tasks_of_refuse (hc : Coherent s) (hx : x ∈ s.calls)
    (ho : s.omits? ed last x.caller = some r) (ht : t = s.answer x.caller (.error r))
    (hsame : ∀ d, d ≠ x.caller → t.omits? ed last d = s.omits? ed last d) :
    t.tasks.map (Task.told (t.omits? ed last)) = s.tasks.map (Task.told (s.omits? ed last)) := by
  have hnone : t.omits? ed last x.caller = none := by
    refine omits?_of_call?_eq_none (List.find?_eq_none.mpr fun y hy => ?_)
    rw [ht, State.mem_answer] at hy
    simpa using hy.2
  cases hxc : x.caller with
  | thread n =>
    have htt : t.tasks = s.tasks := by rw [ht, hxc]; rfl
    rw [htt]
    exact List.map_congr_left fun u _ => Task.told_congr (hsame _ (by simp [hxc]))
  | task id =>
    obtain ⟨u, hu, rfl, hus⟩ := hc.inside x hx id hxc
    obtain ⟨next, hnext⟩ : ∃ next, u.stage = .submitting next := by
      cases hs : u.stage <;> simp [hs, Stage.isSubmitting] at hus ⊢
    have htt : t.tasks = (s.setStage u.id (.running (next (some (.error r))))).tasks := by
      rw [ht, hxc, answer_task (hc.task?_eq hu) hnext]
    rw [htt, State.setStage, List.map_map]
    refine List.map_congr_left fun w hw => ?_
    simp only [Function.comp]
    split_ifs with hid
    · obtain rfl := hc.eq_of_id_eq hw hu hid
      rw [hxc] at ho hnone
      rw [Task.told_of_not_omitted
        (x := { w with stage := .running (next (some (.error r))) }) hnone, Task.told]
      simp only [ho, hnext]
    · exact Task.told_congr (hsame _ (by simpa [hxc] using hid))

/-- The refusal of a submission that is left out is not seen. -/
theorem abridged_refuse (hc : Coherent s) (hx : x ∈ s.calls)
    (ho : s.omits? ed last x.caller = some r) (ht : t = s.answer x.caller (.error r))
    (hsame : ∀ d, d ≠ x.caller → t.omits? ed last d = s.omits? ed last d) (past : List Mark) :
    t.abridged ed last past = s.abridged ed last past := by
  have hnow : t.now = { s.now with calls := t.calls, tasks := t.tasks } := by
    obtain ⟨tasks, he, -⟩ := s.answer_eq x.caller (.error r)
    rw [ht, he]
    rfl
  rw [abridged_eq hnow (calls_of_refuse ho ht hsame), tasks_of_refuse hc hx ho ht hsame]
  rfl

end refuse

/-- A step of a submission that is left out is not seen. -/
theorem abridged_call {as : List Action} (h : s.Reachable) (hs : s.step? (.call c) = some t)
    (hl : t.after? as = some last) {r : RelayError} (ho : s.omits? ed last c = some r)
    (past : List Mark) : t.abridged ed last past = s.abridged ed last past := by
  have hc := h.coherent
  have hsame : ∀ d, d ≠ c → t.omits? ed last d = s.omits? ed last d :=
    fun d hd => (move_of_step? hs).omits?_eq (by simpa using hd.symm) (by simp [State.asker?])
  obtain ⟨href, hcall⟩ := refused?_of_omits? ho
  obtain ⟨x, hx, rfl⟩ := isSome_call?_iff.mp hcall
  rcases step_of_refused h hx hs hl href with ht | ht
  · exact abridged_refuse hc hx ho ht hsame past
  · have hcall : (t.call? x.caller).isSome ↔ (s.call? x.caller).isSome :=
      iff_of_true (isSome_call?_iff.mpr
        ⟨{ x with stage := .admitted }, ht ▸ mem_setCall_self hx .admitted, rfl⟩) hcall
    have hview : ed.view last t past = ed.view last s past := by
      refine congrArg (View.mk · past ed.unclosed) (funext fun d => ?_)
      by_cases hd : d = x.caller
      · rw [hd, omits?_congr (answersTo_of_quiet (by rw [ht]; rfl)) hcall]
      · exact hsame d hd
    have hset : t.abridged ed last past = (s.abridged ed last past).setCall x.caller .admitted := by
      rw [State.abridged, State.abridged, hview, State.setCall_through, ht]
      rfl
    rw [hset, State.setCall, map_change_of_not_mem]
    intro hmem
    obtain ⟨y, hy, hyc⟩ := List.mem_map.mp hmem
    have := (List.mem_filter.mp hy).2
    simp [Edit.view, hyc, ho] at this

/-! ## Leaving out the closing -/

theorem State.Reachable.vacant (h : s.Reachable) (ho : s.dispatch.isOpen = false) : Vacant s := by
  rcases h.handover.phase with hv | ⟨x, p, hp⟩
  · exact hv
  · rw [hp.isOpen] at ho
    cases ho

/-- An open dispatch is that of a relay in use, and has its worker. -/
theorem State.Reachable.suits (h : s.Reachable) (past : List Mark) :
    (ed.view last s past).Suits s.now where
  dropped := by
    rintro - (ho : s.dispatch.isOpen = true)
    by_contra hd
    rw [(h.abandoned (by simpa [State.now] using hd)).isOpen] at ho
    cases ho
  worker := by
    rintro - (ho : s.dispatch.isOpen = true) (hw : s.dispatch.worker = .gone)
    rcases h.handover.phase with hv | ⟨x, p, hp⟩
    · have := hv.worker
      simp [hw, ho] at this
    · exact hp.worker_ne_gone hw

/-- As long as the same is left out, only the gate can make a difference. -/
theorem through_dispatch_congr {v : View} (hv : v.unclosed) {d : Dispatch} {closers : List Closer}
    (hd : d.reopen s.dropped = s.dispatch.reopen s.dropped) :
    { s with dispatch := d, closers := closers }.through v = s.through v := by
  simp only [State.through, hv, if_true, hd]

/-- The steps of a thread inside `shutdown`, and of the worker once the dispatch is closed, are not
seen if the closing is left out. -/
theorem abridged_cut (h : s.Reachable) (hs : s.step? a = some t) (hu : ed.unclosed)
    (ha : (∃ n, a = .shutdown n) ∨ (∃ n, a = .close n) ∨
      a = .worker ∧ s.dispatch.isOpen = false) (past : List Mark) :
    t.abridged ed last past = s.abridged ed last past := by
  have m := move_of_step? hs
  have hview : ed.view last t past = ed.view last s past := by
    refine congrArg (View.mk · past ed.unclosed) (funext fun d => m.omits?_eq ?_ ?_) <;>
      rcases ha with ⟨n, rfl⟩ | ⟨n, rfl⟩ | ⟨rfl, -⟩ <;> simp [State.asker?]
  rw [State.abridged, State.abridged, hview]
  rcases ha with ⟨n, rfl⟩ | ⟨n, rfl⟩ | ⟨rfl, ho⟩
  · cases m with
    | outside m =>
      cases m
      exact through_dispatch_congr (s := s.now) hu rfl
    | task _ m => cases m
  · cases m with
    | outside m =>
      cases m
      exact through_dispatch_congr (s := s.now) hu rfl
    | close => exact through_dispatch_congr (s := s.now) hu rfl
    | task _ m => cases m
  · have hv := h.vacant ho
    cases m with
    | outside m => cases m
    | task _ m => cases m
    | worker m =>
      cases m with
      | leave hw =>
        refine through_dispatch_congr (s := s.now) hu ?_
        simp [Dispatch.reopen, State.now, State.setWorker, hw]
      | take _ hi =>
        rw [hv.inbound] at hi
        cases hi
      | number hw | count hw | launch hw | lose hw | publish hw =>
        have := hv.worker
        simp [hw] at this

/-! ## Steps that are kept -/

/-- A step by which a thread, or a task, begins a submission. -/
inductive Asks (s : State) : Action → Caller → State → Prop
  | thread {n : Nat} {entry : Entry} {e : Envelope} : s.dropped = false →
      s.call? (.thread n) = none →
      Asks s (.submit n entry e) (.thread n) (s.ask (.thread n) entry e)
  | task {u : Task} {entry : Entry} {name : String} {body : Arguments → Program}
      {args : Arguments} {wake : Option WakePointer}
      {next : Option (Except RelayError Ticket) → Program} :
      s.dropped = false → s.task? u.id = some u →
      u.stage = .running (.submit entry name body args wake next) →
      Asks s (.task u.id) (.task u.id) ((s.setStage u.id (.submitting next)).ask (.task u.id) entry
        ⟨⟨name, body⟩, args, wake⟩)

theorem asks_of_asker? (hs : s.step? a = some t) (ha : s.asker? a = some c) : Asks s a c t := by
  unfold State.asker? at ha
  split at ha
  · obtain rfl := Option.some.inj ha
    cases move_of_step? hs with
    | outside m => cases m
    | task _ m => cases m
    | ask hd hn => exact .thread hd hn
  · next id =>
    split at ha
    · next hd hid =>
      obtain rfl := Option.some.inj ha
      obtain ⟨u, hu, hus⟩ := Option.map_eq_some_iff.mp hid
      obtain rfl := (task?_spec hu).2
      have hstep : s.step? (.task u.id) = some (s.stepProgram u _) :=
        (congrArg (Option.bind · s.stepTask?) hu).trans (by
          show s.stepTask? u = _
          rw [State.stepTask?, hus])
      rw [hstep, State.stepProgram, if_neg (by simp [hd])] at hs
      obtain rfl := Option.some.inj hs
      exact .task hd hu hus
    · cases ha
  · cases ha

theorem Asks.call?_eq_none (hc : Coherent s) (h : Asks s a c t) : s.call? c = none := by
  cases h with
  | thread _ hn => exact hn
  | task _ hu hus => exact call?_eq_none_of_task hc hu (by rw [hus]; rfl)

/-- Whoever is not left out is not left out after a step that is kept. -/
theorem omits?_of_kept (h : s.Reachable) (hs : s.step? a = some t)
    (hk : ∀ d, s.asker? a = some d → t.omits? ed last d = none)
    (hcut : ∀ d, a = .call d → s.omits? ed last d = none) :
    t.omits? ed last = s.omits? ed last := by
  funext d
  by_cases hd : s.asker? a = some d
  · rw [hk d hd, omits?_of_call?_eq_none ((asks_of_asker? hs hd).call?_eq_none h.coherent)]
  · by_cases ha : a = .call d
    · subst ha
      cases hx : s.call? d with
      | none =>
        rw [State.step?, hx] at hs
        cases hs
      | some x =>
        obtain ⟨hxs, rfl⟩ := call?_spec hx
        rcases (CallMove.of_step? h.coherent hxs hs).outcome h hxs with
          ⟨r, -, -, hgone⟩ | ⟨hq, stage, hm, -⟩
        · rw [hcut _ rfl]
          exact omits?_of_call?_eq_none
            (List.find?_eq_none.mpr fun z hz => by simpa using hgone z hz)
        · exact omits?_congr hq (iff_of_true (isSome_call?_iff.mpr ⟨_, hm, rfl⟩) (by simp [hx]))
    · exact (move_of_step? hs).omits?_eq ha hd

/-- A task within a submission takes no step. -/
theorem call?_eq_none_of_step? (hc : Coherent s) {id : Nat}
    (ha : a = .task id ∨ ∃ u, a = .cancel id u) (hs : s.step? a = some t) :
    s.call? (.task id) = none := by
  have hgo : ∀ u, s.task? id = some u → u.stage.isSubmitting = false →
      s.call? (.task id) = none := by
    intro u hu hn
    obtain rfl := (task?_spec hu).2
    exact call?_eq_none_of_task hc hu hn
  rcases ha with rfl | ⟨unwinding, rfl⟩
  · obtain ⟨u, hu, hs⟩ := Option.bind_eq_some_iff.mp hs
    refine hgo u hu ?_
    cases hus : u.stage <;> first | rfl | simp [State.stepTask?, hus] at hs
  · obtain ⟨u, hu, hs⟩ := Option.bind_eq_some_iff.mp hs
    refine hgo u hu ?_
    cases hus : u.stage <;> first | rfl | simp [State.cancel?, hus] at hs

/-- While the dispatch is closed, no submission comes to it that is not refused. -/
theorem isFree_of_not_omitted {as : List Action} (h : s.Reachable) (hu : ed.unclosed)
    (ho : s.dispatch.isOpen = false) (hx : x ∈ s.calls) (hs : s.step? (.call x.caller) = some t)
    (hl : t.after? as = some last) (hn : s.omits? ed last x.caller = none) : x.isFree := by
  have hv := h.vacant ho
  have hout := hv.outside x hx
  rw [Call.isFree]
  cases hxs : x.stage with
  | asked | numbered | counted => rfl
  | locked | sent | received =>
    rw [hxs] at hout
    cases hout
  | admitted =>
    rw [bne_iff_ne]
    intro he
    -- it would be told that the dispatch is closed, and such submissions are left out
    have ht : t = s.answer x.caller (.error .dispatchClosed) := by
      have := hs.symm.trans (congrArg (Option.bind · s.stepCall?) (h.coherent.call?_eq hx))
      simpa [State.stepCall?, hxs, he, hv.holder, ho] using this
    have hr := refused?_of_answered (ht ▸ answersTo_answer_self s (.error .dispatchClosed))
      (leads_of_after? hl)
    rw [State.omits?, if_pos (isSome_call?_iff.mpr ⟨x, hx, rfl⟩), hr, refusalIn,
      Option.filter_some, if_pos (ed.closing hu _ _)] at hn
    cases hn

theorem keeps_of_kept {as : List Action} (h : s.Reachable) (hs : s.step? a = some t)
    (hl : t.after? as = some last) (hcut : ed.cuts last s a = false) (past : List Mark) :
    (ed.view last s past).Keeps s.now a := by
  cases a with
  | submit n entry e =>
    exact omits?_of_call?_eq_none ((asks_of_asker? hs rfl).call?_eq_none h.coherent)
  | task id =>
    exact omits?_of_call?_eq_none (call?_eq_none_of_step? h.coherent (.inl rfl) hs)
  | cancel id u =>
    exact omits?_of_call?_eq_none (call?_eq_none_of_step? h.coherent (.inr ⟨u, rfl⟩) hs)
  | call c =>
    have hn : s.omits? ed last c = none := by simpa [Edit.cuts] using hcut
    refine ⟨hn, fun hu ho x hx hxc => ?_⟩
    subst hxc
    exact isFree_of_not_omitted h hu ho hx hs hl hn
  | worker =>
    intro (hu : ed.unclosed = true)
    show s.dispatch.isOpen = true
    simpa [Edit.cuts, hu] using hcut
  | shutdown | close => exact hcut
  | drop =>
    have hd : s.isUnused := by
      cases move_of_step? hs with
      | outside m => cases m
      | task _ m => cases m
      | drop hd => exact hd
    exact (State.isUnused_through hd).trans hd.symm
  | _ => trivial

/-- A step that is kept happens in the abridged run, too, and notes the same. -/
theorem abridged_keep {as : List Action} (h : s.Reachable) (hs : s.step? a = some t)
    (hl : t.after? as = some last) (hk : ∀ d, s.asker? a = some d → t.omits? ed last d = none)
    (hcut : ed.cuts last s a = false) (past : List Mark) :
    ∃ ms, t.journal = ms ++ s.journal ∧
      (s.abridged ed last past).step? a = some (t.abridged ed last (ms ++ past)) := by
  obtain ⟨ms, hms, hj⟩ := State.step?_now hs
  have ho : t.omits? ed last = s.omits? ed last := by
    refine omits?_of_kept h hs hk ?_
    rintro d rfl
    simpa [Edit.cuts] using hcut
  refine ⟨ms, hj, ?_⟩
  rw [State.abridged, (h.suits past).step?_through (keeps_of_kept h hs hl hcut past), hms,
    Option.map_some, State.abridged]
  simp only [Edit.view, ho, State.through, State.now, List.nil_append]
  rfl

/-! ## The whole run -/

theorem sight_abridged (s : State) (past : List Mark) :
    (s.abridged ed last past).sight = s.sight := by
  have he : (s.abridged ed last past).tasks.map (fun x => (x.id, x.ending?)) =
      s.tasks.map fun x => (x.id, x.ending?) := by
    show List.map _ (List.map _ s.tasks) = _
    rw [List.map_map]
    exact List.map_congr_left fun x _ => by simp
  rw [State.sight, State.sight, he]
  rfl

/-- A step that notes the same shows the same. -/
theorem glimpse_abridged {ms : List Mark} (hj : t.journal = ms ++ s.journal) (past : List Mark) :
    (s.abridged ed last past).glimpse (t.abridged ed last (ms ++ past)) = s.glimpse t := by
  rw [State.glimpse, State.glimpse, sight_abridged, hj]
  simp [State.abridged, State.through, Edit.view, State.now]

theorem play?_append (s : State) (es fs : List Event) :
    s.play? (es ++ fs) = s.play? es >>= fun (seen, t) =>
      (t.play? fs).map fun (more, u) => (seen ++ more, u) := by
  induction es generalizing s with
  | nil =>
    show s.play? fs = (s.play? fs).map _
    exact Option.map_id.symm ▸ rfl
  | cons e es ih =>
    show (s.happen? e).bind _ = ((s.happen? e).bind _).bind _
    cases s.happen? e with
    | none => rfl
    | some t =>
      show (t.play? (es ++ fs)).map _ = ((t.play? es).map _).bind _
      rw [ih]
      cases t.play? es with
      | none => rfl
      | some p =>
        show Option.map _ (Option.map _ (p.2.play? fs)) = Option.map _ _
        rw [Option.map_map]
        exact Option.map_congr fun q _ => by simp [Function.comp]

/-- Only the steps of submissions that are left out are left out, and those of the closing with
it. -/
theorem Edit.events_eq_step (hk : ∀ d, s.asker? a = some d → t.omits? ed last d = none)
    (hcut : ed.cuts last s a = false) : ed.events last s t a = [.step a] := by
  rw [Edit.events]
  cases hask : s.asker? a with
  | some c => simp only [hk c hask]
  | none => simp [hcut]

/-- What is left of a step leads from what is left of one state to what is left of the next, and
shows what it did. -/
theorem Edit.play?_events {as : List Action} (h : s.Reachable) (hs : s.step? a = some t)
    (hl : t.after? as = some last) (past : List Mark) : ∃ past',
      (s.abridged ed last past).play? (ed.events last s t a) =
        some ((ed.events last s t a).filterMap (Event.glimpse? s t), t.abridged ed last past') := by
  have hquiet : ed.events last s t a = [] → t.abridged ed last past = s.abridged ed last past →
      ∃ past', (s.abridged ed last past).play? (ed.events last s t a) =
        some ((ed.events last s t a).filterMap (Event.glimpse? s t),
          t.abridged ed last past') := by
    intro he ht
    exact ⟨past, by rw [he, ht]; rfl⟩
  have hkeep : (∀ d, s.asker? a = some d → t.omits? ed last d = none) →
      ed.cuts last s a = false →
      ∃ past', (s.abridged ed last past).play? (ed.events last s t a) =
        some ((ed.events last s t a).filterMap (Event.glimpse? s t),
          t.abridged ed last past') := by
    intro hk hcut
    obtain ⟨ms, hj, hms⟩ := abridged_keep h hs hl hk hcut past
    refine ⟨ms ++ past, ?_⟩
    rw [Edit.events_eq_step hk hcut]
    simp [State.play?, State.happen?, hms, Event.glimpse?, glimpse_abridged hj]
  cases hask : s.asker? a with
  | some c =>
    cases ho : t.omits? ed last c with
    | none =>
      refine hkeep (fun d hd => ?_) ?_
      · rw [hask] at hd
        rw [← Option.some.inj hd, ho]
      · cases a <;> first | rfl | cases hask
    | some e =>
      have he : ed.events last s t a = c.told e := by simp only [Edit.events, hask, ho]
      cases asks_of_asker? hs hask with
      | thread hd hn => exact hquiet he (abridged_ask hd hn rfl ho past)
      | task hd hu hus =>
        refine ⟨past, ?_⟩
        have htell := tell?_abridged h.coherent hd hu hus rfl ho past
        rw [he]
        simp [Caller.told, State.play?, State.happen?, htell, Event.glimpse?]
  | none =>
    cases hcut : ed.cuts last s a with
    | false =>
      refine hkeep (fun d hd => ?_) hcut
      rw [hask] at hd
      cases hd
    | true =>
      refine hquiet (by simp [Edit.events, hask, hcut]) ?_
      cases a with
      | call c =>
        obtain ⟨r, ho⟩ := Option.isSome_iff_exists.mp hcut
        exact abridged_call h hs hl ho past
      | worker =>
        rw [Edit.cuts, Bool.and_eq_true] at hcut
        exact abridged_cut h hs hcut.1 (.inr (.inr ⟨rfl, by simpa using hcut.2⟩)) past
      | shutdown n => exact abridged_cut h hs hcut (.inl ⟨n, rfl⟩) past
      | close n => exact abridged_cut h hs hcut (.inr (.inl ⟨n, rfl⟩)) past
      | _ => cases hcut

/-- What is left of a run can happen, shows what it did, and comes to what is left of the end. -/
theorem Edit.play?_abridge (ed : Edit) {as : List Action} (h : s.Reachable)
    (hl : s.after? as = some last) (past : List Mark) :
    ∃ past', (s.abridged ed last past).play? (ed.abridge last s as).1 =
      some ((ed.abridge last s as).2, last.abridged ed last past') := by
  induction as generalizing s past with
  | nil =>
    obtain rfl := Option.some.inj hl
    exact ⟨past, rfl⟩
  | cons a as ih =>
    obtain ⟨t, ht, hl⟩ := Option.bind_eq_some_iff.mp hl
    obtain ⟨past₁, h₁⟩ := Edit.play?_events h ht hl past
    obtain ⟨past₂, h₂⟩ := ih (h.step ht) hl past₁
    refine ⟨past₂, ?_⟩
    simp only [Edit.abridge, ht]
    rw [play?_append, h₁]
    show Option.map _ (State.play? _ _) = _
    rw [h₂]
    rfl

/-- Of this run the steps of the thread that is refused are left out, and the task is told. -/
example :
    let as : List Action := [.submit 0 .interactive (.comingTo (.value .null) none),
      .submit 1 .direct (.submitting .interactive (.comingTo (.value .null) none)),
      .call (.thread 0), .call (.thread 1), .call (.thread 1), .call (.thread 1),
      .call (.thread 1), .task 0, .task 0, .call (.task 0), .task 0]
    let last := (State.plain.after? as).getD .plain
    ((Edit.refused fun _ _ _ => true).abridge last .plain as).1.map
      (fun | .told id _ => some id | .step _ => none) =
        [none, none, none, none, none, none, some 0, none] := by
  decide +kernel

/-! ## Where nothing is left out -/

theorem abridged_of_none (h : ∀ c, s.omits? ed last c = none) (past : List Mark) :
    s.abridged ed last past = { s with
      dispatch := if ed.unclosed then s.dispatch.reopen s.dropped else s.dispatch
      closers := if ed.unclosed then [] else s.closers
      journal := past } := by
  have hcalls : (s.calls.filter fun y => (s.omits? ed last y.caller).isNone) = s.calls :=
    List.filter_eq_self.mpr fun y _ => by rw [h]; rfl
  have htold : Task.told (s.omits? ed last) = id := by
    funext u
    exact Task.told_of_not_omitted (h _)
  simp only [State.abridged, State.through, Edit.view, State.now, hcalls, htold, List.map_id,
    List.nil_append]
  rfl

theorem omits?_eq_none_of_calls (h : s.calls = []) : s.omits? ed last c = none :=
  omits?_of_call?_eq_none (by rw [State.call?, h]; rfl)

/-- At the end of a run no submission under way is known to be refused. -/
theorem omits?_self : s.omits? ed s c = none := by
  rw [State.omits?, refused?_self, Option.filter_none, ite_self]

end TaskRelay
