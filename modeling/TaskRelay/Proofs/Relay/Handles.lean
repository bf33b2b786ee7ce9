import Mathlib
import TaskRelay.Proofs.Relay.Identity
import TaskRelay.Proofs.Relay.Unseen
import TaskRelay.Session.Reached
import TaskRelay.Wake.Observer

/-!
# Handles

Whoever submits a task gets a handle, and may wait for the result, look whether there is one, throw
the handle away, or lose it in a wait that panics. Nothing of this reaches the tasks: no step of a
relay looks at the handles that are gone (`step?_withTaken`), so two runs that differ in the uses of
handles only are the same but for those handles. Main statement: `indifferent`.
-/

namespace TaskRelay

variable {s t : State}

/-! ## Uses -/

/-- What may be done with the handle of a task. -/
inductive HandleUse where
  /-- Takes the result of a task that has ended; before that the handle stays. -/
  | wait
  /-- Waits on a thread that belongs to a pool: a panic, with which the handle is lost. -/
  | waitInside
  | inspect
  | forget

namespace State

def withTaken (s : State) (ids : List Nat) : State := { s with taken := ids }

/-- The handle of a task is gone. -/
def take (s : State) (id : Nat) : State := s.withTaken (id :: s.taken)

/-- What comes of a use of a handle that is not gone. -/
def useHeld (s : State) (k : Ticket) : HandleUse → State × Answer
  | .wait =>
    match s.ending? k.id with
    | some e => (s.take k.id, .ended e.result)
    | none => (s, .pending)
  | .waitInside => (s.take k.id, .panicked)
  | .inspect => (s, .inspected k (s.ending? k.id).isSome)
  | .forget => (s.take k.id, .forgotten true)

end State

namespace HandleUse

/-- What is said of a handle that is gone. -/
def gone : HandleUse → Answer
  | .forget => .forgotten false
  | _ => .consumed

/-- The request by which the user of a relay makes this use of a handle. -/
def request (task : Nat) : HandleUse → Request
  | .wait => .wait task
  | .waitInside => .waitInside task
  | .inspect => .inspect task
  | .forget => .forget task

end HandleUse

def State.use (s : State) (k : Ticket) (u : HandleUse) : State × Answer :=
  if s.taken.contains k.id then (s, u.gone) else s.useHeld k u

/-- A session answers requests about handles by these uses, and then lets the relay run. -/
theorem Session.perform_use {x : Session} {task : Nat} {k : Ticket} (hk : x.tickets[task]? = some k)
    (u : HandleUse) :
    (x.perform (u.request task)).2 = (x.relay.use k u).2 ∧
      ((x.perform (u.request task)).1.relay = (x.relay.use k u).1 ∨
        (x.perform (u.request task)).1.relay = (x.relay.use k u).1.settle patience) := by
  cases htaken : x.relay.taken.contains k.id with
  | true =>
    have huse : x.relay.use k u = (x.relay, u.gone) := by rw [State.use, htaken, if_pos rfl]
    have hgone : ∀ f, x.withHandle task f = (x, .consumed) := by
      intro f
      simp only [withHandle, hk, htaken, if_true]
    rw [huse]
    cases u with
    | wait | waitInside | inspect | forget =>
      simp only [HandleUse.request, perform, hgone]
      exact ⟨rfl, .inl trivial⟩
  | false =>
    have huse : x.relay.use k u = x.relay.useHeld k u := by
      rw [State.use, htaken, if_neg Bool.false_ne_true]
    have hheld : ∀ f, x.withHandle task f = f k := by
      intro f
      simp only [withHandle, hk, htaken, Bool.false_eq_true, if_false]
    rw [huse]
    cases u with
    | wait =>
      simp only [HandleUse.request, perform, hheld, Session.wait, State.useHeld]
      cases x.relay.ending? k.id with
      | none => exact ⟨rfl, .inl rfl⟩
      | some e => exact ⟨rfl, .inr rfl⟩
    | inspect =>
      simp only [HandleUse.request, perform, hheld]
      exact ⟨rfl, .inl rfl⟩
    | waitInside | forget =>
      simp only [HandleUse.request, perform, hheld]
      exact ⟨rfl, .inr rfl⟩

/-! ## No step looks at the handles that are gone -/

/-- The handle that a step uses up. -/
def Action.handle? : Action → Option Nat
  | .takeHandle id => some id
  | _ => none

namespace State

variable {a : Action}

theorem withTaken_self (s : State) : s.withTaken s.taken = s := rfl

theorem withTaken_eq (s : State) (ids : List Nat) :
    s.withTaken ids = s.withUnseen s.registry.colored ids := rfl

/-- Only a step that uses a handle up has to do with the handles that are gone. -/
theorem step?_withTaken (s : State) (ids : List Nat) (ha : a.handle? = none) :
    (s.withTaken ids).step? a = (s.step? a).map fun t => t.withTaken ids := by
  have hh : ∀ id, a ≠ .takeHandle id := by
    rintro id rfl
    cases ha
  by_cases hcolor : ∃ on, a = .setColor on
  · obtain ⟨on, rfl⟩ := hcolor
    rfl
  · have hc : ∀ on, a ≠ .setColor on := not_exists.mp hcolor
    rw [withTaken_eq, step?_withUnseen s _ ids hc hh]
    cases h : s.step? a with
    | none => rfl
    | some t =>
      rw [Option.map_some, Option.map_some, withTaken_eq t, (unseen_of_step? hc hh h).1]

theorem taken_of_step? (ha : a.handle? = none) (h : s.step? a = some t) : t.taken = s.taken := by
  have hself := step?_withTaken s s.taken ha
  rw [withTaken_self, h, Option.map_some] at hself
  have htaken := congrArg taken (Option.some.inj hself)
  exact htaken

end State

/-! ## Runs with uses of handles -/

/-- A step of a relay, or a use of a handle that some thread makes. -/
inductive Occasion where
  | step (a : Action)
  | use (k : Ticket) (u : HandleUse)

namespace Occasion

/-- The handle that it is a use of, if it is one. -/
def handle? : Occasion → Option Nat
  | .step a => a.handle?
  | .use k _ => some k.id

/-- Whether it is a use of no handle but one of these. -/
def concerns (W : Nat → Bool) (o : Occasion) : Bool := o.handle?.all W

/-- Whether it has nothing to do with handles. -/
def isStep (o : Occasion) : Bool := o.handle?.isNone

end Occasion

namespace State

/-- A relay after some occasions, and what came of each use of a handle, by the id of its task. -/
def attend? (s : State) : List Occasion → Option (State × List (Nat × Answer))
  | [] => some (s, [])
  | .step a :: os => s.step? a >>= fun t => t.attend? os
  | .use k u :: os =>
    ((s.use k u).1.attend? os).map fun p => (p.1, (k.id, (s.use k u).2) :: p.2)

/-- A relay to one who sees these handles only. -/
def showing (W : Nat → Bool) (s : State) : State := s.withTaken (s.taken.filter W)

section showing

variable {W : Nat → Bool} {k : Ticket} {u : HandleUse}

theorem step?_showing (ha : a.handle? = none) :
    (s.showing W).step? a = (s.step? a).map (showing W) := by
  rw [showing, step?_withTaken s _ ha]
  cases h : s.step? a with
  | none => rfl
  | some t => rw [Option.map_some, Option.map_some, showing, taken_of_step? ha h]

theorem take_showing {id : Nat} (h : W id) : (s.showing W).take id = (s.take id).showing W := by
  rw [showing, showing]
  show s.withTaken (id :: s.taken.filter W) = s.withTaken ((id :: s.taken).filter W)
  rw [List.filter_cons_of_pos h]

theorem showing_take {id : Nat} (h : ¬W id) : (s.take id).showing W = s.showing W := by
  rw [showing, showing]
  show s.withTaken ((id :: s.taken).filter W) = s.withTaken (s.taken.filter W)
  rw [List.filter_cons_of_neg h]

theorem use_showing (h : W k.id) :
    (s.showing W).use k u = ((s.use k u).1.showing W, (s.use k u).2) := by
  have htaken : (s.showing W).taken.contains k.id = s.taken.contains k.id := by
    rw [Bool.eq_iff_iff, List.contains_iff_mem, List.contains_iff_mem]
    show k.id ∈ s.taken.filter W ↔ _
    rw [List.mem_filter, and_iff_left h]
  have hending : (s.showing W).ending? k.id = s.ending? k.id := rfl
  rw [use, use, htaken]
  split_ifs
  · rfl
  · cases u with
    | wait =>
      simp only [useHeld, hending]
      cases s.ending? k.id with
      | none => rfl
      | some e => exact congrArg (·, Answer.ended e.result) (take_showing h)
    | inspect => rfl
    | waitInside => exact congrArg (·, Answer.panicked) (take_showing h)
    | forget => exact congrArg (·, Answer.forgotten true) (take_showing h)

theorem showing_use (h : ¬W k.id) : (s.use k u).1.showing W = s.showing W := by
  rw [use]
  split_ifs
  · rfl
  · cases u with
    | wait =>
      simp only [useHeld]
      cases s.ending? k.id with
      | none => rfl
      | some e => exact showing_take h
    | inspect => rfl
    | waitInside | forget => exact showing_take h

/-- Who sees some handles only sees the run that uses no others. -/
theorem attend?_showing (W : Nat → Bool) (s : State) (os : List Occasion) :
    (s.showing W).attend? (os.filter (Occasion.concerns W)) =
      (s.attend? os).map fun p => (p.1.showing W, p.2.filter fun x => W x.1) := by
  induction os generalizing s with
  | nil => rfl
  | cons o os ih =>
    cases o with
    | step a =>
      cases ha : a.handle? with
      | none =>
        have hc : Occasion.concerns W (.step a) = true := by
          rw [Occasion.concerns, Occasion.handle?, ha]
          rfl
        rw [List.filter_cons_of_pos hc, attend?, attend?, step?_showing ha]
        cases s.step? a with
        | none => rfl
        | some t => exact ih t
      | some id =>
        obtain rfl : a = .takeHandle id := by
          cases a with
          | takeHandle => exact congrArg _ (Option.some.inj ha)
          | _ => cases ha
        by_cases hid : W id
        · have hc : Occasion.concerns W (.step (.takeHandle id)) = true := hid
          rw [List.filter_cons_of_pos hc]
          show ((s.showing W).take id).attend? _ = _
          rw [take_showing hid]
          exact ih (s.take id)
        · have hc : ¬Occasion.concerns W (.step (.takeHandle id)) = true := hid
          rw [List.filter_cons_of_neg hc, ← showing_take hid]
          exact ih (s.take id)
    | use k u =>
      by_cases hk : W k.id
      · have hc : Occasion.concerns W (.use k u) = true := hk
        rw [List.filter_cons_of_pos hc, attend?, attend?, use_showing hk, ih]
        cases (s.use k u).1.attend? os with
        | none => rfl
        | some p => simp only [Option.map_some, List.filter_cons, hk, if_true]
      · have hc : ¬Occasion.concerns W (.use k u) = true := hk
        rw [List.filter_cons_of_neg hc, ← showing_use (k := k) (u := u) hk, ih, attend?]
        cases (s.use k u).1.attend? os with
        | none => rfl
        | some p => simp only [Option.map_some, List.filter_cons, hk, if_false, Bool.false_eq_true]

end showing

end State

/-! ## Two runs -/

/-- Two states of a relay that are the same but for the handles that are gone. -/
structure SameRelay (s t : State) : Prop where
  relay : s.withTaken t.taken = t
  tasks : s.tasks = t.tasks
  endings : ∀ id, s.ending? id = t.ending? id
  history : s.history = t.history
  logs : s.logs = t.logs
  figures : s.figures = t.figures

theorem sameRelay_of_showing {W : Nat → Bool} (h : s.showing W = t.showing W) : SameRelay s t := by
  have hrelay : s.withTaken t.taken = t := congrArg (fun v => v.withTaken t.taken) h
  rw [← hrelay]
  exact ⟨rfl, rfl, fun _ => rfl, rfl, rfl, rfl⟩

/-- Only the task with this id has changed. -/
structure OnlyTask (id : Nat) (s t : State) : Prop where
  rest : t = { s with tasks := t.tasks }
  others : ∀ y, y.id ≠ id → (y ∈ t.tasks ↔ y ∈ s.tasks)

/-- Two ways to go on from a state that differ in the uses of handles only. -/
structure Indifferent (s : State) (os os' : List Occasion) : Prop where
  /-- What can be done with one use of the handles can be done with the other. -/
  possible : (s.attend? os).isSome = (s.attend? os').isSome
  /-- The tasks, their ends, their notifications, all that was logged and the figures are the
  same. -/
  same : ∀ t as t' as', s.attend? os = some (t, as) → s.attend? os' = some (t', as') →
    SameRelay t t'
  /-- A handle that was used alike gave the same answers, whatever was done with the others. -/
  apart : ∀ id, os.filter (Occasion.concerns (· == id)) = os'.filter (Occasion.concerns (· == id)) →
    ∀ t as t' as', s.attend? os = some (t, as) → s.attend? os' = some (t', as') →
      as.filter (fun x => x.1 == id) = as'.filter (fun x => x.1 == id) ∧
        (id ∈ t.taken ↔ id ∈ t'.taken)
  /-- A task that awaits another one changes nothing but how far it has come itself. -/
  awaits : ∀ t as x k next u, s.attend? os = some (t, as) → t.task? x.id = some x →
    (x.stage = .running (.await k next) ∨ x.stage = .suspended (.await k next)) →
    t.step? (.task x.id) = some u → OnlyTask x.id t u

/-- The runs are the same to one who sees handles that are used alike in both. -/
theorem State.attend?_congr {W : Nat → Bool} (s : State) {os os' : List Occasion}
    (h : os.filter (Occasion.concerns W) = os'.filter (Occasion.concerns W)) :
    (s.attend? os).map (fun p => (p.1.showing W, p.2.filter fun x => W x.1)) =
      (s.attend? os').map fun p => (p.1.showing W, p.2.filter fun x => W x.1) := by
  rw [← attend?_showing, ← attend?_showing, h]

theorem onlyTask_change {id : Nat} {f : Task → Task} (hf : ∀ y, (f y).id = y.id) :
    OnlyTask id s { s with tasks := s.tasks.map fun y => if y.id = id then f y else y } := by
  refine ⟨rfl, fun y hy => ?_⟩
  rw [mem_change]
  constructor
  · rintro (⟨x, _, hx, rfl⟩ | ⟨h, _⟩)
    · exact absurd ((hf x).trans hx) hy
    · exact h
  · exact fun h => .inr ⟨h, hy⟩

theorem onlyTask_await {x : Task} {k : Ticket} {next : Except TaskError Json.Value → Program}
    (hx : s.task? x.id = some x)
    (hp : x.stage = .running (.await k next) ∨ x.stage = .suspended (.await k next))
    (h : s.step? (.task x.id) = some t) : OnlyTask x.id s t := by
  have hstep : s.stepTask? x = some t := by
    rw [State.step?, hx] at h
    exact h
  rw [State.stepTask?] at hstep
  rcases hp with hp | hp
  · simp only [hp, State.stepProgram] at hstep
    split at hstep
    · cases hstep
      exact onlyTask_change fun _ => rfl
    · cases hstep
      exact onlyTask_change fun _ => rfl
  · simp only [hp] at hstep
    split_ifs at hstep
    cases hstep
    exact onlyTask_change fun _ => rfl

/--
Two runs that differ in the uses of handles only are the same but for those handles, and a handle
that is lost or badly used is the only one to suffer.
-/
theorem indifferent (s : State) {os os' : List Occasion}
    (h : os.filter Occasion.isStep = os'.filter Occasion.isStep) : Indifferent s os os' := by
  have hnone : Occasion.concerns (fun _ => false) = Occasion.isStep := by
    funext o
    rw [Occasion.concerns, Occasion.isStep]
    cases o.handle? <;> rfl
  rw [← hnone] at h
  have hsame := s.attend?_congr h
  refine ⟨?_, ?_, ?_, ?_⟩
  · have hsome := congrArg Option.isSome hsame
    rwa [Option.isSome_map, Option.isSome_map] at hsome
  · intro t as t' as' ht ht'
    rw [ht, ht'] at hsame
    exact sameRelay_of_showing (congrArg Prod.fst (Option.some.inj hsame))
  · intro id hid t as t' as' ht ht'
    have heq := s.attend?_congr hid
    rw [ht, ht'] at heq
    obtain ⟨hrelay, has⟩ := Prod.mk.inj (Option.some.inj heq)
    refine ⟨has, ?_⟩
    have htaken : t.taken.filter (· == id) = t'.taken.filter (· == id) :=
      congrArg State.taken hrelay
    have hmem : id ∈ t.taken.filter (· == id) ↔ id ∈ t'.taken.filter (· == id) := by rw [htaken]
    simpa [List.mem_filter] using hmem
  · intro t as x k next u _ hx hp hu
    exact onlyTask_await hx hp hu

/-- Two tasks, one that fails and is to notify. The handle of the first is looked at too early and
then lost in a wait within a pool; that of the second is thrown away and missed afterwards. -/
def bothLost : List Occasion := List.flatten [
  [.step (.install Observer.first.callback),
    .step (.submit 0 .direct (.comingTo (.failure (.message "no")) (WakePointer.ofAddress? 4)))],
  List.replicate 4 (.step (.call (.thread 0))),
  [.use ⟨0, true⟩ .wait, .use ⟨0, true⟩ .waitInside],
  List.replicate 7 (.step (.task 0)),
  [.step (.submit 0 .direct (.comingTo (.value .null) none))],
  List.replicate 4 (.step (.call (.thread 0))),
  [.use ⟨1, false⟩ .forget],
  List.replicate 5 (.step (.task 1)),
  [.use ⟨1, false⟩ .wait]]

theorem indifferent_bothLost : ∃ t as t' as', State.plain.attend? bothLost = some (t, as) ∧
    State.plain.attend? (bothLost.filter Occasion.isStep) = some (t', as') ∧
    (as.length, as'.length) = (4, 0) ∧ (t'.ending? 0).isSome ∧ (t'.ending? 1).isSome ∧
    Indifferent State.plain bothLost (bothLost.filter Occasion.isStep) := by
  have hind : Indifferent State.plain bothLost (bothLost.filter Occasion.isStep) :=
    indifferent State.plain (by simp only [List.filter_filter, Bool.and_self])
  have h : (State.plain.attend? bothLost).map (fun p => p.2.length) = some 4 := by decide +kernel
  have h' : (State.plain.attend? (bothLost.filter Occasion.isStep)).map
      (fun p => (p.2.length, (p.1.ending? 0).isSome, (p.1.ending? 1).isSome)) =
        some (0, true, true) := by decide +kernel
  obtain ⟨⟨t, as⟩, ht, has⟩ := Option.map_eq_some_iff.mp h
  obtain ⟨⟨t', as'⟩, ht', hend⟩ := Option.map_eq_some_iff.mp h'
  obtain ⟨has', hends⟩ := Prod.mk.inj hend
  obtain ⟨hzero, hone⟩ := Prod.mk.inj hends
  exact ⟨t, as, t', as', ht, ht', Prod.ext has has', hzero, hone, hind⟩

end TaskRelay
