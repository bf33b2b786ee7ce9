import Mathlib
import TaskRelay.Proofs.Relay.Updates
import TaskRelay.Relay.Run

/-!
# What no step looks at

A relay keeps two things for others only: the color flag of its registry, for those who have
failures rendered, and the handles that are gone, for those who use handles. A step that does not
set them is the same whatever they are, and leaves them as they are. Main statement:
`step?_withUnseen`.
-/

namespace TaskRelay

/-! ## Notifications -/

def Turn.setColor (x : Turn) (on : Bool) : Turn := { x with registry := x.registry.setColor on }

@[simp] theorem Turn.progress_setColor (x : Turn) (on : Bool) :
    (x.setColor on).progress = x.progress := rfl

namespace Registry

variable (r : Registry) (on : Bool)

theorem notify_setColor (wake : WakePointer) :
    (r.setColor on).notify wake = (r.notify wake).setColor on := by
  have hcallback : (r.setColor on).callback = r.callback := rfl
  rw [notify, notify, hcallback]
  cases r.callback <;> rfl

theorem ready_setColor (wake : Option WakePointer) : (r.setColor on).ready wake = r.ready wake :=
  rfl

theorem step_setColor (i : Invocation) : (r.setColor on).step i = (r.step i).setColor on := by
  have hcallback : (r.setColor on).callback = r.callback := rfl
  unfold step
  cases i.running with
  | finish => cases i.waiting <;> rfl
  | note | delivered | install => rfl
  | notify wake next =>
    simp only [hcallback]
    cases r.callback <;> rfl

end Registry

/-! ## The steps of a relay -/

namespace State

/-- The color flag and the handles that are gone, put in place of those of `s`. -/
def withUnseen (s : State) (on : Bool) (ids : List Nat) : State :=
  { s with registry := s.registry.setColor on, taken := ids }

variable (s : State) (on : Bool) (ids : List Nat)

theorem withUnseen_self : s.withUnseen s.registry.colored s.taken = s := rfl

theorem afterTurn_withUnseen (source : Source) (turn : Turn) :
    (s.withUnseen on ids).afterTurn source (turn.setColor on) =
      (s.afterTurn source turn).withUnseen on ids := by
  simp only [afterTurn, noteSigns_eq, withUnseen, Turn.setColor]

theorem task?_withUnseen (id : Nat) : (s.withUnseen on ids).task? id = s.task? id := rfl

theorem answer_withUnseen (c : Caller) (r : Except RelayError Ticket) :
    (s.withUnseen on ids).answer c r = (s.answer c r).withUnseen on ids := by
  have hquiet : { s.withUnseen on ids with
      calls := (s.withUnseen on ids).calls.filter fun x => x.caller != c }.note (.answered c r) =
      ({ s with calls := s.calls.filter fun x => x.caller != c }.note (.answered c r)).withUnseen
        on ids := rfl
  cases c with
  | thread => exact hquiet
  | task id =>
    simp only [answer]
    rw [hquiet, task?_withUnseen]
    generalize Option.map Task.stage _ = o
    cases o with
    | none => rfl
    | some stage => cases stage <;> rfl

theorem stepCall?_withUnseen (x : Call) :
    (s.withUnseen on ids).stepCall? x = (s.stepCall? x).map fun t => t.withUnseen on ids := by
  have hanswer : ∀ (t : State) r, some ((t.withUnseen on ids).answer x.caller r) =
      (some (t.answer x.caller r)).map fun t => t.withUnseen on ids := fun t r =>
    congrArg some (answer_withUnseen t on ids _ _)
  have hpools : (s.withUnseen on ids).pools = s.pools := rfl
  have hregistry : (s.withUnseen on ids).registry = s.registry.setColor on := rfl
  have hdispatch : (s.withUnseen on ids).dispatch = s.dispatch := rfl
  unfold stepCall?
  cases x.stage with
  | asked =>
    simp only [hpools, hregistry, Registry.ready_setColor]
    split_ifs
    · exact hanswer s _
    · rfl
    · exact hanswer s _
  | admitted =>
    simp only [hdispatch]
    split_ifs
    · rfl
    · rfl
    · exact hanswer s _
    · rfl
  | numbered id => rfl
  | counted id => exact hanswer (s.launch id x.caller x.entry.pool x.envelope) _
  | locked =>
    simp only [hdispatch]
    split
    · exact hanswer (s.setHolder none) _
    · rfl
    · rfl
  | sent =>
    simp only [hdispatch]
    split
    · rfl
    · exact hanswer (s.setHolder none) _
    · rfl
  | received t => exact hanswer (s.setHolder none) _

theorem stepWorker?_withUnseen :
    (s.withUnseen on ids).stepWorker? = s.stepWorker?.map fun t => t.withUnseen on ids := by
  have hdispatch : (s.withUnseen on ids).dispatch = s.dispatch := rfl
  unfold stepWorker?
  simp only [hdispatch]
  cases s.dispatch.worker with
  | idle =>
    cases s.dispatch.inbound with
    | some p => rfl
    | none => split_ifs <;> rfl
  | holding | numbered | counted | gone => rfl
  | launched t => split_ifs <;> rfl

theorem stepCloser?_withUnseen (x : Closer) :
    (s.withUnseen on ids).stepCloser? x = (s.stepCloser? x).map fun t => t.withUnseen on ids := by
  have hdispatch : (s.withUnseen on ids).dispatch = s.dispatch := rfl
  unfold stepCloser?
  simp only [hdispatch]
  split_ifs
  · cases s.dispatch.worker <;> rfl
  · rfl
  · rfl
  · rfl

theorem stepNotice_withUnseen (x : Notice) :
    (s.withUnseen on ids).stepNotice x = (s.stepNotice x).withUnseen on ids := by
  have hregistry : (s.withUnseen on ids).registry = s.registry.setColor on := rfl
  unfold stepNotice
  simp only [hregistry, Registry.step_setColor, afterTurn_withUnseen, Turn.progress_setColor]
  cases (s.registry.step x.invocation).progress <;> rfl

theorem ending?_withUnseen (id : Nat) : (s.withUnseen on ids).ending? id = s.ending? id := rfl

theorem stepProgram_withUnseen (x : Task) (p : Program) :
    (s.withUnseen on ids).stepProgram x p = (s.stepProgram x p).withUnseen on ids := by
  cases p with
  | finish | pause | passGate | onThread | logFailure => rfl
  | submit =>
    have hdropped : (s.withUnseen on ids).dropped = s.dropped := rfl
    simp only [stepProgram, hdropped]
    split_ifs <;> rfl
  | await k next =>
    simp only [stepProgram, ending?_withUnseen]
    cases s.ending? k.id <;> rfl

theorem stepTask?_withUnseen (x : Task) :
    (s.withUnseen on ids).stepTask? x = (s.stepTask? x).map fun t => t.withUnseen on ids := by
  have hregistry : (s.withUnseen on ids).registry = s.registry.setColor on := rfl
  unfold stepTask?
  cases x.stage with
  | suspended p =>
    have hpools : (s.withUnseen on ids).pools = s.pools := rfl
    have hresume : (s.withUnseen on ids).canResume p = s.canResume p := by cases p <;> rfl
    simp only [hpools, hresume]
    split_ifs <;> rfl
  | running p => exact congrArg some (stepProgram_withUnseen s on ids x p)
  | submitting | ended | notified | resolved => rfl
  | recorded e =>
    cases x.envelope.wake with
    | none => rfl
    | some wake =>
      have hnote : ∀ m, (s.withUnseen on ids).note m = (s.note m).withUnseen on ids := fun _ => rfl
      simp only [hregistry, hnote, Registry.notify_setColor, afterTurn_withUnseen,
        Turn.progress_setColor]
      cases (s.registry.notify wake).progress <;> rfl
  | notifying e i =>
    simp only [hregistry, Registry.step_setColor, afterTurn_withUnseen, Turn.progress_setColor]
    cases (s.registry.step i).progress <;> rfl

theorem cancel?_withUnseen (x : Task) (u : Bool) :
    (s.withUnseen on ids).cancel? x u = (s.cancel? x u).map fun t => t.withUnseen on ids := by
  have hpools : (s.withUnseen on ids).pools = s.pools := rfl
  unfold cancel?
  cases x.stage with
  | suspended p =>
    simp only [hpools]
    split_ifs <;> rfl
  | _ => rfl

/-- A step that sets neither of the two does not depend on them. -/
theorem step?_withUnseen {a : Action} (hc : ∀ b, a ≠ .setColor b) (hh : ∀ id, a ≠ .takeHandle id) :
    (s.withUnseen on ids).step? a = (s.step? a).map fun t => t.withUnseen on ids := by
  cases a with
  | submit n entry e =>
    have hdropped : (s.withUnseen on ids).dropped = s.dropped := rfl
    have hcall : (s.withUnseen on ids).call? (.thread n) = s.call? (.thread n) := rfl
    simp only [step?, hdropped, hcall]
    split_ifs <;> rfl
  | install | openGates | killHost => rfl
  | setColor b => exact absurd rfl (hc b)
  | notify n wake =>
    have hnotices : (s.withUnseen on ids).notices = s.notices := rfl
    have hregistry : (s.withUnseen on ids).registry = s.registry.setColor on := rfl
    have hnote : ∀ m, (s.withUnseen on ids).note m = (s.note m).withUnseen on ids := fun _ => rfl
    simp only [step?, hnotices, hregistry, hnote, Registry.notify_setColor, afterTurn_withUnseen,
      Turn.progress_setColor]
    split_ifs
    · rfl
    · cases (s.registry.notify wake).progress <;> rfl
  | shutdown n =>
    have hdropped : (s.withUnseen on ids).dropped = s.dropped := rfl
    have hclosers : (s.withUnseen on ids).closers = s.closers := rfl
    simp only [step?, hdropped, hclosers]
    split_ifs <;> rfl
  | drop =>
    have hdropped : (s.withUnseen on ids).dropped = s.dropped := rfl
    have hunused : (s.withUnseen on ids).isUnused = s.isUnused := rfl
    simp only [step?, hdropped, hunused]
    split_ifs <;> rfl
  | takeHandle id => exact absurd rfl (hh id)
  | call c =>
    have hcall : (s.withUnseen on ids).call? c = s.call? c := rfl
    simp only [step?, hcall]
    cases s.call? c with
    | none => rfl
    | some x => exact stepCall?_withUnseen s on ids x
  | worker => exact stepWorker?_withUnseen s on ids
  | close n =>
    have hclosers : (s.withUnseen on ids).closers = s.closers := rfl
    simp only [step?, hclosers]
    cases s.closers.find? fun x => x.thread == n with
    | none => rfl
    | some x => exact stepCloser?_withUnseen s on ids x
  | react n =>
    have hnotices : (s.withUnseen on ids).notices = s.notices := rfl
    simp only [step?, hnotices]
    cases s.notices.find? fun x => x.thread == n with
    | none => rfl
    | some x => exact congrArg some (stepNotice_withUnseen s on ids x)
  | task id =>
    simp only [step?, task?_withUnseen]
    cases s.task? id with
    | none => rfl
    | some x => exact stepTask?_withUnseen s on ids x
  | cancel id u =>
    simp only [step?, task?_withUnseen]
    cases s.task? id with
    | none => rfl
    | some x => exact cancel?_withUnseen s on ids x u

theorem unseen_of_step? {s t : State} {a : Action} (hc : ∀ b, a ≠ .setColor b)
    (hh : ∀ id, a ≠ .takeHandle id) (h : s.step? a = some t) :
    t.registry.colored = s.registry.colored ∧ t.taken = s.taken := by
  have hself := s.step?_withUnseen s.registry.colored s.taken hc hh
  rw [withUnseen_self, h, Option.map_some] at hself
  have ht := Option.some.inj hself
  exact ⟨congrArg (fun u => u.registry.colored) ht, congrArg (fun u => u.taken) ht⟩

end State

end TaskRelay
