import Mathlib
import TaskRelay.Proofs.Relay.Moves
import TaskRelay.Proofs.Relay.Unseen
import TaskRelay.Session.Basic
import TaskRelay.Wake.Observer

/-!
# The color flag

The flag is for the text of a rendered failure and for nothing else: two relays that start with
different flags, or whose flag is set at different times, take the same steps with the same results
(`after?_withColor`). A failure is rendered with the flag that was set last (`colored_after?`).
Main statement: `colorblind`.
-/

namespace TaskRelay

variable {s t : State}

/-! ## Flags along a run -/

/-- The flag that a step sets, if it sets it. -/
def Action.color? : Action → Option Bool
  | .setColor on => some on
  | _ => none

/-- Whether a step leaves the flag alone. -/
def Action.isPlain (a : Action) : Bool := a.color?.isNone

/-- The flag after some steps: the one that was set last. -/
def flagAfter (on : Bool) (as : List Action) : Bool := (as.filterMap Action.color?).getLastD on

namespace Action

variable {a : Action}

theorem ne_of_isPlain (h : a.isPlain) (on : Bool) : a ≠ .setColor on := by
  rintro rfl
  cases h

theorem exists_of_not_isPlain (h : ¬a.isPlain) : ∃ on, a = .setColor on := by
  cases a with
  | setColor on => exact ⟨on, rfl⟩
  | _ => exact absurd rfl h

theorem color?_of_isPlain (h : a.isPlain) : a.color? = none := Option.isNone_iff_eq_none.mp h

end Action

theorem flagAfter_setColor (on b : Bool) (as : List Action) :
    flagAfter on (.setColor b :: as) = flagAfter b as :=
  List.getLastD_cons

theorem flagAfter_plain {a : Action} (h : a.isPlain) (on : Bool) (as : List Action) :
    flagAfter on (a :: as) = flagAfter on as := by
  rw [flagAfter, List.filterMap_cons_none (Action.color?_of_isPlain h), flagAfter]

/-! ## No step looks at the flag -/

namespace State

def withColor (s : State) (on : Bool) : State := { s with registry := s.registry.setColor on }

theorem withColor_withColor (s : State) (on b : Bool) :
    (s.withColor on).withColor b = s.withColor b := rfl

theorem step?_setColor (s : State) (on : Bool) : s.step? (.setColor on) = some (s.withColor on) :=
  rfl

theorem withColor_eq (s : State) (on : Bool) : s.withColor on = s.withUnseen on s.taken := rfl

theorem step?_withColor {a : Action} (h : a.isPlain) (s : State) (on : Bool) :
    (s.withColor on).step? a = (s.step? a).map fun t => t.withColor on := by
  have hc := Action.ne_of_isPlain h
  by_cases hhandle : ∃ id, a = .takeHandle id
  · obtain ⟨id, rfl⟩ := hhandle
    rfl
  · have hh : ∀ id, a ≠ .takeHandle id := not_exists.mp hhandle
    rw [withColor_eq, step?_withUnseen s on _ hc hh]
    cases h : s.step? a with
    | none => rfl
    | some t => rw [Option.map_some, Option.map_some, withColor_eq t, (unseen_of_step? hc hh h).2]

theorem colored_of_step? {a : Action} (h : a.isPlain) (ht : s.step? a = some t) :
    t.registry.colored = s.registry.colored := by
  have hself := step?_withColor h s s.registry.colored
  have hsame : s.withColor s.registry.colored = s := rfl
  rw [hsame, ht, Option.map_some] at hself
  exact congrArg (fun u => u.registry.colored) (Option.some.inj hself)

/-- Without the steps that set the flag, a run comes to the same but for the flag. -/
theorem after?_withColor (s : State) (on : Bool) (as : List Action) :
    (s.withColor on).after? (as.filter Action.isPlain) =
      (s.after? as).map fun t => t.withColor on := by
  induction as generalizing s with
  | nil => rfl
  | cons a as ih =>
    by_cases h : a.isPlain
    · rw [List.filter_cons_of_pos h, after?, after?, step?_withColor h]
      cases s.step? a with
      | none => rfl
      | some t => exact ih t
    · obtain ⟨b, rfl⟩ := Action.exists_of_not_isPlain h
      rw [List.filter_cons_of_neg h, ← withColor_withColor s b on]
      exact ih (s.withColor b)

theorem colored_after? {as : List Action} (h : s.after? as = some t) :
    t.registry.colored = flagAfter s.registry.colored as := by
  induction as generalizing s with
  | nil =>
    obtain rfl := Option.some.inj h
    rfl
  | cons a as ih =>
    obtain ⟨u, hu, h⟩ := Option.bind_eq_some_iff.mp h
    rw [ih h]
    by_cases ha : a.isPlain
    · rw [flagAfter_plain ha, colored_of_step? ha hu]
    · obtain ⟨on, rfl⟩ := Action.exists_of_not_isPlain ha
      obtain rfl := Option.some.inj ((step?_setColor s on).symm.trans hu)
      exact (flagAfter_setColor s.registry.colored on as).symm

/-- Failures are rendered with this flag, by the registry and so for the user of a session. -/
structure Renders (s : State) (on : Bool) : Prop where
  registry : ∀ f, s.registry.answer (.renderFailure f) = .text (f.report on)
  user : ∀ x : Session, x.relay = s → ∀ f,
    x.perform (.registry (.renderFailure f)) = (x, .registry (.text (f.report on)))

theorem renders_colored (s : State) : s.Renders s.registry.colored where
  registry _ := rfl
  user := by
    rintro x rfl f
    rfl

theorem renders_after? {as : List Action} (h : s.after? as = some t) :
    t.Renders (flagAfter s.registry.colored as) := by
  rw [← colored_after? h]
  exact t.renders_colored

end State

/-! ## Two sessions -/

def StartResult.withColor (on : Bool) : StartResult State → StartResult State
  | .running s => .running (s.withColor on)
  | .refused e => .refused e
  | .panicked => .panicked

/-- What a machine grants does not depend on what is started. -/
theorem Site.meet_withColor (site : Site) (ready : State) (on : Bool) (before ds : List Demand) :
    (site.meet (ready.withColor on) before ds).2 =
      (site.meet ready before ds).2.withColor on := by
  induction ds generalizing before with
  | nil => rfl
  | cons d ds ih =>
    rw [meet, meet]
    cases site.answer before d with
    | granted => exact ih _
    | denied =>
      simp only [deny]
      split_ifs <;> rfl
    | broken => rfl

/-- Whether a relay starts, and how it starts but for the flag, does not depend on the color. -/
theorem startWith_color (site : Site) (hosted : Bool) (settings : Settings) (on : Bool) :
    State.startWith site hosted { settings with color := on } =
      (State.startWith site hosted settings).withColor on := by
  have hflaw : Settings.flaw? { settings with color := on } = settings.flaw? := rfl
  rw [State.startWith, State.startWith, Site.start, Site.start, hflaw]
  cases settings.flaw? with
  | some => rfl
  | none => exact site.meet_withColor (.start (.ofSettings hosted settings) settings.color) on _ _

theorem colored_of_startWith {site : Site} {hosted : Bool} {settings : Settings}
    (h : State.startWith site hosted settings = .running s) :
    s.registry.colored = settings.color := by
  obtain rfl := eq_start_of_startWith h
  rfl

/-- Two states of a relay that are the same but for the color flag. -/
structure SameButColor (s t : State) : Prop where
  relay : s.withColor t.registry.colored = t
  tasks : s.tasks = t.tasks
  endings : ∀ id, s.ending? id = t.ending? id
  /-- The submissions with their answers, the notifications, and what was counted and logged. -/
  history : s.history = t.history
  logs : s.logs = t.logs
  notes : s.notes = t.notes
  figures : s.figures = t.figures
  /-- Of the registry's answers, only two tell of the flag. -/
  answers : ∀ q, (∀ f, q ≠ .renderFailure f) → q ≠ .describe →
    s.registry.answer q = t.registry.answer q

theorem sameButColor_withColor (s : State) (on : Bool) : SameButColor s (s.withColor on) where
  relay := rfl
  tasks := rfl
  endings _ := rfl
  history := rfl
  logs := rfl
  notes := rfl
  figures := rfl
  answers q hf hd := by
    cases q with
    | renderFailure f => exact absurd rfl (hf f)
    | describe => exact absurd rfl hd
    | _ => rfl

/-- Two sessions, which begin with these flags, are the same but for them. -/
structure Colorblind (on on' : Bool) (first first' : State) (as as' : List Action) : Prop where
  /-- What can be done in one session can be done in the other. -/
  possible : (first.after? as).isSome = (first'.after? as').isSome
  same : ∀ t t', first.after? as = some t → first'.after? as' = some t' → SameButColor t t'
  /-- Whatever has happened, a failure is rendered with the flag that was set last. -/
  renders : ∀ t, first.after? as = some t → t.Renders (flagAfter on as)
  renders' : ∀ t', first'.after? as' = some t' → t'.Renders (flagAfter on' as')

variable {site : Site} {hosted : Bool} {settings : Settings} {first : State}

/--
Two sessions that differ in the configured color and in when the flag is set only are the same but
for the flag, and each renders failures with the flag that was set last in it.
-/
theorem colorblind (hf : State.startWith site hosted settings = .running first) (on : Bool)
    {as as' : List Action} (h : as.filter Action.isPlain = as'.filter Action.isPlain) :
    ∃ first', State.startWith site hosted { settings with color := on } = .running first' ∧
      Colorblind settings.color on first first' as as' := by
  have hf' : State.startWith site hosted { settings with color := on } =
      .running (first.withColor on) := by
    rw [startWith_color, hf]
    rfl
  have hruns (b : Bool) : (first.after? as).map (fun t => t.withColor b) =
      ((first.withColor on).after? as').map fun t => t.withColor b := by
    rw [← State.after?_withColor, ← State.after?_withColor, State.withColor_withColor, h]
  refine ⟨first.withColor on, hf', ?_, ?_, ?_, ?_⟩
  · have hsome := congrArg Option.isSome (hruns on)
    rwa [Option.isSome_map, Option.isSome_map] at hsome
  · intro t t' ht ht'
    have heq := hruns t'.registry.colored
    rw [ht, ht'] at heq
    have ht' : t.withColor t'.registry.colored = t' := Option.some.inj heq
    rw [← ht']
    exact sameButColor_withColor t _
  · intro t ht
    rw [← colored_of_startWith hf]
    exact State.renders_after? ht
  · intro t' ht'
    exact State.renders_after? ht'

/-- A task that fails while the flag is on, and whose callable logs the failure. Before it notifies,
the flag is turned off and the relay is given up. -/
def flickering : List Action := List.flatten [
  [.install Observer.first.callback, .setColor true,
    .submit 0 .direct ⟨⟨"callable", fun _ => .logFailure "callable" (.message "no")
      (.finish (.failure (.message "no")))⟩, .empty, WakePointer.ofAddress? 4⟩],
  List.replicate 4 (.call (.thread 0)), List.replicate 4 (.task 0),
  [.setColor false, .shutdown 0, .close 0, .worker, .close 0, .drop], List.replicate 4 (.task 0)]

theorem colorblind_flickering :
    ∃ t t', State.plain.after? flickering = some t ∧
      (State.plain.withColor true).after? (flickering.filter Action.isPlain) = some t' ∧
      (t.logs.length, t.notes.length, (t.ending? 0).isSome) = (2, 1, true) ∧
      (t.registry.colored, t'.registry.colored) = (false, true) ∧
      Colorblind false true State.plain (State.plain.withColor true) flickering
        (flickering.filter Action.isPlain) := by
  have hfirst : State.startWith .generous false (.default .one) = .running .plain := rfl
  have hcolored : State.startWith .generous false { Settings.default .one with color := true } =
    .running (State.plain.withColor true) := rfl
  have hplain : flickering.filter Action.isPlain =
      (flickering.filter Action.isPlain).filter Action.isPlain := by
    simp only [List.filter_filter, Bool.and_self]
  obtain ⟨first', hf', hblind⟩ := colorblind hfirst true hplain
  obtain rfl := StartResult.running.inj (hcolored.symm.trans hf')
  obtain ⟨t, ht, hlogs, hflag⟩ := exists_after? State.plain flickering
    (P := fun t => (t.logs.length, t.notes.length, (t.ending? 0).isSome) = (2, 1, true) ∧
      t.registry.colored = false) (by decide +kernel)
  obtain ⟨t', ht', hflag'⟩ := exists_after? (State.plain.withColor true)
    (flickering.filter Action.isPlain) (P := fun t => t.registry.colored = true)
    (by decide +kernel)
  exact ⟨t, t', ht, ht', hlogs, Prod.ext hflag hflag', hblind⟩

end TaskRelay
