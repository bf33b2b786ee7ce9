import Mathlib
import TaskRelay.Failure.Report

/-!
# The stack trace that is shown

Only a capture has a stack trace, and only one that is a failure itself or stands under nothing but
contexts is found; a capture behind a message, in another capture or in the failure of a task is not
(`capture?_eq_some_iff`). Main statement: `shownTrace`.
-/

namespace TaskRelay.Failure

variable {f : Failure} {colored : Bool} {trace : String} {inner : Failure}

/-- A failure under contexts, the first outermost. -/
def under (f : Failure) (contexts : List String) : Failure := contexts.foldr .context f

theorem capture?_under (f : Failure) (contexts : List String) :
    (f.under contexts).capture? = f.capture? := by
  induction contexts with
  | nil => rfl
  | cons text contexts ih => exact ih

theorem capture?_eq_some_iff :
    f.capture? = some (trace, inner) ↔ ∃ contexts, f = (captured trace inner).under contexts := by
  constructor
  · intro h
    induction f with
    | captured =>
      obtain ⟨rfl, rfl⟩ := Prod.mk.inj (Option.some.inj h)
      exact ⟨[], rfl⟩
    | context text f ih =>
      obtain ⟨contexts, rfl⟩ := ih h
      exact ⟨text :: contexts, rfl⟩
    | message | caused | relay | taskFailed | taskPanicked | taskCancelled => cases h
  · rintro ⟨contexts, rfl⟩
    exact capture?_under _ contexts

theorem capture?_eq_none_iff :
    f.capture? = none ↔ ∀ contexts trace inner, f ≠ (captured trace inner).under contexts := by
  rw [Option.eq_none_iff_forall_ne_some]
  refine ⟨fun h contexts trace inner hf => ?_, fun h ⟨trace, inner⟩ hf => ?_⟩
  · exact h _ (capture?_eq_some_iff.mpr ⟨contexts, hf⟩)
  · obtain ⟨contexts, hf⟩ := capture?_eq_some_iff.mp hf
    exact h contexts trace inner hf

/-- What stands below a report with a trace: a line with the label, and the trace below it. -/
def traceText (colored : Bool) (trace : String) : String :=
  (if colored then "\n\x1b[33mstacktrace:\x1b[39m\n" else "\nstacktrace:\n") ++ trace

theorem ofList_traceChars (colored : Bool) (trace : String) :
    String.ofList (traceChars colored trace) = traceText colored trace := by
  apply String.toList_injective
  rw [String.toList_ofList, traceText, String.toList_append]
  cases colored <;> rfl

theorem traceText_injective (colored : Bool) : (traceText colored).Injective :=
  fun _ _ h => (String.append_right_inj _).mp h

theorem traceText_ne_empty (colored : Bool) (trace : String) : traceText colored trace ≠ "" := by
  intro h
  rw [traceText, String.append_eq_empty_iff] at h
  cases colored <;> exact absurd h.1 (by decide)

theorem reportWithTrace_of_capture (h : f.capture? = some (trace, inner)) (colored : Bool) :
    f.reportWithTrace colored = f.report colored ++ traceText colored trace := by
  rw [reportWithTrace, h, ← ofList_traceChars, report, ← String.ofList_append]

theorem reportWithTrace_of_no_capture (h : f.capture? = none) (colored : Bool) :
    f.reportWithTrace colored = f.report colored := by
  rw [reportWithTrace, h]

/-- The stack trace that a failure shows. -/
def shown? (f : Failure) : Option String := f.capture?.map Prod.fst

theorem shown?_eq_none_iff : f.shown? = none ↔ f.capture? = none := Option.map_eq_none_iff

theorem reportWithTrace_eq (f : Failure) (colored : Bool) :
    f.reportWithTrace colored = f.report colored ++ f.shown?.elim "" (traceText colored) := by
  cases h : f.capture? with
  | none =>
    rw [reportWithTrace_of_no_capture h, shown?, h, Option.map_none, Option.elim_none,
      String.append_empty]
  | some c => rw [reportWithTrace_of_capture h, shown?, h, Option.map_some, Option.elim_some]

/-- The trace below a report, if there is one, is that of the capture that is found. -/
theorem reportWithTrace_eq_iff :
    f.reportWithTrace colored = f.report colored ++ traceText colored trace ↔
      ∃ inner, f.capture? = some (trace, inner) := by
  constructor
  · intro h
    cases hc : f.capture? with
    | none =>
      rw [reportWithTrace_of_no_capture hc] at h
      exact absurd (String.append_eq_left_iff.mp h.symm) (traceText_ne_empty colored trace)
    | some found =>
      obtain ⟨other, inner⟩ := found
      rw [reportWithTrace_of_capture hc] at h
      obtain rfl := traceText_injective colored ((String.append_right_inj _).mp h)
      exact ⟨inner, rfl⟩
  · rintro ⟨inner, h⟩
    exact reportWithTrace_of_capture h colored

theorem reportWithTrace_eq_report_iff :
    f.reportWithTrace colored = f.report colored ↔ f.capture? = none := by
  refine ⟨fun h => ?_, fun h => reportWithTrace_of_no_capture h colored⟩
  by_contra hc
  obtain ⟨⟨trace, inner⟩, hc⟩ := Option.ne_none_iff_exists'.mp hc
  rw [reportWithTrace_of_capture hc] at h
  exact traceText_ne_empty colored trace (String.append_eq_left_iff.mp h)

/--
A trace stands below the report of a capture under contexts, under a line with the label, and it is
the trace of this capture, whatever else is captured in it. Below other reports there is none,
although something may be captured behind the failure or in the failure of a task.
-/
theorem shownTrace (f : Failure) (colored : Bool) :
    (∀ trace, f.reportWithTrace colored = f.report colored ++
        ((if colored then "\n\x1b[33mstacktrace:\x1b[39m\n" else "\nstacktrace:\n") ++ trace) ↔
      ∃ contexts inner, f = (captured trace inner).under contexts) ∧
    (f.reportWithTrace colored = f.report colored ↔
      ∀ contexts trace inner, f ≠ (captured trace inner).under contexts) ∧
    ∀ contexts text inner,
      f = (caused text inner).under contexts ∨ f = (taskFailed inner).under contexts →
        f.reportWithTrace colored = f.report colored := by
  refine ⟨fun trace => ?_, ?_, ?_⟩
  · rw [← traceText, reportWithTrace_eq_iff, exists_comm]
    exact exists_congr fun inner => capture?_eq_some_iff
  · rw [reportWithTrace_eq_report_iff, capture?_eq_none_iff]
  · rintro contexts text inner (rfl | rfl) <;>
      exact reportWithTrace_of_no_capture (capture?_under _ contexts) colored

/-- Of two captures under contexts the outer one shows. -/
example : reportWithTrace false
      (context "a" (captured "outer" (context "b" (captured "inner" (.message "c"))))) =
    "error: a\ncaused by: b\ncaused by: c\nstacktrace:\nouter" := by decide

end TaskRelay.Failure
