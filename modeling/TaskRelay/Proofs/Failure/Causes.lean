import Mathlib
import TaskRelay.Failure.Report

/-!
# Captures do not show

The chain of a failure is what it and the failures behind it display, each the cause of the one
before (`texts_chain`). A capture displays what the captured failure displays and has the same
cause, so it shows nowhere in a chain: without its captures, wherever they stand, a failure reads as
with them. Main statement: `bare_readsAs`.
-/

namespace TaskRelay.Failure

variable {f g : Failure}

/-! ## The failures of a chain -/

/-- The failure behind a failure. Behind a capture stands what is behind the captured failure. -/
def cause? : Failure → Option Failure
  | .caused _ cause => some cause
  | .context _ inner => some inner
  | .captured _ inner => inner.cause?
  | _ => none

theorem sizeOf_lt_of_cause? (h : f.cause? = some g) : sizeOf g < sizeOf f := by
  induction f with
  | caused | context =>
    obtain rfl := Option.some.inj h
    simp
  | captured trace inner ih =>
    have := ih h
    simp only [captured.sizeOf_spec]
    omega
  | message | relay | taskFailed | taskPanicked | taskCancelled => cases h

/-- The failure, its cause, the cause of that, and so on. -/
def links (f : Failure) : List Failure :=
  f :: match _h : f.cause? with
    | some g => g.links
    | none => []
termination_by sizeOf f
decreasing_by exact sizeOf_lt_of_cause? ‹_›

theorem links_of_cause? (h : f.cause? = some g) : f.links = f :: g.links := by
  rw [links]
  split <;> simp_all

theorem links_of_no_cause (h : f.cause? = none) : f.links = [f] := by
  rw [links]
  split <;> simp_all

theorem causes_chain (f : Failure) :
    f.chain.causes = (f.cause?.map fun g => g.chain.texts).getD [] := by
  induction f with
  | captured trace inner ih => exact ih
  | _ => rfl

/-- A chain is what its failures display. -/
theorem texts_chain (f : Failure) : f.chain.texts = f.links.map display := by
  rw [Chain.texts, causes_chain]
  cases h : f.cause? with
  | none =>
    rw [links_of_no_cause h]
    rfl
  | some g =>
    rw [links_of_cause? h, List.map_cons, ← texts_chain g]
    rfl
termination_by sizeOf f
decreasing_by exact sizeOf_lt_of_cause? h

/-! ## Without captures -/

/-- The failure without any capture, at its top, under contexts, behind it or in the failure of a
task. -/
def bare : Failure → Failure
  | .message text => .message text
  | .caused text cause => .caused text cause.bare
  | .context text inner => .context text inner.bare
  | .captured _ inner => inner.bare
  | .relay error => .relay error
  | .taskFailed inner => .taskFailed inner.bare
  | .taskPanicked text => .taskPanicked text
  | .taskCancelled => .taskCancelled

/-- The stack traces of all captures in a failure, wherever they stand. -/
def traces : Failure → List String
  | .captured trace inner => trace :: inner.traces
  | .caused _ inner | .context _ inner | .taskFailed inner => inner.traces
  | _ => []

@[simp] theorem traces_bare (f : Failure) : f.bare.traces = [] := by
  induction f with
  | captured trace inner ih => exact ih
  | caused _ inner ih | context _ inner ih | taskFailed inner ih => exact ih
  | _ => rfl

theorem bare_eq_self_iff : f.bare = f ↔ f.traces = [] := by
  refine ⟨fun h => h ▸ traces_bare f, fun h => ?_⟩
  induction f with
  | captured => cases h
  | caused _ inner ih | context _ inner ih | taskFailed inner ih => rw [bare, ih h]
  | _ => rfl

@[simp] theorem chain_bare (f : Failure) : f.bare.chain = f.chain := by
  induction f with
  | captured trace inner ih => exact ih
  | caused _ inner ih | context _ inner ih | taskFailed inner ih => rw [bare, chain, ih, chain]
  | _ => rfl

theorem cause?_bare (f : Failure) : f.bare.cause? = f.cause?.map bare := by
  induction f with
  | captured trace inner ih => exact ih
  | _ => rfl

/-- No failure of the chain is left out or doubled. -/
theorem links_bare (f : Failure) : f.bare.links = f.links.map bare := by
  have hcause := cause?_bare f
  cases h : f.cause? with
  | none =>
    rw [h] at hcause
    rw [links_of_no_cause hcause, links_of_no_cause h]
    rfl
  | some g =>
    rw [h] at hcause
    rw [links_of_cause? hcause, links_of_cause? h, List.map_cons, links_bare g]
termination_by sizeOf f
decreasing_by exact sizeOf_lt_of_cause? h

/-- Whatever is written about the two failures is the same. -/
structure ReadsAs (f g : Failure) : Prop where
  display : f.display = g.display
  /-- The chain in one line. -/
  joined : f.joined = g.joined
  listing : f.listing = g.listing
  texts : f.links.map Failure.display = g.links.map Failure.display
  root : f.chain.root = g.chain.root
  report : ∀ colored, f.report colored = g.report colored

theorem readsAs_of_chain (h : f.chain = g.chain) : f.ReadsAs g where
  display := congrArg Chain.top h
  joined := congrArg Chain.joined h
  listing := congrArg Chain.listing h
  texts := by rw [← texts_chain, ← texts_chain, h]
  root := congrArg Chain.root h
  report colored := by rw [report, report, h]

/-- A failure reads without its captures as it does with them. -/
theorem bare_readsAs (f : Failure) :
    f.bare.traces = [] ∧ (f.bare = f ↔ f.traces = []) ∧ f.bare.links = f.links.map bare ∧
      f.bare.ReadsAs f :=
  ⟨traces_bare f, bare_eq_self_iff, links_bare f, readsAs_of_chain (chain_bare f)⟩

end TaskRelay.Failure
