import Mathlib
import TaskRelay.Wake.Registry

/-!
# Nested notifications

What a notification lets others see: a callback is called, may leave notes and notify in turn, and
returns. The registry counts every return and every notification that was missed. While a callback
is installed none is missed, and calls and returns are well nested (`Nesting`), so that a
notification that is over has returned from every callback it called.
-/

namespace TaskRelay

variable {r : Registry} {i : Invocation} {w : WakePointer}

def Sign.isMissed : Sign → Bool
  | .missed _ => true
  | _ => false

def Sign.isCall : Sign → Bool
  | .called _ => true
  | _ => false

/-- How many callbacks of a notification are running. -/
def Progress.depth : Progress → Nat
  | .running i => i.waiting.length + 1
  | .done _ => 0

/-! ## One step of a notification -/

namespace Registry

theorem notify_of_some {c : Callback} (h : r.callback = some c) (w : WakePointer) :
    r.notify w = ⟨r, [.called w], .running ⟨c w, []⟩⟩ := by
  rw [notify, h]

theorem notify_of_none (h : r.callback = none) (w : WakePointer) :
    r.notify w = ⟨r.missing, [.missed w], .done false⟩ := by
  rw [notify, h]

/-- What the registry of a turn counts is what its signs say. -/
structure Counts (r : Registry) (t : Turn) : Prop where
  delivered : t.registry.delivered = r.delivered + t.signs.count .returned
  missed : t.registry.missed = r.missed + t.signs.countP Sign.isMissed

theorem notify_counts (r : Registry) (w : WakePointer) : r.Counts (r.notify w) := by
  cases h : r.callback with
  | none =>
    rw [notify_of_none h]
    exact ⟨rfl, rfl⟩
  | some c =>
    rw [notify_of_some h]
    exact ⟨rfl, rfl⟩

theorem step_counts (r : Registry) (i : Invocation) : r.Counts (r.step i) := by
  obtain ⟨running, waiting⟩ := i
  cases running with
  | finish => cases waiting <;> exact ⟨rfl, rfl⟩
  | note | delivered | install => exact ⟨rfl, rfl⟩
  | notify v next =>
    cases h : r.callback with
    | none =>
      simp only [step, h]
      exact ⟨rfl, rfl⟩
    | some c =>
      simp only [step, h]
      exact ⟨rfl, rfl⟩

theorem notify_signs_length (r : Registry) (w : WakePointer) : (r.notify w).signs.length = 1 := by
  cases h : r.callback with
  | none => rw [notify_of_none h]; rfl
  | some c => rw [notify_of_some h]; rfl

theorem step_signs_length (r : Registry) (i : Invocation) : (r.step i).signs.length ≤ 1 := by
  obtain ⟨running, waiting⟩ := i
  cases running with
  | finish => cases waiting <;> exact Nat.le_refl 1
  | note => exact Nat.le_refl 1
  | delivered | install => exact Nat.zero_le 1
  | notify v next => cases h : r.callback <;> simp [step, h]

/-- No notification takes the callback away. -/
theorem notify_isInstalled (h : r.isInstalled) (w : WakePointer) :
    (r.notify w).registry.isInstalled := by
  obtain ⟨c, hc⟩ := Option.isSome_iff_exists.mp h
  rw [notify_of_some hc]
  exact h

theorem step_isInstalled (h : r.isInstalled) (i : Invocation) :
    (r.step i).registry.isInstalled := by
  obtain ⟨running, waiting⟩ := i
  cases running with
  | finish => cases waiting <;> exact h
  | note | delivered => exact h
  | install => rfl
  | notify v next =>
    obtain ⟨c, hc⟩ := Option.isSome_iff_exists.mp h
    simp only [step, hc]
    exact h

/-- While there is a callback nothing is missed. -/
theorem notify_missed (h : r.isInstalled) (w : WakePointer) :
    (r.notify w).signs.countP Sign.isMissed = 0 := by
  obtain ⟨c, hc⟩ := Option.isSome_iff_exists.mp h
  rw [notify_of_some hc]
  rfl

theorem step_missed (h : r.isInstalled) (i : Invocation) :
    (r.step i).signs.countP Sign.isMissed = 0 := by
  obtain ⟨running, waiting⟩ := i
  cases running with
  | finish => cases waiting <;> rfl
  | note | delivered | install => rfl
  | notify v next =>
    obtain ⟨c, hc⟩ := Option.isSome_iff_exists.mp h
    simp only [step, hc]
    rfl

end Registry

/-! ## Nesting -/

/-- What a notification of `w` has let others see while so many callbacks are running. -/
inductive Nesting (w : WakePointer) : Nat → List Sign → Prop
  | call : Nesting w 1 [.called w]
  | note {n : Nat} {l : List Sign} (text : String) :
      Nesting w (n + 1) l → Nesting w (n + 1) (l ++ [.note text])
  | nest {n : Nat} {l : List Sign} (v : WakePointer) :
      Nesting w (n + 1) l → Nesting w (n + 2) (l ++ [.called v])
  | back {n : Nat} {l : List Sign} : Nesting w (n + 1) l → Nesting w n (l ++ [.returned])

namespace Nesting

variable {n : Nat} {l : List Sign}

theorem calls (h : Nesting w n l) : l.countP Sign.isCall = l.count .returned + n := by
  induction h with
  | call => rfl
  | note text _ ih => simpa [Sign.isCall] using ih
  | nest v _ ih =>
    simp only [List.countP_append, List.count_append, ih]
    simp [Sign.isCall]
    omega
  | back _ ih =>
    simp only [List.countP_append, List.count_append, ih]
    simp [Sign.isCall]
    omega

theorem missed (h : Nesting w n l) : l.countP Sign.isMissed = 0 := by
  induction h with
  | call => rfl
  | note | nest | back => simp_all [Sign.isMissed]

/-- It begins with the call of the callback. -/
theorem begins (h : Nesting w n l) : ∃ rest, l = .called w :: rest := by
  induction h with
  | call => exact ⟨[], rfl⟩
  | note | nest | back =>
    rename_i ih
    obtain ⟨rest, rfl⟩ := ih
    exact ⟨_, rfl⟩

theorem returned_pos (h : Nesting w 0 l) : 0 < l.count .returned := by
  have hc := h.calls
  obtain ⟨rest, rfl⟩ := h.begins
  simp only [List.countP_cons, Sign.isCall, if_true] at hc
  omega

end Nesting

theorem Registry.nesting_notify (h : r.isInstalled) (w : WakePointer) :
    Nesting w (r.notify w).progress.depth (r.notify w).signs := by
  obtain ⟨c, hc⟩ := Option.isSome_iff_exists.mp h
  rw [notify_of_some hc]
  exact .call

theorem Registry.nesting_step {l : List Sign} (h : r.isInstalled)
    (hl : Nesting w (i.waiting.length + 1) l) :
    Nesting w (r.step i).progress.depth (l ++ (r.step i).signs) := by
  obtain ⟨running, waiting⟩ := i
  cases running with
  | finish =>
    cases waiting with
    | nil => exact hl.back
    | cons next rest => exact hl.back
  | note text next => exact hl.note text
  | delivered next | install c next =>
    rw [← List.append_nil l] at hl
    exact hl
  | notify v next =>
    obtain ⟨c, hc⟩ := Option.isSome_iff_exists.mp h
    simp only [step, hc]
    exact hl.nest v

end TaskRelay
