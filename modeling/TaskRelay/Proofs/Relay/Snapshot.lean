import Mathlib
import TaskRelay.Proofs.Relay.Census
import TaskRelay.Proofs.Relay.Conservation

/-!
# Figures read while the relay goes on

The figures are read one after another, and anything may happen between two reads (`ReadsTo`). No
read gives what its figure was not at some moment in between (`ReadsTo.within`), but the figures
need not fit each other: the submissions are read first, so a task that is submitted and ends
meanwhile is seen at its end and not at its beginning (`snapshot_overtaken`).
Main statement: `snapshot`, by how much the ends can outnumber the submissions.
-/

namespace TaskRelay

variable {s t u : State} {fs : List Figure} {r : Figure → Nat}

/-- Reads figures one after another on the way from one state to another. -/
inductive ReadsTo : State → List Figure → List Nat → State → Prop where
  | nil {s t : State} : Leads s t → ReadsTo s [] [] t
  | cons {s t u : State} {f : Figure} {fs : List Figure} {ns : List Nat} :
      Leads s t → ReadsTo t fs ns u → ReadsTo s (f :: fs) (t.figure f :: ns) u

theorem readsAlong_iff {ns : List Nat} : ReadsAlong s fs ns ↔ ∃ t, ReadsTo s fs ns t := by
  constructor
  · intro h
    induction h with
    | nil s => exact ⟨s, .nil .here⟩
    | cons hl _ ih =>
      obtain ⟨t, h⟩ := ih
      exact ⟨t, .cons hl h⟩
  · rintro ⟨t, h⟩
    induction h with
    | nil => exact .nil _
    | cons hl _ ih => exact .cons hl ih

namespace ReadsTo

theorem leads {ns : List Nat} (h : ReadsTo s fs ns t) : Leads s t := by
  induction h with
  | nil hl => exact hl
  | cons hl _ ih => exact hl.trans ih

/-- What is read of a figure is what it is at some moment on the way. -/
theorem within (h : ReadsTo s fs (fs.map r) t) {f : Figure} (hf : f ∈ fs) :
    s.figure f ≤ r f ∧ r f ≤ t.figure f := by
  induction fs generalizing s with
  | nil => cases hf
  | cons g fs ih =>
    rw [List.map_cons] at h
    generalize hn : r g = n at h
    cases h with
    | @cons _ v _ _ _ _ hl h =>
      rcases List.mem_cons.mp hf with rfl | hf
      · rw [hn]
        exact ⟨hl.figure_le f, h.leads.figure_le f⟩
      · obtain ⟨hle, hge⟩ := ih h hf
        exact ⟨(hl.figure_le f).trans hle, hge⟩

end ReadsTo

/-- The tasks that were submitted, by these figures. -/
def submitted (r : Figure → Nat) : Nat := r .direct + r .dispatched

/-- The tasks whose callable came to its end, by these figures. -/
def finished (r : Figure → Nat) : Nat := r .completed + r .failed + r .panicked

/-- At one moment there are no more ends than submissions. -/
theorem State.Reachable.finished_le (h : s.Reachable) : finished s.figure ≤ submitted s.figure :=
  h.ends_le_tasks.trans h.census.tasks_le

/-- All figures read in the order of `Figure.all`, on the way from `s` to `t`. -/
def Snapshot (s : State) (r : Figure → Nat) (t : State) : Prop :=
  ReadsTo s Figure.all (Figure.all.map r) t

/-- What figures are good for that were not read at one moment. -/
structure Nearly (s : State) (r : Figure → Nat) (t : State) : Prop where
  /-- Each is right for some moment from the first read to the return. -/
  within : ∀ f, s.figure f ≤ r f ∧ r f ≤ t.figure f
  /-- The ends read outnumber the submissions read by no more than the submissions that were counted
  after theirs had been read. -/
  finished_le : finished r ≤ submitted r + (submitted t.figure - submitted r)
  /-- Without a submission counted meanwhile they fit. -/
  still : submitted t.figure = submitted s.figure → finished r ≤ submitted r

theorem snapshot (hs : s.Reachable) (h : Snapshot s r t) : Nearly s r t := by
  have hwithin : ∀ f, s.figure f ≤ r f ∧ r f ≤ t.figure f := fun f =>
    ReadsTo.within h (by cases f <;> decide)
  have hafter : finished r ≤ submitted t.figure := by
    refine le_trans ?_ (hs.leads (ReadsTo.leads h)).finished_le
    exact Nat.add_le_add (Nat.add_le_add (hwithin _).2 (hwithin _).2) (hwithin _).2
  have hbefore : submitted s.figure ≤ submitted r := Nat.add_le_add (hwithin _).1 (hwithin _).1
  refine ⟨hwithin, ?_, fun hstill => ?_⟩
  · omega
  · omega

/-! ## A task that overtakes the reader -/

/-- A task is submitted and ends. -/
def overtaking : List Action := List.flatten [
  [.submit 0 .direct (.comingTo (.value .null) none)],
  List.replicate 4 (.call (.thread 0)), List.replicate 3 (.task 0)]

/-- What is read if all that happens after the submissions have been read. -/
def overtaken : Figure → Nat
  | .completed => 1
  | _ => 0

theorem exists_overtaken :
    ∃ t, State.plain.after? overtaking = some t ∧ Snapshot State.plain overtaken t := by
  obtain ⟨t, ht, hfigures⟩ := exists_after? (P := fun t => t.figures = [1, 0, 1, 0, 0, 0, 0])
    .plain overtaking (by decide +kernel)
  have hread : ReadsTo .plain Figure.all
      (State.plain.figure .direct :: State.plain.figure .dispatched :: t.figures.drop 2) t :=
    .cons .here <| .cons .here <| .cons (leads_of_after? ht) <| .cons .here <| .cons .here <|
      .cons .here <| .cons .here <| .nil .here
  rw [hfigures] at hread
  exact ⟨t, ht, hread⟩

/-- The ends that are read may outnumber the submissions that are read. -/
theorem snapshot_overtaken :
    ¬∀ (s : State) (r : Figure → Nat) (t : State), s.Reachable → Snapshot s r t →
      finished r ≤ submitted r := by
  intro h
  obtain ⟨t, _, hread⟩ := exists_overtaken
  exact absurd (h .plain overtaken t reachable_plain hread) (by decide)

theorem nearly_overtaken : ∃ t, State.plain.after? overtaking = some t ∧
    submitted overtaken < finished overtaken ∧ submitted t.figure = 1 ∧
      Nearly State.plain overtaken t := by
  obtain ⟨t, ht, hread⟩ := exists_overtaken
  have hone : ((State.plain.after? overtaking).map fun t => submitted t.figure) = some 1 := by
    decide +kernel
  rw [ht, Option.map_some] at hone
  exact ⟨t, ht, by decide, Option.some.inj hone, snapshot reachable_plain hread⟩

end TaskRelay
