import Mathlib
import TaskRelay.Proofs.Relay.Front

/-!
# What the journal says about submissions

The journal read back: who sent, published and received in which order, and every submission that
was answered, with the steps that were taken for it between its question and its answer
(`Submission`). All of it depends on the marks of the front alone.
-/

namespace TaskRelay

/-! ## Senders, handles and receivers -/

def Mark.sender? : Mark → Option Caller
  | .sent c => some c
  | _ => none

def Mark.publication? : Mark → Option Ticket
  | .published t => some t
  | _ => none

def Mark.receipt? : Mark → Option (Caller × Ticket)
  | .received c t => some (c, t)
  | _ => none

def Mark.launch? : Mark → Option Mark
  | .launched id c e => some (.launched id c e)
  | _ => none

/-- The id of a task whose submission was accepted. -/
def Mark.acceptedId? : Mark → Option Nat
  | .answered _ (.ok t) => some t.id
  | _ => none

namespace State

variable (s : State)

/-- Who put an envelope into the queue to the worker, in order. -/
def senders : List Caller := s.history.filterMap Mark.sender?

/-- The handles that the worker put into the queue to the submitters, in order. -/
def publications : List Ticket := s.history.filterMap Mark.publication?

/-- Who took which handle out of that queue, in order. -/
def receipts : List (Caller × Ticket) := s.history.filterMap Mark.receipt?

/-- The ids of the tasks whose submissions were accepted, in the order of the answers. -/
def acceptedIds : List Nat := s.history.filterMap Mark.acceptedId?

/-- The tasks that were launched, in order. -/
def launches : List Mark := s.history.filterMap Mark.launch?

end State

/-! ## Submissions -/

/-- A step that is taken for a submission of this caller. -/
def Mark.isStepOf (c : Caller) : Mark → Bool
  | .locked d | .sent d | .launched _ d _ | .received d _ => d == c
  | _ => false

/-- Whose submission a mark belongs to. -/
def Mark.caller? : Mark → Option Caller
  | .asked c _ _ | .locked c | .sent c | .launched _ c _ | .received c _ | .answered c _ => some c
  | _ => none

def Mark.asking? (c : Caller) : Mark → Option (Entry × Envelope)
  | .asked d entry e => if d = c then some (entry, e) else none
  | _ => none

/-- What the caller asked for last. -/
def lastAsked (c : Caller) (journal : List Mark) : Option (Entry × Envelope) :=
  journal.findSome? (Mark.asking? c)

/-- The steps taken for the caller since it asked last, from the first. -/
def stepsSince (c : Caller) (journal : List Mark) : List Mark :=
  ((journal.takeWhile fun m => (m.asking? c).isNone).filter (Mark.isStepOf c)).reverse

/-- A submission that was answered. -/
structure Submission where
  caller : Caller
  entry : Entry
  envelope : Envelope
  /-- What was done for it before the answer, from the first. -/
  steps : List Mark
  answer : Except RelayError Ticket

/-- The submission that this mark is the answer to, if it is one. -/
def Mark.submission? (before : List Mark) : Mark → Option Submission
  | .answered c r =>
    (lastAsked c before).map fun q => ⟨c, q.1, q.2, stepsSince c before, r⟩
  | _ => none

/-- The answered submissions of a journal, the latest first. -/
def submissionsIn : List Mark → List Submission
  | [] => []
  | m :: before => (m.submission? before).toList ++ submissionsIn before

def State.submissions (s : State) : List Submission := (submissionsIn s.journal).reverse

/-! ## One mark more -/

section cons

variable {c : Caller} {m : Mark} {journal : List Mark}

theorem lastAsked_asked (entry : Entry) (e : Envelope) :
    lastAsked c (.asked c entry e :: journal) = some (entry, e) := by
  simp [lastAsked, Mark.asking?]

theorem lastAsked_other (h : m.asking? c = none) :
    lastAsked c (m :: journal) = lastAsked c journal := by
  simp [lastAsked, h]

theorem stepsSince_asked (entry : Entry) (e : Envelope) :
    stepsSince c (.asked c entry e :: journal) = [] := by
  simp [stepsSince, Mark.asking?]

theorem stepsSince_step (h : m.isStepOf c) :
    stepsSince c (m :: journal) = stepsSince c journal ++ [m] := by
  have ha : m.asking? c = none := by
    cases m <;> first | rfl | simp [Mark.isStepOf] at h
  simp [stepsSince, ha, h]

theorem asking?_of_caller? (h : m.caller? ≠ some c) :
    m.asking? c = none ∧ m.isStepOf c = false := by
  cases m <;> simp_all [Mark.caller?, Mark.asking?, Mark.isStepOf]

theorem stepsSince_other (ha : m.asking? c = none) (h : m.isStepOf c = false) :
    stepsSince c (m :: journal) = stepsSince c journal := by
  simp [stepsSince, ha, h]

/-- The marks of one caller say nothing about another. -/
theorem stepsSince_of_caller? (h : m.caller? ≠ some c) :
    stepsSince c (m :: journal) = stepsSince c journal :=
  stepsSince_other (asking?_of_caller? h).1 (asking?_of_caller? h).2

theorem lastAsked_of_caller? (h : m.caller? ≠ some c) :
    lastAsked c (m :: journal) = lastAsked c journal :=
  lastAsked_other (asking?_of_caller? h).1

theorem stepsSince_answered (d : Caller) (r : Except RelayError Ticket) :
    stepsSince c (.answered d r :: journal) = stepsSince c journal :=
  stepsSince_other rfl rfl

end cons

/-! ## Only the front counts -/

section front

theorem asking?_of_not_isFront {c : Caller} {m : Mark} (h : m.isFront = false) :
    m.asking? c = none ∧ m.isStepOf c = false := by
  cases m <;> first | exact ⟨rfl, rfl⟩ | cases h

theorem lastAsked_filter (c : Caller) (journal : List Mark) :
    lastAsked c (journal.filter Mark.isFront) = lastAsked c journal := by
  induction journal with
  | nil => rfl
  | cons m journal ih =>
    cases hm : m.isFront with
    | true =>
      rw [List.filter_cons_of_pos hm]
      simp only [lastAsked, List.findSome?_cons] at ih ⊢
      rw [ih]
    | false =>
      rw [List.filter_cons_of_neg (by simp [hm]), lastAsked_other (asking?_of_not_isFront hm).1, ih]

theorem stepsSince_filter (c : Caller) (journal : List Mark) :
    stepsSince c (journal.filter Mark.isFront) = stepsSince c journal := by
  induction journal with
  | nil => rfl
  | cons m journal ih =>
    cases hm : m.isFront with
    | true =>
      rw [List.filter_cons_of_pos hm]
      simp only [stepsSince, List.takeWhile_cons] at ih ⊢
      cases m.asking? c with
      | some q => rfl
      | none =>
        simp only [Option.isNone_none, if_true, List.filter_cons]
        cases m.isStepOf c with
        | true => simpa using ih
        | false => exact ih
    | false =>
      obtain ⟨ha, hs⟩ := asking?_of_not_isFront (c := c) hm
      rw [List.filter_cons_of_neg (by simp [hm]), stepsSince_other ha hs, ih]

theorem submissionsIn_filter (journal : List Mark) :
    submissionsIn (journal.filter Mark.isFront) = submissionsIn journal := by
  induction journal with
  | nil => rfl
  | cons m journal ih =>
    cases hm : m.isFront with
    | true =>
      rw [List.filter_cons_of_pos hm, submissionsIn, submissionsIn, ih]
      congr 1
      cases m with
      | answered c r => simp only [Mark.submission?, lastAsked_filter, stepsSince_filter]
      | _ => rfl
    | false =>
      rw [List.filter_cons_of_neg (by simp [hm]), submissionsIn, ih]
      cases m <;> first | rfl | cases hm

/-- A reading of marks that sees the front alone. -/
theorem filterMap_filter_isFront {α : Type} {f : Mark → Option α}
    (hf : ∀ m : Mark, m.isFront = false → f m = none) (journal : List Mark) :
    (journal.filter Mark.isFront).filterMap f = journal.filterMap f := by
  rw [List.filterMap_filter]
  apply List.filterMap_congr
  intro m _
  cases hm : m.isFront with
  | true => rfl
  | false => exact (hf m hm).symm

end front

namespace SameFront

variable {s t : State} (h : SameFront s t)

include h

theorem lastAsked (c : Caller) : lastAsked c t.journal = TaskRelay.lastAsked c s.journal := by
  rw [← lastAsked_filter, h.marks, lastAsked_filter]

theorem stepsSince (c : Caller) : stepsSince c t.journal = TaskRelay.stepsSince c s.journal := by
  rw [← stepsSince_filter, h.marks, stepsSince_filter]

theorem submissionsIn : submissionsIn t.journal = TaskRelay.submissionsIn s.journal := by
  rw [← submissionsIn_filter, h.marks, submissionsIn_filter]

/-- The same, from the beginning. -/
theorem history {α : Type} {f : Mark → Option α} (hf : ∀ m : Mark, m.isFront = false → f m = none) :
    t.history.filterMap f = s.history.filterMap f := by
  rw [State.history, State.history, List.filterMap_reverse, List.filterMap_reverse,
    ← filterMap_filter_isFront hf, h.marks, filterMap_filter_isFront hf]

theorem senders : t.senders = s.senders :=
  h.history fun m hm => by cases m <;> first | rfl | cases hm

theorem publications : t.publications = s.publications :=
  h.history fun m hm => by cases m <;> first | rfl | cases hm

theorem receipts : t.receipts = s.receipts :=
  h.history fun m hm => by cases m <;> first | rfl | cases hm

theorem launches : t.launches = s.launches :=
  h.history fun m hm => by cases m <;> first | rfl | cases hm

theorem acceptedIds : t.acceptedIds = s.acceptedIds :=
  h.history fun m hm => by cases m <;> first | rfl | cases hm

end SameFront

end TaskRelay
