import Mathlib
import TaskRelay.Proofs.Wake.Usage

/-!
# Call trees

What a thread does at a registry is a forest: each notification that finds a callback calls it, and
all that the callback does, with the notifications it issues in turn, lies between the call and the
return.
-/

namespace TaskRelay

namespace Usage

variable {n : Nat}

/-- What one thread has done. -/
def eventsOf (k : Fin n) (log : List (Fin n × UseEvent)) : List UseEvent :=
  log.filterMap fun x => if x.1 = k then some x.2 else none

@[simp] theorem eventsOf_append (k : Fin n) (log log' : List (Fin n × UseEvent)) :
    eventsOf k (log ++ log') = eventsOf k log ++ eventsOf k log' :=
  List.filterMap_append

@[simp] theorem eventsOf_self (k : Fin n) (es : List UseEvent) :
    eventsOf k (es.map (k, ·)) = es := by
  simp [eventsOf, List.filterMap_map]

theorem eventsOf_of_ne {j k : Fin n} (h : j ≠ k) (es : List UseEvent) :
    eventsOf k (es.map (j, ·)) = [] := by
  simp [eventsOf, List.filterMap_map, h]

/-- What all threads have done is counted thread by thread. -/
theorem sum_countP_eventsOf (p : UseEvent → Bool) (log : List (Fin n × UseEvent)) :
    ∑ k, (eventsOf k log).countP p = log.countP fun x => p x.2 := by
  induction log with
  | nil => simp [eventsOf]
  | cons x log ih =>
    obtain ⟨j, e⟩ := x
    have hself : eventsOf j [(j, e)] = [e] := eventsOf_self j [e]
    have hother : ∀ k, k ≠ j → eventsOf k [(j, e)] = [] := fun k hk => eventsOf_of_ne hk.symm [e]
    have hsum : ∑ k, (eventsOf k [(j, e)]).countP p = if p e then 1 else 0 := by
      rw [Finset.sum_eq_single_of_mem j (Finset.mem_univ j), hself, List.countP_singleton]
      intro k _ hk
      rw [hother k hk, List.countP_nil]
    rw [List.countP_cons, ← ih, ← hsum, ← Finset.sum_add_distrib]
    refine Finset.sum_congr rfl fun k _ => ?_
    rw [← List.singleton_append, eventsOf_append, List.countP_append, Nat.add_comm]

end Usage

/-! ## Trees -/

/-- What happens while a callback goes on from one point to another. -/
inductive Passage : Reaction → List UseEvent → Reaction → Prop where
  | here (p : Reaction) : Passage p [] p
  | note {p next : Reaction} {l : List UseEvent} {text : String} :
      Passage p l (.note text next) → Passage p (l ++ [.note text]) next
  | look {p : Reaction} {next : Nat → Reaction} {l : List UseEvent} (m : Nat) :
      Passage p l (.delivered next) → Passage p (l ++ [.saw m]) (next m)
  | install {p next : Reaction} {l : List UseEvent} {c : Callback} :
      Passage p l (.install c next) → Passage p (l ++ [.installed c]) next
  | lose {p : Reaction} {next : Bool → Reaction} {l : List UseEvent} {w : WakePointer} :
      Passage p l (.notify w next) →
      Passage p (l ++ [UseEvent.begun w] ++ [UseEvent.missed w]) (next false)
  | nest {p : Reaction} {next : Bool → Reaction} {l l' : List UseEvent} {c : Callback}
      {w : WakePointer} :
      Passage p l (.notify w next) → Passage (c w) l' .finish →
      Passage p (l ++ ([UseEvent.begun w] ++ [UseEvent.called c w] ++ l' ++ [.returned]))
        (next true)

/-- What has happened since a notification began that is under way. -/
inductive Underway : List UseEvent → Invocation → Prop where
  | outer {p : Reaction} {l : List UseEvent} {c : Callback} {w : WakePointer} :
      Passage (c w) l p → Underway ([UseEvent.begun w] ++ [UseEvent.called c w] ++ l) ⟨p, []⟩
  | inner {p : Reaction} {next : Bool → Reaction} {rest : List (Bool → Reaction)}
      {l l' : List UseEvent} {c : Callback} {w : WakePointer} :
      Underway l ⟨.notify w next, rest⟩ → Passage (c w) l' p →
      Underway (l ++ ([UseEvent.begun w] ++ [UseEvent.called c w] ++ l')) ⟨p, next :: rest⟩

/-- What a thread has done that has come back from all its calls. -/
inductive Complete : List UseEvent → Prop where
  | nil : Complete []
  | install {l : List UseEvent} (c : Callback) : Complete l → Complete (l ++ [.installed c])
  | ready {l : List UseEvent} (wake : Option WakePointer) (accepted : Bool) :
      Complete l → Complete (l ++ [.answered wake accepted])
  | miss {l : List UseEvent} (w : WakePointer) :
      Complete l → Complete (l ++ [UseEvent.begun w] ++ [UseEvent.missed w])
  | notify {l l' : List UseEvent} {c : Callback} {w : WakePointer} :
      Complete l → Passage (c w) l' .finish →
      Complete (l ++ ([UseEvent.begun w] ++ [UseEvent.called c w] ++ l' ++ [.returned]))

/-- What a thread has done when it has come to a place. -/
inductive Arrived : List UseEvent → UsePlace → Prop where
  | idle {l : List UseEvent} : Complete l → Arrived l .idle
  | calling {l : List UseEvent} (u : Use) : Complete l → Arrived l (.calling u)
  | within {l l' : List UseEvent} {i : Invocation} :
      Complete l → Underway l' i → Arrived (l ++ l') (.within i)

def User.begun (x : User) : List UseEvent := if x.approach = .away then [] else x.place.begun

/-- The notifications that a thread has begun and not come back from. -/
def User.inProgress (x : User) : Nat := x.place.depth + x.begun.length

/-- What a thread has done that is here and stands so to the lock. -/
def User.Did (x : User) (l : List UseEvent) : Prop := ∃ l₀, Arrived l₀ x.place ∧ l = l₀ ++ x.begun

/-- A running callback goes on, and those that wait for it stay as they are. -/
theorem Underway.extend {l m : List UseEvent} {p p' : Reaction} {rest : List (Bool → Reaction)}
    (h : Underway l ⟨p, rest⟩) (hm : ∀ {q l}, Passage q l p → Passage q (l ++ m) p') :
    Underway (l ++ m) ⟨p', rest⟩ := by
  cases h with
  | outer h =>
    rw [List.append_assoc]
    exact .outer (hm h)
  | inner h h' =>
    rw [List.append_assoc, List.append_assoc]
    exact h.inner (hm h')

/-- What a thread does is the next piece of its tree. -/
theorem Arrived.does {r : Registry} {p : UsePlace} {d : Deed} {l : List UseEvent} (h : Arrived l p)
    (hd : d.Does r p) : Arrived (l ++ p.begun ++ [d.event]) d.place := by
  cases hd with
  | install c =>
    cases h with
    | calling _ h => exact .idle (by simpa [UsePlace.begun, UsePlace.wake?] using h.install c)
  | ready wake =>
    cases h with
    | calling _ h => exact .idle (by simpa [UsePlace.begun, UsePlace.wake?] using h.ready wake _)
  | @call c hc w =>
    cases h with
    | calling _ h =>
      simpa [UsePlace.begun, UsePlace.wake?] using Arrived.within h (.outer (.here (c w)))
  | miss hc w =>
    cases h with
    | calling _ h => exact .idle (h.miss w)
  | finish =>
    cases h with
    | within h hu =>
      cases hu with
      | outer hp => exact .idle (by simpa [UsePlace.begun, UsePlace.wake?] using h.notify hp)
  | back next rest =>
    cases h with
    | within h hu =>
      cases hu with
      | inner hu hp =>
        have := hu.extend fun hq => hq.nest hp
        simpa [UsePlace.begun, UsePlace.wake?] using Arrived.within h this
  | note text next rest =>
    cases h with
    | within h hu =>
      have := hu.extend Passage.note
      simpa [UsePlace.begun, UsePlace.wake?] using Arrived.within h this
  | look next rest =>
    cases h with
    | within h hu =>
      have := hu.extend (Passage.look r.delivered)
      simpa [UsePlace.begun, UsePlace.wake?] using Arrived.within h this
  | replace c next rest =>
    cases h with
    | within h hu =>
      have := hu.extend Passage.install
      simpa [UsePlace.begun, UsePlace.wake?] using Arrived.within h this
  | @nest c hc w next rest =>
    cases h with
    | within h hu =>
      have := hu.inner (.here (c w))
      simpa [UsePlace.begun, UsePlace.wake?] using Arrived.within h this
  | lose hc w next rest =>
    cases h with
    | within h hu =>
      have : Underway (_ ++ ([UseEvent.begun w] ++ [UseEvent.missed w])) ⟨next false, rest⟩ :=
        hu.extend fun hq => by simpa using hq.lose
      simpa [UsePlace.begun, UsePlace.wake?] using Arrived.within h this

/-! ## Counting -/

/-- So many of the callbacks called have not returned, and each call that began found its end. -/
structure Tally (l : List UseEvent) (depth : Nat) : Prop where
  calls : l.countP UseEvent.isCalled = l.countP UseEvent.isReturned + depth
  begun : l.countP UseEvent.isBegun = l.countP UseEvent.isCalled + l.countP UseEvent.isMissed

namespace Tally

variable {l l' : List UseEvent} {m m' : Nat}

theorem append (h : Tally l m) (h' : Tally l' m') : Tally (l ++ l') (m + m') := by
  obtain ⟨hc, hb⟩ := h
  obtain ⟨hc', hb'⟩ := h'
  constructor
  · simp only [List.countP_append]
    omega
  · simp only [List.countP_append]
    omega

/-- Only calls, returns and what becomes of a notification count. -/
theorem aside (h : Tally l m) {e : UseEvent} (hc : e.isCalled = false) (hr : e.isReturned = false)
    (hb : e.isBegun = false) (hm : e.isMissed = false) : Tally (l ++ [e]) m := by
  have he : Tally [e] 0 := ⟨by simp [hc, hr], by simp [hc, hb, hm]⟩
  exact h.append he

theorem lose (h : Tally l m) (w : WakePointer) :
    Tally (l ++ [UseEvent.begun w] ++ [UseEvent.missed w]) m := by
  have hw : Tally ([UseEvent.begun w] ++ [UseEvent.missed w]) 0 := ⟨rfl, rfl⟩
  rw [List.append_assoc]
  exact h.append hw

theorem call (h : Tally l m) (c : Callback) (w : WakePointer) :
    Tally ([UseEvent.begun w] ++ [UseEvent.called c w] ++ l) (m + 1) := by
  have hw : Tally ([UseEvent.begun w] ++ [UseEvent.called c w]) 1 := ⟨rfl, rfl⟩
  rw [Nat.add_comm]
  exact hw.append h

theorem back (h : Tally l (m + 1)) : Tally (l ++ [.returned]) m := by
  obtain ⟨hc, hb⟩ := h
  constructor
  · simp only [List.countP_append]
    simp [UseEvent.isCalled, UseEvent.isReturned]
    omega
  · simpa [UseEvent.isBegun, UseEvent.isCalled, UseEvent.isMissed] using hb

end Tally

theorem Passage.tally {p q : Reaction} {l : List UseEvent} (h : Passage p l q) : Tally l 0 := by
  induction h with
  | here => exact ⟨rfl, rfl⟩
  | note _ ih | look _ _ ih | install _ ih => exact ih.aside rfl rfl rfl rfl
  | lose _ ih => exact ih.lose _
  | nest _ _ ih ih' => exact ih.append (ih'.call _ _).back

theorem Underway.tally {l : List UseEvent} {i : Invocation} (h : Underway l i) :
    Tally l (i.waiting.length + 1) := by
  induction h with
  | outer h => exact h.tally.call _ _
  | inner _ h' ih => exact ih.append (h'.tally.call _ _)

theorem Complete.tally {l : List UseEvent} (h : Complete l) : Tally l 0 := by
  induction h with
  | nil => exact ⟨rfl, rfl⟩
  | install _ _ ih | ready _ _ _ ih => exact ih.aside rfl rfl rfl rfl
  | miss _ _ ih => exact ih.lose _
  | notify _ h ih => exact ih.append (h.tally.call _ _).back

theorem Arrived.tally {l : List UseEvent} {p : UsePlace} (h : Arrived l p) : Tally l p.depth := by
  cases h with
  | idle h | calling _ h => exact h.tally
  | within h hu =>
    rw [← Nat.zero_add (UsePlace.depth _)]
    exact h.tally.append hu.tally

namespace User

theorem tally_begun (x : User) : x.begun.countP UseEvent.isBegun = x.begun.length ∧
    x.begun.countP UseEvent.isCalled = 0 ∧ x.begun.countP UseEvent.isMissed = 0 ∧
    x.begun.countP UseEvent.isReturned = 0 := by
  unfold begun UsePlace.begun
  split
  · exact ⟨rfl, rfl, rfl, rfl⟩
  · cases x.place.wake? <;> exact ⟨rfl, rfl, rfl, rfl⟩

namespace Did

variable {x : User} {l : List UseEvent}

theorem calls (h : x.Did l) :
    l.countP UseEvent.isCalled = l.countP UseEvent.isReturned + x.place.depth := by
  obtain ⟨l, hl, rfl⟩ := h
  obtain ⟨hc, hb⟩ := hl.tally
  obtain ⟨_, hxc, _, hxr⟩ := x.tally_begun
  simp only [List.countP_append]
  omega

theorem begins (h : x.Did l) :
    l.countP UseEvent.isBegun =
      l.countP UseEvent.isReturned + l.countP UseEvent.isMissed + x.inProgress := by
  obtain ⟨l, hl, rfl⟩ := h
  obtain ⟨hc, hb⟩ := hl.tally
  obtain ⟨hxb, _, hxm, hxr⟩ := x.tally_begun
  simp only [List.countP_append, inProgress]
  omega

end Did

end User

end TaskRelay
