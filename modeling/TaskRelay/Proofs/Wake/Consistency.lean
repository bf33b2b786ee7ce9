import Mathlib
import TaskRelay.Proofs.Wake.CallTree

/-!
# What a registry's log says

Whatever the threads at a registry do, and whatever the callbacks do that they call, the log says
the truth (`Truthful`), the counters say what the log says, and each thread has done what its call
tree has so far (`Consistent`). Main statement: `consistent`.
-/

namespace TaskRelay

namespace Usage

variable {n : Nat} {s s' : Usage n} {k : Fin n} {log : List (Fin n × UseEvent)}

/-! ## The log -/

/-- The callback installed last. -/
def slot (log : List (Fin n × UseEvent)) : Option Callback :=
  (log.filterMap fun x => x.2.installed?).getLast?

theorem slot_snoc (log : List (Fin n × UseEvent)) (k : Fin n) (e : UseEvent) :
    slot (log ++ [(k, e)]) = e.installed?.or (slot log) := by
  rw [slot, List.filterMap_append, List.getLast?_append]
  cases h : e.installed? <;> simp [h, slot]

def returns (log : List (Fin n × UseEvent)) : Nat := log.countP fun x => x.2.isReturned

/-- An event shows the slot and the number of returns as what came before it has left them. -/
def IsTrue (before : List (Fin n × UseEvent)) : UseEvent → Prop
  | .called c _ => slot before = some c
  | .missed _ => slot before = none
  | .saw m => m = returns before
  | .answered wake accepted => accepted = (wake.isNone || (slot before).isSome)
  | _ => True

def Truthful (log : List (Fin n × UseEvent)) : Prop :=
  ∀ before k e after, log = before ++ (k, e) :: after → IsTrue before e

theorem Truthful.snoc {e : UseEvent} (h : Truthful log) (he : IsTrue log e) :
    Truthful (log ++ [(k, e)]) := by
  intro before j f after heq
  rcases List.eq_nil_or_concat after with rfl | ⟨after, x, rfl⟩
  · obtain ⟨rfl, hx⟩ := List.append_inj' heq rfl
    cases hx
    exact he
  · rw [List.concat_eq_append, ← List.cons_append, ← List.append_assoc] at heq
    exact h before j f after (List.append_inj' heq rfl).1

/-! ## What every step keeps -/

structure Consistent (s : Usage n) : Prop where
  slot : slot s.log = s.registry.callback
  delivered : s.registry.delivered = returns s.log
  missed : s.registry.missed = s.log.countP fun x => x.2.isMissed
  truthful : Truthful s.log
  did : ∀ k, (s.users k).Did (eventsOf k s.log)
  /-- A thread at the lock is about to touch the slot, and not within the code of a callback. -/
  atSlot : ∀ k, (s.users k).approach ≠ .away → ((s.users k).place.guard?).isSome

theorem consistent_start (n : Nat) : (start n).Consistent where
  slot := rfl
  delivered := rfl
  missed := rfl
  truthful before k e after h := by cases before <;> cases h
  did k := ⟨[], .idle .nil, rfl⟩
  atSlot k h := absurd rfl h

namespace Consistent

/-- What a thread does is true of the log. -/
theorem isTrue (h : s.Consistent) {p : UsePlace} {d : Deed} (hd : d.Does s.registry p) :
    IsTrue s.log d.event := by
  cases hd with
  | ready wake =>
    show _ = (wake.isNone || (Usage.slot s.log).isSome)
    rw [h.slot]
    rfl
  | call hc | nest hc | miss hc | lose hc => exact h.slot.trans hc
  | look => exact h.delivered
  | _ => trivial

/-- What is to be shown of a step of one thread; the others stay where they are. -/
theorem move (h : s.Consistent) {r : Registry} {x : User} {es : List UseEvent}
    (slot : Usage.slot (s.log ++ es.map (k, ·)) = r.callback)
    (delivered : r.delivered = s.registry.delivered + es.countP UseEvent.isReturned)
    (missed : r.missed = s.registry.missed + es.countP UseEvent.isMissed)
    (truthful : Truthful (s.log ++ es.map (k, ·)))
    (did : ∀ l, (s.users k).Did l → x.Did (l ++ es))
    (atSlot : x.approach ≠ .away → (x.place.guard?).isSome) : (s.move k r x es).Consistent where
  slot := slot
  delivered := by
    show r.delivered = returns (s.log ++ es.map (k, ·))
    rw [returns, List.countP_append, ← returns, ← h.delivered, List.countP_map]
    exact delivered
  missed := by
    show r.missed = (s.log ++ es.map (k, ·)).countP _
    rw [List.countP_append, ← h.missed, List.countP_map]
    exact missed
  truthful := truthful
  did j := by
    by_cases hj : j = k
    · subst hj
      simpa [Usage.move] using did _ (h.did j)
    · simpa [Usage.move, hj, eventsOf_of_ne (Ne.symm hj)] using h.did j
  atSlot j := by
    by_cases hj : j = k
    · subst hj
      simpa [Usage.move] using atSlot
    · simpa [Usage.move, hj] using h.atSlot j

theorem perform (h : s.Consistent) {d : Deed} (hd : d.Does s.registry (s.users k).place)
    (ha : (s.users k).place.guard? = none ∨ (s.users k).approach = .inside) :
    (s.perform k d).Consistent := by
  refine h.move ?_ hd.delivered hd.missed (h.truthful.snoc (h.isTrue hd)) ?_ (absurd rfl)
  · rw [List.map_singleton, slot_snoc, h.slot]
    exact hd.callback.symm
  · rintro _ ⟨l, hl, rfl⟩
    have hbegun : (s.users k).begun = (s.users k).place.begun := by
      rcases ha with ha | ha
      · simp [User.begun, UsePlace.begun, UsePlace.wake?_eq_none ha]
      · simp [User.begun, ha]
    rw [hbegun]
    exact ⟨_, hl.does hd, (List.append_nil _).symm⟩

theorem come (h : s.Consistent) {g : Guard} (hg : (s.users k).place.guard? = some g)
    (ha : (s.users k).approach = .away) : (s.come k).Consistent := by
  have hdid : ∀ l, (s.users k).Did l →
      User.Did ⟨(s.users k).place, .waiting⟩ (l ++ (s.users k).place.begun) := by
    rintro _ ⟨l, hl, rfl⟩
    exact ⟨l, hl, by simp [User.begun, ha]⟩
  have hat : Approach.waiting ≠ .away → ((s.users k).place.guard?).isSome := fun _ => by
    rw [hg]
    rfl
  cases hw : (s.users k).place.wake? with
  | none =>
    have hbegun : (s.users k).place.begun = [] := by rw [UsePlace.begun, hw]; rfl
    rw [hbegun] at hdid
    rw [Usage.come, hbegun]
    refine h.move ?_ rfl rfl ?_ hdid hat
    · simpa using h.slot
    · simpa using h.truthful
  | some w =>
    have hbegun : (s.users k).place.begun = [.begun w] := by rw [UsePlace.begun, hw]; rfl
    rw [hbegun] at hdid
    rw [Usage.come, hbegun]
    refine h.move ?_ rfl rfl (h.truthful.snoc trivial) hdid hat
    rw [List.map_singleton, slot_snoc, h.slot]
    rfl

theorem enter (h : s.Consistent) {g : Guard} (hg : (s.users k).place.guard? = some g)
    (ha : (s.users k).approach = .waiting) : (s.enter k).Consistent := by
  refine h.move ?_ rfl rfl ?_ ?_ fun _ => by rw [hg]; rfl
  · simpa using h.slot
  · simpa using h.truthful
  · rintro _ ⟨l, hl, rfl⟩
    exact ⟨l, hl, by simp [User.begun, ha]⟩

theorem call (h : s.Consistent) (hidle : (s.users k).place = .idle) (u : Use) :
    (s.move k s.registry ⟨.calling u, .away⟩ []).Consistent := by
  refine h.move ?_ rfl rfl ?_ ?_ (absurd rfl)
  · simpa using h.slot
  · simpa using h.truthful
  · rintro _ ⟨l, hl, rfl⟩
    rw [hidle] at hl
    cases hl with
    | idle hl =>
      exact ⟨l, .calling u hl, by simp [User.begun, UsePlace.begun, UsePlace.wake?, hidle]⟩

theorem goes (h : s.Consistent) (hs : s.Goes k s') : s'.Consistent := by
  cases hs with
  | come hg ha => exact h.come hg ha
  | enter hg ha _ => exact h.enter hg ha
  | perform hd ha => exact h.perform hd ha

end Consistent

theorem consistent {as : List (Act n)} (h : (start n).after? as = some s) : s.Consistent :=
  after?_induct (fun _ _ u hs hidle => hs.call hidle u) (fun _ _ _ hs => hs.goes)
    (consistent_start n) h

end Usage

end TaskRelay
