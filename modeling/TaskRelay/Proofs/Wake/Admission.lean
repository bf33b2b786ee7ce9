import Mathlib
import TaskRelay.Proofs.Wake.Consistency
import TaskRelay.Proofs.Wake.Halving

/-!
# Admission to the slot

A thread that wants to read or write the slot has to wait only for threads that are doing so at that
moment: each of them comes out with its very next step (`exists_admitted`), for none of them is
within the code of a callback. A thread that finds nobody at the slot does what `Turn.run` does
(`notify_alone`), so a notification that comes to an end there comes to an end here.
-/

namespace TaskRelay

namespace Usage

variable {n : Nat} {s s' : Usage n} {k : Fin n}

/-! ## Waiting -/

/-- A thread at the slot comes out of it with its next step. -/
theorem Consistent.leaves (h : s.Consistent) (hk : (s.users k).approach = .inside) :
    ∃ d, d.Does s.registry (s.users k).place ∧ s.go? k = some (s.perform k d) := by
  obtain ⟨g, hg⟩ := Option.isSome_iff_exists.mp (h.atSlot k (by rw [hk]; decide))
  have hbusy : (s.users k).place ≠ .idle := by
    intro hidle
    rw [hidle] at hg
    cases hg
  obtain ⟨d, hd⟩ := s.registry.exists_deed hbusy
  refine ⟨d, Registry.does_of_deed? hd, ?_⟩
  simp only [go?, hg, hk, hd, Option.map_some]

theorem isFree_of_none_inside (h : ∀ j, (s.users j).approach ≠ .inside) (g : Guard) :
    s.IsFree g := by
  cases g with
  | shared => exact fun j hj => absurd hj (h j)
  | exclusive => exact h

/-- Nothing but another thread at the slot can keep a thread from going on. -/
theorem exists_inside (hbusy : (s.users k).place ≠ .idle) (hgo : s.go? k = none) :
    (s.users k).approach = .waiting ∧ ∃ j, j ≠ k ∧ (s.users j).approach = .inside := by
  obtain ⟨d, hd⟩ := s.registry.exists_deed hbusy
  cases hg : (s.users k).place.guard? with
  | none => simp [go?, hg, hd] at hgo
  | some g =>
    cases ha : (s.users k).approach with
    | away => simp [go?, hg, ha] at hgo
    | inside => simp [go?, hg, ha, hd] at hgo
    | waiting =>
      refine ⟨rfl, by_contra fun hnone => ?_⟩
      have hfree : s.IsFree g := by
        refine isFree_of_none_inside (fun j hj => hnone ⟨j, ?_, hj⟩) g
        rintro rfl
        rw [ha] at hj
        cases hj
      simp [go?, hg, ha, hfree] at hgo

/-- Threads at the slot come out of it one after another, each with one step. -/
theorem Consistent.exists_left (h : s.Consistent) {js : List (Fin n)} (hjs : js.Nodup)
    (hin : ∀ j ∈ js, (s.users j).approach = .inside) :
    ∃ s', s.after? (js.map .go) = some s' ∧ (∀ j ∈ js, (s'.users j).approach = .away) ∧
      ∀ j ∉ js, s'.users j = s.users j := by
  induction js generalizing s with
  | nil => exact ⟨s, rfl, by simp, fun _ _ => rfl⟩
  | cons j js ih =>
    obtain ⟨hj, hjs⟩ := List.nodup_cons.mp hjs
    have hk := hin j List.mem_cons_self
    obtain ⟨d, hd, hgo⟩ := h.leaves hk
    have hother : ∀ i ≠ j, (s.perform j d).users i = s.users i := fun i hi =>
      Function.update_of_ne hi _ _
    obtain ⟨s', hs', haway, hsame⟩ := ih (h.perform hd (.inr hk)) hjs fun i hi => by
      rw [hother i fun hij => hj (hij ▸ hi)]
      exact hin i (List.mem_cons_of_mem j hi)
    refine ⟨s', after?_cons hgo hs', fun i hi => ?_, fun i hi => ?_⟩
    · rcases List.mem_cons.mp hi with rfl | hi
      · rw [hsame i hj]
        show (Function.update s.users i _ i).approach = _
        rw [Function.update_self]
      · exact haway i hi
    · obtain ⟨hne, hi⟩ := not_or.mp (List.mem_cons.not.mp hi)
      rw [hsame i hi, hother i hne]

/--
A thread that waits at the slot is admitted as soon as those that are at the slot have come out of
it, each with one step of its own.
-/
theorem Consistent.exists_admitted (h : s.Consistent) (hk : (s.users k).approach = .waiting) :
    ∃ js : List (Fin n), js.Nodup ∧ (∀ j ∈ js, j ≠ k ∧ (s.users j).approach = .inside) ∧
      ∃ s', s.after? (js.map .go) = some s' ∧ s'.users k = s.users k ∧
        s'.go? k = some (s'.enter k) := by
  classical
  let js := (Finset.univ.filter fun j => (s.users j).approach = .inside).toList
  have hmem : ∀ j, j ∈ js ↔ (s.users j).approach = .inside := by simp [js]
  have hkjs : k ∉ js := by rw [hmem, hk]; decide
  obtain ⟨s', hs', haway, hsame⟩ := h.exists_left (Finset.nodup_toList _) fun j hj => (hmem j).mp hj
  refine ⟨js, Finset.nodup_toList _, fun j hj => ⟨fun hjk => hkjs (hjk ▸ hj), (hmem j).mp hj⟩,
    s', hs', hsame k hkjs, ?_⟩
  obtain ⟨g, hg⟩ := Option.isSome_iff_exists.mp (h.atSlot k (by rw [hk]; decide))
  have hfree : s'.IsFree g := by
    refine isFree_of_none_inside (fun j hj => ?_) g
    by_cases hin : j ∈ js
    · rw [haway j hin] at hj
      cases hj
    · rw [hsame j hin] at hj
      exact hin ((hmem j).mpr hj)
  simp only [go?, hsame k hkjs, hg, hk, hfree, if_true]

/-! ## A thread that finds nobody at the slot -/

theorem after?_append (s : Usage n) (as bs : List (Act n)) :
    s.after? (as ++ bs) = s.after? as >>= fun t => t.after? bs := by
  induction as generalizing s with
  | nil => rfl
  | cons a rest ih =>
    show (s.step? a).bind _ = ((s.step? a).bind _).bind _
    cases s.step? a with
    | none => rfl
    | some t => exact ih t

theorem move_self (s : Usage n) (k : Fin n) : s.move k s.registry (s.users k) [] = s := by
  simp [move]

theorem move_move (s : Usage n) (k : Fin n) (r r' : Registry) (x x' : User)
    (es es' : List UseEvent) :
    (s.move k r x es).move k r' x' es' = s.move k r' x' (es ++ es') := by
  simp [move]

theorem move_users (s : Usage n) (k : Fin n) (r : Registry) (x : User) (es : List UseEvent) :
    (s.move k r x es).users k = x := Function.update_self _ _ _

/-- Nobody else is at the slot. -/
def IsAlone (s : Usage n) (k : Fin n) : Prop := ∀ j ≠ k, (s.users j).approach ≠ .inside

theorem IsAlone.move (h : s.IsAlone k) (r : Registry) (x : User) (es : List UseEvent) :
    (s.move k r x es).IsAlone k := by
  intro j hj
  show (Function.update s.users k x j).approach ≠ _
  rw [Function.update_of_ne hj]
  exact h j hj

theorem IsAlone.isFree (h : s.IsAlone k) (hk : (s.users k).approach ≠ .inside) (g : Guard) :
    s.IsFree g := by
  refine isFree_of_none_inside (fun j hj => ?_) g
  by_cases hjk : j = k
  · exact hk (hjk ▸ hj)
  · exact h j hjk hj

/-- It comes, is admitted and does what it is about to do, with nothing in between. -/
theorem IsAlone.exists_performed (h : s.IsAlone k) {p : UsePlace} {d : Deed}
    (hk : s.users k = ⟨p, .away⟩) (hd : s.registry.deed? p = some d) :
    ∃ m, s.after? (List.replicate m (.go k)) =
      some (s.move k d.registry ⟨d.place, .away⟩ (p.begun ++ [d.event])) := by
  cases hg : p.guard? with
  | none =>
    have hbegun : p.begun = [] := by rw [UsePlace.begun, UsePlace.wake?_eq_none hg]; rfl
    have hgo : s.go? k = some (s.perform k d) := by
      simp only [go?, hk, hg, hd, Option.map_some]
    refine ⟨1, after?_cons hgo ?_⟩
    rw [hbegun]
    rfl
  | some g =>
    have hcome : s.go? k = some (s.move k s.registry ⟨p, .waiting⟩ p.begun) := by
      simp only [go?, come, hk, hg]
    have hfree : (s.move k s.registry ⟨p, .waiting⟩ p.begun).IsFree g :=
      (h.move _ _ _).isFree (by rw [move_users]; exact Approach.noConfusion) g
    have henter : (s.move k s.registry ⟨p, .waiting⟩ p.begun).go? k =
        some (s.move k s.registry ⟨p, .inside⟩ p.begun) := by
      simp only [go?, enter, move_users, hg, hfree, if_true, move_move, List.append_nil]
      rfl
    have hperform : (s.move k s.registry ⟨p, .inside⟩ p.begun).go? k =
        some (s.move k d.registry ⟨d.place, .away⟩ (p.begun ++ [d.event])) := by
      have hd' : (s.move k s.registry ⟨p, .inside⟩ p.begun).registry.deed? p = some d := hd
      simp only [go?, move_users, hg, hd', Option.map_some, perform, move_move]
    exact ⟨3, after?_cons hcome (after?_cons henter (after?_cons hperform rfl))⟩

theorem signs_notify (r : Registry) (w : WakePointer) :
    (r.notify w).signs = (r.finding w).sign?.toList := by
  cases h : r.callback <;> simp [Registry.notify, Registry.finding, h, UseEvent.sign?]

theorem signs_step (r : Registry) (i : Invocation) :
    (r.step i).signs = (r.eventOf i.running).sign?.toList := by
  obtain ⟨running, waiting⟩ := i
  cases running with
  | finish => cases waiting <;> rfl
  | note | delivered | install => rfl
  | notify w next =>
    cases h : r.callback <;>
      simp [Registry.step, Registry.eventOf, Registry.finding, h, UseEvent.sign?]

theorem sign?_begun (p : UsePlace) : p.begun.filterMap UseEvent.sign? = [] := by
  unfold UsePlace.begun
  cases p.wake? <;> rfl

/-- It comes as far with its notification as `Turn.run` does, and shows the same signs. -/
theorem IsAlone.exists_come {l : List Sign} {p : Progress} {u : Turn} (h : s.IsAlone k)
    (htu : Turn.Comes ⟨s.registry, l, p⟩ u) (hk : s.users k = ⟨.ofProgress p, .away⟩) :
    ∃ m es, s.after? (List.replicate m (.go k)) =
        some (s.move k u.registry ⟨.ofProgress u.progress, .away⟩ es) ∧
      u.signs = l ++ es.filterMap UseEvent.sign? := by
  obtain ⟨fuel, rfl⟩ := htu
  induction fuel generalizing s l p with
  | zero =>
    refine ⟨0, [], ?_, (List.append_nil _).symm⟩
    show some s = some (s.move k s.registry ⟨.ofProgress p, .away⟩ [])
    rw [← hk, move_self]
  | succ fuel ih =>
    cases p with
    | done b =>
      refine ⟨0, [], ?_, (List.append_nil _).symm⟩
      show some s = some (s.move k s.registry ⟨.ofProgress (.done b), .away⟩ [])
      rw [← hk, move_self]
    | running i =>
      let turn := s.registry.step i
      let es := (UsePlace.within i).begun ++ [s.registry.eventOf i.running]
      have hsigns : es.filterMap UseEvent.sign? = turn.signs := by
        rw [List.filterMap_append, sign?_begun, signs_step]
        rfl
      obtain ⟨m, hm⟩ := h.exists_performed hk rfl
      obtain ⟨m', es', hm', hsigns'⟩ := ih
        (s := s.move k turn.registry ⟨.ofProgress turn.progress, .away⟩ es)
        (l := l ++ turn.signs) (p := turn.progress) (h.move _ _ _) (move_users _ _ _ _ _)
      rw [move_move] at hm'
      refine ⟨m + m', es ++ es', ?_, ?_⟩
      · rw [List.replicate_add, after?_append, hm]
        exact hm'
      · rw [List.filterMap_append, hsigns, ← List.append_assoc]
        exact hsigns'

/-- A notification that a thread issues with nobody at the slot ends as it does by itself. -/
theorem IsAlone.exists_notified {w : WakePointer} {u : Turn} (h : s.IsAlone k)
    (hk : s.users k = ⟨.idle, .away⟩) (hu : (s.registry.notify w).Comes u) :
    ∃ m es, s.after? (.call k (.notify w) :: List.replicate m (.go k)) =
        some (s.move k u.registry ⟨.ofProgress u.progress, .away⟩ es) ∧
      u.signs = es.filterMap UseEvent.sign? := by
  let turn := s.registry.notify w
  let es := (UsePlace.calling (.notify w)).begun ++ [s.registry.finding w]
  have hsigns : es.filterMap UseEvent.sign? = turn.signs := by
    rw [List.filterMap_append, sign?_begun, signs_notify]
    rfl
  have hcall : s.step? (.call k (.notify w)) =
      some (s.move k s.registry ⟨.calling (.notify w), .away⟩ []) := by
    simp only [step?, hk]
  obtain ⟨m, hm⟩ := (h.move s.registry ⟨.calling (.notify w), .away⟩ []).exists_performed
    (move_users _ _ _ _ _) rfl
  rw [move_move] at hm
  obtain ⟨m', es', hm', hsigns'⟩ := IsAlone.exists_come
    (s := s.move k turn.registry ⟨.ofProgress turn.progress, .away⟩ es) (l := turn.signs)
    (p := turn.progress) (h.move _ _ _) hu (move_users _ _ _ _ _)
  rw [move_move] at hm'
  refine ⟨m + m', es ++ es', after?_cons hcall ?_, ?_⟩
  · rw [List.replicate_add, after?_append, hm]
    exact hm'
  · rw [List.filterMap_append, hsigns]
    exact hsigns'

end Usage

end TaskRelay
