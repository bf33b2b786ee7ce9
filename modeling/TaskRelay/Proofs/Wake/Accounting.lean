import Mathlib
import TaskRelay.Proofs.Wake.Admission

/-!
# The accounts of a registry

What a registry that any number of threads use, and whose callbacks do as they like, owes to those
who use it: every notification calls the callback that it found, once and with its address, or is
missed, and the counters tell at every moment how many calls have come back, how many were missed
and so how many are still under way. Main statement: `accounted`.
-/

namespace TaskRelay

namespace Usage

variable {n : Nat} {s s' : Usage n} {k : Fin n}

def calls (log : List (Fin n × UseEvent)) : Nat := log.countP fun x => x.2.isCalled

def begins (log : List (Fin n × UseEvent)) : Nat := log.countP fun x => x.2.isBegun

/-! ## Sums over the threads -/

theorem Consistent.calls_eq (h : s.Consistent) :
    calls s.log = s.registry.delivered + ∑ j, (s.users j).place.depth := by
  rw [calls, h.delivered, returns, ← sum_countP_eventsOf, ← sum_countP_eventsOf,
    ← Finset.sum_add_distrib]
  exact Finset.sum_congr rfl fun j _ => (h.did j).calls

theorem Consistent.begins_eq (h : s.Consistent) :
    begins s.log = s.registry.delivered + s.registry.missed + ∑ j, (s.users j).inProgress := by
  rw [begins, h.delivered, h.missed, returns, ← sum_countP_eventsOf, ← sum_countP_eventsOf,
    ← sum_countP_eventsOf, ← Finset.sum_add_distrib, ← Finset.sum_add_distrib]
  exact Finset.sum_congr rfl fun j _ => (h.did j).begins

/-! ## The accounts -/

structure Accounted (s : Usage n) : Prop where
  /-- Each callback called was in the slot at that moment, each notification missed found the slot
  empty, and each look at the count gave the number of calls that had returned. -/
  truthful : Truthful s.log
  /-- What each thread has done is the part of its call tree up to where it is: a notification that
  found a callback goes through it once, with its address, and returns before its caller goes on. -/
  nested : ∀ k, (s.users k).Did (eventsOf k s.log)
  delivered : s.registry.delivered = returns s.log
  missed : s.registry.missed = s.log.countP fun x => x.2.isMissed
  balanced :
    s.registry.delivered + s.registry.missed + ∑ j, (s.users j).inProgress = begins s.log
  /-- Who looks at the count from within a callback sees all calls but those still running, which
  are its own, those it is within, and those of other threads. -/
  looks : ∀ k next rest a s', s.users k = ⟨.within ⟨.delivered next, rest⟩, a⟩ →
    s.go? k = some s' → s'.log = s.log ++ [(k, .saw s.registry.delivered)] ∧
      s.registry.delivered + ∑ j, (s.users j).place.depth = calls s.log ∧
      rest.length + 1 ≤ ∑ j, (s.users j).place.depth
  /-- A thread at the slot is not within the code of a callback, and its next step takes it out. -/
  leaves : ∀ k, (s.users k).approach = .inside → ((s.users k).place.guard?).isSome ∧
    ∃ s', s.go? k = some s' ∧ (s'.users k).approach = .away
  /-- No thread with anything to do is kept from it but by another thread at the slot. -/
  goesOn : ∀ k, (s.users k).place ≠ .idle → s.go? k = none →
    ∃ j, j ≠ k ∧ (s.users j).approach = .inside
  /-- One that waits is admitted once those at the slot have taken a step each. -/
  admitted : ∀ k, (s.users k).approach = .waiting →
    ∃ js : List (Fin n), js.Nodup ∧ (∀ j ∈ js, j ≠ k ∧ (s.users j).approach = .inside) ∧
      ∃ s', s.after? (js.map .go) = some s' ∧ s'.users k = s.users k ∧
        s'.go? k = some (s'.enter k)
  /-- A notification of the halving observer that nobody disturbs ends. It has called the observer
  with the address and all its halves down to one, in this order, each call seeing the same count,
  and has delivered them all. -/
  halved : ∀ k w, s.users k = ⟨.idle, .away⟩ → s.IsAlone k →
    s.registry.callback = some Observer.halving.callback →
    ∃ m es, ∃ ws : List WakePointer, ws.map (fun v => v.address.toNat) = halves w.address.toNat ∧
      s.after? (.call k (.notify w) :: List.replicate m (.go k)) =
        some (s.move k { s.registry with delivered := s.registry.delivered + ws.length }
          ⟨.idle, .away⟩ es) ∧
      es.filterMap UseEvent.sign? =
        ws.flatMap (halvingSigns s.registry.delivered) ++ List.replicate ws.length .returned

/-- At every moment of every use of a new registry its accounts are in order. -/
theorem accounted {as : List (Act n)} (h : (start n).after? as = some s) : s.Accounted where
  truthful := (consistent h).truthful
  nested := (consistent h).did
  delivered := (consistent h).delivered
  missed := (consistent h).missed
  balanced := (consistent h).begins_eq.symm
  looks k next rest a s' hk hgo := by
    refine ⟨?_, (consistent h).calls_eq.symm, ?_⟩
    · have hdoes : s.go? k = some (s.perform k
          ⟨s.registry, .saw s.registry.delivered, .within ⟨next s.registry.delivered, rest⟩⟩) := by
        simp only [go?, hk]
        rfl
      obtain rfl := Option.some.inj (hgo.symm.trans hdoes)
      rfl
    · have hdepth : (s.users k).place.depth = rest.length + 1 := by rw [hk]; rfl
      rw [← hdepth]
      exact Finset.single_le_sum (f := fun j => (s.users j).place.depth)
        (fun _ _ => Nat.zero_le _) (Finset.mem_univ k)
  leaves k hk := by
    obtain ⟨d, _, hgo⟩ := (consistent h).leaves hk
    refine ⟨(consistent h).atSlot k (by rw [hk]; decide), _, hgo, ?_⟩
    rw [Usage.perform, move_users]
  goesOn k hbusy hgo := (exists_inside hbusy hgo).2
  admitted k hk := (consistent h).exists_admitted hk
  halved k w hk halone hc := by
    obtain ⟨ws, hws, hcomes⟩ := halving_notify hc w
    obtain ⟨m, es, hm, hsigns⟩ := halone.exists_notified hk hcomes
    exact ⟨m, es, ws, hws, hm, hsigns.symm⟩

/-- A notification before there is a callback, and one whose callback gives its place to another
while a second thread already waits at the slot to notify. -/
def handedOver : List (Act 2) := List.flatten [
  [.call 0 (.notify ⟨1, by decide⟩)], List.replicate 3 (.go 0),
  [.call 0 (.install Observer.successor.callback)], List.replicate 3 (.go 0),
  [.call 0 (.notify ⟨5, by decide⟩)], List.replicate 6 (.go 0),
  [.call 1 (.notify ⟨2, by decide⟩), .go 1, .go 0, .go 0, .go 1, .go 1, .go 0, .go 1]]

theorem accounted_handedOver : ∃ s, (start 2).after? handedOver = some s ∧ s.Accounted ∧
    (s.registry.delivered, s.registry.missed, calls s.log, begins s.log) = (1, 1, 2, 3) := by
  have h : ((start 2).after? handedOver).map
      (fun s => (s.registry.delivered, s.registry.missed, calls s.log, begins s.log)) =
        some (1, 1, 2, 3) := by decide +kernel
  obtain ⟨s, hs, hcounts⟩ := Option.map_eq_some_iff.mp h
  exact ⟨s, hs, accounted hs, hcounts⟩

end Usage

end TaskRelay
