import Mathlib
import TaskRelay.Proofs.Relay.Abridged
import TaskRelay.Proofs.Relay.Spending
import TaskRelay.Proofs.Relay.Work

/-!
# Shutting down is one clean cut

However many threads shut the dispatch down, one of them closes it, at one moment between two
handovers. Submissions that take the lock before are accepted, and those that come to it after are
refused and leave nothing behind. Everything else goes on as if nobody had shut anything down.
Main statement: `cleanCut`.
-/

namespace TaskRelay

variable {s t first : State} {a : Action} {c : Caller} {x : Call} {settings : Settings}
variable {site : Site} {hosted : Bool} {as bs : List Action} {r : Except RelayError Ticket}

/-! ## Before and after -/

/-- Whoever has the lock is accepted. -/
theorem State.Settles.of_inside (h : s.Reachable) (hx : x ∈ s.calls) (hi : x.stage.isInside)
    (hs : s.Settles x.caller bs r t) : ∃ k, r = .ok k := by
  have hd : x.isDecided := by
    rw [Call.isDecided]
    cases hxs : x.stage <;> rw [hxs] at hi <;> first | rfl | cases hi
  have hn := refused?_of_isDecided h hx hd hs.after?
  obtain ⟨v, hv, hq, hstep, hr⟩ := hs
  rw [refused?_of_answered hr .here] at hn
  cases r with
  | ok k => exact ⟨k, rfl⟩
  | error e => cases hn

theorem Leads.admits (hl : Leads s t) (h : s.Admits x) : t.Admits x := by
  induction hl with
  | here => exact h
  | step _ hs ih => exact (move_of_step? hs).admits ih

/-- Whoever comes to the lock after the closing is told that the dispatch is closed. -/
theorem State.Settles.of_closed (h : s.Reachable) (hx : x ∈ s.calls) (he : x.entry = .serial)
    (hb : x.stage = .admitted) (ho : s.dispatch.isOpen = false)
    (hs : s.Settles x.caller bs r t) : r = .error .dispatchClosed := by
  have hd : x.isDecided = false := by simp [Call.isDecided, hb, he]
  obtain ⟨cs, ds, w, rfl, hw, hr⟩ := hs.exists_decides h hx hd
  have hl := leads_of_after? hw
  rw [refusal?_of_admits (hl.admits (h.admitted x hx (by rw [hb]; simp))),
    if_pos ⟨he, hl.isOpen_eq_false ho⟩] at hr
  cases r with
  | ok k => cases hr
  | error e => rw [Option.some.inj hr]

/-- Only a submission through the dispatch is told that it is closed. -/
theorem State.Settles.serial (h : s.Reachable) (hx : x ∈ s.calls) (hd : x.isDecided = false)
    (hs : s.Settles x.caller bs (.error .dispatchClosed) t) : x.entry = .serial := by
  obtain ⟨cs, ds, w, -, -, hr⟩ := hs.exists_decides h hx hd
  rw [State.refusal?, refusalIn] at hr
  split_ifs at hr with h1 h2 h3
  · cases he : x.entry <;> rw [he] at hr <;> cases hr
  · cases hr
  · exact h3.1

/-! ## Threads inside `shutdown` -/

/-- A thread that enters `shutdown`, or goes on in it, closes the dispatch between two handovers, or
does nothing to anybody but itself. -/
theorem closer_step (ha : (∃ n, a = .shutdown n) ∨ ∃ n, a = .close n) (hs : s.step? a = some t) :
    t = { s with closers := t.closers } ∨
      s.dispatch.isOpen ∧ s.dispatch.holder = none ∧ t = { s with
        dispatch := { s.dispatch with isOpen := false }
        closers := t.closers
        journal := .closed :: s.journal } := by
  rcases ha with ⟨n, rfl⟩ | ⟨n, rfl⟩
  · cases move_of_step? hs with
    | outside m => cases m; exact .inl rfl
    | task _ m => cases m
  · cases move_of_step? hs with
    | outside m => cases m; exact .inl rfl
    | close hh ho => exact .inr ⟨ho, hh, rfl⟩
    | task _ m => cases m

/-- To shut down what is closed changes nothing. -/
theorem shutdown_again (h : s.Reachable) (ho : s.dispatch.isOpen = false) (hd : s.dropped = false)
    {n : Nat} (hn : ∀ y ∈ s.closers, y.thread ≠ n) :
    s.after? [.shutdown n, .close n] = some s := by
  have hv := h.vacant ho
  have hany : (s.closers.any fun y => y.thread == n) = false := by
    simpa [List.any_eq_false] using hn
  have hself : ∀ y ∈ s.closers, (y.thread != n) = true := fun y hy => by simpa using hn y hy
  -- the thread is the last of those inside, and none of the others
  have henter : s.step? (.shutdown n) =
      some { s with closers := s.closers ++ [Closer.mk n false] } := by
    rw [State.step?, hd, hany]
    rfl
  have hfind : (s.closers ++ [Closer.mk n false]).find? (fun y => y.thread == n) =
      some ⟨n, false⟩ := by
    rw [List.find?_append, List.find?_eq_none.mpr fun y hy => by simpa using hn y hy]
    simp
  have hfilter : ((s.closers ++ [Closer.mk n false]).filter fun y => y.thread != n) =
      s.closers := by
    rw [List.filter_append, List.filter_eq_self.mpr hself]
    simp
  have hleave : { s with closers := s.closers ++ [Closer.mk n false] }.step? (.close n) =
      some s := by
    rw [State.step?, hfind]
    show State.stepCloser? { s with closers := s.closers ++ [Closer.mk n false] } ⟨n, false⟩ = _
    rw [State.stepCloser?]
    simp only [hfilter, hv.holder, ho]
    rfl
  rw [State.after?, henter]
  show ({ s with closers := s.closers ++ [Closer.mk n false] }.step? (.close n)).bind _ = _
  rw [hleave]
  rfl

/-! ## The whole -/

/-- Leaves out the closing, and the submissions that the closed dispatch refused. -/
def Edit.unclosing : Edit where
  gone := fun _ _ e => e = .dispatchClosed
  unclosed := true
  closing := by simp

/-- What holds after this run of a relay as far as shutting down is concerned. -/
structure CleanCut (first : State) (as : List Action) (s : State) : Prop where
  /-- There is one moment of the closing, or none. -/
  parted : ∃ before after, Parted s before after
  /-- Whoever has the lock has it before the closing, can be answered whatever tasks and threads
  outside do, and is only answered with its task. -/
  inside : ∀ x ∈ s.calls, x.stage.isInside → s.dispatch.isOpen ∧
    (∃ bs r t, (∀ b ∈ bs, b.isOfFront) ∧ s.Settles x.caller bs r t) ∧
    ∀ bs r t, s.Settles x.caller bs r t → ∃ k, r = .ok k ∧
      ∃ u ∈ t.tasks, u.id = k.id ∧ u.caller = x.caller ∧ u.envelope = x.envelope
  /-- Whoever comes to the lock after the closing is refused for it. -/
  outside : s.dispatch.isOpen = false → ∀ x ∈ s.calls, x.entry = .serial → x.stage = .admitted →
    ∀ bs r t, s.Settles x.caller bs r t → r = .error .dispatchClosed
  /-- Nobody else is. -/
  serial : ∀ x ∈ s.calls, x.stage = .asked → ∀ bs t,
    s.Settles x.caller bs (.error .dispatchClosed) t → x.entry = .serial
  /-- Whoever was accepted took all its steps through the dispatch, its launch among them, and
  whoever was refused took none. -/
  served : ∀ z ∈ s.submissions, z.entry = .serial → match z.answer with
    | .ok k => z.steps = serialSteps z.caller z.envelope k.id
    | .error _ => z.steps = []
  /-- While no submission is under way, the tasks are those of the accepted submissions. -/
  balanced : s.calls = [] → s.acceptedIds.Perm (s.tasks.map Task.id)
  /-- A refused submission uses up nothing. -/
  spent : ∀ x ∈ s.calls, x.stage = .asked → ∀ bs e t, s.Settles x.caller bs (.error e) t →
    s.spent x.caller (bs ++ [.call x.caller]) = 0
  /-- A thread inside `shutdown` closes the dispatch between two handovers, or does nothing to
  anybody but itself. -/
  closers : ∀ a t, (∃ n, a = .shutdown n) ∨ (∃ n, a = .close n) → s.step? a = some t →
    t = { s with closers := t.closers } ∨
      s.dispatch.isOpen ∧ s.dispatch.holder = none ∧ t = { s with
        dispatch := { s.dispatch with isOpen := false }
        closers := t.closers
        journal := .closed :: s.journal }
  /-- What is closed stays closed. -/
  lasting : s.dispatch.isOpen = false → ∀ t, Leads s t → t.dispatch.isOpen = false
  /-- To shut down what is closed changes nothing. -/
  again : s.dispatch.isOpen = false → s.dropped = false → ∀ n, (∀ y ∈ s.closers, y.thread ≠ n) →
    s.after? [.shutdown n, .close n] = some s
  /-- All other steps of the run can be taken as if nobody had shut anything down, and show what
  they showed. -/
  uncut : ∃ past, first.play? (Edit.unclosing.abridge s first as).1 =
    some ((Edit.unclosing.abridge s first as).2, { s with
      dispatch := s.dispatch.reopen s.dropped
      closers := []
      journal := past })

theorem cleanCut (hf : State.startWith site hosted settings = .running first)
    (hs : first.after? as = some s) : CleanCut first as s := by
  have hfirst : first.Reachable := ⟨site, hosted, settings, first, hf, .here⟩
  have h := hfirst.after hs
  refine ⟨h.exists_parted, fun x hx hi => ⟨?_, h.exists_settles hx, fun bs r t hset => ?_⟩,
    fun ho x hx he hb bs r t hset => hset.of_closed h hx he hb ho,
    fun x hx hb bs t hset => hset.serial h hx (by rw [Call.isDecided, hb]), fun z hz he => ?_,
    h.acceptedIds_perm, fun x hx hb bs e t hset => spent_of_settles h hx hb hset,
    fun a t ha ht => closer_step ha ht, fun ho t hl => hl.isOpen_eq_false ho,
    fun ho hd n hn => shutdown_again h ho hd hn, ?_⟩
  · obtain ⟨p, hp⟩ := h.handover.occupied hx hi
    exact hp.isOpen
  · obtain ⟨k, rfl⟩ := hset.of_inside h hx hi
    exact ⟨k, rfl, hset.exists_task h hx⟩
  · have hz := h.answers.served z (List.mem_reverse.mp hz)
    rw [Submission.IsServed] at hz
    cases hk : z.answer with
    | ok k =>
      rw [hk] at hz
      rw [hz.2, Submission.allSteps, if_pos he]
    | error e =>
      rw [hk] at hz
      exact hz
  · obtain ⟨past, hp⟩ := Edit.unclosing.play?_abridge hfirst hs first.journal
    refine ⟨past, ?_⟩
    obtain rfl := eq_start_of_startWith hf
    rw [abridged_of_none (fun _ => omits?_eq_none_of_calls rfl),
      abridged_of_none (fun _ => omits?_self)] at hp
    exact hp

/-- A thread waits for its handle when two others come to shut down, of which one has to wait for
the lock and closes the dispatch; a fourth thread that was admitted comes too late, and so does a
task. -/
def lateComers : List Action := List.flatten [
  [.submit 0 .direct (.submitting .serial (.comingTo (.value .null) none))],
  List.replicate 4 (.call (.thread 0)), [.submit 1 .serial (.comingTo (.value .null) none)],
  List.replicate 3 (.call (.thread 1)), [.shutdown 2, .shutdown 3,
    .submit 4 .serial (.comingTo (.value .null) none), .call (.thread 4)],
  List.replicate 5 .worker, List.replicate 2 (.call (.thread 1)),
  [.close 2, .close 3, .call (.thread 4)], List.replicate 2 (.task 0),
  List.replicate 2 (.call (.task 0)), [.worker, .close 2,
    .submit 4 .direct (.comingTo (.value .null) none)], List.replicate 4 (.call (.thread 4)),
  [.submit 1 .serial (.comingTo (.value .null) none), .call (.thread 1)]]

theorem cleanCut_lateComers : ∃ s, State.plain.after? lateComers = some s ∧
    s.submissions.map (fun z => refusalIn z.answer) =
      [none, none, some .dispatchClosed, some .dispatchClosed, none] ∧
    s.dispatch.isOpen = false ∧ s.closers = [] ∧ s.nextId = 3 ∧
      CleanCut .plain lateComers s := by
  obtain ⟨s, hs, -, h1, h2, h3, h4⟩ := exists_run (P := fun s =>
    s.submissions.map (fun z => refusalIn z.answer) =
      [none, none, some .dispatchClosed, some .dispatchClosed, none] ∧
    s.dispatch.isOpen = false ∧ s.closers = [] ∧ s.nextId = 3) lateComers (by decide +kernel)
  have hfirst : State.startWith .generous false (.default .one) = .running .plain := rfl
  exact ⟨s, hs, h1, h2, h3, h4, cleanCut hfirst hs⟩

end TaskRelay
