import Mathlib
import TaskRelay.Proofs.Relay.Replies

/-!
# The dispatch is closed once

Whether the dispatch is open only changes when a thread inside `shutdown` closes it or when the
relay is given up (`Move.gate`), and it never opens again. So the history of a relay has two parts:
before the closing no submission is told that the dispatch is closed, and after it none takes the
lock (`State.Reachable.exists_parted`).
-/

namespace TaskRelay

variable {s t : State} {a : Action} {x : Call}

/-! ## What opens and closes -/

/-- Nothing was done about `shutdown` or about giving up the relay. -/
structure SameGate (s t : State) : Prop where
  isOpen : t.dispatch.isOpen = s.dispatch.isOpen
  closers : t.closers = s.closers
  dropped : t.dropped = s.dropped

inductive GateMove (s : State) : Action → State → Prop
  | enter (n : Nat) : s.dropped = false →
      GateMove s (.shutdown n) { s with closers := s.closers ++ [⟨n, false⟩] }
  | leave (n : Nat) : GateMove s (.close n)
      { s with closers := s.closers.filter fun y => y.thread != n }
  | close (n : Nat) (closers : List Closer) : s.dispatch.holder = none → s.dispatch.isOpen →
      GateMove s (.close n) ({ s with
        dispatch := { s.dispatch with isOpen := false }, closers := closers }.note .closed)
  | drop : s.isUnused → GateMove s .drop { s with
      dropped := true, pools := s.pools.release, dispatch := { s.dispatch with isOpen := false } }

theorem SameGate.answer {c : Caller} (r : Except RelayError Ticket) (h : SameGate s t) :
    SameGate s (t.answer c r) where
  isOpen := by rw [State.answer_dispatch, h.isOpen]
  closers := by rw [State.answer_closers, h.closers]
  dropped := by rw [State.answer_dropped, h.dropped]

theorem CallMove.sameGate (m : CallMove s x t) : SameGate s t := by
  cases m with
  | refuse => exact SameGate.answer _ ⟨rfl, rfl, rfl⟩
  | launch => exact SameGate.answer _ ⟨rfl, rfl, rfl⟩
  | abandon | unlock => exact SameGate.answer (t := s.setHolder none) _ ⟨rfl, rfl, rfl⟩
  | _ => exact ⟨rfl, rfl, rfl⟩

theorem WorkerMove.sameGate (m : WorkerMove s t) : SameGate s t := by
  cases m <;> exact ⟨rfl, rfl, rfl⟩

theorem TaskMove.sameGate {u : Task} (m : TaskMove s u a t) : SameGate s t := by
  refine ⟨by rw [m.sameFront.dispatch], ?_, ?_⟩ <;> cases m with
  | notify | react => simp only [State.afterTurn, State.noteSigns_eq, State.setStage, State.note]
  | _ => rfl

theorem Move.gate (m : Move s a t) : SameGate s t ∨ GateMove s a t := by
  cases m with
  | outside m =>
    have hd := m.sameFront.dispatch
    cases m with
    | shutdown n hn => exact .inr (.enter n hn)
    | leave n => exact .inr (.leave n)
    | notify | react =>
      refine .inl ⟨by rw [hd], ?_, ?_⟩ <;>
        simp only [State.afterTurn, State.noteSigns_eq, State.note]
    | _ => exact .inl ⟨rfl, rfl, rfl⟩
  | call _ m => exact .inl m.sameGate
  | worker m => exact .inl m.sameGate
  | close hh ho => exact .inr (.close _ _ hh ho)
  | drop hu => exact .inr (.drop hu)
  | task _ m => exact .inl m.sameGate
  | ask | askInside => exact .inl ⟨rfl, rfl, rfl⟩

/-- What is closed stays closed. -/
theorem Move.isOpen_eq_false (m : Move s a t) (h : s.dispatch.isOpen = false) :
    t.dispatch.isOpen = false := by
  rcases m.gate with hs | hg
  · rw [hs.isOpen, h]
  · cases hg with
    | enter | leave => exact h
    | close | drop => rfl

theorem Leads.isOpen_eq_false (hl : Leads s t) (h : s.dispatch.isOpen = false) :
    t.dispatch.isOpen = false := by
  induction hl with
  | here => exact h
  | step _ hs ih => exact (move_of_step? hs).isOpen_eq_false ih

namespace State.Reachable

/-- A thread joins the worker only once the dispatch is closed. -/
theorem isOpen_of_joining (h : s.Reachable) :
    ∀ x ∈ s.closers, x.joining → s.dispatch.isOpen = false := by
  refine State.Reachable.induct
    (P := fun s => ∀ x ∈ s.closers, x.joining → s.dispatch.isOpen = false)
    (fun pools color => by simp [State.start]) (fun s a t _ ih m => ?_) h
  intro x hx hj
  rcases m.gate with hs | hg
  · rw [hs.isOpen]
    exact ih x (hs.closers ▸ hx) hj
  · cases hg with
    | enter n =>
      rcases List.mem_append.mp hx with hx | hx
      · exact ih x hx hj
      · obtain rfl := List.mem_singleton.mp hx
        cases hj
    | leave n => exact ih x (List.mem_of_mem_filter hx) hj
    | close | drop => rfl

end State.Reachable

/-- Nobody is inside a relay that was given up. -/
structure Abandoned (s : State) : Prop where
  isOpen : s.dispatch.isOpen = false
  calls : s.calls = []
  closers : s.closers = []

theorem State.Reachable.abandoned (h : s.Reachable) (hd : s.dropped) : Abandoned s := by
  revert hd
  refine State.Reachable.induct (P := fun s => s.dropped → Abandoned s)
    (fun pools color hd => by cases hd) (fun s a t _ ih m hd => ?_) h
  have hcalls : s.dropped → t.calls = [] := by
    intro hs
    have hc := (ih hs).calls
    cases m with
    | outside m => exact m.sameFront.calls.trans hc
    | ask hn | askInside _ _ hn =>
      rw [hs] at hn
      cases hn
    | call hx =>
      have := (call?_spec hx).1
      rw [hc] at this
      cases this
    | worker m => exact (m.front_eq (.thread 0)).2.trans hc
    | close | drop => exact hc
    | task _ m => exact m.sameFront.calls.trans hc
  rcases m.gate with hs | hg
  · have ha := ih (hs.dropped ▸ hd)
    exact ⟨hs.isOpen.trans ha.isOpen, hcalls (hs.dropped ▸ hd), hs.closers.trans ha.closers⟩
  · cases hg with
    | enter n hn =>
      rw [hn] at hd
      cases hd
    | leave n =>
      have ha := ih hd
      refine ⟨ha.isOpen, ha.calls, ?_⟩
      rw [ha.closers]
      rfl
    | close n closers _ ho =>
      rw [(ih hd).isOpen] at ho
      cases ho
    | drop hu =>
      simp only [State.isUnused, Bool.and_eq_true, List.isEmpty_iff] at hu
      exact ⟨rfl, hu.1.1, hu.1.2⟩

/-! ## Before and after -/

/-- What had to hold when a mark was made, as far as the closing is concerned. -/
def Mark.Fits (s t : State) : Mark → Prop
  | .locked _ => s.dispatch.isOpen
  | .closed => s.dispatch.isOpen ∧ t.dispatch.isOpen = false
  | .answered _ (.error .dispatchClosed) => s.dispatch.isOpen = false ∧ s.calls ≠ []
  | _ => True

theorem Mark.fits_of_not_isFront {m : Mark} (h : m.isFront = false) : m.Fits s t := by
  cases m <;> trivial

theorem SameFront.exists_fitting (h : SameFront s t) {ms : List Mark}
    (hj : t.journal = ms ++ s.journal) : ∀ m ∈ ms, m.Fits s t := by
  have hm := h.marks
  rw [hj, List.filter_append] at hm
  have hn := List.filter_eq_nil_iff.mp
    (List.append_cancel_right (hm.trans (List.nil_append _).symm))
  exact fun m hi => Mark.fits_of_not_isFront (by simpa using hn m hi)

theorem CallMove.exists_fitting (hh : Handover s) (hx : x ∈ s.calls) (m : CallMove s x t) :
    ∃ ms, t.journal = ms ++ s.journal ∧ ∀ m ∈ ms, m.Fits s t := by
  have hne : s.calls ≠ [] := List.ne_nil_of_mem hx
  cases m with
  | refuse hr =>
    refine ⟨[_], State.answer_journal _ _ _, ?_⟩
    cases hr with
    | noPool => cases x.entry <;> simp [Mark.Fits, Entry.missingPool]
    | noCallback => simp [Mark.Fits]
    | closed _ _ _ ho => simp [Mark.Fits, ho, hne]
  | allow | number | count => exact ⟨[], rfl, by simp⟩
  | lock _ _ _ ho => exact ⟨[_], rfl, by simp [Mark.Fits, ho]⟩
  | launch => exact ⟨[_, _], State.answer_journal _ _ _, by simp [Mark.Fits]⟩
  | abandon hw hs => exact absurd hw (hh.worker_ne_gone hx hs)
  | send | receive => exact ⟨[_], rfl, by simp [Mark.Fits]⟩
  | unlock => exact ⟨[_], State.answer_journal _ _ _, by simp [Mark.Fits]⟩

theorem Move.exists_fitting (hh : Handover s) (m : Move s a t) :
    ∃ ms, t.journal = ms ++ s.journal ∧ ∀ m ∈ ms, m.Fits s t := by
  have ht := m.tallied
  cases m with
  | outside m =>
    obtain ⟨ms, hm⟩ := ht
    exact ⟨ms, hm.journal, m.sameFront.exists_fitting hm.journal⟩
  | task _ m =>
    obtain ⟨ms, hm⟩ := ht
    exact ⟨ms, hm.journal, m.sameFront.exists_fitting hm.journal⟩
  | ask | askInside => exact ⟨[_], rfl, by simp [Mark.Fits]⟩
  | call hx m => exact m.exists_fitting hh (call?_spec hx).1
  | worker m =>
    cases m with
    | launch | publish => exact ⟨[_], rfl, by simp [Mark.Fits]⟩
    | _ => exact ⟨[], rfl, by simp⟩
  | close _ ho => exact ⟨[_], rfl, by simp [Mark.Fits, State.note, ho]⟩
  | drop => exact ⟨[], rfl, by simp⟩

/-- The history with a cut at the moment of the closing, if there was one. -/
structure Parted (s : State) (before after : List Mark) : Prop where
  history : s.history = before ++ after
  unclosed : .closed ∉ before
  /-- Before the cut no submission is told that the dispatch is closed. -/
  before : ∀ c, .answered c (.error .dispatchClosed) ∉ before
  /-- After the cut no submission takes the lock. -/
  after : after = [] ∧ (s.dispatch.isOpen ∨ s.dropped) ∨
    ∃ rest, after = .closed :: rest ∧ s.dispatch.isOpen = false ∧ .closed ∉ rest ∧
      ∀ c, .locked c ∉ rest

namespace Parted

variable {before after : List Mark}

/-- Nothing was noted, and the gate is as it was or the relay was given up. -/
theorem of_quiet (h : Parted s before after) (hj : t.journal = s.journal)
    (hd : s.dispatch.isOpen ∨ s.dropped → t.dispatch.isOpen ∨ t.dropped)
    (ho : s.dispatch.isOpen = false → t.dispatch.isOpen = false) : Parted t before after where
  history := (congrArg List.reverse hj).trans h.history
  unclosed := h.unclosed
  before := h.before
  after := by
    rcases h.after with ⟨rfl, hs⟩ | ⟨rest, rfl, hs, hr⟩
    · exact .inl ⟨rfl, hd hs⟩
    · exact .inr ⟨rest, rfl, ho hs, hr⟩

/-- Marks of a step that leaves the gate as it is go to the later part. -/
theorem of_sameGate (h : Parted s before after) (hr : s.Reachable) (hg : SameGate s t)
    {ms : List Mark} (hj : t.journal = ms ++ s.journal) (hm : ∀ m ∈ ms, m.Fits s t) :
    ∃ before after, Parted t before after := by
  have hh : t.history = s.history ++ ms.reverse := by
    rw [State.history, hj, List.reverse_append]
    rfl
  have hc : .closed ∉ ms := by
    intro hi
    obtain ⟨h1, h2⟩ := hm _ hi
    rw [hg.isOpen, h1] at h2
    cases h2
  rcases h.after with ⟨rfl, hs⟩ | ⟨rest, rfl, hs, hrc, hrl⟩
  · refine ⟨before ++ ms.reverse, [], ?_, ?_, fun c hi => ?_, .inl ⟨rfl, ?_⟩⟩
    · rw [hh, h.history, List.append_nil, List.append_nil]
    · simp [h.unclosed, hc]
    · rcases List.mem_append.mp hi with hi | hi
      · exact h.before c hi
      · -- whoever is told so is within an open relay, or inside one that was given up
        obtain ⟨ho, hn⟩ := hm _ (List.mem_reverse.mp hi)
        rcases hs with hs | hs
        · rw [hs] at ho
          cases ho
        · exact hn (hr.abandoned hs).calls
    · rw [hg.isOpen, hg.dropped]
      exact hs
  · refine ⟨before, .closed :: (rest ++ ms.reverse), ?_, h.unclosed, h.before,
      .inr ⟨_, rfl, hg.isOpen.trans hs, ?_, fun c hi => ?_⟩⟩
    · rw [hh, h.history, List.append_assoc]
      rfl
    · simp [hrc, hc]
    · rcases List.mem_append.mp hi with hi | hi
      · exact hrl c hi
      · have ho := hm _ (List.mem_reverse.mp hi)
        rw [Mark.Fits, hs] at ho
        cases ho

end Parted

theorem State.Reachable.exists_parted (h : s.Reachable) :
    ∃ before after, Parted s before after := by
  refine State.Reachable.induct (P := fun s => ∃ before after, Parted s before after)
    (fun pools color => ?_) (fun s a t hr ih m => ?_) h
  · exact ⟨[], [], rfl, by simp, by simp, .inl ⟨rfl, .inl rfl⟩⟩
  · obtain ⟨before, after, hp⟩ := ih
    rcases m.gate with hs | hg
    · obtain ⟨ms, hj, hm⟩ := m.exists_fitting hr.handover
      exact hp.of_sameGate hr hs hj hm
    · cases hg with
      | enter | leave => exact ⟨before, after, hp.of_quiet rfl id id⟩
      | close n closers hh ho =>
        rcases hp.after with ⟨rfl, -⟩ | ⟨rest, -, hs, -⟩
        · refine ⟨before, [.closed], ?_, hp.unclosed, hp.before, .inr ⟨[], rfl, rfl, by simp⟩⟩
          have hh := hp.history
          rw [List.append_nil] at hh
          rw [← hh]
          exact List.reverse_cons
        · rw [hs] at ho
          cases ho
      | drop => exact ⟨before, after, hp.of_quiet rfl (fun _ => .inr rfl) fun _ => rfl⟩

/-- As long as the relay is not given up, the dispatch is closed if and when a thread closed it. -/
theorem State.Reachable.isOpen_eq_false_iff (h : s.Reachable) (hd : s.dropped = false) :
    s.dispatch.isOpen = false ↔ .closed ∈ s.journal := by
  obtain ⟨before, after, hp⟩ := h.exists_parted
  have hm : .closed ∈ s.journal ↔ .closed ∈ s.history := List.mem_reverse.symm
  rw [hm, hp.history]
  rcases hp.after with ⟨rfl, hs⟩ | ⟨rest, rfl, hs, -⟩
  · rw [List.append_nil]
    have ho := hs.resolve_right (by simp [hd])
    simp [ho, hp.unclosed]
  · simp [hs]

end TaskRelay
