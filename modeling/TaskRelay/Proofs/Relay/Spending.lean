import Mathlib
import TaskRelay.Proofs.Relay.Replies

/-!
# What a submission costs

Ids, counts of submissions and tasks are only ever used up in steps of a submission or in steps that
the worker takes for the one that holds the lock. Added up over those steps, an accepted submission
costs one id, one count on its own way and one task, and a refused one costs nothing.
Main statement: `spent_of_settles`.
-/

namespace TaskRelay

variable {s t : State} {x : Call} {a : Action}

/-! ## Bills -/

/-- How many ids were drawn, submissions counted on either way, and tasks made. -/
@[ext] structure Bill where
  ids : Nat
  direct : Nat
  dispatched : Nat
  tasks : Nat
deriving DecidableEq

namespace Bill

instance : Zero Bill := ⟨⟨0, 0, 0, 0⟩⟩

instance : Add Bill :=
  ⟨fun b c => ⟨b.ids + c.ids, b.direct + c.direct, b.dispatched + c.dispatched, b.tasks + c.tasks⟩⟩

instance : Sub Bill :=
  ⟨fun b c => ⟨b.ids - c.ids, b.direct - c.direct, b.dispatched - c.dispatched, b.tasks - c.tasks⟩⟩

@[simp] theorem zero_def : (0 : Bill) = ⟨0, 0, 0, 0⟩ := rfl

@[simp] theorem add_def (b c : Bill) :
    b + c = ⟨b.ids + c.ids, b.direct + c.direct, b.dispatched + c.dispatched, b.tasks + c.tasks⟩ :=
  rfl

@[simp] theorem sub_def (b c : Bill) :
    b - c = ⟨b.ids - c.ids, b.direct - c.direct, b.dispatched - c.dispatched, b.tasks - c.tasks⟩ :=
  rfl

theorem add_assoc (b c d : Bill) : b + c + d = b + (c + d) := by
  ext <;> simp [Nat.add_assoc]

theorem add_zero (b : Bill) : b + 0 = b := rfl

theorem zero_add (b : Bill) : 0 + b = b := by
  ext <;> simp

theorem add_sub_self (b d : Bill) : b + d - b = d := by
  ext <;> simp

/-- What an accepted submission costs, and what a refused one does. -/
def due (entry : Entry) : Except RelayError Ticket → Bill
  | .ok _ => if entry = .serial then ⟨1, 0, 1, 1⟩ else ⟨1, 1, 0, 1⟩
  | .error _ => 0

end Bill

namespace State

def totals (s : State) : Bill :=
  ⟨s.nextId, s.counters.direct, s.counters.dispatched, s.tasks.length⟩

/-- A step of the submission of `c`, or one of the worker while `c` has the lock. -/
def actsFor (s : State) (c : Caller) : Action → Bool
  | .call d => d == c
  | .worker => s.dispatch.holder == some c
  | _ => false

/-- What is used up along these actions in steps for `c`. -/
def spent (c : Caller) : State → List Action → Bill
  | _, [] => 0
  | s, a :: as =>
    match s.step? a with
    | none => 0
    | some t => (if s.actsFor c a then t.totals - s.totals else 0) + t.spent c as

end State

/-! ## What was paid so far -/

/-- What a submission that is not in the handover, or out of it again, has used up. -/
def CallStage.bill : CallStage → Bill
  | .numbered _ => ⟨1, 0, 0, 0⟩
  | .counted _ => ⟨1, 1, 0, 0⟩
  | .received _ => ⟨1, 0, 1, 1⟩
  | _ => 0

def WorkerStage.bill : WorkerStage → Bill
  | .numbered _ _ => ⟨1, 0, 0, 0⟩
  | .counted _ _ => ⟨1, 0, 1, 0⟩
  | .launched _ => ⟨1, 0, 1, 1⟩
  | _ => 0

/-- What was used up for the envelope or the handle in the dispatch. -/
def Dispatch.bill (d : Dispatch) : Bill :=
  d.worker.bill + if d.outbound.isSome then ⟨1, 0, 1, 1⟩ else 0

theorem Dispatch.bill_add {d d' : Dispatch} (ho : d'.outbound = d.outbound) {b : Bill}
    (hw : d'.worker.bill = d.worker.bill + b) : d'.bill = d.bill + b := by
  rw [bill, bill, ho, hw]
  ext <;> simp only [Bill.add_def] <;> omega

def State.paid (s : State) (x : Call) : Bill :=
  x.stage.bill + if x.stage.isInside then s.dispatch.bill else 0

theorem paid_of_outside (h : x.stage.isInside = false) : s.paid x = x.stage.bill := by
  rw [State.paid, if_neg (by simp [h])]
  exact Bill.add_zero _

theorem paid_of_dispatch (h : x.stage.isInside → t.dispatch.bill = s.dispatch.bill) :
    t.paid x = s.paid x := by
  rw [State.paid, State.paid]
  split_ifs with hi
  · rw [h hi]
  · rfl

theorem Vacant.bill (h : Vacant s) : s.dispatch.bill = 0 := by
  rw [Dispatch.bill, h.outbound]
  rcases h.worker with hw | ⟨hw, -⟩ <;> rw [hw] <;> rfl

theorem totals_answer (s : State) (c : Caller) (r : Except RelayError Ticket) :
    (s.answer c r).totals = s.totals := by
  have hl := congrArg List.length (s.answer_ids c r)
  rw [List.length_map, List.length_map] at hl
  rw [State.totals, State.totals, State.answer_nextId, State.answer_counters, hl]

theorem totals_launch (s : State) (id : Nat) (c : Caller) (pool : PoolName) (e : Envelope) :
    (s.launch id c pool e).totals = s.totals + ⟨0, 0, 0, 1⟩ := by
  simp [State.totals, State.launch, State.note]

/-! ## Steps for a submission -/

/-- Whatever a step of a submission uses up is put down to it. -/
theorem CallMove.paid (hc : Coherent s) (hh : Handover s) (hx : x ∈ s.calls) (m : CallMove s x t)
    {x' : Call} (hx' : x' ∈ t.calls) (he : x'.caller = x.caller) :
    ∃ d, t.totals = s.totals + d ∧ t.paid x' = s.paid x + d := by
  cases m with
  | refuse | launch | abandon | unlock => exact absurd hx' (not_mem_answer he _ _)
  | allow hs =>
    obtain rfl := eq_of_mem_setCall hc hx hx' he
    refine ⟨0, rfl, ?_⟩
    rw [paid_of_outside rfl, paid_of_outside (by rw [hs]; rfl), hs]
    rfl
  | number hs =>
    obtain rfl := eq_of_mem_setCall hc hx hx' he
    refine ⟨⟨1, 0, 0, 0⟩, rfl, ?_⟩
    rw [paid_of_outside rfl, paid_of_outside (by rw [hs]; rfl), hs]
    rfl
  | count hs =>
    obtain rfl := eq_of_mem_setCall hc hx hx' he
    refine ⟨⟨0, 1, 0, 0⟩, rfl, ?_⟩
    rw [paid_of_outside rfl, paid_of_outside (by rw [hs]; rfl), hs]
    rfl
  | lock hs _ hn =>
    obtain rfl := eq_of_mem_setCall hc hx hx' he
    rcases hh.phase with hv | ⟨y, p, hy⟩
    · refine ⟨0, rfl, ?_⟩
      rw [paid_of_outside (x := x) (by rw [hs]; rfl), hs]
      exact congrArg (CallStage.bill .locked + ·) hv.bill
    · rw [hy.holder] at hn
      cases hn
  | send hs =>
    obtain rfl := eq_of_mem_setCall hc hx hx' he
    refine ⟨0, rfl, ?_⟩
    rw [State.paid, State.paid, hs]
    rfl
  | receive hs ho =>
    obtain rfl := eq_of_mem_setCall hc hx hx' he
    obtain ⟨id, rfl, hp⟩ := hh.of_sent hx hs ho
    refine ⟨0, rfl, ?_⟩
    rw [State.paid, State.paid, hs, Dispatch.bill, Dispatch.bill, ho]
    have hw : s.dispatch.worker = .idle := by rw [hp.dispatch]; rfl
    simp only [State.note, State.setCall, hw]
    rfl

/-- When a submission is answered, all that is due was paid. -/
theorem Reply.due (h : s.Reachable) (hx : x ∈ s.calls) {r : Except RelayError Ticket}
    (hr : Reply s x r t) : ∃ d, t.totals = s.totals + d ∧ Bill.due x.entry r = s.paid x + d := by
  cases hr with
  | refused href =>
    refine ⟨0, totals_answer _ _ _, ?_⟩
    cases href with
    | noPool hs | noCallback hs | closed hs =>
      rw [paid_of_outside (by rw [hs]; rfl), hs]
      rfl
  | launched hs =>
    have he : x.entry ≠ .serial := h.answers.direct x hx (by rw [hs]; rfl)
    refine ⟨⟨0, 0, 0, 1⟩, (totals_answer _ _ _).trans (totals_launch _ _ _ _ _), ?_⟩
    rw [paid_of_outside (by rw [hs]; rfl), hs, Bill.due, if_neg he]
    rfl
  | received hs =>
    obtain ⟨id, rfl, hp⟩ := h.handover.of_received hx hs
    refine ⟨0, totals_answer _ _ _, ?_⟩
    rw [State.paid, hs, hp.dispatch, Bill.due, if_pos hp.serial]
    rfl

/-- Whatever the worker uses up is put down to the holder of the lock. -/
theorem WorkerMove.paid (ho : s.dispatch.isOpen) (m : WorkerMove s t) :
    ∃ d, t.totals = s.totals + d ∧ t.dispatch.bill = s.dispatch.bill + d := by
  cases m with
  | take hw =>
    refine ⟨0, rfl, ?_⟩
    rw [Dispatch.bill, Dispatch.bill, hw]
    rfl
  | leave _ _ hn | lose _ hn =>
    rw [hn] at ho
    cases ho
  | number hw =>
    refine ⟨⟨1, 0, 0, 0⟩, rfl, Dispatch.bill_add ?_ ?_⟩
    · rfl
    · rw [hw]
      rfl
  | count hw =>
    refine ⟨⟨0, 0, 1, 0⟩, rfl, Dispatch.bill_add ?_ ?_⟩
    · rfl
    · rw [hw]
      rfl
  | @launch p id hw =>
    refine ⟨⟨0, 0, 0, 1⟩, totals_launch s id p.sender .parallel p.envelope,
      Dispatch.bill_add ?_ ?_⟩
    · rfl
    · rw [hw]
      rfl
  | publish hw _ hn =>
    refine ⟨0, rfl, ?_⟩
    rw [Dispatch.bill, Dispatch.bill, hw, hn]
    rfl

/-! ## Steps of others -/

theorem paid_of_not_actsFor (hh : Handover s) (m : Move s a t) (hx : x ∈ s.calls)
    (ha : s.actsFor x.caller a = false) : t.paid x = s.paid x := by
  refine paid_of_dispatch fun hi => ?_
  obtain ⟨p, hp⟩ := hh.occupied hx hi
  cases m with
  | outside m => rw [m.sameFront.dispatch]
  | ask | askInside => rfl
  | call hy m =>
    rw [m.dispatch_eq hh (call?_spec hy).1 hx hi]
    simpa [State.actsFor] using ha
  | worker =>
    -- while the submission has the lock the worker acts for it
    simp [State.actsFor, hp.holder] at ha
  | close | drop => rfl
  | task _ m => rw [m.sameFront.dispatch]

theorem SameFront.totals (h : SameFront s t) : t.totals = s.totals := by
  have hl := congrArg List.length h.ids
  rw [List.length_map, List.length_map] at hl
  rw [State.totals, State.totals, h.nextId, h.direct, h.dispatched, hl]

/-- Nothing is used up in a step that is taken for no submission. -/
theorem totals_of_not_actsFor (hh : Handover s) (m : Move s a t)
    (ha : ∀ c, s.actsFor c a = false) : t.totals = s.totals := by
  cases m with
  | outside m => exact m.sameFront.totals
  | @askInside x _ _ _ _ _ next =>
    have hf : SameFront s (s.setStage x.id (.submitting next)) := .setStage _ _
    exact hf.totals
  | @call x _ hx m =>
    have := ha x.caller
    simp [State.actsFor] at this
  | worker m =>
    rcases hh.phase with hv | ⟨x, p, hp⟩
    · have hw := hv.worker
      cases m with
      | leave => rfl
      | take _ hi =>
        rw [hv.inbound] at hi
        cases hi
      | number hs | count hs | launch hs | lose hs | publish hs => simp [hs] at hw
    · have := ha x.caller
      simp [State.actsFor, hp.holder] at this
  | task _ m => exact m.sameFront.totals
  | ask | close | drop => rfl

/-! ## Along a run -/

theorem spent_cons (ha : s.step? a = some t) (c : Caller) (as : List Action) :
    s.spent c (a :: as) = (if s.actsFor c a then t.totals - s.totals else 0) + t.spent c as := by
  rw [State.spent, ha]

/-- What is spent in a step is what is paid in it. -/
theorem paid_add_spent_of_step (h : s.Reachable) (hx : x ∈ s.calls) (hs : s.step? a = some t)
    {stage : CallStage} (hm : { x with stage := stage } ∈ t.calls)
    (hstage : a ≠ .call x.caller → stage = x.stage) :
    s.paid x + (if s.actsFor x.caller a then t.totals - s.totals else 0) =
      t.paid { x with stage := stage } := by
  have hd : s.actsFor x.caller a → ∃ d, t.totals = s.totals + d ∧
      t.paid { x with stage := stage } = s.paid x + d := by
    intro ha
    cases a with
    | call d =>
      obtain rfl : d = x.caller := by simpa [State.actsFor] using ha
      exact (CallMove.of_step? h.coherent hx hs).paid h.coherent h.handover hx hm rfl
    | worker =>
      -- the worker acts for the holder of the lock
      obtain rfl := hstage (by simp)
      have hholder : s.dispatch.holder = some x.caller := by simpa [State.actsFor] using ha
      rcases h.handover.phase with hv | ⟨y, p, hp⟩
      · rw [hv.holder] at hholder
        cases hholder
      · obtain rfl : y = x := by
          rw [hp.holder] at hholder
          exact h.coherent.eq_of_caller_eq hp.mem hx (Option.some.inj hholder)
        obtain ⟨d, ht, hd⟩ := (workerMove_of_stepWorker? hs).paid hp.isOpen
        refine ⟨d, ht, ?_⟩
        rw [State.paid, State.paid, if_pos hp.isInside, if_pos hp.isInside, hd, Bill.add_assoc]
    | _ => cases ha
  by_cases ha : s.actsFor x.caller a
  · obtain ⟨d, ht, hd⟩ := hd ha
    rw [if_pos ha, ht, Bill.add_sub_self, hd]
  · rw [if_neg ha, Bill.add_zero]
    have hne : a ≠ .call x.caller := by
      rintro rfl
      simp [State.actsFor] at ha
    obtain rfl := hstage hne
    exact (paid_of_not_actsFor h.handover (move_of_step? hs) hx (by simpa using ha)).symm

/-- What was paid before a run and what is spent in it make up what is due at its end. -/
theorem paid_add_spent {as : List Action} {r : Except RelayError Ticket} (h : s.Reachable)
    (hx : x ∈ s.calls) (hs : s.Settles x.caller as r t) :
    s.paid x + s.spent x.caller (as ++ [.call x.caller]) = Bill.due x.entry r := by
  refine hs.induct (P := fun s x as =>
      s.paid x + s.spent x.caller (as ++ [.call x.caller]) = Bill.due x.entry r)
    (fun s x h hx hstep hrep => ?_) (fun s x a t stage as h hx hstep hm hstage ih => ?_) h hx
  · obtain ⟨d, ht, hd⟩ := hrep.due h hx
    rw [List.nil_append, spent_cons hstep, if_pos (by simp [State.actsFor]), ht,
      Bill.add_sub_self, hd]
    rfl
  · rw [List.cons_append, spent_cons hstep, ← Bill.add_assoc,
      paid_add_spent_of_step h hx hstep hm hstage]
    exact ih

/-- From its beginning to its answer an accepted submission costs one id, one count on its own way
and one task, and a refused one nothing. -/
theorem spent_of_settles {as : List Action} {r : Except RelayError Ticket} (h : s.Reachable)
    (hx : x ∈ s.calls) (hb : x.stage = .asked) (hs : s.Settles x.caller as r t) :
    s.spent x.caller (as ++ [.call x.caller]) = Bill.due x.entry r := by
  rw [← paid_add_spent h hx hs, paid_of_outside (by rw [hb]; rfl), hb]
  exact (Bill.zero_add _).symm

end TaskRelay
