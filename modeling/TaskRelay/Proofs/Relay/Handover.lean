import Mathlib
import TaskRelay.Proofs.Relay.Identity
import TaskRelay.Proofs.Relay.Record

/-!
# The handover of an envelope for a handle

A submitter keeps the submit lock from before it sends its envelope until it has its handle, and the
worker holds nothing but what that submitter sent. So the lock, both queues and the worker are
always in one of the phases of a single handover (`Phase`), each of which says exactly what is where
and which steps were taken; between two handovers the dispatch is empty (`Vacant`).
Main statement: `State.Reachable.handover`. It rules out that a submission or the worker finds its
partner gone.
-/

namespace TaskRelay

/-! ## The phases -/

/-- How far the holder of the submit lock and the worker have come together. -/
inductive Phase where
  | locked
  | queued
  | held
  | numbered (id : Nat)
  | counted (id : Nat)
  | launched (id : Nat)
  | published (id : Nat)
  | received (id : Nat)

namespace Phase

variable (c : Caller) (e : Envelope)

def stage : Phase → CallStage
  | .locked => .locked
  | .received id => .received (State.ticket id e)
  | _ => .sent

/-- What is where. -/
def dispatch : Phase → Dispatch
  | .locked => ⟨some c, true, none, none, .idle⟩
  | .queued => ⟨some c, true, some ⟨c, e⟩, none, .idle⟩
  | .held => ⟨some c, true, none, none, .holding ⟨c, e⟩⟩
  | .numbered id => ⟨some c, true, none, none, .numbered ⟨c, e⟩ id⟩
  | .counted id => ⟨some c, true, none, none, .counted ⟨c, e⟩ id⟩
  | .launched id => ⟨some c, true, none, none, .launched (State.ticket id e)⟩
  | .published id => ⟨some c, true, none, some (State.ticket id e), .idle⟩
  | .received _ => ⟨some c, true, none, none, .idle⟩

/-- The steps taken so far, from the first. -/
def steps : Phase → List Mark
  | .locked => [.locked c]
  | .queued | .held | .numbered _ | .counted _ => [.locked c, .sent c]
  | .launched id | .published id => [.locked c, .sent c, .launched id c e]
  | .received id => [.locked c, .sent c, .launched id c e, .received c (State.ticket id e)]

end Phase

/-- A stage in which the submission holds the lock. -/
def CallStage.isInside : CallStage → Bool
  | .locked | .sent | .received _ => true
  | _ => false

/-- Nobody holds the lock, and the dispatch is empty. -/
structure Vacant (s : State) : Prop where
  holder : s.dispatch.holder = none
  inbound : s.dispatch.inbound = none
  outbound : s.dispatch.outbound = none
  worker : s.dispatch.worker = .idle ∨ s.dispatch.worker = .gone ∧ s.dispatch.isOpen = false
  outside : ∀ y ∈ s.calls, y.stage.isInside = false

/-- The call `x` holds the lock, in this phase of its handover. -/
structure Occupied (s : State) (x : Call) (p : Phase) : Prop where
  mem : x ∈ s.calls
  serial : x.entry = .serial
  stage : x.stage = p.stage x.envelope
  dispatch : s.dispatch = p.dispatch x.caller x.envelope
  steps : stepsSince x.caller s.journal = p.steps x.caller x.envelope
  alone : ∀ y ∈ s.calls, y.stage.isInside → y = x

/-- The dispatch is between two handovers or within one, and a submission that is not within it has
taken no step yet. -/
structure Handover (s : State) : Prop where
  phase : Vacant s ∨ ∃ x p, Occupied s x p
  begin : ∀ y ∈ s.calls, y.stage.isInside = false → stepsSince y.caller s.journal = []

variable {s t : State} {x y : Call} {p : Phase}

theorem Phase.isInside_stage (p : Phase) (e : Envelope) : (p.stage e).isInside := by
  cases p <;> rfl

theorem Occupied.isInside (h : Occupied s x p) : x.stage.isInside := by
  rw [h.stage]
  exact p.isInside_stage x.envelope

theorem Occupied.holder (h : Occupied s x p) : s.dispatch.holder = some x.caller := by
  rw [h.dispatch]
  cases p <;> rfl

theorem Occupied.isOpen (h : Occupied s x p) : s.dispatch.isOpen = true := by
  rw [h.dispatch]
  cases p <;> rfl

theorem Occupied.worker_ne_gone (h : Occupied s x p) : s.dispatch.worker ≠ .gone := by
  rw [h.dispatch]
  cases p <;> simp [Phase.dispatch]

/-! ## Moves of others -/

namespace Handover

/-- Nothing else in a state matters to the handover. -/
theorem of_eq (h : Handover s) (hcalls : t.calls = s.calls) (hd : t.dispatch = s.dispatch)
    (hsteps : ∀ c, stepsSince c t.journal = stepsSince c s.journal) : Handover t where
  phase := by
    rcases h.phase with h | ⟨x, p, h⟩
    · refine .inl ⟨hd ▸ h.holder, hd ▸ h.inbound, hd ▸ h.outbound, hd ▸ h.worker, ?_⟩
      rw [hcalls]
      exact h.outside
    · refine .inr ⟨x, p, ?_, h.serial, h.stage, hd ▸ h.dispatch, ?_, ?_⟩
      · rw [hcalls]
        exact h.mem
      · rw [hsteps, h.steps]
      · rw [hcalls]
        exact h.alone
  begin := by
    rw [hcalls]
    intro y hy ho
    rw [hsteps, h.begin y hy ho]

theorem of_sameFront (h : Handover s) (hf : SameFront s t) : Handover t :=
  h.of_eq hf.calls hf.dispatch hf.stepsSince

/-- A move of a caller that stays out of the handover. -/
theorem elsewhere (h : Handover s) (c : Caller)
    (hc : ∀ z ∈ s.calls, z.caller = c → z.stage.isInside = false)
    (hd : t.dispatch = s.dispatch)
    (hkeep : ∀ z ∈ s.calls, z.caller ≠ c → z ∈ t.calls)
    (hback : ∀ z ∈ t.calls, z ∈ s.calls ∧ z.caller ≠ c ∨
      z.caller = c ∧ z.stage.isInside = false ∧ stepsSince c t.journal = [])
    (hsteps : ∀ d, d ≠ c → stepsSince d t.journal = stepsSince d s.journal) : Handover t where
  phase := by
    have hin : ∀ z ∈ t.calls, z.stage.isInside → z ∈ s.calls := by
      intro z hz hi
      rcases hback z hz with ⟨hz, -⟩ | ⟨-, ho, -⟩
      · exact hz
      · rw [ho] at hi
        cases hi
    rcases h.phase with h | ⟨x, p, h⟩
    · refine .inl ⟨hd ▸ h.holder, hd ▸ h.inbound, hd ▸ h.outbound, hd ▸ h.worker, fun z hz => ?_⟩
      by_contra hi
      rw [Bool.not_eq_false] at hi
      rw [h.outside z (hin z hz hi)] at hi
      cases hi
    · have hx : x.caller ≠ c := by
        intro he
        have := hc x h.mem he
        rw [h.isInside] at this
        cases this
      refine .inr ⟨x, p, hkeep x h.mem hx, h.serial, h.stage, hd ▸ h.dispatch, ?_, ?_⟩
      · rw [hsteps x.caller hx, h.steps]
      · exact fun z hz hi => h.alone z (hin z hz hi) hi
  begin := by
    intro z hz ho
    rcases hback z hz with ⟨hz', hne⟩ | ⟨he, -, hn⟩
    · rw [hsteps z.caller hne]
      exact h.begin z hz' ho
    · rw [he, hn]

/-- A move of the handover itself, after which the call stands in the list as `x'`. -/
theorem enter (h : Handover s) (x' : Call) (q : Phase)
    (hothers : ∀ z ∈ s.calls, z.caller ≠ x'.caller → z.stage.isInside = false)
    (hmem : x' ∈ t.calls)
    (hback : ∀ z ∈ t.calls, z = x' ∨ z ∈ s.calls ∧ z.caller ≠ x'.caller)
    (hsteps : ∀ d, d ≠ x'.caller → stepsSince d t.journal = stepsSince d s.journal)
    (hserial : x'.entry = .serial) (hstage : x'.stage = q.stage x'.envelope)
    (hd : t.dispatch = q.dispatch x'.caller x'.envelope)
    (hs : stepsSince x'.caller t.journal = q.steps x'.caller x'.envelope) : Handover t where
  phase := by
    refine .inr ⟨x', q, hmem, hserial, hstage, hd, hs, fun z hz hi => ?_⟩
    rcases hback z hz with rfl | ⟨hz, hne⟩
    · rfl
    · rw [hothers z hz hne] at hi
      cases hi
  begin := by
    intro z hz ho
    rcases hback z hz with rfl | ⟨hz, hne⟩
    · rw [hstage, q.isInside_stage] at ho
      cases ho
    · rw [hsteps z.caller hne]
      exact h.begin z hz ho

end Handover

/-! ## Moves of submissions -/

section moves

/-- Calls other than the one that moves are the same before and after. -/
theorem mem_setCall_of_ne {c : Caller} {stage : CallStage} {z : Call} (hz : z ∈ s.calls)
    (hne : z.caller ≠ c) : z ∈ (s.setCall c stage).calls :=
  (State.mem_setCall s).mpr (.inr ⟨hz, hne⟩)

theorem mem_setCall_self (hx : x ∈ s.calls) (stage : CallStage) :
    { x with stage := stage } ∈ (s.setCall x.caller stage).calls :=
  (State.mem_setCall s).mpr (.inl ⟨x, hx, rfl, rfl⟩)

theorem eq_or_ne_of_mem_setCall (hc : Coherent s) (hx : x ∈ s.calls) {stage : CallStage} {z : Call}
    (hz : z ∈ (s.setCall x.caller stage).calls) :
    z = { x with stage := stage } ∨ z ∈ s.calls ∧ z.caller ≠ x.caller := by
  rcases (State.mem_setCall s).mp hz with ⟨w, hw, he, rfl⟩ | h
  · rw [hc.eq_of_caller_eq hw hx he]
    exact .inl rfl
  · exact .inr h

theorem Handover.setCall (h : Handover s) (hc : Coherent s) (hx : x ∈ s.calls)
    (ho : x.stage.isInside = false) {stage : CallStage} (ho' : stage.isInside = false) :
    Handover (s.setCall x.caller stage) := by
  refine h.elsewhere x.caller ?_ rfl (fun z hz hne => mem_setCall_of_ne hz hne) ?_ fun _ _ => rfl
  · intro z hz he
    rw [hc.eq_of_caller_eq hz hx he, ho]
  · intro z hz
    rcases eq_or_ne_of_mem_setCall hc hx hz with rfl | hz
    · exact .inr ⟨rfl, ho', h.begin x hx ho⟩
    · exact .inl hz

/-- An answer to a submission that stays out of the handover, after what was done for it alone. -/
theorem Handover.answer (h : Handover s) (hc : Coherent s) (hx : x ∈ s.calls)
    (ho : x.stage.isInside = false) (r : Except RelayError Ticket) (hcalls : t.calls = s.calls)
    (hd : t.dispatch = s.dispatch)
    (hsteps : ∀ d, d ≠ x.caller → stepsSince d t.journal = stepsSince d s.journal) :
    Handover (t.answer x.caller r) := by
  have hmem : ∀ z, z ∈ (t.answer x.caller r).calls ↔ z ∈ s.calls ∧ z.caller ≠ x.caller := by
    intro z
    rw [State.mem_answer, hcalls]
  refine h.elsewhere x.caller ?_ ((t.answer_dispatch _ _).trans hd) ?_ ?_ ?_
  · intro z hz he
    rw [hc.eq_of_caller_eq hz hx he, ho]
  · exact fun z hz hne => (hmem z).mpr ⟨hz, hne⟩
  · exact fun z hz => .inl ((hmem z).mp hz)
  · intro d hne
    rw [State.answer_journal, stepsSince_answered, hsteps d hne]

/-- Whoever is inside is the holder of the lock. -/
theorem Handover.occupied (h : Handover s) (hx : x ∈ s.calls) (hi : x.stage.isInside) :
    ∃ p, Occupied s x p := by
  rcases h.phase with hv | ⟨y, p, hy⟩
  · rw [hv.outside x hx] at hi
    cases hi
  · obtain rfl := hy.alone x hx hi
    exact ⟨p, hy⟩

theorem Handover.of_locked (h : Handover s) (hx : x ∈ s.calls) (hs : x.stage = .locked) :
    Occupied s x .locked := by
  obtain ⟨p, hp⟩ := h.occupied hx (by rw [hs]; rfl)
  have e := hp.stage
  rw [hs] at e
  cases p <;> first | exact hp | cases e

/-- A handle in the queue is for the one who waits. -/
theorem Handover.of_sent (h : Handover s) (hx : x ∈ s.calls) (hs : x.stage = .sent) {k : Ticket}
    (ho : s.dispatch.outbound = some k) :
    ∃ id, k = State.ticket id x.envelope ∧ Occupied s x (.published id) := by
  obtain ⟨p, hp⟩ := h.occupied hx (by rw [hs]; rfl)
  rw [hp.dispatch] at ho
  cases p <;> cases ho
  exact ⟨_, rfl, hp⟩

theorem Handover.of_received (h : Handover s) (hx : x ∈ s.calls) {k : Ticket}
    (hs : x.stage = .received k) :
    ∃ id, k = State.ticket id x.envelope ∧ Occupied s x (.received id) := by
  obtain ⟨p, hp⟩ := h.occupied hx (by rw [hs]; rfl)
  have e := hp.stage
  rw [hs] at e
  cases p <;> cases e
  exact ⟨_, rfl, hp⟩

/-- What the worker is about to launch is what the holder of the lock submitted. -/
theorem Handover.of_counted (h : Handover s) {k : Parcel} {id : Nat}
    (hw : s.dispatch.worker = .counted k id) :
    ∃ x, k = ⟨x.caller, x.envelope⟩ ∧ Occupied s x (.counted id) := by
  rcases h.phase with hv | ⟨x, p, hp⟩
  · have := hv.worker
    simp [hw] at this
  · rw [hp.dispatch] at hw
    cases p <;> cases hw
    exact ⟨x, rfl, hp⟩

/-- No submission finds the worker gone once it has the lock. -/
theorem Handover.worker_ne_gone (h : Handover s) (hx : x ∈ s.calls)
    (hs : x.stage = .locked ∨ x.stage = .sent ∧ s.dispatch.outbound = none) :
    s.dispatch.worker ≠ .gone := by
  have hi : x.stage.isInside := by rcases hs with hs | ⟨hs, -⟩ <;> rw [hs] <;> rfl
  obtain ⟨p, hp⟩ := h.occupied hx hi
  exact hp.worker_ne_gone

theorem Occupied.others (h : Occupied s x p) (z : Call) (hz : z ∈ s.calls)
    (hne : z.caller ≠ x.caller) : z.stage.isInside = false := by
  by_contra hi
  rw [Bool.not_eq_false] at hi
  exact hne (congrArg Call.caller (h.alone z hz hi))

theorem Vacant.dispatch (h : Vacant s) :
    s.dispatch = ⟨none, s.dispatch.isOpen, none, none, s.dispatch.worker⟩ := by
  rw [← h.holder, ← h.inbound, ← h.outbound]

/-- A step of the call with its own mark takes it to the next phase. -/
theorem Handover.enterCall (h : Handover s) (hc : Coherent s) (hx : x ∈ s.calls)
    {stage : CallStage} {m : Mark} (q : Phase)
    (hothers : ∀ z ∈ s.calls, z.caller ≠ x.caller → z.stage.isInside = false)
    (hserial : x.entry = .serial) (hstage : stage = q.stage x.envelope)
    (hm : m.caller? = some x.caller) (hstep : m.isStepOf x.caller)
    (hsteps : stepsSince x.caller s.journal ++ [m] = q.steps x.caller x.envelope)
    (hcalls : t.calls = (s.setCall x.caller stage).calls)
    (hd : t.dispatch = q.dispatch x.caller x.envelope) (hj : t.journal = m :: s.journal) :
    Handover t := by
  refine h.enter { x with stage := stage } q hothers ?_ ?_ ?_ hserial hstage hd ?_
  · rw [hcalls]
    exact mem_setCall_self hx stage
  · rw [hcalls]
    exact fun z hz => eq_or_ne_of_mem_setCall hc hx hz
  · intro d hne
    rw [hj, stepsSince_of_caller? (by rw [hm]; exact fun e => hne (Option.some.inj e).symm)]
  · rw [hj, stepsSince_step hstep, hsteps]

theorem Handover.callMove (h : Handover s) (hc : Coherent s) (hx : x ∈ s.calls)
    (m : CallMove s x t) : Handover t := by
  cases m with
  | refuse hr =>
    have ho : x.stage.isInside = false := by cases hr <;> simp [*, CallStage.isInside]
    exact h.answer hc hx ho _ rfl rfl fun _ _ => rfl
  | allow hs => exact h.setCall hc hx (by rw [hs]; rfl) rfl
  | number hs =>
    have h' : Handover (s.setCall x.caller (.numbered s.nextId)) :=
      h.setCall hc hx (by rw [hs]; rfl) rfl
    exact h'.of_eq rfl rfl fun _ => rfl
  | @count id hs =>
    have h' : Handover (s.setCall x.caller (.counted id)) := h.setCall hc hx (by rw [hs]; rfl) rfl
    exact h'.of_eq rfl rfl fun _ => rfl
  | launch hs =>
    refine h.answer hc hx (by rw [hs]; rfl) _ rfl rfl fun d hne => ?_
    exact stepsSince_of_caller? fun e => hne (Option.some.inj e).symm
  | lock hs he hh ho =>
    -- the lock is free only between two handovers
    rcases h.phase with hv | ⟨y, p, hy⟩
    · have hn := h.begin x hx (by rw [hs]; rfl)
      have hw : s.dispatch.worker = .idle := hv.worker.resolve_right (by rw [ho]; simp)
      refine h.enterCall hc hx .locked (fun z hz _ => hv.outside z hz) he rfl
        (m := .locked x.caller) rfl (by simp [Mark.isStepOf]) ?_ rfl ?_ rfl
      · rw [hn]
        rfl
      · show { s.dispatch with holder := some x.caller } = _
        rw [hv.dispatch, hw, ho]
        rfl
    · rw [hy.holder] at hh
      cases hh
  | abandon hw hs => exact absurd hw (h.worker_ne_gone hx hs)
  | send hs =>
    have hp := h.of_locked hx hs
    refine h.enterCall hc hx .queued hp.others hp.serial rfl (m := .sent x.caller)
      rfl (by simp [Mark.isStepOf]) ?_ rfl ?_ rfl
    · rw [hp.steps]
      rfl
    · show { s.dispatch with inbound := some ⟨x.caller, x.envelope⟩ } = _
      rw [hp.dispatch]
      rfl
  | receive hs ho =>
    obtain ⟨id, rfl, hp⟩ := h.of_sent hx hs ho
    refine h.enterCall hc hx (.received id) hp.others hp.serial rfl
      (m := .received x.caller (State.ticket id x.envelope)) rfl (by simp [Mark.isStepOf])
      ?_ rfl ?_ rfl
    · rw [hp.steps]
      rfl
    · show { s.dispatch with outbound := none } = _
      rw [hp.dispatch]
      rfl
  | unlock hs =>
    obtain ⟨id, rfl, hp⟩ := h.of_received hx hs
    have hd : s.dispatch = ⟨some x.caller, true, none, none, .idle⟩ := hp.dispatch
    have ho : ∀ z ∈ ((s.setHolder none).answer x.caller (.ok (State.ticket id x.envelope))).calls,
        z ∈ s.calls ∧ z.caller ≠ x.caller := fun z hz => (s.setHolder none).mem_answer _ _ |>.mp hz
    refine ⟨.inl ⟨?_, ?_, ?_, ?_, ?_⟩, ?_⟩
    · rw [State.answer_dispatch]
      rfl
    · rw [State.answer_dispatch]
      exact congrArg Dispatch.inbound hd
    · rw [State.answer_dispatch]
      exact congrArg Dispatch.outbound hd
    · rw [State.answer_dispatch]
      exact .inl (congrArg Dispatch.worker hd)
    · exact fun z hz => hp.others z (ho z hz).1 (ho z hz).2
    · intro z hz hi
      rw [State.answer_journal, stepsSince_answered]
      exact h.begin z (ho z hz).1 hi

/-! ## Moves of the worker -/

/-- A step of the worker takes the handover to the next phase and leaves the calls as they are. -/
theorem Handover.advance (h : Handover s) (hc : Coherent s) (hp : Occupied s x p) (q : Phase)
    (hstage : q.stage x.envelope = p.stage x.envelope) (hcalls : t.calls = s.calls)
    (hd : t.dispatch = q.dispatch x.caller x.envelope)
    (hsteps : ∀ d, d ≠ x.caller → stepsSince d t.journal = stepsSince d s.journal)
    (hs : stepsSince x.caller t.journal = q.steps x.caller x.envelope) : Handover t := by
  refine h.enter x q hp.others ?_ ?_ hsteps hp.serial (hp.stage.trans hstage.symm) hd hs
  · rw [hcalls]
    exact hp.mem
  · rw [hcalls]
    intro z hz
    by_cases hz' : z.caller = x.caller
    · exact .inl (hc.eq_of_caller_eq hz hp.mem hz')
    · exact .inr ⟨hz, hz'⟩

theorem Handover.workerMove (h : Handover s) (hc : Coherent s) (m : WorkerMove s t) :
    Handover t := by
  rcases h.phase with hv | ⟨x, p, hp⟩
  · -- between two handovers the worker can only leave
    have hw := hv.worker
    cases m with
    | leave hi _ ho =>
      refine ⟨.inl ⟨hv.holder, hv.inbound, hv.outbound, .inr ⟨rfl, ho⟩, hv.outside⟩, h.begin⟩
    | take _ hi =>
      rw [hv.inbound] at hi
      cases hi
    | number hi | count hi | launch hi | lose hi | publish hi => simp [hi] at hw
  · have hd := hp.dispatch
    have hs := hp.steps
    cases m with
    | take hw hi =>
      rw [hd] at hw hi
      cases p <;> cases hw <;> cases hi
      exact h.advance hc hp .held rfl rfl (by rw [hd]; rfl) (fun _ _ => rfl) hs
    | leave hw hi ho =>
      rw [hp.isOpen] at ho
      cases ho
    | number hw =>
      rw [hd] at hw
      cases p <;> cases hw
      refine h.advance hc hp (.numbered s.nextId) rfl rfl ?_ (fun _ _ => rfl) hs
      simp only [State.setWorker, hd]
      rfl
    | count hw =>
      rw [hd] at hw
      cases p <;> cases hw
      next id =>
      refine h.advance hc hp (.counted id) rfl rfl ?_ (fun _ _ => rfl) hs
      simp only [State.setWorker, hd]
      rfl
    | launch hw =>
      rw [hd] at hw
      cases p <;> cases hw
      next id =>
      refine h.advance hc hp (.launched id) rfl rfl ?_ ?_ ?_
      · simp only [State.setWorker, State.launch, State.note, hd]
        rfl
      · exact fun d hne => stepsSince_of_caller? fun e => hne (Option.some.inj e).symm
      · show stepsSince x.caller (.launched id x.caller x.envelope :: s.journal) = _
        rw [stepsSince_step (by simp [Mark.isStepOf]), hs]
        rfl
    | lose hw ho =>
      rw [hp.isOpen] at ho
      cases ho
    | publish hw ho hi =>
      rw [hd] at hw
      cases p <;> cases hw
      next id =>
      refine h.advance hc hp (.published id) rfl rfl ?_ ?_ ?_
      · simp only [State.note, hd]
        rfl
      · exact fun d _ => stepsSince_other rfl rfl
      · exact (stepsSince_other rfl rfl).trans hs

end moves

/-! ## All moves -/

theorem Handover.start (pools : Pools) (color : Bool) : Handover (State.start pools color) where
  phase := .inl ⟨rfl, rfl, rfl, .inl rfl, by simp [State.start]⟩
  begin := by simp [State.start]

theorem Handover.ask (h : Handover s) {c : Caller} (hc : c ∉ s.calls.map Call.caller)
    (entry : Entry) (e : Envelope) : Handover (s.ask c entry e) := by
  have hne : ∀ z ∈ s.calls, z.caller ≠ c := fun z hz he => hc (he ▸ List.mem_map_of_mem hz)
  refine h.elsewhere c (fun z hz he => absurd he (hne z hz)) rfl
    (fun z hz _ => List.mem_append_left _ hz) ?_ ?_
  · intro z hz
    rcases s.mem_ask.mp hz with hz | rfl
    · exact .inl ⟨hz, hne z hz⟩
    · exact .inr ⟨rfl, rfl, stepsSince_asked entry e⟩
  · exact fun d hd => stepsSince_of_caller? fun he => hd (Option.some.inj he).symm

/-- Without a holder the dispatch can be closed. -/
theorem Handover.close (h : Handover s) (hh : s.dispatch.holder = none) (hcalls : t.calls = s.calls)
    (hd : t.dispatch = { s.dispatch with isOpen := false })
    (hsteps : ∀ d, stepsSince d t.journal = stepsSince d s.journal) : Handover t where
  phase := by
    rcases h.phase with hv | ⟨x, p, hp⟩
    · left
      refine ⟨hd ▸ hv.holder, hd ▸ hv.inbound, hd ▸ hv.outbound, ?_, ?_⟩
      · rw [hd]
        exact hv.worker.imp id fun hw => ⟨hw.1, rfl⟩
      · rw [hcalls]
        exact hv.outside
    · rw [hp.holder] at hh
      cases hh
  begin := by
    rw [hcalls]
    intro z hz ho
    rw [hsteps, h.begin z hz ho]

theorem Move.handover {a : Action} (hc : Coherent s) (h : Handover s) (m : Move s a t) :
    Handover t := by
  cases m with
  | outside m => exact h.of_sameFront m.sameFront
  | ask _ hn => exact h.ask (not_mem_callers hn) _ _
  | @askInside x entry name body args wake next hx hs =>
    have h' : Handover (s.setStage x.id (.submitting next)) := h.of_sameFront (.setStage _ _)
    exact h'.ask (hc.not_asking (task?_spec hx).1 hs) _ _
  | call hx m => exact h.callMove hc (call?_spec hx).1 m
  | worker m => exact h.workerMove hc m
  | close hh ho => exact h.close hh rfl rfl fun d => stepsSince_other rfl rfl
  | drop hu =>
    simp only [State.isUnused, Bool.and_eq_true, Option.isNone_iff_eq_none] at hu
    exact h.close hu.2 rfl rfl fun d => rfl
  | task hx m => exact h.of_sameFront m.sameFront

theorem State.Reachable.handover (h : s.Reachable) : Handover s :=
  h.induct Handover.start fun _ _ _ hr => Move.handover hr.coherent

end TaskRelay
