import Mathlib
import TaskRelay.Proofs.Relay.Beside
import TaskRelay.Proofs.Relay.Conservation
import TaskRelay.Proofs.Relay.Decision
import TaskRelay.Proofs.Relay.Phases

/-!
# The way through the dispatch refines the others

A submission through the dispatch is followed step by step beside the same submission straight to
a pool. Up to the lock the two take the same steps; within the handover every step of the caller
or of the worker is matched by one step of the other way or by none (`Place`); once both are
answered, every run of the one is a run of the other (`Beside.after`, `Beside.after_back`).

The pools of the relay may end at different times, and then the two ways part: a drop ends the
relay's own pools, but not a host's (`single_afterDrop`).

Main statement: `refines`.
-/

namespace TaskRelay

variable {s t : State} {a : Action} {as : List Action} {c : Caller} {x : Call} {d : Entry}
variable {e : Envelope} {r : Except RelayError Ticket} {v : Detour} {y y' : State} {u : Task}
variable {given : List (Except RelayError Ticket)} {p q : Phase}

/-! ## Pools and threads -/

/-- What the program learns about its thread makes no difference to it. -/
def Program.IgnoresThread (p : Program) : Prop :=
  ∀ next, p.Follows (.onThread next) → ∀ th th', next th = next th'

/-- If by this step the task of this answer goes on where it is suspended, then the pool that the
entry leads to and the parallel pool both have threads or neither has; and if it is dropped there,
both are up or neither is. Nothing is asked of an entry to the parallel pool itself. -/
def State.Level (d : Entry) (r : Except RelayError Ticket) (s : State) (a : Action) : Prop :=
  ∀ k, r = .ok k → ∀ u ∈ s.tasks, u.id = k.id → ∀ p, u.stage = .suspended p →
    (a = .task k.id → s.pools.isDown d.pool = s.pools.isDown .parallel) ∧
      ∀ b, a = .cancel k.id b → s.pools.isUp d.pool = s.pools.isUp .parallel

/-- All these steps are taken in states where this holds. -/
def State.Along (P : State → Action → Prop) (s : State) (as : List Action) : Prop :=
  ∀ bs a cs t, as = bs ++ a :: cs → s.after? bs = some t → P t a

theorem State.Along.here {P : State → Action → Prop} (h : s.Along P (a :: as)) : P s a :=
  h [] a as s rfl rfl

theorem State.Along.tail {P : State → Action → Prop} (h : s.Along P (a :: as))
    (hs : s.step? a = some t) : t.Along P as := by
  rintro bs b cs w rfl hw
  exact h (a :: bs) b cs w rfl ((after?_cons hs bs).trans hw)

theorem movedTo_eq_some {pool n : PoolName} {id : Nat} (h : movedTo pool r id = some n) :
    n = pool ∧ ∃ k, r = .ok k ∧ k.id = id := by
  unfold movedTo at h
  split at h
  · next k =>
    split_ifs at h with hid
    exact ⟨(Option.some.inj h).symm, k, rfl, hid.symm⟩
  · cases h

/-- A task does not come across being in another pool as long as the pools go together. -/
theorem Beside.hides (h : Beside c e d r v given s y) (hr : s.Reachable)
    (hi : d.pool = .parallel ∨ e.program.IgnoresThread) (hl : s.Level d r a)
    (hu : u ∈ s.tasks) (ha : a = .task u.id ∨ ∃ b, a = .cancel u.id b) : v.Hides s u a := by
  cases hn : v.pool u.id with
  | none =>
    have hpool : (u.detour v).pool = u.pool := by
      rw [Task.detour_pool, hn]
      rfl
    unfold Detour.Hides
    rw [hpool]
    split <;> trivial
  | some n =>
    obtain ⟨hm, w, hw, hid, -, he, hp⟩ := h.moved u.id n hn
    obtain rfl := hr.coherent.eq_of_id_eq hw hu hid
    obtain ⟨rfl, k, rfl, hk⟩ := movedTo_eq_some hm
    have hpool : (w.detour v).pool = d.pool := by
      rw [Task.detour_pool, hn]
      rfl
    unfold Detour.Hides
    rw [hpool, hp]
    split
    · next hs =>
      have ha' := ha.resolve_left nofun
      rw [← hk] at ha'
      obtain ⟨b, hb⟩ := ha'
      exact (hl k rfl w hw hk.symm _ hs).2 b hb
    · next hs hn =>
      have ha' := ha.resolve_right fun ⟨b, hb⟩ => hn _ _ hb
      exact (hl k rfl w hw hk.symm _ hs).1 (hk ▸ ha')
    · next next hs =>
      rcases hi with hi | hi
      · rw [hi]
      · have hf := (hr.allFaithful w hw).program
        rw [hs, he] at hf
        exact hi next hf _ _
    · trivial

/-! ## What others do meanwhile -/

theorem Occupied.isFree_of_step (h : Occupied s x p) {z : Call} (hz : z ∈ s.calls)
    (hne : z.caller ≠ x.caller) (hs : s.stepCall? z = some t) : z.isFree := by
  have ho := h.others z hz hne
  rw [Call.isFree]
  cases hst : z.stage with
  | asked | numbered | counted => rfl
  | admitted =>
    rw [State.stepCall?, hst] at hs
    by_contra he
    simp [h.holder, show z.entry = .serial by simpa using he] at hs
  | locked | sent | received =>
    rw [hst] at ho
    cases ho

theorem Occupied.step?_close (h : Occupied s x p) (n : Nat) : s.step? (.close n) = none := by
  show (s.closers.find? _).bind s.stepCloser? = none
  cases s.closers.find? fun z => z.thread == n with
  | none => rfl
  | some z =>
    show s.stepCloser? z = none
    rw [State.stepCloser?]
    simp only [h.holder, Option.isSome_some, if_true]
    split_ifs
    · split
      · next hw => exact absurd hw h.worker_ne_gone
      · rfl
    · rfl

/-- Who submits is not a thread that begins to, nor a task that goes on. -/
theorem State.Reachable.caller_ne_of_task (h : s.Reachable) (hx : x ∈ s.calls) {id : Nat}
    (hs : (s.step? (.task id)).isSome ∨ ∃ b, (s.step? (.cancel id b)).isSome) :
    x.caller ≠ .task id := by
  intro hc
  obtain ⟨w, hw, rfl, hsub⟩ := h.coherent.inside x hx id hc
  cases hst : w.stage with
  | submitting next =>
    rcases hs with hs | ⟨b, hs⟩
    · simp [State.step?, h.coherent.task?_eq hw, State.stepTask?, hst] at hs
    · simp [State.step?, h.coherent.task?_eq hw, State.cancel?, hst] at hs
  | _ => simp [hst, Stage.isSubmitting] at hsub

/-- Whoever else takes a step has nothing to do with the submission. -/
theorem State.Reachable.keeps (h : s.Reachable) (hx : x ∈ s.calls)
    (hv : ∀ c, c ≠ x.caller → v.Spares c) (hs : s.step? a = some t) (ha : a ≠ .call x.caller)
    (hh : ∀ u ∈ s.tasks, a = .task u.id ∨ (∃ b, a = .cancel u.id b) → v.Hides s u a)
    (ho : v.vacant = false ∨ a ≠ .worker ∧ ∃ p, Occupied s x p) : v.Keeps s a := by
  cases a with
  | submit n entry e' =>
    refine hv _ fun hc => ?_
    rw [State.step?, hc, h.coherent.call?_eq hx] at hs
    simp at hs
  | install | setColor | notify | openGates | shutdown | killHost | takeHandle | react => trivial
  | drop =>
    have hne : s.calls.isEmpty = false := by
      simpa using List.ne_nil_of_mem hx
    simp [State.step?, State.isUnused, hne] at hs
  | call c =>
    refine ⟨hv c fun hc => ha (by rw [hc]), fun hvac z hz hc => ?_⟩
    rcases ho with ho | ⟨-, p, hp⟩
    · rw [ho] at hvac
      cases hvac
    · obtain ⟨w, hw, hstep⟩ := Option.bind_eq_some_iff.mp hs
      rw [← hc, h.coherent.call?_eq hz] at hw
      obtain rfl := Option.some.inj hw
      exact hp.isFree_of_step hz (fun he => ha (by rw [← hc, he])) hstep
  | worker => exact ho.resolve_right fun hn => hn.1 rfl
  | close n =>
    refine ho.resolve_right ?_
    rintro ⟨-, p, hp⟩
    rw [hp.step?_close] at hs
    cases hs
  | task id =>
    refine ⟨hv _ (h.caller_ne_of_task hx (.inl (by rw [hs]; rfl))).symm, fun w hw => ?_⟩
    obtain ⟨hmem, rfl⟩ := task?_spec hw
    exact hh w hmem (.inl rfl)
  | cancel id b =>
    refine ⟨hv _ (h.caller_ne_of_task hx (.inr ⟨b, by rw [hs]; rfl⟩)).symm, fun w hw => ?_⟩
    obtain ⟨hmem, rfl⟩ := task?_spec hw
    exact hh w hmem (.inr ⟨b, rfl⟩)

/-! ## The submission on its way -/

/-- A step that is neither one of this submission nor one of the worker. -/
def Action.isOther (c : Caller) : Action → Bool
  | .call d => d != c
  | .worker => false
  | _ => true

/-- Where a submission through the dispatch is by the way `d`, with the answers it has there. -/
inductive Place (d : Entry) (s : State) (x : Call) :
    Detour → List (Except RelayError Ticket) → Prop
  | before : x.isDecided = false → Place d s x (.standing { x with entry := d } false 0) []
  | inside {p : Phase} : Occupied s x p → Place d s x (p.detour d x) (p.answers x.envelope)

/-- The id that the worker has drawn. -/
def Phase.id? : Phase → Option Nat
  | .numbered id | .counted id | .launched id | .published id | .received id => some id
  | _ => none

theorem HandoverStep.id?_eq (h : HandoverStep s x p a t q) {id : Nat} (hp : p.id? = some id) :
    q.id? = some id := by
  cases h <;> first | exact hp | cases hp

/-- As long as it is not answered, it stays within the handover. -/
theorem Occupied.stays (h : Occupied s x p) (hr : s.Reachable) (hs : s.step? a = some t)
    {stage : CallStage} (hx : { x with stage := stage } ∈ t.calls) :
    ∃ q, HandoverStep s x p a t q ∧ Occupied t { x with stage := stage } q := by
  rcases h.step hr hs with ⟨q, hq⟩ | ⟨id, -, -, rfl⟩
  · have ho := hq.occupied h hr hs
    rw [(hr.step hs).coherent.eq_of_caller_eq hx ho.mem rfl]
    exact ⟨q, hq, ho⟩
  · exact absurd hx (not_mem_answer (y := { x with stage := stage }) rfl _ _)

/-- If it is answered, then with the handle that it has received. -/
theorem Occupied.of_reply (h : Occupied s x p) (hr : s.Reachable) (hm : Reply s x r t) :
    ∃ id, p = .received id ∧ r = .ok (State.ticket id x.envelope) ∧
      t = (s.setHolder none).answer x.caller r := by
  cases hm with
  | refused href =>
    have hdec := href.isDecided
    rw [h.isDecided] at hdec
    cases hdec
  | launched hst =>
    have hin := h.isInside
    rw [hst] at hin
    cases hin
  | received hst =>
    obtain ⟨id, rfl, ho⟩ := hr.handover.of_received h.mem hst
    exact ⟨id, h.phase_eq ho, rfl, rfl⟩

theorem spares_standing {z : Call} {b : Bool} {n : Nat} (hc : c ≠ z.caller) :
    (Detour.standing z b n).Spares c where
  call hx := if_neg (by rw [hx]; exact hc)
  told _ _ := rfl

theorem spares_ahead {c' : Caller} {k : Ticket} {pool : PoolName} (hc : c ≠ c') :
    (Detour.ahead c' k pool).Spares c where
  call hx := if_neg (by rw [hx]; exact hc)
  told id hid := if_neg (by rw [← hid]; exact hc.symm)

theorem Phase.spares (p : Phase) (hc : c ≠ x.caller) : (p.detour d x).Spares c := by
  cases p <;> first | exact spares_standing hc | exact spares_ahead hc

theorem Phase.vacant_detour (p : Phase) : (p.detour d x).vacant = true := by
  cases p <;> rfl

theorem Place.spares (h : Place d s x v given) (hc : c ≠ x.caller) : v.Spares c := by
  cases h with
  | before => exact spares_standing hc
  | inside => exact Phase.spares _ hc

/-- What only the dispatch and the stage of the call tell apart is the same by the other way. -/
theorem Phase.setCall_detour (p : Phase) (w : Dispatch) (stage : CallStage) :
    ({ s with dispatch := w }.setCall x.caller stage).detour (p.detour d x) =
      s.detour (p.detour d x) := by
  rw [State.detour_setCall, State.detour_set_dispatch p.vacant_detour]
  intro z _ hz
  cases p <;> simp only [Phase.detour, Detour.standing, Detour.ahead, if_pos hz]

theorem Handover.dispatch_eq_start (h : Handover s) (hh : s.dispatch.holder = none)
    (ho : s.dispatch.isOpen) : s.dispatch = .start := by
  rcases h.phase with hv | ⟨z, p, hp⟩
  · rw [hv.dispatch, ho, hv.worker.resolve_right (by simp [ho])]
    rfl
  · rw [hp.holder] at hh
    cases hh

/-- A free dispatch may be taken to be free. -/
theorem State.detour_standing_of_start (hd : s.dispatch = .start) (z : Call) (n : Nat) :
    s.detour (.standing z true n) = s.detour (.standing z false n) := by
  simp only [State.detour, Detour.standing, hd]
  rfl

section own

variable (h : s.Reachable) (hx : x ∈ s.calls) (he : x.entry = .serial)
variable (hp : (s.pools.get? d.pool).isSome)

include h hx

/-- Another's step leaves the submission where it is on either way. -/
theorem Place.other (hpl : Place d s x v given) (hb : Beside x.caller x.envelope d r v given s y)
    (hi : d.pool = .parallel ∨ x.envelope.program.IgnoresThread) (hl : s.Level d r a)
    (hs : s.step? a = some t) (hc : a ≠ .call x.caller)
    (hw : a ≠ .worker ∨ x.isDecided = false) (hx' : x ∈ t.calls) :
    ∃ y', y.step? a = some y' ∧ Place d t x v given ∧
      Beside x.caller x.envelope d r v given t y' := by
  have hk : v.Keeps s a := by
    refine h.keeps hx (fun c hc => hpl.spares hc) hs hc (fun u hu ha => hb.hides h hi hl hu ha) ?_
    cases hpl with
    | before => exact .inl rfl
    | inside ho =>
      refine .inr ⟨hw.resolve_right ?_, _, ho⟩
      simp [ho.isDecided]
  obtain ⟨ms, y', hy, hb', -⟩ := hb.forth h hk hs (.inr hc)
  refine ⟨y', hy, ?_, hb'⟩
  cases hpl with
  | before hn => exact .before hn
  | inside ho =>
    have hx'' : { x with stage := x.stage } ∈ t.calls := hx'
    obtain ⟨q, hq, ho'⟩ := ho.stays h hs hx''
    cases hq with
    | other => exact .inside ho'
    | send | receive => exact absurd rfl hc
    | take | number | count | launch | publish =>
      rw [ho.isDecided] at hw
      simp at hw

/-- The steps within the handover. -/
theorem Place.ofInside (ho : Occupied s x p)
    (hb : Beside x.caller x.envelope d r (p.detour d x) (p.answers x.envelope) s y)
    (hd : d ≠ .serial) (hs : s.step? a = some t) (ha : a = .call x.caller ∨ a = .worker)
    {stage : CallStage} (hx' : { x with stage := stage } ∈ t.calls)
    (hr : ∀ id, p.id? = some id → r = .ok (State.ticket id x.envelope)) :
    ∃ bs v' given' y', y.after? bs = some y' ∧ bs.filter (Action.isOther x.caller) = [] ∧
      Place d t { x with stage := stage } v' given' ∧
      Beside x.caller x.envelope d r v' given' t y' := by
  have hc := h.coherent
  obtain ⟨q, hq, ho'⟩ := ho.stays h hs hx'
  cases hq with
  | send =>
    refine ⟨[], _, _, y, rfl, rfl, .inside ho', hb.stay [.sent x.caller] ?_ rfl rfl rfl rfl
      rfl (by simp [Mark.isWayOf, Mark.answer?])⟩
    exact Phase.setCall_detour (s := s.now) .queued _ _
  | take =>
    refine ⟨[], _, _, y, rfl, rfl, .inside ho', hb.stay [] ?_ rfl rfl rfl rfl rfl (by simp)⟩
    exact State.detour_set_dispatch (s := s.now) rfl _
  | number =>
    obtain ⟨y', hy, hb'⟩ := hb.number hc hx hd rfl _
    exact ⟨_, _, _, y', after?_cons hy [], by simp [Action.isOther], .inside ho', hb'⟩
  | count =>
    obtain ⟨y', hy, hb'⟩ := hb.count hc hx rfl _
    exact ⟨_, _, _, y', after?_cons hy [], by simp [Action.isOther], .inside ho', hb'⟩
  | @launch id =>
    have hw : s.dispatch.worker.id? = some id := by
      rw [ho.dispatch]
      rfl
    have hid := (hc.id_of_worker hw).2
    obtain ⟨y', hy, hb'⟩ := hb.launch hc hx hid (hr id rfl) rfl _
    refine ⟨_, _, _, y', after?_cons hy [], by simp [Action.isOther], .inside ho', ?_⟩
    rw [hr id rfl] at hb' ⊢
    exact hb'
  | @publish id =>
    refine ⟨[], _, _, y, rfl, rfl, .inside ho', hb.stay
      [.published (State.ticket id x.envelope)] ?_ rfl rfl rfl rfl rfl ?_⟩
    · exact State.detour_set_dispatch (s := s.now) rfl _
    · rw [hr id rfl]
      simp [Mark.isWayOf, Mark.answer?]
  | @receive id =>
    refine ⟨[], _, _, y, rfl, rfl, .inside ho', hb.stay
      [.received x.caller (State.ticket id x.envelope)] ?_ rfl rfl rfl rfl rfl
        (by simp [Mark.isWayOf, Mark.answer?])⟩
    exact Phase.setCall_detour (s := s.now) (.received id) _ _
  | other hne hw => exact absurd ha (by simp [hne, hw])

include he hp

/-- The first steps of a submission, up to the lock. -/
theorem Place.ofBefore
    (hb : Beside x.caller x.envelope d r (.standing { x with entry := d } false 0) [] s y)
    (hn : x.isDecided = false) (hs : s.step? (.call x.caller) = some t) {stage : CallStage}
    (hx' : { x with stage := stage } ∈ t.calls) :
    ∃ bs v' y', y.after? bs = some y' ∧ bs.filter (Action.isOther x.caller) = [] ∧
      Place d t { x with stage := stage } v' [] ∧ Beside x.caller x.envelope d r v' [] t y' := by
  have hc := h.coherent
  cases CallMove.of_step? hc hx hs with
  | refuse => exact absurd hx' (not_mem_answer (y := { x with stage := stage }) rfl _ _)
  | allow hst _ hw =>
    obtain ⟨y', hy, hb'⟩ := hb.allow hc hx hp hst hw
    obtain rfl : stage = .admitted := congrArg Call.stage (eq_of_mem_setCall hc hx hx' rfl)
    refine ⟨[.call x.caller], _, y', after?_cons hy [], by simp [Action.isOther], .before ?_, hb'⟩
    simp [Call.isDecided, he]
  | lock hst _ hh ho =>
    have hd := h.handover.dispatch_eq_start hh ho
    obtain rfl : stage = .locked := congrArg Call.stage (eq_of_mem_setCall hc hx hx' rfl)
    have hin := (h.step hs).handover.occupied_of (p := .locked) hx' rfl (by
      show { s.dispatch with holder := some x.caller } = _
      rw [hd]
      rfl)
    refine ⟨[], _, y, rfl, rfl, .inside hin, hb.stay [.locked x.caller] ?_ rfl rfl rfl rfl
      rfl (by simp [Mark.isWayOf, Mark.answer?])⟩
    show ({ s.now with dispatch := _ }.setCall x.caller .locked).detour _ = _
    rw [Phase.setCall_detour .locked, hst]
    exact State.detour_standing_of_start (s := s.now) hd _ 0
  | number _ hne => exact absurd he hne
  | count hst | launch hst | send hst | receive hst | unlock hst =>
    simp [Call.isDecided, hst] at hn
  | abandon hw hst => exact absurd hw (h.handover.worker_ne_gone hx hst)

/-- A step after which the submission is still under way. -/
theorem Place.step (hpl : Place d s x v given)
    (hb : Beside x.caller x.envelope d r v given s y) (hd : d ≠ .serial)
    (hi : d.pool = .parallel ∨ x.envelope.program.IgnoresThread) (hl : s.Level d r a)
    (hs : s.step? a = some t) {stage : CallStage} (hx' : { x with stage := stage } ∈ t.calls)
    (hsame : a ≠ .call x.caller → stage = x.stage)
    (hr : ∀ p id, Occupied s x p → p.id? = some id → r = .ok (State.ticket id x.envelope)) :
    ∃ bs v' given' y', y.after? bs = some y' ∧
      bs.filter (Action.isOther x.caller) = [a].filter (Action.isOther x.caller) ∧
      Place d t { x with stage := stage } v' given' ∧
      Beside x.caller x.envelope d r v' given' t y' := by
  have hother : a ≠ .call x.caller → (a ≠ .worker ∨ x.isDecided = false) →
      ∃ bs v' given' y', y.after? bs = some y' ∧
        bs.filter (Action.isOther x.caller) = [a].filter (Action.isOther x.caller) ∧
        Place d t { x with stage := stage } v' given' ∧
        Beside x.caller x.envelope d r v' given' t y' := by
    intro hc hw
    obtain rfl := hsame hc
    obtain ⟨y', hy, hpl', hb'⟩ := hpl.other h hx hb hi hl hs hc hw hx'
    exact ⟨[a], v, given, y', after?_cons hy [], rfl, hpl', hb'⟩
  have hnone : a = .call x.caller ∨ a = .worker → [a].filter (Action.isOther x.caller) = [] := by
    rintro (rfl | rfl) <;> simp [Action.isOther]
  cases hpl with
  | before hn =>
    by_cases hc : a = .call x.caller
    · subst hc
      obtain ⟨bs, v', y', hy, hf, hpl', hb'⟩ := Place.ofBefore h hx he hp hb hn hs hx'
      exact ⟨bs, v', [], y', hy, hf.trans (hnone (.inl rfl)).symm, hpl', hb'⟩
    · exact hother hc (.inr hn)
  | inside ho =>
    by_cases ha : a = .call x.caller ∨ a = .worker
    · rw [hnone ha]
      exact Place.ofInside h hx ho hb hd hs ha hx' fun id => hr _ id ho
    · rw [not_or] at ha
      exact hother ha.1 (.inl ha.2)

/-- The step that answers the submission. -/
theorem Place.reply (hpl : Place d s x v given) (hb : Beside x.caller x.envelope d r v given s y)
    (hn : r ≠ .error .dispatchClosed) (hm : Reply s x r t) :
    ∃ bs y', y.after? bs = some y' ∧ bs.filter (Action.isOther x.caller) = [] ∧
      Beside x.caller x.envelope d r (.settled r d.pool) [] t y' := by
  cases hpl with
  | inside ho =>
    obtain ⟨id, rfl, rfl, rfl⟩ := ho.of_reply h hm
    exact ⟨[], y, rfl, rfl, hb.settle h.coherent ho rfl rfl⟩
  | before hd =>
    cases hm with
    | refused href =>
      cases href with
      | noPool _ hnone =>
        rw [he] at hnone
        cases hnone
      | noCallback hst _ hw =>
        obtain ⟨y', hy, hb'⟩ := hb.refuse h.coherent hx hp rfl hst hw
        exact ⟨[.call x.caller], y', after?_cons hy [], by simp [Action.isOther], hb'⟩
      | closed => exact absurd rfl hn
    | launched hst | received hst => simp [Call.isDecided, hst] at hd

end own

/-- A submission through the dispatch, step by step beside the same one by the way `d`. -/
theorem State.Settles.exists_beside (hd : d ≠ .serial) {last : State} (h : s.Reachable)
    (hx : x ∈ s.calls) (hs : s.Settles x.caller as r last) (hn : r ≠ .error .dispatchClosed) :
    x.entry = .serial → (s.pools.get? d.pool).isSome →
    (d.pool = .parallel ∨ x.envelope.program.IgnoresThread) → s.Along (State.Level d r) as →
    ∀ v given y, Place d s x v given → Beside x.caller x.envelope d r v given s y →
    ∃ bs y', y.after? bs = some y' ∧
      bs.filter (Action.isOther x.caller) = as.filter (Action.isOther x.caller) ∧
      Beside x.caller x.envelope d r (.settled r d.pool) [] last y' := by
  -- beside the run it is kept that the id in the dispatch is that of the answer
  refine And.right (a := ∀ p id, Occupied s x p → p.id? = some id →
    r = .ok (State.ticket id x.envelope)) ?_
  refine State.Settles.induct
    (P := fun s x as => (∀ p id, Occupied s x p → p.id? = some id →
      r = .ok (State.ticket id x.envelope)) ∧ (x.entry = .serial → (s.pools.get? d.pool).isSome →
        (d.pool = .parallel ∨ x.envelope.program.IgnoresThread) → s.Along (State.Level d r) as →
          ∀ v given y, Place d s x v given → Beside x.caller x.envelope d r v given s y →
            ∃ bs y', y.after? bs = some y' ∧
              bs.filter (Action.isOther x.caller) = as.filter (Action.isOther x.caller) ∧
                Beside x.caller x.envelope d r (.settled r d.pool) [] last y'))
    (fun s x hr hx hs hm => ⟨fun p id ho hid => ?_, fun he hp _ _ v given y hpl hb => ?_⟩)
    (fun s x a t stage as hr hx hs hx' hsame ih => ?_) h hx hs
  · obtain ⟨id', rfl, hr', -⟩ := ho.of_reply hr hm
    rw [hr', Option.some.inj hid]
  · exact hpl.reply hr hx he hp hb hn hm
  · have hid : ∀ p id, Occupied s x p → p.id? = some id →
        r = .ok (State.ticket id x.envelope) := by
      intro p id ho hid
      obtain ⟨q, hq, ho'⟩ := ho.stays hr hs hx'
      exact ih.1 q id ho' (hq.id?_eq hid)
    refine ⟨hid, fun he hp hi hl v given y hpl hb => ?_⟩
    obtain ⟨bs, v', given', y', hy, hf, hpl', hb'⟩ :=
      hpl.step hr hx he hp hb hd hi hl.here hs hx' hsame hid
    obtain ⟨cs, y'', hy', hf', hb''⟩ := ih.2 he
      (((move_of_step? hs).isSome_get? _).trans hp) hi (hl.tail hs) v' given' y' hpl' hb'
    refine ⟨bs ++ cs, y'', ?_, ?_, hb''⟩
    · rw [after?_append, hy]
      exact hy'
    · rw [List.filter_append, hf, hf', ← List.filter_append, List.singleton_append]

/-! ## From then on -/

theorem spares_settled {pool : PoolName} (c : Caller) : (Detour.settled r pool).Spares c :=
  ⟨fun _ => rfl, fun _ _ => rfl⟩

section settled

variable (h : Beside c e d r (.settled r d.pool) [] s y)

include h

theorem Beside.level_iff : y.Level d r a ↔ s.Level d r a := by
  have hstage : ∀ u : Task, (u.detour (.settled r d.pool)).stage = u.stage :=
    fun u => Task.stage_detour rfl
  unfold State.Level
  rw [h.pools_eq, h.tasks_eq]
  simp only [List.forall_mem_map, Task.detour_id, hstage]

theorem Beside.keeps (hr : s.Reachable) (hi : d.pool = .parallel ∨ e.program.IgnoresThread)
    (hl : s.Level d r a) : (Detour.settled r d.pool).Keeps s a := by
  cases a with
  | submit n => exact spares_settled _
  | install | setColor | notify | openGates | shutdown | killHost | takeHandle | react => trivial
  | drop =>
    refine ⟨rfl, ?_⟩
    simp only [State.isUnused, State.detour, Detour.settled, List.filterMap_some]
    rfl
  | call c => exact ⟨spares_settled c, fun hv => by cases hv⟩
  | worker | close => rfl
  | task id =>
    refine ⟨spares_settled _, fun w hw => ?_⟩
    obtain ⟨hmem, rfl⟩ := task?_spec hw
    exact h.hides hr hi hl hmem (.inl rfl)
  | cancel id b =>
    refine ⟨spares_settled _, fun w hw => ?_⟩
    obtain ⟨hmem, rfl⟩ := task?_spec hw
    exact h.hides hr hi hl hmem (.inr ⟨b, rfl⟩)

end settled

/-- If every step of the one is a step of the other, and both note the same, then so with runs. -/
theorem State.Along.follow {P : State → Action → Prop} {R : State → State → Prop}
    (step : ∀ s y a t, R s y → P s a → s.step? a = some t →
      ∃ ms y', y.step? a = some y' ∧ t.journal = ms ++ s.journal ∧ y'.journal = ms ++ y.journal ∧
        R t y')
    (hl : s.Along P as) (h : R s y) (hs : s.after? as = some t) :
    ∃ ms y', y.after? as = some y' ∧ t.journal = ms ++ s.journal ∧ y'.journal = ms ++ y.journal ∧
      R t y' := by
  induction as generalizing s y with
  | nil =>
    obtain rfl := Option.some.inj hs
    exact ⟨[], y, rfl, rfl, rfl, h⟩
  | cons a as ih =>
    obtain ⟨w, hw, hs⟩ := Option.bind_eq_some_iff.mp hs
    obtain ⟨ms, y₁, hy, hj, hj', h₁⟩ := step s y a w h hl.here hw
    obtain ⟨ns, y', hy', hk, hk', h'⟩ := ih (hl.tail hw) h₁ hs
    refine ⟨ns ++ ms, y', (after?_cons hy as).trans hy', ?_, ?_, h'⟩
    · rw [hk, hj, List.append_assoc]
    · rw [hk', hj', List.append_assoc]

/-- Once it is answered, every run of the one is a run of the other. -/
theorem Beside.after (hi : d.pool = .parallel ∨ e.program.IgnoresThread) (hr : s.Reachable)
    (h : Beside c e d r (.settled r d.pool) [] s y) (hs : s.after? as = some t)
    (hl : s.Along (State.Level d r) as) :
    ∃ ms y', y.after? as = some y' ∧ t.journal = ms ++ s.journal ∧ y'.journal = ms ++ y.journal ∧
      t.Reachable ∧ Beside c e d r (.settled r d.pool) [] t y' := by
  refine hl.follow (R := fun s y => s.Reachable ∧ Beside c e d r (.settled r d.pool) [] s y)
    ?_ ⟨hr, h⟩ hs
  rintro s y a t ⟨hr, h⟩ hl hs
  obtain ⟨ms, y', hy, hb, hj, hj'⟩ := h.forth hr (h.keeps hr hi hl) hs (.inl rfl)
  exact ⟨ms, y', hy, hj, hj', hr.step hs, hb⟩

theorem Beside.after_back (hi : d.pool = .parallel ∨ e.program.IgnoresThread) (hr : s.Reachable)
    (h : Beside c e d r (.settled r d.pool) [] s y) (hs : y.after? as = some y')
    (hl : y.Along (State.Level d r) as) :
    ∃ ms t, s.after? as = some t ∧ y'.journal = ms ++ y.journal ∧ t.journal = ms ++ s.journal ∧
      t.Reachable ∧ Beside c e d r (.settled r d.pool) [] t y' := by
  refine hl.follow (R := fun y s => s.Reachable ∧ Beside c e d r (.settled r d.pool) [] s y)
    ?_ ⟨hr, h⟩ hs
  rintro y s a y' ⟨hr, h⟩ hl hs
  obtain ⟨ms, t, ht, hb, hj, hj'⟩ := h.back hr (h.keeps hr hi (h.level_iff.mp hl)) hs
  exact ⟨ms, t, ht, hj', hj, hr.step ht, hb⟩

/-! ## What is alike -/

/-- The relay `y` is like `s`, although the submission of `c` that was answered `r` went by the way
`d` there. -/
structure Alike (c : Caller) (e : Envelope) (d : Entry) (r : Except RelayError Ticket)
    (s y : State) : Prop where
  /-- Every task ends the same. -/
  endings : ∀ i, y.ending? i = s.ending? i
  /-- The same was notified, and callbacks were called and left the same. -/
  notifications : ∀ i, y.notifications i = s.notifications i
  notes : y.notes = s.notes
  logs : y.logs = s.logs
  /-- All figures are the same but those of submissions, which differ by this one. -/
  figures : ∀ f : Figure, f.isOfSubmissions = false → y.figure f = s.figure f
  totals : y.totals + Bill.due .serial r = s.totals + Bill.due d r
  /-- The task runs what the callable makes of the arguments. -/
  task : ∀ k, r = .ok k → ∃ u ∈ s.tasks, u.id = k.id ∧ u.caller = c ∧ u.envelope = e ∧
    u.IsFaithful ∧ { u with pool := d.pool } ∈ y.tasks
  /-- Nothing else differs. -/
  tasks : y.tasks = s.tasks.map fun u =>
    { u with pool := (movedTo d.pool r u.id).getD u.pool }
  aside : y.aside c r = s.aside c r
  rest : y = { s with counters := y.counters, tasks := y.tasks, journal := y.journal }

section settled

variable (h : Beside c e d r (.settled r d.pool) [] s y)

include h

theorem Beside.tasks_settled : y.tasks = s.tasks.map fun u =>
    { u with pool := (movedTo d.pool r u.id).getD u.pool } := by
  rw [h.tasks_eq]
  refine List.map_congr_left fun u _ => ?_
  rw [Task.detour]
  exact congrArg (Task.mk u.id u.caller u.envelope _ u.begun) u.stage.told_none

theorem Beside.totals_settled (hd : d ≠ .serial) :
    y.totals + Bill.due .serial r = s.totals + Bill.due d r := by
  have hshift := h.shift
  simp only [State.totals, h.counters_eq, h.tasks_eq, h.nextId_eq, List.length_map]
  cases r with
  | ok k =>
    simp only [Detour.settled] at hshift
    simp only [Bill.due, if_neg hd, if_true, Detour.settled, Bill.add_def, Bill.mk.injEq,
      true_and, and_true]
    omega
  | error e => rfl

theorem Beside.eq_settled :
    y = { s with counters := y.counters, tasks := y.tasks, journal := y.journal } := by
  have hn : { y.now with counters := s.counters, tasks := s.tasks } = s.now := by
    rw [h.now]
    simp only [State.detour, Detour.settled, List.filterMap_some]
    rfl
  obtain ⟨⟩ := y
  obtain ⟨⟩ := s
  simp only [State.now, State.mk.injEq] at hn ⊢
  simp only [hn, and_self]

theorem Beside.alike (hd : d ≠ .serial) (hr : s.Reachable) : Alike c e d r s y where
  endings i := by
    show y.now.ending? i = s.now.ending? i
    rw [h.now, State.ending?_detour]
  notifications i := h.filterMap_history _ fun m hm => by cases m <;> first | rfl | cases hm
  notes := h.filterMap_history _ fun m hm => by cases m <;> first | rfl | cases hm
  logs := h.filterMap_history _ fun m hm => by cases m <;> first | rfl | cases hm
  figures f hf := by
    cases f with
    | direct | dispatched => cases hf
    | completed | failed | panicked => simp only [State.figure, h.counters_eq]
    | delivered | missed => simp only [State.figure, h.registry_eq]
  totals := h.totals_settled hd
  task := by
    rintro k rfl
    have hk : movedTo d.pool (.ok k) k.id = some d.pool := if_pos rfl
    obtain ⟨-, u, hu, hid, hc, he, -⟩ := h.moved k.id d.pool hk
    refine ⟨u, hu, hid, hc, he, hr.allFaithful u hu, ?_⟩
    rw [h.tasks_settled]
    refine List.mem_map.mpr ⟨u, hu, ?_⟩
    rw [hid, hk]
    rfl
  tasks := h.tasks_settled
  aside := h.aside
  rest := h.eq_settled

end settled

/-! ## The whole -/

/-- In `s`, the caller begins to submit through the dispatch, which leads to `x`, or by the way `d`,
which leads to `y`. -/
inductive EitherWay (s : State) (d : Entry) : Caller → Envelope → State → State → Prop
  | thread {n : Nat} {e : Envelope} {x y : State} : s.step? (.submit n .serial e) = some x →
      s.step? (.submit n d e) = some y → EitherWay s d (.thread n) e x y
  | task {u : Task} {name : String} {body : Arguments → Program} {args : Arguments}
      {wake : Option WakePointer} {next : Option (Except RelayError Ticket) → Program} :
      s.task? u.id = some u → u.stage = .running (.submit .serial name body args wake next) →
      EitherWay s d (.task u.id) ⟨⟨name, body⟩, args, wake⟩
        (s.stepProgram u (.submit .serial name body args wake next))
        (s.stepProgram u (.submit d name body args wake next))

theorem beside_ask (hc : c ∉ s.calls.map Call.caller) (e : Envelope) :
    Beside c e d r (.standing ⟨c, d, e, .asked⟩ false 0) [] (s.ask c .serial e) (s.ask c d e) := by
  refine .of_standing ?_ (Nat.zero_le _) ?_ ?_
  · have hcalls : s.calls.filterMap (Detour.standing ⟨c, d, e, .asked⟩ false 0).call = s.calls := by
      refine (List.filterMap_congr fun w hw => ?_).trans s.calls.filterMap_some
      exact if_neg fun hn : w.caller = c => hc (hn ▸ List.mem_map_of_mem hw)
    have hlast : [Call.mk c .serial e .asked].filterMap
        (Detour.standing ⟨c, d, e, .asked⟩ false 0).call = [⟨c, d, e, .asked⟩] := by
      simp [Detour.standing]
    simp only [State.ask, State.note, State.now, State.detour, List.filterMap_append, hcalls, hlast,
      State.tasks_detour_standing]
    rfl
  · exact (answersTo_of_other (s := s) rfl rfl).trans (answersTo_of_other (s := s) rfl rfl).symm
  · simp [State.aside, State.ask, State.note, Mark.isWayOf]

/-- Both begin as calls of one state, which is that of the beginning as far as refusals go. -/
theorem EitherWay.exists_ask {x y : State} (h : s.Reachable) (ho : s.dispatch.isOpen)
    (hf : EitherWay s d c e x y) :
    x.Reachable ∧ ∃ w : State, x = w.ask c .serial e ∧ y = w.ask c d e ∧
      c ∉ w.calls.map Call.caller ∧ w.pools = s.pools ∧ w.registry = s.registry ∧
        w.dispatch = s.dispatch := by
  cases hf with
  | @thread n e x y hx hy =>
    refine ⟨h.step hx, s, ?_⟩
    cases move_of_step? hx with
    | outside m => cases m
    | task _ m => cases m
    | ask hd hn =>
      cases move_of_step? hy with
      | outside m => cases m
      | task _ m => cases m
      | ask => exact ⟨rfl, rfl, not_mem_callers hn, rfl, rfl, rfl⟩
  | @task u name body args wake next hu hs =>
    have hd : s.dropped = false := by
      by_contra hd
      rw [(h.abandoned (by simpa using hd)).isOpen] at ho
      cases ho
    have hmem := (task?_spec hu).1
    refine ⟨h.step (a := .task u.id) ?_, s.setStage u.id (.submitting next), ?_⟩
    · rw [h.coherent.step?_task hmem, State.stepTask?, hs]
    · simp only [State.stepProgram, hd, Bool.false_eq_true, if_false, true_and]
      exact ⟨h.coherent.not_asking hmem hs, rfl, rfl, rfl⟩

/-- In every run of either from here on the two stay alike. -/
structure StayAlike (c : Caller) (e : Envelope) (d : Entry) (r : Except RelayError Ticket)
    (t u : State) : Prop where
  forth : ∀ as t', t.after? as = some t' → t.Along (State.Level d r) as →
    ∃ ms u', u.after? as = some u' ∧ t'.journal = ms ++ t.journal ∧ u'.journal = ms ++ u.journal ∧
      Alike c e d r t' u'
  back : ∀ as u', u.after? as = some u' → u.Along (State.Level d r) as →
    ∃ ms t', t.after? as = some t' ∧ t'.journal = ms ++ t.journal ∧ u'.journal = ms ++ u.journal ∧
      Alike c e d r t' u'

/-- What the way through the dispatch has in common with the way `d`. -/
structure Refines (s : State) (c : Caller) (e : Envelope) (d : Entry) (x y : State) : Prop where
  /-- As things are, either is accepted, or refused for want of a callback. -/
  decision : ∀ entry, entry = .serial ∨ entry = d → s.refusal? entry e.wake =
    if s.registry.ready e.wake then none else some .wakeCallbackMissing
  /-- The submission through the dispatch can be answered so, whatever tasks and threads outside
  do. -/
  possible : ∃ as r t, (∀ a ∈ as, a.isOfFront) ∧ x.Settles c as r t ∧
    x.Along (State.Level d r) as ∧ refusalIn r = s.refusal? d e.wake
  /-- It is refused for nothing else, unless the dispatch is closed before it has the lock. -/
  refused : ∀ as err t, x.Settles c as (.error err) t → err = .wakeCallbackMissing ∨
    err = .dispatchClosed ∧ ∃ bs cs w, as = bs ++ cs ∧ x.after? bs = some w ∧
      w.dispatch.isOpen = false
  /-- Whatever it is answered otherwise, the same is answered by the way `d` while everybody else
  does the same, and from then on the two relays stay alike. -/
  simulated : ∀ as r t, x.Settles c as r t → r ≠ .error .dispatchClosed →
    x.Along (State.Level d r) as → ∃ bs u, y.after? bs = some u ∧
      bs.filter (Action.isOther c) = as.filter (Action.isOther c) ∧
      u.answersTo c = y.answersTo c ++ [r] ∧ StayAlike c e d r t u

/-- What a submission is refused for while the dispatch is open. -/
theorem State.refusal?_of_isOpen (ho : s.dispatch.isOpen) (hp : (s.pools.get? d.pool).isSome)
    (w : Option WakePointer) :
    s.refusal? d w = if s.registry.ready w then none else some .wakeCallbackMissing := by
  have hn : (s.pools.get? d.pool).isNone = false := by
    rw [← Option.not_isSome, hp]
    rfl
  rw [State.refusal?, hn, ho]
  cases s.registry.ready w <;> simp

theorem State.Settles.refused {err : RelayError} (h : s.Reachable) (hx : x ∈ s.calls)
    (he : x.entry = .serial) (hn : x.isDecided = false)
    (hs : s.Settles x.caller as (.error err) t) :
    err = .wakeCallbackMissing ∨ err = .dispatchClosed ∧
      ∃ bs cs w, as = bs ++ cs ∧ s.after? bs = some w ∧ w.dispatch.isOpen = false := by
  obtain ⟨bs, cs, w, rfl, hw, hr⟩ := hs.exists_decides h hx hn
  rw [he, State.refusal?, refusalIn] at hr
  split_ifs at hr with h1 h2 h3
  · cases h1
  · exact .inl (Option.some.inj hr).symm
  · exact .inr ⟨(Option.some.inj hr).symm, bs, cs, w, rfl, hw, h3.2⟩

theorem refines {x y : State} (h : s.Reachable) (ho : s.dispatch.isOpen)
    (hp : (s.pools.get? d.pool).isSome)
    (hd : d = .direct ∨ d ≠ .serial ∧ e.program.IgnoresThread) (hf : EitherWay s d c e x y) :
    Refines s c e d x y := by
  obtain ⟨hxr, w, rfl, rfl, hc, hpools, hreg, hdisp⟩ := hf.exists_ask h ho
  have hx : Call.mk c .serial e .asked ∈ (w.ask c .serial e).calls := w.mem_ask.mpr (.inr rfl)
  have hns : d ≠ .serial := by
    rcases hd with rfl | hd
    · simp
    · exact hd.1
  have hi : d.pool = .parallel ∨ e.program.IgnoresThread :=
    hd.imp (fun hd => by rw [hd]; rfl) And.right
  have hdec : ∀ entry, entry = .serial ∨ entry = d → s.refusal? entry e.wake =
      if s.registry.ready e.wake then none else some .wakeCallbackMissing := by
    rintro entry (rfl | rfl)
    · exact s.refusal?_of_isOpen ho rfl _
    · exact s.refusal?_of_isOpen ho hp _
  have hsame : (w.ask c .serial e).refusal? .serial e.wake = s.refusal? .serial e.wake := by
    rw [State.refusal?, State.refusal?, ← hpools, ← hreg, ← hdisp]
    rfl
  refine ⟨hdec, ?_, fun as err t hset => hset.refused hxr hx rfl rfl, fun as r t hset hn hl => ?_⟩
  · obtain ⟨as, r, t, hfront, hset⟩ := hxr.exists_settles hx
    refine ⟨as, r, t, hfront, hset, ?_, ?_⟩
    · rintro bs a cs w' rfl - k - u - - p -
      have hfa := hfront a (by simp)
      refine ⟨?_, fun b => ?_⟩
      · rintro rfl
        cases hfa
      · rintro rfl
        cases hfa
    · obtain ⟨cs, ds, w', rfl, hw', hr⟩ := hset.exists_decides hxr hx rfl
      rw [← hr, refusal?_of_front (fun a ha => hfront a (List.mem_append_left _ ha)) hw', hsame,
        hdec _ (.inl rfl), hdec _ (.inr rfl)]
  · have hb₀ := beside_ask (s := w) (d := d) (r := r) hc e
    obtain ⟨bs, u, hu, hfilter, hb⟩ := hset.exists_beside hns hxr hx hn rfl (hpools ▸ hp) hi hl
      _ _ _ (.before rfl) hb₀
    have htr := hxr.after hset.after?
    have hans : t.answersTo c = (w.ask c .serial e).answersTo c ++ [r] := by
      obtain ⟨-, -, -, -, hans⟩ := hset
      exact hans
    refine ⟨bs, u, hu, hfilter, ?_, fun cs t' ht hl => ?_, fun cs u' hu' hl => ?_⟩
    · rw [hb.answers, hans, hb₀.answers, List.append_nil, List.append_nil]
    · obtain ⟨ms, u', hu', hj, hj', hr', hb'⟩ := hb.after hi htr ht hl
      exact ⟨ms, u', hu', hj, hj', hb'.alike hns hr'⟩
    · obtain ⟨ms, t', ht, hj, hj', hr', hb'⟩ := hb.after_back hi htr hu' hl
      exact ⟨ms, t', ht, hj', hj, hb'.alike hns hr'⟩

theorem Program.IgnoresThread.of_next {p : Program} (h : ∀ q, p.Next q → q.IgnoresThread)
    (hp : ∀ next, p = .onThread next → ∀ th th', next th = next th') : p.IgnoresThread := by
  intro next hf
  rcases Relation.ReflTransGen.cases_head hf with rfl | ⟨q, hq, hf⟩
  · exact hp next rfl
  · exact h q hq next hf

theorem ignoresThread_gated (o : Outcome) (wake : Option WakePointer) :
    (Envelope.gated (.finish o) wake).program.IgnoresThread := by
  have hfinish : (Program.finish o).IgnoresThread :=
    .of_next (fun q hq => nomatch hq) fun _ hn => nomatch hn
  exact .of_next (fun q hq => by cases hq; exact hfinish) fun _ hn => nomatch hn

/-- Another thread has the submit lock, and the worker its envelope. -/
def handingOver : List Action :=
  .install Observer.first.callback :: .submit 1 .serial (.comingTo (.value .null) none) ::
    List.replicate 3 (.call (.thread 1)) ++ [.worker]

theorem refines_handingOver : ∃ s x y, State.plain.after? handingOver = some s ∧
    s.dispatch.holder = some (.thread 1) ∧
    EitherWay s .single (.thread 0) (.gated (.finish (.value .null)) (WakePointer.ofAddress? 8))
      x y ∧
    Refines s (.thread 0) (.gated (.finish (.value .null)) (WakePointer.ofAddress? 8)) .single
      x y := by
  obtain ⟨s, hs, hr, hholder, ho, hp, hx, hy⟩ := exists_run (P := fun s =>
    s.dispatch.holder = some (.thread 1) ∧ s.dispatch.isOpen ∧ (s.pools.get? .single).isSome ∧
    (s.step? (.submit 0 .serial (.gated (.finish (.value .null))
      (WakePointer.ofAddress? 8)))).isSome ∧
    (s.step? (.submit 0 .single (.gated (.finish (.value .null))
      (WakePointer.ofAddress? 8)))).isSome) handingOver (by decide +kernel)
  obtain ⟨x, hx⟩ := Option.isSome_iff_exists.mp hx
  obtain ⟨y, hy⟩ := Option.isSome_iff_exists.mp hy
  exact ⟨s, x, y, hs, hholder, .thread hx hy,
    refines hr ho hp (.inr ⟨by simp, ignoresThread_gated _ _⟩) (.thread hx hy)⟩

/-- All steps of a submission through the dispatch. -/
def throughDispatch : List Action :=
  List.replicate 3 (.call (.thread 0)) ++ List.replicate 5 .worker ++
    List.replicate 2 (.call (.thread 0))

/-- The task is at its gate when the relay is given up, and then goes on. -/
def gateAfterDrop : List Action :=
  [.task 0, .task 0, .drop, .openGates fun _ => true] ++ List.replicate 6 (.task 0)

/-- The task is at its gate when the relay is given up, and is dropped. -/
def cancelAfterDrop : List Action :=
  [.task 0, .task 0, .drop, .cancel 0 false] ++ List.replicate 2 (.task 0)

def closing : List Action := [.shutdown 1, .close 1]

/-- In the relay with a host's pool the task goes on after the drop if it was submitted through the
dispatch, and cannot be dropped, as it can if it was submitted to the pool for single tasks, which
the relay owns; and if the dispatch is closed in between, only the one submission is refused. -/
theorem single_afterDrop : ∃ x y t u v w v' w',
    EitherWay (.attached (.default .one)) .single (.thread 0)
      (.gated (.finish (.value .null)) none) x y ∧
    (State.attached (.default .one)).dispatch.isOpen ∧
    x.after? throughDispatch = some t ∧ y.after? (List.replicate 4 (.call (.thread 0))) = some u ∧
    t.tasks.map Task.id = [0] ∧ u.tasks.map Task.id = [0] ∧
    t.after? gateAfterDrop = some v ∧ (v.ending? 0).map Ending.fate = some .completed ∧
    u.after? cancelAfterDrop = some w ∧ (w.ending? 0).map Ending.fate = some .cancelled ∧
    t.after? cancelAfterDrop = none ∧
    x.after? (closing ++ List.replicate 2 (.call (.thread 0))) = some v' ∧
    (v'.answersTo (.thread 0)).map refusalIn = [some .dispatchClosed] ∧
    y.after? (closing ++ List.replicate 4 (.call (.thread 0))) = some w' ∧
    (w'.answersTo (.thread 0)).map refusalIn = [none] := by
  obtain ⟨x, hx, ht, hv'⟩ := exists_after? (P := fun x =>
    ((x.after? throughDispatch).any fun t =>
      t.tasks.map Task.id = [0] ∧ (t.after? cancelAfterDrop).isNone ∧
        (t.after? gateAfterDrop).any fun v => (v.ending? 0).map Ending.fate = some .completed) ∧
    (x.after? (closing ++ List.replicate 2 (.call (.thread 0)))).any fun v =>
      (v.answersTo (.thread 0)).map refusalIn = [some .dispatchClosed])
    (.attached (.default .one)) [.submit 0 .serial (.gated (.finish (.value .null)) none)]
    (by decide +kernel)
  obtain ⟨y, hy, hu, hw'⟩ := exists_after? (P := fun y =>
    ((y.after? (List.replicate 4 (.call (.thread 0)))).any fun u =>
      u.tasks.map Task.id = [0] ∧
        (u.after? cancelAfterDrop).any fun w => (w.ending? 0).map Ending.fate = some .cancelled) ∧
    (y.after? (closing ++ List.replicate 4 (.call (.thread 0)))).any fun w =>
      (w.answersTo (.thread 0)).map refusalIn = [none])
    (.attached (.default .one)) [.submit 0 .single (.gated (.finish (.value .null)) none)]
    (by decide +kernel)
  obtain ⟨t, ht, hidt, hnot, hv⟩ := exists_after? _ _ ht
  obtain ⟨u, hu, hidu, hw⟩ := exists_after? _ _ hu
  obtain ⟨v, hv, hdone⟩ := exists_after? _ _ hv
  obtain ⟨w, hw, hcancelled⟩ := exists_after? _ _ hw
  obtain ⟨v', hv', hclosed⟩ := exists_after? _ _ hv'
  obtain ⟨w', hw', htaken⟩ := exists_after? _ _ hw'
  exact ⟨x, y, t, u, v, w, v', w',
    .thread ((Option.bind_fun_some _).symm.trans hx) ((Option.bind_fun_some _).symm.trans hy), rfl,
    ht, hu, hidt, hidu, hv, hdone, hw, hcancelled,
    Option.isNone_iff_eq_none.mp hnot, hv', hclosed, hw', htaken⟩

end TaskRelay
