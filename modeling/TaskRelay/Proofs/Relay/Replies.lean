import Mathlib
import TaskRelay.Proofs.Relay.Installed
import TaskRelay.Proofs.Relay.Submissions

/-!
# When a submission is decided

A submission that is under way stays so, and is told nothing, until its own step answers it
(`Move.keeps`, `CallMove.outcome`). Some time before an acceptance, or at the very step of a
refusal, it is decided: there is one moment at which `State.refusal?` says what the answer is going
to be, and from then on the answer is certain.
-/

namespace TaskRelay

variable {s t : State} {x y : Call} {a : Action} {c : Caller}

/-! ## Answers to one caller -/

def Mark.answer? (c : Caller) : Mark → Option (Except RelayError Ticket)
  | .answered d r => if d = c then some r else none
  | _ => none

/-- What this caller was answered, from the first. -/
def State.answersTo (s : State) (c : Caller) : List (Except RelayError Ticket) :=
  s.history.filterMap (Mark.answer? c)

theorem answersTo_of_mark {m : Mark} (h : t.journal = m :: s.journal) :
    t.answersTo c = s.answersTo c ++ (m.answer? c).toList :=
  filterMap_history _ h

/-- A step that notes nothing, or something else, tells the caller nothing. -/
theorem answersTo_of_quiet (h : t.journal = s.journal) : t.answersTo c = s.answersTo c :=
  congrArg (fun l => (List.reverse l).filterMap (Mark.answer? c)) h

theorem answersTo_of_other {m : Mark} (h : t.journal = m :: s.journal) (hm : m.answer? c = none) :
    t.answersTo c = s.answersTo c := by
  rw [answersTo_of_mark h, hm, Option.toList_none, List.append_nil]

theorem answersTo_answer_self (s : State) (r : Except RelayError Ticket) :
    (s.answer c r).answersTo c = s.answersTo c ++ [r] := by
  rw [answersTo_of_mark (s.answer_journal c r)]
  simp [Mark.answer?]

theorem answersTo_answer_of_ne {d : Caller} (h : d ≠ c) (s : State)
    (r : Except RelayError Ticket) : (s.answer d r).answersTo c = s.answersTo c :=
  answersTo_of_other (s.answer_journal d r) (if_neg h)

theorem SameFront.answersTo (h : SameFront s t) (c : Caller) : t.answersTo c = s.answersTo c :=
  h.history fun m hm => by cases m <;> first | rfl | cases hm

/-! ## Moves of others -/

theorem eq_of_mem_setCall (hc : Coherent s) (hx : x ∈ s.calls) {stage : CallStage}
    (hy : y ∈ (s.setCall x.caller stage).calls) (he : y.caller = x.caller) :
    y = { x with stage := stage } :=
  (eq_or_ne_of_mem_setCall hc hx hy).resolve_right fun hn => hn.2 he

theorem not_mem_answer (he : y.caller = c) (s : State) (r : Except RelayError Ticket) :
    y ∉ (s.answer c r).calls :=
  fun h => ((s.mem_answer _ _).mp h).2 he

/-- The step of one submission leaves the others under way, and tells them nothing. -/
theorem CallMove.others (m : CallMove s x t) (hne : x.caller ≠ c) :
    t.answersTo c = s.answersTo c ∧ ∀ y ∈ s.calls, y.caller = c → y ∈ t.calls := by
  have hset : ∀ stage, ∀ y ∈ s.calls, y.caller = c → y ∈ (s.setCall x.caller stage).calls :=
    fun stage y hy hc => mem_setCall_of_ne hy (hc ▸ hne.symm)
  have hans : ∀ u : State, u.calls = s.calls → ∀ r, ∀ y ∈ s.calls, y.caller = c →
      y ∈ (u.answer x.caller r).calls := by
    intro u hu r y hy hc
    rw [State.mem_answer, hu]
    exact ⟨hy, hc ▸ hne.symm⟩
  cases m with
  | refuse => exact ⟨answersTo_answer_of_ne hne s _, hans s rfl _⟩
  | allow | number | count => exact ⟨answersTo_of_quiet rfl, hset _⟩
  | lock | send | receive => exact ⟨answersTo_of_other rfl rfl, hset _⟩
  | launch =>
    refine ⟨(answersTo_answer_of_ne hne _ _).trans ?_, hans (s.launch _ _ _ _) rfl _⟩
    exact answersTo_of_other rfl rfl
  | abandon | unlock =>
    refine ⟨(answersTo_answer_of_ne hne _ _).trans ?_, hans (s.setHolder none) rfl _⟩
    exact answersTo_of_quiet rfl

/-- The step of another submission leaves alone what is in the dispatch for the holder of the
lock. -/
theorem CallMove.dispatch_eq (hh : Handover s) (hy : y ∈ s.calls) (m : CallMove s y t)
    (hx : x ∈ s.calls) (hi : x.stage.isInside) (hne : y.caller ≠ x.caller) :
    t.dispatch = s.dispatch := by
  obtain ⟨p, hp⟩ := hh.occupied hx hi
  have ho := hp.others y hy hne
  cases m with
  | refuse | launch => exact State.answer_dispatch _ _ _
  | allow | number | count => rfl
  | lock _ _ hn =>
    rw [hp.holder] at hn
    cases hn
  | abandon _ hs => rcases hs with hs | ⟨hs, -⟩ <;> rw [hs] at ho <;> cases ho
  | send hs | receive hs | unlock hs =>
    rw [hs] at ho
    cases ho

theorem WorkerMove.front_eq (m : WorkerMove s t) (c : Caller) :
    t.answersTo c = s.answersTo c ∧ t.calls = s.calls := by
  cases m with
  | take | leave | number | count | lose => exact ⟨answersTo_of_quiet rfl, rfl⟩
  | launch | publish => exact ⟨answersTo_of_other rfl rfl, rfl⟩

/-- Only its own step answers a submission or takes it off. -/
theorem Move.keeps (m : Move s a t) (ha : a ≠ .call c) :
    t.answersTo c = s.answersTo c ∧ ∀ y ∈ s.calls, y.caller = c → y ∈ t.calls := by
  cases m with
  | outside m => exact ⟨m.sameFront.answersTo c, fun y hy _ => m.sameFront.calls ▸ hy⟩
  | ask => exact ⟨answersTo_of_other rfl rfl, fun y hy _ => (s.mem_ask).mpr (.inl hy)⟩
  | @askInside x entry name body args wake next =>
    refine ⟨(answersTo_of_other rfl rfl).trans ?_, fun y hy _ => (State.mem_ask _).mpr (.inl hy)⟩
    exact answersTo_of_quiet rfl
  | call hx m => exact m.others fun e => ha (congrArg Action.call e)
  | worker m =>
    obtain ⟨ha, hc⟩ := m.front_eq c
    exact ⟨ha, fun y hy _ => hc ▸ hy⟩
  | close => exact ⟨answersTo_of_other rfl rfl, fun y hy _ => hy⟩
  | drop => exact ⟨answersTo_of_quiet rfl, fun y hy _ => hy⟩
  | task _ m => exact ⟨m.sameFront.answersTo c, fun y hy _ => m.sameFront.calls ▸ hy⟩

/-! ## The decision -/

/-- Why a submission of this kind would be refused if all were decided now. -/
def State.refusal? (s : State) (entry : Entry) (wake : Option WakePointer) : Option RelayError :=
  if (s.pools.get? entry.pool).isNone then some entry.missingPool
  else if !s.registry.ready wake then some .wakeCallbackMissing
  else if entry = .serial ∧ s.dispatch.isOpen = false then some .dispatchClosed
  else none

/-- The submission is past all refusals. -/
def Call.isDecided (x : Call) : Bool :=
  match x.stage with
  | .asked => false
  | .admitted => x.entry != .serial
  | _ => true

/-- The pool is there, and so is a callback if one is needed. -/
def State.Admits (s : State) (x : Call) : Prop :=
  (s.pools.get? x.entry.pool).isSome ∧ s.registry.ready x.envelope.wake

theorem refusal?_of_admits (h : s.Admits x) :
    s.refusal? x.entry x.envelope.wake =
      if x.entry = .serial ∧ s.dispatch.isOpen = false then some .dispatchClosed else none := by
  have hp : (s.pools.get? x.entry.pool).isNone = false := by
    rw [← Option.not_isSome, h.1]
    rfl
  rw [State.refusal?, if_neg (by simp [hp]), if_neg (by simp [h.2])]

/-! ## Who was admitted still would be -/

theorem Pools.isSome_get?_release (p : Pools) (n : PoolName) :
    (p.release.get? n).isSome = (p.get? n).isSome := by
  cases n <;> simp [Pools.get?, Pools.release]

theorem Pools.isSome_get?_killHost (p : Pools) (n : PoolName) :
    (p.killHost.get? n).isSome = (p.get? n).isSome := by
  cases n <;> simp [Pools.get?, Pools.killHost]

theorem CallMove.pools_eq (m : CallMove s x t) : t.pools = s.pools := by
  cases m with
  | refuse | launch | abandon | unlock => exact State.answer_pools _ _ _
  | _ => rfl

theorem WorkerMove.pools_eq (m : WorkerMove s t) : t.pools = s.pools := by
  cases m <;> rfl

theorem TaskMove.pools_eq {u : Task} (m : TaskMove s u a t) : t.pools = s.pools := by
  cases m with
  | notify | react => simp only [State.afterTurn, State.noteSigns_eq, State.setStage, State.note]
  | _ => rfl

/-- No pool comes or goes; it may end. -/
theorem Move.isSome_get? (m : Move s a t) (n : PoolName) :
    (t.pools.get? n).isSome = (s.pools.get? n).isSome := by
  cases m with
  | outside m =>
    cases m with
    | killHost => exact s.pools.isSome_get?_killHost n
    | notify | react => simp only [State.afterTurn, State.noteSigns_eq, State.note]
    | _ => rfl
  | call _ m => rw [m.pools_eq]
  | worker m => rw [m.pools_eq]
  | drop => exact s.pools.isSome_get?_release n
  | task _ m => rw [m.pools_eq]
  | ask | askInside | close => rfl

theorem Move.ready (m : Move s a t) {wake : Option WakePointer} (h : s.registry.ready wake) :
    t.registry.ready wake := by
  rw [Registry.ready, Bool.or_eq_true] at h ⊢
  exact h.imp id m.isInstalled

theorem Move.admits (m : Move s a t) (h : s.Admits x) : t.Admits x :=
  ⟨(m.isSome_get? _).trans h.1, m.ready h.2⟩

/-- Every submission that is past its first step was admitted. -/
theorem State.Reachable.admitted (h : s.Reachable) :
    ∀ y ∈ s.calls, y.stage ≠ .asked → s.Admits y := by
  refine State.Reachable.induct (P := fun s => ∀ y ∈ s.calls, y.stage ≠ .asked → s.Admits y)
    (fun pools color => by simp [State.start]) (fun s a t hr ih m => ?_) h
  have hc := hr.coherent
  -- it was under way before and is what it was, or it is the one that moves
  have hold : ∀ y ∈ s.calls, y.stage ≠ .asked → t.Admits y :=
    fun y hy hs => m.admits (ih y hy hs)
  have hset : ∀ {x : Call} {stage : CallStage}, x ∈ s.calls → s.Admits x →
      t.calls = (s.setCall x.caller stage).calls →
        ∀ y ∈ t.calls, y.stage ≠ .asked → t.Admits y := by
    intro x stage hx ha he y hy hs
    rw [he] at hy
    rcases eq_or_ne_of_mem_setCall hc hx hy with rfl | ⟨hy, -⟩
    · exact m.admits (x := { x with stage := stage }) ha
    · exact hold y hy hs
  have hsub : (∀ y ∈ t.calls, y ∈ s.calls) → ∀ y ∈ t.calls, y.stage ≠ .asked → t.Admits y :=
    fun he y hy hs => hold y (he y hy) hs
  have hask : ∀ (u : State) c entry e, u.calls = s.calls → t.calls = (u.ask c entry e).calls →
      ∀ y ∈ t.calls, y.stage ≠ .asked → t.Admits y := by
    intro u c entry e hu he y hy hs
    rw [he] at hy
    rcases u.mem_ask.mp hy with hy | rfl
    · exact hold y (hu ▸ hy) hs
    · exact absurd rfl hs
  cases m with
  | outside m => exact hsub fun y hy => m.sameFront.calls ▸ hy
  | ask => exact hask s _ _ _ rfl rfl
  | askInside => exact hask (s.setStage _ _) _ _ _ rfl rfl
  | @call x _ hx m =>
    have hx := (call?_spec hx).1
    have hin : x.stage ≠ .asked → s.Admits x := ih x hx
    cases m with
    | refuse | launch | abandon | unlock =>
      exact hsub fun y hy => ((State.mem_answer _ _ _).mp hy).1
    | allow _ hp hr => exact hset hx ⟨hp, hr⟩ rfl
    | lock hs | number hs | count hs | send hs | receive hs =>
      exact hset hx (hin (by rw [hs]; simp)) rfl
  | worker m => exact hsub fun y hy => (m.front_eq y.caller).2 ▸ hy
  | close | drop => exact hsub fun y hy => hy
  | task _ m => exact hsub fun y hy => m.sameFront.calls ▸ hy

/-! ## What its own step does to a submission -/

/-- A step of a submission that answers it. -/
inductive Reply (s : State) (x : Call) : Except RelayError Ticket → State → Prop
  | refused {e : RelayError} : Refusal s x e →
      Reply s x (.error e) (s.answer x.caller (.error e))
  | launched {id : Nat} : x.stage = .counted id →
      Reply s x (.ok (State.ticket id x.envelope))
        ((s.launch id x.caller x.entry.pool x.envelope).answer x.caller
          (.ok (State.ticket id x.envelope)))
  | received {k : Ticket} : x.stage = .received k →
      Reply s x (.ok k) ((s.setHolder none).answer x.caller (.ok k))

/-- The refusal that an answer is, if it is one. -/
def refusalIn : Except RelayError Ticket → Option RelayError
  | .ok _ => none
  | .error e => some e

theorem Refusal.isDecided {e : RelayError} (h : Refusal s x e) : x.isDecided = false := by
  cases h with
  | noPool hs | noCallback hs => rw [Call.isDecided, hs]
  | closed hs he => simp [Call.isDecided, hs, he]

theorem Refusal.refusal?_eq (h : s.Reachable) (hx : x ∈ s.calls) {e : RelayError}
    (hr : Refusal s x e) : s.refusal? x.entry x.envelope.wake = some e := by
  cases hr with
  | noPool _ hp => simp [State.refusal?, hp]
  | noCallback _ hp hw =>
    have hp' : (s.pools.get? x.entry.pool).isNone = false := by
      rw [← Option.not_isSome, hp]
      rfl
    simp [State.refusal?, hp', hw]
  | closed hs he _ ho =>
    rw [refusal?_of_admits (h.admitted x hx (by rw [hs]; simp)), if_pos ⟨he, ho⟩]

/-- A step of a submission answers it, or takes it on; on the way it is decided once. -/
theorem CallMove.outcome (h : s.Reachable) (hx : x ∈ s.calls) (m : CallMove s x t) :
    (∃ r, Reply s x r t ∧ t.answersTo x.caller = s.answersTo x.caller ++ [r] ∧
      ∀ z ∈ t.calls, z.caller ≠ x.caller) ∨
    (t.answersTo x.caller = s.answersTo x.caller ∧
      ∃ stage, { x with stage := stage } ∈ t.calls ∧
        (x.isDecided → Call.isDecided { x with stage := stage }) ∧
        (Call.isDecided { x with stage := stage } → x.isDecided = false →
          s.refusal? x.entry x.envelope.wake = none)) := by
  have hgone : ∀ (u : State) r, ∀ z ∈ (u.answer x.caller r).calls, z.caller ≠ x.caller :=
    fun u r z hz he => not_mem_answer he u r hz
  cases m with
  | refuse hr => exact .inl ⟨_, .refused hr, answersTo_answer_self s _, hgone s _⟩
  | allow hs hp hr =>
    refine .inr ⟨answersTo_of_quiet rfl, _, mem_setCall_self hx _, ?_, fun hd _ => ?_⟩
    · rw [Call.isDecided, hs]
      exact fun hd => by cases hd
    · rw [refusal?_of_admits ⟨hp, hr⟩, if_neg]
      have he : x.entry ≠ .serial := by simpa [Call.isDecided] using hd
      exact fun hc => he hc.1
  | lock hs he _ ho =>
    refine .inr ⟨answersTo_of_other rfl rfl, _, mem_setCall_self hx _, fun _ => rfl, fun _ _ => ?_⟩
    rw [refusal?_of_admits (h.admitted x hx (by rw [hs]; simp)), if_neg]
    simp [ho]
  | number hs he =>
    refine .inr ⟨answersTo_of_quiet rfl, _, mem_setCall_self hx _, fun _ => rfl, fun _ hd => ?_⟩
    simp [Call.isDecided, hs, he] at hd
  | count hs =>
    refine .inr ⟨answersTo_of_quiet rfl, _, mem_setCall_self hx _, fun _ => rfl, fun _ hd => ?_⟩
    simp [Call.isDecided, hs] at hd
  | launch hs =>
    refine .inl ⟨_, .launched hs, (answersTo_answer_self _ _).trans ?_, hgone _ _⟩
    exact congrArg (· ++ [_]) (answersTo_of_other rfl rfl)
  | abandon hw hs => exact absurd hw (h.handover.worker_ne_gone hx hs)
  | send hs | receive hs =>
    refine .inr ⟨answersTo_of_other rfl rfl, _, mem_setCall_self hx _, fun _ => rfl, fun _ hd => ?_⟩
    simp [Call.isDecided, hs] at hd
  | unlock hs =>
    refine .inl ⟨_, .received hs, (answersTo_answer_self _ _).trans ?_, hgone _ _⟩
    exact congrArg (· ++ [_]) (answersTo_of_quiet rfl)

theorem CallMove.reply (h : s.Reachable) (hx : x ∈ s.calls) (m : CallMove s x t)
    {r : Except RelayError Ticket} (hr : t.answersTo x.caller = s.answersTo x.caller ++ [r]) :
    Reply s x r t := by
  rcases m.outcome h hx with ⟨r', hrep, hr', -⟩ | ⟨hq, -⟩
  · obtain rfl : r' = r := by simpa [hr] using hr'.symm
    exact hrep
  · rw [hr] at hq
    simp at hq

theorem Reply.isDecided {k : Ticket} (h : Reply s x (.ok k) t) : x.isDecided := by
  cases h with
  | launched hs | received hs => rw [Call.isDecided, hs]

/-! ## Along a run -/

theorem Move.history_isPrefix (m : Move s a t) : s.history <+: t.history := by
  obtain ⟨ms, hm⟩ := m.tallied
  exact ⟨ms.reverse, by rw [State.history, State.history, hm.journal, List.reverse_append]⟩

theorem Leads.history_isPrefix (h : Leads s t) : s.history <+: t.history := by
  induction h with
  | here => exact List.prefix_rfl
  | step _ hs ih => exact ih.trans (move_of_step? hs).history_isPrefix

theorem Leads.answersTo_isPrefix (h : Leads s t) (c : Caller) : s.answersTo c <+: t.answersTo c :=
  h.history_isPrefix.filterMap _

theorem not_leads_of_answered {r : Except RelayError Ticket} {u : State}
    (h : t.answersTo c = s.answersTo c ++ [r]) (hu : u.answersTo c = s.answersTo c) :
    ¬ Leads t u := by
  intro hl
  have := (hl.answersTo_isPrefix c).length_le
  rw [h, hu, List.length_append, List.length_singleton] at this
  omega

/-- These steps do not answer the submission of `c` under way, and then a step of it does. -/
def State.Settles (s : State) (c : Caller) (as : List Action) (r : Except RelayError Ticket)
    (t : State) : Prop :=
  ∃ v, s.after? as = some v ∧ v.answersTo c = s.answersTo c ∧ v.step? (.call c) = some t ∧
    t.answersTo c = s.answersTo c ++ [r]

theorem State.Settles.cons (ha : s.step? a = some t) (hn : t.answersTo c = s.answersTo c)
    {as : List Action} {r : Except RelayError Ticket} {u : State} (h : t.Settles c as r u) :
    s.Settles c (a :: as) r u := by
  obtain ⟨v, hv, hq, hs, hr⟩ := h
  refine ⟨v, ?_, hq.trans hn, hs, by rw [hr, hn]⟩
  rw [State.after?, ha]
  exact hv

theorem CallMove.of_step? (hc : Coherent s) (hx : x ∈ s.calls)
    (hs : s.step? (.call x.caller) = some t) : CallMove s x t := by
  obtain ⟨y, hy, hs⟩ := Option.bind_eq_some_iff.mp hs
  rw [hc.call?_eq hx] at hy
  obtain rfl := Option.some.inj hy
  exact callMove_of_stepCall? hs

/-- Induction along the steps up to an answer: the last one gives it, and each of the others leaves
the submission under way, as it was if the step is not its own. -/
theorem State.Settles.induct {r : Except RelayError Ticket} {u : State}
    {P : State → Call → List Action → Prop}
    (answer : ∀ s x, s.Reachable → x ∈ s.calls → s.step? (.call x.caller) = some u →
      Reply s x r u → P s x [])
    (step : ∀ s x a t stage as, s.Reachable → x ∈ s.calls → s.step? a = some t →
      { x with stage := stage } ∈ t.calls → (a ≠ .call x.caller → stage = x.stage) →
      P t { x with stage := stage } as → P s x (a :: as))
    {as : List Action} (h : s.Reachable) (hx : x ∈ s.calls) (hs : s.Settles x.caller as r u) :
    P s x as := by
  obtain ⟨v, hv, hq, hstep, hr⟩ := hs
  induction as generalizing s x with
  | nil =>
    obtain rfl := Option.some.inj hv
    exact answer s x h hx hstep ((CallMove.of_step? h.coherent hx hstep).reply h hx hr)
  | cons a as ih =>
    obtain ⟨t, ht, hrun⟩ := Option.bind_eq_some_iff.mp hv
    have hgo : ∀ stage, { x with stage := stage } ∈ t.calls →
        (a ≠ .call x.caller → stage = x.stage) →
        t.answersTo x.caller = s.answersTo x.caller → P s x (a :: as) := by
      intro stage hm hs hsame
      exact step s x a t stage as h hx ht hm hs
        (ih (h.step ht) hm hrun (hq.trans hsame.symm) hstep (by rw [hr, hsame]))
    by_cases ha : a = .call x.caller
    · subst ha
      rcases (CallMove.of_step? h.coherent hx ht).outcome h hx with
        ⟨r', -, hr', -⟩ | ⟨hsame, stage, hm, -⟩
      · exact absurd (leads_of_after? hrun) (not_leads_of_answered hr' hq)
      · exact hgo stage hm (fun hn => absurd rfl hn) hsame
    · obtain ⟨hsame, hk⟩ := (move_of_step? ht).keeps ha
      exact hgo x.stage (hk x hx rfl) (fun _ => rfl) hsame

/-- Along a run a submission is still under way, or some step of it answered it. -/
theorem course {as : List Action} {v : State} (h : s.Reachable) (hx : x ∈ s.calls)
    (hv : s.after? as = some v) :
    (∃ stage, { x with stage := stage } ∈ v.calls ∧ v.answersTo x.caller = s.answersTo x.caller) ∨
      ∃ bs cs r w, as = bs ++ .call x.caller :: cs ∧ s.Settles x.caller bs r w ∧
        w.after? cs = some v := by
  induction as generalizing s x with
  | nil =>
    obtain rfl := Option.some.inj hv
    exact .inl ⟨x.stage, hx, rfl⟩
  | cons a as ih =>
    obtain ⟨t, ht, hrun⟩ := Option.bind_eq_some_iff.mp hv
    -- a step that does not answer leaves the rest of the run to be looked at
    have hrest : ∀ x' ∈ t.calls, x'.caller = x.caller → { x' with stage := x.stage } = x →
        t.answersTo x.caller = s.answersTo x.caller →
        (∃ stage, { x with stage := stage } ∈ v.calls ∧
          v.answersTo x.caller = s.answersTo x.caller) ∨
        ∃ bs cs r w, a :: as = bs ++ .call x.caller :: cs ∧ s.Settles x.caller bs r w ∧
          w.after? cs = some v := by
      intro x' hx' hc he hq
      rcases ih (h.step ht) hx' hrun with ⟨stage, hm, ha⟩ | ⟨bs, cs, r, w, hb, hset, hw⟩
      · rw [hc] at ha
        exact .inl ⟨stage, he ▸ hm, ha.trans hq⟩
      · rw [hc] at hb hset
        exact .inr ⟨a :: bs, cs, r, w, by rw [hb, List.cons_append], hset.cons ht hq, hw⟩
    by_cases ha : a = .call x.caller
    · subst ha
      rcases (CallMove.of_step? h.coherent hx ht).outcome h hx with
        ⟨r, -, hr, -⟩ | ⟨hq, stage, hm, -⟩
      · exact .inr ⟨[], as, r, t, rfl, ⟨s, rfl, rfl, ht, hr⟩, hrun⟩
      · exact hrest _ hm rfl rfl hq
    · obtain ⟨hq, hk⟩ := (move_of_step? ht).keeps ha
      exact hrest x (hk x hx rfl) rfl rfl hq

/-- A submission that is decided is not refused. -/
theorem not_refused_of_isDecided (h : s.Reachable) (hx : x ∈ s.calls) (hd : x.isDecided)
    (hs : s.step? (.call x.caller) = some t) (e : RelayError) :
    t.answersTo x.caller ≠ s.answersTo x.caller ++ [.error e] := by
  intro he
  cases (CallMove.of_step? h.coherent hx hs).reply h hx he with
  | refused hr =>
    rw [hr.isDecided] at hd
    cases hd

/-- A submission that was not decided and now is was decided at one moment of the run; one that was
decided still is. -/
theorem exists_decided {as : List Action} {v : State} (h : s.Reachable) (hx : x ∈ s.calls)
    (hv : s.after? as = some v) (hq : v.answersTo x.caller = s.answersTo x.caller) :
    ∃ stage, { x with stage := stage } ∈ v.calls ∧
      (x.isDecided → Call.isDecided { x with stage := stage }) ∧
      (Call.isDecided { x with stage := stage } → x.isDecided = false →
        ∃ bs cs w, as = bs ++ cs ∧ s.after? bs = some w ∧
          w.refusal? x.entry x.envelope.wake = none) := by
  induction as generalizing s x with
  | nil =>
    obtain rfl := Option.some.inj hv
    exact ⟨x.stage, hx, id, fun hd hn => by rw [hn] at hd; cases hd⟩
  | cons a as ih =>
    obtain ⟨t, ht, hrun⟩ := Option.bind_eq_some_iff.mp hv
    -- the moment is this one, or it is a later one
    have hlater : ∀ bs w, t.after? bs = some w → s.after? (a :: bs) = some w := by
      intro bs w hw
      rw [State.after?, ht]
      exact hw
    by_cases ha : a = .call x.caller
    · subst ha
      rcases (CallMove.of_step? h.coherent hx ht).outcome h hx with
        ⟨r, -, hr, -⟩ | ⟨hn, stage, hm, hkeep, hdec⟩
      · exact absurd (leads_of_after? hrun) (not_leads_of_answered hr hq)
      · obtain ⟨stage', hm', hkeep', hd'⟩ := ih (h.step ht) hm hrun (hq.trans hn.symm)
        refine ⟨stage', hm', fun hx' => hkeep' (hkeep hx'), fun hd hx' => ?_⟩
        cases hs : Call.isDecided { x with stage := stage } with
        | true => exact ⟨[], _, s, rfl, rfl, hdec hs hx'⟩
        | false =>
          obtain ⟨bs, cs, w, rfl, hw, hr⟩ := hd' hd hs
          exact ⟨_ :: bs, cs, w, rfl, hlater bs w hw, hr⟩
    · obtain ⟨hn, hk⟩ := (move_of_step? ht).keeps ha
      obtain ⟨stage', hm', hkeep', hd'⟩ := ih (h.step ht) (hk x hx rfl) hrun (hq.trans hn.symm)
      refine ⟨stage', hm', hkeep', fun hd hx' => ?_⟩
      obtain ⟨bs, cs, w, rfl, hw, hr⟩ := hd' hd hx'
      exact ⟨_ :: bs, cs, w, rfl, hlater bs w hw, hr⟩

/-- Whatever a submission is answered was decided at one moment since it was asked. -/
theorem State.Settles.exists_decides {as : List Action} {r : Except RelayError Ticket}
    (h : s.Reachable) (hx : x ∈ s.calls) (hd : x.isDecided = false)
    (hs : s.Settles x.caller as r t) : ∃ bs cs w, as = bs ++ cs ∧ s.after? bs = some w ∧
      w.refusal? x.entry x.envelope.wake = refusalIn r := by
  obtain ⟨v, hv, hq, hstep, hr⟩ := hs
  obtain ⟨stage, hm, -, hdec⟩ := exists_decided h hx hv hq
  have hvr := h.after hv
  have hrep := (CallMove.of_step? hvr.coherent hm hstep).reply hvr hm (hr.trans (by rw [hq]))
  cases r with
  | ok k => exact hdec hrep.isDecided hd
  | error e =>
    cases hrep with
    | refused href => exact ⟨as, [], v, (List.append_nil as).symm, hv, href.refusal?_eq hvr hm⟩

/-! ## The next answer -/

/-- What the submission of `c` that is under way in `s` is refused with on the way to `last`. -/
def State.refused? (s last : State) (c : Caller) : Option RelayError :=
  ((last.answersTo c)[(s.answersTo c).length]?).bind refusalIn

theorem refused?_self (s : State) (c : Caller) : s.refused? s c = none := by
  simp [State.refused?]

theorem refused?_of_answersTo (h : t.answersTo c = s.answersTo c) (last : State) :
    t.refused? last c = s.refused? last c := by
  rw [State.refused?, State.refused?, h]

/-- The next answer is the one that is given. -/
theorem refused?_of_answered {last : State} {r : Except RelayError Ticket}
    (h : t.answersTo c = s.answersTo c ++ [r]) (hl : Leads t last) :
    s.refused? last c = refusalIn r := by
  obtain ⟨rest, hr⟩ := hl.answersTo_isPrefix c
  have hg : (last.answersTo c)[(s.answersTo c).length]? = some r := by
    rw [← hr, h, List.append_assoc, List.getElem?_append_right le_rfl, Nat.sub_self]
    rfl
  rw [State.refused?, hg]
  rfl

/-- A submission that is decided is not refused any more. -/
theorem refused?_of_isDecided {as : List Action} {last : State} (h : s.Reachable)
    (hx : x ∈ s.calls) (hd : x.isDecided) (hv : s.after? as = some last) :
    s.refused? last x.caller = none := by
  rcases course h hx hv with ⟨stage, -, hq⟩ | ⟨bs, cs, r, w, -, hset, hw⟩
  · rw [← refused?_of_answersTo hq, refused?_self]
  · obtain ⟨v, hv, hq, hstep, hr⟩ := hset
    obtain ⟨stage, hm, hkeep, -⟩ := exists_decided h hx hv hq
    rw [refused?_of_answered hr (leads_of_after? hw)]
    cases r with
    | ok k => rfl
    | error e =>
      exact absurd (by rw [hr, hq])
        (not_refused_of_isDecided (h.after hv) hm (hkeep hd) hstep e)

/-- A submission that is not decided yet is refused, or admitted, or decided. -/
theorem CallMove.of_undecided (h : s.Reachable) (hx : x ∈ s.calls) (hd : x.isDecided = false)
    (m : CallMove s x t) : (∃ e, t = s.answer x.caller (.error e)) ∨
      t = s.setCall x.caller .admitted ∨ ∃ stage, { x with stage := stage } ∈ t.calls ∧
        Call.isDecided { x with stage := stage } := by
  cases m with
  | refuse => exact .inl ⟨_, rfl⟩
  | allow => exact .inr (.inl rfl)
  | lock | number | count | send | receive =>
    exact .inr (.inr ⟨_, mem_setCall_self hx _, rfl⟩)
  | launch hs | unlock hs => simp [Call.isDecided, hs] at hd
  | abandon hw hs => exact absurd hw (h.handover.worker_ne_gone hx hs)

/-- All that a submission does which is going to be refused is to be admitted, or refused. -/
theorem step_of_refused {as : List Action} {last : State} {e : RelayError} (h : s.Reachable)
    (hx : x ∈ s.calls) (hs : s.step? (.call x.caller) = some t) (hl : t.after? as = some last)
    (hr : s.refused? last x.caller = some e) :
    t = s.answer x.caller (.error e) ∨ t = s.setCall x.caller .admitted := by
  have hv : s.after? (.call x.caller :: as) = some last := by
    rw [State.after?, hs]
    exact hl
  have hd : x.isDecided = false := by
    by_contra hd
    have := refused?_of_isDecided h hx (by simpa using hd) hv
    rw [hr] at this
    cases this
  have m := CallMove.of_step? h.coherent hx hs
  rcases m.of_undecided h hx hd with ⟨e', ht⟩ | ht | ⟨stage, hm, hdec⟩
  · have he := refused?_of_answered (ht ▸ answersTo_answer_self s (.error e')) (leads_of_after? hl)
    rw [hr] at he
    rw [ht, Option.some.inj he]
    exact .inl rfl
  · exact .inr ht
  · -- whoever is decided now is not refused
    exfalso
    rcases m.outcome h hx with ⟨r, -, -, hgone⟩ | ⟨hq, -⟩
    · exact hgone _ hm rfl
    · have := refused?_of_isDecided (h.step hs) hm hdec hl
      rw [refused?_of_answersTo hq, hr] at this
      cases this

/-! ## The record of an answer -/

/-- A submission that is answered is on record with its answer. -/
theorem State.Settles.exists_submission {as : List Action} {r : Except RelayError Ticket}
    (h : s.Reachable) (hx : x ∈ s.calls) (hs : s.Settles x.caller as r t) :
    ∃ z ∈ t.submissions, z.caller = x.caller ∧ z.entry = x.entry ∧ z.envelope = x.envelope ∧
      z.answer = r := by
  obtain ⟨v, hv, hq, hstep, hr⟩ := hs
  obtain ⟨stage, hm, -, -⟩ := exists_decided h hx hv hq
  have hvr := h.after hv
  have hlast := hvr.answers.asked _ hm
  have hans : ∀ u : State, lastAsked x.caller u.journal = lastAsked x.caller v.journal →
      ∃ z ∈ (u.answer x.caller r).submissions, z.caller = x.caller ∧ z.entry = x.entry ∧
        z.envelope = x.envelope ∧ z.answer = r := by
    intro u hu
    refine ⟨⟨x.caller, x.entry, x.envelope, stepsSince x.caller u.journal, r⟩, ?_, rfl, rfl, rfl,
      rfl⟩
    rw [State.submissions, State.answer_journal, submissionsIn_answered (hu.trans hlast),
      List.mem_reverse]
    exact List.mem_cons_self ..
  cases (CallMove.of_step? hvr.coherent hm hstep).reply hvr hm (hr.trans (by rw [hq])) with
  | refused => exact hans v rfl
  | launched => exact hans (v.launch _ _ _ _) (lastAsked_other rfl)
  | received => exact hans (v.setHolder none) rfl

/-- The answer comes at the end of the run. -/
theorem State.Settles.after? {as : List Action} {r : Except RelayError Ticket}
    (hs : s.Settles c as r t) : s.after? (as ++ [.call c]) = some t := by
  obtain ⟨v, hv, -, hstep, -⟩ := hs
  rw [after?_append, hv]
  show (v.step? (.call c)).bind _ = _
  rw [hstep]
  rfl

/-- A submission that is accepted has its task. -/
theorem State.Settles.exists_task {as : List Action} {k : Ticket} (h : s.Reachable)
    (hx : x ∈ s.calls) (hs : s.Settles x.caller as (.ok k) t) :
    ∃ u ∈ t.tasks, u.id = k.id ∧ u.caller = x.caller ∧ u.envelope = x.envelope := by
  obtain ⟨z, hz, hc, -, he, hk⟩ := hs.exists_submission h hx
  obtain ⟨u, hu, hid, huc, hue⟩ := (h.after hs.after?).exists_task_of_accepted hz hk
  exact ⟨u, hu, hid, huc.trans hc, hue.trans he⟩

end TaskRelay
