import Mathlib
import TaskRelay.Proofs.Relay.Census
import TaskRelay.Proofs.Relay.Notification
import TaskRelay.Proofs.Relay.Order

/-!
# What was accepted

The accepted submissions with their ids, as the journal has them. When none is under way they are
the tasks (`State.Reachable.accepted_perm_tasks`), and those that went around the dispatch are the
ones counted as direct (`State.Reachable.direct_eq`). Submissions that are made one after another
are numbered in this order (`accepted_of_inTurn`).
-/

namespace TaskRelay

variable {s t : State} {a : Action} {x : Call}

/-! ## Acceptances -/

/-- An accepted submission with the id of its task. -/
@[ext]
structure Acceptance where
  id : Nat
  entry : Entry
  envelope : Envelope

namespace Acceptance

/-- Around the dispatch. -/
def isDirect (k : Acceptance) : Bool := k.entry != .serial

/-- What the submitter has of it. -/
def ticket (k : Acceptance) : Ticket := State.ticket k.id k.envelope

end Acceptance

def Submission.acceptance? (z : Submission) : Option Acceptance :=
  z.acceptedId?.map fun id => ⟨id, z.entry, z.envelope⟩

namespace State

/-- What was accepted, in the order of the answers. -/
def accepted (s : State) : List Acceptance := s.submissions.filterMap Submission.acceptance?

/-- The handles that submitters were given, in the order of the answers. -/
def handles (s : State) : List Ticket := s.submissions.filterMap fun z => z.answer.toOption

end State

/-- Submissions numbered in their order. -/
def numbered (q : List (Entry × Envelope)) : List Acceptance :=
  q.mapIdx fun i x => ⟨i, x.1, x.2⟩

theorem accepted_of_submissionsIn (h : submissionsIn t.journal = submissionsIn s.journal) :
    t.accepted = s.accepted := by
  rw [State.accepted, State.accepted, State.submissions, State.submissions, h]

/-- An answer accepts the submission that was asked for last, or none. -/
theorem accepted_answer {u : State} (h : lastAsked x.caller u.journal = some (x.entry, x.envelope))
    (r : Except RelayError Ticket) : (u.answer x.caller r).accepted =
      u.accepted ++ ((Mark.answered x.caller r).acceptedId?.map
        fun id => Acceptance.mk id x.entry x.envelope).toList := by
  rw [State.accepted, State.submissions, State.answer_journal, submissionsIn_answered h,
    List.reverse_cons, List.filterMap_append]
  rfl

/-- The submissions as they are counted and given ids. -/
structure Ledger (s : State) : Prop where
  ids : s.accepted.map Acceptance.id = s.acceptedIds
  direct : s.counters.direct = s.accepted.countP Acceptance.isDirect +
    s.calls.countP fun y => y.stage.isCounted

namespace Ledger

theorem of_sameFront (h : Ledger s) (hf : SameFront s t) : Ledger t := by
  have ha := accepted_of_submissionsIn hf.submissionsIn
  refine ⟨?_, ?_⟩
  · rw [ha, hf.acceptedIds, h.ids]
  · rw [ha, hf.calls, hf.direct, h.direct]

/-- Nobody is answered, and what is counted is still under way. -/
theorem of_unanswered (h : Ledger s) (hs : submissionsIn t.journal = submissionsIn s.journal)
    (hi : t.acceptedIds = s.acceptedIds)
    (hd : t.counters.direct + s.calls.countP (fun y => y.stage.isCounted) =
      s.counters.direct + t.calls.countP fun y => y.stage.isCounted) : Ledger t := by
  have ha := accepted_of_submissionsIn hs
  have hdirect := h.direct
  refine ⟨by rw [ha, hi, h.ids], ?_⟩
  rw [ha]
  omega

/-- The call moves on, and counts from when it is counted. -/
theorem setCall (h : Ledger s) (hc : Coherent s) (hx : x ∈ s.calls) {stage : CallStage}
    (hcalls : t.calls = (s.setCall x.caller stage).calls)
    (hs : submissionsIn t.journal = submissionsIn s.journal) (hi : t.acceptedIds = s.acceptedIds)
    (hd : t.counters.direct + (if x.stage.isCounted then 1 else 0) =
      s.counters.direct + if stage.isCounted then 1 else 0) : Ledger t := by
  refine h.of_unanswered hs hi ?_
  have hn := countP_change hc.callers hx (fun y => { y with stage := stage })
    fun y => y.stage.isCounted
  rw [hcalls]
  simp only [State.setCall] at hn ⊢
  omega

/-- A submission is answered: from now on it counts among the accepted ones, if it did before. -/
theorem answer (h : Ledger s) (hc : Coherent s) (hx : x ∈ s.calls) {u : State}
    (hl : lastAsked x.caller u.journal = some (x.entry, x.envelope))
    (hs : submissionsIn u.journal = submissionsIn s.journal) (hi : u.acceptedIds = s.acceptedIds)
    (hcalls : u.calls = s.calls) (hn : u.counters = s.counters) {r : Except RelayError Ticket}
    (hr : x.stage.isCounted =
      ((Mark.answered x.caller r).acceptedId?.isSome && x.entry != .serial)) :
    Ledger (u.answer x.caller r) := by
  have ha := accepted_of_submissionsIn hs
  have hrem := countP_remove hc.callers hx fun y => y.stage.isCounted
  have hdirect := h.direct
  refine ⟨?_, ?_⟩
  · rw [accepted_answer hl, acceptedIds_of_mark (u.answer_journal _ _), List.map_append, ha, hi,
      h.ids]
    cases (Mark.answered x.caller r).acceptedId? <;> rfl
  · rw [accepted_answer hl, ha, State.answer_counters, State.answer_calls, hn, hcalls,
      List.countP_append]
    rw [hr] at hrem
    cases hk : (Mark.answered x.caller r).acceptedId? with
    | none =>
      simp only [hk, Option.isSome_none, Bool.false_and, Bool.false_eq_true, if_false] at hrem
      simp only [Option.map_none, Option.toList_none, List.countP_nil]
      omega
    | some id =>
      simp only [hk, Option.isSome_some, Bool.true_and] at hrem
      have hone : [Acceptance.mk id x.entry x.envelope].countP Acceptance.isDirect =
          if x.entry != .serial then 1 else 0 := List.countP_singleton
      rw [Option.map_some, Option.toList_some, hone]
      omega

theorem callMove (h : Ledger s) (hr : s.Reachable) (hx : x ∈ s.calls) (m : CallMove s x t) :
    Ledger t := by
  have hc := hr.coherent
  have hl := hr.answers.asked x hx
  cases m with
  | refuse hre =>
    refine h.answer hc hx hl rfl rfl rfl rfl ?_
    cases hre <;> simp [*, CallStage.isCounted, Mark.acceptedId?]
  | allow hs | number hs => exact h.setCall hc hx rfl rfl rfl (by rw [hs]; rfl)
  | lock hs | send hs | receive hs =>
    refine h.setCall hc hx rfl rfl ?_ (by rw [hs]; rfl)
    exact (acceptedIds_of_mark rfl).trans (List.append_nil _)
  | count hs => exact h.setCall hc hx rfl rfl rfl (by rw [hs]; rfl)
  | @launch id hs =>
    have hi : (s.launch id x.caller x.entry.pool x.envelope).acceptedIds = s.acceptedIds :=
      (acceptedIds_of_mark (s := s) rfl).trans (List.append_nil _)
    refine h.answer (u := s.launch id x.caller x.entry.pool x.envelope) hc hx
      ((lastAsked_other rfl).trans hl) rfl hi rfl rfl ?_
    have he := hr.answers.direct x hx (by rw [hs]; rfl)
    simp [hs, CallStage.isCounted, Mark.acceptedId?, he]
  | abandon hw hs => exact absurd hw (hr.handover.worker_ne_gone hx hs)
  | unlock hs =>
    obtain ⟨id, rfl, hp⟩ := hr.handover.of_received hx hs
    refine h.answer (u := s.setHolder none) hc hx hl rfl rfl rfl rfl ?_
    simp [hs, CallStage.isCounted, hp.serial]

theorem workerMove (h : Ledger s) (m : WorkerMove s t) : Ledger t := by
  cases m with
  | launch | publish =>
    refine h.of_unanswered rfl ?_ rfl
    exact (acceptedIds_of_mark rfl).trans (List.append_nil _)
  | _ => exact ⟨h.ids, h.direct⟩

theorem ask (h : Ledger s) (c : Caller) (entry : Entry) (e : Envelope) :
    Ledger (s.ask c entry e) := by
  refine h.of_unanswered rfl ((acceptedIds_of_mark rfl).trans (List.append_nil _)) ?_
  simp [State.ask, State.note, CallStage.isCounted]

end Ledger

theorem Move.ledger (hr : s.Reachable) (h : Ledger s) (m : Move s a t) : Ledger t := by
  cases m with
  | outside m => exact h.of_sameFront m.sameFront
  | ask => exact h.ask _ _ _
  | @askInside x entry name body args wake next =>
    have h' : Ledger (s.setStage x.id (.submitting next)) := h.of_sameFront (.setStage _ _)
    exact h'.ask _ _ _
  | call hx m => exact h.callMove hr (call?_spec hx).1 m
  | worker m => exact h.workerMove m
  | close =>
    refine h.of_unanswered rfl ?_ rfl
    exact (acceptedIds_of_mark rfl).trans (List.append_nil _)
  | drop => exact ⟨h.ids, h.direct⟩
  | task _ m => exact h.of_sameFront m.sameFront

namespace State.Reachable

theorem ledger (h : s.Reachable) : Ledger s :=
  h.induct (fun _ _ => ⟨rfl, rfl⟩) fun _ _ _ hr => Move.ledger hr

/-! ## Acceptances, tasks and handles -/

theorem exists_task_of_acceptance (h : s.Reachable) {k : Acceptance} (hk : k ∈ s.accepted) :
    ∃ u ∈ s.tasks, u.id = k.id ∧ u.envelope = k.envelope := by
  obtain ⟨z, hz, hza⟩ := List.mem_filterMap.mp hk
  obtain ⟨id, hid, rfl⟩ := Option.map_eq_some_iff.mp hza
  cases hr : z.answer with
  | error e =>
    rw [Submission.acceptedId?, hr] at hid
    cases hid
  | ok ticket =>
    rw [Submission.acceptedId?, hr] at hid
    obtain rfl := Option.some.inj hid
    obtain ⟨u, hu, hui, -, hue⟩ := h.exists_task_of_accepted hz hr
    exact ⟨u, hu, hui, hue⟩

/-- When nobody is in the middle of a submission the accepted submissions are the tasks. -/
theorem accepted_perm_tasks (h : s.Reachable) (hc : s.calls = []) :
    (s.accepted.map fun k => (k.id, k.envelope)).Perm
      (s.tasks.map fun u => (u.id, u.envelope)) := by
  have hids : (s.accepted.map Acceptance.id).Perm (s.tasks.map Task.id) :=
    h.ledger.ids ▸ h.acceptedIds_perm hc
  have hnodup : (s.accepted.map fun k => (k.id, k.envelope)).Nodup := by
    refine List.Nodup.of_map Prod.fst ?_
    rw [List.map_map]
    exact hids.nodup_iff.mpr h.coherent.ids_nodup
  refine (hnodup.subperm fun k hk => ?_).perm_of_length_le ?_
  · obtain ⟨k, hk', rfl⟩ := List.mem_map.mp hk
    obtain ⟨u, hu, hid, he⟩ := h.exists_task_of_acceptance hk'
    exact List.mem_map.mpr ⟨u, hu, by rw [hid, he]⟩
  · have hl := hids.length_eq
    rw [List.length_map, List.length_map] at hl ⊢
    omega

/-- Then the accepted submissions around the dispatch are those that are counted as direct. -/
theorem direct_eq (h : s.Reachable) (hc : s.calls = []) :
    s.counters.direct = s.accepted.countP Acceptance.isDirect := by
  rw [h.ledger.direct, hc]
  rfl

/-- The others are those that are counted as dispatched. -/
theorem direct_add_dispatched (h : s.Reachable) (hc : s.calls = []) :
    s.counters.direct + s.counters.dispatched = s.accepted.length := by
  have hw : s.dispatch.worker.isCounted = false := by
    rcases h.handover.phase with hv | ⟨y, p, hp⟩
    · rcases hv.worker with hw | ⟨hw, -⟩ <;> rw [hw] <;> rfl
    · have := hp.mem
      rw [hc] at this
      cases this
  have hl := (h.accepted_perm_tasks hc).length_eq
  rw [List.length_map, List.length_map] at hl
  rw [h.census.counted, State.under, hc, hw, hl]
  rfl

/-- Whoever was accepted has the handle of its own task. -/
theorem handles_eq (h : s.Reachable) : s.handles = s.accepted.map Acceptance.ticket := by
  rw [State.handles, State.accepted, List.map_filterMap]
  refine List.filterMap_congr fun z hz => ?_
  have hs := h.answers.served z (List.mem_reverse.mp hz)
  rw [Submission.IsServed] at hs
  rw [Submission.acceptance?, Submission.acceptedId?]
  cases hr : z.answer with
  | error e => rfl
  | ok k =>
    rw [hr] at hs
    exact congrArg some hs.1

end State.Reachable

/-! ## Submissions made in turn -/

/-- In this run no submission is asked for while another is under way. -/
def State.InTurn (s : State) (as : List Action) : Prop :=
  ∀ bs cs t, as = bs ++ cs → s.after? bs = some t → t.calls.length ≤ 1

/-- A submission that was not under way before has just begun. -/
theorem Move.isAsked_of_new (m : Move s a t) {y : Call} (hy : y ∈ t.calls) :
    y.caller ∈ s.calls.map Call.caller ∨ y.stage = .asked := by
  have hsub : (∀ z ∈ t.calls, z.caller ∈ s.calls.map Call.caller) →
      y.caller ∈ s.calls.map Call.caller ∨ y.stage = .asked := fun h => .inl (h y hy)
  have hask : ∀ (u : State) c entry e, u.calls = s.calls → t.calls = (u.ask c entry e).calls →
      y.caller ∈ s.calls.map Call.caller ∨ y.stage = .asked := by
    intro u c entry e hu ht
    rw [ht] at hy
    rcases u.mem_ask.mp hy with hy | rfl
    · exact .inl (List.mem_map_of_mem (hu ▸ hy))
    · exact .inr rfl
  have hset : ∀ {c stage}, t.calls = (s.setCall c stage).calls →
      y.caller ∈ s.calls.map Call.caller ∨ y.stage = .asked := by
    intro c stage ht
    have := List.mem_map_of_mem (f := Call.caller) (ht ▸ hy)
    rw [State.setCall_callers] at this
    exact .inl this
  cases m with
  | outside m => exact hsub fun z hz => List.mem_map_of_mem (m.sameFront.calls ▸ hz)
  | ask => exact hask s _ _ _ rfl rfl
  | askInside => exact hask (s.setStage _ _) _ _ _ rfl rfl
  | call _ m =>
    cases m with
    | refuse | launch | abandon | unlock =>
      exact hsub fun z hz => List.mem_map_of_mem ((State.mem_answer _ _ _).mp hz).1
    | allow | lock | number | count | send | receive => exact hset rfl
  | worker m => exact hsub fun z hz => List.mem_map_of_mem ((m.front_eq z.caller).2 ▸ hz)
  | close | drop => exact hsub fun z hz => List.mem_map_of_mem hz
  | task _ m => exact hsub fun z hz => List.mem_map_of_mem (m.sameFront.calls ▸ hz)

/-- Only an answer accepts. -/
theorem Move.acceptedIds (h : s.Reachable) (m : Move s a t) : t.acceptedIds = s.acceptedIds ∨
    ∃ (y : Call) (r : Except RelayError Ticket) (u : State), y ∈ s.calls ∧ Reply s y r t ∧
      u.calls = s.calls ∧ u.acceptedIds = s.acceptedIds ∧ t = u.answer y.caller r := by
  have hnote : ∀ {m : Mark}, t.journal = m :: s.journal → m.acceptedId? = none →
      t.acceptedIds = s.acceptedIds := fun hj hm => by
    rw [acceptedIds_of_mark hj, hm, Option.toList_none, List.append_nil]
  cases m with
  | outside m => exact .inl m.sameFront.acceptedIds
  | ask | close => exact .inl (hnote rfl rfl)
  | askInside => exact .inl (hnote rfl rfl)
  | drop => exact .inl rfl
  | task _ m => exact .inl m.sameFront.acceptedIds
  | worker m =>
    cases m with
    | launch | publish => exact .inl (hnote rfl rfl)
    | _ => exact .inl rfl
  | call hy m =>
    have hy := (call?_spec hy).1
    cases m with
    | refuse hr => exact .inr ⟨_, _, s, hy, .refused hr, rfl, rfl, rfl⟩
    | allow | number | count => exact .inl rfl
    | lock | send | receive => exact .inl (hnote rfl rfl)
    | launch hs =>
      refine .inr ⟨_, _, s.launch _ _ _ _, hy, .launched hs, rfl, ?_, rfl⟩
      exact (acceptedIds_of_mark rfl).trans (List.append_nil _)
    | abandon hw hs => exact absurd hw (h.handover.worker_ne_gone hy hs)
    | unlock hs => exact .inr ⟨_, _, s.setHolder none, hy, .received hs, rfl, rfl, rfl⟩

/-- The ids given so far are the first ones, and what is drawn by now is none of them. -/
structure Consecutive (s : State) : Prop where
  ids : s.acceptedIds = List.range s.acceptedIds.length
  drawn : ∀ y ∈ s.calls, ∀ i ∈ s.drawnFor y, s.acceptedIds.length ≤ i

theorem Consecutive.length_le (h : Consecutive s) (hr : s.Reachable) :
    s.acceptedIds.length ≤ s.nextId := by
  by_contra hlt
  have hmem : s.nextId ∈ s.acceptedIds := by
    rw [h.ids, List.mem_range]
    omega
  exact lt_irrefl _ (hr.lt_of_accepted hmem)

theorem Consecutive.step (h : Consecutive s) (hr : s.Reachable) (hl : s.calls.length ≤ 1)
    (hs : s.step? a = some t) : Consecutive t := by
  have m := move_of_step? hs
  rcases m.acceptedIds hr with he | ⟨y, r, u, hy, hrep, hcalls, hu, ht⟩
  · refine ⟨by rw [he]; exact h.ids, fun y hy i hi => ?_⟩
    rw [he]
    rcases m.isAsked_of_new hy with hc | hasked
    · -- what is drawn for a submission is drawn from now on
      obtain ⟨x, hx, hxc⟩ := List.mem_map.mp hc
      rcases drawnFor_of_step? hr hs hx hy hxc.symm i hi with hi | rfl
      · exact h.drawn x hx i hi
      · exact h.length_le hr
    · rw [drawnFor_of_outside (by rw [hasked]; rfl), hasked] at hi
      cases hi
  · -- the only submission is answered
    have hnone : t.calls = [] := by
      obtain ⟨z, hz⟩ := List.length_eq_one_iff.mp
        (le_antisymm hl (List.length_pos_of_mem hy))
      obtain rfl : y = z := by simpa [hz] using hy
      rw [ht, State.answer_calls, hcalls, hz]
      simp
    refine ⟨?_, by simp [hnone]⟩
    have hids : t.acceptedIds =
        s.acceptedIds ++ (Mark.answered y.caller r).acceptedId?.toList := by
      rw [ht, acceptedIds_of_mark (u.answer_journal _ _), hu]
    cases r with
    | error e =>
      rw [hids]
      exact (List.append_nil _).trans (h.ids.trans (by simp [Mark.acceptedId?]))
    | ok k =>
      have hle : s.acceptedIds.length ≤ k.id := by
        cases hrep with
        | @launched id hstage =>
          exact h.drawn y hy _ (by simp [State.drawnFor, hstage, CallStage.id?, State.ticket])
        | received hstage =>
          exact h.drawn y hy _ (by simp [State.drawnFor, hstage, CallStage.ticketId?])
      have hlen : t.acceptedIds.length = s.acceptedIds.length + 1 := by
        rw [hids]
        simp [Mark.acceptedId?]
      -- no id was left out, so this one is the next
      have hlt : k.id < s.acceptedIds.length + 1 := by
        rw [← hlen, ← List.mem_range]
        refine ((hr.step hs).ordered.gapless hnone).mem_iff.mp ?_
        rw [hids]
        simp [Mark.acceptedId?]
      have hk : k.id = s.acceptedIds.length := by omega
      rw [hlen, List.range_succ, ← h.ids, hids]
      simp [Mark.acceptedId?, hk]

theorem Consecutive.after {as : List Action} (h : Consecutive s) (hr : s.Reachable)
    (hl : s.InTurn as) (hs : s.after? as = some t) : Consecutive t := by
  induction as generalizing s with
  | nil =>
    obtain rfl := Option.some.inj hs
    exact h
  | cons a as ih =>
    obtain ⟨v, hv, hs⟩ := Option.bind_eq_some_iff.mp hs
    refine ih (h.step hr (hl [] _ s rfl rfl) hv) (hr.step hv) (fun bs cs w he hw => ?_) hs
    exact hl (a :: bs) cs w (by rw [he]; rfl) ((after?_cons hv bs).trans hw)

/-- The submissions are numbered as they are made, if they are made one after another. -/
theorem accepted_of_inTurn {site : Site} {hosted : Bool} {settings : Settings} {first : State}
    {as : List Action} (hf : State.startWith site hosted settings = .running first)
    (hl : first.InTurn as) (hs : first.after? as = some s) :
    s.accepted = numbered (s.accepted.map fun k => (k.entry, k.envelope)) := by
  have hfirst : first.Reachable := ⟨site, hosted, settings, first, hf, .here⟩
  have hstart : Consecutive first := by
    obtain rfl := eq_start_of_startWith hf
    exact ⟨rfl, by simp [State.start]⟩
  have hids := (hstart.after hfirst hl hs).ids
  rw [← (hfirst.after hs).ledger.ids, List.length_map] at hids
  refine List.ext_getElem (by simp [numbered]) fun i hi _ => ?_
  have hid : s.accepted[i].id = i := by
    have := List.getElem_of_eq hids (i := i) (by simpa using hi)
    simpa using this
  have hi' : (numbered (s.accepted.map fun k => (k.entry, k.envelope)))[i]? =
      some ⟨i, s.accepted[i].entry, s.accepted[i].envelope⟩ := by
    simp [numbered, hi]
  rw [List.getElem?_eq_getElem (by simpa [numbered] using hi)] at hi'
  rw [Option.some.inj hi']
  exact Acceptance.ext hid rfl rfl

end TaskRelay
