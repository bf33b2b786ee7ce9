import Mathlib
import TaskRelay.Proofs.Relay.Conservation
import TaskRelay.Proofs.Relay.Course
import TaskRelay.Proofs.Relay.Pools

/-!
# Giving up a relay

With a relay its own pools end, and with them every task that sleeps on one of them until it is
dropped: it is told of once, and counted nowhere. One that is woken before may still come to its own
end. The parallel pool of a host goes on, and its tasks with it; what is over stays as it is.
Main statement: `dropsItsOwn`.
-/

namespace TaskRelay

variable {s t first : State} {a : Action} {as bs : List Action} {u : Task} {n : PoolName}
variable {e : Ending} {o : Outcome} {site : Site} {hosted : Bool} {settings : Settings}

/-! ## Tasks of a pool that ends -/

theorem decided?_of_cancelled {th : String} {stage : Stage}
    (h : stage.destiny? th = some .cancelled) : stage.decided? = some .cancelled := by
  cases hd : stage.decided? with
  | some e => rw [← h, Stage.destiny?_of_decided? hd]
  | none =>
    rw [Stage.destiny?, hd] at h
    obtain ⟨o, -, ho⟩ := Option.map_eq_some_iff.mp h
    cases ho

theorem recorded?_of_cancelled {stage : Stage} (h : stage.decided? = some .cancelled) :
    stage.recorded? = some .cancelled := by
  cases stage <;> first | exact h | cases h

/-- A gate stays closed until it is opened. -/
theorem Move.gateOpen_eq_false {g : String} (m : Move s a t) (hg : s.gateOpen g = false)
    (ha : ∀ which, a = .openGates which → which g = false) : t.gateOpen g = false := by
  cases m with
  | outside m =>
    cases m with
    | openGates which => simpa [ha which rfl] using hg
    | notify | react => simpa only [State.afterTurn, State.noteSigns_eq, State.note] using hg
    | _ => exact hg
  | ask | askInside | close | drop => exact hg
  | call _ m =>
    cases m with
    | refuse | launch | abandon | unlock => rwa [State.answer_gateOpen]
    | _ => exact hg
  | worker m => cases m <;> exact hg
  | task _ m =>
    cases m with
    | notify | react =>
      simpa only [State.afterTurn, State.noteSigns_eq, State.setStage, State.note] using hg
    | _ => exact hg

/-- A task that was cancelled stays so. -/
theorem exists_cancelled_of_after? (h : s.Reachable) (hu : u ∈ s.tasks)
    (hd : u.stage.decided? = some .cancelled) (hs : s.after? as = some t) :
    ∃ v ∈ t.tasks, u.Later v ∧ v.stage.decided? = some .cancelled := by
  induction as generalizing s u with
  | nil =>
    obtain rfl := Option.some.inj hs
    exact ⟨u, hu, .refl u, hd⟩
  | cons a as ih =>
    obtain ⟨w, hw, hs⟩ := Option.bind_eq_some_iff.mp hs
    obtain ⟨v, hv, hlater, hdest⟩ := exists_destiny_of_step h.coherent hu hw
      (Stage.destiny?_of_decided? hd) (by rintro ⟨q, hq⟩; rw [hq] at hd; cases hd)
    obtain ⟨x, hx, hlater', hdx⟩ := ih (h.step hw) hv (decided?_of_cancelled hdest) hs
    exact ⟨x, hx, hlater.trans hlater', hdx⟩

/-- The task that is suspended at this program is not woken as these steps are taken, unless its
pool has dropped it before. -/
def Sleeps (s : State) (as : List Action) (u : Task) (p : Program) : Prop :=
  ∀ bs cs t, as = bs ++ cs → s.after? bs = some t → t.canResume p → ∃ b, .cancel u.id b ∈ bs

namespace Sleeps

variable {p next : Program} {g : String}

theorem canResume_eq_false (h : Sleeps s as u p) : s.canResume p = false := by
  by_contra hn
  obtain ⟨b, hb⟩ := h [] as s rfl rfl (by simpa using hn)
  cases hb

theorem tail (h : Sleeps s (a :: as) u p) (ha : ∀ b, a ≠ .cancel u.id b) (hs : s.step? a = some t) :
    Sleeps t as u p := by
  rintro bs cs v rfl hv hr
  obtain ⟨b, hb⟩ := h (a :: bs) cs v rfl ((after?_cons hs bs).trans hv) hr
  exact ⟨b, (List.mem_cons.mp hb).resolve_left (ha b).symm⟩

/-- Once its pool has dropped it, nothing wakes it. -/
theorem append_cancel (h : Sleeps s as u p) (b : Bool) :
    Sleeps s (as ++ .cancel u.id b :: bs) u p := by
  intro cs ds t heq ht hr
  rcases List.append_eq_append_iff.mp heq with ⟨es, rfl, he⟩ | ⟨es, he, -⟩
  · cases es with
    | nil => exact h _ [] t (by simp) ht hr
    | cons e es =>
      obtain ⟨rfl, -⟩ := List.cons.inj he
      exact ⟨b, by simp⟩
  · exact h cs es t he ht hr

/-- A task at a closed gate sleeps as long as nobody opens it. -/
theorem of_gate (hg : s.gateOpen g = false)
    (hn : ∀ which, .openGates which ∈ as → which g = false) : Sleeps s as u (.passGate g next) := by
  rintro bs cs t rfl ht hr
  refine absurd hr ?_
  induction bs generalizing s with
  | nil =>
    obtain rfl := Option.some.inj ht
    simp [State.canResume, hg]
  | cons a bs ih =>
    obtain ⟨v, hv, ht⟩ := Option.bind_eq_some_iff.mp ht
    refine ih ?_ (fun which hm => hn which (by simp [hm])) ht
    exact (move_of_step? hv).gateOpen_eq_false hg fun which ha => hn which (by simp [ha])

end Sleeps

/-- A task is still suspended where it was, or it was cancelled. -/
structure Stopped (u v : Task) : Prop where
  later : u.Later v
  waits : v = u ∨ v.stage.decided? = some .cancelled

/-- A task that sleeps on a pool that ends never goes on. -/
theorem exists_stopped {p : Program} (h : s.Reachable) (hu : u ∈ s.tasks)
    (hp : u.stage = .suspended p) (hb : u.begun) (ha : s.pools.isUp u.pool = false)
    (hw : Sleeps s as u p) (hs : s.after? as = some t) : ∃ v ∈ t.tasks, Stopped u v := by
  -- from the front, as long as it still sleeps; once it is dropped it stays so
  induction as generalizing s with
  | nil =>
    obtain rfl := Option.some.inj hs
    exact ⟨u, hu, .refl u, .inl rfl⟩
  | cons a as ih =>
    obtain ⟨w, hstep, hrest⟩ := Option.bind_eq_some_iff.mp hs
    have ht : a ≠ .task u.id := by
      rintro rfl
      rw [h.coherent.step?_task hu, State.stepTask?, hp] at hstep
      simp [hb, hw.canResume_eq_false] at hstep
    by_cases hk : ∃ b, a = .cancel u.id b
    · obtain ⟨b, rfl⟩ := hk
      have hc : s.cancel? u b = some w := by
        simpa [State.step?, h.coherent.task?_eq hu] using hstep
      have hcancelled : { u with stage := .recorded .cancelled } ∈ w.tasks := by
        simp only [State.cancel?, hp, ha, Bool.false_eq_true, if_false, Option.some.injEq] at hc
        subst hc
        refine (State.mem_setStage _).mpr (.inl ⟨u, ?_, rfl, rfl⟩)
        split_ifs <;> exact hu
      obtain ⟨v, hv, hlater, hd⟩ := exists_cancelled_of_after? (h.step hstep) hcancelled rfl hrest
      exact ⟨v, hv, ⟨hlater.id, hlater.caller, hlater.envelope, hlater.pool⟩, .inr hd⟩
    · push Not at hk
      have m := move_of_step? hstep
      exact ih (h.step hstep) (m.mem_tasks h.coherent hu (by rw [hp]; rfl) ht hk)
        (m.isUp_eq_false ha) (hw.tail hk hstep) hrest

/-- What the end of its pool does to a task that sleeps on it, as seen after the steps `bs`. -/
structure IsCancelled (bs : List Action) (t : State) (u : Task) : Prop where
  /-- It never goes on. Nothing keeps it from its end, which at most three steps of its own bring to
  its notification. -/
  stopped : ∃ v ∈ t.tasks, Stopped u v
  soon : ∃ cs v, cs.length ≤ 3 ∧ (∀ a ∈ cs, a = .cancel u.id false ∨ a = .task u.id) ∧
    t.after? cs = some v ∧ v.notifications u.id = u.envelope.wake.toList
  /-- When no step is left for it, everybody may have its result. -/
  ends : t.step? (.task u.id) = none → t.step? (.cancel u.id false) = none →
    t.ending? u.id = some .cancelled
  /-- It has no other end. -/
  ending : ∀ e, t.ending? u.id = some e → e = .cancelled
  /-- It is told of once, and before anybody may have its result. -/
  once : t.notifications u.id = [] ∨ t.notifications u.id = u.envelope.wake.toList
  told : (t.ending? u.id).isSome → t.notifications u.id = u.envelope.wake.toList ∧
    (u.envelope.wake.isSome → 0 < t.share .delivered u.id) ∧ t.share .missed u.id = 0
  /-- It is not counted. Only a thread that is unwinding from another panic takes the drop for a
  panic of the task. -/
  uncounted : t.share .completed u.id = 0 ∧ t.share .failed u.id = 0 ∧
    (t.share .panicked u.id ≠ 0 → .cancel u.id true ∈ bs)

namespace State.Reachable

/-- The notification of a task that has a result was delivered, and nothing was missed. -/
theorem delivered_of_ending (h : s.Reachable) (hu : u ∈ s.tasks) (he : (s.ending? u.id).isSome) :
    s.notifications u.id = u.envelope.wake.toList ∧
      (u.envelope.wake.isSome → 0 < s.share .delivered u.id) ∧ s.share .missed u.id = 0 := by
  obtain ⟨e, he⟩ := Option.isSome_iff_exists.mp he
  have hs := h.coherent.stage_of_ending? hu he
  have hl := h.lives.tasks u hu
  rw [h.notifications_eq hu, hs]
  rw [hs] at hl
  rw [State.share, State.share]
  generalize s.life u.id = l at hl ⊢
  cases hl with
  | live hs => cases hs
  | @resolved _ l l' hen ht =>
    rw [List.countP_append, List.countP_append, List.countP_append, List.countP_append,
      hen.countP_of_not_isOfEnds rfl, hen.countP_of_not_isOfEnds rfl]
    cases hw : u.envelope.wake with
    | none =>
      rw [hw] at ht
      cases ht
      exact ⟨rfl, (fun hn => by cases hn), rfl⟩
    | some w =>
      rw [hw] at ht
      have hd := ht.delivered
      exact ⟨rfl, fun _ => Nat.lt_add_right _ (Nat.lt_add_left _ hd.1), by rw [hd.2]; rfl⟩

end State.Reachable

namespace Stopped

variable {v : Task} {p : Program}

/-- The only end of a stopped task is that it was cancelled. -/
theorem ending (hs : Stopped u v) (h : t.Reachable) (hv : v ∈ t.tasks)
    (hp : u.stage = .suspended p) (he : t.ending? u.id = some e) : e = .cancelled := by
  rw [← hs.later.id] at he
  have hst := h.coherent.stage_of_ending? hv he
  rcases hs.waits with rfl | hd
  · rw [hp] at hst
    cases hst
  · rw [hst] at hd
    exact Option.some.inj hd

theorem step?_cancel (h : t.Reachable) (hu : u ∈ t.tasks) (hp : u.stage = .suspended p)
    (ha : t.pools.isUp u.pool = false) :
    t.step? (.cancel u.id false) = some (t.setStage u.id (.recorded .cancelled)) := by
  simp [State.step?, h.coherent.task?_eq hu, State.cancel?, hp, ha]

theorem exists_told (hs : Stopped u v) (h : t.Reachable) (hv : v ∈ t.tasks)
    (hp : u.stage = .suspended p) (ha : t.pools.isUp u.pool = false) :
    ∃ cs w, cs.length ≤ 3 ∧ (∀ a ∈ cs, a = .cancel u.id false ∨ a = .task u.id) ∧
      t.after? cs = some w ∧ w.notifications u.id = u.envelope.wake.toList := by
  rw [← hs.later.id, ← hs.later.envelope]
  rcases hs.waits with rfl | hd
  · -- it is dropped first
    have hstep := step?_cancel h hv hp ha
    obtain ⟨w, hw, hn⟩ := (h.step hstep).exists_told_of_recorded (mem_setStage_self hv _) rfl
    refine ⟨[.cancel v.id false, .task v.id], w, by simp, by simp, ?_, hn⟩
    exact (after?_cons hstep _).trans (after?_cons hw [])
  · obtain ⟨n, hn, w, hw, hnw⟩ := h.exists_told hv hd
    refine ⟨List.replicate n (.task v.id), w, by simpa using hn.trans (by decide), ?_, hw, hnw⟩
    exact fun a ha => .inr (List.eq_of_mem_replicate ha)

/-- A stopped task without a step to take is over. -/
theorem ends (hs : Stopped u v) (h : t.Reachable) (hv : v ∈ t.tasks)
    (hp : u.stage = .suspended p) (ha : t.pools.isUp u.pool = false)
    (ht : t.step? (.task u.id) = none) (hc : t.step? (.cancel u.id false) = none) :
    t.ending? u.id = some .cancelled := by
  rw [← hs.later.id] at ht hc ⊢
  rcases hs.waits with rfl | hd
  · rw [step?_cancel h hv hp ha] at hc
    cases hc
  · have hr : v.isResolved := by
      by_contra hr
      have := h.isSome_step?_of_decided hv hd (by simpa using hr)
      rw [ht] at this
      cases this
    obtain ⟨e, he⟩ := Option.isSome_iff_exists.mp hr
    have hend : t.ending? v.id = some e := by
      rw [State.ending?, h.coherent.task?_eq hv]
      exact he
    obtain rfl := hs.ending h hv hp (by rw [← hs.later.id]; exact hend)
    exact hend

theorem isCancelled (hs : Stopped u v) (h : t.Reachable) (hv : v ∈ t.tasks)
    (hp : u.stage = .suspended p) (ha : t.pools.isUp u.pool = false)
    (hk : .cancelledUnwinding u.id ∈ t.journal → .cancel u.id true ∈ bs) :
    IsCancelled bs t u := by
  have hid := hs.later.id
  refine ⟨⟨v, hv, hs⟩, hs.exists_told h hv hp ha, hs.ends h hv hp ha,
    fun e => hs.ending h hv hp, ?_, fun he => ?_, ?_⟩
  · have hnote := h.notifications_eq hv
    rw [hid, hs.later.envelope] at hnote
    rw [hnote]
    split_ifs
    · exact .inr rfl
    · exact .inl rfl
  · rw [← hid] at he ⊢
    rw [← hs.later.envelope]
    exact h.delivered_of_ending hv he
  · rcases hs.waits with rfl | hd
    · have hz := h.share_eq_zero hv (by rw [hp]; rfl)
      exact ⟨hz _, hz _, fun hn => absurd (hz _) hn⟩
    · obtain ⟨h1, h2, h3⟩ := h.share_of_cancelled hv (recorded?_of_cancelled hd)
      rw [hid] at h1 h2 h3
      exact ⟨h1, h2, fun hn => hk (h3 hn)⟩

end Stopped

/-! ## Tasks of a pool that goes on -/

/-- No task was cancelled of a pool that is up. -/
def State.Spares (s : State) (p : Pools) : Prop :=
  ∀ u ∈ s.tasks, p.isUp u.pool → u.stage.decided? ≠ some .cancelled

namespace State.Spares

variable {p : Pools}

theorem setStage (h : s.Spares p) (hc : Coherent s) (hu : u ∈ s.tasks) {stage : Stage}
    (ht : t.tasks = (s.setStage u.id stage).tasks)
    (hs : p.isUp u.pool → stage.decided? ≠ some .cancelled) : t.Spares p := by
  intro v hv
  rw [ht] at hv
  rcases (State.mem_setStage s).mp hv with ⟨w, hw, hid, rfl⟩ | ⟨hv, -⟩
  · obtain rfl := hc.eq_of_id_eq hw hu hid
    exact hs
  · exact h v hv

theorem answer (h : s.Spares p) (hd : (s.tasks.map Task.id).Nodup) (c : Caller)
    (r : Except RelayError Ticket) : (s.answer c r).Spares p :=
  s.forall_answer c r h (fun _ _ _ _ _ => by simp [Stage.decided?]) hd

theorem launch (h : s.Spares p) (id : Nat) (c : Caller) (pool : PoolName) (e : Envelope) :
    (s.launch id c pool e).Spares p := by
  intro u hu
  rcases s.mem_launch.mp hu with hu | rfl
  · exact h u hu
  · simp [Stage.decided?]

theorem taskMove (h : s.Spares s.pools) (hc : Coherent s) (hu : u ∈ s.tasks)
    (m : TaskMove s u a t) : t.Spares s.pools := by
  have hkeep : ∀ {stage : Stage}, stage.decided? = u.stage.decided? → s.pools.isUp u.pool →
      stage.decided? ≠ some .cancelled := fun hd ha => by
    rw [hd]
    exact h u hu ha
  cases m with
  | resume =>
    intro v hv
    rcases (State.mem_resume s).mp hv with ⟨w, -, -, rfl⟩ | ⟨hv, -⟩
    · simp [Stage.decided?]
    · exact h v hv
  | go _ hg => exact h.setStage hc hu rfl fun _ => by cases hg <;> simp [Stage.decided?]
  | log | finish => exact h.setStage hc hu rfl fun _ => by simp [Stage.decided?]
  | record hs | pass hs | resolve hs =>
    exact h.setStage hc hu rfl (hkeep (by rw [hs]; rfl))
  | notify hs | react hs =>
    refine h.setStage hc hu (State.setStage_tasks (State.afterTurn_tasks _ _ _) _ _) (hkeep ?_)
    rw [hs, Stage.decided?_ofProgress]
    rfl
  | cancel _ ha | cancelUnwinding _ ha =>
    refine h.setStage hc hu rfl fun ha' => ?_
    rw [ha] at ha'
    cases ha'

end State.Spares

theorem Move.spares (hc : Coherent s) (h : s.Spares s.pools) (m : Move s a t) :
    t.Spares s.pools := by
  cases m with
  | outside m =>
    rw [State.Spares, m.tasks_eq]
    exact h
  | ask | close | drop => exact h
  | askInside hx => exact h.setStage hc (task?_spec hx).1 rfl fun _ => by simp [Stage.decided?]
  | call hx m =>
    cases m with
    | allow | lock | number | count | send | receive => exact h
    | refuse => exact h.answer hc.ids_nodup _ _
    | abandon | unlock => exact State.Spares.answer (s := s.setHolder none) h hc.ids_nodup _ _
    | @launch id hs =>
      have hid := (hc.id_of_call (call?_spec hx).1 (by rw [hs]; rfl)).2
      exact (h.launch _ _ _ _).answer (hc.nodup_launch hid _ _ _) _ _
  | worker m =>
    cases m with
    | launch => exact h.launch _ _ _ _
    | _ => exact h
  | task hx m => exact h.taskMove hc (task?_spec hx).1 m

/-- As long as its pool is up no task is cancelled. -/
theorem State.Reachable.spares (h : s.Reachable) : s.Spares s.pools :=
  h.induct (fun _ _ _ hu => by cases hu) fun _ _ _ hr ih m u hu ha =>
    m.spares hr.coherent ih u hu (m.isUp ha)

theorem Leads.exists_destined (hl : Leads s t) (h : s.Reachable) (hu : u ∈ s.tasks)
    (hd : u.stage.destiny? (s.pools.threadName u.pool) = some e) (ha : t.pools.isUp u.pool) :
    ∃ v ∈ t.tasks, u.Later v ∧ v.stage.destiny? (s.pools.threadName u.pool) = some e := by
  induction hl with
  | here => exact ⟨u, hu, .refl u, hd⟩
  | @step t' t a hl hs ih =>
    have ha' := (move_of_step? hs).isUp ha
    obtain ⟨v, hv, hlater, hdv⟩ := ih ha'
    rw [← hl.threadName_eq, ← hlater.pool] at hdv ⊢
    obtain ⟨w, hw, hlater', hdw⟩ := exists_destiny_of_step (h.leads hl).coherent hv hs hdv
      (fun _ => hlater.pool ▸ ha')
    exact ⟨w, hw, hlater.trans hlater', hdw⟩

/-! ## What an outcome comes with -/

/-- The task has come to this outcome, with everything that belongs to it. -/
structure CameTo (s : State) (u : Task) (o : Outcome) : Prop where
  ending : s.ending? u.id = some (.outcome o)
  /-- It is counted by one figure, once. -/
  counted : ∀ f : Figure, f.isOfEnds → s.share f u.id = if f = o.figure then 1 else 0
  logged : (s.life u.id).filterMap Mark.log? = o.events u.id
  told : s.notifications u.id = u.envelope.wake.toList ∧
    (u.envelope.wake.isSome → 0 < s.share .delivered u.id) ∧ s.share .missed u.id = 0

/-- A task that goes its course has come to the outcome when it is over. -/
theorem State.Reachable.cameTo (h : s.Reachable) {th : String} (hu : u ∈ s.tasks)
    (hd : u.stage.destiny? th = some (.outcome o)) (he : (s.ending? u.id).isSome) :
    CameTo s u o := by
  have htold := h.delivered_of_ending hu he
  obtain ⟨e, he⟩ := Option.isSome_iff_exists.mp he
  have hs := h.coherent.stage_of_ending? hu he
  rw [hs] at hd
  obtain rfl := Option.some.inj hd
  exact ⟨he, fun f hf => h.share_of_outcome hu (by rw [hs]; rfl) hf,
    (h.lives.tasks u hu).logs (by rw [hs]; rfl), htold⟩

/-- What becomes of a suspended task whose pool is that of a host that lives on. -/
structure IsKept (s t : State) (u : Task) (o : Outcome) : Prop where
  /-- Nothing but closed gates keeps it from its outcome and from its notification. -/
  comes : ∃ cs v w, (∀ a ∈ cs, (∃ which, a = .openGates which) ∨ a = .task u.id) ∧
    t.after? cs = some v ∧ w ∈ v.tasks ∧ u.Later w ∧ w.stage.isTold ∧
      w.stage.decided? = some (.outcome o)
  /-- When no step is left for it although all gates are open, it is over. -/
  ends : (∀ g, t.gateOpen g) → t.step? (.task u.id) = none → (t.ending? u.id).isSome
  /-- It has come to this outcome when it is over, -/
  ending : (t.ending? u.id).isSome → CameTo t u o
  /-- and to the same in every other run in which its host lives on. -/
  elsewhere : ∀ as v, s.after? as = some v → .killHost ∉ as → (v.ending? u.id).isSome → CameTo v u o

theorem Stage.decided?_of_isTold {th : String} {stage : Stage} (ht : stage.isTold)
    (hd : stage.destiny? th = some e) : stage.decided? = some e := by
  cases stage <;> first | exact hd | cases ht

/-- Whoever goes its course can be brought to an end, perhaps behind some gates. -/
theorem exists_decided_of_destiny (h : s.Reachable) (hu : u ∈ s.tasks)
    (hd : u.stage.destiny? (s.pools.threadName u.pool) = some (.outcome o))
    (ha : s.pools.isUp u.pool) :
    ∃ bs t v e, (∀ a ∈ bs, (∃ which, a = .openGates which) ∨ a = .task u.id) ∧
      s.after? bs = some t ∧ v ∈ t.tasks ∧ u.Later v ∧ v.stage.decided? = some e := by
  have hopen : s.step? (.openGates fun _ => true) = some { s with gateOpen := fun _ => true } :=
    rfl
  have hbrings : State.Brings { s with gateOpen := fun _ => true } u (.ended o) →
      ∃ bs t v e, (∀ a ∈ bs, (∃ which, a = .openGates which) ∨ a = .task u.id) ∧
        s.after? bs = some t ∧ v ∈ t.tasks ∧ u.Later v ∧ v.stage.decided? = some e := by
    rintro ⟨n, t, v, hn, hv, hlater, hst⟩
    refine ⟨_ :: List.replicate n (.task u.id), t, v, .outcome o, fun a hm => ?_,
      (after?_cons hopen _).trans hn, hv, hlater, by rw [hst]; rfl⟩
    rcases List.mem_cons.mp hm with rfl | hm
    · exact .inl ⟨_, rfl⟩
    · exact .inr (List.eq_of_mem_replicate hm)
  cases hst : u.stage with
  | suspended p =>
    rw [hst] at hd
    obtain ⟨o', ho', he⟩ := Option.map_eq_some_iff.mp hd
    obtain rfl := Ending.outcome.inj he
    exact hbrings ((h.step hopen).brings_ended_of_suspended hu hst ho' (fun _ => rfl) ha)
  | running p =>
    rw [hst] at hd
    obtain ⟨o', ho', he⟩ := Option.map_eq_some_iff.mp hd
    obtain rfl := Ending.outcome.inj he
    exact hbrings ((h.step hopen).brings_ended hu hst ho' (fun _ => rfl) ha)
  | submitting next =>
    rw [hst] at hd
    cases hd
  | ended | recorded | notifying | notified | resolved =>
    exact ⟨[], s, u, _, by simp, rfl, hu, .refl u, by rw [hst]; rfl⟩

/-- It can be brought to its outcome and to the notification of it. -/
theorem exists_told_of_destiny (h : s.Reachable) (hu : u ∈ s.tasks)
    (hd : u.stage.destiny? (s.pools.threadName u.pool) = some (.outcome o))
    (ho : s.pools.Outlasts u.pool) (ha : s.pools.isUp u.pool) :
    ∃ cs t v, (∀ a ∈ cs, (∃ which, a = .openGates which) ∨ a = .task u.id) ∧
      s.after? cs = some t ∧ v ∈ t.tasks ∧ u.Later v ∧ v.stage.isTold ∧
        v.stage.decided? = some (.outcome o) := by
  obtain ⟨bs, t, v, e, hbs, ht, hv, hlater, hdec⟩ := exists_decided_of_destiny h hu hd ha
  obtain ⟨n, -, w, stage, hw, htold, hmem⟩ := (h.after ht).exists_isTold hv hdec
  have hrun : s.after? (bs ++ List.replicate n (.task v.id)) = some w := by
    rw [after?_append, ht]
    exact hw
  have hcs : ∀ a ∈ bs ++ List.replicate n (.task v.id),
      (∃ which, a = .openGates which) ∨ a = .task u.id := by
    intro a hm
    rcases List.mem_append.mp hm with hm | hm
    · exact hbs a hm
    · rw [List.eq_of_mem_replicate hm, hlater.id]
      exact .inr rfl
  have haw : w.pools.isUp u.pool := by
    refine isUp_of_after? hrun (fun hm => ?_) ho ha
    rcases hcs _ hm with ⟨_, hm⟩ | hm <;> cases hm
  -- the end it has come to is the one that was certain
  obtain ⟨x, hx, hlater', hdx⟩ := (leads_of_after? hrun).exists_destined h hu hd haw
  obtain rfl := (h.after hrun).coherent.eq_of_id_eq hmem hx (hlater.id.trans hlater'.id.symm)
  exact ⟨_, w, _, hcs, hrun, hmem, hlater', htold, Stage.decided?_of_isTold htold hdx⟩

/-- Nobody has to wait at open gates. -/
theorem State.Reachable.isSome_ending?_of_destiny (h : s.Reachable) (hu : u ∈ s.tasks)
    (hd : u.stage.destiny? (s.pools.threadName u.pool) = some (.outcome o))
    (ha : s.pools.isUp u.pool) (hg : ∀ g, s.gateOpen g)
    (hs : s.step? (.task u.id) = none) : (s.ending? u.id).isSome := by
  have hc := h.coherent
  have hdec : ∀ e, u.stage.decided? = some e → (s.ending? u.id).isSome := by
    intro e he
    by_contra hn
    have hr : u.isResolved = false := by
      simpa [State.ending?, hc.task?_eq hu, Task.isResolved] using hn
    have := h.isSome_step?_of_decided hu he hr
    rw [hs] at this
    cases this
  cases hst : u.stage with
  | suspended p =>
    rw [hst] at hd
    obtain ⟨o', ho, -⟩ := Option.map_eq_some_iff.mp hd
    rw [hc.step?_of_suspended hu hst ha (canResume_of_course ho hg)] at hs
    cases hs
  | running p =>
    rw [hc.step?_of_running hu hst] at hs
    cases hs
  | submitting next =>
    rw [hst] at hd
    cases hd
  | ended | recorded | notifying | notified | resolved => exact hdec _ (by rw [hst]; rfl)

theorem Task.Later.cameTo {v : Task} (hl : u.Later v) (h : CameTo s v o) : CameTo s u o := by
  obtain ⟨h1, h2, h3, h4⟩ := h
  rw [hl.id] at h1 h2 h3 h4
  rw [hl.envelope] at h4
  exact ⟨h1, h2, h3, h4⟩

theorem isKept (h : s.Reachable) (hu : u ∈ s.tasks)
    (hd : u.stage.destiny? (s.pools.threadName u.pool) = some (.outcome o))
    (ho : s.pools.Outlasts u.pool) (ha : s.pools.isUp u.pool)
    (ht : s.after? as = some t) (hk : .killHost ∉ as) : IsKept s t u o := by
  -- on every way the end stays as certain as it is
  have hcertain : ∀ {cs w}, s.after? cs = some w → .killHost ∉ cs → ∃ x ∈ w.tasks, u.Later x ∧
      w.pools.isUp x.pool ∧
        x.stage.destiny? (w.pools.threadName x.pool) = some (.outcome o) := by
    intro cs w hw hcs
    have haw := isUp_of_after? hw hcs ho ha
    have hl := leads_of_after? hw
    obtain ⟨x, hx, hlater, hdx⟩ := hl.exists_destined h hu hd haw
    rw [← hlater.pool] at haw
    refine ⟨x, hx, hlater, haw, ?_⟩
    rw [hl.threadName_eq, hlater.pool]
    exact hdx
  have hcame : ∀ {cs w}, s.after? cs = some w → .killHost ∉ cs → (w.ending? u.id).isSome →
      CameTo w u o := by
    intro cs w hw hcs he
    obtain ⟨x, hx, hlater, -, hdx⟩ := hcertain hw hcs
    exact hlater.cameTo ((h.after hw).cameTo hx hdx (hlater.id ▸ he))
  obtain ⟨v, hv, hlater, hav, hdv⟩ := hcertain ht hk
  have htr := h.after ht
  refine ⟨?_, fun hg hn => ?_, hcame ht hk, fun cs w hw hcs he => hcame hw hcs he⟩
  · have hov : t.pools.Outlasts v.pool := (leads_of_after? ht).outlasts (hlater.pool ▸ ho)
    obtain ⟨cs, w, x, hcs, hw, hx, hlater', htold, hdec⟩ :=
      exists_told_of_destiny htr hv hdv hov hav
    rw [hlater.id] at hcs
    exact ⟨cs, w, x, hcs, hw, hx, hlater.trans hlater', htold, hdec⟩
  · rw [← hlater.id] at hn ⊢
    exact htr.isSome_ending?_of_destiny hv hdv hav hg hn

/-! ## What is over -/

theorem TaskMove.life {x : Task} (m : TaskMove s x a t) {id : Nat} (hne : id ≠ x.id) :
    t.life id = s.life id := by
  have hnone : ∀ ms : List Mark, t.journal = ms ++ s.journal →
      ms.reverse.filter (Mark.isOf id) = [] → t.life id = s.life id := fun ms hj hm => by
    rw [life_of_marks hj, hm, List.append_nil]
  cases m with
  | resume | go | finish | pass | cancel => rfl
  | log => exact hnone [_] rfl rfl
  | record | resolve | cancelUnwinding => exact hnone [_] rfl (by simp [Mark.isOf, hne.symm])
  | @notify e w =>
    refine hnone (((s.registry.notify w).signs.map (Mark.sign (.task x.id))).reverse ++
      [.notify (.task x.id) w]) ?_ ?_
    · simp [State.setStage, State.note]
    · simp [Mark.isOf, hne.symm]
  | @react e i =>
    refine hnone ((s.registry.step i).signs.map (Mark.sign (.task x.id))).reverse ?_ ?_
    · simp [State.setStage]
    · simp [Mark.isOf, hne.symm]

/-- Nothing more is heard of a task that is over. -/
theorem Leads.resolved (hl : Leads s t) (h : s.Reachable) (hu : u ∈ s.tasks) (hr : u.isResolved) :
    u ∈ t.tasks ∧ t.life u.id = s.life u.id := by
  obtain ⟨e, he⟩ := Option.isSome_iff_exists.mp hr
  have hst : u.stage = .resolved e := by
    rw [Task.ending?] at he
    cases hs : u.stage <;> rw [hs] at he <;> cases he
    rfl
  induction hl with
  | here => exact ⟨hu, rfl⟩
  | @step t' t a hl hs ih =>
    obtain ⟨hv, hlife⟩ := ih
    have hc := (h.leads hl).coherent
    have ha : a ≠ .task u.id := by
      rintro rfl
      rw [hc.step?_task hv, State.stepTask?, hst] at hs
      cases hs
    have hk : ∀ b, a ≠ .cancel u.id b := by
      rintro b rfl
      simp [State.step?, hc.task?_eq hv, State.cancel?, hst] at hs
    have m := move_of_step? hs
    refine ⟨m.mem_tasks hc hv (by rw [hst]; rfl) ha hk, ?_⟩
    rw [← hlife]
    rcases m.split with hb | m | ⟨x, -, m⟩
    · exact hb.life _
    · exact m.life _
    · refine m.life fun hid => ?_
      cases m with
      | cancel | cancelUnwinding => exact hk _ (by rw [hid])
      | _ => exact ha (by rw [hid])

/-! ## The whole -/

/-- What giving up the relay in `s` has done to its tasks after the steps `bs`, in `t`. -/
structure DropsItsOwn (hosted : Bool) (s : State) (bs : List Action) (t : State) : Prop where
  /-- Tasks that sleep on the pools of the relay until they are dropped are cancelled. -/
  own : ∀ u ∈ s.tasks, (hosted && u.pool == .parallel) = false → ∀ p, u.stage = .suspended p →
    u.begun → Sleeps s (.drop :: bs) u p → IsCancelled bs t u
  /-- As long as the pool of a host lives, no task of it is cancelled, -/
  spared : t.pools.isUp .parallel → ∀ v ∈ t.tasks, v.pool = .parallel →
    v.stage.decided? ≠ some .cancelled
  /-- and those that turn neither to the relay nor to other tasks end as they would have ended. -/
  kept : hosted → s.pools.isUp .parallel → .killHost ∉ bs → ∀ u ∈ s.tasks,
    u.pool = .parallel → ∀ p, u.stage = .suspended p →
      ∀ o, (p.course (s.pools.threadName .parallel)).outcome = some o → IsKept s t u o
  /-- What is over stays as it is. -/
  finished : ∀ u ∈ s.tasks, u.isResolved → t.ending? u.id = s.ending? u.id ∧
    t.notifications u.id = s.notifications u.id ∧ t.life u.id = s.life u.id

theorem dropsItsOwn (hf : State.startWith site hosted settings = .running first)
    (hs : first.after? as = some s) (ht : s.after? (.drop :: bs) = some t) :
    DropsItsOwn hosted s bs t := by
  have hfirst : first.Reachable := ⟨site, hosted, settings, first, hf, .here⟩
  have h := hfirst.after hs
  have htr := h.after ht
  have hl := leads_of_after? ht
  obtain ⟨v, hv, hbs⟩ := Option.bind_eq_some_iff.mp ht
  have hsame : v.tasks = s.tasks ∧ v.journal = s.journal := by
    cases move_of_step? hv with
    | drop => exact ⟨rfl, rfl⟩
    | outside m => cases m
    | task _ m => cases m
  refine ⟨fun u hu hown p hp hb hw => ?_, fun ha w hw hp => htr.spares w hw (by rw [hp]; exact ha),
    fun hh ha hk u hu hp p hst o ho => ?_, fun u hu hr => ?_⟩
  · have hends : v.pools.isUp u.pool = false := by
      rw [isUp_of_drop hf (leads_of_after? hs) hv, hown, Bool.and_false]
    obtain ⟨w, hmem, hstop⟩ := exists_stopped (h.step hv) (hsame.1 ▸ hu) hp hb hends
      (hw.tail (fun _ hd => by cases hd) hv) hbs
    refine hstop.isCancelled htr hmem hp (isUp_eq_false_of_after? hends hbs) fun hm => ?_
    · refine (unwinding_of_after? hbs hm).resolve_left fun hm => ?_
      -- nothing about its end was noted before
      have hlife : .cancelledUnwinding u.id ∈ s.life u.id :=
        List.mem_filter.mpr ⟨List.mem_reverse.mpr (hsame.2 ▸ hm), by simp [Mark.isOf]⟩
      rw [h.lives.life_eq_nil hu (by rw [hp]; rfl)] at hlife
      cases hlife
  · have hd : u.stage.destiny? (s.pools.threadName u.pool) = some (.outcome o) := by
      rw [hp, hst]
      exact Stage.destiny?_eq ho
    have hhost : s.pools.Outlasts u.pool := by
      intro q hq
      rw [owned_of_run hf (leads_of_after? hs) hq, hp, hh]
      rfl
    exact isKept h hu hd hhost (hp ▸ ha) ht (by simpa using hk)
  · obtain ⟨hmem, hlife⟩ := hl.resolved h hu hr
    refine ⟨?_, ?_, hlife⟩
    · rw [State.ending?, State.ending?, htr.coherent.task?_eq hmem, h.coherent.task?_eq hu]
    · rw [notifications_eq, notifications_eq, hlife]

/-- One task is over, one waits at a gate on the pool for single tasks, one on that of the host. -/
def beforeDrop : List Action := List.flatten [
  [.install Observer.first.callback,
    .submit 0 .single (.comingTo (.failure (.message "no")) (WakePointer.ofAddress? 8))],
  List.replicate 4 (.call (.thread 0)), List.replicate 7 (.task 0),
  [.submit 0 .single (.gated (.finish (.value .null)) (WakePointer.ofAddress? 16))],
  List.replicate 4 (.call (.thread 0)), [.task 1, .task 1],
  [.submit 0 .direct (.gated (.finish (.panic .other)) (WakePointer.ofAddress? 24))],
  List.replicate 4 (.call (.thread 0)), [.task 2, .task 2]]

def afterDrop : List Action := List.flatten [
  [.cancel 1 false, .openGates fun _ => true], List.replicate 4 (.task 1),
  List.replicate 8 (.task 2)]

/-- It is the task with this id in this pool, and waits at the gate. -/
def Task.isAtGate (id : Nat) (pool : PoolName) (u : Task) : Bool :=
  u.id == id && u.pool == pool && u.begun &&
    match u.stage with
    | .suspended (.passGate g _) => g == "gate"
    | _ => false

theorem Task.exists_of_isAtGate {id : Nat} {pool : PoolName} (h : u.isAtGate id pool) :
    u.id = id ∧ u.pool = pool ∧ u.begun ∧ ∃ p, u.stage = .suspended (.passGate "gate" p) := by
  simp only [isAtGate, Bool.and_eq_true, beq_iff_eq] at h
  obtain ⟨⟨⟨hid, hp⟩, hb⟩, hs⟩ := h
  refine ⟨hid, hp, hb, ?_⟩
  split at hs
  · next g p hst =>
    obtain rfl := eq_of_beq hs
    exact ⟨p, hst⟩
  · cases hs

/-- The second task sleeps until it is dropped, and then it is too late to open its gate. -/
theorem dropsItsOwn_threePools : ∃ s t,
    (State.attached (.default .one)).after? beforeDrop = some s ∧
    s.figures = [3, 0, 0, 1, 0, 1, 0] ∧ s.after? (.drop :: afterDrop) = some t ∧
    (∃ u ∈ s.tasks, u.id = 1 ∧ u.pool = .single ∧ u.begun ∧ ∃ p, u.stage = .suspended p ∧
      Sleeps s (.drop :: afterDrop) u p) ∧
    ([0, 1, 2].map fun i => (t.ending? i).map Ending.fate) =
      [some .failed, some .cancelled, some .panicked] ∧
    t.figures = [3, 0, 0, 1, 1, 3, 0] ∧ DropsItsOwn true s afterDrop t := by
  obtain ⟨s, hs, hfig, hgate, hclosed, ht⟩ := exists_after? (P := fun s =>
    s.figures = [3, 0, 0, 1, 0, 1, 0] ∧ (∃ u ∈ s.tasks, u.isAtGate 1 .single) ∧
    (s.gateOpen "gate" = false) ∧
    (s.after? (.drop :: afterDrop)).any fun t =>
      ([0, 1, 2].map fun i => (t.ending? i).map Ending.fate) =
        [some .failed, some .cancelled, some .panicked] ∧ t.figures = [3, 0, 0, 1, 1, 3, 0])
    (.attached (.default .one)) beforeDrop (by decide +kernel)
  obtain ⟨t, ht, hend, hfig'⟩ := exists_after? _ _ ht
  have hf : State.startWith .generous true (.default .one) =
      .running (.attached (.default .one)) := rfl
  obtain ⟨u, hu, hgate⟩ := hgate
  obtain ⟨hid, hpool, hb, p, hp⟩ := Task.exists_of_isAtGate hgate
  have hsleeps : Sleeps s ([.drop] ++ .cancel u.id false :: afterDrop.tail) u
      (.passGate "gate" p) := (Sleeps.of_gate hclosed (by simp)).append_cancel false
  rw [hid] at hsleeps
  exact ⟨s, t, hs, hfig, ht, ⟨u, hu, hid, hpool, hb, _, hp, hsleeps⟩, hend, hfig',
    dropsItsOwn hf hs ht⟩

/-- A program that submits by way of the relay, if it is still there, and ends as it is answered. -/
def Program.asking : Program :=
  .submit .direct "callable" (fun _ => .finish (.value .null)) .empty none fun
    | none => .finish (.failure (.message "relay gone"))
    | some (.ok _) => .finish (.value .null)
    | some (.error e) => .finish (.failure (.relay e))

/-- A task of a host's pool that is going to submit waits at a gate, and so does one of the pool for
single tasks. -/
def beforeAsking : List Action := List.flatten [
  [.submit 0 .direct (.gated .asking none)], List.replicate 4 (.call (.thread 0)),
  List.replicate 2 (.task 0),
  [.submit 0 .single (.gated (.finish (.value .null)) none)], List.replicate 4 (.call (.thread 0)),
  List.replicate 2 (.task 1)]

/-- The relay is given up while two tasks wait at a gate, neither of them for another task, and then
the gate is opened. The one whose host lives on finds the relay gone, and ends otherwise than
without the drop; the other one is woken before its pool drops it, and is not cancelled. -/
theorem asking_afterDrop : ∃ s t v,
    State.startWith .generous true (.default .one) = .running (.attached (.default .one)) ∧
    (State.attached (.default .one)).after? beforeAsking = some s ∧
    (∃ u ∈ s.tasks, u.isAtGate 0 .parallel) ∧ (∃ u ∈ s.tasks, u.isAtGate 1 .single) ∧
    s.tasks.length = 2 ∧
    s.after? (.drop :: (.openGates fun _ => true) ::
      (List.replicate 7 (.task 0) ++ List.replicate 6 (.task 1))) = some t ∧
    t.pools.isUp .parallel ∧ (t.ending? 0).map Ending.fate = some .failed ∧
    (t.ending? 1).map Ending.fate = some .completed ∧
    s.after? ((.openGates fun _ => true) :: List.replicate 3 (.task 0) ++
      List.replicate 4 (.call (.task 0)) ++ List.replicate 4 (.task 0)) = some v ∧
    (v.ending? 0).map Ending.fate = some .completed := by
  obtain ⟨s, hs, hfirst, hsecond, hlen, ht, hv⟩ := exists_after? (P := fun s =>
    (∃ u ∈ s.tasks, u.isAtGate 0 .parallel) ∧ (∃ u ∈ s.tasks, u.isAtGate 1 .single) ∧
    s.tasks.length = 2 ∧
    ((s.after? (.drop :: (.openGates fun _ => true) ::
        (List.replicate 7 (.task 0) ++ List.replicate 6 (.task 1)))).any fun t =>
      t.pools.isUp .parallel ∧ (t.ending? 0).map Ending.fate = some .failed ∧
        (t.ending? 1).map Ending.fate = some .completed) ∧
    (s.after? ((.openGates fun _ => true) :: List.replicate 3 (.task 0) ++
      List.replicate 4 (.call (.task 0)) ++ List.replicate 4 (.task 0))).any fun v =>
        (v.ending? 0).map Ending.fate = some .completed)
    (.attached (.default .one)) beforeAsking (by decide +kernel)
  obtain ⟨t, ht, hup, hfailed, hwoken⟩ := exists_after? _ _ ht
  obtain ⟨v, hv, hdone⟩ := exists_after? _ _ hv
  exact ⟨s, t, v, rfl, hs, hfirst, hsecond, hlen, ht, hup, hfailed, hwoken, hv, hdone⟩

end TaskRelay
