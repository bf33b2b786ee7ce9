import Mathlib
import TaskRelay.Proofs.Relay.Conservation
import TaskRelay.Proofs.Relay.Receipts

/-!
# Nested submissions

What a line of tasks, each of which submits the next one and waits for it, adds to the statistics,
and what its handles say when the innermost fails. Each failure stands as one text in the next, so
nothing is lost on the way out. A task that its pool has dropped is counted as submitted but has no
outcome to be counted, and whoever waits for it goes on.
Main statement: `nested`.
-/

namespace TaskRelay

variable {first s t : State} {as : List Action} {i : Nat} {l : List Nat}

/-! ## What the handles say -/

/-- Whatever error the task takes from the handle, it turns into a failure of its own that says the
same and has no causes. -/
def Receipt.Relays (r : Receipt first as) : Prop :=
  ∀ err, r.ending.result = .error err → (r.next (.error err)).Fails err.message

/-- `Gets` by a task that relays what it gets. -/
def Relays (first : State) (as : List Action) (i j : Nat) : Prop :=
  ∃ r : Receipt first as, r.outer.id = i ∧ r.inner.id = j ∧ r.Relays

theorem Relays.gets {j : Nat} : Relays first as i j → Gets first as i j :=
  fun ⟨r, ho, hi, _⟩ => ⟨r, ho, hi⟩

namespace Receipt

variable (r : Receipt first as)

/-- With the error the task goes on, and if it relays it, that is all it can end with. -/
theorem exists_failure (hf : first.Reachable) (hs : first.after? as = some s) (hr : r.Relays)
    {err : TaskError} (he : r.ending.result = .error err) {o : Outcome}
    (ho : s.ending? r.outer.id = some (.outcome o)) :
    ∃ f, o = .failure f ∧ f.chain = ⟨err.message, []⟩ := by
  have hc := (r.reachable hf).coherent
  have hstep : r.state.step? (.task r.outer.id) =
      some (r.state.setStage r.outer.id (.running (r.next r.ending.result))) := by
    have hend := r.inner_ending? hf
    rw [← r.ticket_id] at hend
    rw [hc.step?_task r.outer_mem]
    simp only [State.stepTask?, r.awaits, State.stepProgram, hend]
  have hl : Leads (r.state.setStage r.outer.id (.running (r.next r.ending.result))) s := by
    rw [r.split, after?_append, r.reached] at hs
    exact leads_of_after? ((after?_cons hstep r.after).symm.trans hs)
  refine ((r.reachable hf).step hstep).failure_of_fails hl (mem_setStage_self r.outer_mem _) rfl
    ?_ ho
  rw [he]
  exact hr err he

/-- A failure that is relayed stands as one text in the failure of the task that waited for it. -/
theorem exists_message (hf : first.Reachable) (hs : first.after? as = some s) (hr : r.Relays)
    {f : Failure} (he : s.ending? r.inner.id = some (.outcome (.failure f))) {o : Outcome}
    (ho : s.ending? r.outer.id = some (.outcome o)) : ∃ g, o = .failure g ∧
      TaskError.message (.failed g) = "task failed: " ++ TaskError.message (.failed f) := by
  have hend := ((r.leads hs).ending?_life (r.reachable hf) (r.inner_ending? hf)).1
  have hres : r.ending.result = .error (.failed f) := by
    rw [← Option.some.inj (he.symm.trans hend)]
    rfl
  obtain ⟨g, rfl, hchain⟩ := r.exists_failure hf hs hr hres ho
  have hjoined : g.joined = TaskError.message (.failed f) := by
    rw [Failure.joined, hchain]
    exact String.intercalate_singleton
  exact ⟨g, rfl, congrArg ("task failed: " ++ ·) hjoined⟩

/-- The ready-made callable that submits another one relays its error. -/
theorem relays_of_nested (hf : first.Reachable) {entry : Entry} {e : Envelope}
    (h : r.outer.envelope.program = .nested entry e) : r.Relays := by
  have hp := ((r.reachable hf).allFaithful _ r.outer_mem).program
  rw [r.awaits, h] at hp
  exact fun err _ => Program.fails_of_nested hp err

end Receipt

/-- What the outermost of a line says of the failure of the innermost. -/
theorem exists_message_of_chain (hf : first.Reachable) (hs : first.after? as = some s)
    (hl : (i :: l).IsChain (Relays first as)) {inner : Nat} (hlast : (i :: l).getLast? = some inner)
    {f : Failure} (hfail : s.ending? inner = some (.outcome (.failure f)))
    (hends : ∀ k ∈ i :: l, ∃ o, s.ending? k = some (.outcome o)) :
    ∃ g, s.ending? i = some (.outcome (.failure g)) ∧ TaskError.message (.failed g) =
      String.join (List.replicate (l.length + 1) "task failed: ") ++ f.joined := by
  induction l generalizing i with
  | nil =>
    obtain rfl := Option.some.inj hlast
    exact ⟨f, hfail, rfl⟩
  | cons j l ih =>
    obtain ⟨⟨r, rfl, rfl, hr⟩, htail⟩ := List.isChain_cons_cons.mp hl
    -- the task below says it with one label less, and this one relays it
    obtain ⟨g, hg, hm⟩ := ih htail hlast fun k hk => hends k (List.mem_cons_of_mem _ hk)
    obtain ⟨o, ho⟩ := hends _ (List.mem_cons_self ..)
    obtain ⟨g', rfl, hm'⟩ := r.exists_message hf hs hr hg ho
    refine ⟨g', ho, ?_⟩
    rw [hm', hm, ← String.append_assoc, ← String.join_cons, ← List.replicate_succ]
    rfl

/-! ## Figures -/

namespace State

/-- How much of the figures about ends is due to the task with this id. -/
def endShare (s : State) (id : Nat) : Nat :=
  s.share .completed id + s.share .failed id + s.share .panicked id

/-- Dropped by its pool, and not taken for a task that panicked. -/
def isLost (s : State) (id : Nat) : Bool :=
  match s.ending? id with
  | some .cancelled => s.share .panicked id == 0
  | _ => false

end State

namespace State.Reachable

/-- A task with a result is counted once unless it is lost. -/
theorem endShare_add_isLost (h : s.Reachable) (hi : (s.ending? i).isSome) :
    s.endShare i + (if s.isLost i then 1 else 0) = 1 := by
  obtain ⟨e, he⟩ := Option.isSome_iff_exists.mp hi
  obtain ⟨u, hm, rfl, hs⟩ := h.coherent.exists_task_of_ending? he
  rw [endShare, isLost, he]
  cases e with
  | outcome o =>
    have hr : u.stage.recorded? = some (.outcome o) := by rw [hs]; rfl
    rw [h.share_of_outcome hm hr rfl, h.share_of_outcome hm hr rfl, h.share_of_outcome hm hr rfl]
    cases o <;> rfl
  | cancelled =>
    obtain ⟨hcompleted, hfailed, -⟩ := h.share_of_cancelled hm (by rw [hs]; rfl)
    have hle := h.share_add_le_one hm
    simp only [hcompleted, hfailed, beq_iff_eq] at hle ⊢
    split <;> omega

/-- The tasks with these ids, and the others. -/
theorem ids_perm_append (h : s.Reachable) (hd : l.Nodup) (hl : ∀ i ∈ l, (s.ending? i).isSome) :
    (s.tasks.map Task.id).Perm (l ++ (s.tasks.map Task.id).filter fun i => i ∉ l) := by
  have hin : ((s.tasks.map Task.id).filter fun i => i ∈ l).Perm l := by
    rw [List.perm_ext_iff_of_nodup (h.coherent.ids_nodup.filter _) hd]
    intro i
    rw [List.mem_filter, decide_eq_true_eq, and_iff_right_iff_imp]
    intro hi
    obtain ⟨e, he⟩ := Option.isSome_iff_exists.mp (hl i hi)
    obtain ⟨u, hm, rfl, -⟩ := h.coherent.exists_task_of_ending? he
    exact List.mem_map_of_mem hm
  have hsplit := List.filter_append_perm (fun i => decide (i ∈ l)) (s.tasks.map Task.id)
  simp only [← decide_not] at hsplit
  exact hsplit.symm.trans (hin.append_right _)

/-- What the figures about ends count, split into these tasks and the others. -/
theorem figure_ends_eq (h : s.Reachable) (hd : l.Nodup) (hl : ∀ i ∈ l, (s.ending? i).isSome) :
    s.figure .completed + s.figure .failed + s.figure .panicked + l.countP s.isLost =
      l.length + (((s.tasks.map Task.id).filter fun i => i ∉ l).map s.endShare).sum := by
  have hsum : s.figure .completed + s.figure .failed + s.figure .panicked =
      ((s.tasks.map Task.id).map s.endShare).sum := by
    rw [h.figure_eq_sum rfl, h.figure_eq_sum rfl, h.figure_eq_sum rfl, ← List.sum_map_add,
      ← List.sum_map_add, List.map_map]
    rfl
  have hline : (l.map s.endShare).sum + l.countP s.isLost = l.length := by
    rw [← sum_map_ite, ← List.sum_map_add,
      List.map_congr_left fun i hi => h.endShare_add_isLost (hl i hi), List.map_const',
      List.sum_replicate, smul_eq_mul, mul_one]
  -- the tasks of the line and the others are all tasks there are
  rw [hsum, ((h.ids_perm_append hd hl).map s.endShare).sum_eq, List.map_append, List.sum_append]
  omega

/-- What the figures about submissions count, split in the same way. -/
theorem figure_submissions_eq (h : s.Reachable) (hd : l.Nodup)
    (hl : ∀ i ∈ l, (s.ending? i).isSome) : s.figure .direct + s.figure .dispatched =
      l.length + ((s.tasks.map Task.id).filter fun i => i ∉ l).length +
        s.calls.countP (fun x => x.stage.isCounted) + s.dispatch.worker.isCounted.toNat := by
  have hlen := (h.ids_perm_append hd hl).length_eq
  rw [List.length_map, List.length_append] at hlen
  rw [← hlen]
  exact h.census.counted

end State.Reachable

/-! ## The whole line -/

structure InnermostFirst (first : State) (as : List Action) (s : State) (l : List Nat) : Prop where
  /-- Ids go up from the outermost task to the innermost. -/
  ids : l.Pairwise (· < ·)
  /-- The end of each is recorded if it is an outcome, its notification has returned if there is one
  to be made, and then its handle has the result. -/
  lives : ∀ i ∈ l, ∃ u ∈ s.tasks, u.id = i ∧ ∃ e, s.ending? i = some e ∧
    Life i u.envelope.wake (.resolved e) (s.life i)
  /-- All this is done for the innermost first, and for each task before any of it is done for the
  task that waits for it. -/
  order : s.history.filter (fun m => l.any fun i => m.isOf i) = l.reverse.flatMap s.life
  /-- Each is counted as submitted, besides the other tasks and the submissions that are counted and
  no tasks yet. -/
  submissions : s.figure .direct + s.figure .dispatched = l.length +
    ((s.tasks.map Task.id).filter fun i => i ∉ l).length +
      s.calls.countP (fun x => x.stage.isCounted) + s.dispatch.worker.isCounted.toNat
  /-- Each is counted as ended but those that are lost, besides what is due to the other tasks. -/
  ends : s.figure .completed + s.figure .failed + s.figure .panicked + l.countP s.isLost =
    l.length + (((s.tasks.map Task.id).filter fun i => i ∉ l).map s.endShare).sum
  /-- A task that was cancelled is lost unless it was dropped on a thread that was unwinding. -/
  lost : ∀ i ∈ l, s.ending? i = some .cancelled → s.isLost i ∨ .cancel i true ∈ as
  /-- If each comes to an outcome, and the innermost fails and the others relay what they learn,
  then each failure says what the innermost said, behind one label for each level. -/
  messages : l.IsChain (Relays first as) → (∀ i ∈ l, ∃ o, s.ending? i = some (.outcome o)) →
    ∀ inner f, l.getLast? = some inner → s.ending? inner = some (.outcome (.failure f)) →
      ∀ above i below, l = above ++ i :: below → ∃ e g, s.ending? i = some e ∧
        e.result = .error (.failed g) ∧ TaskError.message (.failed g) =
          String.join (List.replicate (below.length + 1) "task failed: ") ++ f.joined

theorem innermostFirst {site : Site} {hosted : Bool} {settings : Settings}
    (hfirst : State.startWith site hosted settings = .running first) (hs : first.after? as = some s)
    (hl : l.IsChain (Gets first as)) (hends : ∀ i ∈ l, (s.ending? i).isSome) :
    InnermostFirst first as s l := by
  have hf : first.Reachable := ⟨site, hosted, settings, first, hfirst, .here⟩
  have h : s.Reachable := hf.after hs
  have hids := pairwise_of_chain hf hl
  have hd : l.Nodup := hids.imp ne_of_lt
  refine ⟨hids, fun i hi => ?_, life_of_chain hf hs hl, h.figure_submissions_eq hd hends,
    h.figure_ends_eq hd hends, fun i _ he => ?_,
    fun hr ho inner f hlast hfail above i below hsplit => ?_⟩
  · obtain ⟨e, he⟩ := Option.isSome_iff_exists.mp (hends i hi)
    obtain ⟨u, hm, rfl, hstage⟩ := h.coherent.exists_task_of_ending? he
    have hlife := h.lives.tasks u hm
    rw [hstage] at hlife
    exact ⟨u, hm, rfl, e, he, hlife⟩
  · obtain ⟨u, hm, rfl, hstage⟩ := h.coherent.exists_task_of_ending? he
    obtain ⟨-, -, hunwinding⟩ := h.share_of_cancelled hm (by rw [hstage]; rfl)
    rw [State.isLost, he, beq_iff_eq]
    exact or_iff_not_imp_left.mpr fun hp => unwinding_of_run hfirst hs (hunwinding hp)
  · subst hsplit
    obtain ⟨g, hg, hmessage⟩ := exists_message_of_chain hf hs hr.right_of_append
      (by simpa using hlast) hfail fun k hk => ho k (List.mem_append_right _ hk)
    exact ⟨_, g, hg, rfl, hmessage⟩

/-- An envelope with the ready-made callable that submits another one. -/
def Envelope.nesting (entry : Entry) (e : Envelope) (wake : Option WakePointer) : Envelope :=
  ⟨⟨"callable", fun _ => .nested entry e⟩, .empty, wake⟩

/-- Submits a callable that fails with a cause. -/
def Envelope.nestingFailure : Envelope :=
  .nesting .single (.comingTo (.failure (.chained "no" ["why"])) (WakePointer.ofAddress? 24))
    (WakePointer.ofAddress? 16)

/-- Three levels, straight, behind the worker and on the pool with a single thread, up to where the
middle task is about to learn of the innermost. -/
def untilFailure : List Action := List.flatten [
  [.install Observer.first.callback,
    .submit 0 .direct (.nesting .serial .nestingFailure (WakePointer.ofAddress? 8))],
  List.replicate 4 (.call (.thread 0)), List.replicate 2 (.task 0),
  List.replicate 3 (.call (.task 0)), List.replicate 5 .worker,
  List.replicate 2 (.call (.task 0)), List.replicate 2 (.task 1),
  List.replicate 4 (.call (.task 1)), List.replicate 7 (.task 2)]

def untilRelayed : List Action := untilFailure ++ List.replicate 7 (.task 1)

def threeLevels : List Action := untilRelayed ++ List.replicate 7 (.task 0)

theorem innermostFirst_threeLevels : ∃ s, State.plain.after? threeLevels = some s ∧
    [0, 1, 2].IsChain (Relays .plain threeLevels) ∧ s.figures = [2, 1, 0, 3, 0, 3, 0] ∧
      InnermostFirst .plain threeLevels s [0, 1, 2] := by
  obtain ⟨s, hs, -, hends, hfig⟩ := exists_run (P := fun s =>
    (∀ i ∈ ([0, 1, 2] : List Nat), (s.ending? i).isSome) ∧ s.figures = [2, 1, 0, 3, 0, 3, 0])
    threeLevels (by decide +kernel)
  obtain ⟨s₁, hs₁, -, h₁⟩ := exists_run (P := fun s => s.takes 1 2) untilFailure (by decide +kernel)
  obtain ⟨s₀, hs₀, -, h₀⟩ := exists_run (P := fun s => s.takes 0 1) untilRelayed (by decide +kernel)
  have he₁ : (State.plain.after? untilFailure).bind (fun s => (s.task? 1).map Task.envelope) =
      some .nestingFailure := rfl
  have he₀ : (State.plain.after? untilRelayed).bind (fun s => (s.task? 0).map Task.envelope) =
      some (.nesting .serial .nestingFailure (WakePointer.ofAddress? 8)) := rfl
  obtain ⟨r₁, ho₁, hi₁, ht₁⟩ := exists_receipt hs₁ h₁
    (List.replicate 6 (.task 1) ++ List.replicate 7 (.task 0))
  obtain ⟨r₀, ho₀, hi₀, ht₀⟩ := exists_receipt hs₀ h₀ (List.replicate 6 (.task 0))
  rw [hs₁, Option.bind_some, ht₁] at he₁
  rw [hs₀, Option.bind_some, ht₀] at he₀
  have hchain : [0, 1, 2].IsChain (Relays .plain threeLevels) :=
    .cons_cons ⟨r₀, ho₀, hi₀, r₀.relays_of_nested reachable_plain
      (congrArg Envelope.program (Option.some.inj he₀))⟩
    (.cons_cons ⟨r₁, ho₁, hi₁, r₁.relays_of_nested reachable_plain
      (congrArg Envelope.program (Option.some.inj he₁))⟩ (.singleton 2))
  have hfirst : State.startWith .generous false (.default .one) = .running .plain := rfl
  exact ⟨s, hs, hchain, hfig,
    innermostFirst hfirst hs (hchain.imp fun _ _ hr => hr.gets) hends⟩

/-- A task of the single thread submits one to the pool of the host, which ends. -/
def untilHostEnded : List Action := List.flatten [
  [.submit 0 .single (.nesting .direct (.gated (.finish (.value .null)) none) none)],
  List.replicate 4 (.call (.thread 0)), List.replicate 2 (.task 0),
  List.replicate 4 (.call (.task 0)), [.killHost, .cancel 1 false], List.replicate 2 (.task 1)]

def insideEndedHost : List Action := untilHostEnded ++ List.replicate 5 (.task 0)

/-- A task that is lost is not counted as ended, although the one that waited for it goes on. -/
theorem lost_insideEndedHost : ∃ s,
    State.startWith .generous true (.default .one) = .running (.attached (.default .one)) ∧
    (State.attached (.default .one)).after? insideEndedHost = some s ∧
    [0, 1].IsChain (Gets (.attached (.default .one)) insideEndedHost) ∧
    (∀ i ∈ [0, 1], (s.ending? i).isSome) ∧ s.tasks.map Task.id = [0, 1] ∧ s.calls.isEmpty ∧
    s.figure .direct + s.figure .dispatched = 2 ∧
      s.figure .completed + s.figure .failed + s.figure .panicked = 1 := by
  obtain ⟨s, hs, hends⟩ := exists_after? (P := fun s =>
    (∀ i ∈ ([0, 1] : List Nat), (s.ending? i).isSome) ∧ s.tasks.map Task.id = [0, 1] ∧
      s.calls.isEmpty ∧ s.figure .direct + s.figure .dispatched = 2 ∧
        s.figure .completed + s.figure .failed + s.figure .panicked = 1)
    (.attached (.default .one)) insideEndedHost (by decide +kernel)
  obtain ⟨s₀, hs₀, h₀⟩ := exists_after? (P := fun s => s.takes 0 1) (.attached (.default .one))
    untilHostEnded (by decide +kernel)
  obtain ⟨r, ho, hi, -⟩ := exists_receipt hs₀ h₀ (List.replicate 4 (.task 0))
  exact ⟨s, rfl, hs, .cons_cons ⟨r, ho, hi⟩ (.singleton 1), hends⟩

end TaskRelay
