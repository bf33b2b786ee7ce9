import Mathlib
import TaskRelay.Proofs.Call.Exchanges
import TaskRelay.Proofs.Relay.Course

/-!
# What tasks do

In every run of a relay, what each task does are exchanges of its own program, one after another,
and what its steps log on behalf of callables is what these exchanges log (`performed_after`). So
what is proved of a program in whatever surroundings holds of every task that runs it.
-/

namespace TaskRelay

variable {s t first : State} {a : Action} {as : List Action} {u x : Task} {p : Program}

/-! ## What a task logs -/

/-- Logged by a callable with a logging layer. -/
def LogEvent.isOfCallable : LogEvent → Bool
  | .callableFailed _ _ => true
  | _ => false

/-- Whether this is a step of the task with this id. -/
def Action.isOfTask (id : Nat) : Action → Bool
  | .task i => i == id
  | _ => false

/-- What this step logs on behalf of callables, if it is one of the task with this id. -/
def loggedIn (s : State) (a : Action) (t : State) (id : Nat) : List LogEvent :=
  if a.isOfTask id then (t.logs.drop s.logs.length).filter LogEvent.isOfCallable else []

/-- What the steps of the task with this id log on behalf of callables. -/
def State.loggedBy (id : Nat) (s : State) : List Action → List LogEvent
  | [] => []
  | a :: as =>
    match s.step? a with
    | some t => loggedIn s a t id ++ t.loggedBy id as
    | none => []

theorem logs_of_marks {ms : List Mark} (h : t.journal = ms ++ s.journal) :
    t.logs = s.logs ++ ms.reverse.filterMap Mark.log? := by
  rw [State.logs, State.history, h, List.reverse_append, List.filterMap_append]
  rfl

theorem loggedIn_of_marks (ms : List Mark) (h : t.journal = ms ++ s.journal) :
    loggedIn s (.task u.id) t u.id =
      (ms.reverse.filterMap Mark.log?).filter LogEvent.isOfCallable := by
  rw [loggedIn, Action.isOfTask, beq_self_eq_true, if_pos rfl, logs_of_marks h, List.drop_left]

/-- A notification logs nothing on behalf of a callable. -/
theorem loggedIn_of_turn (source : Source) (turn : Turn) (ms : List Mark)
    (h : t.journal = (turn.signs.map (Mark.sign source)).reverse ++ ms ++ s.journal)
    (hm : ms.filterMap Mark.log? = []) : loggedIn s (.task u.id) t u.id = [] := by
  rw [loggedIn_of_marks _ h, List.reverse_append, List.reverse_reverse, List.filterMap_append,
    List.filterMap_reverse, hm, List.reverse_nil, List.nil_append, List.filterMap_map,
    List.filter_eq_nil_iff]
  intro event he
  obtain ⟨sign, -, hs⟩ := List.mem_filterMap.mp he
  cases sign with
  | missed w =>
    obtain rfl := Option.some.inj hs
    exact Bool.false_ne_true
  | note | called | returned => cases hs

theorem loggedIn_of_not_isOfTask {id : Nat} (h : a.isOfTask id = false) :
    loggedIn s a t id = [] := by
  rw [loggedIn, h, if_neg Bool.false_ne_true]

/-! ## What a task has done -/

/-- A task at this program can be in this stage. -/
def Stage.At (p : Program) : Stage → Prop
  | .suspended q | .running q => p = q
  | .submitting next => ∃ entry name body args wake, p = .submit entry name body args wake next
  | stage => ∀ o, stage.decided? = some (.outcome o) → p = .finish o

/-- The task has got to where it is by exchanges of its program that have logged these events. -/
def Task.Performed (u : Task) (events : List LogEvent) : Prop :=
  ∃ es p, u.envelope.program.Reaches es p ∧ u.stage.At p ∧ es.filterMap Exchange.log? = events

/-- Every task has logged these events by exchanges of its program. -/
structure State.Performed (s : State) (logged : Nat → List LogEvent) : Prop where
  tasks : ∀ u ∈ s.tasks, u.Performed (logged u.id)
  others : ∀ id ∉ s.tasks.map Task.id, logged id = []

theorem Stage.at_of_decided? {stage : Stage} {e : Ending} (h : stage.decided? = some e) :
    stage.At p ↔ ∀ o, e = .outcome o → p = .finish o := by
  cases stage with
  | suspended | running | submitting => cases h
  | ended | recorded | notifying | notified | resolved =>
    obtain rfl := Option.some.inj h
    simp [At, decided?]

namespace State.Performed

variable {logged : Nat → List LogEvent}

theorem congr {logged' : Nat → List LogEvent} (h : s.Performed logged) (ht : t.tasks = s.tasks)
    (hl : ∀ id, logged' id = logged id) : t.Performed logged' where
  tasks u hu := by
    rw [hl]
    exact h.tasks u (ht ▸ hu)
  others id hid := by
    rw [hl]
    exact h.others id (ht ▸ hid)

/-- One task changes. -/
theorem change {f : Task → Task} {logged' : Nat → List LogEvent} (h : s.Performed logged)
    (hc : Coherent s) (hx : x ∈ s.tasks)
    (ht : t.tasks = s.tasks.map fun v => if v.id = x.id then f v else v)
    (hf : ∀ v, (f v).id = v.id) (hp : (f x).Performed (logged' x.id))
    (hl : ∀ id, id ≠ x.id → logged' id = logged id) : t.Performed logged' where
  tasks u hu := by
    rw [ht] at hu
    rcases mem_change.mp hu with ⟨v, hv, hid, rfl⟩ | ⟨hu, hid⟩
    · obtain rfl := hc.eq_of_id_eq hv hx hid
      rwa [hf]
    · rw [hl _ hid]
      exact h.tasks u hu
  others id hid := by
    rw [ht, map_map_change hf] at hid
    rw [hl, h.others id hid]
    rintro rfl
    exact hid (List.mem_map_of_mem hx)

theorem launch (h : s.Performed logged) {id : Nat} (hid : id ∉ s.tasks.map Task.id) (c : Caller)
    (pool : PoolName) (e : Envelope) : (s.launch id c pool e).Performed logged where
  tasks u hu := by
    rcases s.mem_launch.mp hu with hu | rfl
    · exact h.tasks u hu
    · exact ⟨[], e.program, .here _, rfl, (h.others id hid).symm⟩
  others i hi := by
    refine h.others i fun hmem => hi ?_
    exact List.map_append ▸ List.mem_append_left _ hmem

/-- An answer completes an exchange of the task that submitted. -/
theorem answer (h : s.Performed logged) (hc : (s.tasks.map Task.id).Nodup) (c : Caller)
    (r : Except RelayError Ticket) : (s.answer c r).Performed logged where
  tasks := by
    have key : ∀ u ∈ s.tasks, ∀ next, u.stage = .submitting next →
        Task.Performed { u with stage := .running (next r) } (logged u.id) := by
      intro u hu next hs
      obtain ⟨es, p, hr, hat, hl⟩ := h.tasks u hu
      rw [hs] at hat
      obtain ⟨entry, name, body, args, wake, rfl⟩ := hat
      refine ⟨_, _, hr.tail (.submit r), rfl, ?_⟩
      rw [List.filterMap_append, hl]
      exact List.append_nil _
    exact forall_answer (P := fun u => u.Performed (logged u.id)) s c r h.tasks key hc
  others id hid := h.others id (s.answer_ids c r ▸ hid)

/-- A step of one task, which goes on in its program by some exchanges, or stays where it is. -/
theorem goOn {f : Task → Task} {a : Action} (h : s.Performed logged) (hc : Coherent s)
    (hx : x ∈ s.tasks) (ht : t.tasks = s.tasks.map fun v => if v.id = x.id then f v else v)
    (hf : ∀ v, (f v).id = v.id ∧ (f v).envelope = v.envelope)
    (ha : ∀ id, id ≠ x.id → a.isOfTask id = false)
    (hp : ∀ p, x.stage.At p → ∃ es q, p.Reaches es q ∧ (f x).stage.At q ∧
      es.filterMap Exchange.log? = loggedIn s a t x.id) :
    t.Performed fun id => logged id ++ loggedIn s a t id := by
  refine h.change hc hx ht (fun v => (hf v).1) ?_ fun id hid => ?_
  · obtain ⟨es, p, hr, hat, hl⟩ := h.tasks x hx
    obtain ⟨es', q, hr', hat', hl'⟩ := hp p hat
    refine ⟨es ++ es', q, (hf x).2 ▸ hr.trans hr', hat', ?_⟩
    rw [List.filterMap_append, hl, hl']
  · rw [loggedIn_of_not_isOfTask (ha id hid), List.append_nil]

/-- The step of a running task to another stage. -/
theorem run {stage : Stage} {es : List Exchange} {q : Program} (h : s.Performed logged)
    (ms : List Mark) (hc : Coherent s) (hx : x ∈ s.tasks) (hs : x.stage = .running p)
    (ht : t.tasks = (s.setStage x.id stage).tasks) (hj : t.journal = ms ++ s.journal)
    (hr : p.Reaches es q) (hat : stage.At q)
    (hl : es.filterMap Exchange.log? =
      (ms.reverse.filterMap Mark.log?).filter LogEvent.isOfCallable) :
    t.Performed fun id => logged id ++ loggedIn s (.task x.id) t id := by
  refine h.goOn (f := fun v => { v with stage := stage }) hc hx ht (fun _ => ⟨rfl, rfl⟩)
    (fun id hid => beq_eq_false_iff_ne.mpr (Ne.symm hid)) fun p' hat' => ?_
  rw [hs] at hat'
  obtain rfl : p' = p := hat'
  exact ⟨es, q, hr, hat, hl.trans (loggedIn_of_marks ms hj).symm⟩

theorem stepProgram (h : s.Performed logged) (hc : Coherent s) (hx : x ∈ s.tasks)
    (hs : x.stage = .running p) :
    (s.stepProgram x p).Performed fun id =>
      logged id ++ loggedIn s (.task x.id) (s.stepProgram x p) id := by
  cases p with
  | finish o =>
    refine h.run [] hc hx hs rfl rfl (.here _) (fun o' he => ?_) rfl
    rw [Ending.outcome.inj (Option.some.inj he)]
  | pause next => exact h.run [] hc hx hs rfl rfl (.step .pause (.here _)) rfl rfl
  | passGate g next =>
    cases hg : s.gateOpen g with
    | true =>
      simp only [State.stepProgram, hg, if_true]
      exact h.run [] hc hx hs rfl rfl (.step .passGate (.here _)) rfl rfl
    | false =>
      simp only [State.stepProgram, hg, Bool.false_eq_true, if_false]
      exact h.run [] hc hx hs rfl rfl (.here _) rfl rfl
  | onThread next => exact h.run [] hc hx hs rfl rfl (.step (.onThread _) (.here _)) rfl rfl
  | logFailure name f next =>
    exact h.run [.loggedFailure name f] hc hx hs rfl rfl (.step .logFailure (.here _)) rfl rfl
  | submit entry name body args wake next =>
    simp only [State.stepProgram]
    split_ifs
    · exact h.run [] hc hx hs rfl rfl (.step (.submit _) (.here _)) rfl rfl
    · exact h.run [_] hc hx hs rfl rfl (.here _) ⟨_, _, _, _, _, rfl⟩ rfl
  | await ticket next =>
    simp only [State.stepProgram]
    split
    · exact h.run [] hc hx hs rfl rfl (.step (.await _) (.here _)) rfl rfl
    · exact h.run [] hc hx hs rfl rfl (.here _) rfl rfl

/-- A step of one task, which stays where it is in its program. -/
theorem keep {stage : Stage} (h : s.Performed logged) (hc : Coherent s) (hx : x ∈ s.tasks)
    (ht : t.tasks = (s.setStage x.id stage).tasks) (ha : ∀ id, id ≠ x.id → a.isOfTask id = false)
    (hat : ∀ p, x.stage.At p → stage.At p) (hl : loggedIn s a t x.id = []) :
    t.Performed fun id => logged id ++ loggedIn s a t id :=
  h.goOn (f := fun v => { v with stage := stage }) hc hx ht (fun _ => ⟨rfl, rfl⟩) ha
    fun p hp => ⟨[], p, .here p, hat p hp, hl.symm⟩

theorem taskMove (h : s.Performed logged) (hc : Coherent s) (hx : x ∈ s.tasks)
    (hn : ∀ p, a = .task x.id → x.stage ≠ .running p) (m : TaskMove s x a t) :
    t.Performed fun id => logged id ++ loggedIn s a t id := by
  have hother : ∀ id, id ≠ x.id → (Action.task x.id).isOfTask id = false :=
    fun id hid => beq_eq_false_iff_ne.mpr (Ne.symm hid)
  -- once its end is certain, a task is past its program
  have hpast : ∀ {stage stage' : Stage} {e : Ending}, stage.decided? = some e →
      stage'.decided? = some e → ∀ p, stage.At p → stage'.At p :=
    fun hd hd' p hp => (Stage.at_of_decided? hd').mpr ((Stage.at_of_decided? hd).mp hp)
  cases m with
  | go hs | log hs | finish hs => exact absurd hs (hn _ rfl)
  | @resume p hs =>
    refine h.goOn (f := fun v => { v with begun := true, stage := .running p }) hc hx rfl
      (fun _ => ⟨rfl, rfl⟩) hother fun p' hp => ⟨[], p', .here _, ?_, ?_⟩
    · rwa [hs] at hp
    · exact (loggedIn_of_marks [] rfl).symm
  | @record o hs =>
    refine h.keep hc hx rfl hother (hpast (by rw [hs]; rfl) rfl) ?_
    rw [loggedIn_of_marks [.recorded x.id o] rfl]
    cases o <;> rfl
  | pass hs =>
    exact h.keep hc hx rfl hother (hpast (by rw [hs]; rfl) rfl) (loggedIn_of_marks [] rfl)
  | @notify e w hs =>
    refine h.keep hc hx (setStage_tasks (afterTurn_tasks _ _ _) _ _) hother
      (hpast (by rw [hs]; rfl) (Stage.decided?_ofProgress _ _))
      (loggedIn_of_turn (.task x.id) (s.registry.notify w) [.notify (.task x.id) w] ?_ rfl)
    simp [State.setStage, State.note]
  | @react e i hs =>
    refine h.keep hc hx (setStage_tasks (afterTurn_tasks _ _ _) _ _) hother
      (hpast (by rw [hs]; rfl) (Stage.decided?_ofProgress _ _))
      (loggedIn_of_turn (.task x.id) (s.registry.step i) [] ?_ rfl)
    simp [State.setStage]
  | @resolve e hs =>
    exact h.keep hc hx rfl hother (hpast (by rw [hs]; rfl) rfl)
      (loggedIn_of_marks [.resolved x.id e] rfl)
  | cancel | cancelUnwinding =>
    exact h.keep hc hx rfl (fun _ _ => rfl) (fun _ _ _ ho => by cases ho)
      (loggedIn_of_not_isOfTask rfl)

/-- Every step of a relay is exchanges of the task that takes it, if one does. -/
theorem step (h : s.Performed logged) (hc : Coherent s) (hs : s.step? a = some t) :
    t.Performed fun id => logged id ++ loggedIn s a t id := by
  have hquiet : (∀ id, a.isOfTask id = false) → t.Performed logged →
      t.Performed fun id => logged id ++ loggedIn s a t id := by
    refine fun ha ht => ht.congr rfl fun id => ?_
    rw [loggedIn_of_not_isOfTask (ha id), List.append_nil]
  by_cases hrun : ∃ x ∈ s.tasks, ∃ p, a = .task x.id ∧ x.stage = .running p
  · obtain ⟨x, hx, p, rfl, hp⟩ := hrun
    rw [hc.step?_of_running hx hp] at hs
    obtain rfl := Option.some.inj hs
    exact h.stepProgram hc hx hp
  · cases move_of_step? hs with
    | outside m => exact hquiet (fun _ => by cases m <;> rfl) (h.congr m.tasks_eq fun _ => rfl)
    | ask | close | drop => exact hquiet (fun _ => rfl) (h.congr rfl fun _ => rfl)
    | askInside hx hp => exact absurd ⟨_, (task?_spec hx).1, _, rfl, hp⟩ hrun
    | call hx m =>
      refine hquiet (fun _ => rfl) ?_
      cases m with
      | allow | lock | number | count | send | receive => exact h.congr rfl fun _ => rfl
      | refuse => exact h.answer hc.ids_nodup _ _
      | unlock | abandon =>
        exact (h.congr (t := s.setHolder none) rfl fun _ => rfl).answer hc.ids_nodup _ _
      | @launch id hcount =>
        have hn := (hc.id_of_call (call?_spec hx).1 (by rw [hcount]; rfl)).2
        exact (h.launch hn _ _ _).answer (hc.nodup_launch hn _ _ _) _ _
    | worker m =>
      refine hquiet (fun _ => rfl) ?_
      cases m with
      | @launch p id hw =>
        have hn := (hc.id_of_worker (by rw [hw]; rfl)).2
        exact (h.launch hn _ _ _).congr rfl fun _ => rfl
      | _ => exact h.congr rfl fun _ => rfl
    | task hx m =>
      have hx := (task?_spec hx).1
      exact h.taskMove hc hx (fun p ha hp => hrun ⟨_, hx, p, ha, hp⟩) m

theorem after (h : s.Performed logged) (hr : s.Reachable) (hs : s.after? as = some t) :
    t.Performed fun id => logged id ++ s.loggedBy id as := by
  induction as generalizing s logged with
  | nil =>
    obtain rfl := Option.some.inj hs
    exact h.congr rfl fun _ => List.append_nil _
  | cons a as ih =>
    obtain ⟨u, hu, hs⟩ := Option.bind_eq_some_iff.mp hs
    refine (ih (h.step hr.coherent hu) (hr.step hu) hs).congr rfl fun id => ?_
    rw [State.loggedBy, hu, List.append_assoc]

end State.Performed

/-! ## Runs -/

variable {site : Site} {hosted : Bool} {settings : Settings}

/-- Whatever the tasks of a relay do and log, they do by exchanges of their programs. -/
theorem performed_after (hf : State.startWith site hosted settings = .running first)
    (hs : first.after? as = some s) : s.Performed fun id => first.loggedBy id as := by
  have hr : first.Reachable := ⟨site, hosted, settings, first, hf, .here⟩
  obtain rfl := eq_start_of_startWith hf
  have hstart : (State.start (.ofSettings hosted settings) settings.color).Performed fun _ => [] :=
    ⟨fun _ hu => by simp [State.start] at hu, fun _ _ => rfl⟩
  exact hstart.after hr hs

/-- A task that came to an outcome came to it by exchanges of its program. -/
theorem exists_exchanges_of_outcome (hf : State.startWith site hosted settings = .running first)
    (hs : first.after? as = some s) (hu : u ∈ s.tasks) {o : Outcome}
    (ho : u.stage.decided? = some (.outcome o)) :
    ∃ es, u.envelope.program.Reaches es (.finish o) ∧
      es.filterMap Exchange.log? = first.loggedBy u.id as := by
  obtain ⟨es, p, hr, hat, hl⟩ := (performed_after hf hs).tasks u hu
  obtain rfl := (Stage.at_of_decided? ho).mp hat o rfl
  exact ⟨es, hr, hl⟩

end TaskRelay
