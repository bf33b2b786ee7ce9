import Mathlib
import TaskRelay.Proofs.Relay.Course

/-!
# The traces of a task

What a task leaves in the journal if its callable depends on nothing but its arguments and the
callback only records: all of it is due from the beginning, and each of its steps leaves what is due
first (`exists_leavesDue`).
-/

namespace TaskRelay

variable {s t : State} {u : Task} {th : String} {p : Program} {c : Callback}

/-! ## Callbacks that record -/

/-- A reaction that leaves notes, and may look at the count of deliveries. -/
inductive Reaction.Records : Reaction → Prop
  | finish : Records .finish
  | note {text : String} {next : Reaction} : Records next → Records (.note text next)
  | delivered {next : Nat → Reaction} : (∀ n, Records (next n)) → Records (.delivered next)

/-- A callback that neither notifies nor installs another. -/
def Callback.Records (c : Callback) : Prop := ∀ w, (c w).Records

/-! ## Traces -/

/-- A mark that is neither of the front nor a note. -/
def Mark.isTrace (m : Mark) : Bool := !m.isFront && m.note?.isNone

/-- What tasks and their notifications have left, besides notes. -/
def State.traces (s : State) : List Mark := s.history.filter Mark.isTrace

theorem traces_of_marks {ms : List Mark} (h : t.journal = ms ++ s.journal) :
    t.traces = s.traces ++ ms.reverse.filter Mark.isTrace := by
  rw [State.traces, State.history, h, List.reverse_append, List.filter_append]
  rfl

theorem SameBack.traces (h : SameBack s t) : t.traces = s.traces := by
  obtain ⟨ms, hj, hm⟩ := h.marks
  have hnone : ms.reverse.filter Mark.isTrace = [] := by
    rw [List.filter_eq_nil_iff]
    intro m hi
    simp [Mark.isTrace, hm m (List.mem_reverse.mp hi)]
  rw [traces_of_marks hj, hnone, List.append_nil]

/-- The notification of a task, from its beginning to the return of the callback. -/
def tellingMarks (id : Nat) : Option WakePointer → List Mark
  | none => []
  | some w => [.notify (.task id) w, .sign (.task id) (.called w), .sign (.task id) .returned]

/-- What a task leaves that goes this course, up to its result. -/
def Course.traces (c : Course) (id : Nat) (wake : Option WakePointer) : List Mark :=
  c.marks ++ match c.outcome with
    | some o => .recorded id o :: (tellingMarks id wake ++ [.resolved id (.outcome o)])
    | none => []

/-- What a task still has to leave. -/
def Stage.due (id : Nat) (wake : Option WakePointer) (th : String) : Stage → List Mark
  | .recorded e => tellingMarks id wake ++ [.resolved id e]
  | .notifying e _ => [.sign (.task id) .returned, .resolved id e]
  | .notified e => [.resolved id e]
  | stage => (stage.course th).traces id wake

def Task.due (pools : Pools) (u : Task) : List Mark :=
  u.stage.due u.id u.envelope.wake (pools.threadName u.pool)

theorem Stage.due_eq {stage : Stage} (h : (stage.course th).outcome.isSome) (id : Nat)
    (wake : Option WakePointer) : stage.due id wake th = (stage.course th).traces id wake := by
  cases stage with
  | suspended | running | ended => rfl
  | submitting | recorded | notifying | notified | resolved => cases h

/-- Nothing but the failures of callables is noted on a course. -/
theorem Program.isTrace_of_course {m : Mark} (h : m ∈ (p.course th).marks) : m.isTrace := by
  induction p with
  | finish | submit | await => cases h
  | pause p ih => exact ih h
  | passGate g p ih => exact ih h
  | onThread k ih => exact ih th h
  | logFailure name f p ih =>
    rcases List.mem_cons.mp h with rfl | h
    · rfl
    · exact ih h

/-! ## Self-contained callables -/

/-- The callable comes to an outcome without a relay or another task, and neither this outcome nor
what it logs depends on anything but its arguments. -/
structure Envelope.IsSelfContained (e : Envelope) : Prop where
  outcome : (e.program.course "").outcome.isSome
  threads : ∀ th, e.program.course th = e.program.course ""

/-- What its task leaves, from the beginning to its result. -/
def Envelope.traces (e : Envelope) (id : Nat) : List Mark :=
  (e.program.course "").traces id e.wake

/-- How its task ends. -/
def Envelope.ending? (e : Envelope) : Option Ending :=
  (e.program.course "").outcome.map .outcome

/-- A task with such a callable on its way to the end, in pools that do not end before. -/
structure Task.OnCourse (pools : Pools) (u : Task) : Prop where
  selfContained : u.envelope.IsSelfContained
  up : pools.isUp u.pool
  destiny : u.stage.destiny? (pools.threadName u.pool) = u.envelope.ending?
  /-- The callback that tells of it neither waits for another nor calls one. -/
  records : ∀ e i, u.stage = .notifying e i → i.waiting = [] ∧ i.running.Records

namespace Task.OnCourse

theorem isSome_destiny (h : u.OnCourse s.pools) :
    (u.stage.destiny? (s.pools.threadName u.pool)).isSome := by
  rw [h.destiny, Envelope.ending?, Option.isSome_map]
  exact h.selfContained.outcome

theorem of_resolved {e : Ending} (h : u.OnCourse s.pools) (hs : u.stage = .resolved e) :
    u.envelope.ending? = some e := by
  rw [← h.destiny, hs]
  rfl

theorem due_of_resolved (h : u.isResolved) (pools : Pools) : u.due pools = [] := by
  cases hs : u.stage with
  | resolved e =>
    rw [due, hs]
    rfl
  | _ => simp [isResolved, ending?, Stage.ending?, hs] at h

/-- A task that has just been launched has everything before it. -/
theorem launch {pools : Pools} {e : Envelope} {pool : PoolName} (h : e.IsSelfContained)
    (ha : pools.isUp pool) (id : Nat) (c : Caller) :
    OnCourse pools ⟨id, c, e, pool, false, .suspended e.program⟩ ∧
      due pools ⟨id, c, e, pool, false, .suspended e.program⟩ = e.traces id := by
  have hth := h.threads (pools.threadName pool)
  refine ⟨⟨h, ha, ?_, fun _ _ hs => by cases hs⟩, ?_⟩
  · rw [Envelope.ending?, ← hth]
    rfl
  · rw [Envelope.traces, ← hth]
    rfl

end Task.OnCourse

/-! ## Steps of a task -/

/-- A step of the task changes it by `f` and leaves these marks, the traces among which were due
first. -/
structure LeavesDue (s : State) (u : Task) (t : State) (f : Task → Task) (ms : List Mark) :
    Prop where
  tasks : t.tasks = s.tasks.map fun v => if v.id = u.id then f v else v
  keep : ∀ v, (f v).id = v.id ∧ (f v).envelope = v.envelope
  journal : t.journal = ms ++ s.journal
  due : ms.reverse.filter Mark.isTrace ++ (f u).due s.pools = u.due s.pools
  onCourse : (f u).OnCourse s.pools
  callback : t.registry.callback = s.registry.callback

/-- It moves on to a stage with the same end before it. -/
theorem Task.OnCourse.setStage (h : u.OnCourse s.pools) (stage : Stage) (ms : List Mark)
    (ht : t.tasks = (s.setStage u.id stage).tasks) (hj : t.journal = ms ++ s.journal)
    (hd : ms.reverse.filter Mark.isTrace ++
      stage.due u.id u.envelope.wake (s.pools.threadName u.pool) = u.due s.pools)
    (hs : stage.destiny? (s.pools.threadName u.pool) =
      u.stage.destiny? (s.pools.threadName u.pool))
    (hr : ∀ e i, stage = .notifying e i → i.waiting = [] ∧ i.running.Records)
    (hc : t.registry.callback = s.registry.callback) :
    LeavesDue s u t (fun v => { v with stage := stage }) ms :=
  ⟨ht, fun _ => ⟨rfl, rfl⟩, hj, hd, ⟨h.selfContained, h.up, hs.trans h.destiny, hr⟩, hc⟩

theorem exists_leavesDue_of_running (h : u.OnCourse s.pools) (hp : u.stage = .running p) :
    ∃ f ms, LeavesDue s u (s.stepProgram u p) f ms := by
  have hd := h.isSome_destiny
  rw [hp] at hd
  obtain ⟨e, he⟩ := Option.isSome_iff_exists.mp hd
  have hsome := Stage.course_isSome he
  obtain ⟨stage, ms, heq, hcourse⟩ := stepProgram_course hsome
  obtain ⟨o, ho⟩ := Option.isSome_iff_exists.mp hsome
  have hstage : (stage.course (s.pools.threadName u.pool)).outcome = some o :=
    (congrArg Course.outcome hcourse).symm.trans ho
  have htrace : ms.reverse.filter Mark.isTrace = ms.reverse := by
    refine List.filter_eq_self.mpr fun m hm => ?_
    have hmem : m ∈ (p.course (s.pools.threadName u.pool)).marks := by
      rw [hcourse]
      exact List.mem_append_left _ hm
    exact Program.isTrace_of_course hmem
  rw [heq]
  refine ⟨_, ms, h.setStage stage ms rfl rfl ?_ ?_ ?_ rfl⟩
  · rw [Stage.due_eq (by rw [hstage]; rfl), htrace, Task.due, hp]
    show _ = (p.course _).traces _ _
    rw [hcourse, Course.traces, Course.traces, List.append_assoc]
  · rw [Stage.destiny?_eq hstage, hp]
    exact (Stage.destiny?_eq (show (Stage.running p |>.course _).outcome = some o from ho)).symm
  · rintro e i rfl
    cases hstage

theorem exists_leavesDue_of_recorded {e : Ending} (hc : Coherent s) (hu : u ∈ s.tasks)
    (h : u.OnCourse s.pools) (hcb : s.registry.callback = some c) (hrec : c.Records)
    (hp : u.stage = .recorded e) (hs : s.step? (.task u.id) = some t) :
    ∃ f ms, LeavesDue s u t f ms := by
  have hdue : ∀ wake, u.envelope.wake = wake →
      u.due s.pools = tellingMarks u.id wake ++ [.resolved u.id e] := by
    rintro wake rfl
    rw [Task.due, hp]
    rfl
  have hdestiny : u.stage.destiny? (s.pools.threadName u.pool) = some e := by
    rw [hp]
    rfl
  rw [hc.step?_task hu] at hs
  cases hw : u.envelope.wake with
  | none =>
    simp only [State.stepTask?, hp, hw] at hs
    obtain rfl := Option.some.inj hs
    refine ⟨_, [], h.setStage (.notified e) [] rfl rfl ?_ hdestiny.symm
      (fun _ _ hs => by cases hs) rfl⟩
    rw [hdue _ hw]
    rfl
  | some w =>
    simp only [State.stepTask?, hp, hw, Registry.notify_of_some hcb] at hs
    obtain rfl := Option.some.inj hs
    refine ⟨_, [.sign (.task u.id) (.called w), .notify (.task u.id) w],
      h.setStage (.notifying e ⟨c w, []⟩) _ rfl rfl ?_ hdestiny.symm ?_ rfl⟩
    · rw [hdue _ hw]
      rfl
    · rintro e i hi
      obtain ⟨-, rfl⟩ := Stage.notifying.inj hi
      exact ⟨rfl, hrec w⟩

theorem exists_leavesDue_of_notifying {e : Ending} {i : Invocation} (hc : Coherent s)
    (hu : u ∈ s.tasks) (h : u.OnCourse s.pools) (hp : u.stage = .notifying e i)
    (hs : s.step? (.task u.id) = some t) : ∃ f ms, LeavesDue s u t f ms := by
  obtain ⟨hwait, hrec⟩ := h.records e i hp
  obtain ⟨running, waiting⟩ := i
  obtain rfl : waiting = [] := hwait
  have hdue : u.due s.pools = [.sign (.task u.id) .returned, .resolved u.id e] := by
    rw [Task.due, hp]
    rfl
  have hdestiny : u.stage.destiny? (s.pools.threadName u.pool) = some e := by
    rw [hp]
    rfl
  rw [hc.step?_task hu] at hs
  simp only [State.stepTask?, hp] at hs
  -- while the callback leaves notes and looks at the count, it goes on recording
  have hgo : ∀ (ms : List Mark) {next : Reaction} {w : State}, next.Records →
      w.tasks = s.tasks → w.journal = ms ++ s.journal → ms.reverse.filter Mark.isTrace = [] →
      w.registry.callback = s.registry.callback →
      ∃ f ms, LeavesDue s u (w.setStage u.id (.notifying e ⟨next, []⟩)) f ms := by
    intro ms next w hn ht hj hm hr
    refine ⟨_, ms, h.setStage _ ms (State.setStage_tasks ht _ _) hj ?_ hdestiny.symm ?_ hr⟩
    · rw [hm, hdue]
      rfl
    · rintro e i hi
      obtain ⟨-, rfl⟩ := Stage.notifying.inj hi
      exact ⟨rfl, hn⟩
  cases hrec with
  | finish =>
    obtain rfl := Option.some.inj hs
    refine ⟨_, [.sign (.task u.id) .returned], h.setStage (.notified e) _ rfl rfl ?_
      hdestiny.symm (fun _ _ hs => by cases hs) rfl⟩
    rw [hdue]
    rfl
  | @note text next hn =>
    obtain rfl := Option.some.inj hs
    exact hgo [.sign (.task u.id) (.note text)] hn rfl rfl rfl rfl
  | @delivered next hn =>
    obtain rfl := Option.some.inj hs
    exact hgo [] (hn _) rfl rfl rfl rfl

/-- Whatever a task does, it leaves what is due first. -/
theorem exists_leavesDue (hc : Coherent s) (hu : u ∈ s.tasks) (h : u.OnCourse s.pools)
    (hcb : s.registry.callback = some c) (hrec : c.Records)
    (hs : s.step? (.task u.id) = some t) : ∃ f ms, LeavesDue s u t f ms := by
  cases hp : u.stage with
  | running p =>
    rw [hc.step?_of_running hu hp] at hs
    obtain rfl := Option.some.inj hs
    exact exists_leavesDue_of_running h hp
  | recorded e => exact exists_leavesDue_of_recorded hc hu h hcb hrec hp hs
  | notifying e i => exact exists_leavesDue_of_notifying hc hu h hp hs
  | suspended p =>
    rw [hc.step?_task hu] at hs
    simp only [State.stepTask?, hp] at hs
    split_ifs at hs
    obtain rfl := Option.some.inj hs
    refine ⟨fun v => { v with begun := true, stage := .running p }, [], rfl, fun _ => ⟨rfl, rfl⟩,
      rfl, ?_, ⟨h.selfContained, h.up, ?_, fun _ _ hs => by cases hs⟩, rfl⟩
    · rw [Task.due, Task.due, hp]
      rfl
    · rw [← h.destiny, hp]
      rfl
  | ended o =>
    rw [hc.step?_task hu] at hs
    simp only [State.stepTask?, hp] at hs
    obtain rfl := Option.some.inj hs
    refine ⟨_, [.recorded u.id o], h.setStage (.recorded (.outcome o)) _ rfl rfl ?_ ?_
      (fun _ _ hs => by cases hs) rfl⟩
    · rw [Task.due, hp]
      rfl
    · rw [hp]
      rfl
  | notified e =>
    rw [hc.step?_task hu] at hs
    simp only [State.stepTask?, hp] at hs
    obtain rfl := Option.some.inj hs
    refine ⟨_, [.resolved u.id e], h.setStage (.resolved e) _ rfl rfl ?_ ?_
      (fun _ _ hs => by cases hs) rfl⟩
    · rw [Task.due, hp]
      rfl
    · rw [hp]
      rfl
  | submitting next =>
    have := h.isSome_destiny
    rw [hp] at this
    cases this
  | resolved e =>
    rw [hc.step?_task hu] at hs
    simp only [State.stepTask?, hp] at hs
    cases hs

end TaskRelay
