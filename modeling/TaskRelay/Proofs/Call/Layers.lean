import Mathlib
import TaskRelay.Call.Layer
import TaskRelay.Proofs.Failure.Traces
import TaskRelay.Proofs.Relay.Exchanges

/-!
# Stacks of layers

Whatever layers do comes after all that the callable does itself (`wrap_body`), and only after a
failure. It comes out of them with one capture for each tracing layer, and a logging layer sees it
with the captures of the tracing layers below. Main statement: `seenThroughLayers`, about every
surrounding of a callable: a task of a relay, and a thread without one.
-/

namespace TaskRelay

/-! ## Failures in layers -/

namespace Layer

/-- The stack trace with which it captures. -/
def trace? : Layer → Option String
  | .traced trace => some trace
  | .logged => none

def logs : Layer → Bool
  | .traced _ => false
  | .logged => true

/-- The stack traces with which these capture, innermost first. -/
def traces (layers : List Layer) : List String := layers.filterMap trace?

theorem traces_eq_nil_iff {layers : List Layer} :
    traces layers = [] ↔ ∀ trace, Layer.traced trace ∉ layers := by
  rw [traces, List.filterMap_eq_nil_iff]
  refine ⟨fun h trace ht => Option.some_ne_none _ (h _ ht), fun h l hl => ?_⟩
  cases l with
  | traced trace => exact absurd hl (h trace)
  | logged => rfl

end Layer

namespace Failure

/-- Captured once with each of these traces, the first innermost. -/
def capturedWith (f : Failure) (traces : List String) : Failure :=
  traces.foldl (fun f trace => .captured trace f) f

theorem capturedWith_concat (f : Failure) (traces : List String) (trace : String) :
    f.capturedWith (traces ++ [trace]) = .captured trace (f.capturedWith traces) :=
  List.foldl_concat _ _ _ _

/-- Captures are taken off, the outermost first. -/
def uncaptured? : Nat → Failure → Option Failure
  | 0, f => some f
  | n + 1, f => f.capture?.bind fun c => c.2.uncaptured? n

theorem uncaptured?_capturedWith (f : Failure) (traces : List String) :
    (f.capturedWith traces).uncaptured? traces.length = some f := by
  induction traces using List.reverseRecOn with
  | nil => rfl
  | append_singleton traces trace ih =>
    rw [capturedWith_concat, List.length_append]
    exact ih

theorem report_capturedWith (f : Failure) (traces : List String) (colored : Bool) :
    (f.capturedWith traces).report colored = f.report colored := by
  induction traces using List.reverseRecOn with
  | nil => rfl
  | append_singleton traces trace ih =>
    rw [capturedWith_concat]
    exact ih

theorem shown?_capturedWith (f : Failure) (traces : List String) :
    (f.capturedWith traces).shown? = traces.getLast?.or f.shown? := by
  induction traces using List.reverseRecOn with
  | nil => rfl
  | append_singleton traces trace =>
    rw [capturedWith_concat, List.getLast?_concat]
    rfl

/-- The failure as the logging layers see it, innermost first. -/
def seenIn (f : Failure) : List Layer → List Failure
  | [] => []
  | .traced trace :: layers => (captured trace f).seenIn layers
  | .logged :: layers => f :: f.seenIn layers

theorem seenIn_append (f : Failure) (below above : List Layer) :
    f.seenIn (below ++ above) =
      f.seenIn below ++ (f.capturedWith (Layer.traces below)).seenIn above := by
  induction below generalizing f with
  | nil => rfl
  | cons l below ih =>
    cases l with
    | traced trace => exact ih _
    | logged => exact congrArg (f :: ·) (ih f)

theorem length_seenIn (f : Failure) (layers : List Layer) :
    (f.seenIn layers).length = layers.countP Layer.logs := by
  induction layers generalizing f with
  | nil => rfl
  | cons l layers ih =>
    cases l with
    | traced trace => exact (ih _).trans (List.countP_cons_of_neg Bool.false_ne_true).symm
    | logged => exact (congrArg (· + 1) (ih f)).trans (List.countP_cons_of_pos rfl).symm

/-- Below a logging layer the failure has been captured by the tracing layers there. -/
theorem seenIn_logged (f : Failure) (below above : List Layer) :
    (f.seenIn (below ++ .logged :: above))[below.countP Layer.logs]? =
      some (f.capturedWith (Layer.traces below)) := by
  rw [seenIn_append, ← length_seenIn f below, List.getElem?_append_right le_rfl, Nat.sub_self]
  rfl

end Failure

/-! ## Programs in layers -/

namespace Outcome

/-- As it comes out of layers. -/
def past (o : Outcome) (layers : List Layer) : Outcome :=
  match o with
  | .failure f => .failure (f.capturedWith (Layer.traces layers))
  | o => o

/-- As a failure, for the logging layers. -/
def seenIn (o : Outcome) (layers : List Layer) : List Failure :=
  match o with
  | .failure f => f.seenIn layers
  | _ => []

end Outcome

namespace Program

variable {p : Program} {next : Outcome → Program} {name : String} {fs : List Failure} {o : Outcome}

/-- Logs these failures under the name of a callable before anything else. -/
def logging (name : String) (fs : List Failure) (p : Program) : Program :=
  fs.foldr (.logFailure name) p

theorem andThen_finish (p : Program) : p.andThen .finish = p := by
  induction p with
  | finish => rfl
  | pause _ ih | passGate _ _ ih | logFailure _ _ _ ih => rw [andThen, ih]
  | onThread _ ih | submit _ _ _ _ _ _ _ ih | await _ _ ih => exact congrArg _ (funext ih)

theorem andThen_andThen (p : Program) (next next' : Outcome → Program) :
    (p.andThen next).andThen next' = p.andThen fun o => (next o).andThen next' := by
  induction p with
  | finish => rfl
  | pause _ ih | passGate _ _ ih | logFailure _ _ _ ih => exact congrArg _ ih
  | onThread _ ih | submit _ _ _ _ _ _ _ ih | await _ _ ih => exact congrArg _ (funext ih)

/-- All that is left to do is to log these failures. -/
theorem reaches_logging_iff {es : List Exchange} {o' : Outcome} :
    (logging name fs (.finish o)).Reaches es (.finish o') ↔
      es = fs.map (.logFailure name) ∧ o' = o := by
  induction fs generalizing es with
  | nil =>
    constructor
    · intro h
      obtain ⟨rfl, ho⟩ := h.of_finish
      exact ⟨rfl, Program.finish.inj ho⟩
    · rintro ⟨rfl, rfl⟩
      exact .here _
  | cons f fs ih =>
    constructor
    · intro h
      cases h with
      | step hd h =>
        cases hd
        obtain ⟨rfl, rfl⟩ := ih.mp h
        exact ⟨rfl, rfl⟩
    · rintro ⟨rfl, rfl⟩
      exact .step .logFailure (ih.mpr ⟨rfl, rfl⟩)

theorem alone_logging (name : String) (fs : List Failure) (o : Outcome) (thread : String) :
    (logging name fs (.finish o)).alone thread = (fs.map (.callableFailed name), some o) := by
  induction fs with
  | nil => rfl
  | cons f fs ih =>
    rw [logging, List.foldr_cons, alone, ← logging, ih]
    rfl

/-- Without a relay the second program follows if the first comes to an outcome. -/
theorem alone_andThen (p : Program) (next : Outcome → Program) (thread : String) :
    (p.andThen next).alone thread =
      ((p.alone thread).1 ++ (p.alone thread).2.elim [] fun o => ((next o).alone thread).1,
        (p.alone thread).2.bind fun o => ((next o).alone thread).2) := by
  induction p with
  | finish => rfl
  | pause _ ih => exact ih
  | onThread _ ih => exact ih thread
  | logFailure name f p ih =>
    rw [andThen, alone, ih]
    rfl
  | passGate | submit | await => rfl

end Program

namespace Callable

variable (c : Callable) (layers : List Layer) (args : Arguments)

theorem wrap_name : (c.wrap layers).name = c.name := by
  induction layers generalizing c with
  | nil => rfl
  | cons l layers ih =>
    rw [wrap, List.foldl_cons, ← wrap, ih]
    cases l <;> rfl

/-- A callable in layers does what it does without, and then the layers log. -/
theorem wrap_body : (c.wrap layers).body args = (c.body args).andThen fun o =>
    .logging c.name (o.seenIn layers) (.finish (o.past layers)) := by
  -- the first layer is the innermost: it makes another callable for the layers above
  induction layers generalizing c with
  | nil =>
    refine (Program.andThen_finish _).symm.trans
      (congrArg (Program.andThen · _) (funext fun o => ?_))
    cases o <;> rfl
  | cons l layers ih =>
    rw [wrap, List.foldl_cons, ← wrap, ih]
    cases l with
    | traced | logged =>
      refine (Program.andThen_andThen _ _ _).trans
        (congrArg (Program.andThen · _) (funext fun o => ?_))
      cases o <;> rfl

/-- It comes to this outcome, called with these arguments, by these exchanges. -/
def ComesTo (es : List Exchange) (o : Outcome) : Prop := (c.body args).Reaches es (.finish o)

theorem comesTo_wrap_iff {es : List Exchange} {o' : Outcome} :
    (c.wrap layers).ComesTo args es o' ↔ ∃ first o, c.ComesTo args first o ∧ o' = o.past layers ∧
      es = first ++ (o.seenIn layers).map (.logFailure c.name) := by
  rw [ComesTo, wrap_body, Program.reaches_andThen_iff]
  constructor
  · rintro ⟨first, o, rest, h, h', rfl⟩
    obtain ⟨rfl, rfl⟩ := Program.reaches_logging_iff.mp h'
    exact ⟨first, o, h, rfl, rfl⟩
  · rintro ⟨first, o, h, rfl, rfl⟩
    exact ⟨first, o, _, h, Program.reaches_logging_iff.mpr ⟨rfl, rfl⟩, rfl⟩

/-- Layers do nothing about values and panics. -/
theorem comesTo_wrap_of_not_failure {es : List Exchange} {o : Outcome} (ho : ∀ f, o ≠ .failure f) :
    (c.wrap layers).ComesTo args es o ↔ c.ComesTo args es o := by
  rw [comesTo_wrap_iff]
  constructor
  · rintro ⟨first, o, h, rfl, rfl⟩
    cases o with
    | failure f => exact absurd rfl (ho _)
    | value | panic => exact (List.append_nil first).symm ▸ h
  · intro h
    refine ⟨es, o, h, ?_⟩
    cases o with
    | failure f => exact absurd rfl (ho f)
    | value | panic => exact ⟨rfl, (List.append_nil es).symm⟩

end Callable

/-! ## Events of layers -/

/-- What the logging layers around a callable of this name log, innermost first. -/
def Outcome.eventsIn (o : Outcome) (name : String) (layers : List Layer) : List LogEvent :=
  (o.seenIn layers).map (.callableFailed name)

theorem filterMap_log?_logFailure (name : String) (fs : List Failure) :
    (fs.map (Exchange.logFailure name)).filterMap Exchange.log? =
      fs.map (.callableFailed name) := by
  rw [List.filterMap_map, ← List.filterMap_eq_map]
  rfl

/-- The event of a logging layer above these layers. -/
structure LogEvent.IsAbove (e : LogEvent) (below : List Layer) (name : String) (f : Failure) :
    Prop where
  level : e.level = .error
  fields : e.fields = [("callable", name)]
  message : e.message = (f.capturedWith (Layer.traces below)).reportWithTrace false
  /-- Only the stack trace depends on the layers. -/
  trace : e.message =
    f.report false ++ ((Layer.traces below).getLast?.or f.shown?).elim "" (Failure.traceText false)
  traceless_iff : e.message = f.report false ↔
    (∀ trace, Layer.traced trace ∉ below) ∧ f.capture? = none

theorem LogEvent.isAbove (below : List Layer) (name : String) (f : Failure) :
    (LogEvent.callableFailed name (f.capturedWith (Layer.traces below))).IsAbove below name f where
  level := rfl
  fields := rfl
  message := rfl
  trace := by
    rw [message, Failure.reportWithTrace_eq, Failure.report_capturedWith,
      Failure.shown?_capturedWith]
  traceless_iff := by
    rw [message, ← f.report_capturedWith (Layer.traces below),
      Failure.reportWithTrace_eq_report_iff, ← Failure.shown?_eq_none_iff,
      Failure.shown?_capturedWith, Option.or_eq_none_iff, List.getLast?_eq_none_iff,
      Layer.traces_eq_nil_iff, Failure.shown?_eq_none_iff]

namespace Callable

/-- What is seen of a callable through layers. -/
structure IsSeenThrough (c : Callable) (layers : List Layer) (args : Arguments) : Prop where
  name : (c.wrap layers).name = c.name
  value : ∀ es v, (c.wrap layers).ComesTo args es (.value v) ↔ c.ComesTo args es (.value v)
  panic : ∀ es p, (c.wrap layers).ComesTo args es (.panic p) ↔ c.ComesTo args es (.panic p)
  /-- A failure is captured by each tracing layer and logged by each logging layer. -/
  failure : ∀ es f', (c.wrap layers).ComesTo args es (.failure f') ↔
    ∃ first f, c.ComesTo args first (.failure f) ∧ f' = f.capturedWith (Layer.traces layers) ∧
      es = first ++ (f.seenIn layers).map (.logFailure c.name)
  original : ∀ f : Failure,
    (f.capturedWith (Layer.traces layers)).uncaptured? (Layer.traces layers).length = some f
  count : ∀ f : Failure,
    ((Outcome.failure f).eventsIn c.name layers).length = layers.countP Layer.logs
  /-- The events are in the order of the logging layers. -/
  event : ∀ (f : Failure) below above, layers = below ++ .logged :: above →
    ∃ e, ((Outcome.failure f).eventsIn c.name layers)[below.countP Layer.logs]? = some e ∧
      e.IsAbove below c.name f
  /-- On a thread without a relay. -/
  alone : ∀ thread, ((c.wrap layers).body args).alone thread =
    (((c.body args).alone thread).1 ++
        ((c.body args).alone thread).2.elim [] fun o => o.eventsIn c.name layers,
      ((c.body args).alone thread).2.map fun o => o.past layers)
  /-- In every run of every relay. -/
  task : ∀ {site hosted settings first as s},
    State.startWith site hosted settings = .running first → first.after? as = some s →
      ∀ u ∈ s.tasks, u.envelope.callable = c.wrap layers → u.envelope.arguments = args →
        ∀ o', u.stage.decided? = some (.outcome o') → ∃ es o, c.ComesTo args es o ∧
          o' = o.past layers ∧
            first.loggedBy u.id as = es.filterMap Exchange.log? ++ o.eventsIn c.name layers

/--
Layers leave the name, the values and the panics of a callable alone. Its failure comes out of them
with one capture for each tracing layer, and each logging layer logs one event, the innermost first,
with the report of the failure and the stack trace that it shows there.
-/
theorem seenThroughLayers (c : Callable) (layers : List Layer) (args : Arguments) :
    c.IsSeenThrough layers args where
  name := c.wrap_name layers
  value es v := comesTo_wrap_of_not_failure c layers args fun _ => Outcome.noConfusion
  panic es p := comesTo_wrap_of_not_failure c layers args fun _ => Outcome.noConfusion
  failure es f' := by
    rw [comesTo_wrap_iff]
    constructor
    · rintro ⟨first, o, h, ho, hes⟩
      cases o with
      | failure f => exact ⟨first, f, h, Outcome.failure.inj ho, hes⟩
      | value | panic => cases ho
    · rintro ⟨first, f, h, rfl, hes⟩
      exact ⟨first, _, h, rfl, hes⟩
  original f := f.uncaptured?_capturedWith _
  count f := (List.length_map _).trans (f.length_seenIn layers)
  event := by
    rintro f below above rfl
    refine ⟨_, ?_, LogEvent.isAbove below c.name f⟩
    rw [Outcome.eventsIn, List.getElem?_map, Outcome.seenIn, f.seenIn_logged]
    rfl
  alone thread := by
    rw [wrap_body, Program.alone_andThen]
    simp only [Program.alone_logging]
    cases ((c.body args).alone thread).2 <;> rfl
  task hf hs u hu hc ha o' ho := by
    obtain ⟨es', hr, hl⟩ := exists_exchanges_of_outcome hf hs hu ho
    rw [Envelope.program, hc, ha] at hr
    obtain ⟨es, o, h, rfl, rfl⟩ := (c.comesTo_wrap_iff layers args).mp hr
    refine ⟨es, o, h, rfl, ?_⟩
    rw [← hl, List.filterMap_append, filterMap_log?_logFailure]
    rfl

/-- A logging layer sees what is captured below it. -/
example (args : Arguments) :
    (((Callable.mk "f" fun _ => .finish (.failure (.message "no"))).wrap
      [.logged, .traced "a", .logged, .traced "b"]).body args).alone "main" =
        ([.callableFailed "f" (.message "no"), .callableFailed "f" (.captured "a" (.message "no"))],
          some (.failure (.captured "b" (.captured "a" (.message "no"))))) := rfl

end Callable

end TaskRelay
