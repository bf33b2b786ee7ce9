import Mathlib
import TaskRelay.Proofs.Wake.Nesting

/-!
# Threads at one registry

Any number of threads use one registry at once. The slot of the callback is behind a lock: a thread
that reads or writes the slot comes to the lock, is let in, and gives the lock back when it has read
or written. Callbacks run on the thread that notified, and their own calls go the same way. Next to
the steps of `Registry`, which say what a use does, `Usage` keeps where each thread is, how it
stands to the lock, and a log of all that has happened, with the callbacks themselves.
-/

namespace TaskRelay

/-! ## Places -/

/-- A call that a thread makes of its own accord. -/
inductive Use where
  | install (callback : Callback)
  | notify (wake : WakePointer)
  /-- Asks whether a wake pointer would be accepted. -/
  | ready (wake : Option WakePointer)

/-- How the lock is held: any number of threads may read together, one that writes is alone. -/
inductive Guard where
  | shared
  | exclusive
deriving DecidableEq

/-- Where a thread is. -/
inductive UsePlace where
  | idle
  | calling (u : Use)
  | within (i : Invocation)

/-- How a thread stands to the lock. -/
inductive Approach where
  | away
  | waiting
  | inside
deriving DecidableEq

structure User where
  place : UsePlace
  approach : Approach

def Use.guard? : Use → Option Guard
  | .install _ => some .exclusive
  | .notify _ => some .shared
  | .ready wake => if wake.isSome then some .shared else none

/-- What a callback does next needs the lock only if it touches the slot. -/
def Reaction.guard? : Reaction → Option Guard
  | .install _ _ => some .exclusive
  | .notify _ _ => some .shared
  | _ => none

namespace UsePlace

def guard? : UsePlace → Option Guard
  | .idle => none
  | .calling u => u.guard?
  | .within i => i.running.guard?

/-- The notification that comes next, if one does. -/
def wake? : UsePlace → Option WakePointer
  | .calling (.notify w) => some w
  | .within ⟨.notify w _, _⟩ => some w
  | _ => none

/-- How many callbacks are running on a thread there. -/
def depth : UsePlace → Nat
  | .within i => i.waiting.length + 1
  | _ => 0

def ofProgress : Progress → UsePlace
  | .running i => .within i
  | .done _ => .idle

theorem wake?_eq_none {p : UsePlace} (h : p.guard? = none) : p.wake? = none := by
  match p with
  | .idle | .calling (.install _) | .calling (.ready _) => rfl
  | .within ⟨.finish, _⟩ | .within ⟨.note _ _, _⟩ | .within ⟨.delivered _, _⟩ => rfl

end UsePlace

/-! ## Events -/

inductive UseEvent where
  /-- A call of `notify` comes to the slot. -/
  | begun (wake : WakePointer)
  /-- The slot was read, and this callback in it is called. -/
  | called (callback : Callback) (wake : WakePointer)
  /-- The slot was read, and there was nothing in it. -/
  | missed (wake : WakePointer)
  /-- The callback called last of those still running has returned. -/
  | returned
  | installed (callback : Callback)
  /-- A callback looked at the number of deliveries. -/
  | saw (delivered : Nat)
  | note (text : String)
  | answered (wake : Option WakePointer) (accepted : Bool)

namespace UseEvent

def isBegun : UseEvent → Bool
  | .begun _ => true
  | _ => false

def isCalled : UseEvent → Bool
  | .called _ _ => true
  | _ => false

def isMissed : UseEvent → Bool
  | .missed _ => true
  | _ => false

def isReturned : UseEvent → Bool
  | .returned => true
  | _ => false

def installed? : UseEvent → Option Callback
  | .installed c => some c
  | _ => none

/-- The sign that an event is for those outside. -/
def sign? : UseEvent → Option Sign
  | .called _ w => some (.called w)
  | .missed w => some (.missed w)
  | .returned => some .returned
  | .note text => some (.note text)
  | _ => none

end UseEvent

/-- A notification that comes next begins when the thread comes to the lock. -/
def UsePlace.begun (p : UsePlace) : List UseEvent := p.wake?.toList.map .begun

/-! ## One step -/

/-- What a thread does at once: the registry after it, the event that it is, and where it leads. -/
structure Deed where
  registry : Registry
  event : UseEvent
  place : UsePlace

namespace Registry

/-- What a notification finds in the slot. -/
def finding (r : Registry) (w : WakePointer) : UseEvent :=
  match r.callback with
  | some c => .called c w
  | none => .missed w

def eventOf (r : Registry) : Reaction → UseEvent
  | .finish => .returned
  | .note text _ => .note text
  | .delivered _ => .saw r.delivered
  | .install c _ => .installed c
  | .notify w _ => r.finding w

def deed? (r : Registry) : UsePlace → Option Deed
  | .idle => none
  | .calling (.install c) => some ⟨r.install c, .installed c, .idle⟩
  | .calling (.ready wake) => some ⟨r, .answered wake (r.ready wake), .idle⟩
  | .calling (.notify w) =>
    some ⟨(r.notify w).registry, r.finding w, .ofProgress (r.notify w).progress⟩
  | .within i => some ⟨(r.step i).registry, r.eventOf i.running, .ofProgress (r.step i).progress⟩

end Registry

/-- All that a thread can do at a place. -/
inductive Deed.Does (r : Registry) : UsePlace → Deed → Prop where
  | install (c : Callback) : Does r (.calling (.install c)) ⟨r.install c, .installed c, .idle⟩
  | ready (wake : Option WakePointer) :
      Does r (.calling (.ready wake)) ⟨r, .answered wake (r.ready wake), .idle⟩
  | call {c : Callback} (h : r.callback = some c) (w : WakePointer) :
      Does r (.calling (.notify w)) ⟨r, .called c w, .within ⟨c w, []⟩⟩
  | miss (h : r.callback = none) (w : WakePointer) :
      Does r (.calling (.notify w)) ⟨r.missing, .missed w, .idle⟩
  | finish :
      Does r (.within ⟨.finish, []⟩) ⟨{ r with delivered := r.delivered + 1 }, .returned, .idle⟩
  | back (next : Bool → Reaction) (rest : List (Bool → Reaction)) :
      Does r (.within ⟨.finish, next :: rest⟩)
        ⟨{ r with delivered := r.delivered + 1 }, .returned, .within ⟨next true, rest⟩⟩
  | note (text : String) (next : Reaction) (rest : List (Bool → Reaction)) :
      Does r (.within ⟨.note text next, rest⟩) ⟨r, .note text, .within ⟨next, rest⟩⟩
  | look (next : Nat → Reaction) (rest : List (Bool → Reaction)) :
      Does r (.within ⟨.delivered next, rest⟩)
        ⟨r, .saw r.delivered, .within ⟨next r.delivered, rest⟩⟩
  | replace (c : Callback) (next : Reaction) (rest : List (Bool → Reaction)) :
      Does r (.within ⟨.install c next, rest⟩) ⟨r.install c, .installed c, .within ⟨next, rest⟩⟩
  | nest {c : Callback} (h : r.callback = some c) (w : WakePointer) (next : Bool → Reaction)
      (rest : List (Bool → Reaction)) :
      Does r (.within ⟨.notify w next, rest⟩) ⟨r, .called c w, .within ⟨c w, next :: rest⟩⟩
  | lose (h : r.callback = none) (w : WakePointer) (next : Bool → Reaction)
      (rest : List (Bool → Reaction)) :
      Does r (.within ⟨.notify w next, rest⟩)
        ⟨r.missing, .missed w, .within ⟨next false, rest⟩⟩

namespace Deed.Does

variable {r : Registry} {p : UsePlace} {d : Deed}

theorem callback (h : d.Does r p) : d.registry.callback = d.event.installed?.or r.callback := by
  cases h <;> rfl

theorem delivered (h : d.Does r p) :
    d.registry.delivered = r.delivered + [d.event].countP UseEvent.isReturned := by
  cases h <;> rfl

theorem missed (h : d.Does r p) :
    d.registry.missed = r.missed + [d.event].countP UseEvent.isMissed := by
  cases h <;> rfl

end Deed.Does

theorem Registry.does_of_deed? {r : Registry} {p : UsePlace} {d : Deed} (h : r.deed? p = some d) :
    d.Does r p := by
  match p with
  | .idle => cases h
  | .calling (.install c) => cases h; exact .install c
  | .calling (.ready wake) => cases h; exact .ready wake
  | .calling (.notify w) =>
    cases hc : r.callback with
    | none =>
      simp only [deed?, finding, notify, hc, Option.some.injEq] at h
      subst h
      exact .miss hc w
    | some c =>
      simp only [deed?, finding, notify, hc, Option.some.injEq] at h
      subst h
      exact .call hc w
  | .within ⟨.finish, []⟩ => cases h; exact .finish
  | .within ⟨.finish, next :: rest⟩ => cases h; exact .back next rest
  | .within ⟨.note text next, rest⟩ => cases h; exact .note text next rest
  | .within ⟨.delivered next, rest⟩ => cases h; exact .look next rest
  | .within ⟨.install c next, rest⟩ => cases h; exact .replace c next rest
  | .within ⟨.notify w next, rest⟩ =>
    cases hc : r.callback with
    | none =>
      simp only [deed?, eventOf, finding, step, hc, Option.some.injEq] at h
      subst h
      exact .lose hc w next rest
    | some c =>
      simp only [deed?, eventOf, finding, step, hc, Option.some.injEq] at h
      subst h
      exact .nest hc w next rest

theorem Registry.exists_deed {r : Registry} {p : UsePlace} (h : p ≠ .idle) :
    ∃ d, r.deed? p = some d := by
  match p with
  | .idle => exact absurd rfl h
  | .calling (.install _) | .calling (.ready _) | .calling (.notify _) | .within _ => exact ⟨_, rfl⟩

/-- A registry, the threads that use it, and what has happened, in order. -/
structure Usage (n : Nat) where
  registry : Registry
  users : Fin n → User
  log : List (Fin n × UseEvent)

namespace Usage

variable {n : Nat}

inductive Act (n : Nat) where
  /-- A thread that is idle makes a call. -/
  | call (k : Fin n) (u : Use)
  /-- The next step of a thread. -/
  | go (k : Fin n)

def start (n : Nat) : Usage n := ⟨.empty, fun _ => ⟨.idle, .away⟩, []⟩

/-- A thread does something: the registry becomes `r`, the thread is now `x`, and these events
happen. -/
def move (s : Usage n) (k : Fin n) (r : Registry) (x : User) (es : List UseEvent) : Usage n where
  registry := r
  users := Function.update s.users k x
  log := s.log ++ es.map (k, ·)

/-- Whether the lock admits one more thread. -/
def IsFree (s : Usage n) : Guard → Prop
  | .shared => ∀ j, (s.users j).approach = .inside → (s.users j).place.guard? = some .shared
  | .exclusive => ∀ j, (s.users j).approach ≠ .inside

instance (s : Usage n) : (g : Guard) → Decidable (s.IsFree g)
  | .shared => inferInstanceAs
      (Decidable (∀ j, (s.users j).approach = .inside → (s.users j).place.guard? = some .shared))
  | .exclusive => inferInstanceAs (Decidable (∀ j, (s.users j).approach ≠ .inside))

/-- A thread comes to the lock. If it is to notify, this is where the call begins. -/
def come (s : Usage n) (k : Fin n) : Usage n :=
  let place := (s.users k).place
  s.move k s.registry ⟨place, .waiting⟩ place.begun

def enter (s : Usage n) (k : Fin n) : Usage n :=
  s.move k s.registry ⟨(s.users k).place, .inside⟩ []

/-- Does what a thread is about to do; if that needed the lock, the lock is given back. -/
def perform (s : Usage n) (k : Fin n) (d : Deed) : Usage n :=
  s.move k d.registry ⟨d.place, .away⟩ [d.event]

def go? (s : Usage n) (k : Fin n) : Option (Usage n) :=
  let x := s.users k
  match x.place.guard?, x.approach with
  | some _, .away => some (s.come k)
  | some g, .waiting => if s.IsFree g then some (s.enter k) else none
  | _, _ => (s.registry.deed? x.place).map (s.perform k)

def step? (s : Usage n) : Act n → Option (Usage n)
  | .call k u =>
    match (s.users k).place with
    | .idle => some (s.move k s.registry ⟨.calling u, .away⟩ [])
    | _ => none
  | .go k => s.go? k

def after? (s : Usage n) : List (Act n) → Option (Usage n)
  | [] => some s
  | a :: rest => s.step? a >>= fun t => t.after? rest

variable {s s' : Usage n} {k : Fin n}

/-- All that the next step of a thread can be. -/
inductive Goes (s : Usage n) (k : Fin n) : Usage n → Prop where
  | come {g : Guard} (hg : (s.users k).place.guard? = some g) (h : (s.users k).approach = .away) :
      Goes s k (s.come k)
  | enter {g : Guard} (hg : (s.users k).place.guard? = some g)
      (h : (s.users k).approach = .waiting) (free : s.IsFree g) : Goes s k (s.enter k)
  | perform {d : Deed} (hd : d.Does s.registry (s.users k).place)
      (h : (s.users k).place.guard? = none ∨ (s.users k).approach = .inside) :
      Goes s k (s.perform k d)

theorem goes_of_go? (h : s.go? k = some s') : s.Goes k s' := by
  simp only [go?] at h
  split at h
  · next hg ha => cases h; exact .come hg ha
  · next hg ha =>
    split at h
    · next free => cases h; exact .enter hg ha free
    · cases h
  · next away waiting =>
    obtain ⟨d, hd, rfl⟩ := Option.map_eq_some_iff.mp h
    refine .perform (Registry.does_of_deed? hd) ?_
    cases hg : (s.users k).place.guard? with
    | none => exact .inl rfl
    | some g =>
      cases ha : (s.users k).approach with
      | away => exact (away _ hg ha).elim
      | waiting => exact (waiting _ hg ha).elim
      | inside => exact .inr rfl

theorem after?_cons {a : Act n} {as : List (Act n)} {t : Usage n} (h : s.step? a = some s')
    (h' : s'.after? as = some t) : s.after? (a :: as) = some t :=
  Option.bind_eq_some_iff.mpr ⟨s', h, h'⟩

/-- What holds at first and is kept by each call and each step of a thread holds throughout. -/
theorem after?_induct {P : Usage n → Prop}
    (call : ∀ s k u, P s → (s.users k).place = .idle →
      P (s.move k s.registry ⟨.calling u, .away⟩ []))
    (go : ∀ s k s', P s → s.Goes k s' → P s') :
    ∀ {as : List (Act n)} {s s' : Usage n}, P s → s.after? as = some s' → P s'
  | [], _, _, hs, h => Option.some.inj h ▸ hs
  | a :: as, s, s', hs, h => by
    obtain ⟨t, ht, h⟩ := Option.bind_eq_some_iff.mp h
    refine after?_induct call go ?_ h
    cases a with
    | call k u =>
      simp only [step?] at ht
      split at ht
      · next idle => cases ht; exact call s k u hs idle
      · cases ht
    | go k => exact go s k t hs (goes_of_go? ht)

end Usage

end TaskRelay
