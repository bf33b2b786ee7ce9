import Mathlib
import TaskRelay.Proofs.Relay.Notification
import TaskRelay.Proofs.Relay.Replies

/-!
# How pools end

Only the drop of the relay and its host change pools, and none comes up again (`Move.isUp`). The
drop ends the pools that belong to the relay, which are all but the parallel one of a host
(`isUp_of_drop`), and the pool of a host is up until the host ends it (`isUp_of_after?`).
-/

namespace TaskRelay

variable {s t first : State} {a : Action} {as : List Action} {n : PoolName}
variable {site : Site} {hosted : Bool} {settings : Settings}

/-! ## What changes pools -/

/-- What a pool is, however far it has come. -/
def Pool.kind (q : Pool) : String × Bool := (q.threadName, q.owned)

theorem Pool.kind_release (q : Pool) : q.release.kind = q.kind := by
  rw [release]
  split <;> rfl

theorem Pool.kind_kill (q : Pool) : q.kill.kind = q.kind := by
  rw [kill]
  split <;> rfl

theorem Move.pools (m : Move s a t) : t.pools = s.pools ∨ a = .drop ∧ t.pools = s.pools.release ∨
    a = .killHost ∧ t.pools = s.pools.killHost := by
  cases m with
  | outside m =>
    cases m with
    | killHost => exact .inr (.inr ⟨rfl, rfl⟩)
    | notify | react => exact .inl (by simp only [State.afterTurn, State.noteSigns_eq, State.note])
    | _ => exact .inl rfl
  | ask | askInside | close => exact .inl rfl
  | call _ m => exact .inl m.pools_eq
  | worker m => exact .inl m.pools_eq
  | drop => exact .inr (.inl ⟨rfl, rfl⟩)
  | task _ m => exact .inl m.pools_eq

namespace Pools

variable (p : Pools)

theorem get?_release (n : PoolName) : p.release.get? n = (p.get? n).map Pool.release := by
  cases n <;> rfl

theorem kind_release (n : PoolName) :
    (p.release.get? n).map Pool.kind = (p.get? n).map Pool.kind := by
  rw [get?_release, Option.map_map]
  exact congrArg (Option.map · _) (funext Pool.kind_release)

theorem kind_killHost (n : PoolName) :
    (p.killHost.get? n).map Pool.kind = (p.get? n).map Pool.kind := by
  cases n with
  | parallel => exact congrArg some p.parallel.kind_kill
  | interactive | single => rfl

theorem isUp_eq (n : PoolName) : p.isUp n = (p.get? n).any fun q => q.stage == .up := by
  rw [isUp, stage]
  cases p.get? n <;> rfl

theorem isUp_release (n : PoolName) : p.release.isUp n =
    (p.isUp n && (p.get? n).any fun q => !q.owned) := by
  rw [isUp_eq, isUp_eq, get?_release]
  cases p.get? n with
  | none => rfl
  | some q =>
    obtain ⟨_, owned, stage⟩ := q
    cases owned <;> cases stage <;> rfl

theorem isUp_of_killHost {n : PoolName} (h : p.killHost.isUp n) : p.isUp n := by
  obtain ⟨⟨_, owned, stage⟩, _, _⟩ := p
  cases n with
  | parallel => cases owned <;> cases stage <;> first | exact h | cases h
  | interactive | single => exact h

theorem threadName_eq (n : PoolName) :
    p.threadName n = (((p.get? n).map Pool.kind).map Prod.fst).getD "" := by
  rw [threadName]
  cases p.get? n <;> rfl

end Pools

theorem Move.kind_eq (m : Move s a t) (n : PoolName) :
    (t.pools.get? n).map Pool.kind = (s.pools.get? n).map Pool.kind := by
  rcases m.pools with h | ⟨-, h⟩ | ⟨-, h⟩ <;> rw [h]
  · exact s.pools.kind_release n
  · exact s.pools.kind_killHost n

theorem Leads.kind_eq (hl : Leads s t) (n : PoolName) :
    (t.pools.get? n).map Pool.kind = (s.pools.get? n).map Pool.kind := by
  induction hl with
  | here => rfl
  | step _ hs ih => exact ((move_of_step? hs).kind_eq n).trans ih

theorem Leads.threadName_eq (hl : Leads s t) (n : PoolName) :
    t.pools.threadName n = s.pools.threadName n := by
  rw [Pools.threadName_eq, Pools.threadName_eq, hl.kind_eq]

theorem Move.isUp (m : Move s a t) (h : t.pools.isUp n) : s.pools.isUp n := by
  rcases m.pools with e | ⟨-, e⟩ | ⟨-, e⟩ <;> rw [e] at h
  · exact h
  · rw [Pools.isUp_release] at h
    exact (Bool.and_eq_true_iff.mp h).1
  · exact s.pools.isUp_of_killHost h

theorem Move.isUp_eq_false (m : Move s a t) (h : s.pools.isUp n = false) :
    t.pools.isUp n = false := by
  by_contra hn
  rw [m.isUp (by simpa using hn)] at h
  cases h

theorem isUp_eq_false_of_after? (h : s.pools.isUp n = false) (hs : s.after? as = some t) :
    t.pools.isUp n = false := by
  induction as generalizing s with
  | nil =>
    obtain rfl := Option.some.inj hs
    exact h
  | cons a as ih =>
    obtain ⟨v, hv, hs⟩ := Option.bind_eq_some_iff.mp hs
    exact ih ((move_of_step? hv).isUp_eq_false h) hs

/-! ## Pools that are owned, and others -/

/-- The pool does not end with the relay. -/
def Pools.Outlasts (p : Pools) (n : PoolName) : Prop := ∀ q, p.get? n = some q → q.owned = false

theorem Leads.outlasts (hl : Leads s t) (h : s.pools.Outlasts n) : t.pools.Outlasts n := by
  intro q hq
  have hkind := hl.kind_eq n
  rw [hq] at hkind
  obtain ⟨q', hq', hkind⟩ := Option.map_eq_some_iff.mp hkind.symm
  exact (congrArg Prod.snd hkind).symm.trans (h q' hq')

/-- All pools belong to the relay, but for the parallel one of a host. -/
theorem owned_of_run (hf : State.startWith site hosted settings = .running first)
    (hl : Leads first s) {q : Pool} (hq : s.pools.get? n = some q) :
    q.owned = (!hosted || n != .parallel) := by
  have hk := hl.kind_eq n
  rw [hq] at hk
  obtain ⟨q', hq', hkind⟩ := Option.map_eq_some_iff.mp hk.symm
  rw [show q.owned = q'.owned from (congrArg Prod.snd hkind).symm]
  obtain rfl := eq_start_of_startWith hf
  obtain ⟨r, hr, ho, -⟩ := Pools.ofSettings_eq_around hosted settings
  simp only [State.start, hr, Pools.get?, Pools.around] at hq'
  cases n with
  | parallel =>
    obtain rfl := Option.some.inj hq'
    rw [ho]
    exact (Bool.or_false _).symm
  | interactive | single =>
    dsimp only at hq'
    split_ifs at hq'
    obtain rfl := Option.some.inj hq'
    simp

/-- With the relay its own pools end. -/
theorem isUp_of_drop (hf : State.startWith site hosted settings = .running first)
    (hl : Leads first s) (hs : s.step? .drop = some t) :
    t.pools.isUp n = (s.pools.isUp n && (hosted && n == .parallel)) := by
  have ht : t.pools = s.pools.release := by
    cases move_of_step? hs with
    | drop => rfl
    | outside m => cases m
    | task _ m => cases m
  rw [ht, Pools.isUp_release]
  cases hq : s.pools.get? n with
  | none => simp [Pools.isUp_eq, hq]
  | some q =>
    rw [Option.any_some, owned_of_run hf hl hq]
    cases hosted <;> cases n <;> rfl

/-- A pool of a host is up unless the host ends it. -/
theorem isUp_of_after? (hs : s.after? as = some t) (hk : .killHost ∉ as)
    (ho : s.pools.Outlasts n) (ha : s.pools.isUp n) : t.pools.isUp n := by
  induction as generalizing s with
  | nil =>
    obtain rfl := Option.some.inj hs
    exact ha
  | cons a as ih =>
    obtain ⟨v, hv, hs⟩ := Option.bind_eq_some_iff.mp hs
    rw [List.mem_cons, not_or] at hk
    refine ih hs hk.2 ((Leads.here.step hv).outlasts ho) ?_
    rcases (move_of_step? hv).pools with e | ⟨-, e⟩ | ⟨rfl, -⟩
    · rw [e]
      exact ha
    · rw [e, Pools.isUp_release, ha, Bool.true_and]
      cases hq : s.pools.get? n with
      | none => simp [Pools.isUp_eq, hq] at ha
      | some q => simpa using ho q hq
    · exact absurd rfl hk.1

end TaskRelay
