import Mathlib
import TaskRelay.Proofs.Relay.Moves
import TaskRelay.Proofs.Settings.Loading

/-!
# What a start may come to

A relay that starts demands pools and threads, one after the other. Settings without a flaw lead to
one improper demand only, the dispatch thread with NUL in its name, which is made last and breaks
the start. A demand that is denied is reported. But the pools that were granted before it are waited
for then, which a thread inside a pool may not do, so that the start panics there as well
(`Site.Strands`). There is no third way to a panic.
Main statement: `startsUnlessNul`.
-/

namespace TaskRelay

variable {α : Type} {site : Site} {ready : α} {before ds : List Demand} {d : Demand}
variable {hosted : Bool} {s : Settings}

/-! ## Demands -/

namespace Site

theorem not_isImproper (h : site.answer before d ≠ .broken) : ¬d.isImproper :=
  mt (site.answer_eq_broken_iff before d).mpr h

theorem meet_granted (h : site.answer before d = .granted) : site.meet ready before (d :: ds) =
    (d :: (site.meet ready (before ++ [d]) ds).1, (site.meet ready (before ++ [d]) ds).2) := by
  rw [meet, h]

theorem meet_denied (h : site.answer before d = .denied) :
    site.meet ready before (d :: ds) = ([d], site.deny before d) := by
  rw [meet, h]

theorem meet_broken (h : site.answer before d = .broken) :
    site.meet ready before (d :: ds) = ([d], .panicked) := by
  rw [meet, h]

/-- How it ends if demands are made after those granted `before`. -/
inductive Met (site : Site) (ready : α) (before ds : List Demand) :
    List Demand × StartResult α → Prop
  | all : (∀ d ∈ ds, ¬d.isImproper) → Met site ready before ds (ds, .running ready)
  | denied {made rest : List Demand} {d : Demand} : ds = made ++ d :: rest →
      site.answer (before ++ made) d = .denied → (∀ e ∈ made ++ [d], ¬e.isImproper) →
      Met site ready before ds (made ++ [d], site.deny (before ++ made) d)
  | broken {made rest : List Demand} {d : Demand} : ds = made ++ d :: rest → d.isImproper →
      Met site ready before ds (made ++ [d], .panicked)

/-- The same after one demand more that was granted. -/
theorem Met.cons {result : List Demand × StartResult α} (hd : ¬d.isImproper)
    (h : Met site ready (before ++ [d]) ds result) :
    Met site ready before (d :: ds) (d :: result.1, result.2) := by
  cases h with
  | all hall => exact .all (List.forall_mem_cons.mpr ⟨hd, hall⟩)
  | @denied made rest e heq hdenied hall =>
    have hall' : ∀ e' ∈ (d :: made) ++ [e], ¬e'.isImproper := List.forall_mem_cons.mpr ⟨hd, hall⟩
    rw [List.append_assoc, List.singleton_append] at hdenied ⊢
    exact .denied (congrArg (d :: ·) heq) hdenied hall'
  | @broken made rest e heq himproper =>
    have heq' : d :: ds = (d :: made) ++ e :: rest := congrArg (d :: ·) heq
    exact .broken heq' himproper

theorem met (site : Site) (ready : α) (before ds : List Demand) :
    Met site ready before ds (site.meet ready before ds) := by
  induction ds generalizing before with
  | nil => exact .all fun _ hd => absurd hd List.not_mem_nil
  | cons d ds ih =>
    cases h : site.answer before d with
    | granted =>
      rw [meet_granted h]
      exact (ih (before ++ [d])).cons (not_isImproper (h.trans_ne nofun))
    | denied =>
      have hproper : ¬d.isImproper := not_isImproper (h.trans_ne nofun)
      rw [← List.append_nil before] at h
      have hdenied : Met site ready before (d :: ds) ([] ++ [d], site.deny (before ++ []) d) :=
        .denied rfl h (by simpa using hproper)
      rw [List.append_nil] at h hdenied
      rwa [meet_denied h]
    | broken =>
      have hbroken : Met site ready before (d :: ds) ([] ++ [d], .panicked) :=
        .broken rfl ((site.answer_eq_broken_iff before d).mp h)
      rwa [meet_broken h]

theorem deny_eq_panicked_iff : (site.deny before d : StartResult α) = .panicked ↔
    site.inside ∧ d.isDispatch = false ∧ before ≠ [] := by
  rw [deny]
  split_ifs with h
  · refine iff_of_true rfl ?_
    simpa [and_assoc] using h
  · refine iff_of_false (fun hp => by cases hp) fun hall => h ?_
    simpa [and_assoc] using hall

theorem deny_cases (site : Site) (before : List Demand) (d : Demand) :
    (site.deny before d : StartResult α) = .panicked ∨
      site.deny before d = (.refused (.startFailed d.complaint) : StartResult α) := by
  rw [deny]
  split_ifs
  · exact .inl rfl
  · exact .inr rfl

end Site

namespace Settings

theorem ne_zero_of_flaw? (h : s.flaw? = none) : s.workerThreads ≠ 0 := by
  intro hzero
  rw [flaw?, if_pos hzero] at h
  cases h

/-- No pool without workers is asked for, and no thread of a pool has NUL in its name. -/
theorem not_isImproper_of_mem_poolDemands (h : s.flaw? = none) (hd : d ∈ s.poolDemands hosted) :
    ¬d.isImproper := by
  have hworkers := ne_zero_of_flaw? h
  rw [poolDemands, List.mem_append, List.mem_append] at hd
  rcases hd with hd | hd | hd
  · split at hd
    · cases hd
    · obtain rfl := List.mem_singleton.mp hd
      simpa [Demand.isImproper] using hworkers
  · split at hd
    · cases hd
    · next hzero =>
      obtain rfl := List.mem_singleton.mp hd
      simpa [Demand.isImproper] using hzero
  · split at hd
    · simp only [List.mem_cons, List.not_mem_nil, or_false] at hd
      rcases hd with rfl | rfl <;> decide
    · cases hd

theorem isImproper_dispatchDemand :
    s.dispatchDemand.isImproper ↔ '\x00' ∈ s.dispatchThreadName.toList :=
  List.contains_iff_mem

theorem eq_of_isImproper (h : s.flaw? = none) (hd : d ∈ s.demands hosted) (hi : d.isImproper) :
    d = s.dispatchDemand := by
  rcases List.mem_append.mp hd with hd | hd
  · exact absurd hi (not_isImproper_of_mem_poolDemands h hd)
  · exact List.mem_singleton.mp hd

end Settings

/-! ## Starts -/

namespace Site

/-- A pool is denied to a thread inside a pool, after something was granted to it. -/
def Strands (site : Site) (hosted : Bool) (s : Settings) : Prop :=
  site.inside ∧ ∃ made d, made ≠ [] ∧ d.isDispatch = false ∧ site.answer made d = .denied ∧
    (site.start hosted s).1 = made ++ [d]

theorem start_eq (site : Site) (hosted : Bool) (h : s.flaw? = none) : site.start hosted s =
    site.meet (.start (.ofSettings hosted s) s.color) [] (s.demands hosted) := by
  rw [start, h]

theorem start_eq_panicked_iff (site : Site) (hosted : Bool) (h : s.flaw? = none) :
    (site.start hosted s).2 = .panicked ↔
      ('\x00' ∈ s.dispatchThreadName.toList ∧ s.dispatchDemand ∈ (site.start hosted s).1) ∨
        site.Strands hosted s := by
  rw [Strands, site.start_eq hosted h, ← Settings.isImproper_dispatchDemand]
  have hmet := site.met (State.start (.ofSettings hosted s) s.color) [] (s.demands hosted)
  generalize site.meet _ [] (s.demands hosted) = result at hmet ⊢
  cases hmet with
  | all hall =>
    refine iff_of_false (fun hp => by cases hp) ?_
    rintro (⟨hi, hm⟩ | ⟨-, made, d, -, hd, -, heq⟩)
    · exact hall _ hm hi
    · -- the last demand is that for the dispatch thread
      obtain ⟨-, hlast⟩ := List.append_inj' heq rfl
      obtain rfl := List.singleton_inj.mp hlast
      cases hd
  | @denied made rest d heq hdenied hall =>
    rw [deny_eq_panicked_iff]
    constructor
    · rintro ⟨hinside, hd, hmade⟩
      exact .inr ⟨hinside, made, d, hmade, hd, hdenied, rfl⟩
    · rintro (⟨hi, hm⟩ | ⟨hinside, made', d', hmade, hd, -, heq'⟩)
      · exact absurd hi (hall _ hm)
      · obtain ⟨rfl, hlast⟩ := List.append_inj' heq' rfl
        obtain rfl := List.singleton_inj.mp hlast
        exact ⟨hinside, hd, hmade⟩
  | @broken made rest d heq himproper =>
    have hmem : d ∈ s.demands hosted := heq ▸ List.mem_append_right _ (List.mem_cons_self ..)
    obtain rfl := Settings.eq_of_isImproper h hmem himproper
    exact iff_of_true rfl (.inl ⟨himproper, by simp⟩)

/-- A start that does not panic leads to a relay, or one of its demands is denied. -/
theorem start_cases (site : Site) (hosted : Bool) (h : s.flaw? = none)
    (hn : (site.start hosted s).2 ≠ .panicked) :
    site.start hosted s = (s.demands hosted, .running (.start (.ofSettings hosted s) s.color)) ∨
      ∃ made d rest, s.demands hosted = made ++ d :: rest ∧ site.answer made d = .denied ∧
        site.start hosted s = (made ++ [d], .refused (.startFailed d.complaint)) := by
  rw [site.start_eq hosted h] at hn ⊢
  have hmet := site.met (State.start (.ofSettings hosted s) s.color) [] (s.demands hosted)
  generalize site.meet _ [] (s.demands hosted) = result at hmet hn ⊢
  cases hmet with
  | all => exact .inl rfl
  | @denied made rest d heq hdenied =>
    refine .inr ⟨made, d, rest, heq, hdenied, ?_⟩
    rw [(site.deny_cases _ d).resolve_left hn]
  | broken => exact absurd rfl hn

end Site

/-! ## Settings that are loaded -/

namespace Environment

theorem isHeld_of_addLines? {env known env' : Environment} {fuel : Nat} {lines : List (List Char)}
    (henv : env.IsHeld) (h : addLines? env known fuel lines = some env') : env'.IsHeld := by
  induction fuel generalizing env known lines with
  | zero =>
    obtain rfl := Option.some.inj h
    exact henv
  | succ fuel ih =>
    rw [addLines?] at h
    split at h
    · obtain rfl := Option.some.inj h
      exact henv
    · obtain rfl := Option.some.inj h
      exact henv
    · split at h
      · obtain rfl := Option.some.inj h
        exact henv
      · exact ih henv h
      · split_ifs at h with hold hset
        · exact ih henv h
        · exact ih (List.forall_mem_cons.mpr ⟨hset, henv⟩) h

end Environment

namespace Settings

open Json

variable {p : Processors} {t : Settings} {lookup : String → Option String}

theorem flaw?_of_checked (h : s.checked = .ok t) : t = s ∧ t.flaw? = none := by
  rw [checked] at h
  split at h
  · cases h
  · next hnone =>
    obtain rfl := Except.ok.inj h
    exact ⟨rfl, hnone⟩

theorem flaw?_of_ofJsonText {text : String} (h : ofJsonText p text = .ok s) : s.flaw? = none := by
  rw [ofJsonText] at h
  split at h
  · exact (flaw?_of_checked h).2
  · cases h

/-- Loaded settings have no flaw, and their thread name is that of its variable, if it is set. -/
theorem flaw?_of_ofLookup (h : ofLookup p lookup = .ok s) : s.flaw? = none ∧
    s.dispatchThreadName =
      (lookup Field.dispatchThreadName.variableName).getD (default p).dispatchThreadName := by
  rw [ofLookup] at h
  rcases lookupAssignment_eq lookup with ⟨a, ha, hgives⟩ | ⟨f, why, herror, -⟩
  · rw [ha] at h
    obtain ⟨rfl, hflaw⟩ := flaw?_of_checked h
    refine ⟨hflaw, ?_⟩
    have hname : a.dispatchThreadName = lookup Field.dispatchThreadName.variableName := by
      have hgiven := hgives .dispatchThreadName
      rw [Gives] at hgiven
      split at hgiven
      · next hnone => rw [hnone, Option.map_eq_none_iff.mp hgiven]
      · next text hsome =>
        obtain ⟨_, rfl, hvalue⟩ := hgiven
        obtain ⟨name, hset, heq⟩ := Option.map_eq_some_iff.mp hvalue
        rw [hsome, hset, Value.string.inj heq]
    rw [← hname]
    rfl
  · rw [herror] at h
    cases h

theorem flaw?_of_ofEnvironment? {env : Environment} {file : Option (List Char)}
    (henv : env.IsHeld) (h : ofEnvironment? p env file = some (.ok s)) :
    s.flaw? = none ∧ '\x00' ∉ s.dispatchThreadName.toList := by
  obtain ⟨env', henv', h⟩ : ∃ env' : Environment, env'.IsHeld ∧ ofVariables p env' = .ok s := by
    cases file with
    | none => exact ⟨env, henv, Option.some.inj h⟩
    | some text =>
      obtain ⟨env', hadd, h⟩ := Option.map_eq_some_iff.mp h
      exact ⟨env', Environment.isHeld_of_addLines? henv hadd, h⟩
  obtain ⟨hflaw, hname⟩ := flaw?_of_ofLookup h
  refine ⟨hflaw, ?_⟩
  have hvalue := henv'.not_mem_value Field.dispatchThreadName.variableName.toList
  rw [Environment.value] at hvalue
  rw [hname]
  cases hget : env'.get? Field.dispatchThreadName.variableName.toList with
  | none =>
    show '\x00' ∉ "bridge-dispatch".toList
    decide
  | some v =>
    rw [hget] at hvalue
    rw [Option.map_some, Option.getD_some, String.toList_ofList]
    exact fun hmem => hvalue _ hmem rfl

end Settings

/-! ## The result -/

open Settings

/-- What is known of a start with these settings. -/
structure StartsUnlessNul (site : Site) (hosted : Bool) (s : Settings) : Prop where
  /-- Settings with a flaw are refused before anything is demanded. -/
  flawed : ∀ flaw, s.flaw? = some flaw →
    site.start hosted s = ([], .refused (.invalidSettings flaw.message))
  /-- Without one the start panics if it comes to demand a dispatch thread with NUL in its name, or
  if it has to give up pools where it may not wait for them, and for no other reason. -/
  panicked : s.flaw? = none → (State.startWith site hosted s = .panicked ↔
    ('\x00' ∈ s.dispatchThreadName.toList ∧ s.dispatchDemand ∈ (site.start hosted s).1) ∨
      site.Strands hosted s)
  /-- Otherwise there is a relay, or an error that says which demand was denied. -/
  otherwise : s.flaw? = none → State.startWith site hosted s ≠ .panicked →
    site.start hosted s = (s.demands hosted, .running (.start (.ofSettings hosted s) s.color)) ∨
      ∃ made d rest, s.demands hosted = made ++ d :: rest ∧ site.answer made d = .denied ∧
        site.start hosted s = (made ++ [d], .refused (.startFailed d.complaint))
  /-- Settings that are loaded have no flaw, and those of an environment no NUL in the name. -/
  ofJson : ∀ p text, ofJsonText p text = .ok s → s.flaw? = none
  ofLookup : ∀ p lookup, ofLookup p lookup = .ok s → s.flaw? = none
  ofEnvironment : ∀ p env file, env.IsHeld → ofEnvironment? p env file = some (.ok s) →
    s.flaw? = none ∧ '\x00' ∉ s.dispatchThreadName.toList

theorem startsUnlessNul (site : Site) (hosted : Bool) (s : Settings) :
    StartsUnlessNul site hosted s where
  flawed flaw h := by rw [Site.start, h]
  panicked := site.start_eq_panicked_iff hosted
  otherwise := site.start_cases hosted
  ofJson _ _ := flaw?_of_ofJsonText
  ofLookup _ _ h := (flaw?_of_ofLookup h).1
  ofEnvironment _ _ _ := flaw?_of_ofEnvironment?

/-- A thread name that is not blank, but holds NUL. -/
def nulNamed : Settings := { Settings.default .one with dispatchThreadName := "a\x00b" }

/-- Inside a pool, where one more pool is to be had and nothing after it. -/
def Site.crowded : Site where
  answer before d := if d.isImproper then .broken else if before.isEmpty then .granted else .denied
  answer_eq_broken_iff before d := by split_ifs with hd <;> simp [hd]
  inside := true

/-- A start with settings that are checked and loaded can panic: because of the name, although all
is granted, and inside a pool because a second pool is denied. -/
theorem nulNamed_panicked :
    nulNamed.checked = .ok nulNamed ∧
      ofJsonText .one "\x7b\"dispatch_thread_name\":\"a\\u0000b\"\x7d" = .ok nulNamed ∧
      State.startWith .generous false nulNamed = .panicked ∧
      State.startWith .generous true nulNamed = .panicked ∧
      (Settings.default .one).checked = .ok (.default .one) ∧
      State.startWith .crowded false (.default .one) = .panicked := by
  refine ⟨by decide +kernel, by decide +kernel, rfl, rfl, by decide +kernel, rfl⟩

theorem startsUnlessNul_namedFromFile :
    State.startWith .generous false nulNamed = .panicked ∧
    (Site.generous.start true { Settings.default .one with workerThreads := 0 }).1 = [] ∧
    State.startWith .crowded false (.default .one) = .panicked ∧
    ∃ s, ofEnvironment? .one [("BRIDGE_COLOR".toList, "true".toList)]
        (some "BRIDGE_DISPATCH_THREAD_NAME=pump\n".toList) = some (.ok s) ∧
      s.dispatchThreadName = "pump" ∧ State.startWith .generous true s ≠ .panicked := by
  refine ⟨?_, ?_, ?_, { Settings.default .one with dispatchThreadName := "pump", color := true },
    by decide +kernel, rfl, ?_⟩
  · exact ((startsUnlessNul .generous false nulNamed).panicked (by decide +kernel)).mpr
      (.inl ⟨by decide, by decide⟩)
  · rw [(startsUnlessNul .generous true _).flawed .noWorkers rfl]
  · refine ((startsUnlessNul .crowded false (.default .one)).panicked (by decide +kernel)).mpr
      (.inr ⟨rfl, [.pool "bridge-worker" 1], .single "bridge-local", by simp, rfl, rfl, rfl⟩)
  · have hstart := startsUnlessNul .generous true
      { Settings.default .one with dispatchThreadName := "pump", color := true }
    obtain ⟨hflaw, hnul⟩ := hstart.ofEnvironment .one [("BRIDGE_COLOR".toList, "true".toList)]
      (some "BRIDGE_DISPATCH_THREAD_NAME=pump\n".toList)
      (List.forall_mem_singleton.mpr (by decide)) (by decide +kernel)
    rw [Ne, hstart.panicked hflaw]
    rintro (⟨hmem, -⟩ | ⟨hinside, -⟩)
    · exact hnul hmem
    · cases hinside

end TaskRelay
