import Mathlib
import TaskRelay.Call.Arguments
import TaskRelay.Proofs.Json.Members

/-!
# Building arguments

Arguments are built step by step. Only the steps behind the last fresh beginning count: the
positional arguments are those of the beginning with the appended ones behind them, and each keyword
has the value that was set last. So these steps may change places, but for those that append and
those that set the same keyword.
Main statement: `Arguments.accumulates`.
-/

namespace TaskRelay

/-! ## Sameness -/

theorem Double.same_self (d : Double) : d.same d := by
  rw [Double.same, beq_self_eq_true, Bool.true_or]

namespace Json

theorem Number.same_self (n : Number) : n.same n := by
  cases n with
  | int value fits => exact beq_self_eq_true value
  | double d => exact d.same_self

mutual

theorem Value.same_self (v : Value) : v.same v := by
  cases v with
  | null => rfl
  | bool b => exact beq_self_eq_true b
  | number n => exact n.same_self
  | string s => exact beq_self_eq_true s
  | array items => exact Value.sameItems_self items
  | object members => exact Value.sameMembers_self members

theorem Value.sameItems_self (items : List Value) : Value.sameItems items items := by
  cases items with
  | nil => rfl
  | cons v vs => rw [Value.sameItems, v.same_self, Value.sameItems_self vs, Bool.and_self]

theorem Value.sameMembers_self (members : List (String × Value)) :
    Value.sameMembers members members := by
  cases members with
  | nil => rfl
  | cons m ms =>
    obtain ⟨k, v⟩ := m
    rw [Value.sameMembers, beq_self_eq_true, v.same_self, Value.sameMembers_self ms, Bool.and_self,
      Bool.and_self]

end

end Json

namespace Arguments

open Json

theorem same_self (a : Arguments) : a.same a := by
  rw [same, Value.sameItems_self, Value.sameMembers_self, Bool.and_self]

/-! ## Steps -/

/-- A step in the building of arguments. -/
inductive Step where
  | empty
  | ofList (values : List Value)
  | withArg (v : Value)
  | withKeyword (name : String) (v : Value)

namespace Step

/-- The arguments after a step. -/
def make (a : Arguments) : Step → Arguments
  | .empty => .empty
  | .ofList values => .ofList values
  | .withArg v => a.withArg v
  | .withKeyword name v => a.withKeyword name v

/-- The positional arguments with which a step begins afresh, if it does. -/
def fresh? : Step → Option (List Value)
  | .empty => some []
  | .ofList values => some values
  | .withArg _ | .withKeyword .. => none

/-- The value that a step appends. -/
def value? : Step → Option Value
  | .withArg v => some v
  | .empty | .ofList _ | .withKeyword .. => none

/-- The value to which a step sets the keyword `name`. -/
def setting? (name : String) : Step → Option Value
  | .withKeyword k v => if name = k then some v else none
  | .empty | .ofList _ | .withArg _ => none

variable {a : Arguments} {s : Step} {values : List Value} {steps : List Step}

theorem make_of_fresh? (h : s.fresh? = some values) (a : Arguments) :
    make a s = .ofList values := by
  cases s with
  | empty =>
    obtain rfl := Option.some.inj h
    rfl
  | ofList vs =>
    obtain rfl := Option.some.inj h
    rfl
  | withArg v => cases h
  | withKeyword name v => cases h

theorem positional_make (h : s.fresh? = none) (a : Arguments) :
    (make a s).positional = a.positional ++ s.value?.toList := by
  cases s with
  | empty => cases h
  | ofList values => cases h
  | withArg v => rfl
  | withKeyword name v => exact (List.append_nil _).symm

theorem keyword?_make (h : s.fresh? = none) (a : Arguments) (name : String) :
    (make a s).keyword? name = (s.setting? name).or (a.keyword? name) := by
  cases s with
  | empty => cases h
  | ofList values => cases h
  | withArg v => rfl
  | withKeyword k v =>
    have hmember : (make a (.withKeyword k v)).keyword? name =
        if name = k then some v else a.keyword? name := member?_insertMember k v a.keywords name
    rw [hmember, setting?]
    by_cases hk : name = k
    · rw [if_pos hk, if_pos hk, Option.some_or]
    · rw [if_neg hk, if_neg hk, Option.none_or]

theorem ordered_make (h : Ordered a.keywords) (s : Step) : Ordered (make a s).keywords := by
  cases s with
  | empty => exact List.Pairwise.nil
  | ofList values => exact List.Pairwise.nil
  | withArg v => exact h
  | withKeyword name v => exact Ordered.insertMember h name v

theorem ordered_foldl_make (h : Ordered a.keywords) (steps : List Step) :
    Ordered (steps.foldl make a).keywords := by
  induction steps generalizing a with
  | nil => exact h
  | cons s steps ih => exact ih (ordered_make h s)

theorem positional_foldl_make (h : ∀ s ∈ steps, s.fresh? = none) (a : Arguments) :
    (steps.foldl make a).positional = a.positional ++ steps.filterMap value? := by
  induction steps generalizing a with
  | nil => exact (List.append_nil _).symm
  | cons s steps ih =>
    obtain ⟨hs, hsteps⟩ := List.forall_mem_cons.mp h
    rw [List.foldl_cons, ih hsteps, positional_make hs, List.append_assoc]
    cases hv : s.value? with
    | none => rw [List.filterMap_cons_none hv, Option.toList_none, List.nil_append]
    | some v => rw [List.filterMap_cons_some hv, Option.toList_some, List.singleton_append]

/-- The last step that sets a keyword decides, and without one the arguments before. -/
theorem keyword?_foldl_make (h : ∀ s ∈ steps, s.fresh? = none) (a : Arguments) (name : String) :
    (steps.foldl make a).keyword? name =
      (steps.filterMap (setting? name)).getLast?.or (a.keyword? name) := by
  -- on the steps, for all arguments before them, among which is what the first step sets
  induction steps generalizing a with
  | nil => rfl
  | cons s steps ih =>
    obtain ⟨hs, hsteps⟩ := List.forall_mem_cons.mp h
    rw [List.foldl_cons, ih hsteps, keyword?_make hs, ← Option.or_assoc]
    cases hv : s.setting? name with
    | none => rw [List.filterMap_cons_none hv, Option.or_none]
    | some v =>
      rw [List.filterMap_cons_some hv, ← List.singleton_append, List.getLast?_append]
      rfl

end Step

/-! ## What is built -/

/-- The arguments that the steps build, one after the other, from none. -/
def built (steps : List Step) : Arguments := steps.foldl Step.make .empty

/--
The steps are those up to the last fresh beginning, which is one with `values`, and `later` ones. If
no step begins afresh, they begin with no arguments.
-/
structure Parts (steps begun : List Step) (values : List Value) (later : List Step) : Prop where
  eq : steps = begun ++ later
  begins : begun = [] ∧ values = [] ∨
    ∃ before s, begun = before ++ [s] ∧ s.fresh? = some values
  later : ∀ s ∈ later, s.fresh? = none

/--
The same steps in another order, in which those that append are in the same order, and so are those
that set the same keyword.
-/
structure Reordered (steps steps' : List Step) : Prop where
  perm : steps'.Perm steps
  values : steps'.filterMap Step.value? = steps.filterMap Step.value?
  settings : ∀ name, steps'.filterMap (Step.setting? name) = steps.filterMap (Step.setting? name)

variable {steps begun later later' : List Step} {values : List Value}

theorem exists_parts (steps : List Step) :
    ∃ begun values later, Parts steps begun values later := by
  induction steps using List.reverseRecOn with
  | nil => exact ⟨[], [], [], rfl, .inl ⟨rfl, rfl⟩, List.forall_mem_nil _⟩
  | append_singleton steps s ih =>
    cases hs : s.fresh? with
    | some values =>
      exact ⟨steps ++ [s], values, [], (List.append_nil _).symm, .inr ⟨steps, s, rfl, hs⟩,
        List.forall_mem_nil _⟩
    | none =>
      obtain ⟨begun, values, later, rfl, hbegins, hlater⟩ := ih
      refine ⟨begun, values, later ++ [s], List.append_assoc .., hbegins, ?_⟩
      exact List.forall_mem_append.mpr ⟨hlater, List.forall_mem_singleton.mpr hs⟩

theorem Parts.built_begun (h : Parts steps begun values later) : built begun = .ofList values := by
  rcases h.begins with ⟨rfl, rfl⟩ | ⟨before, s, rfl, hs⟩
  · rfl
  · rw [built, List.foldl_append]
    exact Step.make_of_fresh? hs _

theorem Parts.built_eq (h : Parts steps begun values later) :
    built steps = later.foldl Step.make (.ofList values) := by
  rw [h.eq, ← h.built_begun, built, built, List.foldl_append]

theorem Parts.positional_eq (h : Parts steps begun values later) :
    (built steps).positional = values ++ later.filterMap Step.value? := by
  rw [h.built_eq]
  exact Step.positional_foldl_make h.later _

theorem Parts.keyword?_eq (h : Parts steps begun values later) (name : String) :
    (built steps).keyword? name = (later.filterMap (Step.setting? name)).getLast? := by
  rw [h.built_eq, Step.keyword?_foldl_make h.later]
  exact Option.or_none

theorem ordered_built (steps : List Step) : Ordered (built steps).keywords := by
  have hempty : Ordered Arguments.empty.keywords := List.Pairwise.nil
  exact Step.ordered_foldl_make hempty steps

theorem Parts.reordered (h : Parts steps begun values later) (hr : Reordered later later') :
    Parts (begun ++ later') begun values later' :=
  ⟨rfl, h.begins, fun s hs => h.later s (hr.perm.mem_iff.mp hs)⟩

/-- What is built depends on what is appended and on how each keyword is set. -/
theorem Parts.built_reordered (h : Parts steps begun values later) (hr : Reordered later later') :
    built (begun ++ later') = built steps := by
  have h' := h.reordered hr
  have hpositional : (built (begun ++ later')).positional = (built steps).positional := by
    rw [h'.positional_eq, h.positional_eq, hr.values]
  have hkeywords : (built (begun ++ later')).keywords = (built steps).keywords := by
    -- both are in order, so that it is enough to find the same values among them
    apply (ordered_built _).eq_of_member? (ordered_built _)
    intro name
    have hname := h'.keyword?_eq name
    rw [hr.settings, ← h.keyword?_eq] at hname
    exact hname
  exact congrArg₂ Arguments.mk hpositional hkeywords

/--
Of all steps only those behind the last fresh beginning count. The positional arguments are those of
the beginning and behind them the appended ones, in order; a keyword has the value that was set
last, or none. The keywords are listed in the order of their names, each once. The steps behind the
beginning may be reordered.
-/
theorem accumulates (steps : List Step) :
    (∃ begun values later, Parts steps begun values later) ∧
    ∀ begun values later, Parts steps begun values later →
      (∀ i, (built steps).arg? i = (values ++ later.filterMap Step.value?)[i]?) ∧
      (∀ i, ((built steps).arg? i).isSome ↔ i < (built steps).length) ∧
      (∀ name, (built steps).keyword? name =
        (later.filterMap (Step.setting? name)).getLast?) ∧
      Ordered (built steps).keywords ∧
      (∀ name v, (name, v) ∈ (built steps).keywords ↔ (built steps).keyword? name = some v) ∧
      ∀ later', Reordered later later' →
        built (begun ++ later') = built steps ∧
        (built (begun ++ later')).same (built steps) ∧
        (built (begun ++ later')).keywordText = (built steps).keywordText := by
  refine ⟨exists_parts steps, ?_⟩
  intro begun values later h
  refine ⟨fun i => ?_, fun i => ?_, h.keyword?_eq, ordered_built steps, fun name v => ?_, ?_⟩
  · rw [arg?, h.positional_eq]
  · rw [arg?, length, isSome_getElem?]
  · exact (ordered_built steps).mem_iff
  · intro later' hr
    rw [h.built_reordered hr]
    exact ⟨rfl, same_self _, rfl⟩

/-- A beginning that is overridden, one that counts, and a keyword that is set twice behind it. -/
def sampleSteps : List Step :=
  [.withArg .null, .withKeyword "y" .null, .ofList [.bool true],
    .withKeyword "é" .null, .withArg (.string "b"), .withKeyword "z" .null,
    .withKeyword "z" (.bool false)]

theorem accumulates_sampleSteps :
    Parts sampleSteps (sampleSteps.take 3) [.bool true] (sampleSteps.drop 3) ∧
      (built sampleSteps).arg? 1 = some (.string "b") ∧
      (built sampleSteps).keyword? "z" = some (.bool false) ∧
      (built sampleSteps).keyword? "y" = none ∧
      (built sampleSteps).keywords.map Prod.fst = ["z", "é"] ∧
      built (sampleSteps.take 3 ++ [.withKeyword "z" .null, .withKeyword "z" (.bool false),
        .withKeyword "é" .null, .withArg (.string "b")]) = built sampleSteps := by
  have hparts : Parts sampleSteps (sampleSteps.take 3) [.bool true] (sampleSteps.drop 3) :=
    ⟨rfl, .inr ⟨sampleSteps.take 2, _, rfl, rfl⟩, by simp [sampleSteps, Step.fresh?]⟩
  have hreordered : Reordered (sampleSteps.drop 3) ([.withKeyword "z" .null,
      .withKeyword "z" (.bool false)] ++ (sampleSteps.drop 3).take 2) := by
    refine ⟨List.perm_append_comm, rfl, fun name => ?_⟩
    by_cases hz : name = "z"
    · subst hz
      rfl
    · simp [sampleSteps, List.filterMap_cons, Step.setting?, hz]
  obtain ⟨-, haccumulates⟩ := accumulates sampleSteps
  obtain ⟨harg, -, hkeyword, -, -, hreorder⟩ := haccumulates _ _ _ hparts
  refine ⟨hparts, harg 1, hkeyword "z", hkeyword "y", by decide +kernel, ?_⟩
  exact (hreorder _ hreordered).1

end Arguments

end TaskRelay
