import Mathlib
import TaskRelay.Proofs.Settings.Written
import TaskRelay.Settings.Lookup

/-!
# The two loaders

Values assigned to some of the fields may stand in an object or in variables: numbers in decimal,
flags as words, the thread name as it is. Both loaders read the same assignment, with the same
defaults for the rest, and complain of the same flaw.
Main statement: `loadersAgree`.
-/

namespace TaskRelay.Text

theorem isBlank_of_isDigit {c : Char} (h : isDigit c) : isBlank c = false := by
  simp only [isDigit, Bool.and_eq_true, decide_eq_true_eq] at h
  simp only [isBlank, Bool.or_eq_false_iff, Bool.and_eq_false_iff, decide_eq_false_iff_not,
    beq_eq_false_iff_ne]
  omega

theorem trim_of_notBlank {cs : List Char} (h : ∀ c ∈ cs, isBlank c = false) : trim cs = cs := by
  have hstart : ∀ ds : List Char, (∀ c ∈ ds, isBlank c = false) → ds.dropWhile isBlank = ds := by
    rintro (_ | ⟨d, ds⟩) hd
    · rfl
    · rw [List.dropWhile_cons_of_neg]
      simp [hd d (List.mem_cons_self ..)]
  rw [trim, trimStart, hstart cs h, trimEnd,
    hstart cs.reverse fun c hc => h c (List.mem_reverse.mp hc), List.reverse_reverse]

end TaskRelay.Text

namespace TaskRelay.Settings

open TaskRelay.Json

/-! ## Texts of variables -/

theorem parseDigits_of_lt {ds : List Char} (hd : ∀ c ∈ ds, Text.isDigit c) {n : Nat}
    (hn : Nat.ofDigitChars 10 ds n < UInt64.size) :
    parseDigits n ds = .ok (Nat.ofDigitChars 10 ds n) := by
  induction ds generalizing n with
  | nil => rfl
  | cons c ds ih =>
    rw [Text.ofDigitChars_digit] at hn ⊢
    have hlt := Nat.lt_of_le_of_lt (Text.le_ofDigitChars ds _) hn
    rw [parseDigits, if_pos (hd c (List.mem_cons_self ..))]
    simp only [hlt, if_true]
    exact ih (fun d hm => hd d (List.mem_cons_of_mem _ hm)) hn

theorem parseSize_decimal (n : UInt64) : parseSize (Text.decimal n.toNat) = .ok n := by
  have hdigits : parseDigits 0 (Text.decimal n.toNat) = .ok n.toNat := by
    have hval := Text.ofDigitChars_decimal n.toNat
    rw [parseDigits_of_lt (fun _ => Text.isDigit_of_mem_decimal) (hval.symm ▸ n.toNat_lt), hval]
  obtain ⟨c, cs, h, hc, -⟩ := Text.exists_decimal_eq n.toNat
  rw [h] at hdigits ⊢
  have hplus : c ≠ '+' := by
    rintro rfl
    cases hc
  rw [parseSize, hdigits]
  · exact congrArg Except.ok UInt64.ofNat_toNat
  all_goals simp [hplus]

theorem parseFlag_boolChars (b : Bool) : parseFlag (boolChars b) = .ok b := by
  cases b <;> rfl

/-- The text of a value in a variable: that of a string is the string. -/
def variableText : Value → String
  | .string s => s
  | v => v.text

/-! ## The variables of an assignment -/

variable {p : Processors} {a : Assignment} {lookup : String → Option String}

theorem lookupTrimmed_of_parse {α : Type} {f : Field} {parse : List Char → Except Misfit α}
    {x? : Option α} {value : α → Value}
    (hl : lookup f.variableName = (x?.map value).map variableText)
    (hp : ∀ x, parse (Text.trim (variableText (value x)).toList) = .ok x) :
    lookupTrimmed lookup f parse = .ok x? := by
  cases x? with
  | none => rw [lookupTrimmed, hl, Option.map_none, Option.map_none]
  | some x =>
    rw [lookupTrimmed, hl, Option.map_some, Option.map_some]
    simp only [hp]

theorem parseSize_text (n : UInt64) :
    parseSize (Text.trim (variableText (.number (sizeNumber n))).toList) = .ok n := by
  have htext : (variableText (.number (sizeNumber n))).toList = Text.decimal n.toNat :=
    String.toList_ofList
  rw [htext, Text.trim_of_notBlank fun _ hc =>
    Text.isBlank_of_isDigit (Text.isDigit_of_mem_decimal hc)]
  exact parseSize_decimal n

theorem parseFlag_text (b : Bool) :
    parseFlag (Text.trim (variableText (.bool b)).toList) = .ok b := by
  have htext : (variableText (.bool b)).toList = boolChars b := String.toList_ofList
  have hblank : ∀ c ∈ boolChars b, Text.isBlank c = false := by
    cases b <;> simp [boolChars, Text.isBlank]
  rw [htext, Text.trim_of_notBlank hblank]
  exact parseFlag_boolChars b

/-- The assigned values are read back from the variables of their fields. -/
theorem lookupAssignment_of_texts
    (h : ∀ f : Field, lookup f.variableName = (a.value? f).map variableText) :
    lookupAssignment lookup = .ok a := by
  have hname : lookup Field.dispatchThreadName.variableName = a.dispatchThreadName := by
    rw [h, Assignment.value?, Option.map_map]
    exact congrFun Option.map_id _
  simp only [lookupAssignment, lookupTrimmed_of_parse (h .workerThreads) parseSize_text,
    lookupTrimmed_of_parse (h .interactiveThreads) parseSize_text,
    lookupTrimmed_of_parse (h .localPool) parseFlag_text, hname,
    lookupTrimmed_of_parse (h .dispatchStackSize) parseSize_text,
    lookupTrimmed_of_parse (h .color) parseFlag_text, bind, Except.bind]
  rfl

/-- A field has the assigned value, or else that of the defaults. -/
theorem value?_settings (p : Processors) (a : Assignment) (f : Field) :
    (a.settings p).assignment.value? f = (a.value? f).or ((default p).assignment.value? f) := by
  have hor {α β : Type} (x? : Option α) (d : α) (g : α → β) :
      some (g (x?.getD d)) = (x?.map g).or (some (g d)) := by
    cases x? <;> rfl
  cases f with
  | workerThreads | interactiveThreads | dispatchStackSize =>
    exact hor _ _ fun n : UInt64 => Value.number (sizeNumber n)
  | localPool | color => exact hor _ _ Value.bool
  | dispatchThreadName => exact hor _ _ Value.string

/--
An assignment is loaded alike from its object, in whatever order the members stand, and from its
variables: with the defaults for the fields that it leaves open, or, if what that gives has a flaw,
with the message of the flaw.
-/
theorem loadersAgree {ms : List (String × Value)} (hm : ms.Perm a.members)
    (hl : ∀ f : Field, lookup f.variableName = (a.value? f).map variableText) :
    ofJsonText p (Value.object ms).text = ofLookup p lookup ∧
      (ofLookup p lookup).mapError LoadError.message =
        (a.settings p).flaw?.elim (.ok (a.settings p)) (fun flaw => .error flaw.message) ∧
      ∀ f, (a.settings p).assignment.value? f =
        (a.value? f).or ((default p).assignment.value? f) := by
  have hlookup : ofLookup p lookup = (a.settings p).checked := by
    rw [ofLookup, lookupAssignment_of_texts hl]
    rfl
  rw [hlookup, ofJsonText_text p (readAssignment_object hm)]
  exact ⟨rfl, (a.settings p).mapError_checked, value?_settings p a⟩

/-- Three of the fields, the largest size and a name with a quote and a line end among them. -/
def someFields : Assignment where
  workerThreads := none
  interactiveThreads := some 18446744073709551615
  localPool := none
  dispatchThreadName := some " \"pump\"\n"
  dispatchStackSize := none
  color := some true

/-- The workers are as many as the processors, the settings do not say otherwise. -/
theorem loadersAgree_someFields :
    ofJsonText ⟨8, by decide⟩ (Value.object someFields.members.reverse).text =
        ofLookup ⟨8, by decide⟩ ([("BRIDGE_COLOR", "true"),
          ("BRIDGE_DISPATCH_THREAD_NAME", " \"pump\"\n"),
          ("BRIDGE_INTERACTIVE_THREADS", "18446744073709551615")].lookup ·) ∧
      (ofLookup ⟨8, by decide⟩ ([("BRIDGE_COLOR", "true"),
          ("BRIDGE_DISPATCH_THREAD_NAME", " \"pump\"\n"),
          ("BRIDGE_INTERACTIVE_THREADS", "18446744073709551615")].lookup ·)).mapError
          LoadError.message =
        .ok ⟨8, 18446744073709551615, true, " \"pump\"\n", 2097152, true⟩ := by
  have h := @loadersAgree ⟨8, by decide⟩ someFields ([("BRIDGE_COLOR", "true"),
    ("BRIDGE_DISPATCH_THREAD_NAME", " \"pump\"\n"),
    ("BRIDGE_INTERACTIVE_THREADS", "18446744073709551615")].lookup ·) _
    (List.reverse_perm _) (by rintro (_ | _) <;> rfl)
  exact ⟨h.1, h.2.1⟩

end TaskRelay.Settings
