import Mathlib
import TaskRelay.Proofs.Settings.Agreement

/-!
# What the texts of variables mean

A size is written in digits, after a plus sign or without one, a flag as one of two words; blanks
may stand around both. The thread name is its text. The first variable, in the order of the fields,
whose text means nothing is complained of; otherwise the defaults hold but for what is set.
Main statement: `readsVariables`.
-/

namespace TaskRelay.Text

/-! ## Blanks around a text -/

/-- `text` is `core` with blanks before and behind it, or without. -/
def Pads (core text : List Char) : Prop :=
  ∃ before after, (∀ c ∈ before, isBlank c) ∧ (∀ c ∈ after, isBlank c) ∧
    text = before ++ core ++ after

variable {core text : List Char}

theorem pads_trim (text : List Char) : Pads (trim text) text := by
  refine ⟨text.takeWhile isBlank, ((trimStart text).reverse.takeWhile isBlank).reverse,
    fun c => List.mem_takeWhile_imp, fun c hc => ?_, ?_⟩
  · exact List.mem_takeWhile_imp (List.mem_reverse.mp hc)
  · rw [trim, trimEnd, List.append_assoc, ← List.reverse_append, List.takeWhile_append_dropWhile,
      List.reverse_reverse]
    exact List.takeWhile_append_dropWhile.symm

theorem dropWhile_isBlank_append {before : List Char} (hb : ∀ c ∈ before, isBlank c)
    (hne : core ≠ []) (hc : ∀ c ∈ core, isBlank c = false) (rest : List Char) :
    (before ++ (core ++ rest)).dropWhile isBlank = core ++ rest := by
  obtain ⟨c, cs, rfl⟩ := List.exists_cons_of_ne_nil hne
  rw [List.dropWhile_append_of_pos hb, List.cons_append, List.dropWhile_cons_of_neg]
  simp [hc c (List.mem_cons_self ..)]

theorem Pads.trim_eq (h : Pads core text) (hne : core ≠ []) (hc : ∀ c ∈ core, isBlank c = false) :
    trim text = core := by
  obtain ⟨before, after, hb, ha, rfl⟩ := h
  have hstart : trimStart (before ++ core ++ after) = core ++ after := by
    rw [List.append_assoc]
    exact dropWhile_isBlank_append hb hne hc after
  have hend : (after.reverse ++ core.reverse).dropWhile isBlank = core.reverse := by
    rw [← List.append_nil core.reverse]
    exact dropWhile_isBlank_append (fun c hm => ha c (List.mem_reverse.mp hm))
      (mt List.reverse_eq_nil_iff.mp hne) (fun c hm => hc c (List.mem_reverse.mp hm)) []
  rw [trim, hstart, trimEnd, List.reverse_append, hend, List.reverse_reverse]

theorem trim_eq_iff (hne : core ≠ []) (hc : ∀ c ∈ core, isBlank c = false) :
    trim text = core ↔ Pads core text :=
  ⟨fun h => h ▸ pads_trim text, fun h => h.trim_eq hne hc⟩

end TaskRelay.Text

namespace TaskRelay.Settings

open TaskRelay.Json

/-! ## Sizes and flags -/

/-- A number below `2 ^ 64` in digits, however many zeros lead, after a plus sign or without one. -/
def IsSizeText (n : Nat) (cs : List Char) : Prop :=
  n < 18446744073709551616 ∧ ∃ ds, ds ≠ [] ∧ (∀ c ∈ ds, c.isDigit) ∧
    (cs = ds ∨ cs = '+' :: ds) ∧ Nat.ofDigitChars 10 ds 0 = n

def flagWord (b : Bool) : List Char := if b then "true".toList else "false".toList

variable {cs ds : List Char}

/-- Digits are read if their number is below the bound in the end; then it was so all along. -/
theorem parseDigits_eq_ok_iff {n m : Nat} (hn : n < UInt64.size) :
    parseDigits n ds = .ok m ↔
      (∀ c ∈ ds, Text.isDigit c) ∧ Nat.ofDigitChars 10 ds n = m ∧ m < UInt64.size := by
  constructor
  · intro h
    induction ds generalizing n with
    | nil =>
      cases h
      exact ⟨fun _ hc => absurd hc List.not_mem_nil, rfl, hn⟩
    | cons c ds ih =>
      rw [parseDigits] at h
      split at h
      · next hc =>
        dsimp only at h
        split at h
        · next hlt =>
          obtain ⟨hds, hv, hm⟩ := ih hlt h
          exact ⟨List.forall_mem_cons.mpr ⟨hc, hds⟩, hv, hm⟩
        · cases h
      · cases h
  · rintro ⟨hds, rfl, hm⟩
    exact parseDigits_of_lt hds hm

/-- The digits behind the plus sign, if there is one. -/
theorem parseSize_eq (cs : List Char) :
    (cs = [] ∨ cs = ['+']) ∧ (∀ n, parseSize cs ≠ .ok n) ∨
      ∃ ds, ds ≠ [] ∧ (cs = ds ∧ ds.head? ≠ some '+' ∨ cs = '+' :: ds) ∧
        parseSize cs = UInt64.ofNat <$> parseDigits 0 ds := by
  rcases cs with _ | ⟨c, cs⟩
  · exact .inl ⟨.inl rfl, fun _ h => by cases h⟩
  · by_cases hc : c = '+'
    · subst hc
      rcases cs with _ | ⟨d, ds⟩
      · exact .inl ⟨.inr rfl, fun _ h => by cases h⟩
      · exact .inr ⟨d :: ds, List.cons_ne_nil d ds, .inr rfl, rfl⟩
    · refine .inr ⟨c :: cs, List.cons_ne_nil c cs, .inl ⟨rfl, by simpa using hc⟩, ?_⟩
      rw [parseSize] <;> simp [hc]

theorem map_ofNat_eq_ok_iff {x : Except Misfit Nat} (hx : ∀ m, x = .ok m → m < UInt64.size)
    {n : UInt64} : UInt64.ofNat <$> x = .ok n ↔ x = .ok n.toNat := by
  constructor
  · intro h
    cases x with
    | error e => cases h
    | ok m =>
      obtain rfl : UInt64.ofNat m = n := Except.ok.inj h
      rw [UInt64.toNat_ofNat_of_lt' (hx m rfl)]
  · rintro rfl
    exact congrArg Except.ok UInt64.ofNat_toNat

theorem parseSize_eq_ok_iff {n : UInt64} : parseSize cs = .ok n ↔ IsSizeText n.toNat cs := by
  have hzero : 0 < UInt64.size := by decide
  have hplus : ∀ {ds : List Char}, (∀ c ∈ ds, c.isDigit) → ds.head? ≠ some '+' := by
    rintro (_ | ⟨d, ds⟩) hd h
    · cases h
    · obtain rfl := Option.some.inj h
      cases hd '+' (List.mem_cons_self ..)
  have hdigit : ∀ {ds : List Char}, (∀ c ∈ ds, Text.isDigit c) ↔ ∀ c ∈ ds, c.isDigit := by
    simp [Text.isDigit_eq]
  rcases parseSize_eq cs with ⟨hcs, hno⟩ | ⟨ds, hne, hcs, heq⟩
  · refine iff_of_false (hno n) ?_
    rintro ⟨-, ds, hne, hd, heq, -⟩
    rcases hcs with rfl | rfl <;> rcases heq with rfl | heq
    · exact hne rfl
    · cases heq
    · exact hplus hd rfl
    · exact hne (List.cons.inj heq).2.symm
  · rw [heq, map_ofNat_eq_ok_iff fun m hm => ((parseDigits_eq_ok_iff hzero).mp hm).2.2,
      parseDigits_eq_ok_iff hzero, hdigit]
    constructor
    · rintro ⟨hd, hv, hlt⟩
      exact ⟨hlt, ds, hne, hd, hcs.imp_left And.left, hv⟩
    · rintro ⟨hlt, es, hne', hd, hes, hv⟩
      obtain rfl : es = ds := by
        rcases hcs with ⟨rfl, hhead⟩ | rfl <;> rcases hes with h | h
        · exact h.symm
        · rw [h] at hhead
          exact absurd rfl hhead
        · exact absurd (h ▸ rfl) (hplus hd)
        · exact (List.cons.inj h).2.symm
      exact ⟨hd, hv, hlt⟩

theorem isBlank_of_isSizeText {n : Nat} (h : IsSizeText n cs) :
    cs ≠ [] ∧ ∀ c ∈ cs, Text.isBlank c = false := by
  obtain ⟨-, ds, hne, hd, hcs, -⟩ := h
  have hds : ∀ c ∈ ds, Text.isBlank c = false := fun c hc =>
    Text.isBlank_of_isDigit (Text.isDigit_eq c ▸ hd c hc)
  rcases hcs with rfl | rfl
  · exact ⟨hne, hds⟩
  · exact ⟨List.cons_ne_nil '+' ds, List.forall_mem_cons.mpr ⟨rfl, hds⟩⟩

theorem parseSize_trim {n : UInt64} :
    parseSize (Text.trim cs) = .ok n ↔ ∃ core, IsSizeText n.toNat core ∧ Text.Pads core cs := by
  rw [parseSize_eq_ok_iff]
  constructor
  · exact fun h => ⟨_, h, Text.pads_trim cs⟩
  · rintro ⟨core, h, hp⟩
    obtain ⟨hne, hb⟩ := isBlank_of_isSizeText h
    rwa [hp.trim_eq hne hb]

theorem parseFlag_trim {b : Bool} :
    parseFlag (Text.trim cs) = .ok b ↔ Text.Pads (flagWord b) cs := by
  have hword : flagWord b = boolChars b := by cases b <;> rfl
  rw [hword, ← Text.trim_eq_iff (by cases b <;> decide)
    (by cases b <;> simp [boolChars, Text.isBlank])]
  constructor
  · intro h
    unfold parseFlag at h
    split_ifs at h with ht hf
    · cases h
      exact ht
    · cases h
      exact hf
  · intro h
    rw [h, parseFlag_boolChars]

/-! ## Fields -/

/-- What the text of a field's variable means. -/
def Field.Reads (f : Field) (text : String) (v : Value) : Prop :=
  match f with
  | .workerThreads | .interactiveThreads | .dispatchStackSize =>
    ∃ n : UInt64, (∃ core, IsSizeText n.toNat core ∧ Text.Pads core text.toList) ∧
      v = .number (sizeNumber n)
  | .localPool | .color => ∃ b, Text.Pads (flagWord b) text.toList ∧ v = .bool b
  | .dispatchThreadName => v = .string text

variable (p : Processors) (lookup : String → Option String)

/-- The field's variable is set to a text that means nothing. -/
def Unfit (f : Field) : Prop := ∃ text, lookup f.variableName = some text ∧ ∀ v, ¬f.Reads text v

/-- The first field, in their order, whose variable is set to a text that means nothing. -/
def IsFirstUnfit (f : Field) : Prop :=
  ∃ before after, Field.all = before ++ f :: after ∧ Unfit lookup f ∧ ∀ g ∈ before, ¬Unfit lookup g

/-- The field's variable gives `v?`: nothing if it is not set, or else what its text means. -/
def Gives (f : Field) (v? : Option Value) : Prop :=
  match lookup f.variableName with
  | none => v? = none
  | some text => ∃ v, f.Reads text v ∧ v? = some v

variable {p lookup} {f : Field}

theorem Gives.not_unfit {v? : Option Value} (h : Gives lookup f v?) : ¬Unfit lookup f := by
  rintro ⟨text, ht, hno⟩
  rw [Gives, ht] at h
  obtain ⟨v, hv, -⟩ := h
  exact hno v hv

theorem gives_dispatchThreadName (lookup : String → Option String) :
    Gives lookup .dispatchThreadName
      ((lookup Field.dispatchThreadName.variableName).map .string) := by
  rw [Gives]
  cases lookup Field.dispatchThreadName.variableName with
  | none => rfl
  | some text => exact ⟨_, rfl, rfl⟩

section lookupTrimmed

variable {α : Type} {parse : List Char → Except Misfit α} {value : α → Value}

/-- A field whose texts mean what `parse` reads without the blanks around them. -/
def ParsedBy (f : Field) (parse : List Char → Except Misfit α) (value : α → Value) : Prop :=
  ∀ (text : String) (v : Value),
    f.Reads text v ↔ ∃ x, parse (Text.trim text.toList) = .ok x ∧ v = value x

theorem lookupTrimmed_eq (lookup : String → Option String) (hf : ParsedBy f parse value) :
    (∃ x?, lookupTrimmed lookup f parse = .ok x? ∧ Gives lookup f (x?.map value)) ∨
      ∃ why, lookupTrimmed lookup f parse = .error (.misfit f why) ∧ Unfit lookup f := by
  simp only [lookupTrimmed, Gives, Unfit]
  cases lookup f.variableName with
  | none => exact .inl ⟨none, rfl, rfl⟩
  | some text =>
    cases hp : parse (Text.trim text.toList) with
    | ok x => exact .inl ⟨some x, by simp only [hp], value x, (hf text _).mpr ⟨x, hp, rfl⟩, rfl⟩
    | error why =>
      refine .inr ⟨why, by simp only [hp], text, rfl, fun v hv => ?_⟩
      obtain ⟨x, hx, -⟩ := (hf text v).mp hv
      rw [hp] at hx
      cases hx

end lookupTrimmed

/-! ## All variables -/

theorem parsedBy_size {f : Field}
    (hf : f = .workerThreads ∨ f = .interactiveThreads ∨ f = .dispatchStackSize) :
    ParsedBy f parseSize fun n => .number (sizeNumber n) := by
  intro text v
  rcases hf with rfl | rfl | rfl <;> simp only [Field.Reads, parseSize_trim]

theorem parsedBy_flag {f : Field} (hf : f = .localPool ∨ f = .color) :
    ParsedBy f parseFlag .bool := by
  intro text v
  rcases hf with rfl | rfl <;> simp only [Field.Reads, parseFlag_trim]

/-- The variables are read in the order of the fields, up to the first that means nothing. -/
theorem lookupAssignment_eq (lookup : String → Option String) :
    (∃ a, lookupAssignment lookup = .ok a ∧ ∀ f, Gives lookup f (a.value? f)) ∨
      ∃ f why, lookupAssignment lookup = .error (.misfit f why) ∧ IsFirstUnfit lookup f := by
  have hname := (gives_dispatchThreadName lookup).not_unfit
  unfold lookupAssignment
  obtain ⟨workers, hw, hgw⟩ | ⟨why, hw, hunfit⟩ :=
    lookupTrimmed_eq lookup (parsedBy_size (.inl rfl)) <;> rw [hw]
  swap
  · exact .inr ⟨_, why, rfl, [], _, rfl, hunfit, by simp⟩
  obtain ⟨interactive, hi, hgi⟩ | ⟨why, hi, hunfit⟩ :=
    lookupTrimmed_eq lookup (parsedBy_size (.inr (.inl rfl))) <;> rw [hi]
  swap
  · exact .inr ⟨_, why, rfl, [.workerThreads], _, rfl, hunfit, by simp [hgw.not_unfit]⟩
  obtain ⟨localPool, hl, hgl⟩ | ⟨why, hl, hunfit⟩ :=
    lookupTrimmed_eq lookup (parsedBy_flag (.inl rfl)) <;> rw [hl]
  swap
  · exact .inr ⟨_, why, rfl, [.workerThreads, .interactiveThreads], _, rfl, hunfit,
      by simp [hgw.not_unfit, hgi.not_unfit]⟩
  obtain ⟨stack, hs, hgs⟩ | ⟨why, hs, hunfit⟩ :=
    lookupTrimmed_eq lookup (parsedBy_size (.inr (.inr rfl))) <;> rw [hs]
  swap
  · exact .inr ⟨_, why, rfl, [.workerThreads, .interactiveThreads, .localPool,
      .dispatchThreadName], _, rfl, hunfit,
      by simp [hgw.not_unfit, hgi.not_unfit, hgl.not_unfit, hname]⟩
  obtain ⟨color, hc, hgc⟩ | ⟨why, hc, hunfit⟩ :=
    lookupTrimmed_eq lookup (parsedBy_flag (.inr rfl)) <;> rw [hc]
  swap
  · exact .inr ⟨_, why, rfl, [.workerThreads, .interactiveThreads, .localPool,
      .dispatchThreadName, .dispatchStackSize], _, rfl, hunfit,
      by simp [hgw.not_unfit, hgi.not_unfit, hgl.not_unfit, hname, hgs.not_unfit]⟩
  refine .inl ⟨⟨workers, interactive, localPool, _, stack, color⟩, rfl, ?_⟩
  rintro (_ | _)
  exacts [hgw, hgi, hgl, gives_dispatchThreadName lookup, hgs, hgc]

theorem lookupAssignment_congr {other : String → Option String}
    (h : ∀ f : Field, other f.variableName = lookup f.variableName) :
    lookupAssignment other = lookupAssignment lookup := by
  simp only [lookupAssignment, lookupTrimmed, h]

/-- Blanks, a plus sign and leading zeros do not matter; a number of 65 bits is refused. -/
example : parseSize (Text.trim "\t+0018446744073709551615\n".toList) = .ok 18446744073709551615 ∧
    parseSize (Text.trim "18446744073709551616".toList) = .error .numberTooLarge := by
  decide

end TaskRelay.Settings
