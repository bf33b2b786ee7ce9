import Mathlib
import TaskRelay.Proofs.Json.Printed
import TaskRelay.Settings.Json

/-!
# Settings that are written and read back

The values assigned to some of the fields are read back from their object, in whatever order its
members stand, and from the list of all fields (`readAssignment_object`, `readAssignment_array`).
Settings therefore survive being written as JSON; if they have a flaw, the flaw is what is
complained of.
Main statement: `survivesJson`.
-/

namespace TaskRelay.Settings

open TaskRelay.Json

/-! ## Fields and their values -/

namespace Field

theorem name_injective {f g : Field} (h : f.name = g.name) : f = g := by
  cases f <;> cases g <;> first | rfl | exact absurd h (by decide)

theorem ofName?_name (f : Field) : ofName? f.name = some f := by
  cases f <;> decide

end Field

theorem sizeNumber_injective {m n : UInt64} (h : sizeNumber m = sizeNumber n) : m = n := by
  have hv : (m.toNat : Int) = n.toNat := (Number.int.injEq ..).mp h
  exact UInt64.toNat_inj.mp (Int.ofNat.inj hv)

namespace Assignment

/-- The value that is assigned to a field. -/
def value? (a : Assignment) : Field → Option Value
  | .workerThreads => a.workerThreads.map fun n => .number (sizeNumber n)
  | .interactiveThreads => a.interactiveThreads.map fun n => .number (sizeNumber n)
  | .localPool => a.localPool.map .bool
  | .dispatchThreadName => a.dispatchThreadName.map .string
  | .dispatchStackSize => a.dispatchStackSize.map fun n => .number (sizeNumber n)
  | .color => a.color.map .bool

/-- The assigned values under the names of their fields, in the order of the fields. -/
def members (a : Assignment) : List (String × Value) :=
  Field.all.filterMap fun f => (a.value? f).map fun v => (f.name, v)

/-- `b` with what `a` assigns to a field. -/
def give (a : Assignment) (f : Field) (b : Assignment) : Assignment :=
  match f with
  | .workerThreads => { b with workerThreads := a.workerThreads }
  | .interactiveThreads => { b with interactiveThreads := a.interactiveThreads }
  | .localPool => { b with localPool := a.localPool }
  | .dispatchThreadName => { b with dispatchThreadName := a.dispatchThreadName }
  | .dispatchStackSize => { b with dispatchStackSize := a.dispatchStackSize }
  | .color => { b with color := a.color }

variable {a b : Assignment} {f g : Field} {v : Value}

theorem isSome_value? (a : Assignment) (f : Field) : (a.value? f).isSome = a.isSet f := by
  cases f <;> exact Option.isSome_map

theorem value?_empty (f : Field) : empty.value? f = none := by
  cases f <;> rfl

theorem value?_give (a : Assignment) (f : Field) (b : Assignment) (g : Field) :
    (a.give f b).value? g = if g = f then a.value? g else b.value? g := by
  cases f <;> cases g <;> rfl

theorem isSet_eq_false_iff : a.isSet f = false ↔ a.value? f = none := by
  rw [← isSome_value?, Option.isSome_eq_false_iff, Option.isNone_iff_eq_none]

/-- An assignment is what it assigns. -/
theorem ext_value? (h : ∀ f, a.value? f = b.value? f) : a = b := by
  have hsize : Function.Injective fun n => Value.number (sizeNumber n) :=
    fun _ _ hn => sizeNumber_injective (Value.number.inj hn)
  have hflag : Function.Injective Value.bool := fun _ _ hb => Value.bool.inj hb
  have hname : Function.Injective Value.string := fun _ _ hs => Value.string.inj hs
  cases a
  cases b
  congr
  · exact Option.map_injective hsize (h .workerThreads)
  · exact Option.map_injective hsize (h .interactiveThreads)
  · exact Option.map_injective hflag (h .localPool)
  · exact Option.map_injective hname (h .dispatchThreadName)
  · exact Option.map_injective hsize (h .dispatchStackSize)
  · exact Option.map_injective hflag (h .color)

theorem mem_members {m : String × Value} :
    m ∈ a.members ↔ ∃ f : Field, m.1 = f.name ∧ a.value? f = some m.2 := by
  rw [members, List.mem_filterMap]
  constructor
  · rintro ⟨f, -, h⟩
    obtain ⟨v, hv, rfl⟩ := Option.map_eq_some_iff.mp h
    exact ⟨f, rfl, hv⟩
  · rintro ⟨f, hf, hv⟩
    refine ⟨f, by cases f <;> decide, ?_⟩
    rw [hv, Option.map_some, ← hf]

theorem members_names (a : Assignment) :
    a.members.map Prod.fst = (Field.all.filter a.isSet).map Field.name := by
  rw [members, List.map_filterMap, ← List.filterMap_eq_map, List.filterMap_filter]
  congr 1
  funext f
  rw [← isSome_value?]
  cases a.value? f <;> rfl

theorem nodup_members (a : Assignment) : (a.members.map Prod.fst).Nodup := by
  rw [members_names]
  refine List.Nodup.map (fun _ _ => Field.name_injective) (List.Nodup.filter _ ?_)
  decide

theorem name_mem_members : f.name ∈ a.members.map Prod.fst ↔ a.isSet f := by
  rw [members_names, List.mem_map]
  constructor
  · rintro ⟨g, hg, hn⟩
    rw [← Field.name_injective hn]
    exact (List.mem_filter.mp hg).2
  · exact fun h => ⟨f, List.mem_filter.mpr ⟨by cases f <;> decide, h⟩, rfl⟩

end Assignment

/-! ## Reading one value -/

section field

variable {a b : Assignment} {f : Field} {v : Value} {r : List Char}

theorem integerNumber_size (n : UInt64) (r : List Char) :
    integerNumber false n.toNat r = .ok (sizeNumber n, r) := by
  have hof : Number.ofInt? n.toNat = some (sizeNumber n) :=
    dif_pos ⟨by omega, by have := n.toNat_lt; omega⟩
  rw [integerNumber, Bool.false_and, if_neg Bool.false_ne_true, if_neg Bool.false_ne_true, hof]

theorem asSize_sizeNumber (n : UInt64) (r : List Char) : asSize (sizeNumber n) r = .ok (n, r) := by
  have hneg : ¬(n.toNat : Int) < 0 := by omega
  rw [sizeNumber, asSize, if_neg hneg, Int.toNat_natCast, UInt64.ofNat_toNat]

theorem readSize_chars (n : UInt64) (hr : EndsNumber r) :
    readSize ((sizeNumber n).chars ++ r) = .ok (n, r) := by
  obtain ⟨c, cs, h, hc, -⟩ := Text.exists_decimal_eq n.toNat
  have hchars : (sizeNumber n).chars = c :: cs := h
  have hread := readNumber_decimal false n.toNat_lt hr
  rw [integerNumber_size, h] at hread
  rw [hchars, readSize, List.cons_append, skipBlank_cons (isJsonBlank_of_isDigit hc)]
  split
  · next heq => cases heq
  · next heq =>
    obtain ⟨rfl, -⟩ := List.cons.inj heq
    cases hc
  · next heq =>
    obtain ⟨rfl, rfl⟩ := List.cons.inj heq
    rw [if_pos hc, ← List.cons_append, hread]
    exact asSize_sizeNumber n r

theorem readFlag_chars (b : Bool) (r : List Char) : readFlag (boolChars b ++ r) = .ok (b, r) := by
  cases b <;> rfl

theorem readName_chars (s : String) (r : List Char) :
    readName (stringChars s.toList ++ r) = .ok (s, r) := by
  have hread := readString_stringChars s.toList r
  simp only [stringChars, List.cons_append, List.append_assoc, List.nil_append]
  rw [readName, skipBlank_cons rfl]
  simp only [hread, bind, Except.bind, String.ofList_toList]
  rfl

theorem readField_chars (hv : a.value? f = some v) (b : Assignment) (hr : EndsNumber r) :
    readField f b (v.chars ++ r) = .ok (a.give f b, r) := by
  cases f with
  | workerThreads | interactiveThreads | dispatchStackSize =>
    obtain ⟨n, hn, rfl⟩ := Option.map_eq_some_iff.mp hv
    have hread := readSize_chars n hr
    simp only [readField, Value.chars, hread, Assignment.give, hn]
    rfl
  | localPool | color =>
    obtain ⟨on, hon, rfl⟩ := Option.map_eq_some_iff.mp hv
    have hread := readFlag_chars on r
    simp only [readField, Value.chars, hread, Assignment.give, hon]
    rfl
  | dispatchThreadName =>
    obtain ⟨s, hs, rfl⟩ := Option.map_eq_some_iff.mp hv
    have hread := readName_chars s r
    simp only [readField, Value.chars, hread, Assignment.give, hs]
    rfl

/-- The text of a value begins with what neither is blank nor ends a list. -/
theorem exists_chars_eq (hv : a.value? f = some v) :
    ∃ c cs, v.chars = c :: cs ∧ isJsonBlank c = false ∧ c ≠ ']' := by
  cases f with
  | workerThreads | interactiveThreads | dispatchStackSize =>
    obtain ⟨n, -, rfl⟩ := Option.map_eq_some_iff.mp hv
    obtain ⟨c, cs, h, hc, -⟩ := Text.exists_decimal_eq n.toNat
    refine ⟨c, cs, h, isJsonBlank_of_isDigit hc, ?_⟩
    rintro rfl
    cases hc
  | localPool | color =>
    obtain ⟨on, -, rfl⟩ := Option.map_eq_some_iff.mp hv
    cases on <;> exact ⟨_, _, rfl, rfl, by decide⟩
  | dispatchThreadName =>
    obtain ⟨s, -, rfl⟩ := Option.map_eq_some_iff.mp hv
    exact ⟨_, _, rfl, rfl, by decide⟩

end field

/-! ## Reading lists -/

section list

variable {a b c : Assignment} {f : Field} {fs : List Field} {v : Value} {vs : List Value}
variable {first : Bool} {r r₁ r₂ : List Char}

theorem readElements_next (hn : nextElement first r = .ok (some r₁))
    (hf : readField f b r₁ = .ok (c, r₂)) :
    readElements first b (f :: fs) r = readElements false c fs r₂ := by
  simp only [readElements, hn, hf, bind, Except.bind]

theorem nextElement_comma {d : Char} {ds : List Char} (first : Bool) (hb : isJsonBlank d = false)
    (hd : d ≠ ']') : nextElement first (comma first ++ d :: ds) = .ok (some (d :: ds)) := by
  have hskip := skipBlank_cons hb ds
  cases first with
  | true =>
    rw [comma, if_pos rfl, List.nil_append, nextElement, hskip]
    simp_all
  | false =>
    rw [comma, if_neg Bool.false_ne_true, List.singleton_append, nextElement, skipBlank_cons rfl]
    simp_all

theorem readElements_itemsFrom (h : List.Forall₂ (fun f v => a.value? f = some v) fs vs)
    (first : Bool) (b : Assignment) (r : List Char) :
    ∃ c, readElements first b fs (itemsFrom first vs ++ ']' :: r) = .ok (c, ']' :: r) ∧
      ∀ g, c.value? g = if g ∈ fs then a.value? g else b.value? g := by
  -- on the values still to come; `b` holds what is read already
  induction h generalizing first b with
  | nil =>
    refine ⟨b, ?_, fun g => (if_neg List.not_mem_nil).symm⟩
    cases first <;> rfl
  | @cons f v fs vs hv _ ih =>
    obtain ⟨d, ds, hd, hb, hne⟩ := exists_chars_eq hv
    obtain ⟨c, hc, hval⟩ := ih false (a.give f b)
    refine ⟨c, ?_, fun g => ?_⟩
    · rw [← hc, itemsFrom_cons, List.append_assoc, List.append_assoc]
      refine readElements_next ?_ (readField_chars hv b (endsNumber_items vs r))
      rw [hd]
      exact nextElement_comma first hb hne
    · rw [hval, Assignment.value?_give]
      by_cases hg : g = f <;> simp [hg]

/-- The values of all fields are read back from their list. -/
theorem readAssignment_array (h : List.Forall₂ (fun f v => a.value? f = some v) Field.all vs) :
    readAssignment (Value.array vs).chars = .ok a := by
  obtain ⟨c, hc, hval⟩ := readElements_itemsFrom h true .empty []
  obtain rfl : c = a := by
    refine Assignment.ext_value? fun f => ?_
    rw [hval, if_pos]
    cases f <;> decide
  have hread : readElements true .empty Field.all (itemChars vs ++ [']']) = .ok (c, [']']) := hc
  rw [Value.chars, readAssignment, List.cons_append, skipBlank_cons rfl]
  simp only [hread, bind, Except.bind]
  rfl

end list

/-! ## Reading objects -/

section object

variable {a b c : Assignment} {f : Field} {v : Value} {ms : List (String × Value)}
variable {first : Bool} {fuel : Nat} {key r r₁ r₂ : List Char}

theorem readMembers_next (hn : nextKey first r = .ok (some (key, r₁)))
    (hm : readMember key b r₁ = .ok (c, r₂)) :
    readMembers (fuel + 1) first b r = readMembers fuel false c r₂ := by
  simp only [readMembers, hn, hm, bind, Except.bind]

theorem readMembers_end (first : Bool) (b : Assignment) (fuel : Nat) (r : List Char) :
    readMembers (fuel + 1) first b ('\x7d' :: r) = .ok (b, '\x7d' :: r) := rfl

theorem nextKey_comma (first : Bool) (s r : List Char) :
    nextKey first (comma first ++ stringChars s ++ r) = .ok (some (s, r)) := by
  -- with the text behind the quote as one variable both cases compute
  obtain ⟨t, ht⟩ : ∃ t, stringChars s ++ r = '"' :: t := ⟨_, rfl⟩
  have hread : readString t = .ok (s, r) := by
    have hs := readString_stringChars s r
    rw [stringChars, List.append_assoc, List.cons_append, List.cons.injEq] at ht
    rw [← ht.2]
    exact hs
  rw [List.append_assoc, ht]
  cases first with
  | true =>
    show some <$> readString t = _
    rw [hread]
    rfl
  | false =>
    show some <$> readString t = _
    rw [hread]
    rfl

/-- The member of a field that has no value yet. -/
theorem readMember_chars (hv : a.value? f = some v) (hb : b.isSet f = false) (hr : EndsNumber r) :
    readMember f.name.toList b (':' :: v.chars ++ r) = .ok (a.give f b, r) := by
  have hcolon : readColon (':' :: v.chars ++ r) = .ok (v.chars ++ r) := rfl
  rw [readMember, String.ofList_toList, Field.ofName?_name]
  simp only [hb, Bool.false_eq_true, if_false, hcolon]
  exact readField_chars hv b hr

theorem readMembers_membersFrom
    (hms : ∀ m ∈ ms, ∃ f : Field, m.1 = f.name ∧ a.value? f = some m.2)
    (hd : (ms.map Prod.fst).Nodup) (hb : ∀ f, f.name ∈ ms.map Prod.fst → b.isSet f = false)
    (hf : ms.length < fuel) (first : Bool) (r : List Char) :
    ∃ c, readMembers fuel first b (membersFrom first ms ++ '\x7d' :: r) = .ok (c, '\x7d' :: r) ∧
      ∀ g, c.value? g = if g.name ∈ ms.map Prod.fst then a.value? g else b.value? g := by
  -- on the members still to come; `b` holds what is read already, and none of them is set there
  induction ms generalizing b fuel first with
  | nil =>
    obtain ⟨fuel, rfl⟩ := Nat.exists_eq_succ_of_ne_zero (Nat.ne_zero_of_lt hf)
    refine ⟨b, ?_, fun g => (if_neg List.not_mem_nil).symm⟩
    cases first <;> exact readMembers_end _ b fuel r
  | cons m ms ih =>
    obtain ⟨fuel, rfl⟩ := Nat.exists_eq_succ_of_ne_zero (Nat.ne_zero_of_lt hf)
    obtain ⟨f, hname, hv⟩ := hms m (List.mem_cons_self ..)
    obtain ⟨hnot, hd⟩ := List.nodup_cons.mp hd
    have hother : ∀ g : Field, g.name ∈ ms.map Prod.fst → g ≠ f := by
      rintro g hg rfl
      exact hnot (hname ▸ hg)
    have hset : b.isSet f = false := hb f (hname ▸ List.mem_cons_self ..)
    have hgiven : ∀ g : Field, g.name ∈ ms.map Prod.fst → (a.give f b).isSet g = false := by
      intro g hg
      have hnone := hb g (List.mem_cons_of_mem _ hg)
      rw [Assignment.isSet_eq_false_iff] at hnone ⊢
      rw [Assignment.value?_give, if_neg (hother g hg), hnone]
    obtain ⟨c, hc, hval⟩ := ih (fun m hm => hms m (List.mem_cons_of_mem _ hm)) hd hgiven
      (Nat.lt_of_succ_lt_succ hf) false
    refine ⟨c, ?_, fun g => ?_⟩
    · have hsplit : membersFrom first (m :: ms) ++ '\x7d' :: r =
          comma first ++ stringChars f.name.toList ++
            (':' :: m.2.chars ++ (membersFrom false ms ++ '\x7d' :: r)) := by
        simp [membersFrom_cons, pairChars, hname]
      rw [← hc, hsplit]
      exact readMembers_next (nextKey_comma first _ _)
        (readMember_chars hv hset (endsNumber_members ms r))
    · rw [hval, Assignment.value?_give, List.map_cons, hname]
      by_cases hg : g = f
      · subst hg
        simp
      · have hne : g.name ≠ f.name := fun h => hg (Field.name_injective h)
        simp only [hg, if_false, List.mem_cons, hne, false_or]

/-- The assigned values are read back from their object, in whatever order they stand. -/
theorem readAssignment_object (h : ms.Perm a.members) :
    readAssignment (Value.object ms).chars = .ok a := by
  have hnames := h.map Prod.fst
  obtain ⟨c, hc, hval⟩ := readMembers_membersFrom (a := a) (b := .empty) (r := [])
    (fun m hm => Assignment.mem_members.mp (h.subset hm))
    (hnames.nodup_iff.mpr a.nodup_members) (fun f _ => by cases f <;> rfl)
    (Nat.lt_succ_of_le (Nat.le_trans (length_le_membersFrom true ms)
      (List.length_append ▸ Nat.le_add_right _ ['\x7d'].length))) true
  obtain rfl : c = a := by
    refine Assignment.ext_value? fun f => ?_
    rw [hval]
    split
    · rfl
    · next hnot =>
      rw [hnames.mem_iff, Assignment.name_mem_members, Bool.not_eq_true] at hnot
      rw [Assignment.value?_empty, Assignment.isSet_eq_false_iff.mp hnot]
  have hread : readMembers ((memberChars ms ++ ['\x7d']).length + 1) true .empty
    (memberChars ms ++ ['\x7d']) = .ok (c, ['\x7d']) := hc
  rw [Value.chars, readAssignment, List.cons_append, skipBlank_cons rfl]
  simp only [hread, bind, Except.bind]
  rfl

end object

/-! ## Whole settings -/

theorem ofJsonText_text (p : Processors) {a : Assignment} {v : Value}
    (h : readAssignment v.chars = .ok a) : ofJsonText p v.text = (a.settings p).checked := by
  rw [ofJsonText, Value.text, String.toList_ofList, h]

section settings

variable (p : Processors) (s : Settings)

/-- The assignment of the value of each field. -/
def assignment : Assignment where
  workerThreads := some s.workerThreads
  interactiveThreads := some s.interactiveThreads
  localPool := some s.localPool
  dispatchThreadName := some s.dispatchThreadName
  dispatchStackSize := some s.dispatchStackSize
  color := some s.color

theorem settings_assignment : s.assignment.settings p = s := rfl

theorem toValue_eq : s.toValue = .object s.assignment.members := rfl

theorem forall₂_values : List.Forall₂ (fun f v => s.assignment.value? f = some v) Field.all
    s.values := by
  simp [Field.all, values, assignment, Assignment.value?]

theorem mapError_checked : s.checked.mapError LoadError.message =
    s.flaw?.elim (.ok s) fun flaw => .error flaw.message := by
  rw [checked]
  cases s.flaw? <;> rfl

/--
Settings are read back from their object and from the list of their values. Those with a flaw are
refused with its message, and with no other.
-/
theorem survivesJson :
    ofJsonText p s.toJsonText = s.checked ∧ ofJsonText p (Value.array s.values).text = s.checked ∧
      s.checked.mapError LoadError.message =
        s.flaw?.elim (.ok s) fun flaw => .error flaw.message := by
  refine ⟨?_, ?_, s.mapError_checked⟩
  · have hread := readAssignment_object (.refl s.assignment.members)
    rw [toJsonText, toValue_eq, ofJsonText_text p hread, settings_assignment]
  · rw [ofJsonText_text p (readAssignment_array s.forall₂_values), settings_assignment]

end settings

end TaskRelay.Settings
