import Mathlib
import TaskRelay.Json.Preview
import TaskRelay.Proofs.Json.Printed

/-!
# Previews of values

A value without doubles is known from the front of a text: no other value has a text with the same
beginning, if nothing behind the two would go on with a number (`unmistakable`). A preview that is
not cut is such a text, and one that is cut has a character more than any that is not.
Main statement: `faithfulPreview`.
-/

namespace TaskRelay.Text

/-! ## Decimals -/

theorem decimal_injective {m n : Nat} (h : decimal m = decimal n) : m = n := by
  rw [← ofDigitChars_decimal m, h, ofDigitChars_decimal]

end TaskRelay.Text

namespace TaskRelay.Json

variable {r s : List Char}

theorem takeWhile_isDigit_append {ds : List Char} (hd : ∀ c ∈ ds, Text.isDigit c)
    (hr : EndsNumber r) :
    (ds ++ r).takeWhile Text.isDigit = ds ∧ (ds ++ r).dropWhile Text.isDigit = r := by
  rw [List.takeWhile_append_of_pos hd, List.dropWhile_append_of_pos hd]
  cases r with
  | nil => simp
  | cons c r => simp [(hr c rfl).1]

theorem decimal_append_inj {m n : Nat} (hr : EndsNumber r) (hs : EndsNumber s)
    (h : Text.decimal m ++ r = Text.decimal n ++ s) : m = n ∧ r = s := by
  obtain ⟨hm, hr⟩ := takeWhile_isDigit_append (fun _ => Text.isDigit_of_mem_decimal) hr
  obtain ⟨hn, hs⟩ := takeWhile_isDigit_append (fun _ => Text.isDigit_of_mem_decimal) hs
  rw [h] at hm hr
  exact ⟨Text.decimal_injective (hm.symm.trans hn), hr.symm.trans hs⟩

theorem decimal_append_ne (n : Nat) (r s : List Char) : Text.decimal n ++ r ≠ '-' :: s := by
  obtain ⟨c, cs, h, hc, -⟩ := Text.exists_decimal_eq n
  rw [h]
  rintro ⟨⟩
  cases hc

theorem decimalInt_append_inj {m n : Int} (hr : EndsNumber r) (hs : EndsNumber s)
    (h : Text.decimalInt m ++ r = Text.decimalInt n ++ s) : m = n ∧ r = s := by
  cases m with
  | ofNat m =>
    cases n with
    | ofNat n =>
      obtain ⟨rfl, rfl⟩ := decimal_append_inj hr hs h
      exact ⟨rfl, rfl⟩
    | negSucc n => exact absurd h (decimal_append_ne m r _)
  | negSucc m =>
    cases n with
    | ofNat n => exact absurd h.symm (decimal_append_ne n s _)
    | negSucc n =>
      obtain ⟨hmn, rfl⟩ := decimal_append_inj hr hs (List.cons.inj h).2
      obtain rfl := Nat.succ.inj hmn
      exact ⟨rfl, rfl⟩

/-! ## Strings -/

theorem stringChars_append_inj {a b : List Char} (h : stringChars a ++ r = stringChars b ++ s) :
    a = b ∧ r = s := by
  have ha := readString_stringChars a r
  have hb := readString_stringChars b s
  simp only [stringChars, List.cons_append, List.append_assoc, List.cons.injEq, true_and,
    List.nil_append] at h
  rw [h, hb] at ha
  obtain ⟨rfl, rfl⟩ := Prod.mk.inj (Except.ok.inj ha)
  exact ⟨rfl, rfl⟩

/-! ## The front of a text -/

namespace Value

/-- Values without doubles. -/
inductive IsExact : Value → Prop where
  | null : IsExact .null
  | bool (b : Bool) : IsExact (.bool b)
  | int (n : Int) (h : -9223372036854775808 ≤ n ∧ n < 18446744073709551616) :
    IsExact (.number (.int n h))
  | string (s : String) : IsExact (.string s)
  | array {items : List Value} (h : ∀ v ∈ items, IsExact v) : IsExact (.array items)
  | object {members : List (String × Value)} (h : ∀ m ∈ members, IsExact m.2) :
    IsExact (.object members)

inductive Shape where
  | null
  | bool
  | number
  | string
  | array
  | object

def shape : Value → Shape
  | .null => .null
  | .bool _ => .bool
  | .number _ => .number
  | .string _ => .string
  | .array _ => .array
  | .object _ => .object

/-- The shape of the values whose texts begin with `c`. -/
def shapeOf? (c : Char) : Option Shape :=
  if c = 'n' then some .null
  else if c = 't' ∨ c = 'f' then some .bool
  else if c = '-' ∨ Text.isDigit c then some .number
  else if c = '"' then some .string
  else if c = '[' then some .array
  else if c = '\x7b' then some .object
  else none

theorem shapeOf?_of_isDigit {c : Char} (h : Text.isDigit c) : shapeOf? c = some .number := by
  have hne : c ≠ 'n' ∧ c ≠ 't' ∧ c ≠ 'f' := by
    refine ⟨?_, ?_, ?_⟩ <;> rintro rfl <;> cases h
  simp [shapeOf?, h, hne]

variable {v w : Value}

theorem exists_chars_eq_of_isExact (hv : v.IsExact) :
    ∃ c cs, v.chars = c :: cs ∧ shapeOf? c = some v.shape := by
  cases hv with
  | null | string s | array h | object h => exact ⟨_, _, rfl, rfl⟩
  | bool b => cases b <;> exact ⟨_, _, rfl, rfl⟩
  | int n h =>
    cases n with
    | ofNat n =>
      obtain ⟨c, cs, hcs, hc, -⟩ := Text.exists_decimal_eq n
      exact ⟨c, cs, hcs, shapeOf?_of_isDigit hc⟩
    | negSucc n => exact ⟨_, _, rfl, rfl⟩

theorem shape_eq_of_append_eq (hv : v.IsExact) (hw : w.IsExact)
    (h : v.chars ++ r = w.chars ++ s) : v.shape = w.shape := by
  obtain ⟨c, cs, hc, hvc⟩ := exists_chars_eq_of_isExact hv
  obtain ⟨d, ds, hd, hwd⟩ := exists_chars_eq_of_isExact hw
  rw [hc, hd, List.cons_append, List.cons_append] at h
  obtain ⟨rfl, -⟩ := List.cons.inj h
  exact Option.some.inj (hvc.symm.trans hwd)

/-- No other value has a text that begins a text as that of `v` does. -/
def Unmistakable (v : Value) : Prop :=
  ∀ (w : Value) (r s : List Char), w.IsExact → EndsNumber r → EndsNumber s →
    v.chars ++ r = w.chars ++ s → v = w ∧ r = s

theorem chars_append_ne {c : Char} (hv : v.IsExact) (hc : shapeOf? c = none) :
    v.chars ++ r ≠ c :: s := by
  obtain ⟨d, ds, hd, hvd⟩ := exists_chars_eq_of_isExact hv
  rw [hd]
  rintro ⟨⟩
  rw [hc] at hvd
  cases hvd

theorem comma_append_items_ne (hv : v.IsExact) (first : Bool) :
    comma first ++ (v.chars ++ r) ≠ ']' :: s := by
  cases first with
  | true => exact chars_append_ne hv rfl
  | false => simp [comma]

theorem itemsFrom_append_inj {vs ws : List Value} (hu : ∀ v ∈ vs, v.Unmistakable)
    (hv : ∀ v ∈ vs, v.IsExact) (hw : ∀ w ∈ ws, w.IsExact) {first : Bool}
    (h : itemsFrom first vs ++ ']' :: r = itemsFrom first ws ++ ']' :: s) : vs = ws ∧ r = s := by
  have hnil : itemsFrom first [] = [] := by cases first <;> rfl
  induction vs generalizing ws first with
  | nil =>
    cases ws with
    | nil => exact ⟨rfl, (List.cons.inj (List.append_cancel_left h)).2⟩
    | cons w ws =>
      rw [hnil, itemsFrom_cons, List.append_assoc, List.append_assoc] at h
      exact absurd h.symm (comma_append_items_ne (hw w (List.mem_cons_self ..)) first)
  | cons v vs ih =>
    cases ws with
    | nil =>
      rw [hnil, itemsFrom_cons, List.append_assoc, List.append_assoc] at h
      exact absurd h (comma_append_items_ne (hv v (List.mem_cons_self ..)) first)
    | cons w ws =>
      simp only [itemsFrom_cons, List.append_assoc] at h
      obtain ⟨rfl, hrest⟩ := hu v (List.mem_cons_self ..) w _ _ (hw w (List.mem_cons_self ..))
        (endsNumber_items vs r) (endsNumber_items ws s) (List.append_cancel_left h)
      obtain ⟨rfl, rfl⟩ := ih (fun v hm => hu v (List.mem_cons_of_mem _ hm))
        (fun v hm => hv v (List.mem_cons_of_mem _ hm))
        (fun w hm => hw w (List.mem_cons_of_mem _ hm)) hrest rfl
      exact ⟨rfl, rfl⟩

theorem comma_append_pairChars_ne (first : Bool) (m : String × Value) :
    comma first ++ (pairChars m ++ r) ≠ '\x7d' :: s := by
  cases first <;> simp [comma, pairChars, stringChars]

theorem membersFrom_append_inj {ms ns : List (String × Value)}
    (hu : ∀ m ∈ ms, m.2.Unmistakable) (hn : ∀ n ∈ ns, n.2.IsExact) {first : Bool}
    (h : membersFrom first ms ++ '\x7d' :: r = membersFrom first ns ++ '\x7d' :: s) :
    ms = ns ∧ r = s := by
  have hnil : membersFrom first [] = [] := by cases first <;> rfl
  induction ms generalizing ns first with
  | nil =>
    cases ns with
    | nil => exact ⟨rfl, (List.cons.inj (List.append_cancel_left h)).2⟩
    | cons n ns =>
      rw [hnil, membersFrom_cons, List.append_assoc, List.append_assoc] at h
      exact absurd h.symm (comma_append_pairChars_ne first n)
  | cons m ms ih =>
    cases ns with
    | nil =>
      rw [hnil, membersFrom_cons, List.append_assoc, List.append_assoc] at h
      exact absurd h (comma_append_pairChars_ne first m)
    | cons n ns =>
      obtain ⟨k, v⟩ := m
      obtain ⟨l, w⟩ := n
      simp only [membersFrom_cons, pairChars, List.append_assoc] at h
      obtain ⟨hkl, hvalue⟩ := stringChars_append_inj (List.append_cancel_left h)
      obtain rfl := String.toList_inj.mp hkl
      obtain ⟨rfl, hrest⟩ := hu (k, v) (List.mem_cons_self ..) w _ _ (hn _ (List.mem_cons_self ..))
        (endsNumber_members ms r) (endsNumber_members ns s) (List.cons.inj hvalue).2
      obtain ⟨rfl, rfl⟩ := ih (fun m hm => hu m (List.mem_cons_of_mem _ hm))
        (fun n hm => hn n (List.mem_cons_of_mem _ hm)) hrest rfl
      exact ⟨rfl, rfl⟩

theorem unmistakable (hv : v.IsExact) : v.Unmistakable := by
  -- on the value; the other one has the same shape, as both texts begin with the same character
  induction hv with
  | null =>
    intro w r s hw _ _ h
    have hshape := shape_eq_of_append_eq .null hw h
    cases hw <;> cases hshape
    exact ⟨rfl, List.append_cancel_left h⟩
  | bool b =>
    intro w r s hw _ _ h
    have hshape := shape_eq_of_append_eq (.bool b) hw h
    cases hw <;> cases hshape
    case bool c =>
      cases b <;> cases c <;> first | exact ⟨rfl, List.append_cancel_left h⟩ | cases h
  | int n hn =>
    intro w r s hw hr hs h
    have hshape := shape_eq_of_append_eq (.int n hn) hw h
    cases hw <;> cases hshape
    case int m hm =>
      obtain ⟨rfl, rfl⟩ := decimalInt_append_inj hr hs h
      exact ⟨rfl, rfl⟩
  | string a =>
    intro w r s hw _ _ h
    have hshape := shape_eq_of_append_eq (.string a) hw h
    cases hw <;> cases hshape
    case string b =>
      obtain ⟨hab, rfl⟩ := stringChars_append_inj h
      exact ⟨congrArg Value.string (String.toList_inj.mp hab), rfl⟩
  | @array vs hvs ih =>
    intro w r s hw _ _ h
    have hshape := shape_eq_of_append_eq (.array hvs) hw h
    cases hw <;> cases hshape
    case array ws hws =>
      simp only [Value.chars, List.cons_append, List.append_assoc, List.cons.injEq, true_and,
        List.nil_append] at h
      have hfrom : itemsFrom true vs ++ ']' :: r = itemsFrom true ws ++ ']' :: s := h
      obtain ⟨rfl, rfl⟩ := itemsFrom_append_inj ih hvs hws hfrom
      exact ⟨rfl, rfl⟩
  | @object ms hms ih =>
    intro w r s hw _ _ h
    have hshape := shape_eq_of_append_eq (.object hms) hw h
    cases hw <;> cases hshape
    case object ns hns =>
      simp only [Value.chars, List.cons_append, List.append_assoc, List.cons.injEq, true_and,
        List.nil_append] at h
      have hfrom : membersFrom true ms ++ '\x7d' :: r = membersFrom true ns ++ '\x7d' :: s := h
      obtain ⟨rfl, rfl⟩ := membersFrom_append_inj ih hns hfrom
      exact ⟨rfl, rfl⟩

theorem chars_injective (hv : v.IsExact) (hw : w.IsExact) (h : v.chars = w.chars) : v = w :=
  (unmistakable hv w [] [] hw (fun _ => nofun) (fun _ => nofun) (congrArg (· ++ []) h)).1

/-! ## Previews -/

theorem length_cut (cs : List Char) :
    (cut cs).length = if cs.length ≤ 256 then cs.length else 257 := by
  rw [cut, maxPreviewChars]
  split_ifs with h
  · rfl
  · rw [List.length_append, List.length_take, Nat.min_eq_left (by omega)]
    rfl

/-- A text that is not cut is known from what is shown, and so is that it is not cut. -/
theorem cut_inj {cs ds : List Char} (hcs : cs.length ≤ 256) (h : cut cs = cut ds) : cs = ds := by
  have hlength := congrArg List.length h
  rw [length_cut, length_cut, if_pos hcs] at hlength
  have hds : ds.length ≤ 256 := by
    by_contra hds
    rw [if_neg hds] at hlength
    omega
  rwa [cut, cut, maxPreviewChars, if_pos hcs, if_pos hds] at h

theorem preview_inj (hv : v.IsExact) (hw : w.IsExact) (hlength : v.text.length ≤ 256)
    (h : v.preview = w.preview) : v = w := by
  refine chars_injective hv hw (cut_inj ?_ (String.ofList_inj.mp h))
  rwa [Value.text, String.length_ofList] at hlength

/--
A preview is not empty and has at most 257 characters, just as many if the text is longer than 256
characters: then it is the first 256 of them with an ellipsis behind, otherwise the text. Two
values with one preview are equal if the text of one of them is not cut.
-/
theorem faithfulPreview (hv : v.IsExact) (hw : w.IsExact) :
    v.preview ≠ "" ∧ v.preview.length ≤ 257 ∧
      (v.preview.length = 257 ↔ 256 < v.text.length) ∧
      (256 < v.text.length → v.preview.toList = v.text.toList.take 256 ++ ['…']) ∧
      (v.text.length ≤ 256 → v.preview = v.text) ∧
      (v.text.length ≤ 256 ∨ w.text.length ≤ 256 → v.preview = w.preview → v = w) := by
  have hlength : v.preview.length = if v.text.length ≤ 256 then v.text.length else 257 := by
    rw [preview, text, String.length_ofList, String.length_ofList, length_cut]
  have hpos : 0 < v.text.length := by
    obtain ⟨c, cs, h, -⟩ := exists_chars_eq_of_isExact hv
    rw [text, String.length_ofList, h]
    exact Nat.succ_pos _
  refine ⟨fun hempty => ?_, ?_, ?_, fun hlong => ?_, fun hshort => ?_, fun hshort h => ?_⟩
  · rw [hempty, String.length_empty] at hlength
    split_ifs at hlength
    omega
  · rw [hlength]
    split_ifs <;> omega
  · rw [hlength]
    split_ifs <;> omega
  · rw [text, String.length_ofList] at hlong
    rw [preview, text, String.toList_ofList, String.toList_ofList, cut, maxPreviewChars,
      if_neg (by omega)]
  · rw [text, String.length_ofList] at hshort
    rw [preview, text, cut, maxPreviewChars, if_pos hshort]
  · rcases hshort with hshort | hshort
    · exact preview_inj hv hw hshort h
    · exact (preview_inj hw hv hshort h.symm).symm

/-- A list, the largest number and a negative one, a quote in a name, a control character. -/
def nestedSample : Value :=
  .object [("a\"", .array [.number (.int (-1) (by decide)), .null, .string "\x01\n"]),
    ("b", .number (.int 18446744073709551615 (by decide)))]

/-- Some hundred quotes, each of which is printed as two characters. -/
def longSample : Value := .string (String.ofList (List.replicate 128 '"'))

theorem faithfulPreview_longAndNested :
    longSample.IsExact ∧ nestedSample.IsExact ∧ longSample.preview.length = 257 ∧
      nestedSample.preview = nestedSample.text ∧ nestedSample.preview ≠ longSample.preview := by
  have hlong : longSample.IsExact := .string _
  have hnested : nestedSample.IsExact := by
    refine .object (List.forall_mem_cons.mpr ⟨.array ?_, List.forall_mem_singleton.mpr (.int ..)⟩)
    simp only [List.forall_mem_cons]
    exact ⟨.int .., .null, .string _, fun _ => nofun⟩
  have hlength : 256 < longSample.text.length ∧ nestedSample.text.length ≤ 256 := by
    rw [text, text, String.length_ofList, String.length_ofList]
    decide +kernel
  obtain ⟨-, -, hcut, -⟩ := faithfulPreview hlong hnested
  obtain ⟨-, -, -, -, hwhole, hinj⟩ := faithfulPreview hnested hlong
  refine ⟨hlong, hnested, hcut.mpr hlength.1, hwhole hlength.2, fun h => ?_⟩
  cases hinj (.inl hlength.2) h

end Value

end TaskRelay.Json
