import Mathlib
import TaskRelay.Json.Lexeme
import TaskRelay.Proofs.Text.Decimal

/-!
# Reading what was printed

The reader of each lexeme gives back what the printer wrote, and leaves what stands behind it: of
strings for every text, of integers up to 64 bits if nothing behind them would belong to a number.
Lists and members are printed one by one with commas between them (`itemsFrom_cons`,
`membersFrom_cons`).
-/

namespace TaskRelay.Json

/-! ## Blanks -/

theorem isJsonBlank_of_isDigit {c : Char} (h : Text.isDigit c) : isJsonBlank c = false := by
  by_contra hb
  simp only [isJsonBlank, Bool.not_eq_false, Bool.or_eq_true, beq_iff_eq] at hb
  rcases hb with ((rfl | rfl) | rfl) | rfl <;> cases h

theorem skipBlank_cons {c : Char} (h : isJsonBlank c = false) (r : List Char) :
    skipBlank (c :: r) = c :: r := by
  rw [skipBlank, List.dropWhile_cons_of_neg]
  simp [h]

/-! ## Strings -/

theorem hexValue?_digitChar : ∀ d < 16, Text.hexValue? (Nat.digitChar d) = some d := by
  decide

/-- The escape of a control character has four digits. -/
theorem unit?_control {n : Nat} (h : n < 32) :
    unit? '0' '0' (Nat.digitChar (n / 16)) (Nat.digitChar (n % 16)) = some n := by
  have hzero : Text.hexValue? '0' = some 0 := rfl
  simp only [unit?, hzero, hexValue?_digitChar (n / 16) (by omega),
    hexValue?_digitChar (n % 16) (by omega), Option.bind_eq_bind, Option.bind_some]
  refine congrArg some ?_
  omega

theorem readString_plain {c : Char} (hq : c ≠ '"') (hb : c ≠ '\\') (hc : ¬c.toNat < 32)
    (r : List Char) : readString (c :: r) = prepend c (readString r) := by
  rw [readString]
  · rw [if_neg hc]
  all_goals simp_all

theorem readString_escape (c : Char) (r : List Char) :
    readString (escape c ++ r) = prepend c (readString r) := by
  unfold escape
  split_ifs with hq hb ht hn hf hr hc
  · rcases Bool.or_eq_true_iff.mp hq with h | h <;> obtain rfl := eq_of_beq h <;> rfl
  · obtain rfl := eq_of_beq hb
    rfl
  · obtain rfl := eq_of_beq ht
    rfl
  · obtain rfl := eq_of_beq hn
    rfl
  · obtain rfl := eq_of_beq hf
    rfl
  · obtain rfl := eq_of_beq hr
    rfl
  · have htrail : isTrailSurrogate c.toNat = false := by
      simp [isTrailSurrogate]
      omega
    have hlead : isLeadSurrogate c.toNat = false := by
      simp [isLeadSurrogate]
      omega
    simp only [List.cons_append, List.nil_append]
    rw [readString.eq_def]
    simp only [unit?_control hc, htrail, hlead, Bool.false_eq_true, if_false, Char.ofNat_toNat]
  · have hne : c ≠ '"' ∧ c ≠ '\\' := by simpa using hq
    exact readString_plain hne.1 hne.2 hc r

theorem readString_stringChars (s r : List Char) :
    readString (s.flatMap escape ++ '"' :: r) = .ok (s, r) := by
  induction s with
  | nil => rfl
  | cons c s ih =>
    rw [List.flatMap_cons, List.append_assoc, readString_escape, ih]
    rfl

/-! ## Numbers -/

/-- Nothing at the front of this would belong to a number. -/
def EndsNumber (r : List Char) : Prop :=
  ∀ c ∈ r.head?, Text.isDigit c = false ∧ c ≠ '.' ∧ c ≠ 'e' ∧ c ≠ 'E'

theorem endsNumber_cons {c : Char} (h : Text.isDigit c = false ∧ c ≠ '.' ∧ c ≠ 'e' ∧ c ≠ 'E')
    (r : List Char) : EndsNumber (c :: r) := by
  rintro d ⟨⟩
  exact h

theorem takeDigits_of_end {r : List Char} (hr : EndsNumber r) (n : Nat) :
    takeDigits n r = (n, 0, 0, r) := by
  cases r with
  | nil => rfl
  | cons c r =>
    rw [takeDigits, if_neg]
    simp [(hr c rfl).1]

theorem takeDigits_append {cs r : List Char} (hcs : ∀ c ∈ cs, Text.isDigit c) (hr : EndsNumber r)
    {n : Nat} (hn : Nat.ofDigitChars 10 cs n < UInt64.size) :
    takeDigits n (cs ++ r) = (Nat.ofDigitChars 10 cs n, cs.length, 0, r) := by
  induction cs generalizing n with
  | nil => exact takeDigits_of_end hr n
  | cons c cs ih =>
    rw [Text.ofDigitChars_digit] at hn ⊢
    have hlt : 10 * n + Text.digitValue c < UInt64.size :=
      Nat.lt_of_le_of_lt (Text.le_ofDigitChars cs _) hn
    have hd := hcs c (List.mem_cons_self ..)
    have ih := ih (fun d hd => hcs d (List.mem_cons_of_mem _ hd)) hn
    simp only [List.cons_append, takeDigits, hd, hlt, if_true, ih, List.length_cons]

theorem readAfterInteger_of_end {r : List Char} (hr : EndsNumber r) (negative : Bool) (n : Nat) :
    readAfterInteger negative n 0 r = integerNumber negative n r := by
  cases r with
  | nil => rfl
  | cons c r =>
    obtain ⟨-, hp, he, hE⟩ := hr c rfl
    rw [readAfterInteger]
    · rfl
    all_goals simp_all

theorem readNumber_decimal (negative : Bool) {n : Nat} (hn : n < UInt64.size) {r : List Char}
    (hr : EndsNumber r) :
    readNumber negative (Text.decimal n ++ r) = integerNumber negative n r := by
  obtain ⟨c, cs, h, hc, hcs, hv, hz⟩ := Text.exists_decimal_eq n
  rw [h, List.cons_append]
  by_cases h0 : c = '0'
  · obtain ⟨rfl, rfl⟩ := hz h0
    subst h0
    cases r with
    | nil => rfl
    | cons d r =>
      simp only [List.nil_append, readNumber, beq_self_eq_true, if_true, (hr d rfl).1,
        Bool.false_eq_true, if_false]
      exact readAfterInteger_of_end hr negative 0
  · have htake := takeDigits_append hcs hr (by rw [hv]; exact hn)
    simp only [readNumber, beq_iff_eq, h0, if_false, hc, if_true, htake, hv]
    exact readAfterInteger_of_end hr negative n

/-! ## Lists and members -/

/-- What stands before an item: a comma, unless it is the first. -/
def comma (first : Bool) : List Char := if first then [] else [',']

/-- Items as they are printed at the beginning of a list, or behind others. -/
def itemsFrom (first : Bool) (vs : List Value) : List Char :=
  if first then itemChars vs else vs.flatMap fun v => ',' :: v.chars

theorem itemsFrom_cons (first : Bool) (v : Value) (vs : List Value) :
    itemsFrom first (v :: vs) = comma first ++ v.chars ++ itemsFrom false vs := by
  cases first with
  | false => rfl
  | true =>
    show itemChars (v :: vs) = v.chars ++ itemsFrom false vs
    induction vs generalizing v with
    | nil => simp [itemChars, itemsFrom]
    | cons w vs ih =>
      rw [itemChars, ih w]
      simp [itemsFrom]

/-- What stands behind a value in a list, a comma or the bracket, does not belong to a number. -/
theorem endsNumber_items (vs : List Value) (r : List Char) :
    EndsNumber (itemsFrom false vs ++ ']' :: r) := by
  cases vs <;> exact endsNumber_cons (by decide) _

/-- One member as it is printed. -/
def pairChars (m : String × Value) : List Char := stringChars m.1.toList ++ ':' :: m.2.chars

/-- Members as they are printed at the beginning of an object, or behind others. -/
def membersFrom (first : Bool) (ms : List (String × Value)) : List Char :=
  if first then memberChars ms else ms.flatMap fun m => ',' :: pairChars m

theorem membersFrom_cons (first : Bool) (m : String × Value) (ms : List (String × Value)) :
    membersFrom first (m :: ms) = comma first ++ pairChars m ++ membersFrom false ms := by
  cases first with
  | false => rfl
  | true =>
    show memberChars (m :: ms) = pairChars m ++ membersFrom false ms
    induction ms generalizing m with
    | nil => simp [memberChars, membersFrom, pairChars]
    | cons k ms ih =>
      rw [memberChars, ih k]
      simp [membersFrom, pairChars]

/-- What stands behind a value in an object, a comma or the brace, does not belong to a number. -/
theorem endsNumber_members (ms : List (String × Value)) (r : List Char) :
    EndsNumber (membersFrom false ms ++ '\x7d' :: r) := by
  cases ms <;> exact endsNumber_cons (by decide) _

theorem length_le_membersFrom (first : Bool) (ms : List (String × Value)) :
    ms.length ≤ (membersFrom first ms).length := by
  induction ms generalizing first with
  | nil => exact Nat.zero_le _
  | cons m ms ih =>
    have := ih false
    simp only [membersFrom_cons, pairChars, stringChars, List.length_append, List.length_cons]
    omega

end TaskRelay.Json
