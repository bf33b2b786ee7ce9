import Mathlib
import TaskRelay.Json.Skip
import TaskRelay.Proofs.Json.Printed

/-!
# The tokens of a JSON text

A JSON text is a tree written down token by token: brackets, commas and colons, and the lexemes of
strings, numbers and words. Between the tokens, before and behind them there may be blanks, so that
texts of one tree differ in their blanks only (`Spaced`).
-/

namespace TaskRelay.Json

/-! ## Lexemes -/

/-- What may stand between the quotes of a string; the surrogates need not be paired. -/
inductive IsStringBody : List Char → Prop where
  | nil : IsStringBody []
  | plain {c : Char} {body : List Char} (hq : c ≠ '"') (hb : c ≠ '\\') (hc : 32 ≤ c.toNat)
    (h : IsStringBody body) : IsStringBody (c :: body)
  | letter {e c : Char} {body : List Char} (he : letterEscape? e = some c)
    (h : IsStringBody body) : IsStringBody ('\\' :: e :: body)
  | unit {a b c d : Char} {n : Nat} {body : List Char} (hu : unit? a b c d = some n)
    (h : IsStringBody body) : IsStringBody ('\\' :: 'u' :: a :: b :: c :: d :: body)

/-- What stands between the quotes and the text that it is the spelling of. -/
inductive Spells : List Char → List Char → Prop where
  | nil : Spells [] []
  | plain {c : Char} {body s : List Char} (hq : c ≠ '"') (hb : c ≠ '\\') (hc : 32 ≤ c.toNat)
    (h : Spells body s) : Spells (c :: body) (c :: s)
  | letter {e c : Char} {body s : List Char} (he : letterEscape? e = some c)
    (h : Spells body s) : Spells ('\\' :: e :: body) (c :: s)
  | unit {a b c d : Char} {n : Nat} {body s : List Char} (hu : unit? a b c d = some n)
    (hl : isLeadSurrogate n = false) (ht : isTrailSurrogate n = false) (h : Spells body s) :
    Spells ('\\' :: 'u' :: a :: b :: c :: d :: body) (Char.ofNat n :: s)
  | pair {a b c d a' b' c' d' : Char} {n m : Nat} {body s : List Char}
    (hn : unit? a b c d = some n) (hl : isLeadSurrogate n) (hm : unit? a' b' c' d' = some m)
    (ht : isTrailSurrogate m) (h : Spells body s) :
    Spells ('\\' :: 'u' :: a :: b :: c :: d :: '\\' :: 'u' :: a' :: b' :: c' :: d' :: body)
      (pairChar n m :: s)

/-- A text without quotes, backslashes and control characters is its own spelling. -/
theorem spells_self {s : List Char} (h : s.all fun c => c != '"' && c != '\\' && 32 ≤ c.toNat) :
    Spells s s := by
  induction s with
  | nil => exact .nil
  | cons c s ih =>
    simp only [List.all_cons, Bool.and_eq_true, bne_iff_ne, decide_eq_true_eq] at h
    obtain ⟨⟨⟨hq, hb⟩, hc⟩, hs⟩ := h
    exact .plain hq hb hc (ih hs)

theorem Spells.isStringBody {body s : List Char} (h : Spells body s) : IsStringBody body := by
  induction h with
  | nil => exact .nil
  | plain hq hb hc _ ih => exact .plain hq hb hc ih
  | letter he _ ih => exact .letter he ih
  | unit hu _ _ _ ih => exact .unit hu ih
  | pair hn _ hm _ _ ih => exact .unit hn (.unit hm ih)

def stringToken (body : List Char) : List Char := '"' :: body ++ ['"']

def IsDigits (ds : List Char) : Prop := ds ≠ [] ∧ ∀ c ∈ ds, Text.isDigit c

/-- Digits without a leading zero. -/
inductive IsWhole : List Char → Prop where
  | zero : IsWhole ['0']
  | digits {d : Char} {ds : List Char} (hd : Text.isDigit d) (h0 : d ≠ '0')
    (hds : ∀ c ∈ ds, Text.isDigit c) : IsWhole (d :: ds)

inductive IsFraction : List Char → Prop where
  | nil : IsFraction []
  | point {ds : List Char} (h : IsDigits ds) : IsFraction ('.' :: ds)

inductive IsExponent : List Char → Prop where
  | nil : IsExponent []
  | exponent {e : Char} {sign ds : List Char} (he : e = 'e' ∨ e = 'E')
    (hs : sign = [] ∨ sign = ['+'] ∨ sign = ['-']) (h : IsDigits ds) :
    IsExponent (e :: (sign ++ ds))

/-- A number without its sign. -/
inductive IsMagnitude : List Char → Prop where
  | number {whole fraction exponent : List Char} (hw : IsWhole whole) (hf : IsFraction fraction)
    (he : IsExponent exponent) : IsMagnitude (whole ++ (fraction ++ exponent))

inductive IsScalar : List Char → Prop where
  | null : IsScalar ['n', 'u', 'l', 'l']
  | bool (b : Bool) : IsScalar (boolChars b)
  | string {body : List Char} (h : IsStringBody body) : IsScalar (stringToken body)
  | number {m : List Char} (h : IsMagnitude m) : IsScalar m
  | negative {m : List Char} (h : IsMagnitude m) : IsScalar ('-' :: m)

/-! ## Trees -/

/-- A JSON text by its tokens; the name of a member is what stands between its quotes. -/
inductive Tree where
  | scalar (token : List Char)
  | list (items : List Tree)
  | object (members : List (List Char × Tree))

/-- What stands before an item or a member: a comma, unless it is the first. -/
def separator (first : Bool) : List (List Char) := if first then [] else [[',']]

mutual

def Tree.tokens : Tree → List (List Char)
  | .scalar token => [token]
  | .list items => ['['] :: (itemTokens true items ++ [[']']])
  | .object members => ['\x7b'] :: (memberTokens true members ++ [['\x7d']])

def itemTokens (first : Bool) : List Tree → List (List Char)
  | [] => []
  | v :: vs => separator first ++ (v.tokens ++ itemTokens false vs)

def memberTokens (first : Bool) : List (List Char × Tree) → List (List Char)
  | [] => []
  | (k, v) :: ms =>
    separator first ++ (stringToken k :: [':'] :: (v.tokens ++ memberTokens false ms))

end

inductive Tree.IsWellFormed : Tree → Prop where
  | scalar {token : List Char} (h : IsScalar token) : IsWellFormed (.scalar token)
  | list {items : List Tree} (h : ∀ v ∈ items, IsWellFormed v) : IsWellFormed (.list items)
  | object {members : List (List Char × Tree)} (hk : ∀ m ∈ members, IsStringBody m.1)
    (hv : ∀ m ∈ members, IsWellFormed m.2) : IsWellFormed (.object members)

theorem Tree.IsWellFormed.of_object {members : List (List Char × Tree)}
    (h : (Tree.object members).IsWellFormed) :
    (∀ m ∈ members, IsStringBody m.1) ∧ ∀ m ∈ members, m.2.IsWellFormed := by
  cases h with
  | object hk hv => exact ⟨hk, hv⟩

/-! ## Texts -/

/-- A text of the tokens with blanks before, between and behind them, or without. -/
inductive Spaced : List (List Char) → List Char → Prop where
  | nil {blanks : List Char} (h : ∀ c ∈ blanks, isJsonBlank c) : Spaced [] blanks
  | cons {blanks token text : List Char} {tokens : List (List Char)}
    (h : ∀ c ∈ blanks, isJsonBlank c) (ht : Spaced tokens text) :
    Spaced (token :: tokens) (blanks ++ (token ++ text))

/-- What may stand behind a value. -/
def EndsValue (tokens : List (List Char)) : Prop :=
  ∀ t ∈ tokens.head?, t = [','] ∨ t = [']'] ∨ t = ['\x7d']

/-- The token begins with no blank. -/
def IsSolid (token : List Char) : Prop := ∃ c cs, token = c :: cs ∧ isJsonBlank c = false

section Spaced

variable {token text : List Char} {tokens more : List (List Char)}

theorem skipBlank_append {blanks : List Char} (h : ∀ c ∈ blanks, isJsonBlank c)
    (ht : IsSolid token) (text : List Char) :
    skipBlank (blanks ++ (token ++ text)) = token ++ text := by
  obtain ⟨c, cs, rfl, hc⟩ := ht
  rw [skipBlank, List.dropWhile_append_of_pos h]
  exact skipBlank_cons hc (cs ++ text)

/-- Up to the first token there are only blanks. -/
theorem Spaced.skipBlank_eq (h : Spaced (token :: tokens) text) (ht : IsSolid token) :
    ∃ rest, Spaced tokens rest ∧ skipBlank text = token ++ rest ∧
      token.length + rest.length ≤ text.length := by
  cases h with
  | cons hb hrest =>
    refine ⟨_, hrest, skipBlank_append hb ht _, ?_⟩
    simp only [List.length_append]
    omega

theorem Spaced.skipBlank_nil (h : Spaced [] text) : skipBlank text = [] := by
  cases h with
  | nil h => exact List.dropWhile_eq_nil_iff.mpr h

theorem Spaced.behindBlanks (h : Spaced tokens text) (ht : ∀ t ∈ tokens.head?, IsSolid t) :
    Spaced tokens (skipBlank text) := by
  cases h with
  | nil h =>
    rw [(Spaced.nil h).skipBlank_nil]
    exact .nil (List.forall_mem_nil _)
  | cons hb hrest =>
    rw [skipBlank_append hb (ht _ rfl)]
    exact @Spaced.cons [] _ _ _ (List.forall_mem_nil _) hrest

theorem length_skipBlank_le (text : List Char) : (skipBlank text).length ≤ text.length :=
  List.length_dropWhile_le ..

theorem Spaced.exists_behind (h : Spaced (tokens ++ more) text) :
    ∃ rest, Spaced more rest ∧ rest.length ≤ text.length := by
  induction tokens generalizing text with
  | nil => exact ⟨text, h, Nat.le_refl _⟩
  | cons t ts ih =>
    cases h with
    | cons _ hrest =>
      obtain ⟨rest, hmore, hl⟩ := ih hrest
      refine ⟨rest, hmore, ?_⟩
      simp only [List.length_append]
      omega

/-- The tokens with the same blanks before each of them. -/
theorem spaced_flatMap {blanks : List Char} (h : ∀ c ∈ blanks, isJsonBlank c)
    (tokens : List (List Char)) : Spaced tokens (tokens.flatMap (blanks ++ ·)) := by
  induction tokens with
  | nil => exact .nil (List.forall_mem_nil _)
  | cons t ts ih =>
    rw [List.flatMap_cons, List.append_assoc]
    exact .cons h ih

theorem endsNumber_of_isJsonBlank {c : Char} (h : isJsonBlank c) (r : List Char) :
    EndsNumber (c :: r) := by
  simp only [isJsonBlank, Bool.or_eq_true, beq_iff_eq] at h
  rcases h with ((rfl | rfl) | rfl) | rfl <;> exact endsNumber_cons (by decide) r

/-- Nothing that stands behind a value would go on with a number. -/
theorem Spaced.endsNumber (h : Spaced tokens text) (ht : EndsValue tokens) : EndsNumber text := by
  cases h with
  | nil hb =>
    cases text with
    | nil => exact fun _ => nofun
    | cons c cs => exact endsNumber_of_isJsonBlank (hb c (List.mem_cons_self ..)) cs
  | @cons blanks token text tokens hb hrest =>
    cases blanks with
    | nil => rcases ht token rfl with rfl | rfl | rfl <;> exact endsNumber_cons (by decide) text
    | cons c cs => exact endsNumber_of_isJsonBlank (hb c (List.mem_cons_self ..)) _

end Spaced

/-! ## First characters -/

theorem IsMagnitude.exists_eq {m : List Char} (h : IsMagnitude m) :
    ∃ d ds, m = d :: ds ∧ Text.isDigit d := by
  obtain ⟨hw, -, -⟩ := h
  cases hw with
  | zero => exact ⟨_, _, rfl, rfl⟩
  | digits hd => exact ⟨_, _, rfl, hd⟩

/-- The first character of a scalar. -/
theorem IsScalar.exists_eq {token : List Char} (h : IsScalar token) :
    ∃ c cs, token = c :: cs ∧ isJsonBlank c = false ∧ c ≠ '[' ∧ c ≠ ']' ∧ c ≠ '\x7b' := by
  cases h with
  | null | string h | negative h => exact ⟨_, _, rfl, by decide⟩
  | bool b => cases b <;> exact ⟨_, _, rfl, by decide⟩
  | number h =>
    obtain ⟨d, ds, rfl, hd⟩ := h.exists_eq
    refine ⟨d, ds, rfl, isJsonBlank_of_isDigit hd, ?_, ?_, ?_⟩ <;> rintro rfl <;> cases hd

theorem IsScalar.isSolid {token : List Char} (h : IsScalar token) : IsSolid token := by
  obtain ⟨c, cs, hc, hb, -⟩ := h.exists_eq
  exact ⟨c, cs, hc, hb⟩

theorem isSolid_singleton {c : Char} (h : isJsonBlank c = false) : IsSolid [c] := ⟨c, [], rfl, h⟩

theorem isSolid_stringToken (body : List Char) : IsSolid (stringToken body) := ⟨_, _, rfl, rfl⟩

/-- The first token of a value, which closes no list. -/
theorem Tree.IsWellFormed.exists_tokens_eq {v : Tree} (h : v.IsWellFormed) :
    ∃ c cs tokens, v.tokens = (c :: cs) :: tokens ∧ isJsonBlank c = false ∧ c ≠ ']' := by
  cases h with
  | scalar h =>
    obtain ⟨c, cs, rfl, hb, -, hc, -⟩ := h.exists_eq
    exact ⟨c, cs, [], rfl, hb, hc⟩
  | list | object => exact ⟨_, _, _, rfl, by decide⟩

/-! ## Behind values -/

theorem endsValue_items (vs : List Tree) (more : List (List Char)) :
    EndsValue (itemTokens false vs ++ [']'] :: more) := by
  cases vs <;> rintro _ ⟨⟩ <;> simp

theorem endsValue_members (ms : List (List Char × Tree)) (more : List (List Char)) :
    EndsValue (memberTokens false ms ++ ['\x7d'] :: more) := by
  cases ms <;> rintro _ ⟨⟩ <;> simp

end TaskRelay.Json
