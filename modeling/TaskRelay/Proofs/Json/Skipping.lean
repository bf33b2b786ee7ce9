import Mathlib
import TaskRelay.Proofs.Json.Tokens

/-!
# Going over what is not wanted

A value that is gone over is one value, of any depth: the reading stops right behind its last token
(`skipValue_tokens`). The open brackets are on a stack; a list or an object is gone over item by
item, each of which leaves the stack as it was (`Passes`).
-/

namespace TaskRelay.Json

variable {r : List Char}

/-! ## Lexemes -/

theorem skipString_append {body : List Char} (h : IsStringBody body) (r : List Char) :
    skipString (body ++ '"' :: r) = .ok r := by
  induction h with
  | nil => rfl
  | plain hq hb hc _ ih =>
    rw [List.cons_append, skipString]
    · rw [if_neg (by omega), ih]
    all_goals simp_all
  | letter he _ ih =>
    rw [List.cons_append, List.cons_append, skipString, he]
    · exact ih
    · rintro rfl
      cases he
  | unit hu _ ih =>
    simp only [List.cons_append]
    rw [skipString]
    simp only [hu, Option.isSome_some, if_true, ih]

/-- No digit stands at the front of this. -/
def EndsDigits (r : List Char) : Prop := ∀ c ∈ r.head?, Text.isDigit c = false

theorem EndsNumber.endsDigits (h : EndsNumber r) : EndsDigits r := fun c hc => (h c hc).1

theorem skipDigits_append {ds : List Char} (hd : ∀ c ∈ ds, Text.isDigit c) (hr : EndsDigits r) :
    skipDigits (ds ++ r) = r := by
  rw [skipDigits, List.dropWhile_append_of_pos hd]
  cases r with
  | nil => rfl
  | cons c r =>
    rw [List.dropWhile_cons_of_neg]
    simp [hr c rfl]

theorem IsExponent.endsDigits {e : List Char} (he : IsExponent e) (hr : EndsNumber r) :
    EndsDigits (e ++ r) := by
  cases he with
  | nil => exact hr.endsDigits
  | exponent he => rcases he with rfl | rfl <;> rintro _ ⟨⟩ <;> rfl

theorem IsFraction.endsDigits {f : List Char} (hf : IsFraction f) (hr : EndsDigits r) :
    EndsDigits (f ++ r) := by
  cases hf with
  | nil => exact hr
  | point => rintro _ ⟨⟩; rfl

theorem skipExponent_append {sign ds : List Char}
    (hs : sign = [] ∨ sign = ['+'] ∨ sign = ['-']) (hd : IsDigits ds) (hr : EndsDigits r) :
    skipExponent (sign ++ (ds ++ r)) = .ok r := by
  obtain ⟨hne, hd⟩ := hd
  obtain ⟨d, ds, rfl⟩ := List.exists_cons_of_ne_nil hne
  obtain ⟨hd, hds⟩ := List.forall_mem_cons.mp hd
  have hplus : d ≠ '+' := by rintro rfl; cases hd
  have hminus : d ≠ '-' := by rintro rfl; cases hd
  rcases hs with rfl | rfl | rfl <;>
    simp [skipExponent, hplus, hminus, hd, skipDigits_append hds hr]

theorem skipExponentIfAny_append {e : List Char} (he : IsExponent e) (hr : EndsNumber r) :
    skipExponentIfAny (e ++ r) = .ok r := by
  cases he with
  | nil =>
    cases r with
    | nil => rfl
    | cons c r =>
      obtain ⟨-, -, he, hE⟩ := hr c rfl
      rw [List.nil_append, skipExponentIfAny] <;> simp [he, hE]
  | exponent he hs hd =>
    rw [List.cons_append, List.append_assoc]
    rcases he with rfl | rfl <;> exact skipExponent_append hs hd hr.endsDigits

theorem skipAfterInteger_append {f e : List Char} (hf : IsFraction f) (he : IsExponent e)
    (hr : EndsNumber r) : skipAfterInteger (f ++ (e ++ r)) = .ok r := by
  have hskip := skipExponentIfAny_append he hr
  cases hf with
  | nil =>
    rw [List.nil_append, skipAfterInteger]
    · exact hskip
    · rintro s hs
      cases he with
      | nil => exact (hr '.' (by rw [← List.nil_append r, hs]; rfl)).2.1 rfl
      | exponent he =>
        obtain ⟨rfl, -⟩ := List.cons.inj hs
        rcases he with he | he <;> cases he
  | point hd =>
    obtain ⟨hne, hd⟩ := hd
    obtain ⟨d, ds, rfl⟩ := List.exists_cons_of_ne_nil hne
    have hdigits := skipDigits_append hd (he.endsDigits hr)
    rw [List.cons_append] at hdigits
    simp only [List.cons_append, skipAfterInteger, hd d (List.mem_cons_self ..), if_true, hdigits,
      hskip]

theorem skipNumber_append {m : List Char} (hm : IsMagnitude m) (hr : EndsNumber r) :
    skipNumber (m ++ r) = .ok r := by
  obtain @⟨whole, fraction, exponent, hw, hf, he⟩ := hm
  rw [List.append_assoc, List.append_assoc]
  have hafter := skipAfterInteger_append hf he hr
  have hends := hf.endsDigits (he.endsDigits hr)
  cases hw with
  | zero =>
    rw [List.singleton_append]
    cases ht : fraction ++ (exponent ++ r) with
    | nil => rwa [ht] at hafter
    | cons c t =>
      rw [ht] at hafter hends
      simp [skipNumber, hends c rfl, hafter]
  | @digits d ds hd h0 hds =>
    have hdigits := skipDigits_append hds hends
    simp only [List.cons_append, skipNumber, beq_iff_eq, h0, if_false, hd, if_true, hdigits, hafter]

theorem skipScalar_append {token : List Char} (h : IsScalar token) (hr : EndsNumber r) :
    skipScalar (token ++ r) = .ok r := by
  have hmagnitude : ∀ {m : List Char}, IsMagnitude m → skipScalar (m ++ r) = .ok r := by
    intro m hm
    have hskip := skipNumber_append hm hr
    obtain ⟨d, ds, rfl, hd⟩ := hm.exists_eq
    rw [List.cons_append, skipScalar]
    · rw [if_pos hd]
      exact hskip
    all_goals
      rintro rfl
      cases hd
  cases h with
  | null => rfl
  | bool b => cases b <;> rfl
  | string h =>
    have hskip := skipString_append h r
    rw [stringToken, List.cons_append, List.cons_append, List.append_assoc]
    exact hskip
  | number h => exact hmagnitude h
  | negative h => exact skipNumber_append h hr

/-! ## Steps -/

/-- From `text` on the reading comes to `rest`, however many steps it may take there. -/
def Passes (want : Want) (fs : List Bracket) (text : List Char) (want' : Want) (fs' : List Bracket)
    (rest : List Char) : Prop :=
  ∃ k, k + rest.length ≤ text.length ∧
    ∀ fuel, skipOpen (fuel + k) want fs text = skipOpen fuel want' fs' rest

variable {want want' want'' : Want} {fs fs' fs'' : List Bracket} {text rest rest' : List Char}
variable {tokens : List (List Char)}

theorem Passes.trans (h : Passes want fs text want' fs' rest)
    (h' : Passes want' fs' rest want'' fs'' rest') : Passes want fs text want'' fs'' rest' := by
  obtain ⟨k, hk, hpass⟩ := h
  obtain ⟨k', hk', hpass'⟩ := h'
  refine ⟨k' + k, by omega, fun fuel => ?_⟩
  rw [← Nat.add_assoc, hpass, hpass']

theorem Passes.one (hl : rest.length < text.length)
    (h : ∀ fuel, skipOpen (fuel + 1) want fs text = skipOpen fuel want' fs' rest) :
    Passes want fs text want' fs' rest := ⟨1, by omega, h⟩

/-- What stands behind a token of one character. -/
theorem Spaced.exists_behind_char {c : Char} (h : Spaced ([c] :: tokens) text)
    (hc : isJsonBlank c = false) :
    ∃ rest, Spaced tokens rest ∧ skipBlank text = c :: rest ∧ rest.length < text.length := by
  obtain ⟨rest, hrest, hskip, hl⟩ := h.skipBlank_eq (isSolid_singleton hc)
  exact ⟨rest, hrest, hskip, by simpa [Nat.add_comm] using hl⟩

/-- A step that takes a token of one character. -/
theorem Passes.char {c : Char} (hs : Spaced ([c] :: tokens) text) (hc : isJsonBlank c = false)
    (h : ∀ fuel rest, skipBlank text = c :: rest →
      skipOpen (fuel + 1) want fs text = skipOpen fuel want' fs' rest) :
    ∃ rest, Spaced tokens rest ∧ Passes want fs text want' fs' rest := by
  obtain ⟨rest, hrest, hskip, hl⟩ := hs.exists_behind_char hc
  exact ⟨rest, hrest, .one hl fun fuel => h fuel rest hskip⟩

theorem readColon_tokens (hs : Spaced ([':'] :: tokens) text) :
    ∃ rest, Spaced tokens rest ∧ readColon text = .ok rest ∧ rest.length < text.length := by
  obtain ⟨rest, hrest, hskip, hl⟩ := hs.exists_behind_char rfl
  exact ⟨rest, hrest, by simp only [readColon, hskip], hl⟩

theorem skipKey_tokens {k : List Char} (hk : IsStringBody k)
    (hs : Spaced (stringToken k :: [':'] :: tokens) text) :
    ∃ rest, Spaced tokens rest ∧ skipKey text = .ok rest ∧ rest.length < text.length := by
  obtain ⟨mid, hmid, hskip, hl⟩ := hs.skipBlank_eq (isSolid_stringToken k)
  obtain ⟨rest, hrest, hcolon, hl'⟩ := readColon_tokens hmid
  refine ⟨rest, hrest, ?_, by omega⟩
  rw [stringToken, List.cons_append, List.cons_append, List.append_assoc, List.singleton_append]
    at hskip
  simp only [skipKey, hskip, skipString_append hk, bind, Except.bind, hcolon]

/-! ## Whole values -/

/-- The value is gone over, and the open brackets before it are left open. -/
def Tree.IsPassed (v : Tree) : Prop :=
  ∀ (tokens : List (List Char)) (text : List Char) (fs : List Bracket), EndsValue tokens →
    Spaced (v.tokens ++ tokens) text →
      ∃ rest, Spaced tokens rest ∧ Passes .value fs text .next fs rest

theorem passes_scalar {token : List Char} (h : IsScalar token) : (Tree.scalar token).IsPassed := by
  intro tokens text fs ht hs
  obtain ⟨rest, hrest, hskip, hl⟩ := hs.skipBlank_eq h.isSolid
  obtain ⟨c, cs, rfl, -, hlist, -, hobject⟩ := h.exists_eq
  have hscalar := skipScalar_append h (hrest.endsNumber ht)
  refine ⟨rest, hrest, .one (by simp at hl; omega) fun fuel => ?_⟩
  rw [List.cons_append] at hskip hscalar
  rw [skipOpen, hskip]
  split
  · next heq => exact absurd (List.cons.inj heq).1 hlist
  · next heq => exact absurd (List.cons.inj heq).1 hobject
  · rw [hscalar]

/-- The items behind the first, each behind a comma, and the bracket. -/
theorem passes_items {vs : List Tree} (hv : ∀ v ∈ vs, v.IsPassed) (fs : List Bracket)
    (hs : Spaced (itemTokens false vs ++ [']'] :: tokens) text) :
    ∃ rest, Spaced tokens rest ∧ Passes .next (.list :: fs) text .next fs rest := by
  induction vs generalizing text with
  | nil => exact Passes.char hs rfl fun fuel rest hskip => by simp only [skipOpen, hskip]
  | cons v vs ih =>
    rw [itemTokens, separator, if_neg Bool.false_ne_true, List.append_assoc, List.append_assoc]
      at hs
    obtain ⟨r₁, hr₁, hcomma⟩ : ∃ r₁, Spaced _ r₁ ∧
        Passes .next (.list :: fs) text .value (.list :: fs) r₁ :=
      Passes.char hs rfl fun fuel rest hskip => by simp only [skipOpen, hskip]
    obtain ⟨r₂, hr₂, hitem⟩ := hv v (List.mem_cons_self ..) _ r₁ (.list :: fs)
      (endsValue_items vs tokens) hr₁
    obtain ⟨rest, hrest, hmore⟩ := ih (fun v hm => hv v (List.mem_cons_of_mem _ hm)) hr₂
    exact ⟨rest, hrest, (hcomma.trans hitem).trans hmore⟩

theorem passes_list {vs : List Tree} (hwf : ∀ v ∈ vs, v.IsWellFormed)
    (hv : ∀ v ∈ vs, v.IsPassed) : (Tree.list vs).IsPassed := by
  intro tokens text fs ht hs
  rw [Tree.tokens, List.cons_append, List.append_assoc] at hs
  obtain ⟨mid, hmid, hskip, hl⟩ := hs.exists_behind_char rfl
  cases vs with
  | nil =>
    obtain ⟨rest, hrest, hskip', hl'⟩ := hmid.exists_behind_char rfl
    refine ⟨rest, hrest, .one (by omega) fun fuel => ?_⟩
    simp only [skipOpen, hskip, hskip']
  | cons v vs =>
    simp only [itemTokens, separator, if_true, List.nil_append, List.append_assoc] at hmid
    obtain ⟨c, cs, ts, htokens, hb, hc⟩ := (hwf v (List.mem_cons_self ..)).exists_tokens_eq
    have hfirst : ∀ t ∈ (v.tokens ++ (itemTokens false vs ++ [']'] :: tokens)).head?,
        IsSolid t := by
      rw [htokens]
      rintro _ ⟨⟩
      exact ⟨c, cs, rfl, hb⟩
    have hopen : Passes .value fs text .value (.list :: fs) (skipBlank mid) := by
      rw [htokens, List.cons_append] at hmid
      obtain ⟨r, -, hskip', -⟩ := hmid.skipBlank_eq ⟨c, cs, rfl, hb⟩
      rw [List.cons_append] at hskip'
      refine .one (Nat.lt_of_le_of_lt (length_skipBlank_le mid) hl) fun fuel => ?_
      simp only [skipOpen, hskip, hskip']
      split
      · next heq => cases heq
      · next heq => exact absurd (List.cons.inj heq).1 hc
      · rfl
    obtain ⟨r₂, hr₂, hitem⟩ := hv v (List.mem_cons_self ..) _ _ (.list :: fs)
      (endsValue_items vs tokens) (hmid.behindBlanks hfirst)
    obtain ⟨rest, hrest, hmore⟩ := passes_items (fun v hm => hv v (List.mem_cons_of_mem _ hm))
      fs hr₂
    exact ⟨rest, hrest, (hopen.trans hitem).trans hmore⟩

/-- The members behind the first, each behind a comma, and the brace. -/
theorem passes_members {ms : List (List Char × Tree)} (hk : ∀ m ∈ ms, IsStringBody m.1)
    (hv : ∀ m ∈ ms, m.2.IsPassed) (fs : List Bracket)
    (hs : Spaced (memberTokens false ms ++ ['\x7d'] :: tokens) text) :
    ∃ rest, Spaced tokens rest ∧ Passes .next (.object :: fs) text .next fs rest := by
  induction ms generalizing text with
  | nil => exact Passes.char hs rfl fun fuel rest hskip => by simp only [skipOpen, hskip]
  | cons m ms ih =>
    simp only [memberTokens, separator, Bool.false_eq_true, if_false, List.append_assoc,
      List.cons_append, List.nil_append] at hs
    obtain ⟨mid, hmid, hskip, hl⟩ := hs.exists_behind_char rfl
    obtain ⟨r₁, hr₁, hkey, hl'⟩ := skipKey_tokens (hk m (List.mem_cons_self ..)) hmid
    have hcomma : Passes .next (.object :: fs) text .value (.object :: fs) r₁ :=
      .one (by omega) fun fuel => by simp only [skipOpen, hskip, hkey]
    obtain ⟨r₂, hr₂, hitem⟩ := hv m (List.mem_cons_self ..) _ r₁ (.object :: fs)
      (endsValue_members ms tokens) hr₁
    obtain ⟨rest, hrest, hmore⟩ := ih (fun m hm => hk m (List.mem_cons_of_mem _ hm))
      (fun m hm => hv m (List.mem_cons_of_mem _ hm)) hr₂
    exact ⟨rest, hrest, (hcomma.trans hitem).trans hmore⟩

theorem passes_object {ms : List (List Char × Tree)} (hk : ∀ m ∈ ms, IsStringBody m.1)
    (hv : ∀ m ∈ ms, m.2.IsPassed) : (Tree.object ms).IsPassed := by
  intro tokens text fs ht hs
  rw [Tree.tokens, List.cons_append, List.append_assoc] at hs
  obtain ⟨mid, hmid, hskip, hl⟩ := hs.exists_behind_char rfl
  cases ms with
  | nil =>
    obtain ⟨rest, hrest, hskip', hl'⟩ := hmid.exists_behind_char rfl
    refine ⟨rest, hrest, .one (by omega) fun fuel => ?_⟩
    simp only [skipOpen, hskip, hskip']
  | cons m ms =>
    simp only [memberTokens, separator, if_true, List.nil_append, List.append_assoc,
      List.cons_append] at hmid
    obtain ⟨r₁, hr₁, hkey, hl'⟩ := skipKey_tokens (hk m (List.mem_cons_self ..))
      (hmid.behindBlanks (by rintro _ ⟨⟩; exact isSolid_stringToken m.1))
    have hopen : Passes .value fs text .value (.object :: fs) r₁ := by
      have := length_skipBlank_le mid
      obtain ⟨r, -, hskip', -⟩ := hmid.skipBlank_eq (isSolid_stringToken m.1)
      rw [stringToken, List.cons_append, List.cons_append] at hskip'
      rw [hskip'] at hkey
      refine .one (by omega) fun fuel => ?_
      simp only [skipOpen, hskip, hskip']
      split
      · next heq => cases heq
      · next heq => cases heq
      · rw [hkey]
    obtain ⟨r₂, hr₂, hitem⟩ := hv m (List.mem_cons_self ..) _ r₁ (.object :: fs)
      (endsValue_members ms tokens) hr₁
    obtain ⟨rest, hrest, hmore⟩ := passes_members (fun m hm => hk m (List.mem_cons_of_mem _ hm))
      (fun m hm => hv m (List.mem_cons_of_mem _ hm)) fs hr₂
    exact ⟨rest, hrest, (hopen.trans hitem).trans hmore⟩

theorem Tree.IsWellFormed.isPassed {v : Tree} (h : v.IsWellFormed) : v.IsPassed := by
  induction h with
  | scalar h => exact passes_scalar h
  | list hwf ih => exact passes_list hwf ih
  | object hk _ ih => exact passes_object hk ih

/-- One value is gone over, and nothing behind it. -/
theorem skipValue_tokens {v : Tree} (h : v.IsWellFormed) (ht : EndsValue tokens)
    (hs : Spaced (v.tokens ++ tokens) text) :
    ∃ rest, Spaced tokens rest ∧ skipValue text = .ok rest := by
  obtain ⟨rest, hrest, k, hk, hpass⟩ := h.isPassed tokens text [] ht hs
  refine ⟨rest, hrest, ?_⟩
  obtain ⟨fuel, hfuel⟩ := Nat.exists_eq_add_of_le' (show k ≤ text.length + 1 by omega)
  rw [skipValue, hfuel, hpass, skipOpen]

end TaskRelay.Json
