import Mathlib
import TaskRelay.Proofs.Json.Skipping

/-!
# Lexemes are read for themselves

Whether a lexeme is read, and as what, does not depend on what stands behind it, which is left as it
is (`Alike`): strings, also those that are refused for a surrogate without its other half, and
numbers of any size.
-/

namespace TaskRelay.Json

variable {α β : Type}

/-- Whatever stands behind, the same is read, or nothing, and what stands behind is left. -/
def Alike (read : List Char → Except Fault (α × List Char)) : Prop :=
  ∃ x? : Option α, ∀ r, EndsNumber r → (read r).toOption = x?.map (·, r)

variable {read : List Char → Except Fault (α × List Char)}

theorem alike_ok (x : α) : Alike fun r => .ok (x, r) := ⟨some x, fun _ _ => rfl⟩

theorem alike_none (h : ∀ r, EndsNumber r → (read r).toOption = none) : Alike read := ⟨none, h⟩

theorem Alike.congr {read' : List Char → Except Fault (α × List Char)} (h : Alike read)
    (heq : ∀ r, EndsNumber r → read' r = read r) : Alike read' := by
  obtain ⟨x?, hx⟩ := h
  exact ⟨x?, fun r hr => by rw [heq r hr, hx r hr]⟩

theorem Alike.bind {next : α → List Char → Except Fault (β × List Char)} (h : Alike read)
    (hn : ∀ x, Alike (next x)) : Alike fun r => read r >>= fun p => next p.1 p.2 := by
  obtain ⟨x?, hx⟩ := h
  cases x? with
  | none =>
    refine alike_none fun r hr => ?_
    have hr := hx r hr
    cases hread : read r with
    | error f => rfl
    | ok p =>
      rw [hread] at hr
      cases hr
  | some x =>
    obtain ⟨y?, hy⟩ := hn x
    refine ⟨y?, fun r hr => ?_⟩
    have hxr := hx r hr
    cases hread : read r with
    | error f =>
      rw [hread] at hxr
      cases hxr
    | ok p =>
      rw [hread] at hxr
      obtain rfl := Option.some.inj hxr
      show (read r >>= fun p => next p.1 p.2).toOption = _
      rw [hread]
      exact hy r hr

/-! ## Strings -/

theorem toOption_prepend (c : Char) (x : Except Fault (List Char × List Char)) :
    (prepend c x).toOption = x.toOption.map fun p => (c :: p.1, p.2) := by
  cases x <;> rfl

theorem isTrailSurrogate_of_isLeadSurrogate {n : Nat} (h : isLeadSurrogate n) :
    isTrailSurrogate n = false := by
  simp only [isLeadSurrogate, Bool.and_eq_true, decide_eq_true_eq] at h
  simp only [isTrailSurrogate, Bool.and_eq_false_iff, decide_eq_false_iff_not]
  omega

theorem readString_letter {e c : Char} (he : letterEscape? e = some c) (r : List Char) :
    readString ('\\' :: e :: r) = prepend c (readString r) := by
  rw [readString, he]
  rintro rfl
  cases he

theorem readString_spells {body s : List Char} (h : Spells body s) (r : List Char) :
    readString (body ++ '"' :: r) = .ok (s, r) := by
  induction h with
  | nil => rfl
  | plain hq hb hc _ ih =>
    rw [List.cons_append, readString_plain hq hb (by omega), ih]
    rfl
  | letter he _ ih =>
    rw [List.cons_append, List.cons_append, readString_letter he, ih]
    rfl
  | unit hu hl ht _ ih =>
    simp only [List.cons_append]
    rw [readString.eq_def]
    simp only [hu, hl, ht, Bool.false_eq_true, if_false, ih]
    rfl
  | pair hn hl hm ht _ ih =>
    simp only [List.cons_append]
    rw [readString.eq_def]
    simp only [hn, isTrailSurrogate_of_isLeadSurrogate hl, hl, hm, ht, Bool.false_eq_true,
      if_true, if_false, ih]
    rfl

/-- Whatever stands behind the quote, the same is read, or nothing. -/
def ReadsAlike (body : List Char) : Prop :=
  ∃ s? : Option (List Char), ∀ r, (readString (body ++ '"' :: r)).toOption = s?.map (·, r)

theorem ReadsAlike.prepend {body rest : List Char} {c : Char} (h : ReadsAlike rest)
    (heq : ∀ r, readString (body ++ '"' :: r) = prepend c (readString (rest ++ '"' :: r))) :
    ReadsAlike body := by
  obtain ⟨s?, hs⟩ := h
  refine ⟨s?.map (c :: ·), fun r => ?_⟩
  rw [heq, toOption_prepend, hs, Option.map_map, Option.map_map]
  rfl

theorem readsAlike_none {body : List Char}
    (h : ∀ r, (readString (body ++ '"' :: r)).toOption = none) : ReadsAlike body := ⟨none, h⟩

/-- A surrogate that leads needs another escape behind it, whose rest is `rest`. -/
theorem readsAlike_lead {a b c d : Char} {n : Nat} {body : List Char}
    (hu : unit? a b c d = some n) (hl : isLeadSurrogate n) (hbody : IsStringBody body)
    (hrest : ∀ a' b' c' d' rest, body = '\\' :: 'u' :: a' :: b' :: c' :: d' :: rest →
      ReadsAlike rest) : ReadsAlike ('\\' :: 'u' :: a :: b :: c :: d :: body) := by
  have ht := isTrailSurrogate_of_isLeadSurrogate hl
  cases hbody with
  | nil =>
    refine readsAlike_none fun r => ?_
    simp only [List.cons_append, List.nil_append]
    rw [readString.eq_def]
    simp [hu, ht, hl, past, Except.toOption]
  | plain hq hb hc h =>
    refine readsAlike_none fun r => ?_
    simp only [List.cons_append]
    rw [readString.eq_def]
    simp [hu, ht, hl, hb, past, Except.toOption]
  | @letter e e' rest he h =>
    refine readsAlike_none fun r => ?_
    have hne : e ≠ 'u' := by
      rintro rfl
      cases he
    simp only [List.cons_append]
    rw [readString.eq_def]
    simp [hu, ht, hl, hne, past, Except.toOption]
  | @unit a' b' c' d' m rest hm h =>
    cases htm : isTrailSurrogate m with
    | false =>
      refine readsAlike_none fun r => ?_
      simp only [List.cons_append]
      rw [readString.eq_def]
      simp [hu, ht, hl, hm, htm, here, Except.toOption]
    | true =>
      refine (hrest _ _ _ _ rest rfl).prepend (c := pairChar n m) fun r => ?_
      simp only [List.cons_append]
      rw [readString.eq_def]
      simp [hu, ht, hl, hm, htm]

theorem IsStringBody.readsAlike {body : List Char} (h : IsStringBody body) : ReadsAlike body := by
  suffices ReadsAlike body ∧ ∀ a b c d rest,
      body = '\\' :: 'u' :: a :: b :: c :: d :: rest → ReadsAlike rest from this.1
  -- with what stands behind a first escape, which a surrogate before it reads too
  induction h with
  | nil => exact ⟨⟨some [], fun r => rfl⟩, nofun⟩
  | plain hq hb hc _ ih =>
    refine ⟨ih.1.prepend fun r => readString_plain hq hb (by omega) _, ?_⟩
    rintro a b c d rest ⟨⟩
    exact absurd rfl hb
  | letter he _ ih =>
    refine ⟨ih.1.prepend fun r => readString_letter he _, ?_⟩
    rintro a b c d rest ⟨⟩
    cases he
  | @unit a b c d n body hu h ih =>
    refine ⟨?_, by rintro a b c d rest ⟨⟩; exact ih.1⟩
    cases hl : isLeadSurrogate n with
    | true => exact readsAlike_lead hu hl h ih.2
    | false =>
      cases ht : isTrailSurrogate n with
      | true =>
        refine readsAlike_none fun r => ?_
        simp only [List.cons_append]
        rw [readString.eq_def]
        simp [hu, ht, here, Except.toOption]
      | false =>
        refine ih.1.prepend (c := Char.ofNat n) fun r => ?_
        simp only [List.cons_append]
        rw [readString.eq_def]
        simp [hu, hl, ht]

theorem IsStringBody.alike {body : List Char} (h : IsStringBody body) :
    Alike fun r => readString (body ++ '"' :: r) := by
  obtain ⟨s?, hs⟩ := h.readsAlike
  exact ⟨s?, fun r _ => hs r⟩

/-! ## Numbers -/

theorem alike_scaled (negative : Bool) (significand : Nat) (exponent : Int) :
    Alike (scaled negative significand exponent) := by
  unfold scaled
  cases Double.ofScaled? significand exponent with
  | none => exact alike_none fun _ _ => rfl
  | some d => exact alike_ok _

theorem alike_integerNumber (negative : Bool) (n : Nat) : Alike (integerNumber negative n) := by
  unfold integerNumber
  split
  · exact alike_ok _
  · cases Number.ofInt? (if negative then -n else n) with
    | none => exact alike_scaled negative n 0
    | some x => exact alike_ok x

/-- Digits are taken alike, and what is behind them is left. -/
theorem takeDigits_digits {ds : List Char} (hd : ∀ c ∈ ds, Text.isDigit c) (n : Nat) :
    ∃ v taken extra, ∀ r, EndsDigits r → takeDigits n (ds ++ r) = (v, taken, extra, r) := by
  induction ds generalizing n with
  | nil =>
    refine ⟨n, 0, 0, fun r hr => ?_⟩
    cases r with
    | nil => rfl
    | cons c r =>
      rw [List.nil_append, takeDigits, if_neg]
      simp [hr c rfl]
  | cons d ds ih =>
    obtain ⟨hd, hds⟩ := List.forall_mem_cons.mp hd
    by_cases hlt : 10 * n + Text.digitValue d < UInt64.size
    · obtain ⟨v, taken, extra, htake⟩ := ih hds (10 * n + Text.digitValue d)
      refine ⟨v, taken + 1, extra, fun r hr => ?_⟩
      simp only [List.cons_append, takeDigits, hd, hlt, if_true, htake r hr]
    · refine ⟨n, 0, ds.length + 1, fun r hr => ?_⟩
      have hskip := skipDigits_append hds hr
      have htake : (ds ++ r).takeWhile Text.isDigit = ds := by
        have happ := List.takeWhile_append_dropWhile (p := Text.isDigit) (l := ds ++ r)
        rw [skipDigits] at hskip
        rw [hskip] at happ
        exact List.append_cancel_right happ
      rw [skipDigits] at hskip
      simp only [List.cons_append, takeDigits, hd, hlt, if_true, if_false, htake, hskip]

theorem takeExponent_digits {ds : List Char} (hd : ∀ c ∈ ds, Text.isDigit c) (n : Nat) :
    (∃ e, ∀ r, EndsDigits r → takeExponent n (ds ++ r) = (some e, r)) ∨
      ∃ more, (∀ c ∈ more, Text.isDigit c) ∧
        ∀ r, EndsDigits r → takeExponent n (ds ++ r) = (none, more ++ r) := by
  induction ds generalizing n with
  | nil =>
    refine .inl ⟨n, fun r hr => ?_⟩
    cases r with
    | nil => rfl
    | cons c r =>
      rw [List.nil_append, takeExponent, if_neg]
      simp [hr c rfl]
  | cons d ds ih =>
    obtain ⟨hd, hds⟩ := List.forall_mem_cons.mp hd
    by_cases hlt : 10 * n + Text.digitValue d < 2147483648
    · simpa only [List.cons_append, takeExponent, hd, hlt, if_true] using
        ih hds (10 * n + Text.digitValue d)
    · refine .inr ⟨ds, hds, fun r _ => ?_⟩
      simp only [List.cons_append, takeExponent, hd, hlt, if_true, if_false]

theorem alike_readExponent {sign ds : List Char} (hs : sign = [] ∨ sign = ['+'] ∨ sign = ['-'])
    (hd : IsDigits ds) (negative : Bool) (significand : Nat) (start : Int) :
    Alike fun r => readExponent negative significand start (sign ++ (ds ++ r)) := by
  obtain ⟨hne, hd⟩ := hd
  obtain ⟨d, ds, rfl⟩ := List.exists_cons_of_ne_nil hne
  obtain ⟨hd, hds⟩ := List.forall_mem_cons.mp hd
  have hplus : d ≠ '+' := by rintro rfl; cases hd
  have hminus : d ≠ '-' := by rintro rfl; cases hd
  obtain ⟨e, htake⟩ | ⟨more, hmore, htake⟩ := takeExponent_digits hds (Text.digitValue d)
  · have hscaled : ∀ r, EndsNumber r →
        readExponent negative significand start (sign ++ (d :: ds ++ r)) =
          scaled negative significand (if sign = ['-'] then start - e else start + e) r := by
      intro r hr
      rcases hs with rfl | rfl | rfl <;>
        simp [readExponent, hplus, hminus, hd, htake r hr.endsDigits]
    exact (alike_scaled ..).congr hscaled
  -- with an exponent that large the number is out of range, or it is zero
  · have htake : ∀ r, EndsNumber r →
        takeExponent (Text.digitValue d) (ds ++ r) = (none, more ++ r) :=
      fun r hr => htake r hr.endsDigits
    have hskip : ∀ r, EndsNumber r → (more ++ r).dropWhile Text.isDigit = r :=
      fun r hr => skipDigits_append hmore hr.endsDigits
    by_cases hlarge : significand ≠ 0 ∧ sign ≠ ['-']
    · refine alike_none fun r hr => ?_
      rcases hs with rfl | rfl | rfl
      · simp [readExponent, hplus, hminus, hd, htake r hr, hlarge.1, here, Except.toOption]
      · simp [readExponent, hd, htake r hr, hlarge.1, here, Except.toOption]
      · exact absurd rfl hlarge.2
    · refine (alike_ok (.double (if negative then Double.zero.negate else Double.zero))).congr
        fun r hr => ?_
      have hzero : sign ≠ ['-'] → significand = 0 := fun hne => by
        by_contra h
        exact hlarge ⟨h, hne⟩
      rcases hs with rfl | rfl | rfl
      · simp [readExponent, hplus, hminus, hd, htake r hr, hzero nofun, hskip r hr]
      · simp [readExponent, hd, htake r hr, hzero (by decide), hskip r hr]
      · simp [readExponent, hd, htake r hr, hskip r hr]

theorem alike_readFraction {ds e : List Char} (hd : IsDigits ds) (he : IsExponent e)
    (negative : Bool) (n start : Nat) :
    Alike fun r => readFraction negative n start (ds ++ (e ++ r)) := by
  obtain ⟨hne, hd⟩ := hd
  obtain ⟨v, taken, extra, htake⟩ := takeDigits_digits hd n
  obtain ⟨d, ds, rfl⟩ := List.exists_cons_of_ne_nil hne
  have hfirst := hd d (List.mem_cons_self ..)
  cases he with
  | nil =>
    refine (alike_scaled negative v (start - taken)).congr fun r hr => ?_
    have htake := htake r hr.endsDigits
    rw [List.cons_append] at htake
    simp only [List.nil_append, List.cons_append, readFraction, hfirst, if_true, htake]
    split
    · exact absurd rfl (hr 'e' rfl).2.2.1
    · exact absurd rfl (hr 'E' rfl).2.2.2
    · rfl
  | exponent he hs hexp =>
    refine (alike_readExponent hs hexp negative v (start - taken)).congr fun r hr => ?_
    have htake := htake _ ((IsExponent.exponent he hs hexp).endsDigits hr)
    simp only [List.cons_append, List.append_assoc] at htake
    simp only [List.cons_append, List.append_assoc, readFraction, hfirst, if_true, htake]
    rcases he with rfl | rfl <;> rfl

theorem alike_readAfterInteger {f e : List Char} (hf : IsFraction f) (he : IsExponent e)
    (negative : Bool) (n extra : Nat) :
    Alike fun r => readAfterInteger negative n extra (f ++ (e ++ r)) := by
  cases hf with
  | point hd => exact alike_readFraction hd he negative n extra
  | nil =>
    cases he with
    | exponent he hs hexp =>
      refine (alike_readExponent hs hexp negative n extra).congr fun r _ => ?_
      rw [List.nil_append, List.cons_append, List.append_assoc]
      rcases he with rfl | rfl <;> rfl
    | nil =>
      have hwhole : Alike fun r =>
          if extra == 0 then integerNumber negative n r else scaled negative n extra r := by
        split
        · exact alike_integerNumber negative n
        · exact alike_scaled negative n extra
      refine hwhole.congr fun r hr => ?_
      simp only [List.nil_append, readAfterInteger]
      split
      · exact absurd rfl (hr '.' rfl).2.1
      · exact absurd rfl (hr 'e' rfl).2.2.1
      · exact absurd rfl (hr 'E' rfl).2.2.2
      · rfl

theorem IsMagnitude.alike {m : List Char} (hm : IsMagnitude m) (negative : Bool) :
    Alike fun r => readNumber negative (m ++ r) := by
  obtain @⟨whole, fraction, exponent, hw, hf, he⟩ := hm
  cases hw with
  | zero =>
    refine (alike_readAfterInteger hf he negative 0 0).congr fun r hr => ?_
    have hends := hf.endsDigits (he.endsDigits hr)
    rw [List.append_assoc, List.append_assoc, List.singleton_append]
    cases ht : fraction ++ (exponent ++ r) with
    | nil => simp [readNumber]
    | cons c t =>
      rw [ht] at hends
      simp [readNumber, hends c rfl]
  | @digits d ds hd h0 hds =>
    obtain ⟨v, taken, extra, htake⟩ := takeDigits_digits hds (Text.digitValue d)
    refine (alike_readAfterInteger hf he negative v extra).congr fun r hr => ?_
    have htake := htake _ (hf.endsDigits (he.endsDigits hr))
    simp only [List.append_assoc, List.cons_append, readNumber, beq_iff_eq, h0, if_false, hd,
      if_true, htake]

end TaskRelay.Json
