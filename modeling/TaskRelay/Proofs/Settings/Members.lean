import Mathlib
import TaskRelay.Proofs.Json.Lexemes
import TaskRelay.Proofs.Settings.Written

/-!
# Objects as sets of members

What an object is read as does not depend on the order of its members, on its blanks, or on members
that are no fields, whatever their values are; and no field may be given twice. Each member is a
step on the values assigned so far (`step`), and the steps commute.
-/

namespace TaskRelay.Settings

open TaskRelay.Json

theorem toOption_bind {α β : Type} (x : Except Fault α) (f : α → Except Fault β) :
    (x >>= f).toOption = x.toOption.bind fun a => (f a).toOption := by
  cases x <;> rfl

/-! ## Values of fields -/

section scalar

variable {token text rest : List Char}

theorem toOption_wrongKind {α : Type} (expected : String) (r : List Char) :
    (wrongKind expected r : Except Fault α).toOption = none := by
  unfold wrongKind
  split
  case h_1 | h_2 | h_3 | h_4 | h_5 =>
    rw [toOption_bind]
    exact Option.bind_eq_none_iff.mpr fun _ _ => rfl
  case h_6 | h_7 | h_8 => rfl
  case h_9 =>
    split
    · rw [toOption_bind]
      exact Option.bind_eq_none_iff.mpr fun _ _ => rfl
    · rfl

theorem alike_asSize (n : Number) : Alike (asSize n) := by
  cases n with
  | double d => exact alike_none fun _ _ => rfl
  | int v hv =>
    by_cases hneg : v < 0
    · refine alike_none fun r _ => ?_
      rw [asSize, if_pos hneg]
      rfl
    · refine (alike_ok (UInt64.ofNat v.toNat)).congr fun r _ => ?_
      rw [asSize, if_neg hneg]

theorem toOption_readSize {c : Char} (hb : isJsonBlank c = false)
    (h : c ≠ '-' ∧ Text.isDigit c = false) (r : List Char) :
    (readSize (c :: r)).toOption = none := by
  rw [readSize, skipBlank_cons hb]
  simp [h.1, h.2, toOption_wrongKind]

theorem toOption_readFlag {c : Char} (hb : isJsonBlank c = false) (h : c ≠ 't' ∧ c ≠ 'f')
    (r : List Char) : (readFlag (c :: r)).toOption = none := by
  rw [readFlag, skipBlank_cons hb]
  simp [h.1, h.2, toOption_wrongKind]

theorem toOption_readName {c : Char} (hb : isJsonBlank c = false) (h : c ≠ '"')
    (r : List Char) : (readName (c :: r)).toOption = none := by
  rw [readName, skipBlank_cons hb]
  simp [h, toOption_wrongKind]

theorem alike_readSize (h : IsScalar token) : Alike fun r => readSize (token ++ r) := by
  cases h with
  | null | string => exact alike_none fun r _ => toOption_readSize (by decide) (by decide) _
  | bool b =>
    cases b <;> exact alike_none fun r _ => toOption_readSize (by decide) (by decide) _
  | negative hm => exact (hm.alike true).bind alike_asSize
  | number hm =>
    refine ((hm.alike false).bind alike_asSize).congr fun r _ => ?_
    obtain ⟨d, ds, rfl, hd⟩ := hm.exists_eq
    have hminus : d ≠ '-' := by rintro rfl; cases hd
    rw [List.cons_append, readSize, skipBlank_cons (isJsonBlank_of_isDigit hd)]
    simp [hd]

theorem alike_readFlag (h : IsScalar token) : Alike fun r => readFlag (token ++ r) := by
  cases h with
  | bool b => cases b <;> exact alike_ok _
  | null | string | negative =>
    exact alike_none fun r _ => toOption_readFlag (by decide) (by decide) _
  | number hm =>
    obtain ⟨d, ds, rfl, hd⟩ := hm.exists_eq
    refine alike_none fun r _ => toOption_readFlag (isJsonBlank_of_isDigit hd) ⟨?_, ?_⟩ _ <;>
      rintro rfl <;> cases hd

theorem alike_readName (h : IsScalar token) : Alike fun r => readName (token ++ r) := by
  cases h with
  | string hbody =>
    refine (hbody.alike.bind fun s => alike_ok (String.ofList s)).congr fun r _ => ?_
    rw [stringToken, List.cons_append, List.cons_append, List.append_assoc]
    rfl
  | null | negative => exact alike_none fun r _ => toOption_readName (by decide) (by decide) _
  | bool b =>
    cases b <;> exact alike_none fun r _ => toOption_readName (by decide) (by decide) _
  | number hm =>
    obtain ⟨d, ds, rfl, hd⟩ := hm.exists_eq
    refine alike_none fun r _ => toOption_readName (isJsonBlank_of_isDigit hd) ?_ _
    rintro rfl
    cases hd

end scalar

/-- What is read for a field depends on the text behind the blanks only. -/
theorem readField_skipBlank (f : Field) (b : Assignment) (text : List Char) :
    readField f b (skipBlank text) = readField f b text := by
  have hskip : skipBlank (skipBlank text) = skipBlank text := List.dropWhile_idempotent ..
  cases f <;> simp only [readField, readSize, readFlag, readName, hskip]

/-- The value that is read for a field, from the token alone; lists and objects are no values. -/
def given? (f : Field) : Json.Tree → Option Assignment
  | .scalar token => (readField f .empty token).toOption.map Prod.fst
  | .list _ => none
  | .object _ => none

/-- A field is set to what is read for it. -/
theorem readField_of_alike {α : Type} {token : List Char} {f : Field}
    {read : List Char → Except Fault (α × List Char)} (set : Assignment → α → Assignment)
    (hread : ∀ b r, readField f b r = read r >>= fun p => .ok (set b p.1, p.2))
    (hgive : ∀ b x, (set .empty x).give f b = set b x) (h : Alike fun r => read (token ++ r))
    (b : Assignment) {rest : List Char} (hr : EndsNumber rest) :
    (readField f b (token ++ rest)).toOption =
      (given? f (.scalar token)).map fun a => (a.give f b, rest) := by
  obtain ⟨x?, hx⟩ := h
  have halone : (read token).toOption = x?.map (·, []) := by
    have hx : (read (token ++ [])).toOption = x?.map (·, []) := hx [] fun _ => nofun
    rwa [List.append_nil] at hx
  have hbehind : (read (token ++ rest)).toOption = x?.map (·, rest) := hx rest hr
  simp only [given?, hread, toOption_bind, halone, hbehind]
  cases x? with
  | none => rfl
  | some x => exact congrArg (fun a => some (a, rest)) (hgive b x).symm

theorem readField_scalar {token rest : List Char} (h : IsScalar token) (hr : EndsNumber rest)
    (f : Field) (b : Assignment) : (readField f b (token ++ rest)).toOption =
      (given? f (.scalar token)).map fun a => (a.give f b, rest) := by
  cases f with
  | workerThreads =>
    exact readField_of_alike (fun b n => { b with workerThreads := some n })
      (fun _ _ => rfl) (fun _ _ => rfl) (alike_readSize h) b hr
  | interactiveThreads =>
    exact readField_of_alike (fun b n => { b with interactiveThreads := some n })
      (fun _ _ => rfl) (fun _ _ => rfl) (alike_readSize h) b hr
  | localPool =>
    exact readField_of_alike (fun b on => { b with localPool := some on })
      (fun _ _ => rfl) (fun _ _ => rfl) (alike_readFlag h) b hr
  | dispatchThreadName =>
    exact readField_of_alike (fun b s => { b with dispatchThreadName := some s })
      (fun _ _ => rfl) (fun _ _ => rfl) (alike_readName h) b hr
  | dispatchStackSize =>
    exact readField_of_alike (fun b n => { b with dispatchStackSize := some n })
      (fun _ _ => rfl) (fun _ _ => rfl) (alike_readSize h) b hr
  | color =>
    exact readField_of_alike (fun b on => { b with color := some on })
      (fun _ _ => rfl) (fun _ _ => rfl) (alike_readFlag h) b hr

/-- No field has a list or an object as its value. -/
theorem readField_bracket {c : Char} (hc : c = '[' ∨ c = '\x7b') (f : Field) (b : Assignment)
    (r : List Char) : (readField f b (c :: r)).toOption = none := by
  have hb : isJsonBlank c = false := by rcases hc with rfl | rfl <;> rfl
  have hsize : (readSize (c :: r)).toOption = none :=
    toOption_readSize hb (by rcases hc with rfl | rfl <;> decide) r
  have hflag : (readFlag (c :: r)).toOption = none :=
    toOption_readFlag hb (by rcases hc with rfl | rfl <;> decide) r
  have hname : (readName (c :: r)).toOption = none :=
    toOption_readName hb (by rcases hc with rfl | rfl <;> decide) r
  cases f <;> simp only [readField, toOption_bind, hsize, hflag, hname, Option.bind_none]

/-- One value is read, or refused, and nothing behind it. -/
theorem readField_tokens {v : Json.Tree} {tokens : List (List Char)} {text : List Char}
    (h : v.IsWellFormed) (ht : EndsValue tokens) (hs : Spaced (v.tokens ++ tokens) text)
    (f : Field) : ∃ rest, Spaced tokens rest ∧
      ∀ b, (readField f b text).toOption = (given? f v).map fun a => (a.give f b, rest) := by
  have hbracket : ∀ {c : Char} {more : List (List Char)}, c = '[' ∨ c = '\x7b' →
      Spaced ([c] :: more) text → ∀ b, (readField f b text).toOption = none := by
    intro c more hc hs b
    obtain ⟨rest, -, hskip, -⟩ := hs.exists_behind_char (by rcases hc with rfl | rfl <;> rfl)
    rw [← readField_skipBlank, hskip, readField_bracket hc]
  cases h with
  | scalar h =>
    obtain ⟨rest, hrest, hskip, -⟩ := hs.skipBlank_eq h.isSolid
    refine ⟨rest, hrest, fun b => ?_⟩
    rw [← readField_skipBlank, hskip]
    exact readField_scalar h (hrest.endsNumber ht) f b
  | list =>
    obtain ⟨rest, hrest, -⟩ := hs.exists_behind
    exact ⟨rest, hrest, hbracket (.inl rfl) hs⟩
  | object =>
    obtain ⟨rest, hrest, -⟩ := hs.exists_behind
    exact ⟨rest, hrest, hbracket (.inr rfl) hs⟩

theorem isSet_of_given? {f : Field} {v : Json.Tree} {a : Assignment} (h : given? f v = some a) :
    a.isSet f := by
  cases v with
  | list | object => cases h
  | scalar token =>
    obtain ⟨⟨a, r⟩, hread, rfl⟩ := Option.map_eq_some_iff.mp h
    cases f <;> simp only [readField, toOption_bind, Option.bind_eq_some_iff] at hread <;>
      obtain ⟨⟨x, r'⟩, -, hx⟩ := hread <;> cases hx <;> rfl

/-! ## Members -/

/-- The text that a key stands for, unless it has a surrogate without its other half. -/
def keyText? (k : List Char) : Option (List Char) := (readString (k ++ ['"'])).toOption.map Prod.fst

/-- What a member adds to the values assigned so far. -/
def take? (b : Assignment) (m : List Char × Json.Tree) : Option Assignment :=
  (keyText? m.1).bind fun t =>
    match Field.ofName? (String.ofList t) with
    | none => some b
    | some f => if b.isSet f then none else (given? f m.2).map fun a => a.give f b

/-- Takes a member, unless what came before could not be read. -/
def step (b? : Option Assignment) (m : List Char × Json.Tree) : Option Assignment :=
  b?.bind fun b => take? b m

theorem foldl_step_none (ms : List (List Char × Json.Tree)) : ms.foldl step none = none := by
  induction ms with
  | nil => rfl
  | cons m ms ih => exact ih

section tokens

variable {k text : List Char} {tokens more : List (List Char)} {v : Json.Tree} {b : Assignment}

theorem keyText?_of_spells {s : List Char} (h : Spells k s) : keyText? k = some s := by
  rw [keyText?, readString_spells h]
  rfl

theorem readString_key (hk : IsStringBody k) (r : List Char) :
    (readString (k ++ '"' :: r)).toOption = (keyText? k).map (·, r) := by
  obtain ⟨s?, hs⟩ := hk.readsAlike
  rw [hs, keyText?, hs]
  cases s? <;> rfl

theorem nextKey_tokens {first : Bool} (hk : IsStringBody k)
    (hs : Spaced (separator first ++ (stringToken k :: tokens)) text) :
    ∃ r, Spaced tokens r ∧
      (nextKey first text).toOption = (keyText? k).map fun t => some (t, r) := by
  suffices ∃ r, Spaced tokens r ∧
      nextKey first text = readString (k ++ '"' :: r) >>= fun p => .ok (some p) by
    obtain ⟨r, hr, hnext⟩ := this
    refine ⟨r, hr, ?_⟩
    rw [hnext, toOption_bind, readString_key hk]
    cases keyText? k <;> rfl
  have hquote : ∀ r, stringToken k ++ r = '"' :: (k ++ '"' :: r) := by
    intro r
    simp [stringToken]
  cases first with
  | true =>
    obtain ⟨r, hr, hskip, -⟩ := Spaced.skipBlank_eq hs (isSolid_stringToken k)
    refine ⟨r, hr, ?_⟩
    rw [nextKey, hskip, hquote]
    rfl
  | false =>
    obtain ⟨mid, hmid, hskip, -⟩ := Spaced.exists_behind_char hs rfl
    obtain ⟨r, hr, hskip', -⟩ := hmid.skipBlank_eq (isSolid_stringToken k)
    refine ⟨r, hr, ?_⟩
    have hnext : nextKey false text = some <$> readString (k ++ '"' :: r) := by
      simp [nextKey, hskip, hskip', hquote]
    exact hnext

theorem readMember_tokens (hv : v.IsWellFormed) (ht : EndsValue tokens)
    (hs : Spaced ([':'] :: (v.tokens ++ tokens)) text) (k : List Char) (b : Assignment) :
    ∃ rest, Spaced tokens rest ∧ ((keyText? k).bind fun t => (readMember t b text).toOption) =
      (take? b (k, v)).map (·, rest) := by
  obtain ⟨mid, hmid, hcolon, -⟩ := readColon_tokens hs
  rw [take?]
  cases keyText? k with
  | none =>
    obtain ⟨rest, hrest, -⟩ := hmid.exists_behind
    exact ⟨rest, hrest, rfl⟩
  | some t =>
    simp only [Option.bind_some, readMember]
    cases Field.ofName? (String.ofList t) with
    | none =>
      obtain ⟨rest, hrest, hskip⟩ := skipValue_tokens hv ht hmid
      refine ⟨rest, hrest, ?_⟩
      simp only [hcolon, hskip, bind, Except.bind]
      rfl
    | some f =>
      obtain ⟨rest, hrest, hread⟩ := readField_tokens hv ht hmid f
      refine ⟨rest, hrest, ?_⟩
      by_cases hset : b.isSet f
      · simp only [hset, if_true]
        rfl
      · simp only [hset, Bool.false_eq_true, if_false, hcolon]
        rw [toOption_bind, Option.map_map]
        exact hread b

/-- Each member takes characters. -/
theorem length_le_of_spaced {ms : List (List Char × Json.Tree)} {first : Bool}
    (hs : Spaced (memberTokens first ms ++ more) text) : ms.length ≤ text.length := by
  induction ms generalizing first text with
  | nil => exact Nat.zero_le _
  | cons m ms ih =>
    simp only [memberTokens, List.append_assoc, List.cons_append] at hs
    obtain ⟨mid, hmid, hl⟩ := hs.exists_behind
    obtain ⟨r, hr, -, hl'⟩ := hmid.skipBlank_eq (isSolid_stringToken m.1)
    rw [← List.cons_append] at hr
    obtain ⟨rest, hrest, hl''⟩ := hr.exists_behind
    have := ih hrest
    simp only [stringToken, List.length_cons, List.length_append] at hl' ⊢
    omega

theorem toOption_readMembers (fuel : Nat) (first : Bool) (b : Assignment) (r : List Char) :
    (readMembers (fuel + 1) first b r).toOption = (nextKey first r).toOption.bind fun
      | none => some (b, r)
      | some (key, r₁) => (readMember key b r₁).toOption.bind fun p =>
          (readMembers fuel false p.1 p.2).toOption := by
  rw [readMembers, toOption_bind]
  congr 1
  funext k?
  cases k? with
  | none => rfl
  | some k => exact toOption_bind _ _

/-- The members are taken one after the other, up to the brace. -/
theorem readMembers_tokens {ms : List (List Char × Json.Tree)} {first : Bool} {fuel : Nat}
    (hk : ∀ m ∈ ms, IsStringBody m.1) (hv : ∀ m ∈ ms, m.2.IsWellFormed) (hf : ms.length < fuel)
    (hs : Spaced (memberTokens first ms ++ ['\x7d'] :: more) text) (b : Assignment) :
    ∃ rest, Spaced (['\x7d'] :: more) rest ∧
      (readMembers fuel first b text).toOption = (ms.foldl step (some b)).map (·, rest) := by
  induction ms generalizing first fuel text b with
  | nil =>
    obtain ⟨fuel, rfl⟩ := Nat.exists_eq_succ_of_ne_zero (Nat.ne_zero_of_lt hf)
    obtain ⟨r, -, hskip, -⟩ := Spaced.exists_behind_char hs rfl
    refine ⟨text, hs, ?_⟩
    rw [toOption_readMembers, nextKey, hskip]
    rfl
  | cons m ms ih =>
    obtain ⟨fuel, rfl⟩ := Nat.exists_eq_succ_of_ne_zero (Nat.ne_zero_of_lt hf)
    obtain ⟨hkm, hk⟩ := List.forall_mem_cons.mp hk
    obtain ⟨hvm, hv⟩ := List.forall_mem_cons.mp hv
    simp only [memberTokens, List.append_assoc, List.cons_append] at hs
    obtain ⟨r₁, hr₁, hnext⟩ := nextKey_tokens hkm hs
    obtain ⟨r₂, hr₂, hread⟩ := readMember_tokens hvm (endsValue_members ms more) hr₁ m.1 b
    have hmember : (readMembers (fuel + 1) first b text).toOption =
        (step (some b) m).bind fun b' => (readMembers fuel false b' r₂).toOption := by
      rw [toOption_readMembers, hnext, Option.bind_map]
      show ((keyText? m.1).bind fun t => (readMember t b r₁).toOption.bind _) = _
      rw [← Option.bind_assoc, hread, Option.bind_map]
      rfl
    rw [hmember, List.foldl_cons]
    cases htake : step (some b) m with
    | none =>
      obtain ⟨rest, hrest, -⟩ := hr₂.exists_behind
      refine ⟨rest, hrest, ?_⟩
      rw [foldl_step_none]
      rfl
    | some b' => exact ih hk hv (Nat.lt_of_succ_lt_succ hf) hr₂ b'

theorem readAssignment_tokens {ms : List (List Char × Json.Tree)}
    (h : (Json.Tree.object ms).IsWellFormed) (hs : Spaced (Json.Tree.object ms).tokens text) :
    (readAssignment text).toOption = ms.foldl step (some .empty) := by
  obtain ⟨hk, hv⟩ := h.of_object
  obtain ⟨r, hr, hskip, -⟩ := Spaced.exists_behind_char hs rfl
  obtain ⟨rest, hrest, hread⟩ := readMembers_tokens hk hv
    (Nat.lt_succ_of_le (length_le_of_spaced hr)) hr .empty
  obtain ⟨last, hlast, hbrace, -⟩ := hrest.exists_behind_char rfl
  have hclose : closeObject rest = .ok last := by
    simp only [closeObject, hbrace]
  have hend : expectEnd last = .ok () := by
    rw [expectEnd, hlast.skipBlank_nil]
  have hall : readAssignment text = readMembers (r.length + 1) true .empty r >>= fun p =>
      closeObject p.2 >>= fun r => expectEnd r >>= fun _ => .ok p.1 := by
    simp only [readAssignment, hskip]
    rfl
  rw [hall, toOption_bind, hread, Option.bind_map]
  cases ms.foldl step (some .empty) with
  | none => rfl
  | some a =>
    show (closeObject rest >>= fun r => expectEnd r >>= fun _ => Except.ok a).toOption = some a
    rw [hclose]
    show (expectEnd last >>= fun _ => Except.ok a).toOption = some a
    rw [hend]
    rfl

end tokens

/-! ## Order -/

section order

variable {a b : Assignment} {f g : Field} {m n : List Char × Json.Tree}

theorem isSet_give (a : Assignment) (f : Field) (b : Assignment) (g : Field) :
    (a.give f b).isSet g = if g = f then a.isSet g else b.isSet g := by
  cases f <;> cases g <;> rfl

theorem give_comm (h : f ≠ g) (a a' b : Assignment) :
    a'.give g (a.give f b) = a.give f (a'.give g b) := by
  cases f <;> cases g <;> first | rfl | exact absurd rfl h

/-- The member gives a field what `a` assigns to it, if it has no value yet. -/
def Puts (m : List Char × Json.Tree) (f : Field) (a : Assignment) : Prop :=
  a.isSet f ∧ ∀ b, step (some b) m = if b.isSet f then none else some (a.give f b)

theorem Puts.again (hm : Puts m f a) (hn : Puts n f b) (b? : Option Assignment) :
    step (step b? m) n = none := by
  cases b? with
  | none => rfl
  | some c =>
    rw [hm.2]
    split
    · rfl
    · rw [hn.2, isSet_give, if_pos rfl, if_pos hm.1]

theorem Puts.comm (hm : Puts m f a) (hn : Puts n g b) (b? : Option Assignment) :
    step (step b? m) n = step (step b? n) m := by
  by_cases hfg : f = g
  · subst hfg
    rw [hm.again hn, hn.again hm]
  cases b? with
  | none => rfl
  | some c =>
    have hf : (b.give g c).isSet f = c.isSet f := by rw [isSet_give, if_neg hfg]
    have hg : (a.give f c).isSet g = c.isSet g := by rw [isSet_give, if_neg fun h => hfg h.symm]
    rw [hm.2, hn.2]
    by_cases hsf : c.isSet f <;> by_cases hsg : c.isSet g <;>
      simp only [hsf, hsg, if_true, if_false, Bool.false_eq_true, hm.2, hn.2, hf, hg,
        give_comm hfg] <;> rfl

/-- A member of a field gives the field a value, or is no value for it. -/
theorem puts_or_refused {t : List Char} (ht : keyText? m.1 = some t)
    (hf : Field.ofName? (String.ofList t) = some f) :
    (∃ a, Puts m f a) ∨ ∀ b?, step b? m = none := by
  have htake : ∀ b, step (some b) m =
      if b.isSet f then none else (given? f m.2).map fun a => a.give f b := by
    intro b
    rw [step, Option.bind_some, take?, ht, Option.bind_some, hf]
  cases hv : given? f m.2 with
  | some a =>
    refine .inl ⟨a, isSet_of_given? hv, fun b => ?_⟩
    rw [htake, hv]
    rfl
  | none =>
    refine .inr fun b? => ?_
    cases b? with
    | none => rfl
    | some b =>
      rw [htake, hv]
      exact ite_self none

/-- A member that is no field changes nothing. -/
theorem step_other {t : List Char} (ht : keyText? m.1 = some t)
    (hf : Field.ofName? (String.ofList t) = none) (b? : Option Assignment) : step b? m = b? := by
  cases b? with
  | none => rfl
  | some b => rw [step, Option.bind_some, take?, ht, Option.bind_some, hf]

theorem step_unreadable (hk : keyText? m.1 = none) (b? : Option Assignment) : step b? m = none := by
  cases b? with
  | none => rfl
  | some b => rw [step, Option.bind_some, take?, hk, Option.bind_none]

/-- A member gives a field a value, or changes nothing, or cannot be read. -/
theorem puts_or_other_or_refused (m : List Char × Json.Tree) :
    (∃ f a, Puts m f a) ∨ (∀ b?, step b? m = b?) ∨ ∀ b?, step b? m = none := by
  cases ht : keyText? m.1 with
  | none => exact .inr (.inr (step_unreadable ht))
  | some t =>
    cases hf : Field.ofName? (String.ofList t) with
    | none => exact .inr (.inl (step_other ht hf))
    | some f =>
      rcases puts_or_refused ht hf with ha | hnone
      · exact .inl ⟨f, ha⟩
      · exact .inr (.inr hnone)

/-- Two members may be taken in either order. -/
theorem step_comm (b? : Option Assignment) (m n : List Char × Json.Tree) :
    step (step b? m) n = step (step b? n) m := by
  rcases puts_or_other_or_refused m with ⟨f, a, hm⟩ | hm | hm
  · rcases puts_or_other_or_refused n with ⟨g, b, hn⟩ | hn | hn
    · exact hm.comm hn b?
    · rw [hn, hn]
    · rw [hn, hn]
      rfl
  · rw [hm, hm]
  · rw [hm, hm]
    rfl

theorem foldl_step_perm {ms ns : List (List Char × Json.Tree)} (h : ms.Perm ns)
    (b? : Option Assignment) : ms.foldl step b? = ns.foldl step b? :=
  h.foldl_eq' (fun m _ n _ b? => step_comm b? m n) b?

/-- The name of the member is that of no field, however it is spelled. -/
def IsOther (m : List Char × Json.Tree) : Prop :=
  ∃ t, Spells m.1 t ∧ ∀ f : Field, t ≠ f.name.toList

theorem IsOther.isStringBody (h : IsOther m) : IsStringBody m.1 := by
  obtain ⟨t, ht, -⟩ := h
  exact ht.isStringBody

theorem IsOther.step_eq (h : IsOther m) (b? : Option Assignment) : step b? m = b? := by
  obtain ⟨t, ht, hnot⟩ := h
  refine step_other (keyText?_of_spells ht) (List.find?_eq_none.mpr fun f _ hf => ?_) b?
  refine hnot f ?_
  rw [eq_of_beq hf, String.toList_ofList]

theorem foldl_step_other {ms : List (List Char × Json.Tree)} (h : ∀ m ∈ ms, IsOther m)
    (b? : Option Assignment) : ms.foldl step b? = b? := by
  induction ms with
  | nil => rfl
  | cons m ms ih =>
    obtain ⟨hm, hms⟩ := List.forall_mem_cons.mp h
    rw [List.foldl_cons, hm.step_eq, ih hms]

theorem puts_or_refused_of_spells (h : Spells m.1 f.name.toList) :
    (∃ a, Puts m f a) ∨ ∀ b?, step b? m = none :=
  puts_or_refused (keyText?_of_spells h) (by rw [String.ofList_toList, Field.ofName?_name])

/-- A field that is given twice makes the object unreadable. -/
theorem foldl_step_twice {ms : List (List Char × Json.Tree)} (h : [m, n].Sublist ms)
    (hm : Spells m.1 f.name.toList) (hn : Spells n.1 f.name.toList) (b? : Option Assignment) :
    ms.foldl step b? = none := by
  obtain ⟨l, hl⟩ := h.exists_perm_append
  have htwice : step (step b? m) n = none := by
    rcases puts_or_refused_of_spells hm with ⟨a, hm⟩ | hm
    · rcases puts_or_refused_of_spells hn with ⟨b, hn⟩ | hn
      · exact hm.again hn b?
      · exact hn _
    · rw [hm]
      rfl
  rw [foldl_step_perm hl, List.foldl_append, List.foldl_cons, List.foldl_cons, htwice,
    List.foldl_nil, foldl_step_none]

end order

/-! ## Whole texts -/

variable {p : Processors} {ms : List (List Char × Json.Tree)} {text : String} {s : Settings}

theorem readAssignment_of_ofJsonText (h : ofJsonText p text = .ok s) :
    ∃ a, readAssignment text.toList = .ok a ∧ (a.settings p).checked = .ok s := by
  rw [ofJsonText] at h
  cases hread : readAssignment text.toList with
  | ok a =>
    rw [hread] at h
    exact ⟨a, rfl, h⟩
  | error f =>
    rw [hread] at h
    cases h

/--
What an accepted object stands for is what every text with its members stands for, in any order,
with any blanks between the tokens, and with any members besides that are no fields, whatever their
values are. An object that gives a field twice is never accepted.
-/
theorem readsMembers (h : (Json.Tree.object ms).IsWellFormed)
    (hs : Spaced (Json.Tree.object ms).tokens text.toList) :
    (∀ s others ms' text', ofJsonText p text = .ok s →
      (∀ m ∈ others, IsOther m ∧ m.2.IsWellFormed) → ms'.Perm (ms ++ others) →
      Spaced (Json.Tree.object ms').tokens text'.toList → ofJsonText p text' = .ok s) ∧
    ∀ f : Field, (∃ m n, [m, n].Sublist ms ∧ Spells m.1 f.name.toList ∧
      Spells n.1 f.name.toList) → ∀ s, ofJsonText p text ≠ .ok s := by
  have hread := readAssignment_tokens h hs
  constructor
  · intro s others ms' text' hok hothers hperm hs'
    obtain ⟨a, ha, hchecked⟩ := readAssignment_of_ofJsonText hok
    have hwf : (Json.Tree.object ms').IsWellFormed := by
      obtain ⟨hk, hv⟩ := h.of_object
      refine .object (fun m hm => ?_) (fun m hm => ?_)
      · rcases List.mem_append.mp (hperm.subset hm) with hm | hm
        · exact hk m hm
        · exact (hothers m hm).1.isStringBody
      · rcases List.mem_append.mp (hperm.subset hm) with hm | hm
        · exact hv m hm
        · exact (hothers m hm).2
    have hsame : (readAssignment text'.toList).toOption = some a := by
      rw [readAssignment_tokens hwf hs', foldl_step_perm hperm, List.foldl_append, ← hread, ha]
      exact foldl_step_other (fun m hm => (hothers m hm).1) (some a)
    cases hread' : readAssignment text'.toList with
    | error f =>
      rw [hread'] at hsame
      cases hsame
    | ok a' =>
      rw [hread'] at hsame
      obtain rfl := Option.some.inj hsame
      rw [ofJsonText, hread']
      exact hchecked
  · rintro f ⟨m, n, hsub, hm, hn⟩ s hok
    obtain ⟨a, ha, -⟩ := readAssignment_of_ofJsonText hok
    rw [foldl_step_twice hsub hm hn, ha] at hread
    cases hread

/-! Two fields, one of them spelled with an escape, and a member that is no field. -/

theorem spells_name (f : Field) : Spells f.name.toList f.name.toList := by
  refine spells_self ?_
  cases f <;> decide

theorem spells_escapedColor : Spells "\\u0063olor".toList Field.color.name.toList :=
  .unit (n := 99) rfl rfl rfl (spells_self (s := "olor".toList) rfl)

def escapedColor (value : String) : List Char × Json.Tree :=
  ("\\u0063olor".toList, .scalar value.toList)

def twoWorkers : List Char × Json.Tree := (Field.workerThreads.name.toList, .scalar ['2'])

/-- Brackets in its key and in its strings, which close nothing. -/
def nestedNote : List Char × Json.Tree :=
  ("\\\"]".toList, .list
    [.object [("\x7d".toList, .list [])], .scalar (stringToken "],\x7b".toList)])

theorem isWellFormed_twoWorkers : twoWorkers.2.IsWellFormed :=
  .scalar (.number (@IsMagnitude.number ['2'] [] [] (.digits rfl (by decide) nofun) .nil .nil))

theorem isOther_nestedNote : IsOther nestedNote ∧ nestedNote.2.IsWellFormed := by
  refine ⟨⟨"\"]".toList, .letter rfl (spells_self (s := [']']) rfl), fun f => ?_⟩, .list ?_⟩
  · cases f <;> decide
  · rw [List.forall_mem_cons, List.forall_mem_singleton]
    refine ⟨.object ?_ ?_, .scalar (.string (spells_self rfl).isStringBody)⟩ <;>
      rw [List.forall_mem_singleton]
    · exact (spells_self rfl).isStringBody
    · exact .list nofun

theorem readsMembers_shuffled :
    ofJsonText .one "\x7b\"\\u0063olor\":true,\"worker_threads\":2\x7d" =
        .ok { default .one with workerThreads := 2, color := true } ∧
      ofJsonText .one (" \x7b \"worker_threads\" : 2 , \"\\\"]\" : [ \x7b \"\x7d\" : [ ] \x7d ," ++
        " \"],\x7b\" ] , \"\\u0063olor\" : true \x7d") =
        .ok { default .one with workerThreads := 2, color := true } ∧
      ∀ s, ofJsonText .one "\x7b\"color\":true,\"\\u0063olor\":null\x7d" ≠ .ok s := by
  have hfirst : ofJsonText .one "\x7b\"\\u0063olor\":true,\"worker_threads\":2\x7d" =
      .ok { default .one with workerThreads := 2, color := true } := by decide +kernel
  have hcompact : ∀ tokens, Spaced tokens (tokens.flatMap ([] ++ ·)) :=
    spaced_flatMap (List.forall_mem_nil _)
  have hwide : ∀ tokens, Spaced tokens (tokens.flatMap ([' '] ++ ·)) :=
    spaced_flatMap (List.forall_mem_singleton.mpr rfl)
  have hcolor : IsStringBody (escapedColor "true").1 := spells_escapedColor.isStringBody
  have hname : ∀ f : Field, IsStringBody f.name.toList := fun f => (spells_name f).isStringBody
  have hwf : (Json.Tree.object [escapedColor "true", twoWorkers]).IsWellFormed := by
    refine .object ?_ ?_ <;> rw [List.forall_mem_cons, List.forall_mem_singleton]
    · exact ⟨hcolor, hname .workerThreads⟩
    · exact ⟨.scalar (.bool true), isWellFormed_twoWorkers⟩
  have htwice : (Json.Tree.object
      [(Field.color.name.toList, .scalar (boolChars true)), escapedColor "null"]).IsWellFormed := by
    refine .object ?_ ?_ <;> rw [List.forall_mem_cons, List.forall_mem_singleton]
    · exact ⟨hname .color, hcolor⟩
    · exact ⟨.scalar (.bool true), .scalar .null⟩
  refine ⟨hfirst, ?_, ?_⟩
  · have hperm : [twoWorkers, nestedNote, escapedColor "true"].Perm
        ([escapedColor "true", twoWorkers] ++ [nestedNote]) :=
      @List.perm_append_comm _ [twoWorkers, nestedNote] [escapedColor "true"]
    exact (readsMembers hwf (hcompact _)).1 _ _ _ _ hfirst
      (List.forall_mem_singleton.mpr isOther_nestedNote) hperm (hwide _)
  · exact (readsMembers htwice (hcompact _)).2 .color
      ⟨_, _, List.Sublist.refl _, spells_name .color, spells_escapedColor⟩

end TaskRelay.Settings
