import Mathlib
import TaskRelay.Settings.Dotenv

/-!
# The lines of a .env file

A file is read line by line, where a quoted value may go over line ends. Whole lines in front of a
text are the first lines of both together (`linesOf_append`), a quote that nothing closes takes all
that follows it (`linesOf_unclosed`), and what kind of line a line is does not depend on what the
names in its value mean (`parseLine_cases`).
-/

namespace TaskRelay.Dotenv

/-! ## Putting lines together -/

section nextLine

variable {before text : List Char} {s : LineState} {ls ls' rest : List (List Char)}

theorem mem_of_mem_dropLineEnd {c : Char} {cs : List Char} (h : c ∈ dropLineEnd cs) : c ∈ cs := by
  unfold dropLineEnd at h
  split at h
  case h_1 heq | h_2 heq =>
    rw [List.mem_reverse] at h
    rw [← List.mem_reverse, heq]
    simp [h]
  case h_3 => exact h

/-- What stands before a comment is the beginning of the line. -/
theorem isPrefix_of_scanLine {l u : List Char} (h : scanLine s l = .inr u) : u <+: l := by
  induction l generalizing s u with
  | nil => cases h
  | cons c l ih =>
    rw [scanLine] at h
    cases hs : s.after c with
    | none =>
      rw [hs] at h
      obtain rfl := Sum.inr.inj h
      exact List.nil_prefix
    | some s' =>
      rw [hs] at h
      cases hscan : scanLine s' l with
      | inl s₁ => simp [hscan] at h
      | inr v =>
        simp only [hscan, Sum.map_inr, Sum.inr.injEq] at h
        subst h
        exact List.cons_prefix_cons.mpr ⟨rfl, ih hscan⟩

/-- With a line of the file a definition ends, or it goes on. -/
theorem nextLine_cons (before : List Char) (s : LineState) (l : List Char) :
    (∃ t, (∀ c ∈ t, c ∈ before ++ l) ∧ ∀ ls, nextLine before s (l :: ls) = .line t ls) ∨
      ∃ s', s' ≠ .complete ∧ ∀ ls, nextLine before s (l :: ls) = nextLine (before ++ l) s' ls := by
  simp only [nextLine]
  by_cases hc : (Text.trimStart (before ++ l)).head? = some '#'
  · simp only [hc, if_true]
    exact .inl ⟨[], List.forall_mem_nil _, fun _ => rfl⟩
  simp only [hc, if_false]
  cases hscan : scanLine s l with
  | inr u =>
    refine .inl ⟨before ++ u, fun c hm => ?_, fun _ => rfl⟩
    rw [List.mem_append] at hm ⊢
    exact hm.imp_right fun h => (isPrefix_of_scanLine hscan).subset h
  | inl s' =>
    by_cases hs : s' = .complete
    · subst hs
      exact .inl ⟨dropLineEnd (before ++ l), fun _ => mem_of_mem_dropLineEnd, fun _ => rfl⟩
    · exact .inr ⟨s', hs, fun ls => by cases s' <;> first | rfl | exact absurd rfl hs⟩

theorem nextLine_done (h : nextLine before s ls = .done) : ls = [] ∧ s = .complete := by
  induction ls generalizing before s with
  | nil =>
    rw [nextLine] at h
    split at h
    · exact ⟨rfl, ‹_›⟩
    · cases h
  | cons l ls ih =>
    rcases nextLine_cons before s l with ⟨t, -, ht⟩ | ⟨s', hs, ht⟩ <;> rw [ht] at h
    · cases h
    · exact absurd (ih h).2 hs

/-- A line is put together from what stands before it and the first lines of the file. -/
theorem nextLine_line (h : nextLine before s ls = .line text rest) :
    (∃ more, ls = more ++ rest ∧ more ≠ []) ∧ (∀ c ∈ text, c ∈ before ++ ls.flatten) ∧
      ∀ ls', nextLine before s (ls ++ ls') = .line text (rest ++ ls') := by
  induction ls generalizing before s with
  | nil =>
    rw [nextLine] at h
    split at h <;> cases h
  | cons l ls ih =>
    rw [List.flatten_cons, ← List.append_assoc]
    rcases nextLine_cons before s l with ⟨t, hmem, ht⟩ | ⟨s', -, ht⟩ <;> rw [ht] at h
    · cases h
      exact ⟨⟨[l], rfl, nofun⟩, fun c hc => List.mem_append_left _ (hmem c hc),
        fun ls' => ht _⟩
    · obtain ⟨⟨more, rfl, -⟩, hmem, happ⟩ := ih h
      exact ⟨⟨l :: more, rfl, nofun⟩, hmem, fun ls' => (ht _).trans (happ ls')⟩

end nextLine

/--
The lines that a file is read in, and whether it ends behind one of them, not within a definition.
-/
def readLines (ls : List (List Char)) : List (List Char) × Bool :=
  match _h : nextLine [] .complete ls with
  | .done => ([], true)
  | .unfinished => ([], false)
  | .line text rest => (text :: (readLines rest).1, (readLines rest).2)
termination_by ls.length
decreasing_by
  obtain ⟨⟨more, rfl, hne⟩, -, -⟩ := nextLine_line _h
  have := List.length_pos_of_ne_nil hne
  simp only [List.length_append]
  omega

def linesOf (text : List Char) : List (List Char) := (readLines (fileLines text)).1

/-- The text ends with a line end that no quote goes over. -/
def IsWhole (text : List Char) : Prop :=
  (text = [] ∨ text.getLast? = some '\n') ∧ (readLines (fileLines text)).2

section readLines

variable {text : List Char} {ls rest : List (List Char)}

theorem readLines_done (h : nextLine [] .complete ls = .done) : readLines ls = ([], true) := by
  rw [readLines]
  split <;> simp_all

theorem readLines_unfinished (h : nextLine [] .complete ls = .unfinished) :
    readLines ls = ([], false) := by
  rw [readLines]
  split <;> simp_all

theorem readLines_line (h : nextLine [] .complete ls = .line text rest) :
    readLines ls = (text :: (readLines rest).1, (readLines rest).2) := by
  rw [readLines]
  split <;> simp_all

theorem readLines_append (h : (readLines ls).2) (ls' : List (List Char)) :
    readLines (ls ++ ls') = ((readLines ls).1 ++ (readLines ls').1, (readLines ls').2) := by
  fun_induction readLines ls with
  | case1 ls hnext =>
    obtain ⟨rfl, -⟩ := nextLine_done hnext
    rfl
  | case2 => cases h
  | case3 ls text rest hnext ih =>
    rw [readLines_line ((nextLine_line hnext).2.2 ls'), ih h]
    rfl

theorem mem_of_mem_readLines {l : List Char} (h : l ∈ (readLines ls).1) :
    ∀ c ∈ l, c ∈ ls.flatten := by
  fun_induction readLines ls with
  | case1 | case2 => cases h
  | case3 ls text rest hnext ih =>
    obtain ⟨⟨more, rfl, -⟩, hmem, -⟩ := nextLine_line hnext
    rcases List.mem_cons.mp h with rfl | h
    · exact hmem
    · intro c hc
      rw [List.flatten_append]
      exact List.mem_append_right _ (ih h c hc)

end readLines

/-! ## Texts -/

theorem flatten_fileLines (text : List Char) : (fileLines text).flatten = text := by
  fun_induction fileLines text with
  | case1 => rfl
  | case2 c cs h ih => rw [List.flatten_cons, ih]; rfl
  | case3 c cs h line rest heq ih =>
    rw [heq, List.flatten_cons] at ih
    rw [List.flatten_cons, List.cons_append, ih]
  | case4 c cs h heq ih =>
    rw [heq] at ih
    rw [← ih]
    rfl

theorem exists_fileLines_cons {c : Char} (hc : c ≠ '\n') (cs : List Char) :
    ∃ l ls, fileLines (c :: cs) = (c :: l) :: ls ∧ l ++ ls.flatten = cs := by
  have hflat := flatten_fileLines cs
  rw [fileLines, if_neg (by simpa using hc)]
  cases hlines : fileLines cs with
  | nil =>
    rw [hlines] at hflat
    exact ⟨[], [], rfl, hflat⟩
  | cons l ls =>
    rw [hlines] at hflat
    exact ⟨l, ls, rfl, hflat⟩

theorem fileLines_append {a : List Char} (h : a = [] ∨ a.getLast? = some '\n') (b : List Char) :
    fileLines (a ++ b) = fileLines a ++ fileLines b := by
  induction a with
  | nil => rfl
  | cons c a ih =>
    have hlast : (c :: a).getLast? = some '\n' := h.resolve_left nofun
    cases a with
    | nil =>
      obtain rfl := Option.some.inj hlast
      rfl
    | cons d a =>
      rw [List.getLast?_cons_cons] at hlast
      rw [List.cons_append, fileLines, fileLines, ih (.inr hlast)]
      split
      · rfl
      · cases hlines : fileLines (d :: a) with
        | cons line rest => rfl
        | nil =>
          have hflat := flatten_fileLines (d :: a)
          rw [hlines] at hflat
          cases hflat

theorem linesOf_nil : linesOf [] = [] := by
  rw [linesOf, fileLines, readLines_done rfl]

theorem linesOf_append {a : List Char} (h : IsWhole a) (b : List Char) :
    linesOf (a ++ b) = linesOf a ++ linesOf b := by
  rw [linesOf, fileLines_append h.1, readLines_append h.2]
  rfl

theorem IsWhole.append {a b : List Char} (ha : IsWhole a) (hb : IsWhole b) : IsWhole (a ++ b) := by
  refine ⟨?_, ?_⟩
  · rcases hb.1 with rfl | hb
    · rw [List.append_nil]
      exact ha.1
    · exact .inr (by rw [List.getLast?_append, hb, Option.some_or])
  · rw [fileLines_append ha.1, readLines_append ha.2]
    exact hb.2

theorem linesOf_line {text line : List Char}
    (h : nextLine [] .complete (fileLines text) = .line line []) :
    linesOf text = [line] ∧ (text.getLast? = some '\n' → IsWhole text) := by
  have hread : readLines (fileLines text) = ([line], true) := by
    rw [readLines_line h, readLines_done rfl]
  exact ⟨by rw [linesOf, hread], fun hend => ⟨.inr hend, by rw [hread]⟩⟩

theorem mem_of_mem_linesOf {text l : List Char} (h : l ∈ linesOf text) : ∀ c ∈ l, c ∈ text := by
  have hmem := mem_of_mem_readLines h
  rwa [flatten_fileLines] at hmem

/-- What can stand before the equals sign. -/
def IsKey (name : List Char) : Prop := name ≠ [] ∧ ∀ c ∈ name, inKey c

/-! ## Quotes that are not closed -/

/-- The reading is behind the opening quote. -/
inductive Inside : Char → LineState → Prop
  | strong : Inside '\'' .strong
  | strongEscape : Inside '\'' .strongEscape
  | weak : Inside '"' .weak
  | weakEscape : Inside '"' .weakEscape

section quotes

variable {quote : Char} {s : LineState} {before l : List Char} {ls : List (List Char)}

theorem Inside.after (h : Inside quote s) {c : Char} (hc : c ≠ quote) :
    ∃ s', s.after c = some s' ∧ Inside quote s' := by
  cases h with
  | strongEscape => exact ⟨_, rfl, .strong⟩
  | weakEscape => exact ⟨_, rfl, .weak⟩
  | strong =>
    simp only [LineState.after, beq_iff_eq, hc, if_false]
    split
    · exact ⟨_, rfl, .strongEscape⟩
    · exact ⟨_, rfl, .strong⟩
  | weak =>
    simp only [LineState.after, beq_iff_eq, hc, if_false]
    split
    · exact ⟨_, rfl, .weakEscape⟩
    · exact ⟨_, rfl, .weak⟩

theorem Inside.scanLine (h : Inside quote s) (hl : quote ∉ l) :
    ∃ s', scanLine s l = .inl s' ∧ Inside quote s' := by
  induction l generalizing s with
  | nil => exact ⟨s, rfl, h⟩
  | cons c l ih =>
    rw [List.mem_cons, not_or] at hl
    obtain ⟨hne, hl⟩ := hl
    obtain ⟨s₁, hs₁, h₁⟩ := h.after (Ne.symm hne)
    obtain ⟨s₂, hs₂, h₂⟩ := ih h₁ hl
    refine ⟨s₂, ?_, h₂⟩
    rw [Dotenv.scanLine, hs₁]
    simp only [hs₂]
    rfl

/-- The character is no blank and begins neither a comment nor a line end, an escape or a quote. -/
def IsPlain (c : Char) : Prop :=
  Text.isBlank c = false ∧ c ≠ '#' ∧ c ≠ '\n' ∧ c ≠ '\\' ∧ c ≠ '"' ∧ c ≠ '\''

theorem isPlain_of_inKey {c : Char} (h : inKey c) : IsPlain c := by
  have hrange : (65 ≤ c.toNat ∧ c.toNat ≤ 90 ∨ 97 ≤ c.toNat ∧ c.toNat ≤ 122 ∨ c.toNat = 95) ∨
      (48 ≤ c.toNat ∧ c.toNat ≤ 57) ∨ c.toNat = 46 := by
    simp only [inKey, startsKey, isLetter, Text.isDigit, Bool.or_eq_true, Bool.and_eq_true,
      decide_eq_true_eq, beq_iff_eq] at h
    rcases h with (((h | h) | rfl) | h) | rfl
    all_goals first | omega | decide
  refine ⟨?_, ?_, ?_, ?_, ?_, ?_⟩
  · simp only [Text.isBlank, Bool.or_eq_false_iff, Bool.and_eq_false_iff, decide_eq_false_iff_not,
      beq_eq_false_iff_ne]
    omega
  all_goals
    rintro rfl
    revert hrange
    decide

theorem nextLine_goes {s' : LineState} (hscan : scanLine s l = .inl s') (hs : s' ≠ .complete)
    (hb : ∃ c cs, before ++ l = c :: cs ∧ IsPlain c) (ls : List (List Char)) :
    nextLine before s (l :: ls) = nextLine (before ++ l) s' ls := by
  obtain ⟨c, cs, htext, hblank, hc, -⟩ := hb
  have hcomment : (Text.trimStart (before ++ l)).head? ≠ some '#' := by
    rw [htext, Text.trimStart, List.dropWhile_cons_of_neg (by simp [hblank])]
    simpa using hc
  simp only [nextLine, hcomment, if_false, hscan]

theorem Inside.ne_complete (h : Inside quote s) : s ≠ .complete := by
  rintro rfl
  cases h

/-- A definition that leaves off behind an opening quote goes on to the end of the file. -/
theorem Inside.nextLine (h : Inside quote s) (hls : ∀ l ∈ ls, quote ∉ l)
    (hb : ∃ c cs, before = c :: cs ∧ IsPlain c) : nextLine before s ls = .unfinished := by
  induction ls generalizing before s with
  | nil => exact if_neg h.ne_complete
  | cons l ls ih =>
    obtain ⟨hl, hls⟩ := List.forall_mem_cons.mp hls
    obtain ⟨s', hscan, h'⟩ := h.scanLine hl
    obtain ⟨c, cs, rfl, hc⟩ := hb
    rw [nextLine_goes hscan h'.ne_complete ⟨c, cs ++ l, rfl, hc⟩]
    exact ih h' hls ⟨c, cs ++ l, rfl, hc⟩

theorem IsPlain.after {c : Char} (h : IsPlain c) : LineState.complete.after c = some .complete := by
  obtain ⟨hblank, -, -, hescape, hweak, hstrong⟩ := h
  simp [LineState.after, hblank, hescape, hweak, hstrong]

theorem scanLine_plain {cs : List Char} (hcs : ∀ c ∈ cs, IsPlain c) (l : List Char) :
    scanLine .complete (cs ++ l) = (scanLine .complete l).map id (cs ++ ·) := by
  induction cs with
  | nil =>
    rw [List.nil_append]
    cases scanLine .complete l <;> rfl
  | cons c cs ih =>
    obtain ⟨hc, hcs⟩ := List.forall_mem_cons.mp hcs
    rw [List.cons_append, scanLine, hc.after]
    simp only [ih hcs]
    cases scanLine .complete l <;> rfl

theorem fileLines_plain {cs : List Char} (hcs : ∀ c ∈ cs, IsPlain c) {text l : List Char}
    {ls : List (List Char)} (h : fileLines text = l :: ls) :
    fileLines (cs ++ text) = (cs ++ l) :: ls := by
  induction cs with
  | nil => exact h
  | cons c cs ih =>
    obtain ⟨⟨-, -, hc, -⟩, hcs⟩ := List.forall_mem_cons.mp hcs
    rw [List.cons_append, fileLines, ih hcs, if_neg (by simpa using hc)]
    rfl

/-- A definition whose value begins with a quote that nothing closes is not read. -/
theorem linesOf_unclosed {name body : List Char} (hname : IsKey name)
    (hquote : quote = '"' ∨ quote = '\'') (hbody : quote ∉ body) :
    linesOf (name ++ '=' :: quote :: body) = [] := by
  obtain ⟨hne, hkey⟩ := hname
  obtain ⟨d, ds, rfl⟩ := List.exists_cons_of_ne_nil hne
  have hplain : ∀ c ∈ d :: ds ++ ['='], IsPlain c := by
    refine List.forall_mem_append.mpr ⟨fun c hc => isPlain_of_inKey (hkey c hc), ?_⟩
    exact List.forall_mem_singleton.mpr (by simp only [IsPlain]; decide)
  obtain ⟨s, hafter, hinside⟩ : ∃ s, LineState.complete.after quote = some s ∧ Inside quote s := by
    rcases hquote with rfl | rfl
    · exact ⟨.weak, rfl, .weak⟩
    · exact ⟨.strong, rfl, .strong⟩
  -- the line with the quote, and the lines below it
  have hend : quote ≠ '\n' := by rcases hquote with rfl | rfl <;> decide
  obtain ⟨l, ls, hlines, hflat⟩ := exists_fileLines_cons hend body
  rw [← hflat, List.mem_append, not_or] at hbody
  obtain ⟨s', hscan, hinside'⟩ := hinside.scanLine hbody.1
  have hls : ∀ l ∈ ls, quote ∉ l := fun l hl hq => hbody.2 (List.mem_flatten.mpr ⟨l, hl, hq⟩)
  have hstart : scanLine .complete (d :: ds ++ ['='] ++ quote :: l) = .inl s' := by
    rw [scanLine_plain hplain, scanLine, hafter]
    simp only [hscan]
    rfl
  have hnext :
      nextLine [] .complete (fileLines (d :: ds ++ '=' :: quote :: body)) = .unfinished := by
    rw [List.append_cons, fileLines_plain hplain hlines,
      nextLine_goes hstart hinside'.ne_complete ⟨d, _, rfl, hplain d (List.mem_cons_self ..)⟩]
    exact hinside'.nextLine hls ⟨d, _, rfl, hplain d (List.mem_cons_self ..)⟩
  rw [linesOf, readLines_unfinished hnext]

end quotes

/-! ## Names -/

section names

variable {cs name r : List Char}

theorem isKey_of_parseKey (h : parseKey cs = some (name, r)) :
    IsKey name ∧ r <:+ cs := by
  cases cs with
  | nil => cases h
  | cons c cs =>
    rw [parseKey] at h
    split at h
    · next hc =>
      obtain ⟨rfl, rfl⟩ := Prod.mk.inj (Option.some.inj h)
      refine ⟨⟨nofun, List.forall_mem_cons.mpr ⟨?_, fun d hd => List.mem_takeWhile_imp hd⟩⟩, ?_⟩
      · simp [inKey, hc]
      · exact ((List.dropWhile_suffix _).trans (List.dropWhile_suffix _)).trans
          (List.suffix_cons ..)
    · cases h

theorem isSuffix_of_parseEquals (h : parseEquals cs = some r) : r <:+ cs := by
  unfold parseEquals at h
  split at h
  · obtain rfl := Option.some.inj h
    exact (List.dropWhile_suffix _).trans (List.suffix_cons ..)
  · cases h

/-- The name that a line defines, and its value, which is the rest of the line. -/
theorem isKey_of_parseTarget (h : parseTarget cs = some (name, r)) :
    IsKey name ∧ r <:+ cs := by
  obtain ⟨⟨key, r₁⟩, hkey, h⟩ := Option.bind_eq_some_iff.mp h
  obtain ⟨hname, hr₁⟩ := isKey_of_parseKey hkey
  dsimp only at h
  cases hequals : parseEquals r₁ with
  | some r₂ =>
    rw [hequals] at h
    obtain ⟨rfl, rfl⟩ := Prod.mk.inj (Option.some.inj h)
    exact ⟨hname, (isSuffix_of_parseEquals hequals).trans hr₁⟩
  | none =>
    rw [hequals] at h
    dsimp only at h
    split at h
    · obtain ⟨⟨key', r₂⟩, hkey', h⟩ := Option.bind_eq_some_iff.mp h
      obtain ⟨r₃, hr₃, h⟩ := Option.bind_eq_some_iff.mp h
      obtain ⟨rfl, rfl⟩ := Prod.mk.inj (Option.some.inj h)
      obtain ⟨hname', hr₂⟩ := isKey_of_parseKey hkey'
      exact ⟨hname', ((isSuffix_of_parseEquals hr₃).trans hr₂).trans hr₁⟩
    · cases h

end names

/-! ## Kinds of lines -/

section kinds

variable {meaning : List Char → List Char} {text name value : List Char}

/-- Whether a value is malformed does not depend on what the names in it mean. -/
theorem isSome_parseValue (meaning meaning' : List Char → List Char) (spot : Spot)
    (cs : List Char) :
    (parseValue meaning spot cs).isSome = (parseValue meaning' spot cs).isSome := by
  induction cs generalizing spot with
  | nil =>
    cases spot with
    | name quoted =>
      simp only [parseValue]
      cases quoted <;> rfl
    | text | escape | braced | strong | ended => rfl
  | cons c cs ih =>
    cases spot with
    | escape quoted =>
      simp only [parseValue]
      cases unescape? c with
      | none => rfl
      | some d => simp only [Option.isSome_map, ih]
    | text | name | braced | strong | ended =>
      simp only [parseValue]
      split_ifs <;> simp only [Option.isSome_map, Option.isSome_none, Option.isSome_some, ih]

theorem forall_mem_unescape? {p : Char → Prop} {c d : Char} (h : unescape? c = some d) (hc : p c)
    (hn : p '\n') : p d := by
  unfold unescape? at h
  split_ifs at h <;> obtain rfl := Option.some.inj h
  · exact hc
  · exact hn

/-- If there is a value, its characters are as `p` says. -/
def Consists (p : Char → Prop) (value? : Option (List Char)) : Prop :=
  ∀ value ∈ value?, ∀ c ∈ value, p c

variable {p : Char → Prop} {value? : Option (List Char)}

theorem Consists.append {cs : List Char} (h : Consists p value?) (hcs : ∀ c ∈ cs, p c) :
    Consists p (value?.map (cs ++ ·)) := by
  intro v hv
  obtain ⟨rest, hrest, rfl⟩ := Option.map_eq_some_iff.mp hv
  exact List.forall_mem_append.mpr ⟨hcs, h rest hrest⟩

theorem Consists.cons {c : Char} (h : Consists p value?) (hc : p c) :
    Consists p (value?.map (c :: ·)) := h.append (List.forall_mem_singleton.mpr hc)

theorem consists_none : Consists p none := nofun

theorem consists_some {cs : List Char} (h : ∀ c ∈ cs, p c) : Consists p (some cs) := by
  rintro _ ⟨⟩
  exact h

/-- A value has the characters of its text, of what its names mean, and line ends. -/
theorem consists_parseValue {cs : List Char} (hcs : ∀ c ∈ cs, p c) (hn : p '\n')
    (hm : ∀ q, ∀ c ∈ meaning q, p c) (spot : Spot) : Consists p (parseValue meaning spot cs) := by
  have hempty : Consists p (some []) := consists_some (List.forall_mem_nil _)
  induction cs generalizing spot with
  | nil =>
    cases spot <;> simp only [parseValue, consists_none, hempty]
    case text | escape => split <;> simp only [consists_none, hempty]
    case name => split <;> simp only [consists_none, consists_some (hm _)]
  | cons c cs ih =>
    obtain ⟨hc, hcs⟩ := List.forall_mem_cons.mp hcs
    have ih := ih hcs
    cases spot with
    | escape quoted =>
      simp only [parseValue]
      split
      · next d hd => exact (ih _).cons (forall_mem_unescape? hd hc hn)
      · exact consists_none
    | text quoted =>
      simp only [parseValue]
      split_ifs <;> first | exact ih _ | exact (ih _).cons hc
    | name quoted sofar =>
      simp only [parseValue]
      have hboth : ∀ d ∈ meaning sofar ++ [c], p d :=
        List.forall_mem_append.mpr ⟨hm _, List.forall_mem_singleton.mpr hc⟩
      split_ifs
      · exact ih _
      · exact ih _
      · exact (ih _).append (hm _)
      · simpa only [List.append_assoc, List.singleton_append] using (ih (.text quoted)).append hboth
    | braced quoted sofar =>
      simp only [parseValue]
      split_ifs
      · exact (ih _).append (hm _)
      · exact ih _
    | strong =>
      simp only [parseValue]
      split_ifs
      · exact ih _
      · exact (ih _).cons hc
    | ended =>
      simp only [parseValue]
      split_ifs
      · exact ih _
      · exact hempty
      · exact consists_none

/-- A line is nothing, or malformed, or it defines a name, whatever the names in its value mean. -/
theorem parseLine_cases (text : List Char) :
    (∀ meaning, parseLine meaning text = .nothing) ∨
      (∀ meaning, parseLine meaning text = .malformed) ∨
      ∃ name, IsKey name ∧ ∀ meaning, ∃ value, parseLine meaning text = .definition name value := by
  unfold parseLine
  by_cases hnothing : isNothing (Text.trimStart (Text.trimEnd text))
  · exact .inl fun _ => if_pos hnothing
  simp only [hnothing, Bool.false_eq_true, if_false]
  cases htarget : parseTarget (Text.trimStart (Text.trimEnd text)) with
  | none => exact .inr (.inl fun _ => rfl)
  | some target =>
    obtain ⟨name, r⟩ := target
    obtain ⟨hname, -⟩ := isKey_of_parseTarget htarget
    by_cases hr : isNothing r
    · exact .inr (.inr ⟨name, hname, fun _ => ⟨[], by simp only [hr, if_true]⟩⟩)
    simp only [hr, Bool.false_eq_true, if_false]
    cases hsome : (parseValue (fun _ => []) (.text false) r).isSome with
    | false =>
      refine .inr (.inl fun meaning => ?_)
      rw [isSome_parseValue _ meaning, Option.isSome_eq_false_iff, Option.isNone_iff_eq_none]
        at hsome
      rw [hsome]
    | true =>
      refine .inr (.inr ⟨name, hname, fun meaning => ?_⟩)
      rw [isSome_parseValue _ meaning] at hsome
      obtain ⟨value, hvalue⟩ := Option.isSome_iff_exists.mp hsome
      exact ⟨value, by rw [hvalue]⟩

/-- Whatever the names in it mean. -/
def IsMalformed (line : List Char) : Prop := ∃ meaning, parseLine meaning line = .malformed

def Defines (line name : List Char) : Prop :=
  ∃ meaning value, parseLine meaning line = .definition name value

theorem IsMalformed.parseLine_eq (h : IsMalformed text) (meaning : List Char → List Char) :
    parseLine meaning text = .malformed := by
  obtain ⟨meaning', h⟩ := h
  rcases parseLine_cases text with hc | hc | ⟨name, -, hc⟩
  · rw [hc] at h
    cases h
  · exact hc meaning
  · obtain ⟨value, hc⟩ := hc meaning'
    rw [hc] at h
    cases h

theorem Defines.isKey_and_exists_eq (h : Defines text name) :
    IsKey name ∧ ∀ meaning, ∃ value, parseLine meaning text = .definition name value := by
  obtain ⟨meaning, value, h⟩ := h
  rcases parseLine_cases text with hc | hc | ⟨name', hname, hc⟩
  · rw [hc] at h
    cases h
  · rw [hc] at h
    cases h
  · obtain ⟨value', hc'⟩ := hc meaning
    rw [hc'] at h
    cases h
    exact ⟨hname, hc⟩

theorem forall_mem_parseLine (h : parseLine meaning text = .definition name value)
    (ht : ∀ c ∈ text, p c) (hn : p '\n') (hm : ∀ q, ∀ c ∈ meaning q, p c) : ∀ c ∈ value, p c := by
  have hcs : ∀ c ∈ Text.trimStart (Text.trimEnd text), p c := by
    intro c hc
    have hend : c ∈ Text.trimEnd text := (List.dropWhile_suffix _).subset hc
    exact ht c (List.mem_reverse.mp
      ((List.dropWhile_suffix _).subset (List.mem_reverse.mp hend)))
  unfold parseLine at h
  simp only at h
  split at h
  · cases h
  split at h
  · cases h
  · next name' r htarget =>
    obtain ⟨-, hsuffix⟩ := isKey_of_parseTarget htarget
    split at h
    · cases h
      exact List.forall_mem_nil _
    · split at h
      · next value' hvalue =>
        cases h
        exact consists_parseValue (fun c hc => hcs c (hsuffix.subset hc)) hn hm _ _ hvalue
      · cases h

end kinds

end TaskRelay.Dotenv
