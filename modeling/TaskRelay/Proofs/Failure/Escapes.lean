import Mathlib
import TaskRelay.Failure.Report

/-!
# Color is in escape sequences

A report has one line for each text of the chain, and its colors are escape sequences around the
labels (`reportChars_eq`). Without the escape sequences it is the report without colors, unless the
texts hold the escape character themselves: then what they hold is dropped with the colors.
Main statement: `coloring`.
-/

namespace TaskRelay

/-! ## Dropping escape sequences -/

/-- Drops what stands from an escape character to the next `m`, or to the end; `inside` is whether
the reading begins within such a sequence. -/
def dropEscapes (inside : Bool) : List Char → List Char
  | [] => []
  | c :: cs =>
    if inside then dropEscapes (c != 'm') cs
    else if c = '\x1b' then dropEscapes true cs
    else c :: dropEscapes false cs

def withoutEscapes (s : String) : String := String.ofList (dropEscapes false s.toList)

/-- One sequence or several, each of an escape character, a bracket, digits and an `m`. -/
def IsEscapes (cs : List Char) : Prop :=
  ∃ codes : List (List Char), codes ≠ [] ∧ (∀ code ∈ codes, code ≠ [] ∧ ∀ c ∈ code, c.isDigit) ∧
    cs = codes.flatMap fun code => '\x1b' :: '[' :: code ++ ['m']

variable {cs : List Char}

/-- Within a sequence the reading goes on behind the next `m`. -/
theorem dropEscapes_true (cs : List Char) :
    dropEscapes true cs = dropEscapes false (cs.dropWhile (· != 'm')).tail := by
  induction cs with
  | nil => rfl
  | cons c cs ih =>
    rw [dropEscapes, if_pos rfl, List.dropWhile_cons]
    cases hc : c != 'm' with
    | true => exact ih
    | false => rfl

theorem dropEscapes_append (h : '\x1b' ∉ cs) (rest : List Char) :
    dropEscapes false (cs ++ rest) = cs ++ dropEscapes false rest := by
  induction cs with
  | nil => rfl
  | cons c cs ih =>
    obtain ⟨hc, hcs⟩ := not_or.mp (mt List.mem_cons.mpr h)
    rw [List.cons_append, dropEscapes, if_neg Bool.false_ne_true, if_neg (Ne.symm hc), ih hcs,
      List.cons_append]

theorem escape_notMem_dropEscapes (inside : Bool) (cs : List Char) :
    '\x1b' ∉ dropEscapes inside cs := by
  induction cs generalizing inside with
  | nil => exact List.not_mem_nil
  | cons c cs ih =>
    rw [dropEscapes]
    split_ifs with hi hc
    · exact ih _
    · exact ih true
    · exact List.not_mem_cons_of_ne_of_not_mem (Ne.symm hc) (ih false)

theorem dropEscapes_sequence {code : List Char} (h : ∀ c ∈ code, c.isDigit) (rest : List Char) :
    dropEscapes false ('\x1b' :: '[' :: code ++ ['m'] ++ rest) = dropEscapes false rest := by
  have hm : ∀ c ∈ '[' :: code, (c != 'm') = true := by
    rintro c hc
    rw [bne_iff_ne]
    rintro rfl
    rcases List.mem_cons.mp hc with hc | hc
    · cases hc
    · cases h _ hc
  show dropEscapes true ('[' :: code ++ ['m'] ++ rest) = _
  rw [dropEscapes_true, List.append_assoc, List.dropWhile_append_of_pos hm]
  rfl

theorem IsEscapes.dropEscapes_append (h : IsEscapes cs) (rest : List Char) :
    dropEscapes false (cs ++ rest) = dropEscapes false rest := by
  obtain ⟨codes, -, hcodes, rfl⟩ := h
  induction codes with
  | nil => rfl
  | cons code codes ih =>
    rw [List.forall_mem_cons] at hcodes
    rw [List.flatMap_cons, List.append_assoc, dropEscapes_sequence hcodes.1.2, ih hcodes.2]

namespace Label

theorem isEscapes_turnOn (l : Label) : IsEscapes l.turnOn := by
  cases l with
  | error => exact ⟨[['1'], ['3', '1']], by decide, by simp, rfl⟩
  | cause | trace => exact ⟨[['3', '3']], by decide, by simp, rfl⟩

theorem isEscapes_turnOff (l : Label) : IsEscapes l.turnOff := by
  cases l with
  | error => exact ⟨[['3', '9'], ['0']], by decide, by simp, rfl⟩
  | cause | trace => exact ⟨[['3', '9']], by decide, by simp, rfl⟩

theorem escape_notMem_text (l : Label) : '\x1b' ∉ l.text := by
  cases l <;> decide

end Label

/-! ## Lines -/

theorem intercalate_cons {α : Type} (sep x : List α) (l : List (List α)) :
    sep.intercalate (x :: l) = x ++ l.flatMap fun y => sep ++ y := by
  induction l generalizing x with
  | nil => simp
  | cons y l ih =>
    rw [List.intercalate_cons_cons, ih, List.flatMap_cons, List.append_assoc, List.append_assoc]

/-- A line of a report with something before its label and something behind. -/
def lineChars (before after : Label → List Char) (line : Label × String) : List Char :=
  before line.1 ++ line.1.text ++ after line.1 ++ ' ' :: line.2.toList

/-- Lines, one below the other. -/
def linesChars (before after : Label → List Char) (lines : List (Label × String)) : List Char :=
  ['\n'].intercalate (lines.map (lineChars before after))

def noChars (_ : Label) : List Char := []

section Lines

variable {before after : Label → List Char} {line : Label × String} {lines : List (Label × String)}

theorem dropEscapes_lineChars (hb : ∀ l, IsEscapes (before l)) (ha : ∀ l, IsEscapes (after l))
    (h : '\x1b' ∉ line.2.toList) (rest : List Char) :
    dropEscapes false (lineChars before after line ++ rest) =
      lineChars noChars noChars line ++ dropEscapes false rest := by
  have htext : '\x1b' ∉ ' ' :: line.2.toList :=
    List.not_mem_cons_of_ne_of_not_mem (by decide) h
  simp only [lineChars, noChars, List.append_assoc, List.nil_append]
  rw [(hb _).dropEscapes_append, dropEscapes_append line.1.escape_notMem_text,
    (ha _).dropEscapes_append, dropEscapes_append htext]

theorem linesChars_singleton (before after : Label → List Char) (line : Label × String) :
    linesChars before after [line] = lineChars before after line := by
  rw [linesChars, List.map_singleton, List.intercalate_singleton]

theorem linesChars_cons_cons (before after : Label → List Char) (line next : Label × String)
    (lines : List (Label × String)) : linesChars before after (line :: next :: lines) =
      lineChars before after line ++ '\n' :: linesChars before after (next :: lines) := by
  rw [linesChars, List.map_cons, List.map_cons, List.intercalate_cons_cons, List.append_assoc]
  rfl

/-- Whatever escape sequences stand around the labels, without them the lines are plain. -/
theorem dropEscapes_linesChars (hb : ∀ l, IsEscapes (before l)) (ha : ∀ l, IsEscapes (after l))
    (h : ∀ line ∈ lines, '\x1b' ∉ line.2.toList) :
    dropEscapes false (linesChars before after lines) = linesChars noChars noChars lines := by
  induction lines with
  | nil => rfl
  | cons line lines ih =>
    obtain ⟨hline, hlines⟩ := List.forall_mem_cons.mp h
    cases lines with
    | nil =>
      have hdrop := dropEscapes_lineChars hb ha hline []
      rw [linesChars_singleton, linesChars_singleton]
      rwa [List.append_nil, show dropEscapes false [] = [] from rfl, List.append_nil] at hdrop
    | cons next lines =>
      have hnext : dropEscapes false ('\n' :: linesChars before after (next :: lines)) =
          '\n' :: linesChars noChars noChars (next :: lines) := congrArg ('\n' :: ·) (ih hlines)
      rw [linesChars_cons_cons, dropEscapes_lineChars hb ha hline, hnext, linesChars_cons_cons]

end Lines

namespace Chain

variable {c : Chain}

/-- The lines of a report: a label and a text. -/
def lines (c : Chain) : List (Label × String) :=
  (.error, c.top) :: c.causes.map fun cause => (.cause, cause)

theorem reportChars_eq (colored : Bool) (c : Chain) : c.reportChars colored =
    ['\n'].intercalate (c.lines.map fun line => line.1.chars colored ++ ' ' :: line.2.toList) := by
  rw [lines, List.map_cons, intercalate_cons, List.map_map, List.flatMap_map]
  rfl

theorem reportChars_false (c : Chain) :
    c.reportChars false = linesChars noChars noChars c.lines := by
  rw [reportChars_eq, linesChars]
  congr! 3 with line
  exact (congrArg (· ++ _) (List.append_nil _)).symm

theorem reportChars_true (c : Chain) :
    c.reportChars true = linesChars Label.turnOn Label.turnOff c.lines :=
  reportChars_eq true c

theorem mem_reportChars {text : String} {ch : Char} (ht : text ∈ c.texts) (hch : ch ∈ text.toList)
    (colored : Bool) : ch ∈ c.reportChars colored := by
  rw [reportChars, List.mem_append, List.mem_append]
  rcases List.mem_cons.mp ht with rfl | ht
  · exact .inl (.inr (List.mem_cons_of_mem _ hch))
  · refine .inr (List.mem_flatMap.mpr ⟨text, ht, ?_⟩)
    exact List.mem_append_right _ (List.mem_cons_of_mem _ hch)

theorem texts_lines (c : Chain) : c.lines.map Prod.snd = c.texts := by
  rw [lines, List.map_cons, List.map_map]
  exact congrArg (c.top :: ·) (List.map_id _)

theorem labels_lines (c : Chain) :
    c.lines.map Prod.fst = .error :: List.replicate c.causes.length .cause := by
  rw [lines, List.map_cons, List.map_map]
  exact congrArg (Label.error :: ·) (List.map_const' ..)

/-- The colors, and only they, are dropped just if no text holds the escape character. -/
theorem dropEscapes_reportChars_iff :
    dropEscapes false (c.reportChars true) = c.reportChars false ↔
      ∀ text ∈ c.texts, '\x1b' ∉ text.toList := by
  constructor
  · intro h text ht he
    have hmem := mem_reportChars ht he false
    rw [← h] at hmem
    exact escape_notMem_dropEscapes false _ hmem
  · intro h
    rw [reportChars_true, reportChars_false]
    refine dropEscapes_linesChars Label.isEscapes_turnOn Label.isEscapes_turnOff fun line hl => ?_
    exact h _ (texts_lines c ▸ List.mem_map_of_mem hl)

end Chain

/--
A report has one line for each text of the chain, labelled as the error or as a cause. With colors
it is the same lines with escape sequences before and behind each label. Without escape sequences it
is the report without colors again, just if no text holds the escape character.
-/
theorem coloring (f : Failure) :
    (f.chain.lines.map Prod.snd = f.chain.texts ∧
      f.chain.lines.map Prod.fst = .error :: List.replicate f.chain.causes.length .cause) ∧
    (Label.error.text = "error:".toList ∧ Label.cause.text = "caused by:".toList) ∧
    (f.report false).toList = linesChars noChars noChars f.chain.lines ∧
    (f.report true).toList = linesChars Label.turnOn Label.turnOff f.chain.lines ∧
    (∀ l : Label, IsEscapes l.turnOn ∧ IsEscapes l.turnOff) ∧
    (withoutEscapes (f.report true) = f.report false ↔
      ∀ text ∈ f.chain.texts, '\x1b' ∉ text.toList) := by
  refine ⟨⟨f.chain.texts_lines, f.chain.labels_lines⟩, ⟨rfl, rfl⟩, ?_, ?_,
    fun l => ⟨l.isEscapes_turnOn, l.isEscapes_turnOff⟩, ?_⟩
  · rw [Failure.report, String.toList_ofList, Chain.reportChars_false]
  · rw [Failure.report, String.toList_ofList, Chain.reportChars_true]
  · rw [withoutEscapes, Failure.report, Failure.report, String.toList_ofList, String.ofList_inj,
      Chain.dropEscapes_reportChars_iff]

/-- Behind an escape character in a text everything goes up to the next `m`, here a line end. -/
example : withoutEscapes ((Failure.context "a\x1b" (.message "mb")).report true) =
    "error: acaused by: mb" := by decide

end TaskRelay
