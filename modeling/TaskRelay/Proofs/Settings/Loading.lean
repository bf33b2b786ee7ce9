import Mathlib
import TaskRelay.Proofs.Settings.Lines
import TaskRelay.Proofs.Settings.Variables
import TaskRelay.Settings.Environment

/-!
# The environment before the file

A .env file gives values to the variables that are not set, each that of its first definition
before the first malformed line. Everything that is read of the file is in its definitions
(`definitions`), which are taken one after the other (`define`).
Main statement: `loadsEnvironment`.
-/

namespace TaskRelay

open Dotenv

namespace Environment

/-! ## Looking up -/

section get?

variable {env : Environment} {name value : List Char} {p : List Char × List Char}

theorem isPrefixOf?_entry {key : List Char} (hn : '=' ∉ name) (hk : '=' ∉ key)
    (value : List Char) :
    (name ++ ['=']).isPrefixOf? (key ++ '=' :: value) =
      if name = key then some value else none := by
  induction name generalizing key with
  | nil =>
    cases key with
    | nil => rfl
    | cons d key =>
      rw [List.mem_cons, not_or] at hk
      simp [List.isPrefixOf?, hk.1]
  | cons c name ih =>
    rw [List.mem_cons, not_or] at hn
    cases key with
    | nil => simp [List.isPrefixOf?, Ne.symm hn.1]
    | cons d key =>
      rw [List.mem_cons, not_or] at hk
      rw [List.cons_append, List.cons_append, List.isPrefixOf?, ih hn.2 hk.2]
      by_cases hcd : c = d <;> simp [hcd]

theorem get?_cons (hn : '=' ∉ name) (hp : '=' ∉ p.1) :
    get? (p :: env) name = if name = p.1 then some p.2 else env.get? name := by
  rw [get?, List.findSome?_cons, isPrefixOf?_entry hn hp]
  by_cases h : name = p.1
  · rw [if_pos h, if_pos h]
  · rw [if_neg h, if_neg h]
    rfl

theorem isSome_get?_cons (h : (env.get? name).isSome) : (get? (p :: env) name).isSome := by
  rw [get?, List.findSome?_cons]
  split
  · rfl
  · exact h

theorem isSome_get?_self (env : Environment) (name value : List Char) :
    (get? ((name, value) :: env) name).isSome := by
  have hprefix : (name ++ ['=']).isPrefixOf? (name ++ '=' :: value) = some value := by
    rw [List.isPrefixOf?_eq_some_iff_append_eq, List.append_assoc]
    rfl
  rw [get?, List.findSome?_cons, hprefix]
  rfl

/-- What is found in an environment is the end of an entry. -/
theorem forall_mem_get? {P : Char → Prop} (henv : ∀ p ∈ env, ∀ c ∈ p.1 ++ '=' :: p.2, P c)
    (h : env.get? name = some value) : ∀ c ∈ value, P c := by
  obtain ⟨p, hp, hprefix⟩ := List.exists_of_findSome?_eq_some h
  rw [List.isPrefixOf?_eq_some_iff_append_eq] at hprefix
  intro c hc
  refine henv p hp c ?_
  rw [← hprefix]
  exact List.mem_append_right _ hc

end get?

/-! ## Definitions -/

/-- What a name stands for: its variable, or nothing. -/
def value (env : Environment) (name : List Char) : List Char := (env.get? name).getD []

/-- Gives a variable a value, unless it has one. -/
def define (env : Environment) (p : List Char × List Char) : Environment :=
  if (env.get? p.1).isSome then env else p :: env

/--
The definitions of the lines before the first malformed one, in their order. Each value is read with
what the names stand for at that point.
-/
def definitions (env : Environment) : List (List Char) → List (List Char × List Char)
  | [] => []
  | line :: lines =>
    match parseLine env.value line with
    | .malformed => []
    | .nothing => definitions env lines
    | .definition name value => (name, value) :: definitions (env.define (name, value)) lines

/-- The environment behind the lines. -/
def loaded (env : Environment) (lines : List (List Char)) : Environment :=
  (env.definitions lines).foldl define env

section definitions

variable {env : Environment} {name v line : List Char} {lines rest : List (List Char)}

theorem loaded_malformed (h : parseLine env.value line = .malformed) :
    env.loaded (line :: lines) = env := by
  rw [loaded, definitions, h]
  rfl

theorem loaded_nothing (h : parseLine env.value line = .nothing) :
    env.loaded (line :: lines) = env.loaded lines := by
  rw [loaded, definitions, h]
  rfl

theorem loaded_definition (h : parseLine env.value line = .definition name v) :
    env.loaded (line :: lines) = (env.define (name, v)).loaded lines := by
  rw [loaded, definitions, h]
  rfl

theorem get?_define {p : List Char × List Char} (hn : '=' ∉ name) (hp : '=' ∉ p.1) :
    (env.define p).get? name = (env.get? name).or (if name = p.1 then some p.2 else none) := by
  rw [define]
  split
  · next hset =>
    by_cases h : name = p.1
    · subst h
      obtain ⟨v, hv⟩ := Option.isSome_iff_exists.mp hset
      rw [hv, Option.some_or]
    · rw [if_neg h, Option.or_none]
  · next hunset =>
    rw [get?_cons hn hp]
    by_cases h : name = p.1
    · subst h
      rw [if_pos rfl, Option.not_isSome_iff_eq_none.mp hunset, Option.none_or, if_pos rfl]
    · rw [if_neg h, if_neg h, Option.or_none]

theorem get?_foldl_define {defs : List (List Char × List Char)} (hn : '=' ∉ name)
    (hd : ∀ p ∈ defs, '=' ∉ p.1) (env : Environment) :
    get? (defs.foldl define env) name = (env.get? name).or (defs.lookup name) := by
  induction defs generalizing env with
  | nil => rw [List.foldl_nil, List.lookup_nil, Option.or_none]
  | cons p defs ih =>
    obtain ⟨hp, hd⟩ := List.forall_mem_cons.mp hd
    rw [List.foldl_cons, ih hd, get?_define hn hp, Option.or_assoc, List.lookup_cons]
    by_cases h : name = p.1
    · simp [h]
    · rw [if_neg h, beq_false_of_ne h, Option.none_or]

/-- What a file defines are names as they stand in its lines. -/
theorem isKey_definitions (env : Environment) (lines : List (List Char)) :
    ∀ p ∈ env.definitions lines, IsKey p.1 := by
  induction lines generalizing env with
  | nil => exact List.forall_mem_nil _
  | cons line lines ih =>
    rcases parseLine_cases line with h | h | ⟨name, hname, h⟩
    · simpa only [definitions, h] using ih env
    · simp only [definitions, h]
      exact List.forall_mem_nil _
    · obtain ⟨v, hv⟩ := h env.value
      simp only [definitions, hv]
      exact List.forall_mem_cons.mpr ⟨hname, ih _⟩

/-- Each name that is set keeps its value, each other name has that of its first definition. -/
theorem get?_loaded (hn : '=' ∉ name) (env : Environment) (lines : List (List Char)) :
    (env.loaded lines).get? name = (env.get? name).or ((env.definitions lines).lookup name) :=
  get?_foldl_define hn
    (fun p hp hc => absurd ((env.isKey_definitions lines p hp).2 _ hc) (by decide)) env

/-! ## Inert lines -/

/-- A malformed line ends the reading. -/
theorem loaded_append_of_malformed (h : ∀ line ∈ rest.head?, IsMalformed line)
    (env : Environment) (lines : List (List Char)) :
    env.loaded (lines ++ rest) = env.loaded lines := by
  induction lines generalizing env with
  | nil =>
    cases rest with
    | nil => rfl
    | cons line rest => exact loaded_malformed ((h line rfl).parseLine_eq _)
  | cons line lines ih =>
    rw [List.cons_append]
    cases hline : parseLine env.value line with
    | malformed => rw [loaded_malformed hline, loaded_malformed hline]
    | nothing => rw [loaded_nothing hline, loaded_nothing hline, ih]
    | definition name v => rw [loaded_definition hline, loaded_definition hline, ih]

theorem define_of_isSome {p : List Char × List Char} (h : (env.get? p.1).isSome) :
    env.define p = env := if_pos h

theorem isSome_get?_define {p : List Char × List Char} (h : (env.get? name).isSome ∨ name = p.1) :
    ((env.define p).get? name).isSome := by
  rw [define]
  split
  · next hset => exact h.elim id fun heq => heq ▸ hset
  · rcases h with h | rfl
    · exact isSome_get?_cons h
    · exact isSome_get?_self env p.1 p.2

/-- A definition of a name that has a value by then changes nothing, nor any line below it. -/
theorem loaded_redundant (hline : Defines line name) (env : Environment)
    (h : (env.get? name).isSome ∨ name ∈ (env.definitions lines).map Prod.fst) :
    env.loaded (lines ++ line :: rest) = env.loaded (lines ++ rest) := by
  induction lines generalizing env with
  | nil =>
    obtain ⟨v, hv⟩ := hline.isKey_and_exists_eq.2 env.value
    have hset : (env.get? name).isSome := h.resolve_right List.not_mem_nil
    rw [List.nil_append, List.nil_append, loaded_definition hv, define_of_isSome hset]
  | cons line' lines ih =>
    rw [List.cons_append, List.cons_append]
    cases hline' : parseLine env.value line' with
    | malformed => rw [loaded_malformed hline', loaded_malformed hline']
    | nothing =>
      rw [definitions, hline'] at h
      rw [loaded_nothing hline', loaded_nothing hline', ih env h]
    | definition name' v =>
      rw [definitions, hline', List.map_cons, List.mem_cons, ← or_assoc] at h
      rw [loaded_definition hline', loaded_definition hline', ih _ (h.imp_left isSome_get?_define)]

end definitions

/-! ## The lines of a file -/

section addLines?

variable {env known : Environment} {ls : List (List Char)} {fuel : Nat}
variable {name v text : List Char}

theorem settable_iff : settable name v ↔
    name ≠ [] ∧ '=' ∉ name ∧ '\x00' ∉ name ∧ '\x00' ∉ v := by
  simp [settable, and_assoc]

/-- All variables are such as an environment can hold. -/
def IsHeld (env : Environment) : Prop := ∀ p ∈ env, settable p.1 p.2

/-- No name stands for a text with a zero character. -/
theorem IsHeld.not_mem_value (h : env.IsHeld) (name : List Char) :
    ∀ c ∈ env.value name, c ≠ '\x00' := by
  rw [value]
  cases hget : env.get? name with
  | none => exact List.forall_mem_nil _
  | some v =>
    refine forall_mem_get? (fun p hp c hc => ?_) hget
    obtain ⟨-, -, hname, hvalue⟩ := settable_iff.mp (h p hp)
    rintro rfl
    rcases List.mem_append.mp hc with hc | hc
    · exact hname hc
    · rcases List.mem_cons.mp hc with hc | hc
      · cases hc
      · exact hvalue hc

/-- What a line defines can be set. -/
theorem IsHeld.settable (h : env.IsHeld) (ht : '\x00' ∉ text)
    (hline : parseLine env.value text = .definition name v) : settable name v := by
  have hvalue : ∀ c ∈ v, c ≠ '\x00' :=
    forall_mem_parseLine hline (fun c hc => by rintro rfl; exact ht hc) (by decide) h.not_mem_value
  obtain ⟨hne, hkey⟩ := (Defines.isKey_and_exists_eq ⟨_, _, hline⟩).1
  exact settable_iff.mpr ⟨hne, fun hc => absurd (hkey _ hc) (by decide),
    fun hc => absurd (hkey _ hc) (by decide), fun hc => hvalue _ hc rfl⟩

/-- If all that was defined is set, only what is set has a meaning. -/
theorem meaning_eq (h : ∀ p ∈ known, (env.get? p.1).isSome) : env.meaning known = env.value := by
  funext name
  rw [meaning, value]
  cases hget : env.get? name with
  | some v => rfl
  | none =>
    have hlookup : known.lookup name = none := by
      rw [List.lookup_eq_none_iff]
      refine fun p hp => bne_iff_ne.mpr ?_
      rintro rfl
      have hset := h p hp
      rw [hget] at hset
      cases hset
    rw [defined?, hlookup]

/-- The file is read to its end or to its first malformed line, and nothing in it cannot be set. -/
theorem addLines?_eq (henv : env.IsHeld) (hls : ∀ l ∈ (readLines ls).1, '\x00' ∉ l)
    (hknown : ∀ p ∈ known, (env.get? p.1).isSome) (hf : ls.length < fuel) :
    addLines? env known fuel ls = some (env.loaded (readLines ls).1) := by
  induction fuel generalizing env known ls with
  | zero => exact absurd hf (Nat.not_lt_zero _)
  | succ fuel ih =>
    rw [addLines?, meaning_eq hknown]
    cases hnext : nextLine [] .complete ls with
    | done => rw [readLines_done hnext]; rfl
    | unfinished => rw [readLines_unfinished hnext]; rfl
    | line text rest =>
      obtain ⟨⟨more, rfl, hne⟩, -, -⟩ := nextLine_line hnext
      have hf' : rest.length < fuel := by
        have := List.length_pos_of_ne_nil hne
        rw [List.length_append] at hf
        omega
      rw [readLines_line hnext] at hls ⊢
      obtain ⟨ht, hls⟩ := List.forall_mem_cons.mp hls
      dsimp only
      cases hline : parseLine env.value text with
      | malformed => rw [loaded_malformed hline]
      | nothing =>
        rw [loaded_nothing hline]
        exact ih henv hls hknown hf'
      | definition name v =>
        have hset := henv.settable ht hline
        have hknown' : ∀ env' : Environment, (∀ n, (env.get? n).isSome → (env'.get? n).isSome) →
            (env'.get? name).isSome → ∀ p ∈ (name, v) :: known, (env'.get? p.1).isSome :=
          fun env' hkeep hself =>
            List.forall_mem_cons.mpr ⟨hself, fun p hp => hkeep _ (hknown p hp)⟩
        rw [loaded_definition hline, define]
        dsimp only
        by_cases hold : (env.get? name).isSome
        · rw [if_pos hold, if_pos hold]
          exact ih henv hls (hknown' env (fun _ => id) hold) hf'
        · rw [if_neg hold, if_neg hold, if_pos hset]
          exact ih (List.forall_mem_cons.mpr ⟨hset, henv⟩) hls
            (hknown' _ (fun _ => isSome_get?_cons) (isSome_get?_self env name v)) hf'

theorem mem_of_mem_withoutMark {c : Char} (h : c ∈ withoutMark text) : c ∈ text := by
  cases text with
  | nil => cases h
  | cons d cs =>
    rw [withoutMark] at h
    split at h
    · exact List.mem_cons_of_mem _ h
    · exact h

theorem addFile?_eq (henv : env.IsHeld) (ht : '\x00' ∉ withoutMark text) :
    env.addFile? text = some (env.loaded (linesOf (withoutMark text))) :=
  addLines?_eq henv (fun _ hl hc => ht (mem_of_mem_linesOf hl _ hc)) (List.forall_mem_nil _)
    (Nat.lt_succ_self _)

end addLines?

end Environment

/-! ## Settings -/

namespace Settings

open Environment

variable {p : Processors} {env : Environment} {text text' : List Char}

theorem ofEnvironment?_eq (henv : env.IsHeld) (ht : '\x00' ∉ withoutMark text) :
    ofEnvironment? p env (some text) =
      some (ofVariables p (env.loaded (linesOf (withoutMark text)))) := by
  rw [ofEnvironment?, addFile?_eq henv ht]
  rfl

/-- The settings depend on the variables only, whose names have no equals signs. -/
theorem ofVariables_eq {lookup : List Char → Option (List Char)}
    (h : ∀ name, '=' ∉ name → env.get? name = lookup name) :
    ofVariables p env = ofLookup p fun name => (lookup name.toList).map String.ofList := by
  have hfields : ∀ f : Field, (env.get? f.variableName.toList).map String.ofList =
      (lookup f.variableName.toList).map String.ofList := by
    intro f
    rw [h]
    cases f <;> decide
  have hcongr : lookupAssignment (fun name => (env.get? name.toList).map String.ofList) =
      lookupAssignment fun name => (lookup name.toList).map String.ofList :=
    lookupAssignment_congr hfields
  rw [ofVariables, ofLookup.eq_def, ofLookup.eq_def, hcongr]

/--
A .env file adds its definitions to the environment, without errors of its own. What is set keeps
its value; every other name has the value of its first definition before the first malformed line.
From that line on, also if it has a quote that nothing closes, the file might as well end. A
definition of a name that has a value by then might as well be missing, whatever refers to the name
below it.
-/
theorem loadsEnvironment (henv : env.IsHeld) (htext : '\x00' ∉ text) :
    ofEnvironment? p env none = some (ofVariables p env) ∧
    (ofEnvironment? p env (some text) = some (ofLookup p fun name =>
      ((env.get? name.toList).or ((env.definitions (linesOf (withoutMark text))).lookup
        name.toList)).map String.ofList)) ∧
    (∀ before after text', withoutMark text = before ++ after → IsWhole before →
      (∀ line ∈ (linesOf after).head?, IsMalformed line) → withoutMark text' = before →
      ofEnvironment? p env (some text') = ofEnvironment? p env (some text)) ∧
    (∀ before name quote body text',
      withoutMark text = before ++ (name ++ '=' :: quote :: body) → IsWhole before →
      IsKey name → (quote = '"' ∨ quote = '\'') → quote ∉ body →
      withoutMark text' = before →
      ofEnvironment? p env (some text') = ofEnvironment? p env (some text)) ∧
    ∀ before line after name text', withoutMark text = before ++ (line ++ after) →
      IsWhole before → IsWhole line ∨ after = [] → (∃ l, linesOf line = [l] ∧ Defines l name) →
      (env.get? name).isSome ∨ name ∈ (env.definitions (linesOf before)).map Prod.fst →
      withoutMark text' = before ++ after →
      ofEnvironment? p env (some text') = ofEnvironment? p env (some text) := by
  have ht : '\x00' ∉ withoutMark text := fun h => htext (mem_of_mem_withoutMark h)
  have hcut : ∀ before after text', withoutMark text = before ++ after → IsWhole before →
      (∀ line ∈ (linesOf after).head?, IsMalformed line) → withoutMark text' = before →
      ofEnvironment? p env (some text') = ofEnvironment? p env (some text) := by
    intro before after text' hsplit hwhole hmal hsame
    have ht' : '\x00' ∉ withoutMark text' := by
      intro h
      rw [hsplit, ← hsame] at ht
      exact ht (List.mem_append_left _ h)
    rw [ofEnvironment?_eq henv ht, ofEnvironment?_eq henv ht', hsplit, hsame,
      linesOf_append hwhole, loaded_append_of_malformed hmal]
  refine ⟨rfl, ?_, hcut, ?_, ?_⟩
  · rw [ofEnvironment?_eq henv ht, ofVariables_eq fun name hn => get?_loaded hn env _]
  · intro before name quote body text' hsplit hwhole hname hquote hbody hsame
    refine hcut before _ text' hsplit hwhole ?_ hsame
    rw [linesOf_unclosed hname hquote hbody]
    exact nofun
  · rintro before line after name text' hsplit hwhole hline ⟨l, hl, hdefines⟩ hset hsame
    have ht' : '\x00' ∉ withoutMark text' := by
      intro h
      rw [hsame, List.mem_append] at h
      rw [hsplit] at ht
      exact ht (List.mem_append.mpr (h.imp_right (List.mem_append_right _)))
    have hlines : linesOf (line ++ after) = l :: linesOf after := by
      rcases hline with hline | rfl
      · rw [linesOf_append hline, hl]
        rfl
      · rw [List.append_nil, hl, linesOf_nil]
    rw [ofEnvironment?_eq henv ht, ofEnvironment?_eq henv ht', hsplit, hsame,
      linesOf_append hwhole, linesOf_append hwhole, hlines, loaded_redundant hdefines env hset]

theorem loadsEnvironment_contained :
    ofEnvironment? .one [("BRIDGE_COLOR".toList, "true".toList)]
        (some "N=3\nN=4\nBRIDGE_WORKER_THREADS=$N\n".toList) =
      some (.ok { default .one with workerThreads := 3, color := true }) ∧
    ofEnvironment? .one [("BRIDGE_COLOR".toList, "true".toList)]
        (some "N=3\nBRIDGE_WORKER_THREADS=$N\n!\nBRIDGE_LOCAL_POOL=x\n".toList) =
      some (.ok { default .one with workerThreads := 3, color := true }) ∧
    ofEnvironment? .one [("BRIDGE_COLOR".toList, "true".toList)]
        (some "N=3\nBRIDGE_WORKER_THREADS=$N\nM='\nBRIDGE_LOCAL_POOL=x\n".toList) =
      some (.ok { default .one with workerThreads := 3, color := true }) := by
  have hbase : ofEnvironment? .one [("BRIDGE_COLOR".toList, "true".toList)]
        (some "N=3\nBRIDGE_WORKER_THREADS=$N\n".toList) =
      some (.ok { default .one with workerThreads := 3, color := true }) := by decide +kernel
  have henv : IsHeld [("BRIDGE_COLOR".toList, "true".toList)] :=
    List.forall_mem_singleton.mpr (by decide)
  have hthree := @linesOf_line "N=3\n".toList "N=3".toList rfl
  have hfour := @linesOf_line "N=4\n".toList "N=4".toList rfl
  have hbang := @linesOf_line "!\n".toList "!".toList rfl
  have hwork := @linesOf_line "BRIDGE_WORKER_THREADS=$N\n".toList
    "BRIDGE_WORKER_THREADS=$N".toList rfl
  have hwhole : IsWhole "N=3\nBRIDGE_WORKER_THREADS=$N\n".toList :=
    (hthree.2 (by decide)).append (hwork.2 (by decide))
  refine ⟨?_, ?_, ?_⟩ <;> rw [← hbase]
  · obtain ⟨-, -, -, -, hinert⟩ := @loadsEnvironment .one _
      "N=3\nN=4\nBRIDGE_WORKER_THREADS=$N\n".toList henv (by decide)
    exact (hinert "N=3\n".toList "N=4\n".toList "BRIDGE_WORKER_THREADS=$N\n".toList "N".toList
      "N=3\nBRIDGE_WORKER_THREADS=$N\n".toList rfl (hthree.2 (by decide))
      (.inl (hfour.2 (by decide)))
      ⟨_, hfour.1, fun _ => [], "4".toList, rfl⟩ (.inr (by rw [hthree.1]; decide)) rfl).symm
  · obtain ⟨-, -, hcut, -, -⟩ := @loadsEnvironment .one _
      "N=3\nBRIDGE_WORKER_THREADS=$N\n!\nBRIDGE_LOCAL_POOL=x\n".toList henv (by decide)
    refine (hcut _ ("!\n".toList ++ "BRIDGE_LOCAL_POOL=x\n".toList) _ rfl hwhole ?_ rfl).symm
    rw [linesOf_append (hbang.2 (by decide)), hbang.1]
    rintro _ ⟨⟩
    exact ⟨fun _ => [], rfl⟩
  · obtain ⟨-, -, -, hopen, -⟩ := @loadsEnvironment .one _
      "N=3\nBRIDGE_WORKER_THREADS=$N\nM='\nBRIDGE_LOCAL_POOL=x\n".toList henv (by decide)
    exact (hopen _ "M".toList '\'' "\nBRIDGE_LOCAL_POOL=x\n".toList _ rfl hwhole
      ⟨by decide, List.forall_mem_singleton.mpr rfl⟩ (.inr rfl) (by decide) rfl).symm

end Settings

end TaskRelay
