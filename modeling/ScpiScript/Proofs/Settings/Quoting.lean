import ScpiScript.Proofs.Block.Parameter
import ScpiScript.Proofs.Settings.Loading
/-!
# Quoted values

A value between double quotes, with a backslash in front of every quote and backslash of its
own, is set as it is, whatever else it holds. Blanks, equals signs, semicolons and an empty
value are no exceptions.

- `escaped` writes a value between quotes, and `wordsFrom_escaped` reads it.
- `quotedLine` is the line that gives a name a quoted value.
- `ConsistsOf` says of which lines a text consists, the end of its last line left open.
- `load_quoted` says what a text of such lines sets.
-/

namespace ScpiScript.Settings

open Text Block

/-! ## Writing a value -/

/-- A character between quotes. -/
def escapedChar (c : Char) : List Char := if c = '"' ∨ c = '\\' then ['\\', c] else [c]

/-- A value between quotes, the quotes left out. -/
def escaped (value : List Char) : List Char := value.flatMap escapedChar

/-- A name with a quoted value. -/
def quotedAssignment (name value : String) : List Char :=
  (name.toList ++ ['=']) ++ '"' :: (escaped value.toList ++ ['"'])

/-- The line that gives a name a quoted value. -/
def quotedLine (name value : String) : List Char :=
  "/set".toList ++ ' ' :: quotedAssignment name value

/-- A text consists of lines. Behind the last of them a line feed may stand or not. -/
def ConsistsOf (text : String) (lines : List (List Char)) : Prop :=
  text.toList = ['\n'].intercalate lines ∨ text.toList = lines.flatMap (· ++ ['\n'])

/-- A name that a quoted value can be given to, and that configures nothing. -/
structure IsVariableName (name : String) : Prop where
  ne_nil : name.toList ≠ []
  notBlank : ∀ c ∈ name.toList, isBlank c = false
  noEquals : '=' ∉ name.toList
  noQuote : '"' ∉ name.toList
  unknown : name ∉ knownNames

theorem isVariableName_iff (name : String) :
    IsVariableName name ↔ name.toList ≠ [] ∧ name.toList.all (!isBlank ·) = true ∧
      '=' ∉ name.toList ∧ '"' ∉ name.toList ∧ name ∉ knownNames := by
  simp only [List.all_eq_true, Bool.not_eq_true']
  exact ⟨fun ⟨h₁, h₂, h₃, h₄, h₅⟩ => ⟨h₁, h₂, h₃, h₄, h₅⟩,
    fun ⟨h₁, h₂, h₃, h₄, h₅⟩ => ⟨h₁, h₂, h₃, h₄, h₅⟩⟩

instance (name : String) : Decidable (IsVariableName name) :=
  decidable_of_iff _ (isVariableName_iff name).symm

/-! ## Reading it -/

section Words

variable {value current front : List Char}

theorem wordsFrom_escapedChar (current : List Char) (c : Char) (rest : List Char) :
    wordsFrom true current (escapedChar c ++ rest) = wordsFrom true (current ++ [c]) rest := by
  unfold escapedChar
  split
  · rfl
  · rename_i h
    rw [not_or] at h
    rw [List.singleton_append, wordsFrom, if_neg h.1]
    -- a backslash has cases of its own
    · exact fun _ _ hc _ => h.2 hc
    · exact fun hc _ => h.2 hc

/-- Between quotes, an escaped value is read as the value itself. -/
theorem wordsFrom_escaped (value current rest : List Char) :
    wordsFrom true current (escaped value ++ '"' :: rest) =
      wordsFrom false (current ++ value) rest := by
  induction value generalizing current with
  | nil =>
    rw [List.append_nil]
    rfl
  | cons c value ih =>
    rw [escaped, List.flatMap_cons, List.append_assoc, wordsFrom_escapedChar, ← escaped, ih,
      List.append_assoc, List.singleton_append]

/-- Outside quotes, what holds no quote and no ASCII blank is read as it stands. -/
theorem wordsFrom_plain (hquote : '"' ∉ front) (hblank : ∀ c ∈ front, isAsciiBlank c = false)
    (current rest : List Char) :
    wordsFrom false current (front ++ rest) = wordsFrom false (current ++ front) rest := by
  induction front generalizing current with
  | nil => rw [List.append_nil, List.nil_append]
  | cons c front ih =>
    rw [List.mem_cons, not_or] at hquote
    rw [List.forall_mem_cons] at hblank
    rw [List.cons_append, wordsFrom, if_neg (Ne.symm hquote.1), hblank.1, if_neg Bool.false_ne_true,
      ih hquote.2 hblank.2, List.append_assoc, List.singleton_append]

end Words

section Line

variable {name value : String}

theorem splitWords_quotedAssignment (h : IsVariableName name) (value : String) :
    splitWords (quotedAssignment name value) = [name.toList ++ '=' :: value.toList] := by
  have hquote : '"' ∉ name.toList ++ ['='] := by
    simp [h.noQuote]
  have hblank : ∀ c ∈ name.toList ++ ['='], isAsciiBlank c = false := by
    intro c hc
    rcases List.mem_append.mp hc with hname | hequals
    · have hnot := h.notBlank c hname
      rw [← Bool.not_eq_true] at hnot ⊢
      exact mt isBlank_of_isAsciiBlank hnot
    · rw [List.mem_singleton.mp hequals]
      decide
  rw [splitWords, quotedAssignment, wordsFrom_plain hquote hblank, wordsFrom, if_pos rfl,
    wordsFrom_escaped, wordsFrom]
  simp [wordOf]

/-- A single word is cut at its first equals sign. -/
theorem nameAndValue_of_cut {word front back : List Char} (h : CutAt '=' word front back)
    (hne : front ≠ []) :
    nameAndValue [word] = .ok (String.ofList front, String.ofList back) := by
  simp only [nameAndValue, h.takeWhile_eq, h.dropWhile_eq]
  rw [if_neg (by simpa using hne)]
  rfl

/-- Whatever stands in front of it, a quoted value ends in a quote, which is no blank. -/
theorem isBlank_getLast?_quotedAssignment (front : List Char) (name value : String) :
    ∀ c ∈ (front ++ quotedAssignment name value).getLast?, isBlank c = false := by
  intro c hc
  have hquote : front ++ quotedAssignment name value =
      (front ++ ((name.toList ++ ['=']) ++ '"' :: escaped value.toList)) ++ ['"'] := by
    simp [quotedAssignment]
  rw [hquote, List.getLast?_concat] at hc
  obtain rfl := Option.some.inj hc
  decide

theorem trimChars_quotedAssignment (h : IsVariableName name) (value : String) :
    trimChars (quotedAssignment name value) = quotedAssignment name value := by
  refine trimChars_eq_self ?_ (isBlank_getLast?_quotedAssignment [] name value)
  intro c hc
  obtain ⟨first, rest, hname⟩ := List.exists_cons_of_ne_nil h.ne_nil
  rw [quotedAssignment, hname] at hc
  obtain rfl := Option.some.inj hc
  exact h.notBlank first (hname ▸ List.mem_cons_self)

theorem trimChars_quotedLine (name value : String) :
    trimChars (quotedLine name value) = quotedLine name value := by
  have hline : quotedLine name value =
      ("/set".toList ++ [' ']) ++ quotedAssignment name value := by
    simp [quotedLine]
  refine trimChars_eq_self ?_ ?_
  · intro c hc
    obtain rfl := Option.some.inj hc
    decide
  · rw [hline]
    exact isBlank_getLast?_quotedAssignment _ name value

theorem argument?_quotedLine (h : IsVariableName name) (value : String) :
    argument? (quotedLine name value) = some (quotedAssignment name value) := by
  have hspace : isBlank ' ' = true := by decide
  rw [argument?_of_command (trimChars_quotedLine name value) (by simp [isAsciiBlank]),
    trimChars_cons_of_isBlank hspace, trimChars_quotedAssignment h]

/-- The line gives the name its value. -/
theorem applyLine_quotedLine (h : IsVariableName name) (s : Settings) (value : String) :
    s.applyLine (quotedLine name value) =
      .ok { s with vars := s.vars.set name (.text value) } := by
  have hwords : nameAndValue [name.toList ++ '=' :: value.toList] = .ok (name, value) := by
    rw [nameAndValue_of_cut ⟨rfl, h.noEquals⟩ h.ne_nil, String.ofList_toList, String.ofList_toList]
  simp only [applyLine, argument?_quotedLine h, splitWords_quotedAssignment h, hwords]
  exact apply_variable h.unknown s value

end Line

/-! ## Texts of such lines -/

section Load

/-- An empty last line does nothing. -/
theorem loadLines_concat_nil (s : Settings) (number : Nat) (lines : List (List Char)) :
    loadLines s number (lines ++ [[]]) = loadLines s number lines := by
  induction lines generalizing s number with
  | nil => rfl
  | cons line lines ih =>
    rw [List.cons_append, loadLines, loadLines]
    split <;> simp only [ih]

theorem splitOn_flatMap_closed {lines : List (List Char)} (h : ∀ line ∈ lines, '\n' ∉ line) :
    (lines.flatMap (· ++ ['\n'])).splitOn '\n' = lines ++ [[]] := by
  induction lines with
  | nil => rfl
  | cons line lines ih =>
    rw [List.forall_mem_cons] at h
    rw [List.flatMap_cons, List.append_assoc, List.singleton_append,
      List.splitOn_append_cons_self_of_not_mem h.1, ih h.2, List.cons_append]

/-- A text is loaded line by line, with an end behind its last line or without. -/
theorem load_of_consistsOf {text : String} {lines : List (List Char)} (h : ConsistsOf text lines)
    (hclean : ∀ line ∈ lines, '\n' ∉ line) : load text = loadLines default 1 lines := by
  rw [load]
  rcases h with hopen | hclosed
  · rw [hopen]
    rcases lines with _ | ⟨line, lines⟩
    · exact loadLines_concat_nil default 1 []
    · rw [List.splitOn_intercalate '\n' hclean (List.cons_ne_nil line lines)]
  · rw [hclosed, splitOn_flatMap_closed hclean, loadLines_concat_nil]

/-- A store after names were bound to texts, in their order. -/
def bindTexts (vars : Store) (pairs : List (String × String)) : Store :=
  pairs.foldl (fun vars pair => vars.set pair.1 (.text pair.2)) vars

theorem get?_bindTexts (vars : Store) (pairs : List (String × String)) (name : String) :
    (bindTexts vars pairs).get? name =
      ((pairs.reverse.lookup name).map ScopeValue.text).or (vars.get? name) := by
  induction pairs generalizing vars with
  | nil => rfl
  | cons pair pairs ih =>
    obtain ⟨key, text⟩ := pair
    rw [bindTexts, List.foldl_cons, ← bindTexts, ih, Store.get?_set, List.reverse_cons,
      List.lookup_append, List.lookup_singleton]
    rcases pairs.reverse.lookup name with _ | value
    · by_cases hname : name = key <;> simp [hname]
    · rfl

theorem loadLines_quoted {pairs : List (String × String)}
    (hnames : ∀ p ∈ pairs, IsVariableName p.1) (s : Settings) (number : Nat) :
    loadLines s number (pairs.map fun p => quotedLine p.1 p.2) =
      ({ s with vars := bindTexts s.vars pairs }, []) := by
  induction pairs generalizing s number with
  | nil => rfl
  | cons pair pairs ih =>
    rw [List.forall_mem_cons] at hnames
    rw [List.map_cons, loadLines, applyLine_quotedLine hnames.1]
    exact ih hnames.2 _ _

theorem notMem_quotedLine {name value : String} (hname : IsVariableName name)
    (hvalue : '\n' ∉ value.toList) : '\n' ∉ quotedLine name value := by
  have hnot : '\n' ∉ name.toList := fun hmem => by
    have hblank := hname.notBlank '\n' hmem
    revert hblank
    decide
  have hescaped : '\n' ∉ escaped value.toList := by
    intro hmem
    obtain ⟨c, hc, hchar⟩ := List.mem_flatMap.mp hmem
    unfold escapedChar at hchar
    split at hchar
    · rename_i hspecial
      rcases hspecial with rfl | rfl <;> revert hchar <;> decide
    · obtain rfl := List.mem_singleton.mp hchar
      exact hvalue hc
  simp [quotedLine, quotedAssignment, hnot, hescaped]

/-- A text with one line for each of a list of names and values, the value between quotes, is
loaded without a failure and configures nothing. The names that it defines are those of the
list, and each stands for the text that is its last value there, as it is. -/
theorem load_quoted {pairs : List (String × String)} {text : String}
    (hnames : ∀ p ∈ pairs, IsVariableName p.1) (hvalues : ∀ p ∈ pairs, '\n' ∉ p.2.toList)
    (htext : ConsistsOf text (pairs.map fun p => quotedLine p.1 p.2)) :
    ∃ vars, load text = ({ Settings.default with vars := vars }, []) ∧
      ∀ name, vars.get? name = (pairs.reverse.lookup name).map ScopeValue.text := by
  have hclean : ∀ line ∈ pairs.map fun p => quotedLine p.1 p.2, '\n' ∉ line := by
    intro line hline
    obtain ⟨pair, hpair, rfl⟩ := List.mem_map.mp hline
    exact notMem_quotedLine (hnames pair hpair) (hvalues pair hpair)
  refine ⟨bindTexts Store.empty pairs, ?_, fun name => ?_⟩
  · rw [load_of_consistsOf htext hclean, loadLines_quoted hnames]
    rfl
  · rw [get?_bindTexts]
    exact Option.or_none

/-- Settings of a bench: a name that is set twice, first to nothing, and a value with quotes,
a backslash, a semicolon and a run of blanks. -/
def benchSettings : List (String × String) :=
  [("ch", ""), ("label", "a = \"b\\c\";  d "), ("ch", "2")]

/-- The same as a text. -/
def benchText : String :=
  "/set ch=\"\"\n/set label=\"a = \\\"b\\\\c\\\";  d \"\n/set ch=\"2\"\n"

theorem load_quoted_bench :
    (∀ p ∈ benchSettings, IsVariableName p.1) ∧ (∀ p ∈ benchSettings, '\n' ∉ p.2.toList) ∧
      ConsistsOf benchText (benchSettings.map fun p => quotedLine p.1 p.2) ∧
      ∃ vars, load benchText = ({ Settings.default with vars := vars }, []) ∧
        vars.get? "ch" = some (.text "2") ∧
        vars.get? "label" = some (.text "a = \"b\\c\";  d ") ∧ vars.get? "srate" = none := by
  have hnames : ∀ p ∈ benchSettings, IsVariableName p.1 := by decide
  have hvalues : ∀ p ∈ benchSettings, '\n' ∉ p.2.toList := by decide
  have htext : ConsistsOf benchText (benchSettings.map fun p => quotedLine p.1 p.2) :=
    .inr (by decide)
  obtain ⟨vars, hload, hvars⟩ := load_quoted hnames hvalues htext
  exact ⟨hnames, hvalues, htext, vars, hload, hvars "ch", hvars "label", hvars "srate"⟩

end Load

end ScpiScript.Settings
