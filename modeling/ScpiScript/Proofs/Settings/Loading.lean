import Mathlib.Data.List.Basic
import ScpiScript.Proofs.Outcome
import ScpiScript.Settings.Basic
/-!
# What each line of a settings file decides

A line of a settings file fails or not by itself, whatever was set before it, and a line that
fails sets nothing. So the settings of a text are those of its good `/set` lines alone, and
what a name holds at the end is decided by the last good line that sets it.

- `Settings.get` is what is held under a name, `Held.ofValue` what a value stands for there.
- `IsSetCommand`, `SetsTo` and `Fails` are what can be said of one line.
- `loadLines_eq` splits a run over lines: the settings by a fold, the failures by the lines.
- `withoutIdleLines` is a text with its other lines made empty.
- `failures_isolated` is all of it together.
-/

namespace ScpiScript.Settings

open Text

/-! ## Setting one name -/

/-- What settings hold under one name. -/
inductive Held
  | timeout (ms : Nat)
  | address (address : Option String)
  | modulePath (directories : List String)
  | vector (name : Option String)
  | byteOrder (order : Block.ByteOrder)
  | variable (value : Option ScopeValue)
  deriving DecidableEq

/-- What settings hold under a name: what it configures, or the variable of that name. -/
def get (s : Settings) (name : String) : Held :=
  match name with
  | "timeout_ms" => .timeout s.timeout
  | "address" => .address s.address
  | "lua_path" => .modulePath s.modulePath
  | "vector" => .vector s.vector
  | "byte_order" => .byteOrder s.byteOrder
  | _ => .variable (s.vars.get? name)

/-- What a value stands for under a name, if it is one that the name takes. -/
def Held.ofValue (name value : String) : Except SettingError Held :=
  match name with
  | "timeout_ms" =>
    match Decimal.readUpTo? maxTimeout value.toList with
    | some ms => .ok (.timeout ms)
    | none => .error (.badTimeout value)
  | "address" => .ok (.address (nonEmpty? value))
  | "lua_path" =>
    .ok (.modulePath (((value.toList.splitOn ';').filter (!·.isEmpty)).map String.ofList))
  | "vector" => .ok (.vector (nonEmpty? value))
  | "byte_order" =>
    match Block.ByteOrder.ofText? value with
    | some order => .ok (.byteOrder order)
    | none => .error (.badByteOrder value)
  | _ => .ok (.variable (some (.text value)))

/-- The names that configure the program. -/
def knownNames : List String := ["timeout_ms", "address", "lua_path", "vector", "byte_order"]

section Names

variable {name other : String} {s t : Settings}

theorem get_variable (h : name ∉ knownNames) (s : Settings) :
    s.get name = .variable (s.vars.get? name) := by
  unfold get
  split <;> first | rfl | simp [knownNames] at h

theorem ofValue_variable (h : name ∉ knownNames) (value : String) :
    Held.ofValue name value = .ok (.variable (some (.text value))) := by
  unfold Held.ofValue
  split <;> first | rfl | simp [knownNames] at h

theorem apply_variable (h : name ∉ knownNames) (s : Settings) (value : String) :
    s.apply name value = .ok { s with vars := s.vars.set name (.text value) } := by
  unfold apply
  split <;> first | rfl | simp [knownNames] at h

/-- A name holds what its value stands for, and a value that stands for nothing is refused. -/
theorem map_get_apply (s : Settings) (name value : String) :
    (s.apply name value).map (fun t => t.get name) = Held.ofValue name value := by
  by_cases h : name ∈ knownNames
  · simp only [knownNames, List.mem_cons, List.not_mem_nil, or_false] at h
    rcases h with rfl | rfl | rfl | rfl | rfl
    · simp only [apply, Held.ofValue]
      cases Decimal.readUpTo? maxTimeout value.toList <;> rfl
    · rfl
    · rfl
    · rfl
    · simp only [apply, Held.ofValue]
      cases Block.ByteOrder.ofText? value <;> rfl
  · rw [apply_variable h, ofValue_variable h]
    show Except.ok (get _ name) = _
    rw [get_variable h, Store.get?_set, if_pos rfl]

/-- Nothing is set under another name. -/
theorem get_of_apply {value : String} (h : s.apply name value = .ok t) (hne : other ≠ name) :
    t.get other = s.get other := by
  unfold apply at h
  repeat' split at h
  all_goals cases h
  all_goals
    unfold get
    split <;> first | rfl | contradiction | simp [Store.get?_set, hne]

end Names

/-! ## One line -/

/-- A line that is a `/set` command, with an argument behind a blank or with none. -/
def IsSetCommand (line : List Char) : Prop :=
  ∃ rest, trimChars line = "/set".toList ++ rest ∧ ∀ c ∈ rest.head?, isAsciiBlank c = true

/-- A line that is read as giving a name a value. -/
def SetsTo (line : List Char) (name value : String) : Prop :=
  ∃ argument, argument? line = some argument ∧
    nameAndValue (splitWords argument) = .ok (name, value)

/-- Why a line fails, if it does. -/
def cause? (line : List Char) : Option SettingError := errorOf? (default.applyLine line)

/-- The settings after a line, failed or not. -/
def afterLine (s : Settings) (line : List Char) : Settings :=
  match s.applyLine line with
  | .ok t => t
  | .error _ => s

section Line

variable {line : List Char} {s : Settings}

theorem argument?_of_command {rest : List Char} (h : trimChars line = "/set".toList ++ rest)
    (hrest : ∀ c ∈ rest.head?, isAsciiBlank c = true) :
    argument? line = some (trimChars rest) := by
  have hname : ∀ c ∈ "set".toList, (!isAsciiBlank c) = true := List.all_eq_true.mp (by decide)
  have hstop : rest.takeWhile (!isAsciiBlank ·) = [] ∧
      rest.dropWhile (!isAsciiBlank ·) = rest := by
    cases rest with
    | nil => exact ⟨rfl, rfl⟩
    | cons c rest => simp [hrest c rfl]
  have hline : trimChars line = '/' :: ("set".toList ++ rest) := h
  simp only [argument?, hline]
  rw [List.takeWhile_append_of_pos hname, List.dropWhile_append_of_pos hname, hstop.1, hstop.2,
    List.append_nil, if_pos rfl]

theorem isSetCommand_iff : IsSetCommand line ↔ (argument? line).isSome := by
  constructor
  · rintro ⟨rest, h, hrest⟩
    rw [argument?_of_command h hrest]
    rfl
  · intro h
    unfold argument? at h
    split at h
    · rename_i rest hline
      split at h
      · rename_i hname
        have hrest : rest = "set".toList ++ rest.dropWhile (!isAsciiBlank ·) := by
          rw [← hname, List.takeWhile_append_dropWhile]
        refine ⟨rest.dropWhile (!isAsciiBlank ·), hline.trans (congrArg ('/' :: ·) hrest), ?_⟩
        intro c hc
        have hstop := List.head?_dropWhile_not (!isAsciiBlank ·) rest
        rw [Option.mem_def.mp hc] at hstop
        simpa using hstop
      · cases h
    · cases h

instance (line : List Char) : Decidable (IsSetCommand line) :=
  decidable_of_iff _ isSetCommand_iff.symm

theorem errorOf?_apply (s t : Settings) (name value : String) :
    errorOf? (s.apply name value) = errorOf? (t.apply name value) := by
  rw [← errorOf?_map (fun u => u.get name), map_get_apply, ← map_get_apply t, errorOf?_map]

/-- Whether a line fails, and why, has nothing to do with what was set before. -/
theorem errorOf?_applyLine (s : Settings) (line : List Char) :
    errorOf? (s.applyLine line) = cause? line := by
  unfold cause? applyLine
  split
  · rfl
  · split
    · exact errorOf?_apply s default _ _
    · rfl

/-- What a line can do: it fails, it is no `/set` command, or it sets one name. -/
theorem applyLine_cases (s : Settings) (line : List Char) :
    (∃ e, cause? line = some e ∧ s.applyLine line = .error e) ∨
    (cause? line = none ∧ ¬ IsSetCommand line ∧ s.applyLine line = .ok s) ∨
    ∃ name value t, cause? line = none ∧ SetsTo line name value ∧ s.applyLine line = .ok t ∧
      Held.ofValue name value = .ok (t.get name) ∧
      ∀ other, other ≠ name → t.get other = s.get other := by
  rw [← errorOf?_applyLine s line]
  rcases hline : s.applyLine line with e | t
  · exact .inl ⟨e, rfl, rfl⟩
  · refine .inr ?_
    unfold applyLine at hline
    rcases hargument : argument? line with _ | argument
    · rw [hargument] at hline
      cases hline
      refine .inl ⟨rfl, ?_, rfl⟩
      rw [isSetCommand_iff, hargument]
      exact Bool.false_ne_true
    · rw [hargument] at hline
      rcases hwords : nameAndValue (splitWords argument) with e | ⟨name, value⟩
      · simp only [hwords] at hline
        cases hline
      · simp only [hwords] at hline
        refine .inr ⟨name, value, t, rfl, ⟨argument, hargument, hwords⟩, rfl, ?_,
          fun other hne => get_of_apply hline hne⟩
        rw [← map_get_apply s, hline]
        rfl

theorem afterLine_of_cause {e : SettingError} (h : cause? line = some e) (s : Settings) :
    s.afterLine line = s := by
  rw [← errorOf?_applyLine s, errorOf?_eq_some] at h
  rw [afterLine, h]

theorem afterLine_of_not_command (h : ¬ IsSetCommand line) (s : Settings) :
    s.afterLine line = s := by
  rw [isSetCommand_iff, Bool.not_eq_true, Option.isSome_eq_false_iff,
    Option.isNone_iff_eq_none] at h
  simp only [afterLine, applyLine, h]

end Line

/-! ## A run over lines -/

/-- The failures of numbered lines, each by itself. -/
def failuresFrom (number : Nat) (lines : List (List Char)) : List SettingFailure :=
  (lines.zipIdx number).filterMap fun numbered => (cause? numbered.1).map (⟨numbered.2, ·⟩)

section Run

variable {s : Settings} {number : Nat} {line : List Char} {lines : List (List Char)}

theorem failuresFrom_cons (number : Nat) (line : List Char) (lines : List (List Char)) :
    failuresFrom number (line :: lines) =
      ((cause? line).map (SettingFailure.mk number ·)).toList ++
        failuresFrom (number + 1) lines := by
  rw [failuresFrom, List.zipIdx_cons, List.filterMap_cons]
  cases cause? line <;> rfl

/-- A run over lines is a fold of the settings, beside the failures of the lines. -/
theorem loadLines_eq (s : Settings) (number : Nat) (lines : List (List Char)) :
    loadLines s number lines = (lines.foldl afterLine s, failuresFrom number lines) := by
  induction lines generalizing s number with
  | nil => rfl
  | cons line lines ih =>
    rw [failuresFrom_cons, List.foldl_cons, loadLines, ← errorOf?_applyLine s line]
    rcases hline : s.applyLine line with e | t
    · simp only [ih, afterLine, hline]
      rfl
    · simp only [ih, afterLine, hline]
      rfl

theorem mem_failuresFrom_iff {n : Nat} {e : SettingError} :
    ⟨n, e⟩ ∈ failuresFrom number lines ↔
      number ≤ n ∧ ∃ line, lines[n - number]? = some line ∧ cause? line = some e := by
  rw [failuresFrom, List.mem_filterMap]
  constructor
  · rintro ⟨⟨line, i⟩, hmem, hcause⟩
    obtain ⟨e', he, heq⟩ := Option.map_eq_some_iff.mp hcause
    obtain ⟨rfl, rfl⟩ := SettingFailure.mk.inj heq
    obtain ⟨hle, hat⟩ := List.mk_mem_zipIdx_iff_le_and_getElem?_sub.mp hmem
    exact ⟨hle, line, hat, he⟩
  · rintro ⟨hle, line, hat, hcause⟩
    refine ⟨(line, n), List.mk_mem_zipIdx_iff_le_and_getElem?_sub.mpr ⟨hle, hat⟩, ?_⟩
    rw [hcause]
    rfl

/-- Failures are in the order of their lines, and no line fails twice. -/
theorem failuresFrom_increasing (number : Nat) (lines : List (List Char)) :
    (failuresFrom number lines).Pairwise (·.line < ·.line) := by
  induction lines generalizing number with
  | nil => exact List.Pairwise.nil
  | cons line lines ih =>
    rw [failuresFrom_cons, List.pairwise_append]
    refine ⟨?_, ih (number + 1), ?_⟩
    · cases cause? line <;> simp
    · intro first hfirst later hlater
      obtain ⟨e, -, rfl⟩ := Option.map_eq_some_iff.mp (Option.mem_toList.mp hfirst)
      have hle := (mem_failuresFrom_iff.mp hlater).1
      show number < later.line
      omega

theorem failuresFrom_eq_nil (h : ∀ line ∈ lines, cause? line = none) (number : Nat) :
    failuresFrom number lines = [] := by
  induction lines generalizing number with
  | nil => rfl
  | cons line lines ih =>
    rw [failuresFrom_cons, h line List.mem_cons_self,
      ih (fun later hlater => h later (.tail line hlater))]
    rfl

end Run

/-! ## The lines of a text -/

/-- The lines of a text, without their ends. -/
def linesOf (text : String) : List (List Char) := text.toList.splitOn '\n'

/-- A line fails if a text that holds nothing else has a failure. -/
def Fails (line : List Char) : Prop := (load (String.ofList line)).2 ≠ []

instance (line : List Char) : Decidable (Fails line) := inferInstanceAs (Decidable (_ ≠ _))

/-- A good line that gives a name a value. -/
def Decides (line : List Char) (name value : String) : Prop :=
  SetsTo line name value ∧ ¬ Fails line

/-- A line, or an empty one in its place if it fails or is no `/set` command. -/
def keptLine (line : List Char) : List Char :=
  if IsSetCommand line ∧ ¬ Fails line then line else []

/-- A text with every line made empty that fails or is no `/set` command. -/
def withoutIdleLines (text : String) : String :=
  String.ofList (['\n'].intercalate ((linesOf text).map keptLine))

section Text

variable {line : List Char} {text : String}

theorem load_eq (text : String) :
    load text = ((linesOf text).foldl afterLine default, failuresFrom 1 (linesOf text)) :=
  loadLines_eq default 1 (linesOf text)

theorem notMem_of_mem_splitOn {cs : List Char} (h : line ∈ cs.splitOn '\n') : '\n' ∉ line := by
  by_cases hmem : '\n' ∈ cs
  · obtain ⟨front, back, hcs, hfront⟩ := List.eq_append_cons_of_mem hmem
    rw [hcs, List.splitOn_append_cons_self_of_not_mem hfront] at h
    rcases List.mem_cons.mp h with rfl | hback
    · exact hfront
    · exact notMem_of_mem_splitOn hback
  · rw [List.splitOn_eq_singleton hmem, List.mem_singleton] at h
    subst h
    exact hmem
termination_by cs.length
decreasing_by
  rw [hcs, List.length_append, List.length_cons]
  omega

theorem notMem_of_mem_linesOf (h : line ∈ linesOf text) : '\n' ∉ line := notMem_of_mem_splitOn h

theorem linesOf_ofList (h : '\n' ∉ line) : linesOf (String.ofList line) = [line] := by
  rw [linesOf, String.toList_ofList, List.splitOn_eq_singleton h]

/-- A line that is alone in a text fails for its own cause. -/
theorem load_ofList (h : '\n' ∉ line) :
    load (String.ofList line) =
      (default.afterLine line, ((cause? line).map (SettingFailure.mk 1 ·)).toList) := by
  rw [load_eq, linesOf_ofList h, failuresFrom_cons]
  simp [failuresFrom]

theorem failures_ofList_iff (h : '\n' ∉ line) {e : SettingError} :
    (load (String.ofList line)).2 = [⟨1, e⟩] ↔ cause? line = some e := by
  rw [load_ofList h]
  cases cause? line <;> simp

theorem not_fails_iff (h : '\n' ∉ line) : ¬ Fails line ↔ cause? line = none := by
  rw [Fails, not_not, load_ofList h]
  cases cause? line <;> simp

/-! ## Lines that do nothing -/

theorem notMem_keptLine (h : '\n' ∉ line) : '\n' ∉ keptLine line := by
  unfold keptLine
  split
  · exact h
  · exact List.not_mem_nil

theorem linesOf_withoutIdleLines (text : String) :
    linesOf (withoutIdleLines text) = (linesOf text).map keptLine := by
  have hclean : ∀ line ∈ (linesOf text).map keptLine, '\n' ∉ line := by
    intro line hline
    obtain ⟨whole, hwhole, rfl⟩ := List.mem_map.mp hline
    exact notMem_keptLine (notMem_of_mem_linesOf hwhole)
  have hne : (linesOf text).map keptLine ≠ [] := by
    rw [Ne, List.map_eq_nil_iff]
    exact List.splitOn_ne_nil _ _
  show (withoutIdleLines text).toList.splitOn '\n' = _
  rw [withoutIdleLines, String.toList_ofList, List.splitOn_intercalate '\n' hclean hne]

/-- A line does what is left of it does, and what is left does not fail. -/
theorem keptLine_spec (h : '\n' ∉ line) (s : Settings) :
    s.afterLine (keptLine line) = s.afterLine line ∧ cause? (keptLine line) = none := by
  unfold keptLine
  split
  · rename_i hgood
    exact ⟨rfl, (not_fails_iff h).mp hgood.2⟩
  · rename_i hidle
    refine ⟨?_, rfl⟩
    show s = s.afterLine line
    by_cases hcommand : IsSetCommand line
    · have hfails : ¬ cause? line = none := fun hnone =>
        hidle ⟨hcommand, (not_fails_iff h).mpr hnone⟩
      obtain ⟨e, he⟩ := Option.ne_none_iff_exists'.mp hfails
      exact (afterLine_of_cause he s).symm
    · exact (afterLine_of_not_command hcommand s).symm

theorem foldl_keptLine {lines : List (List Char)} (h : ∀ line ∈ lines, '\n' ∉ line)
    (s : Settings) : (lines.map keptLine).foldl afterLine s = lines.foldl afterLine s := by
  induction lines generalizing s with
  | nil => rfl
  | cons line lines ih =>
    rw [List.map_cons, List.foldl_cons, List.foldl_cons,
      (keptLine_spec (h line List.mem_cons_self) s).1]
    exact ih (fun later hlater => h later (.tail line hlater)) _

theorem load_withoutIdleLines (text : String) :
    load (withoutIdleLines text) = ((load text).1, []) := by
  have hclean : ∀ line ∈ linesOf text, '\n' ∉ line := fun line => notMem_of_mem_linesOf
  have hgood : ∀ line ∈ (linesOf text).map keptLine, cause? line = none := by
    intro line hline
    obtain ⟨whole, hwhole, rfl⟩ := List.mem_map.mp hline
    exact (keptLine_spec (hclean whole hwhole) default).2
  rw [load_eq, load_eq, linesOf_withoutIdleLines, foldl_keptLine hclean, failuresFrom_eq_nil hgood]

/-! ## The line that decides -/

variable {name value : String}

theorem SetsTo.unique {name' value' : String} (h : SetsTo line name value)
    (h' : SetsTo line name' value') : name = name' ∧ value = value' := by
  obtain ⟨argument, hargument, hwords⟩ := h
  obtain ⟨argument', hargument', hwords'⟩ := h'
  rw [hargument, Option.some_inj] at hargument'
  subst hargument'
  rw [hwords] at hwords'
  exact Prod.mk.inj (Except.ok.inj hwords')

theorem SetsTo.isSetCommand (h : SetsTo line name value) : IsSetCommand line := by
  obtain ⟨argument, hargument, -⟩ := h
  rw [isSetCommand_iff, hargument]
  rfl

/-- A good line makes the name hold what its value stands for. -/
theorem Decides.get_afterLine (h : Decides line name value) (hclean : '\n' ∉ line)
    (s : Settings) : Held.ofValue name value = .ok ((s.afterLine line).get name) := by
  have hgood := (not_fails_iff hclean).mp h.2
  rcases applyLine_cases s line with
    ⟨e, he, -⟩ | ⟨-, hother, -⟩ | ⟨name', value', t, -, hsets, ht, hheld, -⟩
  · rw [hgood] at he
    cases he
  · exact absurd h.1.isSetCommand hother
  · obtain ⟨rfl, rfl⟩ := h.1.unique hsets
    rw [afterLine, ht]
    exact hheld

/-- Any other line leaves what the name holds. -/
theorem get_afterLine_of_not_decides (hclean : '\n' ∉ line)
    (h : ∀ value, ¬ Decides line name value) (s : Settings) :
    (s.afterLine line).get name = s.get name := by
  rcases applyLine_cases s line with
    ⟨e, -, ht⟩ | ⟨-, -, ht⟩ | ⟨name', value, t, hgood, hsets, ht, -, hframe⟩
  all_goals rw [afterLine, ht]
  refine hframe name ?_
  rintro rfl
  exact h value ⟨hsets, (not_fails_iff hclean).mpr hgood⟩

theorem get_foldl_of_not_decides {lines : List (List Char)} (hclean : ∀ line ∈ lines, '\n' ∉ line)
    (h : ∀ line ∈ lines, ∀ value, ¬ Decides line name value) (s : Settings) :
    (lines.foldl afterLine s).get name = s.get name := by
  induction lines generalizing s with
  | nil => rfl
  | cons line lines ih =>
    rw [List.foldl_cons,
      ih (fun later hlater => hclean later (.tail line hlater))
        (fun later hlater => h later (.tail line hlater)),
      get_afterLine_of_not_decides (hclean line List.mem_cons_self) (h line List.mem_cons_self)]

/-- The last line that decides on a name is what the name holds at the end. -/
theorem get_load_of_decides {before after : List (List Char)}
    (hlines : linesOf text = before ++ line :: after) (h : Decides line name value)
    (hlast : ∀ later ∈ after, ∀ value, ¬ Decides later name value) :
    Held.ofValue name value = .ok ((load text).1.get name) := by
  have hclean : ∀ l ∈ before ++ line :: after, '\n' ∉ l := by
    rw [← hlines]
    exact fun l => notMem_of_mem_linesOf
  have hlater : ∀ l ∈ after, '\n' ∉ l := fun l hl =>
    hclean l (List.mem_append_right before (.tail line hl))
  rw [load_eq, hlines, List.foldl_append, List.foldl_cons, get_foldl_of_not_decides hlater hlast]
  exact h.get_afterLine (hclean line (List.mem_append_right before List.mem_cons_self)) _

/-- What no line decides on is as before the text was read. -/
theorem get_load_of_not_decides
    (h : ∀ line ∈ linesOf text, ∀ value, ¬ Decides line name value) :
    (load text).1.get name = default.get name := by
  rw [load_eq]
  exact get_foldl_of_not_decides (fun line => notMem_of_mem_linesOf) h default

/-- Either no line decides on a name or there is a last one that does. -/
theorem exists_last_decides (lines : List (List Char)) (name : String) :
    (∀ line ∈ lines, ∀ value, ¬ Decides line name value) ∨
      ∃ before line after value, lines = before ++ line :: after ∧ Decides line name value ∧
        ∀ later ∈ after, ∀ value, ¬ Decides later name value := by
  induction lines with
  | nil => exact .inl (by simp)
  | cons first rest ih =>
    rcases ih with hnone | ⟨before, line, after, value, hrest, hdecides, hlast⟩
    · by_cases hfirst : ∃ value, Decides first name value
      · obtain ⟨value, hdecides⟩ := hfirst
        exact .inr ⟨[], first, rest, value, rfl, hdecides, hnone⟩
      · exact .inl (List.forall_mem_cons.mpr ⟨not_exists.mp hfirst, hnone⟩)
    · exact .inr ⟨first :: before, line, after, value, by rw [hrest]; rfl, hdecides, hlast⟩

/-- The failures of a text are in the order of its lines, one for each line that fails, and a
line fails in the text exactly as it fails alone. Without the lines that fail and those that
are no `/set` command, the text loads to the same settings and without a failure. What a name
holds, be it one that configures the program or a variable, is what it is set to by the last
good line that sets it; where there is none it is what it was before the text was read. -/
theorem failures_isolated (text : String) :
    (load text).2.Pairwise (·.line < ·.line) ∧
    (∀ n cause, ⟨n, cause⟩ ∈ (load text).2 ↔
      1 ≤ n ∧ ∃ line, (linesOf text)[n - 1]? = some line ∧
        (load (String.ofList line)).2 = [⟨1, cause⟩]) ∧
    load (withoutIdleLines text) = ((load text).1, []) ∧
    ∀ name,
      (∀ before line after value, linesOf text = before ++ line :: after →
        Decides line name value → (∀ later ∈ after, ∀ value, ¬ Decides later name value) →
        Held.ofValue name value = .ok ((load text).1.get name)) ∧
      ((∀ line ∈ linesOf text, ∀ value, ¬ Decides line name value) →
        (load text).1.get name = default.get name) := by
  refine ⟨?_, fun n cause => ?_, load_withoutIdleLines text, fun name => ⟨?_, ?_⟩⟩
  · rw [load_eq]
    exact failuresFrom_increasing 1 (linesOf text)
  · rw [load_eq, mem_failuresFrom_iff]
    refine and_congr_right fun _ => exists_congr fun line => and_congr_right fun hline => ?_
    have hclean : '\n' ∉ line := notMem_of_mem_linesOf (List.mem_of_getElem? hline)
    exact (failures_ofList_iff hclean).symm
  · intro before line after value hlines h hlast
    exact get_load_of_decides hlines h hlast
  · exact get_load_of_not_decides

/-- A value that a name does not take leaves what was set before. -/
example : (load "/set vector=a\n/set timeout_ms=soon\n/set vector\n").1.vector = some "a" ∧
    (load "/set vector=a\n/set timeout_ms=soon\n/set vector\n").2.map (·.line) = [2, 3] := by
  decide +kernel

end Text

end ScpiScript.Settings
