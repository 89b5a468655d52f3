import ScpiScript.CommandLine.Program
import ScpiScript.Proofs.Settings.Loading
/-!
# Where the settings of a run come from

The settings are those of one file: the first of the places for it at which something
stands. What stands at a later place plays no part, and there is no other place to fall back
on if the file cannot be read. With `-n` no file is looked for.

- `IsSettingsFile` says which path is read.
- `TakesSettings` is what can come of it, with the warnings, and `loadSettings_eq_iff` says
  that loading is just that.
- `sessionAddress_eq_some_iff` is the session that a run opens first, told by the lines of
  that file.
-/

namespace ScpiScript

/-- A path is the first of the places for a settings file at which something stands. -/
def IsSettingsFile (environment : Environment) (files : FileTree) (path : String) : Prop :=
  ∃ before after, environment.candidates = before ++ path :: after ∧
    files.exists? path = true ∧ ∀ other ∈ before, files.exists? other = false

section Search

variable {environment : Environment} {files : FileTree} {path : String}

theorem findSettings_eq_some_iff :
    environment.findSettings files = some path ↔ IsSettingsFile environment files path := by
  rw [Environment.findSettings, List.find?_eq_some_iff_append, IsSettingsFile]
  simp only [Bool.not_eq_true']
  constructor
  · rintro ⟨hexists, before, after, hplaces, hbefore⟩
    exact ⟨before, after, hplaces, hexists, hbefore⟩
  · rintro ⟨before, after, hplaces, hexists, hbefore⟩
    exact ⟨hexists, before, after, hplaces, hbefore⟩

theorem findSettings_eq_none_iff :
    environment.findSettings files = none ↔
      ∀ path ∈ environment.candidates, files.exists? path = false := by
  rw [Environment.findSettings, List.find?_eq_none]
  simp only [Bool.not_eq_true]

end Search

namespace Program

/-- What a run takes for its settings, and the warnings about them. -/
inductive TakesSettings (arguments : Arguments) (invocation : Invocation) :
    Settings → List String → Prop
  /-- With `-n` nothing is looked for. -/
  | declined (hflag : arguments.noSettings = true) :
      TakesSettings arguments invocation .default []
  /-- There is nothing at any place for a settings file. -/
  | absent (hflag : arguments.noSettings = false)
      (hnone : ∀ path ∈ invocation.environment.candidates,
        invocation.files.exists? path = false) :
      TakesSettings arguments invocation .default []
  /-- The file says what the settings are, and each line of it that fails is told. -/
  | loaded {path text : String} (hflag : arguments.noSettings = false)
      (hpath : IsSettingsFile invocation.environment invocation.files path)
      (htext : invocation.files.readText path = .ok text) :
      TakesSettings arguments invocation (Settings.load text).1
        ((Settings.load text).2.map fun f => warning (path ++ ": " ++ f.message))
  /-- A file that cannot be read sets nothing, which is told too. -/
  | unreadable {path : String} {cause : IoError} (hflag : arguments.noSettings = false)
      (hpath : IsSettingsFile invocation.environment invocation.files path)
      (htext : invocation.files.readText path = .error cause) :
      TakesSettings arguments invocation .default
        [warning (path ++ ": " ++ cause.message)]

theorem takesSettings_load (arguments : Arguments) (invocation : Invocation) :
    TakesSettings arguments invocation (loadSettings arguments invocation).1
      (loadSettings arguments invocation).2 := by
  unfold loadSettings
  cases hflag : arguments.noSettings with
  | true => exact .declined hflag
  | false =>
    rw [if_neg Bool.false_ne_true]
    rcases hfound : invocation.environment.findSettings invocation.files with _ | path
    · exact .absent hflag (findSettings_eq_none_iff.mp hfound)
    · have hpath := findSettings_eq_some_iff.mp hfound
      dsimp only
      rw [Settings.loadFile]
      rcases htext : invocation.files.readText path with cause | text
      · exact .unreadable hflag hpath htext
      · exact .loaded hflag hpath htext

variable {arguments : Arguments} {invocation : Invocation}

theorem TakesSettings.eq {settings : Settings} {warnings : List String}
    (h : TakesSettings arguments invocation settings warnings) :
    loadSettings arguments invocation = (settings, warnings) := by
  unfold loadSettings
  cases h with
  | declined hflag => rw [hflag, if_pos rfl]
  | absent hflag hnone =>
    rw [hflag, if_neg Bool.false_ne_true, findSettings_eq_none_iff.mpr hnone]
  | loaded hflag hpath htext =>
    rw [hflag, if_neg Bool.false_ne_true, findSettings_eq_some_iff.mpr hpath]
    dsimp only
    rw [Settings.loadFile, htext]
    rfl
  | unreadable hflag hpath htext =>
    rw [hflag, if_neg Bool.false_ne_true, findSettings_eq_some_iff.mpr hpath]
    dsimp only
    rw [Settings.loadFile, htext]
    rfl

/-- The settings of a run and the warnings about them are what the first settings file gives,
or the defaults. -/
theorem loadSettings_eq_iff {settings : Settings} {warnings : List String} :
    loadSettings arguments invocation = (settings, warnings) ↔
      TakesSettings arguments invocation settings warnings := by
  constructor
  · intro h
    have hload := takesSettings_load arguments invocation
    rwa [h] at hload
  · exact TakesSettings.eq

/-- A run opens a session before its actions exactly if its settings file can be read and the
last good line in it that is about the address names one. -/
theorem sessionAddress_eq_some_iff {address : String} :
    (loadSettings arguments invocation).1.address = some address ↔
      arguments.noSettings = false ∧ address ≠ "" ∧
      ∃ path text, IsSettingsFile invocation.environment invocation.files path ∧
        invocation.files.readText path = .ok text ∧
        ∃ before line after, Settings.linesOf text = before ++ line :: after ∧
          Settings.Decides line "address" address ∧
          ∀ later ∈ after, ∀ value, ¬ Settings.Decides later "address" value := by
  constructor
  · intro haddress
    generalize hload : loadSettings arguments invocation = taken at haddress
    obtain ⟨settings, warnings⟩ := taken
    cases loadSettings_eq_iff.mp hload with
    | declined hflag => cases haddress
    | absent hflag hnone => cases haddress
    | unreadable hflag hpath htext => cases haddress
    | @loaded path text hflag hpath htext =>
      rcases Settings.exists_last_decides (Settings.linesOf text) "address" with
        hnone | ⟨before, line, after, value, hlines, hdecides, hlast⟩
      · have hheld := Settings.Held.address.inj (Settings.get_load_of_not_decides hnone)
        rw [hheld] at haddress
        cases haddress
      · have hheld := Settings.get_load_of_decides hlines hdecides hlast
        have hvalue := Settings.Held.address.inj (Except.ok.inj hheld)
        rw [← hvalue, Settings.nonEmpty?] at haddress
        split at haddress
        · cases haddress
        · rename_i hne
          obtain rfl := Option.some.inj haddress
          exact ⟨hflag, hne, path, text, hpath, htext, before, line, after, hlines, hdecides, hlast⟩
  · rintro ⟨hflag, hne, path, text, hpath, htext, before, line, after, hlines, hdecides, hlast⟩
    have hheld := Settings.get_load_of_decides hlines hdecides hlast
    have hvalue := Settings.Held.address.inj (Except.ok.inj hheld)
    rw [loadSettings_eq_iff.mpr (.loaded hflag hpath htext), ← hvalue, Settings.nonEmpty?,
      if_neg hne]

end Program

end ScpiScript
