import Mathlib.Data.List.Basic
import ScpiScript.CommandLine.Arguments
/-!
# Written argument lists

An argument list that is understood says a list of things, one behind the other, and may then
ask for help and go on with anything. Reading gives back what was said. A list that is not
understood is the same up to an option that is not known, or that ends without its parameter.

- `Entry` is a thing that can be said, and `Arguments.render` writes a list of them.
- `Arguments.requested` is what they ask for.
- `Understood` and `Refusal` say which lists are read, and what is wrong with the others.
- `read_exact` is that reading follows them.
-/

namespace ScpiScript

/-- A flag, or an option with its parameter. -/
inductive Entry
  | debug
  | noSettings
  | openSession (address : String)
  | evaluate (code : String)
  /-- Run a script, a hyphen standing for standard input. -/
  | interpret (target : String)
  deriving DecidableEq, Repr

namespace Entry

/-- The arguments that an entry is written as. -/
def render : Entry → List String
  | debug => ["-d"]
  | noSettings => ["-n"]
  | openSession address => ["-i", address]
  | evaluate code => ["-e", code]
  | interpret target => ["-f", target]

/-- The action of an entry whose option stands at a position of the list, from one. -/
def action? (position : Nat) : Entry → Option Action
  | debug | noSettings => none
  | openSession address => some (.openSession address)
  | evaluate code => some (.evaluate code position)
  | interpret target => some (if target = "-" then .runStdin else .runFile target)

theorem length_render_pos (entry : Entry) : 0 < entry.render.length := by
  cases entry <;> exact Nat.zero_lt_succ _

/-- The number of an evaluation is the place of its option. -/
theorem eq_of_action?_evaluate {entry : Entry} {position index : Nat} {code : String}
    (h : entry.action? position = some (.evaluate code index)) :
    entry = .evaluate code ∧ index = position := by
  cases entry with
  | debug | noSettings | openSession => cases h
  | evaluate => cases h; exact ⟨rfl, rfl⟩
  | interpret target =>
    rw [action?] at h
    split at h <;> cases h

end Entry

namespace Arguments

/-- The argument list of some entries. -/
def render (entries : List Entry) : List String := entries.flatMap Entry.render

/-- The actions of entries that are written from a position on. -/
def actionsAt (position : Nat) : List Entry → List Action
  | [] => []
  | entry :: entries =>
    (entry.action? position).toList ++ actionsAt (position + entry.render.length) entries

/-- What entries ask for. -/
def requested (entries : List Entry) : Arguments where
  actions := actionsAt 1 entries
  help := false
  debug := .debug ∈ entries
  noSettings := .noSettings ∈ entries

/-- The options that ask for help. -/
def helpOptions : List String := ["-h", "-?", "--help"]

/-- The options that take the argument after them. -/
def parameterOptions : List String := ["-i", "-e", "-f"]

/-- All options. -/
def knownOptions : List String := ["-d", "-n"] ++ helpOptions ++ parameterOptions

/-- An argument list that says something: entries, then perhaps a request for help with
anything behind it. -/
inductive Understood : List String → Prop
  | plain (entries : List Entry) : Understood (render entries)
  | help (entries : List Entry) {option : String} (h : option ∈ helpOptions)
      (rest : List String) : Understood (render entries ++ option :: rest)

/-- What is wrong with an argument list behind its first entries, and the message that says
so. -/
inductive Refusal : List String → UsageError → String → Prop
  | unknown (entries : List Entry) {option : String} (h : option ∉ knownOptions)
      (rest : List String) :
      Refusal (render entries ++ option :: rest) (.unknownOption option)
        ("unknown option: " ++ option)
  | noParameter (entries : List Entry) {option : String} (h : option ∈ parameterOptions) :
      Refusal (render entries ++ [option]) (.noParameter option)
        ("option " ++ option ++ " has no parameter")

/-! ## Options by their spelling -/

section Spelling

variable {option : String}

theorem ofText_of_help (h : option ∈ helpOptions) : OptionKind.ofText option = .help := by
  simp only [helpOptions, List.mem_cons, List.not_mem_nil, or_false] at h
  rcases h with rfl | rfl | rfl <;> rfl

theorem ofText_of_parameter (h : option ∈ parameterOptions) :
    ∃ action, OptionKind.ofText option = .parameter action := by
  simp only [parameterOptions, List.mem_cons, List.not_mem_nil, or_false] at h
  rcases h with rfl | rfl | rfl <;> exact ⟨_, rfl⟩

theorem ofText_of_unknown (h : option ∉ knownOptions) : OptionKind.ofText option = .unknown := by
  simp only [knownOptions, helpOptions, parameterOptions, List.cons_append, List.nil_append,
    List.mem_cons, List.not_mem_nil, or_false, not_or] at h
  simp [OptionKind.ofText, h]

/-- Every list begins with an entry, asks for help, or is refused at its first option, unless
nothing is left of it. -/
theorem starts_or_ends (list : List String) :
    (∃ entry rest, list = Entry.render entry ++ rest) ∨ Understood list ∨
      ∃ cause, Refusal list cause cause.message := by
  cases list with
  | nil => exact .inr (.inl (.plain []))
  | cons option rest =>
    by_cases hknown : option ∈ knownOptions
    · simp only [knownOptions, List.cons_append, List.nil_append, List.mem_cons,
        List.mem_append] at hknown
      rcases hknown with rfl | rfl | hhelp | hparameter
      · exact .inl ⟨.debug, rest, rfl⟩
      · exact .inl ⟨.noSettings, rest, rfl⟩
      · exact .inr (.inl (.help [] hhelp rest))
      · cases rest with
        | nil => exact .inr (.inr ⟨_, .noParameter [] hparameter⟩)
        | cons parameter rest =>
          simp only [parameterOptions, List.mem_cons, List.not_mem_nil, or_false] at hparameter
          rcases hparameter with rfl | rfl | rfl
          · exact .inl ⟨.openSession parameter, rest, rfl⟩
          · exact .inl ⟨.evaluate parameter, rest, rfl⟩
          · exact .inl ⟨.interpret parameter, rest, rfl⟩
    · exact .inr (.inr ⟨_, .unknown [] hknown rest⟩)

end Spelling

/-! ## Entries in front of a list -/

section Front

variable {list : List String} {cause : UsageError} {message : String}

theorem render_cons (entry : Entry) (entries : List Entry) (rest : List String) :
    render (entry :: entries) ++ rest = entry.render ++ (render entries ++ rest) := by
  rw [render, List.flatMap_cons, List.append_assoc, render]

theorem render_eq_nil {entries : List Entry} (h : render entries = []) : entries = [] := by
  cases entries with
  | nil => rfl
  | cons entry entries =>
    have hpos := entry.length_render_pos
    rw [render, List.flatMap_cons, List.append_eq_nil_iff] at h
    rw [h.1] at hpos
    exact absurd hpos (Nat.lt_irrefl 0)

theorem Understood.cons (h : Understood list) (entry : Entry) :
    Understood (entry.render ++ list) := by
  cases h with
  | plain entries =>
    rw [← List.append_nil (render entries), ← render_cons, List.append_nil]
    exact .plain (entry :: entries)
  | help entries hhelp rest =>
    rw [← render_cons]
    exact .help (entry :: entries) hhelp rest

theorem Refusal.cons (h : Refusal list cause message) (entry : Entry) :
    Refusal (entry.render ++ list) cause message := by
  cases h with
  | unknown entries hunknown rest =>
    rw [← render_cons]
    exact .unknown (entry :: entries) hunknown rest
  | noParameter entries hparameter =>
    rw [← render_cons]
    exact .noParameter (entry :: entries) hparameter

/-- There is nothing between what is understood and what is refused. -/
theorem understood_or_refusal (list : List String) :
    Understood list ∨ ∃ cause, Refusal list cause cause.message := by
  rcases starts_or_ends list with ⟨entry, rest, rfl⟩ | hend
  · rcases understood_or_refusal rest with hrest | ⟨cause, hrest⟩
    · exact .inl (hrest.cons entry)
    · exact .inr ⟨cause, hrest.cons entry⟩
  · exact hend
termination_by list.length
decreasing_by
  have hpos := entry.length_render_pos
  subst_vars
  rw [List.length_append]
  omega

end Front

/-! ## Reading on from a position -/

/-- The arguments with some entries more, written from a position on. -/
def adding (a : Arguments) (position : Nat) (entries : List Entry) : Arguments where
  actions := a.actions ++ actionsAt position entries
  help := a.help
  debug := a.debug || .debug ∈ entries
  noSettings := a.noSettings || .noSettings ∈ entries

@[simp] theorem adding_nil (a : Arguments) (position : Nat) : a.adding position [] = a := by
  simp [adding, actionsAt]

theorem empty_adding (entries : List Entry) : empty.adding 1 entries = requested entries := by
  simp [adding, requested, empty]

section ReadFrom

variable (position : Nat) (a : Arguments)

/-- An entry is read as what it asks for, whatever stands behind it. -/
theorem readFrom_entry (entry : Entry) (entries : List Entry) (rest : List String) :
    ∃ b, readFrom position a (entry.render ++ rest) =
        readFrom (position + entry.render.length) b rest ∧
      b.adding (position + entry.render.length) entries = a.adding position (entry :: entries) := by
  cases entry with
  | debug => exact ⟨{ a with debug := true }, rfl, by simp [adding, actionsAt, Entry.action?]⟩
  | noSettings =>
    exact ⟨{ a with noSettings := true }, rfl, by simp [adding, actionsAt, Entry.action?]⟩
  | openSession address =>
    exact ⟨a.push (.openSession address), rfl, by simp [adding, push, actionsAt, Entry.action?]⟩
  | evaluate code =>
    exact ⟨a.push (.evaluate code position), rfl,
      by simp [adding, push, actionsAt, Entry.action?]⟩
  | interpret target =>
    exact ⟨a.push (.ofTarget target), rfl,
      by simp [adding, push, actionsAt, Entry.action?, Action.ofTarget]⟩

theorem readFrom_render (entries : List Entry) (rest : List String) :
    readFrom position a (render entries ++ rest) =
      readFrom (position + (render entries).length) (a.adding position entries) rest := by
  induction entries generalizing position a with
  | nil => rw [adding_nil]; rfl
  | cons entry entries ih =>
    obtain ⟨b, hread, hadding⟩ := readFrom_entry position a entry entries (render entries ++ rest)
    rw [render_cons, hread, ih, hadding, Nat.add_assoc, ← List.length_append]
    rfl

end ReadFrom

/-! ## Reading a whole list -/

variable {list : List String} {cause : UsageError} {message : String}

/-- Unless a list is one of the ways to ask for help alone, it is read from its first place. -/
theorem read_eq_readFrom (h : ∀ only ∈ loneHelp, list ≠ [only]) :
    read list = readFrom 1 empty list := by
  unfold read
  split
  · rename_i only
    rw [if_neg fun hlone => h only hlone rfl]
  · rfl

theorem readFrom_render_nil (entries : List Entry) :
    readFrom 1 empty (render entries) = .ok (requested entries) := by
  have hread := readFrom_render 1 empty entries []
  rwa [List.append_nil, empty_adding, readFrom] at hread

theorem readFrom_render_help (entries : List Entry) {option : String} (h : option ∈ helpOptions)
    (rest : List String) :
    readFrom 1 empty (render entries ++ option :: rest) =
      .ok { requested entries with help := true } := by
  rw [readFrom_render, empty_adding, readFrom, ofText_of_help h]

theorem Understood.readFrom (h : Understood list) :
    ∃ arguments, readFrom 1 empty list = .ok arguments := by
  cases h with
  | plain entries => exact ⟨_, readFrom_render_nil entries⟩
  | help entries hhelp rest => exact ⟨_, readFrom_render_help entries hhelp rest⟩

theorem Refusal.readFrom (h : Refusal list cause message) :
    Arguments.readFrom 1 empty list = .error cause ∧ message = cause.message := by
  cases h with
  | unknown entries hunknown rest =>
    rw [readFrom_render, Arguments.readFrom, ofText_of_unknown hunknown]
    exact ⟨rfl, rfl⟩
  | noParameter entries hparameter =>
    obtain ⟨action, hkind⟩ := ofText_of_parameter hparameter
    rw [readFrom_render, Arguments.readFrom, hkind]
    exact ⟨rfl, rfl⟩

/-- No way to ask for help alone is a list of entries. -/
theorem render_ne_loneHelp (entries : List Entry) : ∀ only ∈ loneHelp, render entries ≠ [only] := by
  intro only honly heq
  match entries with
  | [] => cases heq
  | entry :: entries =>
    have hlone : "-d" ∉ loneHelp ∧ "-n" ∉ loneHelp := by decide
    cases entry with
    | debug =>
      obtain ⟨rfl, -⟩ := List.cons.inj heq
      exact hlone.1 honly
    | noSettings =>
      obtain ⟨rfl, -⟩ := List.cons.inj heq
      exact hlone.2 honly
    | openSession | evaluate | interpret => cases (List.cons.inj heq).2

theorem read_render (entries : List Entry) : read (render entries) = .ok (requested entries) := by
  rw [read_eq_readFrom (render_ne_loneHelp entries), readFrom_render_nil]

theorem read_render_help (entries : List Entry) {option : String} (h : option ∈ helpOptions)
    (rest : List String) :
    read (render entries ++ option :: rest) = .ok { requested entries with help := true } := by
  by_cases hlone : ∃ only ∈ loneHelp, render entries ++ option :: rest = [only]
  · -- nothing stands in front of an option that asks for help alone
    obtain ⟨only, honly, heq⟩ := hlone
    obtain ⟨hrender, hoption⟩ : render entries = [] ∧ option :: rest = [only] := by
      simpa [List.append_eq_singleton_iff] using heq
    obtain rfl := render_eq_nil hrender
    rw [heq, read, if_pos honly]
    rfl
  · rw [not_exists] at hlone
    rw [read_eq_readFrom fun only honly heq => hlone only ⟨honly, heq⟩, readFrom_render_help _ h]

/-- An evaluation is numbered with the place where its option was written. -/
theorem mem_actionsAt_evaluate {position index : Nat} {entries : List Entry} {code : String}
    (h : .evaluate code index ∈ actionsAt position entries) :
    ∃ before after, entries = before ++ .evaluate code :: after ∧
      index = position + (render before).length := by
  induction entries generalizing position with
  | nil => cases h
  | cons entry entries ih =>
    rw [actionsAt, List.mem_append, Option.mem_toList] at h
    rcases h with hhere | hlater
    · obtain ⟨rfl, rfl⟩ := Entry.eq_of_action?_evaluate hhere
      exact ⟨[], entries, rfl, rfl⟩
    · obtain ⟨before, after, rfl, rfl⟩ := ih hlater
      refine ⟨entry :: before, after, rfl, ?_⟩
      rw [Nat.add_assoc, ← List.length_append]
      rfl

/-- Reading gives back what was written: the actions in their order, an evaluation numbered
with the place of its option, the flags that were said, and with a request for help the same,
whatever is behind it. Every list but a lone way to ask for help is read exactly if it is so
written. Any other is refused for its first option that is not known or lacks its parameter. -/
theorem read_inverts_render :
    (∀ entries, read (render entries) = .ok (requested entries)) ∧
    (∀ entries, ∀ option ∈ helpOptions, ∀ rest,
      read (render entries ++ option :: rest) = .ok { requested entries with help := true }) ∧
    (∀ entries code index, .evaluate code index ∈ (requested entries).actions →
      ∃ before after, entries = before ++ .evaluate code :: after ∧
        index = (render before).length + 1) ∧
    ∀ list, (∀ only ∈ loneHelp, list ≠ [only]) →
      ((∃ arguments, read list = .ok arguments) ↔ Understood list) ∧
      ∀ cause, read list = .error cause ↔ Refusal list cause cause.message := by
  refine ⟨read_render, fun entries option hhelp rest => read_render_help entries hhelp rest,
    fun entries code index h => ?_, fun list hlone => ?_⟩
  · obtain ⟨before, after, hentries, hindex⟩ := mem_actionsAt_evaluate h
    exact ⟨before, after, hentries, by rw [hindex, Nat.add_comm]⟩
  · -- a list is one or the other, and what is read of each excludes the other
    rw [read_eq_readFrom hlone]
    rcases understood_or_refusal list with h | ⟨cause, h⟩
    · obtain ⟨arguments, hread⟩ := h.readFrom
      refine ⟨iff_of_true ⟨arguments, hread⟩ h, fun cause => ⟨fun herror => ?_, fun hrefusal => ?_⟩⟩
      · cases hread.symm.trans herror
      · exact hrefusal.readFrom.1
    · have hread := h.readFrom.1
      refine ⟨⟨?_, Understood.readFrom⟩, fun other => ⟨fun herror => ?_, fun hrefusal => ?_⟩⟩
      · rintro ⟨arguments, hok⟩
        cases hread.symm.trans hok
      · obtain rfl := Except.error.inj (hread.symm.trans herror)
        exact h
      · exact hrefusal.readFrom.1

/-- The parameter of an option may look like an option, and only the last one here lacks its
own. -/
theorem read_inverts_render_odd :
    (∀ only ∈ loneHelp, ["-e", "-h", "-i", "-e", "-n", "-f"] ≠ [only]) ∧
    read ["-e", "-h", "-i", "-e", "-n", "-f"] = .error (.noParameter "-f") ∧
    (UsageError.noParameter "-f").message = "option -f has no parameter" := by
  have hlone : ∀ only ∈ loneHelp, ["-e", "-h", "-i", "-e", "-n", "-f"] ≠ [only] := by decide
  have hrefusal : Refusal ["-e", "-h", "-i", "-e", "-n", "-f"] (.noParameter "-f")
      "option -f has no parameter" :=
    .noParameter [.evaluate "-h", .openSession "-e", .noSettings] (by decide)
  exact ⟨hlone, ((read_inverts_render.2.2.2 _ hlone).2 _).mpr hrefusal, rfl⟩

end Arguments

end ScpiScript
