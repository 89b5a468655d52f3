import ScpiScript.Proofs.Reference.Substitution
import ScpiScript.Proofs.Script.Action
/-!
# The reference at the end of a text

A line that sends samples may name its vector by a reference at its very end. The rest of the
line is a text of its own: cutting at the opening brace takes no other reference apart and
makes no new one.

- `segments_append_brace`: a text can be cut at any opening brace.
- `Reference.EndsIn` is a text with a reference at its end, and `substitute_of_endsIn` expands
  it in two parts.
- `perform_sampleBlock_of_endsIn` is what a line that names its vector sends.
- `splitTail_exact` is the whole of it.
-/

namespace ScpiScript

namespace Reference

open Text

/-- A text that ends in a reference: what stands before it, and the name. -/
structure EndsIn (text rest name : String) : Prop where
  split : text.toList = rest.toList ++ '{' :: name.toList ++ ['}']
  nonempty : name ≠ ""
  word : ∀ c ∈ name.toList, isWord c = true

/-! ## Cutting at an opening brace -/

/-- No name reaches over an opening brace. -/
theorem name?_append_brace (front back : List Char) :
    name? (front ++ '{' :: back) =
      (name? front).map fun found => (found.1, found.2 ++ '{' :: back) := by
  rcases hfront : name? front with _ | ⟨name, rest⟩
  · rcases hwhole : name? (front ++ '{' :: back) with _ | ⟨name, rest⟩
    · rfl
    exfalso
    obtain ⟨hsplit, hne, hword⟩ := name?_eq_some_iff.mp hwhole
    rcases List.append_eq_append_iff.mp hsplit with ⟨more, rfl, hmore⟩ | ⟨more, rfl, hmore⟩
    · -- the brace would stand in the name or close it
      cases more with
      | nil => exact absurd (List.cons.inj hmore).1 (by decide)
      | cons c more =>
        obtain ⟨rfl, -⟩ := List.cons.inj hmore
        have hbrace := hword '{' (List.mem_append_right front List.mem_cons_self)
        rw [isWord_brace.1] at hbrace
        cases hbrace
    · cases more with
      | nil => exact absurd (List.cons.inj hmore).1 (by decide)
      | cons c more =>
        obtain ⟨rfl, -⟩ := List.cons.inj hmore
        rw [name?_eq_some_iff.mpr ⟨rfl, hne, hword⟩] at hfront
        cases hfront
  · obtain ⟨rfl, hne, hword⟩ := name?_eq_some_iff.mp hfront
    exact name?_eq_some_iff.mpr ⟨by simp, hne, hword⟩

theorem segments_brace_some {cs name rest : List Char} (h : name? cs = some (name, rest)) :
    segments ('{' :: cs) = .reference name :: segments rest := by
  rw [segments, if_pos rfl]
  split
  · rename_i hfound
    rw [h] at hfound
    cases hfound
    rfl
  · rename_i hfound
    rw [h] at hfound
    cases hfound

theorem segments_brace_none {cs : List Char} (h : name? cs = none) :
    segments ('{' :: cs) = .char '{' :: segments cs := by
  rw [segments, if_pos rfl]
  split
  · rename_i hfound
    rw [h] at hfound
    cases hfound
  · rfl

theorem segments_of_ne {c : Char} (h : c ≠ '{') (cs : List Char) :
    segments (c :: cs) = .char c :: segments cs := by
  rw [segments, if_neg h]

/-- A text without an opening brace stands for itself. -/
theorem substitute_of_notMem (textOf : String → Except ScopeError String) {text : String}
    (h : '{' ∉ text.toList) : substitute textOf text = .ok text := by
  have hfill : ∀ cs : List Char, '{' ∉ cs → fill textOf (segments cs) = .ok cs := by
    intro cs hcs
    induction cs with
    | nil => rw [segments, fill]
    | cons c cs ih =>
      rw [List.mem_cons, not_or] at hcs
      rw [segments_of_ne (Ne.symm hcs.1), fill_char, ih hcs.2]
      rfl
  rw [substitute, hfill _ h, Except.map, String.ofList_toList]

theorem segments_append_brace (front back : List Char) :
    segments (front ++ '{' :: back) = segments front ++ segments ('{' :: back) := by
  fun_induction segments front with
  | case1 => rfl
  | case2 cs name rest hname ih =>
    have hlater : name? (cs ++ '{' :: back) = some (name, rest ++ '{' :: back) := by
      rw [name?_append_brace, hname]
      rfl
    rw [List.cons_append, segments_brace_some hlater, ih]
    rfl
  | case3 cs hname ih =>
    have hlater : name? (cs ++ '{' :: back) = none := by
      rw [name?_append_brace, hname]
      rfl
    rw [List.cons_append, segments_brace_none hlater, ih]
    rfl
  | case4 c cs hc ih =>
    rw [List.cons_append, segments_of_ne hc, ih]
    rfl

/-! ## A text that ends in a reference -/

namespace EndsIn

variable {text rest name rest' name' : String}

theorem tail?_eq (h : EndsIn text rest name) :
    tail? text.toList = some (rest.toList, name.toList) := by
  refine tail?_eq_some_iff.mpr ⟨h.split, ?_, h.word⟩
  intro hnil
  exact h.nonempty (String.toList_eq_nil_iff.mp hnil)

theorem unique (h : EndsIn text rest name) (h' : EndsIn text rest' name') :
    rest = rest' ∧ name = name' := by
  have hsame := h.tail?_eq.symm.trans h'.tail?_eq
  obtain ⟨hrest, hname⟩ := Prod.mk.inj (Option.some.inj hsame)
  exact ⟨String.toList_inj.mp hrest, String.toList_inj.mp hname⟩

theorem segments_eq (h : EndsIn text rest name) :
    segments text.toList = segments rest.toList ++ [.reference name.toList] := by
  have hname : name? (name.toList ++ ['}']) = some (name.toList, []) := by
    refine name?_eq_some_iff.mpr ⟨rfl, ?_, h.word⟩
    intro hnil
    exact h.nonempty (String.toList_eq_nil_iff.mp hnil)
  rw [h.split, List.append_assoc, List.cons_append, segments_append_brace,
    segments_brace_some hname, segments]

/-- The references of the text are those of the rest, and the last one. -/
theorem occursAt_iff (h : EndsIn text rest name) {place : Nat} {other : List Char} :
    OccursAt text.toList place other ↔
      OccursAt rest.toList place other ∨ place = rest.length ∧ other = name.toList := by
  have hlength : (render (segments rest.toList)).length = rest.length := by
    rw [render_segments, String.length_toList]
  rw [occursAt_iff_segments, h.segments_eq, placedAt_append_iff, ← occursAt_iff_segments,
    hlength]
  refine or_congr_right ?_
  constructor
  · rintro ⟨later, rfl, hlast⟩
    rcases placedAt_cons_iff.mp hlast with ⟨hpart, rfl⟩ | ⟨more, -, front, back, hnil, -⟩
    · cases hpart
      exact ⟨rfl, rfl⟩
    · simp at hnil
  · rintro ⟨rfl, rfl⟩
    exact ⟨0, rfl, [], [], rfl, rfl⟩

end EndsIn

theorem splitTail_of_endsIn {text rest name : String} (h : EndsIn text rest name)
    (default : String) : splitTail text default = (rest, name) := by
  rw [splitTail, h.tail?_eq]
  simp

theorem splitTail_of_not_endsIn {text : String} (h : ∀ rest name, ¬ EndsIn text rest name)
    (default : String) : splitTail text default = (text, default) := by
  unfold splitTail
  rcases htail : tail? text.toList with _ | ⟨rest, name⟩
  · rfl
  exfalso
  obtain ⟨hsplit, hne, hword⟩ := tail?_eq_some_iff.mp htail
  refine h (String.ofList rest) (String.ofList name) ⟨?_, ?_, by simpa using hword⟩
  · simp [hsplit]
  · intro hempty
    exact hne (by simpa using congrArg String.toList hempty)

/-- A closing brace that is not the last character closes no reference at the end. -/
theorem not_endsIn_lineFeed (text rest name : String) : ¬ EndsIn (text ++ "\n") rest name := by
  intro h
  have hsame : text.toList ++ ['\n'] = rest.toList ++ '{' :: name.toList ++ ['}'] := by
    rw [← h.split, String.toList_append]
    rfl
  have hlast := congrArg List.getLast? hsame
  rw [List.getLast?_concat, List.getLast?_concat] at hlast
  exact absurd (Option.some.inj hlast) (by decide)

theorem fill_append_reference (textOf : String → Except ScopeError String)
    (front : List Segment) (name : List Char) :
    fill textOf (front ++ [.reference name]) = (do
      let lead ← fill textOf front
      let value ← textOf (String.ofList name)
      return lead ++ value.toList) := by
  induction front with
  | nil =>
    rw [List.nil_append]
    rcases hname : textOf (String.ofList name) with e | value
    · rw [fill_reference_error hname]
      rfl
    · rw [fill_reference_ok hname]
      simp [fill, Except.map]
      rfl
  | cons part front ih =>
    rw [List.cons_append, fill, fill, ih]
    rcases part.fill textOf with e | cs
    · rfl
    rcases fill textOf front with e | lead
    · rfl
    rcases textOf (String.ofList name) with e | value
    · rfl
    exact congrArg _ (List.append_assoc cs lead value.toList).symm

/-- A text that ends in a reference is expanded before it, and then the value follows. -/
theorem substitute_of_endsIn {text rest name : String} (h : EndsIn text rest name)
    (textOf : String → Except ScopeError String) :
    substitute textOf text = (do
      let lead ← substitute textOf rest
      let value ← textOf name
      return lead ++ value) := by
  unfold substitute
  rw [h.segments_eq, fill_append_reference, String.ofList_toList]
  rcases fill textOf (segments rest.toList) with e | lead
  · rfl
  rcases textOf name with e | value
  · rfl
  refine congrArg Except.ok ?_
  rw [String.ofList_append, String.ofList_toList]

end Reference

/-! ## The line that sends a vector -/

open Reference

/-- A line that ends in a reference sends the vector that it names, behind the rest of the
line with its references replaced. -/
theorem Interpreter.perform_sampleBlock_of_endsIn {ε τ : Type} [Engine ε] [Link τ]
    {text rest name lead : String} {samples : List Binary32} {r : Interpreter ε τ}
    (h : EndsIn text rest name) (hopen : r.instrument.isOpen = true)
    (hvector : Scope.vectorOf r.engine name = .ok samples)
    (hlead : substitute (Scope.textOf r.engine) rest = .ok lead)
    (runFile : String → RunM ε τ Unit) (tag : String) (line : Nat) :
    perform runFile tag ⟨some (.sampleBlock text), line⟩ r =
      (reporting (Instrument.sendBlock lead samples) >>= fun _ => pure true) r := by
  have hsend : whenOpen (sendVector text) r = reporting (Instrument.sendBlock lead samples) r := by
    rw [whenOpen_eq, if_pos hopen, sendVector_eq, splitTail_of_endsIn h]
    simp only [hvector, hlead]
  rw [perform_eq runFile tag (by simp)]
  show (whenOpen (sendVector text) >>= fun _ => pure true) r = _
  rcases hsent : reporting (Instrument.sendBlock lead samples) r with ⟨_, r'⟩ | ⟨e, r'⟩
  · rw [bind_of_ok hsent, bind_of_ok (hsend.trans hsent)]
  · rw [bind_of_error hsent, bind_of_error (hsend.trans hsent)]

/-- A reference at the end of a text is split off: what is left and the name are the one way
in which the text ends in a reference, so of several the last is taken, and a line feed behind
it hides it. Without one the text stays whole and the name is the default. The rest holds all
other references at their places, and the text is expanded as the rest and then the value. So
a line that sends the named vector sends it behind the rest with every reference replaced. -/
theorem Reference.splitTail_exact (text default : String) :
    (∀ rest name, EndsIn text rest name → splitTail text default = (rest, name)) ∧
    ((∀ rest name, ¬ EndsIn text rest name) → splitTail text default = (text, default)) ∧
    (∀ rest name rest' name', EndsIn text rest name → EndsIn text rest' name' →
      rest = rest' ∧ name = name') ∧
    splitTail (text ++ "\n") default = (text ++ "\n", default) ∧
    ∀ rest name, EndsIn text rest name →
      (∀ place other, OccursAt text.toList place other ↔
        OccursAt rest.toList place other ∨ place = rest.length ∧ other = name.toList) ∧
      (∀ {σ : Type} [Scope σ] (scope : σ), substitute (Scope.textOf scope) text = (do
        let lead ← substitute (Scope.textOf scope) rest
        let value ← Scope.textOf scope name
        return lead ++ value)) ∧
      ∀ {ε τ : Type} [Engine ε] [Link τ] (r : Interpreter ε τ) (samples : List Binary32),
        r.instrument.isOpen = true → Scope.vectorOf r.engine name = .ok samples →
        (∀ place other, OccursAt rest.toList place other →
          ∃ value, Scope.textOf r.engine (String.ofList other) = .ok value) →
        ∃ lead, Expands (Scope.textOf r.engine) rest.toList lead.toList ∧
          ∀ runFile tag line,
            Interpreter.perform runFile tag ⟨some (.sampleBlock text), line⟩ r =
              (Interpreter.reporting (Instrument.sendBlock lead samples) >>=
                fun _ => pure true) r := by
  refine ⟨fun rest name h => splitTail_of_endsIn h default,
    fun h => splitTail_of_not_endsIn h default, fun _ _ _ _ h h' => h.unique h',
    splitTail_of_not_endsIn (not_endsIn_lineFeed text) default, fun rest name h => ?_⟩
  refine ⟨fun place other => h.occursAt_iff, fun scope => substitute_of_endsIn h _, ?_⟩
  intro ε τ _ _ r samples hopen hvector hreadable
  obtain ⟨lead, hlead⟩ := exists_substitute_iff.mpr hreadable
  exact ⟨lead, substitute_eq_ok_iff.mp hlead,
    Interpreter.perform_sampleBlock_of_endsIn h hopen hvector hlead⟩

/-- A run in which a channel and a vector have names. -/
def readyToSendWave : Interpreter Store MemoryLink :=
  .new ((Store.empty.set "ch" (.text "2")).set "wave" (.vector [⟨0⟩]))
    ((Instrument.new .little).attached "scope" .fresh)

theorem Reference.splitTail_exact_wave :
    EndsIn "SOUR{ch}:ARB\x7ba{wave}" "SOUR{ch}:ARB\x7ba" "wave" ∧
      splitTail "SOUR{ch}:ARB\x7ba{wave}" "samples" = ("SOUR{ch}:ARB\x7ba", "wave") ∧
      ∃ lead, Expands (Scope.textOf readyToSendWave.engine) "SOUR{ch}:ARB\x7ba".toList
          (String.toList lead) ∧
        ∀ runFile tag line,
          Interpreter.perform runFile tag ⟨some (.sampleBlock "SOUR{ch}:ARB\x7ba{wave}"), line⟩
              readyToSendWave =
            (Interpreter.reporting (Instrument.sendBlock lead [⟨0⟩]) >>=
              fun _ => pure true) readyToSendWave := by
  have hends : EndsIn "SOUR{ch}:ARB\x7ba{wave}" "SOUR{ch}:ARB\x7ba" "wave" :=
    ⟨by decide, by decide, List.all_eq_true.mp (by decide)⟩
  have hlead : substitute (Scope.textOf readyToSendWave.engine) "SOUR{ch}:ARB\x7ba" =
      .ok "SOUR2:ARB\x7ba" := by
    decide +kernel
  obtain ⟨hsplit, -, -, -, hlast⟩ := splitTail_exact "SOUR{ch}:ARB\x7ba{wave}" "samples"
  obtain ⟨-, -, hsend⟩ := hlast _ _ hends
  exact ⟨hends, hsplit _ _ hends,
    hsend readyToSendWave [⟨0⟩] rfl rfl (exists_substitute_iff.mp ⟨_, hlead⟩)⟩

end ScpiScript
