import ScpiScript.Proofs.Outcome
import ScpiScript.Proofs.Reference.Occurrence
import ScpiScript.Scope.Store
/-!
# What replacing references gives

Each reference of a text is replaced by its value's text, every other character is kept, and
what was put in is not looked at again: what is put for a character depends on the text as it
was.

- `Reference.PutFor` is what is put for the character at a place, and `Expands` the whole
  result. `Expands.unique`: there is one.
- `FirstFailure` is the error of the leftmost reference that cannot be read.
- `substitute_eq_ok_iff` and `substitute_eq_error_iff` are the two outcomes, and
  `substitute_replaces` puts them together.
-/

namespace ScpiScript.Reference

variable {textOf textOf' : String → Except ScopeError String} {text : List Char}
  {parts front back : List Segment} {name : List Char} {place : Nat} {e : ScopeError}

/-- What is put in the result for the character at a place of a text. -/
inductive PutFor (textOf : String → Except ScopeError String) (text : List Char) (place : Nat) :
    List Char → Prop
  | value {name : List Char} {value : String} (h : OccursAt text place name)
      (hvalue : textOf (String.ofList name) = .ok value) : PutFor textOf text place value.toList
  | inside {start : Nat} {name : List Char} (h : OccursAt text start name)
      (hbehind : start < place) (hbefore : place < start + width name) :
      PutFor textOf text place []
  | kept {c : Char} (hc : text[place]? = some c)
      (h : ∀ start name, OccursAt text start name →
        place < start ∨ start + width name ≤ place) : PutFor textOf text place [c]

/-- A text with every reference replaced: what is put for its characters, in order. -/
def Expands (textOf : String → Except ScopeError String) (text out : List Char) : Prop :=
  ∃ pieces : List (List Char), pieces.length = text.length ∧ out = pieces.flatten ∧
    ∀ place piece, pieces[place]? = some piece → PutFor textOf text place piece

/-- The error of the leftmost reference that cannot be read. -/
def FirstFailure (textOf : String → Except ScopeError String) (text : List Char)
    (e : ScopeError) : Prop :=
  ∃ place name, OccursAt text place name ∧ textOf (String.ofList name) = .error e ∧
    ∀ earlier other, OccursAt text earlier other → earlier < place →
      ∃ value, textOf (String.ofList other) = .ok value

/-! ## What is put for a character -/

/-- Where a reference begins, its value is put. -/
theorem PutFor.of_occursAt {piece : List Char} (h : PutFor textOf text place piece)
    (hoccurs : OccursAt text place name) :
    ∃ value, textOf (String.ofList name) = .ok value ∧ piece = value.toList := by
  cases h with
  | value h hvalue =>
    cases h.unique hoccurs
    exact ⟨_, hvalue, rfl⟩
  | inside h hbehind hbefore =>
    have hdisjoint := h.disjoint hoccurs hbehind
    omega
  | kept hc h =>
    have hoff := h _ _ hoccurs
    unfold width at hoff
    omega

theorem PutFor.unique {piece piece' : List Char} (h : PutFor textOf text place piece)
    (h' : PutFor textOf text place piece') : piece = piece' := by
  cases h' with
  | value hoccurs hvalue =>
    obtain ⟨value, hsame, rfl⟩ := h.of_occursAt hoccurs
    rw [hvalue] at hsame
    cases hsame
    rfl
  | inside h' hbehind hbefore =>
    cases h with
    | value h _ =>
      have hdisjoint := h'.disjoint h hbehind
      omega
    | inside => rfl
    | kept _ hapart =>
      have hoff := hapart _ _ h'
      omega
  | kept hc' hapart =>
    cases h with
    | value h _ =>
      have hoff := hapart _ _ h
      unfold width at hoff
      omega
    | inside h hbehind hbefore =>
      have hoff := hapart _ _ h
      omega
    | kept hc _ =>
      rw [hc] at hc'
      cases hc'
      rfl

/-- A text and its scope determine the result. -/
theorem Expands.unique {out out' : List Char} (h : Expands textOf text out)
    (h' : Expands textOf text out') : out = out' := by
  obtain ⟨pieces, hlength, rfl, hput⟩ := h
  obtain ⟨pieces', hlength', rfl, hput'⟩ := h'
  have hpieces : pieces = pieces' := by
    refine List.ext_getElem (hlength.trans hlength'.symm) ?_
    intro place hplace hplace'
    exact (hput place _ (List.getElem?_eq_getElem hplace)).unique
      (hput' place _ (List.getElem?_eq_getElem hplace'))
  rw [hpieces]

/-- A text that can be expanded has only references with a value. -/
theorem Expands.readable {out : List Char} (h : Expands textOf text out)
    (hoccurs : OccursAt text place name) :
    ∃ value, textOf (String.ofList name) = .ok value := by
  obtain ⟨pieces, hlength, -, hput⟩ := h
  have hplace : place < pieces.length := by
    rw [hlength]
    exact (List.getElem?_eq_some_iff.mp hoccurs.brace).1
  obtain ⟨value, hvalue, -⟩ :=
    (hput place _ (List.getElem?_eq_getElem hplace)).of_occursAt hoccurs
  exact ⟨value, hvalue⟩

/-! ## References among segments -/

theorem reference_mem_segments_iff :
    .reference name ∈ segments text ↔ ∃ place, OccursAt text place name := by
  constructor
  · intro h
    obtain ⟨front, back, hparts⟩ := List.append_of_mem h
    exact ⟨_, occursAt_iff_segments.mpr ⟨front, back, hparts, rfl⟩⟩
  · rintro ⟨place, h⟩
    obtain ⟨front, back, hparts, -⟩ := occursAt_iff_segments.mp h
    rw [hparts]
    exact List.mem_append_right front List.mem_cons_self

theorem PlacedAt.behind_le (h : PlacedAt front place name) :
    place + width name ≤ (render front).length := by
  obtain ⟨before, after, rfl, rfl⟩ := h
  simp only [render_append, render_cons, List.length_append, length_render_reference]
  omega

theorem PlacedAt.mem (h : PlacedAt front place name) : .reference name ∈ front := by
  obtain ⟨before, after, rfl, -⟩ := h
  exact List.mem_append_right before List.mem_cons_self

theorem placedAt_append_iff :
    PlacedAt (front ++ back) place name ↔
      PlacedAt front place name ∨
        ∃ later, place = (render front).length + later ∧ PlacedAt back later name := by
  induction front generalizing place with
  | nil => simp [PlacedAt]
  | cons part front ih =>
    rw [List.cons_append, placedAt_cons_iff, placedAt_cons_iff]
    constructor
    · rintro (hfirst | ⟨later, rfl, h⟩)
      · exact .inl (.inl hfirst)
      · rcases ih.mp h with hfront | ⟨last, rfl, hback⟩
        · exact .inl (.inr ⟨later, rfl, hfront⟩)
        · exact .inr ⟨last, by simp; omega, hback⟩
    · rintro ((hfirst | ⟨later, rfl, h⟩) | ⟨last, rfl, h⟩)
      · exact .inl hfirst
      · exact .inr ⟨later, rfl, ih.mpr (.inl h)⟩
      · have hback : PlacedAt (front ++ back) ((render front).length + last) name :=
          ih.mpr (.inr ⟨last, rfl, h⟩)
        exact .inr ⟨_, by simp; omega, hback⟩

/-! ## Filling segments -/

theorem fill_char (c : Char) (parts : List Segment) :
    fill textOf (.char c :: parts) = (fill textOf parts).map (c :: ·) := rfl

theorem fill_reference_ok {value : String} (h : textOf (String.ofList name) = .ok value)
    (parts : List Segment) :
    fill textOf (.reference name :: parts) = (fill textOf parts).map (value.toList ++ ·) := by
  simp only [fill, Segment.fill, h, Except.map]

theorem fill_reference_error (h : textOf (String.ofList name) = .error e)
    (parts : List Segment) : fill textOf (.reference name :: parts) = .error e := by
  simp only [fill, Segment.fill, h, Except.map]

/-- Filling stops at the first name that cannot be read. -/
theorem fill_eq_error (h : fill textOf parts = .error e) :
    ∃ front name back, parts = front ++ .reference name :: back ∧
      textOf (String.ofList name) = .error e ∧
      ∀ other, .reference other ∈ front → ∃ value, textOf (String.ofList other) = .ok value := by
  induction parts with
  | nil => cases h
  | cons part parts ih =>
    cases part with
    | char c =>
      obtain ⟨front, name, back, rfl, hname, hfront⟩ :=
        ih (map_eq_error_iff.mp (fill_char c parts ▸ h))
      refine ⟨.char c :: front, name, back, rfl, hname, fun other hmem => ?_⟩
      exact hfront other ((List.mem_cons.mp hmem).resolve_left nofun)
    | reference first =>
      rcases hfirst : textOf (String.ofList first) with e' | value
      · rw [fill_reference_error hfirst] at h
        cases h
        exact ⟨[], first, parts, rfl, hfirst, nofun⟩
      · rw [fill_reference_ok hfirst] at h
        obtain ⟨front, name, back, rfl, hname, hfront⟩ := ih (map_eq_error_iff.mp h)
        refine ⟨.reference first :: front, name, back, rfl, hname, fun other hmem => ?_⟩
        rcases List.mem_cons.mp hmem with heq | hmem
        · cases heq
          exact ⟨value, hfirst⟩
        · exact hfront other hmem

theorem fill_congr
    (h : ∀ name, .reference name ∈ parts →
      textOf (String.ofList name) = textOf' (String.ofList name)) :
    fill textOf parts = fill textOf' parts := by
  induction parts with
  | nil => rfl
  | cons part rest ih =>
    have hpart : part.fill textOf = part.fill textOf' := by
      cases part with
      | char c => rfl
      | reference name => rw [Segment.fill, Segment.fill, h name List.mem_cons_self]
    rw [fill, fill, hpart, ih fun name hname => h name (.tail part hname)]

/-! ## What is put for segments -/

/-- Pieces are put for the characters of a text from a place on. -/
def PutFrom (textOf : String → Except ScopeError String) (text : List Char) (start : Nat)
    (pieces : List (List Char)) : Prop :=
  ∀ i piece, pieces[i]? = some piece → PutFor textOf text (start + i) piece

theorem PutFrom.append {pieces more : List (List Char)} (h : PutFrom textOf text place pieces)
    (hmore : PutFrom textOf text (place + pieces.length) more) :
    PutFrom textOf text place (pieces ++ more) := by
  intro i piece hi
  rcases Nat.lt_or_ge i pieces.length with hlt | hge
  · rw [List.getElem?_append_left hlt] at hi
    exact h i piece hi
  · rw [List.getElem?_append_right hge] at hi
    have hlater := hmore _ piece hi
    rwa [Nat.add_assoc, Nat.add_sub_cancel' hge] at hlater

/-- A character that is a segment of its own is kept. -/
theorem putFrom_char {c : Char} (hparts : segments text = front ++ .char c :: back) :
    PutFrom textOf text (render front).length [[c]] := by
  intro i piece hi
  obtain ⟨rfl, rfl⟩ : i = 0 ∧ piece = [c] := by
    cases i with
    | zero => exact ⟨rfl, (Option.some.inj hi).symm⟩
    | succ i => simp at hi
  have htext : text = render front ++ c :: render back := by
    rw [← render_segments text, hparts, render_append, render_cons]
    rfl
  refine .kept (by rw [htext]; simp) fun start name hoccurs => ?_
  -- a reference lies among the segments before the character or among those behind it
  rw [occursAt_iff_segments, hparts, placedAt_append_iff] at hoccurs
  rcases hoccurs with h | ⟨later, rfl, h⟩
  · exact .inr h.behind_le
  · rcases placedAt_cons_iff.mp h with ⟨hpart, -⟩ | ⟨more, rfl, -⟩
    · cases hpart
    · have hwidth : (Segment.char c).render.length = 1 := rfl
      exact .inl (by omega)

/-- The value stands for the opening brace, and nothing for the rest of the reference. -/
theorem putFrom_reference {value : String} (h : OccursAt text place name)
    (hvalue : textOf (String.ofList name) = .ok value) :
    PutFrom textOf text place (value.toList :: List.replicate (name.length + 1) []) := by
  intro i piece hi
  cases i with
  | zero =>
    cases hi
    exact .value h hvalue
  | succ i =>
    rw [List.getElem?_cons_succ, List.getElem?_replicate] at hi
    split at hi
    · rename_i hlt
      cases hi
      exact .inside h (by omega) (by unfold width; omega)
    · cases hi

/-- What segments are filled with is put for the characters of the text at their places. -/
theorem exists_pieces {out : List Char} (hparts : segments text = front ++ parts)
    (hfill : fill textOf parts = .ok out) :
    ∃ pieces : List (List Char), pieces.length = (render parts).length ∧ out = pieces.flatten ∧
      PutFrom textOf text (render front).length pieces := by
  induction parts generalizing front out with
  | nil =>
    cases hfill
    exact ⟨[], rfl, rfl, fun i piece hi => by cases hi⟩
  | cons part parts ih =>
    have hnext : segments text = (front ++ [part]) ++ parts := by simp [hparts]
    have hbehind : (render (front ++ [part])).length =
        (render front).length + part.render.length := by simp
    cases part with
    | char c =>
      obtain ⟨rest, hrest, rfl⟩ := map_eq_ok_iff.mp (fill_char c parts ▸ hfill)
      obtain ⟨pieces, hlength, rfl, hput⟩ := ih hnext hrest
      rw [hbehind] at hput
      exact ⟨[[c]] ++ pieces, by simp [Segment.render, hlength], rfl,
        (putFrom_char hparts).append hput⟩
    | reference name =>
      have hoccurs : OccursAt text (render front).length name :=
        occursAt_iff_segments.mpr ⟨front, parts, hparts, rfl⟩
      rcases hname : textOf (String.ofList name) with e | value
      · rw [fill_reference_error hname] at hfill
        cases hfill
      rw [fill_reference_ok hname] at hfill
      obtain ⟨rest, hrest, rfl⟩ := map_eq_ok_iff.mp hfill
      obtain ⟨pieces, hlength, rfl, hput⟩ := ih hnext hrest
      have hwidth : (value.toList :: List.replicate (name.length + 1) []).length =
          (Segment.reference name).render.length := by
        rw [length_render_reference]
        simp [width]
      rw [hbehind, ← hwidth] at hput
      refine ⟨_, ?_, ?_, (putFrom_reference hoccurs hname).append hput⟩
      · rw [List.length_append, hwidth, hlength, render_cons, List.length_append]
      · simp

/-! ## The outcomes -/

theorem expands_of_fill {out : List Char} (h : fill textOf (segments text) = .ok out) :
    Expands textOf text out := by
  obtain ⟨pieces, hlength, hout, hput⟩ := exists_pieces (List.nil_append _).symm h
  rw [render_segments] at hlength
  refine ⟨pieces, hlength, hout, fun place piece hpiece => ?_⟩
  simpa using hput place piece hpiece

theorem firstFailure_of_fill (h : fill textOf (segments text) = .error e) :
    FirstFailure textOf text e := by
  obtain ⟨front, name, back, hparts, hname, hfront⟩ := fill_eq_error h
  refine ⟨(render front).length, name, occursAt_iff_segments.mpr ⟨front, back, hparts, rfl⟩,
    hname, fun earlier other hoccurs hlt => hfront other ?_⟩
  rw [occursAt_iff_segments, hparts, placedAt_append_iff] at hoccurs
  rcases hoccurs with h | ⟨later, rfl, -⟩
  · exact h.mem
  · omega

theorem FirstFailure.unique {e' : ScopeError} (h : FirstFailure textOf text e)
    (h' : FirstFailure textOf text e') : e = e' := by
  obtain ⟨place, name, hoccurs, hname, hbefore⟩ := h
  obtain ⟨place', name', hoccurs', hname', hbefore'⟩ := h'
  rcases Nat.lt_trichotomy place place' with hlt | rfl | hlt
  · obtain ⟨value, hvalue⟩ := hbefore' place name hoccurs hlt
    rw [hname] at hvalue
    cases hvalue
  · cases hoccurs.unique hoccurs'
    rw [hname] at hname'
    exact Except.error.inj hname'
  · obtain ⟨value, hvalue⟩ := hbefore place' name' hoccurs' hlt
    rw [hname'] at hvalue
    cases hvalue

/-- A text that can be expanded does not fail. -/
theorem Expands.not_firstFailure {out : List Char} (h : Expands textOf text out) :
    ¬ FirstFailure textOf text e := by
  rintro ⟨place, name, hoccurs, hname, -⟩
  obtain ⟨value, hvalue⟩ := h.readable hoccurs
  rw [hname] at hvalue
  cases hvalue

/-- Each text is expanded or has a first failure, and the substitution says which. -/
theorem substitute_cases (textOf : String → Except ScopeError String) (text : String) :
    (∃ out, substitute textOf text = .ok out ∧ Expands textOf text.toList out.toList) ∨
      ∃ e, substitute textOf text = .error e ∧ FirstFailure textOf text.toList e := by
  unfold substitute
  rcases hfill : fill textOf (segments text.toList) with e | out
  · exact .inr ⟨e, rfl, firstFailure_of_fill hfill⟩
  · refine .inl ⟨String.ofList out, rfl, ?_⟩
    rw [String.toList_ofList]
    exact expands_of_fill hfill

theorem substitute_eq_ok_iff {text out : String} :
    substitute textOf text = .ok out ↔ Expands textOf text.toList out.toList := by
  rcases substitute_cases textOf text with ⟨out', hok, hexpands⟩ | ⟨e, herror, hfailure⟩
  · rw [hok]
    constructor
    · intro h
      cases h
      exact hexpands
    · intro h
      rw [String.toList_inj.mp (hexpands.unique h)]
  · rw [herror]
    exact iff_of_false nofun fun h => h.not_firstFailure hfailure

theorem substitute_eq_error_iff {text : String} :
    substitute textOf text = .error e ↔ FirstFailure textOf text.toList e := by
  rcases substitute_cases textOf text with ⟨out, hok, hexpands⟩ | ⟨e', herror, hfailure⟩
  · rw [hok]
    exact iff_of_false nofun hexpands.not_firstFailure
  · rw [herror]
    constructor
    · intro h
      cases h
      exact hfailure
    · intro h
      rw [hfailure.unique h]

theorem exists_substitute_iff {text : String} :
    (∃ out, substitute textOf text = .ok out) ↔
      ∀ place name, OccursAt text.toList place name →
        ∃ value, textOf (String.ofList name) = .ok value := by
  constructor
  · rintro ⟨out, h⟩ place name hoccurs
    exact (substitute_eq_ok_iff.mp h).readable hoccurs
  · intro h
    rcases substitute_cases textOf text with ⟨out, hok, -⟩ | ⟨e, -, place, name, hoccurs, he, -⟩
    · exact ⟨out, hok⟩
    · obtain ⟨value, hvalue⟩ := h place name hoccurs
      rw [he] at hvalue
      cases hvalue

theorem substitute_congr {text : String}
    (h : ∀ place name, OccursAt text.toList place name →
      textOf (String.ofList name) = textOf' (String.ofList name)) :
    substitute textOf text = substitute textOf' text := by
  unfold substitute
  rw [fill_congr fun name hname => ?_]
  obtain ⟨place, hoccurs⟩ := reference_mem_segments_iff.mp hname
  exact h place name hoccurs

theorem textFor_eq_ok_iff {name value : String} {bound : Option ScopeValue} :
    ScopeValue.textFor name bound = .ok value ↔ ∃ v, bound = some v ∧ v.toText? = some value := by
  cases bound with
  | none => simp [ScopeValue.textFor]
  | some v => cases htext : v.toText? <;> simp [ScopeValue.textFor, htext]

/-- References never overlap. A text is expanded exactly if every name in it is bound to a
value with a text form; the result has the text of its value for each reference and every
other character as it was. Otherwise the error is that of the leftmost reference that fails.
Nothing but the names in the text is asked of the scope. -/
theorem substitute_replaces {σ : Type} [Scope σ] (scope : σ) (text : String) :
    (∀ place name later other, OccursAt text.toList place name →
      OccursAt text.toList later other → place < later → place + width name ≤ later) ∧
    ((∃ out, substitute (Scope.textOf scope) text = .ok out) ↔
      ∀ place name, OccursAt text.toList place name →
        ∃ value t, Scope.lookup scope (String.ofList name) = some value ∧
          value.toText? = some t) ∧
    (∀ out, substitute (Scope.textOf scope) text = .ok out ↔
      Expands (Scope.textOf scope) text.toList out.toList) ∧
    (∀ e, substitute (Scope.textOf scope) text = .error e ↔
      FirstFailure (Scope.textOf scope) text.toList e) ∧
    ∀ {σ' : Type} [Scope σ'] (scope' : σ'),
      (∀ place name, OccursAt text.toList place name →
        Scope.lookup scope (String.ofList name) = Scope.lookup scope' (String.ofList name)) →
      substitute (Scope.textOf scope) text = substitute (Scope.textOf scope') text := by
  refine ⟨fun place name later other h h' hlt => h.disjoint h' hlt, ?_,
    fun out => substitute_eq_ok_iff, fun e => substitute_eq_error_iff, ?_⟩
  · rw [exists_substitute_iff]
    refine forall_congr' fun place => forall_congr' fun name => imp_congr_right fun _ => ?_
    simp only [Scope.textOf, textFor_eq_ok_iff]
    exact exists_comm
  · intro σ' _ scope' hsame
    refine substitute_congr fun place name hoccurs => ?_
    rw [Scope.textOf, Scope.textOf, hsame place name hoccurs]

/-- A name whose value looks like a reference. -/
def nestedScope : Store := (Store.empty.set "b" (.text "{c}")).set "c" (.text "2")

theorem substitute_replaces_nested :
    -- an aborted match, an unmatched brace, and a value that is not expanded in turn
    Expands (Scope.textOf nestedScope) "\x7ba{b}\x7b{c}".toList "\x7ba{c}\x7b2".toList ∧
      -- of two names that are not bound the left one is told of
      FirstFailure (Scope.textOf nestedScope) "{b}{d}{e}".toList (.undefined "d") := by
  obtain ⟨-, -, hok, -, -⟩ := substitute_replaces nestedScope "\x7ba{b}\x7b{c}"
  obtain ⟨-, -, -, herror, -⟩ := substitute_replaces nestedScope "{b}{d}{e}"
  exact ⟨(hok _).mp (by decide +kernel), (herror _).mp (by decide +kernel)⟩

end ScpiScript.Reference
