import Mathlib.Data.List.TakeWhile
import ScpiScript.Reference
/-!
# Where references stand in a text

A reference stands in a text wherever an opening brace, one or more word characters and a
closing brace follow each other, whatever stands around them. This says nothing of how a text
is scanned; it is what the segments of the text are held against.

- `Reference.OccursAt` is a reference behind so many characters of a text, and
  `OccursAt.disjoint` says that two of them never overlap.
- `occursAt_iff_segments`: the segments of a text are its references, each at its place.
- `name?_eq_some_iff` and `tail?_eq_some_iff` say which characters are read as a reference at
  the beginning and at the end.
-/

namespace ScpiScript.Reference

open Text

/-- A reference to a name stands behind so many characters of a text. -/
structure OccursAt (text : List Char) (place : Nat) (name : List Char) : Prop where
  nonempty : name ≠ []
  word : ∀ c ∈ name, isWord c = true
  stands : '{' :: name ++ ['}'] <+: text.drop place

/-- The characters from an opening brace to the closing one. -/
def width (name : List Char) : Nat := name.length + 2

theorem length_render_reference (name : List Char) :
    (Segment.reference name).render.length = width name := by
  simp [Segment.render, width]

@[simp] theorem render_nil : render [] = [] := rfl

@[simp] theorem render_cons (part : Segment) (parts : List Segment) :
    render (part :: parts) = part.render ++ render parts := rfl

@[simp] theorem render_append (front back : List Segment) :
    render (front ++ back) = render front ++ render back := by
  simp [render]

/-! ## One reference -/

theorem isWord_brace : isWord '{' = false ∧ isWord '}' = false := by decide

/-- The word characters before a character of another kind. -/
theorem span_word {name : List Char} (h : ∀ c ∈ name, isWord c = true) {c : Char}
    (hc : isWord c = false) (rest : List Char) :
    (name ++ c :: rest).takeWhile isWord = name ∧
      (name ++ c :: rest).dropWhile isWord = c :: rest := by
  rw [List.takeWhile_append_of_pos h, List.dropWhile_append_of_pos h]
  simp [hc]

/-- What is read as a name behind an opening brace. -/
theorem name?_eq_some_iff {cs name rest : List Char} :
    name? cs = some (name, rest) ↔
      cs = name ++ '}' :: rest ∧ name ≠ [] ∧ ∀ c ∈ name, isWord c = true := by
  constructor
  · intro h
    unfold name? at h
    split at h
    · rename_i tail hdrop
      split at h
      · cases h
      · rename_i hne
        obtain ⟨rfl, rfl⟩ := Prod.mk.inj (Option.some.inj h)
        refine ⟨?_, hne, fun c hc => List.mem_takeWhile_imp hc⟩
        rw [← hdrop, List.takeWhile_append_dropWhile]
    · cases h
  · rintro ⟨rfl, hne, hword⟩
    obtain ⟨htake, hdrop⟩ := span_word hword isWord_brace.2 rest
    simp only [name?, hdrop, htake, if_neg hne]

/-- What is read as a reference at the end of a text. -/
theorem tail?_eq_some_iff {cs rest name : List Char} :
    tail? cs = some (rest, name) ↔
      cs = rest ++ '{' :: name ++ ['}'] ∧ name ≠ [] ∧ ∀ c ∈ name, isWord c = true := by
  constructor
  · intro h
    unfold tail? at h
    split at h
    · rename_i back hback
      split at h
      · rename_i front hdrop
        split at h
        · cases h
        · rename_i hne
          obtain ⟨rfl, rfl⟩ := Prod.mk.inj (Option.some.inj h)
          have hsplit : back = back.takeWhile isWord ++ '{' :: front := by
            rw [← hdrop, List.takeWhile_append_dropWhile]
          refine ⟨?_, by simpa using hne, fun c hc => ?_⟩
          · have hcs := congrArg List.reverse hback
            rw [List.reverse_reverse, hsplit] at hcs
            simpa using hcs
          · exact List.mem_takeWhile_imp (List.mem_reverse.mp hc)
      · cases h
    · cases h
  · rintro ⟨rfl, hne, hword⟩
    have hback : (rest ++ '{' :: name ++ ['}']).reverse =
        '}' :: (name.reverse ++ '{' :: rest.reverse) := by simp
    have hreverse : ∀ c ∈ name.reverse, isWord c = true := fun c hc =>
      hword c (List.mem_reverse.mp hc)
    obtain ⟨htake, hdrop⟩ := span_word hreverse isWord_brace.1 rest.reverse
    simp only [tail?, hback, htake, hdrop, List.reverse_eq_nil_iff, if_neg hne,
      List.reverse_reverse]

namespace OccursAt

variable {text name other : List Char} {place later : Nat}

/-- Only one name is referred to at a place. -/
theorem unique (h : OccursAt text place name) (h' : OccursAt text place other) :
    name = other := by
  obtain ⟨after, hafter⟩ := h.stands
  obtain ⟨after', hafter'⟩ := h'.stands
  rw [← hafter', List.cons_append, List.cons_append, List.cons_append, List.cons_append] at hafter
  have hrest := (List.cons.inj hafter).2
  rw [List.append_assoc, List.append_assoc] at hrest
  have htake := congrArg (List.takeWhile isWord) hrest
  rwa [List.singleton_append, List.singleton_append, (span_word h.word isWord_brace.2 _).1,
    (span_word h'.word isWord_brace.2 _).1] at htake

/-- No opening brace stands inside a reference. -/
theorem not_brace (h : OccursAt text place name) {k : Nat} (hpos : 0 < k)
    (hk : k < width name) : text[place + k]? ≠ some '{' := by
  obtain ⟨after, hafter⟩ := h.stands
  obtain ⟨i, rfl⟩ : ∃ i, k = i + 1 := ⟨k - 1, by omega⟩
  have hi : i < (name ++ ['}']).length := by
    unfold width at hk
    simp
    omega
  rw [← List.getElem?_drop, ← hafter, List.cons_append, List.cons_append,
    List.getElem?_cons_succ, List.getElem?_append_left hi, List.getElem?_eq_getElem hi]
  intro hbrace
  have hmem : '{' ∈ name ++ ['}'] := Option.some.inj hbrace ▸ List.getElem_mem hi
  rcases List.mem_append.mp hmem with hname | hclose
  · exact absurd (h.word _ hname) (by simp [isWord_brace])
  · exact absurd (List.mem_singleton.mp hclose) (by decide)

theorem brace (h : OccursAt text place name) : text[place]? = some '{' := by
  obtain ⟨after, hafter⟩ := h.stands
  have hget : (text.drop place)[0]? = some '{' := by rw [← hafter]; rfl
  rwa [List.getElem?_drop, Nat.add_zero] at hget

/-- References never overlap: a later one begins behind the closing brace. -/
theorem disjoint (h : OccursAt text place name) (h' : OccursAt text later other)
    (hlt : place < later) : place + width name ≤ later := by
  refine Nat.not_lt.mp fun hover => ?_
  refine h.not_brace (k := later - place) (by omega) (by omega) ?_
  rw [Nat.add_sub_cancel' (Nat.le_of_lt hlt)]
  exact h'.brace

end OccursAt

theorem not_occursAt_nil {place : Nat} {name : List Char} : ¬ OccursAt [] place name := by
  intro h
  have hbrace := h.brace
  simp at hbrace

theorem occursAt_zero_iff {cs name : List Char} :
    OccursAt ('{' :: cs) 0 name ↔ ∃ rest, name? cs = some (name, rest) := by
  constructor
  · intro h
    obtain ⟨rest, hrest⟩ := h.stands
    refine ⟨rest, name?_eq_some_iff.mpr ⟨?_, h.nonempty, h.word⟩⟩
    simpa using hrest.symm
  · rintro ⟨rest, h⟩
    obtain ⟨rfl, hne, hword⟩ := name?_eq_some_iff.mp h
    exact ⟨hne, hword, rest, by simp⟩

theorem occursAt_append_iff {front text name : List Char} {place : Nat} :
    OccursAt (front ++ text) (front.length + place) name ↔ OccursAt text place name := by
  have hdrop : (front ++ text).drop (front.length + place) = text.drop place := by simp
  constructor
  · intro h
    exact ⟨h.nonempty, h.word, hdrop ▸ h.stands⟩
  · intro h
    exact ⟨h.nonempty, h.word, hdrop.symm ▸ h.stands⟩

/-! ## The segments of a text -/

/-- The segments are the whole text. -/
theorem render_segments (text : List Char) : render (segments text) = text := by
  fun_induction segments text with
  | case1 => rfl
  | case2 cs name rest hname ih =>
    obtain ⟨rfl, -, -⟩ := name?_eq_some_iff.mp hname
    simp [Segment.render, ih]
  | case3 cs hname ih => simp [Segment.render, ih]
  | case4 c cs hc ih => simp [Segment.render, ih]

/-- A reference among segments, behind segments of so many characters. -/
def PlacedAt (parts : List Segment) (place : Nat) (name : List Char) : Prop :=
  ∃ front back, parts = front ++ .reference name :: back ∧ (render front).length = place

theorem placedAt_cons_iff {part : Segment} {parts : List Segment} {place : Nat}
    {name : List Char} :
    PlacedAt (part :: parts) place name ↔
      (part = .reference name ∧ place = 0) ∨
        ∃ later, place = part.render.length + later ∧ PlacedAt parts later name := by
  constructor
  · rintro ⟨front, back, hparts, rfl⟩
    cases front with
    | nil => exact .inl ⟨(List.cons.inj hparts).1, rfl⟩
    | cons first front =>
      obtain ⟨rfl, rfl⟩ := List.cons.inj hparts
      exact .inr ⟨(render front).length, by simp, front, back, rfl, rfl⟩
  · rintro (⟨rfl, rfl⟩ | ⟨later, rfl, front, back, rfl, rfl⟩)
    · exact ⟨[], parts, rfl, rfl⟩
    · exact ⟨part :: front, back, rfl, by simp⟩

/-- The segments of a text are its references, each at its place. -/
theorem occursAt_iff_segments {text name : List Char} {place : Nat} :
    OccursAt text place name ↔ PlacedAt (segments text) place name := by
  -- where no reference begins, the search goes on one character later
  have hnext : ∀ {c : Char} {cs : List Char} {place : Nat},
      (∀ name, ¬ OccursAt (c :: cs) 0 name) →
      (∀ {place}, OccursAt cs place name ↔ PlacedAt (segments cs) place name) →
      (OccursAt (c :: cs) place name ↔ PlacedAt (.char c :: segments cs) place name) := by
    intro c cs place hnone ih
    have hshift : ∀ later, OccursAt (c :: cs) (1 + later) name ↔ OccursAt cs later name :=
      fun later => @occursAt_append_iff [c] cs name later
    rw [placedAt_cons_iff]
    constructor
    · intro h
      cases place with
      | zero => exact absurd h (hnone name)
      | succ later =>
        rw [Nat.add_comm, hshift] at h
        exact .inr ⟨later, Nat.add_comm later 1, ih.mp h⟩
    · rintro (⟨hpart, -⟩ | ⟨later, rfl, h⟩)
      · cases hpart
      · exact (hshift later).mpr (ih.mpr h)
  fun_induction segments text generalizing place with
  | case1 =>
    refine iff_of_false not_occursAt_nil ?_
    rintro ⟨front, back, hparts, -⟩
    simp at hparts
  | case2 cs found rest hname ih =>
    have hfirst : OccursAt ('{' :: cs) 0 found := occursAt_zero_iff.mpr ⟨rest, hname⟩
    have htext : '{' :: cs = (Segment.reference found).render ++ rest := by
      rw [(name?_eq_some_iff.mp hname).1]
      simp [Segment.render]
    rw [placedAt_cons_iff]
    constructor
    · intro h
      rcases Nat.eq_zero_or_pos place with rfl | hpos
      · exact .inl ⟨congrArg _ (hfirst.unique h), rfl⟩
      · -- the next reference begins behind the first
        have hbehind := hfirst.disjoint h hpos
        rw [Nat.zero_add, ← length_render_reference] at hbehind
        obtain ⟨later, rfl⟩ := Nat.exists_eq_add_of_le hbehind
        rw [htext, occursAt_append_iff] at h
        exact .inr ⟨later, rfl, ih.mp h⟩
    · rintro (⟨hpart, rfl⟩ | ⟨later, rfl, h⟩)
      · cases hpart
        exact hfirst
      · rw [htext, occursAt_append_iff]
        exact ih.mpr h
  | case3 cs hname ih =>
    refine hnext (fun other h => ?_) ih
    obtain ⟨rest, hsome⟩ := occursAt_zero_iff.mp h
    rw [hname] at hsome
    cases hsome
  | case4 c cs hc ih =>
    refine hnext (fun other h => ?_) ih
    exact hc (Option.some.inj h.brace)

end ScpiScript.Reference
