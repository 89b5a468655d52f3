import ScpiScript.Proofs.Outcome
import ScpiScript.Proofs.Source.Comment
import ScpiScript.Proofs.Source.Continuation
/-!
# The parts of a script

A line that ends a script may have other lines behind it. Where these are read later, as a
script of their own, the lines fall into parts, of which each but the last goes up to such a
line. Which lines end a script depends on how all lines before them are read: a line in a block
of code does not, nor does one that continues another.

- `Source.ItemOf` says that lines are one item in front of others. What follows an item does not
  change it, unless nothing did: `ItemOf.before`.
- `Source.EndsScript` is a part in front of others, and `Source.Parts` are all parts of lines.
- `exists_parts` and `Parts.unique`: lines fall into parts in one way, and
  `Parts.flatten_eq` says that none is lost.
-/

namespace ScpiScript

namespace Source

/-! ## Items in front of other lines -/

/-- Physical lines that, in front of others, are read as one item, its number counted from the
first of them. -/
def ItemOf (item : Item) (lines rest : List Bytes) : Prop :=
  ∀ tag n, readItem ⟨tag, .ok (lines ++ rest), n⟩ =
    (.ok (some ⟨item.directive, n + item.line⟩), ⟨tag, .ok rest, n + lines.length⟩)

/-- A logical line is an item, under the number of its last line. -/
theorem LineOf.itemOf {directive : Option Directive} {line rest : List Bytes}
    (h : LineOf directive line rest) : ItemOf ⟨directive, line.length⟩ line rest := h

/-- Joining takes the same lines in front of any others, unless it came to the end. -/
theorem exists_joined {text full : String} {n m : Nat} {lines left : List Bytes}
    (h : joinLines text n lines = (.ok full, left, m)) : ∃ taken, lines = taken ++ left ∧
      m = n + taken.length ∧ ∀ more, (left = [] → more = []) → ∀ k,
        joinLines text k (taken ++ more) = (.ok full, more, k + taken.length) := by
  fun_induction joinLines text n lines with
  | case1 text n kept hmark =>
    cases h
    refine ⟨[], rfl, rfl, fun more hmore k => ?_⟩
    rw [hmore rfl, List.append_nil, joinLines, hmark]
    rfl
  | case2 text n hmark =>
    cases h
    exact ⟨[], rfl, rfl, fun more _ k => joinLines_of_none hmark k more⟩
  | case3 text n raw rest hmark =>
    cases h
    exact ⟨[], rfl, rfl, fun more _ k => joinLines_of_none hmark k more⟩
  | case4 text n raw rest kept hmark hraw => cases h
  | case5 text n raw rest kept hmark next hraw ih =>
    obtain ⟨taken, rfl, hm, htaken⟩ := ih h
    refine ⟨raw :: taken, rfl, ?_, fun more hmore k => ?_⟩
    · rw [hm, List.length_cons]
      omega
    · rw [List.cons_append, joinLines, hmark]
      dsimp only
      rw [hraw]
      dsimp only
      rw [htaken more hmore, List.length_cons, Nat.add_assoc, Nat.add_comm 1]

/-- So does a block of code. -/
theorem exists_blocked {n m : Nat} {lines left : List Bytes} {block : List String}
    (h : takeBlock n lines = (.ok block, left, m)) : ∃ taken, lines = taken ++ left ∧
      m = n + taken.length ∧ ∀ more, (left = [] → more = []) → ∀ k,
        takeBlock k (taken ++ more) = (.ok block, more, k + taken.length) := by
  fun_induction takeBlock n lines generalizing block with
  | case1 n =>
    cases h
    refine ⟨[], rfl, rfl, fun more hmore k => ?_⟩
    rw [hmore rfl]
    rfl
  | case2 n raw rest hraw => cases h
  | case3 n raw rest text hraw hclose =>
    cases h
    refine ⟨[raw], rfl, rfl, fun more _ k => ?_⟩
    rw [List.singleton_append, takeBlock, hraw]
    dsimp only
    rw [if_pos hclose]
    rfl
  | case4 n raw rest text hraw hclose lines left' count heq ih =>
    simp only [Prod.mk.injEq] at h
    obtain ⟨hmap, rfl, rfl⟩ := h
    obtain ⟨inner, rfl, rfl⟩ := map_eq_ok_iff.mp hmap
    obtain ⟨taken, rfl, hm, htaken⟩ := ih heq
    refine ⟨raw :: taken, rfl, ?_, fun more hmore k => ?_⟩
    · rw [hm, List.length_cons]
      omega
    · rw [List.cons_append, takeBlock, hraw]
      dsimp only
      rw [if_neg hclose, htaken more hmore, List.length_cons, Nat.add_assoc, Nat.add_comm 1]
      rfl

/-- A line and the block of code behind it are an item, under the number of the line. -/
theorem itemOf_block {raw : Bytes} {taken inner rest : List Bytes} {text full : String}
    {block : List String} (hraw : lineText? raw = some text)
    (hjoin : ∀ k, joinLines text k (taken ++ (inner ++ rest)) =
      (.ok full, inner ++ rest, k + taken.length))
    (hdirective : Directive.ofLine? full = some (.evaluate ""))
    (hblock : ∀ k, takeBlock k (inner ++ rest) = (.ok block, rest, k + inner.length)) :
    ItemOf ⟨some (.evaluate (String.intercalate "\n" block)), taken.length + 1⟩
      (raw :: (taken ++ inner)) rest := by
  intro tag n
  have hline : n + 1 + taken.length = n + (taken.length + 1) := by omega
  have hcount : n + (taken.length + 1) + inner.length =
      n + (taken.length + inner.length + 1) := by omega
  rw [List.cons_append, List.append_assoc, readItem_block hraw (hjoin (n + 1)) hdirective (hblock _),
    hline, hcount, List.length_cons, List.length_append]
  rfl

/-- Reading comes to the end, to a logical line, or to one that takes a block of code. -/
theorem readItem_cases {tag : String} {n : Nat} {lines : List Bytes} {item? : Option Item}
    {s : Source} (h : readItem ⟨tag, .ok lines, n⟩ = (.ok item?, s)) :
    (lines = [] ∧ item? = none ∧ s = ⟨tag, .ok [], n⟩) ∨
      ∃ raw others text full left m, lines = raw :: others ∧ lineText? raw = some text ∧
        joinLines text (n + 1) others = (.ok full, left, m) ∧
        ((Directive.ofLine? full ≠ some (.evaluate "") ∧
            item? = some ⟨Directive.ofLine? full, m⟩ ∧ s = ⟨tag, .ok left, m⟩) ∨
          (Directive.ofLine? full = some (.evaluate "") ∧ ∃ block left' m',
            takeBlock m left = (.ok block, left', m') ∧
              item? = some ⟨some (.evaluate (String.intercalate "\n" block)), m⟩ ∧
                s = ⟨tag, .ok left', m'⟩)) := by
  cases lines with
  | nil =>
    cases h
    exact .inl ⟨rfl, rfl, rfl⟩
  | cons raw others =>
    rcases hraw : lineText? raw with _ | text
    · rw [readItem_unreadable hraw] at h
      cases h
    rcases hjoin : joinLines text (n + 1) others with ⟨e | full, left, m⟩
    · rw [readItem_unjoined hraw hjoin] at h
      cases h
    refine .inr ⟨raw, others, text, full, left, m, rfl, hraw, hjoin, ?_⟩
    by_cases hdirective : Directive.ofLine? full = some (.evaluate "")
    · rcases hblock : takeBlock m left with ⟨e | block, left', m'⟩
      · rw [readItem_block hraw hjoin hdirective hblock] at h
        cases h
      · rw [readItem_block hraw hjoin hdirective hblock] at h
        cases h
        exact .inr ⟨hdirective, block, left', m', rfl, rfl, rfl⟩
    · rw [readItem_line hraw hjoin hdirective] at h
      cases h
      exact .inl ⟨hdirective, rfl, rfl⟩

/-- What is read as an item is one in front of any other lines, unless reading came to the
end. -/
theorem exists_itemOf {tag : String} {n : Nat} {lines : List Bytes} {item : Item} {s : Source}
    (h : readItem ⟨tag, .ok lines, n⟩ = (.ok (some item), s)) : ∃ own taken left,
      lines = taken ++ left ∧ item = ⟨own.directive, n + own.line⟩ ∧
        s = ⟨tag, .ok left, n + taken.length⟩ ∧
          ∀ more, (left = [] → more = []) → ItemOf own taken more := by
  obtain ⟨-, hnone, -⟩ | ⟨raw, others, text, full, left, m, rfl, hraw, hjoin, hread⟩ :=
    readItem_cases h
  · cases hnone
  obtain ⟨taken, rfl, rfl, htaken⟩ := exists_joined hjoin
  have hline : n + 1 + taken.length = n + (taken.length + 1) := by omega
  obtain ⟨hdirective, hitem, rfl⟩ | ⟨hdirective, block, left', m', hblock, hitem, rfl⟩ := hread
  · rw [Option.some.injEq] at hitem
    refine ⟨⟨Directive.ofLine? full, taken.length + 1⟩, raw :: taken, left, rfl, ?_, ?_,
      fun more hmore => ?_⟩
    · rw [hitem, hline]
    · rw [hline, List.length_cons]
    · have hmoved := htaken more hmore 0
      rw [Nat.zero_add] at hmoved
      exact (lineOf_of_joinLines hraw hmoved hdirective).itemOf
  · rw [Option.some.injEq] at hitem
    obtain ⟨inner, rfl, rfl, hinner⟩ := exists_blocked hblock
    refine ⟨⟨some (.evaluate (String.intercalate "\n" block)), taken.length + 1⟩,
      raw :: (taken ++ inner), left', ?_, ?_, ?_, fun more hmore => ?_⟩
    · rw [List.cons_append, List.append_assoc]
    · rw [hitem, hline]
    · have hcount : n + (taken.length + 1) + inner.length =
          n + (taken.length + inner.length + 1) := by omega
      rw [hline, hcount, List.length_cons, List.length_append]
    · have hnone : inner ++ left' = [] → inner ++ more = [] := by
        intro hnil
        obtain ⟨hnil', hleft⟩ := List.append_eq_nil_iff.mp hnil
        rw [hnil', hmore hleft]
        rfl
      exact itemOf_block hraw (htaken (inner ++ more) hnone) hdirective (hinner more hmore)

/-- Only from no lines nothing is read. -/
theorem readItem_eq_none {tag : String} {n : Nat} {lines : List Bytes} {s : Source}
    (h : readItem ⟨tag, .ok lines, n⟩ = (.ok none, s)) : lines = [] ∧ s = ⟨tag, .ok [], n⟩ := by
  obtain ⟨hlines, -, hs⟩ | ⟨_, _, _, _, _, _, -, -, -, ⟨-, hitem, -⟩ | ⟨-, _, _, _, -, hitem, -⟩⟩ :=
    readItem_cases h
  · exact ⟨hlines, hs⟩
  · cases hitem
  · cases hitem

/-- What follows an item does not change it, unless nothing did. -/
theorem ItemOf.before {item : Item} {lines rest more : List Bytes} (h : ItemOf item lines rest)
    (hmore : rest = [] → more = []) : ItemOf item lines more := by
  obtain ⟨own, taken, left, hlines, hitem, hsource, htaken⟩ := exists_itemOf (h "" 0)
  obtain rfl : rest = left := by
    simp only [Source.mk.injEq, Except.ok.injEq] at hsource
    exact hsource.2.1
  obtain rfl := List.append_cancel_right hlines
  obtain rfl : item = own := by
    simp only [Nat.zero_add] at hitem
    exact hitem
  exact htaken more hmore

/-- An item has a line. -/
theorem ItemOf.ne_nil {item : Item} {lines rest : List Bytes} (h : ItemOf item lines rest) :
    lines ≠ [] := by
  rintro rfl
  exact absurd (length_readItem (h "" 0)) (Nat.lt_irrefl rest.length)

/-- Lines begin with one item only. -/
theorem ItemOf.unique {item item' : Item} {lines rest lines' rest' : List Bytes}
    (h : ItemOf item lines rest) (h' : ItemOf item' lines' rest')
    (hsame : lines ++ rest = lines' ++ rest') :
    item = item' ∧ lines = lines' ∧ rest = rest' := by
  have hread := h "" 0
  rw [hsame, h' "" 0] at hread
  simp only [Prod.mk.injEq, Except.ok.injEq, Option.some.injEq, Source.mk.injEq, Nat.zero_add,
    true_and] at hread
  obtain ⟨hitem, hrest, -⟩ := hread
  subst hrest
  exact ⟨hitem.symm, List.append_cancel_right hsame, rfl⟩

/-! ## Parts -/

/-- Lines that, in front of others, are items of which the last one, and no other, ends a
script. -/
inductive EndsScript : List Bytes → List Bytes → Prop
  | here {item : Item} {lines rest : List Bytes} (hitem : ItemOf item lines rest)
      (hends : item.directive = some .terminate) : EndsScript lines rest
  | later {item : Item} {first others rest : List Bytes}
      (hitem : ItemOf item first (others ++ rest)) (hgoes : item.directive ≠ some .terminate)
      (hothers : EndsScript others rest) : EndsScript (first ++ others) rest

/-- The parts of lines. Each but the last goes up to the line that ends it; the last one may
come to the end of the lines without one. -/
inductive Parts : List Bytes → List (List Bytes) → Prop
  | nil : Parts [] []
  | ended {part rest : List Bytes} {parts : List (List Bytes)} (hends : EndsScript part rest)
      (hrest : Parts rest parts) : Parts (part ++ rest) (part :: parts)
  | unended {part : List Bytes} (hne : part ≠ [])
      (hnone : ∀ front rest, part = front ++ rest → ¬ EndsScript front rest) : Parts part [part]

namespace EndsScript

variable {part rest : List Bytes}

/-- What follows a part does not change it, unless nothing did. So it can stand alone. -/
theorem before (h : EndsScript part rest) {more : List Bytes} (hmore : rest = [] → more = []) :
    EndsScript part more := by
  induction h with
  | here hitem hends => exact .here (hitem.before hmore) hends
  | @later item first others rest hitem hgoes _ ih =>
    refine .later (hitem.before fun hnil => ?_) hgoes (ih hmore)
    obtain ⟨hothers, hrest⟩ := List.append_eq_nil_iff.mp hnil
    rw [hothers, hmore hrest]
    rfl

theorem ne_nil (h : EndsScript part rest) : part ≠ [] := by
  cases h with
  | here hitem _ => exact hitem.ne_nil
  | later hitem _ _ => exact List.append_ne_nil_of_left_ne_nil hitem.ne_nil _

/-- Lines begin with one part only. -/
theorem unique (h : EndsScript part rest) {part' rest' : List Bytes}
    (h' : EndsScript part' rest') (hsame : part ++ rest = part' ++ rest') :
    part = part' ∧ rest = rest' := by
  induction h generalizing part' with
  | here hitem hends =>
    cases h' with
    | here hitem' _ => exact (hitem.unique hitem' hsame).2
    | later hitem' hgoes _ =>
      rw [List.append_assoc] at hsame
      obtain ⟨rfl, -⟩ := hitem.unique hitem' hsame
      exact absurd hends hgoes
  | later hitem hgoes _ ih =>
    rw [List.append_assoc] at hsame
    cases h' with
    | here hitem' hends =>
      obtain ⟨rfl, -⟩ := hitem.unique hitem' hsame
      exact absurd hends hgoes
    | later hitem' _ hothers' =>
      rw [List.append_assoc] at hsame
      obtain ⟨-, rfl, hothers⟩ := hitem.unique hitem' hsame
      obtain ⟨rfl, rfl⟩ := ih hothers' hothers
      exact ⟨rfl, rfl⟩

end EndsScript

/-- Lines fall into parts. -/
theorem exists_parts (lines : List Bytes) : ∃ parts, Parts lines parts := by
  -- by the number of lines, which the first part makes smaller
  induction hlength : lines.length using Nat.strongRecOn generalizing lines with
  | ind k ih =>
    by_cases hends : ∃ part rest, lines = part ++ rest ∧ EndsScript part rest
    · obtain ⟨part, rest, rfl, hends⟩ := hends
      have hpart : 0 < part.length := List.length_pos_iff.mpr hends.ne_nil
      rw [List.length_append] at hlength
      obtain ⟨parts, hparts⟩ := ih rest.length (by omega) rest rfl
      exact ⟨part :: parts, .ended hends hparts⟩
    · rcases lines with _ | ⟨raw, others⟩
      · exact ⟨[], .nil⟩
      · exact ⟨[raw :: others], .unended (List.cons_ne_nil raw others)
          fun front rest hsame hfront => hends ⟨front, rest, hsame, hfront⟩⟩

namespace Parts

variable {lines : List Bytes} {parts : List (List Bytes)}

/-- No line is lost, and none is in two parts. -/
theorem flatten_eq (h : Parts lines parts) : parts.flatten = lines := by
  induction h with
  | nil => rfl
  | ended _ _ ih => rw [List.flatten_cons, ih]
  | unended _ _ => rw [List.flatten_singleton]

/-- The parts after the first are those of what is behind it. -/
theorem tail (h : Parts lines parts) : Parts parts.tail.flatten parts.tail := by
  cases h with
  | nil => exact .nil
  | ended _ hrest =>
    rw [List.tail_cons, hrest.flatten_eq]
    exact hrest
  | unended _ _ => exact .nil

/-- Lines fall into parts in one way only. -/
theorem unique (h : Parts lines parts) {parts' : List (List Bytes)} (h' : Parts lines parts') :
    parts = parts' := by
  induction h generalizing parts' with
  | nil =>
    generalize hsame : ([] : List Bytes) = lines at h'
    cases h' with
    | nil => rfl
    | ended hends _ => exact absurd (List.append_eq_nil_iff.mp hsame.symm).1 hends.ne_nil
    | unended hne _ => exact absurd hsame.symm hne
  | @ended part rest parts hends _ ih =>
    generalize hsame : part ++ rest = lines at h'
    cases h' with
    | nil => exact absurd (List.append_eq_nil_iff.mp hsame).1 hends.ne_nil
    | ended hends' hrest' =>
      obtain ⟨rfl, rfl⟩ := hends.unique hends' hsame
      rw [ih hrest']
    | unended _ hnone => exact absurd hends (hnone part rest hsame.symm)
  | @unended part hne hnone =>
    cases h' with
    | nil => exact absurd rfl hne
    | ended hends' _ => exact absurd hends' (hnone _ _ rfl)
    | unended _ _ => rfl

end Parts

end Source

end ScpiScript
