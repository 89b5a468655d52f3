import ScpiScript.Source.Item
/-!
# Places in a source

A source that was read for a while stands behind so many of its physical lines. Line
numbers count them: the number of a logical line is the count of physical lines up to its
last one.

- `Source.skip` is a source some of whose lines have been read.
- `readLogical_skip` and `readItem_skip`: reading goes on to a later place of the same
  source, and the number of a line is that place.
-/

namespace ScpiScript.Source

/-- A source after so many of its physical lines have been read. -/
def skip (s : Source) (count : Nat) : Source :=
  { s with pending := s.pending.map (List.drop count), lineNo := s.lineNo + count }

@[simp] theorem skip_zero (s : Source) : s.skip 0 = s := by
  obtain ⟨tag, e | lines, n⟩ := s <;> rfl

@[simp] theorem tag_skip (s : Source) (count : Nat) : (s.skip count).tag = s.tag := rfl

theorem skip_skip (s : Source) (m n : Nat) : (s.skip m).skip n = s.skip (m + n) := by
  obtain ⟨tag, e | lines, k⟩ := s
  · simp [skip, Except.map, Nat.add_assoc]
  · simp [skip, Except.map, Nat.add_assoc]

/-- Joining takes the lines it counts from the front. -/
theorem joinLines_drop {text full : String} {n m : Nat} {lines left : List Bytes}
    (h : joinLines text n lines = (.ok full, left, m)) :
    ∃ count, left = lines.drop count ∧ m = n + count := by
  fun_induction joinLines text n lines with
  | case1 text n kept hmark =>
    cases h
    exact ⟨0, rfl, rfl⟩
  | case2 text n hmark =>
    cases h
    exact ⟨0, rfl, rfl⟩
  | case3 text n raw rest hmark =>
    cases h
    exact ⟨0, rfl, rfl⟩
  | case4 text n raw rest kept hmark hraw => cases h
  | case5 text n raw rest kept hmark next hraw ih =>
    obtain ⟨count, hleft, hm⟩ := ih h
    exact ⟨count + 1, hleft, by omega⟩

/-- So does a block of code. -/
theorem takeBlock_drop {n m : Nat} {lines left : List Bytes} {block : List String}
    (h : takeBlock n lines = (.ok block, left, m)) :
    ∃ count, left = lines.drop count ∧ m = n + count := by
  fun_induction takeBlock n lines generalizing block with
  | case1 n =>
    cases h
    exact ⟨0, rfl, rfl⟩
  | case2 n raw rest hraw => cases h
  | case3 n raw rest text hraw hclose =>
    cases h
    exact ⟨1, rfl, rfl⟩
  | case4 n raw rest text hraw hclose lines left' count heq ih =>
    simp only [Prod.mk.injEq] at h
    obtain ⟨hmap, rfl, rfl⟩ := h
    cases lines with
    | error e => cases hmap
    | ok inner =>
      obtain ⟨taken, hleft, hm⟩ := ih heq
      exact ⟨taken + 1, hleft, by omega⟩

theorem readPhysical_skip {s rest : Source} {text : String}
    (h : s.readPhysical = (.ok (some text), rest)) : rest = s.skip 1 := by
  obtain ⟨tag, e | lines, n⟩ := s
  · cases h
  · cases lines with
    | nil => cases h
    | cons raw others =>
      unfold readPhysical at h
      dsimp only at h
      split at h
      · cases h
      · cases h
        rfl

/-- A logical line ends at the place that is its number. -/
theorem readLogical_skip {s rest : Source} {line : LogicalLine}
    (h : s.readLogical = (.ok (some line), rest)) :
    ∃ count, rest = s.skip count ∧ line.line = s.lineNo + count := by
  rcases hphys : s.readPhysical with ⟨e | _ | text, t⟩
  all_goals
    rw [readLogical, hphys] at h
    dsimp only at h
  · cases h
  · cases h
  · obtain ⟨tag, e | lines, n⟩ := s
    · cases hphys
    cases lines with
    | nil => cases hphys
    | cons raw others =>
      have ht : t = ⟨tag, .ok others, n + 1⟩ := readPhysical_skip hphys
      subst ht
      rcases hjoin : joinLines text (n + 1) others with ⟨e | full, left, m⟩
      · simp [remaining, Except.map, hjoin] at h
      · obtain ⟨count, rfl, rfl⟩ := joinLines_drop hjoin
        simp only [remaining, Except.map, hjoin, Prod.mk.injEq, Except.ok.injEq,
          Option.some.injEq] at h
        obtain ⟨rfl, rfl⟩ := h
        have hcount : n + 1 + count = n + (count + 1) := by omega
        exact ⟨count + 1, by rw [hcount]; rfl, hcount⟩

theorem readBlock_skip {s rest : Source} {code : String} (h : s.readBlock = (.ok code, rest)) :
    ∃ count, rest = s.skip count := by
  obtain ⟨tag, e | lines, n⟩ := s
  · cases h
  · rcases hblock : takeBlock n lines with ⟨e | block, left, m⟩
    · simp [readBlock, hblock, Except.map] at h
    · obtain ⟨count, rfl, rfl⟩ := takeBlock_drop hblock
      simp only [readBlock, hblock, Except.map, Prod.mk.injEq] at h
      exact ⟨count, h.2.symm⟩

/-- Reading an item goes on to a later place of the source. The number of an item other
than a block of code is that place. -/
theorem readItem_skip {s rest : Source} {item : Item}
    (h : s.readItem = (.ok (some item), rest)) :
    ∃ count, rest = s.skip count ∧
      ((∀ code, item.directive ≠ some (.evaluate code)) → item.line = s.lineNo + count) := by
  rcases hline : s.readLogical with ⟨e | _ | line, t⟩
  all_goals
    rw [readItem, hline] at h
    dsimp only at h
  · cases h
  · cases h
  · obtain ⟨count, rfl, hcount⟩ := readLogical_skip hline
    split at h
    · rcases hblock : (s.skip count).readBlock with ⟨e | code, u⟩
      · simp [hblock, Except.map] at h
      · obtain ⟨more, rfl⟩ := readBlock_skip hblock
        simp only [hblock, Except.map, Prod.mk.injEq, Except.ok.injEq, Option.some.injEq] at h
        obtain ⟨rfl, rfl⟩ := h
        exact ⟨count + more, skip_skip s count more, fun hne => absurd rfl (hne code)⟩
    · simp only [Prod.mk.injEq, Except.ok.injEq, Option.some.injEq] at h
      obtain ⟨rfl, rfl⟩ := h
      exact ⟨count, rfl, fun _ => hcount⟩

end ScpiScript.Source
