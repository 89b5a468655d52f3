import ScpiScript.Proofs.Script.LineByLine
/-!
# Scripts come to an end

Where no file includes itself, be it through others, a run comes to an end after so many
physical lines, and that although nothing limits how many files can be open. No physical line
is read twice for one opening of its source.

- `LineRun.outcome?` is how a run has ended.
- `LineRun.reads` are the physical lines that the steps read, `nodup_reads` says that each is
  read once.
- `interpretation_terminates` is the end of every run over ranked files, and of every run that
  is limited in the files it can open.
-/

namespace ScpiScript

theorem Source.remaining_readPhysical (s : Source) :
    s.readPhysical.2.remaining = s.remaining.tail := by
  obtain ⟨tag, pending, n⟩ := s
  rcases pending with e | _ | ⟨raw, rest⟩
  · rfl
  · rfl
  · unfold readPhysical
    dsimp only
    split <;> rfl

namespace Interpreter

namespace LineRun

variable {ε τ : Type}

/-- How a run has ended, if it has. -/
def outcome? : LineRun ε τ → Option (EStateM.Result RunError (Interpreter ε τ) Unit)
  | reading _ _ _ _ => none
  | ended outcome => some outcome

/-- The physical line that a run reads next, if there is one: the number of the source that it
is a line of, in the order of opening, and how many lines there are from it to the end of that
source. -/
def nextLine? : LineRun ε τ → Option (Nat × Nat)
  | reading top _ _ _ =>
    if top.source.remaining = [] then none else some (top.number, top.source.remaining.length)
  | ended _ => none

/-- A line may still be read: its source is not opened yet, or still open and not read up to
it. -/
def Ahead : LineRun ε τ → Nat × Nat → Prop
  | reading top below opened _, line =>
    opened ≤ line.1 ∨
      ∃ o ∈ top :: below, o.number = line.1 ∧ line.2 ≤ o.source.remaining.length
  | ended _, _ => False

/-- Every source was opened after those that wait below it. -/
def Numbered : LineRun ε τ → Prop
  | reading top below opened _ =>
    top.number < opened ∧ (top :: below).Pairwise fun a b => b.number < a.number
  | ended _ => True

theorem numbered_start (source : Source) (r : Interpreter ε τ) : (start source r).Numbered :=
  ⟨Nat.zero_lt_one, List.pairwise_singleton _ _⟩

/-! ## What a step does to the sources that are open -/

/-- What becomes of the sources that are open when one more line is read. -/
inductive Moves (top : Opened) (below : List Opened) (opened : Nat) : LineRun ε τ → Prop
  | ended (outcome : EStateM.Result RunError (Interpreter ε τ) Unit) :
      Moves top below opened (ended outcome)
  /-- The source is left. -/
  | left (r : Interpreter ε τ) : Moves top below opened (resume below opened r)
  /-- A line was read from it. -/
  | stayed {rest : Source} (h : rest.remaining = top.source.remaining.tail) (phase : Phase)
      (line : Nat) (r : Interpreter ε τ) :
      Moves top below opened (reading ⟨top.number, rest, phase, line⟩ below opened r)
  /-- A line was read from it and includes another. -/
  | included {rest : Source} (h : rest.remaining = top.source.remaining.tail) (phase : Phase)
      (line : Nat) (source : Source) (r : Interpreter ε τ) :
      Moves top below opened (reading ⟨opened, source, .between, 0⟩
        (⟨top.number, rest, phase, line⟩ :: below) (opened + 1) r)

variable [Engine ε] [Link τ]

/-- A step reads at most one line, of the source opened last. -/
theorem moves_step (opens : Opener) (top : Opened) (below : List Opened) (opened : Nat)
    (r : Interpreter ε τ) : Moves top below opened (step opens (reading top below opened r)) := by
  have hremaining := top.source.remaining_readPhysical
  have hconclude : ∀ result rest, rest.remaining = top.source.remaining.tail →
      Moves top below opened (conclude opens opened r top.number below (result, rest)) := by
    intro result rest hrest
    rcases result with e | _ | item
    · exact .ended _
    · exact .left r
    unfold conclude act
    dsimp only
    split
    · split
      · exact .ended _
      · exact .included hrest _ _ _ r
    · split
      · exact .stayed hrest _ _ _
      · exact .left _
      · exact .ended _
  unfold step
  dsimp only
  rcases hread : top.source.readPhysical with ⟨e | text?, rest⟩
  all_goals
    rw [hread] at hremaining
    dsimp only at hremaining ⊢
  · exact hconclude _ _ hremaining
  · cases top.phase.next rest.lineNo text? with
    | more phase => exact .stayed hremaining _ _ r
    | done item? => exact hconclude _ _ hremaining

variable {opens : Opener} {m : LineRun ε τ} {line : Nat × Nat}

theorem Numbered.step (h : m.Numbered) : (step opens m).Numbered := by
  cases m with
  | ended outcome => trivial
  | reading top below opened r =>
    obtain ⟨hopened, hpairwise⟩ := h
    obtain ⟨hbelow, hrest⟩ := List.pairwise_cons.mp hpairwise
    have hmoves := moves_step opens top below opened r
    generalize LineRun.step opens (reading top below opened r) = m' at hmoves
    cases hmoves with
    | ended outcome => trivial
    | left r =>
      cases below with
      | nil => trivial
      | cons next others =>
        exact ⟨Nat.lt_trans (hbelow next List.mem_cons_self) hopened, hrest⟩
    | stayed => exact ⟨hopened, List.pairwise_cons.mpr ⟨hbelow, hrest⟩⟩
    | included =>
      refine ⟨Nat.lt_succ_self opened, List.pairwise_cons.mpr ⟨?_, ?_⟩⟩
      · intro o ho
        rcases List.mem_cons.mp ho with rfl | ho
        · exact hopened
        · exact Nat.lt_trans (hbelow o ho) hopened
      · exact List.pairwise_cons.mpr ⟨hbelow, hrest⟩

/-- What may be read after a step: lines of sources to be opened, the lines of the source opened
last but the first of them, and lines of sources that wait. -/
theorem ahead_step_cases {top : Opened} {below : List Opened} {opened : Nat}
    {r : Interpreter ε τ} (h : (step opens (reading top below opened r)).Ahead line) :
    opened ≤ line.1 ∨
      (top.number = line.1 ∧ line.2 ≤ top.source.remaining.tail.length) ∨
        ∃ o ∈ below, o.number = line.1 ∧ line.2 ≤ o.source.remaining.length := by
  have hmoves := moves_step opens top below opened r
  generalize LineRun.step opens (reading top below opened r) = m' at h hmoves
  cases hmoves with
  | ended outcome => exact h.elim
  | left r =>
    cases below with
    | nil => exact h.elim
    | cons next others => exact h.imp_right .inr
  | stayed hrest =>
    rcases h with h | ⟨o, ho, hline, hlength⟩
    · exact .inl h
    · rcases List.mem_cons.mp ho with rfl | ho
      · exact .inr (.inl ⟨hline, hrest ▸ hlength⟩)
      · exact .inr (.inr ⟨o, ho, hline, hlength⟩)
  | included hrest =>
    rcases h with h | ⟨o, ho, hline, hlength⟩
    · exact .inl (Nat.le_of_succ_le h)
    · rcases List.mem_cons.mp ho with rfl | ho
      · exact .inl (Nat.le_of_eq hline)
      · rcases List.mem_cons.mp ho with rfl | ho
        · exact .inr (.inl ⟨hline, hrest ▸ hlength⟩)
        · exact .inr (.inr ⟨o, ho, hline, hlength⟩)

theorem ahead_of_ahead_step (h : (step opens m).Ahead line) : m.Ahead line := by
  cases m with
  | ended outcome => exact h
  | reading top below opened r =>
    rcases ahead_step_cases h with h | ⟨hline, hlength⟩ | ⟨o, ho, hline⟩
    · exact .inl h
    · rw [List.length_tail] at hlength
      exact .inr ⟨top, List.mem_cons_self, hline, Nat.le_trans hlength (Nat.sub_le _ _)⟩
    · exact .inr ⟨o, .tail _ ho, hline⟩

omit [Engine ε] [Link τ] in
theorem ahead_of_nextLine? (h : m.nextLine? = some line) : m.Ahead line := by
  cases m with
  | ended outcome => cases h
  | reading top below opened r =>
    rw [nextLine?] at h
    split at h
    · cases h
    · cases h
      exact .inr ⟨top, List.mem_cons_self, rfl, Nat.le_refl _⟩

/-- A line that is read cannot be read again. -/
theorem not_ahead_step_of_nextLine? (hnumbered : m.Numbered) (h : m.nextLine? = some line) :
    ¬ (step opens m).Ahead line := by
  cases m with
  | ended outcome => cases h
  | reading top below opened r =>
    rw [nextLine?] at h
    split at h
    · cases h
    rename_i hremaining
    cases h
    obtain ⟨hopened, hpairwise⟩ := hnumbered
    obtain ⟨hbelow, -⟩ := List.pairwise_cons.mp hpairwise
    intro hahead
    rcases ahead_step_cases hahead with h | ⟨-, hlength⟩ | ⟨o, ho, hline, -⟩
    · exact absurd hopened (Nat.not_lt.mpr h)
    · have hpositive := List.length_pos_iff.mpr hremaining
      rw [List.length_tail] at hlength
      omega
    · exact absurd hline (Nat.ne_of_lt (hbelow o ho))

/-! ## What is read -/

/-- The physical lines that so many steps read, in order. -/
def reads (opens : Opener) : Nat → LineRun ε τ → List (Nat × Nat)
  | 0, _ => []
  | n + 1, m => m.nextLine?.toList ++ reads opens n (step opens m)

theorem ahead_of_mem_reads {n : Nat} (h : line ∈ reads opens n m) : m.Ahead line := by
  induction n generalizing m with
  | zero => cases h
  | succ n ih =>
    rcases List.mem_append.mp h with h | h
    · exact ahead_of_nextLine? (Option.mem_toList.mp h)
    · exact ahead_of_ahead_step (ih h)

/-- No line is read twice. -/
theorem nodup_reads (h : m.Numbered) (n : Nat) : (reads opens n m).Nodup := by
  induction n generalizing m with
  | zero => exact List.nodup_nil
  | succ n ih =>
    rw [reads]
    rcases hline : m.nextLine? with _ | line
    · exact ih h.step
    · refine List.nodup_cons.mpr ⟨fun hmem => ?_, ih h.step⟩
      exact not_ahead_step_of_nextLine? h hline (ahead_of_mem_reads hmem)

/-! ## The end -/

omit [Engine ε] [Link τ] in
theorem outcome?_settle (opened : Nat)
    (outcome : EStateM.Result RunError (Interpreter ε τ) Unit) :
    (settle [] opened outcome).outcome? = some outcome := by
  cases outcome <;> rfl

theorem Follows.outcome? {source : Source} {run : RunM ε τ Unit}
    (h : Follows opens source [] run) (r : Interpreter ε τ) :
    ∃ n, (after opens n (start source r)).outcome? = some (run r) := by
  obtain ⟨n, opened, hn⟩ := h 0 0 1 r
  refine ⟨n, ?_⟩
  rw [start, hn, outcome?_settle]

end LineRun

open LineRun

variable {ε τ : Type} [Engine ε] [Link τ]

/-- Every run comes to an end. Over ranked files, the steps that read a source with all it
includes end after finitely many lines, though any number of files can be open at once. The
outcome is that of the run with any limit on the open files that is large enough. The steps
that are limited in the files that can be open end with the outcome of the run as well,
whatever the files are.

However files are opened, and however far the steps go, each physical line is read at most
once for one opening of its source. -/
theorem interpretation_terminates {files : FileTree} {rank : String → Nat}
    (hranked : Ranked files rank) (source : Source) (r : Interpreter ε τ) :
    (∃ n bound outcome,
      (after (.unlimited files) n (start source r)).outcome? = some outcome ∧
        ∀ limit, bound ≤ limit → discard (runSource files limit source) r = outcome) ∧
    (∀ limit, ∃ n, (after (.limited files limit) n (start source r)).outcome? =
      some (discard (runSource files limit source) r)) ∧
    ∀ opens n, (reads opens n (start source r)).Nodup := by
  refine ⟨?_, fun limit => ?_, fun opens n => nodup_reads (numbered_start source r) n⟩
  · -- a bound on the ranks of the files that the source itself includes
    let bound := ((source.reading.includes.map rank).max?.getD 0) + 1
    have hnests : NestsWithin files (bound + 1) source.reading :=
      hranked.nestsWithin fun inner hinner _ _ =>
        Nat.lt_succ_of_le (List.le_max?_getD_of_mem (List.mem_map_of_mem hinner))
    obtain ⟨n, hn⟩ := (follows_unlimited hnests (Nat.le_refl _) []).outcome? r
    refine ⟨n, bound + 1, _, hn, fun limit hlimit => ?_⟩
    exact congrFun (discard_runSource_limit hnests hlimit (Nat.le_refl _)) r
  · exact (follows_limited files source (Nat.zero_add limit)).outcome? r

/-- Files that end in the middle: in a line that goes on, in a block of code, at a line that
ends the file and at one that cannot be read. The second includes the third. -/
def unfinishedFiles : FileTree :=
  ⟨[], [(["first"], .file (Utf8.encode ">x \\")),
    (["second"], .file (Utf8.encode "<third\n=\ny = 1")),
    (["third"], .file (Utf8.encode ".\n>z\n")), (["fourth"], .file [0xFF, 0x0A])]⟩

def unfinished : Source := Source.ofText "<script>" "<first\n<second\n<fourth\n"

def readyToEnd : Interpreter Assigner MemoryLink := .new .fresh (.new .little)

/-- The number of files that content includes. -/
def includeCount (content : Bytes) : Nat := (Source.ofBytes "" content).reading.includes.length

theorem ranked_unfinishedFiles : Ranked unfinishedFiles fun path =>
    (unfinishedFiles.content? path).elim 0 includeCount :=
  ranked_of_contents includeCount (by decide +kernel)

theorem interpretation_terminates_unfinished :
    (∃ n bound outcome,
      (after (.unlimited unfinishedFiles) n (start unfinished readyToEnd)).outcome? =
          some outcome ∧
        ∀ limit, bound ≤ limit →
          discard (runSource unfinishedFiles limit unfinished) readyToEnd = outcome) ∧
    (reads (.unlimited unfinishedFiles) 20 (start unfinished readyToEnd)).Nodup ∧
    -- of the third file, only the line that ends it is read
    reads (.unlimited unfinishedFiles) 20 (start unfinished readyToEnd) =
      [(0, 3), (1, 1), (0, 2), (2, 3), (3, 2), (2, 2), (2, 1), (0, 1), (4, 1)] ∧
    -- the line that goes on was echoed, and the block of code was run
    (finalState (runSource unfinishedFiles openLimit unfinished readyToEnd)).transcript =
      [.echo "x"] ∧
    (finalState (runSource unfinishedFiles openLimit unfinished readyToEnd)).evaluated =
      [⟨"second:2", "y = 1"⟩] := by
  obtain ⟨hends, -, hreads⟩ :=
    interpretation_terminates ranked_unfinishedFiles unfinished readyToEnd
  exact ⟨hends, hreads _ _, by decide +kernel, by decide +kernel, by decide +kernel⟩

end Interpreter

end ScpiScript
