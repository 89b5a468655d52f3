import ScpiScript.Proofs.Script.Fatal
import ScpiScript.Proofs.Script.Nesting
/-!
# A run line by line

A run can be taken in steps that read one physical line each. The lines are those of the
source that was opened last, until it comes to its end; the sources that it was included
from wait below it. An item is acted on in the step that reads its last line.

- `Phase` is where the reader of a source stands inside an item, and `Phase.next` where it
  stands after one more line.
- `LineRun` is what a run has come to between two lines, and `LineRun.step` reads the next.
- `follows_runItems`: the steps over a source come to what running its items comes to,
  however files are opened.
- `follows_limited` and `follows_unlimited` are the runs with so many files to open, and
  with any number.
-/

namespace ScpiScript

open Source

/-- Where the reader of a source stands between two physical lines. -/
inductive Phase
  /-- Before an item. -/
  | between
  /-- In a line that goes on, whose text so far is this. -/
  | joining (text : String)
  /-- In a block of code that was begun at a line, behind these lines of it. -/
  | collecting (line : Nat) (lines : List String)

/-- What one more line, or the end of the source, leads to: the reader goes on, or it has an
item or nothing more to give. -/
inductive Progress
  | more (phase : Phase)
  | done (item? : Option Item)

namespace Phase

def blockItem (line : Nat) (lines : List String) : Item :=
  ⟨some (.evaluate (String.intercalate "\n" lines)), line⟩

/-- Behind a logical line that does not go on. -/
def behind (line : Nat) (text : String) : Progress :=
  match Directive.ofLine? text with
  | some (.evaluate "") => .more (.collecting line [])
  | directive => .done (some ⟨directive, line⟩)

/-- The text of a logical line is this so far. -/
def ofText (line : Nat) (text : String) : Progress :=
  match dropMark? text with
  | some kept => .more (.joining kept)
  | none => behind line text

/-- What the text of one more line leads to, or the end of the source. The number is that of
the last line read. -/
def next (line : Nat) : Phase → Option String → Progress
  | between, none => .done none
  | between, some text => ofText line text
  | joining kept, none => behind line kept
  | joining kept, some text => ofText line (kept ++ text)
  | collecting start lines, none => .done (some (blockItem start lines))
  | collecting start lines, some text =>
    if closesBlock text then .done (some (blockItem start lines))
    else .more (.collecting start (lines ++ [text]))

end Phase

/-- A source that was opened and not left yet. -/
structure Opened where
  /-- How many sources the run had opened before it. -/
  number : Nat
  source : Source
  phase : Phase
  /-- The number of the line of its last item, at which it waits for what it includes. -/
  line : Nat

/-- An error in a source, with the include lines at which the sources below it wait. -/
def RunError.above (below : List Opened) (event : RunError) : RunError :=
  below.foldl (fun e opened => .nested opened.source.tag opened.line e) event

/-- How a file is opened, given how many sources wait below it. -/
abbrev Opener := Nat → String → Except IoError Source

/-- Any number of files can be open at once. -/
def Opener.unlimited (files : FileTree) : Opener := fun _ path => openPath files path

/-- Only so many files can be open at once. -/
def Opener.limited (files : FileTree) (limit : Nat) : Opener :=
  fun depth path => Interpreter.openWithin files (limit - depth) path

namespace Interpreter

/-- A run between two physical lines, over engines of type `ε` and links of type `τ`. -/
inductive LineRun (ε τ : Type)
  /-- A source is read. Others wait below it, that included last first. So many were opened. -/
  | reading (top : Opened) (below : List Opened) (opened : Nat) (r : Interpreter ε τ)
  | ended (outcome : EStateM.Result RunError (Interpreter ε τ) Unit)

namespace LineRun

variable {ε τ : Type}

/-- A run about to read a source. -/
def start (source : Source) (r : Interpreter ε τ) : LineRun ε τ :=
  reading ⟨0, source, .between, 0⟩ [] 1 r

/-- Go on with the sources that wait, or come to the end. -/
def resume (below : List Opened) (opened : Nat) (r : Interpreter ε τ) : LineRun ε τ :=
  match below with
  | [] => ended (.ok () r)
  | top :: below => reading top below opened r

/-- End with an event in a source above others. -/
def fail (below : List Opened) (event : RunError) (r : Interpreter ε τ) : LineRun ε τ :=
  ended (.error (event.above below) r)

variable [Engine ε] [Link τ]

section Step

variable (opens : Opener) (opened : Nat) (r : Interpreter ε τ)

/-- Act on the item that a source has come to, or open the file that it includes. -/
def act (top : Opened) (below : List Opened) (item : Item) : LineRun ε τ :=
  match item.included? with
  | some path =>
    match opens below.length path with
    | .error cause => fail (top :: below) (.unopened path cause) r
    | .ok source => reading ⟨opened, source, .between, 0⟩ (top :: below) (opened + 1) r
  | none =>
    match perform (fun _ => pure ()) top.source.tag item r with
    | .ok true r => reading top below opened r
    | .ok false r => resume below opened r
    | .error e r => fail below e r

/-- Go on with what was read from a source and what is left of it: an item, nothing more, or
a failure. -/
def conclude (number : Nat) (below : List Opened) :
    Except IoError (Option Item) × Source → LineRun ε τ
  | (.error e, rest) => fail below (.unreadable rest.tag e) r
  | (.ok none, _) => resume below opened r
  | (.ok (some item), rest) => act opens opened r ⟨number, rest, .between, item.line⟩ below item

/-- Go on with the progress that the reader of a source has made. -/
def proceed (number line : Nat) (below : List Opened) (rest : Source) : Progress → LineRun ε τ
  | .more phase => reading ⟨number, rest, phase, line⟩ below opened r
  | .done item? => conclude opens opened r number below (.ok item?, rest)

/-- Read the next physical line of the source that is read, or see that there is none. -/
def step : LineRun ε τ → LineRun ε τ
  | reading top below opened r =>
    match top.source.readPhysical with
    | (.error e, rest) => conclude opens opened r top.number below (.error e, rest)
    | (.ok text?, rest) =>
      proceed opens opened r top.number top.line below rest (top.phase.next rest.lineNo text?)
  | ended outcome => ended outcome

def after : Nat → LineRun ε τ → LineRun ε τ
  | 0, m => m
  | n + 1, m => after n (step opens m)

theorem after_add (k n : Nat) (m : LineRun ε τ) :
    after opens (k + n) m = after opens n (after opens k m) := by
  induction k generalizing m with
  | zero => rw [Nat.zero_add, after]
  | succ k ih => rw [Nat.succ_add, after, after, ih]

end Step

/-! ## Reading an item line by line -/

section Item

variable (opens : Opener) (opened : Nat) (r : Interpreter ε τ) (number line : Nat)
  (below : List Opened) (tag : String)

theorem step_nil (n : Nat) (phase : Phase) :
    step opens (reading ⟨number, ⟨tag, .ok [], n⟩, phase, line⟩ below opened r) =
      proceed opens opened r number line below ⟨tag, .ok [], n⟩ (phase.next n none) := rfl

theorem step_unreadable {raw : Bytes} (h : lineText? raw = none) (rest : List Bytes) (n : Nat)
    (phase : Phase) :
    step opens (reading ⟨number, ⟨tag, .ok (raw :: rest), n⟩, phase, line⟩ below opened r) =
      conclude opens opened r number below (.error .invalidUtf8, ⟨tag, .ok rest, n⟩) := by
  have hread : readPhysical ⟨tag, .ok (raw :: rest), n⟩ =
      (.error .invalidUtf8, ⟨tag, .ok rest, n⟩) := by
    unfold readPhysical
    dsimp only
    rw [h]
  unfold step
  dsimp only
  rw [hread]

theorem step_line {raw : Bytes} {text : String} (h : lineText? raw = some text)
    (rest : List Bytes) (n : Nat) (phase : Phase) :
    step opens (reading ⟨number, ⟨tag, .ok (raw :: rest), n⟩, phase, line⟩ below opened r) =
      proceed opens opened r number line below ⟨tag, .ok rest, n + 1⟩
        (phase.next (n + 1) (some text)) := by
  have hread : readPhysical ⟨tag, .ok (raw :: rest), n⟩ =
      (.ok (some text), ⟨tag, .ok rest, n + 1⟩) := by
    unfold readPhysical
    dsimp only
    rw [h]
  unfold step
  dsimp only
  rw [hread]

theorem exists_after_block (begun n : Nat) (collected : List String) (lines : List Bytes) :
    ∃ k, after opens k (reading
        ⟨number, ⟨tag, .ok lines, n⟩, .collecting begun collected, line⟩ below opened r) =
      conclude opens opened r number below
        ((takeBlock n lines).1.map fun block => some (Phase.blockItem begun (collected ++ block)),
          ⟨tag, .ok (takeBlock n lines).2.1, (takeBlock n lines).2.2⟩) := by
  fun_induction takeBlock n lines generalizing collected with
  | case1 n =>
    refine ⟨1, ?_⟩
    rw [after, after, step_nil]
    simp only [Phase.next, proceed, Except.map, List.append_nil]
  | case2 n raw rest hraw =>
    refine ⟨1, ?_⟩
    rw [after, after, step_unreadable _ _ _ _ _ _ _ hraw]
    rfl
  | case3 n raw rest text hraw hclose =>
    refine ⟨1, ?_⟩
    rw [after, after, step_line _ _ _ _ _ _ _ hraw]
    simp only [Phase.next, hclose, if_true, proceed, Except.map, List.append_nil]
  | case4 n raw rest text hraw hclose lines left count heq ih =>
    obtain ⟨k, hk⟩ := ih (collected ++ [text])
    refine ⟨k + 1, ?_⟩
    rw [after, step_line _ _ _ _ _ _ _ hraw]
    simp only [Phase.next, hclose, proceed, heq] at hk ⊢
    refine hk.trans ?_
    cases lines with
    | error e => rfl
    | ok block => simp only [Except.map, List.append_assoc, List.singleton_append]

theorem exists_after_join (text : String) (n : Nat) (lines : List Bytes) :
    ∃ k, after opens k (proceed opens opened r number line below ⟨tag, .ok lines, n⟩
        (Phase.ofText n text)) =
      match joinLines text n lines with
      | (.error e, left, m) => conclude opens opened r number below (.error e, ⟨tag, .ok left, m⟩)
      | (.ok full, left, m) =>
        proceed opens opened r number line below ⟨tag, .ok left, m⟩ (Phase.behind m full) := by
  fun_induction joinLines text n lines with
  | case1 text n kept hmark =>
    -- at the end of the source the mark is dropped all the same
    refine ⟨1, ?_⟩
    rw [Phase.ofText, hmark]
    rfl
  | case2 text n hmark =>
    refine ⟨0, ?_⟩
    rw [Phase.ofText, hmark]
    rfl
  | case3 text n raw rest hmark =>
    refine ⟨0, ?_⟩
    rw [Phase.ofText, hmark]
    rfl
  | case4 text n raw rest kept hmark hraw =>
    refine ⟨1, ?_⟩
    rw [Phase.ofText, hmark]
    exact step_unreadable opens opened r number line below tag hraw rest n _
  | case5 text n raw rest kept hmark next hraw ih =>
    obtain ⟨k, hk⟩ := ih
    refine ⟨k + 1, ?_⟩
    rw [Phase.ofText, hmark, proceed, after, step_line _ _ _ _ _ _ _ hraw]
    exact hk

theorem exists_after_readItem (source : Source) :
    ∃ k, after opens k (reading ⟨number, source, .between, line⟩ below opened r) =
      conclude opens opened r number below source.readItem := by
  obtain ⟨tag, pending, n⟩ := source
  rcases pending with e | _ | ⟨raw, rest⟩
  · exact ⟨1, rfl⟩
  · exact ⟨1, rfl⟩
  rcases hraw : lineText? raw with _ | text
  · refine ⟨1, ?_⟩
    rw [after, after, step_unreadable _ _ _ _ _ _ _ hraw, readItem_unreadable hraw]
  obtain ⟨k, hk⟩ := exists_after_join opens opened r number line below tag text (n + 1) rest
  rcases hjoin : joinLines text (n + 1) rest with ⟨e | full, left, m⟩
  all_goals
    rw [hjoin] at hk
    dsimp only at hk
  · refine ⟨k + 1, ?_⟩
    rw [after, step_line _ _ _ _ _ _ _ hraw, readItem_unjoined hraw hjoin]
    exact hk
  · by_cases hdirective : Directive.ofLine? full = some (.evaluate "")
    · -- the block begins in one step more
      obtain ⟨l, hl⟩ := exists_after_block opens opened r number line below tag m m [] left
      refine ⟨k + l + 1, ?_⟩
      rw [after, step_line _ _ _ _ _ _ _ hraw, after_add, Phase.next, hk, Phase.behind, hdirective]
      rw [readItem_block hraw hjoin hdirective rfl]
      exact hl
    · refine ⟨k + 1, ?_⟩
      rw [after, step_line _ _ _ _ _ _ _ hraw, Phase.next, hk, Phase.behind,
        readItem_line hraw hjoin hdirective]
      split
      · exact absurd ‹_› hdirective
      · rfl

end Item

/-! ## Whole sources -/

/-- The run after an outcome of a source above others. -/
def settle (below : List Opened) (opened : Nat) :
    EStateM.Result RunError (Interpreter ε τ) Unit → LineRun ε τ
  | .ok _ r => resume below opened r
  | .error e r => fail below e r

/-- The steps over a source above others come to what a run comes to. -/
def Follows (opens : Opener) (source : Source) (below : List Opened) (run : RunM ε τ Unit) :
    Prop :=
  ∀ number line opened r, ∃ k opened',
    after opens k (reading ⟨number, source, .between, line⟩ below opened r) =
      settle below opened' (run r)

/-- A file that is included above others cannot be opened, and a run fails alike, or the steps
over it come to what the run comes to. -/
inductive FollowsFile (opens : Opener) (below : List Opened) (path : String) :
    RunM ε τ Unit → Prop
  | unopened {cause : IoError} (h : opens below.length path = .error cause) :
      FollowsFile opens below path (throw (.unopened path cause))
  | opened {source : Source} {run : RunM ε τ Unit} (h : opens below.length path = .ok source)
      (hfollows : ∀ top, Follows opens source (top :: below) run) :
      FollowsFile opens below path run

theorem discard_runItems {runFile : String → RunM ε τ Unit} {source rest : Source} {item : Item}
    (h : source.readItem = (.ok (some item), rest)) (r : Interpreter ε τ) :
    discard (runItems runFile source) r =
      match perform runFile source.tag item r with
      | .ok true r' => discard (runItems runFile rest) r'
      | .ok false r' => .ok () r'
      | .error e r' => .error e r' := by
  rw [runItems_of_item h]
  unfold discard
  rw [bind_assoc]
  rcases hperform : perform runFile source.tag item r with ⟨_ | _, r'⟩ | ⟨e, r'⟩
  · rw [bind_of_ok hperform]
    rfl
  · rw [bind_of_ok hperform]
    rfl
  · rw [bind_of_error hperform]

/-- Acting on an item, the steps come to what the item comes to, all steps over the file that
it may include among them. -/
theorem exists_after_act {opens : Opener} {runFile : String → RunM ε τ Unit} (top : Opened)
    {below : List Opened} {item : Item} (hline : top.line = item.line)
    (hfile : ∀ path, item.included? = some path → FollowsFile opens below path (runFile path))
    (opened : Nat) (r : Interpreter ε τ) :
    ∃ k opened', after opens k (act opens opened r top below item) =
      match perform runFile top.source.tag item r with
      | .ok true r' => reading top below opened' r'
      | .ok false r' => resume below opened' r'
      | .error e r' => fail below e r' := by
  unfold act
  rcases hpath : item.included? with _ | path
  · -- how files are run does not matter to such an item
    have hsame : perform (fun _ => pure ()) top.source.tag item =
        perform runFile top.source.tag item :=
      perform_congr _ fun path hincluded => by
        rw [hpath] at hincluded
        cases hincluded
    rw [hsame]
    exact ⟨0, opened, rfl⟩
  · have hfollows := hfile path hpath
    generalize hfileRun : runFile path = fileRun at hfollows
    dsimp only
    cases hfollows with
    | @unopened cause hopen =>
      have hfails : runFile path r = .error (.unopened path cause) r := by
        rw [hfileRun]
        rfl
      rw [perform_error_of_included _ hpath hfails, hopen, ← hline]
      exact ⟨0, opened, rfl⟩
    | @opened source _ hopen hfollows =>
      rw [hopen]
      -- at its end the source below goes on
      obtain ⟨k, opened', hk⟩ := hfollows top opened 0 (opened + 1) r
      refine ⟨k, opened', ?_⟩
      rw [hk, ← hfileRun]
      rcases hrun : runFile path r with ⟨⟨⟩, r'⟩ | ⟨e, r'⟩
      · rw [perform_ok_of_included _ hpath hrun]
        rfl
      · rw [perform_error_of_included _ hpath hrun, ← hline]
        rfl

/-- The steps over a source come to what running its items comes to, if those over the files
that it includes do. -/
theorem follows_runItems {opens : Opener} {runFile : String → RunM ε τ Unit} {source : Source}
    {below : List Opened}
    (hfiles : ∀ path ∈ source.reading.includes, FollowsFile opens below path (runFile path)) :
    Follows opens source below (discard (runItems runFile source)) := by
  -- by the number of lines left to read, as the run itself recurses
  induction hlength : source.remaining.length using Nat.strongRecOn generalizing source with
  | ind length ih =>
    intro number line opened r
    obtain ⟨k, hk⟩ := exists_after_readItem opens opened r number line below source
    have htag : source.readItem.2.tag = source.tag := tag_readItem source
    rcases hitem : source.readItem with ⟨e | _ | item, rest⟩
    all_goals
      rw [hitem] at hk htag
      dsimp only at htag
    · have hrun : runItems runFile source r = .error (.unreadable source.tag e) r := by
        rw [runItems_of_error hitem]
        rfl
      rw [discard_of_error hrun, ← htag]
      exact ⟨k, opened, hk⟩
    · have hrun : runItems runFile source r = .ok rest r := by
        rw [runItems_of_none hitem]
        rfl
      rw [discard_of_ok hrun]
      exact ⟨k, opened, hk⟩
    rw [reading_of_item hitem, Reading.includes] at hfiles
    have hrest : Follows opens rest below (discard (runItems runFile rest)) :=
      ih _ (hlength ▸ length_readItem hitem)
        (fun path hpath => hfiles path (List.mem_append_right _ hpath)) rfl
    obtain ⟨l, opened', hl⟩ := exists_after_act ⟨number, rest, .between, item.line⟩ rfl
      (fun path hpath => hfiles path (List.mem_append_left _ (by simp [hpath]))) opened r
    have hacted := (after_add opens k l _).trans ((congrArg (after opens l) hk).trans hl)
    rw [discard_runItems hitem, ← htag]
    dsimp only at hacted
    rcases hperform : perform runFile rest.tag item r with ⟨_ | _, r'⟩ | ⟨e, r'⟩
    all_goals rw [hperform] at hacted
    · exact ⟨k + l, opened', hacted⟩
    · obtain ⟨n, opened'', hn⟩ := hrest number item.line opened' r'
      refine ⟨k + l + n, opened'', ?_⟩
      rw [after_add, hacted]
      exact hn
    · exact ⟨k + l, opened', hacted⟩

/-- With so many files to open, the steps come to the outcome of the run. -/
theorem follows_limited (files : FileTree) {limit budget : Nat} (source : Source)
    {below : List Opened} (hdepth : below.length + budget = limit) :
    Follows (.limited files limit) source below
      (discard (runItems (runPath files budget) source) : RunM ε τ Unit) := by
  induction budget generalizing source below with
  | zero =>
    refine follows_runItems fun path _ => .unopened ?_
    have hnone : limit - below.length = 0 := by omega
    rw [Opener.limited, hnone]
    rfl
  | succ budget ih =>
    refine follows_runItems fun path _ => ?_
    have hsome : Opener.limited files limit below.length path = openPath files path := by
      have hleft : limit - below.length = budget + 1 := by omega
      rw [Opener.limited, hleft]
      rfl
    rcases hopen : openPath files path with cause | inner
    · rw [runPath_of_error budget hopen]
      exact .unopened (hsome.trans hopen)
    · rw [runPath_opened budget hopen]
      refine .opened (hsome.trans hopen) fun top => ih inner ?_
      rw [List.length_cons]
      omega

/-- With any number of files to open, the steps come to the outcome of the run if the files
nest no deeper than its limit. -/
theorem follows_unlimited {files : FileTree} {depth limit : Nat} {source : Source}
    (hnests : NestsWithin files depth source.reading) (hlimit : depth ≤ limit)
    (below : List Opened) :
    Follows (.unlimited files) source below
      (discard (runItems (runPath files limit) source) : RunM ε τ Unit) := by
  induction depth generalizing source limit below with
  | zero =>
    refine follows_runItems fun path hpath => ?_
    rw [show source.reading.includes = [] from hnests] at hpath
    cases hpath
  | succ depth ih =>
    obtain ⟨limit, rfl⟩ := Nat.exists_eq_add_of_lt hlimit
    refine follows_runItems fun path hpath => ?_
    rcases hopen : openPath files path with cause | inner
    · rw [runPath_of_error _ hopen]
      exact .unopened hopen
    · rw [runPath_opened _ hopen]
      exact .opened hopen fun top => ih (hnests path hpath inner hopen) (by omega) _

end LineRun

end Interpreter

end ScpiScript
