import ScpiScript.Proofs.CommandLine.Exit
import ScpiScript.Proofs.Source.Part
/-!
# Scripts that share standard input

Each action that runs a script from standard input goes on where the one before has stopped,
and counts lines from one again. So it does what it would do if standard input had been cut
into parts and each action had been given its own.

- `Interpreter.runItems_part`: a run over a part and what is behind it is a run over the part.
- `Program.inParts` carries out actions with the parts already cut.
- `Program.stdin_inParts` says that the program comes to the same.
-/

namespace ScpiScript

open Source

namespace Interpreter

variable {ε τ : Type} [Engine ε] [Link τ]

/-! ## Runs over a part -/

/-- A run over a part does not see what is behind it, and leaves that over. -/
theorem runItems_part {part rest : List Bytes} (h : EndsScript part rest)
    (runFile : String → RunM ε τ Unit) (tag : String) (n : Nat) :
    runItems runFile ⟨tag, .ok (part ++ rest), n⟩ =
      (runItems runFile ⟨tag, .ok part, n⟩ >>= fun _ =>
        pure ⟨tag, .ok rest, n + part.length⟩) := by
  induction h generalizing n with
  | @here item lines rest hitem hends =>
    have halone : ItemOf item lines [] := hitem.before fun _ => rfl
    have hread := halone tag n
    rw [List.append_nil] at hread
    have hperform : perform runFile tag ⟨item.directive, n + item.line⟩ = pure false :=
      perform_terminate runFile tag hends
    rw [runItems_of_item (hitem tag n), runItems_of_item hread]
    dsimp only
    rw [hperform]
    rfl
  | @later item first others rest hitem hgoes _ ih =>
    have halone : ItemOf item first others :=
      hitem.before fun hnil => (List.append_eq_nil_iff.mp hnil).1
    have hperform : perform runFile tag ⟨item.directive, n + item.line⟩ = _ :=
      perform_eq runFile tag hgoes
    have hcount : n + (first ++ others).length = n + first.length + others.length := by
      rw [List.length_append, Nat.add_assoc]
    rw [List.append_assoc, runItems_of_item (hitem tag n), runItems_of_item (halone tag n)]
    dsimp only
    rw [hperform, hcount]
    simp only [bind_assoc, pure_bind, if_true, ih]

/-- A run that meets no line that ends its script comes to the end of the lines. -/
theorem runItems_unended {lines : List Bytes}
    (hnone : ∀ front rest, lines = front ++ rest → ¬ EndsScript front rest)
    {runFile : String → RunM ε τ Unit} {tag : String} {n : Nat} {rest : Source}
    {r r' : Interpreter ε τ} (h : runItems runFile ⟨tag, .ok lines, n⟩ r = .ok rest r') :
    ∃ m, rest = ⟨tag, .ok [], m⟩ := by
  -- by the number of lines, which every item makes smaller
  induction hlength : lines.length using Nat.strongRecOn generalizing lines n r with
  | ind k ih =>
    rcases hitem : readItem ⟨tag, .ok lines, n⟩ with ⟨e | _ | item, s⟩
    · rw [runItems_of_error hitem] at h
      cases h
    · obtain ⟨-, rfl⟩ := readItem_eq_none hitem
      rw [runItems_of_none hitem] at h
      cases h
      exact ⟨n, rfl⟩
    · obtain ⟨own, taken, left, rfl, rfl, rfl, htaken⟩ := exists_itemOf hitem
      have hown : ItemOf own taken left := htaken left id
      have hgoes : own.directive ≠ some .terminate := fun hends =>
        hnone taken left rfl (.here hown hends)
      have hperform : perform runFile tag ⟨own.directive, n + own.line⟩ = _ :=
        perform_eq runFile tag hgoes
      rw [runItems_of_item hitem] at h
      dsimp only at h
      rw [hperform, bind_assoc] at h
      rcases haction : action runFile tag ⟨own.directive, n + own.line⟩ r with ⟨_, t⟩ | ⟨e, t⟩
      · rw [bind_of_ok haction, pure_bind, if_pos rfl] at h
        have hfirst : 0 < taken.length := List.length_pos_iff.mpr hown.ne_nil
        rw [List.length_append] at hlength
        refine ih left.length (by omega) (fun front rest hsame hends => ?_) h rfl
        subst hsame
        exact hnone (taken ++ front) rest (List.append_assoc taken front rest).symm
          (.later hown hgoes hends)
      · rw [bind_of_error haction] at h
        cases h

/-- A run over lines is a run over their first part, and leaves the other parts over. -/
theorem runItems_parts {lines : List Bytes} {parts : List (List Bytes)} (h : Parts lines parts)
    (runFile : String → RunM ε τ Unit) (tag : String) :
    (runItems runFile ⟨tag, .ok lines, 0⟩ >>= fun rest => pure { rest with lineNo := 0 }) =
      (runItems runFile ⟨tag, .ok (parts.headD []), 0⟩ >>= fun _ =>
        (pure ⟨tag, .ok parts.tail.flatten, 0⟩ : RunM ε τ Source)) := by
  cases h with
  | nil =>
    rw [List.headD_nil, runItems_of_none (readItem_nil tag 0)]
    rfl
  | @ended part rest parts hends hrest =>
    rw [runItems_part hends, bind_assoc, List.headD_cons, List.tail_cons, hrest.flatten_eq]
    rfl
  | unended hne hnone =>
    funext r
    rw [List.headD_cons]
    rcases hrun : runItems runFile ⟨tag, .ok lines, 0⟩ r with ⟨rest, r'⟩ | ⟨e, r'⟩
    · obtain ⟨m, rfl⟩ := runItems_unended hnone hrun
      rw [bind_of_ok hrun, bind_of_ok hrun]
      rfl
    · rw [bind_of_error hrun, bind_of_error hrun]

end Interpreter

namespace Program

open Interpreter

variable {ε τ : Type} [Engine ε] [Link τ]

/-! ## Actions and standard input -/

section Script

omit [Engine ε] [Link τ]

theorem script_pure {α : Type} (a : α) :
    script (pure a : RunM ε τ α) = (pure a : ProgramM ε τ α) := rfl

/-- A script part that comes in two is two script parts. -/
theorem script_bind {α β : Type} (m : RunM ε τ α) (f : α → RunM ε τ β) :
    script (m >>= f) = (script m >>= fun a => script (f a) : ProgramM ε τ β) := by
  funext s
  rcases hm : m s.interpreter with ⟨a, r⟩ | ⟨e, r⟩
  · rw [bind_of_ok (script_of_ok hm), script, script, bind_of_ok hm]
  · rw [bind_of_error (script_of_error hm), script_of_error (bind_of_error hm)]

end Script

/-- What runs a script from standard input runs the first part of it, and leaves the others
over, with lines counted from one. -/
theorem runStdin_parts (files : FileTree) {s : State ε τ} {lines : List Bytes}
    {parts : List (List Bytes)} (hstdin : s.stdin = ⟨stdinTag, .ok lines, 0⟩)
    (h : Parts lines parts) :
    runStdin files s =
      (script (runSource files openLimit ⟨stdinTag, .ok (parts.headD []), 0⟩) >>= fun _ =>
        modify fun s => { s with stdin := ⟨stdinTag, .ok parts.tail.flatten, 0⟩ }) s := by
  have hkept : ∀ m : RunM ε τ Source,
      (script m >>= fun rest => modify fun s => { s with stdin := { rest with lineNo := 0 } }) =
        (script (m >>= fun rest => pure { rest with lineNo := 0 }) >>= fun rest =>
          modify fun s => { s with stdin := rest } : ProgramM ε τ PUnit) := by
    intro m
    rw [script_bind]
    simp only [script_pure, bind_assoc, pure_bind]
  rw [runStdin_eq, hstdin, hkept]
  unfold runSource
  rw [runItems_parts h, script_bind]
  simp only [script_pure, bind_assoc, pure_bind]

/-- Two states that differ in nothing but what is left of standard input. -/
structure Alike (s t : State ε τ) : Prop where
  interpreter_eq : s.interpreter = t.interpreter
  notices_eq : s.notices = t.notices

/-- Two such states, and what is left in each. -/
structure Beside (left right : Source) (s t : State ε τ) : Prop extends Alike s t where
  left_eq : s.stdin = left
  right_eq : t.stdin = right

section Beside

variable {left right : Source} {s t : State ε τ}

omit [Engine ε] [Link τ] in
/-- A script part does not see standard input. -/
theorem beside_script (h : Beside left right s t) {α : Type} (m : RunM ε τ α) :
    Corresponds (· = ·) (· = ·) (Beside left right) (script m s) (script m t) := by
  unfold script
  rw [h.interpreter_eq]
  rcases m t.interpreter with ⟨a, r⟩ | ⟨e, r⟩
  · exact .ok rfl ⟨⟨rfl, h.notices_eq⟩, h.left_eq, h.right_eq⟩
  · exact .error rfl ⟨⟨rfl, h.notices_eq⟩, h.left_eq, h.right_eq⟩

omit [Engine ε] in
theorem beside_closeSession (h : Beside left right s t) :
    Corresponds (· = ·) (· = ·) (Beside left right) (closeSession s) (closeSession t) := by
  refine (beside_script h _).bind fun a b s' t' _ _ hresult hbeside => ?_
  subst hresult
  rcases a with e | _
  · exact .ok rfl ⟨⟨hbeside.interpreter_eq, congrArg (· ++ _) hbeside.notices_eq⟩,
      hbeside.left_eq, hbeside.right_eq⟩
  · exact .ok rfl hbeside

omit [Engine ε] in
theorem beside_openSession (h : Beside left right s t) (setup : Setup ε τ) (address : String) :
    Corresponds (· = ·) (· = ·) (Beside left right) (openSession setup address s)
      (openSession setup address t) := by
  refine (beside_closeSession h).bind fun _ _ s' t' _ _ _ hclosed => ?_
  refine (beside_script hclosed _).bind fun a b s' t' _ _ hresult hbeside => ?_
  subst hresult
  rcases a with e | _
  · exact .error rfl hbeside
  · exact .ok rfl hbeside

omit [Engine ε] in
theorem beside_opening (h : Beside left right s t) (setup : Setup ε τ)
    (address : Option String) :
    Corresponds (· = ·) (· = ·) (Beside left right) (opening setup address s)
      (opening setup address t) := by
  cases address with
  | none => exact .ok rfl h
  | some a => exact beside_openSession h setup a

/-- Nor does an action, unless it runs the script on it. -/
theorem beside_act (h : Beside left right s t) (setup : Setup ε τ) (files : FileTree)
    {action : Action} (hother : action ≠ .runStdin) :
    Corresponds (· = ·) (· = ·) (Beside left right) (act setup files action s)
      (act setup files action t) := by
  cases action with
  | openSession address => exact beside_openSession h setup address
  | evaluate code index => exact beside_script h _
  | runFile path => exact beside_script h _
  | runStdin => exact absurd rfl hother

omit [Engine ε] in
theorem stdin_opening {setup : Setup ε τ} {address : Option String}
    (hopen : opening setup address s = .ok () t) : t.stdin = s.stdin := by
  have hbeside : Beside s.stdin s.stdin s s := ⟨⟨rfl, rfl⟩, rfl, rfl⟩
  have hleft := (beside_opening hbeside setup address).finalState.left_eq
  rwa [hopen] at hleft

theorem stdin_act {setup : Setup ε τ} {files : FileTree} {action : Action}
    (hother : action ≠ .runStdin) (hact : act setup files action s = .ok () t) :
    t.stdin = s.stdin := by
  have hbeside : Beside s.stdin s.stdin s s := ⟨⟨rfl, rfl⟩, rfl, rfl⟩
  have hleft := (beside_act hbeside setup files hother).finalState.left_eq
  rwa [hact] at hleft

omit [Engine ε] in
/-- What is seen of a run does not depend on what is left of standard input. -/
theorem conclude_congr (help : Bool) {x y : EStateM.Result Failure (State ε τ) Unit}
    (h : Corresponds (· = ·) (· = ·) Alike x y) :
    conclude help x = conclude help y := by
  have hclosed : ∀ (r : Interpreter ε τ) (source source' : Source) (lines : List String),
      ∃ s t, closeSession ⟨r, source, lines⟩ = .ok () s ∧
        closeSession ⟨r, source', lines⟩ = .ok () t ∧ s.notices = t.notices := by
    intro r source source' lines
    have hbeside : Beside source source' ⟨r, source, lines⟩ ⟨r, source', lines⟩ :=
      ⟨⟨rfl, rfl⟩, rfl, rfl⟩
    obtain ⟨s, hs, -⟩ := transcript_closeSession (⟨r, source, lines⟩ : State ε τ)
    obtain ⟨t, ht, -⟩ := transcript_closeSession (⟨r, source', lines⟩ : State ε τ)
    have hstate := (beside_closeSession hbeside).finalState
    rw [hs, ht] at hstate
    exact ⟨s, t, hs, ht, hstate.notices_eq⟩
  cases h with
  | @ok _ _ s t _ hstate =>
    obtain ⟨s', t', hs, ht, hlines⟩ := hclosed t.interpreter s.stdin t.stdin
      (t.notices ++ lastNotices none t.interpreter.instrument.isOpen)
    unfold conclude
    dsimp only
    rw [hstate.interpreter_eq, hstate.notices_eq, hs, ht, hlines]
  | @error _ d s t hcause hstate =>
    obtain ⟨s', t', hs, ht, hlines⟩ := hclosed t.interpreter s.stdin t.stdin
      (t.notices ++ lastNotices (some d) t.interpreter.instrument.isOpen)
    unfold conclude
    dsimp only
    rw [hcause, hstate.interpreter_eq, hstate.notices_eq, hs, ht, hlines]

end Beside

/-! ## Actions with the parts already cut -/

/-- Carry out actions. One that runs a script from standard input takes the next part as its
source, or no line if no part is left. -/
def inParts (setup : Setup ε τ) (files : FileTree) :
    List Action → List (List Bytes) → ProgramM ε τ Unit
  | [], _ => pure ()
  | action :: later, parts =>
    if action = .runStdin then do
      let _ ← script (runSource files openLimit ⟨stdinTag, .ok (parts.headD []), 0⟩)
      inParts setup files later parts.tail
    else do
      act setup files action
      inParts setup files later parts

section InParts

variable {setup : Setup ε τ} {files : FileTree} {action : Action} {later list : List Action}
  {lines : List Bytes} {parts : List (List Bytes)} {s s' t : State ε τ}

theorem inParts_stdin :
    inParts setup files (.runStdin :: later) parts =
      (script (runSource files openLimit ⟨stdinTag, .ok (parts.headD []), 0⟩) >>= fun _ =>
        inParts setup files later parts.tail) := by
  rw [inParts, if_pos rfl]

theorem inParts_other (hother : action ≠ .runStdin) :
    inParts setup files (action :: later) parts =
      (act setup files action >>= fun _ => inParts setup files later parts) := by
  rw [inParts, if_neg hother]

/-- Actions do what they do with the parts already cut. -/
theorem forM_inParts (hstdin : s.stdin = ⟨stdinTag, .ok lines, 0⟩) (h : Parts lines parts)
    (halike : Alike s t) :
    Corresponds (· = ·) (· = ·) Alike (list.forM (act setup files) s)
      (inParts setup files list parts t) := by
  induction list generalizing lines parts s t with
  | nil => exact .ok rfl halike
  | cons action later ih =>
    rw [forM_act_cons]
    by_cases hother : action = .runStdin
    · subst hother
      have hact : act setup files .runStdin s = _ := runStdin_parts files hstdin h
      rw [inParts_stdin]
      rcases hpart : runSource files openLimit ⟨stdinTag, .ok (parts.headD []), 0⟩ s.interpreter
        with ⟨rest, r⟩ | ⟨e, r⟩
      · rw [bind_of_ok (script_of_ok hpart)] at hact
        rw [halike.interpreter_eq] at hpart
        rw [bind_of_ok hact, bind_of_ok (script_of_ok hpart)]
        exact ih rfl h.tail ⟨rfl, halike.notices_eq⟩
      · rw [bind_of_error (script_of_error hpart)] at hact
        rw [halike.interpreter_eq] at hpart
        rw [bind_of_error hact, bind_of_error (script_of_error hpart)]
        exact .error rfl ⟨rfl, halike.notices_eq⟩
    · have hbeside : Beside s.stdin t.stdin s t := ⟨halike, rfl, rfl⟩
      rw [inParts_other hother]
      refine ((beside_act hbeside setup files hother).imp (fun _ _ => id) (fun _ _ => id)
        fun _ _ => Beside.toAlike).bind fun _ _ s' t' hs _ _ halike' => ?_
      exact ih ((stdin_act hother hs).trans hstdin) h halike'

/-- After actions that succeed, the parts that they have not run are left over. -/
theorem stdin_forM (hstdin : s.stdin = ⟨stdinTag, .ok lines, 0⟩) (h : Parts lines parts)
    (hrun : list.forM (act setup files) s = .ok ⟨⟩ s') :
    s'.stdin = ⟨stdinTag, .ok (parts.drop (list.count .runStdin)).flatten, 0⟩ := by
  induction list generalizing lines parts s with
  | nil =>
    cases hrun
    rw [hstdin, ← h.flatten_eq]
    rfl
  | cons action later ih =>
    rw [forM_act_cons] at hrun
    by_cases hother : action = .runStdin
    · subst hother
      have hact : act setup files .runStdin s = _ := runStdin_parts files hstdin h
      rcases hpart : runSource files openLimit ⟨stdinTag, .ok (parts.headD []), 0⟩ s.interpreter
        with ⟨rest, r⟩ | ⟨e, r⟩
      · rw [bind_of_ok (script_of_ok hpart)] at hact
        rw [bind_of_ok hact] at hrun
        rw [ih rfl h.tail hrun, List.count_cons_self, List.drop_tail]
      · rw [bind_of_error (script_of_error hpart)] at hact
        rw [bind_of_error hact] at hrun
        cases hrun
    · rw [List.count_cons_of_ne hother]
      rcases hs : act setup files action s with ⟨_, t⟩ | ⟨e, t⟩
      · rw [bind_of_ok hs] at hrun
        exact ih ((stdin_act hother hs).trans hstdin) h hrun
      · rw [bind_of_error hs] at hrun
        cases hrun

end InParts

/-- Actions that run scripts from standard input share it without loss. It falls into parts in
one way, each up to the line that ends it as a script, and no line of it is lost. The program
does what it does if the parts are cut beforehand: each such action runs the next part, with the
interpreter as the actions before have left it and with lines counted from one, and one for which
no part is left runs no line. After any actions that succeed, exactly the parts that they have
not run are still to be read. -/
theorem stdin_inParts (setup : Setup ε τ) {invocation : Invocation} {arguments : Arguments}
    (hread : Arguments.read invocation.arguments = .ok arguments)
    (hhelp : ¬ (arguments.help = true ∧ arguments.actions = [])) :
    ∃ parts, Parts (physicalLines invocation.stdin) parts ∧
      (∀ others, Parts (physicalLines invocation.stdin) others → others = parts) ∧
      parts.flatten = physicalLines invocation.stdin ∧
      run setup invocation = conclude arguments.help
        ((opening setup (loadSettings arguments invocation).1.address >>= fun _ =>
          inParts setup invocation.files arguments.actions parts).run
            (startState setup arguments invocation)) ∧
      ∀ earlier s, carryOut setup arguments invocation earlier = .ok () s →
        s.stdin = ⟨stdinTag, .ok (parts.drop (earlier.count .runStdin)).flatten, 0⟩ := by
  obtain ⟨parts, hparts⟩ := exists_parts (physicalLines invocation.stdin)
  have hstart : (startState setup arguments invocation).stdin =
      ⟨stdinTag, .ok (physicalLines invocation.stdin), 0⟩ := rfl
  refine ⟨parts, hparts, fun others h => h.unique hparts, hparts.flatten_eq, ?_, ?_⟩
  · rw [run_of_read setup hread hhelp]
    refine conclude_congr arguments.help ?_
    unfold carryOut EStateM.run
    rw [actions_eq]
    rcases hopen : opening setup (loadSettings arguments invocation).1.address
      (startState setup arguments invocation) with ⟨_, t⟩ | ⟨e, t⟩
    · rw [bind_of_ok hopen, bind_of_ok hopen]
      exact forM_inParts ((stdin_opening hopen).trans hstart) hparts ⟨rfl, rfl⟩
    · rw [bind_of_error hopen, bind_of_error hopen]
      exact .error rfl ⟨rfl, rfl⟩
  · intro earlier s hrun
    obtain ⟨t, hopen, hforM⟩ := carryOut_eq_ok hrun
    exact stdin_forM ((stdin_opening hopen).trans hstart) hparts hforM

/-- A run of three scripts from standard input. The first has two lines that begin with a dot
and do not end it: one in a block of code, and one that continues another. -/
def threeScripts : Invocation where
  arguments := ["-n", "-f", "-", "-f", "-", "-f", "-"]
  stdin := Utf8.encode "=\nx =\n.5\n_\n>a\\\n.b\n.\n>two\n.\n>three\n.\n"
  files := ⟨[], []⟩
  environment := ⟨none, none, "", none, ""⟩

/-- Its parts. -/
def threeParts : List (List Bytes) :=
  ["=\nx =\n.5\n_\n>a\\\n.b\n.\n", ">two\n.\n", ">three\n.\n"].map fun text =>
    physicalLines (Utf8.encode text)

/-- What its arguments ask for. -/
def threeArguments : Arguments := ⟨[.runStdin, .runStdin, .runStdin], false, false, true⟩

theorem stdin_inParts_threeScripts :
    Parts (physicalLines threeScripts.stdin) threeParts ∧
      run Setup.offline threeScripts = conclude false
        ((opening Setup.offline (loadSettings threeArguments threeScripts).1.address >>= fun _ =>
          inParts Setup.offline threeScripts.files threeArguments.actions threeParts).run
            (startState Setup.offline threeArguments threeScripts)) := by
  have hread : Arguments.read threeScripts.arguments = .ok threeArguments := rfl
  have hhelp : ¬ (threeArguments.help = true ∧ threeArguments.actions = []) := fun h => nomatch h.1
  -- what each line is, whatever follows it
  have hblock : ∀ rest, ItemOf ⟨some (.evaluate "x =\n.5"), 1⟩
      [[61, 10], [120, 32, 61, 10], [46, 53, 10], [95, 10]] rest := fun rest tag n =>
    readItem_block (rfl : lineText? [61, 10] = some "=") (joinLines_of_none rfl (n + 1) _)
      (by decide) rfl
  have hjoined : ∀ rest, ItemOf ⟨Directive.ofLine? ">a.b", 2⟩ [[62, 97, 92, 10], [46, 98, 10]]
      rest := by
    intro rest
    have hjoin : joinLines ">a\\" 0 ([[46, 98, 10]] ++ rest) = (.ok ">a.b", rest, 1) := by
      cases rest <;> rfl
    have htext : lineText? [62, 97, 92, 10] = some ">a\\" := rfl
    exact (lineOf_of_joinLines htext hjoin (by decide)).itemOf
  have hsingle : ∀ {raw : Bytes} {text : String}, lineText? raw = some text →
      dropMark? text = none → Directive.ofLine? text ≠ some (.evaluate "") →
        ∀ rest, ItemOf ⟨Directive.ofLine? text, 1⟩ [raw] rest :=
    fun htext hmark hdirective rest => (lineOf_single htext hmark hdirective rest).itemOf
  have htwo := hsingle (rfl : lineText? [62, 116, 119, 111, 10] = some ">two") rfl (by decide)
  have hthree :=
    hsingle (rfl : lineText? [62, 116, 104, 114, 101, 101, 10] = some ">three") rfl (by decide)
  have hdot : ∀ rest, EndsScript [[46, 10]] rest := fun rest =>
    .here (hsingle (rfl : lineText? [46, 10] = some ".") rfl (by decide) rest) (by decide)
  have hparts : Parts (physicalLines threeScripts.stdin) threeParts := by
    have hlines : physicalLines threeScripts.stdin = threeParts.flatten := by decide
    have hcut : threeParts =
        [[[61, 10], [120, 32, 61, 10], [46, 53, 10], [95, 10]] ++
            ([[62, 97, 92, 10], [46, 98, 10]] ++ [[46, 10]]),
          [[62, 116, 119, 111, 10]] ++ [[46, 10]],
          [[62, 116, 104, 114, 101, 101, 10]] ++ [[46, 10]]] := by decide
    rw [hlines, hcut]
    exact .ended (.later (hblock _) (by decide) (.later (hjoined _) (by decide) (hdot _)))
      (.ended (.later (htwo _) (by decide) (hdot _))
        (.ended (.later (hthree _) (by decide) (hdot _)) .nil))
  obtain ⟨parts, -, hunique, -, hrun, -⟩ := stdin_inParts Setup.offline hread hhelp
  obtain rfl := hunique threeParts hparts
  exact ⟨hparts, hrun⟩

end Program

end ScpiScript
