import ScpiScript.CommandLine.Arguments
/-!
# Argument lists without their last actions

The last actions of an argument list can be taken out of it together with their options.
What is left is read as the same flags, the same request for help and the actions before
them, each at the position where it stood.

- `Arguments.keep` takes the actions out.
- `read_keep` is what is read then.
-/

namespace ScpiScript

namespace Arguments

/-- An argument list with only so many of its actions. Flags stay, and so does a request for
help with all that follows it. -/
def keep (count : Nat) : List String → List String
  | [] => []
  | option :: rest =>
    match OptionKind.ofText option with
    | .help => option :: rest
    | .parameter _ =>
      match rest with
      | [] => [option]
      | parameter :: rest =>
        if count = 0 then keep 0 rest else option :: parameter :: keep (count - 1) rest
    | _ => option :: keep count rest

section Keep

variable {option : String}

theorem keep_help (h : OptionKind.ofText option = .help) (count : Nat) (rest : List String) :
    keep count (option :: rest) = option :: rest := by
  rw [keep.eq_def]
  simp only [h]

theorem keep_flag {set : Arguments → Arguments} (h : OptionKind.ofText option = .flag set)
    (count : Nat) (rest : List String) :
    keep count (option :: rest) = option :: keep count rest := by
  rw [keep.eq_def]
  simp only [h]

theorem keep_parameter {action : String → Nat → Action}
    (h : OptionKind.ofText option = .parameter action) (count : Nat) (parameter : String)
    (rest : List String) :
    keep count (option :: parameter :: rest) =
      if count = 0 then keep 0 rest else option :: parameter :: keep (count - 1) rest := by
  rw [keep.eq_def]
  simp only [h]

end Keep

def withActions (a : Arguments) (actions : List Action) : Arguments := { a with actions }

@[simp] theorem withActions_self (a : Arguments) : a.withActions a.actions = a := rfl

@[simp] theorem withActions_push (a : Arguments) (action : Action) (list : List Action) :
    (a.push action).withActions list = a.withActions list := rfl

/-- A flag has nothing to do with the actions. -/
theorem withActions_flag {option : String} {set : Arguments → Arguments}
    (h : OptionKind.ofText option = .flag set) (a : Arguments) (list : List Action) :
    set (a.withActions list) = (set a).withActions list ∧ (set a).actions = a.actions := by
  unfold OptionKind.ofText at h
  repeat' split at h
  all_goals cases h
  all_goals exact ⟨rfl, rfl⟩

/-! ## Reading on from a position -/

section ReadFrom

variable {position : Nat} {a arguments : Arguments} {list : List String}

/-- Without the rest of the actions, the rest of the flags is read. -/
theorem readFrom_keep_zero (h : readFrom position a list = .ok arguments) (position' : Nat)
    (actions : List Action) :
    readFrom position' (a.withActions actions) (keep 0 list) =
      .ok (arguments.withActions actions) := by
  fun_induction readFrom position a list generalizing position' with
  | case1 position a =>
    cases h
    rfl
  | case2 position a option rest hkind =>
    cases h
    rw [keep_help hkind, readFrom, hkind]
    rfl
  | case3 position a option rest set hkind ih =>
    rw [keep_flag hkind, readFrom, hkind]
    dsimp only
    rw [(withActions_flag hkind a actions).1]
    exact ih h (position' + 1)
  | case4 position a option action hkind => cases h
  | case5 position a option action hkind parameter rest ih =>
    rw [keep_parameter hkind, if_pos rfl]
    exact ih h position'
  | case6 position a option rest hkind => cases h

/-- With some of the actions to come, they are read in front of the rest of the flags. -/
theorem readFrom_keep (h : readFrom position a list = .ok arguments) :
    ∃ more, arguments.actions = a.actions ++ more ∧
      ∀ count, readFrom position a (keep count list) =
        .ok (arguments.withActions (a.actions ++ more.take count)) := by
  fun_induction readFrom position a list with
  | case1 position a =>
    cases h
    exact ⟨[], (List.append_nil _).symm, fun count => by simp [keep, readFrom]⟩
  | case2 position a option rest hkind =>
    cases h
    refine ⟨[], (List.append_nil _).symm, fun count => ?_⟩
    rw [keep_help hkind, readFrom, hkind]
    simp [withActions]
  | case3 position a option rest set hkind ih =>
    obtain ⟨more, hmore, hkeep⟩ := ih h
    have hset := (withActions_flag hkind a []).2
    rw [hset] at hmore hkeep
    refine ⟨more, hmore, fun count => ?_⟩
    rw [keep_flag hkind, readFrom, hkind]
    exact hkeep count
  | case4 position a option action hkind => cases h
  | case5 position a option action hkind parameter rest ih =>
    obtain ⟨more, hmore, hkeep⟩ := ih h
    have hpushed : (a.push (action parameter position)).actions =
        a.actions ++ [action parameter position] := rfl
    rw [hpushed, List.append_assoc] at hmore
    refine ⟨_, hmore, fun count => ?_⟩
    rw [keep_parameter hkind]
    cases count with
    | zero =>
      -- the positions of the actions left out do not matter
      rw [if_pos rfl, List.take_zero, List.append_nil]
      have hzero := readFrom_keep_zero h position a.actions
      rwa [withActions_push, withActions_self] at hzero
    | succ count =>
      rw [if_neg (Nat.succ_ne_zero count), readFrom, hkind]
      dsimp only
      rw [Nat.add_sub_cancel, hkeep count, hpushed, List.append_assoc]
      rfl
  | case6 position a option rest hkind => cases h

theorem actions_readFrom_single {only : String}
    (h : readFrom position a [only] = .ok arguments) : arguments.actions = a.actions := by
  rw [readFrom] at h
  rcases hkind : OptionKind.ofText only with _ | set | action | _
  all_goals rw [hkind] at h
  · cases h
    rfl
  · cases h
    exact (withActions_flag hkind a []).2
  · cases h
  · cases h

end ReadFrom

/-! ## Reading a whole list -/

variable {list : List String} {arguments : Arguments}

/-- The ways to ask for help alone are no matter where there is something to do. -/
theorem read_eq_ok_iff (hactions : arguments.actions ≠ []) :
    read list = .ok arguments ↔ readFrom 1 empty list = .ok arguments := by
  match list with
  | [] => rfl
  | [only] =>
    have hsingle : readFrom 1 empty [only] ≠ .ok arguments :=
      fun h => hactions (actions_readFrom_single h)
    refine iff_of_false ?_ hsingle
    rw [read]
    split
    · intro h
      cases h
      exact hactions rfl
    · exact hsingle
  | _ :: _ :: _ => rfl

/-- A list whose later actions were taken out is read as the same flags and help, and the
actions that are left. -/
theorem read_keep (h : read list = .ok arguments) (count : Nat)
    (hkept : arguments.actions.take count ≠ []) :
    read (keep count list) = .ok (arguments.withActions (arguments.actions.take count)) := by
  have hactions : arguments.actions ≠ [] := by
    intro hnone
    rw [hnone, List.take_nil] at hkept
    exact hkept rfl
  rw [read_eq_ok_iff hactions] at h
  obtain ⟨more, hmore, hkeep⟩ := readFrom_keep h
  have hmore : arguments.actions = more := hmore
  subst hmore
  exact (read_eq_ok_iff hkept).mpr (hkeep count)

end Arguments

end ScpiScript
