import Mathlib.Data.List.Forall2
import ScpiScript.Source.Basic
/-!
# Trees with the same places

Two trees of files have the same places if they differ only in what their files hold. A
path then leads to the same place in both, or to none for the same reason.

- `FileTree.Alike` relates such trees, given how the contents of their files compare.
- `find_alike` is what stands at a path.
-/

namespace ScpiScript

/-- Two files whose contents compare, or two directories. -/
inductive Node.Alike (C : Bytes → Bytes → Prop) : Node → Node → Prop
  | file {content content' : Bytes} (h : C content content') :
      Alike C (.file content) (.file content')
  | directory : Alike C .directory .directory

/-- Two trees with the same places, whose files compare. -/
structure FileTree.Alike (C : Bytes → Bytes → Prop) (tree tree' : FileTree) : Prop where
  workingDirectory : tree.workingDirectory = tree'.workingDirectory
  nodes : List.Forall₂ (fun a b => a.1 = b.1 ∧ Node.Alike C a.2 b.2) tree.nodes tree'.nodes

namespace FileTree

variable {C : Bytes → Bytes → Prop}

/-- What stands at corresponding places. -/
inductive NodesAlike (C : Bytes → Bytes → Prop) : Option Node → Option Node → Prop
  | none : NodesAlike C none none
  | some {node node' : Node} (h : node.Alike C node') : NodesAlike C (some node) (some node')

theorem lookup_alike {nodes nodes' : List (List String × Node)}
    (h : List.Forall₂ (fun a b => a.1 = b.1 ∧ Node.Alike C a.2 b.2) nodes nodes')
    (place : List String) : NodesAlike C (nodes.lookup place) (nodes'.lookup place) := by
  induction h with
  | nil => exact .none
  | @cons a b _ _ hnode _ ih =>
    obtain ⟨names, node⟩ := a
    obtain ⟨names', node'⟩ := b
    obtain ⟨rfl, halike⟩ := hnode
    rw [List.lookup_cons, List.lookup_cons]
    cases place == names with
    | true => exact .some halike
    | false => exact ih

theorem any_alike {nodes nodes' : List (List String × Node)}
    (h : List.Forall₂ (fun a b => a.1 = b.1 ∧ Node.Alike C a.2 b.2) nodes nodes')
    (p : List String → Bool) : nodes.any (fun n => p n.1) = nodes'.any fun n => p n.1 := by
  induction h with
  | nil => rfl
  | cons hnode _ ih => rw [List.any_cons, List.any_cons, hnode.1, ih]

section Alike

variable {tree tree' : FileTree} (h : tree.Alike C tree')

include h

theorem node?_alike (place : List String) :
    NodesAlike C (tree.node? place) (tree'.node? place) := by
  have hlookup := lookup_alike h.nodes place
  unfold node?
  generalize tree.nodes.lookup place = found at hlookup ⊢
  generalize tree'.nodes.lookup place = found' at hlookup ⊢
  cases hlookup with
  | none =>
    dsimp only
    rw [h.workingDirectory, any_alike h.nodes fun names => place.isPrefixOf names]
    split
    · exact .some .directory
    · exact .none
  | some hnode => exact .some hnode

theorem isSome_node?_alike (place : List String) :
    (tree.node? place).isSome = (tree'.node? place).isSome := by
  have hnode := node?_alike h place
  generalize tree.node? place = found at hnode ⊢
  generalize tree'.node? place = found' at hnode ⊢
  cases hnode <;> rfl

theorem step_alike (place : List String) (name : String) :
    tree.step place name = tree'.step place name := by
  unfold step
  rw [isSome_node?_alike h]

theorem walk_alike (place names : List String) :
    tree.walk place names = tree'.walk place names := by
  induction names generalizing place with
  | nil => rfl
  | cons name rest ih =>
    have hnode := node?_alike h place.reverse
    unfold walk
    rw [step_alike h]
    generalize tree.node? place.reverse = found at hnode ⊢
    generalize tree'.node? place.reverse = found' at hnode ⊢
    cases hnode with
    | none => rfl
    | some halike =>
      cases halike with
      | file => rfl
      | directory =>
        dsimp only
        cases tree'.step place name with
        | error e => rfl
        | ok next => exact ih next

/-- A path leads to the same place, or fails alike. -/
theorem find_alike (path : String) :
    (∃ e, tree.find path = .error e ∧ tree'.find path = .error e) ∨
      ∃ node node', tree.find path = .ok node ∧ tree'.find path = .ok node' ∧
        node.Alike C node' := by
  have hstart : tree.start path = tree'.start path := by
    unfold start
    rw [h.workingDirectory]
  unfold find
  rw [← hstart]
  rcases tree.start path with ⟨place, names⟩
  dsimp only
  rw [← walk_alike h]
  by_cases hnul : path.toList.contains '\x00'
  · exact .inl ⟨.nulInPath, if_pos hnul, if_pos hnul⟩
  rw [if_neg hnul, if_neg hnul]
  by_cases hempty : path = ""
  · exact .inl ⟨.notFound, if_pos hempty, if_pos hempty⟩
  rw [if_neg hempty, if_neg hempty]
  by_cases hlong : maxPathLength < path.utf8ByteSize
  · exact .inl ⟨.nameTooLong, if_pos hlong, if_pos hlong⟩
  rw [if_neg hlong, if_neg hlong]
  cases tree.walk place names with
  | error e => exact .inl ⟨e, rfl, rfl⟩
  | ok reached =>
    dsimp only
    have hnode := node?_alike h reached.reverse
    generalize tree.node? reached.reverse = found at hnode ⊢
    generalize tree'.node? reached.reverse = found' at hnode ⊢
    cases hnode with
    | none => exact .inl ⟨.notFound, rfl, rfl⟩
    | some halike => exact .inr ⟨_, _, rfl, rfl, halike⟩

/-- A path cannot be opened in either tree, or gives sources over files that compare. A
directory gives the same source in both. -/
theorem openPath_alike (path : String) :
    (∃ e, Source.openPath tree path = .error e ∧ Source.openPath tree' path = .error e) ∨
      ∃ node node', Source.openPath tree path = .ok (Source.ofNode path node) ∧
        Source.openPath tree' path = .ok (Source.ofNode path node') ∧ node.Alike C node' := by
  unfold Source.openPath
  rcases find_alike h path with ⟨e, hleft, hright⟩ | ⟨node, node', hleft, hright, hnode⟩
  · exact .inl ⟨e, by rw [hleft]; rfl, by rw [hright]; rfl⟩
  · exact .inr ⟨node, node', by rw [hleft]; rfl, by rw [hright]; rfl, hnode⟩

end Alike

end FileTree

end ScpiScript
