import ScpiScript.Lua.Machine
import ScpiScript.Proofs.Lua.Memory
import ScpiScript.Proofs.Reference.Substitution
/-!
# Global variables as a scope

The scope of the engine answers like a map from names to values, whatever is bound and read
in whatever order, for names that mean nothing at the start. It refuses values that only
the engine can hold, and a refusal leaves no trace.

- `ScopeCall` is one use of a scope, and `Scope.answers` what a scope answers to a sequence
  of them.
- `Machine.Holds` says that global variables stand for the values of a store.
- `answers_eq_store` compares the engine at the start with an empty store.
-/

namespace ScpiScript

/-- One use of a scope. -/
inductive ScopeCall
  | assign (name : String) (value : ScopeValue)
  | lookup (name : String)
  | textOf (name : String)
  | vectorOf (name : String)
  | substitute (text : String)
  deriving DecidableEq, Repr

/-- What a scope answers. -/
inductive ScopeAnswer
  | assigned (result : Except ScopeError Unit)
  | value (value : Option ScopeValue)
  | text (result : Except ScopeError String)
  | vector (result : Except ScopeError (List Binary32))

namespace ScopeCall

/-- The names that a use of a scope is about. -/
def names : ScopeCall → List String
  | assign name _ => [name]
  | lookup name => [name]
  | textOf name => [name]
  | vectorOf name => [name]
  | substitute text => (Reference.segments text.toList).filterMap fun part =>
    match part with
    | .reference name => some (String.ofList name)
    | .char _ => none

/-- A use that binds no value that only an engine can hold. -/
def IsPlain : ScopeCall → Prop
  | assign _ (.foreign _) => False
  | _ => True

instance : DecidablePred IsPlain := fun call => by
  unfold IsPlain
  split <;> infer_instance

end ScopeCall

namespace Scope

variable {σ : Type} [Scope σ]

/-- What a scope answers. -/
def answer (scope : σ) : ScopeCall → ScopeAnswer
  | .assign name value => .assigned ((assign scope name value).map fun _ => ())
  | .lookup name => .value (lookup scope name)
  | .textOf name => .text (textOf scope name)
  | .vectorOf name => .vector (vectorOf scope name)
  | .substitute text => .text (Reference.substitute (textOf scope) text)

/-- The scope after it was used. -/
def afterCall (scope : σ) : ScopeCall → σ
  | .assign name value =>
    match assign scope name value with
    | .ok scope' => scope'
    | .error _ => scope
  | _ => scope

/-- What a scope answers to one use after the other. -/
def answers (scope : σ) : List ScopeCall → List ScopeAnswer
  | [] => []
  | call :: rest => answer scope call :: answers (afterCall scope call) rest

end Scope

namespace Lua

open Scope

/-! ## One use -/

/-- The values of global variables that binding gives, and what they stand for. -/
inductive Stands (m : Memory) : Value → Option ScopeValue → Prop
  | unbound : Stands m .nil none
  | text (s : String) : Stands m (.ofText s) (some (.text s))
  | number (x : Binary64) : Stands m (.number (.float x)) (some (.number x))
  | vector {i : Nat} (h : i < m.vectors.size) :
      Stands m (.vector i) (some (.vector (m.vector i).toList))

/-- Under these names, the global variables stand for the values of a store. -/
structure Holds (m : Memory) (names : String → Prop) (s : Store) : Prop where
  hasGlobals : m.HasGlobals
  stands : ∀ name, names name → Stands m (m.global name) (s.get? name)

section Use

variable {m : Memory} {names : String → Prop} {s : Store}

theorem Stands.scopeValue_eq {v : Value} {value : Option ScopeValue} (h : Stands m v value) :
    Machine.scopeValue m v = value := by
  cases h with
  | unbound => rfl
  | text s =>
    show some (ScopeValue.text (Utf8.decodeLossy (Utf8.encode s))) = _
    rw [Utf8.decodeLossy_encode]
  | number x => rfl
  | vector h => rfl

theorem Stands.setGlobal {v : Value} {value : Option ScopeValue} (h : Stands m v value)
    (name : String) (other : Value) : Stands (m.setGlobal name other) v value := by
  cases h with
  | unbound => exact .unbound
  | text s => exact .text s
  | number x => exact .number x
  | vector h => exact .vector h

theorem Stands.addVector {v : Value} {value : Option ScopeValue} (h : Stands m v value)
    (samples : FloatList) : Stands (m.addVector samples).2 v value := by
  cases h with
  | unbound => exact .unbound
  | text s => exact .text s
  | number x => exact .number x
  | @vector i h =>
    have hafter : i < (m.addVector samples).2.vectors.size := by
      show i < (m.vectors.push samples).size
      rw [Array.size_push]
      exact Nat.lt_succ_of_lt h
    rw [← Memory.vector_addVector_of_lt m samples h]
    exact .vector hafter

/-- A global variable that is set stands for its value, and all others for theirs. -/
theorem Holds.setGlobal (h : Holds m names s) (name : String) {v : Value} {value : ScopeValue}
    (hvalue : Stands m v (some value)) : Holds (m.setGlobal name v) names (s.set name value) where
  hasGlobals := h.hasGlobals.setGlobal name v
  stands other hother := by
    rw [Memory.global_setGlobal h.hasGlobals, Store.get?_set]
    by_cases hname : other = name
    · rw [if_pos hname, if_pos hname]
      exact hvalue.setGlobal name v
    · rw [if_neg hname, if_neg hname]
      exact (h.stands other hother).setGlobal name v

theorem Holds.addVector (h : Holds m names s) (samples : FloatList) :
    Holds (m.addVector samples).2 names s where
  hasGlobals := h.hasGlobals
  stands name hname := (h.stands name hname).addVector samples

theorem Holds.lookup_eq (h : Holds m names s) {name : String} (hname : names name) :
    Scope.lookup (Machine.mk m) name = Scope.lookup s name :=
  (h.stands name hname).scopeValue_eq

/-- Binding a value succeeds on both sides, and what is bound is read alike from then on. -/
theorem Holds.assign (h : Holds m names s) (name : String) {value : ScopeValue}
    (hplain : (ScopeCall.assign name value).IsPlain) :
    ∃ m', Scope.assign (Machine.mk m) name value = .ok ⟨m'⟩ ∧
      Holds m' names (s.set name value) := by
  cases value with
  | text t => exact ⟨_, rfl, h.setGlobal name (.text t)⟩
  | number x => exact ⟨_, rfl, h.setGlobal name (.number x)⟩
  | vector samples =>
    refine ⟨_, rfl, (h.addVector samples.toArray).setGlobal name ?_⟩
    have hsize : m.vectors.size < (m.addVector samples.toArray).2.vectors.size := by
      show m.vectors.size < (m.vectors.push samples.toArray).size
      rw [Array.size_push]
      exact Nat.lt_succ_self _
    have hvector := Stands.vector hsize
    rwa [Memory.vector_addVector_size] at hvector
  | foreign kind => exact hplain.elim

/-- A use of the engine's scope is answered like one of the store, and leaves them alike. -/
theorem Holds.use (h : Holds m names s) {call : ScopeCall}
    (hnames : ∀ name ∈ call.names, names name) (hplain : call.IsPlain) :
    answer (Machine.mk m) call = answer s call ∧
      ∃ m', afterCall (Machine.mk m) call = ⟨m'⟩ ∧ Holds m' names (afterCall s call) := by
  have htext : ∀ name, names name → Scope.textOf (Machine.mk m) name = Scope.textOf s name :=
    fun name hname => by rw [Scope.textOf, Scope.textOf, h.lookup_eq hname]
  cases call with
  | assign name value =>
    obtain ⟨m', hassign, hafter⟩ := h.assign name hplain
    dsimp only [answer, afterCall]
    rw [hassign]
    exact ⟨rfl, m', rfl, hafter⟩
  | lookup name =>
    have hlookup := h.lookup_eq (hnames name List.mem_cons_self)
    exact ⟨congrArg ScopeAnswer.value hlookup, m, rfl, h⟩
  | textOf name =>
    exact ⟨congrArg ScopeAnswer.text (htext name (hnames name List.mem_cons_self)), m, rfl, h⟩
  | vectorOf name =>
    have hlookup := h.lookup_eq (hnames name List.mem_cons_self)
    exact ⟨congrArg (fun value => ScopeAnswer.vector (ScopeValue.vectorFor name value)) hlookup,
      m, rfl, h⟩
  | substitute text =>
    have hreferences : ∀ name, .reference name ∈ Reference.segments text.toList →
        Scope.textOf (Machine.mk m) (String.ofList name) = Scope.textOf s (String.ofList name) :=
      fun name hname => htext _ (hnames _ (List.mem_filterMap.mpr ⟨_, hname, rfl⟩))
    have hexpanded : Reference.substitute (Scope.textOf (Machine.mk m)) text =
        Reference.substitute (Scope.textOf s) text := by
      unfold Reference.substitute
      rw [Reference.fill_congr hreferences]
    exact ⟨congrArg ScopeAnswer.text hexpanded, m, rfl, h⟩

end Use

/-! ## Sequences of uses -/

theorem Holds.answers_eq {names : String → Prop} {calls : List ScopeCall}
    (hnames : ∀ call ∈ calls, ∀ name ∈ call.names, names name)
    (hplain : ∀ call ∈ calls, call.IsPlain) {m : Memory} {s : Store} (h : Holds m names s) :
    answers (Machine.mk m) calls = answers s calls := by
  induction calls generalizing m s with
  | nil => rfl
  | cons call rest ih =>
    obtain ⟨hanswer, m', hm', hafter⟩ :=
      h.use (hnames call List.mem_cons_self) (hplain call List.mem_cons_self)
    rw [answers, answers, hanswer, hm', ih (fun c hc => hnames c (.tail call hc))
      (fun c hc => hplain c (.tail call hc)) hafter]

/-- A value that only the engine can hold is refused wherever it is bound, and all other
answers are the same as without it. -/
theorem answers_insert_foreign (machine : Machine) (calls : List ScopeCall) (name kind : String)
    (i : Nat) :
    answers machine (calls.insertIdx i (.assign name (.foreign kind))) =
      (answers machine calls).insertIdx i (.assigned (.error (.unassignable name kind))) := by
  induction i generalizing machine calls with
  | zero => rfl
  | succ i ih =>
    cases calls with
    | nil => rfl
    | cons call rest =>
      rw [List.insertIdx_succ_cons, answers, ih, answers, List.insertIdx_succ_cons]

/-- A name that means nothing to the engine is one of no global variable. -/
theorem global_eq_nil {m : Memory} {name : String}
    (h : Scope.lookup (Machine.mk m) name = none) : m.global name = .nil := by
  change Machine.scopeValue m (m.global name) = none at h
  generalize m.global name = v at h ⊢
  unfold Machine.scopeValue at h
  split at h
  · cases h
  · cases v <;> first | rfl | cases h

/-- The engine's scope answers like a store: to every sequence of uses that bind texts,
numbers and vectors, under names that mean nothing at the start, the engine at the start
gives the answers of the empty store. Binding any other value, in any place of the sequence
and under any name, is refused and changes no other answer. -/
theorem answers_eq_store (files : FileTree) (moduleDirectories : List String)
    (calls : List ScopeCall)
    (hnames : ∀ call ∈ calls, ∀ name ∈ call.names,
      Scope.lookup (Machine.start files moduleDirectories) name = none)
    (hplain : ∀ call ∈ calls, call.IsPlain) :
    answers (Machine.start files moduleDirectories) calls = answers Store.empty calls ∧
      ∀ i name kind,
        answers (Machine.start files moduleDirectories)
            (calls.insertIdx i (.assign name (.foreign kind))) =
          (answers Store.empty calls).insertIdx i
            (.assigned (.error (.unassignable name kind))) := by
  have hstart : Holds (Machine.start files moduleDirectories).memory
      (fun name => Scope.lookup (Machine.start files moduleDirectories) name = none)
      Store.empty := by
    refine ⟨Memory.hasGlobals_initial _ _, fun name hname => ?_⟩
    have hnil : (Machine.start files moduleDirectories).memory.global name = .nil :=
      global_eq_nil hname
    rw [hnil]
    exact .unbound
  have hanswers : answers (Machine.start files moduleDirectories) calls =
      answers Store.empty calls := hstart.answers_eq hnames hplain
  refine ⟨hanswers, fun i name kind => ?_⟩
  rw [answers_insert_foreign, hanswers]

/-- Names bound to a number, a text and a vector, one after the other, and read in between. -/
def rebinding : List ScopeCall :=
  [.lookup "x", .assign "x" (.number (.ofInt 2)), .textOf "x", .vectorOf "x",
    .assign "x" (.text "on"), .assign "v" (.vector [⟨0⟩]), .substitute "OUTP {x}{y}",
    .assign "y" (.vector []), .vectorOf "v", .vectorOf "y", .substitute "{x}"]

/-- A function bound to one of the names is refused, and nothing else is different. -/
theorem answers_eq_store_rebinding :
    (∀ call ∈ rebinding, ∀ name ∈ call.names,
        Scope.lookup (Machine.start ⟨[], []⟩ []) name = none) ∧
      answers (Machine.start ⟨[], []⟩ []) rebinding = answers Store.empty rebinding ∧
      answers (Machine.start ⟨[], []⟩ [])
          (rebinding.insertIdx 4 (.assign "x" (.foreign "function"))) =
        (answers Store.empty rebinding).insertIdx 4
          (.assigned (.error (.unassignable "x" "function"))) := by
  have hnames : ∀ call ∈ rebinding, ∀ name ∈ call.names,
      Scope.lookup (Machine.start ⟨[], []⟩ []) name = none := by
    decide +kernel
  have hplain : ∀ call ∈ rebinding, call.IsPlain := by decide +kernel
  obtain ⟨hsame, hrefused⟩ := answers_eq_store ⟨[], []⟩ [] rebinding hnames hplain
  exact ⟨hnames, hsame, hrefused 4 "x" "function"⟩

end Lua

end ScpiScript
