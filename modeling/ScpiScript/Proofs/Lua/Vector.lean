import ScpiScript.Lua.Machine
import ScpiScript.Proofs.Lua.Memory
/-!
# Indexing a vector

A position of a vector counts from one. Writing takes any number that is integral, of
either type, for a position; reading takes only a number of the type of integers.

- `Number.asInteger?` is the integer that a number is exactly.
- `FloatList.target_number`, `read_number` and `written_put` are the conversions of the two
  sides and the change between them.
- `Memory.Reached` are the memories after any uses of a vector, which it stays in.
- `Thread.index_vector` says what writing a position does, and when it reads back.
-/

namespace ScpiScript.Lua

/-! ## Keys -/

namespace Number

/-- The integer that a number is exactly, if it is one. -/
def asInteger? : Number → Option Int
  | int i => some i.toInt
  | float x => x.datum.toInt?

/-- The number is of the type of integers. -/
def isInt : Number → Bool
  | int _ => true
  | float _ => false

/-- An exact integer has no fraction to drop. -/
theorem truncate?_eq {k : Number} {z : Int} (h : k.asInteger? = some z) :
    k.truncate? = inRange? z := by
  cases k with
  | int i =>
    cases h
    have hrange : Int64.minValue.toInt ≤ i.toInt ∧ i.toInt ≤ Int64.maxValue.toInt :=
      ⟨Int64.le_iff_toInt_le.mp (Int64.minValue_le i), Int64.le_iff_toInt_le.mp (Int64.le_maxValue i)⟩
    rw [inRange?, if_pos (by simpa using hrange), Int64.ofInt_toInt]
    rfl
  | float x =>
    have hdatum : x.datum.truncate? = some z := by
      change x.datum.toInt? = some z at h
      cases hx : x.datum with
      | nan => rw [hx] at h; cases h
      | infinite negative => rw [hx] at h; cases h
      | finite negative m e =>
        rw [hx, Binary.Datum.toInt?] at h
        split at h
        · exact h
        · cases h
    rw [truncate?, hdatum]
    rfl

end Number

/-- The position that an exact integer is as an argument, if 64 bits hold it. -/
theorem Value.toIndex?_number {k : Number} {z : Int} (h : k.asInteger? = some z) :
    (Value.number k).toIndex? =
      if Int64.minValue.toInt ≤ z ∧ z ≤ Int64.maxValue.toInt then some z else none := by
  show (k.truncate?).map Int64.toInt = _
  rw [Number.truncate?_eq h, Number.inRange?]
  simp only [Bool.and_eq_true, decide_eq_true_eq]
  split
  · rename_i hrange
    rw [Option.map_some, Int64.toInt_ofInt_of_le hrange.1 (Int.lt_add_one_of_le hrange.2)]
  · rfl

namespace FloatList

variable {v : FloatList} {k x : Number} {z : Int}

/-! ## Writing and reading -/

/-- A position that a sample can be written at: one of the vector, or the one behind it. -/
def Writable (v : FloatList) (z : Int) : Prop :=
  1 ≤ z ∧ z ≤ v.size + 1 ∧ z ≤ Int64.maxValue.toInt

instance : Decidable (v.Writable z) := by
  unfold Writable
  infer_instance

/-- A position of the vector. -/
def Holds (v : FloatList) (z : Int) : Prop := 1 ≤ z ∧ z ≤ v.size

/-- What a vector is after a sample was written at a position. -/
structure Written (v : FloatList) (z : Int) (x : Binary32) (v' : FloatList) : Prop where
  at_ : v'[z.toNat - 1]? = some x
  others : ∀ j : Nat, (j : Int) + 1 ≠ z → v'[j]? = v[j]?
  size_eq : v'.size = if z = v.size + 1 then v.size + 1 else v.size

theorem target_number (hk : k.asInteger? = some z) (h : v.Writable z) :
    v.target (.number k) (.number x) = .ok (z.toNat - 1, x.toFloat.narrow) := by
  have hmin : Int64.minValue.toInt ≤ z := Int.le_trans (by decide) h.1
  unfold target
  rw [Value.toIndex?_number hk, if_pos ⟨hmin, h.2.2⟩]
  show (if (1 ≤ z && z ≤ v.size + 1) = true then _ else _) = _
  rw [if_pos (by simpa using ⟨h.1, h.2.1⟩)]

/-- Anywhere else a number cannot be written. -/
theorem target_number_of_not (hk : k.asInteger? = some z) (h : ¬ v.Writable z) :
    ∃ message, v.target (.number k) (.number x) = .error message := by
  unfold target
  rw [Value.toIndex?_number hk]
  split
  · rename_i hindex hsample
    split at hindex
    · rename_i hrange
      cases hindex
      rw [if_neg fun hin => h (by simpa [Writable, hrange.2] using hin)]
      exact ⟨_, rfl⟩
    · cases hindex
  · exact ⟨_, rfl⟩
  · exact ⟨_, rfl⟩

theorem written_put (h : v.Writable z) (s : Binary32) :
    v.Written z s (v.put (z.toNat - 1) s) := by
  obtain ⟨hone, hsize, -⟩ := h
  unfold put
  split
  · rename_i hend
    have hz : z = v.size + 1 := by omega
    refine ⟨by rw [hend, Array.getElem?_push_size], fun j hj => ?_, ?_⟩
    · rw [Array.getElem?_push, if_neg (by omega)]
    · rw [if_pos hz, Array.size_push]
  · refine ⟨Array.getElem?_setIfInBounds_self_of_lt (by omega), fun j hj => ?_, ?_⟩
    · rw [Array.getElem?_setIfInBounds_ne (by omega)]
    · rw [if_neg (by omega), Array.size_setIfInBounds]

/-- A number of the type of integers reads the sample at its position. -/
theorem read_number_of_isInt (hk : k.asInteger? = some z) (hint : k.isInt = true) :
    v.read (.number k) =
      if 1 ≤ z then ((v[z.toNat - 1]?).map fun s => .number (.float s.widen)).getD .nil
      else .nil := by
  cases k with
  | float x => cases hint
  | int i =>
    cases hk
    rw [read]
    split
    · cases v[i.toInt.toNat - 1]? <;> rfl
    · rfl

/-- Any other number reads nothing. -/
theorem read_number_of_not_isInt (hint : k.isInt = false) : v.read (.number k) = .nil := by
  cases k with
  | float x => rfl
  | int i => cases hint

/-- Nothing is read exactly outside the vector, save that a number of the type of
floating-point numbers never reads anything. -/
theorem read_number_eq_nil_iff (hk : k.asInteger? = some z) :
    v.read (.number k) = .nil ↔ (k.isInt = true → ¬ v.Holds z) := by
  cases hint : k.isInt with
  | false => exact iff_of_true (read_number_of_not_isInt hint) nofun
  | true =>
    rw [read_number_of_isInt hk hint, Holds]
    by_cases hone : 1 ≤ z
    · rw [if_pos hone]
      rcases Nat.lt_or_ge (z.toNat - 1) v.size with hlt | hge
      · rw [Array.getElem?_eq_getElem hlt]
        exact iff_of_false nofun fun h => h rfl ⟨hone, by omega⟩
      · rw [Array.getElem?_eq_none hge]
        exact iff_of_true rfl fun _ h => absurd h.2 (by omega)
    · rw [if_neg hone]
      exact iff_of_true rfl fun _ h => hone h.1

/-- A sample that was written reads back exactly under a number of the type of integers. -/
theorem Written.read_number {v' : FloatList} {s : Binary32} (h : v.Written z s v')
    (hk : k.asInteger? = some z) (hone : 1 ≤ z) :
    v'.read (.number k) = .number (.float s.widen) ↔ k.isInt = true := by
  cases hint : k.isInt with
  | false =>
    rw [read_number_of_not_isInt hint]
    exact iff_of_false nofun nofun
  | true =>
    rw [read_number_of_isInt hk hint, if_pos hone, h.at_]
    exact iff_of_true rfl rfl

end FloatList

/-! ## Histories of a vector -/

namespace Memory

theorem vector_modifyVector (m : Memory) (f : FloatList → FloatList) {i : Nat}
    (h : i < m.vectors.size) : (m.modifyVector i f).vector i = f (m.vector i) := by
  unfold modifyVector vector
  rw [Array.getElem?_modify, if_pos rfl, Array.getElem?_eq_getElem h]
  rfl

theorem vector_modifyVector_of_ne (m : Memory) (f : FloatList → FloatList) {i j : Nat}
    (h : j ≠ i) : (m.modifyVector i f).vector j = m.vector j := by
  unfold modifyVector vector
  rw [Array.getElem?_modify, if_neg (Ne.symm h)]

/-- A use of a vector: a call of one of its functions, or a value written under a key,
which may be refused. -/
inductive UsesVector (i : Nat) : Memory → Memory → Prop
  | add {m m' : Memory} {value : Value} {result : Except Fault (List Value)}
      (h : (Builtin.call .add [.vector i, value]).run m = .done (result, m')) :
      UsesVector i m m'
  | clear {m m' : Memory} {result : Except Fault (List Value)}
      (h : (Builtin.call .clear [.vector i]).run m = .done (result, m')) : UsesVector i m m'
  | assign {t t' : Thread} {origin : Origin} {key value : Value}
      (h : t.writeField ⟨.vector i, origin⟩ key value = .going t') :
      UsesVector i t.memory t'.memory
  | refused {t : Thread} {m' : Memory} {origin : Origin} {key value : Value} {fault : Fault}
      (h : t.writeField ⟨.vector i, origin⟩ key value = .failed fault m') :
      UsesVector i t.memory m'

/-- The memory after any sequence of uses of a vector that was empty at first. -/
inductive Reached (i : Nat) : Memory → Prop
  | created {m : Memory} (h : i < m.vectors.size) (hempty : m.vector i = #[]) : Reached i m
  | use {m m' : Memory} (h : Reached i m) (huse : UsesVector i m m') : Reached i m'

end Memory

namespace Thread

/-- Giving variables a place of their own is no change of a vector. -/
theorem vectors_close (slot : Nat) (t : Thread) :
    (t.close slot).memory.vectors = t.memory.vectors := by
  unfold close
  generalize t.shared = shared
  induction shared generalizing t with
  | nil => rfl
  | cons first rest ih =>
    rw [close.go]
    split
    · exact ih _
    · rfl

/-- Where writing to a vector does not go on, it fails and no vector is changed. -/
theorem writeField_vector (t : Thread) (i : Nat) (origin : Origin) (key value : Value) :
    (∃ place, (t.memory.vector i).target key value = .ok place ∧
        t.writeField ⟨.vector i, origin⟩ key value =
          .going { t with
            memory := t.memory.modifyVector i fun v => v.put place.1 place.2 }) ∨
      ∃ message m', (t.memory.vector i).target key value = .error message ∧
        t.writeField ⟨.vector i, origin⟩ key value = .failed (.refused message) m' ∧
          m'.vectors = t.memory.vectors := by
  cases htarget : (t.memory.vector i).target key value with
  | ok place =>
    refine .inl ⟨place, rfl, ?_⟩
    unfold writeField Operation.changeOf
    dsimp only
    rw [htarget]
    rfl
  | error message =>
    refine .inr ⟨message, (t.close 0).memory, rfl, ?_, vectors_close 0 t⟩
    unfold writeField Operation.changeOf
    dsimp only
    rw [htarget]
    rfl

end Thread

namespace Memory

variable {i : Nat} {m m' : Memory}

/-- What adding a value to a vector does. -/
theorem run_add (m : Memory) (i : Nat) (value : Value) :
    (Builtin.call .add [.vector i, value]).run m =
      match value.toSample? with
      | some x => .done (.ok [], m.modifyVector i (·.push x))
      | none =>
        .done (.error (.refused s!"bad argument #2: number expected, got {value.kind}"), m) := by
  show (addSample [.vector i, value]).run m = _
  have hsecond : argument [.vector i, value] 1 = value := rfl
  unfold addSample
  rw [hsecond]
  cases value.toSample? <;> rfl

/-- What clearing a vector does. -/
theorem run_clear (m : Memory) (i : Nat) :
    (Builtin.call .clear [.vector i]).run m = .done (.ok [], m.modifyVector i fun _ => #[]) := rfl

/-- No use of a vector adds or takes away vectors. -/
theorem UsesVector.size_eq (h : UsesVector i m m') : m'.vectors.size = m.vectors.size := by
  cases h with
  | add h =>
    rw [run_add] at h
    split at h
    · cases h
      exact Array.size_modify
    · cases h
      rfl
  | clear h =>
    rw [run_clear] at h
    cases h
    exact Array.size_modify
  | @assign t t' origin key value h =>
    obtain ⟨place, -, hgoing⟩ | ⟨message, m', -, hfailed, -⟩ :=
      t.writeField_vector i origin key value
    · rw [hgoing] at h
      cases h
      exact Array.size_modify
    · rw [hfailed] at h
      cases h
  | @refused t m' origin key value fault h =>
    obtain ⟨place, -, hgoing⟩ | ⟨message, m', -, hfailed, hsame⟩ :=
      t.writeField_vector i origin key value
    · rw [hgoing] at h
      cases h
    · rw [hfailed] at h
      cases h
      rw [hsame]

/-- A vector that was used is still there. -/
theorem Reached.lt (h : Reached i m) : i < m.vectors.size := by
  induction h with
  | created h _ => exact h
  | use _ huse ih => rwa [huse.size_eq]

end Memory

/-! ## Reading what was written -/

/-- For every history of a vector and every number that is integral, of either type:
writing under it goes on exactly at a position of the vector and at the one behind it, and
changes just that position and, behind the vector, its length; anywhere else writing fails
and no vector is changed. What was written reads back, and nothing is read exactly outside
the vector, exactly if the number is of the type of integers: under a floating-point number
nothing is ever read. -/
theorem Thread.index_vector {t : Thread} {i : Nat} (hreached : Memory.Reached i t.memory)
    {k : Number} {z : Int} (hk : k.asInteger? = some z) (x : Number) (origin : Origin) :
    ((t.memory.vector i).Writable z →
        ∃ t', t.writeField ⟨.vector i, origin⟩ (.number k) (.number x) = .going t' ∧
          (t.memory.vector i).Written z x.toFloat.narrow (t'.memory.vector i) ∧
          (∀ j ≠ i, t'.memory.vector j = t.memory.vector j) ∧
          Operation.lengthOf t'.memory ⟨.vector i, origin⟩ =
            .ok (.ofNat (if z = (t.memory.vector i).size + 1
              then (t.memory.vector i).size + 1 else (t.memory.vector i).size)) ∧
          (Operation.fieldOf t'.memory (.vector i) (.number k) =
              some (.value (.number (.float x.toFloat.narrow.widen))) ↔ k.isInt = true)) ∧
      (¬ (t.memory.vector i).Writable z →
        ∃ message m', t.writeField ⟨.vector i, origin⟩ (.number k) (.number x) =
            .failed (.refused message) m' ∧ m'.vectors = t.memory.vectors) ∧
      (Operation.fieldOf t.memory (.vector i) (.number k) = some (.value .nil) ↔
        (k.isInt = true → ¬ (t.memory.vector i).Holds z)) := by
  have hfield : ∀ (m : Memory) (value : Value),
      Operation.fieldOf m (.vector i) (.number k) = some (.value value) ↔
        (m.vector i).read (.number k) = value := by
    intro m value
    show some (Operation.Field.value ((m.vector i).read (.number k))) = _ ↔ _
    simp
  refine ⟨fun hwritable => ?_, fun hwritable => ?_, ?_⟩
  · have hplace := FloatList.target_number (x := x) hk hwritable
    obtain ⟨place, htarget, hgoing⟩ | ⟨message, m', htarget, -⟩ :=
      t.writeField_vector i origin (.number k) (.number x)
    · cases hplace.symm.trans htarget
      have hwritten := FloatList.written_put hwritable x.toFloat.narrow
      refine ⟨_, hgoing, ?_⟩
      dsimp only [Operation.lengthOf]
      rw [hfield, Memory.vector_modifyVector _ _ hreached.lt, hwritten.size_eq]
      exact ⟨hwritten, fun j hj => Memory.vector_modifyVector_of_ne _ _ hj, rfl,
        hwritten.read_number hk hwritable.1⟩
    · cases hplace.symm.trans htarget
  · obtain ⟨message, hmessage⟩ := FloatList.target_number_of_not (x := x) hk hwritable
    obtain ⟨place, htarget, -⟩ | ⟨message, m', -, hfailed, hsame⟩ :=
      t.writeField_vector i origin (.number k) (.number x)
    · cases hmessage.symm.trans htarget
    · exact ⟨message, m', hfailed, hsame⟩
  · rw [hfield, FloatList.read_number_eq_nil_iff hk]

/-- At the start, the vector `samples` is empty: the integer 1 and the floating-point number
1.0 both write its first sample, which reads back under the integer alone. -/
theorem Thread.index_vector_first :
    ∃ t : Thread, Memory.Reached 0 t.memory ∧
      (Number.int 1).asInteger? = some 1 ∧ (Number.float (.ofInt 1)).asInteger? = some 1 ∧
      (∃ t', t.writeField ⟨.vector 0, .unknown⟩ (.number (.int 1)) (.number (.int 5)) =
          .going t' ∧
        Operation.fieldOf t'.memory (.vector 0) (.number (.int 1)) =
          some (.value (.number (.float (.ofInt 5))))) ∧
      ∃ t', t.writeField ⟨.vector 0, .unknown⟩ (.number (.float (.ofInt 1))) (.number (.int 5)) =
          .going t' ∧
        Operation.fieldOf t'.memory (.vector 0) (.number (.float (.ofInt 1))) ≠
          some (.value (.number (.float (.ofInt 5)))) := by
  refine ⟨Thread.start (.initial ⟨[], []⟩ "") default, ?_⟩
  have hreached : Memory.Reached 0
      (Thread.start (.initial ⟨[], []⟩ "") default).memory := .created (by decide) rfl
  have hint : (Number.int 1).asInteger? = some 1 := by decide
  have hfloat : (Number.float (.ofInt 1)).asInteger? = some 1 := by decide +kernel
  have hwritable : FloatList.Writable #[] 1 := by decide
  have hfive : (Number.int 5).toFloat.narrow.widen = .ofInt 5 := by decide +kernel
  obtain ⟨t₁, hgoing₁, -, -, -, hread₁⟩ :=
    (Thread.index_vector hreached hint (.int 5) .unknown).1 hwritable
  obtain ⟨t₂, hgoing₂, -, -, -, hread₂⟩ :=
    (Thread.index_vector hreached hfloat (.int 5) .unknown).1 hwritable
  rw [hfive] at hread₁ hread₂
  exact ⟨hreached, hint, hfloat, ⟨t₁, hgoing₁, hread₁.mpr rfl⟩,
    t₂, hgoing₂, fun h => Bool.false_ne_true (hread₂.mp h)⟩

/-- The value that some code without a use of the instrument returns at the start. -/
def Machine.valueOf? (code : String) : Option Value :=
  match Machine.evaluate (Machine.start ⟨[], []⟩ []) code with
  | .done (.ok value, _) => some value
  | _ => none

/-- Code that writes the first sample under the quotient of two by itself finds nothing
there, and the sample under one. -/
theorem Machine.quotientKey_readsNil :
    valueOf? "local v = FloatList() v[2/2] = 5 return v[2/2]" = some .nil ∧
      valueOf? "local v = FloatList() v[2/2] = 5 return v[1]" =
        some (.number (.float (.ofInt 5))) := by
  decide +kernel

end ScpiScript.Lua
