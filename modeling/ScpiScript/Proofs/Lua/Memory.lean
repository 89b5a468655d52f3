import ScpiScript.Lua.Library
import ScpiScript.Proofs.Text.RoundTrip
/-!
# What the memory holds

A global variable reads as what it was last set to. Vectors and tables are only ever added, so
that each stays what it is while others come.

- `Memory.global_setGlobal` is the law of global variables.
- `Memory.vector_addVector_of_lt` and `vector_addVector_size` are those of vectors, and
  `table_addTable_of_lt` and `table_addTable_size` those of tables.
-/

namespace ScpiScript.Lua

/-- No two texts are the same value. -/
theorem Value.ofText_inj {a b : String} : ofText a = ofText b ↔ a = b := by
  constructor
  · intro h
    exact Utf8.encode_injective (Value.str.inj h)
  · rintro rfl
    rfl

namespace Memory

section Globals

variable {m : Memory}

/-- There is a table of global variables. -/
def HasGlobals (m : Memory) : Prop := globalTable < m.tables.size

theorem hasGlobals_initial (files : FileTree) (path : String) : (initial files path).HasGlobals := by
  show 0 < (initial files path).tables.size
  simp [initial]

theorem HasGlobals.setGlobal (h : m.HasGlobals) (name : String) (value : Value) :
    (m.setGlobal name value).HasGlobals := by
  show 0 < (m.tables.modify 0 _).size
  rw [Array.size_modify]
  exact h

/-- A global variable reads as what it was last set to, and all others as before. -/
theorem global_setGlobal (h : m.HasGlobals) (name other : String) (value : Value) :
    (m.setGlobal name value).global other = if other = name then value else m.global other := by
  have htable : (m.setGlobal name value).table globalTable =
      (m.table globalTable).set (.ofText name) value := by
    unfold setGlobal modifyTable table
    rw [Array.getElem?_modify, if_pos rfl, Array.getElem?_eq_getElem h]
    rfl
  have hkey : (Value.ofText other).asKey = (Value.ofText name).asKey ↔ other = name :=
    Value.ofText_inj
  unfold global
  rw [htable, Table.get_set]
  simp only [hkey]

@[simp] theorem vector_setGlobal (name : String) (value : Value) (i : Nat) :
    (m.setGlobal name value).vector i = m.vector i := rfl

end Globals

section Vectors

variable (m : Memory) (samples : FloatList)

@[simp] theorem global_addVector (name : String) :
    (m.addVector samples).2.global name = m.global name := rfl

theorem HasGlobals.addVector {m : Memory} (h : m.HasGlobals) (samples : FloatList) :
    (m.addVector samples).2.HasGlobals := h

theorem vector_addVector_of_lt {i : Nat} (h : i < m.vectors.size) :
    (m.addVector samples).2.vector i = m.vector i := by
  unfold addVector vector
  rw [Array.getElem?_push, if_neg (Nat.ne_of_lt h)]

theorem vector_addVector_size : (m.addVector samples).2.vector m.vectors.size = samples := by
  unfold addVector vector
  rw [Array.getElem?_push, if_pos rfl]
  rfl

end Vectors

section Tables

variable {m : Memory} (t : Table)

theorem table_addTable_of_lt {i : Nat} (h : i < m.tables.size) :
    (m.addTable t).2.table i = m.table i := by
  unfold addTable table
  rw [Array.getElem?_push, if_neg (Nat.ne_of_lt h)]

theorem table_addTable_size : (m.addTable t).2.table m.tables.size = t := by
  unfold addTable table
  rw [Array.getElem?_push, if_pos rfl]
  rfl

theorem HasGlobals.addTable (h : m.HasGlobals) : (m.addTable t).2.HasGlobals := by
  show globalTable < (m.tables.push t).size
  rw [Array.size_push]
  exact Nat.lt_succ_of_lt h

theorem global_addTable (h : m.HasGlobals) (name : String) :
    (m.addTable t).2.global name = m.global name := by
  rw [global, global, table_addTable_of_lt t h]

/-- Setting a global variable changes the table of them and no other. -/
theorem table_setGlobal_of_ne {i : Nat} (h : i ≠ globalTable) (name : String) (value : Value) :
    (m.setGlobal name value).table i = m.table i := by
  unfold setGlobal modifyTable table
  rw [Array.getElem?_modify, if_neg (Ne.symm h)]

end Tables

end Memory

end ScpiScript.Lua
