import ScpiScript.Scope.Basic
/-!
# A scope held in memory

- `Store` is a finite map from names to values. Each name occurs once.
- `get?_set` says what binding a name does to every later reading.
-/

namespace ScpiScript

/-- A finite map from names to values, in the order in which the names were bound. -/
structure Store where
  entries : List (String × ScopeValue)
  nodup : (entries.map Prod.fst).Nodup

namespace Store

/-- The store without any name. -/
def empty : Store := ⟨[], List.nodup_nil⟩

instance : Inhabited Store := ⟨empty⟩

/-- The value bound to a name. -/
def get? (s : Store) (name : String) : Option ScopeValue := s.entries.lookup name

/-- The entries of other names. -/
def others (s : Store) (name : String) : List (String × ScopeValue) :=
  s.entries.filter fun e => e.1 ≠ name

theorem nodup_others (s : Store) (name : String) : ((s.others name).map Prod.fst).Nodup :=
  s.nodup.sublist (List.filter_sublist.map _)

/-- Bind a name, in place of what it was bound to. -/
def set (s : Store) (name : String) (value : ScopeValue) : Store where
  entries := (name, value) :: s.others name
  nodup := by
    simpa using ⟨by simp [others], s.nodup_others name⟩

/-- Whether a name is bound. -/
def contains (s : Store) (name : String) : Bool := (s.get? name).isSome

/-- Remove a name. -/
def unset (s : Store) (name : String) : Store := ⟨s.others name, s.nodup_others name⟩

/-- How many names are bound. -/
def size (s : Store) : Nat := s.entries.length

/-- The entries in the order of their names. -/
def sorted (s : Store) : List (String × ScopeValue) :=
  s.entries.mergeSort fun a b => a.1 ≤ b.1

instance : Scope Store where
  lookup := get?
  assign s name value := .ok (s.set name value)

theorem lookup_filter_ne {name other : String} (h : other ≠ name)
    (entries : List (String × ScopeValue)) :
    (entries.filter fun e => e.1 ≠ name).lookup other = entries.lookup other := by
  induction entries with
  | nil => rfl
  | cons e rest ih =>
    obtain ⟨key, value⟩ := e
    by_cases hk : key = name
    · subst hk
      have hne : (other == key) = false := by simp [h]
      simpa [List.lookup_cons, hne] using ih
    · by_cases ho : other = key <;> simp_all [List.lookup_cons]

/-- A name reads as what it was last bound to, and every other name as before. -/
theorem get?_set (s : Store) (name other : String) (value : ScopeValue) :
    (s.set name value).get? other = if other = name then some value else s.get? other := by
  by_cases h : other = name
  · simp [get?, set, h]
  · have : (other == name) = false := by simp [h]
    simpa [get?, set, others, List.lookup_cons, this, h] using lookup_filter_ne h s.entries

end Store

end ScpiScript
