import Elasto.Behaviour.Types
import Elasto.Behaviour.Error

/-! # Local data

Variables a brick adds to the local data structure of the generated code, in the order
they were added; a name is added at most once. -/

namespace Elasto.Behaviour

structure LocalData where
  entries : List (VarType × String) := []

namespace LocalData

def contains (l : LocalData) (name : String) : Bool := l.entries.any (·.2 == name)

def add (l : LocalData) (t : VarType) (name : String) : Except BehaviourError LocalData :=
  if l.contains name then .error (.duplicateLocalVariable name)
  else .ok ⟨l.entries ++ [(t, name)]⟩

def size (l : LocalData) : Nat := l.entries.length

theorem add_eq_ok_iff {l l' : LocalData} {t : VarType} {name : String} :
    l.add t name = .ok l' ↔ l.contains name = false ∧ l' = ⟨l.entries ++ [(t, name)]⟩ := by
  unfold add
  by_cases h : l.contains name <;> simp [h, eq_comm]

theorem add_eq_error_iff {l : LocalData} {t : VarType} {name : String} {e : BehaviourError} :
    l.add t name = .error e ↔ l.contains name = true ∧ e = .duplicateLocalVariable name := by
  unfold add
  by_cases h : l.contains name <;> simp [h, eq_comm]

/-- An addition makes the name known and keeps every other name as it was. -/
theorem contains_of_add {l l' : LocalData} {t : VarType} {name : String}
    (h : l.add t name = .ok l') (n : String) : l'.contains n = (l.contains n || name == n) := by
  obtain ⟨-, rfl⟩ := add_eq_ok_iff.mp h
  simp [contains, List.any_append]

theorem size_of_add {l l' : LocalData} {t : VarType} {name : String}
    (h : l.add t name = .ok l') : l'.size = l.size + 1 := by
  obtain ⟨-, rfl⟩ := add_eq_ok_iff.mp h
  simp [size]

end LocalData

end Elasto.Behaviour
