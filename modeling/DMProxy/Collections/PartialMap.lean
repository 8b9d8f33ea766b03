import Mathlib.Logic.Function.Basic

/-!
# Partial maps

A partial map is a function into `Option`, changed with `Function.update`.  The
lemmas read an entry of a changed map back as a case distinction on its key.
-/

namespace DMProxy.Collections

universe u v

variable {κ : Type u} {ν : Type v} [DecidableEq κ] {entries : κ → Option ν}
variable {key other : κ} {value result : ν}

theorem update_some_eq_some :
    Function.update entries key (some value) other = some result ↔
      other = key ∧ value = result ∨ other ≠ key ∧ entries other = some result := by
  by_cases equal : other = key
  · simp [equal]
  · simp [equal]

theorem update_none_eq_some :
    Function.update entries key none other = some result ↔
      other ≠ key ∧ entries other = some result := by
  by_cases equal : other = key
  · simp [equal]
  · simp [equal]

end DMProxy.Collections
