import Std.Data.HashMap
import Shortcode.Engine.Basic

/-!
# Registries

A registry holds what an engine holds in two parts: a map for looking handlers up, and
the names in the order in which they were first bound. Every binding changes the map,
but only a name that the map does not know is added to the list.

* `Registry.Holds.register_of_ok`: a registry goes on to hold what its engine does.
* `Registry.register_of_error`: it refuses what an engine refuses.
-/

namespace Shortcode

/-- A text is hashed as a string. -/
instance : Hashable Text :=
  ⟨fun t => hash (String.ofList t)⟩

/-- The handlers of an engine beside its names. -/
structure Registry (η : Type) where
  config : EngineConfig
  handlers : Std.HashMap Text η
  order : List Text

namespace Registry

variable {η : Type}

/-- Nothing is bound. -/
def empty (config : EngineConfig) : Registry η :=
  ⟨config, ∅, []⟩

/-- Binds a name: the answer, and what is held then. -/
def register (r : Registry η) (name : Text) (handler : η) :
    Except InvalidTagName Unit × Registry η :=
  if isTagName name then
    let handlers := r.handlers.insert name handler
    if r.handlers.contains name then (.ok (), { r with handlers })
    else (.ok (), { r with handlers, order := r.order ++ [name] })
  else (.error ⟨name⟩, r)

/-- A registry holds what an engine does. -/
structure Holds (r : Registry η) (e : Engine η) : Prop where
  config : r.config = e.config
  order : r.order = e.names
  handlers : ∀ name, r.handlers[name]? = e.handler? name

variable {r : Registry η} {e e' : Engine η} {name : Text} {handler : η}

theorem holds_empty (config : EngineConfig) : (empty config : Registry η).Holds (.empty config) :=
  ⟨rfl, rfl, fun _ => Std.HashMap.getElem?_empty⟩

/-- The map knows a name if and only if the list has it. -/
theorem Holds.contains_iff (h : r.Holds e) : r.handlers.contains name = true ↔ name ∈ e.names := by
  rw [Std.HashMap.contains_eq_isSome_getElem?, h.handlers, Engine.mem_names_iff, Engine.contains]

/-- A name that is bound in an engine is bound in its registry, and they hold the same then. -/
theorem Holds.register_of_ok (h : r.Holds e) (hregister : e.register name handler = .ok e') :
    ∃ r', r.register name handler = (.ok (), r') ∧ r'.Holds e' := by
  have hname := Engine.isTagName_of_register hregister
  have hhandlers : ∀ other, (r.handlers.insert name handler)[other]? = e'.handler? other := by
    intro other
    rw [Std.HashMap.getElem?_insert, Engine.handler?_register hregister, h.handlers]
    simp only [beq_iff_eq, @eq_comm _ name]
  have hconfig := h.config.trans (Engine.config_register hregister).symm
  rw [register, if_pos hname]
  dsimp only
  split
  next hold =>
    refine ⟨_, rfl, hconfig, ?_, hhandlers⟩
    rw [Engine.names_register hregister, if_pos (h.contains_iff.1 hold), h.order]
  next hnew =>
    refine ⟨_, rfl, hconfig, ?_, hhandlers⟩
    rw [Engine.names_register hregister, if_neg fun hmem => hnew (h.contains_iff.2 hmem), h.order]

/-- A name that an engine refuses is refused by a registry, which stays as it is. -/
theorem register_of_error (r : Registry η) {refused : InvalidTagName}
    (hregister : e.register name handler = .error refused) :
    r.register name handler = (.error refused, r) := by
  rw [Engine.register] at hregister
  split at hregister
  · exact absurd hregister (by simp)
  next hname =>
    rw [register, if_neg hname, Except.error.inj hregister]

end Registry

end Shortcode
