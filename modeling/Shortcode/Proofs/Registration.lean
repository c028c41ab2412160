import Mathlib
import Shortcode.Engine.Registry
import Shortcode.Proofs.Expansion

/-!
# Setting up an engine

An engine is set up by a row of requests: to bind a name to a handler, or to what
another name is bound to at that moment. A request for a name that no tag can have is
refused and leaves everything as it was; so does one to share what is bound to nothing.

What an engine holds after any such row is told by the *record* of the bindings that
were made, each with the handler it was made with: the names are those of the record in
the order of their first entries, and a name has the handler of its last one. It makes
no difference whether names and handlers are held in one list, or in a registry, with a
map for looking handlers up beside a list of the names.

* `isTagName_iff`: the names that are not refused.
* `Engine.tells_serve`: a request adds to what is held what it adds to the record.
* `Registry.Holds.serve`: a registry goes on to hold what its engine does.
* `setup_tells_record`: what is held after a row of requests, in either way.
-/

namespace Shortcode

/-! ## Names -/

/-- One letter, digit, `_` or `-` at least, and nothing else. -/
def IsWord (name : Text) : Prop :=
  name ≠ [] ∧ ∀ c ∈ name, ('A' ≤ c ∧ c ≤ 'Z') ∨ ('a' ≤ c ∧ c ≤ 'z') ∨ ('0' ≤ c ∧ c ≤ '9') ∨
    c = '_' ∨ c = '-'

theorem isNameChar_iff {c : Char} :
    isNameChar c = true ↔ ('A' ≤ c ∧ c ≤ 'Z') ∨ ('a' ≤ c ∧ c ≤ 'z') ∨ ('0' ≤ c ∧ c ≤ '9') ∨
      c = '_' ∨ c = '-' := by
  have halphanum : c.isAlphanum = true ↔
      ('A' ≤ c ∧ c ≤ 'Z') ∨ ('a' ≤ c ∧ c ≤ 'z') ∨ ('0' ≤ c ∧ c ≤ '9') := by
    simp only [Char.isAlphanum, Char.isAlpha, Char.isUpper, Char.isLower, Char.isDigit,
      Bool.or_eq_true, Bool.and_eq_true, decide_eq_true_eq, or_assoc]
    rfl
  simp only [isNameChar, Bool.or_eq_true, beq_iff_eq, halphanum, or_assoc]

/-- The names that a tag can have. -/
theorem isTagName_iff {name : Text} : isTagName name = true ↔ IsWord name := by
  simp only [isTagName, IsWord, Bool.and_eq_true, Bool.not_eq_true', List.isEmpty_eq_false_iff,
    List.all_eq_true, isNameChar_iff]

/-! ## Requests and their record -/

/-- A request to an engine that is being set up. -/
inductive Registration (η : Type)
  /-- To bind `name` to `handler`. -/
  | bind (name : Text) (handler : η)
  /-- To bind `name` to what `source` is bound to. -/
  | share (source name : Text)

variable {η : Type}

namespace Registration

/-- The name that is to be bound. -/
def name : Registration η → Text
  | bind name _ => name
  | share _ name => name

/-- The handler that it is to be bound to, where `current` tells what is bound. -/
def handler? (current : Text → Option η) : Registration η → Option η
  | bind _ handler => some handler
  | share source _ => current source

end Registration

/-- Bindings in the order in which they were made. -/
abbrev Record (η : Type) :=
  List (Text × η)

namespace Record

/-- The names, in the order in which they were first bound. -/
def names (record : Record η) : List Text :=
  (record.map (·.1)).eraseDups

/-- The handler that a name was last bound to. -/
def last? (record : Record η) (name : Text) : Option η :=
  record.reverse.lookup name

/-- The record with the binding that a request asks for, if it can be made. -/
def serve (record : Record η) (request : Registration η) : Record η :=
  match request.handler? record.last? with
  | some handler =>
    if isTagName request.name then record ++ [(request.name, handler)] else record
  | none => record

theorem names_append (record : Record η) (name : Text) (handler : η) :
    names (record ++ [(name, handler)]) =
      if name ∈ record.names then record.names else record.names ++ [name] := by
  have hsingle : [name].eraseDups = [name] := rfl
  simp only [names, List.map_append, List.map_cons, List.map_nil, List.eraseDups_append,
    List.mem_eraseDups, List.removeAll]
  by_cases h : name ∈ record.map (·.1)
  · simp [h]
  · simp [h, hsingle]

theorem last?_append (record : Record η) (name other : Text) (handler : η) :
    last? (record ++ [(name, handler)]) other =
      if other = name then some handler else record.last? other := by
  rw [last?, last?, List.reverse_append, List.reverse_singleton, List.singleton_append,
    List.lookup_cons]
  by_cases h : other = name
  · simp [h]
  · have h' : (other == name) = false := by simpa using h
    simp [h, h']

/-- A name is recorded once at most, however often it was bound. -/
theorem nodup_names (record : Record η) : record.names.Nodup := by
  induction record using List.reverseRecOn with
  | nil => exact List.nodup_nil
  | append_singleton record entry ih =>
    rw [names_append]
    split
    · exact ih
    next hnew =>
      refine List.nodup_append.2 ⟨ih, by simp, fun name hname other hother => ?_⟩
      rw [List.mem_singleton.1 hother]
      rintro rfl
      exact hnew hname

/-- The recorded names are those that have a handler. -/
theorem mem_names_iff {record : Record η} {name : Text} :
    name ∈ record.names ↔ (record.last? name).isSome = true := by
  rw [names, List.mem_eraseDups, List.mem_map, last?, List.lookup_isSome_iff]
  simp only [List.mem_reverse, beq_iff_eq, @eq_comm _ name]

/-- What a name was last bound to is not changed by requests for other names. -/
theorem last?_serve_of_ne (record : Record η) {request : Registration η} {name : Text}
    (hne : request.name ≠ name) : (record.serve request).last? name = record.last? name := by
  rw [serve]
  cases request.handler? record.last? with
  | none => rfl
  | some handler =>
    dsimp only
    split
    · rw [last?_append, if_neg fun h => hne h.symm]
    · rfl

/-- A request that can be served binds its name. -/
theorem last?_serve_self {record : Record η} {request : Registration η} {handler : η}
    (hname : isTagName request.name = true)
    (hhandler : request.handler? record.last? = some handler) :
    (record.serve request).last? request.name = some handler := by
  rw [serve, hhandler]
  dsimp only
  rw [if_pos hname, last?_append, if_pos rfl]

theorem last?_foldl_of_ne (record : Record η) {requests : List (Registration η)} {name : Text}
    (hne : ∀ request ∈ requests, request.name ≠ name) :
    (requests.foldl serve record).last? name = record.last? name := by
  induction requests generalizing record with
  | nil => rfl
  | cons request requests ih =>
    obtain ⟨hfirst, hrest⟩ := List.forall_mem_cons.1 hne
    rw [List.foldl_cons, ih _ hrest, last?_serve_of_ne record hfirst]

/-- What is held, the names and what they are bound to, is that of a record. -/
structure Tells (record : Record η) (held : List Text) (handler? : Text → Option η) : Prop where
  names : held = record.names
  handlers : handler? = record.last?

/-- A binding that is held, and recorded. -/
theorem Tells.append {record : Record η} {held : List Text} {handler? : Text → Option η}
    (h : record.Tells held handler?) (name : Text) (handler : η) :
    Tells (record ++ [(name, handler)]) (if name ∈ held then held else held ++ [name])
      (fun other => if other = name then some handler else handler? other) := by
  refine ⟨?_, funext fun other => ?_⟩
  · rw [names_append, h.names]
  · rw [last?_append, h.handlers]

end Record

/-! ## Engines -/

namespace Engine

/-- The engine after a request; a request that is refused leaves it as it was. -/
def serve (e : Engine η) (request : Registration η) : Engine η :=
  match request.handler? e.handler? with
  | some handler =>
    match e.register request.name handler with
    | .ok e' => e'
    | .error _ => e
  | none => e

theorem tells_empty (config : EngineConfig) :
    Record.Tells [] (empty config : Engine η).names (empty config : Engine η).handler? :=
  ⟨rfl, rfl⟩

/-- A request adds to an engine what it adds to the record. -/
theorem tells_serve {e : Engine η} {record : Record η} (h : record.Tells e.names e.handler?)
    (request : Registration η) :
    (record.serve request).Tells (e.serve request).names (e.serve request).handler? := by
  rw [serve, Record.serve, h.handlers]
  cases request.handler? record.last? with
  | none => exact h
  | some handler =>
    by_cases hname : isTagName request.name = true
    · obtain ⟨e', hregister⟩ : ∃ e', e.register request.name handler = .ok e' := ⟨_, if_pos hname⟩
      simp only [hregister, if_pos hname]
      rw [names_register hregister, funext (handler?_register hregister)]
      exact h.append request.name handler
    · have hregister : e.register request.name handler = .error ⟨request.name⟩ := if_neg hname
      simp only [hregister, if_neg hname]
      exact h

/-- A request binds a name or does nothing. -/
theorem Built.serve {e : Engine η} (he : e.Built) (request : Registration η) :
    (e.serve request).Built ∧ (e.serve request).config = e.config := by
  rw [Engine.serve]
  cases request.handler? e.handler? with
  | none => exact ⟨he, rfl⟩
  | some handler =>
    dsimp only
    cases hregister : e.register request.name handler with
    | error refused => exact ⟨he, rfl⟩
    | ok e' => exact ⟨.register he hregister, config_register hregister⟩

/-- What is held after a row of requests is what is recorded then. -/
theorem tells_foldl {e : Engine η} {record : Record η} (requests : List (Registration η))
    (he : e.Built) (h : record.Tells e.names e.handler?) :
    let e' := requests.foldl serve e
    e'.Built ∧ e'.config = e.config ∧
      (requests.foldl Record.serve record).Tells e'.names e'.handler? := by
  induction requests generalizing e record with
  | nil => exact ⟨he, rfl, h⟩
  | cons request requests ih =>
    obtain ⟨hbuilt, hconfig⟩ := he.serve request
    obtain ⟨hbuilt', hconfig', htells⟩ := ih hbuilt (tells_serve h request)
    exact ⟨hbuilt', hconfig'.trans hconfig, htells⟩

/-- A name that is no word is refused, and no other one. -/
theorem register_eq_error_iff (e : Engine η) (name : Text) (handler : η) :
    e.register name handler = .error ⟨name⟩ ↔ ¬ IsWord name := by
  rw [register, ← isTagName_iff]
  split
  next hname => simp [hname]
  next hname => simp [hname]

theorem exists_register_iff (e : Engine η) (name : Text) (handler : η) :
    (∃ e', e.register name handler = .ok e') ↔ IsWord name := by
  rw [register, ← isTagName_iff]
  split
  next hname => simp [hname]
  next hname => simp [hname]

/-- A request that is refused changes nothing. -/
theorem serve_of_not_isWord (e : Engine η) {request : Registration η}
    (hname : ¬ IsWord request.name) : e.serve request = e := by
  rw [serve]
  cases request.handler? e.handler? with
  | none => rfl
  | some handler => simp only [(e.register_eq_error_iff _ handler).2 hname]

end Engine

/-! ## A map beside a list -/

namespace Registry

/-- What is held after a request. -/
def serve (r : Registry η) (request : Registration η) : Registry η :=
  match request.handler? (r.handlers[·]?) with
  | some handler => (r.register request.name handler).2
  | none => r

/-- A registry that is asked for the same as an engine goes on to hold what the engine does. -/
theorem Holds.serve {r : Registry η} {e : Engine η} (h : r.Holds e) (request : Registration η) :
    (r.serve request).Holds (e.serve request) := by
  have hcurrent : (r.handlers[·]?) = e.handler? := funext h.handlers
  rw [Registry.serve, Engine.serve, hcurrent]
  cases request.handler? e.handler? with
  | none => exact h
  | some handler =>
    dsimp only
    cases hregister : e.register request.name handler with
    | ok e' =>
      obtain ⟨r', hr, hholds⟩ := h.register_of_ok hregister
      rw [hr]
      exact hholds
    | error refused =>
      rw [register_of_error r hregister]
      exact h

/-- So it is after a row of requests. -/
theorem Holds.foldl_serve {r : Registry η} {e : Engine η} (h : r.Holds e)
    (requests : List (Registration η)) :
    (requests.foldl Registry.serve r).Holds (requests.foldl Engine.serve e) := by
  induction requests generalizing r e with
  | nil => exact h
  | cons request requests ih => exact ih (h.serve request)

/-- A name that is no word is refused, and nothing is changed; no other one is. -/
theorem register_eq_error_iff (r : Registry η) (name : Text) (handler : η) :
    r.register name handler = (.error ⟨name⟩, r) ↔ ¬ IsWord name := by
  rw [register, ← isTagName_iff]
  split
  next hname => split <;> simp [hname]
  next hname => simp [hname]

end Registry

/-- What an engine holds after a row of requests: no name twice, the names that have a
    handler and no others, all of them words, in the order in which they were first
    bound; each with the handler that it was last bound to, which for a shared one is the
    handler of the other name at that moment, whatever becomes of that name. A request
    for a name that is no word is refused and changes nothing. A map beside a list of the
    names holds the same. -/
theorem setup_tells_record (config : EngineConfig) (requests : List (Registration η)) :
    let e : Engine η := requests.foldl Engine.serve (.empty config)
    let kept : Registry η := requests.foldl Registry.serve (.empty config)
    let record : Record η := requests.foldl Record.serve []
    (e.config = config ∧ e.names.Nodup ∧ (∀ name, name ∈ e.names ↔ e.contains name = true) ∧
      (∀ name, name ∈ e.names ↔ ∃ handler, e.handler? name = some handler) ∧
      (∀ name ∈ e.names, IsWord name) ∧ e.names = (record.map (·.1)).eraseDups ∧
      ∀ name, e.handler? name = record.reverse.lookup name) ∧
    (∀ earlier source name later handler, requests = earlier ++ .share source name :: later →
      IsWord name → (earlier.foldl Engine.serve (.empty config)).handler? source = some handler →
      (∀ request ∈ later, request.name ≠ name) → e.handler? name = some handler) ∧
    (∀ name handler, (e.register name handler = .error ⟨name⟩ ↔ ¬ IsWord name) ∧
      ((∃ e', e.register name handler = .ok e') ↔ IsWord name)) ∧
    (∀ request, ¬ IsWord request.name → e.serve request = e) ∧
    kept.config = config ∧ kept.order = e.names ∧ (∀ name, kept.handlers[name]? = e.handler? name) ∧
      ∀ name handler, kept.register name handler = (.error ⟨name⟩, kept) ↔ ¬ IsWord name := by
  intro e kept record
  obtain ⟨hbuilt, hconfig, htells⟩ :=
    Engine.tells_foldl requests (.empty config) (Engine.tells_empty config)
  have hholds : kept.Holds e := (Registry.holds_empty config).foldl_serve requests
  refine ⟨⟨hconfig, ?_, fun name => Engine.mem_names_iff, fun name => ?_, fun name hname => ?_,
    htells.names, congrFun htells.handlers⟩, ?_, fun name handler => ⟨?_, ?_⟩, ?_,
    hholds.config.trans hconfig, hholds.order, hholds.handlers, kept.register_eq_error_iff⟩
  · rw [htells.names]
    exact record.nodup_names
  · rw [Engine.mem_names_iff, Engine.contains, Option.isSome_iff_exists]
  · exact isTagName_iff.1 (hbuilt.isTagName_of_contains (Engine.mem_names_iff.1 hname))
  · rintro earlier source name later handler hrequests hname hsource hlater
    obtain ⟨-, -, hearlier⟩ :=
      Engine.tells_foldl earlier (.empty config) (Engine.tells_empty config)
    rw [hearlier.handlers] at hsource
    have hshared : ((earlier.foldl Record.serve []).serve (.share source name)).last? name =
        some handler := Record.last?_serve_self (isTagName_iff.2 hname) hsource
    rw [htells.handlers, hrequests, List.foldl_append, List.foldl_cons,
      Record.last?_foldl_of_ne _ hlater]
    exact hshared
  · exact e.register_eq_error_iff name handler
  · exact e.exists_register_iff name handler
  · exact fun request => e.serve_of_not_isWord

/-- A name that is shared and goes its own way then, a name that is refused, and one that
    would share what is bound to nothing. -/
theorem setup_tells_record_shared :
    let earlier : List (Registration Nat) := [.bind ['a'] 1]
    let later : List (Registration Nat) :=
      [.bind ['a'] 2, .bind ['a', '!'] 3, .share ['c'] ['d']]
    let e : Engine Nat :=
      (earlier ++ .share ['a'] ['b'] :: later).foldl Engine.serve (.empty {})
    (IsWord ['b'] ∧ (earlier.foldl Engine.serve (.empty {})).handler? ['a'] = some 1 ∧
        (∀ request ∈ later, request.name ≠ ['b']) ∧ ¬ IsWord ['a', '!'] ∧ ['a'] ∈ e.names) ∧
      e.handler? ['b'] = some 1 ∧ e.handler? ['a'] = some 2 ∧ e.names = [['a'], ['b']] ∧
      e.serve (.bind ['a', '!'] 4) = e ∧ IsWord ['a'] := by
  intro earlier later e
  have hword : IsWord ['b'] := isTagName_iff.1 (by decide)
  have hrefused : ¬ IsWord ['a', '!'] := fun h => absurd (isTagName_iff.2 h) (by decide)
  have hlater : ∀ request ∈ later, request.name ≠ ['b'] := by simp [later, Registration.name]
  have hmem : ['a'] ∈ e.names := by decide
  obtain ⟨⟨-, -, -, -, hwords, hnames, hlast⟩, hshare, -, hserve, -⟩ :=
    setup_tells_record {} (earlier ++ .share ['a'] ['b'] :: later)
  exact ⟨⟨hword, rfl, hlater, hrefused, hmem⟩, hshare earlier _ _ later 1 rfl hword rfl hlater,
    hlast ['a'], hnames, hserve _ hrefused, hwords _ hmem⟩

end Shortcode
