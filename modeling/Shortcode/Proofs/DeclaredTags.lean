import Shortcode.Config.Build
import Shortcode.Proofs.Registration

/-!
# The tags that a configuration declares

The engine of a valid configuration has the built-in tags and every tag that the
configuration declares. It cannot be built if a declaration is at fault: one is an alias
of what is no built-in tag, or a template that cannot be read. The first fault counts, in
the order of the names; a name is never at fault, since the check of the configuration has
refused those that no tag can have.

What a name is bound to is told by its own declaration alone. An alias stands for a
built-in tag and not for what the name of that tag is bound to, so it makes no difference
to it whether another declaration takes the name.

* `Declaration.Binds`, `Declaration.Fails`: what a declaration binds, and its faults.
* `Config.declare_eq_error_iff`: the first declaration at fault fails the build.
* `Config.declare_eq_ok`: what is bound, and in which order the names are listed.
* `Config.handler?_build_congr`: a binding is told by its own declaration.
* `build_declares`: the engine of a valid configuration.
-/

namespace Shortcode

/-! ## One declaration -/

namespace Declaration

/-- What a declaration binds its name to. -/
inductive Binds (d : Declaration) : Binding → Prop
  /-- An alias: a built-in tag, with the defaults of the declaration. -/
  | builtin {b : Builtin} (halias : d.alias = some b.name) :
      Binds d (.alias b (defaultAttributes d.defaults))
  /-- A template. -/
  | template {source : Text} {gaps : Placeholder} (htemplate : d.template = some source)
      (hread : Placeholder.read source = .ok gaps) : Binds d (.template gaps)

/-- The fault of a declaration of `name`. -/
inductive Fails (name : Text) (d : Declaration) : BuildError → Prop
  /-- An alias of what is no built-in tag. -/
  | unknown {target : Text} (halias : d.alias = some target)
      (hnone : ∀ b : Builtin, b.name ≠ target) : Fails name d (.unknownBuiltin target)
  /-- A template that cannot be read. -/
  | unreadable {source : Text} {error : PlaceholderError} (htemplate : d.template = some source)
      (hread : Placeholder.read source = .error error) : Fails name d (.template name error)

variable {name : Text} {d : Declaration}

/-- A valid declaration is an alias or a template, and not both. -/
theorem validate_eq_ok_iff :
    d.validate name = .ok () ↔ isTagName name = true ∧
      ((∃ target, d.alias = some target ∧ d.template = none ∧ target ≠ []) ∨
        ∃ source, d.alias = none ∧ d.template = some source ∧ source ≠ [] ∧
          d.defaults.entries = []) := by
  rw [validate]
  cases isTagName name <;> cases d.alias <;> cases d.template <;> simp [ite_eq_iff]

/-- What a valid declaration binds is what it says. -/
theorem binding?_of_binds (hvalid : d.validate name = .ok ()) {binding : Binding}
    (h : d.Binds binding) : d.binding? name = .ok (some binding) := by
  rw [binding?]
  cases h with
  | builtin halias => simp only [halias, Builtin.ofName?_name]
  | template htemplate hread =>
    rcases (validate_eq_ok_iff.1 hvalid).2 with ⟨target, -, hnone, -⟩ | ⟨source, hnone, -⟩
    · exact absurd (hnone.symm.trans htemplate) (by simp)
    · simp only [hnone, htemplate, hread]

theorem binding?_of_fails (hvalid : d.validate name = .ok ()) {error : BuildError}
    (h : d.Fails name error) : d.binding? name = .error error := by
  rw [binding?]
  cases h with
  | @unknown target halias hnone =>
    have htarget : Builtin.ofName? target = none := by
      rw [Builtin.ofName?, List.find?_eq_none]
      exact fun b _ => by simpa using hnone b
    simp only [halias, htarget]
  | unreadable htemplate hread =>
    rcases (validate_eq_ok_iff.1 hvalid).2 with ⟨target, -, hnone, -⟩ | ⟨source, hnone, -⟩
    · exact absurd (hnone.symm.trans htemplate) (by simp)
    · simp only [hnone, htemplate, hread]

/-- A valid declaration binds its name or is at fault. -/
theorem exists_binds_or_fails (hvalid : d.validate name = .ok ()) :
    (∃ binding, d.Binds binding) ∨ ∃ error, d.Fails name error := by
  rcases (validate_eq_ok_iff.1 hvalid).2 with ⟨target, halias, -⟩ | ⟨source, -, htemplate, -⟩
  · by_cases htarget : ∃ b : Builtin, b.name = target
    · obtain ⟨b, rfl⟩ := htarget
      exact .inl ⟨_, .builtin halias⟩
    · exact .inr ⟨_, .unknown halias fun b hb => htarget ⟨b, hb⟩⟩
  · cases hread : Placeholder.read source with
    | ok gaps => exact .inl ⟨_, .template htemplate hread⟩
    | error error => exact .inr ⟨_, .unreadable htemplate hread⟩

/-- A valid declaration that binds its name is not at fault. -/
theorem Binds.not_fails (hvalid : d.validate name = .ok ()) {binding : Binding}
    (h : d.Binds binding) (error : BuildError) : ¬ d.Fails name error := by
  intro hfails
  have hsame := (binding?_of_binds hvalid h).symm.trans (binding?_of_fails hvalid hfails)
  exact absurd hsame (by simp)

/-- A valid declaration binds one thing only. -/
theorem Binds.unique (hvalid : d.validate name = .ok ()) {binding binding' : Binding}
    (h : d.Binds binding) (h' : d.Binds binding') : binding = binding' := by
  have hsame := (binding?_of_binds hvalid h).symm.trans (binding?_of_binds hvalid h')
  exact Option.some.inj (Except.ok.inj hsame)

/-- A valid declaration has one fault only. -/
theorem Fails.unique (hvalid : d.validate name = .ok ()) {error error' : BuildError}
    (h : d.Fails name error) (h' : d.Fails name error') : error = error' := by
  have hsame := (binding?_of_fails hvalid h).symm.trans (binding?_of_fails hvalid h')
  exact Except.error.inj hsame

/-- A valid declaration is registered under its name, which is never refused. -/
theorem register_of_binds (hvalid : d.validate name = .ok ()) {binding : Binding}
    (h : d.Binds binding) (e : Engine Binding) :
    ∃ e', d.register e name = .ok e' ∧ e.register name binding = .ok e' := by
  have hname := (validate_eq_ok_iff.1 hvalid).1
  obtain ⟨e', hregister⟩ := (e.exists_register_iff name binding).2 (isTagName_iff.1 hname)
  refine ⟨e', ?_, hregister⟩
  rw [register, binding?_of_binds hvalid h]
  exact congrArg (Except.mapError BuildError.invalidTagName) hregister

theorem register_of_fails (hvalid : d.validate name = .ok ()) {error : BuildError}
    (h : d.Fails name error) (e : Engine Binding) : d.register e name = .error error := by
  rw [register, binding?_of_fails hvalid h]
  rfl

end Declaration

/-! ## A row of declarations -/

/-- The first declaration at fault, and its fault. -/
def FirstFault (entries : List (Text × Declaration)) (error : BuildError) : Prop :=
  ∃ earlier name d later, entries = earlier ++ (name, d) :: later ∧
    (∀ entry ∈ earlier, ∀ error, ¬ entry.2.Fails entry.1 error) ∧ d.Fails name error

theorem firstFault_cons {name : Text} {d : Declaration} {entries : List (Text × Declaration)}
    {error : BuildError} :
    FirstFault ((name, d) :: entries) error ↔
      d.Fails name error ∨ (∀ error, ¬ d.Fails name error) ∧ FirstFault entries error := by
  constructor
  · rintro ⟨earlier, name', d', later, h, hearlier, hfails⟩
    cases earlier with
    | nil =>
      obtain ⟨hentry, -⟩ := List.cons.inj h
      obtain ⟨rfl, rfl⟩ := Prod.mk.inj hentry
      exact .inl hfails
    | cons first earlier =>
      obtain ⟨rfl, hentries⟩ := List.cons.inj h
      obtain ⟨hfirst, hearlier⟩ := List.forall_mem_cons.1 hearlier
      exact .inr ⟨hfirst, earlier, name', d', later, hentries, hearlier, hfails⟩
  · rintro (hfails | ⟨hfirst, earlier, name', d', later, rfl, hearlier, hfails⟩)
    · exact ⟨[], name, d, entries, rfl, fun _ h => absurd h List.not_mem_nil, hfails⟩
    · exact ⟨(name, d) :: earlier, name', d', later, rfl,
        List.forall_mem_cons.2 ⟨hfirst, hearlier⟩, hfails⟩

/-- There is a first declaration at fault if there is one at all. -/
theorem exists_firstFault_iff {entries : List (Text × Declaration)} :
    (∃ error, FirstFault entries error) ↔
      ∃ entry ∈ entries, ∃ error, entry.2.Fails entry.1 error := by
  induction entries with
  | nil =>
    refine ⟨?_, fun ⟨_, h, _⟩ => absurd h List.not_mem_nil⟩
    rintro ⟨error, earlier, name, d, later, h, -⟩
    exact absurd h (by simp)
  | cons entry entries ih =>
    obtain ⟨name, d⟩ := entry
    simp only [firstFault_cons, List.mem_cons, exists_eq_or_imp, ← ih]
    by_cases hfails : ∃ error, d.Fails name error
    · exact ⟨fun _ => .inl hfails, fun _ => hfails.imp fun _ => .inl⟩
    · have hnone : ∀ error, ¬ d.Fails name error := fun error h => hfails ⟨error, h⟩
      simp [hnone]

namespace Config

variable {entries : List (Text × Declaration)} {e e' : Engine Binding}

theorem declare_cons_of_binds (e : Engine Binding) (entries : List (Text × Declaration))
    {name : Text} {d : Declaration} {binding : Binding} (hvalid : d.validate name = .ok ())
    (h : d.Binds binding) :
    ∃ e', e.register name binding = .ok e' ∧
      (declare e ((name, d) :: entries)).2 = (declare e' entries).2 := by
  obtain ⟨e', hdeclare, hregister⟩ := Declaration.register_of_binds hvalid h e
  refine ⟨e', hregister, ?_⟩
  rw [declare, hdeclare]

theorem declare_cons_of_fails {name : Text} {d : Declaration} {error : BuildError}
    (hvalid : d.validate name = .ok ()) (h : d.Fails name error) :
    (declare e ((name, d) :: entries)).2 = .error error := by
  rw [declare, Declaration.register_of_fails hvalid h]

/-- The first declaration at fault fails the build. -/
theorem declare_eq_error_iff
    (hvalid : ∀ entry ∈ entries, entry.2.validate entry.1 = .ok ()) {error : BuildError} :
    (declare e entries).2 = .error error ↔ FirstFault entries error := by
  induction entries generalizing e with
  | nil =>
    refine ⟨fun h => absurd h (by simp [declare]), ?_⟩
    rintro ⟨earlier, name, d, later, h, -⟩
    exact absurd h (by simp)
  | cons entry entries ih =>
    obtain ⟨name, d⟩ := entry
    obtain ⟨hd, hrest⟩ := List.forall_mem_cons.1 hvalid
    rw [firstFault_cons]
    rcases Declaration.exists_binds_or_fails hd with ⟨binding, hbinds⟩ | ⟨fault, hfails⟩
    · obtain ⟨e', -, hdeclare⟩ := declare_cons_of_binds e entries hd hbinds
      rw [hdeclare, ih hrest]
      have hnone := hbinds.not_fails hd
      exact ⟨fun h => .inr ⟨hnone, h⟩, fun h => (h.resolve_left (hnone error)).2⟩
    · rw [declare_cons_of_fails hd hfails, Except.error.injEq]
      constructor
      · rintro rfl
        exact .inl hfails
      · rintro (hfails' | ⟨hnone, -⟩)
        · exact hfails.unique hd hfails'
        · exact absurd hfails (hnone fault)

/-- A row of declarations without a fault changes what the declared names are bound to
    and nothing else, and lists the new names behind the ones that were bound, in order. -/
theorem declare_eq_ok (hvalid : ∀ entry ∈ entries, entry.2.validate entry.1 = .ok ())
    (hnodup : (entries.map (·.1)).Nodup) (h : (declare e entries).2 = .ok e') :
    e'.config = e.config ∧
      e'.names = e.names ++ (entries.map (·.1)).filter (· ∉ e.names) ∧
      (∀ entry ∈ entries, ∃ binding, entry.2.Binds binding ∧
        e'.handler? entry.1 = some binding) ∧
      ∀ name, name ∉ entries.map (·.1) → e'.handler? name = e.handler? name := by
  induction entries generalizing e with
  | nil =>
    obtain rfl : e = e' := Except.ok.inj h
    exact ⟨rfl, (List.append_nil _).symm, fun _ h => absurd h List.not_mem_nil, fun _ _ => rfl⟩
  | cons entry entries ih =>
    obtain ⟨name, d⟩ := entry
    obtain ⟨hd, hrest⟩ := List.forall_mem_cons.1 hvalid
    obtain ⟨hname, hnodup⟩ := List.nodup_cons.1 hnodup
    rcases Declaration.exists_binds_or_fails hd with ⟨binding, hbinds⟩ | ⟨fault, hfails⟩
    · obtain ⟨e₁, hregister, hdeclare⟩ :=
        declare_cons_of_binds e entries hd hbinds
      rw [hdeclare] at h
      obtain ⟨hconfig, hnames, hbound, hframe⟩ := ih hrest hnodup h
      have hhandler := Engine.handler?_register hregister
      refine ⟨hconfig.trans (Engine.config_register hregister), ?_, ?_, fun other hother => ?_⟩
      · rw [hnames, Engine.names_register hregister, List.map_cons]
        split
        next hold => simp [hold]
        next hnew =>
          -- the name comes but once, so it hides no later one
          have hfilter : (entries.map (·.1)).filter (· ∉ e.names ++ [name]) =
              (entries.map (·.1)).filter (· ∉ e.names) := by
            refine List.filter_congr fun other hother => ?_
            have hne : other ≠ name := fun h => hname (h ▸ hother)
            simp [hne]
          rw [hfilter]
          simp [hnew]
      · refine List.forall_mem_cons.2 ⟨⟨binding, hbinds, ?_⟩, hbound⟩
        rw [hframe name hname, hhandler, if_pos rfl]
      · rw [List.map_cons, List.mem_cons, not_or] at hother
        rw [hframe other hother.2, hhandler, if_neg hother.1]
    · rw [declare_cons_of_fails hd hfails] at h
      exact absurd h (by simp)

theorem names_builtins (engine : EngineConfig) :
    (builtins engine).names = Builtin.all.map Builtin.name := by
  simp [builtins, Engine.names]

theorem handler?_builtins (engine : EngineConfig) (b : Builtin) :
    (builtins engine).handler? b.name = some (.builtin b) := by
  cases b <;> rfl

end Config

/-- The names that a configuration declares and that no built-in tag has. -/
def Config.ownNames (config : Config) : List Text :=
  config.tags.names.filter fun name => name ∉ Builtin.all.map Builtin.name

namespace Config

variable {config config' : Config} {e e' : Engine Binding}

/-- The engine of a valid configuration that has no declaration at fault. -/
theorem build_eq_ok (hvalid : config.validate = .ok ()) (h : config.build.2 = .ok e) :
    e.config = config.engine ∧
      e.names = Builtin.all.map Builtin.name ++ config.ownNames ∧
      (∀ name d, config.tags.get? name = some d →
        ∃ binding, d.Binds binding ∧ e.handler? name = some binding) ∧
      ∀ name, config.tags.get? name = none →
        e.handler? name = (builtins config.engine).handler? name := by
  rw [build_eq] at h
  obtain ⟨hconfig, hnames, hbound, hframe⟩ :=
    declare_eq_ok (fun entry hentry => config.validate_ok_of_mem hvalid hentry)
      config.tags.nodup_names h
  rw [names_builtins] at hnames
  refine ⟨hconfig, hnames, fun name d hd => ?_, fun name hnone => ?_⟩
  · exact hbound (name, d) (Table.mem_of_get? hd)
  · exact hframe name (Table.get?_eq_none_iff.1 hnone)

/-- What a name is bound to is told by its own declaration. -/
theorem handler?_build_congr (hvalid : config.validate = .ok ()) (h : config.build.2 = .ok e)
    (hvalid' : config'.validate = .ok ()) (h' : config'.build.2 = .ok e') {name : Text}
    (hsame : config'.tags.get? name = config.tags.get? name) :
    e'.handler? name = e.handler? name := by
  obtain ⟨-, -, hbound, hframe⟩ := build_eq_ok hvalid h
  obtain ⟨-, -, hbound', hframe'⟩ := build_eq_ok hvalid' h'
  cases hd : config.tags.get? name with
  | none =>
    rw [hframe name hd, hframe' name (hsame.trans hd)]
    rfl
  | some d =>
    obtain ⟨binding, hbinds, hhandler⟩ := hbound name d hd
    obtain ⟨binding', hbinds', hhandler'⟩ := hbound' name d (hsame.trans hd)
    have hd' := config.validate_ok_of_mem hvalid (Table.mem_of_get? hd)
    rw [hhandler, hhandler', hbinds.unique hd' hbinds']

theorem mem_ownNames_iff {name : Text} :
    name ∈ config.ownNames ↔ name ∈ config.tags.names ∧ ∀ b : Builtin, b.name ≠ name := by
  rw [ownNames, List.mem_filter, decide_eq_true_eq, List.mem_map]
  refine and_congr_right fun _ => ⟨fun h b hb => h ⟨b, ?_, hb⟩, ?_⟩
  · cases b <;> decide
  · rintro h ⟨b, -, hb⟩
    exact h b hb

end Config

end Shortcode
