import Keyfile.Proofs.DoubleReplacement

/-!
# Resolving names in tables

Where the source of an expansion is a list of tables, each level of the expansion replaces the
references in both forms by what their names resolve to: an active name ends the expansion in a
cycle, a name without a value resolves to nothing, and any other one to the expansion of its value.
-/

namespace Keyfile

variable {tables : List Table}

/-- The value of a name in the first table that has one. -/
def lookUp (tables : List Table) (name : Text) : Option Text :=
  tables.findSome? (·.get? name)

lemma lookUp_singleton (table : Table) (name : Text) : lookUp [table] name = table.get? name := by
  rw [lookUp, List.findSome?_cons]
  cases table.get? name <;> rfl

lemma lookUp_congr (tables : List Table) {a b : Text} (h : Text.lower a = Text.lower b) :
    lookUp tables a = lookUp tables b := by
  simp [lookUp, Table.get?, h]

lemma ask_chain (tables : List Table) (name : Text) :
    (Source.chain (m := Id) (tables.map .ofTable)).ask name = lookUp tables name := by
  induction tables with
  | nil => rfl
  | cons table rest ih =>
    have hask : (Source.chain (m := Id) ((table :: rest).map .ofTable)).ask name =
        (table.get? name).elim ((Source.chain (m := Id) (rest.map .ofTable)).ask name) some := by
      simp only [Source.chain, List.map_cons, List.foldr_cons, Source.orElse, Source.ofTable]
      cases table.get? name <;> rfl
    rw [hask, ih]
    simp only [lookUp, List.findSome?_cons]
    cases table.get? name <;> rfl

lemma mem_names {name value : Text} (h : lookUp tables name = some value) :
    Text.lower name ∈ (Source.chain (m := Id) (tables.map .ofTable)).names := by
  induction tables with
  | nil => cases h
  | cons table rest ih =>
    have hnames : (Source.chain (m := Id) ((table :: rest).map .ofTable)).names =
        table.keys ++ (Source.chain (m := Id) (rest.map .ofTable)).names := rfl
    rw [hnames, List.mem_append]
    cases hget : table.get? name with
    | none =>
      refine .inr (ih ?_)
      simpa [lookUp, hget] using h
    | some found =>
      obtain ⟨entry, hentry, -⟩ := Option.map_eq_some_iff.1 hget
      have hkey := List.find?_some hentry
      exact .inl (List.mem_map.2 ⟨entry, List.mem_of_find?_eq_some hentry, by simpa using hkey⟩)

/-- The expansion of a text within active names, the tables being the source. -/
def within (tables : List Table) (active : List Text) (t : Text) :
    ExceptT ExpansionError Id Text :=
  expandWithin (.chain (tables.map .ofTable)) active t

/-- What a reference to a name within active names is replaced by. -/
def resolve (tables : List Table) (active : List Text) (name : Text) :
    ExceptT ExpansionError Id (Option Text) :=
  if active.contains (Text.lower name) then throw (.cycle name)
  else if nestingLimit ≤ active.length then throw .tooDeep
  else
    (lookUp tables name).elim (pure none) fun value =>
      some <$> within tables (Text.lower name :: active) value

lemma within_eq (tables : List Table) (active : List Text) (t : Text) :
    within tables active t = replaceBoth (resolve tables active) t := by
  rw [within, expandWithin]
  change replaceBoth _ t = _
  congr 1
  funext name
  rw [resolve]
  by_cases hactive : Text.lower name ∈ active
  · simp [hactive]
  by_cases hdeep : nestingLimit ≤ active.length
  · simp [hactive, hdeep]
  · rw [dif_neg hactive, if_neg hdeep, if_neg (mt List.contains_iff_mem.1 hactive), if_neg hdeep,
      ask_chain]
    cases hname : lookUp tables name with
    | none => split <;> rfl
    | some value =>
      rw [dif_pos (mem_names hname)]
      change _ = some <$> within tables (Text.lower name :: active) value
      rw [map_eq_pure_bind]
      rfl

variable {active : List Text} {name : Text}

lemma resolve_of_idle (hactive : Text.lower name ∉ active)
    (hroom : active.length < nestingLimit) :
    resolve tables active name = (lookUp tables name).elim (pure none) fun value =>
      some <$> within tables (Text.lower name :: active) value := by
  rw [resolve, if_neg (by simpa using hactive), if_neg (Nat.not_le.2 hroom)]

lemma resolve_of_none (hactive : Text.lower name ∉ active) (hroom : active.length < nestingLimit)
    (hname : lookUp tables name = none) : resolve tables active name = pure none := by
  rw [resolve_of_idle hactive hroom, hname]
  rfl

lemma resolve_of_some {value expanded : Text} (hactive : Text.lower name ∉ active)
    (hroom : active.length < nestingLimit) (hname : lookUp tables name = some value)
    (hvalue : within tables (Text.lower name :: active) value = pure expanded) :
    resolve tables active name = pure (some expanded) := by
  rw [resolve_of_idle hactive hroom, hname, Option.elim_some, hvalue, map_pure]

/-- How a name comes out: it is active, or it is not to be resolved so deep, or else it is kept
without a value and its value is expanded while it is active. -/
lemma resolve_cases (tables : List Table) (active : List Text) (name : Text) :
    (Text.lower name ∈ active ∧ resolve tables active name = throw (.cycle name)) ∨
    (Text.lower name ∉ active ∧ nestingLimit ≤ active.length ∧
      resolve tables active name = throw .tooDeep) ∨
    (Text.lower name ∉ active ∧ active.length < nestingLimit ∧
      resolve tables active name = (lookUp tables name).elim (pure none) fun value =>
        some <$> within tables (Text.lower name :: active) value) := by
  by_cases hactive : Text.lower name ∈ active
  · refine .inl ⟨hactive, ?_⟩
    rw [resolve, if_pos (by simpa using hactive)]
  · rcases Nat.lt_or_ge active.length nestingLimit with hroom | hdeep
    · exact .inr (.inr ⟨hactive, hroom, resolve_of_idle hactive hroom⟩)
    · refine .inr (.inl ⟨hactive, hdeep, ?_⟩)
      rw [resolve, if_neg (by simpa using hactive), if_pos hdeep]

/-- A name that is resolved is not active, there is room for it, and its value is expanded while it
is active. -/
lemma of_resolve_eq_pure {found : Option Text} (h : resolve tables active name = pure found) :
    Text.lower name ∉ active ∧ active.length < nestingLimit ∧
      (lookUp tables name = none ∧ found = none ∨
        ∃ value expanded, lookUp tables name = some value ∧
          within tables (Text.lower name :: active) value = pure expanded ∧
          found = some expanded) := by
  obtain ⟨-, hthrow⟩ | ⟨-, -, hthrow⟩ | ⟨hactive, hroom, hresolve⟩ :=
    resolve_cases tables active name
  · exact absurd (hthrow.symm.trans h) throw_ne_pure
  · exact absurd (hthrow.symm.trans h) throw_ne_pure
  · refine ⟨hactive, hroom, ?_⟩
    rw [hresolve] at h
    cases hname : lookUp tables name with
    | none =>
      rw [hname] at h
      exact .inl ⟨rfl, (pure_inj h).symm⟩
    | some value =>
      rw [hname] at h
      obtain ⟨expanded, hexpanded, rfl⟩ := map_eq_pure_iff.1 h
      exact .inr ⟨value, expanded, rfl, hexpanded, rfl⟩

/-- What a name that is not resolved fails with: it is active, or it comes up too deep, or its value
fails. -/
lemma of_resolve_eq_throw {error : ExpansionError}
    (h : resolve tables active name = throw error) :
    Text.lower name ∈ active ∧ error = .cycle name ∨
      Text.lower name ∉ active ∧
        (nestingLimit ≤ active.length ∧ error = .tooDeep ∨
          ∃ value, active.length < nestingLimit ∧ lookUp tables name = some value ∧
            within tables (Text.lower name :: active) value = throw error) := by
  obtain ⟨hactive, hthrow⟩ | ⟨hactive, hdeep, hthrow⟩ | ⟨hactive, hroom, hresolve⟩ :=
    resolve_cases tables active name
  · cases hthrow.symm.trans h
    exact .inl ⟨hactive, rfl⟩
  · cases hthrow.symm.trans h
    exact .inr ⟨hactive, .inl ⟨hdeep, rfl⟩⟩
  · rw [hresolve] at h
    cases hname : lookUp tables name with
    | none =>
      rw [hname] at h
      exact absurd h.symm throw_ne_pure
    | some value =>
      rw [hname] at h
      exact .inr ⟨hactive, .inr ⟨value, hroom, rfl, map_eq_throw_iff.1 h⟩⟩

end Keyfile
