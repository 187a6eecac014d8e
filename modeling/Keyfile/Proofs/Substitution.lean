import Keyfile.Proofs.Relays
import Keyfile.Proofs.Resolution
import Mathlib

/-!
# Expansion as recursive substitution

Expanding a well formed text puts the recursive expansion of its value in the place of every
reference to a name with a value and keeps every other reference as it is written, although each
level scans the text twice, the second time with the values of the first scan already in it. An
expansion fails exactly when the references of the text lead into a cycle of names with values, or
through as many such names as can be active to a further reference.
-/

namespace Keyfile

open Relation

/-- The expansion of pieces: the value of a name is expanded before it takes the place of a
reference, and a reference without a value is kept. -/
inductive Expands (tables : List Table) : List Piece → Text → Prop
  | nil : Expands tables [] []
  | plain (t : Text) {rest : List Piece} {out : Text} (hrest : Expands tables rest out) :
      Expands tables (.plain t :: rest) (t ++ out)
  | unknown (form : Form) {name : Text} {rest : List Piece} {out : Text}
      (hname : lookUp tables name = none) (hrest : Expands tables rest out) :
      Expands tables (.reference form name :: rest) (form.written name ++ out)
  | known (form : Form) {name value expanded : Text} {inner rest : List Piece} {out : Text}
      (hname : lookUp tables name = some value) (hvalue : Splits value inner)
      (hinner : Expands tables inner expanded) (hrest : Expands tables rest out) :
      Expands tables (.reference form name :: rest) (expanded ++ out)

/-- The value of the first name holds a reference to the second one, which has a value too. -/
def Refers (tables : List Table) (a b : Text) : Prop :=
  ∃ value pieces, lookUp tables a = some value ∧ Splits value pieces ∧ Mentions pieces b ∧
    (lookUp tables b).isSome

/-- The references of the pieces lead to a name that leads back to itself, in any spelling. -/
def ReachesCycle (tables : List Table) (pieces : List Piece) : Prop :=
  ∃ start a b, Mentions pieces start ∧ (lookUp tables start).isSome ∧
    ReflTransGen (Refers tables) start a ∧ TransGen (Refers tables) a b ∧ sameName a b

/-- The references of the pieces lead through so many names with values, none of which is active or
met before, to a further reference. -/
inductive Descends (tables : List Table) : List Text → Nat → List Piece → Prop
  | here {active : List Text} {pieces : List Piece} {name : Text}
      (hmentions : Mentions pieces name) (hidle : Text.lower name ∉ active) :
      Descends tables active 0 pieces
  | there {active : List Text} {pieces inner : List Piece} {name value : Text} {depth : Nat}
      (hmentions : Mentions pieces name) (hidle : Text.lower name ∉ active)
      (hname : lookUp tables name = some value) (hvalue : Splits value inner)
      (hinner : Descends tables (Text.lower name :: active) depth inner) :
      Descends tables active (depth + 1) pieces

/-- The references of the pieces are nested more deeply than names can be active. -/
def NestsTooDeep (tables : List Table) (pieces : List Piece) : Prop :=
  Descends tables [] nestingLimit pieces

variable {tables : List Table}

def ActiveKnown (tables : List Table) (active : List Text) : Prop :=
  ∀ name, Text.lower name ∈ active → (lookUp tables name).isSome

lemma ActiveKnown.nil : ActiveKnown tables [] := by
  simp [ActiveKnown]

lemma ActiveKnown.cons {active : List Text} (h : ActiveKnown tables active) {name : Text}
    (hname : (lookUp tables name).isSome) : ActiveKnown tables (Text.lower name :: active) := by
  intro other hother
  rcases List.mem_cons.1 hother with heq | hmem
  · rwa [lookUp_congr tables heq]
  · exact h other hmem

lemma ActiveKnown.notMem {active : List Text} (h : ActiveKnown tables active) {name : Text}
    (hname : lookUp tables name = none) : Text.lower name ∉ active := by
  intro hmem
  simpa [hname] using h name hmem

/-- Every reference in the text is one without a value. -/
def Residual (tables : List Table) (t : Text) : Prop :=
  ∃ pieces, Splits t pieces ∧ ∀ name, Mentions pieces name → lookUp tables name = none

lemma Residual.append {s t : Text} (hs : Residual tables s) (ht : Residual tables t) :
    Residual tables (s ++ t) := by
  obtain ⟨pieces, ⟨hvalid, rfl⟩, hnames⟩ := hs
  obtain ⟨pieces', ⟨hvalid', rfl⟩, hnames'⟩ := ht
  refine ⟨pieces ++ pieces', ⟨?_, List.flatMap_append⟩, ?_⟩
  · exact List.forall_mem_append.2 ⟨hvalid, hvalid'⟩
  · rintro name ⟨form, hmem⟩
    rcases List.mem_append.1 hmem with hmem | hmem
    · exact hnames name ⟨form, hmem⟩
    · exact hnames' name ⟨form, hmem⟩

lemma Residual.of_plain {t : Text} (ht : (Piece.plain t).Valid) : Residual tables t := by
  refine ⟨[.plain t], ⟨by simpa using ht, by simp [Piece.text, Piece.written]⟩, ?_⟩
  rintro name ⟨form, hmem⟩
  simp at hmem

lemma Residual.of_unknown {form : Form} {name : Text} (hvalid : (Piece.reference form name).Valid)
    (hname : lookUp tables name = none) : Residual tables (form.written name) := by
  refine ⟨[.reference form name], ⟨by simpa using hvalid, by simp [Piece.text, Piece.written]⟩, ?_⟩
  rintro other ⟨form', hmem⟩
  obtain ⟨-, rfl⟩ : form' = form ∧ other = name := by simpa using hmem
  exact hname

/-- Nothing but references without values is left of an expansion. -/
lemma Expands.residual {pieces : List Piece} {out : Text} (h : Expands tables pieces out)
    (hvalid : ∀ piece ∈ pieces, piece.Valid) : Residual tables out := by
  induction h with
  | nil => exact .of_plain (by simp [Piece.Valid])
  | plain t _ ih =>
    obtain ⟨ht, hrest⟩ := List.forall_mem_cons.1 hvalid
    exact (Residual.of_plain ht).append (ih hrest)
  | unknown form hname _ ih =>
    obtain ⟨hpiece, hrest⟩ := List.forall_mem_cons.1 hvalid
    exact (Residual.of_unknown hpiece hname).append (ih hrest)
  | known form _ hvalue _ _ ihinner ihrest =>
    exact (ihinner hvalue.valid).append (ihrest (List.forall_mem_cons.1 hvalid).2)

/-- The second scan of a level keeps a text whose references have no values. -/
lemma Residual.inert {t : Text} (h : Residual tables t) {active : List Text}
    (hactive : ActiveKnown tables active) (hroom : active.length < nestingLimit) :
    Inert (resolve tables active) t := by
  obtain ⟨pieces, ⟨hvalid, rfl⟩, hnames⟩ := h
  intro after
  induction pieces with
  | nil => simp [Piece.text]
  | cons piece rest ih =>
    obtain ⟨hpiece, hrest⟩ := List.forall_mem_cons.1 hvalid
    have htext : Piece.text (piece :: rest) ++ after =
        piece.written ++ (Piece.text rest ++ after) := by
      simp [Piece.text]
    have ih := ih (fun name hname => hnames name (hname.cons)) hrest
    have hkeep : Form.dollar.replace (resolve tables active)
        (piece.written ++ (Piece.text rest ++ after)) =
          (piece.written ++ ·) <$>
            Form.dollar.replace (resolve tables active) (Piece.text rest ++ after) := by
      cases piece with
      | plain t => exact Form.dollar.replace_append _ hpiece.2 _
      | reference form name =>
        cases form with
        | percent =>
          refine Form.dollar.replace_append _ ?_ _
          simpa [Piece.written, Form.written, Form.opener, Form.closer, Form.sign]
            using hpiece.2.2.1
        | dollar =>
          have hnone : lookUp tables name = none := hnames name (Mentions.head .dollar name rest)
          rw [Piece.written, Form.dollar.replace_written_append _ hpiece.2.2.2.2,
            Form.dollar.substitute_reference hpiece.1,
            resolve_of_none (hactive.notMem hnone) hroom hnone, map_pure, pure_bind]
          rfl
    rw [htext, hkeep, ih, Functor.map_map]
    simp [Piece.text]

/-- The number of names that can still become active. -/
def room (active : List Text) : Nat :=
  nestingLimit - active.length

lemma room_eq_succ {active : List Text} (h : active.length < nestingLimit) (name : Text) :
    room active = room (name :: active) + 1 := by
  rw [room, room, List.length_cons]
  omega

section

variable (hvalues : ∀ name value, lookUp tables name = some value → WellFormed value)
include hvalues

/-- What an expansion gives is the recursive substitution. The induction is on the number of names
that can still become active: the values of deeper levels are substitutions already, hence residual,
hence kept by the second scan. -/
theorem expands_of_within {active : List Text} (hactive : ActiveKnown tables active)
    {pieces : List Piece} (hvalid : ∀ piece ∈ pieces, piece.Valid) {out : Text}
    (h : within tables active (Piece.text pieces) = pure out) : Expands tables pieces out := by
  induction hroom : room active using Nat.strongRecOn generalizing active pieces out with
  | _ n ih =>
    subst hroom
    have hdeeper : ∀ name value expanded, active.length < nestingLimit →
        lookUp tables name = some value →
        within tables (Text.lower name :: active) value = pure expanded →
        ∃ inner, Splits value inner ∧ Expands tables inner expanded := by
      intro name value expanded hroom hname hexpanded
      obtain ⟨inner, hinner⟩ := hvalues name value hname
      have hless : room (Text.lower name :: active) < room active := by
        rw [room_eq_succ hroom (Text.lower name)]
        exact Nat.lt_succ_self _
      refine ⟨inner, hinner, ?_⟩
      refine ih _ hless (hactive.cons (by simp [hname])) hinner.valid ?_ rfl
      rwa [hinner.text_eq]
    have hinert : ∀ name s, resolve tables active name = pure (some s) →
        Inert (resolve tables active) s := by
      intro name s hresolve
      obtain ⟨-, hroom, ⟨-, hfound⟩ | ⟨value, expanded, hname, hexpanded, hfound⟩⟩ :=
        of_resolve_eq_pure hresolve
      · cases hfound
      · cases hfound
        obtain ⟨inner, hinner, hexpands⟩ := hdeeper name value s hroom hname hexpanded
        exact (hexpands.residual hinner.valid).inert hactive hroom
    rw [within_eq, replaceBoth_eq_pure_iff_gives hvalid hinert] at h
    clear hvalid
    induction h with
    | nil => exact .nil
    | plain t _ ih => exact .plain t ih
    | reference form hresolve _ ih =>
      obtain ⟨-, hroom, ⟨hname, rfl⟩ | ⟨value, expanded, hname, hexpanded, rfl⟩⟩ :=
        of_resolve_eq_pure hresolve
      · exact .unknown form hname ih
      · obtain ⟨inner, hinner, hexpands⟩ := hdeeper _ value expanded hroom hname hexpanded
        exact .known form hname hinner hexpands ih

lemma inert_of_resolve {active : List Text} (hactive : ActiveKnown tables active) {name s : Text}
    (hresolve : resolve tables active name = pure (some s)) :
    Inert (resolve tables active) s := by
  obtain ⟨-, hroom, ⟨-, hfound⟩ | ⟨value, expanded, hname, hexpanded, hfound⟩⟩ :=
    of_resolve_eq_pure hresolve
  · cases hfound
  · cases hfound
    obtain ⟨inner, hinner⟩ := hvalues name value hname
    rw [← hinner.text_eq] at hexpanded
    have hknown : ActiveKnown tables (Text.lower name :: active) :=
      hactive.cons (by simp [hname])
    exact ((expands_of_within hvalues hknown hinner.valid hexpanded).residual hinner.valid).inert
      hactive hroom

theorem within_eq_pure_iff {active : List Text} (hactive : ActiveKnown tables active)
    {pieces : List Piece} (hvalid : ∀ piece ∈ pieces, piece.Valid) {out : Text} :
    within tables active (Piece.text pieces) = pure out ↔
      Gives (resolve tables active) pieces out := by
  rw [within_eq]
  exact replaceBoth_eq_pure_iff_gives hvalid fun _ _ => inert_of_resolve hvalues hactive

end

/-- The references of the pieces lead to an active name or to a name that leads back to itself. -/
def Strays (tables : List Table) (active : List Text) (pieces : List Piece) : Prop :=
  ∃ start a, Mentions pieces start ∧ (lookUp tables start).isSome ∧
    ReflTransGen (Refers tables) start a ∧
      (Text.lower a ∈ active ∨ ∃ b, TransGen (Refers tables) a b ∧ sameName a b)

lemma strays_nil_iff {pieces : List Piece} :
    Strays tables [] pieces ↔ ReachesCycle tables pieces := by
  constructor
  · rintro ⟨start, a, hstart, hknown, hpath, hactive | ⟨b, hcycle, hsame⟩⟩
    · simp at hactive
    · exact ⟨start, a, b, hstart, hknown, hpath, hcycle, hsame⟩
  · rintro ⟨start, a, b, hstart, hknown, hpath, hcycle, hsame⟩
    exact ⟨start, a, hstart, hknown, hpath, .inr ⟨b, hcycle, hsame⟩⟩

lemma Strays.cons {active : List Text} {piece : Piece} {rest : List Piece}
    (h : Strays tables active rest) : Strays tables active (piece :: rest) := by
  obtain ⟨start, a, hstart, h⟩ := h
  exact ⟨start, a, hstart.cons, h⟩

lemma Strays.of_active {active : List Text} {pieces : List Piece} {name value : Text}
    (hmentions : Mentions pieces name) (hname : lookUp tables name = some value)
    (hactive : Text.lower name ∈ active) : Strays tables active pieces :=
  ⟨name, name, hmentions, by simp [hname], .refl, .inl hactive⟩

/-- What goes astray in the value of a mentioned name goes astray from the mention. -/
lemma Strays.of_value {active : List Text} {pieces inner : List Piece} {name value : Text}
    (hmentions : Mentions pieces name) (hname : lookUp tables name = some value)
    (hvalue : Splits value inner) (h : Strays tables (Text.lower name :: active) inner) :
    Strays tables active pieces := by
  obtain ⟨start, a, hstart, hknown, hpath, hend⟩ := h
  have hrefers : Refers tables name start := ⟨value, inner, hname, hvalue, hstart, hknown⟩
  have hisSome : (lookUp tables name).isSome := by simp [hname]
  rcases hend with hactive | hcycle
  · rcases List.mem_cons.1 hactive with heq | hactive
    · refine ⟨name, name, hmentions, hisSome, .refl, .inr ⟨a, TransGen.head' hrefers hpath, ?_⟩⟩
      simp [sameName, heq]
    · exact ⟨name, a, hmentions, hisSome, .head hrefers hpath, .inl hactive⟩
  · exact ⟨name, a, hmentions, hisSome, .head hrefers hpath, .inr hcycle⟩

lemma Descends.cons {active : List Text} {depth : Nat} {piece : Piece} {rest : List Piece}
    (h : Descends tables active depth rest) : Descends tables active depth (piece :: rest) := by
  cases h with
  | here hmentions hidle => exact .here hmentions.cons hidle
  | there hmentions hidle hname hvalue hinner =>
    exact .there hmentions.cons hidle hname hvalue hinner

/-- What nests too deep in the value of a mentioned name nests too deep from the mention. -/
lemma Descends.of_value {active : List Text} {pieces inner : List Piece} {name value : Text}
    (hmentions : Mentions pieces name) (hidle : Text.lower name ∉ active)
    (hroom : active.length < nestingLimit) (hname : lookUp tables name = some value)
    (hvalue : Splits value inner)
    (h : Descends tables (Text.lower name :: active) (room (Text.lower name :: active)) inner) :
    Descends tables active (room active) pieces := by
  rw [room_eq_succ hroom (Text.lower name)]
  exact .there hmentions hidle hname hvalue h

/-- Where nothing goes astray or nests too deep, each mentioned name can become active. -/
lemma idle_of_mentions {active : List Text} (hactive : ActiveKnown tables active)
    {pieces : List Piece} (hstays : ¬Strays tables active pieces)
    (hshallow : ¬Descends tables active (room active) pieces) {name : Text}
    (hmentions : Mentions pieces name) :
    Text.lower name ∉ active ∧ active.length < nestingLimit := by
  have hidle : Text.lower name ∉ active := by
    intro hmem
    obtain ⟨value, hname⟩ := Option.isSome_iff_exists.1 (hactive name hmem)
    exact hstays (.of_active hmentions hname hmem)
  refine ⟨hidle, ?_⟩
  by_contra hfull
  have hroom : room active = 0 := Nat.sub_eq_zero_of_le (Nat.not_lt.1 hfull)
  rw [hroom] at hshallow
  exact hshallow (.here hmentions hidle)

/-- What an error of an expansion tells about the references of the text. -/
def Explains (tables : List Table) (active : List Text) (pieces : List Piece) :
    ExpansionError → Prop
  | .cycle _ => Strays tables active pieces
  | .tooDeep => Descends tables active (room active) pieces

section

variable (hvalues : ∀ name value, lookUp tables name = some value → WellFormed value)
include hvalues

theorem exists_within_of_not_strays {active : List Text} (hactive : ActiveKnown tables active)
    {pieces : List Piece} (hvalid : ∀ piece ∈ pieces, piece.Valid)
    (hstays : ¬Strays tables active pieces)
    (hshallow : ¬Descends tables active (room active) pieces) :
    ∃ out, within tables active (Piece.text pieces) = pure out := by
  induction hroom : room active using Nat.strongRecOn generalizing active pieces with
  | _ n ih =>
    subst hroom
    have hresolve : ∀ name, Mentions pieces name →
        ∃ found, resolve tables active name = pure found := by
      intro name hmentions
      obtain ⟨hidle, hroom⟩ := idle_of_mentions hactive hstays hshallow hmentions
      cases hname : lookUp tables name with
      | none => exact ⟨none, resolve_of_none hidle hroom hname⟩
      | some value =>
        obtain ⟨inner, hinner⟩ := hvalues name value hname
        have hstays : ¬Strays tables (Text.lower name :: active) inner :=
          fun hstrays => hstays (.of_value hmentions hname hinner hstrays)
        have hshallow : ¬Descends tables (Text.lower name :: active)
            (room (Text.lower name :: active)) inner :=
          fun hdeep => hshallow (.of_value hmentions hidle hroom hname hinner hdeep)
        have hless : room (Text.lower name :: active) < room active := by
          rw [room_eq_succ hroom (Text.lower name)]
          exact Nat.lt_succ_self _
        obtain ⟨expanded, hexpanded⟩ := ih _ hless (hactive.cons (by simp [hname])) hinner.valid
          hstays hshallow rfl
        rw [hinner.text_eq] at hexpanded
        exact ⟨some expanded, resolve_of_some hidle hroom hname hexpanded⟩
    simp only [within_eq_pure_iff hvalues hactive hvalid]
    exact exists_gives hresolve

/-- A recursive substitution that does not go astray or nest too deep is what the expansion
gives. -/
theorem within_of_expands {active : List Text} (hactive : ActiveKnown tables active)
    {pieces : List Piece} (hvalid : ∀ piece ∈ pieces, piece.Valid)
    (hstays : ¬Strays tables active pieces)
    (hshallow : ¬Descends tables active (room active) pieces) {out : Text}
    (h : Expands tables pieces out) : within tables active (Piece.text pieces) = pure out := by
  induction h generalizing active with
  | nil => exact (within_eq_pure_iff hvalues hactive hvalid).2 .nil
  | plain t _ ih =>
    have hrest := (List.forall_mem_cons.1 hvalid).2
    have ih := ih hactive hrest (fun hstrays => hstays hstrays.cons) fun hdeep =>
      hshallow hdeep.cons
    rw [within_eq_pure_iff hvalues hactive hvalid]
    exact .plain t ((within_eq_pure_iff hvalues hactive hrest).1 ih)
  | @unknown form name rest out hname _ ih =>
    have hrest := (List.forall_mem_cons.1 hvalid).2
    have ih := ih hactive hrest (fun hstrays => hstays hstrays.cons) fun hdeep =>
      hshallow hdeep.cons
    obtain ⟨hidle, hroom⟩ := idle_of_mentions hactive hstays hshallow (.head form name rest)
    have hresolve := resolve_of_none hidle hroom hname
    rw [within_eq_pure_iff hvalues hactive hvalid]
    exact .reference form hresolve ((within_eq_pure_iff hvalues hactive hrest).1 ih)
  | @known form name value expanded inner rest out hname hvalue _ _ ihinner ihrest =>
    have hrest := (List.forall_mem_cons.1 hvalid).2
    have hmentions := Mentions.head form name rest
    obtain ⟨hidle, hroom⟩ := idle_of_mentions hactive hstays hshallow hmentions
    have ihrest := ihrest hactive hrest (fun hstrays => hstays hstrays.cons) fun hdeep =>
      hshallow hdeep.cons
    have ihinner := ihinner (hactive.cons (by simp [hname])) hvalue.valid
      (fun hstrays => hstays (.of_value hmentions hname hvalue hstrays))
      fun hdeep => hshallow (.of_value hmentions hidle hroom hname hvalue hdeep)
    rw [hvalue.text_eq] at ihinner
    have hresolve := resolve_of_some hidle hroom hname ihinner
    rw [within_eq_pure_iff hvalues hactive hvalid]
    exact .reference form hresolve ((within_eq_pure_iff hvalues hactive hrest).1 ihrest)

/-- An expansion fails with the error of a name that the text mentions, and that name is active,
comes up too deep, or has a value that fails with the same error. -/
theorem explains_of_within {active : List Text} (hactive : ActiveKnown tables active)
    {pieces : List Piece} (hvalid : ∀ piece ∈ pieces, piece.Valid) {error : ExpansionError}
    (h : within tables active (Piece.text pieces) = throw error) :
    Explains tables active pieces error := by
  induction hroom : room active using Nat.strongRecOn generalizing active pieces with
  | _ n ih =>
    subst hroom
    rw [within_eq] at h
    obtain ⟨name, hmentions, hname⟩ := exists_mentions_of_replaceBoth_eq_throw hvalid
      (fun _ _ => inert_of_resolve hvalues hactive) h
    obtain ⟨hmem, rfl⟩ | ⟨hidle, ⟨hfull, rfl⟩ | ⟨value, hroom, hvalue, hexpanded⟩⟩ :=
      of_resolve_eq_throw hname
    · obtain ⟨value, hvalue⟩ := Option.isSome_iff_exists.1 (hactive name hmem)
      exact Strays.of_active hmentions hvalue hmem
    · rw [Explains, show room active = 0 from Nat.sub_eq_zero_of_le hfull]
      exact .here hmentions hidle
    · obtain ⟨inner, hinner⟩ := hvalues name value hvalue
      have hless : room (Text.lower name :: active) < room active := by
        rw [room_eq_succ hroom (Text.lower name)]
        exact Nat.lt_succ_self _
      rw [← hinner.text_eq] at hexpanded
      have hexplains := ih _ hless (hactive.cons (by simp [hvalue])) hinner.valid hexpanded rfl
      cases error with
      | cycle _ => exact Strays.of_value hmentions hvalue hinner hexplains
      | tooDeep => exact Descends.of_value hmentions hidle hroom hvalue hinner hexplains

/-- A text that nests too deep has no expansion. -/
theorem not_descends_of_within {active : List Text} (hactive : ActiveKnown tables active)
    {pieces : List Piece} (hvalid : ∀ piece ∈ pieces, piece.Valid) {out : Text}
    (h : within tables active (Piece.text pieces) = pure out) :
    ¬Descends tables active (room active) pieces := by
  intro hdeep
  generalize hdepth : room active = depth at hdeep
  induction hdeep generalizing out with
  | here hmentions hidle =>
    obtain ⟨found, hfound⟩ :=
      ((within_eq_pure_iff hvalues hactive hvalid).1 h).exists_of_mentions hmentions
    obtain ⟨-, hroom, -⟩ := of_resolve_eq_pure hfound
    rw [room] at hdepth
    omega
  | @there active pieces inner name value depth hmentions hidle hname hvalue _ ih =>
    obtain ⟨found, hfound⟩ :=
      ((within_eq_pure_iff hvalues hactive hvalid).1 h).exists_of_mentions hmentions
    obtain ⟨-, hroom, ⟨hnone, -⟩ | ⟨value', expanded, hvalue', hexpanded, -⟩⟩ :=
      of_resolve_eq_pure hfound
    · simp [hname] at hnone
    · obtain rfl : value = value' := by simpa [hname] using hvalue'
      rw [← hvalue.text_eq] at hexpanded
      have hdepth' : room (Text.lower name :: active) = depth := by
        rw [room_eq_succ hroom (Text.lower name)] at hdepth
        exact Nat.succ.inj hdepth
      exact ih (hactive.cons (by simp [hname])) hvalue.valid hexpanded hdepth'

/-- The name resolves within active names that all have values. -/
def Resolves (tables : List Table) (active : List Text) (name : Text) : Prop :=
  ActiveKnown tables active ∧ ∃ found, resolve tables active name = pure found

/-- The names that the value of a name refers to resolve while that name is active. -/
lemma Resolves.of_refers {active : List Text} {a b : Text} (h : Resolves tables active a)
    (hrefers : Refers tables a b) : Resolves tables (Text.lower a :: active) b := by
  obtain ⟨hactive, found, hfound⟩ := h
  obtain ⟨value, pieces, ha, hsplits, hmentions, -⟩ := hrefers
  have hknown : ActiveKnown tables (Text.lower a :: active) := hactive.cons (by simp [ha])
  refine ⟨hknown, ?_⟩
  obtain ⟨-, -, ⟨hnone, -⟩ | ⟨value', expanded, hvalue', hexpanded, -⟩⟩ :=
    of_resolve_eq_pure hfound
  · simp [ha] at hnone
  · obtain rfl : value = value' := by simpa [ha] using hvalue'
    rw [← hsplits.text_eq, within_eq_pure_iff hvalues hknown hsplits.valid] at hexpanded
    exact hexpanded.exists_of_mentions hmentions

/-- Along a path of references the names resolve one within the other. -/
lemma Resolves.of_path {active : List Text} {a b : Text} (h : Resolves tables active a)
    (hpath : TransGen (Refers tables) a b) :
    ∃ active', Text.lower a ∈ active' ∧ Resolves tables active' b := by
  induction hpath with
  | single hrefers => exact ⟨_, List.mem_cons_self, h.of_refers hvalues hrefers⟩
  | tail _ hrefers ih =>
    obtain ⟨active', hmem, hresolves⟩ := ih
    exact ⟨_, List.mem_cons_of_mem _ hmem, hresolves.of_refers hvalues hrefers⟩

lemma not_reachesCycle_of_within {pieces : List Piece} (hvalid : ∀ piece ∈ pieces, piece.Valid)
    {out : Text} (h : within tables [] (Piece.text pieces) = pure out) :
    ¬ReachesCycle tables pieces := by
  rintro ⟨start, a, b, hstart, -, hpath, hcycle, hsame⟩
  rw [within_eq_pure_iff hvalues .nil hvalid] at h
  have hresolves : Resolves tables [] start := ⟨.nil, h.exists_of_mentions hstart⟩
  obtain ⟨active, hresolves⟩ : ∃ active, Resolves tables active a := by
    rcases reflTransGen_iff_eq_or_transGen.1 hpath with rfl | hpath
    · exact ⟨[], hresolves⟩
    · obtain ⟨active, -, hresolves⟩ := hresolves.of_path hvalues hpath
      exact ⟨active, hresolves⟩
  obtain ⟨active', hmem, -, found, hfound⟩ := hresolves.of_path hvalues hcycle
  obtain ⟨hidle, -⟩ := of_resolve_eq_pure hfound
  have heq : Text.lower a = Text.lower b := by simpa [sameName] using hsame
  exact hidle (heq ▸ hmem)

end

/-- The expansion of a well formed text with the values of tables, which are well formed too, is
its recursive substitution unless a cycle can be reached or the references are nested too deeply.
It fails exactly then, and its error tells which of the two is so. -/
theorem expand_eq_substitution (tables : List Table)
    (hvalues : ∀ name value, lookUp tables name = some value → WellFormed value)
    (t : Text) (pieces : List Piece) (ht : Splits t pieces) :
    (¬NestsTooDeep tables pieces →
      (¬ReachesCycle tables pieces →
        ∃ out, expand (m := Id) (.chain (tables.map .ofTable)) t = Except.ok out ∧
          ∀ other, Expands tables pieces other ↔ other = out) ∧
      ((∃ name, expand (m := Id) (.chain (tables.map .ofTable)) t =
        Except.error (.cycle name)) ↔ ReachesCycle tables pieces)) ∧
    ((∃ error, expand (m := Id) (.chain (tables.map .ofTable)) t = Except.error error) ↔
      ReachesCycle tables pieces ∨ NestsTooDeep tables pieces) ∧
    (∀ name, expand (m := Id) (.chain (tables.map .ofTable)) t = Except.error (.cycle name) →
      ReachesCycle tables pieces) ∧
    (expand (m := Id) (.chain (tables.map .ofTable)) t = Except.error .tooDeep →
      NestsTooDeep tables pieces) := by
  obtain ⟨hvalid, rfl⟩ := ht
  have hcycle : ∀ name, within tables [] (Piece.text pieces) = throw (.cycle name) →
      ReachesCycle tables pieces := fun _ herror =>
    strays_nil_iff.1 (explains_of_within hvalues .nil hvalid herror)
  have hdeep : within tables [] (Piece.text pieces) = throw .tooDeep →
      NestsTooDeep tables pieces := fun herror => explains_of_within hvalues .nil hvalid herror
  have hfails : ReachesCycle tables pieces ∨ NestsTooDeep tables pieces →
      ∃ error, within tables [] (Piece.text pieces) = throw error := by
    intro hfailing
    obtain ⟨out, hout⟩ | herror := ok_or_throw (within tables [] (Piece.text pieces))
    · rcases hfailing with hreaches | hnests
      · exact absurd hreaches (not_reachesCycle_of_within hvalues hvalid hout)
      · exact absurd hnests (not_descends_of_within hvalues .nil hvalid hout)
    · exact herror
  refine ⟨fun hshallow => ⟨fun hacyclic => ?_, ?_, fun hreaches => ?_⟩, ⟨?_, hfails⟩, hcycle, hdeep⟩
  · rw [← strays_nil_iff] at hacyclic
    obtain ⟨out, hout⟩ := exists_within_of_not_strays hvalues .nil hvalid hacyclic hshallow
    refine ⟨out, hout, fun other => ⟨fun hother => ?_, ?_⟩⟩
    · exact pure_inj ((within_of_expands hvalues .nil hvalid hacyclic hshallow hother).symm.trans
        hout)
    · rintro rfl
      exact expands_of_within hvalues .nil hvalid hout
  · rintro ⟨name, herror⟩
    exact hcycle name herror
  · obtain ⟨name | _, herror⟩ := hfails (.inl hreaches)
    · exact ⟨name, herror⟩
    · exact absurd (hdeep herror) hshallow
  · rintro ⟨name | _, herror⟩
    · exact .inl (hcycle name herror)
    · exact .inr (hdeep herror)

/-- Names that refer to each other in both forms, two of them in a circle. -/
def greetings : Table :=
  .ofPairs ([("greet", "hi %NAME%"), ("name", "Bob $(title)"), ("loop", "a $(Pool)"),
    ("pool", "%loop%")].map fun pair => (pair.1.toList, pair.2.toList))

lemma wellFormed_of_lookUp_greetings (name value : Text)
    (h : lookUp [greetings] name = some value) : WellFormed value := by
  rw [lookUp_singleton] at h
  obtain ⟨entry, hentry, rfl⟩ := Option.map_eq_some_iff.1 h
  have hmem := List.mem_of_find?_eq_some hentry
  have hentries : greetings.entries = [("greet", "hi %NAME%"), ("name", "Bob $(title)"),
      ("loop", "a $(Pool)"), ("pool", "%loop%")].map
        (fun pair => (pair.1.toList, pair.2.toList)) := by decide
  simp only [hentries, List.map_cons, List.map_nil, List.mem_cons, List.not_mem_nil,
    or_false] at hmem
  rcases hmem with rfl | rfl | rfl | rfl
  · exact ⟨[.plain "hi ".toList, .reference .percent "NAME".toList], by decide, by decide⟩
  · exact ⟨[.plain "Bob ".toList, .reference .dollar "title".toList], by decide, by decide⟩
  · exact ⟨[.plain "a ".toList, .reference .dollar "Pool".toList], by decide, by decide⟩
  · exact ⟨[.reference .percent "loop".toList], by decide, by decide⟩

/-- A text without a cycle next to one with a cycle. -/
theorem expand_greetings_eq_substitution :
    (∀ other, Expands [greetings]
      [.reference .percent "Greet".toList, .plain ", ".toList, .reference .dollar "you".toList]
        other ↔ other = "hi Bob $(title), $(you)".toList) ∧
    ReachesCycle [greetings] [.reference .percent "LOOP".toList] := by
  have hgreet : expand (m := Id) (.chain ([greetings].map .ofTable))
      "%Greet%, $(you)".toList = Except.ok "hi Bob $(title), $(you)".toList := by cbv
  have hloop : expand (m := Id) (.chain ([greetings].map .ofTable))
      "%LOOP%".toList = Except.error (.cycle "loop".toList) := by cbv
  obtain ⟨hok, hfails, -, -⟩ := expand_eq_substitution [greetings] wellFormed_of_lookUp_greetings
    "%Greet%, $(you)".toList [.reference .percent "Greet".toList, .plain ", ".toList,
      .reference .dollar "you".toList] ⟨by decide, by decide⟩
  have hends : ¬∃ error, expand (m := Id) (.chain ([greetings].map .ofTable))
      "%Greet%, $(you)".toList = Except.error error := by
    rw [hgreet]
    rintro ⟨error, ⟨⟩⟩
  obtain ⟨hacyclic, hshallow⟩ := not_or.1 (mt hfails.2 hends)
  obtain ⟨out, hout, hunique⟩ := (hok hshallow).1 hacyclic
  obtain rfl : "hi Bob $(title), $(you)".toList = out := pure_inj (hgreet.symm.trans hout)
  obtain ⟨-, -, hcycle, -⟩ := expand_eq_substitution [greetings] wellFormed_of_lookUp_greetings
    "%LOOP%".toList [.reference .percent "LOOP".toList] ⟨by decide, by decide⟩
  exact ⟨hunique, hcycle _ hloop⟩

/-- The names of a relay refer to the next number only. -/
lemma Refers.exists_of_relay {last : Nat} {a b : Text} (h : Refers [relay last] a b) :
    ∃ number, Text.lower a = Text.ofNat number ∧ b = Text.ofNat (number + 1) := by
  obtain ⟨value, pieces, ha, hsplits, hmentions, -⟩ := h
  rw [lookUp_singleton] at ha
  obtain ⟨number, -, hname, rfl⟩ := exists_of_get?_relay ha
  have hvalue := splits_relayed last number
  obtain ⟨form, hmem⟩ := mentions_of_text_eq hsplits.valid hvalue.valid
    (hsplits.text_eq.trans hvalue.text_eq.symm) hmentions
  refine ⟨number, hname, ?_⟩
  rw [relayedPieces] at hmem
  split at hmem <;> simp at hmem
  exact hmem.2

/-- The numbers of a relay lead to greater ones. -/
lemma exists_lt_of_transGen_relay {last : Nat} {a b : Text}
    (h : TransGen (Refers [relay last]) a b) :
    ∃ number greater, number < greater ∧ Text.lower a = Text.ofNat number ∧
      b = Text.ofNat greater := by
  induction h with
  | single hrefers =>
    obtain ⟨number, ha, hb⟩ := hrefers.exists_of_relay
    exact ⟨number, number + 1, Nat.lt_succ_self number, ha, hb⟩
  | tail _ hrefers ih =>
    obtain ⟨number, greater, hless, ha, rfl⟩ := ih
    obtain ⟨between, hbetween, rfl⟩ := hrefers.exists_of_relay
    obtain rfl : greater = between :=
      Text.ofNat_injective ((Text.lower_ofNat greater).symm.trans hbetween)
    exact ⟨number, greater + 1, Nat.lt_succ_of_lt hless, ha, rfl⟩

lemma not_reachesCycle_relay (last : Nat) (pieces : List Piece) :
    ¬ReachesCycle [relay last] pieces := by
  rintro ⟨_, a, b, -, -, -, hcycle, hsame⟩
  obtain ⟨number, greater, hless, ha, rfl⟩ := exists_lt_of_transGen_relay hcycle
  have heq : Text.lower a = Text.lower (Text.ofNat greater) := by simpa [sameName] using hsame
  rw [ha, Text.lower_ofNat] at heq
  exact Nat.ne_of_lt hless (Text.ofNat_injective heq)

lemma wellFormed_of_lookUp_relay {last : Nat} {name value : Text}
    (h : lookUp [relay last] name = some value) : WellFormed value := by
  rw [lookUp_singleton] at h
  obtain ⟨number, -, -, rfl⟩ := exists_of_get?_relay h
  exact ⟨_, splits_relayed last number⟩

/-- What a relay has for a number is replaced by the last value. The induction is on the numbers up
to the last one. -/
lemma expands_relayedPieces {last number : Nat} (h : number ≤ last) :
    Expands [relay last] (relayedPieces last number) ['x'] := by
  induction hrest : last - number generalizing number with
  | zero =>
    rw [relayedPieces, if_neg (by omega)]
    exact .plain ['x'] .nil
  | succ rest ih =>
    rw [relayedPieces, if_pos (by omega)]
    have hname : lookUp [relay last] (Text.ofNat (number + 1)) =
        some (relayed last (number + 1)) := by
      rw [lookUp_singleton, get?_relay (by omega)]
    exact .known .percent hname (splits_relayed last _) (ih (by omega) (by omega)) .nil

/-- No cycle is reached from the first of four hundred numbers, and its recursive substitution is
the last value; but there is no expansion. -/
theorem expand_relay_tooDeep :
    (∀ name value, lookUp [relay 400] name = some value → WellFormed value) ∧
      Splits "%0%".toList [.reference .percent "0".toList] ∧
      ¬ReachesCycle [relay 400] [.reference .percent "0".toList] ∧
      Expands [relay 400] [.reference .percent "0".toList] "x".toList ∧
      expand (m := Id) (.chain ([relay 400].map .ofTable)) "%0%".toList =
        Except.error .tooDeep := by
  have hname : lookUp [relay 400] "0".toList = some (relayed 400 0) := by
    rw [lookUp_singleton]
    exact get?_relay (Nat.zero_le 400)
  refine ⟨fun _ _ => wellFormed_of_lookUp_relay, ⟨by decide, by decide⟩,
    not_reachesCycle_relay 400 _, ?_, ?_⟩
  · have hvalue := expands_relayedPieces (Nat.zero_le 400)
    exact .known .percent hname (splits_relayed 400 0) hvalue .nil
  · exact expand_of_relays ((Source.relays_relay (by decide)).chain_cons [])

end Keyfile
