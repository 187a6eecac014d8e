import Keyfile.Proofs.Outcomes
import Keyfile.Proofs.Piece

/-!
# Replacing in both forms

A text is scanned once for each form, and the second scan reads the values that the first one put
in. Where every such value is inert, which is to say that the second scan keeps it, the two scans
together replace the references of the text once each, or fail as the value of one of them does.
-/

namespace Keyfile

variable {ε : Type} {value : Text → ExceptT ε Id (Option Text)}

/-- The pieces with what the values make of them: a plain piece is kept, and so is a reference
without a value. -/
inductive Gives (value : Text → ExceptT ε Id (Option Text)) : List Piece → Text → Prop
  | nil : Gives value [] []
  | plain (t : Text) {rest : List Piece} {out : Text} (hrest : Gives value rest out) :
      Gives value (.plain t :: rest) (t ++ out)
  | reference (form : Form) {name : Text} {found : Option Text} {rest : List Piece} {out : Text}
      (hname : value name = pure found) (hrest : Gives value rest out) :
      Gives value (.reference form name :: rest) (found.getD (form.written name) ++ out)

/-- Some piece is a reference to the name. -/
def Mentions (pieces : List Piece) (name : Text) : Prop :=
  ∃ form, Piece.reference form name ∈ pieces

lemma Mentions.cons {piece : Piece} {rest : List Piece} {name : Text} (h : Mentions rest name) :
    Mentions (piece :: rest) name :=
  h.imp fun _ hmem => List.mem_cons_of_mem piece hmem

lemma Mentions.head (form : Form) (name : Text) (rest : List Piece) :
    Mentions (.reference form name :: rest) name :=
  ⟨form, List.mem_cons_self⟩

lemma Gives.exists_of_mentions {pieces : List Piece} {out : Text} (h : Gives value pieces out)
    {name : Text} (hname : Mentions pieces name) : ∃ found, value name = pure found := by
  obtain ⟨form, hmem⟩ := hname
  induction h with
  | nil => cases hmem
  | plain t _ ih => exact ih (by simpa using hmem)
  | reference form' hfound _ ih =>
    rcases List.mem_cons.1 hmem with heq | hmem
    · cases heq
      exact ⟨_, hfound⟩
    · exact ih hmem

lemma exists_gives {pieces : List Piece}
    (h : ∀ name, Mentions pieces name → ∃ found, value name = pure found) :
    ∃ out, Gives value pieces out := by
  induction pieces with
  | nil => exact ⟨[], .nil⟩
  | cons piece rest ih =>
    obtain ⟨out, hout⟩ := ih fun name hname => h name hname.cons
    cases piece with
    | plain t => exact ⟨_, .plain t hout⟩
    | reference form name =>
      obtain ⟨found, hfound⟩ := h name (.head form name rest)
      exact ⟨_, .reference form hfound hout⟩

/-- A text that the scan for the dollar form keeps, whatever stands behind it. -/
def Inert (value : Text → ExceptT ε Id (Option Text)) (t : Text) : Prop :=
  ∀ after, Form.dollar.replace value (t ++ after) = (t ++ ·) <$> Form.dollar.replace value after

lemma Form.substitute_reference (form : Form) {name : Text} (hname : name ≠ []) :
    form.substitute value (.reference name) =
      (fun found => found.getD (form.written name)) <$> value name := by
  rw [substitute, if_neg hname, map_eq_pure_bind]
  congr 1
  funext found
  cases found <;> rfl

lemma Form.replace_nil (form : Form) : form.replace value [] = pure [] := by
  have h : form.segments [] = [.plain []] := segments_of_no_opener (by cases form <;> rfl)
  simp [replace, h, substitute]

lemma replaceBoth_plain {t : Text} {rest : List Piece} (ht : (Piece.plain t).Valid) :
    replaceBoth value (Piece.text (.plain t :: rest)) =
      (t ++ ·) <$> replaceBoth value (Piece.text rest) := by
  have htext : Piece.text (.plain t :: rest) = t ++ Piece.text rest := rfl
  rw [replaceBoth, htext, Form.percent.replace_append value ht.1, bind_map_left, replaceBoth,
    map_bind]
  apply bind_congr
  intro once
  exact Form.dollar.replace_append value ht.2 once

/-- A reference in the percent form is replaced by the first scan; the second one keeps what the
first one put in. -/
lemma replaceBoth_percent {name : Text} {found : Option Text} {rest : List Piece}
    (hname : (Piece.reference .percent name).Valid)
    (hinert : ∀ name s, value name = pure (some s) → Inert value s)
    (hfound : value name = pure found) :
    replaceBoth value (Piece.text (.reference .percent name :: rest)) =
      (found.getD (Form.percent.written name) ++ ·) <$> replaceBoth value (Piece.text rest) := by
  have htext : Piece.text (.reference .percent name :: rest) =
      Form.percent.written name ++ Piece.text rest := rfl
  have hkeep : Inert value (found.getD (Form.percent.written name)) := by
    cases found with
    | none =>
      intro after
      refine Form.dollar.replace_append value ?_ after
      simpa [Form.written, Form.opener, Form.closer, Form.sign] using hname.2.2.1
    | some s => exact hinert name s hfound
  rw [replaceBoth, htext, Form.percent.replace_written_append value hname.2.1,
    Form.percent.substitute_reference hname.1, hfound, map_pure, pure_bind, bind_map_left,
    replaceBoth, map_bind]
  apply bind_congr
  intro once
  exact hkeep once

lemma replaceBoth_percent_of_throw {m : Type → Type} [Monad m] [LawfulMonad m]
    {value : Text → ExceptT ε m (Option Text)} {name : Text} {error : ε} {rest : List Piece}
    (hname : (Piece.reference .percent name).Valid) (herror : value name = throw error) :
    replaceBoth value (Piece.text (.reference .percent name :: rest)) = throw error := by
  have htext : Piece.text (.reference .percent name :: rest) =
      Form.percent.written name ++ Piece.text rest := rfl
  rw [replaceBoth, htext, Form.percent.replace_written_append value hname.2.1, Form.substitute,
    if_neg hname.1, herror]
  apply ExceptT.ext
  simp

/-- A reference in the dollar form is kept by the first scan and replaced by the second one. -/
lemma replaceBoth_dollar {name : Text} {rest : List Piece}
    (hname : (Piece.reference .dollar name).Valid) :
    replaceBoth value (Piece.text (.reference .dollar name :: rest)) = (do
      let once ← Form.percent.replace value (Piece.text rest)
      let found ← value name
      (found.getD (Form.dollar.written name) ++ ·) <$> Form.dollar.replace value once) := by
  have htext : Piece.text (.reference .dollar name :: rest) =
      Form.dollar.written name ++ Piece.text rest := rfl
  have hsign : Form.percent.sign ∉ Form.dollar.written name := by
    simpa [Form.written, Form.opener, Form.closer, Form.sign] using hname.2.1
  rw [replaceBoth, htext, Form.percent.replace_append value hsign, bind_map_left]
  apply bind_congr
  intro once
  rw [Form.dollar.replace_written_append value hname.2.2.2.2,
    Form.dollar.substitute_reference hname.1, bind_map_left]

/-- How replacing the references of pieces comes out: with what the values make of the pieces, or
with the error of a name that they mention. -/
inductive Replaces (value : Text → ExceptT ε Id (Option Text)) (pieces : List Piece) :
    ExceptT ε Id Text → Prop
  | gives {out : Text} (h : Gives value pieces out) : Replaces value pieces (pure out)
  | fails {name : Text} {error : ε} (hmentions : Mentions pieces name)
      (hname : value name = throw error) : Replaces value pieces (throw error)

lemma Replaces.plain {rest : List Piece} {outcome : ExceptT ε Id Text}
    (h : Replaces value rest outcome) (t : Text) :
    Replaces value (.plain t :: rest) ((t ++ ·) <$> outcome) := by
  cases h with
  | gives hrest =>
    rw [map_pure]
    exact .gives (.plain t hrest)
  | fails hmentions hname => exact .fails hmentions.cons hname

lemma Replaces.reference {rest : List Piece} {outcome : ExceptT ε Id Text}
    (h : Replaces value rest outcome) (form : Form) {name : Text} {found : Option Text}
    (hfound : value name = pure found) :
    Replaces value (.reference form name :: rest)
      ((found.getD (form.written name) ++ ·) <$> outcome) := by
  cases h with
  | gives hrest =>
    rw [map_pure]
    exact .gives (.reference form hfound hrest)
  | fails hmentions hname => exact .fails hmentions.cons hname

/-- The two scans replace each reference once when the values are inert. -/
theorem replaces_replaceBoth {pieces : List Piece} (hvalid : ∀ piece ∈ pieces, piece.Valid)
    (hinert : ∀ name s, value name = pure (some s) → Inert value s) :
    Replaces value pieces (replaceBoth value (Piece.text pieces)) := by
  induction pieces with
  | nil =>
    have htext : replaceBoth value (Piece.text []) = pure [] := by
      rw [replaceBoth, Piece.text, List.flatMap_nil, Form.replace_nil, pure_bind, Form.replace_nil]
    rw [htext]
    exact .gives .nil
  | cons piece rest ih =>
    obtain ⟨hpiece, hrest⟩ := List.forall_mem_cons.1 hvalid
    have ih := ih hrest
    match piece, hpiece with
    | .plain t, ht =>
      rw [replaceBoth_plain ht]
      exact ih.plain t
    | .reference .percent name, hname =>
      rcases ok_or_throw (value name) with ⟨found, hfound⟩ | ⟨error, herror⟩
      · rw [replaceBoth_percent hname hinert hfound]
        exact ih.reference .percent hfound
      · rw [replaceBoth_percent_of_throw hname herror]
        exact .fails (.head .percent name rest) herror
    | .reference .dollar name, hname =>
      rw [replaceBoth_dollar hname]
      rw [replaceBoth] at ih
      rcases ok_or_throw (Form.percent.replace value (Piece.text rest)) with
        ⟨once, honce⟩ | ⟨error, honce⟩
      · rw [honce, pure_bind] at ih
        rw [honce, pure_bind]
        rcases ok_or_throw (value name) with ⟨found, hfound⟩ | ⟨error, herror⟩
        · rw [hfound, pure_bind]
          exact ih.reference .dollar hfound
        · rw [herror]
          exact .fails (.head .dollar name rest) herror
      · rw [honce] at ih
        rw [honce]
        generalize hthrow : (throw error >>= Form.dollar.replace value) = outcome at ih
        cases ih with
        | gives _ => exact absurd hthrow throw_ne_pure
        | fails hmentions hother =>
          cases hthrow
          exact .fails hmentions.cons hother

lemma Gives.unique {pieces : List Piece} {out other : Text} (h : Gives value pieces out)
    (hother : Gives value pieces other) : out = other := by
  induction h generalizing other with
  | nil =>
    cases hother
    rfl
  | plain t _ ih =>
    cases hother with
    | plain _ hrest => rw [ih hrest]
  | reference form hname _ ih =>
    cases hother with
    | reference _ hname' hrest => rw [ih hrest, pure_inj (hname.symm.trans hname')]

theorem replaceBoth_eq_pure_iff_gives {pieces : List Piece} {out : Text}
    (hvalid : ∀ piece ∈ pieces, piece.Valid)
    (hinert : ∀ name s, value name = pure (some s) → Inert value s) :
    replaceBoth value (Piece.text pieces) = pure out ↔ Gives value pieces out := by
  generalize hboth : replaceBoth value (Piece.text pieces) = outcome
  cases hboth ▸ replaces_replaceBoth hvalid hinert with
  | gives h =>
    constructor
    · intro heq
      rwa [← pure_inj heq]
    · intro hout
      rw [h.unique hout]
  | fails hmentions hname =>
    refine iff_of_false throw_ne_pure fun h => ?_
    obtain ⟨found, hfound⟩ := h.exists_of_mentions hmentions
    exact throw_ne_pure (hname.symm.trans hfound)

theorem exists_mentions_of_replaceBoth_eq_throw {pieces : List Piece} {error : ε}
    (hvalid : ∀ piece ∈ pieces, piece.Valid)
    (hinert : ∀ name s, value name = pure (some s) → Inert value s)
    (h : replaceBoth value (Piece.text pieces) = throw error) :
    ∃ name, Mentions pieces name ∧ value name = throw error := by
  generalize hboth : replaceBoth value (Piece.text pieces) = outcome at h
  cases hboth ▸ replaces_replaceBoth hvalid hinert with
  | gives _ => exact absurd h.symm throw_ne_pure
  | fails hmentions hname =>
    cases h
    exact ⟨_, hmentions, hname⟩

/-- What a text mentions does not depend on how it is put together. -/
lemma mentions_of_text_eq {pieces others : List Piece} (hvalid : ∀ piece ∈ pieces, piece.Valid)
    (hothers : ∀ piece ∈ others, piece.Valid) (htext : Piece.text pieces = Piece.text others)
    {name : Text} (h : Mentions pieces name) : Mentions others name := by
  classical
  let value (name : Text) : ExceptT Unit Id (Option Text) :=
    if Mentions others name then pure none else throw ()
  have hkept : ∀ name, Mentions others name → value name = pure none := fun _ hname => if_pos hname
  have hinert : ∀ name s, value name = pure (some s) → Inert value s := by
    intro name s hname
    by_cases hmentions : Mentions others name
    · cases (hkept name hmentions).symm.trans hname
    · cases (if_neg hmentions).symm.trans hname
  obtain ⟨out, hout⟩ := exists_gives fun name hname => ⟨none, hkept name hname⟩
  rw [← replaceBoth_eq_pure_iff_gives hothers hinert, ← htext,
    replaceBoth_eq_pure_iff_gives hvalid hinert] at hout
  obtain ⟨found, hfound⟩ := hout.exists_of_mentions h
  by_contra hother
  cases (if_neg hother).symm.trans hfound

end Keyfile
