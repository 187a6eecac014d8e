import Keyfile.Proofs.Piece
import Keyfile.Proofs.Results
import Mathlib.Data.List.Infix
import Mathlib.Order.Bounds.Basic

/-!
# Where references stand

A scan in one form takes the references of a text from left to right: each one runs from the first
opener behind the reference before it to the next closer. It gives the text with every reference
replaced, and with everything between two references copied in order. A name without a value is
replaced by the reference as it stood there, so an expansion asks for the names of a text in turn,
and until one of them has a value nothing has changed.
-/

namespace Keyfile

namespace Text

/-- The places from `start` on where the mark stands in the text. -/
def placesFrom (mark t : Text) (start : Nat) : Set Nat :=
  {place | start ≤ place ∧ mark <+: t.drop place}

variable {mark t before after : Text} {start place : Nat}

lemma includes_iff : includes mark t = true ↔ mark <:+: t := by
  constructor
  · intro h
    obtain ⟨⟨before, after⟩, hcut⟩ := Option.isSome_iff_exists.1 h
    exact ⟨before, after, (eq_of_cutFirst hcut).symm⟩
  · intro h
    unfold includes
    induction t with
    | nil => simp [cutFirst, List.eq_nil_of_infix_nil h]
    | cons c t ih =>
      unfold cutFirst
      split
      · rfl
      · rename_i hstart
        rw [Option.isSome_map]
        apply ih
        rcases List.infix_cons_iff.1 h with hprefix | hinfix
        · exact absurd (List.isPrefixOf_iff_prefix.2 hprefix) hstart
        · exact hinfix

/-- A text is cut at the first of the places of the mark. -/
lemma length_le_of_cutFirst (h : cutFirst mark t = some (before, after))
    (hplace : mark <+: t.drop place) : before.length ≤ place := by
  induction t generalizing before after place with
  | nil =>
    have hlength := length_of_cutFirst h
    have heq := congrArg List.length (eq_of_cutFirst h)
    simp only [List.length_append, List.length_nil] at hlength heq
    omega
  | cons c t ih =>
    rw [cutFirst] at h
    split at h
    · obtain ⟨rfl, -⟩ : [] = before ∧ _ = after := by simpa using h
      exact Nat.zero_le place
    · rename_i hstart
      obtain ⟨⟨before', after'⟩, hcut, heq⟩ := Option.map_eq_some_iff.1 h
      obtain ⟨rfl, -⟩ : c :: before' = before ∧ after' = after := by simpa using heq
      cases place with
      | zero => exact absurd (List.isPrefixOf_iff_prefix.2 hplace) hstart
      | succ place => exact Nat.succ_le_succ (ih hcut hplace)

lemma prefix_of_mem_placesFrom (h : place ∈ placesFrom mark t start) :
    mark <+: (t.drop start).drop (place - start) := by
  rw [List.drop_drop, Nat.add_sub_cancel' h.1]
  exact h.2

lemma isLeast_of_cutFirst (h : cutFirst mark (t.drop start) = some (before, after)) :
    IsLeast (placesFrom mark t start) (start + before.length) := by
  constructor
  · refine ⟨Nat.le_add_right _ _, ?_⟩
    rw [← List.drop_drop, eq_of_cutFirst h, List.append_assoc, List.drop_left]
    exact List.prefix_append _ _
  · intro place hplace
    have hlength := length_le_of_cutFirst h (prefix_of_mem_placesFrom hplace)
    have hstart := hplace.1
    omega

lemma placesFrom_eq_empty (h : cutFirst mark (t.drop start) = none) :
    placesFrom mark t start = ∅ := by
  rw [Set.eq_empty_iff_forall_notMem]
  intro place hplace
  have hinfix := (prefix_of_mem_placesFrom hplace).isInfix.trans (List.drop_suffix _ _).isInfix
  have hincludes := includes_iff.2 hinfix
  simp [includes, h] at hincludes

lemma placesFrom_anti {later : Nat} (h : start ≤ later) :
    placesFrom mark t later ⊆ placesFrom mark t start :=
  fun _ hplace => ⟨h.trans hplace.1, hplace.2⟩

lemma drop_of_cutFirst (h : cutFirst mark (t.drop start) = some (before, after)) :
    t.drop (start + before.length + mark.length) = after := by
  rw [Nat.add_assoc, ← List.drop_drop, eq_of_cutFirst h, ← List.length_append, List.drop_left]

lemma extract_append {middle stop : Nat} (hstart : start ≤ middle) (hstop : middle ≤ stop) :
    t.extract start middle ++ t.extract middle stop = t.extract start stop := by
  simp only [List.extract_eq_take_drop]
  obtain ⟨n, rfl⟩ := Nat.exists_eq_add_of_le hstart
  obtain ⟨k, rfl⟩ := Nat.exists_eq_add_of_le hstop
  rw [Nat.add_sub_cancel_left, Nat.add_sub_cancel_left, Nat.add_assoc, Nat.add_sub_cancel_left,
    List.take_add, List.drop_drop]

lemma extract_of_prefix (h : mark <+: t.drop start) :
    t.extract start (start + mark.length) = mark := by
  rw [List.extract_eq_take_drop, Nat.add_sub_cancel_left]
  exact (List.prefix_iff_eq_take.1 h).symm

lemma add_length_le (hmark : mark ≠ []) (h : mark <+: t.drop place) :
    place + mark.length ≤ t.length := by
  have hlength := h.length_le
  have hpos := List.length_pos_iff.2 hmark
  rw [List.length_drop] at hlength
  omega

lemma extract_append_drop (h : start ≤ place) :
    t.extract start place ++ t.drop place = t.drop start := by
  rw [List.extract_eq_take_drop]
  obtain ⟨n, rfl⟩ := Nat.exists_eq_add_of_le h
  rw [Nat.add_sub_cancel_left, ← List.drop_drop, List.take_append_drop]

end Text

/-- A part of a text, from its first place up to the place behind its last character. -/
structure Span where
  start : Nat
  stop : Nat
  deriving DecidableEq, Repr

/-- The text from a place on, with new texts in the places of the spans and everything between the
spans as it is. -/
def Text.fill (t : Text) : Nat → List (Span × Text) → Text
  | place, [] => t.drop place
  | place, (span, new) :: rest => t.extract place span.start ++ new ++ t.fill span.stop rest

namespace Form

variable {form : Form} {t : Text} {place : Nat}

/-- The spans are the references of the text from a place on: each one runs from the first opener
behind the one before it to the next closer, and no opener behind the last one is ever closed. -/
inductive References (form : Form) (t : Text) : Nat → List Span → Prop
  | last {place : Nat}
      (hunclosed : ∀ start ∈ Text.placesFrom form.opener t place,
        Text.placesFrom form.closer t (start + form.opener.length) = ∅) :
      References form t place []
  | next {place start stop : Nat} {spans : List Span}
      (hopener : IsLeast (Text.placesFrom form.opener t place) start)
      (hcloser : IsLeast (Text.placesFrom form.closer t (start + form.opener.length)) stop)
      (hspans : References form t (stop + form.closer.length) spans) :
      References form t place (⟨start, stop + form.closer.length⟩ :: spans)

/-- The name in the reference at a span. -/
def nameAt (form : Form) (t : Text) (span : Span) : Text :=
  t.extract (span.start + form.opener.length) (span.stop - form.closer.length)

/-- The spans of the references among segments that begin at a place. -/
def spansFrom (form : Form) : Nat → List Segment → List Span
  | _, [] => []
  | place, .plain u :: rest => form.spansFrom (place + u.length) rest
  | place, .reference name :: rest =>
    ⟨place, place + (form.written name).length⟩ ::
      form.spansFrom (place + (form.written name).length) rest

/-- The spans of the references that a scan of the text comes to. -/
def spans (form : Form) (t : Text) : List Span :=
  form.spansFrom 0 (form.segments t)

/-- The names that a scan of the text asks for, in their order. -/
def names (form : Form) (t : Text) : List Text :=
  ((form.spans t).map (form.nameAt t)).filter (· ≠ [])

lemma closer_ne_nil (form : Form) : form.closer ≠ [] := by
  cases form <;> decide

lemma References.unique {spans others : List Span} (h : form.References t place spans)
    (h' : form.References t place others) : others = spans := by
  induction h generalizing others with
  | last hunclosed =>
    cases h' with
    | last => rfl
    | next hopener hcloser _ =>
      have hempty := hunclosed _ hopener.1
      exact absurd hcloser.1 (hempty ▸ Set.notMem_empty _)
  | next hopener hcloser _ ih =>
    cases h' with
    | last hunclosed =>
      have hempty := hunclosed _ hopener.1
      exact absurd hcloser.1 (hempty ▸ Set.notMem_empty _)
    | next hopener' hcloser' hspans' =>
      obtain rfl := hopener'.unique hopener
      obtain rfl := hcloser'.unique hcloser
      rw [ih hspans']

/-- What stands at a span is a reference, with its opener and its closer. -/
lemma extract_eq_written {start stop : Nat}
    (hopener : start ∈ Text.placesFrom form.opener t place)
    (hcloser : stop ∈ Text.placesFrom form.closer t (start + form.opener.length)) :
    t.extract start (stop + form.closer.length) =
      form.written (form.nameAt t ⟨start, stop + form.closer.length⟩) :=
  calc
    t.extract start (stop + form.closer.length)
      = t.extract start (start + form.opener.length) ++
          t.extract (start + form.opener.length) stop ++
          t.extract stop (stop + form.closer.length) := by
        rw [Text.extract_append (Nat.le_add_right _ _) hcloser.1,
          Text.extract_append ((Nat.le_add_right _ _).trans hcloser.1) (Nat.le_add_right _ _)]
    _ = form.opener ++ t.extract (start + form.opener.length) stop ++ form.closer := by
        rw [Text.extract_of_prefix hopener.2, Text.extract_of_prefix hcloser.2]
    _ = form.written (form.nameAt t ⟨start, stop + form.closer.length⟩) := by
        rw [written, nameAt, Nat.add_sub_cancel]

namespace References

variable {spans : List Span}

lemma written (h : form.References t place spans) :
    ∀ span ∈ spans, t.extract span.start span.stop = form.written (form.nameAt t span) := by
  induction h with
  | last => simp
  | next hopener hcloser _ ih =>
    exact List.forall_mem_cons.2 ⟨extract_eq_written hopener.1 hcloser.1, ih⟩

/-- Each reference takes the room of its opener and its closer at least. -/
lemma length_le (h : form.References t place spans) (hplace : place ≤ t.length) :
    place + (form.opener.length + form.closer.length) * spans.length ≤ t.length := by
  induction h with
  | last => simpa using hplace
  | @next place start stop spans hopener hcloser _ ih =>
    have hroom := Text.add_length_le form.closer_ne_nil hcloser.1.2
    have ih := ih hroom
    have hstart := hopener.1.1
    have hstop := hcloser.1.1
    rw [List.length_cons, Nat.mul_succ]
    omega

/-- Putting back what stood at the spans gives the text. -/
lemma fill_written (h : form.References t place spans) :
    t.fill place (spans.map fun span => (span, form.written (form.nameAt t span))) =
      t.drop place := by
  induction h with
  | last => rfl
  | @next place start stop spans hopener hcloser _ ih =>
    have hstop : start ≤ stop + form.closer.length :=
      ((Nat.le_add_right _ _).trans hcloser.1.1).trans (Nat.le_add_right _ _)
    rw [List.map_cons, Text.fill, ih, ← extract_eq_written hopener.1 hcloser.1,
      Text.extract_append hopener.1.1 hstop, Text.extract_append_drop (hopener.1.1.trans hstop)]

end References

section Cut

variable {before rest name after : Text}

lemma length_written (form : Form) (name : Text) :
    (form.written name).length = form.opener.length + name.length + form.closer.length := by
  rw [written, List.length_append, List.length_append]

variable (hopener : Text.cutFirst form.opener (t.drop place) = some (before, rest))
  (hcloser : Text.cutFirst form.closer rest = some (name, after))
include hopener

lemma extract_of_cut : t.extract place (place + before.length) = before := by
  apply Text.extract_of_prefix
  rw [Text.eq_of_cutFirst hopener, List.append_assoc]
  exact List.prefix_append _ _

include hcloser

lemma drop_of_cut :
    t.drop (place + before.length + (form.written name).length) = after := by
  have hrest := Text.drop_of_cutFirst hopener
  rw [← hrest] at hcloser
  rw [length_written, ← Text.drop_of_cutFirst hcloser]
  congr 1
  omega

lemma nameAt_of_cut :
    form.nameAt t ⟨place + before.length, place + before.length + (form.written name).length⟩ =
      name := by
  have hstop : place + before.length + (form.written name).length - form.closer.length =
      place + before.length + form.opener.length + name.length := by
    rw [length_written]
    omega
  rw [nameAt, hstop]
  apply Text.extract_of_prefix
  rw [Text.drop_of_cutFirst hopener, Text.eq_of_cutFirst hcloser, List.append_assoc]
  exact List.prefix_append _ _

end Cut

/-- A scan that begins at a place comes to the references from there on. -/
lemma references_spansFrom {u : Text} (h : t.drop place = u) :
    form.References t place (form.spansFrom place (form.segments u)) := by
  fun_induction segments form u generalizing place with
  | case1 u hopener =>
    subst h
    refine .last fun start hstart => ?_
    rw [Text.placesFrom_eq_empty hopener] at hstart
    cases hstart
  | case2 u before rest hopener hcloser =>
    subst h
    refine .last fun start hstart => ?_
    rw [← Text.drop_of_cutFirst hopener] at hcloser
    -- What closes a later opener would close the first one as well.
    have hfirst := (Text.isLeast_of_cutFirst hopener).2 hstart
    have hlater := Nat.add_le_add_right hfirst form.opener.length
    exact Set.subset_eq_empty (Text.placesFrom_anti hlater) (Text.placesFrom_eq_empty hcloser)
  | case3 u before rest hopener name after hcloser ih =>
    subst h
    have hspans := ih (drop_of_cut hopener hcloser)
    have hstop : place + before.length + (form.written name).length =
        place + before.length + form.opener.length + name.length + form.closer.length := by
      rw [length_written]
      omega
    have hleast := Text.isLeast_of_cutFirst hopener
    rw [← Text.drop_of_cutFirst hopener] at hcloser
    change form.References t place (⟨_, _⟩ :: _)
    rw [hstop] at hspans ⊢
    exact .next hleast (Text.isLeast_of_cutFirst hcloser) hspans

/-- The references of a text are the spans that a scan comes to, and no others. -/
theorem references_iff {spans : List Span} :
    form.References t 0 spans ↔ spans = form.spans t := by
  have hscan : form.References t 0 (form.spans t) := references_spansFrom rfl
  constructor
  · intro h
    exact hscan.unique h
  · rintro rfl
    exact hscan

section Replace

variable {m : Type → Type} [Monad m] [LawfulMonad m]

/-- What a scan puts in the place of a span. -/
def replaceAt (form : Form) (value : Text → m (Option Text)) (t : Text) (span : Span) :
    m (Span × Text) := do
  return (span, ← form.substitute value (.reference (form.nameAt t span)))

variable (value : Text → m (Option Text))

lemma replace_of_no_opener {u : Text} (h : Text.cutFirst form.opener u = none) :
    form.replace value u = pure u := by
  simp [replace, segments_of_no_opener h, substitute]

lemma replace_of_no_closer {u before rest : Text}
    (hopener : Text.cutFirst form.opener u = some (before, rest))
    (hcloser : Text.cutFirst form.closer rest = none) : form.replace value u = pure u := by
  simp [replace, segments_of_no_closer hopener hcloser, substitute]

lemma replace_of_cut {u before rest name after : Text}
    (hopener : Text.cutFirst form.opener u = some (before, rest))
    (hcloser : Text.cutFirst form.closer rest = some (name, after)) :
    form.replace value u = do
      let new ← form.substitute value (.reference name)
      return before ++ new ++ (← form.replace value after) := by
  simp [replace, segments_of_cut hopener hcloser, List.mapM_cons, substitute]

/-- A scan from a place on gives the text from there on with its spans replaced. -/
lemma replace_eq_fill {u : Text} (h : t.drop place = u) :
    form.replace value u = do
      return t.fill place
        (← (form.spansFrom place (form.segments u)).mapM (form.replaceAt value t)) := by
  fun_induction segments form u generalizing place with
  | case1 u hopener =>
    rw [replace_of_no_opener value hopener, ← h]
    simp [spansFrom, Text.fill]
  | case2 u before rest hopener hcloser =>
    rw [replace_of_no_closer value hopener hcloser, ← h]
    simp [spansFrom, Text.fill]
  | case3 u before rest hopener name after hcloser ih =>
    subst h
    rw [replace_of_cut value hopener hcloser, ih (drop_of_cut hopener hcloser)]
    simp [spansFrom, Text.fill, List.mapM_cons, replaceAt, nameAt_of_cut hopener hcloser,
      extract_of_cut hopener]

end Replace

end Form

variable {m : Type → Type} [Monad m]

namespace Source

/-- What an expansion learns of a name: a source is asked for the names only that it lists. -/
def answer (source : Source m) (name : Text) : m (Option Text) :=
  if source.names.contains (Text.lower name) then source.ask name else pure none

/-- The first answer to one of the names, with the number of names before it. Names are asked for in
turn, and those behind the first one with an answer are not asked for. -/
def firstAnswer (source : Source m) : List Text → m (Option (Nat × Text))
  | [] => return none
  | name :: rest => do
    match ← source.answer name with
    | some raw => return some (0, raw)
    | none => return (← source.firstAnswer rest).map fun found => (found.1 + 1, found.2)

/-- A computation that begins by asking for the names in turn, and that gives `a` if none of them
has an answer. -/
def Probes {α : Type} (source : Source m) (names : List Text) (x : m α) (a : α) : Prop :=
  ∃ onAnswer : Nat × Text → m α, x = do
    match ← source.firstAnswer names with
    | none => return a
    | some found => onAnswer found

variable [LawfulMonad m] {source : Source m} {names others : List Text} {α β ε : Type}

lemma probes_nil_iff {x : m α} {a : α} : source.Probes [] x a ↔ x = pure a := by
  constructor
  · rintro ⟨onAnswer, rfl⟩
    simp [firstAnswer]
  · rintro rfl
    exact ⟨fun _ => pure a, by simp [firstAnswer]⟩

/-- The first name is asked for first, and without an answer to it the others follow. -/
lemma firstAnswer_cons_bind (name : Text) (a : α) (onAnswer : Nat × Text → m α) :
    (do
      match ← source.firstAnswer (name :: names) with
      | none => return a
      | some found => onAnswer found) = (do
      match ← source.answer name with
      | none => do
        match ← source.firstAnswer names with
        | none => return a
        | some found => onAnswer (found.1 + 1, found.2)
      | some raw => onAnswer (0, raw)) := by
  rw [firstAnswer, bind_assoc]
  apply bind_congr
  intro found
  cases found with
  | some raw => rw [pure_bind]
  | none =>
    dsimp only
    rw [bind_assoc]
    apply bind_congr
    intro found
    cases found <;> rw [pure_bind] <;> rfl

lemma probes_cons_iff {name : Text} {x : m α} {a : α} :
    source.Probes (name :: names) x a ↔
      ∃ (rest : m α) (onAnswer : Text → m α), source.Probes names rest a ∧ x = (do
        match ← source.answer name with
        | none => rest
        | some raw => onAnswer raw) := by
  constructor
  · rintro ⟨onAnswer, rfl⟩
    refine ⟨_, fun raw => onAnswer (0, raw), ?_, firstAnswer_cons_bind name a onAnswer⟩
    exact ⟨fun found => onAnswer (found.1 + 1, found.2), rfl⟩
  · rintro ⟨rest, onAnswer, ⟨onLater, rfl⟩, rfl⟩
    refine ⟨fun found => if found.1 = 0 then onAnswer found.2
      else onLater (found.1 - 1, found.2), ?_⟩
    rw [firstAnswer_cons_bind]
    rfl

lemma Probes.bind {x : m α} {f : α → m β} {a : α} {b : β} (hx : source.Probes names x a)
    (hf : source.Probes others (f a) b) : source.Probes (names ++ others) (x >>= f) b := by
  induction names generalizing x with
  | nil =>
    obtain rfl := probes_nil_iff.1 hx
    rwa [pure_bind]
  | cons name names ih =>
    obtain ⟨rest, onAnswer, hrest, rfl⟩ := probes_cons_iff.1 hx
    refine probes_cons_iff.2 ⟨rest >>= f, fun raw => onAnswer raw >>= f, ih hrest, ?_⟩
    rw [bind_assoc]
    apply bind_congr
    intro found
    cases found <;> rfl

/-- Where no name has an answer, the computation gives what it gives without one. -/
lemma Probes.always {x : m α} {a : α} (h : source.Probes names x a)
    (hnames : ∀ name ∈ names, Always (source.answer name) (· = none)) : Always x (· = a) := by
  induction names generalizing x with
  | nil =>
    obtain rfl := probes_nil_iff.1 h
    exact .of_pure rfl
  | cons name names ih =>
    obtain ⟨rest, onAnswer, hrest, rfl⟩ := probes_cons_iff.1 h
    obtain ⟨hname, hnames⟩ := List.forall_mem_cons.1 hnames
    apply hname.bind
    rintro _ rfl
    exact ih hrest hnames

lemma Probes.bind_run {x : ExceptT ε m α} {f : α → ExceptT ε m β} {a : α} {b : β}
    (hx : source.Probes names x.run (.ok a)) (hf : source.Probes others (f a).run (.ok b)) :
    source.Probes (names ++ others) (x >>= f).run (.ok b) := by
  rw [ExceptT.run_bind]
  exact hx.bind hf

lemma Probes.map_run {x : ExceptT ε m α} {a : α} (h : source.Probes names x.run (.ok a))
    (f : α → β) : source.Probes names (x >>= fun a => pure (f a)).run (.ok (f a)) := by
  rw [← List.append_nil names]
  exact h.bind_run (probes_nil_iff.2 rfl)

end Source

section Expansion

variable [LawfulMonad m] (source : Source m)

/-- What an expansion has for a name where no name is active. -/
def expandName (source : Source m) (name : Text) : ExceptT ExpansionError m (Option Text) := do
  match ← source.answer name with
  | none => return none
  | some raw => return some (← expandWithin source [Text.lower name] raw)

lemma expand_eq_replace (t : Text) :
    expand source t =
      Form.percent.replace (expandName source) t >>= Form.dollar.replace (expandName source) := by
  have hvalue : ∀ name, expandName source name =
      if _hactive : Text.lower name ∈ ([] : List Text) then throw (.cycle name)
      else if nestingLimit ≤ ([] : List Text).length then throw .tooDeep
      else if _hlisted : Text.lower name ∈ source.names then do
        match ← source.ask name with
        | none => return none
        | some raw => return some (← expandWithin source [Text.lower name] raw)
      else return none := by
    intro name
    have hroom : ¬nestingLimit ≤ ([] : List Text).length := by decide
    rw [dif_neg List.not_mem_nil, if_neg hroom, expandName, Source.answer]
    by_cases hlisted : Text.lower name ∈ source.names <;> simp [hlisted]
  rw [funext hvalue]
  exact expandWithin.eq_def source [] t

lemma probes_substitute (form : Form) {name : Text} (hname : name ≠ []) :
    source.Probes [name] (form.substitute (expandName source) (.reference name)).run
      (.ok (form.written name)) := by
  refine Source.probes_cons_iff.2 ⟨pure (.ok (form.written name)),
    fun raw => (expandWithin source [Text.lower name] raw).run, Source.probes_nil_iff.2 rfl, ?_⟩
  rw [Form.substitute, if_neg hname, expandName, bind_assoc]
  change (ExceptT.lift (source.answer name) >>= _).run = _
  rw [ExceptT.run_bind_lift]
  apply bind_congr
  intro found
  cases found <;> simp

lemma probes_replaceAt (form : Form) (t : Text) (spans : List Span) :
    source.Probes ((spans.map (form.nameAt t)).filter (· ≠ []))
      (spans.mapM (form.replaceAt (expandName source) t)).run
      (.ok (spans.map fun span => (span, form.written (form.nameAt t span)))) := by
  induction spans with
  | nil => exact Source.probes_nil_iff.2 rfl
  | cons span spans ih =>
    have hrest : ∀ part, source.Probes ((spans.map (form.nameAt t)).filter (· ≠ []))
        (spans.mapM (form.replaceAt (expandName source) t) >>= fun parts =>
          pure (part :: parts)).run
        (.ok (part :: spans.map fun span => (span, form.written (form.nameAt t span)))) :=
      fun part => ih.map_run (part :: ·)
    rw [List.mapM_cons, List.map_cons, List.map_cons, Form.replaceAt, bind_assoc]
    by_cases hname : form.nameAt t span = []
    · rw [List.filter_cons_of_neg (by simpa using hname), Form.substitute, if_pos hname, pure_bind,
        pure_bind]
      exact hrest _
    · rw [List.filter_cons_of_pos (by simpa using hname)]
      refine (probes_substitute source form hname).bind_run ?_
      rw [pure_bind]
      exact hrest _

/-- A scan asks for the names that it comes to in turn, and without an answer it gives the text. -/
lemma probes_replace (form : Form) (t : Text) :
    source.Probes (form.names t) (form.replace (expandName source) t).run (.ok t) := by
  have hfill := (Form.references_iff.2 rfl : form.References t 0 (form.spans t)).fill_written
  have hscan := (probes_replaceAt source form t (form.spans t)).map_run (t.fill 0)
  rw [hfill, List.drop_zero] at hscan
  rw [Form.replace_eq_fill (expandName source) (List.drop_zero (l := t))]
  exact hscan

lemma probes_expand (t : Text) :
    source.Probes (Form.percent.names t ++ Form.dollar.names t) (expand source t).run (.ok t) := by
  rw [expand_eq_replace]
  exact (probes_replace source .percent t).bind_run (probes_replace source .dollar t)

variable {source} {t : Text}

lemma hasReferences_iff : hasReferences t = true ↔ '%' ∈ t ∨ "$(".toList <:+: t := by
  rw [hasReferences, Bool.or_eq_true, Form.occursIn, Form.occursIn, Text.includes_iff,
    Text.includes_iff, Form.opener, List.singleton_infix_iff]
  rfl

/-- A text has no references if it has no percent sign and no dollar sign in front of a
parenthesis. -/
lemma hasReferences_eq_false (hpercent : '%' ∉ t) (hdollar : ¬"$(".toList <:+: t) :
    hasReferences t = false := by
  rw [← Bool.not_eq_true, hasReferences_iff]
  exact not_or.2 ⟨hpercent, hdollar⟩

lemma Form.replace_of_not_occursIn {form : Form} (value : Text → m (Option Text))
    (h : form.occursIn t = false) : form.replace value t = pure t := by
  apply replace_of_no_opener
  simpa [occursIn, Text.includes] using h

lemma expand_of_not_hasReferences (source : Source m) (h : hasReferences t = false) :
    expand source t = pure t := by
  obtain ⟨hpercent, hdollar⟩ := Bool.or_eq_false_iff.1 h
  rw [expand, expandWithin]
  simp only [Form.replace_of_not_occursIn _ hpercent, pure_bind,
    Form.replace_of_not_occursIn _ hdollar]

end Expansion

/-- A scan ends with the references of the text, which are those at its spans. Whatever gives the
values, the outcome is the text with what stands at the spans replaced and all else in its place. An
expansion asks in turn for the names that its two scans come to, and if none of them has an answer
it gives the text, as it does without any question where the text has no opener. -/
theorem kept_outside_references [LawfulMonad m] (source : Source m) (t : Text) :
    (∀ form : Form,
      (∀ spans, form.References t 0 spans ↔ spans = form.spans t) ∧
      (form.opener.length + form.closer.length) * (form.spans t).length ≤ t.length ∧
      (∀ span ∈ form.spans t,
        t.extract span.start span.stop = form.written (form.nameAt t span)) ∧
      ∀ value : Text → m (Option Text),
        form.replace value t = do
          return t.fill 0 (← (form.spans t).mapM (form.replaceAt value t))) ∧
    source.Probes (Form.percent.names t ++ Form.dollar.names t) (expand source t).run (.ok t) ∧
    ((∀ name ∈ Form.percent.names t ++ Form.dollar.names t,
        Always (source.answer name) (· = none)) →
      Always (expand source t).run (· = .ok t)) ∧
    (hasReferences t = true ↔ '%' ∈ t ∨ "$(".toList <:+: t) ∧
    (hasReferences t = false → expand source t = pure t) := by
  have hprobes := probes_expand source t
  refine ⟨fun form => ?_, hprobes, hprobes.always, hasReferences_iff,
    expand_of_not_hasReferences source⟩
  have hscan : form.References t 0 (form.spans t) := Form.references_iff.2 rfl
  refine ⟨fun _ => Form.references_iff, ?_, hscan.written, fun value => ?_⟩
  · simpa using hscan.length_le (Nat.zero_le _)
  · exact Form.replace_eq_fill value List.drop_zero

/-- A source that has an answer to its third question and to all later ones. -/
def lateSource : Source (StateM Nat) where
  names := ["a".toList, "b".toList]
  ask _ asked := (if asked < 2 then none else some "late".toList, asked + 1)

/-- A source that knows another name only, whose value needs itself. -/
def otherSource : Source Session :=
  .ofTable (.ofPairs [("c".toList, "%C%".toList)])

def tangledText : Text :=
  "$(%A%$()%%$(b)$(%".toList

/-- Both scans of the text end at an opener that is not closed, and the names that they come to are
asked for once. -/
theorem kept_outside_references_tangledText :
    Form.percent.References tangledText 0 [⟨2, 5⟩, ⟨8, 10⟩] ∧
    Form.dollar.References tangledText 0 [⟨0, 8⟩, ⟨10, 14⟩] ∧
    (expand lateSource tangledText).run.run 0 = (.ok tangledText, 2) ∧
    Always (expand otherSource tangledText).run (· = .ok tangledText) ∧
    expand lateSource "9 $ (a)".toList = pure "9 $ (a)".toList := by
  have hnames : Form.percent.names tangledText ++ Form.dollar.names tangledText =
      ["A".toList, "%A%$(".toList, "b".toList] := by decide +kernel
  have hunknown : ∀ name ∈ ["A".toList, "%A%$(".toList, "b".toList],
      otherSource.names.contains (Text.lower name) = false := by decide +kernel
  obtain ⟨hscans, ⟨onAnswer, hexpand⟩, -⟩ := kept_outside_references lateSource tangledText
  obtain ⟨-, -, hkept, -⟩ := kept_outside_references otherSource tangledText
  obtain ⟨-, -, -, -, hplain⟩ := kept_outside_references lateSource "9 $ (a)".toList
  refine ⟨((hscans .percent).1 _).2 (by decide +kernel),
    ((hscans .dollar).1 _).2 (by decide +kernel), ?_, hkept ?_, hplain (by decide)⟩
  · rw [hexpand, hnames]
    rfl
  · rw [hnames]
    intro name hname
    rw [Source.answer, hunknown name hname]
    exact .of_pure rfl

end Keyfile
