import Keyfile.Proofs.Concatenation
import Keyfile.Proofs.EntryOrder
import Keyfile.Proofs.LikeRuns

/-!
# Names without case

Writing the names of a source text in another case changes nothing that can be looked up. A line has
a part that is no name, which a variant keeps as it is; the lines of a value are kept whole.
-/

namespace Keyfile

/-- What a directive takes besides names. A switch takes the name of a value, or an expression with
references. -/
def fixedArgument (argument : Text) : Directive → Text
  | .define | .set | .undefine => ((Text.firstWord argument).map (·.2)).getD []
  | .ifBegin | .switchCase | .sectionBegin => []
  | .switchBegin => if hasReferences argument then argument else []
  | .ifElse | .ifEnd | .switchDefault | .switchEnd | .sectionEnd => argument

/-- What the rest of a directive line is besides names and the word of the directive. -/
def fixedAfterSign (afterSign : Text) : Text :=
  match Text.firstWord afterSign with
  | none => []
  | some (word, argument) =>
    match Directive.ofWord? (Text.lower word) with
    | some known => fixedArgument argument known
    | none => argument

/-- The part of a line that is neither a name nor the word of a directive. -/
def fixedPart (line : Text) : Text :=
  match Text.trim line with
  | '#' :: afterSign => fixedAfterSign afterSign
  | trimmed =>
    match Text.cutAt '=' trimmed with
    | some (_, value) => value
    | none => trimmed

/-- The lines differ in the case of letters, and only in their names. -/
def NameVariant (line line' : Text) : Prop :=
  Recased line line' ∧ fixedPart line = fixedPart line'

instance (line line' : Text) : Decidable (NameVariant line line') :=
  inferInstanceAs (Decidable (_ ∧ _))

/-- Lines that differ in their names, except for those that belong to a value; the flag tells
whether a value is open. -/
def NameVariants : Bool → List Text → List Text → Prop
  | _, [], [] => True
  | true, line :: rest, line' :: rest' =>
    line = line' ∧ NameVariants (!blockEnd.isPrefixOf (Text.trim line)) rest rest'
  | false, line :: rest, line' :: rest' =>
    NameVariant line line' ∧ NameVariants (opensValue line) rest rest'
  | _, [], _ :: _ | _, _ :: _, [] => False

instance decidableNameVariants :
    (isOpen : Bool) → (lines lines' : List Text) → Decidable (NameVariants isOpen lines lines')
  | true, [], [] | false, [], [] => isTrue trivial
  | true, line :: rest, _ :: rest' =>
    have := decidableNameVariants (!blockEnd.isPrefixOf (Text.trim line)) rest rest'
    inferInstanceAs (Decidable (_ ∧ _))
  | false, line :: rest, _ :: rest' =>
    have := decidableNameVariants (opensValue line) rest rest'
    inferInstanceAs (Decidable (_ ∧ _))
  | true, [], _ :: _ | false, [], _ :: _ | true, _ :: _, [] | false, _ :: _, [] => isFalse id

/-- The texts differ in nothing but the case of letters in their names. -/
def SameButNames (text text' : Text) : Prop :=
  NameVariants false (Text.lines text) (Text.lines text')

instance (text text' : Text) : Decidable (SameButNames text text') :=
  inferInstanceAs (Decidable (NameVariants _ _ _))

/-- Passes over variants of a text differ in how names are written. -/
def recasing : Likeness where
  letter := SameLetter
  refl _ := rfl
  recases _ _ h := h
  shift := 0
  marks := Eq
  marks_cons _ h := h ▸ rfl

/-- Variants are read alike. -/
inductive LinesLike : Statement.Line → Statement.Line → Prop
  | nothing : LinesLike .nothing .nothing
  | statement {statement statement' : Statement} (h : recasing.Statements statement statement') :
      LinesLike (.statement statement) (.statement statement')
  | opening {key key' : Text} (h : Recased key key') (first : Text) :
      LinesLike (.opening key first) (.opening key' first)

namespace Recased

variable {s t : Text}

lemma trim (h : Recased s t) : Recased (Text.trim s) (Text.trim t) :=
  forall₂_trim (fun _ _ hletter => hletter) h

lemma firstWord (h : Recased s t) :
    Option.Rel (fun found found' => Recased found.1 found'.1 ∧ Recased found.2 found'.2)
      (Text.firstWord s) (Text.firstWord t) := by
  have hblank : ∀ c d, SameLetter c d → Text.isBlank c = Text.isBlank d :=
    fun _ _ hletter => hletter.isBlank_eq
  have hsolid : ∀ c d, SameLetter c d → (!Text.isBlank c) = !Text.isBlank d :=
    fun c d hletter => congrArg (!·) (hblank c d hletter)
  have hstart : Recased (Text.trimStart s) (Text.trimStart t) := forall₂_dropWhile hblank h
  unfold Text.firstWord
  revert hstart
  generalize Text.trimStart s = start
  generalize Text.trimStart t = start'
  rintro (_ | ⟨hletter, hrest⟩)
  · exact .none
  · have hall := List.Forall₂.cons hletter hrest
    exact .some ⟨forall₂_takeWhile hsolid hall, trim (forall₂_dropWhile hsolid hall)⟩

lemma cutAt (mark : Char) (hmark : mark.isAlpha = false) (h : Recased s t) :
    Option.Rel (fun parts parts' => Recased parts.1 parts'.1 ∧ Recased parts.2 parts'.2)
      (Text.cutAt mark s) (Text.cutAt mark t) := by
  induction h with
  | nil => exact .none
  | @cons c d s t hletter htail ih =>
    unfold Text.cutAt
    simp only [hletter.eq_iff mark hmark]
    split
    · exact .some ⟨.nil, htail⟩
    · revert ih
      generalize Text.cutAt mark s = parts
      generalize Text.cutAt mark t = parts'
      intro ih
      cases ih with
      | none => exact .none
      | some h => exact .some ⟨.cons hletter h.1, h.2⟩

lemma isComment_eq (h : Recased s t) : isComment s = isComment t := by
  unfold isComment
  rw [h.isPrefixOf_eq (by decide), h.isPrefixOf_eq (by decide), h.isPrefixOf_eq (by decide)]

end Recased

/-- A directive takes alike arguments when it keeps what is no name. -/
lemma arguments_of_fixedArgument {known : Directive} {argument argument' : Text}
    (h : Recased argument argument')
    (hfixed : fixedArgument argument known = fixedArgument argument' known) :
    recasing.Arguments known argument argument' := by
  have hdefinition : ((Text.firstWord argument).map (·.2)).getD [] =
      ((Text.firstWord argument').map (·.2)).getD [] → recasing.Definitions argument argument' := by
    intro htext
    have hword := h.firstWord
    unfold Likeness.Definitions
    revert htext hword
    generalize Text.firstWord argument = found
    generalize Text.firstWord argument' = found'
    intro htext hword
    cases hword with
    | none => exact .none
    | some h => exact .some ⟨h.1, htext⟩
  cases known with
  | define | set | undefine => exact .definition (by simp) (hdefinition hfixed)
  | ifBegin | switchCase | sectionBegin => exact .name (by simp) h
  | switchBegin =>
    cases hreferences : hasReferences argument with
    | true =>
      have hreferences' : hasReferences argument' = true := h.hasReferences_eq ▸ hreferences
      simp only [fixedArgument, hreferences, hreferences', if_true] at hfixed
      exact hfixed ▸ .same _ argument
    | false => exact .expression h hreferences
  | ifElse | ifEnd | switchDefault | switchEnd | sectionEnd =>
    have hfixed : argument = argument' := hfixed
    exact hfixed ▸ .same _ argument

lemma statements_ofDirectiveLine {afterSign afterSign' : Text} (h : Recased afterSign afterSign')
    (hfixed : fixedAfterSign afterSign = fixedAfterSign afterSign') :
    recasing.Statements (Statement.ofDirectiveLine afterSign)
      (Statement.ofDirectiveLine afterSign') := by
  have hunknown : Recased ('#' :: afterSign) ('#' :: afterSign') := .cons rfl h
  have hword := h.firstWord
  unfold fixedAfterSign at hfixed
  unfold Statement.ofDirectiveLine
  revert hfixed hword
  generalize Text.firstWord afterSign = found
  generalize Text.firstWord afterSign' = found'
  intro hfixed hword
  cases hword with
  | none => exact .unknown hunknown
  | @some found found' hword =>
    obtain ⟨word, argument⟩ := found
    obtain ⟨word', argument'⟩ := found'
    have hlower : Text.lower word = Text.lower word' := hword.1.lower_eq
    dsimp only at hfixed ⊢
    rw [← hlower] at hfixed ⊢
    cases hknown : Directive.ofWord? (Text.lower word) with
    | none => exact .unknown hunknown
    | some known =>
      rw [hknown] at hfixed
      exact .directive (arguments_of_fixedArgument hword.2 hfixed)

lemma fixedPart_eq_of_ne {line : Text} {c : Char} {rest : Text} (htrim : Text.trim line = c :: rest)
    (hc : c ≠ '#') :
    fixedPart line = ((Text.cutAt '=' (c :: rest)).map (·.2)).getD (c :: rest) := by
  unfold fixedPart
  rw [htrim]
  split
  · rename_i heq
    exact absurd (List.cons.inj heq).1 hc
  · cases Text.cutAt '=' (c :: rest) <;> rfl

lemma ofText_eq_of_ne {c : Char} {rest : Text} (hc : c ≠ '#') :
    Statement.Line.ofText (c :: rest) =
      if isComment (c :: rest) then .nothing
      else
        match Text.cutAt '=' (c :: rest) with
        | none => .nothing
        | some (key, value) =>
          if blockStart.isPrefixOf (Text.trim value) then
            .opening (Text.trim key) (Text.trim ((Text.trim value).drop blockStart.length))
          else .statement (.entry (Text.trim key) (Text.trim value)) := by
  unfold Statement.Line.ofText
  simp only [reduceCtorEq, decide_false, Bool.false_or]
  split
  · rfl
  · split
    · rename_i heq
      exact absurd (List.cons.inj heq).1 hc
    · rfl

/-- A variant of a line says the same about a variant of the name. -/
theorem linesLike_of_nameVariant {line line' : Text} (h : NameVariant line line') :
    LinesLike (Statement.Line.ofText (Text.trim line))
      (Statement.Line.ofText (Text.trim line')) := by
  obtain ⟨hrecased, hfixed⟩ := h
  have htrimmed := hrecased.trim
  cases hline : Text.trim line with
  | nil =>
    rw [hline] at htrimmed
    rw [List.forall₂_nil_left_iff.1 htrimmed]
    exact .nothing
  | cons c rest =>
    rw [hline] at htrimmed
    obtain ⟨d, rest', hletter, hrest, hline'⟩ := List.forall₂_cons_left_iff.1 htrimmed
    have hall : Recased (c :: rest) (d :: rest') := .cons hletter hrest
    rw [hline']
    by_cases hd : d = '#'
    · obtain rfl := (hletter.eq_iff '#' rfl).2 hd
      subst hd
      simp only [fixedPart, hline, hline'] at hfixed
      have hreads : ∀ afterSign, Statement.Line.ofText ('#' :: afterSign) =
          .statement (Statement.ofDirectiveLine afterSign) := fun _ => rfl
      rw [hreads, hreads]
      exact .statement (statements_ofDirectiveLine hrest hfixed)
    · have hc : c ≠ '#' := fun heq => hd ((hletter.eq_iff '#' rfl).1 heq)
      rw [fixedPart_eq_of_ne hline hc, fixedPart_eq_of_ne hline' hd] at hfixed
      rw [ofText_eq_of_ne hc, ofText_eq_of_ne hd, hall.isComment_eq]
      have hcut := hall.cutAt '=' rfl
      revert hfixed hcut
      generalize Text.cutAt '=' (c :: rest) = parts
      generalize Text.cutAt '=' (d :: rest') = parts'
      intro hfixed hcut
      split
      · exact .nothing
      · cases hcut with
        | none => exact .nothing
        | @some parts parts' hcut =>
          obtain ⟨key, value⟩ := parts
          obtain ⟨key', value'⟩ := parts'
          obtain rfl : value = value' := hfixed
          have hkey : recasing.Name (Text.trim key) (Text.trim key') := hcut.1.trim
          dsimp only
          split
          · exact .opening hkey _
          · exact .statement (.entry hkey _)

/-- Values that are open alike. -/
def OpenLike : Option OpenValue → Option OpenValue → Prop :=
  Option.Rel fun value value' =>
    Recased value.key value'.key ∧ value.line = value'.line ∧ value.parts = value'.parts

lemma numbered_close {value value' : OpenValue} (hkey : recasing.Name value.key value'.key)
    (hline : value.line = value'.line) (hparts : value.parts = value'.parts) :
    recasing.Numbered value.close value'.close := by
  unfold OpenValue.close
  rw [hline, hparts]
  exact ⟨rfl, .entry hkey _⟩

/-- Variants of a text make variants of its statements. -/
lemma numbered_gather {lines lines' : List Text} {state state' : Option OpenValue}
    (hstate : OpenLike state state') (h : NameVariants state.isSome lines lines') (number : Nat) :
    List.Forall₂ recasing.Numbered (gather state number lines) (gather state' number lines') := by
  induction lines generalizing lines' state state' number with
  | nil =>
    cases lines' with
    | cons line' rest' => cases hstate <;> exact absurd h id
    | nil =>
      cases hstate with
      | none => exact .nil
      | some hvalue => exact .cons (numbered_close hvalue.1 hvalue.2.1 hvalue.2.2) .nil
  | cons line rest ih =>
    cases lines' with
    | nil => cases hstate <;> exact absurd h id
    | cons line' rest' =>
      cases hstate with
      | @some value value' hvalue =>
        -- lines of a value are the same on both sides, so the values grow and end together
        obtain ⟨rfl, hrest⟩ : line = line' ∧
          NameVariants (!blockEnd.isPrefixOf (Text.trim line)) rest rest' := h
        rw [gather, gather]
        cases hend : blockEnd.isPrefixOf (Text.trim line) with
        | true =>
          rw [hend] at hrest
          exact .cons (numbered_close hvalue.1 hvalue.2.1 hvalue.2.2) (ih .none hrest _)
        | false =>
          rw [hend] at hrest
          have hopen : OpenLike (some { value with parts := value.parts ++ [Text.trim line] })
              (some { value' with parts := value'.parts ++ [Text.trim line] }) :=
            .some ⟨hvalue.1, hvalue.2.1, congrArg (· ++ [Text.trim line]) hvalue.2.2⟩
          exact ih hopen hrest _
      | none =>
        obtain ⟨hline, hrest⟩ : NameVariant line line' ∧
          NameVariants (opensValue line) rest rest' := h
        have hlike := linesLike_of_nameVariant hline
        rw [gather, gather]
        unfold opensValue at hrest
        -- what a line says and whether it opens a value come from one reading
        revert hlike hrest
        generalize Statement.Line.ofText (Text.trim line) = read
        generalize Statement.Line.ofText (Text.trim line') = read'
        intro hrest hlike
        cases hlike with
        | nothing => exact ih .none hrest _
        | statement hstatement => exact .cons ⟨rfl, hstatement⟩ (ih .none hrest _)
        | @opening key key' hkey first =>
          have hopen : OpenLike (some (OpenValue.opened number key first))
              (some (OpenValue.opened number key' first)) := .some ⟨hkey, rfl, rfl⟩
          exact ih hopen hrest _

theorem SameButNames.numbered {text text' : Text} (h : SameButNames text text') :
    List.Forall₂ recasing.Numbered (statements text) (statements text') :=
  numbered_gather .none h 1

section Merging

variable {store store' : Store} (h : recasing.Stores store store')

include h

lemma entries_queued : List.Forall₂ recasing.Entry store.queued store'.queued := by
  have hpositions : ∀ {base base' : Text}, recasing.Name base base' → ∀ (values : List Text)
      (index : Nat), List.Forall₂ recasing.Entry (Store.positions base index values)
        (Store.positions base' index values) := by
    intro base base' hbase values
    induction values with
    | nil => exact fun _ => .nil
    | cons value rest ih =>
      exact fun index => .cons ⟨(hbase.append (.refl _)).append (.refl _), rfl⟩ (ih (index + 1))
  have hqueues := h.queues
  unfold Store.queued
  revert hqueues
  generalize store.queues = queues
  generalize store'.queues = queues'
  intro hqueues
  induction hqueues with
  | nil => exact .nil
  | cons hqueue _ ih =>
    rw [List.flatMap_cons, List.flatMap_cons, ← hqueue.2]
    exact List.rel_append (hpositions hqueue.1 _ 0) ih

lemma entries_admitted : List.Forall₂ recasing.Entry store.admitted store'.admitted := by
  have hexplicit : store.explicit = store'.explicit := h.explicit
  apply List.rel_filter _ (entries_queued h)
  intro entry entry' hentry
  simp only [Store.isExplicit, hexplicit, hentry.1.lower_eq]

/-- Alike stores are merged alike. -/
lemma tables_merge : recasing.Tables store.merge.items store'.merge.items := by
  have hadmitted := entries_admitted h
  have hitems := h.items
  unfold Store.merge Store.ofItems
  dsimp only
  revert hadmitted hitems
  generalize store.items = items
  generalize store'.items = items'
  generalize store.admitted = admitted
  generalize store'.admitted = admitted'
  intro hadmitted
  induction hadmitted generalizing items items' with
  | nil => exact fun hitems => hitems
  | cons hentry _ ih =>
    intro hitems
    rw [List.foldl_cons, List.foldl_cons, ← hentry.2]
    exact ih _ _ (hitems.insert hentry.1 _)

end Merging

/-- Every name has the same value on both sides, however it is written. -/
def SameValues (found found' : Store × Table) : Prop :=
  ∀ name name', Text.lower name = Text.lower name' →
    found.1.get? name = found'.1.get? name' ∧ found.2.get? name = found'.2.get? name'

/-- Errors of one class, named at the same line. -/
inductive SameFailure : LoadError → LoadError → Prop
  | format (cause cause' : FormatCause) (line : Option Nat) :
      SameFailure (.format cause line) (.format cause' line)
  | cycle (name name' : Text) :
      SameFailure (.expansion (.cycle name)) (.expansion (.cycle name'))
  | tooDeep : SameFailure (.expansion .tooDeep) (.expansion .tooDeep)

lemma sameFailure_of_errors {error error' : LoadError} (h : recasing.Errors error error') :
    SameFailure error error' := by
  cases h with
  | format h line => exact .format _ _ (some line)
  | expansion error =>
    cases error with
    | cycle name => exact .cycle name name
    | tooDeep => exact .tooDeep

lemma paired_finish {pass pass' : Pass} (h : recasing.Passes pass pass') :
    Paired SameValues SameFailure
      (pass.finished >>= fun finished => pure (finished.store, finished.macros))
      (pass'.finished >>= fun finished => pure (finished.store, finished.macros)) := by
  obtain ⟨blocks, scope, macros, store⟩ := pass
  obtain ⟨blocks', scope', macros', store'⟩ := pass'
  obtain ⟨hblocks, -, hmacros, hstore⟩ := h
  cases hblocks with
  | nil =>
    apply Paired.pure
    intro name name' hname
    exact ⟨(tables_merge hstore).get?_eq hname, hmacros.get?_eq hname⟩
  | cons hblock _ => cases hblock <;> exact .throw (.format _ _ _)

/-- A text in which names are written in another case is carried out alike. -/
theorem process_of_sameButNames {text text' : Text} (h : SameButNames text text')
    {external : Source Id} (hexternal : ∀ name name', Text.lower name = Text.lower name' →
      external.ask name = external.ask name') (macros : Table) (store : Store) :
    Paired SameValues SameFailure (process external text macros store)
      (process external text' macros store) := by
  have hasks : ∀ name name', recasing.Name name name' → external.ask name = external.ask name' :=
    fun name name' hname => hexternal name name' hname.lower_eq
  have hstart : recasing.Passes { macros, store } { macros, store } :=
    ⟨.nil, .none, .refl macros, .refl store.items,
      List.forall₂_same.2 fun queue _ => ⟨.refl _, rfl⟩, rfl⟩
  rw [process_eq_run, process_eq_run]
  apply ((Likeness.paired_run hasks h.numbered hstart).mono (fun _ _ h => h)
    fun _ _ => sameFailure_of_errors).bind
  exact fun pass pass' => paired_finish

/-- Every kind of line that takes a name, and a line of a value that looks like one. -/
def serverText : Text :=
  Text.join ['\n'] (["#define Mode fast", "#set Copy %mode%", "#if MODE", "#section Server", "Port[-] = 80",
    "port[0] = %MODE%", "#endsection", "#endif", "#switch Mode", "#case Fast", "Speed = 9", "#endswitch",
    "#undef Mode", "Motd = \x7b\x7b", "#IF Kept", "\x7d\x7d"].map String.toList)

def serverVariant : Text :=
  Text.join ['\n'] (["#DEFINE mode fast", "#Set COPY %mode%", "#If mode", "#SECTION server", "PORT[-] = 80",
    "Port[0] = %MODE%", "#EndSection", "#ENDIF", "#Switch MODE", "#Case FAST", "speed = 9", "#endSwitch",
    "#UnDef MODE", "motd = \x7b\x7b", "#IF Kept", "\x7d\x7d"].map String.toList)

/-- What the text leaves in an empty store. -/
def serverStore : Store :=
  .ofItems ⟨[("Server.port[0]".toList, "%MODE%".toList), ("Speed".toList, ['9']),
    ("Motd".toList, "#IF Kept".toList)]⟩

def serverMacros : Table :=
  ⟨[("Copy".toList, "fast".toList)]⟩

theorem process_of_sameButNames_server :
    SameButNames serverText serverVariant ∧
      process .silent serverText {} {} =
        (pure (serverStore, serverMacros) : ExceptT LoadError Id (Store × Table)) ∧
      ∃ found, process .silent serverVariant {} {} =
          (pure found : ExceptT LoadError Id (Store × Table)) ∧
        SameValues (serverStore, serverMacros) found := by
  have hvariant : SameButNames serverText serverVariant := by decide +kernel
  have hpaired : Paired SameValues SameFailure (process .silent serverText {} {})
      (process .silent serverVariant {} {}) :=
    process_of_sameButNames hvariant (fun _ _ _ => rfl) {} {}
  have hserver : process .silent serverText {} {} =
      (pure (serverStore, serverMacros) : ExceptT LoadError Id (Store × Table)) := by
    decide +kernel
  rw [hserver] at hpaired
  exact ⟨hvariant, hserver, hpaired.exists_eq_pure⟩

end Keyfile
