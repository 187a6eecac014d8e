import Keyfile.Proofs.Likeness

/-!
# Passes that run alike

A pass asks its tables only for names, so a step takes alike passes over alike statements to alike
passes, or stops both at the same line. What the steps keep, a run over alike texts keeps.
-/

namespace Keyfile

namespace Likeness

variable {l : Likeness}

namespace Rules

variable {α β : Type} {results : α → β → Prop} {x : Except FormatCause α} {y : Except FormatCause β}

lemma refuse (cause : FormatCause) : l.Rules results (.error cause) (.error cause) :=
  .error (.refl _)

lemma checked (h : l.Rules results x y) (line : Nat) :
    Paired results l.Errors (Pass.checked line x) (Pass.checked (line + l.shift) y) := by
  cases h with
  | ok h => exact .pure h
  | error h => exact .throw (.format h line)

end Rules

lemma Arguments.definitions {word : Directive} {argument argument' : Text}
    (h : l.Arguments word argument argument') (hword : word ∈ [.define, .set, .undefine]) :
    l.Definitions argument argument' := by
  cases h with
  | same word argument =>
    unfold Definitions
    cases Text.firstWord argument with
    | none => exact .none
    | some found => exact .some (.refl found)
  | definition _ h => exact h
  | name hother h => cases word <;> simp at hword hother
  | expression h hplain => simp at hword

lemma Arguments.names {word : Directive} {argument argument' : Text}
    (h : l.Arguments word argument argument')
    (hword : word ∈ [.ifBegin, .switchCase, .sectionBegin]) : l.Name argument argument' := by
  cases h with
  | same word argument => exact .refl argument
  | definition hother h => cases word <;> simp at hword hother
  | name _ h => exact h
  | expression h hplain => exact h

lemma rules_definition {argument argument' : Text} (h : l.Definitions argument argument')
    (word : Directive) :
    l.Rules l.Entry (Pass.definition word argument) (Pass.definition word argument') := by
  unfold Definitions at h
  unfold Pass.definition
  revert h
  generalize Text.firstWord argument = found
  generalize Text.firstWord argument' = found'
  intro h
  cases h with
  | none => exact .refuse _
  | @some found found' hentry =>
    obtain ⟨name, text⟩ := found
    obtain ⟨name', text'⟩ := found'
    have hreserved : Pass.isReserved name = Pass.isReserved name' := by
      rw [Pass.isReserved, Pass.isReserved, hentry.1.lower_eq]
    dsimp only
    rw [hreserved]
    split
    · exact .error (((Name.refl _).append hentry.1).append (.refl ['\'']))
    · exact .ok hentry

section PassRules

variable {pass pass' : Pass} (h : l.Passes pass pass')

include h

lemma rules_beginElse : l.Rules l.Passes pass.beginElse pass'.beginElse := by
  obtain ⟨blocks, scope, macros, store⟩ := pass
  obtain ⟨blocks', scope', macros', store'⟩ := pass'
  obtain ⟨hblocks, hscope, hmacros, hstore⟩ := h
  cases hblocks with
  | nil => exact .refuse _
  | cons hblock hrest =>
    cases hblock with
    | switchBlock block => exact .refuse _
    | sectionBlock => exact .refuse _
    | ifBlock block =>
      obtain ⟨outerEnabled, condition, line, inElse⟩ := block
      cases inElse with
      | true => exact .refuse _
      | false => exact .ok ⟨.cons (.ifBlock ⟨_, _, _, true⟩) hrest, hscope, hmacros, hstore⟩

lemma rules_endIf : l.Rules l.Passes pass.endIf pass'.endIf := by
  obtain ⟨blocks, scope, macros, store⟩ := pass
  obtain ⟨blocks', scope', macros', store'⟩ := pass'
  obtain ⟨hblocks, hscope, hmacros, hstore⟩ := h
  cases hblocks with
  | nil => exact .refuse _
  | cons hblock hrest =>
    cases hblock with
    | switchBlock block => exact .refuse _
    | sectionBlock => exact .refuse _
    | ifBlock block => exact .ok ⟨hrest, hscope, hmacros, hstore⟩

lemma rules_beginCase {label label' : Text} (hlabel : l.Name label label') :
    l.Rules l.Passes (pass.beginCase label) (pass'.beginCase label') := by
  obtain ⟨blocks, scope, macros, store⟩ := pass
  obtain ⟨blocks', scope', macros', store'⟩ := pass'
  obtain ⟨hblocks, hscope, hmacros, hstore⟩ := h
  cases hblocks with
  | nil => exact .refuse _
  | cons hblock hrest =>
    cases hblock with
    | ifBlock block => exact .refuse _
    | sectionBlock => exact .refuse _
    | switchBlock block =>
      obtain ⟨outerEnabled, value, line, matched, enabled, hasDefault⟩ := block
      cases hasDefault with
      | true => exact .refuse _
      | false =>
        have hhit : sameName label value = sameName label' value := by
          rw [sameName, sameName, hlabel.lower_eq]
        simp only [Pass.beginCase, hhit]
        exact .ok ⟨.cons (.switchBlock ⟨_, _, _, _, _, false⟩) hrest, hscope, hmacros, hstore⟩

lemma rules_beginDefault : l.Rules l.Passes pass.beginDefault pass'.beginDefault := by
  obtain ⟨blocks, scope, macros, store⟩ := pass
  obtain ⟨blocks', scope', macros', store'⟩ := pass'
  obtain ⟨hblocks, hscope, hmacros, hstore⟩ := h
  cases hblocks with
  | nil => exact .refuse _
  | cons hblock hrest =>
    cases hblock with
    | ifBlock block => exact .refuse _
    | sectionBlock => exact .refuse _
    | switchBlock block =>
      obtain ⟨outerEnabled, value, line, matched, enabled, hasDefault⟩ := block
      cases hasDefault with
      | true => exact .refuse _
      | false =>
        exact .ok ⟨.cons (.switchBlock ⟨_, _, _, _, _, true⟩) hrest, hscope, hmacros, hstore⟩

lemma rules_endSwitch : l.Rules l.Passes pass.endSwitch pass'.endSwitch := by
  obtain ⟨blocks, scope, macros, store⟩ := pass
  obtain ⟨blocks', scope', macros', store'⟩ := pass'
  obtain ⟨hblocks, hscope, hmacros, hstore⟩ := h
  cases hblocks with
  | nil => exact .refuse _
  | cons hblock hrest =>
    cases hblock with
    | ifBlock block => exact .refuse _
    | sectionBlock => exact .refuse _
    | switchBlock block => exact .ok ⟨hrest, hscope, hmacros, hstore⟩

lemma rules_beginSection {name name' : Text} (hname : l.Name name name') (line : Nat) :
    l.Rules l.Passes (pass.beginSection line name)
      (pass'.beginSection (line + l.shift) name') := by
  have hindexed : Text.includes Key.autoIndex name = Text.includes Key.autoIndex name' :=
    hname.recased.includes_eq (by decide)
  unfold Pass.beginSection
  simp only [hname.recased.eq_nil_iff, hindexed]
  split
  · exact .refuse _
  · split
    · exact .error ((Name.refl _).append hname)
    · refine .ok ⟨.cons ?_ h.blocks, Key.rel_join l.recases l.refl h.scope (.some hname), h.macros,
        h.store⟩
      rw [h.enabled_eq]
      exact .sectionBlock h.scope hname _ line

lemma rules_endSection : l.Rules l.Passes pass.endSection pass'.endSection := by
  obtain ⟨blocks, scope, macros, store⟩ := pass
  obtain ⟨blocks', scope', macros', store'⟩ := pass'
  obtain ⟨hblocks, hscope, hmacros, hstore⟩ := h
  cases hblocks with
  | nil => exact .refuse _
  | cons hblock hrest =>
    cases hblock with
    | ifBlock block => exact .refuse _
    | switchBlock block => exact .refuse _
    | sectionBlock houter => exact .ok ⟨hrest, houter, hmacros, hstore⟩

end PassRules

section Steps

variable {external : Source Id} {pass pass' : Pass} {argument argument' : Text}

lemma paired_define (h : l.Passes pass pass') {name name' : Text} (hname : l.Name name name')
    (text : Text) : Paired l.Passes l.Errors (pass.define name text) (pass'.define name' text) := by
  rw [Pass.define, Pass.define, record_eq_pure, record_eq_pure, pure_bind, pure_bind]
  exact .pure ⟨h.blocks, h.scope, h.macros.insert hname text, h.store⟩

lemma paired_undefine (h : l.Passes pass pass') {name name' : Text} (hname : l.Name name name') :
    Paired l.Passes l.Errors (pass.undefine name) (pass'.undefine name') := by
  have herased : l.Passes { pass with macros := pass.macros.erase name }
      { pass' with macros := pass'.macros.erase name' } :=
    ⟨h.blocks, h.scope, h.macros.erase hname.lower_eq, h.store⟩
  unfold Pass.undefine
  rw [h.macros.contains_eq hname.lower_eq]
  split
  · exact .pure herased
  · exact .pure herased

/-- Whether a condition is turned around, and the name that it asks for. -/
def conditionParts (argument : Text) : Bool × Text :=
  match argument with
  | '!' :: rest => (true, Text.trim rest)
  | _ => (false, argument)

lemma conditionParts_of_ne {c : Char} (hc : c ≠ '!') (rest : Text) :
    conditionParts (c :: rest) = (false, c :: rest) := by
  unfold conditionParts
  split
  · rename_i heq
    exact absurd (List.cons.inj heq).1 hc
  · rfl

lemma conditionParts_alike (h : l.Name argument argument') :
    (conditionParts argument).1 = (conditionParts argument').1 ∧
      l.Name (conditionParts argument).2 (conditionParts argument').2 := by
  cases h with
  | nil => exact ⟨rfl, .nil⟩
  | @cons c d rest rest' hletter hrest =>
    -- a sign has no other case, so both arguments begin with it or neither does
    have hsign := (l.recases c d hletter).eq_iff '!' rfl
    by_cases hd : d = '!'
    · obtain rfl := hsign.2 hd
      subst hd
      exact ⟨rfl, forall₂_trim l.recases hrest⟩
    · rw [conditionParts_of_ne hd, conditionParts_of_ne fun heq => hd (hsign.1 heq)]
      exact ⟨rfl, .cons hletter hrest⟩

/-- Whether a name holds for the condition of a conditional. -/
def nameHolds (external : Source Id) (pass : Pass) (name : Text) : Bool :=
  if Text.lower name = "true".toList then true
  else if Text.lower name = "false".toList then false
  else pass.macros.contains name || (external.ask name).isSome

lemma condition_eq (external : Source Id) (pass : Pass) (line : Nat) (argument : Text) :
    pass.condition external line argument =
      if (conditionParts argument).2 = [] then throw (.at_ line .conditionMissing)
      else pure (nameHolds external pass (conditionParts argument).2 !=
        (conditionParts argument).1) := by
  unfold Pass.condition
  split
  rename_i negated name hparts
  have hparts : conditionParts argument = (negated, name) := hparts
  rw [hparts]
  dsimp only
  unfold nameHolds
  by_cases hempty : name = []
  · rw [if_pos hempty, if_pos hempty]
    rfl
  rw [if_neg hempty, if_neg hempty]
  by_cases htrue : Text.lower name = "true".toList
  · rw [if_pos htrue, if_pos htrue, pure_bind]
  rw [if_neg htrue, if_neg htrue]
  by_cases hfalse : Text.lower name = "false".toList
  · rw [if_pos hfalse, if_pos hfalse, pure_bind]
  rw [if_neg hfalse, if_neg hfalse]
  cases pass.macros.contains name with
  | true => rfl
  | false => rfl

variable (hasks : ∀ name name', l.Name name name' → external.ask name = external.ask name')
  (h : l.Passes pass pass')

include h

lemma paired_expand (t : Text) :
    Paired Eq l.Errors (pass.expand external t) (pass'.expand external t) := by
  rw [← h.expand_eq, Pass.expand]
  cases expand (pass.source external) t with
  | ok value => exact .pure rfl
  | error error => exact .throw (.expansion error)

include hasks

/-- A condition sees no more of a name than its lower case. -/
lemma paired_condition (hargument : l.Name argument argument') (line : Nat) :
    Paired Eq l.Errors (pass.condition external line argument)
      (pass'.condition external (line + l.shift) argument') := by
  obtain ⟨hnegated, hname⟩ := conditionParts_alike hargument
  have hholds : nameHolds external pass (conditionParts argument).2 =
      nameHolds external pass' (conditionParts argument').2 := by
    unfold nameHolds
    rw [hname.lower_eq, h.macros.contains_eq hname.lower_eq, hasks _ _ hname]
  rw [condition_eq, condition_eq, hholds, hnegated]
  simp only [hname.recased.eq_nil_iff]
  split
  · exact .throw (.format (.refl _) line)
  · exact .pure rfl

lemma paired_beginIf (hargument : l.Name argument argument') (line : Nat) :
    Paired l.Passes l.Errors (pass.beginIf external line argument)
      (pass'.beginIf external (line + l.shift) argument') := by
  have hopened : ∀ condition, l.Passes
      (pass.push (.ifBlock { outerEnabled := pass.enabled, condition, line }))
      (pass'.push
        (.ifBlock { outerEnabled := pass'.enabled, condition, line := line + l.shift })) := by
    intro condition
    rw [← h.enabled_eq]
    exact h.push (.ifBlock ⟨_, condition, line, false⟩)
  unfold Pass.beginIf
  dsimp only
  rw [← h.enabled_eq] at hopened ⊢
  split
  · apply (paired_condition hasks h hargument line).bind
    rintro condition _ rfl
    exact .pure (hopened condition)
  · rw [pure_bind, pure_bind]
    exact .pure (hopened false)

lemma ask_switchSource_eq {name name' : Text} (hname : l.Name name name') :
    (pass.switchSource external).ask name = (pass'.switchSource external).ask name' := by
  have hitems := h.store.items.get?_eq hname.lower_eq
  have hmacros := h.macros.get?_eq hname.lower_eq
  simp only [Pass.switchSource, Source.chain, List.foldr, Source.orElse, Source.ofTable,
    Source.silent, hitems, hmacros, hasks name name' hname]

lemma paired_switchValue (hname : l.Name argument argument')
    (hsame : hasReferences argument → argument = argument') :
    Paired Eq l.Errors (pass.switchValue external argument)
      (pass'.switchValue external argument') := by
  unfold Pass.switchValue
  rw [← hname.recased.hasReferences_eq, ← ask_switchSource_eq hasks h hname]
  split
  · rename_i hreferences
    rw [← hsame hreferences]
    exact paired_expand h argument
  · have hfound : Paired Eq l.Errors
        (ExceptT.lift ((pass.switchSource external).ask argument) : ExceptT LoadError Id _)
        (ExceptT.lift ((pass.switchSource external).ask argument)) := .pure rfl
    apply hfound.bind
    rintro found _ rfl
    cases found with
    | none => exact .pure rfl
    | some value => exact paired_expand h value

lemma paired_beginSwitch (hargument : l.Arguments .switchBegin argument argument') (line : Nat) :
    Paired l.Passes l.Errors (pass.beginSwitch external line argument)
      (pass'.beginSwitch external (line + l.shift) argument') := by
  obtain ⟨hname, hsame⟩ : l.Name argument argument' ∧
      (hasReferences argument → argument = argument') := by
    cases hargument with
    | same => exact ⟨.refl argument, fun _ => rfl⟩
    | definition hword => simp at hword
    | name hword => simp at hword
    | expression hname hplain => exact ⟨hname, fun hreferences => by simp [hplain] at hreferences⟩
  have hopened : ∀ value, l.Passes
      (pass.push (.switchBlock { outerEnabled := pass.enabled, value, line }))
      (pass'.push
        (.switchBlock { outerEnabled := pass.enabled, value, line := line + l.shift })) :=
    fun value => h.push (.switchBlock { outerEnabled := pass.enabled, value, line })
  unfold Pass.beginSwitch
  dsimp only
  simp only [hname.recased.eq_nil_iff, ← h.enabled_eq]
  split
  · exact .throw (.format (.refl _) line)
  · split
    · apply (paired_switchValue hasks h hname hsame).bind
      rintro value _ rfl
      exact .pure (hopened value)
    · rw [pure_bind, pure_bind]
      exact .pure (hopened [])

omit hasks in
/-- A definition is looked at where the text is carried out, and begins with a name. -/
lemma paired_definition {word : Directive} (hword : word ∈ [.define, .set, .undefine])
    (hargument : l.Arguments word argument argument') (line : Nat)
    {f : Text × Text → ExceptT LoadError Id Pass} {g : Text × Text → ExceptT LoadError Id Pass}
    (hnext : ∀ found found', l.Entry found found' → Paired l.Passes l.Errors (f found) (g found')) :
    Paired l.Passes l.Errors
      (if !pass.enabled then pure pass
        else Pass.checked line (Pass.definition word argument) >>= f)
      (if !pass'.enabled then pure pass'
        else Pass.checked (line + l.shift) (Pass.definition word argument') >>= g) := by
  rw [← h.enabled_eq]
  split
  · exact .pure h
  · exact ((rules_definition (hargument.definitions hword) word).checked line).bind hnext

/-- Every directive takes alike passes to alike passes, or stops both. -/
lemma paired_direct (word : Directive) (hargument : l.Arguments word argument argument')
    (line : Nat) :
    Paired l.Passes l.Errors (pass.direct external line argument word)
      (pass'.direct external (line + l.shift) argument' word) := by
  cases word with
  | define =>
    apply paired_definition h (by simp) hargument line
    rintro ⟨name, text⟩ ⟨name', _⟩ ⟨hname, rfl⟩
    exact paired_define h hname text
  | set =>
    apply paired_definition h (by simp) hargument line
    rintro ⟨name, text⟩ ⟨name', _⟩ ⟨hname, rfl⟩
    apply (paired_expand h text).bind
    rintro value _ rfl
    exact paired_define h hname value
  | undefine =>
    apply paired_definition h (by simp) hargument line
    rintro ⟨name, text⟩ ⟨name', text'⟩ ⟨hname, -⟩
    exact paired_undefine h hname
  | ifBegin => exact paired_beginIf hasks h (hargument.names (by simp)) line
  | ifElse => exact (rules_beginElse h).checked line
  | ifEnd => exact (rules_endIf h).checked line
  | switchBegin => exact paired_beginSwitch hasks h hargument line
  | switchCase => exact (rules_beginCase h (hargument.names (by simp))).checked line
  | switchDefault => exact (rules_beginDefault h).checked line
  | switchEnd => exact (rules_endSwitch h).checked line
  | sectionBegin => exact (rules_beginSection h (hargument.names (by simp)) line).checked line
  | sectionEnd => exact (rules_endSection h).checked line

theorem paired_step {statement statement' : Statement}
    (hstatement : l.Statements statement statement') (line : Nat) :
    Paired l.Passes l.Errors (pass.step external line statement)
      (pass'.step external (line + l.shift) statement') := by
  cases hstatement with
  | entry hkey value =>
    simp only [Pass.step, hkey.recased.eq_nil_iff, h.enabled_eq]
    split
    · exact .pure h
    · exact .pure (h.enter hkey value)
  | directive hargument => exact paired_direct hasks h _ hargument line
  | unknown hline => exact .throw (.format ((Name.refl _).append hline) line)

omit h in
/-- Passes that are alike stay so over alike texts, up to the line that stops both. -/
theorem paired_run {numbered numbered' : List (Nat × Statement)}
    (hnumbered : List.Forall₂ l.Numbered numbered numbered') {pass pass' : Pass}
    (h : l.Passes pass pass') :
    Paired l.Passes l.Errors (Pass.run external numbered pass)
      (Pass.run external numbered' pass') := by
  induction hnumbered generalizing pass pass' with
  | nil => exact .pure h
  | @cons first second rest rest' hfirst hrest ih =>
    obtain ⟨line, statement⟩ := first
    obtain ⟨line', statement'⟩ := second
    obtain ⟨rfl, hstatement⟩ := hfirst
    exact (paired_step hasks h hstatement line).bind fun next next' hnext => ih hnext

end Steps

end Likeness

end Keyfile
