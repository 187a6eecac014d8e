import Keyfile.Proofs.TreeNesting

/-!
# Passes and trees

The pass over a source text looks at the innermost open block alone, while the trees of the text are
carried out by recursion. Both make the same of every text whose blocks are well nested: the pass
carries out a body like its trees when the innermost block is enabled and passes over it otherwise,
and the directives between the bodies turn the innermost block the way that the recursion chooses
between them.
-/

namespace Keyfile

variable {m : Type → Type} [Monad m] [Journal m]

/-- The pass with another store and other macros. -/
def Pass.holding (pass : Pass) (config : Configuration) : Pass :=
  { pass with macros := config.macros, store := config.store }

namespace Tree

/-- Carries out trees in a pass, if the next statement of the pass is carried out. -/
def carry (external : Source m) (trees : List Tree) (pass : Pass) : ExceptT LoadError m Pass :=
  if pass.enabled then
    pass.holding <$> applyAll external pass.scope pass.configuration trees
  else pure pass

/-- Carries out boundaries in a pass, each of them with the body that follows it. -/
def cross (external : Source m) : List Boundary → Pass → ExceptT LoadError m Pass
  | [], pass => pure pass
  | boundary :: rest, pass => do
    let pass ← pass.direct external boundary.line boundary.argument boundary.word
    cross external rest (← carry external boundary.body pass)

variable [LawfulMonad m]

omit [LawfulMonad m] in
lemma carry_of_disabled (external : Source m) (trees : List Tree) {pass : Pass}
    (h : pass.enabled = false) : carry external trees pass = pure pass := by
  simp [carry, h]

@[simp] lemma carry_nil (external : Source m) (pass : Pass) : carry external [] pass = pure pass := by
  cases h : pass.enabled with
  | false => exact carry_of_disabled external [] h
  | true => simp [carry, h, applyAll, Pass.holding, Pass.configuration]

lemma carry_cons (external : Source m) (tree : Tree) (rest : List Tree) {pass : Pass}
    (h : pass.enabled = true) :
    carry external (tree :: rest) pass =
      (pass.holding <$> apply external pass.scope pass.configuration tree) >>=
        carry external rest := by
  have hheld : ∀ config, (pass.holding config).enabled = true := fun _ => h
  simp only [carry, h, hheld, applyAll, if_true, bind_map_left, map_bind]
  rfl

lemma define_eq (pass : Pass) (name text : Text) :
    (pass.define name text : ExceptT LoadError m Pass) =
      (fun made => pass.holding made.configuration) <$>
        (pass.configuration.pass pass.scope).define name text := by
  simp only [Pass.define, map_bind, map_pure]
  rfl

lemma undefine_eq (pass : Pass) (name : Text) :
    (pass.undefine name : ExceptT LoadError m Pass) =
      (fun made => pass.holding made.configuration) <$>
        (pass.configuration.pass pass.scope).undefine name := by
  have hmacros : (pass.configuration.pass pass.scope).macros = pass.macros := rfl
  by_cases h : pass.macros.contains name
  · simp only [Pass.undefine, hmacros, h, if_true, map_bind, map_pure]
    rfl
  · simp only [Pass.undefine, hmacros, h, if_false, Bool.false_eq_true, map_pure]
    rfl

/-- A leaf is carried out alike in a pass and as a tree. -/
lemma step_leaf (external : Source m) (line : Nat) (statement : Statement) (tree : Tree)
    (rest : List Tree) (pass : Pass)
    (hpassed : pass.enabled = false → pass.step external line statement = pure pass)
    (hcarried : pass.enabled = true → pass.step external line statement =
      pass.holding <$> apply external pass.scope pass.configuration tree) :
    pass.step external line statement >>= carry external rest =
      carry external (tree :: rest) pass := by
  cases h : pass.enabled with
  | false =>
    rw [hpassed h, carry_of_disabled external (tree :: rest) h, pure_bind,
      carry_of_disabled external rest h]
  | true => rw [hcarried h, carry_cons external tree rest h]

lemma step_entry (external : Source m) (line : Nat) (key value : Text) (rest : List Tree)
    (pass : Pass) :
    pass.step external line (.entry key value) >>= carry external rest =
      carry external (.entry key value :: rest) pass := by
  apply step_leaf
  · intro h
    simp [Pass.step, h]
  · intro h
    by_cases hkey : key = []
    · simp [Pass.step, apply, hkey, Pass.holding, Pass.configuration]
    · simp only [Pass.step, apply, h, hkey, Bool.not_true, if_false, map_pure]
      rfl

lemma step_define (external : Source m) (line : Nat) (argument : Text) (rest : List Tree)
    (pass : Pass) :
    pass.step external line (.directive .define argument) >>= carry external rest =
      carry external (.define line argument :: rest) pass := by
  apply step_leaf
  · intro h
    simp [Pass.step, Pass.direct, h]
  · intro h
    simp [Pass.step, Pass.direct, apply, h, define_eq pass]

lemma step_set (external : Source m) (line : Nat) (argument : Text) (rest : List Tree)
    (pass : Pass) :
    pass.step external line (.directive .set argument) >>= carry external rest =
      carry external (.set line argument :: rest) pass := by
  apply step_leaf
  · intro h
    simp [Pass.step, Pass.direct, h]
  · intro h
    have hexpand : (pass.configuration.pass pass.scope).expand external = pass.expand external := rfl
    simp [Pass.step, Pass.direct, apply, h, define_eq pass, hexpand]

lemma step_undefine (external : Source m) (line : Nat) (argument : Text) (rest : List Tree)
    (pass : Pass) :
    pass.step external line (.directive .undefine argument) >>= carry external rest =
      carry external (.undefine line argument :: rest) pass := by
  apply step_leaf
  · intro h
    simp [Pass.step, Pass.direct, h]
  · intro h
    simp [Pass.step, Pass.direct, apply, h, undefine_eq pass]

omit [Journal m] [LawfulMonad m] in
lemma checked_ok {α : Type} (line : Nat) (a : α) :
    (Pass.checked line (.ok a) : ExceptT LoadError m α) = pure a := rfl

/-- A boundary that fits turns the innermost block without any effect. -/
lemma cross_of_ok (external : Source m) (boundary : Boundary) (rest : List Boundary)
    {pass turned : Pass} {result : Except FormatCause Pass}
    (hdirect : pass.direct external boundary.line boundary.argument boundary.word =
      Pass.checked boundary.line result) (hresult : result = .ok turned) :
    cross external (boundary :: rest) pass =
      carry external boundary.body turned >>= cross external rest := by
  rw [cross, hdirect, hresult, checked_ok, pure_bind]

lemma cross_ifElse (external : Source m) (line : Nat) (argument : Text) (second : List Tree)
    (rest : List Boundary) {pass : Pass} {block : IfBlock} {outer : List Block}
    (hblocks : pass.blocks = .ifBlock block :: outer) (hfirst : block.inElse = false) :
    cross external (⟨line, .ifElse, argument, second⟩ :: rest) pass =
      carry external second
        { pass with blocks := .ifBlock { block with inElse := true } :: outer } >>=
        cross external rest :=
  cross_of_ok external _ rest rfl (by simp [Pass.beginElse, hblocks, hfirst])

lemma cross_ifEnd (external : Source m) (line : Nat) (argument : Text) (after : List Tree)
    (rest : List Boundary) {pass : Pass} {block : IfBlock} {outer : List Block}
    (hblocks : pass.blocks = .ifBlock block :: outer) :
    cross external (⟨line, .ifEnd, argument, after⟩ :: rest) pass =
      carry external after { pass with blocks := outer } >>= cross external rest :=
  cross_of_ok external _ rest rfl (by simp [Pass.endIf, hblocks])

lemma cross_switchCase (external : Source m) (line : Nat) (label : Text) (body : List Tree)
    (rest : List Boundary) {pass : Pass} {block : SwitchBlock} {outer : List Block}
    (hblocks : pass.blocks = .switchBlock block :: outer) (hopen : block.hasDefault = false) :
    cross external (⟨line, .switchCase, label, body⟩ :: rest) pass =
      carry external body
        { pass with blocks := .switchBlock { block with
            enabled := block.outerEnabled && !block.matched && sameName label block.value
            matched := block.matched ||
              (block.outerEnabled && !block.matched && sameName label block.value) } :: outer } >>=
        cross external rest :=
  cross_of_ok external _ rest rfl (by simp [Pass.beginCase, hblocks, hopen])

lemma cross_switchDefault (external : Source m) (line : Nat) (argument : Text) (body : List Tree)
    (rest : List Boundary) {pass : Pass} {block : SwitchBlock} {outer : List Block}
    (hblocks : pass.blocks = .switchBlock block :: outer) (hopen : block.hasDefault = false) :
    cross external (⟨line, .switchDefault, argument, body⟩ :: rest) pass =
      carry external body
        { pass with blocks := .switchBlock { block with
            hasDefault := true
            enabled := block.outerEnabled && !block.matched } :: outer } >>=
        cross external rest :=
  cross_of_ok external _ rest rfl (by simp [Pass.beginDefault, hblocks, hopen])

lemma cross_switchEnd (external : Source m) (line : Nat) (argument : Text) (after : List Tree)
    (rest : List Boundary) {pass : Pass} {block : SwitchBlock} {outer : List Block}
    (hblocks : pass.blocks = .switchBlock block :: outer) :
    cross external (⟨line, .switchEnd, argument, after⟩ :: rest) pass =
      carry external after { pass with blocks := outer } >>= cross external rest :=
  cross_of_ok external _ rest rfl (by simp [Pass.endSwitch, hblocks])

lemma cross_sectionEnd (external : Source m) (line : Nat) (argument : Text) (after : List Tree)
    (rest : List Boundary) {pass : Pass} {block : SectionBlock} {outer : List Block}
    (hblocks : pass.blocks = .sectionBlock block :: outer) :
    cross external (⟨line, .sectionEnd, argument, after⟩ :: rest) pass =
      carry external after { pass with blocks := outer, scope := block.outerScope } >>=
        cross external rest :=
  cross_of_ok external _ rest rfl (by simp [Pass.endSection, hblocks])

/-- What follows trees sees the pass as it was, but for the configuration. -/
lemma carry_bind_congr (external : Source m) (trees : List Tree) {pass : Pass}
    {f g : Pass → ExceptT LoadError m Pass}
    (h : ∀ config, f (pass.holding config) = g (pass.holding config)) :
    carry external trees pass >>= f = carry external trees pass >>= g := by
  cases hpass : pass.enabled with
  | false =>
    rw [carry_of_disabled external trees hpass, pure_bind, pure_bind]
    exact h pass.configuration
  | true =>
    simp only [carry, hpass, if_true, bind_map_left, h]

/-- A body inside a block is carried out like trees when the block is enabled. -/
lemma carry_push (external : Source m) (trees : List Tree) (block : Block) (pass : Pass)
    (f : Pass → ExceptT LoadError m Pass) :
    (do
      let inside ← carry external trees (pass.push block)
      f { inside with blocks := pass.blocks }) =
      if block.enabled then do
        f (pass.holding (← applyAll external pass.scope pass.configuration trees))
      else f pass := by
  cases h : block.enabled with
  | false =>
    have hdisabled : (pass.push block).enabled = false := h
    rw [carry_of_disabled external trees hdisabled, pure_bind]
    rfl
  | true =>
    have henabled : (pass.push block).enabled = true := h
    simp only [carry, henabled, if_true, bind_map_left]
    rfl

lemma cross_conditional (external : Source m) {second after : List Tree}
    {rest boundaries : List Boundary} (hcloses : Closes second after rest boundaries)
    {block : IfBlock} (hfirst : block.inElse = false) (pass : Pass) :
    cross external boundaries (pass.push (.ifBlock block)) = (do
      let inside ← carry external second (pass.push (.ifBlock { block with inElse := true }))
      cross external rest (← carry external after { inside with blocks := pass.blocks })) := by
  rcases hcloses with ⟨rfl, line, argument, rfl⟩ | ⟨_, ⟨line, argument, rfl⟩, line', argument', rfl⟩
  · rw [cross_ifEnd external line argument after rest rfl, carry_nil, pure_bind]
    rfl
  · rw [cross_ifElse external line argument second _ rfl hfirst]
    apply carry_bind_congr
    intro config
    exact cross_ifEnd external line' argument' after rest rfl

/-- A conditional is carried out alike in a pass and as a tree. -/
lemma beginIf_cross (external : Source m) (line : Nat) (argument : Text)
    {first second after : List Tree} {rest boundaries : List Boundary}
    (hcloses : Closes second after rest boundaries) (pass : Pass) :
    (do
      let inside ← carry external first (← pass.beginIf external line argument)
      cross external boundaries inside) =
      carry external (.conditional line argument first second :: after) pass >>=
        cross external rest := by
  have hcross (outerEnabled condition : Bool) :
      (carry external first (pass.push (.ifBlock { outerEnabled, condition, line })) >>=
        cross external boundaries) =
      if outerEnabled then do
        let trees := if condition then first else second
        let config ← applyAll external pass.scope pass.configuration trees
        cross external rest (← carry external after (pass.holding config))
      else carry external after pass >>= cross external rest := by
    let block : IfBlock := { outerEnabled, condition, line }
    let leave (inside : Pass) : ExceptT LoadError m Pass := do
      let last ← carry external second (inside.push (.ifBlock { block with inElse := true }))
      cross external rest (← carry external after { last with blocks := inside.blocks })
    calc (carry external first (pass.push (.ifBlock block)) >>= cross external boundaries)
      _ = (do
          let inside ← carry external first (pass.push (.ifBlock block))
          leave { inside with blocks := pass.blocks }) := by
        apply carry_bind_congr
        intro config
        exact cross_conditional external hcloses rfl (pass.holding config)
      _ = _ := by
        rw [carry_push external first (.ifBlock block) pass leave]
        simp only [leave, carry_push external second (.ifBlock { block with inElse := true }) _
          (fun last => carry external after last >>= cross external rest)]
        cases outerEnabled <;> cases condition <;>
          simp [block, Block.enabled, IfBlock.enabled]
  cases h : pass.enabled with
  | false =>
    simp only [Pass.beginIf, h, Bool.false_eq_true, if_false, pure_bind, hcross,
      carry_of_disabled external _ h]
  | true =>
    simp only [Pass.beginIf, h, if_true, bind_assoc, pure_bind, hcross, carry_cons external _ _ h,
      apply, bind_map_left]
    apply bind_congr
    intro holds
    cases holds <;> rfl

/-- The bodies of a switch are carried out alike from any of its boundaries on: once a case has
matched none of the further bodies is. -/
lemma cross_choices (external : Source m) {boundaries rest : List Boundary}
    {labelled : List (Text × List Tree)} {other after : List Tree}
    (hchoices : choices? boundaries = some (labelled, other, after, rest))
    {block : SwitchBlock} (hopen : block.hasDefault = false) (pass : Pass) :
    cross external boundaries (pass.push (.switchBlock block)) =
      if block.outerEnabled && !block.matched then do
        let config ← applyChoice external pass.scope pass.configuration block.value
          (applyAll external pass.scope pass.configuration other) labelled
        cross external rest (← carry external after (pass.holding config))
      else carry external after pass >>= cross external rest := by
  induction boundaries using choices?.induct generalizing block labelled pass with
  | case1 line label body others ih =>
    simp only [choices?, Option.map_eq_some_iff, Prod.mk.injEq, Prod.exists] at hchoices
    obtain ⟨labelled', other', after', rest', hothers, rfl, rfl, rfl, rfl⟩ := hchoices
    let hit := block.outerEnabled && !block.matched && sameName label block.value
    let turned : SwitchBlock := { block with enabled := hit, matched := block.matched || hit }
    let leave (inside : Pass) : ExceptT LoadError m Pass :=
      cross external others (inside.push (.switchBlock turned))
    calc cross external (⟨line, .switchCase, label, body⟩ :: others) (pass.push (.switchBlock block))
      _ = (do
          let inside ← carry external body (pass.push (.switchBlock turned))
          leave { inside with blocks := pass.blocks }) := by
        rw [cross_switchCase external line label body others rfl hopen]
        apply carry_bind_congr
        intro config
        rfl
      _ = _ := by
        rw [carry_push external body (.switchBlock turned) pass leave]
        have hturned : turned.hasDefault = false := hopen
        simp only [leave, ih hothers hturned]
        cases houter : block.outerEnabled <;> cases hmatched : block.matched <;>
          cases hsame : sameName label block.value <;>
          simp [turned, hit, houter, hmatched, hsame, Block.enabled, applyChoice]
  | case2 line argument body line' argument' after' rest' =>
    simp only [choices?, Option.some.injEq, Prod.mk.injEq] at hchoices
    obtain ⟨rfl, rfl, rfl, rfl⟩ := hchoices
    let turned : SwitchBlock :=
      { block with hasDefault := true, enabled := block.outerEnabled && !block.matched }
    let leave (inside : Pass) : ExceptT LoadError m Pass :=
      carry external after' inside >>= cross external rest'
    calc cross external (⟨line, .switchDefault, argument, body⟩ ::
        ⟨line', .switchEnd, argument', after'⟩ :: rest') (pass.push (.switchBlock block))
      _ = (do
          let inside ← carry external body (pass.push (.switchBlock turned))
          leave { inside with blocks := pass.blocks }) := by
        rw [cross_switchDefault external line argument body _ rfl hopen]
        apply carry_bind_congr
        intro config
        exact cross_switchEnd external line' argument' after' rest' rfl
      _ = _ := by
        rw [carry_push external body (.switchBlock turned) pass leave]
        simp [leave, turned, Block.enabled, applyChoice]
  | case3 line argument after' rest' =>
    simp only [choices?, Option.some.injEq, Prod.mk.injEq] at hchoices
    obtain ⟨rfl, rfl, rfl, rfl⟩ := hchoices
    rw [cross_switchEnd external line argument after' rest' rfl]
    simp only [applyChoice, applyAll, pure_bind]
    split <;> rfl
  | case4 => simp_all [choices?]

/-- A switch is carried out alike in a pass and as a tree. -/
lemma beginSwitch_cross (external : Source m) (line : Nat) {argument : Text}
    (hargument : argument ≠ []) (before : List Tree) {boundaries rest : List Boundary}
    {labelled : List (Text × List Tree)} {other after : List Tree}
    (hchoices : choices? boundaries = some (labelled, other, after, rest)) (pass : Pass) :
    (do
      let inside ← carry external before (← pass.beginSwitch external line argument)
      cross external boundaries inside) =
      carry external (.choice argument labelled other :: after) pass >>= cross external rest := by
  have hbefore (block : SwitchBlock) (hidle : block.enabled = false) :
      carry external before (pass.push (.switchBlock block)) =
        pure (pass.push (.switchBlock block)) :=
    carry_of_disabled external before hidle
  cases h : pass.enabled with
  | false =>
    simp [Pass.beginSwitch, hargument, h, hbefore, cross_choices external hchoices,
      carry_of_disabled external _ h]
  | true =>
    simp [Pass.beginSwitch, hargument, h, hbefore, cross_choices external hchoices,
      carry_cons external _ _ h, apply]
    rfl

/-- A section is carried out alike in a pass and as a tree. -/
lemma beginSection_cross (external : Source m) (line : Nat) {name : Text} (hname : name ≠ [])
    (hplain : Text.includes Key.autoIndex name = false) (body : List Tree) (line' : Nat)
    (argument : Text) (after : List Tree) (rest : List Boundary) (pass : Pass) :
    (do
      let inside ← carry external body (← Pass.checked line (pass.beginSection line name))
      cross external (⟨line', .sectionEnd, argument, after⟩ :: rest) inside) =
      carry external (.scope name body :: after) pass >>= cross external rest := by
  let block : SectionBlock :=
    { outerEnabled := pass.enabled, outerScope := pass.scope, name, line }
  let within : Pass := { pass with scope := Key.join pass.scope (some name) }
  let leave (inside : Pass) : ExceptT LoadError m Pass :=
    carry external after { inside with scope := pass.scope } >>= cross external rest
  have hbegin : pass.beginSection line name = .ok (within.push (.sectionBlock block)) := by
    simp [Pass.beginSection, hname, hplain]
    rfl
  calc (do
      let inside ← carry external body (← Pass.checked line (pass.beginSection line name))
      cross external (⟨line', .sectionEnd, argument, after⟩ :: rest) inside)
    _ = (do
        let inside ← carry external body (within.push (.sectionBlock block))
        leave { inside with blocks := within.blocks }) := by
      rw [hbegin, checked_ok, pure_bind]
      apply carry_bind_congr
      intro config
      have hblocks : ((within.push (.sectionBlock block)).holding config).blocks =
        .sectionBlock block :: pass.blocks := rfl
      exact cross_sectionEnd external line' argument after rest hblocks
    _ = _ := by
      rw [carry_push external body (.sectionBlock block) within leave]
      cases h : pass.enabled with
      | false =>
        have hleave : leave within = carry external after pass >>= cross external rest := rfl
        simp [hleave, block, h, Block.enabled, carry_of_disabled external _ h]
      | true =>
        simp only [leave, block, h, Block.enabled, if_true, carry_cons external _ _ h, apply,
          bind_map_left, bind_assoc]
        rfl

/-- A directive in front of others is carried out alike in a pass and as trees. -/
lemma direct_cross (external : Source m) (line : Nat) (argument : Text) (word : Directive)
    {trees trees' : List Tree} {boundaries boundaries' : List Boundary}
    (hdirect : direct? line argument trees boundaries word = some (trees', boundaries'))
    (pass : Pass) :
    (do
      let inside ← carry external trees (← pass.step external line (.directive word argument))
      cross external boundaries inside) =
      carry external trees' pass >>= cross external boundaries' := by
  cases word with
  | define =>
    obtain ⟨rfl, rfl⟩ : _ ∧ _ := by simpa [direct?] using hdirect
    rw [← bind_assoc, step_define]
  | set =>
    obtain ⟨rfl, rfl⟩ : _ ∧ _ := by simpa [direct?] using hdirect
    rw [← bind_assoc, step_set]
  | undefine =>
    obtain ⟨rfl, rfl⟩ : _ ∧ _ := by simpa [direct?] using hdirect
    rw [← bind_assoc, step_undefine]
  | ifBegin =>
    simp only [direct?] at hdirect
    split at hdirect
    · obtain ⟨rfl, rfl⟩ : _ ∧ _ := by simpa using hdirect
      exact beginIf_cross external line argument (.inl ⟨rfl, _, _, rfl⟩) pass
    · obtain ⟨rfl, rfl⟩ : _ ∧ _ := by simpa using hdirect
      exact beginIf_cross external line argument (.inr ⟨_, ⟨_, _, rfl⟩, _, _, rfl⟩) pass
    · simp at hdirect
  | switchBegin =>
    simp only [direct?] at hdirect
    split at hdirect
    · simp at hdirect
    · rename_i hargument
      obtain ⟨⟨labelled, other, after, rest⟩, hchoices, hpair⟩ := Option.map_eq_some_iff.1 hdirect
      obtain ⟨rfl, rfl⟩ : _ ∧ _ := by simpa using hpair
      exact beginSwitch_cross external line hargument trees hchoices pass
  | sectionBegin =>
    simp only [direct?] at hdirect
    split at hdirect
    · simp at hdirect
    · rename_i hname
      obtain ⟨hname, hplain⟩ : argument ≠ [] ∧ Text.includes Key.autoIndex argument = false := by
        simpa using hname
      split at hdirect
      · obtain ⟨rfl, rfl⟩ : _ ∧ _ := by simpa using hdirect
        exact beginSection_cross external line hname hplain trees _ _ _ _ pass
      · simp at hdirect
  | ifElse | ifEnd | switchCase | switchDefault | switchEnd | sectionEnd =>
    obtain ⟨rfl, rfl⟩ : _ ∧ _ := by simpa [direct?] using hdirect
    rw [carry_nil, pure_bind]
    rfl

/-- A pass over statements that read as trees carries out the trees, and then the boundaries that
are left. -/
theorem run_eq_cross (external : Source m) {numbered : List (Nat × Statement)} {trees : List Tree}
    {boundaries : List Boundary} (hread : read? numbered = some (trees, boundaries)) (pass : Pass) :
    Pass.run external numbered pass = carry external trees pass >>= cross external boundaries := by
  induction numbered generalizing trees boundaries pass with
  | nil =>
    obtain ⟨rfl, rfl⟩ : _ ∧ _ := by simpa [read?] using hread
    simp [Pass.run, cross]
  | cons head rest ih =>
    obtain ⟨line, statement⟩ := head
    simp only [read?, Option.bind_eq_bind, Option.bind_eq_some_iff, Prod.exists] at hread
    obtain ⟨trees', boundaries', hrest, hhead⟩ := hread
    simp only [Pass.run, ih hrest]
    cases statement with
    | entry key value =>
      obtain ⟨rfl, rfl⟩ : _ ∧ _ := by simpa using hhead
      rw [← bind_assoc, step_entry]
    | directive word argument => exact direct_cross external line argument word hhead pass
    | unknown text => simp at hhead

/-- A well nested text makes trees, and the pass over the text gives what carrying out the trees
gives: the same macros and the same store, or the same first error at the same line. -/
theorem process_eq_trees (external : Source m) (text : Text) (macros : Table) (store : Store)
    (hnested : Nesting.WellNested text) :
    ∃ trees, ofText? text = some trees ∧
      Keyfile.process external text macros store = process external text trees macros store := by
  obtain ⟨trees, hread⟩ := read?_of_wellNested hnested
  have hrun : Pass.run external (statements text) { macros, store } =
      Pass.holding { macros, store } <$> applyAll external none ⟨store, macros⟩ trees := by
    rw [run_eq_cross external hread]
    simp only [cross, bind_pure]
    rfl
  have hfinish (config : Configuration) :
      (ExceptT.mk (pure (Pass.holding { macros, store } config).finish) : ExceptT LoadError m Pass) =
        pure (Pass.holding { macros, store } ⟨config.store.merge, config.macros⟩) := rfl
  refine ⟨trees, by simp [ofText?, hread], ?_⟩
  simp only [Keyfile.process, process, hrun, bind_map_left, hfinish, pure_bind]
  rfl

/-- A switch in a section in a conditional, with a further conditional in one of its cases. -/
def nestedText : Text :=
  Text.join ['\n'] (["#define os linux", "#if os", "#section a", "#switch OS", "#case windows",
    "k = 1", "#case LINUX", "#if !x", "k = 2", "#else", "k = 3", "#endif", "#default", "k = 4",
    "#endswitch", "#endsection", "#endif"].map String.toList)

theorem process_nestedText_eq_trees :
    Nesting.WellNested nestedText ∧ ∃ trees, ofText? nestedText = some trees ∧
      Keyfile.process (m := Id) .silent nestedText {} {} =
        process .silent nestedText trees {} {} := by
  have hnested : Nesting.WellNested nestedText := by decide +kernel
  exact ⟨hnested, process_eq_trees .silent nestedText {} {} hnested⟩

end Tree

end Keyfile
