import Keyfile.Proofs.Concatenation
import Keyfile.Proofs.Steps

/-!
# Lines inside a section

Lines that close every block that they open, and no other, see of the pass around them only whether
it is carried out. So the innermost section that they stand in can be exchanged for other ones, and
the lines can be moved down: the pass over them comes to the same, and an error names another line.
-/

namespace Keyfile

/-- How many blocks are open after a directive, of those that were opened since some start; `none`
when it closes a block that was open at the start. -/
def Directive.depthAfter? (depth : Nat) : Directive → Option Nat
  | .ifBegin | .switchBegin | .sectionBegin => some (depth + 1)
  | .ifEnd | .switchEnd | .sectionEnd =>
    match depth with
    | 0 => none
    | depth + 1 => some depth
  | .define | .set | .undefine | .ifElse | .switchCase | .switchDefault => some depth

lemma Directive.depthAfter?_definition {word : Directive}
    (hword : word ∈ [.define, .set, .undefine]) (depth : Nat) :
    word.depthAfter? depth = some depth := by
  have hwords : word = .define ∨ word = .set ∨ word = .undefine := by simpa using hword
  rcases hwords with rfl | rfl | rfl <;> rfl

def Statement.depthAfter? (depth : Nat) : Statement → Option Nat
  | .directive word _ => word.depthAfter? depth
  | .entry _ _ | .unknown _ => some depth

/-- Whether statements close all blocks that are open since some start, and no other block. -/
def closesOwn : Nat → List (Nat × Statement) → Bool
  | depth, [] => depth == 0
  | depth, (_, statement) :: rest =>
    match statement.depthAfter? depth with
    | none => false
    | some depth => closesOwn depth rest

/-- Lines among which every block and every value of several lines that is opened is closed, and no
other block is. The lines may break other rules of the blocks. -/
structure Enclosed (lines : List Text) : Prop where
  blocks : closesOwn 0 (gather none 1 lines) = true
  values : leavesOpen false lines = false

namespace LoadError

/-- The same error, named at a line that is so many lines further down. -/
def below (lines : Nat) : LoadError → LoadError
  | .format cause line => .format cause (line.map (· + lines))
  | .expansion error => .expansion error

lemma below_below (first second : Nat) (error : LoadError) :
    (error.below first).below second = error.below (first + second) := by
  cases error with
  | expansion => rfl
  | format cause line => cases line <;> simp [below, Nat.add_assoc]

end LoadError

/-- A block that is opened further down. -/
def Block.below (lines : Nat) : Block → Block
  | .ifBlock block => .ifBlock { block with line := block.line + lines }
  | .switchBlock block => .switchBlock { block with line := block.line + lines }
  | .sectionBlock block => .sectionBlock { block with line := block.line + lines }

lemma Block.enabled_below (lines : Nat) (block : Block) :
    (block.below lines).enabled = block.enabled := by
  cases block <;> rfl

namespace Pass

/-- The pass in which the blocks opened inside the outermost one are opened further down, and other
blocks are in the place of the outermost one. -/
def moved (lines : Nat) (base : List Block) (pass : Pass) : Pass :=
  { pass with blocks := pass.blocks.dropLast.map (Block.below lines) ++ base }

/-- The outermost block of the pass is a section, inside of which so many blocks are open. -/
def Inside (inner : SectionBlock) (depth : Nat) (pass : Pass) : Prop :=
  ∃ top, pass.blocks = top ++ [.sectionBlock inner] ∧ top.length = depth

/-- The innermost of some blocks is a section that is carried out when another one is. -/
def Replaces (inner : SectionBlock) (base : List Block) : Prop :=
  ∃ outer rest, base = .sectionBlock outer :: rest ∧ outer.outerEnabled = inner.outerEnabled

section Moved

variable {inner : SectionBlock} {base : List Block} {pass next : Pass} {depth after line : Nat}
  {argument : Text} (lines : Nat)

lemma moved_push (h : Inside inner depth pass) (block : Block) :
    (pass.push block).moved lines base = (pass.moved lines base).push (block.below lines) := by
  have hne : pass.blocks ≠ [] := by
    obtain ⟨top, hblocks, -⟩ := h
    rw [hblocks]
    exact List.append_ne_nil_of_right_ne_nil _ (List.cons_ne_nil _ _)
  unfold moved push
  rw [List.dropLast_cons_of_ne_nil hne]
  rfl

lemma moved_mk (top : List Block) (scope : Option Text) (macros : Table) (store : Store) :
    moved lines base ⟨top ++ [.sectionBlock inner], scope, macros, store⟩ =
      ⟨top.map (Block.below lines) ++ base, scope, macros, store⟩ := by
  rw [moved, List.dropLast_concat]

lemma enabled_moved (h : Inside inner depth pass) (hbase : Replaces inner base) :
    (pass.moved lines base).enabled = pass.enabled := by
  obtain ⟨blocks, scope, macros, store⟩ := pass
  obtain ⟨top, rfl : blocks = _, -⟩ := h
  obtain ⟨outer, rest, rfl, houter⟩ := hbase
  rw [moved_mk]
  cases top with
  | nil => exact houter
  | cons block top => exact block.enabled_below lines

/-- A rule is refused in both places, or the blocks above the exchanged one are then the same. -/
inductive Corresponds (lines : Nat) (inner : SectionBlock) (base : List Block) (after : Nat) :
    Except FormatCause Pass → Except FormatCause Pass → Prop
  | refused (cause : FormatCause) : Corresponds lines inner base after (.error cause) (.error cause)
  | done (top : List Block) (hlength : top.length = after) (scope : Option Text) (macros : Table)
      (store : Store) :
      Corresponds lines inner base after (.ok ⟨top ++ [.sectionBlock inner], scope, macros, store⟩)
        (.ok ⟨top.map (Block.below lines) ++ base, scope, macros, store⟩)

section Rules

variable (top : List Block) (scope : Option Text) (macros : Table) (store : Store)

lemma corresponds_beginElse (hbase : Replaces inner base) :
    Corresponds lines inner base top.length
      (beginElse ⟨top ++ [.sectionBlock inner], scope, macros, store⟩)
      (beginElse ⟨top.map (Block.below lines) ++ base, scope, macros, store⟩) := by
  obtain ⟨outer, rest, rfl, -⟩ := hbase
  rcases top with _ | ⟨⟨outerEnabled, condition, line, _ | _⟩ | block | block, top⟩
  · exact .refused _
  · exact .done (.ifBlock ⟨outerEnabled, condition, line, true⟩ :: top) rfl scope macros store
  · exact .refused _
  · exact .refused _
  · exact .refused _

lemma corresponds_beginCase (hbase : Replaces inner base) (label : Text) :
    Corresponds lines inner base top.length
      (beginCase ⟨top ++ [.sectionBlock inner], scope, macros, store⟩ label)
      (beginCase ⟨top.map (Block.below lines) ++ base, scope, macros, store⟩ label) := by
  obtain ⟨outer, rest, rfl, -⟩ := hbase
  rcases top with
    _ | ⟨block | ⟨outerEnabled, value, line, matched, enabled, _ | _⟩ | block, top⟩
  · exact .refused _
  · exact .refused _
  · exact .done (.switchBlock ⟨outerEnabled, value, line,
      matched || (outerEnabled && !matched && sameName label value),
      outerEnabled && !matched && sameName label value, false⟩ :: top) rfl scope macros store
  · exact .refused _
  · exact .refused _

lemma corresponds_beginDefault (hbase : Replaces inner base) :
    Corresponds lines inner base top.length
      (beginDefault ⟨top ++ [.sectionBlock inner], scope, macros, store⟩)
      (beginDefault ⟨top.map (Block.below lines) ++ base, scope, macros, store⟩) := by
  obtain ⟨outer, rest, rfl, -⟩ := hbase
  rcases top with
    _ | ⟨block | ⟨outerEnabled, value, line, matched, enabled, _ | _⟩ | block, top⟩
  · exact .refused _
  · exact .refused _
  · exact .done (.switchBlock ⟨outerEnabled, value, line, matched, outerEnabled && !matched,
      true⟩ :: top) rfl scope macros store
  · exact .refused _
  · exact .refused _

/-- A block that was opened inside is closed by its own directive only. -/
lemma corresponds_end (block : Block) :
    Corresponds lines inner base top.length
        (endIf ⟨block :: top ++ [.sectionBlock inner], scope, macros, store⟩)
        (endIf ⟨(block :: top).map (Block.below lines) ++ base, scope, macros, store⟩) ∧
      Corresponds lines inner base top.length
        (endSwitch ⟨block :: top ++ [.sectionBlock inner], scope, macros, store⟩)
        (endSwitch ⟨(block :: top).map (Block.below lines) ++ base, scope, macros, store⟩) ∧
      Corresponds lines inner base top.length
        (endSection ⟨block :: top ++ [.sectionBlock inner], scope, macros, store⟩)
        (endSection ⟨(block :: top).map (Block.below lines) ++ base, scope, macros, store⟩) := by
  cases block with
  | ifBlock block => exact ⟨.done top rfl scope macros store, .refused _, .refused _⟩
  | switchBlock block => exact ⟨.refused _, .done top rfl scope macros store, .refused _⟩
  | sectionBlock block =>
    exact ⟨.refused _, .refused _, .done top rfl block.outerScope macros store⟩

lemma corresponds_beginSection (hbase : Replaces inner base) (line : Nat) (name : Text) :
    Corresponds lines inner base (top.length + 1)
      (beginSection ⟨top ++ [.sectionBlock inner], scope, macros, store⟩ line name)
      (beginSection ⟨top.map (Block.below lines) ++ base, scope, macros, store⟩ (line + lines)
        name) := by
  have hinside : Inside inner top.length ⟨top ++ [.sectionBlock inner], scope, macros, store⟩ :=
    ⟨top, rfl, rfl⟩
  have henabled := enabled_moved lines hinside hbase
  rw [moved_mk] at henabled
  unfold beginSection
  rw [henabled]
  split
  · exact .refused _
  · split
    · exact .refused _
    · exact .done (.sectionBlock _ :: top) rfl _ macros store

end Rules

/-- A rule without effects comes to the same in both places, and closes what was opened inside. -/
lemma rule_moved (h : Inside inner depth pass) (hbase : Replaces inner base) {word : Directive}
    (hdepth : word.depthAfter? depth = some after) {result : Except FormatCause Pass}
    (hrule : pass.rule? line argument word = some result) :
    (pass.moved lines base).rule? (line + lines) argument word =
        some (result.map (moved lines base)) ∧
      ∀ next, result = .ok next → Inside inner after next := by
  have hcorresponds : ∃ moved, (pass.moved lines base).rule? (line + lines) argument word =
      some moved ∧ Corresponds lines inner base after result moved := by
    obtain ⟨blocks, scope, macros, store⟩ := pass
    obtain ⟨top, rfl : blocks = _, rfl⟩ := h
    rw [moved_mk]
    cases word with
    | define | set | undefine | ifBegin | switchBegin => cases hrule
    | ifElse =>
      cases hrule
      cases hdepth
      exact ⟨_, rfl, corresponds_beginElse lines top scope macros store hbase⟩
    | switchCase =>
      cases hrule
      cases hdepth
      exact ⟨_, rfl, corresponds_beginCase lines top scope macros store hbase argument⟩
    | switchDefault =>
      cases hrule
      cases hdepth
      exact ⟨_, rfl, corresponds_beginDefault lines top scope macros store hbase⟩
    | sectionBegin =>
      cases hrule
      cases hdepth
      exact ⟨_, rfl, corresponds_beginSection lines top scope macros store hbase line argument⟩
    | ifEnd =>
      cases hrule
      cases top with
      | nil => cases hdepth
      | cons block top =>
        cases hdepth
        exact ⟨_, rfl, (corresponds_end lines top scope macros store block).1⟩
    | switchEnd =>
      cases hrule
      cases top with
      | nil => cases hdepth
      | cons block top =>
        cases hdepth
        exact ⟨_, rfl, (corresponds_end lines top scope macros store block).2.1⟩
    | sectionEnd =>
      cases hrule
      cases top with
      | nil => cases hdepth
      | cons block top =>
        cases hdepth
        exact ⟨_, rfl, (corresponds_end lines top scope macros store block).2.2⟩
  obtain ⟨other, hother, hcorresponds⟩ := hcorresponds
  cases hcorresponds with
  | refused cause => exact ⟨hother, by rintro _ ⟨⟩⟩
  | done top hlength scope macros store =>
    refine ⟨hother.trans ?_, ?_⟩
    · rw [Except.map, moved_mk]
    · rintro _ ⟨⟩
      exact ⟨top, rfl, hlength⟩

lemma Inside.push (h : Inside inner depth pass) (block : Block) :
    Inside inner (depth + 1) (pass.push block) := by
  obtain ⟨top, hblocks, rfl⟩ := h
  exact ⟨block :: top, congrArg (block :: ·) hblocks, rfl⟩

/-- The blocks that a statement leaves open inside are those that its depth tells. -/
lemma Inside.comes (h : Inside inner depth pass) {statement : Statement}
    (hdepth : statement.depthAfter? depth = some after)
    (hcomes : Comes line pass statement (.ok next)) : Inside inner after next := by
  generalize houtcome : Except.ok next = outcome at hcomes
  cases hcomes with
  | entry key value =>
    cases houtcome
    cases hdepth
    split
    · exact h
    · exact h
  | @rule word argument result hrule =>
    cases result with
    | error cause => cases houtcome
    | ok after =>
      cases houtcome
      exact (rule_moved 0 h ⟨inner, [], rfl, rfl⟩ hdepth hrule).2 _ rfl
  | passedOver hword =>
    cases houtcome
    rw [Statement.depthAfter?, Directive.depthAfter?_definition hword] at hdepth
    cases hdepth
    exact h
  | defined hword =>
    cases houtcome
    rw [Statement.depthAfter?,
      Directive.depthAfter?_definition (List.mem_append_left [.undefine] hword)] at hdepth
    cases hdepth
    exact h
  | undefined =>
    cases houtcome
    cases hdepth
    exact h
  | conditional =>
    cases houtcome
    cases hdepth
    exact h.push _
  | choice =>
    cases houtcome
    cases hdepth
    exact h.push _
  | unknown | refused | conditionMissing | expressionMissing | unexpanded => cases houtcome

section Effects

variable {m : Type → Type} [Monad m] [LawfulMonad m] (external : Source m)

omit [LawfulMonad m] in
lemma checked_error {α : Type} (line : Nat) (cause : FormatCause) :
    checked (m := m) line (.error cause : Except FormatCause α) = throw (.at_ line cause) := rfl

omit [LawfulMonad m] in
lemma checked_ok {α : Type} (line : Nat) (a : α) : checked (m := m) line (.ok a) = pure a := rfl

lemma adapt_checked {α : Type} (line : Nat) (result : Except FormatCause α) :
    ExceptT.adapt (LoadError.below lines) (checked (m := m) line result) =
      checked (line + lines) result := by
  cases result with
  | error cause => exact adapt_throw _ _
  | ok a => exact adapt_pure _ a

lemma adapt_expand (t : Text) :
    ExceptT.adapt (LoadError.below lines) (pass.expand external t) = pass.expand external t := by
  rw [expand, adapt_adapt]
  rfl

lemma adapt_switchValue (expression : Text) :
    ExceptT.adapt (LoadError.below lines) (pass.switchValue external expression) =
      pass.switchValue external expression := by
  unfold switchValue
  split
  · exact adapt_expand lines external expression
  · rw [adapt_bind]
    change ExceptT.adapt _ (ExceptT.lift _) >>= _ = _
    rw [adapt_lift]
    apply bind_congr
    intro found
    cases found with
    | none => exact adapt_pure _ _
    | some value => exact adapt_expand lines external value

lemma adapt_condition (line : Nat) (argument : Text) :
    ExceptT.adapt (LoadError.below lines) (pass.condition external line argument) =
      pass.condition external (line + lines) argument := by
  unfold condition
  split
  rename_i negated name _
  dsimp only
  by_cases hempty : name = []
  · rw [if_pos hempty, if_pos hempty, throw_bind_eq, throw_bind_eq]
    exact adapt_throw _ _
  rw [if_neg hempty, if_neg hempty]
  by_cases htrue : Text.lower name = "true".toList
  · rw [if_pos htrue, pure_bind]
    exact adapt_pure _ _
  rw [if_neg htrue]
  by_cases hfalse : Text.lower name = "false".toList
  · rw [if_pos hfalse, pure_bind]
    exact adapt_pure _ _
  rw [if_neg hfalse]
  by_cases hknown : pass.macros.contains name = true
  · rw [if_pos hknown, pure_bind]
    exact adapt_pure _ _
  rw [if_neg hknown, adapt_bind]
  change ExceptT.adapt _ (ExceptT.lift _) >>= _ = _
  rw [adapt_lift]
  exact bind_congr fun found => adapt_pure _ _

lemma checked_map {α β : Type} (line : Nat) (f : α → β) (result : Except FormatCause α) :
    checked (m := m) line (result.map f) = f <$> checked line result := by
  cases result with
  | error cause => rw [Except.map, checked_error, checked_error, map_eq_pure_bind, throw_bind_eq]
  | ok a => rw [Except.map, checked_ok, checked_ok, map_pure]

/-- A block that is opened with what a computation comes to. -/
lemma opened_moved (h : Inside inner depth pass) {α : Type} {x y : ExceptT LoadError m α}
    (hy : y = ExceptT.adapt (LoadError.below lines) x) (block : α → Block) :
    (do return (pass.moved lines base).push ((block (← y)).below lines)) =
      ExceptT.adapt (LoadError.below lines)
        (moved lines base <$> do return pass.push (block (← x))) := by
  rw [hy, map_bind, adapt_bind]
  apply bind_congr
  intro a
  rw [map_pure, adapt_pure, moved_push lines h]

lemma beginIf_moved (h : Inside inner depth pass) (hbase : Replaces inner base) :
    (pass.moved lines base).beginIf external (line + lines) argument =
      ExceptT.adapt (LoadError.below lines)
        (moved lines base <$> pass.beginIf external line argument) := by
  unfold beginIf
  rw [enabled_moved lines h hbase]
  dsimp only
  split
  · exact opened_moved lines h (adapt_condition lines external line argument).symm
      fun condition => .ifBlock { outerEnabled := pass.enabled, condition, line }
  · exact opened_moved lines h (adapt_pure _ false).symm
      fun condition => .ifBlock { outerEnabled := pass.enabled, condition, line }

lemma beginSwitch_moved (h : Inside inner depth pass) (hbase : Replaces inner base) :
    (pass.moved lines base).beginSwitch external (line + lines) argument =
      ExceptT.adapt (LoadError.below lines)
        (moved lines base <$> pass.beginSwitch external line argument) := by
  unfold beginSwitch
  by_cases hargument : argument = []
  · rw [if_pos hargument, if_pos hargument, throw_bind_eq, throw_bind_eq, adapt_map, adapt_throw,
      map_eq_pure_bind, throw_bind_eq]
    rfl
  rw [if_neg hargument, if_neg hargument, enabled_moved lines h hbase]
  dsimp only
  split
  · exact opened_moved lines h (adapt_switchValue lines external argument).symm
      fun value => .switchBlock { outerEnabled := pass.enabled, value, line }
  · exact opened_moved lines h (adapt_pure _ []).symm
      fun value => .switchBlock { outerEnabled := pass.enabled, value, line }

/-- A definition is passed over in both places, or refused, or carried out. -/
lemma definition_moved (h : Inside inner depth pass) (hbase : Replaces inner base)
    (result : Except FormatCause (Text × Text)) {f g : Text × Text → ExceptT LoadError m Pass}
    (hf : ∀ found, g found = ExceptT.adapt (LoadError.below lines) (moved lines base <$> f found)) :
    (if !(pass.moved lines base).enabled then return pass.moved lines base
      else checked (line + lines) result >>= g) =
    ExceptT.adapt (LoadError.below lines)
      (moved lines base <$> if !pass.enabled then return pass else checked line result >>= f) := by
  rw [enabled_moved lines h hbase]
  split
  · rw [map_pure, adapt_pure]
  · rw [map_bind, adapt_bind, adapt_checked]
    exact bind_congr hf

variable [Journal m]

lemma define_moved (pass : Pass) (name text : Text) :
    (pass.moved lines base).define name text =
      ExceptT.adapt (LoadError.below lines)
        (moved lines base <$> (pass.define name text : ExceptT LoadError m Pass)) := by
  unfold define
  rw [map_bind, adapt_bind]
  change _ = ExceptT.adapt _ (ExceptT.lift _) >>= _
  rw [adapt_lift]
  apply bind_congr
  intro _
  rw [map_pure, adapt_pure]
  rfl

lemma undefine_moved (pass : Pass) (name : Text) :
    (pass.moved lines base).undefine name =
      ExceptT.adapt (LoadError.below lines)
        (moved lines base <$> (pass.undefine name : ExceptT LoadError m Pass)) := by
  have hmacros : (pass.moved lines base).macros = pass.macros := rfl
  unfold undefine
  rw [hmacros]
  dsimp only
  split
  · rw [map_bind, adapt_bind]
    change _ = ExceptT.adapt _ (ExceptT.lift _) >>= _
    rw [adapt_lift]
    apply bind_congr
    intro _
    rw [map_pure, adapt_pure]
    rfl
  · rw [map_pure, adapt_pure]
    rfl

lemma direct_moved (h : Inside inner depth pass) (hbase : Replaces inner base) {word : Directive}
    (hdepth : word.depthAfter? depth = some after) :
    (pass.moved lines base).direct external (line + lines) argument word =
      ExceptT.adapt (LoadError.below lines)
        (moved lines base <$> pass.direct external line argument word) := by
  have hrule : ∀ result result', pass.rule? line argument word = some result →
      (pass.moved lines base).rule? (line + lines) argument word = some result' →
      checked (m := m) (line + lines) result' =
        ExceptT.adapt (LoadError.below lines) (moved lines base <$> checked line result) := by
    intro result result' hrule hrule'
    rw [(rule_moved lines h hbase hdepth hrule).1] at hrule'
    rw [← Option.some.inj hrule', checked_map, adapt_map, adapt_checked]
  cases word with
  | define =>
    exact definition_moved lines h hbase (definition .define argument)
      fun found => define_moved lines pass found.1 found.2
  | set =>
    refine definition_moved lines h hbase (definition .set argument) fun found => ?_
    rw [map_bind, adapt_bind, adapt_expand]
    exact bind_congr fun value => define_moved lines pass found.1 value
  | undefine =>
    exact definition_moved lines h hbase (definition .undefine argument)
      fun found => undefine_moved lines pass found.1
  | ifBegin => exact beginIf_moved lines external h hbase
  | switchBegin => exact beginSwitch_moved lines external h hbase
  | ifElse | ifEnd | switchCase | switchDefault | switchEnd | sectionBegin | sectionEnd =>
    exact hrule _ _ rfl rfl

/-- A statement comes to the same further down and with other blocks around its section. -/
lemma step_moved (h : Inside inner depth pass) (hbase : Replaces inner base)
    {statement : Statement} (hdepth : statement.depthAfter? depth = some after) :
    (pass.moved lines base).step external (line + lines) statement =
      ExceptT.adapt (LoadError.below lines)
        (moved lines base <$> pass.step external line statement) := by
  cases statement with
  | entry key value =>
    rw [step, step, map_pure, adapt_pure, enabled_moved lines h hbase]
    split
    · rfl
    · rfl
  | directive word argument => exact direct_moved lines external h hbase hdepth
  | unknown text =>
    rw [step, step, map_eq_pure_bind, throw_bind_eq, adapt_throw]
    rfl

lemma always_inside_step (h : Inside inner depth pass) {statement : Statement}
    (hdepth : statement.depthAfter? depth = some after) :
    Always (pass.step external line statement) (Inside inner after) :=
  (pass.always_step line external statement).of_run fun _ hcomes => h.comes hdepth hcomes

/-- Statements that close all that they open come to the same further down and with other blocks
around their section. -/
lemma run_moved (h : Inside inner depth pass) (hbase : Replaces inner base)
    {numbered : List (Nat × Statement)} (hcloses : closesOwn depth numbered = true) :
    Pass.run external (numbered.map (Statement.below lines)) (pass.moved lines base) =
      ExceptT.adapt (LoadError.below lines)
        (moved lines base <$> Pass.run external numbered pass) := by
  induction numbered generalizing depth pass with
  | nil => rw [List.map_nil, Pass.run, Pass.run, map_pure, adapt_pure]
  | cons first rest ih =>
    obtain ⟨line, statement⟩ := first
    rw [closesOwn] at hcloses
    split at hcloses
    · cases hcloses
    · rename_i after hdepth
      rw [List.map_cons, Statement.below, Pass.run, Pass.run, step_moved lines external h hbase
        hdepth, adapt_map, bind_map_left, map_bind, adapt_bind]
      apply ((always_inside_step external h hdepth).adapt _).bind_eq
      exact fun next hnext => ih hnext hcloses

/-- Behind statements that close all that they open the section is the innermost block again. -/
lemma always_inside_run (h : Inside inner depth pass) {numbered : List (Nat × Statement)}
    (hcloses : closesOwn depth numbered = true) :
    Always (Pass.run external numbered pass) (Inside inner 0) := by
  induction numbered generalizing depth pass with
  | nil =>
    obtain rfl : depth = 0 := by simpa [closesOwn] using hcloses
    exact .of_pure h
  | cons first rest ih =>
    obtain ⟨line, statement⟩ := first
    rw [closesOwn] at hcloses
    split at hcloses
    · cases hcloses
    · rename_i after hdepth
      exact (always_inside_step external h hdepth).bind fun next hnext => ih hnext hcloses

end Effects

end Moved

end Pass

end Keyfile
