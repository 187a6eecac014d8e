import Keyfile.Proofs.BlockStructure

/-!
# The innermost block

Whether a statement is carried out is read off the innermost open block, and a block remembers of
the text around it only whether it was carried out when the block was opened. This is enough because
a directive changes the innermost block alone. To say so, a run is watched: beside the pass it keeps
the course of every open block, that is, what its condition or its value came to and which of its
bodies were begun. Watching changes nothing, and after any number of statements of any text the
courses and the blocks tell the same story.
-/

namespace Keyfile

/-- A body of a switch: its label, none for the default, and whether it is carried out. -/
structure LabelledBody where
  label : Option Text
  enabled : Bool
  deriving DecidableEq, Repr

/-- Whether the label of a body is the value of the switch. -/
def LabelledBody.fits (value : Text) (body : LabelledBody) : Bool :=
  body.label.any (sameName · value)

/-- What was met of an open block: what its condition came to and whether its second branch was
begun, what its value came to and the bodies that were begun so far, or its name. -/
inductive Course
  | conditional (condition inElse : Bool)
  | choice (value : Text) (bodies : List LabelledBody)
  | scope (name : Text)
  deriving DecidableEq, Repr

namespace Course

/-- By its course, a block is in the part of it that is taken: a conditional in its first branch
when the condition held and in its second when not, a switch in the first body with a fitting label,
or in its default when no label fitted before, and a section always. -/
inductive Taken : Course → Prop
  | first : Taken (.conditional true false)
  | second : Taken (.conditional false true)
  | matching {value : Text} {earlier : List LabelledBody} {body : LabelledBody}
      (hearlier : ∀ other ∈ earlier, other.fits value = false) (hfits : body.fits value) :
      Taken (.choice value (earlier ++ [body]))
  | otherwise {value : Text} {earlier : List LabelledBody} {body : LabelledBody}
      (hearlier : ∀ other ∈ earlier, other.fits value = false) (hlabel : body.label = none) :
      Taken (.choice value (earlier ++ [body]))
  | scope (name : Text) : Taken (.scope name)

/-- The course of a block that was just opened. -/
def begun : Block → Course
  | .ifBlock block => .conditional block.condition false
  | .switchBlock block => .choice block.value []
  | .sectionBlock block => .scope block.name

/-- The courses of the open blocks, the innermost first, after a statement that led to a pass. -/
def after (next : Pass) (statement : Statement) (courses : List Course) : List Course :=
  match statement, courses with
  | .directive .ifBegin _, courses | .directive .switchBegin _, courses
  | .directive .sectionBegin _, courses => (next.blocks.head?.map begun).toList ++ courses
  | .directive .ifElse _, .conditional condition _ :: rest => .conditional condition true :: rest
  | .directive .switchCase label, .choice value bodies :: rest =>
    .choice value (bodies ++ [⟨some label, next.enabled⟩]) :: rest
  | .directive .switchDefault _, .choice value bodies :: rest =>
    .choice value (bodies ++ [⟨none, next.enabled⟩]) :: rest
  | .directive .ifEnd _, _ :: rest | .directive .switchEnd _, _ :: rest
  | .directive .sectionEnd _, _ :: rest => rest
  | _, courses => courses

variable {value : Text} {bodies : List LabelledBody}

lemma not_taken_nil : ¬(choice value []).Taken := by
  intro h
  generalize hcourse : choice value [] = course at h
  cases h <;> simp at hcourse

lemma taken_conditional_iff {condition inElse : Bool} :
    (conditional condition inElse).Taken ↔ (condition != inElse) = true := by
  constructor
  · rintro (_ | _) <;> rfl
  · cases condition <;> cases inElse <;> intro h
    · cases h
    · exact .second
    · exact .first
    · cases h

/-- The latest body is the one that is taken when no body before it fitted and it fits itself or has
no label. -/
lemma taken_append_iff {body : LabelledBody} :
    (choice value (bodies ++ [body])).Taken ↔
      bodies.any (·.fits value) = false ∧ (body.label = none ∨ body.fits value) := by
  have hnone {earlier : List LabelledBody} :
      earlier.any (·.fits value) = false ↔ ∀ other ∈ earlier, other.fits value = false := by simp
  rw [hnone]
  constructor
  · intro h
    generalize hcourse : choice value (bodies ++ [body]) = course at h
    cases h with
    | first | second | scope => cases hcourse
    | matching hearlier hfits =>
      obtain ⟨rfl, hbodies⟩ := Course.choice.inj hcourse
      obtain ⟨rfl, hbody⟩ := List.append_inj' hbodies rfl
      cases hbody
      exact ⟨hearlier, .inr hfits⟩
    | otherwise hearlier hlabel =>
      obtain ⟨rfl, hbodies⟩ := Course.choice.inj hcourse
      obtain ⟨rfl, hbody⟩ := List.append_inj' hbodies rfl
      cases hbody
      exact ⟨hearlier, .inl hlabel⟩
  · rintro ⟨hearlier, hlabel | hfits⟩
    · exact .otherwise hearlier hlabel
    · exact .matching hearlier hfits

end Course

namespace Pass

section Watching

variable {m : Type → Type} [Monad m] [Journal m]

/-- A run that keeps the courses of the open blocks beside the pass. -/
def watch (external : Source m) :
    List (Nat × Statement) → List Course → Pass → ExceptT LoadError m (List Course × Pass)
  | [], courses, pass => pure (courses, pass)
  | (line, statement) :: rest, courses, pass => do
    let next ← pass.step external line statement
    watch external rest (Course.after next statement courses) next

/-- Without the courses a run that is watched is the run itself. -/
lemma snd_watch [LawfulMonad m] (external : Source m) (numbered : List (Nat × Statement))
    (courses : List Course) (pass : Pass) :
    Prod.snd <$> watch external numbered courses pass = run external numbered pass := by
  induction numbered generalizing courses pass with
  | nil => rw [watch, run, map_pure]
  | cons first rest ih =>
    obtain ⟨line, statement⟩ := first
    rw [watch, run, map_bind]
    exact bind_congr fun next => ih (Course.after next statement courses) next

end Watching

end Pass

/-- Whether text is carried out inside of some blocks, the innermost first. -/
def enabledIn : List Block → Bool
  | [] => true
  | block :: _ => block.enabled

lemma Pass.enabled_eq (pass : Pass) : pass.enabled = enabledIn pass.blocks := by
  unfold enabled enabledIn
  split <;> simp_all

namespace Block

/-- Whether the text around a block is carried out, as the block remembers it. -/
def outerEnabled : Block → Bool
  | ifBlock block => block.outerEnabled
  | switchBlock block => block.outerEnabled
  | sectionBlock block => block.outerEnabled

def sectionName? : Block → Option Text
  | sectionBlock block => some block.name
  | ifBlock _ | switchBlock _ => none

end Block

/-- The scope inside of some blocks, the innermost first: the names of the sections joined from the
outermost on. -/
def scopeIn (blocks : List Block) : Option Text :=
  (blocks.reverse.filterMap Block.sectionName?).foldl (fun scope name => Key.join scope (some name))
    none

lemma scopeIn_cons (block : Block) (blocks : List Block) :
    scopeIn (block :: blocks) = match block.sectionName? with
      | some name => Key.join (scopeIn blocks) (some name)
      | none => scopeIn blocks := by
  rw [scopeIn, List.reverse_cons, List.filterMap_append, List.foldl_append]
  cases block <;> rfl

/-- What a switch remembers of the bodies that were begun. -/
structure SwitchBlock.Remembers (block : SwitchBlock) (bodies : List LabelledBody) : Prop where
  matched : block.matched = (block.outerEnabled && bodies.any (·.fits block.value))
  hasDefault : block.hasDefault = bodies.any (·.label.isNone)
  enabled : block.enabled = bodies.getLast?.any (·.enabled)
  taken : block.enabled ↔ block.outerEnabled ∧ (Course.choice block.value bodies).Taken
  /-- A body that was carried out had a fitting label, or it is the default. -/
  settled : bodies.any (·.enabled) → block.matched ∨ block.hasDefault
  once : bodies.countP (·.enabled) ≤ 1

namespace SwitchBlock.Remembers

variable {block : SwitchBlock} {bodies : List LabelledBody}

lemma nil (hmatched : block.matched = false) (henabled : block.enabled = false)
    (hdefault : block.hasDefault = false) : block.Remembers [] where
  matched := by simp [hmatched]
  hasDefault := by simp [hdefault]
  enabled := by simp [henabled]
  taken := by simp [henabled, Course.not_taken_nil]
  settled := by simp
  once := by simp

/-- Another body is carried out only if none was before. -/
lemma countP_append (h : block.Remembers bodies) {body : LabelledBody}
    (hbody : body.enabled → block.matched = false ∧ block.hasDefault = false) :
    (bodies ++ [body]).countP (·.enabled) ≤ 1 := by
  rw [List.countP_append, List.countP_singleton]
  split
  · rename_i henabled
    -- an earlier body that was carried out would have left a match or a default behind
    obtain ⟨hmatched, hdefault⟩ := hbody henabled
    have hnone : ¬bodies.any (·.enabled) = true := by
      intro hany
      rcases h.settled hany with hsome | hsome
      · rw [hmatched] at hsome
        cases hsome
      · rw [hdefault] at hsome
        cases hsome
    have hcount : bodies.countP (·.enabled) = 0 := by
      rw [List.countP_eq_zero]
      exact fun other hother henabled => hnone (List.any_eq_true.2 ⟨other, hother, henabled⟩)
    omega
  · exact h.once

lemma case (h : block.Remembers bodies) (hdefault : block.hasDefault = false) (label : Text) :
    let hit := block.outerEnabled && !block.matched && sameName label block.value
    Remembers { block with enabled := hit, matched := block.matched || hit }
      (bodies ++ [⟨some label, hit⟩]) := by
  intro hit
  have hfits : (⟨some label, hit⟩ : LabelledBody).fits block.value = sameName label block.value :=
    rfl
  have hmatched := h.matched
  constructor
  · dsimp only
    rw [List.any_append, List.any_cons, List.any_nil, Bool.or_false, hfits]
    simp only [hit, hmatched]
    generalize bodies.any (·.fits block.value) = fitted
    cases block.outerEnabled <;> cases fitted <;> simp
  · simpa [hdefault] using h.hasDefault
  · simp
  · dsimp only
    rw [Course.taken_append_iff, hfits]
    simp only [hit, hmatched]
    cases block.outerEnabled <;> simp
  · intro hany
    dsimp only
    rw [List.any_append, List.any_cons, List.any_nil, Bool.or_false, Bool.or_eq_true] at hany
    rcases hany with hany | hhit
    · exact (h.settled hany).imp_left fun hmatched => by simp [hmatched]
    · have hhit : hit = true := hhit
      simp [hhit]
  · apply h.countP_append
    intro hhit
    have hhit : hit = true := hhit
    simp only [hit, Bool.and_eq_true, Bool.not_eq_true'] at hhit
    exact ⟨hhit.1.2, hdefault⟩

lemma default (h : block.Remembers bodies) (hdefault : block.hasDefault = false) :
    let hit := block.outerEnabled && !block.matched
    Remembers { block with hasDefault := true, enabled := hit } (bodies ++ [⟨none, hit⟩]) := by
  intro hit
  have hmatched := h.matched
  constructor
  · dsimp only
    rw [List.any_append, List.any_cons, List.any_nil, Bool.or_false, hmatched]
    simp [LabelledBody.fits]
  · simp
  · simp
  · dsimp only
    rw [Course.taken_append_iff]
    simp only [hit, hmatched]
    cases block.outerEnabled <;> simp
  · intro _
    exact .inr rfl
  · apply h.countP_append
    intro hhit
    have hhit : hit = true := hhit
    simp only [hit, Bool.and_eq_true, Bool.not_eq_true'] at hhit
    exact ⟨hhit.2, hdefault⟩

end SwitchBlock.Remembers

/-- Open blocks, the innermost first, stand as their courses say: each remembers whether text is
carried out inside of those below it, and a section the scope there. -/
inductive Stands : List Block → List Course → Option Text → Prop
  | nil : Stands [] [] none
  | conditional {blocks : List Block} {courses : List Course} {scope : Option Text}
      (h : Stands blocks courses scope) (block : IfBlock)
      (houter : block.outerEnabled = enabledIn blocks) :
      Stands (.ifBlock block :: blocks) (.conditional block.condition block.inElse :: courses) scope
  | choice {blocks : List Block} {courses : List Course} {scope : Option Text}
      (h : Stands blocks courses scope) (block : SwitchBlock) {bodies : List LabelledBody}
      (houter : block.outerEnabled = enabledIn blocks) (hbodies : block.Remembers bodies) :
      Stands (.switchBlock block :: blocks) (.choice block.value bodies :: courses) scope
  | scope {blocks : List Block} {courses : List Course} {scope : Option Text}
      (h : Stands blocks courses scope) (block : SectionBlock)
      (houter : block.outerEnabled = enabledIn blocks) (hscope : block.outerScope = scope) :
      Stands (.sectionBlock block :: blocks) (.scope block.name :: courses)
        (Key.join scope (some block.name))

namespace Pass

/-- The open blocks of a pass stand as their courses say, and so does its scope. -/
def Standing (courses : List Course) (pass : Pass) : Prop :=
  Stands pass.blocks courses pass.scope

variable {courses : List Course} {pass next : Pass} {line : Nat} {argument : Text}

lemma Standing.beginElse (h : pass.Standing courses) (hnext : pass.beginElse = .ok next) :
    next.Standing (Course.after next (.directive .ifElse argument) courses) := by
  obtain ⟨blocks, scope, macros, store⟩ := pass
  unfold Standing at h
  cases h with
  | nil | choice | scope => cases hnext
  | conditional h block houter =>
    obtain ⟨outerEnabled, condition, begun, inElse⟩ := block
    cases inElse with
    | true => cases hnext
    | false =>
      -- the innermost block alone is changed, so what it remembers of those below is still true
      cases hnext
      exact .conditional h ⟨outerEnabled, condition, begun, true⟩ houter

lemma Standing.endIf (h : pass.Standing courses) (hnext : pass.endIf = .ok next) :
    next.Standing (Course.after next (.directive .ifEnd argument) courses) := by
  obtain ⟨blocks, scope, macros, store⟩ := pass
  unfold Standing at h
  cases h with
  | nil | choice | scope => cases hnext
  | conditional h block houter =>
    cases hnext
    exact h

lemma Standing.beginCase (h : pass.Standing courses) (hnext : pass.beginCase argument = .ok next) :
    next.Standing (Course.after next (.directive .switchCase argument) courses) := by
  obtain ⟨blocks, scope, macros, store⟩ := pass
  unfold Standing at h
  cases h with
  | nil | conditional | scope => cases hnext
  | choice h block houter hbodies =>
    unfold Pass.beginCase at hnext
    dsimp only at hnext
    split at hnext
    · cases hnext
    · rename_i hdefault
      cases hnext
      exact .choice h _ houter (hbodies.case (eq_false_of_ne_true hdefault) argument)

lemma Standing.beginDefault (h : pass.Standing courses) (hnext : pass.beginDefault = .ok next) :
    next.Standing (Course.after next (.directive .switchDefault argument) courses) := by
  obtain ⟨blocks, scope, macros, store⟩ := pass
  unfold Standing at h
  cases h with
  | nil | conditional | scope => cases hnext
  | choice h block houter hbodies =>
    unfold Pass.beginDefault at hnext
    dsimp only at hnext
    split at hnext
    · cases hnext
    · rename_i hdefault
      cases hnext
      exact .choice h _ houter (hbodies.default (eq_false_of_ne_true hdefault))

lemma Standing.endSwitch (h : pass.Standing courses) (hnext : pass.endSwitch = .ok next) :
    next.Standing (Course.after next (.directive .switchEnd argument) courses) := by
  obtain ⟨blocks, scope, macros, store⟩ := pass
  unfold Standing at h
  cases h with
  | nil | conditional | scope => cases hnext
  | choice h block houter hbodies =>
    cases hnext
    exact h

lemma Standing.beginSection (h : pass.Standing courses)
    (hnext : pass.beginSection line argument = .ok next) :
    next.Standing (Course.after next (.directive .sectionBegin argument) courses) := by
  unfold Pass.beginSection at hnext
  split at hnext
  · cases hnext
  · split at hnext
    · cases hnext
    · cases hnext
      exact .scope h ⟨pass.enabled, pass.scope, argument, line⟩ pass.enabled_eq rfl

/-- A section that is left gives back the scope around it. -/
lemma Standing.endSection (h : pass.Standing courses) (hnext : pass.endSection = .ok next) :
    next.Standing (Course.after next (.directive .sectionEnd argument) courses) := by
  obtain ⟨blocks, scope, macros, store⟩ := pass
  unfold Standing at h
  cases h with
  | nil | conditional | choice => cases hnext
  | scope h block houter hscope =>
    cases hnext
    unfold Standing
    dsimp only
    rw [hscope]
    exact h

lemma Standing.rule (h : pass.Standing courses) {word : Directive}
    (hrule : pass.rule? line argument word = some (.ok next)) :
    next.Standing (Course.after next (.directive word argument) courses) := by
  cases word with
  | define | set | undefine | ifBegin | switchBegin => cases hrule
  | ifElse => exact h.beginElse (Option.some.inj hrule)
  | ifEnd => exact h.endIf (Option.some.inj hrule)
  | switchCase => exact h.beginCase (Option.some.inj hrule)
  | switchDefault => exact h.beginDefault (Option.some.inj hrule)
  | switchEnd => exact h.endSwitch (Option.some.inj hrule)
  | sectionBegin => exact h.beginSection (Option.some.inj hrule)
  | sectionEnd => exact h.endSection (Option.some.inj hrule)

/-- A definition leaves the courses. -/
lemma after_of_mem {word : Directive} (hword : word ∈ [.define, .set, .undefine]) :
    Course.after next (.directive word argument) courses = courses := by
  simp only [List.mem_cons, List.not_mem_nil, or_false] at hword
  rcases hword with rfl | rfl | rfl <;> rfl

lemma Standing.step (h : pass.Standing courses) {statement : Statement}
    (hcomes : Comes line pass statement (.ok next)) :
    next.Standing (Course.after next statement courses) := by
  generalize houtcome : (Except.ok next : Except LoadError Pass) = outcome at hcomes
  cases hcomes with
  | unknown | refused | conditionMissing | expressionMissing | unexpanded => cases houtcome
  | entry key value =>
    cases houtcome
    split
    · exact h
    · unfold Pass.enter
      exact h
  | rule hrule =>
    rename_i result
    cases result with
    | error cause => cases houtcome
    | ok result =>
      cases houtcome
      exact h.rule hrule
  | passedOver hword argument =>
    cases houtcome
    rw [after_of_mem hword]
    exact h
  | defined hword _ value =>
    cases houtcome
    rw [after_of_mem (List.mem_append_left [.undefine] hword)]
    exact h
  | undefined =>
    cases houtcome
    exact h
  | conditional argument condition =>
    cases houtcome
    exact .conditional h ⟨pass.enabled, condition, line, false⟩ pass.enabled_eq
  | choice hargument value =>
    cases houtcome
    exact .choice h ⟨pass.enabled, value, line, false, false, false⟩ pass.enabled_eq
      (.nil rfl rfl rfl)

/-- Wherever a run that is watched comes to, the open blocks stand as their courses say. -/
lemma Standing.always_watch {m : Type → Type} [Monad m] [LawfulMonad m] [Journal m]
    (h : pass.Standing courses) (external : Source m) (numbered : List (Nat × Statement)) :
    Always (watch external numbered courses pass).run fun outcome =>
      ∀ reached, outcome = .ok reached → reached.2.Standing reached.1 := by
  induction numbered generalizing courses pass with
  | nil =>
    apply Always.run_pure
    rintro _ ⟨⟩
    exact h
  | cons first rest ih =>
    obtain ⟨line, statement⟩ := first
    apply (pass.always_step line external statement).bind_run
    · intro next hcomes
      exact ih (h.step hcomes)
    · rintro error - reached ⟨⟩

end Pass

namespace Stands

variable {above below blocks : List Block} {courses : List Course} {scope : Option Text}

/-- What lies below some of the blocks stands for itself. -/
lemma of_append (h : Stands (above ++ below) courses scope) :
    ∃ courses scope, Stands below courses scope := by
  induction above generalizing courses scope with
  | nil => exact ⟨courses, scope, h⟩
  | cons block above ih =>
    cases h with
    | conditional h | choice h | scope h => exact ih h

lemma enabledIn_iff (h : Stands blocks courses scope) :
    enabledIn blocks ↔ ∀ course ∈ courses, course.Taken := by
  induction h with
  | nil => simp [enabledIn]
  | conditional h block houter ih =>
    rw [enabledIn, Block.enabled, IfBlock.enabled, Bool.and_eq_true, houter, ih,
      List.forall_mem_cons, Course.taken_conditional_iff, and_comm]
  | choice h block houter hbodies ih =>
    rw [enabledIn, Block.enabled, hbodies.taken, houter, ih, List.forall_mem_cons, and_comm]
  | scope h block houter hscope ih =>
    rw [enabledIn, Block.enabled, houter, ih, List.forall_mem_cons,
      and_iff_right (Course.Taken.scope block.name)]

lemma scope_eq (h : Stands blocks courses scope) : scope = scopeIn blocks := by
  induction h with
  | nil => rfl
  | conditional h block _ ih | choice h block _ _ ih => rw [scopeIn_cons, ← ih]; rfl
  | scope h block _ _ ih => rw [scopeIn_cons, ← ih]; rfl

lemma outerEnabled_eq {block : Block} (h : Stands (block :: below) courses scope) :
    block.outerEnabled = enabledIn below := by
  cases h with
  | conditional h block houter => exact houter
  | choice h block houter => exact houter
  | scope h block houter => exact houter

lemma outerScope_eq {block : SectionBlock}
    (h : Stands (.sectionBlock block :: below) courses scope) :
    block.outerScope = scopeIn below := by
  cases h with
  | scope h block _ hscope => rw [hscope, h.scope_eq]

/-- Every switch remembers some bodies, and the bodies of every course are remembered. -/
lemma exists_remembers (h : Stands blocks courses scope) :
    (∀ block, .switchBlock block ∈ blocks → ∃ bodies, block.Remembers bodies) ∧
      ∀ value bodies, .choice value bodies ∈ courses →
        ∃ block : SwitchBlock, block.Remembers bodies := by
  induction h with
  | nil => simp
  | conditional _ _ _ ih | scope _ _ _ _ ih => simpa using ih
  | choice _ block _ hbodies ih =>
    refine ⟨fun other hmem => ?_, fun value bodies hmem => ?_⟩
    · rcases List.mem_cons.1 hmem with heq | hmem
      · cases heq
        exact ⟨_, hbodies⟩
      · exact ih.1 other hmem
    · rcases List.mem_cons.1 hmem with heq | hmem
      · cases heq
        exact ⟨block, hbodies⟩
      · exact ih.2 value bodies hmem

end Stands

/-- A block has what its course tells of it: its condition and its branch, its value and whether the
latest body is carried out, or its name. -/
def Block.HasCourse : Block → Course → Prop
  | .ifBlock block, .conditional condition inElse =>
    block.condition = condition ∧ block.inElse = inElse
  | .switchBlock block, .choice value bodies =>
    block.value = value ∧ block.enabled = bodies.getLast?.any (·.enabled)
  | .sectionBlock block, .scope name => block.name = name
  | _, _ => False

lemma Stands.hasCourse {blocks : List Block} {courses : List Course} {scope : Option Text}
    (h : Stands blocks courses scope) : List.Forall₂ Block.HasCourse blocks courses := by
  induction h with
  | nil => exact .nil
  | conditional _ _ _ ih => exact .cons ⟨rfl, rfl⟩ ih
  | choice _ _ _ hbodies ih => exact .cons ⟨rfl, hbodies.enabled⟩ ih
  | scope _ _ _ _ ih => exact .cons rfl ih

namespace Pass

/-- The innermost block speaks for all open blocks. -/
structure Summarized (courses : List Course) (pass : Pass) : Prop where
  hasCourse : List.Forall₂ Block.HasCourse pass.blocks courses
  /-- A block remembers whether text is carried out inside of the blocks below it. -/
  outer : ∀ above block below, pass.blocks = above ++ block :: below →
    block.outerEnabled = enabledIn below
  enabled_iff : pass.enabled ↔ ∀ course ∈ courses, course.Taken
  /-- A switch carries nothing out where the text around it is not carried out. -/
  confined : ∀ block, .switchBlock block ∈ pass.blocks → block.enabled → block.outerEnabled
  /-- At most one of the bodies of a switch is carried out. -/
  once : ∀ value bodies, .choice value bodies ∈ courses → bodies.countP (·.enabled) ≤ 1
  scope : pass.scope = scopeIn pass.blocks
  outerScope : ∀ above block below, pass.blocks = above ++ .sectionBlock block :: below →
    block.outerScope = scopeIn below

lemma Standing.summarized {courses : List Course} {pass : Pass} (h : pass.Standing courses) :
    pass.Summarized courses where
  hasCourse := h.hasCourse
  outer above block below hblocks := by
    unfold Standing at h
    rw [hblocks] at h
    obtain ⟨_, _, hbelow⟩ := h.of_append
    exact hbelow.outerEnabled_eq
  enabled_iff := by rw [pass.enabled_eq, h.enabledIn_iff]
  confined block hmem henabled := by
    obtain ⟨_, hbodies⟩ := h.exists_remembers.1 block hmem
    exact (hbodies.taken.1 henabled).1
  once value bodies hmem := by
    obtain ⟨_, hbodies⟩ := h.exists_remembers.2 value bodies hmem
    exact hbodies.once
  scope := h.scope_eq
  outerScope above block below hblocks := by
    unfold Standing at h
    rw [hblocks] at h
    obtain ⟨_, _, hbelow⟩ := h.of_append
    exact hbelow.outerScope_eq

/-- After any number of statements of any text, well nested or not, the innermost block speaks for
all open blocks, whatever the macros, the store, the answers from outside and the state that these
depend on. Watching the run changes nothing of it. -/
theorem watch_summarized (text : Text) (macros : Table) (store : Store) (count : Nat) :
    (∀ (σ : Type) [Journal (StateM σ)] (external : Source (StateM σ)) (state : σ),
      Prod.snd <$> watch external ((statements text).take count) [] { macros, store } =
          Pass.run external ((statements text).take count) { macros, store } ∧
        ∀ courses pass, ((watch external ((statements text).take count) []
            { macros, store }).run.run state).1 = .ok (courses, pass) →
          pass.Summarized courses) ∧
    ∀ (external : Source Session) (world after : World),
      Prod.snd <$> watch external ((statements text).take count) [] { macros, store } =
          Pass.run external ((statements text).take count) { macros, store } ∧
        ∀ courses pass, (watch external ((statements text).take count) []
            { macros, store }).run.run.run world = (.ok (.ok (courses, pass)), after) →
          pass.Summarized courses := by
  have hstart : ({ macros, store } : Pass).Standing [] := Stands.nil
  constructor
  · intro σ _ external state
    refine ⟨snd_watch external _ _ _, fun courses pass hrun => ?_⟩
    have hwatch := hstart.always_watch external ((statements text).take count)
    exact (hwatch.of_run_state state _ hrun).summarized
  · intro external world after
    refine ⟨snd_watch external _ _ _, fun courses pass hrun => ?_⟩
    have hwatch := hstart.always_watch external ((statements text).take count)
    exact (hwatch.of_run_session hrun _ rfl).summarized

/-- A switch of which the second body is carried out, between sections, with a conditional in each
body. -/
def modeText : Text :=
  Text.join ['\n'] (["#section web.", "#switch mode", "#case dev", "#if true", "#endif",
    "#case PROD", "#if !debug", "#section .ssl", "port = 443", "#endsection", "#endif",
    "#endswitch", "#endsection"].map String.toList)

/-- The courses of the blocks that are open at the eighth statement of the text. -/
def modeCourses : List Course :=
  [.scope ".ssl".toList, .conditional true false,
    .choice "Prod".toList [⟨some "dev".toList, false⟩, ⟨some "PROD".toList, true⟩],
    .scope "web.".toList]

def modePass : Pass where
  blocks := [.sectionBlock ⟨true, some "web.".toList, ".ssl".toList, 8⟩,
    .ifBlock ⟨true, true, 7, false⟩,
    .switchBlock ⟨true, "Prod".toList, 2, true, true, false⟩,
    .sectionBlock ⟨true, none, "web.".toList, 1⟩]
  scope := some "web.ssl".toList
  macros := .ofPairs [("mode".toList, "Prod".toList)]

theorem watch_modeText_summarized :
    ((watch processSource ((statements modeText).take 8) []
        { macros := .ofPairs [("mode".toList, "Prod".toList)] }).run.run default).1 =
          .ok (modeCourses, modePass) ∧
      modePass.enabled ∧ (∀ course ∈ modeCourses, course.Taken) ∧
      modePass.scope = scopeIn modePass.blocks := by
  have hrun : ((watch processSource ((statements modeText).take 8) []
      { macros := .ofPairs [("mode".toList, "Prod".toList)] }).run.run default).1 =
        .ok (modeCourses, modePass) := by decide +kernel
  have hsummarized := ((watch_summarized modeText _ _ 8).1 World processSource default).2 _ _ hrun
  exact ⟨hrun, rfl, hsummarized.enabled_iff.1 rfl, hsummarized.scope⟩

end Pass

end Keyfile
