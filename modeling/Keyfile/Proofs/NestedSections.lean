import Keyfile.Proofs.Layers
import Keyfile.Proofs.SectionFrames
import Keyfile.Proofs.SectionViews
import Keyfile.Proofs.UntakenBranches

/-!
# Nested and dotted sections

Joining keys is associative for names that joining leaves as they are. So two sections, one inside
the other, give the lines inside them the scope of the one section with both names, and an entry in
them is the entry with both names in front of its key.
-/

namespace Keyfile

open Text

namespace Nesting

lemma depthAfter?_of_next {line : Nat} {openings after : List Opening} {statement : Statement}
    (h : next line openings statement = some after) :
    statement.depthAfter? openings.length = some after.length := by
  cases statement with
  | unknown text => cases h
  | entry key value =>
    cases h
    rfl
  | directive word argument =>
    cases word with
    | define | set | undefine | ifBegin =>
      cases h
      rfl
    | switchBegin | sectionBegin =>
      unfold next direct at h
      dsimp only at h
      split at h
      · cases h
      · cases h
        rfl
    | ifElse | switchCase | switchDefault =>
      rcases openings with _ | ⟨⟨_, _ | _⟩ | ⟨_, _ | _⟩ | _, rest⟩ <;> cases h
      rfl
    | ifEnd | switchEnd | sectionEnd =>
      rcases openings with _ | ⟨_ | _ | _, rest⟩ <;> cases h
      rfl

lemma closesOwn_of_fault? {openings : List Opening} {numbered : List (Nat × Statement)}
    (h : fault? openings numbered = none) : closesOwn openings.length numbered = true := by
  induction numbered generalizing openings with
  | nil =>
    cases openings with
    | nil => rfl
    | cons opening rest => cases h
  | cons first rest ih =>
    obtain ⟨line, statement⟩ := first
    rw [fault?] at h
    cases hnext : next line openings statement with
    | none =>
      rw [hnext] at h
      cases h
    | some after =>
      rw [hnext] at h
      rw [closesOwn, depthAfter?_of_next hnext]
      exact ih h

end Nesting

/-- Lines that keep all rules of the blocks close what they open, and nothing else. -/
lemma Balanced.enclosed {lines : List Text} (h : Balanced lines) : Enclosed lines where
  blocks := by
    have hfault : Nesting.fault? [] (gather none 1 lines) = none := by
      rw [← Nesting.check?_eq_fault?_gather none 1 lines []]
      exact h.nested
    exact Nesting.closesOwn_of_fault? hfault
  values := h.closed

namespace Key

variable {name key : Text}

/-- A scope stands in front of every key of its own in the same way, if it is not passed over. -/
lemma exists_join_eq (scope : Option Text) :
    ∃ before, ∀ key, OwnKey key → join scope (some key) = some (before ++ key) := by
  cases scope with
  | none => exact ⟨[], fun key hkey => by simp [join, withoutInitialPeriod_eq_self hkey.start]⟩
  | some outer =>
    cases hblank : isAllBlank (withoutFinalPeriod outer) with
    | true =>
      exact ⟨[], fun key hkey => by
        simp [join, hblank, withoutInitialPeriod_eq_self hkey.start]⟩
    | false =>
      exact ⟨withoutFinalPeriod outer ++ ['.'], fun key hkey => by
        simp [join, hblank, withoutInitialPeriod_eq_self hkey.start, hkey.solid]⟩

/-- Joining is associative where no period and no blank is dropped in the middle. -/
lemma join_join (hname : SectionName name) (hkey : OwnKey key) (scope : Option Text) :
    join (join scope (some name)) (some key) = join scope (some (name ++ '.' :: key)) := by
  obtain ⟨before, hbefore⟩ := exists_join_eq scope
  have hfinal : withoutFinalPeriod (before ++ name) = before ++ name := by
    rw [withoutFinalPeriod, List.getLast?_append_of_ne_nil _ hname.ne_nil, if_neg hname.unended]
  have hsolid : isAllBlank (before ++ name) = false := by
    rw [isAllBlank, List.all_append, ← isAllBlank, ← isAllBlank, hname.ownKey.solid,
      Bool.and_false]
  rw [hbefore name hname.ownKey, hbefore _ (hname.ownKey_append _)]
  simp [join, hfinal, hsolid, withoutInitialPeriod_eq_self hkey.start, hkey.solid]

/-- A key in a section has the full name of the key with the section's name in front. -/
lemma qualify_join (hname : SectionName name) (hkey : OwnKey key) (scope : Option Text) :
    qualify (join scope (some name)) key = qualify scope (name ++ '.' :: key) := by
  obtain ⟨before, hbefore⟩ := exists_join_eq scope
  have hne : before ++ (name ++ '.' :: key) ≠ [] := by simp
  rw [qualify, qualify, join_join hname hkey, hbefore _ (hname.ownKey_append _)]
  split
  · rename_i heq
    exact absurd (Option.some.inj heq) hne
  · rfl
  · rename_i heq
    cases heq

end Key

def sectionLine (name : Text) : Text :=
  '#' :: (Directive.sectionBegin.word ++ ' ' :: name)

def sectionEndLine : Text :=
  '#' :: Directive.sectionEnd.word

/-- Lines with the directives of a section around them. -/
def inSection (name : Text) (lines : List Text) : List Text :=
  sectionLine name :: (lines ++ [sectionEndLine])

lemma ofText_sectionLine {name : Text} (h : SectionName name) :
    Statement.Line.ofText (trim (sectionLine name)) =
      .statement (.directive .sectionBegin name) := by
  have htrim : trim (sectionLine name) = sectionLine name := by
    have hline : sectionLine name = ('#' :: Directive.sectionBegin.word ++ [' ']) ++ name := by
      simp [sectionLine]
    rw [hline, trim_append_of_start rfl (trimStart_eq_self h.trimmed) h.ne_nil, h.trimmed]
  have hword : firstWord (Directive.sectionBegin.word ++ ' ' :: name) =
      some (Directive.sectionBegin.word, trim (' ' :: name)) := by
    have hsolid : (Directive.sectionBegin.word.all fun c => isBlank c == false) = true := rfl
    refine firstWord_append (by decide) (fun c hc => ?_) (fun c hc => ?_)
    · exact beq_iff_eq.1 (List.all_eq_true.1 hsolid c hc)
    · obtain rfl : ' ' = c := Option.some.inj hc
      rfl
  have hargument : trim (' ' :: name) = name := h.trimmed
  rw [htrim, sectionLine, Statement.Line.ofText_sign, Statement.ofDirectiveLine, hword, hargument]
  rfl

lemma ofText_sectionEndLine :
    Statement.Line.ofText (trim sectionEndLine) = .statement (.directive .sectionEnd []) := by
  rfl

/-- The key of an entry line is trimmed, so it is blank only when it is empty. -/
lemma ownKey_of_ofText_entry {line key value : Text}
    (h : Statement.Line.ofText line = .statement (.entry key value)) (hne : key ≠ [])
    (hstart : key.head? ≠ some '.') : OwnKey key := by
  obtain ⟨found, after, -, htrim, -, -⟩ := Statement.Line.cutAt_of_ofText_entry h
  obtain ⟨c, rest, rfl⟩ := List.exists_cons_of_ne_nil hne
  exact ⟨hstart, by simp [isAllBlank, isBlank_of_trim_eq_cons htrim]⟩

lemma gather_statement {line : Text} {statement : Statement}
    (h : Statement.Line.ofText (trim line) = .statement statement) (number : Nat)
    (rest : List Text) :
    gather none number (line :: rest) = (number, statement) :: gather none (number + 1) rest := by
  rw [gather, h]

lemma isComment_append_period {name : Text} (h : isComment name = false) (hne : name ≠ [])
    (rest : Text) : isComment (name ++ '.' :: rest) = false := by
  rcases name with _ | ⟨c, _ | ⟨d, name⟩⟩
  · exact absurd rfl hne
  · simpa [isComment, List.isPrefixOf] using h
  · exact h

/-- An entry line is still one with a name in front of it, which then stands in front of its key. -/
lemma ofText_below_name {name line key value : Text} (hname : SectionName name)
    (hsign : name.head? ≠ some '#') (hcomment : isComment name = false) (hequals : '=' ∉ name)
    (hline : Statement.Line.ofText (trim line) = .statement (.entry key value)) :
    Statement.Line.ofText (trim (name ++ '.' :: trimStart line)) =
      .statement (.entry (name ++ '.' :: key) value) := by
  obtain ⟨found, after, hcut, rfl, rfl, hinline⟩ := Statement.Line.cutAt_of_ofText_entry hline
  obtain ⟨hparts, hmark⟩ := cutAt_eq_some_iff.1 hcut
  have hstart : trimStart name = name := trimStart_eq_self hname.trimmed
  have htrim : ∀ t, trimStart t = t → trim (name ++ '.' :: t) = name ++ '.' :: trim t := by
    intro t ht
    rw [trim_append_cons (by decide), hstart, trim, ht]
  have hfound : trimStart found = found := by
    rw [trimStart_eq_self_iff]
    intro c hc
    obtain ⟨rest, rfl⟩ := List.head?_eq_some_iff.1 hc
    exact isBlank_of_trim_eq_cons hparts
  have hfirst : trimStart (trimStart line) = trimStart line := List.dropWhile_idempotent _ _
  have hcutBoth : cutAt '=' (name ++ '.' :: trim line) = some (name ++ '.' :: found, after) := by
    rw [cutAt_eq_some_iff, hparts]
    exact ⟨by simp, by simp [hequals, hmark]⟩
  have hhead : (name ++ '.' :: trim line).head? ≠ some '#' := by
    rwa [List.head?_append_of_ne_nil _ hname.ne_nil]
  rw [htrim _ hfirst, trim_trimStart, Statement.Line.ofText_of_cutAt
    (isComment_append_period hcomment hname.ne_nil _) hhead hcutBoth, Statement.Line.ofParts,
    if_neg (by simp [hinline]), htrim found hfound]

namespace Pass

variable {m : Type → Type} [Monad m] [LawfulMonad m] [Journal m] (external : Source m)
  (pass : Pass) (number : Nat) (rest : List Text)

/-- The pass inside of a section that begins at a line. -/
def within (name : Text) : Pass :=
  { pass.push (.sectionBlock ⟨pass.enabled, pass.scope, name, number⟩) with
    scope := Key.join pass.scope (some name) }

lemma run_sectionLine {name : Text} (hname : SectionName name)
    (hindex : ¬Key.autoIndex <:+: name) :
    Pass.run external (gather none number (sectionLine name :: rest)) pass =
      Pass.run external (gather none (number + 1) rest) (pass.within number name) := by
  have hbegin : pass.beginSection number name = .ok (pass.within number name) := by
    rw [beginSection, if_neg hname.ne_nil, if_neg (by rwa [Text.includes_iff])]
    rfl
  have hstep : pass.step external number (.directive .sectionBegin name) =
      (pure (pass.within number name) : ExceptT LoadError m Pass) := by
    rw [step, direct, hbegin]
    exact checked_ok number _
  rw [gather_statement (ofText_sectionLine hname), Pass.run, hstep, pure_bind]

/-- The end of a section gives back what its block remembers. -/
lemma run_sectionEndLine {block : SectionBlock} {outer : List Block}
    (hblocks : pass.blocks = .sectionBlock block :: outer) :
    Pass.run external (gather none number (sectionEndLine :: rest)) pass =
      Pass.run external (gather none (number + 1) rest)
        { pass with blocks := outer, scope := block.outerScope } := by
  have hstep : pass.step external number (.directive .sectionEnd []) =
      (pure { pass with blocks := outer, scope := block.outerScope } :
        ExceptT LoadError m Pass) := by
    rw [step, direct, endSection, hblocks]
    exact checked_ok number _
  rw [gather_statement ofText_sectionEndLine, Pass.run, hstep, pure_bind]

/-- Lines that close what they open come to the same in any section around them. -/
lemma run_enclosed {body : List Text} (hbody : Enclosed body) {inner : SectionBlock}
    {base : List Block} (hbase : Replaces inner base) {start : Pass}
    (hstart : Inside inner 0 start) :
    Pass.run external (gather none (number + 1) (body ++ rest)) (start.moved number base) =
      ExceptT.adapt (LoadError.below number) (Pass.run external (gather none 1 body) start) >>=
        fun next => Pass.run external (gather none (number + 1 + body.length) rest)
          { next with blocks := base } := by
  have hclosed : leavesOpen (none : Option OpenValue).isSome body = false := hbody.values
  have hbelow : gather none (number + 1) body =
      (gather none 1 body).map (Statement.below number) := by
    rw [Nat.add_comm]
    exact gather_below number none 1 body
  rw [gather_append rest hclosed, run_append, hbelow, run_moved number external hstart hbase
    hbody.blocks, adapt_map, bind_map_left]
  apply ((always_inside_run external hstart hbody.blocks).adapt _).bind_eq
  rintro ⟨blocks, scope, macros, store⟩ ⟨top, rfl : blocks = _, htop⟩
  obtain rfl := List.length_eq_zero_iff.1 htop
  rw [moved_mk]
  rfl

/-- A section inside a section is the section of the joined names. -/
lemma run_sections {a b : Text} (ha : SectionName a) (hb : SectionName b)
    (haIndex : ¬Key.autoIndex <:+: a) (hbIndex : ¬Key.autoIndex <:+: b) {body : List Text}
    (hbody : Enclosed body) :
    Pass.run external (gather none number (inSection a (inSection b body))) pass =
      ExceptT.adapt (LoadError.below 1)
        (Pass.run external (gather none number (inSection (a ++ '.' :: b) body)) pass) := by
  have habIndex : ¬Key.autoIndex <:+: a ++ '.' :: b :=
    fun h => (Key.infix_append_period h).elim haIndex hbIndex
  -- the block of the joined names, and the two blocks that stand in its place
  let joined : SectionBlock := ⟨pass.enabled, pass.scope, a ++ '.' :: b, number⟩
  let outer : SectionBlock := ⟨pass.enabled, pass.scope, a, number⟩
  let middle : SectionBlock := ⟨pass.enabled, Key.join pass.scope (some a), b, number + 1⟩
  let start : Pass := { pass with
    blocks := [.sectionBlock joined]
    scope := Key.join pass.scope (some (a ++ '.' :: b)) }
  have hstart : Inside joined 0 start := ⟨[], rfl, rfl⟩
  have hone : Replaces joined (.sectionBlock joined :: pass.blocks) := ⟨joined, _, rfl, rfl⟩
  have htwo : Replaces joined (.sectionBlock middle :: .sectionBlock outer :: pass.blocks) :=
    ⟨middle, _, rfl, rfl⟩
  have hnested : (pass.within number a).within (number + 1) b =
      start.moved (number + 1) (.sectionBlock middle :: .sectionBlock outer :: pass.blocks) :=
    congrArg (fun scope => (⟨_, scope, _, _⟩ : Pass)) (Key.join_join ha hb.ownKey pass.scope)
  have hdotted : pass.within number (a ++ '.' :: b) =
      start.moved number (.sectionBlock joined :: pass.blocks) := rfl
  rw [inSection, inSection, inSection, List.cons_append, List.append_assoc,
    run_sectionLine external _ _ _ ha haIndex, run_sectionLine external _ _ _ hb hbIndex, hnested,
    run_enclosed external _ _ hbody htwo hstart, List.singleton_append,
    run_sectionLine external _ _ _ (ha.append hb) habIndex, hdotted,
    run_enclosed external _ _ hbody hone hstart, adapt_bind, adapt_adapt]
  simp only [LoadError.below_below]
  apply bind_congr
  intro next
  rw [run_sectionEndLine external _ _ _ rfl, run_sectionEndLine external _ _ _ rfl,
    run_sectionEndLine external _ _ _ rfl]
  exact (adapt_pure _ _).symm

lemma run_entryLine {line key value : Text}
    (hline : Statement.Line.ofText (trim line) = .statement (.entry key value)) (hkey : key ≠ []) :
    Pass.run external (gather none number (line :: rest)) pass =
      Pass.run external (gather none (number + 1) rest)
        (if pass.enabled then pass.enter key value else pass) := by
  have hstep : pass.step external number (.entry key value) =
      (pure (if pass.enabled then pass.enter key value else pass) :
        ExceptT LoadError m Pass) := by
    rw [step]
    cases pass.enabled <;> simp [hkey]
  rw [gather_statement hline, Pass.run, hstep, pure_bind]

/-- An entry in a section leaves the store as the entry under its name below the section does. -/
lemma enter_within {name key : Text} (hname : SectionName name) (hkey : OwnKey key)
    (value : Text) :
    { (pass.within number name).enter key value with blocks := pass.blocks, scope := pass.scope } =
      pass.enter (name ++ '.' :: key) value := by
  rw [enter_eq, enter_eq, ← Key.qualify_join hname hkey]
  rfl

/-- An entry line in a section is the line with the section's name in front. -/
lemma run_section_entryLine {name line key value : Text} (hname : SectionName name)
    (hindex : ¬Key.autoIndex <:+: name) (hsign : name.head? ≠ some '#')
    (hcomment : isComment name = false) (hequals : '=' ∉ name)
    (hline : Statement.Line.ofText (trim line) = .statement (.entry key value))
    (hkey : OwnKey key) :
    Pass.run external (gather none number (inSection name [line])) pass =
      Pass.run external (gather none number [name ++ '.' :: trimStart line]) pass := by
  have hne : key ≠ [] := by
    rintro rfl
    cases hkey.solid
  have hnamed : name ++ '.' :: key ≠ [] := by simp
  have htext := ofText_below_name hname hsign hcomment hequals hline
  rw [inSection, List.singleton_append, run_sectionLine external _ _ _ hname hindex,
    run_entryLine external _ _ _ hline hne,
    run_entryLine external _ _ _ htext hnamed]
  cases henabled : pass.enabled with
  | true =>
    have hwithin : (pass.within number name).enabled = true := henabled
    rw [if_pos hwithin, run_sectionEndLine external _ _ _ rfl]
    exact congrArg pure (enter_within pass number hname hkey value)
  | false =>
    have hwithin : (pass.within number name).enabled = false := henabled
    rw [if_neg (by simp [hwithin]), run_sectionEndLine external _ _ _ rfl]
    rfl

lemma enclosed_entryLine {line key value : Text}
    (h : Statement.Line.ofText (trim line) = .statement (.entry key value)) : Enclosed [line] where
  blocks := by
    rw [gather_statement h]
    rfl
  values := by
    rw [leavesOpen, opensValue, h]
    rfl

/-- Lines in a section inside a section come to the same as in the section of the joined names,
where they stand one line higher. An entry line in both comes to the same as the line with both
names in front of its key, outside of these sections. -/
theorem run_inSection_inSection (external : Source m) (pass : Pass) (number : Nat) {a b : Text}
    (ha : SectionName a) (hb : SectionName b) (haIndex : ¬Key.autoIndex <:+: a)
    (hbIndex : ¬Key.autoIndex <:+: b) :
    (∀ body, Enclosed body →
      Pass.run external (gather none number (inSection a (inSection b body))) pass =
        ExceptT.adapt (LoadError.below 1)
          (Pass.run external (gather none number (inSection (a ++ '.' :: b) body)) pass)) ∧
      (a.head? ≠ some '#' → isComment a = false → '=' ∉ a → '=' ∉ b → ∀ line key value,
        Statement.Line.ofText (trim line) = .statement (.entry key value) → key ≠ [] →
        key.head? ≠ some '.' →
          Pass.run external (gather none number (inSection a (inSection b [line]))) pass =
              Pass.run external (gather none number [(a ++ '.' :: b) ++ '.' :: trimStart line])
                pass ∧
            Pass.run external (gather none number (inSection (a ++ '.' :: b) [line])) pass =
              Pass.run external (gather none number [(a ++ '.' :: b) ++ '.' :: trimStart line])
                pass) := by
  refine ⟨fun body hbody => run_sections external pass number ha hb haIndex hbIndex hbody,
    fun hsign hcomment haEquals hbEquals line key value hline hne hstart => ?_⟩
  have habIndex : ¬Key.autoIndex <:+: a ++ '.' :: b :=
    fun h => (Key.infix_append_period h).elim haIndex hbIndex
  have habSign : (a ++ '.' :: b).head? ≠ some '#' := by
    rwa [List.head?_append_of_ne_nil _ ha.ne_nil]
  have habEquals : '=' ∉ a ++ '.' :: b := by simp [haEquals, hbEquals]
  have hkey := ownKey_of_ofText_entry hline hne hstart
  have hdotted := run_section_entryLine external pass number (ha.append hb) habIndex habSign
    (isComment_append_period hcomment ha.ne_nil b) habEquals hline hkey
  have htext := ofText_below_name (ha.append hb) habSign
    (isComment_append_period hcomment ha.ne_nil b) habEquals hline
  have hnamed : (a ++ '.' :: b) ++ '.' :: key ≠ [] := by simp
  refine ⟨?_, hdotted⟩
  -- the entry comes to no error, so there is none that could name another line
  rw [run_sections external pass number ha hb haIndex hbIndex (enclosed_entryLine hline), hdotted,
    run_entryLine external _ _ _ htext hnamed]
  exact adapt_pure _ _

/-- Lines with all kinds of blocks. -/
def poolLines : List Text :=
  ["#define size 4", "#if size", "#section limits", "max[-] = %size%", "#endsection", "#endif",
    "#switch size", "#case 4", "note = \x7b\x7b", "four", "\x7d\x7d",
    "#endswitch"].map String.toList

/-- A pass in a section, behind two lines. -/
def pastOpener : Pass where
  blocks := [.sectionBlock ⟨true, none, "site".toList, 2⟩]
  scope := some "site".toList

/-- The lines are carried out, or refused at the last of them when it has no conditional. -/
theorem run_inSection_poolLines :
    ((Pass.run .silent (gather none 3 (inSection "db".toList (inSection "Main".toList
        poolLines))) pastOpener : ExceptT LoadError Id Pass).run.run = .ok { pastOpener with
          macros := ⟨[("size".toList, "4".toList)]⟩
          store.items := ⟨[("site.db.Main.note".toList, "four".toList)]⟩
          store.queues := [⟨"site.db.Main.limits.max".toList, ["%size%".toList]⟩]
          store.explicit := ["site.db.main.note".toList] }) ∧
      (Pass.run .silent (gather none 3 (inSection "db".toList (inSection "Main".toList
        (poolLines ++ ["#else".toList])))) pastOpener : ExceptT LoadError Id Pass).run.run =
        .error (.at_ 17 (.openerMissing Directive.ifElse.word Directive.ifBegin.word)) ∧
      (Pass.run .silent (gather none 3 (inSection "db".toList (inSection "Main".toList
        [" port = 80".toList]))) pastOpener : ExceptT LoadError Id Pass) =
        Pass.run .silent (gather none 3 ["db.Main.port = 80".toList]) pastOpener := by
  have hbalanced : Balanced poolLines := ⟨by decide +kernel, by decide +kernel⟩
  have hrefused : Enclosed (poolLines ++ ["#else".toList]) :=
    ⟨by decide +kernel, by decide +kernel⟩
  obtain ⟨hsections, hentries⟩ := run_inSection_inSection (.silent : Source Id) pastOpener 3
    (by decide +kernel : SectionName "db".toList) (by decide +kernel : SectionName "Main".toList)
    (by decide +kernel) (by decide +kernel)
  refine ⟨?_, ?_, ?_⟩
  · rw [hsections _ hbalanced.enclosed]
    decide +kernel
  · rw [hsections _ hrefused]
    decide +kernel
  · exact (hentries (by decide +kernel) (by decide +kernel) (by decide +kernel)
      (by decide +kernel) _ "port".toList "80".toList (by decide +kernel) (by decide +kernel)
      (by decide +kernel)).1

end Pass

end Keyfile
