import Keyfile.Proofs.Utf8
import Keyfile.Template.Rendering

/-!
# Lines of a rendering

A rendering has the lines of its template, with the same endings. Only the lines below markers that
count get other contents; since a replaced line is no marker that counts, and all others stay as they
are, the same lines are replaced again when the rendering is rendered.
-/

namespace Keyfile.Template

variable {encoding : Encoding} {texts : Table} {line target : Line} {ls tail rest : List Line}
  {content bytes : Bytes} {text tag : Text} {b : UInt8}

/-- No byte ends a line. -/
structure Unbroken (bytes : Bytes) : Prop where
  feed : lineFeed ∉ bytes
  carriage : carriageReturn ∉ bytes

lemma unbroken_nil : Unbroken [] :=
  ⟨List.not_mem_nil, List.not_mem_nil⟩

lemma unbroken_cons_iff :
    Unbroken (b :: bytes) ↔ b ≠ lineFeed ∧ b ≠ carriageReturn ∧ Unbroken bytes := by
  constructor
  · rintro ⟨hfeed, hcarriage⟩
    rw [List.mem_cons, not_or] at hfeed hcarriage
    exact ⟨Ne.symm hfeed.1, Ne.symm hcarriage.1, hfeed.2, hcarriage.2⟩
  · rintro ⟨hfeed, hcarriage, hrest⟩
    exact ⟨List.not_mem_cons_of_ne_of_not_mem hfeed.symm hrest.feed,
      List.not_mem_cons_of_ne_of_not_mem hcarriage.symm hrest.carriage⟩

/-- A character is stored as one byte of its own number or as bytes beyond ASCII. -/
lemma encodeChar?_cases {c : Char} (h : encoding.encodeChar? c = some bytes) :
    (c.toNat < 256 ∧ bytes = [Encoding.byte c.toNat]) ∨
      bytes ≠ [] ∧ ∀ b ∈ bytes, 0x80 ≤ b.toNat := by
  have hvalid := Encoding.toNat_valid c
  cases encoding with
  | latin1 =>
    simp only [Encoding.encodeChar?, Option.ite_none_right_eq_some, Option.some.injEq] at h
    exact .inl ⟨h.1, h.2.symm⟩
  | ascii =>
    simp only [Encoding.encodeChar?, Option.ite_none_right_eq_some, Option.some.injEq] at h
    exact .inl ⟨by omega, h.2.symm⟩
  | utf8 =>
    obtain rfl : Encoding.utf8Bytes c = bytes := Option.some.inj h
    simp only [Encoding.utf8Bytes]
    split
    · exact .inl ⟨by omega, rfl⟩
    · right
      split
      · simp (disch := omega) [Encoding.toNat_byte]
        omega
      · split
        · simp (disch := omega) [Encoding.toNat_byte]
          omega
        · simp (disch := omega) [Encoding.toNat_byte]
          omega

/-- What a text that is put in the place of a line has to be: it has bytes, and they are some and end
no line. -/
structure Fits (encoding : Encoding) (text : Text) : Prop where
  encodable : (encoding.encode? text).isSome
  nonempty : text ≠ []
  feed : '\n' ∉ text
  carriage : '\r' ∉ text

lemma Unbroken.append {others : Bytes} (h : Unbroken bytes) (hothers : Unbroken others) :
    Unbroken (bytes ++ others) :=
  ⟨by simp [h.feed, hothers.feed], by simp [h.carriage, hothers.carriage]⟩

/-- A character that ends no line is stored as bytes that end none. -/
lemma unbroken_of_encodeChar? {c : Char} (h : encoding.encodeChar? c = some bytes) (hfeed : c ≠ '\n')
    (hcarriage : c ≠ '\r') : Unbroken bytes := by
  rcases encodeChar?_cases h with ⟨hlow, rfl⟩ | ⟨-, hhigh⟩
  · have hnumber : ∀ {b : UInt8}, b = Encoding.byte c.toNat → b.toNat = c.toNat := by
      rintro b rfl
      exact Encoding.toNat_byte hlow
    refine ⟨fun hmem => hfeed ?_, fun hmem => hcarriage ?_⟩
    · exact Char.ext (UInt32.toNat_inj.1 (hnumber (List.mem_singleton.1 hmem)).symm)
    · exact Char.ext (UInt32.toNat_inj.1 (hnumber (List.mem_singleton.1 hmem)).symm)
  · exact ⟨fun hmem => absurd (hhigh _ hmem) (by decide),
      fun hmem => absurd (hhigh _ hmem) (by decide)⟩

lemma exists_of_encode?_cons {c : Char} (h : encoding.encode? (c :: text) = some content) :
    ∃ first others, encoding.encodeChar? c = some first ∧ encoding.encode? text = some others ∧
      content = first ++ others := by
  rw [Encoding.encode?, List.mapM_cons] at h
  obtain ⟨parts, hparts, rfl⟩ := Option.map_eq_some_iff.1 h
  obtain ⟨first, hfirst, hrest⟩ := Option.bind_eq_some_iff.1 hparts
  obtain ⟨others, hothers, hparts⟩ := Option.bind_eq_some_iff.1 hrest
  obtain rfl := Option.some.inj hparts
  exact ⟨first, others.flatten, hfirst, by rw [Encoding.encode?, hothers]; rfl, rfl⟩

lemma unbroken_of_encode? (h : encoding.encode? text = some content) (hfeed : '\n' ∉ text)
    (hcarriage : '\r' ∉ text) : Unbroken content := by
  induction text generalizing content with
  | nil =>
    obtain rfl : [] = content := Option.some.inj h
    exact unbroken_nil
  | cons c text ih =>
    obtain ⟨first, others, hfirst, hothers, rfl⟩ := exists_of_encode?_cons h
    rw [List.mem_cons, not_or] at hfeed hcarriage
    exact (unbroken_of_encodeChar? hfirst (Ne.symm hfeed.1) (Ne.symm hcarriage.1)).append
      (ih hothers hfeed.2 hcarriage.2)

lemma Fits.exists_content (h : Fits encoding text) :
    ∃ content, encoding.encode? text = some content ∧ content ≠ [] ∧ Unbroken content := by
  obtain ⟨content, hcontent⟩ := Option.isSome_iff_exists.1 h.encodable
  refine ⟨content, hcontent, ?_, unbroken_of_encode? hcontent h.feed h.carriage⟩
  obtain ⟨c, rest, rfl⟩ := List.exists_cons_of_ne_nil h.nonempty
  obtain ⟨first, others, hfirst, -, rfl⟩ := exists_of_encode?_cons hcontent
  have hne : first ≠ [] := by
    rcases encodeChar?_cases hfirst with ⟨-, rfl⟩ | ⟨hne, -⟩
    · exact List.cons_ne_nil _ _
    · exact hne
  exact List.append_ne_nil_of_left_ne_nil hne others

/-- Lines as they stand below each other in a template. Only the last can be without an ending, and a
line feed below a carriage return would belong to its ending. -/
inductive Separated : List Line → Prop
  | nil : Separated []
  | last {content : Bytes} (h : Unbroken content) (hne : content ≠ []) : Separated [⟨content, []⟩]
  | feed {content : Bytes} {rest : List Line} (h : Unbroken content) (hrest : Separated rest) :
      Separated (⟨content, [lineFeed]⟩ :: rest)
  | both {content : Bytes} {rest : List Line} (h : Unbroken content) (hrest : Separated rest) :
      Separated (⟨content, [carriageReturn, lineFeed]⟩ :: rest)
  | carriage {content : Bytes} {rest : List Line} (h : Unbroken content)
      (hnext : ∀ next ∈ rest.head?, next.content = [] → next.ending ≠ [lineFeed])
      (hrest : Separated rest) : Separated (⟨content, [carriageReturn]⟩ :: rest)

lemma flatMap_extendFirst (b : UInt8) (ls : List Line) :
    (extendFirst b ls).flatMap Line.bytes = b :: ls.flatMap Line.bytes := by
  cases ls <;> rfl

lemma flatMap_lines (bytes : Bytes) : (lines bytes).flatMap Line.bytes = bytes := by
  fun_induction lines bytes with
  | case1 => rfl
  | case2 rest ih => rw [List.flatMap_cons, ih]; rfl
  | case3 others hreturn ih => rw [List.flatMap_cons, ih]; rfl
  | case4 c others hc hreturn ih => rw [List.flatMap_cons, ih]; rfl
  | case5 => rfl
  | case6 b rest hfeed hcarriage ih => rw [flatMap_extendFirst, ih]

lemma Separated.extendFirst (h : Separated ls) (hfeed : b ≠ lineFeed)
    (hcarriage : b ≠ carriageReturn) : Separated (extendFirst b ls) := by
  have hextend : ∀ {content}, Unbroken content → Unbroken (b :: content) :=
    fun hcontent => unbroken_cons_iff.2 ⟨hfeed, hcarriage, hcontent⟩
  cases h with
  | nil => exact .last (hextend unbroken_nil) (List.cons_ne_nil _ _)
  | last h => exact .last (hextend h) (List.cons_ne_nil _ _)
  | feed h hrest => exact .feed (hextend h) hrest
  | both h hrest => exact .both (hextend h) hrest
  | carriage h hnext hrest => exact .carriage (hextend h) hnext hrest

lemma separated_lines (bytes : Bytes) : Separated (lines bytes) := by
  fun_induction lines bytes with
  | case1 => exact .nil
  | case2 rest ih => exact .feed unbroken_nil ih
  | case3 others hreturn ih => exact .both unbroken_nil ih
  | case4 c others hc hreturn ih =>
    refine .carriage unbroken_nil (fun next hnext hempty hending => hc ?_) ih
    -- the first byte of the next line is not a line feed
    obtain ⟨tail, htail⟩ := List.head?_eq_some_iff.1 hnext
    have hbytes := flatMap_lines (c :: others)
    rw [htail, List.flatMap_cons, Line.bytes, hempty, hending] at hbytes
    exact (List.cons.inj hbytes).1.symm
  | case5 => exact .carriage unbroken_nil (by simp) .nil
  | case6 b rest hfeed hcarriage ih => exact ih.extendFirst hfeed hcarriage

lemma foldr_extendFirst_cons (content : Bytes) (line : Line) (rest : List Line) :
    content.foldr extendFirst (line :: rest) =
      { line with content := content ++ line.content } :: rest := by
  induction content with
  | nil => rfl
  | cons b content ih => rw [List.foldr_cons, ih]; rfl

lemma foldr_extendFirst_nil (hne : content ≠ []) :
    content.foldr extendFirst [] = [⟨content, []⟩] := by
  have hlast : content.foldr extendFirst [] =
      content.dropLast.foldr extendFirst [⟨[content.getLast hne], []⟩] := by
    conv_lhs => rw [← List.dropLast_concat_getLast hne, List.foldr_append]
    rfl
  rw [hlast, foldr_extendFirst_cons, List.dropLast_concat_getLast]

lemma lines_lineFeed (bytes : Bytes) :
    lines (lineFeed :: bytes) = ⟨[], [lineFeed]⟩ :: lines bytes := by
  rw [lines.eq_def]
  exact if_pos rfl

lemma lines_cons (hfeed : b ≠ lineFeed) (hcarriage : b ≠ carriageReturn) (bytes : Bytes) :
    lines (b :: bytes) = extendFirst b (lines bytes) := by
  rw [lines.eq_def]
  dsimp only
  rw [if_neg hfeed, if_neg hcarriage]

/-- Bytes that end no line belong to the first line of what follows. -/
lemma lines_append (h : Unbroken content) (bytes : Bytes) :
    lines (content ++ bytes) = content.foldr extendFirst (lines bytes) := by
  induction content with
  | nil => rfl
  | cons b content ih =>
    obtain ⟨hfeed, hcarriage, hcontent⟩ := unbroken_cons_iff.1 h
    rw [List.cons_append, lines_cons hfeed hcarriage, ih hcontent, List.foldr_cons]

lemma lines_carriageReturn (h : bytes.head? ≠ some lineFeed) :
    lines (carriageReturn :: bytes) = ⟨[], [carriageReturn]⟩ :: lines bytes := by
  cases bytes with
  | nil => rfl
  | cons c others =>
    have hc : c ≠ lineFeed := fun heq => h (congrArg some heq)
    rw [lines, if_neg (by decide), if_pos rfl]
    exact if_neg hc

lemma Separated.head?_flatMap_ne (h : Separated ls)
    (hnext : ∀ next ∈ ls.head?, next.content = [] → next.ending ≠ [lineFeed]) :
    (ls.flatMap Line.bytes).head? ≠ some lineFeed := by
  have hcontent : ∀ {content ending others : Bytes}, Unbroken content → content ≠ [] →
      (content ++ ending ++ others).head? ≠ some lineFeed := by
    intro content ending others h hne
    obtain ⟨b, content, rfl⟩ := List.exists_cons_of_ne_nil hne
    exact fun heq => (unbroken_cons_iff.1 h).1 (Option.some.inj heq)
  cases h with
  | nil => simp
  | last h hne => exact hcontent h hne
  | @feed content rest h hrest =>
    have hne : content ≠ [] := fun hempty => hnext _ rfl hempty rfl
    exact hcontent h hne
  | @both content rest h hrest =>
    by_cases hne : content = []
    · subst hne
      exact fun heq => absurd (Option.some.inj heq) (by decide)
    · exact hcontent h hne
  | @carriage content rest h hnext hrest =>
    by_cases hne : content = []
    · subst hne
      exact fun heq => absurd (Option.some.inj heq) (by decide)
    · exact hcontent h hne

/-- Lines that stand below each other are read back from their bytes. -/
theorem lines_flatMap (h : Separated ls) : lines (ls.flatMap Line.bytes) = ls := by
  induction h with
  | nil => rfl
  | @last content h hne =>
    have hbytes : [⟨content, []⟩].flatMap Line.bytes = content ++ [] := by simp [Line.bytes]
    rw [hbytes, lines_append h]
    exact foldr_extendFirst_nil hne
  | @feed content rest h hrest ih =>
    rw [List.flatMap_cons, Line.bytes, List.append_assoc, lines_append h, List.singleton_append,
      lines_lineFeed, ih, foldr_extendFirst_cons, List.append_nil]
  | @both content rest h hrest ih =>
    have hlines : lines ([carriageReturn, lineFeed] ++ rest.flatMap Line.bytes) =
        ⟨[], [carriageReturn, lineFeed]⟩ :: lines (rest.flatMap Line.bytes) := rfl
    rw [List.flatMap_cons, Line.bytes, List.append_assoc, lines_append h, hlines, ih,
      foldr_extendFirst_cons, List.append_nil]
  | @carriage content rest h hnext hrest ih =>
    rw [List.flatMap_cons, Line.bytes, List.append_assoc, lines_append h, List.singleton_append,
      lines_carriageReturn (hrest.head?_flatMap_ne hnext), ih, foldr_extendFirst_cons,
      List.append_nil]

/-- A line that can stand in the place of another: the line itself, or one with the same ending and
other contents. -/
inductive Line.Replaces : Line → Line → Prop
  | same (line : Line) : Replaces line line
  | other {content : Bytes} (line : Line) (h : Unbroken content) (hne : content ≠ []) :
      Replaces line { line with content }

lemma map_ending_of_replaces {others : List Line} (h : List.Forall₂ Line.Replaces ls others) :
    others.map Line.ending = ls.map Line.ending := by
  induction h with
  | nil => rfl
  | cons hline _ ih =>
    rw [List.map_cons, List.map_cons, ih]
    cases hline <;> rfl

lemma ending_ne_of_replaces {others : List Line} (h : List.Forall₂ Line.Replaces ls others)
    (hnext : ∀ next ∈ ls.head?, next.content = [] → next.ending ≠ [lineFeed]) :
    ∀ next ∈ others.head?, next.content = [] → next.ending ≠ [lineFeed] := by
  cases h with
  | nil => exact hnext
  | cons hfirst _ =>
    rintro next ⟨⟩
    cases hfirst with
    | same => exact hnext _ rfl
    | other _ _ hsome => exact fun hempty => absurd hempty hsome

/-- Lines that are replaced one by one stand below each other like those before. -/
lemma Separated.replaced {others : List Line} (h : Separated ls)
    (hlines : List.Forall₂ Line.Replaces ls others) : Separated others := by
  induction h generalizing others with
  | nil =>
    cases hlines
    exact .nil
  | last h hne =>
    obtain _ | ⟨hline, ⟨⟩⟩ := hlines
    cases hline with
    | same => exact .last h hne
    | other _ hother hsome => exact .last hother hsome
  | feed h hrest ih =>
    obtain _ | ⟨hline, hlines⟩ := hlines
    cases hline with
    | same => exact .feed h (ih hlines)
    | other _ hother _ => exact .feed hother (ih hlines)
  | both h hrest ih =>
    obtain _ | ⟨hline, hlines⟩ := hlines
    cases hline with
    | same => exact .both h (ih hlines)
    | other _ hother _ => exact .both hother (ih hlines)
  | carriage h hnext hrest ih =>
    obtain _ | ⟨hline, hlines⟩ := hlines
    have hnext := ending_ne_of_replaces hlines hnext
    cases hline with
    | same => exact .carriage h hnext (ih hlines)
    | other _ hother _ => exact .carriage hother hnext (ih hlines)

variable (encoding texts) in
/-- The text for the line below a marker: that of its tag. -/
def textBelow? (line : Line) : Option Text :=
  (tagText? encoding line).bind texts.get?

variable (encoding texts) in
/-- The text that takes the place of the line at a position: the line above is a marker that does not
itself give way to a text, and its tag has this one. -/
def replacement? (ls : List Line) : Nat → Option Text
  | 0 => none
  | n + 1 =>
    match replacement? ls n with
    | some _ => none
    | none => ls[n]?.bind (textBelow? encoding texts)

variable (encoding texts) in
/-- The texts that take the places of lines. -/
def replacements (ls : List Line) : List (Option Text) :=
  (List.range ls.length).map (replacement? encoding texts ls)

variable (encoding) in
/-- The line with a text for its contents; without a text the line as it is. -/
def Line.filled (line : Line) : Option Text → Line
  | none => line
  | some text => { line with content := (encoding.encode? text).getD [] }

variable (encoding texts) in
/-- The lines with those replaced that stand below a marker. -/
def renderedLines (ls : List Line) : List Line :=
  List.zipWith (Line.filled encoding) ls (replacements encoding texts ls)

/-- From a line on that is not replaced, nothing above counts. -/
lemma replacement?_append {above : List Line}
    (h : replacement? encoding texts (above ++ ls) above.length = none) (n : Nat) :
    replacement? encoding texts (above ++ ls) (above.length + n) =
      replacement? encoding texts ls n := by
  induction n with
  | zero => exact h
  | succ n ih =>
    rw [← Nat.add_assoc, replacement?, ih, replacement?,
      List.getElem?_append_right (Nat.le_add_right _ _), Nat.add_sub_cancel_left]

lemma replacements_append (above : List Line)
    (h : replacement? encoding texts (above ++ ls) above.length = none) :
    replacements encoding texts (above ++ ls) =
      (List.range above.length).map (replacement? encoding texts (above ++ ls)) ++
        replacements encoding texts ls := by
  rw [replacements, List.length_append, List.range_add, List.map_append, List.map_map]
  congr 1
  apply List.map_congr_left
  intro n _
  exact replacement?_append h n

lemma replacements_cons_of_none (h : textBelow? encoding texts line = none) (tail : List Line) :
    replacements encoding texts (line :: tail) = none :: replacements encoding texts tail :=
  replacements_append [line] h

lemma replacements_cons_cons_of_some (h : textBelow? encoding texts line = some text)
    (target : Line) (rest : List Line) :
    replacements encoding texts (line :: target :: rest) =
      none :: some text :: replacements encoding texts rest := by
  have hsecond : replacement? encoding texts (line :: target :: rest) 1 = some text := h
  have hthird : replacement? encoding texts (line :: target :: rest) 2 = none := by
    rw [replacement?, hsecond]
  have happend := replacements_append [line, target] hthird
  rw [← hsecond]
  exact happend

lemma renderedLines_cons_of_none (h : textBelow? encoding texts line = none) (tail : List Line) :
    renderedLines encoding texts (line :: tail) = line :: renderedLines encoding texts tail := by
  rw [renderedLines, replacements_cons_of_none h]
  rfl

lemma renderedLines_cons_cons_of_some (h : textBelow? encoding texts line = some text)
    (target : Line) (rest : List Line) :
    renderedLines encoding texts (line :: target :: rest) =
      line :: target.filled encoding (some text) :: renderedLines encoding texts rest := by
  rw [renderedLines, replacements_cons_cons_of_some h]
  rfl

lemma length_replacements (ls : List Line) :
    (replacements encoding texts ls).length = ls.length := by
  rw [replacements, List.length_map, List.length_range]

variable (encoding texts) in
lemma length_renderedLines (ls : List Line) :
    (renderedLines encoding texts ls).length = ls.length := by
  rw [renderedLines, List.length_zipWith, length_replacements, Nat.min_self]

lemma renderedLines_ne_nil (hne : ls ≠ []) : renderedLines encoding texts ls ≠ [] := by
  intro hnil
  have hlength := length_renderedLines encoding texts ls
  rw [hnil] at hlength
  exact hne (List.length_eq_zero_iff.1 hlength.symm)

variable (encoding texts) in
/-- What lines are rendered to: the bytes of the lines with those replaced that stand below a marker,
which are rendered to the same. -/
structure Renders (ls : List Line) (rendering : Rendering) : Prop where
  renders : renderLines encoding texts ls = some rendering
  content : rendering.content = (renderedLines encoding texts ls).flatMap Line.bytes
  replaced : rendering.replaced = (replacements encoding texts ls).countP Option.isSome
  again : renderLines encoding texts (renderedLines encoding texts ls) = some rendering

/-- A line that is no marker, or a marker of an unknown tag, is kept before what the lines below it
are rendered to. -/
lemma exists_renderLines_cons (h : textBelow? encoding texts line = none) :
    ∃ keep : Rendering → Rendering,
      (∀ rendering, (keep rendering).content = line.bytes ++ rendering.content ∧
        (keep rendering).replaced = rendering.replaced) ∧
      ∀ tail, tail ≠ [] → renderLines encoding texts (line :: tail) =
        (renderLines encoding texts tail).map keep := by
  cases htag : tagText? encoding line with
  | none =>
    refine ⟨(·.prepend line.bytes), fun _ => ⟨rfl, rfl⟩, fun tail hne => ?_⟩
    obtain ⟨target, rest, rfl⟩ := List.exists_cons_of_ne_nil hne
    rw [renderLines, htag]
  | some tag =>
    have hunknown : texts.get? tag = none := by
      rw [textBelow?, htag] at h
      exact h
    refine ⟨fun rendering => { rendering.prepend line.bytes with
      unknown := tag :: rendering.unknown }, fun _ => ⟨rfl, rfl⟩, fun tail hne => ?_⟩
    obtain ⟨target, rest, rfl⟩ := List.exists_cons_of_ne_nil hne
    rw [renderLines, htag]
    dsimp only
    rw [hunknown]

lemma renderLines_cons_cons (h : textBelow? encoding texts line = some text)
    (hcontent : encoding.encode? text = some content) (target : Line) (rest : List Line) :
    renderLines encoding texts (line :: target :: rest) =
      (renderLines encoding texts rest).map fun rendering =>
        { rendering.prepend (line.bytes ++ content ++ target.ending) with
          replaced := rendering.replaced + 1 } := by
  obtain ⟨tag, htag, htext⟩ := Option.bind_eq_some_iff.1 h
  rw [renderLines, htag]
  dsimp only
  rw [htext]
  dsimp only
  rw [hcontent]
  cases renderLines encoding texts rest <;> rfl

lemma Renders.exists_cons {rendering : Rendering} (h : Renders encoding texts tail rendering)
    (hbelow : textBelow? encoding texts line = none) (hne : tail ≠ []) :
    ∃ rendering, Renders encoding texts (line :: tail) rendering := by
  obtain ⟨keep, hkeep, hcons⟩ := exists_renderLines_cons hbelow
  refine ⟨keep rendering, ?_, ?_, ?_, ?_⟩
  · rw [hcons tail hne, h.renders, Option.map_some]
  · rw [(hkeep rendering).1, h.content, renderedLines_cons_of_none hbelow, List.flatMap_cons]
  · rw [(hkeep rendering).2, h.replaced, replacements_cons_of_none hbelow,
      List.countP_cons_of_neg (by simp)]
  · rw [renderedLines_cons_of_none hbelow, hcons _ (renderedLines_ne_nil hne), h.again,
      Option.map_some]

lemma Renders.exists_cons_cons {rendering : Rendering} (h : Renders encoding texts rest rendering)
    (hbelow : textBelow? encoding texts line = some text)
    (hcontent : encoding.encode? text = some content) (target : Line) :
    ∃ rendering, Renders encoding texts (line :: target :: rest) rendering := by
  have hcons := renderLines_cons_cons hbelow hcontent
  refine ⟨{ rendering.prepend (line.bytes ++ content ++ target.ending) with
    replaced := rendering.replaced + 1 }, ?_, ?_, ?_, ?_⟩
  · rw [hcons target rest, h.renders, Option.map_some]
  · rw [renderedLines_cons_cons_of_some hbelow, List.flatMap_cons, List.flatMap_cons, ← h.content]
    simp [Line.filled, Line.bytes, hcontent, Rendering.prepend]
  · rw [replacements_cons_cons_of_some hbelow, List.countP_cons_of_neg (by simp),
      List.countP_cons_of_pos (by simp), ← h.replaced]
  · rw [renderedLines_cons_cons_of_some hbelow, hcons, h.again, Option.map_some]
    rfl

lemma exists_renders (hfits : ∀ tag text, texts.get? tag = some text → Fits encoding text)
    (ls : List Line) : ∃ rendering, Renders encoding texts ls rendering := by
  induction ls using renderLines.induct encoding texts with
  | case1 => exact ⟨.nothing, rfl, rfl, rfl, rfl⟩
  | case2 line =>
    have hkept : renderedLines encoding texts [line] = [line] := rfl
    exact ⟨⟨line.bytes, 0, []⟩, rfl, by simp [hkept], rfl, rfl⟩
  | case3 line target rest htag ih =>
    obtain ⟨rendering, h⟩ := ih
    exact h.exists_cons (by rw [textBelow?, htag]; rfl) (List.cons_ne_nil _ _)
  | case4 line target rest tag htag hunknown ih =>
    obtain ⟨rendering, h⟩ := ih
    exact h.exists_cons (by rw [textBelow?, htag]; exact hunknown) (List.cons_ne_nil _ _)
  | case5 line target rest tag htag text htext ih =>
    obtain ⟨rendering, h⟩ := ih
    obtain ⟨content, hcontent, -⟩ := (hfits tag text htext).exists_content
    exact h.exists_cons_cons (by rw [textBelow?, htag]; exact htext) hcontent target

/-- A text comes in only as the text of a tag. -/
lemma exists_tag_of_mem_replacements (h : some text ∈ replacements encoding texts ls) :
    ∃ tag, texts.get? tag = some text := by
  obtain ⟨n, -, hn⟩ := List.mem_map.1 h
  cases n with
  | zero => cases hn
  | succ n =>
    rw [replacement?] at hn
    split at hn
    · cases hn
    · obtain ⟨line, -, hline⟩ := Option.bind_eq_some_iff.1 hn
      obtain ⟨tag, -, htag⟩ := Option.bind_eq_some_iff.1 hline
      exact ⟨tag, htag⟩

lemma replaces_renderedLines (hfits : ∀ tag text, texts.get? tag = some text → Fits encoding text)
    (ls : List Line) : List.Forall₂ Line.Replaces ls (renderedLines encoding texts ls) := by
  have hfilled : ∀ (ls : List Line) (given : List (Option Text)), given.length = ls.length →
      (∀ text, some text ∈ given → Fits encoding text) →
      List.Forall₂ Line.Replaces ls (List.zipWith (Line.filled encoding) ls given) := by
    intro ls given
    induction ls generalizing given with
    | nil => exact fun _ _ => .nil
    | cons line rest ih =>
      intro hlength hgiven
      obtain ⟨first, given, rfl⟩ := List.exists_cons_of_length_pos (by rw [hlength]; simp)
      refine .cons ?_ (ih given (by simpa using hlength) fun text htext =>
        hgiven text (List.mem_cons_of_mem _ htext))
      cases first with
      | none => exact .same line
      | some text =>
        obtain ⟨content, hcontent, hne, hunbroken⟩ := (hgiven text List.mem_cons_self).exists_content
        rw [Line.filled, hcontent]
        exact .other line hunbroken hne
  apply hfilled ls _ (length_replacements ls)
  intro text htext
  obtain ⟨tag, htag⟩ := exists_tag_of_mem_replacements htext
  exact hfits tag text htag

/-- Rendering changes only the lines that stand below markers that count: they get the bytes of their
texts for contents, all others stay as they are, and every line keeps its ending. It counts the lines
that it changes, and rendering what was rendered gives the same again. -/
theorem render_of_fits (encoding : Encoding) (texts : Table)
    (hfits : ∀ tag text, texts.get? tag = some text → Fits encoding text) (template : Bytes) :
    ∃ rendering, render encoding texts template = some rendering ∧
      lines rendering.content = renderedLines encoding texts (lines template) ∧
      (lines rendering.content).map Line.ending = (lines template).map Line.ending ∧
      rendering.replaced =
        (replacements encoding texts (lines template)).countP Option.isSome ∧
      render encoding texts rendering.content = some rendering := by
  obtain ⟨rendering, h⟩ := exists_renders hfits (lines template)
  have hreplaces := replaces_renderedLines hfits (lines template)
  have hlines : lines rendering.content = renderedLines encoding texts (lines template) := by
    rw [h.content]
    exact lines_flatMap ((separated_lines template).replaced hreplaces)
  refine ⟨rendering, h.renders, hlines, ?_, h.replaced, ?_⟩
  · rw [hlines]
    exact map_ending_of_replaces hreplaces
  · rw [render, hlines]
    exact h.again

/-- Texts of two tags, of which the first looks like a marker of the second. -/
def tagTexts : Table :=
  .ofPairs [("first".toList, "// $replace(second)".toList), ("Second".toList, "new".toList)]

/-- Markers below markers, of an unknown tag and above the last line, and line endings of all kinds. -/
def markedTemplate : Bytes :=
  ("// $replace(first)\r// $replace(second)\r\n// $REPLACE( SECOND )\n\r".toList ++
    "//$replace(third)\n\n// $replace(second)\r\nlast".toList).flatMap Encoding.utf8Bytes

lemma fits_tagTexts (tag text : Text) (h : tagTexts.get? tag = some text) : Fits .utf8 text := by
  obtain ⟨entry, hentry, rfl⟩ := Option.map_eq_some_iff.1 h
  have hfits : ∀ entry ∈ tagTexts.entries, (Encoding.utf8.encode? entry.2).isSome ∧
      entry.2 ≠ [] ∧ '\n' ∉ entry.2 ∧ '\r' ∉ entry.2 := by decide
  obtain ⟨hencodable, hnonempty, hfeed, hcarriage⟩ := hfits entry (List.mem_of_find?_eq_some hentry)
  exact ⟨hencodable, hnonempty, hfeed, hcarriage⟩

/-- The marker that was put in is no marker that counts, and the last line gets no ending. -/
theorem render_markedTemplate :
    ∃ rendering, render .utf8 tagTexts markedTemplate = some rendering ∧
      lines rendering.content = renderedLines .utf8 tagTexts (lines markedTemplate) ∧
      replacements .utf8 tagTexts (lines markedTemplate) =
        [none, some "// $replace(second)".toList, none, some "new".toList, none, none, none,
          some "new".toList] ∧
      rendering.replaced = 3 ∧ render .utf8 tagTexts rendering.content = some rendering := by
  have hcount : replacements .utf8 tagTexts (lines markedTemplate) =
      [none, some "// $replace(second)".toList, none, some "new".toList, none, none, none,
        some "new".toList] := by
    decide +kernel
  obtain ⟨rendering, hrender, hlines, -, hreplaced, hagain⟩ :=
    render_of_fits .utf8 tagTexts fits_tagTexts markedTemplate
  refine ⟨rendering, hrender, hlines, hcount, ?_, hagain⟩
  rw [hreplaced, hcount]
  rfl

end Keyfile.Template
