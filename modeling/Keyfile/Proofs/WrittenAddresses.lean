import Keyfile.Proofs.SavedLines
import Keyfile.Proofs.WrittenNumbers

/-!
# Addresses read back from their texts

Parts with a mark between them are found again where they are joined. A short address is read back
from its four numbers. A long one is read back from its groups, whichever run of zero groups its
text leaves out, and from a zone behind them.
-/

namespace Keyfile

namespace Text

variable {mark c : Char} {t : Text} {parts : List Text}

lemma cutAt_of_notMem (h : mark ∉ t) : cutAt mark t = none := by
  induction t with
  | nil => rfl
  | cons c rest ih =>
    obtain ⟨hc, hrest⟩ : mark ≠ c ∧ mark ∉ rest := by simpa using h
    rw [cutAt, if_neg hc.symm, ih hrest, Option.map_none]

lemma splitAt_ne_nil (mark : Char) (t : Text) : splitAt mark t ≠ [] := by
  cases t with
  | nil => exact List.cons_ne_nil _ _
  | cons c rest =>
    rw [splitAt]
    split
    · exact List.cons_ne_nil _ _
    · split <;> exact List.cons_ne_nil _ _

lemma splitAt_append_cons (mark : Char) (s t : Text) :
    splitAt mark (s ++ mark :: t) = splitAt mark s ++ splitAt mark t := by
  induction s with
  | nil => simp [splitAt]
  | cons c rest ih =>
    rw [List.cons_append, splitAt, splitAt, ih]
    split
    · rfl
    · obtain ⟨part, parts, hparts⟩ := List.exists_cons_of_ne_nil (splitAt_ne_nil mark rest)
      rw [hparts]
      rfl

lemma splitAt_of_notMem (h : mark ∉ t) : splitAt mark t = [t] := by
  induction t with
  | nil => rfl
  | cons c rest ih =>
    obtain ⟨hc, hrest⟩ : mark ≠ c ∧ mark ∉ rest := by simpa using h
    rw [splitAt, if_neg hc.symm, ih hrest]

/-- Parts that are joined by a mark are the parts between the marks. -/
lemma splitAt_join (hne : parts ≠ []) (h : ∀ part ∈ parts, mark ∉ part) :
    splitAt mark (join [mark] parts) = parts := by
  induction parts with
  | nil => exact absurd rfl hne
  | cons part parts ih =>
    obtain ⟨hpart, hparts⟩ := List.forall_mem_cons.1 h
    cases parts with
    | nil => exact splitAt_of_notMem hpart
    | cons second others =>
      rw [join_cons_cons, List.append_assoc, List.singleton_append, splitAt_append_cons,
        splitAt_of_notMem hpart, ih (List.cons_ne_nil _ _) hparts]
      rfl

lemma eq_or_exists_of_mem_join (h : c ∈ join [mark] parts) : c = mark ∨ ∃ part ∈ parts, c ∈ part := by
  induction parts with
  | nil => cases h
  | cons part parts ih =>
    cases parts with
    | nil => exact .inr ⟨part, List.mem_cons_self, h⟩
    | cons second others =>
      rw [join_cons_cons, List.append_assoc, List.singleton_append] at h
      rcases List.mem_append.1 h with hpart | hrest
      · exact .inr ⟨part, List.mem_cons_self, hpart⟩
      · rcases List.mem_cons.1 hrest with rfl | hothers
        · exact .inl rfl
        · exact (ih hothers).imp_right fun ⟨other, hother, hmem⟩ =>
            ⟨other, List.mem_cons_of_mem _ hother, hmem⟩

/-- The parts between marks make up the text again. -/
lemma join_splitAt (mark : Char) (t : Text) : join [mark] (splitAt mark t) = t := by
  induction t with
  | nil => rfl
  | cons c rest ih =>
    obtain ⟨part, parts, hparts⟩ := List.exists_cons_of_ne_nil (splitAt_ne_nil mark rest)
    rw [hparts] at ih
    rw [splitAt, hparts]
    split
    · rename_i hc
      rw [join_cons_cons, ih, hc]
      rfl
    · cases parts with
      | nil => exact congrArg (c :: ·) ih
      | cons second others => exact congrArg (c :: ·) ih

lemma exists_mem_splitAt (hc : c ∈ t) (hmark : c ≠ mark) : ∃ part ∈ splitAt mark t, c ∈ part := by
  rw [← join_splitAt mark t] at hc
  exact (eq_or_exists_of_mem_join hc).resolve_left hmark

lemma mem_of_mem_splitAt {part : Text} (hpart : part ∈ splitAt mark t) (hc : c ∈ part) : c ∈ t := by
  rw [← join_splitAt mark t]
  exact mem_join [mark] hpart hc

end Text

namespace Address

lemma octet?_ofNat {n : Nat} (h : n < 256) : octet? (Text.ofNat n) = some n := by
  have hlength : (Text.ofNat n).length ≤ 3 :=
    (Nat.length_toDigits_le_iff (by decide) (by decide)).2 (by omega)
  have hdigits : ((Text.ofNat n).all fun c => '0' ≤ c && c ≤ '9') = true :=
    List.all_eq_true.2 fun c hc => Text.isDigit_of_mem_ofNat hc
  have hzero : ¬(Text.ofNat n ≠ ['0'] ∧ (Text.ofNat n).head? = some '0') := by
    rintro ⟨hne, hhead⟩
    rcases Nat.eq_zero_or_pos n with rfl | hpos
    · exact hne rfl
    · exact Text.head?_ofNat hpos hhead
  obtain ⟨digits, hread, hvalue⟩ := Text.exists_digits?_ofNat n
  rw [octet?, if_neg (by simp [Text.ofNat_ne_nil, hlength, hdigits]), if_neg (by simpa using hzero),
    hread]
  dsimp only
  rw [hvalue, if_pos (by omega)]

lemma octets_lt (value : BitVec 32) : ∀ octet ∈ octets value, octet < 256 := by
  have hlt : value.toNat < 4294967296 := value.isLt
  simp only [octets, List.mem_cons, List.not_mem_nil, or_false, forall_eq_or_imp, forall_eq]
  omega

/-- The number of a short address is made of its octets. -/
lemma assemble_octets (value : BitVec 32) : assemble 256 (octets value) = value.toNat := by
  have hlt : value.toNat < 4294967296 := value.isLt
  simp only [assemble, octets, List.foldl_cons, List.foldl_nil]
  omega

/-- A short address is read back from its text. -/
lemma shortOfText?_shortText (value : BitVec 32) : shortOfText? (shortText value) = some value := by
  have hsplit : Text.splitAt '.' (shortText value) = (octets value).map Text.ofNat := by
    refine Text.splitAt_join (by simp [octets]) fun part hpart => ?_
    obtain ⟨octet, -, rfl⟩ := List.mem_map.1 hpart
    exact Text.notMem_ofNat (by decide) octet
  have hoctets := mapM_of_forall fun octet h => octet?_ofNat (octets_lt value octet h)
  have hnumber : BitVec.ofNat 32 (assemble 256 (octets value)) = value := by
    rw [assemble_octets, BitVec.ofNat_toNat, BitVec.setWidth_eq]
  rw [shortOfText?, hsplit, hoctets]
  exact congrArg some hnumber

/-- A text with another character than digits and periods is no short address. -/
lemma shortOfText?_eq_none {t : Text} {c : Char} (hc : c ∈ t) (hperiod : c ≠ '.')
    (hdigit : ('0' ≤ c && c ≤ '9') = false) : shortOfText? t = none := by
  obtain ⟨part, hpart, hmem⟩ := Text.exists_mem_splitAt hc hperiod
  have hoctet : octet? part = none := by
    have hall : (part.all fun c => '0' ≤ c && c ≤ '9') = false :=
      List.all_eq_false.2 ⟨c, hmem, by simp [hdigit]⟩
    rw [octet?, hall]
    simp
  have hoctets := mapM_eq_none hpart hoctet
  rw [shortOfText?]
  simp [hoctets]

/-- How a group is written. -/
lemma hexDigits_zero (n : Nat) : Text.hexDigits 0 n = Nat.toDigits 16 n := by
  simp [Text.hexDigits]

lemma group?_hexDigits {group : Nat} (h : group < 65536) :
    group? (Text.hexDigits 0 group) = some group := by
  obtain ⟨digits, hdigits, hvalue⟩ := Text.exists_hexValues 0 group
  have hlength : (Text.hexDigits 0 group).length ≤ 4 := by
    rw [hexDigits_zero]
    exact (Nat.length_toDigits_le_iff (by decide) (by decide)).2 h
  have hne : Text.hexDigits 0 group ≠ [] := by
    rw [hexDigits_zero]
    exact Nat.toDigits_ne_nil
  rw [group?, hdigits, Option.map_some, hvalue]
  simp [hne, hlength]

lemma groups_lt (value : BitVec 128) : ∀ group ∈ groups value, group < 65536 := by
  intro group hgroup
  obtain ⟨i, -, rfl⟩ := List.mem_map.1 hgroup
  exact Nat.mod_lt _ (by decide)

lemma assemble_concat (width : Nat) (groups : List Nat) (group : Nat) :
    assemble width (groups ++ [group]) = assemble width groups * width + group := by
  rw [assemble, List.foldl_append]
  rfl

/-- A number is made of its remainders, the highest first, up to the number of these. -/
lemma assemble_remainders (width count n : Nat) :
    assemble width ((List.range count).map fun i => n / width ^ (count - 1 - i) % width) =
      n % width ^ count := by
  induction count generalizing n with
  | zero => rw [pow_zero, Nat.mod_one, List.range_zero, List.map_nil, assemble, List.foldl_nil]
  | succ count ih =>
    have hfront : (List.range count).map (fun i => n / width ^ (count + 1 - 1 - i) % width) =
        (List.range count).map fun i => n / width / width ^ (count - 1 - i) % width := by
      refine List.map_congr_left fun i hi => ?_
      have hlt : i < count := List.mem_range.1 hi
      rw [Nat.div_div_eq_div_mul, ← Nat.pow_succ',
        show (count - 1 - i).succ = count + 1 - 1 - i by omega]
    rw [List.range_succ, List.map_append, List.map_singleton, hfront, assemble_concat, ih,
      Nat.add_sub_cancel, Nat.sub_self, pow_zero, Nat.div_one, Nat.pow_succ', Nat.mod_mul,
      Nat.mul_comm, Nat.add_comm]

lemma assemble_groups (value : BitVec 128) : assemble 65536 (groups value) = value.toNat :=
  (assemble_remainders 65536 8 value.toNat).trans (Nat.mod_eq_of_lt value.isLt)

/-- The texts of groups. -/
def groupTexts (groups : List Nat) : List Text :=
  groups.map (Text.hexDigits 0)

lemma length_groupTexts (groups : List Nat) : (groupTexts groups).length = groups.length :=
  List.length_map ..

lemma mapM_groupTexts {groups : List Nat} (h : ∀ group ∈ groups, group < 65536) :
    (groupTexts groups).mapM group? = some groups :=
  mapM_of_forall fun group hgroup => group?_hexDigits (h group hgroup)

lemma ne_nil_of_mem_groupTexts {groups : List Nat} {part : Text} (h : part ∈ groupTexts groups) :
    part ≠ [] := by
  obtain ⟨group, -, rfl⟩ := List.mem_map.1 h
  rw [hexDigits_zero]
  exact Nat.toDigits_ne_nil

/-- What a run of zeros leaves of groups when it is taken out makes the groups with it. -/
def IsZeroRun (groups : List Nat) (run : Nat × Nat) : Prop :=
  groups = groups.take run.1 ++ List.replicate run.2 0 ++ groups.drop (run.1 + run.2)

lemma isZeroRun_zerosAtStart (groups : List Nat) (start : Nat) :
    IsZeroRun groups (start, zerosAtStart (groups.drop start)) := by
  have hzeros : (groups.drop start).takeWhile (· == 0) =
      List.replicate (zerosAtStart (groups.drop start)) 0 := by
    refine List.eq_replicate_iff.2 ⟨rfl, fun group hgroup => ?_⟩
    simpa using List.mem_takeWhile_imp hgroup
  have hrest : (groups.drop start).dropWhile (· == 0) =
      groups.drop (start + zerosAtStart (groups.drop start)) := by
    have hwhole := congrArg (List.drop (zerosAtStart (groups.drop start)))
      (List.takeWhile_append_dropWhile (p := (· == 0)) (l := groups.drop start))
    exact (List.drop_left' rfl).symm.trans (hwhole.trans List.drop_drop)
  rw [IsZeroRun, ← hzeros, ← hrest, List.append_assoc, List.takeWhile_append_dropWhile,
    List.take_append_drop]

lemma isZeroRun_longestZeroRun (groups : List Nat) : IsZeroRun groups (longestZeroRun groups) := by
  rw [longestZeroRun]
  refine List.foldlRecOn _ _ (motive := IsZeroRun groups) ?_ ?_
  · simp [IsZeroRun]
  · intro best hbest start _
    dsimp only
    split
    · exact isZeroRun_zerosAtStart groups start
    · exact hbest

/-- The parts on one side of the place of a run: a single empty one where there are no groups. -/
def sideOf (parts : List Text) : List Text :=
  if parts = [] then [[]] else parts

lemma sideOf_ne_nil (parts : List Text) : sideOf parts ≠ [] := by
  rw [sideOf]
  split
  · exact List.cons_ne_nil _ _
  · assumption

lemma length_sideOf (parts : List Text) :
    0 < (sideOf parts).length ∧ (sideOf parts).length ≤ parts.length + 1 := by
  rw [sideOf]
  split
  · simp
  · exact ⟨List.length_pos_iff.2 ‹_›, Nat.le_succ _⟩

/-- A side is read as its parts, whether its outermost part is the first one or the last. -/
lemma sideOfGap?_sideOf {parts : List Text} (outermost : Option Text)
    (h : ∀ part ∈ parts, part ≠ []) (hparts : ∀ part ∈ outermost, part ∈ sideOf parts)
    (houtermost : outermost ≠ none) : sideOfGap? (sideOf parts) outermost = some parts := by
  obtain ⟨part, rfl⟩ := Option.ne_none_iff_exists'.1 houtermost
  have hpart := hparts part rfl
  by_cases hnil : parts = []
  · subst hnil
    obtain rfl := List.mem_singleton.1 hpart
    rfl
  · rw [sideOf, if_neg hnil] at hpart ⊢
    rw [sideOfGap?, if_neg (by simpa using h part hpart)]

/-- A side with an empty part has no other. -/
lemma length_of_getElem?_sideOf {parts : List Text} {i : Nat} (h : ∀ part ∈ parts, part ≠ [])
    (hi : (sideOf parts)[i]? = some []) : i = 0 ∧ (sideOf parts).length = 1 := by
  have hmem := List.mem_of_getElem? hi
  obtain ⟨hlt, -⟩ := List.getElem?_eq_some_iff.1 hi
  rw [sideOf] at hmem hlt ⊢
  split at hmem
  · rename_i hnil
    rw [if_pos hnil] at hlt ⊢
    exact ⟨Nat.lt_one_iff.1 hlt, rfl⟩
  · exact absurd rfl (h [] hmem)

/-- The place of the run is the only empty part that has parts on both of its sides. -/
lemma filter_gap (before after : List Text) (hbefore : ∀ part ∈ before, part ≠ [])
    (hafter : ∀ part ∈ after, part ≠ []) :
    ((List.range (sideOf before ++ [] :: sideOf after).length).filter fun i =>
      0 < i && i + 1 < (sideOf before ++ [] :: sideOf after).length &&
        (sideOf before ++ [] :: sideOf after)[i]? == some []) = [(sideOf before).length] := by
  have hfirst := List.length_pos_iff.2 (sideOf_ne_nil before)
  have hlast := List.length_pos_iff.2 (sideOf_ne_nil after)
  have hgap (i : Nat) : (0 < i ∧ i + 1 < (sideOf before ++ [] :: sideOf after).length ∧
      (sideOf before ++ [] :: sideOf after)[i]? = some []) ↔ i = (sideOf before).length := by
    rw [List.length_append, List.length_cons]
    constructor
    · rintro ⟨hpos, hlt, hempty⟩
      rcases Nat.lt_trichotomy i (sideOf before).length with hleft | heq | hright
      · rw [List.getElem?_append_left hleft] at hempty
        obtain ⟨hzero, -⟩ := length_of_getElem?_sideOf hbefore hempty
        omega
      · exact heq
      · obtain ⟨j, rfl⟩ := Nat.exists_eq_add_of_lt hright
        rw [List.getElem?_append_right (by omega),
          show (sideOf before).length + j + 1 - (sideOf before).length = j + 1 by omega,
          List.getElem?_cons_succ] at hempty
        obtain ⟨hzero, hone⟩ := length_of_getElem?_sideOf hafter hempty
        omega
    · rintro rfl
      refine ⟨hfirst, by omega, ?_⟩
      rw [List.getElem?_append_right (Nat.le_refl _), Nat.sub_self, List.getElem?_cons_zero]
  have hcongr : ∀ i ∈ List.range (sideOf before ++ [] :: sideOf after).length,
      (0 < i && i + 1 < (sideOf before ++ [] :: sideOf after).length &&
        (sideOf before ++ [] :: sideOf after)[i]? == some []) =
        (i == (sideOf before).length) := by
    intro i _
    rw [Bool.eq_iff_iff]
    simpa [and_assoc] using hgap i
  have hrange : (sideOf before).length ∈
      List.range (sideOf before ++ [] :: sideOf after).length := by
    rw [List.mem_range, List.length_append, List.length_cons]
    omega
  rw [List.filter_congr hcongr, List.filter_beq, List.count_eq_one_of_mem List.nodup_range hrange]
  rfl

/-- Groups with a run of zeros left out are read as the groups with the zeros. -/
lemma groups?_gapped {before after : List Nat} (hbefore : ∀ group ∈ before, group < 65536)
    (hafter : ∀ group ∈ after, group < 65536) (hlength : before.length + after.length < 8) :
    groups? (sideOf (groupTexts before) ++ [] :: sideOf (groupTexts after)) =
      some (before ++ List.replicate (8 - (before.length + after.length)) 0 ++ after) := by
  have hinner := filter_gap (groupTexts before) (groupTexts after)
    (fun _ => ne_nil_of_mem_groupTexts) fun _ => ne_nil_of_mem_groupTexts
  have hleft := sideOfGap?_sideOf (sideOf (groupTexts before)).head?
    (fun _ => ne_nil_of_mem_groupTexts) (fun _ => List.mem_of_mem_head?) (by simp [sideOf_ne_nil])
  have hright := sideOfGap?_sideOf (sideOf (groupTexts after)).getLast?
    (fun _ => ne_nil_of_mem_groupTexts) (fun _ => List.mem_of_mem_getLast?) (by simp [sideOf_ne_nil])
  have hbeforeNil := sideOf_ne_nil (groupTexts before)
  have hafterNil := sideOf_ne_nil (groupTexts after)
  set first := sideOf (groupTexts before)
  set last := sideOf (groupTexts after)
  have hhead : (first ++ [] :: last).head? = first.head? := List.head?_append_of_ne_nil _ hbeforeNil
  have hlast : (first ++ [] :: last).getLast? = last.getLast? := by
    rw [List.getLast?_append_of_ne_nil _ (List.cons_ne_nil _ _),
      List.getLast?_cons_of_ne_nil hafterNil]
  have hgap : (first ++ [] :: last).take first.length = first := List.take_left
  have hrest : (first ++ [] :: last).drop (first.length + 1) = last := by
    rw [← List.drop_drop, List.drop_left]
    rfl
  rw [groups?, hinner]
  dsimp only
  rw [hgap, hrest, hhead, hlast, hleft, hright]
  simp only [Option.bind_eq_bind, Option.bind_some, mapM_groupTexts hbefore, mapM_groupTexts hafter]
  simp [groupTexts, guard, hlength]

/-- Eight groups are read as they are. -/
lemma groups?_groupTexts {groups : List Nat} (h : ∀ group ∈ groups, group < 65536)
    (hlength : groups.length = 8) : groups? (groupTexts groups) = some groups := by
  have hinner : ((List.range (groupTexts groups).length).filter fun i =>
      0 < i && i + 1 < (groupTexts groups).length && (groupTexts groups)[i]? == some []) = [] := by
    refine List.filter_eq_nil_iff.2 fun i _ hi => ?_
    simp only [Bool.and_eq_true, beq_iff_eq] at hi
    exact ne_nil_of_mem_groupTexts (List.mem_of_getElem? hi.2) rfl
  rw [groups?, hinner]
  dsimp only
  rw [mapM_groupTexts h]
  simp [groupTexts, guard, hlength]

lemma withShortTail?_of_forall {parts : List Text} (h : ∀ part ∈ parts, '.' ∉ part) :
    withShortTail? parts = some parts := by
  rw [withShortTail?]
  split
  · rfl
  · rename_i last hlast
    have hperiod : last.contains '.' = false := by
      simpa using h last (List.mem_of_getLast? hlast)
    rw [hperiod]
    rfl

/-- A text is read as the address whose groups its parts have. -/
lemma longOfText?_of_groups? {t : Text} {value : BitVec 128}
    (hleast : 3 ≤ (Text.splitAt ':' t).length) (hmost : (Text.splitAt ':' t).length ≤ 9)
    (hperiod : '.' ∉ t) (hgroups : groups? (Text.splitAt ':' t) = some (groups value)) :
    longOfText? t = some value := by
  have htail : withShortTail? (Text.splitAt ':' t) = some (Text.splitAt ':' t) := by
    exact withShortTail?_of_forall fun part hpart hmem =>
      hperiod (Text.mem_of_mem_splitAt hpart hmem)
  have hnumber : BitVec.ofNat 128 (assemble 65536 (groups value)) = value := by
    rw [assemble_groups, BitVec.ofNat_toNat, BitVec.setWidth_eq]
  rw [longOfText?, htail]
  simp [guard, hleast, hmost, hgroups, hnumber]

/-- The text of groups without a run of zeros. -/
def joined (groups : List Nat) : Text :=
  Text.join [':'] (groupTexts groups)

lemma eq_colon_or_hex_of_mem_joined {groups : List Nat} {c : Char} (h : c ∈ joined groups) :
    c = ':' ∨ Text.hexValue? c ≠ none := by
  refine (Text.eq_or_exists_of_mem_join h).imp_right fun ⟨part, hpart, hc⟩ => ?_
  obtain ⟨group, -, rfl⟩ := List.mem_map.1 hpart
  exact Text.hexValue?_of_mem_hexDigits hc

lemma splitAt_joined (groups : List Nat) :
    Text.splitAt ':' (joined groups) = sideOf (groupTexts groups) := by
  rw [sideOf]
  split
  · rename_i hnil
    rw [joined, hnil]
    rfl
  · rename_i hne
    refine Text.splitAt_join hne fun part hpart hmem => ?_
    obtain ⟨group, -, rfl⟩ := List.mem_map.1 hpart
    exact Text.hexValue?_of_mem_hexDigits hmem (by decide)

/-- The text of a long address has all groups, or two colons between those around the longest run of
zeros. -/
lemma longText_cases (value : BitVec 128) :
    longText value = joined (groups value) ∨ ∃ start length, 2 ≤ length ∧
      IsZeroRun (groups value) (start, length) ∧
      longText value = joined ((groups value).take start) ++
        ':' :: ':' :: joined ((groups value).drop (start + length)) := by
  have hrun := isZeroRun_longestZeroRun (groups value)
  rcases hlongest : longestZeroRun (groups value) with ⟨start, length⟩
  rw [hlongest] at hrun
  rw [longText]
  dsimp only
  rw [hlongest]
  dsimp only
  split
  · exact .inl rfl
  · refine .inr ⟨start, length, by omega, hrun, ?_⟩
    rw [List.append_assoc]
    rfl

lemma eq_colon_or_hex_of_mem_longText {value : BitVec 128} {c : Char} (h : c ∈ longText value) :
    c = ':' ∨ Text.hexValue? c ≠ none := by
  rcases longText_cases value with heq | ⟨start, length, -, -, heq⟩ <;> rw [heq] at h
  · exact eq_colon_or_hex_of_mem_joined h
  · simp only [List.mem_append, List.mem_cons] at h
    rcases h with hbefore | rfl | rfl | hafter
    · exact eq_colon_or_hex_of_mem_joined hbefore
    · exact .inl rfl
    · exact .inl rfl
    · exact eq_colon_or_hex_of_mem_joined hafter

lemma notMem_longText {c : Char} (hcolon : c ≠ ':') (hhex : Text.hexValue? c = none)
    (value : BitVec 128) : c ∉ longText value :=
  fun h => (eq_colon_or_hex_of_mem_longText h).elim hcolon (· hhex)

lemma length_groups (value : BitVec 128) : (groups value).length = 8 := by
  simp [groups]

/-- A long address is read back from its text. -/
lemma longOfText?_longText (value : BitVec 128) : longOfText? (longText value) = some value := by
  have hperiod := notMem_longText (by decide) (by decide : Text.hexValue? '.' = none) value
  rcases longText_cases value with heq | ⟨start, length, htwo, hrun, heq⟩
  · have hsplit : Text.splitAt ':' (longText value) = groupTexts (groups value) := by
      rw [heq, splitAt_joined, sideOf, if_neg]
      intro hnil
      have hlength := congrArg List.length hnil
      rw [length_groupTexts, length_groups] at hlength
      cases hlength
    have hlength : (groupTexts (groups value)).length = 8 := by
      rw [length_groupTexts, length_groups]
    refine longOfText?_of_groups? ?_ ?_ hperiod ?_ <;> rw [hsplit]
    · omega
    · omega
    · exact groups?_groupTexts (groups_lt value) (length_groups value)
  · have hsplit : Text.splitAt ':' (longText value) =
        sideOf (groupTexts ((groups value).take start)) ++
          [] :: sideOf (groupTexts ((groups value).drop (start + length))) := by
      rw [heq, Text.splitAt_append_cons, splitAt_joined, Text.splitAt, if_pos rfl, splitAt_joined]
    have hlt := groups_lt value
    have hbefore := fun group h => hlt group (List.mem_of_mem_take (i := start) h)
    have hafter := fun group h => hlt group (List.mem_of_mem_drop (i := start + length) h)
    have height := length_groups value
    have hlengths := congrArg List.length hrun
    simp only [List.length_append, List.length_replicate, height] at hlengths
    have hleft := length_sideOf (groupTexts ((groups value).take start))
    have hright := length_sideOf (groupTexts ((groups value).drop (start + length)))
    set before := (groups value).take start
    set after := (groups value).drop (start + length)
    have hroom : before.length + after.length < 8 := by omega
    have hzeros : 8 - (before.length + after.length) = length := by omega
    have hgapped := groups?_gapped hbefore hafter hroom
    rw [hzeros, ← hrun] at hgapped
    rw [length_groupTexts] at hleft hright
    refine longOfText?_of_groups? ?_ ?_ hperiod ?_ <;> rw [hsplit]
    · rw [List.length_append, List.length_cons]
      omega
    · rw [List.length_append, List.length_cons]
      omega
    · exact hgapped

/-- An address that can be written: its zone, if it has one, is not empty and has no character that
ends a zone. -/
def IsWritable : Address → Prop
  | short _ | long _ none => True
  | long _ (some zone) => zone ≠ [] ∧ '%' ∉ zone ∧ '/' ∉ zone

lemma eq_period_or_isDigit_of_mem_shortText {value : BitVec 32} {c : Char}
    (h : c ∈ shortText value) : c = '.' ∨ c.isDigit = true := by
  refine (Text.eq_or_exists_of_mem_join h).imp_right fun ⟨part, hpart, hc⟩ => ?_
  obtain ⟨octet, -, rfl⟩ := List.mem_map.1 hpart
  exact Text.isDigit_of_mem_ofNat hc

lemma colon_mem_longText (value : BitVec 128) : ':' ∈ longText value := by
  by_contra h
  have hread := longOfText?_longText value
  rw [longOfText?, Text.splitAt_of_notMem h] at hread
  cases hread

/-- A zone that a long address is written with is read as it stands, and has to be there. -/
lemma ofText?_zoned (value : BitVec 128) {zone : Text} (hclosed : '%' ∉ zone) (hopen : '/' ∉ zone) :
    ofText? (longText value ++ '%' :: zone) =
      if zone = [] then none else some (.long value (some zone)) := by
  have hslash := notMem_longText (by decide) (by decide : Text.hexValue? '/' = none) value
  have hpercent := notMem_longText (by decide) (by decide : Text.hexValue? '%' = none) value
  have hmem : ':' ∈ longText value ++ '%' :: zone :=
    List.mem_append_left _ (colon_mem_longText value)
  have hshort := shortOfText?_eq_none hmem (by decide) (by decide)
  rw [ofText?, if_neg (by simp [hslash, hopen]), hshort, Text.cutAt_append_cons hpercent]
  dsimp only
  by_cases hzone : zone = []
  · rw [if_pos (by simp [hzone]), if_pos hzone]
  · rw [if_neg (by simp [hzone, hclosed]), if_neg hzone, longOfText?_longText, Option.map_some]

/-- An address is read back from its text. -/
theorem ofText?_text {address : Address} (h : address.IsWritable) :
    ofText? address.text = some address := by
  cases address with
  | short value =>
    have hslash : '/' ∉ shortText value := fun hmem =>
      (eq_period_or_isDigit_of_mem_shortText hmem).elim (by decide) (by decide)
    rw [text, ofText?, if_neg (by simpa using hslash), shortOfText?_shortText]
  | long value zone =>
    cases zone with
    | none =>
      have hslash := notMem_longText (by decide) (by decide : Text.hexValue? '/' = none) value
      have hpercent := notMem_longText (by decide) (by decide : Text.hexValue? '%' = none) value
      have hshort := shortOfText?_eq_none (colon_mem_longText value) (by decide) (by decide)
      rw [text, ofText?, if_neg (by simpa using hslash), hshort, Text.cutAt_of_notMem hpercent]
      dsimp only
      rw [longOfText?_longText, Option.map_some]
    | some zone =>
      obtain ⟨hne, hclosed, hopen⟩ := h
      rw [text, ofText?_zoned value hclosed hopen, if_neg hne]

end Address

end Keyfile
