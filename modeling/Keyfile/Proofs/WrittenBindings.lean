import Keyfile.Proofs.WrittenNumbers

/-!
# Bindings and their texts

A host with a colon is written in brackets and read without them, so it comes back whatever it is.
Any other host is written as it is, and is lost when reading takes something off it: a blank at its
start, or brackets around it. Such hosts, and an empty one, can be read, from between brackets.
-/

namespace Keyfile.Binding

variable {port? : Text → Option Int} {binding : Binding} {t host : Text} {port : Int}

lemma range_of_readPortAmong (h : readPortAmong port? t = .ok port) :
    0 ≤ port ∧ port ≤ 65535 := by
  rw [readPortAmong] at h
  split at h
  · obtain ⟨n, -, hchecked⟩ := bind_eq_ok_iff.1 h
    exact (checked_eq_ok_iff.1 hchecked).2
  · split at h
    · exact (checked_eq_ok_iff.1 h).2
    · cases h

lemma readPortAmong_ofInt (h : 0 ≤ port ∧ port ≤ 65535) :
    readPortAmong port? (Text.ofInt port) = .ok port := by
  obtain ⟨numeral, hnumeral, hvalue, hlength⟩ := Numeral.exists_ofText?_ofInt port
  have hlegible : numeral.IsLegible := by
    have hshort := (Nat.length_toDigits_le_iff (b := 10) (n := port.natAbs) (k := 5) (by decide)
      (by decide)).2 (by omega)
    rw [Numeral.IsLegible, hlength]
    exact hshort.trans (by decide)
  have hread : numeral.read = .ok port := Numeral.read_eq_ok_iff.2 ⟨hlegible, hvalue⟩
  rw [readPortAmong, hnumeral]
  exact bind_eq_ok_iff.2 ⟨port, hread, checked_eq_ok_iff.2 ⟨rfl, h⟩⟩

lemma ofInt_ne_nil (n : Int) : Text.ofInt n ≠ [] := by
  rw [Text.ofInt_eq]
  split
  · exact List.cons_ne_nil _ _
  · exact Text.ofNat_ne_nil _

/-- The host as it is written. -/
def shownHost (binding : Binding) : Text :=
  if binding.host.contains ':' then '[' :: binding.host ++ [']'] else binding.host

/-- A host that nothing is taken off: no blank at its start, and no brackets around it. -/
structure IsBare (host : Text) : Prop where
  ne_nil : host ≠ []
  start : ∀ c ∈ host.head?, Text.isBlank c = false
  brackets : ¬(host.head? = some '[' ∧ host.getLast? = some ']')

lemma withoutBrackets_bracketed (host : Text) :
    withoutBrackets ('[' :: (host ++ [']'])) = host := by
  have hlast : ('[' :: (host ++ [']'])).getLast? = some ']' := by
    rw [← List.cons_append, List.getLast?_concat]
  rw [withoutBrackets, if_pos (by simp [hlast]), List.tail_cons, List.dropLast_concat]

lemma length_withoutBrackets_le (host : Text) : (withoutBrackets host).length ≤ host.length := by
  rw [withoutBrackets]
  split
  · simp only [List.length_dropLast, List.length_tail]
    omega
  · exact le_rfl

lemma withoutBrackets_eq_self_iff (hne : host ≠ []) :
    withoutBrackets host = host ↔ ¬(host.head? = some '[' ∧ host.getLast? = some ']') := by
  rw [withoutBrackets]
  by_cases hbrackets : host.head? = some '[' ∧ host.getLast? = some ']'
  · rw [if_pos (by simpa using hbrackets)]
    refine iff_of_false (fun heq => ?_) (not_not.2 hbrackets)
    have hlength := congrArg List.length heq
    have hpos := List.length_pos_of_ne_nil hne
    simp only [List.length_dropLast, List.length_tail] at hlength
    omega
  · rw [if_neg (by simpa using hbrackets)]
    exact iff_of_true rfl hbrackets

/-- What a written host is read as is the host, when it is written in brackets or bare. -/
lemma withoutBrackets_trimStart_shownHost_iff :
    Text.trimStart binding.shownHost ≠ [] ∧
        withoutBrackets (Text.trimStart binding.shownHost) = binding.host ↔
      ':' ∈ binding.host ∨ IsBare binding.host := by
  rw [shownHost]
  by_cases hcolon : ':' ∈ binding.host
  · have hstart : Text.trimStart ('[' :: (binding.host ++ [']'])) =
        '[' :: (binding.host ++ [']']) := by
      rw [Text.trimStart_eq_self_iff]
      rintro c ⟨⟩
      decide
    rw [if_pos (by simpa using hcolon), List.cons_append, hstart, withoutBrackets_bracketed]
    exact iff_of_true ⟨List.cons_ne_nil _ _, rfl⟩ (.inl hcolon)
  · rw [if_neg (by simpa using hcolon), or_iff_right hcolon]
    constructor
    · rintro ⟨hne, heq⟩
      -- nothing is left to be taken off: reading only ever makes a host shorter
      have hshort : (Text.trimStart binding.host).length ≤ binding.host.length :=
        List.length_dropWhile_le _ _
      have hlength := length_withoutBrackets_le (Text.trimStart binding.host)
      rw [heq] at hlength
      have hstart : Text.trimStart binding.host = binding.host :=
        (Text.suffix_trimStart _).eq_of_length (hshort.antisymm hlength)
      rw [hstart] at hne heq
      exact ⟨hne, Text.trimStart_eq_self_iff.1 hstart, (withoutBrackets_eq_self_iff hne).1 heq⟩
    · rintro ⟨hne, hstart, hbrackets⟩
      rw [Text.trimStart_eq_self_iff.2 hstart]
      exact ⟨hne, (withoutBrackets_eq_self_iff hne).2 hbrackets⟩

lemma trim_text (binding : Binding) :
    Text.trim binding.text =
      Text.trimStart binding.shownHost ++ ':' :: Text.ofInt binding.port := by
  have htext : binding.text = binding.shownHost ++ ':' :: Text.ofInt binding.port := rfl
  rw [htext, Text.trim_append_cons (by decide), Text.trimEnd_eq_self (Text.trim_ofInt _)]

/-- The bindings that are read from their own texts. -/
lemma readAmong_text_iff : readAmong port? binding.text = .ok binding ↔
    (0 ≤ binding.port ∧ binding.port ≤ 65535) ∧ (':' ∈ binding.host ∨ IsBare binding.host) := by
  have hcolon : ':' ∉ Text.ofInt binding.port := fun hmem =>
    (Text.eq_minus_or_isDigit_of_mem_ofInt hmem).elim (by decide) (by decide)
  rw [← withoutBrackets_trimStart_shownHost_iff, readAmong_eq_ok_iff, trim_text]
  constructor
  · rintro ⟨host, port, htrim, hport, hhost, -, hbrackets, hread⟩
    have hcut := Text.cutLastAt_append_cons hport host
    rw [← htrim, Text.cutLastAt_append_cons hcolon] at hcut
    obtain ⟨rfl, rfl⟩ := Prod.mk.inj (Option.some.inj hcut)
    exact ⟨range_of_readPortAmong hread, hhost, hbrackets⟩
  · rintro ⟨hrange, hhost, hbrackets⟩
    exact ⟨_, _, rfl, hcolon, hhost, ofInt_ne_nil _, hbrackets, readPortAmong_ofInt hrange⟩

/-- A host that does not stand in brackets is read as it is written. -/
lemma isBare_of_readAmong (h : readAmong port? t = .ok binding)
    (hbracket : (Text.trim t).head? ≠ some '[') : IsBare binding.host := by
  obtain ⟨host, port, htrim, -, hhost, -, hbrackets, -⟩ := readAmong_eq_ok_iff.1 h
  rw [htrim, List.head?_append_of_ne_nil _ hhost] at hbracket
  have hbare : ¬(host.head? = some '[' ∧ host.getLast? = some ']') := fun hboth =>
    hbracket hboth.1
  rw [(withoutBrackets_eq_self_iff hhost).2 hbare] at hbrackets
  rw [← hbrackets]
  refine ⟨hhost, ?_, hbare⟩
  obtain ⟨c, rest, rfl⟩ := List.exists_cons_of_ne_nil hhost
  rintro _ ⟨⟩
  exact Text.isBlank_of_trim_eq_cons htrim

/-- The port of a binding that was read is in range. The binding has a host and is read from its own
text, for the hosts with a colon and the bare ones and for no others; a text that does not begin
with a bracket names only such hosts. -/
theorem readAmong_text_of_read (h : readAmong port? t = .ok binding) :
    (0 ≤ binding.port ∧ binding.port ≤ 65535) ∧
      (binding.host ≠ [] ∧ readAmong port? binding.text = .ok binding ↔
        ':' ∈ binding.host ∨ IsBare binding.host) ∧
      ((Text.trim t).head? ≠ some '[' → IsBare binding.host) := by
  have hrange : 0 ≤ binding.port ∧ binding.port ≤ 65535 := by
    obtain ⟨_, _, -, -, -, -, -, hread⟩ := readAmong_eq_ok_iff.1 h
    exact range_of_readPortAmong hread
  have hne : ':' ∈ binding.host ∨ IsBare binding.host → binding.host ≠ [] := by
    rintro (hcolon | hbare)
    · exact List.ne_nil_of_mem hcolon
    · exact hbare.ne_nil
  refine ⟨hrange, ?_, isBare_of_readAmong h⟩
  rw [readAmong_text_iff, and_iff_right hrange]
  exact and_iff_right_of_imp hne

/-- A service by its name, and brackets around a host without a colon. -/
theorem readAmong_text_gopher :
    readAmong (fun name => if name = "gopher".toList then some 70 else none)
        " [menu]:Gopher ".toList = .ok ⟨"menu".toList, 70⟩ ∧
      readAmong (fun name => if name = "gopher".toList then some 70 else none)
        (text ⟨"menu".toList, 70⟩) = .ok ⟨"menu".toList, 70⟩ := by
  have hread : readAmong (fun name => if name = "gopher".toList then some 70 else none)
      " [menu]:Gopher ".toList = .ok ⟨"menu".toList, 70⟩ := by decide +kernel
  have hbare : IsBare "menu".toList := ⟨by decide, by simp [Text.isBlank], by decide⟩
  exact ⟨hread, ((readAmong_text_of_read hread).2.1.2 (.inr hbare)).2⟩

/-- The brackets are taken off after the check that there is a host. -/
theorem read_emptyBrackets :
    readAmong (fun _ => none) "[]:80".toList = .ok ⟨[], 80⟩ ∧
      readAmong (fun _ => none) (text ⟨[], 80⟩) = .error (.bindingMalformed ":80".toList) := by
  decide

/-- A binding whose host stands in its text as it is: a blank in front of it would be trimmed, and
brackets around it would be taken for those of an address. -/
structure IsPlain (binding : Binding) : Prop where
  port : 0 ≤ binding.port ∧ binding.port ≤ 65535
  host : binding.host ≠ []
  start : ∀ c ∈ binding.host.head?, Text.isBlank c = false
  brackets : ':' ∉ binding.host →
    ¬(binding.host.head? = some '[' ∧ binding.host.getLast? = some ']')

/-- A plain binding is denoted by its text. -/
lemma IsPlain.denotes_text (h : binding.IsPlain) : Denotes port? binding.text binding := by
  rw [← readAmong_eq_ok_iff_denotes, readAmong_text_iff]
  refine ⟨h.port, ?_⟩
  by_cases hcolon : ':' ∈ binding.host
  · exact .inl hcolon
  · exact .inr ⟨h.host, h.start, h.brackets hcolon⟩

end Keyfile.Binding
