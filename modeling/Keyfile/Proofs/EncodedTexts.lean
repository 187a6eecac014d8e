import Keyfile.Proofs.LineBreaks
import Keyfile.Proofs.Utf8

/-!
# Texts in an encoding

The texts that an encoding has bytes for are those whose characters it has bytes for. Each is read
back from its bytes, whatever the encoding, and whatever bytes are read, the text has bytes.
-/

namespace Keyfile.Encoding

variable {encoding : Encoding} {t : Text} {bytes : Bytes}

/-- An encoding has bytes for every character of a text. -/
def Covers (encoding : Encoding) (t : Text) : Prop :=
  ∀ c ∈ t, (encoding.encodeChar? c).isSome

lemma covers_append {s : Text} :
    encoding.Covers (s ++ t) ↔ encoding.Covers s ∧ encoding.Covers t :=
  List.forall_mem_append

lemma covers_utf8 (t : Text) : Covers .utf8 t :=
  fun _ _ => rfl

lemma covers_of_ascii (h : t.all fun c => c.toNat < 0x80) : encoding.Covers t := by
  intro c hc
  have hlow := of_decide_eq_true (List.all_eq_true.1 h c hc)
  cases encoding with
  | utf8 => rfl
  | latin1 => rw [encodeChar?, if_pos (by omega), Option.isSome_some]
  | ascii => rw [encodeChar?, if_pos hlow, Option.isSome_some]

lemma exists_encode?_iff : (∃ bytes, encoding.encode? t = some bytes) ↔ encoding.Covers t := by
  have hmapM : (∃ parts, t.mapM encoding.encodeChar? = some parts) ↔ encoding.Covers t := by
    induction t with
    | nil => exact iff_of_true ⟨[], rfl⟩ fun _ h => absurd h List.not_mem_nil
    | cons c rest ih =>
      rw [Covers, List.forall_mem_cons, ← Covers, ← ih, Option.isSome_iff_exists]
      simp only [List.mapM_cons, Option.bind_eq_bind, Option.bind_eq_some_iff, Option.pure_def,
        Option.some_inj]
      constructor
      · rintro ⟨_, first, hfirst, others, hothers, -⟩
        exact ⟨⟨first, hfirst⟩, others, hothers⟩
      · rintro ⟨⟨first, hfirst⟩, others, hothers⟩
        exact ⟨first :: others, first, hfirst, others, hothers, rfl⟩
  rw [← hmapM, encode?]
  simp

/-- The encodings other than UTF-8 store a character as the byte of its number, below a bound. -/
def limit : Encoding → Nat
  | utf8 => 0
  | latin1 => 0x100
  | ascii => 0x80

lemma encodeChar?_of_ne (h : encoding ≠ .utf8) (c : Char) :
    encoding.encodeChar? c = if c.toNat < encoding.limit then some [byte c.toNat] else none := by
  cases encoding with
  | utf8 => exact absurd rfl h
  | latin1 => rfl
  | ascii => rfl

lemma characters_of_ne (h : encoding ≠ .utf8) (bytes : Bytes) :
    encoding.characters bytes = bytes.map fun b =>
      if b.toNat < encoding.limit then some (Char.ofNat b.toNat) else none := by
  cases encoding with
  | utf8 => exact absurd rfl h
  | latin1 =>
    refine List.map_congr_left fun b _ => ?_
    have hlow : b.toNat < 0x100 := b.toNat_lt
    rw [limit, if_pos hlow]
  | ascii => rfl

lemma encode?_of_ne (h : encoding ≠ .utf8) (hcovers : encoding.Covers t) :
    encoding.encode? t = some (t.map fun c => byte c.toNat) := by
  have hmapM : t.mapM encoding.encodeChar? = some (t.map fun c => [byte c.toNat]) := by
    induction t with
    | nil => rfl
    | cons c rest ih =>
      obtain ⟨hc, hrest⟩ := List.forall_mem_cons.1 hcovers
      rw [encodeChar?_of_ne h, Option.isSome_ite] at hc
      rw [List.mapM_cons, ih hrest, encodeChar?_of_ne h, if_pos hc]
      rfl
  rw [encode?, hmapM, Option.map_some, ← List.flatMap_def, List.map_eq_flatMap]

lemma decode?_map_byte (h : encoding ≠ .utf8) (hcovers : encoding.Covers t) :
    encoding.decode? (t.map fun c => byte c.toNat) = some t := by
  rw [decode?, characters_of_ne h, List.map_map]
  induction t with
  | nil => rfl
  | cons c rest ih =>
    obtain ⟨hc, hrest⟩ := List.forall_mem_cons.1 hcovers
    rw [encodeChar?_of_ne h, Option.isSome_ite] at hc
    have hlow : c.toNat < 256 := by
      cases encoding with
      | utf8 => exact absurd rfl h
      | latin1 => exact hc
      | ascii => exact hc.trans (by decide)
    rw [List.map_cons, List.mapM_cons, ih hrest, Function.comp, toNat_byte hlow, if_pos hc,
      Char.ofNat_toNat]
    rfl

/-- A text is read back from its bytes. -/
lemma decode?_of_encode? (h : encoding.encode? t = some bytes) :
    encoding.decode? bytes = some t := by
  by_cases hutf8 : encoding = .utf8
  · subst hutf8
    rw [encode?_utf8] at h
    cases h
    exact decode?_utf8 t
  · have hcovers := exists_encode?_iff.1 ⟨bytes, h⟩
    rw [encode?_of_ne hutf8 hcovers] at h
    cases h
    exact decode?_map_byte hutf8 hcovers

/-- What was read from bytes has bytes. -/
lemma covers_of_decode? (h : encoding.decode? bytes = some t) : encoding.Covers t := by
  by_cases hutf8 : encoding = .utf8
  · subst hutf8
    exact covers_utf8 t
  · rw [decode?, characters_of_ne hutf8] at h
    induction bytes generalizing t with
    | nil =>
      cases h
      exact fun _ hc => absurd hc List.not_mem_nil
    | cons b rest ih =>
      simp only [List.map_cons, List.mapM_cons, id, Option.bind_eq_bind, Option.bind_eq_some_iff,
        Option.pure_def, Option.some_inj] at h
      obtain ⟨c, hc, others, hothers, rfl⟩ := h
      rw [Option.ite_none_right_eq_some] at hc
      obtain ⟨hlow, hc⟩ := hc
      cases hc
      have hb : b.toNat < 0x100 := b.toNat_lt
      have hnumber : (Char.ofNat b.toNat).toNat = b.toNat := by
        have hvalid : b.toNat.isValidChar := .inl (by omega)
        rw [Char.ofNat, dif_pos hvalid]
        rfl
      refine List.forall_mem_cons.2 ⟨?_, ih hothers⟩
      rw [encodeChar?_of_ne hutf8, hnumber, if_pos hlow, Option.isSome_some]

end Keyfile.Encoding

namespace Keyfile.Text

variable {t line : Text} {c : Char}

lemma mem_of_mem_lines (hline : line ∈ lines t) (hc : c ∈ line) : c ∈ t := by
  fun_induction lines t generalizing line with
  | case1 => cases hline
  | case2 rest ih =>
    rcases List.mem_cons.1 hline with rfl | hline
    · cases hc
    · exact List.mem_cons_of_mem _ (List.mem_cons_of_mem _ (ih hline hc))
  | case3 d rest hcrlf hbreak ih =>
    rcases List.mem_cons.1 hline with rfl | hline
    · cases hc
    · exact List.mem_cons_of_mem _ (ih hline hc)
  | case4 d rest hcrlf hsolid hnone ih =>
    obtain rfl := List.mem_singleton.1 hline
    obtain rfl := List.mem_singleton.1 hc
    exact List.mem_cons_self
  | case5 d rest hcrlf hsolid first others hlines ih =>
    rw [hlines] at ih
    rcases List.mem_cons.1 hline with rfl | hline
    · rcases List.mem_cons.1 hc with rfl | hc
      · exact List.mem_cons_self
      · exact List.mem_cons_of_mem _ (ih List.mem_cons_self hc)
    · exact List.mem_cons_of_mem _ (ih (List.mem_cons_of_mem _ hline) hc)

end Keyfile.Text
