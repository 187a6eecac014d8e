import Keyfile.Text.Encoding
import Mathlib.Tactic.Common

/-!
# Texts in UTF-8

Every text has bytes in UTF-8, and they are read back as the text.
-/

namespace Keyfile.Encoding

lemma toNat_byte {n : Nat} (h : n < 256) : (byte n).toNat = n := by
  rw [byte, UInt8.toNat_ofNat']
  exact Nat.mod_eq_of_lt h

lemma toNat_valid (c : Char) : c.toNat < 0xd800 ∨ 0xdfff < c.toNat ∧ c.toNat < 0x110000 :=
  c.valid

lemma continuing_cons {low high n : Nat} (hlow : low ≤ n) (hhigh : n ≤ high) (hn : n < 256)
    (count : Nat) (rest : Bytes) :
    continuing low high (count + 1) (byte n :: rest) = continuing 0x80 0xbf count rest + 1 := by
  rw [continuing, toNat_byte hn, if_pos (by simp [hlow, hhigh])]

/-- A first byte with as many followers as it announces makes one character. -/
lemma utf8Characters_lead {n count low high : Nat} {body rest : Bytes} (hn : n < 256)
    (hlead : 0x80 ≤ n) (hfollowers : followers? n = some (count, low, high))
    (hbody : body.length = count) (hcontinuing : continuing low high count (body ++ rest) = count) :
    utf8Characters (byte n :: body ++ rest) =
      some (Char.ofNat (body.foldl (fun bits b => bits * 64 + (b.toNat - 0x80)) (leadBits n count)))
        :: utf8Characters rest := by
  have htake : (body ++ rest).take count = body := by
    rw [← hbody]
    exact List.take_left
  have hdrop : (body ++ rest).drop count = rest := by
    rw [← hbody]
    exact List.drop_left
  rw [List.cons_append, utf8Characters, utf8Head, toNat_byte hn, if_neg (Nat.not_lt.mpr hlead),
    hfollowers]
  simp only [hcontinuing, Nat.lt_irrefl, if_false, htake, Nat.add_sub_cancel, hdrop]

lemma utf8Characters_one {n : Nat} (h : n < 0x80) (rest : Bytes) :
    utf8Characters (byte n :: rest) = some (Char.ofNat n) :: utf8Characters rest := by
  rw [utf8Characters, utf8Head, toNat_byte (by omega), if_pos h]
  rfl

lemma utf8Characters_two {n : Nat} (hlow : 0x80 ≤ n) (hhigh : n < 0x800) (rest : Bytes) :
    utf8Characters ([byte (0xc0 + n / 64), byte (0x80 + n % 64)] ++ rest) =
      some (Char.ofNat n) :: utf8Characters rest := by
  have hfollowers : followers? (0xc0 + n / 64) = some (1, 0x80, 0xbf) := by
    rw [followers?, if_pos (by simp; omega)]
  have hcontinuing : continuing 0x80 0xbf 1 ([byte (0x80 + n % 64)] ++ rest) = 1 :=
    continuing_cons (by omega) (by omega) (by omega) 0 rest
  have hbits : (0xc0 + n / 64 - 0xc0) * 64 + (0x80 + n % 64 - 0x80) = n := by omega
  have hlead : leadBits (0xc0 + n / 64) 1 = 0xc0 + n / 64 - 0xc0 := rfl
  have h := utf8Characters_lead (by omega) (by omega) hfollowers rfl hcontinuing
  rwa [List.foldl_cons, List.foldl_nil, hlead, toNat_byte (by omega), hbits] at h

/-- The range of the first follower keeps out the surrogates and what two bytes can say. -/
lemma utf8Characters_three {n : Nat} (hlow : 0x800 ≤ n) (hhigh : n < 0x10000)
    (hvalid : n < 0xd800 ∨ 0xdfff < n) (rest : Bytes) :
    utf8Characters ([byte (0xe0 + n / 4096), byte (0x80 + n / 64 % 64), byte (0x80 + n % 64)] ++
      rest) = some (Char.ofNat n) :: utf8Characters rest := by
  obtain ⟨low, high, hfollowers, hfirst⟩ : ∃ low high,
      followers? (0xe0 + n / 4096) = some (2, low, high) ∧
        low ≤ 0x80 + n / 64 % 64 ∧ 0x80 + n / 64 % 64 ≤ high := by
    unfold followers?
    rw [if_neg (by simp; omega)]
    by_cases h : n / 4096 = 0
    · refine ⟨0xa0, 0xbf, ?_, by omega⟩
      rw [h, if_pos (by decide)]
    by_cases h' : n / 4096 = 0xd
    · refine ⟨0x80, 0x9f, ?_, by omega⟩
      rw [h', if_neg (by decide), if_pos (by decide)]
    refine ⟨0x80, 0xbf, ?_, by omega⟩
    rw [if_neg (by simp; omega), if_neg (by simp; omega), if_pos (by simp; omega)]
  have hcontinuing : continuing low high 2
      ([byte (0x80 + n / 64 % 64), byte (0x80 + n % 64)] ++ rest) = 2 := by
    rw [List.cons_append, continuing_cons hfirst.1 hfirst.2 (by omega), List.singleton_append,
      continuing_cons (by omega) (by omega) (by omega)]
    rfl
  have hbits : ((0xe0 + n / 4096 - 0xe0) * 64 + (0x80 + n / 64 % 64 - 0x80)) * 64 +
      (0x80 + n % 64 - 0x80) = n := by omega
  have hlead : leadBits (0xe0 + n / 4096) 2 = 0xe0 + n / 4096 - 0xe0 := rfl
  have h := utf8Characters_lead (by omega) (by omega) hfollowers rfl hcontinuing
  rwa [List.foldl_cons, List.foldl_cons, List.foldl_nil, hlead, toNat_byte (by omega),
    toNat_byte (by omega), hbits] at h

lemma utf8Characters_four {n : Nat} (hlow : 0x10000 ≤ n) (hhigh : n < 0x110000) (rest : Bytes) :
    utf8Characters ([byte (0xf0 + n / 262144), byte (0x80 + n / 4096 % 64),
      byte (0x80 + n / 64 % 64), byte (0x80 + n % 64)] ++ rest) =
      some (Char.ofNat n) :: utf8Characters rest := by
  obtain ⟨low, high, hfollowers, hfirst⟩ : ∃ low high,
      followers? (0xf0 + n / 262144) = some (3, low, high) ∧
        low ≤ 0x80 + n / 4096 % 64 ∧ 0x80 + n / 4096 % 64 ≤ high := by
    unfold followers?
    rw [if_neg (by simp; omega), if_neg (by simp; omega), if_neg (by simp; omega),
      if_neg (by simp; omega)]
    by_cases h : n / 262144 = 0
    · refine ⟨0x90, 0xbf, ?_, by omega⟩
      rw [h, if_pos (by decide)]
    by_cases h' : n / 262144 = 4
    · refine ⟨0x80, 0x8f, ?_, by omega⟩
      rw [h', if_neg (by decide), if_pos (by decide)]
    refine ⟨0x80, 0xbf, ?_, by omega⟩
    rw [if_neg (by simp; omega), if_neg (by simp; omega), if_pos (by simp; omega)]
  have hcontinuing : continuing low high 3 ([byte (0x80 + n / 4096 % 64),
      byte (0x80 + n / 64 % 64), byte (0x80 + n % 64)] ++ rest) = 3 := by
    rw [List.cons_append, continuing_cons hfirst.1 hfirst.2 (by omega), List.cons_append,
      continuing_cons (by omega) (by omega) (by omega), List.singleton_append,
      continuing_cons (by omega) (by omega) (by omega)]
    rfl
  have hbits : (((0xf0 + n / 262144 - 0xf0) * 64 + (0x80 + n / 4096 % 64 - 0x80)) * 64 +
      (0x80 + n / 64 % 64 - 0x80)) * 64 + (0x80 + n % 64 - 0x80) = n := by omega
  have hlead : leadBits (0xf0 + n / 262144) 3 = 0xf0 + n / 262144 - 0xf0 := rfl
  have h := utf8Characters_lead (by omega) (by omega) hfollowers rfl hcontinuing
  rwa [List.foldl_cons, List.foldl_cons, List.foldl_cons, List.foldl_nil, hlead,
    toNat_byte (by omega), toNat_byte (by omega), toNat_byte (by omega), hbits] at h

/-- The bytes of a character are read back as the character. -/
lemma utf8Characters_append (c : Char) (rest : Bytes) :
    utf8Characters (utf8Bytes c ++ rest) = some c :: utf8Characters rest := by
  have hvalid := toNat_valid c
  have hchar : Char.ofNat c.toNat = c := Char.ofNat_toNat c
  rw [utf8Bytes]
  by_cases hone : c.toNat < 0x80
  · rw [if_pos hone, List.singleton_append, utf8Characters_one hone, hchar]
  by_cases htwo : c.toNat < 0x800
  · rw [if_neg hone, if_pos htwo, utf8Characters_two (by omega) htwo, hchar]
  by_cases hthree : c.toNat < 0x10000
  · rw [if_neg hone, if_neg htwo, if_pos hthree,
      utf8Characters_three (by omega) hthree (by omega), hchar]
  · rw [if_neg hone, if_neg htwo, if_neg hthree, utf8Characters_four (by omega) (by omega), hchar]

lemma utf8Characters_flatMap (t : Text) : utf8Characters (t.flatMap utf8Bytes) = t.map some := by
  induction t with
  | nil => rw [List.flatMap_nil, utf8Characters, List.map_nil]
  | cons c rest ih => rw [List.flatMap_cons, utf8Characters_append, ih, List.map_cons]

lemma encode?_utf8 (t : Text) : encode? .utf8 t = some (t.flatMap utf8Bytes) := by
  have h : t.mapM (encodeChar? .utf8) = some (t.map utf8Bytes) := by
    induction t with
    | nil => rfl
    | cons c rest ih => rw [List.mapM_cons, ih, encodeChar?]; rfl
  rw [encode?, h, Option.map_some, List.flatMap_def]

theorem decode?_utf8 (t : Text) : decode? .utf8 (t.flatMap utf8Bytes) = some t := by
  rw [decode?, characters, utf8Characters_flatMap]
  induction t with
  | nil => rfl
  | cons c rest ih => rw [List.map_cons, List.mapM_cons, ih]; rfl

end Keyfile.Encoding
