import Keyfile.Proofs.CaseFolding
import Keyfile.Proofs.DoubleReplacement
import Keyfile.Proofs.Results

/-!
# Relays

A relay has numbers for names, and the value of each number refers to the next one, up to a last
number with a plain value. No name comes back, and yet the first number has no expansion when the
relay is longer than names can be active.
-/

namespace Keyfile

variable {m : Type → Type} [Monad m]

/-- The pieces of the value of a number in a relay. -/
def relayedPieces (last number : Nat) : List Piece :=
  if number < last then [.reference .percent (Text.ofNat (number + 1))] else [.plain ['x']]

def relayed (last number : Nat) : Text :=
  Piece.text (relayedPieces last number)

/-- The numbers up to the last one with their values. -/
def relay (last : Nat) : Table :=
  ⟨(List.range (last + 1)).map fun number => (Text.ofNat number, relayed last number)⟩

lemma valid_ofNat (form : Form) (number : Nat) :
    (Piece.reference form (Text.ofNat number)).Valid :=
  ⟨Text.ofNat_ne_nil number, Text.notMem_ofNat (by decide) number,
    Text.notMem_ofNat (by decide) number, Text.notMem_ofNat (by decide) number,
    Text.notMem_ofNat (by decide) number⟩

lemma splits_relayed (last number : Nat) :
    Splits (relayed last number) (relayedPieces last number) := by
  refine ⟨?_, rfl⟩
  rw [relayedPieces]
  split
  · exact List.forall_mem_singleton.2 (valid_ofNat .percent _)
  · decide

lemma get?_relay {last number : Nat} (h : number ≤ last) :
    (relay last).get? (Text.ofNat number) = some (relayed last number) := by
  have hfind : (List.range (last + 1)).find? (fun other =>
      Text.lower (Text.ofNat other) == Text.lower (Text.ofNat number)) = some number := by
    refine List.find?_range_eq_some.2 ⟨BEq.refl _, List.mem_range.2 (by omega), ?_⟩
    intro other hless
    simp only [Text.lower_ofNat, Bool.not_eq_true', beq_eq_false_iff_ne]
    exact fun heq => Nat.ne_of_lt hless (Text.ofNat_injective heq)
  rw [Table.get?, relay, List.find?_map]
  exact congrArg (Option.map Prod.snd ∘ Option.map _) hfind

/-- Only numbers have values in a relay. -/
lemma exists_of_get?_relay {last : Nat} {name value : Text}
    (h : (relay last).get? name = some value) :
    ∃ number ≤ last, Text.lower name = Text.ofNat number ∧ value = relayed last number := by
  obtain ⟨entry, hfind, rfl⟩ := Option.map_eq_some_iff.1 h
  obtain ⟨number, hnumber, rfl⟩ := List.mem_map.1 (List.mem_of_find?_eq_some hfind)
  have hname := List.find?_some hfind
  refine ⟨number, by simpa [Nat.lt_succ_iff] using hnumber, ?_, rfl⟩
  rw [← Text.lower_ofNat]
  exact (beq_iff_eq.1 hname).symm

namespace Source

/-- A source whose value for a number refers to the next one, for as many numbers as can be
active. -/
def Relays (source : Source m) : Prop :=
  ∀ number < nestingLimit, Text.ofNat number ∈ source.names ∧
    source.ask (Text.ofNat number) =
      pure (some (Piece.text [.reference .percent (Text.ofNat (number + 1))]))

lemma relays_relay {last : Nat} (h : nestingLimit ≤ last) :
    (ofTable (relay last) : Source m).Relays := by
  intro number hless
  have hlast : number < last := Nat.lt_of_lt_of_le hless h
  constructor
  · refine List.mem_map.2 ⟨_, List.mem_map_of_mem (List.mem_range.2 (Nat.lt_succ_of_lt hlast)), ?_⟩
    exact Text.lower_ofNat number
  · change pure ((relay last).get? _) = _
    rw [get?_relay (Nat.le_of_lt hlast), relayed, relayedPieces, if_pos hlast]

variable [LawfulMonad m]

lemma Relays.chain_cons {source : Source m} (h : source.Relays) (rest : List (Source m)) :
    (chain (source :: rest)).Relays := by
  intro number hless
  obtain ⟨hlisted, hask⟩ := h number hless
  refine ⟨List.mem_append_left _ hlisted, ?_⟩
  change (source.ask _ >>= _) = _
  rw [hask, pure_bind]

end Source

/-- Each number leads one step deeper, until no further name is resolved. The induction is on the
number of names that can still become active. -/
lemma expandWithin_of_relays [LawfulMonad m] {source : Source m} (h : source.Relays)
    {number : Nat} {active : List Text} (hlength : active.length = number)
    (hidle : ∀ other, number ≤ other → Text.ofNat other ∉ active) (hle : number ≤ nestingLimit) :
    expandWithin source active (Piece.text [.reference .percent (Text.ofNat number)]) =
      throw .tooDeep := by
  induction hroom : nestingLimit - number generalizing number active with
  | zero =>
    rw [expandWithin]
    refine replaceBoth_percent_of_throw (valid_ofNat .percent number) ?_
    rw [Text.lower_ofNat, dif_neg (hidle number (Nat.le_refl number)), if_pos (by omega)]
  | succ room ih =>
    obtain ⟨hlisted, hask⟩ := h number (by omega)
    have hdeeper : expandWithin source (Text.ofNat number :: active)
        (Piece.text [.reference .percent (Text.ofNat (number + 1))]) = throw .tooDeep := by
      refine ih (by rw [List.length_cons, hlength]) (fun other hother => ?_) (by omega) (by omega)
      rw [List.mem_cons, not_or]
      exact ⟨fun heq => Nat.ne_of_gt hother (Text.ofNat_injective heq), hidle other (by omega)⟩
    rw [expandWithin]
    refine replaceBoth_percent_of_throw (valid_ofNat .percent number) ?_
    rw [Text.lower_ofNat, dif_neg (hidle number (Nat.le_refl number)), if_neg (by omega),
      dif_pos hlisted, hask, liftM_pure, pure_bind]
    dsimp only
    rw [hdeeper, throw_bind_eq]

/-- The first number of a relay that is too long has no expansion. -/
theorem expand_of_relays [LawfulMonad m] {source : Source m} (h : source.Relays) :
    expand source "%0%".toList = throw .tooDeep :=
  expandWithin_of_relays h rfl (fun _ _ => List.not_mem_nil) (Nat.zero_le _)

end Keyfile
