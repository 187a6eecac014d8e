import Keyfile.Proofs.Relays
import Keyfile.Proofs.Truncation
import Keyfile.Session.Environment
import Mathlib.Data.Finset.Card

/-!
# How deep expansions are nested

The value of a name is expanded within the expansion that asks for it, and a name that is active is
not expanded again. So an expansion that may nest as deep as there are names with a value is never
stopped: it ends with a text or runs into a cycle. What is expanded in fact is cut short by a limit
of its own, which does not depend on the names, where the nesting is deeper than that.
-/

namespace Keyfile

variable {m : Type → Type} [Monad m]

/-- What a reference to a name is replaced by, when the answers are expanded by `expandValue`. -/
def valueBy (ask : Text → m (Option Text))
    (expandValue : List Text → Text → ExceptT ExpansionError m Text)
    (active : List Text) (name : Text) : ExceptT ExpansionError m (Option Text) :=
  if active.contains (Text.lower name) then throw (.cycle name)
  else do
    match ← ask name with
    | none => return none
    | some raw => return some (← expandValue (Text.lower name :: active) raw)

/-- The expansion of a text that nests at most so many expansions of values in one another. It asks
for every name that is not active, and stops where a value comes up at the limit. -/
def expandTo (ask : Text → m (Option Text)) :
    Nat → List Text → Text → ExceptT ExpansionError m Text
  | 0, active, t => replaceBoth (valueBy ask (fun _ _ => throw .tooDeep) active) t
  | depth + 1, active, t => replaceBoth (valueBy ask (expandTo ask depth) active) t

namespace Source

/-- A source has no answer for a name that it does not list. -/
def Lists (source : Source m) : Prop :=
  ∀ name, Text.lower name ∉ source.names → source.ask name = pure none

lemma lists_silent : (silent : Source m).Lists :=
  fun _ _ => rfl

lemma lists_ofTable (table : Table) : (ofTable table : Source m).Lists := by
  intro name hname
  have hnone : table.get? name = none := by
    rw [Table.get?, Option.map_eq_none_iff, List.find?_eq_none]
    intro entry hentry hkey
    exact hname (List.mem_map.2 ⟨entry, hentry, by simpa using hkey⟩)
  exact congrArg pure hnone

lemma Lists.orElse [LawfulMonad m] {first second : Source m} (hfirst : first.Lists)
    (hsecond : second.Lists) : (first.orElse second).Lists := by
  intro name hname
  obtain ⟨hnotFirst, hnotSecond⟩ := not_or.1 (mt List.mem_append.2 hname)
  rw [Source.orElse]
  dsimp only
  rw [hfirst name hnotFirst, pure_bind]
  exact hsecond name hnotSecond

lemma lists_chain [LawfulMonad m] {lookups : List (Source m)}
    (h : ∀ lookup ∈ lookups, lookup.Lists) : (chain lookups).Lists := by
  induction lookups with
  | nil => exact lists_silent
  | cons first rest ih =>
    obtain ⟨hfirst, hrest⟩ := List.forall_mem_cons.1 h
    exact hfirst.orElse (ih hrest)

end Source

/-- An environment has answers for its variables and for the built-in ones only. -/
lemma Environment.lists_source (environment : Environment) : environment.source.Lists := by
  intro name hname
  obtain ⟨hbuiltin, hvariable⟩ := not_or.1 (mt List.mem_append.2 hname)
  have hnone : Builtin.ofName? (Text.lower name) = none := by
    rw [Builtin.ofName?, List.lookup_eq_none_iff]
    intro entry hentry
    rw [bne_iff_ne]
    intro hname
    exact hbuiltin (List.mem_map.2 ⟨entry, hentry, hname.symm⟩)
  have hget : environment.get? name = (Source.ofTable environment.table).ask name := by
    unfold Environment.get?
    rw [hnone]
    rfl
  exact hget.trans (Source.lists_ofTable environment.table name hvariable)

section Limit

variable {source : Source m} {resolved : Finset Text} {active : List Text} {name : Text}
  {expandValue : List Text → Text → ExceptT ExpansionError m Text}

/-- The names with an answer are among some names, in lower case. -/
def Source.ResolvesOnly (resolved : Finset Text) (source : Source m) : Prop :=
  ∀ name, Always (source.ask name) fun found => found ≠ none → Text.lower name ∈ resolved

/-- What a reference to a name is replaced by within active names. -/
def valueWithin (source : Source m) (active : List Text) (name : Text) :
    ExceptT ExpansionError m (Option Text) :=
  if active.contains (Text.lower name) then throw (.cycle name)
  else if nestingLimit ≤ active.length then throw .tooDeep
  else do
    match ← source.ask name with
    | none => return none
    | some raw => return some (← expandWithin source (Text.lower name :: active) raw)

lemma valueBy_of_active (ask : Text → m (Option Text)) (hactive : Text.lower name ∈ active) :
    valueBy ask expandValue active name = throw (.cycle name) := by
  rw [valueBy, if_pos (List.contains_iff_mem.2 hactive)]

/-- The answer for a name that is not active is expanded while the name is. -/
lemma valueBy_of_idle (hidle : Text.lower name ∉ active) :
    valueBy source.ask expandValue active name = ExceptT.lift (source.ask name) >>= fun found =>
      match found with
      | none => pure none
      | some raw => do return some (← expandValue (Text.lower name :: active) raw) := by
  rw [valueBy, if_neg (mt List.contains_iff_mem.1 hidle)]
  rfl

lemma valueWithin_of_active (hactive : Text.lower name ∈ active) :
    valueWithin source active name = throw (.cycle name) := by
  rw [valueWithin, if_pos (List.contains_iff_mem.2 hactive)]

/-- A name for which there is room is resolved as without a limit. -/
lemma valueWithin_of_room (hroom : active.length < nestingLimit) :
    valueWithin source active name = valueBy source.ask (expandWithin source) active name := by
  rw [valueWithin, valueBy, if_neg (Nat.not_le.2 hroom)]

lemma valueWithin_of_full (hidle : Text.lower name ∉ active)
    (hfull : nestingLimit ≤ active.length) : valueWithin source active name = throw .tooDeep := by
  rw [valueWithin, if_neg (mt List.contains_iff_mem.1 hidle), if_pos hfull]

/-- The names with a value that are not active. -/
def idleNames (resolved : Finset Text) (active : List Text) : Finset Text :=
  resolved \ active.toFinset

lemma mem_idleNames :
    name ∈ idleNames resolved active ↔ name ∈ resolved ∧ name ∉ active := by
  rw [idleNames, Finset.mem_sdiff, List.mem_toFinset]

lemma card_idleNames_cons (hidle : name ∈ idleNames resolved active) :
    (idleNames resolved (name :: active)).card < (idleNames resolved active).card := by
  apply Finset.card_lt_card
  rw [Finset.ssubset_iff_of_subset]
  · exact ⟨name, hidle, by simp [idleNames]⟩
  · intro other
    simp only [mem_idleNames, List.mem_cons, not_or]
    rintro ⟨hother, -, hactive⟩
    exact ⟨hother, hactive⟩

variable [LawfulMonad m]

/-- A source that lists its names might as well be asked for every name. -/
lemma expandWithin_eq (hlists : source.Lists) (active : List Text) (t : Text) :
    expandWithin source active t = replaceBoth (valueWithin source active) t := by
  have hvalue : ∀ name, valueWithin source active name =
      if _hactive : Text.lower name ∈ active then throw (.cycle name)
      else if nestingLimit ≤ active.length then throw .tooDeep
      else if _hlisted : Text.lower name ∈ source.names then do
        match ← source.ask name with
        | none => return none
        | some raw => return some (← expandWithin source (Text.lower name :: active) raw)
      else return none := by
    intro name
    rw [valueWithin]
    by_cases hactive : Text.lower name ∈ active
    · rw [dif_pos hactive, if_pos (List.contains_iff_mem.2 hactive)]
    · rw [dif_neg hactive, if_neg (mt List.contains_iff_mem.1 hactive)]
      congr 1
      by_cases hlisted : Text.lower name ∈ source.names
      · rw [dif_pos hlisted]
      · simp [hlisted, hlists name hlisted]
  rw [funext hvalue]
  exact expandWithin.eq_def source active t

lemma truncates_replaceBoth {value value' : Text → ExceptT ExpansionError m (Option Text)}
    (h : ∀ name, Truncates .tooDeep (value name) (value' name)) (t : Text) :
    Truncates .tooDeep (replaceBoth value t) (replaceBoth value' t) :=
  (Truncates.replace .percent h t).bind fun once => .replace .dollar h once

/-- The answers that come are those of idle names, so only these need to be expanded alike. -/
lemma truncates_valueBy (hresolved : source.ResolvesOnly resolved)
    {expandValue' : List Text → Text → ExceptT ExpansionError m Text}
    (h : ∀ name ∈ idleNames resolved active, ∀ raw, Truncates .tooDeep
      (expandValue (name :: active) raw) (expandValue' (name :: active) raw)) (name : Text) :
    Truncates .tooDeep (valueBy source.ask expandValue active name)
      (valueBy source.ask expandValue' active name) := by
  by_cases hactive : Text.lower name ∈ active
  · rw [valueBy_of_active source.ask hactive, valueBy_of_active source.ask hactive]
    exact .refl _
  · rw [valueBy_of_idle hactive, valueBy_of_idle hactive]
    refine .lift_bind (hresolved name) fun found hfound => ?_
    cases found with
    | none => exact .refl _
    | some raw =>
      have hidle : Text.lower name ∈ idleNames resolved active :=
        mem_idleNames.2 ⟨hfound (by simp), hactive⟩
      exact (h _ hidle raw).bind fun _ => .refl _

lemma truncates_valueWithin (hresolved : source.ResolvesOnly resolved)
    (h : active.length < nestingLimit → ∀ name ∈ idleNames resolved active, ∀ raw,
      Truncates .tooDeep (expandWithin source (name :: active) raw)
        (expandValue (name :: active) raw)) (name : Text) :
    Truncates .tooDeep (valueWithin source active name)
      (valueBy source.ask expandValue active name) := by
  rcases Nat.lt_or_ge active.length nestingLimit with hroom | hfull
  · rw [valueWithin_of_room hroom]
    exact truncates_valueBy hresolved (h hroom) name
  · by_cases hactive : Text.lower name ∈ active
    · rw [valueWithin_of_active hactive, valueBy_of_active source.ask hactive]
      exact .refl _
    · rw [valueWithin_of_full hactive hfull]
      exact .throw _

/-- Where there is room for every idle name, or for as many names as can be active, an expansion is
what comes without its own limit, up to where that stops it. -/
lemma truncates_expandWithin (hlists : source.Lists) (hresolved : source.ResolvesOnly resolved)
    {depth : Nat} (hdepth : (idleNames resolved active).card ≤ depth ∨
      nestingLimit ≤ active.length + depth) (t : Text) :
    Truncates .tooDeep (expandWithin source active t) (expandTo source.ask depth active t) := by
  induction depth generalizing active t with
  | zero =>
    rw [expandWithin_eq hlists]
    refine truncates_replaceBoth (truncates_valueWithin hresolved fun hroom idle hidle => ?_) t
    have hnone := Finset.card_pos.2 ⟨idle, hidle⟩
    omega
  | succ depth ih =>
    rw [expandWithin_eq hlists]
    refine truncates_replaceBoth (truncates_valueWithin hresolved fun _ idle hidle raw => ?_) t
    have hless := card_idleNames_cons hidle
    refine ih ?_ raw
    rw [List.length_cons]
    omega

/-- What is nested less deep than the limit is expanded as if there were no limit. -/
lemma truncates_expandTo (hlists : source.Lists) (hresolved : source.ResolvesOnly resolved)
    {depth : Nat} (hroom : active.length + depth < nestingLimit) (t : Text) :
    Truncates .tooDeep (expandTo source.ask depth active t) (expandWithin source active t) := by
  induction depth generalizing active t with
  | zero =>
    rw [expandWithin_eq hlists]
    refine truncates_replaceBoth (fun name => ?_) t
    rw [valueWithin_of_room (by omega)]
    exact truncates_valueBy hresolved (fun _ _ _ => .throw _) name
  | succ depth ih =>
    rw [expandWithin_eq hlists]
    refine truncates_replaceBoth (fun name => ?_) t
    rw [valueWithin_of_room (by omega)]
    refine truncates_valueBy hresolved (fun _ _ raw => ih ?_ raw) name
    rw [List.length_cons]
    omega

/-- An expansion ends with a text or with a cycle. -/
def TextOrCycle {α : Type} : Except ExpansionError α → Prop
  | .ok _ => True
  | .error error => ∃ name, error = .cycle name

lemma textOrCycle_bind {α β : Type} {x : ExceptT ExpansionError m α}
    {f : α → ExceptT ExpansionError m β} (hx : Always x.run TextOrCycle)
    (hf : ∀ a, Always (f a).run TextOrCycle) : Always (x >>= f).run TextOrCycle :=
  hx.bind_run (fun a _ => hf a) fun _ herror => herror

lemma textOrCycle_pure {α : Type} (a : α) :
    Always (pure a : ExceptT ExpansionError m α).run TextOrCycle :=
  Always.run_pure trivial

lemma textOrCycle_replace {value : Text → ExceptT ExpansionError m (Option Text)}
    (h : ∀ name, Always (value name).run TextOrCycle) (form : Form) (t : Text) :
    Always (form.replace value t).run TextOrCycle := by
  have hsegment : ∀ segment, Always (form.substitute value segment).run TextOrCycle := by
    rintro (t | name)
    · exact textOrCycle_pure t
    · rw [Form.substitute]
      split
      · exact textOrCycle_pure _
      · refine textOrCycle_bind (h name) fun found => ?_
        cases found <;> exact textOrCycle_pure _
  refine textOrCycle_bind ?_ fun parts => textOrCycle_pure _
  induction form.segments t with
  | nil => exact textOrCycle_pure []
  | cons segment rest ih =>
    rw [List.mapM_cons]
    exact textOrCycle_bind (hsegment segment) fun _ => textOrCycle_bind ih fun _ =>
      textOrCycle_pure _

lemma textOrCycle_replaceBoth {value : Text → ExceptT ExpansionError m (Option Text)}
    (h : ∀ name, Always (value name).run TextOrCycle) (t : Text) :
    Always (replaceBoth value t).run TextOrCycle :=
  textOrCycle_bind (textOrCycle_replace h .percent t) (textOrCycle_replace h .dollar)

lemma textOrCycle_valueBy (hresolved : source.ResolvesOnly resolved)
    (h : ∀ name ∈ idleNames resolved active, ∀ raw,
      Always (expandValue (name :: active) raw).run TextOrCycle) (name : Text) :
    Always (valueBy source.ask expandValue active name).run TextOrCycle := by
  by_cases hactive : Text.lower name ∈ active
  · rw [valueBy_of_active source.ask hactive]
    exact Always.run_throw ⟨name, rfl⟩
  · rw [valueBy_of_idle hactive, ExceptT.run_bind_lift]
    refine (hresolved name).bind fun found hfound => ?_
    cases found with
    | none => exact textOrCycle_pure none
    | some raw =>
      have hidle : Text.lower name ∈ idleNames resolved active :=
        mem_idleNames.2 ⟨hfound (by simp), hactive⟩
      exact textOrCycle_bind (h _ hidle raw) fun expanded => textOrCycle_pure (some expanded)

/-- With room for every idle name, an expansion is not stopped by the depth that it may nest. -/
lemma textOrCycle_expandTo (hresolved : source.ResolvesOnly resolved) {depth : Nat}
    (hdepth : (idleNames resolved active).card ≤ depth) (t : Text) :
    Always (expandTo source.ask depth active t).run TextOrCycle := by
  induction depth generalizing active t with
  | zero =>
    refine textOrCycle_replaceBoth (textOrCycle_valueBy hresolved fun idle hidle => ?_) t
    rw [Finset.card_eq_zero.1 (Nat.le_zero.1 hdepth)] at hidle
    cases hidle
  | succ depth ih =>
    refine textOrCycle_replaceBoth (textOrCycle_valueBy hresolved fun idle hidle raw => ?_) t
    have hless := card_idleNames_cons hidle
    exact ih (by omega) raw

/-- With fewer idle names than can become active, an expansion is not stopped by the limit. -/
lemma textOrCycle_expandWithin (hlists : source.Lists) (hresolved : source.ResolvesOnly resolved)
    {depth : Nat} (hdepth : (idleNames resolved active).card ≤ depth)
    (hroom : active.length + depth < nestingLimit) (t : Text) :
    Always (expandWithin source active t).run TextOrCycle := by
  induction depth generalizing active t with
  | zero =>
    rw [expandWithin_eq hlists]
    refine textOrCycle_replaceBoth (fun name => ?_) t
    rw [valueWithin_of_room (by omega)]
    refine textOrCycle_valueBy hresolved (fun idle hidle => ?_) name
    rw [Finset.card_eq_zero.1 (Nat.le_zero.1 hdepth)] at hidle
    cases hidle
  | succ depth ih =>
    rw [expandWithin_eq hlists]
    refine textOrCycle_replaceBoth (fun name => ?_) t
    rw [valueWithin_of_room (by omega)]
    refine textOrCycle_valueBy hresolved (fun idle hidle raw => ?_) name
    have hless := card_idleNames_cons hidle
    refine ih (by omega) ?_ raw
    rw [List.length_cons]
    omega

lemma Source.Lists.resolvesOnly (h : source.Lists) :
    source.ResolvesOnly source.names.toFinset := by
  intro name
  by_cases hname : Text.lower name ∈ source.names
  · exact (Always.of_any _).mono fun _ _ _ => List.mem_toFinset.2 hname
  · rw [h name hname]
    exact Always.of_pure fun hfound => absurd rfl hfound

/-- Without the limit, an expansion by any chain of look-ups that answers for finitely many names
only ends with a text or runs into a cycle. What is expanded in fact is that up to where the limit
stops it. It never nests more expansions in one another than there are such names, nor than names
can be active; and it is not stopped where it is nested less deep than that, in particular never
when there are fewer such names. -/
theorem expandTo_card_resolved {lookups : List (Source m)}
    (hlists : ∀ lookup ∈ lookups, lookup.Lists)
    (hresolved : (Source.chain lookups).ResolvesOnly resolved) (t : Text) :
    Always (expandTo (Source.chain lookups).ask resolved.card [] t).run TextOrCycle ∧
      (∀ depth, resolved.card ≤ depth ∨ nestingLimit ≤ depth → Truncates .tooDeep
        (expand (Source.chain lookups) t) (expandTo (Source.chain lookups).ask depth [] t)) ∧
      (∀ depth < nestingLimit, Truncates .tooDeep
        (expandTo (Source.chain lookups).ask depth [] t) (expand (Source.chain lookups) t)) ∧
      (resolved.card < nestingLimit →
        Always (expand (Source.chain lookups) t).run TextOrCycle) := by
  have hchain := Source.lists_chain hlists
  have hcard : (idleNames resolved []).card ≤ resolved.card :=
    Finset.card_le_card Finset.sdiff_subset
  refine ⟨textOrCycle_expandTo hresolved hcard t, fun depth hdepth => ?_, fun depth hless => ?_,
    fun hless => ?_⟩
  · refine truncates_expandWithin hchain hresolved (hdepth.imp hcard.trans fun hlimit => ?_) t
    simpa using hlimit
  · exact truncates_expandTo hchain hresolved (by simpa using hless) t
  · exact textOrCycle_expandWithin hchain hresolved hcard (by simpa using hless) t

end Limit

def identified : Table :=
  .ofPairs [("a".toList, "%B%-$(".toList), ("b".toList, "$(Guid)".toList)]

def identifiedLookups : List (Source Session) :=
  [.ofTable identified, Environment.source {}]

theorem expandTo_card_identified :
    Always (expand (Source.chain identifiedLookups) "$(A)%".toList).run TextOrCycle ∧
      ((expand (Source.chain identifiedLookups) "$(A)%".toList).run.run.run default).1 =
        .ok (.ok "00000000-0000-4000-8000-000000000001-$(%".toList) := by
  have hlists : ∀ lookup ∈ identifiedLookups, lookup.Lists := by
    intro lookup hlookup
    simp only [identifiedLookups, List.mem_cons, List.not_mem_nil, or_false] at hlookup
    rcases hlookup with rfl | rfl
    · exact Source.lists_ofTable identified
    · exact Environment.lists_source {}
  have hresolved := (Source.lists_chain hlists).resolvesOnly
  have hcard : (Source.chain identifiedLookups).names.toFinset.card = 22 := by decide +kernel
  have hless : (Source.chain identifiedLookups).names.toFinset.card < nestingLimit := by
    rw [hcard]
    decide
  obtain ⟨-, -, hshallow, hends⟩ := expandTo_card_resolved hlists hresolved "$(A)%".toList
  refine ⟨hends hless, ?_⟩
  have hrun : ((expandTo (Source.chain identifiedLookups).ask 3 [] "$(A)%".toList).run.run.run
      default).1 = .ok (.ok "00000000-0000-4000-8000-000000000001-$(%".toList) := by
    decide +kernel
  rw [(hshallow 3 (by decide)).run_eq (by rw [hrun]; rintro ⟨⟩), hrun]

/-- There are finitely many names, and the expansion of the first one ends with neither a text nor
a cycle. -/
theorem expand_relay_not_textOrCycle :
    (Source.ofTable (relay 500) : Source Id).Lists ∧
      (∃ resolved, (Source.chain [.ofTable (relay 500)] : Source Id).ResolvesOnly resolved) ∧
      ¬Always (expand (m := Id) (Source.chain [.ofTable (relay 500)]) "%0%".toList).run
        TextOrCycle := by
  have hlists : (Source.chain [.ofTable (relay 500)] : Source Id).Lists :=
    Source.lists_chain (List.forall_mem_singleton.2 (Source.lists_ofTable _))
  refine ⟨Source.lists_ofTable _, ⟨_, hlists.resolvesOnly⟩, ?_⟩
  rw [expand_of_relays ((Source.relays_relay (by decide)).chain_cons [])]
  rintro ⟨⟨result, hresult⟩, rfl⟩
  obtain ⟨name, heq⟩ := hresult
  cases heq

end Keyfile
