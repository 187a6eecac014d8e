import Keyfile.Proofs.Replacing
import Keyfile.Proofs.Returning
import Mathlib.Tactic.Common

/-!
# Names that lead straight to their file

Whether a name is there is found out by going from directory to directory, and only then the name is
resolved. Going and resolving come to the same where everything stands in a directory, the name
takes no step back and no part of it is too long.
-/

namespace Keyfile

namespace Path

/-- Steps none of which leads back are added one after the other. -/
lemma foldl_step {parts : List Text} (h : ['.', '.'] ∉ parts.filter isStep) (here : Path) :
    parts.foldl step here = here ++ parts.filter isStep := by
  induction parts generalizing here with
  | nil => simp
  | cons part rest ih =>
    rw [List.foldl_cons]
    by_cases hstep : isStep part = true
    · have hparts : part ≠ [] ∧ part ≠ ['.'] := by simpa [isStep] using hstep
      rw [List.filter_cons_of_pos hstep] at h ⊢
      have hback : part ≠ ['.', '.'] := fun heq => h (heq ▸ List.mem_cons_self)
      have hnext : step here part = here ++ [part] := by simp [step, hparts, hback]
      rw [hnext, ih fun hmem => h (List.mem_cons_of_mem _ hmem), List.append_assoc]
      rfl
    · have hparts : part = [] ∨ part = ['.'] := by simpa [isStep, or_iff_not_imp_left] using hstep
      rw [List.filter_cons_of_neg hstep] at h ⊢
      have hnext : step here part = here := by simp [step, hparts]
      rw [hnext, ih h]

end Path

namespace FileTree

variable {tree : FileTree}

lemma sound_empty : Sound {} := by
  intro here below hbelow hthere
  have hne : here ++ below ≠ [] := by simp [hbelow]
  rw [contains, get?, if_neg hne] at hthere
  cases hthere

/-- Going from directory to directory finds what stands under the whole way. -/
lemma leads_of_sound (h : tree.Sound) {names : List Text}
    (hnames : ∀ name ∈ names, Path.isStep name ∧ name ≠ ['.', '.'] ∧ isTooLongName name = false)
    (here : Path) : tree.leads here names = .ok (tree.contains (here ++ names)) := by
  induction names generalizing here with
  | nil => rw [leads, List.append_nil]
  | cons name rest ih =>
    obtain ⟨⟨hname, hback, hshort⟩, hrest⟩ := List.forall_mem_cons.1 hnames
    have hparts : name ≠ [] ∧ name ≠ ['.'] := by simpa [Path.isStep] using hname
    have hstep : Path.step here name = here ++ [name] := by simp [Path.step, hparts, hback]
    rw [leads]
    split
    · rw [hshort, hstep, ih hrest, List.append_assoc]
      rfl
    · rename_i hnowhere
      have habsent : tree.contains (here ++ name :: rest) = false := by
        rw [Bool.eq_false_iff]
        intro hthere
        exact hnowhere (h here (name :: rest) (List.cons_ne_nil _ _) hthere)
      rw [habsent]

/-- Where the whole way is made of directories, going along it finds what stands at its end. -/
lemma leads_of_directories {names : List Text}
    (hnames : ∀ name ∈ names, Path.isStep name ∧ name ≠ ['.', '.'] ∧ isTooLongName name = false)
    {here : Path} (hway : ∀ place, here <+: place → place <+: here ++ names →
      place ≠ here ++ names → tree.get? place = some .directory) :
    tree.leads here names = .ok (tree.contains (here ++ names)) := by
  induction names generalizing here with
  | nil => rw [leads, List.append_nil]
  | cons name rest ih =>
    obtain ⟨⟨hname, hback, hshort⟩, hrest⟩ := List.forall_mem_cons.1 hnames
    have hparts : name ≠ [] ∧ name ≠ ['.'] := by simpa [Path.isStep] using hname
    have hstep : Path.step here name = here ++ [name] := by simp [Path.step, hparts, hback]
    have hhere : tree.get? here = some .directory :=
      hway here List.prefix_rfl (List.prefix_append _ _) (by simp)
    have happend : here ++ name :: rest = here ++ [name] ++ rest := by simp
    rw [leads, hhere]
    dsimp only
    rw [happend] at hway
    rw [hshort, hstep, happend]
    refine ih hrest fun place hplace hbelow hne => ?_
    exact hway place ((List.prefix_append here [name]).trans hplace) hbelow hne

end FileTree

lemma Session.run_expandHome_eq (name : Text) (world : World) :
    (expandHome name).run.run world =
      ((match Path.expandHome world.homeOf name with
        | some t => pure t
        | none =>
          if (Path.steps name).take 1 |>.all Path.isNameable then throw .homeUnknown
          else throw (.file .nameInvalid) : Session Text).run.run world) :=
  rfl

/-- A name that means the same to those who ask whether it is there and to those who read it. -/
def World.Finds (world : World) (name : Text) : Prop :=
  ∃ path, (Session.resolve name).run.run world = (.ok path, world) ∧
    world.files.leadsTo world.directory name = .ok (world.files.contains path)

/-- A name that stands for no home directory, takes no step back and is nowhere too long. -/
structure World.Straight (world : World) (name : Text) : Prop where
  nameable : Path.isNameable name
  plain : Path.expandHome world.homeOf name = some name
  forward : ['.', '.'] ∉ Path.steps name
  short : FileTree.isTooLongWay (Path.collapsed name) = false
  shortNames : ∀ part ∈ Path.steps name, FileTree.isTooLongName part = false

namespace World

variable {world : World} {name : Text}

lemma Straight.names (h : world.Straight name) : ∀ part ∈ Path.steps name,
    Path.isStep part ∧ part ≠ ['.', '.'] ∧ FileTree.isTooLongName part = false := by
  intro part hpart
  have hstep : Path.isStep part = true := (List.mem_filter.1 hpart).2
  exact ⟨hstep, fun heq => h.forward (heq ▸ hpart), h.shortNames part hpart⟩

lemma Straight.ofText_eq (h : world.Straight name) : Path.ofText world.directory name =
    Path.start world.directory name ++ Path.steps name :=
  Path.foldl_step h.forward _

lemma Straight.leadsTo (h : world.Straight name) (hsound : world.files.Sound) :
    world.files.leadsTo world.directory name =
      .ok (world.files.contains (Path.ofText world.directory name)) := by
  rw [FileTree.leadsTo, h.nameable, h.short, h.ofText_eq]
  exact FileTree.leads_of_sound hsound h.names _

lemma Straight.leadsTo_of_directories (h : world.Straight name)
    (hway : ∀ place, place <+: Path.ofText world.directory name →
      place ≠ Path.ofText world.directory name → world.files.get? place = some .directory) :
    world.files.leadsTo world.directory name =
      .ok (world.files.contains (Path.ofText world.directory name)) := by
  rw [h.ofText_eq] at hway
  rw [FileTree.leadsTo, h.nameable, h.short, h.ofText_eq]
  exact FileTree.leads_of_directories h.names fun place _ hplace hne => hway place hplace hne

lemma Straight.run_expandHome (h : world.Straight name) :
    (Session.expandHome name).run.run world = (.ok name, world) := by
  rw [Session.run_expandHome_eq, h.plain]
  rfl

lemma Straight.run_resolve (h : world.Straight name) :
    (Session.resolve name).run.run world = (.ok (Path.ofText world.directory name), world) := by
  rw [Session.resolve, Session.run_bind_of_ok h.run_expandHome, h.nameable]
  rfl

end World

end Keyfile
