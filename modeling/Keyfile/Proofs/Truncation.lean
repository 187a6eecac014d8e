import Keyfile.Proofs.Results
import Keyfile.Reference.Expansion

/-!
# Computations that are cut short

A computation with a limit does what the computation without it does until the limit stops it. So
all its other outcomes, with all their effects, are those of the longer computation, which goes on
where the shorter one stops.
-/

namespace Keyfile

variable {m : Type → Type} [Monad m] {ε α β : Type}

/-- The computation `full` does what `cut` does, and goes on where `cut` ends with `stop`: there is
one computation that comes to a result of both, or to what is left of `full`. -/
def Truncates (stop : ε) (cut full : ExceptT ε m α) : Prop :=
  ∃ ways : m (Except ε α ⊕ m (Except ε α)),
    cut.run = ways >>= Sum.elim pure (fun _ => pure (.error stop)) ∧
      full.run = ways >>= Sum.elim pure id

namespace Truncates

variable [LawfulMonad m] {stop : ε} {cut full : ExceptT ε m α}

lemma refl (x : ExceptT ε m α) : Truncates stop x x :=
  ⟨.inl <$> x.run, by simp, by simp⟩

lemma throw (full : ExceptT ε m α) : Truncates stop (throw stop) full :=
  ⟨pure (.inr full.run), by simp, by simp⟩

lemma bind {f g : α → ExceptT ε m β} (h : Truncates stop cut full)
    (hnext : ∀ a, Truncates stop (f a) (g a)) : Truncates stop (cut >>= f) (full >>= g) := by
  obtain ⟨ways, hcut, hfull⟩ := h
  choose next hf hg using hnext
  let onwards : Except ε α ⊕ m (Except ε α) → m (Except ε β ⊕ m (Except ε β))
    | .inl (.ok a) => next a
    | .inl (.error error) => pure (.inl (.error error))
    | .inr rest => pure (.inr (ExceptT.mk rest >>= g).run)
  refine ⟨ways >>= onwards, ?_, ?_⟩
  · rw [ExceptT.run_bind, hcut, bind_assoc, bind_assoc]
    apply bind_congr
    rintro ((error | a) | rest)
    · simp [onwards]
    · simp [onwards, hf]
    · simp [onwards]
  · rw [ExceptT.run_bind, hfull, bind_assoc, bind_assoc]
    apply bind_congr
    rintro ((error | a) | rest)
    · simp [onwards]
    · simp [onwards, hg]
    · simp [onwards, ExceptT.run_bind]

/-- Only the answers that come need to be followed up alike. -/
lemma lift_bind {x : m α} {p : α → Prop} (h : Always x p) {f g : α → ExceptT ε m β}
    (hnext : ∀ a, p a → Truncates stop (f a) (g a)) :
    Truncates stop (ExceptT.lift x >>= f) (ExceptT.lift x >>= g) := by
  obtain ⟨y, rfl⟩ := h
  have hlift : ∀ next : α → ExceptT ε m β,
      ExceptT.lift (Subtype.val <$> y) >>= next = ExceptT.lift y >>= fun a => next a.1 := by
    intro next
    apply ExceptT.ext
    rw [ExceptT.run_bind_lift, ExceptT.run_bind_lift, bind_map_left]
  rw [hlift, hlift]
  exact (refl _).bind fun a => hnext a.1 a.2

lemma mapM {f g : α → ExceptT ε m β} (h : ∀ a, Truncates stop (f a) (g a)) (list : List α) :
    Truncates stop (list.mapM f) (list.mapM g) := by
  induction list with
  | nil => exact .refl _
  | cons a rest ih =>
    rw [List.mapM_cons, List.mapM_cons]
    exact (h a).bind fun _ => ih.bind fun _ => .refl _

variable {value value' : Text → ExceptT ε m (Option Text)}

lemma substitute (form : Form) (h : ∀ name, Truncates stop (value name) (value' name))
    (segment : Segment) :
    Truncates stop (form.substitute value segment) (form.substitute value' segment) := by
  cases segment with
  | plain t => exact .refl _
  | reference name =>
    rw [Form.substitute, Form.substitute]
    split
    · exact .refl _
    · exact (h name).bind fun _ => .refl _

lemma replace (form : Form) (h : ∀ name, Truncates stop (value name) (value' name)) (t : Text) :
    Truncates stop (form.replace value t) (form.replace value' t) :=
  (mapM (substitute form h) (form.segments t)).bind fun _ => .refl _

/-- In a session, a run that is not stopped by the limit is the run without it. -/
lemma run_eq {cut full : ExceptT ε Session α} (h : Truncates stop cut full) {world : World}
    (hends : (cut.run.run.run world).1 ≠ .ok (.error stop)) :
    full.run.run.run world = cut.run.run.run world := by
  obtain ⟨ways, hcut, hfull⟩ := h
  rw [hcut] at hends ⊢
  rw [hfull]
  simp only [ExceptT.run_bind, StateT.run_bind] at hends ⊢
  rcases hways : ways.run.run world with ⟨failure | result | rest, after⟩
  · rfl
  · rfl
  · rw [hways] at hends
    exact absurd rfl hends

end Truncates

end Keyfile
