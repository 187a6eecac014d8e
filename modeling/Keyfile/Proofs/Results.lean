import Keyfile.Proofs.Returning

/-!
# Results of computations

All results of a computation have a property when the computation can be made of results that carry
it. In a monad of states this speaks of every run; in a session it speaks of the runs that end.
-/

namespace Keyfile

variable {m : Type → Type} [Monad m] {ε σ α β : Type}

def Always (x : m α) (p : α → Prop) : Prop :=
  ∃ y : m { a // p a }, Subtype.val <$> y = x

namespace Always

variable {p q : α → Prop}

section Lawful

variable [LawfulMonad m]

lemma of_pure {a : α} (h : p a) : Always (pure a : m α) p :=
  ⟨pure ⟨a, h⟩, by simp⟩

lemma of_any (x : m α) : Always x fun _ => True :=
  ⟨(⟨·, trivial⟩) <$> x, by simp⟩

lemma mono {x : m α} (h : Always x p) (himp : ∀ a, p a → q a) : Always x q := by
  obtain ⟨y, rfl⟩ := h
  exact ⟨(fun a => ⟨a.1, himp a.1 a.2⟩) <$> y, by simp⟩

lemma bind {x : m α} {f : α → m β} {r : β → Prop} (hx : Always x p)
    (hf : ∀ a, p a → Always (f a) r) : Always (x >>= f) r := by
  obtain ⟨y, rfl⟩ := hx
  choose g hg using hf
  refine ⟨y >>= fun a => g a.1 a.2, ?_⟩
  rw [map_bind, bind_map_left]
  apply bind_congr
  intro a
  exact hg a.1 a.2

lemma map {x : m α} {f : α → β} {r : β → Prop} (hx : Always x p) (hf : ∀ a, p a → r (f a)) :
    Always (f <$> x) r := by
  obtain ⟨y, rfl⟩ := hx
  exact ⟨(fun a => ⟨f a.1, hf a.1 a.2⟩) <$> y, by simp⟩

/-- What follows a computation that can end in an error sees its results; its errors are passed
on. -/
lemma bind_run {x : ExceptT ε m α} {f : α → ExceptT ε m β} {p : Except ε α → Prop}
    {r : Except ε β → Prop} (hx : Always x.run p) (hok : ∀ a, p (.ok a) → Always (f a).run r)
    (herror : ∀ error, p (.error error) → r (.error error)) : Always (x >>= f).run r := by
  rw [ExceptT.run_bind]
  refine hx.bind fun result hresult => ?_
  cases result with
  | ok a => exact hok a hresult
  | error error => exact .of_pure (herror error hresult)

lemma run_pure {a : α} {p : Except ε α → Prop} (h : p (.ok a)) :
    Always (pure a : ExceptT ε m α).run p :=
  of_pure h

lemma run_throw {error : ε} {p : Except ε α → Prop} (h : p (.error error)) :
    Always (throw error : ExceptT ε m α).run p :=
  of_pure h

lemma run_throw_bind {error : ε} {f : α → ExceptT ε m β} {r : Except ε β → Prop}
    (h : r (.error error)) : Always (throw error >>= f).run r := by
  rw [ExceptT.run_bind, ExceptT.run_throw, pure_bind]
  exact of_pure h

/-- A computation that cannot end in an error passes any result on. -/
lemma run_lift_bind {x : m α} {f : α → ExceptT ε m β} {r : Except ε β → Prop}
    (h : ∀ a, Always (f a).run r) : Always (ExceptT.lift x >>= f).run r := by
  rw [ExceptT.run_bind_lift]
  exact (of_any x).bind fun a _ => h a

lemma run_adapt {ε' : Type} {x : ExceptT ε m α} {f : ε → ε'} {p : Except ε' α → Prop}
    (hok : ∀ a, p (.ok a)) (herror : ∀ error, p (.error (f error))) :
    Always (ExceptT.adapt f x).run p := by
  apply (of_any x.run).map
  intro result _
  cases result with
  | ok a => exact hok a
  | error error => exact herror error

lemma run_record_bind [Journal m] (event : Event) {x : Unit → ExceptT ε m α}
    {p : Except ε α → Prop} (h : Always (x ()).run p) : Always (Journal.record event >>= x).run p :=
  run_lift_bind fun _ => h

/-- A property of the results that are no errors is one of the computation that can end in one. -/
lemma of_run {x : ExceptT ε m α} {p : Except ε α → Prop} (h : Always x.run p) {q : α → Prop}
    (hok : ∀ a, p (.ok a) → q a) : Always x q := by
  obtain ⟨y, hy⟩ := h
  let carry : { result // p result } → Except ε { a // q a }
    | ⟨.ok a, ha⟩ => .ok ⟨a, hok a ha⟩
    | ⟨.error error, _⟩ => .error error
  have hcarry : ∀ result, Except.map Subtype.val (carry result) = result.1 := by
    rintro ⟨error | a, h⟩ <;> rfl
  refine ⟨ExceptT.mk (carry <$> y), ?_⟩
  apply ExceptT.ext
  rw [ExceptT.run_map, ← hy]
  change Except.map Subtype.val <$> carry <$> y = _
  rw [Functor.map_map]
  exact congrArg (· <$> y) (funext hcarry)

/-- What follows a computation needs to agree on the results that come only. -/
lemma bind_eq {x : m α} (h : Always x p) {f g : α → m β} (heq : ∀ a, p a → f a = g a) :
    x >>= f = x >>= g := by
  obtain ⟨y, rfl⟩ := h
  rw [bind_map_left, bind_map_left]
  exact bind_congr fun a => heq a.1 a.2

end Lawful

lemma of_run_id {x : Id α} (h : Always x p) : p x.run := by
  obtain ⟨y, rfl⟩ := h
  exact y.2

lemma of_run_state {x : StateM σ α} (h : Always x p) (state : σ) : p (x.run state).1 := by
  obtain ⟨y, rfl⟩ := h
  exact (y.run state).1.2

lemma of_run_session {x : Session α} (h : Always x p) {world after : World} {a : α}
    (hrun : x.run.run world = (.ok a, after)) : p a := by
  obtain ⟨y, rfl⟩ := h
  have hmap : (Subtype.val <$> y : Session α).run.run world =
      ((y.run.run world).1.map Subtype.val, (y.run.run world).2) := by
    simp only [ExceptT.run_map, StateT.run_map]
    rfl
  rw [hmap] at hrun
  cases hresult : (y.run.run world).1 with
  | error failure =>
    rw [hresult] at hrun
    cases hrun
  | ok b =>
    rw [hresult] at hrun
    cases hrun
    exact b.2

end Always

section Adapt

variable [LawfulMonad m] {ε' : Type} (f : ε → ε')

lemma adapt_pure (a : α) : ExceptT.adapt f (pure a : ExceptT ε m α) = pure a := by
  apply ExceptT.ext
  rw [ExceptT.run_adapt, ExceptT.run_pure, map_pure]
  rfl

lemma adapt_throw (error : ε) :
    ExceptT.adapt f (throw error : ExceptT ε m α) = throw (f error) := by
  apply ExceptT.ext
  rw [ExceptT.run_adapt, ExceptT.run_throw, map_pure]
  rfl

lemma adapt_bind (x : ExceptT ε m α) (g : α → ExceptT ε m β) :
    ExceptT.adapt f (x >>= g) = ExceptT.adapt f x >>= fun a => ExceptT.adapt f (g a) := by
  apply ExceptT.ext
  rw [ExceptT.run_adapt, ExceptT.run_bind, ExceptT.run_bind, ExceptT.run_adapt, map_bind,
    bind_map_left]
  apply bind_congr
  intro result
  cases result with
  | ok a => exact (ExceptT.run_adapt f (g a)).symm
  | error error => exact map_pure _ _

lemma throw_bind_eq (error : ε) (g : α → ExceptT ε m β) :
    throw error >>= g = throw error := by
  apply ExceptT.ext
  rw [ExceptT.run_bind, ExceptT.run_throw, pure_bind]
  rfl

lemma adapt_map (g : α → β) (x : ExceptT ε m α) :
    ExceptT.adapt f (g <$> x) = g <$> ExceptT.adapt f x := by
  rw [map_eq_pure_bind, map_eq_pure_bind, adapt_bind]
  exact bind_congr fun a => adapt_pure f (g a)

lemma adapt_lift (x : m α) :
    ExceptT.adapt f (ExceptT.lift x : ExceptT ε m α) = ExceptT.lift x := by
  apply ExceptT.ext
  rw [ExceptT.run_adapt, ExceptT.run_lift, ExceptT.run_lift, Functor.map_map]
  rfl

lemma adapt_adapt {ε'' : Type} (g : ε' → ε'') (x : ExceptT ε m α) :
    ExceptT.adapt g (ExceptT.adapt f x) = ExceptT.adapt (fun error => g (f error)) x := by
  apply ExceptT.ext
  rw [ExceptT.run_adapt, ExceptT.run_adapt, ExceptT.run_adapt, Functor.map_map]
  apply congrArg (· <$> x.run)
  funext result
  cases result <;> rfl

lemma Always.adapt {x : ExceptT ε m α} {p : α → Prop} (h : Always x p) :
    Always (ExceptT.adapt f x) p := by
  obtain ⟨y, rfl⟩ := h
  exact ⟨ExceptT.adapt f y, (adapt_map f _ y).symm⟩

end Adapt

namespace Session

/-- A session that runs in a world ends with a result and a world of which something holds. -/
def Ends (x : Session α) (world : World) (post : Except Failure α → World → Prop) : Prop :=
  post (x.run.run world).1 (x.run.run world).2

variable {world : World} {post : Except Failure α → World → Prop}

lemma Ends.mono {x : Session α} {post' : Except Failure α → World → Prop} (h : x.Ends world post)
    (himp : ∀ result after, post result after → post' result after) : x.Ends world post' :=
  himp _ _ h

lemma Ends.bind {x : Session α} {f : α → Session β} {post' : Except Failure β → World → Prop}
    (hx : x.Ends world post) (hok : ∀ a after, post (.ok a) after → (f a).Ends after post')
    (herror : ∀ failure after, post (.error failure) after → post' (.error failure) after) :
    (x >>= f).Ends world post' := by
  unfold Ends at hx ⊢
  rw [run_bind]
  rcases hrun : x.run.run world with ⟨failure | a, after⟩ <;> rw [hrun] at hx
  · exact herror failure after hx
  · exact hok a after hx

lemma ends_throw {failure : Failure} (h : post (.error failure) world) :
    (throw failure : Session α).Ends world post :=
  h

lemma ends_get_bind {f : World → Session α} (h : (f world).Ends world post) :
    (get >>= f).Ends world post :=
  h

lemma ends_set_bind {next : World} {x : PUnit → Session α} (h : (x ⟨⟩).Ends next post) :
    ((set next : Session PUnit) >>= x).Ends world post :=
  h

lemma ends_record_bind {event : Event} {x : Unit → Session α}
    (h : (x ()).Ends (world.deliver event.toRecord) post) :
    (Journal.record event >>= x).Ends world post :=
  h

end Session

end Keyfile
