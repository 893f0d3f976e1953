/-! # Computations that agree

Two ways of comparing computations: by how they end, where errors have to be equal and results to be related; and by
what they do to a state, where related states have to stay related.  Both go through sequences of computations. -/
namespace RuleFlow

/-- Whether two computations have failed with the same error, or have results that are related. -/
inductive Agree (R : α → β → Prop) : Except ε α → Except ε β → Prop
  | error (e : ε) : Agree R (.error e) (.error e)
  | ok {a : α} {b : β} (h : R a b) : Agree R (.ok a) (.ok b)

theorem Agree.bind {R : α → β → Prop} {S : γ → δ → Prop} {x : Except ε α} {y : Except ε β} {f : α → Except ε γ}
    {g : β → Except ε δ} (h : Agree R x y) (hfg : ∀ a b, R a b → Agree S (f a) (g b)) :
    Agree S (x >>= f) (y >>= g) := by
  cases h with
  | error e => exact .error e
  | ok hab => exact hfg _ _ hab

theorem Agree.refl {R : α → α → Prop} (hR : ∀ a, R a a) (x : Except ε α) : Agree R x x := by
  cases x with
  | error e => exact .error e
  | ok a => exact .ok (hR a)

theorem Agree.eq {x y : Except ε α} (h : Agree Eq x y) : x = y := by
  cases h with
  | error e => rfl
  | ok hab => rw [hab]

/-- Whether two operations on states, begun in related states, give related results and leave related states. -/
def Alike (W : σ → σ' → Prop) (Q : α → β → Prop) (f : StateM σ α) (f' : StateM σ' β) : Prop :=
  ∀ s s', W s s' → Q (f s).1 (f' s').1 ∧ W (f s).2 (f' s').2

namespace Alike

variable {W : σ → σ' → Prop} {Q : α → β → Prop} {S : γ → δ → Prop}

protected theorem pure {a : α} {b : β} (h : Q a b) : Alike W Q (pure a) (pure b) := fun _ _ hs => ⟨h, hs⟩

protected theorem bind {x : StateM σ α} {x' : StateM σ' β} {f : α → StateM σ γ} {f' : β → StateM σ' δ}
    (h : Alike W Q x x') (hf : ∀ a b, Q a b → Alike W S (f a) (f' b)) : Alike W S (x >>= f) (x' >>= f') := by
  intro s s' hs
  obtain ⟨hq, hw⟩ := h s s' hs
  exact hf _ _ hq _ _ hw

theorem bind_eq {x : StateM σ α} {x' : StateM σ' α} {f : α → StateM σ γ} {f' : α → StateM σ' δ}
    (h : Alike W Eq x x') (hf : ∀ a, Alike W S (f a) (f' a)) : Alike W S (x >>= f) (x' >>= f') := by
  refine h.bind ?_
  rintro a _ rfl
  exact hf a

protected theorem get : Alike W W (get : StateM σ σ) (get : StateM σ' σ') := fun _ _ hs => ⟨hs, hs⟩

protected theorem ite {c : Prop} [Decidable c] {x y : StateM σ α} {x' y' : StateM σ' β} (hx : Alike W Q x x')
    (hy : Alike W Q y y') : Alike W Q (if c then x else y) (if c then x' else y') := by
  split
  · exact hx
  · exact hy

protected theorem mapM {f : α → StateM σ β} {f' : α → StateM σ' β} (h : ∀ a, Alike W Eq (f a) (f' a)) (as : List α) :
    Alike W Eq (as.mapM f) (as.mapM f') := by
  induction as with
  | nil => exact .pure rfl
  | cons a as ih =>
    rw [List.mapM_cons, List.mapM_cons]
    exact (h a).bind_eq fun b => ih.bind_eq fun bs => .pure rfl

protected theorem foldlM {f : β → α → StateM σ β} {f' : β → α → StateM σ' β} (h : ∀ b a, Alike W Eq (f b a) (f' b a))
    (b : β) (as : List α) : Alike W Eq (as.foldlM f b) (as.foldlM f' b) := by
  induction as generalizing b with
  | nil => exact .pure rfl
  | cons a as ih =>
    rw [List.foldlM_cons, List.foldlM_cons]
    exact (h b a).bind_eq ih

end Alike

end RuleFlow
