/-!
# Steps that may fail

A step that fails ends the steps after it.
-/

namespace Promotions

variable {ε α β : Type}

@[simp]
theorem pure_eq_ok (a : α) : (pure a : Except ε α) = .ok a := rfl

@[simp]
theorem ok_bind (a : α) (f : α → Except ε β) : (.ok a >>= f) = f a := rfl

@[simp]
theorem error_bind (e : ε) (f : α → Except ε β) : (.error e >>= f) = .error e := rfl

@[simp]
theorem some_bind (a : α) (f : α → Option β) : (some a >>= f) = f a := rfl

theorem bind_eq_ok_iff (x : Except ε α) (f : α → Except ε β) (b : β) :
    (x >>= f) = .ok b ↔ ∃ a, x = .ok a ∧ f a = .ok b := by
  cases x <;> simp

theorem bind_eq_error_iff (x : Except ε α) (f : α → Except ε β) (e : ε) :
    (x >>= f) = .error e ↔ x = .error e ∨ ∃ a, x = .ok a ∧ f a = .error e := by
  cases x <;> simp

theorem bind_eq_bind {x x' : Except ε α} {f f' : α → Except ε β} (hx : x' = x)
    (hf : ∀ a, x = .ok a → f' a = f a) : (x' >>= f') = (x >>= f) := by
  subst hx
  cases x' with
  | error e => rfl
  | ok a => exact hf a rfl

theorem forM_eq_error_iff (f : α → Except ε Unit) (xs : List α) (e : ε) :
    xs.forM f = .error e ↔
      ∃ before x after, xs = before ++ x :: after ∧ (∀ y ∈ before, f y = .ok ()) ∧
        f x = .error e := by
  induction xs with
  | nil => simp [pure, Except.pure]
  | cons x xs ih =>
    rw [List.forM_eq_forM, List.forM_cons, bind_eq_error_iff, ← List.forM_eq_forM, ih]
    constructor
    · rintro (hx | ⟨⟨⟩, hx, before, y, after, rfl, hbefore, hy⟩)
      · exact ⟨[], x, xs, rfl, by simp, hx⟩
      · exact ⟨x :: before, y, after, rfl, List.forall_mem_cons.2 ⟨hx, hbefore⟩, hy⟩
    · rintro ⟨before, y, after, hxs, hbefore, hy⟩
      cases before with
      | nil =>
        obtain ⟨rfl, rfl⟩ := List.cons.inj hxs
        exact .inl hy
      | cons b before =>
        obtain ⟨rfl, rfl⟩ := List.cons.inj hxs
        obtain ⟨hx, hbefore⟩ := List.forall_mem_cons.1 hbefore
        exact .inr ⟨(), hx, before, y, after, rfl, hbefore, hy⟩

theorem forM_eq_ok_iff (f : α → Except ε Unit) (xs : List α) :
    xs.forM f = .ok () ↔ ∀ x ∈ xs, f x = .ok () := by
  induction xs with
  | nil => simp [pure, Except.pure]
  | cons x xs ih =>
    rw [List.forM_eq_forM, List.forM_cons, bind_eq_ok_iff, ← List.forM_eq_forM,
      List.forall_mem_cons, ← ih]
    exact ⟨fun ⟨⟨⟩, h⟩ => h, fun h => ⟨(), h⟩⟩

/-! ## Two runs -/

/-- Neither of two runs fails, and their results are related by `R`. -/
inductive BothOk (R : α → β → Prop) : Except ε α → Except ε β → Prop
  | ok {a : α} {b : β} (h : R a b) : BothOk R (.ok a) (.ok b)

theorem BothOk.exists_ok {R : α → β → Prop} {x : Except ε α} {y : Except ε β} (h : BothOk R x y) :
    ∃ a b, x = .ok a ∧ y = .ok b ∧ R a b := by
  cases h with
  | ok h => exact ⟨_, _, rfl, rfl, h⟩

theorem BothOk.bind {γ δ : Type} {R : α → β → Prop} {S : γ → δ → Prop} {x : Except ε α}
    {y : Except ε β} {f : α → Except ε γ} {g : β → Except ε δ} (h : BothOk R x y)
    (hf : ∀ a b, R a b → BothOk S (f a) (g b)) : BothOk S (x >>= f) (y >>= g) := by
  cases h with
  | ok h => exact hf _ _ h

end Promotions
