/-! # Outcomes

Computations that may fail: when a sequence of two succeeds, and what it is for one computation to
succeed whenever another does.
-/

namespace LiveFilter.Outcome

variable {ε ε' α β γ δ : Type}

theorem bind_eq_ok {x : Except ε α} {f : α → Except ε β} {b : β} :
    (x >>= f) = .ok b ↔ ∃ a, x = .ok a ∧ f a = .ok b := by
  constructor
  · intro h
    cases x with
    | error err => cases h
    | ok a => exact ⟨a, rfl, h⟩
  · rintro ⟨a, rfl, h⟩
    exact h

theorem map_eq_ok {x : Except ε α} {f : α → β} {b : β} :
    x.map f = .ok b ↔ ∃ a, x = .ok a ∧ f a = b := by
  constructor
  · intro h
    cases x with
    | error err => cases h
    | ok a => exact ⟨a, rfl, Except.ok.inj h⟩
  · rintro ⟨a, rfl, rfl⟩
    rfl

theorem map_eq_error {x : Except ε α} {f : α → β} {err : ε} :
    x.map f = .error err ↔ x = .error err := by
  constructor
  · intro h
    cases x with
    | error _ => cases h; rfl
    | ok _ => cases h
  · rintro rfl
    rfl

theorem bind_eq_error {x : Except ε α} {f : α → Except ε β} {err : ε} :
    (x >>= f) = .error err ↔ x = .error err ∨ ∃ a, x = .ok a ∧ f a = .error err := by
  constructor
  · intro h
    cases x with
    | error _ => cases h; exact .inl rfl
    | ok a => exact .inr ⟨a, rfl, h⟩
  · rintro (rfl | ⟨a, rfl, h⟩)
    · rfl
    · exact h

section

variable (x : Except ε α) (y : Except ε β)

/-- What a computation begins with may as well be tried before it. -/
theorem try_first (f : α → Except ε γ) :
    (do x.map fun _ => (); (x >>= f).map fun _ => ()) = (x >>= f).map fun _ => () := by
  cases x <;> rfl

theorem try_two (f : α → β → Except ε γ) :
    (do
      x.map fun _ => ()
      y.map fun _ => ()
      (x >>= fun a => y >>= f a).map fun _ => ()) = (x >>= fun a => y >>= f a).map fun _ => () := by
  cases x with
  | error err => rfl
  | ok a => exact try_first y (f a)

theorem try_checked (g : α → Except ε β) (f : β → Except ε γ) :
    (do
      x.map fun _ => ()
      (x >>= g).map fun _ => ()
      (x >>= fun a => g a >>= f).map fun _ => ()) = (x >>= fun a => g a >>= f).map fun _ => () := by
  cases x with
  | error err => rfl
  | ok a => exact try_first (g a) f

theorem try_two_checked {ζ : Type} (g : α → Except ε γ) (h : β → Except ε δ)
    (f : γ → δ → Except ε ζ) :
    (do
      x.map fun _ => ()
      (x >>= g).map fun _ => ()
      y.map fun _ => ()
      (y >>= h).map fun _ => ()
      (x >>= fun a => g a >>= fun c => y >>= fun b => h b >>= f c).map fun _ => ()) =
    (x >>= fun a => g a >>= fun c => y >>= fun b => h b >>= f c).map fun _ => () := by
  cases x with
  | error err => rfl
  | ok a =>
      simp only [Except.map, bind, Except.bind]
      cases g a with
      | error err => rfl
      | ok c => exact try_checked y h (f c)

end

section

variable {f : α → Except ε Unit} {as : List α}

theorem forM_eq_ok : forM as f = .ok () ↔ ∀ a ∈ as, f a = .ok () := by
  induction as with
  | nil => exact iff_of_true rfl nofun
  | cons a as ih =>
      rw [List.forM_cons, bind_eq_ok, List.forall_mem_cons, ← ih]
      exact ⟨fun ⟨_, h⟩ => h, fun h => ⟨(), h⟩⟩

theorem forM_eq_error {err : ε} : forM as f = .error err ↔
    ∃ before a after, as = before ++ a :: after ∧ (∀ b ∈ before, f b = .ok ()) ∧
      f a = .error err := by
  induction as with
  | nil => exact iff_of_false nofun fun ⟨_, _, _, h, _⟩ => by simp at h
  | cons a as ih =>
      rw [List.forM_cons, bind_eq_error, ih]
      constructor
      · rintro (h | ⟨_, ha, before, b, after, rfl, hbefore, hb⟩)
        · exact ⟨[], a, as, rfl, nofun, h⟩
        · exact ⟨a :: before, b, after, rfl, List.forall_mem_cons.2 ⟨ha, hbefore⟩, hb⟩
      · rintro ⟨before, b, after, h, hbefore, hb⟩
        cases before with
        | nil =>
            cases h
            exact .inl hb
        | cons c before =>
            cases h
            obtain ⟨ha, hbefore⟩ := List.forall_mem_cons.1 hbefore
            exact .inr ⟨(), ha, before, b, after, rfl, hbefore, hb⟩

end

/-- The one result that a computation may have, as a predicate for the library's laws about
results. -/
instance monadAttach : MonadAttach (Except ε) where
  CanReturn x a := x = .ok a
  attach
    | .ok a => .ok ⟨a, rfl⟩
    | .error err => .error err

instance lawfulMonadAttach : LawfulMonadAttach (Except ε) where
  map_attach {_ x} := by cases x <;> rfl
  canReturn_map_imp {_ _ x _} h := by
    cases x with
    | error err => cases h
    | ok b =>
        cases h
        exact b.property

theorem exists_of_any {x : Except ε α} {p : α → Bool} (h : x.toOption.any p = true) :
    ∃ a, x = .ok a ∧ p a = true := by
  cases x with
  | error err => cases h
  | ok a => exact ⟨a, rfl, h⟩

/-- The first computation succeeds whenever the second does, with related results. -/
def Follows (R : α → β → Prop) (x : Except ε α) (y : Except ε' β) : Prop :=
  ∀ b, y = .ok b → ∃ a, x = .ok a ∧ R a b

namespace Follows

variable {R : α → β → Prop} {S : γ → δ → Prop}

theorem ok {a : α} {b : β} (h : R a b) :
    Follows R (.ok a : Except ε α) (.ok b : Except ε' β) := by
  intro b' hb
  cases hb
  exact ⟨a, rfl, h⟩

theorem error (x : Except ε α) (err : ε') : Follows R x (.error err) := by
  intro b hb
  cases hb

theorem bind {x : Except ε α} {y : Except ε' β} {f : α → Except ε γ} {g : β → Except ε' δ}
    (h : Follows R x y) (hf : ∀ a b, R a b → Follows S (f a) (g b)) :
    Follows S (x >>= f) (y >>= g) := by
  intro d hd
  obtain ⟨b, hb, hd⟩ := bind_eq_ok.1 hd
  obtain ⟨a, rfl, hab⟩ := h b hb
  exact hf a b hab d hd

end Follows

/-- Both computations succeed, with related results, or both fail, with related errors. -/
inductive Alike (E : ε → ε' → Prop) (R : α → β → Prop) : Except ε α → Except ε' β → Prop
  | ok {a : α} {b : β} (h : R a b) : Alike E R (.ok a) (.ok b)
  | error {err : ε} {err' : ε'} (h : E err err') : Alike E R (.error err) (.error err')

namespace Alike

theorem refl {E : ε → ε → Prop} {R : α → α → Prop} (hE : ∀ err, E err err) (hR : ∀ a, R a a)
    (x : Except ε α) : Alike E R x x := by
  cases x with
  | error err => exact .error (hE err)
  | ok a => exact .ok (hR a)

theorem bind {E : ε → ε' → Prop} {R : α → β → Prop} {S : γ → δ → Prop} {x : Except ε α}
    {y : Except ε' β} {f : α → Except ε γ} {g : β → Except ε' δ} (h : Alike E R x y)
    (hf : ∀ a b, R a b → Alike E S (f a) (g b)) : Alike E S (x >>= f) (y >>= g) := by
  cases h with
  | ok hab => exact hf _ _ hab
  | error herr => exact .error herr

end Alike

/-- A way to compare two computations by a relation of their results. It holds of related results
and of equal failures, and is kept by what comes after. -/
structure Lifting (ε : Type) where
  Rel {α β : Type} : (α → β → Prop) → Except ε α → Except ε β → Prop
  ok {α β : Type} {R : α → β → Prop} {a : α} {b : β} (h : R a b) : Rel R (.ok a) (.ok b)
  error {α β : Type} {R : α → β → Prop} (err : ε) : Rel R (.error err) (.error err)
  bind {α β γ δ : Type} {R : α → β → Prop} {S : γ → δ → Prop} {x : Except ε α} {y : Except ε β}
    {f : α → Except ε γ} {g : β → Except ε δ} (h : Rel R x y)
    (hf : ∀ a b, R a b → Rel S (f a) (g b)) : Rel S (x >>= f) (y >>= g)

namespace Lifting

theorem map (L : Lifting ε) {R : α → β → Prop} {S : γ → δ → Prop} {x : Except ε α}
    {y : Except ε β} {f : α → γ} {g : β → δ} (h : L.Rel R x y)
    (hf : ∀ a b, R a b → S (f a) (g b)) : L.Rel S (x.map f) (y.map g) := by
  have hmap {ζ η : Type} (z : Except ε ζ) (k : ζ → η) : z.map k = z >>= fun c => .ok (k c) := by
    cases z <;> rfl
  rw [hmap, hmap]
  exact L.bind h fun a b hab => L.ok (hf a b hab)

def follows : Lifting ε where
  Rel := Follows
  ok := .ok
  error err := .error _ err
  bind := .bind

def alike (E : ε → ε → Prop) (hE : ∀ err, E err err) : Lifting ε where
  Rel := Alike E
  ok := .ok
  error err := .error (hE err)
  bind := .bind

end Lifting

end LiveFilter.Outcome
