import Liquidity.Proofs.Outcome

/-! Two computations side by side. They are alike if both fail and for the same reason, or if
both give a result and the results are related. -/

namespace Liquidity.Outcome
set_option autoImplicit false

variable {ε α β γ δ : Type} {R : α → β → Prop} {S : γ → δ → Prop}
variable {x : Except ε α} {y : Except ε β}

inductive Alike (R : α → β → Prop) : Except ε α → Except ε β → Prop where
  | ok {a : α} {b : β} (h : R a b) : Alike R (.ok a) (.ok b)
  | error (e : ε) : Alike R (.error e) (.error e)

namespace Alike

theorem mono {R' : α → β → Prop} (h : Alike R x y)
    (hr : ∀ a b, x = .ok a → y = .ok b → R a b → R' a b) : Alike R' x y := by
  cases h with
  | ok h => exact .ok (hr _ _ rfl rfl h)
  | error e => exact .error e

/-- A computation is like itself. -/
theorem refl {T : α → α → Prop} (h : ∀ a, x = .ok a → T a a) : Alike T x x := by
  cases x with
  | ok a => exact .ok (h a rfl)
  | error e => exact .error e

theorem eq {T : α → α → Prop} {x y : Except ε α} (h : Alike T x y) (ht : ∀ a b, T a b → a = b) :
    x = y := by
  cases h with
  | ok h => exact congrArg Except.ok (ht _ _ h)
  | error e => rfl

theorem ok_left {a : α} (h : Alike R x y) (hx : x = .ok a) : ∃ b, y = .ok b ∧ R a b := by
  subst hx
  cases h with
  | ok h => exact ⟨_, rfl, h⟩

theorem error_left {e : ε} (h : Alike R x y) (hx : x = .error e) : y = .error e := by
  subst hx
  cases h with
  | error e => rfl

theorem bind {f : α → Except ε γ} {g : β → Except ε δ} (h : Alike R x y)
    (hk : ∀ a b, R a b → Alike S (f a) (g b)) : Alike S (x >>= f) (y >>= g) := by
  cases h with
  | ok h => exact hk _ _ h
  | error e => exact .error e

/-- One computation that is gone on with in two ways. -/
theorem after {f : α → Except ε γ} {g : α → Except ε δ}
    (hk : ∀ a, x = .ok a → Alike S (f a) (g a)) : Alike S (x >>= f) (x >>= g) := by
  cases x with
  | ok a => exact hk a rfl
  | error e => exact .error e

theorem bind_eq {f : α → Except ε γ} {g : β → Except ε γ} (h : Alike R x y)
    (hk : ∀ a b, R a b → f a = g b) : x >>= f = y >>= g := by
  cases h with
  | ok h => exact hk _ _ h
  | error e => rfl

theorem map_eq {f : α → γ} {g : β → γ} (h : Alike R x y) (hk : ∀ a b, R a b → f a = g b) :
    x.map f = y.map g := by
  cases h with
  | ok h => exact congrArg Except.ok (hk _ _ h)
  | error e => rfl

theorem eq_map {f : α → β} (h : Alike (fun a b => b = f a) x y) : y = x.map f := by
  cases h with
  | ok h => exact congrArg Except.ok h
  | error e => rfl

/-- Two lists are gone through alike if their items are, pair by pair. -/
theorem mapM {f : α → Except ε γ} {g : β → Except ε δ} {as : List α} {bs : List β}
    (h : List.Forall₂ R as bs) (hk : ∀ a b, R a b → Alike S (f a) (g b)) :
    Alike (List.Forall₂ S) (as.mapM f) (bs.mapM g) := by
  induction h with
  | nil => exact .ok .nil
  | cons hab _ ih =>
    rw [List.mapM_cons, List.mapM_cons]
    refine (hk _ _ hab).bind fun c d hcd => ih.bind fun cs ds hcds => ?_
    exact .ok (.cons hcd hcds)

/-- One list gone through in two ways whose results are known item by item. -/
theorem mapM_map {f : α → Except ε γ} {g : α → Except ε δ} {P : α → Prop} {as : List α} (c : α → γ)
    (d : α → δ) (hk : ∀ a ∈ as, Alike (fun u v => u = c a ∧ v = d a ∧ P a) (f a) (g a)) :
    Alike (fun us vs => us = as.map c ∧ vs = as.map d ∧ ∀ a ∈ as, P a)
      (as.mapM f) (as.mapM g) := by
  induction as with
  | nil => exact .ok ⟨rfl, rfl, by simp⟩
  | cons a as ih =>
    rw [List.forall_mem_cons] at hk
    rw [List.mapM_cons, List.mapM_cons]
    refine hk.1.bind ?_
    rintro _ _ ⟨rfl, rfl, ha⟩
    refine (ih hk.2).bind ?_
    rintro _ _ ⟨rfl, rfl, has⟩
    exact .ok ⟨rfl, rfl, List.forall_mem_cons.mpr ⟨ha, has⟩⟩

end Alike
end Liquidity.Outcome
