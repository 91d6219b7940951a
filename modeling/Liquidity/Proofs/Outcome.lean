import Mathlib.Data.List.Forall2

/-! Computations that may fail, read backwards: what a success of a whole says about its
parts. -/

namespace Liquidity.Outcome
set_option autoImplicit false

variable {ε α β : Type} {e e' : ε} {a b : α} {x : Except ε α}

@[simp] theorem ok_bind (a : α) (k : α → Except ε β) : (Except.ok a >>= k) = k a := rfl

@[simp] theorem error_bind (e : ε) (k : α → Except ε β) :
    ((Except.error e : Except ε α) >>= k) = .error e := rfl

@[simp] theorem throw_eq (e : ε) : (throw e : Except ε α) = .error e := rfl

@[simp] theorem pure_eq (a : α) : (pure a : Except ε α) = .ok a := rfl

theorem bind_eq_ok {k : α → Except ε β} {b : β} :
    x >>= k = .ok b ↔ ∃ a, x = .ok a ∧ k a = .ok b := by
  cases x with
  | error e => simp
  | ok a => simp

theorem unit_bind_eq_ok {x : Except ε Unit} {k : Unit → Except ε β} {b : β} :
    x >>= k = .ok b ↔ x = .ok () ∧ k () = .ok b := by
  rw [bind_eq_ok]
  constructor
  · rintro ⟨_, h⟩
    exact h
  · intro h
    exact ⟨(), h⟩

theorem bind_eq_error {k : α → Except ε β} :
    x >>= k = .error e ↔ x = .error e ∨ ∃ a, x = .ok a ∧ k a = .error e := by
  cases x with
  | error e => simp
  | ok a => simp

theorem bind_congr_ok {k l : α → Except ε β} (h : ∀ a, x = .ok a → k a = l a) :
    x >>= k = x >>= l := by
  cases x with
  | error e => rfl
  | ok a => exact h a rfl

theorem bind_pure_eq_ok {f : α → β} {b : β} :
    (x >>= fun a => pure (f a)) = .ok b ↔ ∃ a, x = .ok a ∧ b = f a := by
  rw [bind_eq_ok]
  simp only [pure_eq, Except.ok.injEq, eq_comm]

@[simp] theorem map_eq_ok {f : α → β} {b : β} : x.map f = .ok b ↔ ∃ a, x = .ok a ∧ f a = b := by
  cases x with
  | error e => simp [Except.map]
  | ok a => simp [Except.map]

theorem mapError_eq_ok {ε' : Type} {f : ε → ε'} : x.mapError f = .ok a ↔ x = .ok a := by
  cases x <;> simp [Except.mapError]

@[simp] theorem refused_eq_ok {c : Prop} [Decidable c] :
    (if c then .error e else x) = .ok a ↔ ¬ c ∧ x = .ok a := by
  by_cases hc : c <;> simp [hc]

theorem refused_bind {c : Prop} [Decidable c] {k : α → Except ε β} :
    (if c then .error e else x) >>= k = if c then .error e else x >>= k := by
  split <;> rfl

/-- A list that is gone through succeeds item by item. -/
theorem mapM_eq_ok {k : α → Except ε β} {as : List α} {bs : List β} :
    as.mapM k = .ok bs ↔ List.Forall₂ (fun a b => k a = .ok b) as bs := by
  induction as generalizing bs with
  | nil => cases bs <;> simp
  | cons a as ih =>
    rw [List.mapM_cons, bind_eq_ok]
    cases bs with
    | nil => simp [bind_eq_ok]
    | cons b bs => simp [bind_eq_ok, ih]

theorem forall_of_mapM_eq_ok {k : α → Except ε β} {P : β → Prop} {as : List α} {bs : List β}
    (hk : ∀ a b, k a = .ok b → P b) (h : as.mapM k = .ok bs) : ∀ b ∈ bs, P b := by
  have hpairs := mapM_eq_ok.mp h
  clear h
  induction hpairs with
  | nil => simp
  | cons hab _ ih => exact List.forall_mem_cons.mpr ⟨hk _ _ hab, ih⟩

theorem mapM_congr {k l : α → Except ε β} {as : List α} (h : ∀ a ∈ as, k a = l a) :
    as.mapM k = as.mapM l := by
  induction as with
  | nil => rfl
  | cons a as ih =>
    rw [List.forall_mem_cons] at h
    rw [List.mapM_cons, List.mapM_cons, h.1, ih h.2]

/-- Two lists that are gone through side by side. -/
theorem mapM_zip_eq_ok {γ : Type} {k : α → β → Except ε γ} {f : α → β → γ} {P : γ → Prop}
    (hk : ∀ a b c, k a b = .ok c ↔ c = f a b ∧ P c) {as : List α} {bs : List β} {cs : List γ} :
    (as.zip bs).mapM (fun p => k p.1 p.2) = .ok cs ↔
      cs = List.zipWith f as bs ∧ ∀ c ∈ cs, P c := by
  rw [mapM_eq_ok, ← List.map_uncurry_zip_eq_zipWith]
  simp only [hk]
  induction as.zip bs generalizing cs with
  | nil => cases cs <;> simp
  | cons p ps ih =>
    cases cs with
    | nil => simp
    | cons c cs =>
      rw [List.forall₂_cons, ih, List.map_cons, List.cons.injEq, List.forall_mem_cons]
      exact ⟨fun ⟨⟨hc, hp⟩, hcs, hps⟩ => ⟨⟨hc, hcs⟩, hp, hps⟩,
        fun ⟨⟨hc, hcs⟩, hp, hps⟩ => ⟨⟨hc, hp⟩, hcs, hps⟩⟩

theorem forM_eq_ok {k : α → Except ε Unit} {as : List α} :
    as.forM k = .ok () ↔ ∀ a ∈ as, k a = .ok () := by
  induction as with
  | nil => simp [List.forM]
  | cons a as ih =>
    change (k a >>= fun _ => as.forM k) = _ ↔ _
    rw [bind_eq_ok, List.forall_mem_cons, ih]
    exact ⟨fun ⟨_, ha, has⟩ => ⟨ha, has⟩, fun ⟨ha, has⟩ => ⟨(), ha, has⟩⟩

theorem exists_of_mapM_eq_error {k : α → Except ε β} {as : List α}
    (h : as.mapM k = .error e) : ∃ a ∈ as, k a = .error e := by
  induction as with
  | nil => simp at h
  | cons a as ih =>
    rw [List.mapM_cons, bind_eq_error] at h
    rcases h with h | ⟨b, _, h⟩
    · exact ⟨a, List.mem_cons_self, h⟩
    · rcases bind_eq_error.mp h with h | ⟨bs, _, h⟩
      · obtain ⟨c, hc, hk⟩ := ih h
        exact ⟨c, List.mem_cons_of_mem a hc, hk⟩
      · simp at h

/-- A computation that does not fail with such a fault. -/
def Avoids (P : ε → Prop) (x : Except ε α) : Prop := ∀ e, x = .error e → ¬ P e

section Avoids
variable {P : ε → Prop}

@[simp] theorem avoids_ok (a : α) : Avoids P (.ok a : Except ε α) := by
  intro e h
  cases h

@[simp] theorem avoids_error : Avoids P (.error e : Except ε α) ↔ ¬ P e := by
  constructor
  · exact fun h => h e rfl
  · rintro h _ ⟨⟩
    exact h

theorem Avoids.bind {k : α → Except ε β} (hx : Avoids P x) (hk : ∀ a, x = .ok a → Avoids P (k a)) :
    Avoids P (x >>= k) := by
  intro e h
  rcases bind_eq_error.mp h with h | ⟨a, ha, h⟩
  · exact hx e h
  · exact hk a ha e h

/-- A check that refuses under a condition. -/
theorem Avoids.refused {c : Prop} [Decidable c] (he : ¬ P e) (hx : ¬ c → Avoids P x) :
    Avoids P (if c then .error e else x) := by
  split
  · exact avoids_error.mpr he
  · exact hx ‹_›

theorem Avoids.mapM {k : α → Except ε β} {as : List α} (h : ∀ a ∈ as, Avoids P (k a)) :
    Avoids P (as.mapM k) := by
  intro e he
  obtain ⟨a, ha, hk⟩ := exists_of_mapM_eq_error he
  exact h a ha e hk

theorem Avoids.forM {k : α → Except ε Unit} {as : List α} (h : ∀ a ∈ as, Avoids P (k a)) :
    Avoids P (as.forM k) := by
  induction as with
  | nil => exact avoids_ok ()
  | cons a as ih =>
    rw [List.forall_mem_cons] at h
    exact h.1.bind fun _ _ => ih h.2

theorem Avoids.foldlM {k : β → α → Except ε β} (h : ∀ b a, Avoids P (k b a)) (b : β)
    (as : List α) : Avoids P (as.foldlM k b) := by
  induction as generalizing b with
  | nil => exact avoids_ok b
  | cons a as ih =>
    rw [List.foldlM_cons]
    exact (h b a).bind fun c _ => ih c

end Avoids

end Liquidity.Outcome
