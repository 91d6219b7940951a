import Liquidity.Numeric.Checked
import Liquidity.Proofs.Outcome

/-! What a caller is told of a failure. A fault that shows a number with too many digits is told
as the failure to write that number, and every other fault as it is. -/

namespace Liquidity
set_option autoImplicit false

section Writing

variable {m n : Int} {f : Fault} {w : Width}

theorem Text.isOverlong_eq_true : Text.isOverlong n = true ↔ tenTo digitLimit ≤ n.natAbs :=
  decide_eq_true_iff

theorem Text.isOverlong_eq_false : Text.isOverlong n = false ↔ n.natAbs < tenTo digitLimit := by
  rw [← Bool.not_eq_true, isOverlong_eq_true, Nat.not_le]

theorem Text.isOverlong_of_word (h0 : 0 ≤ n) (hw : n < w.limit) : Text.isOverlong n = false := by
  have hlimit : w.limit ≤ (Text.tenTo Text.digitLimit : Int) := by cases w <;> decide +kernel
  rw [isOverlong_eq_false]
  omega

namespace Fault

/-- A fault whose numbers can be written. -/
theorem reported_of_short (h : ∀ j ∈ f.figures, j.isOverlong = false) : f.reported = f := by
  unfold reported
  rw [if_neg]
  simpa using h

/-- A fault that shows one number, and is written where it is raised. -/
theorem reported_of_figure (hf : f.figures = [.int n]) (hw : f.isWrittenInPlace = true) :
    f.reported = if Text.isOverlong n then .figureTooLong else f := by
  unfold reported
  simp only [hf, hw, List.any_cons, List.any_nil, Bool.or_false, Json.isOverlong, if_true]

/-- A fault that shows two numbers, and is written apart from where it is raised. -/
theorem reported_of_pair (hf : f.figures = [.int m, .int n]) (hw : f.isWrittenInPlace = false) :
    f.reported = if Text.isOverlong m || Text.isOverlong n then .numeralTooLong else f := by
  unfold reported
  simp only [hf, hw, List.any_cons, List.any_nil, Bool.or_false, Json.isOverlong,
    Bool.false_eq_true, if_false]

@[simp] theorem reported_oversizedWord (w : Width) (n : Int) : (oversizedWord w n).reported =
    if Text.isOverlong n then .figureTooLong else .oversizedWord w n :=
  reported_of_figure rfl rfl

@[simp] theorem reported_negativeWord (w : Width) (n : Int) : (negativeWord w n).reported =
    if Text.isOverlong n then .figureTooLong else .negativeWord w n :=
  reported_of_figure rfl rfl

end Fault
end Writing

section Told

variable {α : Type} {x : Except Fault α} {a : α} {f : Fault}

/-- What a caller gets of a computation. -/
def told (x : Except Fault α) : Except Fault α := x.mapError Fault.reported

@[simp] theorem told_ok (a : α) : told (.ok a) = .ok a := rfl

@[simp] theorem told_error (f : Fault) : told (.error f : Except Fault α) = .error f.reported := rfl

theorem told_eq_error : told x = .error f ↔ ∃ e, x = .error e ∧ e.reported = f := by
  cases x <;> simp

end Told

namespace Width

variable {w : Width} {n : Int}

/-- Whatever a word cannot hold is refused, for its width if it can be written. -/
theorem told_check_outside (h : n < 0 ∨ w.limit ≤ n) : ∃ f, told (w.check n) = .error f ∧
    f.kind = if Text.isOverlong n then .badValue else .overflow := by
  unfold check
  split
  · refine ⟨_, rfl, ?_⟩
    rw [Fault.reported_negativeWord]
    split <;> rfl
  · rename_i hneg
    rw [if_pos (h.resolve_left hneg)]
    refine ⟨_, rfl, ?_⟩
    rw [Fault.reported_oversizedWord]
    split <;> rfl

theorem told_check_of_nonneg (h : 0 ≤ n) : told (w.check n) =
    if n < w.limit then .ok n
    else .error (if Text.isOverlong n then .figureTooLong else .oversizedWord w n) := by
  unfold check
  rw [if_neg (Int.not_lt.mpr h)]
  by_cases hw : n < w.limit
  · rw [if_neg (Int.not_le.mpr hw), if_pos hw, told_ok]
  · rw [if_pos (Int.not_lt.mp hw), if_neg hw, told_error, Fault.reported_oversizedWord]

end Width
end Liquidity
