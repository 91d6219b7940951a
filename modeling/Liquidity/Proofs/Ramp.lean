import Liquidity.Ramp
import Liquidity.Proofs.Reported

/-! Amplifications on a ramp, inside it and at its ends. A ramp that falls is the one that
rises between the same ends seen in a mirror, so all of its bounds come from those of the
distance covered. -/

namespace Liquidity.Ramp
set_option autoImplicit false

open Outcome Operand

variable {r : Ramp} {time t u amp : Int} {τ : Type} [Operand τ]

/-- How far the amplification has moved, floored. -/
def covered (r : Ramp) (time : Int) : Int :=
  (r.nextAmp - r.initAmp).natAbs * (time - r.initTime) / (r.nextTime - r.initTime)

/-- The first amplification moved by as much towards the second. -/
def towards (r : Ramp) (n : Int) : Int :=
  if r.initAmp < r.nextAmp then r.initAmp + n else r.initAmp - n

/-- The amplification that the schedule has at a time, held before its start and after its
end. -/
def level (r : Ramp) (time : Int) : Int :=
  if r.nextTime ≤ time then r.nextAmp
  else if time ≤ r.initTime then r.initAmp
  else r.towards (r.covered time)

theorem level_late (h : r.nextTime ≤ time) : r.level time = r.nextAmp := if_pos h

theorem level_early (hnext : time < r.nextTime) (h : time ≤ r.initTime) :
    r.level time = r.initAmp := by
  rw [level, if_neg (Int.not_le.mpr hnext), if_pos h]

theorem level_inside (hinit : r.initTime < time) (hnext : time < r.nextTime) :
    r.level time = r.towards (r.covered time) := by
  rw [level, if_neg (Int.not_le.mpr hnext), if_neg (Int.not_le.mpr hinit)]

/-- The schedule that leads back. -/
def exchanged (r : Ramp) : Ramp := { r with initAmp := r.nextAmp, nextAmp := r.initAmp }

@[simp] theorem exchanged_initAmp : r.exchanged.initAmp = r.nextAmp := rfl
@[simp] theorem exchanged_nextAmp : r.exchanged.nextAmp = r.initAmp := rfl
@[simp] theorem exchanged_initTime : r.exchanged.initTime = r.initTime := rfl
@[simp] theorem exchanged_nextTime : r.exchanged.nextTime = r.nextTime := rfl

theorem Valid.exchanged (hr : r.Valid) : r.exchanged.Valid :=
  ⟨hr.nextAmp, hr.initTime, hr.initAmp, hr.ordered⟩

theorem covered_exchanged : r.exchanged.covered time = r.covered time := by
  have hswap : (r.initAmp - r.nextAmp).natAbs = (r.nextAmp - r.initAmp).natAbs := by omega
  simp [covered, hswap]

section Inside

variable (hinit : r.initTime < time) (hnext : time < r.nextTime)
include hinit hnext

theorem covered_nonneg : 0 ≤ r.covered time :=
  Int.ediv_nonneg (Int.mul_nonneg (Int.natCast_nonneg _) (by omega)) (by omega)

theorem covered_le : r.covered time ≤ (r.nextAmp - r.initAmp).natAbs := by
  have hlength : 0 < r.nextTime - r.initTime := by omega
  apply Int.ediv_le_of_le_mul hlength
  exact Int.mul_le_mul_of_nonneg_left (by omega) (Int.natCast_nonneg _)

/-- Nothing in the interpolation is refused. -/
theorem interpolate_inside (hr : r.Valid) :
    r.interpolate time = .ok (r.towards (r.covered time)) := by
  have hstart := hr.initAmp
  have hend := hr.nextAmp
  have hle := covered_le hinit hnext
  have hlength : r.nextTime - r.initTime ≠ 0 := by omega
  have hdiv : ∀ distance : Int, distance = (r.nextAmp - r.initAmp).natAbs →
      Checked.div (distance * (time - r.initTime)) (r.nextTime - r.initTime) =
        .ok (r.covered time) := by
    rintro _ rfl
    rw [Checked.div_eq_ok.mpr ⟨hlength, rfl⟩, Int.fdiv_eq_ediv_of_nonneg _ (by omega)]
    rfl
  unfold interpolate towards
  rw [Checked.sub_eq_ok.mpr ⟨by omega, rfl⟩, ok_bind, Checked.sub_eq_ok.mpr ⟨by omega, rfl⟩,
    ok_bind]
  split
  · rw [Checked.sub_eq_ok.mpr ⟨by omega, rfl⟩, ok_bind, hdiv _ (by omega)]
    rfl
  · have hdrop : r.covered time ≤ r.initAmp := by omega
    rw [Checked.sub_eq_ok.mpr ⟨by omega, rfl⟩, ok_bind, hdiv _ (by omega), ok_bind]
    exact Checked.sub_eq_ok.mpr ⟨hdrop, rfl⟩

end Inside

theorem covered_mono (hlength : r.initTime < r.nextTime) (h : t ≤ u) :
    r.covered t ≤ r.covered u := by
  apply Int.ediv_le_ediv (by omega)
  exact Int.mul_le_mul_of_nonneg_left (by omega) (Int.natCast_nonneg _)

/-- What a ramp answers: its level, but nothing before the whole of a ramp without length. -/
theorem ampAt_eq (hr : r.Valid) : r.ampAt time =
    if r.initTime = r.nextTime ∧ time < r.nextTime then .error (.rampEmpty r.initTime time)
    else .ok (r.level time) := by
  have hordered := hr.ordered
  rw [ampAt_int, if_neg (Int.not_lt.mpr hordered)]
  by_cases hlate : r.nextTime ≤ time
  · rw [if_pos hlate, if_neg (by omega), level_late hlate]
  · rw [if_neg hlate]
    have hnext : time < r.nextTime := by omega
    by_cases hempty : r.nextTime = r.initTime
    · rw [if_pos hempty, if_pos ⟨hempty.symm, hnext⟩]
    · have hsome : ¬ (r.initTime = r.nextTime ∧ time < r.nextTime) := fun h => hempty h.1.symm
      rw [if_neg hempty, if_neg hsome]
      by_cases hearly : time ≤ r.initTime
      · rw [if_pos hearly, level_early hnext hearly]
      · have hinit : r.initTime < time := by omega
        rw [if_neg hearly, level_inside hinit hnext, interpolate_inside hinit hnext hr]

/-- At every time the two directions together make up both ends. -/
theorem level_add_exchanged (r : Ramp) (time : Int) :
    r.level time + r.exchanged.level time = r.initAmp + r.nextAmp := by
  by_cases hlate : r.nextTime ≤ time
  · rw [level_late hlate, level_late (r := r.exchanged) hlate, exchanged_nextAmp, Int.add_comm]
  · have hnext : time < r.nextTime := by omega
    by_cases hearly : time ≤ r.initTime
    · rw [level_early hnext hearly, level_early (r := r.exchanged) hnext hearly]
      rfl
    · have hinit : r.initTime < time := by omega
      rw [level_inside hinit hnext, level_inside (r := r.exchanged) hinit hnext, covered_exchanged]
      unfold towards
      rw [exchanged_initAmp, exchanged_nextAmp]
      by_cases heq : r.initAmp = r.nextAmp
      · have hnone : r.covered time = 0 := by simp [covered, heq]
        simp [heq, hnone]
      · split <;> split <;> omega

section Rising

variable (hrise : r.initAmp ≤ r.nextAmp)
include hrise

theorem level_bounds_of_rising (time : Int) :
    r.initAmp ≤ r.level time ∧ r.level time ≤ r.nextAmp := by
  unfold level
  split
  · omega
  split
  · omega
  · have hinit : r.initTime < time := by omega
    have hnext : time < r.nextTime := by omega
    have hnonneg := covered_nonneg hinit hnext
    have hle := covered_le hinit hnext
    unfold towards
    split <;> omega

theorem level_mono (h : t ≤ u) : r.level t ≤ r.level u := by
  have ht := level_bounds_of_rising hrise t
  have hu := level_bounds_of_rising hrise u
  by_cases hlate : r.nextTime ≤ u
  · rw [level_late hlate]
    exact ht.2
  by_cases hearly : t ≤ r.initTime
  · rw [level_early (by omega) hearly]
    exact hu.1
  · have hmono := covered_mono (r := r) (by omega) h
    have hflat : r.initAmp = r.nextAmp → r.covered t = 0 ∧ r.covered u = 0 := by
      intro heq
      simp [covered, heq]
    rw [level_inside (by omega) (by omega), level_inside (by omega) (by omega)]
    unfold towards
    split <;> omega

end Rising

theorem level_bounds (r : Ramp) (time : Int) :
    min r.initAmp r.nextAmp ≤ r.level time ∧ r.level time ≤ max r.initAmp r.nextAmp := by
  rcases Int.le_total r.initAmp r.nextAmp with hrise | hfall
  · have h := level_bounds_of_rising hrise time
    omega
  · have h := level_bounds_of_rising (r := r.exchanged) hfall time
    have hsum := level_add_exchanged r time
    simp only [exchanged_initAmp, exchanged_nextAmp] at h
    omega

theorem level_anti (hfall : r.nextAmp ≤ r.initAmp) (h : t ≤ u) : r.level u ≤ r.level t := by
  have hmirror := level_mono (r := r.exchanged) hfall h
  have ht := level_add_exchanged r t
  have hu := level_add_exchanged r u
  omega

theorem interpolate_nonneg (hr : r.Valid) (h : r.interpolate time = .ok amp) : 0 ≤ amp := by
  unfold interpolate at h
  simp only [bind_eq_ok, Checked.sub_eq_ok] at h
  obtain ⟨_, ⟨hlength, rfl⟩, _, ⟨helapsed, rfl⟩, h⟩ := h
  split at h
  · simp only [bind_eq_ok, Checked.sub_eq_ok, Checked.div_eq_ok] at h
    obtain ⟨_, ⟨hrise, rfl⟩, covered, ⟨-, rfl⟩, h⟩ := h
    cases h
    have hcovered : 0 ≤ (r.nextAmp - r.initAmp) * (time - r.initTime) :=
      Int.mul_nonneg (by omega) (by omega)
    exact Int.add_nonneg hr.initAmp (Int.fdiv_nonneg hcovered (by omega))
  · simp only [bind_eq_ok, Checked.sub_eq_ok] at h
    obtain ⟨_, -, _, -, hle, rfl⟩ := h
    omega

/-- A ramp between amplifications that are not negative stays clear of negative ones. -/
theorem ampAt_nonneg (hr : r.Valid) {time : τ} (h : r.ampAt time = .ok amp) : 0 ≤ amp := by
  unfold ampAt at h
  simp only [less_int, strict_int, ok_bind, throw_eq, error_bind, refused_eq_ok] at h
  obtain ⟨-, h⟩ := h
  obtain ⟨late, -, h⟩ := bind_eq_ok.mp h
  split at h
  · cases h
    exact hr.nextAmp
  · obtain ⟨-, h⟩ := refused_eq_ok.mp h
    obtain ⟨early, -, h⟩ := bind_eq_ok.mp h
    split at h
    · cases h
      exact hr.initAmp
    · obtain ⟨now, -, h⟩ := bind_eq_ok.mp h
      obtain ⟨between, hbetween, h⟩ := bind_eq_ok.mp h
      cases h
      exact interpolate_nonneg hr hbetween

/-- Of a ramp without length a caller is told, unless its time or the one asked for is too long to
be written. -/
theorem told_ampAt_eq_error (hr : r.Valid) {f : Fault} : told (r.ampAt time) = .error f ↔
    (r.initTime = r.nextTime ∧ time < r.nextTime) ∧
      f = if Text.isOverlong r.initTime || Text.isOverlong time then .numeralTooLong
        else .rampEmpty r.initTime time := by
  rw [ampAt_eq hr, ← Fault.reported_of_pair (f := .rampEmpty r.initTime time) rfl rfl]
  split
  · rename_i hbefore
    rw [told_error, Except.error.injEq, eq_comm]
    exact ⟨fun hf => ⟨hbefore, hf⟩, fun hf => hf.2⟩
  · rename_i hanswered
    exact ⟨nofun, fun hf => absurd hf.1 hanswered⟩

/-- A ramp answers between its two amplifications at every time but those before the whole of a
ramp without length, of which a caller is told if the times can be written. It moves in one
direction only, and half-way down is half-way up. -/
theorem schedule_keeps_course (hr : r.Valid) :
    (∀ t : Int,
      ((∃ f, told (r.ampAt t) = .error f) ↔ r.initTime = r.nextTime ∧ t < r.nextTime) ∧
      (∀ f, told (r.ampAt t) = .error f → f.kind ≠ .underflow ∧ f.kind ≠ .divideByZero ∧
        f = if Text.isOverlong r.initTime || Text.isOverlong t then .numeralTooLong
          else .rampEmpty r.initTime t) ∧
      ∀ amp, r.ampAt t = .ok amp → min r.initAmp r.nextAmp ≤ amp ∧ amp ≤ max r.initAmp r.nextAmp) ∧
    (∀ t u a b : Int, t ≤ u → r.ampAt t = .ok a → r.ampAt u = .ok b →
      (r.initAmp ≤ r.nextAmp → a ≤ b) ∧ (r.nextAmp ≤ r.initAmp → b ≤ a)) ∧
    ∀ t : Int, r.initTime < t → t < r.nextTime → ∃ a b, r.ampAt t = .ok a ∧
      r.exchanged.ampAt t = .ok b ∧ a + b = r.initAmp + r.nextAmp := by
  have hlevel : ∀ {t amp : Int}, r.ampAt t = .ok amp → amp = r.level t := by
    intro t amp h
    rw [ampAt_eq hr, refused_eq_ok] at h
    exact (Except.ok.inj h.2).symm
  refine ⟨fun t => ⟨?_, fun f hf => ?_, fun amp h => ?_⟩, fun t u a b htu ha hb => ?_,
    fun t hinit hnext => ?_⟩
  · simp only [told_ampAt_eq_error hr, exists_and_left, exists_eq, and_true]
  · have heq := ((told_ampAt_eq_error hr).mp hf).2
    refine ⟨?_, ?_, heq⟩ <;> rw [heq] <;> split <;> exact nofun
  · rw [hlevel h]
    exact level_bounds r t
  · rw [hlevel ha, hlevel hb]
    exact ⟨fun hrise => level_mono hrise htu, fun hfall => level_anti hfall htu⟩
  · refine ⟨r.level t, r.exchanged.level t, ?_, ?_, level_add_exchanged r t⟩
    · rw [ampAt_eq hr, if_neg (by omega)]
    · rw [ampAt_eq hr.exchanged, exchanged_initTime, exchanged_nextTime, if_neg (by omega)]

/-- A ramp that rises by less than one in a second. -/
def slowRise : Ramp := ⟨10000, 100, 10003, 107⟩

theorem schedule_keeps_course_slow : slowRise.ampAt (104 : Int) = .ok 10001 ∧
    slowRise.exchanged.ampAt (104 : Int) = .ok 10002 ∧ (10001 : Int) + 10002 = 10000 + 10003 := by
  have hvalid : slowRise.Valid := ⟨by decide, by decide, by decide, by decide⟩
  obtain ⟨-, -, hmirror⟩ := schedule_keeps_course hvalid
  have hup : slowRise.ampAt (104 : Int) = .ok 10001 := rfl
  obtain ⟨a, b, ha, hb, hsum⟩ := hmirror 104 (by decide) (by decide)
  obtain rfl := Except.ok.inj (hup.symm.trans ha)
  have hb' : b = 10002 := by
    have hends : slowRise.initAmp + slowRise.nextAmp = 20003 := rfl
    omega
  exact ⟨hup, hb' ▸ hb, rfl⟩

/-- A truth value is no time inside a ramp, and of times that cannot be written nobody is told that
the ramp is empty. -/
theorem schedule_off_course :
    (Valid ⟨100, 0, 200, 10⟩ ∧
      told (ampAt (⟨100, 0, 200, 10⟩ : Ramp) (Json.bool true)) = .error (.notInteger .bool) ∧
      (Fault.notInteger .bool).kind = .badType) ∧
    Valid ⟨100, Text.tenTo 4300, 100, Text.tenTo 4300⟩ ∧
      told (ampAt (⟨100, Text.tenTo 4300, 100, Text.tenTo 4300⟩ : Ramp) (0 : Int)) =
        .error .numeralTooLong ∧
      Fault.numeralTooLong.kind = .badValue := by
  have hshort : Valid ⟨100, 0, 200, 10⟩ := ⟨by decide, by decide, by decide, by decide⟩
  have hlong : Valid ⟨100, Text.tenTo 4300, 100, Text.tenTo 4300⟩ :=
    ⟨by decide, by decide +kernel, by decide, Int.le_refl _⟩
  exact ⟨⟨hshort, by decide +kernel, rfl⟩, hlong, by decide +kernel, rfl⟩

end Liquidity.Ramp
