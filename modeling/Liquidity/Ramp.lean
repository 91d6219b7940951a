import Liquidity.Numeric.Checked

/-! The schedule on which a stable pool moves its amplification in a straight line from one
value to another. -/

namespace Liquidity
set_option autoImplicit false

structure Ramp (ν : Type := Int) where
  initAmp : ν
  initTime : ν
  nextAmp : ν
  nextTime : ν
deriving DecidableEq, Repr

namespace Ramp

open Operand

variable {ν τ : Type} [Operand ν] [Operand τ]

/-- No negative number, and the end not before the start. -/
structure Valid (r : Ramp) : Prop where
  initAmp : 0 ≤ r.initAmp
  initTime : 0 ≤ r.initTime
  nextAmp : 0 ≤ r.nextAmp
  ordered : r.initTime ≤ r.nextTime

/-- The same amplification from `since` on. -/
def constant (amp since : ν) : Ramp ν := ⟨amp, since, amp, since⟩

/-- The amplification strictly inside the ramp; the distance covered is floored. -/
def interpolate (r : Ramp) (time : Int) : Except Fault Int := do
  let length ← Checked.sub r.nextTime r.initTime
  let elapsed ← Checked.sub time r.initTime
  if r.initAmp < r.nextAmp then
    let rise ← Checked.sub r.nextAmp r.initAmp
    return r.initAmp + (← Checked.div (rise * elapsed) length)
  else
    let drop ← Checked.sub r.initAmp r.nextAmp
    Checked.sub r.initAmp (← Checked.div (drop * elapsed) length)

def ampAt (r : Ramp ν) (time : τ) : Except Fault ν := do
  if ← less r.nextTime r.initTime then
    throw (.rampReversed (toJson r.nextTime) (toJson r.initTime))
  if ← atMost r.nextTime time then return r.nextAmp
  let next ← strict r.nextTime
  let init ← strict r.initTime
  if next = init then throw (.rampEmpty init (toJson time))
  if ← atMost time init then return r.initAmp
  let t ← strict time
  let amp ← interpolate ⟨← strict r.initAmp, init, ← strict r.nextAmp, next⟩ t
  return ofInt amp

theorem ampAt_int (r : Ramp) (time : Int) : r.ampAt time =
    if r.nextTime < r.initTime then .error (.rampReversed r.nextTime r.initTime)
    else if r.nextTime ≤ time then .ok r.nextAmp
    else if r.nextTime = r.initTime then .error (.rampEmpty r.initTime time)
    else if time ≤ r.initTime then .ok r.initAmp
    else r.interpolate time := by
  unfold ampAt
  simp only [less_int, atMost_int, strict_int, toJson_int, ofInt_int, bind, Except.bind, throw,
    throwThe, MonadExceptOf.throw, pure, Except.pure, decide_eq_true_eq]
  repeat' split
  all_goals simp_all

end Ramp
end Liquidity
