import Liquidity.Json.Reader
import Liquidity.Proofs.Json.Shape
import Liquidity.Proofs.Numeric.Quotient
import Liquidity.Proofs.Text.Digits

/-! What holds of every scalar that is scanned holds throughout the value that is read. -/

namespace Liquidity.Json
set_option autoImplicit false

/-- Whatever is scanned is a scalar that satisfies `p`. -/
def Scans (p : Json → Prop) : Prop :=
  ∀ {cs rest j}, scanScalar cs = some (j, rest) → j.Throughout p

def Token.Holds (p : Json → Prop) : Token → Prop
  | .scalar j => j.Throughout p
  | _ => True

def Frame.Holds (p : Json → Prop) : Frame → Prop
  | .arr items => ∀ j ∈ items, j.Throughout p
  | .obj ms _ => ∀ m ∈ ms, m.2.Throughout p

/-- All that the reader has in hand satisfies `p`. -/
def State.Holds (p : Json → Prop) : State → Prop
  | .value stack | .firstItem stack | .firstName stack => ∀ f ∈ stack, f.Holds p
  | .name stack ms | .colon stack ms _ =>
    (∀ f ∈ stack, f.Holds p) ∧ ∀ m ∈ ms, m.2.Throughout p
  | .after stack j => (∀ f ∈ stack, f.Holds p) ∧ j.Throughout p

variable {p : Json → Prop} {limit : Nat} {s s' : State} {t : Token} {ts : List Token}
variable {stack stack' : List Frame} {j : Json}

theorem put_holds {ms : Members} (hms : ∀ m ∈ ms, m.2.Throughout p) (hj : j.Throughout p)
    (name : String) : ∀ m ∈ ms.put name j, m.2.Throughout p := by
  induction ms with
  | nil => simpa [Members.put] using hj
  | cons m ms ih =>
    rw [List.forall_mem_cons] at hms
    rw [Members.put]
    split
    · exact List.forall_mem_cons.mpr ⟨hj, hms.2⟩
    · exact List.forall_mem_cons.mpr ⟨hms.1, ih hms.2⟩

theorem begin_holds (hs : ∀ f ∈ stack, f.Holds p) (ht : t.Holds p)
    (h : begin stack t = some s) : s.Holds p := by
  cases t <;> cases h
  case scalar j => exact ⟨hs, ht⟩
  all_goals exact hs

theorem push_holds {f : Frame} (hs : ∀ f ∈ stack, f.Holds p) (hf : f.Holds p)
    (h : push limit f stack = some stack') : ∀ f ∈ stack', f.Holds p := by
  unfold push at h
  split at h
  · cases h
    exact List.forall_mem_cons.mpr ⟨hf, hs⟩
  · cases h

theorem step_holds (hs : s.Holds p) (ht : t.Holds p) (h : step limit s t = some s') :
    s'.Holds p := by
  unfold step at h
  -- One case for each state and token that go together, in the order of the definition.
  split at h
  case h_1 => exact begin_holds hs ht h
  case h_3 =>
    obtain ⟨stack, hpush, h⟩ := Option.bind_eq_some_iff.mp h
    exact begin_holds (push_holds hs (by simp [Frame.Holds]) hpush) ht h
  case h_7 =>
    obtain ⟨stack, hpush, rfl⟩ := Option.map_eq_some_iff.mp h
    refine push_holds hs.1 ?_ hpush
    exact hs.2
  all_goals cases h
  case h_2 | h_4 | h_5 => exact ⟨hs, by simp⟩
  case h_6 => exact hs
  case h_8 =>
    obtain ⟨hstack, hj⟩ := hs
    rw [List.forall_mem_cons] at hstack
    exact List.forall_mem_cons.mpr ⟨List.forall_mem_cons.mpr ⟨hj, hstack.1⟩, hstack.2⟩
  case h_9 =>
    obtain ⟨hstack, hj⟩ := hs
    rw [List.forall_mem_cons] at hstack
    refine ⟨hstack.2, .arr ?_⟩
    intro x hx
    rw [List.mem_reverse] at hx
    exact List.forall_mem_cons.mpr ⟨hj, hstack.1⟩ x hx
  case h_10 =>
    obtain ⟨hstack, hj⟩ := hs
    rw [List.forall_mem_cons] at hstack
    exact ⟨hstack.2, put_holds hstack.1 hj _⟩
  case h_11 =>
    obtain ⟨hstack, hj⟩ := hs
    rw [List.forall_mem_cons] at hstack
    exact ⟨hstack.2, .obj (put_holds hstack.1 hj _)⟩

theorem run_holds (hs : s.Holds p) (ht : ∀ t ∈ ts, t.Holds p) (h : run limit s ts = some s') :
    s'.Holds p := by
  induction ts generalizing s with
  | nil =>
    cases h
    exact hs
  | cons t ts ih =>
    rw [List.forall_mem_cons] at ht
    obtain ⟨s₁, hstep, hrun⟩ := Option.bind_eq_some_iff.mp h
    exact ih (step_holds hs ht.1 hstep) ht.2 hrun

theorem tokens_hold (hp : Scans p) {cs : List Char} (h : tokens cs = some ts) :
    ∀ t ∈ ts, t.Holds p := by
  fun_induction tokens cs generalizing ts with
  | case1 =>
    cases h
    simp
  | case2 c rest hgap ih => exact ih h
  | case3 c rest hgap t ht ih =>
    obtain ⟨ts, hts, rfl⟩ := Option.map_eq_some_iff.mp h
    refine List.forall_mem_cons.mpr ⟨?_, ih hts⟩
    unfold punctuation? at ht
    split at ht <;> cases ht <;> trivial
  | case4 c rest hgap hnone j after hs ih =>
    obtain ⟨ts, hts, rfl⟩ := Option.map_eq_some_iff.mp h
    exact List.forall_mem_cons.mpr ⟨hp hs, ih hts⟩
  | case5 => cases h

theorem throughout_of_read? (hp : Scans p) {text : String} (h : read? limit text = some j) :
    j.Throughout p := by
  obtain ⟨ts, hts, h⟩ := Option.bind_eq_some_iff.mp h
  obtain ⟨s, hrun, hfinish⟩ := Option.bind_eq_some_iff.mp h
  have hs : s.Holds p := run_holds (by simp [State.Holds]) (tokens_hold hp hts) hrun
  -- A reading ends with one value and nothing open around it.
  unfold finish at hfinish
  split at hfinish
  · cases hfinish
    exact hs.2
  · cases hfinish

section Scalars

variable {cs rest : List Char} {ds : List Nat}

theorem spanAscii_lt (h : spanAscii cs = (ds, rest)) : ∀ d ∈ ds, d < 10 := by
  obtain ⟨rfl, -⟩ := Prod.mk.inj h
  intro d hd
  obtain ⟨c, -, hc⟩ := Text.mem_span hd
  exact (Text.asciiDigit?_eq_some.mp hc).1

theorem legible_applySign (negative : Bool) (hds : ∀ d ∈ ds, d < 10)
    (hlen : ds.length ≤ Text.digitLimit) :
    Legible (.int (Text.applySign negative (Text.ofDigits ds))) := by
  have hnat : (Text.applySign negative (Text.ofDigits ds)).natAbs = Text.ofDigits ds := by
    cases negative <;> simp [Text.applySign]
  change Decimal.numDigits (Int.natAbs _) ≤ _
  rw [hnat]
  apply Decimal.numDigits_le (by decide)
  exact (Text.ofDigits_lt hds).trans_le (Nat.pow_le_pow_right (by decide) hlen)

theorem numberValue_sound {negative : Bool} {fraction : Option (List Nat)} {exponent : Option Int}
    (hds : ∀ d ∈ ds, d < 10) (hlen : ds.length ≤ Text.digitLimit) :
    let j := numberValue negative ds fraction exponent
    j.isScalar ∧ Legible j := by
  unfold numberValue
  split
  · exact ⟨rfl, legible_applySign negative hds hlen⟩
  · exact ⟨rfl, trivial⟩

theorem scanNumber_sound {negative : Bool} (h : scanNumber negative cs = some (j, rest)) :
    j.isScalar ∧ Legible j := by
  unfold scanNumber at h
  split at h
  · cases h
  · cases h
  · rename_i hspan
    split at h
    · cases h
    · rename_i hlong
      obtain ⟨_, -, h⟩ := Option.bind_eq_some_iff.mp h
      obtain ⟨_, -, h⟩ := Option.bind_eq_some_iff.mp h
      cases h
      exact numberValue_sound (spanAscii_lt hspan) (by simpa [isLongNumeral] using hlong)

theorem scanScalar_sound (h : scanScalar cs = some (j, rest)) :
    j.isScalar ∧ Legible j := by
  unfold scanScalar at h
  split at h
  case h_1 =>
    obtain ⟨_, -, h⟩ := Option.map_eq_some_iff.mp h
    cases h
    exact ⟨rfl, trivial⟩
  case h_8 | h_9 => exact scanNumber_sound h
  all_goals
    cases h
    exact ⟨rfl, trivial⟩

/-- A text has no number of too many digits. -/
theorem read?_legible {text : String} (h : read? limit text = some j) : j.Throughout Legible := by
  apply throughout_of_read? _ h
  intro cs rest j hs
  obtain ⟨hscalar, hlegible⟩ := scanScalar_sound hs
  exact .scalar hscalar hlegible

end Scalars
end Liquidity.Json
