import Liquidity.Proofs.Pool.Decimals

/-! The scale of a stable pool of two whose decimals are whole numbers. It is within the range of
decimals and has the greater of the two as its own, so that amounts are only ever raised to it. -/

namespace Liquidity
set_option autoImplicit false

open Outcome

namespace PrecisionTable

variable {table : PrecisionTable} {f : Figure} {id : AssetId}

theorem ofEntries_inRange {entries : List (AssetId × Figure)} (h : ofEntries entries = .ok table) :
    ∀ e ∈ table, isInRange e.2 = .ok true := by
  refine forall_of_mapM_eq_ok (fun e e' he => ?_) h
  obtain ⟨f, hf, rfl⟩ := map_eq_ok.mp he
  obtain ⟨rfl, hrange⟩ := inRange_eq_ok.mp hf
  exact hrange

theorem precisionOf_inRange (h : ∀ e ∈ table, isInRange e.2 = .ok true)
    (hf : table.precisionOf id = .ok f) : isInRange f = .ok true := by
  unfold precisionOf at hf
  split at hf
  · rename_i p hp
    cases hf
    obtain ⟨before, after, rfl, -⟩ := List.lookup_eq_some_iff.mp hp
    exact h (id, f) (by simp)
  · cases hf

end PrecisionTable

namespace StablePool

variable {p : StablePool} {s : Snapshot} {c : Scale} {i j g m n : Int}

theorem scale_range (h : p.scale s = .ok c) (hc : c.members = [.int i, .int j]) :
    c.greatest = .int (max i j) ∧ PrecisionTable.InRange i ∧ PrecisionTable.InRange j := by
  obtain ⟨table, htable, h⟩ := bind_eq_ok.mp h
  obtain ⟨members, hmembers, h⟩ := bind_eq_ok.mp h
  obtain ⟨greatest, hgreatest, h⟩ := bind_eq_ok.mp h
  cases h
  obtain rfl : members = [.int i, .int j] := hc
  obtain ⟨entries, -, htable⟩ := bind_eq_ok.mp htable
  have hrange := forall_of_mapM_eq_ok (fun _ _ hf => PrecisionTable.precisionOf_inRange
    (PrecisionTable.ofEntries_inRange htable) hf) hmembers
  have hmax : greatestFrom (.int i : Figure) [.int j] = .ok (.int (max i j)) :=
    PrecisionTable.greatestFrom_figures i [j]
  rw [PrecisionTable.greatest, hmembers, ok_bind] at hgreatest
  refine ⟨Except.ok.inj (hgreatest.symm.trans hmax), ?_, ?_⟩
  · exact PrecisionTable.isInRange_int.mp (hrange _ (by simp))
  · exact PrecisionTable.isInRange_int.mp (hrange _ (by simp))

/-- An amount at more decimals is a word, and empty only if it was. -/
theorem raised (hi : 0 ≤ i) (hg : i ≤ g) {b : Int} (h : adjustPrecision m i g = .ok b) :
    0 ≤ b ∧ b < Width.uint128.limit ∧ (b = 0 ↔ m = 0) := by
  rw [adjustPrecision_int, if_neg (by omega), rescale, if_pos hg] at h
  obtain ⟨h0, hlt, rfl⟩ := Width.check_eq_ok.mp h
  have hpos : 0 < Text.tenTo (g - i).toNat := Nat.pow_pos (by decide)
  have hunit : (Text.tenTo (g - i).toNat : Int) ≠ 0 := by omega
  exact ⟨h0, hlt, by rw [Int.mul_eq_zero, or_iff_left hunit]⟩

theorem up_pair {balances : List Int} (hc : c.members = [.int i, .int j])
    (hg : c.greatest = .int (max i j)) (h : c.up [m, n] = .ok balances) :
    ∃ a b, balances = [a, b] ∧ adjustPrecision m i (max i j) = .ok a ∧
      adjustPrecision n j (max i j) = .ok b := by
  rw [Scale.up, hc, hg, normalize, if_neg (by simp), mapM_eq_ok] at h
  obtain _ | ⟨ha, _ | ⟨hb, _ | _⟩⟩ := h
  exact ⟨_, _, rfl, ha, hb⟩

end StablePool

end Liquidity
