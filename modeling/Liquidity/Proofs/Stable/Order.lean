import Liquidity.Proofs.Stable.Newton

/-! How far the invariant keeps the order of the balances. The solution of its equation does,
and the search falls short of that by less than two; so of two pools the larger has the larger
invariant wherever the smaller one's does not come up to the larger one's solution. Past that
it need not. -/

namespace Liquidity.Stable
set_option autoImplicit false

/-- Of two pools one of which has no less of any asset, the larger has the larger solution, and
its invariant falls short of that by less than two. It also has the larger invariant, if that of the smaller is
not as large as the larger solution, and falls behind by one at most, if that of the smaller
does not exceed its own solution. -/
theorem invariant_order (s : Shape) (x y : List Int) (d d' : Int) (hn : 2 ≤ x.length)
    (hx : ∀ b ∈ x, 0 < b) (ha : 1 ≤ s.ampPrecision) (hl : 2 * s.ampPrecision ≤ s.amp * x.length)
    (hxy : List.Forall₂ (· ≤ ·) x y) (hd : invariant s x = .ok d) (hd' : invariant s y = .ok d') :
    ∃ e e', Solution s x e ∧ Solution s y e' ∧ e ≤ e' ∧ e ≤ d + 1 ∧ e' ≤ d' + 1 ∧
      (d < e' → d ≤ d') ∧ (d ≤ e → d ≤ d' + 1) := by
  have h : Sound s x := ⟨hn, hx, ha, hl⟩
  have h' := h.mono hxy
  obtain ⟨e, he⟩ := h.exists_solution
  obtain ⟨e', he'⟩ := h'.exists_solution
  have hle := h.solution_mono hxy he he'
  have hshort := invariant_reaches h hd e he.1
  have hshort' := invariant_reaches h' hd' e' he'.1
  refine ⟨e, e', he, he', hle, hshort, hshort', ?_, ?_⟩
  · intro hbelow
    omega
  · intro hbelow
    omega

/-- A deposit into a round pool: the invariant before it does not come up to the solution after
it. -/
theorem invariant_order_deposit :
    ∃ d d' e e', invariant (.usual (10000 : Int)) [(1000000 : Int), 2500000] = .ok d ∧
      invariant (.usual (10000 : Int)) [(1050000 : Int), 2500000] = .ok d' ∧
      Solution (.usual 10000) [1000000, 2500000] e ∧ Solution (.usual 10000) [1050000, 2500000] e' ∧
      e ≤ e' ∧ d < e' ∧ d ≤ d' := by
  have hd : invariant (.usual (10000 : Int)) [(1000000 : Int), 2500000] = .ok 3496114 := by
    decide +kernel
  have hd' : invariant (.usual (10000 : Int)) [(1050000 : Int), 2500000] = .ok 3546491 := by
    decide +kernel
  obtain ⟨e, e', he, he', hle, -, -, hkeeps, -⟩ := invariant_order (.usual 10000) [1000000, 2500000]
    [1050000, 2500000] 3496114 3546491 (by decide) (by decide) (by decide) (by decide) (by decide)
    hd hd'
  have hgap : (3496115 : Int) ≤ e' := he'.2 (by decide +kernel : Within _ _ 3496115)
  exact ⟨_, _, e, e', hd, hd', he, he', hle, hgap, hkeeps hgap⟩

/-- In a skewed pool one unit more of the larger balance takes one off the invariant, and the
next one brings it back. One unit more of a small balance can take nearly all of it, where the
search leaps between far apart numbers. -/
theorem larger_pool_smaller_invariant :
    (List.Forall₂ (· ≤ ·) [(158 : Int), 5] [159, 5] ∧
      List.Forall₂ (· ≤ ·) [(159 : Int), 5] [160, 5] ∧
      invariant (.usual (100 : Int)) [(158 : Int), 5] = .ok 94 ∧
      invariant (.usual (100 : Int)) [(159 : Int), 5] = .ok 93 ∧
      invariant (.usual (100 : Int)) [(160 : Int), 5] = .ok 94) ∧
    List.Forall₂ (· ≤ ·) [(160551 : Int), 1, 1, 6, 1] [160551, 2, 1, 6, 1] ∧
      invariant (.usual (10000 : Int)) [(160551 : Int), 1, 1, 6, 1] = .ok 134067 ∧
      invariant (.usual (10000 : Int)) [(160551 : Int), 2, 1, 6, 1] = .ok 998 := by
  decide +kernel

end Liquidity.Stable
