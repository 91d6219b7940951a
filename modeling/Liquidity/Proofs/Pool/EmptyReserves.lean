import Liquidity.Proofs.Pool.Scale
import Liquidity.Proofs.Pool.UnitPrice
import Liquidity.Proofs.Stable.PriceRange

/-! How empty reserves show in a price. A stable pool looks at both sides and names the fault. A
pool of constant product looks at the first only: an empty second one makes the price zero, and
what is refused then is the price. -/

namespace Liquidity
set_option autoImplicit false

open Outcome
open Decimal (Numeral leastPlace tooLarge)

/-- A price for two reserves of which neither is empty, and the fault of dividing by zero for
others. -/
def Reported (m n : Int) : Except Fault Price → Prop
  | .ok _ => 0 < m ∧ 0 < n
  | .error e => e.kind = .divideByZero ∧ (m = 0 ∨ n = 0)

variable {s : Snapshot} {m n i j : Int} {base quote : AssetId} {d : Decimal}

section Price

/-- The refusal of a price that is not above zero. -/
def Price.notPositive : Fault := .invalid [⟨.notAbove, [.member "price"]⟩]

theorem Price.of_eq_error (h : ¬ 0 < d.toRat) :
    Price.of base quote (.finite d) = .error Price.notPositive := by
  rw [← Decimal.toRat_zero, ← Decimal.lt_iff] at h
  exact dif_neg h

theorem reported_finite :
    Reported m n (Price.of base quote (.finite d)) ↔ 0 < d.toRat ∧ 0 < m ∧ 0 < n := by
  by_cases h : 0 < d.toRat
  · obtain ⟨price, hprice, -⟩ := Price.of_eq_ok base quote h
    rw [hprice]
    exact (and_iff_right h).symm
  · rw [Price.of_eq_error h]
    simp [Reported, Price.notPositive, Fault.kind, h]

theorem reported_empty (h : m = 0 ∨ n = 0) : Reported m n (.error .emptyReservePrice) := ⟨rfl, h⟩

end Price

section Pair

/-- Quotients that decimals tell from nothing and that are not too large for them. -/
def Quotable (q : ℚ) : Prop := 10 ^ leastPlace / 2 < q ∧ q < tooLarge

/-- The price of a pool of constant product at reserves that are not negative. -/
theorem reported_pair_iff (hm : 0 ≤ m) (hn : 0 ≤ n) :
    Reported m n (ConstantProduct.spotPrice [m, n] >>= Price.of base quote) ↔
      (0 < m → 0 < n ∧ Quotable (n / m)) := by
  rcases hm.eq_or_lt with rfl | hpos
  · exact iff_of_true (reported_empty (.inl rfl)) fun h => absurd h (lt_irrefl 0)
  · rw [ConstantProduct.spotPrice_eq hpos.ne', imp_iff_right hpos]
    by_cases hlarge : (n : ℚ) / m < tooLarge
    · obtain ⟨r, hr, hround⟩ := Decimal.ratio_found hn hpos hlarge
      rw [hr]
      change Reported m n (Price.of base quote (.finite r)) ↔ _
      rw [reported_finite]
      rcases hn.eq_or_lt with rfl | hnpos
      · simp
      · have hq : (0 : ℚ) < n / m := div_pos (by exact_mod_cast hnpos) (by exact_mod_cast hpos)
        rw [hround.pos_iff hq, Quotable]
        tauto
    · rw [Decimal.ratio_tooLarge hpos (not_lt.mp hlarge)]
      refine iff_of_false (fun h => ?_) fun h => hlarge h.2.2
      cases h.1

/-- Nothing of the second asset for something of the first. -/
theorem pair_drained (hm : 0 < m) :
    ConstantProduct.spotPrice [m, (0 : Int)] >>= Price.of base quote = .error Price.notPositive := by
  have hzero : ((0 : Int) : ℚ) / m = 0 := by simp
  have hsmall : ((0 : Int) : ℚ) / m < tooLarge := by
    rw [hzero]
    exact one_pos.trans Decimal.one_lt_tooLarge
  obtain ⟨r, hr, hround⟩ := Decimal.ratio_found le_rfl hm hsmall
  rw [hzero] at hround
  rw [ConstantProduct.spotPrice_eq hm.ne', hr]
  exact Price.of_eq_error (by rw [hround.eq_zero]; exact lt_irrefl 0)

theorem quotable_of_range {q : ℚ} (hlow : 10 ^ (-39 : Int) ≤ q) (hup : q ≤ 10 ^ (39 : Int)) :
    Quotable q := by
  have hpos := Decimal.ten_pow_pos leastPlace
  have hleast : (10 : ℚ) ^ leastPlace < 10 ^ (-39 : Int) := Decimal.ten_pow_lt (by decide)
  constructor
  · linarith
  · exact hup.trans_lt (Decimal.ten_pow_lt_tooLarge (by decide))

/-- Between words. -/
theorem ratio_range (hm : 0 < m) (hn : 0 < n) (hm' : m < Width.uint128.limit)
    (hn' : n < Width.uint128.limit) :
    10 ^ (-39 : Int) ≤ (n : ℚ) / m ∧ (n : ℚ) / m ≤ 10 ^ (39 : Int) := by
  have hlimit : Width.uint128.limit = 340282366920938463463374607431768211456 := rfl
  have hm1 : (1 : ℚ) ≤ m := by exact_mod_cast hm
  have hn1 : (1 : ℚ) ≤ n := by exact_mod_cast hn
  have hmup : (m : ℚ) ≤ 10 ^ 39 := by exact_mod_cast (by omega : m ≤ 10 ^ 39)
  have hnup : (n : ℚ) ≤ 10 ^ 39 := by exact_mod_cast (by omega : n ≤ 10 ^ 39)
  have hpos : (0 : ℚ) < m := one_pos.trans_le hm1
  constructor
  · rw [zpow_neg, inv_eq_one_div, zpow_ofNat]
    exact div_le_div₀ (by linarith) hn1 hpos hmup
  · rw [zpow_ofNat]
    exact (div_le_self (by linarith) hm1).trans hnup

end Pair

section Stable

/-- What is read for the price of a stable pool of two at given reserves: whole numbers of decimals
and of parts of an amplification, and balances and an invariant that fit their words. -/
structure StablePool.Reading (p : StablePool) (s : Snapshot) (m n : Int) (c : StablePool.Scale)
    (i j amp part d a b : Int) : Prop where
  scale : p.scale s = .ok c
  decimals : c.members = [.int i, .int j]
  current : p.currentAmp s = .ok amp
  stated : p.config.ampPrecision = .int part
  moderate : Stable.Moderate amp part
  up : c.up [m, n] = .ok [a, b]
  invariant : Stable.invariant (p.shape amp) [a, b] = .ok d

/-- Whether the slope at the balances is a positive fraction. -/
def Stable.Rising (amp part d a b : Int) : Prop :=
  0 < (slope amp part d a b).1 * (slope amp part d a b).2

namespace StablePool.Reading

variable {p : StablePool} {c : StablePool.Scale} {amp part d a b : Int}

theorem priceAt_eq (h : p.Reading s m n c i j amp part d a b) : p.priceAt s [m, n] =
    Stable.spotPrice (p.shape amp) [a, b] >>= Numeral.scaled (j - i) := by
  have hshift : unitShift c.members = .ok (j - i) := by
    rw [h.decimals]
    rfl
  rw [StablePool.priceAt, h.scale, ok_bind, h.current, ok_bind, h.up, ok_bind, hshift]
  rfl

theorem reported_full (h : p.Reading s m n c i j amp part d a b) (hij : (j - i).natAbs ≤ 99)
    (ha : 0 < a ∧ a < Width.uint128.limit) (hb : 0 < b ∧ b < Width.uint128.limit)
    (hm : 0 < m) (hn : 0 < n) :
    Reported m n (p.priceAt s [m, n] >>= Price.of base quote) ↔ Stable.Rising amp part d a b := by
  have hlimit : Width.uint128.limit = 340282366920938463463374607431768211456 := rfl
  have hd := Stable.invariant_bounds h.invariant
  obtain ⟨hnum, hden⟩ := Stable.numDigits_slope (d := d) (x := a) (y := b) h.moderate
    (by omega) (by omega) (by omega)
  rw [h.priceAt_eq, Stable.spotPrice_eq ha.1.ne' hb.1.ne' h.invariant rfl h.stated,
    Numeral.dividedBy_finite]
  unfold Stable.Rising
  generalize (Stable.slope amp part d a b).1 = num at *
  generalize (Stable.slope amp part d a b).2 = den at *
  by_cases hzero : den = 0
  · subst hzero
    obtain ⟨e, he, hkind⟩ := Decimal.dividedBy_zero (.ofInt num)
    rw [he]
    exact iff_of_false (fun h' => hkind h'.1) (by simp)
  · obtain ⟨r, hr, hclear, hpos⟩ :=
      Decimal.div_ofInt_clear hzero hnum hden (show 900157 + 99 ≤ 999900 by decide)
    rw [hr]
    change Reported m n ((Numeral.finite r).scaled (j - i) >>= Price.of base quote) ↔ _
    rw [Decimal.scaled_clear hclear hij, ok_bind, reported_finite, ← Decimal.toRat_zero,
      ← Decimal.lt_iff, Decimal.zero_lt_moved, Decimal.lt_iff, Decimal.toRat_zero, hpos]
    simp [hm, hn]

/-- Empty reserves are empty balances, and others are words. -/
theorem balances (h : p.Reading s m n c i j amp part d a b) :
    (0 ≤ a ∧ a < Width.uint128.limit ∧ (a = 0 ↔ m = 0)) ∧
      0 ≤ b ∧ b < Width.uint128.limit ∧ (b = 0 ↔ n = 0) := by
  obtain ⟨hg, hi, hj⟩ := StablePool.scale_range h.scale h.decimals
  obtain ⟨a', b', heq, ha, hb⟩ := StablePool.up_pair h.decimals hg h.up
  cases heq
  exact ⟨StablePool.raised hi.1 (le_max_left i j) ha, StablePool.raised hj.1 (le_max_right i j) hb⟩

theorem reported_iff (h : p.Reading s m n c i j amp part d a b) (hm : 0 ≤ m) (hn : 0 ≤ n) :
    Reported m n (p.priceAt s [m, n] >>= Price.of base quote) ↔
      (0 < m → 0 < n → Stable.Rising amp part d a b) := by
  obtain ⟨⟨ha0, ha, haz⟩, hb0, hb, hbz⟩ := h.balances
  by_cases hempty : m = 0 ∨ n = 0
  · rw [h.priceAt_eq, Stable.spotPrice_empty (by rwa [haz, hbz])]
    exact iff_of_true (reported_empty hempty) (by omega)
  · have hij : (j - i).natAbs ≤ 99 := by
      obtain ⟨-, hi, hj⟩ := StablePool.scale_range h.scale h.decimals
      unfold PrecisionTable.InRange PrecisionTable.maxPrecision at hi hj
      omega
    have hmpos : 0 < m := by omega
    have hnpos : 0 < n := by omega
    rw [h.reported_full hij (by omega) (by omega) hmpos hnpos, imp_iff_right hmpos,
      imp_iff_right hnpos]

/-- Amplifications of at least one, counted in a positive number of parts. -/
theorem rising (h : p.Reading s m n c i j amp part d a b) (hm : 0 < m) (hn : 0 < n)
    (hp : 1 ≤ part) (hl : part ≤ amp) : Stable.Rising amp part d a b := by
  obtain ⟨⟨ha0, -, haz⟩, hb0, -, hbz⟩ := h.balances
  have hd := (Stable.invariant_bounds h.invariant).1
  have hslope : Stable.Sloped amp part d a b :=
    ⟨by omega, by omega, hd, .inl (by omega), by omega, by omega⟩
  exact Int.mul_pos hslope.pos.1 hslope.pos.2

end StablePool.Reading

end Stable

namespace Pool

variable {p : Pool} {outcome : Except Fault Price}

/-- A price asked for at given reserves, or at those of the snapshot. -/
inductive Asked (p : Pool) (s : Snapshot) (m n : Int) : Except Fault Price → Prop
  | given : p.Asked s m n (p.spotPriceAt s [m, n])
  | read {r : Reserves} (hr : s.reservesOf p.identity = .ok r)
      (hamounts : r.amountsFor p.members = [m, n]) : p.Asked s m n (p.spotPrice s)

/-- A price needs no more than the reserves, or what a stable pool reads. -/
def Readable (p : Pool) (s : Snapshot) (m n : Int) : Prop :=
  match p with
  | .constantProduct _ => True
  | .stable q => ∃ c i j amp part d a b, q.Reading s m n c i j amp part d a b

/-- Where only the second reserve of a pool of constant product is empty. -/
def Drained (p : Pool) (m n : Int) : Prop :=
  match p with
  | .constantProduct _ => 0 < m ∧ n = 0
  | .stable _ => False

/-- Where no decimal is near the exact price of two reserves of which neither is empty, or where
it is not positive. -/
def Unquotable (p : Pool) (s : Snapshot) (m n : Int) : Prop :=
  0 < m ∧ 0 < n ∧
    match p with
    | .constantProduct _ => ¬ Quotable (n / m)
    | .stable q => ∃ c i j amp part d a b,
        q.Reading s m n c i j amp part d a b ∧ ¬ Stable.Rising amp part d a b

/-- Where stable pools amplify by at least one, counted in a positive number of parts. -/
def Amplified (p : Pool) (s : Snapshot) : Prop :=
  match p with
  | .constantProduct _ => True
  | .stable q => ∀ amp part, q.currentAmp s = .ok amp → q.config.ampPrecision = .int part →
      1 ≤ part ∧ 2 * part ≤ amp * 2

theorem spotPriceAt_eq (hp : p.members = [base, quote]) (amounts : List Int) :
    p.spotPriceAt s amounts = p.priceAt s amounts >>= Price.of base quote := by
  have hpair : p.pair = .ok (base, quote) := by
    unfold pair
    rw [hp]
  rw [spotPriceAt, hpair]
  rfl

theorem Asked.eq (h : p.Asked s m n outcome) : outcome = p.spotPriceAt s [m, n] := by
  cases h with
  | given => rfl
  | read hr hamounts =>
    rw [← hamounts]
    unfold spotPrice spotPriceAt
    rw [hr]
    rfl

theorem reported_iff (hp : p.members.length = 2) (hm : 0 ≤ m) (hn : 0 ≤ n)
    (h : p.Readable s m n) : Reported m n (p.spotPriceAt s [m, n]) ↔
      ¬ p.Drained m n ∧ ¬ p.Unquotable s m n := by
  obtain ⟨base, quote, hmembers⟩ := List.length_eq_two.mp hp
  rw [spotPriceAt_eq hmembers]
  cases p with
  | constantProduct q =>
    refine (reported_pair_iff hm hn).trans ?_
    unfold Drained Unquotable
    constructor
    · intro hquoted
      exact ⟨fun hd => by have := (hquoted hd.1).1; omega,
        fun hu => hu.2.2 (hquoted hu.1).2⟩
    · rintro ⟨hd, hu⟩ hpos
      have hnpos : 0 < n := by
        by_contra hle
        exact hd ⟨hpos, by omega⟩
      exact ⟨hnpos, by_contra fun hq => hu ⟨hpos, hnpos, hq⟩⟩
  | stable q =>
    obtain ⟨c, i, j, amp, part, d, a, b, h⟩ := h
    refine (h.reported_iff hm hn).trans ?_
    unfold Drained Unquotable
    constructor
    · intro hrising
      refine ⟨id, ?_⟩
      rintro ⟨hmpos, hnpos, _, _, _, _, _, _, _, _, h', hnot⟩
      have hreported : Reported m n (q.priceAt s [m, n] >>= Price.of base quote) :=
        (h.reported_iff hm hn).mpr hrising
      exact hnot ((h'.reported_iff hm hn).mp hreported hmpos hnpos)
    · rintro ⟨-, hu⟩ hmpos hnpos
      exact by_contra fun hnot => hu ⟨hmpos, hnpos, _, _, _, _, _, _, _, _, h, hnot⟩

theorem spotPriceAt_of_drained (hp : p.members.length = 2) (h : p.Drained m n) :
    p.spotPriceAt s [m, n] = .error Price.notPositive := by
  obtain ⟨base, quote, hmembers⟩ := List.length_eq_two.mp hp
  rw [spotPriceAt_eq hmembers]
  cases p with
  | constantProduct q =>
    obtain ⟨hm, rfl⟩ := h
    exact pair_drained hm
  | stable q => exact h.elim

/-- Nothing is unquotable between words. -/
theorem not_unquotable (ha : p.Amplified s) (hm : m < Width.uint128.limit)
    (hn : n < Width.uint128.limit) : ¬ p.Unquotable s m n := by
  rintro ⟨hmpos, hnpos, h⟩
  cases p with
  | constantProduct q =>
    obtain ⟨hlow, hup⟩ := ratio_range hmpos hnpos hm hn
    exact h (quotable_of_range hlow hup)
  | stable q =>
    obtain ⟨_, _, _, amp, part, _, _, _, h, hnot⟩ := h
    obtain ⟨hparts, hamp⟩ := ha amp part h.current h.stated
    exact hnot (h.rising hmpos hnpos hparts (by omega))

theorem amountOf_lt (as : Assets) (id : AssetId) :
    (Assets.amountOf as id : Int) < Width.uint128.limit := by
  have hlimit : Width.uint128.limit = Uint128.limit := rfl
  rw [hlimit]
  unfold Assets.amountOf
  split
  · rename_i a _
    exact_mod_cast a.amount.property
  · decide

theorem words_of_read {r : Reserves} (hr : r.amountsFor p.members = [m, n]) :
    m < Width.uint128.limit ∧ n < Width.uint128.limit := by
  have hword : ∀ a ∈ r.amountsFor p.members, a < Width.uint128.limit :=
    List.forall_mem_map.mpr fun id _ => amountOf_lt r.assets id
  rw [hr] at hword
  exact ⟨hword m (by simp), hword n (by simp)⟩

/-- A price is quoted where both reserves hold something, and a division by zero is the fault
where one is empty, unless only the second reserve of a pool of constant product is empty or the
exact price is none of the positive decimals. In the first case it is the price that is refused.
The second is out of the question between words, as reserves that are read are, if stable pools
amplify as they should. -/
theorem empty_reserves_reported_iff (p : Pool) (s : Snapshot) (m n : Int)
    (outcome : Except Fault Price) (hp : p.members.length = 2) (hm : 0 ≤ m) (hn : 0 ≤ n)
    (h : p.Readable s m n) (hasked : p.Asked s m n outcome) :
    (Reported m n outcome ↔ ¬ p.Drained m n ∧ ¬ p.Unquotable s m n) ∧
    (p.Drained m n → outcome = .error Price.notPositive) ∧
    (p.Amplified s → m < Width.uint128.limit → n < Width.uint128.limit →
      ¬ p.Unquotable s m n) ∧
    ∀ r : Reserves, r.amountsFor p.members = [m, n] →
      m < Width.uint128.limit ∧ n < Width.uint128.limit := by
  rw [hasked.eq]
  exact ⟨reported_iff hp hm hn h, spotPriceAt_of_drained hp, not_unquotable,
    fun r hr => words_of_read hr⟩

/-- A stable pool with something of both assets and with nothing of the first. -/
theorem empty_reserves_reported_iff_coins :
    Reported 1500 160000
      ((stable .coins).spotPriceAt StablePool.coinsSnapshot [(1500 : Int), 160000]) ∧
    Reported 0 160000
      ((stable .coins).spotPriceAt StablePool.coinsSnapshot [(0 : Int), 160000]) := by
  have hfull : (stable .coins).Readable StablePool.coinsSnapshot 1500 160000 :=
    ⟨_, 2, 4, 10000, 100, 309998, 150000, 160000,
      rfl, rfl, rfl, rfl, .inl ⟨by decide, by decide⟩, rfl, by decide +kernel⟩
  have hempty : (stable .coins).Readable StablePool.coinsSnapshot 0 160000 :=
    ⟨_, 2, 4, 10000, 100, 0, 0, 160000,
      rfl, rfl, rfl, rfl, .inl ⟨by decide, by decide⟩, rfl, rfl⟩
  have hamplified : (stable .coins).Amplified StablePool.coinsSnapshot := by
    intro amp part hamp hpart
    cases hamp
    cases hpart
    decide
  obtain ⟨hfulliff, -, hfullquoted, -⟩ := empty_reserves_reported_iff (stable .coins)
    StablePool.coinsSnapshot 1500 160000 _ rfl (by decide) (by decide) hfull .given
  obtain ⟨hemptyiff, -, hemptyquoted, -⟩ := empty_reserves_reported_iff (stable .coins)
    StablePool.coinsSnapshot 0 160000 _ rfl (by decide) (by decide) hempty .given
  exact ⟨hfulliff.mpr ⟨id, hfullquoted hamplified (by decide) (by decide)⟩,
    hemptyiff.mpr ⟨id, hemptyquoted hamplified (by decide) (by decide)⟩⟩

/-- A pool of constant product of which one side is left. -/
def remnant : Pool :=
  .constantProduct ⟨⟨"remnant", .cw20 "lp", [.native "left", .native "spent"], .constantProduct,
    none, by decide⟩, {}, rfl, rfl⟩

def remnantSnapshot : Snapshot :=
  (Snapshot.empty (.int 0) {}).addPool remnant.identity
    ⟨[⟨.native "left", 5, by decide⟩], 5, by decide⟩ none

theorem drained_pair_misreported :
    remnant.Asked remnantSnapshot 5 0 (remnant.spotPrice remnantSnapshot) ∧
      remnant.spotPrice remnantSnapshot = .error Price.notPositive ∧
      ¬ Reported 5 0 (remnant.spotPrice remnantSnapshot) := by
  have hoffered : remnant.spotPrice remnantSnapshot = .error Price.notPositive := by decide +kernel
  refine ⟨.read rfl rfl, hoffered, ?_⟩
  rw [hoffered]
  rintro ⟨hkind, -⟩
  cases hkind

end Pool

end Liquidity
