import Liquidity.Pool.Price
import Liquidity.Proofs.Decimal.Sum
import Liquidity.Proofs.Pool.Units
import Liquidity.Proofs.Ramp
import Liquidity.Proofs.Stable.Price
import Liquidity.Proofs.Stable.PriceRange

/-! The price of an asset counted in a finer unit. A unit of it is worth so much less, or buys
so much more, and not a digit of the price changes. Only at the ends of the decimals, which
amplifications of near a million digits reach, a point cannot be moved so. -/

namespace Liquidity
set_option autoImplicit false

open Outcome
open Decimal (Numeral Fits leastPlace maxLeading tooLarge)

namespace Decimal

variable {d : Decimal} {n : Int}

theorem zero_lt_iff : zero < d ↔ d.negative = false ∧ d.coefficient ≠ 0 := by
  change zero.cmp d = .lt ↔ _
  have hup : compare (0 : Int) 1 = .lt := rfl
  have hdown : compare (0 : Int) (-1) = .gt := rfl
  obtain ⟨negative, coefficient, exponent⟩ := d
  by_cases hc : coefficient = 0
  · subst hc
    simp [cmp, signum, zero, ofInt, compareMagnitude]
  · cases negative <;> simp [cmp, signum, zero, ofInt, hc, hup, hdown]

/-- The decimal times a power of ten, digit for digit. -/
def moved (d : Decimal) (n : Int) : Decimal := { d with exponent := d.exponent + n }

theorem moved_moved (d : Decimal) (m n : Int) : (d.moved m).moved n = d.moved (m + n) := by
  simp [moved, Int.add_assoc]

theorem scaled_clear {room : Nat} (h : d.Clear room) (hn : n.natAbs ≤ room) :
    (Numeral.finite d).scaled n = .ok (.finite (d.moved n)) := by
  change (found (d.scale n)).map Numeral.finite = _
  rw [scale_clear h hn]
  rfl

theorem zero_lt_moved : zero < d.moved n ↔ zero < d := by
  rw [zero_lt_iff, zero_lt_iff, moved]

theorem toRat_moved (d : Decimal) (n : Int) : (d.moved n).toRat = d.toRat * 10 ^ n := by
  have hsize : (d.moved n).size = d.size * 10 ^ n := by
    rw [size, size, mul_assoc, ← ten_pow_add]
    rfl
  unfold toRat
  rw [hsize, ite_mul, neg_mul]
  rfl

/-- Where digits get lost, the product with the power of ten is rounded. -/
theorem scaled_found (h0 : 0 ≤ d.toRat * 10 ^ n) (h : d.toRat * 10 ^ n < tooLarge) :
    ∃ r, (Numeral.finite d).scaled n = .ok (.finite r) ∧ Rounds (d.toRat * 10 ^ n) r.toRat := by
  rw [← toRat_moved] at h0 h ⊢
  obtain ⟨r, hr, hround⟩ := fit_found h0 h
  exact ⟨r, congrArg (·.map Numeral.finite) hr, hround⟩

theorem scaled_tooLarge (h : tooLarge ≤ d.toRat * 10 ^ n) :
    (Numeral.finite d).scaled n = .error .decimalTooLarge := by
  rw [← toRat_moved] at h
  exact congrArg (·.map Numeral.finite) (fit_tooLarge h)

end Decimal

namespace Price

theorem of_eq_ok {d : Decimal} (base quote : AssetId) (h : 0 < d.toRat) :
    ∃ price, Price.of base quote (.finite d) = .ok price ∧ price.value = d := by
  rw [← Decimal.toRat_zero, ← Decimal.lt_iff] at h
  exact ⟨⟨base, quote, d, h⟩, dif_pos h, rfl⟩

/-- The price times a power of ten. -/
def moved (p : Price) (n : Int) : Price :=
  { p with value := p.value.moved n, positive := Decimal.zero_lt_moved.mpr p.positive }

theorem of_moved (base quote : AssetId) (d : Decimal) (n : Int) :
    Price.of base quote (.finite (d.moved n)) =
      (Price.of base quote (.finite d)).map (·.moved n) := by
  unfold Price.of
  by_cases h : Decimal.zero < d
  · simp [h, Decimal.zero_lt_moved.mpr h, Price.moved, Except.map]
  · simp [h, Decimal.zero_lt_moved.not.mpr h, Except.map]

end Price

theorem rescale_bounds {value current new n : Int} (h : rescale value current new = .ok n) :
    0 ≤ n ∧ n < Width.uint128.limit := by
  unfold rescale at h
  split at h
  · obtain ⟨h0, hlt, rfl⟩ := Width.check_eq_ok.mp h
    exact ⟨h0, hlt⟩
  · obtain ⟨_, -, h⟩ := bind_eq_ok.mp h
    obtain ⟨h0, hlt, rfl⟩ := Width.check_eq_ok.mp h
    exact ⟨h0, hlt⟩

namespace StablePool

/-- Amplifications, and parts to count them in, that are whole and of moderate size. Parts that
are a float make floats of prices, and the price at extreme amplifications may lie at the end of
the decimals, where a point cannot move. -/
structure ModerateAmps (p : StablePool) (s : Snapshot) : Prop where
  whole : ∀ x, p.config.ampPrecision ≠ .float x
  moderate : ∀ amp part, p.currentAmp s = .ok amp →
    Operand.count p.config.ampPrecision = .ok part → Stable.Moderate amp part

/-- So it is for every valid ramp, where the number of parts is not negative. -/
theorem ModerateAmps.of_valid {p : StablePool} {s : Snapshot} {part : Int}
    (hr : ∀ ramp, s.rampOf p.identity = .ok ramp → ramp.Valid)
    (hp : p.config.ampPrecision = .int part) (h0 : 0 ≤ part) : p.ModerateAmps s := by
  refine ⟨by simp [hp], fun amp part' hamp hpart => .inl ⟨?_, ?_⟩⟩
  · obtain ⟨ramp, hramp, hat⟩ := bind_eq_ok.mp hamp
    exact Ramp.ampAt_nonneg (hr ramp hramp) hat
  · rw [hp] at hpart
    cases hpart
    exact h0

namespace Recounted

variable {p : StablePool} {i : AssetId} {d k : Nat} {s t : Snapshot}

theorem balances_bounds {c c' : Scale} (hc : p.SameScale s t c c') {amounts : AssetId → Int}
    {bs : List Int} (h : c.up (p.identity.members.map amounts) = .ok bs) :
    ∀ b ∈ bs, 0 ≤ b ∧ b < Width.uint128.limit := by
  obtain ⟨g, hg, -, -⟩ := hc.greatest
  rw [Scale.up, hc.before, hg, normalize_map] at h
  refine forall_of_mapM_eq_ok (fun j b hb => ?_) h
  rw [adjustPrecision_int, refused_eq_ok] at hb
  exact rescale_bounds hb.2

/-- The prices that the two snapshots give for the same reserves, before they are prices of a
pair. -/
theorem priceAt (h : p.Recounted i d k s t) (ha : p.ModerateAmps s) {a b : AssetId}
    (hm : p.identity.members = [a, b]) {r r' : Reserves} (hr : Reserves.Recounted i k r r') :
    Alike (fun x x' => ∃ price : Decimal, ∃ n : Int, x = .finite (price.moved n) ∧
        x' = .finite (price.moved
          (n + (t.decimals b - t.decimals a - (s.decimals b - s.decimals a)))))
      (p.priceAt s (r.amountsFor p.identity.members))
      (p.priceAt t (r'.amountsFor p.identity.members)) := by
  refine h.scale.bind fun c c' hc => ?_
  rw [h.currentAmp, h.balances hc hr]
  refine .after fun amp hamp => .after fun balances hbalances => .after fun value hvalue => ?_
  obtain ⟨price, rfl, hclear⟩ := Stable.spotPrice_clear (balances_bounds hc hbalances) ha.whole
    (fun amp' part hamp' => by
      cases hamp'
      exact ha.moderate amp part hamp) hvalue
  have hs : unitShift c.members = .ok (s.decimals b - s.decimals a) := by
    rw [hc.before, hm]
    rfl
  have ht : unitShift c'.members = .ok (t.decimals b - t.decimals a) := by
    rw [hc.after, hm]
    rfl
  obtain ⟨hsa, hta⟩ := hc.inRange a (by simp [hm])
  obtain ⟨hsb, htb⟩ := hc.inRange b (by simp [hm])
  unfold PrecisionTable.InRange PrecisionTable.maxPrecision at hsa hta hsb htb
  rw [hs, ht, ok_bind, ok_bind, Decimal.scaled_clear hclear (by omega),
    Decimal.scaled_clear hclear (by omega)]
  refine .ok ⟨price, s.decimals b - s.decimals a, rfl, ?_⟩
  congr 2
  omega

theorem spotPrice (h : p.Recounted i d k s t) (ha : p.ModerateAmps s) {a b : AssetId}
    (hm : p.identity.members = [a, b]) : (Pool.stable p).spotPrice t =
      ((Pool.stable p).spotPrice s).map
        (·.moved (t.decimals b - t.decimals a - (s.decimals b - s.decimals a))) := by
  have hpair : (Pool.stable p).pair = .ok (a, b) := by
    unfold Pool.pair
    rw [show (Pool.stable p).members = [a, b] from hm]
  apply Alike.eq_map
  rw [Pool.spotPrice, Pool.spotPrice, hpair, ok_bind, ok_bind]
  refine h.reserves.bind fun r r' hr => (h.priceAt ha hm hr).bind ?_
  rintro _ _ ⟨price, n, rfl, rfl⟩
  rw [← Decimal.moved_moved, Price.of_moved a b (price.moved n)]
  cases Price.of a b (.finite (price.moved n)) with
  | ok p => exact .ok rfl
  | error e => exact .error e

/-- Where the finer unit is that of the base, the price is that of a smaller unit. -/
theorem spotPrice_base (h : p.Recounted i d k s t) (ha : p.ModerateAmps s) {j : AssetId}
    (hm : p.identity.members = [i, j]) :
    (Pool.stable p).spotPrice t = ((Pool.stable p).spotPrice s).map (·.moved (-k)) := by
  have hj : j ≠ i := by
    have hdistinct := h.distinct
    rw [hm] at hdistinct
    simp at hdistinct
    exact Ne.symm hdistinct
  have hn : s.decimals j - (d + k) - (s.decimals j - d) = -(k : Int) := by omega
  rw [h.spotPrice ha hm, h.decimals_others hj, h.decimals_after, h.decimals_before, hn]

theorem spotPrice_quote (h : p.Recounted i d k s t) (ha : p.ModerateAmps s) {j : AssetId}
    (hm : p.identity.members = [j, i]) :
    (Pool.stable p).spotPrice t = ((Pool.stable p).spotPrice s).map (·.moved k) := by
  have hj : j ≠ i := by
    have hdistinct := h.distinct
    rw [hm] at hdistinct
    simpa using hdistinct
  have hn : d + k - s.decimals j - (d - s.decimals j) = (k : Int) := by omega
  rw [h.spotPrice ha hm, h.decimals_others hj, h.decimals_after, h.decimals_before, hn]

end Recounted

/-- A stable pool mints and burns the same whatever the unit that a member is counted in, as
long as none has more decimals than before. Its price changes as the unit does, and not a digit
of it is lost at amplifications of moderate size. -/
theorem units_immaterial {p : StablePool} {i : AssetId} {d k : Nat} {s t : Snapshot}
    (h : p.Recounted i d k s t) :
    (∀ as bs, Assets.Recounted i k as bs →
      (Pool.stable p).simulateProvide t bs = (Pool.stable p).simulateProvide s as ∧
      (Assets.total bs i < Uint128.limit → ∀ provided,
        ((Pool.stable p).simulateBurn t bs provided).map (·.burn) =
          ((Pool.stable p).simulateBurn s as provided).map (·.burn))) ∧
    (p.ModerateAmps s → ∀ j,
      (p.identity.members = [i, j] →
        (Pool.stable p).spotPrice t = ((Pool.stable p).spotPrice s).map (·.moved (-k))) ∧
      (p.identity.members = [j, i] →
        (Pool.stable p).spotPrice t = ((Pool.stable p).spotPrice s).map (·.moved k))) := by
  constructor
  · intro as bs has
    exact ⟨h.simulateProvide has, h.simulateBurn has⟩
  · intro ha j
    exact ⟨h.spotPrice_base ha, h.spotPrice_quote ha⟩

/-- A pool of an asset counted in cents and one in hundredths of cents. -/
def coins : StablePool :=
  ⟨⟨"coins", .cw20 "lp", [.native "cent", .cw20 "token"], .stableSwap, none, by decide⟩, {}, rfl⟩

def coinsRamp : Ramp := .constant 10000 0

def coinsSnapshot : Snapshot :=
  ((((Snapshot.empty (.int 0) {}).addPool coins.identity
      ⟨[⟨.native "cent", 1500, by decide⟩, ⟨.cw20 "token", 160000, by decide⟩], 3000, by decide⟩
      (some coinsRamp)).addPrecision (.native "cent") (.int 2)).addPrecision
    (.cw20 "token") (.int 4)).addPrecision (.cw20 "lp") (.int 6)

theorem units_immaterial_coins : ∃ t,
    (coinsSnapshot.addPrecision (.native "cent") (.int 4)).setReserves coins.identity
        ⟨[⟨.native "cent", 150000, by decide⟩, ⟨.cw20 "token", 160000, by decide⟩],
          3000, by decide⟩ = .ok t ∧
      (Pool.stable coins).simulateProvide t [⟨.native "cent", 10000, by decide⟩] =
        .ok ⟨⟨.cw20 "lp", 96, by decide⟩⟩ ∧
      ((Pool.stable coins).simulateBurn t [⟨.native "cent", 10000, by decide⟩]).map (·.burn) =
        ((Pool.stable coins).simulateBurn coinsSnapshot
          [⟨.native "cent", 100, by decide⟩]).map (·.burn) ∧
      (Pool.stable coins).spotPrice t =
        ((Pool.stable coins).spotPrice coinsSnapshot).map (·.moved (-2)) := by
  have hrefinable : coins.Refinable (.native "cent") 2 2 coinsSnapshot :=
    .of_pair rfl rfl rfl (by decide) (by decide) (by decide) (by decide) (by decide)
  have hreserves : Reserves.Recounted (.native "cent") 2
      ⟨[⟨.native "cent", 1500, by decide⟩, ⟨.cw20 "token", 160000, by decide⟩], 3000, by decide⟩
      ⟨[⟨.native "cent", 150000, by decide⟩, ⟨.cw20 "token", 160000, by decide⟩],
        3000, by decide⟩ :=
    ⟨.cons ⟨rfl, by decide⟩ (.cons ⟨rfl, by decide⟩ .nil), rfl⟩
  have hdeposit : Assets.Recounted (.native "cent") 2 [⟨.native "cent", 100, by decide⟩]
      [⟨.native "cent", 10000, by decide⟩] := .cons ⟨rfl, by decide⟩ .nil
  have hmoderate : coins.ModerateAmps coinsSnapshot := by
    refine .of_valid (fun ramp hramp => ?_) rfl (by decide)
    cases hramp
    exact ⟨by decide, by decide, by decide, by decide⟩
  have hminted : (Pool.stable coins).simulateProvide coinsSnapshot
      [⟨.native "cent", 100, by decide⟩] = .ok ⟨⟨.cw20 "lp", 96, by decide⟩⟩ := rfl
  obtain ⟨t, ht⟩ : ∃ t, (coinsSnapshot.addPrecision (.native "cent") (.int 4)).setReserves
      coins.identity ⟨[⟨.native "cent", 150000, by decide⟩, ⟨.cw20 "token", 160000, by decide⟩],
        3000, by decide⟩ = .ok t := ⟨_, rfl⟩
  obtain ⟨hlists, hprices⟩ := units_immaterial (.registered hrefinable rfl hreserves ht)
  obtain ⟨hprovide, hburn⟩ := hlists _ _ hdeposit
  exact ⟨t, ht, hprovide.trans hminted, hburn (by decide) none, (hprices hmoderate _).1 rfl⟩

/-- Coins in a unit that is ten of the usual one, which no table accepts. -/
def coarseSnapshot : Snapshot := coinsSnapshot.addPrecision (.native "cent") (.int (-1))

def steepIdentity : Identity :=
  ⟨"steep", .cw20 "lp", [.native "base", .native "quote"], .stableSwap, none, by decide⟩

/-- A pool that counts amplifications in a negative number of parts. -/
def steep (k : Nat) : StablePool :=
  ⟨steepIdentity, { maxIterations := .int 0, ampPrecision := .int (32 - 32 * 10 ^ k) }, rfl⟩

def steepReserves (held : Uint128) : Reserves :=
  ⟨[⟨.native "base", held⟩, ⟨.native "quote", 1000000, by decide⟩], 3000000, by decide⟩

/-- Two of the first asset and one of the second, in whole units and in millionths. -/
def steepSnapshot (k : Nat) : Snapshot :=
  ((((Snapshot.empty (.int 0) {}).addPool steepIdentity (steepReserves ⟨2, by decide⟩)
      (some (.constant (54 * 10 ^ k - 27) 0))).addPrecision (.native "base")
    (.int 0)).addPrecision (.native "quote") (.int 6)).addPrecision (.cw20 "lp") (.int 6)

section Steep

variable {k : Nat}

/-- The amplification and its parts cancel below the fraction and not above it. -/
theorem slope_steep (k : Nat) :
    Stable.slope (54 * 10 ^ k - 27) (32 - 32 * 10 ^ k) 3000000 2000000 1000000 =
      (864 * 10 ^ 24 * 10 ^ k, 864 * 10 ^ 24) := by
  unfold Stable.slope
  ext <;> ring

theorem rounds_ten_pow (k : Nat) : Decimal.Rounds (10 ^ (k : Int)) (10 ^ (k : Int)) :=
  (Fits.ten_pow (show leastPlace ≤ k by unfold leastPlace; omega)).rounds

/-- The price in the finer units is a power of ten, and it is found. -/
theorem priceAt_steep (hk : (k : Int) < maxLeading) (s : Snapshot) (amounts : List Int)
    {c : Scale} {n : Int} (hscale : (steep k).scale s = .ok c)
    (hamp : (steep k).currentAmp s = .ok (54 * 10 ^ k - 27))
    (hup : c.up amounts = .ok [2000000, 1000000]) (hshift : unitShift c.members = .ok n) :
    ∃ r : Decimal, (steep k).priceAt s amounts = (Numeral.finite r).scaled n ∧
      r.toRat = 10 ^ (k : Int) := by
  have hvalue : ((864 * 10 ^ 24 * 10 ^ k : Int) : ℚ) / (864 * 10 ^ 24 : Int) =
      10 ^ (k : Int) := by
    push_cast
    rw [mul_div_cancel_left₀ _ (by norm_num), zpow_natCast]
  obtain ⟨r, hr, hround⟩ := Decimal.ratio_found (x := 864 * 10 ^ 24 * 10 ^ k)
    (y := 864 * 10 ^ 24) (by positivity) (by decide) (hvalue ▸ Decimal.ten_pow_lt_tooLarge hk)
  rw [hvalue] at hround
  refine ⟨r, ?_, hround.unique (rounds_ten_pow k) (Decimal.ten_pow_pos _).le⟩
  have hd : Stable.invariant ((steep k).shape (54 * 10 ^ k - 27)) [(2000000 : Int), 1000000] =
      .ok 3000000 := rfl
  rw [priceAt, hscale, ok_bind, hamp, ok_bind, hup, ok_bind,
    Stable.spotPrice_eq (by decide) (by decide) hd rfl rfl, slope_steep,
    Numeral.dividedBy_finite, hr, hshift]
  rfl

/-- In whole units the price is too large. -/
theorem spotPrice_steep (hk : (k : Int) < maxLeading) (hlarge : maxLeading < k + 6) :
    (Pool.stable (steep k)).spotPrice (steepSnapshot k) = .error .decimalTooLarge := by
  obtain ⟨r, hprice, hvalue⟩ :=
    priceAt_steep hk (n := 6) (steepSnapshot k) [2, 1000000] rfl rfl rfl rfl
  have hsum : maxLeading + 1 ≤ k + 6 := hlarge
  have htoo : tooLarge ≤ r.toRat * 10 ^ (6 : Int) := by
    rw [hvalue, ← Decimal.ten_pow_add]
    exact Decimal.tooLarge_lt.le.trans (Decimal.ten_pow_le hsum)
  rw [Decimal.scaled_tooLarge htoo] at hprice
  change (steep k).priceAt (steepSnapshot k) [2, 1000000] >>= Price.of _ _ = _
  rw [hprice]
  rfl

theorem refinable_steep (k : Nat) :
    (steep k).Refinable (.native "base") 0 6 (steepSnapshot k) :=
  .of_pair rfl rfl rfl (by decide) (show steepIdentity.lpToken ≠ _ by decide)
    (show steepIdentity.lpToken ≠ _ by decide) (by decide) (by decide)

/-- The same in millionths of both assets. -/
theorem recounted_steep (hk : (k : Int) < maxLeading) :
    ∃ t, (steep k).Recounted (.native "base") 0 6 (steepSnapshot k) t ∧
      ∃ price, (Pool.stable (steep k)).spotPrice t = .ok price := by
  have hreserves : Reserves.Recounted (.native "base") 6 (steepReserves ⟨2, by decide⟩)
      (steepReserves ⟨2000000, by decide⟩) :=
    ⟨.cons ⟨rfl, by decide⟩ (.cons ⟨rfl, by decide⟩ .nil), rfl⟩
  obtain ⟨t, ht⟩ : ∃ t, ((steepSnapshot k).addPrecision (.native "base") (.int 6)).setReserves
      (steep k).identity (steepReserves ⟨2000000, by decide⟩) = .ok t := ⟨_, rfl⟩
  refine ⟨t, .registered (refinable_steep k) rfl hreserves ht, ?_⟩
  obtain ⟨r, hprice, hvalue⟩ := priceAt_steep hk (n := 0) t [2000000, 1000000]
    (by cases ht; rfl) (by cases ht; rfl) rfl rfl
  have hunmoved : r.toRat * 10 ^ (0 : Int) = 10 ^ (k : Int) := by rw [hvalue, zpow_zero, mul_one]
  obtain ⟨r', hr', hround⟩ := Decimal.scaled_found (d := r) (n := 0)
    (hunmoved ▸ (Decimal.ten_pow_pos k).le) (hunmoved ▸ Decimal.ten_pow_lt_tooLarge hk)
  rw [hunmoved] at hround
  have hpositive : 0 < r'.toRat := by
    rw [← (rounds_ten_pow k).unique hround (Decimal.ten_pow_pos _).le]
    exact Decimal.ten_pow_pos _
  obtain ⟨price, hfound, -⟩ := Price.of_eq_ok (.native "base") (.native "quote") hpositive
  refine ⟨price, ?_⟩
  cases ht
  change (steep k).priceAt _ [2000000, 1000000] >>= Price.of _ _ = _
  rw [hprice, hr']
  exact hfound

end Steep

/-- A unit shows where the decimals are none that a table accepts, and where the price is beyond
the decimals in one unit and not in the other. -/
theorem units_material :
    (∃ t out, (coarseSnapshot.addPrecision (.native "cent") (.int 0)).setReserves coins.identity
        ⟨[⟨.native "cent", 15000, by decide⟩, ⟨.cw20 "token", 160000, by decide⟩],
          3000, by decide⟩ = .ok t ∧
      (Pool.stable coins).simulateProvide coarseSnapshot [⟨.native "cent", 1, by decide⟩] =
        .error (.precisionRange (.native "cent") (.int (-1))) ∧
      (Pool.stable coins).simulateProvide t [⟨.native "cent", 10, by decide⟩] = .ok out) ∧
    ∃ t price, (steep 999995).Recounted (.native "base") 0 6 (steepSnapshot 999995) t ∧
      (Pool.stable (steep 999995)).spotPrice (steepSnapshot 999995) = .error .decimalTooLarge ∧
      (Pool.stable (steep 999995)).spotPrice t = .ok price := by
  constructor
  · exact ⟨_, ⟨⟨.cw20 "lp", 1, by decide⟩⟩, rfl, rfl, rfl⟩
  · have hk : ((999995 : Nat) : Int) < maxLeading := by decide
    obtain ⟨t, hrecounted, price, hprice⟩ := recounted_steep hk
    exact ⟨t, price, hrecounted, spotPrice_steep hk (by decide), hprice⟩

end StablePool

end Liquidity
