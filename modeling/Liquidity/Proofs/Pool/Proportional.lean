import Liquidity.Proofs.Precision
import Liquidity.Proofs.Slippage
import Liquidity.Proofs.Pool.EmptyReserves
import Liquidity.Proofs.Pool.Transfers

/-! Deposits in the proportion of the reserves. They leave the price of a pair where it was, to the
last digit of its value, and so pass a check of the price at every tolerance. The price of a stable
pair with the same on both sides is a number divided by itself, which is one unless the number is
zero. -/

namespace Liquidity
set_option autoImplicit false

open Outcome
open Decimal (Numeral Fits Rounds tooLarge)

theorem Price.pair_of_eq_ok {base quote : AssetId} {value : Numeral} {price : Price}
    (h : Price.of base quote value = .ok price) : price.base = base ∧ price.quote = quote := by
  unfold Price.of at h
  split at h
  · split at h <;> cases h
    exact ⟨rfl, rfl⟩
  · cases h

theorem toRat_one_moved (n : Int) : (Decimal.one.moved n).toRat = 10 ^ n := by
  rw [Decimal.toRat_moved, Decimal.toRat_one, one_mul]

theorem double_lt_tooLarge {q : ℚ} (h : q ≤ 10 ^ (39 : Int)) : q * 2 < tooLarge := by
  calc q * 2 ≤ 10 ^ (39 : Int) * 2 := by linarith
    _ < 10 ^ (40 : Int) := by norm_num
    _ < tooLarge := Decimal.ten_pow_lt_tooLarge (by decide)

namespace Pool

variable {p : Pool} {s : Snapshot} {as : Assets} {out : Mint} {minShares : Figure}
variable {m n k l : Int} {old new : Price}

/-- A deposit of `k` and `l` into a pair that holds `m` and `n`. -/
structure PairDeposit (p : Pool) (s : Snapshot) (as : Assets) (m n k l : Int) : Prop where
  distinct : p.members.Nodup
  held : ∃ r, s.reservesOf p.identity = .ok r ∧ r.amountsFor p.members = [m, n] ∧ r.supply.val ≠ 0
  offered : p.members.map (fun id => (Assets.total as id : Int)) = [k, l]
  reserves : 0 < m ∧ 0 < n
  amounts : 0 < k ∧ 0 < l
  fit : k < Width.uint128.limit ∧ l < Width.uint128.limit

theorem PairDeposit.pair (h : p.PairDeposit s as m n k l) :
    ∃ base quote, p.members = [base, quote] := by
  have hlength := congrArg List.length h.offered
  rw [List.length_map] at hlength
  exact List.length_eq_two.mp hlength

theorem PairDeposit.total_lt (h : p.PairDeposit s as m n k l) (hall : ∀ a ∈ as, a.id ∈ p.members)
    (id : AssetId) : Assets.total as id < Uint128.limit := by
  have hlimit : Width.uint128.limit = Uint128.limit := rfl
  by_cases hid : id ∈ p.members
  · have hmem : (Assets.total as id : Int) ∈ [k, l] := by
      rw [← h.offered]
      exact List.mem_map_of_mem hid
    have hfit := h.fit
    simp only [List.mem_cons, List.not_mem_nil, or_false] at hmem
    omega
  · rw [Identity.total_foreign hall hid]
    decide

/-- A deposit that simulates and mints enough is accepted where the prices around it are. -/
theorem PairDeposit.provide_eq (h : p.PairDeposit s as m n k l)
    (hsim : p.simulateProvide s as = .ok out) (hmin : out.check minShares = .ok ())
    (control : SlippageControl) (hcontrol : ∀ g, control ≠ .minOut g) :
    ∃ calls, p.provide s as minShares (some control) =
      p.spotPriceAt s [m, n] >>= fun old => p.spotPriceAt s [m + k, n + l] >>= fun new =>
        control.check (some old) (some new) (.int out.shares.units) >>= fun _ => .ok calls := by
  have hall := members_of_simulateProvide hsim
  obtain ⟨deposit, hd⟩ : ∃ deposit, p.identity.inPoolOrder .foreignInput as = .ok deposit :=
    Identity.exists_inPoolOrder.mpr ⟨hall, h.total_lt hall⟩
  have hunits : deposit.map Asset.units = [k, l] :=
    (Identity.units_inPoolOrder h.distinct hd).trans h.offered
  obtain ⟨r, hr, hheld, -⟩ := h.held
  have hafter : List.zipWith (fun r (a : Asset) => r + a.units) [m, n] deposit = [m + k, n + l] := by
    rw [← List.zipWith_map_right, hunits]
    rfl
  have hfull : [m, n].all (0 < ·) = true := by simp [h.reserves]
  have hprices : p.pricesAround s deposit =
      p.spotPriceAt s [m, n] >>= fun old => p.spotPriceAt s [m + k, n + l] >>= fun new =>
        .ok (some old, some new) := by
    unfold pricesAround
    rw [hr, ok_bind, hheld]
    dsimp only
    rw [if_pos hfull, hafter]
    cases p.spotPriceAt s [m, n] <;> rfl
  have hcheck : p.checkSlippage s deposit out.shares.units (some control) =
      p.pricesAround s deposit >>= fun x => control.check x.1 x.2 (.int out.shares.units) := by
    cases control with
    | minOut g => exact absurd rfl (hcontrol g)
    | beliefPrice g => rfl
    | maxPriceImpact g => rfl
  unfold provide
  rw [hsim, ok_bind, hmin, ok_bind, hd, ok_bind, hcheck, hprices]
  simp only [bind_assoc, ok_bind]
  exact ⟨_, rfl⟩

theorem PairDeposit.accepted (h : p.PairDeposit s as m n k l)
    (hsim : p.simulateProvide s as = .ok out) (hmin : out.check minShares = .ok ())
    (hold : p.spotPriceAt s [m, n] = .ok old) (hnew : p.spotPriceAt s [m + k, n + l] = .ok new)
    {control : SlippageControl} (hcontrol : ∀ g, control ≠ .minOut g)
    (hcheck : control.check (some old) (some new) (.int out.shares.units) = .ok ()) :
    ∃ calls, p.provide s as minShares (some control) = .ok calls := by
  obtain ⟨calls, hcalls⟩ := h.provide_eq hsim hmin control hcontrol
  refine ⟨calls, ?_⟩
  rw [hcalls, hold, ok_bind, hnew, ok_bind, hcheck, ok_bind]

/-- A pool quotes one way, whatever it holds. -/
theorem quotes_same {held held' : List Int} (hold : p.spotPriceAt s held = .ok old)
    (hnew : p.spotPriceAt s held' = .ok new) : new.base = old.base ∧ new.quote = old.quote := by
  obtain ⟨⟨base, quote⟩, hpair, h⟩ := bind_eq_ok.mp hold
  obtain ⟨pair, hpair', h'⟩ := bind_eq_ok.mp hnew
  obtain rfl : pair = (base, quote) := Except.ok.inj (hpair'.symm.trans hpair)
  obtain ⟨_, -, h⟩ := bind_eq_ok.mp h
  obtain ⟨_, -, h'⟩ := bind_eq_ok.mp h'
  obtain ⟨hb, hq⟩ := Price.pair_of_eq_ok h
  obtain ⟨hb', hq'⟩ := Price.pair_of_eq_ok h'
  exact ⟨hb'.trans hb.symm, hq'.trans hq.symm⟩

/-- What a deposit that does not move the price is accepted with. -/
def Undisturbed (p : Pool) (s : Snapshot) (as : Assets) (minShares : Figure) : Prop :=
  ∃ price, p.spotPrice s = .ok price ∧ ∀ t : Ratio,
    (∃ calls, p.provide s as minShares (some (.maxPriceImpact ⟨t⟩)) = .ok calls) ∧
      ∃ calls, p.provide s as minShares (some (.beliefPrice ⟨price, t⟩)) = .ok calls

theorem PairDeposit.undisturbed (h : p.PairDeposit s as m n k l)
    (hsim : p.simulateProvide s as = .ok out) (hmin : out.check minShares = .ok ())
    (hold : p.spotPriceAt s [m, n] = .ok old) (hnew : p.spotPriceAt s [m + k, n + l] = .ok new)
    (hvalue : new.value.toRat = old.value.toRat) (hfits : Fits old.value.toRat)
    (hroom : old.value.toRat * 2 < tooLarge) : p.Undisturbed s as minShares := by
  obtain ⟨hbase, hquote⟩ := quotes_same hold hnew
  have hroomy := roomy_of_double hfits.nonneg hroom
  obtain ⟨r, hr, hheld, -⟩ := h.held
  refine ⟨old, (Asked.read hr hheld).eq.trans hold, fun t => ⟨?_, ?_⟩⟩
  · have hcheck : MaxPriceImpact.check ⟨t⟩ (some old) (some new) = .ok () :=
      Compared.impact.accepted_of_same hfits (hroomy t) hvalue
    exact h.accepted hsim hmin hold hnew (by simp) hcheck
  · have hcheck : BeliefPrice.check ⟨old, t⟩ (some old) (some new) = .ok () :=
      (Compared.belief (some old) hbase hquote).accepted_of_same hfits (hroomy t) hvalue
    exact h.accepted hsim hmin hold hnew (by simp) hcheck

/-- A price that is missing before the deposit or after it fails the deposit in the same way. -/
theorem PairDeposit.disturbed (h : p.PairDeposit s as m n k l)
    (hsim : p.simulateProvide s as = .ok out) (hmin : out.check minShares = .ok ()) {e : Fault}
    (hprices : (p.spotPriceAt s [m, n] >>= fun _ => p.spotPriceAt s [m + k, n + l]) = .error e)
    (t : Ratio) : p.provide s as minShares (some (.maxPriceImpact ⟨t⟩)) = .error e := by
  obtain ⟨calls, hcalls⟩ := h.provide_eq hsim hmin (.maxPriceImpact ⟨t⟩) (by simp)
  rw [hcalls]
  cases hold : p.spotPriceAt s [m, n] with
  | error fault =>
    rw [hold, error_bind] at hprices
    cases hprices
    rfl
  | ok old =>
    rw [hold, ok_bind] at hprices
    rw [ok_bind, hprices, error_bind]

section ConstantProduct

variable {q : ℚ}

/-- The quotient of the reserves, rounded. -/
theorem pair_price (base quote : AssetId) (hm : 0 < m) (hn : 0 < n) (hq : (n : ℚ) / m = q)
    (hlow : 10 ^ (-39 : Int) ≤ q) (hup : q ≤ 10 ^ (39 : Int)) :
    ∃ price, ConstantProduct.spotPrice [m, n] >>= Price.of base quote = .ok price ∧
      Rounds q price.value.toRat := by
  obtain ⟨hleast, hsmall⟩ := quotable_of_range hlow hup
  have hpos : 0 < q := (Decimal.ten_pow_pos _).trans_le hlow
  obtain ⟨r, hr, hround⟩ := Decimal.ratio_found hn.le hm (hq.symm ▸ hsmall)
  rw [hq] at hround
  obtain ⟨price, hprice, rfl⟩ := Price.of_eq_ok base quote ((hround.pos_iff hpos).mpr hleast)
  refine ⟨price, ?_, hround⟩
  rw [ConstantProduct.spotPrice_eq hm.ne', hr]
  exact hprice

theorem ratio_kept (hm : 0 < m) (hk : 0 < k) (hprop : k * n = l * m) :
    ((n + l : Int) : ℚ) / (m + k : Int) = n / m := by
  have hm' : (m : ℚ) ≠ 0 := by exact_mod_cast hm.ne'
  have hmk : ((m + k : Int) : ℚ) ≠ 0 := by exact_mod_cast (Int.add_pos hm hk).ne'
  have hcross : (n + l) * m = n * (m + k) := by linarith
  rw [div_eq_div_iff hmk hm']
  exact_mod_cast hcross

theorem pair_undisturbed {p : ConstantProductPool}
    (h : (constantProduct p).PairDeposit s as m n k l)
    (hsim : (constantProduct p).simulateProvide s as = .ok out)
    (hmin : out.check minShares = .ok ()) (hprop : k * n = l * m) :
    (constantProduct p).Undisturbed s as minShares := by
  obtain ⟨base, quote, hmembers⟩ := h.pair
  obtain ⟨r, -, hheld, -⟩ := h.held
  obtain ⟨hm, hn⟩ := h.reserves
  obtain ⟨hk, hl⟩ := h.amounts
  obtain ⟨hmw, hnw⟩ := words_of_read hheld
  obtain ⟨hlow, hup⟩ := ratio_range hm hn hmw hnw
  have hq0 : (0 : ℚ) ≤ n / m := (Decimal.ten_pow_pos _).le.trans hlow
  obtain ⟨old, hold, hround⟩ := pair_price base quote hm hn rfl hlow hup
  obtain ⟨new, hnew, hround'⟩ := pair_price base quote (Int.add_pos hm hk)
    (Int.add_pos hn hl) (ratio_kept hm hk hprop) hlow hup
  have htop : Fits ((10 : ℚ) ^ (39 : Int)) := ⟨1, 39, by decide, by decide, by simp⟩
  have hle := hround.mono_of_nonneg htop.rounds hq0 hup
  refine h.undisturbed hsim hmin ((spotPriceAt_eq hmembers _).trans hold)
    ((spotPriceAt_eq hmembers _).trans hnew) (hround'.unique hround hq0) (hround.fits hq0)
    (double_lt_tooLarge hle)

end ConstantProduct

section Stable

variable {q : StablePool} {c : StablePool.Scale} {i j amp part d x y : Int}

theorem up_pair_iff {a b : Int} (hscale : q.scale s = .ok c) (hc : c.members = [.int i, .int j]) :
    c.up [m, n] = .ok [a, b] ↔ (a = m * unitsPer (max i j) i ∧ b = n * unitsPer (max i j) j) ∧
      InWords [a, b] := by
  obtain ⟨hg, ⟨hi, -⟩, ⟨hj, -⟩⟩ := StablePool.scale_range hscale hc
  have hup : c.up [m, n] = normalize [m, n] [i, j] (max i j) := by
    rw [StablePool.Scale.up, hc, hg]
    rfl
  have hdecimals : UpTo (max i j) [i, j] := by simp [UpTo, hi, hj]
  have hlength : [m, n].length = [i, j].length := rfl
  rw [hup, normalize_eq_ok hlength hdecimals]
  simp [raisedTo]

/-- Both sides of a pool and of a deposit are brought to common decimals alike. -/
theorem up_add (hscale : q.scale s = .ok c) (hc : c.members = [.int i, .int j])
    (hheld : c.up [m, n] = .ok [x, x]) (hoffered : c.up [k, l] = .ok [y, y])
    (hfits : 0 ≤ x + y ∧ x + y < Width.uint128.limit) :
    c.up [m + k, n + l] = .ok [x + y, x + y] := by
  obtain ⟨⟨hxm, hxn⟩, -⟩ := (up_pair_iff hscale hc).mp hheld
  obtain ⟨⟨hyk, hyl⟩, -⟩ := (up_pair_iff hscale hc).mp hoffered
  rw [up_pair_iff hscale hc, Int.add_mul, Int.add_mul, ← hxm, ← hxn, ← hyk, ← hyl]
  exact ⟨⟨rfl, rfl⟩, by simpa [InWords] using hfits⟩

/-- Between equal balances the price is one unit, in the units of the assets. -/
theorem even_price (hscale : q.scale s = .ok c) (hc : c.members = [.int i, .int j])
    (hamp : q.currentAmp s = .ok amp) (hpart : q.config.ampPrecision = .int part)
    (hup : c.up [m, n] = .ok [x, x]) (hx : x ≠ 0)
    (hd : Stable.invariant (q.shape amp) [x, x] = .ok d) : q.priceAt s [m, n] =
      if (Stable.slope amp part d x x).1 = 0 then .error .undefinedQuotient
      else .ok (.finite (Decimal.one.moved (j - i))) := by
  have hshift : unitShift c.members = .ok (j - i) := by
    rw [hc]
    rfl
  have hself : (Stable.slope amp part d x x).2 = (Stable.slope amp part d x x).1 := rfl
  obtain ⟨-, hi, hj⟩ := StablePool.scale_range hscale hc
  unfold PrecisionTable.InRange PrecisionTable.maxPrecision at hi hj
  rw [StablePool.priceAt, hscale, ok_bind, hamp, ok_bind, hup, ok_bind, hshift,
    Stable.spotPrice_eq hx hx hd rfl hpart, hself, Numeral.dividedBy_finite]
  split
  · rename_i hzero
    rw [hzero]
    rfl
  · rename_i hne
    have hclear : Decimal.one.Clear 99 := ⟨by decide, by decide, by decide⟩
    rw [Decimal.dividedBy_self hne]
    exact Decimal.scaled_clear hclear (by omega)

theorem even_spotPriceAt {base quote : AssetId} (hmembers : (stable q).members = [base, quote])
    (hscale : q.scale s = .ok c) (hc : c.members = [.int i, .int j])
    (hamp : q.currentAmp s = .ok amp) (hpart : q.config.ampPrecision = .int part)
    (hup : c.up [m, n] = .ok [x, x]) (hx : x ≠ 0)
    (hd : Stable.invariant (q.shape amp) [x, x] = .ok d) : (stable q).spotPriceAt s [m, n] =
      if (Stable.slope amp part d x x).1 = 0 then .error .undefinedQuotient
      else Price.of base quote (.finite (Decimal.one.moved (j - i))) := by
  have hat : (stable q).priceAt s [m, n] = _ := even_price hscale hc hamp hpart hup hx hd
  rw [spotPriceAt_eq hmembers, hat]
  split <;> rfl

/-- One unit, in units of any decimals, is a price that doubles. -/
theorem unit_found (base quote : AssetId) {n : Int} (hn : n.natAbs ≤ 39) :
    ∃ price, Price.of base quote (.finite (Decimal.one.moved n)) = .ok price ∧
      Fits price.value.toRat ∧ price.value.toRat * 2 < tooLarge := by
  have hvalue := toRat_one_moved n
  have hpositive : 0 < (Decimal.one.moved n).toRat := hvalue ▸ Decimal.ten_pow_pos n
  obtain ⟨price, hprice, hmoved⟩ := Price.of_eq_ok base quote hpositive
  rw [← hmoved] at hvalue
  have hleast : Decimal.leastPlace = -1000026 := rfl
  refine ⟨price, hprice, ?_⟩
  rw [hvalue]
  exact ⟨.ten_pow (by omega), double_lt_tooLarge (Decimal.ten_pow_le (by omega))⟩

/-- A later deposit into a stable pool is minted as its curve has it. -/
theorem mint_of_simulated (h : (stable q).PairDeposit s as m n k l)
    (hsim : (stable q).simulateProvide s as = .ok out) (hscale : q.scale s = .ok c)
    {held offered : List Int} (hheld : c.up [m, n] = .ok held)
    (hoffered : c.up [k, l] = .ok offered) :
    ∃ amp supply share, q.currentAmp s = .ok amp ∧
      Stable.mint (q.shape amp) held offered supply q.config.stableFee = .ok share := by
  have hall := members_of_simulateProvide hsim
  obtain ⟨r, hr, hamounts, hsupply⟩ := h.held
  have hordered : q.identity.ordered .foreignInput as =
      .ok (q.identity.members.map (Assets.total as)) :=
    Identity.ordered_eq_ok.mpr ⟨hall, (Identity.firsts_of_nodup h.distinct).symm⟩
  have htotals : (q.identity.members.map (Assets.total as)).map Int.ofNat = [k, l] := by
    rw [List.map_map]
    exact h.offered
  obtain ⟨share, hmint, -⟩ := bind_eq_ok.mp hsim
  change q.mint s as = .ok share at hmint
  change r.amountsFor q.identity.members = [m, n] at hamounts
  unfold StablePool.mint at hmint
  rw [hordered, ok_bind] at hmint
  simp only [throw_eq, error_bind, refused_eq_ok] at hmint
  obtain ⟨-, hmint⟩ := hmint
  have hr' : s.reservesOf q.identity = .ok r := hr
  rw [hr', ok_bind, hscale, ok_bind, htotals, hoffered, ok_bind, if_neg hsupply] at hmint
  obtain ⟨amp, hamp, hmint⟩ := bind_eq_ok.mp hmint
  rw [hamounts, hheld, ok_bind] at hmint
  exact ⟨amp, _, share, hamp, hmint⟩

/-- A deposit of the same on both sides of a stable pool of two with the same on both sides: `x`
and `y` at the common decimals. -/
structure EvenDeposit (q : StablePool) (s : Snapshot) (m n k l part x y : Int) : Prop where
  scale : ∃ c i j, q.scale s = .ok c ∧ c.members = [.int i, .int j] ∧
    c.up [m, n] = .ok [x, x] ∧ c.up [k, l] = .ok [y, y]
  stated : q.config.ampPrecision = .int part

theorem EvenDeposit.positive (he : EvenDeposit q s m n k l part x y)
    (h : (stable q).PairDeposit s as m n k l) : 0 < x ∧ 0 < y := by
  obtain ⟨c, i, j, hscale, hc, hheld, hoffered⟩ := he.scale
  obtain ⟨⟨hxm, -⟩, -⟩ := (up_pair_iff hscale hc).mp hheld
  obtain ⟨⟨hyk, -⟩, -⟩ := (up_pair_iff hscale hc).mp hoffered
  have hunit := unitsPer_pos (max i j) i
  exact ⟨hxm ▸ Int.mul_pos h.reserves.1 hunit, hyk ▸ Int.mul_pos h.amounts.1 hunit⟩

/-- The price of an even pool before a deposit and after it. -/
theorem EvenDeposit.prices (he : EvenDeposit q s m n k l part x y)
    (h : (stable q).PairDeposit s as m n k l)
    (hsim : (stable q).simulateProvide s as = .ok out) :
    ∃ amp d d' price, q.currentAmp s = .ok amp ∧
      Stable.invariant (q.shape amp) [x, x] = .ok d ∧
      Stable.invariant (q.shape amp) [x + y, x + y] = .ok d' ∧ 0 < d ∧ 0 < d' ∧
      Fits price.value.toRat ∧ price.value.toRat * 2 < tooLarge ∧
      (stable q).spotPriceAt s [m, n] =
        (if (Stable.slope amp part d x x).1 = 0 then .error .undefinedQuotient else .ok price) ∧
      (stable q).spotPriceAt s [m + k, n + l] =
        if (Stable.slope amp part d' (x + y) (x + y)).1 = 0 then .error .undefinedQuotient
        else .ok price := by
  obtain ⟨hx, hy⟩ := he.positive h
  obtain ⟨c, i, j, hscale, hc, hheld, hoffered⟩ := he.scale
  obtain ⟨amp, supply, share, hamp, hmint⟩ := mint_of_simulated h hsim hscale hheld hoffered
  obtain ⟨d, d', hd, hsums, hd', hd0, hgrows⟩ := Stable.invariants_of_mint hmint
  have hsum : 0 ≤ x + y ∧ x + y < Width.uint128.limit := hsums (x + y) (by simp)
  obtain ⟨base, quote, hmembers⟩ := h.pair
  obtain ⟨-, hi, hj⟩ := StablePool.scale_range hscale hc
  unfold PrecisionTable.InRange PrecisionTable.maxPrecision at hi hj
  obtain ⟨price, hprice, hfits, hroom⟩ :=
    unit_found base quote (show (j - i).natAbs ≤ 39 by omega)
  refine ⟨amp, d, d', price, hamp, hd, hd', hd0, by omega, hfits, hroom, ?_, ?_⟩
  · rw [← hprice]
    exact even_spotPriceAt hmembers hscale hc hamp he.stated hheld hx.ne' hd
  · rw [← hprice]
    exact even_spotPriceAt hmembers hscale hc hamp he.stated
      (up_add hscale hc hheld hoffered hsum) (Int.add_pos hx hy).ne' hd'

theorem slope_ne_zero {amp part d x : Int} (hamp : 0 ≤ amp) (hpart : 1 ≤ part) (hd : 0 < d)
    (hx : 0 < x) : (Stable.slope amp part d x x).1 ≠ 0 := by
  have hsloped : Stable.Sloped amp part d x x := ⟨hamp, by omega, hd.le, .inr hd, hx, hx⟩
  exact hsloped.pos.1.ne'

end Stable

/-- A deposit in the proportion of the reserves passes every check of the price: into a pool of
constant product always, and into a stable pool of two, if both sides of the pool and of the
deposit come to the same, exactly where the slope between the balances is not nothing by nothing,
before the deposit and after it. It is not where amplifications count in one part or more. -/
theorem proportional_deposit_undisturbed (p : Pool) (s : Snapshot) (as : Assets) (out : Mint)
    (minShares : Figure) (m n k l : Int) (h : p.PairDeposit s as m n k l)
    (hsim : p.simulateProvide s as = .ok out) (hmin : out.check minShares = .ok ()) :
    (∀ q : ConstantProductPool, p = constantProduct q → k * n = l * m →
      p.Undisturbed s as minShares) ∧
    ∀ (q : StablePool) (part x y : Int), p = stable q → EvenDeposit q s m n k l part x y →
      ∃ amp d d', q.currentAmp s = .ok amp ∧ Stable.invariant (q.shape amp) [x, x] = .ok d ∧
        Stable.invariant (q.shape amp) [x + y, x + y] = .ok d' ∧
        (p.Undisturbed s as minShares ↔ (Stable.slope amp part d x x).1 ≠ 0 ∧
          (Stable.slope amp part d' (x + y) (x + y)).1 ≠ 0) ∧
        ((Stable.slope amp part d x x).1 = 0 ∨ (Stable.slope amp part d' (x + y) (x + y)).1 = 0 →
          ∀ t : Ratio, p.provide s as minShares (some (.maxPriceImpact ⟨t⟩)) =
            .error .undefinedQuotient) ∧
        ((∀ ramp, s.rampOf q.identity = .ok ramp → ramp.Valid) → 1 ≤ part →
          p.Undisturbed s as minShares) := by
  constructor
  · rintro q rfl hprop
    exact pair_undisturbed h hsim hmin hprop
  · rintro q part x y rfl he
    obtain ⟨amp, d, d', price, hamp, hd, hd', hd0, hd0', hfits, hroom, hold, hnew⟩ :=
      he.prices h hsim
    have hdisturbed : (Stable.slope amp part d x x).1 = 0 ∨
        (Stable.slope amp part d' (x + y) (x + y)).1 = 0 → ∀ t : Ratio,
        (stable q).provide s as minShares (some (.maxPriceImpact ⟨t⟩)) =
          .error .undefinedQuotient := by
      intro hzero
      apply h.disturbed hsim hmin
      rw [hold, hnew]
      by_cases hbefore : (Stable.slope amp part d x x).1 = 0
      · rw [if_pos hbefore, error_bind]
      · rw [if_neg hbefore, ok_bind, if_pos (hzero.resolve_left hbefore)]
    have hundisturbed : (Stable.slope amp part d x x).1 ≠ 0 →
        (Stable.slope amp part d' (x + y) (x + y)).1 ≠ 0 →
        (stable q).Undisturbed s as minShares := by
      intro hbefore hafter
      rw [if_neg hbefore] at hold
      rw [if_neg hafter] at hnew
      exact h.undisturbed hsim hmin hold hnew rfl hfits hroom
    refine ⟨amp, d, d', hamp, hd, hd', ⟨?_, fun hne => hundisturbed hne.1 hne.2⟩, hdisturbed, ?_⟩
    · rintro ⟨_, -, haccepted⟩
      obtain ⟨calls, hcalls⟩ := (haccepted MaxPriceImpact.usual).1
      by_contra hzero
      rw [hdisturbed (by tauto)] at hcalls
      cases hcalls
    · intro hvalid hpart
      obtain ⟨hx, hy⟩ := he.positive h
      obtain ⟨ramp, hramp, hat⟩ := bind_eq_ok.mp hamp
      have hamp0 := Ramp.ampAt_nonneg (hvalid ramp hramp) hat
      exact hundisturbed (slope_ne_zero hamp0 hpart hd0 hx)
        (slope_ne_zero hamp0 hpart hd0' (Int.add_pos hx hy))

/-- The pool of cents and tokens with as much of both, at four decimals. -/
def evenSnapshot : Snapshot :=
  StablePool.coinsSnapshot.addPool StablePool.coins.identity
    ⟨[⟨.native "cent", 1700, by decide⟩, ⟨.cw20 "token", 170000, by decide⟩], 3400, by decide⟩
    (some StablePool.coinsRamp)

/-- A hundredth of a pair, and a tenth of an even pool. -/
theorem proportional_deposit_undisturbed_both :
    mixed.Undisturbed mixedSnapshot
      [⟨.native "uusd", 10, by decide⟩, ⟨.cw20 "token", 40, by decide⟩] (.int 20) ∧
    (stable .coins).Undisturbed evenSnapshot
      [⟨.cw20 "token", 17000, by decide⟩, ⟨.native "cent", 170, by decide⟩] (.int 0) := by
  constructor
  · have hsim : mixed.simulateProvide mixedSnapshot
        [⟨.native "uusd", 10, by decide⟩, ⟨.cw20 "token", 40, by decide⟩] =
        .ok ⟨⟨.cw20 "lp", 20, by decide⟩⟩ := rfl
    obtain ⟨hpair, -⟩ := proportional_deposit_undisturbed mixed mixedSnapshot _ _ (.int 20)
      1000 4000 10 40 ⟨by decide, ⟨mixedReserves, rfl, rfl, by decide⟩, rfl, by decide, by decide,
        by decide⟩ hsim rfl
    exact hpair _ rfl (by decide)
  · have hsim : (stable .coins).simulateProvide evenSnapshot
        [⟨.cw20 "token", 17000, by decide⟩, ⟨.native "cent", 170, by decide⟩] =
        .ok ⟨⟨.cw20 "lp", 340, by decide⟩⟩ := by decide +kernel
    obtain ⟨-, hstable⟩ := proportional_deposit_undisturbed (stable .coins) evenSnapshot _ _
      (.int 0) 1700 170000 170 17000 ⟨by decide, ⟨_, rfl, rfl, by decide⟩, rfl, by decide,
        by decide, by decide⟩ hsim rfl
    obtain ⟨amp, d, d', -, -, -, -, -, hkept⟩ := hstable .coins 100 170000 17000 rfl
      ⟨⟨_, 2, 4, rfl, rfl, rfl, rfl⟩, rfl⟩
    refine hkept (fun ramp hramp => ?_) (by decide)
    cases hramp
    exact ⟨by decide, by decide, by decide, by decide⟩

/-- A pool that takes no step towards its invariant and counts amplifications in parts below
nothing, so that the two terms of the slope cancel. -/
def hollow : StablePool :=
  ⟨⟨"hollow", .cw20 "lp", [.native "one", .native "other"], .stableSwap, none, by decide⟩,
    { maxIterations := .int 0, ampPrecision := .int (-100) }, rfl⟩

def hollowSnapshot : Snapshot :=
  ((((Snapshot.empty (.int 0) {}).addPool hollow.identity
      ⟨[⟨.native "one", 7000, by decide⟩, ⟨.native "other", 7000, by decide⟩], 5600, by decide⟩
      (some (.constant 100 0))).addPrecision (.native "one") (.int 6)).addPrecision
    (.native "other") (.int 6)).addPrecision (.cw20 "lp") (.int 6)

def hollowDeposit : Assets :=
  [⟨.native "one", 700, by decide⟩, ⟨.native "other", 700, by decide⟩]

/-- A tenth of it mints a tenth of its shares, but with a limit to the impact on the price nothing
is divided by nothing. -/
theorem even_deposit_disturbed :
    (stable hollow).PairDeposit hollowSnapshot hollowDeposit 7000 7000 700 700 ∧
    EvenDeposit hollow hollowSnapshot 7000 7000 700 700 (-100) 7000 700 ∧
    (stable hollow).simulateProvide hollowSnapshot hollowDeposit =
      .ok ⟨⟨.cw20 "lp", 560, by decide⟩⟩ ∧
    (stable hollow).provide hollowSnapshot hollowDeposit (.int 0)
      (some (.maxPriceImpact ⟨MaxPriceImpact.usual⟩)) = .error .undefinedQuotient := by
  have hpair : (stable hollow).PairDeposit hollowSnapshot hollowDeposit 7000 7000 700 700 :=
    ⟨by decide, ⟨_, rfl, rfl, by decide⟩, rfl, by decide, by decide, by decide⟩
  have hsim : (stable hollow).simulateProvide hollowSnapshot hollowDeposit =
      .ok ⟨⟨.cw20 "lp", 560, by decide⟩⟩ := by decide +kernel
  have hprice : (stable hollow).spotPriceAt hollowSnapshot [(7000 : Int), 7000] =
      .error .undefinedQuotient := by decide +kernel
  obtain ⟨calls, hcalls⟩ := hpair.provide_eq hsim (Mint.check_eq_ok.mpr (show 0 ≤ _ by decide))
    (.maxPriceImpact ⟨MaxPriceImpact.usual⟩) (by simp)
  exact ⟨hpair, ⟨⟨_, 6, 6, rfl, rfl, rfl, rfl⟩, rfl⟩, hsim, by rw [hcalls, hprice, error_bind]⟩

end Pool

end Liquidity
