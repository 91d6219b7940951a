import Liquidity.Stable.Shares
import Liquidity.Proofs.Stable.Fee

/-! The course of a deposit that mints and of a withdrawal that burns: the invariant before,
after, and after the fee, and the supply's part of the change. -/

namespace Liquidity.Stable
set_option autoImplicit false

open Outcome

variable {s : Shape} {balances deposits withdrawals grown left old new charged : List Int}
variable {supply fee share d d0 d1 d2 : Int} {provided : Option Int}

theorem checkCounts_eq_ok : checkCounts balances deposits = .ok () ↔
    2 ≤ balances.length ∧ balances.length = deposits.length := by
  unfold checkCounts
  simp only [refused_eq_ok, not_lt, ne_eq, not_not, and_true]

theorem invariant_bounds {ν : Type} [Operand ν] {s : Shape ν} (h : invariant s balances = .ok d) :
    0 ≤ d ∧ d < Width.uint128.limit := by
  unfold invariant at h
  simp only [throw_eq, error_bind, refused_eq_ok, pure_eq] at h
  obtain ⟨_, h⟩ := h
  split at h
  · cases h
    decide
  · simp only [bind_eq_ok, Width.check_eq_ok] at h
    obtain ⟨_, _, _, _, _, _, _, _, h0, hw, rfl⟩ := h
    exact ⟨h0, hw⟩

/-- A pool without worth mints and burns nothing. -/
theorem invariant_pos {n a b : Int} (h : invariant s balances = .ok d)
    (hr : Checked.mulDiv a b d = .ok n) : 0 < d := by
  have h0 := (invariant_bounds h).1
  have hne := Ratio.divisor_ne_zero hr
  omega

/-- Without a fee the invariant is counted twice over the same balances. -/
theorem net_free {a b : Int} (hl : old.length = new.length) (h1 : invariant s new = .ok d1)
    (hc : chargeImbalance a b old new (0 : Int) = .ok charged)
    (h2 : invariant s charged = .ok d2) : d2 = d1 := by
  rw [charged_zero hl hc, h1] at h2
  exact (Except.ok.inj h2).symm

theorem length_zipWith_eq {f : Int → Int → Int} (h : balances.length = deposits.length) :
    balances.length = (List.zipWith f balances deposits).length := by
  rw [List.length_zipWith, ← h, Nat.min_self]

theorem grow_eq_ok {b c : Int} : grow b d = .ok c ↔
    c = b + d ∧ 0 ≤ c ∧ c < Width.uint128.limit := by
  unfold grow
  simp only [Operand.strict_int, ok_bind, Checked.add_int, Width.check_eq_ok]
  constructor
  · rintro ⟨h0, hw, rfl⟩
    exact ⟨rfl, h0, hw⟩
  · rintro ⟨rfl, h0, hw⟩
    exact ⟨h0, hw, rfl⟩

theorem grow_mapM_eq_ok : (balances.zip deposits).mapM (fun p => grow p.1 p.2) = .ok grown ↔
    grown = List.zipWith (· + ·) balances deposits ∧
      ∀ b ∈ grown, 0 ≤ b ∧ b < Width.uint128.limit :=
  mapM_zip_eq_ok (k := grow) (f := (· + ·)) fun _ _ _ => grow_eq_ok

/-- A deposit that mints `share`: the invariant of the balances is `d0`, with the deposit `d1`
and with the fee taken of that `d2`. -/
structure Minting (s : Shape) (balances deposits : List Int) (supply fee share : Int)
    (d0 d1 d2 : Int) (charged : List Int) : Prop where
  count : 2 ≤ balances.length
  length_eq : balances.length = deposits.length
  supply_ne : supply ≠ 0
  offered : ∃ d ∈ deposits, d ≠ 0
  seeded : ∀ p ∈ balances.zip deposits, p.2 = 0 → p.1 ≠ 0
  before : invariant s balances = .ok d0
  fits : ∀ b ∈ List.zipWith (· + ·) balances deposits, 0 ≤ b ∧ b < Width.uint128.limit
  after : invariant s (List.zipWith (· + ·) balances deposits) = .ok d1
  grows : d0 < d1
  charge : chargeImbalance d0 d1 balances (List.zipWith (· + ·) balances deposits) fee = .ok charged
  net : invariant s charged = .ok d2
  netGrows : d0 < d2
  ratio : Checked.mulDiv supply (d2 - d0) d0 = .ok share
  share_pos : 0 < share
  share_lt : share < Width.uint128.limit

theorem mint_eq_ok : mint s balances deposits supply fee = .ok share ↔
    ∃ d0 d1 d2 charged, Minting s balances deposits supply fee share d0 d1 d2 charged := by
  unfold mint
  rw [bind_eq_ok]
  simp only [throw_eq, error_bind, refused_eq_ok, bind_eq_ok, grow_mapM_eq_ok,
    Operand.mapM_strict_int, Operand.strict_int, Operand.isZero_int, Checked.sub_eq_ok,
    Width.check_eq_ok, Except.ok.injEq, exists_eq_left', beq_iff_eq, List.all_eq_true,
    List.any_eq_true, Bool.and_eq_true, not_le]
  constructor
  · rintro ⟨_, hc, hs, ho, hseed, d0, h0, _, ⟨rfl, hfits⟩, d1, h1, hg, charged, hch, d2, h2, hn,
      _, ⟨_, rfl⟩, _, hr, hne, hpos, hlt, rfl⟩
    obtain ⟨hcount, hlen⟩ := checkCounts_eq_ok.mp hc
    push Not at ho
    have hpair : ∀ p ∈ balances.zip deposits, p.2 = 0 → p.1 ≠ 0 := by
      intro p hp hd hb
      exact hseed ⟨p, hp, hd, hb⟩
    exact ⟨d0, d1, d2, charged, hcount, hlen, hs, ho, hpair, h0, hfits, h1, hg, hch, h2, hn, hr,
      by omega, hlt⟩
  · rintro ⟨d0, d1, d2, charged, h⟩
    refine ⟨(), checkCounts_eq_ok.mpr ⟨h.count, h.length_eq⟩, h.supply_ne, ?_, ?_, d0, h.before, _,
      ⟨rfl, h.fits⟩, d1, h.after, h.grows, charged, h.charge, d2, h.net, h.netGrows, _,
      ⟨h.netGrows.le, rfl⟩, share, h.ratio, h.share_pos.ne', h.share_pos.le, h.share_lt, rfl⟩
    · push Not
      exact h.offered
    · rintro ⟨p, hp, hd, hb⟩
      exact h.seeded p hp hd hb

theorem checkReserves_eq_ok : checkReserves balances withdrawals = .ok () ↔
    ∀ p ∈ balances.zip withdrawals, p.2 < p.1 := by
  unfold checkReserves
  rw [forM_eq_ok]
  conv_rhs => rw [← List.zipIdx_map_fst 0 (balances.zip withdrawals), List.forall_mem_map]
  simp

/-- Shares are minted only where the invariant exists before and after, and grows. -/
theorem invariants_of_mint {ν : Type} [Operand ν] {s : Shape ν} {fee : ν}
    (h : mint s balances deposits supply fee = .ok share) :
    ∃ d0 d1, invariant s balances = .ok d0 ∧
      (∀ b ∈ List.zipWith (· + ·) balances deposits, 0 ≤ b ∧ b < Width.uint128.limit) ∧
      invariant s (List.zipWith (· + ·) balances deposits) = .ok d1 ∧ 0 < d0 ∧ d0 < d1 := by
  unfold mint at h
  obtain ⟨_, -, h⟩ := bind_eq_ok.mp h
  simp only [throw_eq, error_bind, refused_eq_ok, bind_eq_ok, grow_mapM_eq_ok,
    Operand.mapM_strict_int, Operand.strict_int, Except.ok.injEq, exists_eq_left', not_le] at h
  obtain ⟨-, -, -, d0, h0, _, ⟨rfl, hfits⟩, d1, h1, hgrows, _, -, _, -, -, _, -, _, hratio, -⟩ := h
  have hne := Ratio.divisor_ne_zero hratio
  have hbound := (invariant_bounds h0).1
  exact ⟨d0, d1, h0, hfits, h1, by omega, hgrows⟩

theorem left_mapM_eq_ok :
    (balances.zip withdrawals).mapM (fun p => Checked.sub p.1 p.2) = .ok left ↔
      left = List.zipWith (· - ·) balances withdrawals ∧ ∀ b ∈ left, 0 ≤ b := by
  apply mapM_zip_eq_ok (k := fun (b w : Int) => Checked.sub b w) (f := (· - ·))
  intro b w c
  rw [Checked.sub_eq_ok]
  constructor
  · rintro ⟨hle, rfl⟩
    exact ⟨rfl, by omega⟩
  · rintro ⟨rfl, hle⟩
    exact ⟨by omega, rfl⟩

theorem left_nonneg (h : ∀ p ∈ balances.zip withdrawals, p.2 < p.1) :
    ∀ b ∈ List.zipWith (· - ·) balances withdrawals, 0 ≤ b := by
  intro b hb
  rw [← List.map_uncurry_zip_eq_zipWith] at hb
  obtain ⟨p, hp, rfl⟩ := List.mem_map.mp hb
  have := h p hp
  simp only [Function.uncurry]
  omega

/-- A withdrawal that burns `share`: the invariant of the balances is `d0`, without the
withdrawal `d1` and with the fee taken of that `d2`. -/
structure Burning (s : Shape) (balances withdrawals : List Int) (supply fee : Int)
    (provided : Option Int) (share d0 d1 d2 : Int) (charged : List Int) : Prop where
  count : 2 ≤ balances.length
  length_eq : balances.length = withdrawals.length
  asked : ∃ w ∈ withdrawals, w ≠ 0
  supply_ne : supply ≠ 0
  leaves : ∀ p ∈ balances.zip withdrawals, p.2 < p.1
  before : invariant s balances = .ok d0
  after : invariant s (List.zipWith (· - ·) balances withdrawals) = .ok d1
  charge : chargeImbalance d0 d1 balances (List.zipWith (· - ·) balances withdrawals) fee =
    .ok charged
  net : invariant s charged = .ok d2
  shrinks : d2 ≤ d0
  ratio : Checked.mulDiv supply (d0 - d2) d0 = .ok (share - 1)
  share_nonneg : 0 ≤ share
  share_lt : share < Width.uint128.limit
  share_le : share ≤ supply
  granted : checkProvided share provided = .ok ()

theorem burn_eq_ok : burn s balances withdrawals supply fee provided = .ok share ↔
    ∃ d0 d1 d2 charged,
      Burning s balances withdrawals supply fee provided share d0 d1 d2 charged := by
  unfold burn
  rw [bind_eq_ok]
  simp only [throw_eq, error_bind, refused_eq_ok, bind_eq_ok, Operand.mapM_strict_int,
    Operand.strict_int, ok_bind, left_mapM_eq_ok, Operand.isZero_int, Checked.sub_eq_ok,
    Width.check_eq_ok, Except.ok.injEq, beq_iff_eq, List.all_eq_true, not_lt, pure_eq]
  constructor
  · rintro ⟨_, hc, ha, hs, _, hres, d0, h0, _, ⟨rfl, _⟩, d1, h1, charged, hch, d2, h2, _,
      ⟨hle, rfl⟩, part, hr, _, ⟨hpos, hlt, rfl⟩, hsup, _, hprov, rfl⟩
    obtain ⟨hcount, hlen⟩ := checkCounts_eq_ok.mp hc
    push Not at ha
    rw [← Int.add_sub_cancel part 1] at hr
    exact ⟨d0, d1, d2, charged, hcount, hlen, ha, hs, checkReserves_eq_ok.mp hres, h0, h1, hch, h2,
      hle, hr, hpos, hlt, hsup, hprov⟩
  · rintro ⟨d0, d1, d2, charged, h⟩
    refine ⟨(), checkCounts_eq_ok.mpr ⟨h.count, h.length_eq⟩, ?_, h.supply_ne, (),
      checkReserves_eq_ok.mpr h.leaves, d0, h.before, _, ⟨rfl, left_nonneg h.leaves⟩, d1, h.after,
      charged, h.charge, d2, h.net, _, ⟨h.shrinks, rfl⟩, share - 1, h.ratio, share, ?_,
      h.share_le, (), h.granted, rfl⟩
    · push Not
      exact h.asked
    · rw [Int.sub_add_cancel]
      exact ⟨h.share_nonneg, h.share_lt, rfl⟩

/-- What is minted where the invariant grows from `d0` to `d2`. -/
def mintOf (supply d0 d2 : Int) : Except Fault Int := do
  if d2 ≤ d0 then throw .mintTooSmall
  let growth ← Checked.sub d2 d0
  let share ← Checked.mulDiv supply growth d0
  if share = 0 then throw .mintTooSmall
  Width.uint128.check share

/-- A deposit that is in order depends on the invariants alone. -/
theorem mint_eq (hcount : 2 ≤ balances.length) (hl : balances.length = deposits.length)
    (hs : supply ≠ 0) (ho : ∃ d ∈ deposits, d ≠ 0)
    (hseed : ∀ p ∈ balances.zip deposits, p.2 = 0 → p.1 ≠ 0) (h0 : invariant s balances = .ok d0)
    (hfits : ∀ b ∈ List.zipWith (· + ·) balances deposits, 0 ≤ b ∧ b < Width.uint128.limit) :
    mint s balances deposits supply fee =
      invariant s (List.zipWith (· + ·) balances deposits) >>= fun d1 =>
        if d1 ≤ d0 then .error .mintTooSmall
        else chargeImbalance d0 d1 balances (List.zipWith (· + ·) balances deposits) fee >>=
          fun charged => invariant s charged >>= fun d2 => mintOf supply d0 d2 := by
  have hoffered : ¬ deposits.all Operand.isZero = true := by
    rw [List.all_eq_true]
    push Not
    simpa using ho
  have hseeded : ¬ ((balances.zip deposits).any fun p => p.2 == 0 && p.1 == 0) = true := by
    rw [List.any_eq_true]
    rintro ⟨p, hp, hzero⟩
    rw [Bool.and_eq_true, beq_iff_eq, beq_iff_eq] at hzero
    exact hseed p hp hzero.1 hzero.2
  unfold mint
  simp only [checkCounts_eq_ok.mpr ⟨hcount, hl⟩, ok_bind, Operand.isZero_int, beq_iff_eq, hs,
    if_false, hoffered, hseeded, h0, grow_mapM_eq_ok.mpr ⟨rfl, hfits⟩, Operand.mapM_strict_int,
    Operand.strict_int, throw_eq, error_bind, Bool.false_eq_true, mintOf]

/-- What is burned where the invariant shrinks from `d0` to `d2`. -/
def burnOf (supply d0 d2 : Int) (provided : Option Int) : Except Fault Int := do
  let shrinkage ← Checked.sub d0 d2
  let part ← Checked.mulDiv supply shrinkage d0
  let share ← Width.uint128.check (part + 1)
  if supply < share then throw (.burnAboveSupply share supply)
  checkProvided share provided
  return share

/-- The part of the supply that is burned, one share aside. Only where nothing is left of the
invariant is it all of the supply. -/
theorem part_bounds (hd0 : 0 < d0) (hd2 : 0 ≤ d2) (hle : d2 ≤ d0) (hs : 0 < supply) :
    0 ≤ supply * (d0 - d2) / d0 ∧ supply * (d0 - d2) / d0 ≤ supply ∧
      (d2 ≠ 0 → supply * (d0 - d2) / d0 < supply) := by
  refine ⟨Int.ediv_nonneg (Int.mul_nonneg hs.le (by omega)) hd0.le, ?_, ?_⟩
  · exact Int.ediv_le_of_le_mul hd0 (Int.mul_le_mul_of_nonneg_left (by omega) hs.le)
  · intro hne
    rw [Int.ediv_lt_iff_lt_mul hd0]
    exact Int.mul_lt_mul_of_pos_left (by omega) hs

theorem burnOf_eq (hd0 : 0 < d0) (hd0w : d0 < Width.uint128.limit) (hd2 : 0 ≤ d2) (hle : d2 ≤ d0)
    (hs : 0 < supply) (hsw : supply < Width.uint128.limit) : burnOf supply d0 d2 provided =
      Width.uint128.check (supply * (d0 - d2) / d0 + 1) >>= fun share =>
        if supply < share then .error (.burnAboveSupply share supply)
        else checkProvided share provided >>= fun _ => .ok share := by
  unfold burnOf
  rw [Checked.sub_eq_ok.mpr ⟨hle, rfl⟩, ok_bind,
    Ratio.mulDiv_words hs.le (by omega) hsw (by omega) hd0, ok_bind]
  rfl

/-- A withdrawal that is in order depends on the invariants alone. -/
theorem burn_eq (hcount : 2 ≤ balances.length) (hl : balances.length = withdrawals.length)
    (ha : ∃ w ∈ withdrawals, w ≠ 0) (hs : supply ≠ 0)
    (hleaves : ∀ p ∈ balances.zip withdrawals, p.2 < p.1) (h0 : invariant s balances = .ok d0) :
    burn s balances withdrawals supply fee provided =
      invariant s (List.zipWith (· - ·) balances withdrawals) >>= fun d1 =>
        chargeImbalance d0 d1 balances (List.zipWith (· - ·) balances withdrawals) fee >>=
          fun charged => invariant s charged >>= fun d2 => burnOf supply d0 d2 provided := by
  have hasked : ¬ withdrawals.all Operand.isZero = true := by
    rw [List.all_eq_true]
    push Not
    simpa using ha
  unfold burn
  simp only [checkCounts_eq_ok.mpr ⟨hcount, hl⟩, ok_bind, Operand.isZero_int, beq_iff_eq, hs,
    if_false, hasked, checkReserves_eq_ok.mpr hleaves, h0,
    left_mapM_eq_ok.mpr ⟨rfl, left_nonneg hleaves⟩, Operand.mapM_strict_int, Operand.strict_int,
    Bool.false_eq_true, burnOf]

end Liquidity.Stable
