import Liquidity.Proofs.Snapshot.History

/-! Registrations that outlive a later one. A pool id keeps leading to the pool that took it last,
also after another pool came to stand at that address, and a ramp is served until a registration
brings another. -/

namespace Liquidity.Snapshot
set_option autoImplicit false

open Outcome

variable {s : Snapshot} {h later earlier : History} {p q : Identity} {r : Reserves}

/-- A registration is the latest at its address in content if what came later put it there again. -/
theorem find?_isAt_iff {ramp : Option Ramp} :
    (∃ r' ramp', (later ++ .addPool p r ramp :: earlier).find? (Call.isAt p.address) =
      some (.addPool p r' ramp')) ↔
    ∀ c, later.find? (Call.isAt p.address) = some c → ∃ r' ramp', c = .addPool p r' ramp' := by
  have hp : (Call.addPool p r ramp).isAt p.address = true := beq_self_eq_true p.address
  rw [List.find?_append, List.find?_cons_of_pos hp]
  cases later.find? (Call.isAt p.address) with
  | none => simp
  | some c => simp

theorem Indexed.nativePool_stale_iff (hi : s.Indexed h) {id : Figure}
    (hn : s.nativePool id = .ok p) :
    ∃ later r ramp earlier, h = later ++ .addPool p r ramp :: earlier ∧
      (∀ c ∈ later, c.hasId id = false) ∧
      (s.pairAt (.str p.address) = .ok p ↔
        ∀ c, later.find? (Call.isAt p.address) = some c → ∃ r' ramp', c = .addPool p r' ramp') := by
  obtain ⟨r, ramp, hc⟩ := (nativePool_eq_ok hi).mp hn
  obtain ⟨-, later, earlier, rfl, hl⟩ := List.find?_eq_some_iff_append.mp hc
  refine ⟨later, r, ramp, earlier, rfl, fun c hc => by simpa using hl c hc, ?_⟩
  rw [pairAt_eq_ok hi, find?_isAt_iff]

theorem rampsAt_iff {a : String} {c : Call} :
    c.rampsAt a ↔ ∃ q r ramp, c = .addPool q r (some ramp) ∧ c.isAt a := by
  cases c with
  | addPool q r ramp => cases ramp <;> simp [Call.rampsAt, Call.isAt]
  | _ => simp [Call.rampsAt]

/-- No call after the latest registration at an address brings a ramp for it. -/
theorem find?_rampsAt_of_isAt {a : String} {ramp : Ramp}
    (hc : h.find? (Call.isAt a) = some (.addPool q r (some ramp))) :
    h.find? (Call.rampsAt a) = some (.addPool q r (some ramp)) := by
  obtain ⟨hat, later, earlier, rfl, hl⟩ := List.find?_eq_some_iff_append.mp hc
  apply find?_latest
  · intro d hd
    have hd := hl d hd
    cases hr : d.rampsAt a with
    | false => rfl
    | true =>
      obtain ⟨_, _, _, -, hat⟩ := rampsAt_iff.mp hr
      simp [hat] at hd
  · exact hat

theorem rampOf_eq_error (hi : s.Indexed h) :
    s.rampOf p = .error (.unread (.ramp p.address)) ↔ ∀ c ∈ h, c.rampsAt p.address = false := by
  cases hc : h.find? (Call.rampsAt p.address) with
  | none =>
    have hnone (ramp : Ramp) : s.rampOf p ≠ .ok ramp := by
      simp [rampOf_eq_ok hi, hc]
    have herror : s.rampOf p = .error (.unread (.ramp p.address)) := by
      unfold rampOf at hnone ⊢
      cases hl : s.ramps.lookup p.address with
      | none => rfl
      | some ramp => exact absurd (found_eq_ok.mpr hl) (hnone ramp)
    simpa [herror] using hc
  | some c =>
    have hat := List.find?_some hc
    obtain ⟨q, r, ramp, rfl, -⟩ := rampsAt_iff.mp hat
    have hok : s.rampOf p = .ok ramp := (rampOf_eq_ok hi).mpr ⟨q, r, hc⟩
    simp only [hok, reduceCtorEq, false_iff, not_forall]
    exact ⟨_, List.mem_of_find?_eq_some hc, by simp [hat]⟩

theorem Indexed.rampOf_stale_iff (hi : s.Indexed h) {ramp : Option Ramp}
    (hc : h.find? (Call.isAt p.address) = some (.addPool q r ramp)) :
    s.rampOf p = found (.ramp p.address) ramp ↔
      ramp.isSome ∨ ∀ c ∈ h, c.rampsAt p.address = false := by
  cases ramp with
  | some ramp =>
    have hok : s.rampOf p = .ok ramp := (rampOf_eq_ok hi).mpr ⟨q, r, find?_rampsAt_of_isAt hc⟩
    simp [hok, found]
  | none =>
    change s.rampOf p = .error _ ↔ _
    rw [rampOf_eq_error hi]
    simp

/-- A native pool is also the pair at its address unless the latest of the registrations there
that followed its own put another pool there. The ramp of the latest registration at an address
is served, or its want of one, unless it brought none while an earlier one there did; then the
latest that was brought is served. -/
theorem registrations_outlived (time : Figure) (own : Config) (h : History) :
    (∀ id p, ((empty time own).after h).nativePool id = .ok p →
      ∃ later r ramp earlier, h = later ++ .addPool p r ramp :: earlier ∧
        (∀ c ∈ later, c.hasId id = false) ∧
        (((empty time own).after h).pairAt (.str p.address) = .ok p ↔
          ∀ c, later.find? (Call.isAt p.address) = some c →
            ∃ r' ramp', c = .addPool p r' ramp')) ∧
    (∀ p q r ramp, h.find? (Call.isAt p.address) = some (.addPool q r ramp) →
      (((empty time own).after h).rampOf p = found (.ramp p.address) ramp ↔
        ramp.isSome ∨ ∀ c ∈ h, c.rampsAt p.address = false)) ∧
    ∀ p ramp, ((empty time own).after h).rampOf p = .ok ramp ↔
      ∃ q r, h.find? (Call.rampsAt p.address) = some (.addPool q r (some ramp)) := by
  have hi := indexed time own h
  refine ⟨?_, ?_, ?_⟩
  · intro id p hn
    exact hi.nativePool_stale_iff hn
  · intro p q r ramp hc
    exact hi.rampOf_stale_iff hc
  · intro p ramp
    exact rampOf_eq_ok hi

def replaced : Identity :=
  ⟨"pair", .native "gamm/pool/7", [.native "a", .native "b"], .stableSwap, some 7, by decide⟩

def replacing : Identity :=
  ⟨"pair", .cw20 "lp", [.native "a", .native "b"], .stableSwap, none, by decide⟩

/-- A pool with a pool id and a ramp, and then one in its place without them. -/
def replacement : History :=
  [.addPool replacing ⟨[], 0, by decide⟩ none,
    .addPool replaced ⟨[], 0, by decide⟩ (some ⟨100, 0, 100, 0⟩)]

theorem registrations_outlived_replaced :
    ((empty (.int 0) {}).after replacement).nativePool (.int 7) = .ok replaced ∧
      (∃ later r ramp earlier, replacement = later ++ .addPool replaced r ramp :: earlier ∧
        (((empty (.int 0) {}).after replacement).pairAt (.str "pair") = .ok replaced ↔
          ∀ c, later.find? (Call.isAt "pair") = some c →
            ∃ r' ramp', c = .addPool replaced r' ramp')) ∧
      replacement.find? (Call.isAt "pair") = some (.addPool replacing ⟨[], 0, by decide⟩ none) ∧
      ((empty (.int 0) {}).after replacement).rampOf replacing ≠ found (.ramp "pair") none := by
  obtain ⟨hpool, hramp, -⟩ := registrations_outlived (.int 0) {} replacement
  refine ⟨rfl, ?_, rfl, ?_⟩
  · obtain ⟨later, r, ramp, earlier, he, -, hiff⟩ := hpool (.int 7) replaced rfl
    exact ⟨later, r, ramp, earlier, he, hiff⟩
  · intro hserved
    rcases (hramp replacing replacing ⟨[], 0, by decide⟩ none rfl).mp hserved with hsome | hnone
    · cases hsome
    · exact absurd (hnone _ (List.mem_cons_of_mem _ List.mem_cons_self)) (by decide)

/-- The pool id leads to a pool that is no longer the one at its address, and the pool that is
there has the ramp of the other, though its registration brought none. -/
theorem stale_pool_served :
    ((empty (.int 0) {}).after replacement).nativePool (.int 7) = .ok replaced ∧
      ((empty (.int 0) {}).after replacement).pairAt (.str replaced.address) = .ok replacing ∧
      replaced ≠ replacing ∧
      ((empty (.int 0) {}).after replacement).rampOf replacing = .ok ⟨100, 0, 100, 0⟩ := by
  refine ⟨rfl, rfl, ?_, rfl⟩
  decide

end Liquidity.Snapshot
