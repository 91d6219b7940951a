import Liquidity.Resolve
import Liquidity.Proofs.Outcome

/-! What a snapshot serves after a history of writes. Each index lists what the calls wrote, the
latest first, so a read under a key finds the latest call that wrote there. A call that writes
nothing to an index does not hide what an earlier one wrote: a pool registered anew without its
pool id or without a ramp leaves the older entry to be read. -/

namespace Liquidity
set_option autoImplicit false

open Outcome

/-- A call that writes to a snapshot. -/
inductive Call where
  | addPool (p : Identity) (r : Reserves) (ramp : Option Ramp)
  | setReserves (p : Identity) (r : Reserves)
  | addPrecision (id : AssetId) (precision : Figure)
  | addCreator (address creator : Json)
  | addQuote (p : Identity) (offer : Asset) (ask : AssetId) (amount : Figure)

/-- The latest call stands first. -/
abbrev History := List Call

namespace Call

def isAt (a : String) : Call → Bool
  | addPool p _ _ => p.address == a
  | _ => false

def hasId (id : Figure) : Call → Bool
  | addPool p _ _ => p.poolId.any fun (n : Nat) => Operand.equal id (Int.ofNat n)
  | _ => false

def rampsAt (a : String) : Call → Bool
  | addPool p _ (some _) => p.address == a
  | _ => false

def createsAt (a : String) : Call → Bool
  | addPool p _ _ => !p.lpToken.isNative && p.lpToken.identifier == a
  | addCreator address _ => Json.coincide address (.str a)
  | _ => false

/-! The entries that a call writes. -/

def pair? : Call → Option (String × Identity)
  | addPool p _ _ => some (p.address, p)
  | _ => none

def nativePool? : Call → Option (Int × Identity)
  | addPool p _ _ => p.poolId.map fun (n : Nat) => (Int.ofNat n, p)
  | _ => none

def ramp? : Call → Option (String × Ramp)
  | addPool p _ ramp => ramp.map (p.address, ·)
  | _ => none

def creator? : Call → Option (Json × Json)
  | addPool p _ _ =>
    if p.lpToken.isNative then none else some (.str p.lpToken.identifier, .str p.address)
  | addCreator (.arr _) _ | addCreator (.obj _) _ => none
  | addCreator address creator => some (address, creator)
  | _ => none

end Call

namespace Snapshot

def perform (s : Snapshot) : Call → Except Fault Snapshot
  | .addPool p r ramp => .ok (s.addPool p r ramp)
  | .setReserves p r => s.setReserves p r
  | .addPrecision id n => .ok (s.addPrecision id n)
  | .addCreator address creator => s.addCreator address creator
  | .addQuote p offer ask n => .ok (s.addQuote p offer ask n)

/-- A call that is refused leaves the snapshot as it was. -/
def take (s : Snapshot) (c : Call) : Snapshot :=
  match s.perform c with
  | .ok t => t
  | .error _ => s

def after (start : Snapshot) : History → Snapshot
  | [] => start
  | c :: earlier => (start.after earlier).take c

structure Indexed (s : Snapshot) (h : History) : Prop where
  pairs : s.pairs = h.filterMap Call.pair?
  nativePools : s.nativePools = h.filterMap Call.nativePool?
  ramps : s.ramps = h.filterMap Call.ramp?
  creators : s.creators = h.filterMap Call.creator?
  stocked : ∀ x ∈ s.pairs, (s.reserves.lookup x.1).isSome

variable {s : Snapshot} {h : History}

theorem isSome_lookup_cons {α : Type} {k l : String} {a : α} {entries : List (String × α)}
    (hk : (entries.lookup k).isSome) : (((l, a) :: entries).lookup k).isSome := by
  rw [List.lookup_cons]
  cases k == l with
  | true => rfl
  | false => exact hk

theorem Indexed.addPool (hi : s.Indexed h) (p : Identity) (r : Reserves) (ramp : Option Ramp) :
    (s.addPool p r ramp).Indexed (.addPool p r ramp :: h) := by
  constructor
  · rw [List.filterMap_cons, ← hi.pairs]
    rfl
  · rw [List.filterMap_cons, ← hi.nativePools]
    simp only [Snapshot.addPool, Call.nativePool?]
    cases p.poolId <;> rfl
  · rw [List.filterMap_cons, ← hi.ramps]
    cases ramp <;> rfl
  · rw [List.filterMap_cons, ← hi.creators]
    simp only [Snapshot.addPool, Call.creator?]
    cases p.lpToken.isNative <;> rfl
  · intro x hx
    rcases List.mem_cons.mp hx with rfl | hx
    · simp [Snapshot.addPool]
    · exact isSome_lookup_cons (hi.stocked x hx)

theorem Indexed.setReserves {p : Identity} {r : Reserves} {t : Snapshot} (hi : s.Indexed h)
    (ht : s.setReserves p r = .ok t) : t.Indexed (.setReserves p r :: h) := by
  unfold Snapshot.setReserves at ht
  split at ht
  · cases ht
    refine ⟨hi.pairs, hi.nativePools, hi.ramps, hi.creators, ?_⟩
    intro x hx
    exact isSome_lookup_cons (hi.stocked x hx)
  · cases ht

theorem Indexed.addCreator {address creator : Json} {t : Snapshot} (hi : s.Indexed h)
    (ht : s.addCreator address creator = .ok t) : t.Indexed (.addCreator address creator :: h) := by
  obtain ⟨k, hk, rfl⟩ := bind_pure_eq_ok.mp ht
  refine ⟨hi.pairs, hi.nativePools, hi.ramps, ?_, hi.stocked⟩
  rw [List.filterMap_cons, ← hi.creators]
  cases address <;> cases hk <;> rfl

theorem Indexed.perform {c : Call} {t : Snapshot} (hi : s.Indexed h) (ht : s.perform c = .ok t) :
    t.Indexed (c :: h) := by
  cases c with
  | addPool p r ramp =>
    cases ht
    exact hi.addPool p r ramp
  | setReserves p r => exact hi.setReserves ht
  | addPrecision id n =>
    cases ht
    exact ⟨hi.pairs, hi.nativePools, hi.ramps, hi.creators, hi.stocked⟩
  | addCreator address creator => exact hi.addCreator ht
  | addQuote p offer ask n =>
    cases ht
    exact ⟨hi.pairs, hi.nativePools, hi.ramps, hi.creators, hi.stocked⟩

theorem Indexed.refused {c : Call} {f : Fault} (hi : s.Indexed h) (hf : s.perform c = .error f) :
    s.Indexed (c :: h) := by
  -- What is refused has no entry to write.
  cases c with
  | addPool p r ramp => cases hf
  | setReserves p r => exact ⟨hi.pairs, hi.nativePools, hi.ramps, hi.creators, hi.stocked⟩
  | addPrecision id n => cases hf
  | addCreator address creator =>
    refine ⟨hi.pairs, hi.nativePools, hi.ramps, ?_, hi.stocked⟩
    rw [List.filterMap_cons, ← hi.creators]
    cases address <;> cases hf <;> rfl
  | addQuote p offer ask n => cases hf

theorem Indexed.take (hi : s.Indexed h) (c : Call) : (s.take c).Indexed (c :: h) := by
  unfold Snapshot.take
  cases hp : s.perform c with
  | ok t => exact hi.perform hp
  | error f => exact hi.refused hp

theorem indexed (time : Figure) (own : Config) (h : History) :
    ((empty time own).after h).Indexed h := by
  induction h with
  | nil => exact ⟨rfl, rfl, rfl, rfl, fun x hx => absurd hx List.not_mem_nil⟩
  | cons c earlier ih => exact ih.take c

theorem find?_latest {later earlier : History} {wanted : Call → Bool} {c : Call}
    (hl : ∀ d ∈ later, wanted d = false) (hc : wanted c) :
    (later ++ c :: earlier).find? wanted = some c := by
  apply List.find?_eq_some_iff_append.mpr
  exact ⟨hc, later, earlier, rfl, fun d hd => by simp [hl d hd]⟩

/-! Reads, by the calls that they go back to. -/

@[simp] theorem found_eq_ok {α : Type} {what : Unread} {o : Option α} {a : α} :
    found what o = .ok a ↔ o = some a := by
  cases o <;> simp [found]

theorem lookup_eq_find? {α : Type} (k : String) (entries : List (String × α)) :
    entries.lookup k = (entries.find? (·.1 == k)).map (·.2) := by
  induction entries with
  | nil => rfl
  | cons x entries ih =>
    rw [List.lookup_cons, List.find?_cons, BEq.comm, ih]
    cases x.1 == k <;> rfl

/-- The entry that is found is the one of the latest call that writes such an entry. -/
theorem find?_entries {α : Type} {entry : Call → Option α} {wanted : α → Bool}
    {writes : Call → Bool} (hw : ∀ c, writes c = (entry c).any wanted) (h : History) :
    (h.filterMap entry).find? wanted = (h.find? writes).bind entry := by
  rw [List.find?_filterMap, ← funext hw]

theorem pairAt_eq_ok (hi : s.Indexed h) {a : String} {p : Identity} :
    s.pairAt (.str a) = .ok p ↔ ∃ r ramp, h.find? (Call.isAt a) = some (.addPool p r ramp) := by
  have hw (c : Call) : c.isAt a = c.pair?.any (·.1 == a) := by cases c <;> rfl
  change found _ (s.pairs.lookup a) = _ ↔ _
  rw [found_eq_ok, hi.pairs, lookup_eq_find?, find?_entries hw]
  cases h.find? (Call.isAt a) with
  | none => simp
  | some c => cases c <;> simp [Call.pair?]

theorem rampOf_eq_ok (hi : s.Indexed h) {p : Identity} {ramp : Ramp} :
    s.rampOf p = .ok ramp ↔
      ∃ q r, h.find? (Call.rampsAt p.address) = some (.addPool q r (some ramp)) := by
  have hw (c : Call) : c.rampsAt p.address = c.ramp?.any (·.1 == p.address) := by
    cases c with
    | addPool q r ramp => cases ramp <;> rfl
    | _ => rfl
  unfold rampOf
  rw [found_eq_ok, hi.ramps, lookup_eq_find?, find?_entries hw]
  cases h.find? (Call.rampsAt p.address) with
  | none => simp
  | some c => cases c <;> simp [Call.ramp?]

@[simp] theorem coincide_str {a b : String} : Json.coincide (.str a) (.str b) = (a == b) := by
  simp [Json.coincide, Json.alike, Json.isUndefined]

theorem createsAt_eq (a : String) (c : Call) :
    c.createsAt a = c.creator?.any fun x => Json.coincide x.1 (.str a) := by
  cases c with
  | addPool p r ramp =>
    simp only [Call.createsAt, Call.creator?]
    cases p.lpToken.isNative <;> simp
  | addCreator address creator =>
    cases address <;> simp [Call.createsAt, Call.creator?, Json.coincide, Json.alike,
      Json.sameNumber, Json.fraction?, Json.isUndefined]
  | _ => rfl

theorem creatorOf_eq_ok (hi : s.Indexed h) {a : String} {creator : Json} :
    s.creatorOf (.str a) = .ok creator ↔
      ∃ c k, h.find? (Call.createsAt a) = some c ∧ c.creator? = some (k, creator) := by
  change found _ (latest (.str a) s.creators) = _ ↔ _
  rw [found_eq_ok, latest, hi.creators, find?_entries (createsAt_eq a)]
  simp only [Option.map_eq_some_iff, Option.bind_eq_some_iff, Prod.exists, exists_eq_right]
  exact ⟨fun ⟨k, c, hc⟩ => ⟨c, k, hc⟩, fun ⟨c, k, hc⟩ => ⟨k, c, hc⟩⟩

theorem hasId_eq (id : Figure) (c : Call) :
    c.hasId id = c.nativePool?.any fun x => Operand.equal id x.1 := by
  cases c with
  | addPool q r ramp =>
    simp only [Call.hasId, Call.nativePool?]
    cases q.poolId <;> rfl
  | _ => rfl

/-- Lists and objects, which are no keys, are the id of no pool. -/
theorem key_of_hasId {id : Figure} {c : Call} (hc : c.hasId id) : key id = .ok id := by
  cases c with
  | addPool q r ramp =>
    obtain ⟨n, -, hn⟩ := (Option.any_eq_true _ _).mp hc
    cases id with
    | arr items => simp [Operand.equal, Json.alike, Json.sameNumber, Json.fraction?] at hn
    | obj members => simp [Operand.equal, Json.alike, Json.sameNumber, Json.fraction?] at hn
    | _ => rfl
  | _ => cases hc

theorem key_eq_ok {j k : Json} (hk : key j = .ok k) : k = j := by
  cases j <;> cases hk <;> rfl

theorem nativePool_eq_ok (hi : s.Indexed h) {id : Figure} {p : Identity} :
    s.nativePool id = .ok p ↔ ∃ r ramp, h.find? (Call.hasId id) = some (.addPool p r ramp) := by
  have hread (k : Json) : found (.nativePool id)
      ((s.nativePools.find? fun x => Operand.equal k x.1).map (·.2)) = .ok p ↔
        ∃ c x, h.find? (Call.hasId k) = some c ∧ c.nativePool? = some x ∧ x.2 = p := by
    rw [found_eq_ok, hi.nativePools, find?_entries (hasId_eq k)]
    simp only [Option.map_eq_some_iff, Option.bind_eq_some_iff]
    constructor
    · rintro ⟨x, ⟨c, hc, hx⟩, hp⟩
      exact ⟨c, x, hc, hx, hp⟩
    · rintro ⟨c, x, hc, hx, hp⟩
      exact ⟨x, ⟨c, hc, hx⟩, hp⟩
  unfold nativePool
  rw [bind_eq_ok]
  constructor
  · rintro ⟨k, hk, hf⟩
    obtain ⟨c, x, hc, hx, rfl⟩ := (hread k).mp hf
    obtain rfl := key_eq_ok hk
    cases c with
    | addPool q r ramp =>
      obtain ⟨n, -, rfl⟩ := Option.map_eq_some_iff.mp hx
      exact ⟨r, ramp, hc⟩
    | _ => cases hx
  · rintro ⟨r, ramp, hc⟩
    have hid := List.find?_some hc
    obtain ⟨n, hn, -⟩ := (Option.any_eq_true _ _).mp hid
    refine ⟨id, key_of_hasId hid, (hread id).mpr ⟨_, (Int.ofNat n, p), hc, ?_, rfl⟩⟩
    exact Option.map_eq_some_iff.mpr ⟨n, hn, rfl⟩

end Snapshot
end Liquidity
