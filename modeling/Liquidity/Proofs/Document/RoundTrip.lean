import Liquidity.Document
import Liquidity.Proofs.Json.Read
import Liquidity.Proofs.Json.Text
import Liquidity.Proofs.Schema.Documents

/-! Documents that are written and read again. Nothing that was accepted once is lost or
refused. -/

namespace Liquidity
set_option autoImplicit false

open Json (Legible)
open Outcome Schema

variable {src : Source} {j : Json}

section LooseParts

variable {α : Type}

theorem of_defaulted {P : α → Prop} {name : String} {usual a : α} {read : Json → Except Fault α}
    {ms : Json.Members} (hu : P usual) (hr : ∀ j, read j = .ok a → P a)
    (h : defaulted name usual read ms = .ok a) : P a := by
  rcases defaulted_eq_ok.mp h with ⟨j, -, hj⟩ | ⟨-, rfl⟩
  · exact hr j hj
  · exact hu

theorem depth_figure {f : Figure} (h : figure j = .ok f) : f.depth = 1 := by
  obtain ⟨n, -, rfl⟩ := map_eq_ok.mp h
  rfl

theorem depth_denomHead {x : Json} (h : denomHead j = .ok x) : x.depth = 1 := by
  obtain ⟨s, -, rfl⟩ := map_eq_ok.mp h
  rfl

/-- The parameters of a pool that is read are numbers and a text. -/
theorem Config.depth_of_ofJson {c : Config} (h : Config.ofJson j = .ok c) :
    ∀ x ∈ c.toList, x.depth = 1 := by
  obtain ⟨ms, -, hread⟩ := bind_eq_ok.mp h
  dsimp only at hread
  obtain ⟨⟨x₁, x₂, x₃, x₄, x₅, x₆⟩, hparts, hc⟩ := bind_eq_ok.mp hread
  obtain rfl := Except.ok.inj hc
  simp only [both_eq_ok] at hparts
  obtain ⟨h₁, h₂, h₃, h₄, h₅, h₆⟩ := hparts
  simp only [Config.toList, List.forall_mem_cons, List.not_mem_nil, false_implies, implies_true,
    and_true]
  have hfigure {name : String} {n : Int} {x : Figure}
      (h : defaulted name (.int n) figure ms = .ok x) : x.depth = 1 :=
    of_defaulted (P := fun x => x.depth = 1) rfl (fun _ => depth_figure) h
  refine ⟨hfigure h₁, hfigure h₂, hfigure h₃, hfigure h₄, hfigure h₅, ?_⟩
  exact of_defaulted (P := fun x => x.depth = 1) rfl (fun _ => depth_denomHead) h₆

theorem depth_of_poolMembers {check : Identity → Except Complaint α} {curve : Curve} {a : α}
    {c : Config} (h : poolMembers check curve j = .ok (a, c)) : ∀ x ∈ c.toList, x.depth = 1 := by
  obtain ⟨ms, -, h⟩ := bind_eq_ok.mp h
  obtain ⟨⟨a, c, _⟩, h, hc⟩ := bind_eq_ok.mp h
  cases hc
  have hconfig := (both_eq_ok.mp (both_eq_ok.mp h).2).1
  have husual : ∀ x ∈ ({} : Config).toList, x.depth = 1 := by decide
  exact of_defaulted (P := fun c => ∀ x ∈ c.toList, x.depth = 1) husual
    (fun _ => Config.depth_of_ofJson) hconfig

theorem ConstantProductPool.depth_of_ofJson {p : ConstantProductPool}
    (h : ConstantProductPool.ofJson j = .ok p) : ∀ x ∈ p.config.toList, x.depth = 1 := by
  obtain ⟨⟨q, c⟩, hmembers, rfl⟩ := map_eq_ok.mp h
  exact depth_of_poolMembers hmembers

theorem StablePool.depth_of_ofJson {p : StablePool} (h : StablePool.ofJson j = .ok p) :
    ∀ x ∈ p.config.toList, x.depth = 1 := by
  obtain ⟨⟨q, c⟩, hmembers, rfl⟩ := map_eq_ok.mp h
  exact depth_of_poolMembers hmembers

theorem Pool.depth_of_ofJson {p : Pool} (h : Pool.ofJson src j = .ok p) :
    ∀ x ∈ p.config.toList, x.depth = 1 := by
  obtain ⟨tag, read, -, hlookup, hread⟩ := tagged_eq_ok.mp h
  have hmem := mem_of_lookup hlookup
  simp only [List.mem_cons, Prod.mk.injEq, List.not_mem_nil, or_false] at hmem
  rcases hmem with ⟨-, rfl⟩ | ⟨-, rfl⟩
  · obtain ⟨p, hp, rfl⟩ := map_eq_ok.mp hread
    exact ConstantProductPool.depth_of_ofJson hp
  · obtain ⟨p, hp, rfl⟩ := map_eq_ok.mp hread
    exact StablePool.depth_of_ofJson hp

end LooseParts

namespace Form

variable {f : Form} {v : f.Content}

theorem dump_of_shallow (h : ∀ x ∈ f.looseParts v, x.depth = 1) : f.dump v = .ok (f.encode v) := by
  unfold dump
  rw [if_neg]
  simp only [List.any_eq_true, decide_eq_true_eq, not_exists, not_and, Nat.not_lt]
  intro x hx
  rw [h x hx]
  cases f <;> decide

theorem dump_eq_ok (hf : f ≠ .instruction) (h : f.decode src j = .ok v) :
    f.dump v = .ok (f.encode v) := by
  cases f with
  | instruction => exact absurd rfl hf
  | constantProductPool => exact dump_of_shallow (ConstantProductPool.depth_of_ofJson h)
  | stablePool => exact dump_of_shallow (StablePool.depth_of_ofJson h)
  | pool => exact dump_of_shallow (Pool.depth_of_ofJson h)
  | _ => rfl

/-- No document with fixed parts is as deep as a text may be. -/
theorem decode_faithful (f : Form) (hf : f ≠ .instruction) :
    Faithful (Json.documentDepth + 1) (fun src => decode src f) f.encode := by
  cases f with
  | assetId => exact AssetId.faithful
  | asset => exact Asset.faithful
  | assets => exact Assets.faithful
  | identity => exact Identity.faithful
  | reserves => exact Reserves.faithful
  | ramp => exact Ramp.faithful
  | price => exact Price.faithful
  | minOut => exact MinOut.faithful
  | beliefPrice => exact BeliefPrice.faithful
  | maxPriceImpact => exact MaxPriceImpact.faithful
  | slippageControl => exact SlippageControl.faithful
  | mint => exact Mint.faithful
  | payout => exact Payout.faithful
  | quote => exact Quote.faithful
  | burn => exact Burn.faithful
  | instruction => exact absurd rfl hf
  | pool => exact Pool.faithful
  | constantProductPool => exact ConstantProductPool.faithful
  | stablePool => exact StablePool.faithful

/-- What is accepted from a value is written out, and that is read as the same again, in values and,
if its whole numbers are not too long for that, in text. What is accepted from a text is written
as a text that is read as the same again, so that it is written as itself. -/
theorem read_write (f : Form) (hf : f ≠ .instruction) :
    (∀ src j v, f.decode src j = .ok v →
      f.dump v = .ok (f.encode v) ∧ (∀ src, f.decode src (f.encode v) = .ok v) ∧
        ((f.encode v).Throughout Legible → f.read (f.write v) = .ok v)) ∧
    ∀ text v, f.read text = .ok v →
      f.read (f.write v) = .ok v ∧ (f.read (f.write v)).map f.write = .ok (f.write v) := by
  have hvalue : ∀ src j v, f.decode src j = .ok v →
      f.dump v = .ok (f.encode v) ∧ (∀ src, f.decode src (f.encode v) = .ok v) ∧
        ((f.encode v).Throughout Legible → f.read (f.write v) = .ok v) := by
    intro src j v h
    have hkept := (decode_faithful f hf).kept src h
    refine ⟨dump_eq_ok hf h, hkept.back, ?_⟩
    intro hl
    have hread : Json.read? Json.documentDepth (f.write v) = some (f.encode v) :=
      Json.read?_compact hkept.tidy hl
    unfold read
    rw [hread]
    exact hkept.back .text
  refine ⟨hvalue, ?_⟩
  intro text v h
  unfold read at h
  split at h
  · rename_i j hj
    have hkept := (decode_faithful f hf).kept .text h
    have hread := (hvalue .text j v h).2.2 (hkept.legible (Json.read?_legible hj))
    refine ⟨hread, ?_⟩
    rw [hread]
    rfl
  · cases h

/-- A tolerance as people type it, in a value as a text and in a text as a number. -/
theorem read_write_tolerance :
    let impact : SlippageControl := .maxPriceImpact ⟨⟨false, 25, -3⟩, by decide +kernel⟩
    let form := Form.slippageControl
    form.dump impact = .ok (form.encode impact) ∧
      form.write impact = "\x7b\"kind\":\"max_price_impact\",\"max_price_impact\":\"0.025\"\x7d" ∧
      form.read (form.write impact) = .ok impact := by
  intro impact form
  obtain ⟨hvalue, htext⟩ := read_write .slippageControl (by decide)
  refine ⟨?_, by decide +kernel, ?_⟩
  · have hread : form.decode .value
        (.obj [("max_price_impact", .str " 2_5E-3"), ("kind", .str "max_price_impact")]) =
          .ok impact := by decide +kernel
    exact (hvalue .value _ impact hread).1
  · have hread : form.read
        "\x7b \"max_price_impact\" : 2.5e-2, \"kind\" : \"max_price_impact\" \x7d" =
          .ok impact := by decide +kernel
    exact (htext _ impact hread).1

end Form
end Liquidity
