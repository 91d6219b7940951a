import Mathlib.Data.List.Forall2
import Liquidity.Schema.Decode
import Liquidity.Proofs.Json.Shape
import Liquidity.Proofs.Outcome

/-! Readers with a writer that undoes them. What is written is read as what it was written from,
by whichever road it comes, and it is tidy, so that it can also go through text. The parts of a
document have this from their own parts. -/

namespace Liquidity.Schema
set_option autoImplicit false

open Json (Members Legible)
open Outcome

variable {α β : Type} {k : Nat} {src : Source} {a : α} {b : β} {j j' : Json} {ms ms' : Members}

/-- What was read from `j` and is written as `j'`. -/
structure Kept (k : Nat) (read : Source → Json → Except Fault α) (a : α) (j j' : Json) :
    Prop where
  back : ∀ src, read src j' = .ok a
  tidy : j'.Tidy k
  legible : j.Throughout Legible → j'.Throughout Legible

theorem Kept.str {read : Source → Json → Except Fault α} {s : String}
    (h : ∀ src, read src (.str s) = .ok a) : Kept (k + 1) read a j (.str s) :=
  ⟨h, .str s, fun _ => .scalar rfl trivial⟩

/-- Whatever is read from a value is kept. -/
structure Faithful (k : Nat) (read : Source → Json → Except Fault α) (write : α → Json) :
    Prop where
  kept : ∀ src {a j}, read src j = .ok a → Kept k read a j (write a)

/-- What was read from members `ms` and is written as members `ms'` of certain names. It is read
wherever members of these names have the same values. -/
structure MembersKept (k : Nat) (names : List String)
    (read : Source → Members → Except Fault α) (a : α) (ms ms' : Members) : Prop where
  back : ∀ src all, (∀ name ∈ names, all.lookup name = ms'.lookup name) → read src all = .ok a
  names_eq : ms'.map Prod.fst = names
  tidy : ∀ m ∈ ms', m.2.Tidy k
  legible : (∀ m ∈ ms, m.2.Throughout Legible) → ∀ m ∈ ms', m.2.Throughout Legible

structure MembersFaithful (k : Nat) (names : List String)
    (read : Source → Members → Except Fault α) (write : α → Members) : Prop where
  kept : names.Nodup → ∀ src {a ms}, read src ms = .ok a →
    MembersKept k names read a ms (write a)

section Backwards

theorem both_eq_ok {r : Except Fault α} {s : Except Fault β} :
    both r s = .ok (a, b) ↔ r = .ok a ∧ s = .ok b := by
  unfold both
  split <;> simp_all

@[simp] theorem within_eq_ok {s : Step} {r : Except Fault α} :
    within s r = .ok a ↔ r = .ok a := by
  unfold within
  split <;> simp

@[simp] theorem record_eq_ok {c : Complaint} : record c j = .ok ms ↔ j = .obj ms := by
  cases j <;> simp [record, refuse]

theorem required_eq_ok {name : String} {read : Json → Except Fault α} :
    required name read ms = .ok a ↔ ∃ j, ms.lookup name = some j ∧ read j = .ok a := by
  unfold required
  cases ms.lookup name <;> simp

theorem defaulted_eq_ok {name : String} {usual : α} {read : Json → Except Fault α} :
    defaulted name usual read ms = .ok a ↔
      (∃ j, ms.lookup name = some j ∧ read j = .ok a) ∨
        (ms.lookup name = none ∧ a = usual) := by
  unfold defaulted
  cases ms.lookup name with
  | none => simp [eq_comm]
  | some j => simp

theorem items_eq_ok {read : Json → Except Fault α} {i : Nat} {js : List Json} {as : List α} :
    items read i js = .ok as ↔ List.Forall₂ (fun j a => read j = .ok a) js as := by
  induction js generalizing i as with
  | nil => cases as <;> simp [items]
  | cons j js ih =>
    simp only [items, map_eq_ok, Prod.exists, both_eq_ok, within_eq_ok, ih]
    cases as <;> simp [and_assoc]

theorem list_eq_ok {read : Json → Except Fault α} {as : List α} :
    list read j = .ok as ↔
      ∃ js, j = .arr js ∧ List.Forall₂ (fun j a => read j = .ok a) js as := by
  cases j <;> simp [list, refuse, items_eq_ok]

theorem listOfTwo_eq_ok {read : Json → Except Fault α} {as : { as : List α // 2 ≤ as.length }} :
    listOfTwo read j = .ok as ↔ list read j = .ok as.val := by
  unfold listOfTwo
  split
  · rename_i as' hlist
    rw [hlist]
    split
    · simp [Subtype.ext_iff]
    · rename_i hlt
      have hne : as' ≠ as.val := fun he => hlt (he ▸ as.property)
      simp [refuse, hne]
  · rename_i hlist
    rw [hlist]
    split <;> simp
  · rename_i hlist
    rw [hlist]
    simp

theorem mem_of_lookup {name : String} {entries : List (String × α)}
    (h : entries.lookup name = some a) : (name, a) ∈ entries := by
  obtain ⟨l, l', rfl, -⟩ := List.lookup_eq_some_iff.mp h
  simp

end Backwards

section Combinators

variable {read : Source → Json → Except Fault α} {write : α → Json}
variable {names names' : List String}

theorem Faithful.required (h : Faithful k read write) (name : String) :
    MembersFaithful k [name] (fun src => Schema.required name (read src))
      fun a => [(name, write a)] := by
  constructor
  intro _ src a ms hread
  obtain ⟨j, hj, hread⟩ := required_eq_ok.mp hread
  have hmem := mem_of_lookup hj
  have hkept := h.kept _ hread
  constructor
  · intro src all hall
    have hlookup := hall name List.mem_cons_self
    rw [List.lookup_cons_self] at hlookup
    exact required_eq_ok.mpr ⟨write a, hlookup, hkept.back src⟩
  · rfl
  · simpa using hkept.tidy
  · intro hl
    simpa using hkept.legible (hl _ hmem)

theorem Faithful.defaulted {usual : α} (h : Faithful k read write) (name : String)
    (hl : j.Throughout Legible) (hu : read .value j = .ok usual) :
    MembersFaithful k [name] (fun src => Schema.defaulted name usual (read src))
      fun a => [(name, write a)] := by
  constructor
  intro _ src a ms hread
  have hkept : ∃ j, ((∀ m ∈ ms, m.2.Throughout Legible) → j.Throughout Legible) ∧
      Kept k read a j (write a) := by
    rcases defaulted_eq_ok.mp hread with ⟨j, hj, hread⟩ | ⟨-, rfl⟩
    · have hmem := mem_of_lookup hj
      exact ⟨j, fun hl => hl _ hmem, h.kept _ hread⟩
    · -- Nothing was read, but the usual value is what `j` would have been read as.
      exact ⟨j, fun _ => hl, h.kept _ hu⟩
  obtain ⟨j, hl, hkept⟩ := hkept
  constructor
  · intro src all hall
    have hlookup := hall name List.mem_cons_self
    rw [List.lookup_cons_self] at hlookup
    exact defaulted_eq_ok.mpr (.inl ⟨write a, hlookup, hkept.back src⟩)
  · rfl
  · simpa using hkept.tidy
  · intro hms
    simpa using hkept.legible (hl hms)

theorem lookup_append_of_mem {name : String} (h : name ∈ ms.map Prod.fst) :
    (ms ++ ms').lookup name = ms.lookup name := by
  rw [List.lookup_append]
  cases hl : ms.lookup name with
  | some j => rfl
  | none =>
    obtain ⟨m, hm, rfl⟩ := List.mem_map.mp h
    have := List.lookup_eq_none_iff.mp hl m hm
    simp at this

theorem lookup_append_of_notMem {name : String} (h : name ∉ ms.map Prod.fst) :
    (ms ++ ms').lookup name = ms'.lookup name := by
  rw [List.lookup_append]
  cases hl : ms.lookup name with
  | none => rfl
  | some j => exact absurd (List.mem_map_of_mem (f := Prod.fst) (mem_of_lookup hl)) h

theorem MembersFaithful.both {read : Source → Members → Except Fault α}
    {read' : Source → Members → Except Fault β} {write : α → Members} {write' : β → Members}
    (h : MembersFaithful k names read write) (h' : MembersFaithful k names' read' write') :
    MembersFaithful k (names ++ names') (fun src ms => Schema.both (read src ms) (read' src ms))
      fun (a, b) => write a ++ write' b := by
  constructor
  intro hn src ab ms hread
  obtain ⟨a, b⟩ := ab
  obtain ⟨hread, hread'⟩ := both_eq_ok.mp hread
  obtain ⟨hnames, hnames', hdisjoint⟩ := List.nodup_append.mp hn
  have hkept := h.kept hnames src hread
  have hkept' := h'.kept hnames' src hread'
  constructor
  · intro src all hall
    refine both_eq_ok.mpr ⟨hkept.back src all ?_, hkept'.back src all ?_⟩
    · intro name hname
      rw [hall name (List.mem_append_left _ hname), lookup_append_of_mem]
      rwa [hkept.names_eq]
    · intro name hname
      rw [hall name (List.mem_append_right _ hname), lookup_append_of_notMem]
      rw [hkept.names_eq]
      exact fun hmem => hdisjoint name hmem name hname rfl
  · rw [List.map_append, hkept.names_eq, hkept'.names_eq]
  · intro m hm
    rcases List.mem_append.mp hm with hm | hm
    · exact hkept.tidy m hm
    · exact hkept'.tidy m hm
  · intro hl m hm
    rcases List.mem_append.mp hm with hm | hm
    · exact hkept.legible hl m hm
    · exact hkept'.legible hl m hm

/-- What is made of the members that were read is written as these members were. -/
theorem MembersFaithful.object {read : Source → Members → Except Fault α}
    {write : α → Members} {f : α → Except Fault β} {write' : β → Json} {c : Complaint}
    (h : MembersFaithful k names read write) (hn : names.Nodup)
    (hw : ∀ a b, f a = .ok b → write' b = .obj (write a)) :
    Faithful (k + 1) (fun src j => record c j >>= fun ms => read src ms >>= f) write' := by
  constructor
  intro src b j hread
  obtain ⟨ms, hms, hread⟩ := bind_eq_ok.mp hread
  obtain ⟨a, ha, hf⟩ := bind_eq_ok.mp hread
  rw [record_eq_ok.mp hms]
  have hkept := h.kept hn _ ha
  rw [hw a b hf]
  constructor
  · intro src
    refine bind_eq_ok.mpr ⟨write a, record_eq_ok.mpr rfl, bind_eq_ok.mpr ⟨a, ?_, hf⟩⟩
    exact hkept.back src (write a) (fun _ _ => rfl)
  · exact .obj (hkept.names_eq ▸ hn) hkept.tidy
  · intro hl
    rw [Json.throughout_obj] at hl
    exact .obj (hkept.legible hl)

theorem Faithful.bind {f : α → Except Fault β} {write' : β → Json} (h : Faithful k read write)
    (hw : ∀ a b, f a = .ok b → write' b = write a) :
    Faithful k (fun src j => read src j >>= f) write' := by
  constructor
  intro src b j hread
  obtain ⟨a, ha, hf⟩ := bind_eq_ok.mp hread
  have hkept := h.kept _ ha
  rw [hw a b hf]
  exact ⟨fun src => bind_eq_ok.mpr ⟨a, hkept.back src, hf⟩, hkept.tidy, hkept.legible⟩

theorem Faithful.map {f : α → β} {write' : β → Json} (h : Faithful k read write)
    (hw : ∀ a, write' (f a) = write a) :
    Faithful k (fun src j => (read src j).map f) write' := by
  constructor
  intro src b j hread
  obtain ⟨a, ha, rfl⟩ := map_eq_ok.mp hread
  have hkept := h.kept _ ha
  rw [hw a]
  exact ⟨fun src => map_eq_ok.mpr ⟨a, hkept.back src, rfl⟩, hkept.tidy, hkept.legible⟩

theorem exists_of_forall₂ {R : α → β → Prop} {as : List α} {bs : List β}
    (h : List.Forall₂ R as bs) : ∀ b ∈ bs, ∃ a ∈ as, R a b := by
  induction h with
  | nil => simp
  | cons hab _ ih =>
    rw [List.forall_mem_cons]
    refine ⟨⟨_, List.mem_cons_self, hab⟩, ?_⟩
    intro b hb
    obtain ⟨a, ha, hab⟩ := ih b hb
    exact ⟨a, List.mem_cons_of_mem _ ha, hab⟩

theorem Faithful.list (h : Faithful k read write) :
    Faithful (k + 1) (fun src => Schema.list (read src)) fun as => .arr (as.map write) := by
  constructor
  intro src as j hread
  obtain ⟨js, rfl, hall⟩ := list_eq_ok.mp hread
  have hkept : ∀ a ∈ as, ∃ j ∈ js, Kept k read a j (write a) := by
    intro a ha
    obtain ⟨j, hj, hread⟩ := exists_of_forall₂ hall a ha
    exact ⟨j, hj, h.kept _ hread⟩
  constructor
  · intro src
    refine list_eq_ok.mpr ⟨as.map write, rfl, List.forall₂_map_left_iff.mpr ?_⟩
    rw [List.forall₂_same]
    intro a ha
    obtain ⟨j, -, hkept⟩ := hkept a ha
    exact hkept.back src
  · apply Json.Tidy.arr
    rw [List.forall_mem_map]
    intro a ha
    obtain ⟨j, -, hkept⟩ := hkept a ha
    exact hkept.tidy
  · rw [Json.throughout_arr, Json.throughout_arr, List.forall_mem_map]
    intro hl a ha
    obtain ⟨j, hj, hkept⟩ := hkept a ha
    exact hkept.legible (hl j hj)

/-- A reader that takes only some of what another one reads. -/
theorem Faithful.restrict {P : α → Prop} {read' : Source → Json → Except Fault { a // P a }}
    (h : Faithful k read write)
    (hr : ∀ src j x, read' src j = .ok x ↔ read src j = .ok x.val) :
    Faithful k read' fun x => write x.val := by
  constructor
  intro src x j hread
  have hkept := h.kept _ ((hr src j x).mp hread)
  exact ⟨fun src => (hr src _ x).mpr (hkept.back src), hkept.tidy, hkept.legible⟩

theorem Faithful.listOfTwo (h : Faithful k read write) :
    Faithful (k + 1) (fun src => Schema.listOfTwo (read src))
      fun as => .arr (as.val.map write) :=
  h.list.restrict fun _ _ _ => listOfTwo_eq_ok

section Tagged

variable {variants : List (String × (Source → Json → Except Fault α))}
variable {readers : List (String × (Json → Except Fault α))}

theorem tagged_eq_ok : tagged src readers j = .ok a ↔
    ∃ tag read, j.get? "kind" = some (.str tag) ∧ readers.lookup tag = some read ∧
      read j = .ok a := by
  constructor
  · intro h
    obtain ⟨ms, hms, h⟩ := bind_eq_ok.mp h
    obtain rfl := record_eq_ok.mp hms
    split at h
    · cases h
    · rename_i tag htag
      split at h
      · rename_i read hread
        exact ⟨tag, read, htag, hread, within_eq_ok.mp h⟩
      · cases h
    · cases h
  · rintro ⟨tag, read, htag, hread, h⟩
    cases j with
    | obj ms =>
      change ms.lookup "kind" = _ at htag
      simp [tagged, record, htag, hread, h]
    | _ => cases htag

theorem lookup_map_reader (tag : String) :
    (variants.map fun v => (v.1, v.2 src)).lookup tag = (variants.lookup tag).map (· src) := by
  induction variants with
  | nil => rfl
  | cons v variants ih =>
    rw [List.map_cons, List.lookup_cons, List.lookup_cons, ih]
    cases tag == v.1 <;> rfl

/-- One of the kinds of a document. It writes its tag. -/
structure Kind (k : Nat) (write : α → Json) (tag : String)
    (read : Source → Json → Except Fault α) : Prop where
  faithful : Faithful k read write
  writes : ∀ {src j a}, read src j = .ok a → (write a).get? "kind" = some (.str tag)

theorem Faithful.kind {f : α → β} {write' : β → Json} {tag : String}
    (h : Faithful k read write) (hw : ∀ a, write' (f a) = write a)
    (ht : ∀ a, (write a).get? "kind" = some (.str tag)) :
    Kind k write' tag fun src j => (read src j).map f := by
  refine ⟨h.map hw, ?_⟩
  intro src j b hb
  obtain ⟨a, -, rfl⟩ := map_eq_ok.mp hb
  rw [hw]
  exact ht a

theorem Faithful.tagged (h : ∀ v ∈ variants, Kind k write v.1 v.2) :
    Faithful k (fun src => Liquidity.tagged src (variants.map fun v => (v.1, v.2 src))) write := by
  constructor
  intro src a j hread
  obtain ⟨tag, read, -, hlookup, hread⟩ := tagged_eq_ok.mp hread
  rw [lookup_map_reader] at hlookup
  obtain ⟨read, hvariant, rfl⟩ := Option.map_eq_some_iff.mp hlookup
  have hkind := h _ (mem_of_lookup hvariant)
  have hkept := hkind.faithful.kept _ hread
  refine ⟨?_, hkept.tidy, hkept.legible⟩
  intro src
  refine tagged_eq_ok.mpr ⟨tag, read src, hkind.writes hread, ?_, hkept.back src⟩
  rw [lookup_map_reader, hvariant]
  rfl

end Tagged
end Combinators
end Liquidity.Schema
