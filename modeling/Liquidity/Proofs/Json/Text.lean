import Liquidity.Json.Reader
import Liquidity.Proofs.Json.Scalar
import Liquidity.Proofs.Json.Shape

/-! The compact text of a tidy value is read as that value. The reader is followed through the
text: in front of a value it comes to the state behind that value. -/

namespace Liquidity.Json
set_option autoImplicit false

variable {limit : Nat} {s : State} {stack : List Frame} {cs rest : List Char}

/-- What the reader makes of the characters that follow. -/
def consume (limit : Nat) (s : State) (cs : List Char) : Option State :=
  (tokens cs).bind (run limit s)

theorem consume_of_tokens {t : Token} {ts : Option (List Token)}
    (h : tokens cs = ts.map (t :: ·)) :
    consume limit s cs = (step limit s t).bind fun s => ts.bind (run limit s) := by
  unfold consume
  rw [h]
  cases ts with
  | none => cases step limit s t <;> rfl
  | some ts => cases hs : step limit s t <;> simp [run, hs]

theorem consume_punctuation {c : Char} {t : Token} (h : punctuation? c = some t) :
    consume limit s (c :: rest) = (step limit s t).bind (consume limit · rest) := by
  have hgap : isGap c = false := by
    have hc : (punctuation? c).isSome := by rw [h]; rfl
    rcases punctuation?_cases hc with rfl | rfl | rfl | rfl | rfl | rfl <;> rfl
  apply consume_of_tokens
  rw [tokens, hgap, h]
  rfl

theorem scanScalar_gap {c : Char} (h : isGap c) : scanScalar (c :: rest) = none := by
  simp only [isGap, Bool.or_eq_true, beq_iff_eq] at h
  rcases h with ((rfl | rfl) | rfl) | rfl <;> rfl

theorem scanScalar_punctuation {c : Char} (h : (punctuation? c).isSome) :
    scanScalar (c :: rest) = none := by
  rcases punctuation?_cases h with rfl | rfl | rfl | rfl | rfl | rfl <;> rfl

theorem consume_scalar {j : Json} (h : scanScalar cs = some (j, rest)) :
    consume limit s cs = (step limit s (.scalar j)).bind (consume limit · rest) := by
  apply consume_of_tokens
  cases cs with
  | nil => cases h
  | cons c cs =>
    have hgap : isGap c = false := by
      by_contra hgap
      rw [scanScalar_gap (by simpa using hgap)] at h
      cases h
    have hp : punctuation? c = none := by
      by_contra hp
      rw [scanScalar_punctuation (Option.isSome_iff_ne_none.mpr hp)] at h
      cases h
    rw [tokens, hgap, hp]
    simp only [Bool.false_eq_true, if_false]
    split
    · rename_i hs
      rw [h] at hs
      obtain ⟨rfl, rfl⟩ := Prod.mk.inj (Option.some.inj hs)
      rfl
    · rename_i hs
      rw [h] at hs
      cases hs

/-- A value may begin here, inside of the open containers. -/
def Opens (limit : Nat) (s : State) (stack : List Frame) : Prop :=
  ∀ t, t ≠ .closeArr → step limit s t = begin stack t

/-- A name may come here, behind the members of an open object. -/
def Names (limit : Nat) (s : State) (stack : List Frame) (ms : Members) : Prop :=
  ∀ name, step limit s (.scalar (.str name)) = some (.colon stack ms name)

theorem opens_value : Opens limit (.value stack) stack := fun _ _ => rfl

theorem names_name {ms : Members} : Names limit (.name stack ms) stack ms := fun _ => rfl

theorem names_firstName : Names limit (.firstName stack) stack [] := fun _ => rfl

theorem opens_firstItem (h : stack.length < limit) :
    Opens limit (.firstItem stack) (.arr [] :: stack) := by
  intro t ht
  cases t <;> simp_all [step, push]

theorem put_of_notMem {ms : Members} {name : String} {j : Json} (h : name ∉ ms.map Prod.fst) :
    ms.put name j = ms ++ [(name, j)] := by
  induction ms with
  | nil => rfl
  | cons m ms ih =>
    rw [List.map_cons, List.mem_cons, not_or] at h
    rw [Members.put, if_neg (Ne.symm h.1), ih h.2]
    rfl

theorem notMem_of_nodup {ms acc : Members} {m : String × Json}
    (h : ((acc ++ m :: ms).map Prod.fst).Nodup) : m.1 ∉ acc.map Prod.fst := by
  rw [List.map_append, List.nodup_append] at h
  intro hmem
  exact h.2.2 m.1 hmem m.1 List.mem_cons_self rfl

/-- The reader gets over the text of `j`, wherever a value may begin. -/
def Consumed (limit k : Nat) (j : Json) : Prop :=
  ∀ {s stack rest}, Opens limit s stack → Stops rest → stack.length + k ≤ limit + 1 →
    consume limit s (chars j ++ rest) = consume limit (.after stack j) rest

theorem consume_items {k : Nat} {x : Json} {xs acc : List Json}
    (hc : ∀ j ∈ x :: xs, Consumed limit k j) (hs : Opens limit s (.arr acc :: stack))
    (hk : stack.length + 1 + k ≤ limit + 1) :
    consume limit s (itemChars (x :: xs) ++ ']' :: rest) =
      consume limit (.after stack (.arr (acc.reverse ++ x :: xs))) rest := by
  -- Over the items still to come, behind any that the frame holds already, the last one first.
  induction xs generalizing x acc s with
  | nil =>
    rw [itemChars, hc x List.mem_cons_self hs (.cons rfl rest) hk, consume_punctuation rfl]
    simp [step]
  | cons y ys ih =>
    rw [itemChars.eq_3 _ _ (by simp), List.append_assoc, List.cons_append,
      hc x List.mem_cons_self hs (.cons rfl _) hk, consume_punctuation rfl]
    change consume limit (.value (.arr (x :: acc) :: stack)) _ = _
    rw [ih (fun j hj => hc j (List.mem_cons_of_mem x hj)) opens_value]
    simp

theorem consume_member {k : Nat} {ms : Members} {name : String} {x : Json}
    (hs : Names limit s stack ms) (hx : Consumed limit k x) (hrest : Stops rest)
    (hk : stack.length + 1 + k ≤ limit + 1) (hlimit : stack.length < limit) :
    consume limit s (quote name ++ ':' :: (chars x ++ rest)) =
      consume limit (.after (.obj ms name :: stack) x) rest := by
  rw [consume_scalar (scanScalar_quote name _), hs name, Option.bind_some,
    consume_punctuation rfl]
  simp only [step, push, hlimit, if_true, Option.map_some, Option.bind_some]
  exact hx opens_value hrest hk

theorem consume_members {k : Nat} {m : String × Json} {ms acc : Members}
    (hc : ∀ x ∈ m :: ms, Consumed limit k x.2) (hs : Names limit s stack acc)
    (hn : ((acc ++ m :: ms).map Prod.fst).Nodup) (hk : stack.length + 1 + k ≤ limit + 1)
    (hlimit : stack.length < limit) :
    consume limit s (memberChars (m :: ms) ++ '}' :: rest) =
      consume limit (.after stack (.obj (acc ++ m :: ms))) rest := by
  induction ms generalizing m acc s with
  | nil =>
    -- A new name goes to the end; a repeated one would take the place of its first member.
    have hput : acc.put m.1 m.2 = acc ++ [m] := put_of_notMem (notMem_of_nodup hn)
    rw [memberChars, List.append_assoc, List.cons_append,
      consume_member hs (hc m List.mem_cons_self) (.cons rfl rest) hk hlimit,
      consume_punctuation rfl]
    simp [step, hput]
  | cons m' ms ih =>
    have hput : acc.put m.1 m.2 = acc ++ [m] := put_of_notMem (notMem_of_nodup hn)
    rw [memberChars.eq_3 _ _ _ (by simp), List.append_assoc, List.cons_append, List.append_assoc,
      List.cons_append, consume_member hs (hc m List.mem_cons_self) (.cons rfl _) hk hlimit,
      consume_punctuation rfl]
    change consume limit (.name stack (acc.put m.1 m.2)) _ = _
    rw [hput, ih (fun x hx => hc x (List.mem_cons_of_mem m hx)) names_name]
    · rw [List.append_assoc, List.singleton_append]
    · simpa using hn

theorem consume_chars {k : Nat} {j : Json} (hj : Tidy k j) (hl : j.Throughout Legible) :
    Consumed limit k j := by
  induction hj with
  | null =>
    intro s stack rest hs hrest hk
    exact (consume_scalar rfl).trans (by rw [hs _ (by simp)]; rfl)
  | bool b =>
    intro s stack rest hs hrest hk
    cases b <;> exact (consume_scalar rfl).trans (by rw [hs _ (by simp)]; rfl)
  | int n =>
    intro s stack rest hs hrest hk
    rw [throughout_int] at hl
    rw [chars, consume_scalar (scanScalar_intNumeral hl hrest), hs _ (by simp)]
    rfl
  | str t =>
    intro s stack rest hs hrest hk
    rw [chars, consume_scalar (scanScalar_quote t rest), hs _ (by simp)]
    rfl
  | @arr k items htidy ih =>
    intro s stack rest hs hrest hk
    rw [throughout_arr] at hl
    rw [chars, List.cons_append, List.cons_append, List.append_assoc, List.singleton_append,
      consume_punctuation rfl, hs _ (by simp)]
    change consume limit (.firstItem stack) _ = _
    cases items with
    | nil => exact consume_punctuation (t := .closeArr) rfl
    | cons x xs =>
      -- An empty list may stand at the last level, but one with items needs a level for them.
      have hpos := (htidy x List.mem_cons_self).pos
      have hlimit : stack.length < limit := by omega
      rw [consume_items (fun j hj => ih j hj (hl j hj)) (opens_firstItem hlimit) (by omega)]
      rfl
  | @obj k ms hn htidy ih =>
    intro s stack rest hs hrest hk
    rw [throughout_obj] at hl
    rw [chars, List.cons_append, List.cons_append, List.append_assoc, List.singleton_append,
      consume_punctuation rfl, hs _ (by simp)]
    change consume limit (.firstName stack) _ = _
    cases ms with
    | nil => exact consume_punctuation (t := .closeObj) rfl
    | cons m ms =>
      have hpos := (htidy m List.mem_cons_self).pos
      have hlimit : stack.length < limit := by omega
      have hc : ∀ x ∈ m :: ms, Consumed limit k x.2 := fun x hx => ih x hx (hl x hx)
      rw [consume_members hc names_firstName hn (by omega) hlimit]
      rfl

/-- Behind the whole text of a tidy value the reader has that value. -/
theorem read?_compact {j : Json} (hj : Tidy (limit + 1) j) (hl : j.Throughout Legible) :
    read? limit j.compact = some j := by
  have hdepth : ([] : List Frame).length + (limit + 1) ≤ limit + 1 := by simp
  have h := consume_chars hj hl opens_value .nil hdepth
  have hend : consume limit (.after [] j) [] = some (.after [] j) := by
    unfold consume
    rw [tokens]
    rfl
  rw [List.append_nil, hend, consume, Option.bind_eq_some_iff] at h
  obtain ⟨ts, hts, hrun⟩ := h
  unfold read? compact
  rw [String.toList_ofList, hts, Option.bind_eq_bind, Option.bind_some, hrun]
  rfl

end Liquidity.Json
