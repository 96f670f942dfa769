import Mathlib.Algebra.BigOperators.Group.List.Basic
import Mathlib.Algebra.Order.BigOperators.Group.List
import Mathlib.Algebra.GroupWithZero.Nat
import Mathlib.Algebra.Order.Group.Multiset
import Mathlib.Algebra.Order.Group.Nat

/-!
# Counting over a list

A count that at most one element of a list without repetitions adds to is at
most one (`sum_le_one`), a count over what a partial function leaves is a count
over the list it started from (`sum_filterMap`), and a count over a sum of
multisets adds up (`countP_sum`). One element is counted if and only if none is
counted elsewhere (`countP_eq_one_iff`). Values that may be missing are distinct
if and only if those that are there are, and at most one is missing
(`nodup_map_iff`).
Nothing here depends on a program.
-/

namespace Framework

variable {α β : Type*}

/-- At most one element adds to the sum, and it adds at most one. -/
theorem sum_le_one {g : α → Nat} : ∀ {l : List α}, l.Nodup → (∀ a ∈ l, g a ≤ 1) →
    (∀ a ∈ l, ∀ b ∈ l, 0 < g a → 0 < g b → a = b) → (l.map g).sum ≤ 1
  | [], _, _, _ => Nat.zero_le _
  | a :: l, hl, hg, h => by
    obtain ⟨ha, hl⟩ := List.nodup_cons.mp hl
    obtain ⟨hga, hg⟩ := List.forall_mem_cons.mp hg
    rw [List.map_cons, List.sum_cons]
    by_cases h0 : g a = 0
    · rw [h0, Nat.zero_add]
      exact sum_le_one hl hg fun b hb c hc =>
        h b (List.mem_cons_of_mem _ hb) c (List.mem_cons_of_mem _ hc)
    · -- no element after `a` adds anything
      have hrest : (l.map g).sum = 0 := by
        refine List.sum_eq_zero fun n hn => ?_
        obtain ⟨b, hb, rfl⟩ := List.mem_map.mp hn
        by_contra hgb
        refine ha ?_
        rw [h a List.mem_cons_self b (List.mem_cons_of_mem _ hb) (by omega) (by omega)]
        exact hb
      omega

theorem sum_filterMap {M : Type*} [AddMonoid M] (f : α → Option β) (g : β → M) :
    ∀ l : List α, ((l.filterMap f).map g).sum = (l.map fun a => (f a).elim 0 g).sum
  | [] => rfl
  | a :: l => by
    rw [List.map_cons, List.sum_cons, ← sum_filterMap f g l]
    cases hf : f a with
    | none => rw [List.filterMap_cons_none hf, Option.elim_none, zero_add]
    | some b => rw [List.filterMap_cons_some hf, List.map_cons, List.sum_cons, Option.elim_some]

theorem countP_sum (p : α → Prop) [DecidablePred p] (l : List (Multiset α)) :
    l.sum.countP p = (l.map fun m => m.countP p).sum :=
  map_list_sum (Multiset.countPAddMonoidHom p) l

theorem countP_le_countP_sum {p : α → Prop} [DecidablePred p] {l : List (Multiset α)}
    {m : Multiset α} (h : m ∈ l) : m.countP p ≤ l.sum.countP p := by
  rw [countP_sum]
  exact List.single_le_sum (fun _ _ => Nat.zero_le _) _ (List.mem_map_of_mem h)

/-- Only the element at `i` is counted. -/
theorem countP_eq_one_iff {p : α → Bool} :
    ∀ {l : List α} {i : Nat} {a : α}, l[i]? = some a → p a = true →
      (l.countP p = 1 ↔ ∀ j b, l[j]? = some b → p b = true → j = i)
  | b :: l, 0, a, h, ha => by
    cases h
    rw [List.countP_cons_of_pos ha, Nat.add_eq_right, List.countP_eq_zero]
    constructor
    · rintro hno (_ | j) c hc hp
      · rfl
      · exact absurd hp (hno c (List.mem_of_getElem? hc))
    · intro honly c hc hp
      obtain ⟨j, hj⟩ := List.mem_iff_getElem?.mp hc
      have hzero := honly (j + 1) c hj hp
      omega
  | b :: l, i + 1, a, h, ha => by
    have h : l[i]? = some a := h
    have hpos : 0 < l.countP p := List.countP_pos_iff.mpr ⟨a, List.mem_of_getElem? h, ha⟩
    by_cases hb : p b = true
    · rw [List.countP_cons_of_pos hb]
      refine iff_of_false (by omega) fun honly => ?_
      have hzero := honly 0 b rfl hb
      omega
    · rw [List.countP_cons_of_neg hb, countP_eq_one_iff h ha]
      constructor
      · rintro honly (_ | j) c hc hp
        · cases hc
          exact absurd hp hb
        · rw [honly j c hc hp]
      · intro honly j c hc hp
        have hsucc := honly (j + 1) c hc hp
        omega

theorem nodup_map_iff {f : α → Option β} : ∀ {l : List α},
    (l.map f).Nodup ↔ (l.filterMap f).Nodup ∧ l.countP (fun a => (f a).isNone) ≤ 1
  | [] => by simp
  | a :: l => by
    rw [List.map_cons, List.nodup_cons, nodup_map_iff (l := l)]
    cases hf : f a with
    | none =>
      have hnone : none ∉ l.map f ↔ l.countP (fun a => (f a).isNone) = 0 := by
        simp [List.countP_eq_zero, Option.isNone_iff_eq_none]
      rw [List.filterMap_cons_none hf, List.countP_cons_of_pos (by rw [hf]; rfl), hnone]
      constructor
      · rintro ⟨hzero, hnodup, -⟩
        exact ⟨hnodup, by omega⟩
      · rintro ⟨hnodup, hone⟩
        exact ⟨by omega, hnodup, by omega⟩
    | some b =>
      have hsome : some b ∉ l.map f ↔ b ∉ l.filterMap f := by
        simp [List.mem_filterMap]
      rw [List.filterMap_cons_some hf, List.countP_cons_of_neg (by rw [hf]; simp), hsome,
        List.nodup_cons, and_assoc]

end Framework
