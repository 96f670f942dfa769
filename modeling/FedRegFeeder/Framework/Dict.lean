import Mathlib.Data.List.Nodup

/-!
# Insertion-ordered dictionaries

Dictionaries that remember the order in which their keys were first stored,
as Python's do: storing under a key that is there replaces the value in
place, storing under a new key appends. `Dict` is an association list that
carries the proof that its keys are distinct.

* `get?_set`, `get?_erase`: lookups after a store and after a removal;
* `get?_ofList`: in a dictionary built from a list of pairs, the last pair of
  a key wins;
* `erase_ofList`: removing a key afterwards is leaving its pairs out.
-/

namespace Framework

universe u

/-- An association list with distinct keys. -/
structure Dict (κ α : Type u) where
  entries : List (κ × α)
  nodup : (entries.map Prod.fst).Nodup

namespace Dict

variable {κ α : Type u}

def keys (d : Dict κ α) : List κ := d.entries.map Prod.fst

def values (d : Dict κ α) : List α := d.entries.map Prod.snd

def empty : Dict κ α := ⟨[], List.nodup_nil⟩

variable [DecidableEq κ]

/-- The value stored under `k`. -/
def get? (d : Dict κ α) (k : κ) : Option α := (d.entries.find? (·.1 = k)).map Prod.snd

/-- The entries after storing `v` under `k`. -/
def setEntries (k : κ) (v : α) : List (κ × α) → List (κ × α)
  | [] => [(k, v)]
  | e :: es => if e.1 = k then (k, v) :: es else e :: setEntries k v es

theorem map_fst_setEntries (k : κ) (v : α) (es : List (κ × α)) :
    (setEntries k v es).map Prod.fst =
      if k ∈ es.map Prod.fst then es.map Prod.fst else es.map Prod.fst ++ [k] := by
  induction es with
  | nil => rfl
  | cons e es ih =>
    by_cases h : e.1 = k
    · simp [setEntries, h]
    · simp only [setEntries, h, ite_false, List.map_cons, ih, List.mem_cons, Ne.symm h, false_or]
      split <;> rfl

/-- Storing `v` under `k`. -/
def set (d : Dict κ α) (k : κ) (v : α) : Dict κ α :=
  ⟨setEntries k v d.entries, by
    rw [map_fst_setEntries]
    split
    · exact d.nodup
    · rename_i h
      exact List.nodup_append.mpr ⟨d.nodup, List.nodup_singleton k,
        fun a ha b hb => by rw [List.mem_singleton.mp hb]; rintro rfl; exact h ha⟩⟩

/-- Removing `k`. -/
def erase (d : Dict κ α) (k : κ) : Dict κ α :=
  ⟨d.entries.filter (·.1 ≠ k), d.nodup.sublist (List.filter_sublist.map Prod.fst)⟩

/-- `pop(k, None)`: the value under `k`, and the dictionary without it. -/
def pop (d : Dict κ α) (k : κ) : Option α × Dict κ α := (d.get? k, d.erase k)

/-- The dictionary of a list of pairs, stored in order. -/
def ofList (l : List (κ × α)) : Dict κ α := l.foldl (fun d e => d.set e.1 e.2) empty

/-! ## Lookups -/

theorem get?_eq_some_iff {d : Dict κ α} {k : κ} {v : α} :
    d.get? k = some v ↔ (k, v) ∈ d.entries := by
  obtain ⟨es, hn⟩ := d
  simp only [get?]
  induction es with
  | nil => simp
  | cons e es ih =>
    obtain ⟨k', v'⟩ := e
    simp only [List.map_cons, List.nodup_cons] at hn
    by_cases h : k' = k
    · subst h
      have hk : (k', v) ∉ es := fun hm => hn.1 (List.mem_map_of_mem (f := Prod.fst) hm)
      simp [List.find?_cons_of_pos, hk, eq_comm]
    · have hne : ¬ k = k' := fun e => h e.symm
      simp only [List.mem_cons, Prod.mk.injEq, hne, false_and, false_or]
      rw [List.find?_cons_of_neg (by simpa using h), ih hn.2]

@[simp] theorem get?_empty (k : κ) : (empty : Dict κ α).get? k = none := rfl

theorem get?_set (d : Dict κ α) (k k' : κ) (v : α) :
    (d.set k v).get? k' = if k' = k then some v else d.get? k' := by
  obtain ⟨es, hn⟩ := d
  simp only [get?, set]
  clear hn
  induction es with
  | nil =>
    by_cases h : k' = k
    · simp [setEntries, h]
    · simp [setEntries, h, Ne.symm h]
  | cons e es ih =>
    by_cases he : e.1 = k
    · by_cases h : k' = k
      · simp [setEntries, he, h]
      · simp [setEntries, he, h, Ne.symm h]
    · simp only [setEntries, he, ite_false]
      by_cases h : e.1 = k'
      · have hk : ¬ k' = k := h ▸ he
        simp [h, hk]
      · rw [List.find?_cons_of_neg (by simpa using h), ih, List.find?_cons_of_neg (by simpa using h)]

theorem get?_erase (d : Dict κ α) (k k' : κ) :
    (d.erase k).get? k' = if k' = k then none else d.get? k' := by
  obtain ⟨es, hn⟩ := d
  simp only [get?, erase, List.find?_filter]
  by_cases h : k' = k
  · subst h
    simp
  · simp only [h, ite_false]
    congr 2
    funext e
    by_cases he : e.1 = k' <;> simp [he, h]

theorem get?_ofList (l : List (κ × α)) (k : κ) :
    (ofList l).get? k = (l.reverse.find? (·.1 = k)).map Prod.snd := by
  have gen : ∀ (l : List (κ × α)) (d : Dict κ α),
      (l.foldl (fun d e => d.set e.1 e.2) d).get? k =
        ((l.reverse.find? (·.1 = k)).map Prod.snd).or (d.get? k) := by
    intro l
    induction l with
    | nil => intro d; rfl
    | cons e l ih =>
      intro d
      rw [List.foldl_cons, ih, get?_set, List.reverse_cons, List.find?_append]
      cases l.reverse.find? (·.1 = k) with
      | some e' => rfl
      | none =>
        by_cases h : e.1 = k
        · simp [h]
        · simp [h, Ne.symm h]
  rw [ofList, gen l empty, get?_empty, Option.or_none]

/-- Storing what is there changes nothing. -/
theorem set_eq_self {d : Dict κ α} {k : κ} {v : α} (h : d.get? k = some v) : d.set k v = d := by
  obtain ⟨es, hn⟩ := d
  rw [get?_eq_some_iff] at h
  have hentries : ∀ l : List (κ × α), (l.map Prod.fst).Nodup → (k, v) ∈ l → setEntries k v l = l := by
    intro l hl
    induction l with
    | nil => exact nofun
    | cons e l ih =>
      intro hmem
      obtain ⟨he, hl⟩ := List.nodup_cons.mp hl
      rcases List.mem_cons.mp hmem with rfl | hmem
      · exact if_pos rfl
      · have hne : e.1 ≠ k := fun heq => he (heq ▸ List.mem_map_of_mem (f := Prod.fst) hmem)
        rw [setEntries, if_neg hne, ih hl hmem]
  show Dict.mk (setEntries k v es) _ = _
  simp only [hentries es hn h]

/-! ## Removing a key -/

theorem filter_setEntries_self (k : κ) (v : α) (es : List (κ × α)) :
    (setEntries k v es).filter (·.1 ≠ k) = es.filter (·.1 ≠ k) := by
  induction es with
  | nil => simp [setEntries]
  | cons e es ih =>
    by_cases h : e.1 = k
    · simp [setEntries, h]
    · simp only [setEntries, h, ite_false, List.filter_cons, ih]

theorem filter_setEntries_ne {k k' : κ} (h : k ≠ k') (v : α) (es : List (κ × α)) :
    (setEntries k v es).filter (·.1 ≠ k') = setEntries k v (es.filter (·.1 ≠ k')) := by
  induction es with
  | nil => simp [setEntries, h]
  | cons e es ih =>
    by_cases he : e.1 = k
    · simp [setEntries, he, h]
    · rw [setEntries, if_neg he, List.filter_cons, List.filter_cons, ih]
      split
      · rw [setEntries, if_neg he]
      · rfl

theorem erase_set_self (d : Dict κ α) (k : κ) (v : α) : (d.set k v).erase k = d.erase k := by
  simp only [erase, set, filter_setEntries_self]

theorem erase_set_ne {k k' : κ} (h : k ≠ k') (d : Dict κ α) (v : α) :
    (d.set k v).erase k' = (d.erase k').set k v := by
  simp only [erase, set, filter_setEntries_ne h]

theorem erase_ofList (l : List (κ × α)) (k : κ) :
    (ofList l).erase k = ofList (l.filter (·.1 ≠ k)) := by
  have gen : ∀ (l : List (κ × α)) (d : Dict κ α),
      (l.foldl (fun d e => d.set e.1 e.2) d).erase k =
        (l.filter (·.1 ≠ k)).foldl (fun d e => d.set e.1 e.2) (d.erase k) := by
    intro l
    induction l with
    | nil => intro d; rfl
    | cons e l ih =>
      intro d
      rw [List.foldl_cons, ih]
      by_cases h : e.1 = k
      · rw [← h, erase_set_self, List.filter_cons_of_neg (by simp)]
      · rw [erase_set_ne h, List.filter_cons_of_pos (by simpa using h), List.foldl_cons]
  exact gen l empty

end Dict

end Framework
