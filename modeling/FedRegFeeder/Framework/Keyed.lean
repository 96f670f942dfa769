import Mathlib.Algebra.BigOperators.Group.List.Basic
import Mathlib.Data.List.Induction
import Mathlib.Data.List.Nodup
import Mathlib.Tactic.Abel
import FedRegFeeder.Framework.Except
import FedRegFeeder.Framework.Dict

/-!
# Merging lists of records by key

A record is merged into a list (`upsert`) by updating the first record with
the same key, or, when there is none, by appending it; a list of records is
merged into another (`mergeAll`) one record after the other. The update may
fail. What holds of a merge that succeeds, for any key and any update that
keeps the key (`KeepsKey`):

* `mergeAll_mem_keys`, `mergeAll_nodup`: its keys are those of both lists,
  and distinct if the first list's were;
* `mergeAll_forall`: a property of the records that updates keep;
* `mergeAll_exists`: a property that an updated record has exactly if one of
  the two it was made from had it;
* `mergeAll_sum`: a quantity that updates add up;
* `mergeAll_first`, `mergeAll_last`: which record with a key what updates keep,
  or what they replace, comes from;
* `mergeAll_filter`: the records with one key are merged on their own;
* `mergeAll_prod`: at each key, a quantity that updates multiply, in order.

`mergeAll_total` says when a merge succeeds. `upsertDict` is the same step on
a dictionary whose keys are the records' (`upsertDict_values`).
-/

namespace Framework

universe u

variable {α κ ε : Type u} [DecidableEq κ]

/-- Merge `x` into the first record with its key, or append it. -/
def upsert (key : α → κ) (upd : α → α → Except ε α) : List α → α → Except ε (List α)
  | [], x => .ok [x]
  | c :: cs, x =>
    if key c = key x then (upd c x).map (· :: cs) else (upsert key upd cs x).map (c :: ·)

/-- Merge the records of `new` into `cur`, in order. -/
def mergeAll (key : α → κ) (upd : α → α → Except ε α) (cur new : List α) : Except ε (List α) :=
  new.foldlM (upsert key upd) cur

/-- Updating a record with another of the same key keeps the key. -/
def KeepsKey (key : α → κ) (upd : α → α → Except ε α) : Prop :=
  ∀ c x s, key c = key x → upd c x = .ok s → key s = key c

variable {key : α → κ} {upd : α → α → Except ε α}

/-- What `upsert` can do: update one record with the key of `x`, preceded by
none with that key, or append `x` when there is none. -/
theorem upsert_cases {l r : List α} {x : α} (h : upsert key upd l x = .ok r) :
    (∃ pre c post s, l = pre ++ c :: post ∧ key c = key x ∧ (∀ a ∈ pre, key a ≠ key x) ∧
      upd c x = .ok s ∧ r = pre ++ s :: post) ∨
    ((∀ a ∈ l, key a ≠ key x) ∧ r = l ++ [x]) := by
  induction l generalizing r with
  | nil =>
    simp only [upsert, Except.ok.injEq] at h
    exact .inr ⟨by simp, h.symm⟩
  | cons c cs ih =>
    by_cases hk : key c = key x
    · simp only [upsert, hk, ite_true, map_eq_ok] at h
      obtain ⟨s, hs, rfl⟩ := h
      exact .inl ⟨[], c, cs, s, rfl, hk, by simp, hs, rfl⟩
    · simp only [upsert, hk, ite_false, map_eq_ok] at h
      obtain ⟨r', hr', rfl⟩ := h
      rcases ih hr' with ⟨pre, c', post, s, rfl, hc, hpre, hs, rfl⟩ | ⟨hno, rfl⟩
      · exact .inl ⟨c :: pre, c', post, s, rfl, hc, List.forall_mem_cons.mpr ⟨hk, hpre⟩, hs, rfl⟩
      · exact .inr ⟨List.forall_mem_cons.mpr ⟨hk, hno⟩, rfl⟩

theorem mergeAll_nil {cur r : List α} : mergeAll key upd cur [] = .ok r ↔ cur = r := foldlM_nil_ok

theorem mergeAll_cons {cur new r : List α} {x : α} :
    mergeAll key upd cur (x :: new) = .ok r ↔
      ∃ cur', upsert key upd cur x = .ok cur' ∧ mergeAll key upd cur' new = .ok r := foldlM_cons_ok

/-! ## Keys -/

theorem upsert_keys (hk : KeepsKey key upd) {l r : List α} {x : α}
    (h : upsert key upd l x = .ok r) :
    r.map key = if key x ∈ l.map key then l.map key else l.map key ++ [key x] := by
  rcases upsert_cases h with ⟨pre, c, post, s, rfl, hc, -, hs, rfl⟩ | ⟨hno, rfl⟩
  · have hmem : key x ∈ (pre ++ c :: post).map key := List.mem_map.mpr ⟨c, by simp, hc⟩
    rw [if_pos hmem]
    simp only [List.map_append, List.map_cons, hk c x s hc hs]
  · have hmem : key x ∉ l.map key := fun hm => by
      obtain ⟨a, ha, e⟩ := List.mem_map.mp hm
      exact hno a ha e
    rw [if_neg hmem]
    simp only [List.map_append, List.map_cons, List.map_nil]

theorem upsert_mem_keys (hk : KeepsKey key upd) {l r : List α} {x : α}
    (h : upsert key upd l x = .ok r) (k : κ) :
    k ∈ r.map key ↔ k ∈ l.map key ∨ k = key x := by
  rw [upsert_keys hk h]
  split
  · rename_i hx; exact ⟨.inl, fun h' => h'.elim id (· ▸ hx)⟩
  · rw [List.mem_append, List.mem_singleton]

theorem mergeAll_mem_keys (hk : KeepsKey key upd) {cur new r : List α}
    (h : mergeAll key upd cur new = .ok r) (k : κ) :
    k ∈ r.map key ↔ k ∈ cur.map key ∨ k ∈ new.map key := by
  induction new generalizing cur with
  | nil => rw [mergeAll_nil.mp h]; simp
  | cons x new ih =>
    obtain ⟨cur', h₁, h₂⟩ := mergeAll_cons.mp h
    rw [ih h₂, upsert_mem_keys hk h₁, List.map_cons, List.mem_cons, or_assoc]

theorem upsert_nodup (hk : KeepsKey key upd) {l r : List α} {x : α} (hl : (l.map key).Nodup)
    (h : upsert key upd l x = .ok r) : (r.map key).Nodup := by
  rw [upsert_keys hk h]
  split
  · exact hl
  · rename_i hx
    exact List.nodup_append.mpr ⟨hl, List.nodup_singleton _,
      fun a ha b hb => by rw [List.mem_singleton.mp hb]; rintro rfl; exact hx ha⟩

theorem mergeAll_nodup (hk : KeepsKey key upd) {cur new r : List α} (hc : (cur.map key).Nodup)
    (h : mergeAll key upd cur new = .ok r) : (r.map key).Nodup :=
  foldlM_inv (P := fun l => (l.map key).Nodup) (fun _ _ _ _ hl hs => upsert_nodup hk hl hs) hc h

/-! ## Records -/

theorem upsert_forall {P : α → Prop} {l r : List α} {x : α}
    (hP : ∀ c s, key c = key x → P c → P x → upd c x = .ok s → P s)
    (hl : ∀ a ∈ l, P a) (hx : P x) (h : upsert key upd l x = .ok r) : ∀ a ∈ r, P a := by
  rcases upsert_cases h with ⟨pre, c, post, s, rfl, hc, -, hs, rfl⟩ | ⟨-, rfl⟩
  · simp only [List.mem_append, List.mem_cons] at hl ⊢
    rintro a (ha | rfl | ha)
    · exact hl a (.inl ha)
    · exact hP c a hc (hl c (.inr (.inl rfl))) hx hs
    · exact hl a (.inr (.inr ha))
  · exact fun a ha => (List.mem_append.mp ha).elim (hl a) fun h => List.mem_singleton.mp h ▸ hx

/-- A property of all records that updates keep. -/
theorem mergeAll_forall {P : α → Prop} {cur new r : List α}
    (hP : ∀ c x s, key c = key x → P c → P x → upd c x = .ok s → P s)
    (hc : ∀ a ∈ cur, P a) (hn : ∀ a ∈ new, P a) (h : mergeAll key upd cur new = .ok r) :
    ∀ a ∈ r, P a :=
  foldlM_inv (P := fun l => ∀ a ∈ l, P a)
    (fun _ x _ hx hl hs => upsert_forall (fun c s => hP c x s) hl (hn x hx) hs) hc h

theorem upsert_exists {P : α → Prop} {l r : List α} {x : α}
    (hP : ∀ c s, key c = key x → upd c x = .ok s → (P s ↔ P c ∨ P x))
    (h : upsert key upd l x = .ok r) : (∃ a ∈ r, P a) ↔ (∃ a ∈ l, P a) ∨ P x := by
  rcases upsert_cases h with ⟨pre, c, post, s, rfl, hc, -, hs, rfl⟩ | ⟨-, rfl⟩
  · simp only [List.mem_append, List.mem_cons, or_and_right, exists_or, exists_eq_left, hP c s hc hs,
      or_assoc, or_comm (a := P x)]
  · simp only [List.mem_append, List.mem_singleton, or_and_right, exists_or, exists_eq_left]

/-- A property that an updated record has exactly if one of the two had it. -/
theorem mergeAll_exists {P : α → Prop} {cur new r : List α}
    (hP : ∀ c, ∀ x ∈ new, ∀ s, key c = key x → upd c x = .ok s → (P s ↔ P c ∨ P x))
    (h : mergeAll key upd cur new = .ok r) :
    (∃ a ∈ r, P a) ↔ (∃ a ∈ cur, P a) ∨ ∃ a ∈ new, P a := by
  induction new generalizing cur with
  | nil => rw [mergeAll_nil.mp h]; simp
  | cons x new ih =>
    obtain ⟨cur', h₁, h₂⟩ := mergeAll_cons.mp h
    rw [ih (fun c y hy => hP c y (List.mem_cons_of_mem _ hy)) h₂,
      upsert_exists (fun c s => hP c x List.mem_cons_self s) h₁, List.exists_mem_cons_iff, or_assoc]

theorem upsert_sum {M : Type*} [AddCommMonoid M] {w : α → M} {l r : List α} {x : α}
    (hw : ∀ c s, key c = key x → upd c x = .ok s → w s = w c + w x)
    (h : upsert key upd l x = .ok r) : (r.map w).sum = (l.map w).sum + w x := by
  rcases upsert_cases h with ⟨pre, c, post, s, rfl, hc, -, hs, rfl⟩ | ⟨-, rfl⟩
  · simp only [List.map_append, List.map_cons, List.sum_append, List.sum_cons, hw c s hc hs]
    abel
  · simp

/-- A quantity that updates add up. -/
theorem mergeAll_sum {M : Type*} [AddCommMonoid M] {w : α → M} {cur new r : List α}
    (hw : ∀ c x s, key c = key x → upd c x = .ok s → w s = w c + w x)
    (h : mergeAll key upd cur new = .ok r) :
    (r.map w).sum = (cur.map w).sum + (new.map w).sum := by
  induction new generalizing cur with
  | nil => rw [mergeAll_nil.mp h]; simp
  | cons x new ih =>
    obtain ⟨cur', h₁, h₂⟩ := mergeAll_cons.mp h
    rw [ih h₂, upsert_sum (fun c s => hw c x s) h₁, List.map_cons, List.sum_cons, add_assoc]

/-! ## Merges into the empty list -/

section
variable {β : Type*} {f : β → α} {l : List β} {r : List α}

theorem mergeAll_map_mem_keys (hk : KeepsKey key upd) (h : mergeAll key upd [] (l.map f) = .ok r)
    (k : κ) : k ∈ r.map key ↔ ∃ b ∈ l, key (f b) = k := by
  rw [mergeAll_mem_keys hk h]
  simp

theorem mergeAll_empty_nodup (hk : KeepsKey key upd) {new : List α}
    (h : mergeAll key upd [] new = .ok r) : (r.map key).Nodup :=
  @mergeAll_nodup α κ ε _ key upd hk [] new r List.nodup_nil h

theorem mergeAll_map_forall {P : α → Prop}
    (hP : ∀ c x s, key c = key x → P c → P x → upd c x = .ok s → P s) (hl : ∀ b ∈ l, P (f b))
    (h : mergeAll key upd [] (l.map f) = .ok r) : ∀ a ∈ r, P a :=
  mergeAll_forall hP (List.forall_mem_nil P) (List.forall_mem_map.mpr hl) h

theorem mergeAll_map_exists {P : α → Prop}
    (hP : ∀ c, ∀ b ∈ l, ∀ s, key c = key (f b) → upd c (f b) = .ok s → (P s ↔ P c ∨ P (f b)))
    (h : mergeAll key upd [] (l.map f) = .ok r) : (∃ a ∈ r, P a) ↔ ∃ b ∈ l, P (f b) := by
  rw [mergeAll_exists (fun c => List.forall_mem_map.mpr (hP c)) h]
  simp

theorem mergeAll_map_sum {M : Type*} [AddCommMonoid M] {w : α → M}
    (hw : ∀ c x s, key c = key x → upd c x = .ok s → w s = w c + w x)
    (h : mergeAll key upd [] (l.map f) = .ok r) : (r.map w).sum = (l.map fun b => w (f b)).sum := by
  rw [mergeAll_sum hw h, List.map_nil, List.sum_nil, zero_add, List.map_map]
  rfl

end

/-! ## Where a record comes from -/

theorem mergeAll_concat {cur new r : List α} {x : α} :
    mergeAll key upd cur (new ++ [x]) = .ok r ↔
      ∃ r', mergeAll key upd cur new = .ok r' ∧ upsert key upd r' x = .ok r := by
  simp only [mergeAll, List.foldlM_append, bind_eq_ok, foldlM_cons_ok, foldlM_nil_ok, exists_eq_right]

/-- What updates keep of a record is that of the first with its key. -/
theorem mergeAll_first {β : Type*} {attr : α → β} (hk : KeepsKey key upd)
    (hattr : ∀ c x s, key c = key x → upd c x = .ok s → attr s = attr c) {new r : List α}
    (h : mergeAll key upd [] new = .ok r) {a : α} (ha : a ∈ r) :
    ∃ before x after, new = before ++ x :: after ∧ key x = key a ∧ attr x = attr a ∧
      ∀ b ∈ before, key b ≠ key a := by
  induction new using List.reverseRecOn generalizing r a with
  | nil =>
    rw [← mergeAll_nil.mp h] at ha
    cases ha
  | append_singleton new y ih =>
    obtain ⟨r', hr', hy⟩ := mergeAll_concat.mp h
    -- what came from a record before comes from it still
    have hold : ∀ c ∈ r', key c = key a → attr c = attr a →
        ∃ before x after, new ++ [y] = before ++ x :: after ∧ key x = key a ∧ attr x = attr a ∧
          ∀ b ∈ before, key b ≠ key a := by
      intro c hc hca hattr
      obtain ⟨before, x, after, rfl, hx, hxattr, hbefore⟩ := ih hr' hc
      refine ⟨before, x, after ++ [y], ?_, hx.trans hca, hxattr.trans hattr, hca ▸ hbefore⟩
      rw [List.append_assoc, List.cons_append]
    rcases upsert_cases hy with ⟨pre, c, post, s, rfl, hc, -, hs, rfl⟩ | ⟨hno, rfl⟩
    · rcases List.mem_append.mp ha with ha | ha
      · exact hold a (List.mem_append_left _ ha) rfl rfl
      · rcases List.mem_cons.mp ha with rfl | ha
        · refine hold c (List.mem_append_right _ List.mem_cons_self) ?_ ?_
          · exact (hk c y a hc hs).symm
          · exact (hattr c y a hc hs).symm
        · exact hold a (List.mem_append_right _ (List.mem_cons_of_mem _ ha)) rfl rfl
    · rcases List.mem_append.mp ha with ha | ha
      · exact hold a ha rfl rfl
      · rw [List.mem_singleton.mp ha]
        refine ⟨new, y, [], rfl, rfl, rfl, fun b hb hby => ?_⟩
        have hmem : key y ∈ r'.map key :=
          (mergeAll_mem_keys hk hr' _).mpr (.inr (hby ▸ List.mem_map_of_mem hb))
        obtain ⟨c, hc, hcy⟩ := List.mem_map.mp hmem
        exact hno c hc hcy

/-- Where updates replace a record by the new one, it is the last with its key. -/
theorem mergeAll_last (hupd : ∀ c x, upd c x = .ok x) {new r : List α}
    (h : mergeAll key upd [] new = .ok r) {a : α} (ha : a ∈ r) :
    ∃ before after, new = before ++ a :: after ∧ ∀ b ∈ after, key b ≠ key a := by
  have hk : KeepsKey key upd := fun c x s hc hs => by
    rw [hupd] at hs
    rw [← Except.ok.inj hs, hc]
  induction new using List.reverseRecOn generalizing r a with
  | nil =>
    rw [← mergeAll_nil.mp h] at ha
    cases ha
  | append_singleton new y ih =>
    obtain ⟨r', hr', hy⟩ := mergeAll_concat.mp h
    have hr : (r.map key).Nodup := mergeAll_empty_nodup hk h
    -- the new record is there, so that any other has another key
    have hmem : y ∈ r := by
      rcases upsert_cases hy with ⟨pre, c, post, s, -, -, -, hs, rfl⟩ | ⟨-, rfl⟩
      · rw [hupd] at hs
        exact Except.ok.inj hs ▸ List.mem_append_right _ List.mem_cons_self
      · exact List.mem_append_right _ (List.mem_singleton_self y)
    by_cases hay : a = y
    · exact ⟨new, [], by rw [hay], List.forall_mem_nil _⟩
    · have hkey : key y ≠ key a := fun hya => hay (List.inj_on_of_nodup_map hr ha hmem hya.symm)
      have ha' : a ∈ r' := by
        rcases upsert_cases hy with ⟨pre, c, post, s, rfl, -, -, hs, rfl⟩ | ⟨-, rfl⟩
        · rw [hupd] at hs
          rw [List.mem_append, List.mem_cons, ← Except.ok.inj hs] at ha
          rw [List.mem_append, List.mem_cons]
          exact ha.imp_right fun h => .inr (h.resolve_left hay)
        · exact (List.mem_append.mp ha).elim (fun h => h) fun h => absurd (List.mem_singleton.mp h) hay
      obtain ⟨before, after, rfl, hafter⟩ := ih hr' ha'
      refine ⟨before, after ++ [y], by rw [List.append_assoc, List.cons_append], ?_⟩
      exact List.forall_mem_append.mpr ⟨hafter, List.forall_mem_singleton.mpr hkey⟩

/-! ## Success -/

theorem upsert_total {P : α → Prop} {l : List α} {x : α}
    (hP : ∀ c, key c = key x → P c → P x → ∃ s, upd c x = .ok s ∧ P s)
    (hl : ∀ a ∈ l, P a) (hx : P x) : ∃ r, upsert key upd l x = .ok r ∧ ∀ a ∈ r, P a := by
  induction l with
  | nil => exact ⟨[x], rfl, by simpa using hx⟩
  | cons c cs ih =>
    obtain ⟨hc, hcs⟩ := List.forall_mem_cons.mp hl
    by_cases hk : key c = key x
    · obtain ⟨s, hs, hPs⟩ := hP c hk hc hx
      exact ⟨s :: cs, by simp [upsert, hk, hs, Except.map], List.forall_mem_cons.mpr ⟨hPs, hcs⟩⟩
    · obtain ⟨r, hr, hPr⟩ := ih hcs
      exact ⟨c :: r, by simp [upsert, hk, hr, Except.map], List.forall_mem_cons.mpr ⟨hc, hPr⟩⟩

/-- A merge succeeds if the updates it makes do. -/
theorem mergeAll_total {P : α → Prop} {cur new : List α}
    (hP : ∀ c x, key c = key x → P c → P x → ∃ s, upd c x = .ok s ∧ P s)
    (hc : ∀ a ∈ cur, P a) (hn : ∀ a ∈ new, P a) :
    ∃ r, mergeAll key upd cur new = .ok r ∧ ∀ a ∈ r, P a :=
  foldlM_total (P := fun l => ∀ a ∈ l, P a)
    (fun _ x hx hl => upsert_total (fun c hk hc hx => hP c x hk hc hx) hl (hn x hx)) hc

theorem mergeAll_map_total {β : Type*} {f : β → α} {l : List β} {P : α → Prop}
    (hP : ∀ c x, key c = key x → P c → P x → ∃ s, upd c x = .ok s ∧ P s)
    (hl : ∀ b ∈ l, P (f b)) : ∃ r, mergeAll key upd [] (l.map f) = .ok r ∧ ∀ a ∈ r, P a :=
  mergeAll_total hP (List.forall_mem_nil P) (List.forall_mem_map.mpr hl)

/-! ## The records with one key -/

theorem upsert_filter (hk : KeepsKey key upd) {l r : List α} {x : α} (k : κ)
    (h : upsert key upd l x = .ok r) :
    if key x = k then upsert key upd (l.filter (key · = k)) x = .ok (r.filter (key · = k))
    else r.filter (key · = k) = l.filter (key · = k) := by
  induction l generalizing r with
  | nil =>
    simp only [upsert, Except.ok.injEq] at h
    subst h
    by_cases hx : key x = k <;> simp [hx, upsert]
  | cons c cs ih =>
    by_cases hc : key c = key x
    · simp only [upsert, hc, ite_true, map_eq_ok] at h
      obtain ⟨s, hs, rfl⟩ := h
      have hsx : key s = key x := (hk c x s hc hs).trans hc
      by_cases hx : key x = k
      · simp [hx, hc, hsx, upsert, hs, Except.map]
      · simp [hx, hc, hsx]
    · simp only [upsert, hc, ite_false, map_eq_ok] at h
      obtain ⟨r', hr', rfl⟩ := h
      have := ih hr'
      by_cases hx : key x = k
      · have hck : ¬ key c = k := hx ▸ hc
        simp only [hx, ite_true] at this
        simpa [hx, hck] using this
      · simp only [hx, ite_false] at this
        by_cases hck : key c = k <;> simp [hx, hck, this]

/-- The records with key `k` are merged on their own. -/
theorem mergeAll_filter (hk : KeepsKey key upd) {cur new r : List α} (k : κ)
    (h : mergeAll key upd cur new = .ok r) :
    mergeAll key upd (cur.filter (key · = k)) (new.filter (key · = k)) =
      .ok (r.filter (key · = k)) := by
  induction new generalizing cur with
  | nil => rw [mergeAll_nil.mp h]; rfl
  | cons x new ih =>
    obtain ⟨cur', h₁, h₂⟩ := mergeAll_cons.mp h
    have hf := upsert_filter hk k h₁
    by_cases hx : key x = k
    · simp only [hx, ite_true] at hf
      rw [List.filter_cons_of_pos (by simpa using hx)]
      exact mergeAll_cons.mpr ⟨_, hf, ih h₂⟩
    · simp only [hx, ite_false] at hf
      rw [List.filter_cons_of_neg (by simpa using hx), ← hf]
      exact ih h₂

theorem mergeAll_same_prod {M : Type*} [Monoid M] {w : α → M} {P Q : α → Prop}
    (hk : KeepsKey key upd)
    (hw : ∀ c x s, key c = key x → P c → Q x → upd c x = .ok s → P s ∧ w s = w c * w x) :
    ∀ {c : α} {new r : List α}, P c → (∀ x ∈ new, Q x) → (∀ x ∈ new, key x = key c) →
      mergeAll key upd [c] new = .ok r → (r.map w).prod = w c * (new.map w).prod
  | c, [], r, _, _, _, h => by rw [← mergeAll_nil.mp h]; simp
  | c, x :: new, r, hc, hQ, hn, h => by
    obtain ⟨hx, hQ⟩ := List.forall_mem_cons.mp hQ
    obtain ⟨hxc, hn⟩ := List.forall_mem_cons.mp hn
    obtain ⟨cur', h₁, h₂⟩ := mergeAll_cons.mp h
    simp only [upsert, hxc, ite_true, map_eq_ok] at h₁
    obtain ⟨s, hs, rfl⟩ := h₁
    obtain ⟨hPs, hws⟩ := hw c x s hxc.symm hc hx hs
    have hks : key s = key c := hk c x s hxc.symm hs
    rw [mergeAll_same_prod hk hw hPs hQ (fun y hy => (hn y hy).trans hks.symm) h₂, hws,
      List.map_cons, List.prod_cons, mul_assoc]

theorem length_filter_key_le {l : List α} (h : (l.map key).Nodup) (k : κ) :
    (l.filter (key · = k)).length ≤ 1 := by
  induction l with
  | nil => exact Nat.zero_le _
  | cons a l ih =>
    obtain ⟨ha, hl⟩ := List.nodup_cons.mp h
    by_cases hk : key a = k
    · have hno : l.filter (key · = k) = [] := by
        refine List.filter_eq_nil_iff.mpr fun b hb hbk => ha ?_
        exact List.mem_map.mpr ⟨b, hb, (of_decide_eq_true hbk).trans hk.symm⟩
      rw [List.filter_cons_of_pos (by simpa using hk), hno]
      exact Nat.le_refl 1
    · rw [List.filter_cons_of_neg (by simpa using hk)]
      exact ih hl

/-- Among distinct keys, the records with a key are the first one with it. -/
theorem filter_key_eq {l : List α} (h : (l.map key).Nodup) (k : κ) :
    l.filter (key · = k) = (l.find? (key · = k)).toList := by
  have hlen := length_filter_key_le h k
  have hhead := List.head?_filter (p := (key · = k)) (l := l)
  match hf : l.filter (key · = k) with
  | [] => rw [hf] at hhead; rw [← hhead]; rfl
  | [a] => rw [hf] at hhead; rw [← hhead]; rfl
  | a :: b :: t => rw [hf] at hlen; simp at hlen

/-- At each key, a quantity that updates of a record that is `P` with one that
is `Q` multiply, in order. -/
theorem mergeAll_prod {M : Type*} [Monoid M] {w : α → M} {P Q : α → Prop} (hk : KeepsKey key upd)
    (hw : ∀ c x s, key c = key x → P c → Q x → upd c x = .ok s → P s ∧ w s = w c * w x)
    (hQP : ∀ x, Q x → P x)
    {cur new r : List α} (hc : (cur.map key).Nodup) (hPc : ∀ a ∈ cur, P a) (hQn : ∀ a ∈ new, Q a)
    (h : mergeAll key upd cur new = .ok r) (k : κ) :
    ((r.filter (key · = k)).map w).prod =
      ((cur.filter (key · = k)).map w).prod * ((new.filter (key · = k)).map w).prod := by
  have hf := mergeAll_filter hk k h
  have hlen := length_filter_key_le hc k
  have hkey : ∀ {l : List α}, ∀ a ∈ l.filter (key · = k), key a = k := fun a ha =>
    of_decide_eq_true (List.mem_filter.mp ha).2
  have hQn' : ∀ x ∈ new.filter (key · = k), Q x := fun x hx => hQn x (List.mem_of_mem_filter hx)
  match hcur : cur.filter (key · = k), hnew : new.filter (key · = k) with
  | [], [] =>
    rw [hcur, hnew] at hf
    rw [← mergeAll_nil.mp hf]
    simp
  | [], x :: l =>
    rw [hcur, hnew] at hf
    rw [hnew] at hQn'
    have hl : ∀ y ∈ x :: l, key y = k := fun y hy => hkey y (hnew ▸ hy)
    obtain ⟨hx, hl⟩ := List.forall_mem_cons.mp hl
    obtain ⟨hQx, hQl⟩ := List.forall_mem_cons.mp hQn'
    obtain ⟨cur', h₁, h₂⟩ := mergeAll_cons.mp hf
    cases h₁
    rw [mergeAll_same_prod hk hw (hQP x hQx) hQl (fun y hy => (hl y hy).trans hx.symm) h₂]
    simp
  | [c], l =>
    rw [hcur, hnew] at hf
    rw [hnew] at hQn'
    have hck : key c = k := hkey c (hcur ▸ List.mem_singleton_self c)
    have hPc : P c := hPc c (List.mem_of_mem_filter (hcur ▸ List.mem_singleton_self c))
    rw [mergeAll_same_prod hk hw hPc hQn'
      (fun y hy => (hkey y (hnew ▸ hy)).trans hck.symm) hf]
    simp
  | c :: c' :: l, _ =>
    rw [hcur] at hlen
    simp at hlen

theorem mergeAll_empty_prod {M : Type*} [Monoid M] {w : α → M} {P Q : α → Prop}
    (hk : KeepsKey key upd)
    (hw : ∀ c x s, key c = key x → P c → Q x → upd c x = .ok s → P s ∧ w s = w c * w x)
    (hQP : ∀ x, Q x → P x) {new r : List α} (hQn : ∀ a ∈ new, Q a)
    (h : mergeAll key upd [] new = .ok r) (k : κ) :
    ((r.filter (key · = k)).map w).prod = ((new.filter (key · = k)).map w).prod := by
  have hnil : (([] : List α).map key).Nodup := List.nodup_nil
  rw [mergeAll_prod hk hw hQP hnil (List.forall_mem_nil P) hQn h k]
  exact one_mul _

/-! ## Dictionaries of records -/

/-- Merge `x` into the record stored under its key, or store it. -/
def upsertDict (key : α → κ) (upd : α → α → Except ε α) (d : Dict κ α) (x : α) :
    Except ε (Dict κ α) :=
  match d.get? (key x) with
  | none => .ok (d.set (key x) x)
  | some c => (upd c x).map (d.set (key x))

theorem upsertDict_eq_ok {d d' : Dict κ α} {x : α} :
    upsertDict key upd d x = .ok d' ↔
      ∃ v, (d.get? (key x)).elim (.ok x) (upd · x) = .ok v ∧ d.set (key x) v = d' := by
  simp only [upsertDict]
  cases d.get? (key x) with
  | none =>
    constructor
    · exact fun h => ⟨x, rfl, Except.ok.inj h⟩
    · rintro ⟨v, hv, rfl⟩
      cases hv
      rfl
  | some c => exact map_eq_ok

/-- Each record is stored under its own key. -/
def OwnKeys (key : α → κ) (d : Dict κ α) : Prop := ∀ e ∈ d.entries, key e.2 = e.1

omit [DecidableEq κ] in
theorem OwnKeys.keys {d : Dict κ α} (h : OwnKeys key d) : d.values.map key = d.keys := by
  simp only [Dict.values, Dict.keys, List.map_map]
  exact List.map_congr_left fun e he => h e he

omit [DecidableEq κ] in
theorem ownKeys_empty : OwnKeys key (Dict.empty : Dict κ α) := fun _ h => nomatch h

theorem mem_setEntries {k : κ} {v : α} {es : List (κ × α)} {e : κ × α}
    (h : e ∈ Dict.setEntries k v es) : e = (k, v) ∨ e ∈ es := by
  induction es with
  | nil => exact .inl (List.mem_singleton.mp h)
  | cons e' es ih =>
    simp only [Dict.setEntries] at h
    split at h
    · exact (List.mem_cons.mp h).imp id (List.mem_cons_of_mem _)
    · rcases List.mem_cons.mp h with rfl | h
      · exact .inr List.mem_cons_self
      · exact (ih h).imp id (List.mem_cons_of_mem _)

theorem OwnKeys.set {d : Dict κ α} (h : OwnKeys key d) {k : κ} {v : α} (hv : key v = k) :
    OwnKeys key (d.set k v) := fun e he => by
  rcases mem_setEntries he with rfl | he
  · exact hv
  · exact h e he

/-- Storing an updated record is updating it in the list of the values. -/
theorem upsert_values {d : Dict κ α} (h : OwnKeys key d) {x c : α} (hc : d.get? (key x) = some c) :
    upsert key upd d.values x = (upd c x).map fun s => (d.set (key x) s).values := by
  obtain ⟨es, hn⟩ := d
  simp only [Dict.get?, Dict.values, Dict.set, OwnKeys] at *
  clear hn
  induction es with
  | nil => simp at hc
  | cons e es ih =>
    obtain ⟨he, hes⟩ := List.forall_mem_cons.mp h
    by_cases hk : e.1 = key x
    · rw [List.find?_cons_of_pos (by simpa using hk)] at hc
      cases hc
      simp [Dict.setEntries, upsert, he, hk]
    · rw [List.find?_cons_of_neg (by simpa using hk)] at hc
      simp only [List.map_cons, upsert, he, hk, ite_false, ih hes hc, Dict.setEntries]
      cases upd c x <;> rfl

theorem upsert_values_new {d : Dict κ α} (h : OwnKeys key d) {x : α}
    (hx : d.get? (key x) = none) :
    upsert key upd d.values x = .ok (d.set (key x) x).values := by
  obtain ⟨es, hn⟩ := d
  simp only [Dict.get?, Dict.values, Dict.set, OwnKeys, Option.map_eq_none_iff] at *
  clear hn
  induction es with
  | nil => rfl
  | cons e es ih =>
    obtain ⟨he, hes⟩ := List.forall_mem_cons.mp h
    by_cases hk : e.1 = key x
    · rw [List.find?_cons_of_pos (by simpa using hk)] at hx
      cases hx
    · rw [List.find?_cons_of_neg (by simpa using hk)] at hx
      simp [Dict.setEntries, upsert, he, hk, ih hes hx, Except.map]

/-- On the list of the values, `upsertDict` is `upsert`. -/
theorem upsertDict_values {d : Dict κ α} (h : OwnKeys key d) (x : α) :
    (upsertDict key upd d x).map Dict.values = upsert key upd d.values x := by
  simp only [upsertDict]
  split
  · rename_i hx
    rw [upsert_values_new h hx]
    rfl
  · rename_i c hc
    rw [upsert_values h hc]
    cases upd c x <;> rfl

theorem OwnKeys.upsertDict (hk : KeepsKey key upd) {d d' : Dict κ α} (h : OwnKeys key d) {x : α}
    (hd : upsertDict key upd d x = .ok d') : OwnKeys key d' := by
  simp only [Framework.upsertDict] at hd
  split at hd
  · cases hd
    exact h.set rfl
  · rename_i c hc
    obtain ⟨s, hs, rfl⟩ := map_eq_ok.mp hd
    have hcx : key c = key x := h _ (Dict.get?_eq_some_iff.mp hc)
    exact h.set ((hk c x s hcx hs).trans hcx)

theorem OwnKeys.foldlM_upsertDict (hk : KeepsKey key upd) {d d' : Dict κ α} (h : OwnKeys key d)
    {l : List α} (hd : l.foldlM (Framework.upsertDict key upd) d = .ok d') : OwnKeys key d' :=
  foldlM_inv (P := OwnKeys key) (fun _ _ _ _ h hd => h.upsertDict hk hd) h hd

/-- A run of `upsertDict` is a merge into the list of the values. -/
theorem foldlM_upsertDict_values (hk : KeepsKey key upd) :
    ∀ {l : List α} {d : Dict κ α}, OwnKeys key d →
      (l.foldlM (upsertDict key upd) d).map Dict.values = mergeAll key upd d.values l
  | [], _, _ => rfl
  | x :: l, d, h => by
    rw [mergeAll, List.foldlM_cons, List.foldlM_cons, ← upsertDict_values h x]
    cases hd : upsertDict key upd d x with
    | error e => rfl
    | ok d' => exact foldlM_upsertDict_values hk (h.upsertDict hk hd)

theorem foldlM_upsertDict_ok (hk : KeepsKey key upd) {l r : List α} :
    (∃ d, l.foldlM (upsertDict key upd) .empty = .ok d ∧ d.values = r) ↔
      mergeAll key upd [] l = .ok r := by
  rw [← map_eq_ok]
  exact Eq.congr_left (foldlM_upsertDict_values hk ownKeys_empty)

end Framework
