import Mathlib.Data.List.Forall2
import FedRegFeeder.Framework.Last
import FedRegFeeder.Impl.Providers.K8s

/-!
# The quotas of a namespace

`get_quotas` writes the `hard` and `used` maps of all `ResourceQuota` objects
into one dictionary of limits and one of usages. Each figure is therefore that
of the last entry recorded under its field (`getQuotas_figure`).

* `getQuotas_paired`: when the two maps of each object have the same keys, a
  limit and the usage beside it are those of one key of one object.
* `getQuotas_order`: the figures do not depend on the order of the objects and
  of the entries if and only if no two entries of a recorded field differ.
-/

namespace FRF.Spec

open FRF.Impl FRF.Impl.KubernetesData
open Framework (Dict)

/-- The dictionaries that are returned. -/
inductive Category where
  | compute | blockStorage
deriving DecidableEq, Repr

def Category.dict : Category → QuotaData → Dict String Int
  | .compute => (·.compute)
  | .blockStorage => (·.blockStorage)

/-- The fields that are recorded. -/
def Category.fields : Category → List String
  | .compute => ["limits_cpu", "limits_memory", "requests_cpu", "requests_memory", "pods"]
  | .blockStorage => ["requests_ephemeral_storage", "limits_ephemeral_storage", "storage", "pvcs"]

/-- The maps of a `ResourceQuota`. -/
inductive Side where
  | limit | usage
deriving DecidableEq, Repr

def Side.map : Side → ResourceQuota → Option (List (String × String))
  | .limit => (·.hard)
  | .usage => (·.used)

def Side.entries (s : Side) (o : ResourceQuota) : List (String × String) := (s.map o).getD []

/-- What `get_quotas` returns: limits and usage, of compute and of block storage. -/
abbrev Quotas :=
  (QuotaCreateExtended × QuotaCreateExtended) × (QuotaCreateExtended × QuotaCreateExtended)

def Category.of {α : Type} : Category → α × α → α
  | .compute => (·.1)
  | .blockStorage => (·.2)

def Side.of {α : Type} : Side → α × α → α
  | .limit => (·.1)
  | .usage => (·.2)

/-- The figure that is returned under a field, if there is one. -/
def figure (c : Category) (s : Side) (r : Quotas) (field : String) : Option (Option Int) :=
  (s.of (c.of r)).figures.lookup field

/-- The last entry recorded under a field. -/
def lastEntry (field : String) (entries : List (String × String)) : Option (String × String) :=
  entries.reverse.find? (fieldOf ·.1 = field)

/-- Both maps are there, and all values are numbers for `split_quotas`. -/
def Numbers (objects : List ResourceQuota) : Prop :=
  ∀ s : Side, ∀ o ∈ objects, ∃ l, s.map o = some l ∧ ∀ e ∈ l, ∃ n, valueOf e.2 = .ok n

/-- Entry `i` of object `m` is the last one recorded under a field. -/
structure Wrote (objects : List ResourceQuota) (s : Side) (field : String) (m i : Nat)
    (e : String × String) : Prop where
  entry : (objects[m]?.bind fun o => (s.entries o)[i]?) = some e
  recorded : fieldOf e.1 = field
  later : ∀ m' i' e', m < m' ∨ m = m' ∧ i < i' →
    (objects[m']?.bind fun o => (s.entries o)[i']?) = some e' → fieldOf e'.1 ≠ field

/-- Both maps are there, and all values are plain integers. -/
def Integers (objects : List ResourceQuota) : Prop :=
  ∀ s : Side, ∀ o ∈ objects, ∃ l, s.map o = some l ∧ ∀ e ∈ l, ∃ n, Py.int e.2 = .ok n

/-- The same entries in some order, on each side. -/
def SameEntries (o o' : ResourceQuota) : Prop :=
  ∀ s : Side, Option.Rel List.Perm (s.map o) (s.map o')

/-- The same objects in some order, each with its entries in some order. -/
def Reordered (objects objects' : List ResourceQuota) : Prop :=
  ∃ mid, List.Forall₂ SameEntries objects mid ∧ mid.Perm objects'

/-- The entries recorded under one field have one value. -/
def Agree (objects : List ResourceQuota) : Prop :=
  ∀ (c : Category) (s : Side), ∀ field ∈ c.fields, ∀ e ∈ objects.flatMap (Side.entries s),
    ∀ e' ∈ objects.flatMap (Side.entries s), fieldOf e.1 = field → fieldOf e'.1 = field →
      Py.int e.2 = Py.int e'.2

end FRF.Spec

namespace FRF.Proof

open FRF.Impl FRF.Impl.KubernetesData FRF.Spec
open Py (PyError)
open Framework

/-! ## The run -/

theorem splitQuotas_dict {key value : String} {data r : QuotaData} (c : Category)
    (h : splitQuotas key value data = .ok r) : ∃ n, valueOf value = .ok n ∧
      c.dict r = if fieldOf key ∈ c.fields then (c.dict data).set (fieldOf key) n
        else c.dict data := by
  simp only [splitQuotas] at h
  obtain ⟨n, hn, h⟩ := bind_eq_ok.mp h
  refine ⟨n, hn, ?_⟩
  split at h
  · rename_i hc
    have hb : fieldOf key ∉ Category.blockStorage.fields := by
      revert hc
      generalize fieldOf key = f
      simp only [List.mem_cons, List.not_mem_nil, or_false, Category.fields]
      rintro (rfl | rfl | rfl | rfl | rfl) <;> decide
    cases h
    cases c with
    | compute => exact (if_pos hc).symm
    | blockStorage => exact (if_neg hb).symm
  · rename_i hc
    split at h
    · rename_i hb
      cases h
      cases c with
      | compute => exact (if_neg hc).symm
      | blockStorage => exact (if_pos hb).symm
    · rename_i hb
      cases h
      cases c with
      | compute => exact (if_neg hc).symm
      | blockStorage => exact (if_neg hb).symm

theorem splitQuotas_total (key : String) {value : String} {n : Int}
    (h : valueOf value = .ok n) (data : QuotaData) : ∃ r, splitQuotas key value data = .ok r := by
  simp only [splitQuotas, h, ok_bind]
  split
  · exact ⟨_, rfl⟩
  · split <;> exact ⟨_, rfl⟩

theorem lastEntry_concat {field : String} {entries : List (String × String)}
    {e : String × String} (he : fieldOf e.1 = field) : lastEntry field (entries ++ [e]) = some e := by
  simp [lastEntry, he]

/-- What one entry does to a figure. -/
theorem splitQuotas_get? {c : Category} {field : String} (hf : field ∈ c.fields)
    {data r : QuotaData} {e : String × String} (h : splitQuotas e.1 e.2 data = .ok r) :
    (c.dict r).get? field =
      if decide (fieldOf e.1 = field) then (valueOf e.2).toOption else (c.dict data).get? field := by
  obtain ⟨n, hn, hr⟩ := splitQuotas_dict c h
  rw [hr, hn]
  by_cases he : fieldOf e.1 = field
  · rw [if_pos (he ▸ hf), Dict.get?_set, if_pos he.symm, if_pos (decide_eq_true he)]
    rfl
  · have hno : ¬ decide (fieldOf e.1 = field) = true := by simpa using he
    rw [if_neg hno]
    split
    · rw [Dict.get?_set, if_neg (Ne.symm he)]
    · rfl

theorem splitQuotas_get?_other {c : Category} {field : String} (hf : field ∉ c.fields)
    {data r : QuotaData} {e : String × String} (h : splitQuotas e.1 e.2 data = .ok r) :
    (c.dict r).get? field = (c.dict data).get? field := by
  obtain ⟨n, -, hr⟩ := splitQuotas_dict c h
  rw [hr]
  split
  · rename_i hc
    rw [Dict.get?_set, if_neg (by rintro rfl; exact hf hc)]
  · rfl

/-- The loop over the entries of one map, or of several one after the other. -/
def splitAll (data : QuotaData) (entries : List (String × String)) : Except PyError QuotaData :=
  entries.foldlM (fun d e => splitQuotas e.1 e.2 d) data

theorem splitAll_get? {c : Category} {field : String} {entries : List (String × String)}
    {r : QuotaData} (h : splitAll {} entries = .ok r) : (c.dict r).get? field =
      if field ∈ c.fields then (lastEntry field entries).bind fun e => (valueOf e.2).toOption
      else none := by
  have hempty : (c.dict {}).get? field = none := by cases c <;> rfl
  split
  · rename_i hf
    have hlast := foldlM_last (f := fun d (e : String × String) => splitQuotas e.1 e.2 d)
      (g := fun d => (c.dict d).get? field) (p := fun e => decide (fieldOf e.1 = field))
      (fun _ _ _ => splitQuotas_get? hf) h
    rw [hlast, hempty, lastEntry]
    cases entries.reverse.find? (fieldOf ·.1 = field) <;> rfl
  · rename_i hf
    rw [← hempty]
    refine foldlM_inv (P := fun d => (c.dict d).get? field = (c.dict {}).get? field)
      (fun _ _ _ _ hd hs => ?_) rfl h
    rw [splitQuotas_get?_other hf hs, hd]

theorem splitAll_total {entries : List (String × String)}
    (h : ∀ e ∈ entries, ∃ n, valueOf e.2 = .ok n) (data : QuotaData) :
    ∃ r, splitAll data entries = .ok r := by
  obtain ⟨r, hr, -⟩ := foldlM_total (P := fun _ : QuotaData => True) (b := data)
    (f := fun d (e : String × String) => splitQuotas e.1 e.2 d) (fun d e he _ => by
      obtain ⟨n, hn⟩ := h e he
      obtain ⟨r, hr⟩ := splitQuotas_total e.1 hn d
      exact ⟨r, hr, trivial⟩) trivial
  exact ⟨r, hr⟩

theorem splitAll_values {entries : List (String × String)} {data r : QuotaData}
    (h : splitAll data entries = .ok r) : ∀ e ∈ entries, ∃ n, valueOf e.2 = .ok n := fun e he => by
  obtain ⟨data', r', hstep⟩ := foldlM_ok_of_mem h he
  obtain ⟨n, hn, -⟩ := splitQuotas_dict .compute hstep
  exact ⟨n, hn⟩

theorem splitItems_ok {items : Option (List (String × String))} {data r : QuotaData} :
    splitItems items data = .ok r ↔ items.isSome ∧ splitAll data (items.getD []) = .ok r := by
  cases items with
  | none => exact ⟨(nomatch ·), fun ⟨h, _⟩ => nomatch h⟩
  | some items => exact ⟨fun h => ⟨rfl, h⟩, fun ⟨_, h⟩ => h⟩

theorem addQuota_ok {o : ResourceQuota} {q u q' u' : QuotaData} :
    addQuota (q, u) o = .ok (q', u') ↔ (∀ s : Side, (s.map o).isSome) ∧
      splitAll q (Side.entries .limit o) = .ok q' ∧ splitAll u (Side.entries .usage o) = .ok u' := by
  simp only [addQuota, bind_eq_ok, pure_eq_ok, splitItems_ok, Prod.mk.injEq]
  constructor
  · rintro ⟨_, ⟨hhard, hq⟩, _, ⟨hused, hu⟩, rfl, rfl⟩
    refine ⟨fun s => ?_, hq, hu⟩
    cases s with
    | limit => exact hhard
    | usage => exact hused
  · rintro ⟨hmaps, hq, hu⟩
    exact ⟨q', ⟨hmaps .limit, hq⟩, u', ⟨hmaps .usage, hu⟩, rfl, rfl⟩

/-- The loop over the objects is one loop over their `hard` maps and one over
their `used` maps, all of which must be there. -/
theorem foldlM_addQuota : ∀ {objects : List ResourceQuota} {q u q' u' : QuotaData},
    objects.foldlM addQuota (q, u) = .ok (q', u') ↔
      (∀ o ∈ objects, ∀ s : Side, (s.map o).isSome) ∧
      splitAll q (objects.flatMap (Side.entries .limit)) = .ok q' ∧
      splitAll u (objects.flatMap (Side.entries .usage)) = .ok u'
  | [], q, u, q', u' => by
    simp only [foldlM_nil_ok, Prod.mk.injEq, List.flatMap_nil, splitAll]
    exact (and_iff_right (List.forall_mem_nil _)).symm
  | o :: objects, q, u, q', u' => by
    simp only [foldlM_cons_ok, Prod.exists, addQuota_ok, @foldlM_addQuota objects,
      List.forall_mem_cons, List.flatMap_cons, splitAll, foldlM_append_ok]
    constructor
    · rintro ⟨q₁, u₁, ⟨ho, hq₁, hu₁⟩, hobjects, hq, hu⟩
      exact ⟨⟨ho, hobjects⟩, ⟨q₁, hq₁, hq⟩, ⟨u₁, hu₁, hu⟩⟩
    · rintro ⟨⟨ho, hobjects⟩, ⟨q₁, hq₁, hq⟩, ⟨u₁, hu₁, hu⟩⟩
      exact ⟨q₁, u₁, ⟨ho, hq₁, hu₁⟩, hobjects, hq, hu⟩

theorem lookup_figures (d : Dict String Int) (field : String) :
    (figures d).lookup field = (d.get? field).map some := by
  rw [figures, Dict.get?]
  induction d.entries with
  | nil => rfl
  | cons e es ih =>
    rw [List.map_cons, List.lookup_cons]
    by_cases h : e.1 = field
    · simp [h]
    · have hne : (field == e.1) = false := beq_false_of_ne (Ne.symm h)
      rw [hne, ih, List.find?_cons_of_neg (by simpa using h)]

section
variable {cluster : Cluster} {project : String} {objects : List ResourceQuota}

theorem Numbers.entries (h : Numbers objects) (s : Side) :
    ∀ e ∈ objects.flatMap (Side.entries s), ∃ n, valueOf e.2 = .ok n := by
  intro e he
  obtain ⟨o, ho, he⟩ := List.mem_flatMap.mp he
  obtain ⟨l, hl, hn⟩ := h s o ho
  rw [Side.entries, hl, Option.getD_some] at he
  exact hn e he

theorem getQuotas_total (hl : cluster.listNamespacedResourceQuota project = .ok objects)
    (hn : Numbers objects) : ∃ r, getQuotas cluster project = .ok r := by
  obtain ⟨q, hq⟩ := splitAll_total (Numbers.entries hn .limit) {}
  obtain ⟨u, hu⟩ := splitAll_total (Numbers.entries hn .usage) {}
  have hmaps : ∀ o ∈ objects, ∀ s : Side, (s.map o).isSome := fun o ho s => by
    obtain ⟨l, hl, -⟩ := hn s o ho
    rw [hl, Option.isSome_some]
  exact ⟨_, by rw [getQuotas, hl, ok_bind, foldlM_addQuota.mpr ⟨hmaps, hq, hu⟩]; rfl⟩

/-- A figure is that of the last entry recorded under its field. -/
theorem getQuotas_figure (hl : cluster.listNamespacedResourceQuota project = .ok objects)
    {r : Quotas} (h : getQuotas cluster project = .ok r) (c : Category) (s : Side) (field : String) :
    figure c s r field = if field ∈ c.fields then
      (lastEntry field (objects.flatMap (Side.entries s))).map fun e => (valueOf e.2).toOption
      else none := by
  simp only [getQuotas, hl, ok_bind, bind_eq_ok, pure_eq_ok] at h
  obtain ⟨⟨q, u⟩, hloop, rfl⟩ := h
  obtain ⟨-, hq, hu⟩ := foldlM_addQuota.mp hloop
  have hfig : ∀ {d : QuotaData} {entries : List (String × String)}, splitAll {} entries = .ok d →
      (figures (c.dict d)).lookup field = if field ∈ c.fields then
        (lastEntry field entries).map fun e => (valueOf e.2).toOption else none := by
    intro d entries hd
    rw [lookup_figures, splitAll_get? hd]
    split
    · cases he : lastEntry field entries with
      | none => rfl
      | some e =>
        obtain ⟨n, hn⟩ := splitAll_values hd e (List.mem_reverse.mp (List.mem_of_find?_eq_some he))
        simp [hn, Except.toOption]
    · rfl
  cases s with
  | limit =>
    rw [← hfig hq]
    cases c <;> rfl
  | usage =>
    rw [← hfig hu]
    cases c <;> rfl

end

/-! ## Limits and usage side by side -/

/-- A key with the limit and the usage of an object. -/
abbrev Sides := String × String × String

def Side.entry : Side → Sides → String × String
  | .limit, t => (t.1, t.2.1)
  | .usage, t => (t.1, t.2.2)

theorem Side.entry_fst (s : Side) (t : Sides) : (Side.entry s t).1 = t.1 := by cases s <;> rfl

/-- The two maps of an object, entry by entry. -/
def sidesOf (o : ResourceQuota) : List Sides :=
  List.zipWith (fun e e' => (e.1, e.2, e'.2)) (Side.entries .limit o) (Side.entries .usage o)

theorem entries_eq_sides {o : ResourceQuota}
    (h : (Side.entries .limit o).map Prod.fst = (Side.entries .usage o).map Prod.fst) (s : Side) :
    Side.entries s o = (sidesOf o).map (Side.entry s) := by
  have hs : Side.entries s o = Side.of s (Side.entries .limit o, Side.entries .usage o) := by
    cases s <;> rfl
  rw [hs, sidesOf]
  generalize Side.entries .limit o = hard at h ⊢
  generalize Side.entries .usage o = used at h ⊢
  clear hs
  induction hard generalizing used with
  | nil =>
    cases used with
    | nil => cases s <;> rfl
    | cons e' used => cases h
  | cons e hard ih =>
    cases used with
    | nil => cases h
    | cons e' used =>
      obtain ⟨hkey, hrest⟩ := List.cons.inj h
      have hi := ih used hrest
      cases s with
      | limit => exact congrArg (e :: ·) hi
      | usage =>
        have hhead : e' = (e.1, e'.2) := Prod.ext hkey.symm rfl
        exact (congrArg (e' :: ·) hi).trans (congrArg (· :: _) hhead)

theorem wrote_of_split {before after : List ResourceQuota} {o : ResourceQuota} {s : Side}
    {field : String} {as bs : List (String × String)} {e : String × String}
    (ho : Side.entries s o = as ++ e :: bs) (he : fieldOf e.1 = field)
    (hbs : ∀ e' ∈ bs, fieldOf e'.1 ≠ field)
    (hafter : ∀ o' ∈ after, ∀ e' ∈ Side.entries s o', fieldOf e'.1 ≠ field) :
    Wrote (before ++ o :: after) s field before.length as.length e := by
  refine ⟨?_, he, fun m' i' e' hlt hat => ?_⟩
  · rw [List.getElem?_append_right (Nat.le_refl _), Nat.sub_self, List.getElem?_cons_zero,
      Option.bind_some, ho, List.getElem?_append_right (Nat.le_refl _), Nat.sub_self,
      List.getElem?_cons_zero]
  · obtain ⟨o', ho', he'⟩ := Option.bind_eq_some_iff.mp hat
    rcases hlt with hm | ⟨rfl, hi⟩
    · obtain ⟨k, rfl⟩ : ∃ k, m' = before.length + 1 + k := ⟨m' - before.length - 1, by omega⟩
      have hk : before.length + 1 + k - before.length = k + 1 := by omega
      rw [List.getElem?_append_right (by omega), hk, List.getElem?_cons_succ] at ho'
      exact hafter o' (List.mem_of_getElem? ho') e' (List.mem_of_getElem? he')
    · rw [List.getElem?_append_right (Nat.le_refl _), Nat.sub_self, List.getElem?_cons_zero] at ho'
      cases ho'
      obtain ⟨k, rfl⟩ : ∃ k, i' = as.length + 1 + k := ⟨i' - as.length - 1, by omega⟩
      have hk : as.length + 1 + k - as.length = k + 1 := by omega
      rw [ho, List.getElem?_append_right (by omega), hk, List.getElem?_cons_succ] at he'
      exact hbs e' (List.mem_of_getElem? he')

/-- The last pair of a field is in both maps the last entry recorded under it. -/
theorem wrote_of_sides {before after : List ResourceQuota} {o : ResourceQuota}
    {field : String} {as bs : List Sides} {t : Sides}
    (hk : ∀ o' ∈ before ++ o :: after,
      (Side.entries .limit o').map Prod.fst = (Side.entries .usage o').map Prod.fst)
    (ho : sidesOf o = as ++ t :: bs) (ht : fieldOf t.1 = field)
    (hbs : ∀ t' ∈ bs, fieldOf t'.1 ≠ field)
    (hafter : ∀ o' ∈ after, ∀ t' ∈ sidesOf o', fieldOf t'.1 ≠ field) (s : Side) :
    Wrote (before ++ o :: after) s field before.length as.length (Side.entry s t) := by
  have hentries : Side.entries s o =
      as.map (Side.entry s) ++ Side.entry s t :: bs.map (Side.entry s) := by
    rw [entries_eq_sides (hk o (by simp)) s, ho, List.map_append, List.map_cons]
  rw [← List.length_map (Side.entry s)]
  refine wrote_of_split hentries ?_ (fun e' he' => ?_) fun o' ho' e' he' => ?_
  · rw [Side.entry_fst]
    exact ht
  · obtain ⟨t', ht', rfl⟩ := List.mem_map.mp he'
    rw [Side.entry_fst]
    exact hbs t' ht'
  · rw [entries_eq_sides (hk o' (by simp [ho'])) s] at he'
    obtain ⟨t', ht', rfl⟩ := List.mem_map.mp he'
    rw [Side.entry_fst]
    exact hafter o' ho' t' ht'

theorem lastEntry_sides {objects : List ResourceQuota} (field : String) (s : Side)
    (hk : ∀ o ∈ objects,
      (Side.entries .limit o).map Prod.fst = (Side.entries .usage o).map Prod.fst) :
    lastEntry field (objects.flatMap (Side.entries s)) =
      ((objects.flatMap sidesOf).reverse.find? (fieldOf ·.1 = field)).map (Side.entry s) := by
  have hflat : objects.flatMap (Side.entries s) = (objects.flatMap sidesOf).map (Side.entry s) := by
    rw [List.map_flatMap]
    exact List.flatMap_congr fun o ho => entries_eq_sides (hk o ho) s
  rw [lastEntry, hflat, ← List.map_reverse, List.find?_map]
  simp only [Function.comp_def, Side.entry_fst]

/-- When the maps of each object have the same keys, in the same order, limits
and usages are recorded under the same fields, and a limit and the usage beside
it are those of one key of one object. -/
theorem getQuotas_paired {cluster : Cluster} {project : String} {objects : List ResourceQuota}
    (hl : cluster.listNamespacedResourceQuota project = .ok objects) (hn : Numbers objects)
    (hk : ∀ o ∈ objects,
      (Side.entries .limit o).map Prod.fst = (Side.entries .usage o).map Prod.fst) :
    ∃ r, getQuotas cluster project = .ok r ∧ ∀ c field,
      (figure c .limit r field = none ∧ figure c .usage r field = none) ∨
      ∃ m i key limit usage, Wrote objects .limit field m i (key, limit) ∧
        Wrote objects .usage field m i (key, usage) ∧
        figure c .limit r field = some (valueOf limit).toOption ∧
        figure c .usage r field = some (valueOf usage).toOption := by
  obtain ⟨r, hr⟩ := getQuotas_total hl hn
  have hfig := getQuotas_figure hl hr
  refine ⟨r, hr, fun c field => ?_⟩
  by_cases hf : field ∈ c.fields
  · have hfield : ∀ s, figure c s r field = (((objects.flatMap sidesOf).reverse.find?
        (fieldOf ·.1 = field)).map (Side.entry s)).map fun e => (valueOf e.2).toOption := by
      intro s
      rw [hfig, if_pos hf, lastEntry_sides field s hk]
    cases ht : (objects.flatMap sidesOf).reverse.find? (fieldOf ·.1 = field) with
    | none => exact .inl ⟨by rw [hfield, ht]; rfl, by rw [hfield, ht]; rfl⟩
    | some t =>
      obtain ⟨before, o, after, rfl, ho, hafter⟩ := reverse_find?_flatMap ht
      obtain ⟨hp, as, bs, hsplit, hbs⟩ := reverse_find?_eq_some.mp ho
      have hwrote := wrote_of_sides hk hsplit (of_decide_eq_true hp)
        (fun t' ht' => of_decide_eq_false (hbs t' ht'))
        fun o' ho' t' ht' => of_decide_eq_false (hafter o' ho' t' ht')
      exact .inr ⟨before.length, as.length, t.1, t.2.1, t.2.2, hwrote .limit, hwrote .usage,
        by rw [hfield, ht]; rfl, by rw [hfield, ht]; rfl⟩
  · exact .inl ⟨by rw [hfig, if_neg hf], by rw [hfig, if_neg hf]⟩

/-- A cluster with these objects in each namespace. -/
private def answering (objects : List ResourceQuota) : Cluster :=
  { listNamespacedResourceQuota := fun _ => .ok objects, listStorageClass := .ok [] }

theorem fieldOf_cpu : fieldOf "cpu" = "requests_cpu" := by
  rw [← String.toList_inj]
  simp only [fieldOf, String.toList_map]
  decide

theorem fieldOf_requests_cpu : fieldOf "requests.cpu" = "requests_cpu" := by
  rw [← String.toList_inj]
  simp only [fieldOf, String.toList_map]
  decide

/-- Two objects that name one resource differently. -/
private def twoQuotas : List ResourceQuota :=
  [{ hard := some [("cpu", "4"), ("pods", "10")], used := some [("cpu", "1"), ("pods", "3")] },
    { hard := some [("requests.cpu", "2Gi")], used := some [("requests.cpu", "0")] }]

/-- Both figures are those of the second object. -/
theorem getQuotas_paired_sample : ∃ r, getQuotas (answering twoQuotas) "p" = .ok r ∧
    figure .compute .limit r "requests_cpu" = some (some 2) ∧
    figure .compute .usage r "requests_cpu" = some (some 0) := by
  have hn : Numbers twoQuotas := by
    intro s o ho
    rcases List.mem_pair.mp ho with rfl | rfl <;> cases s <;> refine ⟨_, rfl, fun e he => ?_⟩
    · rcases List.mem_pair.mp he with rfl | rfl <;> exact ⟨_, rfl⟩
    · rcases List.mem_pair.mp he with rfl | rfl <;> exact ⟨_, rfl⟩
    · cases List.mem_singleton.mp he
      exact ⟨_, rfl⟩
    · cases List.mem_singleton.mp he
      exact ⟨_, rfl⟩
  have hl : (answering twoQuotas).listNamespacedResourceQuota "p" = .ok twoQuotas := rfl
  obtain ⟨r, hr, h⟩ := getQuotas_paired hl hn (by decide)
  refine ⟨r, hr, ?_⟩
  rcases h .compute "requests_cpu" with ⟨hno, -⟩ | ⟨m, i, key, limit, usage, hlimit, husage, h₁, h₂⟩
  · have hsome := getQuotas_figure hl hr .compute .limit "requests_cpu"
    have hlast : lastEntry "requests_cpu" ([("cpu", "4"), ("pods", "10")] ++ [("requests.cpu", "2Gi")]) =
        some ("requests.cpu", "2Gi") := lastEntry_concat fieldOf_requests_cpu
    rw [hno] at hsome
    cases hsome.trans (congrArg (Option.map _) hlast)
  · -- an entry of the first object is not the last one
    match m, i, hlimit, husage with
    | 0, i, hlimit, _ => exact absurd fieldOf_requests_cpu (hlimit.later 1 0 _ (.inl Nat.one_pos) rfl)
    | 1, 0, ⟨hkey, _, _⟩, ⟨hkey', _, _⟩ =>
      cases hkey
      cases hkey'
      exact ⟨h₁, h₂⟩
    | 1, i + 1, ⟨hkey, _, _⟩, _ => cases hkey
    | m + 2, _, ⟨hkey, _, _⟩, _ => cases hkey

/-! ## The order of objects and entries -/

theorem SameEntries.refl (o : ResourceQuota) : SameEntries o o := fun s => by
  cases s.map o with
  | none => exact .none
  | some l => exact .some (.refl l)

theorem SameEntries.perm {o o' : ResourceQuota} (h : SameEntries o o') (s : Side) :
    (Side.entries s o).Perm (Side.entries s o') := by
  have hs := h s
  rw [Side.entries, Side.entries]
  generalize Side.map s o = m at hs ⊢
  generalize Side.map s o' = m' at hs ⊢
  cases hs with
  | none => exact .nil
  | some hl => exact hl

theorem Reordered.mem {objects objects' : List ResourceQuota} (h : Reordered objects objects')
    (s : Side) (e : String × String) :
    e ∈ objects.flatMap (Side.entries s) ↔ e ∈ objects'.flatMap (Side.entries s) := by
  obtain ⟨mid, hentries, hperm⟩ := h
  have hmid : (objects.flatMap (Side.entries s)).Perm (mid.flatMap (Side.entries s)) := by
    clear hperm
    induction hentries with
    | nil => exact .nil
    | cons ho _ ih =>
      rw [List.flatMap_cons, List.flatMap_cons]
      exact (SameEntries.perm ho s).append ih
  rw [hmid.mem_iff]
  exact (hperm.flatMap_right _).mem_iff

/-- The object with other entries on one side. -/
def Side.update (s : Side) (o : ResourceQuota) (entries : List (String × String)) : ResourceQuota :=
  match s with
  | .limit => { o with hard := some entries }
  | .usage => { o with used := some entries }

theorem Side.map_update (s : Side) (o : ResourceQuota) (entries : List (String × String)) :
    Side.map s (Side.update s o entries) = some entries := by
  cases s <;> rfl

theorem Side.update_same {s : Side} {o : ResourceQuota} {l l' : List (String × String)}
    (hl : Side.map s o = some l) (h : l.Perm l') : SameEntries o (Side.update s o l') := fun s' => by
  by_cases hs : s' = s
  · rw [hs, hl, Side.map_update]
    exact .some h
  · have hother : Side.map s' (Side.update s o l') = Side.map s' o := by
      cases s <;> cases s' <;> first | rfl | exact absurd rfl hs
    rw [hother]
    exact SameEntries.refl o s'

/-- Some order has a given entry at its end. -/
theorem Reordered.last {objects : List ResourceQuota} {s : Side} {e : String × String}
    (he : e ∈ objects.flatMap (Side.entries s)) :
    ∃ objects', Reordered objects objects' ∧
      ∃ entries, objects'.flatMap (Side.entries s) = entries ++ [e] := by
  obtain ⟨o, ho, hmem⟩ := List.mem_flatMap.mp he
  obtain ⟨before, after, rfl⟩ := List.append_of_mem ho
  obtain ⟨as, bs, hsplit⟩ := List.append_of_mem hmem
  have hl : Side.map s o = some (as ++ e :: bs) := by
    rw [Side.entries] at hsplit
    cases hl : Side.map s o with
    | none => rw [hl, Option.getD_none] at hsplit; exact absurd hsplit.symm (by simp)
    | some l => rw [hl, Option.getD_some] at hsplit; rw [hsplit]
  have hperm : (as ++ e :: bs).Perm (as ++ bs ++ [e]) := by
    have hmove : ([e] ++ bs).Perm (bs ++ [e]) := List.perm_append_comm
    rw [List.append_assoc]
    exact hmove.append_left as
  refine ⟨before ++ (after ++ [Side.update s o (as ++ bs ++ [e])]),
    ⟨before ++ Side.update s o (as ++ bs ++ [e]) :: after, ?_, ?_⟩,
    (before ++ after).flatMap (Side.entries s) ++ (as ++ bs), ?_⟩
  · have hrefl : ∀ l : List ResourceQuota, List.Forall₂ SameEntries l l := fun l =>
      List.forall₂_same.mpr fun o _ => SameEntries.refl o
    exact List.rel_append (hrefl before) (.cons (Side.update_same hl hperm) (hrefl after))
  · have hmove : ∀ o' : ResourceQuota, ([o'] ++ after).Perm (after ++ [o']) := fun _ =>
      List.perm_append_comm
    exact (hmove _).append_left before
  · have hentries : Side.entries s (Side.update s o (as ++ bs ++ [e])) = as ++ bs ++ [e] := by
      rw [Side.entries, Side.map_update, Option.getD_some]
    rw [← List.append_assoc, List.flatMap_append, List.flatMap_singleton, hentries,
      ← List.append_assoc]

/-- The last entry of a field has the value of all its entries, when they have
one. -/
theorem lastEntry_congr {α : Type} {field : String} {l l' : List (String × String)}
    {g : String × String → α} (hmem : ∀ e, e ∈ l ↔ e ∈ l')
    (hg : ∀ e ∈ l, ∀ e' ∈ l, fieldOf e.1 = field → fieldOf e'.1 = field → g e = g e') :
    (lastEntry field l).map g = (lastEntry field l').map g := by
  have hlast : ∀ {l : List (String × String)} {e : String × String},
      lastEntry field l = some e → e ∈ l ∧ fieldOf e.1 = field := fun h =>
    ⟨List.mem_reverse.mp (List.mem_of_find?_eq_some h), by simpa using List.find?_some h⟩
  have hnone : ∀ {l : List (String × String)}, lastEntry field l = none →
      ∀ e ∈ l, fieldOf e.1 ≠ field := fun h e he => by
    simpa using List.find?_eq_none.mp h e (List.mem_reverse.mpr he)
  cases h : lastEntry field l with
  | none =>
    cases h' : lastEntry field l' with
    | none => rfl
    | some e' =>
      obtain ⟨he', hf'⟩ := hlast h'
      exact absurd hf' (hnone h e' ((hmem e').mpr he'))
  | some e =>
    obtain ⟨he, hf⟩ := hlast h
    cases h' : lastEntry field l' with
    | none => exact absurd hf (hnone h' e ((hmem e).mp he))
    | some e' =>
      obtain ⟨he', hf'⟩ := hlast h'
      exact congrArg some (hg e he e' ((hmem e').mpr he') hf hf')

theorem valueOf_of_int {value : String} {n : Int} (h : Py.int value = .ok n) :
    valueOf value = .ok n := by
  rw [valueOf, h]

theorem Integers.entries {objects : List ResourceQuota} (h : Integers objects) (s : Side) :
    ∀ e ∈ objects.flatMap (Side.entries s), ∃ n, Py.int e.2 = .ok n := by
  intro e he
  obtain ⟨o, ho, he⟩ := List.mem_flatMap.mp he
  obtain ⟨l, hl, hn⟩ := h s o ho
  rw [Side.entries, hl, Option.getD_some] at he
  exact hn e he

theorem Reordered.integers {objects objects' : List ResourceQuota} (h : Reordered objects objects')
    (hn : Integers objects) : Integers objects' := by
  obtain ⟨mid, hentries, hperm⟩ := h
  intro s o' ho'
  have hmid : ∀ o' ∈ mid, ∃ o ∈ objects, SameEntries o o' := by
    clear hn hperm ho'
    induction hentries with
    | nil => exact List.forall_mem_nil _
    | cons ho _ ih =>
      refine List.forall_mem_cons.mpr ⟨⟨_, List.mem_cons_self, ho⟩, fun o' ho' => ?_⟩
      obtain ⟨o, ho, hsame⟩ := ih o' ho'
      exact ⟨o, List.mem_cons_of_mem _ ho, hsame⟩
  obtain ⟨o, ho, hsame⟩ := hmid o' (hperm.mem_iff.mpr ho')
  obtain ⟨l, hl, hints⟩ := hn s o ho
  have hrel := hsame s
  rw [hl] at hrel
  cases hl' : Side.map s o' with
  | none => rw [hl'] at hrel; cases hrel
  | some l' =>
    rw [hl'] at hrel
    cases hrel with
    | some hp => exact ⟨l', rfl, fun e he => hints e (hp.mem_iff.mpr he)⟩

theorem Integers.numbers {objects : List ResourceQuota} (h : Integers objects) : Numbers objects := by
  intro s o ho
  obtain ⟨l, hl, hints⟩ := h s o ho
  exact ⟨l, hl, fun e he => (hints e he).imp fun _ hn => valueOf_of_int hn⟩

/-- Of objects with plain integers, the figures are the same in every order of
the objects and of the entries of each, exactly when the entries of each
recorded field have one value. -/
theorem getQuotas_order {cluster : Cluster} {project : String} {objects : List ResourceQuota}
    (hl : cluster.listNamespacedResourceQuota project = .ok objects) (hn : Integers objects) :
    (∀ cluster' objects', Reordered objects objects' →
      cluster'.listNamespacedResourceQuota project = .ok objects' →
      ∃ r r', getQuotas cluster project = .ok r ∧ getQuotas cluster' project = .ok r' ∧
        ∀ c s field, figure c s r field = figure c s r' field) ↔ Agree objects := by
  have hvalue := Integers.entries hn
  obtain ⟨r, hr⟩ := getQuotas_total hl (Integers.numbers hn)
  have hfig := getQuotas_figure hl hr
  constructor
  · intro horder c s field hf
    -- each entry of the field comes last in some order, so that the figure is its value
    have hlast : ∀ e ∈ objects.flatMap (Side.entries s), fieldOf e.1 = field →
        figure c s r field = some (Py.int e.2).toOption := by
      intro e he hfe
      obtain ⟨objects', hre, entries, hentries⟩ := Reordered.last he
      obtain ⟨r₁, r', hr₁, hr', hsame⟩ := horder (answering objects') objects' hre rfl
      cases hr.symm.trans hr₁
      have hl' : (answering objects').listNamespacedResourceQuota project = .ok objects' := rfl
      obtain ⟨n, hint⟩ := hvalue s e he
      rw [hsame, getQuotas_figure hl' hr', if_pos hf, hentries, lastEntry_concat hfe, Option.map_some,
        hint, valueOf_of_int hint]
    intro e he e' he' hfe hfe'
    have heq := (hlast e he hfe).symm.trans (hlast e' he' hfe')
    obtain ⟨n, hint⟩ := hvalue s e he
    obtain ⟨n', hint'⟩ := hvalue s e' he'
    rw [hint, hint'] at heq ⊢
    cases heq
    rfl
  · intro hagree cluster' objects' hre hl'
    obtain ⟨r', hr'⟩ := getQuotas_total hl' (Integers.numbers (Reordered.integers hre hn))
    refine ⟨r, r', hr, hr', fun c s field => ?_⟩
    rw [hfig, getQuotas_figure hl' hr']
    split
    · rename_i hf
      refine lastEntry_congr (Reordered.mem hre s) fun e he e' he' hfe hfe' => ?_
      obtain ⟨n, hint⟩ := hvalue s e he
      obtain ⟨n', hint'⟩ := hvalue s e' he'
      have heq := hagree c s field hf e he e' he' hfe hfe'
      rw [hint, hint'] at heq
      cases heq
      rw [valueOf_of_int hint, valueOf_of_int hint']
    · rfl

/-- Two names of one resource, with one value. -/
private def sameCpus : List ResourceQuota :=
  [{ hard := some [("cpu", "2")], used := some [] },
    { hard := some [("requests.cpu", "2")], used := some [] }]

theorem getQuotas_order_sample :
    ∃ r r', getQuotas (answering sameCpus) "p" = .ok r ∧
      getQuotas (answering sameCpus.reverse) "p" = .ok r' ∧
      figure .compute .limit r "requests_cpu" = figure .compute .limit r' "requests_cpu" := by
  have hl : (answering sameCpus).listNamespacedResourceQuota "p" = .ok sameCpus := rfl
  have hn : Integers sameCpus := by
    intro s o ho
    rcases List.mem_pair.mp ho with rfl | rfl <;> cases s
    · exact ⟨_, rfl, List.forall_mem_singleton.mpr ⟨2, rfl⟩⟩
    · exact ⟨_, rfl, List.forall_mem_nil _⟩
    · exact ⟨_, rfl, List.forall_mem_singleton.mpr ⟨2, rfl⟩⟩
    · exact ⟨_, rfl, List.forall_mem_nil _⟩
  have hagree : Agree sameCpus := by
    intro c s field _ e he e' he' _ _
    cases s with
    | limit =>
      have hvalue : ∀ e ∈ sameCpus.flatMap (Side.entries .limit), e.2 = "2" := by decide
      rw [hvalue e he, hvalue e' he']
    | usage => cases he
  have hre : Reordered sameCpus sameCpus.reverse :=
    ⟨sameCpus, List.forall₂_same.mpr fun o _ => SameEntries.refl o, (List.reverse_perm _).symm⟩
  obtain ⟨r, r', hr, hr', h⟩ := (getQuotas_order hl hn).mpr hagree (answering _) _ hre rfl
  exact ⟨r, r', hr, hr', h .compute .limit "requests_cpu"⟩

/-- One processor under one name, two under the other. -/
private def twoNames : List (String × String) := [("cpu", "1"), ("requests.cpu", "2")]

/-- When an object limits `cpu` to 1 and `requests.cpu` to 2, the figure is that
of the key that is listed last. -/
theorem order_matters : ∃ r r',
    getQuotas (answering [{ hard := some twoNames, used := some [] }]) "p" = .ok r ∧
    getQuotas (answering [{ hard := some twoNames.reverse, used := some [] }]) "p" = .ok r' ∧
    figure .compute .limit r "requests_cpu" = some (some 2) ∧
    figure .compute .limit r' "requests_cpu" = some (some 1) := by
  have hn : ∀ hard ∈ [twoNames, twoNames.reverse],
      Numbers [{ hard := some hard, used := some [] }] := by
    intro hard hhard s o ho
    cases List.mem_singleton.mp ho
    cases s with
    | limit =>
      refine ⟨hard, rfl, fun e he => ?_⟩
      rcases List.mem_pair.mp hhard with rfl | rfl <;>
        rcases List.mem_pair.mp he with rfl | rfl <;> exact ⟨_, rfl⟩
    | usage => exact ⟨_, rfl, List.forall_mem_nil _⟩
  have hl : ∀ objects, (answering objects).listNamespacedResourceQuota "p" = .ok objects :=
    fun _ => rfl
  obtain ⟨r, hr⟩ := getQuotas_total (hl _) (hn twoNames (by simp))
  obtain ⟨r', hr'⟩ := getQuotas_total (hl _) (hn twoNames.reverse (by simp))
  have hlast : lastEntry "requests_cpu" ([("cpu", "1")] ++ [("requests.cpu", "2")]) = _ :=
    lastEntry_concat fieldOf_requests_cpu
  have hlast' : lastEntry "requests_cpu" ([("requests.cpu", "2")] ++ [("cpu", "1")]) = _ :=
    lastEntry_concat fieldOf_cpu
  exact ⟨r, r', hr, hr',
    (getQuotas_figure (hl _) hr .compute .limit _).trans (congrArg (Option.map _) hlast),
    (getQuotas_figure (hl _) hr' .compute .limit _).trans (congrArg (Option.map _) hlast')⟩

end FRF.Proof
