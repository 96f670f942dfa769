import Mathlib.Data.List.Induction
import Mathlib.Data.List.Nodup
import FedRegFeeder.Framework.Yields
import FedRegFeeder.Proof.Providers.Errors

/-!
# The images with some tags

`get_images` asks for the images of one tag after the other, and leaves out
those with the name of an image found for an earlier tag. So an image is
returned if the cloud lists it for one of the tags, and no image of its name
for the tags before that one (`mem_foundImages`), and the images that carry
some of the tags are returned, each once, if and only if those with one name
have one first tag (`getImages_tags`). Where this is so, more tags give no
fewer images (`getImages_grows`).
-/

namespace FRF.Spec

open FRF.Impl

/-- The image service lists, for a tag, the active images that carry it, and
the members of each shared image. -/
structure ImageService (conn : Connection) (active : List SdkImage) : Prop where
  distinct : (active.map (·.id)).Nodup
  images : ∀ tag, (conn.images (some tag)).items.Perm (active.filter (tag ∈ ·.tags)) ∧
    (conn.images (some tag)).fails = none
  members : ∀ i ∈ active, i.visibility = "shared" → (conn.members i).fails = none

/-- Each active image that carries one of the tags, once. -/
structure ExactImages (active : List SdkImage) (tags : List String) (images : List Image) : Prop where
  nodup : (images.map (·.uuid)).Nodup
  mem : ∀ u, u ∈ images.map (·.uuid) ↔ ∃ i ∈ active, i.id = u ∧ ∃ t ∈ tags, t ∈ i.tags

/-- The first of the tags that an image carries. -/
def firstTag (tags : List String) (i : SdkImage) : Option String := tags.find? (· ∈ i.tags)

/-- The images with one name that carry some of the tags carry one of them
first. -/
def OneFirstTag (active : List SdkImage) (tags : List String) : Prop :=
  ∀ i ∈ active, ∀ j ∈ active, i.name = j.name →
    ∀ t t', firstTag tags i = some t → firstTag tags j = some t' → t = t'

/-- The cloud lists an image; when there are tags, for one of them, and no image
of its name for the tags before. -/
def Found (conn : Connection) (tags : List String) (i : SdkImage) : Prop :=
  if tags.length > 0 then
    ∃ before t after, tags = before ++ t :: after ∧ i ∈ (conn.images (some t)).items ∧
      ∀ t' ∈ before, ∀ j ∈ (conn.images (some t')).items, j.name ≠ i.name
  else i ∈ (conn.images none).items

/-- The cloud lists no image twice for a tag, and an image under one name. -/
structure ImagesOnce (conn : Connection) : Prop where
  images : ∀ tag, ((conn.images tag).items.map (·.id)).Nodup
  names : ∀ tag tag', ∀ i ∈ (conn.images tag).items, ∀ j ∈ (conn.images tag').items,
    i.id = j.id → i.name = j.name

/-- Who may use an image. -/
def imageAccess (conn : Connection) (i : SdkImage) : Access :=
  if i.visibility = "private" then .priv [i.ownerId]
  else if i.visibility = "shared" then
    .priv (i.ownerId :: ((conn.members i).items.filter (·.status = "accepted")).map (·.id)).dedup
  else .shared

/-- The record of an image. -/
def imageRecord (conn : Connection) (i : SdkImage) : Image :=
  { uuid := i.id, name := i.name, osType := i.osType, osDistro := i.osDistro
    osVersion := i.osVersion, architecture := i.architecture, kernelId := i.kernelId, tags := i.tags
    access := imageAccess conn i }

end FRF.Spec

namespace FRF.Proof

open FRF.Impl FRF.Impl.OpenstackData FRF.Spec
open Framework

variable {conn : Connection}

/-! ## The images of some tags -/

/-- What a turn of the loop over the tags adds. -/
def keepNew (conn : Connection) (osImages : List SdkImage) (tag : String) : List SdkImage :=
  osImages ++ (conn.images (some tag)).items.filter (·.name ∉ osImages.map (·.name))

/-- The images the loop finds. -/
def foundImages (conn : Connection) (tags : List String) : List SdkImage :=
  if tags.length > 0 then tags.foldl (keepNew conn) [] else (conn.images none).items

/-- The first of the tags for which the cloud lists an image of a name. -/
def firstTagOfName (conn : Connection) (tags : List String) (name : String) : Option String :=
  tags.find? fun t => (conn.images (some t)).items.any (·.name = name)

theorem firstTagOfName_concat (tags : List String) (t name : String) :
    firstTagOfName conn (tags ++ [t]) name = (firstTagOfName conn tags name).or
      (if (conn.images (some t)).items.any (·.name = name) then some t else none) := by
  rw [firstTagOfName, List.find?_append, firstTagOfName, List.find?_singleton]

theorem firstTagOfName_listed {tags : List String} {name t : String}
    (h : firstTagOfName conn tags name = some t) :
    ∃ j ∈ (conn.images (some t)).items, j.name = name := by
  rw [firstTagOfName] at h
  simpa using List.find?_some h

theorem mem_foldl_keepNew (tags : List String) (i : SdkImage) :
    i ∈ tags.foldl (keepNew conn) [] ↔
      ∃ t, firstTagOfName conn tags i.name = some t ∧ i ∈ (conn.images (some t)).items := by
  induction tags using List.reverseRecOn generalizing i with
  | nil => simp [firstTagOfName]
  | append_singleton tags t ih =>
    rw [List.foldl_append, List.foldl_cons, List.foldl_nil, firstTagOfName_concat, keepNew]
    have hname : i.name ∈ (tags.foldl (keepNew conn) []).map (·.name) ↔
        (firstTagOfName conn tags i.name).isSome = true := by
      rw [List.mem_map, Option.isSome_iff_exists]
      constructor
      · rintro ⟨j, hj, hji⟩
        obtain ⟨t', ht', -⟩ := (ih j).mp hj
        exact ⟨t', hji ▸ ht'⟩
      · rintro ⟨t', ht'⟩
        obtain ⟨j, hj, hji⟩ := firstTagOfName_listed ht'
        exact ⟨j, (ih j).mpr ⟨t', hji ▸ ht', hj⟩, hji⟩
    rw [List.mem_append, List.mem_filter, decide_eq_true_eq, hname, ih i]
    cases firstTagOfName conn tags i.name with
    | some t' => simp
    | none =>
      simp only [Option.none_or, Option.isSome_none, Bool.false_eq_true, not_false_eq_true, and_true]
      constructor
      · rintro (⟨_, h, -⟩ | hi)
        · cases h
        · have hany : (conn.images (some t)).items.any (·.name = i.name) = true :=
            List.any_eq_true.mpr ⟨i, hi, decide_eq_true rfl⟩
          exact ⟨t, if_pos hany, hi⟩
      · rintro ⟨t', ht', hi⟩
        split at ht' <;> cases ht'
        exact .inr hi

/-- An image is listed for the first tag with an image of its name exactly when
it is listed for some tag, and no image of its name for the tags before. -/
theorem firstTagOfName_iff (tags : List String) (i : SdkImage) :
    (∃ t, firstTagOfName conn tags i.name = some t ∧ i ∈ (conn.images (some t)).items) ↔
      ∃ before t after, tags = before ++ t :: after ∧ i ∈ (conn.images (some t)).items ∧
        ∀ t' ∈ before, ∀ j ∈ (conn.images (some t')).items, j.name ≠ i.name := by
  simp only [firstTagOfName, List.find?_eq_some_iff_append, Bool.not_eq_true', List.any_eq_false,
    List.any_eq_true, decide_eq_true_eq]
  constructor
  · rintro ⟨t, ⟨-, before, after, htags, hbefore⟩, hi⟩
    exact ⟨before, t, after, htags, hi, hbefore⟩
  · rintro ⟨before, t, after, htags, hi, hbefore⟩
    exact ⟨t, ⟨⟨i, hi, rfl⟩, before, after, htags, hbefore⟩, hi⟩

theorem mem_foundImages {tags : List String} {i : SdkImage} :
    i ∈ foundImages conn tags ↔ Found conn tags i := by
  rw [foundImages, Found]
  split
  · rw [mem_foldl_keepNew, firstTagOfName_iff]
  · rfl

/-- An image found for one tag is not found again for a later one. -/
theorem nodup_foldl_keepNew (hid : ∀ t, ((conn.images (some t)).items.map (·.id)).Nodup)
    (hname : ∀ t t', ∀ i ∈ (conn.images (some t)).items, ∀ j ∈ (conn.images (some t')).items,
      i.id = j.id → i.name = j.name) (tags : List String) :
    ((tags.foldl (keepNew conn) []).map (·.id)).Nodup := by
  induction tags using List.reverseRecOn with
  | nil => exact List.nodup_nil
  | append_singleton tags t ih =>
    rw [List.foldl_append, List.foldl_cons, List.foldl_nil, keepNew, List.map_append,
      List.nodup_append]
    refine ⟨ih, (hid t).sublist (List.filter_sublist.map _), fun u hu v hv huv => ?_⟩
    obtain ⟨i, hi, rfl⟩ := List.mem_map.mp hu
    obtain ⟨j, hj, rfl⟩ := List.mem_map.mp hv
    obtain ⟨hj, hnew⟩ := List.mem_filter.mp hj
    obtain ⟨t', -, hlisted⟩ := (mem_foldl_keepNew tags i).mp hi
    rw [decide_eq_true_eq, ← hname t' t i hlisted j hj huv] at hnew
    exact hnew (List.mem_map_of_mem hi)

theorem nodup_foundImages (h : ImagesOnce conn) (tags : List String) :
    ((foundImages conn tags).map (·.id)).Nodup := by
  rw [foundImages]
  split
  · exact nodup_foldl_keepNew (fun t => h.images (some t)) (fun t t' => h.names (some t) (some t')) tags
  · exact h.images none

/-! ## The run -/

theorem returns_forEach {α β : Type} {g : Generator α} {body : α → Retrieve β} {f : α → β}
    (hg : g.fails = none) (hf : ∀ a ∈ g.items, Returns (body a) (f a)) :
    Returns (forEach g body) (g.items.map f) := by
  refine (Returns.mapM hf).bind (Returns.bind (a := ()) ?_ (Returns.pure _))
  rw [hg]
  exact Returns.pure ()

theorem returns_imageOf {i : SdkImage}
    (hm : i.visibility = "shared" → (conn.members i).fails = none) :
    Returns (imageOf conn i) (imageRecord conn i) := by
  rw [imageOf, imageRecord, imageAccess]
  by_cases hp : i.visibility = "private"
  · rw [if_pos hp, if_pos hp]
    exact (Returns.pure _).bind (Returns.pure _)
  · rw [if_neg hp, if_neg hp]
    by_cases hs : i.visibility = "shared"
    · rw [if_pos hs, if_pos hs]
      have hmembers : Returns (forEach (conn.members i) pure) ((conn.members i).items.map id) :=
        returns_forEach (hm hs) fun _ _ => Returns.pure _
      rw [List.map_id] at hmembers
      have hprojects : Returns (getImageProjects conn i) (i.ownerId ::
          ((conn.members i).items.filter (·.status = "accepted")).map (·.id)).dedup :=
        hmembers.bind (Returns.pure _)
      exact (hprojects.map Access.priv).bind (Returns.pure _)
    · rw [if_neg hs, if_neg hs]
      exact (Returns.pure _).bind (Returns.pure _)

theorem returns_imagesWithTag {tag : String} (h : (conn.images (some tag)).fails = none)
    (osImages : List SdkImage) :
    Returns (imagesWithTag conn osImages tag) (keepNew conn osImages tag) := by
  have hnew : Returns (forEach (conn.images (some tag)) pure)
      ((conn.images (some tag)).items.map id) :=
    returns_forEach h fun _ _ => Returns.pure _
  rw [List.map_id] at hnew
  exact hnew.bind (Returns.pure _)

variable {active : List SdkImage} {tags : List String}

theorem mem_images (h : ImageService conn active) {t : String} {i : SdkImage} :
    i ∈ (conn.images (some t)).items ↔ i ∈ active ∧ t ∈ i.tags := by
  rw [(h.images t).1.mem_iff, List.mem_filter, decide_eq_true_eq]

theorem mem_active_of_mem_foldl (h : ImageService conn active) {i : SdkImage}
    (hi : i ∈ tags.foldl (keepNew conn) []) : i ∈ active := by
  obtain ⟨t, -, hi⟩ := (mem_foldl_keepNew tags i).mp hi
  exact ((mem_images h).mp hi).1

/-- When it asks for some tags, `get_images` returns the record of each image
found for them. -/
theorem getImages_run (h : ImageService conn active) (hne : tags ≠ []) :
    Returns (getImages conn tags) ((foundImages conn tags).map (imageRecord conn)) := by
  have hpos : tags.length > 0 := List.length_pos_iff.mpr hne
  rw [getImages, foundImages, if_pos hpos, if_pos hpos]
  have hfound : Returns (tags.foldlM (imagesWithTag conn) []) (tags.foldl (keepNew conn) []) :=
    Returns.foldlM fun osImages tag _ => returns_imagesWithTag (h.images tag).2 osImages
  exact hfound.bind (Returns.mapM fun i hi =>
    returns_imageOf (h.members i (mem_active_of_mem_foldl h hi)))

/-! ## The images of an image service -/

/-- Images with one id are one image. -/
theorem eq_of_id (h : ImageService conn active) {i j : SdkImage} (hi : i ∈ active) (hj : j ∈ active)
    (hid : i.id = j.id) : i = j :=
  List.inj_on_of_nodup_map h.distinct hi hj hid

theorem firstTag_mem {i : SdkImage} {t : String} (h : firstTag tags i = some t) :
    t ∈ tags ∧ t ∈ i.tags := by
  rw [firstTag] at h
  exact ⟨List.mem_of_find?_eq_some h, by simpa using List.find?_some h⟩

/-- An image found for a tag has it as its first tag. -/
theorem firstTag_of_name (h : ImageService conn active) {i : SdkImage} {t : String}
    (hi : i ∈ active) (ht : firstTagOfName conn tags i.name = some t) (hti : t ∈ i.tags) :
    firstTag tags i = some t := by
  obtain ⟨-, before, after, rfl, hbefore⟩ := List.find?_eq_some_iff_append.mp ht
  refine List.find?_eq_some_iff_append.mpr ⟨decide_eq_true hti, before, after, rfl, fun t' ht' => ?_⟩
  have hno := hbefore t' ht'
  simp only [Bool.not_eq_true', List.any_eq_false, decide_eq_true_eq] at hno
  simp only [Bool.not_eq_true', decide_eq_false_iff_not]
  exact fun hmem => hno i ((mem_images h).mpr ⟨hi, hmem⟩) rfl

/-- Every image that carries some of the tags is found exactly when those with
one name have one first tag. -/
theorem found_all_iff (h : ImageService conn active) :
    (∀ i ∈ active, (∃ t ∈ tags, t ∈ i.tags) → i ∈ tags.foldl (keepNew conn) []) ↔
      OneFirstTag active tags := by
  simp only [mem_foldl_keepNew]
  constructor
  · intro hall i hi j hj hname t t' ht ht'
    have hfirst : ∀ k ∈ active, ∀ t, firstTag tags k = some t →
        firstTagOfName conn tags k.name = some t := by
      intro k hk t ht
      obtain ⟨t₀, hname, hmem⟩ := hall k hk ⟨t, firstTag_mem ht⟩
      rw [firstTag_of_name h hk hname ((mem_images h).mp hmem).2] at ht
      exact ht ▸ hname
    have hi' := hfirst i hi t ht
    rw [hname, hfirst j hj t' ht'] at hi'
    exact (Option.some.inj hi').symm
  · rintro hsame i hi ⟨t, ht, hti⟩
    have hany : ((conn.images (some t)).items.any (·.name = i.name)) = true :=
      List.any_eq_true.mpr ⟨i, (mem_images h).mpr ⟨hi, hti⟩, decide_eq_true rfl⟩
    have hsome : (firstTagOfName conn tags i.name).isSome = true :=
      List.find?_isSome.mpr ⟨t, ht, hany⟩
    have hsome' : (firstTag tags i).isSome = true :=
      List.find?_isSome.mpr ⟨t, ht, decide_eq_true hti⟩
    obtain ⟨t₀, ht₀⟩ := Option.isSome_iff_exists.mp hsome
    obtain ⟨t₁, ht₁⟩ := Option.isSome_iff_exists.mp hsome'
    -- some image of this name has `t₀` as its first tag, and so has `i`
    obtain ⟨j, hj, hji⟩ := firstTagOfName_listed ht₀
    obtain ⟨hj, htj⟩ := (mem_images h).mp hj
    have hfirst : firstTag tags j = some t₀ := firstTag_of_name h hj (hji ▸ ht₀) htj
    have heq := hsame i hi j hj hji.symm t₁ t₀ ht₁ hfirst
    have hti₀ : t₀ ∈ i.tags := heq ▸ (firstTag_mem ht₁).2
    exact ⟨t₀, ht₀, (mem_images h).mpr ⟨hi, hti₀⟩⟩

/-- The images found for some tags are those that carry one of them, each once,
exactly when the images with one name have one first tag. -/
theorem exactImages_iff (h : ImageService conn active) (hne : tags ≠ []) :
    ExactImages active tags ((foundImages conn tags).map (imageRecord conn)) ↔
      OneFirstTag active tags := by
  have hfound : foundImages conn tags = tags.foldl (keepNew conn) [] :=
    if_pos (List.length_pos_iff.mpr hne)
  have huuids : ((tags.foldl (keepNew conn) []).map (imageRecord conn)).map (·.uuid) =
      (tags.foldl (keepNew conn) []).map (·.id) := by
    rw [List.map_map]
    rfl
  rw [hfound, ← found_all_iff h]
  constructor
  · rintro ⟨-, hmem⟩ i hi hcarries
    have hu := (hmem i.id).mpr ⟨i, hi, rfl, hcarries⟩
    rw [huuids] at hu
    obtain ⟨j, hj, hji⟩ := List.mem_map.mp hu
    exact eq_of_id h (mem_active_of_mem_foldl h hj) hi hji ▸ hj
  · intro hall
    refine ⟨?_, fun u => ?_⟩
    · rw [huuids]
      refine nodup_foldl_keepNew (fun t => ?_) (fun t t' i hi j hj hij => ?_) tags
      · exact ((h.images t).1.map _).nodup_iff.mpr (h.distinct.sublist (List.filter_sublist.map _))
      · rw [eq_of_id h ((mem_images h).mp hi).1 ((mem_images h).mp hj).1 hij]
    · rw [huuids, List.mem_map]
      constructor
      · rintro ⟨i, hi, rfl⟩
        obtain ⟨t, ht, hmem⟩ := (mem_foldl_keepNew tags i).mp hi
        exact ⟨i, mem_active_of_mem_foldl h hi, rfl, t, List.mem_of_find?_eq_some ht,
          ((mem_images h).mp hmem).2⟩
      · rintro ⟨i, hi, rfl, hcarries⟩
        exact ⟨i, hall i hi hcarries, rfl⟩

/-- For some tags, `get_images` returns each active image that carries one of
them once, and no other, exactly when the images with one name that carry some
of the tags carry one of them first. -/
theorem getImages_tags (h : ImageService conn active) (hne : tags ≠ []) :
    ∃ images, (∀ s, (getImages conn tags).run s = .ok (images, s)) ∧
      (ExactImages active tags images ↔ ∀ i ∈ active, ∀ j ∈ active, i.name = j.name →
        ∀ t t', firstTag tags i = some t → firstTag tags j = some t' → t = t') :=
  ⟨_, getImages_run h hne, exactImages_iff h hne⟩

/-- Asking for more tags removes no image, when for both lists of tags the
images with one name have one first tag. -/
theorem getImages_grows (h : ImageService conn active) {tags' : List String} (hne : tags ≠ [])
    (hsub : tags ⊆ tags') (hone : OneFirstTag active tags) (hone' : OneFirstTag active tags') :
    ∃ images images', (∀ s, (getImages conn tags).run s = .ok (images, s)) ∧
      (∀ s, (getImages conn tags').run s = .ok (images', s)) ∧
      images.map (·.uuid) ⊆ images'.map (·.uuid) := by
  have hne' : tags' ≠ [] := fun hnil => hne (List.subset_nil.mp (hnil ▸ hsub))
  refine ⟨_, _, getImages_run h hne, getImages_run h hne', fun u hu => ?_⟩
  obtain ⟨i, hi, hid, t, ht, hti⟩ := (((exactImages_iff h hne).mpr hone).mem u).mp hu
  exact (((exactImages_iff h hne').mpr hone').mem u).mpr ⟨i, hi, hid, t, hsub ht, hti⟩

/-- A connection of the project `project` to a cloud with these images. -/
def imageCloud (project : String) (images : List SdkImage) : Connection :=
  { bareCloud project with
    computeEndpoint := .ok (some "https://nova.recas.it")
    images := fun tag => { items := tag.elim images fun t => images.filter (t ∈ ·.tags) } }

theorem imageCloud_service {project : String} {images : List SdkImage}
    (h : (images.map (·.id)).Nodup) : ImageService (imageCloud project images) images :=
  ⟨h, fun _ => ⟨.refl _, rfl⟩, fun _ _ _ => rfl⟩

private def taggedImage (id name : String) (tags : List String) : SdkImage :=
  { id, name, visibility := "public", ownerId := "admin", tags }

theorem getImages_tags_sample : ∃ images,
    (getImages (imageCloud "cms" [taggedImage "1" "ubuntu" ["egi", "recas"],
      taggedImage "2" "centos" ["recas"]]) ["egi", "recas"]).run false = .ok (images, false) ∧
    ExactImages [taggedImage "1" "ubuntu" ["egi", "recas"], taggedImage "2" "centos" ["recas"]]
      ["egi", "recas"] images := by
  have h : ImageService (imageCloud "cms" [taggedImage "1" "ubuntu" ["egi", "recas"],
      taggedImage "2" "centos" ["recas"]]) _ := imageCloud_service (by decide)
  obtain ⟨images, hrun, hiff⟩ := getImages_tags h (List.cons_ne_nil "egi" ["recas"])
  refine ⟨images, hrun false, hiff.mpr ?_⟩
  intro i hi j hj hname t t' ht ht'
  rcases List.mem_pair.mp hi with rfl | rfl <;> rcases List.mem_pair.mp hj with rfl | rfl
  · exact Option.some.inj (ht.symm.trans ht')
  · exact absurd hname (by decide)
  · exact absurd hname (by decide)
  · exact Option.some.inj (ht.symm.trans ht')

/-- Two images with one name: the one with the second tag is returned for that
tag alone, and is lost when the first tag is asked for as well. -/
theorem image_lost :
    ((getImages (imageCloud "cms" [taggedImage "1" "ubuntu" ["egi"],
        taggedImage "2" "ubuntu" ["recas"]]) ["recas"]).run false).map
          (fun r => r.1.map (·.uuid)) = .ok ["2"] ∧
      ((getImages (imageCloud "cms" [taggedImage "1" "ubuntu" ["egi"],
        taggedImage "2" "ubuntu" ["recas"]]) ["egi", "recas"]).run false).map
          (fun r => r.1.map (·.uuid)) = .ok ["1"] := ⟨rfl, rfl⟩

end FRF.Proof
