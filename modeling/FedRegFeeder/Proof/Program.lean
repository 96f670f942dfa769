import FedRegFeeder.Framework.Paired
import FedRegFeeder.Proof.Effects
import FedRegFeeder.Proof.Providers.Offers

/-!
# Histories of the program

One run of the program after the other, each with its own configurations and
clouds, and each ending as it may.

* `feeds_syncs`: what a run makes of the registry is what `update_database`
  makes of it, if it comes to that;
* `program_feeds`: every history is one of updates of the catalogue, and a run
  that exits with 0 has stored every configured provider;
* `program_sound`: what the registry has stays sound;
* `program_offers`: a run that exits with 0 leaves in the catalogue, of every
  configured provider, what its clouds offer.
-/

namespace FRF.Spec

open FRF.Impl
open Framework

def requestOf? : Effect → Option Request
  | .message _ => none
  | .request q => some q

/-- The token of a run, if it comes to that. -/
def tokenOf (sys : System) (settings : Settings) : String :=
  (firstToken (siteConfigs sys settings)).toOption.getD ""

/-- The client of a run of the program. -/
def clientOf (sys : System) (settings : Settings) : CRUD :=
  client (inferServiceEndpoints settings) (tokenOf sys settings) settings.fedRegTimeout

/-- A run of the program takes the registry at `url` from one store to another. -/
def Feeds (url : String) (σ : Store) (x : System × Settings) (σ' : Store) : Prop :=
  inferServiceEndpoints x.2 = url ∧
    Steps (Exchange (clientOf x.1 x.2)) σ
      (Session.exchanges (answerTo x.1.registry (clientOf x.1 x.2)) 0
        ((mainSession x.1 x.2 {}).2.attempts.filterMap requestOf?)) σ'

/-- One provider of each name at most is configured, of the type of the name. -/
structure Configured (type : String → ProviderType) (ts : List ProviderThread) : Prop where
  names : (ts.map (·.providerConf.name)).Nodup
  types : ∀ t ∈ ts, t.providerConf.type = type t.providerConf.name

/-- What a run of the program is for: if it exits with 0, what was built of
every configured provider is in the catalogue, under its name. -/
structure Feeding (x : System × Settings) (m m' : Catalogue) : Prop
    extends Updates (providers x.1 x.2) (main x.1 x.2 = .ok 0) m m' where
  configured : main x.1 x.2 = .ok 0 → ∀ t ∈ threads x.1 x.2,
    ∃ uid p, Built x.1 x.2 t p ∧ m' t.providerConf.name = some (uid, p)

/-- Every provider in the registry is sound. -/
def AllSound (σ : Store) : Prop := ∀ uid p, σ.get? uid = some p → Sound p

/-- The catalogue has of every configured provider what its clouds offer. -/
def Truthful (x : System × Settings) (m : Catalogue) : Prop :=
  ∀ t ∈ threads x.1 x.2, ∃ uid p, m t.providerConf.name = some (uid, p) ∧
    ∀ entry, (componentsOf p).Has entry ↔
      t.providerConf.status = .active ∧ Offered x.1.world t entry

end FRF.Spec

namespace FRF.Proof

open FRF.Impl FRF.Spec
open Framework Session

section
variable {sys : System} {settings : Settings}

theorem filterMap_requestOf? (messages : List KafkaMessage) (requests : List Request) :
    (messages.map Effect.message ++ requests.map Effect.request).filterMap requestOf? = requests := by
  have hnone : messages.filterMap (requestOf? ∘ Effect.message) = [] :=
    List.filterMap_eq_nil_iff.mpr fun _ _ => rfl
  have hsome : requests.filterMap (requestOf? ∘ Effect.request) = requests :=
    List.filterMap_some
  rw [List.filterMap_append, List.filterMap_map, List.filterMap_map, hnone, hsome, List.nil_append]

theorem built_name {t : ProviderThread} {p : ProviderCreateExtended} (h : Built sys settings t p) :
    p.name = t.providerConf.name ∧ p.type = t.providerConf.type := by
  obtain ⟨data, error, s, -, hp⟩ := h
  obtain ⟨_, c, -, -, -, rfl⟩ := createProvider_eq_ok.mp hp
  exact ⟨rfl, rfl⟩

theorem coherent_of_built {type : String → ProviderType} {ts : List ProviderThread}
    {ps : List ProviderCreateExtended} (hts : Configured type ts)
    (h : List.Forall₂ (Built sys settings) ts ps) : Coherent type ps := by
  have hnames : ps.map (·.name) = ts.map (·.providerConf.name) := by
    clear hts
    induction h with
    | nil => rfl
    | cons hb _ ih => rw [List.map_cons, List.map_cons, ih, (built_name hb).1]
  refine ⟨hnames ▸ hts.names, fun p hp => ?_⟩
  obtain ⟨t, ht, hb⟩ := forall₂_mem_left h.flip hp
  obtain ⟨hname, htype⟩ := built_name hb
  rw [htype, hname, hts.types t ht]

/-- A run leaves the registry alone, or makes of it what `update_database`
does; that returned `True` if the run exits with 0. -/
theorem feeds_syncs {url : String} {σ σ' : Store} (h : Feeds url σ (sys, settings) σ') :
    (σ' = σ ∧ main sys settings ≠ .ok 0) ∨ ∃ run : Run, run.items = providers sys settings ∧
      Syncs url σ run σ' ∧ (main sys settings = .ok 0 → run.result = .ok true) ∧
        List.Forall₂ (Built sys settings) (threads sys settings) (providers sys settings) := by
  obtain ⟨rfl, hsteps⟩ := h
  have hends := @mainSession_ends sys settings
  -- the requests of `update_database`, with the token of the run
  have hsync : ∀ {token : String}, firstToken (siteConfigs sys settings) = .ok token →
      ∀ {messages : List KafkaMessage},
      (mainSession sys settings {}).2.attempts = messages.map .message ++
        (updateDatabase sys.registry (inferServiceEndpoints settings) (providers sys settings) token
          settings.fedRegTimeout {}).2.attempts.map .request →
        Syncs (inferServiceEndpoints settings) σ ⟨providers sys settings, token, settings.fedRegTimeout,
          (updateDatabase sys.registry (inferServiceEndpoints settings) (providers sys settings) token
            settings.fedRegTimeout {}).1⟩ σ' := by
    intro token htoken messages hattempts
    have hclient : clientOf sys settings = client (inferServiceEndpoints settings) token
        settings.fedRegTimeout := by
      rw [clientOf, tokenOf, htoken]
      rfl
    refine ⟨sys.registry, rfl, ?_⟩
    simp only [hattempts, filterMap_requestOf?, hclient] at hsteps
    exact hsteps
  rcases hx : mainSession sys settings {} with ⟨e | status, s⟩
  · have hmain : main sys settings = .error e := by rw [main, hx]
    obtain ⟨messages, requests, hattempts, hsent⟩ := hends.error hx
    by_cases hne : requests = []
    · left
      simp only [hx, hattempts, hne, filterMap_requestOf?] at hsteps
      exact ⟨Steps.nil_iff.mp hsteps, by simp [hmain]⟩
    · right
      obtain ⟨token, htoken, rfl⟩ := hsent.requested hne
      exact ⟨_, rfl, hsync htoken (by rw [hx, hattempts]), by simp [hmain], hsent.built (.inr hne)⟩
  · have hmain : main sys settings = .ok status := by rw [main, hx]
    right
    obtain ⟨messages, token, hattempts, -, htoken, hbuilt, htrue, -⟩ := hends.ok hx
    refine ⟨_, rfl, hsync htoken (by rw [hx, hattempts]), fun hzero => ?_, hbuilt⟩
    rw [hmain] at hzero
    exact htrue (Except.ok.inj hzero)

/-- A run of the program keeps the registry consistent, and feeds its catalogue. -/
theorem feeds_feeding {type : String → ProviderType} {url : String} {σ σ' : Store}
    (hconf : Configured type (threads sys settings)) (hσ : Consistent type σ)
    (h : Feeds url σ (sys, settings) σ') :
    Consistent type σ' ∧ Feeding (sys, settings) (catalogue σ) (catalogue σ') := by
  rcases feeds_syncs h with ⟨rfl, hmain⟩ | ⟨run, hitems, hsync, hzero, hbuilt⟩
  · exact ⟨hσ, updates_refl _ hmain _, fun h => absurd h hmain⟩
  · have hcoherent := coherent_of_built hconf hbuilt
    rw [← hitems] at hcoherent
    obtain ⟨hσ', hupdates⟩ := syncs_updates hσ hcoherent hsync
    rw [hitems] at hupdates
    have hall := updates_mono hupdates (fun _ => id) fun h => ⟨hzero h, rfl⟩
    refine ⟨hσ', hall, fun hmain t ht => ?_⟩
    obtain ⟨p, hp, hb⟩ := forall₂_mem_left hbuilt ht
    obtain ⟨uid, huid⟩ := hall.complete hmain p hp
    exact ⟨uid, p, hb, (built_name hb).1 ▸ huid⟩

/-- A history of the program is one of the catalogue, with what every run that
feeds it does. -/
theorem feeds_steps {type : String → ProviderType} {url : String} {σ σ' : Store}
    {runs : List (System × Settings)} {R : Catalogue → System × Settings → Catalogue → Prop}
    (hR : ∀ x m m', Feeding x m m' → R m x m')
    (hconf : ∀ x ∈ runs, Configured type (threads x.1 x.2)) (hσ : Consistent type σ)
    (h : Steps (Feeds url) σ runs σ') :
    Consistent type σ' ∧ Steps R (catalogue σ) runs (catalogue σ') := by
  have hstep : ∀ x ∈ runs, ∀ τ τ' m, (Consistent type τ ∧ m = catalogue τ) → Feeds url τ x τ' →
      ∃ m', R m x m' ∧ Consistent type τ' ∧ m' = catalogue τ' := by
    rintro x hx τ τ' m ⟨hτ, rfl⟩ hfeeds
    obtain ⟨hτ', hfeeding⟩ := feeds_feeding (hconf x hx) hτ hfeeds
    exact ⟨_, hR _ _ _ hfeeding, hτ', rfl⟩
  obtain ⟨m', hm', hσ', rfl⟩ := h.simulates hstep ⟨hσ, rfl⟩
  exact ⟨hσ', hm'⟩

/-- In every history of the program in which each name is configured once, with
one type, the registry has one provider of each name at most, which keeps its
uid, whatever fails and wherever a run ends; and a run that exits with 0 has
stored what it built of every configured provider. -/
theorem program_feeds {type : String → ProviderType} {url : String} {σ σ' : Store}
    {runs : List (System × Settings)} (hconf : ∀ x ∈ runs, Configured type (threads x.1 x.2))
    (hσ : Consistent type σ) (h : Steps (Feeds url) σ runs σ') :
    Consistent type σ' ∧ Steps (fun m x m' => Feeding x m m') (catalogue σ) runs (catalogue σ') :=
  feeds_steps (fun _ _ _ hfeeding => hfeeding) hconf hσ h

theorem built_sound (hw : Faithful sys.world.connectOpenstack) {t : ProviderThread}
    {p : ProviderCreateExtended} (h : Built sys settings t p) : Sound p := by
  obtain ⟨data, error, s, hrun, hp⟩ := h
  obtain ⟨siblings, c, hsiblings, hc, hkeys, hclosed⟩ :=
    mergeComponents_selfContained (selfContained_returned hw hrun)
  rw [createProvider_merged hsiblings hc] at hp
  obtain ⟨_, -, rfl⟩ := map_eq_ok.mp hp
  exact ⟨hkeys, hclosed⟩

theorem feeds_sound {url : String} {σ σ' : Store} (hw : Faithful sys.world.connectOpenstack)
    (hσ : AllSound σ) (h : Feeds url σ (sys, settings) σ') : AllSound σ' := by
  rcases feeds_syncs h with ⟨rfl, -⟩ | ⟨run, hitems, hsync, -, hbuilt⟩
  · exact hσ
  · intro uid p hp
    rcases (syncs_keeps hsync).written uid p hp with hold | hnew
    · exact hσ uid p hold
    · rw [hitems] at hnew
      obtain ⟨t, -, hb⟩ := forall₂_mem_left hbuilt.flip hnew
      exact built_sound hw hb

/-- In every history of the program over clouds that know their connections and
list nothing twice, no run, wherever it ends, leaves in the registry a provider
that has a key twice or refers to a project that it lacks. -/
theorem program_sound {url : String} {σ σ' : Store} {runs : List (System × Settings)}
    (hclouds : ∀ x ∈ runs, Faithful x.1.world.connectOpenstack) (hσ : AllSound σ)
    (h : Steps (Feeds url) σ runs σ') : AllSound σ' :=
  h.invariant (fun x hx _ _ => feeds_sound (hclouds x hx)) hσ

theorem built_has {t : ProviderThread} {p : ProviderCreateExtended} (h : Built sys settings t p)
    (entry : Entry) : (componentsOf p).Has entry ↔
      t.providerConf.status = .active ∧ Offered sys.world t entry := by
  obtain ⟨data, error, s, hrun, hp⟩ := h
  obtain ⟨siblings, c, hsiblings, hc, -, rfl⟩ := createProvider_eq_ok.mp hp
  exact mergeComponents_offers hrun hsiblings hc entry

/-- In every history of the program in which each name is configured once, with
one type, each run that exits with 0 leaves in the catalogue, under the name of
every configured provider, one that has exactly what its clouds offer. -/
theorem program_offers {type : String → ProviderType} {url : String} {σ σ' : Store}
    {runs : List (System × Settings)} (hconf : ∀ x ∈ runs, Configured type (threads x.1 x.2))
    (hσ : Consistent type σ) (h : Steps (Feeds url) σ runs σ') :
    Steps (fun _ x m' => main x.1 x.2 = .ok 0 → Truthful x m') (catalogue σ) runs (catalogue σ') := by
  refine (feeds_steps (fun x m m' hfeeding hmain t ht => ?_) hconf hσ h).2
  obtain ⟨uid, p, hb, hstored⟩ := hfeeding.configured hmain t ht
  exact ⟨uid, p, hstored, built_has hb⟩

end

/-- A registry with the provider `recas`, which it updates. -/
def updatingRegistry : Registry := fun n _ =>
  if n = 0 then .ok { status := 200, providers := .ok [storedRecas "a" .openstack] }
  else .ok { status := 200, provider := .ok (storedRecas "a" .openstack) }

/-- A run with the provider `recas`, which has two projects in clouds with an
image, and with a Kafka that takes every message. -/
def cloudRun (registry : Registry) : System × Settings :=
  ({ loadingSystem with
      load := fun _ => .ok (.mapping [(.str "openstack", .list [])])
      build := fun _ => .built
        { trustedIdps := twoProjects.issuers, openstack := [twoProjects.providerConf]
          openstack_type := List.forall_mem_singleton.mpr rfl
          kubernetes_type := List.forall_mem_nil _ }
      world := imagesWorld
      kafka := { create := .ok (), send := fun _ _ _ => .ok (), close := .ok () }
      registry },
    { kafkaEnable := true })

/-- The update of one run is executed but not answered, that of the next is. -/
def cloudRuns : List (System × Settings) := [cloudRun failingRegistry, cloudRun updatingRegistry]

/-- A run that reads, and updates the provider `a`. -/
theorem feeds_updated {x : System × Settings} {p : ProviderCreateExtended} {σ : Store}
    {o : Except Py.PyError Response}
    (hattempts : (mainSession x.1 x.2 {}).2.attempts.filterMap requestOf? =
      [.get, .put (storedRecas "a" .openstack) p])
    (hget : ∀ m, x.1.registry 0 m = .ok { status := 200, providers := .ok (σ.entries.map listed) })
    (hput : ∀ m, x.1.registry 1 m = o)
    (h : Exchange (clientOf x.1 x.2) σ (.put (storedRecas "a" .openstack) p, o) (σ.set "a" p)) :
    Feeds (inferServiceEndpoints x.2) σ x (σ.set "a" p) := by
  refine ⟨rfl, ?_⟩
  simp only [hattempts]
  refine Steps.cons_iff.mpr ⟨σ, ?_, Steps.cons_iff.mpr ⟨σ.set "a" p, ?_, .nil _⟩⟩
  · rw [answerTo, hget]
    exact exchange_listing _ σ
  · rw [answerTo, hput]
    exact h

theorem feeds_cloudRuns : ∃ p, providers (cloudRun updatingRegistry).1 (cloudRun updatingRegistry).2 = [p] ∧
    Steps (Feeds providersUrl) sampleStore cloudRuns ((sampleStore.set "a" p).set "a" p) := by
  refine ⟨_, rfl, .cons (feeds_updated rfl (fun _ => rfl) (fun _ => rfl) ?_)
    (.cons (feeds_updated rfl (fun _ => rfl) (fun _ => rfl) ?_) (.nil _))⟩
  · exact exchange_lost _ (i := storedRecas "a" .openstack) _ rfl .connectionError
  · exact exchange_updated _ (i := storedRecas "a" .openstack) _ rfl _

theorem configured_cloudRuns : ∀ x ∈ cloudRuns, Configured sampleTypes (threads x.1 x.2) := by
  intro x hx
  rcases List.mem_pair.mp hx with rfl | rfl <;>
    exact ⟨List.nodup_singleton _, List.forall_mem_singleton.mpr rfl⟩

theorem program_feeds_sample : ∃ p,
    providers (cloudRun updatingRegistry).1 (cloudRun updatingRegistry).2 = [p] ∧
    Consistent sampleTypes ((sampleStore.set "a" p).set "a" p) ∧
    Steps (fun m x m' => Feeding x m m') (catalogue sampleStore) cloudRuns
      (catalogue ((sampleStore.set "a" p).set "a" p)) := by
  obtain ⟨p, hp, hruns⟩ := feeds_cloudRuns
  exact ⟨p, hp, program_feeds configured_cloudRuns consistent_sampleStore hruns⟩

theorem program_offers_sample : ∃ p,
    providers (cloudRun updatingRegistry).1 (cloudRun updatingRegistry).2 = [p] ∧
    Truthful (cloudRun updatingRegistry) (catalogue ((sampleStore.set "a" p).set "a" p)) := by
  obtain ⟨p, hp, hruns⟩ := feeds_cloudRuns
  obtain ⟨m, -, hrest⟩ :=
    Steps.cons_iff.mp (program_offers configured_cloudRuns consistent_sampleStore hruns)
  obtain ⟨m', htruthful, hm'⟩ := Steps.cons_iff.mp hrest
  have hcatalogue := Steps.nil_iff.mp hm'
  exact ⟨p, hp, hcatalogue ▸ htruthful rfl⟩

theorem sound_recas (type : ProviderType) : Sound (recas type) where
  keys := ⟨List.nodup_nil, List.forall_mem_nil _, List.nodup_nil, List.nodup_nil, List.forall_mem_nil _⟩
  closed _ h := by
    rcases h with ⟨h, -⟩ | ⟨h, -⟩ | ⟨h, -⟩ | ⟨h, -⟩ | ⟨h, -⟩ <;> cases h

theorem program_sound_sample : ∃ p,
    providers (cloudRun updatingRegistry).1 (cloudRun updatingRegistry).2 = [p] ∧
    AllSound ((sampleStore.set "a" p).set "a" p) := by
  obtain ⟨p, hp, hruns⟩ := feeds_cloudRuns
  have hclouds : ∀ x ∈ cloudRuns, Faithful x.1.world.connectOpenstack := by
    intro x hx
    rcases List.mem_pair.mp hx with rfl | rfl <;>
      exact faithful_imageClouds (List.nodup_singleton _)
  have hstored : AllSound sampleStore := fun uid data h => by
    rw [(get?_sampleStore h).2]
    exact sound_recas _
  exact ⟨p, hp, program_sound hclouds hstored hruns⟩

end FRF.Proof
