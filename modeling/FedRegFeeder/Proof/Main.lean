import FedRegFeeder.Impl.Main
import FedRegFeeder.Proof.Providers.Quotas
import FedRegFeeder.Proof.Registry

/-!
# The exit status

The stages of a run, each a function of what the program finds outside
(`Spec.siteConfigs`, `Spec.threads`, `Spec.runs`, `Spec.providers`), and what
it means that one of them failed (`LoadFailed`, `endsWithError`,
`UpdateFailed`). A run that reaches its end goes through these stages
(`main_stages`), but the loop over the providers binds the `error` of `main`
itself, so after it only the error of the last provider is left. The exit
status reports every failure exactly when none is lost there
(`main_exitStatus_iff`).
-/

namespace FRF.Spec

open FRF.Impl FRF.Impl.ProviderThread
open Framework

section
variable (sys : System) (settings : Settings)

/-- The yaml files. -/
def yamlFiles : List String := (getConfFiles sys.listdir settings).toOption.getD []

/-- The configurations that could be loaded. -/
def siteConfigs : List Loaded :=
  (yamlFiles sys settings).filterMap fun fname => (loadConfig sys.reader fname).toOption.join

/-- The threads of all providers. -/
def threads : List ProviderThread :=
  (siteConfigs sys settings).flatMap fun c => (providerThreads c).toOption.getD []

/-- The runs of the threads. -/
def runs : List ProviderRun :=
  (threads sys settings).filterMap fun t =>
    ((getProvider (getProviderData sys.world) t settings.parallel).run {}).toOption

/-- The providers that are sent to the registry. -/
def providers : List ProviderCreateExtended :=
  (runs sys settings).filterMap fun run =>
    (createProvider sys.validateProvider run.1.1 run.1.2.1 run.1.2.2).toOption

/-- A yaml file failed to load. -/
def LoadFailed : Prop :=
  ∃ fname ∈ yamlFiles sys settings, loadConfig sys.reader fname = .ok none

/-- The thread ends with `error = True`. -/
def endsWithError (t : ProviderThread) : Bool :=
  ((getProvider (getProviderData sys.world) t settings.parallel).run {}).toOption.any (·.2.error)

/-- `update_database` returns `False`. -/
def UpdateFailed : Prop :=
  ∃ token, firstToken (siteConfigs sys settings) = .ok token ∧
    (updateDatabase sys.registry (inferServiceEndpoints settings) (providers sys settings) token
      settings.fedRegTimeout {}).1 = .ok false

end

end FRF.Spec

namespace FRF.Proof

open FRF.Impl FRF.Impl.ProviderThread FRF.Spec
open Framework Framework.Session

/-- What `get_provider` returns last is the `error` of its thread. -/
theorem getProvider_error {w : World} {t : ProviderThread} {parallel : Bool} {conf : Provider}
    {data : List ConnectionData} {error : Bool} {s : Log Attempt}
    (h : (getProvider (getProviderData w) t parallel).run {} = .ok ((conf, data, error), s)) :
    error = s.error := by
  by_cases ht : t.providerConf.status = .active
  · obtain ⟨-, hres⟩ := (getProvider_eq_ok _ ht).mp h
    cases hres
    rfl
  · rw [getProvider_inactive _ ht] at h
    cases h
    rfl

section
variable {sys : System} {settings : Settings}

theorem collectProvider_eq_ok {acc acc' : Collected} {run : ProviderRun}
    (h : collectProvider sys acc run = .ok acc') : ∃ provider,
      createProvider sys.validateProvider run.1.1 run.1.2.1 run.1.2.2 = .ok provider ∧
        acc'.error = run.1.2.2 ∧ acc'.providers = acc.providers ++ [provider] := by
  simp only [collectProvider, bind_eq_ok, pure_eq_ok] at h
  obtain ⟨provider, hp, rfl⟩ := h
  exact ⟨provider, hp, rfl, rfl⟩

/-- After the loop, the error is that of the last provider, if there is one. -/
theorem foldlM_collectProvider_error :
    ∀ {runs : List ProviderRun} {acc acc' : Collected},
      runs.foldlM (collectProvider sys) acc = .ok acc' →
        acc'.error = ((runs.map (·.1.2.2)).getLast?).getD acc.error
  | [], acc, acc', h => by
    rw [foldlM_nil_ok.mp h]
    rfl
  | run :: runs, acc, acc', h => by
    obtain ⟨acc₁, h₁, h₂⟩ := foldlM_cons_ok.mp h
    obtain ⟨_, -, herr, -⟩ := collectProvider_eq_ok h₁
    rw [foldlM_collectProvider_error h₂, herr, List.map_cons, List.getLast?_cons, Option.getD_some]

theorem foldlM_collectProvider_providers :
    ∀ {runs : List ProviderRun} {acc acc' : Collected},
      runs.foldlM (collectProvider sys) acc = .ok acc' →
        acc'.providers = acc.providers ++
          runs.filterMap fun run =>
            (createProvider sys.validateProvider run.1.1 run.1.2.1 run.1.2.2).toOption
  | [], acc, acc', h => by
    rw [foldlM_nil_ok.mp h]
    exact (List.append_nil _).symm
  | run :: runs, acc, acc', h => by
    obtain ⟨acc₁, h₁, h₂⟩ := foldlM_cons_ok.mp h
    obtain ⟨provider, hp, -, hps⟩ := collectProvider_eq_ok h₁
    rw [foldlM_collectProvider_providers h₂, hps, List.filterMap_cons, hp, List.append_assoc]
    rfl

theorem getSiteConfigs_eq_ok {files : List String} (hfiles : yamlFiles sys settings = files)
    {cs : List Loaded} {error : Bool} (h : getSiteConfigs sys.reader files = .ok (cs, error)) :
    siteConfigs sys settings = cs ∧ (error = true ↔ LoadFailed sys settings) := by
  simp only [getSiteConfigs, bind_eq_ok, pure_eq_ok, Prod.mk.injEq] at h
  obtain ⟨loaded, hloaded, rfl, rfl⟩ := h
  constructor
  · show siteConfigs sys settings = loaded.filterMap id
    rw [siteConfigs, hfiles, mapM_filterMap hloaded]
    refine List.filterMap_congr fun fname _ => ?_
    cases loadConfig sys.reader fname <;> rfl
  · simp only [List.any_eq_true, Option.isNone_iff_eq_none, exists_eq_right, LoadFailed, hfiles]
    exact mapM_mem_ok hloaded none

theorem providerThreads_eq_ok {cs : List Loaded} (hcs : siteConfigs sys settings = cs)
    {pthreads : List (List ProviderThread)} (h : cs.mapM providerThreads = .ok pthreads) :
    threads sys settings = pthreads.flatten := by
  have hmap : pthreads.map id = cs.map fun c => (providerThreads c).toOption.getD [] :=
    mapM_map_eq (fun c _ ts hc => by rw [hc]; rfl) h
  rw [threads, hcs, List.flatMap_def, ← hmap, List.map_id]

theorem runThreads_eq_ok {rs : List ProviderRun}
    (h : runThreads sys.world settings.parallel (threads sys settings) = .ok rs) :
    runs sys settings = rs ∧
      rs.map (·.1.2.2) = (threads sys settings).map (endsWithError sys settings) := by
  constructor
  · rw [runs, ← List.filterMap_some (l := rs), mapM_filterMap h]
    refine List.filterMap_congr fun t _ => ?_
    exact (Option.bind_fun_some _).symm
  · refine mapM_map_eq (fun t _ run ht => ?_) h
    rw [endsWithError, ht]
    exact getProvider_error ht

theorem updateFailed_iff {token : String} {updated : Bool}
    (htoken : firstToken (siteConfigs sys settings) = .ok token)
    (hupdated : (updateDatabase sys.registry (inferServiceEndpoints settings)
      (providers sys settings) token settings.fedRegTimeout {}).1 = .ok updated) :
    UpdateFailed sys settings ↔ updated = false := by
  constructor
  · rintro ⟨token', htoken', hfalse⟩
    rw [htoken] at htoken'
    cases htoken'
    rw [hupdated] at hfalse
    exact Except.ok.inj hfalse
  · rintro rfl
    exact ⟨token, htoken, hupdated⟩

/-- What the loop over the providers leaves when it starts from the errors of
all the stages before it. -/
theorem collected_error {loadError : Bool} {rs : List ProviderRun} {collected : Collected}
    (herrors : rs.map (·.1.2.2) = (threads sys settings).map (endsWithError sys settings))
    (h : rs.foldlM (collectProvider sys) { error := loadError || rs.any (·.2.error) } = .ok collected) :
    collected.error =
      ((threads sys settings).map (endsWithError sys settings)).getLast?.getD loadError := by
  rw [foldlM_collectProvider_error h, herrors]
  cases ht : threads sys settings with
  | nil =>
    rw [ht, List.map_nil, List.map_eq_nil_iff] at herrors
    rw [herrors]
    exact Bool.or_false _
  | cons t ts => rw [List.map_cons, List.getLast?_cons, Option.getD_some, Option.getD_some]

/-- The stages of a run that reaches its end, and what is left of their
failures: that of the last thread, or of loading the configurations when there
is no thread, and that of updating the registry. -/
theorem main_stages {status : Nat} (h : main sys settings = .ok status) :
    ∃ loadError updated, (loadError = true ↔ LoadFailed sys settings) ∧
      (UpdateFailed sys settings ↔ updated = false) ∧
      (status = 1 ↔ (((threads sys settings).map (endsWithError sys settings)).getLast?.getD
        loadError = true ∨ updated = false)) := by
  simp only [main, mainSession, fst_bind, fst_ofExcept, fst_within, bind_eq_ok] at h
  obtain ⟨files, hfiles, ⟨cs, loadError⟩, hcs, pthreads, hthreads, rs, hrs, collected, hcollected,
    -, -, token, htoken, updated, hupdated, hstatus⟩ := h
  cases hstatus
  have hyaml : yamlFiles sys settings = files := by
    rw [yamlFiles, hfiles]
    rfl
  obtain ⟨hcs, hload⟩ := getSiteConfigs_eq_ok hyaml hcs
  rw [← providerThreads_eq_ok hcs hthreads] at hrs
  obtain ⟨hruns, herrors⟩ := runThreads_eq_ok hrs
  have hproviders : providers sys settings = collected.providers := by
    rw [providers, hruns, foldlM_collectProvider_providers hcollected]
    rfl
  refine ⟨loadError, updated, hload, updateFailed_iff (hcs ▸ htoken) (hproviders ▸ hupdated), ?_⟩
  rw [← collected_error herrors hcollected]
  cases collected.error <;> cases updated <;> simp

end

/-- A run of `main` that reaches its end exits with status 1 if and only if a
file failed to load, a thread ended with an error or the update of the registry
failed, exactly when there is no thread, the last one ends with an error, the
update fails, or no file and no thread fails. -/
theorem main_exitStatus_iff {sys : System} {settings : Settings} {status : Nat}
    (h : main sys settings = .ok status) :
    (status = 1 ↔ LoadFailed sys settings ∨
        (∃ t ∈ threads sys settings, endsWithError sys settings t = true) ∨
          UpdateFailed sys settings) ↔
      threads sys settings = [] ∨
        (∃ t, (threads sys settings).getLast? = some t ∧ endsWithError sys settings t = true) ∨
          UpdateFailed sys settings ∨ (¬ LoadFailed sys settings ∧
            ∀ t ∈ threads sys settings, endsWithError sys settings t = false) := by
  obtain ⟨loadError, updated, hload, hupdated, hstatus⟩ := main_stages h
  rw [hstatus, ← hload, hupdated, List.getLast?_map]
  cases hl : (threads sys settings).getLast? with
  | none => simp [List.getLast?_eq_none_iff.mp hl]
  | some t =>
    have hmem : t ∈ threads sys settings := List.mem_of_getLast? hl
    have hne : threads sys settings ≠ [] := List.ne_nil_of_mem hmem
    simp only [Option.map_some, Option.getD_some, Option.some.injEq, exists_eq_left', hne, false_or]
    cases ht : endsWithError sys settings t with
    | true => exact iff_of_true (iff_of_true (.inl rfl) (.inr (.inl ⟨t, hmem, ht⟩))) (.inl rfl)
    | false =>
      have hall : (∀ t ∈ threads sys settings, endsWithError sys settings t = false) ↔
          ¬ ∃ t ∈ threads sys settings, endsWithError sys settings t = true := by
        simp only [not_exists, not_and, Bool.not_eq_true]
      rw [hall]
      -- the failures before the last thread do not reach the status
      cases updated with
      | false => simp
      | true => simp [not_or]

/-- A system with the configuration file of the sample provider and an empty
one, where the provider answers and the registry accepts every write. -/
def sampleSystem : System where
  listdir _ := .ok ["recas.config.yaml", "empty.config.yaml"]
  load fname :=
    if fname = "providers-conf/recas.config.yaml" then .ok (.mapping [(.str "kubernetes", .list [])])
    else .ok .null
  build _ := .built (kubernetesSite sampleIssuer sampleConf rfl)
  world := kubernetesWorld (.ok "token") sampleCluster
  validateProvider _ := .ok ()
  kafka := { create := .error .noBrokersAvailable, send := fun _ _ _ => .ok (), close := .ok () }
  now _ := "2024-01-01T00:00:00+00:00"
  registry := acceptingRegistry []

/-- Without the empty file. -/
def loadingSystem : System := { sampleSystem with listdir := fun _ => .ok ["recas.config.yaml"] }

theorem main_exitStatus_iff_sample :
    main loadingSystem {} = .ok 0 ∧
    (0 = 1 ↔ LoadFailed loadingSystem {} ∨
      (∃ t ∈ threads loadingSystem {}, endsWithError loadingSystem {} t = true) ∨
        UpdateFailed loadingSystem {}) := by
  have hrun : main loadingSystem {} = .ok 0 := rfl
  refine ⟨hrun, (main_exitStatus_iff hrun).mpr (.inr (.inr (.inr ⟨?_, ?_⟩)))⟩
  · rintro ⟨fname, hmem, hload⟩
    rw [List.mem_singleton.mp hmem] at hload
    cases hload
  · intro t ht
    rw [List.mem_singleton.mp ht]
    rfl

/-- The empty file fails to load, but the provider of the other one succeeds. -/
theorem loadError_lost :
    main sampleSystem {} = .ok 0 ∧ ¬ (0 = 1 ↔ LoadFailed sampleSystem {} ∨
      (∃ t ∈ threads sampleSystem {}, endsWithError sampleSystem {} t = true) ∨
        UpdateFailed sampleSystem {}) := by
  refine ⟨rfl, fun h => absurd (h.mpr (.inl ?_)) Nat.zero_ne_one⟩
  exact ⟨"providers-conf/empty.config.yaml", List.mem_cons_of_mem _ (List.mem_singleton_self _), rfl⟩

end FRF.Proof
