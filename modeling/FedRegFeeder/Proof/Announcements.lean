import FedRegFeeder.Proof.Messages
import FedRegFeeder.Proof.Program

/-!
# What is announced and what is stored

A run tells Kafka of each connection and the registry of each provider, from the
same data.

* `mentions_components`: a message mentions the entries that its data contributes
  to the provider;
* `program_announces`: after a run that exits with 0, what the messages mention
  is in the catalogue, and if Kafka takes every message all of it is mentioned.
-/

namespace FRF.Spec

open FRF.Impl
open Framework

def message? : Effect → Option KafkaMessage
  | .message m => some m
  | .request _ => none

/-- The messages that a run has sent when it ends. -/
def messagesOf (sys : System) (settings : Settings) : List KafkaMessage :=
  (mainSession sys settings {}).2.attempts.filterMap message?

/-- The services that a message lists. Of an identity service it has the
endpoint only. -/
def messageServices (m : KafkaMessage) : (k : ServiceKind) → List k.Class
  | .blockStorage => m.blockStorageServices
  | .compute => m.computeServices
  | .identity => []
  | .network => m.networkServices
  | .objectStore => m.objectStoreServices

/-- A message tells of an entry. -/
def Mentions (m : KafkaMessage) : Entry → Prop
  | .identityProvider e => m.issuerEndpoint = e
  | .userGroup e n => m.issuerEndpoint = e ∧ m.userGroup = n
  | .project u => m.projectId = u
  | .region n => m.regionName = n
  | .service n k e => m.regionName = n ∧
      ((k = .identity ∧ m.identityEndpoint = e) ∨ ∃ s ∈ messageServices m k, Service.endpoint s = e)
  | .resource n k e u => m.regionName = n ∧
      ∃ s ∈ messageServices m k.service, Service.endpoint s = e ∧ u ∈ uuids k s

/-- Kafka is enabled, and takes every message. -/
structure Accepting (kafka : Kafka) (settings : Settings) : Prop where
  enabled : settings.kafkaEnable = true
  producer : Producer.init kafka settings = .ok ()
  version : Supported settings.kafkaMsgVersion
  accepts : ∀ n topic m, kafka.send n topic m = .ok ()

/-- What the messages of a run tell of its providers is in the catalogue, and
what is there of them was told, if all messages could be sent. -/
structure Announces (x : System × Settings) (m : Catalogue) : Prop where
  stored : ∀ msg ∈ messagesOf x.1 x.2, ∃ uid p, m msg.providerName = some (uid, p) ∧
    p.type = msg.providerType ∧ ∀ entry, Mentions msg entry → (componentsOf p).Has entry
  announced : Accepting x.1.kafka x.2 → ∀ t ∈ threads x.1 x.2,
    ∃ uid p, m t.providerConf.name = some (uid, p) ∧ ∀ entry, (componentsOf p).Has entry →
      ∃ msg ∈ messagesOf x.1 x.2, msg.providerName = t.providerConf.name ∧ Mentions msg entry

end FRF.Spec

namespace FRF.Proof

open FRF.Impl FRF.Impl.ProviderThread FRF.Spec
open Framework

/-! ## One connection -/

/-- A message of any version is the common one, but for its time and audience. -/
theorem buildMessage_common {d : ConnectionDict} {m : KafkaMessage} {msgVersion now : String}
    (h : Producer.buildMessage d msgVersion now = .ok m) : ∃ m₀ timestamp issuerAudience,
      Producer.commonMessage d msgVersion = .ok m₀ ∧ m = { m₀ with timestamp, issuerAudience } := by
  simp only [Producer.buildMessage] at h
  split_ifs at h
  · exact ⟨m, m.timestamp, m.issuerAudience, h, rfl⟩
  · simp only [bind_eq_ok, pure_eq_ok] at h
    obtain ⟨m₀, hm₀, rfl⟩ := h
    exact ⟨m₀, _, m₀.issuerAudience, hm₀, rfl⟩
  · simp only [bind_eq_ok, pure_eq_ok] at h
    obtain ⟨m₀, hm₀, a, -, rfl⟩ := h
    exact ⟨m₀, _, _, hm₀, rfl⟩

/-- What a message tells of its data is what the data contributes to the
provider. -/
theorem mentions_components {d : ConnectionData} {s : Sibling} {m : KafkaMessage}
    {msgVersion now : String} {i : IdentityServiceCreate} (hi : d.identityServices = [i])
    (hm : Producer.buildMessage d.toDict msgVersion now = .ok m) (hs : retrieveComponents d = .ok s)
    (entry : Entry) : Mentions m entry ↔ (components s).Has entry := by
  obtain ⟨m₀, timestamp, issuerAudience, hcommon, rfl⟩ := buildMessage_common hm
  simp only [Producer.commonMessage, retrieveComponents, bind_eq_ok, pure_eq_ok, Py.index0_eq_ok,
    ConnectionData.toDict, hi, List.head?_cons, Option.some.injEq, exists_eq_left'] at hcommon hs
  obtain ⟨r, hr, a, ha, g, hg, rfl⟩ := hcommon
  simp only [hr, ha, hg, Option.some.injEq, exists_eq_left'] at hs
  obtain ⟨sla, -, p, -, rfl⟩ := hs
  cases entry with
  | identityProvider e => rw [has_identityProvider]; rfl
  | userGroup e n =>
    rw [has_userGroup, List.map_singleton, List.mem_singleton]
    exact and_congr_right fun _ => eq_comm
  | project u => rw [has_project]; rfl
  | region n => rw [has_region]; rfl
  | service n k e =>
    rw [has_service]
    refine and_congr_right fun _ => ?_
    cases k <;> simp [messageServices, services, Service.endpoint]
  | resource n k e u =>
    rw [has_resource]
    refine and_congr_right fun _ => ?_
    cases k <;> rfl

theorem providerName_buildMessage {d : ConnectionDict} {m : KafkaMessage} {msgVersion now : String}
    (h : Producer.buildMessage d msgVersion now = .ok m) :
    m.providerName = d.providerConf.name ∧ m.providerType = d.providerConf.type := by
  obtain ⟨m₀, timestamp, issuerAudience, hcommon, rfl⟩ := buildMessage_common h
  simp only [Producer.commonMessage, bind_eq_ok, pure_eq_ok] at hcommon
  obtain ⟨i, -, r, -, a, -, g, -, rfl⟩ := hcommon
  exact ⟨rfl, rfl⟩

/-! ## One provider -/

section
variable {sys : System} {settings : Settings}

/-- What there is to publish is what the threads returned. -/
theorem mem_kafkaData {d : ConnectionDict} : d ∈ kafkaData sys settings ↔
    ∃ t ∈ threads sys settings, ∃ run,
      (getProvider (getProviderData sys.world) t settings.parallel).run {} = .ok run ∧
        ∃ data ∈ run.1.2.1, data.toDict = d := by
  simp only [kafkaData, runs, List.mem_flatMap, List.mem_filterMap, List.mem_map]
  constructor
  · rintro ⟨run, ⟨t, ht, hrun⟩, hd⟩
    exact ⟨t, ht, run, toOption_eq_some.mp hrun, hd⟩
  · rintro ⟨t, ht, run, hrun, hd⟩
    exact ⟨run, ⟨t, ht, toOption_eq_some.mpr hrun⟩, hd⟩

/-- What a thread returned is about its provider. -/
theorem returned_heads {t : ProviderThread} {run : ProviderRun}
    (hrun : (getProvider (getProviderData sys.world) t settings.parallel).run {} = .ok run)
    {d : ConnectionData} (hd : d ∈ run.1.2.1) : d.providerConf.name = t.providerConf.name ∧
      d.providerConf.type = t.providerConf.type ∧ ∃ i, d.identityServices = [i] := by
  obtain ⟨-, p, hp, hproduced⟩ := (getProvider_data _ hrun d).mp hd
  obtain ⟨name, hservices, i, -, g, -, s, -, -, a, -, -, -, p', hconf⟩ :=
    producedBy_heads (producedBy_of_produced hp hproduced)
  have hname : d.providerConf = { t.providerConf with
      identityProviders := [a], regions := [p.1], projects := [p'] } := hconf
  exact ⟨by rw [hname], by rw [hname]; rfl, _, hservices⟩

/-- A provider has the entries that the data of its thread contributes. -/
theorem built_entries {t : ProviderThread} {p : ProviderCreateExtended} {run : ProviderRun}
    (hrun : (getProvider (getProviderData sys.world) t settings.parallel).run {} = .ok run)
    (hp : Built sys settings t p) : (∀ d ∈ run.1.2.1, ∃ s, retrieveComponents d = .ok s) ∧
      ∀ entry, (componentsOf p).Has entry ↔
        ∃ d ∈ run.1.2.1, ∃ s, retrieveComponents d = .ok s ∧ (components s).Has entry := by
  obtain ⟨data, error, s, hrun', hp⟩ := hp
  rw [hrun] at hrun'
  cases hrun'
  obtain ⟨siblings, c, hsiblings, hc, -, rfl⟩ := createProvider_eq_ok.mp hp
  exact ⟨fun d hd => mapM_ok_of_mem hsiblings hd, has_merged hsiblings hc⟩

/-! ## The messages of a run -/

theorem filterMap_message? (messages : List KafkaMessage) (requests : List Request) :
    (messages.map Effect.message ++ requests.map Effect.request).filterMap message? = messages := by
  have hsome : messages.filterMap (message? ∘ Effect.message) = messages := List.filterMap_some
  have hnone : requests.filterMap (message? ∘ Effect.request) = [] :=
    List.filterMap_eq_nil_iff.mpr fun _ _ => rfl
  rw [List.filterMap_append, List.filterMap_map, List.filterMap_map, hsome, hnone, List.append_nil]

/-- The messages of a run that returns. -/
theorem messagesOf_eq {status : Nat} (h : main sys settings = .ok status) :
    messagesOf sys settings = announced sys settings (kafkaData sys settings) ∧
      Published settings.kafkaMsgVersion sys.now (kafkaData sys settings) (messagesOf sys settings) := by
  rw [main] at h
  rcases hx : mainSession sys settings {} with ⟨e | status', s⟩
  · rw [hx] at h
    cases h
  · obtain ⟨messages, token, hattempts, hsent, -, -, -, hannounced⟩ := mainSession_ends.ok hx
    have hmessages : messagesOf sys settings = messages := by
      rw [messagesOf, hx, hattempts, filterMap_message?]
    rw [hmessages]
    exact ⟨hannounced, hsent.published⟩

theorem stops_accepting {kafka : Kafka} {now : Nat → String} {data : List ConnectionDict}
    {r : Except Py.PyError Unit} {messages : List KafkaMessage} (h : Accepting kafka settings)
    (hstops : Stops kafka now settings data r messages) : messages.length = data.length := by
  cases hstops with
  | noProducer he => rw [h.producer] at he; cases he
  | unsupported _ hv _ => exact absurd h.version hv
  | rejected _ _ _ _ he => rw [h.accepts] at he; cases he
  | complete _ _ _ hlength _ => exact hlength

/-- If Kafka takes every message, there is one of all data. -/
theorem messagesOf_complete {status : Nat} (h : main sys settings = .ok status)
    (hkafka : Accepting sys.kafka settings) {d : ConnectionDict} (hd : d ∈ kafkaData sys settings) :
    ∃ m ∈ messagesOf sys settings, ∃ now, Producer.buildMessage d settings.kafkaMsgVersion now = .ok m := by
  obtain ⟨hannounced, l, hpre, hbuilt⟩ := messagesOf_eq h
  rw [announced, if_pos hkafka.enabled] at hannounced
  have hstops : ∃ r, Stops sys.kafka sys.now settings (kafkaData sys settings) r
      (sendToKafka sys.kafka sys.now settings (kafkaData sys settings) {}).2.attempts :=
    (sendToKafka_stops fun hv _ hd => kafkaData_builds hv hd).imp fun _ h => h.1
  obtain ⟨r, hstops⟩ := hstops
  rw [← hannounced] at hstops
  have hlength : l.length = (kafkaData sys settings).zipIdx.length := by
    rw [hbuilt.length_eq, stops_accepting hkafka hstops, List.length_zipIdx]
  rw [hpre.eq_of_length hlength] at hbuilt
  rw [← List.zipIdx_map_fst 0 (kafkaData sys settings)] at hd
  obtain ⟨x, hx, rfl⟩ := List.mem_map.mp hd
  obtain ⟨m, hm, hmessage⟩ := forall₂_mem_left hbuilt hx
  exact ⟨m, hm, _, hmessage⟩

/-- What a run that feeds the catalogue announces. -/
theorem announces_of_feeding {m m' : Catalogue} (h : Feeding (sys, settings) m m')
    (hmain : main sys settings = .ok 0) : Announces (sys, settings) m' := by
  constructor
  · intro msg hmsg
    obtain ⟨-, l, hpre, hbuilt⟩ := messagesOf_eq hmain
    obtain ⟨x, hx, hmessage⟩ := forall₂_mem_left hbuilt.flip hmsg
    obtain ⟨t, ht, run, hrun, d, hd, hdict⟩ := 
      mem_kafkaData.mp (List.fst_mem_of_mem_zipIdx (hpre.subset hx))
    rw [← hdict] at hmessage
    obtain ⟨hname, htype⟩ := providerName_buildMessage hmessage
    obtain ⟨hdname, hdtype, i, hi⟩ := returned_heads hrun hd
    obtain ⟨uid, p, hp, hstored⟩ := h.configured hmain t ht
    obtain ⟨hsiblings, hentries⟩ := built_entries hrun hp
    obtain ⟨s, hs⟩ := hsiblings d hd
    refine ⟨uid, p, ?_, ?_, fun entry hentry => (hentries entry).mpr ⟨d, hd, s, hs, ?_⟩⟩
    · rw [hname]
      exact hdname ▸ hstored
    · rw [htype]
      exact (built_name hp).2.trans hdtype.symm
    · exact (mentions_components hi hmessage hs entry).mp hentry
  · intro hkafka t ht
    obtain ⟨uid, p, hp, hstored⟩ := h.configured hmain t ht
    refine ⟨uid, p, hstored, fun entry hentry => ?_⟩
    obtain ⟨data, error, s, hrun, -⟩ := id hp
    obtain ⟨d, hd, s, hs, hhas⟩ := ((built_entries hrun hp).2 entry).mp hentry
    obtain ⟨hdname, -, i, hi⟩ := returned_heads hrun hd
    obtain ⟨msg, hmsg, now, hmessage⟩ :=
      messagesOf_complete hmain hkafka (mem_kafkaData.mpr ⟨t, ht, _, hrun, d, hd, rfl⟩)
    refine ⟨msg, hmsg, (providerName_buildMessage hmessage).1.trans hdname, ?_⟩
    exact (mentions_components hi hmessage hs entry).mpr hhas

/-- In every history of the program in which each name is configured once, with
one type, what the messages of a run that exits with 0 mention is then in the
catalogue, in the provider that they name; and if Kafka takes every message,
everything in the providers of the run is mentioned. -/
theorem program_announces {type : String → ProviderType} {url : String} {σ σ' : Store}
    {runs : List (System × Settings)} (hconf : ∀ x ∈ runs, Configured type (threads x.1 x.2))
    (hσ : Consistent type σ) (h : Steps (Feeds url) σ runs σ') :
    Steps (fun _ x m' => main x.1 x.2 = .ok 0 → Announces x m') (catalogue σ) runs (catalogue σ') :=
  (feeds_steps (fun _ _ _ hfeeding hmain => announces_of_feeding hfeeding hmain) hconf hσ h).2

end

theorem program_announces_sample : ∃ p,
    providers (cloudRun updatingRegistry).1 (cloudRun updatingRegistry).2 = [p] ∧
    Accepting (cloudRun updatingRegistry).1.kafka (cloudRun updatingRegistry).2 ∧
    Announces (cloudRun updatingRegistry) (catalogue ((sampleStore.set "a" p).set "a" p)) := by
  obtain ⟨p, hp, hruns⟩ := feeds_cloudRuns
  obtain ⟨m, -, hrest⟩ :=
    Steps.cons_iff.mp (program_announces configured_cloudRuns consistent_sampleStore hruns)
  obtain ⟨m', hannounces, hm'⟩ := Steps.cons_iff.mp hrest
  have hcatalogue := Steps.nil_iff.mp hm'
  exact ⟨p, hp, ⟨rfl, rfl, .inl rfl, fun _ _ _ => rfl⟩, hcatalogue ▸ hannounces rfl⟩

end FRF.Proof
