import FedRegFeeder.Framework.Paired
import FedRegFeeder.Proof.Effects
import FedRegFeeder.Proof.Providers.Binding

/-!
# The messages of a run

* `retrieved_getProviderData`: the project and the identity service of
  retrieved data;
* `kafkaData_produced`: the data to publish is that of the configured pairs, in
  order;
* `main_messages`: each message tells which pair it is about;
* `sendToKafka_complete`: where sending stops.
-/

namespace FRF.Spec

open FRF.Impl
open Py (PyError)
open Framework

/-- The id that the cloud returns for the project of a connection. -/
def returnedProject (w : World) (c : ConnectionThread) : Option String := do
  let p ← c.providerConf.projects.head?
  match c.providerConf.kind with
  | .openstack .. =>
    let r ← c.providerConf.regions.head?
    let a ← c.providerConf.identityProviders.head?
    let conn ← (w.connectOpenstack
      (OpenstackData.connectArgs c.providerConf c.issuer r p a)).toOption
    let project ← conn.currentProjectId.toOption
    (conn.getProject project).toOption.map (·.id)
  | .kubernetes _ => some p.id

/-- A thread, and a pair of a region and a project of its configuration. -/
abbrev Target := ProviderThread × Region × Project

/-- The configured pairs, provider by provider and region by region. -/
def targets (ts : List ProviderThread) : List Target :=
  ts.flatMap fun t => (ProviderThread.pairs t.providerConf).map (t, ·)

/-- The dictionary is that of the data that a pair produced. -/
def ProducedBy (w : World) (x : Target) (d : ConnectionDict) : Prop :=
  x.2.1 ∈ x.1.providerConf.regions ∧ x.2.2 ∈ x.1.providerConf.projects ∧
    ∃ c data, Bound x.1 x.2.1 x.2.2 c ∧ getProviderData w c = .ok data ∧ d = data.toDict

/-- The message is about the pair: it names the provider, the region, the
project as the cloud knows it, and the issuer and the user group whose SLA the
project uses. -/
structure About (w : World) (msgVersion : String) (x : Target) (m : KafkaMessage) : Prop where
  version : m.msgVersion = msgVersion
  timestamp : m.timestamp.isSome = decide (msgVersion ≠ "1.2.0")
  provider : m.providerName = x.1.providerConf.name ∧ m.providerType = x.1.providerConf.type ∧
    m.identityEndpoint = x.1.providerConf.authUrl
  region : x.2.1 ∈ x.1.providerConf.regions ∧ m.regionName = x.2.1.name ∧
    m.overbookingCpu = x.2.1.overbookingCpu ∧ m.overbookingRam = x.2.1.overbookingRam ∧
    m.bandwidthIn = x.2.1.bandwidthIn ∧ m.bandwidthOut = x.2.1.bandwidthOut
  project : x.2.2 ∈ x.1.providerConf.projects ∧ ∃ c, Bound x.1 x.2.1 x.2.2 c ∧
    returnedProject w c = some m.projectId
  issuer : ∃ i ∈ x.1.issuers, ∃ g ∈ i.userGroups, ∃ s ∈ g.slas, s.docUuid = x.2.2.sla ∧
    ∃ a ∈ x.1.providerConf.identityProviders, a.endpoint = i.endpoint ∧
      m.issuerEndpoint = i.endpoint ∧ m.userGroup = g.name ∧ m.issuerName = a.idpName ∧
      m.issuerProtocol = a.protocol ∧
      m.issuerAudience = if msgVersion = "1.4.0" then some a.audience else none

/-- The versions of the messages. -/
def Supported (msgVersion : String) : Prop :=
  msgVersion = "1.2.0" ∨ msgVersion = "1.3.0" ∨ msgVersion = "1.4.0"

/-- How sending the messages of the data stops, and what has been sent then: in
order, the messages built of the data, each but the last one accepted. -/
inductive Stops (kafka : Kafka) (now : Nat → String) (settings : Settings)
    (data : List ConnectionDict) : Except PyError Unit → List KafkaMessage → Prop
  | noProducer {e : PyError} : Producer.init kafka settings = .error e →
    Stops kafka now settings data (.error e) []
  | unsupported : Producer.init kafka settings = .ok () → ¬ Supported settings.kafkaMsgVersion →
    data ≠ [] → Stops kafka now settings data (.error (.valueError "Invalid message version: %s")) []
  | rejected {messages : List KafkaMessage} {m : KafkaMessage} {e : PyError} :
    Producer.init kafka settings = .ok () → Supported settings.kafkaMsgVersion →
    Published settings.kafkaMsgVersion now data (messages ++ [m]) →
    (∀ x ∈ messages.zipIdx, kafka.send x.2 settings.kafkaTopic x.1 = .ok ()) →
    kafka.send messages.length settings.kafkaTopic m = .error e →
    Stops kafka now settings data (.error e) (messages ++ [m])
  | complete {messages : List KafkaMessage} : Producer.init kafka settings = .ok () →
    (data ≠ [] → Supported settings.kafkaMsgVersion) →
    Published settings.kafkaMsgVersion now data messages → messages.length = data.length →
    (∀ x ∈ messages.zipIdx, kafka.send x.2 settings.kafkaTopic x.1 = .ok ()) →
    Stops kafka now settings data kafka.close messages

/-- What `send_to_kafka` makes of how sending stops. -/
def reported : Except PyError Unit → Except PyError Unit
  | .error .noBrokersAvailable | .error .fileNotFoundError => .ok ()
  | .error (.valueError _) => .ok ()
  | r => r

end FRF.Spec

namespace FRF.Proof

open FRF.Impl FRF.Spec
open Py (PyError)
open Framework Framework.Session

/-! ## What is retrieved of a project -/

/-- The identity service of the data is at the URL of the provider, and its
project is the one the cloud returned. -/
def Retrieved (authUrl : String) (project : String → Prop) (d : ConnectionData) : Prop :=
  (∃ name, d.identityServices = [{ endpoint := authUrl, name }]) ∧ project d.project.uuid

theorem yields_openstack_project {conn : Connection} {providerConf : Provider}
    {imageTags networkTags : List String} {issuer : Issuer} {region : Region} {projectConf : Project} :
    Yields (OpenstackData.retrieveInfo conn providerConf imageTags networkTags issuer region projectConf)
      (Retrieved providerConf.authUrl fun uuid => ∃ id p, conn.currentProjectId = .ok id ∧
        conn.getProject id = .ok p ∧ p.id = uuid) := by
  have hproject : Yields (OpenstackData.getProject conn) fun project => ∃ id p,
      conn.currentProjectId = .ok id ∧ conn.getProject id = .ok p ∧ p.id = project.uuid :=
    (yields_call _).bind fun id hid => (yields_call _).bind fun p hp =>
      Yields.pure ⟨id, p, hid, hp, rfl⟩
  refine Yields.mapError (hproject.bind fun project hproject => ?_)
  refine Yields.bind' fun _ => Yields.bind' fun _ => Yields.bind' fun _ => Yields.bind' fun _ =>
    Yields.bind' fun _ => Yields.pure ⟨⟨_, rfl⟩, hproject⟩

theorem yields_kubernetes_project {names : ServiceNames} {cluster : Cluster} {providerConf : Provider}
    {issuer : Issuer} {projectConf : Project} :
    Yields (KubernetesData.retrieveInfo names cluster providerConf issuer projectConf)
      (Retrieved providerConf.authUrl (projectConf.id = ·)) := by
  refine Yields.bind' fun error => ?_
  simp only
  split
  · exact Yields.pure ⟨⟨_, rfl⟩, rfl⟩
  · exact Yields.bind' fun _ => Yields.bind' fun _ => Yields.bind' fun e => Yields.pure ⟨⟨_, rfl⟩, rfl⟩
  · exact Yields.bind' fun _ => Yields.bind' fun e => Yields.pure ⟨⟨_, rfl⟩, rfl⟩
  · exact Yields.throw _

theorem retrieved_getProviderData {w : World} {c : ConnectionThread} {d : ConnectionData}
    (h : getProviderData w c = .ok d) :
    Retrieved c.providerConf.authUrl (returnedProject w c = some ·) d := by
  have himp : ∀ {P : String → Prop}, (∀ uuid, P uuid → returnedProject w c = some uuid) → ∀ d,
      Retrieved c.providerConf.authUrl P d →
        Retrieved c.providerConf.authUrl (returnedProject w c = some ·) d :=
    fun hP d hd => ⟨hd.1, hP _ hd.2⟩
  cases hkind : c.providerConf.kind with
  | openstack imageTags networkTags =>
    refine getProviderData_openstack hkind h fun r p a conn hr hp ha hconn => ?_
    refine yields_openstack_project.imp (himp fun uuid huuid => ?_)
    obtain ⟨id, project, hid, hproject, rfl⟩ := huuid
    simp only [returnedProject, hkind, hp, hr, ha, hconn, List.head?_cons, hid, hproject, Except.toOption,
      Option.bind_eq_bind, Option.bind_some, Option.map_some]
  | kubernetes caPath =>
    refine getProviderData_kubernetes hkind h fun cluster p hp => ?_
    refine yields_kubernetes_project.imp (himp fun uuid huuid => ?_)
    simp only [returnedProject, hkind, hp, List.head?_cons, Option.bind_eq_bind, Option.bind_some,
      huuid]

/-! ## The data to publish -/

section
variable {sys : System} {settings : Settings}

theorem producedBy_of_produced {w : World} {t : ProviderThread} {p : Region × Project}
    {d : ConnectionData} (hp : p ∈ ProviderThread.pairs t.providerConf)
    (hd : produced (getProviderData w) t p = some d) : ProducedBy w (t, p) d.toDict := by
  obtain ⟨c, hc, hdata⟩ := produced_eq_some.mp hd
  obtain ⟨hregion, hproject⟩ := mem_pairs.mp hp
  exact ⟨hregion, hproject, c, d, bound_connect hc, hdata, rfl⟩

/-- The data of one thread. -/
theorem producedBy_getProvider {t : ProviderThread} {run : ProviderRun}
    (h : (ProviderThread.getProvider (getProviderData sys.world) t settings.parallel).run {} = .ok run) :
    ∃ l, l.Sublist ((ProviderThread.pairs t.providerConf).map (t, ·)) ∧
      List.Forall₂ (ProducedBy sys.world) l (run.1.2.1.map (·.toDict)) := by
  by_cases ht : t.providerConf.status = .active
  · obtain ⟨-, rfl⟩ := (getProvider_eq_ok _ ht).mp h
    obtain ⟨l, hl, hproduced⟩ := filterMap_forall₂ (produced (getProviderData sys.world) t)
      (ProviderThread.pairs t.providerConf)
    refine ⟨l.map (t, ·), hl.map _, ?_⟩
    rw [List.forall₂_map_left_iff, List.forall₂_map_right_iff]
    exact hproduced.imp fun p d hd => producedBy_of_produced hd.1 hd.2
  · rw [getProvider_inactive _ ht] at h
    cases h
    exact ⟨[], List.nil_sublist _, .nil⟩

theorem producedBy_targets : ∀ ts : List ProviderThread, ∃ l, l.Sublist (targets ts) ∧
    List.Forall₂ (ProducedBy sys.world) l ((ts.filterMap fun t =>
      ((ProviderThread.getProvider (getProviderData sys.world) t
        settings.parallel).run {}).toOption).flatMap fun run => run.1.2.1.map (·.toDict))
  | [] => ⟨[], .refl _, .nil⟩
  | t :: ts => by
    obtain ⟨l, hl, hproduced⟩ := producedBy_targets ts
    rw [targets, List.flatMap_cons, ← targets, List.filterMap_cons]
    cases h : (ProviderThread.getProvider (getProviderData sys.world) t settings.parallel).run {} with
    | error e => exact ⟨l, hl.trans (List.sublist_append_right _ _), hproduced⟩
    | ok run =>
      obtain ⟨l', hl', hproduced'⟩ := producedBy_getProvider h
      refine ⟨l' ++ l, hl'.append hl, ?_⟩
      show List.Forall₂ _ _ (run.1.2.1.map (·.toDict) ++ _)
      exact List.rel_append hproduced' hproduced

/-- What there is to publish is the data of some of the configured pairs, in
order. -/
theorem kafkaData_produced (sys : System) (settings : Settings) :
    ∃ l, l.Sublist (targets (threads sys settings)) ∧
      List.Forall₂ (ProducedBy sys.world) l (kafkaData sys settings) :=
  producedBy_targets (threads sys settings)

end

/-! ## The messages -/

/-- The first elements that a message shows. -/
theorem producedBy_heads {w : World} {x : Target} {d : ConnectionDict} (hd : ProducedBy w x d) :
    ∃ name, d.identityServices = [{ endpoint := x.1.providerConf.authUrl, name }] ∧
    ∃ i ∈ x.1.issuers, ∃ g ∈ i.userGroups, ∃ s ∈ g.slas, s.docUuid = x.2.2.sla ∧
      ∃ a ∈ x.1.providerConf.identityProviders, a.endpoint = i.endpoint ∧
        d.issuer = { i with userGroups := [{ g with slas := [s] }] } ∧
        ∃ p, d.providerConf = { x.1.providerConf with
          identityProviders := [a], regions := [x.2.1], projects := [p] } := by
  obtain ⟨-, -, c, data, hbound, hdata, rfl⟩ := hd
  obtain ⟨i, hi, g, hg, s, hs, hsla, a, ha, hend, hissuer, p, -, hconf⟩ := hbound
  obtain ⟨⟨name, hservices⟩, -⟩ := retrieved_getProviderData hdata
  obtain ⟨hdconf, hdissuer, -⟩ := getProviderData_eq_ok (p := p) (by rw [hconf]) hdata
  refine ⟨name, ?_, i, hi, g, hg, s, hs, hsla, a, ha, hend, hdissuer.trans hissuer, p,
    hdconf.trans hconf⟩
  rw [hconf] at hservices
  exact hservices

/-- A message that is built of the data of a pair is about it. -/
theorem about_of_buildMessage {w : World} {x : Target} {d : ConnectionDict} {m : KafkaMessage}
    {msgVersion now : String} (hd : ProducedBy w x d)
    (h : Producer.buildMessage d msgVersion now = .ok m) : About w msgVersion x m := by
  obtain ⟨name, hservices, i, hi, g, hg, s, hs, hsla, a, ha, hend, hissuer, p, hconf⟩ :=
    producedBy_heads hd
  obtain ⟨hregion, hproject, c, data, hbound, hdata, rfl⟩ := hd
  obtain ⟨-, hreturned⟩ := retrieved_getProviderData hdata
  -- what all versions share, with what only some have
  obtain ⟨m₀, hm₀, htime₀, haudience₀, habout⟩ : ∃ m₀,
      Producer.commonMessage data.toDict msgVersion = .ok m₀ ∧ m₀.timestamp = none ∧
      m₀.issuerAudience = none ∧ ∀ timestamp issuerAudience,
        timestamp.isSome = decide (msgVersion ≠ "1.2.0") →
        (issuerAudience = if msgVersion = "1.4.0" then some a.audience else none) →
        About w msgVersion x { m₀ with timestamp, issuerAudience } := by
    simp only [Producer.commonMessage, hservices, hissuer, hconf, Py.index0, ok_bind]
    refine ⟨_, rfl, rfl, rfl, fun timestamp issuerAudience htime haudience => ?_⟩
    exact ⟨rfl, htime, ⟨rfl, rfl, rfl⟩, ⟨hregion, rfl, rfl, rfl, rfl, rfl⟩,
      ⟨hproject, c, hbound, hreturned⟩,
      i, hi, g, hg, s, hs, hsla, a, ha, hend, rfl, rfl, rfl, rfl, haudience⟩
  simp only [Producer.buildMessage, hm₀, ok_bind, hconf, Py.index0] at h
  split_ifs at h with h₂ h₃ h₄
  · rw [← Except.ok.inj h]
    exact habout m₀.timestamp m₀.issuerAudience (by simp [htime₀, h₂]) (by simp [haudience₀, h₂])
  · cases h
    exact habout (some now) m₀.issuerAudience (by simp [h₂]) (by simp [haudience₀, h₃])
  · cases h
    exact habout (some now) (some a.audience) (by simp [h₂]) (by simp [h₄])

/-- However a run ends, the messages it has sent are about different configured
pairs, in their order, one message about each. -/
theorem main_messages (sys : System) (settings : Settings) :
    ∃ (messages : List KafkaMessage) (requests : List Request) (l : List Target),
      (mainSession sys settings {}).2.attempts = messages.map .message ++ requests.map .request ∧
      l.Sublist (targets (threads sys settings)) ∧
      List.Forall₂ (About sys.world settings.kafkaMsgVersion) l messages := by
  obtain ⟨messages, requests, hattempts, hsent⟩ := mainSession_ending sys settings
  obtain ⟨data, hdata, hbuilt⟩ := hsent.published
  obtain ⟨l, hl, hproduced⟩ := kafkaData_produced sys settings
  -- the data that messages were built of
  obtain ⟨rest, hrest⟩ : data.map Prod.fst <+: kafkaData sys settings := by
    have hmap := hdata.map Prod.fst
    rwa [List.zipIdx_map_fst] at hmap
  rw [← hrest] at hproduced
  refine ⟨messages, requests, l.take (data.map Prod.fst).length, hattempts,
    (List.take_sublist _ _).trans hl, ?_⟩
  refine forall₂_comp (S := fun d m => ∃ now,
    Producer.buildMessage d settings.kafkaMsgVersion now = .ok m) ?_
    (List.forall₂_take_append l _ _ hproduced) ?_
  · intro x d m hx hm
    obtain ⟨now, hm⟩ := hm
    exact about_of_buildMessage hx hm
  · rw [List.forall₂_map_left_iff]
    exact hbuilt.imp fun x m hm => ⟨_, hm⟩

/-! ## Where sending stops -/

section
variable {kafka : Kafka} {now : Nat → String} {settings : Settings} {data : List ConnectionDict}
  {s : Log KafkaMessage}

theorem buildMessage_supported {w : World} {x : Target} {d : ConnectionDict} {msgVersion : String}
    (hd : ProducedBy w x d) (hv : Supported msgVersion) (time : String) :
    ∃ m, Producer.buildMessage d msgVersion time = .ok m := by
  obtain ⟨name, hservices, i, -, g, -, s, -, -, a, -, -, hissuer, p, hconf⟩ := producedBy_heads hd
  simp only [Producer.buildMessage, Producer.commonMessage, hservices, hissuer, hconf, Py.index0,
    ok_bind]
  rcases hv with rfl | rfl | rfl
  · exact ⟨_, rfl⟩
  · exact ⟨_, rfl⟩
  · exact ⟨_, rfl⟩

theorem buildMessage_unsupported (d : ConnectionDict) {msgVersion : String} (hv : ¬ Supported msgVersion)
    (time : String) :
    Producer.buildMessage d msgVersion time = .error (.valueError "Invalid message version: %s") := by
  simp only [Supported, not_or] at hv
  rw [Producer.buildMessage, if_neg hv.1, if_neg hv.2.1, if_neg hv.2.2]

theorem kafkaFailed_eq (e : PyError) (s : Log KafkaMessage) :
    kafkaFailed e s = (reported (.error e), s) := by
  cases e <;> rfl

/-- Before the data `l`: messages were sent for all data before it, and all were
accepted. -/
def AcceptedFor (kafka : Kafka) (now : Nat → String) (settings : Settings)
    (data l : List ConnectionDict) (s : Log KafkaMessage) : Prop :=
  SentFor settings.kafkaMsgVersion now data l s ∧
    ∀ x ∈ s.attempts.zipIdx, kafka.send x.2 settings.kafkaTopic x.1 = .ok ()

theorem AcceptedFor.length (h : AcceptedFor kafka now settings data [] s) :
    s.attempts.length = data.length := by
  obtain ⟨⟨done, rfl, hsent⟩, -⟩ := h
  rw [← hsent.length_eq, List.length_zipIdx, List.append_nil]

theorem AcceptedFor.append {d : ConnectionDict} {l : List ConnectionDict} {m : KafkaMessage}
    (h : AcceptedFor kafka now settings data (d :: l) s)
    (hm : SentFor settings.kafkaMsgVersion now data l ⟨s.error, s.attempts ++ [m]⟩)
    (hsend : kafka.send s.attempts.length settings.kafkaTopic m = .ok ()) :
    AcceptedFor kafka now settings data l ⟨s.error, s.attempts ++ [m]⟩ := by
  refine ⟨hm, fun x hx => ?_⟩
  rw [List.zipIdx_append, List.mem_append] at hx
  rcases hx with hx | hx
  · exact h.2 x hx
  · rw [List.mem_singleton.mp hx, Nat.zero_add]
    exact hsend

theorem sendItem_stops (hinit : Producer.init kafka settings = .ok ())
    (hv : Supported settings.kafkaMsgVersion) (hbuild : ∀ d ∈ data, ∀ time, ∃ m,
      Producer.buildMessage d settings.kafkaMsgVersion time = .ok m)
    (d : ConnectionDict) (l : List ConnectionDict) (s : Log KafkaMessage)
    (h : AcceptedFor kafka now settings data (d :: l) s) :
    Ends (Producer.sendItem kafka now settings.kafkaTopic settings.kafkaMsgVersion d) s
      (fun _ s' => AcceptedFor kafka now settings data l s')
      (fun e s' => Stops kafka now settings data (.error e) s'.attempts) := by
  have hd : d ∈ data := by
    obtain ⟨⟨done, rfl, -⟩, -⟩ := h
    exact List.mem_append_right _ List.mem_cons_self
  obtain ⟨m, hm⟩ := hbuild d hd (now s.attempts.length)
  have hnext := h.1.snoc hm
  rw [Ends, sendItem_ok hm]
  exact Ends.send (fun _ hsend => h.append hnext hsend)
    fun e he => .rejected hinit hv hnext.published h.2 he

theorem send_stops (hinit : Producer.init kafka settings = .ok ())
    (hbuild : Supported settings.kafkaMsgVersion → ∀ d ∈ data, ∀ time, ∃ m,
      Producer.buildMessage d settings.kafkaMsgVersion time = .ok m) :
    Ends (Producer.send kafka now settings.kafkaTopic data settings.kafkaMsgVersion) {}
      (fun _ s => Stops kafka now settings data (.ok ()) s.attempts)
      (fun e s => Stops kafka now settings data (.error e) s.attempts) := by
  have hstart : AcceptedFor kafka now settings data data {} :=
    ⟨⟨[], rfl, .nil⟩, List.forall_mem_nil _⟩
  have hclose : ∀ s : Log KafkaMessage, (data ≠ [] → Supported settings.kafkaMsgVersion) →
      AcceptedFor kafka now settings data [] s →
      Ends (ofExcept kafka.close) s (fun _ s => Stops kafka now settings data (.ok ()) s.attempts)
        (fun e s => Stops kafka now settings data (.error e) s.attempts) := by
    intro s hv hs
    have hstops : Stops kafka now settings data kafka.close s.attempts :=
      .complete hinit hv hs.1.published hs.length hs.2
    refine Ends.ofExcept (fun _ hc => ?_) fun e hc => ?_ <;> rw [hc] at hstops <;> exact hstops
  by_cases hv : Supported settings.kafkaMsgVersion
  · refine Ends.bind ((Ends.forM (sendItem_stops hinit hv (hbuild hv)) hstart).mono ?_ fun _ _ => id)
    exact fun _ s hs => hclose s (fun _ => hv) hs
  · cases hdata : data with
    | nil =>
      rw [hdata] at hclose hstart
      exact Ends.bind (hclose {} (fun h => absurd rfl h) hstart)
    | cons d l =>
      have hitem : Producer.sendItem kafka now settings.kafkaTopic settings.kafkaMsgVersion d {} =
          (.error (.valueError "Invalid message version: %s"), {}) :=
        sendItem_error (buildMessage_unsupported d hv _)
      refine Ends.bind (Ends.bind ?_)
      rw [Ends, hitem]
      exact .unsupported hinit hv (List.cons_ne_nil d l)

/-- `send_to_kafka` returns unless sending stops by an exception it does not
catch. -/
theorem sendToKafka_stops (hbuild : Supported settings.kafkaMsgVersion → ∀ d ∈ data, ∀ time, ∃ m,
      Producer.buildMessage d settings.kafkaMsgVersion time = .ok m) :
    ∃ r, Stops kafka now settings data r (sendToKafka kafka now settings data {}).2.attempts ∧
      (sendToKafka kafka now settings data {}).1 = reported r := by
  obtain ⟨y, hy⟩ : ∃ y : Session KafkaMessage PyError Unit, y = (ofExcept (Producer.init kafka settings) >>=
    fun _ => Producer.send kafka now settings.kafkaTopic data settings.kafkaMsgVersion) := ⟨_, rfl⟩
  have hsend : sendToKafka kafka now settings data = tryCatch y kafkaFailed := by
    rw [hy]
    rfl
  have hends : Ends y {} (fun _ s => Stops kafka now settings data (.ok ()) s.attempts)
      (fun e s => Stops kafka now settings data (.error e) s.attempts) := by
    rw [hy]
    exact Ends.bind (Ends.ofExcept (fun _ hinit => send_stops hinit hbuild) fun _ he => .noProducer he)
  rw [hsend]
  rcases hx : y {} with ⟨e | u, s⟩
  · rw [tryCatch_error _ (congrArg Prod.fst hx), hx, kafkaFailed_eq]
    exact ⟨.error e, hends.error hx, rfl⟩
  · rw [tryCatch_ok _ hx]
    exact ⟨.ok (), hends.ok hx, rfl⟩

end

/-- A message of a supported version can be built of all data to publish. -/
theorem kafkaData_builds {sys : System} {settings : Settings} (hv : Supported settings.kafkaMsgVersion)
    {d : ConnectionDict} (hd : d ∈ kafkaData sys settings) (time : String) :
    ∃ m, Producer.buildMessage d settings.kafkaMsgVersion time = .ok m := by
  obtain ⟨l, -, hproduced⟩ := kafkaData_produced sys settings
  obtain ⟨x, -, hx⟩ := forall₂_mem_left hproduced.flip hd
  exact buildMessage_supported hx hv time

/-- Where sending the data of a run stops: before the first message when no
producer can be created or the version is not supported, at a message that is
rejected, or not before the last one; and what `send_to_kafka` makes of it. -/
theorem sendToKafka_complete (sys : System) (settings : Settings) : ∃ r,
    Stops sys.kafka sys.now settings (kafkaData sys settings) r
      (sendToKafka sys.kafka sys.now settings (kafkaData sys settings) {}).2.attempts ∧
    (sendToKafka sys.kafka sys.now settings (kafkaData sys settings) {}).1 = reported r :=
  sendToKafka_stops fun hv _ hd => kafkaData_builds hv hd

end FRF.Proof
