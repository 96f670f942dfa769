import FedRegFeeder.Framework.TwoRuns
import FedRegFeeder.Impl.Messages
import FedRegFeeder.Impl.Utils.Components
import FedRegFeeder.Proof.Providers.Errors

/-!
# Messages and tokens

* `buildDict_dict`: the message that `build_message` makes of the dictionary of
  a connection, key by key;
* `buildDict_token`: it does not depend on the token in that dictionary;
* `token_unobserved`: data retrieved with other tokens is sent in the same
  messages, whose dictionaries are compared without the timestamp, and gives the
  same components of a provider.
-/

namespace FRF.Spec

open FRF.Impl
open Py (PyError)
open Framework (Dict)

/-- The same data, retrieved with another token. -/
def SameButToken (d d' : ConnectionData) : Prop :=
  ∃ token, d' = { d with issuer := { d.issuer with token } }

/-- The message as it is built at another time. -/
def builtAt (time : String) (m : KafkaMessage) : KafkaMessage :=
  { m with timestamp := m.timestamp.map fun _ => time }

/-- The dictionary of a message, without its timestamp. -/
def untimed (m : KafkaMessage) : Dict String DictValue := m.dict.erase "timestamp"

/-- The client library answers a message in the same way at both times: their
texts have the same length. -/
def SameAnswers (kafka : Kafka) (topic : String) (now now' : Nat → String) : Prop :=
  ∀ n m, kafka.send n topic (builtAt (now' n) m) = kafka.send n topic (builtAt (now n) m)

/-- The identity providers, projects and regions of the data. -/
def providerComponents (l : List ConnectionData) : Except PyError
    (List IdentityProviderCreateExtended × List ProjectCreate × List RegionCreateExtended) := do
  mergeComponents (← l.mapM retrieveComponents)

end FRF.Spec

namespace FRF.Proof

open FRF.Impl FRF.Impl.Producer FRF.Spec
open Py (PyError)
open Framework Framework.Session

/-! ## The keys of a message -/

/-- Each of the lists of which a message shows the first element has one, or no
message is built. -/
theorem heads_cases (d : ConnectionDict) (msgVersion : String) :
    (∃ s r a g, Py.index0 d.identityServices = .ok s ∧ Py.index0 d.providerConf.regions = .ok r ∧
      Py.index0 d.providerConf.identityProviders = .ok a ∧
      Py.index0 d.issuer.userGroups = .ok g) ∨
    ∃ e, commonMessage d msgVersion = .error e ∧ ∀ timestamp issuerAudience,
      messageFields d.providerConf d.issuer d.project d.identityServices msgVersion timestamp
        issuerAudience = .error e := by
  simp only [messageFields, commonMessage]
  cases Py.index0 d.identityServices with
  | error e => exact .inr ⟨e, rfl, fun _ _ => rfl⟩
  | ok s =>
  cases Py.index0 d.providerConf.regions with
  | error e => exact .inr ⟨e, rfl, fun _ _ => rfl⟩
  | ok r =>
  cases Py.index0 d.providerConf.identityProviders with
  | error e => exact .inr ⟨e, rfl, fun _ _ => rfl⟩
  | ok a =>
  cases Py.index0 d.issuer.userGroups with
  | error e => exact .inr ⟨e, rfl, fun _ _ => rfl⟩
  | ok g => exact .inl ⟨s, r, a, g, rfl, rfl, rfl, rfl⟩

/-- What is left of the dictionary of a connection when the configuration, the
issuer, the project and the identity services are popped. -/
def servicesOf (d : ConnectionDict) : List (String × DictValue) :=
  [("block_storage_services", .blockStorageServices d.blockStorageServices),
    ("compute_services", .computeServices d.computeServices),
    ("network_services", .networkServices d.networkServices),
    ("object_store_services", .objectStoreServices d.objectStoreServices)]

theorem popAs_ofList {α : Type} (kind : DictValue → Option α) (l : List (String × DictValue))
    (key : String) : popAs kind (.ofList l) key =
      match (l.reverse.find? (·.1 = key)).map Prod.snd with
      | none => .error .keyError
      | some v =>
        match kind v with
        | none => .error .typeError
        | some a => .ok (a, .ofList (l.filter (·.1 ≠ key))) := by
  simp only [popAs, Dict.pop, Dict.get?_ofList, Dict.erase_ofList]
  cases (l.reverse.find? (·.1 = key)).map Prod.snd <;> rfl

/-- Only `servicesOf` reaches `**data`. -/
theorem buildDict_popped (d : ConnectionDict) (msgVersion now : String) :
    let fields := messageFields d.providerConf d.issuer d.project d.identityServices msgVersion
    buildDict d.dict msgVersion now =
      if msgVersion = "1.2.0" then
        (fun l => .ofList (l ++ servicesOf d)) <$> fields [] fun _ => []
      else if msgVersion = "1.3.0" then
        (fun l => .ofList (l ++ servicesOf d)) <$> fields [("timestamp", .string now)] fun _ => []
      else if msgVersion = "1.4.0" then
        (fun l => .ofList (l ++ servicesOf d)) <$>
          fields [("timestamp", .string now)] fun identityProvider =>
            [("issuer_audience", .string identityProvider.audience)]
      else .error (.valueError "Invalid message version: %s") := by
  have hentries : (Dict.ofList (servicesOf d)).entries = servicesOf d := rfl
  rw [servicesOf] at hentries ⊢
  simp [buildDict, ConnectionDict.dict, popAs_ofList, ok_bind, hentries, DictValue.providerConf?,
    DictValue.issuer?, DictValue.project?, DictValue.identityServices?]

/-- A message is the dictionary that `build_message` makes of the dictionary of
the connection. -/
theorem buildDict_dict (d : ConnectionDict) (msgVersion now : String) :
    buildDict d.dict msgVersion now = (buildMessage d msgVersion now).map KafkaMessage.dict := by
  rw [buildDict_popped]
  rcases heads_cases d msgVersion with ⟨s, r, a, g, hs, hr, ha, hg⟩ | ⟨e, hcommon, hfields⟩
  · simp only [buildMessage, messageFields, commonMessage, hs, hr, ha, hg]
    split_ifs <;> rfl
  · simp only [buildMessage, hcommon, hfields]
    split_ifs <;> rfl

/-! ## Two runs -/

/-- A message depends on the time at which it is built only through its
timestamp. -/
theorem buildMessage_builtAt (d : ConnectionDict) (msgVersion now now' : String) :
    buildMessage d msgVersion now' = (buildMessage d msgVersion now).map (builtAt now') := by
  rcases heads_cases d msgVersion with ⟨s, r, a, g, hs, hr, ha, hg⟩ | ⟨e, hcommon, -⟩
  · simp only [buildMessage, commonMessage, hs, hr, ha, hg]
    split_ifs <;> rfl
  · simp only [buildMessage, hcommon]
    split_ifs <;> rfl

theorem untimed_builtAt (time : String) (m : KafkaMessage) :
    untimed (builtAt time m) = untimed m := by
  have hnone : ∀ t : Option String,
      ((t.map fun t => ("timestamp", DictValue.string (some t))).toList.filter
        (·.1 ≠ "timestamp")) = [] := by
    intro t
    cases t <;> rfl
  simp only [untimed, KafkaMessage.dict, Dict.erase_ofList, KafkaMessage.entries, builtAt,
    List.filter_flatten, List.map_cons, hnone]

theorem buildMessage_token {d d' : ConnectionData} (h : SameButToken d d') (msgVersion now : String) :
    buildMessage d'.toDict msgVersion now = buildMessage d.toDict msgVersion now := by
  obtain ⟨token, rfl⟩ := h
  rfl

/-- The dictionary of a message does not depend on the token, nor, without its
timestamp, on the time. -/
theorem buildDict_token {d d' : ConnectionData} (h : SameButToken d d')
    (msgVersion time time' : String) :
    (buildDict d'.toDict.dict msgVersion time').map (·.erase "timestamp") =
      (buildDict d.toDict.dict msgVersion time).map (·.erase "timestamp") := by
  rw [buildDict_dict, buildDict_dict, buildMessage_token h,
    buildMessage_builtAt d.toDict msgVersion time time']
  cases buildMessage d.toDict msgVersion time with
  | error e => rfl
  | ok m => exact congrArg Except.ok (untimed_builtAt time' m)

theorem components_token {l l' : List ConnectionData} (hl : List.Forall₂ SameButToken l l') :
    providerComponents l' = providerComponents l := by
  have hsiblings : l'.mapM retrieveComponents = l.mapM retrieveComponents := by
    induction hl with
    | nil => rfl
    | cons h _ ih =>
      obtain ⟨token, rfl⟩ := h
      rw [List.mapM_cons, List.mapM_cons, ih]
      rfl
  rw [providerComponents, providerComponents, hsiblings]

section
variable {kafka : Kafka} {topic msgVersion : String} {now now' : Nat → String}

theorem sendItem_ok {d : ConnectionDict} {s : Log KafkaMessage} {m : KafkaMessage}
    (h : buildMessage d msgVersion (now s.attempts.length) = .ok m) :
    sendItem kafka now topic msgVersion d s = Session.send (kafka.send · topic ·) m s :=
  bind_ok (Session.send (kafka.send · topic ·)) (congrArg (·, s) h)

theorem sendItem_error {d : ConnectionDict} {s : Log KafkaMessage} {e : PyError}
    (h : buildMessage d msgVersion (now s.attempts.length) = .error e) :
    sendItem kafka now topic msgVersion d s = (.error e, s) := by
  show ExceptT.bindCont (Session.send (kafka.send · topic ·))
    (buildMessage d msgVersion (now s.attempts.length)) s = _
  rw [h]
  rfl

/-- One turn, on data that makes the same messages, at two times. -/
theorem sendItem_alike (htime : SameAnswers kafka topic now now') (d d' : ConnectionDict)
    (s s' : Log KafkaMessage)
    (hd : ∀ time, buildMessage d' msgVersion time = buildMessage d msgVersion time)
    (hs : Log.Same untimed s s') :
    Alike untimed (sendItem kafka now topic msgVersion d s)
      (sendItem kafka now' topic msgVersion d' s') := by
  have hnow := buildMessage_builtAt d msgVersion "" (now s.attempts.length)
  have hnow' := buildMessage_builtAt d' msgVersion "" (now' s'.attempts.length)
  rw [hd ""] at hnow'
  cases h : buildMessage d msgVersion "" with
  | error e =>
    rw [h] at hnow hnow'
    rw [sendItem_error hnow, sendItem_error hnow']
    exact ⟨rfl, hs⟩
  | ok m =>
    rw [h] at hnow hnow'
    rw [sendItem_ok hnow, sendItem_ok hnow', hs.length]
    refine Alike.send ?_ (htime _ m) hs
    rw [untimed_builtAt, untimed_builtAt]

end

/-- Whatever the message version and wherever sending fails, from data retrieved
with other tokens the same dictionaries are built, up to the timestamp, the same
messages are sent, with the same result and a failure at the same item, and the
components of a provider are the same. -/
theorem token_unobserved {l l' : List ConnectionData} (hl : List.Forall₂ SameButToken l l')
    {kafka : Kafka} {topic : String} {now now' : Nat → String}
    (htime : SameAnswers kafka topic now now') (msgVersion : String) :
    (∀ time time', List.Forall₂ (fun d d' =>
      (buildDict d'.toDict.dict msgVersion time').map (·.erase "timestamp") =
        (buildDict d.toDict.dict msgVersion time).map (·.erase "timestamp")) l l') ∧
    Alike untimed (Producer.send kafka now topic (l.map (·.toDict)) msgVersion {})
      (Producer.send kafka now' topic (l'.map (·.toDict)) msgVersion {}) ∧
    failure (sendItem kafka now' topic msgVersion) (l'.map (·.toDict)) {} =
      failure (sendItem kafka now topic msgVersion) (l.map (·.toDict)) {} ∧
    providerComponents l' = providerComponents l := by
  have hdicts : List.Forall₂ (fun d d' => ∀ time,
      buildMessage d' msgVersion time = buildMessage d msgVersion time)
      (l.map (·.toDict)) (l'.map (·.toDict)) := by
    rw [List.forall₂_map_left_iff, List.forall₂_map_right_iff]
    exact hl.imp fun _ _ h => buildMessage_token h msgVersion
  refine ⟨fun time time' => hl.imp fun _ _ h => buildDict_token h msgVersion time time', ?_,
    failure_congr (sendItem_alike htime) hdicts (.refl _), components_token hl⟩
  exact (Alike.forM (sendItem_alike htime) hdicts (.refl _)).bind fun _ _ _ ht =>
    Alike.ofExcept rfl ht

private def retrievedData : ConnectionData where
  error := false
  providerConf := sampleConf
  issuer := sampleIssuer
  project := { uuid := "namespace", name := "namespace" }
  identityServices := [{ endpoint := "https://k8s.cloud.infn.it", name := .kubernetes }]

private def otherData : ConnectionData :=
  { retrievedData with project := { uuid := "other", name := "other" } }

/-- The data as it is retrieved with another token. -/
private def withToken (token : String) (d : ConnectionData) : ConnectionData :=
  { d with issuer := { d.issuer with token } }

/-- A client that accepts only the first message. -/
private def fullKafka : Kafka where
  create := .ok ()
  send n _ _ := if n = 0 then .ok () else .error (.other "KafkaTimeoutError")
  close := .ok ()

/-- Two messages, sent an hour later with other tokens; the second is not
accepted. -/
theorem token_unobserved_sample :
    let sent := Producer.send fullKafka (fun _ => "2024-01-01T10:00:00+00:00") "federation"
      [retrievedData.toDict, otherData.toDict] "1.4.0" {}
    let later := [withToken "b" retrievedData, withToken "c" otherData]
    sent.1 = .error (.other "KafkaTimeoutError") ∧ sent.2.attempts.length = 2 ∧
    Alike untimed sent (Producer.send fullKafka (fun _ => "2024-01-01T11:00:00+00:00")
      "federation" (later.map (·.toDict)) "1.4.0" {}) ∧
    failure (sendItem fullKafka (fun _ => "2024-01-01T11:00:00+00:00") "federation" "1.4.0")
      (later.map (·.toDict)) {} = some 1 ∧
    providerComponents later = providerComponents [retrievedData, otherData] := by
  have htime : SameAnswers fullKafka "federation" (fun _ => "2024-01-01T10:00:00+00:00")
      (fun _ => "2024-01-01T11:00:00+00:00") := fun _ _ => rfl
  have hl : List.Forall₂ SameButToken [retrievedData, otherData]
      [withToken "b" retrievedData, withToken "c" otherData] := .cons ⟨"b", rfl⟩ (.cons ⟨"c", rfl⟩ .nil)
  obtain ⟨-, halike, hfailure, hcomponents⟩ := token_unobserved hl htime "1.4.0"
  exact ⟨rfl, rfl, halike, hfailure.trans rfl, hcomponents⟩

end FRF.Proof
