import FedRegFeeder.Framework.Ends
import FedRegFeeder.Proof.Histories
import FedRegFeeder.Proof.Kafka
import FedRegFeeder.Proof.Main

/-!
# What a run sends

* `sendToKafka_published`: the messages are those of the first connections;
* `mainSession_ends`: how the run ends, and what it has sent then;
* `main_effects`: the messages come first, then the requests, both cut anywhere.
-/

namespace FRF.Spec

open FRF.Impl
open Py (PyError)
open Framework

/-- The messages are those built from an initial segment of the data, the
`n`-th at the time `now n`. -/
def Published (msgVersion : String) (now : Nat → String) (data : List ConnectionDict)
    (messages : List KafkaMessage) : Prop :=
  ∃ l, l <+: data.zipIdx ∧
    List.Forall₂ (fun x m => Producer.buildMessage x.1 msgVersion (now x.2) = .ok m) l messages

/-- The data that the connections of all providers retrieved. -/
def kafkaData (sys : System) (settings : Settings) : List ConnectionDict :=
  (runs sys settings).flatMap fun run => run.1.2.1.map (·.toDict)

/-- The messages of a run that comes to its requests, with the data it has. -/
def announced (sys : System) (settings : Settings) (data : List ConnectionDict) : List KafkaMessage :=
  if settings.kafkaEnable then (sendToKafka sys.kafka sys.now settings data {}).2.attempts else []

/-- The provider is built from what the connections of a thread retrieved. -/
def Built (sys : System) (settings : Settings) (t : ProviderThread) (p : ProviderCreateExtended) : Prop :=
  ∃ data error s, (ProviderThread.getProvider (getProviderData sys.world) t settings.parallel).run {} =
    .ok ((t.providerConf, data, error), s) ∧
      createProvider sys.validateProvider t.providerConf data error = .ok p

/-- The messages and the requests that a run has sent when it ends, however it
ends. -/
structure Sent (sys : System) (settings : Settings) (messages : List KafkaMessage)
    (requests : List Request) : Prop where
  published : Published settings.kafkaMsgVersion sys.now (kafkaData sys settings) messages
  enabled : messages ≠ [] → settings.kafkaEnable = true
  requested : requests ≠ [] → ∃ token, firstToken (siteConfigs sys settings) = .ok token ∧
    requests = (updateDatabase sys.registry (inferServiceEndpoints settings) (providers sys settings)
      token settings.fedRegTimeout {}).2.attempts
  built : messages ≠ [] ∨ requests ≠ [] →
    List.Forall₂ (Built sys settings) (threads sys settings) (providers sys settings)

end FRF.Spec

namespace FRF.Proof

open FRF.Impl FRF.Spec
open Py (PyError)
open Framework Framework.Session

/-! ## Messages -/

section
variable {kafka : Kafka} {now : Nat → String} {topic msgVersion : String} {data : List ConnectionDict}

/-- Before the data `l`: a message was sent for all data before it. -/
def SentFor (msgVersion : String) (now : Nat → String) (data l : List ConnectionDict)
    (s : Log KafkaMessage) : Prop :=
  ∃ done, data = done ++ l ∧
    List.Forall₂ (fun x m => Producer.buildMessage x.1 msgVersion (now x.2) = .ok m) done.zipIdx
      s.attempts

theorem SentFor.published {l : List ConnectionDict} {s : Log KafkaMessage}
    (h : SentFor msgVersion now data l s) : Published msgVersion now data s.attempts := by
  obtain ⟨done, rfl, hsent⟩ := h
  refine ⟨done.zipIdx, ?_, hsent⟩
  rw [List.zipIdx_append]
  exact List.prefix_append _ _

/-- Once the next message is built, it has been sent too. -/
theorem SentFor.snoc {d : ConnectionDict} {l : List ConnectionDict} {s : Log KafkaMessage}
    {m : KafkaMessage} (h : SentFor msgVersion now data (d :: l) s)
    (hm : Producer.buildMessage d msgVersion (now s.attempts.length) = .ok m) :
    SentFor msgVersion now data l ⟨s.error, s.attempts ++ [m]⟩ := by
  obtain ⟨done, hdata, hsent⟩ := h
  have hlength : s.attempts.length = done.length := by
    rw [← hsent.length_eq, List.length_zipIdx]
  refine ⟨done ++ [d], by rw [hdata, List.append_assoc]; rfl, ?_⟩
  rw [List.zipIdx_append]
  refine List.rel_append hsent (.cons ?_ .nil)
  rw [Nat.zero_add, ← hlength]
  exact hm

theorem sendItem_sentFor (d : ConnectionDict) (l : List ConnectionDict) (s : Log KafkaMessage)
    (h : SentFor msgVersion now data (d :: l) s) :
    Ends (Producer.sendItem kafka now topic msgVersion d) s (fun _ => SentFor msgVersion now data l)
      (fun _ s' => Published msgVersion now data s'.attempts) := by
  cases hm : Producer.buildMessage d msgVersion (now s.attempts.length) with
  | error e =>
    rw [Ends, sendItem_error hm]
    exact h.published
  | ok m =>
    have hnext := h.snoc hm
    rw [Ends, sendItem_ok hm]
    exact Ends.send (fun _ _ => hnext) fun _ _ => hnext.published

theorem kafkaFailed_ends {e : PyError} {s : Log KafkaMessage} {Q : Unit → Log KafkaMessage → Prop}
    {E : PyError → Log KafkaMessage → Prop} (hQ : Q () s) (hE : E e s) :
    Ends (kafkaFailed e) s Q E := by
  cases e with
  | noBrokersAvailable => exact Ends.pure hQ
  | valueError m => exact Ends.pure hQ
  | fileNotFoundError => exact Ends.pure hQ
  | _ => exact Ends.throw hE

/-- Whatever happens, the messages sent are those of the first connections, in
order. -/
theorem sendToKafka_published (settings : Settings) :
    Published settings.kafkaMsgVersion now data (sendToKafka kafka now settings data {}).2.attempts := by
  refine Ends.log (P := fun s => Published settings.kafkaMsgVersion now data s.attempts) ?_
  have hstart : SentFor settings.kafkaMsgVersion now data data {} := ⟨[], rfl, .nil⟩
  refine Ends.tryCatch (Ends.bind (Ends.ofExcept (fun _ _ => ?_) fun e _ => ?_))
  · refine Ends.bind ((Ends.forM sendItem_sentFor hstart).mono ?_ ?_)
    · intro _ s hs
      exact Ends.ofExcept (fun _ _ => hs.published) fun e _ => kafkaFailed_ends hs.published hs.published
    · intro e s hs
      exact kafkaFailed_ends hs hs
  · exact kafkaFailed_ends hstart.published hstart.published

end

/-! ## The program -/

section
variable {sys : System} {settings : Settings}

theorem collectProvider_kafkaData {acc acc' : Collected} {run : ProviderRun}
    (h : collectProvider sys acc run = .ok acc') :
    acc'.kafkaData = acc.kafkaData ++ run.1.2.1.map (·.toDict) := by
  simp only [collectProvider, bind_eq_ok, pure_eq_ok] at h
  obtain ⟨provider, hp, rfl⟩ := h
  rfl

theorem foldlM_collectProvider_kafkaData :
    ∀ {runs : List ProviderRun} {acc acc' : Collected},
      runs.foldlM (collectProvider sys) acc = .ok acc' →
        acc'.kafkaData = acc.kafkaData ++ runs.flatMap fun run => run.1.2.1.map (·.toDict)
  | [], acc, acc', h => by
    rw [foldlM_nil_ok.mp h]
    exact (List.append_nil _).symm
  | run :: runs, acc, acc', h => by
    obtain ⟨acc₁, h₁, h₂⟩ := foldlM_cons_ok.mp h
    rw [foldlM_collectProvider_kafkaData h₂, collectProvider_kafkaData h₁, List.flatMap_cons,
      List.append_assoc]

/-- When all threads return and all providers are built, there is one for each
thread. -/
theorem built_of_runs : ∀ {ts : List ProviderThread} {rs : List ProviderRun} {acc acc' : Collected},
    runThreads sys.world settings.parallel ts = .ok rs → rs.foldlM (collectProvider sys) acc = .ok acc' →
      ∃ ps, acc'.providers = acc.providers ++ ps ∧ List.Forall₂ (Built sys settings) ts ps
  | [], rs, acc, acc', hrs, h => by
    rw [mapM_nil_ok.mp hrs] at h
    rw [foldlM_nil_ok.mp h]
    exact ⟨[], (List.append_nil _).symm, .nil⟩
  | t :: ts, rs, acc, acc', hrs, h => by
    obtain ⟨run, rs, ht, hts, rfl⟩ := mapM_cons_ok.mp hrs
    obtain ⟨acc₁, h₁, h₂⟩ := foldlM_cons_ok.mp h
    obtain ⟨p, hp, -, hp₁⟩ := collectProvider_eq_ok h₁
    obtain ⟨ps, hps, hbuilt⟩ := built_of_runs hts h₂
    have hconf := getProvider_conf _ ht
    obtain ⟨⟨conf, data, error⟩, s⟩ := run
    cases hconf
    refine ⟨p :: ps, ?_, .cons ⟨data, error, s, ht, hp⟩ hbuilt⟩
    rw [hps, hp₁, List.append_assoc]
    rfl

theorem sent_nothing (sys : System) (settings : Settings) : Sent sys settings [] [] where
  published := ⟨[], List.nil_prefix, .nil⟩
  enabled h := absurd rfl h
  requested h := absurd rfl h
  built h := by rcases h with h | h <;> exact absurd rfl h

/-- The end of a run, after which it has sent the given messages and requests. -/
def Ending (sys : System) (settings : Settings) (l : List Effect) : Prop :=
  ∃ messages requests, l = messages.map .message ++ requests.map .request ∧
    Sent sys settings messages requests

theorem publish_ends (data : List ConnectionDict) :
    Ends (publish sys settings data) {}
      (fun _ s => ∃ messages, s.attempts = messages.map .message ∧
        Published settings.kafkaMsgVersion sys.now data messages ∧
          (messages ≠ [] → settings.kafkaEnable = true) ∧ messages = announced sys settings data)
      (fun _ s => ∃ messages, s.attempts = messages.map .message ∧
        Published settings.kafkaMsgVersion sys.now data messages ∧
          (messages ≠ [] → settings.kafkaEnable = true)) := by
  rw [publish]
  split
  · rename_i henable
    have hpublished := @sendToKafka_published sys.kafka sys.now data settings
    have hannounced : (sendToKafka sys.kafka sys.now settings data {}).2.attempts =
        announced sys settings data := (if_pos henable).symm
    refine Ends.within ?_
    rcases hx : sendToKafka sys.kafka sys.now settings data {} with ⟨_ | _, s⟩ <;>
      rw [hx] at hpublished hannounced <;> rw [Ends, hx]
    · exact ⟨s.attempts, rfl, hpublished, fun _ => henable⟩
    · exact ⟨s.attempts, rfl, hpublished, fun _ => henable, hannounced⟩
  · rename_i hdisabled
    exact Ends.pure ⟨[], rfl, ⟨[], List.nil_prefix, .nil⟩, fun h => absurd rfl h, (if_neg hdisabled).symm⟩

/-- A run that returns has sent its messages and then the requests of
`update_database`, which returned `True` if the status is 0. -/
def Returning (sys : System) (settings : Settings) (status : Nat) (l : List Effect) : Prop :=
  ∃ messages token,
    l = messages.map .message ++ (updateDatabase sys.registry (inferServiceEndpoints settings)
      (providers sys settings) token settings.fedRegTimeout {}).2.attempts.map .request ∧
    Sent sys settings messages (updateDatabase sys.registry (inferServiceEndpoints settings)
      (providers sys settings) token settings.fedRegTimeout {}).2.attempts ∧
    firstToken (siteConfigs sys settings) = .ok token ∧
    List.Forall₂ (Built sys settings) (threads sys settings) (providers sys settings) ∧
    (status = 0 → (updateDatabase sys.registry (inferServiceEndpoints settings)
      (providers sys settings) token settings.fedRegTimeout {}).1 = .ok true) ∧
    messages = announced sys settings (kafkaData sys settings)

/-- How the requests of a run end, once its messages are sent. -/
theorem requesting_ends {error : Bool} {messages : List KafkaMessage} {token : String}
    (hsent : ∀ requests, requests = (updateDatabase sys.registry (inferServiceEndpoints settings)
      (providers sys settings) token settings.fedRegTimeout {}).2.attempts →
        Sent sys settings messages requests)
    (htoken : firstToken (siteConfigs sys settings) = .ok token)
    (hbuilt : List.Forall₂ (Built sys settings) (threads sys settings) (providers sys settings))
    (hannounced : messages = announced sys settings (kafkaData sys settings)) {s : Log Effect}
    (hs : s.attempts = messages.map .message) :
    Ends (within Effect.request (updateDatabase sys.registry (inferServiceEndpoints settings)
        (providers sys settings) token settings.fedRegTimeout) >>= fun updated =>
          pure (if error || !updated then 1 else 0)) s
      (fun status s => Returning sys settings status s.attempts)
      (fun _ s => Ending sys settings s.attempts) := by
  refine Ends.bind (Ends.within ?_)
  rcases hx : updateDatabase sys.registry (inferServiceEndpoints settings) (providers sys settings)
    token settings.fedRegTimeout {} with ⟨e | updated, s'⟩ <;> rw [Ends, hx]
  · exact ⟨messages, s'.attempts, by rw [hs], hsent _ (by rw [hx])⟩
  · refine Ends.pure ⟨messages, token, by rw [hs, hx], hsent _ rfl, htoken, hbuilt, fun hstatus => ?_,
      hannounced⟩
    rw [hx]
    cases updated with
    | true => rfl
    | false =>
      rw [Bool.not_false, Bool.or_true, if_pos rfl] at hstatus
      cases hstatus

/-- How a run ends, and what it has sent then. -/
theorem mainSession_ends : Ends (mainSession sys settings) {}
    (fun status s => Returning sys settings status s.attempts)
    (fun _ s => Ending sys settings s.attempts) := by
  have hnothing : Ending sys settings [] := ⟨[], [], rfl, sent_nothing sys settings⟩
  refine Ends.bind (Ends.ofExcept (fun files hfiles => ?_) fun _ _ => hnothing)
  have hyaml : yamlFiles sys settings = files := by
    rw [yamlFiles, hfiles]
    rfl
  refine Ends.bind (Ends.ofExcept (fun loaded hcs => ?_) fun _ _ => hnothing)
  obtain ⟨cs, loadError⟩ := loaded
  obtain ⟨hcs, -⟩ := getSiteConfigs_eq_ok hyaml hcs
  refine Ends.bind (Ends.ofExcept (fun pthreads hthreads => ?_) fun _ _ => hnothing)
  have hthreads := providerThreads_eq_ok hcs hthreads
  refine Ends.bind (Ends.ofExcept (fun rs hrs => ?_) fun _ _ => hnothing)
  rw [← hthreads] at hrs
  obtain ⟨hruns, -⟩ := runThreads_eq_ok hrs
  refine Ends.bind (Ends.ofExcept (fun collected hcollected => ?_) fun _ _ => hnothing)
  -- what is collected is what the specification says of the runs
  have hproviders : providers sys settings = collected.providers := by
    rw [providers, hruns, foldlM_collectProvider_providers hcollected]
    rfl
  have hdata : kafkaData sys settings = collected.kafkaData := by
    rw [kafkaData, hruns, foldlM_collectProvider_kafkaData hcollected]
    rfl
  have hbuilt : List.Forall₂ (Built sys settings) (threads sys settings) (providers sys settings) := by
    obtain ⟨ps, hps, hbuilt⟩ := built_of_runs hrs hcollected
    rw [hproviders, hps]
    exact hbuilt
  rw [← hdata, ← hproviders, ← hcs]
  -- a run that stops before its requests
  have hstops : ∀ {s : Log Effect}, (∃ messages, s.attempts = messages.map .message ∧
      Published settings.kafkaMsgVersion sys.now (kafkaData sys settings) messages ∧
        (messages ≠ [] → settings.kafkaEnable = true)) → Ending sys settings s.attempts := by
    rintro s ⟨messages, hattempts, hpublished, henabled⟩
    refine ⟨messages, [], by rw [hattempts, List.map_nil, List.append_nil], hpublished, henabled, ?_,
      fun _ => hbuilt⟩
    exact fun h => absurd rfl h
  refine Ends.bind ((publish_ends _).mono ?_ fun _ _ => hstops)
  rintro _ s ⟨messages, hattempts, hpublished, henabled, hannounced⟩
  refine Ends.bind (Ends.ofExcept (fun token htoken => ?_) fun _ _ => ?_)
  · refine requesting_ends (fun requests hrequests => ?_) htoken hbuilt hannounced hattempts
    exact ⟨hpublished, henabled, fun _ => ⟨token, htoken, hrequests⟩, fun _ => hbuilt⟩
  · exact hstops ⟨messages, hattempts, hpublished, henabled⟩

theorem attempted_noDelete {registry : Registry} {crud : CRUD} {items : List ProviderCreateExtended}
    {l : List Request} (h : Attempted registry crud items l) (i : ProviderRead) : .delete i ∉ l := by
  intro hi
  rcases h with rfl | ⟨_, ⟨stored, -, rfl⟩, hpre⟩
  · cases List.mem_singleton.mp hi
  · rcases List.mem_cons.mp (hpre.subset hi) with hget | hwrite
    · cases hget
    · rcases mem_writes hwrite with ⟨item, hpost⟩ | ⟨i', item, hput⟩
      · cases hpost
      · cases hput

theorem mainSession_ending (sys : System) (settings : Settings) :
    Ending sys settings (mainSession sys settings {}).2.attempts := by
  refine Ends.log (P := fun s => Ending sys settings s.attempts) (mainSession_ends.mono ?_ fun _ _ => id)
  intro _ s hs
  obtain ⟨messages, token, hattempts, hsent, -⟩ := hs
  exact ⟨messages, _, hattempts, hsent⟩

/-- However a run ends, it has sent first messages, those of an initial segment
of the data that all providers returned, and then requests: none, or only the
one that reads, or that and an initial segment of the writes of all providers,
never a removal. It sends something only if every provider has been built. -/
theorem main_effects (sys : System) (settings : Settings) :
    (mainSession sys settings {}).1 = main sys settings ∧ ∃ messages requests,
      (mainSession sys settings {}).2.attempts = messages.map .message ++ requests.map .request ∧
      Sent sys settings messages requests ∧
      (requests ≠ [] → ∃ token, firstToken (siteConfigs sys settings) = .ok token ∧
        Attempted sys.registry (client (inferServiceEndpoints settings) token settings.fedRegTimeout)
          (providers sys settings) requests) ∧
      ∀ i, .delete i ∉ requests := by
  obtain ⟨messages, requests, hattempts, hsent⟩ := mainSession_ending sys settings
  have hattempted : requests ≠ [] → ∃ token, firstToken (siteConfigs sys settings) = .ok token ∧
      Attempted sys.registry (client (inferServiceEndpoints settings) token settings.fedRegTimeout)
        (providers sys settings) requests := by
    intro hne
    obtain ⟨token, htoken, rfl⟩ := hsent.requested hne
    exact ⟨token, htoken, (updateDatabase_attempts _ _ _ _ _).resolve_left hne⟩
  refine ⟨rfl, messages, requests, hattempts, hsent, hattempted, fun i hi => ?_⟩
  obtain ⟨token, -, h⟩ := hattempted (List.ne_nil_of_mem hi)
  exact attempted_noDelete h i hi

end

end FRF.Proof
