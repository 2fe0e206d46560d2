import ArionGateway.ContextUpdates
import ArionGateway.Executions

/-!
# Secrets that arrive after the context

A cluster or listener can be configured before, between or after the secrets
its TLS context refers to. What it should end up with is the configurator that
building the context from all secrets gives. This holds as long as each
arriving secret is one the configurator has a place for; the name of a
certificate that had not arrived when the context was built is forgotten, on
the client side with the certificate's field, on the server side with the
certificate's holder.
-/
namespace ArionGateway.SecretUpdates
open Std.HashMap
open Executions FallibleSteps TlsSecrets TlsConfigurators SecretLookups
open ContextUpdates
open SecretManager (eq_insert_of_add new)
open ServerConfigurator (certsAndSecretIds exists_state_of_tryFrom tryFrom_of_lookups)
open TlsConfig (certificateNames downstream)

variable {L : TlsLibrary} {S : SecretManager L} {id : String}

open Configurator

variable {c : TlsConfig L} {secret : TransportSecret L}
  {ticketer t' : Except String L.Ticketer} {first s updated : Configurator L}

section

variable (hf : tryFrom c S ticketer = .ok first)
include hf

/-- An update of a remembered secret does what a new context with the same
ticket keys does. -/
lemma update_of_remembers (hr : c.Remembers S id secret) (f : L.Ticketer) :
    first.update id secret (.ok f) = tryFrom c (S.insert id secret) ticketer := by
  cases c with
  | upstream context =>
    obtain ⟨client,hc,rfl⟩ := map_eq_ok.mp hf
    cases secret with
    | certificate certificate =>
      rcases hr with ⟨hn,hm⟩ | hu
      · have hse : context.secret = some (.sdsConfig id) := by
          rcases hse : context.secret with _ | name | cert
          · simp [certificateNames,hse] at hn
          · simpa [certificateNames,hse,eq_comm] using hn
          · simp [certificateNames,hse] at hn
        rw [update,tryFrom,client_update_certificate hc hse hm certificate]
      · exact hu.elim
    | validationContext certStore =>
      rw [update,tryFrom,client_update_validationContext hc hr certStore]
  | downstream c =>
    obtain ⟨server,hsr,rfl⟩ := map_eq_ok.mp hf
    cases secret with
    | certificate certificate =>
      rw [update,tryFrom,server_update_certificate hsr hr f]
    | validationContext certStore =>
      rw [update,tryFrom,server_update_validationContext hsr hr certStore f]

lemma remembers_of_update {f : L.Ticketer} (hsc : tryFrom c (S.insert id secret) t' = .ok s)
    (hu : first.update id secret (.ok f) = .ok updated) (hsa : updated.SameAs s) :
    c.Remembers S id secret := by
  cases c with
  | upstream context =>
    obtain ⟨client,hcl,rfl⟩ := map_eq_ok.mp hf
    obtain ⟨client',hc,rfl⟩ := map_eq_ok.mp hu
    exact remembers_of_client_update hcl hc
  | downstream c =>
    obtain ⟨server,hse,rfl⟩ := map_eq_ok.mp hf
    obtain ⟨server',hs',rfl⟩ := map_eq_ok.mp hu
    obtain ⟨other,ho,rfl⟩ := map_eq_ok.mp hsc
    cases secret with
    | certificate certificate =>
      exact remembers_of_server_update hse ho hs' hsa
    | validationContext certStore =>
      exact validationContext_of_server_update hse hs'

lemma update_of_not_references (hid : id ≠ "") (hre : ¬ c.References id)
    (s : TransportSecret L) (f : L.Ticketer) : ∃ e, first.update id s (.ok f) = .error e := by
  cases hu : first.update id s (.ok f) with
  | error e => exact ⟨e,rfl⟩
  | ok updated =>
    refine absurd ?_ hre
    cases c with
    | upstream context =>
      obtain ⟨client,hcl,rfl⟩ := map_eq_ok.mp hf
      obtain ⟨client',hc,rfl⟩ := map_eq_ok.mp hu
      have hr := remembers_of_client_update hcl hc
      cases s with
      | certificate certificate =>
        exact hr.elim (fun h => .inl h.1) fun h => h.elim
      | validationContext certStore => exact .inr hr
    | downstream c =>
      obtain ⟨server,hse,rfl⟩ := map_eq_ok.mp hf
      obtain ⟨server',hs',rfl⟩ := map_eq_ok.mp hu
      cases s with
      | certificate certificate =>
        exact (server_update_cases hse hs').elim (fun h => .inl h.1) fun h => absurd h.1 hid
      | validationContext certStore =>
        exact .inr (validationContext_of_server_update hse hs')

lemma exists_tryFrom {S' : SecretManager L} (hse : tryFrom c S' t' = .ok s) :
    ∃ other, tryFrom c S' ticketer = .ok other := by
  cases c with
  | upstream co => exact ⟨s,hse⟩
  | downstream c =>
    obtain ⟨se,hsr,rfl⟩ := map_eq_ok.mp hf
    obtain ⟨-,-,-,keys,-,-,rfl,-,-⟩ := exists_state_of_tryFrom hsr
    obtain ⟨s',hs',rfl⟩ := map_eq_ok.mp hse
    obtain ⟨si,store,holders,held,hst,hh,-,hs',-⟩ := exists_state_of_tryFrom hs'
    refine ⟨.downstream (withTicketer s' keys),map_eq_ok.mpr ⟨withTicketer s' keys,?_,rfl⟩⟩
    rw [tryFrom_of_lookups hst hh]
    exact configured_withTicketer hs' keys

end

lemma receive_of_error {e : String} (h : first.update id secret ticketer = .error e) :
    first.receive id secret ticketer = first := by
  cases first with
  | upstream cl =>
    cases hc : cl.update id secret with
    | ok c' =>
      rw [update,hc] at h
      cases h
    | error e =>
      rw [receive]
      split
      · rw [hc]
      · rfl
  | downstream se =>
    cases hse : se.update id secret ticketer with
    | ok s' =>
      rw [update,hse] at h
      cases h
    | error e =>
      rw [receive,hse]

lemma usesSecret_of_update {c c' : ClientConfigurator L}
    (h : c.update id secret = .ok c') : c.usesSecret id = true := by
  rw [ClientConfigurator.usesSecret,List.any_cons,List.any_cons,List.any_nil,Bool.or_false,
    Bool.or_eq_true,beq_iff_eq,beq_iff_eq]
  cases secret with
  | certificate certificate => exact .inl (ClientConfigurator.certificateSecretId_of_update h)
  | validationContext certStore =>
    exact .inr (ClientConfigurator.validationContextSecretId_of_update h)

lemma receive_of_update (h : first.update id secret ticketer = .ok updated) :
    first.receive id secret ticketer = updated := by
  cases first with
  | upstream cl =>
    obtain ⟨c',hc,rfl⟩ := map_eq_ok.mp h
    rw [receive,if_pos (usesSecret_of_update hc),hc]
  | downstream se =>
    obtain ⟨s',hs',rfl⟩ := map_eq_ok.mp h
    rw [receive,hs']

variable (L) in
structure Deployment where
  secretManager : SecretManager L
  configurator : Configurator L

variable (L) in
structure Arrival where
  secret : Secret L
  ticketer : Except String L.Ticketer

/-- A secret is decoded and kept, then handed to the configurator. -/
def Step (s : Deployment L) (arrival : Arrival L) (t : Deployment L) : Prop :=
  ∃ decoded S', s.secretManager.add arrival.secret = .ok (decoded, S') ∧ t =
      { secretManager := S'
        configurator := s.configurator.receive arrival.secret.name decoded arrival.ticketer }

/-- The context can still be built, and the secret is none of its own or one it
has a place for. -/
def Expected (config : TlsConfig L) (s : Deployment L) (arrival : Arrival L) : Prop :=
  (∃ fresh, arrival.ticketer = .ok fresh) ∧
  ∀ decoded S', s.secretManager.add arrival.secret = .ok (decoded, S') →
    (∃ ticketer second, tryFrom config S' ticketer = .ok second) ∧
    ((arrival.secret.name ≠ "" ∧ ¬ config.References arrival.secret.name) ∨
      config.Remembers s.secretManager arrival.secret.name decoded)

/-- The configurator is the one a new context would get. -/
def UpToDate (config : TlsConfig L) (ticketer : Except String L.Ticketer)
    (s : Deployment L) : Prop :=
  tryFrom config s.secretManager ticketer = .ok s.configurator

variable {config : TlsConfig L}

lemma not_uses_of_not_references {secret : TransportSecret L} (h : ¬ config.References id) :
    ¬ config.Uses id secret := by
  cases secret with
  | certificate certificate => exact fun hu => h (.inl hu)
  | validationContext certStore => exact fun hu => h (.inr hu)

lemma step_upToDate {ti : Except String L.Ticketer} {s t : Deployment L}
    {a : Arrival L} (hs : UpToDate config ti s)
    (hst : Guarded (Expected config) Step s a t) : UpToDate config ti t := by
  obtain ⟨⟨⟨f,hf⟩,hex⟩,decoded,S',ha,rfl⟩ := hst
  obtain ⟨⟨ti',second,hse⟩,hc⟩ := hex decoded S' ha
  have hS' := eq_insert_of_add ha
  subst hS'
  rw [UpToDate] at hs ⊢
  rw [hf]
  rcases hc with ⟨hn,hre⟩ | hr
  · obtain ⟨e,he⟩ := update_of_not_references hs hn hre decoded f
    rw [receive_of_error he,tryFrom_insert_of_not_uses (not_uses_of_not_references hre),hs]
  · obtain ⟨updated,hu⟩ := exists_tryFrom hs hse
    have hup := update_of_remembers hs hr f
    rw [hu] at hup
    rw [receive_of_update hup,hu]

/-- An update agrees with a new context, or there is nothing to update. -/
def Agrees (config : TlsConfig L) (id : String) (secret : TransportSecret L)
    (fresh : L.Ticketer) (first second : Configurator L) : Prop :=
  (¬ config.References id ∧ first.SameAs second) ∨
    ∃ updated, first.update id secret (.ok fresh) = .ok updated ∧ updated.SameAs second

lemma agrees_iff {S' : SecretManager L} {s : Secret L} {d : TransportSecret L}
    {ti t' : Except String L.Ticketer} {f se : Configurator L}
    (ha : S.add s = .ok (d, S')) (hfirst : tryFrom config S ti = .ok f)
    (hse : tryFrom config S' t' = .ok se) (fr : L.Ticketer) : Agrees config s.name d fr f se ↔
      (¬ config.References s.name ∨ config.Remembers S s.name d) := by
  have hS' := eq_insert_of_add ha
  subst hS'
  constructor
  · rintro (⟨hre,-⟩ | ⟨updated,hup,hsa⟩)
    · exact .inl hre
    · exact .inr (remembers_of_update hfirst hse hup hsa)
  · rintro (hre | hr)
    · refine .inl ⟨hre,?_⟩
      rw [tryFrom_insert_of_not_uses (not_uses_of_not_references hre)] at hse
      exact sameAs_of_tryFrom hfirst hse
    · obtain ⟨updated,hu⟩ := exists_tryFrom hfirst hse
      refine .inr ⟨updated,?_,sameAs_of_tryFrom hu hse⟩
      rw [update_of_remembers hfirst hr,hu]

/-- A configurator follows an arriving secret exactly when its context does not
refer to the name, or refers to it under the secret's kind and, for a
certificate, had been built with an earlier certificate of the name. With such
secrets only, the configurator is at any time the one that a new context would
get, wherever among the secrets the context was built. -/
theorem update_agrees_iff_remembered (config : TlsConfig L) :
    (∀ (S S' : SecretManager L) (secret : Secret L) (decoded : TransportSecret L)
      (ticketer ticketer' : Except String L.Ticketer) (fresh : L.Ticketer)
      (first second : Configurator L),
      S.add secret = .ok (decoded, S') →
      tryFrom config S ticketer = .ok first → tryFrom config S' ticketer' = .ok second →
      (Agrees config secret.name decoded fresh first second ↔
        (¬ config.References secret.name ∨ config.Remembers S secret.name decoded))) ∧
    ∀ (s t : Deployment L) (ticketer : Except String L.Ticketer) (arrivals : List (Arrival L)),
      UpToDate config ticketer s → Run (Guarded (Expected config) Step) s arrivals t →
      UpToDate config ticketer t := by
  constructor
  · intro S S' secret decoded ticketer ticketer' fresh first second ha hfirst hse
    exact agrees_iff ha hfirst hse fresh
  · intro s t ticketer arrivals hs hr
    exact hr.invariant (UpToDate config ticketer) (fun _ _ _ hs hst => step_upToDate hs hst) hs

/-- Files are numbers that stand for the one key and certificate in them; like
rustls it makes no verifier from an empty store. -/
abbrev numberedLibrary : TlsLibrary where
  DataSource := ℕ
  Reader := ℕ
  PrivateKeyDer := ℕ
  CertificateDer := ℕ
  RootCertStore := List ℕ
  SigningKey := ℕ
  ClientCertVerifier := List ℕ × Bool
  WebPkiServerVerifier := List ℕ
  Ticketer := ℕ
  intoBufRead := .ok
  pkcs8PrivateKeys key := [.ok key]
  certs cert := [.ok cert]
  subjectAltDnsNames _ := .ok []
  isServerName _ := true
  addParsableCertificates certs := (certs, 0)
  emptyRootCertStore := []
  loadPrivateKey := some .ok
  verifyServerName _ _ := .ok ()
  clientCertVerifier store allow :=
    if store.isEmpty then .error "no root trust anchors were provided" else .ok (store, allow)
  serverCertVerifier store :=
    if store.isEmpty then .error "no root trust anchors were provided" else .ok store
  withSingleCert _ key := .ok key
  withClientAuthCert _ key := .ok key

abbrev leaf (file : ℕ) : Secret numberedLibrary :=
  { name := "leaf", kind := .tlsCertificate { certificateChain := file, privateKey := file } }

abbrev leafSecret (file : ℕ) : CertificateSecret numberedLibrary :=
  { name := none, key := file, certs := [file] }

abbrev anyVersion : TlsParameters :=
  { minimumProtocolVersion := .tlsV12, maximumProtocolVersion := none }

abbrev upstreamContext : TlsClientConfig numberedLibrary :=
  { sni := "backend"
    parameters := anyVersion
    secret := some (.sdsConfig "leaf")
    validationContext := some (.validationContext
      { trustedCa := (7 : ℕ), trustChainVerification := .verifyTrustChain }) }

abbrev downstreamContext : TlsServerConfig numberedLibrary :=
  { requireClientCertificate := false
    commonTlsContext :=
      { parameters := anyVersion
        secrets := .sdsConfig ["leaf"]
        validationContext := none } }

lemma add_leaf (S : SecretManager numberedLibrary) (f : ℕ) :
    S.add (leaf f) = .ok (.certificate (leafSecret f),
      S.insert "leaf" (.certificate (leafSecret f))) := rfl

lemma exists_upstream (S : SecretManager numberedLibrary) : ∃ client,
    tryFrom (.upstream upstreamContext) S (.ok (0 : ℕ)) = .ok client := by
  have hc : ∃ certificate, ClientConfigurator.clientCertificate S upstreamContext.secret =
      .ok (some "leaf", certificate) := by
    rw [ClientConfigurator.clientCertificate,SecretManager.getCertificate]
    cases S.certificateSecrets["leaf"]? <;> exact ⟨_,rfl⟩
  obtain ⟨certificate,hc⟩ := hc
  rw [tryFrom,ClientConfigurator.tryFrom_of_lookups rfl hc]
  cases certificate <;> exact ⟨_,rfl⟩

lemma exists_downstream (S : SecretManager numberedLibrary) : ∃ server,
    tryFrom (.downstream downstreamContext) S (.ok (0 : ℕ)) = .ok server := by
  have hh : certsAndSecretIds S downstreamContext.commonTlsContext.secrets =
      .ok (present S ["leaf"]) := by
    refine certsAndSecretIds_sdsConfig_iff.mpr ⟨?_,rfl⟩
    rw [map_name_present]
    exact (List.nodup_singleton _).filter _
  rw [tryFrom,tryFrom_of_lookups rfl hh]
  cases hl : S.certificateSecrets["leaf"]? with
  | none =>
    rw [present_cons_of_none hl]
    exact ⟨_,rfl⟩
  | some certificate =>
    rw [present_cons_of_some hl]
    exact ⟨_,rfl⟩

/-- Neither a cluster nor a listener follows a certificate that arrives after
its context. -/
theorem late_certificate_ignored : ∃ decoded S',
    (new : SecretManager numberedLibrary).add (leaf 1) = .ok (decoded, S') ∧
    (∃ first second, tryFrom (.upstream upstreamContext) .new (.ok (0 : ℕ)) = .ok first ∧
      tryFrom (.upstream upstreamContext) S' (.ok (0 : ℕ)) = .ok second ∧
      ¬ Agrees (.upstream upstreamContext) "leaf" decoded (0 : ℕ) first second) ∧
    ∃ first second, tryFrom (.downstream downstreamContext) .new (.ok (0 : ℕ)) = .ok first ∧
      tryFrom (.downstream downstreamContext) S' (.ok (0 : ℕ)) = .ok second ∧
      ¬ Agrees (.downstream downstreamContext) "leaf" decoded (0 : ℕ) first second := by
  have hm : "leaf" ∉ (new : SecretManager numberedLibrary).certificateSecrets :=
    not_mem_empty
  refine ⟨_,_,add_leaf .new 1,?_,?_⟩
  · obtain ⟨first,hfirst⟩ := exists_upstream .new
    obtain ⟨second,hse⟩ := exists_upstream _
    refine ⟨first,second,hfirst,hse,fun ha => ?_⟩
    rcases (agrees_iff (add_leaf .new 1) hfirst hse 0).mp ha with hr | ⟨-,hme⟩ | hu
    · exact hr (.inl (by simp [certificateNames]))
    · exact hm hme
    · exact hu
  · obtain ⟨first,hfirst⟩ := exists_downstream .new
    obtain ⟨second,hse⟩ := exists_downstream _
    refine ⟨first,second,hfirst,hse,fun ha => ?_⟩
    rcases (agrees_iff (add_leaf .new 1) hfirst hse 0).mp ha with hr | ⟨-,hme⟩ | hu
    · exact hr (.inl (by simp [certificateNames]))
    · exact hm hme
    · exact hu

/-- A listener follows a renewed certificate and is then as if built with it. -/
theorem renewed_certificate_followed :
    ∃ S : SecretManager numberedLibrary, ∃ first second,
      tryFrom (.downstream downstreamContext) S (.ok (0 : ℕ)) = .ok first ∧
      tryFrom (.downstream downstreamContext) (S.insert "leaf" (.certificate (leafSecret 2)))
        (.ok (0 : ℕ)) = .ok second ∧
      Agrees (.downstream downstreamContext) "leaf" (.certificate (leafSecret 2)) (5 : ℕ)
        first second ∧
      ∃ t, Run Step { secretManager := S, configurator := first }
          [{ secret := leaf 2, ticketer := .ok (5 : ℕ) }] t ∧
        UpToDate (.downstream downstreamContext) (.ok (0 : ℕ)) t := by
  obtain ⟨S,hm⟩ : ∃ S : SecretManager numberedLibrary, "leaf" ∈ S.certificateSecrets :=
    ⟨new.insert "leaf" (.certificate (leafSecret 1)),mem_insert_self⟩
  obtain ⟨first,hfirst⟩ := exists_downstream S
  obtain ⟨second,hse⟩ := exists_downstream (S.insert "leaf" (.certificate (leafSecret 2)))
  have hr : (downstream downstreamContext).Remembers S "leaf"
      (.certificate (leafSecret 2)) := .inl ⟨by simp [certificateNames],hm⟩
  have hal := update_agrees_iff_remembered (downstream downstreamContext)
  have ha := (hal.1 S _ (leaf 2) _ _ _ (5 : ℕ) first second (add_leaf S 2) hfirst hse).mpr (.inr hr)
  have he : Expected (.downstream downstreamContext) ⟨S,first⟩ ⟨leaf 2,.ok (5 : ℕ)⟩ := by
    refine ⟨⟨5,rfl⟩,fun d S' hadd => ?_⟩
    cases hadd
    exact ⟨⟨_,second,hse⟩,.inr hr⟩
  have hst : Step ⟨S,first⟩ ⟨leaf 2,.ok (5 : ℕ)⟩ ⟨S.insert "leaf" (.certificate (leafSecret 2)),
        first.receive "leaf" (.certificate (leafSecret 2)) (.ok (5 : ℕ))⟩ := ⟨_,_,add_leaf S 2,rfl⟩
  exact ⟨S,first,second,hfirst,hse,ha,_,.cons hst (.nil _),
    hal.2 ⟨S,first⟩ _ (.ok (0 : ℕ)) _ hfirst (.cons ⟨he,hst⟩ (.nil _))⟩

end ArionGateway.SecretUpdates
