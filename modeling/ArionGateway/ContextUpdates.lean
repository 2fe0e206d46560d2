import ArionGateway.SecretLookups

/-!
# Updating a TLS context

The contexts of clusters and listeners as one type, with the names they refer
to, and for each side when an update does what building the context again
does. A secret the context does not use changes nothing. One that its
configurator has remembered is put in its place: a trust store is remembered by
name from the start, a certificate only together with an earlier value.
-/
namespace ArionGateway.ContextUpdates
open FallibleSteps FirstMatch TlsSecrets TlsContextBuilder TlsConfigurators SecretLookups List

variable {L : TlsLibrary} {S : SecretManager L} {id : String}

variable (L) in
inductive TlsConfig
  | upstream (context : TlsClientConfig L)
  | downstream (config : TlsServerConfig L)

namespace TlsConfig

def validationContext : TlsConfig L → Option (CommonTlsValidationContext L)
  | .upstream context => context.validationContext
  | .downstream config => config.commonTlsContext.validationContext

def certificateNames : TlsConfig L → List String
  | .upstream context =>
    match context.secret with
    | some (.sdsConfig name) => [name]
    | _ => []
  | .downstream config =>
    match config.commonTlsContext.secrets with
    | .sdsConfig names => names
    | .certificates _ => []

variable (config : TlsConfig L)

/-- The context refers to a secret of the name and of the kind of the value. -/
def Uses (id : String) : TransportSecret L → Prop
  | .certificate _ => id ∈ config.certificateNames
  | .validationContext _ => config.validationContext = some (.sdsConfig id)

def References (id : String) : Prop :=
  id ∈ config.certificateNames ∨ config.validationContext = some (.sdsConfig id)

/-- The certificate is already the first of the configuration's own server
certificates. Those are held under the empty name. -/
def HoldsUnnamed (id : String) (certificate : CertificateSecret L) : Prop :=
  match config with
  | .upstream _ => False
  | .downstream config =>
    match config.commonTlsContext.secrets with
    | .certificates (first::_) => id = "" ∧
        CertificateSecret.toServerCert <$> CertificateSecret.tryFrom first =
          .ok certificate.toServerCert
    | _ => False

/-- A configurator built from the secrets has the place of an arriving one: a
certificate must have been there before. -/
def Remembers (S : SecretManager L) (id : String) : TransportSecret L → Prop
  | .certificate certificate =>
    (id ∈ config.certificateNames ∧ id ∈ S.certificateSecrets) ∨ config.HoldsUnnamed id certificate
  | .validationContext _ => config.validationContext = some (.sdsConfig id)

end TlsConfig

open TlsConfig (certificateNames validationContext upstream downstream)

open ServerConfigurator (configured)

def withTicketer (self : ServerConfigurator L) (ticketer : L.Ticketer) : ServerConfigurator L :=
  { contextBuilder := { self.contextBuilder with ticketer }
    config := { self.config with ticketer } }

lemma configured_withTicketer {s : WantsToBuildServer L} {c : ServerConfigurator L}
    (h : configured s = .ok c) (ticketer : L.Ticketer) :
    configured { s with ticketer } = .ok (withTicketer c ticketer) := by
  obtain ⟨cf,hco,hc⟩ := bind_eq_ok.mp h
  cases hc
  obtain ⟨v,certResolver,hv,hr,rfl⟩ := WantsToBuildServer.build_eq_ok_iff.mp hco
  exact bind_eq_ok.mpr ⟨_,WantsToBuildServer.build_eq_ok_iff.mpr ⟨v,certResolver,hv,hr,rfl⟩,rfl⟩

variable (L) in
inductive Configurator
  | upstream (configurator : ClientConfigurator L)
  | downstream (configurator : ServerConfigurator L)

namespace Configurator

def tryFrom (config : TlsConfig L) (secretManager : SecretManager L)
    (ticketer : Except String L.Ticketer) : Except String (Configurator L) :=
  match config with
  | .upstream context =>
    .upstream <$> ClientConfigurator.tryFrom context secretManager
  | .downstream config =>
    .downstream <$> ServerConfigurator.tryFrom config secretManager ticketer

def update (self : Configurator L) (secretId : String) (secret : TransportSecret L)
    (ticketer : Except String L.Ticketer) : Except String (Configurator L) :=
  match self with
  | .upstream configurator =>
    .upstream <$> ClientConfigurator.update configurator secretId secret
  | .downstream configurator => .downstream <$>
      ServerConfigurator.update configurator secretId secret ticketer

/-- The same builder state and configuration, ticket keys excepted. -/
def SameAs : Configurator L → Configurator L → Prop
  | .upstream a, .upstream b => a = b
  | .downstream a, .downstream b =>
    withTicketer a b.contextBuilder.ticketer = b
  | _, _ => False

/-- What becomes of a configurator when a secret arrives. A cluster asks its
configurator whether it uses the name, a listener tries the update; a failed
update leaves the configurator as it is. -/
def receive (self : Configurator L) (secretId : String) (secret : TransportSecret L)
    (ticketer : Except String L.Ticketer) : Configurator L :=
  match self with
  | .upstream configurator =>
    if ClientConfigurator.usesSecret configurator secretId then
      match ClientConfigurator.update configurator secretId secret with
      | .ok configurator => .upstream configurator
      | .error _ => .upstream configurator
    else .upstream configurator
  | .downstream configurator =>
    match ServerConfigurator.update configurator secretId secret ticketer with
    | .ok configurator => .downstream configurator
    | .error _ => .downstream configurator

end Configurator

variable {co : TlsConfig L}

lemma Configurator.tryFrom_insert_of_not_uses {s : TransportSecret L}
    (h : ¬ co.Uses id s) (S : SecretManager L) (ticketer : Except String L.Ticketer) :
    tryFrom co (S.insert id s) ticketer = tryFrom co S ticketer := by
  have hst : createCertificateStore (S.insert id s) co.validationContext =
      createCertificateStore S co.validationContext := by
    cases s with
    | certificate certificate => apply createCertificateStore_insert_certificate
    | validationContext c =>
      rcases ho : co.validationContext with _ | name | _
      · rfl
      · have hn : id ≠ name := by
          rintro rfl
          exact h ho
        rw [createCertificateStore,createCertificateStore,SecretManager.getValidationContext,
          SecretManager.getValidationContext,SecretManager.insert_validationContexts_validationContext,Std.HashMap.getElem?_insert,
          if_neg (by simpa using hn)]
      · rfl
  cases co with
  | upstream ct =>
    have hce : ClientConfigurator.clientCertificate (S.insert id s) ct.secret =
        ClientConfigurator.clientCertificate S ct.secret := by
      cases s with
      | certificate certificate =>
        apply clientCertificate_insert_of_ne
        intro hsc
        exact h (by simp [TlsConfig.Uses,certificateNames,hsc])
      | validationContext c => apply clientCertificate_insert_validationContext
    rw [validationContext] at hst
    simp only [tryFrom,ClientConfigurator.tryFrom,hst,hce]
  | downstream co =>
    have hc : ServerConfigurator.certsAndSecretIds (S.insert id s) co.commonTlsContext.secrets =
        ServerConfigurator.certsAndSecretIds S co.commonTlsContext.secrets := by
      cases hse : co.commonTlsContext.secrets with
      | certificates certs => rfl
      | sdsConfig names =>
        cases s with
        | certificate certificate =>
          refine sdsCertificates_congr (fun n hn => ?_) []
          refine getCertificate_insert_of_ne S certificate ?_
          rintro rfl
          exact h (by simpa [TlsConfig.Uses,certificateNames,hse] using hn)
        | validationContext c => exact sdsCertificates_congr (fun _ _ => by rfl) []
    rw [validationContext] at hst
    simp only [tryFrom,ServerConfigurator.tryFrom,hc,hst]

lemma Configurator.sameAs_of_tryFrom {t t' : Except String L.Ticketer}
    {f second : Configurator L} (hfirst : tryFrom co S t = .ok f)
    (hse : tryFrom co S t' = .ok second) : f.SameAs second := by
  cases co with
  | upstream ct =>
    obtain ⟨a,ha,rfl⟩ := map_eq_ok.mp hfirst
    obtain ⟨b,hb,rfl⟩ := map_eq_ok.mp hse
    rw [ha] at hb
    cases hb
    rfl
  | downstream co =>
    obtain ⟨a,ha,rfl⟩ := map_eq_ok.mp hfirst
    obtain ⟨b,hb,rfl⟩ := map_eq_ok.mp hse
    obtain ⟨s,store,holders,keys,hst,hholders,-,ha,-⟩ :=
      ServerConfigurator.exists_state_of_tryFrom ha
    obtain ⟨-,-,-,keys',-,-,rfl,-,-⟩ := ServerConfigurator.exists_state_of_tryFrom hb
    rw [ServerConfigurator.tryFrom_of_lookups hst hholders] at hb
    have ho := configured_withTicketer ha keys'
    rw [SameAs,ServerConfigurator.contextBuilder_of_configured hb]
    exact Except.ok.inj (ho.symm.trans hb)

section
open ClientConfigurator

variable {cn : TlsClientConfig L} {f : ClientConfigurator L}

variable (hf : tryFrom cn S = .ok f)
include hf

lemma client_update_certificate (hse : cn.secret = some (.sdsConfig id))
    (hm : id ∈ S.certificateSecrets) (c : CertificateSecret L) :
    f.update id (.certificate c) = tryFrom cn (S.insert id (.certificate c)) := by
  obtain ⟨s,store,certificateId,held,hsr,hh,hst⟩ := exists_state_of_tryFrom hf
  have hid := (clientCertificate_eq_some_iff hh).mpr ⟨hse,hm⟩
  rw [update_certificate_of_eq (by rw [hst]; exact hid),hst,
    tryFrom_of_lookups ((createCertificateStore_insert_certificate ..).trans hsr)
      (hse ▸ clientCertificate_insert_self S c)]
  simp [initialState,hid]

lemma client_update_validationContext
    (ho : cn.validationContext = some (.sdsConfig id)) (c : CertStore L) :
    f.update id (.validationContext c) = tryFrom cn (S.insert id (.validationContext c)) := by
  obtain ⟨s,store,certificateId,held,hsr,hh,hst⟩ := exists_state_of_tryFrom hf
  have hid : s = some id := (createCertificateStore_eq_some_iff hsr).mpr ho
  rw [update_validationContext_of_eq (by rw [hst]; exact hid),hst,
    tryFrom_of_lookups (ho ▸ createCertificateStore_insert_self S c)
      ((clientCertificate_insert_validationContext ..).trans hh)]
  cases held with
  | none => simp only [initialState,hid,Option.bind_none]
  | some certificate => simp only [initialState,hid,Option.bind_some]

lemma remembers_of_client_update {secret : TransportSecret L} {u : ClientConfigurator L}
    (hu : f.update id secret = .ok u) : (upstream cn).Remembers S id secret := by
  obtain ⟨s,store,certificateId,held,hsr,hh,hst⟩ := exists_state_of_tryFrom hf
  cases secret with
  | certificate certificate =>
    have hid := certificateSecretId_of_update hu
    rw [hst] at hid
    obtain ⟨hse,hm⟩ := (clientCertificate_eq_some_iff hh).mp hid
    exact .inl ⟨by simp [certificateNames,hse],hm⟩
  | validationContext c =>
    have hid := validationContextSecretId_of_update hu
    rw [hst] at hid
    exact (createCertificateStore_eq_some_iff hsr).mp hid

end

open ServerConfigurator

variable {co : TlsServerConfig L} {fi : ServerConfigurator L}
  {ticketer : Except String L.Ticketer} {holders : List (SecretHolder L)}
  {certs : List (TlsCertificate L)}

lemma inlineCertificates_cons_eq_ok {c : TlsCertificate L}
    (h : inlineCertificates (c::certs) = .ok holders) : ∃ d rest, CertificateSecret.tryFrom c = .ok d ∧
        inlineCertificates certs = .ok rest ∧
        holders = { name := "", serverCert := d.toServerCert }::rest := by
  rw [inlineCertificates,mapM_cons] at h
  obtain ⟨ho,hh,h⟩ := bind_eq_ok.mp h
  obtain ⟨d,hd,hh⟩ := bind_eq_ok.mp hh
  obtain ⟨rest,hr,h⟩ := bind_eq_ok.mp h
  cases hh
  cases h
  exact ⟨d,rest,hd,hr,rfl⟩

lemma name_of_mem_inlineCertificates (h : inlineCertificates certs = .ok holders) :
    ∀ ho ∈ holders, ho.name = "" := by
  induction certs generalizing holders with
  | nil =>
    cases h
    simp
  | cons certificate certs ih =>
    obtain ⟨d,rest,-,hr,rfl⟩ := inlineCertificates_cons_eq_ok h
    exact forall_mem_cons.mpr ⟨rfl,ih hr⟩

lemma setServerCert_name_mem {s : ServerCert L} {r : List (SecretHolder L)}
    (h : setServerCert id s holders = some (r, ())) : id ∈ holders.map SecretHolder.name := by
  obtain ⟨b,holder,holder',after,rfl,-,hh,-⟩ := visitFirst_eq_some h
  split at hh
  next hn => simp [hn]
  · cases hh

variable {names : List String}

lemma certsAndSecretIds_sdsConfig_iff : certsAndSecretIds S (.sdsConfig names) = .ok holders ↔
      ((present S names).map SecretHolder.name).Nodup ∧ holders = present S names := by
  rw [certsAndSecretIds,sdsCertificates_eq_ok_iff (by simp),nil_append]

lemma setServerCert_of_arrived (hholders : certsAndSecretIds S (.sdsConfig names) = .ok holders)
    (hna : id ∈ names) (hm : id ∈ S.certificateSecrets) (c : CertificateSecret L) :
    ∃ holders', setServerCert id c.toServerCert holders = some (holders', ()) ∧
      certsAndSecretIds (S.insert id (.certificate c)) (.sdsConfig names) = .ok holders' := by
  obtain ⟨hn,rfl⟩ := certsAndSecretIds_sdsConfig_iff.mp hholders
  refine ⟨_,setServerCert_present c hn hm hna,certsAndSecretIds_sdsConfig_iff.mpr ⟨?_,rfl⟩⟩
  have hsa (name : String) :
      name ∈ (S.insert id (.certificate c)).certificateSecrets ↔ name ∈ S.certificateSecrets := by
    rw [SecretManager.insert_certificateSecrets_certificate,Std.HashMap.mem_insert,beq_iff_eq]
    exact ⟨fun h => h.elim (fun heq => heq ▸ hm) fun h => h,.inr⟩
  rw [map_name_present] at hn ⊢
  simpa only [hsa] using hn

variable {certificate : CertificateSecret L}

section

variable (hh : certsAndSecretIds S co.commonTlsContext.secrets = .ok holders)
include hh

lemma setServerCert_of_holdsUnnamed (hu : (downstream co).HoldsUnnamed id certificate) :
    setServerCert id certificate.toServerCert holders = some (holders, ()) ∧
      certsAndSecretIds (S.insert id (.certificate certificate))
        co.commonTlsContext.secrets = .ok holders := by
  simp only [TlsConfig.HoldsUnnamed] at hu
  rcases hse : co.commonTlsContext.secrets with names | certs
  · simp [hse] at hu
  · cases certs with
    | nil => simp [hse] at hu
    | cons c certs =>
      rw [hse] at hh hu
      obtain ⟨rfl,hu⟩ := hu
      obtain ⟨d,rest,hde,-,rfl⟩ := inlineCertificates_cons_eq_ok hh
      obtain ⟨d',hd,hsa⟩ := map_eq_ok.mp hu
      rw [hde] at hd
      cases hd
      refine ⟨?_,hh⟩
      rw [setServerCert,visitFirst,if_pos rfl,hsa]

lemma setServerCert_of_remembers (hr : (downstream co).Remembers S id (.certificate certificate)) :
    ∃ holders', setServerCert id certificate.toServerCert holders = some (holders', ()) ∧
      certsAndSecretIds (S.insert id (.certificate certificate))
        co.commonTlsContext.secrets = .ok holders' := by
  rcases hr with ⟨hn,hm⟩ | hu
  · rcases hse : co.commonTlsContext.secrets with names | certs
    · simp only [certificateNames,hse] at hn
      exact setServerCert_of_arrived (hse ▸ hh) hn hm certificate
    · simp [certificateNames,hse] at hn
  · exact ⟨holders,setServerCert_of_holdsUnnamed hh hu⟩

end

lemma server_update_certificate (hfirst : tryFrom co S ticketer = .ok fi)
    (hr : (downstream co).Remembers S id (.certificate certificate)) (f : L.Ticketer) :
    fi.update id (.certificate certificate) (.ok f) =
      tryFrom co (S.insert id (.certificate certificate)) ticketer := by
  obtain ⟨s,store,holders,keys,hsr,hholders,rfl,-,hst⟩ := exists_state_of_tryFrom hfirst
  obtain ⟨holders',hse,hh⟩ := setServerCert_of_remembers hholders hr
  rw [update_certificate_of_some (by rw [hst]; exact hse),hst,
    tryFrom_of_lookups ((createCertificateStore_insert_certificate ..).trans hsr) hh]
  cases store with
  | none | some store => rfl

lemma server_update_validationContext (hfirst : tryFrom co S ticketer = .ok fi)
    (ho : co.commonTlsContext.validationContext = some (.sdsConfig id))
    (c : CertStore L) (f : L.Ticketer) : fi.update id (.validationContext c) (.ok f) =
      tryFrom co (S.insert id (.validationContext c)) ticketer := by
  obtain ⟨s,store,holders,keys,hsr,hholders,rfl,-,hst⟩ := exists_state_of_tryFrom hfirst
  have hid := (createCertificateStore_eq_some_iff hsr).mpr ho
  have hh : certsAndSecretIds (S.insert id (.validationContext c))
      co.commonTlsContext.secrets = .ok holders := by
    rw [← hholders]
    cases co.commonTlsContext.secrets with
    | certificates certs => rfl
    | sdsConfig names => exact sdsCertificates_congr (fun _ _ => by rfl) []
  rw [update_validationContext_of_eq (by rw [hst]; exact hid),hst,
    tryFrom_of_lookups (ho ▸ createCertificateStore_insert_self S c) hh]
  simp [initialState,hid]

variable {u : ServerConfigurator L}

lemma validationContext_of_server_update {c : CertStore L}
    {f : Except String L.Ticketer} (hfirst : tryFrom co S ticketer = .ok fi)
    (hu : fi.update id (.validationContext c) f = .ok u) :
    co.commonTlsContext.validationContext = some (.sdsConfig id) := by
  obtain ⟨s,store,holders,keys,hst,hholders,rfl,-,hsta⟩ := exists_state_of_tryFrom hfirst
  have hid := (validationContextSecretId_of_update hu).1
  rw [hsta] at hid
  exact (createCertificateStore_eq_some_iff hst).mp hid

lemma certsAndSecretIds_of_tryFrom (hfirst : tryFrom co S ticketer = .ok fi) :
    certsAndSecretIds S co.commonTlsContext.secrets =
      .ok fi.contextBuilder.serverIdsAndCertificates := by
  obtain ⟨s,store,holders,keys,-,hholders,-,-,hst⟩ := exists_state_of_tryFrom hfirst
  rw [hst,hholders]
  rfl

variable {fr : L.Ticketer}

lemma setServerCert_of_server_update
    (hu : fi.update id (.certificate certificate) (.ok fr) = .ok u) :
    setServerCert id certificate.toServerCert fi.contextBuilder.serverIdsAndCertificates =
      some (u.contextBuilder.serverIdsAndCertificates, ()) := by
  obtain ⟨holders,-,hse,-⟩ := setServerCert_of_update hu
  rw [update_certificate_of_some hse] at hu
  rw [hse,contextBuilder_of_configured hu]

lemma holdsUnnamed_of_setServerCert (hse : co.commonTlsContext.secrets = .certificates certs)
    (hholders : inlineCertificates certs = .ok holders)
    (hst : setServerCert id certificate.toServerCert holders = some (holders, ())) :
    (downstream co).HoldsUnnamed id certificate := by
  have hid : id = "" := by
    obtain ⟨ho,hm,rfl⟩ := mem_map.mp (setServerCert_name_mem hst)
    exact name_of_mem_inlineCertificates hholders ho hm
  subst hid
  cases certs with
  | nil =>
    cases hholders
    cases hst
  | cons c certs =>
    obtain ⟨d,rest,hd,-,rfl⟩ := inlineCertificates_cons_eq_ok hholders
    rw [setServerCert,visitFirst,if_pos rfl] at hst
    simp only [Option.some.injEq,Prod.mk.injEq,cons.injEq,SecretHolder.mk.injEq,
      true_and,and_true] at hst
    simp only [TlsConfig.HoldsUnnamed,hse,true_and]
    exact map_eq_ok.mpr ⟨d,hd,hst.symm⟩

lemma server_update_cases (hfirst : tryFrom co S ticketer = .ok fi)
    (hu : fi.update id (.certificate certificate) (.ok fr) = .ok u) :
    (id ∈ (downstream co).certificateNames ∧ id ∈ S.certificateSecrets) ∨
      (id = "" ∧ ∃ certs, co.commonTlsContext.secrets = .certificates certs) := by
  have hholders := certsAndSecretIds_of_tryFrom hfirst
  have hn := setServerCert_name_mem (setServerCert_of_server_update hu)
  rcases hse : co.commonTlsContext.secrets with names | certs
  · rw [hse] at hholders
    rw [(certsAndSecretIds_sdsConfig_iff.mp hholders).2,map_name_present,mem_filter] at hn
    refine .inl ⟨?_,by simpa using hn.2⟩
    simpa [certificateNames,hse] using hn.1
  · rw [hse] at hholders
    obtain ⟨ho,hm,rfl⟩ := mem_map.mp hn
    exact .inr ⟨name_of_mem_inlineCertificates hholders ho hm,certs,rfl⟩

lemma remembers_of_server_update {t' : Except String L.Ticketer}
    {s : ServerConfigurator L} (hfirst : tryFrom co S ticketer = .ok fi)
    (hsc : tryFrom co (S.insert id (.certificate certificate)) t' = .ok s)
    (hu : fi.update id (.certificate certificate) (.ok fr) = .ok u)
    (hsa : withTicketer u s.contextBuilder.ticketer = s) :
    (downstream co).Remembers S id (.certificate certificate) := by
  rcases server_update_cases hfirst hu with ha | ⟨-,certs,hse⟩
  · exact .inl ha
  · have hholders := certsAndSecretIds_of_tryFrom hfirst
    have hh := certsAndSecretIds_of_tryFrom hsc
    have hst := setServerCert_of_server_update hu
    rw [hse] at hholders hh
    rw [← hsa] at hh
    have hn : u.contextBuilder.serverIdsAndCertificates =
        fi.contextBuilder.serverIdsAndCertificates :=
      Except.ok.inj (hh.symm.trans hholders)
    rw [hn] at hst
    exact .inr (holdsUnnamed_of_setServerCert hse hholders hst)

end ArionGateway.ContextUpdates
