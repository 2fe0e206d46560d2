import ArionGateway.CachedWatches
import ArionGateway.InPlaceLoops
import ArionGateway.TlsRotation

/-!
# Updating the TLS context of all clusters

A new secret is given to every cluster in the map, one after another and in
place, until a cluster fails to take it (`update_tls_context` in
`clusters/clusters_manager.rs` of arion-lib). Nothing that was changed before is
put back. So after an error the clusters are as they were only if the secret has
changed no cluster up to the one that failed, and that one has failed before it
was changed itself.

The map is the list of its entries in the order of their names.
-/
namespace ArionGateway.ClusterTlsUpdates
open CachedWatches ClusterChannels InPlaceLoops TlsSecrets TransportSockets

variable {L : TlsLibrary} {C : ChannelLibrary} {B : Type}

variable (L C B) in
abbrev ClustersMap := List (String × ClusterType L C B)

/-- One pass of the loop: the cluster, if it has taken the secret, and the entry afterwards. -/
def changeEntry (secretId : String) (secret : TransportSecret L)
    (entry : String × ClusterType L C B) :
    Except String (Option (ClusterType L C B)) × (String × ClusterType L C B) :=
  let (result, cluster) := entry.2.changeTlsContext secretId secret
  (result.map fun changed => if changed then some cluster else none, (entry.1, cluster))

variable (clustersMap : CachedWatch (ClustersMap L C B))

def updateTlsContext (secretId : String) (secret : TransportSecret L) :
    Except String (List (ClusterType L C B)) × CachedWatch (ClustersMap L C B) :=
  let (results, clusters) := visit (changeEntry secretId secret) clustersMap.value
  (results.map fun results => results.filterMap id, clustersMap.update fun _ => clusters)

variable (secretId : String) (secret : TransportSecret L)

/-- The socket of a cluster takes a secret that it cannot make a context from, or
an endpoint cannot be built again from the socket. -/
def Fails : ClusterType L C B → Prop
  | .static cluster =>
    (∃ e, cluster.transportSocket.updateSecret secretId secret = .error e) ∨
    ∃ transportSocket e,
      cluster.transportSocket.updateSecret secretId secret = .ok (true, transportSocket) ∧
        { cluster.loadAssignment with transportSocket }.rebuild = .error e
  | .dynamic cluster =>
    (∃ e, cluster.transportSocket.updateSecret secretId secret = .error e) ∨
    ∃ transportSocket cla e,
      cluster.transportSocket.updateSecret secretId secret = .ok (true, transportSocket) ∧
        cluster.loadAssignment = some cla ∧ { cla with transportSocket }.rebuild = .error e
  | .onDemand cluster =>
    ∃ e, updateConfigurator cluster.httpConfig.tlsConfigurator secretId secret = .error e

/-- The socket does not use the secret or already has it, and what is built from
the socket again is as it was. A static cluster keeps its load assignment when
the building fails; a dynamic one does not. -/
def Untouched : ClusterType L C B → Prop
  | .static cluster => ∀ updated transportSocket,
      cluster.transportSocket.updateSecret secretId secret = .ok (updated, transportSocket) →
        transportSocket = cluster.transportSocket ∧
          (updated = true → ∀ cla, { cluster.loadAssignment with transportSocket }.rebuild = .ok cla →
            cla = cluster.loadAssignment)
  | .dynamic cluster => ∀ updated transportSocket,
      cluster.transportSocket.updateSecret secretId secret = .ok (updated, transportSocket) →
        transportSocket = cluster.transportSocket ∧
          (updated = true → ∀ cla, cluster.loadAssignment = some cla →
            { cla with transportSocket }.rebuild = .ok cla)
  | .onDemand cluster => ∀ updated tlsConfigurator,
      updateConfigurator cluster.httpConfig.tlsConfigurator secretId secret =
        .ok (updated, tlsConfigurator) → tlsConfigurator = cluster.httpConfig.tlsConfigurator

variable {secretId secret}

lemma static_changeTlsContext_iff (c : StaticCluster L C B) :
    ((∃ e, (c.changeTlsContext secretId secret).1 = .error e) ↔ Fails secretId secret (.static c)) ∧
      ((c.changeTlsContext secretId secret).2 = c ↔ Untouched secretId secret (.static c)) := by
  obtain ⟨s,l⟩ := c
  unfold StaticCluster.changeTlsContext Fails Untouched
  dsimp only
  cases s.updateSecret secretId secret with
  | error e => simp
  | ok r =>
    obtain ⟨u,transportSocket⟩ := r
    cases u with
    | false => simp
    | true =>
      cases hr : { l with transportSocket }.rebuild <;> simp [hr]

lemma dynamic_changeTlsContext_iff (c : DynamicCluster L C B) :
    ((∃ e, (c.changeTlsContext secretId secret).1 = .error e) ↔
        Fails secretId secret (.dynamic c)) ∧
      ((c.changeTlsContext secretId secret).2 = c ↔ Untouched secretId secret (.dynamic c)) := by
  obtain ⟨n,policy,http2,loadAssignment,s⟩ := c
  unfold DynamicCluster.changeTlsContext Fails Untouched
  dsimp only
  cases s.updateSecret secretId secret with
  | error e => simp
  | ok r =>
    obtain ⟨u,transportSocket⟩ := r
    cases u with
    | false => simp
    | true =>
      cases loadAssignment with
      | none => simp
      | some cla =>
        cases hr : { cla with transportSocket }.rebuild <;> simp [hr,and_comm]

lemma changeTlsContext_iff (c : ClusterType L C B) :
    ((∃ e, (c.changeTlsContext secretId secret).1 = .error e) ↔ Fails secretId secret c) ∧
      ((c.changeTlsContext secretId secret).2 = c ↔ Untouched secretId secret c) := by
  cases c with
  | static c =>
    obtain ⟨he,hk⟩ := static_changeTlsContext_iff c
    exact ⟨he,(ClusterType.static.injEq ..).to_iff.trans hk⟩
  | dynamic c =>
    obtain ⟨he,hk⟩ := dynamic_changeTlsContext_iff c
    exact ⟨he,(ClusterType.dynamic.injEq ..).to_iff.trans hk⟩
  | onDemand c =>
    obtain ⟨n,socket,port,endpoints,tlsConfigurator,serverName,http2⟩ := c
    unfold ClusterType.changeTlsContext OriginalDstCluster.changeTlsContext Fails Untouched
    dsimp only
    cases updateConfigurator tlsConfigurator secretId secret with
    | error e => simp
    | ok r =>
      obtain ⟨u,t'⟩ := r
      simp

variable (en : String × ClusterType L C B)

lemma changeEntry_error_iff :
    (∃ e, (changeEntry secretId secret en).1 = .error e) ↔ Fails secretId secret en.2 := by
  rw [← (changeTlsContext_iff en.2).1]
  unfold changeEntry
  cases h : (en.2.changeTlsContext secretId secret).1 <;> simp [h,Except.map]

lemma changeEntry_kept_iff :
    (changeEntry secretId secret en).2 = en ↔ Untouched secretId secret en.2 := by
  rw [← (changeTlsContext_iff en.2).2]
  exact ⟨fun h => congrArg Prod.snd h,fun h => Prod.ext rfl h⟩

lemma updateTlsContext_error_iff (c : CachedWatch (ClustersMap L C B)) :
    (∃ e, (updateTlsContext c secretId secret).1 = .error e) ↔
      ∃ e, (visit (changeEntry secretId secret) c.value).1 = .error e := by
  unfold updateTlsContext
  cases h : (visit (changeEntry secretId secret) c.value).1 <;> simp [h,Except.map]

/-- An update that fails leaves the clusters as they were if and only if no
cluster up to the first one that fails is touched by the secret. -/
theorem clusters_kept_on_error_iff (clustersMap : CachedWatch (ClustersMap L C B))
    (secretId : String) (secret : TransportSecret L) :
    ((∃ e, (updateTlsContext clustersMap secretId secret).1 = .error e) →
        (updateTlsContext clustersMap secretId secret).2.value = clustersMap.value) ↔
      ∀ front entry back, clustersMap.value = front ++ entry :: back →
        (∀ before ∈ front, ¬ Fails secretId secret before.2) → Fails secretId secret entry.2 →
          ∀ upTo ∈ front ++ [entry], Untouched secretId secret upTo.2 := by
  have hl := unchanged_on_error_iff (changeEntry secretId secret) clustersMap.value
  simp only [changeEntry_error_iff,changeEntry_kept_iff] at hl
  rw [updateTlsContext_error_iff]
  exact hl

open RoundRobin SecretUpdates TlsRotation

abbrev unnamedChannels : ChannelLibrary where
  Authority := ℕ
  ServerName := ℕ
  decEq := inferInstance
  sameAuthority a b := a == b
  parseAuthority _ := none
  withPort authority _ := .ok authority
  serverName authority := if authority = 80 then .error "invalid server name" else .ok authority
  client _ _ _ := .ok ()

abbrev Cluster := StaticCluster numberedLibrary unnamedChannels
  (WeightedRoundRobinBalancer (LbEndpoint numberedLibrary unnamedChannels))

def locality (authority : ℕ) : PartialLocalityLbEndpoints unnamedChannels :=
  { endpoints :=
      [{ authority, weight := 1, healthStatus := .healthy, weight_pos := Nat.one_pos
         weight_lt := TlsRotation.one_lt_weight_bound }]
    priority := 0
    endpoints_ne_nil := List.cons_ne_nil _ _ }

def cluster (authority : ℕ) : Except String Cluster :=
  StaticCluster.build (.inserted _) .standard [locality authority] false (.tls (clientOf 1)) (some 7)

/-- The second cluster cannot take the new certificate. The update fails and leaves
the first cluster with it. -/
theorem first_cluster_changed_on_error :
    ∃ first second : Cluster, cluster 81 = .ok first ∧ cluster 80 = .ok second ∧
      let updated := updateTlsContext ⟨[("a", .static first),("b", .static second)],0⟩ "leaf"
        (.certificate (leafSecret 2))
      updated.1 = .error "invalid server name" ∧
        ∃ first' second' : Cluster, updated.2.value = [("a", .static first'),("b", .static second')] ∧
          first.transportSocket = .tls (clientOf 1) ∧ first'.transportSocket = .tls (clientOf 2) ∧
              second'.transportSocket = .tls (clientOf 2) ∧
                (clientOf 1).config ≠ (clientOf 2).config := by
  refine ⟨_,_,rfl,rfl,?_⟩
  exact ⟨rfl,_,_,rfl,rfl,rfl,rfl,by simp⟩

end ArionGateway.ClusterTlsUpdates
