import ArionGateway.Executions
import Mathlib.Data.Finset.Basic
import Mathlib.Data.Finset.Lattice.Lemmas

/-!
# Subscriptions of the aggregated xDS client

On a stream the worker tells the server each change of its set of names, and only changes; what
was subscribed before a stream was opened is told by its initial requests. These go through a
fixed list of five resource types. A subscription to an extension type is not among them, so after
a reconnect the server does not know it, and a later subscription to the same name is taken for
one it knows. As long as no extension type has a subscription when a stream is opened, the server
has been told exactly the subscriptions.
-/
namespace ArionGateway.XdsSubscriptions
open Executions List

abbrev ResourceId := String
abbrev ResourceVersion := String

inductive TypeUrl where
  | listener
  | cluster
  | routeConfiguration
  | clusterLoadAssignment
  | secret
  | extension (url : String)
  deriving DecidableEq

def TypeUrl.display : TypeUrl → String
  | .listener => "type.googleapis.com/envoy.config.listener.v3.Listener"
  | .cluster => "type.googleapis.com/envoy.config.cluster.v3.Cluster"
  | .routeConfiguration => "type.googleapis.com/envoy.config.route.v3.RouteConfiguration"
  | .clusterLoadAssignment => "type.googleapis.com/envoy.config.endpoint.v3.ClusterLoadAssignment"
  | .secret => "type.googleapis.com/envoy.extensions.transport_sockets.tls.v3.Secret"
  | .extension url => url

def TypeUrl.from (url : String) : TypeUrl :=
  if url = "type.googleapis.com/envoy.config.listener.v3.Listener" then .listener
  else if url = "type.googleapis.com/envoy.config.cluster.v3.Cluster" then .cluster
  else if url = "type.googleapis.com/envoy.config.route.v3.RouteConfiguration" then
    .routeConfiguration
  else if url = "type.googleapis.com/envoy.config.endpoint.v3.ClusterLoadAssignment" then
    .clusterLoadAssignment
  else if url = "type.googleapis.com/envoy.extensions.transport_sockets.tls.v3.Secret" then .secret
  else .extension url

/-- The types that are the type of their own URL. -/
def TypeUrl.Canonical (t : TypeUrl) : Prop := TypeUrl.from t.display = t

instance (t : TypeUrl) : Decidable t.Canonical := inferInstanceAs (Decidable (_ = _))

variable {t : TypeUrl}

lemma TypeUrl.display_injective_of_canonical {u : TypeUrl} (ht : t.Canonical) (hu : u.Canonical)
    (h : t.display = u.display) : t = u := by
  rw [← ht,← hu,h]

structure DeltaDiscoveryRequest where
  typeUrl : String
  resourceNamesSubscribe : Finset ResourceId := ∅
  resourceNamesUnsubscribe : Finset ResourceId := ∅
  initialResourceVersions : ResourceId → Option ResourceVersion := fun _ => none

/-- The versions and the names of a type with no entry are empty, as `entry` and
`unwrap_or_default` have it. -/
structure DiscoveryClientState where
  tracked : TypeUrl → ResourceId → Option ResourceVersion := fun _ _ => none
  subscriptions : TypeUrl → Finset ResourceId := fun _ => ∅

inductive SubscriptionEvent where
  | subscribe (typeUrl : TypeUrl) (resourceId : ResourceId)
  | unsubscribe (typeUrl : TypeUrl) (resourceId : ResourceId)
  deriving DecidableEq

def SubscriptionEvent.typeUrl : SubscriptionEvent → TypeUrl
  | .subscribe t _ => t
  | .unsubscribe t _ => t

/-- The types of the initial requests of a client without a type of its own. -/
def initialTypes : List TypeUrl :=
  [.secret,.cluster,.clusterLoadAssignment,.listener,.routeConfiguration]

def buildInitialDiscoveryRequests (state : DiscoveryClientState) : List DeltaDiscoveryRequest :=
  initialTypes.map fun resourceType =>
    { typeUrl := resourceType.display
      resourceNamesSubscribe := state.subscriptions resourceType
      initialResourceVersions := state.tracked resourceType }

/-- `process_subscription_event`, with the request it sends. -/
def processSubscriptionEvent (state : DiscoveryClientState) :
    SubscriptionEvent → DiscoveryClientState × Option DeltaDiscoveryRequest
  | .subscribe t n =>
    let isNew := n ∉ state.subscriptions t
    ({ state with
        subscriptions := Function.update state.subscriptions t (insert n (state.subscriptions t)) },
      if isNew then some { typeUrl := t.display, resourceNamesSubscribe := {n} } else none)
  | .unsubscribe t n =>
    let wasSubscribed := n ∈ state.subscriptions t
    ({ state with
        subscriptions := Function.update state.subscriptions t ((state.subscriptions t).erase n) },
      if wasSubscribed then some { typeUrl := t.display, resourceNamesUnsubscribe := {n} }
      else none)

structure DeltaDiscoveryResponse where
  typeUrl : String
  resources : List (ResourceId × ResourceVersion) := []
  removedResources : List ResourceId := []

/-- What becomes of the resources of a response: they do not decode, they are
applied or some are rejected, or no answer or none in time comes back. -/
inductive UpdateOutcome where
  | undecodable
  | accepted
  | rejected
  | unanswered
  | timedOut
  deriving DecidableEq

/-- `process_discovery_response`. The acknowledgement names no resource. -/
def processDiscoveryResponse (state : DiscoveryClientState) (response : DeltaDiscoveryResponse)
    (outcome : UpdateOutcome) : DiscoveryClientState × Option DeltaDiscoveryRequest :=
  let typeUrl := TypeUrl.from response.typeUrl
  let kept := response.removedResources.foldl
    (fun versions id => Function.update versions id (none : Option ResourceVersion))
    (state.tracked typeUrl)
  let versions : ResourceId → Option ResourceVersion :=
    if outcome = .accepted then
      response.resources.foldl (fun versions r => Function.update versions r.1 (some r.2)) kept
    else kept
  ({ state with tracked := Function.update state.tracked typeUrl versions },
    if outcome = .unanswered then none else some { typeUrl := typeUrl.display })

/-- The names a server has been told on a stream, for each type URL. -/
abbrev Told := String → Finset ResourceId

def Told.receive (told : Told) (request : DeltaDiscoveryRequest) : Told :=
  Function.update told request.typeUrl
    ((told request.typeUrl ∪ request.resourceNamesSubscribe) \ request.resourceNamesUnsubscribe)

def Told.receiveAll (told : Told) (requests : List DeltaDiscoveryRequest) : Told :=
  requests.foldl Told.receive told

/-- No stream, a stream with what the server has been told on it, or a stream
that has failed and that the worker has not left yet. -/
inductive Stream where
  | absent
  | live (told : Told)
  | broken

def Stream.send (stream : Stream) (request : Option DeltaDiscoveryRequest) : Stream :=
  match stream with
  | .live told => .live (told.receiveAll request.toList)
  | other => other

structure Worker where
  state : DiscoveryClientState := {}
  stream : Stream := .absent

inductive Action where
  | connect
  | subscription (event : SubscriptionEvent)
  | response (response : DeltaDiscoveryResponse) (outcome : UpdateOutcome)
  | fail
  | leave

/-- `persistently_connect`: streams are opened one after the other, and events
wait while there is none. A send on a failed stream is lost. -/
inductive Step : Worker → Action → Worker → Prop
  | connect {w : Worker} (h : w.stream = .absent) :
      Step w .connect
        { state := w.state
          stream := .live
            (Told.receiveAll (fun _ => ∅) (buildInitialDiscoveryRequests w.state)) }
  | subscription {w : Worker} {event : SubscriptionEvent} (h : w.stream ≠ .absent) :
      Step w (.subscription event)
        { state := (processSubscriptionEvent w.state event).1
          stream := w.stream.send (processSubscriptionEvent w.state event).2 }
  | response {w : Worker} {response : DeltaDiscoveryResponse} {outcome : UpdateOutcome}
      (h : w.stream ≠ .absent) :
      Step w (.response response outcome)
        { state := (processDiscoveryResponse w.state response outcome).1
          stream := w.stream.send (processDiscoveryResponse w.state response outcome).2 }
  | fail {w : Worker} {told : Told} (h : w.stream = .live told) :
      Step w .fail { w with stream := .broken }
  | leave {w : Worker} (h : w.stream = .broken) :
      Step w .leave { w with stream := .absent }

lemma canonical_of_mem_initialTypes (h : t ∈ initialTypes) : t.Canonical := by
  simp only [initialTypes,mem_cons,not_mem_nil,or_false] at h
  rcases h with rfl | rfl | rfl | rfl | rfl <;> decide

open Told

lemma mem_receiveAll_initial (state : DiscoveryClientState) (told : Told) (ty : List TypeUrl)
    (url : String) (n : ResourceId) :
    n ∈ told.receiveAll (ty.map fun r =>
        { typeUrl := r.display
          resourceNamesSubscribe := state.subscriptions r
          initialResourceVersions := state.tracked r }) url ↔
      n ∈ told url ∨ ∃ t ∈ ty, t.display = url ∧ n ∈ state.subscriptions t := by
  induction ty generalizing told with
  | nil => simp [receiveAll]
  | cons t ty ih =>
    simp only [receiveAll,map_cons,foldl_cons] at ih ⊢
    rw [ih]
    by_cases h : t.display = url
    · subst h
      simp [receive,or_assoc]
    · simp [receive,h,Ne.symm h]

variable {state : DiscoveryClientState}

lemma mem_told_initial (ht : t.Canonical) {n : ResourceId} :
    n ∈ receiveAll (fun _ => ∅) (buildInitialDiscoveryRequests state) t.display ↔
      t ∈ initialTypes ∧ n ∈ state.subscriptions t := by
  rw [buildInitialDiscoveryRequests,mem_receiveAll_initial]
  constructor
  · rintro (h | ⟨u,hu,hd,hn⟩)
    · simp at h
    · obtain rfl := TypeUrl.display_injective_of_canonical (canonical_of_mem_initialTypes hu) ht hd
      exact ⟨hu,hn⟩
  · intro h
    exact .inr ⟨t,h.1,rfl,h.2⟩

def NoExtension (state : DiscoveryClientState) : Prop :=
  ∀ url, (TypeUrl.extension url).Canonical → state.subscriptions (.extension url) = ∅

/-- The server has been told exactly the subscriptions of every type. -/
def Agrees (told : Told) (state : DiscoveryClientState) : Prop :=
  ∀ t : TypeUrl, t.Canonical → told t.display = state.subscriptions t

lemma agrees_initial_iff (state : DiscoveryClientState) :
    Agrees (receiveAll (fun _ => ∅) (buildInitialDiscoveryRequests state)) state ↔
      NoExtension state := by
  constructor
  · intro h url hc
    rw [← h _ hc]
    ext n
    rw [mem_told_initial hc]
    simp [initialTypes]
  · intro h t ht
    ext n
    rw [mem_told_initial ht]
    cases t with
    | extension url => simp [h url ht]
    | _ => simp [initialTypes]

lemma agrees_processSubscriptionEvent {told : Told} {event : SubscriptionEvent}
    (hc : event.typeUrl.Canonical) (h : Agrees told state) :
    Agrees (told.receiveAll (processSubscriptionEvent state event).2.toList)
      (processSubscriptionEvent state event).1 := by
  intro u hu
  cases event with
  | subscribe t n | unsubscribe t n =>
    by_cases hn : n ∈ state.subscriptions t
    all_goals
      by_cases hut : u = t
      · subst hut
        simp [processSubscriptionEvent,hn,receiveAll,receive,h u hu,Finset.sdiff_singleton_eq_erase]
      · have hd : u.display ≠ t.display := fun hd =>
          hut (TypeUrl.display_injective_of_canonical hu hc hd)
        simp [processSubscriptionEvent,hn,receiveAll,receive,hut,hd,h u hu]

/-- Names are subscribed to under types that are types of their own, and a
stream is opened only while no extension type has a subscription. -/
def Resumable (w : Worker) : Action → Prop
  | .connect => NoExtension w.state
  | .subscription event => event.typeUrl.Canonical
  | _ => True

/-- On a stream the server has been told exactly the subscriptions. -/
def Synchronized (w : Worker) : Prop := ∀ told, w.stream = .live told → Agrees told w.state

lemma Step.synchronized {w w' : Worker} {a : Action} (hw : Synchronized w)
    (h : Guarded Resumable Step w a w') : Synchronized w' := by
  obtain ⟨hg,h⟩ := h
  intro told ht
  cases h with
  | connect =>
    cases ht
    exact (agrees_initial_iff w.state).mpr hg
  | subscription =>
    cases hs : w.stream with
    | live before =>
      rw [hs] at ht
      cases ht
      exact agrees_processSubscriptionEvent hg (hw before hs)
    | absent | broken => simp [Stream.send,hs] at ht
  | @response _ outcome =>
    cases hs : w.stream with
    | live before =>
      rw [hs] at ht
      cases ht
      intro t ht
      have ha := hw before hs t ht
      by_cases ho : outcome = .unanswered
      · simp [processDiscoveryResponse,ho,receiveAll,ha]
      · simp [processDiscoveryResponse,ho,receiveAll,receive,ha]
    | absent | broken => simp [Stream.send,hs] at ht
  | fail | leave => cases ht

def eventsOf (as : List Action) : List SubscriptionEvent :=
  as.filterMap fun
    | .subscription event => some event
    | _ => none

/-- A name was subscribed to and not unsubscribed from since. -/
def SubscribedSoFar (events : List SubscriptionEvent) (t : TypeUrl) (n : ResourceId) : Prop :=
  ∃ before after, events = before++.subscribe t n::after ∧ .unsubscribe t n ∉ after

lemma subscribedSoFar_cons (ev : SubscriptionEvent) (events : List SubscriptionEvent)
    (t : TypeUrl) (n : ResourceId) : SubscribedSoFar (ev::events) t n ↔
      SubscribedSoFar events t n ∨ ev = .subscribe t n ∧ .unsubscribe t n ∉ events := by
  constructor
  · rintro ⟨b,after,h,hn⟩
    cases b with
    | nil =>
      obtain ⟨rfl,rfl⟩ := cons.inj h
      exact .inr ⟨rfl,hn⟩
    | cons e b => exact .inl ⟨b,after,(cons.inj h).2,hn⟩
  · rintro (⟨b,after,rfl,hn⟩ | ⟨rfl,hn⟩)
    · exact ⟨ev::b,after,rfl,hn⟩
    · exact ⟨[],events,rfl,hn⟩

lemma mem_subscriptions_processSubscriptionEvent (s : DiscoveryClientState)
    (e : SubscriptionEvent) (t : TypeUrl) (n : ResourceId) :
    n ∈ (processSubscriptionEvent s e).1.subscriptions t ↔
      e = .subscribe t n ∨ n ∈ s.subscriptions t ∧ e ≠ .unsubscribe t n := by
  cases e with
  | subscribe u m =>
    by_cases h : t = u
    · subst h
      simp [processSubscriptionEvent,eq_comm]
    · simp [processSubscriptionEvent,h,Ne.symm h]
  | unsubscribe u m =>
    by_cases h : t = u
    · subst h
      simp [processSubscriptionEvent,eq_comm,and_comm]
    · simp [processSubscriptionEvent,h,Ne.symm h]

lemma mem_subscriptions_of_run {w w' : Worker} {as : List Action} (h : Run Step w as w')
    (t : TypeUrl) (n : ResourceId) :
    n ∈ w'.state.subscriptions t ↔ SubscribedSoFar (eventsOf as) t n ∨
        n ∈ w.state.subscriptions t ∧ .unsubscribe t n ∉ eventsOf as := by
  induction h with
  | nil => simp [eventsOf,SubscribedSoFar]
  | cons h _ ih =>
    rw [ih]
    cases h with
    | subscription =>
      simp only [eventsOf,filterMap_cons,subscribedSoFar_cons,mem_cons,
        mem_subscriptions_processSubscriptionEvent]
      tauto
    | connect => simp [eventsOf]
    | response => simp [eventsOf,processDiscoveryResponse]
    | fail | leave => simp [eventsOf]

lemma mem_subscriptions_iff {w : Worker} {as : List Action} (h : Run Step {} as w) (t : TypeUrl)
    (n : ResourceId) : n ∈ w.state.subscriptions t ↔ SubscribedSoFar (eventsOf as) t n := by
  rw [mem_subscriptions_of_run h]
  simp

/-- The initial requests of a stream tell, for every type, exactly the names
subscribed to so far if and only if none is of an extension type. In a run that
opens streams only then, the server has been told exactly these names on every
stream. -/
theorem told_subscriptions_iff_noExtension {w : Worker} {as : List Action} (h : Run Step {} as w) :
    ((∀ t : TypeUrl, t.Canonical → ∀ n,
        n ∈ Told.receiveAll (fun _ => ∅) (buildInitialDiscoveryRequests w.state) t.display ↔
          SubscribedSoFar (eventsOf as) t n) ↔ NoExtension w.state) ∧
      (Run (Guarded Resumable Step) {} as w → ∀ told, w.stream = .live told →
        ∀ t : TypeUrl, t.Canonical → told t.display = w.state.subscriptions t ∧
          ∀ n, n ∈ told t.display ↔ SubscribedSoFar (eventsOf as) t n) := by
  constructor
  · rw [← agrees_initial_iff]
    simp only [Agrees,Finset.ext_iff,mem_subscriptions_iff h]
  · intro hg told ht t hc
    have hs : Synchronized w :=
      hg.invariant Synchronized (fun _ _ _ => Step.synchronized) (by simp [Synchronized])
    have he := hs told ht t hc
    refine ⟨he,fun n => ?_⟩
    rw [he,mem_subscriptions_iff h]

def toolUrl : String := "type.googleapis.com/arion.extensions.filters.http.mcp.mcp_gateway.v3.Tool"

def reconnected : List Action :=
  [.connect,.subscription (.subscribe (.extension toolUrl) "*"),.fail,.leave,.connect,
    .subscription (.subscribe (.extension toolUrl) "*")]

theorem reconnected_not_told :
    ∃ w told, Run Step {} reconnected w ∧ w.stream = .live told ∧
      SubscribedSoFar (eventsOf reconnected) (.extension toolUrl) "*" ∧
      w.state.subscriptions (.extension toolUrl) = {"*"} ∧ told toolUrl = ∅ := by
  refine ⟨_,_,.cons (.connect rfl) (.cons (.subscription nofun) (.cons (.fail rfl)
    (.cons (.leave rfl) (.cons (.connect rfl) (.cons (.subscription nofun) (.nil _)))))),
    rfl,⟨[],_,rfl,?_⟩,?_,?_⟩
  · decide
  · decide
  · decide

/-- A cluster is subscribed to, the stream fails and the next one is told again. -/
theorem told_subscriptions_cluster :
    ∃ w told, Run (Guarded Resumable Step) {}
      [.connect, .subscription (.subscribe .cluster "a"), .fail, .leave, .connect] w ∧
      w.stream = .live told ∧ "a" ∈ told TypeUrl.cluster.display := by
  have hn : NoExtension {} := fun _ _ => rfl
  have hm : NoExtension (processSubscriptionEvent {} (.subscribe .cluster "a")).1 := fun _ _ => rfl
  have hc : TypeUrl.cluster.Canonical := by decide
  have hr : Run (Guarded Resumable Step) {}
      [.connect,.subscription (.subscribe .cluster "a"),.fail,.leave,.connect] _ :=
    .cons ⟨hn,.connect rfl⟩ (.cons ⟨hc,.subscription nofun⟩ (.cons ⟨trivial,.fail rfl⟩
      (.cons ⟨trivial,.leave rfl⟩ (.cons ⟨hm,.connect rfl⟩ (.nil _)))))
  have ht := (told_subscriptions_iff_noExtension (hr.mono fun _ _ _ h => h.2)).2 hr _ rfl .cluster hc
  exact ⟨_,_,hr,rfl,(ht.2 "a").mpr ⟨[],[],rfl,by decide⟩⟩

end ArionGateway.XdsSubscriptions
