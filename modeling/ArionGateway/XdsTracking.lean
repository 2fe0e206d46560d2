import ArionGateway.LastWrites
import ArionGateway.XdsSubscriptions

/-!
# Tracked versions of xDS resources

The worker first forgets the versions of the names that a response removes. If all resources can
be decoded it delivers them and then the removals to the configuration handler. Only if nothing
was rejected and the answer comes in time are the versions of the updates tracked. The removals of
a response with a resource that cannot be decoded are not delivered: these resources stay in force
and are tracked no more. The handler may decide on a batch after the worker has stopped waiting,
but takes the batches in order.
-/
namespace ArionGateway.XdsTracking
open LastWrites XdsSubscriptions List Function

variable {Body Payload : Type}

structure Resource (Body : Type) where
  name : ResourceId
  version : ResourceVersion
  resource : Body

structure DeltaDiscoveryResponse (Body : Type) where
  typeUrl : String
  resources : List (Resource Body) := []
  removedResources : List ResourceId := []
  nonce : String := ""

structure RejectedConfig where
  name : ResourceId
  reason : String
  deriving DecidableEq

def RejectedConfig.display (self : RejectedConfig) : String := s!"{self.name}: {self.reason}"

inductive XdsResourceUpdate (Payload : Type) where
  | update (id : ResourceId) (payload : Payload) (version : ResourceVersion)
  | remove (id : ResourceId) (typeUrl : TypeUrl)

def XdsResourceUpdate.id : XdsResourceUpdate Payload → ResourceId
  | .update id _ _ => id
  | .remove id _ => id

def XdsResourceUpdate.version : XdsResourceUpdate Payload → Option ResourceVersion
  | .update _ _ version => some version
  | .remove _ _ => none

inductive Code where
  | invalidArgument
  | unknown
  deriving DecidableEq

structure Status where
  code : Code
  message : String
  deriving DecidableEq

/-- The request that acknowledges a response or, with an error, rejects it. -/
structure Acknowledgement where
  typeUrl : TypeUrl
  nonce : String
  errorDetail : Option Status
  deriving DecidableEq

/-- When the answer of the handler comes, if at all. -/
inductive Answer where
  | inTime
  | dropped
  | late
  deriving DecidableEq

/-- What the handler does with a batch: the reason for which it rejects an
element, by its place, and when it answers. -/
structure HandlerBehaviour where
  rejects : ℕ → Option String
  answer : Answer

def processResourceIdsForRemoval (tracked : ResourceId → Option ResourceVersion)
    (removedResources : List ResourceId) : ResourceId → Option ResourceVersion :=
  removedResources.foldl (fun tracked id => Function.update tracked id none) tracked

def decodePendingUpdates (decode : TypeUrl → Body → Except String Payload)
    (resources : List (Resource Body)) (typeUrl : TypeUrl) :
    Except (List RejectedConfig) (List (XdsResourceUpdate Payload)) :=
  let decodingErrors := resources.filterMap fun resource =>
    match decode typeUrl resource.resource with
    | .ok _ => none
    | .error err => some
        { name := resource.name
          reason := s!"problem decoding config update for {resource.name} : error Some({err})" }
  let decodedUpdates := resources.filterMap fun resource =>
    match decode typeUrl resource.resource with
    | .ok value => some (.update resource.name value resource.version)
    | .error _ => none
  if decodingErrors.isEmpty then .ok decodedUpdates else .error decodingErrors

def extractUpdateVersions (updates : List (XdsResourceUpdate Payload)) :
    ResourceId → Option ResourceVersion :=
  updates.foldl (fun versions update =>
    match update with
    | .update id _ version => Function.update versions id (some version)
    | .remove _ _ => versions) fun _ => none

/-- `process_updates` of the handler, with the elements that it rejects. -/
def processUpdates (rejects : ℕ → Option String) (updates : List (XdsResourceUpdate Payload)) :
    List RejectedConfig :=
  updates.zipIdx.filterMap fun (update, i) =>
    (rejects i).map fun reason => { name := update.id, reason }

/-- The state after a response, the batch that was delivered and the request
that answers it. -/
structure Processed (Payload : Type) where
  state : DiscoveryClientState
  delivered : List (XdsResourceUpdate Payload)
  upstream : Option Acknowledgement

/-- `process_discovery_response`. The names in the message of a timeout come in
the order of a hash map, here in that of the updates. -/
def processDiscoveryResponse (decode : TypeUrl → Body → Except String Payload)
    (state : DiscoveryClientState) (response : DeltaDiscoveryResponse Body)
    (handler : HandlerBehaviour) : Processed Payload :=
  let typeUrl := TypeUrl.from response.typeUrl
  let kept := processResourceIdsForRemoval (state.tracked typeUrl) response.removedResources
  let withVersions (versions : ResourceId → Option ResourceVersion) : DiscoveryClientState :=
    { state with tracked := Function.update state.tracked typeUrl versions }
  let upstream (errorDetail : Option Status) : Acknowledgement :=
    { typeUrl, nonce := response.nonce, errorDetail }
  match decodePendingUpdates decode response.resources typeUrl with
  | .ok decodedUpdates =>
    let pendingUpdateVersions := extractUpdateVersions decodedUpdates
    let batchedUpdates := decodedUpdates++response.removedResources.map (.remove · typeUrl)
    match handler.answer with
    | .inTime =>
      let rejectedConfigs := processUpdates handler.rejects batchedUpdates
      if rejectedConfigs.isEmpty then
        { state := withVersions fun id => (pendingUpdateVersions id).or (kept id)
          delivered := batchedUpdates
          upstream := some (upstream none) }
      else
        let errorMsg := "; ".intercalate (rejectedConfigs.map RejectedConfig.display)
        { state := withVersions kept
          delivered := batchedUpdates
          upstream := some (upstream (some ⟨.invalidArgument,errorMsg⟩)) }
    | .dropped =>
      { state := withVersions kept, delivered := batchedUpdates, upstream := none }
    | .late =>
      let versionInfo := "; ".intercalate (decodedUpdates.map XdsResourceUpdate.id).dedup
      let errorMsg := s!"timed out trying to apply resource updates for [{versionInfo}]"
      { state := withVersions kept
        delivered := batchedUpdates
        upstream := some (upstream (some ⟨.unknown,errorMsg⟩)) }
  | .error decodingErrors =>
    let errorMsg := "; ".intercalate (decodingErrors.map RejectedConfig.display)
    { state := withVersions kept
      delivered := []
      upstream := some (upstream (some ⟨.invalidArgument,errorMsg⟩)) }

/-- A response with what the handler does with its batch. -/
structure Exchange (Body : Type) where
  response : DeltaDiscoveryResponse Body
  handler : HandlerBehaviour

def Exchange.typeUrl (x : Exchange Body) : TypeUrl := TypeUrl.from x.response.typeUrl

def processAll (decode : TypeUrl → Body → Except String Payload) (xs : List (Exchange Body)) :
    DiscoveryClientState :=
  xs.foldl (fun state x => (processDiscoveryResponse decode state x.response x.handler).state) {}

variable (decode : TypeUrl → Body → Except String Payload)

def Exchange.Decodes (x : Exchange Body) : Prop :=
  ∀ resource ∈ x.response.resources, ∃ value, decode x.typeUrl resource.resource = .ok value

def Exchange.delivered (x : Exchange Body) : List (XdsResourceUpdate Payload) :=
  (processDiscoveryResponse decode {} x.response x.handler).delivered

/-- A response is accepted as a whole: it can be decoded, the handler answers in
time and has rejected nothing. -/
def Exchange.Accepted (x : Exchange Body) : Prop :=
  x.Decodes decode ∧ x.handler.answer = .inTime ∧
    ∀ i < (x.delivered decode).length, x.handler.rejects i = none

/-- The last update of a resource in a batch has the version. -/
def LatestUpdate (updates : List (XdsResourceUpdate Payload)) (id : ResourceId)
    (version : ResourceVersion) : Prop :=
  ∃ before payload after, updates = before++.update id payload version::after ∧
    ∀ payload' version', .update id payload' version' ∉ after

def events (xs : List (Exchange Body)) : List (TypeUrl × XdsResourceUpdate Payload × Bool) :=
  xs.flatMap fun x => (x.delivered decode).zipIdx.map fun (update, i) =>
    (x.typeUrl, update, (x.handler.rejects i).isNone)

/-- The version of a resource that is in force in the proxy: that of the last
element for it that the handler has accepted, unless that is a removal. -/
def inForce (xs : List (Exchange Body)) (t : TypeUrl) (id : ResourceId) : Option ResourceVersion :=
  ((events decode xs).reverse.find? fun (typeUrl, update, accepted) =>
    decide (typeUrl = t) && decide (update.id = id) && accepted).bind fun e => e.2.1.version

open Exchange

variable {decode} {x : Exchange Body} {t : TypeUrl} {id : ResourceId}
  {updates : List (XdsResourceUpdate Payload)} {u : XdsResourceUpdate Payload}
  {version : ResourceVersion}

lemma processResourceIdsForRemoval_apply (tr : ResourceId → Option ResourceVersion)
    (r : List ResourceId) (id : ResourceId) :
    processResourceIdsForRemoval tr r id = (if id ∈ r then some none else none).getD (tr id) := by
  induction r generalizing tr with
  | nil => rfl
  | cons name r ih =>
    rw [processResourceIdsForRemoval,foldl_cons,← processResourceIdsForRemoval,ih]
    by_cases hid : id = name
    · by_cases hm : name ∈ r <;> simp [hid,hm]
    · simp [hid]

def XdsResourceUpdate.versionFor (id : ResourceId) :
    XdsResourceUpdate Payload → Option ResourceVersion
  | .update name _ version => if name = id then some version else none
  | .remove _ _ => none

open XdsResourceUpdate (versionFor)
lemma versionFor_eq_some_iff :
    u.versionFor id = some version ↔ ∃ payload, u = .update id payload version := by
  cases u with
  | update name payload version' =>
    rw [versionFor]
    simp
  | remove name typeUrl => simp [versionFor]

lemma extractUpdateVersions_apply (updates : List (XdsResourceUpdate Payload)) (id : ResourceId) :
    extractUpdateVersions updates id = last (versionFor id) updates := by
  refine (foldl_eq_last_or (f := versionFor id) (fun versions => versions id) ?_
    (fun _ => none) updates).trans Option.or_none
  intro versions u
  cases u with
  | update name payload version =>
    by_cases hn : name = id
    · simp [versionFor,hn]
    · simp [versionFor,hn,Ne.symm hn]
  | remove name typeUrl => rfl

lemma versionFor_eq_none_iff :
    u.versionFor id = none ↔ ∀ payload version, u ≠ .update id payload version := by
  rw [Option.eq_none_iff_forall_ne_some]
  simp only [ne_eq,versionFor_eq_some_iff,not_exists]
  exact forall_comm

lemma last_versionFor_eq_some_iff :
    last (versionFor id) updates = some version ↔ LatestUpdate updates id version := by
  rw [last_eq_some_iff]
  simp only [versionFor_eq_some_iff,versionFor_eq_none_iff]
  constructor
  · rintro ⟨before,_,after,hu,⟨payload,rfl⟩,ha⟩
    exact ⟨before,payload,after,hu,fun _ _ hm => ha _ hm _ _ rfl⟩
  · rintro ⟨before,payload,after,hu,ha⟩
    refine ⟨before,_,after,hu,⟨payload,rfl⟩,?_⟩
    rintro _ hm payload' version' rfl
    exact ha payload' version' hm

lemma last_versionFor_eq_none_iff : last (versionFor id) updates = none ↔
      ∀ payload version, .update id payload version ∉ updates := by
  rw [last_eq_none_iff]
  simp only [versionFor_eq_none_iff]
  constructor
  · intro h payload version hm
    exact h _ hm payload version rfl
  · rintro h _ hm payload version rfl
    exact h payload version hm

lemma last_versionFor_append_remove (updates : List (XdsResourceUpdate Payload))
    (r : List ResourceId) (t : TypeUrl) :
    last (versionFor id) (updates++r.map (.remove · t)) = last (versionFor id) updates := by
  have hn : last (versionFor id)
      (r.map fun name => (.remove name t : XdsResourceUpdate Payload)) = none := by
    rw [last_eq_none_iff,forall_mem_map]
    exact fun _ _ => rfl
  rw [last_append,hn,Option.none_or]

lemma decodes_iff_exists : x.Decodes decode ↔
      ∃ updates, decodePendingUpdates decode x.response.resources x.typeUrl = .ok updates := by
  rw [decodePendingUpdates]
  split_ifs with h
  · refine iff_of_true (fun resource hr => ?_) ⟨_,rfl⟩
    rw [List.isEmpty_iff,List.filterMap_eq_nil_iff] at h
    have hn := h resource hr
    cases hde : decode x.typeUrl resource.resource with
    | ok value => exact ⟨value,rfl⟩
    | error err => simp [hde] at hn
  · refine iff_of_false (fun hd => h ?_) nofun
    rw [List.isEmpty_iff,List.filterMap_eq_nil_iff]
    intro resource hr
    obtain ⟨value,hv⟩ := hd resource hr
    simp [hv]

lemma processUpdates_eq_nil_iff {r : ℕ → Option String} :
    processUpdates r updates = [] ↔ ∀ i < updates.length, r i = none := by
  rw [processUpdates,filterMap_eq_nil_iff]
  constructor
  · intro h i hi
    have hm : (updates[i], i) ∈ updates.zipIdx := mk_mem_zipIdx_iff_getElem?.mpr (by simp [hi])
    simpa using h _ hm
  · rintro h ⟨u,i⟩ hm
    rw [mk_mem_zipIdx_iff_getElem?] at hm
    simp [h i (List.getElem?_eq_some_iff.mp hm).1]

/-- A response that can be decoded: its batch is delivered, and its versions are
tracked if the whole batch is accepted in time. -/
lemma processDiscoveryResponse_of_ok
    (h : decodePendingUpdates decode x.response.resources x.typeUrl = .ok updates)
    (s : DiscoveryClientState) :
    (processDiscoveryResponse decode s x.response x.handler).delivered =
        updates++x.response.removedResources.map (.remove · x.typeUrl) ∧
      (processDiscoveryResponse decode s x.response x.handler).state.tracked =
        update s.tracked x.typeUrl fun id =>
          if x.handler.answer = .inTime ∧ processUpdates x.handler.rejects
              (updates++x.response.removedResources.map (.remove · x.typeUrl)) = [] then
            (extractUpdateVersions updates id).or (processResourceIdsForRemoval
              (s.tracked x.typeUrl) x.response.removedResources id)
          else processResourceIdsForRemoval (s.tracked x.typeUrl)
            x.response.removedResources id := by
  rw [typeUrl] at h
  rw [processDiscoveryResponse]
  simp only [h]
  cases ha : x.handler.answer with
  | inTime =>
    by_cases hn : processUpdates x.handler.rejects
        (updates++x.response.removedResources.map (.remove · x.typeUrl)) = []
    · rw [typeUrl] at hn
      simp [typeUrl,hn]
    · rw [typeUrl] at hn
      simp [typeUrl,hn]
  | dropped | late => simp [typeUrl]

lemma processDiscoveryResponse_of_error {errors : List RejectedConfig}
    (h : decodePendingUpdates decode x.response.resources x.typeUrl = .error errors)
    (s : DiscoveryClientState) :
    (processDiscoveryResponse decode s x.response x.handler).delivered = [] ∧
      (processDiscoveryResponse decode s x.response x.handler).state.tracked =
        update s.tracked x.typeUrl (processResourceIdsForRemoval
          (s.tracked x.typeUrl) x.response.removedResources) := by
  rw [typeUrl] at h
  rw [processDiscoveryResponse]
  simp only [h]
  exact ⟨trivial,rfl⟩

lemma delivered_of_decodes (h : x.Decodes decode) :
    ∃ updates, decodePendingUpdates decode x.response.resources x.typeUrl = .ok updates ∧
      x.delivered decode = updates++x.response.removedResources.map (.remove · x.typeUrl) := by
  obtain ⟨updates,hu⟩ := decodes_iff_exists.mp h
  exact ⟨updates,hu,(processDiscoveryResponse_of_ok hu {}).1⟩

lemma delivered_of_not_decodes (h : ¬ x.Decodes decode) :
    (∃ errors, decodePendingUpdates decode x.response.resources x.typeUrl = .error errors) ∧
      x.delivered decode = [] := by
  cases he : decodePendingUpdates decode x.response.resources x.typeUrl with
  | ok updates => exact absurd (decodes_iff_exists.mpr ⟨updates,he⟩) h
  | error errors => exact ⟨⟨errors,rfl⟩,(processDiscoveryResponse_of_error he {}).1⟩

lemma remove_mem_delivered_iff (hid : id ∈ x.response.removedResources) :
    .remove id x.typeUrl ∈ x.delivered decode ↔ x.Decodes decode := by
  by_cases h : x.Decodes decode
  · obtain ⟨updates,-,hd⟩ := delivered_of_decodes h
    refine iff_of_true ?_ h
    rw [hd]
    exact mem_append_right _ (mem_map.mpr ⟨id,hid,rfl⟩)
  · rw [(delivered_of_not_decodes h).2]
    exact iff_of_false not_mem_nil h

def Exchange.accepts (decode : TypeUrl → Body → Except String Payload) (x : Exchange Body) : Bool :=
  match decodePendingUpdates decode x.response.resources x.typeUrl with
  | .ok _ => decide (x.handler.answer = .inTime ∧
      (processUpdates x.handler.rejects (x.delivered decode)).isEmpty)
  | .error _ => false

lemma accepts_iff : x.accepts decode = true ↔ x.Accepted decode := by
  rw [accepts,Exchange.Accepted]
  by_cases h : x.Decodes decode
  · obtain ⟨updates,hu,-⟩ := delivered_of_decodes h
    simp [hu,h,processUpdates_eq_nil_iff]
  · obtain ⟨⟨errors,he⟩,-⟩ := delivered_of_not_decodes h
    simp [he,h]

def Exchange.writes (decode : TypeUrl → Body → Except String Payload) (t : TypeUrl)
    (id : ResourceId) (x : Exchange Body) : Option (Option ResourceVersion) :=
  if x.typeUrl = t then
    (if x.accepts decode then (last (XdsResourceUpdate.versionFor id) (x.delivered decode)).map some
      else none).or (if id ∈ x.response.removedResources then some none else none)
  else none

lemma writes_eq_some_some_iff {version : ResourceVersion} :
    x.writes decode t id = some (some version) ↔
      x.typeUrl = t ∧ x.Accepted decode ∧ LatestUpdate (x.delivered decode) id version := by
  rw [writes,← accepts_iff,← last_versionFor_eq_some_iff]
  by_cases ht : x.typeUrl = t
  · by_cases ha : x.accepts decode = true
    · simp [ha]
    · simp [ha]
  · simp [ht]

lemma writes_eq_none_iff :
    x.writes decode t id = none ↔ (x.typeUrl = t → id ∉ x.response.removedResources ∧
      (x.Accepted decode → ∀ payload version,
        .update id payload version ∉ x.delivered decode)) := by
  rw [writes,← accepts_iff,← last_versionFor_eq_none_iff]
  by_cases ht : x.typeUrl = t
  · by_cases ha : x.accepts decode = true
    · simp [and_comm]
    · simp [ha]
  · simp [ht]

lemma tracked_processDiscoveryResponse (s : DiscoveryClientState) (x : Exchange Body) :
    (processDiscoveryResponse decode s x.response x.handler).state.tracked t id =
      (x.writes decode t id).getD (s.tracked t id) := by
  by_cases ht : t = x.typeUrl
  · subst ht
    rw [writes,if_pos rfl]
    by_cases h : x.Decodes decode
    · obtain ⟨updates,hu,hd⟩ := delivered_of_decodes h
      have hv : last (versionFor id) (x.delivered decode) = extractUpdateVersions updates id := by
        rw [hd,last_versionFor_append_remove,extractUpdateVersions_apply]
      rw [(processDiscoveryResponse_of_ok hu s).2,update_self,hv,
        processResourceIdsForRemoval_apply,← hd]
      by_cases ha : x.handler.answer = .inTime ∧
          processUpdates x.handler.rejects (x.delivered decode) = []
      · have htr : x.accepts decode = true := by simp [accepts,hu,ha]
        rw [if_pos ha,if_pos htr]
        cases extractUpdateVersions updates id with
        | none | some version => rfl
      · have hf : ¬ x.accepts decode = true := by
          simpa [accepts,hu] using ha
        rw [if_neg ha,if_neg hf,Option.none_or]
    · obtain ⟨⟨errors,he⟩,-⟩ := delivered_of_not_decodes h
      have hf : ¬ x.accepts decode = true := by simp [accepts,he]
      rw [(processDiscoveryResponse_of_error he s).2,update_self,if_neg hf,
        Option.none_or,processResourceIdsForRemoval_apply]
  · rw [writes,if_neg (Ne.symm ht),Option.getD_none]
    by_cases h : x.Decodes decode
    · obtain ⟨updates,hu,-⟩ := delivered_of_decodes h
      rw [(processDiscoveryResponse_of_ok hu s).2,update_of_ne ht]
    · obtain ⟨⟨errors,he⟩,-⟩ := delivered_of_not_decodes h
      rw [(processDiscoveryResponse_of_error he s).2,update_of_ne ht]

lemma tracked_processAll (xs : List (Exchange Body)) :
    (processAll decode xs).tracked t id = (last (writes decode t id) xs).getD none :=
  foldl_eq_getD_last (fun state : DiscoveryClientState => state.tracked t id)
    tracked_processDiscoveryResponse {} xs

lemma events_of_not_decodes (h : ¬ x.Decodes decode) (xs : List (Exchange Body)) :
    events decode (xs++[x]) = events decode xs := by
  simp [events,(delivered_of_not_decodes h).2]

abbrev decodeFlag (_ : TypeUrl) (decodable : Bool) : Except String Unit :=
  if decodable then .ok () else .error "Decode"

abbrev clusterUpdate (version : ResourceVersion) (rejection : Option String) : Exchange Bool :=
  { response :=
      { typeUrl := TypeUrl.cluster.display, resources := [{ name := "a", version, resource := true }] }
    handler := { rejects := fun _ => rejection, answer := .inTime } }

abbrev undecodableRemoval : Exchange Bool :=
  { response :=
      { typeUrl := TypeUrl.cluster.display
        resources := [{ name := "b", version := "1", resource := false }]
        removedResources := ["a"] }
    handler := { rejects := fun _ => none, answer := .inTime } }

end ArionGateway.XdsTracking
