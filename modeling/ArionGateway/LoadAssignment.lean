import ArionGateway.PriorityBalancer

/-!
# Health updates of a cluster load assignment

`ClusterLoadAssignment::update_endpoint_health` calls the balancer once for every configured
endpoint of an authority. The balancer looks for an equal endpoint, endpoints are equal when their
authorities are, and the search ends at the first one: all these calls reach the same item.
Further endpoints of the authority keep the health they were configured with. The type `A` stands
for authorities up to case.
-/
namespace ArionGateway.LoadAssignment
open FirstMatch HealthRotation PriorityBalancer PriorityLoads List

section
variable {A B : Type} [DecidableEq A] [Balancer B (LbEndpoint A)]

inductive BalancerType (B A : Type) where
  | standard (balancer : DefaultBalancer B (LbEndpoint A))
  | overrideHost (endpoints : List (A × Bool)) (fallback : BalancerType B A)

variable (authority : A)

def setOverride (healthy : Bool) (endpoints : List (A × Bool)) : List (A × Bool) :=
  endpoints.map fun entry => if entry.1 = authority then (entry.1, healthy) else entry

/-- The outcome is missing when the source returns an error. -/
def BalancerType.updateHealth (endpoint : LbEndpoint A) (health : HealthStatus) :
    BalancerType B A → BalancerType B A × Option ValueUpdated
  | .standard balancer =>
    match balancer.updateHealth endpoint health with
    | some (balancer, outcome) => (.standard balancer, some outcome)
    | none => (.standard balancer, none)
  | .overrideHost endpoints fallback =>
    let (fallback, outcome) := fallback.updateHealth endpoint health
    (.overrideHost (setOverride endpoint.authority (decide (health = .healthy)) endpoints) fallback,
      outcome)

def BalancerType.nextItem (hash : Option ℕ) :
    BalancerType B A → Option (LbEndpoint A) × BalancerType B A
  | .standard balancer =>
    let (endpoint, balancer) := balancer.nextItem hash
    (endpoint, .standard balancer)
  | .overrideHost endpoints fallback =>
    let (endpoint, fallback) := fallback.nextItem hash
    (endpoint, .overrideHost endpoints fallback)

structure ClusterLoadAssignment (B A : Type) where
  balancer : BalancerType B A
  endpoints : List (LocalityLbEndpoints (LbEndpoint A))

variable (self : ClusterLoadAssignment B A)

def ClusterLoadAssignment.updateEndpointHealth (authority : A)
    (health : HealthStatus) : ClusterLoadAssignment B A :=
  { self with
    balancer := self.endpoints.foldl
      (fun balancer locality =>
        (locality.endpoints.filter fun endpoint => decide (endpoint.authority = authority)).foldl
          (fun balancer endpoint => (balancer.updateHealth endpoint health).1) balancer)
      self.balancer }

def ClusterLoadAssignment.nextItem (hash : Option ℕ) :
    Option (LbEndpoint A) × ClusterLoadAssignment B A :=
  let (endpoint, balancer) := self.balancer.nextItem hash
  (endpoint, { self with balancer })

/-- Whether the policy is a standard one or an override host with a standard
fallback; which standard one is the choice of `B`. -/
inductive LbPolicy where
  | standard
  | overrideHost
  deriving DecidableEq

/-- The map of an override-host balancer: one entry for each authority, from the
last endpoint that has it. -/
def overrideEndpoints (localities : List (LocalityLbEndpoints (LbEndpoint A))) : List (A × Bool) :=
  (localities.flatMap LocalityLbEndpoints.endpoints).foldl
    (fun entries endpoint =>
      entries.filter (fun entry => decide (entry.1 ≠ endpoint.authority)) ++
        [(endpoint.authority, decide (endpoint.healthStatus = .healthy))]) []

def ClusterLoadAssignment.build (order : HashOrder (Level B (LbEndpoint A))) (lbPolicy : LbPolicy)
    (endpoints : List (LocalityLbEndpoints (LbEndpoint A))) : ClusterLoadAssignment B A :=
  let balancer : BalancerType B A := .standard (.fromSlice order endpoints)
  match lbPolicy with
  | .standard => ⟨balancer,endpoints⟩
  | .overrideHost => ⟨.overrideHost (overrideEndpoints endpoints) balancer,endpoints⟩

inductive HealthCall (A : Type) where
  | updateEndpointHealth (authority : A) (health : HealthStatus)
  | nextItem (hash : Option ℕ)

def ClusterLoadAssignment.call : HealthCall A → ClusterLoadAssignment B A
  | .updateEndpointHealth authority health => self.updateEndpointHealth authority health
  | .nextItem hash => (self.nextItem hash).2

variable (calls : List (HealthCall A))

def ClusterLoadAssignment.run : ClusterLoadAssignment B A :=
  calls.foldl ClusterLoadAssignment.call self

def noteStatus (last : Option HealthStatus) : HealthCall A → Option HealthStatus
  | .updateEndpointHealth a health => if a = authority then some health else last
  | .nextItem _ => last

def lastStatus : Option HealthStatus :=
  calls.foldl (noteStatus authority) none

end

section
variable {A : Type} {items : List (HealthyItem (LbEndpoint A))} {authority : A}
  {x : HealthyItem (LbEndpoint A)} {health : HealthStatus}

def setHead (health : HealthStatus) :
    List (HealthyItem (LbEndpoint A)) → List (HealthyItem (LbEndpoint A))
  | [] => []
  | x::items => { x with health }::items

lemma forall_setHead_iff :
    (∀ x ∈ setHead health items, x.health = health) ↔ ∀ x ∈ items.tail, x.health = health := by
  cases items with
  | nil => rfl
  | cons x items => simp [setHead]

variable [DecidableEq A]

def setFirst (authority : A) (health : HealthStatus) :
    List (HealthyItem (LbEndpoint A)) → List (HealthyItem (LbEndpoint A))
  | [] => []
  | x::items =>
    if x.item.authority = authority then { x with health }::items
    else x::setFirst authority health items

/-- The items of an authority, the one that is found first in front. -/
def duplicates (authority : A) (items : List (HealthyItem (LbEndpoint A))) :
    List (HealthyItem (LbEndpoint A)) :=
  items.filter fun x => decide (x.item.authority = authority)

def settle (last : Option HealthStatus) (items : List (HealthyItem (LbEndpoint A))) :
    List (HealthyItem (LbEndpoint A)) :=
  match last with
  | some health => setHead health items
  | none => items

lemma mem_duplicates :
    x ∈ duplicates authority items ↔ x ∈ items ∧ x.item.authority = authority := by
  simp [duplicates]

lemma setFirst_of_forall_ne (h : ∀ x ∈ items, x.item.authority ≠ authority) :
    setFirst authority health items = items := by
  induction items with
  | nil => rfl
  | cons x items ih =>
    rw [setFirst,if_neg (h x (by simp)),ih fun y hy => h y (by simp [hy])]

lemma setFirst_append_cons (health : HealthStatus) {b : List (HealthyItem (LbEndpoint A))}
    (after : List (HealthyItem (LbEndpoint A))) (h : ∀ y ∈ b, y.item.authority ≠ authority)
    (hx : x.item.authority = authority) :
    setFirst authority health (b++x::after) = b++{ x with health }::after := by
  induction b with
  | nil => rw [nil_append,setFirst,if_pos hx,nil_append]
  | cons y b ih =>
    rw [cons_append,setFirst,if_neg (h y (by simp)),ih fun z hz => h z (by simp [hz]),
      cons_append]

lemma setFirst_setFirst (a : A) (health : HealthStatus)
    (items : List (HealthyItem (LbEndpoint A))) :
    setFirst a health (setFirst a health items) = setFirst a health items := by
  induction items with
  | nil => rfl
  | cons x items ih =>
    by_cases hx : x.item.authority = a
    · simp [setFirst,hx]
    · simp [setFirst,hx,ih]

lemma duplicates_setFirst (a : A) (health : HealthStatus) (i : List (HealthyItem (LbEndpoint A))) :
    duplicates a (setFirst a health i) = setHead health (duplicates a i) := by
  induction i with
  | nil => rfl
  | cons x i ih =>
    by_cases hx : x.item.authority = a
    · simp [setFirst,duplicates,hx,setHead]
    · simp only [duplicates] at ih
      simp [setFirst,duplicates,hx,ih]

lemma duplicates_setFirst_of_ne {o : A} (hne : o ≠ authority) (health : HealthStatus)
    (items : List (HealthyItem (LbEndpoint A))) :
    duplicates authority (setFirst o health items) = duplicates authority items := by
  induction items with
  | nil => rfl
  | cons x items ih =>
    simp only [duplicates] at ih
    by_cases hx : x.item.authority = o
    · simp [setFirst,duplicates,hx,hne]
    · by_cases hx' : x.item.authority = authority
      · simp [setFirst,duplicates,hx',hne.symm,ih]
      · simp [setFirst,duplicates,hx,hx',ih]

lemma settle_noteStatus (au : A) (l : Option HealthStatus) (c : HealthCall A)
    (items : List (HealthyItem (LbEndpoint A))) :
    settle (noteStatus au none c) (settle l items) = settle (noteStatus au l c) items := by
  cases c with
  | nextItem h => rfl
  | updateEndpointHealth a health =>
    rw [noteStatus,noteStatus]
    split_ifs
    · cases l with
      | none => rfl
      | some health' =>
        cases items with
        | nil | cons x items => rfl
    · rfl

end

variable {A B : Type} [Balancer B (LbEndpoint A)]

def allItems (b : DefaultBalancer B (LbEndpoint A)) : List (HealthyItem (LbEndpoint A)) :=
  b.priorities.flatMap fun l => l.2.balancer.items

lemma allItems_nextItem [LawfulBalancer B (LbEndpoint A)] (b : DefaultBalancer B (LbEndpoint A))
    (hash : Option ℕ) : allItems (b.nextItem hash).2 = allItems b := by
  have hd := map_of_levelData Prod.snd (nextItem_frame b hash).2.1
  exact congrArg flatten hd

def BalancerType.base : BalancerType B A → DefaultBalancer B (LbEndpoint A)
  | .standard balancer => balancer
  | .overrideHost _ fallback => fallback.base

lemma base_nextItem (t : BalancerType B A) (hash : Option ℕ) :
    (t.nextItem hash).1 = (t.base.nextItem hash).1 ∧
      (t.nextItem hash).2.base = (t.base.nextItem hash).2 := by
  induction t with
  | standard b => exact ⟨rfl,rfl⟩
  | overrideHost en f ih => exact ih

def ClusterLoadAssignment.items (self : ClusterLoadAssignment B A) :
    List (HealthyItem (LbEndpoint A)) :=
  allItems self.balancer.base

variable [DecidableEq A] {l : Level B (LbEndpoint A)} {e : LbEndpoint A} {health : HealthStatus}

lemma updateLevel_eq_none :
    updateLevel e health l = none ↔ ∀ x ∈ l.2.balancer.items, x.item.authority ≠ e.authority := by
  rw [updateLevel,Option.map_eq_none_iff,updateHealth_eq_none]
  refine forall₂_congr fun x _ => ?_
  change decide (e.authority = x.item.authority) = false ↔ _
  rw [decide_eq_false_iff_not]
  exact not_congr eq_comm

variable [LawfulBalancer B (LbEndpoint A)]

lemma updateLevel_items {l' : Level B (LbEndpoint A)}
    {o : ValueUpdated} (h : updateLevel e health l = some (l', o)) :
    ∃ be x after, l.2.balancer.items = be++x::after ∧ (∀ y ∈ be, y.item.authority ≠ e.authority) ∧
      x.item.authority = e.authority ∧ l'.2.balancer.items = be++{ x with health }::after := by
  rw [updateLevel,Option.map_eq_some_iff] at h
  obtain ⟨⟨b,u⟩,hup,hl⟩ := h
  obtain ⟨be,x,after,hi,hb,hx,hn,-⟩ := updateHealth_eq_some hup
  refine ⟨be,x,after,hi,?_,(of_decide_eq_true hx).symm,?_⟩
  · exact fun y hy heq => of_decide_eq_false (hb y hy) heq.symm
  · cases u with
    | notUpdated | updated => rw [← (Prod.mk.inj hl).1,← hn]

lemma allItems_updateHealth (b : DefaultBalancer B (LbEndpoint A)) (e : LbEndpoint A)
    (health : HealthStatus) :
    allItems (b.call (.updateHealth e health)) = setFirst e.authority health (allItems b) := by
  rcases call_updateHealth b e health with ⟨hv,hc⟩ | ⟨o,hv⟩
  · rw [hc]
    refine (setFirst_of_forall_ne ?_).symm
    intro x hx
    obtain ⟨l,hl,hx⟩ := mem_flatMap.mp hx
    exact updateLevel_eq_none.mp (visitFirst_eq_none_iff.mp hv l hl) x hx
  · obtain ⟨be,l,l',after,hli,hb,hl,hl'⟩ := visitFirst_eq_some hv
    obtain ⟨pre,x,post,hi,hp,hx,hn⟩ := updateLevel_items hl
    have hno : ∀ y ∈ (be.flatMap fun l => l.2.balancer.items)++pre,
        y.item.authority ≠ e.authority := by
      intro y hy
      rcases mem_append.mp hy with hy | hy
      · obtain ⟨m,hm,hy⟩ := mem_flatMap.mp hy
        exact updateLevel_eq_none.mp (hb m hm) y hy
      · exact hp y hy
    have hse := setFirst_append_cons health (post++after.flatMap fun l => l.2.balancer.items) hno hx
    rw [allItems,allItems,hli,hl']
    simpa [hi,hn] using hse.symm

variable {A B : Type} [DecidableEq A] [Balancer B (LbEndpoint A)] {self : ClusterLoadAssignment B A}

lemma base_updateHealth (t : BalancerType B A) (e : LbEndpoint A) (health : HealthStatus) :
    (t.updateHealth e health).1.base = t.base.call (.updateHealth e health) := by
  induction t with
  | standard b =>
    rw [BalancerType.updateHealth,BalancerType.base,DefaultBalancer.call]
    cases b.updateHealth e health with
    | none | some r => rfl
  | overrideHost en f ih => exact ih

def ClusterLoadAssignment.endpointsOf (self : ClusterLoadAssignment B A) (authority : A) :
    List (LbEndpoint A) :=
  self.endpoints.flatMap fun locality =>
    locality.endpoints.filter fun endpoint => decide (endpoint.authority = authority)

variable (s : ClusterLoadAssignment B A)

lemma updateEndpointHealth_eq (a : A) (health : HealthStatus) :
    (s.updateEndpointHealth a health).balancer = (s.endpointsOf a).foldl
      (fun b en => (b.updateHealth en health).1) s.balancer := by
  rw [ClusterLoadAssignment.endpointsOf,foldl_flatMap]
  rfl

lemma call_endpoints (c : HealthCall A) : (s.call c).endpoints = s.endpoints := by
  cases c with
  | updateEndpointHealth authority health | nextItem h => rfl

variable [LawfulBalancer B (LbEndpoint A)]

lemma items_updateAll (a : A) (health : HealthStatus) (en : List (LbEndpoint A))
    (ha : ∀ e ∈ en, e.authority = a) (t : BalancerType B A) :
    allItems (en.foldl (fun t e => (t.updateHealth e health).1) t).base =
      if en = [] then allItems t.base else setFirst a health (allItems t.base) := by
  induction en generalizing t with
  | nil => rfl
  | cons e en ih =>
    rw [foldl_cons,ih (fun f hf => ha f (by simp [hf])),base_updateHealth,
      allItems_updateHealth,ha e (by simp),setFirst_setFirst,ite_self,if_neg (by simp)]

/-- What a run keeps: the invariant of the balancer, the configuration, and no
item of an authority that is not configured. -/
structure ClusterLoadAssignment.Inv (cla : ClusterLoadAssignment B A) : Prop where
  base : cla.balancer.base.Inv
  known : ∀ authority, cla.endpointsOf authority = [] → duplicates authority cla.items = []

open ClusterLoadAssignment (endpointsOf run build items)

lemma duplicates_call (h : self.Inv) (au : A) (c : HealthCall A) :
    duplicates au (self.call c).items =
      settle (noteStatus au none c) (duplicates au self.items) := by
  cases c with
  | nextItem hs =>
    have hb := (base_nextItem self.balancer hs).2
    change duplicates au (allItems (self.balancer.nextItem hs).2.base) = _
    rw [hb,allItems_nextItem]
    rfl
  | updateEndpointHealth a health =>
    have ha : ∀ e ∈ self.endpointsOf a, e.authority = a := by
      intro e he
      obtain ⟨l,-,he⟩ := mem_flatMap.mp he
      exact of_decide_eq_true (mem_filter.mp he).2
    change duplicates au (allItems (self.updateEndpointHealth a health).balancer.base) = _
    rw [updateEndpointHealth_eq,items_updateAll a health _ ha,noteStatus]
    split_ifs with hn heq heq
    · subst heq
      have hd := h.known a hn
      rw [hd]
      exact hd
    · rfl
    · subst heq
      exact duplicates_setFirst ..
    · exact duplicates_setFirst_of_ne heq ..

lemma inv_call (h : self.Inv) (c : HealthCall A) : (self.call c).Inv := by
  constructor
  · cases c with
    | nextItem ha =>
      change (self.balancer.nextItem ha).2.base.Inv
      rw [(base_nextItem self.balancer ha).2]
      exact nextItem_inv h.base ha
    | updateEndpointHealth a health =>
      change (self.updateEndpointHealth a health).balancer.base.Inv
      rw [updateEndpointHealth_eq]
      refine foldlRecOn (motive := fun t : BalancerType B A => t.base.Inv) _ _ h.base fun t ht e _ => ?_
      rw [base_updateHealth]
      exact call_inv ht _
  · intro authority hn
    rw [endpointsOf,call_endpoints] at hn
    have hd := h.known authority hn
    rw [duplicates_call h,hd]
    cases noteStatus authority none c with
    | none | some health => rfl

/-- After a run, the first item of an authority has the health of the last call
and the others have the health they started with. -/
lemma run_spec (h : self.Inv) (a : A) (ca : List (HealthCall A)) :
    (self.run ca).Inv ∧ duplicates a (self.run ca).items =
        settle (lastStatus a ca) (duplicates a self.items) := by
  induction ca using reverseRecOn with
  | nil => exact ⟨h,rfl⟩
  | append_singleton ca c ih =>
    obtain ⟨hi,hd⟩ := ih
    have hr : self.run (ca++[c]) = (self.run ca).call c := by
      rw [run,foldl_append]
      rfl
    have hl : lastStatus a (ca++[c]) = noteStatus a (lastStatus a ca) c := by
      rw [lastStatus,foldl_append]
      rfl
    rw [hr,hl,duplicates_call hi,hd,settle_noteStatus]
    exact ⟨inv_call hi c,rfl⟩

lemma inv_build (o : HashOrder (Level B (LbEndpoint A)))
    (lp : LbPolicy) (localities : List (LocalityLbEndpoints (LbEndpoint A))) :
    (build o lp localities).Inv := by
  have hb : (build o lp localities).balancer.base = .fromSlice o localities := by
    cases lp with
    | standard | overrideHost => rfl
  have hed : (build o lp localities).endpoints = localities := by
    cases lp with
    | standard | overrideHost => rfl
  refine ⟨by rw [hb]; exact fromSlice_inv o localities,?_⟩
  intro authority hn
  rw [duplicates,filter_eq_nil_iff]
  intro x hx heq
  rw [items,hb] at hx
  obtain ⟨l,hl,hx⟩ := mem_flatMap.mp hx
  have hl' := (o.perm (localities.foldl addLocality [])).subset hl
  rw [(collected_foldl (B := B) localities).items l hl'] at hx
  obtain ⟨e,he,rfl⟩ := mem_map.mp hx
  obtain ⟨lo,hlo,he⟩ := mem_flatMap.mp he
  have hm : e ∈ (build o lp localities).endpointsOf authority := by
    rw [endpointsOf,hed]
    exact mem_flatMap.mpr ⟨lo,(mem_filter.mp hlo).1,mem_filter.mpr ⟨he,heq⟩⟩
  rw [hn] at hm
  cases hm

/-- The last status given to an authority is respected: it is the health of all
its items, and when it is unhealthy no answer has that authority. Items are in
the rotation of their level when they are healthy. -/
def ClusterLoadAssignment.Respects (self : ClusterLoadAssignment B A) (authority : A)
    (health : HealthStatus) : Prop :=
  (∀ x ∈ self.items, x.item.authority = authority → x.health = health) ∧
    (health = .unhealthy → ∀ hash e, (self.nextItem hash).1 = some e → e.authority ≠ authority)

open RoundRobin

def twinLocalities : List (LocalityLbEndpoints (LbEndpoint ℕ)) :=
  [⟨0,[endpoint 0 .healthy,endpoint 0 .healthy],by decide,by decide,by decide⟩]

def twinAssignment : ClusterLoadAssignment (WeightedRoundRobinBalancer (LbEndpoint ℕ)) ℕ :=
  .build (.inserted _) .standard twinLocalities

end ArionGateway.LoadAssignment
