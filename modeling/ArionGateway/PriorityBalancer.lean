import ArionGateway.HealthRotation
import ArionGateway.PriorityLoads

/-!
# Balancing over priority levels

`DefaultBalancer` keeps one `HealthyBalancer` for each priority with the numbers of its healthy
and of all its endpoints, and chooses the level of every request by a weighted round robin whose
weights are the priority loads. A health update is given to the first level that knows the
endpoint, in an arbitrary but fixed order of the hash map.

Counters are 32-bit and wrap; modulo that, they count the items of their level along every run.
Requests find a healthy endpoint exactly when the loads reach one. A level whose total is 0 modulo
2³² would make the source panic in a division; here its percentage is 0.
-/
namespace ArionGateway.PriorityBalancer
open FirstMatch HealthRotation PriorityLoads RoundRobin LawfulBalancer
open List
open Prod (fst mk)

section
variable {B E : Type}

def healthyCount [EndpointHealth E] (endpoints : List E) : ℕ :=
  endpoints.countP fun e => decide (EndpointHealth.health e = .healthy)

/-- A locality as its builder lets it through: the counts fit in 32 bits, also
after multiplication by 100. -/
structure LocalityLbEndpoints (E : Type) [EndpointHealth E] where
  priority : ℕ
  endpoints : List E
  endpoints_ne_nil : endpoints ≠ []
  total_lt : endpoints.length < 2^32
  healthy_le : healthyCount endpoints ≤ (2^32 - 1) / 100

abbrev Level (B E : Type) := ℕ × PriorityInfo (HealthyBalancer B E)

abbrev Levels (B E : Type) := List (Level B E)

/-- The order in which a hash map is iterated. -/
structure HashOrder (V : Type) where
  arrange : List V → List V
  perm : ∀ l, (arrange l).Perm l

def HashOrder.inserted (V : Type) : HashOrder V := ⟨id,fun _ => .refl _⟩

structure DefaultBalancer (B E : Type) where
  priorityLevelLb : WeightedRoundRobinBalancer ℕ
  priorities : Levels B E

def recalculatePriorityLoadFactors (priorities : Levels B E) : WeightedRoundRobinBalancer ℕ :=
  .new ((calculatePriorityLoads priorities).map fun f => LbItem.new f.2 f.1)

variable [Balancer B E]

/-- The body of the loop of `update_health` for the level that knows the
endpoint. -/
def updateLevel [BEq E] (id : E) (health : HealthStatus) (level : Level B E) :
    Option ((Level B E) × ValueUpdated) :=
  let (k, priorityInfo) := level
  (priorityInfo.balancer.updateHealth id health).map fun (balancer, outcome) =>
    match outcome with
    | .notUpdated => ((k, { priorityInfo with balancer }), .notUpdated)
    | .updated =>
      let healthy :=
        if health = .healthy then (priorityInfo.healthy+1) % 2^32
        else (priorityInfo.healthy+(2^32 - 1)) % 2^32
      ((k, { priorityInfo with balancer, healthy }), .updated)

/-- Without a level that knows the endpoint the source returns an error. -/
def DefaultBalancer.updateHealth [BEq E] (self : DefaultBalancer B E) (id : E)
    (health : HealthStatus) : Option (DefaultBalancer B E × ValueUpdated) :=
  (visitFirst (updateLevel id health) self.priorities).map fun (priorities, outcome) =>
    match outcome with
    | .notUpdated => ({ self with priorities }, .notUpdated)
    | .updated => (⟨recalculatePriorityLoadFactors priorities,priorities⟩, .updated)

/-- `get_mut(&priority)` and the inner `next_item`. -/
def nextOfLevel (priority : ℕ) (hash : Option ℕ) (level : Level B E) :
    Option ((Level B E) × Option E) :=
  if level.1 = priority then
    let (endpoint, balancer) := level.2.balancer.nextItem hash
    some ((level.1, { level.2 with balancer }), endpoint)
  else none

def DefaultBalancer.nextItem (self : DefaultBalancer B E) (hash : Option ℕ) :
    Option E × DefaultBalancer B E :=
  let (chosen, priorityLevelLb) := self.priorityLevelLb.nextItem
  match chosen with
  | none => (none, { self with priorityLevelLb })
  | some priority =>
    match visitFirst (nextOfLevel priority hash) self.priorities with
    | none => (none, { self with priorityLevelLb })
    | some (priorities, endpoint) => (endpoint, ⟨priorityLevelLb,priorities⟩)

variable [EndpointHealth E]

/-- The `and_modify` branch for one locality. -/
def extendLevel (locality : LocalityLbEndpoints E) (level : Level B E) :
    Option ((Level B E) × Unit) :=
  if level.1 = locality.priority then
    some ((level.1,
      { balancer := level.2.balancer.extend locality.endpoints
        healthy := (level.2.healthy+healthyCount locality.endpoints) % 2^32
        total := (level.2.total+locality.endpoints.length) % 2^32 }), ())
  else none

/-- `entry(priority).and_modify(..).or_insert(..)` for one locality. -/
def addLocality (priorities : Levels B E) (locality : LocalityLbEndpoints E) : Levels B E :=
  match visitFirst (extendLevel locality) priorities with
  | some (priorities, _) => priorities
  | none =>
    priorities++[(locality.priority,
      { balancer := .fromIter locality.endpoints
        healthy := healthyCount locality.endpoints
        total := locality.endpoints.length })]

def DefaultBalancer.fromSlice (order : HashOrder (Level B E))
    (endpoints : List (LocalityLbEndpoints E)) : DefaultBalancer B E :=
  let priorities := order.arrange (endpoints.foldl addLocality [])
  ⟨recalculatePriorityLoadFactors priorities,priorities⟩

end

variable {B E : Type}

def healthyItems (items : List (HealthyItem E)) : ℕ :=
  items.countP fun x => decide (x.health = .healthy)

lemma healthyItems_append_cons (be : List (HealthyItem E)) (x : HealthyItem E)
    (after : List (HealthyItem E)) : healthyItems (be++x::after) = healthyItems be +
      (if x.health = .healthy then 1 else 0)+healthyItems after := by
  simp only [healthyItems,countP_append,countP_cons,decide_eq_true_eq]
  omega

/-- A level without what an answer can change. -/
def levelData (level : Level B E) : (ℕ × ℕ × ℕ) × List (HealthyItem E) :=
  (counters level, level.2.balancer.items)

variable [Balancer B E]

lemma nextOfLevel_data {pr : ℕ} {hash : Option ℕ} {level l' : Level B E} {a : Option E}
    (h : nextOfLevel pr hash level = some (l', a)) :
    level.1 = pr ∧ a = (level.2.balancer.nextItem hash).1 ∧ levelData l' = levelData level := by
  rw [nextOfLevel] at h
  split_ifs at h with hk
  cases h
  exact ⟨hk,rfl,rfl⟩

variable [LawfulBalancer B E]

/-- The counters of a level count its items, modulo their width. -/
structure LevelInv (info : PriorityInfo (HealthyBalancer B E)) : Prop where
  healthy_eq : info.healthy = healthyItems info.balancer.items % 2^32
  total_eq : info.total = info.balancer.items.length % 2^32
  loaded : info.balancer.Loaded

lemma updateLevel_inv [BEq E] {id : E} {health : HealthStatus}
    {lv l' : Level B E} {o : ValueUpdated}
    (h : updateLevel id health lv = some (l', o)) (hin : LevelInv lv.2) :
    l'.1 = lv.1 ∧ LevelInv l'.2 ∧ (o = .notUpdated → l'.2.healthy = lv.2.healthy) ∧
      l'.2.total = lv.2.total := by
  obtain ⟨k,i⟩ := lv
  rw [updateLevel,Option.map_eq_some_iff] at h
  obtain ⟨⟨ba,u⟩,hup,hlv⟩ := h
  obtain ⟨be,x,after,hi,-,-,hn,hsa,hl⟩ := updateHealth_eq_some hup
  have ht : i.total = ba.items.length % 2^32 := by
    rw [hin.total_eq,hn,hi]
    simp
  have hh := hin.healthy_eq
  have hc : healthyItems i.balancer.items = healthyItems be +
      (if x.health = .healthy then 1 else 0)+healthyItems after := by
    rw [hi,healthyItems_append_cons]
  have hc' : healthyItems ba.items = healthyItems be +
      (if health = .healthy then 1 else 0)+healthyItems after := by
    rw [hn,healthyItems_append_cons]
  cases u with
  | notUpdated =>
    cases hlv
    have hx : x.health = health := hsa.mp rfl
    rw [hx,← hc'] at hc
    exact ⟨rfl,⟨hh.trans (by rw [hc]),ht,hl hin.loaded⟩,fun _ => rfl,rfl⟩
  | updated =>
    cases hlv
    have hx : x.health ≠ health := fun heq => by simpa using hsa.mpr heq
    refine ⟨rfl,⟨?_,ht,hl hin.loaded⟩,by simp,rfl⟩
    dsimp only at hh ⊢
    cases health with
    | healthy =>
      rw [if_neg hx] at hc
      rw [if_pos rfl] at hc'
      rw [if_pos rfl]
      omega
    | unhealthy =>
      have hx' : x.health = .healthy := by
        cases hxh : x.health with
        | healthy => rfl
        | unhealthy => exact absurd hxh hx
      rw [if_pos hx'] at hc
      rw [if_neg nofun] at hc' ⊢
      omega

variable {E : Type} [EndpointHealth E]

/-- The endpoints configured for a priority, over all localities. -/
def levelEndpoints (localities : List (LocalityLbEndpoints E)) (priority : ℕ) : List E :=
  (localities.filter fun l => decide (l.priority = priority)).flatMap
    LocalityLbEndpoints.endpoints

def configured (endpoints : List E) : List (HealthyItem E) :=
  endpoints.map fun e => ⟨e,EndpointHealth.health e⟩

lemma healthyItems_configured (endpoints : List E) :
    healthyItems (configured endpoints) = healthyCount endpoints := by
  rw [healthyItems,configured,countP_map]
  rfl

lemma levelEndpoints_concat (lo : List (LocalityLbEndpoints E))
    (x : LocalityLbEndpoints E) (k : ℕ) : levelEndpoints (lo++[x]) k =
      levelEndpoints lo k++if x.priority = k then x.endpoints else [] := by
  by_cases h : x.priority = k <;> simp [levelEndpoints,h]

variable {B E : Type} [Balancer B E] [LawfulBalancer B E] [EndpointHealth E]
  {localities : List (LocalityLbEndpoints E)} {x : LocalityLbEndpoints E} {levels : Levels B E}

/-- What the loop over the localities has collected: one level for each
priority, with exactly the endpoints of that priority. -/
structure Collected (localities : List (LocalityLbEndpoints E)) (levels : Levels B E) : Prop where
  keys : (levels.map Prod.fst).Nodup
  covers : ∀ l ∈ localities, l.priority ∈ levels.map Prod.fst
  items : ∀ l ∈ levels, l.2.balancer.items = configured (levelEndpoints localities l.1)
  inv : ∀ l ∈ levels, LevelInv l.2

lemma extendLevel_spec {lv l' : Level B E} {u : Unit}
    (h : extendLevel x lv = some (l', u)) (hin : LevelInv lv.2)
    (hi : lv.2.balancer.items = configured (levelEndpoints localities lv.1)) :
    lv.1 = x.priority ∧ l'.1 = lv.1 ∧ LevelInv l'.2 ∧
      l'.2.balancer.items = configured (levelEndpoints (localities++[x]) lv.1) := by
  rw [extendLevel] at h
  split_ifs at h with hk
  cases h
  have hn : (lv.2.balancer.extend x.endpoints).items =
      lv.2.balancer.items++configured x.endpoints := rfl
  refine ⟨hk,rfl,⟨?_,?_,loaded_reload _⟩,?_⟩
  · rw [hn,healthyItems,countP_append]
    change _ = (healthyItems _+healthyItems _) % 2^32
    rw [healthyItems_configured,hin.healthy_eq,Nat.mod_add_mod]
  · rw [hn,length_append,configured,length_map,hin.total_eq,Nat.mod_add_mod]
  · rw [hn,hi,levelEndpoints_concat,if_pos hk.symm,configured,configured,configured,map_append]

lemma fromIter_inv (x : LocalityLbEndpoints E) :
    LevelInv (B := B)
      { balancer := .fromIter x.endpoints
        healthy := healthyCount x.endpoints
        total := x.endpoints.length } := by
  have hn : (HealthyBalancer.fromIter x.endpoints : HealthyBalancer B E).items =
      configured x.endpoints := rfl
  have hle : healthyCount x.endpoints ≤ x.endpoints.length := countP_le_length
  have hlt := x.total_lt
  refine ⟨?_,?_,loaded_reload _⟩
  · rw [hn,healthyItems_configured,Nat.mod_eq_of_lt (by omega)]
  · rw [hn,configured,length_map,Nat.mod_eq_of_lt hlt]

lemma Collected.items_other (h : Collected localities levels)
    {l : Level B E} (hl : l ∈ levels) (hne : l.1 ≠ x.priority) :
    l.2.balancer.items = configured (levelEndpoints (localities++[x]) l.1) := by
  rw [levelEndpoints_concat,if_neg hne.symm,append_nil]
  exact h.items l hl

lemma Collected.extended {be after : Levels B E} {a a' : Level B E} {u : Unit}
    (h : Collected localities (be++a::after)) (ha : extendLevel x a = some (a', u)) :
    Collected (localities++[x]) (be++a'::after) := by
  obtain ⟨hky,hk,hin,hi⟩ := extendLevel_spec ha (h.inv a (by simp)) (h.items a (by simp))
  have hke : (be++a'::after).map fst = (be++a::after).map fst := by
    simp [hk]
  have hn := h.keys
  rw [map_append,map_cons,nodup_middle,nodup_cons] at hn
  have he : ∀ l ∈ be++a'::after,
      LevelInv l.2 ∧ l.2.balancer.items = configured (levelEndpoints (localities++[x]) l.1) := by
    intro l hl
    rcases mem_cons.mp (perm_middle.subset hl) with rfl | hl
    · exact ⟨hin,hk ▸ hi⟩
    · have hm := ((sublist_cons_self a after).append_left be).subset hl
      refine ⟨h.inv l hm,h.items_other hm fun heq => hn.1 ?_⟩
      rw [hky,← heq,← map_append]
      exact mem_map.mpr ⟨l,hl,rfl⟩
  refine ⟨by rw [hke]; exact h.keys,?_,fun l hl => (he l hl).2,fun l hl => (he l hl).1⟩
  intro l hl
  rw [hke]
  rcases mem_append.mp hl with hl | hl
  · exact h.covers l hl
  · rw [mem_singleton.mp hl,← hky]
    simp

section

variable (h : Collected localities levels)
include h

lemma Collected.levelEndpoints_nil {k : ℕ} (hne : ∀ l ∈ levels, l.1 ≠ k) :
    levelEndpoints localities k = [] := by
  rw [levelEndpoints,flatMap_eq_nil_iff]
  intro l hl
  obtain ⟨hl,heq⟩ := mem_filter.mp hl
  obtain ⟨m,hm,hmk⟩ := mem_map.mp (h.covers l hl)
  exact absurd (hmk.trans (of_decide_eq_true heq)) (hne m hm)

lemma Collected.opened (hne : ∀ l ∈ levels, l.1 ≠ x.priority) :
    Collected (localities++[x])
      (levels++[(x.priority,
        { balancer := .fromIter x.endpoints
          healthy := healthyCount x.endpoints
          total := x.endpoints.length })]) := by
  refine ⟨?_,?_,?_,?_⟩
  · rw [map_append,nodup_append]
    refine ⟨h.keys,by simp,?_⟩
    intro k hk k' hk'
    obtain ⟨m,hm,rfl⟩ := mem_map.mp hk
    rw [map_singleton,mem_singleton] at hk'
    rw [hk']
    exact hne m hm
  · intro l hl
    rw [map_append]
    rcases mem_append.mp hl with hl | hl
    · exact mem_append_left _ (h.covers l hl)
    · simp [mem_singleton.mp hl]
  · intro l hl
    rcases mem_append.mp hl with hl | hl
    · exact h.items_other hl (hne l hl)
    · rw [mem_singleton.mp hl,levelEndpoints_concat,if_pos rfl,h.levelEndpoints_nil hne]
      rfl
  · intro l hl
    rcases mem_append.mp hl with hl | hl
    · exact h.inv l hl
    · rw [mem_singleton.mp hl]
      exact fromIter_inv x

end

lemma collected_foldl (lo : List (LocalityLbEndpoints E)) :
    Collected lo (lo.foldl addLocality ([] : Levels B E)) := by
  induction lo using reverseRecOn with
  | nil => exact ⟨by simp,by simp,by simp,by simp⟩
  | append_singleton lo x ih =>
    rw [foldl_append]
    change Collected (lo++[x]) (addLocality _ x)
    rw [addLocality]
    split
    · rename_i levels' u hv
      obtain ⟨be,a,a',after,heq,-,ha,rfl⟩ := visitFirst_eq_some hv
      rw [heq] at ih
      exact ih.extended ha
    · rename_i hv
      apply ih.opened
      intro l hl heq
      have hn := visitFirst_eq_none_iff.mp hv l hl
      rw [extendLevel,if_pos heq] at hn
      cases hn

section
variable {B E : Type} {b : DefaultBalancer B E}

lemma recalculate_spec (priorities : Levels B E) :
    (recalculatePriorityLoadFactors priorities).Smooth ∧
      ((recalculatePriorityLoadFactors priorities).items.map fun x => (x.item, x.weight)) =
        calculatePriorityLoads priorities := by
  set loads := (calculatePriorityLoads priorities).map fun f => LbItem.new f.2 f.1 with hl
  have hsu : (((loads.map LbItem.weight).sum : ℕ) : ℤ) ≤ 200 := by
    rw [map_map]
    exact_mod_cast calculatePriorityLoads_sum_le priorities
  have hm : (200*200 : ℤ) ≤ i32Max := by decide
  have hf : ∀ x ∈ loads, x.currentWeight = 0 := by
    intro x hx
    obtain ⟨f,-,rfl⟩ := mem_map.mp hx
    rfl
  obtain ⟨hsm,hi,-⟩ := WeightedRoundRobinBalancer.smooth_new hf
    (hsu.trans (by decide)) ((mul_le_mul ((WeightedRoundRobinBalancer.sum_share_le _).trans hsu)
      hsu (by positivity) (by decide)).trans hm)
  refine ⟨hsm,?_⟩
  rw [recalculatePriorityLoadFactors,hi,map_map]
  exact map_id _

lemma map_of_levelData {C : Type} (f : (ℕ × ℕ × ℕ) × List (HealthyItem E) → C)
    {ls ls' : Levels B E} (h : ls.map levelData = ls'.map levelData) :
    (ls.map fun l => f (levelData l)) = ls'.map fun l => f (levelData l) := by
  have hf := congrArg (map f) h
  rwa [map_map,map_map] at hf

inductive Call (E : Type) where
  | updateHealth (id : E) (health : HealthStatus)
  | nextItem (hash : Option ℕ)

variable [Balancer B E]

def DefaultBalancer.call [BEq E] (b : DefaultBalancer B E) : Call E → DefaultBalancer B E
  | .updateHealth id health => ((b.updateHealth id health).map Prod.fst).getD b
  | .nextItem hash => (b.nextItem hash).2

def DefaultBalancer.run [BEq E] (b : DefaultBalancer B E) (calls : List (Call E)) :
    DefaultBalancer B E :=
  calls.foldl DefaultBalancer.call b

lemma call_updateHealth [BEq E] (b : DefaultBalancer B E) (id : E) (health : HealthStatus) :
    (visitFirst (updateLevel id health) b.priorities = none ∧
      b.call (.updateHealth id health) = b) ∨ ∃ o, visitFirst (updateLevel id health) b.priorities =
      some ((b.call (.updateHealth id health)).priorities, o) := by
  rw [DefaultBalancer.call,DefaultBalancer.updateHealth]
  cases visitFirst (updateLevel id health) b.priorities with
  | none => exact .inl ⟨rfl,rfl⟩
  | some r =>
    obtain ⟨pr,o⟩ := r
    refine .inr ⟨o,?_⟩
    cases o with
    | updated | notUpdated => rfl

variable [LawfulBalancer B E]

/-- The invariant of a balancer: exact counters, distinct keys, and a round
robin over the levels whose weights are the current loads. -/
structure DefaultBalancer.Inv (b : DefaultBalancer B E) : Prop where
  levels : ∀ l ∈ b.priorities, LevelInv l.2
  keys : (b.priorities.map Prod.fst).Nodup
  smooth : b.priorityLevelLb.Smooth
  weights : (b.priorityLevelLb.items.map fun x => (x.item, x.weight)) =
    calculatePriorityLoads b.priorities

lemma updateHealth_inv [BEq E] {b' : DefaultBalancer B E} {id : E} {health : HealthStatus}
    {o : ValueUpdated} (h : b.updateHealth id health = some (b', o)) (hb : b.Inv) : b'.Inv := by
  rw [DefaultBalancer.updateHealth,Option.map_eq_some_iff] at h
  obtain ⟨⟨pr,u⟩,hv,hn⟩ := h
  obtain ⟨be,l,l',after,hli,-,hl,rfl⟩ := visitFirst_eq_some hv
  obtain ⟨hky,-,hsa,ht⟩ := updateLevel_inv hl (hb.levels l (by simp [hli]))
  have hlv : ∀ m ∈ be++l'::after, LevelInv m.2 := by
    intro m hm
    rcases mem_visitFirst hv hm with hm | ⟨a,ha,ham⟩
    · exact hb.levels m hm
    · exact (updateLevel_inv ham (hb.levels a ha)).2.1
  have hke : ((be++l'::after).map fst).Nodup := by
    have hk := hb.keys
    rw [hli] at hk
    simpa [hky] using hk
  cases u with
  | notUpdated =>
    cases hn
    refine ⟨hlv,hke,hb.smooth,hb.weights.trans (calculatePriorityLoads_congr ?_)⟩
    rw [hli]
    simp [counters,hky,hsa rfl,ht]
  | updated =>
    cases hn
    exact ⟨hlv,hke,(recalculate_spec _).1,(recalculate_spec _).2⟩

lemma nextItem_frame (b : DefaultBalancer B E) (hash : Option ℕ) :
    (b.nextItem hash).2.priorityLevelLb = b.priorityLevelLb.nextItem.2 ∧
      (b.nextItem hash).2.priorities.map levelData = b.priorities.map levelData ∧
      ((∀ l ∈ b.priorities, LevelInv l.2) → ∀ l ∈ (b.nextItem hash).2.priorities, LevelInv l.2) := by
  rw [DefaultBalancer.nextItem]
  dsimp only
  split
  · exact ⟨rfl,rfl,id⟩
  · split
    · exact ⟨rfl,rfl,id⟩
    · rename_i hv
      refine ⟨rfl,map_visitFirst hv fun _ _ _ h => (nextOfLevel_data h).2.2,?_⟩
      intro hi l hl
      rcases mem_visitFirst hv hl with hl | ⟨a,ha,hal⟩
      · exact hi l hl
      · rw [nextOfLevel] at hal
        split_ifs at hal
        cases hal
        obtain ⟨hhe,hto,hlo⟩ := hi a ha
        exact ⟨hhe,hto,serves_nextItem hash hlo⟩

lemma nextItem_inv (hb : b.Inv) (hash : Option ℕ) : (b.nextItem hash).2.Inv := by
  obtain ⟨hlb,hd,hl⟩ := nextItem_frame b hash
  have hk : (b.nextItem hash).2.priorities.map fst = b.priorities.map fst :=
    map_of_levelData (fun d => d.1.1) hd
  refine ⟨hl hb.levels,by rw [hk]; exact hb.keys,by rw [hlb]; exact hb.smooth.nextItem,?_⟩
  rw [hlb,nextItem_map _ (fun _ _ => rfl),hb.weights]
  exact (calculatePriorityLoads_congr (map_of_levelData fst hd)).symm

lemma fromSlice_inv [EndpointHealth E] (o : HashOrder (Level B E))
    (lo : List (LocalityLbEndpoints E)) : (DefaultBalancer.fromSlice o lo).Inv := by
  have hc := collected_foldl (B := B) lo
  have hp := o.perm (lo.foldl addLocality [])
  refine ⟨fun l hl => hc.inv l (hp.subset hl),?_,(recalculate_spec _).1,(recalculate_spec _).2⟩
  exact (hp.map fst).nodup_iff.mpr hc.keys

lemma call_inv [BEq E] (hb : b.Inv) (c : Call E) : (b.call c).Inv := by
  cases c with
  | updateHealth id he =>
    rw [DefaultBalancer.call]
    cases h : b.updateHealth id he with
    | none => exact hb
    | some r => exact updateHealth_inv h hb
  | nextItem ha => exact nextItem_inv hb ha

lemma run_inv [BEq E] (hb : b.Inv) (ca : List (Call E)) : (b.run ca).Inv := by
  induction ca generalizing b with
  | nil => exact hb
  | cons c ca ih => exact ih (call_inv hb c)

end

section
variable {B E : Type} {b : DefaultBalancer B E} {l : Level B E}

lemma healthy_of_mem_rotation {items : List (HealthyItem E)} {e : E}
    (h : e ∈ rotation items) : ⟨e,.healthy⟩ ∈ items := by
  obtain ⟨⟨f,he⟩,hx,rfl⟩ := mem_map.mp h
  obtain ⟨hx,hh⟩ := mem_filter.mp hx
  have hh : he = .healthy := of_decide_eq_true hh
  exact hh ▸ hx

lemma length_rotation (items : List (HealthyItem E)) :
    (rotation items).length = healthyItems items := by
  rw [HealthRotation.rotation,length_map,healthyItems,countP_eq_length_filter]

lemma level_of_data {ls ls' : Levels B E} (h : ls.map levelData = ls'.map levelData) (hl : l ∈ ls) :
    ∃ l' ∈ ls', levelData l' = levelData l := by
  have hm : levelData l ∈ ls'.map levelData := h ▸ mem_map.mpr ⟨l,hl,rfl⟩
  exact mem_map.mp hm

variable [Balancer B E] [LawfulBalancer B E]

def DefaultBalancer.Healthy (b : DefaultBalancer B E) (e : E) : Prop :=
  ∃ l ∈ b.priorities, ⟨e,.healthy⟩ ∈ l.2.balancer.items

/-- The loads reach a healthy endpoint: some level has a positive percentage of
healthy endpoints, or there is no level without one. -/
def DefaultBalancer.LoadsReach (b : DefaultBalancer B E) : Prop :=
  (∃ l ∈ b.priorities, 0 < percentage l.2.healthy l.2.total) ∨
    ∀ l ∈ b.priorities, rotation l.2.balancer.items ≠ []

section

variable (hb : b.Inv)
include hb

lemma nextItem_of_chosen (hl : l ∈ b.priorities)
    (hc : b.priorityLevelLb.nextItem.1 = some l.1) (hash : Option ℕ) :
    (b.nextItem hash).1 = (l.2.balancer.nextItem hash).1 := by
  rw [DefaultBalancer.nextItem]
  dsimp only
  rw [hc]
  dsimp only
  cases hv : visitFirst (nextOfLevel l.1 hash) b.priorities with
  | none =>
    have hn := visitFirst_eq_none_iff.mp hv l hl
    rw [nextOfLevel,if_pos rfl] at hn
    cases hn
  | some r =>
    obtain ⟨be,a,a',after,hli,-,ha,-⟩ := visitFirst_eq_some hv
    obtain ⟨hk,han,-⟩ := nextOfLevel_data ha
    have heq : a = l := inj_on_of_nodup_map hb.keys (by simp [hli]) hl hk
    rw [← heq]
    exact han

lemma healthy_of_nextItem {hash : Option ℕ} {e : E} (h : (b.nextItem hash).1 = some e) :
    b.Healthy e := by
  rw [DefaultBalancer.nextItem] at h
  dsimp only at h
  split at h
  · cases h
  · split at h
    · cases h
    · rename_i hv
      obtain ⟨be,l,l',after,hli,-,hl,-⟩ := visitFirst_eq_some hv
      have hm : l ∈ b.priorities := by simp [hli]
      have he := (nextOfLevel_data hl).2.1.symm.trans h
      exact ⟨l,hm,healthy_of_mem_rotation (mem_of_nextItem (hb.levels l hm).loaded he)⟩

lemma mem_loads {x : LbItem ℕ} (hx : x ∈ b.priorityLevelLb.items) :
    (x.item, x.weight) ∈ calculatePriorityLoads b.priorities :=
  hb.weights ▸ mem_map.mpr ⟨x,hx,rfl⟩

lemma chosen_level {x : LbItem ℕ} (hx : x ∈ b.priorityLevelLb.items) :
    ∃ l ∈ b.priorities, l.1 = x.item := by
  have hk := (calculatePriorityLoads_keys b.priorities).subset
    (mem_map.mpr ⟨_,mem_loads hb hx,rfl⟩)
  exact mem_map.mp hk

lemma level_chosen (hl : l ∈ b.priorities) : ∃ x ∈ b.priorityLevelLb.items, x.item = l.1 := by
  have hm := (calculatePriorityLoads_keys b.priorities).symm.subset (mem_map.mpr ⟨l,hl,rfl⟩)
  rw [← hb.weights,map_map] at hm
  exact mem_map.mp hm

lemma exists_chosen (hr : b.LoadsReach) (hne : b.priorities ≠ []) :
    ∃ l ∈ b.priorities, b.priorityLevelLb.nextItem.1 = some l.1 ∧
      rotation l.2.balancer.items ≠ [] := by
  rcases hr with hpos | ha
  · have hsu := calculatePriorityLoads_sum_pos hpos
    rw [← hb.weights,map_map] at hsu
    have ht : 0 < b.priorityLevelLb.totalWeight := by
      rw [hb.smooth.total_eq]
      exact_mod_cast hsu
    obtain ⟨x,hx,hw,hc⟩ := hb.smooth.nextItem_positive ht
    obtain ⟨l,hl,hk,hp⟩ := percentage_pos_of_weight (mem_loads hb hx) hw
    refine ⟨l,hl,by rw [hc,hk],fun hn => ?_⟩
    have hz : l.2.healthy = 0 := by
      rw [(hb.levels l hl).healthy_eq,← length_rotation,hn]
      rfl
    rw [hz,percentage] at hp
    simp at hp
  · obtain ⟨l₀,hl₀⟩ := exists_mem_of_ne_nil _ hne
    obtain ⟨y,hy,-⟩ := level_chosen hb hl₀
    obtain ⟨x,hx,hc⟩ := nextItem_mem hb.smooth.index (ne_nil_of_mem hy)
    obtain ⟨l,hl,hk⟩ := chosen_level hb hx
    exact ⟨l,hl,by rw [hc,hk],ha l hl⟩

lemma exists_turn (hz : ∀ l ∈ b.priorities, percentage l.2.healthy l.2.total = 0)
    (hl : l ∈ b.priorities) : ∃ n, (b.priorityLevelLb.after n).nextItem.1 = some l.1 := by
  obtain ⟨x,hx,hk⟩ := level_chosen hb hl
  have he : b.priorityLevelLb.equalWeight = true := by
    apply hb.smooth.equal_of_zero
    intro y hy
    by_contra hw
    obtain ⟨m,hm,-,hp⟩ := percentage_pos_of_weight (mem_loads hb hy) (pos_of_ne_zero hw)
    rw [hz m hm] at hp
    exact absurd hp (lt_irrefl 0)
  obtain ⟨n,hn⟩ := exists_after_of_equalWeight hb.smooth.index he hx
  exact ⟨n,by rw [hn,hk]⟩

end

def requests (hashes : List (Option ℕ)) : List (Call E) := hashes.map Call.nextItem

lemma requests_data [BEq E] (b : DefaultBalancer B E) (hashes : List (Option ℕ)) :
    (b.run (requests hashes)).priorities.map levelData = b.priorities.map levelData := by
  induction hashes generalizing b with
  | nil => rfl
  | cons ha hashes ih => exact (ih _).trans (nextItem_frame b ha).2.1

lemma requests_after [BEq E] (b : DefaultBalancer B E) (n : ℕ) :
    (b.run (requests (replicate n none))).priorityLevelLb = b.priorityLevelLb.after n := by
  induction n with
  | zero => rfl
  | succ n ih =>
    rw [replicate_succ',requests,map_append,DefaultBalancer.run,foldl_append]
    rw [WeightedRoundRobinBalancer.after,← ih]
    exact (nextItem_frame _ none).1

lemma loadsReach_requests [BEq E] (h : b.LoadsReach) (hashes : List (Option ℕ)) :
    (b.run (requests hashes)).LoadsReach := by
  have hd := requests_data b hashes
  rcases h with ⟨l,hl,hpos⟩ | ha
  · obtain ⟨m,hm,heq⟩ := level_of_data hd.symm hl
    simp only [levelData,counters,mk.injEq] at heq
    exact .inl ⟨m,hm,by rw [heq.1.2.1,heq.1.2.2]; exact hpos⟩
  · right
    intro m hm
    obtain ⟨l,hl,heq⟩ := level_of_data hd hm
    simp only [levelData,mk.injEq] at heq
    rw [← heq.2]
    exact ha l hl

lemma nextItem_of_not_loadsReach [BEq E] (hb : b.Inv) (hr : ¬ b.LoadsReach) :
    ∃ hashes, ∀ ha, ((b.run (requests hashes)).nextItem ha).1 = none := by
  simp only [DefaultBalancer.LoadsReach,not_or,not_exists,not_and,not_forall,not_not] at hr
  obtain ⟨hz,l,hl,hni⟩ := hr
  obtain ⟨n,hn⟩ := exists_turn hb (fun m hm => Nat.eq_zero_of_not_pos (hz m hm)) hl
  refine ⟨replicate n none,fun ha => ?_⟩
  have hru := run_inv hb (requests (replicate n none))
  obtain ⟨m,hm,heq⟩ := level_of_data (requests_data b (replicate n none)).symm hl
  simp only [levelData,counters,mk.injEq] at heq
  rw [nextItem_of_chosen hru hm (by rw [requests_after,hn,heq.1.1])]
  by_contra hso
  obtain ⟨e,he⟩ := Option.ne_none_iff_exists'.mp hso
  have hme := mem_of_nextItem (hru.levels m hm).loaded he
  rw [heq.2,hni] at hme
  cases hme

/-- Every item of every level has a property, healthy or not. -/
def DefaultBalancer.Every (b : DefaultBalancer B E) (p : E → Prop) : Prop :=
  ∀ l ∈ b.priorities, ∀ x ∈ l.2.balancer.items, p x.item

variable {p : E → Prop}

lemma every_fromSlice [EndpointHealth E] (o : HashOrder (Level B E))
    {lo : List (LocalityLbEndpoints E)} (h : ∀ l ∈ lo, ∀ e ∈ l.endpoints, p e) :
    (DefaultBalancer.fromSlice o lo).Every p := by
  intro l hl x hx
  have hm := (o.perm (lo.foldl addLocality [])).subset hl
  rw [(collected_foldl lo).items l hm] at hx
  obtain ⟨e,he,rfl⟩ := mem_map.mp hx
  obtain ⟨lc,hlo,hm⟩ := mem_flatMap.mp he
  exact h lc (mem_of_mem_filter hlo) e hm

lemma every_call [BEq E] (h : b.Every p) (c : Call E) : (b.call c).Every p := by
  intro l hl x hx
  cases c with
  | updateHealth id he =>
    rcases call_updateHealth b id he with ⟨-,hsa⟩ | ⟨o,hv⟩
    · exact h l (hsa ▸ hl) x hx
    · rcases mem_visitFirst hv hl with hl | ⟨a,ha,hal⟩
      · exact h l hl x hx
      · rw [updateLevel,Option.map_eq_some_iff] at hal
        obtain ⟨⟨ba,u⟩,hu,hlv⟩ := hal
        obtain ⟨be,y,after,hi,-,-,hn,-⟩ := updateHealth_eq_some hu
        have hx : x ∈ ba.items := by
          cases u with
          | updated | notUpdated =>
            cases hlv
            exact hx
        have ho := h a ha
        rw [hi] at ho
        rw [hn] at hx
        rcases mem_append.mp hx with hx | hx
        · exact ho x (mem_append_left _ hx)
        · rcases mem_cons.mp hx with rfl | hx
          · exact ho y (by simp)
          · exact ho x (by simp [hx])
  | nextItem hs =>
    obtain ⟨a,ha,hd⟩ := level_of_data (nextItem_frame b hs).2.1 hl
    have hi : a.2.balancer.items = l.2.balancer.items := congrArg Prod.snd hd
    exact h a ha x (hi ▸ hx)

lemma DefaultBalancer.Every.of_nextItem (h : b.Every p) (hb : b.Inv) {hash : Option ℕ} {e : E}
    (he : (b.nextItem hash).1 = some e) : p e := by
  obtain ⟨l,hl,hm⟩ := healthy_of_nextItem hb he
  exact h l hl _ hm

end

variable {E : Type} [WeightedEndpoint E]

variable [BEq E] [EndpointHealth E]

/-- After any calls that leave an endpoint healthy, all requests that follow
get a healthy endpoint if and only if the loads reach one. -/
theorem nextItem_healthy_iff
    (order : HashOrder (ℕ × PriorityInfo (HealthyBalancer (WeightedRoundRobinBalancer E) E)))
    (localities : List (LocalityLbEndpoints E)) (calls : List (Call E))
    (b : DefaultBalancer (WeightedRoundRobinBalancer E) E)
    (hb : b = (DefaultBalancer.fromSlice order localities).run calls)
    (hhealthy : ∃ e, b.Healthy e) :
    (∀ hashes hash, ∃ e, ((b.run (requests hashes)).nextItem hash).1 = some e ∧
      (b.run (requests hashes)).Healthy e) ↔ b.LoadsReach := by
  have hi : b.Inv := by
    rw [hb]
    exact run_inv (fromSlice_inv order localities) calls
  constructor
  · intro ha
    by_contra hr
    obtain ⟨hashes,hn⟩ := nextItem_of_not_loadsReach hi hr
    obtain ⟨e,he,-⟩ := ha hashes none
    rw [hn none] at he
    cases he
  · intro hr hashes hash
    obtain ⟨e,l,hl,-⟩ := hhealthy
    obtain ⟨m,hm,-⟩ := level_of_data (requests_data b hashes).symm hl
    have hi := run_inv hi (requests hashes)
    obtain ⟨l,hl,hc,hr⟩ := exists_chosen hi (loadsReach_requests hr hashes) (ne_nil_of_mem hm)
    obtain ⟨e,he⟩ := Option.isSome_iff_exists.mp (nextItem_isSome (hi.levels l hl).loaded hr hash)
    have ha := (nextItem_of_chosen hi hl hc hash).trans he
    exact ⟨e,ha,healthy_of_nextItem hi ha⟩

def endpoint (authority : ℕ) (healthStatus : HealthStatus) : LbEndpoint ℕ :=
  ⟨authority,1,healthStatus,by decide,by decide⟩

def sparseLocalities : List (LocalityLbEndpoints (LbEndpoint ℕ)) :=
  [⟨0,[endpoint 0 .unhealthy],by decide,by decide,by decide⟩,
    ⟨1,endpoint 1 .healthy::(List.range 100).map fun i => endpoint (i+2) .unhealthy,
      by decide,by decide,by decide +kernel⟩]

def sparseBalancer : DefaultBalancer (WeightedRoundRobinBalancer (LbEndpoint ℕ)) (LbEndpoint ℕ) :=
  .fromSlice (.inserted _) sparseLocalities

theorem sparse_nextItem_none :
    (∃ e, sparseBalancer.Healthy e) ∧ (sparseBalancer.nextItem none).1 = none := by
  refine ⟨⟨endpoint 1 .healthy,?_⟩,by decide +kernel⟩
  unfold DefaultBalancer.Healthy
  decide +kernel

def recoveredBalancer :
    DefaultBalancer (WeightedRoundRobinBalancer (LbEndpoint ℕ)) (LbEndpoint ℕ) :=
  (DefaultBalancer.fromSlice (.inserted _) sparseLocalities).run
    [.updateHealth (endpoint 0 .unhealthy) .healthy]

theorem nextItem_healthy_recovered :
    recoveredBalancer.LoadsReach ∧ ∀ hashes hash, ∃ e,
      ((recoveredBalancer.run (requests hashes)).nextItem hash).1 = some e ∧
        (recoveredBalancer.run (requests hashes)).Healthy e := by
  have hr : recoveredBalancer.LoadsReach := by
    left
    decide +kernel
  have hh : recoveredBalancer.Healthy (endpoint 1 .healthy) := by
    unfold DefaultBalancer.Healthy
    decide +kernel
  exact ⟨hr,(nextItem_healthy_iff (.inserted _) sparseLocalities
    [.updateHealth (endpoint 0 .unhealthy) .healthy] recoveredBalancer rfl ⟨_,hh⟩).mpr hr⟩

end ArionGateway.PriorityBalancer
