import ArionGateway.ListenersManager

/-!
# Delivery of route configurations to connection managers

A change of a route configuration is accepted when a connection manager has applied it, or the
manager of a runtime has no listener that could. Changes of listeners and of routes are in two
queues, from which the manager of a runtime takes in any order. A connection manager that takes
its routes from RDS only sees the changes that are forwarded after its listener was started: a
listener that is added after a route configuration, or replaced by an update, has no routes until
the next change. All changes are accepted here: a change that no listener applies in time is
rejected.
-/
namespace ArionGateway.RouteDelivery
open BroadcastChannels Executions ListenerUpdates ListenersManager TlsSecrets MainFilterBuilder
open List

variable {L : TlsLibrary} {Route : Type}

variable (L Route) in
structure Runtime where
  manager : Manager L Route := {}
  configurationChannel : List (ListenerConfigurationChange L Route) := []
  routeConfigurationChannel : List (RouteConfigurationChange Route) := []

variable (L Route) in
/-- The runtimes, the route changes that the handler has sent, whether it waits
for the last of them and whether that has been notified. -/
structure System where
  runtimes : List (Runtime L Route)
  sent : List (RouteConfigurationChange Route) := []
  waiting : Bool := false
  notified : Bool := false

variable (L Route) in
inductive Event where
  | listenerChange (change : ListenerConfigurationChange L Route)
  | routeChange (change : RouteConfigurationChange Route)
  | accepted
  | takeListenerChange (r : ℕ)
  | takeRouteChange (r : ℕ)
  | bind (r i : ℕ) (bound : Bool)
  | poll (r i : ℕ) (connection : Bool) (tickets : ℕ → Except String L.Ticketer)
  | cancel (r i : ℕ)

def hasSubscribers (m : Manager L Route) : Bool :=
  m.listeners.any fun task => task.phase = .spawned || task.phase = .running

/-- The number of the route change that a turn of a listener applies. -/
def appliedChange (m : Manager L Route) (i : ℕ) (connection : Bool) : Option ℕ :=
  match m.listeners[i]? with
  | none => none
  | some task =>
    match connection, recv capacity m.routes task.routeNext with
    | false, (.message change, _) =>
      if applied task.filterChains change then some task.routeNext else none
    | _, _ => none

namespace System

def initial (runtimes : ℕ) : System L Route :=
  { runtimes := List.replicate runtimes {} }

/-- A step of the manager of a runtime or of one of its listeners. -/
def stepManager (s : System L Route) (r : ℕ) (runtime : Runtime L Route) (a : Action L Route)
    (notified : Bool) : Option (System L Route) :=
  (runtime.manager.step a).map fun manager =>
    { s with runtimes := s.runtimes.set r { runtime with manager }, notified }

def step (s : System L Route) : Event L Route → Option (System L Route)
  | .listenerChange change =>
    if s.waiting then none
    else some { s with runtimes := s.runtimes.map fun runtime => { runtime with
      configurationChannel := runtime.configurationChannel++[change] } }
  | .routeChange change =>
    if s.waiting then none
    else some
      { runtimes := s.runtimes.map fun runtime => { runtime with
          routeConfigurationChannel := runtime.routeConfigurationChannel++[change] }
        sent := s.sent++[change]
        waiting := true
        notified := false }
  | .accepted => if s.waiting && s.notified then some { s with waiting := false } else none
  | .takeListenerChange r =>
    match s.runtimes[r]? with
    | some ⟨manager,change::configurationChannel,routeConfigurationChannel⟩ =>
      s.stepManager r ⟨manager,configurationChannel,routeConfigurationChannel⟩
        (.configurationChange change) s.notified
    | _ => none
  | .takeRouteChange r =>
    match s.runtimes[r]? with
    | some ⟨manager,configurationChannel,change::routeConfigurationChannel⟩ =>
      s.stepManager r ⟨manager,configurationChannel,routeConfigurationChannel⟩
        (.routeConfigurationChange change)
        (s.notified || !hasSubscribers manager && routeConfigurationChannel.isEmpty)
    | _ => none
  | .bind r i bound =>
    match s.runtimes[r]? with
    | some runtime => s.stepManager r runtime (.bind i bound) s.notified
    | none => none
  | .poll r i connection tickets =>
    match s.runtimes[r]? with
    | some runtime => s.stepManager r runtime (.poll i connection tickets)
        (s.notified || (appliedChange runtime.manager i connection).any (· + 1 = s.sent.length))
    | none => none
  | .cancel r i =>
    match s.runtimes[r]? with
    | some runtime => s.stepManager r runtime (.cancel i) s.notified
    | none => none

end System

/-- When all changes forwarded so far are taken, every connection manager of the
listeners started so far routes by the configuration in force. -/
def WillRoute (m : Manager L Route) : Prop :=
  ∀ task ∈ m.listeners, ∀ chain ∈ task.built, ∀ id route, chain.handler = .http (some id) route →
      routeAfter id route (m.routes.drop task.routeStart) = routeAfter id none m.routes

/-- When a listener is started, none of the route configurations that it takes
from RDS is in force. -/
def StartsWithoutRoutes (m : Manager L Route) : Action L Route → Prop
  | .configurationChange (.added factory) =>
    ∀ chains, factory.intoListener = .ok chains → ∀ chain ∈ factory.filterChains,
      ∀ id, chain.mainFilter = .http (.rds id) → routeAfter id none m.routes = none
  | _ => True

/-- Every running connection manager with all messages taken routes by the last
change of its RDS name that was sent to the runtimes. -/
def System.RoutesByLatest (s : System L Route) : Prop :=
  ∀ runtime ∈ s.runtimes, runtime.routeConfigurationChannel = [] →
    ∀ task ∈ runtime.manager.listeners, task.phase = .running →
      runtime.manager.routes.length ≤ task.routeNext →
      ∀ chain ∈ task.filterChains, ∀ id route, chain.handler = .http (some id) route →
        route = routeAfter id none s.sent

def System.WillRoute (s : System L Route) : Prop :=
  ∀ runtime ∈ s.runtimes, RouteDelivery.WillRoute runtime.manager

/-- No manager starts a listener while a route configuration of it is in force. -/
def System.AddsBeforeRoutes (s : System L Route) : Event L Route → Prop
  | .takeListenerChange r => ∀ runtime, s.runtimes[r]? = some runtime →
      ∀ change ∈ runtime.configurationChannel.head?,
        StartsWithoutRoutes runtime.manager (.configurationChange change)
  | _ => True

section
variable {m m' : Manager L Route} {a : Action L Route} {task : ListenerTask L Route}
  {route : Option Route}

def starts (m : Manager L Route) : List (List (ConnectionHandler Route) × ℕ) :=
  m.listeners.map fun task => (task.built.map FilterchainType.handler, task.routeStart)

/-- Handlers that are started at a route change will see the configuration in force. -/
def Sees (routes : List (RouteConfigurationChange Route))
    (start : List (ConnectionHandler Route) × ℕ) : Prop :=
  ∀ id route, .http (some id) route ∈ start.1 →
    routeAfter id route (routes.drop start.2) = routeAfter id none routes

lemma willRoute_iff : WillRoute m ↔ ∀ start ∈ starts m, Sees m.routes start := by
  rw [starts,forall_mem_map]
  refine forall₂_congr fun task ht => ?_
  simp only [Sees,mem_map]
  constructor
  · rintro h id route ⟨c,hc,hh⟩
    exact h c hc id route hh
  · intro h c hc id route hh
    exact h id route ⟨c,hc,hh⟩

lemma starts_abort (m : Manager L Route) (n : String) :
    (Manager.abort m.listeners (m.listenerHandles n)).map
      (fun task => (task.built.map FilterchainType.handler, task.routeStart)) = starts m := by
  refine ext_getElem? fun k => ?_
  rw [starts,getElem?_map,getElem?_map,Manager.getElem?_abort,Option.map_map]
  split_ifs <;> rfl

/-- The listeners that a step starts, with the routes it forwards. -/
def started (m : Manager L Route) : Action L Route → List (List (ConnectionHandler Route) × ℕ)
  | .configurationChange (.added factory) =>
    match factory.intoListener with
    | .ok chains => [(chains.map FilterchainType.handler, m.routes.length)]
    | .error _ => []
  | _ => []

def forwarded : Action L Route → List (RouteConfigurationChange Route)
  | .routeConfigurationChange change => [change]
  | _ => []

lemma starts_set {i : ℕ} {af : ListenerTask L Route} (hi : m.listeners[i]? = some task)
    (hsa : af.built = task.built ∧ af.routeStart = task.routeStart) :
    starts { m with listeners := m.listeners.set i af } = starts m := by
  have hlt := (List.getElem?_eq_some_iff.mp hi).1
  rw [starts,starts,map_set,hsa.1,hsa.2]
  refine ext_getElem? fun k => ?_
  by_cases hk : i = k
  · subst hk
    rw [getElem?_set_self (by simpa using hlt),getElem?_map,hi]
    rfl
  · rw [getElem?_set_ne hk]

lemma starts_configurationChange (m : Manager L Route) (c : ListenerConfigurationChange L Route) :
    starts (m.configurationChange c) = starts m++started m (.configurationChange c) ∧
      (m.configurationChange c).routes = m.routes := by
  cases c with
  | added f =>
    rw [Manager.configurationChange,started]
    cases f.intoListener with
    | ok ch =>
      refine ⟨?_,rfl⟩
      dsimp only [starts,Manager.startListener]
      rw [map_append,starts_abort]
      rfl
    | error e => simp [starts,Manager.exit]
  | removed l => exact ⟨(starts_abort m _).trans (append_nil _).symm,rfl⟩
  | tlsContextChanged c | getConfiguration => exact ⟨(append_nil _).symm,rfl⟩

lemma starts_step (h : m.step a = some m') :
    starts m' = starts m++started m a ∧ m'.routes = m.routes++forwarded a := by
  rcases Manager.step_cases h with ⟨ch,-,rfl,rfl⟩ | ⟨ch,rfl,rfl⟩ | ⟨rfl,rfl⟩ |
    ⟨i,task,after,hi,rfl,ha⟩
  · obtain ⟨hst,hr⟩ := starts_configurationChange m ch
    exact ⟨hst,hr.trans (append_nil _).symm⟩
  · exact ⟨(append_nil _).symm,rfl⟩
  · simp [starts,started,forwarded,Manager.exit]
  · have hsa : after.built = task.built ∧ after.routeStart = task.routeStart := by
      rcases ha with ⟨-,-,rfl⟩ | ⟨-,-,rfl⟩ | ⟨c,tickets,-,-,rfl⟩ | ⟨-,-,rfl⟩
      · exact ⟨rfl,rfl⟩
      · exact ⟨rfl,rfl⟩
      · exact Manager.turn_rec
          (P := fun after => after.built = task.built ∧ after.routeStart = task.routeStart)
          ⟨rfl,rfl⟩ ⟨rfl,rfl⟩ (fun _ _ => ⟨rfl,rfl⟩) c tickets fun _ _ => ⟨rfl,rfl⟩
      · exact ⟨rfl,rfl⟩
    have hn : started m a = [] ∧ forwarded a = [] := by
      rcases ha with ⟨rfl,-⟩ | ⟨rfl,-⟩ | ⟨_,_,rfl,-⟩ | ⟨rfl,-⟩ <;> exact ⟨rfl,rfl⟩
    rw [hn.1,hn.2,append_nil,append_nil]
    exact ⟨starts_set hi hsa,rfl⟩

lemma routeAfter_concat (id : String) (i : Option Route)
    (changes : List (RouteConfigurationChange Route)) (c : RouteConfigurationChange Route) :
    routeAfter id i (changes++[c]) = if c.id = id then c.route else routeAfter id i changes := by
  rw [routeAfter,routeAfter,reverse_concat]
  by_cases h : c.id = id
  · simp [h]
  · simp [h]

lemma Sees.append {r : List (RouteConfigurationChange Route)}
    {start : List (ConnectionHandler Route) × ℕ} (h : Sees r start)
    (hst : start.2 ≤ r.length) (a : Action L Route) : Sees (r++forwarded a) start := by
  cases a with
  | routeConfigurationChange ch =>
    intro id route hm
    rw [forwarded,drop_append_of_le_length hst,routeAfter_concat,routeAfter_concat,
      h id route hm]
  | _ => simpa [forwarded] using h

lemma handlers_of_intoListener {f : ListenerFactory L Route}
    {c : List (FilterchainType L Route)} (h : f.intoListener = .ok c) :
    c.map FilterchainType.handler = f.filterChains.map fun ch => ch.mainFilter.build := by
  have ha := FallibleSteps.mapM_eq_ok.mp h
  generalize f.filterChains = builders at ha
  clear h
  induction ha with
  | nil => rfl
  | cons hb _ ih =>
    obtain ⟨_,-,hb⟩ := FallibleSteps.bind_eq_ok.mp hb
    cases hb
    rw [map_cons,map_cons,ih]

lemma build_eq_http_iff {mf : MainFilterBuilder Route} {id : String} :
    mf.build = .http (some id) route ↔ mf = .http (.rds id) ∧ route = none := by
  cases mf with
  | tcp => simp [build]
  | http r =>
    cases r with
    | rds n => simp [build,eq_comm]
    | routeConfig c => simp [build]

lemma sees_started_iff (m : Manager L Route) (a : Action L Route) :
    (∀ st ∈ started m a, Sees m.routes st) ↔ StartsWithoutRoutes m a := by
  match a with
  | .configurationChange (.added factory) =>
    rw [started,StartsWithoutRoutes]
    cases hch : factory.intoListener with
    | error e => simp
    | ok ch =>
      have he : m.routes.drop m.routes.length = [] := drop_length
      simp only [mem_singleton,forall_eq,Sees,he,handlers_of_intoListener hch,
        mem_map,build_eq_http_iff]
      constructor
      · intro h _ _ c hc id hid
        exact (h id none ⟨c,hc,hid,rfl⟩).symm
      · rintro h id route ⟨c,hc,hid,rfl⟩
        exact (h ch rfl c hc id hid).symm
  | .configurationChange (.removed _) => simp [started,StartsWithoutRoutes]
  | .configurationChange (.tlsContextChanged _) => simp [started,StartsWithoutRoutes]
  | .configurationChange .getConfiguration => simp [started,StartsWithoutRoutes]
  | .routeConfigurationChange _ => simp [started,StartsWithoutRoutes]
  | .channelsClosed => simp [started,StartsWithoutRoutes]
  | .bind _ _ => simp [started,StartsWithoutRoutes]
  | .poll _ _ _ => simp [started,StartsWithoutRoutes]
  | .cancel _ => simp [started,StartsWithoutRoutes]

/-- One step of a manager keeps its connection managers informed exactly if it
does not start a listener whose routes are in force. -/
lemma willRoute_step (hso : m.Sound) (hw : WillRoute m) (h : m.step a = some m') :
    WillRoute m' ↔ StartsWithoutRoutes m a := by
  obtain ⟨hsr,hr⟩ := starts_step h
  have ho : ∀ start ∈ starts m, Sees m'.routes start := by
    intro start hst
    rw [hr]
    refine (willRoute_iff.mp hw start hst).append ?_ a
    obtain ⟨task,ht,rfl⟩ := mem_map.mp hst
    exact (hso.follows task ht).routeStart.trans (hso.follows task ht).routeNext
  rw [willRoute_iff,hsr,forall_mem_append,and_iff_right ho,← sees_started_iff]
  -- a step that starts a listener forwards nothing
  cases a with
  | routeConfigurationChange ch => exact iff_of_true nofun nofun
  | _ => simp only [hr,forwarded,append_nil]

end

namespace System

variable {s t : System L Route} {e : Event L Route}

/-- Every manager has taken the route changes from its queue in the order of
sending. -/
structure Delivers (s : System L Route) : Prop where
  sound : ∀ runtime ∈ s.runtimes, runtime.manager.Sound
  routes : ∀ runtime ∈ s.runtimes,
    runtime.manager.routes++runtime.routeConfigurationChannel = s.sent

def enqueue (configurations : List (ListenerConfigurationChange L Route))
    (routes : List (RouteConfigurationChange Route)) (runtime : Runtime L Route) :
    Runtime L Route :=
  { runtime with
    configurationChannel := runtime.configurationChannel++configurations
    routeConfigurationChannel := runtime.routeConfigurationChannel++routes }

structure ManagerStep (s : System L Route) (e : Event L Route) (t : System L Route) (r : ℕ)
    (runtime after : Runtime L Route) (a : Action L Route) : Prop where
  before : s.runtimes[r]? = some runtime
  step : runtime.manager.step a = some after.manager
  runtimes : t.runtimes = s.runtimes.set r after
  sent : t.sent = s.sent
  routes : forwarded a++after.routeConfigurationChannel = runtime.routeConfigurationChannel
  adds : s.AddsBeforeRoutes e ↔ StartsWithoutRoutes runtime.manager a

lemma stepManager_eq_some {r : ℕ} {ru : Runtime L Route} {a : Action L Route}
    {n : Bool} (h : s.stepManager r ru a n = some t) :
    ∃ af, ru.manager.step a = some af.manager ∧ t.runtimes = s.runtimes.set r af ∧
      t.sent = s.sent ∧ af.routeConfigurationChannel = ru.routeConfigurationChannel := by
  obtain ⟨manager,hm,rfl⟩ := Option.map_eq_some_iff.mp h
  exact ⟨{ ru with manager },hm,rfl,rfl,rfl⟩

lemma managerStep_of_bind (r : ℕ) (a : Action L Route) (n : Runtime L Route → Bool)
    (hf : forwarded a = [])
    (ha : ∀ runtime : Runtime L Route, s.AddsBeforeRoutes e ↔ StartsWithoutRoutes runtime.manager a)
    (h : (s.runtimes[r]?.bind fun runtime => s.stepManager r runtime a (n runtime)) = some t) :
    ∃ r runtime after a, s.ManagerStep e t r runtime after a := by
  obtain ⟨runtime,hr,h⟩ := Option.bind_eq_some_iff.mp h
  obtain ⟨after,hst,hru,hse,hro⟩ := stepManager_eq_some h
  refine ⟨r,runtime,after,a,hr,hst,hru,hse,?_,ha runtime⟩
  rw [hf,nil_append,hro]

lemma step_cases (h : s.step e = some t) : (∃ c ro, t.runtimes = s.runtimes.map (enqueue c ro) ∧
      t.sent = s.sent++ro ∧ s.AddsBeforeRoutes e) ∨
    ∃ r ru after a, s.ManagerStep e t r ru after a := by
  cases e with
  | listenerChange ch =>
    obtain ⟨-,h⟩ := Option.ite_none_left_eq_some.mp h
    cases h
    refine .inl ⟨[ch],[],?_,(append_nil _).symm,trivial⟩
    simp [enqueue]
  | routeChange ch =>
    obtain ⟨-,h⟩ := Option.ite_none_left_eq_some.mp h
    cases h
    refine .inl ⟨[],[ch],?_,rfl,trivial⟩
    simp [enqueue]
  | accepted =>
    obtain ⟨-,h⟩ := Option.ite_none_right_eq_some.mp h
    cases h
    refine .inl ⟨[],[],?_,(append_nil _).symm,trivial⟩
    have hn : enqueue ([] : List (ListenerConfigurationChange L Route)) [] = id := by
      funext ru
      simp [enqueue]
    rw [hn,map_id]
  | takeListenerChange r =>
    rw [step] at h
    split at h
    case h_1 manager ch c ro hr =>
      obtain ⟨after,hst,hru,hse,hro⟩ := stepManager_eq_some h
      refine .inr ⟨r,_,after,_,hr,hst,hru,hse,hro,?_⟩
      simp [AddsBeforeRoutes,hr]
    case h_2 => cases h
  | takeRouteChange r =>
    rw [step] at h
    split at h
    case h_1 manager c ch ro hr =>
      obtain ⟨after,hst,hru,hse,hro⟩ := stepManager_eq_some h
      refine .inr ⟨r,_,after,_,hr,hst,hru,hse,?_,Iff.rfl⟩
      rw [hro]
      rfl
    case h_2 => cases h
  | bind r i b =>
    refine .inr (managerStep_of_bind r (.bind i b) (fun _ => s.notified) rfl (fun _ => Iff.rfl) ?_)
    rw [← h,step]
    cases s.runtimes[r]? <;> rfl
  | poll r i co ti =>
    refine .inr (managerStep_of_bind r (.poll i co ti) (fun ru => s.notified ||
      (appliedChange ru.manager i co).any (· + 1 = s.sent.length)) rfl
      (fun _ => Iff.rfl) ?_)
    rw [← h,step]
    cases s.runtimes[r]? <;> rfl
  | cancel r i =>
    refine .inr (managerStep_of_bind r (.cancel i) (fun _ => s.notified) rfl (fun _ => Iff.rfl) ?_)
    rw [← h,step]
    cases s.runtimes[r]? <;> rfl

lemma delivers_step (h : s.Delivers) (hst : s.step e = some t) : t.Delivers := by
  rcases step_cases hst with ⟨c,routes,hru,hse,-⟩ | ⟨r,runtime,after,a,hm⟩
  · refine ⟨?_,?_⟩
    · rw [hru,forall_mem_map]
      exact h.sound
    · rw [hru,forall_mem_map,hse]
      intro runtime hrn
      rw [← h.routes runtime hrn,append_assoc]
      rfl
  · have hme := mem_of_getElem? hm.before
    refine ⟨fun r' hr => ?_,fun r' hr => ?_⟩
    · rw [hm.runtimes] at hr
      rcases mem_or_eq_of_mem_set hr with ho | rfl
      · exact h.sound r' ho
      · exact Manager.sound_step (h.sound runtime hme) hm.step
    · rw [hm.runtimes] at hr
      rw [hm.sent]
      rcases mem_or_eq_of_mem_set hr with ho | rfl
      · exact h.routes r' ho
      · rw [(starts_step hm.step).2,append_assoc,hm.routes]
        exact h.routes runtime hme

lemma willRoute_step_iff (h : s.Delivers) (hw : s.WillRoute) (hst : s.step e = some t) :
    t.WillRoute ↔ s.AddsBeforeRoutes e := by
  rcases step_cases hst with ⟨c,routes,hru,-,hadd⟩ | ⟨r,runtime,after,a,hm⟩
  · refine iff_of_true ?_ hadd
    rw [WillRoute,hru,forall_mem_map]
    exact hw
  · have hme := mem_of_getElem? hm.before
    have hlt := (List.getElem?_eq_some_iff.mp hm.before).1
    rw [hm.adds,← willRoute_step (h.sound runtime hme) (hw runtime hme) hm.step]
    constructor
    · intro ha
      refine ha after ?_
      rw [hm.runtimes]
      exact mem_set hlt after
    · intro ha r' hr
      rw [hm.runtimes] at hr
      rcases mem_or_eq_of_mem_set hr with ho | rfl
      · exact hw r' ho
      · exact ha

lemma Delivers.routesByLatest (h : s.Delivers) (hw : s.WillRoute) : s.RoutesByLatest := by
  intro ru hr he task ht _ hp c hc id route hh
  have hse := h.routes ru hr
  rw [he,append_nil] at hse
  rw [← hse]
  have hf := (h.sound ru hr).follows task ht
  rw [hf.filterChains,taken_of_le hp] at hc
  obtain ⟨j,hj,rfl⟩ := mem_mapIdx.mp hc
  obtain ⟨i,hi,hro⟩ := exists_of_foldl_change hh
  exact hro.trans (hw ru hr task ht task.built[j] (getElem_mem hj) id i hi)

lemma delivers_initial (runtimes : ℕ) : (initial runtimes : System L Route).Delivers where
  sound runtime hr := by
    rw [eq_of_mem_replicate hr]
    exact Manager.sound_initial
  routes runtime hr := by
    rw [eq_of_mem_replicate hr]
    rfl

/-- Connection managers route by the last accepted change of their RDS name once
they have taken all messages, whichever order the changes of listeners and routes
come in, in the runs in which no listener is started while one of its route
configurations is in force. These are exactly the runs in which at all times
every listener will route by what is in force when it has taken what has been
forwarded so far. -/
theorem routes_by_latest_iff (runtimes : ℕ) (es : List (Event L Route)) (t : System L Route) :
    Throughout (fun s => s.WillRoute ∧ s.RoutesByLatest) (fun s e t => step s e = some t)
      (initial runtimes) es t ↔
      Run (Guarded AddsBeforeRoutes fun s e t => step s e = some t) (initial runtimes) es t := by
  have hw : (initial runtimes : System L Route).WillRoute := by
    intro ru hr
    rw [eq_of_mem_replicate hr]
    exact nofun
  refine throughout_iff_guarded Delivers (fun s e t h hst => delivers_step h hst) ?_
    (delivers_initial runtimes) ⟨hw,(delivers_initial runtimes).routesByLatest hw⟩
  intro s e t h hs hst
  rw [← willRoute_step_iff h hs.1 hst]
  exact and_iff_left_of_imp (delivers_step h hst).routesByLatest

abbrev rdsListener : ListenerConfigurationChange SecretUpdates.numberedLibrary ℕ :=
  .added { name := "a", filterChains := [{ mainFilter := .http (.rds "r"), tlsConfigurator := none }] }

/-- A route configuration is accepted, and then the listener that uses it is
replaced by an update or added for the first time. Nothing is left to do, and
the connection manager has no routes. -/
theorem accepted_route_not_used :
    (∃ s : System SecretUpdates.numberedLibrary ℕ, Run (fun s e t => step s e = some t) (initial 1)
        [.listenerChange rdsListener, .takeListenerChange 0, .bind 0 0 true,
          .routeChange (.added "r" 7), .takeRouteChange 0, .poll 0 0 false fun _ => .error "",
          .accepted, .listenerChange rdsListener, .takeListenerChange 0, .cancel 0 0,
          .bind 0 1 true] s ∧
      ¬ s.RoutesByLatest) ∧
    ∃ s : System SecretUpdates.numberedLibrary ℕ, Run (fun s e t => step s e = some t) (initial 1)
        [.routeChange (.added "r" 7), .takeRouteChange 0, .accepted,
          .listenerChange rdsListener, .takeListenerChange 0, .bind 0 0 true] s ∧
      ¬ s.RoutesByLatest := by
  constructor
  · refine ⟨_,Run.of_exec rfl,fun h => ?_⟩
    cases h _ (mem_singleton_self _) rfl _ (mem_cons_of_mem _ (mem_singleton_self _))
      rfl (le_refl 1) _ (mem_singleton_self _) "r" none rfl
  · refine ⟨_,Run.of_exec rfl,fun h => ?_⟩
    cases h _ (mem_singleton_self _) rfl _ (mem_singleton_self _) rfl (le_refl 1) _
      (mem_singleton_self _) "r" none rfl

end System

end ArionGateway.RouteDelivery
