import ArionGateway.BroadcastChannels
import ArionGateway.ListenerUpdates
import ArionGateway.SecretUpdates

/-!
# The manager of the listeners

The manager starts a task for every listener and aborts the task of one that is replaced or
removed. It sends changes of routes and of secrets on two broadcast channels. The loop of a
listener accepts a connection if one is waiting, else takes a change of a route, else a change of
a secret, and any error of a receiver ends it, also the error that it lags. A listener keeps
running if it takes from its channels before more than sixteen messages wait there, and not
otherwise. What it has taken it has applied in order.
-/
namespace ArionGateway.ListenersManager
open BroadcastChannels Executions ListenerUpdates TlsSecrets List Function Option

variable {L : TlsLibrary} {Route : Type}

section

def capacity : ℕ := 16

variable (L Route) in
structure ListenerFactory where
  name : String
  filterChains : List (FilterchainBuilder L Route)

def ListenerFactory.intoListener (self : ListenerFactory L Route) :
    Except String (List (FilterchainType L Route)) :=
  self.filterChains.mapM FilterchainBuilder.build

variable (L Route) in
inductive ListenerConfigurationChange where
  | added (factory : ListenerFactory L Route)
  | removed (listenerName : String)
  | tlsContextChanged (change : TlsContextChange L)
  | getConfiguration

/-- A listener task is spawned, runs when its socket is bound or ends at once,
and ends by an error of a receiver or when it is aborted. -/
inductive Phase where
  | spawned
  | unbound
  | running
  | ended
  deriving DecidableEq

variable (L Route) in
/-- The task of a listener. `built`, the starts of its receivers and `received`,
the changes of secrets with the ticket keys drawn for them, are kept for the
statements only. -/
structure ListenerTask where
  name : String
  built : List (FilterchainType L Route)
  routeStart : ℕ
  secretStart : ℕ
  received : List (TlsContextChange L × (ℕ → Except String L.Ticketer)) := []
  filterChains : List (FilterchainType L Route)
  routeNext : ℕ
  secretNext : ℕ
  phase : Phase := .spawned
  aborted : Bool := false

variable (L Route) in
structure Manager where
  running : Bool := true
  routes : List (RouteConfigurationChange Route) := []
  secrets : List (TlsContextChange L) := []
  listeners : List (ListenerTask L Route) := []
  listenerHandles : String → Option ℕ := fun _ => none

variable (L Route) in
inductive Action where
  | configurationChange (change : ListenerConfigurationChange L Route)
  | routeConfigurationChange (change : RouteConfigurationChange Route)
  | channelsClosed
  | bind (i : ℕ) (bound : Bool)
  | poll (i : ℕ) (connection : Bool) (tickets : ℕ → Except String L.Ticketer)
  | cancel (i : ℕ)

namespace Manager

def abort (listeners : List (ListenerTask L Route)) (handle : Option ℕ) :
    List (ListenerTask L Route) :=
  match handle with
  | none => listeners
  | some k => listeners.modify k fun task => { task with aborted := true }

variable (s : Manager L Route) (name : String) (chains : List (FilterchainType L Route))

def newTask : ListenerTask L Route :=
  { name, built := chains, filterChains := chains
    routeStart := s.routes.length, routeNext := s.routes.length
    secretStart := s.secrets.length, secretNext := s.secrets.length }

def startListener : Manager L Route :=
  { s with
    listeners := abort s.listeners (s.listenerHandles name)++[s.newTask name chains]
    listenerHandles := Function.update s.listenerHandles name (some s.listeners.length) }

def stopListener : Manager L Route :=
  { s with
    listeners := abort s.listeners (s.listenerHandles name)
    listenerHandles := Function.update s.listenerHandles name none }

def exit : Manager L Route :=
  { s with
    running := false
    listeners := s.listeners.map fun task => { task with aborted := true }
    listenerHandles := fun _ => none }

def configurationChange : ListenerConfigurationChange L Route → Manager L Route
  | .added factory =>
    match factory.intoListener with
    | .ok chains => s.startListener factory.name chains
    | .error _ => s.exit
  | .removed listenerName => s.stopListener listenerName
  | .tlsContextChanged change => { s with secrets := s.secrets++[change] }
  | .getConfiguration => s

def turn (task : ListenerTask L Route) (connection : Bool)
    (tickets : ℕ → Except String L.Ticketer) : ListenerTask L Route :=
  if connection then task
  else
    match recv capacity s.routes task.routeNext with
    | (.message change, next) =>
      { task with
        filterChains := processRouteUpdate task.filterChains change
        routeNext := next }
    | (.lagged _, _) => { task with phase := .ended }
    | (.pending, _) =>
      match recv capacity s.secrets task.secretNext with
      | (.message change, next) =>
        { task with
          filterChains := processSecretUpdate task.filterChains change tickets
          received := task.received++[(change, tickets)]
          secretNext := next }
      | (.lagged _, _) => { task with phase := .ended }
      -- the receivers of a closed channel get an error
      | (.pending, _) => if s.running then task else { task with phase := .ended }

/-- An aborted task may still take turns until it is dropped. -/
def step : Action L Route → Option (Manager L Route)
  | .configurationChange change =>
    if s.running then some (s.configurationChange change) else none
  | .routeConfigurationChange change =>
    if s.running then some { s with routes := s.routes++[change] } else none
  | .channelsClosed => if s.running then some s.exit else none
  | .bind i bound =>
    match s.listeners[i]? with
    | some task =>
      if task.phase = .spawned then
        some { s with listeners :=
          s.listeners.set i { task with phase := if bound then .running else .unbound } }
      else none
    | none => none
  | .poll i connection tickets =>
    match s.listeners[i]? with
    | some task =>
      if task.phase = .running then
        some { s with listeners := s.listeners.set i (s.turn task connection tickets) }
      else none
    | none => none
  | .cancel i =>
    match s.listeners[i]? with
    | some task =>
      if task.aborted then
        some { s with listeners := s.listeners.set i { task with phase := .ended } }
      else none
    | none => none

end Manager

end

namespace Manager

/-- More messages wait for a listener than the channel it takes from keeps. -/
def Lags (s : Manager L Route) (task : ListenerTask L Route) : Prop :=
  task.routeNext+capacity < s.routes.length ∨
    s.routes.length ≤ task.routeNext ∧ task.secretNext+capacity < s.secrets.length

/-- A listener that the manager has does not lag when it takes a message. -/
def KeepsUp (s : Manager L Route) : Action L Route → Prop
  | .poll i connection _ => ∀ name task, s.listenerHandles name = some i →
      s.listeners[i]? = some task → connection = false → ¬ s.Lags task
  | _ => True

/-- No listener that the manager has is ended. -/
def StaysRunning (s : Manager L Route) : Prop :=
  ∀ name k task, s.listenerHandles name = some k → s.listeners[k]? = some task → task.phase ≠ .ended

/-- The filter chains of a listener reflect all changes since its start. -/
structure UpToDate (s : Manager L Route) (task : ListenerTask L Route) : Prop where
  received : task.received.map Prod.fst = s.secrets.drop task.secretStart
  length : task.filterChains.length = task.built.length
  tls : ∀ (j : ℕ) (built chain : FilterchainType L Route), task.built[j]? = some built → task.filterChains[j]? = some chain →
    (built.tlsConfigurator = none → chain.tlsConfigurator = none) ∧
    ∀ initial, built.tlsConfigurator = some initial →
      ∃ configurator, chain.tlsConfigurator = some configurator ∧
        Reflects initial configurator (task.received.map fun arrival => (arrival.1, arrival.2 j))
  routes : ∀ (j : ℕ) (built chain : FilterchainType L Route), task.built[j]? = some built → task.filterChains[j]? = some chain →
    ∀ id route, built.handler = .http (some id) route →
      chain.handler = .http (some id) (routeAfter id route (s.routes.drop task.routeStart))

/-- Every running listener without a pending message is up to date. -/
def Reflecting (s : Manager L Route) : Prop :=
  ∀ task ∈ s.listeners, task.phase = .running → s.routes.length ≤ task.routeNext →
    s.secrets.length ≤ task.secretNext → s.UpToDate task

/-- What a listener has done with the messages it has taken. -/
structure Follows (routes : List (RouteConfigurationChange Route))
    (secrets : List (TlsContextChange L)) (task : ListenerTask L Route) : Prop where
  routeStart : task.routeStart ≤ task.routeNext
  routeNext : task.routeNext ≤ routes.length
  secretStart : task.secretStart ≤ task.secretNext
  secretNext : task.secretNext ≤ secrets.length
  received : task.received.map Prod.fst = taken secrets task.secretStart task.secretNext
  filterChains : task.filterChains =
    chainsAfter task.built (taken routes task.routeStart task.routeNext) task.received

/-- All listeners follow the channels, and those that the manager has are not aborted. -/
structure Sound (s : Manager L Route) : Prop where
  follows : ∀ task ∈ s.listeners, Follows s.routes s.secrets task
  held : ∀ name k, s.listenerHandles name = some k →
    ∃ task, s.listeners[k]? = some task ∧ task.name = name ∧ task.aborted = false
  closed : s.running = false → ∀ name, s.listenerHandles name = none

variable {s : Manager L Route} {task : ListenerTask L Route}

lemma Follows.append (h : Follows s.routes s.secrets task)
    (r : List (RouteConfigurationChange Route)) (se : List (TlsContextChange L)) :
    Follows (s.routes++r) (s.secrets++se) task where
  routeStart := h.routeStart
  routeNext := h.routeNext.trans (by simp)
  secretStart := h.secretStart
  secretNext := h.secretNext.trans (by simp)
  received := by rw [taken_append h.secretNext,h.received]
  filterChains := by rw [taken_append h.routeNext,h.filterChains]

lemma turn_rec {P : ListenerTask L Route → Prop} (hst : P task)
    (he : P { task with phase := .ended })
    (hro : ∀ ch, s.routes[task.routeNext]? = some ch → P { task with
      filterChains := processRouteUpdate task.filterChains ch
      routeNext := task.routeNext+1 }) (c : Bool)
    (ti : ℕ → Except String L.Ticketer)
    (hse : ∀ ch, s.secrets[task.secretNext]? = some ch → P { task with
      filterChains := processSecretUpdate task.filterChains ch ti
      received := task.received++[(ch, ti)]
      secretNext := task.secretNext+1 }) :
    P (s.turn task c ti) := by
  cases c with
  | true => exact hst
  | false =>
    rw [turn,if_neg Bool.false_ne_true]
    split
    case h_1 ch next hr =>
      obtain ⟨hc,rfl⟩ := recv_eq_message hr
      exact hro ch hc
    case h_2 => exact he
    case h_3 =>
      split
      case h_1 ch next hr =>
        obtain ⟨hc,rfl⟩ := recv_eq_message hr
        exact hse ch hc
      case h_2 => exact he
      case h_3 =>
        cases s.running with
        | true => exact hst
        | false => exact he

lemma turn_phase_eq_ended_iff (hru : s.running = true) (hp : task.phase = .running)
    (c : Bool) (ti : ℕ → Except String L.Ticketer) :
    (s.turn task c ti).phase = .ended ↔ c = false ∧ s.Lags task := by
  have hne : task.phase ≠ .ended := by
    rw [hp]
    decide
  cases c with
  | true => simp [turn,hne]
  | false =>
    rw [turn,Lags]
    by_cases hl : task.routeNext+capacity < s.routes.length
    · simp [recv_of_lt hl,hl]
    · cases hr : s.routes[task.routeNext]? with
      | some ch =>
        have hlt := (List.getElem?_eq_some_iff.mp hr).1
        simp only [recv_of_le hr (Nat.le_of_not_lt hl)]
        simp [hl,hne,hlt]
      | none =>
        have hle := getElem?_eq_none_iff.mp hr
        simp only [recv_of_none hr]
        by_cases hse : task.secretNext+capacity < s.secrets.length
        · simp [recv_of_lt hse,hle,hse]
        · cases hsc : s.secrets[task.secretNext]? with
          | some ch =>
            simp [recv_of_le hsc (Nat.le_of_not_lt hse),hne,hl,hse]
          | none => simp [recv_of_none hsc,hru,hne,hl,hse]

section

variable (h : Follows s.routes s.secrets task)
include h

lemma Follows.setPhase (phase : Phase) : Follows s.routes s.secrets { task with phase } :=
  ⟨h.routeStart,h.routeNext,h.secretStart,h.secretNext,h.received,h.filterChains⟩

lemma Follows.setAborted (aborted : Bool) : Follows s.routes s.secrets { task with aborted } :=
  ⟨h.routeStart,h.routeNext,h.secretStart,h.secretNext,h.received,h.filterChains⟩

lemma Follows.turn (c : Bool) (ti : ℕ → Except String L.Ticketer) :
    Follows s.routes s.secrets (s.turn task c ti) :=
  turn_rec h (h.setPhase .ended)
    (fun _ hc => {
      routeStart := Nat.le_succ_of_le h.routeStart
      routeNext := (List.getElem?_eq_some_iff.mp hc).1
      secretStart := h.secretStart
      secretNext := h.secretNext
      received := h.received
      filterChains := by
        rw [h.filterChains,processRouteUpdate_chainsAfter,taken_succ h.routeStart hc] })
    c ti fun _ hc => {
      routeStart := h.routeStart
      routeNext := h.routeNext
      secretStart := Nat.le_succ_of_le h.secretStart
      secretNext := (List.getElem?_eq_some_iff.mp hc).1
      received := by
        rw [map_append,h.received,taken_succ h.secretStart hc]
        rfl
      filterChains := by
        rw [h.filterChains,processSecretUpdate_chainsAfter] }

lemma Follows.upToDate (hro : s.routes.length ≤ task.routeNext)
    (hse : s.secrets.length ≤ task.secretNext) : s.UpToDate task := by
  have hr := h.received
  have hc := h.filterChains
  rw [taken_of_le hse] at hr
  rw [taken_of_le hro] at hc
  have hch : ∀ (j : ℕ) (b c : FilterchainType L Route), task.built[j]? = some b →
      task.filterChains[j]? = some c →
      c.tlsConfigurator = (b.tlsConfigurator.map fun it =>
        (task.received.map fun a => (a.1, a.2 j)).foldl receive it) ∧
      c.handler = (s.routes.drop task.routeStart).foldl ConnectionHandler.change b.handler := by
    intro j b c hb hj
    rw [hc,chainsAfter,getElem?_mapIdx,hb] at hj
    cases hj
    exact ⟨rfl,rfl⟩
  refine ⟨hr,?_,fun j b c hb hj => ⟨fun hn => ?_,fun it hso => ?_⟩,fun j b c hb hj id r hh => ?_⟩
  · rw [hc,chainsAfter,length_mapIdx]
  · rw [(hch j b c hb hj).1,hn]
    rfl
  · rw [(hch j b c hb hj).1,hso]
    exact ⟨_,rfl,reflects_foldl_receive it _⟩
  · rw [(hch j b c hb hj).2,hh,foldl_change_http]

end

variable {t : Manager L Route} {i : ℕ} {name n : String} {k : ℕ}

lemma getElem?_abort (l : List (ListenerTask L Route)) (handle : Option ℕ) (k : ℕ) :
    (abort l handle)[k]? = l[k]?.map fun task =>
      if handle = some k then { task with aborted := true } else task := by
  cases handle with
  | none => simp [abort]
  | some k => simp [abort,getElem?_modify]

section

variable (h : s.Sound)
include h

lemma Sound.follows_abort {handle : Option ℕ} (hm : task ∈ abort s.listeners handle) :
    Follows s.routes s.secrets task := by
  obtain ⟨k,hk⟩ := mem_iff_getElem?.mp hm
  rw [getElem?_abort] at hk
  obtain ⟨b,hb,rfl⟩ := map_eq_some_iff.mp hk
  have hf := h.follows b (mem_of_getElem? hb)
  split_ifs
  · exact hf.setAborted true
  · exact hf

lemma Sound.held_abort (hne : n ≠ name) (hk : s.listenerHandles n = some k) :
    ∃ task, s.listeners[k]? = some task ∧ task.name = n ∧ task.aborted = false ∧
      (abort s.listeners (s.listenerHandles name))[k]? = some task := by
  obtain ⟨task,ht,hn,ha⟩ := h.held n k hk
  have ho : s.listenerHandles name ≠ some k := by
    intro ho
    obtain ⟨task',ht',hn',-⟩ := h.held name k ho
    cases ht.symm.trans ht'
    exact hne (hn.symm.trans hn')
  refine ⟨task,ht,hn,ha,?_⟩
  rw [getElem?_abort,ht,map_some,if_neg ho]

lemma stopListener_held (hk : (s.stopListener name).listenerHandles n = some k) :
    ∃ task, s.listenerHandles n = some k ∧ s.listeners[k]? = some task ∧ task.name = n ∧
      task.aborted = false ∧ (s.stopListener name).listeners[k]? = some task := by
  have hk : update s.listenerHandles name none n = some k := hk
  rw [update_apply] at hk
  split_ifs at hk with hn
  obtain ⟨task,ht⟩ := h.held_abort hn hk
  exact ⟨task,hk,ht⟩

lemma startListener_held {c : List (FilterchainType L Route)}
    (hk : (s.startListener name c).listenerHandles n = some k) :
    (n = name ∧ (s.startListener name c).listeners[k]? = some (s.newTask name c)) ∨
    ∃ task, s.listenerHandles n = some k ∧ s.listeners[k]? = some task ∧ task.name = n ∧
      task.aborted = false ∧ (s.startListener name c).listeners[k]? = some task := by
  have hk : update s.listenerHandles name (some s.listeners.length) n = some k := hk
  rw [update_apply] at hk
  have hl : (abort s.listeners (s.listenerHandles name)).length = s.listeners.length := by
    cases s.listenerHandles name with
    | none => rfl
    | some k => exact length_modify ..
  split_ifs at hk with hn
  · obtain rfl : s.listeners.length = k := some.inj hk
    refine .inl ⟨hn,?_⟩
    dsimp only [startListener]
    rw [← hl,getElem?_concat_length]
  · obtain ⟨task,ht,hna,hab,ha⟩ := h.held_abort hn hk
    refine .inr ⟨task,hk,ht,hna,hab,?_⟩
    dsimp only [startListener]
    rw [getElem?_append_left,ha]
    exact (List.getElem?_eq_some_iff.mp ha).1

lemma Sound.startListener (hr : s.running = true) (na : String)
    (c : List (FilterchainType L Route)) : (s.startListener na c).Sound where
  follows task ht := by
    rcases mem_append.mp ht with ht | ht
    · exact h.follows_abort ht
    · rw [mem_singleton.mp ht]
      refine ⟨le_rfl,le_rfl,le_rfl,le_rfl,(taken_self ..).symm,?_⟩
      dsimp only [newTask]
      rw [taken_self,chainsAfter_nil]
  held n k hk := by
    rcases startListener_held h hk with ⟨rfl,hk⟩ | ⟨task,-,-,hn,ha,hk⟩
    · exact ⟨_,hk,rfl,rfl⟩
    · exact ⟨task,hk,hn,ha⟩
  closed hc := by
    rw [show s.running = false from hc] at hr
    cases hr

lemma Sound.stopListener (na : String) : (s.stopListener na).Sound where
  follows _ ht := h.follows_abort ht
  held n k hk := by
    obtain ⟨task,-,-,hn,ha,hk⟩ := stopListener_held h hk
    exact ⟨task,hk,hn,ha⟩
  closed hc n := by
    dsimp only [Manager.stopListener]
    rw [update_apply,h.closed hc n,ite_self]

lemma Sound.exit : s.exit.Sound where
  follows task ht := by
    obtain ⟨b,hb,rfl⟩ := mem_map.mp ht
    exact (h.follows b hb).setAborted true
  held _ _ hk := by cases hk
  closed _ _ := rfl

lemma Sound.append (routes : List (RouteConfigurationChange Route))
    (secrets : List (TlsContextChange L)) :
    Sound { s with routes := s.routes++routes, secrets := s.secrets++secrets } where
  follows task ht := (h.follows task ht).append routes secrets
  held := h.held
  closed := h.closed

lemma Sound.set (hi : s.listeners[i]? = some task) {a : ListenerTask L Route}
    (hf : Follows s.routes s.secrets a) (hna : a.name = task.name ∧ a.aborted = task.aborted) :
    Sound { s with listeners := s.listeners.set i a } where
  follows task' ht := by
    rcases mem_or_eq_of_mem_set ht with hm | rfl
    · exact h.follows task' hm
    · exact hf
  held n k hk := by
    obtain ⟨task',ht,hn,ha⟩ := h.held n k hk
    by_cases hik : i = k
    · subst hik
      cases hi.symm.trans ht
      have hlt := (List.getElem?_eq_some_iff.mp hi).1
      exact ⟨a,getElem?_set_self hlt,hna.1.trans hn,hna.2.trans ha⟩
    · exact ⟨task',(getElem?_set_ne hik).trans ht,hn,ha⟩
  closed := h.closed

end

variable {a : Action L Route}

/-- What a step can do: the manager takes a change or returns, or a task is
replaced by the task after its step. -/
lemma step_cases (h : s.step a = some t) :
    (∃ ch, s.running = true ∧ a = .configurationChange ch ∧ t = s.configurationChange ch) ∨
    (∃ ch, a = .routeConfigurationChange ch ∧ t = { s with routes := s.routes++[ch] }) ∨
    (a = .channelsClosed ∧ t = s.exit) ∨
    ∃ i task af, s.listeners[i]? = some task ∧ t = { s with listeners := s.listeners.set i af } ∧
      (a = .bind i true ∧ task.phase = .spawned ∧ af = { task with phase := .running } ∨
       a = .bind i false ∧ task.phase = .spawned ∧ af = { task with phase := .unbound } ∨
       (∃ c tickets, a = .poll i c tickets ∧ task.phase = .running ∧ af = s.turn task c tickets) ∨
       a = .cancel i ∧ task.aborted = true ∧ af = { task with phase := .ended }) := by
  revert h
  fun_cases s.step a <;> intro h <;> cases h
  next ch hr => exact .inl ⟨ch,hr,rfl,rfl⟩
  next ch _ => exact .inr (.inl ⟨ch,rfl,rfl⟩)
  · exact .inr (.inr (.inl ⟨rfl,rfl⟩))
  next i b task hi hp =>
    refine .inr (.inr (.inr ⟨i,task,_,hi,rfl,?_⟩))
    cases b with
    | true => exact .inl ⟨rfl,hp,rfl⟩
    | false => exact .inr (.inl ⟨rfl,hp,rfl⟩)
  next i c tickets task hi hp =>
    exact .inr (.inr (.inr ⟨i,task,_,hi,rfl,.inr (.inr (.inl ⟨c,tickets,rfl,hp,rfl⟩))⟩))
  next i task hi ha =>
    exact .inr (.inr (.inr ⟨i,task,_,hi,rfl,.inr (.inr (.inr ⟨rfl,ha,rfl⟩))⟩))

lemma sound_step (h : s.Sound) (hst : s.step a = some t) : t.Sound := by
  rcases step_cases hst with ⟨ch,hr,-,rfl⟩ | ⟨ch,-,rfl⟩ | ⟨-,rfl⟩ | ⟨i,task,after,hi,rfl,ha⟩
  · cases ch with
    | added f =>
      rw [Manager.configurationChange]
      cases f.intoListener with
      | ok ch => exact h.startListener hr f.name ch
      | error e => exact h.exit
    | removed l => exact h.stopListener l
    | tlsContextChanged c => simpa [Manager.configurationChange] using h.append [] [c]
    | getConfiguration => exact h
  · simpa using h.append [ch] []
  · exact h.exit
  · have hf := h.follows task (mem_of_getElem? hi)
    rcases ha with ⟨-,-,rfl⟩ | ⟨-,-,rfl⟩ | ⟨c,tickets,-,-,rfl⟩ | ⟨-,-,rfl⟩
    · exact h.set hi (hf.setPhase .running) ⟨rfl,rfl⟩
    · exact h.set hi (hf.setPhase .unbound) ⟨rfl,rfl⟩
    · exact h.set hi (hf.turn c tickets) (turn_rec
        (P := fun a => a.name = task.name ∧ a.aborted = task.aborted) ⟨rfl,rfl⟩ ⟨rfl,rfl⟩
        (fun _ _ => ⟨rfl,rfl⟩) c tickets fun _ _ => ⟨rfl,rfl⟩)
    · exact h.set hi (hf.setPhase .ended) ⟨rfl,rfl⟩

lemma Sound.running_of_held (h : s.Sound) (hk : s.listenerHandles name = some k) :
    s.running = true := by
  cases hr : s.running with
  | true => rfl
  | false =>
    rw [h.closed hr name] at hk
    cases hk

lemma Sound.reflecting (h : s.Sound) : s.Reflecting :=
  fun task ht _ hr hse => (h.follows task ht).upToDate hr hse

lemma StaysRunning.configurationChange (h : s.Sound) (hr : s.StaysRunning)
    (c : ListenerConfigurationChange L Route) : (s.configurationChange c).StaysRunning := by
  cases c with
  | added f =>
    rw [Manager.configurationChange]
    cases f.intoListener with
    | error e => exact fun _ _ _ hk => by cases hk
    | ok ch =>
      intro name k task hk ht
      rcases startListener_held h hk with ⟨-,hn⟩ | ⟨old,ho,hg,-,-,hsa⟩
      · rw [some.inj (ht.symm.trans hn)]
        exact nofun
      · rw [some.inj (ht.symm.trans hsa)]
        exact hr name k old ho hg
  | removed l =>
    intro name k task hk ht
    obtain ⟨old,ho,hg,-,-,hsa⟩ := stopListener_held h hk
    rw [some.inj (ht.symm.trans hsa)]
    exact hr name k old ho hg
  | tlsContextChanged c | getConfiguration => exact hr

lemma staysRunning_set (hr : s.StaysRunning) (hi : s.listeners[i]? = some task)
    (a : ListenerTask L Route) : StaysRunning { s with listeners := s.listeners.set i a } ↔
      ∀ name, s.listenerHandles name = some i → a.phase ≠ .ended := by
  have hlt := (List.getElem?_eq_some_iff.mp hi).1
  constructor
  · intro h name hn
    exact h name i a hn (getElem?_set_self hlt)
  · intro h name k t' hk ht
    by_cases hik : i = k
    · subst hik
      rw [some.inj (ht.symm.trans (getElem?_set_self hlt))]
      exact h name hk
    · exact hr name k t' hk ((getElem?_set_ne hik).symm.trans ht)

lemma staysRunning_step (h : s.Sound) (hr : s.StaysRunning)
    (hst : s.step a = some t) : t.StaysRunning ↔ s.KeepsUp a := by
  rcases step_cases hst with ⟨ch,-,rfl,rfl⟩ | ⟨ch,rfl,rfl⟩ | ⟨rfl,rfl⟩ | ⟨i,task,after,hi,rfl,ha⟩
  · exact iff_of_true (hr.configurationChange h ch) trivial
  · exact iff_of_true hr trivial
  · exact iff_of_true (fun _ _ _ hk => by cases hk) trivial
  · rw [staysRunning_set hr hi]
    rcases ha with ⟨rfl,-,rfl⟩ | ⟨rfl,-,rfl⟩ | ⟨c,tickets,rfl,hp,rfl⟩ | ⟨rfl,hab,rfl⟩
    · exact iff_of_true (fun _ _ => nofun) trivial
    · exact iff_of_true (fun _ _ => nofun) trivial
    · have hl : ∀ name, s.listenerHandles name = some i →
          ((s.turn task c tickets).phase = .ended ↔ c = false ∧ s.Lags task) :=
        fun name hn => turn_phase_eq_ended_iff (h.running_of_held hn) hp ..
      constructor
      · intro ha name task' hn ht hc hla
        cases hi.symm.trans ht
        exact ha name hn ((hl name hn).mpr ⟨hc,hla⟩)
      · intro hke name hn he
        obtain ⟨hc,hla⟩ := (hl name hn).mp he
        exact hke name task hn hi hc hla
    · refine iff_of_true (fun name hn => ?_) trivial
      obtain ⟨task',ht,-,hh⟩ := h.held name i hn
      rw [← some.inj (hi.symm.trans ht),hab] at hh
      cases hh

lemma sound_initial : ({} : Manager L Route).Sound where
  follows _ ht := by cases ht
  held _ _ hk := by cases hk
  closed _ _ := rfl

/-- Listeners keep running until they are removed or replaced or the manager
ends, in exactly the runs in which none of them takes a message when more than
sixteen wait for it. In all runs, a listener with no pending message has in force
the last valid update of every secret and the last change of every route since
it was started. -/
theorem listeners_stay_iff_keep_up (as : List (Action L Route)) (t : Manager L Route) :
    Throughout (fun s => s.StaysRunning ∧ s.Reflecting) (fun s a t => step s a = some t) {} as t ↔
      Run (Guarded KeepsUp fun s a t => step s a = some t) {} as t := by
  refine throughout_iff_guarded Sound (fun s a t h hst => sound_step h hst) ?_ sound_initial
    ⟨(fun _ _ _ hk => by cases hk),sound_initial.reflecting⟩
  intro s a t h hs hst
  rw [← staysRunning_step h hs.1 hst]
  exact and_iff_left (sound_step h hst).reflecting

/-- A listener that is not polled while seventeen changes of routes are sent ends
at its next turn, and the manager still has it. -/
theorem burst_ends_listener :
    ∃ s : Manager SecretUpdates.numberedLibrary ℕ, Run (fun s a t => step s a = some t) {}
        ([.configurationChange (.added
            { name := "a", filterChains := [{ mainFilter := .http (.rds "r"), tlsConfigurator := none }] }),
          .bind 0 true] ++
          List.replicate 17 (.routeConfigurationChange (.added "r" 0)) ++
          [.poll 0 false fun _ => .error ""]) s ∧
      s.running = true ∧ s.listenerHandles "a" = some 0 ∧ s.listeners.map (·.phase) = [.ended] :=
  ⟨_,Run.of_exec rfl,rfl,rfl,rfl⟩

end Manager

end ArionGateway.ListenersManager
