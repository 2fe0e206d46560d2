import ArionGateway.Executions
import ArionGateway.FirstMatch

/-!
# Pools of HTTP/2 connections

A pool hands out its connections to calls of `send`, and each connection counts the streams in
flight on it. The count is released when the request fails, when the response has no body, or by
the hook of the response body: at its end, at an error, or when it is dropped. The future of a
call may be dropped at any await point; a call that is dropped while its request is being sent
leaves its count behind. The counts are right exactly along the runs in which this does not happen
to a connection of the pool.
-/
namespace ArionGateway.Http2Pools
open Executions FirstMatch List Option

structure Settings where
  idleTimeout : ℕ := 0
  maxConcurrentStreams : Option (BitVec 32) := none
  deriving DecidableEq

structure H2Conn where
  closed : Bool := false
  inFlight : BitVec 32
  lastUsed : ℕ
  deriving DecidableEq

inductive Frame where
  | pending
  | data (endStream : Bool)
  | error
  | finished
  deriving DecidableEq

def Frame.ends : Frame → Bool
  | .pending | .data false => false
  | .data true | .error | .finished => true

/-- A response body, with whether its hook is still set and whether its stream has
ended. -/
structure OnEndBody where
  hook : Bool
  ended : Bool
  deriving DecidableEq

/-- `poll_frame`, with whether the hook runs. -/
def OnEndBody.pollFrame (self : OnEndBody) (frame : Frame) : OnEndBody × Bool :=
  let ended := self.ended || frame.ends
  if !self.hook then ({ self with ended }, false)
  else
    match frame with
    | .finished => (⟨false,ended⟩, true)
    | .data endStream => if endStream then (⟨false,ended⟩, true) else (⟨true,ended⟩, false)
    | .error => (⟨false,ended⟩, true)
    | .pending => (⟨true,ended⟩, false)

lemma OnEndBody.pollFrame_eq {b : OnEndBody} (h : b.hook = !b.ended) (f : Frame) : b.pollFrame f =
      if !b.ended && f.ends then (⟨false,true⟩, true) else (b, false) := by
  obtain ⟨ho,ended⟩ := b
  obtain rfl : ho = !ended := h
  rcases f with _ | (_ | _) | _ | _ <;> cases ended <;> rfl

/-- Where a call of `send` is: at one of its await points, with its response, or
gone. -/
inductive Call where
  | connecting
  | sending (conn : ℕ)
  | receiving (conn : ℕ) (body : OnEndBody)
  | finished
  deriving DecidableEq

/-- All connections that were ever opened, by which of them the pool holds, and the
calls. A connection is named by its place. -/
structure Pool where
  conns : List H2Conn := []
  pooled : List ℕ := []
  calls : List Call := []
  deriving DecidableEq

inductive Event where
  | start (now : ℕ)
  | connected (i now : ℕ)
  | connectFailed (i : ℕ)
  | responded (i : ℕ) (endStream : Bool)
  | sendFailed (i : ℕ)
  | polled (i : ℕ) (frame : Frame)
  | dropped (i : ℕ)
  | closed (conn : ℕ)
  | cleanup (now : ℕ)
  deriving DecidableEq

namespace Pool
variable (settings : Settings)

def hasCapacity (conn : H2Conn) : Bool :=
  (settings.maxConcurrentStreams.map fun max => conn.inFlight.ult max).getD true

variable (self : Pool)

def ready (c : ℕ) : Bool :=
  self.conns[c]?.any fun conn => !conn.closed && hasCapacity settings conn

def checkout : Option ℕ := self.pooled.find? (self.ready settings)

def fetchAdd (c now : ℕ) : Pool :=
  { self with conns := self.conns.modify c fun conn =>
      { conn with inFlight := conn.inFlight+1, lastUsed := now } }

def fetchSub (c : ℕ) : Pool :=
  { self with conns := self.conns.modify c fun conn => { conn with inFlight := conn.inFlight - 1 } }

def insert (now : ℕ) : Pool :=
  { self with
    conns := self.conns++[{ inFlight := 1, lastUsed := now }]
    pooled := self.pooled++[self.conns.length] }

def goto (i : ℕ) (call : Call) : Pool := { self with calls := self.calls.set i call }

def spawn (call : Call) : Pool := { self with calls := self.calls++[call] }

def kept (now c : ℕ) : Bool :=
  self.conns[c]?.any fun conn =>
    if conn.closed then false
    else if 0 < conn.inFlight.toNat then true
    else now - conn.lastUsed ≤ settings.idleTimeout

def cleanupExpired (now : ℕ) : Pool :=
  { self with pooled := self.pooled.filter (self.kept settings now) }

def released (c : ℕ) (hook : Bool) : Pool := if hook then self.fetchSub c else self

def next : Event → Option Pool
  | .start now =>
    match self.checkout settings with
    | some c => some ((self.fetchAdd c now).spawn (.sending c))
    | none => some (self.spawn .connecting)
  | .connected i now =>
    match self.calls[i]? with
    | some .connecting => some ((self.insert now).goto i (.sending self.conns.length))
    | _ => none
  | .connectFailed i =>
    match self.calls[i]? with
    | some .connecting => some (self.goto i .finished)
    | _ => none
  | .responded i endStream =>
    match self.calls[i]? with
    | some (.sending c) =>
      if endStream then some ((self.fetchSub c).goto i .finished)
      else some (self.goto i (.receiving c ⟨true,false⟩))
    | _ => none
  | .sendFailed i =>
    match self.calls[i]? with
    | some (.sending c) => some ((self.fetchSub c).goto i .finished)
    | _ => none
  | .polled i frame =>
    match self.calls[i]? with
    | some (.receiving c body) =>
      let (body, hookRuns) := body.pollFrame frame
      some ((self.released c hookRuns).goto i (.receiving c body))
    | _ => none
  | .dropped i =>
    match self.calls[i]? with
    | some .connecting => some (self.goto i .finished)
    -- the count is an `Arc<AtomicU32>`: dropping it subtracts nothing
    | some (.sending _) => some (self.goto i .finished)
    | some (.receiving c body) => some ((self.released c body.hook).goto i .finished)
    | _ => none
  | .closed c =>
    some { self with conns := self.conns.modify c fun conn => { conn with closed := true } }
  | .cleanup now => some (self.cleanupExpired settings now)

def Step (s : Pool) (e : Event) (t : Pool) : Prop := s.next settings e = some t

end Pool

def Call.holds (c : ℕ) : Call → Bool
  | .sending conn => conn = c
  | .receiving conn body => conn = c && !body.ended
  | .connecting | .finished => false

open Call

/-- The hook of a call's body is set as long as the stream goes on. -/
def Call.Hooked (call : Call) : Prop :=
  ∀ c body, call = .receiving c body → body.hook = !body.ended

namespace Pool

def live (s : Pool) (c : ℕ) : ℕ := s.calls.countP (Call.holds c)

def inFlight (s : Pool) (c : ℕ) : ℕ := (s.conns[c]?.map fun conn => conn.inFlight.toNat).getD 0

def isClosed (s : Pool) (c : ℕ) : Bool := s.conns[c]?.any H2Conn.closed

/-- The counts are right: they are the numbers of live streams for the connections
of the pool, a release never finds zero, the maximum is kept, and the cleaner takes
no connection for idle that has a live stream. -/
structure Sound (settings : Settings) (s : Pool) : Prop where
  counted : ∀ c ∈ s.pooled, s.inFlight c = s.live c
  covered : ∀ c, s.live c ≤ s.inFlight c
  bounded : ∀ c ∈ s.pooled, ∀ max, settings.maxConcurrentStreams = some max →
    s.inFlight c ≤ max.toNat
  idle : ∀ now, ∀ c ∈ s.pooled, c ∉ (s.cleanupExpired settings now).pooled →
    s.isClosed c = false → s.live c = 0

/-- What holds in every run: names are names of connections, and a hook is set as
long as its stream has not ended. -/
structure WellFormed (s : Pool) : Prop where
  pooled_lt : ∀ c ∈ s.pooled, c < s.conns.length
  holder_lt : ∀ call ∈ s.calls, ∀ c, call.holds c = true → c < s.conns.length
  hooked : ∀ call ∈ s.calls, call.Hooked

variable {s : Pool} {c : ℕ}

lemma Sound.of_counted {se : Settings} (hco : ∀ c ∈ s.pooled, s.inFlight c = s.live c)
    (hcv : ∀ c, s.live c ≤ s.inFlight c)
    (hb : ∀ c ∈ s.pooled, ∀ max, se.maxConcurrentStreams = some max →
      s.inFlight c ≤ max.toNat) : s.Sound se where
  counted := hco
  covered := hcv
  bounded := hb
  idle now c hc hr ho := by
    rw [← hco c hc]
    by_contra hpos
    refine hr (mem_filter.mpr ⟨hc,?_⟩)
    rw [inFlight] at hpos
    rw [isClosed] at ho
    rw [kept]
    cases hcn : s.conns[c]? with
    | none => simp [hcn] at hpos
    | some co =>
      rw [hcn] at hpos ho
      have hpos : 0 < co.inFlight.toNat := Nat.pos_of_ne_zero hpos
      have ho : co.closed = false := ho
      simp [ho,hpos]

lemma live_goto {i : ℕ} {p : Call} (hp : s.calls[i]? = some p) (q : Call) (c : ℕ) :
    (s.goto i q).live c+(p.holds c).toNat = s.live c+(q.holds c).toNat :=
  countP_set_add (holds c) hp q

lemma live_spawn (q : Call) (c : ℕ) : (s.spawn q).live c = s.live c+(q.holds c).toNat := by
  rw [live,spawn,countP_append,countP_singleton]
  cases q.holds c <;> rfl

lemma inFlight_modify {f : H2Conn → H2Conn} {c' : ℕ} :
    inFlight { s with conns := s.conns.modify c f } c' = (s.conns[c']?.map fun co =>
        (if c = c' then f co else co).inFlight.toNat).getD 0 := by
  rw [inFlight,getElem?_modify]
  cases s.conns[c']? with
  | none => rfl
  | some co => by_cases h : c = c' <;> simp [h]

lemma inFlight_fetchSub (hc : 0 < s.inFlight c) : (s.fetchSub c).inFlight c+1 = s.inFlight c := by
  rw [fetchSub,inFlight_modify]
  rw [inFlight] at hc ⊢
  cases hco : s.conns[c]? with
  | none => simp [hco] at hc
  | some co =>
    rw [hco] at hc
    have hpos : 0 < co.inFlight.toNat := hc
    have ho : (1 : BitVec 32).toNat = 1 := rfl
    simp only [map_some,getD_some,if_true,BitVec.toNat_sub]
    omega

lemma inFlight_insert (now c : ℕ) :
    (s.insert now).inFlight c = if c = s.conns.length then 1 else s.inFlight c := by
  rw [inFlight,insert,inFlight]
  split_ifs with h
  · rw [h,getElem?_concat_length]
    rfl
  · rcases lt_or_gt_of_ne h with hlt | hgt
    · rw [getElem?_append_left hlt]
    · rw [getElem?_eq_none (by rw [length_append,length_singleton]; omega),
        getElem?_eq_none (by omega)]

variable {settings : Settings} {s t : Pool} {i c : ℕ} {p q : Call}

lemma sound_goto (h : s.Sound settings) (hp : s.calls[i]? = some p)
    (hh : ∀ c, q.holds c = p.holds c) : (s.goto i q).Sound settings := by
  have hl : ∀ c, (s.goto i q).live c = s.live c := by
    intro c
    have hg := live_goto hp q c
    rw [hh c] at hg
    exact add_right_cancel hg
  refine .of_counted (fun c hc => ?_) (fun c => ?_) h.bounded
  · rw [hl]
    exact h.counted c hc
  · rw [hl]
    exact h.covered c

/-- Counts that were right stay right if they are so for the one connection that a
step changes. -/
lemma Sound.update (h : s.Sound settings) (hl : ∀ c', c' ≠ c → t.live c' = s.live c')
    (hc : ∀ c', c' ≠ c → t.inFlight c' = s.inFlight c')
    (hp : ∀ c' ∈ t.pooled, c' ≠ c → c' ∈ s.pooled)
    (hco : c ∈ t.pooled → t.inFlight c = t.live c) (hcv : t.live c ≤ t.inFlight c)
    (hb : c ∈ t.pooled → ∀ max, settings.maxConcurrentStreams = some max →
      t.inFlight c ≤ max.toNat) : t.Sound settings := by
  refine .of_counted (fun c' hc' => ?_) (fun c' => ?_) (fun c' hc' => ?_)
  · by_cases hne : c' = c
    · exact hne ▸ hco (hne ▸ hc')
    · rw [hc c' hne,hl c' hne]
      exact h.counted c' (hp c' hc' hne)
  · by_cases hne : c' = c
    · exact hne ▸ hcv
    · rw [hc c' hne,hl c' hne]
      exact h.covered c'
  · by_cases hne : c' = c
    · exact hne ▸ hb (hne ▸ hc')
    · rw [hc c' hne]
      exact h.bounded c' (hp c' hc' hne)

lemma live_leave (hp : s.calls[i]? = some p) (hh : ∀ c', p.holds c' = (sending c).holds c')
    (hq : ∀ c', q.holds c' = false) : (s.goto i q).live c+1 = s.live c ∧
      ∀ c', c' ≠ c → (s.goto i q).live c' = s.live c' := by
  have hl : ∀ c', (s.goto i q).live c' + ((sending c).holds c').toNat = s.live c' := by
    intro c'
    have hg := live_goto (s := s) hp q c'
    rwa [hh,hq] at hg
  constructor
  · simpa [holds] using hl c
  · intro c' hne
    simpa [holds,hne.symm] using hl c'

lemma sound_release (h : s.Sound settings) (hp : s.calls[i]? = some p)
    (hh : ∀ c', p.holds c' = (sending c).holds c') (hq : ∀ c', q.holds c' = false) :
    ((s.fetchSub c).goto i q).Sound settings := by
  have hl : ((s.fetchSub c).goto i q).live c+1 = s.live c := (live_leave hp hh hq).1
  have hco := h.covered c
  have hse : ((s.fetchSub c).goto i q).inFlight c+1 = s.inFlight c := inFlight_fetchSub (by omega)
  refine h.update (c := c) (live_leave hp hh hq).2 (fun c' hne => ?_)
    (fun c' hc' _ => hc') (fun hc => ?_) (by omega) (fun hc max hm => ?_)
  · change (s.fetchSub c).inFlight c' = _
    rw [fetchSub,inFlight_modify,inFlight]
    simp [hne.symm]
  · have hcn := h.counted c hc
    omega
  · have hb := h.bounded c hc max hm
    omega

lemma sound_abandon (h : s.Sound settings) (hp : s.calls[i]? = some (.sending c)) :
    (s.goto i .finished).Sound settings ↔ c ∉ s.pooled := by
  obtain ⟨hl,hot⟩ := live_leave hp (fun _ => rfl) (q := .finished) fun _ => rfl
  have hsa : (s.goto i .finished).inFlight c = s.inFlight c := rfl
  constructor
  · intro hso hc
    have ha := hso.counted c hc
    have hb := h.counted c hc
    omega
  · intro hc
    have hco := h.covered c
    exact h.update hot (fun c' _ => rfl) (fun c' hc' _ => hc')
      (fun hm => absurd hm hc) (by omega) (fun hm => absurd hm hc)

lemma checkout_eq_some (h : s.checkout settings = some c) : c ∈ s.pooled ∧ c < s.conns.length ∧
      ∀ max, settings.maxConcurrentStreams = some max → s.inFlight c < max.toNat := by
  have hr := find?_some h
  obtain ⟨co,hc,hr⟩ := (any_eq_true _ _).mp hr
  refine ⟨List.mem_of_find?_eq_some h,(List.getElem?_eq_some_iff.mp hc).1,fun max hm => ?_⟩
  rw [hasCapacity,hm] at hr
  have hu : co.inFlight.ult max = true := (Bool.and_eq_true_iff.mp hr).2
  rw [inFlight,hc]
  exact BitVec.ult_iff_lt.mp hu

lemma sound_checkout (h : s.Sound settings) (hc : s.checkout settings = some c) (now : ℕ) :
    ((s.fetchAdd c now).spawn (.sending c)).Sound settings ↔ s.live c+1 < 2^32 := by
  obtain ⟨hp,hlt,hm⟩ := checkout_eq_some hc
  have hb := h.counted c hp
  have hadd : ((s.fetchAdd c now).spawn (.sending c)).inFlight c = (s.live c+1) % 2^32 := by
    change (s.fetchAdd c now).inFlight c = _
    rw [← hb,fetchAdd,inFlight_modify,inFlight,getElem?_eq_getElem hlt]
    simp [BitVec.toNat_add]
  have hl : ∀ c', ((s.fetchAdd c now).spawn (.sending c)).live c' =
      s.live c' + ((sending c).holds c').toNat := fun c' => live_spawn _ c'
  have hlive_self : ((s.fetchAdd c now).spawn (.sending c)).live c = s.live c+1 := by
    simp [hl,holds]
  constructor
  · intro hso
    have ha := hso.counted c hp
    rw [hadd,hlive_self] at ha
    rw [← ha]
    exact Nat.mod_lt _ (by decide)
  · intro hf
    rw [Nat.mod_eq_of_lt hf] at hadd
    refine h.update (fun c' hne => ?_) (fun c' hne => ?_)
      (fun c' hc' _ => hc') (fun _ => hadd.trans hlive_self.symm) (by omega)
      (fun _ max hsm => ?_)
    · simp [hl,holds,hne.symm]
    · change (s.fetchAdd c now).inFlight c' = _
      rw [fetchAdd,inFlight_modify,inFlight]
      simp [hne.symm]
    · have := hm max hsm
      omega

lemma live_eq_zero (hs : s.WellFormed) : s.live s.conns.length = 0 := by
  rw [live,countP_eq_zero]
  intro ca hc hh
  exact absurd (hs.holder_lt ca hc _ hh) (lt_irrefl _)

lemma sound_connected (hs : s.WellFormed) (h : s.Sound settings)
    (hp : s.calls[i]? = some .connecting) (now : ℕ) :
    ((s.insert now).goto i (.sending s.conns.length)).Sound settings ↔
      settings.maxConcurrentStreams ≠ some 0 := by
  set n := s.conns.length with hn
  have hl : ∀ c', ((s.insert now).goto i (.sending n)).live c' =
      s.live c' + ((sending n).holds c').toNat := by
    intro c'
    exact live_goto (s := s.insert now) hp (.sending n) c'
  have hlive_self : ((s.insert now).goto i (.sending n)).live n = 1 := by
    rw [hl,live_eq_zero hs]
    simp [holds]
  have hse : ((s.insert now).goto i (.sending n)).inFlight n = 1 :=
    (inFlight_insert now n).trans (if_pos rfl)
  constructor
  · intro hso hz
    have hle := hso.bounded n (mem_append_right _ (mem_singleton_self _)) 0 hz
    rw [hse] at hle
    exact nomatch hle
  · intro hm
    refine h.update (fun c' hne => ?_)
      (fun c' hne => (inFlight_insert now c').trans (if_neg hne)) (fun c' hc' hne => ?_)
      (fun _ => hse.trans hlive_self.symm) (hlive_self.trans hse.symm).le
      (fun _ max hsm => ?_)
    · simp [hl,holds,Ne.symm (hn ▸ hne)]
    · exact (mem_append.mp hc').resolve_right fun hme => hne (mem_singleton.mp hme)
    · rw [hse]
      refine Nat.pos_of_ne_zero fun hz => hm ?_
      rw [hsm,BitVec.eq_of_toNat_eq (y := 0) hz]

lemma sound_closed (h : s.Sound settings) (c : ℕ) : Sound settings
      { s with conns := s.conns.modify c fun co => { co with closed := true } } := by
  have hsa : ∀ c', inFlight
      { s with conns := s.conns.modify c fun co => { co with closed := true } } c' =
      s.inFlight c' := by
    intro c'
    rw [inFlight_modify,inFlight]
    cases s.conns[c']? with
    | none => rfl
    | some co => by_cases heq : c = c' <;> simp [heq]
  refine .of_counted (fun c' hc' => ?_) (fun c' => ?_) (fun c' hc' max hm => ?_)
  · rw [hsa]
    exact h.counted c' hc'
  · rw [hsa]
    exact h.covered c'
  · rw [hsa]
    exact h.bounded c' hc' max hm

/-- A step leaves the counts right: no call is dropped while it sends on a connection
of the pool. A connection is opened only if streams are allowed at all, and the
streams on one connection are fewer than the counter can hold. -/
def Keeps (settings : Settings) (s : Pool) : Event → Prop
  | .start _ => ∀ c, s.checkout settings = some c → s.live c+1 < 2^32
  | .connected _ _ => settings.maxConcurrentStreams ≠ some 0
  | .dropped i => ∀ c, s.calls[i]? = some (.sending c) → c ∉ s.pooled
  | _ => True

/-- What a step can do. -/
inductive Move (settings : Settings) (s : Pool) : Event → Pool → Prop
  | reuse {c now : ℕ} (hc : s.checkout settings = some c) :
      Move settings s (.start now) ((s.fetchAdd c now).spawn (.sending c))
  | wait {now : ℕ} (hc : s.checkout settings = none) :
      Move settings s (.start now) (s.spawn .connecting)
  | connect {i now : ℕ} (hp : s.calls[i]? = some .connecting) :
      Move settings s (.connected i now) ((s.insert now).goto i (.sending s.conns.length))
  | pass {e : Event} {i : ℕ} {p q : Call} (hkeeps : s.Keeps settings e) (hp : s.calls[i]? = some p)
      (hholds : ∀ c, q.holds c = p.holds c) (hq : q.Hooked) : Move settings s e (s.goto i q)
  | release {e : Event} {i c : ℕ} {p q : Call} (hkeeps : s.Keeps settings e)
      (hp : s.calls[i]? = some p) (hholds : ∀ c', p.holds c' = (Call.sending c).holds c')
      (hq : ∀ c', q.holds c' = false) (hhooked : q.Hooked) :
      Move settings s e ((s.fetchSub c).goto i q)
  | abandon {i c : ℕ} (hp : s.calls[i]? = some (.sending c)) :
      Move settings s (.dropped i) (s.goto i .finished)
  | close (c : ℕ) :
      Move settings s (.closed c)
        { s with conns := s.conns.modify c fun conn => { conn with closed := true } }
  | cleanup (now : ℕ) : Move settings s (.cleanup now) (s.cleanupExpired settings now)

variable {e : Event}

lemma hooked_finished : finished.Hooked := nofun

section

variable (hs : s.WellFormed)
include hs

lemma move_of_step (h : s.Step settings e t) : Move settings s e t := by
  have hk : ∀ {i p}, s.calls[i]? = some p → (∀ c, p ≠ .sending c) →
      s.Keeps settings (.dropped i) := by
    intro i p hp hne c hc
    exact absurd (some.inj (hp.symm.trans hc)) (hne c)
  revert h
  unfold Step
  fun_cases s.next settings e <;> intro h <;> cases h
  · exact .reuse ‹_›
  · exact .wait ‹_›
  · exact .connect ‹_›
  next hp => exact .pass trivial hp (fun _ => rfl) hooked_finished
  next hp => exact .release trivial hp (fun _ => rfl) (fun _ => rfl) hooked_finished
  next hp _ =>
    refine .pass trivial hp (fun _ => Bool.and_true _) fun c b heq => ?_
    obtain ⟨-,rfl⟩ := receiving.inj heq
    rfl
  next hp => exact .release trivial hp (fun _ => rfl) (fun _ => rfl) hooked_finished
  next i f c b hp b' hr hpoll =>
    have hh := hs.hooked _ (mem_of_getElem? hp) c b rfl
    rw [OnEndBody.pollFrame_eq hh] at hpoll
    split_ifs at hpoll with hed <;> cases hpoll
    · -- the stream ends with this frame
      have he : b.ended = false := by simpa using (Bool.and_eq_true_iff.mp hed).1
      refine .release trivial hp (fun c' => ?_) (fun c' => ?_) fun c' b' heq => ?_
      · simp [holds,he]
      · simp [holds]
      · obtain ⟨-,rfl⟩ := receiving.inj heq
        rfl
    · refine .pass trivial hp (fun _ => rfl) fun c' b' heq => ?_
      obtain ⟨-,rfl⟩ := receiving.inj heq
      exact hh
  next hp => exact .pass (hk hp nofun) hp (fun _ => rfl) hooked_finished
  · exact .abandon ‹_›
  next i c b hp =>
    have hh := hs.hooked _ (mem_of_getElem? hp) c b rfl
    cases he : b.ended <;> rw [he] at hh <;> rw [hh]
    · exact .release (hk hp nofun) hp (fun c => by simp [holds,he]) (fun _ => rfl)
        hooked_finished
    · exact .pass (hk hp nofun) hp (fun c => by simp [holds,he]) hooked_finished
  · exact .close _
  · exact .cleanup _

lemma sound_iff_keeps (h : s.Sound settings) (hst : s.Step settings e t) :
    t.Sound settings ↔ s.Keeps settings e := by
  cases move_of_step hs hst with
  | reuse hc =>
    rw [sound_checkout h hc]
    refine ⟨fun hl c hc' => ?_,fun hk => hk _ hc⟩
    obtain rfl := some.inj (hc.symm.trans hc')
    exact hl
  | wait hc =>
    refine iff_of_true ?_ fun c hc' => ?_
    · refine .of_counted (fun c hm => ?_) (fun c => ?_) h.bounded
      · rw [live_spawn]
        exact h.counted c hm
      · rw [live_spawn]
        exact h.covered c
    · rw [hc] at hc'
      cases hc'
  | connect hp => exact sound_connected hs h hp _
  | pass hk hp hh hq => exact iff_of_true (sound_goto h hp hh) hk
  | release hk hp hh hq hho => exact iff_of_true (sound_release h hp hh hq) hk
  | abandon hp =>
    rw [sound_abandon h hp]
    refine ⟨fun hc c hp' => ?_,fun hk => hk _ hp⟩
    rw [hp] at hp'
    obtain rfl := sending.inj (some.inj hp')
    exact hc
  | close c => exact iff_of_true (sound_closed h c) trivial
  | cleanup now =>
    refine iff_of_true (.of_counted (fun c hc => ?_) h.covered fun c hc => ?_) trivial
    · exact h.counted c (mem_filter.mp hc).1
    · exact h.bounded c (mem_filter.mp hc).1

lemma wellFormed_goto {i : ℕ} {q : Call} (hq : ∀ c, q.holds c = true → c < s.conns.length)
    (hh : q.Hooked) : (s.goto i q).WellFormed where
  pooled_lt := hs.pooled_lt
  holder_lt call hc := by
    rcases mem_or_eq_of_mem_set hc with hm | rfl
    · exact hs.holder_lt call hm
    · exact hq
  hooked call hc := by
    rcases mem_or_eq_of_mem_set hc with hm | rfl
    · exact hs.hooked call hm
    · exact hh

lemma wellFormed_spawn {q : Call} (hq : ∀ c, q.holds c = true → c < s.conns.length)
    (hh : q.Hooked) : (s.spawn q).WellFormed where
  pooled_lt := hs.pooled_lt
  holder_lt call hc := by
    rcases mem_append.mp hc with hm | hn
    · exact hs.holder_lt call hm
    · obtain rfl := mem_singleton.mp hn
      exact hq
  hooked call hc := by
    rcases mem_append.mp hc with hm | hn
    · exact hs.hooked call hm
    · obtain rfl := mem_singleton.mp hn
      exact hh

lemma wellFormed_modify (c : ℕ) (f : H2Conn → H2Conn) :
    WellFormed { s with conns := s.conns.modify c f } where
  pooled_lt c' hc' := by
    rw [length_modify]
    exact hs.pooled_lt c' hc'
  holder_lt call hc c' hh := by
    rw [length_modify]
    exact hs.holder_lt call hc c' hh
  hooked := hs.hooked

lemma wellFormed_insert (now : ℕ) : (s.insert now).WellFormed where
  pooled_lt c hc := by
    rw [insert,length_append]
    rcases mem_append.mp hc with hm | hn
    · exact Nat.lt_succ_of_lt (hs.pooled_lt c hm)
    · rw [mem_singleton.mp hn]
      exact Nat.lt_succ_self _
  holder_lt call hca c hh := by
    rw [insert,length_append]
    exact Nat.lt_succ_of_lt (hs.holder_lt call hca c hh)
  hooked := hs.hooked

end

lemma hooked_sending (c : ℕ) : (sending c).Hooked := nofun

lemma wellFormed_step (hs : s.WellFormed) (hst : s.Step settings e t) : t.WellFormed := by
  cases move_of_step hs hst with
  | reuse hc =>
    refine wellFormed_spawn (wellFormed_modify hs ..) (fun c hh => ?_) (hooked_sending _)
    rw [length_modify,← of_decide_eq_true hh]
    exact (checkout_eq_some hc).2.1
  | wait hc => exact wellFormed_spawn hs nofun nofun
  | connect hp =>
    refine wellFormed_goto (wellFormed_insert hs _) (fun c hh => ?_) (hooked_sending _)
    rw [insert,length_append,← of_decide_eq_true hh]
    exact Nat.lt_succ_self _
  | pass hk hp hh hq =>
    refine wellFormed_goto hs (fun c hc => ?_) hq
    rw [hh] at hc
    exact hs.holder_lt _ (mem_of_getElem? hp) c hc
  | release hk hp hh hq hho =>
    refine wellFormed_goto (wellFormed_modify hs ..) (fun c hc => ?_) hho
    rw [hq] at hc
    cases hc
  | abandon hp => exact wellFormed_goto hs nofun hooked_finished
  | close c => exact wellFormed_modify hs c _
  | cleanup now =>
    exact ⟨fun c hc => hs.pooled_lt c (mem_filter.mp hc).1,hs.holder_lt,hs.hooked⟩

lemma sound_initial (settings : Settings) : ({} : Pool).Sound settings :=
  .of_counted nofun (fun _ => Nat.zero_le _) nofun

/-- The counts are right in every state of a run exactly if no step drops a call
while it sends on a connection of the pool, opens a connection where no stream is
allowed, or adds a stream beyond what the counter can hold. -/
theorem counts_right_iff (settings : Settings) (events : List Event) (t : Pool) :
    Throughout (Sound settings) (Step settings) {} events t ↔
      Run (Guarded (Keeps settings) (Step settings)) {} events t :=
  throughout_iff_guarded WellFormed
    (fun s e t hs (hst : s.Step settings e t) => wellFormed_step hs hst)
    (fun s e t hs h (hst : s.Step settings e t) => sound_iff_keeps hs h hst)
    ⟨nofun,nofun,nofun⟩ (sound_initial settings)

/-- A request that times out while it is sent leaves its count behind: the only
stream of the connection is taken for ever. -/
theorem count_left_behind :
    ∃ t, exec (next { maxConcurrentStreams := some 1 }) {} [.start 0, .connected 0 0, .dropped 0] =
        some t ∧ t.pooled = [0] ∧ t.live 0 = 0 ∧ t.inFlight 0 = 1 ∧
      checkout { maxConcurrentStreams := some 1 } t = none := by
  exact ⟨_,rfl,by decide,by decide,by decide,by decide⟩

end Pool

end ArionGateway.Http2Pools
