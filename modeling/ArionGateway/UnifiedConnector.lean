import ArionGateway.ConnectionAttempts

/-!
# `UnifiedConnector::call`

`call` over a socket connector asks the circuit breaker before it returns a
future. The future gives the connection back when the connect fails; when it
succeeds, a callback on the drop of the stream does. A future that is dropped
before it has an answer, not yet polled or in the middle of the connect, gives
nothing back.

The connect itself, with its name resolution and its timeout, succeeds or fails
as the events of a run say.
-/
namespace ArionGateway.UnifiedConnector
open CircuitBreaker ConnectionAttempts Executions

/-- A call that was not admitted gives a future that only returns an error. -/
inductive Phase where
  | idle
  | refused
  | unpolled
  | connecting
  | connected
  | gone
  deriving DecidableEq

inductive Event where
  | call
  | poll
  | connected (ok : Bool)
  | dropFuture
  | dropConnection
  deriving DecidableEq

/-- The future of an established connection may be dropped without effect. -/
def next : Phase → Event → Option (Move Phase)
  | .idle, .call => some (.acquire .unpolled .refused)
  | .refused, .poll => some (.release 0 .gone)
  | .refused, .dropFuture => some (.release 0 .gone)
  | .unpolled, .poll => some (.release 0 .connecting)
  | .unpolled, .dropFuture => some (.release 0 .gone)
  | .connecting, .poll => some (.release 0 .connecting)
  | .connecting, .connected true => some (.release 0 .connected)
  | .connecting, .connected false => some (.release 1 .gone)
  | .connecting, .dropFuture => some (.release 0 .gone)
  | .connected, .dropFuture => some (.release 0 .connected)
  | .connected, .dropConnection => some (.release 1 .gone)
  | _, _ => none

def live : Phase → Bool
  | .idle => false
  | .refused => false
  | .unpolled => true
  | .connecting => true
  | .connected => true
  | .gone => false

def call : Protocol Unit Phase Event where
  start _ := .idle
  next := next
  live := live
  start_not_live _ := rfl
  acquire_live := by
    intro p e g d h
    rw [next.eq_def] at h
    split at h <;> cases h
    exact ⟨rfl,rfl,rfl⟩
  release_live := by
    intro p e n q h hq
    rw [next.eq_def] at h
    split at h <;> cases h
    all_goals first
      | exact ⟨rfl,rfl⟩
      | cases hq

/-- The events that end an attempt with the right number of calls: not the drop
of a future that was admitted and has no answer yet. -/
def NotCancelled : Phase → Event → Prop
  | .unpolled, .dropFuture => False
  | .connecting, .dropFuture => False
  | _, _ => True

lemma endsExactly_iff (p : Phase) (e : Event) : call.EndsExactly p e ↔ NotCancelled p e := by
  constructor
  · intro h
    rw [NotCancelled.eq_def]
    split
    · exact absurd (h 0 .gone rfl rfl) (by decide)
    · exact absurd (h 0 .gone rfl rfl) (by decide)
    · trivial
  · intro h n q hn hq
    change next p e = some (.release n q) at hn
    rw [next.eq_def] at hn
    split at hn <;> cases hn
    all_goals first
      | rfl
      | exact h.elim
      | cases hq

lemma acquired_le_one {guard : System Phase → Op Unit Event → Prop}
    {thresholds : CircuitBreakerThresholds} {ops : List (Op Unit Event)} {s : System Phase}
    (hr : Run (Guarded guard fun s op t => s.step call op = some t) (.initial thresholds) ops s) :
    ∀ a ∈ s.attempts, a.acquired ≤ 1 ∧ (a.phase = .idle → a.acquired = 0) := by
  refine attempts_run (fun _ => ⟨Nat.zero_le 1,fun _ => rfl⟩) ?_ ?_ hr
  · intro a e g d hJ hn
    change next a.phase e = some (.acquire g d) at hn
    rw [next.eq_def] at hn
    split at hn <;> cases hn
    rename_i hi
    have hz := hJ.2 hi
    exact ⟨⟨by simp [hz],nofun⟩,⟨hJ.1,fun _ => hz⟩⟩
  · intro a e n p hJ hn
    refine ⟨hJ.1,fun hp => ?_⟩
    change next a.phase e = some (.release n p) at hn
    rw [next.eq_def] at hn
    split at hn <;> cases hn <;> cases hp

/-- Any number of calls, interleaved in any way, without cancellation of a
pending future: an attempt that is over has given its connection back exactly
once, or never if it was not admitted, `active_connections` is the number of
pending connects and live connections, and a call is admitted exactly while
these are fewer than `max_connections`. A cancellation breaks the first part. -/
theorem connections_returned_unless_cancelled {thresholds : CircuitBreakerThresholds}
    {ops : List (Op Unit Event)} {s : System Phase}
    (hrun : Run (Guarded (System.Only NotCancelled) fun s op t => s.step call op = some t)
      (.initial thresholds) ops s) :
    (∀ a ∈ s.attempts, a.acquired ≤ 1 ∧ a.released ≤ a.acquired ∧
      (live a.phase = false → a.released = a.acquired)) ∧
    s.activeConnections.toNat = s.liveAttempts call ∧
    ((s.counters.tryIncrement .connections s.thresholds).1 = .ok () ↔
      s.liveAttempts call < s.thresholds.maxConnections.toNat) ∧ ∀ op t, s.step call op = some t →
      ((∀ a ∈ t.attempts, a.Settled call) ↔ s.Only NotCancelled op) := by
  obtain ⟨hl,hst⟩ := run_spec endsExactly_iff hrun
  refine ⟨fun a ha => ⟨?_,settled_of_lawful hl a ha⟩,hl.counted,admitted_iff hl,hst⟩
  exact (acquired_le_one hrun a ha).1

def cancelledCall : List (Op Unit Event) :=
  [.begin (),.act 0 .call,.act 0 .poll,.act 0 .dropFuture,.begin (),.act 1 .call]

theorem cancelledCall_leaks : ∃ s, Run (fun s op t => System.step call s op = some t)
      (.initial { maxConnections := 1 }) cancelledCall s ∧
      s.attempts = [⟨.gone, 1, 0⟩, ⟨.refused, 0, 0⟩] ∧ s.activeConnections.toNat = 1 ∧
      s.liveAttempts call = 0 :=
  ⟨_,.of_exec rfl,rfl,by decide,rfl⟩

def finishedCalls : List (Op Unit Event) :=
  [.begin (),.act 0 .call,.act 0 .poll,.act 0 (.connected false),.begin (),.act 1 .call,
    .act 1 .poll,.act 1 (.connected true),.act 1 .dropFuture]

theorem finishedCalls_returned : ∃ s : System Phase,
    s.activeConnections.toNat = 1 ∧ s.liveAttempts call = 1 ∧
      ∀ a ∈ s.attempts, a.acquired ≤ 1 ∧ a.released ≤ a.acquired ∧
        (live a.phase = false → a.released = a.acquired) := by
  have hr : ∃ s, s.liveAttempts call = 1 ∧
      Run (Guarded (System.Only NotCancelled) fun s op t => System.step call s op = some t)
        (.initial { maxConnections := 1 }) finishedCalls s := by
    refine ⟨_,?_,.cons ⟨trivial,rfl⟩ (.cons ⟨?_,rfl⟩ (.cons ⟨?_,rfl⟩ (.cons ⟨?_,rfl⟩
      (.cons ⟨trivial,rfl⟩ (.cons ⟨?_,rfl⟩ (.cons ⟨?_,rfl⟩ (.cons ⟨?_,rfl⟩
        (.cons ⟨?_,rfl⟩ (.nil _)))))))))⟩
    · rfl
    all_goals
      intro a ha
      cases ha
      trivial
  obtain ⟨s,hl,hr⟩ := hr
  obtain ⟨hse,hc,-⟩ := connections_returned_unless_cancelled hr
  exact ⟨s,hc.trans hl,hl,hse⟩

end ArionGateway.UnifiedConnector
