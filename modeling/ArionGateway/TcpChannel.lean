import ArionGateway.ConnectionAttempts

/-!
# `TcpChannelConnector::connect`

On its first poll the future asks the circuit breaker for a connection. Once the TCP connection is
there, a callback on the drop of the base stream calls `decrement_connections`; until then only
the error branch at the end of the future does. When the PROXY header or a TLS handshake fails
afterwards, both are called. When the future is dropped while the TCP connection is pending,
neither of them runs.
-/
namespace ArionGateway.TcpChannel
open CircuitBreaker ConnectionAttempts Executions

inductive UpstreamTransportSocketConfigurator where
  | tls
  | proxyProtocol (innerTls : Bool)
  | none
  deriving DecidableEq

/-- What happens on the stream after the TCP connect. -/
inductive Stage where
  | proxyHeader
  | tls
  deriving DecidableEq

/-- The transport socket, and whether there is metadata of the downstream
connection. -/
structure ConnectConfig where
  transportSocket : UpstreamTransportSocketConfigurator
  connectionMetadata : Bool
  deriving DecidableEq

def ConnectConfig.stages (self : ConnectConfig) : List Stage :=
  match self.transportSocket with
  | .tls => [.tls]
  | .proxyProtocol innerTls =>
    (if self.connectionMetadata then [.proxyHeader] else [])++if innerTls then [.tls] else []
  | .none => []

inductive Phase where
  | created (stages : List Stage)
  | connecting (stages : List Stage)
  | wrapping (stage : Stage) (rest : List Stage)
  | returned
  | gone
  deriving DecidableEq

inductive Event where
  | poll
  | connected (ok : Bool)
  | wrapped (ok : Bool)
  | dropFuture
  | dropStream
  deriving DecidableEq

/-- The stream goes through its remaining stages. -/
def Phase.proceed : List Stage → Phase
  | [] => .returned
  | stage::rest => .wrapping stage rest

def dropFnCalls : ℕ := 1

def errorBranchCalls : ℕ := 1

/-- A denied admission returns before anything is remembered for the error
branch. -/
def next : Phase → Event → Option (Move Phase)
  | .created stages, .poll => some (.acquire (.connecting stages) .gone)
  | .created _, .dropFuture => some (.release 0 .gone)
  | .connecting stages, .poll => some (.release 0 (.connecting stages))
  | .connecting stages, .connected true => some (.release 0 (.proceed stages))
  | .connecting _, .connected false => some (.release errorBranchCalls .gone)
  | .connecting _, .dropFuture => some (.release 0 .gone)
  | .wrapping stage rest, .poll => some (.release 0 (.wrapping stage rest))
  | .wrapping _ rest, .wrapped true => some (.release 0 (.proceed rest))
  | .wrapping _ _, .wrapped false => some (.release (dropFnCalls+errorBranchCalls) .gone)
  | .wrapping _ _, .dropFuture => some (.release dropFnCalls .gone)
  | .returned, .dropStream => some (.release dropFnCalls .gone)
  | _, _ => none

def live : Phase → Bool
  | .created _ => false
  | .connecting _ => true
  | .wrapping _ _ => true
  | .returned => true
  | .gone => false

lemma live_proceed (stages : List Stage) : live (.proceed stages) = true := by
  cases stages with
  | nil | cons stage rest => rfl

def connect : Protocol ConnectConfig Phase Event where
  start config := .created config.stages
  next := next
  live := live
  start_not_live _ := rfl
  acquire_live := by
    intro p e g d h
    rw [next.eq_def] at h
    split at h <;> cases h
    exact ⟨rfl,rfl,rfl⟩
  release_live := by
    intro p e n q h hq
    rw [next.eq_def] at h
    split at h <;> cases h
    all_goals first
      | exact ⟨rfl,rfl⟩
      | cases hq

/-- The events that end an attempt with the right number of calls: not a failure
of the PROXY header or of TLS, and not the drop of the future during the TCP
connect. -/
def EndsWell : Phase → Event → Prop
  | .connecting _, .dropFuture => False
  | .wrapping _ _, .wrapped false => False
  | _, _ => True

lemma endsExactly_iff (p : Phase) (e : Event) : connect.EndsExactly p e ↔ EndsWell p e := by
  constructor
  · intro h
    rw [EndsWell.eq_def]
    split
    · exact absurd (h 0 .gone rfl rfl) (by simp [connect,live])
    · exact absurd (h 2 .gone rfl rfl) (by simp [connect,live])
    · trivial
  · intro h n q hn hq
    change next p e = some (.release n q) at hn
    rw [next.eq_def] at hn
    split at hn <;> cases hn
    all_goals first
      | rfl
      | exact h.elim
      | cases hq
      | cases (live_proceed _).symm.trans hq

/-- Any number of attempts, interleaved in any way and each ending as it should:
no attempt calls `decrement_connections` more often than it was admitted, an
attempt that is gone has called it as often, and `active_connections` is the
number of live attempts and streams. Any other ending breaks the first part. -/
theorem decrements_of_clean_run {thresholds : CircuitBreakerThresholds}
    {ops : List (Op ConnectConfig Event)} {s : System Phase}
    (hrun : Run (Guarded (System.Only EndsWell) fun s op t => s.step connect op = some t)
      (.initial thresholds) ops s) :
    (∀ a ∈ s.attempts, a.released ≤ a.acquired ∧ (live a.phase = false → a.released = a.acquired)) ∧
    s.activeConnections.toNat = s.liveAttempts connect ∧ ∀ op t, s.step connect op = some t →
      ((∀ a ∈ t.attempts, a.Settled connect) ↔ s.Only EndsWell op) := by
  obtain ⟨hl,hst⟩ := run_spec endsExactly_iff hrun
  exact ⟨settled_of_lawful hl,hl.counted,hst⟩

def failedHandshake : List (Op ConnectConfig Event) :=
  [.begin ⟨.tls,false⟩,.act 0 .poll,.act 0 (.connected true),.act 0 (.wrapped false)]

theorem failedHandshake_decrements_twice : ∃ s a,
    Run (fun s op t => System.step connect s op = some t) (.initial {}) failedHandshake s ∧
      s.attempts = [a] ∧ a.phase = .gone ∧ a.acquired = 1 ∧ a.released = 2 ∧
      s.activeConnections.toNat = 2 ^ 32 - 1 :=
  ⟨_,_,.of_exec rfl,rfl,rfl,rfl,rfl,by decide⟩

def mixedAttempts : List (Op ConnectConfig Event) :=
  [.begin ⟨.tls,false⟩,.begin ⟨.proxyProtocol true,true⟩,.act 0 .poll,.act 1 .poll,
    .act 1 (.connected true),.act 0 (.connected false),.act 1 (.wrapped true),
    .act 1 (.wrapped true)]

theorem mixedAttempts_counted : ∃ s : System Phase,
    s.activeConnections.toNat = 1 ∧ s.liveAttempts connect = 1 ∧
      ∀ a ∈ s.attempts, a.released ≤ a.acquired ∧
        (live a.phase = false → a.released = a.acquired) := by
  have hr : ∃ s, s.liveAttempts connect = 1 ∧
      Run (Guarded (System.Only EndsWell) fun s op t => System.step connect s op = some t)
        (.initial {}) mixedAttempts s := by
    refine ⟨_,?_,.cons ⟨trivial,rfl⟩ (.cons ⟨trivial,rfl⟩ (.cons ⟨?_,rfl⟩ (.cons ⟨?_,rfl⟩
      (.cons ⟨?_,rfl⟩ (.cons ⟨?_,rfl⟩ (.cons ⟨?_,rfl⟩ (.cons ⟨?_,rfl⟩ (.nil _))))))))⟩
    · rfl
    all_goals
      intro a ha
      cases ha
      trivial
  obtain ⟨s,hl,hr⟩ := hr
  obtain ⟨hse,hc,-⟩ := decrements_of_clean_run hr
  exact ⟨s,hc.trans hl,hl,hse⟩

end ArionGateway.TcpChannel
