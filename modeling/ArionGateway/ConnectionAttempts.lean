import ArionGateway.CircuitBreaker
import ArionGateway.Executions
import ArionGateway.FirstMatch

/-!
# Connection attempts behind one circuit breaker

Any number of connection attempts share the counter of active connections of a cluster. An event
of an attempt asks for admission, or calls `decrement_connections` a number of times. Along runs
in which an attempt that ends gives back exactly what it holds, the counter is the number of live
attempts; an ending that gives back too little or too much breaks this at once.
-/
namespace ArionGateway.ConnectionAttempts
open CircuitBreaker Executions List

inductive Move (P : Type) where
  | acquire (granted denied : P)
  | release (n : ℕ) (p : P)

/-- The phases of an attempt of configuration `C`. Only an ending can give back
a number of connections that differs from what the attempt holds. -/
structure Protocol (C P E : Type) where
  start : C → P
  next : P → E → Option (Move P)
  live : P → Bool
  start_not_live : ∀ c, live (start c) = false
  acquire_live : ∀ {p e g d}, next p e = some (.acquire g d) →
    live p = false ∧ live g = true ∧ live d = false
  release_live : ∀ {p e n q}, next p e = some (.release n q) → live q = true → live p = true ∧ n = 0

/-- An attempt with the numbers of its successful `try_increment_connections`
and of its `decrement_connections`. -/
structure Attempt (P : Type) where
  phase : P
  acquired : ℕ := 0
  released : ℕ := 0

structure System (P : Type) where
  thresholds : CircuitBreakerThresholds
  counters : CircuitBreakerCounters
  attempts : List (Attempt P)

inductive Op (C E : Type) where
  | begin (c : C)
  | act (i : ℕ) (e : E)

def decrements (counters : CircuitBreakerCounters) : ℕ → CircuitBreakerCounters
  | 0 => counters
  | n+1 => (decrements counters n).fetchSub .connections

def System.activeConnections {P : Type} (s : System P) : BitVec 32 := s.counters.get .connections

variable {C P E : Type} (π : Protocol C P E) {s : System P} {thresholds : CircuitBreakerThresholds}
  {t : System P} {op : Op C E} {ops : List (Op C E)}

def System.step (s : System P) : Op C E → Option (System P)
  | .begin c => some { s with attempts := s.attempts++[{ phase := π.start c }] }
  | .act i e =>
    match s.attempts[i]? with
    | none => none
    | some a =>
      match π.next a.phase e with
      | none => none
      | some (.acquire granted denied) =>
        match s.counters.tryIncrement .connections s.thresholds with
        | (.ok (), counters) =>
          some { s with
            counters
            attempts := s.attempts.set i ⟨granted,a.acquired+1,a.released⟩ }
        | (.error _, counters) =>
          some { s with
            counters
            attempts := s.attempts.set i ⟨denied,a.acquired,a.released⟩ }
      | some (.release n p) =>
        some { s with
          counters := decrements s.counters n
          attempts := s.attempts.set i ⟨p,a.acquired,a.released+n⟩ }

def System.initial (thresholds : CircuitBreakerThresholds) : System P := ⟨thresholds,{},[]⟩

def System.liveAttempts (s : System P) : ℕ := s.attempts.countP fun a => π.live a.phase

/-- An attempt never gives back more than it has taken, and has given back all of
it once it and its stream are gone. -/
def Attempt.Settled (a : Attempt P) : Prop :=
  a.released ≤ a.acquired ∧ (π.live a.phase = false → a.released = a.acquired)

/-- Every attempt holds what it has taken and not given back, and the counter is
what all of them hold. -/
structure System.Lawful (s : System P) : Prop where
  account : ∀ a ∈ s.attempts, a.acquired = a.released+(π.live a.phase).toNat
  counted : s.activeConnections.toNat = s.liveAttempts π

/-- An event that ends an attempt gives back what the attempt holds. -/
def Protocol.EndsExactly (p : P) (e : E) : Prop :=
  ∀ n q, π.next p e = some (.release n q) → π.live q = false → n = (π.live p).toNat

def System.Only (good : P → E → Prop) (s : System P) : Op C E → Prop
  | .begin _ => True
  | .act i e => ∀ a, s.attempts[i]? = some a → good a.phase e

lemma step_cases (h : s.step π op = some t) :
    (∃ c, op = .begin c ∧ t = { s with attempts := s.attempts++[{ phase := π.start c }] }) ∨
    ∃ i e a, op = .act i e ∧ s.attempts[i]? = some a ∧
      ((∃ g d, π.next a.phase e = some (.acquire g d) ∧
        (t = { s with attempts := s.attempts.set i ⟨d,a.acquired,a.released⟩ } ∨
          s.activeConnections < s.thresholds.maxConnections ∧ t = { s with
            counters := s.counters.fetchAdd .connections
            attempts := s.attempts.set i ⟨g,a.acquired+1,a.released⟩ })) ∨
      ∃ n p, π.next a.phase e = some (.release n p) ∧ t = { s with
          counters := decrements s.counters n
          attempts := s.attempts.set i ⟨p,a.acquired,a.released+n⟩ }) := by
  cases op with
  | begin c => exact .inl ⟨c,rfl,(Option.some.inj h).symm⟩
  | act i e =>
    right
    rw [System.step] at h
    split at h
    · cases h
    · rename_i a ha
      refine ⟨i,e,a,rfl,ha,?_⟩
      split at h
      · cases h
      · rename_i g d hn
        refine .inl ⟨g,d,hn,?_⟩
        rcases tryIncrement_cases s.counters .connections s.thresholds with hc | ⟨hc,hlt⟩
        · rw [hc] at h
          exact .inl (Option.some.inj h).symm
        · rw [hc] at h
          exact .inr ⟨hlt,(Option.some.inj h).symm⟩
      · rename_i n p hn
        exact .inr ⟨n,p,hn,(Option.some.inj h).symm⟩

lemma get_decrements (c : CircuitBreakerCounters) (n : ℕ) (h : n ≤ (c.get .connections).toNat) :
    ((decrements c n).get .connections).toNat = (c.get .connections).toNat - n := by
  induction n with
  | zero => rfl
  | succ n ih =>
    have hp := ih (by omega)
    rw [decrements,get_fetchSub _ _ _ fun _ => by omega,if_pos rfl]
    omega

variable {π}

section

variable (h : s.Lawful π)
include h

lemma lawful_set {i : ℕ} {a b : Attempt P} (ha : s.attempts[i]? = some a)
    (hb : b.acquired = b.released+(π.live b.phase).toNat) {counters : CircuitBreakerCounters}
    (hcn : (counters.get .connections).toNat+(π.live a.phase).toNat =
      s.activeConnections.toNat+(π.live b.phase).toNat) :
    System.Lawful π ⟨s.thresholds,counters,s.attempts.set i b⟩ := by
  constructor
  · intro c hc
    rcases mem_or_eq_of_mem_set hc with hc | rfl
    · exact h.account c hc
    · exact hb
  · have hse := FirstMatch.countP_set_add (fun a => π.live a.phase) ha b
    have hco := h.counted
    rw [System.liveAttempts] at hco
    change (counters.get .connections).toNat = (s.attempts.set i b).countP fun a => π.live a.phase
    omega

lemma lawful_begin (c : C) :
    System.Lawful π { s with attempts := s.attempts++[{ phase := π.start c }] } := by
  have hst := π.start_not_live c
  constructor
  · intro a ha
    rcases mem_append.mp ha with ha | ha
    · exact h.account a ha
    · rw [mem_singleton.mp ha,hst]
      rfl
  · have hc := h.counted
    rw [System.liveAttempts] at hc ⊢
    rw [countP_append,countP_singleton,hst]
    exact hc

lemma lawful_step (hst : s.step π op = some t) (he : s.Only π.EndsExactly op) : t.Lawful π := by
  rcases step_cases π hst with ⟨c,rfl,rfl⟩ | ⟨i,e,a,rfl,ha,hm⟩
  · exact lawful_begin h c
  · have hac := h.account a (mem_of_getElem? ha)
    rcases hm with ⟨g,d,hnx,rfl | ⟨hlt,rfl⟩⟩ | ⟨n,p,hnx,rfl⟩
    · obtain ⟨hp,-,hd⟩ := π.acquire_live hnx
      refine lawful_set h ha ?_ ?_
      · rw [hac,hp,hd]
      · rw [hp,hd]
        rfl
    · obtain ⟨hp,hg,-⟩ := π.acquire_live hnx
      refine lawful_set h ha ?_ ?_
      · rw [hac,hp,hg]
        rfl
      · rw [get_fetchAdd hlt,hp,hg]
        rfl
    · have hle := FirstMatch.toNat_le_countP (fun a => π.live a.phase) (mem_of_getElem? ha)
      rw [← System.liveAttempts,← h.counted] at hle
      have hb : n+(π.live p).toNat = (π.live a.phase).toNat := by
        cases hp : π.live p with
        | false => exact he a ha n p hnx hp
        | true =>
          obtain ⟨hl,hn⟩ := π.release_live hnx hp
          rw [hl,hn,zero_add]
      refine lawful_set h ha ?_ ?_
      · dsimp only
        omega
      · have hn : n ≤ s.activeConnections.toNat := by omega
        rw [get_decrements s.counters n hn]
        change s.activeConnections.toNat - n+(π.live a.phase).toNat =
          s.activeConnections.toNat+(π.live p).toNat
        omega

lemma settled_of_lawful : ∀ a ∈ s.attempts, a.Settled π := by
  intro a ha
  have hac := h.account a ha
  refine ⟨by omega,fun hl => ?_⟩
  rw [hac,hl]
  rfl

lemma settled_step_iff (hst : s.step π op = some t) :
    (∀ a ∈ t.attempts, a.Settled π) ↔ s.Only π.EndsExactly op := by
  refine ⟨fun hse => ?_,fun he => settled_of_lawful (lawful_step h hst he)⟩
  rcases step_cases π hst with ⟨c,rfl,rfl⟩ | ⟨i,e,a,rfl,ha,hm⟩
  · trivial
  · intro a' ha' n p hnx hl
    cases ha.symm.trans ha'
    rcases hm with ⟨g,d,hn,-⟩ | ⟨n',p',hn,rfl⟩
    · rw [hnx] at hn
      cases hn
    · rw [hnx] at hn
      cases hn
      obtain ⟨hi,-⟩ := List.getElem?_eq_some_iff.mp ha
      have hme : (⟨p,a.acquired,a.released+n⟩ : Attempt P) ∈
          s.attempts.set i ⟨p,a.acquired,a.released+n⟩ := mem_set hi _
      have hr := (hse _ hme).2 hl
      have hac := h.account a (mem_of_getElem? ha)
      dsimp only at hr
      omega

end

lemma run_spec {good : P → E → Prop} (hg : ∀ p e, π.EndsExactly p e ↔ good p e)
    (hr : Run (Guarded (System.Only good) fun s op t => s.step π op = some t)
      (.initial thresholds) ops s) : s.Lawful π ∧ ∀ op t, s.step π op = some t →
      ((∀ a ∈ t.attempts, a.Settled π) ↔ s.Only good op) := by
  have hc : π.EndsExactly = good := by
    funext p e
    exact propext (hg p e)
  subst hc
  have hl : s.Lawful π := by
    refine hr.invariant (System.Lawful π) (fun s op t hs hst => ?_) ⟨nofun,rfl⟩
    exact lawful_step hs hst.2 hst.1
  exact ⟨hl,fun op t hst => settled_step_iff hl hst⟩

lemma attempts_run {gu : System P → Op C E → Prop} {J : Attempt P → Prop}
    (hst : ∀ c, J { phase := π.start c })
    (hac : ∀ a e g d, J a → π.next a.phase e = some (.acquire g d) →
      J ⟨g,a.acquired+1,a.released⟩ ∧ J ⟨d,a.acquired,a.released⟩)
    (hr : ∀ a e n p, J a → π.next a.phase e = some (.release n p) → J ⟨p,a.acquired,a.released+n⟩)
    (hru : Run (Guarded gu fun s op t => s.step π op = some t) (.initial thresholds) ops s) :
    ∀ a ∈ s.attempts, J a := by
  have hse : ∀ {s : System P} {i : ℕ} {b : Attempt P}, (∀ a ∈ s.attempts, J a) → J b →
      ∀ a ∈ s.attempts.set i b, J a := by
    intro s i b hs hb a ha
    rcases mem_or_eq_of_mem_set ha with ha | rfl
    · exact hs a ha
    · exact hb
  refine hru.invariant (fun s => ∀ a ∈ s.attempts, J a) (fun s op t hs hsp => ?_)
    fun a ha => absurd ha not_mem_nil
  rcases step_cases π hsp.2 with ⟨c,-,rfl⟩ | ⟨i,e,a,-,ha,hm⟩
  · intro a ha
    rcases mem_append.mp ha with ha | ha
    · exact hs a ha
    · rw [mem_singleton.mp ha]
      exact hst c
  · have hJ := hs a (mem_of_getElem? ha)
    rcases hm with ⟨g,d,hn,rfl | ⟨-,rfl⟩⟩ | ⟨n,p,hn,rfl⟩
    · exact hse hs (hac a e g d hJ hn).2
    · exact hse hs (hac a e g d hJ hn).1
    · exact hse hs (hr a e n p hJ hn)

lemma admitted_iff (h : s.Lawful π) :
    (s.counters.tryIncrement .connections s.thresholds).1 = .ok () ↔
      s.liveAttempts π < s.thresholds.maxConnections.toNat := by
  have hc := h.counted
  rw [System.activeConnections] at hc
  rw [CircuitBreakerCounters.tryIncrement]
  split_ifs with hm
  · refine iff_of_false (by simp) ?_
    have hm : s.thresholds.maxConnections ≤ s.counters.get .connections := hm
    bv_omega
  · refine iff_of_true rfl ?_
    have hm : ¬ s.thresholds.maxConnections ≤ s.counters.get .connections := hm
    bv_omega

end ArionGateway.ConnectionAttempts
