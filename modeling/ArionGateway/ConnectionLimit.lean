import ArionGateway.TaskCounters

/-!
# The connection limit filter

`check` reads the counter that all connections share, compares it with the limit, and adds to it
in a second atomic operation; the guard it returns subtracts again when it is dropped. The number
of guards stays within the limit exactly along the runs in which the counter is still below the
limit when a connection adds to it: nothing in `check` ensures this once other connections run
between its two operations.
-/
namespace ArionGateway.ConnectionLimit
open Executions TaskCounters Shared

structure NetworkConnectionLimit where
  maxConnections : BitVec 64
  delay : Option ℕ := none
  deriving DecidableEq

/-- Where a connection is: in its call of `check`, with a guard, or gone. -/
inductive Phase where
  | started
  | passed
  | sleeping
  | rejected
  | guarded
  | closed
  deriving DecidableEq

inductive Action where
  | accept
  | load (i : ℕ)
  | fetchAdd (i : ℕ)
  | wake (i : ℕ)
  | drop (i : ℕ)
  deriving DecidableEq

def Phase.live (p : Phase) : Bool := decide (p = .guarded)

namespace NetworkConnectionLimit

def check (self : NetworkConnectionLimit) (active : BitVec 64) : Except String Unit × BitVec 64 :=
  if self.maxConnections ≤ active then (.error "connection limit exceeded", active)
  else (.ok (), active+1)

def loaded (self : NetworkConnectionLimit) (current : BitVec 64) : Phase :=
  if self.maxConnections ≤ current then
    match self.delay with
    | some _ => .sleeping
    | none => .rejected
  else .passed

def step (self : NetworkConnectionLimit) (s : Shared 64 Phase) : Action → Option (Shared 64 Phase)
  | .accept => some (s.spawn .started)
  | .load i => s.whenAt i .started (s.goto i (self.loaded s.counter))
  | .fetchAdd i => s.whenAt i .passed (s.fetchAdd i .guarded)
  | .wake i => s.whenAt i .sleeping (s.goto i .rejected)
  | .drop i => s.whenAt i .guarded (s.fetchSub i .closed)

/-- The cap is kept exactly: there are at most `max_connections` guards and the
counter is their number. -/
structure Exact (limit : NetworkConnectionLimit) (s : Shared 64 Phase) : Prop where
  atMost : s.count Phase.live ≤ limit.maxConnections.toNat
  counted : s.counter.toNat = s.count Phase.live

/-- A connection adds to the counter only while the counter is below the limit. -/
def BelowLimit (self : NetworkConnectionLimit) (s : Shared 64 Phase) : Action → Prop
  | .fetchAdd _ => s.counter < self.maxConnections
  | _ => True

variable {self : NetworkConnectionLimit} {s t : Shared 64 Phase} {a : Action}

lemma loaded_not_live (current : BitVec 64) : (self.loaded current).live = false := by
  rw [loaded]
  split_ifs
  · cases self.delay <;> rfl
  · rfl

lemma step_cases (h : self.step s a = some t) :
    (∃ i, a = .fetchAdd i ∧ s.tasks[i]? = some .passed ∧ t = s.fetchAdd i .guarded) ∨
    (∃ i, a = .drop i ∧ s.tasks[i]? = some .guarded ∧ t = s.fetchSub i .closed) ∨
    (a = .accept ∧ t = s.spawn .started) ∨
    ∃ i p q, (a = .load i ∨ a = .wake i) ∧ s.tasks[i]? = some p ∧ p.live = false ∧
      q.live = false ∧ t = s.goto i q := by
  cases a with
  | accept => exact .inr (.inr (.inl ⟨rfl,(Option.some.inj h).symm⟩))
  | load i =>
    obtain ⟨hi,rfl⟩ := whenAt_eq_some h
    exact .inr (.inr (.inr ⟨i,_,_,.inl rfl,hi,rfl,loaded_not_live _,rfl⟩))
  | fetchAdd i =>
    obtain ⟨hi,rfl⟩ := whenAt_eq_some h
    exact .inl ⟨i,rfl,hi,rfl⟩
  | wake i =>
    obtain ⟨hi,rfl⟩ := whenAt_eq_some h
    exact .inr (.inr (.inr ⟨i,_,_,.inr rfl,hi,rfl,rfl,rfl⟩))
  | drop i =>
    obtain ⟨hi,rfl⟩ := whenAt_eq_some h
    exact .inr (.inl ⟨i,rfl,hi,rfl⟩)

lemma exact_initial : self.Exact {} := ⟨Nat.zero_le _,rfl⟩

lemma exact_step_iff (hs : self.Exact s) (h : self.step s a = some t) :
    self.Exact t ↔ self.BelowLimit s a := by
  obtain ⟨hm,hco⟩ := hs
  rcases step_cases h with ⟨i,rfl,hi,rfl⟩ | ⟨i,rfl,hi,rfl⟩ | ⟨rfl,rfl⟩ | ⟨i,p,q,ha,hi,hp,hq,rfl⟩
  · have hc : (s.fetchAdd i .guarded).count Phase.live = _ := count_fetchAdd hi rfl rfl
    constructor
    · intro he
      have hm := he.atMost
      rw [BelowLimit,BitVec.lt_def]
      omega
    · intro hb
      have hb : s.counter < self.maxConnections := hb
      refine ⟨by rw [hc]; bv_omega,?_⟩
      change (s.counter+1).toNat = _
      bv_omega
  · have hc : (s.fetchSub i .closed).count Phase.live+1 = _ := count_fetchSub hi rfl rfl
    refine iff_of_true ⟨by omega,?_⟩ trivial
    change (s.counter - 1).toNat = _
    bv_omega
  · refine iff_of_true ?_ trivial
    constructor
    · rw [count_spawn rfl]
      exact hm
    · rw [count_spawn rfl]
      exact hco
  · have hc : (s.goto i q).count Phase.live = _ := count_goto hi (hq.trans hp.symm)
    refine iff_of_true ⟨?_,?_⟩ ?_
    · rw [hc]
      exact hm
    · rw [hc]
      exact hco
    · rcases ha with rfl | rfl <;> trivial

/-- The cap is kept throughout a run if and only if no connection adds to the
counter at the limit. -/
theorem cap_exact_iff_adds_below_limit (self : NetworkConnectionLimit) (as : List Action)
    (s : Shared 64 Phase) :
    Throughout self.Exact (fun s a t => self.step s a = some t) {} as s ↔
      Run (Guarded self.BelowLimit fun s a t => self.step s a = some t) {} as s := by
  refine throughout_iff_guarded (fun _ => True) (fun _ _ _ _ _ => trivial) ?_ trivial exact_initial
  intro s a t _ hs h
  exact exact_step_iff hs h

/-- Two connections read the counter before either of them adds to it: a limit
of one connection lets both in. -/
theorem two_guards_at_limit_one :
    ∃ s, Run (fun s a t => NetworkConnectionLimit.step ⟨1, none⟩ s a = some t) {}
        [.accept, .accept, .load 0, .load 1, .fetchAdd 0, .fetchAdd 1] s ∧ s.count Phase.live = 2 :=
  ⟨⟨2,[.guarded,.guarded]⟩,Run.of_exec (by decide),by decide⟩

/-- The steps of a call of `check` by connection `i` that reads `active`. -/
def checkActions (self : NetworkConnectionLimit) (active : BitVec 64) (i : ℕ) : List Action :=
  .load i::match self.loaded active with
    | .passed => [.fetchAdd i]
    | .sleeping => [.wake i]
    | _ => []

lemma exec_checkActions {i : ℕ} (hi : s.tasks[i]? = some .started) :
    exec self.step s (self.checkActions s.counter i) = some ⟨(self.check s.counter).2,s.tasks.set i
        (if (self.check s.counter).1.isOk then .guarded else .rejected)⟩ := by
  have hl : ∀ p, s.goto i p = ⟨s.counter,s.tasks.set i p⟩ := fun _ => rfl
  rw [checkActions,exec,step,whenAt_of_eq hi,Option.bind_some,hl,loaded,check]
  by_cases hm : self.maxConnections ≤ s.counter
  · rw [if_pos hm,if_pos hm]
    cases self.delay with
    | none => rfl
    | some d =>
      rw [exec,step,whenAt_set hi,goto,List.set_set]
      rfl
  · rw [if_neg hm,if_neg hm]
    rw [exec,step,whenAt_set hi,fetchAdd,List.set_set]
    rfl

/-- A connection arrives, goes, or makes a call of `check` that nothing interrupts. -/
def Whole (self : NetworkConnectionLimit) (s : Shared 64 Phase) (as : List Action) : Prop :=
  (∃ i, as = self.checkActions s.counter i) ∨ as = [.accept] ∨ ∃ i, as = [.drop i]

end NetworkConnectionLimit

end ArionGateway.ConnectionLimit
