import ArionGateway.CircuitBreaker
import ArionGateway.TaskCounters

/-!
# Concurrent admissions by a circuit breaker

An admission adds to the counter and then compares the old value with the maximum; a caller that
is denied subtracts again in a second atomic operation, and until then the counter includes it. As
long as the 32-bit counter does not wrap, it is the number of admitted callers and of those about
to subtract again, no more callers than the maximum are admitted, and with no caller in between a
call is denied exactly when the maximum is admitted.
-/
namespace ArionGateway.RequestAdmissions
open CircuitBreaker Executions TaskCounters List Option Shared

/-- Where a caller is. A caller is in between after adding to the counter and
before subtracting again. -/
inductive Phase where
  | started
  | between
  | denied
  | admitted
  | released
  deriving DecidableEq

inductive Action where
  | call
  | fetchAdd (i : ℕ)
  | fetchSub (i : ℕ)
  | decrement (i : ℕ)
  deriving DecidableEq

def Phase.isAdmitted (p : Phase) : Bool := decide (p = .admitted)

def Phase.isBetween (p : Phase) : Bool := decide (p = .between)

/-- The callers the counter includes. -/
def Phase.counted (p : Phase) : Bool := p.isAdmitted || p.isBetween

open Phase (counted isAdmitted isBetween between started)

/-- The steps of callers for one counter of a breaker whose threshold is `max`. -/
def step (max : BitVec 32) (s : Shared 32 Phase) : Action → Option (Shared 32 Phase)
  | .call => some (s.spawn .started)
  | .fetchAdd i =>
    s.whenAt i .started (s.fetchAdd i (if max ≤ s.counter then .between else .admitted))
  | .fetchSub i => s.whenAt i .between (s.fetchSub i .denied)
  | .decrement i => s.whenAt i .admitted (s.fetchSub i .released)

/-- The breaker admits at most `max` callers, its counter includes the admitted
ones and those in between, and while none is in between it denies a call
exactly when `max` callers are admitted. -/
structure Exact (max : BitVec 32) (s : Shared 32 Phase) : Prop where
  atMost : s.count Phase.isAdmitted ≤ max.toNat
  counted : s.counter.toNat = s.count Phase.isAdmitted+s.count Phase.isBetween
  denies : s.count Phase.isBetween = 0 → ∀ i t, step max s (.fetchAdd i) = some t →
    (t.tasks[i]? = some .between ↔ s.count Phase.isAdmitted = max.toNat)

/-- A caller adds to the counter only if the counter can hold one more. -/
def Fits (s : Shared 32 Phase) : Action → Prop
  | .fetchAdd _ => s.count Phase.isAdmitted+s.count Phase.isBetween+1 < 2^32
  | _ => True

variable {max : BitVec 32} {s t : Shared 32 Phase} {a : Action}

lemma count_counted (s : Shared 32 Phase) :
    s.count counted = s.count isAdmitted+s.count isBetween := by
  obtain ⟨c,tasks⟩ := s
  induction tasks with
  | nil => rfl
  | cons p tasks ih =>
    simp only [Shared.count,countP_cons] at ih ⊢
    cases p <;> simp only [counted,isAdmitted,isBetween] <;> simp <;> omega

lemma step_cases (h : step max s a = some t) : (a = .call ∧ t = s.spawn .started) ∨
    (∃ i, a = .fetchAdd i ∧ s.tasks[i]? = some .started ∧
      (max ≤ s.counter ∧ t = s.fetchAdd i .between ∨
        s.counter < max ∧ t = s.fetchAdd i .admitted)) ∨
    (∃ i, a = .fetchSub i ∧ s.tasks[i]? = some .between ∧ t = s.fetchSub i .denied) ∨
    ∃ i, a = .decrement i ∧ s.tasks[i]? = some .admitted ∧ t = s.fetchSub i .released := by
  cases a with
  | call => exact .inl ⟨rfl,(some.inj h).symm⟩
  | fetchAdd i =>
    obtain ⟨hi,rfl⟩ := whenAt_eq_some h
    refine .inr (.inl ⟨i,rfl,hi,?_⟩)
    by_cases hm : max ≤ s.counter
    · exact .inl ⟨hm,by rw [if_pos hm]⟩
    · exact .inr ⟨by bv_omega,by rw [if_neg hm]⟩
  | fetchSub i =>
    obtain ⟨hi,rfl⟩ := whenAt_eq_some h
    exact .inr (.inr (.inl ⟨i,rfl,hi,rfl⟩))
  | decrement i =>
    obtain ⟨hi,rfl⟩ := whenAt_eq_some h
    exact .inr (.inr (.inr ⟨i,rfl,hi,rfl⟩))

lemma counts_step (hs : s.Counts counted) (h : step max s a = some t) : t.Counts counted := by
  rcases step_cases h with ⟨-,rfl⟩ | ⟨i,-,hi,⟨-,rfl⟩ | ⟨-,rfl⟩⟩ | ⟨i,-,hi,rfl⟩ | ⟨i,-,hi,rfl⟩
  · rw [Shared.Counts,count_spawn rfl]
    exact hs
  · exact hs.fetchAdd hi rfl rfl
  · exact hs.fetchAdd hi rfl rfl
  · exact hs.fetchSub hi rfl rfl
  · exact hs.fetchSub hi rfl rfl

lemma exact_of_counts (hmost : s.count isAdmitted ≤ max.toNat)
    (hcounted : s.counter.toNat = s.count isAdmitted+s.count isBetween) : Exact max s := by
  refine ⟨hmost,hcounted,fun hn i t h => ?_⟩
  obtain ⟨hi,rfl⟩ := whenAt_eq_some h
  change (s.tasks.set i _)[i]? = _ ↔ _
  rw [List.getElem?_set_self (List.getElem?_eq_some_iff.mp hi).1]
  split_ifs with hm
  · refine iff_of_true rfl ?_
    bv_omega
  · refine iff_of_false (by decide) ?_
    bv_omega

lemma exact_initial : Exact max {} := exact_of_counts (Nat.zero_le _) rfl

lemma admitted_step (hs : Exact max s) (h : step max s a = some t) :
    t.count isAdmitted ≤ max.toNat := by
  obtain ⟨hmost,hcounted,-⟩ := hs
  rcases step_cases h with ⟨-,rfl⟩ | ⟨i,-,hi,⟨-,rfl⟩ | ⟨hlt,rfl⟩⟩ | ⟨i,-,hi,rfl⟩ | ⟨i,-,hi,rfl⟩
  · rw [count_spawn rfl]
    exact hmost
  · have hc : (s.goto i .between).count isAdmitted = _ := count_goto hi rfl
    exact le_trans (le_of_eq hc) hmost
  · have hc : (s.fetchAdd i .admitted).count isAdmitted = _ := count_fetchAdd hi rfl rfl
    bv_omega
  · have hc : (s.goto i .denied).count isAdmitted = _ := count_goto hi rfl
    exact le_trans (le_of_eq hc) hmost
  · have hc : (s.fetchSub i .released).count isAdmitted+1 = _ := count_fetchSub hi rfl rfl
    omega

lemma counted_lt_step_iff (hlt : s.count counted < 2^32) (h : step max s a = some t) :
    t.count counted < 2^32 ↔ Fits s a := by
  rcases step_cases h with ⟨rfl,rfl⟩ | ⟨i,rfl,hi,ha⟩ | ⟨i,rfl,hi,rfl⟩ | ⟨i,rfl,hi,rfl⟩
  · rw [count_spawn rfl]
    exact iff_of_true hlt trivial
  · have hc : t.count counted = s.count counted+1 := by
      rcases ha with ⟨-,rfl⟩ | ⟨-,rfl⟩
      · exact count_fetchAdd hi rfl rfl
      · exact count_fetchAdd hi rfl rfl
    rw [hc,count_counted]
    rfl
  · have hc : (s.fetchSub i .denied).count counted+1 = _ := count_fetchSub hi rfl rfl
    exact iff_of_true (by omega) trivial
  · have hc : (s.fetchSub i .released).count counted+1 = _ := count_fetchSub hi rfl rfl
    exact iff_of_true (by omega) trivial

/-- The counter is right, the maximum is kept and denials are exact throughout a
run if and only if the counter never has to count more than it can. -/
theorem admissions_exact_iff_counter_fits (thresholds : CircuitBreakerThresholds) (r : Resource)
    (as : List Action) (s : Shared 32 Phase) :
    Throughout (Exact (thresholds.max r))
        (fun s a t => step (thresholds.max r) s a = some t) {} as s ↔
      Run (Guarded Fits fun s a t => step (thresholds.max r) s a = some t) {} as s := by
  refine throughout_iff_guarded (Shared.Counts counted) ?_ ?_ counts_initial exact_initial
  · intro s a t hs h
    exact counts_step hs h
  · intro s a t hc hs h
    have hlt : s.count counted < 2^32 := by
      rw [← hc.counter_eq_iff,count_counted]
      exact hs.counted
    rw [← counted_lt_step_iff hlt h,← (counts_step hc h).counter_eq_iff,count_counted]
    exact ⟨Exact.counted,exact_of_counts (admitted_step hs h)⟩

lemma denied_callers (n : ℕ) :
    ∃ as, exec (step 0) {} as = some ⟨BitVec.ofNat 32 n,List.replicate n .between⟩ := by
  induction n with
  | zero => exact ⟨[],rfl⟩
  | succ n ih =>
    obtain ⟨as,has⟩ := ih
    refine ⟨as++[.call,.fetchAdd n],exec_trans has ?_⟩
    have hlen : (replicate n between).length = n := length_replicate
    have hl : (replicate n between++[started])[n]? = some .started := by
      rw [getElem?_append_right (Nat.le_of_eq hlen),hlen,Nat.sub_self]
      rfl
    have hse : (replicate n between++[started]).set n .between = replicate (n+1) .between := by
      rw [set_append_right _ _ (Nat.le_of_eq hlen),hlen,Nat.sub_self,replicate_succ']
      rfl
    have hm : (0 : BitVec 32) ≤ BitVec.ofNat 32 n := Nat.zero_le _
    rw [exec,step,bind_some,exec,step,spawn,whenAt_of_eq hl,if_pos hm,fetchAdd,hse,BitVec.ofNat_add]
    rfl

/-- When `2 ^ 32` denied callers are in between, the counter has come back to zero. -/
theorem counter_wraps :
    ∃ as s, Run (fun s a t => step (CircuitBreakerThresholds.max { maxRequests := 0 } .requests)
        s a = some t) {} as s ∧
      s.counter.toNat ≠ s.count Phase.isAdmitted + s.count Phase.isBetween := by
  obtain ⟨as,hr⟩ := denied_callers (2^32)
  refine ⟨as,_,Run.of_exec hr,?_⟩
  rw [← count_counted,Shared.count,countP_replicate]
  decide

/-- The steps of a call of `try_increment` by caller `i` that reads `prev`. -/
def tryIncrementActions (max prev : BitVec 32) (i : ℕ) : List Action :=
  .fetchAdd i::if max ≤ prev then [.fetchSub i] else []

lemma exec_tryIncrementActions (th : CircuitBreakerThresholds) (r : Resource)
    (c : CircuitBreakerCounters) {ta : List Phase} {i : ℕ} (hi : ta[i]? = some .started) :
    exec (step (th.max r)) ⟨c.get r,ta⟩ (tryIncrementActions (th.max r) (c.get r) i) =
      some ⟨(c.tryIncrement r th).2.get r,ta.set i
        (if (c.tryIncrement r th).1.isOk then .admitted else .denied)⟩ := by
  have ha : (c.fetchAdd r).get r = c.get r+1 := by
    rw [CircuitBreakerCounters.fetchAdd,get_modify,if_pos rfl]
  let s : Shared 32 Phase := ⟨c.get r,ta⟩
  have hs : s.tasks[i]? = some .started := hi
  rw [tryIncrementActions,exec,step,whenAt_of_eq hs,bind_some,fetchAdd,
    CircuitBreakerCounters.tryIncrement]
  by_cases hm : th.max r ≤ c.get r
  · rw [if_pos hm,if_pos hm,if_pos hm,exec,step,whenAt_set hs,
      fetchSub,set_set,fetchSub_fetchAdd,BitVec.add_sub_cancel]
    rfl
  · rw [if_neg hm,if_neg hm,if_neg hm,ha]
    rfl

/-- In any interleaving, also after an overflow, the counter is zero again at rest. -/
theorem counter_zero_at_rest {as : List Action}
    (h : Run (fun s a t => step max s a = some t) {} as s) (hr : s.count counted = 0) :
    s.counter = 0 := by
  have hc : s.Counts counted := h.invariant _ (fun _ _ _ => counts_step) rfl
  rw [hc,hr]
  rfl

theorem counter_zero_after_denial : (⟨0,[.denied]⟩ : Shared 32 Phase).counter = 0 :=
  have h : exec (step 0) {} [.call, .fetchAdd 0, .fetchSub 0] = some ⟨0,[.denied]⟩ := by decide
  counter_zero_at_rest (Run.of_exec h) rfl

end ArionGateway.RequestAdmissions
