import ArionGateway.Executions
import ArionGateway.FirstMatch

/-!
# Tasks that share an atomic counter

Any number of tasks move through phases and share one counter of fixed width.
Each operation on the counter is one step, taken together with the change of
phase of the task that performs it. A task holds one unit of the counter in some
of its phases. If tasks add to the counter when they begin to hold and subtract
when they stop, the counter is the number of tasks that hold, up to overflow.
-/
namespace ArionGateway.TaskCounters

/-- A counter of `w` bits and the phases of the tasks that use it. -/
structure Shared (w : ℕ) (P : Type) where
  counter : BitVec w := 0
  tasks : List P := []
  deriving DecidableEq

namespace Shared
variable {w : ℕ} {P : Type}

def spawn (s : Shared w P) (p : P) : Shared w P := { s with tasks := s.tasks++[p] }

def goto (s : Shared w P) (i : ℕ) (p : P) : Shared w P := { s with tasks := s.tasks.set i p }

def fetchAdd (s : Shared w P) (i : ℕ) (p : P) : Shared w P :=
  ⟨s.counter+1,s.tasks.set i p⟩

def fetchSub (s : Shared w P) (i : ℕ) (p : P) : Shared w P :=
  ⟨s.counter - 1,s.tasks.set i p⟩

def whenAt [DecidableEq P] (s : Shared w P) (i : ℕ) (p : P) (t : Shared w P) :
    Option (Shared w P) :=
  if s.tasks[i]? = some p then some t else none

def count (s : Shared w P) (held : P → Bool) : ℕ := s.tasks.countP held

/-- The counter is the number of tasks that hold, up to overflow. -/
def Counts (held : P → Bool) (s : Shared w P) : Prop := s.counter = BitVec.ofNat w (s.count held)

lemma whenAt_eq_some [DecidableEq P] {s t u : Shared w P} {i : ℕ} {p : P}
    (h : s.whenAt i p t = some u) : s.tasks[i]? = some p ∧ t = u := by
  rwa [whenAt,Option.ite_none_right_eq_some,Option.some_inj] at h

lemma whenAt_of_eq [DecidableEq P] {s : Shared w P} {i : ℕ} {p : P} (hp : s.tasks[i]? = some p)
    (t : Shared w P) : s.whenAt i p t = some t := if_pos hp

lemma whenAt_set [DecidableEq P] {s : Shared w P} {i : ℕ} {p : P} (hp : s.tasks[i]? = some p)
    (c : BitVec w) (q : P) (t : Shared w P) : whenAt ⟨c,s.tasks.set i q⟩ i q t = some t :=
  whenAt_of_eq (List.getElem?_set_self (List.getElem?_eq_some_iff.mp hp).1) t

variable {held : P → Bool} {s : Shared w P}

lemma count_spawn {p : P} (hp : held p = false) : (s.spawn p).count held = s.count held := by
  rw [count,spawn,List.countP_append,List.countP_singleton,hp]
  rfl

lemma count_set (held : P → Bool) {i : ℕ} {p : P} (hp : s.tasks[i]? = some p) (q : P) :
    (s.tasks.set i q).countP held+(held p).toNat = s.count held+(held q).toNat :=
  FirstMatch.countP_set_add held hp q

variable {i : ℕ} {p q : P}

lemma count_goto (hp : s.tasks[i]? = some p) (hq : held q = held p) :
    (s.goto i q).count held = s.count held := by
  have hse := count_set held hp q
  rw [hq] at hse
  exact add_right_cancel hse

lemma count_fetchAdd (hp : s.tasks[i]? = some p) (hf : held p = false) (hq : held q = true) :
    (s.fetchAdd i q).count held = s.count held+1 := by
  have hse := count_set held hp q
  rw [hf,hq] at hse
  exact hse

lemma count_fetchSub (hp : s.tasks[i]? = some p) (hh : held p = true) (hq : held q = false) :
    (s.fetchSub i q).count held+1 = s.count held := by
  have hse := count_set held hp q
  rw [hh,hq] at hse
  exact hse

lemma Counts.fetchAdd (h : s.Counts held) (hp : s.tasks[i]? = some p) (hf : held p = false)
    (hq : held q = true) : (s.fetchAdd i q).Counts held := by
  rw [Counts,count_fetchAdd hp hf hq,BitVec.ofNat_add]
  exact congrArg (· + 1) h

lemma Counts.fetchSub (h : s.Counts held) (hp : s.tasks[i]? = some p) (hh : held p = true)
    (hq : held q = false) : (s.fetchSub i q).Counts held := by
  rw [Counts,← count_fetchSub hp hh hq,BitVec.ofNat_add] at h
  change s.counter - 1 = _
  rw [h]
  exact BitVec.add_sub_cancel ..

lemma Counts.counter_eq_iff (h : s.Counts held) :
    s.counter.toNat = s.count held ↔ s.count held < 2^w := by
  rw [h]
  constructor
  · intro hm
    rw [← hm]
    exact Nat.mod_lt _ (Nat.two_pow_pos w)
  · exact Nat.mod_eq_of_lt

lemma counts_initial : ({} : Shared w P).Counts held := rfl

end Shared

end ArionGateway.TaskCounters
