import ArionGateway.HealthRotation

/-!
# Counting health checks

A counter turns the results of single health checks into the health status of
an endpoint. One signed number counts the last successes in a row, or the last
failures as a negative number, up to the threshold of each. The first result
decides; after that a change takes as many results in a row as its threshold
says, or one failure that ignores it.
-/
namespace ArionGateway.HealthCounters
open HealthRotation

/-- The thresholds are given as `u16` and the count is an `i32`, which they bound. -/
structure HealthStatusCounter where
  status : Option HealthStatus
  checks : ℤ
  healthyThreshold : ℤ
  unhealthyThreshold : ℤ

namespace HealthStatusCounter

def new (healthyThreshold unhealthyThreshold : ℕ) : HealthStatusCounter :=
  ⟨none,0,healthyThreshold,-unhealthyThreshold⟩

variable (self : HealthStatusCounter)

def update (newStatus : HealthStatus) : HealthStatusCounter × Option HealthStatus :=
  let self := if some newStatus ≠ self.status then { self with status := newStatus } else self
  (self, self.status)

/-- There is no need to count beyond the threshold. -/
def countSuccess : ℤ :=
  let checks := if self.checks < 0 then 0 else self.checks
  if checks < self.healthyThreshold then checks+1 else checks

def addSuccess : HealthStatusCounter × Option HealthStatus :=
  let self := { self with checks := self.countSuccess }
  match self.status with
  | none => self.update .healthy
  | some .healthy => (self, none)
  | some .unhealthy =>
    if self.checks ≥ self.healthyThreshold then self.update .healthy else (self, none)

def countFailure : ℤ :=
  let checks := if self.checks > 0 then 0 else self.checks
  if checks > self.unhealthyThreshold then checks - 1 else checks

def addFailureImpl (ignoreThreshold : Bool) : HealthStatusCounter × Option HealthStatus :=
  let self := { self with checks := self.countFailure }
  match self.status with
  | none => self.update .unhealthy
  | some .unhealthy => (self, none)
  | some .healthy =>
    if ignoreThreshold ∨ self.checks ≤ self.unhealthyThreshold then self.update .unhealthy
    else (self, none)

end HealthStatusCounter

inductive Check where
  | success
  | failure
  | failureIgnoreThreshold
  deriving DecidableEq

def Check.result : Check → HealthStatus
  | .success => .healthy
  | _ => .unhealthy

def HealthStatusCounter.add (self : HealthStatusCounter) :
    Check → HealthStatusCounter × Option HealthStatus
  | .success => self.addSuccess
  | .failure => self.addFailureImpl false
  | .failureIgnoreThreshold => self.addFailureImpl true

def HealthStatusCounter.after (self : HealthStatusCounter) (checks : List Check) :
    HealthStatusCounter :=
  checks.foldl (fun self c => (self.add c).1) self

/-- How many of the last checks in a row have a result; the last one comes first. -/
def streak (s : HealthStatus) : List Check → ℕ
  | [] => 0
  | c::past => if c.result = s then streak s past+1 else 0

/-- The status after checks of which the last one comes first. -/
def traceStatus (healthy unhealthy : ℕ) : List Check → Option HealthStatus
  | [] => none
  | c::past =>
    match traceStatus healthy unhealthy past with
    | none => some c.result
    | some .healthy =>
      if c = .failureIgnoreThreshold ∨
          c.result = .unhealthy ∧ streak .unhealthy (c::past) = unhealthy then
        some .unhealthy
      else some .healthy
    | some .unhealthy =>
      if c.result = .healthy ∧ streak .healthy (c::past) = healthy then some .healthy
      else some .unhealthy

/-- The counter with another count and status; a new status is returned. -/
def HealthStatusCounter.moved (self : HealthStatusCounter) (checks : ℤ)
    (status : Option HealthStatus) : HealthStatusCounter × Option HealthStatus :=
  ({ self with checks, status }, if status = self.status then none else status)

open HealthStatusCounter (addSuccess moved update addFailureImpl countSuccess add countFailure new after)
/-- What the counter knows of the checks so far. -/
structure Knows (h u : ℕ) (past : List Check) (s : HealthStatusCounter) : Prop where
  healthy : s.healthyThreshold = h
  unhealthy : s.unhealthyThreshold = -u
  status : s.status = traceStatus h u past
  checks : s.checks = min (streak .healthy past) h - min (streak .unhealthy past) u
  failures : s.status = some .healthy → streak .unhealthy past < u
  successes : s.status = some .unhealthy → streak .healthy past < h

variable {h u : ℕ} {p : List Check} {s : HealthStatusCounter}

lemma streak_eq_zero (p : List Check) : streak .healthy p = 0 ∨ streak .unhealthy p = 0 := by
  cases p with
  | nil => exact .inl rfl
  | cons c p => cases c <;> simp [streak,Check.result]

lemma traceStatus_success (h u : ℕ) (p : List Check) : traceStatus h u (.success::p) =
    if traceStatus h u p = some .unhealthy ∧ streak .healthy p+1 ≠ h then some .unhealthy
    else some .healthy := by
  rw [traceStatus]
  rcases traceStatus h u p with _ | _ | _ <;> simp [Check.result,streak]

lemma traceStatus_failure (h u : ℕ) (p : List Check) {c : Check} (hc : c.result = .unhealthy) :
    traceStatus h u (c::p) = if traceStatus h u p = some .healthy ∧
          ¬ (c = .failureIgnoreThreshold ∨ streak .unhealthy p+1 = u) then some .healthy
      else some .unhealthy := by
  rw [traceStatus]
  rcases traceStatus h u p with _ | _ | _ <;> simp [hc,streak,-not_or]

lemma addSuccess_eq (s : HealthStatusCounter) : s.addSuccess = s.moved s.countSuccess
    (if s.status = some .unhealthy ∧ s.countSuccess < s.healthyThreshold then some .unhealthy
    else some .healthy) := by
  rw [addSuccess]
  generalize s.countSuccess = checks
  obtain ⟨_ | _ | _,_,threshold,_⟩ := s
  · rfl
  · rfl
  · by_cases hc : checks < threshold <;> simp [moved,update,hc]

lemma addFailureImpl_eq (s : HealthStatusCounter) (i : Bool) :
    s.addFailureImpl i = s.moved s.countFailure
      (if s.status = some .healthy ∧ ¬ (i ∨ s.countFailure ≤ s.unhealthyThreshold) then
        some .healthy
      else some .unhealthy) := by
  rw [addFailureImpl]
  generalize s.countFailure = checks
  obtain ⟨_ | _ | _,_,_,threshold⟩ := s
  · rfl
  · by_cases hc : i ∨ checks ≤ threshold <;> simp [moved,update,hc]
  · rfl

section
variable (hh : 1 ≤ h) (hu : 1 ≤ u) (hs : Knows h u p s)
include hh hu hs

lemma Knows.success : s.add .success = s.moved s.countSuccess (traceStatus h u (.success::p)) ∧
      Knows h u (.success::p) (s.add .success).1 := by
  have hch := hs.checks
  have hz := streak_eq_zero p
  have hc : s.countSuccess = min (streak .healthy p+1) h := by
    rw [countSuccess,hs.healthy]
    split_ifs <;> omega
  have ht := traceStatus_success h u p
  have hst : s.add .success = s.moved s.countSuccess (traceStatus h u (.success::p)) := by
    rw [add,addSuccess_eq,ht,← hs.status,hs.healthy]
    congr 2
    refine propext (and_congr_right fun hun => ?_)
    have := hs.successes hun
    omega
  rw [hst]
  refine ⟨rfl,hs.healthy,hs.unhealthy,rfl,?_,fun _ => hu,fun hun => ?_⟩
  · simpa [moved,streak,Check.result] using hc
  · simp only [ht,← hs.status] at hun
    split_ifs at hun with hlt
    · exact lt_of_le_of_ne (hs.successes hlt.1) hlt.2
    · cases hun

lemma Knows.failure {c : Check} (hr : c.result = .unhealthy) :
    s.add c = s.moved s.countFailure (traceStatus h u (c::p)) ∧ Knows h u (c::p) (s.add c).1 := by
  have hch := hs.checks
  have hz := streak_eq_zero p
  have hc : s.countFailure = -min (streak .unhealthy p+1) u := by
    rw [countFailure,hs.unhealthy]
    split_ifs <;> omega
  have ht := traceStatus_failure h u p hr
  have hi : s.add c = s.addFailureImpl (c = .failureIgnoreThreshold) := by
    cases c with
    | success => cases hr
    | failure => rfl
    | failureIgnoreThreshold => rfl
  have hst : s.add c = s.moved s.countFailure (traceStatus h u (c::p)) := by
    rw [hi,addFailureImpl_eq,ht,← hs.status,hs.unhealthy]
    congr 2
    refine propext (and_congr_right fun hhe => not_congr (or_congr (by simp) ?_))
    have := hs.failures hhe
    omega
  rw [hst]
  refine ⟨rfl,hs.healthy,hs.unhealthy,rfl,?_,fun hhe => ?_,fun _ => ?_⟩
  · simpa [moved,streak,hr] using hc
  · simp only [ht,← hs.status] at hhe
    split_ifs at hhe with hlt
    · rw [streak,if_pos hr]
      exact lt_of_le_of_ne (hs.failures hlt.1) fun he => hlt.2 (.inr he)
    · cases hhe
  · rw [streak,hr]
    exact hh

lemma Knows.add (c : Check) : (∃ checks, s.add c = s.moved checks (traceStatus h u (c::p))) ∧
      Knows h u (c::p) (s.add c).1 := by
  cases c with
  | success => exact (Knows.success hh hu hs).imp_left fun h => ⟨_,h⟩
  | _ => exact (Knows.failure hh hu hs rfl).imp_left fun h => ⟨_,h⟩

end

lemma knows_after (hh : 1 ≤ h) (hu : 1 ≤ u) (ch : List Check) :
    Knows h u ch.reverse ((new h u).after ch) := by
  induction ch using List.reverseRecOn with
  | nil => exact ⟨rfl,rfl,rfl,by simp [new,after,streak],nofun,nofun⟩
  | append_singleton ch c ih =>
    rw [List.reverse_append,after,List.foldl_append]
    exact (ih.add hh hu c).2

/-- After any checks the counter has the status that they give rise to and a
count within the thresholds, and the next check returns a status exactly if it
changes the status to it. -/
theorem status_eq_traceStatus (hh : 1 ≤ h) (hu : 1 ≤ u) (checks : List Check) :
    let s := (HealthStatusCounter.new h u).after checks
    s.status = traceStatus h u checks.reverse ∧ -u ≤ s.checks ∧ s.checks ≤ h ∧
      ∀ c x, (s.add c).2 = some x ↔ (s.add c).1.status = some x ∧ s.status ≠ some x := by
  intro s
  have hs := knows_after hh hu checks
  refine ⟨hs.status,?_,?_,fun c x => ?_⟩
  · rw [hs.checks]
    omega
  · rw [hs.checks]
    omega
  · obtain ⟨⟨count,hm⟩,-⟩ := hs.add hh hu c
    rw [hm,moved]
    split_ifs with he
    · simp [s,he]
    · exact ⟨fun hx => ⟨hx,fun hs => he (hx.trans hs.symm)⟩,And.left⟩

/-- A success that is the second in a row after a failure. -/
theorem two_successes_after_failure :
    let s := (new 2 3).after [.failure,.success]
    (s.add .success).2 = some .healthy ↔
      (s.add .success).1.status = some .healthy ∧ s.status ≠ some .healthy :=
  (status_eq_traceStatus (h := 2) (u := 3) (by decide) (by decide) _).2.2.2 .success .healthy

end ArionGateway.HealthCounters
