import ArionGateway.Executions

/-!
# Stopping health checkers

The checkers of one cluster are tasks with three waits: the initial jitter, the response of a
check and the interval after it. The xDS loop stops them one after the other, each by
`notify_waiters` and a wait for the end of the task. `notify_waiters` reaches only a task that is
at one of its waits, and the channel for health updates is not read while the loop stops checkers.
The `select` of a response and a notification that are both there may take either.

A stop ends as long as every signal finds its task at a wait, or ended, and is not passed over for
a response. Otherwise the loop waits for ever.
-/
namespace ArionGateway.HealthCheckers
open Executions Option

inductive Wait where
  | jitter
  | response
  | interval
  deriving DecidableEq

/-- A task before its first poll, at a wait that has or has not been notified,
between two waits, sending an update, or ended. -/
inductive CheckerTask where
  | spawned
  | waiting (wait : Wait) (notified : Bool)
  | between
  | sending
  | returned
  deriving DecidableEq

inductive Event where
  | start
  | elapsed
  | notified
  | check
  | response
  | sent
  deriving DecidableEq

/-- `HealthCheckerLoop::run`. A check starts together with the wait for its
response; an update is sent when the channel has room. -/
def CheckerTask.next (initialJitter room : Bool) : CheckerTask → Event → Option CheckerTask
  | .spawned, .start => some (if initialJitter then .waiting .jitter false else .between)
  | .waiting .jitter false, .elapsed => some .between
  | .waiting .interval false, .elapsed => some .between
  | .waiting _ true, .notified => some .returned
  | .between, .check => some (.waiting .response false)
  | .waiting .response _, .response => some .sending
  | .sending, .sent => if room then some (.waiting .interval false) else none
  | _, _ => none

def CheckerTask.notify : CheckerTask → CheckerTask
  | .waiting wait _ => .waiting wait true
  | task => task

def capacity : ℕ := 1000

/-- The checkers of a cluster and the loop that stops them: how many have been
stopped, and whether the next one has been signalled. -/
structure System where
  checkers : List CheckerTask := []
  stopping : Bool := false
  stopped : ℕ := 0
  signalled : Bool := false
  queued : ℕ := 0
  deriving DecidableEq

inductive Op where
  | spawn (n : ℕ)
  | stopCluster
  | signal
  | join
  | finish
  | receive
  | otherSent
  | checker (i : ℕ) (e : Event)
  deriving DecidableEq

def System.step (initialJitter : Bool) (s : System) : Op → Option System
  | .spawn n =>
    if s.stopping = false ∧ s.checkers = [] then
      some { s with checkers := List.replicate n .spawned }
    else none
  | .stopCluster =>
    if s.stopping = false then some { s with stopping := true, stopped := 0 } else none
  | .signal =>
    if s.stopping = true ∧ s.signalled = false then
      s.checkers[s.stopped]?.map fun c =>
        { s with checkers := s.checkers.set s.stopped c.notify, signalled := true }
    else none
  | .join =>
    if s.signalled = true ∧ s.checkers[s.stopped]? = some .returned then
      some { s with stopped := s.stopped+1, signalled := false }
    else none
  | .finish =>
    if s.stopping = true ∧ s.signalled = false ∧ s.checkers.length ≤ s.stopped then
      some { s with checkers := [], stopping := false }
    else none
  | .receive =>
    if s.stopping = false ∧ 0 < s.queued then some { s with queued := s.queued - 1 } else none
  | .otherSent => if s.queued < capacity then some { s with queued := s.queued+1 } else none
  | .checker i e =>
    s.checkers[i]?.bind fun c =>
      (c.next initialJitter (decide (s.queued < capacity)) e).map fun c' =>
        { s with
          checkers := s.checkers.set i c'
          queued := if e = .sent then s.queued+1 else s.queued }

/-- The task has ended, or ends when it is polled. -/
def CheckerTask.Heard : CheckerTask → Prop
  | .returned => True
  | .waiting _ true => True
  | _ => False

def CheckerTask.AtWait : CheckerTask → Prop
  | .returned => True
  | .waiting _ _ => True
  | _ => False

/-- The condition on a step: a signal finds its task at a wait or ended, and a
response is not preferred to a signal. -/
def Guard (s : System) : Op → Prop
  | .signal => ∀ c, s.checkers[s.stopped]? = some c → c.AtWait
  | .checker i .response => s.checkers[i]? ≠ some (.waiting .response true)
  | _ => True

lemma heard_notify_iff (c : CheckerTask) : c.notify.Heard ↔ c.AtWait := by
  cases c <;> rfl

variable {c : CheckerTask} {e : Event} {jitter room : Bool}

lemma next_of_heard {c' : CheckerTask} (h : c.Heard) (hn : c.next jitter room e = some c')
    (hr : e = .response → c ≠ .waiting .response true) : c' = .returned := by
  rw [CheckerTask.next.eq_def] at hn
  split at hn
  case h_4 => exact (some.inj hn).symm
  case h_6 wait notified =>
      cases notified with
      | false => exact h.elim
      | true => exact absurd rfl (hr rfl)
  all_goals first
    | exact h.elim
    | cases hn

lemma not_heard_next {c' : CheckerTask} (h : ¬ c.Heard) (hn : c.next jitter room e = some c') :
    ¬ c'.Heard := by
  rw [CheckerTask.next.eq_def] at hn
  split at hn
  case h_4 => exact absurd trivial h
  case h_1 =>
      cases hn
      split_ifs
      · exact id
      · exact id
  case h_7 =>
      split_ifs at hn
      cases hn
      exact id
  all_goals
    cases hn
    try exact id

lemma next_ne_notified {wait : Wait} : c.next jitter room e ≠ some (.waiting wait true) := by
  intro hn
  rw [CheckerTask.next.eq_def] at hn
  split at hn
  case h_1 => split_ifs at hn <;> cases hn
  case h_7 => split_ifs at hn; cases hn
  all_goals cases hn

lemma getElem?_set_of_some {l : List CheckerTask} {i : ℕ} (h : l[i]? = some c) (c' : CheckerTask)
    (j : ℕ) : (l.set i c')[j]? = if j = i then some c' else l[j]? := by
  obtain ⟨hi,-⟩ := List.getElem?_eq_some_iff.mp h
  rw [List.getElem?_set]
  by_cases hj : i = j
  · rw [if_pos hj,if_pos hi,if_pos hj.symm]
  · rw [if_neg hj,if_neg (Ne.symm hj)]

/-- A notification is out only for the checker that is being stopped, and that
checker has it or has ended. -/
structure System.Law (s : System) : Prop where
  stopping : s.signalled = true → s.stopping = true
  current : s.signalled = true → ∃ c, s.checkers[s.stopped]? = some c ∧ c.Heard
  only : ∀ i wait, s.checkers[i]? = some (.waiting wait true) → s.signalled = true ∧ i = s.stopped

/-- The loop waits for a checker that has missed its signal. -/
structure System.Lost (k : ℕ) (s : System) : Prop where
  stopping : s.stopping = true
  signalled : s.signalled = true
  stopped : s.stopped = k
  missed : ∃ c, s.checkers[k]? = some c ∧ ¬ c.Heard

open HealthCheckers.System (step)

variable {jitter : Bool} {s t : System}

lemma step_checker {i : ℕ} (h : s.step jitter (.checker i e) = some t) :
    ∃ c c', s.checkers[i]? = some c ∧ c.next jitter (decide (s.queued < capacity)) e = some c' ∧
      t.checkers = s.checkers.set i c' ∧ t.stopping = s.stopping ∧ t.stopped = s.stopped ∧
      t.signalled = s.signalled := by
  rw [step,bind_eq_some_iff] at h
  obtain ⟨c,hc,h⟩ := h
  rw [map_eq_some_iff] at h
  obtain ⟨c',hn,rfl⟩ := h
  exact ⟨c,c',hc,hn,rfl,rfl,rfl,rfl⟩

lemma lost_step {k : ℕ} {op : Op} (h : s.Lost k) (hst : s.step jitter op = some t) : t.Lost k := by
  obtain ⟨hsp,hsi,hsd,c,hc,hm⟩ := h
  cases op with
  | checker i e =>
    obtain ⟨d,d',hd,hn,hch,h1,h2,h3⟩ := step_checker hst
    refine ⟨h1.trans hsp,h3.trans hsi,h2.trans hsd,?_⟩
    rw [hch,getElem?_set_of_some hd]
    by_cases hk : k = i
    · subst hk
      cases hc.symm.trans hd
      exact ⟨d',if_pos rfl,not_heard_next hm hn⟩
    · exact ⟨c,by rw [if_neg hk,hc],hm⟩
  | otherSent =>
    rw [step] at hst
    split_ifs at hst
    cases hst
    exact ⟨hsp,hsi,hsd,c,hc,hm⟩
  | join =>
    rw [step,hsd,hc] at hst
    split_ifs at hst with hj
    obtain rfl := some.inj hj.2
    exact absurd trivial hm
  | spawn n =>
    rw [step,if_neg fun hand => by simp [hsp] at hand] at hst
    cases hst
  | stopCluster =>
    rw [step,if_neg (by simp [hsp])] at hst
    cases hst
  | signal | finish =>
    rw [step,if_neg fun hand => by simp [hsi] at hand] at hst
    cases hst
  | receive =>
    rw [step,if_neg fun hand => by simp [hsp] at hand] at hst
    cases hst

lemma lost_run {k : ℕ} {ops : List Op} (h : s.Lost k)
    (hr : Run (fun s op t => step jitter s op = some t) s ops t) : t.Lost k :=
  hr.invariant (System.Lost k) (fun _ _ _ hs hst => lost_step hs hst) h

lemma law_checker {i : ℕ} (h : s.Law) (hst : s.step jitter (.checker i e) = some t)
    (hg : Guard s (.checker i e)) : t.Law := by
  obtain ⟨c,c',hc,hn,hch,h1,h2,h3⟩ := step_checker hst
  have hse := getElem?_set_of_some hc c'
  rw [← hch] at hse
  refine ⟨fun hs => h1.trans (h.stopping (h3.symm.trans hs)),fun hs => ?_,fun j w hj => ?_⟩
  · obtain ⟨d,hd,hh⟩ := h.current (h3.symm.trans hs)
    rw [h2,hse]
    by_cases hi : s.stopped = i
    · cases hc.symm.trans (hi ▸ hd)
      have hr := next_of_heard hh hn fun he hw => by
        subst he
        exact hg (hw ▸ hc)
      exact ⟨c',if_pos hi,hr ▸ trivial⟩
    · exact ⟨d,by rw [if_neg hi,hd],hh⟩
  · rw [hse] at hj
    split_ifs at hj with hji
    · exact absurd (hn.trans hj) next_ne_notified
    · rw [h2,h3]
      exact h.only j w hj

lemma law_signal (h : s.Law) (hst : s.step jitter .signal = some t) (hg : Guard s .signal) :
    t.Law := by
  rw [step] at hst
  split_ifs at hst with hsi
  rw [map_eq_some_iff] at hst
  obtain ⟨c,hc,rfl⟩ := hst
  refine ⟨fun _ => hsi.1,fun _ => ⟨c.notify,?_,?_⟩,fun j w hj => ?_⟩
  · exact (getElem?_set_of_some hc ..).trans (if_pos rfl)
  · exact (heard_notify_iff c).mpr (hg c hc)
  · rw [getElem?_set_of_some hc] at hj
    split_ifs at hj with hji
    · exact ⟨rfl,hji⟩
    · cases (h.only j w hj).1.symm.trans hsi.2

lemma law_step {op : Op} (h : s.Law) (hst : s.step jitter op = some t) (hg : Guard s op) :
    t.Law := by
  cases op with
  | checker i e => exact law_checker h hst hg
  | otherSent | receive =>
    rw [step] at hst
    split_ifs at hst
    cases hst
    exact ⟨h.stopping,h.current,h.only⟩
  | join =>
    rw [step] at hst
    split_ifs at hst with hj
    cases hst
    refine ⟨nofun,nofun,fun i w hi => ?_⟩
    obtain ⟨-,rfl⟩ := h.only i w hi
    cases hi.symm.trans hj.2
  | spawn n =>
    rw [step] at hst
    split_ifs at hst with hsw
    cases hst
    refine ⟨h.stopping,fun hs => ?_,fun i w hi => ?_⟩
    · cases (h.stopping hs).symm.trans hsw.1
    · cases List.eq_of_mem_replicate (List.mem_of_getElem? hi)
  | stopCluster =>
    rw [step] at hst
    split_ifs at hst with hsp
    cases hst
    refine ⟨fun _ => rfl,fun hs => ?_,fun i w hi => ?_⟩
    · cases (h.stopping hs).symm.trans hsp
    · cases (h.stopping (h.only i w hi).1).symm.trans hsp
  | finish =>
    rw [step] at hst
    split_ifs at hst with hf
    cases hst
    refine ⟨fun hs => ?_,fun hs => ?_,fun i w hi => by cases hi⟩
    · cases hs.symm.trans hf.2.1
    · cases hs.symm.trans hf.2.1
  | signal => exact law_signal h hst hg

/-- A step that is not as it should be loses the signal. -/
lemma lost_of_not_guard {op : Op} (h : s.Law) (hst : s.step jitter op = some t)
    (hg : ¬ Guard s op) : t.Lost s.stopped := by
  cases op with
  | signal =>
    rw [step] at hst
    split_ifs at hst with hsg
    rw [map_eq_some_iff] at hst
    obtain ⟨c,hc,rfl⟩ := hst
    refine ⟨hsg.1,rfl,rfl,c.notify,(getElem?_set_of_some hc ..).trans (if_pos rfl),?_⟩
    rw [heard_notify_iff]
    intro hwa
    refine hg fun d hd => ?_
    rw [← some.inj (hc.symm.trans hd)]
    exact hwa
  | checker i e =>
    obtain ⟨c,c',hc,hn,hch,h1,h2,h3⟩ := step_checker hst
    cases e with
    | response =>
      have hw : s.checkers[i]? = some (.waiting .response true) := not_not.mp hg
      obtain ⟨hsi,rfl⟩ := h.only i .response hw
      obtain rfl := some.inj (hc.symm.trans hw)
      refine ⟨h1.trans (h.stopping hsi),h3.trans hsi,h2,c',?_,?_⟩
      · rw [hch,getElem?_set_of_some hc,if_pos rfl]
      · cases hn
        exact id
    | start | elapsed | notified | check | sent => exact absurd trivial hg
  | spawn n | stopCluster | join | finish | receive | otherSent => exact absurd trivial hg

lemma progress (h : s.Law) (hsi : s.signalled = true) : (∃ t, s.step jitter .join = some t) ∨
      ∃ t, s.step jitter (.checker s.stopped .notified) = some t := by
  obtain ⟨c,hc,hh⟩ := h.current hsi
  cases c with
  | returned => exact .inl ⟨_,if_pos ⟨hsi,hc⟩⟩
  | waiting w n =>
    cases n with
    | false => exact hh.elim
    | true =>
      right
      rw [step,hc]
      cases w <;> exact ⟨_,rfl⟩
  | spawned | between | sending => exact hh.elim

/-- In every run whose signals are seen, a signalled checker has ended or ends
with its next step, without another check, and the stop goes on. A signal that
is not seen leaves the loop waiting in every continuation. -/
theorem stop_ends_iff_signal_seen {ops : List Op}
    (hrun : Run (Guarded Guard fun s op t => System.step jitter s op = some t) {} ops s) :
    (s.signalled = true → ((∃ t, s.step jitter .join = some t) ∨
        ∃ t, s.step jitter (.checker s.stopped .notified) = some t) ∧
      ∀ e t, Guard s (.checker s.stopped e) → s.step jitter (.checker s.stopped e) = some t →
        t.checkers[s.stopped]? = some .returned) ∧
    ∀ op t, s.step jitter op = some t → ¬ Guard s op →
      ∀ ops u, Run (fun s op t => System.step jitter s op = some t) t ops u →
        u.stopping = true ∧ u.stopped = s.stopped ∧ u.checkers[s.stopped]? ≠ some .returned := by
  have hla : s.Law := by
    refine hrun.invariant System.Law (fun s op t hs hst => law_step hs hst.2 hst.1) ?_
    exact ⟨nofun,nofun,fun i w hi => (by cases hi)⟩
  refine ⟨fun hsi => ⟨progress hla hsi,fun e t hg hst => ?_⟩,fun op t hst hg ops u hrun => ?_⟩
  · obtain ⟨d,hd,hh⟩ := hla.current hsi
    obtain ⟨c,c',hc,hn,hch,-⟩ := step_checker hst
    cases hc.symm.trans hd
    have hr := next_of_heard hh hn fun he hw => by
      subst he
      exact hg (hw ▸ hc)
    rw [hch,getElem?_set_of_some hc,if_pos rfl,hr]
  · have hl := lost_run (lost_of_not_guard hla hst hg) hrun
    obtain ⟨c,hc,hm⟩ := hl.missed
    refine ⟨hl.stopping,hl.stopped,fun hr => ?_⟩
    obtain rfl := some.inj (hc.symm.trans hr)
    exact hm trivial

/-- A cluster is stopped before its only checker is first polled; the checker
then starts a check and can never end. -/
theorem early_signal_missed : ∃ s, Run (fun s op t => System.step false s op = some t) {}
      [.spawn 1, .stopCluster, .signal, .checker 0 .start, .checker 0 .check] s ∧
    s.checkers = [.waiting .response false] ∧ s.stopping = true ∧ s.signalled = true ∧
    ∀ ops u, Run (fun s op t => System.step false s op = some t) s ops u →
      u.stopping = true ∧ u.checkers[0]? ≠ some .returned := by
  refine ⟨_,.of_exec rfl,rfl,rfl,rfl,fun ops u hru => ?_⟩
  have hl := lost_run ⟨rfl,rfl,rfl,_,rfl,id⟩ hru
  obtain ⟨c,hc,hm⟩ := hl.missed
  refine ⟨hl.stopping,fun hr => ?_⟩
  obtain rfl := some.inj (hc.symm.trans hr)
  exact hm trivial

/-- Two checkers are stopped while they wait for their initial jitter. -/
theorem stop_ends_during_jitter : ∃ s : System, s.signalled = true ∧
    ((∃ t, s.step true .join = some t) ∨
      ∃ t, s.step true (.checker s.stopped .notified) = some t) := by
  have hr : ∃ s, s.signalled = true ∧ Run (Guarded Guard fun s op t => step true s op = some t) {}
        [.spawn 2,.checker 0 .start,.checker 1 .start,.stopCluster,.signal] s := by
    refine ⟨_,?_,.cons ⟨trivial,rfl⟩ (.cons ⟨trivial,rfl⟩ (.cons ⟨trivial,rfl⟩
      (.cons ⟨trivial,rfl⟩ (.cons ⟨?_,rfl⟩ (.nil _)))))⟩
    · rfl
    · intro c hc
      cases hc
      trivial
  obtain ⟨s,hsi,hr⟩ := hr
  exact ⟨s,hsi,((stop_ends_iff_signal_seen hr).1 hsi).1⟩

end ArionGateway.HealthCheckers
