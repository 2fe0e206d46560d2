import ArionGateway.CachedWatches
import ArionGateway.Executions

/-!
# The registry of internal listeners

The task of an internal listener registers the sender of its channel under the name of the
listener when it is first polled. When the task ends, aborted or because all senders of its
channel are gone, a destructor removes whatever is registered under the name. Lookups read the
registry through a copy of the thread, and the senders in such copies keep channels open. A sender
is the number of the task that receives from its channel.
-/
namespace ArionGateway.InternalListeners
open CachedWatches Executions List Option
open Function (update update_apply)

variable {N : Type}

inductive Phase where
  | spawned
  | running
  | ended
  deriving DecidableEq

structure ListenerTask (N : Type) where
  name : N
  phase : Phase := .spawned
  aborted : Bool := false
  deriving DecidableEq

abbrev ListenersMap (N : Type) := N → Option ℕ

/-- The registry, its copies in the threads of the runtime, the senders that
lookups have handed out, the tasks, and the handles of the manager. -/
structure System (N : Type) where
  registry : CachedWatch (ListenersMap N)
  watchers : List (Option (CachedWatcher (ListenersMap N)))
  senders : List ℕ := []
  tasks : List (ListenerTask N) := []
  handles : N → Option ℕ

inductive Action (N : Type) where
  | add (name : N)
  | remove (name : N)
  | poll (i : ℕ)
  | cancel (i : ℕ)
  | close (i : ℕ)
  | lookup (thread : ℕ) (name : N) (readable : Bool)
  | drop (sender : ℕ)

namespace System

def initial (threads : ℕ) : System N :=
  { registry := ⟨fun _ => none,0⟩
    watchers := List.replicate threads none
    handles := fun _ => none }

def abort (tasks : List (ListenerTask N)) (handle : Option ℕ) : List (ListenerTask N) :=
  match handle with
  | none => tasks
  | some k => tasks.modify k fun task => { task with aborted := true }

def startListener [DecidableEq N] (s : System N) (name : N) : System N :=
  { s with
    tasks := abort s.tasks (s.handles name)++[{ name }]
    handles := update s.handles name (some s.tasks.length) }

def stopListener [DecidableEq N] (s : System N) (name : N) : System N :=
  { s with
    tasks := abort s.tasks (s.handles name)
    handles := update s.handles name none }

def register [DecidableEq N] (s : System N) (name : N) (sender : ℕ) : System N :=
  { s with registry := s.registry.update fun listeners => update listeners name (some sender) }

def unregister [DecidableEq N] (s : System N) (name : N) : System N :=
  { s with registry := s.registry.update fun listeners => update listeners name none }

def setPhase (s : System N) (i : ℕ) (phase : Phase) : System N :=
  { s with tasks := s.tasks.modify i fun task => { task with phase } }

def hasSender (s : System N) (name : N) (i : ℕ) : Bool :=
  decide (s.registry.value name = some i) || s.senders.contains i ||
    s.watchers.any fun watcher => watcher.any fun watcher => decide (watcher.copy name = some i)

def view (s : System N) (watcher : Option (CachedWatcher (ListenersMap N))) (readable : Bool) :
    CachedWatcher (ListenersMap N) :=
  (watcher.getD s.registry.watcher).cachedOrLatest s.registry readable

/-- A lookup on a thread, while nobody writes to the registry. -/
def getConnectionSenderForListener (s : System N) (thread : ℕ) (name : N) : Option ℕ :=
  (s.watchers[thread]?).bind fun watcher => (s.view watcher true).copy name

/-- A task can be polled for the first time even if it has been aborted: the poll
may have begun before. -/
def step [DecidableEq N] (s : System N) : Action N → Option (System N)
  | .add name => some (s.startListener name)
  | .remove name => some (s.stopListener name)
  | .poll i =>
    match s.tasks[i]? with
    | some ⟨name,.spawned,_⟩ => some ((s.register name i).setPhase i .running)
    | _ => none
  | .cancel i =>
    match s.tasks[i]? with
    | some ⟨_,.spawned,true⟩ => some (s.setPhase i .ended)
    | some ⟨name,.running,true⟩ => some ((s.unregister name).setPhase i .ended)
    | _ => none
  | .close i =>
    match s.tasks[i]? with
    | some ⟨name,.running,_⟩ =>
      if s.hasSender name i then none else some ((s.unregister name).setPhase i .ended)
    | _ => none
  | .lookup thread name readable =>
    match s.watchers[thread]? with
    | none => none
    | some watcher =>
      let watcher := s.view watcher readable
      some { s with
        watchers := s.watchers.set thread (some watcher)
        senders := (watcher.copy name).toList++s.senders }
  | .drop sender =>
    if sender ∈ s.senders then some { s with senders := s.senders.erase sender } else none

def Settled [DecidableEq N] (s : System N) : Prop :=
  ∀ i, s.step (.poll i) = none ∧ s.step (.cancel i) = none ∧ s.step (.close i) = none

def Runs (s : System N) (name : N) (i : ℕ) : Prop :=
  ∃ task, s.tasks[i]? = some task ∧ task.name = name ∧ task.phase = .running

/-- A task registers only when no other task runs under its name: the task of a
replaced listener has been dropped. -/
def AloneAtStart (s : System N) : Action N → Prop
  | .poll i => ∀ task, s.tasks[i]? = some task → ∀ j, ¬ s.Runs task.name j
  | _ => True

/-- The registry has the running tasks, and the manager those that are neither
aborted nor ended. -/
structure Consistent (s : System N) : Prop where
  registered : ∀ name k, s.Runs name k ↔ s.registry.value name = some k
  current : ∀ name k, s.handles name = some k ↔
    ∃ task, s.tasks[k]? = some task ∧ task.name = name ∧ task.aborted = false
  lives : ∀ (k : ℕ) (task : ListenerTask N), s.tasks[k]? = some task → task.phase = .ended → task.aborted = true
  latest : ∀ name k, s.handles name = some k →
    ∀ j task, s.tasks[j]? = some task → task.name = name → j ≤ k
  follows : ∀ watcher, some watcher ∈ s.watchers → watcher.Follows s.registry

section
variable {s : System N} {n : N} {task : ListenerTask N} {ta : List (ListenerTask N)} {i : ℕ}

lemma getElem?_abort (ta : List (ListenerTask N)) (handle : Option ℕ) (i : ℕ) :
    (abort ta handle)[i]? =
      ta[i]?.map fun task => if handle = some i then { task with aborted := true } else task := by
  cases handle with
  | none => simp [abort]
  | some k => simp [abort,getElem?_modify]

lemma length_abort (ta : List (ListenerTask N)) (handle : Option ℕ) :
    (abort ta handle).length = ta.length := by
  cases handle with
  | none => rfl
  | some k => exact length_modify ..

lemma getElem?_abort_eq_some {handle : Option ℕ} :
    (abort ta handle)[i]? = some task ↔ ∃ before, ta[i]? = some before ∧
      task = if handle = some i then { before with aborted := true } else before := by
  rw [getElem?_abort,map_eq_some_iff]
  simp only [eq_comm]

lemma getElem?_concat_eq_some {new : ListenerTask N} :
    (ta++[new])[i]? = some task ↔ ta[i]? = some task ∨ i = ta.length ∧ task = new := by
  rcases Nat.lt_trichotomy i ta.length with hlt | rfl | hlt
  · rw [getElem?_append_left hlt]
    simp [Nat.ne_of_lt hlt]
  · simp [eq_comm]
  · rw [getElem?_eq_none (by simp; omega),getElem?_eq_none (Nat.le_of_lt hlt)]
    simp [Nat.ne_of_gt hlt]

lemma getElem?_setPhase_eq_some {j : ℕ} {phase : Phase} :
    (s.setPhase i phase).tasks[j]? = some task ↔ ∃ before, s.tasks[j]? = some before ∧
      task = if j = i then { before with phase } else before := by
  change (s.tasks.modify i fun task => { task with phase })[j]? = some task ↔ _
  rw [getElem?_modify,Option.map_eq_map,Option.map_eq_some_iff]
  simp only [eq_comm]

lemma runs_setPhase (hi : s.tasks[i]? = some task) (p : Phase) (j : ℕ) : (s.setPhase i p).Runs n j ↔
      if j = i then task.name = n ∧ p = .running else s.Runs n j := by
  simp only [Runs,getElem?_setPhase_eq_some]
  split_ifs with hj
  · subst hj
    simp [hi]
  · grind

variable {k : ℕ} {ts : ListenerTask N} {wa : Option (CachedWatcher (ListenersMap N))}

lemma exists_abort_iff (ta : List (ListenerTask N)) (handle : Option ℕ) (P : N → Phase → Prop) :
    (∃ ts, (abort ta handle)[k]? = some ts ∧ P ts.name ts.phase) ↔
      ∃ ts, ta[k]? = some ts ∧ P ts.name ts.phase := by
  simp only [getElem?_abort_eq_some]
  constructor
  · rintro ⟨_,⟨ts,ht,rfl⟩,hP⟩
    refine ⟨ts,ht,?_⟩
    split_ifs at hP <;> exact hP
  · rintro ⟨ts,ht,hP⟩
    refine ⟨_,⟨ts,ht,rfl⟩,?_⟩
    split_ifs <;> exact hP

variable (h : s.Consistent)
include h

lemma Consistent.current_abort (name n : N) (k : ℕ) :
    (∃ ts, (abort s.tasks (s.handles name))[k]? = some ts ∧ ts.name = n ∧
      ts.aborted = false) ↔ s.handles n = some k ∧ n ≠ name := by
  simp only [getElem?_abort_eq_some]
  constructor
  · rintro ⟨_,⟨ts,ht,rfl⟩,hna,ha⟩
    by_cases hh : s.handles name = some k
    · rw [if_pos hh] at ha
      cases ha
    · rw [if_neg hh] at hna ha
      refine ⟨(h.current n k).mpr ⟨ts,ht,hna,ha⟩,?_⟩
      rintro rfl
      exact hh ((h.current n k).mpr ⟨ts,ht,hna,ha⟩)
  · rintro ⟨hn,hne⟩
    obtain ⟨ts,ht,hna,ha⟩ := (h.current n k).mp hn
    have hh : s.handles name ≠ some k := by
      intro hh
      obtain ⟨task',ht',hn',-⟩ := (h.current name k).mp hh
      cases ht.symm.trans ht'
      exact hne (hna.symm.trans hn')
    exact ⟨ts,⟨ts,ht,(if_neg hh).symm⟩,hna,ha⟩

lemma Consistent.lives_abort {handle : Option ℕ} (ht : (abort s.tasks handle)[k]? = some ts)
    (he : ts.phase = .ended) : ts.aborted = true := by
  obtain ⟨b,hb,rfl⟩ := getElem?_abort_eq_some.mp ht
  split_ifs at he ⊢ with hh
  · rfl
  · exact h.lives k b hb he

/-- A task that begins to run or ends concerns the registry only. -/
lemma Consistent.setPhase (hi : s.tasks[i]? = some ts) {p : Phase}
    {registry : CachedWatch (ListenersMap N)}
    (hr : ∀ n k, (if k = i then ts.name = n ∧ p = .running else s.Runs n k) ↔
      registry.value n = some k) (he : p = .ended → ts.aborted = true)
    (hf : ∀ wa : CachedWatcher (ListenersMap N), wa.Follows s.registry → wa.Follows registry) :
    (System.setPhase { s with registry } i p).Consistent where
  registered n k := (runs_setPhase hi p k).trans (hr n k)
  current n k := by
    refine (h.current n k).trans ?_
    simp only [getElem?_setPhase_eq_some]
    constructor
    · rintro ⟨ts,ht,hn,ha⟩
      refine ⟨_,⟨ts,ht,rfl⟩,?_,?_⟩
      · split_ifs <;> exact hn
      · split_ifs <;> exact ha
    · rintro ⟨_,⟨ts,ht,rfl⟩,hn,ha⟩
      refine ⟨ts,ht,?_,?_⟩
      · split_ifs at hn <;> exact hn
      · split_ifs at ha <;> exact ha
  lives k task' ht' hp := by
    obtain ⟨before,hb,rfl⟩ := getElem?_setPhase_eq_some.mp ht'
    split_ifs at hp ⊢ with hk
    · subst hk
      cases hi.symm.trans hb
      exact he hp
    · exact h.lives k before hb hp
  latest n k hk j task' hj hn := by
    obtain ⟨before,hb,rfl⟩ := getElem?_setPhase_eq_some.mp hj
    refine h.latest n k hk j before hb ?_
    split_ifs at hn <;> exact hn
  follows wa hw := hf wa (h.follows wa hw)

lemma Consistent.follows_view {th : ℕ} (hw : s.watchers[th]? = some wa) :
    (wa.getD s.registry.watcher).Follows s.registry := by
  cases wa with
  | none => exact follows_watcher s.registry
  | some wa => exact h.follows wa (mem_of_getElem? hw)

lemma Consistent.hasSender (hi : s.tasks[i]? = some ts) (hp : ts.phase = .running) :
    s.hasSender ts.name i = true := by
  have hse := (h.registered ts.name i).mp ⟨ts,hi,rfl,hp⟩
  rw [System.hasSender,hse]
  simp

end

variable [DecidableEq N] {s t : System N} {name : N} {i : ℕ} {task : ListenerTask N}

section

variable (h : s.Consistent)
include h

lemma consistent_startListener (name : N) : (s.startListener name).Consistent where
  registered n k := by
    refine Iff.trans ?_ (h.registered n k)
    rw [Runs,Runs,← exists_abort_iff s.tasks (s.handles name) fun n' p => n' = n ∧ p = .running]
    dsimp only [startListener]
    grind
  current n k := by
    have hab := h.current_abort name n k
    dsimp only [startListener]
    simp only [getElem?_concat_eq_some,length_abort,update_apply]
    by_cases hn : n = name
    · rw [if_pos hn,some_inj]
      constructor
      · intro hk
        exact ⟨{ name },.inr ⟨hk.symm,rfl⟩,hn.symm,rfl⟩
      · rintro ⟨task,ht | ⟨hk,-⟩,hna,ha⟩
        · exact absurd hn (hab.mp ⟨task,ht,hna,ha⟩).2
        · exact hk.symm
    · rw [if_neg hn]
      constructor
      · intro hk
        obtain ⟨task,ht,hr⟩ := hab.mpr ⟨hk,hn⟩
        exact ⟨task,.inl ht,hr⟩
      · rintro ⟨task,ht | ⟨-,rfl⟩,hna,ha⟩
        · exact (hab.mp ⟨task,ht,hna,ha⟩).1
        · exact absurd hna.symm hn
  lives k task ht he := by
    rcases getElem?_concat_eq_some.mp ht with ht | ⟨-,rfl⟩
    · exact h.lives_abort ht he
    · cases he
  latest n k hk j task hj hna := by
    have hk : update s.handles name (some s.tasks.length) n = some k := hk
    rw [update_apply] at hk
    rcases getElem?_concat_eq_some.mp hj with hj | ⟨hl,rfl⟩
    · obtain ⟨b,hbe,hb⟩ := (exists_abort_iff s.tasks _ fun n' _ => n' = n).mp ⟨task,hj,hna⟩
      split_ifs at hk with hn
      · obtain rfl : s.tasks.length = k := some.inj hk
        exact Nat.le_of_lt (List.getElem?_eq_some_iff.mp hbe).1
      · exact h.latest n k hk j b hbe hb
    · rw [if_pos hna.symm] at hk
      rw [hl,length_abort]
      exact Nat.le_of_eq (some.inj hk)
  follows := h.follows

lemma consistent_stopListener (na : N) : (s.stopListener na).Consistent where
  registered n k := by
    refine Iff.trans ?_ (h.registered n k)
    exact exists_abort_iff s.tasks _ fun n' p => n' = n ∧ p = .running
  current n k := by
    have ha := h.current_abort na n k
    dsimp only [stopListener]
    grind
  lives k task ht he := h.lives_abort ht he
  latest n k hk j task hj hna := by
    have hk : update s.handles na none n = some k := hk
    rw [update_apply] at hk
    obtain ⟨b,hbe,hb⟩ := (exists_abort_iff s.tasks _ fun n' _ => n' = n).mp ⟨task,hj,hna⟩
    split_ifs at hk with hn
    exact h.latest n k hk j b hbe hb
  follows := h.follows

lemma consistent_poll (hi : s.tasks[i]? = some task) (hp : task.phase = .spawned)
    (ha : ∀ j, ¬ s.Runs task.name j) :
    ((s.register task.name i).setPhase i .running).Consistent := by
  refine h.setPhase hi (fun n k => ?_) nofun fun _ hw => hw.update _
  change _ ↔ update s.registry.value task.name (some i) n = some k
  rw [update_apply]
  split_ifs with hk hn hn
  · exact iff_of_true ⟨hn.symm,rfl⟩ (congrArg some hk.symm)
  · refine iff_of_false (fun hand => hn hand.1.symm) fun hv => ?_
    obtain ⟨task',ht,-,hr⟩ := (h.registered n k).mpr hv
    cases hi.symm.trans (hk ▸ ht)
    rw [hp] at hr
    cases hr
  · rw [hn,some_inj]
    exact iff_of_false (ha k) fun heq => hk heq.symm
  · exact h.registered n k

lemma consistent_end (hi : s.tasks[i]? = some task) (hp : task.phase = .running)
    (ha : task.aborted = true) : ((s.unregister task.name).setPhase i .ended).Consistent := by
  refine h.setPhase hi (fun n k => ?_) (fun _ => ha) fun _ hw => hw.update _
  change _ ↔ update s.registry.value task.name none n = some k
  have hse := (h.registered task.name i).mp ⟨task,hi,rfl,hp⟩
  rw [update_apply]
  split_ifs with hk hn hn
  · exact iff_of_false (fun hand => by cases hand.2) nofun
  · refine iff_of_false (fun hand => by cases hand.2) fun hv => ?_
    obtain ⟨task',ht,hna,-⟩ := (h.registered n k).mpr hv
    cases hi.symm.trans (hk ▸ ht)
    exact hn hna.symm
  · refine iff_of_false (fun hr => ?_) nofun
    rw [hn,h.registered,hse,some_inj] at hr
    exact hk hr.symm
  · exact h.registered n k

lemma consistent_step {a : Action N} (hg : s.AloneAtStart a) (hst : s.step a = some t) :
    t.Consistent := by
  revert hg hst
  fun_cases s.step a <;> intro hg hst <;> cases hst
  · exact consistent_startListener h _
  · exact consistent_stopListener h _
  next hi => exact consistent_poll h hi rfl (hg _ hi)
  next i _ hi =>
    refine h.setPhase hi (fun n k => ?_) (fun _ => rfl) fun _ hw => hw
    rw [← h.registered n k]
    split_ifs with hk
    · refine iff_of_false (fun hand => by cases hand.2) ?_
      rintro ⟨task',ht,-,hr⟩
      obtain rfl := some.inj (hi.symm.trans (hk ▸ ht))
      cases hr
    · exact Iff.rfl
  next hi => exact consistent_end h hi rfl rfl
  next hi hn => exact absurd (h.hasSender hi rfl) hn
  next hw _ =>
    refine { h with follows := fun w hm => ?_ }
    rcases mem_or_eq_of_mem_set hm with hm | heq
    · exact h.follows w hm
    · rw [some.inj heq]
      exact (h.follows_view hw).cachedOrLatest _
  · exact ⟨h.registered,h.current,h.lives,h.latest,h.follows⟩

end

omit [DecidableEq N] in
lemma consistent_initial (threads : ℕ) : (initial threads : System N).Consistent where
  registered name k := by simp [Runs,initial]
  current name k := by simp [initial]
  lives k task ht := by simp [initial] at ht
  latest name k hk := by simp [initial] at hk
  follows watcher hw := by simp [initial] at hw

lemma length_watchers_step {a : Action N} (hst : s.step a = some t) :
    t.watchers.length = s.watchers.length := by
  cases a with
  | _ =>
    simp only [step] at hst
    grind [startListener,stopListener,setPhase,register,unregister]

lemma Consistent.settled (h : s.Consistent) (hse : s.Settled) (name : N) :
    s.registry.value name = s.handles name := by
  refine ext fun k => ?_
  rw [← h.registered name k,h.current name k]
  constructor
  · rintro ⟨⟨n',phase,a⟩,ht,rfl,rfl⟩
    refine ⟨_,ht,rfl,?_⟩
    have hc := (hse k).2.1
    simp only [step,ht] at hc
    cases a with
    | false => rfl
    | true => cases hc
  · rintro ⟨⟨n',phase,a⟩,ht,rfl,ha⟩
    refine ⟨_,ht,rfl,?_⟩
    cases phase with
    | running => rfl
    | spawned =>
      have hp := (hse k).1
      simp only [step,ht] at hp
      cases hp
    | ended =>
      have hl := h.lives k _ ht rfl
      rw [ha] at hl
      cases hl

omit [DecidableEq N] in
lemma Consistent.lookup_eq (h : s.Consistent) {th : ℕ} (ht : th < s.watchers.length)
    (name : N) : s.getConnectionSenderForListener th name = s.registry.value name := by
  have hw : s.watchers[th]? = some s.watchers[th] := getElem?_eq_getElem ht
  rw [getConnectionSenderForListener,hw,bind_some,view,(h.follows_view hw).copy_cachedOrLatest]

/-- In every run in which each task registers after the replaced task has been
dropped: once the tasks have settled, every lookup finds exactly the running
listener of the name, which is the one started last under that name and the one
the manager has. -/
theorem lookup_finds_running_listener {threads thread : ℕ} (hthread : thread < threads)
    {as : List (Action N)}
    (hrun : Run (Guarded AloneAtStart fun s a t => step s a = some t) (initial threads) as s)
    (hsettled : s.Settled) (name : N) :
    (∀ k, s.getConnectionSenderForListener thread name = some k ↔ s.Runs name k) ∧
    (∀ k, s.getConnectionSenderForListener thread name = some k →
      ∀ j task, s.tasks[j]? = some task → task.name = name → j ≤ k) ∧
    s.getConnectionSenderForListener thread name = s.handles name := by
  have h : s.Consistent := hrun.invariant Consistent
    (fun _ _ _ hs hst => consistent_step hs hst.1 hst.2) (consistent_initial threads)
  have hl : s.watchers.length = threads := hrun.invariant (fun s => s.watchers.length = threads)
    (fun _ _ _ hs hst => (length_watchers_step hst.2).trans hs) length_replicate
  rw [h.lookup_eq (hl ▸ hthread)]
  refine ⟨fun k => (h.registered name k).symm,fun k hk => ?_,h.settled hsettled name⟩
  rw [h.settled hsettled name] at hk
  exact h.latest name k hk

/-- The destructor of a replaced task removes the sender of the new one. While a
thread still has that sender in its copy the new listener runs and cannot be
found; otherwise its channel closes and it ends, although the manager has it. -/
theorem replaced_listener_not_found :
    (∃ s : System ℕ, Run (fun s a t => step s a = some t) (initial 2)
        [.add 0, .poll 0, .add 0, .poll 1, .lookup 0 0 true, .drop 1, .cancel 0] s ∧
      s.Settled ∧ s.Runs 0 1 ∧ s.getConnectionSenderForListener 1 0 = none) ∧
    ∃ s : System ℕ, Run (fun s a t => step s a = some t) (initial 2)
        [.add 0, .poll 0, .add 0, .poll 1, .cancel 0, .close 1] s ∧
      s.Settled ∧ s.handles 0 = some 1 ∧ ¬ s.Runs 0 1 ∧
      s.getConnectionSenderForListener 1 0 = none := by
  refine ⟨⟨_,Run.of_exec rfl,?_,⟨_,rfl,rfl,rfl⟩,rfl⟩,⟨_,Run.of_exec rfl,?_,rfl,?_,rfl⟩⟩
  · intro i
    rcases i with _ | _ | i <;> exact ⟨rfl,rfl,rfl⟩
  · intro i
    rcases i with _ | _ | i <;> exact ⟨rfl,rfl,rfl⟩
  · rintro ⟨task,ht,-,hr⟩
    cases ht
    cases hr

def replacedInOrder : System ℕ :=
  (exec step (initial 1) [.add 0,.poll 0,.add 0,.cancel 0,.poll 1]).getD (initial 1)

theorem replaced_listener_found :
    replacedInOrder.getConnectionSenderForListener 0 0 = some 1 ∧ replacedInOrder.Runs 0 1 := by
  have hru : Run (Guarded AloneAtStart fun s a t => step s a = some t) (initial 1)
      [.add 0,.poll 0,.add 0,.cancel 0,.poll 1] replacedInOrder := by
    refine .cons ⟨trivial,rfl⟩ (.cons ⟨?_,rfl⟩ (.cons ⟨trivial,rfl⟩ (.cons ⟨trivial,rfl⟩
      (.cons ⟨?_,rfl⟩ (.nil _)))))
    · rintro _ - j ⟨task,ht,-,hr⟩
      rcases j with _ | j
      · cases ht
        cases hr
      · cases ht
    · rintro _ - j ⟨task,ht,-,hr⟩
      rcases j with _ | _ | j
      · cases ht
        cases hr
      · cases ht
        cases hr
      · cases ht
  have hf := lookup_finds_running_listener Nat.one_pos hru (by
    intro i
    rcases i with _ | _ | i <;> exact ⟨rfl,rfl,rfl⟩) 0
  exact ⟨hf.2.2,(hf.1 1).mp hf.2.2⟩

end System

end ArionGateway.InternalListeners
