import ArionGateway.Executions
import ArionGateway.FirstMatch
import ArionGateway.GlobalRateLimit

/-!
# Interleavings of rate limit checks

Checks of one domain as tasks whose atomic operations are single steps. A quota is written by two
stores, and `remaining` is decremented on the strength of a load of `valid_until_ms` and a clock
reading from before. The number of admissions without a call never exceeds what the replies
granted, as long as `remaining` does not wrap. But an admission can be counted against a quota
that has expired: while a task waits for the lock or between its two operations time goes on, and
between the two stores of a refresh the count is still the old one.
-/
namespace ArionGateway.QuotaInterleavings
open Executions FirstMatch GlobalRateLimit List

/-- Where a check stands. `locked` tells whether it holds the lock of the bucket. -/
inductive Phase where
  | started
  | loading (locked : Bool)
  | consuming (locked : Bool)
  | waiting
  | calling (locked : Bool)
  | inserting (requests validUntilMs : ℕ) (verdict : Except String Unit)
  | storingUntil (locked : Bool) (requests validUntilMs : ℕ) (verdict : Except String Unit)
  | storingRemaining (locked : Bool) (requests validUntilMs : ℕ) (verdict : Except String Unit)
  | returning (locked : Bool) (verdict : Except String Unit)
  | returned (verdict : Except String Unit)
  | cancelled

structure Task where
  now : ℕ
  failureModeDeny : Bool
  phase : Phase

/-- An admission without a call: when, and until when the quota was valid whose
count was decremented. -/
structure Admission where
  time : ℕ
  quota : Option ℕ

/-- `owner` is the time of the reply whose count was stored last. -/
structure System where
  clock : ℕ := 0
  bucket : Option QuotaBucket := none
  locked : Bool := false
  tasks : List Task := []
  owner : Option ℕ := none
  admissions : List Admission := []

def System.setPhase (s : System) (i : ℕ) (phase : Phase) : System :=
  { s with tasks := s.tasks.modify i fun t => { t with phase } }

def Phase.refused (locked : Bool) : Phase := if locked then .calling true else .waiting

def Phase.answered (failureModeDeny locked : Bool) : Except String RateLimitResponse → Phase
  | .ok response =>
    match extractQuota response with
    | some (requests, validUntilMs) =>
      if locked then .storingUntil true requests validUntilMs (evalRlsResponse response)
      else .inserting requests validUntilMs (evalRlsResponse response)
    | none => .returning locked (evalRlsResponse response)
  | .error e => .returning locked (if failureModeDeny then .error e else .ok ())

inductive Action where
  | setClock (clock : ℕ)
  | start (failureModeDeny : Bool)
  | lookup (i : ℕ)
  | load (i : ℕ)
  | consume (i : ℕ)
  | acquire (i : ℕ)
  | reply (i : ℕ) (result : Except String RateLimitResponse)
  | insert (i : ℕ)
  | storeUntil (i : ℕ)
  | storeRemaining (i : ℕ)
  | finish (i : ℕ)
  | cancel (i : ℕ)

/-- The steps of `check`. A connection that goes away cancels its check at one of
the two awaits. -/
def System.step (s : System) : Action → Option System
  | .setClock clock => some { s with clock }
  | .start failureModeDeny =>
    some { s with tasks := s.tasks++[⟨s.clock,failureModeDeny,.started⟩] }
  | .lookup i =>
    match s.tasks[i]? with
    | some ⟨_,_,.started⟩ =>
      some (s.setPhase i (if s.bucket.isSome then .loading false else .calling false))
    | _ => none
  | .load i =>
    match s.tasks[i]?, s.bucket with
    | some ⟨now,_,.loading locked⟩, some b =>
      some (s.setPhase i (if now < b.validUntilMs then .consuming locked else .refused locked))
    | _, _ => none
  | .consume i =>
    match s.tasks[i]?, s.bucket with
    | some ⟨_,_,.consuming locked⟩, some b =>
      if 0 < b.remaining then
        some { s.setPhase i (.returning locked (.ok ())) with
          bucket := some { b with remaining := fetchSub b.remaining }
          admissions := ⟨s.clock,s.owner⟩::s.admissions }
      else
        some { s.setPhase i (.refused locked) with
          bucket := some { b with remaining := fetchSub b.remaining } }
    | _, _ => none
  | .acquire i =>
    match s.tasks[i]?, s.locked with
    | some ⟨_,_,.waiting⟩, false => some { s.setPhase i (.loading true) with locked := true }
    | _, _ => none
  | .reply i result =>
    match s.tasks[i]? with
    | some ⟨_,deny,.calling locked⟩ => some (s.setPhase i (.answered deny locked result))
    | _ => none
  | .insert i =>
    match s.tasks[i]? with
    | some ⟨_,_,.inserting requests validUntilMs verdict⟩ =>
      some { s.setPhase i (.storingUntil false requests validUntilMs verdict) with
        bucket := some (s.bucket.getD {}) }
    | _ => none
  | .storeUntil i =>
    match s.tasks[i]?, s.bucket with
    | some ⟨_,_,.storingUntil locked requests validUntilMs verdict⟩, some b =>
      some { s.setPhase i (.storingRemaining locked requests validUntilMs verdict) with
        bucket := some { b with validUntilMs } }
    | _, _ => none
  | .storeRemaining i =>
    match s.tasks[i]?, s.bucket with
    | some ⟨_,_,.storingRemaining locked requests validUntilMs verdict⟩, some b =>
      some { s.setPhase i (.returning locked verdict) with
        bucket := some { b with remaining := requests }
        owner := some validUntilMs }
    | _, _ => none
  | .finish i =>
    match s.tasks[i]? with
    | some ⟨_,_,.returning locked verdict⟩ =>
      some { s.setPhase i (.returned verdict) with locked := s.locked && !locked }
    | _ => none
  | .cancel i =>
    match s.tasks[i]? with
    | some ⟨_,_,.waiting⟩ => some (s.setPhase i .cancelled)
    | some ⟨_,_,.calling locked⟩ =>
      some { s.setPhase i .cancelled with locked := s.locked && !locked }
    | _ => none

inductive Step : System → Action → System → Prop
  | setClock {s : System} (clock : ℕ) : Step s (.setClock clock) { s with clock }
  | start {s : System} (failureModeDeny : Bool) :
      Step s (.start failureModeDeny)
        { s with tasks := s.tasks++[⟨s.clock,failureModeDeny,.started⟩] }
  | lookup {s : System} {i now : ℕ} {deny : Bool} (ht : s.tasks[i]? = some ⟨now,deny,.started⟩) :
      Step s (.lookup i)
        (s.setPhase i (if s.bucket.isSome then .loading false else .calling false))
  | load {s : System} {i now : ℕ} {deny locked : Bool} {b : QuotaBucket}
      (ht : s.tasks[i]? = some ⟨now,deny,.loading locked⟩) (hb : s.bucket = some b) :
      Step s (.load i)
        (s.setPhase i (if now < b.validUntilMs then .consuming locked else .refused locked))
  | grant {s : System} {i now : ℕ} {deny locked : Bool} {b : QuotaBucket}
      (ht : s.tasks[i]? = some ⟨now,deny,.consuming locked⟩) (hb : s.bucket = some b)
      (hpos : 0 < b.remaining) :
      Step s (.consume i)
        { s.setPhase i (.returning locked (.ok ())) with
          bucket := some { b with remaining := fetchSub b.remaining }
          admissions := ⟨s.clock,s.owner⟩::s.admissions }
  | exhaust {s : System} {i now : ℕ} {deny locked : Bool} {b : QuotaBucket}
      (ht : s.tasks[i]? = some ⟨now,deny,.consuming locked⟩) (hb : s.bucket = some b)
      (hpos : b.remaining ≤ 0) :
      Step s (.consume i)
        { s.setPhase i (.refused locked) with
          bucket := some { b with remaining := fetchSub b.remaining } }
  | acquire {s : System} {i now : ℕ} {deny : Bool} (ht : s.tasks[i]? = some ⟨now,deny,.waiting⟩)
      (hl : s.locked = false) :
      Step s (.acquire i) { s.setPhase i (.loading true) with locked := true }
  | reply {s : System} {i now : ℕ} {deny locked : Bool}
      (ht : s.tasks[i]? = some ⟨now,deny,.calling locked⟩)
      (result : Except String RateLimitResponse) :
      Step s (.reply i result) (s.setPhase i (.answered deny locked result))
  | insert {s : System} {i now requests validUntilMs : ℕ} {deny : Bool}
      {verdict : Except String Unit}
      (ht : s.tasks[i]? = some ⟨now,deny,.inserting requests validUntilMs verdict⟩) :
      Step s (.insert i)
        { s.setPhase i (.storingUntil false requests validUntilMs verdict) with
          bucket := some (s.bucket.getD {}) }
  | storeUntil {s : System} {i now requests validUntilMs : ℕ} {deny locked : Bool}
      {verdict : Except String Unit} {b : QuotaBucket}
      (ht : s.tasks[i]? = some ⟨now,deny,.storingUntil locked requests validUntilMs verdict⟩)
      (hb : s.bucket = some b) :
      Step s (.storeUntil i)
        { s.setPhase i (.storingRemaining locked requests validUntilMs verdict) with
          bucket := some { b with validUntilMs } }
  | storeRemaining {s : System} {i now requests validUntilMs : ℕ} {deny locked : Bool}
      {verdict : Except String Unit} {b : QuotaBucket}
      (ht : s.tasks[i]? = some ⟨now,deny,.storingRemaining locked requests validUntilMs verdict⟩)
      (hb : s.bucket = some b) :
      Step s (.storeRemaining i)
        { s.setPhase i (.returning locked verdict) with
          bucket := some { b with remaining := requests }
          owner := some validUntilMs }
  | finish {s : System} {i now : ℕ} {deny locked : Bool} {verdict : Except String Unit}
      (ht : s.tasks[i]? = some ⟨now,deny,.returning locked verdict⟩) :
      Step s (.finish i)
        { s.setPhase i (.returned verdict) with locked := s.locked && !locked }
  | cancelWaiting {s : System} {i now : ℕ} {deny : Bool}
      (ht : s.tasks[i]? = some ⟨now,deny,.waiting⟩) :
      Step s (.cancel i) (s.setPhase i .cancelled)
  | cancelCalling {s : System} {i now : ℕ} {deny locked : Bool}
      (ht : s.tasks[i]? = some ⟨now,deny,.calling locked⟩) :
      Step s (.cancel i) { s.setPhase i .cancelled with locked := s.locked && !locked }

variable {s t : System} {a : Action}

lemma Step.of_step (h : s.step a = some t) : Step s a t := by
  revert h
  fun_cases s.step a <;> intro h <;> cases h
  · exact .setClock _
  · exact .start _
  · exact .lookup ‹_›
  · exact .load ‹_› ‹_›
  · exact .grant ‹_› ‹_› ‹_›
  · exact .exhaust ‹_› ‹_› (Int.not_lt.mp ‹_›)
  · exact .acquire ‹_› ‹_›
  · exact .reply ‹_› _
  · exact .insert ‹_›
  · exact .storeUntil ‹_› ‹_›
  · exact .storeRemaining ‹_› ‹_›
  · exact .finish ‹_›
  · exact .cancelWaiting ‹_›
  · exact .cancelCalling ‹_›

/-- What a reply grants beyond the connection that asked. -/
def Action.granted : Action → ℕ
  | .reply _ (.ok response) => ((extractQuota response).map Prod.fst).getD 0
  | _ => 0

def granted (as : List Action) : ℕ := (as.map Action.granted).sum

/-- What a task has been granted and not stored yet. -/
def Phase.pending : Phase → ℕ
  | .inserting requests _ _ => requests
  | .storingUntil _ requests _ _ => requests
  | .storingRemaining _ requests _ _ => requests
  | _ => 0

def System.pending (s : System) : ℕ := (s.tasks.map fun t => t.phase.pending).sum

def System.remaining (s : System) : ℕ := ((s.bucket.getD {}).remaining).toNat

/-- What has been admitted and what can still be admitted out of the replies so
far. -/
def System.spent (s : System) : ℕ := s.admissions.length+s.remaining+s.pending

lemma toNat_fetchSub_of_pos {r : ℤ} (h : 0 < r) : (fetchSub r).toNat+1 ≤ r.toNat := by
  unfold fetchSub
  rw [Int.bmod_def]
  split <;> omega

lemma toNat_fetchSub_of_nonpos {r : ℤ} (h : r ≤ 0) (hm : -2^63 < r) : (fetchSub r).toNat = 0 := by
  unfold fetchSub
  rw [Int.bmod_def]
  split <;> omega

/-- `remaining` is above the least value of its type when it is decremented. -/
def NotWrapping (s : System) : Action → Prop
  | .consume _ => ∀ b, s.bucket = some b → -2^63 < b.remaining
  | _ => True

open Phase

lemma pending_refused (l : Bool) : (refused l).pending = 0 := by
  cases l <;> rfl

lemma pending_answered (d l : Bool) (i : ℕ) (r : Except String RateLimitResponse) :
    (answered d l r).pending = (Action.reply i r).granted := by
  cases r with
  | error e => rfl
  | ok re =>
    cases hq : extractQuota re with
    | none => simp [answered,Action.granted,hq,pending]
    | some q => cases l <;> simp [answered,Action.granted,hq,pending]

variable {phase : Phase} {task : Task} {i : ℕ}

lemma spent_le_of_setPhase {g : ℕ} (h : s.tasks[i]? = some task)
    (ht : t.tasks = (s.setPhase i phase).tasks)
    (hle : t.admissions.length+t.remaining+phase.pending ≤
      s.admissions.length+s.remaining+task.phase.pending+g) : t.spent ≤ s.spent+g := by
  have hp : t.pending+task.phase.pending = s.pending+phase.pending := by
    rw [System.pending,ht]
    exact sum_map_modify (fun t => t.phase.pending) (fun t => { t with phase }) h
  unfold System.spent
  omega

lemma Step.spent_le (hg : NotWrapping s a) (h : Step s a t) : t.spent ≤ s.spent+a.granted := by
  cases h with
  | setClock => exact Nat.le_add_right ..
  | start => simp [System.spent,System.pending,System.remaining,pending]
  | lookup ht =>
    refine spent_le_of_setPhase ht rfl (Nat.le_trans (Nat.le_of_eq ?_) (Nat.le_add_right ..))
    cases hb : s.bucket <;> simp [System.remaining,System.setPhase,pending]
  | load ht hb =>
    refine spent_le_of_setPhase ht rfl (Nat.le_trans (Nat.le_of_eq ?_) (Nat.le_add_right ..))
    split
    · rfl
    · rw [pending_refused]
      rfl
  | grant ht hb hpos =>
    refine spent_le_of_setPhase ht rfl ?_
    have hr := toNat_fetchSub_of_pos hpos
    simp only [System.remaining,hb,Option.getD_some,length_cons,pending]
    omega
  | exhaust ht hb hpos =>
    refine spent_le_of_setPhase ht rfl ?_
    have hr := toNat_fetchSub_of_nonpos hpos (hg _ hb)
    simp only [System.remaining,Option.getD_some,pending_refused,System.setPhase]
    omega
  | acquire ht hl => exact spent_le_of_setPhase ht rfl (Nat.le_add_right ..)
  | @reply i now d l ht r =>
    refine spent_le_of_setPhase ht rfl ?_
    rw [pending_answered d l i]
    exact le_refl _
  | insert ht => exact spent_le_of_setPhase ht rfl (Nat.le_add_right ..)
  | storeUntil ht hb =>
    refine spent_le_of_setPhase ht rfl ?_
    simp only [System.remaining,hb]
    exact Nat.le_add_right ..
  | storeRemaining ht hb =>
    refine spent_le_of_setPhase ht rfl ?_
    simp only [System.remaining,Option.getD_some,pending,System.setPhase]
    omega
  | finish ht | cancelWaiting ht | cancelCalling ht =>
    exact spent_le_of_setPhase ht rfl (Nat.le_add_right ..)

lemma spent_le_of_run (h : Run (Guarded NotWrapping Step) s as t) :
    t.spent ≤ s.spent+granted as := by
  induction h with
  | nil => exact Nat.le_add_right ..
  | cons h _ ih =>
    have hs := h.2.spent_le h.1
    simp only [granted,map_cons,sum_cons] at ih ⊢
    omega

/-- The time of the quota that a task has stored the first half of. -/
def Phase.between : Phase → Option ℕ
  | .storingRemaining _ _ validUntilMs _ => some validUntilMs
  | _ => none

def System.between (s : System) (i : ℕ) : Option ℕ := s.tasks[i]?.bind fun t => t.phase.between

section

variable (h : s.tasks[i]? = some task) (ht : t.tasks = (s.setPhase i phase).tasks)
include h ht

lemma between_setPhase (j : ℕ) : t.between j = if i = j then phase.between else s.between j := by
  unfold System.between
  rw [ht,System.setPhase]
  by_cases hij : i = j
  · subst hij
    simp [h]
  · simp [hij]

lemma between_eq_of_setPhase (hp : phase.between = task.phase.between) : t.between = s.between := by
  funext j
  rw [between_setPhase h ht]
  split
  next hij =>
    subst hij
    simp [System.between,h,hp]
  · rfl

lemma between_none_of_setPhase (hp : phase.between = none)
    (hn : ∀ j, i ≠ j → s.between j = none) (j : ℕ) : t.between j = none := by
  rw [between_setPhase h ht]
  split
  · exact hp
  next hij => exact hn j hij

end

lemma between_none_of_tasks (h : ∀ t ∈ s.tasks, t.phase.between = none) (i : ℕ) :
    s.between i = none := by
  unfold System.between
  cases ht : s.tasks[i]? with
  | none => rfl
  | some t => exact h t (mem_of_getElem? ht)

lemma between_refused (l : Bool) : (refused l).between = none := by
  cases l <;> rfl

lemma between_answered (d l : Bool) (r : Except String RateLimitResponse) :
    (answered d l r).between = none := by
  cases r with
  | error e => rfl
  | ok re =>
    cases hq : extractQuota re with
    | none => simp [answered,hq,between]
    | some q => cases l <;> simp [answered,hq,between]

/-- Stores do not interleave, and `remaining` is decremented only between them,
while the clock is before the stored time, and above the least value of its type. -/
def Timely (s : System) : Action → Prop
  | .consume _ => (∀ i, s.between i = none) ∧
      ∀ b, s.bucket = some b → -2^63 < b.remaining ∧ s.clock < b.validUntilMs
  | .storeUntil _ => ∀ i, s.between i = none
  | _ => True

/-- At most one quota is half stored; otherwise the stored time is that of the
quota whose count is stored, if anything is left of it. -/
structure Coherent (s : System) : Prop where
  stored : ∀ i v, s.between i = some v → ∃ b, s.bucket = some b ∧ b.validUntilMs = v
  unique : ∀ i j v w, s.between i = some v → s.between j = some w → i = j
  owner : (∀ i, s.between i = none) → ∀ b, s.bucket = some b →
    s.owner = some b.validUntilMs ∨ b.remaining ≤ 0
  valid : ∀ a ∈ s.admissions, ∃ v, a.quota = some v ∧ a.time < v

lemma Coherent.congr (h : Coherent s) (hbe : t.between = s.between)
    (hb : t.bucket = s.bucket) (ho : t.owner = s.owner) (ha : t.admissions = s.admissions) :
    Coherent t := by
  refine ⟨?_,?_,?_,?_⟩
  · rw [hbe,hb]
    exact h.stored
  · rw [hbe]
    exact h.unique
  · rw [hbe,hb,ho]
    exact h.owner
  · rw [ha]
    exact h.valid

lemma Coherent.of_none (hn : ∀ i, s.between i = none)
    (ho : ∀ b, s.bucket = some b → s.owner = some b.validUntilMs ∨ b.remaining ≤ 0)
    (hva : ∀ a ∈ s.admissions, ∃ v, a.quota = some v ∧ a.time < v) : Coherent s := by
  refine ⟨fun i v hv => ?_,fun i _ v _ hv _ => ?_,fun _ => ho,hva⟩
  · rw [hn] at hv
    cases hv
  · rw [hn] at hv
    cases hv

lemma Coherent.of_one {b : QuotaBucket} (i : ℕ)
    (hbe : ∀ j, s.between j = if i = j then some b.validUntilMs else none)
    (hb : s.bucket = some b) (hva : ∀ a ∈ s.admissions, ∃ v, a.quota = some v ∧ a.time < v) :
    Coherent s := by
  have ho : ∀ {j v}, s.between j = some v → i = j ∧ b.validUntilMs = v := by
    intro j v hv
    rw [hbe] at hv
    split at hv
    next hij => exact ⟨hij,Option.some.inj hv⟩
    · cases hv
  refine ⟨fun j v hv => ⟨b,hb,(ho hv).2⟩,fun j k v w hv hw => ?_,fun ha => ?_,hva⟩
  · exact (ho hv).1.symm.trans (ho hw).1
  · have hi := ha i
    rw [hbe,if_pos rfl] at hi
    cases hi

lemma between_start (s : System) (deny : Bool) :
    System.between { s with tasks := s.tasks++[⟨s.clock,deny,.started⟩] } = s.between := by
  funext j
  unfold System.between
  rw [getElem?_append]
  split
  · rfl
  next hj =>
    rw [getElem?_eq_none (by omega : s.tasks.length ≤ j),getElem?_singleton]
    split <;> rfl

lemma Step.coherent (hs : Coherent s) (h : Guarded Timely Step s a t) : Coherent t := by
  obtain ⟨hg,h⟩ := h
  cases h with
  | setClock => exact hs.congr rfl rfl rfl rfl
  | start => exact hs.congr (between_start s _) rfl rfl rfl
  | lookup ht =>
    refine hs.congr (between_eq_of_setPhase ht rfl ?_) rfl rfl rfl
    split <;> rfl
  | load ht hb =>
    refine hs.congr (between_eq_of_setPhase ht rfl ?_) rfl rfl rfl
    split
    · rfl
    · exact between_refused _
  | @grant i now d l b ht hb hpos =>
    obtain ⟨hn,hre⟩ := hg
    have hon : s.owner = some b.validUntilMs := by
      rcases hs.owner hn b hb with ho | hle
      · exact ho
      · omega
    refine .of_none (between_none_of_setPhase ht rfl rfl fun j _ => hn j) (fun c hc => ?_)
      (fun a ha => ?_)
    · cases hc
      exact .inl hon
    · rcases mem_cons.mp ha with rfl | ha
      · exact ⟨_,hon,(hre b hb).2⟩
      · exact hs.valid a ha
  | @exhaust i now d l b ht hb hpos =>
    obtain ⟨hn,hre⟩ := hg
    have hr := toNat_fetchSub_of_nonpos hpos (hre b hb).1
    refine .of_none (between_none_of_setPhase ht rfl (between_refused _) fun j _ => hn j)
      (fun c hc => ?_) hs.valid
    cases hc
    exact .inr (Int.toNat_eq_zero.mp hr)
  | acquire ht hl => exact hs.congr (between_eq_of_setPhase ht rfl rfl) rfl rfl rfl
  | reply ht re =>
    exact hs.congr (between_eq_of_setPhase ht rfl (between_answered ..)) rfl rfl rfl
  | insert ht =>
    cases hb : s.bucket with
    | some b => exact hs.congr (between_eq_of_setPhase ht rfl rfl) (by simp [hb]) rfl rfl
    | none =>
      have hn : ∀ j, s.between j = none := by
        intro j
        cases hj : s.between j with
        | none => rfl
        | some v =>
          obtain ⟨b,hb',_⟩ := hs.stored j v hj
          rw [hb] at hb'
          cases hb'
      refine .of_none (between_none_of_setPhase ht rfl rfl fun j _ => hn j) (fun c hc => ?_)
        hs.valid
      cases hc
      exact .inr (Int.le_refl 0)
  | @storeUntil i now r validUntilMs d l ve b ht hb =>
    have hn : ∀ j, s.between j = none := hg
    refine .of_one i (fun j => Eq.trans (between_setPhase ht rfl j) ?_) rfl hs.valid
    rw [hn]
    rfl
  | @storeRemaining i now r validUntilMs d l ve b ht hb =>
    have hi : s.between i = some validUntilMs := by simp [System.between,ht,between]
    have hoh : ∀ j, i ≠ j → s.between j = none := by
      intro j hij
      cases hj : s.between j with
      | none => rfl
      | some v => exact absurd (hs.unique i j _ _ hi hj) hij
    refine .of_none (between_none_of_setPhase ht rfl rfl hoh) (fun c hc => ?_) hs.valid
    cases hc
    obtain ⟨b',hb',hv⟩ := hs.stored i _ hi
    cases hb.symm.trans hb'
    exact .inl (congrArg some hv.symm)
  | finish ht | cancelWaiting ht | cancelCalling ht =>
    exact hs.congr (between_eq_of_setPhase ht rfl rfl) rfl rfl rfl

lemma notWrapping_of_timely (h : Timely s a) : NotWrapping s a := by
  cases a with
  | consume i => exact fun b hb => (h.2 b hb).1
  | _ => trivial

/-- Admissions without a call never exceed what the replies granted beyond the
connections that asked, as long as `remaining` does not wrap. In a run whose
decrements and stores are timely, each is counted against a quota that is valid
at that moment. -/
theorem admissions_covered_of_timely (as : List Action) (s : System) :
    (Run (Guarded NotWrapping fun s a t => s.step a = some t) {} as s →
      s.admissions.length ≤ granted as) ∧
    (Run (Guarded Timely fun s a t => s.step a = some t) {} as s →
      s.admissions.length ≤ granted as ∧
      ∀ a ∈ s.admissions, ∃ v, a.quota = some v ∧ a.time < v) := by
  have hc : Run (Guarded NotWrapping Step) {} as s → s.admissions.length ≤ granted as := by
    intro h
    have hs := spent_le_of_run h
    have hi : ({} : System).spent = 0 := rfl
    unfold System.spent at hs hi
    omega
  constructor
  · intro h
    exact hc (h.mono fun _ _ _ h => ⟨h.1,.of_step h.2⟩)
  · intro h
    have hr : Run (Guarded Timely Step) {} as s := h.mono fun _ _ _ h => ⟨h.1,.of_step h.2⟩
    have hs : Coherent s := hr.invariant Coherent (fun _ _ _ => Step.coherent)
      (.of_none (fun _ => rfl) nofun nofun)
    exact ⟨hc (hr.mono fun _ _ _ h => ⟨notWrapping_of_timely h.1,h.2⟩),hs.valid⟩

def firstGrant : List Action :=
  [.start true,.lookup 0,.reply 0 (.ok granting),.insert 0,.storeUntil 0,.storeRemaining 0,
    .finish 0,.start true,.lookup 1,.load 1,.consume 1]

theorem firstGrant_covered :
    ∃ s : System, s.admissions.length = 1 ∧ granted firstGrant = 1 ∧
      ∀ a ∈ s.admissions, ∃ v, a.quota = some v ∧ a.time < v := by
  have hr : ∃ s, s.admissions.length = 1 ∧
      Run (Guarded Timely fun s a t => System.step s a = some t) {} firstGrant s := by
    refine ⟨_,?_,.cons ⟨trivial,rfl⟩ <| .cons ⟨trivial,rfl⟩ <| .cons ⟨trivial,rfl⟩ <|
      .cons ⟨trivial,rfl⟩ <| .cons ⟨between_none_of_tasks ?_,rfl⟩ <| .cons ⟨trivial,rfl⟩ <|
      .cons ⟨trivial,rfl⟩ <| .cons ⟨trivial,rfl⟩ <| .cons ⟨trivial,rfl⟩ <|
      .cons ⟨trivial,rfl⟩ <| .cons ⟨⟨between_none_of_tasks ?_,fun b hb => ?_⟩,rfl⟩ <| .nil _⟩
    · rfl
    · decide
    · decide
    · cases hb
      decide
  obtain ⟨s,hlen,hr⟩ := hr
  exact ⟨s,hlen,rfl,((admissions_covered_of_timely _ s).2 hr).2⟩

def lockWait : List Action :=
  [.start true,.lookup 2,.load 2,.consume 2,.acquire 2,.load 2,.consume 2,
    .start true,.lookup 3,.load 3,.consume 3,
    .reply 2 (.ok granting),.storeUntil 2,.storeRemaining 2,.finish 2,
    .setClock 5000,.acquire 3,.load 3,.consume 3]

/-- The fourth check goes by the time at which it started and is admitted four
seconds after the quota has expired. -/
theorem expired_quota_consumed :
    ∃ s, Run (fun s a t => System.step s a = some t) {} (firstGrant ++ lockWait) s ∧
      ⟨5000, some 1000⟩ ∈ s.admissions :=
  ⟨_,.of_exec rfl,mem_cons_self⟩

end ArionGateway.QuotaInterleavings
