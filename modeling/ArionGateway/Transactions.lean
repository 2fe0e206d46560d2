import Mathlib.Data.List.Basic
import Mathlib.Data.Nat.Basic

/-!
# The completion of a transaction

Each of the two bodies of a transaction has a callback for its completion. The
callbacks share a counter that every question for completeness advances: the
first question is answered with no and every later one with yes. A callback asks
once to account for the transaction, if the build has an access log or metrics,
and once more to end the server span, if it has tracing.
-/
namespace ArionGateway.Transactions
open List

inductive BodyKind | request | response
  deriving DecidableEq

structure Features where
  accessLog : Bool
  metrics : Bool
  tracing : Bool

def Features.accounts (f : Features) : Bool := f.accessLog || f.metrics

/-- What a side reports of its body: its bytes, an event and the response flags. -/
structure Completion (E : Type) where
  bytes : ℕ
  event : Option E
  flags : ℕ

structure HttpTxnFlush (E : Type) where
  body : Completion E
  bodyIsResponse : Bool

/-- The shared counter and state of a transaction, its registered flushes and the
ends of its server span. Both are kept with the bodies whose callback had begun
at that time, which `begun` collects. -/
structure TransactionContext (E : Type) where
  phase : ℕ
  state : Completion E
  flushes : List (HttpTxnFlush E × List BodyKind)
  ended : List (List BodyKind)
  begun : List BodyKind

def TransactionContext.new (E : Type) : TransactionContext E := ⟨0,⟨0,none,0⟩,[],[],[]⟩

inductive Step
  | account (body : BodyKind)
  | trace (body : BodyKind)

def Step.body : Step → BodyKind
  | .account body | .trace body => body

def Step.isAccount : Step → Bool
  | .account _ => true
  | .trace _ => false

def callback (f : Features) (body : BodyKind) : List Step :=
  (if f.accounts then [.account body] else [])++if f.tracing then [.trace body] else []

/-- How a transaction ends, which decides the bodies that get their callback. -/
inductive Ending | normal | earlyFailure | upstreamError
  deriving DecidableEq

def Ending.attaches : Ending → BodyKind → Bool
  | .normal, _ => true
  | .earlyFailure, body => body == .response
  | .upstreamError, body => body == .request

/-- An interleaving of the callbacks. A body keeps its callback in builds with an
access log or metrics only, and `called` are the callbacks that are called. -/
def Runs (f : Features) (ending : Ending) (called : BodyKind → Bool) (steps : List Step) : Prop :=
  ∀ body, steps.filter (fun s => s.body = body) =
    if f.accounts && ending.attaches body && called body then callback f body else []

open Step

variable {E : Type}

/-- The flags and the event of a response are those of its failure and of its body. -/
def side (initial : Option E × ℕ) (reports : BodyKind → Completion E) : BodyKind → Completion E
  | .request => reports .request
  | .response =>
    let body := reports .response
    ⟨body.bytes,initial.1.or body.event,initial.2 ||| body.flags⟩

def isComplete (c : TransactionContext E) : Bool × TransactionContext E :=
  (decide (0 < c.phase), { c with phase := c.phase+1 })

variable (span : Bool) (sides : BodyKind → Completion E)

def exec (c : TransactionContext E) (s : Step) : TransactionContext E :=
  let (complete, c) := isComplete { c with begun := c.begun++[s.body] }
  match s with
  | .account body =>
    if complete then
      { c with flushes := c.flushes++[(⟨sides body,body == .response⟩, c.begun)] }
    else { c with state := sides body }
  | .trace _ => { c with ended := if complete && span then c.ended++[c.begun] else c.ended }

def run (steps : List Step) : TransactionContext E :=
  steps.foldl (exec span sides) (TransactionContext.new E)

/-- `HttpTxnFlush::run`: the bytes received and sent, the event and the flags. -/
def HttpTxnFlush.run (flush : HttpTxnFlush E) (state : Completion E) : ℕ × ℕ × Option E × ℕ :=
  let (received, sent) :=
    if flush.bodyIsResponse then (state.bytes, flush.body.bytes) else (flush.body.bytes, state.bytes)
  (received, sent, state.event.or flush.body.event, state.flags ||| flush.body.flags)

/-- One flush is registered, after both bodies, and accounts for both. -/
def FlushedOnce (c : TransactionContext E) : Prop :=
  ∃ flush begun event, c.flushes = [(flush, begun)] ∧ (∀ body, body ∈ begun) ∧
    flush.run c.state = ((sides .request).bytes, (sides .response).bytes, event,
      (sides .request).flags ||| (sides .response).flags)

/-- The server span, if there is one, is ended once, after both bodies. -/
def SpanEndedOnce (f : Features) (c : TransactionContext E) : Prop :=
  f.tracing = true → span = true → ∃ begun, c.ended = [begun] ∧ ∀ body, body ∈ begun

variable {span sides} {f : Features} {ending : Ending} {called : BodyKind → Bool} {steps : List Step}
  {c : TransactionContext E}

lemma exec_account (hc : 0 < c.phase) (b : BodyKind) : exec span sides c (.account b) = { c with
      phase := c.phase+1
      begun := c.begun++[b]
      flushes := c.flushes++[(⟨sides b,b == .response⟩, c.begun++[b])] } := by
  simp [exec,isComplete,hc,body]

lemma exec_trace (hc : 0 < c.phase) (b : BodyKind) : exec span sides c (.trace b) = { c with
      phase := c.phase+1
      begun := c.begun++[b]
      ended := if span then c.ended++[c.begun++[b]] else c.ended } := by
  simp [exec,isComplete,hc,body]

/-- Once the counter has been advanced, every step finds the transaction complete. -/
lemma foldl_exec_of_phase_pos (hc : 0 < c.phase) :
    (steps.foldl (exec span sides) c).state = c.state ∧
    (steps.foldl (exec span sides) c).flushes.length = c.flushes.length+steps.countP isAccount ∧
    (span = true → (steps.foldl (exec span sides) c).ended.length =
      c.ended.length+steps.countP (!isAccount ·)) ∧
    ∀ x ∈ (steps.foldl (exec span sides) c).flushes, x ∈ c.flushes ∨ ∃ bo,
      .account bo ∈ steps ∧ x.1 = ⟨sides bo,bo == .response⟩ ∧ bo ∈ x.2 ∧ c.begun ⊆ x.2 := by
  induction steps generalizing c with
  | nil => exact ⟨rfl,rfl,fun _ => rfl,fun x hx => .inl hx⟩
  | cons s steps ih =>
    cases s with
    | account bo =>
      rw [foldl_cons,exec_account hc,countP_cons_of_pos rfl]
      obtain ⟨hs,hf,he,hm⟩ := ih (c := { c with
        phase := c.phase+1
        begun := c.begun++[bo]
        flushes := c.flushes++[(⟨sides bo,bo == .response⟩, c.begun++[bo])] })
        (Nat.succ_pos _)
      refine ⟨hs,?_,he,fun x hx => ?_⟩
      · rw [hf,length_append,length_singleton]
        omega
      · rcases hm x hx with hx | ⟨b,hb,hx,hbx,hsub⟩
        · refine (mem_append.mp hx).imp_right fun hx => ⟨bo,.head _,?_⟩
          rw [mem_singleton.mp hx]
          exact ⟨rfl,by simp,by simp⟩
        · exact .inr ⟨b,.tail _ hb,hx,hbx,fun _ h => hsub (mem_append_left _ h)⟩
    | trace bo =>
      rw [foldl_cons,exec_trace hc,countP_cons_of_neg (by simp [isAccount]),countP_cons_of_pos rfl]
      obtain ⟨hs,hf,he,hm⟩ := ih (c := { c with
        phase := c.phase+1
        begun := c.begun++[bo]
        ended := if span then c.ended++[c.begun++[bo]] else c.ended }) (Nat.succ_pos _)
      refine ⟨hs,hf,fun hspan => ?_,fun x hx => (hm x hx).imp_right ?_⟩
      · rw [he hspan,if_pos hspan,length_append,length_singleton]
        omega
      · rintro ⟨b,hb,hx,hbx,hsub⟩
        exact ⟨b,.tail _ hb,hx,hbx,fun _ h => hsub (mem_append_left _ h)⟩

lemma countP_eq_of_filters (p : Step → Bool) (st : List Step) :
    st.countP p = (st.filter fun s => s.body = .request).countP p +
      (st.filter fun s => s.body = .response).countP p := by
  induction st with
  | nil => rfl
  | cons s st ih =>
    cases hb : s.body <;> simp [hb,countP_cons] <;> omega

lemma countP_callback (hf : f.accounts = true) (b : BodyKind) :
    (callback f b).countP isAccount = 1 ∧
      (callback f b).countP (!isAccount ·) = f.tracing.toNat := by
  unfold callback
  rw [hf]
  cases f.tracing <;> exact ⟨rfl,rfl⟩

lemma Runs.head (h : Runs f ending called steps) (hf : f.accounts = true) :
    steps = [] ∨ ∃ bo rest, steps = .account bo::rest := by
  cases steps with
  | nil => exact .inl rfl
  | cons s rest =>
    have hs := h s.body
    rw [filter_cons_of_pos (by simp)] at hs
    split at hs
    · unfold callback at hs
      rw [hf] at hs
      exact .inr ⟨s.body,rest,by rw [(cons.inj hs).1]; rfl⟩
    · cases hs

lemma Runs.nil (h : Runs f ending called steps) (hf : f.accounts = false) : steps = [] := by
  cases steps with
  | nil => rfl
  | cons s r =>
    have hs := h s.body
    rw [filter_cons_of_pos (by simp),hf] at hs
    cases hs

lemma Runs.countP (h : Runs f ending called steps) (p : Step → Bool) : steps.countP p =
    (if f.accounts && ending.attaches .request && called .request then callback f .request
      else []).countP p +
    (if f.accounts && ending.attaches .response && called .response then callback f .response
      else []).countP p := by
  rw [countP_eq_of_filters,h,h]

lemma run_account (s : Bool) (si : BodyKind → Completion E) (b : BodyKind) (r : List Step) :
    (run s si (.account b::r)).state = si b ∧
    (run s si (.account b::r)).flushes.length = r.countP isAccount ∧
    (s = true → (run s si (.account b::r)).ended.length = r.countP (!isAccount ·)) ∧
    ∀ x ∈ (run s si (.account b::r)).flushes, ∃ o, .account o ∈ r ∧
      x.1 = ⟨si o,o == .response⟩ ∧ o ∈ x.2 ∧ b ∈ x.2 := by
  obtain ⟨hs,hf,he,hm⟩ := foldl_exec_of_phase_pos (c := ⟨1,si b,[],[],[b]⟩) Nat.one_pos
  refine ⟨hs,hf.trans (Nat.zero_add _),fun h => (he h).trans (Nat.zero_add _),fun x hx => ?_⟩
  obtain ⟨o,ho,hx,hox,hsub⟩ := (hm x hx).resolve_left not_mem_nil
  exact ⟨o,ho,hx,hox,hsub (.head _)⟩

lemma Runs.countP_isAccount (h : Runs f ending called steps) (hf : f.accounts = true) :
    steps.countP isAccount = (ending.attaches .request && called .request).toNat +
      (ending.attaches .response && called .response).toNat := by
  have hone : ∀ bo, (if f.accounts && ending.attaches bo && called bo then callback f bo
      else []).countP isAccount = (ending.attaches bo && called bo).toNat := by
    intro bo
    rw [hf,Bool.true_and]
    cases ending.attaches bo && called bo
    · rfl
    · exact (countP_callback hf bo).1
  rw [h.countP,hone,hone]

lemma Runs.not_mem_tail {body : BodyKind} {rest : List Step}
    (h : Runs f ending called (.account body::rest)) : account body ∉ rest := by
  intro hm
  have hb := h body
  rw [filter_cons_of_pos (by simp [Step.body])] at hb
  split at hb
  next hc =>
    have hf : f.accounts = true := (Bool.and_eq_true_iff.mp (Bool.and_eq_true_iff.mp hc).1).1
    unfold callback at hb
    rw [hf] at hb
    have hmem : account body ∈ rest.filter fun s => s.body = body :=
      mem_filter.mpr ⟨hm,by simp [Step.body]⟩
    rw [(cons.inj hb).2] at hmem
    cases ht : f.tracing <;> simp [ht] at hmem
  next => cases hb

/-- The flush of a transaction with an access log is registered once, after both
bodies and for both, exactly if the transaction ends normally and both of its
callbacks are called. -/
theorem flushed_once_iff (hf : f.accessLog = true) (h : Runs f ending called steps) :
    FlushedOnce sides (run span sides steps) ↔ ending = .normal ∧ ∀ body, called body = true := by
  have ha : f.accounts = true := by simp [Features.accounts,hf]
  have hcount := h.countP_isAccount ha
  constructor
  · rintro ⟨fl,begun,event,hflush,-⟩
    rcases h.head ha with rfl | ⟨body,rest,rfl⟩
    · cases hflush
    have hl := (run_account span sides body rest).2.1
    rw [hflush] at hl
    rw [countP_cons_of_pos rfl,← hl] at hcount
    have hboth : ∀ b, (ending.attaches b && called b) = true := by
      cases hq : ending.attaches .request && called .request <;>
        cases hr : ending.attaches .response && called .response <;> simp [hq,hr] at hcount
      rintro (_ | _) <;> assumption
    refine ⟨?_,fun b => (Bool.and_eq_true_iff.mp (hboth b)).2⟩
    have hq := hboth .request
    have hr := hboth .response
    cases ending <;> simp [Ending.attaches] at hq hr ⊢
  · rintro ⟨rfl,hcalled⟩
    simp only [hcalled] at hcount
    rcases h.head ha with rfl | ⟨body,rest,rfl⟩
    · cases hcount
    obtain ⟨hs,hl,-,hm⟩ := run_account span sides body rest
    rw [countP_cons_of_pos rfl,← hl] at hcount
    obtain ⟨⟨fl,begun⟩,hx⟩ := length_eq_one_iff.mp (Nat.succ.inj hcount)
    obtain ⟨o,ho,hflush,hob,hb⟩ := hm (fl, begun) (by rw [hx]; exact .head _)
    have hne : o ≠ body := fun he => h.not_mem_tail (he ▸ ho)
    change fl = _ at hflush
    refine ⟨fl,begun,(sides body).event.or (sides o).event,hx,?_,?_⟩
    · rintro (_ | _) <;> cases body <;> cases o <;> first | assumption | exact absurd rfl hne
    · rw [hs,hflush]
      cases body <;> cases o <;> first | exact absurd rfl hne | skip
      · rfl
      · simp [HttpTxnFlush.run,Nat.or_comm]

/-- With tracing, a server span is never ended once and after both bodies: a build
with an access log or metrics ends it twice, and one without them never. -/
theorem span_ended_once_iff (h : Runs f .normal (fun _ => true) steps) :
    SpanEndedOnce span f (run span sides steps) ↔ ¬ (f.tracing = true ∧ span = true) := by
  refine ⟨fun hs ⟨ht,hspan⟩ => ?_,fun hn ht hspan => absurd ⟨ht,hspan⟩ hn⟩
  obtain ⟨b,he,-⟩ := hs ht hspan
  cases ha : f.accounts with
  | false =>
    rw [h.nil ha] at he
    cases he
  | true =>
    rcases h.head ha with rfl | ⟨bo,rest,rfl⟩
    · cases he
    · have hc := h.countP (!isAccount ·)
      rw [countP_cons_of_neg (by simp [isAccount])] at hc
      simp only [ha,Ending.attaches,Bool.and_true,if_true,(countP_callback ha _).2,ht] at hc
      have hl := (run_account span sides bo rest).2.2.1 hspan
      rw [he,hc] at hl
      cases hl

/-- A build with all features. -/
def allFeatures : Features := ⟨true,true,true⟩

def oneAfterTheOther : List Step :=
  [.account .request,.trace .request,.account .response,.trace .response]

lemma runs_oneAfterTheOther : Runs allFeatures .normal (fun _ => true) oneAfterTheOther := by
  rintro (_ | _) <;> rfl

/-- A request of 10 bytes and a response of 20 bytes with the flag 4. -/
theorem flushed_once_for_both :
    FlushedOnce (E := Unit) (side (none, 4) fun _ => ⟨20, none, 0⟩)
      (run true (side (none, 4) fun _ => ⟨20, none, 0⟩) oneAfterTheOther) :=
  (flushed_once_iff rfl runs_oneAfterTheOther).mpr ⟨rfl,fun _ => rfl⟩

/-- A request that is refused early is never accounted for. -/
theorem early_failure_not_flushed :
    let steps := [Step.account .response,.trace .response]
    Runs allFeatures .earlyFailure (fun _ => true) steps ∧
    (run true (side (none, 4) fun _ => (⟨20,none,0⟩ : Completion Unit)) steps).flushes = [] := by
  refine ⟨?_,rfl⟩
  rintro (_ | _) <;> rfl

/-- Without a server span nothing has to be ended. -/
theorem no_span_to_end : SpanEndedOnce false allFeatures
    (run false (side (none, 0) fun _ => (⟨20, none, 0⟩ : Completion Unit)) oneAfterTheOther) :=
  (span_ended_once_iff runs_oneAfterTheOther).mpr (by decide)

/-- The span is ended when the response is still on its way, and once more after it. -/
theorem span_ended_before_response :
    Runs allFeatures .normal (fun _ => true) oneAfterTheOther ∧
    (run true (side (none, 0) fun _ => (⟨20, none, 0⟩ : Completion Unit)) oneAfterTheOther).ended =
      [[.request, .request], [.request, .request, .response, .response]] :=
  ⟨runs_oneAfterTheOther,rfl⟩

end ArionGateway.Transactions
