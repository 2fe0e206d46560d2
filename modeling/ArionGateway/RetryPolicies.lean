import ArionGateway.StringMatchers

/-!
# Retries

The entries of `retry_on` are read in their order, and two of them end the reading with their own
verdict, also with a negative one: they mask a later entry. The attempts are counted by the items
of a back-off iterator, which has one item for each retry and none for the first attempt. What the
upstream does, whether the timer of an attempt fires first and the verdict of the circuit breaker
are parameters.
-/
namespace ArionGateway.RetryPolicies
open ByteStrings HttpHeaders StringMatchers List Option

inductive HeaderNames where
  | method | scheme | path
  | normalHeader (name : Str)

structure HeaderMatcher (ρ : Type) where
  headerName : HeaderNames
  invertMatch : Bool := false
  treatMissingHeaderAsEmpty : Bool := false
  headerMatcher : StringMatcher ρ

inductive RetryOn where
  | err5xx | gatewayError | reset | connectFailure | envoyRateLimited | retriable4xx
  | refusedStream | retriableStatusCodes | retriableHeaders | http3PostConnectFailure
  deriving DecidableEq

structure RetryPolicy (ρ : Type) where
  retryOn : List RetryOn
  numRetries : ℕ
  perTryTimeout : Option ℕ := none
  retriableStatusCodes : List ℕ := []
  baseInterval : ℕ := 25000000
  maxInterval : ℕ := 250000000
  retriableHeaders : List (HeaderMatcher ρ) := []

structure Response where
  status : ℕ
  headers : HeaderMap := []
  deriving DecidableEq

inductive ConnectErrorKind where
  | missingPort | dns | socket | bindDevice | timeout | io | circuitBreaker | internalListener
  deriving DecidableEq

def ConnectErrorKind.isRetriable : ConnectErrorKind → Bool
  | .dns | .timeout | .io | .internalListener => true
  | _ => false

inductive UpstreamError where
  | connect (kind : ConnectErrorKind)
  | io | perTryTimeout | routeTimeout | reset | refusedStream | http3PostConnectFailure
  | protocol | other
  deriving DecidableEq

/-- The errors of the library: of the upstream, or another one. -/
inductive Error where
  | upstream (error : UpstreamError)
  | other
  deriving DecidableEq

inductive RetryCondition where
  | error (error : UpstreamError)
  | response (response : Response)
  deriving DecidableEq

section
variable {ρ : Type} [RegexEngine ρ]

/-- A response has no method, scheme and path. -/
def HeaderMatcher.responseMatches (self : HeaderMatcher ρ) (response : Response) : Bool :=
  let missing := self.headerMatcher.matchesText [] ^^ self.invertMatch
  match self.headerName with
  | .method | .scheme | .path => if self.treatMissingHeaderAsEmpty then missing else false
  | .normalHeader name =>
    let values := (response.headers.getAll name).map toStr
    if values.isEmpty then
      if self.treatMissingHeaderAsEmpty then missing
      else
        match self.headerMatcher.pattern with
        | .present => false ^^ self.invertMatch
        | _ => false
    else (values.any (·.any self.headerMatcher.matchesText)) ^^ self.invertMatch

namespace RetryCondition

/-- Neither 1xx and 2xx nor errors of other kinds are looked at. -/
def fromUpstreamResult : Except Error Response → Option RetryCondition
  | .ok resp => if 100 ≤ resp.status ∧ resp.status < 300 then none else some (.response resp)
  | .error (.upstream e) => some (.error e)
  | .error .other => none

def innerResponse : RetryCondition → Option Response
  | .response resp => some resp
  | .error _ => none

def isPerTryTimeout (self : RetryCondition) : Bool := self = .error .perTryTimeout

/-- One pass of the loop over `retry_on`: the verdict it returns, if it returns. -/
def verdict (self : RetryCondition) (policy : RetryPolicy ρ) : RetryOn → Option Bool
  | .err5xx => self.innerResponse.bind fun resp =>
    if 500 ≤ resp.status ∧ resp.status ≤ 599 then some true else none
  | .gatewayError => self.innerResponse.bind fun resp =>
    if 502 ≤ resp.status ∧ resp.status ≤ 504 then some true else none
  | .envoyRateLimited => self.innerResponse.bind fun resp =>
    if resp.headers.any fun line =>
      line.1 == str "x-envoy-ratelimited" || line.1 == str "x-arion-ratelimited"
    then some true else none
  | .retriable4xx => self.innerResponse.bind fun resp =>
    if resp.status = 409 then some true else none
  | .retriableStatusCodes => self.innerResponse.map fun resp =>
    policy.retriableStatusCodes.contains resp.status
  | .retriableHeaders => self.innerResponse.map fun resp =>
    policy.retriableHeaders.any (·.responseMatches resp)
  | .reset => if self = .error .reset then some true else none
  | .connectFailure =>
    match self with
    | .error (.connect kind) => if kind.isRetriable then some true else none
    | .error .io => some true
    | _ => none
  | .refusedStream => if self = .error .refusedStream then some true else none
  | .http3PostConnectFailure => if self = .error .http3PostConnectFailure then some true else none

def shouldRetry (self : RetryCondition) (policy : RetryPolicy ρ) : Bool :=
  if self.isPerTryTimeout then true
  else (policy.retryOn.findSome? (self.verdict policy)).getD false

/-- The entry ends the reading and is not satisfied. -/
def Masks (self : RetryCondition) (policy : RetryPolicy ρ) (entry : RetryOn) : Prop :=
  ∃ resp, self = .response resp ∧
    ((entry = .retriableStatusCodes ∧ resp.status ∉ policy.retriableStatusCodes) ∨
      (entry = .retriableHeaders ∧ ∀ matcher ∈ policy.retriableHeaders,
        matcher.responseMatches resp = false))

/-- After an entry that masks, without a satisfied one before it, no entry is satisfied. -/
def Unmasked (self : RetryCondition) (policy : RetryPolicy ρ) : Prop :=
  ∀ before entry after, policy.retryOn = before++entry::after → self.Masks policy entry →
    (∃ e ∈ before, self.verdict policy e = some true) ∨
      ∀ e ∈ after, self.verdict policy e ≠ some true

variable {self : RetryCondition} {policy : RetryPolicy ρ} {entry : RetryOn}

lemma verdict_eq_false_iff : self.verdict policy entry = some false ↔ self.Masks policy entry := by
  cases self with
  | error e =>
    refine iff_of_false (fun h => ?_) (fun ⟨_,h,_⟩ => nomatch h)
    cases entry <;> simp only [verdict,innerResponse] at h
    all_goals grind
  | response re =>
    cases entry <;> simp [verdict,Masks,innerResponse]

lemma satisfied_of_shouldRetry (h : self.shouldRetry policy = true) :
    self.isPerTryTimeout = true ∨ ∃ e ∈ policy.retryOn, self.verdict policy e = some true := by
  unfold shouldRetry at h
  split_ifs at h with ht
  · exact .inl ht
  · have hf : policy.retryOn.findSome? (self.verdict policy) = some true := by
      simpa [getD_eq_iff] using h
    exact .inr (exists_of_findSome?_eq_some hf)

lemma shouldRetry_of_satisfied (hu : self.Unmasked policy)
    (h : ∃ e ∈ policy.retryOn, self.verdict policy e = some true) :
    self.shouldRetry policy = true := by
  obtain ⟨e,he,hsa⟩ := h
  unfold shouldRetry
  split_ifs
  · rfl
  · cases hf : policy.retryOn.findSome? (self.verdict policy) with
    | none => simp [findSome?_eq_none_iff.mp hf e he] at hsa
    | some f =>
      obtain ⟨b,entry,after,hsp,het,hb⟩ := findSome?_eq_some_iff.mp hf
      cases f with
      | true => rfl
      | false =>
        have hn : ∀ x ∈ b, self.verdict policy x ≠ some true := by
          intro x hx
          rw [hb x hx]
          nofun
        rcases hu b entry after hsp (verdict_eq_false_iff.mp het) with ⟨x,hx,ht⟩ | ha
        · exact absurd ht (hn x hx)
        · rw [hsp,mem_append,mem_cons] at he
          rcases he with he | rfl | he
          · exact absurd hsa (hn e he)
          · simp [het] at hsa
          · exact absurd hsa (ha e he)

lemma unmasked_of_shouldRetry (h : (∃ e ∈ policy.retryOn, self.verdict policy e = some true) →
      self.shouldRetry policy = true) : self.Unmasked policy := by
  intro b entry a hsp hm
  by_contra hn
  obtain ⟨hb,ha⟩ := not_or.mp hn
  push Not at hb ha
  obtain ⟨e,he,hsa⟩ := ha
  have hr := h ⟨e,by simp [hsp,he],hsa⟩
  have ht : self.isPerTryTimeout = false := by
    obtain ⟨re,rfl,-⟩ := hm
    rfl
  rw [shouldRetry,ht,hsp,findSome?_append,findSome?_cons,verdict_eq_false_iff.mpr hm] at hr
  cases hf : b.findSome? (self.verdict policy) with
  | none => simp [hf] at hr
  | some f =>
    obtain ⟨x,hx,hv⟩ := exists_of_findSome?_eq_some hf
    cases f with
    | true => exact hb x hx hv
    | false => simp [hf] at hr

/-- A retry is due for a timeout of the attempt or a satisfied entry, exactly where no
satisfied entry is masked. Between policies without masked entries the order of the entries
does not matter, and a further entry never turns a retry down. -/
theorem shouldRetry_iff_unmasked (self : RetryCondition) (policy : RetryPolicy ρ) :
    ((self.shouldRetry policy = true ↔ self.isPerTryTimeout = true ∨
        ∃ e ∈ policy.retryOn, self.verdict policy e = some true) ↔ self.Unmasked policy) ∧
      (self.Unmasked policy → ∀ entries, entries.Perm policy.retryOn →
        self.Unmasked { policy with retryOn := entries } →
        self.shouldRetry { policy with retryOn := entries } = self.shouldRetry policy) ∧
      (self.shouldRetry policy = true → ∀ before entry after, policy.retryOn = before ++ after →
        self.Unmasked { policy with retryOn := before ++ entry :: after } →
        self.shouldRetry { policy with retryOn := before ++ entry :: after } = true) := by
  have hr : ∀ p : RetryPolicy ρ, self.Unmasked p → (self.shouldRetry p = true ↔
      self.isPerTryTimeout = true ∨ ∃ e ∈ p.retryOn, self.verdict p e = some true) := by
    intro p hp
    refine ⟨satisfied_of_shouldRetry,fun h => h.elim (fun h => ?_) (shouldRetry_of_satisfied hp)⟩
    rw [shouldRetry,if_pos h]
  refine ⟨⟨fun h => ?_,hr policy⟩,fun hp entries hpe het => ?_,
    fun h before entry after hsp het => ?_⟩
  · exact unmasked_of_shouldRetry fun hsa => h.mpr (.inr hsa)
  · rw [Bool.eq_iff_iff,hr _ het,hr _ hp]
    exact or_congr_right (exists_congr fun e => and_congr_left fun _ => hpe.mem_iff)
  · refine (hr _ het).mpr ((satisfied_of_shouldRetry h).imp_right ?_)
    rintro ⟨e,he,hsa⟩
    refine ⟨e,?_,hsa⟩
    rw [hsp] at he
    simp only [mem_append] at he ⊢
    tauto

end RetryCondition

end

local instance : RegexEngine Empty where
  findAt r _ := nomatch r

def retryingOn (retryOn : List RetryOn) : RetryPolicy Empty := { retryOn, numRetries := 1 }

/-- A 503 is to be retried as a 5xx, but not after an entry for other status codes. -/
theorem masked_by_status_codes :
    RetryCondition.shouldRetry (.response ⟨503, []⟩)
        (retryingOn [.err5xx, .retriableStatusCodes]) = true ∧
      RetryCondition.shouldRetry (.response ⟨503, []⟩)
        (retryingOn [.retriableStatusCodes, .err5xx]) = false := by
  decide

/-- What is assumed of the back-off library. -/
structure BackoffCrate where
  iter : ℕ → ℕ → ℕ → List (Option ℕ)
  length_iter (n least most : ℕ) : (iter n least most).length = n
  none_iter (n least most i : ℕ) : (iter n least most)[i]? = some none ↔ i+1 = n

structure Retries where
  requests : ℕ := 0
  timeouts : ℕ := 0
  deriving DecidableEq

/-- What `send` returns, and whether the timer of the attempt fires before. -/
structure Attempt where
  result : Except Error Response
  late : Bool := false

/-- The variables of the loop, and the requests that were sent. -/
structure Sending (P : Type) where
  partsOpt : Option P
  retryPermit : Bool := false
  output : Option Retries
  lastResult : Option (Except Error Response) := none
  sent : List (P × Str) := []

def Sending.count {P : Type} (s : Sending P) (requests timeouts : ℕ) : Sending P :=
  { s with output := s.output.map fun o => ⟨o.requests+requests,o.timeouts+timeouts⟩ }

inductive Turn (P : Type) where
  | returns (result : Except Error Response) (state : Sending P)
  | continues (state : Sending P)
  | panics

section
variable {ρ P : Type} [RegexEngine ρ] (policy : RetryPolicy ρ) (granted : Bool) (body : Str)
  (attempts : ℕ → Attempt) (index : ℕ)

def RetryPolicy.outcome : Except Error Response :=
  if policy.perTryTimeout.isSome ∧ (attempts index).late then .error (.upstream .perTryTimeout)
  else (attempts index).result

/-- One pass of the loop. The parts of the request are given away in the last pass. -/
def attempt (s : Sending P) : Turn P :=
  match s.partsOpt with
  | none => .panics
  | some parts =>
    let result := policy.outcome attempts index
    let s := { s with
      partsOpt := if index = policy.numRetries then none else some parts
      sent := s.sent++[(parts, body)] }
    match RetryCondition.fromUpstreamResult result with
    | none => .returns result s
    | some condition =>
      let s := if condition.isPerTryTimeout then s.count 0 1 else s
      if condition.shouldRetry policy then
        let s := s.count 1 0
        if index < policy.numRetries ∧ s.retryPermit = false then
          if granted then .continues { s with retryPermit := true, lastResult := some result }
          else .returns result s
        else .continues { s with lastResult := some result }
      else .returns result s

def retryLoop : ℕ → List (Option ℕ) → Sending P → Option (Except Error Response × Sending P)
  | _, [], s => some (s.lastResult.getD (.error (.upstream .io)), s)
  | index, _::backOffs, s =>
    match attempt policy granted body attempts index s with
    | .returns result s => some (result, s)
    | .continues s => retryLoop (index+1) backOffs s
    | .panics => none

/-- The request with its body, which was read before. -/
def sendWithRetry (crate : BackoffCrate) (parts : P) (output : Option Retries) :
    Option (Except Error Response × Sending P) :=
  retryLoop policy granted body attempts 0
    (crate.iter policy.numRetries policy.baseInterval policy.maxInterval)
    { partsOpt := some parts, output }

def Retriable : Prop :=
  ∃ condition, RetryCondition.fromUpstreamResult (policy.outcome attempts index) = some condition ∧
    condition.shouldRetry policy = true

/-- The request is sent once and then again for each retry that is due; the retries are
reported. -/
structure Honored (output : Option Retries) (result : Except Error Response) (t : Sending P) :
    Prop where
  atLeast : 1 ≤ t.sent.length
  atMost : t.sent.length ≤ policy.numRetries+1
  stops : ∀ j, j+1 < t.sent.length → Retriable policy attempts j
  all : (∀ j ≤ policy.numRetries, Retriable policy attempts j) → granted = true →
    t.sent.length = policy.numRetries+1
  last : result = policy.outcome attempts (t.sent.length - 1)
  reported : ∀ before after, output = some before → t.output = some after →
    after.requests = before.requests+(t.sent.length - 1)

/-- There is a retry, not all attempts fail with a permit for more, and, where retries are
reported, an attempt before the last one that is allowed is not to be retried. -/
def Suffices (output : Option Retries) : Prop :=
  1 ≤ policy.numRetries ∧
    (granted = true → ∃ j ≤ policy.numRetries, ¬ Retriable policy attempts j) ∧
    (output.isSome → ∃ j < policy.numRetries, ¬ Retriable policy attempts j ∧
      (∀ i < j, Retriable policy attempts i) ∧ (j = 0 ∨ granted = true))

def Sending.requests (s : Sending P) : Option ℕ := s.output.map (·.requests)

/-- How the loop ends that has `left` passes: after `k` attempts. -/
structure Ended (left : ℕ) (s : Sending P) (k : ℕ) (result : Except Error Response)
    (t : Sending P) : Prop where
  sent : t.sent.length = s.sent.length+k
  le : k ≤ left
  retried : ∀ j, j+1 < k → Retriable policy attempts (index+j)
  result : result = if k = 0 then s.lastResult.getD (.error (.upstream .io))
    else policy.outcome attempts (index+(k - 1))
  counted : k = 0 ∨ Retriable policy attempts (index+(k - 1)) → t.requests = s.requests.map (· + k)
  uncounted : ¬ Retriable policy attempts (index+(k - 1)) →
    t.requests = s.requests.map (· + (k - 1))
  early : k < left → 0 < k ∧ (Retriable policy attempts (index+(k - 1)) →
    k = 1 ∧ s.retryPermit = false ∧ granted = false)
  permit : 1 < k → s.retryPermit = true ∨ granted = true

section
variable {policy granted body attempts} {i : ℕ} {s t : Sending P} {p : P}

lemma requests_count (s : Sending P) (re ti : ℕ) :
    (s.count re ti).requests = s.requests.map (· + re) := by
  simp [Sending.count,Sending.requests,Function.comp_def]

lemma countTimeout_spec (s : Sending P) (ti : Bool) :
    ∃ r, (if ti then s.count 0 1 else s) = r ∧ r.sent = s.sent ∧ r.partsOpt = s.partsOpt ∧
      r.retryPermit = s.retryPermit ∧ r.requests = s.requests := by
  cases ti with
  | false => exact ⟨s,rfl,rfl,rfl,rfl,rfl⟩
  | true => exact ⟨_,rfl,rfl,rfl,rfl,(requests_count s 0 1).trans (by simp)⟩

variable (policy granted body attempts) in
lemma attempt_cases (hpa : s.partsOpt = some p) (hi : i < policy.numRetries) :
    ∃ t, t.sent = s.sent++[(p, body)] ∧ ((attempt policy granted body attempts i s =
          .returns (policy.outcome attempts i) t ∧
        ((¬ Retriable policy attempts i ∧ t.requests = s.requests) ∨
          (Retriable policy attempts i ∧ s.retryPermit = false ∧ granted = false ∧
            t.requests = s.requests.map (· + 1)))) ∨
      (attempt policy granted body attempts i s = .continues t ∧
        Retriable policy attempts i ∧ t.requests = s.requests.map (· + 1) ∧
        (s.retryPermit = true ∨ granted = true) ∧ t.partsOpt = some p ∧
        t.retryPermit = true ∧ t.lastResult = some (policy.outcome attempts i))) := by
  unfold attempt
  rw [hpa]
  dsimp only
  rw [if_neg hi.ne]
  cases hc : RetryCondition.fromUpstreamResult (policy.outcome attempts i) with
  | none => exact ⟨_,rfl,.inl ⟨rfl,.inl ⟨by simp [Retriable,hc],rfl⟩⟩⟩
  | some c =>
    have hiff : Retriable policy attempts i ↔ c.shouldRetry policy = true := by
      simp [Retriable,hc]
    obtain ⟨r,heq,hse,hp,hr,hre⟩ := countTimeout_spec { s with
      partsOpt := some p, sent := s.sent++[(p, body)] } c.isPerTryTimeout
    dsimp only
    rw [heq,hiff]
    cases c.shouldRetry policy with
    | false => exact ⟨r,hse,.inl ⟨rfl,.inl ⟨by simp,hre⟩⟩⟩
    | true =>
      have hco : (r.count 1 0).requests = s.requests.map (· + 1) :=
        (requests_count r 1 0).trans (by rw [hre]; rfl)
      rw [if_pos rfl]
      cases hpe : s.retryPermit with
      | true =>
        have hk : (r.count 1 0).retryPermit = true := hr.trans hpe
        rw [if_neg (by simp [hk])]
        refine ⟨_,?_,.inr ⟨rfl,rfl,hco,.inl rfl,hp,hk,rfl⟩⟩
        exact hse
      | false =>
        rw [if_pos ⟨hi,hr.trans hpe⟩]
        cases granted with
        | true =>
          refine ⟨_,?_,.inr ⟨rfl,rfl,hco,.inr rfl,hp,rfl,rfl⟩⟩
          exact hse
        | false =>
          refine ⟨_,?_,.inl ⟨rfl,.inr ⟨rfl,rfl,rfl,hco⟩⟩⟩
          exact hse

lemma Ended.succ {u : Sending P} {l k : ℕ} {re : Except Error Response}
    (h : Ended policy granted attempts (i+1) l t k re u)
    (hse : t.sent = s.sent++[(p, body)]) (hre : Retriable policy attempts i)
    (hrq : t.requests = s.requests.map (· + 1))
    (hp : s.retryPermit = true ∨ granted = true) (hk : t.retryPermit = true)
    (hl : t.lastResult = some (policy.outcome attempts i)) :
    Ended policy granted attempts i (l+1) s (k+1) re u := by
  have hsu : u.sent.length = s.sent.length+(k+1) := by
    rw [h.sent,hse,length_append,length_singleton]
    omega
  obtain ⟨-,hle,hrt,hrs,hc,hu,he,-⟩ := h
  rw [hrq,Option.map_map] at hc hu
  cases k with
  | zero =>
    refine ⟨hsu,Nat.succ_le_succ hle,by omega,?_,fun _ => hc (.inl rfl),?_,
      fun hlt => absurd (he (by omega)).1 (by omega),by omega⟩
    · rw [hrs,hl]
      rfl
    · exact fun hn => absurd hre hn
  | succ k =>
    have hsh : ∀ j, i+1+j = i+(j+1) := fun j => by omega
    have ha : ∀ m, (fun x => x+m) ∘ (fun x => x+1) = (fun x : ℕ => x+(m+1)) :=
      fun m => by funext x; simp only [Function.comp_apply]; omega
    simp only [hsh,ha] at hrt hrs hc hu he
    refine ⟨hsu,Nat.succ_le_succ hle,fun j hj => ?_,hrs,?_,hu,fun hlt => ?_,fun _ => hp⟩
    · cases j with
      | zero => exact hre
      | succ j => exact hrt j (by omega)
    · exact fun hor => hc (.inr (hor.resolve_left (by omega)))
    · refine ⟨by omega,fun hr => ?_⟩
      rw [hk] at he
      exact absurd ((he (by omega)).2 hr).2.1 (by decide)

variable (policy granted body attempts) in
/-- The loop ends without a panic, since no pass has the last index. -/
lemma retryLoop_ended {b : List (Option ℕ)} (hpa : s.partsOpt = some p)
    (hl : i+b.length = policy.numRetries) :
    ∃ k result t, retryLoop policy granted body attempts i b s = some (result, t) ∧
      Ended policy granted attempts i b.length s k result t := by
  induction b generalizing i s with
  | nil =>
    refine ⟨0,_,s,rfl,⟨rfl,le_rfl,nofun,rfl,fun _ => ?_,fun _ => ?_,nofun,nofun⟩⟩ <;>
      simp
  | cons bo b ih =>
    rw [length_cons] at hl
    obtain ⟨t,hse,⟨ha,hed⟩ |
        ⟨ha,hr,hre,hpe,hp,hk,hla⟩⟩ :=
      attempt_cases policy granted body attempts hpa (by omega : i < policy.numRetries)
    · refine ⟨1,_,t,by rw [retryLoop,ha],?_⟩
      exact
        { sent := by rw [hse,length_append]; rfl
          le := by simp
          retried := by omega
          result := rfl
          counted := by tauto
          uncounted := by
            simp only [Nat.sub_self,Nat.add_zero,Option.map_id']
            tauto
          early := fun _ => ⟨one_pos,by tauto⟩
          permit := by omega }
    · obtain ⟨k,result,u,hlo,he⟩ := ih hp (by omega : i+1+_ = _)
      refine ⟨k+1,result,u,by rw [retryLoop,ha]; exact hlo,?_⟩
      exact he.succ hse hr hre hpe hk hla

variable {output : Option Retries}

lemma Ended.honored {k : ℕ} {re : Except Error Response}
    (h : Ended policy granted attempts 0 policy.numRetries
      { partsOpt := some p, output } k re t) (hk : 0 < k)
    (hr : ¬ Retriable policy attempts (k - 1)) :
    Honored policy granted attempts output re t ∧ Suffices policy granted attempts output := by
  obtain ⟨hse,hle,hre,hrs,-,hu,-,hp⟩ := h
  simp only [zero_add,length_nil] at hse hre hrs hu
  refine ⟨⟨by omega,by omega,fun j hj => hre j (by omega),fun hal => ?_,?_,?_⟩,?_⟩
  · exact absurd (hal (k - 1) (by omega)) hr
  · rw [hse,hrs,if_neg hk.ne']
  · rintro before after rfl ha
    have hrq := hu hr
    rw [Sending.requests,ha] at hrq
    rw [hse]
    exact some.inj hrq
  · refine ⟨by omega,fun _ => ⟨k - 1,by omega,hr⟩,fun _ => ⟨k - 1,by omega,
      hr,fun i hi => hre i (by omega),?_⟩⟩
    by_cases ho : 1 < k
    · exact .inr ((hp ho).resolve_left nofun)
    · exact .inl (by omega)

lemma Ended.honored_iff_of_retriable {k : ℕ}
    {re : Except Error Response} (h : Ended policy granted attempts 0 policy.numRetries
      { partsOpt := some p, output } k re t) (hk : 0 < k) (hr : Retriable policy attempts (k - 1)) :
    Honored policy granted attempts output re t ↔ Suffices policy granted attempts output := by
  obtain ⟨hse,hle,hre,hrs,hc,-,he,-⟩ := h
  simp only [zero_add,length_nil] at hse hre hrs hc he
  have hal : ∀ j < k, Retriable policy attempts j := by
    intro j hj
    by_cases hl : j = k - 1
    · exact hl ▸ hr
    · exact hre j (by omega)
  have hrq := hc (.inr hr)
  cases output with
  | some b =>
    obtain ⟨a,ha,heq⟩ := map_eq_some_iff.mp hrq
    refine iff_of_false (fun hh => ?_) fun ⟨_,_,hst⟩ => ?_
    · have hrp := hh.reported b a rfl ha
      dsimp only at heq
      omega
    · obtain ⟨j,hj,hno,-,hp⟩ := hst rfl
      have hkj : k ≤ j := not_lt.mp fun hlt => hno (hal j hlt)
      obtain ⟨-,-,hd⟩ := (he (by omega)).2 hr
      rw [hd] at hp
      rcases hp with hz | hg
      · omega
      · cases hg
  | none =>
    refine ⟨fun hh => ⟨by omega,fun hg => ?_,nofun⟩,fun ⟨_,hno,_⟩ => ?_⟩
    · by_contra hn
      push Not at hn
      have hm := hh.all hn hg
      omega
    · refine ⟨by omega,by omega,fun j hj => hal j (by omega),fun hrt hg => ?_,?_,nofun⟩
      · obtain ⟨j,hj,hno⟩ := hno hg
        exact absurd (hrt j hj) hno
      · rw [hse,hrs,if_neg hk.ne']

end

/-- The loop has one pass for each retry and none for the first attempt, so that the
request is sent and its retries are reported as they should be exactly where `Suffices`
holds. -/
theorem honored_iff (crate : BackoffCrate) (parts : P) (output : Option Retries) :
    ∃ result t, sendWithRetry policy granted body attempts crate parts output = some (result, t) ∧
      (Honored policy granted attempts output result t ↔
        Suffices policy granted attempts output) := by
  have hl := crate.length_iter policy.numRetries policy.baseInterval policy.maxInterval
  obtain ⟨k,result,t,hlo,he⟩ := retryLoop_ended policy granted body attempts
    (s := { partsOpt := some parts, output }) rfl ((zero_add _).trans hl)
  rw [hl] at he
  refine ⟨result,t,hlo,?_⟩
  rcases Nat.eq_zero_or_pos k with rfl | hk
  · have hn : policy.numRetries = 0 := by
      by_contra hne
      exact absurd (he.early (Nat.pos_of_ne_zero hne)).1 (lt_irrefl 0)
    refine iff_of_false (fun h => ?_) fun h => ?_
    · have hse := he.sent
      have ho := h.atLeast
      rw [hse] at ho
      cases ho
    · have ho := h.1
      omega
  · by_cases hr : Retriable policy attempts (k - 1)
    · exact he.honored_iff_of_retriable hk hr
    · exact iff_of_true (he.honored hk hr).1 (he.honored hk hr).2

end

local instance : RegexEngine Empty where
  findAt r _ := nomatch r

def plainBackoff : BackoffCrate where
  iter n least _ := (List.range n).map fun i => if i+1 = n then none else some least
  length_iter n _ _ := by simp
  none_iter n _ _ i := by
    by_cases h : i < n <;> simp [h]; omega

/-- Without retries the request is not sent at all; with one retry it is sent once, and the
one attempt is reported as a retry. -/
theorem first_attempt_missing :
    (sendWithRetry { retryOn := [.err5xx], numRetries := 0 : RetryPolicy Empty } true []
      (fun _ => ⟨.ok ⟨200, []⟩, false⟩) plainBackoff () none).map (·.2.sent) = some [] ∧
    (sendWithRetry (retryingOn [.err5xx]) true [] (fun _ => ⟨.ok ⟨503, []⟩, false⟩) plainBackoff ()
      (some {})).map (fun r => (r.2.sent, r.2.output)) = some ([((), [])], some ⟨1, 0⟩) := by
  decide

end ArionGateway.RetryPolicies
