import ArionGateway.KeyedStores
import Mathlib.Algebra.Order.Group.Nat
import Mathlib.Algebra.Order.Ring.Int

/-!
# Quotas of the network rate limiter

A filter asks a rate limit service about every new connection. A reply may carry a quota: further
connections are admitted without a call until the quota is spent or has expired. The table of
quotas is keyed by the domain alone, while a reply answers a domain, a list of descriptors and a
service. The verdicts of filters are independent exactly if filters that can meet in a domain ask
the same question.
-/
namespace ArionGateway.GlobalRateLimit
open KeyedStores

structure Timestamp where
  seconds : ℤ
  nanos : ℤ
  deriving DecidableEq

def protoTimestampToMs (ts : Timestamp) : Option ℕ :=
  if ts.seconds < 0 then none
  else if ts.nanos < 0 then none
  else if 2^64 ≤ ts.seconds.toNat*1000 then none
  else if 2^64 ≤ ts.seconds.toNat*1000+ts.nanos.toNat / 1000000 then none
  else some (ts.seconds.toNat*1000+ts.nanos.toNat / 1000000)

structure Quota where
  requests : UInt32
  validUntil : Option Timestamp
  deriving DecidableEq

inductive Code where
  | unknown
  | ok
  | overLimit
  deriving DecidableEq

def Code.tryFrom : ℤ → Option Code
  | 0 => some .unknown
  | 1 => some .ok
  | 2 => some .overLimit
  | _ => none

structure RateLimitResponse where
  overallCode : ℤ := 0
  quota : Option Quota := none
  deriving DecidableEq

/-- `extract_quota`: the connections left after the one that asked, and the time
until which they may be admitted. -/
def extractQuota (response : RateLimitResponse) : Option (ℕ × ℕ) := do
  let quota ← response.quota.filter fun q => 0 < q.requests
  let validUntilMs ← protoTimestampToMs (← quota.validUntil)
  some (quota.requests.toNat - 1, validUntilMs)

def evalRlsResponse (response : RateLimitResponse) : Except String Unit :=
  if (Code.tryFrom response.overallCode).getD .unknown = .overLimit then
    .error "rate limited by global rate limiter"
  else .ok ()

/-- `remaining` is an `i64`; `fetch_sub` wraps. -/
structure QuotaBucket where
  remaining : ℤ := 0
  validUntilMs : ℕ := 0
  deriving DecidableEq

def fetchSub (remaining : ℤ) : ℤ := Int.bmod (remaining - 1) (2^64)

def QuotaBucket.tryConsume (bucket : QuotaBucket) (now : ℕ) : Bool × QuotaBucket :=
  if now < bucket.validUntilMs then
    (decide (0 < bucket.remaining), { bucket with remaining := fetchSub bucket.remaining })
  else (false, bucket)

def QuotaBucket.store (bucket : QuotaBucket) (response : RateLimitResponse) : QuotaBucket :=
  match extractQuota response with
  | some (requests, validUntilMs) => { remaining := requests, validUntilMs }
  | none => bucket

inductive RlsClient where
  | cluster (name : String)
  | googleGrpc (targetUri : String)
  deriving DecidableEq

structure DescriptorEntry where
  key : String
  value : String
  deriving DecidableEq

structure NetworkGlobalRateLimit where
  domain : Option String
  failureModeDeny : Bool
  rlsClient : RlsClient
  descriptors : List (List DescriptorEntry)
  deriving DecidableEq

abbrev Quotas := String → Option QuotaBucket

/-- A connection through a filter: its SNI, the time of the check, and what the
service of the filter answers if it is asked. -/
structure Connection where
  filter : NetworkGlobalRateLimit
  sni : Option String
  now : ℕ
  reply : Except String RateLimitResponse

def Connection.domain (c : Connection) : Option String := c.filter.domain.or c.sni

variable (filter : NetworkGlobalRateLimit)

/-- The verdict of a call and the bucket it leaves. A bucket is inserted only
for a reply with a quota. -/
def afterCall (bucket : Option QuotaBucket) :
    Except String RateLimitResponse → Except String Unit × Option QuotaBucket
  | .ok response =>
    (evalRlsResponse response,
      if (extractQuota response).isSome then some ((bucket.getD {}).store response) else bucket)
  | .error e => (if filter.failureModeDeny then .error e else .ok (), bucket)

/-- `check` on the bucket of its domain. After the fast path the bucket is tried
again under its lock. -/
def checkBucket (c : Connection) : Option QuotaBucket → Except String Unit × Option QuotaBucket
  | some bucket =>
    let (admitted, bucket) := bucket.tryConsume c.now
    if admitted then (.ok (), some bucket)
    else
      let (admitted, bucket) := bucket.tryConsume c.now
      if admitted then (.ok (), some bucket) else afterCall c.filter (some bucket) c.reply
  | none => afterCall c.filter none c.reply

/-- `check`, for connections that come one after the other. -/
def check (quotas : Quotas) (c : Connection) : Except String Unit × Quotas :=
  match c.domain with
  | none => (.error "rate limit: no SNI and no domain configured", quotas)
  | some domain =>
    let (verdict, bucket) := checkBucket c (quotas domain)
    (verdict, Function.update quotas domain bucket)

variable (history : List Connection)

def quotasAfter : Quotas :=
  history.foldl (fun quotas c => (check quotas c).2) fun _ => none

def verdict (c : Connection) : Except String Unit :=
  (check (quotasAfter history) c).1

/-- Two connections about which the same service is asked the same question. -/
def SameRequest (c d : Connection) : Prop :=
  c.domain = d.domain ∧ c.filter.descriptors = d.filter.descriptors ∧
    c.filter.rlsClient = d.filter.rlsClient

instance (c d : Connection) : Decidable (SameRequest c d) := inferInstanceAs (Decidable (_ ∧ _))

open Connection

lemma keyed_check : Keyed (fun q c => (check q c).2) domain where
  other q c k hk := by
    unfold check
    cases hd : c.domain with
    | none => rfl
    | some domain =>
      have hne : k ≠ domain := fun h => hk (by rw [hd,h])
      simp [hne]
  same s t c k hk hst := by
    unfold check
    rw [hk]
    simp [hst]

lemma verdict_congr {s t : Quotas} {c : Connection} (h : ∀ d, c.domain = some d → s d = t d) :
    (check s c).1 = (check t c).1 := by
  unfold check
  cases hd : c.domain with
  | none => rfl
  | some d => simp [h d hd]

/-- Two filters can be asked about connections with the same domain. -/
def CanMeet (f g : NetworkGlobalRateLimit) : Prop :=
  f.domain = none ∨ g.domain = none ∨ f.domain = g.domain

variable (filters : Set NetworkGlobalRateLimit)

/-- Filters that can meet in a domain ask the same service the same question. -/
def Separated : Prop :=
  ∀ f ∈ filters, ∀ g ∈ filters, CanMeet f g →
    f.descriptors = g.descriptors ∧ f.rlsClient = g.rlsClient

/-- The verdicts depend on the connections with the same request only. -/
def Independent : Prop :=
  ∀ history : List Connection, (∀ d ∈ history, d.filter ∈ filters) →
    ∀ c : Connection, c.filter ∈ filters →
      verdict history c = verdict (history.filter fun d => SameRequest c d) c

lemma canMeet_of_domain {c d : Connection} {domain : String} (hc : c.domain = some domain)
    (hd : d.domain = some domain) : CanMeet c.filter d.filter := by
  unfold Connection.domain at hc hd
  unfold CanMeet
  cases hf : c.filter.domain with
  | none => exact .inl rfl
  | some x =>
    cases hg : d.filter.domain with
    | none => exact .inr (.inl rfl)
    | some y =>
      rw [hf] at hc
      rw [hg] at hd
      exact .inr (.inr (hc.trans hd.symm))

lemma independent_of_separated {filters : Set NetworkGlobalRateLimit} (h : Separated filters) :
    Independent filters := by
  intro hi hh c hc
  refine verdict_congr fun dm hd => ?_
  refine keyed_check.foldl_filter _ (fun d hm => ?_) rfl
  simp only [decide_eq_true_eq,SameRequest,hd]
  constructor
  · intro he
    have hs := h c.filter hc d.filter (hh d hm) (canMeet_of_domain hd he)
    exact ⟨he.symm,hs.1,hs.2⟩
  · exact fun he => he.1.symm

def granting : RateLimitResponse :=
  { overallCode := 1, quota := some { requests := 2, validUntil := some ⟨1,0⟩ } }

def refusing : RateLimitResponse := { overallCode := 2 }

lemma extractQuota_granting : extractQuota granting = some (1, 1000) := by decide

lemma admitted_by_other {c d : Connection} {domain : String} (hc : c.domain = some domain)
    (hd : d.domain = some domain) (hct : c.now = 0) (hdr : d.reply = .ok granting) :
    verdict [d] c = .ok () := by
  have hb : quotasAfter [d] domain = some ⟨1,1000⟩ := by
    simp [quotasAfter,check,hd,checkBucket,hdr,afterCall,QuotaBucket.store,extractQuota_granting]
  simp [verdict,check,hc,hb,checkBucket,QuotaBucket.tryConsume,hct]

def atStart (sni : String) (response : RateLimitResponse) : Connection :=
  { filter, sni := some sni, now := 0, reply := .ok response }

lemma exists_common_domain {f g : NetworkGlobalRateLimit} (h : CanMeet f g)
    (x y : RateLimitResponse) :
    ∃ sni, (atStart f sni x).domain = some sni ∧ (atStart g sni y).domain = some sni := by
  unfold CanMeet at h
  cases hf : f.domain with
  | none =>
    cases hg : g.domain <;> simp [atStart,domain,hf,hg]
  | some a =>
    cases hg : g.domain with
    | none => simp [atStart,domain,hf,hg]
    | some b =>
      obtain rfl : a = b := by simpa [hf,hg] using h
      simp [atStart,domain,hf,hg]

/-- Filters are independent if and only if those that can meet in a domain ask
the same service about the same descriptors. -/
theorem independent_iff_separated (filters : Set NetworkGlobalRateLimit) :
    Independent filters ↔ Separated filters := by
  refine ⟨fun h f hf g hg hm => ?_,independent_of_separated⟩
  obtain ⟨sni,hc,hd⟩ := exists_common_domain hm refusing granting
  by_contra hne
  have hi := h [atStart g sni granting] (by simpa [atStart] using hg) (atStart f sni refusing) hf
  have hfa : ¬ SameRequest (atStart f sni refusing) (atStart g sni granting) := fun hs => hne hs.2
  rw [List.filter_cons_of_neg (by simpa using hfa),admitted_by_other hc hd rfl rfl] at hi
  rw [verdict,check,hc] at hi
  cases hi

def loginFilter : NetworkGlobalRateLimit :=
  { domain := some "shop.example", failureModeDeny := true, rlsClient := .cluster "rls_cluster"
    descriptors := [[⟨"destination_cluster", "login"⟩]] }

def catalogueFilter : NetworkGlobalRateLimit :=
  { loginFilter with descriptors := [[⟨"destination_cluster", "catalogue"⟩]] }

theorem login_admitted_by_catalogue_quota :
    verdict [atStart catalogueFilter "shop.example" granting]
      (atStart loginFilter "shop.example" refusing) = .ok () ∧
    verdict [] (atStart loginFilter "shop.example" refusing) =
      .error "rate limited by global rate limiter" ∧
    ¬ SameRequest (atStart loginFilter "shop.example" refusing)
      (atStart catalogueFilter "shop.example" granting) := by
  decide

end ArionGateway.GlobalRateLimit
