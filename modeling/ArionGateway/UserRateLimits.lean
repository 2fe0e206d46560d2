import ArionGateway.HttpHeaders
import ArionGateway.KeyedStores
import ArionGateway.TokenBuckets
import Mathlib.GroupTheory.GroupAction.Ring

/-!
# The user rate limiter

A filter gives every user a token bucket, with a limit for single users and one for all others.
The buckets of all filters live in one table of the process, under the name of the user alone: a
bucket is made by the first filter that sees the user and has a limit for it, and serves every
filter after that. A task removes the buckets that are idle.
-/
namespace ArionGateway.UserRateLimits
open ByteStrings HttpHeaders KeyedStores TokenBuckets List

/-- The numbers a bucket is made of. A duration is not divided by zero. -/
structure BucketSettings where
  maxTokens : ℕ
  tokensPerFill : ℕ
  fillInterval : ℕ
  one_le_tokensPerFill : 1 ≤ tokensPerFill

namespace BucketSettings

variable (self : BucketSettings)

def timePerToken : ℕ := self.fillInterval / self.tokensPerFill

def timePerBucket : ℕ :=
  self.maxTokens*self.fillInterval / self.tokensPerFill

/-- `TokenBucket::new` at the instant `created`. A bucket may have no tokens at
all, or an interval of length zero. -/
def newBucket (earliest created : ℤ) : TokenBucket :=
  { time := (checkedSub earliest created (2*self.timePerBucket)).getD created
    timePerToken := self.timePerToken
    maxTokens := self.maxTokens
    timePerBucket := self.timePerBucket }

end BucketSettings

inductive TokenBucketError where
  | zeroCapacity
  | zeroRate
  deriving DecidableEq

/-- `TokenBucket::with_rate_and_capacity`: one token in every share of a second. -/
def withRateAndCapacity (maxTokens eventsPerSecond : ℕ) : Except TokenBucketError BucketSettings :=
  if maxTokens = 0 then .error .zeroCapacity
  else if eventsPerSecond = 0 then .error .zeroRate
  else .ok ⟨maxTokens,1,10^9 / eventsPerSecond,le_rfl⟩

inductive Limit where
  | localRateLimit (tokenBucket : Option BucketSettings)
  | simpleRateLimit (maxTokens rate : ℕ)

/-- The bucket a limit asks for, if any. -/
def Limit.settings : Limit → Option BucketSettings
  | .localRateLimit tokenBucket => tokenBucket
  | .simpleRateLimit maxTokens rate => (withRateAndCapacity maxTokens rate).toOption

/-- The header is the configured one as a header name; a text that is none names
no header of a request. The limit of `none` is for all users without their own. -/
structure UserRateLimiter where
  status : ℕ
  userIdHeader : Option Str
  userRateLimits : Option Str → Option Limit

inductive FilterDecision where
  | continue
  | rateLimited (msg : String) (status : ℕ)
  deriving DecidableEq

def maxUserIdLength : ℕ := 256

def cleanerTokenBucketIdle : ℕ := 60*10^9

/-- A request with the instants at which its bucket is made, if it is, and at
which it asks for a token. -/
structure Request where
  headers : HeaderMap
  created : ℤ
  now : ℤ
  failures : ℕ := 0

namespace UserRateLimiter
variable (self : UserRateLimiter)

def user (headers : HeaderMap) : Option Str := do
  let name ← self.userIdHeader
  let text ← toStr (← headers.get name)
  if text ≠ [] ∧ text.length ≤ maxUserIdLength then some text else none

def limit (user : Str) : Option Limit :=
  (self.userRateLimits (some user)).or (self.userRateLimits none)

def settings (user : Str) : Option BucketSettings := (self.limit user).bind Limit.settings

/-- Whether a token is there, and the bucket of the user after the request. A
bucket that is found is used, whoever made it. -/
def takeToken (earliest : ℤ) (user : Str) (r : Request) (bucket : Option TokenBucket) :
    Bool × Option TokenBucket :=
  match bucket.or ((self.settings user).map fun s => s.newBucket earliest r.created) with
  | none => (true, none)
  | some tb =>
    let (allowed, tb) := tb.consume earliest r.now 1 r.failures
    (allowed, some tb)

end UserRateLimiter

abbrev Buckets := Str → Option TokenBucket

/-- `apply_request`, for requests that come one after the other. -/
def applyRequest (self : UserRateLimiter) (earliest : ℤ) (buckets : Buckets) (r : Request) :
    FilterDecision × Buckets :=
  match self.user r.headers with
  | none => (.continue, buckets)
  | some user =>
    let (allowed, bucket) := self.takeToken earliest user r (buckets user)
    (if allowed then .continue else .rateLimited "Rate limited" self.status,
      Function.update buckets user bucket)

/-- A run of the cleaner on one bucket. The instant of the bucket may be later
than now, and is not idle then. -/
def retain (now : ℤ) (bucket : Option TokenBucket) : Option TokenBucket :=
  bucket.filter fun tb => now - tb.time < cleanerTokenBucketIdle

/-- What happens to the table: a request through one of the filters, or a run of
the cleaner. -/
inductive Event (ι : Type*) where
  | request (filter : ι) (r : Request)
  | clean (now : ℤ)

/-- The instants that an event reads from the clock, in order. -/
def Event.instants {ι : Type*} : Event ι → List ℤ
  | .request _ r => [r.created,r.now]
  | .clean now => [now]

/-- The clock does not go back. -/
def Ordered {ι : Type*} (events : List (Event ι)) : Prop :=
  (events.flatMap Event.instants).Pairwise (· ≤ ·)

variable {ι : Type*} (earliest : ℤ) (filters : ι → UserRateLimiter)

def step (buckets : Buckets) : Event ι → Buckets
  | .request i r => (applyRequest (filters i) earliest buckets r).2
  | .clean now => fun user => retain now (buckets user)

def after (events : List (Event ι)) : Buckets :=
  events.foldl (step earliest filters) fun _ => none

def stepEntry (user : Str) : Event ι → Option TokenBucket → Option TokenBucket
  | .request i r, bucket =>
    if (filters i).user r.headers = some user then
      ((filters i).takeToken earliest user r bucket).2
    else bucket
  | .clean now, bucket => retain now bucket

lemma entrywise_step : Entrywise (step earliest filters) (stepEntry earliest filters) := by
  intro buckets e user
  cases e with
  | clean now => rfl
  | request i r =>
    rw [step,applyRequest,stepEntry]
    cases hu : (filters i).user r.headers with
    | none => rfl
    | some other =>
      by_cases h : other = user
      · subst h
        simp
      · have hne : user ≠ other := fun h' => h h'.symm
        simp [h,hne]

lemma applyRequest_fst (s : UserRateLimiter) (b : Buckets) {r : Request} {u : Str}
    (hu : s.user r.headers = some u) : (applyRequest s earliest b r).1 =
      if (s.takeToken earliest u r (b u)).1 then .continue
      else .rateLimited "Rate limited" s.status := by
  rw [applyRequest,hu]

open Event

open UserRateLimiter

variable (user : Str) {since : ℤ} {bucket : Option TokenBucket}

/-- The requests of a user that are admitted, each for a token. -/
def admitted : Buckets → List (Event ι) → List Call
  | _, [] => []
  | buckets, .clean now::events => admitted (step earliest filters buckets (.clean now)) events
  | buckets, .request i r::events =>
    let rest := admitted (step earliest filters buckets (.request i r)) events
    if (filters i).user r.headers = some user ∧
        (applyRequest (filters i) earliest buckets r).1 = .continue then
      { now := r.now, tokens := 1, failures := r.failures }::rest
    else rest

variable {earliest filters user}

lemma admitted_append (b : Buckets) (f second : List (Event ι)) :
    admitted earliest filters user b (f++second) = admitted earliest filters user b f ++
        admitted earliest filters user (f.foldl (step earliest filters) b) second := by
  induction f generalizing b with
  | nil => rfl
  | cons e f ih =>
    cases e with
    | clean now => exact ih _
    | request i r =>
      rw [cons_append,admitted,admitted,ih]
      split_ifs <;> rfl

lemma admitted_request_of_user {i : ι} {r : Request} (hu : (filters i).user r.headers = some user)
    (b : Buckets) (events : List (Event ι)) :
    admitted earliest filters user b (.request i r::events) =
      if ((filters i).takeToken earliest user r (b user)).1 then
        { now := r.now, tokens := 1, failures := r.failures } ::
          admitted earliest filters user (step earliest filters b (.request i r)) events
      else admitted earliest filters user (step earliest filters b (.request i r)) events := by
  rw [admitted,applyRequest_fst earliest (filters i) b hu]
  cases ((filters i).takeToken earliest user r (b user)).1 <;> simp [hu]

variable {settings : BucketSettings}

/-- A bucket that was made with the settings. -/
def MadeWith (settings : BucketSettings) (bucket : Option TokenBucket) : Prop :=
  ∀ tb, bucket = some tb →
    tb.timePerToken = settings.timePerToken ∧ tb.timePerBucket = settings.timePerBucket

/-- The instant from which the tokens of a bucket are counted, seen from `since`:
a bucket that is not there counts as a full one. -/
def countedFrom (settings : BucketSettings) (since : ℤ) : Option TokenBucket → ℤ
  | none => since - settings.timePerBucket
  | some tb => max tb.time (since - settings.timePerBucket)

lemma countedFrom_none (s : ℤ) : countedFrom settings s none = s - settings.timePerBucket := rfl

lemma countedFrom_some (s : ℤ) (tb : TokenBucket) :
    countedFrom settings s (some tb) = max tb.time (s - settings.timePerBucket) := rfl

lemma madeWith_none : MadeWith settings none := fun _ h => nomatch h

lemma madeWith_newBucket (c : ℤ) : MadeWith settings (some (settings.newBucket earliest c)) := by
  rintro tb ⟨⟩
  exact ⟨rfl,rfl⟩

variable (settings) in
lemma countedFrom_mono {now : ℤ} (h : since ≤ now) (bucket : Option TokenBucket) :
    countedFrom settings since bucket ≤ countedFrom settings now bucket := by
  cases bucket with
  | none => exact Int.sub_le_sub_right h _
  | some tb => exact max_le_max_left _ (Int.sub_le_sub_right h _)

variable (earliest) in
lemma takeToken_spec {se : UserRateLimiter} {r : Request}
    (hsettings : se.settings user = some settings) (hm : MadeWith settings bucket)
    (hsi : since ≤ r.now) : MadeWith settings (se.takeToken earliest user r bucket).2 ∧
    countedFrom settings since bucket ≤
      countedFrom settings r.now (se.takeToken earliest user r bucket).2 ∧
    ((se.takeToken earliest user r bucket).1 = true →
      countedFrom settings since bucket+settings.timePerToken ≤
        countedFrom settings r.now (se.takeToken earliest user r bucket).2 ∧
      r.now - settings.timePerBucket+settings.timePerToken ≤
        countedFrom settings r.now (se.takeToken earliest user r bucket).2 ∧
      countedFrom settings r.now (se.takeToken earliest user r bucket).2 ≤ r.now) := by
  obtain ⟨tb,htb,ht,hle⟩ : ∃ tb,
      bucket.or ((se.settings user).map fun s => s.newBucket earliest r.created) = some tb ∧
      MadeWith settings (some tb) ∧
      countedFrom settings since bucket ≤ countedFrom settings r.now (some tb) := by
    cases bucket with
    | some tb => exact ⟨tb,rfl,hm,countedFrom_mono settings hsi _⟩
    | none =>
      refine ⟨settings.newBucket earliest r.created,by rw [hsettings]; rfl,madeWith_newBucket _,?_⟩
      exact (countedFrom_mono settings hsi none).trans (le_max_right ..)
  obtain ⟨hto,hb⟩ := ht tb rfl
  rw [takeToken,htb]
  rcases consume_cases tb earliest r.now 1 r.failures with hd | ⟨time,hg,ho,hf,hn⟩
  · simp only [hd]
    exact ⟨ht,hle,fun h => absurd h Bool.false_ne_true⟩
  · simp only [hg]
    have hc : countedFrom settings r.now (some { tb with time }) = time := by
      exact max_eq_left (by dsimp only; omega)
    rw [countedFrom_some] at hle
    refine ⟨?_,by omega,fun _ => by omega⟩
    rintro tb' ⟨⟩
    exact ⟨hto,hb⟩

lemma countedFrom_retain (hidle : settings.timePerBucket ≤ cleanerTokenBucketIdle) {now : ℤ}
    (hsi : since ≤ now) (b : Option TokenBucket) :
    countedFrom settings since b ≤ countedFrom settings now (retain now b) := by
  cases b with
  | none => exact countedFrom_mono settings hsi none
  | some tb =>
    rw [retain,Option.filter_some]
    by_cases hk : now - tb.time < cleanerTokenBucketIdle
    · rw [if_pos (by simpa using hk)]
      exact countedFrom_mono settings hsi _
    · rw [if_neg (by simpa using hk)]
      dsimp only [countedFrom]
      omega

section

variable (hid : settings.timePerBucket ≤ cleanerTokenBucketIdle)
    (hs : ∀ i, (filters i).settings user = some settings)
include hid hs

/-- The tokens of a window, measured in time, fit between the count at its start
and its end, also where buckets are removed and made again. -/
lemma admitted_fit (s : ℤ) (length : ℕ) (ev : List (Event ι)) (b : Buckets)
    (hm : MadeWith settings (b user)) (ho : (si::ev.flatMap instants).Pairwise (· ≤ ·))
    (hpos : 0 < tokensIn s length (admitted earliest filters user b ev)) :
    max (countedFrom settings si (b user)) (s - settings.timePerBucket)+(settings.timePerToken *
        tokensIn s length (admitted earliest filters user b ev) : ℕ) ≤ s+length := by
  induction ev generalizing b si with
  | nil => exact absurd hpos (lt_irrefl 0)
  | cons e ev ih =>
    cases e with
    | clean now =>
      obtain ⟨hsi,hr⟩ := pairwise_cons.mp ho
      have he : step earliest filters b (.clean now) user = retain now (b user) := rfl
      have hco := countedFrom_retain hid (hsi now mem_cons_self) (b user)
      have hfi := ih _ (fun tb ht => hm tb (Option.filter_eq_some_iff.mp ht).1) hr hpos
      rw [he] at hfi
      rw [admitted]
      omega
    | request i r =>
      obtain ⟨hsi,hc⟩ := pairwise_cons.mp ho
      have hn : si ≤ r.now := hsi r.now (by simp [instants])
      have hr := (pairwise_cons.mp hc).2
      have he := entrywise_step earliest filters b (.request i r) user
      rw [stepEntry] at he
      by_cases hu : (filters i).user r.headers = some user
      · obtain ⟨hm',hle,hg⟩ := takeToken_spec earliest (hs i) hm hn
        rw [if_pos hu] at he
        rw [← he] at hm' hle hg
        have hfi := ih _ hm' hr
        rw [admitted_request_of_user hu] at hpos ⊢
        set rest := admitted earliest filters user (step earliest filters b (.request i r)) ev
        by_cases ht : ((filters i).takeToken earliest user r (b user)).1 = true
        · obtain ⟨hol,hf,hed⟩ := hg ht
          rw [if_pos ht,tokensIn] at hpos ⊢
          by_cases hin : s ≤ r.now ∧ r.now ≤ s+length
          · rw [if_pos hin,Nat.mul_add,Nat.cast_add,Nat.mul_one]
            -- the last token of the window ends the sum: it is not taken beyond now
            rcases eq_zero_or_pos (tokensIn s length rest) with hz | hre
            · rw [hz,Nat.mul_zero]
              omega
            · omega
          · rw [if_neg hin,zero_add] at hpos ⊢
            omega
        · rw [if_neg ht] at hpos ⊢
          omega
      · rw [if_neg hu] at he
        rw [admitted,if_neg fun h => hu h.1] at hpos ⊢
        have hfi := ih _ (he ▸ hm) hr hpos
        rw [he] at hfi
        have hco := countedFrom_mono settings hn (b user)
        omega

lemma admitted_within_rate (hi : 0 < settings.fillInterval)
    (hd : settings.tokensPerFill ∣ settings.fillInterval) {ev : List (Event ι)}
    (ho : Ordered ev) (s : ℤ) (l : ℕ) :
    tokensIn s l (admitted earliest filters user (fun _ => none) ev) ≤
      settings.maxTokens+(l*settings.tokensPerFill) ⌈/⌉ settings.fillInterval := by
  refine le_add_ceilDiv_of_fit settings.one_le_tokensPerFill hi hd ?_
  change settings.timePerToken*_ ≤ l+settings.timePerBucket
  rcases eq_zero_or_pos (tokensIn s l
    (admitted earliest filters user (fun _ => none) ev)) with hz | hpos
  · rw [hz]
    exact Nat.zero_le _
  · -- the clock shows some instant before the first event
    obtain ⟨since,hsi⟩ : ∃ since, ∀ t ∈ ev.flatMap instants, since ≤ t := by
      cases hin : ev.flatMap instants with
      | nil => exact ⟨0,nofun⟩
      | cons t rest =>
        rw [Ordered,hin] at ho
        refine ⟨t,fun t' ht' => ?_⟩
        rcases mem_cons.mp ht' with rfl | hm
        · exact le_rfl
        · exact (pairwise_cons.mp ho).1 t' hm
    have hf := admitted_fit hid hs s l ev (fun _ => none) madeWith_none (pairwise_cons.mpr ⟨hsi,ho⟩) hpos
    omega

end

section

def IsUserId (user : Str) : Prop :=
  (∀ b ∈ user, isVisibleAscii b = true) ∧ user ≠ [] ∧ user.length ≤ maxUserIdLength

instance (user : Str) : Decidable (IsUserId user) := inferInstanceAs (Decidable (_ ∧ _ ∧ _))

def requestOf (name user : Str) (now : ℤ) : Request :=
  { headers := [(name, user)], created := now, now }

lemma user_requestOf {s : UserRateLimiter} {n : Str} (hn : s.userIdHeader = some n)
    (hu : IsUserId user) (now : ℤ) : s.user (requestOf n user now).headers = some user := by
  obtain ⟨hv,hb⟩ := hu
  have ht : toStr user = some user := toStr_eq_some_iff.mpr ⟨rfl,hv⟩
  simp [UserRateLimiter.user,hn,requestOf,HeaderMap.get,ht,hb]

variable {s : UserRateLimiter}

variable (s earliest) in
lemma takeToken_some_of_enough (n : Str) {tb : TokenBucket} {now counted : ℤ}
    (hm : MadeWith settings (some tb)) (hea : earliest ≤ now - settings.timePerBucket)
    (hc : countedFrom settings now (some tb) = counted) (he : counted+settings.timePerToken ≤ now) :
    s.takeToken earliest user (requestOf n user now) (some tb) =
      (true, some { tb with time := counted+settings.timePerToken }) := by
  obtain ⟨ht,hb⟩ := hm tb rfl
  have hst : max tb.time (now - tb.timePerBucket) = counted := by
    rw [hb]
    exact hc
  have hg : tb.consume earliest now 1 0 =
      (true, { tb with time := counted+settings.timePerToken }) := by
    rw [consume_of_enough tb 1 (by omega) hst (by rw [mul_one,ht]; exact he) 0,mul_one,ht]
  dsimp only [takeToken,requestOf,Option.or]
  rw [hg]

lemma takeToken_of_enough (n : Str) {b : Option TokenBucket} {now counted : ℤ}
    (hsettings : s.settings user = some settings) (hm : MadeWith settings b)
    (he : earliest ≤ now - (2*settings.timePerBucket : ℕ))
    (hc : countedFrom settings now b = counted) (heg : counted+settings.timePerToken ≤ now) :
    ∃ tb, s.takeToken earliest user (requestOf n user now) b = (true, some tb) ∧
      MadeWith settings (some tb) ∧ tb.time = counted+settings.timePerToken := by
  obtain ⟨tb,hsa,ht,hco⟩ : ∃ tb, s.takeToken earliest user (requestOf n user now) b =
        s.takeToken earliest user (requestOf n user now) (some tb) ∧
      MadeWith settings (some tb) ∧ countedFrom settings now (some tb) = counted := by
    cases b with
    | some tb => exact ⟨tb,rfl,hm,hc⟩
    | none =>
      refine ⟨settings.newBucket earliest now,?_,madeWith_newBucket _,?_⟩
      · simp only [takeToken,hsettings]
        rfl
      · rw [← hc,BucketSettings.newBucket,checkedSub,if_pos he]
        exact max_eq_right (by dsimp only [Option.getD_some]; omega)
  refine ⟨{ tb with time := counted+settings.timePerToken },?_,?_,rfl⟩
  · rw [hsa]
    exact takeToken_some_of_enough earliest s n ht (by omega) hco heg
  · rintro tb' ⟨⟩
    exact ht tb rfl

variable {name : Str}

variable (settings name user) in
/-- A run of the cleaner, and then a request for every token of a full bucket. -/
def burst (now : ℤ) : List (Event Unit) :=
  .clean now::List.replicate settings.maxTokens (.request () (requestOf name user now))

variable (settings name user) in
def bursts : ℕ → ℤ → List (Event Unit)
  | 0, _ => []
  | n+1, now => burst user settings name now++bursts n (now+cleanerTokenBucketIdle)

variable (settings) in
def burstCalls : ℕ → ℤ → List Call
  | 0, _ => []
  | n+1, now =>
    List.replicate settings.maxTokens { now, tokens := 1 } ++
      burstCalls n (now+cleanerTokenBucketIdle)

variable (earliest filters) in
lemma admitted_replicate (i : ι) (hn : (filters i).userIdHeader = some name)
    (hus : IsUserId user) (hsettings : (filters i).settings user = some settings) (now : ℤ)
    (hea : earliest ≤ now - (2*settings.timePerBucket : ℕ)) (n t : ℕ)
    (b : Buckets) (hm : MadeWith settings (b user)) (hc : countedFrom settings now (b user) =
      now - settings.timePerBucket+(t*settings.timePerToken : ℕ))
    (heg : (t+n)*settings.timePerToken ≤ settings.timePerBucket) :
    let events := List.replicate n (request i (requestOf name user now))
    let buckets' := events.foldl (step earliest filters) b
    admitted earliest filters user b events = List.replicate n { now, tokens := 1 } ∧
      MadeWith settings (buckets' user) ∧ countedFrom settings now (buckets' user) =
        now - settings.timePerBucket+((t+n)*settings.timePerToken : ℕ) := by
  induction n generalizing t b with
  | zero => exact ⟨rfl,hm,hc⟩
  | succ n ih =>
    have hml : (t+(n+1))*settings.timePerToken =
        t*settings.timePerToken+settings.timePerToken+n*settings.timePerToken := by
      ring
    have hmu : (t+1)*settings.timePerToken =
      t*settings.timePerToken+settings.timePerToken := Nat.succ_mul ..
    have hu := user_requestOf hn hus now
    obtain ⟨tb,ht,htb,hti⟩ := takeToken_of_enough name hsettings hm hea hc (by omega)
    have he := entrywise_step earliest filters b (.request i (requestOf name user now)) user
    rw [stepEntry,if_pos hu,ht] at he
    have hc' : countedFrom settings now (some tb) =
        now - settings.timePerBucket+((t+1)*settings.timePerToken : ℕ) := by
      rw [countedFrom_some]
      omega
    obtain ⟨ha,hm',hco⟩ := ih (t+1) (step earliest filters b (.request i (requestOf name user now)))
      (by rw [he]; exact htb) (by rw [he]; exact hc')
      (by rw [add_right_comm]; exact heg)
    refine ⟨?_,hm',hco.trans (by rw [add_right_comm t 1 n]; rfl)⟩
    rw [replicate_succ,admitted_request_of_user hu,ht,ha]
    rfl

lemma admitted_bursts (hn : s.userIdHeader = some name) (hu : IsUserId user)
    (hsettings : s.settings user = some settings)
    (he : settings.maxTokens*settings.timePerToken = settings.timePerBucket) (n : ℕ) {now : ℤ}
    (hea : earliest ≤ now - (2*settings.timePerBucket : ℕ)) {b : Buckets}
    (hidle : ∀ tb, b user = some tb → tb.time+cleanerTokenBucketIdle ≤ now) :
    admitted earliest (fun _ => s) user b (bursts user settings name n now) =
      burstCalls settings n now := by
  induction n generalizing now b with
  | zero => rfl
  | succ n ih =>
    have hc : step earliest (fun _ : Unit => s) b (.clean now) user = none := by
      change retain now (b user) = none
      cases hb : b user with
      | none => rfl
      | some tb =>
        have ho := hidle tb hb
        rw [retain,Option.filter_some,if_neg]
        simp only [decide_eq_true_eq]
        omega
    obtain ⟨ha,hm,hco⟩ := admitted_replicate earliest (fun _ => s) () hn hu
      hsettings now hea settings.maxTokens 0 (step earliest (fun _ => s) b (.clean now)) (by rw [hc]; exact madeWith_none)
      (by rw [hc,countedFrom_none,Nat.zero_mul,Nat.cast_zero,Int.add_zero])
      (by rw [zero_add,he])
    rw [bursts,burst,cons_append,admitted,admitted_append,ha]
    refine congrArg _ (ih (by omega) fun tb htb => ?_)
    rw [htb,countedFrom_some,zero_add] at hco
    omega

lemma bursts_instants (n : ℕ) (now : ℤ) :
    ((bursts user settings name n now).flatMap instants).Pairwise (· ≤ ·) ∧
      ∀ t ∈ (bursts user settings name n now).flatMap instants, now ≤ t := by
  induction n generalizing now with
  | zero => exact ⟨.nil,nofun⟩
  | succ n ih =>
    obtain ⟨hso,hl⟩ := ih (now+cleanerTokenBucketIdle)
    have hb : ∀ t ∈ (burst user settings name now).flatMap instants, t = now := by
      intro t ht
      obtain ⟨e,he,ht⟩ := mem_flatMap.mp ht
      rcases mem_cons.mp he with rfl | hr
      · exact mem_singleton.mp ht
      · obtain rfl := eq_of_mem_replicate hr
        simpa [instants,requestOf] using ht
    rw [bursts,flatMap_append,pairwise_append]
    refine ⟨⟨?_,hso,fun t ht t' ht' => ?_⟩,fun t ht => ?_⟩
    · refine pairwise_of_forall_mem_list fun t ht t' ht' => ?_
      rw [hb t ht,hb t' ht']
    · rw [hb t ht]
      have hle := hl t' ht'
      omega
    · rcases mem_append.mp ht with hf | hla
      · exact (hb t hf).ge
      · have hle := hl t hla
        omega

lemma mem_burstCalls {n : ℕ} {now : ℤ} {c : Call} (hc : c ∈ burstCalls settings n now) :
    now ≤ c.now ∧ c.now+cleanerTokenBucketIdle ≤ now+(n*cleanerTokenBucketIdle : ℕ) ∧
      c.tokens = 1 := by
  induction n generalizing now with
  | zero => cases hc
  | succ n ih =>
    have hm : (n+1)*cleanerTokenBucketIdle =
      n*cleanerTokenBucketIdle+cleanerTokenBucketIdle := Nat.succ_mul ..
    rcases mem_append.mp hc with hf | hl
    · obtain rfl := eq_of_mem_replicate hf
      dsimp only
      omega
    · have hle := ih hl
      omega

lemma length_burstCalls (n : ℕ) (now : ℤ) :
    (burstCalls settings n now).length = n*settings.maxTokens := by
  induction n generalizing now with
  | zero => exact (zero_mul _).symm
  | succ n ih => rw [burstCalls,length_append,length_replicate,ih,Nat.succ_mul,Nat.add_comm]

lemma exists_excess (hn : s.userIdHeader = some name) (hu : IsUserId user)
    (hsettings : s.settings user = some settings) (hi : 0 < settings.fillInterval)
    (hd : settings.tokensPerFill ∣ settings.fillInterval)
    (hl : cleanerTokenBucketIdle < settings.timePerBucket) (e : ℤ) :
    ∃ (ev : List (Event Unit)) (start : ℤ) (l : ℕ), Ordered ev ∧
      settings.maxTokens+(l*settings.tokensPerFill) ⌈/⌉ settings.fillInterval < tokensIn start l
          (admitted e (fun _ => s) user (fun _ => none) ev) := by
  have hf : 0 < settings.tokensPerFill := settings.one_le_tokensPerFill
  obtain ⟨perToken,hp⟩ := hd
  have hto : settings.timePerToken = perToken := by
    rw [BucketSettings.timePerToken,hp,Nat.mul_div_cancel_left _ hf]
  have hb : settings.timePerBucket = settings.maxTokens*perToken := by
    rw [BucketSettings.timePerBucket,hp,Nat.mul_left_comm,Nat.mul_div_cancel_left _ hf]
  let start : ℤ := e+(2*settings.timePerBucket : ℕ)
  let n := settings.fillInterval
  refine ⟨bursts user settings name (n+1) start,start,n*cleanerTokenBucketIdle,
    (bursts_instants (n+1) start).1,?_⟩
  rw [admitted_bursts hn hu hsettings (by rw [hto,hb]) (n+1)
    (by dsimp only [start]; omega) (fun tb htb => by cases htb)]
  rw [tokensIn_eq_length,length_burstCalls,Nat.succ_mul,Nat.add_comm]
  · have hce : (n*cleanerTokenBucketIdle*settings.tokensPerFill) ⌈/⌉ settings.fillInterval =
        cleanerTokenBucketIdle*settings.tokensPerFill := by
      rw [mul_assoc]
      exact smul_ceilDiv hi _
    have hr : cleanerTokenBucketIdle*settings.tokensPerFill < n*settings.maxTokens := by
      calc cleanerTokenBucketIdle*settings.tokensPerFill
          < settings.maxTokens*perToken*settings.tokensPerFill :=
            mul_lt_mul_of_pos_right (hb ▸ hl) hf
        _ = settings.tokensPerFill*perToken*settings.maxTokens := by ring
        _ = n*settings.maxTokens := by rw [← hp]
    rw [hce]
    exact Nat.add_lt_add_right hr _
  · intro c hc
    obtain ⟨hst,he,ht⟩ := mem_burstCalls hc
    have hm : (n+1)*cleanerTokenBucketIdle =
      n*cleanerTokenBucketIdle+cleanerTokenBucketIdle := Nat.succ_mul ..
    exact ⟨hst,by omega,ht⟩

end

/-- With an exact division of the interval, the buckets of a user keep to the
configured rate under every schedule of the cleaner if and only if a bucket fills
within the time after which the cleaner removes it. -/
theorem within_rate_iff_fills_while_kept (self : UserRateLimiter) (name user : Str)
    (settings : BucketSettings) (hname : self.userIdHeader = some name) (huser : IsUserId user)
    (hsettings : self.settings user = some settings) (hinterval : 0 < settings.fillInterval)
    (hdvd : settings.tokensPerFill ∣ settings.fillInterval) (earliest : ℤ) :
    (∀ events : List (Event Unit), Ordered events → ∀ (start : ℤ) (length : ℕ),
      tokensIn start length (admitted earliest (fun _ => self) user (fun _ => none) events) ≤
        settings.maxTokens + (length * settings.tokensPerFill) ⌈/⌉ settings.fillInterval) ↔
      settings.maxTokens * settings.fillInterval / settings.tokensPerFill ≤
        cleanerTokenBucketIdle := by
  constructor
  · intro hr
    by_contra hl
    obtain ⟨events,start,length,ho,he⟩ := exists_excess hname huser hsettings
      hinterval hdvd (Nat.lt_of_not_le hl) earliest
    exact Nat.not_le_of_lt he (hr events ho start length)
  · intro hidle events ho start length
    exact admitted_within_rate hidle (fun _ => hsettings) hinterval hdvd ho start length

def slowLimiter : UserRateLimiter :=
  { status := 429
    userIdHeader := some (str "x-user-id")
    userRateLimits := fun user => if user = none then
      some (.localRateLimit (some ⟨1,1,120*10^9,Nat.one_pos⟩)) else none }

theorem slowLimiter_within_rate_iff :
    (∀ events : List (Event Unit), Ordered events → ∀ (start : ℤ) (length : ℕ),
      tokensIn start length
          (admitted 0 (fun _ => slowLimiter) (str "alice") (fun _ => none) events) ≤
        1 + (length * 1) ⌈/⌉ (120 * 10 ^ 9)) ↔ 1 * (120 * 10 ^ 9) / 1 ≤ cleanerTokenBucketIdle :=
  within_rate_iff_fills_while_kept slowLimiter (str "x-user-id") (str "alice")
    ⟨1,1,120*10^9,Nat.one_pos⟩ rfl (by decide) rfl (by decide) (Nat.one_dvd _) 0

/-- A request every minute, each after a run of the cleaner: two minutes grant
three tokens where the rate allows two. -/
theorem three_tokens_in_two_minutes :
    let at' : ℤ → Event Unit := fun now => .request () (requestOf (str "x-user-id") (str "alice") now)
    let events := [at' (600*10^9),.clean (660*10^9),at' (660*10^9),.clean (720*10^9),at' (720*10^9)]
    Ordered events ∧ tokensIn (600*10^9) (120*10^9)
      (admitted 0 (fun _ => slowLimiter) (str "alice") (fun _ => none) events) = 3 ∧
    1+(120*10^9*1) ⌈/⌉ (120*10^9) = 2 := by
  refine ⟨?_,?_,?_⟩
  · unfold Ordered
    decide
  · decide
  · decide

end ArionGateway.UserRateLimits
