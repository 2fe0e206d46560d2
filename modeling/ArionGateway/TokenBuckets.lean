import Mathlib.Algebra.BigOperators.Group.List.Basic
import Mathlib.Algebra.Order.Floor.Div
import Mathlib.Algebra.Order.Ring.Int
import Mathlib.Tactic.Ring

/-!
# Token buckets

A token bucket stores an instant, and the tokens in the bucket are the time from that instant to
now, at most `time_per_bucket`, in units of `time_per_token`. Both times come from the
configuration by truncating division. Every window of length `W` grants at most `(W +
time_per_bucket) / time_per_token` tokens. This is the configured rate exactly when
`tokens_per_fill` divides `fill_interval`; in every other case the truncated `time_per_token` is
too short, and some run exceeds the configured rate. The ends of the range of durations, where the
source panics, are left out; the least instant is kept, since `checked_sub` falls back there.
-/
namespace ArionGateway.TokenBuckets
open List

/-- A configuration with the bounds that `new` needs. -/
structure TokenBucketConfig where
  maxTokens : ℕ
  tokensPerFill : ℕ
  fillInterval : ℕ
  one_le_maxTokens : 1 ≤ maxTokens
  one_le_tokensPerFill : 1 ≤ tokensPerFill
  fillInterval_pos : 0 < fillInterval

structure TokenBucket where
  time : ℤ
  timePerToken : ℕ
  timePerBucket : ℕ
  maxTokens : ℕ
  deriving DecidableEq

/-- `Instant::checked_sub` on a platform whose least instant is `earliest`. -/
def checkedSub (earliest now : ℤ) (duration : ℕ) : Option ℤ :=
  if earliest ≤ now - duration then some (now - duration) else none

namespace TokenBucket

def new (earliest : ℤ) (config : TokenBucketConfig) (now : ℤ) : TokenBucket :=
  let timePerBucket := config.maxTokens*config.fillInterval / config.tokensPerFill
  { time := (checkedSub earliest now (2*timePerBucket)).getD now
    timePerToken := config.fillInterval / config.tokensPerFill
    maxTokens := config.maxTokens
    timePerBucket }

/-- One pass of the loop in `consume`: the instant to store, or `none` where the
call returns false. -/
def newTime (now minTime : ℤ) (reqFillPeriod : ℕ) (oldTime : ℤ) : Option ℤ :=
  let newTime := (if oldTime < minTime then minTime else oldTime)+reqFillPeriod
  if now < newTime then none else some newTime

/-- The loop in `consume`. Each exchange that fails hands the next pass the
instant it has found. -/
def consumeLoop (now minTime : ℤ) (reqFillPeriod : ℕ) : List ℤ → ℤ → Option ℤ
  | [], oldTime => newTime now minTime reqFillPeriod oldTime
  | found::failures, oldTime =>
    (newTime now minTime reqFillPeriod oldTime).bind fun _ =>
      consumeLoop now minTime reqFillPeriod failures found

/-- A call of `consume` at instant `now`, with the number of exchanges that fail
spuriously: they find the instant that was loaded. -/
def consume (self : TokenBucket) (earliest now : ℤ) (tokens failures : ℕ) : Bool × TokenBucket :=
  let reqFillPeriod := self.timePerToken*tokens
  let minTime := (checkedSub earliest now self.timePerBucket).getD now
  match consumeLoop now minTime reqFillPeriod (List.replicate failures self.time) self.time with
  | some time => (true, { self with time })
  | none => (false, self)

end TokenBucket

open TokenBucket (consumeLoop newTime consume new)

structure Call where
  now : ℤ
  tokens : ℕ
  failures : ℕ := 0
  deriving DecidableEq

def grants (earliest : ℤ) : TokenBucket → List Call → List Call
  | _, [] => []
  | bucket, c::cs =>
    match bucket.consume earliest c.now c.tokens c.failures with
    | (true, bucket') => c::grants earliest bucket' cs
    | (false, bucket') => grants earliest bucket' cs

/-- The tokens of the calls in the window from `start` to `start + length`, both
ends included. -/
def tokensIn (start : ℤ) (length : ℕ) : List Call → ℕ
  | [] => 0
  | c::cs =>
    (if start ≤ c.now ∧ c.now ≤ start+length then c.tokens else 0)+tokensIn start length cs

variable {bucket : TokenBucket} {earliest now : ℤ} {tokens : ℕ}

lemma consumeLoop_replicate (now m : ℤ) (r f : ℕ) (time : ℤ) :
    consumeLoop now m r (List.replicate f time) time = newTime now m r time := by
  induction f with
  | zero => rfl
  | succ f ih =>
    rw [replicate_succ,consumeLoop,ih]
    cases newTime now m r time <;> rfl

variable (b : TokenBucket)

lemma consume_eq (e now : ℤ) (t f : ℕ) : b.consume e now t f =
      match newTime now ((checkedSub e now b.timePerBucket).getD now) (b.timePerToken*t) b.time with
      | some time => (true, { b with time })
      | none => (false, b) := by
  rw [consume,consumeLoop_replicate]

lemma le_checkedSub_getD (e now : ℤ) (d : ℕ) : now - d ≤ (checkedSub e now d).getD now := by
  rw [checkedSub]
  split_ifs
  · exact le_rfl
  · exact sub_le_self now (Int.natCast_nonneg d)

/-- What a call can do. A grant moves the instant forward by the time of its
tokens, from no earlier than a full bucket ago, and not beyond now. -/
lemma consume_cases (e now : ℤ) (t f : ℕ) : b.consume e now t f = (false, b) ∨
    ∃ time, b.consume e now t f = (true, { b with time }) ∧ b.time+(b.timePerToken*t : ℕ) ≤ time ∧
      now - b.timePerBucket+(b.timePerToken*t : ℕ) ≤ time ∧ time ≤ now := by
  rw [consume_eq,newTime]
  have hm := le_checkedSub_getD e now b.timePerBucket
  set minTime := (checkedSub e now b.timePerBucket).getD now
  by_cases hl : now < (if b.time < minTime then minTime else b.time)+(b.timePerToken*t : ℕ)
  · rw [if_pos hl]
    exact .inl rfl
  · rw [if_neg hl]
    refine .inr ⟨_,rfl,?_⟩
    split_ifs at hl ⊢ <;> omega

lemma consume_of_enough {e now stored : ℤ} (t : ℕ)
    (he : e ≤ now - b.timePerBucket) (hst : max b.time (now - b.timePerBucket) = stored)
    (heg : stored+(b.timePerToken*t : ℕ) ≤ now) (f : ℕ) :
    b.consume e now t f = (true, { b with time := stored+(b.timePerToken*t : ℕ) }) := by
  have hm : (if b.time < now - b.timePerBucket then now - b.timePerBucket
      else b.time) = stored := by
    split_ifs <;> omega
  rw [consume_eq,checkedSub,if_pos he,Option.getD_some,newTime,hm,if_neg (not_lt.mpr heg)]

variable (e s : ℤ) (length : ℕ) (b : TokenBucket) (cs : List Call)

/-- The tokens granted in a window, measured in time, fit between what the bucket
can store at the start of the window and the end of the window. -/
lemma grants_fit (hpos : 0 < tokensIn s length (grants e b cs)) :
    max b.time (s - b.timePerBucket)+(b.timePerToken*tokensIn s length (grants e b cs) : ℕ) ≤
      s+length := by
  induction cs generalizing b with
  | nil => exact absurd hpos (lt_irrefl 0)
  | cons c cs ih =>
    rcases consume_cases b e c.now c.tokens c.failures with hd | ⟨time,hg,ho,hf,hno⟩
    · rw [grants,hd] at hpos ⊢
      exact ih b hpos
    · rw [grants,hg] at hpos ⊢
      dsimp only [tokensIn] at hpos ⊢
      have hr := ih { b with time }
      dsimp only at hr
      set rest := tokensIn s length (grants e { b with time } cs)
      by_cases hin : s ≤ c.now ∧ c.now ≤ s+length
      · rw [if_pos hin,Nat.mul_add,Nat.cast_add]
        -- the last grant of the window ends the sum: it does not go beyond now
        rcases eq_zero_or_pos rest with hz | hre
        · rw [hz,Nat.mul_zero]
          omega
        · have hr := hr hre
          omega
      · rw [if_neg hin,zero_add] at hpos ⊢
        omega

lemma timePerToken_mul_tokensIn_le :
    b.timePerToken*tokensIn s length (grants e b cs) ≤ length+b.timePerBucket := by
  rcases eq_zero_or_pos (tokensIn s length (grants e b cs)) with hz | hpos
  · rw [hz]
    exact Nat.zero_le _
  · have hf := grants_fit e s length b cs hpos
    omega

variable (config : TokenBucketConfig)

/-- The tokens that a window may grant under the configured rate. -/
def TokenBucketConfig.allowance (length : ℕ) : ℕ :=
  config.maxTokens+(length*config.tokensPerFill) ⌈/⌉ config.fillInterval

lemma le_add_ceilDiv_of_fit {m t fillInterval l g : ℕ}
    (hf : 0 < t) (hi : 0 < fillInterval) (hd : t ∣ fillInterval)
    (hfi : fillInterval / t*g ≤ l+m*fillInterval / t) : g ≤ m+(l*t) ⌈/⌉ fillInterval := by
  have hc : l*t ≤ fillInterval*((l*t) ⌈/⌉ fillInterval) := (ceilDiv_le_iff_le_mul hi).mp le_rfl
  set quotient := (l*t) ⌈/⌉ fillInterval
  obtain ⟨perToken,hp⟩ := hd
  have ht : fillInterval / t = perToken := by
    rw [hp,Nat.mul_div_cancel_left _ hf]
  have hb : m*fillInterval / t = m*perToken := by
    rw [hp,Nat.mul_left_comm,Nat.mul_div_cancel_left _ hf]
  have hpos : 0 < perToken := by
    rw [hp] at hi
    exact Nat.pos_of_mul_pos_left hi
  have hl : l ≤ perToken*quotient := by
    rw [hp,mul_comm l,mul_assoc] at hc
    exact le_of_mul_le_mul_left hc hf
  rw [ht,hb] at hfi
  refine le_of_mul_le_mul_left ?_ hpos
  calc perToken*g ≤ l+m*perToken := hfi
    _ ≤ perToken*quotient+m*perToken := Nat.add_le_add_right hl _
    _ = perToken*(m+quotient) := by ring

/-- A call for one token, as early as a bucket that was full at `created` and has
granted `n` tokens since can grant it. -/
def unitCall (created : ℤ) (perToken perBucket n : ℕ) : Call :=
  { now := created+((n+1)*perToken - perBucket : ℕ), tokens := 1 }

lemma unitCall_now_mono (cr : ℤ) (p pb : ℕ) {m n : ℕ} (hmn : m ≤ n) :
    (unitCall cr p pb m).now ≤ (unitCall cr p pb n).now := by
  have hm := Nat.mul_le_mul_right p (Nat.add_le_add_right hmn 1)
  dsimp only [unitCall]
  omega

lemma grants_unitCalls {e cr : ℤ} (b : TokenBucket) (hle : b.timePerToken ≤ b.timePerBucket)
    (he : e ≤ cr - b.timePerBucket) (n m : ℕ) (hst : max b.time
        ((unitCall cr b.timePerToken b.timePerBucket n).now - b.timePerBucket) =
      cr - b.timePerBucket+(n*b.timePerToken : ℕ)) : grants e b
        ((List.range' n m).map (unitCall cr b.timePerToken b.timePerBucket)) =
      (List.range' n m).map (unitCall cr b.timePerToken b.timePerBucket) := by
  induction m generalizing n b with
  | zero => rfl
  | succ m ih =>
    obtain ⟨time,perToken,perBucket,maxTokens⟩ := b
    dsimp only at hle he hst ih ⊢
    have hmu : (n+1)*perToken = n*perToken+perToken := Nat.succ_mul n perToken
    have hm : (n+1+1)*perToken = (n+1)*perToken+perToken := Nat.succ_mul ..
    have hno : (unitCall cr perToken perBucket n).now = cr+((n+1)*perToken - perBucket : ℕ) := rfl
    have hn : (unitCall cr perToken perBucket (n+1)).now =
      cr+((n+1+1)*perToken - perBucket : ℕ) := rfl
    have hea : e ≤ (unitCall cr perToken perBucket n).now - perBucket := by omega
    have heg : cr - perBucket+(n*perToken : ℕ)+(perToken*1 : ℕ) ≤
        (unitCall cr perToken perBucket n).now := by omega
    have hg := consume_of_enough ⟨time,perToken,perBucket,maxTokens⟩ 1 hea hst heg 0
    have hr := ih ⟨cr - perBucket+(n*perToken : ℕ)+(perToken*1 : ℕ),perToken,
      perBucket,maxTokens⟩ hle he (n+1) (by dsimp only; omega)
    change (match consume _ _ _ 1 0 with
      | (true, bucket') => _
      | (false, bucket') => _) = _
    rw [hg]
    exact congrArg _ hr

lemma tokensIn_eq_length {s : ℤ} {l : ℕ} {cs : List Call}
    (hu : ∀ c ∈ cs, s ≤ c.now ∧ c.now ≤ s+l ∧ c.tokens = 1) : tokensIn s l cs = cs.length := by
  induction cs with
  | nil => rfl
  | cons c cs ih =>
    obtain ⟨hst,he,ht⟩ := hu c mem_cons_self
    rw [tokensIn,if_pos ⟨hst,he⟩,ht,ih fun c hc => hu c (mem_cons_of_mem _ hc),length_cons,add_comm]

lemma exists_fastest (e : ℤ) (n : ℕ) : ∃ cr cs, e ≤ cr ∧ (cr::cs.map Call.now).Pairwise (· ≤ ·) ∧
      tokensIn cr (n*(config.fillInterval / config.tokensPerFill) -
          config.maxTokens*config.fillInterval / config.tokensPerFill)
        (grants e (.new e config cr) cs) = n := by
  set perToken := config.fillInterval / config.tokensPerFill with hpe
  set perBucket := config.maxTokens*config.fillInterval / config.tokensPerFill with hp
  have hle : perToken ≤ perBucket :=
    Nat.div_le_div_right (Nat.le_mul_of_pos_left _ config.one_le_maxTokens)
  let cr : ℤ := e+(2*perBucket : ℕ)
  let cs := (range' 0 n).map (unitCall cr perToken perBucket)
  have hn : new e config cr = ⟨e,perToken,perBucket,config.maxTokens⟩ := by
    rw [new,checkedSub,Int.add_sub_cancel,if_pos le_rfl,Option.getD_some]
  have hg : grants e (.new e config cr) cs = cs := by
    rw [hn]
    refine grants_unitCalls ⟨e,perToken,perBucket,config.maxTokens⟩ hle ?_ 0 n ?_
    · dsimp only [cr]
      omega
    · dsimp only [unitCall]
      omega
  refine ⟨cr,cs,?_,?_,?_⟩
  · dsimp only [cr]
    omega
  · rw [map_map]
    constructor
    · intro now hno
      obtain ⟨i,-,rfl⟩ := mem_map.mp hno
      exact Int.le_add_of_nonneg_right (Int.natCast_nonneg _)
    · rw [pairwise_map]
      exact pairwise_le_range'.imp fun hij => unitCall_now_mono cr perToken perBucket hij
  · rw [hg,tokensIn_eq_length,length_map,length_range']
    intro c hc
    obtain ⟨i,hi,rfl⟩ := mem_map.mp hc
    have hi : i+1 ≤ n := by
      obtain ⟨j,hj,rfl⟩ := mem_range'.mp hi
      omega
    have hm := Nat.mul_le_mul_right perToken hi
    dsimp only [unitCall]
    omega

lemma allowance_lt_of_not_dvd (hn : ¬ config.tokensPerFill ∣ config.fillInterval) :
    config.allowance ((config.maxTokens+1)*config.fillInterval *
        (config.fillInterval / config.tokensPerFill) -
          config.maxTokens*config.fillInterval / config.tokensPerFill) <
      (config.maxTokens+1)*config.fillInterval := by
  have hsh : config.tokensPerFill*(config.fillInterval / config.tokensPerFill)+1 ≤
      config.fillInterval :=
    lt_of_le_of_ne (Nat.mul_div_le ..) fun heq => hn ⟨_,heq.symm⟩
  rw [TokenBucketConfig.allowance]
  set perToken := config.fillInterval / config.tokensPerFill
  set length := (config.maxTokens+1)*config.fillInterval*perToken -
    config.maxTokens*config.fillInterval / config.tokensPerFill
  have hc : (length*config.tokensPerFill) ⌈/⌉ config.fillInterval ≤
      (config.maxTokens+1)*(config.fillInterval - 1) := by
    rw [ceilDiv_le_iff_le_mul config.fillInterval_pos]
    calc length*config.tokensPerFill
        ≤ (config.maxTokens+1)*config.fillInterval*perToken*config.tokensPerFill :=
          Nat.mul_le_mul_right _ (Nat.sub_le ..)
      _ = config.fillInterval*(config.maxTokens+1)*(config.tokensPerFill*perToken) := by ring
      _ ≤ config.fillInterval*(config.maxTokens+1)*(config.fillInterval - 1) :=
          Nat.mul_le_mul_left _ (by omega)
      _ = config.fillInterval*((config.maxTokens+1)*(config.fillInterval - 1)) := by ring
  have hl : (config.maxTokens+1)*config.fillInterval =
      (config.maxTokens+1)*(config.fillInterval - 1)+(config.maxTokens+1) := by
    rw [← Nat.mul_succ,Nat.succ_eq_add_one,Nat.sub_add_cancel config.fillInterval_pos]
  omega

/-- The tokens granted in any window stay within the configured rate for every
sequence of calls if and only if the fill interval divides evenly among the
tokens of a fill. -/
theorem rate_kept_iff_dvd (earliest : ℤ) :
    (∀ created cs, earliest ≤ created → (created :: cs.map Call.now).Pairwise (· ≤ ·) →
      ∀ start length, tokensIn start length (grants earliest (.new earliest config created) cs) ≤
        config.allowance length) ↔ config.tokensPerFill ∣ config.fillInterval := by
  refine ⟨fun hk => ?_,fun hd created cs _ _ start length =>
    le_add_ceilDiv_of_fit config.one_le_tokensPerFill config.fillInterval_pos hd
      (timePerToken_mul_tokensIn_le earliest start length (.new earliest config created) cs)⟩
  by_contra hn
  obtain ⟨created,cs,hc,hso,hf⟩ :=
    exists_fastest config earliest ((config.maxTokens+1)*config.fillInterval)
  refine absurd (allowance_lt_of_not_dvd config hn) (not_lt.mpr ?_)
  have hle := hk created cs hc hso created
    ((config.maxTokens+1)*config.fillInterval*(config.fillInterval / config.tokensPerFill) -
      config.maxTokens*config.fillInterval / config.tokensPerFill)
  rw [hf] at hle
  exact hle

/-- Two tokens per nanosecond: a token takes no time, and a bucket of one hundred
tokens grants one hundred and one at once. -/
theorem burst_above_capacity :
    ∃ config : TokenBucketConfig, config.maxTokens = 100 ∧
      tokensIn 0 0 (grants 0 (.new 0 config 0) [⟨0, 101, 0⟩]) = 101 ∧ config.allowance 0 = 100 := by
  refine ⟨⟨100,2000000000,1000000000,by decide,by decide,by decide⟩,rfl,by decide,?_⟩
  rw [TokenBucketConfig.allowance,zero_mul,zero_ceilDiv,add_zero]

def decisions (earliest : ℤ) : TokenBucket → List Call → List Bool
  | _, [] => []
  | bucket, c::cs =>
    let after := bucket.consume earliest c.now c.tokens c.failures
    after.1::decisions earliest after.2 cs

/-- A bucket that stores its level, in units of time, and since when it has it. -/
structure IdealBucket where
  since : ℤ
  level : ℤ

namespace IdealBucket

def levelAt (self : IdealBucket) (timePerBucket : ℕ) (now : ℤ) : ℤ :=
  min (self.level+(now - self.since)) timePerBucket

def consume (self : IdealBucket) (timePerToken timePerBucket : ℕ) (c : Call) : Bool × IdealBucket :=
  if (c.tokens*timePerToken : ℕ) ≤ self.levelAt timePerBucket c.now then
    (true, ⟨c.now,self.levelAt timePerBucket c.now - (c.tokens*timePerToken : ℕ)⟩)
  else (false, self)

def decisions (timePerToken timePerBucket : ℕ) : IdealBucket → List Call → List Bool
  | _, [] => []
  | ideal, c::cs =>
    let after := ideal.consume timePerToken timePerBucket c
    after.1::decisions timePerToken timePerBucket after.2 cs

end IdealBucket

/-- The instant stands for the level: the time since then, but no more than a full bucket. -/
def Represents (bucket : TokenBucket) (ideal : IdealBucket) : Prop :=
  ideal.level = min (ideal.since - bucket.time) bucket.timePerBucket

variable {bucket : TokenBucket} {i : IdealBucket} {earliest : ℤ} {c : Call}

lemma Represents.levelAt (h : Represents bucket i) {now : ℤ} (hn : i.since ≤ now) :
    i.levelAt bucket.timePerBucket now = min (now - bucket.time) bucket.timePerBucket := by
  unfold Represents at h
  unfold IdealBucket.levelAt
  omega

lemma Represents.consume (h : Represents bucket i) (hn : i.since ≤ c.now)
    (he : earliest ≤ c.now - bucket.timePerBucket) :
    (bucket.consume earliest c.now c.tokens c.failures).1 =
        (i.consume bucket.timePerToken bucket.timePerBucket c).1 ∧
      Represents (bucket.consume earliest c.now c.tokens c.failures).2
        (i.consume bucket.timePerToken bucket.timePerBucket c).2 := by
  have hlv := h.levelAt hn
  rw [consume_eq,checkedSub,if_pos he,Option.getD_some,newTime,
    IdealBucket.consume,mul_comm c.tokens]
  set period := bucket.timePerToken*c.tokens
  set oldest := if bucket.time < c.now - bucket.timePerBucket then c.now - bucket.timePerBucket
    else bucket.time with ho
  by_cases hl : c.now < oldest+period
  · rw [if_pos hl,if_neg (by omega)]
    exact ⟨rfl,h⟩
  · rw [if_neg hl,if_pos (by omega)]
    refine ⟨rfl,?_⟩
    simp only [Represents]
    omega

lemma IdealBucket.since_consume (t tpb : ℕ) (hn : i.since ≤ c.now) :
    i.since ≤ (i.consume t tpb c).2.since ∧ (i.consume t tpb c).2.since ≤ c.now := by
  unfold IdealBucket.consume
  split_ifs
  · exact ⟨hn,le_rfl⟩
  · exact ⟨le_rfl,hn⟩

lemma Represents.decisions (h : Represents bucket i)
    (he : earliest ≤ i.since - bucket.timePerBucket) (cs : List Call)
    (hcs : (i.since::cs.map Call.now).Pairwise (· ≤ ·)) :
    decisions earliest bucket cs = i.decisions bucket.timePerToken bucket.timePerBucket cs := by
  induction cs generalizing bucket i with
  | nil => rfl
  | cons c cs ih =>
    obtain ⟨hsi,hr⟩ := pairwise_cons.mp hcs
    have hn : i.since ≤ c.now := hsi c.now mem_cons_self
    obtain ⟨hg,ha⟩ := h.consume hn (he.trans (by omega))
    have ht : (bucket.consume earliest c.now c.tokens c.failures).2.timePerToken =
          bucket.timePerToken ∧
        (bucket.consume earliest c.now c.tokens c.failures).2.timePerBucket =
          bucket.timePerBucket := by
      rcases consume_cases bucket earliest c.now c.tokens c.failures with heq | ⟨time,heq,-⟩ <;>
        rw [heq] <;> exact ⟨rfl,rfl⟩
    obtain ⟨hl,hb⟩ := IdealBucket.since_consume bucket.timePerToken bucket.timePerBucket hn
    have hih := ih ha (by rw [ht.2]; omega) (pairwise_cons.mpr ⟨fun now hm =>
      hb.trans ((pairwise_cons.mp hr).1 now hm),(pairwise_cons.mp hr).2⟩)
    rw [ht.1,ht.2] at hih
    rw [TokenBuckets.decisions,IdealBucket.decisions,hg,hih]

/-- The decisions of a bucket as `new` leaves it, with any times, are those of an ideal bucket
that is full at first, and a call that is denied changes nothing. The clock is so far from its
least instant that no subtraction fails. -/
theorem decisions_eq_ideal (earliest created : ℤ) (bucket : TokenBucket)
    (htime : bucket.time = (checkedSub earliest created (2 * bucket.timePerBucket)).getD created)
    (hearliest : earliest ≤ created - (2 * bucket.timePerBucket : ℕ)) (cs : List Call)
    (hcs : (created :: cs.map Call.now).Pairwise (· ≤ ·)) :
    decisions earliest bucket cs = IdealBucket.decisions bucket.timePerToken bucket.timePerBucket
          ⟨created, bucket.timePerBucket⟩ cs ∧
      ∀ (b : TokenBucket) (c : Call), (b.consume earliest c.now c.tokens c.failures).1 = false →
        (b.consume earliest c.now c.tokens c.failures).2 = b := by
  refine ⟨Represents.decisions ?_ ?_ cs hcs,fun b c hd => ?_⟩
  · rw [checkedSub,if_pos hearliest,Option.getD_some] at htime
    simp only [Represents]
    omega
  · dsimp only
    omega
  · rcases consume_cases b earliest c.now c.tokens c.failures with heq | ⟨time,heq,-⟩
    · rw [heq]
    · rw [heq] at hd
      cases hd

/-- Two tokens, one every ten nanoseconds: the third call at once is denied, and ten
nanoseconds later there is a token again. -/
theorem decisions_two_tokens :
    decisions 0 ⟨60, 10, 20, 2⟩ [⟨100, 1, 0⟩, ⟨100, 1, 1⟩, ⟨100, 1, 0⟩, ⟨110, 1, 0⟩] =
        [true, true, false, true] ∧
      decisions 0 ⟨60, 10, 20, 2⟩ [⟨100, 1, 0⟩, ⟨100, 1, 1⟩, ⟨100, 1, 0⟩, ⟨110, 1, 0⟩] =
        IdealBucket.decisions 10 20 ⟨100, 20⟩
          [⟨100, 1, 0⟩, ⟨100, 1, 1⟩, ⟨100, 1, 0⟩, ⟨110, 1, 0⟩] :=
  ⟨by decide,(decisions_eq_ideal 0 100 ⟨60,10,20,2⟩ rfl (by decide) _ (by decide)).1⟩

end ArionGateway.TokenBuckets
