import ArionGateway.UserRateLimits

/-!
# Filters that share the buckets of users

A bucket is found under the name of the user, whichever filter made it. A filter
therefore spends the tokens of another one, and applies the numbers of another
one, as soon as both see the same user. Filters decide independently of each
other exactly if this makes no difference for any user: none of them ever limits
the user, or all of them refuse every request of the user.
-/
namespace ArionGateway.UserLimitSharing
open Option
open ByteStrings HttpHeaders TokenBuckets UserRateLimits List BucketSettings Event
open UserRateLimiter (takeToken)

/-- A filter that has no bucket for the user, or one whose tokens take no time. -/
def NeverLimits (self : UserRateLimiter) (user : Str) : Prop :=
  ∀ settings, self.settings user = some settings → settings.fillInterval < settings.tokensPerFill

/-- A filter whose bucket for the user holds no token. -/
def AlwaysLimits (self : UserRateLimiter) (user : Str) : Prop :=
  ∃ settings, self.settings user = some settings ∧ settings.maxTokens = 0 ∧
    settings.tokensPerFill ≤ settings.fillInterval

section
variable {ι : Type*} [DecidableEq ι] (earliest : ℤ) (filters : ι → UserRateLimiter)

def decision (events : List (Event ι)) (i : ι) (r : Request) : FilterDecision :=
  (applyRequest (filters i) earliest (after earliest filters events) r).1

/-- The requests of a user through a filter, and the runs of the cleaner. -/
def own (i : ι) (user : Str) : Event ι → Bool
  | .request j r => j = i && (filters j).user r.headers = some user
  | .clean _ => true

/-- The decision on a request depends on the requests of its user through its
filter only. -/
def Independent : Prop :=
  ∀ (events : List (Event ι)) (i : ι) (r : Request), Ordered (events++[.request i r]) →
    ∀ user, (filters i).user r.headers = some user → decision earliest filters events i r =
        decision earliest filters (events.filter (own filters i user)) i r

/-- Two filters that read a header agree to admit all requests of a user, or to
refuse all of them. -/
def Alike : Prop :=
  ∀ user, IsUserId user → ∀ i j, i ≠ j →
    (filters i).userIdHeader ≠ none → (filters j).userIdHeader ≠ none →
      NeverLimits (filters i) user ∧ NeverLimits (filters j) user ∨
        AlwaysLimits (filters i) user ∧ AlwaysLimits (filters j) user

end

section
variable {s : UserRateLimiter} {user : Str} {se : BucketSettings}

lemma timePerToken_eq_zero_iff : se.timePerToken = 0 ↔ se.fillInterval < se.tokensPerFill := by
  rw [timePerToken,Nat.div_eq_zero_iff]
  have hf := se.one_le_tokensPerFill
  omega

lemma timePerToken_le_timePerBucket (hm : 1 ≤ se.maxTokens) : se.timePerToken ≤ se.timePerBucket :=
  Nat.div_le_div_right (Nat.le_mul_of_pos_left _ hm)

lemma timePerBucket_lt_timePerToken (hm : se.maxTokens = 0)
    (hr : se.tokensPerFill ≤ se.fillInterval) : se.timePerBucket < se.timePerToken := by
  rw [timePerBucket,hm,Nat.zero_mul,Nat.zero_div]
  exact Nat.div_pos hr se.one_le_tokensPerFill

lemma not_alwaysLimits_of_neverLimits (hn : NeverLimits s user) : ¬ AlwaysLimits s user := by
  rintro ⟨se,hse,-,hr⟩
  exact Nat.not_lt_of_le hr (hn se hse)

lemma limits_of_not (hn : ¬ NeverLimits s user) (ha : ¬ AlwaysLimits s user) :
    ∃ se, s.settings user = some se ∧ 1 ≤ se.maxTokens ∧ 0 < se.timePerToken := by
  simp only [NeverLimits,not_forall,not_lt] at hn
  obtain ⟨se,hse,hr⟩ := hn
  refine ⟨se,hse,?_,Nat.div_pos hr se.one_le_tokensPerFill⟩
  by_contra hm
  exact ha ⟨se,hse,by omega,hr⟩

variable {self : UserRateLimiter} {st : BucketSettings} {tb : TokenBucket} {e : ℤ} {r : Request}

lemma takeToken_denied (hsp : r.now < max tb.time (r.now - tb.timePerBucket)+tb.timePerToken) :
    (self.takeToken e user r (some tb)).1 = false := by
  dsimp only [takeToken,Option.or]
  rcases consume_cases tb e r.now 1 r.failures with hd | ⟨t,hg,ho,hf,hn⟩
  · rw [hd]
  · rw [mul_one] at ho hf
    omega

lemma takeToken_free (ht : tb.timePerToken = 0) (hti : tb.time ≤ r.now) :
    (self.takeToken e user r (some tb)).1 = true := by
  dsimp only [takeToken,Option.or]
  rw [consume_eq,TokenBucket.newTime,checkedSub,if_neg]
  split_ifs <;> simp <;> omega

lemma takeToken_none (hse : self.settings user = some st) :
    self.takeToken e user r none = self.takeToken e user r (some (st.newBucket e r.created)) := by
  simp only [takeToken,hse]
  rfl

variable (st e) in
lemma newBucket_time_le (created : ℤ) : (st.newBucket e created).time ≤ created := by
  rw [newBucket,checkedSub]
  split_ifs
  · dsimp only [getD_some]
    omega
  · exact le_rfl

lemma takeToken_of_too_small (hsm : tb.timePerBucket < tb.timePerToken) :
    (self.takeToken e user r (some tb)).1 = false := takeToken_denied (by omega)

lemma takeToken_none_of_alwaysLimits (ha : AlwaysLimits self user) :
    (self.takeToken e user r none).1 = false := by
  obtain ⟨st,hse,hm,hr⟩ := ha
  rw [takeToken_none hse]
  exact takeToken_of_too_small (timePerBucket_lt_timePerToken hm hr)

def fillTime (self : UserRateLimiter) (user : Str) : ℕ :=
  ((self.settings user).map BucketSettings.timePerBucket).getD 0

lemma takeToken_none_of_not_alwaysLimits (ha : ¬ AlwaysLimits self user) (n : Str)
    {now : ℤ} (he : e ≤ now - (2*fillTime self user : ℕ)) :
    (self.takeToken e user (requestOf n user now) none).1 = true := by
  cases hse : self.settings user with
  | none => simp [takeToken,hse]
  | some st =>
    have hf : fillTime self user = st.timePerBucket := by simp [fillTime,hse]
    have hle : st.timePerToken ≤ st.timePerBucket := by
      by_cases hm : 1 ≤ st.maxTokens
      · exact timePerToken_le_timePerBucket hm
      · have hfr : st.timePerToken = 0 := by
          rw [timePerToken_eq_zero_iff]
          by_contra hr
          exact ha ⟨st,hse,by omega,by omega⟩
        omega
    rw [hf] at he
    obtain ⟨tb,ht,-⟩ := takeToken_of_enough n hse madeWith_none he (countedFrom_none now) (by omega)
    rw [ht]

end

section
variable {ι : Type*} {ea : ℤ} {filters : ι → UserRateLimiter} {i j : ι}
  {u na n' : Str} {stt : BucketSettings}

lemma decision_eq (e : List (Event ι)) {r : Request} (hu : (filters i).user r.headers = some u) :
    decision ea filters e i r = if ((filters i).takeToken ea u r (after ea filters e u)).1 then
        .continue
      else .rateLimited "Rate limited" (filters i).status :=
  applyRequest_fst ea (filters i) _ hu

lemma ordered_append_request {ev : List (Event ι)} (now now' : ℤ)
    (hev : ∀ e ∈ ev, ∀ t ∈ e.instants, t = now) (hle : now ≤ now') :
    Ordered (ev++[.request i (requestOf na u now')]) := by
  have hi : ∀ t ∈ ev.flatMap instants, t = now := by
    intro t ht
    obtain ⟨e,he,ht⟩ := mem_flatMap.mp ht
    exact hev e he t ht
  rw [Ordered,flatMap_append,pairwise_append]
  refine ⟨?_,by simp [instants,requestOf],fun t ht t' ht' => ?_⟩
  · refine pairwise_of_forall_mem_list fun t ht t' ht' => ?_
    rw [hi t ht,hi t' ht']
  · have hl : t' = now' := by simpa [instants,requestOf] using ht'
    rw [hi t ht,hl]
    exact hle

lemma after_first (e now : ℤ) (huser : IsUserId u) (hname : (filters j).userIdHeader = some na)
    (hse : (filters j).settings u = some stt) :
    ∃ tb, after e filters [.request j (requestOf na u now)] u = some tb ∧
      MadeWith stt (some tb) := by
  have he := entrywise_step e filters (fun _ => none) (.request j (requestOf na u now)) u
  rw [stepEntry,if_pos (user_requestOf hname huser now)] at he
  have hm := (takeToken_spec e (r := requestOf na u now) hse madeWith_none le_rfl).1
  rw [takeToken_none hse] at he hm
  exact ⟨_,he,hm⟩

variable [DecidableEq ι]

lemma not_independent_of_differs (hij : i ≠ j) (ev : List (Event ι)) {r : Request}
    (hev : ∀ e ∈ ev, ∃ r', e = .request j r') (ho : Ordered (ev++[.request i r]))
    (hu : (filters i).user r.headers = some u)
    (hd : ((filters i).takeToken ea u r (after ea filters ev u)).1 ≠
      ((filters i).takeToken ea u r none).1) : ¬ Independent ea filters := by
  intro h
  have hn : ev.filter (own filters i u) = [] := by
    refine filter_eq_nil_iff.mpr fun e he => ?_
    obtain ⟨r',rfl⟩ := hev e he
    simp [own,hij.symm]
  have hsa := h ev i r ho u hu
  rw [hn,decision_eq ev hu,decision_eq [] hu] at hsa
  change _ = if ((filters i).takeToken ea u r none).1 then _ else _ at hsa
  cases hsh : ((filters i).takeToken ea u r (after ea filters ev u)).1 <;>
    cases ha : ((filters i).takeToken ea u r none).1 <;> simp [hsh,ha] at hsa hd

variable (hij : i ≠ j) (hu : IsUserId u) (hna : (filters i).userIdHeader = some na)
    (h' : (filters j).userIdHeader = some n')
include hij hu hna h'

lemma not_independent_of_spent (hse : (filters j).settings u = some stt)
    (hma : 1 ≤ stt.maxTokens) (hpos : 0 < stt.timePerToken) (ha : ¬ AlwaysLimits (filters i) u) :
    ¬ Independent ea filters := by
  let now : ℤ := ea+(2*fillTime (filters i) u : ℕ)+(2*stt.timePerBucket : ℕ)
  let n := stt.timePerBucket / stt.timePerToken
  have hle := timePerToken_le_timePerBucket hma
  have hn : n*stt.timePerToken ≤ stt.timePerBucket := Nat.div_mul_le_self ..
  have hn' : stt.timePerBucket < n*stt.timePerToken+stt.timePerToken := by
    rw [Nat.mul_comm]
    exact Nat.lt_mul_div_succ _ hpos
  let events : List (Event ι) := replicate n (.request j (requestOf n' u now))
  obtain ⟨-,hm,hc⟩ := admitted_replicate ea filters j h' hu hse now
    (by dsimp only [now]; omega) n 0 (fun _ => none) madeWith_none
    (by rw [countedFrom_none,Nat.zero_mul,Nat.cast_zero,Int.add_zero])
    (by rw [zero_add]; exact hn)
  change MadeWith stt (after ea filters events u) at hm
  change countedFrom stt now (after ea filters events u) = _ at hc
  refine not_independent_of_differs hij events (fun e he => ⟨_,eq_of_mem_replicate he⟩)
    (ordered_append_request now now (fun e he t ht => ?_) le_rfl) (user_requestOf hna hu now) ?_
  · obtain rfl := eq_of_mem_replicate he
    simpa [instants,requestOf] using ht
  · rw [takeToken_none_of_not_alwaysLimits ha na (by dsimp only [now]; omega)]
    rw [zero_add] at hc
    cases het : after ea filters events u with
    | none =>
      rw [het,countedFrom_none] at hc
      omega
    | some tb =>
      rw [het] at hm hc
      have hd : ((filters i).takeToken ea u (requestOf na u now) (some tb)).1 = false := by
        obtain ⟨hto,hb⟩ := hm tb rfl
        refine takeToken_denied ?_
        rw [hto,hb]
        change now < countedFrom stt now (some tb)+stt.timePerToken
        omega
      simp [hd]

lemma not_independent_of_empty (ha : AlwaysLimits (filters j) u)
    (hi : ¬ AlwaysLimits (filters i) u) : ¬ Independent ea filters := by
  obtain ⟨stt,hse,hma,hr⟩ := ha
  let now : ℤ := ea+(2*fillTime (filters i) u : ℕ)
  obtain ⟨tb,he,hm⟩ := after_first ea now hu h' hse
  refine not_independent_of_differs hij [.request j (requestOf n' u now)] (by simp)
    (ordered_append_request now now (by simp [instants,requestOf]) le_rfl)
    (user_requestOf hna hu _) ?_
  obtain ⟨ht,hb⟩ := hm tb rfl
  have hsm : tb.timePerBucket < tb.timePerToken := by
    rw [ht,hb]
    exact timePerBucket_lt_timePerToken hma hr
  rw [takeToken_none_of_not_alwaysLimits hi na (by dsimp only [now]; omega),he,
    takeToken_of_too_small hsm]
  simp

end

section
variable {ι : Type*} {er : ℤ} {filters : ι → UserRateLimiter} {i : ι} {user : Str}
  {r : Request} {ev : List (Event ι)} {sl : UserRateLimiter}

lemma isUserId_of_user {headers : HeaderMap} (hu : sl.user headers = some user) :
    IsUserId user ∧ sl.userIdHeader ≠ none := by
  unfold UserRateLimiter.user at hu
  simp only [bind_eq_bind,bind_eq_some_iff,ite_none_right_eq_some] at hu
  obtain ⟨n,hname,value,-,text,ht,hb,hsa⟩ := hu
  cases hsa
  obtain ⟨rfl,hv⟩ := toStr_eq_some_iff.mp ht
  exact ⟨⟨hv,hb⟩,by simp [hname]⟩

/-- What a filter leaves is a bucket that was there or that it has made, with its
instant where it was or moved. -/
lemma takeToken_preserves {P : TokenBucket → Prop} {b : Option TokenBucket}
    (hf : ∀ tb, b = some tb → P tb)
    (hn : ∀ s, sl.settings user = some s → P (s.newBucket er r.created))
    (hm : ∀ tb time, P tb → time ≤ r.now → P { tb with time }) {tb : TokenBucket}
    (htb : (sl.takeToken er user r b).2 = some tb) : P tb := by
  rw [takeToken] at htb
  cases hor : b.or ((sl.settings user).map fun s => s.newBucket er r.created) with
  | none => simp [hor] at htb
  | some used =>
    have hu : P used := by
      rcases or_eq_some_iff.mp hor with hso | ⟨-,hma⟩
      · exact hf used hso
      · obtain ⟨s,hs,rfl⟩ := map_eq_some_iff.mp hma
        exact hn s hs
    rcases consume_cases used er r.now 1 r.failures with hd | ⟨time,hg,-,-,hno⟩
    · simp only [hor,hd,some.injEq] at htb
      exact htb ▸ hu
    · simp only [hor,hg,some.injEq] at htb
      exact htb ▸ hm used time hu hno

variable (er filters user) in
/-- What holds of all buckets that the filters make for a user, and of a bucket
whose instant is moved, holds of the bucket of the user after any events. -/
lemma after_preserves (P : TokenBucket → Prop) (ev : List (Event ι))
    (hn : ∀ j r, .request j r ∈ ev → (filters j).userIdHeader ≠ none →
      ∀ s, (filters j).settings user = some s → P (s.newBucket er r.created))
    (hm : ∀ j r, .request j r ∈ ev → ∀ tb time, P tb → time ≤ r.now → P { tb with time }) :
    ∀ tb, after er filters ev user = some tb → P tb := by
  refine (entrywise_step er filters).invariant
    (fun b : Option TokenBucket => ∀ tb, b = some tb → P tb) ?_ nofun
  intro e he b hb tb htb
  cases e with
  | clean now => exact hb tb (filter_eq_some_iff.mp htb).1
  | request j r =>
    rw [stepEntry] at htb
    split_ifs at htb with hu
    · exact takeToken_preserves hb (hn j r he (isUserId_of_user hu).2) (hm j r he) htb
    · exact hb tb htb

lemma Ordered.le_last (ho : Ordered (ev++[.request i r])) {e : Event ι}
    (he : e ∈ ev) {t : ℤ} (ht : t ∈ e.instants) : t ≤ r.created := by
  rw [Ordered,flatMap_append,pairwise_append] at ho
  exact ho.2.2 t (mem_flatMap.mpr ⟨e,he,ht⟩) r.created (by simp [instants])

lemma admits_of_neverLimits (ho : Ordered (ev++[.request i r]))
    (hn : ∀ j, (filters j).userIdHeader ≠ none → NeverLimits (filters j) user)
    (hu : (filters i).user r.headers = some user) {k : List (Event ι)} (hk : k ⊆ ev) :
    decision er filters k i r = .continue := by
  have hc : r.created ≤ r.now := by
    rw [Ordered,flatMap_append,pairwise_append] at ho
    exact (pairwise_cons.mp ho.2.1).1 r.now (by simp)
  let Free : TokenBucket → Prop := fun tb => tb.timePerToken = 0 ∧ tb.time ≤ r.now
  have hnw : ∀ j, (filters j).userIdHeader ≠ none → ∀ s, (filters j).settings user = some s →
      ∀ c ≤ r.now, Free (s.newBucket er c) := by
    intro j hj s hs c hle
    exact ⟨timePerToken_eq_zero_iff.mpr (hn j hj s hs),(newBucket_time_le s er c).trans hle⟩
  have hfr := after_preserves er filters user Free k
    (fun j r' hr' hj s hs => hnw j hj s hs r'.created
      ((Ordered.le_last ho (hk hr') (by simp [instants])).trans hc))
    (fun j r' hr' tb t htb hle => ⟨htb.1,hle.trans
      ((Ordered.le_last ho (hk hr') (by simp [instants])).trans hc)⟩)
  rw [decision_eq k hu,if_pos]
  cases he : after er filters k user with
  | some tb => exact takeToken_free (hfr tb he).1 (hfr tb he).2
  | none =>
    cases hs : (filters i).settings user with
    | none => simp [takeToken,hs]
    | some s =>
      rw [takeToken_none hs]
      have hf := hnw i (isUserId_of_user hu).2 s hs r.created hc
      exact takeToken_free hf.1 hf.2

lemma refuses_of_alwaysLimits
    (ha : ∀ j, (filters j).userIdHeader ≠ none → AlwaysLimits (filters j) user)
    (hu : (filters i).user r.headers = some user) (e : List (Event ι)) :
    decision er filters e i r = .rateLimited "Rate limited" (filters i).status := by
  let Small : TokenBucket → Prop := fun tb => tb.timePerBucket < tb.timePerToken
  have hsm := after_preserves er filters user Small e (fun j r' _ hj s hs => by
      obtain ⟨s',hs',hm,hr⟩ := ha j hj
      rw [hs,some.injEq] at hs'
      subst hs'
      exact timePerBucket_lt_timePerToken hm hr)
    (fun j r' _ tb t htb _ => htb)
  have hi := ha i (isUserId_of_user hu).2
  rw [decision_eq e hu]
  cases he : after er filters e user with
  | none => simp [takeToken_none_of_alwaysLimits hi]
  | some tb => simp [takeToken_of_too_small (hsm tb he)]

variable [DecidableEq ι]

lemma decision_of_alone (ha : ∀ j, j ≠ i → (filters j).userIdHeader = none)
    (hu : (filters i).user r.headers = some user) (ev : List (Event ι)) :
    decision er filters ev i r = decision er filters (ev.filter (own filters i user)) i r := by
  have hsa : after er filters ev user = after er filters (ev.filter (own filters i user)) user := by
    refine (entrywise_step er filters).foldl_filter _ fun e _ hf b => ?_
    cases e with
    | clean now => cases hf
    | request j r' =>
      have ho : (filters j).user r'.headers ≠ some user := by
        intro hu'
        have hji : j ≠ i := by
          rintro rfl
          simp [own,hu'] at hf
        exact (isUserId_of_user hu').2 (ha j hji)
      rw [stepEntry,if_neg ho]
  rw [decision_eq ev hu,decision_eq _ hu,hsa]

lemma independent_of_alike (h : Alike filters) : Independent er filters := by
  intro ev i r ho user hu
  obtain ⟨huser,hi⟩ := isUserId_of_user hu
  by_cases ha : ∀ j, j ≠ i → (filters j).userIdHeader = none
  · exact decision_of_alone ha hu ev
  · -- another filter meets this one, so all filters are of one kind for the user
    push Not at ha
    obtain ⟨j,hji,hj⟩ := ha
    rcases h user huser i j hji.symm hi hj with ⟨hn,-⟩ | ⟨hal,-⟩
    · have hall : ∀ k, (filters k).userIdHeader ≠ none → NeverLimits (filters k) user := by
        intro k hk
        by_cases hki : k = i
        · exact hki ▸ hn
        · rcases h user huser i k (Ne.symm hki) hi hk with ⟨-,hk'⟩ | ⟨hl,-⟩
          · exact hk'
          · exact absurd hl (not_alwaysLimits_of_neverLimits hn)
      rw [admits_of_neverLimits ho hall hu (List.Subset.refl ev),
        admits_of_neverLimits ho hall hu (filter_subset_self ev)]
    · have hall : ∀ k, (filters k).userIdHeader ≠ none → AlwaysLimits (filters k) user := by
        intro k hk
        by_cases hki : k = i
        · exact hki ▸ hal
        · rcases h user huser i k (Ne.symm hki) hi hk with ⟨hn,-⟩ | ⟨-,hk'⟩
          · exact absurd hal (not_alwaysLimits_of_neverLimits hn)
          · exact hk'
      rw [refuses_of_alwaysLimits hall hu,refuses_of_alwaysLimits hall hu]

end

/-- User rate limiters decide independently of each other if and only if any two
of them agree, for every user, to admit all requests or to refuse all. -/
theorem independent_iff_alike {ι : Type*} [DecidableEq ι] (earliest : ℤ)
    (filters : ι → UserRateLimiter) : Independent earliest filters ↔ Alike filters := by
  refine ⟨fun hin user huser i j hij hi hj => ?_,independent_of_alike⟩
  obtain ⟨n,hname⟩ := ne_none_iff_exists'.mp hi
  obtain ⟨na',hname'⟩ := ne_none_iff_exists'.mp hj
  by_cases hai : AlwaysLimits (filters i) user
  · by_cases haj : AlwaysLimits (filters j) user
    · exact .inr ⟨hai,haj⟩
    · exact absurd hin (not_independent_of_empty hij.symm huser hname' hname hai haj)
  · by_cases haj : AlwaysLimits (filters j) user
    · exact absurd hin (not_independent_of_empty hij huser hname hname' haj hai)
    · by_cases hni : NeverLimits (filters i) user
      · by_cases hnj : NeverLimits (filters j) user
        · exact .inl ⟨hni,hnj⟩
        · obtain ⟨settings,hse,hm,hpos⟩ := limits_of_not hnj haj
          exact absurd hin (not_independent_of_spent hij huser hname hname' hse hm hpos hai)
      · obtain ⟨settings,hse,hm,hpos⟩ := limits_of_not hni hai
        exact absurd hin (not_independent_of_spent hij.symm huser hname' hname hse hm hpos haj)

def oneTokenIn (fillInterval : ℕ) : UserRateLimiter :=
  { status := 429
    userIdHeader := some (str "x-user-id")
    userRateLimits := fun user =>
      if user = none then some (.localRateLimit (some ⟨1,1,fillInterval,Nat.one_pos⟩)) else none }

/-- A listener gives a token in an hour and another one a token in a second. A
minute after the token of the first was taken, the first request of the user
through the second is refused. -/
theorem refused_by_bucket_of_other_listener :
    let filters : Bool → UserRateLimiter := fun hourly =>
      oneTokenIn (if hourly then 3600*10^9 else 10^9)
    let r : Request := requestOf (str "x-user-id") (str "alice") (10000*10^9)
    let later : Request := requestOf (str "x-user-id") (str "alice") (10060*10^9)
    Ordered [.request true r,.request false later] ∧
    decision 0 filters [.request true r] false later = .rateLimited "Rate limited" 429 ∧
    decision 0 filters ([Event.request true r].filter (own filters false (str "alice"))) false
      later = .continue := by
  refine ⟨?_,?_,?_⟩
  · unfold Ordered
    decide
  · decide
  · decide

end ArionGateway.UserLimitSharing
