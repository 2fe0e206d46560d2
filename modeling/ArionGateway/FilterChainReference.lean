import ArionGateway.FilterChainTree

/-!
# The linear reference for filter chain selection

`reference_select` keeps one flag and one score per entry and makes five passes over all of them.
A pass scores the entries that are still possible and clears the flag of every entry whose score
is not the best one. Since the scores are positions of probes, this is the restriction made by the
corresponding level of the compiled tree, and the two selections agree. The one limit is the
server name score, a 32-bit count of dots with 0 in place of larger counts.
-/
namespace ArionGateway.FilterChainReference
open ByteStrings IpNetworks RankedProbes FilterChainRules FilterChainTree MatchLeaf
open MatchResult (noRule scale)
open List
open Prod (snd fst)

variable {N : IpnetCrate} {T : Type}

/-- The scratchpad and `best_match` during the first loop of a pass. -/
structure Scan where
  scratchpad : List MatchResult
  bestMatch : MatchResult

/-- One iteration of the scoring loop. -/
def Scan.score (function : FilterChainMatch N → MatchResult) (possibleFilters : List Bool)
    (scan : Scan) (item : FilterChainMatch N × ℕ) : Scan :=
  if possibleFilters[item.2]?.getD false then
    let matchResult := function item.1
    { scratchpad := scan.scratchpad.set item.2 matchResult
      bestMatch := if matchResult.cmp scan.bestMatch = .gt then matchResult else scan.bestMatch }
  else scan

def clear (bestMatch : MatchResult) (possibleFilters : List Bool) (item : MatchResult × ℕ) :
    List Bool :=
  if item.1 ≠ bestMatch ∨ item.1 = .failedMatch then possibleFilters.set item.2 false
  else possibleFilters

def matchSubitem {C : Type} (function : FilterChainMatch N → C → MatchResult) (comparand : C)
    (rules : List (FilterChainMatch N)) (state : List MatchResult × List Bool) :
    List MatchResult × List Bool :=
  let scan := rules.zipIdx.foldl (Scan.score (function · comparand) state.2)
    ⟨state.1,.failedMatch⟩
  (scan.scratchpad, scan.scratchpad.zipIdx.foldl (clear scan.bestMatch) state.2)

def masked {A : Type} (flags : List Bool) (xs : List A) : List A :=
  (flags.zip xs).filterMap fun (keep, x) => if keep then some x else none

def referenceSelect (entries : List (FilterChainMatch N × T))
    (connectionMetadata : DownstreamConnectionMetadata) (serverName : Option Str) :
    Except String (Option T) :=
  let sourceAddr := connectionMetadata.peerAddress
  let destinationAddr := connectionMetadata.localAddress
  let rules := entries.map Prod.fst
  let state := (replicate entries.length .noRule, replicate entries.length true)
  let state := matchSubitem matchesDestinationPort destinationAddr.port rules state
  let state := matchSubitem matchesDestinationIp destinationAddr.ip rules state
  let state := matchSubitem matchesServerName (serverName.getD []) rules state
  let state := matchSubitem matchesSourceIp sourceAddr.ip rules state
  let state := matchSubitem matchesSourcePort sourceAddr.port rules state
  let finalCandidates := masked state.2 (entries.map Prod.snd)
  let firstMatch := finalCandidates.head?
  if finalCandidates.tail.head?.isSome then .error multipleFilterchains else .ok firstMatch

variable {A B : Type}

@[simp] lemma masked_cons (b : Bool) (f : List Bool) (x : A) (xs : List A) :
    masked (b::f) (x::xs) = if b then x::masked f xs else masked f xs := by
  cases b <;> rfl

lemma masked_map (fl : List Bool) (f : A → B) (xs : List A) :
    masked fl (xs.map f) = (masked fl xs).map f := by
  induction fl generalizing xs with
  | nil => rfl
  | cons b fl ih =>
    cases xs with
    | nil => rfl
    | cons x xs =>
      rw [map_cons,masked_cons,masked_cons,ih]
      cases b <;> rfl

lemma masked_replicate_true (xs : List A) : masked (replicate xs.length true) xs = xs := by
  induction xs with
  | nil => rfl
  | cons x xs ih =>
    rw [length_cons,replicate_succ,masked_cons,ih]
    rfl

lemma masked_zipWith (q : A → Bool) (f : List Bool) (xs : List A) :
    masked (List.zipWith (fun b x => b && q x) f xs) xs = (masked f xs).filter q := by
  induction f generalizing xs with
  | nil => rfl
  | cons b f ih =>
    cases xs with
    | nil => rfl
    | cons x xs =>
      rw [zipWith_cons_cons,masked_cons,masked_cons,ih]
      cases b <;> cases hq : q x <;> simp [hq]

open Scan

section
variable (f : FilterChainMatch N → MatchResult) (fl : List Bool) (i : List (FilterChainMatch N × ℕ))

lemma bestMatch_le_iff (s : Scan) (r : MatchResult) :
    (i.foldl (score f fl) s).bestMatch ≤ r ↔ s.bestMatch ≤ r ∧
        ∀ it ∈ i, fl[it.2]?.getD false = true → f it.1 ≤ r := by
  induction i generalizing s with
  | nil => simp
  | cons it i ih =>
    rw [foldl_cons,ih,forall_mem_cons,← and_assoc]
    refine and_congr_left fun _ => ?_
    unfold score
    split_ifs with hf
    · simp only [hf,forall_const,MatchResult.cmp_eq_gt_iff]
      split_ifs with hlt
      · exact ⟨fun h => ⟨(hlt.trans_le h).le,h⟩,fun h => h.2⟩
      · exact ⟨fun h => ⟨h,(not_lt.mp hlt).trans h⟩,fun h => h.1⟩
    · simp [hf]

variable {f} {fl}

lemma score_length (s : Scan) :
    (i.foldl (score f fl) s).scratchpad.length = s.scratchpad.length := by
  refine KeyedGroups.foldl_frame (·.scratchpad.length) (fun s it => ?_) i s
  unfold score
  split_ifs <;> simp

lemma clear_length (b : MatchResult) (i : List (MatchResult × ℕ)) :
    (i.foldl (clear b) fl).length = fl.length := by
  refine KeyedGroups.foldl_frame length (fun fl it => ?_) i fl
  unfold clear
  split_ifs <;> simp

variable {r : List (FilterChainMatch N)}

lemma scratchpad_getElem? {s : Scan} {i : ℕ}
    {m : FilterChainMatch N} (hs : r.length ≤ s.scratchpad.length) (hm : r[i]? = some m)
    (hf : fl[i]?.getD false = true) :
    (r.zipIdx.foldl (score f fl) s).scratchpad[i]? = some (f m) := by
  induction r using reverseRecOn with
  | nil => cases hm
  | append_singleton r n ih =>
    rw [length_append,length_singleton] at hs
    rw [zipIdx_append,foldl_append,zero_add,zipIdx_singleton,foldl_cons,foldl_nil,score]
    by_cases hi : i = r.length
    · subst hi
      obtain rfl : n = m := by simpa using hm
      rw [if_pos hf]
      exact getElem?_set_self (by rw [score_length]; omega)
    · have hlt : i < r.length := by
        have hl := (List.getElem?_eq_some_iff.mp hm).1
        rw [length_append,length_singleton] at hl
        omega
      rw [getElem?_append_left hlt] at hm
      split_ifs
      · exact (getElem?_set_ne (Ne.symm hi)).trans (ih (by omega) hm)
      · exact ih (by omega) hm

lemma clear_getElem? (be : MatchResult) (it : List (MatchResult × ℕ)) (i : ℕ) :
    (it.foldl (clear be) fl)[i]? = fl[i]?.map fun b => b && !it.any fun im =>
        decide (im.2 = i ∧ (im.1 ≠ be ∨ im.1 = .failedMatch)) := by
  induction it generalizing fl with
  | nil => simp
  | cons im it ih =>
    rw [foldl_cons,ih,any_cons]
    unfold clear
    by_cases hb : im.1 ≠ be ∨ im.1 = .failedMatch
    · rw [if_pos hb,getElem?_set]
      by_cases hi : im.2 = i
      · subst hi
        by_cases hlt : im.2 < fl.length <;> simp [hlt,hb]
      · simp [hi]
    · rw [if_neg hb]
      simp [hb]

lemma enumerate_getElem? (r : List (FilterChainMatch N)) (i : ℕ) :
    (enumerate r)[i]? = r[i]?.map fun m => (i, m) := by
  simp [enumerate,Function.comp_def]

lemma mem_masked_enumerate {c : Candidate N} :
    c ∈ masked fl (enumerate r) ↔ (c.2, c.1) ∈ r.zipIdx ∧ fl[c.1]?.getD false = true := by
  rw [masked,mem_filterMap,mem_zipIdx_iff_getElem?]
  constructor
  · rintro ⟨⟨b,d⟩,hme,hd⟩
    obtain ⟨i,hi⟩ := mem_iff_getElem?.mp hme
    rw [getElem?_zip_eq_some,enumerate_getElem?,Option.map_eq_some_iff] at hi
    obtain ⟨hb,m,hm,rfl⟩ := hi
    cases b with
    | false => simp at hd
    | true =>
      simp only [if_true,Option.some.injEq] at hd
      subst hd
      exact ⟨hm,by simp [hb]⟩
  · rintro ⟨hm,hf⟩
    have hb : fl[c.1]? = some true := by
      cases hb : fl[c.1]? with
      | none => simp [hb] at hf
      | some b => simpa [hb] using hf
    refine ⟨(true, c),mem_iff_getElem?.mpr ⟨c.1,?_⟩,rfl⟩
    rw [getElem?_zip_eq_some,enumerate_getElem?,hm]
    exact ⟨hb,rfl⟩

variable {C : Type} (p : FilterChainMatch N → C → MatchResult) (comparand : C)
  {ru : List (FilterChainMatch N)} {s : List MatchResult}

lemma matchSubitem_length (hs : s.length = ru.length) (hf : fl.length = ru.length) :
    (matchSubitem p comparand ru (s, fl)).1.length = ru.length ∧
      (matchSubitem p comparand ru (s, fl)).2.length = ru.length :=
  ⟨(score_length ..).trans hs,(clear_length ..).trans hf⟩

variable {p} {comparand}

variable (hs : s.length = ru.length) (hf : fl.length = ru.length)
include hs hf

lemma matchSubitem_flags : (matchSubitem p comparand ru (s, fl)).2 = List.zipWith
        (fun b (c : Candidate N) => b &&
          decide (p c.2 comparand = (ru.zipIdx.foldl (score (p · comparand) fl)
                ⟨s,.failedMatch⟩).bestMatch ∧ p c.2 comparand ≠ .failedMatch))
        fl (enumerate ru) := by
  apply ext_getElem?
  intro i
  rw [matchSubitem,clear_getElem?,getElem?_zipWith,enumerate_getElem?]
  by_cases hi : i < ru.length
  · rw [getElem?_eq_getElem hi,getElem?_eq_getElem (hf ▸ hi)]
    simp only [Option.map_some,Option.some.injEq]
    cases hb : fl[i] with
    | false => rfl
    | true =>
      have hsc : ((ru.zipIdx.foldl (score (p · comparand) fl)
          ⟨s,.failedMatch⟩).scratchpad)[i]? = some (p ru[i] comparand) := by
        refine scratchpad_getElem? hs.ge (getElem?_eq_getElem hi) ?_
        rw [getElem?_eq_getElem (hf ▸ hi),hb]
        rfl
      rw [Bool.true_and,Bool.true_and,Bool.eq_iff_iff,Bool.not_eq_true',
        any_eq_false,decide_eq_true_eq]
      constructor
      · intro ha
        have := ha (p ru[i] comparand, i) (mem_zipIdx_iff_getElem?.mpr hsc)
        simpa [not_or] using this
      · rintro ⟨hbe,hne⟩ ⟨r,j⟩ hm hba
        obtain ⟨hj,hba⟩ := of_decide_eq_true hba
        rw [mem_zipIdx_iff_getElem?,hj,hsc,Option.some.injEq] at hm
        have hr : r = p ru[i] comparand := hm.symm
        rw [hr] at hba
        exact hba.elim (fun h => h hbe) hne
  · have hn : fl[i]? = none := getElem?_eq_none (hf ▸ not_lt.mp hi)
    simp [hn]

lemma matchSubitem_masked : masked (matchSubitem p comparand ru (s, fl)).2 (enumerate ru) =
      keepBest .failedMatch (fun c => p c.2 comparand) (masked fl (enumerate ru)) := by
  rw [matchSubitem_flags hs hf,masked_zipWith,keepBest]
  apply filter_congr
  intro c hc
  rw [Bool.eq_iff_iff,Bool.and_eq_true,decide_eq_true_eq,decide_eq_true_eq,and_comm,all_eq_true]
  refine and_congr_right fun _ => ?_
  have hle := bestMatch_le_iff (p · comparand) fl ru.zipIdx ⟨s,.failedMatch⟩
  obtain ⟨hm,hfl⟩ := mem_masked_enumerate.mp hc
  have hup := ((hle _).mp le_rfl).2 _ hm hfl
  constructor
  · intro hb d hd
    obtain ⟨hdm,hdf⟩ := mem_masked_enumerate.mp hd
    rw [hb]
    exact decide_eq_true (((hle _).mp le_rfl).2 _ hdm hdf)
  · intro ha
    refine le_antisymm hup ((hle _).mpr ⟨MatchResult.failedMatch_le _,?_⟩)
    intro it hite hi
    exact of_decide_eq_true (ha (it.2, it.1) (mem_masked_enumerate.mpr ⟨hite,hi⟩))

end

def survivors (serverName : Str) (source destination : SocketAddr) (cs : List (Candidate N)) :
    List (Candidate N) :=
  let cs := keepBest .failedMatch (fun c => matchesDestinationPort c.2 destination.port) cs
  let cs := keepBest .failedMatch (fun c => matchesDestinationIp c.2 destination.ip) cs
  let cs := keepBest .failedMatch (fun c => matchesServerName c.2 serverName) cs
  let cs := keepBest .failedMatch (fun c => matchesSourceIp c.2 source.ip) cs
  keepBest .failedMatch (fun c => matchesSourcePort c.2 source.port) cs

def leafResult (chains : List T) : Option MatchLeaf → Except String (Option T)
  | some (.single idx) => .ok chains[idx]?
  | some .multiple => .error multipleFilterchains
  | none => .ok none

lemma masked_sublist {A : Type} (f : List Bool) (xs : List A) : (masked f xs).Sublist xs := by
  induction f generalizing xs with
  | nil => exact nil_sublist _
  | cons b f ih =>
    cases xs with
    | nil => exact List.Sublist.refl _
    | cons x xs =>
      rw [masked_cons]
      split_ifs
      · exact (ih xs).cons_cons x
      · exact (ih xs).cons x

variable (e : List (FilterChainMatch N × T))

lemma first_unless_second (f : List Bool) : (if (masked f (e.map snd)).tail.head?.isSome then
        Except.error multipleFilterchains
      else .ok (masked f (e.map snd)).head?) = leafResult (e.map snd)
        (fromCandidates (masked f (enumerate (e.map fst)))) := by
  have hv : e.map snd = e.zipIdx.map fun it => it.1.2 := by
    have hf := congrArg (map snd) (zipIdx_map_fst 0 e)
    rw [map_map] at hf
    exact hf.symm
  have hc : enumerate (e.map fst) = e.zipIdx.map fun it => (it.2, it.1.1) := by
    rw [enumerate,zipIdx_map,map_map]
    rfl
  have hsu := masked_sublist f e.zipIdx
  have hm : masked f (e.map snd) = (masked f e.zipIdx).map fun it => it.1.2 := by
    rw [hv,masked_map]
  rw [hc,hm,masked_map]
  cases hS : masked f e.zipIdx with
  | nil => rfl
  | cons x r =>
    cases r with
    | nil =>
      have hme : x ∈ e.zipIdx := by
        rw [hS] at hsu
        exact hsu.subset (by simp)
      rw [mem_zipIdx_iff_getElem?] at hme
      simp [leafResult,fromCandidates,hme]
    | cons y r => rfl

variable (c : DownstreamConnectionMetadata)

lemma referenceSelect_eq (s : Option Str) :
    referenceSelect e c s = leafResult (e.map snd) (fromCandidates
        (survivors (s.getD []) c.peerAddress c.localAddress (enumerate (e.map fst)))) := by
  have hlen : (enumerate (e.map fst)).length = e.length := by
    simp [enumerate]
  have h0s : (replicate e.length noRule).length = (e.map fst).length := by simp
  have h0f : (replicate e.length true).length = (e.map fst).length := by simp
  have h0 : masked (replicate e.length true) (enumerate (e.map fst)) = enumerate (e.map fst) := by
    rw [← hlen]
    exact masked_replicate_true _
  have h1 := matchSubitem_length matchesDestinationPort c.localAddress.port h0s h0f
  have h2 := matchSubitem_length matchesDestinationIp c.localAddress.ip h1.1 h1.2
  have h3 := matchSubitem_length matchesServerName (s.getD []) h2.1 h2.2
  have h4 := matchSubitem_length matchesSourceIp c.peerAddress.ip h3.1 h3.2
  unfold referenceSelect
  rw [first_unless_second,matchSubitem_masked h4.1 h4.2,matchSubitem_masked h3.1 h3.2,
    matchSubitem_masked h2.1 h2.2,matchSubitem_masked h1.1 h1.2,matchSubitem_masked h0s h0f,h0]
  rfl

/-- Five passes and five levels keep the same candidates. -/
lemma survivors_eq_restrict {s : Str} (hd : s.count dot < 2^32)
    (so d : SocketAddr) {cs : List (Candidate N)}
    (hn : ∀ c ∈ cs, ∀ sn ∈ c.2.serverNames, sn.Parsed) :
    survivors s so d cs = restrict s so d cs := by
  have hl : ∀ {K : Type} [DecidableEq K] {sc : Candidate N → MatchResult}
      {pr : List K} {k : Candidate N → List K} {ds : List (Candidate N)},
      (∀ c ∈ ds, sc c = scale.rank pr (k c)) →
      keepBest .failedMatch sc ds = probeGroup pr k ds := by
    intro K _ sc pr k ds h
    rw [keepBest_congr h]
    exact keepBest_rank scale pr k ds
  unfold survivors restrict matchesDestinationIp matchesSourceIp
  dsimp only
  rw [hl fun c _ => matchesDestinationPort_eq_rank c.2 d.port]
  rw [hl fun c _ => max?_rangeResult c.2.destinationPrefixRanges d.ip]
  -- the score of a server name is the position of the first pattern in the order exact name,
  -- longest suffix, …, shortest suffix
  rw [hl fun c hc => show matchesServerName c.2 s = _ from
    scale.max?_map_rank fun sn hsn => serverNameResult_eq_keyRank hd (hn c
      ((probeGroup_sublist ..).subset ((probeGroup_sublist ..).subset hc)) sn hsn)]
  rw [hl fun c _ => max?_rangeResult c.2.sourcePrefixRanges so.ip]
  rw [hl fun c _ => matchesSourcePort_eq_rank c.2 so.port]

lemma select_fromIter (s : Option Str) :
    (FilterChains.fromIter e).select c s = leafResult (e.map snd) (fromCandidates
        (restrict (s.getD []) c.peerAddress c.localAddress (enumerate (e.map fst)))) := by
  rw [← select_new]
  rfl

/-- The compiled tree answers as the linear reference for every connection and
every server name whose dots can be counted in 32 bits. -/
theorem select_eq_referenceSelect (L : LowercaseTable) (entries : List (FilterChainMatch N × T))
    (hnames : ∀ e ∈ entries, ∀ sn ∈ e.1.serverNames, ∃ s, ServerNameMatch.fromStr L s = .ok sn)
    (conn : DownstreamConnectionMetadata) (serverName : Option Str)
    (hdots : (serverName.getD []).count dot < 2 ^ 32) :
    (FilterChains.fromIter entries).select conn serverName =
      referenceSelect entries conn serverName := by
  rw [select_fromIter,referenceSelect_eq,survivors_eq_restrict hdots]
  intro c hc sn hsn
  obtain ⟨⟨m,i⟩,hm,rfl⟩ := mem_map.mp hc
  obtain ⟨e,he,rfl⟩ := mem_map.mp (mem_of_getElem? (mem_zipIdx_iff_getElem?.mp hm))
  obtain ⟨s,hs⟩ := hnames e he sn hsn
  exact ServerNameMatch.parsed_of_fromStr hs

def wildcardRule (name : Str) : FilterChainMatch networks where
  destinationPort := none
  destinationPrefixRanges := []
  serverNames := [⟨name,true⟩]
  sourcePrefixRanges := []
  sourcePorts := []

def overlappingWildcards : List (FilterChainMatch networks × ℕ) :=
  [(wildcardRule (str ".a"), 0),(wildcardRule (str ".b.a"), 1)]

lemma overlappingWildcards_fromStr : ∀ e ∈ overlappingWildcards, ∀ sn ∈ e.1.serverNames,
    ∃ s, ServerNameMatch.fromStr asciiLowercase s = .ok sn := by
  simp only [overlappingWildcards,forall_mem_cons,wildcardRule]
  refine ⟨⟨⟨str "*.a",by decide⟩,by simp⟩,⟨⟨str "*.b.a",by decide⟩,by simp⟩,by simp⟩

def loopback : DownstreamConnectionMetadata :=
  .fromSocket ⟨.v4 0x7f000001#32,1000⟩ ⟨.v4 0x7f000001#32,443⟩

theorem select_eq_referenceSelect_overlapping :
    (FilterChains.fromIter overlappingWildcards).select loopback (some (str "x.b.a")) =
      referenceSelect overlappingWildcards loopback (some (str "x.b.a")) :=
  select_eq_referenceSelect asciiLowercase overlappingWildcards overlappingWildcards_fromStr
    loopback (some (str "x.b.a")) (by decide)

variable {n : ℕ}

lemma serverName_score_of_many_dots (hn : 2^32 ≤ n) (na b : Str)
    (hna : str ".b.a" = b++na) (hne : na ≠ []) :
    matchesServerName (wildcardRule na) (replicate n dot++str ".b.a") = .matched 0 := by
  have hsu : na <:+ replicate n dot++str ".b.a" :=
    ⟨replicate n dot++b,by rw [append_assoc,← hna]⟩
  have hsc : wildcardScore (replicate n dot++str ".b.a") na = 0 := by
    have hlen : (replicate n dot++str ".b.a").length - na.length = n+b.length := by
      rw [hna]
      simp only [length_append,length_replicate]
      omega
    have hc : n ≤ ((replicate n dot++str ".b.a").take (n+b.length+1)).count dot := by
      rw [take_append,count_append,length_replicate,
        take_of_length_le (by simp; omega),count_replicate_self]
      exact Nat.le_add_right ..
    have hpos : 0 < na.length := length_pos_iff.mpr hne
    have hlt : n+b.length < (replicate n dot++str ".b.a").length := by
      rw [hna]
      simp only [length_append,length_replicate]
      omega
    simp only [wildcardScore,hlen]
    rw [if_pos hlt]
    exact if_neg (by omega)
  simp [matchesServerName,wildcardRule,serverNameResult,endsWith_iff.mpr hsu,hsc]

lemma enumerate_overlappingWildcards : enumerate (overlappingWildcards.map fst) =
    [(0, wildcardRule (str ".a")),(1, wildcardRule (str ".b.a"))] := rfl

lemma reference_of_many_dots (hn : 2^32 ≤ n) :
    referenceSelect overlappingWildcards loopback (some (replicate n dot++str ".b.a")) =
      .error multipleFilterchains := by
  have hk : ∀ (score : Candidate networks → MatchResult) (r : MatchResult),
      r ≠ .failedMatch → score (0, wildcardRule (str ".a")) = r →
      score (1, wildcardRule (str ".b.a")) = r →
      keepBest .failedMatch score (enumerate (overlappingWildcards.map fst)) =
        enumerate (overlappingWildcards.map fst) := by
    intro score r hr h0 h1
    apply keepBest_of_forall_eq hr
    simp [enumerate_overlappingWildcards,h0,h1]
  have hsh := serverName_score_of_many_dots hn (str ".a") (str ".b") rfl (by decide)
  have hl := serverName_score_of_many_dots hn (str ".b.a") [] rfl (by decide)
  rw [referenceSelect_eq,survivors,Option.getD_some]
  rw [hk _ .noRule (by decide) rfl rfl,hk _ .noRule (by decide) rfl rfl,
    hk _ (.matched 0) (by decide) hsh hl,hk _ .noRule (by decide) rfl rfl,
    hk _ .noRule (by decide) rfl rfl]
  rfl

lemma probeGroup_of_many_dots : probeGroup (serverNameProbes (replicate n dot++str ".b.a"))
      (fun c => c.2.serverNames.map serverNameKey)
      (enumerate (overlappingWildcards.map fst)) = [(1, wildcardRule (str ".b.a"))] := by
  have hr : ∀ na before, str ".b.a" = before++na → na.head? = some dot →
      scale.rank (serverNameProbes (replicate n dot++str ".b.a"))
        [(true, na)] = .matched (n+before.count dot+1) := by
    intro na before hn hh
    have hsu : na <:+ replicate n dot++str ".b.a" :=
      ⟨replicate n dot++before,by rw [append_assoc,← hn]⟩
    have hi := findIdx?_suffixProbe (replicate n dot++str ".b.a") hh
    have ht : (replicate n dot++str ".b.a").take
        ((replicate n dot++str ".b.a").length - na.length) = replicate n dot++before := by
      rw [hn,← append_assoc]
      exact take_left' (by simp; omega)
    rw [if_pos hsu,ht,count_append,count_replicate_self] at hi
    simp only [RankScale.rank,mem_singleton,hi]
    rfl
  have hsh : scale.rank (serverNameProbes (replicate n dot++str ".b.a"))
      ((wildcardRule (str ".a")).serverNames.map serverNameKey) = .matched (n+2) :=
    hr (str ".a") (str ".b") rfl rfl
  have hl : scale.rank (serverNameProbes (replicate n dot++str ".b.a"))
      ((wildcardRule (str ".b.a")).serverNames.map serverNameKey) = .matched (n+1) :=
    hr (str ".b.a") [] rfl rfl
  rw [← keepBest_rank scale,enumerate_overlappingWildcards,keepBest]
  have hf : scale.failed = .failedMatch := rfl
  simp [hsh,hl,hf]

theorem select_ne_referenceSelect_of_many_dots :
    (∀ e ∈ overlappingWildcards, ∀ sn ∈ e.1.serverNames,
      ∃ s, ServerNameMatch.fromStr asciiLowercase s = .ok sn) ∧
    (FilterChains.fromIter overlappingWildcards).select loopback
        (some (replicate (2 ^ 32) dot ++ str ".b.a")) = .ok (some 1) ∧
      referenceSelect overlappingWildcards loopback
        (some (replicate (2 ^ 32) dot ++ str ".b.a")) = .error multipleFilterchains := by
  refine ⟨overlappingWildcards_fromStr,?_,reference_of_many_dots (le_refl _)⟩
  have hr : ∀ c ∈ enumerate (overlappingWildcards.map fst),
      c.2.destinationPort.toList = [] ∧ rangeKeys c.2.destinationPrefixRanges = [] := by
    simp [enumerate_overlappingWildcards,wildcardRule,rangeKeys]
  have hso : probeGroup (containing loopback.peerAddress.ip)
      (fun c : Candidate networks => rangeKeys c.2.sourcePrefixRanges)
      [(1, wildcardRule (str ".b.a"))] = [(1, wildcardRule (str ".b.a"))] :=
    probeGroup_of_no_keys (by simp [wildcardRule,rangeKeys]) _
  rw [select_fromIter,restrict,Option.getD_some,probeGroup_of_no_keys fun c hc => (hr c hc).1,
    probeGroup_of_no_keys fun c hc => (hr c hc).2,probeGroup_of_many_dots,hso,
    probeGroup_of_no_keys (by simp [wildcardRule])]
  rfl

end ArionGateway.FilterChainReference
