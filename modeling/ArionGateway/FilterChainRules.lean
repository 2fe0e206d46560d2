import ArionGateway.ByteStrings
import ArionGateway.IpNetworks
import ArionGateway.RankedProbes

/-!
# Filter chain match rules and their scores

A server name pattern with its parser, the five criteria of a filter chain and, for each
criterion, the `MatchResult` of a connection. Each criterion is then read as a list of keys, and
each connection attribute as a list of probes from the most to the least specific key: the score
the source computes is the position of the first probe among the keys.

The Unicode tables behind `str::to_lowercase` are a parameter: only that a leading dot stays where
it is matters here.
-/
namespace ArionGateway.FilterChainRules
open ByteStrings IpNetworks RankedProbes List RankScale

/-- `str::to_lowercase`; a full stop has no case. -/
structure LowercaseTable where
  toLowercase : Str → Str
  leading_dot : ∀ s, (toLowercase (dot::s)).head? = some dot

/-- ASCII letters in lower case, all other bytes unchanged. -/
def asciiLowercase : LowercaseTable where
  toLowercase s := s.map fun b => if 65 ≤ b ∧ b ≤ 90 then b+32 else b
  leading_dot s := by
    rw [List.map_cons]
    rfl

structure ServerNameMatch where
  name : Str
  matchSubdomains : Bool
  deriving DecidableEq

/-- `ServerNameMatch::from_str`: only wildcards are checked. -/
def ServerNameMatch.fromStr (L : LowercaseTable) (s : Str) : Except String ServerNameMatch :=
  let (matchSubdomains, rest) :=
    match s with
    | [] => (false, s)
    | b::rest =>
      if b = star then
        if rest.head? = some dot then (true, rest) else (false, s)
      else (false, s)
  if rest.contains star then
    .error "internal wildcards are not supported (Hostnames may only start with '*.')"
  else .ok ⟨L.toLowercase rest,matchSubdomains⟩

/-- What the parser guarantees of a pattern: one that matches subdomains keeps
the dot after the star. -/
def ServerNameMatch.Parsed (sn : ServerNameMatch) : Prop :=
  sn.matchSubdomains = true → sn.name.head? = some dot

lemma ServerNameMatch.parsed_of_fromStr {L : LowercaseTable} {s : Str} {sn : ServerNameMatch}
    (h : ServerNameMatch.fromStr L s = .ok sn) : sn.Parsed := by
  intro hsu
  cases s with
  | nil =>
    cases h
    cases hsu
  | cons b r =>
    simp only [ServerNameMatch.fromStr] at h
    split_ifs at h with hb hd hc hc hc <;> cases h
    · obtain ⟨r,rfl⟩ := head?_eq_some_iff.mp hd
      exact L.leading_dot r
    all_goals cases hsu

inductive MatchResult where
  | failedMatch
  | noRule
  | matched (score : ℕ)
  deriving DecidableEq

namespace MatchResult

/-- `Ord::cmp`: lower scores are more specific. -/
def cmp : MatchResult → MatchResult → Ordering
  | matched x, matched y => (compare x y).swap
  | failedMatch, failedMatch | noRule, noRule => .eq
  | matched _, _ | noRule, failedMatch => .gt
  | _, matched _ | failedMatch, noRule => .lt

instance : LE MatchResult := ⟨fun a b => a.cmp b ≠ .gt⟩

instance (a b : MatchResult) : Decidable (a ≤ b) := inferInstanceAs (Decidable (a.cmp b ≠ .gt))

@[simp] lemma matched_le_matched {x y : ℕ} : matched x ≤ matched y ↔ y ≤ x := by
  change (compare x y).swap ≠ .gt ↔ y ≤ x
  rw [Ne,Ordering.swap_eq_gt,Nat.compare_eq_lt]
  omega

@[simp] lemma failedMatch_le (a : MatchResult) : failedMatch ≤ a := by
  cases a <;> exact Ordering.noConfusion

@[simp] lemma noRule_le_noRule : noRule ≤ noRule := Ordering.noConfusion

@[simp] lemma noRule_le_matched (x : ℕ) : noRule ≤ matched x := Ordering.noConfusion

@[simp] lemma not_noRule_le_failedMatch : ¬ noRule ≤ failedMatch := fun h => h rfl

@[simp] lemma not_matched_le_failedMatch (x : ℕ) : ¬ matched x ≤ failedMatch := fun h => h rfl

@[simp] lemma not_matched_le_noRule (x : ℕ) : ¬ matched x ≤ noRule := fun h => h rfl

instance : LinearOrder MatchResult where
  le_refl a := by cases a <;> simp
  le_trans a b c hab hbc := by
    cases a <;> cases b <;> cases c <;> simp_all
    omega
  le_antisymm a b hab hba := by
    cases a <;> cases b <;> simp_all
    omega
  le_total a b := by
    cases a <;> cases b <;> simp
    omega
  toDecidableLE := inferInstance
  toDecidableEq := inferInstance

lemma cmp_eq_gt_iff {a b : MatchResult} : a.cmp b = .gt ↔ b < a := by
  rw [← not_le]
  exact not_not.symm

/-- The scale of the source: a hit at position `i` scores `i`. -/
def scale : RankScale MatchResult where
  failed := failedMatch
  noRule := noRule
  matched := matched
  failed_lt_noRule := lt_of_not_ge not_noRule_le_failedMatch
  noRule_lt_matched i := lt_of_not_ge (not_matched_le_noRule i)
  matched_strictAnti i j hij := lt_of_not_ge (by simpa using hij)

end MatchResult

open MatchResult (scale)

variable {N : IpnetCrate}

structure FilterChainMatch (N : IpnetCrate) where
  destinationPort : Option ℕ
  destinationPrefixRanges : List N.IpNet
  serverNames : List ServerNameMatch
  sourcePrefixRanges : List N.IpNet
  sourcePorts : List ℕ

variable (m : FilterChainMatch N)

def matchesDestinationPort (port : ℕ) : MatchResult :=
  match m.destinationPort with
  | some destination => if port = destination then .matched 0 else .failedMatch
  | none => .noRule

/-- The closure that both `matches_destination_ip` and `matches_source_ip` map
over their ranges. -/
def rangeResult (ip : IpAddr) (range : N.IpNet) : MatchResult :=
  if N.contains range ip then .matched (ip.width - N.prefixLen range) else .failedMatch

def matchesDestinationIp (ip : IpAddr) : MatchResult :=
  (m.destinationPrefixRanges.map (rangeResult ip)).max?.getD .noRule

variable (serverName : Str)

/-- `u32::try_from(count).unwrap_or_default()` of the dots in
`server_name[..=prefix_len]`. -/
def wildcardScore (name : Str) : ℕ :=
  let prefixLen := serverName.length - name.length
  let bytes := if prefixLen < serverName.length then serverName.take (prefixLen+1) else serverName
  if bytes.count dot < 2^32 then bytes.count dot else 0

def serverNameResult (nameMatch : ServerNameMatch) : MatchResult :=
  if nameMatch.matchSubdomains then
    if endsWith serverName nameMatch.name then
      .matched (wildcardScore serverName nameMatch.name)
    else .failedMatch
  else if serverName = nameMatch.name then .matched 0
  else .failedMatch

def matchesServerName : MatchResult :=
  (m.serverNames.map (serverNameResult serverName)).max?.getD .noRule

def matchesSourceIp (ip : IpAddr) : MatchResult :=
  (m.sourcePrefixRanges.map (rangeResult ip)).max?.getD .noRule

def matchesSourcePort (sourcePort : ℕ) : MatchResult :=
  if m.sourcePorts = [] then .noRule
  else if m.sourcePorts.contains sourcePort then .matched 0
  else .failedMatch

def rangeKeys (ranges : List N.IpNet) : List IpNetwork := ranges.map N.trunc

def serverNameKey (sn : ServerNameMatch) : Bool × Str := (sn.matchSubdomains, sn.name)

/-- The exact name, then the suffixes from the longest to the shortest. -/
def serverNameProbes : List (Bool × Str) :=
  (false, serverName)::(suffixesAt dot serverName).map fun suffix => (true, suffix)

lemma matchesDestinationPort_eq_rank (p : ℕ) :
    matchesDestinationPort m p = scale.rank [p] m.destinationPort.toList := by
  unfold matchesDestinationPort
  cases m.destinationPort with
  | none => rfl
  | some d =>
    by_cases h : p = d <;> simp [rank,scale,h]

lemma matchesSourcePort_eq_rank (p : ℕ) : matchesSourcePort m p = scale.rank [p] m.sourcePorts := by
  unfold matchesSourcePort rank
  by_cases hn : m.sourcePorts = []
  · rw [if_pos hn,if_pos hn]
    rfl
  · rw [if_neg hn,if_neg hn]
    by_cases h : p ∈ m.sourcePorts <;> simp [scale,h]

lemma max?_rangeResult (r : List N.IpNet) (ip : IpAddr) :
    (r.map (rangeResult ip)).max?.getD .noRule = scale.rank (containing ip) (rangeKeys r) := by
  refine scale.max?_map_rank fun ra _ => ?_
  rw [keyRank,findIdx?_containing,rangeResult]
  split_ifs <;> rfl

lemma wildcardScore_eq {s n : Str} (hsu : n <:+ s)
    (hh : n.head? = some dot) (hdo : s.count dot < 2^32) :
    wildcardScore s n = (s.take (s.length - n.length)).count dot+1 := by
  obtain ⟨b,rfl⟩ := hsu
  cases n with
  | nil => cases hh
  | cons d r =>
    have hd : d = dot := by simpa using hh
    subst hd
    have hlen : (b++dot::r).length - (dot::r).length = b.length := by
      simp
    have hlt : b.length < (b++dot::r).length := by
      simp
    have ht : (b++dot::r).take (b.length+1) = b++[dot] := by
      rw [take_append]
      simp
    simp only [wildcardScore,hlen,if_pos hlt,ht,take_left,count_append,count_singleton_self]
    rw [count_append,count_cons_self] at hdo
    exact if_pos (by omega)

lemma findIdx?_exactProbe (s n : Str) :
    (serverNameProbes s).findIdx? (fun a => decide (a = (false, n))) =
      if s = n then some 0 else none := by
  have hw : ((suffixesAt dot s).map fun su => (true, su)).findIdx?
      (fun a => decide (a = (false, n))) = none := by
    rw [findIdx?_eq_none_iff]
    intro a ha
    obtain ⟨su,-,rfl⟩ := mem_map.mp ha
    simp
  rw [serverNameProbes,findIdx?_cons]
  by_cases h : s = n <;> simp [h]

lemma findIdx?_suffixProbe (s : Str) {n : Str} (hh : n.head? = some dot) :
    (serverNameProbes s).findIdx? (fun a => decide (a = (true, n))) = if n <:+ s then
        some ((s.take (s.length - n.length)).count dot+1)
      else none := by
  have hm : ((suffixesAt dot s).map fun su => (true, su)).findIdx?
      (fun a => decide (a = (true, n))) =
      (suffixesAt dot s).findIdx? fun su => decide (su = n) := by
    simp [Function.comp_def]
  rw [serverNameProbes,findIdx?_cons,hm]
  split_ifs with hf hsu hsu
  · simp at hf
  · simp at hf
  · rw [findIdx?_suffixesAt (mem_suffixesAt.mpr ⟨hsu,hh⟩)]
    rfl
  · have hn : (suffixesAt dot s).findIdx? (fun su => decide (su = n)) = none := by
      rw [findIdx?_eq_none_iff]
      intro su hme
      apply decide_eq_false
      rintro rfl
      exact hsu (mem_suffixesAt.mp hme).1
    rw [hn]
    rfl

lemma serverNameResult_eq_keyRank {s : Str} (hd : s.count dot < 2^32)
    {sn : ServerNameMatch} (hsn : sn.Parsed) :
    serverNameResult s sn = scale.keyRank (serverNameProbes s) (serverNameKey sn) := by
  obtain ⟨n,sub⟩ := sn
  unfold keyRank serverNameKey serverNameResult
  cases sub with
  | false =>
    rw [findIdx?_exactProbe,if_neg Bool.false_ne_true]
    split_ifs <;> rfl
  | true =>
    have hh : n.head? = some dot := hsn rfl
    rw [findIdx?_suffixProbe s hh]
    by_cases hsu : n <:+ s
    · rw [if_pos (endsWith_iff.mpr hsu),if_pos hsu,wildcardScore_eq hsu hh hd]
      rfl
    · rw [if_neg (mt endsWith_iff.mp hsu),if_neg hsu]
      rfl

end ArionGateway.FilterChainRules
