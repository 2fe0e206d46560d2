import ArionGateway.FilterChainRules
import ArionGateway.KeyedGroups

/-!
# The compiled filter chain matcher

Every level of the five-level decision tree groups its candidates by the keys of one criterion,
compiles each group into the next level and keeps the candidates without a rule as its fallback. A
selection walks down without backtracking. Selecting in the level compiled from some candidates is
compiling the next level from the candidates of the first probe; composed, the tree reaches the
leaf of the candidates that survive five such restrictions.

Hash maps are tables, and prefix levels are lists from the longest prefix down.
-/
namespace ArionGateway.FilterChainTree
open ByteStrings IpNetworks RankedProbes KeyedGroups FilterChainRules List
open Prod (fst)

variable {N : IpnetCrate} {Next : Type}

abbrev Candidate (N : IpnetCrate) := ℕ × FilterChainMatch N

variable (matchRules : List (FilterChainMatch N))

/-- `match_rules.iter().enumerate().collect()`. -/
def enumerate : List (Candidate N) :=
  matchRules.zipIdx.map fun (m, i) => (i, m)

/-- Appends a candidate unless it already is the last entry, so that duplicate
rules of one entry do not look like two candidates. -/
def pushUniqueCandidate (group : List (Candidate N)) (candidate : Candidate N) :
    List (Candidate N) :=
  pushUnique Prod.fst group candidate

def buildGroupMap {K : Type} [DecidableEq K] (groups : Table K (List (Candidate N)))
    (buildNext : List (Candidate N) → Option Next) : Table K Next :=
  mapGroups buildNext groups

inductive MatchLeaf where
  | single (idx : ℕ)
  | multiple
  deriving DecidableEq

def MatchLeaf.fromCandidates : List (Candidate N) → Option MatchLeaf
  | [] => none
  | [(idx, _)] => some (.single idx)
  | _ => some .multiple

/-- The frame that the `build` functions share: nothing without candidates, the
bare next level when no candidate has a rule, otherwise the node with rules. -/
def buildLevel {K Level : Type} (getRules : FilterChainMatch N → List K)
    (wildcardOnly : Next → Level) (withRules : List (Candidate N) → Level)
    (buildNext : List (Candidate N) → Option Next) (candidates : List (Candidate N)) :
    Option Level :=
  if candidates = [] then none
  else if candidates.any fun c => !(getRules c.2).isEmpty then some (withRules candidates)
  else (buildNext candidates).map wildcardOnly

/-- The shape of `DestPortMatcher` and `SourcePortMatcher`. -/
inductive PortMatcher (Next : Type) where
  | wildcardOnly (next : Next)
  | withExact (exact : Table ℕ Next) (wildcard : Option Next)

/-- The locals `port_groups` and `wildcard_candidates` of the loop in `build`. -/
structure PortGroups (N : IpnetCrate) where
  portGroups : Table ℕ (List (Candidate N))
  wildcardCandidates : List (Candidate N)

variable (getPorts : FilterChainMatch N → List ℕ)
  (push : List (Candidate N) → Candidate N → List (Candidate N))

def PortGroups.add (groups : PortGroups N) (candidate : Candidate N) : PortGroups N :=
  if getPorts candidate.2 = [] then
    { groups with wildcardCandidates := groups.wildcardCandidates++[candidate] }
  else
    { groups with
      portGroups := (getPorts candidate.2).foldl
        (fun m port => modifyEntry m port [] fun group => push group candidate)
        groups.portGroups }

def PortMatcher.build
    (buildNext : List (Candidate N) → Option Next) (candidates : List (Candidate N)) :
    Option (PortMatcher Next) :=
  buildLevel getPorts .wildcardOnly
    (fun candidates =>
      let groups := candidates.foldl (PortGroups.add getPorts push) ⟨∅,[]⟩
      .withExact (buildGroupMap groups.portGroups buildNext)
        (buildNext groups.wildcardCandidates))
    buildNext candidates

def PortMatcher.selectNext (port : ℕ) : PortMatcher Next → Option Next
  | .wildcardOnly next => some next
  | .withExact exact wildcard => (exact.lookup port).or wildcard

/-- `Ipv4PrefixLevel` and `Ipv6PrefixLevel`, by address width. -/
structure PrefixLevel (w : ℕ) (Next : Type) where
  mask : BitVec w
  prefixes : Table (BitVec w) Next

inductive IpMatcher (Next : Type) where
  | wildcardOnly (next : Next)
  | withPrefixes (v4 : List (PrefixLevel 32 Next)) (v6 : List (PrefixLevel 128 Next))
      (wildcard : Option Next)

abbrev PrefixGroups (w : ℕ) (N : IpnetCrate) :=
  Table ℕ (Table (BitVec w) (List (Candidate N)))

structure IpGroups (N : IpnetCrate) where
  v4Groups : PrefixGroups 32 N
  v6Groups : PrefixGroups 128 N
  wildcardCandidates : List (Candidate N)

/-- `entry(prefix_len).or_default().entry(network).or_default()`, then the push. -/
def PrefixGroups.file {w : ℕ} (groups : PrefixGroups w N) (prefixLen : ℕ) (network : BitVec w)
    (candidate : Candidate N) : PrefixGroups w N :=
  modifyEntry groups prefixLen ∅ fun nets =>
    modifyEntry nets network [] fun group => pushUniqueCandidate group candidate

def IpGroups.file (groups : IpGroups N) (network : IpNetwork) (candidate : Candidate N) :
    IpGroups N :=
  match network with
  | .v4 p bits => { groups with v4Groups := groups.v4Groups.file p bits candidate }
  | .v6 p bits => { groups with v6Groups := groups.v6Groups.file p bits candidate }

def IpGroups.add (getRanges : FilterChainMatch N → List N.IpNet) (groups : IpGroups N)
    (candidate : Candidate N) : IpGroups N :=
  if getRanges candidate.2 = [] then
    { groups with wildcardCandidates := groups.wildcardCandidates++[candidate] }
  else
    (getRanges candidate.2).foldl (fun g range => g.file (N.trunc range) candidate) groups

def prefixLevels {w : ℕ} (mask : ℕ → BitVec w)
    (buildNext : List (Candidate N) → Option Next) (groups : PrefixGroups w N) :
    List (PrefixLevel w Next) :=
  (descending groups).filterMap fun (prefixLen, netMap) =>
    let prefixes := buildGroupMap netMap buildNext
    if prefixes.entries = [] then none else some ⟨mask prefixLen,prefixes⟩

variable (candidates : List (Candidate N))

def IpMatcher.build (getRanges : FilterChainMatch N → List N.IpNet)
    (buildNext : List (Candidate N) → Option Next) : Option (IpMatcher Next) :=
  buildLevel getRanges .wildcardOnly
    (fun candidates =>
      let groups := candidates.foldl (IpGroups.add getRanges) ⟨∅,∅,[]⟩
      .withPrefixes (prefixLevels ipv4Mask buildNext groups.v4Groups)
        (prefixLevels ipv6Mask buildNext groups.v6Groups)
        (buildNext groups.wildcardCandidates))
    buildNext candidates

def findPrefix {w : ℕ} (bits : BitVec w) (levels : List (PrefixLevel w Next)) : Option Next :=
  levels.findSome? fun level => level.prefixes.lookup (bits &&& level.mask)

def IpMatcher.selectNext (ip : IpAddr) : IpMatcher Next → Option Next
  | .wildcardOnly next => some next
  | .withPrefixes v4 v6 wildcard =>
    (match ip with
      | .v4 bits => findPrefix bits v4
      | .v6 bits => findPrefix bits v6).or wildcard

abbrev SourcePortMatcher := PortMatcher MatchLeaf

def SourcePortMatcher.build : Option SourcePortMatcher :=
  PortMatcher.build (fun m => m.sourcePorts) pushUniqueCandidate MatchLeaf.fromCandidates
    candidates

abbrev SourceIpMatcher := IpMatcher SourcePortMatcher

def SourceIpMatcher.buildSource : Option SourceIpMatcher :=
  IpMatcher.build candidates (fun m => m.sourcePrefixRanges) SourcePortMatcher.build

inductive ServerNameMatcher where
  | wildcardOnly (next : SourceIpMatcher)
  | withRules (exact : Table Str SourceIpMatcher) (wildcardSuffixes : Table Str SourceIpMatcher)
      (fallback : Option SourceIpMatcher)

structure NameGroups (N : IpnetCrate) where
  exactGroups : Table Str (List (Candidate N))
  wildcardGroups : Table Str (List (Candidate N))
  fallbackCandidates : List (Candidate N)

variable (groups : NameGroups N)

def NameGroups.file (sn : ServerNameMatch) (candidate : Candidate N) : NameGroups N :=
  if sn.matchSubdomains then
    { groups with
      wildcardGroups := modifyEntry groups.wildcardGroups sn.name []
        fun group => pushUniqueCandidate group candidate }
  else
    { groups with
      exactGroups := modifyEntry groups.exactGroups sn.name []
        fun group => pushUniqueCandidate group candidate }

def NameGroups.add (candidate : Candidate N) : NameGroups N :=
  if candidate.2.serverNames = [] then
    { groups with fallbackCandidates := groups.fallbackCandidates++[candidate] }
  else candidate.2.serverNames.foldl (fun g sn => g.file sn candidate) groups

def ServerNameMatcher.build : Option ServerNameMatcher :=
  buildLevel (fun m => m.serverNames) .wildcardOnly
    (fun candidates =>
      let groups := candidates.foldl NameGroups.add ⟨∅,∅,[]⟩
      .withRules (buildGroupMap groups.exactGroups SourceIpMatcher.buildSource)
        (buildGroupMap groups.wildcardGroups SourceIpMatcher.buildSource)
        (SourceIpMatcher.buildSource groups.fallbackCandidates))
    SourceIpMatcher.buildSource candidates

def ServerNameMatcher.selectNext (serverName : Str) : ServerNameMatcher → Option SourceIpMatcher
  | .wildcardOnly next => some next
  | .withRules exact wildcardSuffixes fallback =>
    match exact.lookup serverName with
    | some next => some next
    | none =>
      let suffixMatch :=
        if wildcardSuffixes.entries = [] then none
        else (suffixesAt dot serverName).findSome? fun suffix => wildcardSuffixes.lookup suffix
      match suffixMatch with
      | some next => some next
      | none => fallback

abbrev DestIpMatcher := IpMatcher ServerNameMatcher

def DestIpMatcher.buildDest : Option DestIpMatcher :=
  IpMatcher.build candidates (fun m => m.destinationPrefixRanges) ServerNameMatcher.build

abbrev DestPortMatcher := PortMatcher DestIpMatcher

/-- A candidate has at most one destination port, so it is pushed as it is. -/
def DestPortMatcher.build : Option DestPortMatcher :=
  PortMatcher.build (fun m => m.destinationPort.toList) (fun group c => group++[c])
    DestIpMatcher.buildDest candidates

structure FilterChainMatcher where
  root : Option DestPortMatcher
  hasServerNames : Bool

def FilterChainMatcher.new : FilterChainMatcher where
  root := DestPortMatcher.build (enumerate matchRules)
  hasServerNames := matchRules.any fun m => !m.serverNames.isEmpty

/-- The addresses of a downstream connection; the fields of a PROXY protocol
header that the matcher does not read are left out. -/
inductive DownstreamConnectionMetadata where
  | fromSocket (peerAddress localAddress : SocketAddr)
  | fromProxyProtocol (originalPeerAddress originalDestinationAddress : SocketAddr)
      (proxyPeerAddress proxyLocalAddress : SocketAddr)
  deriving DecidableEq

def DownstreamConnectionMetadata.peerAddress : DownstreamConnectionMetadata → SocketAddr
  | .fromSocket peerAddress _ => peerAddress
  | .fromProxyProtocol originalPeerAddress _ _ _ => originalPeerAddress

def DownstreamConnectionMetadata.localAddress : DownstreamConnectionMetadata → SocketAddr
  | .fromSocket _ localAddress => localAddress
  | .fromProxyProtocol _ originalDestinationAddress _ _ => originalDestinationAddress

def FilterChainMatcher.select (matcher : FilterChainMatcher)
    (connectionMetadata : DownstreamConnectionMetadata) (serverName : Option Str) :
    Option MatchLeaf := do
  let root ← matcher.root
  let sourceAddr := connectionMetadata.peerAddress
  let destinationAddr := connectionMetadata.localAddress
  let level2 ← root.selectNext destinationAddr.port
  let level3 ← level2.selectNext destinationAddr.ip
  let level4 ← level3.selectNext (serverName.getD [])
  let level5 ← level4.selectNext sourceAddr.ip
  level5.selectNext sourceAddr.port

structure FilterChains (T : Type) where
  matcher : FilterChainMatcher
  chains : List T

def FilterChains.fromIter {T : Type} (entries : List (FilterChainMatch N × T)) :
    FilterChains T where
  matcher := FilterChainMatcher.new (entries.map Prod.fst)
  chains := entries.map Prod.snd

def multipleFilterchains : String :=
  "multiple filterchains matched a single connection. This is a bug in arion!"

def FilterChains.select {T : Type} (filterChains : FilterChains T)
    (connectionMetadata : DownstreamConnectionMetadata) (serverName : Option Str) :
    Except String (Option T) :=
  match filterChains.matcher.select connectionMetadata serverName with
  | some (.single idx) => .ok filterChains.chains[idx]?
  | some .multiple => .error multipleFilterchains
  | none => .ok none

lemma pushUniqueCandidate_of_ne (gr : List (Candidate N)) (c : Candidate N)
    (h : gr.getLast?.map fst ≠ some c.1) : pushUniqueCandidate gr c = gr++[c] :=
  pushUnique_of_ne fst h

lemma pushUniqueCandidate_idem (gr : List (Candidate N)) (c : Candidate N) :
    pushUniqueCandidate (pushUniqueCandidate gr c) c = pushUniqueCandidate gr c :=
  pushUnique_idem fst gr c

/-- `build` compiles exactly the groups that have a candidate. -/
def Compiles (build : List (Candidate N) → Option Next) : Prop :=
  ∀ cs, (build cs).isSome = true ↔ cs ≠ []

open MatchLeaf

lemma compiles_fromCandidates : Compiles (N := N) fromCandidates := by
  intro cs
  match cs with
  | [] => simp [fromCandidates]
  | [c] => simp [fromCandidates]
  | c::d::cs => simp [fromCandidates]

section
variable {J K Level : Type} {gr : FilterChainMatch N → List J}
  {w : Next → Level} {wr : List (Candidate N) → Level}
  {b : List (Candidate N) → Option Next} (hnx : Compiles b)
include hnx

lemma compiles_level : Compiles (buildLevel gr w wr b) := by
  intro cs
  unfold buildLevel
  split_ifs with hn
  · simp [hn]
  · simpa using hn
  · rw [Option.isSome_map]
    exact hnx cs

/-- Every level selects as its node with rules does: without candidates there
is nothing to select, and without rules the first probe keeps everyone. -/
lemma level_bind [DecidableEq K] {s : Level → Option Next} {ke : Candidate N → List K}
    {p : List K} {cs : List (Candidate N)} (hw : ∀ n, s (w n) = some n)
    (hk : ∀ c, gr c.2 = [] → ke c = []) (hr : s (wr cs) = b (probeGroup p ke cs)) :
    (buildLevel gr w wr b cs).bind s = b (probeGroup p ke cs) := by
  unfold buildLevel
  split_ifs with hn ha
  · subst hn
    rw [probeGroup_nil]
    exact (Option.not_isSome_iff_eq_none.mp (by simp [hnx []])).symm
  · exact hr
  · have hno : ∀ c ∈ cs, ke c = [] := by
      intro c hc
      apply hk
      by_contra hne
      exact ha (any_eq_true.mpr ⟨c,hc,by simpa using hne⟩)
    rw [probeGroup_of_no_keys hno]
    cases b cs with
    | none => rfl
    | some nx => exact hw nx

end

open PortMatcher

section
variable {gp : FilterChainMatch N → List ℕ}
  {pu : List (Candidate N) → Candidate N → List (Candidate N)}

lemma wildcardCandidates_port (cs : List (Candidate N)) (g : PortGroups N) :
    (cs.foldl (PortGroups.add gp pu) g).wildcardCandidates =
      g.wildcardCandidates++cs.filter fun c => decide (gp c.2 = []) := by
  apply rest_walk PortGroups.wildcardCandidates
  intro m c
  unfold PortGroups.add
  by_cases h : gp c.2 = [] <;> simp [h]

variable
  (hp : ∀ g (c : Candidate N), g.getLast?.map Prod.fst ≠ some c.1 → pu g c = g++[c])
  (hf : ∀ m (c : Candidate N) k,
    ((gp c.2).foldl (fun m port => modifyEntry m port [] fun group => pu group c)
      m).lookup k = if k ∈ gp c.2 then some (pu ((m.lookup k).getD []) c) else m.lookup k)
  {cs : List (Candidate N)} (hi : (cs.map Prod.fst).Nodup)
include hp hf hi

lemma lookup_portGroups (port : ℕ) :
    (cs.foldl (PortGroups.add gp pu) ⟨∅,[]⟩).portGroups.lookup port =
      carriers (fun c => gp c.2) cs port := by
  refine get_walk (fun (m : PortGroups N) k => m.portGroups.lookup k) pu fst ?_ hp hi
    (fun k => rfl) port
  intro m c k
  unfold PortGroups.add
  by_cases h : gp c.2 = []
  · simp [h]
  · rw [if_neg h]
    exact hf m.portGroups c k

lemma port_selectNext {b : List (Candidate N) → Option Next} (hnext : Compiles b) (p : ℕ) :
    (build gp pu b cs).bind (selectNext p) = b (probeGroup [p] (fun c => gp c.2) cs) := by
  refine level_bind hnext (fun _ => rfl) (fun _ h => h) ?_
  rw [selectNext,buildGroupMap,lookup_mapGroups,
    lookup_portGroups hp hf hi,wildcardCandidates_port, ← probe_or_rest hnext]
  simp

end

open IpGroups

def PrefixGroups.get {w : ℕ} (groups : PrefixGroups w N) (prefixLen : ℕ) (network : BitVec w) :
    Option (List (Candidate N)) :=
  (groups.lookup prefixLen).bind fun nets => nets.lookup network

lemma PrefixGroups.get_file {w : ℕ} (gr : PrefixGroups w N) (p q : ℕ) (a b : BitVec w)
    (c : Candidate N) : (gr.file p a c).get q b =
      if q = p ∧ b = a then some (pushUniqueCandidate ((gr.get p a).getD []) c)
      else gr.get q b := by
  unfold PrefixGroups.get PrefixGroups.file
  rw [lookup_modifyEntry]
  by_cases hq : q = p
  · subst hq
    simp only [if_true,Option.bind_some,lookup_modifyEntry,true_and]
    cases gr.lookup q <;> rfl
  · simp [hq]

def IpGroups.get (groups : IpGroups N) : IpNetwork → Option (List (Candidate N))
  | .v4 p bits => groups.v4Groups.get p bits
  | .v6 p bits => groups.v6Groups.get p bits

lemma IpGroups.get_file (gr : IpGroups N) (n m : IpNetwork) (c : Candidate N) :
    (gr.file n c).get m =
      if m = n then some (pushUniqueCandidate ((gr.get n).getD []) c) else gr.get m := by
  cases n <;> cases m <;> simp [file,get,PrefixGroups.get_file]

@[simp] lemma IpGroups.file_wildcardCandidates (gr : IpGroups N) (n : IpNetwork)
    (c : Candidate N) : (gr.file n c).wildcardCandidates = gr.wildcardCandidates := by
  cases n <;> rfl

variable (gtr : FilterChainMatch N → List N.IpNet)

lemma wildcardCandidates_ip (cs : List (Candidate N)) (g : IpGroups N) :
    (cs.foldl (add gtr) g).wildcardCandidates =
      g.wildcardCandidates++cs.filter fun c => decide (rangeKeys (gtr c.2) = []) := by
  apply rest_walk wildcardCandidates
  intro m c
  unfold add
  by_cases h : gtr c.2 = []
  · simp [h,rangeKeys]
  · rw [if_neg h,foldl_frame wildcardCandidates fun _ _ =>
      file_wildcardCandidates ..]
    simp [rangeKeys,h]

variable {cs : List (Candidate N)}

lemma get_ipGroups (hids : (cs.map fst).Nodup) (n : IpNetwork) :
    (cs.foldl (add gtr) ⟨∅,∅,[]⟩).get n = carriers (fun c => rangeKeys (gtr c.2)) cs n := by
  refine get_walk get pushUniqueCandidate fst ?_ pushUniqueCandidate_of_ne hids ?_ n
  · intro m c k
    have hf := KeyedGroups.get_file get file pushUniqueCandidate
      (fun m k j c => get_file m k j c) pushUniqueCandidate_idem
      (rangeKeys (gtr c.2)) m c k
    rw [← hf]
    unfold add rangeKeys
    rw [foldl_map]
    split_ifs with h
    · rw [h]
      cases k <;> rfl
    · rfl
  · intro k
    cases k <;> rfl

lemma carriers_of_lt (cs : List (Candidate N)) :
    (∀ p b, 32 < p → carriers (fun c => rangeKeys (gtr c.2)) cs (.v4 p b) = none) ∧
    (∀ p b, 128 < p → carriers (fun c => rangeKeys (gtr c.2)) cs (.v6 p b) = none) := by
  refine ⟨fun p b hp => carriers_eq_none fun c _ hm => ?_,
    fun p b hp => carriers_eq_none fun c _ hm => ?_⟩
  all_goals obtain ⟨ra,-,hr⟩ := mem_map.mp hm
  · exact absurd (N.trunc_v4 hr).2 (Nat.not_le_of_lt hp)
  · exact absurd (N.trunc_v6 hr).2 (Nat.not_le_of_lt hp)

variable {gtr} {buildNext : List (Candidate N) → Option Next}

/-- Trying the levels from the longest prefix down is trying every prefix
length, since absent groups have nothing to find. -/
lemma findPrefix_prefixLevels {w : ℕ} (ma : ℕ → BitVec w) (gr : PrefixGroups w N)
    (hb : ∀ p b, w < p → gr.get p b = none) (bi : BitVec w) :
    findPrefix bi (prefixLevels ma buildNext gr) = (List.range (w+1)).findSome? fun i =>
        (gr.get (w - i) (bi &&& ma (w - i))).bind buildNext := by
  have hl : findPrefix bi (prefixLevels ma buildNext gr) =
      (descending gr).findSome? fun e => (e.2.lookup (bi &&& ma e.1)).bind buildNext := by
    rw [findPrefix,prefixLevels,findSome?_filterMap]
    congr 1
    funext e
    rw [← lookup_mapGroups buildNext e.2]
    dsimp only [buildGroupMap]
    split_ifs with he
    · have hn : (mapGroups buildNext e.2).lookup (bi &&& ma e.1) = none := by
        rw [AList.lookup,he]
        rfl
      rw [hn,Option.bind_none]
    · rfl
  rw [hl,findSome?_descending gr (fun p n => (n.lookup (bi &&& ma p)).bind buildNext) w]
  · congr 1
    funext i
    rw [PrefixGroups.get,Option.bind_assoc]
  · intro p n hnt hp
    have hn := hb p (bi &&& ma p) hp
    rw [PrefixGroups.get,hnt,Option.bind_some] at hn
    rw [hn,Option.bind_none]

/-- Selecting by address keeps the candidates of the longest range containing
it, or those without a range rule when no range contains it. -/
lemma ip_selectNext (hnext : Compiles buildNext) (hids : (cs.map fst).Nodup) (ip : IpAddr) :
    (IpMatcher.build cs gtr buildNext).bind (IpMatcher.selectNext ip) =
      buildNext (probeGroup (containing ip) (fun c => rangeKeys (gtr c.2)) cs) := by
  refine level_bind hnext (fun _ => rfl) (fun c h => by simp [rangeKeys,h]) ?_
  obtain ⟨h4,h6⟩ := carriers_of_lt gtr cs
  have hg := get_ipGroups gtr hids
  rw [← probe_or_rest hnext]
  cases ip with
  | v4 bits =>
    change (findPrefix bits _).or _ = _
    rw [wildcardCandidates_ip,findPrefix_prefixLevels,containing,maskedPrefixes,findSome?_map]
    · congr 2
      funext i
      exact congrArg (Option.bind · buildNext) (hg (.v4 ..))
    · exact fun p b hp => (hg (.v4 p b)).trans (h4 p b hp)
  | v6 bits =>
    change (findPrefix bits _).or _ = _
    rw [wildcardCandidates_ip,findPrefix_prefixLevels,containing,maskedPrefixes,findSome?_map]
    · congr 2
      funext i
      exact congrArg (Option.bind · buildNext) (hg (.v6 ..))
    · exact fun p b hp => (hg (.v6 p b)).trans (h6 p b hp)

open NameGroups

open ServerNameMatcher

open SourceIpMatcher

def NameGroups.get (key : Bool × Str) : Option (List (Candidate N)) :=
  if key.1 then groups.wildcardGroups.lookup key.2 else groups.exactGroups.lookup key.2

lemma NameGroups.get_file (gr : NameGroups N) (sn : ServerNameMatch) (key : Bool × Str)
    (c : Candidate N) : (gr.file sn c).get key = if key = serverNameKey sn then
        some (pushUniqueCandidate ((gr.get (serverNameKey sn)).getD []) c)
      else gr.get key := by
  obtain ⟨n,sub⟩ := sn
  obtain ⟨b,o⟩ := key
  cases sub <;> cases b <;> simp [file,get,serverNameKey,lookup_modifyEntry]

@[simp] lemma NameGroups.file_fallbackCandidates (gr : NameGroups N) (sn : ServerNameMatch)
    (c : Candidate N) : (gr.file sn c).fallbackCandidates = gr.fallbackCandidates := by
  unfold file
  split_ifs <;> rfl

lemma fallbackCandidates_name (cs : List (Candidate N)) (g : NameGroups N) :
    (cs.foldl add g).fallbackCandidates = g.fallbackCandidates ++
        cs.filter fun c => decide (c.2.serverNames.map serverNameKey = []) := by
  apply rest_walk fallbackCandidates
  intro m c
  unfold NameGroups.add
  by_cases h : c.2.serverNames = []
  · simp [h]
  · rw [if_neg h,foldl_frame fallbackCandidates fun _ _ =>
      file_fallbackCandidates ..]
    simp [h]

variable {cs : List (Candidate N)}

lemma get_nameGroups (hids : (cs.map fst).Nodup) (key : Bool × Str) :
    (cs.foldl add ⟨∅,∅,[]⟩).get key =
      carriers (fun c => c.2.serverNames.map serverNameKey) cs key := by
  refine get_walk NameGroups.get pushUniqueCandidate fst ?_ pushUniqueCandidate_of_ne hids
    ?_ key
  · intro m c k
    have hf := KeyedGroups.get_file NameGroups.get
      (fun m key c => m.file ⟨key.2,key.1⟩ c) pushUniqueCandidate
      (fun m k j c => get_file m ⟨k.2,k.1⟩ j c) pushUniqueCandidate_idem
      (c.2.serverNames.map serverNameKey) m c k
    rw [← hf,foldl_map]
    unfold NameGroups.add
    split_ifs with h
    · rw [h]
      rfl
    · rfl
  · intro k
    unfold NameGroups.get
    split_ifs <;> rfl

lemma compiles_source : Compiles (N := N) buildSource :=
  compiles_level (compiles_level compiles_fromCandidates)

lemma withRules_selectNext (e w : Table Str SourceIpMatcher)
    (fallback : Option SourceIpMatcher) (s : Str) :
    (withRules e w fallback).selectNext s = ((e.lookup s).or
        ((suffixesAt dot s).findSome? w.lookup)).or fallback := by
  have he : (if w.entries = [] then none
      else (suffixesAt dot s).findSome? w.lookup) =
      (suffixesAt dot s).findSome? fun suffix => w.lookup suffix := by
    split_ifs with h
    · symm
      rw [findSome?_eq_none_iff]
      intro suffix _
      rw [AList.lookup,h]
      rfl
    · rfl
  simp only [ServerNameMatcher.selectNext,he]
  cases e.lookup s with
  | some nx => rfl
  | none =>
    cases (suffixesAt dot s).findSome? fun suffix => w.lookup suffix <;> rfl

/-- Selecting by server name keeps the candidates of the exact name, else of
its longest listed suffix, else those without a name rule. -/
lemma name_selectNext (hids : (cs.map fst).Nodup) (s : Str) :
    (build cs).bind (selectNext s) = buildSource (probeGroup (serverNameProbes s)
        (fun c => c.2.serverNames.map serverNameKey) cs) := by
  refine level_bind compiles_source (fun _ => rfl) (fun c h => by simp [h]) ?_
  have hg := get_nameGroups hids
  have he : ∀ n, (cs.foldl add ⟨∅,∅,[]⟩).exactGroups.lookup n =
      carriers (fun c => c.2.serverNames.map serverNameKey) cs (false, n) :=
    fun n => hg (false, n)
  have hw : ∀ n, (cs.foldl add ⟨∅,∅,[]⟩).wildcardGroups.lookup n =
      carriers (fun c => c.2.serverNames.map serverNameKey) cs (true, n) :=
    fun n => hg (true, n)
  rw [← probe_or_rest compiles_source,withRules_selectNext,serverNameProbes,fallbackCandidates_name]
  simp only [buildGroupMap,lookup_mapGroups,he,hw,findSome?_cons,findSome?_map]
  cases (carriers (fun c : Candidate N => c.2.serverNames.map serverNameKey) cs
    (false, s)).bind buildSource <;> rfl

def restrict (serverName : Str) (source destination : SocketAddr) (cs : List (Candidate N)) :
    List (Candidate N) :=
  let cs := probeGroup [destination.port] (fun c => c.2.destinationPort.toList) cs
  let cs := probeGroup (containing destination.ip)
    (fun c => rangeKeys c.2.destinationPrefixRanges) cs
  let cs := probeGroup (serverNameProbes serverName)
    (fun c => c.2.serverNames.map serverNameKey) cs
  let cs := probeGroup (containing source.ip) (fun c => rangeKeys c.2.sourcePrefixRanges) cs
  probeGroup [source.port] (fun c => c.2.sourcePorts) cs

variable (m : Table ℕ (List (Candidate N))) (c : Candidate N) (k : ℕ)

lemma destPort_file : (c.2.destinationPort.toList.foldl
      (fun m port => modifyEntry m port [] fun group => group++[c]) m).lookup k =
    if k ∈ c.2.destinationPort.toList then some ((m.lookup k).getD []++[c])
    else m.lookup k := by
  cases c.2.destinationPort with
  | none => rfl
  | some port =>
    simp only [Option.toList_some,foldl_cons,foldl_nil,lookup_modifyEntry,mem_singleton]
    split_ifs with h
    · rw [h]
    · rfl

lemma sourcePort_file : (c.2.sourcePorts.foldl
      (fun m port => modifyEntry m port [] fun group => pushUniqueCandidate group c) m).lookup k =
    if k ∈ c.2.sourcePorts then some (pushUniqueCandidate ((m.lookup k).getD []) c)
    else m.lookup k := KeyedGroups.get_file (fun m k => AList.lookup k m)
    (fun m port c => modifyEntry m port [] fun group => pushUniqueCandidate group c)
    pushUniqueCandidate
    (fun _ _ _ _ => lookup_modifyEntry ..) pushUniqueCandidate_idem _ m c k

variable (mr : List (FilterChainMatch N))

lemma nodup_enumerate : ((enumerate mr).map fst).Nodup := by
  have hf : (enumerate mr).map fst = range' 0 mr.length := by
    rw [enumerate,map_map]
    exact zipIdx_map_snd 0 mr
  rw [hf]
  exact nodup_range'

/-- The tree reaches the leaf of the candidates left after five restrictions. -/
lemma select_new (co : DownstreamConnectionMetadata)
    (s : Option Str) : (FilterChainMatcher.new mr).select co s =
      fromCandidates (restrict (s.getD []) co.peerAddress co.localAddress
        (enumerate mr)) := by
  have hids := nodup_enumerate mr
  have hp : Compiles (N := N) SourcePortMatcher.build := compiles_level compiles_fromCandidates
  have hn : Compiles (N := N) build := compiles_level compiles_source
  have hd : Compiles (N := N) DestIpMatcher.buildDest := compiles_level hn
  have hsu : ∀ {K : Type} [DecidableEq K] (p : List K) (ke : Candidate N → List K)
      {cs : List (Candidate N)}, (cs.map fst).Nodup → ((probeGroup p ke cs).map fst).Nodup := by
    intro K _ p ke cs h
    exact ((probeGroup_sublist p ke cs).map fst).nodup h
  have h1 := hsu [co.localAddress.port] (fun c : Candidate N => c.2.destinationPort.toList) hids
  have h2 := hsu (containing co.localAddress.ip)
    (fun c : Candidate N => rangeKeys c.2.destinationPrefixRanges) h1
  have h3 := hsu (serverNameProbes (s.getD []))
    (fun c : Candidate N => c.2.serverNames.map serverNameKey) h2
  have h4 := hsu (containing co.peerAddress.ip)
    (fun c : Candidate N => rangeKeys c.2.sourcePrefixRanges) h3
  calc (FilterChainMatcher.new mr).select co s = (((((DestPortMatcher.build (enumerate mr)).bind
          (selectNext co.localAddress.port)).bind
          (IpMatcher.selectNext co.localAddress.ip)).bind
          (selectNext (s.getD []))).bind
          (IpMatcher.selectNext co.peerAddress.ip)).bind
          (selectNext co.peerAddress.port) := by
        simp only [Option.bind_assoc]
        rfl
    _ = fromCandidates (restrict (s.getD []) co.peerAddress
          co.localAddress (enumerate mr)) := by
        rw [DestPortMatcher.build,port_selectNext (fun _ _ _ => rfl) destPort_file hids hd,
          DestIpMatcher.buildDest,ip_selectNext hn h1,name_selectNext h2,
          buildSource,ip_selectNext hp h3,SourcePortMatcher.build,
          port_selectNext pushUniqueCandidate_of_ne sourcePort_file h4 compiles_fromCandidates]
        rfl

end ArionGateway.FilterChainTree
