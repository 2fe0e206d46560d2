import ArionGateway.ByteStrings
import ArionGateway.KeyedGroups
import Mathlib.Data.Prod.Lex

/-!
# Virtual host selection through the compiled domain table

Host patterns with their scores, the host of a request with its port-stripped form, and
`VirtualHostTable`: exact domains in a hash map, suffix and prefix patterns in lists sorted by
descending length, the wildcard apart. A virtual host is known by its position in the configured
list. `match_single` finds a pattern of greatest score among all patterns except the wildcard.
-/
namespace ArionGateway.HostTable
open ByteStrings KeyedGroups List Prod.Lex
open Prod (snd fst)

inductive MatchHost where
  | wildcard
  | hostPrefix (s : Str)
  | suffix (s : Str)
  | exact (s : Str)
  deriving DecidableEq

inductive MatchHostScoreLPM where
  | wildcard
  | hostPrefix (len : ℕ)
  | suffix (len : ℕ)
  | exact (len : ℕ)
  deriving DecidableEq

/-- The discriminant and the payload, which the derived order compares in turn. -/
def MatchHostScoreLPM.key : MatchHostScoreLPM → ℕ ×ₗ ℕ
  | .wildcard => toLex (0, 0)
  | .hostPrefix len => toLex (1, len)
  | .suffix len => toLex (2, len)
  | .exact len => toLex (3, len)

lemma MatchHostScoreLPM.key_injective : Function.Injective MatchHostScoreLPM.key := by
  intro a b h
  cases a <;> cases b <;> simp_all [MatchHostScoreLPM.key]

instance : LinearOrder MatchHostScoreLPM :=
  LinearOrder.lift' MatchHostScoreLPM.key MatchHostScoreLPM.key_injective

namespace MatchHostScoreLPM

lemma le_iff {a b : MatchHostScoreLPM} : a ≤ b ↔ a.key ≤ b.key := Iff.rfl

@[simp] lemma wildcard_le (a : MatchHostScoreLPM) : wildcard ≤ a := by
  cases a <;> simp [le_iff,key,toLex_le_toLex]

@[simp] lemma hostPrefix_le_hostPrefix {m n : ℕ} : hostPrefix m ≤ hostPrefix n ↔ m ≤ n := by
  simp [le_iff,key,toLex_le_toLex]

@[simp] lemma suffix_le_suffix {m n : ℕ} : suffix m ≤ suffix n ↔ m ≤ n := by
  simp [le_iff,key,toLex_le_toLex]

@[simp] lemma exact_le_exact {m n : ℕ} : exact m ≤ exact n ↔ m ≤ n := by
  simp [le_iff,key,toLex_le_toLex]

@[simp] lemma hostPrefix_le_suffix (m n : ℕ) : hostPrefix m ≤ suffix n := by
  simp [le_iff,key,toLex_le_toLex]

@[simp] lemma hostPrefix_le_exact (m n : ℕ) : hostPrefix m ≤ exact n := by
  simp [le_iff,key,toLex_le_toLex]

@[simp] lemma suffix_le_exact (m n : ℕ) : suffix m ≤ exact n := by
  simp [le_iff,key,toLex_le_toLex]

end MatchHostScoreLPM

structure RequestHost where
  full : Str
  withoutPort : Option Str
  deriving DecidableEq

def rsplitOnce (c : UInt8) : Str → Option (Str × Str)
  | [] => none
  | b::s =>
    match rsplitOnce c s with
    | some (name, rest) => some (b::name, rest)
    | none => if b = c then some ([], s) else none

def isAsciiDigit (b : UInt8) : Bool := decide (48 ≤ b) && decide (b ≤ 57)

def stripPort (host : Str) : Option Str :=
  match rsplitOnce colon host with
  | none => none
  | some (name, port) =>
    if port ≠ [] ∧ port.all isAsciiDigit ∧ (name.getLast? = some closingBracket ∨ colon ∉ name) then
      some name
    else none

def RequestHost.fromHost (full : Str) : RequestHost := ⟨full,stripPort full⟩

def MatchHost.evalLpmHost (host : Str) : MatchHost → Option MatchHostScoreLPM
  | .exact h => if h = stripTrailing dot host then some (.exact h.length) else none
  | .suffix s =>
    if s.length < (stripTrailing dot host).length ∧ endsWith (stripTrailing dot host) s then
      some (.suffix s.length)
    else none
  | .hostPrefix p =>
    if p.length < host.length ∧ startsWith host p then some (.hostPrefix p.length) else none
  | .wildcard => some .wildcard

def MatchHost.evalLpm (host : RequestHost) (domain : MatchHost) : Option MatchHostScoreLPM :=
  (domain.evalLpmHost host.full).or (host.withoutPort.bind fun wp => domain.evalLpmHost wp)

structure VirtualHost where
  domains : List MatchHost
  deriving DecidableEq

structure VirtualHostTable where
  exact : Table Str ℕ
  suffixes : List (Str × ℕ)
  prefixes : List (Str × ℕ)
  wildcard : Option ℕ

def VirtualHostTable.addDomain (vh : ℕ) (table : VirtualHostTable) (domain : MatchHost) :
    VirtualHostTable :=
  match domain with
  | .exact h => { table with exact := modifyEntry table.exact h vh id }
  | .suffix s => { table with suffixes := table.suffixes++[(s, vh)] }
  | .hostPrefix p => { table with prefixes := table.prefixes++[(p, vh)] }
  | .wildcard => { table with wildcard := table.wildcard.or (some vh) }

/-- `sort_by_key(|(a, _)| Reverse(a.len()))`, a stable sort. -/
def sortByLength (rules : List (Str × ℕ)) : List (Str × ℕ) :=
  rules.insertionSort fun a b => b.1.length ≤ a.1.length

def VirtualHostTable.compile (virtualHosts : List VirtualHost) : VirtualHostTable :=
  let table := virtualHosts.zipIdx.foldl
    (fun table (vh, i) => vh.domains.foldl (VirtualHostTable.addDomain i) table) ⟨∅,[],[],none⟩
  { table with
    suffixes := sortByLength table.suffixes
    prefixes := sortByLength table.prefixes }

def VirtualHostTable.matchSingle (table : VirtualHostTable) (rawHost : Str) :
    Option (MatchHostScoreLPM × ℕ) :=
  let stripped := stripTrailing dot rawHost
  match table.exact.lookup stripped with
  | some vh => some (.exact stripped.length, vh)
  | none =>
    match table.suffixes.find? fun rule =>
        decide (rule.1.length < stripped.length) && endsWith stripped rule.1 with
    | some (suffix, vh) => some (.suffix suffix.length, vh)
    | none =>
      match table.prefixes.find? fun rule =>
          decide (rule.1.length < rawHost.length) && startsWith rawHost rule.1 with
      | some (hostPrefix, vh) => some (.hostPrefix hostPrefix.length, vh)
      | none => none

def VirtualHostTable.select (table : VirtualHostTable) (host : RequestHost) : Option ℕ :=
  let fullMatch := table.matchSingle host.full
  match fullMatch with
  | some (.exact _, fullVh) => some fullVh
  | _ =>
    let matched :=
      match fullMatch, host.withoutPort.bind table.matchSingle with
      | some (fullScore, fullVh), some (wpScore, wpVh) =>
        if fullScore < wpScore then some wpVh else some fullVh
      | some (_, vh), none | none, some (_, vh) => some vh
      | none, none => none
    matched.or table.wildcard

open MatchHost

def MatchHost.score : MatchHost → MatchHostScoreLPM
  | .wildcard => .wildcard
  | .hostPrefix p => .hostPrefix p.length
  | .suffix s => .suffix s.length
  | .exact h => .exact h.length

/-- A pattern matches a host: exact names and suffixes ignore one trailing dot,
and the star of a suffix or prefix pattern never stands for nothing. -/
def MatchHost.Matches (host : Str) : MatchHost → Prop
  | .exact h => h = stripTrailing dot host
  | .suffix s => s.length < (stripTrailing dot host).length ∧ s <:+ stripTrailing dot host
  | .hostPrefix p => p.length < host.length ∧ p <+: host
  | .wildcard => True

variable {host : Str} {d : MatchHost} {s : MatchHostScoreLPM}

lemma MatchHost.evalLpmHost_eq_some_iff :
    d.evalLpmHost host = some s ↔ s = d.score ∧ d.Matches host := by
  cases d <;> simp only [evalLpmHost,score,MatchHost.Matches,
    endsWith_iff,startsWith_iff,Option.ite_none_right_eq_some,Option.some.injEq,and_true]
  · exact eq_comm
  · rw [and_comm,eq_comm]
  · rw [and_comm,eq_comm]
  · rw [and_comm,eq_comm]

lemma MatchHost.evalLpm_eq_some_iff {host : RequestHost} : d.evalLpm host = some s ↔
      s = d.score ∧ (d.Matches host.full ∨ ∃ wp, host.withoutPort = some wp ∧ d.Matches wp) := by
  have hfu : d.evalLpmHost host.full = none ↔ ¬ d.Matches host.full := by
    rw [Option.eq_none_iff_forall_ne_some]
    simp [evalLpmHost_eq_some_iff]
  rw [evalLpm,Option.or_eq_some_iff,hfu,Option.bind_eq_some_iff]
  simp only [evalLpmHost_eq_some_iff]
  constructor
  · rintro (⟨hs,hm⟩ | ⟨-,wp,hwp,hs,hm⟩)
    · exact ⟨hs,.inl hm⟩
    · exact ⟨hs,.inr ⟨wp,hwp,hm⟩⟩
  · rintro ⟨hs,hm⟩
    by_cases hf : d.Matches host.full
    · exact .inl ⟨hs,hf⟩
    · obtain ⟨wp,hwp,hm⟩ := hm.resolve_left hf
      exact .inr ⟨hf,wp,hwp,hs,hm⟩

lemma MatchHost.eq_of_score_eq {e : MatchHost} (hd : d.Matches host) (he : e.Matches host)
    (hsc : d.score = e.score) : d = e := by
  cases d <;> cases e <;>
    simp only [score,reduceCtorEq,MatchHostScoreLPM.hostPrefix.injEq,
      MatchHostScoreLPM.suffix.injEq] at hsc
  case wildcard.wildcard => rfl
  case hostPrefix.hostPrefix p q =>
      rw [prefix_of_prefix_length_le hd.2 he.2 hsc.le |>.eq_of_length hsc]
  case suffix.suffix s t =>
      rw [suffix_of_suffix_length_le hd.2 he.2 hsc.le |>.eq_of_length hsc]
  case exact.exact g h =>
      rw [show g = _ from hd,show h = _ from he]

lemma MatchHost.matches_suffix_iff {s : Str} :
    (decide (s.length < (stripTrailing dot host).length) && endsWith (stripTrailing dot host) s) =
      true ↔ MatchHost.Matches host (.suffix s) := by
  rw [Bool.and_eq_true,decide_eq_true_eq,endsWith_iff]
  rfl

lemma MatchHost.matches_hostPrefix_iff {p : Str} :
    (decide (p.length < host.length) && startsWith host p) = true ↔
      MatchHost.Matches host (.hostPrefix p) := by
  rw [Bool.and_eq_true,decide_eq_true_eq,startsWith_iff]
  rfl

lemma rsplitOnce_eq_some {c : UInt8} {s n rest : Str} (h : rsplitOnce c s = some (n, rest)) :
    s = n++c::rest := by
  induction s generalizing n with
  | nil => cases h
  | cons b s ih =>
    rw [rsplitOnce] at h
    split at h
    · rename_i hs
      cases h
      rw [ih hs]
      rfl
    · split_ifs at h with hb
      cases h
      rw [hb]
      rfl

lemma stripPort_eq_some {host n : Str} (h : stripPort host = some n) :
    ∃ p, host = n++colon::p ∧ p ≠ [] ∧ p.all isAsciiDigit := by
  unfold stripPort at h
  split at h
  · cases h
  · rename_i be p hs
    split_ifs at h with hp
    cases h
    exact ⟨p,rsplitOnce_eq_some hs,hp.1,hp.2.1⟩

lemma stripTrailing_of_stripPort {host n : Str} (h : stripPort host = some n) :
    stripTrailing dot host = host := by
  obtain ⟨p,rfl,hne,hd⟩ := stripPort_eq_some h
  apply if_neg
  rw [getLast?_append_of_ne_nil _ (by simp),getLast?_cons_of_ne_nil hne]
  intro hl
  have hdi := all_eq_true.mp hd dot (mem_of_getLast? hl)
  exact nomatch hdi

open VirtualHostTable (addDomain compile matchSingle)
variable {virtualHosts : List VirtualHost} {i : ℕ}

/-- All domains in declaration order, with the position of their virtual host. -/
def placedDomains (virtualHosts : List VirtualHost) : List (ℕ × MatchHost) :=
  virtualHosts.zipIdx.flatMap fun (vh, i) => vh.domains.map fun d => (i, d)

lemma mem_placedDomains : (i, d) ∈ placedDomains virtualHosts ↔
    ∃ vh, virtualHosts[i]? = some vh ∧ d ∈ vh.domains := by
  simp only [placedDomains,mem_flatMap,mem_map,Prod.mk.injEq]
  constructor
  · rintro ⟨⟨vh,j⟩,hm,e,he,rfl,rfl⟩
    exact ⟨vh,mem_zipIdx_iff_getElem?.mp hm,he⟩
  · rintro ⟨vh,hvh,hd⟩
    exact ⟨(vh, i),mem_zipIdx_iff_getElem?.mpr hvh,d,hd,rfl,rfl⟩

def DistinctDomains (virtualHosts : List VirtualHost) : Prop :=
  (virtualHosts.flatMap VirtualHost.domains).Nodup

lemma placedDomains_unique (h : DistinctDomains virtualHosts) {j : ℕ}
    (hi : (i, d) ∈ placedDomains virtualHosts) (hj : (j, d) ∈ placedDomains virtualHosts) :
    i = j := by
  have hsn : (placedDomains virtualHosts).map snd = virtualHosts.flatMap VirtualHost.domains := by
    have hf := zipIdx_map_fst 0 virtualHosts
    rw [placedDomains,map_flatMap]
    simp only [map_map,Function.comp_def,map_id']
    rw [← flatMap_map fst VirtualHost.domains,hf]
  have hn : ((placedDomains virtualHosts).map snd).Nodup := hsn ▸ h
  exact congrArg fst (inj_on_of_nodup_map hn hi hj rfl)

lemma compile_loop (table : VirtualHostTable) : virtualHosts.zipIdx.foldl
      (fun table (vh, i) => vh.domains.foldl (addDomain i) table) table =
    (placedDomains virtualHosts).foldl (fun table (i, d) => table.addDomain i d) table := by
  rw [placedDomains,foldl_flatMap]
  simp only [foldl_map]

variable (ds : List (ℕ × MatchHost)) (t : VirtualHostTable)

lemma mem_affixes_loop {s : Str} :
    ((s, i) ∈ (ds.foldl (fun t (i, d) => t.addDomain i d) t).suffixes ↔
      (s, i) ∈ t.suffixes ∨ (i, .suffix s) ∈ ds) ∧
    ((s, i) ∈ (ds.foldl (fun t (i, d) => t.addDomain i d) t).prefixes ↔
      (s, i) ∈ t.prefixes ∨ (i, .hostPrefix s) ∈ ds) := by
  induction ds generalizing t with
  | nil => simp
  | cons x ds ih =>
    obtain ⟨j,d⟩ := x
    rw [foldl_cons,(ih _).1,(ih _).2]
    cases d <;> simp [addDomain,or_assoc,and_comm]

lemma lookup_exact_loop (h : Str) : (ds.foldl (fun t (i, d) => t.addDomain i d) t).exact.lookup h =
      (t.exact.lookup h).or ((ds.find? fun x => decide (x.2 = .exact h)).map fst) := by
  induction ds generalizing t with
  | nil => simp
  | cons x ds ih =>
    obtain ⟨j,d⟩ := x
    rw [foldl_cons,ih]
    cases d with
    | exact g =>
      simp only [addDomain,lookup_modifyEntry]
      by_cases hg : g = h
      · subst hg
        cases t.exact.lookup g <;> simp
      · simp [hg,Ne.symm hg]
    | _ => simp [addDomain]

lemma wildcard_loop : (ds.foldl (fun t (i, d) => t.addDomain i d) t).wildcard =
      t.wildcard.or ((ds.find? fun x => decide (x.2 = .wildcard)).map fst) := by
  induction ds generalizing t with
  | nil => simp
  | cons x ds ih =>
    obtain ⟨j,d⟩ := x
    rw [foldl_cons,ih]
    cases d with
    | _ => simp [addDomain]

lemma mem_suffixes {s : Str} :
    (s, i) ∈ (compile virtualHosts).suffixes ↔ (i, .suffix s) ∈ placedDomains virtualHosts := by
  simp [compile,sortByLength,compile_loop,(mem_affixes_loop ..).1]

lemma mem_prefixes {p : Str} :
    (p, i) ∈ (compile virtualHosts).prefixes ↔ (i, .hostPrefix p) ∈ placedDomains virtualHosts := by
  simp [compile,sortByLength,compile_loop,(mem_affixes_loop ..).2]

lemma lookup_exact (h : Str) : (compile virtualHosts).exact.lookup h =
    ((placedDomains virtualHosts).find? fun x => decide (x.2 = .exact h)).map fst := by
  simp [compile,compile_loop,lookup_exact_loop]

lemma wildcard_compile : (compile virtualHosts).wildcard =
    ((placedDomains virtualHosts).find? fun x => decide (x.2 = .wildcard)).map fst := by
  simp [compile,compile_loop,wildcard_loop]

lemma find?_domain
    (h : ((placedDomains virtualHosts).find? fun x => decide (x.2 = d)).map fst = some i) :
    (i, d) ∈ placedDomains virtualHosts := by
  obtain ⟨⟨j,e⟩,hf,rfl⟩ := Option.map_eq_some_iff.mp h
  have he := find?_some hf
  simp only [decide_eq_true_eq] at he
  exact he ▸ mem_of_find?_eq_some hf

lemma find?_domain_none
    (h : ((placedDomains virtualHosts).find? fun x => decide (x.2 = d)).map fst = none) :
    (i, d) ∉ placedDomains virtualHosts := by
  rw [Option.map_eq_none_iff,find?_eq_none] at h
  intro hm
  simpa using h _ hm

lemma find?_sortByLength {r : List (Str × ℕ)} {p : Str × ℕ → Bool} {ru : Str × ℕ}
    (h : (sortByLength r).find? p = some ru) :
    ∀ o ∈ sortByLength r, p o = true → o.1.length ≤ ru.1.length := by
  have hso : (sortByLength r).Pairwise fun a b => b.1.length ≤ a.1.length := by
    exact pairwise_insertionSort ..
  obtain ⟨-,before,after,heq,hb⟩ := find?_eq_some_iff_append.mp h
  rw [heq] at hso ⊢
  intro o ho hp
  rcases mem_append.mp ho with hm | hm
  · have hno := hb o hm
    rw [hp] at hno
    cases hno
  · rcases mem_cons.mp hm with rfl | hm
    · exact le_refl _
    · exact (pairwise_cons.mp (pairwise_append.mp hso).2.1).1 o hm

/-- A virtual host with a pattern of greatest score for a host string, the
wildcard left aside. -/
def IsBest (virtualHosts : List VirtualHost) (host : Str) (score : MatchHostScoreLPM) (i : ℕ) :
    Prop :=
  (∃ d, (i, d) ∈ placedDomains virtualHosts ∧ d ≠ .wildcard ∧ d.Matches host ∧ score = d.score) ∧
    ∀ j e, (j, e) ∈ placedDomains virtualHosts → e ≠ .wildcard → e.Matches host → e.score ≤ score

section

variable
    (hex : ∀ j h, (j, .exact h) ∈ placedDomains virtualHosts → ¬ MatchHost.Matches host (.exact h))
include hex

lemma isBest_suffix {s : Str} (h : ((compile virtualHosts).suffixes.find? fun r =>
      decide (r.1.length < (stripTrailing dot host).length) &&
        endsWith (stripTrailing dot host) r.1) = some (s, i)) :
    IsBest virtualHosts host (.suffix s.length) i := by
  have hm := find?_some h
  refine ⟨⟨_,mem_suffixes.mp (mem_of_find?_eq_some h),by simp,matches_suffix_iff.mp hm,rfl⟩,?_⟩
  intro j e he hne hem
  cases e with
  | wildcard => exact absurd rfl hne
  | exact g => exact absurd hem (hex j g he)
  | hostPrefix p => simp [score]
  | suffix t =>
    apply MatchHostScoreLPM.suffix_le_suffix.mpr
    exact find?_sortByLength h (t, j) (mem_suffixes.mpr he) (matches_suffix_iff.mpr hem)

lemma isBest_hostPrefix {p : Str} (hsu : ∀ j t, (j, .suffix t) ∈ placedDomains virtualHosts →
      ¬ MatchHost.Matches host (.suffix t)) (h : ((compile virtualHosts).prefixes.find? fun r =>
      decide (r.1.length < host.length) && startsWith host r.1) = some (p, i)) :
    IsBest virtualHosts host (.hostPrefix p.length) i := by
  have hm := find?_some h
  refine ⟨⟨_,mem_prefixes.mp (mem_of_find?_eq_some h),by simp,matches_hostPrefix_iff.mp hm,rfl⟩,?_⟩
  intro j e he hne hem
  cases e with
  | wildcard => exact absurd rfl hne
  | exact g => exact absurd hem (hex j g he)
  | suffix t => exact absurd hem (hsu j t he)
  | hostPrefix q =>
    apply MatchHostScoreLPM.hostPrefix_le_hostPrefix.mpr
    exact find?_sortByLength h (q, j) (mem_prefixes.mpr he)
      (matches_hostPrefix_iff.mpr hem)

end

lemma matchSingle_spec (v : List VirtualHost) (host : Str) : match (compile v).matchSingle host with
    | some (score, i) => IsBest v host score i
    | none => ∀ j e, (j, e) ∈ placedDomains v → e ≠ .wildcard → ¬ e.Matches host := by
  unfold matchSingle
  dsimp only
  rw [lookup_exact]
  cases hf : ((placedDomains v).find? fun x =>
      decide (x.2 = .exact (stripTrailing dot host))).map fst with
  | some i =>
    refine ⟨⟨_,find?_domain hf,by simp,rfl,rfl⟩,fun j e _ _ he => ?_⟩
    cases e with
    | exact g => exact MatchHostScoreLPM.exact_le_exact.mpr (congrArg length he).le
    | _ => simp [score]
  | none =>
    have hexact : ∀ j h, (j, .exact h) ∈ placedDomains v → ¬ MatchHost.Matches host (.exact h) := by
      intro j h hme (hm : h = _)
      exact find?_domain_none hf (hm ▸ hme)
    cases hsf : (compile v).suffixes.find? fun r =>
        decide (r.1.length < (stripTrailing dot host).length) &&
          endsWith (stripTrailing dot host) r.1 with
    | some r => exact isBest_suffix hexact hsf
    | none =>
      rw [find?_eq_none] at hsf
      have hsu : ∀ j t, (j, .suffix t) ∈ placedDomains v →
          ¬ MatchHost.Matches host (.suffix t) := by
        intro j t hme hm
        exact hsf (t, j) (mem_suffixes.mpr hme) (matches_suffix_iff.mpr hm)
      cases hp : (compile v).prefixes.find? fun r =>
          decide (r.1.length < host.length) && startsWith host r.1 with
      | some r => exact isBest_hostPrefix hexact hsu hp
      | none =>
        rw [find?_eq_none] at hp
        intro j e he hne hem
        cases e with
        | wildcard => exact hne rfl
        | exact h => exact hexact j h he hem
        | suffix t => exact hsu j t he hem
        | hostPrefix q =>
          exact hp (q, j) (mem_prefixes.mpr he) (matches_hostPrefix_iff.mpr hem)

end ArionGateway.HostTable
