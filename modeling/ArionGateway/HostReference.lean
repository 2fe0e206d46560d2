import ArionGateway.FirstMaximum
import ArionGateway.HostTable

/-!
# The linear reference for virtual host selection

The reference scores every virtual host by its best domain, for the full host or else for the
port-stripped one, and keeps the first declared host of greatest score. For pairwise distinct
domains the compiled table agrees except in one situation: the best pattern of either string is a
suffix, the two suffixes have the same length, and the one that matches only without the port was
declared first.
-/
namespace ArionGateway.HostReference
open ByteStrings FirstMaximum HostTable List MatchHost Option
open VirtualHostTable (compile select)

def VirtualHost.bestScore (host : RequestHost) (vh : VirtualHost) : Option MatchHostScoreLPM :=
  (vh.domains.filterMap fun d => d.evalLpm host).max?

open VirtualHost (bestScore)

def referenceSelect (virtualHosts : List VirtualHost) (host : RequestHost) : Option ℕ :=
  (firstMax (fun item : VirtualHost × ℕ => VirtualHost.bestScore host item.1)
    virtualHosts.zipIdx).map fun best => best.2.2

/-- Two suffixes of equal, greatest score, one for each form of the host, and
the one for the port-stripped form belongs to an earlier virtual host. -/
def SuffixTie (virtualHosts : List VirtualHost) (host : RequestHost) : Prop :=
  ∃ wp, host.withoutPort = some wp ∧ ∃ i j s t, (i, .suffix s) ∈ placedDomains virtualHosts ∧
      (j, .suffix t) ∈ placedDomains virtualHosts ∧ j < i ∧ s.length = t.length ∧
      MatchHost.Matches host.full (.suffix s) ∧ MatchHost.Matches wp (.suffix t) ∧
      ∀ k e, (k, e) ∈ placedDomains virtualHosts → (e.Matches host.full ∨ e.Matches wp) →
        e.score ≤ .suffix s.length

variable {virtualHosts : List VirtualHost} {host : RequestHost}

/-- A domain matches a request through either form of its host. -/
def MatchesRequest (host : RequestHost) (d : MatchHost) : Prop :=
  d.Matches host.full ∨ ∃ wp, host.withoutPort = some wp ∧ d.Matches wp

lemma evalLpm_eq_none_iff {d : MatchHost} : d.evalLpm host = none ↔ ¬ MatchesRequest host d := by
  rw [eq_none_iff_forall_ne_some]
  simp [evalLpm_eq_some_iff,MatchesRequest]

lemma bestScore_eq_some_iff {vh : VirtualHost} {score : MatchHostScoreLPM} :
    bestScore host vh = some score ↔ (∃ d ∈ vh.domains, MatchesRequest host d ∧ d.score = score) ∧
        ∀ d ∈ vh.domains, MatchesRequest host d → d.score ≤ score := by
  have hme : ∀ s, s ∈ vh.domains.filterMap (fun d => d.evalLpm host) ↔
      ∃ d ∈ vh.domains, MatchesRequest host d ∧ d.score = s := by
    intro s
    rw [mem_filterMap]
    refine exists_congr fun d => and_congr_right fun _ => ?_
    rw [evalLpm_eq_some_iff,and_comm,eq_comm,MatchesRequest]
  rw [bestScore,max?_eq_some_iff]
  simp [hme,forall_comm (α := MatchHostScoreLPM)]

lemma bestScore_eq_none_iff {vh : VirtualHost} :
    bestScore host vh = none ↔ ∀ d ∈ vh.domains, ¬ MatchesRequest host d := by
  rw [bestScore,max?_eq_none_iff,filterMap_eq_nil_iff]
  exact forall₂_congr fun d _ => evalLpm_eq_none_iff

variable (v : List VirtualHost)

lemma referenceSelect_spec (host : RequestHost) : match referenceSelect v host with
    | some i => ∃ d, (i, d) ∈ placedDomains v ∧ MatchesRequest host d ∧
        ∀ j e, (j, e) ∈ placedDomains v → MatchesRequest host e →
          e.score ≤ d.score ∧ (j < i → e.score < d.score)
    | none => ∀ j e, (j, e) ∈ placedDomains v → ¬ MatchesRequest host e := by
  have hsp := firstMax_spec (fun item : VirtualHost × ℕ => bestScore host item.1) v.zipIdx
  unfold referenceSelect
  cases hma : firstMax (fun item : VirtualHost × ℕ => bestScore host item.1) v.zipIdx with
  | none =>
    rw [hma] at hsp
    intro j e he
    obtain ⟨vh,hvh,he⟩ := mem_placedDomains.mp he
    exact bestScore_eq_none_iff.mp (hsp (vh, j) (mem_zipIdx_iff_getElem?.mpr hvh)) e he
  | some b =>
    obtain ⟨score,vh,i⟩ := b
    rw [hma] at hsp
    have hf : IsFirstMax (fun item : VirtualHost × ℕ => bestScore host item.1)
      v.zipIdx score (vh, i) := hsp
    have hvh := mem_zipIdx_iff_getElem?.mp hf.mem
    obtain ⟨before,after,hl,hbe,hb,-⟩ := id hf
    obtain ⟨⟨d,hd,hm,rfl⟩,-⟩ := bestScore_eq_some_iff.mp hbe
    refine ⟨d,mem_placedDomains.mpr ⟨vh,hvh,hd⟩,hm,?_⟩
    intro j e he hem
    obtain ⟨vh',hv,he⟩ := mem_placedDomains.mp he
    have hme : (vh', j) ∈ v.zipIdx := mem_zipIdx_iff_getElem?.mpr hv
    cases ho : bestScore host vh' with
    | none => exact absurd hem (bestScore_eq_none_iff.mp ho e he)
    | some o =>
      have hle := (bestScore_eq_some_iff.mp ho).2 e he hem
      refine ⟨hle.trans (hf.le hme ho),?_⟩
      intro (hji : j < i)
      have hlen : before.length = i := by
        have hat : v.zipIdx[before.length]? = some (vh, i) := by
          rw [hl]
          simp
        rw [getElem?_zipIdx,zero_add,map_eq_some_iff] at hat
        obtain ⟨_,_,hp⟩ := hat
        exact congrArg Prod.snd hp
      have hea : (vh', j) ∈ before := by
        have hat : v.zipIdx[j]? = some (vh', j) := by
          simp [hv]
        rw [hl,getElem?_append_left (by omega)] at hat
        exact mem_of_getElem? hat
      exact hle.trans_lt (hb _ hea o ho)

variable {full : Str} {score : MatchHostScoreLPM} {t : VirtualHostTable} {i : ℕ}

lemma stripTrailing_length_le (c : UInt8) (s : Str) : (stripTrailing c s).length ≤ s.length := by
  unfold stripTrailing
  split_ifs
  · rw [length_dropLast]
    exact Nat.sub_le ..
  · exact le_refl _

lemma select_of_not_exact (host : RequestHost) (h : t.matchSingle host.full = some (score, i))
    (hne : ∀ len, score ≠ .exact len) : t.select host =
      match host.withoutPort.bind t.matchSingle with
      | some (wpScore, j) => if score < wpScore then some j else some i
      | none => some i := by
  unfold select
  cases hwp : host.withoutPort.bind t.matchSingle with
  | none => cases score <;> simp_all
  | some b => cases score <;> simp_all <;> split_ifs <;> rfl

/-- What `select` returns and why: the full host decides, the port-stripped
host decides because it scores strictly better, or the wildcard is left. -/
inductive Decision (virtualHosts : List VirtualHost) (full : Str) : Option ℕ → Prop
  | byFull {score : MatchHostScoreLPM} {i : ℕ} (best : IsBest virtualHosts full score i)
      (withoutPort : ∀ wp, stripPort full = some wp → ∀ j e, (j, e) ∈ placedDomains virtualHosts →
        e ≠ .wildcard → e.Matches wp → e.score ≤ score) :
      Decision virtualHosts full (some i)
  | byWithoutPort {wp : Str} {score : MatchHostScoreLPM} {i : ℕ}
      (port : stripPort full = some wp) (best : IsBest virtualHosts wp score i)
      (weaker : ∀ j e, (j, e) ∈ placedDomains virtualHosts → e ≠ .wildcard → e.Matches full →
        e.score < score) :
      Decision virtualHosts full (some i)
  | byWildcard
      (unmatched : ∀ j e, (j, e) ∈ placedDomains virtualHosts → e ≠ .wildcard →
        ¬ MatchesRequest (.fromHost full) e) :
      Decision virtualHosts full (compile virtualHosts).wildcard

lemma unmatched_withoutPort (h : (stripPort full).bind (compile virtualHosts).matchSingle = none) :
    ∀ wp, stripPort full = some wp → ∀ j e, (j, e) ∈ placedDomains virtualHosts →
      e ≠ .wildcard → ¬ e.Matches wp := by
  intro wp hp
  have hwp := matchSingle_spec virtualHosts wp
  rwa [bind_eq_none_iff.mp h wp hp] at hwp

lemma best_withoutPort {b : MatchHostScoreLPM × ℕ}
    (h : (stripPort full).bind (compile virtualHosts).matchSingle = some b) :
    ∃ wp, stripPort full = some wp ∧ IsBest virtualHosts wp b.1 b.2 := by
  obtain ⟨wp,hp,hm⟩ := bind_eq_some_iff.mp h
  have hwp := matchSingle_spec virtualHosts wp
  rw [hm] at hwp
  exact ⟨wp,hp,hwp⟩

lemma decision_of_unmatched (h : (compile virtualHosts).matchSingle full = none) :
    Decision virtualHosts full ((compile virtualHosts).select (.fromHost full)) := by
  have hf := matchSingle_spec virtualHosts full
  rw [h] at hf
  unfold select
  dsimp only [RequestHost.fromHost]
  rw [h]
  cases hW : (stripPort full).bind (compile virtualHosts).matchSingle with
  | none =>
    apply Decision.byWildcard
    rintro j e he hne (hm | ⟨wp,hp,hm⟩)
    · exact hf j e he hne hm
    · exact unmatched_withoutPort hW wp hp j e he hne hm
  | some b =>
    obtain ⟨wp,hp,hwp⟩ := best_withoutPort hW
    exact .byWithoutPort hp hwp fun j e he hne hm => absurd hm (hf j e he hne)

lemma decision_of_exact {len : ℕ}
    (h : (compile virtualHosts).matchSingle full = some (.exact len, i)) :
    Decision virtualHosts full ((compile virtualHosts).select (.fromHost full)) := by
  have hb := matchSingle_spec virtualHosts full
  rw [h] at hb
  have hs : (compile virtualHosts).select (.fromHost full) = some i := by
    rw [select,show (RequestHost.fromHost full).full = full from rfl,h]
  rw [hs]
  refine .byFull hb ?_
  intro wp hwp j e _ _ hm
  obtain ⟨d,-,-,hd,hsc⟩ := hb.1
  cases d with
  | exact h =>
    rw [hsc]
    cases e with
    | exact g =>
      apply MatchHostScoreLPM.exact_le_exact.mpr
      obtain ⟨p,hf,-⟩ := stripPort_eq_some hwp
      have hlen : h.length = full.length := by
        rw [show h = _ from hd,stripTrailing_of_stripPort hwp]
      rw [show g = _ from hm,hlen,hf,length_append]
      exact (stripTrailing_length_le dot wp).trans (Nat.le_add_right ..)
    | _ => simp [score]
  | _ => simp [score] at hsc

lemma decision_of_not_exact (h : (compile virtualHosts).matchSingle full = some (score, i))
    (hne : ∀ len, score ≠ .exact len) : Decision virtualHosts full
      ((compile virtualHosts).select (.fromHost full)) := by
  have hb := matchSingle_spec virtualHosts full
  rw [h] at hb
  rw [select_of_not_exact _ h hne]
  dsimp only [RequestHost.fromHost]
  cases hW : (stripPort full).bind (compile virtualHosts).matchSingle with
  | none =>
    refine .byFull hb ?_
    intro wp hp j e he hw hm
    exact absurd hm (unmatched_withoutPort hW wp hp j e he hw)
  | some b =>
    obtain ⟨wp,hp,hwp⟩ := best_withoutPort hW
    dsimp only
    split_ifs with hlt
    · exact .byWithoutPort hp hwp fun j e he hw hm => (hb.2 j e he hw hm).trans_lt hlt
    · refine .byFull hb ?_
      intro wp' hw' j e he hw hm
      cases hp.symm.trans hw'
      exact (hwp.2 j e he hw hm).trans (not_lt.mp hlt)

lemma decision_select (f : Str) : Decision v f ((compile v).select (.fromHost f)) := by
  cases h : (compile v).matchSingle f with
  | none => exact decision_of_unmatched h
  | some b =>
    obtain ⟨score,i⟩ := b
    cases score with
    | exact len => exact decision_of_exact h
    | _ => exact decision_of_not_exact h nofun

variable {d : MatchHost} {sc : MatchHostScoreLPM}

lemma wildcard_lt_score (h : d ≠ .wildcard) : wildcard.score < d.score := by
  refine lt_of_le_of_ne (MatchHostScoreLPM.wildcard_le _) ?_
  cases d <;> simp_all [score]

/-- Different patterns of equal score, one matching the full host and the other
only the port-stripped host, are suffixes: equally long prefixes of both hosts
are equal, and an exact match of the full host is longer. -/
lemma suffix_of_score_eq {wp : Str} (hp : stripPort full = some wp) {e : MatchHost}
    (hd : d.Matches full) (he : e.Matches wp) (hw : d ≠ .wildcard) (hsc : d.score = e.score)
    (hne : d ≠ e) : ∃ s t, d = .suffix s ∧ e = .suffix t ∧ s.length = t.length := by
  obtain ⟨po,hf,-⟩ := stripPort_eq_some hp
  cases d <;> cases e <;>
    simp only [score,reduceCtorEq,MatchHostScoreLPM.hostPrefix.injEq,
      MatchHostScoreLPM.suffix.injEq,MatchHostScoreLPM.exact.injEq] at hsc
  case wildcard.wildcard => exact absurd rfl hw
  case hostPrefix.hostPrefix p q =>
      have hq : q <+: full := he.2.trans ⟨colon::po,hf.symm⟩
      have hpq := (prefix_of_prefix_length_le hd.2 hq hsc.le).eq_of_length hsc
      exact absurd (congrArg hostPrefix hpq) hne
  case suffix.suffix s t => exact ⟨s,t,rfl,rfl,hsc⟩
  case exact.exact g h =>
      have hg : g.length = full.length := by
        rw [show g = _ from hd,stripTrailing_of_stripPort hp]
      have hh : h.length ≤ wp.length := by
        rw [show h = _ from he]
        exact stripTrailing_length_le dot wp
      have hlen := congrArg length hf
      rw [length_append,length_cons] at hlen
      omega

/-- The reference never picks a later virtual host than the table, and an
earlier one exactly for a suffix tie. -/
lemma reference_of_select {i : ℕ} (hdistinct : DistinctDomains virtualHosts)
    (hd : (i, d) ∈ placedDomains virtualHosts) (hw : d ≠ .wildcard)
    (hm : MatchesRequest (.fromHost full) d)
    (hma : ∀ j e, (j, e) ∈ placedDomains virtualHosts → e ≠ .wildcard →
      MatchesRequest (.fromHost full) e → e.score ≤ d.score) :
    ∃ j e, referenceSelect virtualHosts (.fromHost full) = some j ∧ j ≤ i ∧
      (j, e) ∈ placedDomains virtualHosts ∧ MatchesRequest (.fromHost full) e ∧
      e.score = d.score ∧ (j < i → d ≠ e) ∧
      ∀ k f, (k, f) ∈ placedDomains virtualHosts → MatchesRequest (.fromHost full) f →
        k < j → f.score < d.score := by
  have hsp := referenceSelect_spec virtualHosts (.fromHost full)
  cases hr : referenceSelect virtualHosts (.fromHost full) with
  | none =>
    rw [hr] at hsp
    exact absurd hm (hsp i d hd)
  | some j =>
    rw [hr] at hsp
    obtain ⟨e,he,hem,hb⟩ := hsp
    have hle := (hb i d hd hm).1
    have hew : e ≠ .wildcard := by
      rintro rfl
      exact absurd hle (not_le.mpr (wildcard_lt_score hw))
    have hsc : e.score = d.score := le_antisymm (hma j e he hew hem) hle
    refine ⟨j,e,rfl,?_,he,hem,hsc,?_,?_⟩
    · by_contra hlt
      have := (hb i d hd hm).2 (not_le.mp hlt)
      exact absurd hsc this.ne'
    · rintro hlt rfl
      exact absurd (placedDomains_unique hdistinct hd he) hlt.ne'
    · intro k f hf hfm hk
      exact hsc ▸ (hb k f hf hfm).2 hk

lemma forall_evalLpm_none_iff {host : RequestHost} :
    (∀ vh ∈ virtualHosts, ∀ d ∈ vh.domains, d.evalLpm host = none) ↔
      ∀ j e, (j, e) ∈ placedDomains virtualHosts → ¬ MatchesRequest host e := by
  simp only [evalLpm_eq_none_iff]
  constructor
  · intro h j e he
    obtain ⟨vh,hvh,he⟩ := mem_placedDomains.mp he
    exact h vh (mem_of_getElem? hvh) e he
  · intro h vh hvh d hd
    obtain ⟨j,hj⟩ := mem_iff_getElem?.mp hvh
    exact h j d (mem_placedDomains.mpr ⟨vh,hj,hd⟩)

lemma find?_wildcard_none
    (h : ∀ j e, (j, e) ∈ placedDomains virtualHosts → ¬ MatchesRequest (.fromHost full) e) :
    ((placedDomains virtualHosts).find? fun x => decide (x.2 = .wildcard)).map Prod.fst = none := by
  rw [map_eq_none_iff,find?_eq_none]
  intro x hx hw
  have hw : x.2 = .wildcard := by simpa using hw
  exact h x.1 x.2 hx (.inl (hw ▸ trivial))

lemma select_eq_none_iff (f : Str) : (compile v).select (.fromHost f) = none ↔
      ∀ j e, (j, e) ∈ placedDomains v → ¬ MatchesRequest (.fromHost f) e := by
  have hde := decision_select v f
  generalize (compile v).select (.fromHost f) = selected at hde ⊢
  cases hde with
  | byFull hb =>
    obtain ⟨d,hd,-,hm,-⟩ := hb.1
    exact iff_of_false nofun fun h => h _ d hd (.inl hm)
  | byWithoutPort hp hb =>
    obtain ⟨d,hd,-,hm,-⟩ := hb.1
    exact iff_of_false nofun fun h => h _ d hd (.inr ⟨_,hp,hm⟩)
  | byWildcard hno =>
    rw [wildcard_compile]
    constructor
    · intro hn j e he
      by_cases hw : e = .wildcard
      · exact absurd (hw ▸ he) (find?_domain_none hn)
      · exact hno j e he hw
    · intro h
      exact find?_wildcard_none h

section

variable (hdt : DistinctDomains virtualHosts)
include hdt

lemma agree_of_full {i : ℕ} (hbe : IsBest virtualHosts full sc i)
    (hwp : ∀ wp, stripPort full = some wp → ∀ j e, (j, e) ∈ placedDomains virtualHosts →
      e ≠ .wildcard → e.Matches wp → e.score ≤ sc) :
    some i = referenceSelect virtualHosts (.fromHost full) ↔
      ¬ SuffixTie virtualHosts (.fromHost full) := by
  obtain ⟨⟨d,hd,hw,hm,rfl⟩,hfu⟩ := hbe
  have hma : ∀ j e, (j, e) ∈ placedDomains virtualHosts → e ≠ .wildcard →
      MatchesRequest (.fromHost full) e → e.score ≤ d.score := by
    rintro j e he hne (hem | ⟨wp,hp,hem⟩)
    · exact hfu j e he hne hem
    · exact hwp wp hp j e he hne hem
  obtain ⟨j,e,hr,hji,he,hem,hsc,hdi,hea⟩ := reference_of_select hdt hd hw (.inl hm) hma
  rw [hr,some.injEq]
  constructor
  · rintro rfl ⟨wp,hp,k,l,s,t,hs,ht,hlk,hlen,hsm,htm,hb⟩
    have hds : d.score = .suffix s.length :=
      le_antisymm (hb i d hd (.inl hm)) (hfu k _ hs nofun hsm)
    have hde : d = .suffix s := eq_of_score_eq hm hsm hds
    have hki : k = i := placedDomains_unique hdt hs (hde ▸ hd)
    have hlt := hea l _ ht (.inr ⟨wp,hp,htm⟩) (hki ▸ hlk)
    rw [hds,hlen] at hlt
    exact absurd hlt (lt_irrefl _)
  · intro hno
    by_contra hij
    have hlt : j < i := lt_of_le_of_ne hji (Ne.symm hij)
    have hne := hdi hlt
    rcases hem with hem | ⟨wp,hp,hem⟩
    · exact hne (eq_of_score_eq hm hem hsc.symm)
    · obtain ⟨s,t,rfl,rfl,hlen⟩ := suffix_of_score_eq hp hm hem hw hsc.symm hne
      refine hno ⟨wp,hp,i,j,s,t,hd,he,hlt,hlen,hm,hem,?_⟩
      intro k f hf hfm
      by_cases hfw : f = .wildcard
      · rw [hfw]
        exact MatchHostScoreLPM.wildcard_le _
      · refine hma k f hf hfw (hfm.imp_right fun h => ⟨wp,hp,h⟩)

lemma agree_of_withoutPort {wp : Str} (hpo : stripPort full = some wp) {i : ℕ}
    (hbe : IsBest virtualHosts wp sc i)
    (hlt : ∀ j e, (j, e) ∈ placedDomains virtualHosts → e ≠ .wildcard → e.Matches full →
      e.score < sc) : some i = referenceSelect virtualHosts (.fromHost full) ∧
      ¬ SuffixTie virtualHosts (.fromHost full) := by
  obtain ⟨⟨d,hd,hw,hm,rfl⟩,hwp⟩ := hbe
  have hma : ∀ j e, (j, e) ∈ placedDomains virtualHosts → e ≠ .wildcard →
      MatchesRequest (.fromHost full) e → e.score ≤ d.score := by
    rintro j e he hne (hem | ⟨wp',hp,hem⟩)
    · exact (hlt j e he hne hem).le
    · cases hpo.symm.trans hp
      exact hwp j e he hne hem
  obtain ⟨j,e,hr,hji,he,hem,hsc,hdi,-⟩ := reference_of_select hdt hd hw (.inr ⟨wp,hpo,hm⟩) hma
  constructor
  · rw [hr,some.injEq]
    by_contra hij
    have hne := hdi (lt_of_le_of_ne hji (Ne.symm hij))
    rcases hem with hem | ⟨wp',hp,hem⟩
    · have hew : e ≠ .wildcard := by
        rintro rfl
        exact absurd hsc (wildcard_lt_score hw).ne
      exact absurd hsc (hlt j e he hew hem).ne
    · cases hpo.symm.trans hp
      exact hne (eq_of_score_eq hm hem hsc.symm)
  · rintro ⟨wp',hp,k,l,s,t,hs,ht,-,-,hsm,-,hb⟩
    cases hpo.symm.trans hp
    exact absurd (hb i d hd (.inr hm)) (not_le.mpr (hlt k _ hs nofun hsm))

lemma agree_of_wildcard (hno : ∀ j e, (j, e) ∈ placedDomains virtualHosts → e ≠ .wildcard →
      ¬ MatchesRequest (.fromHost full) e) :
    (compile virtualHosts).wildcard = referenceSelect virtualHosts (.fromHost full) ∧
      ¬ SuffixTie virtualHosts (.fromHost full) := by
  constructor
  · have hsp := referenceSelect_spec virtualHosts (.fromHost full)
    rw [wildcard_compile]
    cases hr : referenceSelect virtualHosts (.fromHost full) with
    | none =>
      rw [hr] at hsp
      exact find?_wildcard_none hsp
    | some i =>
      rw [hr] at hsp
      obtain ⟨d,hd,hm,-⟩ := hsp
      have hw : d = .wildcard := by
        by_contra hne
        exact hno i d hd hne hm
      cases hf : ((placedDomains virtualHosts).find? fun x =>
          decide (x.2 = .wildcard)).map Prod.fst with
      | none => exact absurd (hw ▸ hd) (find?_domain_none hf)
      | some k =>
        rw [placedDomains_unique hdt (find?_domain hf) (hw ▸ hd)]
  · rintro ⟨wp,-,k,l,s,t,hs,-,-,-,hsm,-,-⟩
    exact hno k _ hs nofun (.inl hsm)

end

/-- For pairwise distinct domains the compiled table returns the virtual host
of the reference, and none exactly without a match, unless there is a tie of
suffixes. -/
theorem select_eq_reference_iff (virtualHosts : List VirtualHost)
    (hdistinct : DistinctDomains virtualHosts) (full : Str) :
    ((compile virtualHosts).select (.fromHost full) =
        referenceSelect virtualHosts (.fromHost full) ∧
      ((compile virtualHosts).select (.fromHost full) = none ↔
        ∀ vh ∈ virtualHosts, ∀ d ∈ vh.domains, d.evalLpm (.fromHost full) = none)) ↔
      ¬ SuffixTie virtualHosts (.fromHost full) := by
  have hn := (select_eq_none_iff virtualHosts full).trans forall_evalLpm_none_iff.symm
  rw [and_iff_left hn]
  have hd := decision_select virtualHosts full
  generalize (compile virtualHosts).select (.fromHost full) = selected at hd ⊢
  cases hd with
  | byFull hb hwp => exact agree_of_full hdistinct hb hwp
  | byWithoutPort hp hb hlt =>
    have ha := agree_of_withoutPort hdistinct hp hb hlt
    exact iff_of_true ha.1 ha.2
  | byWildcard hno =>
    have ha := agree_of_wildcard hdistinct hno
    exact iff_of_true ha.1 ha.2

def portTie : List VirtualHost := [⟨[.suffix (str ".test.com")]⟩,⟨[.suffix (str ".com:8080")]⟩]

theorem select_eq_reference_portTie :
    DistinctDomains portTie ∧ (((compile portTie).select (.fromHost (str "a.test.com")) =
        referenceSelect portTie (.fromHost (str "a.test.com")) ∧
      ((compile portTie).select (.fromHost (str "a.test.com")) = none ↔
        ∀ vh ∈ portTie, ∀ d ∈ vh.domains, d.evalLpm (.fromHost (str "a.test.com")) = none)) ↔
      ¬ SuffixTie portTie (.fromHost (str "a.test.com"))) :=
  have hdistinct : DistinctDomains portTie := by unfold DistinctDomains; decide
  ⟨hdistinct,select_eq_reference_iff portTie hdistinct (str "a.test.com")⟩

/-- The table returns the later virtual host, the reference the first one. -/
theorem select_ne_reference_portTie :
    DistinctDomains portTie ∧
      (compile portTie).select (.fromHost (str "a.test.com:8080")) = some 1 ∧
      referenceSelect portTie (.fromHost (str "a.test.com:8080")) = some 0 := by
  refine ⟨by unfold DistinctDomains; decide,by decide,by decide⟩

end ArionGateway.HostReference
