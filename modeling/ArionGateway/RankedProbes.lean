import Mathlib.Data.List.MinMax

/-!
# Candidates ranked by the first probe that hits them

A comparand is looked up through an ordered list of probes, from the most to the least specific
key. A candidate carries a list of keys and is ranked by the position of the first probe among
them. `keepBest` scores every candidate and keeps those with the best score, as a linear scan
does; `probeGroup` asks for the first probe that some candidate carries and keeps its carriers, as
an index does. They agree for every linearly ordered scale of scores.
-/
namespace ArionGateway.RankedProbes
open List

variable {C K S : Type*} {keys : C → List K} {cs : List C}

section
variable [LinearOrder S]

/-- The candidates whose score is greatest, unless that score is a failure. -/
def keepBest (failed : S) (score : C → S) (cs : List C) : List C :=
  cs.filter fun c => decide (score c ≠ failed) && cs.all fun d => decide (score d ≤ score c)

lemma keepBest_congr {fa : S} {f g : C → S} {cs : List C} (h : ∀ c ∈ cs, f c = g c) :
    keepBest fa f cs = keepBest fa g cs := by
  apply filter_congr
  intro c hc
  have ha : (cs.all fun d => decide (f d ≤ f c)) = cs.all fun d => decide (g d ≤ g c) := by
    rw [Bool.eq_iff_iff]
    simp only [all_eq_true]
    constructor
    · intro hd d hm
      rw [← h d hm,← h c hc]
      exact hd d hm
    · intro hd d hm
      rw [h d hm,h c hc]
      exact hd d hm
  rw [ha,h c hc]

lemma keepBest_of_forall_eq {fa s : S} {sc : C → S} {cs : List C} (hs : s ≠ fa)
    (h : ∀ c ∈ cs, sc c = s) : keepBest fa sc cs = cs := by
  apply filter_eq_self.mpr
  intro c hc
  rw [h c hc,Bool.and_eq_true,all_eq_true]
  exact ⟨decide_eq_true hs,fun d hd => decide_eq_true (h d hd).le⟩

end

/-- A scale on which every hit beats having no rule, an earlier hit beats a
later one, and having no rule beats a failure. -/
structure RankScale (S : Type*) [LinearOrder S] where
  failed : S
  noRule : S
  matched : ℕ → S
  failed_lt_noRule : failed < noRule
  noRule_lt_matched : ∀ i, noRule < matched i
  matched_strictAnti : StrictAnti matched

variable [DecidableEq K]

section
variable [LinearOrder S] (R : RankScale S) {keys probes : List K} {k : K}

def RankScale.rank (probes keys : List K) : S :=
  if keys = [] then R.noRule
  else match probes.findIdx? fun k => decide (k ∈ keys) with
    | some i => R.matched i
    | none => R.failed

lemma RankScale.failed_lt_matched (i : ℕ) : R.failed < R.matched i :=
  R.failed_lt_noRule.trans (R.noRule_lt_matched i)

lemma findIdx?_of_miss (h : ∀ a ∈ probes, a ∉ keys) :
    probes.findIdx? (fun a => decide (a ∈ keys)) = none := by
  simpa using h

lemma RankScale.rank_of_first {b af : List K} (hb : ∀ a ∈ b, a ∉ keys) (hk : k ∈ keys) :
    R.rank (b++k::af) keys = R.matched b.length := by
  rw [rank,if_neg (ne_nil_of_mem hk),findIdx?_append,findIdx?_of_miss hb,
    findIdx?_cons,decide_eq_true hk]
  simp

lemma RankScale.rank_of_no_probe (h : ∀ a ∈ probes, a ∉ keys) :
    R.rank probes keys = if keys = [] then R.noRule else R.failed := by
  rw [rank,findIdx?_of_miss h]

lemma RankScale.rank_lt_of_miss {b af : List K} (hb : ∀ a ∈ b, a ∉ keys) (hk : k ∉ keys) :
    R.rank (b++k::af) keys < R.matched b.length := by
  rw [rank,findIdx?_append,findIdx?_of_miss hb,findIdx?_cons,
    decide_eq_false hk,if_neg Bool.false_ne_true]
  split_ifs
  · exact R.noRule_lt_matched _
  · cases af.findIdx? fun a => decide (a ∈ keys) with
    | none => exact R.failed_lt_matched _
    | some i => exact R.matched_strictAnti (Nat.lt_add_of_pos_left i.succ_pos)

def RankScale.keyRank (probes : List K) (k : K) : S :=
  match probes.findIdx? fun a => decide (a = k) with
  | some i => R.matched i
  | none => R.failed

lemma RankScale.keyRank_eq_rank (p : List K) (k : K) : R.keyRank p k = R.rank p [k] := by
  simp [keyRank,rank]

lemma RankScale.max?_keyRank (p keys : List K) :
    (keys.map (R.keyRank p)).max?.getD R.noRule = R.rank p keys := by
  by_cases hn : keys = []
  · subst hn
    rfl
  suffices h : ∃ k ∈ keys, R.rank p [k] = R.rank p keys ∧
      ∀ l ∈ keys, R.rank p [l] ≤ R.rank p keys by
    obtain ⟨k,hk,hm,hle⟩ := h
    have hmax : (keys.map (R.keyRank p)).max? = some (R.rank p keys) := by
      rw [max?_eq_some_iff]
      simp only [mem_map,R.keyRank_eq_rank,forall_exists_index,and_imp,forall_apply_eq_imp_iff₂]
      exact ⟨⟨k,hk,hm⟩,hle⟩
    rw [hmax]
    rfl
  cases hf : p.find? fun a => decide (a ∈ keys) with
  | none =>
    have hp : ∀ a ∈ p, a ∉ keys := by simpa using hf
    have hl : ∀ l ∈ keys, R.rank p [l] = R.rank p keys := fun l hl => by
      rw [R.rank_of_no_probe hp,R.rank_of_no_probe,if_neg hn,if_neg (cons_ne_nil l [])]
      exact fun a ha hm => hp a ha (mem_singleton.mp hm ▸ hl)
    obtain ⟨k,hk⟩ := exists_mem_of_ne_nil keys hn
    exact ⟨k,hk,hl k hk,fun l h => (hl l h).le⟩
  | some k =>
    obtain ⟨hk,b,af,rfl,hb⟩ := find?_eq_some_iff_append.mp hf
    have hk : k ∈ keys := of_decide_eq_true hk
    have hb : ∀ a ∈ b, a ∉ keys := by simpa using hb
    have hl : ∀ l ∈ keys, ∀ a ∈ b, a ∉ [l] :=
      fun l hl a ha hm => hb a ha (mem_singleton.mp hm ▸ hl)
    rw [R.rank_of_first hb hk]
    refine ⟨k,hk,R.rank_of_first (hl k hk) mem_cons_self,fun l h => ?_⟩
    by_cases hkl : k ∈ [l]
    · exact (R.rank_of_first (hl l h) hkl).le
    · exact (R.rank_lt_of_miss (hl l h) hkl).le

lemma RankScale.max?_map_rank {A : Type*} {score : A → S} {key : A → K} {p : List K} {as : List A}
    (h : ∀ a ∈ as, score a = R.keyRank p (key a)) :
    (as.map score).max?.getD R.noRule = R.rank p (as.map key) := by
  rw [map_congr_left h,← R.max?_keyRank,map_map]
  rfl

end

/-- The carriers of the first probe that has one; without such a probe, the
candidates that carry no key. -/
def probeGroup (probes : List K) (keys : C → List K) (cs : List C) : List C :=
  match probes.find? fun k => cs.any fun c => decide (k ∈ keys c) with
  | some k => cs.filter fun c => decide (k ∈ keys c)
  | none => cs.filter fun c => decide (keys c = [])

lemma probeGroup_nil (p : List K) (ke : C → List K) : probeGroup p ke [] = [] := by
  unfold probeGroup
  split <;> rfl

lemma probeGroup_of_no_keys (h : ∀ c ∈ cs, keys c = []) (p : List K) :
    probeGroup p keys cs = cs := by
  have hn : (p.find? fun k => cs.any fun c => decide (k ∈ keys c)) = none := by
    rw [find?_eq_none]
    intro k _ ha
    obtain ⟨c,hc,hk⟩ := any_eq_true.mp ha
    simp [h c hc] at hk
  rw [probeGroup,hn]
  exact filter_eq_self.mpr fun c hc => decide_eq_true (h c hc)

lemma probeGroup_sublist (p : List K) (ke : C → List K) (cs : List C) :
    (probeGroup p ke cs).Sublist cs := by
  unfold probeGroup
  split <;> exact filter_sublist

variable [LinearOrder S]

lemma keepBest_of_first (R : RankScale S) {b af : List K} {k : K}
    (hb : ∀ c ∈ cs, ∀ a ∈ b, a ∉ keys c) (hex : ∃ c ∈ cs, k ∈ keys c) :
    keepBest R.failed (fun c => R.rank (b++k::af) (keys c)) cs =
      cs.filter fun c => decide (k ∈ keys c) := by
  obtain ⟨c₀,hc₀,hk₀⟩ := hex
  apply filter_congr
  intro c hc
  rw [Bool.eq_iff_iff]
  simp only [Bool.and_eq_true,decide_eq_true_eq,all_eq_true]
  constructor
  · rintro ⟨-,hbe⟩
    by_contra hkc
    have hlt : R.rank (b++k::af) (keys c) < R.matched b.length := R.rank_lt_of_miss (hb c hc) hkc
    have hge := hbe c₀ hc₀
    rw [R.rank_of_first (hb c₀ hc₀) hk₀] at hge
    exact absurd hlt (not_lt.mpr hge)
  · intro hkc
    rw [R.rank_of_first (hb c hc) hkc]
    refine ⟨(R.failed_lt_matched _).ne',?_⟩
    intro d hd
    by_cases hkd : k ∈ keys d
    · exact (R.rank_of_first (hb d hd) hkd).le
    · exact (R.rank_lt_of_miss (hb d hd) hkd).le

lemma keepBest_of_no_probe (R : RankScale S) {p : List K} (h : ∀ a ∈ p, ∀ c ∈ cs, a ∉ keys c) :
    keepBest R.failed (fun c => R.rank p (keys c)) cs =
      cs.filter fun c => decide (keys c = []) := by
  have hr : ∀ c ∈ cs, R.rank p (keys c) = if keys c = [] then R.noRule else R.failed :=
    fun c hc => R.rank_of_no_probe fun a ha => h a ha c hc
  apply filter_congr
  intro c hc
  rw [Bool.eq_iff_iff]
  simp only [Bool.and_eq_true,decide_eq_true_eq,all_eq_true]
  rw [hr c hc]
  constructor
  · rintro ⟨hne,-⟩
    by_contra hk
    exact hne (if_neg hk)
  · intro hk
    rw [if_pos hk]
    refine ⟨R.failed_lt_noRule.ne',?_⟩
    intro d hd
    rw [hr d hd]
    split_ifs
    · exact le_rfl
    · exact R.failed_lt_noRule.le

/-- Scanning all candidates for the best rank and looking up the first probe
with a carrier select the same candidates, in the same order. -/
lemma keepBest_rank (R : RankScale S) (p : List K) (ke : C → List K) (cs : List C) :
    keepBest R.failed (fun c => R.rank p (ke c)) cs = probeGroup p ke cs := by
  unfold probeGroup
  split
  · rename_i k hk
    rw [find?_eq_some_iff_append] at hk
    obtain ⟨han,before,after,rfl,hb⟩ := hk
    simp only [any_eq_true,decide_eq_true_eq] at han
    refine keepBest_of_first R ?_ han
    intro c hc a ha hm
    have hno := hb a ha
    simp only [Bool.not_eq_true',any_eq_false,decide_eq_true_eq] at hno
    exact hno c hc hm
  · rename_i hn
    simp only [find?_eq_none,any_eq_true,decide_eq_true_eq,not_exists,not_and] at hn
    exact keepBest_of_no_probe R hn

end ArionGateway.RankedProbes
