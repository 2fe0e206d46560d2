import Mathlib.Data.List.AList
import Mathlib.Data.List.Sort
import ArionGateway.RankedProbes

/-!
# Grouping candidates under keys

Grouping walks a list of candidates once and appends each of them to the group of every key it
carries. The loop state may hold more than the groups and may store them in several nested maps,
so the results are stated for any reading `get` of the state and any step whose effect on that
reading is the expected one: after the loop the group of a key is the sublist of its carriers, and
a key without carriers has no group.
-/
namespace ArionGateway.KeyedGroups
open List

abbrev Table (K V : Type*) := AList fun _ : K => V

section
variable {K V W : Type*} [DecidableEq K]

/-- The value under a key after `entry(k).or_default()` was rewritten by `f`. -/
def modifyEntry (m : Table K V) (k : K) (fresh : V) (f : V → V) : Table K V :=
  m.insert k (f ((m.lookup k).getD fresh))

lemma lookup_modifyEntry (m : Table K V) (k j : K) (fr : V) (f : V → V) :
    (modifyEntry m k fr f).lookup j =
      if j = k then some (f ((m.lookup k).getD fr)) else m.lookup j := by
  split_ifs with h
  · subst h
    exact AList.lookup_insert _
  · exact AList.lookup_insert_ne h

def mapGroups (build : V → Option W) (m : Table K V) : Table K W where
  entries := m.entries.filterMap fun e => (build e.2).map fun w => ⟨e.1,w⟩
  nodupKeys := by
    have hk : ∀ l : List (Sigma fun _ : K => V),
        ((l.filterMap fun e => (build e.2).map fun w => (⟨e.1,w⟩ : Sigma fun _ : K => W)).map
          Sigma.fst).Sublist (l.map Sigma.fst) := by
      intro l
      induction l with
      | nil => exact List.Sublist.refl _
      | cons e l ih =>
        cases hb : build e.2 with
        | none =>
          simp only [List.filterMap_cons,hb,Option.map_none,map_cons]
          exact ih.cons _
        | some w =>
          simp only [List.filterMap_cons,hb,Option.map_some,map_cons]
          exact ih.cons_cons _
    exact (hk m.entries).nodup m.nodupKeys

lemma lookup_mapGroups (build : V → Option W) (m : Table K V) (k : K) :
    (mapGroups build m).lookup k = (m.lookup k).bind build := by
  ext w
  rw [Option.bind_eq_some_iff]
  constructor
  · intro h
    have hm := (mem_dlookup_iff (mapGroups build m).nodupKeys).mp h
    simp only [mapGroups,mem_filterMap,Option.map_eq_some_iff] at hm
    obtain ⟨e,he,v,hv,heq⟩ := hm
    cases heq
    exact ⟨e.2,(mem_dlookup_iff m.nodupKeys).mpr he,hv⟩
  · rintro ⟨v,hv,hw⟩
    apply (mem_dlookup_iff (mapGroups build m).nodupKeys).mpr
    simp only [mapGroups,mem_filterMap,Option.map_eq_some_iff]
    exact ⟨⟨k,v⟩,(mem_dlookup_iff m.nodupKeys).mp hv,w,hw,rfl⟩

end

section
variable {C I K M : Type*} [DecidableEq K] {keys : C → List K} {step : M → C → M} {cs : List C}

/-- Push a candidate unless it is already the last entry of the group. -/
def pushUnique [DecidableEq I] (id : C → I) (group : List C) (c : C) : List C :=
  if group.getLast?.map id = some (id c) then group else group++[c]

section
variable [DecidableEq I] (id : C → I)

lemma pushUnique_of_ne {g : List C} {c : C} (h : g.getLast?.map id ≠ some (id c)) :
    pushUnique id g c = g++[c] := if_neg h

lemma pushUnique_idem (group : List C) (c : C) :
    pushUnique id (pushUnique id group c) c = pushUnique id group c := by
  by_cases h : group.getLast?.map id = some (id c)
  · have hp : pushUnique id group c = group := if_pos h
    rw [hp,hp]
  · rw [pushUnique_of_ne id h]
    exact if_pos (by simp)

end

variable (get : M → K → Option (List C))

/-- One candidate filed under a list of keys, repetitions included: with an
idempotent push each of its keys is extended exactly once. -/
lemma get_file (fi : M → K → C → M) (p : List C → C → List C)
    (hf : ∀ m k j c, get (fi m k c) j = if j = k then some (p ((get m k).getD []) c) else get m j)
    (hi : ∀ g c, p (p g c) c = p g c) (ks : List K) (m : M) (c : C) (j : K) :
    get (ks.foldl (fun m k => fi m k c) m) j =
      if j ∈ ks then some (p ((get m j).getD []) c) else get m j := by
  induction ks generalizing m with
  | nil => simp
  | cons k ks ih =>
    rw [foldl_cons,ih,hf]
    by_cases hjk : j = k
    · subst hjk
      simp [hi]
    · simp [hjk]

/-- The group of a key after the whole walk: its carriers in order. -/
def carriers (keys : C → List K) (cs : List C) (k : K) : Option (List C) :=
  let group := cs.filter fun c => decide (k ∈ keys c)
  if group = [] then none else some group

lemma carriers_eq_some {k : K} {c : C} (hc : c ∈ cs) (hk : k ∈ keys c) :
    carriers keys cs k = some (cs.filter fun c => decide (k ∈ keys c)) := by
  apply if_neg
  exact ne_nil_of_mem (mem_filter.mpr ⟨hc,decide_eq_true hk⟩)

lemma carriers_eq_none {k : K} (h : ∀ c ∈ cs, k ∉ keys c) : carriers keys cs k = none := by
  apply if_pos
  rw [filter_eq_nil_iff]
  intro c hc
  simpa using h c hc

/-- The walk appends to the groups it starts from. The last entry of a group
never is a candidate still to come, so every push appends. -/
private lemma get_walk_from {get : M → K → Option (List C)} {p : List C → C → List C}
    (id : C → I) (hst : ∀ m c k, get (step m c) k =
      if k ∈ keys c then some (p ((get m k).getD []) c) else get m k)
    (hp : ∀ g c, g.getLast?.map id ≠ some (id c) → p g c = g++[c]) (cs : List C)
    (hcs : (cs.map id).Nodup) (m : M) (k : K)
    (hl : ∀ c ∈ cs, ((get m k).getD []).getLast?.map id ≠ some (id c)) : get (cs.foldl step m) k =
      if (cs.filter fun c => decide (k ∈ keys c)) = [] then get m k
      else some ((get m k).getD []++cs.filter fun c => decide (k ∈ keys c)) := by
  induction cs generalizing m with
  | nil => simp
  | cons c cs ih =>
    rw [map_cons,nodup_cons] at hcs
    rw [foldl_cons]
    by_cases hk : k ∈ keys c
    · have hg : get (step m c) k = some ((get m k).getD []++[c]) := by
        rw [hst,if_pos hk,hp _ _ (hl c (by simp))]
      rw [ih hcs.2 (step m c),hg]
      · simp only [filter_cons,hk,decide_true,if_true,Option.getD_some,
          append_assoc,reduceCtorEq,if_false]
        split_ifs with hn
        · rw [hn]
        · rfl
      · intro d hd
        rw [hg]
        simp only [Option.getD_some,getLast?_append,getLast?_singleton,
          Option.some_or,Option.map_some,ne_eq,Option.some.injEq]
        intro heq
        exact hcs.1 (mem_map.mpr ⟨d,hd,heq.symm⟩)
    · have hg : get (step m c) k = get m k := by
        rw [hst,if_neg hk]
      rw [ih hcs.2 (step m c),hg]
      · simp [hk]
      · intro d hd
        rw [hg]
        exact hl d (by simp [hd])

lemma get_walk (p : List C → C → List C) (id : C → I) (hst : ∀ m c k, get (step m c) k =
      if k ∈ keys c then some (p ((get m k).getD []) c) else get m k)
    (hp : ∀ g c, g.getLast?.map id ≠ some (id c) → p g c = g++[c]) (hcs : (cs.map id).Nodup)
    {m : M} (hm : ∀ k, get m k = none) (k : K) : get (cs.foldl step m) k = carriers keys cs k := by
  rw [get_walk_from id hst hp cs hcs m k (by simp [hm]),hm]
  rfl

lemma foldl_frame {A T : Type*} {f : M → A → M} (r : M → T) (h : ∀ m a, r (f m a) = r m)
    (l : List A) (m : M) : r (l.foldl f m) = r m := by
  induction l generalizing m with
  | nil => rfl
  | cons a l ih => rw [foldl_cons,ih,h]

lemma rest_walk (r : M → List C) {p : C → Bool}
    (hst : ∀ m c, r (step m c) = if p c then r m++[c] else r m) (cs : List C) (m : M) :
    r (cs.foldl step m) = r m++cs.filter p := by
  induction cs generalizing m with
  | nil => simp
  | cons c cs ih =>
    rw [foldl_cons,ih,hst,filter_cons]
    split_ifs <;> simp

end

variable {A B : Type*} {f : A → Option B}

lemma findSome?_eq_of_descending [LinearOrder A] {l₁ l₂ : List A} (h₁ : l₁.Pairwise (· > ·))
    (h₂ : l₂.Pairwise (· > ·)) (hout₁ : ∀ a ∈ l₁, a ∉ l₂ → f a = none)
    (hout₂ : ∀ a ∈ l₂, a ∉ l₁ → f a = none) : l₁.findSome? f = l₂.findSome? f := by
  have hc : (l₁.filter fun a => (f a).isSome) = l₂.filter fun a => (f a).isSome := by
    refine List.Perm.eq_of_pairwise ?_ (h₁.filter _) (h₂.filter _) ?_
    · exact fun a b _ _ hab hba => absurd hab (lt_asymm hba)
    · rw [perm_ext_iff_of_nodup ((h₁.imp ne_of_gt).filter _) ((h₂.imp ne_of_gt).filter _)]
      intro a
      simp only [mem_filter]
      refine and_congr_left fun hs => ⟨fun h => ?_,fun h => ?_⟩ <;> by_contra hn
      · simp [hout₁ a h hn] at hs
      · simp [hout₂ a h hn] at hs
  have hf : ∀ l : List A, l.findSome? f = (l.filter fun a => (f a).isSome).findSome? f := by
    intro l
    rw [← head?_filterMap,← head?_filterMap,filterMap_filter]
    congr 2
    funext a
    cases f a <;> rfl
  rw [hf l₁,hf l₂,hc]

lemma findSome?_filterMap {D : Type*} (g : A → Option B) (f : B → Option D) (l : List A) :
    (l.filterMap g).findSome? f = l.findSome? fun a => (g a).bind f := by
  rw [← head?_filterMap,filterMap_filterMap,head?_filterMap]

/-- A `BTreeMap` iterated backwards: its entries from the greatest key down. -/
def descending {V : Type*} (m : Table ℕ V) : List (ℕ × V) :=
  (m.keys.insertionSort (· ≥ ·)).filterMap fun k => (m.lookup k).map fun v => (k, v)

/-- Searching the entries from the greatest key down is counting keys down from
any bound above which there is nothing to find. -/
lemma findSome?_descending {V : Type*} (m : Table ℕ V) (f : ℕ → V → Option B) (w : ℕ)
    (hou : ∀ k v, m.lookup k = some v → w < k → f k v = none) :
    ((descending m).findSome? fun e => f e.1 e.2) =
      (range (w+1)).findSome? fun i => (m.lookup (w - i)).bind (f (w - i)) := by
  have hd : (range (w+1)).findSome? (fun i => (m.lookup (w - i)).bind (f (w - i))) =
      ((range (w+1)).map (w - ·)).findSome? fun k => (m.lookup k).bind (f k) := by
    rw [findSome?_map]
    rfl
  have hke : ((descending m).findSome? fun e => f e.1 e.2) =
      (m.keys.insertionSort (· ≥ ·)).findSome? fun k => (m.lookup k).bind (f k) := by
    rw [descending,findSome?_filterMap]
    congr 1
    funext k
    cases m.lookup k <;> rfl
  have hp : (m.keys.insertionSort (· ≥ ·)).Perm m.keys := perm_insertionSort ..
  have hn : (m.keys.insertionSort (· ≥ ·)).Nodup := hp.nodup_iff.mpr m.keys_nodup
  rw [hke,hd]
  apply findSome?_eq_of_descending
  · exact ((pairwise_insertionSort (· ≥ ·) m.keys).and hn).imp
      fun h => lt_of_le_of_ne h.1 h.2.symm
  · rw [pairwise_map]
    refine pairwise_lt_range.imp_of_mem ?_
    intro i j hi hj hij
    rw [mem_range] at hi hj
    omega
  · intro k hk ho
    have hlt : w < k := by
      by_contra hle
      apply ho
      rw [mem_map]
      exact ⟨w - k,mem_range.mpr (by omega),by omega⟩
    cases hv : m.lookup k with
    | none => rfl
    | some v => exact hou k v hv hlt
  · intro k _ hk
    have hno : m.lookup k = none := by
      rw [AList.lookup_eq_none]
      exact fun h => hk (hp.mem_iff.mpr (AList.mem_keys.mp h))
    rw [hno]
    rfl

lemma findSome?_eq_find? {p : A → Bool} (h : ∀ a, (f a).isSome = p a) (l : List A) :
    l.findSome? f = (l.find? p).bind f := by
  induction l with
  | nil => rfl
  | cons a l ih =>
    rw [findSome?_cons,find?_cons,← h a]
    cases hf : f a with
    | none => simpa using ih
    | some b => simp [hf]

/-- An index whose groups are compiled further, with the candidates without
keys as the fallback, compiles the group of the first probe. -/
lemma probe_or_rest {C K : Type*} [DecidableEq K] {b : List C → Option B}
    (hb : ∀ g, (b g).isSome = true ↔ g ≠ []) (p : List K) (ke : C → List K) (cs : List C) :
    (p.findSome? fun k => (carriers ke cs k).bind b).or
        (b (cs.filter fun c => decide (ke c = []))) = b (RankedProbes.probeGroup p ke cs) := by
  have hso : ∀ k, ((carriers ke cs k).bind b).isSome = cs.any fun c => decide (k ∈ ke c) := by
    intro k
    rw [Bool.eq_iff_iff,any_eq_true]
    constructor
    · intro h
      by_contra hno
      rw [carriers_eq_none fun c hc hk => hno ⟨c,hc,decide_eq_true hk⟩] at h
      cases h
    · rintro ⟨c,hc,hk⟩
      rw [carriers_eq_some hc (of_decide_eq_true hk),Option.bind_some,hb]
      exact ne_nil_of_mem (mem_filter.mpr ⟨hc,hk⟩)
  rw [findSome?_eq_find? hso,RankedProbes.probeGroup]
  cases hf : p.find? fun k => cs.any fun c => decide (k ∈ ke c) with
  | none => rfl
  | some k =>
    have ha := find?_some hf
    obtain ⟨c,hc,hk⟩ := any_eq_true.mp ha
    have hne : (cs.filter fun c => decide (k ∈ ke c)) ≠ [] :=
      ne_nil_of_mem (mem_filter.mpr ⟨hc,hk⟩)
    rw [Option.bind_some,carriers_eq_some hc (of_decide_eq_true hk)]
    exact Option.or_of_isSome ((hb _).mpr hne)

end ArionGateway.KeyedGroups
