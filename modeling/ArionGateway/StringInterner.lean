import ArionGateway.FirstDistinct
import Mathlib.Data.List.Range
import Mathlib.Data.String.Basic

/-!
# The string interner and the names that pass through it

One bounded table for the whole process keeps the strings that become 'static; a string that finds
it full becomes the empty string. What a string is interned to therefore depends on everything
interned before it, by whomever. Calls to the interner are taken one after the other, and header
names in the normalised form in which header maps keep them.
-/
namespace ArionGateway.StringInterner
open FirstDistinct List

structure Interner where
  entries : List String
  nodup : entries.Nodup

namespace Interner

def empty : Interner := { entries := [], nodup := List.nodup_nil }

variable (self : Interner)

def lookup (s : String) : Option String :=
  if s ∈ self.entries then some s else none

/-- Inserts a string whose lookup has failed, unless the table is full. -/
def insertSlow (s : String) (maxEntries : ℕ) : Option String × Interner :=
  if maxEntries ≤ self.entries.length then
    (self.lookup s, self)
  else if h : s ∈ self.entries then
    (self.lookup s, self)
  else
    (some s, { entries := self.entries.concat s, nodup := self.nodup.concat h })

def intern (s : String) (maxEntries : ℕ) : Option String × Interner :=
  match self.lookup s with
  | some interned => (some interned, self)
  | none => self.insertSlow s maxEntries

def toInternedStr (s : String) (maxEntries : ℕ) : String × Interner :=
  let (interned, self) := self.intern s maxEntries
  (interned.getD "", self)

def mapInterned (maxEntries : ℕ) : Option String → Option String × Interner
  | none => (none, self)
  | some s =>
    let (interned, self) := self.toInternedStr s maxEntries
    (some interned, self)

variable (se : Interner) (s : String) (m : ℕ)

lemma entries_intern : (se.intern s m).2.entries = addBounded m se.entries s := by
  rw [intern,lookup,addBounded]
  by_cases hm : s ∈ se.entries
  · simp only [if_pos hm]
  · simp only [if_neg hm,insertSlow]
    split
    · rfl
    · exact concat_eq_append

lemma intern_fst : (se.intern s m).1 = if s ∈ addBounded m se.entries s then some s else none := by
  rw [intern,lookup,addBounded]
  by_cases hm : s ∈ se.entries
  · simp only [if_pos hm]
  · simp only [if_neg hm,insertSlow,lookup]
    split
    · rfl
    · rw [if_pos (mem_append_right _ (mem_singleton_self s))]

end Interner

def defaultMaxEntries : ℕ := 1 <<< 20

abbrev HeaderValue := List UInt8

/-- Values in their order; the first one of a name is read. -/
abbrev HeaderMap := List (String × HeaderValue)

def isVisibleAscii (b : UInt8) : Bool := (32 ≤ b && b < 127) || b = 9

def HeaderValue.toStr (value : HeaderValue) : Option String :=
  if value.all isVisibleAscii then
    some (String.ofList (value.map fun b => Char.ofNat b.toNat))
  else none

inductive SourceHeaderNameOrSni
  | headerName (name : String)
  | sni

structure SourceHeaderName where
  headerName : String

def maxPartitionKeyLength : ℕ := 256

def maxCustomKeyLength : ℕ := 256

def isKey (maxLength : ℕ) (s : String) : Bool := s ≠ "" && s.utf8ByteSize ≤ maxLength

def headerKey (headers : HeaderMap) (name : String) (maxLength : ℕ) : Option String :=
  ((headers.lookup name).bind HeaderValue.toStr).filter (isKey maxLength)

def extractUserPartitionKey (interner : Interner) (maxEntries : ℕ) (headers : HeaderMap)
    (sni : Option String) (source : Option SourceHeaderNameOrSni) :
    Option String × Interner :=
  match source with
  | none => (none, interner)
  | some (.headerName keym) =>
    interner.mapInterned maxEntries (headerKey headers keym maxPartitionKeyLength)
  | some .sni => interner.mapInterned maxEntries (sni.filter (isKey maxPartitionKeyLength))

def extractCustomPartitionKey (interner : Interner) (maxEntries : ℕ) (headers : HeaderMap)
    (source : Option SourceHeaderName) : Option String × Interner :=
  match source with
  | none => (none, interner)
  | some { headerName := keym } =>
    interner.mapInterned maxEntries (headerKey headers keym maxCustomKeyLength)

/-- A name that is required is not empty; without it the conversion fails. -/
def required (name : String) : Option String := if name = "" then none else some name

def clusterName (interner : Interner) (maxEntries : ℕ) (name : String) : Option String × Interner :=
  interner.mapInterned maxEntries (required name)

def routeCluster (interner : Interner) (maxEntries : ℕ) (cluster : String) :
    Option String × Interner :=
  interner.mapInterned maxEntries (required cluster)

/-- A call that interns a string. A request makes several of them, a
configuration update one for each of its names. -/
inductive Op
  | userPartitionKey (headers : HeaderMap) (sni : Option String)
  | customPartitionKey (headers : HeaderMap) (source : Option SourceHeaderName)
  | clusterName (name : String)
  | routeCluster (cluster : String)
  | other (text : String)

open Interner

variable (source : Option SourceHeaderNameOrSni) (maxEntries : ℕ) (interner : Interner)

def Op.run : Op → Option String × Interner
  | userPartitionKey headers sni =>
    extractUserPartitionKey interner maxEntries headers sni source
  | customPartitionKey headers source =>
    extractCustomPartitionKey interner maxEntries headers source
  | clusterName name => StringInterner.clusterName interner maxEntries name
  | routeCluster cluster => StringInterner.routeCluster interner maxEntries cluster
  | other text => interner.mapInterned maxEntries (some text)

def Op.text : Op → Option String
  | userPartitionKey headers sni =>
    match source with
    | none => none
    | some (.headerName keym) => headerKey headers keym maxPartitionKeyLength
    | some .sni => sni.filter (isKey maxPartitionKeyLength)
  | customPartitionKey headers source =>
    source.bind fun source => headerKey headers source.headerName maxCustomKeyLength
  | clusterName name => required name
  | routeCluster cluster => required cluster
  | other text => some text

variable (i : Interner)

lemma Op.run_eq (op : Op) :
    op.run source maxEntries i = i.mapInterned maxEntries (op.text source) := by
  cases op with
  | userPartitionKey headers sni =>
    rcases source with _ | _ | _
    · rfl
    · rfl
    · rfl
  | customPartitionKey headers source =>
    cases source with
    | none | some source => rfl
  | clusterName name | routeCluster cluster | other text => rfl

def after (history : List Op) : Interner :=
  history.foldl (fun interner op => (op.run source maxEntries interner).2) interner

def texts (ops : List Op) : List String := ops.filterMap (Op.text source)

def results (interner : Interner) : List Op → List (String × String)
  | [] => []
  | op::ops =>
    ((op.text source).bind fun s =>
      (op.run source maxEntries interner).1.map fun interned => (s, interned)).toList ++
    results (op.run source maxEntries interner).2 ops

variable {source}

lemma texts_cons_of_some {op : Op} {s : String} (h : op.text source = some s) (ops : List Op) :
    texts source (op::ops) = s::texts source ops := by
  rw [texts,filterMap_cons,h,texts]

lemma texts_cons_of_none {op : Op} (h : op.text source = none) (ops : List Op) :
    texts source (op::ops) = texts source ops := by
  rw [texts,filterMap_cons,h,texts]

variable (source)

lemma entries_after (history : List Op) : (after source maxEntries i history).entries =
      (texts source history).foldl (addBounded maxEntries) i.entries := by
  induction history generalizing i with
  | nil => rfl
  | cons op history ih =>
    have ha : after source maxEntries i (op::history) =
        after source maxEntries (op.run source maxEntries i).2 history := rfl
    rw [ha,ih,Op.run_eq]
    cases h : op.text source with
    | none =>
      rw [texts_cons_of_none h]
      rfl
    | some s =>
      rw [texts_cons_of_some h,foldl_cons,← entries_intern]
      rfl

/-- A string is interned to itself if the table holds it in the end, and to the
empty string otherwise. -/
lemma results_eq (ops : List Op) : results source maxEntries i ops = (texts source ops).map fun s =>
      (s, if s ∈ (texts source ops).foldl (addBounded maxEntries) i.entries then s
        else "") := by
  induction ops generalizing i with
  | nil => rfl
  | cons op ops ih =>
    rw [results,ih,Op.run_eq]
    cases h : op.text source with
    | none =>
      rw [texts_cons_of_none h]
      rfl
    | some s =>
      have he : (i.mapInterned maxEntries (some s)).2.entries = addBounded maxEntries i.entries s :=
        entries_intern i s maxEntries
      have hf : (i.mapInterned maxEntries (some s)).1 =
          some (if s ∈ (texts source ops).foldl (addBounded maxEntries)
            (addBounded maxEntries i.entries s) then s else "") := by
        rw [mapInterned,toInternedStr]
        dsimp only
        rw [intern_fst]
        simp only [mem_addBounded_iff_mem_foldl (texts source ops)]
        split
        · rfl
        · rfl
      rw [texts_cons_of_some h,hf,he]
      rfl

lemma results_after (history l : List Op) :
    results source maxEntries (after source maxEntries .empty history) l =
      (texts source l).map fun s =>
        (s, if s ∈ (distinct (texts source (history++l))).take maxEntries then s
          else "") := by
  rw [results_eq,entries_after,← foldl_append,texts,texts,texts,filterMap_append,← foldl_addBounded]
  rfl

/-- The names and keys computed after a history are all interned to themselves
exactly when each of them is empty or among the first distinct strings of the
process, as many as the table has room for. -/
theorem interned_to_itself_iff (source : Option SourceHeaderNameOrSni) (history later : List Op) :
    (∀ result ∈ results source defaultMaxEntries
        (after source defaultMaxEntries .empty history) later, result.2 = result.1) ↔
      ∀ s ∈ texts source later, s = "" ∨
        s ∈ (distinct (texts source (history ++ later))).take defaultMaxEntries := by
  rw [results_after,forall_mem_map]
  refine forall₂_congr fun s _ => ?_
  split
  next hm => simp [hm]
  next hm => simp [hm]

def serverName (i : ℕ) : String :=
  String.ofList ((List.range 20).map fun k => if i.testBit k then '1' else '0')

def connection (sni : String) : Op := .userPartitionKey [] (some sni)

lemma utf8Len_digits (i : ℕ) (ks : List ℕ) :
    String.utf8Len (ks.map fun k => if i.testBit k then '1' else '0') = ks.length := by
  induction ks with
  | nil => rfl
  | cons k ks ih =>
    rw [map_cons,String.utf8Len_cons,ih]
    split
    · rfl
    · rfl

lemma utf8ByteSize_serverName (i : ℕ) : (serverName i).utf8ByteSize = 20 := by
  rw [serverName,String.utf8ByteSize_ofList,utf8Len_digits,length_range]

lemma serverName_injOn {i j : ℕ} (hi : i < 2^20) (hj : j < 2^20)
    (h : serverName i = serverName j) : i = j := by
  apply Nat.eq_of_testBit_eq
  intro k
  by_cases hk : k < 20
  · have hd := (map_inj_left.mp (String.ofList_injective h)) k (mem_range.mpr hk)
    have hinj : ∀ a b : Bool, (if a then '1' else '0') = (if b then '1' else '0') → a = b := by decide
    exact hinj _ _ hd
  · have hp : 2^20 ≤ 2^k := Nat.pow_le_pow_right (by omega) (by omega)
    rw [Nat.testBit_lt_two_pow (hi.trans_le hp),Nat.testBit_lt_two_pow (hj.trans_le hp)]

def flood : List Op := (List.range defaultMaxEntries).map fun i => connection (serverName i)

lemma texts_flood : texts (some .sni) flood = (List.range defaultMaxEntries).map serverName := by
  rw [texts,flood,filterMap_map]
  refine filterMap_eq_map_iff_forall_eq_some.mpr fun i _ => Option.filter_some_pos ?_
  have hne : serverName i ≠ "" := fun h => by simpa [h] using utf8ByteSize_serverName i
  simp [isKey,hne,utf8ByteSize_serverName,maxPartitionKeyLength]

lemma nodup_texts_flood : (texts (some .sni) flood).Nodup := by
  rw [texts_flood]
  refine List.Nodup.map_on (fun i hi j hj => ?_) nodup_range
  exact serverName_injOn (mem_range.mp hi) (mem_range.mp hj)

lemma take_distinct_flood (l : List String) :
    (distinct (texts (some .sni) flood++l)).take defaultMaxEntries =
      (List.range defaultMaxEntries).map serverName := by
  have hl : (texts (some .sni) flood).length = defaultMaxEntries := by
    rw [texts_flood,length_map,length_range]
  have hd := distinct_of_nodup nodup_texts_flood
  rw [take_distinct_append (by rw [hd,hl]),hd,take_of_length_le hl.le,texts_flood]

/-- After the flood a new cluster and two new users all get the empty name. -/
theorem flooded_names_empty :
    results (some .sni) defaultMaxEntries
        (after (some .sni) defaultMaxEntries .empty flood)
        [.clusterName "backend", connection "alice", connection "bob"] =
      [("backend", ""), ("alice", ""), ("bob", "")] := by
  have hn {s : String} (hs : s.utf8ByteSize ≠ 20) :
      s ∉ (range defaultMaxEntries).map serverName := by
    intro hm
    obtain ⟨i,-,rfl⟩ := mem_map.mp hm
    exact hs (utf8ByteSize_serverName i)
  have ht : texts (some .sni) [.clusterName "backend",connection "alice",
      connection "bob"] = ["backend", "alice", "bob"] := by decide
  rw [results_after,texts,filterMap_append,← texts,take_distinct_flood,ht]
  simp only [map_cons,map_nil,if_neg (hn (s := "backend") (by decide)),
    if_neg (hn (s := "alice") (by decide)),if_neg (hn (s := "bob") (by decide))]

end ArionGateway.StringInterner
