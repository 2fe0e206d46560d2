import ArionGateway.DelimitedText
import ArionGateway.SortedListings
import ArionGateway.ToolPermissions
import Mathlib.Data.Prod.Lex

/-!
# The registry of tools

Listings, pages, descriptions and searches take the permitted tools out of a hash map, in the
order of the map, and sort what they make of them. The name under which clients see a tool
determines its identity. A registry is what a request finds after `ensure_tools_current`; results
of the embeddings service and the scores of the lexical search are parameters.
-/
namespace ArionGateway.ToolCatalog
open ByteStrings HttpHeaders DelimitedText TextEncodings ToolPermissions SortedListings List

-- values of JSON, embeddings and scores
variable {J E S : Type}

inductive ToolBuilderError where
  | invalidNamespace (name : Str)
  | invalidToolName (name : Str)
  | invalidQualifiedToolName (name : Str)
  deriving DecidableEq

def ToolBuilderError.display : ToolBuilderError → Str
  | .invalidNamespace name => str "Invalid tool namespace: " ++ name
  | .invalidToolName name => str "Invalid local tool name: " ++ name
  | .invalidQualifiedToolName name => str "Invalid qualified tool name: " ++ name

def maxMcpToolNameBytes : ℕ := 128

def validMcpNameSegment (value : Str) : Bool :=
  value.all fun byte => isAlphanumeric byte || byte == 95 || byte == 45 || byte == dot

def qualify (nameSpace name : Str) : Str := nameSpace++dot::name

def validate (nameSpace name : Str) : Except ToolBuilderError Unit :=
  if nameSpace = [] || nameSpace.contains dot || nameSpace.contains 47 then
    .error (.invalidNamespace nameSpace)
  else if name = [] then .error (.invalidToolName name)
  else if !validMcpNameSegment nameSpace || !validMcpNameSegment name then
    .error (.invalidQualifiedToolName (qualify nameSpace name))
  else if (qualify nameSpace name).length > maxMcpToolNameBytes then
    .error (.invalidQualifiedToolName (qualify nameSpace name))
  else .ok ()

/-- The identity of a tool; `ToolId::new` makes only valid ones. -/
structure ToolId where
  nameSpace : Str
  name : Str
  valid : validate nameSpace name = .ok ()
  deriving DecidableEq

def ToolId.new (nameSpace name : Str) : Except ToolBuilderError ToolId :=
  match h : validate nameSpace name with
  | .error error => .error error
  | .ok () => .ok ⟨nameSpace,name,h⟩

def ToolId.qualifiedName (id : ToolId) : Str := qualify id.nameSpace id.name

lemma ToolId.dot_not_mem (id : ToolId) : dot ∉ id.nameSpace := by
  intro hm
  have hv := id.valid
  rw [validate,if_pos (by simp [hm])] at hv
  cases hv

lemma ToolId.ext_iff_fields {id id' : ToolId} :
    id = id' ↔ id.nameSpace = id'.nameSpace ∧ id.name = id'.name := by
  cases id
  cases id'
  simp

open ToolId

lemma ToolId.qualifiedName_injective : Function.Injective qualifiedName := by
  intro id id' h
  have hsp := splitOnce_append (b := id.name) id.dot_not_mem
  have hs' := splitOnce_append (b := id'.name) id'.dot_not_mem
  have heq := hsp.symm.trans ((congrArg (splitOnce dot) h).trans hs')
  rw [Option.some.injEq,Prod.mk.injEq] at heq
  exact ext_iff_fields.mpr heq

/-- Texts are ordered by their bytes. -/
def textKey (text : Str) : List ℕ := text.map UInt8.toNat

lemma textKey_injective : Function.Injective textKey :=
  map_injective_iff.mpr fun _ _ => UInt8.toNat_inj.mp

/-- Identities are ordered by namespace and name. -/
def ToolId.key (id : ToolId) : List ℕ ×ₗ List ℕ := toLex (textKey id.nameSpace, textKey id.name)

lemma ToolId.key_injective : Function.Injective key := by
  intro id id' h
  have heq := toLex_inj.mp h
  rw [Prod.mk.injEq] at heq
  exact ext_iff_fields.mpr ⟨textKey_injective heq.1,textKey_injective heq.2⟩

abbrev Schema (J : Type) := List (Str × J)

structure Tool (J : Type) where
  name : Str
  description : Str
  inputSchema : Schema J
  nameSpace : Option Str := none
  outputSchema : Option (Schema J) := none

inductive DisclosureMode where
  | eager
  | progressive
  deriving DecidableEq

structure ToolEntry (J E : Type) where
  id : ToolId
  description : Str
  inputSchema : Schema J
  outputSchema : Schema J
  rbac : Option ToolRbac
  disclosureMode : DisclosureMode
  embedding : Option E

structure CompactToolDefinition where
  nameSpace : Str
  name : Str
  qualifiedName : Str
  description : Str
  deriving DecidableEq

structure ToolDefinition (J : Type) where
  nameSpace : Str
  name : Str
  qualifiedName : Str
  description : Str
  inputSchema : Schema J
  outputSchema : Schema J

structure NamespaceSummary where
  nameSpace : Str
  toolCount : ℕ
  deriving DecidableEq

variable (self : ToolEntry J E)

def ToolEntry.isPermitted (ext : Extensions) : Bool :=
  self.rbac.all fun rbac => rbac.isPermitted ext

/-- The tool that `build_tool_entry` keeps with the entry. -/
def ToolEntry.tool : Tool J where
  name := self.id.qualifiedName
  description := self.description
  inputSchema := self.inputSchema
  nameSpace := some self.id.nameSpace
  outputSchema := if self.outputSchema = [] then none else some self.outputSchema

def ToolEntry.compact : CompactToolDefinition where
  nameSpace := self.id.nameSpace
  name := self.id.name
  qualifiedName := self.id.qualifiedName
  description := self.description

def ToolEntry.definition : ToolDefinition J where
  nameSpace := self.id.nameSpace
  name := self.id.name
  qualifiedName := self.id.qualifiedName
  description := self.description
  inputSchema := self.inputSchema
  outputSchema := self.outputSchema

inductive CallToolError where
  | toolNotFound (name : Str)
  | validationError (message : Str)
  deriving DecidableEq

def CallToolError.display : CallToolError → Str
  | .toolNotFound name => str "tool '" ++ name++str "' not found in registry"
  | .validationError message => str "Validation error: " ++ message

structure CatalogPage (A : Type) where
  items : List A
  total : ℕ
  limit : ℕ
  offset : ℕ
  hasMore : Bool
  nextOffset : Option ℕ

def validatePositiveLimit (requestedLimit : Option ℕ) : Except CallToolError Unit :=
  if requestedLimit = some 0 then
    .error (.validationError (str "limit must be greater than zero"))
  else .ok ()

def usizeMax : ℕ := 2^64 - 1

def catalogPage {A : Type} (items : List A) (requestedLimit requestedOffset : Option ℕ) :
    Except CallToolError (CatalogPage A) := do
  validatePositiveLimit requestedLimit
  let limit := min (requestedLimit.getD 20) 100
  let offset := requestedOffset.getD 0
  let total := items.length
  let page := (items.drop offset).take limit
  let next := min (offset+page.length) usizeMax
  let hasMore := decide (next < total)
  return { items := page, total, limit, offset, hasMore,
           nextOffset := if hasMore then some next else none }

/-- The tools in the order in which the hash map is read. -/
structure ToolsRegistry (J E : Type) where
  tools : List (ToolEntry J E)
  nodup_ids : (tools.map ToolEntry.id).Nodup

variable (self : ToolsRegistry J E) (ext : Extensions)

def getTool (id : ToolId) : Option (ToolEntry J E) := self.tools.find? fun entry => entry.id = id

def permittedSnapshot : List (ToolEntry J E) := self.tools.filter fun entry => entry.isPermitted ext

/-- Nothing if any of the tools is absent or not permitted. -/
def permittedEntriesById (ids : List ToolId) : Option (List (ToolEntry J E)) :=
  ids.mapM fun id => do
    let entry ← getTool self id
    if entry.isPermitted ext then some entry else none

def catalogNamespaces (limit offset : Option ℕ) :
    Except CallToolError (CatalogPage NamespaceSummary) :=
  let counts := countBy textKey ((permittedSnapshot self ext).map fun entry => entry.id.nameSpace)
  catalogPage (counts.map fun count => ⟨count.1,count.2⟩) limit offset

def catalogListTools (nameSpace : Str) (limit offset : Option ℕ) :
    Except CallToolError (CatalogPage CompactToolDefinition) :=
  let entries := (permittedSnapshot self ext).filter fun entry => entry.id.nameSpace = nameSpace
  catalogPage ((sortBy (fun entry => textKey entry.id.name) entries).map ToolEntry.compact)
    limit offset

def catalogDescribeTool (id : ToolId) : Option (ToolDefinition J) :=
  ((getTool self id).filter fun entry => entry.isPermitted ext).map ToolEntry.definition

/-- The eager tools, and the names of the others. -/
def listDisclosedTools : List (Tool J) × List Str :=
  let entries := permittedSnapshot self ext
  let tools := (entries.filter fun entry => entry.disclosureMode = .eager).map ToolEntry.tool
  let progressiveNames := (entries.filter fun entry => entry.disclosureMode = .progressive).map
    fun entry => entry.id.qualifiedName
  (sortBy (fun tool => textKey tool.name) tools, sortBy textKey progressiveNames)

def hasProgressiveTools : Bool :=
  (permittedSnapshot self ext).any fun entry => entry.disclosureMode = .progressive

section

structure ToolSearchRequest where
  query : Str
  limit : Option ℕ
  nameSpace : Option Str

inductive ToolSearchScope where
  | progressive
  | all
  deriving DecidableEq

/-- What a search depends on besides the registry: the configured maximum, the
embeddings client if there is one, the similarity of embeddings, and the scores of
`bm25_scores`. Scores are ordered by `total_cmp`. -/
structure SearchEngine (J E S : Type) where
  maxAllowableResults : ℕ
  embedQuery : Option (Str → Option E)
  cosineSimilarity : E → E → Option S
  bm25Score : Str → Multiset (ToolEntry J E) → ToolEntry J E → S

def isBlank : Str → Bool
  | [] => true
  | 194::b::s => (b == 133 || b == 160) && isBlank s
  | 225::b::c::s => b == 154 && c == 128 && isBlank s
  | 226::b::c::s =>
    ((b == 128 && ((128 ≤ c && c ≤ 138) || c == 168 || c == 169 || c == 175)) ||
      (b == 129 && c == 159)) && isBlank s
  | 227::b::c::s => b == 128 && c == 128 && isBlank s
  | b::s => isWhitespace b && isBlank s

variable (engine : SearchEngine J E S)

def validateSearchRequest (request : ToolSearchRequest) :
    Except CallToolError (Str × Option Str × ℕ) := do
  if isBlank request.query then .error (.validationError (str "query must be non-empty"))
  else
    validatePositiveLimit request.limit
    let limit := min (request.limit.getD engine.maxAllowableResults) engine.maxAllowableResults
    return (request.query, request.nameSpace, limit)

def vectorScore (queryEmbedding : E) (entry : ToolEntry J E) : Option (S × ToolEntry J E) := do
  let toolEmbedding ← entry.embedding
  let score ← engine.cosineSimilarity queryEmbedding toolEmbedding
  return (score, entry)

/-- The scores by embeddings, if every candidate has one. -/
def vectorScores (query : Str) (candidates : List (ToolEntry J E)) :
    Option (List (S × ToolEntry J E)) := do
  let embedQuery ← engine.embedQuery
  let queryEmbedding ← embedQuery query
  candidates.mapM (vectorScore engine queryEmbedding)

def bm25Scores (query : Str) (candidates : List (ToolEntry J E)) : List (S × ToolEntry J E) :=
  candidates.map fun entry => (engine.bm25Score query candidates entry, entry)

def scores (query : Str) (candidates : List (ToolEntry J E)) : List (S × ToolEntry J E) :=
  match vectorScores engine query candidates with
  | some scored => scored
  | none => bm25Scores engine query candidates

/-- Higher scores come first, and equal ones by identity. -/
def rank (scored : S × ToolEntry J E) : Sᵒᵈ ×ₗ (List ℕ ×ₗ List ℕ) :=
  toLex (OrderDual.toDual scored.1, scored.2.id.key)

variable [LinearOrder S] (self : ToolsRegistry J E) (ext : Extensions)

def searchCandidates (nameSpace : Option Str) (scope : ToolSearchScope) : List (ToolEntry J E) :=
  (permittedSnapshot self ext).filter fun entry =>
    nameSpace.all (fun nameSpace => nameSpace == entry.id.nameSpace) &&
      (scope != .progressive || entry.disclosureMode == .progressive)

def rankedEntries (request : ToolSearchRequest) (scope : ToolSearchScope) :
    Except CallToolError (List (ToolEntry J E)) :=
  (validateSearchRequest engine request).map fun (query, nameSpace, limit) =>
    let scored := sortBy rank (scores engine query (searchCandidates self ext nameSpace scope))
    (scored.take limit).map Prod.snd

def searchTools (request : ToolSearchRequest) (scope : ToolSearchScope) :
    Except CallToolError (List (Tool J)) :=
  (rankedEntries engine self ext request scope).map fun entries => entries.map ToolEntry.tool

def catalogSearchTools (request : ToolSearchRequest) :
    Except CallToolError (List CompactToolDefinition) :=
  (rankedEntries engine self ext request .all).map fun entries => entries.map ToolEntry.compact

end

variable {ext : Extensions} {r r' : ToolsRegistry J E} {entry : ToolEntry J E}

/-- The registries contain the same tools that the request is permitted to use. -/
def SamePermitted (ext : Extensions) (r r' : ToolsRegistry J E) : Prop :=
  ∀ entry, entry ∈ permittedSnapshot r ext ↔ entry ∈ permittedSnapshot r' ext

lemma eq_of_id_eq {a b : ToolEntry J E} (ha : a ∈ r.tools) (hb : b ∈ r.tools) (h : a.id = b.id) :
    a = b := inj_on_of_nodup_map r.nodup_ids ha hb h

lemma mem_tools_of_mem_permittedSnapshot (h : entry ∈ permittedSnapshot r ext) : entry ∈ r.tools :=
  mem_of_mem_filter h

lemma nodup_permittedSnapshot (r : ToolsRegistry J E) (ext : Extensions) :
    (permittedSnapshot r ext).Nodup := (List.Nodup.of_map _ r.nodup_ids).filter _

lemma SamePermitted.perm (h : SamePermitted ext r r') :
    (permittedSnapshot r ext).Perm (permittedSnapshot r' ext) :=
  (perm_ext_iff_of_nodup (nodup_permittedSnapshot r ext) (nodup_permittedSnapshot r' ext)).mpr h

lemma getTool_eq_some_iff {id : ToolId} :
    getTool r id = some entry ↔ entry ∈ r.tools ∧ entry.id = id := by
  constructor
  · intro h
    have hid := find?_some h
    exact ⟨mem_of_find?_eq_some h,of_decide_eq_true hid⟩
  · rintro ⟨hm,rfl⟩
    cases hf : getTool r entry.id with
    | none => exact absurd (decide_eq_true rfl) (find?_eq_none.mp hf entry hm)
    | some o =>
      have hid := find?_some hf
      rw [eq_of_id_eq (mem_of_find?_eq_some hf) hm (of_decide_eq_true hid)]

lemma filter_getTool_eq_some_iff {id : ToolId} :
    (getTool r id).filter (fun entry => entry.isPermitted ext) = some entry ↔
      entry ∈ permittedSnapshot r ext ∧ entry.id = id := by
  rw [Option.filter_eq_some_iff,getTool_eq_some_iff,permittedSnapshot,mem_filter]
  exact and_right_comm

lemma SamePermitted.filter_getTool (h : SamePermitted ext r r') (id : ToolId) :
    (getTool r id).filter (fun entry => entry.isPermitted ext) =
      (getTool r' id).filter fun entry => entry.isPermitted ext := by
  ext entry
  rw [filter_getTool_eq_some_iff,filter_getTool_eq_some_iff,h entry]

lemma permittedEntriesById_eq (r : ToolsRegistry J E) (ext : Extensions) (ids : List ToolId) :
    permittedEntriesById r ext ids =
      ids.mapM fun id => (getTool r id).filter fun entry => entry.isPermitted ext := by
  unfold permittedEntriesById
  congr 1
  funext id
  cases getTool r id <;> rfl

lemma sortBy_map_eq {A K : Type} [LinearOrder K] (key : A → K) (f : ToolEntry J E → A)
    {l l' : List (ToolEntry J E)} (hp : l.Perm l') (ht : ∀ entry ∈ l, entry ∈ r.tools)
    (hk : ∀ a ∈ l, ∀ b ∈ l, key (f a) = key (f b) → a.id = b.id) :
    sortBy key (l.map f) = sortBy key (l'.map f) := by
  refine sortBy_eq_of_perm key (hp.map f) ?_
  intro x hx y hy hxy
  obtain ⟨a,ha,rfl⟩ := mem_map.mp hx
  obtain ⟨b,hb,rfl⟩ := mem_map.mp hy
  rw [eq_of_id_eq (ht a ha) (ht b hb) (hk a ha b hb hxy)]

section

variable (h : SamePermitted ext r r')
include h

lemma permittedEntriesById_congr (ids : List ToolId) :
    permittedEntriesById r ext ids = permittedEntriesById r' ext ids := by
  rw [permittedEntriesById_eq,permittedEntriesById_eq]
  congr 1
  funext id
  exact h.filter_getTool id

lemma catalogNamespaces_congr (l offset : Option ℕ) :
    catalogNamespaces r ext l offset = catalogNamespaces r' ext l offset := by
  unfold catalogNamespaces
  rw [countBy_eq_of_perm textKey_injective (h.perm.map _)]

lemma catalogListTools_congr (n : Str) (l offset : Option ℕ) :
    catalogListTools r ext n l offset = catalogListTools r' ext n l offset := by
  unfold catalogListTools
  have hso := sortBy_map_eq (fun entry : ToolEntry J E => textKey entry.id.name) id
    (h.perm.filter fun entry => decide (entry.id.nameSpace = n))
    (fun entry he => mem_tools_of_mem_permittedSnapshot (mem_of_mem_filter he))
    fun a ha b hb hab => ?_
  · rw [map_id,map_id] at hso
    simp only [hso]
  · have ha := of_decide_eq_true (mem_filter.mp ha).2
    have hb := of_decide_eq_true (mem_filter.mp hb).2
    exact ext_iff_fields.mpr ⟨ha.trans hb.symm,textKey_injective hab⟩

lemma listDisclosedTools_congr : listDisclosedTools r ext = listDisclosedTools r' ext := by
  unfold listDisclosedTools
  have ht := sortBy_map_eq (fun tool : Tool J => textKey tool.name) ToolEntry.tool
    (h.perm.filter fun entry => decide (entry.disclosureMode = .eager))
    (fun entry he => mem_tools_of_mem_permittedSnapshot (mem_of_mem_filter he))
    fun a _ b _ hab => qualifiedName_injective (textKey_injective hab)
  have hn := sortBy_eq_of_perm textKey
    ((h.perm.filter fun entry => decide (entry.disclosureMode = .progressive)).map
      fun entry => entry.id.qualifiedName) fun a _ b _ hab => textKey_injective hab
  simp only [ht,hn]

lemma hasProgressiveTools_congr : hasProgressiveTools r ext = hasProgressiveTools r' ext :=
  h.perm.any_eq

end

variable {e : SearchEngine J E S} {q : Str} {candidates candidates' : List (ToolEntry J E)}
  {sc : S × ToolEntry J E}

lemma vectorScores_eq (e : SearchEngine J E S) (q : Str) (c : List (ToolEntry J E)) :
    vectorScores e q c = (e.embedQuery.bind fun em => em q).bind fun qe =>
        c.mapM (vectorScore e qe) := by
  rw [Option.bind_assoc]
  rfl

lemma scores_perm (hp : candidates.Perm candidates') :
    (scores e q candidates).Perm (scores e q candidates') := by
  have hb : (bm25Scores e q candidates).Perm (bm25Scores e q candidates') := by
    have hse : (candidates : Multiset (ToolEntry J E)) = candidates' := Multiset.coe_eq_coe.mpr hp
    unfold bm25Scores
    rw [hse]
    exact hp.map _
  rw [scores,scores,vectorScores_eq,vectorScores_eq]
  cases e.embedQuery.bind fun em => em q with
  | none => exact hb
  | some qe =>
    rw [Option.bind_some,Option.bind_some]
    rcases mapM_perm (f := vectorScore e qe) hp with ⟨h,h'⟩ | ⟨s,s',h,h',hs⟩
    · rw [h,h']
      exact hb
    · rw [h,h']
      exact hs

lemma snd_of_vectorScore {q : E} {entry : ToolEntry J E}
    (h : vectorScore e q entry = some sc) : sc.2 = entry := by
  obtain ⟨t,-,h⟩ := Option.bind_eq_some_iff.mp h
  obtain ⟨s,-,h⟩ := Option.bind_eq_some_iff.mp h
  cases h
  rfl

lemma snd_mem_of_mem_scores (h : sc ∈ scores e q candidates) : sc.2 ∈ candidates := by
  rw [scores] at h
  split at h
  · rename_i hv
    rw [vectorScores_eq] at hv
    obtain ⟨qe,-,hv⟩ := Option.bind_eq_some_iff.mp hv
    obtain ⟨entry,he,hsc⟩ := exists_of_mem_mapM hv h
    rw [snd_of_vectorScore hsc]
    exact he
  · obtain ⟨entry,he,rfl⟩ := mem_map.mp h
    exact he

variable [LinearOrder S]

lemma sortBy_rank_scores_congr (h : SamePermitted ext r r') (n : Option Str) (s : ToolSearchScope) :
    sortBy rank (scores e q (searchCandidates r ext n s)) =
      sortBy rank (scores e q (searchCandidates r' ext n s)) := by
  have ht : ∀ sc ∈ scores e q (searchCandidates r ext n s), sc.2 ∈ r.tools := fun sc hsc =>
    mem_tools_of_mem_permittedSnapshot (mem_of_mem_filter (snd_mem_of_mem_scores hsc))
  apply sortBy_eq_of_perm rank (scores_perm (h.perm.filter _))
  intro a ha b hb h
  have heq := toLex_inj.mp h
  rw [Prod.mk.injEq] at heq
  exact Prod.ext (OrderDual.toDual_inj.mp heq.1)
    (eq_of_id_eq (ht a ha) (ht b hb) (key_injective heq.2))

variable (h : SamePermitted ext r r') (request : ToolSearchRequest)
include h

variable (scope : ToolSearchScope)

lemma rankedEntries_congr :
    rankedEntries e r ext request scope = rankedEntries e r' ext request scope := by
  unfold rankedEntries
  simp only [sortBy_rank_scores_congr h]

lemma searchTools_congr :
    searchTools e r ext request scope = searchTools e r' ext request scope := by
  rw [searchTools,searchTools,rankedEntries_congr h]

end ArionGateway.ToolCatalog
