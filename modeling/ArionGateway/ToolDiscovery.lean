import ArionGateway.ToolCatalog

/-!
# Discovery of tools

Clients find tools by `tools/list`, by the tool `tool_search`, by the search endpoint and, in code
mode, by the catalog calls of their programs. All of these answers are determined by the tools
that the request is permitted to use: two registries that agree on them are answered from alike,
whatever else they contain and in whatever order they are read. JSON texts and the parsed forms of
arguments are parameters.
-/
namespace ArionGateway.ToolDiscovery
open ByteStrings TextEncodings ToolPermissions SortedListings ToolCatalog

-- values of JSON, embeddings and scores
variable {J E S : Type}

/-- JSON as text and from text, and the constant schemas. -/
structure Formats (J : Type) where
  schemaText : Schema J → Str
  namesText : List Str → Str
  toolsText : List (Tool J) → Str
  searchBody : List (Tool J) → Str
  parseArguments : J → Except Str ToolSearchRequest
  parseBody : Str → Option ToolSearchRequest
  toolSearchInputSchema : Schema J
  executeInputSchema : Schema J

structure ToolkitEntry where
  name : Str
  description : Str
  instructions : Str
  tools : List ToolId

structure ToolkitSummary where
  name : Str
  description : Str
  toolCount : ℕ
  deriving DecidableEq

structure RenderedToolkit where
  name : Str
  description : Str
  content : Str
  deriving DecidableEq

/-- The toolkits in the order in which their map is read. -/
structure ToolkitRegistry where
  entries : List ToolkitEntry
  nodup_names : (entries.map ToolkitEntry.name).Nodup

def trimEnd : Str → Str
  | [] => []
  | b::s => if isBlank (b::s) then [] else b::trimEnd s

variable (formats : Formats J) (registry : ToolsRegistry J E) (ext : Extensions)

def toolSection (id : ToolId) (entry : ToolEntry J E) : Str :=
  str "\n\n" ++ id.qualifiedName++str "\nInvocation: tools[\"" ++ id.qualifiedName ++
    str "\"](arguments)\nDescription: " ++ entry.description++str "\nInput schema:\n" ++
    formats.schemaText entry.inputSchema++str "\nOutput schema:\n" ++
    formats.schemaText entry.outputSchema

def ToolkitEntry.render (self : ToolkitEntry) (entries : List (ToolEntry J E)) :
    RenderedToolkit where
  name := self.name
  description := self.description
  content := trimEnd self.instructions++str "\n\nTool definitions:" ++
    (List.zipWith (toolSection formats) self.tools entries).flatten

variable (self : ToolkitRegistry)

def visibleSummaries : List ToolkitSummary :=
  (sortBy (fun entry => textKey entry.name) self.entries).filterMap fun entry =>
    (permittedEntriesById registry ext entry.tools).map fun _ =>
      ⟨entry.name,entry.description,entry.tools.length⟩

def ToolkitRegistry.list (limit offset : Option ℕ) :
    Except CallToolError (CatalogPage ToolkitSummary) :=
  catalogPage (visibleSummaries registry ext self) limit offset

def ToolkitRegistry.get (name : Str) : Option RenderedToolkit := do
  let entry ← self.entries.find? fun entry => entry.name = name
  let resolved ← permittedEntriesById registry ext entry.tools
  return entry.render formats resolved

section

variable [LinearOrder S] (formats : Formats J) (engine : SearchEngine J E S)
  (registry : ToolsRegistry J E) (ext : Extensions)

def toolSearchToolName : Str := str "tool_search"

def toolSearchDescriptionNameLimit : ℕ := 256

def toolSearchDescription (names : List Str) : Str :=
  let total := names.length
  let names := names.take toolSearchDescriptionNameLimit
  let namesJson := formats.namesText names
  let availability :=
    if total > names.length then
      str "Available tool names (truncated; showing " ++ formatDecimal names.length++str " of " ++
        formatDecimal total ++
        str "; more are available, try searching by describing what you need): " ++ namesJson
    else str "Available tool names: " ++ namesJson
  str "Search for additional tools using `query`, optionally filter by `namespace`, and limit " ++
    str "the returned results with `limit`. Returns full MCP tool definitions. When you find a " ++
    str "relevant tool, use the exact returned `name` and follow its `inputSchema`; never invent " ++
    str "or normalize names. " ++ availability

def ToolsMode.listTools : List (Tool J) :=
  let (tools, progressiveNames) := listDisclosedTools registry ext
  if progressiveNames = [] then tools
  else
    sortBy (fun tool => textKey tool.name) (tools ++
      [{ name := toolSearchToolName
         description := toolSearchDescription formats progressiveNames
         inputSchema := formats.toolSearchInputSchema }])

/-- `tools/call` with the name of the search tool; the text of its answer. -/
def ToolsMode.callToolSearch (arguments : J) : Except CallToolError Str :=
  if !hasProgressiveTools registry ext then .error (.toolNotFound toolSearchToolName)
  else
    match formats.parseArguments arguments with
    | .error error =>
      .error (.validationError (str "invalid tool_search arguments: " ++ error))
    | .ok request =>
      (searchTools engine registry ext request .progressive).map formats.toolsText

structure HttpAnswer where
  status : ℕ
  body : Str
  deriving DecidableEq

def handleSearchPostEndpoint (body : Str) : HttpAnswer :=
  match formats.parseBody body with
  | none => ⟨400,str "Malformed or invalid search request"⟩
  | some request =>
    match searchTools engine registry ext request .all with
    | .ok tools => ⟨200,formats.searchBody tools⟩
    | .error (.validationError error) => ⟨400,error⟩
    | .error _ => ⟨500,str "Tool search failed"⟩

end

section

def executeOpening : Str :=
  str "Run TypeScript against a minimal SDK that can programmatically explore and " ++
  str "discover tools available from this MCP server, invoke multiple tools, and " ++
  str "compose their results.\n"

def toolkitIntro : Str :=
  str "\nToolkits are available. A toolkit is a curated collection of tool definitions " ++
  str "for a task, optionally with guidance for composing them. Prefer an available " ++
  str "toolkit when it matches the work to be done.\n\nAvailable toolkits:\n"

def toolkitMore : Str := str "More toolkits are available through catalog.toolkits.list().\n"

def toolkitRetrieval : Str := str "\nRetrieve a toolkit with catalog.toolkits.get(\x7bname\x7d).\n"

def namespaceHeader : Str := str "\nAvailable tool namespaces:\n"

def namespaceMore : Str := str "More namespaces are available through catalog.namespaces.list().\n"

def executeGuidance : Str :=
  str "\nTo programmatically discover tools and toolkits, use:\n- " ++
  str "catalog.namespaces.list(\x7blimit?, offset?\x7d)\n- " ++
  str "catalog.tools.search(\x7bquery, namespace?, limit?\x7d)\n- " ++
  str "catalog.tools.list(\x7bnamespace, limit?, offset?\x7d)\n- " ++
  str "catalog.tools.describe(\x7bnamespace, name\x7d)\n- " ++
  str "catalog.toolkits.list(\x7blimit?, offset?\x7d)\n- " ++
  str "catalog.toolkits.get(\x7bname\x7d)\n\nInvoke only exact qualified names, " ++
  str "preferably with tools[\"namespace.name\"](arguments).\n\nCalls return " ++
  str "\x7bok:true,data,...\x7d or \x7bok:false,error,...\x7d. Branch on ok, use " ++
  str "Promise.all for independent calls, and explicitly return the final value."

def maxExecuteDescriptionBytes : ℕ := 4*1024

/-- Entries are added as long as they fit; whether some were omitted. -/
def pushEntries (reserved : ℕ) : Str → List Str → Str × Bool
  | description, [] => (description, false)
  | description, entry::entries =>
    if description.length+entry.length+reserved > maxExecuteDescriptionBytes then
      (description, true)
    else pushEntries reserved (description++entry) entries

def pushToolkits (toolkits : List ToolkitSummary) (hasNamespaces : Bool) (description : Str) :
    Str :=
  if toolkits = [] then description
  else
    let namespaceReserve := if hasNamespaces then namespaceHeader.length+namespaceMore.length else 0
    let reserved :=
      toolkitMore.length+toolkitRetrieval.length+namespaceReserve+executeGuidance.length
    let (description, omitted) := pushEntries reserved (description++toolkitIntro)
      (toolkits.map fun toolkit =>
        str "- " ++ toolkit.name++str " — " ++ toolkit.description++str "\n")
    description++(if omitted then toolkitMore else [])++toolkitRetrieval

def pushNamespaces (namespaces : List NamespaceSummary) (moreNamespaces : Bool)
    (description : Str) : Str :=
  if namespaces = [] then description
  else
    let reserved := namespaceMore.length+executeGuidance.length
    let (description, omitted) := pushEntries reserved (description++namespaceHeader)
      (namespaces.map fun summary => str "- " ++ summary.nameSpace++str "\n")
    description++if moreNamespaces || omitted then namespaceMore else []

def executeDescription (toolkits : List ToolkitSummary) (namespaces : List NamespaceSummary)
    (moreNamespaces : Bool) : Str :=
  pushNamespaces namespaces moreNamespaces
    (pushToolkits toolkits (namespaces != []) executeOpening)++executeGuidance

def executeToolName : Str := str "execute"

variable (formats : Formats J) (toolkits : ToolkitRegistry) (registry : ToolsRegistry J E)
  (ext : Extensions)

def CodeMode.listTools : Except CallToolError (List (Tool J)) := do
  let summaries := visibleSummaries registry ext toolkits
  let namespaces ← catalogNamespaces registry ext (some 100) (some 0)
  return [{ name := executeToolName
            description := executeDescription summaries namespaces.items namespaces.hasMore
            inputSchema := formats.executeInputSchema }]

inductive CatalogRequest where
  | namespacesList (limit offset : Option ℕ)
  | toolsSearch (query : Str) (nameSpace : Option Str) (limit : Option ℕ)
  | toolsList (nameSpace : Str) (limit offset : Option ℕ)
  | toolsDescribe (nameSpace name : Str)
  | toolkitsList (limit offset : Option ℕ)
  | toolkitsGet (name : Str)

inductive CatalogData (J : Type) where
  | namespaces (page : CatalogPage NamespaceSummary)
  | found (items : List CompactToolDefinition)
  | tools (page : CatalogPage CompactToolDefinition)
  | definition (definition : ToolDefinition J)
  | toolkits (page : CatalogPage ToolkitSummary)
  | toolkit (toolkit : RenderedToolkit)

structure ErrorEnvelope where
  code : Str
  message : Str
  retryable : Bool
  deriving DecidableEq

def catalogErrorEnvelope (error : CallToolError) : ErrorEnvelope :=
  match error with
  | .validationError _ => ⟨str "invalid_input",error.display,false⟩
  | .toolNotFound _ => ⟨str "not_found",str "The requested catalog entry was not found.",false⟩

variable [LinearOrder S] (engine : SearchEngine J E S)

def catalogData : CatalogRequest → Except CallToolError (CatalogData J)
  | .namespacesList limit offset =>
    (catalogNamespaces registry ext limit offset).map .namespaces
  | .toolsSearch query nameSpace limit =>
    (catalogSearchTools engine registry ext { query, limit, nameSpace }).map .found
  | .toolsList nameSpace limit offset =>
    (catalogListTools registry ext nameSpace limit offset).map .tools
  | .toolsDescribe nameSpace name =>
    match ToolId.new nameSpace name with
    | .error error => .error (.validationError error.display)
    | .ok id =>
      match catalogDescribeTool registry ext id with
      | none => .error (.toolNotFound id.qualifiedName)
      | some definition => .ok (.definition definition)
  | .toolkitsList limit offset =>
    (toolkits.list registry ext limit offset).map .toolkits
  | .toolkitsGet name =>
    match toolkits.get formats registry ext name with
    | none => .error (.toolNotFound name)
    | some toolkit => .ok (.toolkit toolkit)

def catalog (request : CatalogRequest) : Except ErrorEnvelope (CatalogData J) :=
  (catalogData formats toolkits registry ext engine request).mapError catalogErrorEnvelope

inductive GatewayMode where
  | tools
  | code (toolkits : ToolkitRegistry)

structure Gateway (J E S : Type) where
  formats : Formats J
  engine : SearchEngine J E S
  mode : GatewayMode

inductive DiscoveryRequest (J : Type) where
  | listTools
  | callToolSearch (arguments : J)
  | postSearch (body : Str)
  | catalog (request : CatalogRequest)

inductive DiscoveryAnswer (J : Type) where
  | tools (tools : Except CallToolError (List (Tool J)))
  | content (text : Except CallToolError Str)
  | http (answer : HttpAnswer)
  | catalog (data : Except ErrorEnvelope (CatalogData J))

/-- The answer to a request. In tools mode there is no program that could call the
catalog, and code mode has no search but that of the catalog. -/
def Gateway.answer (self : Gateway J E S) (registry : ToolsRegistry J E) (ext : Extensions)
    (request : DiscoveryRequest J) : DiscoveryAnswer J :=
  match self.mode, request with
  | .tools, .listTools => .tools (.ok (ToolsMode.listTools self.formats registry ext))
  | .tools, .callToolSearch arguments =>
    .content (ToolsMode.callToolSearch self.formats self.engine registry ext arguments)
  | .tools, .postSearch body =>
    .http (handleSearchPostEndpoint self.formats self.engine registry ext body)
  | .tools, .catalog _ => .content (.error (.toolNotFound executeToolName))
  | .code toolkits, .listTools =>
    .tools (CodeMode.listTools self.formats toolkits registry ext)
  | .code _, .callToolSearch _ => .content (.error (.toolNotFound toolSearchToolName))
  | .code _, .postSearch _ => .http ⟨404,str "Route not found"⟩
  | .code toolkits, .catalog request =>
    .catalog (catalog self.formats toolkits registry ext self.engine request)

end

open Gateway

variable {formats : Formats J} {ext : Extensions} {r r' : ToolsRegistry J E}

lemma visibleSummaries_congr (h : SamePermitted ext r r') (t : ToolkitRegistry) :
    visibleSummaries r ext t = visibleSummaries r' ext t := by
  simp only [visibleSummaries,permittedEntriesById_congr h]

variable [LinearOrder S] {engine : SearchEngine J E S}

lemma catalogData_congr (h : SamePermitted ext r r') (t : ToolkitRegistry)
    (request : CatalogRequest) :
    catalogData formats t r ext engine request = catalogData formats t r' ext engine request := by
  cases request with
  | namespacesList l o => simp only [catalogData,catalogNamespaces_congr h]
  | toolsSearch q n l => simp only [catalogData,catalogSearchTools,rankedEntries_congr h]
  | toolsList n l o => simp only [catalogData,catalogListTools_congr h]
  | toolsDescribe n na => simp only [catalogData,catalogDescribeTool,h.filter_getTool]
  | toolkitsList l o => simp only [catalogData,ToolkitRegistry.list,visibleSummaries_congr h]
  | toolkitsGet na => simp only [catalogData,ToolkitRegistry.get,permittedEntriesById_congr h]

/-- Tools that a request is not permitted to use have no influence on any answer. -/
theorem answer_eq_of_samePermitted (gateway : Gateway J E S) (h : SamePermitted ext r r')
    (request : DiscoveryRequest J) :
    gateway.answer r ext request = gateway.answer r' ext request := by
  obtain ⟨formats,engine,m⟩ := gateway
  cases m with
  | tools =>
    cases request with
    | listTools => simp only [answer,ToolsMode.listTools,listDisclosedTools_congr h]
    | callToolSearch a =>
      simp only [answer,ToolsMode.callToolSearch,hasProgressiveTools_congr h,
        searchTools_congr h]
    | postSearch b => simp only [answer,handleSearchPostEndpoint,searchTools_congr h]
    | catalog request => rfl
  | code toolkits =>
    cases request with
    | listTools =>
      simp only [answer,CodeMode.listTools,visibleSummaries_congr h,
        catalogNamespaces_congr h]
    | callToolSearch a | postSearch b => rfl
    | catalog request => simp only [answer,catalog,catalogData_congr h]

def findCustomer : ToolEntry Unit Unit where
  id := ⟨str "crm",str "find",rfl⟩
  description := str "Find a customer"
  inputSchema := []
  outputSchema := []
  rbac := none
  disclosureMode := .progressive
  embedding := none

def deleteCustomer : ToolEntry Unit Unit where
  id := ⟨str "crm",str "delete",rfl⟩
  description := str "Delete a customer"
  inputSchema := []
  outputSchema := []
  rbac := some {}
  disclosureMode := .progressive
  embedding := some ()

def publicTools : ToolsRegistry Unit Unit where
  tools := [findCustomer]
  nodup_ids := List.nodup_singleton _

def allTools : ToolsRegistry Unit Unit where
  tools := [deleteCustomer,findCustomer]
  nodup_ids := by decide +kernel

def plainGateway : Gateway Unit Unit ℕ where
  formats := {
    schemaText := fun _ => []
    namesText := List.flatten
    toolsText := fun tools => tools.flatMap Tool.name
    searchBody := fun tools => tools.flatMap Tool.name
    parseArguments := fun _ => .ok ⟨str "customer",none,none⟩
    parseBody := fun body => some ⟨body,none,none⟩
    toolSearchInputSchema := []
    executeInputSchema := [] }
  engine := {
    maxAllowableResults := 10
    embedQuery := none
    cosineSimilarity := fun _ _ => none
    bm25Score := fun _ _ entry => entry.description.length }
  mode := .tools

/-- The search does not tell whether there is a tool to delete customers. -/
theorem search_hides_deleteCustomer :
    publicTools.tools.length ≠ allTools.tools.length ∧
      plainGateway.answer publicTools {} (.callToolSearch ()) =
        plainGateway.answer allTools {} (.callToolSearch ()) := by
  have hsa : SamePermitted {} publicTools allTools := fun _ => Iff.rfl
  exact ⟨by decide,answer_eq_of_samePermitted plainGateway hsa (.callToolSearch ())⟩

end ArionGateway.ToolDiscovery
