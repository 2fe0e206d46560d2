import ArionGateway.DelimitedText
import ArionGateway.FallibleSteps
import ArionGateway.TextEncodings
import ArionGateway.UriTemplates

/-!
# Paths of REST tools

A path of an OpenAPI document becomes a template in which every parameter is put in through the
filter `encode_path_segment`, which escapes every byte that is not unreserved. Dots are
unreserved, so a segment into which values are put may become a dot segment: the request then
addresses another path. Apart from this the path differs from the document only by what the
document itself writes: a query or a fragment in a path, an escape without its digits, a path that
does not begin with a slash, and parameters with the names of literals of the template language.
-/
namespace ArionGateway.RestPaths
open ByteStrings HttpHeaders DelimitedText FallibleSteps TextEncodings UriPaths UriTemplates List

variable {N : Type}

def openBrace : UInt8 := 123
def closeBrace : UInt8 := 125
def underscore : UInt8 := 95

def isIdentByte (b : UInt8) : Bool := isAlphanumeric b || b == underscore

def isIdent (name : Str) : Bool := name.all isIdentByte && !name.head?.all isDigit

/-- Every other character becomes one underscore. -/
def sanitizeIdent (name : Str) : Str :=
  let sanitized := name.filterMap fun b =>
    if isIdentByte b then some b
    -- the bytes of a character after its first one
    else if 128 ≤ b && b < 192 then none
    else some underscore
  if sanitized.head?.all isDigit then underscore::sanitized else sanitized

def parameterEnd : Str := str " | encode_path_segment\x7d\x7d"

/-- The source of a piece in the template language. -/
def pieceSource : Piece → Str
  | .text literal => literal
  | .parameter name => openBrace::openBrace::name++parameterEnd

def templateText (pieces : List Piece) : Str := pieces.flatMap pieceSource

/-- The loop of `convert_path_template`: the text before each parameter with the name
of the parameter, and the rest. -/
def scanPath (rawPath : Str) : ℕ → Str → Except Str (List (Str × Str) × Str)
  | 0, rest => .ok ([], rest)
  | fuel+1, rest =>
    match splitOnce openBrace rest with
    | none => .ok ([], rest)
    | some (before, remainder) =>
      match splitOnce closeBrace remainder with
      | none => .error (str "unbalanced '\x7b' in path '" ++ rawPath++str "'")
      | some (name, tail) =>
        if name = [] then .error (str "empty path parameter in '" ++ rawPath++str "'")
        else
          (scanPath rawPath fuel tail).map fun (parts, rest) => ((before, name)::parts, rest)

def scan (rawPath : Str) : Except Str (List (Str × Str) × Str) :=
  scanPath rawPath (rawPath.length+1) rawPath

def piecesOf : List (Str × Str) → Str → List Piece
  | [], rest => [.text rest]
  | (before, name)::parts, rest =>
    .text before::.parameter (sanitizeIdent name)::piecesOf parts rest

def convertPathTemplate (rawPath : Str) : Except Str (Str × List Str) :=
  match scan rawPath with
  | .error error => .error error
  | .ok (parts, rest) =>
    if closeBrace ∈ rest then .error (str "unbalanced '\x7d' in path '" ++ rawPath++str "'")
    else .ok (templateText (piecesOf parts rest), parts.map Prod.snd)

/-- The base path belongs to the first text. -/
def withBase (base : Str) : List Piece → List Piece
  | .text literal::pieces => .text (base++literal)::pieces
  | pieces => .text base::pieces

def toolPieces (base rawPath : Str) : List Piece :=
  match scan rawPath with
  | .error _ => []
  | .ok (parts, rest) => withBase base (piecesOf parts rest)

section

/-- Values of JSON, which are those of templates. -/
inductive Value (N : Type) where
  | null
  | bool (value : Bool)
  | number (value : N)
  | string (value : Str)
  | array (values : List (Value N))
  | object (fields : List (Str × Value N))

abbrev Arguments (N : Type) := Str → Option (Value N)

/-- What pieces stand for under a filter. -/
def renderPieces (filter : Value N → Except Str Str) (lookup : Arguments N) :
    List Piece → Except Str Str
  | [] => .ok []
  | .text literal::pieces => (renderPieces filter lookup pieces).map (literal++·)
  | .parameter name::pieces =>
    match lookup name with
    | none => .error (str "not found in this scope")
    | some value => do
        let text ← filter value
        let rest ← renderPieces filter lookup pieces
        return text++rest

/-- The libraries: texts of numbers and of JSON values, the template engine, and the
parser of URIs. A template of texts and filtered identifiers that can be rendered is
rendered piece by piece, where some words are literals and not names of arguments. The
path of a URI that begins with a slash ends at the query or the fragment. -/
structure Libraries (N : Type) where
  displayNumber : N → Str
  jsonText : Value N → Str
  literal : Str → Option (Value N)
  Template : Type
  addTemplate : Str → Except Str Template
  render : Template → (Value N → Except Str Str) → Arguments N → Except Str Str
  uriPath : Str → Option Str
  render_eq : ∀ (pieces : List Piece) (template : Template) (filter : Value N → Except Str Str)
    (arguments : Arguments N) (rendered : Str), (∀ text, .text text ∈ pieces → openBrace ∉ text) →
    (∀ name, .parameter name ∈ pieces → isIdent name = true) →
    addTemplate (templateText pieces) = .ok template →
    render template filter arguments = .ok rendered →
    renderPieces filter (fun name => (literal name).or (arguments name)) pieces = .ok rendered
  uriPath_eq : ∀ uri path : Str, uri.head? = some slash → uriPath uri = some path →
    path = pathPart uri

variable (lib : Libraries N)

/-- `URI_COMPONENT_SET`: letters, digits, `-`, `_`, `.` and `~` are kept. -/
def isUnreserved (b : UInt8) : Bool :=
  isAlphanumeric b || b == 45 || b == underscore || b == 46 || b == 126

def uriComponentSet : EncodeSet where
  keeps := isUnreserved
  ne_of_keeps b h := by
    refine ⟨?_,?_,?_,?_⟩ <;> (rintro rfl; cases h)

def scalarText : Value N → Option Str
  | .null => some (str "null")
  | .bool value => some (if value then str "true" else str "false")
  | .number value => some (lib.displayNumber value)
  | .string value => some value
  | .array _ => none
  | .object _ => none

def encodePathSegment (value : Value N) : Except Str Str :=
  match scalarText lib value with
  | none => .error (str "path parameters must be scalar values")
  | some text => .ok (percentEncode isUnreserved text)

structure McpRestQueryParams where
  name : Str
  source : Str

def fieldsGet (fields : List (Str × Value N)) (name : Str) : Option (Value N) :=
  (fields.find? fun field => decide (field.1 = name)).map Prod.snd

/-- Resolves a path of names such as `user.name`. -/
def resolveVariable (path : Str) (arguments : Arguments N) : Option (Value N) :=
  match path.splitOn dot with
  | [] => none
  | first::parts => parts.foldl (fun current part =>
    match current with
    | some (.object fields) => fieldsGet fields part
    | _ => none) (arguments first)

def formatVariable : Value N → Str
  | .string value => value
  | .null => str "null"
  | .bool value => if value then str "true" else str "false"
  | value => lib.jsonText value

/-- The names and values of the query. -/
def queryPairs (queryParams : List McpRestQueryParams) (arguments : Arguments N) :
    List (Str × Value N) :=
  queryParams.flatMap fun param =>
    match resolveVariable param.source arguments with
    | some (.array values) => values.map fun value => (param.name, value)
    | some value => [(param.name, value)]
    | none => []

def queryString (first : Bool) : List (Str × Value N) → Str
  | [] => []
  | (name, value)::pairs =>
    (if first then questionMark else 38)::percentEncode isUnreserved name++[equalsSign] ++
      percentEncode isUnreserved (formatVariable lib value)++queryString false pairs

def appendQueryString (uri : Str) (queryParams : List McpRestQueryParams)
    (arguments : Arguments N) : Str :=
  uri++queryString lib true (queryPairs queryParams arguments)

inductive CompiledTemplate (lib : Libraries N) where
  | static (text : Str)
  | dynamic (template : lib.Template)

structure RestBackend (lib : Libraries N) where
  method : Str
  queryParams : List McpRestQueryParams
  path : CompiledTemplate lib
  body : Option (CompiledTemplate lib)
  bodyJson : Option Str

inductive ToolBuilderError where
  | conflictingBodyModes
  | failedCompilingTemplate (error : Str)
  deriving DecidableEq

/-- The text has an expression of the template language. -/
def isDynamic (text : Str) : Bool :=
  text.tails.any fun rest => startsWith rest [openBrace,openBrace]

/-- A text with expressions is a template, and another one is kept as `static` has it. -/
def CompiledTemplate.compile (static : Str → Str) (text : Str) :
    Except ToolBuilderError (CompiledTemplate lib) :=
  if isDynamic text then
    match lib.addTemplate text with
    | .error error => .error (.failedCompilingTemplate error)
    | .ok template => .ok (.dynamic template)
  else .ok (.static (static text))

def RestBackend.compile (method path : Str) (queryParams : List McpRestQueryParams)
    (bodyTemplate bodyJson : Option Str) : Except ToolBuilderError (RestBackend lib) :=
  if bodyTemplate.isSome && bodyJson.isSome then .error .conflictingBodyModes
  else do
    let path ← CompiledTemplate.compile lib rooted path
    let body ← bodyTemplate.mapM (CompiledTemplate.compile lib id)
    return { method, queryParams, path, body, bodyJson }

inductive RequestBuildError where
  | template (error : Str)
  | http
  deriving DecidableEq

structure Request where
  method : Str
  path : Str
  userAgent : Str
  contentType : Option Str
  body : Option Str

def defaultUserAgent : Str := str "arion/0.1.0"

variable {lib}

def renderTemplate (template : lib.Template) (arguments : Arguments N) :
    Except RequestBuildError Str :=
  (lib.render template (encodePathSegment lib) arguments).mapError .template

def CompiledTemplate.uri (arguments : Arguments N) :
    CompiledTemplate lib → Except RequestBuildError Str
  | .static path => .ok path
  | .dynamic template => (renderTemplate template arguments).map rooted

def RestBackend.renderBody (self : RestBackend lib) (arguments : Arguments N) :
    Except RequestBuildError (Option Str) :=
  match self.body with
  | some (.static body) => .ok (some body)
  | some (.dynamic template) => (renderTemplate template arguments).map some
  | none =>
    .ok ((self.bodyJson.bind fun source => resolveVariable source arguments).map lib.jsonText)

def RestBackend.buildRequest (self : RestBackend lib) (httpHeaders : HeaderMap)
    (arguments : Arguments N) : Except RequestBuildError Request := do
  let uri ← self.path.uri arguments
  let uri := appendQueryString lib uri self.queryParams arguments
  let userAgent := ((httpHeaders.get (str "user-agent")).bind toStr).getD defaultUserAgent
  let body ← self.renderBody arguments
  match lib.uriPath uri with
  | none => .error .http
  | some path =>
    return {
      method := self.method
      path
      userAgent
      contentType := body.map fun _ => str "application/json"
      body }

variable {pieces : List Piece} {r b : Str} {pa : List (Str × Str)}

lemma isIdent_sanitizeIdent (n : Str) : isIdent (sanitizeIdent n) = true := by
  have hby : ∀ b ∈ n.filterMap (fun b =>
      if isIdentByte b then some b else if 128 ≤ b && b < 192 then none else some underscore),
      isIdentByte b = true := by
    intro b hb
    obtain ⟨c,-,hc⟩ := mem_filterMap.mp hb
    split_ifs at hc with hi
    · rw [← Option.some.inj hc]
      exact hi
    · rw [← Option.some.inj hc]
      rfl
  rw [sanitizeIdent]
  split_ifs with hd
  · rw [isIdent,all_cons,all_eq_true.mpr hby]
    rfl
  · rw [isIdent,all_eq_true.mpr hby,Bool.eq_false_iff.mpr hd]
    rfl

lemma openBrace_not_mem_of_scanPath {fuel : ℕ} {t rest : Str} (hf : t.length < fuel)
    (h : scanPath r fuel t = .ok (pa, rest)) : (∀ p ∈ pa, openBrace ∉ p.1) ∧ openBrace ∉ rest := by
  fun_induction scanPath r fuel t generalizing pa with
  | case1 => omega
  | case2 fuel t ho =>
    cases h
    refine ⟨fun p hpa => absurd hpa not_mem_nil,fun hm => ?_⟩
    simp [splitOnce,hm] at ho
  | case3 | case4 => cases h
  | case5 fuel t be re ho n ta hc _ ih =>
    obtain ⟨rfl,hb⟩ := splitOnce_eq_some ho
    obtain ⟨rfl,-⟩ := splitOnce_eq_some hc
    obtain ⟨⟨p',r'⟩,hsc,heq⟩ := map_eq_ok.mp h
    cases heq
    have hl : ta.length < fuel := by
      simp only [length_append,length_cons] at hf
      omega
    obtain ⟨hp,hr⟩ := ih hl hsc
    exact ⟨forall_mem_cons.mpr ⟨hb,hp⟩,hr⟩

/-- The pieces that the template language reads back. -/
structure Readable (pieces : List Piece) : Prop where
  texts : ∀ text, .text text ∈ pieces → openBrace ∉ text
  names : ∀ name, .parameter name ∈ pieces → isIdent name = true

lemma Readable.tail {p : Piece} (h : Readable (p::pieces)) : Readable pieces where
  texts text ht := h.texts text (mem_cons_of_mem p ht)
  names name hn := h.names name (mem_cons_of_mem p hn)

lemma Readable.text {t : Str} (h : Readable pieces) (ht : openBrace ∉ t) :
    Readable (.text t::pieces) where
  texts := by simpa using ⟨ht,h.texts⟩
  names := by simpa using h.names

lemma Readable.parameter {n : Str} (h : Readable pieces) (hn : isIdent n = true) :
    Readable (.parameter n::pieces) where
  texts := by simpa using h.texts
  names := by simpa using ⟨hn,h.names⟩

lemma readable_piecesOf {r : Str} (hp : ∀ p ∈ pa, openBrace ∉ p.1) (hr : openBrace ∉ r) :
    Readable (piecesOf pa r) := by
  induction pa with
  | nil => exact Readable.text ⟨nofun,nofun⟩ hr
  | cons p pa ih =>
    obtain ⟨hpa,hp⟩ := forall_mem_cons.mp hp
    exact ((ih hp).parameter (isIdent_sanitizeIdent p.2)).text hpa

lemma Readable.withBase (h : Readable pieces) (hb : openBrace ∉ b) :
    Readable (withBase b pieces) := by
  match pieces with
  | [] => exact h.text hb
  | .parameter name::rest => exact h.text hb
  | .text literal::rest =>
    have hl := h.texts literal mem_cons_self
    apply h.tail.text
    rw [mem_append,not_or]
    exact ⟨hb,hl⟩

lemma templateText_withBase (b : Str) (pieces : List Piece) :
    templateText (withBase b pieces) = b++templateText pieces := by
  match pieces with
  | [] => rfl
  | .text literal::rest => exact append_assoc b literal _
  | .parameter name::rest => rfl

lemma toolPieces_of_convertPathTemplate {template : Str} {p : List Str}
    (h : convertPathTemplate r = .ok (template, p)) (hb : openBrace ∉ b) :
    Readable (toolPieces b r) ∧ templateText (toolPieces b r) = b++template := by
  rw [convertPathTemplate] at h
  rw [toolPieces]
  cases hsc : scan r with
  | error error =>
    rw [hsc] at h
    cases h
  | ok scanned =>
    simp only [hsc] at h
    split_ifs at h
    cases h
    obtain ⟨hp,hr⟩ := openBrace_not_mem_of_scanPath (Nat.lt_succ_self _) hsc
    exact ⟨(readable_piecesOf hp hr).withBase hb,templateText_withBase b _⟩

lemma isDynamic_of_parameter {n : Str} (h : .parameter n ∈ pieces) :
    isDynamic (templateText pieces) = true := by
  obtain ⟨be,after,rfl⟩ := append_of_mem h
  refine any_eq_true.mpr
    ⟨pieceSource (.parameter n)++templateText after,(mem_tails ..).mpr ?_,rfl⟩
  have hso : templateText (be++.parameter n::after) = templateText be ++
      (pieceSource (.parameter n)++templateText after) := flatMap_append
  rw [hso]
  exact suffix_append ..

open CompiledTemplate

variable {arguments : Arguments N}

def Libraries.lookup (lib : Libraries N) (arguments : Arguments N) (name : Str) :
    Option (Value N) :=
  (lib.literal name).or (arguments name)

def valueText (lib : Libraries N) (arguments : Arguments N) (name : Str) : Str :=
  ((lib.lookup arguments name).bind (scalarText lib)).getD []

def argumentText (lib : Libraries N) (arguments : Arguments N) (name : Str) : Str :=
  ((arguments name).bind (scalarText lib)).getD []

lemma scalarText_of_encodePathSegment {v : Value N} {text : Str}
    (h : encodePathSegment lib v = .ok text) :
    ∃ s, scalarText lib v = some s ∧ percentEncode isUnreserved s = text := by
  rw [encodePathSegment] at h
  split at h
  · cases h
  next s hs =>
    cases h
    exact ⟨s,hs,rfl⟩

lemma renderPieces_encodePathSegment {r : Str}
    (h : renderPieces (encodePathSegment lib) (lib.lookup arguments) pieces = .ok r) :
    r = renderedText uriComponentSet (valueText lib arguments) pieces := by
  induction pieces generalizing r with
  | nil =>
    cases h
    rfl
  | cons piece pieces ih =>
    cases piece with
    | text literal =>
      obtain ⟨rest,hr,rfl⟩ := map_eq_ok.mp h
      rw [ih hr]
      rfl
    | parameter name =>
      rw [renderPieces] at h
      split at h
      · cases h
      next value hl =>
        obtain ⟨text,ht,h⟩ := bind_eq_ok.mp h
        obtain ⟨rest,hr,h⟩ := bind_eq_ok.mp h
        cases h
        obtain ⟨scalar,hsc,rfl⟩ := scalarText_of_encodePathSegment ht
        have hv : valueText lib arguments name = scalar := by
          rw [valueText,hl,Option.bind_some,hsc,Option.getD_some]
        rw [ih hr,renderedText,renderedText,flatMap_cons,Piece.rendered,hv]
        rfl

lemma renderedText_of_no_parameters (set : EncodeSet) (v : Str → Str)
    (h : ∀ n, .parameter n ∉ pieces) : renderedText set v pieces = templateText pieces := by
  refine flatMap_congr fun p hp => ?_
  cases p with
  | text li => rfl
  | parameter n => exact absurd hp (h n)

lemma uri_of_compile {p : CompiledTemplate lib} {uri : Str} (hr : Readable pieces)
    (hc : compile lib rooted (templateText pieces) = .ok p)
    (hu : p.uri arguments = .ok uri) :
    uri = rooted (renderedText uriComponentSet (valueText lib arguments) pieces) := by
  rw [compile] at hc
  split_ifs at hc with hd
  · split at hc
    · cases hc
    next template ha =>
      cases hc
      obtain ⟨rendered,hre,rfl⟩ := map_eq_ok.mp hu
      have hrn := lib.render_eq pieces template _ arguments rendered hr.texts
        hr.names ha (mapError_eq_ok.mp hre)
      rw [renderPieces_encodePathSegment hrn]
  · cases hc
    cases hu
    rw [renderedText_of_no_parameters _ _ fun name hn =>
      hd (isDynamic_of_parameter hn)]

lemma head?_rooted (p : Str) : (rooted p).head? = some slash := by
  rw [rooted]
  split_ifs with h
  · exact h
  · rfl

lemma pathPart_appendQueryString (uri : Str) (q : List McpRestQueryParams) :
    pathPart (appendQueryString lib uri q arguments) = pathPart uri := by
  rw [appendQueryString]
  cases queryPairs q arguments with
  | nil => rw [queryString,append_nil]
  | cons pr p =>
    unfold pathPart
    induction uri with
    | nil => rfl
    | cons b s ih => rw [cons_append,takeWhile_cons,takeWhile_cons,ih]

lemma path_of_buildRequest {m : Str} {q : List McpRestQueryParams}
    {b bj : Option Str} {ba : RestBackend lib} {headers : HeaderMap}
    {r : Request} (hr : Readable pieces) (hc : RestBackend.compile lib m (templateText pieces) q b
      bj = .ok ba) (hb : ba.buildRequest headers arguments = .ok r) :
    r.path = pathPart (rooted (renderedText uriComponentSet (valueText lib arguments) pieces)) := by
  have hpa : compile lib rooted (templateText pieces) = .ok ba.path := by
    rw [RestBackend.compile] at hc
    split_ifs at hc with hm
    obtain ⟨p,hpa,hc⟩ := bind_eq_ok.mp hc
    obtain ⟨bo,-,hc⟩ := bind_eq_ok.mp hc
    cases hc
    exact hpa
  obtain ⟨uri,hu,hb⟩ := bind_eq_ok.mp hb
  obtain ⟨bo,-,hb⟩ := bind_eq_ok.mp hb
  have hu := uri_of_compile hr hpa hu
  subst hu
  split at hb
  · cases hb
  next p hp =>
    cases hb
    rw [← pathPart_appendQueryString]
    refine lib.uriPath_eq _ p ?_ hp
    rw [appendQueryString,head?_append,head?_rooted]
    rfl

/-- What a call of a tool asks for: for every parameter the text of its argument is put
in, and the reader of the path gets the segments of the document, with decoded texts and
the texts of the arguments. -/
structure Addresses (lib : Libraries N) (pieces : List Piece) (arguments : Arguments N)
    (path : Str) : Prop where
  values : ∀ name, .parameter name ∈ pieces →
    (lib.lookup arguments name).bind (scalarText lib) = (arguments name).bind (scalarText lib)
  segments : readSegments path.tail =
    (segmentsOf (relative pieces)).map (meaningText (argumentText lib arguments))

/-- Parameters have no names of literals with other texts than the argument, nothing but
a slash comes before the first slash, texts begin no query or fragment, no escape begins
in a text and ends in an argument, and no segment is a dot segment. -/
structure Faithful (lib : Libraries N) (pieces : List Piece) (arguments : Arguments N) :
    Prop where
  words : ∀ name, .parameter name ∈ pieces → ∀ value, lib.literal name = some value →
    (arguments name).bind (scalarText lib) = scalarText lib value
  root : leadsWithSlash (argumentText lib arguments) pieces = true → isAbsolute pieces = true
  pathOnly : PathOnly (relative pieces)
  escapes : ∀ segment ∈ segmentsOf (relative pieces),
    EscapesApart uriComponentSet (argumentText lib arguments) segment
  dots : ∀ segment ∈ segmentsOf (relative pieces),
    ¬ IsDotSegment (meaningText (argumentText lib arguments) segment)

lemma values_iff_words :
    (∀ n, .parameter n ∈ pieces → (lib.lookup arguments n).bind (scalarText lib) =
        (arguments n).bind (scalarText lib)) ↔
      ∀ n, .parameter n ∈ pieces → ∀ value, lib.literal n = some value →
        (arguments n).bind (scalarText lib) = scalarText lib value := by
  refine forall₂_congr fun n _ => ?_
  rw [Libraries.lookup]
  cases lib.literal n with
  | none => exact iff_of_true rfl nofun
  | some li =>
    constructor
    · intro h value hv
      cases hv
      exact h.symm
    · intro h
      exact (h li rfl).symm

lemma renderedText_congr {set : EncodeSet} {v v' : Str → Str}
    (h : ∀ n, .parameter n ∈ pieces → v n = v' n) :
    renderedText set v pieces = renderedText set v' pieces := by
  refine flatMap_congr fun p hp => ?_
  cases p with
  | text li => rfl
  | parameter n => rw [Piece.rendered,Piece.rendered,h n hp]

lemma addresses_iff_faithful {p : Str} (hp : p =
      pathPart (rooted (renderedText uriComponentSet (valueText lib arguments) pieces))) :
    Addresses lib pieces arguments p ↔ Faithful lib pieces arguments := by
  have hse (hv : ∀ n, .parameter n ∈ pieces →
      (lib.lookup arguments n).bind (scalarText lib) = (arguments n).bind (scalarText lib)) :
      p.tail = pathPart (rooted
        (renderedText uriComponentSet (argumentText lib arguments) pieces)).tail := by
    have hre : renderedText uriComponentSet (valueText lib arguments) pieces =
        renderedText uriComponentSet (argumentText lib arguments) pieces :=
      renderedText_congr fun n hn => by rw [valueText,argumentText,hv n hn]
    obtain ⟨re,hrs⟩ := head?_eq_some_iff.mp (head?_rooted (renderedText uriComponentSet
      (argumentText lib arguments) pieces))
    rw [hp,hre,hrs]
    rfl
  constructor
  · rintro ⟨hv,hrd⟩
    rw [hse hv] at hrd
    obtain ⟨hr,ho,he,hd⟩ := (readSegments_rooted_iff pieces).mp hrd
    exact ⟨values_iff_words.mp hv,hr,ho,he,hd⟩
  · rintro ⟨hw,hr,ho,he,hd⟩
    have hv := values_iff_words.mpr hw
    refine ⟨hv,?_⟩
    rw [hse hv]
    exact (readSegments_rooted_iff pieces).mpr ⟨hr,ho,he,hd⟩

/-- A request addresses the path of its tool exactly under the conditions. -/
theorem request_addresses_iff {rawPath template base method : Str} {parameters : List Str}
    {queryParams : List McpRestQueryParams} {bodyTemplate bodyJson : Option Str}
    {backend : RestBackend lib} {headers : HeaderMap} {request : Request}
    (hconvert : convertPathTemplate rawPath = .ok (template, parameters))
    (hbase : ∀ b ∈ base, b ≠ openBrace ∧ b ≠ closeBrace)
    (hcompile : RestBackend.compile lib method (base ++ template) queryParams bodyTemplate
      bodyJson = .ok backend) (hbuild : backend.buildRequest headers arguments = .ok request) :
    Addresses lib (toolPieces base rawPath) arguments request.path ↔
      Faithful lib (toolPieces base rawPath) arguments := by
  obtain ⟨hr,ht⟩ := toolPieces_of_convertPathTemplate hconvert fun hm => (hbase openBrace hm).1 rfl
  rw [← ht] at hcompile
  exact addresses_iff_faithful (path_of_buildRequest hr hcompile hbuild)

end

def renderText (filter : Value N → Except Str Str) (lookup : Arguments N) : ℕ → Str → Except Str Str
  | 0, _ => .ok []
  | _+1, [] => .ok []
  | fuel+1, c::text =>
    if c = openBrace then
      match stripStart parameterEnd (text.tail.dropWhile isIdentByte) with
      | none => .error (str "expected a filter")
      | some rest =>
        match lookup (text.tail.takeWhile isIdentByte) with
        | none => .error (str "not found in this scope")
        | some value => do
            let text ← filter value
            let rest ← renderText filter lookup fuel rest
            return text++rest
    else (renderText filter lookup fuel text).map (c::·)

variable {filter : Value N → Except Str Str} {l : Arguments N}

lemma renderText_append {t : Str} (ht : openBrace ∉ t) (r : Str) (f : ℕ) :
    renderText filter l (t.length+f) (t++r) = (renderText filter l f r).map (t++·) := by
  induction t with
  | nil =>
    rw [length_nil,zero_add,nil_append]
    cases renderText filter l f r <;> rfl
  | cons c t ih =>
    obtain ⟨hc,ht⟩ := not_or.mp (mem_cons.not.mp ht)
    rw [length_cons,add_right_comm,cons_append,renderText,if_neg (Ne.symm hc),ih ht]
    cases renderText filter l f r <;> rfl

lemma stripStart_append (s rest : Str) : stripStart s (s++rest) = some rest := by
  rw [stripStart,if_pos (startsWith_iff.mpr (prefix_append s rest)),drop_left]

lemma renderText_templateText {pieces : List Piece} (hr : Readable pieces) (fuel : ℕ)
    (hf : (templateText pieces).length < fuel) :
    renderText filter l fuel (templateText pieces) = renderPieces filter l pieces := by
  induction pieces generalizing fuel with
  | nil =>
    cases fuel with
    | zero => omega
    | succ fuel => rfl
  | cons p pieces ih =>
    have hre := hr.tail
    have hso : templateText (p::pieces) = pieceSource p++templateText pieces := flatMap_cons
    rw [hso,length_append] at hf
    rw [hso]
    cases p with
    | text li =>
      have hl := hr.texts li mem_cons_self
      rw [pieceSource] at hf ⊢
      obtain ⟨re,rfl⟩ := Nat.exists_eq_add_of_lt (Nat.lt_of_le_of_lt (Nat.le_add_right ..) hf)
      rw [add_assoc,renderText_append hl,ih hre _ (by omega)]
      rfl
    | parameter name =>
      have hn := hr.names name mem_cons_self
      have ha : ∀ b ∈ name, isIdentByte b = true :=
        all_eq_true.mp (Bool.and_eq_true_iff.mp hn).1
      have he : parameterEnd++templateText pieces =
          32::(parameterEnd.tail++templateText pieces) := rfl
      have ht : (name++(parameterEnd++templateText pieces)).takeWhile isIdentByte = name := by
        rw [takeWhile_append_of_pos ha,he,takeWhile_cons_of_neg (by decide),append_nil]
      have hd : (name++(parameterEnd++templateText pieces)).dropWhile isIdentByte =
          parameterEnd++templateText pieces := by
        rw [dropWhile_append_of_pos ha,he,dropWhile_cons_of_neg (by decide)]
      cases fuel with
      | zero => omega
      | succ fuel =>
        have hln : (templateText pieces).length < fuel := by
          simp only [pieceSource,length_cons,length_append] at hf
          omega
        simp only [pieceSource,cons_append,append_assoc,renderText,
          tail_cons,ht,hd,stripStart_append,ih hre fuel hln]
        rfl

/-- Libraries that read templates and URIs as they are written. -/
def plainLibraries : Libraries ℕ where
  displayNumber := formatDecimal
  jsonText _ := []
  literal name :=
    if name = str "true" then some (.bool true)
    else if name = str "false" then some (.bool false) else none
  Template := Str
  addTemplate text := .ok text
  render template filter arguments :=
    renderText filter
      (fun name => (if name = str "true" then some (.bool true)
        else if name = str "false" then some (.bool false) else none).or (arguments name))
      (template.length+1) template
  uriPath uri := some (pathPart uri)
  render_eq pieces template filter arguments rendered htexts hnames hadd hrender := by
    cases hadd
    rw [renderText_templateText ⟨htexts,hnames⟩ _ (Nat.lt_succ_self _)] at hrender
    exact hrender
  uriPath_eq uri path _ hp := by
    cases hp
    rfl

def petPath : Str := str "/pets/\x7bpet_id\x7d"

def petPieces : List Piece := [.text (str "/api/pets/"),.parameter (str "pet_id"),.text []]

def petArguments (value : Str) : Arguments ℕ := fun name =>
  if name = str "pet_id" then some (.string value) else none

lemma faithful_petPieces {v : Str} (he : ∀ s ∈ segmentsOf (relative petPieces),
      EscapesApart uriComponentSet (argumentText plainLibraries (petArguments v)) s)
    (hd : ∀ s ∈ segmentsOf (relative petPieces),
      ¬ IsDotSegment (meaningText (argumentText plainLibraries (petArguments v)) s)) :
    Faithful plainLibraries petPieces (petArguments v) := by
  refine ⟨fun n hn li hl => ?_,fun _ => rfl,fun li hl => ?_,he,hd⟩
  · have hp : n = str "pet_id" := by simpa [petPieces] using hn
    subst hp
    cases hl
  · have ht : li = str "api/pets/" ∨ li = [] := by
      have hr : relative petPieces =
          [.text (str "api/pets/"),.parameter (str "pet_id"),.text []] := by decide +kernel
      simpa [hr] using hl
    rcases ht with rfl | rfl <;> decide +kernel

lemma buildRequest_petPath (v : Str) : ∃ t p ba request, convertPathTemplate petPath = .ok (t, p) ∧
      RestBackend.compile plainLibraries (str "GET") (str "/api" ++ t) [] none none = .ok ba ∧
      ba.buildRequest [] (petArguments v) = .ok request := ⟨_,_,_,_,rfl,rfl,rfl⟩

/-- A slash in an argument stays in the segment. -/
theorem slash_stays_in_segment :
    ∃ template parameters backend request,
      convertPathTemplate petPath = .ok (template, parameters) ∧
      RestBackend.compile plainLibraries (str "GET") (str "/api" ++ template) [] none none =
        .ok backend ∧ backend.buildRequest [] (petArguments (str "../admin")) = .ok request ∧
      Addresses plainLibraries (toolPieces (str "/api") petPath) (petArguments (str "../admin"))
        request.path := by
  obtain ⟨template,parameters,backend,request,hc,hco,hb⟩ := buildRequest_petPath (str "../admin")
  refine ⟨template,parameters,backend,request,hc,hco,hb,?_⟩
  refine (request_addresses_iff hc (by decide +kernel) hco hb).mpr ?_
  exact faithful_petPieces (by decide +kernel) (by decide +kernel)

/-- Two dots make the request address the collection above. -/
theorem dots_address_another_path :
    ∃ template parameters backend request,
      convertPathTemplate petPath = .ok (template, parameters) ∧
      RestBackend.compile plainLibraries (str "GET") (str "/api" ++ template) [] none none =
        .ok backend ∧ backend.buildRequest [] (petArguments (str "..")) = .ok request ∧
      readSegments request.path.tail = [str "api", []] ∧
      ¬ Addresses plainLibraries (toolPieces (str "/api") petPath) (petArguments (str ".."))
        request.path := by
  refine ⟨_,_,_,_,rfl,rfl,rfl,by decide +kernel,fun h => ?_⟩
  have hse := h.segments
  revert hse
  decide +kernel

end ArionGateway.RestPaths
