import ArionGateway.FetchCors
import ArionGateway.GuardedEdits
import ArionGateway.StringMatchers

/-!
# Header mutations of an external processor

The rules for mutations are asked with a name as the processor spells it, but the header map keeps
names in lower case. Pseudo-headers are taken out first and never lead to an error. The mutations
of trailers are made without rules, errors are dropped for trailers and immediate responses, and a
reply that comes after the headers have gone out is not looked at. `Respected` says when none of
this happens, for each kind of reply.
-/
namespace ArionGateway.HeaderMutations
open Option
open ByteStrings FetchCors GuardedEdits HttpHeaders StringMatchers TextEncodings Edit HeaderMap

inductive MutationPolicy where
  | allowAll
  | standard (allowRouting allowEnvoy allowSystem : Bool)
  | denyAll
  deriving DecidableEq

structure PatternOverrides (ρ : Type) where
  allow : List (StringMatcher ρ) := []
  deny : List (StringMatcher ρ) := []

structure HeaderMutationRules (ρ : Type) where
  policy : MutationPolicy := .standard false false true
  overrides : Option (PatternOverrides ρ) := none
  disallowIsError : Bool := false

namespace pseudoHeader

def method : Str := str ":method"
def scheme : Str := str ":scheme"
def authority : Str := str ":authority"
def path : Str := str ":path"
def status : Str := str ":status"

end pseudoHeader

def MutationPolicy.permits (self : MutationPolicy) (header : Str) : Bool :=
  match self with
  | .denyAll => false
  | .allowAll => true
  | .standard allowRouting allowEnvoy allowSystem =>
    if header = str "host" then allowRouting
    else if startsWith header [colon] && !allowSystem then false
    else if startsWith header [colon] && (header = pseudoHeader.authority ||
        header = pseudoHeader.scheme || header = pseudoHeader.method) then allowRouting
    else if startsWith header (str "x-envoy-") then allowEnvoy
    else true

variable {ρ : Type} [RegexEngine ρ]

def HeaderMutationRules.isModificationPermitted (self : HeaderMutationRules ρ) (header : Str) :
    Bool :=
  match self.overrides with
  | some overrides =>
    if overrides.deny.any (·.matchesText header) then false
    else if overrides.allow.any (·.matchesText header) then true
    else self.policy.permits header
  | none => self.policy.permits header

variable (mutationRules : Option (HeaderMutationRules ρ))

/-- Without rules everything is permitted. -/
def permittedBy (header : Str) : Bool :=
  (mutationRules.map (·.isModificationPermitted header)).getD true

def disallowIsError : Bool :=
  mutationRules.any (·.disallowIsError)

structure HeaderValue where
  key : Str
  value : Str := []
  rawValue : Str := []
  deriving DecidableEq

inductive HeaderAppendAction where
  | appendIfExistsOrAdd
  | addIfAbsent
  | overwriteIfExistsOrAdd
  | overwriteIfExists
  deriving DecidableEq

structure HeaderValueOption where
  header : Option HeaderValue
  append : Option Bool := none
  appendAction : HeaderAppendAction := .appendIfExistsOrAdd
  deriving DecidableEq

structure HeaderMutation where
  setHeaders : List HeaderValueOption := []
  removeHeaders : List Str := []
  deriving DecidableEq

structure Parts where
  scheme : Option Str := none
  authority : Option Str := none
  pathAndQuery : Option Str := none
  deriving DecidableEq

structure Request where
  method : Str
  uri : Parts
  headers : HeaderMap

structure Response where
  status : ℕ
  headers : HeaderMap

/-- What is used of the crate `http`: names of headers are in lower case and do not
begin with a colon. -/
structure HttpCrate where
  headerName : Str → Option Str
  headerName_eq : ∀ {key name}, headerName key = some name → name = toAsciiLowercase key
  headerName_regular : ∀ {key name}, headerName key = some name → startsWith name [colon] = false
  method : Str → Option Str
  scheme : Str → Option Str
  authority : Str → Option Str
  pathAndQuery : Str → Option Str
  /-- Whether parts make a URI. -/
  fromParts : Parts → Bool

def replacementCharacter : Str := [0xEF,0xBF,0xBD]

def isContinuation (b : UInt8) : Bool := 0x80 ≤ b && b ≤ 0xBF

/-- The number of bytes that have to follow the first byte of a character. -/
def following (b : UInt8) : Option ℕ :=
  if b < 0x80 then some 0
  else if 0xC2 ≤ b && b ≤ 0xDF then some 1
  else if 0xE0 ≤ b && b ≤ 0xEF then some 2
  else if 0xF0 ≤ b && b ≤ 0xF4 then some 3
  else none

def secondFits (b c : UInt8) : Bool :=
  if b = 0xE0 then 0xA0 ≤ c && c ≤ 0xBF
  else if b = 0xED then 0x80 ≤ c && c ≤ 0x9F
  else if b = 0xF0 then 0x90 ≤ c && c ≤ 0xBF
  else if b = 0xF4 then 0x80 ≤ c && c ≤ 0x8F
  else isContinuation c

/-- How many of the bytes that have to follow do so. -/
def fitting (b : UInt8) (n : ℕ) (rest : Str) : ℕ :=
  match rest.take n with
  | [] => 0
  | c::cs => if secondFits b c then 1+(cs.takeWhile isContinuation).length else 0

def lossyLoop : ℕ → Str → Str
  | 0, _ => []
  | _, [] => []
  | fuel+1, b::rest =>
    match following b with
    | none => replacementCharacter++lossyLoop fuel rest
    | some n =>
      if fitting b n rest = n then b::rest.take n++lossyLoop fuel (rest.drop n)
      else replacementCharacter++lossyLoop fuel (rest.drop (fitting b n rest))

def fromUtf8Lossy (bytes : Str) : Str := lossyLoop bytes.length bytes

def extractHeaderValueAsStr (opt : HeaderValueOption) : Option Str :=
  opt.header.map fun h => if h.rawValue = [] then h.value else fromUtf8Lossy h.rawValue

structure PseudoHeaders where
  method : Option HeaderValueOption := none
  scheme : Option HeaderValueOption := none
  authority : Option HeaderValueOption := none
  path : Option HeaderValueOption := none
  status : Option HeaderValueOption := none

variable (option : HeaderValueOption)

def isPseudo : Bool :=
  option.header.any fun h => startsWith h.key [colon]

def PseudoHeaders.record (self : PseudoHeaders) (headerToSet : HeaderValueOption) : PseudoHeaders :=
  let key := (headerToSet.header.map (·.key)).getD []
  if key = pseudoHeader.method then { self with method := some headerToSet }
  else if key = pseudoHeader.scheme then { self with scheme := some headerToSet }
  else if key = pseudoHeader.authority then { self with authority := some headerToSet }
  else if key = pseudoHeader.path then { self with path := some headerToSet }
  else if key = pseudoHeader.status then { self with status := some headerToSet }
  else self

def extractPseudoHeaders (mutation : HeaderMutation) : PseudoHeaders × HeaderMutation :=
  ((mutation.setHeaders.filter isPseudo).foldl .record {},
    { mutation with setHeaders := mutation.setHeaders.filter (!isPseudo ·) })

section
variable {ρ : Type} [RegexEngine ρ] (crate : HttpCrate)
  (mutationRules : Option (HeaderMutationRules ρ))

/-- The new value of a pseudo-header, if it may be changed and its text can be read. -/
def pseudoValue {V : Type} (name : Str) (option : Option HeaderValueOption)
    (read : Str → Option V) (old : V) : V :=
  match option with
  | some option =>
    if permittedBy mutationRules name then ((extractHeaderValueAsStr option).bind read).getD old
    else old
  | none => old

/-- Which action is meant: the deprecated flag wins, and the default replaces. -/
def appendActionOf : HeaderAppendAction :=
  match option.append with
  | some true => .appendIfExistsOrAdd
  | some false => .overwriteIfExistsOrAdd
  | none =>
    match option.appendAction with
    | .appendIfExistsOrAdd => .overwriteIfExistsOrAdd
    | action => action

def removeHeader (headers : HeaderMap) (headerToRemove : Str) : HeaderMap :=
  match crate.headerName headerToRemove with
  | some headerName => headers.remove headerName
  | none => headers

def setHeader (headers : HeaderMap) (set : HeaderValueOption × HeaderValue) : HeaderMap :=
  match crate.headerName set.2.key,
    fromStr (if set.2.rawValue = [] then set.2.value else set.2.rawValue) with
  | some headerName, some headerValue =>
    match appendActionOf set.1 with
    | .appendIfExistsOrAdd => headers.append headerName headerValue
    | .addIfAbsent =>
      if !headers.containsKey headerName then headers.append headerName headerValue else headers
    | .overwriteIfExistsOrAdd => headers.insert headerName headerValue
    | .overwriteIfExists =>
      if headers.containsKey headerName then headers.insert headerName headerValue else headers
  | _, _ => headers

variable (self : HeaderMutation)

/-- The headers to set; options without a header are passed over. -/
def HeaderMutation.sets : List (HeaderValueOption × HeaderValue) :=
  self.setHeaders.filterMap fun option => option.header.map fun header => (option, header)

/-- The headers after the two loops, which an error ends early. -/
def applyHeaderMutations (headers : HeaderMap) (mutation : HeaderMutation) :
    HeaderMap × Option Str :=
  match guardedLoop (fun key => !permittedBy mutationRules key) (disallowIsError mutationRules)
      (removeHeader crate) mutation.removeHeaders headers with
  | (headers, some key) =>
    (headers, some (str "Header removal not permitted by configuration: " ++ key))
  | (headers, none) =>
    match guardedLoop (fun set => !permittedBy mutationRules set.2.key)
        (disallowIsError mutationRules) (setHeader crate) mutation.sets headers with
    | (headers, some set) =>
      (headers, some (str "Header modification not permitted by configuration: " ++ set.2.key))
    | (headers, none) => (headers, none)

def applyRequestHeaderMutations (req : Request) (mutation : HeaderMutation) :
    Request × Option Str :=
  let (pseudoHeaders, mutation) := extractPseudoHeaders mutation
  let method := pseudoValue mutationRules pseudoHeader.method pseudoHeaders.method crate.method
    req.method
  let parts : Parts :=
    { scheme := pseudoValue mutationRules pseudoHeader.scheme pseudoHeaders.scheme
        (fun text => (crate.scheme text).map some) req.uri.scheme
      authority := pseudoValue mutationRules pseudoHeader.authority pseudoHeaders.authority
        (fun text => (crate.authority text).map some) req.uri.authority
      pathAndQuery := pseudoValue mutationRules pseudoHeader.path pseudoHeaders.path
        (fun text => (crate.pathAndQuery text).map some) req.uri.pathAndQuery }
  let uri := if crate.fromParts parts then parts else req.uri
  let (headers, error) := applyHeaderMutations crate mutationRules req.headers mutation
  ({ method, uri, headers }, error)

def statusCode (code : ℕ) : Option ℕ := if 100 ≤ code ∧ code ≤ 999 then some code else none

def applyResponseHeaderMutations (resp : Response) (mutation : HeaderMutation) :
    Response × Option Str :=
  let (pseudoHeaders, mutation) := extractPseudoHeaders mutation
  let status := pseudoValue mutationRules pseudoHeader.status pseudoHeaders.status
    (fun text => (parseDecimal 65536 text).bind statusCode) resp.status
  let (headers, error) := applyHeaderMutations crate mutationRules resp.headers mutation
  ({ status, headers }, error)

def applyTrailerMutations (trailers : HeaderMap) (mutation : HeaderMutation) :
    HeaderMap × Option Str :=
  applyHeaderMutations crate mutationRules trailers mutation

def concatHeaderMutations (left right : Option HeaderMutation) : Option HeaderMutation :=
  match left, right with
  | none, none => none
  | none, some r => some r
  | some l, none => some l
  | some l, some r => some ⟨l.setHeaders++r.setHeaders,l.removeHeaders++r.removeHeaders⟩

structure ImmediateResponse where
  status : Option ℤ := none
  headers : Option HeaderMutation := none
  grpcStatus : Option ℕ := none
  deriving DecidableEq

/-- The headers of a request as `apply_modification_on_request` changes them. -/
def modifyRequest (req : Request) (headersModifications : Option HeaderMutation) :
    Request × Option Str :=
  match headersModifications with
  | some mutation => applyRequestHeaderMutations crate mutationRules req mutation
  | none => (req, none)

def modifyResponse (resp : Response) (headersModifications : Option HeaderMutation) :
    Response × Option Str :=
  match headersModifications with
  | some mutation => applyResponseHeaderMutations crate mutationRules resp mutation
  | none => (resp, none)

def grpcStatusName : Str := str "grpc-status"

/-- `build_direct_response`; the error is dropped. -/
def buildDirectResponse (responseAttempt : ImmediateResponse) : Response :=
  -- the code is an `i32` that is cut to 16 bits
  let status := (responseAttempt.status.bind fun code => statusCode (code % 65536).toNat).getD 200
  let response := (modifyResponse crate mutationRules ⟨status,[]⟩ responseAttempt.headers).1
  match responseAttempt.grpcStatus.bind fun status => fromStr (formatDecimal status) with
  | some value => { response with headers := response.headers.insert grpcStatusName value }
  | none => response

/-- The trailers that `handle_trailers_response` passes on. There are no rules, and
the error is dropped. -/
def handleTrailersResponse (ρ : Type) [RegexEngine ρ] (crate : HttpCrate) (trailers : HeaderMap)
    (headerMutation : Option HeaderMutation) : HeaderMap :=
  match headerMutation with
  | some updates =>
    (applyTrailerMutations crate (none : Option (HeaderMutationRules ρ)) trailers updates).1
  | none => trailers

/-- What is applied to a message: the mutations of the replies to its headers and to
its body, which go out in one status; those of a reply to a body whose headers have
gone out; those of trailers; an immediate response. -/
inductive Reply where
  | request (headers body : Option HeaderMutation)
  | response (headers body : Option HeaderMutation)
  | late (body : Option HeaderMutation)
  | trailers (mutation : Option HeaderMutation)
  | immediate (response : ImmediateResponse)
  deriving DecidableEq

def Request.values (self : Request) (name : Str) : List Str :=
  if name = pseudoHeader.method then [self.method]
  else if name = pseudoHeader.scheme then self.uri.scheme.toList
  else if name = pseudoHeader.authority then self.uri.authority.toList
  else if name = pseudoHeader.path then self.uri.pathAndQuery.toList
  else self.headers.getAll name

def Response.values (self : Response) (name : Str) : List Str :=
  if name = pseudoHeader.status then [formatDecimal self.status] else self.headers.getAll name

def HeaderMutation.keys : List Str :=
  self.removeHeaders++self.sets.map fun set => set.2.key

variable (rules : HeaderMutationRules ρ)

/-- Names that the rules do not permit keep their values. -/
def Kept (before after : Str → List Str) : Prop :=
  ∀ name, rules.isModificationPermitted name = false → after name = before name

variable (mutation : HeaderMutation)

/-- The mutation names a key that is not permitted in lower case. -/
def Forbidden : Prop :=
  ∃ key ∈ mutation.keys, rules.isModificationPermitted (toAsciiLowercase key) = false

/-- A forbidden mutation is an error, where it is to be one. -/
def Reported (mutation : Option HeaderMutation) (error : Option Str) : Prop :=
  rules.disallowIsError = true → (∃ m, mutation = some m ∧ Forbidden rules m) → error.isSome = true

/-- A reply respects the rules, whatever message it is applied to. For an immediate
response the message is the response without the mutations of the reply. -/
def Respects : Reply → Prop
  | .request headers body =>
    ∀ req, Kept rules req.values
        (modifyRequest crate (some rules) req (concatHeaderMutations headers body)).1.values ∧
      Reported rules (concatHeaderMutations headers body)
        (modifyRequest crate (some rules) req (concatHeaderMutations headers body)).2
  | .response headers body =>
    ∀ resp, Kept rules resp.values
        (modifyResponse crate (some rules) resp (concatHeaderMutations headers body)).1.values ∧
      Reported rules (concatHeaderMutations headers body)
        (modifyResponse crate (some rules) resp (concatHeaderMutations headers body)).2
  | .late body => Reported rules body none
  | .trailers mutation =>
    ∀ trailers : HeaderMap,
      Kept rules trailers.getAll (handleTrailersResponse ρ crate trailers mutation).getAll ∧
        Reported rules mutation none
  | .immediate response =>
    Kept rules (buildDirectResponse crate (some rules) { response with headers := none }).values
        (buildDirectResponse crate (some rules) response).values ∧
      Reported rules response.headers none

/-- One turn of one of the two loops. -/
inductive Op where
  | remove (key : Str)
  | set (header : HeaderValueOption × HeaderValue)
  deriving DecidableEq

def Op.key : Op → Str
  | .remove key => key
  | .set header => header.2.key

def HeaderMutation.ops : List Op :=
  self.removeHeaders.map .remove++self.sets.map .set

def HeaderAppendAction.edit (value : Str) : HeaderAppendAction → Edit Str
  | .appendIfExistsOrAdd => .append value
  | .addIfAbsent => .addIfAbsent value
  | .overwriteIfExistsOrAdd => .overwrite value
  | .overwriteIfExists => .overwriteIfExists value

/-- The name in the header map and the edit of its values, unless the name or the
value is invalid. -/
def Op.target (crate : HttpCrate) : Op → Option (Str × Edit Str)
  | .remove key => (crate.headerName key).map fun name => (name, .remove)
  | .set header =>
    match crate.headerName header.2.key,
      fromStr (if header.2.rawValue = [] then header.2.value else header.2.rawValue) with
    | some name, some value => some (name, (appendActionOf header.1).edit value)
    | _, _ => none

def HeaderMutation.regular : HeaderMutation := (extractPseudoHeaders self).2

/-- The turns that the rules let through, asked with the spelling of the reply. -/
def executedOps (mutationRules : Option (HeaderMutationRules ρ)) (mutation : HeaderMutation) :
    List Op :=
  executed (fun op => !permittedBy mutationRules op.key) (disallowIsError mutationRules)
    mutation.ops

/-- Each turn that is let through is permitted in lower case as well, and a reply
with a forbidden name has one that is refused as it is spelled and not as a
pseudo-header. -/
structure Checked : Prop where
  permitted : ∀ op ∈ executedOps (some rules) mutation.regular, ∀ name edit,
    op.target crate = some (name, edit) → rules.isModificationPermitted name = true
  refused : rules.disallowIsError = true → Forbidden rules mutation →
    ∃ op ∈ mutation.regular.ops, rules.isModificationPermitted op.key = false

/-- An error is not asked for, or there is no reason for one. -/
def Unreported : Prop :=
  rules.disallowIsError = true → ¬ Forbidden rules mutation

/-- When a reply respects the rules. -/
def Respected : Reply → Prop
  | .request headers body | .response headers body =>
    ∀ m, concatHeaderMutations headers body = some m → Checked crate rules m
  | .late body => ∀ m, body = some m → Unreported rules m
  | .trailers mutation =>
    ∀ m, mutation = some m → (∀ op ∈ m.ops, ∀ name edit, op.target crate = some (name, edit) →
        rules.isModificationPermitted name = true) ∧ Unreported rules m
  | .immediate response =>
    ∀ m, response.headers = some m → (∀ op ∈ executedOps (some rules) m.regular, ∀ name edit,
        op.target crate = some (name, edit) → edit ≠ .remove →
        (∀ value, edit ≠ .overwriteIfExists value) → rules.isModificationPermitted name = true ∨
          name = grpcStatusName ∧ response.grpcStatus.isSome = true) ∧ Unreported rules m

open Op

variable {crate} {mutationRules} {mu : HeaderMutation} {headers : HeaderMap} {e : Edit Str}
  {name : Str} {ops : List Op}

def applyOp (crate : HttpCrate) (headers : HeaderMap) : Op → HeaderMap
  | .remove key => removeHeader crate headers key
  | .set header => setHeader crate headers header

/-- The error that a refused turn ends the loops with. -/
def Op.failure : Op → Str
  | .remove key => str "Header removal not permitted by configuration: " ++ key
  | .set header => str "Header modification not permitted by configuration: " ++ header.2.key

def refuses (mutationRules : Option (HeaderMutationRules ρ)) (op : Op) : Bool :=
  !permittedBy mutationRules op.key

lemma applyHeaderMutations_eq (headers : HeaderMap) :
    applyHeaderMutations crate mutationRules headers mu =
      ((guardedLoop (refuses mutationRules) (disallowIsError mutationRules) (applyOp crate)
          mu.ops headers).1,
        (guardedLoop (refuses mutationRules) (disallowIsError mutationRules) (applyOp crate)
          mu.ops headers).2.map failure) := by
  unfold applyHeaderMutations
  rw [HeaderMutation.ops,guardedLoop_append]
  simp only [guardedLoop_map,refuses,applyOp,Op.key]
  split
  next h =>
    simp only [h]
    rfl
  next h =>
    simp only [h,Option.map_none]
    split
    all_goals
      next h =>
        simp only [h]
        rfl

lemma applyHeaderMutations_fst (headers : HeaderMap) :
    (applyHeaderMutations crate mutationRules headers mu).1 =
      (executedOps mutationRules mu).foldl (applyOp crate) headers := by
  rw [applyHeaderMutations_eq,guardedLoop_fst]
  rfl

lemma applyHeaderMutations_error (headers : HeaderMap) :
    (applyHeaderMutations crate mutationRules headers mu).2.isSome = true ↔
      disallowIsError mutationRules = true ∧
        ∃ op ∈ mu.ops, permittedBy mutationRules op.key = false := by
  rw [applyHeaderMutations_eq,guardedLoop_snd]
  cases disallowIsError mutationRules <;> simp [refuses]

lemma getAll_applyOp (headers : HeaderMap) (op : Op) (name : Str) :
    (applyOp crate headers op).getAll name = match op.target crate with
      | some (target, e) =>
        if target = name then e.on (headers.getAll name) else headers.getAll name
      | none => headers.getAll name := by
  cases op with
  | remove key =>
    rw [applyOp,removeHeader,target]
    cases crate.headerName key with
    | none => rfl
    | some target =>
      by_cases h : target = name
      · simp [h,on]
      · simp [h,getAll_remove_of_ne (Ne.symm h)]
  | set he =>
    unfold applyOp setHeader target
    dsimp only
    rcases crate.headerName he.2.key with _ | target
    · rfl
    rcases fromStr (if he.2.rawValue = [] then he.2.value else he.2.rawValue) with
      _ | value
    · rfl
    dsimp only
    by_cases h : target = name
    · subst h
      cases appendActionOf he.1 <;>
        simp only [HeaderAppendAction.edit,on,containsKey_eq] <;>
        cases hv : headers.getAll target <;> simp [hv]
    · rw [if_neg h]
      have hne : name ≠ target := Ne.symm h
      cases appendActionOf he.1 <;> dsimp only
      · exact getAll_append_of_ne hne
      · split_ifs
        · exact getAll_append_of_ne hne
        · rfl
      · exact getAll_insert_of_ne hne
      · split_ifs
        · exact getAll_insert_of_ne hne
        · rfl

def editsOf (crate : HttpCrate) (name : Str) (ops : List Op) : List (Edit Str) :=
  ops.filterMap fun op => (op.target crate).bind fun target =>
    if target.1 = name then some target.2 else none

lemma getAll_foldl (ops : List Op) (headers : HeaderMap) (n : Str) :
    (ops.foldl (applyOp crate) headers).getAll n =
      runAll (editsOf crate n ops) (headers.getAll n) := by
  induction ops generalizing headers with
  | nil => rfl
  | cons op ops ih =>
    rw [List.foldl_cons,ih,getAll_applyOp,editsOf,editsOf,List.filterMap_cons]
    rcases op.target crate with _ | ⟨t,e⟩
    · rfl
    · by_cases h : t = n
      · simp [h,runAll]
      · simp [h]

lemma mem_editsOf : e ∈ editsOf crate name ops ↔ ∃ op ∈ ops, op.target crate = some (name, e) := by
  rw [editsOf,List.mem_filterMap]
  refine exists_congr fun op => and_congr_right fun _ => ?_
  rcases op.target crate with _ | ⟨t,e'⟩
  · simp
  · by_cases h : t = name <;> simp [h]

lemma getAll_of_values (n : Str) (values : List Str) :
    getAll (values.map fun v => (n, v)) n = values := by
  simp [getAll]

variable {rules}

lemma exists_changed_headers {op : Op} (hop : op ∈ ops) (ht : op.target crate = some (name, e)) :
    ∃ headers, (ops.foldl (applyOp crate) headers).getAll name ≠ headers.getAll name := by
  have hne : editsOf crate name ops ≠ [] := List.ne_nil_of_mem (mem_editsOf.mpr ⟨op,hop,ht⟩)
  obtain ⟨v,hv⟩ := exists_changed hne
  refine ⟨v.map fun va => (name, va),?_⟩
  rwa [getAll_foldl,getAll_of_values]

lemma getAll_of_no_target (h : ∀ op ∈ ops, ∀ e, op.target crate ≠ some (name, e))
    (headers : HeaderMap) :
    (ops.foldl (applyOp crate) headers).getAll name = headers.getAll name := by
  have hn : editsOf crate name ops = [] := by
    refine List.eq_nil_iff_forall_not_mem.mpr fun e he => ?_
    obtain ⟨op,hop,ht⟩ := mem_editsOf.mp he
    exact h op hop e ht
  rw [getAll_foldl,hn]
  rfl

lemma regular_of_target {op : Op} (h : op.target crate = some (name, e)) :
    startsWith name [colon] = false := by
  cases op with
  | remove key =>
    obtain ⟨n',hn,heq⟩ := map_eq_some_iff.mp h
    cases heq
    exact crate.headerName_regular hn
  | set he =>
    unfold target at h
    dsimp only at h
    split at h
    next n' value hn hv =>
      cases h
      exact crate.headerName_regular hn
    · cases h

variable {m : HeaderMutation} {r : ImmediateResponse}

/-- No turn of a list has a target that is not permitted. -/
def TargetsPermitted (crate : HttpCrate) (rules : HeaderMutationRules ρ) (ops : List Op) : Prop :=
  ∀ op ∈ ops, ∀ name edit, op.target crate = some (name, edit) →
    rules.isModificationPermitted name = true

lemma getAll_of_forbidden {ops : List Op} (h : TargetsPermitted crate rules ops)
    (hn : rules.isModificationPermitted name = false) (headers : HeaderMap) :
    (ops.foldl (applyOp crate) headers).getAll name = headers.getAll name := by
  refine getAll_of_no_target (fun op hop ed ht => ?_) headers
  rw [h op hop name ed ht] at hn
  cases hn

lemma targetsPermitted_of_kept {ops : List Op}
    (h : ∀ (headers : HeaderMap) (n : Str), startsWith n [colon] = false →
      rules.isModificationPermitted n = false →
        (ops.foldl (applyOp crate) headers).getAll n = headers.getAll n) :
    TargetsPermitted crate rules ops := by
  intro op hop n ed ht
  by_contra hf
  obtain ⟨headers,hc⟩ := exists_changed_headers hop ht
  exact hc (h headers n (regular_of_target ht) (by simpa using hf))

lemma pseudoValue_of_forbidden {V : Type} (h : rules.isModificationPermitted name = false)
    (o : Option HeaderValueOption) (re : Str → Option V) (old : V) :
    pseudoValue (some rules) name o re old = old := by
  cases o with
  | none => rfl
  | some o => exact if_neg (by simp [permittedBy,h])

lemma Request.values_of_regular (req : Request) (h : startsWith name [colon] = false) :
    req.values name = req.headers.getAll name := by
  have hne : ∀ pseudo, startsWith pseudo [colon] = true → name ≠ pseudo := by
    rintro pseudo hp rfl
    rw [h] at hp
    cases hp
  rw [Request.values,if_neg (hne _ rfl),if_neg (hne _ rfl),if_neg (hne _ rfl),if_neg (hne _ rfl)]

lemma reported_none_iff : Reported rules (some m) none ↔ Unreported rules m := by
  constructor
  · intro h hst hf
    exact absurd (h hst ⟨m,rfl,hf⟩) (by decide)
  · rintro h hst ⟨m',hm',hf⟩
    cases hm'
    exact absurd hf (h hst)

/-- A message whose other headers the turns of a reply edit, while the pseudo-headers that are
not permitted stay: the reply respects the rules if its turns do. -/
lemma message_respects_iff {M : Type} {headers : M → HeaderMap} {v : M → Str → List Str}
    {a : M → M × Option Str} (ma : HeaderMap → M) (hm : ∀ h, headers (ma h) = h)
    (hre : ∀ msg name, startsWith name [colon] = false → v msg name = (headers msg).getAll name)
    (ha : ∀ msg, (headers (a msg).1, (a msg).2) =
      applyHeaderMutations crate (some rules) (headers msg) m.regular)
    (hps : ∀ msg name, rules.isModificationPermitted name = false →
      (headers (a msg).1).getAll name = (headers msg).getAll name → v (a msg).1 name = v msg name) :
    (∀ msg, Kept rules (v msg) (v (a msg).1) ∧
        Reported rules (some m) (a msg).2) ↔ Checked crate rules m := by
  have hh : ∀ msg, headers (a msg).1 =
      (executedOps (some rules) m.regular).foldl (applyOp crate) (headers msg) := fun msg =>
    (congrArg Prod.fst (ha msg)).trans (applyHeaderMutations_fst _)
  have he : ∀ msg, (a msg).2.isSome = true ↔ _ := fun msg =>
    (congrArg (fun r => r.2.isSome = true) (ha msg)).to_iff.trans
      (applyHeaderMutations_error (headers msg))
  constructor
  · intro h
    refine ⟨targetsPermitted_of_kept fun hs name hn hf => ?_,
      fun hst hf => ((he _).mp ((h (ma [])).2 hst ⟨m,rfl,hf⟩)).2⟩
    have hsa := (h (ma hs)).1 name hf
    rwa [hre _ _ hn,hre _ _ hn,hh,hm] at hsa
  · rintro ⟨hp,hrf⟩ msg
    refine ⟨fun name hf => hps msg name hf ?_,fun hst ⟨m',hm',hf⟩ => ?_⟩
    rotate_left
    · cases hm'
      exact (he msg).mpr ⟨hst,hrf hst hf⟩
    rw [hh,getAll_of_forbidden hp hf]

lemma request_respects_iff :
    (∀ req, Kept rules req.values
          (applyRequestHeaderMutations crate (some rules) req m).1.values ∧
        Reported rules (some m) (applyRequestHeaderMutations crate (some rules) req m).2) ↔
      Checked crate rules m := by
  refine message_respects_iff (fun headers => ⟨[],{},headers⟩) (fun _ => rfl)
    (fun req _ h => req.values_of_regular h) (fun _ => rfl) fun req name hf hh => ?_
  unfold Request.values
  -- the parts of the URI come from the mutation or from the request
  split_ifs with hn hn hn hn
  on_goal 5 => exact hh
  all_goals rw [hn] at hf
  on_goal 1 => exact congrArg (fun me => [me]) (pseudoValue_of_forbidden hf ..)
  all_goals
    unfold applyRequestHeaderMutations
    dsimp only
    split_ifs
    · rw [pseudoValue_of_forbidden hf]
    · rfl

lemma response_respects_iff : (∀ re, Kept rules re.values
          (applyResponseHeaderMutations crate (some rules) re m).1.values ∧
        Reported rules (some m) (applyResponseHeaderMutations crate (some rules) re m).2) ↔
      Checked crate rules m := by
  refine message_respects_iff (fun headers => ⟨200,headers⟩) (fun _ => rfl)
    (fun re name h => if_neg fun heq => ?_) (fun _ => rfl) fun re name hf hh => ?_
  · rw [heq] at h
    cases h
  unfold Response.values
  split_ifs with hst
  · rw [hst] at hf
    exact congrArg (fun s => [formatDecimal s]) (pseudoValue_of_forbidden hf ..)
  · exact hh

lemma trailers_kept_iff : (∀ trailers, Kept rules trailers.getAll
        (handleTrailersResponse ρ crate trailers (some m)).getAll) ↔
      TargetsPermitted crate rules m.ops := by
  have ha : executedOps (none : Option (HeaderMutationRules ρ)) m = m.ops :=
    executed_of_not_refused fun _ _ => rfl
  have ht : ∀ trailers, handleTrailersResponse ρ crate trailers (some m) =
      m.ops.foldl (applyOp crate) trailers := by
    intro trailers
    rw [← ha]
    exact applyHeaderMutations_fst trailers
  constructor
  · intro hk
    refine targetsPermitted_of_kept fun headers name _ hf => ?_
    rw [← ht]
    exact hk headers name hf
  · intro hp trailers name hf
    rw [ht,getAll_of_forbidden hp hf]

lemma executedOps_split (mr : Option (HeaderMutationRules ρ)) (mu : HeaderMutation) :
    ∃ f back, executedOps mr mu = f++back ∧
      (∀ op ∈ f, ∃ key, op = .remove key) ∧ ∀ op ∈ back, ∃ header, op = .set header := by
  have hsu : (executedOps mr mu).Sublist
      (mu.removeHeaders.map Op.remove++mu.sets.map Op.set) := executed_sublist _
  obtain ⟨f,back,hsp,hf,hb⟩ := List.sublist_append_iff.mp hsu
  refine ⟨f,back,hsp,fun op hop => ?_,fun op hop => ?_⟩
  · obtain ⟨key,-,rfl⟩ := List.mem_map.mp (hf.subset hop)
    exact ⟨key,rfl⟩
  · obtain ⟨header,-,rfl⟩ := List.mem_map.mp (hb.subset hop)
    exact ⟨header,rfl⟩

lemma target_set {header : HeaderValueOption × HeaderValue} {e : Edit Str}
    (h : (set header).target crate = some (name, e)) : e ≠ .remove := by
  unfold target at h
  dsimp only at h
  split at h
  · cases h
    cases appendActionOf header.1 <;> exact nofun
  · cases h

/-- In a response without headers, the turns leave no value of a name if none of
them adds one. -/
lemma getAll_empty_eq_nil_iff (n : Str) :
    ((executedOps (some rules) m).foldl (applyOp crate) []).getAll n = [] ↔
      ∀ op ∈ executedOps (some rules) m, ∀ ed, op.target crate = some (n, ed) →
        ed = .remove ∨ ∃ value, ed = .overwriteIfExists value := by
  obtain ⟨f,back,hsp,hf,hb⟩ := executedOps_split (some rules) m
  have hr : ∀ ed ∈ editsOf crate n f, ed = .remove := by
    intro ed he
    obtain ⟨op,hop,ht⟩ := mem_editsOf.mp he
    obtain ⟨key,rfl⟩ := hf op hop
    obtain ⟨_,-,heq⟩ := map_eq_some_iff.mp ht
    exact (Prod.mk.inj heq).2.symm
  have hse : ∀ ed ∈ editsOf crate n back, ed ≠ .remove := by
    intro ed he
    obtain ⟨op,hop,ht⟩ := mem_editsOf.mp he
    obtain ⟨h,rfl⟩ := hb op hop
    exact target_set ht
  have hru : runAll (editsOf crate n (f++back)) [] = runAll (editsOf crate n back) [] := by
    rw [editsOf,List.filterMap_append,runAll,List.foldl_append]
    exact congrArg (runAll _) (runAll_nil_of_remove hr)
  rw [getAll_foldl,hsp]
  change runAll _ [] = [] ↔ _
  rw [hru,runAll_nil_eq_nil_iff hse]
  constructor
  · intro ha op hop ed ht
    rcases List.mem_append.mp hop with hm | hm
    · exact Or.inl (hr ed (mem_editsOf.mpr ⟨op,hm,ht⟩))
    · exact Or.inr (ha ed (mem_editsOf.mpr ⟨op,hm,ht⟩))
  · intro ha ed he
    obtain ⟨op,hop,ht⟩ := mem_editsOf.mp he
    exact (ha op (List.mem_append_right _ hop) ed ht).resolve_left (hse ed he)

lemma forall_eq_some {P : HeaderMutation → Prop} (m : HeaderMutation) :
    (∀ m', some m = some m' → P m') ↔ P m := by
  simp

lemma fromStr_formatDecimal (n : ℕ) : fromStr (formatDecimal n) = some (formatDecimal n) := by
  refine if_pos (List.all_eq_true.mpr fun b hb => ?_)
  have hd := isDigit_of_mem_formatDecimal hb
  simp only [isDigit,isValid,Bool.or_eq_true,Bool.and_eq_true] at hd ⊢
  grind

lemma values_buildDirectResponse (hst : name ≠ pseudoHeader.status) :
    (buildDirectResponse crate (some rules) r).values name = match r.grpcStatus with
      | some s =>
        if name = grpcStatusName then [formatDecimal s]
        else (modifyResponse crate (some rules) ⟨200,[]⟩ r.headers).1.headers.getAll name
      | none => (modifyResponse crate (some rules) ⟨200,[]⟩ r.headers).1.headers.getAll name := by
  have hsa : ∀ s, (modifyResponse crate (some rules) ⟨s,[]⟩ r.headers).1.headers =
      (modifyResponse crate (some rules) ⟨200,[]⟩ r.headers).1.headers := by
    intro s
    cases r.headers <;> rfl
  rw [Response.values,if_neg hst,buildDirectResponse]
  cases r.grpcStatus with
  | none => exact congrArg (getAll · name) (hsa _)
  | some s =>
    dsimp only [bind_some]
    rw [fromStr_formatDecimal,hsa]
    split_ifs with hn
    · rw [hn,getAll_insert_self]
    · rw [getAll_insert_of_ne hn]

lemma status_buildDirectResponse
    (hst : rules.isModificationPermitted pseudoHeader.status = false) (r : ImmediateResponse) :
    (buildDirectResponse crate (some rules) r).status =
      (buildDirectResponse crate (some rules) { r with headers := none }).status := by
  have hk : ∀ (re : Response), (modifyResponse crate (some rules) re r.headers).1.status =
      re.status := by
    intro re
    cases r.headers with
    | none => rfl
    | some m => exact pseudoValue_of_forbidden hst ..
  unfold buildDirectResponse
  cases r.grpcStatus with
  | none => exact hk _
  | some s =>
    dsimp only [bind_some]
    rw [fromStr_formatDecimal]
    exact hk _

lemma immediate_kept_iff (hm : r.headers = some m) :
    Kept rules (buildDirectResponse crate (some rules) { r with headers := none }).values
        (buildDirectResponse crate (some rules) r).values ↔
      ∀ op ∈ executedOps (some rules) m.regular, ∀ name ed,
        op.target crate = some (name, ed) → ed ≠ .remove → (∀ v, ed ≠ .overwriteIfExists v) →
        rules.isModificationPermitted name = true ∨
          name = grpcStatusName ∧ r.grpcStatus.isSome = true := by
  have hh : (modifyResponse crate (some rules) ⟨200,[]⟩ r.headers).1.headers =
      (executedOps (some rules) m.regular).foldl (applyOp crate) [] := by
    rw [hm]
    exact applyHeaderMutations_fst []
  have hv : ∀ name, name ≠ pseudoHeader.status →
      ((buildDirectResponse crate (some rules) r).values name =
          (buildDirectResponse crate (some rules) { r with headers := none }).values name ↔
        (name = grpcStatusName ∧ r.grpcStatus.isSome = true) ∨
          ((executedOps (some rules) m.regular).foldl (applyOp crate) []).getAll name = []) := by
    intro name hst
    rw [values_buildDirectResponse hst,values_buildDirectResponse hst,hh]
    cases r.grpcStatus with
    | none => simp [modifyResponse,getAll]
    | some s =>
      by_cases hn : name = grpcStatusName <;> simp [hn,modifyResponse,getAll]
  constructor
  · intro hk op hop name ed ht hr he
    by_contra hc
    obtain ⟨hf,hg⟩ := not_or.mp hc
    have hsa := hk name (by simpa using hf)
    rw [hv name (by rintro rfl; cases regular_of_target ht)] at hsa
    rcases (getAll_empty_eq_nil_iff name).mp (hsa.resolve_left hg) op hop ed ht with h | ⟨v,h⟩
    · exact hr h
    · exact he v h
  · intro ha name hf
    by_cases hst : name = pseudoHeader.status
    · rw [hst] at hf ⊢
      exact congrArg (fun s => [formatDecimal s]) (status_buildDirectResponse hf r)
    refine (hv name hst).mpr ?_
    by_cases hg : name = grpcStatusName ∧ r.grpcStatus.isSome = true
    · exact Or.inl hg
    · refine Or.inr ((getAll_empty_eq_nil_iff name).mpr fun op hop ed ht => ?_)
      by_contra hc
      obtain ⟨hr,he⟩ := not_or.mp hc
      rcases ha op hop name ed ht hr fun v h => he ⟨v,h⟩ with hp | h
      · rw [hp] at hf
        cases hf
      · exact hg h

theorem respects_iff (crate : HttpCrate) (rules : HeaderMutationRules ρ) (reply : Reply) :
    Respects crate rules reply ↔ Respected crate rules reply := by
  have hn : ∀ error, Reported rules none error := fun _ _ ⟨_,hm,_⟩ => nomatch hm
  cases reply with
  | request headers b =>
    unfold Respects Respected
    dsimp only
    cases concatHeaderMutations headers b with
    | none => exact iff_of_true (fun _ => ⟨fun _ _ => rfl,hn _⟩) nofun
    | some m => exact request_respects_iff.trans (forall_eq_some m).symm
  | response headers b =>
    unfold Respects Respected
    dsimp only
    cases concatHeaderMutations headers b with
    | none => exact iff_of_true (fun _ => ⟨fun _ _ => rfl,hn _⟩) nofun
    | some m => exact response_respects_iff.trans (forall_eq_some m).symm
  | late b =>
    cases b with
    | none => exact iff_of_true (hn _) nofun
    | some m => exact reported_none_iff.trans (forall_eq_some m).symm
  | trailers mt =>
    cases mt with
    | none => exact iff_of_true (fun _ => ⟨fun _ _ => rfl,hn _⟩) nofun
    | some m =>
      refine Iff.trans ?_ (forall_eq_some m).symm
      refine forall_and.trans (and_congr trailers_kept_iff ?_)
      exact (forall_const HeaderMap).trans reported_none_iff
  | immediate r =>
    obtain ⟨s,_ | m,g⟩ := r
    · exact iff_of_true ⟨fun _ _ => rfl,hn _⟩ nofun
    · refine Iff.trans ?_ (forall_eq_some m).symm
      exact and_congr (immediate_kept_iff rfl) reported_none_iff

end

lemma lower_ne_colon {b : UInt8} (hb : isTokenByte b = true) :
    (if 65 ≤ b && b ≤ 90 then b+32 else b) ≠ colon := by
  split_ifs with hu
  · intro heq
    obtain rfl : b = colon - 32 := by rw [← heq,UInt8.add_sub_cancel]
    exact nomatch hu
  · rintro rfl
    exact nomatch hb

/-- Names are tokens; texts of the other kinds are taken as they are. -/
def tokenNames : HttpCrate where
  headerName key := if isToken key then some (toAsciiLowercase key) else none
  headerName_eq h := (Option.some.inj (Option.ite_none_right_eq_some.mp h).2).symm
  headerName_regular := by
    intro key name h
    obtain ⟨ht,hn⟩ := Option.ite_none_right_eq_some.mp h
    cases hn
    cases key with
    | nil => cases ht
    | cons b key =>
      have hb : isTokenByte b = true := by
        simp only [isToken,Bool.and_eq_true,List.all_cons] at ht
        exact ht.2.1
      refine Bool.eq_false_iff.mpr fun hst => lower_ne_colon hb ?_
      obtain ⟨rest,hr⟩ := startsWith_iff.mp hst
      exact (List.cons.inj hr).1.symm
  method := some
  scheme := some
  authority := some
  pathAndQuery := some
  fromParts _ := true

local instance : RegexEngine Empty where
  findAt r _ := nomatch r

def strictRules : HeaderMutationRules Empty := { disallowIsError := true }

def shopRequest : Request := ⟨str "GET",{},[(str "host", str "shop")]⟩

def capitalHost : HeaderMutation :=
  { setHeaders := [{ header := some { key := str "Host", value := str "evil" } }] }

/-- The rules forbid to change the host, but `Host` does it, and without an error. -/
theorem capital_host_replaced :
    strictRules.isModificationPermitted (str "host") = false ∧
      shopRequest.values (str "host") = [str "shop"] ∧
      (modifyRequest tokenNames (some strictRules) shopRequest
        (concatHeaderMutations (some capitalHost) none)).1.values (str "host") = [str "evil"] ∧
      (modifyRequest tokenNames (some strictRules) shopRequest
        (concatHeaderMutations (some capitalHost) none)).2 = none := by
  decide +kernel

end ArionGateway.HeaderMutations
