import ArionGateway.DelimitedText
import ArionGateway.TextEncodings

/-!
# Cross-origin checks of a user agent

The two checks by which a user agent that follows the Fetch standard decides whether a script may
read a response and whether the answer to a preflight lets it send a request. A policy covers an
answer if all that is listed, and every method if there is no list, is within the policy, and this
is the case exactly if every request the answer grants is. Redirects and the cache of answers are
left out.
-/
namespace ArionGateway.FetchCors
open ByteStrings HttpHeaders DelimitedText TextEncodings List

def isTokenByte (b : UInt8) : Bool := isAlphanumeric b || (str "!#$%&'*+-.^_`|~").contains b

def isToken (s : Str) : Bool := !s.isEmpty && s.all isTokenByte

structure Token where
  text : Str
  valid : isToken text = true
  deriving DecidableEq

def Token.ofBytes (bytes : Str) : Option Token :=
  if h : isToken bytes then some ⟨bytes,h⟩ else none

structure Response where
  status : ℕ
  headers : HeaderMap := []
  deriving DecidableEq

def accessControlAllowOrigin : Str := str "access-control-allow-origin"
def accessControlAllowCredentials : Str := str "access-control-allow-credentials"
def accessControlAllowMethods : Str := str "access-control-allow-methods"
def accessControlAllowHeaders : Str := str "access-control-allow-headers"

def wildcard : Str := str "*"

def combined (headers : HeaderMap) (name : Str) : Option Str :=
  if headers.containsKey name then some ((str ", ").intercalate (headers.getAll name)) else none

/-- The elements of a comma separated list; empty elements do not count. -/
def elements (value : Str) : List Str := ((value.splitOn comma).map trim).filter (!·.isEmpty)

/-- The tokens that the lines with a name list, unless one of them is no list of tokens. -/
def listValues (headers : HeaderMap) (name : Str) : Option (List Str) :=
  let values := (headers.getAll name).flatMap elements
  if values.all isToken then some values else none

/-- A request of a script. The names are those of its headers that need the permission of
the other side; `useCorsPreflight` is set for uploads that are observed or streamed. -/
structure Fetch where
  origin : Str
  method : Token
  names : List Token := []
  credentials : Bool := false
  useCorsPreflight : Bool := false

def corsCheck (credentials : Bool) (origin : Str) (headers : HeaderMap) : Bool :=
  match combined headers accessControlAllowOrigin with
  | none => false
  | some allowed =>
    if !credentials && allowed == wildcard then true
    else allowed == origin &&
      (!credentials || combined headers accessControlAllowCredentials == some (str "true"))

def isSafelistedMethod (method : Str) : Bool := [str "GET",str "HEAD",str "POST"].contains method

/-- Names that "*" does not stand for. -/
def isNonWildcardName (name : Str) : Bool := eqIgnoreAsciiCase name (str "authorization")

/-- The methods and names of an answer, if it has an ok status and its lists can be read. -/
def answerLists (answer : Response) : Option (List Str × List Str) :=
  if 200 ≤ answer.status ∧ answer.status ≤ 299 then do
    let methods ← listValues answer.headers accessControlAllowMethods
    let names ← listValues answer.headers accessControlAllowHeaders
    return (methods, names)
  else none

variable (f : Fetch)

def Fetch.methodGranted (headers : HeaderMap) (methods : List Str) : Bool :=
  methods.contains f.method.text
    || (f.useCorsPreflight && !headers.containsKey accessControlAllowMethods)
    || isSafelistedMethod f.method.text
    || (!f.credentials && methods.contains wildcard)

def Fetch.nameGranted (names : List Str) (name : Token) : Bool :=
  names.any (eqIgnoreAsciiCase name.text)
    || (!f.credentials && names.contains wildcard && !isNonWildcardName name.text)

def Fetch.granted (answer : Response) : Bool :=
  match answerLists answer with
  | none => false
  | some (methods, names) =>
    f.methodGranted answer.headers methods && f.names.all (f.nameGranted names)

/-- The check of the answer to a preflight. -/
def Fetch.permitted (answer : Response) : Bool :=
  corsCheck f.credentials f.origin answer.headers && f.granted answer

open Fetch

variable {he h' : HeaderMap} {name value origin : Str}
variable {a answer' : Response} {m names : List Str}

lemma combined_of_getAll (h : he.getAll name = [value]) : combined he name = some value := by
  simp [combined,HeaderMap.containsKey_eq,h]

lemma listValues_congr (h : he.getAll name = h'.getAll name) :
    listValues he name = listValues h' name := by
  simp only [listValues,h]

lemma granted_congr (hst : a.status = answer'.status)
    (hm : a.headers.getAll accessControlAllowMethods =
      answer'.headers.getAll accessControlAllowMethods)
    (hn : a.headers.getAll accessControlAllowHeaders =
      answer'.headers.getAll accessControlAllowHeaders) (f : Fetch) :
    f.granted a = f.granted answer' := by
  simp only [granted,answerLists,methodGranted,HeaderMap.containsKey_eq,hst,hm,
    listValues_congr hm,listValues_congr hn]

lemma isToken_of_mem_listValues {values : List Str} (h : listValues he name = some values)
    (hv : value ∈ values) : isToken value = true := by
  obtain ⟨ha,rfl⟩ : _ ∧ _ = values := by
    simpa only [listValues,Option.ite_none_right_eq_some,Option.some.injEq] using h
  exact all_eq_true.mp ha value hv

lemma answerLists_eq_some (h : answerLists a = some (m, names)) :
    listValues a.headers accessControlAllowMethods = some m ∧
      listValues a.headers accessControlAllowHeaders = some names := by
  by_cases hst : 200 ≤ a.status ∧ a.status ≤ 299
  · simp only [answerLists,hst,and_self,if_true,Option.bind_eq_bind,Option.bind_eq_some_iff] at h
    obtain ⟨ms,hms,ns,hns,rfl,rfl⟩ := h
    exact ⟨hms,hns⟩
  · rw [answerLists,if_neg hst] at h
    cases h

def getMethod : Token := ⟨str "GET",by decide⟩

lemma granted_getMethod (hl : answerLists a = some (m, names)) (origin : Str) :
    granted { origin, method := getMethod } a = true := by
  have hsa : isSafelistedMethod getMethod.text = true := by decide
  simp [granted,hl,methodGranted,hsa]

lemma corsCheck_false_of_true (h : corsCheck true origin he = true) :
    corsCheck false origin he = true := by
  cases ha : combined he accessControlAllowOrigin with
  | none => simp [corsCheck,ha] at h
  | some al =>
    obtain ⟨rfl,-⟩ : al = origin ∧ _ := by simpa [corsCheck,ha] using h
    simp [corsCheck,ha]

lemma corsCheck_false_of_getAll (h : he.getAll accessControlAllowOrigin = [wildcard] ∨
      he.getAll accessControlAllowOrigin = [origin]) : corsCheck false origin he = true := by
  rcases h with h | h <;> simp [corsCheck,combined_of_getAll h]

structure Policy where
  method : Str → Prop
  name : Str → Prop
  safelisted : ∀ {m}, isSafelistedMethod m = true → method m
  anyMethod : method wildcard → ∀ m, method m
  anyName : name wildcard → ∀ n, name n
  ignoreCase : ∀ {m n}, eqIgnoreAsciiCase n m = true → name m → name n

namespace Policy
variable (p : Policy) {answer : Response} {methods names : List Str}

def Allows (f : Fetch) : Prop := p.method f.method.text ∧ ∀ n ∈ f.names, p.name n.text

def Covers (answer : Response) (methods names : List Str) : Prop :=
  (∀ m ∈ methods, p.method m) ∧ (∀ n ∈ names, p.name n) ∧
    (answer.headers.containsKey accessControlAllowMethods = false → ∀ m : Token, p.method m.text)

variable {p}

lemma Covers.allows {f : Fetch} (h : p.Covers answer methods names)
    (hl : answerLists answer = some (methods, names)) (hf : f.granted answer = true) :
    p.Allows f := by
  simp only [granted,hl,methodGranted,nameGranted,Bool.and_eq_true,
    Bool.or_eq_true,all_eq_true,any_eq_true,contains_iff_mem,
    Bool.not_eq_eq_eq_not] at hf
  obtain ⟨hme,hna,ha⟩ := h
  obtain ⟨hmt,hnm⟩ := hf
  constructor
  · rcases hmt with ((hmm | ⟨-,hk⟩) | hsa) | ⟨-,hst⟩
    · exact hme _ hmm
    · exact ha hk _
    · exact p.safelisted hsa
    · exact p.anyMethod (hme _ hst) _
  · intro n hn
    rcases hnm n hn with ⟨m,hm,heq⟩ | ⟨⟨-,hst⟩,-⟩
    · exact p.ignoreCase heq (hna m hm)
    · exact p.anyName (hna _ hst) _

lemma covers_of_allows (origin : Str) (hl : answerLists answer = some (methods, names))
    (h : ∀ f, f.origin = origin → f.credentials = false → f.granted answer = true →
      p.Allows f) : p.Covers answer methods names := by
  obtain ⟨hms,hns⟩ := answerLists_eq_some hl
  refine ⟨fun m hm => ?_,fun n hn => ?_,fun hk m => ?_⟩
  · let token : Token := ⟨m,isToken_of_mem_listValues hms hm⟩
    have hg : granted { origin, method := token } answer = true := by
      simp [granted,hl,methodGranted,token,hm]
    exact (h _ rfl rfl hg).1
  · let token : Token := ⟨n,isToken_of_mem_listValues hns hn⟩
    have hsa : isSafelistedMethod getMethod.text = true := by decide
    have ha : names.any (eqIgnoreAsciiCase n) = true :=
      any_eq_true.mpr ⟨n,hn,by simp [eqIgnoreAsciiCase]⟩
    have hg : granted { origin, method := getMethod, names := [token] } answer = true := by
      simp [granted,hl,methodGranted,nameGranted,hsa,token,ha]
    exact (h _ rfl rfl hg).2 token mem_cons_self
  · have hg : granted { origin, method := m, useCorsPreflight := true } answer = true := by
      simp [granted,hl,methodGranted,hk]
    exact (h _ rfl rfl hg).1

end Policy

lemma isTokenByte_spec {b : UInt8} (h : isTokenByte b = true) :
    isWhitespace b = false ∧ b ≠ comma ∧ isValid b = true := by
  have hm : ∀ b ∈ str "!#$%&'*+-.^_`|~",
      isWhitespace b = false ∧ b ≠ comma ∧ isValid b = true := by decide
  simp only [isTokenByte,Bool.or_eq_true,contains_iff_mem] at h
  rcases h with h | h
  · simp only [isAlphanumeric,isDigit,isWhitespace,isValid,comma,Bool.or_eq_true,Bool.and_eq_true] at h ⊢
    grind
  · exact hm b h

lemma elements_cons_blank (s : Str) : elements (32::s) = elements s := by
  have hb : isWhitespace 32 = true := by decide
  have hsp : (32::s).splitOn comma = (s.splitOn comma).modifyHead (32::·) := by
    rw [splitOn_cons_eq_if_modifyHead,if_neg (by decide)]
  rw [elements,elements,hsp]
  cases s.splitOn comma with
  | nil => rfl
  | cons f o => simp [trim_cons_blank hb]

lemma elements_intercalate {words : List Str} (h : ∀ w ∈ words, w ≠ [] ∧ comma ∉ w ∧ trim w = w) :
    elements ((str ", ").intercalate words) = words := by
  induction words with
  | nil => decide
  | cons f words ih =>
    obtain ⟨hne,hc,ht⟩ := h f mem_cons_self
    have ih := ih fun w hw => h w (mem_cons_of_mem f hw)
    cases words with
    | nil =>
      have hsp : f.splitOn comma = [f] := splitOn_eq_singleton hc
      simp [elements,hsp,ht,hne]
    | cons s words =>
      have hse : str ", " = [comma,32] := by decide
      have hj : (str ", ").intercalate (f::s::words) =
          f++comma::32::(str ", ").intercalate (s::words) := by
        rw [hse]
        simp
      have hh : elements (f++comma::32::(str ", ").intercalate (s::words)) =
          f::elements (32::(str ", ").intercalate (s::words)) := by
        rw [elements,elements,splitOn_append_cons_self_of_not_mem hc]
        simp [ht,hne]
      rw [hj,hh,elements_cons_blank,ih]

lemma Token.isTokenByte_of_mem (t : Token) {b : UInt8} (h : b ∈ t.text) : isTokenByte b = true := by
  have hv := t.valid
  simp only [isToken,Bool.and_eq_true,all_eq_true] at hv
  exact hv.2 b h

lemma elements_tokens (tokens : List Token) :
    elements ((str ", ").intercalate (tokens.map Token.text)) = tokens.map Token.text := by
  apply elements_intercalate
  intro w hw
  obtain ⟨t,-,rfl⟩ := mem_map.mp hw
  refine ⟨?_,fun hc => ?_,trim_eq_self fun b hb => ?_⟩
  · have hv := t.valid
    simp only [isToken,Bool.and_eq_true] at hv
    simpa using hv.1
  · exact (isTokenByte_spec (t.isTokenByte_of_mem hc)).2.1 rfl
  · exact (isTokenByte_spec (t.isTokenByte_of_mem hb)).1

lemma fromStr_tokens (tokens : List Token) :
    fromStr ((str ", ").intercalate (tokens.map Token.text)) =
      some ((str ", ").intercalate (tokens.map Token.text)) := by
  have hse : ∀ b ∈ str ", ", isValid b = true := by decide
  have ha : ((str ", ").intercalate (tokens.map Token.text)).all isValid = true := by
    refine all_eq_true.mpr fun b hb => ?_
    rcases mem_intercalate hb with h | ⟨l,hl,hbl⟩
    · exact hse b h
    · obtain ⟨t,-,rfl⟩ := mem_map.mp hl
      exact (isTokenByte_spec (t.isTokenByte_of_mem hbl)).2.2
  rw [fromStr,if_pos ha]

end ArionGateway.FetchCors
