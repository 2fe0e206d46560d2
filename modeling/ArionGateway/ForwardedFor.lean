import ArionGateway.AddressText
import ArionGateway.DelimitedText

/-!
# Forwarded client addresses

With a number of trusted hops the connection manager takes the client's address from that place of
the `X-Forwarded-For` list, counted from the right, where nothing that a client has written can
stand. A header may come in several lines, which stand for one line. Only the first line is read
here, and not at all if it has bytes beyond visible ASCII: what a client writes has no influence
exactly if the further lines have no addresses and the first line can be read, or nothing can be
read anyway.
-/
namespace ArionGateway.ForwardedFor
open AddressText ByteStrings DelimitedText HttpHeaders IpNetworks List HeaderMap Option

def xForwardedFor : Str := str "x-forwarded-for"
def xEnvoyExternalAddress : Str := str "x-envoy-external-address"
def xEnvoyInternal : Str := str "x-envoy-internal"

structure XffSettings where
  useRemoteAddress : Bool := false
  skipXffAppend : Bool := false
  xffNumTrustedHops : ℕ := 0
  deriving DecidableEq

def isPrivate (bits : BitVec 32) : Bool :=
  bits.toNat / 2^24 = 10 || bits.toNat / 2^20 = 172*16+1 ||
    bits.toNat / 2^16 = 192*256+168

def isInternalIp : IpAddr → Bool
  | .v4 bits => isPrivate bits || bits.toNat / 2^24 = 127
  | .v6 bits =>
    -- the first segment masked with fe00 is fc00, that is, unique local
    bits.toNat / 2^121 = 126 || bits.toNat = 0 || bits.toNat = 1 ||
      -- the first segment masked with ffc0 is fe80
      bits.toNat / 2^118 = 1018

def validAddresses (xff : Str) : List IpAddr := (xff.splitOn comma).filterMap (parse ∘ trim)

def determineTrustedClientAddress (existingXff : Option Str) (downstreamIp : IpAddr)
    (settings : XffSettings) : IpAddr × Bool :=
  if settings.useRemoteAddress && settings.xffNumTrustedHops = 0 then (downstreamIp, false)
  else
    match existingXff with
    | none => (downstreamIp, false)
    | some xff =>
      let fromRight := (validAddresses xff).reverse
      if !settings.useRemoteAddress then
        if 0 < settings.xffNumTrustedHops then
          ((fromRight[settings.xffNumTrustedHops]?).getD downstreamIp, false)
        else
          match fromRight with
          | last::rest => (last, rest.isEmpty)
          | [] => (downstreamIp, false)
      else ((fromRight[settings.xffNumTrustedHops - 1]?).getD downstreamIp, false)

def appendHopToXff (existingXff : Option Str) (downstreamIp : IpAddr) : Str :=
  match existingXff with
  | some existing =>
    if existing = [] then display downstreamIp else existing++str ", " ++ display downstreamIp
  | none => display downstreamIp

/-- The text of the first line, if it is text. -/
def existingXff (headers : HeaderMap) : Option Str := (headers.get xForwardedFor).bind toStr

def insertText (headers : HeaderMap) (name text : Str) : HeaderMap :=
  match fromStr text with
  | some value => headers.insert name value
  | none => headers

/-- The headers that `apply_xff_headers` goes on with: an external peer has no say
in the two headers about it. -/
def withoutClaims (headers : HeaderMap) (downstreamAddr : SocketAddr) : HeaderMap :=
  if isInternalIp downstreamAddr.ip then headers
  else (headers.remove xEnvoyExternalAddress).remove xEnvoyInternal

/-- The address of the client as `apply_xff_headers` determines it. -/
def trustedClientAddress (headers : HeaderMap) (downstreamAddr : SocketAddr)
    (settings : XffSettings) : IpAddr :=
  (determineTrustedClientAddress (existingXff (withoutClaims headers downstreamAddr))
    downstreamAddr.ip settings).1

def applyXffHeaders (headers : HeaderMap) (downstreamAddr : SocketAddr) (settings : XffSettings) :
    HeaderMap :=
  let downstreamIsInternal := isInternalIp downstreamAddr.ip
  let headers := withoutClaims headers downstreamAddr
  if !settings.useRemoteAddress && settings.skipXffAppend then headers
  else
    let existing := existingXff headers
    let (trusted, xffContainsSingleIp) :=
      determineTrustedClientAddress existing downstreamAddr.ip settings
    let isInternalTrustedClient := isInternalIp trusted
    let hasIncomingXff := existing.isSome
    let shouldUpdateXff := settings.useRemoteAddress && !settings.skipXffAppend
    let shouldSetEnvoyExternal := settings.useRemoteAddress &&
      !headers.containsKey xEnvoyExternalAddress && !isInternalTrustedClient
    let shouldSetEnvoyInternal :=
      (settings.useRemoteAddress && downstreamIsInternal && !hasIncomingXff) ||
        (xffContainsSingleIp && isInternalTrustedClient)
    let shouldMarkEnvoyInternalFalse :=
      (settings.useRemoteAddress && !downstreamIsInternal && !hasIncomingXff) ||
        (xffContainsSingleIp && !isInternalTrustedClient)
    let headers :=
      if shouldUpdateXff then
        insertText headers xForwardedFor (appendHopToXff existing downstreamAddr.ip)
      else headers
    let headers :=
      if shouldSetEnvoyExternal then insertText headers xEnvoyExternalAddress (display trusted)
      else headers
    if shouldSetEnvoyInternal then headers.insert xEnvoyInternal (str "true")
    else if shouldMarkEnvoyInternalFalse then headers.insert xEnvoyInternal (str "false")
    else headers

def lines (headers : HeaderMap) : List Str := headers.getAll xForwardedFor

/-- The addresses in all lines, which count as one list. -/
def forwarded (headers : HeaderMap) : List IpAddr :=
  validAddresses ([comma].intercalate (lines headers))

/-- Two requests whose lines end with the same `n` addresses. -/
def EndAlike (n : ℕ) (headers headers' : HeaderMap) : Prop :=
  ∃ addresses : List IpAddr, addresses.length = n ∧
    addresses <:+ forwarded headers ∧ addresses <:+ forwarded headers'

/-- What the outcome can depend on besides the addresses: whether the first line
can be read, the number of addresses in further lines, and what the request says
about its external address. -/
structure Shape where
  readable : Bool
  further : ℕ
  claimed : List Str
  deriving DecidableEq

def shape (headers : HeaderMap) : Shape :=
  { readable := (lines headers).head?.all fun line => (toStr line).isSome
    further := ((lines headers).tail.flatMap validAddresses).length
    claimed := headers.getAll xEnvoyExternalAddress }

/-- The address of the client and the header about it come out the same. -/
def SameOutcome (downstreamAddr : SocketAddr) (settings : XffSettings)
    (headers headers' : HeaderMap) : Prop :=
  trustedClientAddress headers downstreamAddr settings =
      trustedClientAddress headers' downstreamAddr settings ∧
    (applyXffHeaders headers downstreamAddr settings).getAll xEnvoyExternalAddress =
      (applyXffHeaders headers' downstreamAddr settings).getAll xEnvoyExternalAddress

variable {α : Type} {f : Str → Option α}

lemma fields_intercalate (hf : f [] = none) (ls : List Str) :
    (([comma].intercalate ls).splitOn comma).filterMap f =
      ls.flatMap fun l => (l.splitOn comma).filterMap f := by
  induction ls with
  | nil => simp [hf]
  | cons l ls ih =>
    cases ls with
    | nil => simp
    | cons sc ls =>
      rw [intercalate_cons_cons,append_assoc,singleton_append,
        splitOn_append_cons_self,filterMap_append,ih]
      rfl

lemma validAddresses_intercalate (ls : List Str) :
    validAddresses ([comma].intercalate ls) = ls.flatMap validAddresses := fields_intercalate rfl ls

lemma forwarded_eq (headers : HeaderMap) :
    forwarded headers = (lines headers).flatMap validAddresses := validAddresses_intercalate _

section
variable {headers : HeaderMap} {d : SocketAddr} {s : XffSettings}

lemma lines_withoutClaims (headers : HeaderMap) (d : SocketAddr) :
    lines (withoutClaims headers d) = lines headers := by
  rw [lines,withoutClaims]
  split_ifs
  · rfl
  · rw [getAll_remove_of_ne (by decide),getAll_remove_of_ne (by decide)]
    rfl

lemma existingXff_eq (headers : HeaderMap) :
    existingXff headers = (lines headers).head?.bind toStr := by
  rw [existingXff,get_eq_head?]
  rfl

/-- With a remote address in use, the client's address stands in the readable first
line, as many addresses from the right as there are trusted hops. -/
lemma trustedClientAddress_eq (huse : s.useRemoteAddress = true) :
    trustedClientAddress headers d s = if s.xffNumTrustedHops = 0 then d.ip
      else
        (((lines headers).head?.bind toStr).bind fun xff =>
          (validAddresses xff).reverse[s.xffNumTrustedHops - 1]?).getD d.ip := by
  rw [trustedClientAddress,existingXff_eq,lines_withoutClaims]
  unfold determineTrustedClientAddress
  rw [huse]
  by_cases hhops : s.xffNumTrustedHops = 0
  · simp [hhops]
  · cases (lines headers).head?.bind toStr <;> simp [hhops]

lemma getAll_insertText_of_ne {n other t : Str} (h : other ≠ n) :
    (insertText headers n t).getAll other = headers.getAll other := by
  rw [insertText]
  cases fromStr t with
  | none => rfl
  | some v => exact getAll_insert_of_ne h

lemma getAll_setInternal (c c' : Bool) {other : Str} (h : other ≠ xEnvoyInternal) :
    getAll (if c then headers.insert xEnvoyInternal (str "true")
      else if c' then headers.insert xEnvoyInternal (str "false") else headers) other =
      headers.getAll other := by
  split_ifs <;> simp [getAll_insert_of_ne h]

lemma getAll_insertTextIf (c : Bool) {n other t : Str} (h : other ≠ n) :
    getAll (if c then insertText headers n t else headers) other = headers.getAll other := by
  split_ifs <;> simp [getAll_insertText_of_ne h]

lemma fromStr_display (ip : IpAddr) : fromStr (display ip) = some (display ip) := by
  refine if_pos (all_eq_true.mpr fun b hb => ?_)
  have hbo := bounds_of_isAddressByte (isAddressByte_of_mem_display hb)
  simp only [isValid,Bool.or_eq_true,Bool.and_eq_true]
  grind

variable (hu : s.useRemoteAddress = true)
include hu

/-- The header about the client: what the request says is kept from an internal
peer, and otherwise the client's address is written, unless it is internal. -/
lemma externalAddress_eq : (applyXffHeaders headers d s).getAll xEnvoyExternalAddress =
      let claimed := if isInternalIp d.ip then
        headers.getAll xEnvoyExternalAddress else []
      let trusted := trustedClientAddress headers d s
      if claimed = [] ∧ isInternalIp trusted = false then [display trusted] else claimed := by
  have hc : (withoutClaims headers d).getAll xEnvoyExternalAddress =
      if isInternalIp d.ip then headers.getAll xEnvoyExternalAddress else [] := by
    rw [withoutClaims]
    split_ifs
    · rfl
    · rw [getAll_remove_of_ne (by decide),getAll_remove_self]
  -- the other headers that are set have other names
  rw [applyXffHeaders]
  rw [if_neg (by simp [hu]),getAll_setInternal _ _ (by decide),containsKey_eq,hc,hu]
  change getAll (if true && _ && !isInternalIp
    (trustedClientAddress headers d s) then _ else _) _ = _
  set trusted := trustedClientAddress headers d s
  set claimed := if isInternalIp d.ip then headers.getAll xEnvoyExternalAddress else []
  by_cases hse : claimed = [] ∧ isInternalIp trusted = false
  · rw [if_pos hse,if_pos (by simp [hse]),insertText,fromStr_display,getAll_insert_self]
    rfl
  · rw [if_neg hse,if_neg,getAll_insertTextIf _ (by decide),hc]
    intro hco
    refine hse ⟨?_,?_⟩
    · simpa using (Bool.and_eq_true_iff.mp (Bool.and_eq_true_iff.mp hco).1).2
    · simpa using (Bool.and_eq_true_iff.mp hco).2

lemma trustedClientAddress_of_not_readable (hr : (shape headers).readable = false) :
    trustedClientAddress headers d s = d.ip := by
  rw [trustedClientAddress_eq hu]
  dsimp only [shape] at hr
  cases hl : (lines headers).head? with
  | none => simp
  | some l =>
    rw [hl] at hr
    have hn : toStr l = none := by simpa using hr
    simp [hn]

lemma trustedClientAddress_of_suffix (hr : (shape headers).readable = true)
    (hf : (shape headers).further = 0) {first : IpAddr} {r : List IpAddr}
    (hhops : r.length+1 = s.xffNumTrustedHops) (hsu : first::r <:+ forwarded headers) :
    trustedClientAddress headers d s = first := by
  rw [trustedClientAddress_eq hu]
  dsimp only [shape] at hr hf
  have hre := length_eq_zero_iff.mp hf
  rw [forwarded_eq] at hsu
  cases hl : lines headers with
  | nil =>
    rw [hl] at hsu
    exact absurd (suffix_nil.mp hsu) (cons_ne_nil _ _)
  | cons l o =>
    rw [hl,tail_cons] at hre
    rw [hl,flatMap_cons,hre,append_nil] at hsu
    rw [hl,head?_cons] at hr
    obtain ⟨t,ht⟩ := isSome_iff_exists.mp hr
    obtain ⟨rfl,-⟩ := toStr_eq_some_iff.mp ht
    obtain ⟨b,hv⟩ := hsu
    rw [head?_cons,bind_some,ht,bind_some,← hv,← hhops]
    simp

end

section

/-- The first line of a request, with an entry that is not text if it is not to be
read. -/
def firstLine (readable : Bool) (first : List IpAddr) : Str :=
  [comma].intercalate ((if readable then [] else [[233]])++first.map display)

/-- A request with some addresses in its first line and one in each further line. -/
def requestWith (readable : Bool) (first further : List IpAddr) (claimed : List Str) : HeaderMap :=
  (xForwardedFor, firstLine readable first) ::
    (further.map fun ip => (xForwardedFor, display ip)) ++
    claimed.map fun value => (xEnvoyExternalAddress, value)

variable (ip : IpAddr)

lemma trim_display : trim (display ip) = display ip := by
  refine trim_eq_self fun b hb => ?_
  have := bounds_of_isAddressByte (isAddressByte_of_mem_display hb)
  simp only [isWhitespace]
  grind

lemma comma_notMem_display : comma ∉ display ip := fun h =>
  absurd (bounds_of_isAddressByte (isAddressByte_of_mem_display h)).1 (by decide)

lemma validAddresses_display : validAddresses (display ip) = [ip] := by
  rw [validAddresses,splitOn_eq_singleton (comma_notMem_display ip)]
  simp [trim_display,parse_display]

lemma flatMap_validAddresses_display (ips : List IpAddr) :
    (ips.map display).flatMap validAddresses = ips := by
  induction ips with
  | nil => rfl
  | cons ip ips ih => rw [map_cons,flatMap_cons,ih,validAddresses_display]; rfl

lemma validAddresses_firstLine (r : Bool) (first : List IpAddr) :
    validAddresses (firstLine r first) = first := by
  rw [firstLine,validAddresses_intercalate,flatMap_append,flatMap_validAddresses_display]
  cases r <;> rfl

lemma toStr_firstLine (r : Bool) (first : List IpAddr) : toStr (firstLine r first) =
      if r then some (firstLine r first) else none := by
  cases r with
  | false =>
    refine if_neg fun ha => ?_
    have hm : (233 : UInt8) ∈ firstLine false first := by
      cases first <;> simp [firstLine]
    exact absurd (all_eq_true.mp ha 233 hm) (by decide)
  | true =>
    refine if_pos (all_eq_true.mpr fun b hb => ?_)
    rcases mem_intercalate hb with hc | ⟨l,hl,hb⟩
    · obtain rfl := mem_singleton.mp hc
      rfl
    · obtain ⟨ip,-,rfl⟩ := mem_map.mp (by simpa using hl)
      have := bounds_of_isAddressByte (isAddressByte_of_mem_display hb)
      simp only [isVisibleAscii,Bool.or_eq_true,Bool.and_eq_true]
      grind

variable (r : Bool) (f further : List IpAddr) (claimed : List Str)

lemma lines_requestWith :
    lines (requestWith r f further claimed) = firstLine r f::further.map display := by
  have hne : xEnvoyExternalAddress ≠ xForwardedFor := by decide
  simp [lines,requestWith,getAll,hne]

lemma claimed_requestWith :
    (requestWith r f further claimed).getAll xEnvoyExternalAddress = claimed := by
  have hne : xForwardedFor ≠ xEnvoyExternalAddress := by decide
  simp [requestWith,getAll,hne]

lemma shape_requestWith : shape (requestWith r f further claimed) = ⟨r,further.length,claimed⟩ := by
  rw [shape,lines_requestWith,claimed_requestWith,tail_cons,
    flatMap_validAddresses_display,head?_cons,all_some,toStr_firstLine]
  cases r <;> rfl

lemma forwarded_requestWith : forwarded (requestWith r f further claimed) = f++further := by
  rw [forwarded_eq,lines_requestWith,flatMap_cons,validAddresses_firstLine,
    flatMap_validAddresses_display]

variable {da : SocketAddr} {se : XffSettings}

lemma trusted_requestWith (huse : se.useRemoteAddress = true)
    (hhops : se.xffNumTrustedHops ≠ 0) (f fu : List IpAddr) (c : List Str) :
    trustedClientAddress (requestWith true f fu c) da se =
      (f.reverse[se.xffNumTrustedHops - 1]?).getD da.ip := by
  rw [trustedClientAddress_eq huse,if_neg hhops,lines_requestWith,head?_cons,
    bind_some,toStr_firstLine,if_pos rfl,bind_some,validAddresses_firstLine]

/-- A request of a given shape: after some addresses of its own it repeats one
address, in the first line and in all others. -/
def requestOf (s : Shape) (own : List IpAddr) (m : ℕ) (ip : IpAddr) : HeaderMap :=
  requestWith s.readable (own++List.replicate m ip) (List.replicate s.further ip) s.claimed

lemma shape_requestOf (s : Shape) (own : List IpAddr) (m : ℕ) (ip : IpAddr) :
    shape (requestOf s own m ip) = s := by
  rw [requestOf,shape_requestWith,length_replicate]

lemma trusted_requestOf_nil (huse : se.useRemoteAddress = true) (s : Shape) (ip : IpAddr) :
    trustedClientAddress (requestOf s [] se.xffNumTrustedHops ip) da se =
      if se.xffNumTrustedHops ≠ 0 ∧ s.readable = true then ip else da.ip := by
  by_cases hhops : se.xffNumTrustedHops = 0
  · rw [trustedClientAddress_eq huse,if_pos hhops,if_neg (fun h => h.1 hhops)]
  by_cases hr : s.readable = true
  · rw [requestOf,hr,trusted_requestWith huse hhops,nil_append,
      reverse_replicate,getElem?_replicate_of_lt (by omega),if_pos ⟨hhops,rfl⟩,getD_some]
  · rw [trustedClientAddress_of_not_readable huse (by simpa [shape_requestOf] using hr),
      if_neg fun h => hr h.2]

lemma trusted_requestOf_singleton (huse : se.useRemoteAddress = true)
    (hhops : se.xffNumTrustedHops ≠ 0) {s : Shape} (hr : s.readable = true) (own ip : IpAddr) :
    trustedClientAddress (requestOf s [own] (se.xffNumTrustedHops - 1) ip) da se = own := by
  rw [requestOf,hr,trusted_requestWith huse hhops,reverse_append,
    reverse_replicate,getElem?_append_right (by simp),length_replicate,Nat.sub_self]
  rfl

lemma suffix_forwarded_requestOf (s : Shape) (own : List IpAddr) (ip : IpAddr) {m n : ℕ}
    (hn : n ≤ m+s.further) : List.replicate n ip <:+ forwarded (requestOf s own m ip) := by
  rw [requestOf,forwarded_requestWith,append_assoc,replicate_append_replicate]
  obtain ⟨k,hk⟩ := Nat.exists_eq_add_of_le' hn
  rw [hk,← replicate_append_replicate,← append_assoc]
  exact suffix_append ..

lemma exists_other : ∃ o, o ≠ ip := by
  by_cases h : ip = .v4 0
  · exact ⟨.v4 1,by rw [h]; decide⟩
  · exact ⟨.v4 0,Ne.symm h⟩

end

section
variable {downstreamAddr : SocketAddr} {settings : XffSettings} {s₁ s₂ : Shape}

/-- Requests of two shapes with the same trusted addresses always have the same
outcome. -/
def NoInfluence (downstreamAddr : SocketAddr) (settings : XffSettings) (s₁ s₂ : Shape) : Prop :=
  ∀ headers headers' : HeaderMap, shape headers = s₁ → shape headers' = s₂ →
    EndAlike settings.xffNumTrustedHops headers headers' →
    SameOutcome downstreamAddr settings headers headers'

lemma NoInfluence.symm (h : NoInfluence downstreamAddr settings s₁ s₂) :
    NoInfluence downstreamAddr settings s₂ s₁ := by
  intro headers headers' hsp hsh ⟨addresses,hl,hsu,hs'⟩
  have hsa := h headers' headers hsh hsp ⟨addresses,hl,hs',hsu⟩
  exact ⟨hsa.1.symm,hsa.2.symm⟩

lemma NoInfluence.requestOf (h : NoInfluence downstreamAddr settings s₁ s₂)
    (own o' : List IpAddr) {m m' : ℕ} (ip : IpAddr) (hm : settings.xffNumTrustedHops ≤ m+s₁.further)
    (hm' : settings.xffNumTrustedHops ≤ m' + s₂.further) :
    SameOutcome downstreamAddr settings (requestOf s₁ own m ip) (requestOf s₂ o' m' ip) :=
  h _ _ (shape_requestOf ..) (shape_requestOf ..)
    ⟨_,length_replicate,suffix_forwarded_requestOf s₁ own ip hm,
      suffix_forwarded_requestOf s₂ o' ip hm'⟩

section

variable (hus : settings.useRemoteAddress = true) (hh : settings.xffNumTrustedHops ≠ 0)
    (h : NoInfluence downstreamAddr settings s₁ s₂) (h₁ : s₁.readable = true)
include hus hh h h₁

lemma readable_of_noInfluence : s₂.readable = true := by
  obtain ⟨ip,hip⟩ := exists_other downstreamAddr.ip
  by_contra h₂
  have ht := (h.requestOf [] [] ip (Nat.le_add_right ..) (Nat.le_add_right ..)).1
  rw [trusted_requestOf_nil hus,trusted_requestOf_nil hus,if_pos ⟨hh,h₁⟩,
    if_neg fun h => h₂ h.2] at ht
  exact hip ht

lemma further_of_noInfluence : s₁.further = 0 := by
  obtain ⟨own,ho⟩ := exists_other downstreamAddr.ip
  by_contra hf
  have ht := (h.requestOf [own] [] (m := settings.xffNumTrustedHops - 1) downstreamAddr.ip
    (by omega) (Nat.le_add_right ..)).1
  rw [trusted_requestOf_singleton hus hh h₁,trusted_requestOf_nil hus,ite_self] at ht
  exact ho ht

end

lemma claimed_of_noInfluence (huse : settings.useRemoteAddress = true)
    (h : NoInfluence downstreamAddr settings s₁ s₂) (hi : isInternalIp downstreamAddr.ip) :
    s₁.claimed = s₂.claimed := by
  -- no address is external, so that nothing else is written
  have hk : ∀ s, (applyXffHeaders
      (ForwardedFor.requestOf s [] settings.xffNumTrustedHops downstreamAddr.ip)
      downstreamAddr settings).getAll xEnvoyExternalAddress = s.claimed := by
    intro s
    rw [externalAddress_eq huse,trusted_requestOf_nil huse]
    simp [ForwardedFor.requestOf,claimed_requestWith,hi]
  have hsa := (h.requestOf [] [] downstreamAddr.ip (Nat.le_add_right ..) (Nat.le_add_right ..)).2
  rwa [hk,hk] at hsa

variable (downstreamAddr) in
lemma same_trusted (huse : settings.useRemoteAddress = true) {headers headers' : HeaderMap}
    (ha : EndAlike settings.xffNumTrustedHops headers headers')
    (hsh : settings.xffNumTrustedHops = 0 ∨
      ((shape headers).readable = false ∧ (shape headers').readable = false) ∨
      ((shape headers).readable = true ∧ (shape headers').readable = true ∧
        (shape headers).further = 0 ∧ (shape headers').further = 0)) :
    trustedClientAddress headers downstreamAddr settings =
      trustedClientAddress headers' downstreamAddr settings := by
  rcases hsh with hhops | ⟨h₁,h₂⟩ | ⟨h₁,h₂,hfurther₁,hfurther₂⟩
  · rw [trustedClientAddress_eq huse,trustedClientAddress_eq huse,if_pos hhops,if_pos hhops]
  · rw [trustedClientAddress_of_not_readable huse h₁,trustedClientAddress_of_not_readable huse h₂]
  · obtain ⟨a,hl,hsu,hs'⟩ := ha
    cases a with
    | nil =>
      have hhops : settings.xffNumTrustedHops = 0 := hl.symm
      rw [trustedClientAddress_eq huse,trustedClientAddress_eq huse,if_pos hhops,if_pos hhops]
    | cons fi re =>
      rw [trustedClientAddress_of_suffix huse h₁ hfurther₁ hl hsu,
        trustedClientAddress_of_suffix huse h₂ hfurther₂ hl hs']

/-- What stands before the trusted addresses has no influence exactly if both first
lines can be read and hold all addresses, or neither can be read, and the peer has
no say about the client's address or says the same. -/
theorem no_influence_iff (huse : settings.useRemoteAddress = true) :
    (∀ headers headers' : HeaderMap, shape headers = s₁ → shape headers' = s₂ →
        EndAlike settings.xffNumTrustedHops headers headers' →
        SameOutcome downstreamAddr settings headers headers') ↔
      (settings.xffNumTrustedHops = 0 ∨ (s₁.readable = false ∧ s₂.readable = false) ∨
        (s₁.readable = true ∧ s₂.readable = true ∧ s₁.further = 0 ∧ s₂.further = 0)) ∧
      (isInternalIp downstreamAddr.ip = false ∨ s₁.claimed = s₂.claimed) := by
  constructor
  · intro h
    have h : NoInfluence downstreamAddr settings s₁ s₂ := h
    refine ⟨?_,?_⟩
    · rcases eq_zero_or_pos settings.xffNumTrustedHops with hhops | hhops
      · exact Or.inl hhops
      · refine Or.inr ?_
        have hf := readable_of_noInfluence huse hhops.ne' h
        have hb := readable_of_noInfluence huse hhops.ne' h.symm
        cases h₁ : s₁.readable with
        | false => exact Or.inl ⟨rfl,by simpa [h₁] using hb⟩
        | true =>
          exact Or.inr ⟨rfl,hf h₁,further_of_noInfluence huse hhops.ne' h h₁,
            further_of_noInfluence huse hhops.ne' h.symm (hf h₁)⟩
    · cases hi : isInternalIp downstreamAddr.ip with
      | false => exact Or.inl rfl
      | true => exact Or.inr (claimed_of_noInfluence huse h hi)
  · rintro ⟨hsh,hc⟩ headers headers' rfl rfl ha
    have ht := same_trusted downstreamAddr huse ha hsh
    refine ⟨ht,?_⟩
    rw [externalAddress_eq huse,externalAddress_eq huse,ht]
    rcases hc with he | hc
    · simp [he]
    · change headers.getAll _ = headers'.getAll _ at hc
      rw [hc]

def oneHop : XffSettings := { useRemoteAddress := true, xffNumTrustedHops := 1 }

theorem no_influence_first_line :
    oneHop.useRemoteAddress = true ∧ ∀ headers headers' : HeaderMap,
      shape headers = ⟨true, 0, []⟩ → shape headers' = ⟨true, 0, []⟩ →
      EndAlike 1 headers headers' → SameOutcome ⟨.v4 0xC0000201, 443⟩ oneHop headers headers' :=
  ⟨rfl,(no_influence_iff (show oneHop.useRemoteAddress = true from rfl)).mpr ⟨by decide,by decide⟩⟩

def spoofed : HeaderMap := [(xForwardedFor, str "6.6.6.6"),(xForwardedFor, str "1.2.3.4")]

def honest : HeaderMap := [(xForwardedFor, str "1.2.3.4")]

theorem first_line_decides :
    EndAlike 1 spoofed honest ∧
      trustedClientAddress spoofed ⟨.v4 0xC0000201, 443⟩ oneHop = .v4 0x06060606 ∧
      trustedClientAddress honest ⟨.v4 0xC0000201, 443⟩ oneHop = .v4 0x01020304 ∧
      (applyXffHeaders spoofed ⟨.v4 0xC0000201, 443⟩ oneHop).getAll xEnvoyExternalAddress =
        [str "6.6.6.6"] ∧
      (applyXffHeaders honest ⟨.v4 0xC0000201, 443⟩ oneHop).getAll xEnvoyExternalAddress =
        [str "1.2.3.4"] := by
  refine ⟨⟨[.v4 0x01020304],rfl,?_,?_⟩,?_,?_,?_,?_⟩ <;> decide

end

/-- The entries of a list, of which the empty ones do not count. -/
def entries (xff : Str) : List Str :=
  (xff.splitOn comma).filterMap (Option.guard (fun entry => !entry.isEmpty) ∘ trim)

/-- All lines as one. -/
def joined (headers : HeaderMap) : Str := [comma].intercalate (lines headers)

lemma entries_appendHopToXff (xff : Option Str) (ip : IpAddr) :
    entries (appendHopToXff xff ip) = entries (xff.getD [])++[display ip] := by
  have hip : ∀ s, trim s = display ip → comma ∉ s → entries s = [display ip] := by
    intro s ht hs
    have hne : display ip ≠ [] := fun h =>
      some_ne_none ip ((parse_display ip).symm.trans (h ▸ rfl))
    simp [entries,splitOn_eq_singleton hs,ht,hne]
  have hd := hip _ (trim_display ip) (comma_notMem_display ip)
  cases xff with
  | none => exact hd
  | some xff =>
    by_cases hx : xff = []
    · subst hx
      exact hd
    · have hb := hip (32::display ip) ((trim_cons_blank rfl).trans (trim_display ip))
        (by simpa using ⟨by decide,comma_notMem_display ip⟩)
      rw [appendHopToXff,if_neg hx,append_assoc,← hb]
      simp only [entries]
      rw [← filterMap_append,← splitOn_append_cons_self]
      rfl

lemma lines_applyXffHeaders (headers : HeaderMap) (d : SocketAddr) (n : ℕ) :
    lines (applyXffHeaders headers d { useRemoteAddress := true, xffNumTrustedHops := n }) =
      [appendHopToXff (existingXff headers) d.ip] := by
  have hex : existingXff (withoutClaims headers d) = existingXff headers := by
    rw [existingXff_eq,lines_withoutClaims,← existingXff_eq]
  have hv : fromStr (appendHopToXff (existingXff headers) d.ip) =
      some (appendHopToXff (existingXff headers) d.ip) := by
    cases he : existingXff headers with
    | none => exact fromStr_display d.ip
    | some xff =>
      rw [appendHopToXff]
      split_ifs
      · exact fromStr_display d.ip
      · obtain ⟨l,-,hl⟩ := bind_eq_some_iff.mp he
        have hx := fromStr_of_toStr hl
        have hd := fromStr_display d.ip
        simp only [fromStr,ite_none_right_eq_some,all_append,and_true] at hx hd ⊢
        rw [hx,hd]
        rfl
  rw [lines,applyXffHeaders,if_neg (by simp),getAll_setInternal _ _ (by decide),
    getAll_insertTextIf _ (by decide),if_pos (by simp),hex,insertText,hv,getAll_insert_self]

/-- The hop is appended to the incoming list exactly if the list stands in the first
line, and that can be read. -/
theorem appended_iff (headers : HeaderMap) (d : SocketAddr) (n : ℕ) :
    entries (joined (applyXffHeaders headers d
        { useRemoteAddress := true, xffNumTrustedHops := n })) =
      entries (joined headers) ++ [display d.ip] ↔
    (∀ line ∈ (lines headers).tail, entries line = []) ∧
      ∀ line ∈ (lines headers).head?, toStr line = none → entries line = [] := by
  have hj : ∀ h, entries (joined h) = (lines h).flatMap entries := fun h =>
    fields_intercalate rfl _
  rw [hj,hj,lines_applyXffHeaders,flatMap_singleton,entries_appendHopToXff,
    append_left_inj,existingXff_eq]
  cases lines headers with
  | nil => exact iff_of_true rfl (by simp)
  | cons l ls =>
    rw [flatMap_cons,head?_cons,bind_some]
    cases hl : toStr l with
    | none =>
      change [] = _ ↔ _
      rw [eq_comm,and_comm]
      simp [hl]
    | some t =>
      obtain ⟨rfl,-⟩ := toStr_eq_some_iff.mp hl
      simp [hl]

theorem further_line_lost :
    entries (joined spoofed) = [str "6.6.6.6", str "1.2.3.4"] ∧
      entries (joined (applyXffHeaders spoofed ⟨.v4 0xC0000201, 443⟩ { useRemoteAddress := true }))
        = [str "6.6.6.6", str "192.0.2.1"] := by
  decide

end ArionGateway.ForwardedFor
