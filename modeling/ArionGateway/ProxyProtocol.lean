import ArionGateway.FallibleSteps
import ArionGateway.RewindableStreams
import Mathlib.Data.List.GetD

/-!
# Reading PROXY protocol headers

The reader reads five bytes to recognise version 1, whose header it then reads byte by byte up to
the terminator, and otherwise as many bytes as the shortest header of version 2 has, which
announces its own length. A stream without a header is rewound, if it is allowed at all; behind a
header, the stream goes on.

The parser of headers is a parameter: what it finds depends on the header alone. Reads return at
any sizes the stream chooses, until the stream ends.
-/
namespace ArionGateway.ProxyProtocol
open ByteStreams ByteStrings RewindableStreams FallibleSteps
open RewindableHeadAsyncStream (began_new began_read bytes_intoStream reader)
open List

inductive ProxyProtocolVersion where
  | v1
  | v2
  deriving DecidableEq

inductive TlvType where
  | custom (kind : UInt8)
  | noOp
  deriving DecidableEq

inductive PassTlvMatchType where
  | includeAll
  | includeListed
  deriving DecidableEq

structure ProxyProtocolPassThroughTlvs where
  matchType : PassTlvMatchType
  tlvTypes : List TlvType
  deriving DecidableEq

structure DownstreamProxyProtocolConfig where
  allowRequestsWithoutProxyProtocol : Bool := false
  disallowedVersions : List ProxyProtocolVersion := []
  passThroughTlvs : Option ProxyProtocolPassThroughTlvs := none
  deriving DecidableEq

inductive ProxyProtocolError where
  | io
  | policyRejected (msg : String)
  | invalidHeader (msg : String)
  | unsupportedAddress (msg : String)
  deriving DecidableEq

inductive Protocol where
  | unspecified
  | stream
  | datagram
  deriving DecidableEq

inductive DownstreamConnectionMetadata (Addr : Type) where
  | fromSocket (peerAddress localAddress : Addr)
  | fromProxyProtocol (originalPeerAddress originalDestinationAddress : Addr)
      (protocol : Protocol) (tlvData : TlvType → Option Str)
      (proxyPeerAddress proxyLocalAddress : Addr)

inductive AddressesV1 (Addr : Type) where
  | tcp4 (source destination : Addr)
  | tcp6 (source destination : Addr)
  | unknown

inductive AddressesV2 (Addr : Type) where
  | ipv4 (source destination : Addr)
  | ipv6 (source destination : Addr)
  | unix (text : String)
  | unspecified

/-- A header of version 2, with those of its TLVs that can be read. -/
structure HeaderV2 (Addr : Type) where
  addresses : AddressesV2 Addr
  protocol : Protocol
  tlvs : List (UInt8 × Str)

/-- What the parser returns, with the text of its errors. -/
inductive HeaderResult (Addr : Type) where
  | v1 (result : Except String (AddressesV1 Addr))
  | v2 (result : Except String (HeaderV2 Addr))

def v1PrefixLen : ℕ := 5
def v1MaxLength : ℕ := 107
def v1Terminator : Str := [13,10]
def v2PrefixLen : ℕ := 12
def v2MinimumLen : ℕ := 16
def v2LengthIndex : ℕ := 14
def readBufferLen : ℕ := 512

def v1Signature : Str := [80,82,79,88,89]

def v2Signature : Str := [13,10,13,10,0,13,10,81,85,73,84,10]

inductive DetectedHeader where
  | v1
  | v2 (extraBuffer : Option Str)
  | none
  deriving DecidableEq

inductive PolicyAction where
  | proceed
  | reject (msg : String)
  | transparentPassthrough
  deriving DecidableEq

/-- What the parser is given of a detected header. -/
def DetectedHeader.bufferedData (self : DetectedHeader) (buffer : Str) : Str :=
  match self with
  | .v2 (some extraBuffer) => extraBuffer
  | _ => buffer

/-- Bytes written into a buffer from position `i` on. -/
def writeAt (buffer : Str) (i : ℕ) (bytes : Str) : Str :=
  buffer.take i++bytes++buffer.drop (i+bytes.length)

variable {σ : Type} (r : Reader UInt8 σ)

def readExact (stream : σ) (n : ℕ) : Except ProxyProtocolError (Str × σ) :=
  (r.readExact stream n).elim (.error .io) .ok

/-- The loop that reads a header of version 1, from position `i` for at most
`remaining` bytes, with whether it has found the terminator. -/
def readV1Loop : (remaining i : ℕ) → Str → σ → Except ProxyProtocolError (Bool × Str × σ)
  | 0, _, buffer, stream => .ok (false, buffer, stream)
  | remaining+1, i, buffer, stream => do
      let (byte, stream) ← readExact r stream 1
      let buffer := writeAt buffer i byte
      if (buffer.drop (i - 1)).take 2 = v1Terminator then .ok (true, buffer, stream)
      else readV1Loop remaining (i+1) buffer stream

def readHeaderBytes (stream : σ) : Except ProxyProtocolError (DetectedHeader × Str × σ) := do
  let buffer := replicate readBufferLen 0
  let (initial, stream) ← readExact r stream v1PrefixLen
  let buffer := writeAt buffer 0 initial
  if buffer.take v1PrefixLen = v1Signature then
    let (endFound, buffer, stream) ←
      readV1Loop r (min v1MaxLength readBufferLen - v1PrefixLen) v1PrefixLen buffer stream
    if endFound then .ok (.v1, buffer, stream)
    else .error (.invalidHeader "Invalid V1 header: terminator not found or header too long")
  else
    let (rest, stream) ← readExact r stream (v2MinimumLen - v1PrefixLen)
    let buffer := writeAt buffer v1PrefixLen rest
    if buffer.take v2PrefixLen = v2Signature then
      let length := (buffer.getD v2LengthIndex 0).toNat*256 +
        (buffer.getD (v2LengthIndex+1) 0).toNat
      let fullLength := v2MinimumLen+length
      if readBufferLen < fullLength then
        let (tail, stream) ← readExact r stream (fullLength - v2MinimumLen)
        .ok (.v2 (some (buffer.take v2MinimumLen++tail)), buffer, stream)
      else
        let (tail, stream) ← readExact r stream (fullLength - v2MinimumLen)
        .ok (.v2 none, writeAt buffer v2MinimumLen tail, stream)
    else .ok (.none, buffer, stream)

variable {Addr : Type} [ToString Addr] (config : DownstreamProxyProtocolConfig)

def shouldReject (version : ProxyProtocolVersion) : Bool :=
  config.disallowedVersions.contains version && !config.allowRequestsWithoutProxyProtocol

def shouldAllowTransparentPassthrough (version : ProxyProtocolVersion) : Bool :=
  config.disallowedVersions.contains version && config.allowRequestsWithoutProxyProtocol

def shouldRejectV1 : Bool := shouldReject config .v1
def shouldAllowV1TransparentPassthrough : Bool := shouldAllowTransparentPassthrough config .v1
def shouldRejectV2 : Bool := shouldReject config .v2
def shouldAllowV2TransparentPassthrough : Bool := shouldAllowTransparentPassthrough config .v2

def applyPolicy (detectedHeader : DetectedHeader) (peerAddress : Addr) : PolicyAction :=
  match detectedHeader with
  | .v1 =>
    if shouldRejectV1 config then
      .reject ("Proxy protocol V1 is disallowed for peer " ++ toString peerAddress)
    else if shouldAllowV1TransparentPassthrough config then .transparentPassthrough
    else .proceed
  | .v2 _ =>
    if shouldRejectV2 config then
      .reject ("Proxy protocol V2 is disallowed for peer " ++ toString peerAddress)
    else if shouldAllowV2TransparentPassthrough config then .transparentPassthrough
    else .proceed
  | .none =>
    if config.allowRequestsWithoutProxyProtocol then .transparentPassthrough
    else
      .reject ("Connection has been configured with proxy protocol enabled, but no valid proxy " ++
        "protocol header detected from peer " ++ toString peerAddress)

def tlvType (kind : UInt8) : TlvType := if kind = 0 then .noOp else .custom kind

def ProxyProtocolPassThroughTlvs.shouldPassThrough (self : ProxyProtocolPassThroughTlvs)
    (tlv : TlvType) : Bool :=
  match self.matchType with
  | .includeAll => true
  | .includeListed => self.tlvTypes.contains tlv

/-- The TLVs that are passed through; a later one replaces an earlier one of its type. -/
def collectTlvs (passThroughTlvs : Option ProxyProtocolPassThroughTlvs)
    (tlvs : List (UInt8 × Str)) : TlvType → Option Str :=
  match passThroughTlvs with
  | none => fun _ => none
  | some passThrough =>
    tlvs.foldl (fun data tlv =>
      if passThrough.shouldPassThrough (tlvType tlv.1) then
        fun t => if t = tlvType tlv.1 then some tlv.2 else data t
      else data) fun _ => none

def extractMetadata (parsedHeader : HeaderResult Addr) (peerAddress localAddress : Addr) :
    Except ProxyProtocolError (DownstreamConnectionMetadata Addr) :=
  match parsedHeader with
  | .v1 (.ok (.tcp4 source destination)) | .v1 (.ok (.tcp6 source destination)) =>
    .ok (.fromProxyProtocol source destination .stream (fun _ => none) peerAddress localAddress)
  | .v1 (.ok .unknown) => .ok (.fromSocket peerAddress localAddress)
  | .v1 (.error error) =>
    .error (.invalidHeader
      ("Detected, but failed to parse proxy protocol V1 header: " ++ error))
  | .v2 (.ok header) =>
    match header.addresses with
    | .ipv4 source destination | .ipv6 source destination =>
      .ok (.fromProxyProtocol source destination header.protocol
        (collectTlvs config.passThroughTlvs header.tlvs) peerAddress localAddress)
    | .unix text =>
      .error (.unsupportedAddress ("Unix socket addresses are not supported: " ++ text))
    | .unspecified => .ok (.fromSocket peerAddress localAddress)
  | .v2 (.error error) =>
    .error (.invalidHeader
      ("Detected, but failed to parse proxy protocol V2 header: " ++ error))

def padded (bytes : Str) : Str := bytes++replicate (readBufferLen - bytes.length) 0

variable {bytes : Str}

lemma writeAt_padded {d : Str} :
    writeAt (padded d) d.length bytes = padded (d++bytes) := by
  rw [writeAt,padded,padded,take_left,drop_append,drop_of_length_le (by omega),
    nil_append,drop_replicate,length_append]
  congr 2
  omega

lemma write_front : writeAt (replicate readBufferLen 0) 0 bytes = padded bytes := by
  have hw : writeAt (padded []) ([] : Str).length bytes = padded bytes := writeAt_padded
  exact hw

lemma take_padded {n : ℕ} (h : n ≤ bytes.length) : (padded bytes).take n = bytes.take n :=
  take_append_of_le_length h

lemma getD_padded {i : ℕ} (h : i < bytes.length) : (padded bytes).getD i 0 = bytes.getD i 0 := by
  rw [getD_eq_getElem?_getD,getD_eq_getElem?_getD,padded,getElem?_append_left h]

lemma terminator_at_end {d : Str} (hd : d ≠ []) (b : UInt8) :
    ((padded (d++[b])).drop (d.length - 1)).take 2 = v1Terminator ↔ v1Terminator <:+ d++[b] := by
  obtain ⟨i,a,rfl⟩ := (eq_nil_or_concat d).resolve_left hd
  have hp : i++[a]++[b] = i++[a,b] := append_assoc ..
  have hlen : (i++[a]).length - 1 = i.length := by
    rw [length_append,length_singleton,Nat.add_sub_cancel]
  rw [concat_eq_append,hp,hlen,padded,append_assoc,drop_left,suffix_iff_eq_drop,length_append]
  change [a,b] = v1Terminator ↔ v1Terminator = (i++[a,b]).drop (i.length+2 - 2)
  rw [Nat.add_sub_cancel,drop_left]
  exact eq_comm

/-- A header of version 1: the first terminator ends it. -/
structure FramedV1 (header : Str) : Prop where
  signature : v1Signature <+: header
  length_le : header.length ≤ v1MaxLength
  terminated : v1Terminator <:+ header
  first : ∀ front, front <+: header → front ≠ header → ¬ v1Terminator <:+ front

/-- A header of version 2, with the length it announces. -/
structure FramedV2 (header : Str) : Prop where
  signature : v2Signature <+: header
  minimum_le : v2MinimumLen ≤ header.length
  length_eq : header.length = v2MinimumLen+((header.getD v2LengthIndex 0).toNat*256 +
    (header.getD (v2LengthIndex+1) 0).toNat)

variable {σ : Type} {r : Reader UInt8 σ} {P : σ → Prop} {s : σ} {rest : Str}

lemma readExact_append (hP : ∀ s n, P s → P (r.read s n).2) {b : Str} (hs : P s)
    (h : r.bytes s = b++rest) :
    ∃ t, readExact r s b.length = .ok (b, t) ∧ r.bytes t = rest ∧ P t := by
  have hle : b.length ≤ (r.bytes s).length := by
    rw [h,length_append]
    exact Nat.le_add_right ..
  obtain ⟨t,hr,hb⟩ := Reader.readExact_of_le hle
  rw [h,take_left] at hr
  rw [h,drop_left] at hb
  refine ⟨t,?_,hb,Reader.fill_invariant hP hr hs⟩
  rw [readExact,hr]
  rfl

lemma readExact_short {n : ℕ} (h : (r.bytes s).length < n) : readExact r s n = .error .io := by
  rw [readExact,Reader.readExact_of_lt h]
  rfl

section

variable (hP : ∀ s n, P s → P (r.read s n).2)
include hP

lemma readV1Loop_of_framed (todo : Str) {d : Str} {re : ℕ} (hs : P s)
    (hb : r.bytes s = todo++rest) (hd : d ≠ []) (ht : todo ≠ [])
    (hr : todo.length ≤ re) (he : v1Terminator <:+ d++todo)
    (hf : ∀ f, f <+: todo → f ≠ [] → f ≠ todo → ¬ v1Terminator <:+ d++f) :
    ∃ t, readV1Loop r re d.length (padded d) s = .ok (true, padded (d++todo), t) ∧
      r.bytes t = rest ∧ P t := by
  induction todo generalizing d s re with
  | nil => exact absurd rfl ht
  | cons b todo ih =>
    cases re with
    | zero => exact absurd hr (Nat.not_succ_le_zero _)
    | succ re =>
      have hb : r.bytes s = [b]++(todo++rest) := hb
      obtain ⟨u,hre,hb',hu⟩ := readExact_append hP hs hb
      have hre : readExact r s 1 = .ok ([b], u) := hre
      have hsp : d++b::todo = d++[b]++todo := by
        rw [append_assoc,singleton_append]
      rw [hsp] at he ⊢
      rw [readV1Loop,hre]
      dsimp only [bind,Except.bind]
      rw [writeAt_padded]
      by_cases hni : todo = []
      · rw [hni,append_nil] at he ⊢
        rw [if_pos ((terminator_at_end hd b).mpr he)]
        exact ⟨u,rfl,by rw [hb',hni,nil_append],hu⟩
      · have hno : ¬ v1Terminator <:+ d++[b] := by
          refine hf [b] ⟨todo,rfl⟩ (cons_ne_nil _ _) ?_
          intro heq
          exact hni (cons.inj heq).2.symm
        rw [if_neg (mt (terminator_at_end hd b).mp hno)]
        have hn := ih hu hb' (append_ne_nil_of_right_ne_nil d
          (cons_ne_nil b [])) hni (Nat.le_of_succ_le_succ hr) he ?_
        · rw [length_append] at hn
          exact hn
        · intro f hfr hne hn'
          rw [append_assoc]
          refine hf (b::f) (cons_prefix_cons.mpr ⟨rfl,hfr⟩) (cons_ne_nil _ _) ?_
          intro heq
          exact hn' (cons.inj heq).2

lemma readHeaderBytes_of_framedV1 {header : Str} (hf : FramedV1 header) (hs : P s)
    (hb : r.bytes s = header++rest) :
    ∃ t, readHeaderBytes r s = .ok (.v1, padded header, t) ∧ r.bytes t = rest ∧ P t := by
  obtain ⟨⟨todo,rfl⟩,hlen,he,hfi⟩ := hf
  rw [append_assoc] at hb
  obtain ⟨u,hr,hb',hu⟩ := readExact_append hP hs hb
  have hto : todo ≠ [] := by
    intro hn
    rw [hn] at he
    exact absurd he (by decide)
  have hre : todo.length ≤ min v1MaxLength readBufferLen - v1PrefixLen := by
    rw [length_append] at hlen
    exact Nat.le_sub_of_add_le' hlen
  obtain ⟨t,hl,hrs,ht⟩ := readV1Loop_of_framed hP todo hu hb' (by decide) hto hre he (by
      intro front hfr _ hne
      exact hfi _ ((prefix_append_right_inj _).mpr hfr)
        fun heq => hne (append_cancel_left heq))
  refine ⟨t,?_,hrs,ht⟩
  have hr : readExact r s v1PrefixLen = .ok (v1Signature, u) := hr
  have hl : readV1Loop r (min v1MaxLength readBufferLen - v1PrefixLen) v1PrefixLen
    (padded v1Signature) u = .ok (true, padded (v1Signature++todo), t) := hl
  rw [readHeaderBytes,hr]
  dsimp only [bind,Except.bind]
  rw [write_front,hl]
  rfl

lemma readHeaderBytes_of_not_v1 {front : Str} (hs : P s) (hb : r.bytes s = front++rest)
    (hlen : front.length = v2MinimumLen) (hn : ¬ v1Signature <+: front) :
    ∃ t, r.bytes t = rest ∧ P t ∧ readHeaderBytes r s = if front.take v2PrefixLen = v2Signature then
        let fullLength := v2MinimumLen+((front.getD v2LengthIndex 0).toNat*256 +
          (front.getD (v2LengthIndex+1) 0).toNat)
        if readBufferLen < fullLength then do
          let (tail, stream) ← readExact r t (fullLength - v2MinimumLen)
          .ok (.v2 (some (front++tail)), padded front, stream)
        else do
          let (tail, stream) ← readExact r t (fullLength - v2MinimumLen)
          .ok (.v2 none, writeAt (padded front) v2MinimumLen tail, stream)
      else .ok (.none, padded front, t) := by
  rw [← take_append_drop v1PrefixLen front,append_assoc] at hb
  set initial := front.take v1PrefixLen with hi
  set second := front.drop v1PrefixLen with hse
  have hf : initial++second = front := take_append_drop ..
  have hinitial_len : initial.length = v1PrefixLen := by
    rw [length_take,hlen]
    rfl
  have hsecond_len : second.length = v2MinimumLen - v1PrefixLen := by
    rw [length_drop,hlen]
  obtain ⟨u,hre,hb',hu⟩ := readExact_append hP hs hb
  obtain ⟨t,hr,hrs,ht⟩ := readExact_append hP hu hb'
  refine ⟨t,hrs,ht,?_⟩
  rw [hinitial_len] at hre
  rw [hsecond_len] at hr
  have hne : initial ≠ v1Signature := by
    intro heq
    exact hn ⟨second,heq ▸ hf⟩
  rw [readHeaderBytes,hre]
  dsimp only [bind,Except.bind]
  rw [write_front,take_padded hinitial_len.ge,take_of_length_le hinitial_len.le,if_neg hne,hr]
  dsimp only
  rw [← hinitial_len,writeAt_padded,hf,
    take_padded (hlen ▸ by decide),getD_padded (hlen ▸ by decide),getD_padded (hlen ▸ by decide),
    take_padded hlen.ge,take_of_length_le hlen.le]

end

lemma exists_front {b : Str} (hlen : v2MinimumLen ≤ b.length) :
    ∃ f rest, b = f++rest ∧ f.length = v2MinimumLen :=
  ⟨b.take v2MinimumLen,b.drop v2MinimumLen,(take_append_drop ..).symm,length_take_of_le hlen⟩

lemma v2Signature_prefix_iff {f : Str} (hlen : f.length = v2MinimumLen) (re : Str) :
    v2Signature <+: f++re ↔ f.take v2PrefixLen = v2Signature := by
  rw [prefix_iff_eq_take,take_append_of_le_length (hlen ▸ by decide)]
  exact eq_comm

lemma readHeaderBytes_of_no_signature (hP : ∀ s n, P s → P (r.read s n).2) (hs : P s)
    (hlen : v2MinimumLen ≤ (r.bytes s).length) (hv1 : ¬ v1Signature <+: r.bytes s)
    (hv2 : ¬ v2Signature <+: r.bytes s) :
    ∃ buffer t, readHeaderBytes r s = .ok (.none, buffer, t) ∧ P t := by
  obtain ⟨f,rest,hb,hf⟩ := exists_front hlen
  rw [hb] at hv1 hv2
  obtain ⟨t,-,ht,hr⟩ := readHeaderBytes_of_not_v1 hP hs hb hf
    fun hsi => hv1 (hsi.trans (prefix_append ..))
  rw [if_neg (mt (v2Signature_prefix_iff hf rest).mpr hv2)] at hr
  exact ⟨padded f,t,hr,ht⟩

lemma readHeaderBytes_of_short (hlen : (r.bytes s).length < v2MinimumLen)
    (hv1 : ¬ v1Signature <+: r.bytes s) : readHeaderBytes r s = .error .io := by
  rw [readHeaderBytes]
  by_cases hv : (r.bytes s).length < v1PrefixLen
  · rw [readExact_short hv]
    rfl
  · have hle : v1PrefixLen ≤ (r.bytes s).length := Nat.le_of_not_lt hv
    have hi : ((r.bytes s).take v1PrefixLen).length = v1PrefixLen := length_take_of_le hle
    obtain ⟨u,hr,hb,-⟩ := readExact_append (P := fun _ => True) (fun _ _ _ => trivial)
      trivial (take_append_drop v1PrefixLen (r.bytes s)).symm
    rw [hi] at hr
    have hne : (r.bytes s).take v1PrefixLen ≠ v1Signature := by
      intro heq
      exact hv1 (heq ▸ take_prefix ..)
    have hsh : (r.bytes u).length < v2MinimumLen - v1PrefixLen := by
      rw [hb,length_drop]
      omega
    rw [hr]
    dsimp only [bind,Except.bind]
    rw [write_front,take_padded hi.ge,take_of_length_le hi.le,if_neg hne,readExact_short hsh]

lemma readHeaderBytes_of_framedV2 (hP : ∀ s n, P s → P (r.read s n).2) {header : Str}
    (hfr : FramedV2 header) (hs : P s) (hb : r.bytes s = header++rest) :
    ∃ e buffer z t, readHeaderBytes r s = .ok (.v2 e, buffer, t) ∧
      (DetectedHeader.v2 e).bufferedData buffer = header++z ∧ r.bytes t = rest ∧ P t := by
  obtain ⟨hsi,hm,hlen⟩ := hfr
  obtain ⟨front,tail,rfl,hf⟩ := exists_front hm
  rw [v2Signature_prefix_iff hf] at hsi
  have hv1 : ¬ v1Signature <+: front := by
    intro hv1
    have hbo : v2Signature.take v1PrefixLen = v1Signature := by
      rw [← hsi,take_take,prefix_iff_eq_take.mp hv1]
      rfl
    exact nomatch hbo
  rw [append_assoc] at hb
  obtain ⟨t,hrs,ht,hr⟩ := readHeaderBytes_of_not_v1 hP hs hb hf hv1
  rw [getD_append _ _ _ _ (hf ▸ by decide),getD_append _ _ _ _ (hf ▸ by decide),
    length_append] at hlen
  have hta : v2MinimumLen+((front.getD v2LengthIndex 0).toNat*256 +
      (front.getD (v2LengthIndex+1) 0).toNat) - v2MinimumLen = tail.length := by
    omega
  obtain ⟨u,hre,hr',hu⟩ := readExact_append hP ht hrs
  dsimp only at hr
  rw [hta,hre] at hr
  split_ifs at hr with hl
  · refine ⟨some (front++tail),padded front,[],u,hr,?_,hr',hu⟩
    rw [append_nil]
    rfl
  · refine ⟨none,_,replicate (readBufferLen - (front++tail).length) 0,u,hr,?_,hr',hu⟩
    rw [← hf]
    exact writeAt_padded

variable {R Addr : Type} [ToString Addr] {version : ProxyProtocolVersion}

inductive AsyncInstrumentedStream (R : Type) where
  | inner (stream : R)
  | rewound (stream : RewindableHeadAsyncStream R)

def AsyncInstrumentedStream.Yields (r : Reader UInt8 R) (bytes : Str) :
    AsyncInstrumentedStream R → Prop
  | .inner stream => r.Yields stream bytes
  | .rewound stream => (reader r).Yields stream bytes

def tryReadProxyHeader (r : Reader UInt8 R) (parse : Str → HeaderResult Addr)
    (config : DownstreamProxyProtocolConfig) (stream : R) (localAddress peerAddress : Addr) :
    Except ProxyProtocolError (DownstreamConnectionMetadata Addr × AsyncInstrumentedStream R) := do
  let (maybeHeader, buffer, stream) ←
    readHeaderBytes (reader r) (.new stream)
  match applyPolicy config maybeHeader peerAddress with
  | .reject msg => .error (.policyRejected msg)
  | .transparentPassthrough =>
    .ok (.fromSocket peerAddress localAddress, .rewound stream.intoRewoundStream)
  | .proceed =>
    let metadata ← extractMetadata config (parse (maybeHeader.bufferedData buffer)) peerAddress
      localAddress
    .ok (metadata, .inner stream.intoStream)

/-- A parser of headers that reads nothing behind the header at the front. -/
structure HeaderParser (Addr : Type) where
  parse : Str → HeaderResult Addr
  parse_append : ∀ header rest, FramedV1 header ∨ FramedV2 header →
    parse (header++rest) = parse header

/-- A header that is complete and that the parser accepts. -/
def HeaderParser.WellFormed (parser : HeaderParser Addr) (header : Str) :
    ProxyProtocolVersion → Prop
  | .v1 => FramedV1 header ∧ ∃ addresses, parser.parse header = .v1 (.ok addresses)
  | .v2 => FramedV2 header ∧ ∃ parsed, parser.parse header = .v2 (.ok parsed)

def HeaderResult.HasUnixAddresses : HeaderResult Addr → Prop
  | .v2 (.ok header) => ∃ text, header.addresses = .unix text
  | _ => False

variable {r : Reader UInt8 R} (parser : HeaderParser Addr) {config : DownstreamProxyProtocolConfig}
  {stream : R} (localAddress peerAddress : Addr)

lemma policy_of_allowed (h : version ∉ config.disallowedVersions) :
    shouldReject config version = false ∧
      shouldAllowTransparentPassthrough config version = false := by
  have hc : config.disallowedVersions.contains version = false := by
    rw [← Bool.not_eq_true,contains_iff_mem]
    exact h
  rw [shouldReject,shouldAllowTransparentPassthrough,hc]
  exact ⟨rfl,rfl⟩

omit [ToString Addr] in
lemma extractMetadata_isOk_iff {p : HeaderResult Addr}
    (hp : (∃ a, p = .v1 (.ok a)) ∨ ∃ h, p = .v2 (.ok h)) :
    (extractMetadata config p peerAddress localAddress).isOk = true ↔ ¬ p.HasUnixAddresses := by
  rcases hp with ⟨a,rfl⟩ | ⟨⟨a,protocol,t⟩,rfl⟩
  · cases a <;> simp [extractMetadata,HeaderResult.HasUnixAddresses,Except.toBool]
  · cases a <;> simp [extractMetadata,HeaderResult.HasUnixAddresses,Except.toBool]

lemma tryReadProxyHeader_of_no_signature (ha : config.allowRequestsWithoutProxyProtocol = true)
    (hv1 : ¬ v1Signature <+: r.bytes stream) (hv2 : ¬ v2Signature <+: r.bytes stream)
    (hlen : v2MinimumLen ≤ (r.bytes stream).length) :
    ∃ s, s.Yields r (r.bytes stream) ∧
      tryReadProxyHeader r parser.parse config stream localAddress peerAddress =
        .ok (.fromSocket peerAddress localAddress, s) := by
  obtain ⟨b,t,hr,hb⟩ := readHeaderBytes_of_no_signature (r := reader r)
    (began_read)
    (began_new (r := r) stream) hlen hv1 hv2
  refine ⟨.rewound t.intoRewoundStream,?_,?_⟩
  · exact Reader.yields_iff.mpr (RewindableHeadAsyncStream.bytes_intoRewoundStream hb)
  · rw [tryReadProxyHeader,hr]
    dsimp only [bind,Except.bind]
    rw [applyPolicy,if_pos ha]

lemma tryReadProxyHeader_of_short (hv1 : ¬ v1Signature <+: r.bytes stream)
    (hlen : (r.bytes stream).length < v2MinimumLen) :
    tryReadProxyHeader r parser.parse config stream localAddress peerAddress = .error .io := by
  have hr : readHeaderBytes (reader r) (.new stream) = .error .io :=
    readHeaderBytes_of_short hlen hv1
  rw [tryReadProxyHeader,hr]
  rfl

lemma tryReadProxyHeader_of_header {header re : Str} (hby : r.bytes stream = header++re)
    (hf : parser.WellFormed header version) (ha : version ∉ config.disallowedVersions) :
    ∃ s, r.Yields s re ∧ tryReadProxyHeader r parser.parse config stream localAddress peerAddress =
        (extractMetadata config (parser.parse header) peerAddress localAddress).map (·, .inner s) := by
  obtain ⟨hrj,hp⟩ := policy_of_allowed ha
  have hr : ∃ d buffer zeros t, readHeaderBytes (reader r) (.new stream) = .ok (d, buffer, t) ∧
      applyPolicy config d peerAddress = .proceed ∧
      d.bufferedData buffer = header++zeros ∧ t.bytes r = re ∧ t.Began r (r.bytes stream) := by
    cases version with
    | v1 =>
      obtain ⟨t,hr,hre,hb⟩ := readHeaderBytes_of_framedV1 (r := reader r)
        (began_read) hf.1
        (began_new (r := r) stream) hby
      refine ⟨_,_,_,t,hr,?_,rfl,hre,hb⟩
      rw [applyPolicy,shouldRejectV1,hrj,shouldAllowV1TransparentPassthrough,hp]
      rfl
    | v2 =>
      obtain ⟨e,buffer,zeros,t,hr,hd,hre,hb⟩ := readHeaderBytes_of_framedV2 (r := reader r)
        (began_read) hf.1
        (began_new (r := r) stream) hby
      refine ⟨_,_,zeros,t,hr,?_,hd,hre,hb⟩
      rw [applyPolicy,shouldRejectV2,hrj,shouldAllowV2TransparentPassthrough,hp]
      rfl
  obtain ⟨d,buffer,zeros,t,hr,hpo,hd,hre,hb⟩ := hr
  have hpa : parser.parse (header++zeros) = parser.parse header := by
    refine parser.parse_append header zeros ?_
    cases version with
    | v1 => exact .inl hf.1
    | v2 => exact .inr hf.1
  refine ⟨t.intoStream,?_,?_⟩
  · rw [Reader.yields_iff,bytes_intoStream hb,hre]
  · rw [tryReadProxyHeader,hr]
    dsimp only [bind,Except.bind]
    rw [hpo,hd,hpa]
    cases extractMetadata config (parser.parse header) peerAddress localAddress <;> rfl

/-- Streams keep their bytes. A stream without a signature is handed on from its
beginning exactly when it has as many bytes as the shortest header of version 2,
where this is allowed. Behind a well-formed header of a version that is not
disallowed the stream goes on with the next byte, and such a header is refused
only for the addresses of a Unix socket. -/
theorem bytes_kept_iff (r : Reader UInt8 R) (parser : HeaderParser Addr)
    (config : DownstreamProxyProtocolConfig) (stream : R) (localAddress peerAddress : Addr) :
    (config.allowRequestsWithoutProxyProtocol = true → ¬ v1Signature <+: r.bytes stream →
      ¬ v2Signature <+: r.bytes stream →
        ((∃ s, tryReadProxyHeader r parser.parse config stream localAddress peerAddress =
            .ok (.fromSocket peerAddress localAddress, s) ∧ s.Yields r (r.bytes stream)) ↔
          v2MinimumLen ≤ (r.bytes stream).length)) ∧
    ∀ version header rest, r.bytes stream = header ++ rest → parser.WellFormed header version →
      version ∉ config.disallowedVersions →
        (∀ metadata s, tryReadProxyHeader r parser.parse config stream localAddress peerAddress =
          .ok (metadata, s) → s.Yields r rest) ∧
        ((tryReadProxyHeader r parser.parse config stream localAddress peerAddress).isOk = true ↔
          ¬ (parser.parse header).HasUnixAddresses) := by
  constructor
  · intro hal hv1 hv2
    constructor
    · rintro ⟨s,hok,-⟩
      by_contra hsh
      rw [tryReadProxyHeader_of_short parser localAddress peerAddress hv1 (Nat.lt_of_not_le hsh)] at hok
      cases hok
    · intro hlen
      obtain ⟨s,hy,hok⟩ := tryReadProxyHeader_of_no_signature parser localAddress
        peerAddress hal hv1 hv2 hlen
      exact ⟨s,hok,hy⟩
  · intro version header rest hb hf ha
    obtain ⟨s,hy,ht⟩ := tryReadProxyHeader_of_header parser localAddress peerAddress hb hf ha
    have hp : (∃ a, parser.parse header = .v1 (.ok a)) ∨
        ∃ p, parser.parse header = .v2 (.ok p) := by
      cases version with
      | v1 => exact .inl hf.2
      | v2 => exact .inr hf.2
    rw [ht]
    constructor
    · intro metadata s' hok
      obtain ⟨_,-,heq⟩ := map_eq_ok.mp hok
      cases heq
      exact hy
    · rw [← extractMetadata_isOk_iff localAddress peerAddress hp]
      cases extractMetadata config (parser.parse header) peerAddress localAddress <;> rfl

/-- A client that sends five bytes and closes the connection is refused although
requests without the PROXY protocol are allowed. -/
theorem short_stream_refused :
    ¬ v1Signature <+: chunkReader.bytes [str "hello"] ∧
      ¬ v2Signature <+: chunkReader.bytes [str "hello"] ∧
      tryReadProxyHeader chunkReader (fun _ => .v1 (.ok .unknown))
        { allowRequestsWithoutProxyProtocol := true } [str "hello"] "10.0.0.1:80" "10.0.0.2:4000" =
        .error .io := by
  refine ⟨by decide,by decide,rfl⟩

def addresslessParser : HeaderParser String where
  parse bytes :=
    if bytes.head? = some 80 then .v1 (.ok .unknown) else .v2 (.ok ⟨.unspecified,.unspecified,[]⟩)
  parse_append header rest h := by
    have hne : header ≠ [] := by
      rintro rfl
      rcases h with h | h
      · exact absurd h.signature (by decide)
      · exact absurd h.signature (by decide)
    rw [List.head?_append_of_ne_nil header hne]

lemma framedV1_unknown : FramedV1 (str "PROXY UNKNOWN\r\n") where
  signature := by decide
  length_le := by decide
  terminated := by decide
  first front hf := by
    rw [← mem_inits] at hf
    revert front
    decide

/-- Behind the shortest header of version 1 the request is read from its first byte. -/
theorem bytes_kept_behind_unknown :
    ∀ metadata s, tryReadProxyHeader chunkReader addresslessParser.parse {}
        [str "PROXY UNKN", str "OWN\r\nGET", str " /"] "10.0.0.1:80" "10.0.0.2:4000" =
      .ok (metadata, s) → s.Yields chunkReader (str "GET /") :=
  ((bytes_kept_iff chunkReader addresslessParser {}
    [str "PROXY UNKN",str "OWN\r\nGET",str " /"] "10.0.0.1:80" "10.0.0.2:4000").2 .v1
    (str "PROXY UNKNOWN\r\n") (str "GET /") (by decide)
    ⟨framedV1_unknown,.unknown,rfl⟩ (by decide)).1

end ArionGateway.ProxyProtocol
