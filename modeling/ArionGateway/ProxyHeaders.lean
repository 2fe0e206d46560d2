import ArionGateway.ProxyFormats

/-!
# Writing PROXY protocol headers

A header of version 2 carries records: the configured ones first, then those that came with the
downstream connection and pass the filter, in the order of a hash map. Read back, the header gives
the same addresses and ports, and for each type of record the value that was passed through, or
else the last configured one. Byte zero is always read as the type `NoOp`.
-/
namespace ArionGateway.ProxyHeaders
open ByteStreams ByteStrings AddressText FallibleSteps ProxyFormats ProxyProtocol TextEncodings List

structure TlvEntry where
  tlvType : TlvType
  value : Str
  deriving DecidableEq

structure ProxyProtocolConfigurator where
  version : ProxyProtocolVersion
  passThroughTlvs : Option ProxyProtocolPassThroughTlvs := none
  addedTlvs : List TlvEntry := []
  deriving DecidableEq

inductive HeaderError where
  | unsupportedAddress (msg : String)
  | buildHeader (msg : String)
  deriving DecidableEq

def toByte : TlvType → UInt8
  | .noOp => 0
  | .custom kind => kind

variable {A : Type}

def peerAddress : DownstreamConnectionMetadata A → A
  | .fromSocket peerAddress _ => peerAddress
  | .fromProxyProtocol originalPeerAddress _ _ _ _ _ => originalPeerAddress

def localAddress : DownstreamConnectionMetadata A → A
  | .fromSocket _ localAddress => localAddress
  | .fromProxyProtocol _ originalDestinationAddress _ _ _ _ => originalDestinationAddress

def tlvData : DownstreamConnectionMetadata A → TlvType → Option Str
  | .fromSocket _ _ => fun _ => none
  | .fromProxyProtocol _ _ _ tlvData _ _ => tlvData

/-- The entries of a map in some order. -/
structure Enumerates (entries : List (TlvType × Str)) (data : TlvType → Option Str) : Prop where
  nodup : (entries.map Prod.fst).Nodup
  mem_iff : ∀ tlvType value, (tlvType, value) ∈ entries ↔ data tlvType = some value

namespace ProxyProtocolConfigurator
variable (crate : PppCrate) (self : ProxyProtocolConfigurator)
  (metadata : DownstreamConnectionMetadata Endpoint)

def buildV1Header : Except HeaderError Str :=
  let source := peerAddress metadata
  let destination := localAddress metadata
  match source.ip, destination.ip with
  | .v4 sourceIp, .v4 destinationIp =>
    .ok (str "PROXY TCP4 " ++ displayV4 sourceIp++str " " ++ displayV4 destinationIp++str " " ++
      formatDecimal source.port++str " " ++ formatDecimal destination.port++str "\r\n")
  | .v6 sourceIp, .v6 destinationIp =>
    .ok (str "PROXY TCP6 " ++ displayV6 sourceIp++str " " ++ displayV6 destinationIp++str " " ++
      formatDecimal source.port++str " " ++ formatDecimal destination.port++str "\r\n")
  | _, _ =>
    .error (.unsupportedAddress "Mixed IPv4/IPv6 addresses not supported in proxy protocol v1")

variable (entries : List (TlvType × Str))

/-- The entries that came with the connection and pass the filter, in the order of
the map. -/
def passedThrough : List (TlvType × Str) :=
  match metadata, self.passThroughTlvs with
  | .fromProxyProtocol .., some passThrough =>
    entries.filter fun entry => passThrough.shouldPassThrough entry.1
  | _, _ => []

def writeTlvs (failure : String) (tlvs : List (TlvType × Str)) (builder : crate.Builder) :
    Except HeaderError crate.Builder :=
  tlvs.foldlM (fun builder tlv => (crate.writeTlv builder (toByte tlv.1) tlv.2).mapError
    fun e => .buildHeader (failure++e)) builder

def buildV2Header : Except HeaderError Str := do
  let builder := crate.withAddresses (peerAddress metadata) (localAddress metadata)
  let builder ← writeTlvs crate "Failed to add configured TLV: "
    (self.addedTlvs.map fun entry => (entry.tlvType, entry.value)) builder
  let builder ← writeTlvs crate "Failed to add pass-through TLV: "
    (self.passedThrough metadata entries) builder
  (crate.build builder).mapError fun e =>
    .buildHeader ("Failed to build proxy protocol v2 header: " ++ e)

/-- `build_proxy_header`, with the entries of the map of records in the order in
which the loop meets them. -/
def buildProxyHeader : Except HeaderError Str :=
  match self.version with
  | .v1 => buildV1Header metadata
  | .v2 => self.buildV2Header crate metadata entries

end ProxyProtocolConfigurator

open ProxyProtocolConfigurator (buildV1Header writeTlvs passedThrough buildProxyHeader)

variable {c : PppCrate} {self : ProxyProtocolConfigurator}
  {metadata : DownstreamConnectionMetadata Endpoint} {entries tlvs : List (TlvType × Str)}
  {b : c.Builder}

lemma buildV1Header_eq
    (hf : SameFamily (peerAddress metadata).ip (localAddress metadata).ip = true) :
    buildV1Header metadata = .ok (textHeader (peerAddress metadata) (localAddress metadata)) := by
  have hsp : str " " = [space] := by decide
  have he : str "\r\n" = v1Terminator := by decide
  have hfr : str "PROXY TCP4 " = v1Signature++[space]++str "TCP4" ++ [space] := by decide
  have hfn : str "PROXY TCP6 " = v1Signature++[space]++str "TCP6" ++ [space] := by decide
  unfold buildV1Header textHeader textLine textFields
  dsimp only
  rw [hsp,he,hfr,hfn]
  cases hso : (peerAddress metadata).ip with
  | v4 source =>
    cases hd : (localAddress metadata).ip with
    | v4 destination => simp [familyName,AddressText.display]
    | v6 destination => simp [hso,hd,SameFamily] at hf
  | v6 source =>
    cases hd : (localAddress metadata).ip with
    | v4 destination => simp [hso,hd,SameFamily] at hf
    | v6 destination => simp [familyName,AddressText.display]

variable (header : BinaryHeader)

/-- Records as they are written behind what a builder has been given. -/
def pushAll (tlvs : List (TlvType × Str)) : BinaryHeader :=
  { header with tlvs := header.tlvs++tlvs.map fun tlv => (toByte tlv.1, tlv.2) }

lemma pushAll_cons (tlv : TlvType × Str) (tlvs : List (TlvType × Str)) :
    pushAll header (tlv::tlvs) = pushAll (header.push (toByte tlv.1) tlv.2) tlvs := by
  simp [pushAll,BinaryHeader.push]

lemma pushAll_append (tl tlvs' : List (TlvType × Str)) :
    pushAll header (tl++tlvs') = pushAll (pushAll header tl) tlvs' := by
  simp [pushAll]

lemma fits_of_pushAll {header : BinaryHeader} (h : (pushAll header tlvs).Fits) : header.Fits := by
  induction tlvs generalizing header with
  | nil => simpa [pushAll] using h
  | cons tlv tlvs ih =>
    rw [pushAll_cons] at h
    have hf := ih h
    rw [BinaryHeader.Fits,BinaryHeader.payload_push,length_append] at hf
    exact lt_of_le_of_lt (Nat.le_add_right ..) hf

lemma contents_of_writeTlvs {f : String} {b' : c.Builder} (h : writeTlvs c f tlvs b = .ok b') :
    c.contents b' = pushAll (c.contents b) tlvs := by
  induction tlvs generalizing b with
  | nil =>
    obtain rfl := Except.ok.inj h
    simp [pushAll]
  | cons tlv tlvs ih =>
    obtain ⟨n,hw,hr⟩ := bind_eq_ok.mp h
    rw [ih hr,pushAll_cons,c.contents_writeTlv (mapError_eq_ok.mp hw)]

lemma exists_writeTlvs (f : String) (h : (pushAll (c.contents b) tlvs).Fits) :
    ∃ builder', writeTlvs c f tlvs b = .ok builder' := by
  induction tlvs generalizing b with
  | nil => exact ⟨b,rfl⟩
  | cons tlv tlvs ih =>
    rw [pushAll_cons] at h
    obtain ⟨n,hn⟩ := c.writeTlv_of_fits (fits_of_pushAll h)
    rw [← c.contents_writeTlv hn] at h
    obtain ⟨builder',hb⟩ := ih h
    refine ⟨builder',bind_eq_ok.mpr ⟨n,?_,hb⟩⟩
    exact mapError_eq_ok.mpr hn

def written (self : ProxyProtocolConfigurator) (metadata : DownstreamConnectionMetadata Endpoint)
    (entries : List (TlvType × Str)) : List (TlvType × Str) :=
  (self.addedTlvs.map fun entry => (entry.tlvType, entry.value)) ++
    self.passedThrough metadata entries

def binaryHeader (self : ProxyProtocolConfigurator)
    (metadata : DownstreamConnectionMetadata Endpoint) (entries : List (TlvType × Str)) :
    BinaryHeader :=
  pushAll ⟨peerAddress metadata,localAddress metadata,[]⟩ (written self metadata entries)

lemma buildV2Header_eq_ok {header : Str} :
    self.buildV2Header c metadata entries = .ok header ↔ (binaryHeader self metadata entries).Fits ∧
        header = (binaryHeader self metadata entries).bytes := by
  rw [binaryHeader,written,pushAll_append,← c.contents_withAddresses]
  constructor
  · intro h
    obtain ⟨f,hf,h⟩ := bind_eq_ok.mp h
    obtain ⟨s,hse,h⟩ := bind_eq_ok.mp h
    rw [← contents_of_writeTlvs hf,← contents_of_writeTlvs hse]
    exact c.build_eq_ok.mp (mapError_eq_ok.mp h)
  · rintro ⟨hfi,hb⟩
    obtain ⟨f,hf⟩ := exists_writeTlvs "Failed to add configured TLV: " (fits_of_pushAll hfi)
    rw [← contents_of_writeTlvs hf] at hfi hb
    obtain ⟨s,hse⟩ := exists_writeTlvs "Failed to add pass-through TLV: " hfi
    rw [← contents_of_writeTlvs hse] at hfi hb
    refine bind_eq_ok.mpr ⟨f,hf,bind_eq_ok.mpr ⟨s,hse,?_⟩⟩
    exact mapError_eq_ok.mpr (c.build_eq_ok.mpr ⟨hfi,hb⟩)

def PassesAll (config : DownstreamProxyProtocolConfig) : Prop :=
  ∃ passThrough, config.passThroughTlvs = some passThrough ∧
    ∀ kind, passThrough.shouldPassThrough (tlvType kind) = true

/-- The records that came with the connection and pass the filter. -/
def filtered (self : ProxyProtocolConfigurator) (metadata : DownstreamConnectionMetadata Endpoint)
    (t : TlvType) : Option Str :=
  match self.passThroughTlvs with
  | some passThrough => if passThrough.shouldPassThrough t then tlvData metadata t else none
  | none => none

def lastAdded (self : ProxyProtocolConfigurator) (t : TlvType) : Option Str :=
  (self.addedTlvs.map fun entry => (entry.tlvType, entry.value)).reverse.lookup t

/-- The last configured record whose type is a given byte on the wire. -/
def lastAddedAs (self : ProxyProtocolConfigurator) (kind : UInt8) : Option Str :=
  (self.addedTlvs.map fun entry => (toByte entry.tlvType, entry.value)).reverse.lookup kind

/-- The records read back: for each byte one that was passed through with this byte
as its type, or else the last configured one. -/
structure TlvsReadBack (configurator : ProxyProtocolConfigurator)
    (metadata : DownstreamConnectionMetadata Endpoint) (data : TlvType → Option Str) : Prop where
  custom_zero : data (.custom 0) = none
  byKind : ∀ kind, (∃ t value, toByte t = kind ∧ filtered configurator metadata t = some value ∧
      data (tlvType kind) = some value) ∨
    ((∀ t, toByte t = kind → filtered configurator metadata t = none) ∧
      data (tlvType kind) = lastAddedAs configurator kind)
  exact : (∀ entry ∈ configurator.addedTlvs, entry.tlvType ≠ .custom 0) →
    filtered configurator metadata (.custom 0) = none →
      data = fun t => (filtered configurator metadata t).or (lastAdded configurator t)

variable {crate : PppCrate} {t : TlvType}

lemma tlvType_toByte (ht : t ≠ .custom 0) : tlvType (toByte t) = t := by
  cases t with
  | noOp => rfl
  | custom k => exact if_neg fun h => ht (congrArg TlvType.custom h)

lemma toByte_tlvType (kind : UInt8) : toByte (tlvType kind) = kind := by
  rw [tlvType]
  split_ifs with h
  · exact h.symm
  · rfl

lemma tlvType_ne_custom_zero (k : UInt8) : tlvType k ≠ .custom 0 := by
  rw [tlvType]
  split_ifs with h
  · exact TlvType.noConfusion
  · exact fun heq => h (TlvType.custom.inj heq)

lemma collectTlvs_eq {p : ProxyProtocolPassThroughTlvs}
    (hp : ∀ k, p.shouldPassThrough (tlvType k) = true) (tl : List (UInt8 × Str)) (t : TlvType) :
    collectTlvs (some p) tl t = (tl.map fun tlv => (tlvType tlv.1, tlv.2)).reverse.lookup t := by
  induction tl using reverseRecOn with
  | nil => rfl
  | append_singleton tl tlv ih =>
    rw [collectTlvs] at ih ⊢
    rw [foldl_append,foldl_cons,foldl_nil,if_pos (hp _),map_append,
      reverse_append,map_singleton,reverse_singleton,singleton_append, lookup_cons,ih]
    by_cases ht : t = tlvType tlv.1
    · simp [ht]
    · rw [if_neg ht,beq_eq_false_iff_ne.mpr ht]

lemma mem_passedThrough (he : Enumerates entries (tlvData metadata)) {value : Str} :
    (t, value) ∈ self.passedThrough metadata entries ↔ filtered self metadata t = some value := by
  unfold passedThrough filtered
  cases hp : self.passThroughTlvs with
  | none => cases metadata <;> simp
  | some p =>
    cases metadata with
    | fromSocket => simp [tlvData]
    | fromProxyProtocol => simp [he.mem_iff,and_comm]

lemma lookup_map_fst {A B C : Type} [DecidableEq A] [DecidableEq B] {f : A → B} {k : A}
    {en : List (A × C)} (h : ∀ et ∈ en, f et.1 = f k → et.1 = k) :
    (en.map fun et => (f et.1, et.2)).lookup (f k) = en.lookup k := by
  induction en with
  | nil => rfl
  | cons et en ih =>
    have hr := ih fun e he => h e (mem_cons_of_mem _ he)
    rw [map_cons,lookup_cons,lookup_cons,hr]
    by_cases heq : k = et.1
    · simp [heq]
    · have hne : f k ≠ f et.1 := fun hf => heq (h et mem_cons_self hf.symm).symm
      rw [beq_eq_false_iff_ne.mpr heq,beq_eq_false_iff_ne.mpr hne]

def readBack (self : ProxyProtocolConfigurator) (metadata : DownstreamConnectionMetadata Endpoint)
    (entries : List (TlvType × Str)) (t : TlvType) : Option Str :=
  ((written self metadata entries).map fun entry => (tlvType (toByte entry.1), entry.2)).reverse.lookup t

lemma readBack_custom_zero : readBack self metadata entries (.custom 0) = none := by
  rw [readBack,lookup_eq_none_iff]
  intro et he
  obtain ⟨e',-,rfl⟩ := mem_map.mp (mem_reverse.mp he)
  exact bne_iff_ne.mpr (tlvType_ne_custom_zero _).symm

variable (self) in
lemma readBack_byKind (he : Enumerates entries (tlvData metadata)) (k : UInt8) :
    (∃ t va, toByte t = k ∧ filtered self metadata t = some va ∧
      readBack self metadata entries (tlvType k) = some va) ∨
    ((∀ t, toByte t = k → filtered self metadata t = none) ∧
      readBack self metadata entries (tlvType k) = lastAddedAs self k) := by
  rw [readBack,written,map_append,reverse_append,lookup_append,map_map]
  cases hp : ((self.passedThrough metadata entries).map
      fun et => (tlvType (toByte et.1), et.2)).reverse.lookup (tlvType k) with
  | some va =>
    obtain ⟨l₁,l₂,hsp,-⟩ := lookup_eq_some_iff.mp hp
    have hm : (tlvType k, va) ∈ ((self.passedThrough metadata entries).map
        fun et => (tlvType (toByte et.1), et.2)).reverse := by
      rw [hsp]
      exact mem_append_right _ mem_cons_self
    obtain ⟨⟨t,v⟩,ht,heq⟩ := mem_map.mp (mem_reverse.mp hm)
    obtain ⟨hk,rfl⟩ := Prod.mk.inj heq
    have hb := congrArg toByte hk
    rw [toByte_tlvType,toByte_tlvType] at hb
    exact Or.inl ⟨t,v,hb,(mem_passedThrough he).mp ht,rfl⟩
  | none =>
    refine Or.inr ⟨fun t hk => ?_,?_⟩
    · by_contra hso
      obtain ⟨va,hv⟩ := Option.ne_none_iff_exists'.mp hso
      have hm := mem_map_of_mem (f := fun et => (tlvType (toByte et.1), et.2))
        ((mem_passedThrough he).mpr hv)
      have hne := lookup_eq_none_iff.mp hp _ (mem_reverse.mpr hm)
      rw [hk] at hne
      exact bne_iff_ne.mp hne rfl
    · rw [lastAddedAs,← lookup_map_fst (f := tlvType),map_reverse,map_map]
      · rfl
      · intro et _ heq
        have hb := congrArg toByte heq
        rwa [toByte_tlvType,toByte_tlvType] at hb

lemma lastAddedAs_toByte (ha : ∀ et ∈ self.addedTlvs, et.tlvType ≠ .custom 0)
    (ht : t ≠ .custom 0) : lastAddedAs self (toByte t) = lastAdded self t := by
  rw [lastAdded,← lookup_map_fst (f := toByte),map_reverse,map_map]
  · rfl
  · intro et he heq
    obtain ⟨a,hm,rfl⟩ := mem_map.mp (mem_reverse.mp he)
    have hty := congrArg tlvType heq
    rwa [tlvType_toByte (ha a hm),tlvType_toByte ht] at hty

lemma tlvsReadBack (he : Enumerates entries (tlvData metadata)) :
    TlvsReadBack self metadata (readBack self metadata entries) where
  custom_zero := readBack_custom_zero
  byKind := readBack_byKind self he
  exact ha hf := by
    funext t
    by_cases ht : t = .custom 0
    · have hl : lastAdded self (.custom 0) = none := by
        rw [lastAdded,lookup_eq_none_iff]
        intro et het
        obtain ⟨a,hm,rfl⟩ := mem_map.mp (mem_reverse.mp het)
        exact bne_iff_ne.mpr (ha a hm).symm
      rw [ht,readBack_custom_zero,hf,hl]
      rfl
    · rcases readBack_byKind self he (toByte t) with ⟨t',value,hb,hv,hd⟩ | ⟨hn,hd⟩
      · -- only one type that was passed through has this byte
        have ht' : t' ≠ .custom 0 := by
          rintro rfl
          rw [hf] at hv
          cases hv
        have heq := congrArg tlvType hb
        rw [tlvType_toByte ht',tlvType_toByte ht] at heq
        rw [tlvType_toByte ht] at hd
        rw [hd,← heq,hv]
        rfl
      · rw [tlvType_toByte ht] at hd
        rw [hd,hn t rfl,lastAddedAs_toByte ha ht]
        rfl

variable {config : DownstreamProxyProtocolConfig} {R : Type} {r : Reader UInt8 R} {stream : R}
  {rest : Str}

lemma read_textHeader {so d : Endpoint} (hf : SameFamily so.ip d.ip = true)
    (ha : .v1 ∉ config.disallowedVersions) (hb : r.bytes stream = textHeader so d++rest)
    (p ppa : Endpoint) :
    ∃ s, r.Yields s rest ∧ tryReadProxyHeader r crate.parser.parse config stream p ppa =
        .ok (.fromProxyProtocol so d .stream (fun _ => none) ppa p, .inner s) := by
  have hp := crate.parse_text hf
  have hfo : crate.parser.WellFormed (textHeader so d) .v1 := ⟨framedV1_textHeader so d,_,hp⟩
  obtain ⟨s,hy,hr⟩ := tryReadProxyHeader_of_header crate.parser p ppa hb hfo ha
  refine ⟨s,hy,?_⟩
  rw [hr,hp,addressesV1]
  cases so.ip <;> rfl

lemma read_binaryHeader {header : BinaryHeader}
    (hfa : SameFamily header.source.ip header.destination.ip = true) (hf : header.Fits)
    (ha : .v2 ∉ config.disallowedVersions) (hb : r.bytes stream = header.bytes++rest)
    (p ppa : Endpoint) :
    ∃ s, r.Yields s rest ∧ tryReadProxyHeader r crate.parser.parse config stream p ppa =
        .ok (.fromProxyProtocol header.source header.destination .stream
          (collectTlvs config.passThroughTlvs header.tlvs) ppa p, .inner s) := by
  have hp := crate.parse_binary hfa hf
  have hfo : crate.parser.WellFormed header.bytes .v2 := ⟨BinaryHeader.framedV2_bytes hf,_,hp⟩
  obtain ⟨s,hy,hr⟩ := tryReadProxyHeader_of_header crate.parser p ppa hb hfo ha
  refine ⟨s,hy,?_⟩
  rw [hr,hp,BinaryHeader.parsed,BinaryHeader.addresses]
  cases header.source.ip <;> rfl

lemma collectTlvs_binaryHeader (hp : PassesAll config) :
    collectTlvs config.passThroughTlvs (binaryHeader self metadata entries).tlvs =
      readBack self metadata entries := by
  obtain ⟨p,hso,ha⟩ := hp
  funext t
  rw [hso,collectTlvs_eq ha,binaryHeader,pushAll,nil_append,map_map]
  rfl

/-- Every header that is built is read back, by a reader that allows its version and
passes on all records: the addresses and ports are the same, and for each byte as a
type the record is one that was passed through, or else the last configured one.
A header of version 2 is built unless it is too long. -/
theorem header_read_back (crate : PppCrate) (self : ProxyProtocolConfigurator)
    (metadata : DownstreamConnectionMetadata Endpoint) (entries : List (TlvType × Str))
    (hentries : Enumerates entries (tlvData metadata))
    (hfamily : SameFamily (peerAddress metadata).ip (localAddress metadata).ip = true)
    (config : DownstreamProxyProtocolConfig) (hallowed : self.version ∉ config.disallowedVersions)
    (hpass : PassesAll config) (r : Reader UInt8 R) (stream : R) (rest : Str)
    (proxyLocalAddress proxyPeerAddress : Endpoint) :
    (∀ header, self.buildProxyHeader crate metadata entries = .ok header →
      r.bytes stream = header ++ rest → ∃ data s,
          tryReadProxyHeader r crate.parser.parse config stream proxyLocalAddress
              proxyPeerAddress =
            .ok (.fromProxyProtocol (peerAddress metadata) (localAddress metadata) .stream data
              proxyPeerAddress proxyLocalAddress, .inner s) ∧ r.Yields s rest ∧
          (self.version = .v1 → header.length ≤ v1MaxLength ∧ data = fun _ => none) ∧
          (self.version = .v2 → TlvsReadBack self metadata data)) ∧
    ((∃ header, self.buildProxyHeader crate metadata entries = .ok header) ↔
      self.version = .v1 ∨ (binaryHeader self metadata entries).Fits) := by
  rw [buildProxyHeader]
  cases hv : self.version with
  | v1 =>
    rw [hv] at hallowed
    rw [buildV1Header_eq hfamily]
    refine ⟨fun header hb hby => ?_,fun _ => Or.inl rfl,fun _ => ⟨_,rfl⟩⟩
    obtain rfl := Except.ok.inj hb
    obtain ⟨s,hy,hr⟩ := read_textHeader hfamily hallowed hby proxyLocalAddress proxyPeerAddress
    refine ⟨_,s,hr,hy,fun _ => ⟨?_,rfl⟩,nofun⟩
    exact (framedV1_textHeader ..).length_le
  | v2 =>
    rw [hv] at hallowed
    refine ⟨fun header hb hby => ?_,?_⟩
    · obtain ⟨hf,rfl⟩ := buildV2Header_eq_ok.mp hb
      obtain ⟨s,hy,hr⟩ := read_binaryHeader hfamily hf hallowed hby
        proxyLocalAddress proxyPeerAddress
      rw [collectTlvs_binaryHeader hpass] at hr
      exact ⟨_,s,hr,hy,nofun,fun _ => tlvsReadBack hentries⟩
    · constructor
      · rintro ⟨header,hb⟩
        exact Or.inr (buildV2Header_eq_ok.mp hb).1
      · rintro (h | hf)
        · cases h
        · exact ⟨_,buildV2Header_eq_ok.mpr ⟨hf,rfl⟩⟩

def client : Endpoint := ⟨.v4 0xC0A80164,54321,by decide⟩
def service : Endpoint := ⟨.v4 0x0A000001,80,by decide⟩
def sidecar : Endpoint := ⟨.v4 0x7F000001,8080,by decide⟩

def relaying : ProxyProtocolConfigurator where
  version := .v2
  passThroughTlvs := some ⟨.includeAll,[]⟩
  addedTlvs := [⟨.custom 16,str "added"⟩,⟨.custom 1,str "overridden"⟩]

def relayed : DownstreamConnectionMetadata Endpoint :=
  .fromProxyProtocol client service .stream
    (fun t => if t = .custom 1 then some (str "passed") else none) sidecar sidecar

lemma enumerates_relayed : Enumerates [(.custom 1, str "passed")] (tlvData relayed) where
  nodup := by decide
  mem_iff t value := by
    by_cases ht : t = .custom 1 <;> simp [relayed,tlvData,eq_comm]

def passingAll : DownstreamProxyProtocolConfig := { passThroughTlvs := some ⟨.includeAll,[]⟩ }

theorem relayed_read_back :
    ∃ header data s, relaying.buildProxyHeader ppp relayed [(.custom 1, str "passed")] = .ok header ∧
      tryReadProxyHeader chunkReader ppp.parser.parse passingAll [header] sidecar sidecar =
        .ok (.fromProxyProtocol client service .stream data sidecar sidecar, .inner s) ∧
      data (.custom 16) = some (str "added") ∧ data (.custom 1) = some (str "passed") := by
  have hb := fun stream => header_read_back ppp relaying relayed _ enumerates_relayed rfl
    passingAll (by decide) ⟨_,rfl,fun _ => rfl⟩ chunkReader stream [] sidecar sidecar
  obtain ⟨header,hh⟩ := (hb []).2.mpr (Or.inr (by decide))
  obtain ⟨data,s,hr,-,-,hba⟩ := (hb [header]).1 header hh (by simp [chunkReader])
  have hd := (hba rfl).exact (by decide) rfl
  exact ⟨header,data,s,hh,hr,by rw [hd]; decide,by rw [hd]; decide⟩

def addingZero : ProxyProtocolConfigurator where
  version := .v2
  addedTlvs := [⟨.custom 0,str "zero"⟩]

theorem custom_zero_read_as_noOp :
    ∃ header data s, addingZero.buildProxyHeader ppp (.fromSocket client service) [] = .ok header ∧
      tryReadProxyHeader chunkReader ppp.parser.parse passingAll [header] sidecar sidecar =
        .ok (.fromProxyProtocol client service .stream data sidecar sidecar, .inner s) ∧
      lastAdded addingZero (.custom 0) = some (str "zero") ∧ data (.custom 0) = none ∧
      lastAdded addingZero .noOp = none ∧ data .noOp = some (str "zero") := by
  have hf : (binaryHeader addingZero (.fromSocket client service) []).Fits := by decide
  have hb : chunkReader.bytes [(binaryHeader addingZero (.fromSocket client service) []).bytes] =
      _++[] := flatten_singleton.trans (append_nil _).symm
  obtain ⟨s,-,hr⟩ := @read_binaryHeader ppp passingAll _ _ _ _ _ rfl hf (by decide) hb sidecar sidecar
  exact ⟨_,_,s,buildV2Header_eq_ok.mpr ⟨hf,rfl⟩,hr,rfl,rfl,rfl,rfl⟩

end ArionGateway.ProxyHeaders
