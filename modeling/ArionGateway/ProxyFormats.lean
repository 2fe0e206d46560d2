import ArionGateway.AddressText
import ArionGateway.DelimitedText
import ArionGateway.ProxyProtocol

/-!
# The two formats of PROXY protocol headers

Version 1 is a line of text with the two addresses and ports. Version 2 is binary:
a signature, two bytes for version, command, family and protocol, the length of
the rest, the addresses and ports, and then records of type, length and value.

The crate that writes the second format and reads both is a parameter. What it is
known for is that it implements the formats: the fields of `PppCrate` say so. It
is implemented here too, so that the fields can be met.
-/
namespace ArionGateway.ProxyFormats
open AddressText ByteStrings DelimitedText IpNetworks Numerals ProxyProtocol TextEncodings
open List

structure Endpoint where
  ip : IpAddr
  port : ℕ
  port_lt : port < 65536
  deriving DecidableEq

def Endpoint.display (self : Endpoint) : Str :=
  match self.ip with
  | .v4 bits => displayV4 bits++colon::formatDecimal self.port
  | .v6 bits => str "[" ++ displayV6 bits++str "]" ++ colon::formatDecimal self.port

instance : ToString Endpoint :=
  ⟨fun endpoint => String.ofList (endpoint.display.map fun b => Char.ofNat b.toNat)⟩

def SameFamily : IpAddr → IpAddr → Bool
  | .v4 _, .v4 _ | .v6 _, .v6 _ => true
  | _, _ => false

def space : UInt8 := 32

def familyName : IpAddr → Str
  | .v4 _ => str "TCP4"
  | .v6 _ => str "TCP6"

def textFields (source destination : Endpoint) : List Str :=
  [v1Signature,familyName source.ip,AddressText.display source.ip,
    AddressText.display destination.ip,formatDecimal source.port,formatDecimal destination.port]

def textLine (source destination : Endpoint) : Str :=
  [space].intercalate (textFields source destination)

def textHeader (source destination : Endpoint) : Str :=
  textLine source destination++v1Terminator

def addressesV1 (source destination : Endpoint) : AddressesV1 Endpoint :=
  match source.ip with
  | .v4 _ => .tcp4 source destination
  | .v6 _ => .tcp6 source destination

variable (s destination : Endpoint)

lemma le_of_mem_textFields {f : Str} (hf : f ∈ textFields s destination)
    {b : UInt8} (hb : b ∈ f) : 46 ≤ b := by
  have hip : ∀ ip, b ∈ AddressText.display ip → 46 ≤ b := fun ip hb =>
    (bounds_of_isAddressByte (isAddressByte_of_mem_display hb)).1
  have hp : ∀ n, b ∈ formatDecimal n → 46 ≤ b := by
    intro n hb
    have := isDigit_of_mem_formatDecimal hb
    simp only [isDigit,Bool.and_eq_true,decide_eq_true_eq] at this
    exact UInt8.le_trans (by decide) this.1
  have hn : ∀ ip, b ∈ familyName ip → 46 ≤ b := by
    intro ip hb
    have ha : ∀ c ∈ str "TCP4" ++ str "TCP6", (46 : UInt8) ≤ c := by decide
    cases ip with
    | v4 _ => exact ha b (mem_append_left _ hb)
    | v6 _ => exact ha b (mem_append_right _ hb)
  have hsi : b ∈ v1Signature → 46 ≤ b := by
    have ha : ∀ c ∈ v1Signature, (46 : UInt8) ≤ c := by decide
    exact ha b
  simp only [textFields,mem_cons,not_mem_nil,or_false] at hf
  rcases hf with rfl | rfl | rfl | rfl | rfl | rfl
  · exact hsi hb
  · exact hn _ hb
  · exact hip _ hb
  · exact hip _ hb
  · exact hp _ hb
  · exact hp _ hb

lemma le_of_mem_textLine {b : UInt8} (hb : b ∈ textLine s destination) : 32 ≤ b := by
  rcases mem_intercalate hb with hsp | ⟨f,hf,hb⟩
  · obtain rfl := mem_singleton.mp hsp
    exact UInt8.le_refl _
  · exact UInt8.le_trans (by decide) (le_of_mem_textFields s destination hf hb)

lemma splitOn_textLine : (textLine s destination).splitOn space = textFields s destination := by
  refine splitOn_intercalate space (fun f hf hm => ?_) (cons_ne_nil _ _)
  exact absurd (le_of_mem_textFields s destination hf hm) (by decide)

lemma length_display_le (ip : IpAddr) : (AddressText.display ip).length ≤ 39 := by
  cases ip with
  | v4 bits => exact (length_displayV4_le bits).trans (by decide)
  | v6 bits => exact length_displayV6_le bits

lemma length_textHeader_le : (textHeader s destination).length ≤ 104 := by
  have hn : (familyName s.ip).length = 4 := by cases s.ip <;> rfl
  have hp : ∀ e : Endpoint, (formatDecimal e.port).length ≤ 5 := fun e =>
    length_formatDecimal_le (by decide) (e.port_lt.trans (by decide))
  have h1 := length_display_le s.ip
  have h2 := length_display_le destination.ip
  have h3 := hp s
  have h4 := hp destination
  have ht : v1Terminator.length = 2 := rfl
  have hsi : v1Signature.length = 5 := rfl
  simp only [textHeader,textLine,textFields,intercalate_cons_cons,
    intercalate_singleton,length_append,length_singleton]
  omega

lemma framedV1_textHeader : FramedV1 (textHeader s destination) where
  signature := by
    simp [textHeader,textLine,textFields]
  length_le := (length_textHeader_le s destination).trans (by decide)
  terminated := suffix_append ..
  first front hf hne he := by
    -- the last byte of the terminator occurs only at the end
    have hsp : textHeader s destination = textLine s destination++[13]++[10] := by
      rw [append_assoc]
      rfl
    have hm : (10 : UInt8) ∈ front := he.subset (by decide)
    have hf : front <+: textLine s destination++[13] := by
      rw [hsp] at hf hne
      exact (prefix_concat_iff.mp hf).resolve_left hne
    rcases mem_append.mp (hf.subset hm) with hl | hcr
    · exact absurd (le_of_mem_textLine s destination hl) (by decide)
    · exact nomatch hcr

/-- What a header of version 2 for the command `Proxy` and the protocol `Stream`
says. -/
structure BinaryHeader where
  source : Endpoint
  destination : Endpoint
  tlvs : List (UInt8 × Str)

def addressBytes : IpAddr → Str
  | .v4 bits => toBeBytes 4 bits.toNat
  | .v6 bits => toBeBytes 16 bits.toNat

def tlvBytes (tlv : UInt8 × Str) : Str := tlv.1::toBeBytes 2 tlv.2.length++tlv.2

namespace BinaryHeader

variable (self : BinaryHeader)

/-- The byte for the family and the protocol. Addresses of two families are given
as unspecified. -/
def familyProtocol : UInt8 :=
  match self.source.ip, self.destination.ip with
  | .v4 _, .v4 _ => 0x11
  | .v6 _, .v6 _ => 0x21
  | _, _ => 0x01

def addressBlock : Str :=
  if SameFamily self.source.ip self.destination.ip then
    addressBytes self.source.ip++(addressBytes self.destination.ip ++
      (toBeBytes 2 self.source.port++toBeBytes 2 self.destination.port))
  else []

def payload : Str := self.addressBlock++self.tlvs.flatMap tlvBytes

def bytes : Str :=
  v2Signature++[0x21,self.familyProtocol]++toBeBytes 2 self.payload.length++self.payload

def Fits : Prop := self.payload.length < 65536

instance (self : BinaryHeader) : Decidable self.Fits := inferInstanceAs (Decidable (_ < _))

def push (kind : UInt8) (value : Str) : BinaryHeader :=
  { self with tlvs := self.tlvs++[(kind, value)] }

def addresses : AddressesV2 Endpoint :=
  match self.source.ip with
  | .v4 _ => .ipv4 self.source self.destination
  | .v6 _ => .ipv6 self.source self.destination

def parsed : HeaderV2 Endpoint := ⟨self.addresses,.stream,self.tlvs⟩

variable {se : BinaryHeader}

lemma payload_push (k : UInt8) (v : Str) : (se.push k v).payload = se.payload++tlvBytes (k, v) := by
  change se.addressBlock++_ = _
  rw [push,flatMap_append,flatMap_singleton,← append_assoc]
  rfl

lemma Fits.value_lt (h : se.Fits) {tlv : UInt8 × Str} (ht : tlv ∈ se.tlvs) :
    tlv.2.length < 65536 := by
  have hle : (tlvBytes tlv).length ≤ (se.tlvs.flatMap tlvBytes).length :=
    (sublist_flatten_of_mem (mem_map_of_mem ht)).length_le
  rw [Fits,payload,length_append] at h
  simp only [tlvBytes,length_append] at hle
  omega

lemma length_bytes (s : BinaryHeader) : s.bytes.length = v2MinimumLen+s.payload.length := by
  have hsi : v2Signature.length = 12 := rfl
  simp only [bytes,length_append,length_toBeBytes,hsi,v2MinimumLen,length_cons,length_nil]

lemma framedV2_bytes (h : se.Fits) : FramedV2 se.bytes where
  signature := by
    exact prefix_append ..
  minimum_le := by
    rw [length_bytes]
    exact Nat.le_add_right ..
  length_eq := by
    have hl : ofBeBytes (toBeBytes 2 se.payload.length) = se.payload.length := ofBeBytes_toBeBytes h
    have hb : ∃ high low, toBeBytes 2 se.payload.length = [high,low] := ⟨_,_,rfl⟩
    obtain ⟨high,low,hb⟩ := hb
    rw [length_bytes,bytes,hb]
    rw [hb] at hl
    change _ = _+(high.toNat*256+low.toNat)
    rw [← hl]
    simp [ofBeBytes,ofBigEndian]

end BinaryHeader

/-- The interface of the crate `ppp`: a parser for both formats, and a builder for
the second one, which is given addresses and one record after the other. -/
structure PppCrate where
  parser : HeaderParser Endpoint
  Builder : Type
  withAddresses : Endpoint → Endpoint → Builder
  writeTlv : Builder → UInt8 → Str → Except String Builder
  build : Builder → Except String Str
  /-- What a builder has been given. -/
  contents : Builder → BinaryHeader
  contents_withAddresses : ∀ source destination,
    contents (withAddresses source destination) = ⟨source,destination,[]⟩
  contents_writeTlv : ∀ {builder kind value builder'},
    writeTlv builder kind value = .ok builder' → contents builder' = (contents builder).push kind value
  writeTlv_of_fits : ∀ {builder kind value}, ((contents builder).push kind value).Fits →
    ∃ builder', writeTlv builder kind value = .ok builder'
  build_eq_ok : ∀ {builder bytes},
    build builder = .ok bytes ↔ (contents builder).Fits ∧ bytes = (contents builder).bytes
  parse_text : ∀ {source destination : Endpoint}, SameFamily source.ip destination.ip = true →
    parser.parse (textHeader source destination) = .v1 (.ok (addressesV1 source destination))
  parse_binary : ∀ {header : BinaryHeader},
    SameFamily header.source.ip header.destination.ip = true → header.Fits →
      parser.parse header.bytes = .v2 (.ok header.parsed)

def Endpoint.ofPort (ip : IpAddr) (port : ℕ) : Endpoint :=
  ⟨ip,port % 65536,Nat.mod_lt _ (by decide)⟩

lemma Endpoint.ofPort_self (endpoint : Endpoint) :
    Endpoint.ofPort endpoint.ip endpoint.port = endpoint := by
  obtain ⟨ip,port,hp⟩ := endpoint
  simp [ofPort,Nat.mod_eq_of_lt hp]

def readText (bytes : Str) : Except String (AddressesV1 Endpoint) :=
  match (bytes.takeWhile (· ≠ 13)).splitOn space with
  | [_,family,source,destination,sourcePort,destinationPort] =>
    match parse source, parse destination, parseDecimal 65536 sourcePort,
      parseDecimal 65536 destinationPort with
    | some sourceIp, some destinationIp, some sourcePort, some destinationPort =>
      if familyName sourceIp = family ∧ SameFamily sourceIp destinationIp = true then
        .ok (addressesV1 (.ofPort sourceIp sourcePort) (.ofPort destinationIp destinationPort))
      else .error "invalid protocol"
    | _, _, _, _ => .error "invalid address"
  | [_,_] => .ok .unknown
  | _ => .error "invalid header"

def readTlvs : Str → List (UInt8 × Str)
  | kind::high::low::rest =>
    let length := ofBeBytes [high,low]
    if length ≤ rest.length then (kind, rest.take length)::readTlvs (rest.drop length) else []
  | _ => []
termination_by bytes => bytes.length
decreasing_by
  simp only [List.length_drop,length_cons]
  omega

def readBlock (k : ℕ) (ip : ℕ → IpAddr)
    (addresses : Endpoint → Endpoint → AddressesV2 Endpoint) (block : Str) :
    Except String (HeaderV2 Endpoint) :=
  if block.length < 2*k+4 then .error "invalid addresses"
  else
    let ports := (block.drop k).drop k
    .ok ⟨addresses
        (.ofPort (ip (ofBeBytes (block.take k))) (ofBeBytes (ports.take 2)))
        (.ofPort (ip (ofBeBytes ((block.drop k).take k))) (ofBeBytes ((ports.drop 2).take 2))),
      .stream,readTlvs ((ports.drop 2).drop 2)⟩

def readBinary (bytes : Str) : Except String (HeaderV2 Endpoint) :=
  let block := (bytes.drop v2MinimumLen).take ((bytes.getD v2LengthIndex 0).toNat*256 +
    (bytes.getD (v2LengthIndex+1) 0).toNat)
  if bytes.getD 13 0 = 0x11 then readBlock 4 (fun n => .v4 (BitVec.ofNat 32 n)) .ipv4 block
  else if bytes.getD 13 0 = 0x21 then readBlock 16 (fun n => .v6 (BitVec.ofNat 128 n)) .ipv6 block
  else .ok ⟨.unspecified,.stream,[]⟩

def readHeader (bytes : Str) : HeaderResult Endpoint :=
  if v2Signature <+: bytes then .v2 (readBinary bytes) else .v1 (readText bytes)

lemma not_v2Signature_of_v1Signature {bytes : Str} (h : v1Signature <+: bytes) :
    ¬ v2Signature <+: bytes := by
  intro h2
  obtain ⟨r,rfl⟩ := h
  obtain ⟨r',heq⟩ := h2
  have hh : (v2Signature++r').head? = (v1Signature++r).head? := by rw [heq]
  exact absurd hh (by simp [v1Signature,v2Signature])

lemma readText_append {header : Str} (h : FramedV1 header) (r : Str) :
    readText (header++r) = readText header := by
  have hm : (13 : UInt8) ∈ header := h.terminated.subset (by decide)
  have hli : (header++r).takeWhile (· ≠ 13) = header.takeWhile (· ≠ 13) := by
    rw [takeWhile_append,if_neg]
    intro hl
    have ha := takeWhile_eq_self_iff.mp (( takeWhile_prefix _).eq_of_length hl)
    exact absurd (ha 13 hm) (by decide)
  rw [readText,readText,hli]

lemma readBinary_append {header : Str} (h : FramedV2 header) (r : Str) :
    readBinary (header++r) = readBinary header := by
  obtain ⟨-,hm,hl⟩ := h
  have hg : ∀ i < v2MinimumLen, (header++r).getD i 0 = header.getD i 0 := fun i hi =>
    getD_append _ _ _ _ (hi.trans_le hm)
  rw [readBinary,readBinary,hg 13 (by decide),hg v2LengthIndex (by decide),
    hg (v2LengthIndex+1) (by decide),drop_append_of_le_length hm, take_append_of_le_length]
  rw [length_drop]
  omega

def readerParser : HeaderParser Endpoint where
  parse := readHeader
  parse_append header rest h := by
    rcases h with h | h
    · rw [readHeader,readHeader,if_neg (not_v2Signature_of_v1Signature h.signature),
        if_neg (not_v2Signature_of_v1Signature (h.signature.trans (List.prefix_append _ _))),
        readText_append h]
    · rw [readHeader,readHeader,if_pos h.signature,
        if_pos (h.signature.trans (List.prefix_append _ _)),readBinary_append h]

lemma readText_textHeader {s destination : Endpoint} (hf : SameFamily s.ip destination.ip = true) :
    readText (textHeader s destination) = .ok (addressesV1 s destination) := by
  have hl : (textHeader s destination).takeWhile (· ≠ 13) = textLine s destination := by
    rw [textHeader,takeWhile_append_of_pos]
    · exact append_nil _
    · intro b hb
      have := le_of_mem_textLine s destination hb
      rw [decide_eq_true_eq]
      rintro rfl
      exact nomatch this
  rw [readText,hl,splitOn_textLine]
  simp [textFields,parse_display,parseDecimal_formatDecimal,s.port_lt,
    destination.port_lt,hf,Endpoint.ofPort_self]

lemma readTlvs_flatMap {tlvs : List (UInt8 × Str)} (h : ∀ tlv ∈ tlvs, tlv.2.length < 65536) :
    readTlvs (tlvs.flatMap tlvBytes) = tlvs := by
  induction tlvs with
  | nil => rw [readTlvs]; simp
  | cons tlv tlvs ih =>
    obtain ⟨k,v⟩ := tlv
    have hl : ofBeBytes (toBeBytes 2 v.length) = v.length :=
      ofBeBytes_toBeBytes (h _ mem_cons_self)
    have hb : ∃ high low, toBeBytes 2 v.length = [high,low] := ⟨_,_,rfl⟩
    obtain ⟨high,low,hb⟩ := hb
    rw [hb] at hl
    have hsp : ((k, v)::tlvs).flatMap tlvBytes = k::high::low::(v++tlvs.flatMap tlvBytes) := by
      rw [flatMap_cons,tlvBytes,hb]
      rfl
    rw [hsp,readTlvs,hl,if_pos (by rw [length_append]; exact Nat.le_add_right ..),
      take_left,drop_left,ih fun tlv ht => h tlv (mem_cons_of_mem _ ht)]

lemma readBlock_bytes {w k : ℕ} (hw : 2^w = 256^k) {ip : BitVec w → IpAddr} {so de : Endpoint}
    {a b : BitVec w} (ha : ip a = so.ip) (hb : ip b = de.ip)
    {ad : Endpoint → Endpoint → AddressesV2 Endpoint} {r : Str} {tlvs : List (UInt8 × Str)}
    (ht : readTlvs r = tlvs) :
    readBlock k (fun n => ip (.ofNat w n)) ad (toBeBytes k a.toNat++(toBeBytes k b.toNat ++
      (toBeBytes 2 so.port++toBeBytes 2 de.port))++r) = .ok ⟨ad so de,.stream,tlvs⟩ := by
  have hip : ∀ c, ip (.ofNat w (ofBeBytes (toBeBytes k c.toNat))) = ip c := by
    intro c
    rw [ofBeBytes_toBeBytes (hw ▸ c.isLt),BitVec.ofNat_toNat,BitVec.setWidth_eq]
  rw [readBlock,if_neg (by simp [length_toBeBytes]; omega)]
  simp only [append_assoc,take_left' (length_toBeBytes ..),drop_left' (length_toBeBytes ..),hip,ha,
    hb]
  rw [ofBeBytes_toBeBytes so.port_lt,ofBeBytes_toBeBytes de.port_lt,so.ofPort_self,de.ofPort_self,
    ht]

open BinaryHeader

lemma readBinary_bytes {header : BinaryHeader}
    (hf : SameFamily header.source.ip header.destination.ip = true) (hfi : header.Fits) :
    readBinary header.bytes = .ok header.parsed := by
  have hb : (header.bytes.drop v2MinimumLen).take ((header.bytes.getD v2LengthIndex 0).toNat*256 +
        (header.bytes.getD (v2LengthIndex+1) 0).toNat) = header.payload := by
    have hl := (framedV2_bytes hfi).length_eq
    rw [length_bytes] at hl
    rw [← add_left_cancel hl,bytes,drop_left',take_length]
    simp [length_toBeBytes,v2Signature,v2MinimumLen]
  have hk : header.bytes.getD 13 0 = header.familyProtocol := rfl
  have ht := readTlvs_flatMap fun tlv htl => hfi.value_lt htl
  rw [readBinary,hb,hk,payload,addressBlock]
  unfold familyProtocol parsed addresses
  cases hso : header.source.ip with
  | v4 source =>
    cases hd : header.destination.ip with
    | v4 destination =>
      exact readBlock_bytes (k := 4) rfl hso.symm hd.symm ht
    | v6 destination => simp [hso,hd,SameFamily] at hf
  | v6 source =>
    cases hd : header.destination.ip with
    | v4 destination => simp [hso,hd,SameFamily] at hf
    | v6 destination =>
      exact readBlock_bytes (k := 16) rfl hso.symm hd.symm ht

def ppp : PppCrate where
  parser := readerParser
  Builder := BinaryHeader
  withAddresses source destination := ⟨source,destination,[]⟩
  writeTlv builder kind value :=
    if (builder.push kind value).Fits then .ok (builder.push kind value) else .error "write zero"
  build builder := if builder.Fits then .ok builder.bytes else .error "write zero"
  contents := id
  contents_withAddresses _ _ := rfl
  contents_writeTlv {builder kind value builder'} h := by
    split_ifs at h
    exact (Except.ok.inj h).symm
  writeTlv_of_fits h := ⟨_,if_pos h⟩
  build_eq_ok {builder bytes} := by
    constructor
    · intro h
      split_ifs at h with hf
      exact ⟨hf,(Except.ok.inj h).symm⟩
    · rintro ⟨hf,rfl⟩
      exact if_pos hf
  parse_text {source destination} hfa := by
    change readHeader (textHeader source destination) = _
    rw [readHeader,if_neg (not_v2Signature_of_v1Signature
      (framedV1_textHeader source destination).signature),readText_textHeader hfa]
  parse_binary {header} hfa hf := by
    change readHeader header.bytes = _
    rw [readHeader,if_pos (BinaryHeader.framedV2_bytes hf).signature,readBinary_bytes hfa hf]

end ArionGateway.ProxyFormats
