import ArionGateway.FallibleSteps
import ArionGateway.FetchCors

/-!
# Requests for a websocket

The two headers of an upgrade are lists: a user agent sends `keep-alive, Upgrade`, and a list may
be spread over lines. The gateway compares the whole of the first line of each header with the
one word it looks for. What it takes for a websocket is one, but a request that lists more is
forwarded as a plain request or refused.
-/
namespace ArionGateway.WebsocketUpgrades
open ByteStrings HttpHeaders DelimitedText FetchCors FallibleSteps

def UPGRADE : Str := str "upgrade"
def WEBSOCKET : Str := str "websocket"

def connection : Str := str "connection"
def upgrade : Str := str "upgrade"

def isUpgradeConnection (headerValue : Str) : Bool := eqIgnoreAsciiCase headerValue UPGRADE

def isWebsocketUpgrade (headerValue : Str) : Bool := eqIgnoreAsciiCase headerValue WEBSOCKET

def isValidHeader (headerValue : Str) : Except Str Str :=
  match toStr headerValue with
  | some text => .ok text
  | none => .error (str "failed to convert header to a str")

inductive UpgradeError where
  | connectionNotAscii (message : Str)
  | upgradeNotAscii (message : Str)
  | unsupportedProtocol (protocol : Str)
  deriving DecidableEq

def isValidWebsocketUpgradeRequest (headers : HeaderMap) : Except UpgradeError Bool :=
  match headers.get connection, headers.get upgrade with
  | some connectionHeader, some upgradeHeader => do
    let connectionHeader ← (isValidHeader connectionHeader).mapError .connectionNotAscii
    let upgradeHeader ← (isValidHeader upgradeHeader).mapError .upgradeNotAscii
    match isUpgradeConnection connectionHeader, isWebsocketUpgrade upgradeHeader with
    | true, true => .ok true
    | true, false => .error (.unsupportedProtocol upgradeHeader)
    | false, _ => .ok false
  | _, _ => .ok false

/-- A line with a name lists the word, in any position and spelling. -/
def Lists (headers : HeaderMap) (name word : Str) : Prop :=
  ∃ line ∈ headers.getAll name, ∃ e ∈ elements line, eqIgnoreAsciiCase e word = true

/-- The first line with a name is the word and nothing else. -/
def StandsAlone (headers : HeaderMap) (name word : Str) : Prop :=
  ∃ line, headers.get name = some line ∧ eqIgnoreAsciiCase line word = true

variable {headers : HeaderMap} {name line word : Str}

lemma isValidHeader_eq_ok {text : Str} :
    isValidHeader line = .ok text ↔ text = line ∧ ∀ b ∈ line, isVisibleAscii b = true := by
  rw [← toStr_eq_some_iff,isValidHeader]
  cases toStr line with
  | none | some t => simp

/-- A spelling of either word is visible text and an element of its own. -/
lemma spelling (hw : word ∈ [UPGRADE,WEBSOCKET]) (h : eqIgnoreAsciiCase line word = true) :
    isValidHeader line = .ok line ∧ elements line = [line] := by
  rw [eqIgnoreAsciiCase,beq_iff_eq] at h
  have hlow : ∀ w ∈ [UPGRADE,WEBSOCKET], w ≠ [] ∧ ∀ b ∈ toAsciiLowercase w, 97 ≤ b ∧ b ≤ 122 := by
    decide
  have hl : ∀ b ∈ line, 65 ≤ b ∧ b ≤ 122 := by
    intro b hb
    have hb : _ ∈ toAsciiLowercase line := List.mem_map_of_mem hb
    have hb := (hlow _ hw).2 _ (h ▸ hb)
    split at hb <;> grind
  have hne : line ≠ [] := by
    rintro rfl
    exact (hlow _ hw).1 (List.map_eq_nil_iff.mp h.symm)
  have hc : comma ∉ line := fun hc => absurd (hl _ hc) (by decide)
  have ht : trim line = line := trim_eq_self fun b hb => by grind [isWhitespace]
  refine ⟨isValidHeader_eq_ok.mpr ⟨rfl,fun b hb => by grind [isVisibleAscii]⟩,?_⟩
  rw [elements,List.splitOn_eq_singleton hc]
  simp [ht,hne]

lemma lists_of_standsAlone (hw : word ∈ [UPGRADE,WEBSOCKET]) (h : StandsAlone headers name word) :
    Lists headers name word := by
  obtain ⟨line,hl,he⟩ := h
  rw [HeaderMap.get_eq_head?] at hl
  refine ⟨line,List.mem_of_head? hl,line,?_,he⟩
  rw [(spelling hw he).2]
  exact List.mem_singleton_self line

lemma isValidWebsocketUpgradeRequest_eq_true_iff :
    isValidWebsocketUpgradeRequest headers = .ok true ↔
      StandsAlone headers connection UPGRADE ∧ StandsAlone headers upgrade WEBSOCKET := by
  constructor
  · intro h
    rw [isValidWebsocketUpgradeRequest] at h
    split at h
    case h_1 c u hc hu =>
      obtain ⟨c',hc',hb⟩ := bind_eq_ok.mp h
      obtain ⟨u',hu',hw⟩ := bind_eq_ok.mp hb
      obtain ⟨rfl,-⟩ := isValidHeader_eq_ok.mp (mapError_eq_ok.mp hc')
      obtain ⟨rfl,-⟩ := isValidHeader_eq_ok.mp (mapError_eq_ok.mp hu')
      split at hw
      case h_1 hcu huw => exact ⟨⟨_,hc,hcu⟩,_,hu,huw⟩
      all_goals cases hw
    case h_2 => cases h
  · rintro ⟨⟨c,hc,hcu⟩,u,hu,huw⟩
    simp only [isValidWebsocketUpgradeRequest,hc,hu,(spelling (by decide) hcu).1,
      (spelling (by decide) huw).1]
    simp [Except.mapError,bind,Except.bind,isUpgradeConnection,isWebsocketUpgrade,hcu,huw]

/-- Exactly the requests for a websocket are recognised, if one that lists both words has nothing
else in the first line of either header. -/
theorem isValidWebsocketUpgradeRequest_exact_iff (headers : HeaderMap) :
    (isValidWebsocketUpgradeRequest headers = .ok true ↔
      Lists headers connection UPGRADE ∧ Lists headers upgrade WEBSOCKET) ↔
    (Lists headers connection UPGRADE ∧ Lists headers upgrade WEBSOCKET →
      StandsAlone headers connection UPGRADE ∧ StandsAlone headers upgrade WEBSOCKET) := by
  rw [isValidWebsocketUpgradeRequest_eq_true_iff]
  refine ⟨Iff.mpr,fun h => ⟨fun ha => ?_,h⟩⟩
  exact ha.imp (lists_of_standsAlone (by decide)) (lists_of_standsAlone (by decide))

def browserRequest : HeaderMap :=
  [(connection, str "keep-alive, Upgrade"),(upgrade, str "websocket")]

theorem browserRequest_forwarded :
    Lists browserRequest connection UPGRADE ∧ Lists browserRequest upgrade WEBSOCKET ∧
      isValidWebsocketUpgradeRequest browserRequest = .ok false :=
  ⟨⟨_,.head _,str "Upgrade",by decide +kernel,by decide⟩,
    ⟨_,.head _,str "websocket",by decide +kernel,by decide⟩,by decide +kernel⟩

end ArionGateway.WebsocketUpgrades
