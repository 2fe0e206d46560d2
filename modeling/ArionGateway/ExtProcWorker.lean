import ArionGateway.BodyFrames
import ArionGateway.Executions
import ArionGateway.HeaderMutations

/-!
# The worker of an external processor

The filter hands the worker the headers and the body of the request, later those of the response,
and waits for a status on a reply channel. The worker sends messages on a gRPC stream, which it
opens with the first message, and reads the answers. The original body is the source of a bridge,
whose other end is the body that the proxy sends on. Between the two a frame may wait in a buffer,
where frames are merged, in the list of frames in flight, until the processor has answered, or as
parked trailers.

An event is one turn of the loop: it says which branch of `select!` was ready and how the outside
behaved.
-/
namespace ArionGateway.ExtProcWorker
open BodyFrames ByteStrings HeaderMutations HttpHeaders StringMatchers Option

inductive MessageType where
  | request
  | response
  deriving DecidableEq

inductive HeaderMode where
  | default
  | send
  | skip
  deriving DecidableEq

inductive BodyMode where
  | none
  | streamed
  | buffered
  | bufferedPartial
  | fullDuplexStreamed
  deriving DecidableEq

inductive TrailerMode where
  | default
  | send
  | skip
  deriving DecidableEq

structure ProcessingMode where
  requestHeaderMode : HeaderMode := .default
  responseHeaderMode : HeaderMode := .default
  requestBodyMode : BodyMode := .none
  responseBodyMode : BodyMode := .none
  requestTrailerMode : TrailerMode := .default
  responseTrailerMode : TrailerMode := .default
  deriving DecidableEq

inductive RouteCacheAction where
  | default
  | clear
  | retain
  deriving DecidableEq

/-- Durations are in nanoseconds. -/
structure Config (ρ : Type) where
  failureModeAllow : Bool := false
  disableImmediateResponse : Bool := false
  mutationRules : Option (HeaderMutationRules ρ) := none
  processingMode : ProcessingMode := {}
  allowedOverrideModes : List ProcessingMode := []
  allowModeOverride : Bool := false
  routeCacheAction : RouteCacheAction := .default
  sendBodyWithoutWaitingForHeaderResponse : Bool := false
  messageTimeout : ℕ := 200000000
  maxMessageTimeout : Option ℕ := none
  frameMergeLimit : ℕ := 4
  frameMergeWindow : ℕ := 100000
  maxReceiveMessageLength : ℕ := 104857600

structure Modes where
  headerMode : HeaderMode
  bodyMode : BodyMode
  trailerMode : TrailerMode
  deriving DecidableEq

namespace Modes

def shouldProcessHeaders (self : Modes) : Bool :=
  match self.headerMode with
  | .default | .send => true
  | .skip => false

def shouldProcessBody (self : Modes) : Bool := self.bodyMode ≠ .none

def shouldProcessTrailers (self : Modes) : Bool :=
  match self.trailerMode with
  | .default | .skip => false
  | .send => true

end Modes

def BodyMode.isBuffered : BodyMode → Bool
  | .buffered | .bufferedPartial => true
  | .none | .streamed | .fullDuplexStreamed => false

def ProcessingMode.modes (self : ProcessingMode) : MessageType → Modes
  | .request => ⟨self.requestHeaderMode,self.requestBodyMode,self.requestTrailerMode⟩
  | .response => ⟨self.responseHeaderMode,self.responseBodyMode,self.responseTrailerMode⟩

/-- The modes a processor asks for; a number without a meaning is none. -/
structure ModeOverride where
  requestBodyMode : Option BodyMode := some .none
  requestTrailerMode : Option TrailerMode := some .default
  responseHeaderMode : Option HeaderMode := some .default
  responseBodyMode : Option BodyMode := some .none
  responseTrailerMode : Option TrailerMode := some .default
  deriving DecidableEq

/-- A mode that is asked for replaces the old one if it is allowed, or if nothing
says which are. -/
def overridden {M : Type} [DecidableEq M] (allowed : List ProcessingMode)
    (field : ProcessingMode → M) (asked : Option M) (old : M) : M :=
  match asked with
  | some mode => if allowed.isEmpty || allowed.any (field · = mode) then mode else old
  | none => old

/-- `apply_mode_overrides`, for each type of message. -/
def applyModeOverrides (allowed : List ProcessingMode) (asked : ModeOverride) (modes : Modes) :
    MessageType → Modes
  | .request =>
    { modes with
      bodyMode := overridden allowed (·.requestBodyMode) asked.requestBodyMode modes.bodyMode
      trailerMode := overridden allowed (·.requestTrailerMode)
        (asked.requestTrailerMode.filter (· ≠ .default)) modes.trailerMode }
  | .response =>
    { headerMode := overridden allowed (·.responseHeaderMode)
        (asked.responseHeaderMode.filter (· ≠ .default)) modes.headerMode
      bodyMode := overridden allowed (·.responseBodyMode) asked.responseBodyMode modes.bodyMode
      trailerMode := overridden allowed (·.responseTrailerMode)
        (asked.responseTrailerMode.filter (· ≠ .default)) modes.trailerMode }

inductive ExtProcError where
  | timeout (text : Str)
  | unsupportedResponseType (text : Str)
  | unexpectedEof
  | grpcError (text : Str)
  deriving DecidableEq

inductive BodyError where
  | source (text : Str)
  | extProc (error : ExtProcError)
  deriving DecidableEq

abbrev BodyFrame := Frame UInt8 HeaderMap

abbrev FrameResult := Except BodyError BodyFrame

abbrev BodyToken := Token UInt8 HeaderMap BodyError

structure Body where
  frames : List FrameResult
  isEndStream : Bool
  ended : isEndStream = true → frames = []

inductive BodyType where
  | empty
  | body
  | trailers
  | bodyAndTrailers
  deriving DecidableEq

/-- The bridge has the frames of the original body that are not read yet, whether
frames can be injected, and what was injected. -/
structure FrameBridge where
  source : List FrameResult := []
  injector : Bool := false
  sourceHasBody : Option Bool := some false
  sourceHasTrailers : Option Bool := some false
  sourceHasBodyOrTrailers : Bool := false
  output : List FrameResult := []

namespace FrameBridge

def new (body : Body) (bodyType : Option BodyType) : FrameBridge :=
  let (hasBody, hasTrailers) :=
    match body.isEndStream, bodyType with
    | false, some .body => (some true, some false)
    | false, some .trailers => (some false, some true)
    | false, some .bodyAndTrailers => (some true, some true)
    | false, none => (none, none)
    | false, some .empty | true, _ => (some false, some false)
  { source := body.frames
    injector := true
    sourceHasBody := hasBody
    sourceHasTrailers := hasTrailers
    sourceHasBodyOrTrailers := !body.isEndStream }

variable (self : FrameBridge)

def injectFrame (frame : FrameResult) : FrameBridge :=
  if self.injector then { self with output := self.output++[frame] } else self

def drainAndInject : FrameBridge :=
  if self.injector then { self with output := self.output++self.source, source := [] } else self

def close : FrameBridge := { self with injector := false }

def injectTrailers (trailers : Option HeaderMap) : FrameBridge :=
  match trailers with
  | some map => self.injectFrame (.ok (.trailers map))
  | none => self

def drainAndClose (frames : List BodyFrame) (trailers : Option HeaderMap) : FrameBridge :=
  let self := frames.foldl (fun self frame => self.injectFrame (.ok frame)) self
  (self.drainAndInject.injectTrailers trailers).close

/-- An open bridge that is dropped is drained by a task of its own. -/
def drop : FrameBridge := self.drainAndInject.close

end FrameBridge

/-- `HeaderMap::extend`: the new lines replace those with the same name. -/
def extend (map more : HeaderMap) : HeaderMap :=
  map.filter (fun line => !HeaderMap.containsKey more line.1)++more

/-- `Limited` and `collect`: the bytes and the trailers, unless a frame is an error or
there are too many bytes. -/
def collect (limit : ℕ) : List FrameResult → Option (Str × Option HeaderMap)
  | [] => some ([], none)
  | .error _::_ => none
  | .ok (.data bytes)::frames =>
    if limit < bytes.length then none
    else (collect (limit - bytes.length) frames).map fun (rest, map) => (bytes++rest, map)
  | .ok (.trailers map)::frames =>
    (collect limit frames).map fun (rest, more) => (rest, some (more.elim map (extend map)))

/-- One data frame, unless it would be empty, and the trailers. -/
def toBuffered (bytes : Str) (trailers : Option HeaderMap) : Body where
  frames := (if bytes = [] then [] else [.ok (.data bytes)]) ++
    trailers.toList.map fun map => .ok (.trailers map)
  isEndStream := bytes = [] ∧ trailers = none
  ended := by
    intro h
    obtain ⟨rfl,rfl⟩ := of_decide_eq_true h
    rfl

/-- The bridge that the filter prepares for a body. In buffered mode the body is
collected first; if that fails, there is no task. -/
def prepareProcessingData (limit : ℕ) (bodyMode : BodyMode) (body : Body) : Option FrameBridge :=
  match bodyMode with
  | .none | .streamed | .fullDuplexStreamed => some (.new body none)
  | .buffered | .bufferedPartial =>
    if body.isEndStream then some (.new body (some .empty))
    else
      (collect limit body.frames).map fun (bytes, trailers) =>
        let bodyType :=
          match decide (bytes ≠ []), trailers.any (· ≠ []) with
          | true, true => .bodyAndTrailers
          | true, false => .body
          | false, true => .trailers
          | false, false => .empty
        .new (toBuffered bytes trailers) (some bodyType)

lemma prepareProcessingData_cases {l : ℕ} {b : BodyMode} {bo : Body}
    {br : FrameBridge} (h : prepareProcessingData l b bo = some br) :
    (∃ bt, (bt = none ∨ bt = some .empty) ∧ br = .new bo bt) ∨
      ∃ byt trailers bt, collect l bo.frames = some (byt, trailers) ∧
        br = .new (toBuffered byt trailers) (some bt) := by
  unfold prepareProcessingData at h
  split at h
  iterate 3 exact .inl ⟨none,.inl rfl,(some.inj h).symm⟩
  all_goals
    split_ifs at h
    · exact .inl ⟨some .empty,.inr rfl,(some.inj h).symm⟩
    · obtain ⟨⟨byt,trailers⟩,hc,rfl⟩ := map_eq_some_iff.mp h
      exact .inr ⟨byt,trailers,_,hc,rfl⟩

structure FramesBuffer where
  dataBuffer : Option Str := none
  trailersBuffer : Option HeaderMap := none
  lastMerge : Option ℕ := none
  count : ℕ := 0
  deriving DecidableEq

namespace FramesBuffer

/-- A frame goes into the buffer; data that is ready comes out. -/
def push {ρ : Type} (config : Config ρ) (self : FramesBuffer) (frame : BodyFrame) (now : ℕ)
    (bodyMode : BodyMode) : FramesBuffer × Option BodyFrame :=
  match frame with
  | .data newData =>
    let (dataBuffer, count) :=
      -- data after trailers is not kept
      if self.trailersBuffer.isSome then (self.dataBuffer, self.count)
      else
        match self.dataBuffer with
        | some oldData => (some (oldData++newData), self.count+1)
        | none => (some newData, 1)
    if !bodyMode.isBuffered && (config.frameMergeLimit ≤ count ||
        config.frameMergeWindow ≤ now - self.lastMerge.getD now) then
      ({ self with dataBuffer := none, count := 0, lastMerge := some now }, dataBuffer.map .data)
    else ({ self with dataBuffer, count, lastMerge := some now }, none)
  | .trailers map =>
    let data := if bodyMode.isBuffered then none else self.dataBuffer.map .data
    ({ dataBuffer := if bodyMode.isBuffered then self.dataBuffer else none
       trailersBuffer := some map, count := 0, lastMerge := some now }, data)

def take (self : FramesBuffer) : FramesBuffer × Option BodyFrame :=
  match self.dataBuffer with
  | some bytes => ({ trailersBuffer := self.trailersBuffer }, some (.data bytes))
  | none => ({}, self.trailersBuffer.map .trailers)

def pushEndOfStream (self : FramesBuffer) : FramesBuffer :=
  if self.dataBuffer.isNone && self.trailersBuffer.isNone then { self with dataBuffer := some [] }
  else self

end FramesBuffer

structure ReadyStatus where
  headersModifications : Option HeaderMutation := none
  clearRouteCache : Bool := false
  deriving DecidableEq

inductive DirectResponse where
  | gatewayTimeout
  | internalServerError (body : Str)
  | immediate (response : Response)

inductive ProcessingStatus where
  | ready (kind : MessageType) (status : ReadyStatus)
  | haltedOnError
  | endWithDirectResponse (response : DirectResponse)

inductive Message where
  | headers (headers : HeaderMap) (endOfStream : Bool)
  | body (bytes : Str) (endOfStream : Bool)
  | trailers (map : HeaderMap)
  deriving DecidableEq

inductive ResponseStatus where
  | continue
  | continueAndReplace
  deriving DecidableEq

inductive BodyMutation where
  | body (bytes : Str)
  | clearBody (clear : Bool)
  | streamedResponse (bytes : Str)
  deriving DecidableEq

structure CommonResponse where
  status : ResponseStatus := .continue
  headerMutation : Option HeaderMutation := none
  bodyMutation : Option BodyMutation := none
  trailers : Option HeaderMap := none
  clearRouteCache : Bool := false
  deriving DecidableEq

/-- The frame that a mutation puts in the place of a chunk. -/
def CommonResponse.replacement (self : CommonResponse) : Option BodyFrame :=
  match self.bodyMutation with
  | some (.body bytes) => some (.data bytes)
  | some (.clearBody true) => some (.data [])
  | some (.clearBody false) | none => none
  | some (.streamedResponse bytes) => some (.data bytes)

variable {ρ : Type} (config : Config ρ)

def statusTimeout : ProcessingStatus :=
  if config.failureModeAllow then .haltedOnError else .endWithDirectResponse .gatewayTimeout

def statusError (msg : Str) : ProcessingStatus :=
  if config.failureModeAllow then .haltedOnError
  else .endWithDirectResponse (.internalServerError msg)

def statusInternalError (msg : Str) : ProcessingStatus :=
  .endWithDirectResponse (.internalServerError msg)

def shouldClearRouteCache (response : CommonResponse) : Bool :=
  match config.routeCacheAction with
  | .clear => true
  | .retain => false
  | .default => response.clearRouteCache

/-- The state of the worker for one type of message. `complete` is the variable of the
loop that says that the source is not read any more. What the code does not keep:
the tasks are counted, so that a reply channel has a number; the answers on reply
channels are logged; `original` has the frames of the body that the filter was given,
and `waiting` the messages that the processor has not answered. -/
structure Processing where
  frameBridge : FrameBridge := {}
  replyChannel : Option ℕ := none
  streamingBodyEnabled : Bool := false
  endOfStream : Bool := false
  framesBuffer : FramesBuffer := {}
  inflightFrames : List BodyFrame := []
  parkedTrailers : Option HeaderMap := none
  trailers : Option HeaderMap := none
  headersReadyStatus : Option ReadyStatus := none
  complete : Bool := false
  tasks : ℕ := 0
  answered : List (ℕ × ProcessingStatus) := []
  original : List FrameResult := []
  waiting : List Message := []

namespace Processing
variable {ρ : Type} [RegexEngine ρ] (crate : HttpCrate) (config : Config ρ) (kind : MessageType)
  (modes : Modes) (self : Processing) (status : ProcessingStatus)

def returnStatus : Processing :=
  match self.replyChannel with
  | some reply => { self with replyChannel := none, answered := self.answered++[(reply, status)] }
  | none => self

lemma returnStatus_eq (s : Processing) (st : ProcessingStatus) : s.returnStatus st = { s with
      replyChannel := none
      answered := (s.returnStatus st).answered } := by
  unfold returnStatus
  split
  · rfl
  next h => rw [← h]

def setStreamingBody (value : Bool) : Processing :=
  { self with streamingBodyEnabled := value, endOfStream := self.endOfStream || !value }

def tryEnableStreamingBody : Processing :=
  if self.frameBridge.sourceHasBodyOrTrailers then { self with streamingBodyEnabled := true }
  else { self with frameBridge := self.frameBridge.close }

def injectFrame (frame : BodyFrame) : Processing :=
  { self with frameBridge := self.frameBridge.injectFrame (.ok frame) }

variable (bridge : FrameBridge)

def willSendBody : Bool :=
  modes.shouldProcessBody && bridge.sourceHasBody.getD true

def willSendTrailers : Bool :=
  modes.shouldProcessTrailers && bridge.sourceHasTrailers.getD true

/-- `update_end_stream` in the phase of the headers. -/
def endsWithHeaders : Bool :=
  !willSendBody modes bridge && !willSendTrailers modes bridge

/-- Whether the status waits for the whole body. -/
def waitsForBody : Bool :=
  modes.bodyMode.isBuffered && modes.shouldProcessBody && bridge.sourceHasBody = some true

def processHeaders (headers : HeaderMap) : Processing × Option Message :=
  let endOfStream := endsWithHeaders modes self.frameBridge
  let self := { self with endOfStream }
  let self :=
    if config.sendBodyWithoutWaitingForHeaderResponse && !endOfStream then
      self.setStreamingBody true
    else self
  (self, some (.headers headers endOfStream))

def processBodyAndTrailers : Processing :=
  let streamingEnabled := self.frameBridge.sourceHasBodyOrTrailers
  let self := self.tryEnableStreamingBody
  if waitsForBody modes self.frameBridge && streamingEnabled then self
  else self.returnStatus (.ready kind {})

/-- A task begins; the message is for the processor. -/
def process (headers : Option HeaderMap) (frameBridge : FrameBridge)
    (original : List FrameResult) : Processing × Option Message :=
  let self := { self with
    replyChannel := some self.tasks, tasks := self.tasks+1, frameBridge, original }
  match headers, modes.shouldProcessHeaders with
  | some headers, true => self.processHeaders config modes headers
  | _, _ =>
    if frameBridge.sourceHasBodyOrTrailers &&
        (modes.shouldProcessBody || modes.shouldProcessTrailers) then
      (self.processBodyAndTrailers kind modes, none)
    else
      let self := self.returnStatus (.ready kind {})
      ({ self with frameBridge := self.frameBridge.drainAndInject.close }, none)

/-- The messages that a reply to the headers is not for stay. -/
def answerHeaders : Processing :=
  { self with waiting := self.waiting.eraseP fun | .headers _ _ => true | _ => false }

def answerBody : Processing :=
  { self with waiting := self.waiting.eraseP fun | .body _ _ => true | _ => false }

def answerTrailers : Processing :=
  { self with waiting := self.waiting.eraseP fun | .trailers _ => true | _ => false }

/-- Whether a reply to the headers ends the work on the body. -/
def headersEnd : Bool :=
  !bridge.sourceHasBodyOrTrailers || (!modes.shouldProcessBody && !modes.shouldProcessTrailers)

variable (response : CommonResponse)

def handleHeadersResponse : Processing :=
  let clearRouteCache := shouldClearRouteCache config response
  if waitsForBody modes self.frameBridge && response.status ≠ .continueAndReplace then
    { self with
      headersReadyStatus := some ⟨response.headerMutation,clearRouteCache⟩ }.tryEnableStreamingBody
  else
    let self := self.returnStatus (.ready kind ⟨response.headerMutation,clearRouteCache⟩)
    if response.status = .continueAndReplace then
      let bridge :=
        match response.replacement with
        | some newBody => self.frameBridge.injectFrame (.ok newBody)
        | none => self.frameBridge
      { self with
        frameBridge := (bridge.injectTrailers response.trailers).close }.setStreamingBody false
    else if headersEnd modes self.frameBridge then
      { self with frameBridge := self.frameBridge.drainAndInject.close }.setStreamingBody false
    else self.tryEnableStreamingBody

/-- The status after a reply to a chunk, with what the reply to the headers had. -/
def bodyStatus : ProcessingStatus :=
  let ready := self.headersReadyStatus
  .ready kind
    { clearRouteCache := (kind = .request && shouldClearRouteCache config response) ||
        ready.any (·.clearRouteCache)
      headersModifications :=
        concatHeaderMutations (ready.bind (·.headersModifications)) response.headerMutation }

def returnBodyStatus : Processing :=
  if self.replyChannel.isSome then
    { self.returnStatus (self.bodyStatus config kind response) with headersReadyStatus := none }
  else self

def injectChunk : Processing :=
  let self :=
    match response.replacement with
    | some newChunk => self.injectFrame newChunk
    | none =>
      match self.inflightFrames with
      | frame::_ => self.injectFrame frame
      | [] => self
  { self with inflightFrames := self.inflightFrames.drop 1 }

/-- Also whether the message timeout is still active. -/
def handleBodyResponse (timeoutActive : Bool) : Processing × Bool :=
  let self := (self.returnBodyStatus config kind response).injectChunk response
  if response.status = .continueAndReplace then
    ({ self with frameBridge := self.frameBridge.close }.setStreamingBody false, false)
  else if self.endOfStream && self.inflightFrames.isEmpty then
    ({ self with
       frameBridge := self.frameBridge.drainAndClose [] self.parkedTrailers
       parkedTrailers := none }.setStreamingBody false, false)
  else (self, timeoutActive)

def handleTrailersResponse (headerMutation : Option HeaderMutation) : Processing :=
  match self.trailers with
  | some trailers =>
    let self := { self with trailers := none }.returnStatus (.ready kind {})
    let trailers := HeaderMutations.handleTrailersResponse ρ crate trailers headerMutation
    { self with
      frameBridge := (self.frameBridge.injectFrame (.ok (.trailers trailers))).close
      }.setStreamingBody false
  | none =>
    let status := statusError config (str "handle_trailers_response: No trailers to process")
    let self := self.returnStatus status
    { self with frameBridge := self.frameBridge.close }.setStreamingBody false

def bufferEndOfStream : Processing :=
  if modes.shouldProcessBody && !self.endOfStream then
    let self :=
      if !modes.shouldProcessTrailers then
        { self with
          parkedTrailers := self.framesBuffer.trailersBuffer
          framesBuffer := { self.framesBuffer with trailersBuffer := none } }
      else self
    { self with framesBuffer := self.framesBuffer.pushEndOfStream }
  else self

lemma bufferEndOfStream_eq (s : Processing) : ∃ framesBuffer parkedTrailers,
    s.bufferEndOfStream modes = { s with framesBuffer, parkedTrailers } := by
  unfold bufferEndOfStream
  split_ifs
  · exact ⟨_,_,rfl⟩
  · exact ⟨_,_,rfl⟩
  · exact ⟨_,_,rfl⟩

/-- Trailers are kept for the reply. -/
def handleOutgoingBodyChunk (chunk : BodyFrame) (endOfStream : Bool) : Processing × Message :=
  match chunk with
  | .data bytes => (self, .body bytes endOfStream)
  | .trailers map => ({ self with trailers := some map }, .trailers map)

def recover : Processing :=
  let self := self.returnStatus status
  { self with
    frameBridge := self.frameBridge.drainAndClose self.inflightFrames self.parkedTrailers
    inflightFrames := []
    parkedTrailers := none }.setStreamingBody false

def abort (error : ExtProcError) : Processing :=
  let self := self.returnStatus status
  { self with
    frameBridge := (self.frameBridge.injectFrame (.error (.extProc error))).close
    }.setStreamingBody false

end Processing

structure TimeoutState where
  duration : ℕ
  active : Bool := false
  extended : Bool := false
  deriving DecidableEq

structure BidiStream where
  lost : Bool := false
  deriving DecidableEq

structure Worker where
  running : Bool := true
  bidiStream : Option BidiStream := none
  timeoutState : TimeoutState
  overridableModes : MessageType → Modes
  processing : MessageType → Processing := fun _ => {}

/-- How the outside behaves when a message is forwarded. -/
structure Outcome where
  connects : Bool := true
  sends : Bool := true
  deriving DecidableEq

inductive Inbound where
  | overrideMessageTimeout (seconds nanos : ℕ)
  | immediateResponse (response : ImmediateResponse)
  | headers (kind : MessageType) (response : Option CommonResponse)
      (modeOverride : Option ModeOverride)
  | body (kind : MessageType) (response : Option CommonResponse)
  | trailers (kind : MessageType) (headerMutation : Option HeaderMutation)
  | unsupported (text : Str)
  | closed
  | error (message : Str)

/-- One turn of the loop. A task comes with the body mode in which the filter prepared
it; a poll of a source with the outcomes for a data frame and for trailers. -/
inductive Event where
  | task (kind : MessageType) (headers : Option HeaderMap) (prepared : BodyMode) (body : Body)
      (outcome : Outcome)
  | channelClosed
  | inbound (message : Inbound)
  | bodyFrame (kind : MessageType) (now : ℕ) (onData onTrailers : Outcome)
  | messageTimeout

namespace Worker
variable {ρ : Type} [RegexEngine ρ] (crate : HttpCrate) (config : Config ρ) (kind : MessageType)

def new : Worker where
  timeoutState := { duration := config.messageTimeout }
  overridableModes := config.processingMode.modes

variable (self : Worker)

def modify (f : Processing → Processing) : Worker :=
  { self with processing := Function.update self.processing kind (f (self.processing kind)) }

def modifyBoth (f : Processing → Processing) : Worker :=
  { self with processing := fun kind => f (self.processing kind) }

def setTimeoutActive (active : Bool) : Worker :=
  { self with timeoutState := { self.timeoutState with active } }

/-- The end of the loop, or a panic: the bridges are dropped. -/
def finish : Worker :=
  { self.modifyBoth fun p => { p with frameBridge := p.frameBridge.drop } with running := false }

def sent (message : Message) : Worker :=
  (self.modify kind fun p => { p with waiting := p.waiting++[message] }).setTimeoutActive true

/-- The first message goes out with the call that opens the stream. If there is no
connection, nothing else happens. -/
def forwardToExternalProcessor (message : Message) (outcome : Outcome) : Worker :=
  match self.bidiStream with
  | none =>
    if outcome.connects then { self with bidiStream := some {} }.sent kind message else self
  | some stream =>
    if outcome.sends && !stream.lost then self.sent kind message
    else
      let status := statusError config (str "Lost connection to external processor")
      let self := self.modifyBoth (·.returnStatus status)
      { self with bidiStream := some { lost := true } }.setTimeoutActive false

def startTask (headers : Option HeaderMap) (bridge : FrameBridge)
    (original : List FrameResult) (outcome : Outcome) : Worker :=
  let (processing, message) := (self.processing kind).process config kind
    (self.overridableModes kind) headers bridge original
  let self := self.modify kind fun _ => processing
  match message with
  | some message => self.forwardToExternalProcessor config kind message outcome
  | none => self

def recoverOrFailure (err : ExtProcError) (logMsg : Str) : Worker :=
  let status :=
    match err with
    | .timeout _ => statusTimeout config
    | _ => statusError config logMsg
  let self :=
    if config.failureModeAllow then self.modifyBoth (·.recover status)
    else self.modifyBoth (·.abort status err)
  self.setTimeoutActive false

/-- None if the durations cannot be added. -/
def extendedTimeout (seconds nanos : ℕ) : Option ℕ :=
  if seconds+nanos / 1000000000 < 2^64 then
    let asked := seconds*1000000000+nanos
    let asked := if asked < 1000000 then config.messageTimeout else asked
    some (config.maxMessageTimeout.elim asked (min asked))
  else none

def handleTimeoutExtension (seconds nanos : ℕ) : Worker :=
  if self.timeoutState.extended then
    let msg := str "External processor attempted multiple timeout extensions"
    (self.modifyBoth (·.returnStatus (statusError config msg))).finish
  else
    match extendedTimeout config seconds nanos with
    | some duration =>
      { self with timeoutState := { self.timeoutState with duration, extended := true } }
    | none => self.finish

def drainOpenBridge : Worker :=
  self.modify kind fun p =>
    let p := p.returnStatus (.ready kind {})
    { p with frameBridge := p.frameBridge.drainAndInject.close }

/-- An immediate response where the configuration does not allow one. -/
def rejectImmediateResponse : Worker :=
  if config.failureModeAllow then
    if (self.processing .request).frameBridge.injector then self.drainOpenBridge .request
    else if (self.processing .response).frameBridge.injector then self.drainOpenBridge .response
    else self
  else
    let status := statusInternalError
      (str "ext_proc returned an immediate response despite being disabled by configuration")
    self.modifyBoth fun p =>
      let p := p.returnStatus status
      { p with frameBridge :=
          p.frameBridge.injectFrame (.error (.extProc (.timeout (str "immediate response disabled")))) }

/-- An immediate response for a message whose status is not returned yet. -/
def answerImmediately (response : ImmediateResponse) (trailers : Option HeaderMap) : Worker :=
  let response := buildDirectResponse crate config.mutationRules response
  (self.modify kind fun p =>
    let p := p.returnStatus (.endWithDirectResponse (.immediate response))
    { p with
      frameBridge := p.frameBridge.drainAndClose p.inflightFrames trailers
      inflightFrames := [] }.setStreamingBody false).setTimeoutActive false

def handleImmediateResponse (response : ImmediateResponse) : Worker :=
  -- both branches take the parked trailers of the request
  let trailers := (self.processing .request).parkedTrailers
  let takeParked := fun self : Worker => self.modify .request fun p =>
    { p with parkedTrailers := none }
  if (self.processing .request).replyChannel.isSome then
    (takeParked self).answerImmediately crate config .request response trailers
  else if (self.processing .response).replyChannel.isSome then
    (takeParked self).answerImmediately crate config .response response trailers
  else
    (self.modifyBoth fun p =>
      { p with frameBridge := p.frameBridge.close }.setStreamingBody false).setTimeoutActive false

/-- The modes after a reply to the headers: one to those of the request may change both. -/
def overrideModes (modeOverride : Option ModeOverride) : Worker :=
  match config.allowModeOverride, modeOverride with
  | true, some asked =>
    { self with overridableModes := fun k =>
        if kind = .request ∨ k = .response then
          applyModeOverrides config.allowedOverrideModes asked (self.overridableModes k) k
        else self.overridableModes k }
  | _, _ => self

def handleHeaders (response : CommonResponse) (modeOverride : Option ModeOverride) : Worker :=
  let self := self.overrideModes config kind modeOverride
  (self.modify kind fun p => (p.answerHeaders).handleHeadersResponse config kind
    (self.overridableModes kind) response).setTimeoutActive false

def handleBody (response : CommonResponse) : Worker :=
  let (processing, active) := ((self.processing kind).answerBody).handleBodyResponse config kind
    response self.timeoutState.active
  (self.modify kind fun _ => processing).setTimeoutActive active

def handleTrailers (headerMutation : Option HeaderMutation) : Worker :=
  (self.modify kind fun p => (p.answerTrailers).handleTrailersResponse crate config kind
    headerMutation).setTimeoutActive false

def receive : Inbound → Worker
  | .overrideMessageTimeout seconds nanos => self.handleTimeoutExtension config seconds nanos
  | .immediateResponse response =>
    if config.disableImmediateResponse then (self.rejectImmediateResponse config).finish
    else (self.handleImmediateResponse crate config response).finish
  -- a reply without a response is taken for impossible
  | .headers _ none _ | .body _ none => self.finish
  | .headers kind (some response) modeOverride =>
    self.handleHeaders config kind response modeOverride
  | .body kind (some response) => self.handleBody config kind response
  | .trailers kind headerMutation => self.handleTrailers crate config kind headerMutation
  | .unsupported text =>
    (self.recoverOrFailure config (.unsupportedResponseType text)
      (str "unsupported response message received: " ++ text)).finish
  | .closed =>
    (self.recoverOrFailure config .unexpectedEof
      (str "stream closed by the external processor")).finish
  | .error message =>
    (self.recoverOrFailure config (.grpcError message)
      (str "gRPC error received from external processor: " ++ message)).finish

variable (frame : BodyFrame)

/-- A copy of the frame goes to the processor; the frame stays in flight. -/
def sendChunk (endOfStream : Bool) (outcome : Outcome) : Worker :=
  let (processing, message) :=
    (self.processing kind).handleOutgoingBodyChunk frame endOfStream
  let self := self.modify kind fun _ => processing
  let self := self.forwardToExternalProcessor config kind message outcome
  self.modify kind fun p => { p with inflightFrames := p.inflightFrames++[frame] }

def passOn : Worker :=
  self.modify kind fun p => (p.returnStatus (.ready kind {})).injectFrame frame

def handleFrame (now : ℕ) (outcome : Outcome) : Worker :=
  let bodyMode := (self.overridableModes kind).bodyMode
  let (framesBuffer, frameToSend) :=
    (self.processing kind).framesBuffer.push config frame now bodyMode
  let self := self.modify kind fun p => { p with framesBuffer }
  match frameToSend with
  | some frameToSend =>
    if bodyMode = .none then self.passOn kind frameToSend
    else self.sendChunk config kind frameToSend false outcome
  | none => self

/-- One turn of the loop that empties the buffer at the end of the body. -/
def takeLast (onData onTrailers : Outcome) : Worker :=
  let (framesBuffer, lastFrame) := (self.processing kind).framesBuffer.take
  let self := self.modify kind fun p => { p with framesBuffer }
  match lastFrame with
  | some (.data bytes) =>
    if (self.overridableModes kind).shouldProcessBody then
      self.sendChunk config kind (.data bytes) framesBuffer.trailersBuffer.isNone onData
    else self.passOn kind (.data bytes)
  | some (.trailers map) =>
    if (self.overridableModes kind).shouldProcessTrailers then
      self.sendChunk config kind (.trailers map) true onTrailers
    else self.modify kind fun p => { p with parkedTrailers := some map }
  | none => self

/-- There is at most one data frame in the buffer and then trailers, so that the loop
has two turns. -/
def emptyBuffer (onData onTrailers : Outcome) : Worker :=
  (self.takeLast config kind onData onTrailers).takeLast config kind onData onTrailers

def closeIfDone : Worker :=
  if (self.processing kind).inflightFrames.isEmpty then
    (self.modify kind fun p =>
      let p := p.returnStatus (.ready kind {})
      { p with
        frameBridge := p.frameBridge.drainAndClose [] p.parkedTrailers
        parkedTrailers := none }).setTimeoutActive false
  else self

def ending : Worker :=
  self.modify kind fun p =>
    { p with complete := true }.bufferEndOfStream (self.overridableModes kind)

def handleEnd (onData onTrailers : Outcome) : Worker :=
  let self := (self.ending kind).emptyBuffer config kind onData onTrailers
  (self.closeIfDone kind).modify kind (·.setStreamingBody false)

def advance (rest : List FrameResult) : Worker :=
  self.modify kind fun p => { p with frameBridge := { p.frameBridge with source := rest } }

/-- The status of an error of the source is computed and not returned. -/
def pollSource (now : ℕ) (onData onTrailers : Outcome) : Worker :=
  match (self.processing kind).frameBridge.source with
  | .ok frame::rest => (self.advance kind rest).handleFrame config kind frame now onData
  | .error _::rest => (self.advance kind rest).modify kind fun p => { p with complete := true }
  | [] => self.handleEnd config kind onData onTrailers

def streamingEnabled : Bool := (self.processing .request).streamingBodyEnabled ||
    (self.processing .response).streamingBodyEnabled

def outboundEnabled : Bool :=
  (self.processing kind).streamingBodyEnabled && !(self.processing kind).complete

def next (event : Event) : Option Worker :=
  if self.running then
    match event with
    | .task kind headers prepared body outcome =>
      if self.streamingEnabled then none
      else
        (prepareProcessingData config.maxReceiveMessageLength prepared body).map fun bridge =>
          self.startTask config kind headers bridge body.frames outcome
    | .channelClosed => if self.streamingEnabled then none else some self.finish
    | .inbound message =>
      if self.bidiStream.isSome then some (self.receive crate config message) else none
    | .bodyFrame kind now onData onTrailers =>
      if self.outboundEnabled kind then some (self.pollSource config kind now onData onTrailers)
      else none
    | .messageTimeout =>
      if self.timeoutState.active then
        some (self.recoverOrFailure config (.timeout (str "message timeout"))
          (str "processing_loop: message timeout")).finish
      else none
  else none

abbrev Step (event : Event) (after : Worker) : Prop :=
  self.next crate config event = some after

lemma of_step {c : HttpCrate} {co : Config ρ} {s a : Worker} {e : Event} (h : s.Step c co e a) :
    s.running = true ∧ match e with
      | .task kind he p b outcome =>
        s.streamingEnabled = false ∧ ∃ bridge,
          prepareProcessingData co.maxReceiveMessageLength p b = some bridge ∧
          a = s.startTask co kind he bridge b.frames outcome
      | .channelClosed => s.streamingEnabled = false ∧ a = s.finish
      | .inbound me =>
        s.bidiStream.isSome = true ∧ a = s.receive c co me
      | .bodyFrame kind now onData onTrailers =>
        s.outboundEnabled kind = true ∧ a = s.pollSource co kind now onData onTrailers
      | .messageTimeout =>
        s.timeoutState.active = true ∧ a = (s.recoverOrFailure co (.timeout (str "message timeout"))
            (str "processing_loop: message timeout")).finish := by
  unfold Step next at h
  split at h
  next hr =>
    refine ⟨hr,?_⟩
    cases e with
    | task kind he p b outcome =>
      obtain ⟨hst,h⟩ := ite_none_left_eq_some.mp h
      obtain ⟨bridge,hb,rfl⟩ := map_eq_some_iff.mp h
      exact ⟨Bool.eq_false_iff.mpr hst,bridge,hb,rfl⟩
    | channelClosed =>
      obtain ⟨hst,h⟩ := ite_none_left_eq_some.mp h
      exact ⟨Bool.eq_false_iff.mpr hst,(some.inj h).symm⟩
    | inbound me =>
      obtain ⟨hsr,h⟩ := ite_none_right_eq_some.mp h
      exact ⟨hsr,(some.inj h).symm⟩
    | bodyFrame kind now onData onTrailers =>
      obtain ⟨ho,h⟩ := ite_none_right_eq_some.mp h
      exact ⟨ho,(some.inj h).symm⟩
    | messageTimeout =>
      obtain ⟨ha,h⟩ := ite_none_right_eq_some.mp h
      exact ⟨ha,(some.inj h).symm⟩
  · cases h

end Worker

namespace Worker
variable {ρ : Type} (self : Worker) (kind : MessageType) {other : MessageType} (f : Processing → Processing)

@[simp] lemma processing_modify_self :
    (self.modify kind f).processing kind = f (self.processing kind) := Function.update_self ..

lemma processing_modify_of_ne (h : other ≠ kind) :
    (self.modify kind f).processing other = self.processing other := Function.update_of_ne h ..

attribute [simps -fullyApplied running bidiStream timeoutState overridableModes] modify

attribute [simps -fullyApplied processing bidiStream running overridableModes] setTimeoutActive

@[simp] lemma processing_finish : self.finish.processing =
      fun k => { self.processing k with frameBridge := (self.processing k).frameBridge.drop } := rfl

@[simp] lemma bidiStream_finish : self.finish.bidiStream = self.bidiStream := rfl

variable (c : Config ρ) (m : Message) (ou : Outcome)

lemma processing_forward (o : MessageType) : ∃ replyChannel answered waiting,
    (self.forwardToExternalProcessor c kind m ou).processing o =
      { self.processing o with replyChannel, answered, waiting } := by
  have hse : ∀ s, ∃ waiting, ({ self with bidiStream := s }.sent kind m).processing o =
        { self.processing o with waiting } := by
    intro s
    by_cases h : o = kind
    · subst h
      refine ⟨(self.processing o).waiting++[m],?_⟩
      rw [sent,setTimeoutActive_processing,processing_modify_self]
    · refine ⟨(self.processing o).waiting,?_⟩
      rw [sent,setTimeoutActive_processing,processing_modify_of_ne _ _ _ h]
  unfold forwardToExternalProcessor
  split
  · split_ifs
    · exact ⟨_,_,hse (some {})⟩
    · exact ⟨_,_,_,rfl⟩
  · split_ifs
    · exact ⟨_,_,hse self.bidiStream⟩
    · exact ⟨_,_,_,Processing.returnStatus_eq ..⟩

@[simp] lemma overridableModes_forward :
    (self.forwardToExternalProcessor c kind m ou).overridableModes = self.overridableModes := by
  unfold forwardToExternalProcessor
  split <;> split_ifs <;> rfl

@[simp] lemma running_forward :
    (self.forwardToExternalProcessor c kind m ou).running = self.running := by
  unfold forwardToExternalProcessor
  split <;> split_ifs <;> rfl

lemma processing_sendChunk (co : Config ρ) (fr : BodyFrame) (e : Bool)
    (o : Outcome) : ∃ replyChannel answered waiting trailers,
    (self.sendChunk co kind fr e o).processing kind = { self.processing kind with
        inflightFrames := (self.processing kind).inflightFrames++[fr]
        replyChannel, answered, waiting, trailers } := by
  unfold sendChunk
  obtain ⟨reply,answered,waiting,hf⟩ := processing_forward (self.modify kind fun _ =>
      ((self.processing kind).handleOutgoingBodyChunk fr e).1) kind co
    ((self.processing kind).handleOutgoingBodyChunk fr e).2 o kind
  rw [processing_modify_self,hf,processing_modify_self]
  cases fr with
  | data bytes => exact ⟨reply,answered,waiting,_,rfl⟩
  | trailers map => exact ⟨reply,answered,waiting,some map,rfl⟩

def setBuffer (framesBuffer : FramesBuffer) : Worker :=
  self.modify kind fun p => { p with framesBuffer }

/-- Data goes to the processor or is passed on. -/
def emit (config : Config ρ) (frame : Option BodyFrame) (endOfStream : Bool) (outcome : Outcome) :
    Worker :=
  match frame with
  | some frame =>
    if (self.overridableModes kind).shouldProcessBody then
      self.sendChunk config kind frame endOfStream outcome
    else self.passOn kind frame
  | none => self

/-- Trailers go to the processor or are parked. -/
def emitTrailers (config : Config ρ) (trailers : Option HeaderMap) (outcome : Outcome) : Worker :=
  match trailers with
  | some map =>
    if (self.overridableModes kind).shouldProcessTrailers then
      self.sendChunk config kind (.trailers map) true outcome
    else self.modify kind fun p => { p with parkedTrailers := some map }
  | none => self

lemma processing_setBuffer (framesBuffer : FramesBuffer) :
    (self.setBuffer kind framesBuffer).processing kind = { self.processing kind with framesBuffer } :=
  self.processing_modify_self kind _

lemma setBuffer_of_eq {fb : FramesBuffer} (h : (self.processing kind).framesBuffer = fb) :
    self.setBuffer kind fb = self := by
  rw [setBuffer,modify,← h,Function.update_eq_self]

lemma setBuffer_setBuffer (fi second : FramesBuffer) :
    (self.setBuffer kind fi).setBuffer kind second = self.setBuffer kind second := by
  rw [setBuffer,modify,processing_setBuffer,setBuffer,setBuffer,modify,modify,Function.update_idem]

section
variable (co : Config ρ) (outcome onData onTrailers : Outcome)

lemma overridableModes_emit (fr : Option BodyFrame) (e : Bool) :
    (self.emit kind co fr e outcome).overridableModes = self.overridableModes := by
  unfold emit
  split
  · split_ifs <;> simp [sendChunk,passOn]
  · rfl

lemma framesBuffer_emit (fr : Option BodyFrame) (e : Bool) :
    ((self.emit kind co fr e outcome).processing kind).framesBuffer =
      (self.processing kind).framesBuffer := by
  unfold emit
  split
  next fr =>
    split_ifs
    · obtain ⟨_,_,_,_,h⟩ := self.processing_sendChunk kind co fr e outcome
      rw [h]
    · rw [passOn,processing_modify_self,Processing.returnStatus_eq]
      rfl
  · rfl

lemma framesBuffer_emitTrailers (t : Option HeaderMap) :
    ((self.emitTrailers kind co t outcome).processing kind).framesBuffer =
      (self.processing kind).framesBuffer := by
  unfold emitTrailers
  split
  next map =>
    split_ifs
    · obtain ⟨_,_,_,_,h⟩ := self.processing_sendChunk kind co (.trailers map) true outcome
      rw [h]
    · rw [processing_modify_self]
  · rfl

variable {bu : FramesBuffer} (h : (self.processing kind).framesBuffer = bu)
include h

lemma handleFrame_eq (fr : BodyFrame) (now : ℕ) : self.handleFrame co kind fr now outcome =
      (self.setBuffer kind (bu.push co fr now (self.overridableModes kind).bodyMode).1).emit
        kind co (bu.push co fr now (self.overridableModes kind).bodyMode).2 false outcome := by
  unfold handleFrame emit
  rw [h]
  dsimp only
  split
  · by_cases hm : (self.overridableModes kind).bodyMode = .none
    · rw [if_pos hm,if_neg (by simp [setBuffer,Modes.shouldProcessBody,hm])]
      rfl
    · rw [if_neg hm,if_pos (by simp [setBuffer,Modes.shouldProcessBody,hm])]
      rfl
  · rfl

lemma takeLast_of_data {b : Str} (hd : bu.dataBuffer = some b) :
    self.takeLast co kind onData onTrailers =
      (self.setBuffer kind { trailersBuffer := bu.trailersBuffer }).emit kind co
        (some (.data b)) bu.trailersBuffer.isNone onData := by
  unfold takeLast FramesBuffer.take
  rw [h,hd]
  rfl

lemma takeLast_of_none (hd : bu.dataBuffer = none) : self.takeLast co kind onData onTrailers =
      (self.setBuffer kind {}).emitTrailers kind co bu.trailersBuffer onTrailers := by
  unfold takeLast FramesBuffer.take
  rw [h,hd]
  cases bu.trailersBuffer <;> rfl

lemma emptyBuffer_eq : self.emptyBuffer co kind onData onTrailers =
      (((self.setBuffer kind { trailersBuffer := bu.trailersBuffer }).emit kind co
        (bu.dataBuffer.map .data) bu.trailersBuffer.isNone onData).setBuffer kind
        {}).emitTrailers kind co bu.trailersBuffer onTrailers := by
  unfold emptyBuffer
  cases hd : bu.dataBuffer with
  | some byt =>
    have hb := framesBuffer_emit (self.setBuffer kind
      { trailersBuffer := bu.trailersBuffer }) kind co onData (some (.data byt))
      bu.trailersBuffer.isNone
    rw [processing_setBuffer] at hb
    rw [self.takeLast_of_data kind co onData onTrailers h hd,
      takeLast_of_none _ kind co onData onTrailers hb rfl]
    rfl
  | none =>
    have hb := framesBuffer_emitTrailers (self.setBuffer kind {}) kind co onTrailers
      bu.trailersBuffer
    rw [processing_setBuffer] at hb
    rw [self.takeLast_of_none kind co onData onTrailers h hd,
      takeLast_of_none _ kind co onData onTrailers hb rfl,setBuffer_of_eq (h := hb),
      map_none,emit,setBuffer_setBuffer]
    rfl

end

lemma startTask_eq (co : Config ρ) (headers : Option HeaderMap) (br : FrameBridge)
    (o : List FrameResult) (ou : Outcome) : ∃ processing me,
    (self.processing kind).process co kind (self.overridableModes kind) headers br
        o = (processing, me) ∧ self.startTask co kind headers br o ou = match me with
        | some me => (self.modify kind fun _ => processing).forwardToExternalProcessor co kind me ou
        | none => self.modify kind fun _ => processing :=
  ⟨_,_,rfl,rfl⟩

end Worker

end ArionGateway.ExtProcWorker
