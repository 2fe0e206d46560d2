import ArionGateway.ExtProcWorker

/-!
# Frames on their way through the worker

What is read from the original body and not yet in the body that is sent on is in
flight, in the buffer or parked. As long as the bridge is open, what was delivered,
what is held in these places, in this order, and what is still to be read should make up
the original body; once it is closed, what was delivered should. This says for the
operations of one type of message when they keep it so.
-/
namespace ArionGateway.ExtProcTransit
open Option
open BodyFrames ByteStrings ExtProcWorker HeaderMutations HttpHeaders StringMatchers FramesBuffer
open Processing (headersEnd injectChunk injectFrame process returnStatus_eq tryEnableStreamingBody
  waitsForBody)
open FrameBridge (close drainAndClose drainAndInject drop injectTrailers)

def bufferedFrames (buffer : FramesBuffer) : List BodyFrame :=
  (buffer.dataBuffer.map .data).toList++(buffer.trailersBuffer.map .trailers).toList

def parkedFrames (p : Processing) : List BodyFrame := (p.parkedTrailers.map .trailers).toList

/-- The frames between the source and the output, with those in hand after those in
flight. -/
def heldFrames (hand : List BodyFrame) (p : Processing) : List BodyFrame :=
  p.inflightFrames++(hand++(bufferedFrames p.framesBuffer++parkedFrames p))

/-- What the body that is sent on will have in the end, if nothing is lost. -/
def content (hand : List BodyFrame) (p : Processing) : List BodyToken :=
  tokens p.frameBridge.output ++ if p.frameBridge.injector then
      okTokens (heldFrames hand p)++tokens p.frameBridge.source
    else []

/-- Nothing is lost, added or moved. -/
def Intact (p : Processing) : Prop := content [] p = tokens p.original

/-- The buffer has nothing that the bridge still needs. -/
def Unbuffered (p : Processing) : Prop :=
  p.frameBridge.injector = true → (okTokens (bufferedFrames p.framesBuffer) : List BodyToken) = []

/-- Nothing is held that the bridge still needs. -/
def Unheld (p : Processing) : Prop :=
  p.frameBridge.injector = true → (okTokens (heldFrames [] p) : List BodyToken) = []

variable {ha : List BodyFrame} {p : Processing}

lemma content_of_open (h : p.frameBridge.injector = true) :
    content ha p = tokens p.frameBridge.output ++
      (okTokens (heldFrames ha p)++tokens p.frameBridge.source) := by
  rw [content,if_pos h]

lemma content_of_closed (h : p.frameBridge.injector = false) :
    content ha p = tokens p.frameBridge.output := by
  rw [content,h,if_neg Bool.false_ne_true,List.append_nil]

variable {ρ : Type} (c : Config ρ) (b : FramesBuffer)

/-- A frame that goes into the buffer is there or comes out; only what follows trailers
may be dropped. -/
lemma tokens_push {frame : BodyFrame} (now : ℕ) (bodyMode : BodyMode)
    (h : b.trailersBuffer.isSome = true → (frameTokens frame : List BodyToken) = []) :
    (okTokens ((b.push c frame now bodyMode).2.toList ++
        bufferedFrames (b.push c frame now bodyMode).1) : List BodyToken) =
      okTokens (bufferedFrames b++[frame]) := by
  obtain ⟨d,trailersBuffer,lastMerge,ct⟩ := b
  cases frame with
  | data n =>
    cases trailersBuffer with
    | none =>
      cases d <;> simp only [push,bufferedFrames,isSome_none,
        Bool.false_eq_true,if_false] <;> split_ifs <;> simp [frameTokens_data_append]
    | some map =>
      have hn := h rfl
      cases d <;> simp only [push,bufferedFrames,isSome_some] <;> split_ifs <;> simp [hn]
  | trailers map =>
    cases trailersBuffer with
    | none =>
      cases d <;> cases hm : bodyMode.isBuffered <;> simp [push,bufferedFrames,hm]
    | some la => cases h rfl

lemma tokens_pushEndOfStream : (okTokens (bufferedFrames b.pushEndOfStream) : List BodyToken) =
      okTokens (bufferedFrames b) := by
  unfold pushEndOfStream bufferedFrames
  cases hd : b.dataBuffer <;> cases ht : b.trailersBuffer <;> simp [hd,ht]

lemma content_push (config : Config ρ) (now : ℕ) (bodyMode : BodyMode) {frame : BodyFrame}
    {rest : List FrameResult} (hopen : p.frameBridge.injector = true)
    (hpa : p.parkedTrailers = none) (hso : p.frameBridge.source = .ok frame::rest)
    (hc : p.framesBuffer.trailersBuffer.isSome = true → (frameTokens frame : List BodyToken) = []) :
    content (p.framesBuffer.push config frame now bodyMode).2.toList { p with
      frameBridge := { p.frameBridge with source := rest }
      framesBuffer := (p.framesBuffer.push config frame now bodyMode).1 } = content [] p := by
  have hp := tokens_push config p.framesBuffer now bodyMode hc
  rw [okTokens_append] at hp
  simp only [content,heldFrames,parkedFrames,hpa,hso,okTokens_append,map_none,toList_none,List.append_nil]
  rw [hp]
  simp

lemma content_unbuffer {f : List BodyFrame} {b : FramesBuffer}
    (h : f++bufferedFrames b = bufferedFrames p.framesBuffer) :
    content f { p with framesBuffer := b } = content [] p := by
  simp only [content,heldFrames,parkedFrames,List.nil_append]
  rw [← List.append_assoc f,h]

lemma content_park (map : HeaderMap) (hp : p.parkedTrailers = none)
    (hb : bufferedFrames p.framesBuffer = []) :
    content [] { p with parkedTrailers := some map } = content [.trailers map] p := by
  simp [content,heldFrames,parkedFrames,hp,hb]

lemma content_pushEndOfStream (p : Processing) :
    content [] { p with framesBuffer := p.framesBuffer.pushEndOfStream } = content [] p := by
  simp [content,heldFrames,parkedFrames,tokens_pushEndOfStream]

lemma content_bufferEndOfStream (m : Modes) (hp : p.parkedTrailers = none) :
    content [] (p.bufferEndOfStream m) = content [] p := by
  unfold Processing.bufferEndOfStream
  split_ifs
  · refine (content_pushEndOfStream _).trans ?_
    simp [content,heldFrames,parkedFrames,bufferedFrames,hp]
  · exact content_pushEndOfStream p
  · rfl

section
variable {bridge : FrameBridge}

lemma injectFrame_of_open (h : bridge.injector = true) (f : FrameResult) :
    bridge.injectFrame f = { bridge with output := bridge.output++[f] } := if_pos h

lemma injectFrame_of_closed (h : bridge.injector = false) (f : FrameResult) :
    bridge.injectFrame f = bridge := by
  rw [FrameBridge.injectFrame,h,if_neg Bool.false_ne_true]

lemma close_of_closed (h : bridge.injector = false) : bridge.close = bridge := by
  rw [close,← h]

lemma drop_of_open (h : bridge.injector = true) : bridge.drop = { bridge with
      output := bridge.output++bridge.source, source := [], injector := false } := by
  rw [drop,drainAndInject,if_pos h,close]

lemma drop_of_closed (h : bridge.injector = false) : bridge.drop = bridge := by
  rw [drop,drainAndInject,h,if_neg Bool.false_ne_true,close_of_closed h]

lemma foldl_injectFrame_of_open (h : bridge.injector = true) (f : List BodyFrame) :
    f.foldl (fun b fr => b.injectFrame (.ok fr)) bridge =
      { bridge with output := bridge.output++f.map .ok } := by
  induction f generalizing bridge with
  | nil => rw [List.foldl_nil,List.map_nil,List.append_nil]
  | cons fr f ih =>
    have hn : (bridge.injectFrame (.ok fr)).injector = true := by
      rw [injectFrame_of_open h,h]
    rw [List.foldl_cons,ih hn,injectFrame_of_open h,List.map_cons]
    rw [List.append_assoc,List.singleton_append]

lemma drainAndClose_of_open (h : bridge.injector = true) (f : List BodyFrame)
    (t : Option HeaderMap) : bridge.drainAndClose f t = { bridge with
      output := bridge.output++f.map .ok++bridge.source ++
        (t.map fun map => .ok (.trailers map)).toList
      source := []
      injector := false } := by
  rw [drainAndClose,foldl_injectFrame_of_open h]
  cases t <;> simp [drainAndInject,injectTrailers,FrameBridge.injectFrame,close,h]

lemma drainAndClose_of_closed (h : bridge.injector = false) (f : List BodyFrame)
    (t : Option HeaderMap) : bridge.drainAndClose f t = bridge := by
  have hf : f.foldl (fun b fr => b.injectFrame (.ok fr)) bridge = bridge := by
    induction f with
    | nil => rfl
    | cons fr f ih => rw [List.foldl_cons,injectFrame_of_closed h,ih]
  rw [drainAndClose,hf]
  cases t <;> simp [drainAndInject,injectTrailers,FrameBridge.injectFrame,close_of_closed,h]

/-- What is known of the source stays, and a closed bridge stays as it is. -/
structure KeptBridge (b c : FrameBridge) : Prop where
  has : c.sourceHasBodyOrTrailers = b.sourceHasBodyOrTrailers
  closed : b.injector = false → c.injector = false ∧ c.output = b.output

lemma KeptBridge.refl (b : FrameBridge) : KeptBridge b b := ⟨rfl,fun h => ⟨h,rfl⟩⟩

lemma KeptBridge.trans {b c d : FrameBridge} (hbc : KeptBridge b c) (hcd : KeptBridge c d) :
    KeptBridge b d where
  has := hcd.has.trans hbc.has
  closed h := by
    obtain ⟨hin,hou⟩ := hbc.closed h
    obtain ⟨hi,ho⟩ := hcd.closed hin
    exact ⟨hi,ho.trans hou⟩

variable (br : FrameBridge)

lemma keptBridge_injectFrame (f : FrameResult) : KeptBridge br (br.injectFrame f) := by
  cases h : br.injector with
  | false =>
    rw [injectFrame_of_closed h]
    exact .refl _
  | true =>
    rw [injectFrame_of_open h]
    exact ⟨rfl,fun hc => absurd (h.symm.trans hc) (by decide)⟩

lemma keptBridge_close : KeptBridge br br.close := ⟨rfl,fun _ => ⟨rfl,rfl⟩⟩

lemma keptBridge_drop : KeptBridge br br.drop := by
  cases h : br.injector with
  | false =>
    rw [drop_of_closed h]
    exact .refl _
  | true =>
    rw [drop_of_open h]
    exact ⟨rfl,fun hc => absurd (h.symm.trans hc) (by decide)⟩

lemma keptBridge_drainAndClose (f : List BodyFrame) (t : Option HeaderMap) :
    KeptBridge br (br.drainAndClose f t) := by
  cases h : br.injector with
  | false =>
    rw [drainAndClose_of_closed h]
    exact .refl _
  | true =>
    rw [drainAndClose_of_open h]
    exact ⟨rfl,fun hc => absurd (h.symm.trans hc) (by decide)⟩

end

/-- The processing is still for the same body. -/
structure Kept (p q : Processing) : Prop extends KeptBridge p.frameBridge q.frameBridge where
  original : q.original = p.original
  tasks : q.tasks = p.tasks

lemma Kept.refl (p : Processing) : Kept p p := ⟨.refl _,rfl,rfl⟩

lemma Kept.trans {p q r : Processing} (hpq : Kept p q) (hqr : Kept q r) : Kept p r :=
  ⟨hpq.toKeptBridge.trans hqr.toKeptBridge,hqr.original.trans hpq.original,
    hqr.tasks.trans hpq.tasks⟩

lemma append_dropped_iff {α : Type} {out xs ys all : List α} (h : out++(xs++ys) = all) :
    out++ys = all ↔ xs = [] := by
  rw [← h,List.append_cancel_left_eq,List.self_eq_append_left]

variable {p q : Processing}

lemma Intact.of_closed (h : Intact p) (hc : p.frameBridge.injector = false)
    (hk : KeptBridge p.frameBridge q.frameBridge) (ho : q.original = p.original) : Intact q := by
  obtain ⟨hi,hou⟩ := hk.closed hc
  rw [Intact,content_of_closed hc] at h
  rw [Intact,content_of_closed hi,hou,ho,h]

/-- A bridge that is dropped loses what is held. -/
lemma intact_dropped_iff (h : Intact p) (hb : q.frameBridge = p.frameBridge.drop)
    (ho : q.original = p.original) : Intact q ↔ Unheld p := by
  cases hopen : p.frameBridge.injector with
  | false =>
    have hk : KeptBridge p.frameBridge q.frameBridge := hb ▸ keptBridge_drop _
    exact iff_of_true (h.of_closed hopen hk ho) (by simp [Unheld,hopen])
  | true =>
    rw [Intact,content_of_open hopen] at h
    rw [drop_of_open hopen] at hb
    rw [Intact,content_of_closed (by rw [hb]),hb,ho,tokens_append,
      append_dropped_iff h,Unheld,hopen,imp_iff_right rfl]

lemma parked_comm (h : Intact p) (hopen : p.frameBridge.injector = true)
    (hproper : ProperTokens (tokens p.original)) :
    okTokens (parkedFrames p)++tokens p.frameBridge.source =
      tokens p.frameBridge.source++okTokens (parkedFrames p) := by
  rw [Intact,content_of_open hopen] at h
  cases hp : p.parkedTrailers with
  | none => simp [parkedFrames,hp]
  | some map =>
    have hsp : tokens p.original = (tokens p.frameBridge.output ++
        okTokens (p.inflightFrames++bufferedFrames p.framesBuffer)) ++
        .trailers map::tokens p.frameBridge.source := by
      rw [← h]
      simp [heldFrames,parkedFrames,hp]
    rw [hproper.after_trailers hsp,List.append_nil,List.nil_append]

/-- What is in flight or parked is flushed when the bridge is closed; the buffer is not. -/
lemma intact_flushed_iff (h : Intact p) (hproper : ProperTokens (tokens p.original))
    (hb : q.frameBridge = p.frameBridge.drainAndClose p.inflightFrames p.parkedTrailers)
    (ho : q.original = p.original) : Intact q ↔ Unbuffered p := by
  cases hopen : p.frameBridge.injector with
  | false =>
    have hk : KeptBridge p.frameBridge q.frameBridge := hb ▸ keptBridge_drainAndClose ..
    exact iff_of_true (h.of_closed hopen hk ho) (by simp [Unbuffered,hopen])
  | true =>
    have hc := parked_comm h hopen hproper
    rw [Intact,content_of_open hopen] at h
    rw [drainAndClose_of_open hopen] at hb
    have hpa : (tokens p.frameBridge.output++okTokens p.inflightFrames) ++
        (okTokens (bufferedFrames p.framesBuffer) ++
          (okTokens (parkedFrames p)++tokens p.frameBridge.source)) = tokens p.original := by
      simpa [heldFrames] using h
    have hou : tokens q.frameBridge.output =
        (tokens p.frameBridge.output++okTokens p.inflightFrames) ++
          (okTokens (parkedFrames p)++tokens p.frameBridge.source) := by
      rw [hc,hb]
      cases hp : p.parkedTrailers <;> simp [parkedFrames,hp]
    rw [Intact,content_of_closed (by rw [hb]),ho,hou,
      append_dropped_iff hpa,Unbuffered,hopen,imp_iff_right rfl]

/-- Only what the filter is told differs. -/
def SameBody (p q : Processing) : Prop :=
  ∃ replyChannel answered headersReadyStatus,
    q = { p with replyChannel, answered, headersReadyStatus }

variable {p q r : Processing}

lemma SameBody.refl (p : Processing) : SameBody p p := ⟨_,_,_,rfl⟩

lemma SameBody.trans (hpq : SameBody p q) (hqr : SameBody q r) : SameBody p r := by
  obtain ⟨_,_,_,rfl⟩ := hpq
  obtain ⟨_,_,_,rfl⟩ := hqr
  exact ⟨_,_,_,rfl⟩

lemma sameBody_returnStatus (p : Processing) (s : ProcessingStatus) :
    SameBody p (p.returnStatus s) := by
  rw [p.returnStatus_eq]
  exact ⟨_,_,_,rfl⟩

lemma SameBody.intact_iff (h : SameBody p q) : Intact q ↔ Intact p := by
  obtain ⟨_,_,_,rfl⟩ := h
  rfl

lemma SameBody.kept (h : SameBody p q) : Kept p q := by
  obtain ⟨_,_,_,rfl⟩ := h
  exact ⟨.refl _,rfl,rfl⟩

section
variable {ρ : Type} {co : Config ρ} {p : Processing} {response : CommonResponse}

lemma handleHeadersResponse_eq (p : Processing) (k : MessageType) (m : Modes)
    (hcontinue : response.status = .continue) : ∃ q, SameBody p q ∧
    p.handleHeadersResponse co k m response =
      if waitsForBody m p.frameBridge = false ∧ headersEnd m p.frameBridge = true then
        { q with frameBridge := p.frameBridge.drop }.setStreamingBody false
      else q.tryEnableStreamingBody := by
  have hr : response.status ≠ .continueAndReplace := by rw [hcontinue]; decide
  unfold Processing.handleHeadersResponse
  dsimp only
  rw [returnStatus_eq]
  cases hw : waitsForBody m p.frameBridge <;> cases he : headersEnd m p.frameBridge <;> simp [hr]
  all_goals exact ⟨_,⟨_,_,_,rfl⟩,rfl⟩

lemma kept_tryEnableStreamingBody (p : Processing) : Kept p p.tryEnableStreamingBody := by
  unfold tryEnableStreamingBody
  split_ifs
  · exact ⟨.refl _,rfl,rfl⟩
  · exact ⟨keptBridge_close _,rfl,rfl⟩

lemma kept_handleHeadersResponse (c : Config ρ) (p : Processing) (k : MessageType)
    (m : Modes) (hcontinue : response.status = .continue) :
    Kept p (p.handleHeadersResponse c k m response) := by
  obtain ⟨q,hq,heq⟩ := handleHeadersResponse_eq p k m hcontinue
  rw [heq]
  split_ifs
  · obtain ⟨_,_,_,rfl⟩ := hq
    exact ⟨keptBridge_drop _,rfl,rfl⟩
  · exact hq.kept.trans (kept_tryEnableStreamingBody q)

section

variable (h : Intact p)
    (he : p.frameBridge.sourceHasBodyOrTrailers = false → tokens p.original = [])
include h he

lemma intact_tryEnableStreamingBody : Intact p.tryEnableStreamingBody := by
  unfold tryEnableStreamingBody
  split_ifs with hh
  · exact h
  · have hn := he (Bool.eq_false_iff.mpr hh)
    have ho : tokens p.frameBridge.output = [] := by
      rw [Intact,hn] at h
      exact (List.append_eq_nil_iff.mp h).1
    rw [Intact,content_of_closed rfl]
    exact ho.trans hn.symm

end

lemma intact_injectChunk_iff (hk : response.replacement = none) :
    Intact (p.injectChunk response) ↔ Intact p := by
  unfold injectChunk
  rw [hk]
  cases hf : p.inflightFrames with
  | nil =>
    have hsa : { p with inflightFrames := p.inflightFrames.drop 1 } = p := by
      rw [hf,List.drop_nil,← hf]
    exact iff_of_eq (congrArg Intact hsa)
  | cons fr f =>
    cases hopen : p.frameBridge.injector with
    | false => simp [Intact,content,injectFrame,injectFrame_of_closed,hopen]
    | true =>
      simp [Intact,content,heldFrames,parkedFrames,injectFrame,injectFrame_of_open,hopen,hf]

lemma injectChunk_eq (p : Processing) (re : CommonResponse) :
    ∃ frameBridge, frameBridge.injector = p.frameBridge.injector ∧
      KeptBridge p.frameBridge frameBridge ∧ p.injectChunk re =
        { p with frameBridge, inflightFrames := p.inflightFrames.tail } := by
  have hi : ∀ fr, (p.frameBridge.injectFrame fr).injector = p.frameBridge.injector := by
    intro fr
    unfold FrameBridge.injectFrame
    split_ifs <;> rfl
  unfold injectChunk
  simp only [List.drop_one]
  split
  · exact ⟨_,hi _,keptBridge_injectFrame ..,rfl⟩
  · split
    · exact ⟨_,hi _,keptBridge_injectFrame ..,rfl⟩
    · exact ⟨_,rfl,.refl _,rfl⟩

lemma sameBody_returnBodyStatus (c : Config ρ) (k : MessageType) (p : Processing)
    (re : CommonResponse) : SameBody p (p.returnBodyStatus c k re) := by
  unfold Processing.returnBodyStatus
  split_ifs
  · rw [p.returnStatus_eq]
    exact ⟨_,_,_,rfl⟩
  · exact .refl p

section

variable (co : Config ρ) (p : Processing) (k : MessageType) (a : Bool)
    (hco : response.status = .continue)
include hco

lemma handleBodyResponse_eq : ∃ q, SameBody p q ∧ (p.handleBodyResponse co k response a).1 =
      if p.endOfStream = true ∧ p.inflightFrames.tail = [] then
        { q.injectChunk response with
          frameBridge := (q.injectChunk response).frameBridge.drainAndClose [] q.parkedTrailers
          parkedTrailers := none }.setStreamingBody false
      else q.injectChunk response := by
  have hr : response.status ≠ .continueAndReplace := by rw [hco]; decide
  obtain ⟨_,_,_,hst⟩ := sameBody_returnBodyStatus co k p response
  refine ⟨_,⟨_,_,_,hst⟩,?_⟩
  unfold Processing.handleBodyResponse
  rw [if_neg hr]
  obtain ⟨bridge,-,-,hch⟩ := injectChunk_eq (p.returnBodyStatus co k response) response
  rw [hch,hst]
  by_cases hc : p.endOfStream = true ∧ p.inflightFrames.tail = []
  · simp [hc]
  · simp [hc]

lemma kept_handleBodyResponse : Kept p (p.handleBodyResponse co k response a).1 := by
  obtain ⟨q,⟨_,_,_,rfl⟩,heq⟩ := handleBodyResponse_eq co p k a hco
  obtain ⟨bridge,-,hk,hc⟩ := injectChunk_eq { p with
    replyChannel := _, answered := _, headersReadyStatus := _ } response
  rw [heq,hc]
  split_ifs
  · exact ⟨hk.trans (keptBridge_drainAndClose ..),rfl,rfl⟩
  · exact ⟨hk,rfl,rfl⟩

end

lemma intact_handleBodyResponse_iff {k : MessageType} (h : Intact p)
    (hproper : ProperTokens (tokens p.original)) (hcontinue : response.status = .continue)
    (hk : response.replacement = none) (a : Bool) :
    Intact (p.answerBody.handleBodyResponse co k response a).1 ↔
      (p.endOfStream = true → p.inflightFrames.tail = [] → Unbuffered p) := by
  obtain ⟨q,⟨_,_,_,hq⟩,heq⟩ := handleBodyResponse_eq co p.answerBody k a hcontinue
  have hintact : Intact (q.injectChunk response) := by
    rw [intact_injectChunk_iff hk,hq]
    exact h
  obtain ⟨bridge,hi,-,hc⟩ := injectChunk_eq q response
  rw [heq,← and_imp]
  split_ifs with hco
  · refine Iff.trans ?_ (imp_iff_right hco).symm
    have hb : Unbuffered (q.injectChunk response) ↔ Unbuffered p := by
      rw [hc,Unbuffered,hi,hq]
      rfl
    have hf : (q.injectChunk response).inflightFrames = [] := by
      rw [hc,hq]
      exact hco.2
    rw [← hb]
    refine intact_flushed_iff hintact ?_ ?_ rfl
    · rw [hc,hq]
      exact hproper
    · rw [hf,hc]
      rfl
  · exact iff_of_true hintact fun hn => absurd hn hco

def messageFrame : Message → Option BodyFrame
  | .headers _ _ => none
  | .body bytes _ => some (.data bytes)
  | .trailers map => some (.trailers map)

/-- The original body is well formed, and empty if the bridge says that it has nothing. -/
structure Sourced (p : Processing) : Prop where
  proper : ProperTokens (tokens p.original)
  ended : p.frameBridge.sourceHasBodyOrTrailers = false → tokens p.original = []

/-- The frames in flight are those the processor was asked about, in this order, and,
once the stream is lost, those it could not be asked about; the trailers that it was
asked about are kept for the reply. -/
structure Asked (lost : Bool) (p : Processing) : Prop where
  flight : ∃ unsent, p.inflightFrames = p.waiting.filterMap messageFrame++unsent ∧
    (unsent ≠ [] → lost = true)
  trailers : ∀ map, .trailers map ∈ p.waiting → p.trailers = some map

/-- While the bridge is open, either the source is to be read, now or after the reply to the
headers, or all of it was read and something is in flight. -/
structure Tracked (lost : Bool) (p : Processing) : Prop extends Asked lost p where
  parked : p.complete = false → p.parkedTrailers = none
  reading : p.complete = false → p.streamingBodyEnabled = true ∨
    (∃ headers endOfStream, .headers headers endOfStream ∈ p.waiting) ∨ lost = true
  complete : p.complete = true → p.endOfStream = true ∧ p.inflightFrames ≠ []

variable {cn : Config ρ} {ki : MessageType} {m : Modes} {l : Bool} {q : Processing}
  {re : CommonResponse} {rest : List FrameResult}

lemma Asked.mono (h : Asked l p) {a : Bool} (hl : l = true → a = true) : Asked a p := by
  obtain ⟨u,hf,hu⟩ := h.flight
  exact ⟨⟨u,hf,fun hne => hl (hu hne)⟩,h.trailers⟩

lemma Tracked.mono (h : Tracked l p) {a : Bool} (hl : l = true → a = true) : Tracked a p where
  toAsked := h.toAsked.mono hl
  parked := h.parked
  reading hr := (h.reading hr).imp_right (Or.imp_right hl)
  complete := h.complete

lemma SameBody.tracked (h : SameBody p q) (hp : Tracked l p) : Tracked l q := by
  obtain ⟨_,_,_,rfl⟩ := h
  exact ⟨⟨hp.flight,hp.trailers⟩,hp.parked,hp.reading,hp.complete⟩

lemma SameBody.injector (h : SameBody p q) : q.frameBridge.injector = p.frameBridge.injector := by
  obtain ⟨_,_,_,rfl⟩ := h
  rfl

lemma Asked.sent {f : BodyFrame} {m : Message} (h : Asked false p)
    (hm : messageFrame m = some f) : ∃ u, p.inflightFrames++[f] =
      (p.waiting++[m]).filterMap messageFrame++u ∧ (u ≠ [] → false = true) := by
  obtain ⟨u,hf,hu⟩ := h.flight
  obtain rfl : u = [] := by
    by_contra hne
    cases hu hne
  exact ⟨[],by simp [hf,hm],fun hne => absurd rfl hne⟩

lemma not_waiting_trailers (h : Asked l p) (hproper : ProperTokens (tokens p.original))
    (hintact : Intact p) (hopen : p.frameBridge.injector = true) {map : HeaderMap}
    (hb : p.framesBuffer.trailersBuffer.isSome = true) : .trailers map ∉ p.waiting := by
  intro hm
  obtain ⟨la,hl⟩ := isSome_iff_exists.mp hb
  obtain ⟨u,hf,-⟩ := h.flight
  have hfr : .trailers map ∈ p.inflightFrames := by
    rw [hf]
    exact List.mem_append_left _ (List.mem_filterMap.mpr ⟨_,hm,rfl⟩)
  obtain ⟨be,after,hsp⟩ := List.append_of_mem hfr
  rw [Intact,content_of_open hopen] at hintact
  have hr : tokens p.original = (tokens p.frameBridge.output++okTokens be)++.trailers map ::
        (okTokens (after++(bufferedFrames p.framesBuffer++parkedFrames p)) ++
          tokens p.frameBridge.source) := by
    rw [← hintact]
    simp [heldFrames,hsp]
  have hn := hproper.after_trailers hr
  simp [bufferedFrames,hl] at hn

section

variable (hp : ProperTokens (tokens p.original)) (hi : Intact p)
    (ho : p.frameBridge.injector = true)
include hp hi ho

lemma frameTokens_after_trailers {frame : BodyFrame} (hso : p.frameBridge.source = .ok frame::rest)
    (hb : p.framesBuffer.trailersBuffer.isSome = true) :
    (frameTokens frame : List BodyToken) = [] := by
  obtain ⟨la,hl⟩ := isSome_iff_exists.mp hb
  rw [Intact,content_of_open ho] at hi
  have hr : tokens p.original = (tokens p.frameBridge.output++okTokens (p.inflightFrames ++
      (p.framesBuffer.dataBuffer.map .data).toList))++.trailers la ::
        (okTokens (parkedFrames p)++(frameTokens frame++tokens rest)) := by
    rw [← hi]
    simp [heldFrames,bufferedFrames,hl,hso]
  have hn := hp.after_trailers hr
  exact (List.append_eq_nil_iff.mp (List.append_eq_nil_iff.mp hn).2).1

lemma source_ne_error {e : BodyError} : p.frameBridge.source ≠ .error e::rest := by
  intro hso
  rw [Intact,content_of_open ho,hso] at hi
  have hm : .error e ∈ tokens p.original := by
    rw [← hi]
    simp [itemTokens]
  obtain ⟨bt,map,ht⟩ := hp
  rw [ht] at hm
  cases map <;> simp at hm

end

lemma filterMap_answerHeaders (p : Processing) :
    p.answerHeaders.waiting.filterMap messageFrame = p.waiting.filterMap messageFrame := by
  unfold Processing.answerHeaders
  induction p.waiting with
  | nil => rfl
  | cons me w ih => cases me <;> simp [List.filterMap_cons,messageFrame,ih]

lemma Tracked.handleHeadersResponse (h : Tracked l p) (hcontinue : re.status = .continue)
    (hopen : (p.answerHeaders.handleHeadersResponse cn ki m re).frameBridge.injector = true) :
    Tracked l (p.answerHeaders.handleHeadersResponse cn ki m re) := by
  obtain ⟨q,⟨_,_,_,rfl⟩,heq⟩ := handleHeadersResponse_eq p.answerHeaders ki m hcontinue
  rw [heq] at hopen ⊢
  split_ifs at hopen ⊢ with hc
  · cases hopen
  · unfold tryEnableStreamingBody at hopen ⊢
    split_ifs at hopen ⊢
    · exact {
        flight := by
          obtain ⟨u,hf,hu⟩ := h.flight
          exact ⟨u,by rw [filterMap_answerHeaders]; exact hf,hu⟩
        trailers := fun map hm => h.trailers map (List.mem_of_mem_eraseP hm)
        parked := h.parked
        reading := fun _ => .inl rfl
        complete := h.complete }
    · cases hopen

lemma Tracked.handleBodyResponse (h : Tracked l p) {b : Str} {e a : Bool}
    (hw : p.waiting.head? = some (.body b e)) (hcontinue : re.status = .continue)
    (hopen : (p.answerBody.handleBodyResponse cn ki re a).1.frameBridge.injector = true) :
    Tracked l (p.answerBody.handleBodyResponse cn ki re a).1 := by
  obtain ⟨waiting,hco⟩ := List.head?_eq_some_iff.mp hw
  obtain ⟨q,⟨_,_,_,hq⟩,heq⟩ := handleBodyResponse_eq cn p.answerBody ki a hcontinue
  have hr : p.answerBody.waiting = waiting := by
    rw [Processing.answerBody,hco]
    rfl
  rw [heq] at hopen ⊢
  split_ifs at hopen ⊢ with hcn
  · cases hopen
  · obtain ⟨bridge,-,-,hch⟩ := injectChunk_eq q re
    rw [hch,hq]
    exact {
      flight := by
        obtain ⟨u,hf,hu⟩ := h.flight
        refine ⟨u,?_,hu⟩
        rw [hco] at hf
        change p.inflightFrames.tail = p.answerBody.waiting.filterMap messageFrame++u
        rw [hr,hf]
        rfl
      trailers := fun map hm => by
        refine h.trailers map ?_
        rw [hco]
        exact List.mem_cons_of_mem _ (hr ▸ hm)
      parked := h.parked
      reading := fun hre => by
        refine (h.reading hre).imp_right (Or.imp_left ?_)
        rintro ⟨hd,eos,hm⟩
        rw [hco] at hm
        exact ⟨hd,eos,hr.symm ▸ (List.mem_cons.mp hm).resolve_left nofun⟩
      complete := fun hc => by
        refine ⟨(h.complete hc).1,fun hn => hcn ⟨(h.complete hc).1,hn⟩⟩ }

variable [RegexEngine ρ] {cr : HttpCrate} {cf : Config ρ} {kn : MessageType} {lo : Bool}

lemma kept_handleTrailersResponse (c : HttpCrate) (co : Config ρ) (k : MessageType)
    (p : Processing) (hm : Option HeaderMutation) :
    Kept p (p.handleTrailersResponse c co k hm) := by
  unfold Processing.handleTrailersResponse
  split
  · rw [returnStatus_eq]
    exact ⟨(keptBridge_injectFrame ..).trans (keptBridge_close _),rfl,rfl⟩
  · dsimp only
    rw [returnStatus_eq]
    exact ⟨keptBridge_close _,rfl,rfl⟩

lemma intact_handleTrailersResponse (h : Intact p) (hproper : ProperTokens (tokens p.original))
    {map : HeaderMap} (hw : p.waiting.head? = some (.trailers map))
    (ha : p.frameBridge.injector = true → Asked lo p) :
    Intact (p.answerTrailers.handleTrailersResponse cr cf kn none) := by
  obtain ⟨w,hc⟩ := List.head?_eq_some_iff.mp hw
  cases hopen : p.frameBridge.injector with
  | false =>
    have hk := kept_handleTrailersResponse cr cf kn p.answerTrailers none
    exact h.of_closed hopen hk.toKeptBridge hk.original
  | true =>
    obtain ⟨u,hf,-⟩ := (ha hopen).flight
    have ht : p.answerTrailers.trailers = some map :=
      (ha hopen).trailers map (hc ▸ List.mem_cons_self)
    have hr : tokens p.original = tokens p.frameBridge.output++.trailers map ::
        (okTokens (w.filterMap messageFrame++u ++
          (bufferedFrames p.framesBuffer++parkedFrames p)) ++ tokens p.frameBridge.source) := by
      rw [← h,content_of_open hopen]
      simp [heldFrames,hf,hc,messageFrame]
    rw [hproper.after_trailers hr] at hr
    unfold Processing.handleTrailersResponse
    rw [ht]
    rw [returnStatus_eq,Intact,content_of_closed rfl]
    change tokens (p.frameBridge.injectFrame (.ok (.trailers map))).output = tokens p.original
    rw [injectFrame_of_open hopen,hr,tokens_append]
    rfl

end

lemma tokens_collect {l : ℕ} {frames : List FrameResult} (h : Proper frames) {bt : Str}
    {t : Option HeaderMap} (hc : collect l frames = some (bt, t)) :
    tokens (toBuffered bt t).frames = tokens frames := by
  obtain ⟨ch,map,rfl⟩ := h
  have hb : ∀ (bt : Str) (t : Option HeaderMap), tokens (toBuffered bt t).frames =
        frameTokens (.data bt)++tokens (t.toList.map fun map => .ok (.trailers map)) := by
    intro bt t
    cases bt with
    | nil => rfl
    | cons b bt => simp [toBuffered]
  rw [hb]
  induction ch generalizing l bt t with
  | nil =>
    cases map <;> cases hc <;> rfl
  | cons chu ch ih =>
    rw [List.map_cons,List.cons_append] at hc ⊢
    unfold collect at hc
    split_ifs at hc
    obtain ⟨⟨rest,mo⟩,hr,heq⟩ := map_eq_some_iff.mp hc
    cases heq
    rw [tokens_cons,← ih hr,frameTokens_data_append,itemTokens_ok,List.append_assoc]

variable {bd : FrameBridge}

lemma prepared_spec {l : ℕ} {pr : BodyMode} {b : Body} (hb : Proper b.frames)
    (h : prepareProcessingData l pr b = some bd) :
    bd.injector = true ∧ bd.output = [] ∧ tokens bd.source = tokens b.frames ∧
      (bd.sourceHasBodyOrTrailers = false → tokens b.frames = []) := by
  have hended : ∀ b : Body, (!b.isEndStream) = false → tokens b.frames = [] := by
    intro b he
    rw [b.ended (by simpa using he)]
    rfl
  rcases prepareProcessingData_cases h with ⟨bt,-,rfl⟩ | ⟨byt,trailers,_,hc,rfl⟩
  · exact ⟨rfl,rfl,rfl,hended b⟩
  · have ht := tokens_collect hb hc
    exact ⟨rfl,rfl,ht,fun he => ht ▸ hended (toBuffered byt trailers) he⟩

def Untouched (p : Processing) : Prop := SameBody {} p

structure Begun (original : List FrameResult) (p : Processing) (message : Option Message) :
    Prop where
  intact : Intact p
  original_eq : p.original = original
  tasks : p.tasks ≠ 0
  waiting : p.waiting = []
  flight : p.inflightFrames = []
  complete : p.complete = false
  parked : p.parkedTrailers = none
  headers : ∀ m, message = some m → ∃ headers endOfStream, m = .headers headers endOfStream
  reading : message = none → p.frameBridge.injector = true → p.streamingBodyEnabled = true

lemma process_begun {ρ : Type} {c : Config ρ} {k : MessageType} {mo : Modes}
    {p q : Processing} {headers : Option HeaderMap} {o : List FrameResult}
    {me : Option Message} (hp : Untouched p) (hi : bd.injector = true)
    (ho : bd.output = []) (hso : tokens bd.source = tokens o)
    (h : p.process c k mo headers bd o = (q, me)) :
    Begun o q me ∧ q.frameBridge.sourceHasBodyOrTrailers = bd.sourceHasBodyOrTrailers := by
  obtain ⟨_,_,_,rfl⟩ := hp
  have hintact : ∀ p, p.frameBridge = bd → p.original = o → heldFrames [] p = [] → Intact p := by
    rintro p rfl rfl hh
    rw [Intact,content_of_open hi,hh,ho,hso]
    rfl
  unfold process at h
  split at h
  · cases h
    split_ifs
    all_goals exact ⟨⟨hintact _ rfl rfl rfl,rfl,nofun,rfl,rfl,rfl,rfl,
        fun m hm => ⟨_,_,(some.inj hm).symm⟩,nofun⟩,rfl⟩
  · split_ifs at h with hw
    · obtain ⟨hha,-⟩ := Bool.and_eq_true_iff.mp hw
      simp only [Processing.processBodyAndTrailers,tryEnableStreamingBody] at h
      cases h
      split_ifs
      · exact ⟨⟨hintact _ rfl rfl rfl,rfl,nofun,rfl,rfl,rfl,rfl,nofun,fun _ _ => rfl⟩,rfl⟩
      · exact ⟨⟨hintact _ rfl rfl rfl,rfl,nofun,rfl,rfl,rfl,rfl,nofun,fun _ _ => rfl⟩,rfl⟩
    · cases h
      have hd : bd.drainAndInject.close = _ := drop_of_open hi
      rw [returnStatus_eq]
      rw [hd]
      refine ⟨⟨?_,rfl,nofun,rfl,rfl,rfl,rfl,nofun,nofun⟩,rfl⟩
      rw [Intact,content_of_closed rfl]
      simpa [ho] using hso

end ArionGateway.ExtProcTransit
