import ArionGateway.ExtProcMoves
import ArionGateway.ExtProcTransit

/-!
# Delivery of bodies through the worker

If the processor only says to continue, a body should leave the worker as it came in,
also if the processor fails on the way and failures are allowed. It does not if the
worker ends while a part of the body is where the way it ends does not look: recovering
from a failure does not look into the buffer, and dropping a bridge, as after an immediate
response that is disabled, looks only at what is not read yet. The runs that
deliver are exactly those whose steps meet `Safe`.
-/
namespace ArionGateway.ExtProcDelivery
open BodyFrames ByteStrings Executions ExtProcMoves ExtProcTransit ExtProcWorker HeaderMutations
  HttpHeaders StringMatchers List
open Processing (bufferEndOfStream injectFrame recover returnStatus_eq)

open Worker (processing_modify_self closeIfDone handleEnd pollSource emit)
def lost (s : Worker) : Bool := s.bidiStream.any (·.lost)

section
variable {ρ : Type} (config : Config ρ)

/-- One body for each type of message, which is well formed; the processor says to continue,
without a change, and answers the messages in their order, or fails. -/
def Agreeable (s : Worker) : Event → Prop
  | .task kind _ _ body outcome =>
    (s.processing kind).tasks = 0 ∧ Proper body.frames ∧ outcome.connects = true
  | .bodyFrame _ _ onData onTrailers => onData.connects = true ∧ onTrailers.connects = true
  | .inbound (.immediateResponse _) => config.disableImmediateResponse = true
  | .inbound (.headers kind (some response) _) =>
    response.status = .continue ∧ ∃ headers endOfStream,
      (s.processing kind).waiting.head? = some (.headers headers endOfStream)
  | .inbound (.body kind (some response)) =>
    response.status = .continue ∧ response.replacement = none ∧ ∃ bytes endOfStream,
      (s.processing kind).waiting.head? = some (.body bytes endOfStream)
  | .inbound (.trailers kind headerMutation) =>
    headerMutation = none ∧ ∃ map, (s.processing kind).waiting.head? = some (.trailers map)
  | _ => True

def passed (s : Worker) (kind : MessageType) (now : ℕ) : List BodyFrame :=
  let p := s.processing kind
  let bodyMode := (s.overridableModes kind).bodyMode
  if bodyMode = .none then
    match p.frameBridge.source with
    | .ok frame::_ => (p.framesBuffer.push config frame now bodyMode).2.toList
    | .error _::_ => []
    | [] => (p.framesBuffer.dataBuffer.map .data).toList
  else []

/-- When a step loses or moves nothing. -/
def Safe (s : Worker) : Event → Prop
  | .task .. => True
  | .channelClosed => ∀ kind, Unheld (s.processing kind)
  | .inbound (.overrideMessageTimeout seconds nanos) =>
    s.timeoutState.extended = true ∨ Worker.extendedTimeout config seconds nanos = none →
      ∀ kind, Unheld (s.processing kind)
  | .inbound (.immediateResponse _) => ∀ kind, Unheld (s.processing kind)
  | .inbound (.headers _ none _) | .inbound (.body _ none) => ∀ kind, Unheld (s.processing kind)
  | .inbound (.headers kind (some _) modeOverride) =>
    let modes := (s.overrideModes config kind modeOverride).overridableModes kind
    Processing.waitsForBody modes (s.processing kind).frameBridge = false →
      Processing.headersEnd modes (s.processing kind).frameBridge = true →
        Unheld (s.processing kind)
  | .inbound (.body kind (some _)) =>
    (s.processing kind).endOfStream = true → (s.processing kind).inflightFrames.tail = [] →
      Unbuffered (s.processing kind)
  | .inbound (.trailers ..) => True
  | .inbound (.unsupported _) | .inbound .closed | .inbound (.error _) | .messageTimeout =>
    ∀ kind, Unbuffered (s.processing kind)
  | .bodyFrame kind now _ _ =>
    (s.processing kind).frameBridge.injector = true →
      (okTokens (passed config s kind now)++okTokens (s.processing kind).inflightFrames :
          List BodyToken) =
        okTokens (s.processing kind).inflightFrames++okTokens (passed config s kind now)

/-- Nothing changes but the processing of one type of message and what the filter is told. -/
structure Elsewhere (kind : MessageType) (s t : Worker) : Prop where
  running : t.running = s.running
  lost : lost s = true → lost t = true
  others : ∀ other, other ≠ kind → SameBody (s.processing other) (t.processing other)

/-- The processing goes on with its body. -/
structure Local (kind : MessageType) (s t : Worker) : Prop extends Elsewhere kind s t where
  modes : t.overridableModes = s.overridableModes
  kept : Kept (s.processing kind) (t.processing kind)

variable {c : Config ρ} {s t u : Worker} {k : MessageType} {o od ot : Outcome}

lemma Local.refl (k : MessageType) (s : Worker) : Local k s s :=
  ⟨⟨rfl,fun h => h,fun _ _ => .refl _⟩,rfl,.refl _⟩

lemma Elsewhere.trans (hst : Elsewhere k s t) (htu : Elsewhere k t u) : Elsewhere k s u where
  running := htu.running.trans hst.running
  lost h := htu.lost (hst.lost h)
  others other h := (hst.others other h).trans (htu.others other h)

lemma Local.trans (hst : Local k s t) (htu : Local k t u) : Local k s u where
  toElsewhere := hst.toElsewhere.trans htu.toElsewhere
  modes := htu.modes.trans hst.modes
  kept := hst.kept.trans htu.kept

lemma elsewhere_modify (s : Worker) (f : Processing → Processing) :
    Elsewhere k s (s.modify k f) where
  running := rfl
  lost h := h
  others other h := by
    rw [s.processing_modify_of_ne k f h]
    exact .refl _

lemma local_modify {f : Processing → Processing}
    (hf : Kept (s.processing k) (f (s.processing k))) : Local k s (s.modify k f) where
  toElsewhere := elsewhere_modify s f
  modes := rfl
  kept := by
    rw [processing_modify_self]
    exact hf

lemma forward_cases (c : Config ρ) (s : Worker) (k : MessageType) (m : Message)
    (hc : o.connects = true) :
    (lost s = false ∧ lost (s.forwardToExternalProcessor c k m o) = false ∧
      (s.forwardToExternalProcessor c k m o).processing =
        (s.modify k fun p => { p with waiting := p.waiting++[m] }).processing) ∨
    (lost (s.forwardToExternalProcessor c k m o) = true ∧ ∀ oh, SameBody (s.processing oh)
        ((s.forwardToExternalProcessor c k m o).processing oh)) := by
  unfold Worker.forwardToExternalProcessor
  cases hst : s.bidiStream with
  | none =>
    refine .inl ⟨by simp [lost,hst],?_,?_⟩ <;> dsimp only <;> rw [if_pos hc] <;> rfl
  | some st =>
    dsimp only
    split_ifs with hse
    · have hk : st.lost = false := by simpa using (Bool.and_eq_true_iff.mp hse).2
      refine .inl ⟨by simp [lost,hst,hk],?_,rfl⟩
      change lost s = false
      simp [lost,hst,hk]
    · exact .inr ⟨rfl,fun oh => sameBody_returnStatus ..⟩

section

variable (s : Worker) (k : MessageType)

lemma local_forward (m : Message) (hc : o.connects = true) :
    Local k s (s.forwardToExternalProcessor c k m o) := by
  have hrunning := s.running_forward k c m o
  have hm := s.overridableModes_forward k c m o
  rcases forward_cases c s k m hc with ⟨hk,-,heq⟩ | ⟨hl,hsa⟩
  · refine ⟨⟨hrunning,fun hl => ?_,fun oh ho => ?_⟩,hm,?_⟩
    · rw [hk] at hl
      cases hl
    · rw [heq,s.processing_modify_of_ne k _ ho]
      exact .refl _
    · rw [heq,processing_modify_self]
      exact ⟨.refl _,rfl,rfl⟩
  · exact ⟨⟨hrunning,fun _ => hl,fun oh _ => hsa oh⟩,hm,(hsa k).kept⟩

lemma local_moves {os : List Outcome} (h : Moves k os s t)
    (hc : ∀ o ∈ os, o.connects = true) : Local k s t := by
  induction h with
  | nil => exact .refl k _
  | edit q h _ ih =>
    refine (local_modify ?_).trans (ih hc)
    cases h with
    | pass st f =>
      rw [returnStatus_eq]
      exact ⟨keptBridge_injectFrame ..,rfl,rfl⟩
    | fields => exact ⟨.refl _,rfl,rfl⟩
  | forward c m o _ ih =>
    exact (local_forward _ k m (hc o mem_cons_self)).trans
      (ih fun o ho => hc o (mem_cons_of_mem _ ho))

lemma local_closeIfDone : Local k s (s.closeIfDone k) := by
  unfold closeIfDone
  split_ifs
  · have hc : Local k s (s.modify k fun p =>
        let p := p.returnStatus (.ready k {})
        { p with
          frameBridge := p.frameBridge.drainAndClose [] p.parkedTrailers
          parkedTrailers := none }) := by
      refine local_modify ?_
      rw [returnStatus_eq]
      exact ⟨keptBridge_drainAndClose ..,rfl,rfl⟩
    exact ⟨⟨hc.running,hc.lost,hc.others⟩,hc.modes,hc.kept⟩
  · exact .refl k s

lemma local_ending : Local k s (s.ending k) := by
  obtain ⟨_,_,heq⟩ :=
    { s.processing k with complete := true }.bufferEndOfStream_eq (s.overridableModes k)
  refine local_modify ?_
  rw [heq]
  exact ⟨.refl _,rfl,rfl⟩

lemma local_advance (re : List FrameResult) : Local k s (s.advance k re) :=
  local_modify ⟨⟨rfl,fun h => ⟨h,rfl⟩⟩,rfl,rfl⟩

lemma local_pollSource (now : ℕ) (hd : od.connects = true) (ht : ot.connects = true) :
    Local k s (s.pollSource c k now od ot) := by
  unfold pollSource
  split
  · obtain ⟨_,he⟩ := emits_handleFrame (s.modify k _) k c od _ now
    exact (local_advance s k _).trans (local_moves _ k he.moves (by simp +contextual [hd]))
  · exact (local_advance s k _).trans (local_modify ⟨.refl _,rfl,rfl⟩)
  · have he : Local k (s.ending k) ((s.ending k).emptyBuffer c k od ot) :=
      local_moves _ k (emits_emptyBuffer _ k c od ot rfl).moves (by simp +contextual [or_imp,hd,ht])
    unfold handleEnd
    exact (((local_ending s k).trans he).trans (local_closeIfDone _ k)).trans
      (local_modify ⟨.refl _,rfl,rfl⟩)

end

variable {co : Config ρ} {ki : MessageType} {frame : BodyFrame} {eos : Bool} {ou : Outcome}

def keptTrailers (frame : BodyFrame) (old : Option HeaderMap) : Option HeaderMap :=
  match frame with
  | .data _ => old
  | .trailers map => some map

lemma handleOutgoingBodyChunk_eq (p : Processing) (f : BodyFrame) (eos : Bool) :
    ∃ m, messageFrame m = some f ∧ p.handleOutgoingBodyChunk f eos =
      ({ p with trailers := keptTrailers f p.trailers }, m) := by
  cases f <;> exact ⟨_,rfl,rfl⟩

lemma sendChunk_cases (c : Config ρ) (s : Worker) (k : MessageType) (f : BodyFrame)
    (eos : Bool) (hc : ou.connects = true) :
    ∃ m q, messageFrame m = some f ∧ SameBody (s.processing k) q ∧
      ((lost s = false ∧ lost (s.sendChunk c k f eos ou) = false ∧
        (s.sendChunk c k f eos ou).processing k = { q with
          inflightFrames := q.inflightFrames++[f]
          waiting := q.waiting++[m]
          trailers := keptTrailers f q.trailers }) ∨
      (lost (s.sendChunk c k f eos ou) = true ∧ (s.sendChunk c k f eos ou).processing k = { q with
          inflightFrames := q.inflightFrames++[f]
          trailers := keptTrailers f q.trailers })) := by
  obtain ⟨m,hm,heq⟩ := handleOutgoingBodyChunk_eq (s.processing k) f eos
  unfold Worker.sendChunk
  rw [heq]
  rw [processing_modify_self]
  rcases forward_cases c (s.modify k fun _ => { s.processing k with
      trailers := keptTrailers f (s.processing k).trailers }) k m hc with
    ⟨hke,ha,hp⟩ | ⟨hl,hsa⟩
  · refine ⟨m,s.processing k,hm,.refl _,.inl ⟨hke,ha,?_⟩⟩
    rw [hp,processing_modify_self,processing_modify_self]
  · have hk := hsa k
    rw [processing_modify_self] at hk
    obtain ⟨rc,answered,headersReadyStatus,hk⟩ := hk
    refine ⟨m,_,hm,⟨rc,answered,headersReadyStatus,rfl⟩,.inr ⟨hl,?_⟩⟩
    rw [hk]

lemma content_sendChunk (s : Worker) (k : MessageType) (f : BodyFrame) (eos : Bool) (o : Outcome) :
    content [] ((s.sendChunk co k f eos o).processing k) = content [f] (s.processing k) := by
  obtain ⟨_,_,_,_,heq⟩ := s.processing_sendChunk k co f eos o
  rw [heq]
  simp [content,heldFrames,parkedFrames]

lemma asked_sendChunk (h : Asked (lost s) (s.processing ki)) (hc : ou.connects = true)
    (hf : ∀ la, frame = .trailers la → ∀ map, .trailers map ∉ (s.processing ki).waiting) :
    Asked (lost (s.sendChunk co ki frame eos ou))
      ((s.sendChunk co ki frame eos ou).processing ki) := by
  have hw : ∀ map, .trailers map ∈ (s.processing ki).waiting →
      keptTrailers frame (s.processing ki).trailers = some map := by
    intro map hme
    cases frame with
    | data b => exact h.trailers map hme
    | trailers la => exact absurd hme (hf la rfl map)
  obtain ⟨message,q,hm,⟨_,_,_,rfl⟩,⟨hk,ha,heq⟩ | ⟨hl,heq⟩⟩ := sendChunk_cases co s ki frame eos hc
  · rw [ha,heq]
    rw [hk] at h
    refine ⟨h.sent hm,fun map hme => ?_⟩
    rcases mem_append.mp hme with hme | hme
    · exact hw map hme
    · rw [← mem_singleton.mp hme] at hm
      rw [← Option.some.inj hm]
      rfl
  · rw [hl,heq]
    obtain ⟨u,hf,-⟩ := h.flight
    exact ⟨⟨u++[frame],by simp [hf],fun _ => rfl⟩,hw⟩

/-- The two will deliver the same, except that the frames `xs` come before those in flight. -/
def Swapped (xs : List BodyFrame) (p q : Processing) : Prop :=
  ∃ rest, content [] p = tokens p.frameBridge.output ++
      (okTokens p.inflightFrames++(okTokens xs++rest)) ∧
    content [] q = tokens p.frameBridge.output ++ (okTokens xs++(okTokens p.inflightFrames++rest))

variable {xs : List BodyFrame} {p q r : Processing}

lemma swapped_nil (ho : p.frameBridge.injector = true) (h : content [] q = content [] p) :
    Swapped [] p q := by
  refine ⟨okTokens (bufferedFrames p.framesBuffer++parkedFrames p) ++
    tokens p.frameBridge.source,?_,?_⟩
  · simp [content_of_open ho,heldFrames]
  · rw [h]
    simp [content_of_open ho,heldFrames]

lemma Swapped.congr (h : Swapped xs p q) (hc : content [] r = content [] q) : Swapped xs p r := by
  obtain ⟨rs,hp,hq⟩ := h
  exact ⟨rs,hp,hc.trans hq⟩

lemma Swapped.of_left (h : Swapped xs r q) (hc : content [] r = content [] p)
    (ho : r.frameBridge.output = p.frameBridge.output)
    (hf : r.inflightFrames = p.inflightFrames) : Swapped xs p q := by
  obtain ⟨rs,hr,hq⟩ := h
  rw [ho,hf] at hr hq
  exact ⟨rs,hc.symm.trans hr,hq⟩

lemma Swapped.intact_iff (h : Swapped xs p q) (hp : Intact p) (ho : q.original = p.original) :
    Intact q ↔ (okTokens xs++okTokens p.inflightFrames : List BodyToken) =
      okTokens p.inflightFrames++okTokens xs := by
  obtain ⟨rs,hc,hq⟩ := h
  rw [Intact,hc] at hp
  rw [Intact,hq,ho]
  rw [← hp,append_cancel_left_eq,← append_assoc,← append_assoc,append_cancel_right_eq]

/-- Neither the phase nor the bridge changes, but for what is delivered. -/
structure Steady (p q : Processing) : Prop where
  complete : q.complete = p.complete
  streaming : q.streamingBodyEnabled = p.streamingBodyEnabled
  parked : q.parkedTrailers = p.parkedTrailers
  injector : q.frameBridge.injector = p.frameBridge.injector
  source : q.frameBridge.source = p.frameBridge.source
  buffer : q.framesBuffer = p.framesBuffer

variable {cn : Config ρ} {kn : MessageType} {oc : Outcome}

lemma passOn_eq (s : Worker) (k : MessageType) (frame : BodyFrame) : ∃ q,
    SameBody (s.processing k) q ∧ (s.passOn k frame).processing k = q.injectFrame frame := by
  rw [Worker.passOn,processing_modify_self]
  exact ⟨_,sameBody_returnStatus ..,rfl⟩

lemma swapped_passOn (hop : (s.processing kn).frameBridge.injector = true)
    (hc : content [frame] (s.processing kn) = content [] p)
    (ho : (s.processing kn).frameBridge.output = p.frameBridge.output)
    (hf : (s.processing kn).inflightFrames = p.inflightFrames) :
    Swapped [frame] p ((s.passOn kn frame).processing kn) := by
  obtain ⟨q,⟨_,_,_,rfl⟩,heq⟩ := passOn_eq s kn frame
  refine ⟨okTokens (bufferedFrames (s.processing kn).framesBuffer ++
    parkedFrames (s.processing kn))++tokens (s.processing kn).frameBridge.source,?_,?_⟩
  · rw [← hc,content_of_open hop,ho,heldFrames,hf]
    simp
  · rw [heq,← ho,← hf]
    simp [injectFrame,injectFrame_of_open,hop,content,heldFrames,parkedFrames]

lemma asked_passOn (h : Asked (lost s) (s.processing kn)) :
    Asked (lost (s.passOn kn frame)) ((s.passOn kn frame).processing kn) := by
  obtain ⟨q,⟨_,_,_,rfl⟩,heq⟩ := passOn_eq s kn frame
  rw [heq]
  exact ⟨h.flight,h.trailers⟩

lemma steady_sendChunk (c : Config ρ) (s : Worker) (k : MessageType) (f : BodyFrame)
    (eos : Bool) (o : Outcome) : Steady (s.processing k)
      ((s.sendChunk c k f eos o).processing k) := by
  obtain ⟨_,_,_,_,heq⟩ := s.processing_sendChunk k c f eos o
  rw [heq]
  exact ⟨rfl,rfl,rfl,rfl,rfl,rfl⟩

lemma steady_passOn (s : Worker) (k : MessageType) (f : BodyFrame) :
    Steady (s.processing k) ((s.passOn k f).processing k) := by
  obtain ⟨q,⟨_,_,_,rfl⟩,heq⟩ := passOn_eq s k f
  rw [heq]
  refine ⟨rfl,rfl,rfl,?_,?_,rfl⟩ <;>
    · unfold injectFrame FrameBridge.injectFrame
      split_ifs <;> rfl

lemma push_data {b : FramesBuffer} {now : ℕ} {bm : BodyMode} {out : BodyFrame}
    (h : (b.push cn frame now bm).2 = some out) (last : HeaderMap) :
    out ≠ .trailers last := by
  rintro rfl
  unfold FramesBuffer.push at h
  cases frame with
  | data bt =>
    dsimp only at h
    split_ifs at h
    all_goals
      obtain ⟨_,_,ho⟩ := Option.map_eq_some_iff.mp h
      cases ho
  | trailers map =>
    dsimp only at h
    split_ifs at h
    obtain ⟨_,_,ho⟩ := Option.map_eq_some_iff.mp h
    cases ho

lemma emit_spec {d : Option BodyFrame} {eos : Bool} (ho : p.frameBridge.injector = true)
    (hb : ∃ source, (s.processing kn).frameBridge = { p.frameBridge with source })
    (hf : (s.processing kn).inflightFrames = p.inflightFrames)
    (hc : content d.toList (s.processing kn) = content [] p)
    (ha : Asked (lost s) (s.processing kn)) (hco : oc.connects = true)
    (hd : ∀ la, d ≠ some (.trailers la)) (ht : s.emit kn cn d eos oc = t) :
    Swapped (if (s.overridableModes kn).shouldProcessBody then [] else d.toList) p
        (t.processing kn) ∧
      Asked (lost t) (t.processing kn) ∧ Steady (s.processing kn) (t.processing kn) ∧
      ∀ map, .trailers map ∉ (s.processing kn).waiting →
        .trailers map ∉ (t.processing kn).waiting := by
  subst ht
  unfold emit
  cases d with
  | none =>
    rw [Option.toList_none,ite_self]
    exact ⟨swapped_nil ho hc,ha,⟨rfl,rfl,rfl,rfl,rfl,rfl⟩,fun _ h => h⟩
  | some frame =>
    split_ifs
    · refine ⟨swapped_nil ho ((content_sendChunk ..).trans hc),
        asked_sendChunk ha hco fun la hl => absurd (congrArg some hl) (hd la),
        steady_sendChunk cn s kn frame ..,fun map h => ?_⟩
      obtain ⟨_,_,hm,⟨_,_,_,rfl⟩,⟨-,-,heq⟩ | ⟨-,heq⟩⟩ := sendChunk_cases cn s kn frame eos hco
      · rw [heq]
        intro hme
        rcases mem_append.mp hme with hme | hme
        · exact h hme
        · rw [← mem_singleton.mp hme] at hm
          exact hd map hm.symm
      · rw [heq]
        exact h
    · obtain ⟨_,hb⟩ := hb
      refine ⟨swapped_passOn ?_ hc ?_ hf,asked_passOn ha,steady_passOn s kn frame,fun map h => ?_⟩
      · rw [hb]
        exact ho
      · rw [hb]
      · obtain ⟨q,⟨_,_,_,rfl⟩,heq⟩ := passOn_eq s kn frame
        rw [heq]
        exact h

lemma handleFrame_spec {rs : List FrameResult} (now : ℕ)
    (ho : (s.processing kn).frameBridge.injector = true)
    (hp : (s.processing kn).parkedTrailers = none)
    (hso : (s.processing kn).frameBridge.source = .ok frame::rs)
    (hcl : (s.processing kn).framesBuffer.trailersBuffer.isSome = true →
      (frameTokens frame : List BodyToken) = []) (ha : Asked (lost s) (s.processing kn))
    (hc : oc.connects = true) (ht : (s.advance kn rs).handleFrame cn kn frame now oc = t) :
    Swapped (passed cn s kn now) (s.processing kn) (t.processing kn) ∧
      Asked (lost t) (t.processing kn) ∧ (t.processing kn).complete = (s.processing kn).complete ∧
      (t.processing kn).streamingBodyEnabled = (s.processing kn).streamingBodyEnabled ∧
      (t.processing kn).parkedTrailers = (s.processing kn).parkedTrailers := by
  have hr : (s.advance kn rs).processing kn = { s.processing kn with
      frameBridge := { (s.processing kn).frameBridge with source := rs } } :=
    s.processing_modify_self kn _
  have hb : ((s.advance kn rs).processing kn).framesBuffer =
      (s.processing kn).framesBuffer := by rw [hr]
  rw [(s.advance kn rs).handleFrame_eq kn cn oc hb frame now,
    show (s.advance kn rs).overridableModes = s.overridableModes from rfl] at ht
  set pushed := (s.processing kn).framesBuffer.push cn frame now
    (s.overridableModes kn).bodyMode with hpu
  have hmi : ((s.advance kn rs).setBuffer kn pushed.1).processing kn = { s.processing kn with
        frameBridge := { (s.processing kn).frameBridge with source := rs }
        framesBuffer := pushed.1 } := by
    rw [Worker.processing_setBuffer,hr]
  obtain ⟨hsw,haf,hst,-⟩ := emit_spec ho ⟨rs,by rw [hmi]⟩
    (by rw [hmi]) (by rw [hmi]; exact content_push cn now _ ho hp hso hcl)
    (by rw [hmi]; exact ⟨ha.flight,ha.trailers⟩) hc
    (fun la hl => push_data hl la rfl) ht
  have hpa : passed cn s kn now =
      if (s.overridableModes kn).shouldProcessBody then [] else pushed.2.toList := by
    simp only [passed,hso,← hpu]
    by_cases hm : (s.overridableModes kn).bodyMode = .none <;> simp [Modes.shouldProcessBody]
  rw [hpa,hst.complete,hst.streaming,hst.parked,hmi]
  exact ⟨hsw,haf,rfl,rfl,rfl⟩

variable {cf : Config ρ} {kind : MessageType} {outcome ond ont : Outcome}

/-- While the buffer is emptied: trailers in it are the first that the processor is asked
about or that are parked. -/
structure Emptying (lost : Bool) (p : Processing) : Prop extends Asked lost p where
  bridge : p.frameBridge.injector = true
  complete : p.complete = true
  source : p.frameBridge.source = []
  clear : p.framesBuffer.trailersBuffer = none ∨
    (p.parkedTrailers = none ∧ ∀ map, .trailers map ∉ p.waiting)

/-- The data that is passed on at the end of the body. -/
def passedLast (s : Worker) (kind : MessageType) : List BodyFrame :=
  if (s.overridableModes kind).shouldProcessBody then []
  else ((s.processing kind).framesBuffer.dataBuffer.map .data).toList

lemma emitTrailers_spec {tr : Option HeaderMap} (h : Emptying (lost s) (s.processing kind))
    (hb : (s.processing kind).framesBuffer.trailersBuffer = tr)
    (hd : (s.processing kind).framesBuffer.dataBuffer = none) (hco : outcome.connects = true)
    (ht : (s.setBuffer kind {}).emitTrailers kind cf tr outcome = t) :
    Emptying (lost t) (t.processing kind) ∧ bufferedFrames (t.processing kind).framesBuffer = [] ∧
      content [] (t.processing kind) = content [] (s.processing kind) := by
  have hm := s.processing_setBuffer kind {}
  have he : Emptying (lost (s.setBuffer kind {})) ((s.setBuffer kind {}).processing kind) := by
    rw [hm]
    exact ⟨⟨h.flight,h.trailers⟩,h.bridge,h.complete,h.source,.inl rfl⟩
  have hc : content (tr.map .trailers).toList ((s.setBuffer kind {}).processing kind) =
      content [] (s.processing kind) := by
    rw [hm]
    refine content_unbuffer ?_
    rw [bufferedFrames,bufferedFrames,hb,hd]
    simp
  subst ht
  unfold Worker.emitTrailers
  cases tr with
  | none => exact ⟨he,by rw [hm]; rfl,hc⟩
  | some map =>
    obtain ⟨hp,hf⟩ := h.clear.resolve_left (by rw [hb]; exact Option.some_ne_none map)
    split_ifs
    · have hst := steady_sendChunk cf (s.setBuffer kind {}) kind (.trailers map) true outcome
      refine ⟨⟨asked_sendChunk he.toAsked hco fun _ _ => by rw [hm]; exact hf,
        hst.injector.trans he.bridge,hst.complete.trans he.complete,
        hst.source.trans he.source,.inl ?_⟩,?_,(content_sendChunk ..).trans hc⟩
      all_goals rw [hst.buffer,hm]
      rfl
    · rw [processing_modify_self]
      refine ⟨⟨⟨he.flight,he.trailers⟩,he.bridge,he.complete,he.source,
        .inl ?_⟩,?_,(content_park map ?_ ?_).trans hc⟩
      all_goals rw [hm]
      · rfl
      · exact hp
      · rfl

lemma emptyBuffer_spec (c : Config ρ) (h : Emptying (lost s) (s.processing kind))
    (hd : ond.connects = true) (htr : ont.connects = true) (ht : s.emptyBuffer c kind ond ont = t) :
    Emptying (lost t) (t.processing kind) ∧ bufferedFrames (t.processing kind).framesBuffer = [] ∧
      Swapped (passedLast s kind) (s.processing kind) (t.processing kind) := by
  rw [s.emptyBuffer_eq kind c ond ont rfl] at ht
  set taken := s.setBuffer kind
    { trailersBuffer := (s.processing kind).framesBuffer.trailersBuffer } with hta
  have hm : taken.processing kind = { s.processing kind with
      framesBuffer := { trailersBuffer := (s.processing kind).framesBuffer.trailersBuffer } } :=
    s.processing_setBuffer kind _
  have hb : Emptying (lost taken) (taken.processing kind) := by
    rw [hm]
    exact ⟨⟨h.flight,h.trailers⟩,h.bridge,h.complete,h.source,h.clear⟩
  set first := taken.emit kind c ((s.processing kind).framesBuffer.dataBuffer.map .data)
    (s.processing kind).framesBuffer.trailersBuffer.isNone ond with hf
  obtain ⟨hsw,ha,hst,hw⟩ := emit_spec h.bridge ⟨_,by rw [hm]⟩
    (by rw [hm]) (by rw [hm]; exact content_unbuffer (by simp [bufferedFrames]))
    hb.toAsked hd (by simp) hf.symm
  have he : Emptying (lost first) (first.processing kind) :=
    ⟨ha,hst.injector.trans hb.bridge,hst.complete.trans hb.complete,hst.source.trans hb.source,by
      rw [hst.buffer,hst.parked]
      exact hb.clear.imp_right (And.imp_right fun hf map => hw map (hf map))⟩
  obtain ⟨hl,hbu,hc⟩ := emitTrailers_spec he (by rw [hst.buffer,hm]) (by rw [hst.buffer,hm]) htr ht
  exact ⟨hl,hbu,hsw.congr hc⟩

lemma closeIfDone_spec (h : Emptying (lost s) (s.processing kind))
    (hb : bufferedFrames (s.processing kind).framesBuffer = []) :
    content [] ((s.closeIfDone kind).processing kind) = content [] (s.processing kind) ∧
      (((s.closeIfDone kind).processing kind).frameBridge.injector = true →
        s.closeIfDone kind = s ∧ (s.processing kind).inflightFrames ≠ []) := by
  unfold closeIfDone
  split_ifs with hf
  · rw [Worker.setTimeoutActive_processing,processing_modify_self]
    rw [returnStatus_eq]
    dsimp only
    rw [drainAndClose_of_open h.bridge,content_of_closed rfl,content_of_open h.bridge]
    cases hp : (s.processing kind).parkedTrailers <;>
      simp [heldFrames,parkedFrames,hp,hb,h.source,isEmpty_iff.mp hf]
  · exact ⟨rfl,fun _ => ⟨rfl,fun hn => hf (isEmpty_iff.mpr hn)⟩⟩

lemma clear_bufferEndOfStream (m : Modes) (p : Processing) (hp : p.parkedTrailers = none) :
    (p.bufferEndOfStream m).framesBuffer.trailersBuffer = none ∨
      ((p.bufferEndOfStream m).parkedTrailers = none ∧
        p.framesBuffer.trailersBuffer.isSome = true) := by
  have hk : ∀ b : FramesBuffer, b.pushEndOfStream.trailersBuffer = b.trailersBuffer := by
    intro b
    unfold FramesBuffer.pushEndOfStream
    split_ifs <;> rfl
  have hb : p.framesBuffer.trailersBuffer = none ∨ p.framesBuffer.trailersBuffer.isSome = true := by
    cases p.framesBuffer.trailersBuffer
    · exact .inl rfl
    · exact .inr rfl
  unfold bufferEndOfStream
  split_ifs
  · exact .inl (hk _)
  · dsimp only
    rw [hk]
    exact hb.imp_right fun hso => ⟨hp,hso⟩
  · exact hb.imp_right fun hso => ⟨hp,hso⟩

lemma handleEnd_spec (hop : (s.processing kind).frameBridge.injector = true)
    (hpp : ProperTokens (tokens (s.processing kind).original))
    (hi : Intact (s.processing kind)) (ha : Asked (lost s) (s.processing kind))
    (hpa : (s.processing kind).parkedTrailers = none)
    (hso : (s.processing kind).frameBridge.source = []) (now : ℕ)
    (hd : ond.connects = true) (htr : ont.connects = true) (ht : s.handleEnd cf kind ond ont = t) :
    Swapped (passed cf s kind now) (s.processing kind) (t.processing kind) ∧
      ((t.processing kind).frameBridge.injector = true → Tracked (lost t) (t.processing kind)) := by
  set p := s.processing kind with hp
  have hpr : (s.ending kind).processing kind =
      { p with complete := true }.bufferEndOfStream (s.overridableModes kind) := by
    rw [Worker.ending,processing_modify_self]
  obtain ⟨f,parkedTrailers,hq⟩ :=
    { p with complete := true }.bufferEndOfStream_eq (s.overridableModes kind)
  have hco : content [] ((s.ending kind).processing kind) = content [] p := by
    rw [hpr]
    exact content_bufferEndOfStream _ hpa
  have hcl := clear_bufferEndOfStream (s.overridableModes kind) { p with complete := true } hpa
  have he : Emptying (lost (s.ending kind)) ((s.ending kind).processing kind) := by
    rw [hq] at hcl
    rw [hpr,hq]
    refine ⟨⟨ha.flight,ha.trailers⟩,hop,rfl,hso,hcl.imp_right ?_⟩
    rintro ⟨hn,hsm⟩
    exact ⟨hn,fun map => not_waiting_trailers ha hpp hi hop hsm⟩
  have hps : passedLast (s.ending kind) kind = passed cf s kind now := by
    unfold passedLast passed
    rw [hpr,(local_ending s kind).modes,← hp]
    dsimp only
    rw [hso]
    by_cases hm : (s.overridableModes kind).bodyMode = .none
    · simp [bufferEndOfStream,Modes.shouldProcessBody,hm]
    · simp [Modes.shouldProcessBody,hm]
  obtain ⟨hl,hb,hsw⟩ := emptyBuffer_spec cf he hd htr rfl
  obtain ⟨hcs,hk⟩ := closeIfDone_spec hl hb
  set emptied := (s.ending kind).emptyBuffer cf kind ond ont
  have htp : t.processing kind =
      ((emptied.closeIfDone kind).processing kind).setStreamingBody false := by
    rw [← ht,handleEnd,processing_modify_self]
  rw [hps] at hsw
  constructor
  · rw [htp]
    refine (hsw.congr hcs).of_left hco ?_ ?_ <;> rw [hpr,hq]
  · intro ho
    rw [htp] at ho ⊢
    obtain ⟨hsa,hf⟩ := hk ho
    have hlo : lost t = lost emptied := by
      rw [← ht]
      change lost (emptied.closeIfDone kind) = _
      rw [hsa]
    rw [hlo,hsa]
    exact {
      flight := hl.flight
      trailers := hl.trailers
      parked := fun hc => absurd (hl.complete.symm.trans hc) (by decide)
      reading := fun hc => absurd (hl.complete.symm.trans hc) (by decide)
      complete := fun _ => ⟨Bool.or_true _,hf⟩ }

def AllIntact (s : Worker) : Prop := ∀ kind, Intact (s.processing kind)

/-- What is known of one type of message while the worker runs. -/
structure Good (lost : Bool) (p : Processing) : Prop extends Sourced p where
  untouched : p.tasks = 0 → Untouched p
  tracked : p.frameBridge.injector = true → Tracked lost p

/-- A worker that has ended has closed both bridges. -/
structure Sound (s : Worker) : Prop where
  good : s.running = true → ∀ kind, Good (lost s) (s.processing kind)
  ended : s.running = false → ∀ kind, (s.processing kind).frameBridge.injector = false

variable {cr : HttpCrate} {con : Config ρ} {kd : MessageType} {l : Bool} {re : CommonResponse}

lemma good_of_sameBody {q : Processing} (hp : Good l p) (h : SameBody p q) : Good l q where
  toSourced := by
    obtain ⟨_,_,_,rfl⟩ := h
    exact ⟨hp.proper,hp.ended⟩
  untouched ht := (hp.untouched (h.kept.tasks.symm.trans ht)).trans h
  tracked ho := h.tracked (hp.tracked (h.injector.symm.trans ho))

lemma good_of_kept {l' : Bool} {q : Processing} (hp : Good l p) (h : Kept p q)
    (ht : ¬ Untouched p) (htr : q.frameBridge.injector = true → Tracked l' q) : Good l' q where
  proper := by
    rw [h.original]
    exact hp.proper
  ended hh := by
    rw [h.original]
    exact hp.ended (h.has.symm.trans hh)
  untouched hta := absurd (hp.untouched (h.tasks.symm.trans hta)) ht
  tracked := htr

lemma Good.mono {l' : Bool} (h : Good l p) (hl : l = true → l' = true) : Good l' p where
  toSourced := h.toSourced
  untouched := h.untouched
  tracked ho := (h.tracked ho).mono hl

lemma sound_of_elsewhere (hs : Sound s) (hrunning : s.running = true) (h : Elsewhere kd s t)
    (hk : Good (lost t) (t.processing kd)) : Sound t where
  good _ other := by
    by_cases ho : other = kd
    · rw [ho]
      exact hk
    · exact good_of_sameBody ((hs.good hrunning other).mono h.lost) (h.others other ho)
  ended he := by
    rw [h.running,hrunning] at he
    cases he

lemma allIntact_iff (hp : AllIntact s) (h : Elsewhere kd s t) :
    AllIntact t ↔ Intact (t.processing kd) := by
  refine ⟨fun ha => ha kd,fun hk oh => ?_⟩
  by_cases ho : oh = kd
  · rw [ho]
    exact hk
  · exact ((h.others oh ho).intact_iff).mpr (hp oh)

lemma pollSource_spec {onData onTrailers : Outcome} {now : ℕ}
    (hg : Good (lost s) (s.processing kd)) (hi : Intact (s.processing kd))
    (ho : (s.processing kd).frameBridge.injector = true) (hou : s.outboundEnabled kd = true)
    (hd : onData.connects = true) (htl : onTrailers.connects = true)
    (ht : s.pollSource con kd now onData onTrailers = t) :
    Swapped (passed con s kd now) (s.processing kd) (t.processing kd) ∧
      ((t.processing kd).frameBridge.injector = true → Tracked (lost t) (t.processing kd)) := by
  obtain ⟨hst,hc⟩ := Bool.and_eq_true_iff.mp hou
  have hr : (s.processing kd).complete = false := by simpa using hc
  have htr := hg.tracked ho
  have hp := htr.parked hr
  unfold pollSource at ht
  rcases hso : (s.processing kd).frameBridge.source with _ | ⟨er | frame,rs⟩
  · rw [hso] at ht
    exact handleEnd_spec ho hg.proper hi htr.toAsked hp hso now hd htl ht
  · exact absurd hso (source_ne_error hg.proper hi ho)
  · rw [hso] at ht
    obtain ⟨hsw,ha,hph,hsr,hpa⟩ := handleFrame_spec now ho hp
      hso (frameTokens_after_trailers hg.proper hi ho hso) htr.toAsked
      hd ht
    refine ⟨hsw,fun _ => ⟨ha,fun _ => hpa.trans hp,fun _ => .inl ?_,fun hdo => ?_⟩⟩
    · rw [hsr]
      exact hst
    · rw [hph,hr] at hdo
      cases hdo

lemma bodyFrame_spec {o ot : Outcome} {now : ℕ} (hs : Sound s) (hp : AllIntact s)
    (hrunning : s.running = true) (hou : s.outboundEnabled kd = true)
    (hd : o.connects = true) (htr : ot.connects = true) (ht : s.pollSource con kd now o ot = t) :
    (AllIntact t ↔ Safe con s (.bodyFrame kd now o ot)) ∧ Sound t := by
  have hl : Local kd s t := ht ▸ local_pollSource s kd now hd htr
  have hg := hs.good hrunning kd
  have hto : ¬ Untouched (s.processing kd) := by
    rintro ⟨_,_,_,heq⟩
    rw [Worker.outboundEnabled,heq] at hou
    cases hou
  rw [allIntact_iff hp hl.toElsewhere,Safe]
  cases ho : (s.processing kd).frameBridge.injector with
  | false =>
    refine ⟨iff_of_true ?_ nofun,sound_of_elsewhere hs hrunning hl.toElsewhere ?_⟩
    · exact (hp kd).of_closed ho hl.kept.toKeptBridge hl.kept.original
    · refine good_of_kept hg hl.kept hto fun ho' => ?_
      rw [(hl.kept.closed ho).1] at ho'
      cases ho'
  | true =>
    obtain ⟨hsw,htc⟩ := pollSource_spec hg (hp kd) ho hou hd htr ht
    refine ⟨?_,sound_of_elsewhere hs hrunning hl.toElsewhere (good_of_kept hg hl.kept hto htc)⟩
    rw [imp_iff_right rfl]
    exact hsw.intact_iff (hp kd) hl.kept.original

lemma begun_good {o : List FrameResult} {me : Option Message} {waiting : List Message}
    (h : Begun o p me) (hs : Sourced p)
    (hh : ∀ m ∈ waiting, ∃ he endOfStream, m = .headers he endOfStream)
    (hr : p.frameBridge.injector = true → p.streamingBodyEnabled = true ∨ waiting ≠ [] ∨ l = true) :
    Good l { p with waiting } where
  proper := hs.proper
  ended := hs.ended
  untouched ht := absurd ht h.tasks
  tracked ho := {
    flight := by
      have hf : waiting.filterMap messageFrame = [] := by
        refine filterMap_eq_nil_iff.mpr fun m hm => ?_
        obtain ⟨he,endOfStream,rfl⟩ := hh m hm
        rfl
      exact ⟨[],h.flight.trans (by rw [hf,append_nil]),fun hne => absurd rfl hne⟩
    trailers := fun map hme => by
      obtain ⟨_,_,heq⟩ := hh _ hme
      cases heq
    parked := fun _ => h.parked
    reading := fun _ => by
      refine (hr ho).imp_right (Or.imp_left fun hne => ?_)
      obtain ⟨m,hm⟩ := exists_mem_of_ne_nil waiting hne
      obtain ⟨he,endOfStream,rfl⟩ := hh m hm
      exact ⟨he,endOfStream,hm⟩
    complete := fun hd => absurd (h.complete.symm.trans hd) (by decide) }

lemma task_spec {h : Option HeaderMap} {pr : BodyMode} {b : Body}
    {br : FrameBridge} {o : Outcome} (hs : Sound s) (hp : AllIntact s)
    (hrunning : s.running = true) (hta : (s.processing kd).tasks = 0)
    (hbo : Proper b.frames) (hc : o.connects = true)
    (hbr : prepareProcessingData con.maxReceiveMessageLength pr b = some br)
    (ht : s.startTask con kd h br b.frames o = t) : AllIntact t ∧ Sound t := by
  obtain ⟨hi,ho,hsr,he⟩ := prepared_spec hbo hbr
  obtain ⟨p,message,hpr,hst⟩ := s.startTask_eq kd con h br b.frames o
  obtain ⟨hb,hha⟩ := process_begun ((hs.good hrunning kd).untouched hta) hi ho hsr hpr
  have hso : Sourced p := by
    refine ⟨?_,fun hn => ?_⟩ <;> rw [hb.original_eq]
    · exact hbo.tokens
    · exact he (hha.symm.trans hn)
  have hmd : Elsewhere kd s (s.modify kd fun _ => p) := elsewhere_modify s _
  have hmi : (s.modify kd fun _ => p).processing kd = p := s.processing_modify_self kd _
  cases message with
  | none =>
    obtain rfl : s.modify kd (fun _ => p) = t := hst.symm.trans ht
    have hg : Good (lost s) { p with waiting := [] } :=
      begun_good hb hso nofun fun hop => .inl (hb.reading rfl hop)
    rw [← hb.waiting] at hg
    refine ⟨(allIntact_iff hp hmd).mpr ?_,sound_of_elsewhere hs hrunning hmd ?_⟩ <;> rw [hmi]
    · exact hb.intact
    · exact hg
  | some message =>
    obtain ⟨h,endOfStream,rfl⟩ := hb.headers message rfl
    have hf : Local kd (s.modify kd fun _ => p) t := hst.symm.trans ht ▸ local_forward _ kd _ hc
    have helse := hmd.trans hf.toElsewhere
    have hca := forward_cases con (s.modify kd fun _ => p) kd (.headers h endOfStream) hc
    rw [show Worker.forwardToExternalProcessor .. = t from hst.symm.trans ht] at hca
    rw [allIntact_iff hp helse]
    have hh : ∀ m ∈ p.waiting++[.headers h endOfStream],
        ∃ h endOfStream, m = .headers h endOfStream := by
      rw [hb.waiting]
      exact fun m hm => ⟨_,_,mem_singleton.mp hm⟩
    suffices hk : Intact (t.processing kd) ∧ Good (lost t) (t.processing kd) from
      ⟨hk.1,sound_of_elsewhere hs hrunning helse hk.2⟩
    rcases hca with ⟨-,-,heq⟩ | ⟨hl,hsa⟩
    · rw [heq,processing_modify_self,hmi]
      exact ⟨hb.intact,begun_good hb hso hh fun _ => .inr (.inl (by simp))⟩
    · have hk := hsa kd
      rw [hmi] at hk
      have hg : Good (lost t) { p with waiting := [] } :=
        begun_good hb hso nofun fun _ => .inr (.inr hl)
      rw [← hb.waiting] at hg
      exact ⟨hk.intact_iff.mpr hb.intact,good_of_sameBody hg hk⟩

lemma sound_finish (s : Worker) : Sound s.finish where
  good := nofun
  ended _ _ := rfl

lemma allIntact_finish_iff (hp : AllIntact s) :
    AllIntact s.finish ↔ ∀ kd, Unheld (s.processing kd) :=
  forall_congr' fun kd => intact_dropped_iff (hp kd) rfl rfl

lemma allIntact_recover_iff (hp : AllIntact s) (hs : Sound s) (hrunning : s.running = true)
    (hallow : con.failureModeAllow = true) (err : ExtProcError) (lm : Str) :
    AllIntact (s.recoverOrFailure con err lm).finish ↔ ∀ kd, Unbuffered (s.processing kd) := by
  refine forall_congr' fun kd => ?_
  obtain ⟨status,hst⟩ : ∃ status, (s.recoverOrFailure con err lm).processing kd =
      (s.processing kd).recover status := by
    unfold Worker.recoverOrFailure
    simp only [hallow]
    exact ⟨_,rfl⟩
  rw [Worker.processing_finish]
  dsimp only
  rw [hst]
  unfold recover
  rw [returnStatus_eq]
  exact intact_flushed_iff (hp kd) (hs.good hrunning kd).proper (drop_of_closed rfl) rfl

lemma allIntact_reject_iff (hp : AllIntact s) (hallow : con.failureModeAllow = true) :
    AllIntact (s.rejectImmediateResponse con).finish ↔ ∀ kd, Unheld (s.processing kd) := by
  refine forall_congr' fun kd => ?_
  have hd : ∀ k, ((s.drainOpenBridge k).processing kd).frameBridge.drop =
      (s.processing kd).frameBridge.drop ∧
      ((s.drainOpenBridge k).processing kd).original = (s.processing kd).original := by
    intro k
    unfold Worker.drainOpenBridge
    by_cases hk : kd = k
    · subst hk
      rw [processing_modify_self]
      rw [returnStatus_eq]
      exact ⟨drop_of_closed rfl,rfl⟩
    · rw [Worker.processing_modify_of_ne _ _ _ hk]
      exact ⟨rfl,rfl⟩
  unfold Worker.rejectImmediateResponse
  split_ifs
  · exact intact_dropped_iff (hp kd) (hd _).1 (hd _).2
  · exact intact_dropped_iff (hp kd) (hd _).1 (hd _).2
  · exact intact_dropped_iff (hp kd) rfl rfl

lemma reply_spec {f : Processing → Processing} {m : Message} (mo : MessageType → Modes)
    (a : Bool) (hs : Sound s) (hp : AllIntact s) (hrunning : s.running = true)
    (hh : (s.processing kd).waiting.head? = some m)
    (hk : Kept (s.processing kd) (f (s.processing kd))) (ht : Tracked (lost s) (s.processing kd) →
      (f (s.processing kd)).frameBridge.injector = true → Tracked (lost s) (f (s.processing kd))) :
    (AllIntact (({ s with overridableModes := mo }.modify kd f).setTimeoutActive a) ↔
      Intact (f (s.processing kd))) ∧
      Sound (({ s with overridableModes := mo }.modify kd f).setTimeoutActive a) := by
  have helse : Elsewhere kd s
      (({ s with overridableModes := mo }.modify kd f).setTimeoutActive a) := by
    refine ⟨rfl,fun h => h,fun oh hoh => ?_⟩
    rw [Worker.setTimeoutActive_processing,Worker.processing_modify_of_ne _ _ _ hoh]
    exact .refl _
  have hg := hs.good hrunning kd
  have hto : ¬ Untouched (s.processing kd) := by
    rintro ⟨_,_,_,heq⟩
    rw [heq] at hh
    cases hh
  have hop : (f (s.processing kd)).frameBridge.injector = true →
      (s.processing kd).frameBridge.injector = true := by
    intro ho
    by_contra hc
    rw [(hk.closed (Bool.eq_false_iff.mpr hc)).1] at ho
    cases ho
  refine ⟨(allIntact_iff hp helse).trans ?_,sound_of_elsewhere hs hrunning helse ?_⟩
  · rw [Worker.setTimeoutActive_processing,processing_modify_self]
  · rw [Worker.setTimeoutActive_processing,processing_modify_self]
    exact good_of_kept hg hk hto fun ho => ht (hg.tracked (hop ho)) ho

section

variable (hs : Sound s) (hp : AllIntact s) (hru : s.running = true)
    (hc : re.status = .continue)
include hs hp hru hc

lemma headers_spec {m : Option ModeOverride} {me : Message}
    (hh : (s.processing kd).waiting.head? = some me) :
    (AllIntact (s.handleHeaders con kd re m) ↔ Safe con s (.inbound (.headers kd (some re) m))) ∧
      Sound (s.handleHeaders con kd re m) := by
  obtain ⟨mo,heq⟩ : ∃ overridableModes, s.overrideModes con kd m = { s with overridableModes } := by
    unfold Worker.overrideModes
    split <;> exact ⟨_,rfl⟩
  have hk := kept_handleHeadersResponse con (s.processing kd).answerHeaders kd (mo kd) hc
  rw [Worker.handleHeaders,Safe,heq]
  have hr := reply_spec mo false hs hp hru hh
    (f := fun p => p.answerHeaders.handleHeadersResponse con kd (mo kd) re)
    ⟨hk.toKeptBridge,hk.original,hk.tasks⟩
    (fun h ho => h.handleHeadersResponse hc ho)
  refine ⟨hr.1.trans ?_,hr.2⟩
  obtain ⟨q,⟨_,_,_,rfl⟩,he⟩ := handleHeadersResponse_eq (s.processing kd).answerHeaders kd (mo kd) hc
  rw [he,← and_imp]
  split_ifs with hw
  · refine Iff.trans ?_ (imp_iff_right hw).symm
    exact intact_dropped_iff (hp kd) rfl rfl
  · exact iff_of_true (intact_tryEnableStreamingBody (hp kd) (hs.good hru kd).ended)
      fun hn => absurd hn hw

lemma body_spec {b : Str} {eos : Bool} (hke : re.replacement = none)
    (hh : (s.processing kd).waiting.head? = some (.body b eos)) :
    (AllIntact (s.handleBody con kd re) ↔ Safe con s (.inbound (.body kd (some re)))) ∧
      Sound (s.handleBody con kd re) := by
  have hk := kept_handleBodyResponse con (s.processing kd).answerBody kd s.timeoutState.active hc
  have hr := reply_spec s.overridableModes
    ((s.processing kd).answerBody.handleBodyResponse con kd re s.timeoutState.active).2 hs hp hru hh
    (f := fun _ => ((s.processing kd).answerBody.handleBodyResponse con kd re
      s.timeoutState.active).1)
    ⟨hk.toKeptBridge,hk.original,hk.tasks⟩
    (fun h ho => h.handleBodyResponse hh hc ho)
  refine ⟨hr.1.trans ?_,hr.2⟩
  exact intact_handleBodyResponse_iff (hp kd) (hs.good hru kd).proper hc hke _

end

lemma extension_spec (se n : ℕ) (hs : Sound s) (hp : AllIntact s) :
    (AllIntact (s.handleTimeoutExtension con se n) ↔
      Safe con s (.inbound (.overrideMessageTimeout se n))) ∧
      Sound (s.handleTimeoutExtension con se n) := by
  rw [Worker.handleTimeoutExtension,Safe]
  cases he : s.timeoutState.extended with
  | true =>
    rw [if_pos rfl]
    refine ⟨Iff.trans ?_ (imp_iff_right (.inl rfl)).symm,sound_finish _⟩
    refine forall_congr' fun kd => intact_dropped_iff (hp kd) ?_ ?_ <;>
    · rw [Worker.processing_finish,Worker.modifyBoth]
      dsimp only
      rw [returnStatus_eq]
  | false =>
    cases hd : Worker.extendedTimeout con se n with
    | none =>
      exact ⟨(allIntact_finish_iff hp).trans (imp_iff_right (.inr rfl)).symm,sound_finish _⟩
    | some d => exact ⟨iff_of_true hp nofun,⟨hs.good,hs.ended⟩⟩

lemma allIntact_new : AllIntact (.new con) := fun _ => rfl

lemma sound_new : Sound (.new con) where
  good _ _ :=
    { proper := ⟨[],none,rfl⟩
      ended _ := rfl
      untouched _ := .refl _
      tracked := nofun }
  ended := nofun

variable [RegexEngine ρ]

lemma trailers_spec (c : HttpCrate) (co : Config ρ) {map : HeaderMap} (hs : Sound s)
    (hp : AllIntact s) (hrunning : s.running = true)
    (hh : (s.processing kd).waiting.head? = some (.trailers map)) :
    AllIntact (s.handleTrailers c co kd none) ∧ Sound (s.handleTrailers c co kd none) := by
  have hg := hs.good hrunning kd
  have hk := kept_handleTrailersResponse c co kd (s.processing kd).answerTrailers none
  have hc : ((s.processing kd).answerTrailers.handleTrailersResponse c co kd
      none).frameBridge.injector = false := by
    unfold Processing.handleTrailersResponse
    split <;> rfl
  have hr := reply_spec s.overridableModes false hs hp hrunning hh
    (f := fun p => p.answerTrailers.handleTrailersResponse c co kd none)
    ⟨hk.toKeptBridge,hk.original,hk.tasks⟩
    (fun _ ho => absurd (hc.symm.trans ho) (by decide))
  refine ⟨hr.1.mpr ?_,hr.2⟩
  exact intact_handleTrailersResponse (hp kd) hg.proper hh fun ho => (hg.tracked ho).toAsked

section

variable (hal : con.failureModeAllow = true) (hs : Sound s) (hp : AllIntact s)
include hal hs hp

lemma inbound_spec {m : Inbound} (hrunning : s.running = true) (ha : Agreeable con s (.inbound m)) :
    (AllIntact (s.receive cr con m) ↔ Safe con s (.inbound m)) ∧ Sound (s.receive cr con m) := by
  have hr := fun err lm => And.intro (allIntact_recover_iff hp hs hrunning hal err lm)
    (sound_finish (s.recoverOrFailure con err lm))
  cases m with
  | overrideMessageTimeout se n => exact extension_spec se n hs hp
  | immediateResponse re =>
    have hd : con.disableImmediateResponse = true := ha
    rw [Worker.receive,if_pos hd]
    exact ⟨allIntact_reject_iff hp hal,sound_finish _⟩
  | headers kd rp mo =>
    cases rp with
    | none => exact ⟨allIntact_finish_iff hp,sound_finish _⟩
    | some re =>
      obtain ⟨hcontinue,headers,endOfStream,hh⟩ := ha
      exact headers_spec hs hp hrunning hcontinue hh
  | body kd rp =>
    cases rp with
    | none => exact ⟨allIntact_finish_iff hp,sound_finish _⟩
    | some re =>
      obtain ⟨hcontinue,hk,bytes,endOfStream,hh⟩ := ha
      exact body_spec hs hp hrunning hcontinue hk hh
  | trailers kd h =>
    obtain ⟨rfl,map,hh⟩ := ha
    have hsp := trailers_spec cr con hs hp hrunning hh
    exact ⟨iff_of_true hsp.1 trivial,hsp.2⟩
  | unsupported text | closed | error m => exact hr ..

lemma step_spec {ev : Event} (hst : Guarded (Agreeable con) (Worker.Step cr con) s ev t) :
    (AllIntact t ↔ Safe con s ev) ∧ Sound t := by
  obtain ⟨ha,hst⟩ := hst
  obtain ⟨hrunning,hst⟩ := Worker.of_step hst
  cases ev with
  | task kd he pr b outcome =>
    obtain ⟨hta,hbo,hc⟩ := ha
    obtain ⟨-,bridge,hb,ht⟩ := hst
    have hsp := task_spec hs hp hrunning hta hbo hc hb ht.symm
    exact ⟨iff_of_true hsp.1 trivial,hsp.2⟩
  | channelClosed =>
    rw [hst.2]
    exact ⟨allIntact_finish_iff hp,sound_finish _⟩
  | inbound m =>
    rw [hst.2]
    exact inbound_spec hal hs hp hrunning ha
  | bodyFrame kd now onData onTrailers =>
    exact bodyFrame_spec hs hp hrunning hst.1 ha.1 ha.2 hst.2.symm
  | messageTimeout =>
    rw [hst.2]
    exact ⟨allIntact_recover_iff hp hs hrunning hal ..,sound_finish _⟩

end

lemma Tracked.awaited (h : Tracked (lost s) (s.processing kd)) :
    s.outboundEnabled kd = true ∨ (s.processing kd).waiting ≠ [] ∨ lost s = true := by
  cases hc : (s.processing kd).complete with
  | false =>
    rcases h.reading hc with hst | ⟨he,endOfStream,hm⟩ | hl
    · exact .inl (by simp [Worker.outboundEnabled,hc,hst])
    · exact .inr (.inl (ne_nil_of_mem hm))
    · exact .inr (.inr hl)
  | true =>
    obtain ⟨un,hf,hu⟩ := h.flight
    by_cases hn : un = []
    · refine .inr (.inl fun hw => (h.complete hc).2 ?_)
      rw [hf,hn,hw]
      rfl
    · exact .inr (.inr (hu hn))

end

/-- Where failures are allowed, the runs along which every body is kept are those whose steps
are all safe, and in such a run a body whose bridge is closed was delivered as it came in,
a worker that has ended has closed both bridges, and while it runs a body that is not
delivered is waited for, unless the stream is lost. -/
theorem delivery_iff {ρ : Type} [RegexEngine ρ] (crate : HttpCrate) (config : Config ρ)
    (hallow : config.failureModeAllow = true) (es : List Event) (t : Worker) :
    (Throughout AllIntact (Guarded (Agreeable config) (Worker.Step crate config)) (.new config)
        es t ↔ Run (Guarded (Safe config) (Guarded (Agreeable config) (Worker.Step crate config)))
        (.new config) es t) ∧
    (Run (Guarded (Safe config) (Guarded (Agreeable config) (Worker.Step crate config)))
        (.new config) es t → ∀ kind, ((t.processing kind).frameBridge.injector = false →
        tokens (t.processing kind).frameBridge.output = tokens (t.processing kind).original) ∧
      (t.running = false → (t.processing kind).frameBridge.injector = false) ∧
      (t.running = true → (t.processing kind).frameBridge.injector = true →
        t.outboundEnabled kind = true ∨ (t.processing kind).waiting ≠ [] ∨ lost t = true)) := by
  have hst : ∀ s e u, Sound s ∧ AllIntact s →
      Guarded (Agreeable config) (Worker.Step crate config) s e u →
        (AllIntact u ↔ Safe config s e) ∧ Sound u := fun s e u h hst => step_spec hallow h.1 h.2 hst
  refine ⟨throughout_iff_guarded_while (fun s => Sound s ∧ AllIntact s) ?_ ?_
    ⟨sound_new,allIntact_new⟩ allIntact_new,fun hr kind => ?_⟩
  · exact fun s e u h hs hu => ⟨(hst s e u h hs).2,hu⟩
  · exact fun s e u h _ hs => (hst s e u h hs).1
  · obtain ⟨hso,hi⟩ := hr.invariant (fun s => Sound s ∧ AllIntact s)
      (fun s e u h hs => ⟨(hst s e u h hs.2).2,(hst s e u h hs.2).1.mpr hs.1⟩)
      ⟨sound_new,allIntact_new⟩
    refine ⟨fun hc => ?_,fun he => hso.ended he kind,fun hrunning ho => ?_⟩
    · rw [← hi kind,content_of_closed hc]
    · exact Tracked.awaited ((hso.good hrunning kind).tracked ho)

local instance : RegexEngine Empty where
  findAt r _ := nomatch r

def streaming : Config Empty :=
  { failureModeAllow := true, processingMode := { requestBodyMode := .streamed } }

def chunkHeld : List Event :=
  [.task .request (some []) .streamed ⟨[.ok (.data [97])],false,nofun⟩ {},
    .inbound (.headers .request (some {}) none), .bodyFrame .request 0 {} {}]

/-- Then the processor closes the stream: the chunk is never delivered. -/
theorem chunk_lost : ∃ t, Run (Guarded (Agreeable streaming) (Worker.Step tokenNames streaming))
    (.new streaming) (chunkHeld ++ [.inbound .closed]) t ∧
    (t.processing .request).frameBridge.injector = false ∧
    (t.processing .request).frameBridge.output = [] ∧
    (t.processing .request).original = [.ok (.data [97])] := by
  refine ⟨_,.cons ⟨⟨rfl,⟨[[97]],none,rfl⟩,rfl⟩,rfl⟩ (.cons ⟨⟨rfl,[],false,rfl⟩,rfl⟩
    (.cons ⟨⟨rfl,rfl⟩,rfl⟩ (.cons ⟨trivial,rfl⟩ (.nil _)))),rfl,rfl,rfl⟩

/-- Without the failure the chunk is sent at the end of the body, and the reply delivers it. -/
theorem chunk_delivered : streaming.failureModeAllow = true ∧ ∃ t, Run (Guarded (Safe streaming)
      (Guarded (Agreeable streaming) (Worker.Step tokenNames streaming))) (.new streaming)
      (chunkHeld ++ [.bodyFrame .request 0 {} {}, .inbound (.body .request (some {}))]) t ∧
    (t.processing .request).frameBridge.injector = false ∧
    tokens (t.processing .request).frameBridge.output =
      tokens (t.processing .request).original := by
  have hr : ∃ t, Run (Guarded (Safe streaming)
      (Guarded (Agreeable streaming) (Worker.Step tokenNames streaming))) (.new streaming)
      (chunkHeld++[.bodyFrame .request 0 {} {},.inbound (.body .request (some {}))]) t ∧
      (t.processing .request).frameBridge.injector = false :=
    ⟨_,.cons ⟨trivial,⟨rfl,⟨[[97]],none,rfl⟩,rfl⟩,rfl⟩ (.cons ⟨nofun,⟨rfl,[],false,rfl⟩,rfl⟩
      (.cons ⟨fun _ => rfl,⟨rfl,rfl⟩,rfl⟩ (.cons ⟨fun _ => rfl,⟨rfl,rfl⟩,rfl⟩
      (.cons ⟨fun _ _ _ => rfl,⟨rfl,rfl,[97],true,rfl⟩,rfl⟩ (.nil _))))),rfl⟩
  obtain ⟨t,hr,hc⟩ := hr
  exact ⟨rfl,t,hr,hc,((delivery_iff tokenNames streaming rfl _ t).2 hr .request).1 hc⟩

end ArionGateway.ExtProcDelivery
