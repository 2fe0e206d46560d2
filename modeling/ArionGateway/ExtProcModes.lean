import ArionGateway.ExtProcWorker

/-!
# Modes that a processor may ask for

With its reply to the headers of a request a processor may ask for other modes
of the rest of the transaction, from a list of allowed ones. Each mode is
compared with the entries of the list on its own. So the modes in force may
come from several entries, and then they are a combination that nobody allowed.
-/
namespace ArionGateway.ExtProcModes
open ExtProcWorker

section
variable {M : Type} [DecidableEq M] (allowed : List ProcessingMode) (field : ProcessingMode → M)

/-- The mode is asked for, and some entry of the list has it. -/
def Granted (asked : Option M) (mode : M) : Prop :=
  asked = some mode ∧ ∃ entry ∈ allowed, field entry = mode

/-- Nothing else is granted than what is in force. -/
def Keeps (asked : Option M) (old : M) : Prop :=
  ∀ mode, Granted allowed field asked mode → mode = old

/-- An entry has the mode that comes into force: the granted one, or else the old one.
An entry that has no mode of its own, as `unset` says, has the old one. -/
def Takes (entry : ProcessingMode) (field : ProcessingMode → M)
    (unset asked : Option M) (old : M) : Prop :=
  (∀ mode, Granted allowed field asked mode →
      field entry = mode ∨ some (field entry) = unset ∧ mode = old) ∧
    ((∀ mode, ¬ Granted allowed field asked mode) → field entry = old ∨ some (field entry) = unset)

/-- The mode in force once an entry is applied. -/
def applied (unset : Option M) (mode old : M) : M := if some mode = unset then old else mode

variable {a : List ProcessingMode} {f : ProcessingMode → M} {as u : Option M}

lemma overridden_of_granted {mode : M} (h : Granted a f as mode) (old : M) :
    overridden a f as old = mode := by
  obtain ⟨rfl,entry,he,hm⟩ := h
  have ha : a.any (f · = mode) = true := List.any_eq_true.mpr ⟨entry,he,decide_eq_true hm⟩
  rw [overridden,if_pos (by rw [ha,Bool.or_true])]

lemma overridden_of_not_granted (hn : a ≠ []) (h : ∀ m, ¬ Granted a f as m) (old : M) :
    overridden a f as old = old := by
  unfold overridden
  split
  next m =>
    refine if_neg fun ha => ?_
    rw [List.isEmpty_eq_false_iff.mpr hn,Bool.false_or,List.any_eq_true] at ha
    obtain ⟨entry,he,hm⟩ := ha
    exact h m ⟨rfl,entry,he,of_decide_eq_true hm⟩
  · rfl

lemma overridden_eq_old_iff (hn : a ≠ []) (old : M) :
    overridden a f as old = old ↔ Keeps a f as old := by
  by_cases hg : ∃ m, Granted a f as m
  · obtain ⟨m,hg⟩ := hg
    rw [overridden_of_granted hg]
    refine ⟨fun h m' hg' => ?_,fun h => h m hg⟩
    exact (Option.some.inj (hg'.1.symm.trans hg.1)).trans h
  · rw [not_exists] at hg
    exact iff_of_true (overridden_of_not_granted hn hg old) fun m h => absurd h (hg m)

lemma eq_applied_iff {m m' old : M} (hu : some m ≠ u ∨ m = old) :
    m = applied u m' old ↔ m' = m ∨ some m' = u ∧ m = old := by
  unfold applied
  split_ifs with he
  · refine ⟨fun h => .inr ⟨he,h⟩,fun h => h.elim (fun h => ?_) And.right⟩
    exact hu.resolve_left (not_not_intro (h ▸ he))
  · exact ⟨fun h => .inl h.symm,fun h => h.elim Eq.symm fun h => absurd h.1 he⟩

lemma overridden_eq_applied_iff (hn : a ≠ []) (hu : ∀ m, as = some m →
    some m ≠ u) (e : ProcessingMode) (old : M) :
    overridden a f as old = applied u (f e) old ↔ Takes a e f u as old := by
  by_cases hg : ∃ m, Granted a f as m
  · obtain ⟨m,hg⟩ := hg
    rw [overridden_of_granted hg,eq_applied_iff (.inl (hu m hg.1))]
    refine ⟨fun h => ⟨fun m' hg' => ?_,fun h => absurd hg (h m)⟩,fun h => h.1 m hg⟩
    exact Option.some.inj (hg'.1.symm.trans hg.1) ▸ h
  · rw [not_exists] at hg
    rw [overridden_of_not_granted hn hg,eq_applied_iff (.inr rfl),and_iff_left rfl]
    exact ⟨fun h => ⟨fun m h => absurd h (hg m),fun _ => h⟩,fun h => h.2 hg⟩

end

/-- A condition on each mode that can be asked for. -/
def EachMode (asked : ModeOverride) (old : MessageType → Modes)
    (P : ∀ {M : Type} [DecidableEq M], (ProcessingMode → M) → Option M → Option M → M → Prop) :
    Prop :=
  P (·.requestBodyMode) none asked.requestBodyMode (old .request).bodyMode ∧
    P (·.requestTrailerMode) (some .default) (asked.requestTrailerMode.filter (· ≠ .default))
      (old .request).trailerMode ∧
    P (·.responseHeaderMode) (some .default) (asked.responseHeaderMode.filter (· ≠ .default))
      (old .response).headerMode ∧
    P (·.responseBodyMode) none asked.responseBodyMode (old .response).bodyMode ∧
    P (·.responseTrailerMode) (some .default) (asked.responseTrailerMode.filter (· ≠ .default))
      (old .response).trailerMode

/-- The modes once an entry is applied as a whole; a default leaves the old mode. -/
def entryModes (entry : ProcessingMode) (old : MessageType → Modes) : MessageType → Modes
  | .request =>
    { old .request with
      bodyMode := entry.requestBodyMode
      trailerMode := applied (some .default) entry.requestTrailerMode (old .request).trailerMode }
  | .response =>
    { headerMode := applied (some .default) entry.responseHeaderMode (old .response).headerMode
      bodyMode := entry.responseBodyMode
      trailerMode := applied (some .default) entry.responseTrailerMode (old .response).trailerMode }

/-- Nothing changes, or one entry has all modes that come into force. -/
def OneEntry (allowed : List ProcessingMode) (asked : ModeOverride) (old : MessageType → Modes) :
    Prop :=
  (EachMode asked old fun field _ asked old => Keeps allowed field asked old) ∨
    ∃ entry ∈ allowed, EachMode asked old fun field unset asked old =>
      Takes allowed entry field unset asked old

/-- The modes with each one that can be asked for replaced. -/
def modesWith (asked : ModeOverride) (old : MessageType → Modes)
    (f : ∀ {M : Type} [DecidableEq M], (ProcessingMode → M) → Option M → Option M → M → M) :
    MessageType → Modes
  | .request =>
    { old .request with
      bodyMode := f (·.requestBodyMode) none asked.requestBodyMode (old .request).bodyMode
      trailerMode := f (·.requestTrailerMode) (some .default)
        (asked.requestTrailerMode.filter (· ≠ .default)) (old .request).trailerMode }
  | .response =>
    { headerMode := f (·.responseHeaderMode) (some .default)
        (asked.responseHeaderMode.filter (· ≠ .default)) (old .response).headerMode
      bodyMode := f (·.responseBodyMode) none asked.responseBodyMode (old .response).bodyMode
      trailerMode := f (·.responseTrailerMode) (some .default)
        (asked.responseTrailerMode.filter (· ≠ .default)) (old .response).trailerMode }

variable {allowed : List ProcessingMode} {asked : ModeOverride} {old : MessageType → Modes}

lemma modesWith_eq_iff
    (f g : ∀ {M : Type} [DecidableEq M], (ProcessingMode → M) → Option M → Option M → M → M) :
    modesWith asked old f = modesWith asked old g ↔ EachMode asked old fun fi un asked old =>
        f fi un asked old = g fi un asked old := by
  constructor
  · intro h
    have hq := Modes.mk.inj (congrFun h .request)
    have hp := Modes.mk.inj (congrFun h .response)
    exact ⟨hq.2.1,hq.2.2,hp.1,hp.2.1,hp.2.2⟩
  · rintro ⟨h₁,h₂,h₃,h₄,h₅⟩
    funext k
    cases k
    · rw [modesWith,modesWith,h₁,h₂]
    · rw [modesWith,modesWith,h₃,h₄,h₅]

lemma entryModes_eq (e : ProcessingMode) : entryModes e old =
    modesWith asked old fun fi un _ mode => applied un (fi e) mode := by
  funext k
  cases k <;> simp [entryModes,modesWith,applied]

lemma eachMode_congr
    {P Q : ∀ {M : Type} [DecidableEq M], (ProcessingMode → M) → Option M → Option M → M → Prop}
    (h : ∀ {M : Type} [DecidableEq M] (f : ProcessingMode → M) (u a : Option M)
      (mo : M), (∀ m, a = some m → some m ≠ u) → (P f u a mo ↔ Q f u a mo)) :
    EachMode a old P ↔ EachMode a old Q := by
  have hf : ∀ {M : Type} [DecidableEq M] (d : M) (a : Option M) (m : M),
      a.filter (· ≠ d) = some m → some m ≠ some d := fun d a m hm he =>
    of_decide_eq_true (Option.filter_eq_some_iff.mp hm).2 (Option.some.inj he)
  exact and_congr (h _ _ _ _ nofun) (and_congr (h _ _ _ _ (hf _ _)) (and_congr (h _ _ _ _ (hf _ _))
    (and_congr (h _ _ _ _ nofun) (h _ _ _ _ (hf _ _)))))

/-- The modes after a reply to the headers of a request are as they were or those of
one entry if and only if one entry has all modes that come into force. -/
theorem modes_of_one_entry_iff {ρ : Type} (config : Config ρ) (s : Worker)
    (ha : config.allowModeOverride = true) (hn : config.allowedOverrideModes ≠ [])
    (asked : ModeOverride) :
    let modes := (s.overrideModes config .request (some asked)).overridableModes
    (modes = s.overridableModes ∨
      ∃ entry ∈ config.allowedOverrideModes, modes = entryModes entry s.overridableModes) ↔
        OneEntry config.allowedOverrideModes asked s.overridableModes := by
  intro modes
  have hm : modes = modesWith asked s.overridableModes fun fi _ asked mode =>
      overridden config.allowedOverrideModes fi asked mode := by
    funext k
    simp only [modes,Worker.overrideModes,ha]
    cases k <;> rfl
  have ho : s.overridableModes = modesWith asked s.overridableModes fun _ _ _ mode => mode := by
    funext k
    cases k <;> rfl
  refine or_congr ?_ (exists_congr fun entry => and_congr_right fun _ => ?_)
  · rw [hm,Eq.congr_right ho,modesWith_eq_iff]
    exact eachMode_congr fun _ _ _ mode _ => overridden_eq_old_iff hn mode
  · rw [hm,entryModes_eq entry,modesWith_eq_iff]
    exact eachMode_congr fun _ _ _ mode hu => overridden_eq_applied_iff hn hu entry mode

/-- Requests may be streamed, or else responses buffered. -/
def eitherBody : Config Unit :=
  { allowModeOverride := true
    allowedOverrideModes :=
      [{ requestBodyMode := .streamed },{ responseBodyMode := .buffered }] }

/-- A processor that asks for both gets both, though no entry allows that. -/
theorem modes_of_two_entries :
    let modes := ((Worker.new eitherBody).overrideModes eitherBody .request
      (some { requestBodyMode := some .streamed, responseBodyMode := some .buffered })).overridableModes
    modes ≠ (Worker.new eitherBody).overridableModes ∧ ∀ entry ∈ eitherBody.allowedOverrideModes,
        modes ≠ entryModes entry (Worker.new eitherBody).overridableModes := by
  refine ⟨fun h => ?_,?_⟩
  · exact absurd (congrFun h .request) (by decide)
  · simp only [eitherBody,List.forall_mem_cons]
    exact ⟨fun h => absurd (congrFun h .response) (by decide),
      fun h => absurd (congrFun h .request) (by decide),nofun⟩

/-- One of the two is granted as it stands in the list. -/
theorem modes_of_first_entry :
    let modes := ((Worker.new eitherBody).overrideModes eitherBody .request
      (some { requestBodyMode := some .streamed })).overridableModes
    (modes = (Worker.new eitherBody).overridableModes ∨ ∃ e ∈ eitherBody.allowedOverrideModes,
        modes = entryModes e (Worker.new eitherBody).overridableModes) ↔
      OneEntry eitherBody.allowedOverrideModes { requestBodyMode := some .streamed }
        (Worker.new eitherBody).overridableModes :=
  modes_of_one_entry_iff eitherBody (Worker.new eitherBody) rfl (List.cons_ne_nil _ _) _

end ArionGateway.ExtProcModes
