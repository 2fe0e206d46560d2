import ArionGateway.OAuth2Filter

/-!
# The query of the callback

The provider sends its answer in the query of the callback, written as a form. The decoder of the
filter takes back every way to write the pairs of a form, and refuses what is none.
-/
namespace ArionGateway.CallbackQueries
open ByteStrings HttpHeaders TextEncodings OAuth2Filter DelimitedText List Option

/-- The ways to write a text in a form: any byte may be escaped, with digits in either case. -/
inductive Writes : Str → Str → Prop
  | nil : Writes [] []
  | byte {b : UInt8} {s t : Str} : b ≠ percent → b ≠ plus → Writes s t → Writes (b::s) (b::t)
  | space {s t : Str} : Writes s t → Writes (32::s) (plus::t)
  | escape {high low h l : UInt8} {s t : Str} : hexValue high = some h → hexValue low = some l →
      Writes s t → Writes ((h <<< 4 ||| l)::s) (percent::high::low::t)

/-- The ways to write pairs one after the other, with empty ones anywhere between them. -/
inductive Pieces : List (Str × Str) → List Str → Prop
  | nil : Pieces [] []
  | empty {pairs : List (Str × Str)} {pieces : List Str} : Pieces pairs pieces →
      Pieces pairs ([]::pieces)
  | pair {name value n v : Str} {pairs : List (Str × Str)} {pieces : List Str} :
      Writes name n → Writes value v → equalsSign ∉ n → ampersand ∉ n → ampersand ∉ v →
      Pieces pairs pieces → Pieces ((name, value)::pairs) ((n++equalsSign::v)::pieces)

/-- Every percent sign is followed by two hexadecimal digits. -/
def Escaped (s : Str) : Prop :=
  ∀ rest, percent::rest <:+ s → ∃ high low tail, rest = high::low::tail ∧
    (hexValue high).isSome = true ∧ (hexValue low).isSome = true

variable {b : UInt8} {s t u v : Str}

lemma formBytes_cons_of_ne (h : b ≠ percent) (t : Str) :
    formBytes (b::t) = (formBytes t).map ((if b = plus then 32 else b)::·) := by
  rcases t with _ | ⟨c,_ | ⟨low,t⟩⟩
  · simp only [formBytes]
    split_ifs <;> rfl
  · exact if_neg h
  · exact if_neg h

lemma writes_of_formBytes_cons (h : b ≠ percent)
    (hs : ∃ r, formBytes t = some r ∧ (if b = plus then 32 else b)::r = s)
    (ih : ∀ s, formBytes t = some s → Writes s t) : Writes s (b::t) := by
  obtain ⟨r,hr,rfl⟩ := hs
  split_ifs with hp
  · rw [hp]
    exact .space (ih r hr)
  · exact .byte h hp (ih r hr)

lemma formBytes_eq_some_iff : formBytes t = some s ↔ Writes s t := by
  constructor
  · intro h
    induction t using formBytes.induct generalizing s with
    | case1 =>
      cases h
      exact .nil
    | case2 =>
      cases h
      exact .space .nil
    | case3 => cases h
    | case4 b hp hb =>
      rw [formBytes_cons_of_ne hb] at h
      exact writes_of_formBytes_cons hb (map_eq_some_iff.mp h) fun s hs => by
        cases hs
        exact .nil
    | case5 c => cases h
    | case6 b c hb ih | case8 b high low rest hb ih =>
      rw [formBytes_cons_of_ne hb] at h
      exact writes_of_formBytes_cons hb (map_eq_some_iff.mp h) fun s hs => ih hs
    | case7 high low rest ih =>
      obtain ⟨h',hh,h⟩ := bind_eq_some_iff.mp h
      obtain ⟨l,hl,h⟩ := bind_eq_some_iff.mp h
      obtain ⟨o,ho,h⟩ := bind_eq_some_iff.mp h
      cases h
      exact .escape hh hl (ih ho)
  · intro h
    induction h with
    | nil => rfl
    | byte hp hb _ ih => rw [formBytes_cons_of_ne hp,ih,map_some,if_neg hb]
    | space _ ih => rw [formBytes_cons_of_ne (by decide),ih,map_some,if_pos rfl]
    | escape hh hl _ ih => rw [formBytes,hh,hl,ih]; rfl

lemma Writes.append (h : Writes s t) (h' : Writes u v) : Writes (s++u) (t++v) := by
  induction h with
  | nil => exact h'
  | byte hp hb _ ih => exact .byte hp hb ih
  | space _ ih => exact .space ih
  | escape hh hl _ ih => exact .escape hh hl ih

lemma Writes.escaped (h : Writes s t) : Escaped t := by
  have hd : ∀ c x, hexValue c = some x → c ≠ percent := by
    rintro c x hc rfl
    cases hc
  induction h with
  | nil => exact fun rest hs => absurd (suffix_nil.mp hs) (cons_ne_nil _ _)
  | byte hp _ _ ih =>
    intro rest hs
    rcases suffix_cons_iff.mp hs with he | hs
    · exact absurd (cons.inj he).1.symm hp
    · exact ih rest hs
  | space _ ih =>
    intro rest hs
    rcases suffix_cons_iff.mp hs with he | hs
    · cases he
    · exact ih rest hs
  | @escape high low _ _ _ t hh hl _ ih =>
    intro rest hs
    rcases suffix_cons_iff.mp hs with he | hs
    · exact ⟨high,low,t,(cons.inj he).2,by rw [hh]; rfl,by rw [hl]; rfl⟩
    rcases suffix_cons_iff.mp hs with he | hs
    · exact absurd (cons.inj he).1.symm (hd _ _ hh)
    rcases suffix_cons_iff.mp hs with he | hs
    · exact absurd (cons.inj he).1.symm (hd _ _ hl)
    · exact ih rest hs

variable {L : Library} {c d : CallbackParameters} {pairs : List (Str × Str)} {pieces : List Str}

/-- One pair of the query. -/
def readPair (L : Library) (params : CallbackParameters) (pair : Str) :
    Option CallbackParameters :=
  if pair = [] then some params
  else do
    let (rawName, rawValue) ← splitOnce equalsSign pair
    let name ← strictFormDecode L rawName
    let value ← strictFormDecode L rawValue
    params.add name value

/-- What becomes of one parameter: it stands for itself at most once. -/
def Slot (name : Str) (pairs : List (Str × Str)) (old new : Option Str) : Prop :=
  old.toList.length+(pairs.map Prod.fst).count name ≤ 1 ∧ new = old.or (pairs.lookup name)

lemma slot_cons {name : Str} {p : Str × Str} {old new : Option Str} :
    Slot name (p::pairs) old new ↔ if p.1 = name then old = none ∧ Slot name pairs (some p.2) new
      else Slot name pairs old new := by
  obtain ⟨n,v⟩ := p
  split_ifs with h
  · obtain rfl : n = name := h
    cases old <;> simp [Slot]
  · simp [Slot,lookup_cons,h,beq_eq_false_iff_ne.mpr (Ne.symm h)]

lemma foldlM_add : pairs.foldlM (fun c p => c.add p.1 p.2) c = some d ↔
    Slot (str "code") pairs c.code d.code ∧ Slot (str "state") pairs c.state d.state ∧
      Slot (str "error") pairs c.error d.error := by
  induction pairs generalizing c with
  | nil =>
    obtain ⟨a,b,e⟩ := c
    obtain ⟨a',b',e'⟩ := d
    cases a <;> cases b <;> cases e <;> simp [Slot,eq_comm]
  | cons p pairs ih =>
    rw [foldlM_cons,slot_cons,slot_cons,slot_cons,CallbackParameters.add]
    by_cases hc : p.1 = str "code"
    · cases c.code <;> simp +decide [hc,ih]
    by_cases hs : p.1 = str "state"
    · cases c.state <;> simp +decide [hs,ih]
    by_cases he : p.1 = str "error"
    · cases c.error <;> simp +decide [he,ih]
    · simp [hc,hs,he,ih]

lemma foldlM_readPair (h : Pieces pairs pieces)
    (hu : ∀ p ∈ pairs, L.isUtf8 p.1 = true ∧ L.isUtf8 p.2 = true) :
    pieces.foldlM (readPair L) c = pairs.foldlM (fun c p => c.add p.1 p.2) c := by
  induction h generalizing c with
  | nil => rfl
  | empty _ ih => exact ih hu
  | @pair name value n v pairs pieces hn hv hne _ _ _ ih =>
    obtain ⟨⟨hun,huv⟩,hu⟩ := forall_mem_cons.mp hu
    have hr : readPair L c (n++equalsSign::v) = c.add name value := by
      simp only [readPair,strictFormDecode]
      rw [splitOnce_append hne]
      simp [formBytes_eq_some_iff.mpr hn,formBytes_eq_some_iff.mpr hv,filter_some,hun,huv]
    rw [foldlM_cons,hr]
    exact bind_congr fun c => ih hu

lemma Pieces.not_mem (h : Pieces pairs pieces) : ∀ p ∈ pieces, ampersand ∉ p := by
  induction h with
  | nil => exact forall_mem_nil _
  | empty _ ih => exact forall_mem_cons.mpr ⟨not_mem_nil,ih⟩
  | pair _ _ _ ha hb _ ih =>
    refine forall_mem_cons.mpr ⟨fun hm => ?_,ih⟩
    rcases mem_append.mp hm with hm | hm
    · exact ha hm
    · exact hb ((mem_cons.mp hm).resolve_left (by decide))

lemma parseCallbackQuery_pieces (h : Pieces pairs pieces)
    (hu : ∀ p ∈ pairs, L.isUtf8 p.1 = true ∧ L.isUtf8 p.2 = true) :
    parseCallbackQuery L ([ampersand].intercalate pieces) =
      pairs.foldlM (fun c p => c.add p.1 p.2) {} := by
  rw [← foldlM_readPair h hu]
  by_cases hp : pieces = []
  · rw [hp]
    rfl
  · rw [parseCallbackQuery,splitOn_intercalate _ h.not_mem hp]
    rfl

/-- A pair whose two sides are decoded to texts. -/
def Decoded (L : Library) (piece : Str) : Prop :=
  ∃ n v name value, piece = n++equalsSign::v ∧ equalsSign ∉ n ∧ formBytes n = some name ∧
    L.isUtf8 name = true ∧ formBytes v = some value ∧ L.isUtf8 value = true

lemma decoded_of_foldlM (h : pieces.foldlM (readPair L) c = some d) :
    ∀ piece ∈ pieces, piece ≠ [] → Decoded L piece := by
  induction pieces generalizing c with
  | nil => exact forall_mem_nil _
  | cons p pieces ih =>
    obtain ⟨c',hr,h⟩ := bind_eq_some_iff.mp h
    refine forall_mem_cons.mpr ⟨fun hne => ?_,ih h⟩
    rw [readPair,if_neg hne] at hr
    obtain ⟨⟨n,v⟩,hsp,hr⟩ := bind_eq_some_iff.mp hr
    obtain ⟨name,hn,hr⟩ := bind_eq_some_iff.mp hr
    obtain ⟨value,hv,-⟩ := bind_eq_some_iff.mp hr
    obtain ⟨hn,hun⟩ := filter_eq_some_iff.mp hn
    obtain ⟨hv,huv⟩ := filter_eq_some_iff.mp hv
    obtain ⟨hp,hne⟩ := splitOnce_eq_some hsp
    exact ⟨n,v,name,value,hp,hne,hn,hun,hv,huv⟩

lemma exists_writes_intercalate (h : ∀ piece ∈ pieces, piece ≠ [] → Decoded L piece) :
    ∃ s, Writes s ([ampersand].intercalate pieces) := by
  have hw : ∀ piece ∈ pieces, ∃ s, Writes s piece := by
    intro piece hp
    by_cases hne : piece = []
    · exact ⟨[],hne ▸ .nil⟩
    obtain ⟨n,v,name,value,rfl,-,hn,-,hv,-⟩ := h piece hp hne
    exact ⟨_,(formBytes_eq_some_iff.mp hn).append
      (.byte (by decide) (by decide) (formBytes_eq_some_iff.mp hv))⟩
  clear h
  induction pieces with
  | nil => exact ⟨[],.nil⟩
  | cons p pieces ih =>
    obtain ⟨⟨s,hs⟩,hw⟩ := forall_mem_cons.mp hw
    obtain ⟨t,ht⟩ := ih hw
    cases pieces with
    | nil => exact ⟨s,by rwa [intercalate_singleton]⟩
    | cons q pieces =>
      exact ⟨_,hs.append (.byte (by decide) (by decide) ht)⟩

variable (L) in
/-- However the pairs of a form are written, the parameters are read back if each is there at most
once, and refused if one is there twice; and what is read is a form of texts throughout. -/
theorem callback_query_exact :
    (∀ pairs pieces, Pieces pairs pieces →
      (∀ p ∈ pairs, L.isUtf8 p.1 = true ∧ L.isUtf8 p.2 = true) →
      let query := [ampersand].intercalate pieces
      let count := fun name => (pairs.map Prod.fst).count name
      let names := [str "code", str "state", str "error"]
      ((∀ name ∈ names, count name ≤ 1) → parseCallbackQuery L query =
        some ⟨pairs.lookup (str "code"),pairs.lookup (str "state"),pairs.lookup (str "error")⟩) ∧
      ((∃ name ∈ names, 2 ≤ count name) → parseCallbackQuery L query = none)) ∧
    ∀ query params, parseCallbackQuery L query = some params → Escaped query ∧
      ∀ piece ∈ query.splitOn ampersand, piece ≠ [] → Decoded L piece := by
  constructor
  · intro pairs pieces h hu query count names
    rw [parseCallbackQuery_pieces h hu]
    constructor
    · intro hc
      simp only [names,forall_mem_cons] at hc
      refine foldlM_add.mpr ⟨⟨?_,rfl⟩,⟨?_,rfl⟩,⟨?_,rfl⟩⟩
      · exact (zero_add _).trans_le hc.1
      · exact (zero_add _).trans_le hc.2.1
      · exact (zero_add _).trans_le hc.2.2.1
    · rintro ⟨name,hm,hc⟩
      change 2 ≤ (pairs.map Prod.fst).count name at hc
      refine eq_none_iff_forall_ne_some.mpr fun d hd => ?_
      obtain ⟨⟨ha,-⟩,⟨hb,-⟩,⟨he,-⟩⟩ := foldlM_add.mp hd
      simp only [names,mem_cons,not_mem_nil,or_false] at hm
      rcases hm with rfl | rfl | rfl <;> omega
  · intro query params h
    have hd := decoded_of_foldlM h
    refine ⟨?_,hd⟩
    obtain ⟨s,hs⟩ := exists_writes_intercalate hd
    rw [intercalate_splitOn] at hs
    exact hs.escaped

end ArionGateway.CallbackQueries
