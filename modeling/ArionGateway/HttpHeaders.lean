import ArionGateway.ByteStrings

/-!
# Header maps and header text

A header map as the list of its lines in order, with names in the normalised
form in which maps keep them. A line can be read as text if its bytes are
visible ASCII, blanks and tabs; what can be written is any text without control
characters. The functions on text are those of ASCII text.
-/
namespace ArionGateway.HttpHeaders
open ByteStrings

abbrev HeaderMap := List (Str × Str)

namespace HeaderMap

variable (headers : HeaderMap)

def get (name : Str) : Option Str := headers.lookup name

def getAll (name : Str) : List Str :=
  headers.filterMap fun line => if line.1 = name then some line.2 else none

def containsKey (name : Str) : Bool := headers.any fun line => line.1 = name

def remove (name : Str) : HeaderMap :=
  headers.filter fun line => line.1 ≠ name

def insert (name value : Str) : HeaderMap :=
  headers.remove name++[(name, value)]

def append (name value : Str) : HeaderMap := headers++[(name, value)]

variable {he : HeaderMap} {name other v : Str}

lemma getAll_append_list (f s : HeaderMap) (name : Str) :
    getAll (f++s) name = getAll f name++getAll s name := by
  simp [getAll]

@[simp] lemma getAll_remove_self : (he.remove name).getAll name = [] := by
  induction he with
  | nil => rfl
  | cons line he ih =>
    by_cases h : line.1 = name
    · simpa [remove,h] using ih
    · simp [remove,getAll]

lemma getAll_remove_of_ne (h : other ≠ name) : (he.remove name).getAll other = he.getAll other := by
  induction he with
  | nil => rfl
  | cons line he ih =>
    by_cases hn : line.1 = name
    · have hne : ¬ line.1 = other := fun ho => h (ho.symm.trans hn)
      simpa [remove,getAll,hn,h.symm] using ih
    · by_cases ho : line.1 = other
      · simpa [remove,getAll,ho,h] using ih
      · simpa [remove,getAll,hn,ho] using ih

@[simp] lemma getAll_insert_self : (he.insert name v).getAll name = [v] := by
  rw [insert,getAll_append_list,getAll_remove_self]
  simp [getAll]

lemma getAll_insert_of_ne (h : other ≠ name) :
    (he.insert name v).getAll other = he.getAll other := by
  rw [insert,getAll_append_list,getAll_remove_of_ne h]
  simp [getAll,h.symm]

@[simp] lemma getAll_append_self : (he.append name v).getAll name = he.getAll name++[v] := by
  rw [append]
  simp [getAll]

lemma getAll_append_of_ne (h : other ≠ name) :
    (he.append name v).getAll other = he.getAll other := by
  rw [append]
  simp [getAll,h.symm]

lemma containsKey_eq (he : HeaderMap) (n : Str) : he.containsKey n = !(he.getAll n).isEmpty := by
  induction he with
  | nil => rfl
  | cons line he ih =>
    by_cases h : line.1 = n
    · simp [containsKey,getAll,h]
    · simpa [containsKey,getAll,h] using ih

lemma get_eq_head? (he : HeaderMap) (n : Str) : he.get n = (he.getAll n).head? := by
  induction he with
  | nil => rfl
  | cons line he ih =>
    obtain ⟨key,v⟩ := line
    by_cases h : key = n
    · simp [get,getAll,h]
    · have hne : (n == key) = false := by simpa using Ne.symm h
      simpa [get,getAll,List.lookup_cons,h,hne] using ih

end HeaderMap

def isVisibleAscii (b : UInt8) : Bool := (32 ≤ b && b < 127) || b == 9

def isValid (b : UInt8) : Bool := (32 ≤ b && b != 127) || b == 9

def toStr (value : Str) : Option Str := if value.all isVisibleAscii then some value else none

lemma toStr_eq_some_iff {v t : Str} :
    toStr v = some t ↔ t = v ∧ ∀ b ∈ v, isVisibleAscii b = true := by
  rw [← List.all_eq_true,toStr]
  cases v.all isVisibleAscii with
  | false => simp
  | true => simp [eq_comm]

def fromStr (text : Str) : Option Str := if text.all isValid then some text else none

lemma isValid_of_isVisibleAscii {b : UInt8} (h : isVisibleAscii b = true) : isValid b = true := by
  simp only [isVisibleAscii,isValid] at h ⊢
  grind

lemma fromStr_of_toStr {v text : Str} (h : toStr v = some text) : fromStr text = some text := by
  obtain ⟨rfl,hv⟩ := toStr_eq_some_iff.mp h
  have hva : text.all isValid = true :=
    List.all_eq_true.mpr fun b hb => isValid_of_isVisibleAscii (hv b hb)
  rw [fromStr,if_pos hva]

def isWhitespace (b : UInt8) : Bool := (9 ≤ b && b ≤ 13) || b == 32

def trim (s : Str) : Str := ((s.dropWhile isWhitespace).reverse.dropWhile isWhitespace).reverse

def toAsciiLowercase (s : Str) : Str := s.map fun b => if 65 ≤ b && b ≤ 90 then b+32 else b

def eqIgnoreAsciiCase (s t : Str) : Bool := toAsciiLowercase s == toAsciiLowercase t

def splitOnce (c : UInt8) (s : Str) : Option (Str × Str) :=
  if c ∈ s then some (s.takeWhile (· != c), (s.dropWhile (· != c)).tail) else none

def rsplitOnce (c : UInt8) (s : Str) : Option (Str × Str) :=
  (splitOnce c s.reverse).map fun parts => (parts.2.reverse, parts.1.reverse)

def stripStart (start s : Str) : Option Str :=
  if startsWith s start then some (s.drop start.length) else none

def semicolon : UInt8 := 59
def equalsSign : UInt8 := 61
def comma : UInt8 := 44

end ArionGateway.HttpHeaders
