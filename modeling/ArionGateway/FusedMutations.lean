import ArionGateway.HeaderMutations

/-!
# Mutations that go out together

In buffered mode the mutation of the reply to the headers waits for that of the
reply to the body, and the two go out as one. One application makes all
removals before it sets anything, so a removal of the second reply comes before
what the first one sets. The effect is that of the two replies in a row unless
the values set by the first survive that way.
-/
namespace ArionGateway.FusedMutations
open ByteStrings GuardedEdits HeaderMutations HttpHeaders StringMatchers List Edit HeaderMutation

section
variable {ρ : Type} [RegexEngine ρ] (crate : HttpCrate) (rules : Option (HeaderMutationRules ρ))

/-- The mutation removes a header, with the permission of the rules. -/
def removes (mutation : HeaderMutation) (name : Str) : Bool :=
  mutation.removeHeaders.any fun key =>
    permittedBy rules key && crate.headerName key = some name

/-- What the permitted sets of a mutation do to the values of a header. -/
def setEdits (mutation : HeaderMutation) (name : Str) : List (Edit Str) :=
  editsOf crate name ((mutation.sets.filter (permittedBy rules ·.2.key)).map .set)

/-- Of a header that the second mutation removes, the sets of the first one leave
nothing: with them or without them, the sets of the second make the same of it. -/
def Undone (l r : HeaderMutation) : Prop :=
  ∀ name, removes crate rules r name = true →
    Edit.runAll (setEdits crate rules r name) (Edit.runAll (setEdits crate rules l name) []) =
      Edit.runAll (setEdits crate rules r name) []

/-- Equality of header maps. -/
def SameHeaders (headers headers' : HeaderMap) : Prop :=
  ∀ name, headers.getAll name = headers'.getAll name

def fused (l r : HeaderMutation) : HeaderMutation :=
  ⟨l.setHeaders++r.setHeaders,l.removeHeaders++r.removeHeaders⟩

variable {crate rules} {l r m : HeaderMutation}

lemma editsOf_append (n : Str) (ops ops' : List Op) :
    editsOf crate n (ops++ops') = editsOf crate n ops++editsOf crate n ops' := filterMap_append

lemma runAll_append (e e' : List (Edit Str)) (v : List Str) :
    runAll (e++e') v = runAll e' (runAll e v) := foldl_append

lemma runAll_removes (n : Str) (k : List Str) (values : List Str) :
    runAll (editsOf crate n (k.map .remove)) values =
      if k.any (crate.headerName · = some n) then [] else values := by
  induction k generalizing values with
  | nil => rfl
  | cons key k ih =>
    rw [map_cons,← singleton_append,editsOf_append,runAll_append,ih]
    by_cases hk : crate.headerName key = some n
    · simp [editsOf,Op.target,hk,runAll,on]
    · have he : editsOf crate n [.remove key] = [] := by
        cases h : crate.headerName key <;> simp_all [editsOf,Op.target]
      simp [he,hk,runAll]

lemma executedOps_of_lenient (hd : disallowIsError rules = false) :
    executedOps rules m = (m.removeHeaders.filter (permittedBy rules ·)).map .remove ++
      (m.sets.filter (permittedBy rules ·.2.key)).map .set := by
  rw [executedOps,hd,executed_of_lenient,ops,filter_append,filter_map,filter_map]
  simp [Function.comp_def,Op.key]

lemma getAll_applyHeaderMutations (hd : disallowIsError rules = false) (headers : HeaderMap)
    (n : Str) :
    (applyHeaderMutations crate rules headers m).1.getAll n = runAll (setEdits crate rules m n)
        (if removes crate rules m n then [] else headers.getAll n) := by
  rw [applyHeaderMutations_fst,getAll_foldl,executedOps_of_lenient hd,editsOf_append,
    runAll_append,runAll_removes,any_filter]
  rfl

lemma removes_fused (n : Str) : removes crate rules (fused l r) n =
    (removes crate rules l n || removes crate rules r n) := any_append

lemma setEdits_fused (name : Str) : setEdits crate rules (fused l r) name =
    setEdits crate rules l name++setEdits crate rules r name := by
  rw [setEdits,sets,fused,filterMap_append,filter_append,map_append,editsOf_append]
  rfl

lemma sameHeaders_fused_iff (hd : disallowIsError rules = false) (headers : HeaderMap) :
    SameHeaders (applyHeaderMutations crate rules headers (fused l r)).1
      (applyHeaderMutations crate rules (applyHeaderMutations crate rules headers l).1 r).1 ↔
      Undone crate rules l r := by
  refine forall_congr' fun name => ?_
  rw [getAll_applyHeaderMutations hd,getAll_applyHeaderMutations hd,
    getAll_applyHeaderMutations hd,setEdits_fused,runAll_append,removes_fused]
  cases hr : removes crate rules r name <;> simp

lemma regular_fused : (fused l r).regular = fused l.regular r.regular := by
  simp [regular,extractPseudoHeaders,fused]

end

/-- Under rules that do not ask for errors, two mutations that are joined into one
have the effect of the two in a row exactly if the second undoes what the first
sets in the headers that it removes. The same holds for the headers of requests and
responses whose replies go out together, pseudo-headers left aside. -/
theorem fused_eq_sequential_iff {ρ : Type} [RegexEngine ρ] (crate : HttpCrate)
    (rules : Option (HeaderMutationRules ρ)) (hd : disallowIsError rules = false)
    (l r : HeaderMutation) :
    ∃ m, concatHeaderMutations (some l) (some r) = some m ∧
      (∀ headers, SameHeaders (applyHeaderMutations crate rules headers m).1
        (applyHeaderMutations crate rules (applyHeaderMutations crate rules headers l).1 r).1 ↔
          Undone crate rules l r) ∧
      (∀ req, SameHeaders (modifyRequest crate rules req (some m)).1.headers
        (modifyRequest crate rules (modifyRequest crate rules req (some l)).1 (some r)).1.headers ↔
          Undone crate rules l.regular r.regular) ∧
      ∀ resp, SameHeaders (modifyResponse crate rules resp (some m)).1.headers
        (modifyResponse crate rules (modifyResponse crate rules resp (some l)).1 (some r)).1.headers ↔
          Undone crate rules l.regular r.regular := by
  have hr : ∀ headers, SameHeaders (applyHeaderMutations crate rules headers (fused l r).regular).1
      (applyHeaderMutations crate rules (applyHeaderMutations crate rules headers l.regular).1
        r.regular).1 ↔ Undone crate rules l.regular r.regular := fun headers => by
    rw [regular_fused]
    exact sameHeaders_fused_iff hd headers
  exact ⟨fused l r,rfl,sameHeaders_fused_iff hd,fun req => hr req.headers,
    fun resp => hr resp.headers⟩

local instance : RegexEngine Empty where
  findAt r _ := nomatch r

def setUser : HeaderMutation :=
  { setHeaders := [{ header := some { key := str "x-user", value := str "a" } }] }

def removeUser : HeaderMutation := { removeHeaders := [str "x-user"] }

/-- A header is set by the first reply and removed by the second. It stays if both
go out together. -/
theorem removed_header_stays :
    ∃ m, concatHeaderMutations (some setUser) (some removeUser) = some m ∧
      (applyHeaderMutations tokenNames (none : Option (HeaderMutationRules Empty)) [] m).1.getAll
        (str "x-user") = [str "a"] ∧
      (applyHeaderMutations tokenNames (none : Option (HeaderMutationRules Empty))
        (applyHeaderMutations tokenNames (none : Option (HeaderMutationRules Empty)) [] setUser).1
        removeUser).1.getAll (str "x-user") = [] :=
  ⟨_,rfl,by decide +kernel,by decide +kernel⟩

/-- The other way round the two replies commute with going out together. -/
theorem removed_then_set :
    ∃ m, concatHeaderMutations (some removeUser) (some setUser) = some m ∧ (∀ headers, SameHeaders
        (applyHeaderMutations tokenNames (none : Option (HeaderMutationRules Empty)) headers m).1
        (applyHeaderMutations tokenNames (none : Option (HeaderMutationRules Empty))
          (applyHeaderMutations tokenNames (none : Option (HeaderMutationRules Empty)) headers
            removeUser).1 setUser).1 ↔
        Undone tokenNames (none : Option (HeaderMutationRules Empty)) removeUser setUser) :=
  (fused_eq_sequential_iff tokenNames (none : Option (HeaderMutationRules Empty)) rfl removeUser
    setUser).imp fun _ h => ⟨h.1,h.2.1⟩

end ArionGateway.FusedMutations
