import ArionGateway.RouteFilters

/-!
# The phases of a request

The request goes through the chain of its route, and after a reroute through the rest of the chain
of the new one; then the action of the route answers, and the filters that let the request pass see
the response in the reverse order. An action that fails leaves them without a response.
-/
namespace ArionGateway.RouteFilters
open List FilterDecision

variable {C F Req Resp E : Type}

/-- What became of a request: the positions it came to, the action that was run, and the filters
that were given the response. -/
structure Served (C F Req Resp E : Type) where
  visited : List (Route C × Option (HttpFilterValue F))
  acted : List (Route C × Req)
  responded : List (HttpFilterValue F)
  result : Except E Resp

def FilterDecision.passes : FilterDecision Resp → Bool
  | .directResponse _ => false
  | .continue | .reroute => true

/-- A filter given the request, what it decided and what became of it. -/
structure Execution (F Resp : Type) where
  value : HttpFilterValue F
  decision : FilterDecision Resp
  after : HttpFilterValue F

/-- One pass over the positions: at each of them the route in force, which is the one matched last,
and the execution if there is one; then the decision, the route and the request at the end. -/
structure Phase (C F Req Resp : Type) where
  visits : List (Route C × Option (Execution F Resp))
  decision : FilterDecision Resp
  route : Option (Route C)
  request : Req

namespace Phase
variable (self : Phase C F Req Resp)

def executions : List (Execution F Resp) := self.visits.filterMap Prod.snd

/-- The filters that passed the request on. -/
def passed : List (HttpFilterValue F) :=
  (self.executions.filter (·.decision.passes)).map Execution.after

/-- No route matched, or a filter answered. -/
def Answered : Prop := self.route = none ∨ ∃ e ∈ self.executions, e.decision.passes = false

/-- The visits are to the first positions in their order, and at each runs what the chain of the
route in force has there. -/
def InOrder (b : Builders C F) (hcmFilters : List (HttpFilter C F)) : Prop :=
  Forall₂ (fun v f => v.2.map Execution.value = (compileFilter b v.1 f).active) self.visits
    (hcmFilters.take self.visits.length)

end Phase

variable (b : Builders C F) (apply : Behaviour F Req Resp)
  (hcmFilters : List (HttpFilter C F)) (matchRequestRoute : Req → Option (Route C))
  (notFound : Req → Resp) (action : Route C → Req → Except E Resp)
  (mutations : Route C → Resp → Resp)
  (applyResponse : HttpFilterValue F → Resp → FilterDecision Resp × Resp)

def requestPhase : Option (Route C) → Req → List (HttpFilter C F) → Phase C F Req Resp
  | none, request, _ => ⟨[],.directResponse (notFound request),none,request⟩
  | some route, request, [] => ⟨[],.continue,some route,request⟩
  | some route, request, f::fs =>
    let (execution, rest) : Option (Execution F Resp) × _ := match (compileFilter b route f).active with
      | none => (none, requestPhase (some route) request fs)
      | some value =>
        let (decision, after, request') := apply (value.newFrom b) request
        (some ⟨value,decision,after⟩, match decision with
          | .continue => requestPhase (some route) request' fs
          | .directResponse response => ⟨[],.directResponse response,some route,request'⟩
          | .reroute => requestPhase (matchRequestRoute request') request' fs)
    { rest with visits := (route, execution)::rest.visits }

/-- The loop over the active filters. A direct response takes the place of the response. -/
def applyResponses : List (HttpFilterValue F) → Resp → List (HttpFilterValue F) × Resp
  | [], response => ([], response)
  | filter::rest, response =>
    let next := match applyResponse filter response with
      | (.directResponse direct, _) => direct
      | (_, response) => response
    let (called, last) := applyResponses rest next
    (filter::called, last)

/-- The answer to a request before the response phase, with the action that was run. The action of
a route, which may fail, and the mutations of a response are parameters. -/
def answer :
    FilterDecision Resp → Option (Route C) → Req → List (Route C × Req) × Except E Resp
  | _, none, request => ([], .ok (notFound request))
  | .directResponse response, some route, _ => ([], .ok (mutations route response))
  | _, some route, request => ([(route, request)], mutations route <$> action route request)

/-- `RoutingState::to_response`, with at most one lookup of a route more than there are filters. -/
def toResponse (request : Req) : Option (Served C F Req Resp E) := do
  let (decision, cachedRoute, p) ←
    filterRequest b apply hcmFilters matchRequestRoute notFound request
  match answer notFound action mutations decision cachedRoute p.request with
  | (acted, .error e) => some ⟨p.visited,acted,[],.error e⟩
  | (acted, .ok response) =>
    let (responded, last) := applyResponses applyResponse p.activeFilters.reverse response
    some ⟨p.visited,acted,responded,.ok last⟩

open Phase

variable {b} {apply} {hcmFilters} {matchRequestRoute} {notFound} {action} {mutations}
  {applyResponse} {fs : List (HttpFilter C F)} {r : Option (Route C)}

/-- By induction on the positions that are left: at each the loop goes on, or answers. -/
lemma filterLoop_eq {p : Progress C F Req} {n : ℕ} (hp : hcmFilters.drop p.filterStartIdx = fs)
    (hn : fs.length ≤ n) :
    let phase := requestPhase b apply matchRequestRoute notFound r p.request fs
    filterLoop b apply hcmFilters matchRequestRoute notFound (n+1) r p =
      some (phase.decision, phase.route, {
        filterStartIdx := p.filterStartIdx+phase.visits.length
        request := phase.request
        activeFilters := p.activeFilters++phase.passed
        visited := p.visited++phase.visits.map (Prod.map id (Option.map Execution.value)) }) := by
  induction fs generalizing p n r with
  | nil =>
    cases r with
    | none => simp [filterLoop,requestPhase,passed,executions]
    | some route =>
      rw [filterLoop,compileRouteHttpFilters,← map_drop,hp]
      simp [runFilters,requestPhase,passed,executions]
  | cons f fs ih =>
    cases r with
    | none => simp [filterLoop,requestPhase,passed,executions]
    | some route =>
      have hd : hcmFilters.drop (p.filterStartIdx+1) = fs := by
        rw [← drop_drop,hp,drop_one,tail_cons]
      have hgo := fun request active value => ih (r := some route)
        (p := ⟨p.filterStartIdx+1,request,active,p.visited++[(route, value)]⟩) hd
        (Nat.le_of_succ_le hn)
      simp only [filterLoop,compileRouteHttpFilters,← map_drop,hd] at hgo
      rw [filterLoop,compileRouteHttpFilters,← map_drop,hp,map_cons,runFilters,requestPhase]
      cases (compileFilter b route f).active with
      | none =>
        rw [hgo]
        simp [passed,executions]
        omega
      | some value =>
        dsimp only
        rcases apply (value.newFrom b) p.request with ⟨d,after,request⟩
        cases d with
        | directResponse response =>
          simp [passed,executions,passes]
        | «continue» =>
          rw [hgo]
          simp [passed,executions,passes]
          omega
        | reroute =>
          cases n with
          | zero => cases hn
          | succ n =>
            dsimp only
            rw [ih hd (Nat.le_of_succ_le_succ hn)]
            simp [passed,executions,passes]
            omega

lemma requestPhase_spec (request : Req) :
    let phase := requestPhase b apply matchRequestRoute notFound r request fs
    phase.InOrder b fs ∧ (phase.decision.passes = false ↔ phase.Answered) := by
  induction fs generalizing r request with
  | nil =>
    cases r with
    | none => exact ⟨.nil,iff_of_true rfl (.inl rfl)⟩
    | some route =>
      exact ⟨.nil,iff_of_false nofun (by simp [Phase.Answered,executions,requestPhase])⟩
  | cons f fs ih =>
    cases r with
    | none => exact ⟨.nil,iff_of_true rfl (.inl rfl)⟩
    | some route =>
      rw [requestPhase]
      cases hv : (compileFilter b route f).active with
      | none => exact (ih request).imp_left (.cons hv.symm)
      | some value =>
        dsimp only
        rcases apply (value.newFrom b) request with ⟨d,after,request'⟩
        cases d with
        | directResponse response =>
          exact ⟨.cons hv.symm .nil,iff_of_true rfl (.inr ⟨_,mem_singleton_self _,rfl⟩)⟩
        | «continue» | reroute =>
          refine (ih request').imp (.cons hv.symm) fun h => h.trans ?_
          simp [Phase.Answered,executions,passes]

lemma fst_applyResponses (filters : List (HttpFilterValue F)) (response : Resp) :
    (applyResponses applyResponse filters response).1 = filters := by
  induction filters generalizing response with
  | nil => rfl
  | cons f fs ih => exact congrArg (f::·) (ih _)

variable (notFound action mutations r) in
lemma answer_spec (d : FilterDecision Resp) (request : Req) :
    let a := answer notFound action mutations d r request
    (a.1 = [] ↔ r = none ∨ d.passes = false) ∧ ((∃ response, a.2 = .ok response) ↔
      ∀ call ∈ a.1, ∃ response, action call.1 call.2 = .ok response) := by
  cases r with
  | none => simp [answer]
  | some route =>
    cases d with
    | directResponse response => simp [answer,passes]
    | «continue» | reroute =>
      cases h : action route request <;> simp [answer,passes,h]

end ArionGateway.RouteFilters
