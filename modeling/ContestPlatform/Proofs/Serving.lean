import ContestPlatform.Proofs.Performing
import ContestPlatform.Proofs.Veil

/-!
# Requests and endpoints

A request whose path and method are those of an endpoint is answered by it: with the response that
it gives, or with the response to the failure that it ends with. Any other request changes nothing.
A method that a route of administrators does not allow is looked at only after the caller, so only
administrators are told that it is not allowed.
-/

namespace ContestPlatform.Http

/-- The path and the method of a request are those of an endpoint. -/
def Matches (r : Request) (e : Endpoint) : Prop :=
  ∃ route, Route.ofPath? r.address.path = some route ∧ route.endpoint? r.method = some e

/-- A request is one for one endpoint at most. -/
theorem Matches.unique {r : Request} {e e' : Endpoint} (h : Matches r e) (h' : Matches r e') :
    e = e' := by
  obtain ⟨route, hroute, hendpoint⟩ := h
  obtain ⟨route', hroute', hendpoint'⟩ := h'
  obtain rfl := Option.some.inj (hroute.symm.trans hroute')
  exact Option.some.inj (hendpoint.symm.trans hendpoint')

/-- The response to a request that ends with a fault. -/
def answered (r : Request) (fault : Fault) : Response :=
  withoutBody r (compress r (Failure.response (.fault fault)))

/-- What is left out or compressed in the end does not concern the status. -/
theorem status_withoutBody (r : Request) (response : Response) :
    (withoutBody r (compress r response)).status = response.status := by
  unfold withoutBody
  split <;> rfl

section Arguments

variable {r : Request}

theorem caller_of_none (h : caller? r = none) : caller r = throw (.fault .unauthorized) := by
  unfold caller
  rw [h]

theorem caller_of_some {userId : Uuid} (h : caller? r = some userId) : caller r = pure userId := by
  unfold caller
  rw [h]

theorem identifier_of_some {segment : String} {id : Uuid}
    (h : (Text.Percent.decodeText? segment).bind Uuid.ofText? = some id) :
    identifier segment = pure id := by
  unfold identifier
  rw [h]

end Arguments

/-! ## Who is let through -/

/-- Why a caller is not let through to the routes of administrators. -/
def refusal? (db : Database) (r : Request) : Option Fault :=
  match caller? r with
  | none => some .unauthorized
  | some userId => if db.isAdmin userId then none else some .adminRequired

theorem status_of_refusal {db : Database} {r : Request} {fault : Fault}
    (h : refusal? db r = some fault) : (answered r fault).status < 500 := by
  have hstatus : fault.status < 500 := by
    unfold refusal? at h
    split at h
    · cases h
      decide
    · split_ifs at h
      cases h
      decide
  rw [answered, status_withoutBody]
  exact hstatus

theorem guarded_of_open {r : Request} {e : Endpoint} (he : e.isAdmin = false) :
    Veil.guarded r e = handle r e := by
  unfold Veil.guarded
  rw [he]
  rfl

section Serving

variable {κ : Type} [ContentStore κ]

/-- A service operation runs in a handler as it does alone, and its fault is the failure of the
    handler. -/
theorem run_run {α : Type} (operation : Service α) (s : Stores κ) :
    s.run (run operation).run =
      ((s.perform operation).1.mapError .fault, (s.perform operation).2) := by
  refine (Program.run_bind Stores.answer operation.run _ s).trans ?_
  unfold Stores.perform Stores.run
  rcases Program.run Stores.answer operation.run s with ⟨fault | a, t⟩
  · rfl
  · rfl

theorem run_serve_of_matches {r : Request} {e : Endpoint} (h : Matches r e) (s : Stores κ) :
    s.run (serve r) =
      (withoutBody r (compress r (match (s.run (Veil.guarded r e).run).1 with
        | .ok response => response
        | .error failure => failure.response)), (s.run (Veil.guarded r e).run).2) := by
  obtain ⟨route, hroute, hendpoint⟩ := h
  have hoptions : r.method ≠ "OPTIONS" := by
    intro heq
    rw [heq] at hendpoint
    exact nomatch hendpoint
  unfold serve
  simp only [if_neg hoptions, hroute, hendpoint]
  rw [Veil.run_finish (fun response => withoutBody r (compress r response)), serveEndpoint,
    Veil.run_respond]
  rfl

theorem run_admitAdmin (r : Request) (s : Stores κ) :
    s.run (admitAdmin r).run = (match refusal? s.database r with
      | none => .ok ()
      | some fault => .error (.fault fault), s) := by
  unfold admitAdmin refusal?
  cases hcaller : caller? r with
  | none =>
    rw [caller_of_none hcaller]
    rfl
  | some userId =>
    have hasked : s.run (run (Service.database (.isAdmin userId))).run =
        (.ok (s.database.isAdmin userId), s) := rfl
    rw [caller_of_some hcaller, pure_bind, Stores.run_bind, hasked]
    dsimp only
    cases s.database.isAdmin userId <;> rfl

/-! ## Requests that no endpoint is for -/

/-- The path of a request is that of a route, and the route does not allow the method. -/
structure NotAllowed (r : Request) (route : Route) : Prop where
  method : r.method ≠ "OPTIONS"
  path : Route.ofPath? r.address.path = some route
  endpoint : route.endpoint? r.method = none

/-- Such a request changes nothing. Who is let through to the route is told that the method is not
    allowed, and all are told which methods are. -/
theorem run_serve_of_notAllowed {r : Request} {route : Route} (h : NotAllowed r route)
    (s : Stores κ) :
    s.run (serve r) = (tellAllowed route
      (((if route.isAdmin then refusal? s.database r else none).map (answered r)).getD
        (.empty 405)), s) := by
  unfold serve
  simp only [if_neg h.method, h.path, h.endpoint]
  rw [Veil.run_finish (fun response => tellAllowed route (withoutBody r (compress r response))),
    serveNotAllowed, Veil.run_respond]
  -- There is no body to compress or to leave out.
  have hempty : withoutBody r (compress r (.empty 405)) = .empty 405 := by
    have hcompress : compress r (.empty 405) = .empty 405 := by
      unfold compress
      rw [show (Response.empty 405).body.isLong = false from rfl, Bool.and_false]
      rfl
    rw [hcompress, withoutBody]
    split_ifs <;> rfl
  cases route.isAdmin with
  | false => exact congrArg (fun response => (tellAllowed route response, s)) hempty
  | true =>
    simp only [if_true]
    rw [Stores.run_bind, run_admitAdmin]
    cases refusal? s.database r with
    | none => exact congrArg (fun response => (tellAllowed route response, s)) hempty
    | some fault => rfl

/-- A request that is not one for an endpoint changes nothing, and its response is no failure. -/
theorem run_serve_of_not_matches {r : Request} (h : ∀ e, ¬ Matches r e) (s : Stores κ) :
    (s.run (serve r)).2 = s ∧ (s.run (serve r)).1.status < 500 := by
  by_cases hoptions : r.method = "OPTIONS"
  · unfold serve
    simp only [if_pos hoptions]
    exact ⟨rfl, (by decide : 200 < 500)⟩
  · cases hroute : Route.ofPath? r.address.path with
    | none =>
      unfold serve
      simp only [if_neg hoptions, hroute]
      exact ⟨rfl, (by decide : 404 < 500)⟩
    | some route =>
      cases hendpoint : route.endpoint? r.method with
      | some e => exact absurd ⟨route, hroute, hendpoint⟩ (h e)
      | none =>
        rw [run_serve_of_notAllowed ⟨hoptions, hroute, hendpoint⟩]
        refine ⟨rfl, ?_⟩
        split_ifs
        · cases hrefusal : refusal? s.database r with
          | none => exact (by decide : 405 < 500)
          | some fault => exact status_of_refusal hrefusal
        · exact (by decide : 405 < 500)

/-- A request to an endpoint that ends with a fault before anything was changed. -/
theorem run_serve_of_refused {r : Request} {e : Endpoint} (h : Matches r e) {s : Stores κ}
    {fault : Fault} (hrefused : s.run (Veil.guarded r e).run = (.error (.fault fault), s)) :
    s.run (serve r) = (answered r fault, s) := by
  rw [run_serve_of_matches h, hrefused]
  rfl

end Serving

end ContestPlatform.Http
