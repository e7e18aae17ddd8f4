import Mathlib.Data.List.Chain
import FacesHttp3.Router.Registry
import FacesHttp3.Server.Responses

/-! # The handlers of a route

A finished request is handed from handler to handler: each is given the event and
the answer that the one before it returned. Which handlers these are was settled
when the dispatcher was filled from the route table. -/

namespace FacesHttp3.Server
open FacesHttp3.Lib FacesHttp3.Request FacesHttp3.Router FacesHttp3.RequestsTable

variable {M H L C W : Type}

/-- What a handler returns: the event it was given, and its answer. A response whose
event was taken out again holds none. -/
structure Response (W : Type) where
  finishedEvent : Option (FinishedEvent W)
  response : RouteResponse

structure HandlerCall (H W : Type) where
  handle : H
  event : FinishedEvent W
  response : RouteResponse

/-- The loop of `dispatch_finished`, with the calls it makes. It panics, with `none`,
behind a handler that returns no event. -/
def callHandlers (call : H → FinishedEvent W → RouteResponse → Response W) :
    List H → FinishedEvent W → RouteResponse → List (HandlerCall H W) × Option RouteResponse
  | [], _, response => ([], some response)
  | handle :: handles, event, response =>
    let answer := call handle event response
    match answer.finishedEvent with
    | none => ([⟨handle, event, response⟩], none)
    | some next =>
      let rest := callHandlers call handles next answer.response
      (⟨handle, event, response⟩ :: rest.1, rest.2)

def dispatchFinishedCalls (dispatcher : RouteEventDispatcher H)
    (call : H → FinishedEvent W → RouteResponse → Response W) (event : FinishedEvent W) :
    List (HandlerCall H W) × Option RouteResponse :=
  callHandlers call (dispatcher.handlersFor event.path event.method) event .ok200

def HandlerCall.answer (call : H → FinishedEvent W → RouteResponse → Response W)
    (made : HandlerCall H W) : Response W :=
  call made.handle made.event made.response

/-- The calls go through the handlers in their order, the first with `event` and
`start`, every other with what the call before it returned, and the last answer is
`last`. -/
structure HandedOn (call : H → FinishedEvent W → RouteResponse → Response W) (handles : List H)
    (event : FinishedEvent W) (start : RouteResponse) (calls : List (HandlerCall H W))
    (last : RouteResponse) : Prop where
  handles : calls.map HandlerCall.handle = handles
  first : ∀ made, calls.head? = some made → made.event = event ∧ made.response = start
  next : calls.IsChain fun made next => made.answer call = ⟨some next.event, next.response⟩
  last : last = (calls.getLast?.map fun made => (made.answer call).response).getD start

section Chain
variable {call : H → FinishedEvent W → RouteResponse → Response W}

theorem HandedOn.cons {handle : H} {handles : List H} {event next : FinishedEvent W}
    {start last : RouteResponse} {calls : List (HandlerCall H W)}
    (hevent : (call handle event start).finishedEvent = some next)
    (h : HandedOn call handles next (call handle event start).response calls last) :
    HandedOn call (handle :: handles) event start (⟨handle, event, start⟩ :: calls) last := by
  have hanswer : (HandlerCall.mk handle event start).answer call =
      ⟨some next, (call handle event start).response⟩ := by
    rw [← hevent]
    rfl
  refine ⟨by rw [List.map_cons, h.handles], ?_, ?_, ?_⟩
  · intro made hmade
    cases hmade
    exact ⟨rfl, rfl⟩
  · rw [List.isChain_cons]
    refine ⟨fun made hmade => ?_, h.next⟩
    obtain ⟨hfirst, hresponse⟩ := h.first made hmade
    rw [hanswer, hfirst, hresponse]
  · rw [h.last]
    cases calls with
    | nil => simp [hanswer]
    | cons made rest => simp [List.getLast?_eq_some_getLast]

/-- As long as the handlers that are called give their event back, all of them are
called. -/
theorem callHandlers_handedOn (handles : List H) (event : FinishedEvent W) (start : RouteResponse)
    (hback : ∀ made ∈ (callHandlers call handles event start).1,
      (made.answer call).finishedEvent.isSome) :
    ∃ last, (callHandlers call handles event start).2 = some last ∧
      HandedOn call handles event start (callHandlers call handles event start).1 last := by
  induction handles generalizing event start with
  | nil =>
    refine ⟨start, rfl, rfl, ?_, List.isChain_nil, rfl⟩
    intro made hmade
    cases hmade
  | cons handle handles ih =>
    cases hnext : (call handle event start).finishedEvent with
    | none =>
      have hcalls : (callHandlers call (handle :: handles) event start).1 =
          [⟨handle, event, start⟩] := by
        rw [callHandlers]
        simp only [hnext]
      have hsome : (call handle event start).finishedEvent.isSome :=
        hback ⟨handle, event, start⟩ (by rw [hcalls]; exact List.mem_cons_self)
      rw [hnext] at hsome
      cases hsome
    | some next =>
      have hcalls : callHandlers call (handle :: handles) event start =
          (⟨handle, event, start⟩ ::
              (callHandlers call handles next (call handle event start).response).1,
            (callHandlers call handles next (call handle event start).response).2) := by
        rw [callHandlers]
        simp only [hnext]
      rw [hcalls] at hback ⊢
      obtain ⟨last, hlast, hchain⟩ := ih next (call handle event start).response
        fun made hmade => hback made (List.mem_cons_of_mem _ hmade)
      exact ⟨last, hlast, hchain.cons hnext⟩

end Chain

/-- Where no handler keeps the event, the loop is a fold over the handlers. -/
theorem dispatchFinished_eq
    (call : H → FinishedEvent W → RouteResponse → FinishedEvent W × RouteResponse)
    (handles : List H) (event : FinishedEvent W) :
    (callHandlers (fun handle event response =>
        ⟨some (call handle event response).1, (call handle event response).2⟩) handles event .ok200).2 =
      some (dispatchFinished call handles event) := by
  unfold dispatchFinished
  generalize RouteResponse.ok200 = start
  induction handles generalizing event start with
  | nil => rfl
  | cons handle handles ih => exact ih _ _

/-! ## Lookups by a request path -/

theorem parseArgs_query {path : String} (query : String) (h : ¬ HasQuery path) :
    (ReqArgs.parseArgs (path ++ "?" ++ query)).1 = path := by
  rw [parseArgs_append query h]

theorem getRoutes_fst {manager : RouteManager M H L C} {path : String} {method : H3Method}
    {route : RouteForm M H L} :
    (∃ args, manager.getRoutesFromPathAndMethod path method = some (route, args)) ↔
      manager.routesFormats.find (ReqArgs.parseArgs path).1 method = some route := by
  unfold RouteManager.getRoutesFromPathAndMethod
  dsimp only
  cases manager.routesFormats.find (ReqArgs.parseArgs path).1 method <;> simp

/-- The handlers under a path and method are those of the registered route. -/
theorem handlersFor_registered {routes : List (RouteForm M H L)} {table iterated : RouteTable M H L}
    (h : RouteTable.Holds routes table) (hperm : iterated.entries.Perm table.entries)
    (path : String) (method : H3Method) :
    (∀ route ∈ routes, route.key = (path, method) →
      (RouteEventDispatcher.setHandles iterated).handlersFor path method = route.handles) ∧
    ((path, method) ∉ routes.map RouteForm.key →
      (RouteEventDispatcher.setHandles iterated).handlersFor path method = []) := by
  unfold RouteEventDispatcher.handlersFor
  rw [RouteEventDispatcher.setHandles_apply, RouteTable.find_perm hperm]
  refine ⟨?_, ?_⟩
  · intro route hmem hkey
    rw [h.find_eq_some_iff.mpr ⟨hmem, hkey⟩]
    rfl
  · intro hnone
    rw [h.find, RouteTable.find?_key_eq_none_iff.mpr hnone]
    rfl

/-- Registering panics exactly on a repeated pair of path and method; otherwise every
lookup, with or without a query string, gives the route registered for it, and a
finished event goes through exactly that route's handlers. `iterated` is the table in
the order in which the dispatcher was filled from it. -/
theorem registry_and_handler_chain (routes : List (RouteForm M H L)) :
    ((RouteTable.empty : RouteTable M H L).addNewRoutes routes = none ↔
      ¬ (routes.map RouteForm.key).Nodup) ∧
    ∀ manager : RouteManager M H L C,
      (RouteTable.empty : RouteTable M H L).addNewRoutes routes = some manager.routesFormats →
      (∀ path query method route, ¬ HasQuery path →
        ((∃ args, manager.getRoutesFromPathAndMethod path method = some (route, args)) ↔
          route ∈ routes ∧ route.key = (path, method)) ∧
        ((∃ args, manager.getRoutesFromPathAndMethod (path ++ "?" ++ query) method =
            some (route, args)) ↔
          route ∈ routes ∧ route.key = (path, method))) ∧
      ∀ (iterated : RouteTable M H L), iterated.entries.Perm manager.routesFormats.entries →
        ∀ (call : H → FinishedEvent W → RouteResponse → Response W) (event : FinishedEvent W)
          (calls : List (HandlerCall H W)) (outcome : Option RouteResponse),
          dispatchFinishedCalls (RouteEventDispatcher.setHandles iterated) call event =
            (calls, outcome) →
          (∀ made ∈ calls, (made.answer call).finishedEvent.isSome) →
          ∃ last, outcome = some last ∧
            (∀ route ∈ routes, route.key = (event.path, event.method) →
              HandedOn call route.handles event .ok200 calls last) ∧
            ((event.path, event.method) ∉ routes.map RouteForm.key → calls = [] ∧ last = .ok200) := by
  refine ⟨?_, ?_⟩
  · rw [← RouteTable.addNewRoutes_isSome_iff, Option.not_isSome_iff_eq_none]
  · intro manager hadd
    have hholds := RouteTable.holds_of_addNewRoutes hadd
    refine ⟨?_, ?_⟩
    · intro path query method route hpath
      rw [getRoutes_fst, getRoutes_fst, parseArgs_query query hpath,
        parseArgs_of_not_hasQuery hpath, ← hholds.find_eq_some_iff]
      exact ⟨Iff.rfl, Iff.rfl⟩
    · intro iterated hperm call event calls outcome hrun hback
      obtain ⟨hregistered, hnone⟩ := handlersFor_registered hholds hperm event.path event.method
      unfold dispatchFinishedCalls at hrun
      have hcalls : (callHandlers call ((RouteEventDispatcher.setHandles iterated).handlersFor
          event.path event.method) event .ok200).1 = calls := by rw [hrun]
      obtain ⟨last, hlast, hchain⟩ := callHandlers_handedOn
        ((RouteEventDispatcher.setHandles iterated).handlersFor event.path event.method) event .ok200
        (by rw [hcalls]; exact hback)
      rw [hrun] at hlast hchain
      refine ⟨last, hlast, ?_, ?_⟩
      · intro route hmem hkey
        rwa [hregistered route hmem hkey] at hchain
      · intro hfree
        rw [hnone hfree] at hchain
        have hempty : calls = [] := List.map_eq_nil_iff.mp hchain.handles
        refine ⟨hempty, ?_⟩
        rw [hchain.last, hempty]
        rfl

/-- A route with two handlers. -/
def greeting : RouteForm Unit Nat Unit where
  method := .GET
  eventSubscriber := none
  handlerSubscriber := [1, 2]
  middlewares := []
  path := "/greeting"
  dataManagementType := none

def greetingEvent : FinishedEvent Unit where
  id := ("c", 0)
  scid := []
  path := "/greeting"
  method := .GET
  headers := []
  args := none
  filePath := none
  writer := none
  bytesWritten := 0
  body := none
  isEnd := true

/-- A handler that answers with its number. -/
def answerNumber (handle : Nat) (event : FinishedEvent Unit) (_ : RouteResponse) : Response Unit :=
  ⟨some event, .ok200Data [UInt8.ofNat handle]⟩

theorem registry_and_handler_chain_greeting : ∃ (manager : RouteManager Unit Nat Unit Unit)
    (calls : List (HandlerCall Nat Unit)) (last : RouteResponse),
    (RouteTable.empty : RouteTable Unit Nat Unit).addNewRoutes [greeting] =
      some manager.routesFormats ∧
    dispatchFinishedCalls manager.routeEventDispatcher answerNumber greetingEvent =
      (calls, some last) ∧
    HandedOn answerNumber [1, 2] greetingEvent .ok200 calls last := by
  have hsome := RouteTable.addNewRoutes_isSome_iff.mpr
    (show ([greeting].map RouteForm.key).Nodup from List.nodup_singleton _)
  obtain ⟨table, htable⟩ := Option.isSome_iff_exists.mp hsome
  let manager : RouteManager Unit Nat Unit Unit := ⟨table, []⟩
  obtain ⟨last, hlast, hchain, -⟩ :=
    ((registry_and_handler_chain (W := Unit) [greeting]).2 manager htable).2 table (List.Perm.refl _)
      answerNumber greetingEvent _ _ rfl (fun _ _ => rfl)
  exact ⟨manager, _, last, htable, Prod.ext rfl hlast,
    hchain greeting (List.mem_singleton.mpr rfl) rfl⟩

end FacesHttp3.Server
