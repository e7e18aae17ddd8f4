import FacesHttp3.Router.Registry

/-! # Global middlewares

A route copies the global middlewares as they stand when it is registered, a
downstream copies none. Which sequences of calls leave an entry of the router
without a global middleware is read off the calls. -/

namespace FacesHttp3.Router
open FacesHttp3.Lib FacesHttp3.Request

variable {M H L C : Type}

/-! ## The calls -/

/-- What the closure of a route makes of its builder. -/
structure RouteFormBuilder (M H L : Type) where
  path : String
  eventSubscriber : Option L := none
  handlerSubscriber : List H := []
  middlewares : List M := []
  dataManagementType : Option DataManagement := none

def RouteFormBuilder.build (builder : RouteFormBuilder M H L) (method : H3Method) :
    RouteForm M H L where
  method := method
  eventSubscriber := builder.eventSubscriber
  handlerSubscriber := builder.handlerSubscriber
  middlewares := builder.middlewares
  path := builder.path
  dataManagementType := builder.dataManagementType

inductive BuilderCall (M H L C : Type)
  | globalMiddleware (entry : M)
  | routeGet (route : RouteFormBuilder M H L)
  | routePost (route : RouteFormBuilder M H L)
  | routeDelete (route : RouteFormBuilder M H L)
  | downStream (path : String) (handler : Option C) (middlewares : List M)

def Stream.toMiddlewareColl (stream : Stream M C) : List M := stream.middlewares

namespace RouteManagerBuilder

/-- The builder starts with a set of downstreams that is empty. -/
def newWithAppState : RouteManagerBuilder M H L C := { streamSessions := some [] }

def perform (builder : RouteManagerBuilder M H L C) :
    BuilderCall M H L C → Option (RouteManagerBuilder M H L C)
  | .globalMiddleware entry => some (builder.globalMiddleware entry)
  | .routeGet route => builder.addRoute (route.build .GET)
  | .routePost route => builder.addRoute (route.build .POST)
  | .routeDelete route => builder.addRoute (route.build .DELETE)
  | .downStream path handler middlewares => some (builder.downStream path handler middlewares)

def buildRouter (calls : List (BuilderCall M H L C)) : Option (RouteManager M H L C) := do
  let builder ← calls.foldlM perform newWithAppState
  builder.build

end RouteManagerBuilder

namespace BuilderCall

def global? : BuilderCall M H L C → Option M
  | .globalMiddleware entry => some entry
  | _ => none

/-- The route a call registers, with its own middlewares only. -/
def route? : BuilderCall M H L C → Option (RouteForm M H L)
  | .routeGet route => some (route.build .GET)
  | .routePost route => some (route.build .POST)
  | .routeDelete route => some (route.build .DELETE)
  | _ => none

def stream? : BuilderCall M H L C → Option (String × Stream M C)
  | .downStream path (some handler) middlewares => some (path, ⟨path, handler, middlewares⟩)
  | _ => none

def globals (calls : List (BuilderCall M H L C)) : List M := calls.filterMap global?

def routes (calls : List (BuilderCall M H L C)) : List (RouteForm M H L) := calls.filterMap route?

def streams (calls : List (BuilderCall M H L C)) : List (String × Stream M C) :=
  calls.filterMap stream?

/-- The routes as they are registered when `seen` are the global middlewares so far. -/
def registered (seen : List M) : List (BuilderCall M H L C) → List (RouteForm M H L)
  | [] => []
  | call :: calls =>
    match call.route? with
    | some route => { route with middlewares := seen ++ route.middlewares } :: registered seen calls
    | none => registered (seen ++ call.global?.toList) calls

theorem globals_cons (call : BuilderCall M H L C) (calls : List (BuilderCall M H L C)) :
    globals (call :: calls) = call.global?.toList ++ globals calls := by
  unfold globals
  cases hglobal : call.global? <;> simp [hglobal]

theorem globals_append (calls calls' : List (BuilderCall M H L C)) :
    globals (calls ++ calls') = globals calls ++ globals calls' :=
  List.filterMap_append

theorem global?_of_route {call : BuilderCall M H L C} {route : RouteForm M H L}
    (h : call.route? = some route) : call.global? = none := by
  cases call <;> first | rfl | cases h

theorem registered_of_route {call : BuilderCall M H L C} {route : RouteForm M H L}
    (h : call.route? = some route) (seen : List M) (calls : List (BuilderCall M H L C)) :
    registered seen (call :: calls) =
      { route with middlewares := seen ++ route.middlewares } :: registered seen calls := by
  rw [registered, h]

theorem registered_of_none {call : BuilderCall M H L C} (h : call.route? = none) (seen : List M)
    (calls : List (BuilderCall M H L C)) :
    registered seen (call :: calls) = registered (seen ++ call.global?.toList) calls := by
  rw [registered, h]

/-- A registered route has the global middlewares of the calls before its own. -/
theorem mem_registered_iff {seen : List M} {calls : List (BuilderCall M H L C)}
    {route : RouteForm M H L} : route ∈ registered seen calls ↔
      ∃ before call after own, calls = before ++ call :: after ∧ call.route? = some own ∧
        route = { own with middlewares := seen ++ globals before ++ own.middlewares } := by
  induction calls generalizing seen with
  | nil => simp [registered]
  | cons call calls ih =>
    cases hroute : call.route? with
    | none =>
      rw [registered_of_none hroute, ih]
      constructor
      · intro ⟨before, call', after, own, hcalls, hown, heq⟩
        refine ⟨call :: before, call', after, own, by rw [hcalls]; rfl, hown, ?_⟩
        simp only [heq, globals_cons, List.append_assoc]
      · intro ⟨before, call', after, own, hcalls, hown, heq⟩
        cases before with
        | nil =>
          cases hcalls
          rw [hroute] at hown
          cases hown
        | cons first before =>
          obtain ⟨rfl, hrest⟩ := List.cons.inj hcalls
          refine ⟨before, call', after, own, hrest, hown, ?_⟩
          simp only [heq, globals_cons, List.append_assoc]
    | some own =>
      rw [registered_of_route hroute, List.mem_cons, ih]
      constructor
      · intro h
        obtain heq | ⟨before, call', after, own', hcalls, hown, heq⟩ := h
        · exact ⟨[], call, calls, own, rfl, hroute, by rw [heq, globals, List.filterMap_nil,
            List.append_nil]⟩
        · refine ⟨call :: before, call', after, own', by rw [hcalls]; rfl, hown, ?_⟩
          rw [heq, globals_cons, global?_of_route hroute]
          rfl
      · intro ⟨before, call', after, own', hcalls, hown, heq⟩
        cases before with
        | nil =>
          cases hcalls
          rw [hroute] at hown
          cases hown
          rw [globals, List.filterMap_nil, List.append_nil] at heq
          exact .inl heq
        | cons first before =>
          obtain ⟨rfl, hrest⟩ := List.cons.inj hcalls
          refine .inr ⟨before, call', after, own', hrest, hown, ?_⟩
          rw [heq, globals_cons, global?_of_route hroute]
          rfl

/-- Global middlewares do not change what a route is registered under. -/
theorem registered_keys (seen : List M) (calls : List (BuilderCall M H L C)) :
    (registered seen calls).map RouteForm.key = (routes calls).map RouteForm.key := by
  induction calls generalizing seen with
  | nil => rfl
  | cons call calls ih =>
    cases hroute : call.route? with
    | none =>
      rw [registered_of_none hroute, routes, List.filterMap_cons_none hroute]
      exact ih _
    | some route =>
      rw [registered_of_route hroute, routes, List.filterMap_cons_some hroute]
      exact congrArg (route.key :: ·) (ih _)

end BuilderCall

/-! ## The router they build -/

open BuilderCall

/-- Register downstreams behind those that are there; the first one of a path stays. -/
def addStreams (sessions : List (String × Stream M C)) :
    List (String × Stream M C) → List (String × Stream M C)
  | [] => sessions
  | entry :: entries =>
    addStreams (if (sessions.lookup entry.1).isSome then sessions else sessions ++ [entry]) entries

theorem lookup_addStreams (sessions entries : List (String × Stream M C)) (path : String) :
    (addStreams sessions entries).lookup path =
      (sessions.lookup path).or (entries.lookup path) := by
  induction entries generalizing sessions with
  | nil => simp [addStreams]
  | cons entry entries ih =>
    obtain ⟨key, stream⟩ := entry
    rw [addStreams, ih]
    by_cases hp : path = key
    · subst hp
      split
      · rename_i hsome
        obtain ⟨old, hold⟩ := Option.isSome_iff_exists.mp hsome
        rw [hold, Option.some_or, Option.some_or]
      · rename_i hnone
        rw [Option.not_isSome_iff_eq_none] at hnone
        rw [List.lookup_append, hnone]
        simp
    · have hb : (path == key) = false := by simpa using hp
      rw [List.lookup_cons, hb]
      split
      · rfl
      · rw [List.lookup_append, List.lookup_cons, hb, List.lookup_nil, Option.or_none]

namespace RouteManagerBuilder

/-- What one call does to the builder. -/
theorem perform_eq_some {builder builder' : RouteManagerBuilder M H L C}
    {call : BuilderCall M H L C} {sessions : List (String × Stream M C)}
    (hsessions : builder.streamSessions = some sessions)
    (h : builder.perform call = some builder') :
    builder'.globalMiddlewares = builder.globalMiddlewares ++ call.global?.toList ∧
    builder'.streamSessions = some (addStreams sessions call.stream?.toList) ∧
    builder.routesFormats.addNewRoutes (registered builder.globalMiddlewares [call]) =
      some builder'.routesFormats := by
  have hroute : ∀ route, builder.addRoute route = some builder' →
      builder'.globalMiddlewares = builder.globalMiddlewares ∧
      builder'.streamSessions = some sessions ∧
      builder.routesFormats.addNewRoutes
          [{ route with middlewares := builder.globalMiddlewares ++ route.middlewares }] =
        some builder'.routesFormats := by
    intro route hadd
    obtain ⟨table, htable, hadd⟩ := Option.bind_eq_some_iff.mp hadd
    cases hadd
    refine ⟨rfl, hsessions, ?_⟩
    rw [RouteTable.addNewRoutes, List.foldlM_cons, htable]
    rfl
  cases call with
  | globalMiddleware entry =>
    cases h
    exact ⟨rfl, hsessions, rfl⟩
  | downStream path handler middlewares =>
    cases h
    unfold RouteManagerBuilder.downStream
    rw [hsessions]
    cases handler with
    | none => exact ⟨by simp [global?], hsessions, rfl⟩
    | some handler =>
      simp only [stream?, Option.toList_some, addStreams]
      split
      · exact ⟨by simp [global?], hsessions, rfl⟩
      · exact ⟨by simp [global?], rfl, rfl⟩
  | routeGet route =>
    obtain ⟨hglobals, hstreams, htable⟩ := hroute _ h
    exact ⟨by simp [hglobals, global?], hstreams, htable⟩
  | routePost route =>
    obtain ⟨hglobals, hstreams, htable⟩ := hroute _ h
    exact ⟨by simp [hglobals, global?], hstreams, htable⟩
  | routeDelete route =>
    obtain ⟨hglobals, hstreams, htable⟩ := hroute _ h
    exact ⟨by simp [hglobals, global?], hstreams, htable⟩

/-- What a sequence of calls makes of the builder. -/
theorem foldlM_perform {builder builder' : RouteManagerBuilder M H L C}
    {calls : List (BuilderCall M H L C)} {sessions : List (String × Stream M C)}
    (hsessions : builder.streamSessions = some sessions)
    (h : calls.foldlM perform builder = some builder') :
    builder'.streamSessions = some (addStreams sessions (streams calls)) ∧
    builder.routesFormats.addNewRoutes (registered builder.globalMiddlewares calls) =
      some builder'.routesFormats := by
  induction calls generalizing builder sessions with
  | nil =>
    cases h
    exact ⟨hsessions, rfl⟩
  | cons call calls ih =>
    rw [List.foldlM_cons] at h
    obtain ⟨mid, hmid, hrest⟩ := Option.bind_eq_some_iff.mp h
    obtain ⟨hglobals, hstreams, htable⟩ := perform_eq_some hsessions hmid
    obtain ⟨hstreams', htable'⟩ := ih hstreams hrest
    refine ⟨?_, ?_⟩
    · rw [hstreams', streams, streams]
      cases hstream : call.stream? with
      | none => rw [List.filterMap_cons_none hstream]; rfl
      | some entry => rw [List.filterMap_cons_some hstream]; rfl
    · rw [hglobals] at htable'
      have hsplit : registered builder.globalMiddlewares (call :: calls) =
          registered builder.globalMiddlewares [call] ++
            registered (builder.globalMiddlewares ++ call.global?.toList) calls := by
        cases hroute : call.route? with
        | none =>
          rw [registered_of_none hroute, registered_of_none hroute]
          rfl
        | some route =>
          rw [registered_of_route hroute, registered_of_route hroute, global?_of_route hroute,
            Option.toList_none, List.append_nil]
          rfl
      rw [hsplit, RouteTable.addNewRoutes_append, htable]
      exact htable'

/-- The routes of the router are the registered ones, and under each path stands the
first downstream that was registered there. -/
theorem buildRouter_eq_some {calls : List (BuilderCall M H L C)} {manager : RouteManager M H L C}
    (h : buildRouter calls = some manager) :
    RouteTable.Holds (registered [] calls) manager.routesFormats ∧
    ∀ path, manager.getStreamFromPath path = (streams calls).lookup path := by
  obtain ⟨builder, hbuilder, hbuild⟩ := Option.bind_eq_some_iff.mp h
  obtain ⟨hstreams, htable⟩ :=
    foldlM_perform (show newWithAppState.streamSessions = some [] from rfl) hbuilder
  unfold build at hbuild
  rw [hstreams] at hbuild
  cases hbuild
  refine ⟨RouteTable.holds_of_addNewRoutes htable, fun path => ?_⟩
  exact (lookup_addStreams [] (streams calls) path).trans (Option.none_or)

end RouteManagerBuilder

/-! ## Coverage -/

/-- Every entry of the router executes all global middlewares, then its own. -/
structure CoveredByGlobals (calls : List (BuilderCall M H L C)) (manager : RouteManager M H L C) :
    Prop where
  routes : ∀ entry ∈ manager.routesFormats.entries, ∀ route ∈ entry.2, ∃ own ∈ routes calls,
    own.key = route.key ∧ route.toMiddlewareColl = globals calls ++ own.middlewares
  streams : ∀ path stream, manager.getStreamFromPath path = some stream →
    ∃ own, (streams calls).lookup path = some own ∧
      stream.toMiddlewareColl = globals calls ++ own.middlewares

/-- No global middleware comes after a route, and none at all with a downstream. -/
structure GlobalsFirst (calls : List (BuilderCall M H L C)) : Prop where
  routes : ∀ before call after, calls = before ++ call :: after → call.route?.isSome →
    globals after = []
  streams : streams calls ≠ [] → globals calls = []

section Coverage
variable {calls : List (BuilderCall M H L C)} {manager : RouteManager M H L C}

/-- The routes are covered if every route was registered behind all globals. -/
theorem routes_covered_iff (h : RouteTable.Holds (registered [] calls) manager.routesFormats) :
    (∀ entry ∈ manager.routesFormats.entries, ∀ route ∈ entry.2, ∃ own ∈ routes calls,
        own.key = route.key ∧ route.toMiddlewareColl = globals calls ++ own.middlewares) ↔
      ∀ before call after, calls = before ++ call :: after → call.route?.isSome →
        globals after = [] := by
  have hnodup : ((routes calls).map RouteForm.key).Nodup := registered_keys [] calls ▸ h.nodup
  have hglobals : ∀ {before call after} {own : RouteForm M H L}, calls = before ++ call :: after →
      call.route? = some own → globals calls = globals before ++ globals after := by
    intro before call after own hcalls hown
    rw [hcalls, globals_append, globals_cons, global?_of_route hown]
    rfl
  constructor
  · intro hcovered before call after hcalls hroute
    obtain ⟨own, hown⟩ := Option.isSome_iff_exists.mp hroute
    have hreg : { own with middlewares := [] ++ globals before ++ own.middlewares } ∈
        registered [] calls :=
      mem_registered_iff.mpr ⟨before, call, after, own, hcalls, hown, rfl⟩
    obtain ⟨entry, hentry, hin⟩ := h.mem_iff.mpr hreg
    obtain ⟨own', hmem', hkey, hcoll⟩ := hcovered entry hentry _ hin
    have hmem : own ∈ routes calls :=
      List.mem_filterMap.mpr ⟨call, by rw [hcalls]; simp, hown⟩
    obtain rfl := List.inj_on_of_nodup_map hnodup hmem' hmem hkey
    have hsame := List.append_cancel_right (hcoll : [] ++ globals before ++ _ = _)
    rw [hglobals hcalls hown, List.nil_append] at hsame
    exact List.self_eq_append_right.mp hsame
  · intro hfirst entry hentry route hin
    obtain ⟨before, call, after, own, hcalls, hown, heq⟩ :=
      mem_registered_iff.mp (h.mem_iff.mp ⟨entry, hentry, hin⟩)
    refine ⟨own, List.mem_filterMap.mpr ⟨call, by rw [hcalls]; simp, hown⟩, by rw [heq]; rfl, ?_⟩
    rw [hglobals hcalls hown, hfirst before call after hcalls (by rw [hown]; rfl), heq,
      List.append_nil]
    rfl

/-- A downstream has only the middlewares it was registered with. -/
theorem streams_covered_iff
    (h : ∀ path, manager.getStreamFromPath path = (streams calls).lookup path) :
    (∀ path stream, manager.getStreamFromPath path = some stream →
        ∃ own, (streams calls).lookup path = some own ∧
          stream.toMiddlewareColl = globals calls ++ own.middlewares) ↔
      (streams calls ≠ [] → globals calls = []) := by
  constructor
  · intro hcovered hne
    obtain ⟨⟨path, stream⟩, rest, hstreams⟩ := List.exists_cons_of_ne_nil hne
    have hfound : (streams calls).lookup path = some stream := by simp [hstreams]
    obtain ⟨own, hown, hcoll⟩ := hcovered path stream (by rw [h, hfound])
    rw [hfound] at hown
    cases hown
    exact List.self_eq_append_left.mp hcoll
  · intro hnone path stream hstream
    rw [h] at hstream
    refine ⟨stream, hstream, ?_⟩
    have hne : streams calls ≠ [] := by
      intro hempty
      rw [hempty] at hstream
      cases hstream
    rw [hnone hne]
    rfl

/-- Every entry is covered exactly if the global middlewares come first, and no
downstream is registered with them. -/
theorem covered_iff_globalsFirst (h : RouteManagerBuilder.buildRouter calls = some manager) :
    CoveredByGlobals calls manager ↔ GlobalsFirst calls := by
  obtain ⟨hholds, hstreams⟩ := RouteManagerBuilder.buildRouter_eq_some h
  constructor
  · intro hcovered
    exact ⟨(routes_covered_iff hholds).mp hcovered.routes,
      (streams_covered_iff hstreams).mp hcovered.streams⟩
  · intro hfirst
    exact ⟨(routes_covered_iff hholds).mpr hfirst.routes,
      (streams_covered_iff hstreams).mpr hfirst.streams⟩

end Coverage

/-- A route registered before a global middleware. -/
def routeThenGlobal : List (BuilderCall Nat Unit Unit Unit) :=
  [.routeGet { path := "/a" }, .globalMiddleware 0]

/-- A downstream registered behind a global middleware. -/
def globalThenStream : List (BuilderCall Nat Unit Unit Unit) :=
  [.globalMiddleware 0, .downStream "/s" (some ()) []]

def globalThenRoute : List (BuilderCall Nat Unit Unit Unit) :=
  [.globalMiddleware 0, .routeGet { path := "/a" }]

theorem covered_iff_globalsFirst_route : ∃ manager,
    RouteManagerBuilder.buildRouter globalThenRoute = some manager ∧
    CoveredByGlobals globalThenRoute manager := by
  obtain ⟨manager, hmanager⟩ := Option.isSome_iff_exists.mp
    (show (RouteManagerBuilder.buildRouter globalThenRoute).isSome = true by decide)
  refine ⟨manager, hmanager, (covered_iff_globalsFirst hmanager).mpr ⟨?_, fun hne => absurd rfl hne⟩⟩
  intro before call after hcalls hroute
  have hlen := congrArg List.length hcalls
  simp only [globalThenRoute, List.length_cons, List.length_nil, List.length_append] at hlen
  cases before with
  | nil =>
    cases hcalls
    cases hroute
  | cons first before =>
    rw [List.length_cons] at hlen
    have hafter : after = [] := List.eq_nil_of_length_eq_zero (by omega)
    rw [hafter]
    rfl

/-- Neither sequence covers what it registers. -/
theorem globals_left_out :
    (∃ manager, RouteManagerBuilder.buildRouter routeThenGlobal = some manager ∧
      ¬ CoveredByGlobals routeThenGlobal manager) ∧
    ∃ manager, RouteManagerBuilder.buildRouter globalThenStream = some manager ∧
      ¬ CoveredByGlobals globalThenStream manager := by
  refine ⟨?_, ?_⟩
  · obtain ⟨manager, hmanager⟩ := Option.isSome_iff_exists.mp
      (show (RouteManagerBuilder.buildRouter routeThenGlobal).isSome = true by decide)
    refine ⟨manager, hmanager, fun hcovered => ?_⟩
    have hafter := (routes_covered_iff (RouteManagerBuilder.buildRouter_eq_some hmanager).1).mp
      hcovered.routes [] _ _ rfl rfl
    cases hafter
  · obtain ⟨manager, hmanager⟩ := Option.isSome_iff_exists.mp
      (show (RouteManagerBuilder.buildRouter globalThenStream).isSome = true by decide)
    refine ⟨manager, hmanager, fun hcovered => ?_⟩
    have hnone := (streams_covered_iff (RouteManagerBuilder.buildRouter_eq_some hmanager).2).mp
      hcovered.streams nofun
    cases hnone

end FacesHttp3.Router
