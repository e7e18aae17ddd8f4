import Mathlib.Data.List.Nodup
import FacesHttp3.Request

/-! # Route tables

Routes are registered by the builder and immutable afterwards. The header
processor, the request table, the response workers and the dispatcher each look
them up on their own; `RouteTable` carries what makes their answers agree: one
entry per path, one route per method under it. -/

namespace FacesHttp3.Router
open FacesHttp3.Lib FacesHttp3.Request

inductive BodyStorage
  | inMemory
  | file
  deriving DecidableEq, Repr

inductive DataManagement
  | stream
  | storage (body : BodyStorage)
  deriving DecidableEq, Repr

instance : Inhabited DataManagement := ⟨.storage .inMemory⟩

def DataManagement.isBodyStorage : DataManagement → Option BodyStorage
  | .storage body => some body
  | .stream => none

/-- A route with the user's middlewares `M`, handlers `H` and event listener `L`. -/
structure RouteForm (M H L : Type) where
  method : H3Method
  eventSubscriber : Option L
  handlerSubscriber : List H
  middlewares : List M
  path : String
  dataManagementType : Option DataManagement

/-- A registered downstream with its callback `C`. -/
structure Stream (M C : Type) where
  streamPath : String
  streamHandler : C
  middlewares : List M

variable {M H L C : Type}

def RouteForm.toMiddlewareColl (route : RouteForm M H L) : List M := route.middlewares

def RouteForm.handles (route : RouteForm M H L) : List H := route.handlerSubscriber

/-- Equality of routes: the source compares path and scheme with themselves and
no builder sets an authority, so only the method can differ. -/
def RouteForm.sameForm (a b : RouteForm M H L) : Bool := a.method == b.method

structure RouteTable (M H L : Type) where
  entries : List (String × List (RouteForm M H L))
  keys_nodup : (entries.map Prod.fst).Nodup
  path_eq : ∀ entry ∈ entries, ∀ route ∈ entry.2, route.path = entry.1
  methods_nodup : ∀ entry ∈ entries, (entry.2.map RouteForm.method).Nodup

namespace RouteTable

def empty : RouteTable M H L := ⟨[], by simp, by simp, by simp⟩

def getRoutesFromPath (table : RouteTable M H L) (path : String) : Option (List (RouteForm M H L)) :=
  table.entries.lookup path

/-- Push a route behind the others of its path. -/
def push (route : RouteForm M H L) (entry : String × List (RouteForm M H L)) :
    String × List (RouteForm M H L) :=
  if entry.1 = route.path then (entry.1, entry.2 ++ [route]) else entry

theorem push_fst (route : RouteForm M H L) (entry : String × List (RouteForm M H L)) :
    (push route entry).1 = entry.1 := by
  unfold push; split <;> rfl

theorem mem_push {route r : RouteForm M H L} {entry : String × List (RouteForm M H L)}
    (h : r ∈ (push route entry).2) : r ∈ entry.2 ∨ (r = route ∧ entry.1 = route.path) := by
  unfold push at h
  split at h
  · rcases List.mem_append.mp h with hr | hr
    · exact .inl hr
    · exact .inr ⟨List.mem_singleton.mp hr, ‹_›⟩
  · exact .inl h

theorem push_methods_nodup {route : RouteForm M H L} {entry : String × List (RouteForm M H L)}
    (hn : (entry.2.map RouteForm.method).Nodup)
    (hnew : entry.1 = route.path → ¬ entry.2.any (RouteForm.sameForm route)) :
    ((push route entry).2.map RouteForm.method).Nodup := by
  unfold push
  split
  next hp =>
    have := hnew hp
    simp only [List.any_eq_true, RouteForm.sameForm, beq_iff_eq, not_exists, not_and] at this
    simp only [List.map_append, List.map_cons, List.map_nil]
    refine List.Nodup.append hn (by simp) ?_
    simp only [List.disjoint_singleton, List.mem_map, not_exists, not_and]
    exact fun r hr he => this r hr he.symm
  next => exact hn

/-- `add_new_route`: a second route of the same path and method fails the
builder's assertion. -/
def addNewRoute (table : RouteTable M H L) (route : RouteForm M H L) : Option (RouteTable M H L) :=
  if hk : route.path ∈ table.entries.map Prod.fst then
    if hs : ∀ entry ∈ table.entries, entry.1 = route.path →
        ¬ entry.2.any (RouteForm.sameForm route) then
      some {
        entries := table.entries.map (push route)
        keys_nodup := by
          simpa [Function.comp_def, push_fst] using table.keys_nodup
        path_eq := by
          intro entry he r hr
          obtain ⟨old, hold, rfl⟩ := List.mem_map.mp he
          rw [push_fst]
          rcases mem_push hr with hr | ⟨rfl, hp⟩
          · exact table.path_eq old hold r hr
          · exact hp.symm
        methods_nodup := by
          intro entry he
          obtain ⟨old, hold, rfl⟩ := List.mem_map.mp he
          exact push_methods_nodup (table.methods_nodup old hold) (hs old hold) }
    else none
  else
    some {
      entries := table.entries ++ [(route.path, [route])]
      keys_nodup := by
        rw [List.map_append]
        exact List.Nodup.append table.keys_nodup (by simp) (by simpa using hk)
      path_eq := by
        intro entry he r hr
        rcases List.mem_append.mp he with he | he
        · exact table.path_eq entry he r hr
        · obtain rfl := List.mem_singleton.mp he
          rw [List.mem_singleton.mp hr]
      methods_nodup := by
        intro entry he
        rcases List.mem_append.mp he with he | he
        · exact table.methods_nodup entry he
        · obtain rfl := List.mem_singleton.mp he
          simp }

theorem getRoutesFromPath_eq_some_iff (table : RouteTable M H L) (path : String)
    (routes : List (RouteForm M H L)) :
    table.getRoutesFromPath path = some routes ↔ (path, routes) ∈ table.entries := by
  unfold getRoutesFromPath
  have hn := table.keys_nodup
  generalize table.entries = entries at hn
  induction entries with
  | nil => simp
  | cons entry rest ih =>
    obtain ⟨key, coll⟩ := entry
    simp only [List.map_cons, List.nodup_cons] at hn
    by_cases hp : path = key
    · subst hp
      have hrest : (path, routes) ∉ rest := fun hm => hn.1 (List.mem_map_of_mem hm)
      simp [hrest, eq_comm]
    · have hb : (path == key) = false := by simpa using hp
      simp [List.lookup_cons, hb, hp, ih hn.2]

/-- A path some route is registered under. -/
def IsRoutePath (table : RouteTable M H L) (path : String) : Prop :=
  path ∈ table.entries.map Prod.fst

instance (table : RouteTable M H L) (path : String) : Decidable (table.IsRoutePath path) := by
  unfold IsRoutePath; infer_instance

theorem isRoutePath_iff (table : RouteTable M H L) (path : String) :
    table.IsRoutePath path ↔ (table.getRoutesFromPath path).isSome := by
  simp only [Option.isSome_iff_exists, getRoutesFromPath_eq_some_iff, IsRoutePath, List.mem_map,
    Prod.exists, exists_and_right, exists_eq_right]

/-- The route of a path and method, the path taken as it is. -/
def find (table : RouteTable M H L) (path : String) (method : H3Method) :
    Option (RouteForm M H L) :=
  (table.getRoutesFromPath path).bind fun coll => coll.find? fun route => route.method == method

theorem find_some {table : RouteTable M H L} {path : String} {method : H3Method}
    {route : RouteForm M H L} (h : table.find path method = some route) :
    route.path = path ∧ route.method = method ∧ table.IsRoutePath path := by
  obtain ⟨coll, hc, hf⟩ := Option.bind_eq_some_iff.mp h
  have hm := (table.getRoutesFromPath_eq_some_iff path coll).mp hc
  refine ⟨table.path_eq _ hm route (List.mem_of_find?_eq_some hf), ?_, ?_⟩
  · simpa using List.find?_some hf
  · exact (table.isRoutePath_iff path).mpr (by simp [hc])

theorem find_eq_some_of_mem {table : RouteTable M H L} {path : String}
    {coll : List (RouteForm M H L)} {route : RouteForm M H L}
    (hc : (path, coll) ∈ table.entries) (hr : route ∈ coll) :
    table.find path route.method = some route := by
  have hn := table.methods_nodup _ hc
  simp only [find, (table.getRoutesFromPath_eq_some_iff path coll).mpr hc, Option.bind_some]
  clear hc
  induction coll with
  | nil => simp at hr
  | cons first rest ih =>
    simp only [List.map_cons, List.nodup_cons] at hn
    rcases List.mem_cons.mp hr with rfl | hr
    · simp
    · have hne : first.method ≠ route.method :=
        fun he => hn.1 (he ▸ List.mem_map_of_mem (f := RouteForm.method) hr)
      simp [hne, ih hr hn.2]

end RouteTable

/-! ## Handler dispatch -/

abbrev RouteEventDispatcher (H : Type) := PMap (String × H3Method) (List H)

/-- `entry(key).and_modify(extend).or_insert(handles)`. -/
def RouteEventDispatcher.extend (dispatcher : RouteEventDispatcher H) (key : String × H3Method)
    (handles : List H) : RouteEventDispatcher H :=
  dispatcher.insert key ((dispatcher key).getD [] ++ handles)

def RouteEventDispatcher.setHandles (table : RouteTable M H L) : RouteEventDispatcher H :=
  table.entries.foldl (fun dispatcher entry => entry.2.foldl (fun dispatcher route =>
    dispatcher.extend (entry.1, route.method) route.handles) dispatcher) PMap.empty

namespace RouteEventDispatcher

theorem foldl_extend_of_not_mem (dispatcher : RouteEventDispatcher H) (path : String)
    (coll : List (RouteForm M H L)) (key : String × H3Method)
    (h : ∀ route ∈ coll, key ≠ (path, route.method)) :
    coll.foldl (fun d route => d.extend (path, route.method) route.handles) dispatcher key =
      dispatcher key := by
  induction coll generalizing dispatcher with
  | nil => rfl
  | cons route rest ih =>
    rw [List.foldl_cons, ih _ fun r hr => h r (List.mem_cons_of_mem _ hr)]
    exact PMap.insert_of_ne _ _ (h route List.mem_cons_self)

theorem foldl_extend_of_fresh (dispatcher : RouteEventDispatcher H) (path : String)
    (coll : List (RouteForm M H L)) (hn : (coll.map RouteForm.method).Nodup) (method : H3Method)
    (hfresh : dispatcher (path, method) = none) :
    coll.foldl (fun d route => d.extend (path, route.method) route.handles) dispatcher
      (path, method) = (coll.find? fun route => route.method == method).map RouteForm.handles := by
  induction coll generalizing dispatcher with
  | nil => simpa using hfresh
  | cons route rest ih =>
    simp only [List.map_cons, List.nodup_cons] at hn
    rw [List.foldl_cons]
    by_cases hm : route.method = method
    · subst hm
      have hrest : ∀ r ∈ rest, (path, route.method) ≠ (path, r.method) := by
        intro r hr he
        injection he with _ he
        exact hn.1 (he ▸ List.mem_map_of_mem hr)
      rw [foldl_extend_of_not_mem _ _ _ _ hrest]
      simp [extend, hfresh]
    · have hne : (path, method) ≠ (path, route.method) := by
        intro he
        injection he with _ he
        exact hm he.symm
      rw [ih _ hn.2 (by rw [extend, PMap.insert_of_ne _ _ hne, hfresh])]
      simp [hm]

/-- The dispatcher holds exactly the handlers of the route the table finds. -/
theorem setHandles_apply (table : RouteTable M H L) (path : String) (method : H3Method) :
    setHandles table (path, method) = (table.find path method).map RouteForm.handles := by
  have aux : ∀ (entries : List (String × List (RouteForm M H L)))
      (dispatcher : RouteEventDispatcher H), (entries.map Prod.fst).Nodup →
      (∀ entry ∈ entries, (entry.2.map RouteForm.method).Nodup) →
      (path ∈ entries.map Prod.fst → dispatcher (path, method) = none) →
      entries.foldl (fun dispatcher entry => entry.2.foldl (fun dispatcher route =>
          dispatcher.extend (entry.1, route.method) route.handles) dispatcher) dispatcher
        (path, method) =
      match entries.lookup path with
      | some coll => (coll.find? fun route => route.method == method).map RouteForm.handles
      | none => dispatcher (path, method) := by
    intro entries
    induction entries with
    | nil => intros; rfl
    | cons entry rest ih =>
      intro dispatcher hk hm hfresh
      obtain ⟨key, coll⟩ := entry
      simp only [List.map_cons, List.nodup_cons] at hk
      rw [List.foldl_cons]
      by_cases hp : path = key
      · subst hp
        have hrest : rest.lookup path = none := by
          rw [List.lookup_eq_none_iff]
          intro e he
          simpa using fun hpe : path = e.1 => hk.1 (hpe ▸ List.mem_map_of_mem he)
        rw [ih _ hk.2 (fun e he => hm e (List.mem_cons_of_mem _ he)) (fun h => absurd h hk.1),
          hrest]
        simp only [List.lookup_cons, beq_self_eq_true]
        exact foldl_extend_of_fresh _ _ _ (hm _ List.mem_cons_self) _ (hfresh (by simp))
      · have hsame := foldl_extend_of_not_mem dispatcher key coll (path, method)
          (fun route _ he => hp (by injection he))
        rw [ih _ hk.2 (fun e he => hm e (List.mem_cons_of_mem _ he))
          (fun h => by rw [hsame]; exact hfresh (List.mem_cons_of_mem _ h))]
        have hl : List.lookup path ((key, coll) :: rest) = rest.lookup path := by
          have hb : (path == key) = false := by simpa using hp
          rw [List.lookup_cons, hb]
        rw [hl]
        cases rest.lookup path with
        | none => exact hsame
        | some _ => rfl
  unfold setHandles
  rw [aux table.entries PMap.empty table.keys_nodup table.methods_nodup (fun _ => rfl)]
  unfold RouteTable.find RouteTable.getRoutesFromPath
  cases table.entries.lookup path <;> simp

/-- The handlers `dispatch_finished` calls, in order: none when the key is absent. -/
def handlersFor (dispatcher : RouteEventDispatcher H) (path : String) (method : H3Method) :
    List H :=
  (dispatcher (path, method)).getD []

end RouteEventDispatcher

/-! ## The built router -/

structure RouteManager (M H L C : Type) where
  routesFormats : RouteTable M H L
  streamSessions : List (String × Stream M C)

/-- Built from the routes before they are moved into the manager. -/
def RouteManager.routeEventDispatcher (manager : RouteManager M H L C) : RouteEventDispatcher H :=
  RouteEventDispatcher.setHandles manager.routesFormats

structure RouteManagerBuilder (M H L C : Type) where
  routesFormats : RouteTable M H L := RouteTable.empty
  streamSessions : Option (List (String × Stream M C)) := none
  globalMiddlewares : List M := []

namespace RouteManagerBuilder

def withStreamSessions (builder : RouteManagerBuilder M H L C)
    (streams : List (String × Stream M C)) : RouteManagerBuilder M H L C :=
  { builder with streamSessions := some streams }

def globalMiddleware (builder : RouteManagerBuilder M H L C) (entry : M) :
    RouteManagerBuilder M H L C :=
  { builder with globalMiddlewares := builder.globalMiddlewares ++ [entry] }

/-- The route's own middlewares come after the ones registered globally so far. -/
def addRoute (builder : RouteManagerBuilder M H L C) (route : RouteForm M H L) :
    Option (RouteManagerBuilder M H L C) := do
  let table ← builder.routesFormats.addNewRoute
    { route with middlewares := builder.globalMiddlewares ++ route.middlewares }
  some { builder with routesFormats := table }

/-- `down_stream`: a builder without a handler, and a path registered before,
change nothing. -/
def downStream (builder : RouteManagerBuilder M H L C) (path : String) (handler : Option C)
    (middlewares : List M) : RouteManagerBuilder M H L C :=
  match builder.streamSessions, handler with
  | some streams, some handler =>
    if (streams.lookup path).isSome then builder
    else { builder with
      streamSessions := some (streams ++ [(path, ⟨path, handler, middlewares⟩)]) }
  | _, _ => builder

/-- Building without stream sessions panics. -/
def build (builder : RouteManagerBuilder M H L C) : Option (RouteManager M H L C) :=
  builder.streamSessions.map fun streams =>
    { routesFormats := builder.routesFormats, streamSessions := streams }

end RouteManagerBuilder

namespace RouteManager

def getRoutesFromPathAndMethod (manager : RouteManager M H L C) (path : String)
    (method : H3Method) : Option (RouteForm M H L × Option ReqArgs) :=
  let (path, reqArgs) := ReqArgs.parseArgs path
  (manager.routesFormats.find path method).map fun route => (route, reqArgs)

def getStreamFromPath (manager : RouteManager M H L C) (path : String) : Option (Stream M C) :=
  manager.streamSessions.lookup path

def IsStreamPath (manager : RouteManager M H L C) (path : String) : Prop :=
  path ∈ manager.streamSessions.map Prod.fst

instance (manager : RouteManager M H L C) (path : String) :
    Decidable (manager.IsStreamPath path) := by
  unfold IsStreamPath; infer_instance

/-- The router knows the path: a route is registered under it once its query
string is split off, or a downstream is registered under it as it is. -/
def Recognises (manager : RouteManager M H L C) (path : String) : Prop :=
  manager.routesFormats.IsRoutePath (ReqArgs.parseArgs path).1 ∨ manager.IsStreamPath path

instance (manager : RouteManager M H L C) (path : String) : Decidable (manager.Recognises path) := by
  unfold Recognises; infer_instance

/-- Registered paths carry no query string: what every caller of the builder
writes, and the source never checks. -/
def PathsHaveNoQuery (manager : RouteManager M H L C) : Prop :=
  (∀ path, manager.routesFormats.IsRoutePath path → ¬ HasQuery path) ∧
    ∀ path, manager.IsStreamPath path → ¬ HasQuery path

end RouteManager
end FacesHttp3.Router
