import Mathlib.Data.List.Induction
import FacesHttp3.Router

/-! # A sequence of registrations

The builder adds one route after the other and stops at a pair of path and method
it already has. The table it ends with finds exactly what was registered, however
its hash map orders the paths. -/

namespace FacesHttp3.Router
open FacesHttp3.Lib FacesHttp3.Request

variable {M H L C : Type}

def RouteForm.key (route : RouteForm M H L) : String × H3Method := (route.path, route.method)

namespace RouteTable

/-! ## One registration -/

@[simp] theorem find_empty (path : String) (method : H3Method) :
    (empty : RouteTable M H L).find path method = none := rfl

/-- The route is refused: its path has a route of its method. -/
theorem any_sameForm_iff {table : RouteTable M H L} {route : RouteForm M H L} :
    (∃ entry ∈ table.entries, entry.1 = route.path ∧ entry.2.any (RouteForm.sameForm route)) ↔
      (table.find route.path route.method).isSome := by
  constructor
  · intro ⟨entry, hentry, hpath, hany⟩
    obtain ⟨other, hother, hsame⟩ := List.any_eq_true.mp hany
    have hmethod : route.method = other.method := by simpa [RouteForm.sameForm] using hsame
    have hmem : (route.path, entry.2) ∈ table.entries := by rw [← hpath]; exact hentry
    rw [hmethod, find_eq_some_of_mem hmem hother]
    rfl
  · intro h
    obtain ⟨other, hother⟩ := Option.isSome_iff_exists.mp h
    obtain ⟨coll, hcoll, hfind⟩ := Option.bind_eq_some_iff.mp hother
    refine ⟨(route.path, coll), (table.getRoutesFromPath_eq_some_iff _ _).mp hcoll, rfl, ?_⟩
    refine List.any_eq_true.mpr ⟨other, List.mem_of_find?_eq_some hfind, ?_⟩
    exact beq_iff_eq.mpr (find_some hother).2.1.symm

theorem lookup_push (route : RouteForm M H L) (entries : List (String × List (RouteForm M H L)))
    (path : String) :
    (entries.map (push route)).lookup path =
      (entries.lookup path).map fun coll => if path = route.path then coll ++ [route] else coll := by
  induction entries with
  | nil => rfl
  | cons entry rest ih =>
    obtain ⟨key, coll⟩ := entry
    rw [List.map_cons]
    by_cases hp : path = key
    · subst hp
      by_cases hroute : path = route.path <;> simp [push, hroute]
    · have hb : (path == key) = false := by simpa using hp
      have hb' : (path == (push route (key, coll)).1) = false := by rw [push_fst]; exact hb
      rw [List.lookup_cons, hb', List.lookup_cons, hb, ih]

theorem addNewRoute_isSome_iff {table : RouteTable M H L} {route : RouteForm M H L} :
    (table.addNewRoute route).isSome ↔ table.find route.path route.method = none := by
  rw [← Option.not_isSome_iff_eq_none, ← any_sameForm_iff]
  unfold addNewRoute
  split
  · split
    · rename_i hs
      simp only [Option.isSome_some, true_iff, not_exists, not_and]
      exact hs
    · rename_i hs
      simp only [Option.isSome_none, Bool.false_eq_true, false_iff, not_not]
      push Not at hs
      exact hs
  · rename_i hk
    simp only [Option.isSome_some, true_iff, not_exists, not_and]
    intro entry hentry hpath
    exact absurd (hpath ▸ List.mem_map_of_mem hentry) hk

/-- A registration changes what is found for its own path and method. -/
theorem find_addNewRoute {table table' : RouteTable M H L} {route : RouteForm M H L}
    (h : table.addNewRoute route = some table') (path : String) (method : H3Method) :
    table'.find path method =
      if (path, method) = route.key then some route else table.find path method := by
  have hfree := addNewRoute_isSome_iff.mp (Option.isSome_iff_exists.mpr ⟨table', h⟩)
  have hone : ∀ m, [route].find? (fun r => r.method == m) = if m = route.method then some route else none := by
    intro m
    by_cases hm : route.method = m
    · simp [hm]
    · simp [hm, Ne.symm hm]
  unfold addNewRoute at h
  split at h
  · split at h
    · cases h
      unfold find getRoutesFromPath at hfree ⊢
      rw [lookup_push]
      by_cases hpath : path = route.path
      · subst hpath
        cases hcoll : table.entries.lookup route.path with
        | none =>
          rename_i hk _
          exact absurd ((table.isRoutePath_iff _).mp hk) (by simp [getRoutesFromPath, hcoll])
        | some coll =>
          rw [hcoll, Option.bind_some] at hfree
          simp only [if_true, Option.map_some, Option.bind_some, List.find?_append, hone,
            RouteForm.key, Prod.mk.injEq, true_and]
          split
          · rename_i hm
            rw [hm, hfree, Option.none_or]
          · exact Option.or_none
      · simp [hpath, RouteForm.key]
    · cases h
  · rename_i hk
    cases h
    unfold find getRoutesFromPath
    rw [List.lookup_append]
    by_cases hpath : path = route.path
    · subst hpath
      have hnone : table.entries.lookup route.path = none := by
        rw [List.lookup_eq_none_iff]
        intro entry hentry
        simpa using fun heq : route.path = entry.1 => hk (heq ▸ List.mem_map_of_mem hentry)
      rw [hnone]
      simp only [Option.none_or, List.lookup_cons, beq_self_eq_true, Option.bind_some, hone,
        Option.bind_none, RouteForm.key, Prod.mk.injEq, true_and]
    · have hb : (path == route.path) = false := by simpa using hpath
      simp [List.lookup_cons, hb, hpath, RouteForm.key]

/-! ## A sequence -/

/-- Registers the routes in their order; `none` is the panic of the builder. -/
def addNewRoutes (table : RouteTable M H L) (routes : List (RouteForm M H L)) :
    Option (RouteTable M H L) :=
  routes.foldlM addNewRoute table

@[simp] theorem addNewRoutes_nil (table : RouteTable M H L) : table.addNewRoutes [] = some table :=
  rfl

theorem addNewRoutes_append (table : RouteTable M H L) (routes routes' : List (RouteForm M H L)) :
    table.addNewRoutes (routes ++ routes') =
      (table.addNewRoutes routes).bind fun mid => mid.addNewRoutes routes' :=
  List.foldlM_append ..

theorem addNewRoutes_snoc (table : RouteTable M H L) (routes : List (RouteForm M H L))
    (route : RouteForm M H L) :
    table.addNewRoutes (routes ++ [route]) =
      (table.addNewRoutes routes).bind fun mid => mid.addNewRoute route := by
  rw [addNewRoutes_append]
  congr
  funext mid
  exact List.foldlM_cons.trans (Option.bind_fun_some _)

/-- The table finds the registered routes, and each pair of path and method was
registered once. -/
structure Holds (routes : List (RouteForm M H L)) (table : RouteTable M H L) : Prop where
  nodup : (routes.map RouteForm.key).Nodup
  find : ∀ path method, table.find path method =
    routes.find? fun route => decide (route.key = (path, method))

theorem find?_key_eq_none_iff {routes : List (RouteForm M H L)} {key : String × H3Method} :
    routes.find? (fun route => decide (route.key = key)) = none ↔ key ∉ routes.map RouteForm.key := by
  simp

theorem Holds.addNewRoute {routes : List (RouteForm M H L)} {table table' : RouteTable M H L}
    {route : RouteForm M H L} (h : Holds routes table) (hadd : table.addNewRoute route = some table') :
    Holds (routes ++ [route]) table' := by
  have hfree := addNewRoute_isSome_iff.mp (Option.isSome_iff_exists.mpr ⟨table', hadd⟩)
  rw [h.find, find?_key_eq_none_iff] at hfree
  refine ⟨?_, ?_⟩
  · rw [List.map_append]
    exact List.Nodup.append h.nodup (by simp) (List.disjoint_singleton.mpr hfree)
  · intro path method
    rw [find_addNewRoute hadd, h.find, List.find?_append]
    split
    · rename_i heq
      have hnone : routes.find? (fun route => decide (route.key = (path, method))) = none :=
        find?_key_eq_none_iff.mpr (heq ▸ hfree)
      rw [hnone, Option.none_or, heq, List.find?_singleton]
      simp
    · rename_i hne
      simp [Ne.symm hne]

/-- Registering panics exactly if a pair of path and method comes twice, and what it
returns holds what was registered. -/
theorem addNewRoutes_spec (routes : List (RouteForm M H L)) :
    match (empty : RouteTable M H L).addNewRoutes routes with
    | none => ¬ (routes.map RouteForm.key).Nodup
    | some table => Holds routes table := by
  induction routes using List.reverseRecOn with
  | nil => exact ⟨by simp, fun path method => rfl⟩
  | append_singleton routes route ih =>
    rw [addNewRoutes_snoc]
    cases hmid : (empty : RouteTable M H L).addNewRoutes routes with
    | none =>
      rw [hmid] at ih
      intro hnodup
      rw [List.map_append] at hnodup
      exact ih hnodup.of_append_left
    | some mid =>
      rw [hmid] at ih
      rw [Option.bind_some]
      cases hadd : mid.addNewRoute route with
      | some table => exact ih.addNewRoute hadd
      | none =>
        intro hnodup
        rw [List.map_append] at hnodup
        have hfree : route.key ∉ routes.map RouteForm.key := fun hmem =>
          (List.nodup_append.mp hnodup).2.2 _ hmem _ (by simp) rfl
        rw [← find?_key_eq_none_iff, ← ih.find] at hfree
        have hsome := addNewRoute_isSome_iff.mpr hfree
        rw [hadd] at hsome
        cases hsome

theorem addNewRoutes_isSome_iff {routes : List (RouteForm M H L)} :
    ((empty : RouteTable M H L).addNewRoutes routes).isSome ↔ (routes.map RouteForm.key).Nodup := by
  have hspec := addNewRoutes_spec routes
  cases h : (empty : RouteTable M H L).addNewRoutes routes with
  | none =>
    rw [h] at hspec
    simpa using hspec
  | some table =>
    rw [h] at hspec
    simpa using hspec.nodup

theorem holds_of_addNewRoutes {routes : List (RouteForm M H L)} {table : RouteTable M H L}
    (h : (empty : RouteTable M H L).addNewRoutes routes = some table) : Holds routes table := by
  have hspec := addNewRoutes_spec routes
  rwa [h] at hspec

section Holds
variable {routes : List (RouteForm M H L)} {table : RouteTable M H L}

theorem Holds.find_eq_some_iff (h : Holds routes table) {path : String} {method : H3Method}
    {route : RouteForm M H L} :
    table.find path method = some route ↔ route ∈ routes ∧ route.key = (path, method) := by
  rw [h.find]
  constructor
  · intro hfind
    exact ⟨List.mem_of_find?_eq_some hfind, by simpa using List.find?_some hfind⟩
  · intro ⟨hmem, hkey⟩
    cases hfind : routes.find? fun route => decide (route.key = (path, method)) with
    | none =>
      rw [find?_key_eq_none_iff] at hfind
      exact absurd (hkey ▸ List.mem_map_of_mem hmem) hfind
    | some other =>
      have hother : other.key = (path, method) := by simpa using List.find?_some hfind
      rw [List.inj_on_of_nodup_map h.nodup (List.mem_of_find?_eq_some hfind) hmem
        (hother.trans hkey.symm)]

/-- The routes of the table are the registered ones. -/
theorem Holds.mem_iff (h : Holds routes table) {route : RouteForm M H L} :
    (∃ entry ∈ table.entries, route ∈ entry.2) ↔ route ∈ routes := by
  constructor
  · intro ⟨entry, hentry, hroute⟩
    have hfind := find_eq_some_of_mem hentry hroute
    exact (h.find_eq_some_iff.mp hfind).1
  · intro hroute
    have hfind := h.find_eq_some_iff.mpr ⟨hroute, rfl⟩
    obtain ⟨coll, hcoll, hin⟩ := Option.bind_eq_some_iff.mp hfind
    exact ⟨_, (table.getRoutesFromPath_eq_some_iff _ _).mp hcoll, List.mem_of_find?_eq_some hin⟩

end Holds

/-- What is found does not depend on the order of the paths. -/
theorem find_perm {table table' : RouteTable M H L} (h : table.entries.Perm table'.entries)
    (path : String) (method : H3Method) : table.find path method = table'.find path method := by
  have hsame : table.getRoutesFromPath path = table'.getRoutesFromPath path := by
    apply Option.ext
    intro coll
    rw [getRoutesFromPath_eq_some_iff, getRoutesFromPath_eq_some_iff]
    exact h.mem_iff
  rw [find, find, hsame]

end RouteTable
end FacesHttp3.Router
