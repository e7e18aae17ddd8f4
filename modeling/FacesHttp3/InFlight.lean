import Mathlib.Data.Finset.Basic
import FacesHttp3.Router

/-! # Admission of streams at header time

The network thread records a stream whose path is known, and asks for the record
again when the request is finished: a stream that was not recorded is cancelled.
The record is decided on the raw path, the router decides on the path without its
query string; `admissionAgrees_iff` says exactly when the two agree. -/

namespace FacesHttp3.InFlight
open FacesHttp3.Request FacesHttp3.Router

variable {M H L C : Type}

structure ConnStreamK where
  streamId : Nat
  connId : Bytes
  deriving DecidableEq

structure InFlightStreamsPathVerifier where
  acceptedRoutePathes : List String
  acceptedRouteStreamPathes : Option (List String)
  streamMap : Finset ConnStreamK

namespace InFlightStreamsPathVerifier

/-- The verifier `build` makes from the registered paths, with the streams
recorded since. -/
def ofManager (manager : RouteManager M H L C) (streamMap : Finset ConnStreamK) :
    InFlightStreamsPathVerifier where
  acceptedRoutePathes := manager.routesFormats.entries.map Prod.fst
  acceptedRouteStreamPathes := some (manager.streamSessions.map Prod.fst)
  streamMap := streamMap

def insertStreamPathForConn (verifier : InFlightStreamsPathVerifier) (connId : Bytes)
    (streamId : Nat) (path : String) : Bool × InFlightStreamsPathVerifier :=
  let rejected := match verifier.acceptedRouteStreamPathes with
    | some streamPathSet =>
      !streamPathSet.contains path && !verifier.acceptedRoutePathes.contains path
    | none => !verifier.acceptedRoutePathes.contains path
  if rejected then (false, verifier)
  else (true, { verifier with streamMap := insert ⟨streamId, connId⟩ verifier.streamMap })

def removeConnection (verifier : InFlightStreamsPathVerifier) (connId : Bytes) :
    InFlightStreamsPathVerifier :=
  { verifier with streamMap := verifier.streamMap.filter fun key => key.connId ≠ connId }

/-- `HashSet::remove`: tells whether the stream was recorded and forgets it. -/
def isFinishedRequestAValidPath (verifier : InFlightStreamsPathVerifier) (connId : Bytes)
    (streamId : Nat) : Bool × InFlightStreamsPathVerifier :=
  (decide (⟨streamId, connId⟩ ∈ verifier.streamMap),
    { verifier with streamMap := verifier.streamMap.erase ⟨streamId, connId⟩ })

theorem insertStreamPathForConn_ofManager (manager : RouteManager M H L C)
    (streamMap : Finset ConnStreamK) (connId : Bytes) (streamId : Nat) (path : String) :
    (ofManager manager streamMap).insertStreamPathForConn connId streamId path =
      if manager.IsStreamPath path ∨ manager.routesFormats.IsRoutePath path
      then (true, ofManager manager (insert ⟨streamId, connId⟩ streamMap))
      else (false, ofManager manager streamMap) := by
  simp only [insertStreamPathForConn, ofManager, RouteManager.IsStreamPath, RouteTable.IsRoutePath,
    Bool.and_eq_true, Bool.not_eq_true', List.contains_eq_mem, decide_eq_false_iff_not]
  by_cases hs : path ∈ manager.streamSessions.map Prod.fst <;>
    by_cases hr : path ∈ manager.routesFormats.entries.map Prod.fst <;> simp [hs, hr]

theorem mem_insertStreamPathForConn {verifier : InFlightStreamsPathVerifier} {connId : Bytes}
    {streamId : Nat} {path : String} {key : ConnStreamK}
    (h : key ∈ (verifier.insertStreamPathForConn connId streamId path).2.streamMap) :
    key = ⟨streamId, connId⟩ ∨ key ∈ verifier.streamMap := by
  unfold insertStreamPathForConn at h
  dsimp only at h
  generalize (match verifier.acceptedRouteStreamPathes with
    | some streamPathSet =>
      !streamPathSet.contains path && !verifier.acceptedRoutePathes.contains path
    | none => !verifier.acceptedRoutePathes.contains path) = rejected at h
  cases rejected with
  | false => exact Finset.mem_insert.mp h
  | true => exact .inr h

end InFlightStreamsPathVerifier

open InFlightStreamsPathVerifier

/-- A header section that reaches the verifier. -/
structure Admission where
  connId : Bytes
  streamId : Nat
  path : String

def receiveHeaders (verifier : InFlightStreamsPathVerifier) (admission : Admission) :
    InFlightStreamsPathVerifier :=
  (verifier.insertStreamPathForConn admission.connId admission.streamId admission.path).2

/-- What the network loop does with a finished stream. -/
inductive FinishedAction
  | handleFinishedStream
  | cancelRequest
  deriving DecidableEq, Repr

def onFinished (verifier : InFlightStreamsPathVerifier) (connId : Bytes) (streamId : Nat) :
    FinishedAction × InFlightStreamsPathVerifier :=
  let (valid, verifier) := verifier.isFinishedRequestAValidPath connId streamId
  (if valid then .handleFinishedStream else .cancelRequest, verifier)

/-- Admission agrees with routing on `path`: a header section with it records its
stream exactly when the router recognises it, and a stream recognised so is
handed to the response workers at its end, whatever was admitted in between. -/
structure AdmissionAgrees (manager : RouteManager M H L C) (path : String) : Prop where
  recorded : ∀ streamMap connId streamId,
    ((ofManager manager streamMap).insertStreamPathForConn connId streamId path).1 = true ↔
      manager.Recognises path
  forwarded : ∀ streamMap connId streamId (later : List Admission), manager.Recognises path →
    (onFinished
      (later.foldl receiveHeaders (receiveHeaders (ofManager manager streamMap) ⟨connId, streamId, path⟩))
      connId streamId).1 = .handleFinishedStream

/-- The path has no query string, is a downstream's path as it is, or is
registered as a route exactly when its part before the query string is. -/
def QueryIrrelevant (manager : RouteManager M H L C) (path : String) : Prop :=
  ¬ HasQuery path ∨ manager.IsStreamPath path ∨
    (manager.routesFormats.IsRoutePath path ↔
      manager.routesFormats.IsRoutePath (ReqArgs.parseArgs path).1)

instance (manager : RouteManager M H L C) (path : String) :
    Decidable (QueryIrrelevant manager path) := by
  unfold QueryIrrelevant; infer_instance

theorem receiveHeaders_ofManager (manager : RouteManager M H L C) (streamMap : Finset ConnStreamK)
    (admission : Admission) : ∃ streamMap', streamMap ⊆ streamMap' ∧
      receiveHeaders (ofManager manager streamMap) admission = ofManager manager streamMap' := by
  unfold receiveHeaders
  rw [insertStreamPathForConn_ofManager]
  split
  · exact ⟨_, Finset.subset_insert _ _, rfl⟩
  · exact ⟨streamMap, Finset.Subset.refl _, rfl⟩

theorem foldl_receiveHeaders_ofManager (manager : RouteManager M H L C) (later : List Admission)
    (streamMap : Finset ConnStreamK) : ∃ streamMap', streamMap ⊆ streamMap' ∧
      later.foldl receiveHeaders (ofManager manager streamMap) = ofManager manager streamMap' := by
  induction later generalizing streamMap with
  | nil => exact ⟨streamMap, Finset.Subset.refl _, rfl⟩
  | cons admission later ih =>
    obtain ⟨mid, hmid, hstep⟩ := receiveHeaders_ofManager manager streamMap admission
    obtain ⟨last, hlast, hfold⟩ := ih mid
    exact ⟨last, hmid.trans hlast, by rw [List.foldl_cons, hstep, hfold]⟩

theorem queryIrrelevant_iff (manager : RouteManager M H L C) (path : String) :
    QueryIrrelevant manager path ↔
      ((manager.IsStreamPath path ∨ manager.routesFormats.IsRoutePath path) ↔
        manager.Recognises path) := by
  unfold QueryIrrelevant RouteManager.Recognises
  by_cases hq : HasQuery path
  · simp only [hq, not_true_eq_false, false_or]
    tauto
  · rw [parseArgs_of_not_hasQuery hq]
    simp only [hq, not_false_eq_true, true_or, true_iff]
    exact or_comm

theorem AdmissionAgrees.queryIrrelevant {manager : RouteManager M H L C} {path : String}
    (h : AdmissionAgrees manager path) : QueryIrrelevant manager path := by
  rw [queryIrrelevant_iff]
  have hrec := h.recorded ∅ [] 0
  rw [insertStreamPathForConn_ofManager] at hrec
  split at hrec <;> simp_all

theorem QueryIrrelevant.admissionAgrees {manager : RouteManager M H L C} {path : String}
    (h : QueryIrrelevant manager path) : AdmissionAgrees manager path := by
  rw [queryIrrelevant_iff] at h
  refine ⟨?_, ?_⟩
  · intro streamMap connId streamId
    rw [insertStreamPathForConn_ofManager, ← h]
    split <;> simp_all
  · intro streamMap connId streamId later hr
    rw [receiveHeaders, insertStreamPathForConn_ofManager, if_pos (h.mpr hr)]
    obtain ⟨last, hsub, hfold⟩ :=
      foldl_receiveHeaders_ofManager manager later (insert ⟨streamId, connId⟩ streamMap)
    rw [hfold]
    have hmem : (⟨streamId, connId⟩ : ConnStreamK) ∈ last := hsub (Finset.mem_insert_self _ _)
    simp [onFinished, isFinishedRequestAValidPath, ofManager, hmem]

/-- The two components agree on a path exactly when its query string changes
nothing: a query string behind a registered route path is what separates them. -/
theorem admissionAgrees_iff (manager : RouteManager M H L C) (path : String) :
    AdmissionAgrees manager path ↔ QueryIrrelevant manager path :=
  ⟨AdmissionAgrees.queryIrrelevant, QueryIrrelevant.admissionAgrees⟩

/-- One GET route at `/a`, without middlewares, handlers or downstreams. -/
def singleRoute : RouteManager Unit Unit Unit Unit where
  routesFormats :=
    { entries := [("/a", [⟨.GET, none, [], [], "/a", some default⟩])]
      keys_nodup := by simp
      path_eq := by simp
      methods_nodup := by simp }
  streamSessions := []

/-- A request for a registered route with a query string finds its route and is
cancelled at its end. -/
theorem query_request_cancelled :
    ¬ AdmissionAgrees singleRoute "/a?b=c" ∧
      (singleRoute.getRoutesFromPathAndMethod "/a?b=c" .GET).isSome ∧
      (onFinished (receiveHeaders (ofManager singleRoute ∅) ⟨[1], 0, "/a?b=c"⟩) [1] 0).1 =
        .cancelRequest := by
  refine ⟨fun h => absurd h.queryIrrelevant ?_, ?_, ?_⟩ <;> decide

end FacesHttp3.InFlight
