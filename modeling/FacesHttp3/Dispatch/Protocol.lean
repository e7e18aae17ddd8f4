import FacesHttp3.Lib.Exec
import FacesHttp3.Lib.History
import FacesHttp3.Request

/-! # The dispatch protocol

A request has an entry in the disposition table from its headers to its
response. The network thread creates and cancels entries and injects finished
requests, middleware workers write the request table and send their verdicts,
one receiver applies the verdicts, and the response workers register the
injections. One step is one critical section of one of these threads; the
positions of the log name the entries. -/

namespace FacesHttp3.Dispatch
open FacesHttp3.Lib FacesHttp3.Lib.Exec FacesHttp3.Lib.History FacesHttp3.Request

inductive RequestDisposition
  | pending
  | ready
  | rejected
  deriving DecidableEq, Repr

inductive Verdict
  | ready
  | rejected
  deriving DecidableEq, Repr

def Verdict.disposition : Verdict → RequestDisposition
  | .ready => .ready
  | .rejected => .rejected

/-- An entry of the disposition table; `born` is the position of its creation. -/
structure Slot where
  disposition : RequestDisposition
  born : Nat

/-- What a response worker `ω` and the threads around it have done. `taken` and
`rejected` are the two ways `register` consumes an entry; `prepared` is the start
of a response preparation, with the entry it consumed and when. -/
inductive Event (ω : Type)
  | created (id : ReqId)
  | received (id : ReqId) (verdict : Verdict)
  | injected (id : ReqId)
  | taken (id : ReqId) (born : Nat) (worker : ω)
  | rejected (id : ReqId) (born : Nat)
  | prepared (id : ReqId) (born taken : Nat)
  | dropped (id : ReqId)
  | cancelled (id : ReqId)
  | cancelledConnection (conn : ConnId)
  deriving DecidableEq

/-- Where a response worker stands inside `register`. -/
inductive RegPc
  | idle
  | holding (id : ReqId)
  | missed (id : ReqId)
  | requeueing (id : ReqId)
  | taken (id : ReqId) (born taken : Nat)
  | cleaning (id : ReqId)
  | responding (id : ReqId)
  | rejecting (id : ReqId)
  deriving DecidableEq

def RegPc.request : RegPc → Option ReqId
  | .idle => none
  | .holding id => some id
  | .missed id => some id
  | .requeueing id => some id
  | .taken id _ _ => some id
  | .cleaning id => some id
  | .responding id => some id
  | .rejecting id => some id

/-- The worker may still consume an entry or give its injection back. -/
def RegPc.injection : RegPc → Option ReqId
  | .holding id => some id
  | .missed id => some id
  | .requeueing id => some id
  | _ => none

/-- The worker holds an entry it consumed and has not finished with the request
table. -/
def RegPc.consuming : RegPc → Option ReqId
  | .taken id _ _ => some id
  | .cleaning id => some id
  | .rejecting id => some id
  | _ => none

/-- Where the network thread stands inside `cancel_request` and
`cancel_connection`, between the two tables. -/
inductive NetPc
  | idle
  | discarding (id : ReqId)
  | discardingConnection (conn : ConnId)
  deriving DecidableEq

/-- A cancellation of `id` has left the disposition table and not yet reached the
request table. -/
def NetPc.Cancels (id : ReqId) : NetPc → Prop
  | .idle => False
  | .discarding i => i = id
  | .discardingConnection conn => conn = id.1

/-- The shared state, with records `ρ` in the request table. `begun` and `ended`
are the requests the network thread has seen headers of, and has finished or
cancelled. -/
structure State (ρ ω : Type) where
  signal : PMap ReqId Slot := PMap.empty
  verdicts : List (ReqId × Verdict) := []
  receiver : Option ReqId := none
  table : PMap ReqId ρ := PMap.empty
  injections : List ReqId := []
  workers : ω → RegPc := fun _ => .idle
  jobs : PMap Nat ReqId := PMap.empty
  net : NetPc := .idle
  begun : ReqId → Bool := fun _ => false
  ended : ReqId → Bool := fun _ => false
  log : List (Event ω) := []

/-- One critical section. Network thread: `begin` to `discard`; a middleware job:
`startJob` to `jobVerdict`; the signal receiver: `receive`, `receiverDiscard`;
a response worker: the others. -/
inductive Action (ρ ω : Type)
  | begin (id : ReqId)
  | data (id : ReqId) (write : Option ρ → Option ρ)
  | finish (id : ReqId)
  | cancelRequest (id : ReqId)
  | cancelConnection (conn : ConnId)
  | discard
  | startJob (job : Nat) (id : ReqId)
  | jobWrite (job : Nat) (write : Option ρ → Option ρ)
  | jobVerdict (job : Nat) (verdict : Verdict)
  | receive
  | receiverDiscard
  | pick (worker : ω)
  | removeIf (worker : ω)
  | containsKey (worker : ω)
  | requeue (worker : ω)
  | buildRouteEvent (worker : ω) (take : ρ → ρ)
  | cleanEntry (worker : ω)
  | endPreparation (worker : ω)
  | discardRejected (worker : ω)

variable {ρ ω : Type} [DecidableEq ω]

def State.setWorker (s : State ρ ω) (w : ω) (pc : RegPc) : State ρ ω :=
  { s with workers := Function.update s.workers w pc }

def State.write (s : State ρ ω) (id : ReqId) (f : Option ρ → Option ρ) : State ρ ω :=
  { s with table := Function.update s.table id (f (s.table id)) }

omit [DecidableEq ω] in
def State.record (s : State ρ ω) (e : Event ω) : State ρ ω := { s with log := s.log ++ [e] }

def step (s : State ρ ω) : Action ρ ω → Option (State ρ ω)
  | .begin id => guarded (s.net = .idle) <|
    let s := { s with begun := Function.update s.begun id true }
    match s.signal id with
    | some _ => s
    | none => { s with signal := s.signal.insert id ⟨.pending, s.log.length⟩ }.record (.created id)
  -- body packets come after the headers and before the end of their request; an id that is
  -- begun again after its first end gets none
  | .data id write => guarded (s.net = .idle ∧ s.begun id ∧ ¬ s.ended id) <| s.write id write
  | .finish id => guarded (s.net = .idle) <|
    { s with
      injections := s.injections ++ [id]
      ended := Function.update s.ended id true }.record (.injected id)
  | .cancelRequest id => guarded (s.net = .idle) <|
    { s with
      signal := s.signal.erase id
      net := .discarding id
      ended := Function.update s.ended id true }.record (.cancelled id)
  | .cancelConnection conn => guarded (s.net = .idle) <|
    { s with
      signal := s.signal.retain fun id => id.1 != conn
      net := .discardingConnection conn
      ended := fun id => id.1 == conn || s.ended id }.record (.cancelledConnection conn)
  | .discard =>
    match s.net with
    | .idle => none
    | .discarding id => some { s with table := s.table.erase id, net := .idle }
    | .discardingConnection conn =>
      some { s with table := s.table.retain fun id => id.1 != conn, net := .idle }
  | .startJob job id => guarded (s.net = .idle ∧ s.jobs job = none) <|
    { s with jobs := s.jobs.insert job id }
  | .jobWrite job write => (s.jobs job).map fun id => s.write id write
  | .jobVerdict job verdict => (s.jobs job).map fun id =>
    { s with jobs := s.jobs.erase job, verdicts := s.verdicts ++ [(id, verdict)] }
  | .receive =>
    match s.receiver, s.verdicts with
    | none, (id, verdict) :: rest =>
      let s := { s with verdicts := rest }.record (.received id verdict)
      match s.signal id with
      | some slot => some { s with
          signal := s.signal.insert id { slot with disposition := verdict.disposition } }
      | none => some { s with receiver := some id }
    | _, _ => none
  | .receiverDiscard => s.receiver.map fun id =>
    { s with table := s.table.erase id, receiver := none }
  | .pick w =>
    match s.workers w, s.injections with
    | .idle, id :: rest => some ({ s with injections := rest }.setWorker w (.holding id))
    | _, _ => none
  | .removeIf w =>
    match s.workers w with
    | .holding id =>
      match s.signal id with
      | some ⟨.ready, born⟩ => some (({ s with signal := s.signal.erase id }.setWorker w
          (.taken id born s.log.length)).record (.taken id born w))
      | some ⟨.rejected, born⟩ => some (({ s with signal := s.signal.erase id }.setWorker w
          (.rejecting id)).record (.rejected id born))
      | some ⟨.pending, _⟩ => some (s.setWorker w (.missed id))
      | none => some (s.setWorker w (.missed id))
    | _ => none
  | .containsKey w =>
    match s.workers w with
    | .missed id =>
      match s.signal id with
      | some _ => some (s.setWorker w (.requeueing id))
      -- cancelled, unknown, or already consumed: nothing to retry
      | none => some ((s.setWorker w .idle).record (.dropped id))
    | _ => none
  | .requeue w =>
    match s.workers w with
    | .requeueing id => some ({ s with injections := s.injections ++ [id] }.setWorker w .idle)
    | _ => none
  | .buildRouteEvent w take =>
    match s.workers w with
    | .taken id born taken =>
      let s := s.record (.prepared id born taken)
      match s.table id with
      | some record =>
        some ({ s with table := s.table.insert id (take record) }.setWorker w (.cleaning id))
      | none => some (s.setWorker w (.responding id))
    | _ => none
  | .cleanEntry w =>
    match s.workers w with
    | .cleaning id => some ({ s with table := s.table.erase id }.setWorker w (.responding id))
    | _ => none
  | .endPreparation w =>
    match s.workers w with
    | .responding _ => some (s.setWorker w .idle)
    | _ => none
  | .discardRejected w =>
    match s.workers w with
    | .rejecting id => some ({ s with table := s.table.erase id }.setWorker w .idle)
    | _ => none

end FacesHttp3.Dispatch
