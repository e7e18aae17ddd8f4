import FacesHttp3.Dispatch.Protocol

/-! # Transitions of the protocol

The critical sections as a relation, with one rule for each branch. `step` is its
executable form; the invariants are proved rule by rule. -/

namespace FacesHttp3.Dispatch
open FacesHttp3.Lib FacesHttp3.Lib.Exec FacesHttp3.Request

variable {ρ ω : Type} [DecidableEq ω]

@[simp] theorem setWorker_workers (s : State ρ ω) (w v : ω) (pc : RegPc) :
    (s.setWorker w pc).workers v = if v = w then pc else s.workers v := by
  simp [State.setWorker, Function.update_apply]

omit [DecidableEq ω] in
theorem write_table_of_ne {s : State ρ ω} {id i : ReqId} {f : Option ρ → Option ρ} (h : id ≠ i) :
    (s.write i f).table id = s.table id := by
  simp [State.write, h]

inductive Transition (s : State ρ ω) : Action ρ ω → State ρ ω → Prop
  -- network thread
  | begun {id : ReqId} (idle : s.net = .idle) (found : s.signal id ≠ none) :
      Transition s (.begin id) { s with begun := Function.update s.begun id true }
  | created {id : ReqId} (idle : s.net = .idle) (absent : s.signal id = none) :
      Transition s (.begin id) (State.record { s with
        begun := Function.update s.begun id true
        signal := s.signal.insert id ⟨.pending, s.log.length⟩ } (.created id))
  | data {id : ReqId} {write : Option ρ → Option ρ} (idle : s.net = .idle)
      (begun : s.begun id = true) (going : s.ended id ≠ true) :
      Transition s (.data id write) (s.write id write)
  | finished {id : ReqId} (idle : s.net = .idle) :
      Transition s (.finish id) (State.record { s with
        injections := s.injections ++ [id]
        ended := Function.update s.ended id true } (.injected id))
  | cancelled {id : ReqId} (idle : s.net = .idle) :
      Transition s (.cancelRequest id) (State.record { s with
        signal := s.signal.erase id
        net := .discarding id
        ended := Function.update s.ended id true } (.cancelled id))
  | cancelledConnection {conn : ConnId} (idle : s.net = .idle) :
      Transition s (.cancelConnection conn) (State.record { s with
        signal := s.signal.retain fun id => id.1 != conn
        net := .discardingConnection conn
        ended := fun id => id.1 == conn || s.ended id } (.cancelledConnection conn))
  | discarded {id : ReqId} (net : s.net = .discarding id) :
      Transition s .discard { s with table := s.table.erase id, net := .idle }
  | discardedConnection {conn : ConnId} (net : s.net = .discardingConnection conn) :
      Transition s .discard
        { s with table := s.table.retain fun id => id.1 != conn, net := .idle }
  -- middleware jobs
  | started {job : Nat} {id : ReqId} (idle : s.net = .idle) (free : s.jobs job = none) :
      Transition s (.startJob job id) { s with jobs := s.jobs.insert job id }
  | wrote {job : Nat} {id : ReqId} {write : Option ρ → Option ρ} (held : s.jobs job = some id) :
      Transition s (.jobWrite job write) (s.write id write)
  | judged {job : Nat} {id : ReqId} {verdict : Verdict} (held : s.jobs job = some id) :
      Transition s (.jobVerdict job verdict)
        { s with jobs := s.jobs.erase job, verdicts := s.verdicts ++ [(id, verdict)] }
  -- signal receiver
  | received {id : ReqId} {verdict : Verdict} {rest : List (ReqId × Verdict)} {slot : Slot}
      (free : s.receiver = none) (queued : s.verdicts = (id, verdict) :: rest)
      (found : s.signal id = some slot) :
      Transition s .receive { State.record { s with verdicts := rest } (.received id verdict) with
        signal := s.signal.insert id { slot with disposition := verdict.disposition } }
  | unknown {id : ReqId} {verdict : Verdict} {rest : List (ReqId × Verdict)}
      (free : s.receiver = none) (queued : s.verdicts = (id, verdict) :: rest)
      (absent : s.signal id = none) :
      Transition s .receive
        { State.record { s with verdicts := rest } (.received id verdict) with receiver := some id }
  | receiverDiscarded {id : ReqId} (receiver : s.receiver = some id) :
      Transition s .receiverDiscard { s with table := s.table.erase id, receiver := none }
  -- response workers
  | picked {w : ω} {id : ReqId} {rest : List ReqId} (at_ : s.workers w = .idle)
      (queued : s.injections = id :: rest) :
      Transition s (.pick w) ({ s with injections := rest }.setWorker w (.holding id))
  | taken {w : ω} {id : ReqId} {born : Nat} (at_ : s.workers w = .holding id)
      (ready : s.signal id = some ⟨.ready, born⟩) :
      Transition s (.removeIf w) (({ s with signal := s.signal.erase id }.setWorker w
        (.taken id born s.log.length)).record (.taken id born w))
  | rejected {w : ω} {id : ReqId} {born : Nat} (at_ : s.workers w = .holding id)
      (rejected : s.signal id = some ⟨.rejected, born⟩) :
      Transition s (.removeIf w) (({ s with signal := s.signal.erase id }.setWorker w
        (.rejecting id)).record (.rejected id born))
  | missed {w : ω} {id : ReqId} (at_ : s.workers w = .holding id) :
      Transition s (.removeIf w) (s.setWorker w (.missed id))
  | retried {w : ω} {id : ReqId} (at_ : s.workers w = .missed id) :
      Transition s (.containsKey w) (s.setWorker w (.requeueing id))
  | dropped {w : ω} {id : ReqId} (at_ : s.workers w = .missed id) (absent : s.signal id = none) :
      Transition s (.containsKey w) ((s.setWorker w .idle).record (.dropped id))
  | requeued {w : ω} {id : ReqId} (at_ : s.workers w = .requeueing id) :
      Transition s (.requeue w) ({ s with injections := s.injections ++ [id] }.setWorker w .idle)
  | prepared {w : ω} {id : ReqId} {born taken : Nat} {record : ρ} {take : ρ → ρ}
      (at_ : s.workers w = .taken id born taken) (found : s.table id = some record) :
      Transition s (.buildRouteEvent w take)
        ({ s.record (.prepared id born taken) with
          table := s.table.insert id (take record) }.setWorker w (.cleaning id))
  | preparedEmpty {w : ω} {id : ReqId} {born taken : Nat} {take : ρ → ρ}
      (at_ : s.workers w = .taken id born taken) (absent : s.table id = none) :
      Transition s (.buildRouteEvent w take)
        ((s.record (.prepared id born taken)).setWorker w (.responding id))
  | cleaned {w : ω} {id : ReqId} (at_ : s.workers w = .cleaning id) :
      Transition s (.cleanEntry w)
        ({ s with table := s.table.erase id }.setWorker w (.responding id))
  | ended {w : ω} {id : ReqId} (at_ : s.workers w = .responding id) :
      Transition s (.endPreparation w) (s.setWorker w .idle)
  | discardedRejected {w : ω} {id : ReqId} (at_ : s.workers w = .rejecting id) :
      Transition s (.discardRejected w) ({ s with table := s.table.erase id }.setWorker w .idle)

/-- Every step follows one of the rules. -/
theorem step_transition {s t : State ρ ω} {a : Action ρ ω} (h : step s a = some t) :
    Transition s a t := by
  cases a with
  | begin id =>
    obtain ⟨hidle, rfl⟩ := guarded_eq_some_iff.mp h
    cases hsignal : s.signal id with
    | some slot => simpa [hsignal] using Transition.begun hidle (by simp [hsignal])
    | none => simpa [hsignal] using Transition.created hidle hsignal
  | data id write =>
    obtain ⟨⟨hidle, hbegun, hgoing⟩, rfl⟩ := guarded_eq_some_iff.mp h
    exact .data hidle hbegun hgoing
  | finish id =>
    obtain ⟨hidle, rfl⟩ := guarded_eq_some_iff.mp h
    exact .finished hidle
  | cancelRequest id =>
    obtain ⟨hidle, rfl⟩ := guarded_eq_some_iff.mp h
    exact .cancelled hidle
  | cancelConnection conn =>
    obtain ⟨hidle, rfl⟩ := guarded_eq_some_iff.mp h
    exact .cancelledConnection hidle
  | discard =>
    simp only [step] at h
    split at h <;> cases h
    · exact .discarded ‹_›
    · exact .discardedConnection ‹_›
  | startJob job id =>
    obtain ⟨⟨hidle, hfree⟩, rfl⟩ := guarded_eq_some_iff.mp h
    exact .started hidle hfree
  | jobWrite job write =>
    obtain ⟨id, hheld, rfl⟩ := Option.map_eq_some_iff.mp h
    exact .wrote hheld
  | jobVerdict job verdict =>
    obtain ⟨id, hheld, rfl⟩ := Option.map_eq_some_iff.mp h
    exact .judged hheld
  | receive =>
    simp only [step] at h
    split at h
    case h_2 => cases h
    rename_i hfree hqueued
    split at h <;> cases h
    · exact .received hfree hqueued ‹_›
    · exact .unknown hfree hqueued ‹_›
  | receiverDiscard =>
    obtain ⟨id, hreceiver, rfl⟩ := Option.map_eq_some_iff.mp h
    exact .receiverDiscarded hreceiver
  | pick w =>
    simp only [step] at h
    split at h <;> cases h
    exact .picked ‹_› ‹_›
  | removeIf w =>
    simp only [step] at h
    split at h
    case h_2 => cases h
    rename_i hat
    split at h <;> cases h
    · exact .taken hat ‹_›
    · exact .rejected hat ‹_›
    · exact .missed hat
    · exact .missed hat
  | containsKey w =>
    simp only [step] at h
    split at h
    case h_2 => cases h
    rename_i hat
    split at h <;> cases h
    · exact .retried hat
    · exact .dropped hat ‹_›
  | requeue w =>
    simp only [step] at h
    split at h <;> cases h
    exact .requeued ‹_›
  | buildRouteEvent w take =>
    simp only [step] at h
    split at h
    case h_2 => cases h
    rename_i hat
    split at h <;> cases h
    · exact .prepared hat ‹_›
    · exact .preparedEmpty hat ‹_›
  | cleanEntry w =>
    simp only [step] at h
    split at h <;> cases h
    exact .cleaned ‹_›
  | endPreparation w =>
    simp only [step] at h
    split at h <;> cases h
    exact .ended ‹_›
  | discardRejected w =>
    simp only [step] at h
    split at h <;> cases h
    exact .discardedRejected ‹_›

end FacesHttp3.Dispatch
