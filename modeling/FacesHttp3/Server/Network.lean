import FacesHttp3.Server.Sections

/-! # What belongs to the network thread

Its own position, the in-flight paths and the bookkeeping of the protocol's
cancellations change in steps of the network thread only; the other threads reach
the queues and the tables. -/

namespace FacesHttp3.Server
open FacesHttp3.Lib FacesHttp3.Lib.Exec FacesHttp3.Request FacesHttp3.Router
open FacesHttp3.RequestsTable FacesHttp3.InFlight

variable {M H L C W ω : Type}

/-- The steps of the protocol the network thread makes. -/
def NetworkAction {ρ : Type} : Dispatch.Action ρ ω → Bool
  | .begin _ | .data _ _ | .finish _ | .cancelRequest _ | .cancelConnection _ | .discard
  | .startJob _ _ => true
  | _ => false

/-- The steps of the network thread. -/
def Action.Network : Action L W ω → Bool
  | .headers _ | .processHeader | .dataCheck _ | .dataSet | .dataWrite _ | .finished _ _
  | .reset _ _ | .closeConnection _ _ | .removeStream _ => true
  | .protocol action => NetworkAction action
  | _ => false

/-- The queue a step inserts unless it is there already. -/
def insertedQueue (s : State M H L C W ω) : Action L W ω → Option QueueKey
  | .sendReceptionStatus number =>
    match s.jobs number with
    | some (.written job) => some job.message.queueKey
    | _ => none
  | .insertErrorQueue number =>
    match s.jobs number with
    | some (.rejected message _) => some message.queueKey
    | _ => none
  | .insertQueue w =>
    match s.shared.workers w, s.responders w with
    | .responding id, some responder => some (id.2, responder.scid)
    | _, _ => none
  | _ => none

variable [DecidableEq ω] {config : ServerConfig} {form404 : Option ErrorForm}
  {manager : RouteManager M H L C} {s t : State M H L C W ω} {a : Action L W ω}

/-! ## The protocol -/

/-- A disposition entry is created by the headers of its request only. -/
theorem signal_isSome {ρ : Type} {s t : Dispatch.State ρ ω} {a : Dispatch.Action ρ ω}
    (h : Dispatch.step s a = some t) (id : ReqId) (hsome : (t.signal id).isSome = true) :
    (s.signal id).isSome = true ∨ a = .begin id := by
  have hsame : ∀ {i : ReqId} {slot : Dispatch.Slot}, id ≠ i →
      (s.signal.insert i slot id).isSome = true → (s.signal id).isSome = true := by
    intro i slot hid hinserted
    rwa [PMap.insert_of_ne _ _ hid] at hinserted
  have herased : ∀ {i : ReqId}, (s.signal.erase i id).isSome = true → (s.signal id).isSome = true := by
    intro i herased
    rw [PMap.erase_apply] at herased
    split at herased
    · cases herased
    · exact herased
  cases Dispatch.step_transition h with
  | begun | data | finished | discarded | discardedConnection | started | wrote | judged | unknown
  | receiverDiscarded | picked | missed | retried | dropped | requeued | prepared | preparedEmpty
  | cleaned | ended | discardedRejected => exact .inl hsome
  | @created i =>
    by_cases hid : id = i
    · exact .inr (by rw [hid])
    · exact .inl (hsame hid hsome)
  | cancelled => exact .inl (herased hsome)
  | @cancelledConnection conn =>
    by_cases hid : id.1 = conn
    · simp [Dispatch.State.record, hid] at hsome
    · exact .inl (by simpa [Dispatch.State.record, hid] using hsome)
  | @received i _ _ _ _ _ found =>
    by_cases hid : id = i
    · exact .inl (by simp [hid, found])
    · exact .inl (hsame hid hsome)
  | taken | rejected => exact .inl (herased hsome)

/-- The other threads leave the network thread's bookkeeping alone. -/
theorem dispatch_background {ρ : Type} {s t : Dispatch.State ρ ω} {a : Dispatch.Action ρ ω}
    (hnetwork : NetworkAction a = false) (h : Dispatch.step s a = some t) :
    t.net = s.net ∧ t.begun = s.begun ∧ t.ended = s.ended := by
  cases Dispatch.step_transition h with
  | begun | created | data | finished | cancelled | cancelledConnection | discarded
  | discardedConnection | started => cases hnetwork
  | _ => exact ⟨rfl, rfl, rfl⟩

/-! ## The server -/

/-- What a step of another thread leaves alone. -/
structure Background (s t : State M H L C W ω) : Prop where
  network : t.network = s.network
  verifier : t.verifier = s.verifier
  net : t.shared.net = s.shared.net
  begun : t.shared.begun = s.shared.begun
  ended : t.shared.ended = s.shared.ended

omit [DecidableEq ω] in
theorem Action.Makes.background {action : Dispatch.Action (PartialReq L W) ω} (h : a.Makes action)
    (hnetwork : a.Network = false) : NetworkAction action = false := by
  cases a <;> try cases hnetwork
  case complete | lookup | create | buildRouteEvent =>
    obtain ⟨_, rfl⟩ := h
    rfl
  case sendSignal | sendRejected | endPreparation =>
    cases h
    rfl
  case protocol =>
    obtain ⟨rfl, -⟩ := h
    exact hnetwork
  all_goals exact h.elim

theorem background_step (hnetwork : a.Network = false)
    (h : step config form404 manager s a = some t) : Background s t := by
  have hown : t.network = s.network ∧ t.verifier = s.verifier := by
    cases step_transition h with
    | headersAdmitted | headersRefused | sectionQueued | dataChecked | dataEntered | dataWritten
    | finishedHandled | finishedCancelled | streamReset | connectionClosed | streamRemoved =>
      cases hnetwork
    | _ => exact ⟨rfl, rfl⟩
  have hshared : t.shared.net = s.shared.net ∧ t.shared.begun = s.shared.begun ∧
      t.shared.ended = s.shared.ended := by
    cases step_shared h with
    | same shared =>
      rw [shared]
      exact ⟨rfl, rfl, rfl⟩
    | packet _ shared =>
      rw [shared]
      exact ⟨rfl, rfl, rfl⟩
    | along makes step => exact dispatch_background (makes.background hnetwork) step
  exact ⟨hown.1, hown.2, hshared.1, hshared.2.1, hshared.2.2⟩

/-- What a step does to the stream queues. -/
inductive QueueStep (s t : State M H L C W ω) (a : Action L W ω) : Prop
  | same (queues : t.queues = s.queues)
  | inserted {key : QueueKey} (inserted : insertedQueue s a = some key)
      (queues : t.queues = insert key s.queues)
  | removed {key : QueueKey} (removes : a = .removeStream key) (queues : t.queues = s.queues.erase key)

theorem step_queues (h : step config form404 manager s a = some t) : QueueStep s t a := by
  cases step_transition h with
  | streamRemoved => exact .removed rfl rfl
  | statusSent held => exact .inserted (by simp only [insertedQueue, held]) rfl
  | errorQueueInserted held => exact .inserted (by simp only [insertedQueue, held]) rfl
  | queueInserted at_ held => exact .inserted (by simp only [insertedQueue, at_, held]) rfl
  | _ => exact .same rfl

/-- A queue stays until the network thread removes it. -/
theorem queues_step (h : step config form404 manager s a = some t) (key : QueueKey)
    (hkey : key ∈ s.queues) : key ∈ t.queues ∨ a = .removeStream key := by
  cases step_queues h with
  | same queues => exact .inl (queues ▸ hkey)
  | inserted _ queues => exact .inl (queues ▸ Finset.mem_insert_of_mem hkey)
  | @removed removed removes queues =>
    by_cases heq : key = removed
    · exact .inr (heq ▸ removes)
    · exact .inl (queues ▸ Finset.mem_erase.mpr ⟨heq, hkey⟩)

/-- A new queue is the one the step inserts. -/
theorem queues_new (h : step config form404 manager s a = some t) (key : QueueKey)
    (hkey : key ∈ t.queues) : key ∈ s.queues ∨ insertedQueue s a = some key := by
  cases step_queues h with
  | same queues => exact .inl (queues ▸ hkey)
  | @inserted new inserted queues =>
    rcases Finset.mem_insert.mp (queues ▸ hkey) with rfl | hold
    · exact .inr inserted
    · exact .inl hold
  | removed _ queues => exact .inl (Finset.mem_of_mem_erase (queues ▸ hkey))

/-! ## In-flight paths -/

/-- A stream is recorded by its headers only, and no longer once its connection is
closed. -/
theorem verifier_step (h : step config form404 manager s a = some t) (key : ConnStreamK)
    (hkey : key ∈ t.verifier.streamMap) :
    (key ∈ s.verifier.streamMap ∧ ∀ conn scid, a = .closeConnection conn scid → key.connId ≠ scid) ∨
      ∃ message, a = .headers message ∧ key = ⟨message.id.2, message.scid⟩ := by
  cases step_transition h with
  | @headersAdmitted message =>
    rcases InFlightStreamsPathVerifier.mem_insertStreamPathForConn hkey with rfl | hold
    · exact .inr ⟨message, rfl, rfl⟩
    · exact .inl ⟨hold, nofun⟩
  | headersRefused | finishedHandled | finishedCancelled | streamReset =>
    exact .inl ⟨Finset.mem_of_mem_erase hkey, nofun⟩
  | connectionClosed =>
    obtain ⟨hold, hne⟩ := Finset.mem_filter.mp hkey
    refine .inl ⟨hold, fun conn' scid' heq => ?_⟩
    cases heq
    exact hne
  | _ => exact .inl ⟨hkey, nofun⟩

/-! ## Cancellations -/

/-- The cancellation a step of the protocol begins or ends. -/
theorem net_step {ρ : Type} {s t : Dispatch.State ρ ω} {a : Dispatch.Action ρ ω}
    (h : Dispatch.step s a = some t) : t.net = s.net ∨ t.net = .idle ∨
      (∃ id, a = .cancelRequest id ∧ t.net = .discarding id) ∨
      ∃ conn, a = .cancelConnection conn ∧ t.net = .discardingConnection conn := by
  cases Dispatch.step_transition h with
  | @cancelled id => exact .inr (.inr (.inl ⟨id, rfl, rfl⟩))
  | @cancelledConnection conn => exact .inr (.inr (.inr ⟨conn, rfl, rfl⟩))
  | discarded | discardedConnection => exact .inr (.inl rfl)
  | _ => exact .inl rfl

/-- The request whose cancellation a step of the server may begin. -/
def Action.MayCancel (id : ReqId) : Action L W ω → Prop
  | .headers message => message.id = id
  | .finished i _ | .reset i _ => i = id
  | .closeConnection conn _ => conn = id.1
  | _ => False

omit [DecidableEq ω] in
theorem Action.Makes.mayCancel {action : Dispatch.Action (PartialReq L W) ω} {id : ReqId}
    (h : a.Makes action) (hcancels : action = .cancelRequest id ∨ action = .cancelConnection id.1) :
    a.MayCancel id := by
  cases a with
  | protocol internal =>
    obtain ⟨rfl, hinternal⟩ := h
    rcases hcancels with rfl | rfl <;> exact absurd hinternal Bool.false_ne_true
  | _ => rcases hcancels with rfl | rfl <;> simp_all [Action.Makes, Action.MayCancel]

theorem cancels_step (h : step config form404 manager s a = some t) (id : ReqId)
    (hcancels : t.shared.net.Cancels id) : s.shared.net.Cancels id ∨ a.MayCancel id := by
  cases step_shared h with
  | same shared => exact .inl (shared ▸ hcancels)
  | packet _ shared =>
    rw [shared] at hcancels
    exact .inl hcancels
  | @along action makes hstep =>
    rcases net_step hstep with hsame | hidle | ⟨i, rfl, hnet⟩ | ⟨conn, rfl, hnet⟩
    · exact .inl (hsame ▸ hcancels)
    · rw [hidle] at hcancels
      exact hcancels.elim
    · rw [hnet] at hcancels
      obtain rfl : i = id := hcancels
      exact .inr (makes.mayCancel (.inl rfl))
    · rw [hnet] at hcancels
      obtain rfl : conn = id.1 := hcancels
      exact .inr (makes.mayCancel (.inr rfl))

/-- A disposition entry is created by the headers of its request, and not there any
more once its connection is closed. -/
theorem signal_step (h : step config form404 manager s a = some t) (id : ReqId)
    (hsome : (t.shared.signal id).isSome = true) :
    ((s.shared.signal id).isSome = true ∧ ∀ scid, a ≠ .closeConnection id.1 scid) ∨
      ∃ message, a = .headers message ∧ message.id = id := by
  have hclosed : ∀ scid, a ≠ .closeConnection id.1 scid := by
    rintro scid rfl
    cases step_transition h with
    | connectionClosed _ protocol =>
      obtain ⟨-, rfl⟩ := guarded_eq_some_iff.mp protocol
      simp [Dispatch.State.record] at hsome
  cases step_shared h with
  | same shared => exact .inl ⟨shared ▸ hsome, hclosed⟩
  | packet _ shared =>
    rw [shared] at hsome
    exact .inl ⟨hsome, hclosed⟩
  | @along action makes hstep =>
    rcases signal_isSome hstep id hsome with hold | rfl
    · exact .inl ⟨hold, hclosed⟩
    · right
      cases a with
      | headers message =>
        rcases makes with heq | heq <;> cases heq
        exact ⟨message, rfl, rfl⟩
      | protocol internal =>
        obtain ⟨rfl, hinternal⟩ := makes
        exact absurd hinternal Bool.false_ne_true
      | _ => simp [Action.Makes] at makes

/-! ## The position of the network thread -/

/-- Where a step leaves the network thread. It sets out on a header section or a body
packet from rest, and a cancellation is only carried on at rest. -/
inductive NetworkStep (s t : State M H L C W ω) (a : Action L W ω) : Prop
  | background (same : Background s t)
  | idle (network : t.network = .idle)
  | processing {message : HeaderMessage} (action : a = .headers message)
      (network : t.network = .processing message) (net : t.shared.net = .idle)
  | packet {id : ReqId} (action : a = .dataCheck id) (net : s.shared.net = .idle)
      (network : t.network = .missing id ∨ t.network = .entered id) (shared : t.shared = s.shared)
  | entered {id : ReqId} (before : s.network = .missing id) (network : t.network = .entered id)
      (net : t.shared.net = s.shared.net) (begun : t.shared.begun = s.shared.begun)
      (ended : t.shared.ended = s.shared.ended)
  | discarded (cancels : s.shared.net ≠ .idle) (network : t.network = s.network)

theorem network_step (h : step config form404 manager s a = some t) : NetworkStep s t a := by
  cases hnetwork : a.Network with
  | false => exact .background (background_step hnetwork h)
  | true =>
    cases step_transition h with
    | headersAdmitted _ _ protocol =>
      have hidle : s.shared.net = .idle := (guarded_eq_some_iff.mp protocol).1
      refine .processing rfl rfl ?_
      cases Dispatch.step_transition protocol <;> exact hidle
    | headersRefused | sectionQueued | dataWritten | finishedHandled | finishedCancelled | streamReset
    | connectionClosed | streamRemoved => exact .idle rfl
    | dataChecked _ net =>
      refine .packet rfl net ?_ rfl
      dsimp only
      split
      · exact .inr rfl
      · exact .inl rfl
    | dataEntered missing => exact .entered missing rfl rfl rfl rfl
    | @along action _ internal protocol =>
      -- of the network thread's steps only the end of a cancellation is internal
      cases action <;> first
        | exact absurd hnetwork Bool.false_ne_true
        | exact absurd internal Bool.false_ne_true
        | skip
      refine .discarded (fun hidle => ?_) rfl
      simp [Dispatch.step, hidle] at protocol
    | _ => cases hnetwork

/-- No cancellation is under way while a section is processed. -/
def ProcessingInv (s : State M H L C W ω) : Prop :=
  ∀ message, s.network = .processing message → s.shared.net = .idle

theorem processingInv_step (h : ProcessingInv s) (hstep : step config form404 manager s a = some t) :
    ProcessingInv t := by
  intro message hm
  cases network_step hstep with
  | background same =>
    rw [same.net]
    exact h message (same.network ▸ hm)
  | idle network => cases network.symm.trans hm
  | processing _ _ net => exact net
  | packet _ _ network =>
    rcases network with network | network <;> cases network.symm.trans hm
  | entered _ network => cases network.symm.trans hm
  | discarded cancels network => exact absurd (h message (network ▸ hm)) cancels

/-- A packet is entered between the headers and the end of its request. -/
def PacketInv (s : State M H L C W ω) : Prop :=
  ∀ id, s.network = .missing id ∨ s.network = .entered id →
    s.shared.net = .idle ∧ s.shared.begun id = true ∧ s.shared.ended id = false

omit [DecidableEq ω] in
theorem packetInv_init : PacketInv (init manager : State M H L C W ω) := by
  intro id h
  rcases h with h | h <;> cases h

theorem packetInv_step (h : PacketInv s)
    (hopen : ∀ id, a = .dataCheck id → s.shared.begun id = true ∧ s.shared.ended id = false)
    (hstep : step config form404 manager s a = some t) : PacketInv t := by
  intro id hid
  cases network_step hstep with
  | background same =>
    rw [same.net, same.begun, same.ended]
    exact h id (same.network ▸ hid)
  | idle network => rcases hid with hid | hid <;> cases network.symm.trans hid
  | processing _ network => rcases hid with hid | hid <;> cases network.symm.trans hid
  | @packet i action net network shared =>
    obtain rfl : i = id := by
      rcases network with network | network <;> rw [network] at hid <;> simpa using hid
    rw [shared]
    exact ⟨net, hopen i action⟩
  | @entered i before network net begun ended =>
    obtain rfl : i = id := by
      rw [network] at hid
      simpa using hid
    rw [net, begun, ended]
    exact h i (.inl before)
  | discarded cancels network => exact absurd (h id (network ▸ hid)).1 cancels

/-- As long as packets come in time, the protocol of a run of the server is a run of
the protocol. -/
theorem protocol_step {past : List (Dispatch.Action (PartialReq L W) ω)} (hpacket : PacketInv s)
    (run : exec Dispatch.step {} past = some s.shared)
    (hstep : step config form404 manager s a = some t) :
    ∃ actions, exec Dispatch.step {} actions = some t.shared := by
  cases step_shared hstep with
  | same shared => exact ⟨past, shared ▸ run⟩
  | @packet id write network shared =>
    refine ⟨past ++ [.data id write], ?_⟩
    obtain ⟨hnet, hbegun, hended⟩ := hpacket id network
    rw [exec_snoc, run, shared]
    simp [Dispatch.step, hnet, hbegun, hended]
  | @along action makes hstep => exact ⟨past ++ [action], by rw [exec_snoc, run]; exact hstep⟩

end FacesHttp3.Server
