import Mathlib.Data.List.Forall2
import FacesHttp3.Chunks.Dispatch

/-! # One message to several streams

The call looks up the queue of every target, prepares every message, and sends them
one after the other; other threads use and remove the queues in between. What became
of the messages is read off its result. -/

namespace FacesHttp3.Sessions
open FacesHttp3.Lib FacesHttp3.Lib.Exec FacesHttp3.Request FacesHttp3.Chunks

structure BodyRequest where
  streamId : Nat
  connId : String
  scid : Bytes
  packetId : Nat
  packet : Bytes
  isEnd : Bool
  deriving DecidableEq

/-- What waits in a low priority queue. -/
inductive QueuedRequest
  | body (body : BodyRequest)
  | streamData (body : BodyRequest)
  deriving DecidableEq

inductive SendError
  | noTargets
  | stationUnavailable
  | queueUnavailable
  | encoding (message : String)
  | framing
  | disconnected (accepted : Nat)
  | wake (error : String)
  deriving DecidableEq

def SendError.message : SendError → String
  | .noTargets => "no stream targets"
  | .stationUnavailable => "chunking station unavailable"
  | .queueUnavailable => "stream queue unavailable"
  | .encoding message => message
  | .framing => "failed to frame capsule"
  | .disconnected accepted =>
    "stream queue disconnected after " ++ toString accepted ++ " accepted targets"
  | .wake error => "failed to wake poll: " ++ error

/-- The errors of a call that has not sent anything yet. -/
def SendError.BeforeSend : SendError → Prop
  | .noTargets | .stationUnavailable | .queueUnavailable | .encoding _ | .framing => True
  | .disconnected _ | .wake _ => False

/-- What a call works with: whether there is a chunking station, the callback that
makes capsule `K` and data for a target, and the framing. -/
structure Sending (K : Type) where
  station : Bool
  dataCb : Target → Except String (K × Bytes)
  prependFrame : Bytes → Option Bytes

variable {K : Type}

/-- The capsule and the request for one target. -/
def Sending.prepare (sending : Sending K) (target : Target) : Except SendError (K × BodyRequest) :=
  match sending.dataCb target with
  | .error message => .error (.encoding message)
  | .ok (capsule, data) =>
    match sending.prependFrame data with
    | none => .error .framing
    | some framed => .ok (capsule, {
        streamId := target.2, connId := "", scid := target.1, packetId := 0, packet := framed
        isEnd := false })

/-- `collect` into a result: the first error ends it. -/
def Sending.prepareAll (sending : Sending K) : List Target → Except SendError (List (K × BodyRequest))
  | [] => .ok []
  | target :: targets =>
    match sending.prepare target with
    | .error error => .error error
    | .ok first =>
      match sending.prepareAll targets with
      | .error error => .error error
      | .ok rest => .ok (first :: rest)

/-- Where a call is. -/
inductive Pc (K : Type)
  | start
  | resolving (senders : List LowSender) (rest : List Target)
  | sending (capsules : List K) (rest : List (LowSender × K × BodyRequest))
  | done (result : Except SendError (List K))

/-- The queues, one call, and the messages that went into a queue for it. -/
structure Multicast (K : Type) where
  dispatch : DispatchChannel QueuedRequest
  pc : Pc K := .start
  accepted : List (Target × QueuedRequest) := []

/-- A step of the call, with the error of a wake if it comes to that, or of another
thread. -/
inductive Action
  | call (wakeError : Option String)
  | insertNewChannel (target : Target)
  | removeStream (target : Target)
  | perform (target : Target) (op : Op QueuedRequest)
  | send (sender : LowSender) (msg : QueuedRequest)

namespace Multicast

/-- The next step of `send_one_or_more_message_on_stream`. -/
def call (sending : Sending K) (targets : List Target) (wakeError : Option String)
    (s : Multicast K) : Option (Multicast K) :=
  match s.pc with
  | .start =>
    if targets = [] then some { s with pc := .done (.error .noTargets) }
    else if sending.station = false then some { s with pc := .done (.error .stationUnavailable) }
    else some { s with pc := .resolving [] targets }
  -- resolve every queue before encoding or sending
  | .resolving senders (target :: rest) =>
    match s.dispatch.getLowPrioritySender target with
    | none => some { s with pc := .done (.error .queueUnavailable) }
    | some sender => some { s with pc := .resolving (senders ++ [sender]) rest }
  | .resolving senders [] =>
    match sending.prepareAll targets with
    | .error error => some { s with pc := .done (.error error) }
    | .ok prepared => some { s with pc := .sending [] (senders.zip prepared) }
  | .sending capsules ((sender, capsule, body) :: rest) =>
    match s.dispatch.send sender (.streamData body) with
    -- earlier targets may already contain their capsule
    | none => some { s with pc := .done (.error (.disconnected capsules.length)) }
    | some dispatch => some {
        dispatch
        pc := .sending (capsules ++ [capsule]) rest
        accepted := s.accepted ++ [(sender.target, .streamData body)] }
  | .sending capsules [] =>
    match wakeError with
    | some error => some { s with pc := .done (.error (.wake error)) }
    | none => some { s with pc := .done (.ok capsules) }
  | .done _ => none

def step (sending : Sending K) (targets : List Target) (s : Multicast K) :
    Action → Option (Multicast K)
  | .call wakeError => s.call sending targets wakeError
  | .insertNewChannel target => some { s with dispatch := s.dispatch.insertNewChannel target }
  | .removeStream target => some { s with dispatch := s.dispatch.removeStream target }
  | .perform target op => some { s with dispatch := s.dispatch.perform target op }
  | .send sender msg => some { s with dispatch := (s.dispatch.send sender msg).getD s.dispatch }

end Multicast

/-! ## What a call promises -/

/-- Every target has its capsule and request, made for it. -/
structure Prepared (sending : Sending K) (targets : List Target) (prepared : List (K × BodyRequest)) :
    Prop where
  targets_ne : targets ≠ []
  station : sending.station = true
  made : List.Forall₂ (fun target made => sending.prepare target = .ok made) targets prepared

/-- The messages for the targets, in their order. -/
def deliveries (targets : List Target) (prepared : List (K × BodyRequest)) :
    List (Target × QueuedRequest) :=
  (targets.zip prepared).map fun made => (made.1, .streamData made.2.2)

/-- What was accepted, by result. -/
inductive Outcome (sending : Sending K) (targets : List Target) :
    Except SendError (List K) → List (Target × QueuedRequest) → Prop
  | ok {prepared : List (K × BodyRequest)} (h : Prepared sending targets prepared) :
    Outcome sending targets (.ok (prepared.map Prod.fst)) (deliveries targets prepared)
  | refused {error : SendError} (h : error.BeforeSend) :
    Outcome sending targets (.error error) []
  | disconnected {prepared : List (K × BodyRequest)} {k : Nat}
    (h : Prepared sending targets prepared) (hk : k < targets.length) :
    Outcome sending targets (.error (.disconnected k)) ((deliveries targets prepared).take k)
  | wake {prepared : List (K × BodyRequest)} {error : String}
    (h : Prepared sending targets prepared) :
    Outcome sending targets (.error (.wake error)) (deliveries targets prepared)

theorem prepareAll_eq_ok {sending : Sending K} {targets : List Target}
    {prepared : List (K × BodyRequest)} (h : sending.prepareAll targets = .ok prepared) :
    List.Forall₂ (fun target made => sending.prepare target = .ok made) targets prepared := by
  induction targets generalizing prepared with
  | nil =>
    cases h
    exact .nil
  | cons target targets ih =>
    unfold Sending.prepareAll at h
    split at h
    · cases h
    · rename_i first hfirst
      split at h
      · cases h
      · rename_i rest hrest
        cases h
        exact .cons hfirst (ih hrest)

theorem prepareAll_eq_error {sending : Sending K} {targets : List Target} {error : SendError}
    (h : sending.prepareAll targets = .error error) : error.BeforeSend := by
  induction targets with
  | nil => cases h
  | cons target targets ih =>
    unfold Sending.prepareAll at h
    split at h
    · rename_i hfirst
      cases h
      unfold Sending.prepare at hfirst
      split at hfirst
      · cases hfirst
        trivial
      · split at hfirst <;> cases hfirst
        trivial
    · split at h
      · rename_i hrest
        cases h
        exact ih hrest
      · cases h

/-- A request goes to the ids of its target, with the framed bytes that the callback
returned for it. -/
theorem prepare_eq_ok {sending : Sending K} {target : Target} {capsule : K} {body : BodyRequest}
    (h : sending.prepare target = .ok (capsule, body)) :
    body.scid = target.1 ∧ body.streamId = target.2 ∧
      ∃ data, sending.dataCb target = .ok (capsule, data) ∧
        sending.prependFrame data = some body.packet := by
  unfold Sending.prepare at h
  split at h
  · cases h
  · rename_i capsule' data hdata
    split at h
    · cases h
    · rename_i framed hframed
      cases h
      exact ⟨rfl, rfl, data, hdata, hframed⟩

namespace Multicast
variable {sending : Sending K} {targets : List Target} {s t : Multicast K}

/-! ## One step -/

/-- The queues as the call left them, or one more message accepted. -/
def Frame (s t : Multicast K) : Prop :=
  (t.dispatch = s.dispatch ∧ t.accepted = s.accepted) ∨
  ∃ target body, DispatchChannel.Received target (.streamData body) s.dispatch t.dispatch ∧
    t.accepted = s.accepted ++ [(target, .streamData body)]

theorem frame_call {wakeError : Option String} (h : s.call sending targets wakeError = some t) :
    Frame s t := by
  unfold call at h
  split at h
  · split at h
    · cases h
      exact .inl ⟨rfl, rfl⟩
    · split at h <;> cases h <;> exact .inl ⟨rfl, rfl⟩
  · split at h <;> cases h <;> exact .inl ⟨rfl, rfl⟩
  · split at h <;> cases h <;> exact .inl ⟨rfl, rfl⟩
  · split at h
    · cases h
      exact .inl ⟨rfl, rfl⟩
    · rename_i hsend
      cases h
      exact .inr ⟨_, _, DispatchChannel.received_of_send hsend, rfl⟩
  · split at h <;> cases h <;> exact .inl ⟨rfl, rfl⟩
  · cases h

/-- What is accepted when the message of one sender goes out. -/
def delivery (made : LowSender × K × BodyRequest) : Target × QueuedRequest :=
  (made.1.target, .streamData made.2.2)

theorem deliveries_eq (all : List (LowSender × K × BodyRequest)) :
    deliveries (all.map fun made => made.1.target) (all.map Prod.snd) = all.map delivery := by
  induction all with
  | nil => rfl
  | cons made all ih => exact congrArg (delivery made :: ·) ih

/-- What the call has done at each of its points; while it sends, `sent` went out. -/
def Inv (sending : Sending K) (targets : List Target) (s : Multicast K) : Prop :=
  match s.pc with
  | .start => s.accepted = []
  | .resolving senders rest => s.accepted = [] ∧ targets ≠ [] ∧ sending.station = true ∧
      senders.map LowSender.target ++ rest = targets
  | .sending capsules rest => ∃ sent : List (LowSender × K × BodyRequest),
      (sent ++ rest).map (fun made => made.1.target) = targets ∧
      Prepared sending targets ((sent ++ rest).map Prod.snd) ∧
      capsules = sent.map (fun made => made.2.1) ∧ s.accepted = sent.map delivery
  | .done result => Outcome sending targets result s.accepted

theorem target_of_lookup {dispatch : DispatchChannel QueuedRequest} {target : Target}
    {sender : LowSender} (h : dispatch.getLowPrioritySender target = some sender) :
    sender.target = target := by
  obtain ⟨entry, -, rfl⟩ := Option.map_eq_some_iff.mp h
  rfl

/-- Every capsule is prepared for its sender before the first one is sent. -/
theorem inv_of_prepared {senders : List LowSender} {prepared : List (K × BodyRequest)}
    (hne : targets ≠ []) (hstation : sending.station = true)
    (htargets : senders.map LowSender.target = targets)
    (hmade : sending.prepareAll targets = .ok prepared) (haccepted : s.accepted = []) :
    Inv sending targets { s with pc := .sending [] (senders.zip prepared) } := by
  have hmade := prepareAll_eq_ok hmade
  have hlen : senders.length = prepared.length := by
    rw [← hmade.length_eq, ← htargets, List.length_map]
  refine ⟨[], ?_, ⟨hne, hstation, ?_⟩, rfl, haccepted⟩
  · have hfst : (senders.zip prepared).map Prod.fst = senders :=
      List.map_fst_zip (Nat.le_of_eq hlen)
    rw [List.nil_append, ← htargets]
    conv_rhs => rw [← hfst, List.map_map]
    rfl
  · rw [List.nil_append, List.map_snd_zip (Nat.le_of_eq hlen.symm)]
    exact hmade

/-- The call ends at the first sender whose queue is gone. -/
theorem inv_of_disconnected {sent rest : List (LowSender × K × BodyRequest)}
    {made : LowSender × K × BodyRequest}
    (htargets : (sent ++ made :: rest).map (fun made => made.1.target) = targets)
    (hprepared : Prepared sending targets ((sent ++ made :: rest).map Prod.snd))
    (haccepted : s.accepted = sent.map delivery) :
    Inv sending targets { s with
      pc := .done (.error (.disconnected (sent.map fun made => made.2.1).length)) } := by
  have hsent : s.accepted = (deliveries targets ((sent ++ made :: rest).map Prod.snd)).take
      (sent.map fun made => made.2.1).length := by
    rw [← htargets, deliveries_eq, haccepted, List.map_append, List.length_map]
    exact (List.take_left' (List.length_map _)).symm
  show Outcome sending targets _ s.accepted
  rw [hsent]
  refine .disconnected hprepared ?_
  rw [← htargets, List.length_map, List.length_map, List.length_append, List.length_cons]
  omega

/-- A step of the call keeps the invariant. -/
theorem inv_call {wakeError : Option String} (h : Inv sending targets s)
    (hstep : s.call sending targets wakeError = some t) : Inv sending targets t := by
  unfold Inv at h
  unfold call at hstep
  cases hpc : s.pc with
  | start =>
    simp only [hpc] at h hstep
    split at hstep
    · cases hstep
      rw [Inv, h]
      exact .refused trivial
    · rename_i hne
      split at hstep
      · cases hstep
        rw [Inv, h]
        exact .refused trivial
      · rename_i hstation
        cases hstep
        exact ⟨h, hne, by simpa using hstation, rfl⟩
  | resolving senders rest =>
    simp only [hpc] at h
    obtain ⟨haccepted, hne, hstation, htargets⟩ := h
    cases rest with
    | cons target rest =>
      simp only [hpc] at hstep
      split at hstep
      · cases hstep
        rw [Inv, haccepted]
        exact .refused trivial
      · rename_i sender hsender
        cases hstep
        refine ⟨haccepted, hne, hstation, ?_⟩
        rw [← htargets, List.map_append, List.map_singleton, target_of_lookup hsender,
          List.append_assoc]
        rfl
    | nil =>
      simp only [hpc] at hstep
      rw [List.append_nil] at htargets
      split at hstep
      · rename_i error herror
        cases hstep
        rw [Inv, haccepted]
        exact .refused (prepareAll_eq_error herror)
      · rename_i prepared hprepared
        cases hstep
        exact inv_of_prepared hne hstation htargets hprepared haccepted
  | sending capsules rest =>
    simp only [hpc] at h
    obtain ⟨sent, htargets, hprepared, rfl, haccepted⟩ := h
    cases rest with
    | cons made rest =>
      obtain ⟨sender, capsule, body⟩ := made
      simp only [hpc] at hstep
      split at hstep
      · cases hstep
        exact inv_of_disconnected htargets hprepared haccepted
      · rename_i dispatch hsend
        cases hstep
        refine ⟨sent ++ [(sender, capsule, body)], ?_, ?_, ?_, ?_⟩
        · rwa [List.append_assoc]
        · rwa [List.append_assoc]
        · rw [List.map_append]
          rfl
        · rw [List.map_append, haccepted]
          rfl
    | nil =>
      simp only [hpc] at hstep
      rw [List.append_nil] at htargets hprepared
      have hall : s.accepted = deliveries targets (sent.map Prod.snd) := by
        rw [← htargets, deliveries_eq, haccepted]
      split at hstep <;> cases hstep <;> rw [Inv, hall]
      · exact .wake hprepared
      · have hcapsules : sent.map (fun made => made.2.1) = (sent.map Prod.snd).map Prod.fst := by
          rw [List.map_map]
          rfl
        rw [hcapsules]
        exact .ok hprepared
  | done result =>
    simp only [hpc] at hstep
    cases hstep

/-- What other threads do to the queues does not concern the call's own state. -/
theorem inv_step {a : Action} (h : Inv sending targets s) (hstep : step sending targets s a = some t) :
    Inv sending targets t := by
  cases a with
  | call wakeError => exact inv_call h hstep
  | _ =>
    cases hstep
    exact h

/-- The messages that were accepted when a call ended. -/
theorem outcome_of_done {dispatch : DispatchChannel QueuedRequest} {as : List Action}
    {result : Except SendError (List K)}
    (run : exec (step sending targets) { dispatch } as = some s) (hdone : s.pc = .done result) :
    Outcome sending targets result s.accepted := by
  have hinv : Inv sending targets s :=
    exec_invariant (show Inv sending targets { dispatch } from rfl)
      (fun t a u h hstep => inv_step h hstep) run
  rwa [Inv, hdone] at hinv

/-- Whatever happens to the queues meanwhile, the result of a call tells what was
accepted, and its own steps put nothing else into any queue. -/
theorem multicast_outcome {dispatch : DispatchChannel QueuedRequest} {as : List Action}
    {result : Except SendError (List K)}
    (run : exec (step sending targets) { dispatch } as = some s) (hdone : s.pc = .done result) :
    Outcome sending targets result s.accepted ∧
    (∀ target capsule body, sending.prepare target = .ok (capsule, body) →
      body.scid = target.1 ∧ body.streamId = target.2 ∧
        ∃ data, sending.dataCb target = .ok (capsule, data) ∧
          sending.prependFrame data = some body.packet) ∧
    ∀ before wakeError after u v, as = before ++ .call wakeError :: after →
      exec (step sending targets) { dispatch } before = some u →
      step sending targets u (.call wakeError) = some v → Frame u v :=
  ⟨outcome_of_done run hdone, fun _ _ _ => prepare_eq_ok, fun _ _ _ _ _ _ _ => frame_call⟩

/-- A call to two streams whose second queue is removed behind its lookup. -/
def removedBehindLookup : List Action :=
  [.insertNewChannel ([1], 0), .insertNewChannel ([1], 4), .call none, .call none, .call none,
    .removeStream ([1], 4), .call none, .call none, .call none]

def plainSending : Sending Unit := ⟨true, fun _ => .ok ((), [1, 2, 3]), some⟩

theorem multicast_outcome_removed : ∃ s : Multicast Unit,
    exec (step plainSending [([1], 0), ([1], 4)]) { dispatch := {} } removedBehindLookup = some s ∧
    s.accepted = [(([1], 0), .streamData ⟨0, "", [1], 0, [1, 2, 3], false⟩)] ∧
    Outcome plainSending [([1], 0), ([1], 4)] (.error (.disconnected 1)) s.accepted := by
  have hrun : ((exec (step plainSending [([1], 0), ([1], 4)])
      { dispatch := {} } removedBehindLookup).any fun s =>
        (match s.pc with | .done (.error error) => decide (error = .disconnected 1) | _ => false) &&
        decide (s.accepted = [(([1], 0), .streamData ⟨0, "", [1], 0, [1, 2, 3], false⟩)])) = true := by
    decide +kernel
  obtain ⟨s, hs, hfacts⟩ := (Option.any_eq_true _ _).mp hrun
  rw [Bool.and_eq_true] at hfacts
  obtain ⟨hdone, haccepted⟩ := hfacts
  split at hdone
  · rename_i error herror
    rw [of_decide_eq_true hdone] at herror
    exact ⟨s, hs, of_decide_eq_true haccepted, (multicast_outcome hs herror).1⟩
  · cases hdone

end Multicast
end FacesHttp3.Sessions
