import Mathlib.Data.List.Induction
import Mathlib.Data.List.Nodup
import FacesHttp3.Sessions.Multicast

/-! # Messages to a user

Users are bound to streams of connections under a path, and the bindings move while
capsules that were prepared for older ones, and their queues, are still there. The
calls that address a user ask the store of the path for the bindings under one lock
with the sending. -/

namespace FacesHttp3.Sessions
open FacesHttp3.Lib FacesHttp3.Lib.Exec FacesHttp3.Request FacesHttp3.Chunks

/-! ## Stores and their history -/

structure StreamIdent (U : Type) where
  userId : U
  dcid : Bytes
  streamId : Nat
  deriving DecidableEq

def StreamIdent.target {U : Type} (ident : StreamIdent U) : Target := (ident.dcid, ident.streamId)

/-- The store `T` of a path, as the application implements it; an entry that has no
`StreamIdent` is `none`. -/
structure UserSessions (T U : Type) where
  new : T
  registerSessions : T → U → Target → T
  removeSessionsByConnection : T → Bytes → T
  getConnectionIdsOnUserIds : T → List U → List (Option (StreamIdent U))

inductive SessionOp (U : Type)
  | register (user : U) (target : Target)
  | remove (scid : Bytes)

variable {T U K : Type}

def UserSessions.apply (users : UserSessions T U) (sessions : T) : SessionOp U → T
  | .register user target => users.registerSessions sessions user target
  | .remove scid => users.removeSessionsByConnection sessions scid

/-- The store after these operations. -/
def UserSessions.after (users : UserSessions T U) (ops : List (SessionOp U)) : T :=
  ops.foldl users.apply users.new

/-- The entries for these users that have a `StreamIdent`. -/
def UserSessions.idents (users : UserSessions T U) (sessions : T) (ids : List U) :
    List (StreamIdent U) :=
  (users.getConnectionIdsOnUserIds sessions ids).filterMap id

/-- Asked for users, the store names exactly their current bindings; `bound ops` are the
bindings after the operations, whatever a registration means to those before it. -/
structure UserSessions.Exact (users : UserSessions T U)
    (bound : List (SessionOp U) → U → Target → Prop) : Prop where
  nodup : ∀ ops ids, (users.idents (users.after ops) ids).Nodup
  mem : ∀ ops ids ident, ident ∈ users.idents (users.after ops) ids ↔
    ident.userId ∈ ids ∧ bound ops ident.userId ident.target

/-- What happens to the registry of streams. -/
inductive HistoryOp (U : Type)
  | createStream (path : String)
  | registerSessions (path : String) (user : U) (target : Target)
  | cleanClosedConnexions (scid : Bytes)

abbrev StreamSessions (T : Type) := PMap String T

def StreamSessions.perform (users : UserSessions T U) (sessions : StreamSessions T) :
    HistoryOp U → StreamSessions T
  | .createStream path => sessions.orInsert path users.new
  | .registerSessions path user target =>
    sessions.modify path fun store => users.registerSessions store user target
  | .cleanClosedConnexions scid => fun path =>
    (sessions path).map fun store => users.removeSessionsByConnection store scid

def StreamSessions.ofHistory (users : UserSessions T U) (history : List (HistoryOp U)) :
    StreamSessions T :=
  history.foldl (StreamSessions.perform users) PMap.empty

/-- The operations on the store of a path, if its stream was created. -/
def HistoryOp.on (path : String) (ops : Option (List (SessionOp U))) :
    HistoryOp U → Option (List (SessionOp U))
  | .createStream created => if path = created then some (ops.getD []) else ops
  | .registerSessions bound user target =>
    if path = bound then ops.map (· ++ [.register user target]) else ops
  | .cleanClosedConnexions scid => ops.map (· ++ [.remove scid])

def opsOn (path : String) (history : List (HistoryOp U)) : Option (List (SessionOp U)) :=
  history.foldl (HistoryOp.on path) none

theorem after_snoc (users : UserSessions T U) (ops : List (SessionOp U)) (op : SessionOp U) :
    users.after (ops ++ [op]) = users.apply (users.after ops) op := by
  simp [UserSessions.after]

/-- The store of a path is what the operations on it made of a new one. -/
theorem ofHistory_apply (users : UserSessions T U) (path : String) (history : List (HistoryOp U)) :
    StreamSessions.ofHistory users history path = (opsOn path history).map users.after := by
  induction history using List.reverseRecOn with
  | nil => rfl
  | append_singleton history op ih =>
    unfold StreamSessions.ofHistory opsOn at ih ⊢
    rw [List.foldl_append, List.foldl_append, List.foldl_cons, List.foldl_nil, List.foldl_cons,
      List.foldl_nil]
    change _ = Option.map users.after (HistoryOp.on path (opsOn path history) op)
    change _ = Option.map users.after (opsOn path history) at ih
    generalize history.foldl (StreamSessions.perform users) PMap.empty = sessions at ih
    cases op with
    | createStream created =>
      simp only [StreamSessions.perform, PMap.orInsert, HistoryOp.on, Function.update_apply]
      split
      · rename_i hpath
        rw [← hpath, ih]
        cases opsOn path history <;> rfl
      · exact ih
    | registerSessions bound user target =>
      simp only [StreamSessions.perform, PMap.modify, HistoryOp.on, Function.update_apply]
      split
      · rename_i hpath
        rw [← hpath, ih, Option.map_map, Option.map_map]
        exact congrArg (Option.map · (opsOn path history))
          (funext fun ops => (after_snoc users ops (.register user target)).symm)
      · exact ih
    | cleanClosedConnexions scid =>
      simp only [StreamSessions.perform, HistoryOp.on]
      rw [ih, Option.map_map, Option.map_map]
      exact congrArg (Option.map · (opsOn path history))
        (funext fun ops => (after_snoc users ops (.remove scid)).symm)

/-! ## The calls -/

/-- The streams that `send_message_to_subscriber_on_path` addresses. -/
def sendMessageToSubscriberOnPath (users : UserSessions T U) (sessions : StreamSessions T)
    (userId : U) (path : String) : Except String (List Target) :=
  match sessions path with
  | none => .error "Failed to send message to subscriber"
  | some store => .ok ((users.getConnectionIdsOnUserIds store [userId]).filterMap fun entry =>
      entry.map StreamIdent.target)

def sendMessageToSubscriberOnPathWithFilteredScids (users : UserSessions T U)
    (sessions : StreamSessions T) (userId : U) (path : String) (scids : List Bytes) :
    Except String (List Target) :=
  match sessions path with
  | none => .error "Failed to send message to subscriber"
  | some store => .ok ((users.getConnectionIdsOnUserIds store [userId]).filterMap fun entry =>
      entry.bind fun ident => if ident.dcid ∈ scids then none else some ident.target)

/-- A capsule prepared earlier for `own` goes there again if the store still has it. -/
def retrySendMessageToSubscriberOnPath [DecidableEq U] (users : UserSessions T U) (sessions : StreamSessions T)
    (userId : U) (own : Target) (path : String) : Except String (List Target) :=
  match sessions path with
  | none => .error "Failed to send message to subscriber"
  | some store =>
    -- a prepared capsule must not escape to a replaced stream or a reassigned connection
    let registered := (users.getConnectionIdsOnUserIds store [userId]).any fun entry =>
      entry.any fun ident =>
        ident.userId = userId ∧ ident.dcid = own.1 ∧ ident.streamId = own.2
    if registered then .ok [own] else .error "Failed to send message to subscriber"

def retrySendMessageToSubscriberOnPathWithFilteredScids [DecidableEq U] (users : UserSessions T U)
    (sessions : StreamSessions T) (userId : U) (own : Target) (path : String)
    (scids : List Bytes) : Except String (List Target) :=
  if own.1 ∈ scids then .error "capsule target is excluded"
  else retrySendMessageToSubscriberOnPath users sessions userId own path

/-- A call with the streams it addresses, while other threads use the queues: one that
is refused touches none. -/
inductive Call (sending : Sending K) (dispatch : DispatchChannel QueuedRequest) :
    Except String (List Target) → List Action → Multicast K → Except String (List K) → Prop
  | refused {message : String} :
    Call sending dispatch (.error message) [] { dispatch } (.error message)
  | performed {targets : List Target} {as : List Action} {s : Multicast K}
    {result : Except SendError (List K)}
    (run : exec (Multicast.step sending targets) { dispatch } as = some s)
    (hdone : s.pc = .done result) :
    Call sending dispatch (.ok targets) as s
      (result.mapError fun _ => "Failed to send message to subscriber")

/-! ## Who is addressed -/

/-- `target` is bound to the user on the path, and its connection is not excluded. -/
def Qualifies (bound : List (SessionOp U) → U → Target → Prop) (history : List (HistoryOp U))
    (userId : U) (path : String) (excluded : List Bytes) (target : Target) : Prop :=
  ∃ ops, opsOn path history = some ops ∧ bound ops userId target ∧ target.1 ∉ excluded

section Addressed
variable {users : UserSessions T U} {bound : List (SessionOp U) → U → Target → Prop}
  {history : List (HistoryOp U)} {userId : U} {path : String} {excluded : List Bytes}

/-- Without exclusions both calls address the same streams. -/
theorem unfiltered_eq (users : UserSessions T U) (sessions : StreamSessions T) (userId : U)
    (path : String) : sendMessageToSubscriberOnPath users sessions userId path =
      sendMessageToSubscriberOnPathWithFilteredScids users sessions userId path [] := by
  unfold sendMessageToSubscriberOnPath sendMessageToSubscriberOnPathWithFilteredScids
  cases sessions path with
  | none => rfl
  | some store =>
    dsimp only
    congr
    funext entry
    cases entry <;> simp

theorem retry_unfiltered_eq [DecidableEq U] (users : UserSessions T U)
    (sessions : StreamSessions T) (userId : U) (own : Target) (path : String) :
    retrySendMessageToSubscriberOnPath users sessions userId own path =
      retrySendMessageToSubscriberOnPathWithFilteredScids users sessions userId own path [] :=
  (if_neg List.not_mem_nil).symm

/-- The entries of one user are told apart by their streams. -/
theorem ident_of_user (hexact : users.Exact bound) {ops : List (SessionOp U)}
    {ident : StreamIdent U} (h : ident ∈ users.idents (users.after ops) [userId]) :
    ident = ⟨userId, ident.target.1, ident.target.2⟩ ∧ bound ops userId ident.target := by
  obtain ⟨huser, hbound⟩ := (hexact.mem ops [userId] ident).mp h
  rw [List.mem_singleton] at huser
  subst huser
  exact ⟨rfl, hbound⟩

theorem ident_of_bound (hexact : users.Exact bound) {ops : List (SessionOp U)} {target : Target}
    (h : bound ops userId target) :
    ⟨userId, target.1, target.2⟩ ∈ users.idents (users.after ops) [userId] :=
  (hexact.mem ops [userId] _).mpr ⟨List.mem_singleton.mpr rfl, h⟩

/-- The stream of an entry whose connection is not excluded. -/
def StreamIdent.unless (excluded : List Bytes) (ident : StreamIdent U) : Option Target :=
  if ident.dcid ∈ excluded then none else some ident.target

theorem StreamIdent.unless_eq_some {ident : StreamIdent U} {target : Target} :
    ident.unless excluded = some target ↔ ident.target = target ∧ target.1 ∉ excluded := by
  unfold StreamIdent.unless
  split
  · rename_i hexcluded
    simp only [reduceCtorEq, false_iff, not_and, not_not]
    intro h
    rwa [← h]
  · rename_i hfree
    rw [Option.some.injEq]
    constructor
    · intro h
      rw [← h]
      exact ⟨rfl, hfree⟩
    · exact And.left

theorem addressed_idents (sessions : T) :
    (users.getConnectionIdsOnUserIds sessions [userId]).filterMap (fun entry =>
        entry.bind fun ident => if ident.dcid ∈ excluded then none else some ident.target) =
      (users.idents sessions [userId]).filterMap (StreamIdent.unless excluded) := by
  rw [UserSessions.idents, List.filterMap_filterMap]
  rfl

/-- A call addresses the streams that qualify, each once. -/
theorem addressed (hexact : users.Exact bound) {targets : List Target}
    (h : sendMessageToSubscriberOnPathWithFilteredScids users
      (StreamSessions.ofHistory users history) userId path excluded = .ok targets) :
    targets.Nodup ∧ ∀ target, target ∈ targets ↔ Qualifies bound history userId path excluded target := by
  unfold sendMessageToSubscriberOnPathWithFilteredScids at h
  rw [ofHistory_apply] at h
  cases hops : opsOn path history with
  | none =>
    rw [hops] at h
    cases h
  | some ops =>
    rw [hops] at h
    have htargets : targets =
        (users.idents (users.after ops) [userId]).filterMap (StreamIdent.unless excluded) := by
      rw [← addressed_idents]
      exact (Except.ok.inj h).symm
    rw [htargets]
    constructor
    · rw [List.nodup_iff_pairwise_ne, List.pairwise_filterMap]
      refine (hexact.nodup ops [userId]).imp_of_mem ?_
      intro left right hleft hright hne target htarget target' htarget' heq
      obtain ⟨hleft, -⟩ := ident_of_user hexact hleft
      obtain ⟨hright, -⟩ := ident_of_user hexact hright
      have hsame : left.target = right.target := by
        rw [(StreamIdent.unless_eq_some.mp htarget).1, (StreamIdent.unless_eq_some.mp htarget').1, heq]
      apply hne
      rw [hleft, hright, hsame]
    · intro target
      rw [List.mem_filterMap]
      constructor
      · intro ⟨ident, hident, htarget⟩
        obtain ⟨rfl, hfree⟩ := StreamIdent.unless_eq_some.mp htarget
        exact ⟨ops, hops, (ident_of_user hexact hident).2, hfree⟩
      · intro ⟨ops', hops', hbound, hfree⟩
        cases hops.symm.trans hops'
        exact ⟨_, ident_of_bound hexact hbound, StreamIdent.unless_eq_some.mpr ⟨rfl, hfree⟩⟩

/-- The store has the capsule's own stream among the user's if it is bound to him. -/
theorem registered_iff [DecidableEq U] (hexact : users.Exact bound) (ops : List (SessionOp U)) (own : Target) :
    ((users.getConnectionIdsOnUserIds (users.after ops) [userId]).any fun entry =>
      entry.any fun ident =>
        decide (ident.userId = userId ∧ ident.dcid = own.1 ∧ ident.streamId = own.2)) = true ↔
      bound ops userId own := by
  rw [List.any_eq_true]
  constructor
  · intro ⟨entry, hentry, hany⟩
    obtain ⟨ident, rfl, hown⟩ := (Option.any_eq_true _ _).mp hany
    obtain ⟨-, hscid, hstream⟩ := of_decide_eq_true hown
    have hmem : ident ∈ users.idents (users.after ops) [userId] :=
      List.mem_filterMap.mpr ⟨some ident, hentry, rfl⟩
    rw [show own = ident.target from Prod.ext hscid.symm hstream.symm]
    exact (ident_of_user hexact hmem).2
  · intro hbound
    obtain ⟨entry, hentry, hident⟩ := List.mem_filterMap.mp (ident_of_bound hexact hbound)
    rw [id] at hident
    subst hident
    exact ⟨_, hentry, by simp⟩

/-- A retry addresses the capsule's own stream if that qualifies. -/
theorem retry_of_qualifies [DecidableEq U] (hexact : users.Exact bound) {own : Target}
    (h : Qualifies bound history userId path excluded own) :
    retrySendMessageToSubscriberOnPathWithFilteredScids users
      (StreamSessions.ofHistory users history) userId own path excluded = .ok [own] := by
  obtain ⟨ops, hops, hbound, hfree⟩ := h
  unfold retrySendMessageToSubscriberOnPathWithFilteredScids retrySendMessageToSubscriberOnPath
  rw [ofHistory_apply, hops, if_neg hfree]
  exact if_pos ((registered_iff hexact ops own).mpr hbound)

/-- Otherwise it is refused. -/
theorem retry_of_not_qualifies [DecidableEq U] (hexact : users.Exact bound) {own : Target}
    (h : ¬ Qualifies bound history userId path excluded own) : ∃ message,
    retrySendMessageToSubscriberOnPathWithFilteredScids users
      (StreamSessions.ofHistory users history) userId own path excluded = .error message := by
  unfold retrySendMessageToSubscriberOnPathWithFilteredScids retrySendMessageToSubscriberOnPath
  rw [ofHistory_apply]
  split
  · exact ⟨_, rfl⟩
  · rename_i hfree
    cases hops : opsOn path history with
    | none => exact ⟨_, rfl⟩
    | some ops =>
      refine ⟨_, if_neg fun hregistered => h ⟨ops, hops, ?_, hfree⟩⟩
      exact (registered_iff hexact ops own).mp hregistered

end Addressed

/-! ## What the calls put into queues -/

section Enqueued
variable {sending : Sending K} {targets : List Target} {accepted : List (Target × QueuedRequest)}
  {result : Except SendError (List K)}

theorem Prepared.deliveries_fst {prepared : List (K × BodyRequest)}
    (h : Prepared sending targets prepared) : (deliveries targets prepared).map Prod.fst = targets := by
  rw [deliveries, List.map_map]
  exact List.map_fst_zip (Nat.le_of_eq h.made.length_eq)

/-- The accepted messages went to the first targets, one each. -/
theorem Outcome.accepted_isPrefix (h : Outcome sending targets result accepted) :
    accepted.map Prod.fst <+: targets := by
  cases h with
  | ok h => exact ⟨[], (List.append_nil _).trans h.deliveries_fst⟩
  | refused => exact List.nil_prefix
  | disconnected h =>
    rw [List.map_take, h.deliveries_fst]
    exact List.take_prefix _ _
  | wake h => exact ⟨[], (List.append_nil _).trans h.deliveries_fst⟩

theorem Outcome.accepted_of_ok {capsules : List K}
    (h : Outcome sending targets (.ok capsules) accepted) : accepted.map Prod.fst = targets := by
  cases h with
  | ok h => exact h.deliveries_fst

theorem Outcome.of_nil (h : Outcome sending [] result accepted) :
    accepted = [] ∧ ∃ error, result = .error error := by
  cases h with
  | ok h => exact absurd rfl h.targets_ne
  | refused => exact ⟨rfl, _, rfl⟩
  | disconnected h => exact absurd rfl h.targets_ne
  | wake h => exact absurd rfl h.targets_ne

theorem Multicast.accepted_step {s t : Multicast K} {a : Action}
    (h : Multicast.step sending targets s a = some t) : s.accepted <+: t.accepted := by
  cases a with
  | call wakeError =>
    obtain ⟨-, haccepted⟩ | ⟨target, body, -, haccepted⟩ := Multicast.frame_call h
    · exact haccepted ▸ List.prefix_refl _
    · rw [haccepted]
      exact List.prefix_append _ _
  | _ =>
    cases h
    exact List.prefix_refl _

/-- A call whose run ends with these messages accepted put each of them into the queue of
its target, and changed no other queue. -/
theorem Multicast.frame_of_run {dispatch : DispatchChannel QueuedRequest} {s u v : Multicast K}
    {before after : List Action} {wakeError : Option String}
    (run : exec (Multicast.step sending targets) { dispatch } (before ++ .call wakeError :: after) =
      some s)
    (hbefore : exec (Multicast.step sending targets) { dispatch } before = some u)
    (hstep : Multicast.step sending targets u (.call wakeError) = some v) :
    Multicast.Frame u v ∧ v.accepted <+: s.accepted ∧
      (s.accepted = [] → v.dispatch = u.dispatch) := by
  have hframe := Multicast.frame_call hstep
  rw [exec_append, hbefore, Option.bind_some, exec_cons, hstep, Option.bind_some] at run
  have hlater : v.accepted <+: s.accepted :=
    exec_invariant (P := fun t => v.accepted <+: t.accepted) (List.prefix_refl _)
      (fun _ _ _ h hstep => h.trans (Multicast.accepted_step hstep)) run
  refine ⟨hframe, hlater, ?_⟩
  intro hnone
  obtain ⟨hsame, -⟩ | ⟨target, body, -, haccepted⟩ := hframe
  · exact hsame
  · rw [hnone, haccepted] at hlater
    simp at hlater

end Enqueued

/-- Messages went to bindings that qualify only, at most one to each, and to all of them
if the call succeeds; without any the call fails. -/
structure SendsToBindings (bound : List (SessionOp U) → U → Target → Prop)
    (history : List (HistoryOp U)) (userId : U) (path : String) (excluded : List Bytes)
    (result : Except String (List K)) (accepted : List (Target × QueuedRequest)) : Prop where
  only : ∀ sent ∈ accepted, Qualifies bound history userId path excluded sent.1
  once : (accepted.map Prod.fst).Nodup
  all : ∀ capsules, result = .ok capsules →
    ∀ target, Qualifies bound history userId path excluded target → target ∈ accepted.map Prod.fst
  none : (∀ target, ¬ Qualifies bound history userId path excluded target) →
    accepted = [] ∧ ∃ message, result = .error message

/-- At most one message, to the capsule's own stream, which qualifies. -/
structure RetriesToBinding (bound : List (SessionOp U) → U → Target → Prop)
    (history : List (HistoryOp U)) (userId : U) (own : Target) (path : String)
    (excluded : List Bytes) (result : Except String (List K))
    (accepted : List (Target × QueuedRequest)) : Prop where
  only : ∀ sent ∈ accepted, sent.1 = own ∧ Qualifies bound history userId path excluded own
  once : accepted.length ≤ 1
  all : ∀ capsules, result = .ok capsules → accepted.map Prod.fst = [own]
  none : ¬ Qualifies bound history userId path excluded own →
    accepted = [] ∧ ∃ message, result = .error message

section Calls
variable {users : UserSessions T U} {bound : List (SessionOp U) → U → Target → Prop}
  {history : List (HistoryOp U)} {userId : U} {path : String} {excluded : List Bytes}
  {sending : Sending K} {dispatch : DispatchChannel QueuedRequest} {as : List Action}
  {s : Multicast K} {result : Except String (List K)}

theorem sends_to_bindings (hexact : users.Exact bound)
    (hcall : Call sending dispatch (sendMessageToSubscriberOnPathWithFilteredScids users
      (StreamSessions.ofHistory users history) userId path excluded) as s result) :
    SendsToBindings bound history userId path excluded result s.accepted := by
  generalize haddressed : sendMessageToSubscriberOnPathWithFilteredScids users
    (StreamSessions.ofHistory users history) userId path excluded = calls at hcall
  cases hcall with
  | refused =>
    refine ⟨fun _ h => absurd h List.not_mem_nil, List.nodup_nil, ?_, fun _ => ⟨rfl, _, rfl⟩⟩
    intro capsules h
    cases h
  | @performed targets as s result run hdone =>
    obtain ⟨hnodup, hmem⟩ : targets.Nodup ∧ ∀ target, target ∈ targets ↔
        Qualifies bound history userId path excluded target := addressed hexact haddressed
    have houtcome := Multicast.outcome_of_done run hdone
    refine ⟨?_, ?_, ?_, ?_⟩
    · intro sent hsent
      exact (hmem _).mp (houtcome.accepted_isPrefix.subset (List.mem_map_of_mem hsent))
    · exact hnodup.sublist houtcome.accepted_isPrefix.sublist
    · intro capsules h target hqualifies
      cases result with
      | error => cases h
      | ok =>
        rw [houtcome.accepted_of_ok]
        exact (hmem target).mpr hqualifies
    · intro hnone
      have hnil : targets = [] := by
        rw [List.eq_nil_iff_forall_not_mem]
        intro target h
        exact hnone target ((hmem target).mp h)
      rw [hnil] at houtcome
      obtain ⟨haccepted, error, rfl⟩ := houtcome.of_nil
      exact ⟨haccepted, _, rfl⟩

theorem retries_to_binding [DecidableEq U] {own : Target} (hexact : users.Exact bound)
    (hcall : Call sending dispatch (retrySendMessageToSubscriberOnPathWithFilteredScids users
      (StreamSessions.ofHistory users history) userId own path excluded) as s result) :
    RetriesToBinding bound history userId own path excluded result s.accepted := by
  by_cases hown : Qualifies bound history userId path excluded own
  · rw [retry_of_qualifies hexact hown] at hcall
    cases hcall with
    | performed run hdone =>
      rename_i result
      have houtcome := Multicast.outcome_of_done run hdone
      refine ⟨?_, ?_, ?_, fun h => absurd hown h⟩
      · intro sent hsent
        have hmem := houtcome.accepted_isPrefix.subset (List.mem_map_of_mem hsent)
        exact ⟨List.mem_singleton.mp hmem, hown⟩
      · have hlength := houtcome.accepted_isPrefix.length_le
        rwa [List.length_map] at hlength
      · intro capsules h
        cases result with
        | error => cases h
        | ok => exact houtcome.accepted_of_ok
  · obtain ⟨message, hmessage⟩ := retry_of_not_qualifies hexact hown
    rw [hmessage] at hcall
    cases hcall with
    | refused =>
      refine ⟨fun _ h => absurd h List.not_mem_nil, Nat.zero_le 1, ?_, fun _ => ⟨rfl, _, rfl⟩⟩
      intro capsules h
      cases h

/-- Whatever happened to the bindings before, messages to a user go to the bindings of
the moment: all four calls, and every step they make on the queues. -/
theorem messages_only_to_current_bindings [DecidableEq U]
    {addressed : Except String (List Target)} (excluded : List Bytes) (hexact : users.Exact bound)
    (hcall : Call sending dispatch addressed as s result) :
    (addressed = sendMessageToSubscriberOnPath users
        (StreamSessions.ofHistory users history) userId path →
      SendsToBindings bound history userId path [] result s.accepted) ∧
    (addressed = sendMessageToSubscriberOnPathWithFilteredScids users
        (StreamSessions.ofHistory users history) userId path excluded →
      SendsToBindings bound history userId path excluded result s.accepted) ∧
    (∀ own, addressed = retrySendMessageToSubscriberOnPath users
        (StreamSessions.ofHistory users history) userId own path →
      RetriesToBinding bound history userId own path [] result s.accepted) ∧
    (∀ own, addressed = retrySendMessageToSubscriberOnPathWithFilteredScids users
        (StreamSessions.ofHistory users history) userId own path excluded →
      RetriesToBinding bound history userId own path excluded result s.accepted) ∧
    ∀ targets, addressed = .ok targets →
      ∀ before wakeError after u v, as = before ++ .call wakeError :: after →
        exec (Multicast.step sending targets) { dispatch } before = some u →
        Multicast.step sending targets u (.call wakeError) = some v →
        Multicast.Frame u v ∧ v.accepted <+: s.accepted ∧
          (s.accepted = [] → v.dispatch = u.dispatch) := by
  refine ⟨?_, ?_, ?_, ?_, ?_⟩
  · intro h
    rw [h, unfiltered_eq] at hcall
    exact sends_to_bindings hexact hcall
  · intro h
    rw [h] at hcall
    exact sends_to_bindings hexact hcall
  · intro own h
    rw [h, retry_unfiltered_eq] at hcall
    exact retries_to_binding hexact hcall
  · intro own h
    rw [h] at hcall
    exact retries_to_binding hexact hcall
  · intro targets h before wakeError after u v has hbefore hstep
    rw [h] at hcall
    cases hcall with
    | performed run hdone =>
      rw [has] at run
      exact Multicast.frame_of_run run hbefore hstep

end Calls

/-! ## A store that keeps one binding for a connection -/

def registered : UserSessions (List (Nat × Target)) Nat where
  new := []
  registerSessions store user target := (user, target) :: store.filter fun held => held.2.1 ≠ target.1
  removeSessionsByConnection store scid := store.filter fun held => held.2.1 ≠ scid
  getConnectionIdsOnUserIds store ids :=
    (store.filter fun held => held.1 ∈ ids).map fun held => some ⟨held.1, held.2.1, held.2.2⟩

/-- Whether the user is bound to the stream after `op`, if `held` says it of before. -/
def SessionOp.binds (user : Nat) (target : Target) (held : Prop) : SessionOp Nat → Prop
  | .register other bound => (user, target) = (other, bound) ∨ held ∧ target.1 ≠ bound.1
  | .remove scid => held ∧ target.1 ≠ scid

/-- The last registration of a connection is its binding until it is removed. -/
def lastBinding (ops : List (SessionOp Nat)) (user : Nat) (target : Target) : Prop :=
  ops.foldl (SessionOp.binds user target) False

theorem mem_after_registered (ops : List (SessionOp Nat)) (user : Nat) (target : Target) :
    (user, target) ∈ registered.after ops ↔ lastBinding ops user target := by
  induction ops using List.reverseRecOn with
  | nil => exact ⟨fun h => absurd h List.not_mem_nil, False.elim⟩
  | append_singleton ops op ih =>
    rw [after_snoc, lastBinding, List.foldl_append, List.foldl_cons, List.foldl_nil]
    change _ ↔ SessionOp.binds user target (lastBinding ops user target) op
    cases op with
    | register other bound =>
      rw [UserSessions.apply, registered, List.mem_cons, List.mem_filter, SessionOp.binds, ← ih,
        decide_eq_true_eq]
      rfl
    | remove scid =>
      rw [UserSessions.apply, registered, List.mem_filter, SessionOp.binds, ← ih, decide_eq_true_eq]
      rfl

theorem nodup_after_registered (ops : List (SessionOp Nat)) : (registered.after ops).Nodup := by
  induction ops using List.reverseRecOn with
  | nil => exact List.nodup_nil
  | append_singleton ops op ih =>
    rw [after_snoc]
    cases op with
    | register user target =>
      refine List.nodup_cons.mpr ⟨?_, ih.filter _⟩
      rw [List.mem_filter]
      simp
    | remove scid => exact ih.filter _

theorem idents_registered (store : List (Nat × Target)) (ids : List Nat) :
    registered.idents store ids =
      (store.filter fun held => held.1 ∈ ids).map fun held => ⟨held.1, held.2.1, held.2.2⟩ := by
  rw [UserSessions.idents, registered, List.filterMap_map, ← List.filterMap_eq_map]
  rfl

theorem exact_registered : registered.Exact lastBinding where
  nodup := by
    intro ops ids
    rw [idents_registered]
    refine List.Nodup.map ?_ ((nodup_after_registered ops).filter _)
    intro ⟨user, scid, stream⟩ ⟨user', scid', stream'⟩ h
    cases h
    rfl
  mem := by
    intro ops ids ident
    rw [idents_registered, List.mem_map, ← mem_after_registered]
    constructor
    · intro ⟨held, hheld, hident⟩
      obtain ⟨hmem, huser⟩ := List.mem_filter.mp hheld
      subst hident
      exact ⟨of_decide_eq_true huser, hmem⟩
    · intro ⟨huser, hmem⟩
      exact ⟨_, List.mem_filter.mpr ⟨hmem, decide_eq_true huser⟩, rfl⟩

/-- User 7 moved from stream 0 of a connection to stream 4; both queues are still there. -/
def moved : List (HistoryOp Nat) :=
  [.createStream "/events", .registerSessions "/events" 7 ([1], 0),
    .registerSessions "/events" 7 ([1], 4)]

def bothQueues : DispatchChannel QueuedRequest :=
  (({} : DispatchChannel QueuedRequest).insertNewChannel ([1], 0)).insertNewChannel ([1], 4)

/-- What a call that is done has returned with success. -/
def Pc.returned {K : Type} : Pc K → Option (List K)
  | .done (.ok capsules) => some capsules
  | _ => none

theorem Pc.done_of_returned {K : Type} {pc : Pc K} {capsules : List K}
    (h : pc.returned = some capsules) : pc = .done (.ok capsules) := by
  unfold Pc.returned at h
  split at h
  · cases h
    rfl
  · cases h

theorem messages_only_to_current_bindings_moved : ∃ s : Multicast Unit,
    Call Multicast.plainSending bothQueues
      (sendMessageToSubscriberOnPath registered (StreamSessions.ofHistory registered moved) 7 "/events")
      (List.replicate 5 (.call none)) s (.ok [()]) ∧
    s.accepted = [(([1], 4), .streamData ⟨4, "", [1], 0, [1, 2, 3], false⟩)] ∧
    SendsToBindings lastBinding moved 7 "/events" [] (Except.ok [()]) s.accepted ∧
    Call Multicast.plainSending bothQueues
      (retrySendMessageToSubscriberOnPath registered (StreamSessions.ofHistory registered moved) 7
        ([1], 0) "/events")
      [] { dispatch := bothQueues } (.error "Failed to send message to subscriber") := by
  have hsends : sendMessageToSubscriberOnPath registered
      (StreamSessions.ofHistory registered moved) 7 "/events" = .ok [([1], 4)] := by
    decide +kernel
  have hrefused : retrySendMessageToSubscriberOnPath registered
      (StreamSessions.ofHistory registered moved) 7 ([1], 0) "/events" =
        .error "Failed to send message to subscriber" := by
    decide +kernel
  have hrun : ((exec (Multicast.step Multicast.plainSending [([1], 4)])
      { dispatch := bothQueues } (List.replicate 5 (.call none))).any fun s =>
        decide (s.pc.returned = some [()]) &&
        decide (s.accepted = [(([1], 4), .streamData ⟨4, "", [1], 0, [1, 2, 3], false⟩)])) = true := by
    decide +kernel
  obtain ⟨s, hs, hfacts⟩ := (Option.any_eq_true _ _).mp hrun
  rw [Bool.and_eq_true] at hfacts
  obtain ⟨hdone, haccepted⟩ := hfacts
  have hpc := Pc.done_of_returned (of_decide_eq_true hdone)
  have hcall : Call Multicast.plainSending bothQueues (.ok [([1], 4)])
      (List.replicate 5 (.call none)) s (.ok [()]) := .performed hs hpc
  rw [hsends, hrefused]
  refine ⟨s, hcall, of_decide_eq_true haccepted, ?_, .refused⟩
  rw [← hsends] at hcall
  exact (messages_only_to_current_bindings [] exact_registered hcall).1 rfl

end FacesHttp3.Sessions
