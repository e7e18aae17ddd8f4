import FacesHttp3.Chunks.Counter
import FacesHttp3.Lib.PMap

/-! # Threads at the channel of one stream

Any number of threads insert a channel, send and pop for one connection and stream.
`insert_new_channel` looks into the map twice before it inserts, and between any two of
the three another thread may move. A reference into the map is a lock that an insertion
has to wait for, and a low priority sender is none: it outlives the entry it came from. -/

namespace FacesHttp3.Registration
open FacesHttp3.Lib FacesHttp3.Lib.Exec FacesHttp3.Chunks

inductive Priority
  | low
  | high
  deriving DecidableEq

/-- `sender` names the thread for the statements below; no operation reads it. -/
structure Message (τ μ : Type) where
  sender : τ
  content : μ
  deriving DecidableEq

/-- How far a thread is in its call. -/
inductive Thread (μ : Type)
  | idle
  /-- `already_in_map` has found nothing. -/
  | absent
  /-- `insert` has looked once more and found nothing. -/
  | absentAgain
  /-- The map has handed back the entry that was in the way, to be dropped. -/
  | replacing (number : Nat)
  | sending (number : Nat) (msg : μ)
  | popping (number : Nat)
  /-- `try_pop` has found the queue of high priority empty. -/
  | highEmpty (number : Nat)
  deriving DecidableEq

/-- The channel whose entry the thread holds a reference to. -/
def Thread.holds {μ : Type} : Thread μ → Option Nat
  | .sending number _ | .popping number | .highEmpty number => some number
  | .idle | .absent | .absentAgain | .replacing _ => none

structure State (τ μ : Type) where
  /-- The number of the channel that stands in the map. -/
  entry : Option Nat := none
  /-- The channels with living receivers. -/
  channels : PMap Nat (Channel (Message τ μ)) := PMap.empty
  next : Nat := 0
  threads : τ → Thread μ := fun _ => .idle
  /-- The threads with a reference to the entry. -/
  readers : List τ := []
  /-- The channels of which some thread has a low priority sender. -/
  senders : List Nat := []
  /-- What was sent with success, from the first on. -/
  sent : List (Priority × Message τ μ) := []
  /-- What `try_pop` has returned, from the first on. -/
  popped : List (Priority × Message τ μ) := []

/-- One operation on the map or on a channel. -/
inductive Call (μ : Type)
  | alreadyInMap
  | lookAgain
  | insert
  | dropReplaced
  | getLowPrioritySender
  | sendLow (number : Nat) (msg : μ)
  | sendToHighPriorityQueue (msg : μ)
  | sendHigh
  | tryPop
  | tryRecvHigh
  | tryRecvLow

structure Action (τ μ : Type) where
  thread : τ
  call : Call μ

/-- The queue with a priority. -/
def queueOf {μ : Type} (channel : Channel μ) : Priority → Queue μ
  | .low => channel.low
  | .high => channel.high

def setQueue {μ : Type} (channel : Channel μ) (queue : Queue μ) : Priority → Channel μ
  | .low => { channel with low := queue }
  | .high => { channel with high := queue }

/-- Header messages are sent through the bare sender of the channel. -/
def sendTo {μ : Type} (channel : Channel μ) (msg : μ) : Priority → Channel μ
  | .low => channel.perform (.sendLow msg)
  | .high => channel.perform (.sendToHighPriorityQueue msg)

namespace State
variable {τ μ : Type} [DecidableEq τ]

def become (s : State τ μ) (t : τ) (thread : Thread μ) : State τ μ :=
  { s with threads := Function.update s.threads t thread }

def hold (s : State τ μ) (t : τ) (thread : Thread μ) : State τ μ :=
  { s.become t thread with readers := t :: s.readers }

/-- The call returns and its reference is dropped. -/
def release (s : State τ μ) (t : τ) : State τ μ :=
  { s.become t .idle with readers := s.readers.filter fun other => decide (other ≠ t) }

omit [DecidableEq τ]

/-- A new channel takes the place in the map. -/
def register (s : State τ μ) : State τ μ :=
  { s with
    entry := some s.next
    channels := s.channels.insert s.next .new
    next := s.next + 1 }

/-- A send fails once the receivers are gone. -/
def put (s : State τ μ) (number : Nat) (priority : Priority) (msg : Message τ μ) : State τ μ :=
  match s.channels number with
  | some channel =>
    { s with
      channels := s.channels.insert number (sendTo channel msg priority)
      sent := s.sent ++ [(priority, msg)] }
  | none => s

/-- `try_recv` on one of the two receivers. -/
def take (s : State τ μ) (number : Nat) (priority : Priority) : Option (State τ μ) := do
  let channel ← s.channels number
  let (msg, queue) ← (queueOf channel priority).tryRecv
  some { s with
    channels := s.channels.insert number (setQueue channel queue priority)
    popped := s.popped ++ [(priority, msg)] }

/-- The messages in a queue of the channel in the map. -/
def queued (s : State τ μ) (priority : Priority) : List (Message τ μ) :=
  match s.entry.bind s.channels with
  | some channel => (queueOf channel priority).messages
  | none => []

end State

section Step
variable {τ μ : Type} [DecidableEq τ]

/-- A thread in the middle of one call makes no other. Dropping a reference goes along
with the last operation under it. -/
def step (s : State τ μ) (action : Action τ μ) : Option (State τ μ) :=
  let t := action.thread
  match action.call, s.threads t with
  | .alreadyInMap, .idle => some (if s.entry.isSome then s else s.become t .absent)
  | .lookAgain, .absent => some (s.become t (if s.entry.isSome then .idle else .absentAgain))
  | .insert, .absentAgain =>
    guarded (s.readers = []) (s.register.become t (s.entry.elim .idle .replacing))
  | .dropReplaced, .replacing number =>
    some ({ s with channels := s.channels.erase number }.become t .idle)
  | .getLowPrioritySender, .idle => some { s with senders := s.entry.toList ++ s.senders }
  | .sendLow number msg, .idle =>
    guarded (number ∈ s.senders) (s.put number .low ⟨t, msg⟩)
  | .sendToHighPriorityQueue msg, .idle =>
    some (s.entry.elim s fun number => s.hold t (.sending number msg))
  | .sendHigh, .sending number msg => some ((s.put number .high ⟨t, msg⟩).release t)
  | .tryPop, .idle => some (s.entry.elim s fun number => s.hold t (.popping number))
  | .tryRecvHigh, .popping number =>
    some ((s.take number .high).elim (s.become t (.highEmpty number)) fun u => u.release t)
  | .tryRecvLow, .highEmpty number => some (((s.take number .low).getD s).release t)
  | _, _ => none

/-- What one step can do. -/
inductive Step (s : State τ μ) (t : τ) : Call μ → State τ μ → Prop
  | returns {call : Call μ} (idle : s.threads t = .idle)
      (nothing : ∀ number msg, call ≠ .sendLow number msg) (other : call ≠ .insert) : Step s t call s
  | absent (idle : s.threads t = .idle) (free : s.entry = none) :
      Step s t .alreadyInMap (s.become t .absent)
  | found {number : Nat} (absent : s.threads t = .absent) (taken : s.entry = some number) :
      Step s t .lookAgain (s.become t .idle)
  | absentAgain (absent : s.threads t = .absent) (free : s.entry = none) :
      Step s t .lookAgain (s.become t .absentAgain)
  | inserts (absent : s.threads t = .absentAgain) (unread : s.readers = []) (free : s.entry = none) :
      Step s t .insert (s.register.become t .idle)
  | replaces {number : Nat} (absent : s.threads t = .absentAgain) (unread : s.readers = [])
      (taken : s.entry = some number) : Step s t .insert (s.register.become t (.replacing number))
  | drops {number : Nat} (replacing : s.threads t = .replacing number) :
      Step s t .dropReplaced ({ s with channels := s.channels.erase number }.become t .idle)
  | handsOut (idle : s.threads t = .idle) :
      Step s t .getLowPrioritySender { s with senders := s.entry.toList ++ s.senders }
  | sendsLow {number : Nat} {msg : μ} (idle : s.threads t = .idle) (held : number ∈ s.senders) :
      Step s t (.sendLow number msg) (s.put number .low ⟨t, msg⟩)
  | holdsToSend {number : Nat} {msg : μ} (idle : s.threads t = .idle)
      (taken : s.entry = some number) :
      Step s t (.sendToHighPriorityQueue msg) (s.hold t (.sending number msg))
  | sendsHigh {number : Nat} {msg : μ} (sending : s.threads t = .sending number msg) :
      Step s t .sendHigh ((s.put number .high ⟨t, msg⟩).release t)
  | holdsToPop {number : Nat} (idle : s.threads t = .idle) (taken : s.entry = some number) :
      Step s t .tryPop (s.hold t (.popping number))
  | popsHigh {number : Nat} {u : State τ μ} (popping : s.threads t = .popping number)
      (received : s.take number .high = some u) : Step s t .tryRecvHigh (u.release t)
  | highEmpty {number : Nat} (popping : s.threads t = .popping number)
      (nothing : s.take number .high = none) :
      Step s t .tryRecvHigh (s.become t (.highEmpty number))
  | popsLow {number : Nat} {u : State τ μ} (popping : s.threads t = .highEmpty number)
      (received : s.take number .low = some u) : Step s t .tryRecvLow (u.release t)
  | lowEmpty {number : Nat} (popping : s.threads t = .highEmpty number)
      (nothing : s.take number .low = none) : Step s t .tryRecvLow (s.release t)

theorem step_cases {s u : State τ μ} {action : Action τ μ} (h : step s action = some u) :
    Step s action.thread action.call u := by
  obtain ⟨t, call⟩ := action
  unfold step at h
  dsimp only at h ⊢
  split at h
  · rename_i hidle
    cases hentry : s.entry with
    | none =>
      simp only [hentry, Option.isSome_none, Bool.false_eq_true, if_false, Option.some.injEq] at h
      exact h ▸ .absent hidle hentry
    | some number =>
      simp only [hentry, Option.isSome_some, if_true, Option.some.injEq] at h
      exact h ▸ .returns hidle (by simp) (by simp)
  · rename_i habsent
    cases hentry : s.entry with
    | none =>
      simp only [hentry, Option.isSome_none, Bool.false_eq_true, if_false, Option.some.injEq] at h
      exact h ▸ .absentAgain habsent hentry
    | some number =>
      simp only [hentry, Option.isSome_some, if_true, Option.some.injEq] at h
      exact h ▸ .found habsent hentry
  · rename_i habsent
    obtain ⟨hunread, rfl⟩ := guarded_eq_some_iff.mp h
    cases hentry : s.entry with
    | none => exact .inserts habsent hunread hentry
    | some number => exact .replaces habsent hunread hentry
  · rename_i hreplacing
    exact Option.some.inj h ▸ .drops hreplacing
  · rename_i hidle
    exact Option.some.inj h ▸ .handsOut hidle
  · rename_i hidle
    obtain ⟨hheld, rfl⟩ := guarded_eq_some_iff.mp h
    exact .sendsLow hidle hheld
  · rename_i hidle
    cases hentry : s.entry with
    | none =>
      rw [hentry] at h
      exact Option.some.inj h ▸ .returns hidle (by simp) (by simp)
    | some number =>
      rw [hentry] at h
      exact Option.some.inj h ▸ .holdsToSend hidle hentry
  · rename_i hsending
    exact Option.some.inj h ▸ .sendsHigh hsending
  · rename_i hidle
    cases hentry : s.entry with
    | none =>
      rw [hentry] at h
      exact Option.some.inj h ▸ .returns hidle (by simp) (by simp)
    | some number =>
      rw [hentry] at h
      exact Option.some.inj h ▸ .holdsToPop hidle hentry
  · rename_i hpopping
    cases htake : s.take _ .high with
    | none =>
      rw [htake] at h
      exact Option.some.inj h ▸ .highEmpty hpopping htake
    | some v =>
      rw [htake] at h
      exact Option.some.inj h ▸ .popsHigh hpopping htake
  · rename_i hpopping
    cases htake : s.take _ .low with
    | none =>
      rw [htake] at h
      exact Option.some.inj h ▸ .lowEmpty hpopping htake
    | some v =>
      rw [htake] at h
      exact Option.some.inj h ▸ .popsLow hpopping htake
  · cases h

end Step
end FacesHttp3.Registration
