import FacesHttp3.Lib.Exec

/-! # The queues of a stream and their counters

A stream has two queues, one for bodies and one for headers. A counter with a limit
goes along with each of them, and the producers ask the counter, not the queue. The
counter stops at its limit and at zero, and two of the operations pass it by. -/

namespace FacesHttp3.Chunks
open FacesHttp3.Lib.Exec

structure ChunkCounter where
  counterLimit : Nat
  counter : Nat := 0
  deriving DecidableEq

namespace ChunkCounter

def inQueue (counter : ChunkCounter) : Nat := counter.counter

def isOccupied (counter : ChunkCounter) : Bool := decide (counter.counterLimit ≤ counter.counter)

def tryIncrement (counter : ChunkCounter) : ChunkCounter × Bool :=
  if counter.counterLimit = counter.counter then (counter, false)
  else ({ counter with counter := counter.counter + 1 }, true)

def decrement (counter : ChunkCounter) : ChunkCounter :=
  if 0 < counter.counter then { counter with counter := counter.counter - 1 } else counter

end ChunkCounter

/-- A queue whose receiver is alive, with the counter its sender and receiver share;
`messages` are the undelivered ones. -/
structure Queue (μ : Type) where
  counter : ChunkCounter
  messages : List μ := []
  deriving DecidableEq

namespace Queue
variable {μ : Type}

/-- `ChunkSender::send`. -/
def send (queue : Queue μ) (msg : μ) : Queue μ where
  counter := queue.counter.tryIncrement.1
  messages := queue.messages ++ [msg]

/-- A send through the bare sender of the channel. -/
def sendBare (queue : Queue μ) (msg : μ) : Queue μ :=
  { queue with messages := queue.messages ++ [msg] }

/-- `ChunkReceiver::try_recv`. -/
def tryRecv (queue : Queue μ) : Option (μ × Queue μ) :=
  match queue.messages with
  | [] => none
  | msg :: messages => some (msg, { counter := queue.counter.decrement, messages })

/-- The messages that the counter does not know of. -/
def missed (queue : Queue μ) : Nat := queue.messages.length - queue.counter.inQueue

/-- The counter says that the queue is full exactly when it is. -/
def ExactlyOccupied (queue : Queue μ) : Prop :=
  queue.counter.isOccupied = true ↔ queue.counter.counterLimit ≤ queue.messages.length

instance (queue : Queue μ) : Decidable queue.ExactlyOccupied := by
  unfold ExactlyOccupied
  infer_instance

end Queue

structure Channel (μ : Type) where
  low : Queue μ
  high : Queue μ
  deriving DecidableEq

inductive Op (μ : Type)
  | sendLow (msg : μ)
  | sendHigh (msg : μ)
  | sendToQueue (msg : μ)
  | sendToHighPriorityQueue (msg : μ)
  | tryPop

namespace Channel
variable {μ : Type}

def lowLimit : Nat := 150
def highLimit : Nat := 1010

/-- `insert_new_channel`. -/
def new : Channel μ := ⟨⟨⟨lowLimit, 0⟩, []⟩, ⟨⟨highLimit, 0⟩, []⟩⟩

def inQueue (channel : Channel μ) : Nat := channel.low.counter.inQueue

/-- `try_pop`: the high priority queue first. -/
def tryPop (channel : Channel μ) : Option (μ × Channel μ) :=
  match channel.high.tryRecv with
  | some (msg, high) => some (msg, { channel with high })
  | none =>
    match channel.low.tryRecv with
    | some (msg, low) => some (msg, { channel with low })
    | none => none

def perform (channel : Channel μ) : Op μ → Channel μ
  | .sendLow msg => { channel with low := channel.low.send msg }
  | .sendHigh msg => { channel with high := channel.high.send msg }
  | .sendToQueue msg => { channel with low := channel.low.sendBare msg }
  | .sendToHighPriorityQueue msg => { channel with high := channel.high.sendBare msg }
  | .tryPop =>
    match channel.tryPop with
    | some (_, channel) => channel
    | none => channel

/-- Every operation can be performed. -/
def step (channel : Channel μ) (op : Op μ) : Option (Channel μ) := some (channel.perform op)

/-- What the counters say is what is in the queues. -/
structure ExactlyCounted (channel : Channel μ) : Prop where
  inQueue : channel.inQueue = channel.low.messages.length
  low : channel.low.ExactlyOccupied
  high : channel.high.ExactlyOccupied

/-- Bodies come through their counter and find room. The message that fills the high
priority queue is counted, as is every one before it, and nothing is taken from a
queue beyond its limit. -/
def Accounted (channel : Channel μ) : Op μ → Prop
  | .sendLow _ => channel.low.messages.length < lowLimit
  | .sendToQueue _ => False
  | .sendHigh _ => channel.high.messages.length + 1 = highLimit → channel.high.missed = 0
  | .sendToHighPriorityQueue _ => channel.high.messages.length + 1 ≠ highLimit
  | .tryPop => channel.high.messages.length ≤ highLimit

/-! ## One operation -/

/-- The counters never leave their bounds. -/
structure Bounded (channel : Channel μ) : Prop where
  low_limit : channel.low.counter.counterLimit = lowLimit
  high_limit : channel.high.counter.counterLimit = highLimit
  low_counter : channel.low.counter.counter ≤ lowLimit
  high_counter : channel.high.counter.counter ≤ highLimit
  low_messages : channel.low.counter.counter ≤ channel.low.messages.length
  high_messages : channel.high.counter.counter ≤ channel.high.messages.length

theorem bounded_new : Bounded (new : Channel μ) :=
  ⟨rfl, rfl, Nat.zero_le _, Nat.zero_le _, Nat.zero_le _, Nat.zero_le _⟩

theorem exactlyCounted_new : ExactlyCounted (new : Channel μ) := by
  constructor <;> simp [new, inQueue, ChunkCounter.inQueue, Queue.ExactlyOccupied,
    ChunkCounter.isOccupied, lowLimit, highLimit]

end Channel

section Queues
variable {μ : Type} {queue : Queue μ}

theorem Queue.exactlyOccupied_iff : queue.ExactlyOccupied ↔
    (queue.counter.counterLimit ≤ queue.counter.counter ↔
      queue.counter.counterLimit ≤ queue.messages.length) := by
  simp [ExactlyOccupied, ChunkCounter.isOccupied]

@[simp] theorem Queue.send_messages (msg : μ) : (queue.send msg).messages.length =
    queue.messages.length + 1 := by
  simp [Queue.send]

@[simp] theorem Queue.sendBare_messages (msg : μ) : (queue.sendBare msg).messages.length =
    queue.messages.length + 1 := by
  simp [Queue.sendBare]

@[simp] theorem Queue.sendBare_counter (msg : μ) : (queue.sendBare msg).counter = queue.counter := rfl

@[simp] theorem Queue.send_counterLimit (msg : μ) :
    (queue.send msg).counter.counterLimit = queue.counter.counterLimit := by
  unfold Queue.send ChunkCounter.tryIncrement
  split <;> rfl

/-- The counter counts a message up to its limit. -/
theorem Queue.send_counter (msg : μ) (h : queue.counter.counter ≤ queue.counter.counterLimit) :
    (queue.send msg).counter.counter =
      min (queue.counter.counter + 1) queue.counter.counterLimit := by
  unfold Queue.send ChunkCounter.tryIncrement
  split
  · dsimp only
    omega
  · dsimp only
    omega

theorem Queue.tryRecv_eq_some {msg : μ} {queue' : Queue μ}
    (h : queue.tryRecv = some (msg, queue')) : queue.messages = msg :: queue'.messages ∧
      queue'.counter.counterLimit = queue.counter.counterLimit ∧
      queue'.counter.counter = queue.counter.counter - 1 := by
  unfold Queue.tryRecv at h
  split at h
  · cases h
  · rename_i hmessages
    cases h
    refine ⟨hmessages, ?_⟩
    unfold ChunkCounter.decrement
    dsimp only
    split
    · exact ⟨rfl, rfl⟩
    · exact ⟨rfl, by omega⟩

theorem Queue.tryRecv_eq_none : queue.tryRecv = none ↔ queue.messages = [] := by
  unfold Queue.tryRecv
  split <;> simp_all

end Queues

namespace Channel
variable {μ : Type} {channel : Channel μ}

/-- A pop takes the next message of one queue, or finds both empty. -/
theorem perform_tryPop (channel : Channel μ) :
    (∃ msg high, channel.high.tryRecv = some (msg, high) ∧
      channel.perform .tryPop = { channel with high }) ∨
    (channel.high.messages = [] ∧ ∃ msg low, channel.low.tryRecv = some (msg, low) ∧
      channel.perform .tryPop = { channel with low }) ∨
    (channel.high.messages = [] ∧ channel.low.messages = [] ∧
      channel.perform .tryPop = channel) := by
  unfold perform tryPop
  cases hhigh : channel.high.tryRecv with
  | some received => exact .inl ⟨_, _, rfl, rfl⟩
  | none =>
    rw [Queue.tryRecv_eq_none] at hhigh
    cases hlow : channel.low.tryRecv with
    | some received => exact .inr (.inl ⟨hhigh, _, _, rfl, rfl⟩)
    | none => exact .inr (.inr ⟨hhigh, Queue.tryRecv_eq_none.mp hlow, rfl⟩)

theorem Bounded.perform (h : Bounded channel) (op : Op μ) : Bounded (channel.perform op) := by
  obtain ⟨hll, hhl, hlc, hhc, hlm, hhm⟩ := h
  cases op with
  | sendLow msg =>
    have hcounter := channel.low.send_counter msg (by omega)
    refine ⟨by simpa [Channel.perform] using hll, hhl, ?_, hhc, ?_, hhm⟩
    · simp only [Channel.perform, hcounter]
      omega
    · simp only [Channel.perform, hcounter, Queue.send_messages]
      omega
  | sendHigh msg =>
    have hcounter := channel.high.send_counter msg (by omega)
    refine ⟨hll, by simpa [Channel.perform] using hhl, hlc, ?_, hlm, ?_⟩
    · simp only [Channel.perform, hcounter]
      omega
    · simp only [Channel.perform, hcounter, Queue.send_messages]
      omega
  | sendToQueue msg =>
    refine ⟨hll, hhl, hlc, hhc, ?_, hhm⟩
    simp only [Channel.perform, Queue.sendBare_messages, Queue.sendBare_counter]
    omega
  | sendToHighPriorityQueue msg =>
    refine ⟨hll, hhl, hlc, hhc, hlm, ?_⟩
    simp only [Channel.perform, Queue.sendBare_messages, Queue.sendBare_counter]
    omega
  | tryPop =>
    obtain ⟨msg, high, hrecv, heq⟩ | ⟨-, msg, low, hrecv, heq⟩ | ⟨-, -, heq⟩ := perform_tryPop channel
    · obtain ⟨hmessages, hlimit, hcounter⟩ := Queue.tryRecv_eq_some hrecv
      rw [hmessages, List.length_cons] at hhm
      rw [heq]
      exact ⟨hll, hlimit.trans hhl, hlc, by dsimp only; omega, hlm, by dsimp only; omega⟩
    · obtain ⟨hmessages, hlimit, hcounter⟩ := Queue.tryRecv_eq_some hrecv
      rw [hmessages, List.length_cons] at hlm
      rw [heq]
      exact ⟨hlimit.trans hll, hhl, by dsimp only; omega, hhc, by dsimp only; omega, hhm⟩
    · rw [heq]
      exact ⟨hll, hhl, hlc, hhc, hlm, hhm⟩

/-- With counters in their bounds only two things can be wrong. -/
theorem Bounded.exactlyCounted_iff (h : Bounded channel) : ExactlyCounted channel ↔
    channel.low.counter.counter = channel.low.messages.length ∧
    (highLimit ≤ channel.high.messages.length → channel.high.counter.counter = highLimit) := by
  obtain ⟨hll, hhl, hlc, hhc, hlm, hhm⟩ := h
  constructor
  · intro ⟨hin, _, hhigh⟩
    rw [Queue.exactlyOccupied_iff, hhl] at hhigh
    exact ⟨hin, fun hfull => by have := hhigh.mpr hfull; omega⟩
  · intro ⟨hlow, hhigh⟩
    refine ⟨hlow, ?_, ?_⟩
    · rw [Queue.exactlyOccupied_iff, hlow]
    · rw [Queue.exactlyOccupied_iff, hhl]
      constructor
      · intro hfull
        omega
      · intro hfull
        have := hhigh hfull
        omega

/-- An operation on a channel that is exactly counted keeps it so exactly if it is
accounted for. -/
theorem perform_exactlyCounted_iff (hbounded : Bounded channel) (hexact : ExactlyCounted channel)
    (op : Op μ) : ExactlyCounted (channel.perform op) ↔ Accounted channel op := by
  rw [(hbounded.perform op).exactlyCounted_iff]
  obtain ⟨hlow, hhigh⟩ := hbounded.exactlyCounted_iff.mp hexact
  obtain ⟨hll, hhl, hlc, hhc, hlm, hhm⟩ := hbounded
  cases op with
  | sendLow msg =>
    have hcounter := channel.low.send_counter msg (by omega)
    simp only [perform, hcounter, hll, Queue.send_messages, Accounted]
    constructor
    · intro ⟨hsame, _⟩
      omega
    · intro hroom
      exact ⟨by omega, hhigh⟩
  | sendToQueue msg =>
    simp only [perform, Queue.sendBare_messages, Queue.sendBare_counter, Accounted, iff_false]
    intro ⟨hsame, _⟩
    omega
  | sendHigh msg =>
    have hcounter := channel.high.send_counter msg (by omega)
    simp only [perform, hcounter, hhl, Queue.send_messages, Accounted, Queue.missed,
      ChunkCounter.inQueue]
    constructor
    · intro ⟨_, hfull⟩ hfills
      have := hfull (by omega)
      omega
    · intro hmissed
      refine ⟨hlow, fun hfull => ?_⟩
      by_cases hbefore : highLimit ≤ channel.high.messages.length
      · have := hhigh hbefore
        omega
      · have := hmissed (by omega)
        omega
  | sendToHighPriorityQueue msg =>
    simp only [perform, Queue.sendBare_messages, Queue.sendBare_counter, Accounted]
    constructor
    · intro ⟨_, hfull⟩ hfills
      have := hfull (by omega)
      omega
    · intro hroom
      exact ⟨hlow, fun hfull => hhigh (by omega)⟩
  | tryPop =>
    simp only [Accounted]
    obtain ⟨msg, high, hrecv, heq⟩ | ⟨hnone, msg, low, hrecv, heq⟩ | ⟨hnone, -, heq⟩ :=
      perform_tryPop channel
    · obtain ⟨hmessages, -, hcounter⟩ := Queue.tryRecv_eq_some hrecv
      rw [heq]
      rw [hmessages, List.length_cons] at hhm hhigh ⊢
      dsimp only
      constructor
      · intro ⟨_, hfull⟩
        by_contra hover
        have := hfull (by omega)
        have := hhigh (by omega)
        have : 0 < highLimit := by decide
        omega
      · intro hroom
        exact ⟨hlow, fun hfull => by omega⟩
    · obtain ⟨hmessages, -, hcounter⟩ := Queue.tryRecv_eq_some hrecv
      rw [heq, hnone]
      rw [hmessages, List.length_cons] at hlow
      rw [hnone] at hhigh
      simp only [List.length_nil, Nat.zero_le, iff_true]
      exact ⟨by omega, hhigh⟩
    · rw [heq, hnone]
      rw [hnone] at hhigh
      simp only [List.length_nil, Nat.zero_le, iff_true]
      exact ⟨hlow, hhigh⟩

/-! ## Any number of operations -/

/-- In every run the counters are exact in all states exactly if every operation is
accounted for; then bodies never go beyond their limit, and a queue whose counter is
not at its limit has room. -/
theorem exactlyCounted_iff_accounted (ops : List (Op μ)) :
    ((∀ before after channel, ops = before ++ after → exec step new before = some channel →
        ExactlyCounted channel) ↔ Every step Accounted new ops) ∧
    (Every step Accounted new ops → ∀ channel : Channel μ, exec step new ops = some channel →
      channel.low.messages.length ≤ lowLimit ∧
      (channel.low.counter.isOccupied = false → channel.low.messages.length < lowLimit) ∧
      (channel.high.counter.isOccupied = false → channel.high.messages.length < highLimit)) := by
  have hiff : (∀ before after channel, ops = before ++ after →
      exec step new before = some channel → ExactlyCounted channel) ↔
        Every step Accounted new ops := by
    refine always_good_iff_every (fun channel op => ⟨_, rfl⟩) ?_ ?_ bounded_new exactlyCounted_new
    · intro channel op channel' hbounded hexact hstep
      cases hstep
      exact perform_exactlyCounted_iff hbounded hexact op
    · intro channel op channel' hbounded hstep
      cases hstep
      exact hbounded.perform op
  refine ⟨hiff, ?_⟩
  intro hevery channel hrun
  have hexact := hiff.mpr hevery ops [] channel (by simp) hrun
  have hbounded : Bounded channel := exec_invariant bounded_new
    (fun t op u hb hstep => by cases hstep; exact hb.perform op) hrun
  obtain ⟨hlow, hhigh⟩ := hbounded.exactlyCounted_iff.mp hexact
  obtain ⟨hll, hhl, hlc, hhc, -, -⟩ := hbounded
  refine ⟨by omega, ?_, ?_⟩
  · intro hfree
    simp only [ChunkCounter.isOccupied, hll, decide_eq_false_iff_not] at hfree
    omega
  · intro hfree
    simp only [ChunkCounter.isOccupied, hhl, decide_eq_false_iff_not] at hfree
    by_contra hfull
    have := hhigh (by omega)
    omega

/-- A message sent past the counter is not counted, and neither is one sent to a
queue at its limit. -/
theorem messages_not_counted :
    ¬ ExactlyCounted ((new : Channel Unit).perform (.sendToQueue ())) ∧
    ∃ channel : Channel Unit,
      exec step new (List.replicate 151 (.sendLow ())) = some channel ∧
      channel.inQueue = 150 ∧ channel.low.messages.length = 151 := by
  refine ⟨fun h => absurd h.inQueue (by decide), ?_⟩
  have hrun : ((exec step (new : Channel Unit) (List.replicate 151 (.sendLow ()))).any fun channel =>
      decide (channel.inQueue = 150 ∧ channel.low.messages.length = 151)) = true := by
    decide +kernel
  obtain ⟨channel, hchannel, hcounts⟩ := (Option.any_eq_true _ _).mp hrun
  exact ⟨channel, hchannel, of_decide_eq_true hcounts⟩

end Channel
end FacesHttp3.Chunks
