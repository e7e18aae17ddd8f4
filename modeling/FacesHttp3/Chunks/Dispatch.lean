import FacesHttp3.Chunks.Counter
import FacesHttp3.Lib.PMap
import FacesHttp3.Request

/-! # The queues of all streams

A concurrent map from connection and stream to a channel. A sender outlives the
entry it was taken from: once the stream is removed its sends fail, also when a new
channel stands under the same ids. -/

namespace FacesHttp3.Chunks
open FacesHttp3.Lib FacesHttp3.Request

/-- Source connection id and stream id. -/
abbrev Target := Bytes × Nat

/-- `number` tells the channel from others that stood under the same ids. -/
structure Entry (μ : Type) where
  number : Nat
  channel : Channel μ

/-- A `ChunkSender` of the low priority queue. -/
structure LowSender where
  target : Target
  number : Nat
  deriving DecidableEq

structure DispatchChannel (μ : Type) where
  map : PMap Target (Entry μ) := PMap.empty
  next : Nat := 0

namespace DispatchChannel
variable {μ : Type}

def insertNewChannel (dispatch : DispatchChannel μ) (target : Target) : DispatchChannel μ :=
  if (dispatch.map target).isSome then dispatch
  else { map := dispatch.map.insert target ⟨dispatch.next, .new⟩, next := dispatch.next + 1 }

def removeStream (dispatch : DispatchChannel μ) (target : Target) : DispatchChannel μ :=
  { dispatch with map := dispatch.map.erase target }

/-- An operation on the channel of a stream, if it has one. -/
def perform (dispatch : DispatchChannel μ) (target : Target) (op : Op μ) : DispatchChannel μ :=
  { dispatch with
    map := dispatch.map.modify target fun entry =>
      { entry with channel := entry.channel.perform op } }

def getLowPrioritySender (dispatch : DispatchChannel μ) (target : Target) : Option LowSender :=
  (dispatch.map target).map fun entry => ⟨target, entry.number⟩

/-- `ChunkSender::send`; `none` if the receiver is gone. -/
def send (dispatch : DispatchChannel μ) (sender : LowSender) (msg : μ) :
    Option (DispatchChannel μ) :=
  match dispatch.map sender.target with
  | some entry =>
    if entry.number = sender.number then some (dispatch.perform sender.target (.sendLow msg))
    else none
  | none => none

/-- The message is put into the low priority queue under the target's ids, and no other
queue changes. -/
structure Received (target : Target) (msg : μ) (before after : DispatchChannel μ) : Prop where
  queue : ∃ entry, before.map target = some entry ∧
    after.map target = some { entry with
      channel := { entry.channel with low := entry.channel.low.send msg } }
  others : ∀ other, other ≠ target → after.map other = before.map other

theorem received_of_send {dispatch dispatch' : DispatchChannel μ} {sender : LowSender} {msg : μ}
    (h : dispatch.send sender msg = some dispatch') :
    Received sender.target msg dispatch dispatch' := by
  unfold send at h
  split at h
  · rename_i entry hentry
    split at h
    · cases h
      refine ⟨⟨entry, hentry, ?_⟩, ?_⟩
      · simp [perform, hentry, Channel.perform]
      · intro other hother
        simp [perform, PMap.modify, hother]
    · cases h
  · cases h

end DispatchChannel
end FacesHttp3.Chunks
