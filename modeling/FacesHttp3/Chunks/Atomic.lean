import FacesHttp3.Chunks.Deliveries
import FacesHttp3.Chunks.Dispatch

/-! # The channel of a stream seen from the map of all streams

With one inserting thread `insert_new_channel` is as good as one operation on the map,
and so are the sends. A pop of low priority is not: it may take a body although a header
has come in since the call looked for one. -/

namespace FacesHttp3.Registration
open FacesHttp3.Lib FacesHttp3.Lib.Exec FacesHttp3.Chunks

section Atomic
variable {τ μ : Type} [DecidableEq τ] {s u : State τ μ} {t : τ} {target : Target}
  {dispatch : DispatchChannel (Message τ μ)}

/-- The entry of the stream with its channel. -/
def State.registered (s : State τ μ) : Option (Entry (Message τ μ)) :=
  s.entry.bind fun number => (s.channels number).map (Entry.mk number)

/-- The state of one stream is what the map of all streams holds for it. -/
structure Represents (target : Target) (s : State τ μ) (dispatch : DispatchChannel (Message τ μ)) :
    Prop where
  entry : dispatch.map target = s.registered
  next : dispatch.next = s.next

/-- What a step does to the map, each time as one operation. -/
inductive Effect (target : Target) (dispatch : DispatchChannel (Message τ μ)) :
    Action τ μ → DispatchChannel (Message τ μ) → Prop
  | nothing {a : Action τ μ} : Effect target dispatch a dispatch
  | inserts {t : τ} : Effect target dispatch ⟨t, .insert⟩ (dispatch.insertNewChannel target)
  | sendsLow {t : τ} {number : Nat} {msg : μ} {after : DispatchChannel (Message τ μ)}
      (sent : dispatch.send ⟨target, number⟩ ⟨t, msg⟩ = some after) :
      Effect target dispatch ⟨t, .sendLow number msg⟩ after
  | sendsHigh {t : τ} {msg : μ} : Effect target dispatch ⟨t, .sendHigh⟩
      (dispatch.perform target (.sendToHighPriorityQueue ⟨t, msg⟩))
  | popsHigh {t : τ} : Effect target dispatch ⟨t, .tryRecvHigh⟩ (dispatch.perform target .tryPop)
  | popsLow {t : τ} {number : Nat} {channel : Channel (Message τ μ)} {low : Queue (Message τ μ)}
      {msg : Message τ μ} (found : dispatch.map target = some ⟨number, channel⟩)
      (received : channel.low.tryRecv = some (msg, low)) :
      Effect target dispatch ⟨t, .tryRecvLow⟩
        { dispatch with map := dispatch.map.insert target ⟨number, { channel with low }⟩ }

omit [DecidableEq τ] in
theorem registered_of_entry {number : Nat} {channel : Channel (Message τ μ)}
    (hentry : s.entry = some number) (hchannel : s.channels number = some channel) :
    s.registered = some ⟨number, channel⟩ := by
  rw [State.registered, hentry, Option.bind_some, hchannel, Option.map_some]

omit [DecidableEq τ] in
theorem represents_start : Represents target (start : State τ μ) {} := ⟨rfl, rfl⟩

omit [DecidableEq τ] in
theorem Represents.send {number : Nat} {msg : Message τ μ} {channel : Channel (Message τ μ)}
    (h : Represents target s dispatch) (hentry : s.entry = some number)
    (hchannel : s.channels number = some channel) (priority : Priority) :
    Represents target (s.put number priority msg) (dispatch.perform target
      (match priority with | .low => .sendLow msg | .high => .sendToHighPriorityQueue msg)) := by
  have hfound := h.entry.trans (registered_of_entry hentry hchannel)
  rw [State.put, hchannel]
  constructor
  · rw [registered_of_entry (by exact hentry) (PMap.insert_self _ _ _)]
    cases priority <;> simp [DispatchChannel.perform, hfound, sendTo]
  · exact h.next

theorem Represents.insert (sole : Sole t s) (h : Represents target s dispatch) {thread : Thread μ}
    (habsent : s.threads t = .absentAgain) :
    Represents target (s.register.become t thread) (dispatch.insertNewChannel target) := by
  have hfree : dispatch.map target = none := by
    rw [h.entry, State.registered, sole.absent habsent, Option.bind_none]
  unfold DispatchChannel.insertNewChannel
  rw [hfree, Option.isSome_none, if_neg Bool.false_ne_true]
  constructor
  · rw [registered_of_entry (by rfl) (PMap.insert_self _ _ _), h.next]
    exact PMap.insert_self _ _ _
  · exact congrArg (· + 1) h.next

omit [DecidableEq τ] in
/-- The pop takes from the channel that stands in the map. -/
theorem Represents.take {number : Nat} {priority : Priority} (inv : Inv s)
    (h : Represents target s dispatch) (hholds : (s.threads t).holds = some number)
    (hreceived : s.take number priority = some u) :
    ∃ channel msg queue, dispatch.map target = some ⟨number, channel⟩ ∧
      (queueOf channel priority).tryRecv = some (msg, queue) ∧
      u.registered = some ⟨number, setQueue channel queue priority⟩ ∧ u.next = s.next := by
  obtain ⟨hentry, -⟩ := inv.held t number hholds
  obtain ⟨channel, msg, queue, hchannel, hrecv, rfl⟩ := take_eq_some hreceived
  refine ⟨channel, msg, queue, h.entry.trans (registered_of_entry hentry hchannel), hrecv, ?_, rfl⟩
  exact registered_of_entry (by exact hentry) (PMap.insert_self _ _ _)

/-- Where one thread inserts, every step is one operation on the map or none. -/
theorem step_represents {a : Action τ μ} (sole : Sole t s) (inv : Inv s)
    (only : a.call = .insert → a.thread = t) (h : Represents target s dispatch)
    (hstep : step s a = some u) :
    ∃ after, Effect target dispatch a after ∧ Represents target u after := by
  obtain ⟨t', call⟩ := a
  cases step_cases hstep with
  | inserts habsent =>
    cases only rfl
    exact ⟨_, .inserts, h.insert sole habsent⟩
  | replaces habsent =>
    cases only rfl
    exact ⟨_, .inserts, h.insert sole habsent⟩
  | @drops old hreplacing =>
    refine ⟨dispatch, .nothing, ?_, h.next⟩
    have hold := (inv.replaced t' old hreplacing).1
    rw [h.entry]
    show s.registered = s.entry.bind fun number => ((s.channels.erase old) number).map _
    cases hentry : s.entry with
    | none => rw [State.registered, hentry]; rfl
    | some number =>
      have hne : number ≠ old := fun heq => hold (heq ▸ hentry)
      rw [State.registered, hentry, Option.bind_some, Option.bind_some, PMap.erase_of_ne _ hne]
  | @sendsLow number msg =>
    cases hchannel : s.channels number with
    | none =>
      have hsame : s.put number .low ⟨t', msg⟩ = s := by rw [State.put, hchannel]
      refine ⟨dispatch, .nothing, ?_⟩
      show Represents target (s.put number .low ⟨t', msg⟩) dispatch
      rw [hsame]
      exact h
    | some channel =>
      have hentry := sole.registered number (by simp [hchannel])
      have hfound := h.entry.trans (registered_of_entry hentry hchannel)
      refine ⟨_, .sendsLow ?_, h.send hentry hchannel .low⟩
      simp [DispatchChannel.send, hfound]
  | @sendsHigh number msg hsending =>
    obtain ⟨hentry, -⟩ := inv.held t' number (by rw [hsending]; rfl)
    obtain ⟨channel, hchannel⟩ := Option.isSome_iff_exists.mp (inv.alive number hentry)
    have hsent : Represents target (s.put number .high ⟨t', msg⟩)
        (dispatch.perform target (.sendToHighPriorityQueue ⟨t', msg⟩)) :=
      h.send hentry hchannel .high
    exact ⟨_, .sendsHigh, hsent.entry, hsent.next⟩
  | @popsHigh number v hpopping hreceived =>
    obtain ⟨channel, msg, high, hfound, hrecv, hafter, hnext⟩ :=
      h.take inv (by rw [hpopping]; rfl) hreceived
    refine ⟨_, .popsHigh, ?_, h.next.trans hnext.symm⟩
    have hpop : channel.perform .tryPop = { channel with high } := by
      have hhigh : channel.high.tryRecv = some (msg, high) := hrecv
      simp [Channel.perform, Channel.tryPop, hhigh]
    show (dispatch.perform target .tryPop).map target = v.registered
    rw [hafter]
    simp [DispatchChannel.perform, hfound, hpop, setQueue]
  | @popsLow number v hpopping hreceived =>
    obtain ⟨channel, msg, low, hfound, hrecv, hafter, hnext⟩ :=
      h.take inv (by rw [hpopping]; rfl) hreceived
    refine ⟨_, .popsLow hfound hrecv, ?_, h.next.trans hnext.symm⟩
    exact (PMap.insert_self _ _ _).trans hafter.symm
  | _ => exact ⟨dispatch, .nothing, h.entry, h.next⟩

/-- One effect for each action, on a map that is empty at first. -/
inductive Effects (target : Target) :
    List (Action τ μ) → DispatchChannel (Message τ μ) → Prop
  | nil : Effects target [] {}
  | snoc {past : List (Action τ μ)} {before after : DispatchChannel (Message τ μ)}
      {a : Action τ μ} (earlier : Effects target past before) (last : Effect target before a after) :
      Effects target (past ++ [a]) after

theorem run_represents {actions : List (Action τ μ)}
    (only : ∀ a ∈ actions, a.call = .insert → a.thread = t)
    (run : exec step start actions = some s) :
    ∃ dispatch, Effects target actions dispatch ∧ Represents target s dispatch := by
  have hevery : Every step (fun _ a => a.call = .insert → a.thread = t) start actions :=
    every_of_invariant (P := fun _ => True) (A := fun a => a.call = .insert → a.thread = t) trivial
      (fun _ _ _ _ _ _ => trivial) (fun _ _ _ _ ha _ => ha) only run
  have h : (Inv s ∧ Sole t s) ∧
      ∃ dispatch, Effects target actions dispatch ∧ Represents target s dispatch := by
    refine exec_induction (P := fun past v => (Inv v ∧ Sole t v) ∧
      ∃ dispatch, Effects target past dispatch ∧ Represents target v dispatch)
      ⟨⟨inv_start, sole_start t⟩, {}, .nil, represents_start⟩ ?_ hevery run
    intro past v a u ⟨⟨inv, sole⟩, dispatch, hpast, hrep⟩ ha hstep
    obtain ⟨after, heffect, hafter⟩ := step_represents sole inv ha hrep hstep
    exact ⟨⟨inv.step hstep, sole.step ha hstep⟩, after, hpast.snoc heffect, hafter⟩
  exact h.2

end Atomic
end FacesHttp3.Registration
