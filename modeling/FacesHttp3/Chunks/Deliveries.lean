import FacesHttp3.Chunks.Lossless

/-! # Runs of the threads at a stream

Whether the messages of a run are all delivered, in which order, and what a caller of
`try_pop` has seen before it gets a body. -/

namespace FacesHttp3.Registration
open FacesHttp3.Lib FacesHttp3.Lib.Exec FacesHttp3.Chunks

section Runs
variable {τ μ : Type} [DecidableEq τ] {s : State τ μ} {actions : List (Action τ μ)}

def start : State τ μ := {}

theorem inv_of_run (run : exec step start actions = some s) : Inv s :=
  exec_invariant inv_start (fun _ _ _ inv hstep => inv.step hstep) run

theorem accounted_of_every {u : State τ μ} (inv : Inv s) (h : Accounted s)
    (harmless : Every step Harmless s actions) (run : exec step s actions = some u) :
    Accounted u := by
  have hu : Inv u ∧ Accounted u := by
    refine exec_invariant_of_every (P := fun v => Inv v ∧ Accounted v) ⟨inv, h⟩ ?_ harmless run
    intro v a w hv hharmless hstep
    exact ⟨hv.1.step hstep, hv.2.step hv.1 hharmless hstep⟩
  exact hu.2

/-- The call of `try_pop` that the thread is in has found the queue of high priority of
the channel in the map empty. -/
def FoundHighEmpty (past : List (Action τ μ)) (t : τ) : Prop :=
  ∃ before after v u, past = before ++ ⟨t, .tryRecvHigh⟩ :: after ∧
    (∀ a ∈ after, a.thread ≠ t) ∧ exec step start before = some v ∧
    step v ⟨t, .tryRecvHigh⟩ = some u ∧ v.queued .high = []

/-- Messages of low priority are popped only after that. -/
def HighFirst (actions : List (Action τ μ)) : Prop :=
  ∀ before a after v u, actions = before ++ a :: after → exec step start before = some v →
    step v a = some u → u.poppedFrom .low ≠ v.poppedFrom .low → FoundHighEmpty before a.thread

theorem threads_of_ne {u : State τ μ} {t t' : τ} {call : Call μ}
    (hstep : step s ⟨t', call⟩ = some u) (hne : t ≠ t') : u.threads t = s.threads t := by
  have hmoves (v : State τ μ) (thread : Thread μ) :
      (v.become t' thread).threads t = v.threads t := Function.update_of_ne hne _ _
  cases step_cases hstep with
  | returns => rfl
  | absent => exact hmoves _ _
  | found => exact hmoves _ _
  | absentAgain => exact hmoves _ _
  | inserts => exact hmoves _ _
  | replaces => exact hmoves _ _
  | drops => exact hmoves _ _
  | handsOut => rfl
  | sendsLow => exact congrFun (sameChannels_put s _ _ _).threads t
  | holdsToSend => exact hmoves _ _
  | sendsHigh => exact (hmoves _ _).trans (congrFun (sameChannels_put s _ _ _).threads t)
  | holdsToPop => exact hmoves _ _
  | popsHigh _ hreceived => exact (hmoves _ _).trans (congrFun (sameChannels_take hreceived).threads t)
  | highEmpty => exact hmoves _ _
  | popsLow _ hreceived => exact (hmoves _ _).trans (congrFun (sameChannels_take hreceived).threads t)
  | lowEmpty => exact hmoves _ _

/-- Where a thread is after a step of its own. -/
theorem threads_self {u : State τ μ} {t : τ} {call : Call μ} (hstep : step s ⟨t, call⟩ = some u) :
    u.threads t = .idle ∨ u.threads t = .absent ∨
    (s.entry = none ∧ u.threads t = .absentAgain) ∨
    (∃ number, u.threads t = .replacing number) ∨
    (∃ number msg, u.threads t = .sending number msg) ∨
    (∃ number, u.threads t = .popping number) ∨
    (call = .tryRecvHigh ∧ ∃ number, s.threads t = .popping number ∧
      s.take number .high = none ∧ u.threads t = .highEmpty number) := by
  have hmoved (v : State τ μ) (thread : Thread μ) : (v.become t thread).threads t = thread :=
    Function.update_self _ _ _
  cases step_cases hstep with
  | returns hidle => exact .inl hidle
  | absent => exact .inr (.inl (hmoved _ _))
  | found => exact .inl (hmoved _ _)
  | absentAgain _ hfree => exact .inr (.inr (.inl ⟨hfree, hmoved _ _⟩))
  | inserts => exact .inl (hmoved _ _)
  | replaces => exact .inr (.inr (.inr (.inl ⟨_, hmoved _ _⟩)))
  | drops => exact .inl (hmoved _ _)
  | handsOut hidle => exact .inl hidle
  | sendsLow hidle => exact .inl ((congrFun (sameChannels_put s _ _ _).threads t).trans hidle)
  | holdsToSend => exact .inr (.inr (.inr (.inr (.inl ⟨_, _, hmoved _ _⟩))))
  | sendsHigh => exact .inl (hmoved _ _)
  | holdsToPop => exact .inr (.inr (.inr (.inr (.inr (.inl ⟨_, hmoved _ _⟩)))))
  | popsHigh => exact .inl (hmoved _ _)
  | highEmpty hpopping hnothing =>
    exact .inr (.inr (.inr (.inr (.inr (.inr ⟨rfl, _, hpopping, hnothing, hmoved _ _⟩)))))
  | popsLow => exact .inl (hmoved _ _)
  | lowEmpty => exact .inl (hmoved _ _)

/-- Only one operation brings a thread to the queue of low priority. -/
theorem step_highEmpty {u : State τ μ} {t : τ} {call : Call μ} {number : Nat} (inv : Inv s)
    (hstep : step s ⟨t, call⟩ = some u) (hu : u.threads t = .highEmpty number) :
    call = .tryRecvHigh ∧ s.queued .high = [] := by
  rcases threads_self hstep with h | h | ⟨-, h⟩ | ⟨_, h⟩ | ⟨_, _, h⟩ | ⟨_, h⟩ |
    ⟨rfl, found, hpopping, hnothing, -⟩
  case inr.inr.inr.inr.inr.inr =>
    obtain ⟨hentry, -⟩ := inv.held t found (by rw [hpopping]; rfl)
    exact ⟨rfl, queued_of_take_eq_none hentry (inv.alive found hentry) hnothing⟩
  all_goals exact nomatch h.symm.trans hu

theorem step_absentAgain {u : State τ μ} {a : Action τ μ} {t : τ} (hstep : step s a = some u)
    (hu : u.threads t = .absentAgain) : s.threads t = .absentAgain ∨ s.entry = none := by
  obtain ⟨t', call⟩ := a
  by_cases hsame : t = t'
  · subst hsame
    rcases threads_self hstep with h | h | ⟨hfree, -⟩ | ⟨_, h⟩ | ⟨_, _, h⟩ | ⟨_, h⟩ |
      ⟨-, _, -, -, h⟩
    case inr.inr.inl => exact .inr hfree
    all_goals exact nomatch h.symm.trans hu
  · exact .inl (threads_of_ne hstep hsame ▸ hu)

theorem foundHighEmpty_of_run (run : exec step start actions = some s) (t : τ) (number : Nat)
    (hpopping : s.threads t = .highEmpty number) : FoundHighEmpty actions t := by
  have h : exec step start actions = some s ∧
      ∀ t number, s.threads t = .highEmpty number → FoundHighEmpty actions t := by
    refine exec_history (P := fun past v => exec step start past = some v ∧
      ∀ t number, v.threads t = .highEmpty number → FoundHighEmpty past t) ⟨rfl, ?_⟩ ?_ run
    · intro t number hidle
      cases hidle
    · intro past v a u ⟨hrun, hfound⟩ hstep
      obtain ⟨t', call⟩ := a
      refine ⟨by rw [exec_snoc, hrun, Option.bind_some, hstep], ?_⟩
      intro t number hu
      by_cases hsame : t = t'
      · subst hsame
        obtain ⟨rfl, hempty⟩ := step_highEmpty (inv_of_run hrun) hstep hu
        exact ⟨past, [], v, u, rfl, by simp, hrun, hstep, hempty⟩
      · rw [threads_of_ne hstep hsame] at hu
        obtain ⟨before, after, w, x, rfl, hothers, hbefore, hrecv, hempty⟩ := hfound t number hu
        refine ⟨before, after ++ [⟨t', call⟩], w, x, by simp, ?_, hbefore, hrecv, hempty⟩
        intro a ha
        rcases List.mem_append.mp ha with ha | ha
        · exact hothers a ha
        · cases List.mem_singleton.mp ha
          exact Ne.symm hsame
  exact h.2 t number hpopping

theorem highFirst (actions : List (Action τ μ)) : HighFirst actions := by
  intro before a after v u _ hbefore hstep hpopped
  obtain ⟨t, call⟩ := a
  have hsame : on .low u.popped ≠ on .low v.popped := hpopped
  cases step_cases hstep with
  | sendsLow => exact absurd (congrArg (on .low) (popped_put v _ _ _)) hsame
  | sendsHigh => exact absurd (congrArg (on .low) (popped_put v _ _ _)) hsame
  | popsHigh _ hreceived =>
    obtain ⟨channel, msg, queue, -, -, rfl⟩ := take_eq_some hreceived
    have hhigh : on .low (v.popped ++ [(.high, msg)]) = on .low v.popped := by simp [on]
    exact absurd hhigh hsame
  | popsLow hpopping => exact foundHighEmpty_of_run hbefore t _ hpopping
  | _ => exact absurd rfl hsame

/-! ## Taking the messages out -/

def Call.IsPop : Call μ → Prop
  | .tryPop | .tryRecvHigh | .tryRecvLow => True
  | _ => False

def State.pending (s : State τ μ) : Nat := (s.queued .low).length + (s.queued .high).length

omit [DecidableEq τ] in
theorem pending_of_dequeue {u : State τ μ} {priority : Priority} {msg : Message τ μ}
    (h : ∀ q, s.queued q = on q [(priority, msg)] ++ u.queued q) : u.pending + 1 = s.pending := by
  have hlow := congrArg List.length (h .low)
  have hhigh := congrArg List.length (h .high)
  rw [List.length_append] at hlow hhigh
  unfold State.pending
  cases priority
  · have hone : (on .low [(Priority.low, msg)]).length = 1 := rfl
    have hnone : (on .high [(Priority.low, msg)]).length = 0 := rfl
    omega
  · have hone : (on .high [(Priority.high, msg)]).length = 1 := rfl
    have hnone : (on .low [(Priority.high, msg)]).length = 0 := rfl
    omega

/-- A call of `try_pop` with nothing in between takes a message if there is one. -/
theorem pop_pending {t : τ} (inv : Inv s) (hidle : s.threads t = .idle) (hpending : 0 < s.pending) :
    ∃ pops u, (∀ a ∈ pops, a.thread = t ∧ a.call.IsPop) ∧ exec step s pops = some u ∧
      u.threads t = .idle ∧ u.sent = s.sent ∧ u.pending + 1 = s.pending := by
  obtain ⟨number, hentry⟩ : ∃ number, s.entry = some number := by
    cases hentry : s.entry with
    | none => simp [State.pending, State.queued, hentry] at hpending
    | some number => exact ⟨number, rfl⟩
  have halive := inv.alive number hentry
  have hbegin : step s ⟨t, .tryPop⟩ = some (s.hold t (.popping number)) := by
    simp [step, hidle, hentry]
  have hpopping : (s.hold t (.popping number)).threads t = .popping number :=
    Function.update_self _ _ _
  cases hhigh : (s.hold t (.popping number)).take number .high with
  | some v =>
    obtain ⟨msg, hsent, -, hqueued⟩ := take_traffic (by exact hentry) hhigh
    have hrecv : step (s.hold t (.popping number)) ⟨t, .tryRecvHigh⟩ = some (v.release t) := by
      simp [step, hpopping, hhigh]
    refine ⟨[⟨t, .tryPop⟩, ⟨t, .tryRecvHigh⟩], v.release t, ?_, ?_, ?_, hsent, ?_⟩
    · simp [Call.IsPop]
    · simp [hbegin, hrecv]
    · exact Function.update_self _ _ _
    · exact pending_of_dequeue hqueued
  | none =>
    have hempty := queued_of_take_eq_none (by exact hentry) (by exact halive) hhigh
    have hfound : step (s.hold t (.popping number)) ⟨t, .tryRecvHigh⟩ =
        some ((s.hold t (.popping number)).become t (.highEmpty number)) := by
      simp [step, hpopping, hhigh]
    have hat : ((s.hold t (.popping number)).become t (.highEmpty number)).threads t =
        .highEmpty number := Function.update_self _ _ _
    cases hlow : ((s.hold t (.popping number)).become t (.highEmpty number)).take number .low with
    | some v =>
      obtain ⟨msg, hsent, -, hqueued⟩ := take_traffic (by exact hentry) hlow
      have hrecv : step ((s.hold t (.popping number)).become t (.highEmpty number))
          ⟨t, .tryRecvLow⟩ = some (v.release t) := by
        simp [step, hat, hlow]
      refine ⟨[⟨t, .tryPop⟩, ⟨t, .tryRecvHigh⟩, ⟨t, .tryRecvLow⟩], v.release t, ?_, ?_, ?_,
        hsent, ?_⟩
      · simp [Call.IsPop]
      · simp [hbegin, hfound, hrecv]
      · exact Function.update_self _ _ _
      · exact pending_of_dequeue hqueued
    | none =>
      have hempty' := queued_of_take_eq_none (by exact hentry) (by exact halive) hlow
      have hnone : s.pending = 0 := by
        show (s.queued .low).length + (s.queued .high).length = 0
        rw [show s.queued .low = [] from hempty', show s.queued .high = [] from hempty]
        rfl
      omega

theorem pop_all {t : τ} (inv : Inv s) (hidle : s.threads t = .idle) :
    ∃ pops u, (∀ a ∈ pops, a.thread = t ∧ a.call.IsPop) ∧ exec step s pops = some u ∧
      u.sent = s.sent ∧ u.pending = 0 := by
  induction hn : s.pending generalizing s with
  | zero => exact ⟨[], s, by simp, rfl, rfl, hn⟩
  | succ n ih =>
    obtain ⟨pops, u, hpops, hrun, hidle', hsent, hless⟩ := pop_pending inv hidle (by omega)
    have inv' : Inv u := exec_invariant inv (fun _ _ _ h hstep => h.step hstep) hrun
    obtain ⟨more, v, hmore, hrun', hsent', hempty⟩ := ih inv' hidle' (by omega)
    refine ⟨pops ++ more, v, ?_, ?_, hsent'.trans hsent, hempty⟩
    · intro a ha
      rcases List.mem_append.mp ha with ha | ha
      · exact hpops a ha
      · exact hmore a ha
    · rw [exec_append, hrun, Option.bind_some, hrun']

/-- A thread that has returned from its last call can pop every message that was sent. -/
def Poppable (s : State τ μ) : Prop :=
  ∀ t, s.threads t = .idle → ∃ pops u, (∀ a ∈ pops, a.thread = t ∧ a.call.IsPop) ∧
    exec step s pops = some u ∧ ∀ priority, u.poppedFrom priority = s.sentOn priority

theorem poppable_of_accounted (h : Accounted s) (inv : Inv s) : Poppable s := by
  intro t hidle
  obtain ⟨pops, u, hpops, hrun, hsent, hempty⟩ := pop_all inv hidle
  refine ⟨pops, u, hpops, hrun, ?_⟩
  have hharmless : Every step Harmless s pops := by
    refine every_of_invariant (P := fun _ => True) (A := fun a => a.call.IsPop) trivial
      (fun _ _ _ _ _ _ => trivial) ?_ (fun a ha => (hpops a ha).2) hrun
    intro v ⟨t', call⟩ w _ hpop _
    cases call <;> trivial
  intro priority
  have hall := accounted_of_every inv h hharmless hrun priority
  have hnone : u.queued priority = [] := by
    unfold State.pending at hempty
    cases priority
    · exact List.length_eq_zero_iff.mp (by omega)
    · exact List.length_eq_zero_iff.mp (by omega)
  rw [hnone, List.append_nil] at hall
  rw [← hall, State.sentOn, hsent, State.sentOn]

/-! ## The messages of every run -/

/-- All steps of a run are harmless exactly if in each of its states every message sent
with success has been popped once or waits in the queues of the map, in the order of its
sender, and can be popped, and messages of low priority were popped only by calls that
had found the other queue empty. -/
theorem kept_iff_harmless (run : exec step start actions = some s) :
    ((∀ before after u, actions = before ++ after → exec step start before = some u →
        Kept u ∧ Poppable u) ∧ HighFirst actions) ↔ Every step Harmless start actions := by
  constructor
  · intro ⟨hgood, _⟩
    refine every_of_always_good ?_ ?_ inv_start run fun before after u heq hbefore =>
      (hgood before after u heq hbefore).1
    · intro v a u inv hv hstep hu
      exact harmless_of_counted inv hv.counted hstep hu.counted
    · intro v a u inv hstep
      exact inv.step hstep
  · intro harmless
    refine ⟨?_, highFirst actions⟩
    intro before after u heq hbefore
    rw [heq] at harmless
    have haccounted := accounted_of_every inv_start (fun _ => rfl) harmless.prefix_of_append hbefore
    exact ⟨haccounted.kept, poppable_of_accounted haccounted (inv_of_run hbefore)⟩

/-- Two threads insert at the same time, and a header that was sent in between is gone. -/
theorem replaced_channel_loses : ∃ s : State Nat Nat,
    exec step start [⟨0, .alreadyInMap⟩, ⟨1, .alreadyInMap⟩, ⟨0, .lookAgain⟩, ⟨1, .lookAgain⟩,
      ⟨0, .insert⟩, ⟨0, .sendToHighPriorityQueue 200⟩, ⟨0, .sendHigh⟩, ⟨1, .insert⟩] = some s ∧
    s.sentOn .high = [⟨0, 200⟩] ∧ s.poppedFrom .high = [] ∧ s.queued .high = [] ∧ ¬ Kept s := by
  refine ⟨_, rfl, rfl, rfl, rfl, ?_⟩
  intro hkept
  exact absurd (hkept.counted .high) (by decide)

/-- Two threads insert, one of them sends a body and the other a header, a third pops. -/
def exchange : List (Action Nat Nat) :=
  [⟨0, .alreadyInMap⟩, ⟨1, .alreadyInMap⟩, ⟨0, .lookAgain⟩, ⟨0, .insert⟩, ⟨1, .lookAgain⟩,
    ⟨1, .getLowPrioritySender⟩, ⟨1, .sendLow 0 7⟩, ⟨2, .tryPop⟩, ⟨2, .tryRecvHigh⟩,
    ⟨0, .sendToHighPriorityQueue 200⟩, ⟨0, .sendHigh⟩, ⟨2, .tryRecvLow⟩]

theorem kept_iff_harmless_exchange : ∃ s : State Nat Nat, exec step start exchange = some s ∧
    s.poppedFrom .low = [⟨1, 7⟩] ∧ s.queued .high = [⟨0, 200⟩] ∧ Kept s ∧ Poppable s := by
  have harmless : Every step Harmless start exchange := by decide +kernel
  obtain ⟨s, hrun, hpopped, hqueued⟩ : ∃ s : State Nat Nat, exec step start exchange = some s ∧
      s.poppedFrom .low = [⟨1, 7⟩] ∧ s.queued .high = [⟨0, 200⟩] := ⟨_, rfl, rfl, rfl⟩
  have hgood := ((kept_iff_harmless hrun).mpr harmless).1 exchange [] s (by simp) hrun
  exact ⟨s, hrun, hpopped, hqueued, hgood⟩

/-! ## One inserting thread -/

/-- The thread alone decides what stands in the map, so that nothing else is alive. -/
structure Sole (t : τ) (s : State τ μ) : Prop where
  registered : ∀ number, (s.channels number).isSome → s.entry = some number
  absent : s.threads t = .absentAgain → s.entry = none

omit [DecidableEq τ] in
theorem sole_start (t : τ) : Sole t (start : State τ μ) := by
  constructor
  · intro number halive
    cases halive
  · intro _
    rfl

theorem Sole.of_entry {t : τ} {u : State τ μ} {a : Action τ μ} (h : Sole t s)
    (hstep : step s a = some u) (hentry : u.entry = s.entry)
    (hchannels : ∀ number, (u.channels number).isSome → (s.channels number).isSome) :
    Sole t u := by
  constructor
  · intro number halive
    rw [hentry]
    exact h.registered number (hchannels number halive)
  · intro hu
    rw [hentry]
    rcases step_absentAgain hstep hu with habsent | hfree
    · exact h.absent habsent
    · exact hfree

theorem Sole.step {t : τ} {u : State τ μ} {a : Action τ μ} (h : Sole t s)
    (only : a.call = .insert → a.thread = t) (hstep : step s a = some u) : Sole t u := by
  have hkeeps := h.of_entry hstep
  obtain ⟨t', call⟩ := a
  cases step_cases hstep with
  | inserts habsent =>
    cases only rfl
    constructor
    · intro number halive
      by_cases hnew : number = s.next
      · exact congrArg some hnew.symm
      · have hold : s.channels number = none := by
          cases hchannel : s.channels number with
          | none => rfl
          | some channel =>
            have hentry := h.registered number (by simp [hchannel])
            rw [h.absent habsent] at hentry
            cases hentry
        simp [State.register, State.become, PMap.insert_of_ne _ _ hnew, hold] at halive
    · intro hu
      have hidle : (s.register.become t' .idle).threads t' = .idle := Function.update_self _ _ _
      cases hidle.symm.trans hu
  | replaces habsent _ htaken =>
    cases only rfl
    rw [h.absent habsent] at htaken
    cases htaken
  | @drops old =>
    refine hkeeps rfl ?_
    intro number halive
    by_cases hold : number = old
    · subst hold
      simp [State.become] at halive
    · simpa [State.become, PMap.erase_of_ne _ hold] using halive
  | @sendsLow number msg =>
    have same := sameChannels_put s number .low ⟨t', msg⟩
    exact hkeeps same.entry fun number halive => same.channels number ▸ halive
  | @sendsHigh number msg =>
    have same := sameChannels_put s number .high ⟨t', msg⟩
    exact hkeeps same.entry fun number halive => same.channels number ▸ halive
  | popsHigh _ hreceived =>
    have same := sameChannels_take hreceived
    exact hkeeps same.entry fun number halive => same.channels number ▸ halive
  | popsLow _ hreceived =>
    have same := sameChannels_take hreceived
    exact hkeeps same.entry fun number halive => same.channels number ▸ halive
  | _ => exact hkeeps rfl fun _ halive => halive

/-- With one thread that inserts, whatever the others do, every step is harmless. -/
theorem harmless_of_one_inserter {t : τ} (only : ∀ a ∈ actions, a.call = .insert → a.thread = t)
    (run : exec step start actions = some s) :
    Every step Harmless start actions := by
  refine every_of_invariant (P := fun v => Sole t v)
    (A := fun a => a.call = .insert → a.thread = t) (sole_start t)
    (fun _ _ _ h honly hstep => h.step honly hstep) ?_ only run
  intro v ⟨t', call⟩ u h honly hstep
  cases call with
  | insert =>
    cases honly rfl
    have hfree : v.entry = none := by
      cases step_cases hstep with
      | returns _ _ hother => exact absurd rfl hother
      | inserts _ _ hfree => exact hfree
      | replaces habsent => exact h.absent habsent
    show v.queued .low = [] ∧ v.queued .high = []
    simp [State.queued, hfree]
  | sendLow number msg => exact h.registered number
  | _ => trivial

end Runs
end FacesHttp3.Registration
