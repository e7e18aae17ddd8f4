import Mathlib.Data.List.Nodup
import Mathlib.Data.List.Perm.Basic
import FacesHttp3.FileWriter.Sections
import FacesHttp3.Lib.Exec

/-! # Success callbacks

Threads share one writer. An operation takes the pending callback before it lets
go of the lock and hands it over after that: to the finishing queue, or to its
own thread when the queue is closed. Between the two any other operation may
run, and `finish_received` lets go of the lock between its check and the length
it sets, or the callback it drops. -/

namespace FacesHttp3.FileWriter
open FacesHttp3.Lib FacesHttp3.Lib.Exec FacesHttp3.Request

variable {K : Type}

/-- Where an operation stands outside the lock. `received` and `refused` are
`finish_received` behind its first section. -/
inductive Phase (K : Type)
  | settling (result : Except IoError Bool) (callback : Option K)
  | received (received : Nat)
  | refused (failure : IoError)

/-- The callback an operation has taken and not yet handed over. -/
def Phase.callback : Phase K → Option K
  | .settling _ callback => callback
  | _ => none

/-- The writer with the operations in progress and the finishing queue.
`registered`, `handedOver` and `called` are the history of its callbacks. -/
structure Shared (K : Type) where
  handle : FileWriterHandle K
  operations : List (Phase K)
  queue : List K
  registered : List K
  handedOver : List K
  called : List K

/-- A thread enters an operation, or goes on with the `i`-th one in progress; a
finishing worker runs the `i`-th callback of the queue. -/
inductive Action (K : Type)
  | enter (body : Section K)
  | finishReceived (received : Nat)
  | setReceived (i : Nat) (io : Io)
  | takeCallback (i : Nat)
  | settle (i : Nat) (closed : Bool)
  | finishing (i : Nat)

def Shared.new (fileLength : Option Nat) : Shared K where
  handle := FileWriterHandle.new fileLength
  operations := []
  queue := []
  registered := []
  handedOver := []
  called := []

/-- A section is over: its result and the callback it took are still to settle. -/
def Shared.release (s : Shared K) (ret : Return K) : Shared K :=
  { s with
    handle := ret.handle
    operations := .settling ret.result ret.handedOver :: s.operations
    handedOver := s.handedOver ++ ret.handedOver.toList }

/-- The `i`-th operation leaves its place. -/
def Shared.resume (s : Shared K) (i : Nat) : Shared K :=
  { s with operations := s.operations.eraseIdx i }

/-- Run the callback on the caller when the queue does not take it. -/
def Shared.handOver (s : Shared K) (closed : Bool) (callback : K) : Shared K :=
  if closed then { s with called := s.called ++ [callback] }
  else { s with queue := s.queue ++ [callback] }

def Action.registered : Action K → Option K
  | .enter body => body.registered
  | _ => none

/-- The callback a step finds pending, its own registration included. -/
def Action.pendingIn (a : Action K) (handle : FileWriterHandle K) : Option K :=
  a.registered.or handle.finishingCallback

/-- The step registers another callback while `callback` is pending. -/
def Shared.Replaces (s : Shared K) (a : Action K) (callback : K) : Prop :=
  s.handle.finishingCallback = some callback ∧ a.registered ≠ none

/-! ## Callbacks in transit -/

section Transit
variable {s : Shared K}

/-- The callbacks taken and not called yet, and those called. -/
def Shared.inTransit (s : Shared K) : List K :=
  s.operations.filterMap Phase.callback ++ s.queue ++ s.called

section HandOver
variable (closed : Bool) (callback : K)

@[simp] theorem handOver_handle : (s.handOver closed callback).handle = s.handle := by
  cases closed <;> rfl

@[simp] theorem handOver_operations :
    (s.handOver closed callback).operations = s.operations := by
  cases closed <;> rfl

@[simp] theorem handOver_registered :
    (s.handOver closed callback).registered = s.registered := by
  cases closed <;> rfl

@[simp] theorem handOver_handedOver :
    (s.handOver closed callback).handedOver = s.handedOver := by
  cases closed <;> rfl

theorem handOver_inTransit :
    (s.handOver closed callback).inTransit.Perm (callback :: s.inTransit) := by
  cases closed with
  | true => simpa [Shared.handOver, Shared.inTransit] using
      List.perm_append_singleton callback s.inTransit
  | false =>
    have hmiddle : (s.operations.filterMap Phase.callback ++ s.queue ++ callback :: s.called).Perm
        (callback :: (s.operations.filterMap Phase.callback ++ s.queue ++ s.called)) :=
      List.perm_middle
    simpa [Shared.handOver, Shared.inTransit] using hmiddle

end HandOver

/-- The `i`-th operation is one of those in progress, beside the others. -/
theorem operations_perm {i : Nat} {phase : Phase K} (h : s.operations[i]? = some phase) :
    (phase.callback.toList ++ (s.resume i).inTransit).Perm s.inTransit := by
  obtain ⟨hi, rfl⟩ := List.getElem?_eq_some_iff.mp h
  have hperm := (List.getElem_cons_eraseIdx_perm hi).filterMap Phase.callback
  have hcons : (s.operations[i] :: s.operations.eraseIdx i).filterMap Phase.callback =
      s.operations[i].callback.toList ++ (s.operations.eraseIdx i).filterMap Phase.callback := by
    cases hc : s.operations[i].callback <;> simp [hc]
  rw [hcons] at hperm
  have hall := (hperm.append_right s.queue).append_right s.called
  simpa [Shared.resume, Shared.inTransit] using hall

theorem release_inTransit (ret : Return K) :
    (s.release ret).inTransit = ret.handedOver.toList ++ s.inTransit := by
  cases hc : ret.handedOver <;>
    simp [Shared.release, Shared.inTransit, List.filterMap_cons, Phase.callback, hc]

end Transit

/-! ## Invariants -/

section Effects
variable {s t : Shared K} {a : Action K}

/-- What a step does to the callbacks: it is a critical section, or it registers
none and hands none over, and drops a pending one only behind a failure. -/
inductive Effect (s : Shared K) (a : Action K) (t : Shared K) : Prop
  | locked (body : Section K) (ret : Return K) (acts : body.registered = a.registered)
      (fresh : ∀ callback ∈ body.registered, callback ∉ s.registered)
      (returns : SectionReturn body s.handle ret) (handle : t.handle = ret.handle)
      (registered : t.registered = s.registered ++ body.registered.toList)
      (handedOver : t.handedOver = s.handedOver ++ ret.handedOver.toList)
  | outside (acts : a.registered = none) (registered : t.registered = s.registered)
      (handedOver : t.handedOver = s.handedOver)
      (canClose : t.handle.inner.canClose = s.handle.inner.canClose)
      (failure : s.handle.inner.failure ≠ none → t.handle.inner.failure ≠ none)
      (callback : t.handle.finishingCallback = s.handle.finishingCallback ∨
        (t.handle.finishingCallback = none ∧ t.handle.inner.failure ≠ none))

/-- A refused `finish_received` stands behind a recorded failure. -/
def RefusedFailed (s : Shared K) : Prop :=
  ∀ e, .refused e ∈ s.operations → s.handle.inner.failure ≠ none

/-- In every state: each callback handed over is in transit or called, once; a
pending one was not handed over, and waits on an open file, or on a failed one
whose `finish_received` is about to drop it. -/
structure Orderly (s : Shared K) : Prop where
  consistent : ∃ content, Consistent content s.handle
  refused : RefusedFailed s
  inTransit : s.handedOver.Perm s.inTransit
  nodup : s.handedOver.Nodup
  known : ∀ callback ∈ s.handedOver, callback ∈ s.registered
  pending : ∀ callback, s.handle.finishingCallback = some callback →
    callback ∈ s.registered ∧ callback ∉ s.handedOver
  closed : s.handle.inner.canClose = true → s.handle.finishingCallback = none
  failed : s.handle.inner.failure ≠ none → s.handle.finishingCallback ≠ none →
    ∃ e, .refused e ∈ s.operations

theorem orderly_new (fileLength : Option Nat) : Orderly (Shared.new (K := K) fileLength) where
  consistent := ⟨[], Session.run_consistent fileLength []⟩
  refused := by simp [RefusedFailed, Shared.new]
  inTransit := by simp [Shared.new, Shared.inTransit]
  nodup := by simp [Shared.new]
  known := by simp [Shared.new]
  pending := by simp [Shared.new, FileWriterHandle.new]
  closed := by simp [Shared.new, FileWriterHandle.new]
  failed := by simp [Shared.new, FileWriterHandle.new]

theorem yieldUnless_consistent {content : Bytes} {handle : FileWriterHandle K}
    (h : Consistent content handle) (result : Except IoError Bool) :
    Consistent content (handle.yieldUnless result) := by
  intro hlive
  simpa using h (by simpa using hlive)

/-- A failure is never forgotten. -/
theorem Effect.failure (h : Effect s a t) (hf : s.handle.inner.failure ≠ none) :
    t.handle.inner.failure ≠ none := by
  cases h with
  | outside _ _ _ _ hfailure _ => exact hfailure hf
  | locked body ret _ _ hreturns hhandle _ _ =>
    rw [hhandle]
    cases hreturns with
    | completed hlive => exact absurd hlive hf
    | waits hlive => exact absurd hlive hf
    | dropped hkept => exact hkept hf

theorem SectionReturn.dropped_of_failure {body : Section K} {handle : FileWriterHandle K}
    {ret : Return K} (h : SectionReturn body handle ret) (hf : ret.handle.inner.failure ≠ none) :
    ret.handle.finishingCallback = none := by
  cases h with
  | completed _ hnone => exact absurd hnone hf
  | waits _ hnone => exact absurd hnone hf
  | dropped _ _ htaken _ => exact htaken

/-- The callback a step finds pending was not handed over before. -/
theorem Effect.pendingIn (hs : Orderly s) (h : Effect s a t) {callback : K}
    (hpending : a.pendingIn s.handle = some callback) :
    callback ∈ t.registered ∧ callback ∉ s.handedOver := by
  cases h with
  | outside hacts hregistered =>
    rw [hregistered]
    exact hs.pending callback (by simpa [Action.pendingIn, hacts] using hpending)
  | locked body ret hacts hfresh _ _ hregistered _ =>
    rw [hregistered]
    cases hr : body.registered with
    | none => simpa using hs.pending callback (by simpa [Action.pendingIn, ← hacts, hr] using hpending)
    | some own =>
      obtain rfl : own = callback := by simpa [Action.pendingIn, ← hacts, hr] using hpending
      exact ⟨by simp, fun hmem => hfresh own hr (hs.known own hmem)⟩

/-- A step hands over nothing, or on a file without a failure the callback it
finds pending. -/
theorem Effect.handsOver (h : Effect s a t) : t.handedOver = s.handedOver ∨
    ∃ callback, a.pendingIn s.handle = some callback ∧ s.handle.inner.failure = none ∧
      t.handle.finishingCallback = none ∧ t.handedOver = s.handedOver ++ [callback] := by
  cases h with
  | outside _ _ hhanded => exact .inl hhanded
  | locked body ret hacts _ hreturns hhandle _ hhanded =>
    cases hreturns with
    | waits _ _ _ _ hnone => exact .inl (by simpa [hnone] using hhanded)
    | dropped _ _ _ hnone => exact .inl (by simpa [hnone] using hhanded)
    | completed hlive _ _ htaken hover =>
      cases hp : body.pendingIn s.handle with
      | none => exact .inl (by simpa [hover, hp] using hhanded)
      | some callback =>
        refine .inr ⟨callback, ?_, hlive, by rw [hhandle, htaken], by simpa [hover, hp] using hhanded⟩
        rw [Action.pendingIn, ← hacts]
        exact hp

/-- A callback that waits behind a step was pending in it and not handed over. -/
theorem Effect.waits (h : Effect s a t) {callback : K}
    (hc : t.handle.finishingCallback = some callback) :
    a.pendingIn s.handle = some callback ∧ t.handedOver = s.handedOver := by
  cases h with
  | outside hacts _ hhanded _ _ hcallback =>
    refine ⟨?_, hhanded⟩
    rcases hcallback with hsame | ⟨hnone, -⟩
    · simpa [Action.pendingIn, hacts, ← hsame] using hc
    · simp [hnone] at hc
  | locked body ret hacts _ hreturns hhandle _ hhanded =>
    rw [hhandle] at hc
    cases hreturns with
    | completed _ _ _ htaken => simp [htaken] at hc
    | dropped _ _ htaken => simp [htaken] at hc
    | waits _ _ _ hpending hnone =>
      refine ⟨?_, by simpa [hnone] using hhanded⟩
      rw [Action.pendingIn, ← hacts]
      exact hpending.symm.trans hc

theorem Effect.registered (h : Effect s a t) :
    t.registered = s.registered ++ a.registered.toList := by
  cases h with
  | outside hacts hregistered => simpa [hacts] using hregistered
  | locked body ret hacts _ _ _ hregistered => rwa [← hacts]

theorem Effect.fresh (h : Effect s a t) {callback : K} (hr : a.registered = some callback) :
    callback ∉ s.registered := by
  cases h with
  | outside hacts => simp [hacts] at hr
  | locked body ret hacts hfresh => exact hfresh callback (hacts.trans hr)

theorem Effect.closed (hs : Orderly s) (h : Effect s a t)
    (hclosed : t.handle.inner.canClose = true) : t.handle.finishingCallback = none := by
  cases h with
  | outside _ _ _ hsame _ hcallback =>
    rcases hcallback with hc | ⟨hnone, -⟩
    · exact hc.trans (hs.closed (hsame ▸ hclosed))
    · exact hnone
  | locked body ret _ _ hreturns hhandle =>
    rw [hhandle] at hclosed ⊢
    cases hreturns with
    | completed _ _ _ htaken => exact htaken
    | dropped _ _ htaken => exact htaken
    | waits _ _ hopen => simp [hopen] at hclosed

/-- A callback that is not handed over and will not be. -/
structure Lost (s : Shared K) (callback : K) : Prop where
  registered : callback ∈ s.registered
  notHandedOver : callback ∉ s.handedOver
  notPending : s.handle.finishingCallback = some callback → s.handle.inner.failure ≠ none

theorem lost_of_replaces {callback : K} (hs : Orderly s) (heffect : Effect s a t)
    (hreplaces : s.Replaces a callback) : Lost t callback := by
  obtain ⟨hpending, hregisters⟩ := hreplaces
  obtain ⟨own, hown⟩ := Option.ne_none_iff_exists'.mp hregisters
  obtain ⟨hregistered, hnot⟩ := hs.pending callback hpending
  have hother : a.pendingIn s.handle ≠ some callback := by
    have hfresh := heffect.fresh hown
    intro hsame
    obtain rfl : own = callback := by simpa [Action.pendingIn, hown] using hsame
    exact hfresh hregistered
  refine ⟨?_, ?_, fun hc => absurd (heffect.waits hc).1 hother⟩
  · rw [heffect.registered]
    exact List.mem_append_left _ hregistered
  · rcases heffect.handsOver with hsame | ⟨taken, htaken, -, -, happend⟩
    · exact hsame ▸ hnot
    · rw [happend]
      intro hmem
      rcases List.mem_append.mp hmem with hmem | hmem
      · exact hnot hmem
      · obtain rfl := List.mem_singleton.mp hmem
        exact hother htaken

theorem lost_of_failsPending {callback : K} (hs : Orderly s) (heffect : Effect s a t)
    (hpending : a.pendingIn s.handle = some callback)
    (hfailed : t.handle.inner.failure ≠ none) : Lost t callback := by
  obtain ⟨hregistered, hnot⟩ := heffect.pendingIn hs hpending
  refine ⟨hregistered, ?_, fun _ => hfailed⟩
  cases heffect with
  | outside _ _ hhanded => exact hhanded ▸ hnot
  | locked body ret _ _ hreturns hhandle _ hhanded =>
    rw [hhandle] at hfailed
    cases hreturns with
    | completed _ hnone => exact absurd hnone hfailed
    | waits _ hnone => exact absurd hnone hfailed
    | dropped _ _ _ hnone => simpa [hhanded, hnone] using hnot

/-- Without a failure the callback a step finds pending is handed over or waits on. -/
theorem Effect.keepsPending {callback : K} (hs : Orderly s) (heffect : Effect s a t)
    (hpending : a.pendingIn s.handle = some callback) (hlive : t.handle.inner.failure = none) :
    callback ∈ t.handedOver ∨ t.handle.finishingCallback = some callback := by
  cases heffect with
  | outside hacts _ _ _ _ hcallback =>
    right
    rcases hcallback with hsame | ⟨-, hfailed⟩
    · simpa [Action.pendingIn, hacts, hsame] using hpending
    · exact absurd hlive hfailed
  | locked body ret hacts _ hreturns hhandle _ hhanded =>
    have hbody : body.pendingIn s.handle = some callback := by
      rwa [Action.pendingIn, ← hacts] at hpending
    rw [hhandle] at hlive ⊢
    cases hreturns with
    | completed _ _ _ _ hover => exact .inl (by simp [hhanded, hover, hbody])
    | waits _ _ _ hwaits => exact .inr (hwaits.trans hbody)
    | dropped _ hrecorded =>
      rcases hrecorded with hfailed | ⟨hclosed, hnone⟩
      · exact absurd hlive hfailed
      · have hcallback : s.handle.finishingCallback = some callback := by
          simpa [Section.pendingIn, hnone] using hbody
        simp [hs.closed hclosed] at hcallback

/-- A callback registered on a file that has not failed was handed over or waits. -/
def Accounted (s : Shared K) (callback : K) : Prop :=
  callback ∈ s.registered → s.handle.inner.failure = none →
    callback ∈ s.handedOver ∨ s.handle.finishingCallback = some callback

theorem Orderly.called (hs : Orderly t) :
    t.called.Nodup ∧ ∀ callback ∈ t.called, callback ∈ t.handedOver := by
  have hnodup := (hs.inTransit.nodup_iff).mp hs.nodup
  refine ⟨(List.nodup_append.mp hnodup).2.1, fun callback hmem => ?_⟩
  exact hs.inTransit.mem_iff.mpr (List.mem_append_right _ hmem)

end Effects

/-! ## Steps -/

variable [DecidableEq K]

/-- Every registration is of a callback of its own. -/
def step (s : Shared K) : Action K → Option (Shared K)
  | .enter body =>
    guarded (∀ callback ∈ body.registered, callback ∉ s.registered)
      ({ s with registered := s.registered ++ body.registered.toList }.release
        (underLock body.body s.handle))
  | .finishReceived received =>
    match Locked.checkReceived received s.handle with
    | .ok _ handle => some { s with handle, operations := .received received :: s.operations }
    | .error e handle => some { s with handle, operations := .refused e :: s.operations }
  | .setReceived i io =>
    match s.operations[i]? with
    | some (.received received) =>
      some ((s.resume i).release (underLock (Locked.setFileLength received io) s.handle))
    | _ => none
  | .takeCallback i =>
    match s.operations[i]? with
    | some (.refused e) =>
      some ((s.resume i).release ⟨.error e, none, { s.handle with finishingCallback := none }⟩)
    | _ => none
  | .settle i closed =>
    match s.operations[i]? with
    | some (.settling result callback) =>
      let s := { s.resume i with handle := s.handle.yieldUnless result }
      some (callback.elim s (s.handOver closed))
    | _ => none
  | .finishing i =>
    s.queue[i]?.map fun callback =>
      { s with queue := s.queue.eraseIdx i, called := s.called ++ [callback] }

/-- The step records the first failure while `callback` is pending. -/
def Shared.FailsPending (s : Shared K) (a : Action K) (callback : K) : Prop :=
  s.handle.inner.failure = none ∧ a.pendingIn s.handle = some callback ∧
    ∃ t, step s a = some t ∧ t.handle.inner.failure ≠ none

section Steps
variable {s t : Shared K} {a : Action K}

/-- The steps there are, with the state each leads to. -/
inductive StepCases (s : Shared K) : Action K → Shared K → Prop
  | enter (body : Section K) (fresh : ∀ callback ∈ body.registered, callback ∉ s.registered) :
    StepCases s (.enter body)
      ({ s with registered := s.registered ++ body.registered.toList }.release
        (underLock body.body s.handle))
  | agreed (received : Nat) :
    StepCases s (.finishReceived received)
      { s with operations := .received received :: s.operations }
  | refused (received : Nat) (e error : IoError) :
    StepCases s (.finishReceived received)
      { s with handle := s.handle.recordFailure error, operations := .refused e :: s.operations }
  | setReceived (i : Nat) (io : Io) (received : Nat)
    (hi : s.operations[i]? = some (.received received)) :
    StepCases s (.setReceived i io)
      ((s.resume i).release (underLock (Locked.setFileLength received io) s.handle))
  | takeCallback (i : Nat) (e : IoError) (hi : s.operations[i]? = some (.refused e)) :
    StepCases s (.takeCallback i)
      ((s.resume i).release ⟨.error e, none, { s.handle with finishingCallback := none }⟩)
  | settle (i : Nat) (closed : Bool) (result : Except IoError Bool) (callback : Option K)
    (hi : s.operations[i]? = some (.settling result callback)) :
    StepCases s (.settle i closed)
      (callback.elim { s.resume i with handle := s.handle.yieldUnless result }
        ({ s.resume i with handle := s.handle.yieldUnless result }.handOver closed))
  | finishing (i : Nat) (callback : K) (hi : s.queue[i]? = some callback) :
    StepCases s (.finishing i)
      { s with queue := s.queue.eraseIdx i, called := s.called ++ [callback] }

theorem step_cases (h : step s a = some t) : StepCases s a t := by
  cases a with
  | enter body =>
    obtain ⟨hfresh, rfl⟩ := guarded_eq_some_iff.mp h
    exact .enter body hfresh
  | finishReceived received =>
    rcases checkReceived_cases received s.handle with ⟨e, error, hrun⟩ | hrun
    · simp only [step, hrun, Option.some.injEq] at h
      exact h ▸ .refused received e error
    · simp only [step, hrun, Option.some.injEq] at h
      exact h ▸ .agreed received
  | setReceived i io =>
    simp only [step] at h
    split at h
    · rename_i received hi
      cases h
      exact .setReceived i io received hi
    · cases h
  | takeCallback i =>
    simp only [step] at h
    split at h
    · rename_i e hi
      cases h
      exact .takeCallback i e hi
    · cases h
  | settle i closed =>
    simp only [step] at h
    split at h
    · rename_i result callback hi
      cases h
      exact .settle i closed result callback hi
    · cases h
  | finishing i =>
    obtain ⟨k, hk, rfl⟩ := Option.map_eq_some_iff.mp h
    exact .finishing i k hk

/-- A callback taken is in transit until it is called. -/
theorem step_inTransit (h : step s a = some t) :
    ∃ new, t.handedOver = s.handedOver ++ new ∧ t.inTransit.Perm (new ++ s.inTransit) := by
  cases step_cases h with
  | enter body => exact ⟨_, rfl, .of_eq (release_inTransit _)⟩
  | agreed received => exact ⟨[], by simp, .of_eq rfl⟩
  | refused received e error => exact ⟨[], by simp, .of_eq rfl⟩
  | setReceived i io received hi =>
    refine ⟨_, rfl, ?_⟩
    rw [release_inTransit]
    exact (operations_perm hi).append_left _
  | takeCallback i e hi =>
    refine ⟨_, rfl, ?_⟩
    rw [release_inTransit]
    exact operations_perm hi
  | settle i closed result callback hi =>
    refine ⟨[], ?_, ?_⟩
    · cases callback <;> simp [Shared.resume]
    · have hperm := operations_perm hi
      cases callback with
      | none => exact hperm
      | some k => exact (handOver_inTransit closed k).trans hperm
  | finishing i k hk =>
    obtain ⟨hi, rfl⟩ := List.getElem?_eq_some_iff.mp hk
    refine ⟨[], by simp, ?_⟩
    have hqueue : (s.queue.eraseIdx i ++ (s.called ++ [s.queue[i]])).Perm (s.queue ++ s.called) := by
      rw [← List.append_assoc]
      exact (List.perm_append_singleton _ _).trans
        ((List.getElem_cons_eraseIdx_perm hi).append_right s.called)
    simpa [Shared.inTransit, List.append_assoc] using hqueue.append_left _

theorem step_effect {content : Bytes} (hcons : Consistent content s.handle)
    (hrefused : RefusedFailed s) (h : step s a = some t) : Effect s a t := by
  cases step_cases h with
  | enter body hfresh =>
    exact .locked body _ rfl hfresh (body.underLock_return hcons) rfl rfl rfl
  | agreed received => exact .outside rfl rfl rfl rfl id (.inl rfl)
  | refused received e error =>
    exact .outside rfl rfl rfl rfl (fun _ => recordFailure_failure error) (.inl rfl)
  | setReceived i io received hi =>
    let body : Section K := .setFileLength received io
    exact .locked body _ rfl (by simp [body, Section.registered]) (body.underLock_return hcons) rfl
      (by simp [body, Section.registered, Shared.release, Shared.resume]) rfl
  | takeCallback i e hi =>
    have hfailed := hrefused e (List.mem_of_getElem? hi)
    exact .outside rfl rfl (by simp [Shared.release, Shared.resume]) rfl (fun _ => hfailed)
      (.inr ⟨rfl, hfailed⟩)
  | settle i closed result callback hi =>
    cases callback <;> exact .outside rfl (by simp [Shared.resume]) (by simp [Shared.resume])
      (by simp [Shared.resume]) (by simp [Shared.resume]) (.inl (by simp [Shared.resume]))
  | finishing i k hk => exact .outside rfl rfl rfl rfl id (.inl rfl)

theorem step_consistent (hs : ∃ content, Consistent content s.handle) (h : step s a = some t) :
    ∃ content, Consistent content t.handle := by
  obtain ⟨content, hcons⟩ := hs
  cases step_cases h with
  | enter body => exact body.underLock_consistent hcons
  | agreed received => exact ⟨content, hcons⟩
  | refused received e error =>
    exact ⟨content, hcons.recordFailure error⟩
  | setReceived i io received =>
    let body : Section K := .setFileLength received io
    exact body.underLock_consistent hcons
  | takeCallback i e => exact ⟨content, hcons⟩
  | settle i closed result callback =>
    cases callback <;> exact ⟨content, by simpa using yieldUnless_consistent hcons result⟩
  | finishing i callback => exact ⟨content, hcons⟩

theorem step_refused (hs : RefusedFailed s) (heffect : Effect s a t) (h : step s a = some t) :
    RefusedFailed t := by
  intro e he
  cases step_cases h with
  | enter body =>
    have hbefore : .refused e ∈ s.operations := by simpa [Shared.release] using he
    exact heffect.failure (hs e hbefore)
  | agreed received => exact hs e (by simpa using he)
  | refused received e' error => exact recordFailure_failure error
  | setReceived i io received =>
    have hbefore : .refused e ∈ s.operations.eraseIdx i := by
      simpa [Shared.release, Shared.resume] using he
    exact heffect.failure (hs e (List.mem_of_mem_eraseIdx hbefore))
  | takeCallback i e' =>
    have hbefore : .refused e ∈ s.operations.eraseIdx i := by
      simpa [Shared.release, Shared.resume] using he
    exact hs e (List.mem_of_mem_eraseIdx hbefore)
  | settle i closed result callback =>
    have hbefore : .refused e ∈ s.operations.eraseIdx i := by
      cases callback <;> simpa [Shared.resume] using he
    exact heffect.failure (hs e (List.mem_of_mem_eraseIdx hbefore))
  | finishing i callback => exact hs e he

/-- Behind a failure a callback waits only for the `finish_received` that drops it. -/
theorem step_failed (hs : Orderly s) (h : step s a = some t)
    (hf : t.handle.inner.failure ≠ none) (hc : t.handle.finishingCallback ≠ none) :
    ∃ e, .refused e ∈ t.operations := by
  obtain ⟨content, hcons⟩ := hs.consistent
  cases step_cases h with
  | enter body => exact absurd ((body.underLock_return hcons).dropped_of_failure hf) hc
  | agreed received =>
    obtain ⟨e, he⟩ := hs.failed hf hc
    exact ⟨e, List.mem_cons_of_mem _ he⟩
  | refused received e error => exact ⟨e, List.mem_cons_self⟩
  | setReceived i io received =>
    let body : Section K := .setFileLength received io
    exact absurd ((body.underLock_return hcons).dropped_of_failure hf) hc
  | takeCallback i e => exact absurd rfl hc
  | settle i closed result callback hi =>
    have hsame : s.handle.inner.failure ≠ none ∧ s.handle.finishingCallback ≠ none := by
      cases callback <;> exact ⟨by simpa [Shared.resume] using hf, by simpa [Shared.resume] using hc⟩
    obtain ⟨e, he⟩ := hs.failed hsame.1 hsame.2
    refine ⟨e, ?_⟩
    have hrest : .refused e ∈ s.operations.eraseIdx i := by
      obtain ⟨hlt, hget⟩ := List.getElem?_eq_some_iff.mp hi
      have hmem := (List.getElem_cons_eraseIdx_perm hlt).mem_iff.mpr he
      rw [hget] at hmem
      simpa using hmem
    cases callback <;> simpa [Shared.resume] using hrest
  | finishing i callback => exact hs.failed hf hc

theorem step_orderly (hs : Orderly s) (h : step s a = some t) : Orderly t := by
  obtain ⟨content, hcons⟩ := hs.consistent
  have heffect := step_effect hcons hs.refused h
  obtain ⟨new, hnew, htransit⟩ := step_inTransit h
  have hmono : ∀ callback ∈ s.registered, callback ∈ t.registered := fun callback hmem => by
    rw [heffect.registered]
    exact List.mem_append_left _ hmem
  have hover : t.handedOver.Nodup ∧ ∀ callback ∈ t.handedOver, callback ∈ t.registered := by
    rcases heffect.handsOver with hsame | ⟨callback, hpending, -, -, happend⟩
    · rw [hsame]
      exact ⟨hs.nodup, fun k hk => hmono k (hs.known k hk)⟩
    · obtain ⟨hregistered, hfresh⟩ := heffect.pendingIn hs hpending
      rw [happend]
      refine ⟨List.nodup_append.mpr ⟨hs.nodup, by simp, ?_⟩, ?_⟩
      · intro k hk k' hk' heq
        obtain rfl := List.mem_singleton.mp hk'
        exact hfresh (heq ▸ hk)
      · intro k hk
        rcases List.mem_append.mp hk with hk | hk
        · exact hmono k (hs.known k hk)
        · exact List.mem_singleton.mp hk ▸ hregistered
  refine ⟨step_consistent hs.consistent h, step_refused hs.refused heffect h, ?_, hover.1, hover.2,
    ?_, heffect.closed hs, step_failed hs h⟩
  · rw [hnew]
    exact List.perm_append_comm.trans ((hs.inTransit.append_left new).trans htransit.symm)
  · intro callback hc
    obtain ⟨hpending, hsame⟩ := heffect.waits hc
    rw [hsame]
    exact heffect.pendingIn hs hpending

theorem step_lost {callback : K} (hlost : Lost s callback) (hs : Orderly s)
    (h : step s a = some t) : Lost t callback := by
  obtain ⟨content, hcons⟩ := hs.consistent
  have heffect := step_effect hcons hs.refused h
  have hnew : ∀ own ∈ a.registered, own ≠ callback := by
    rintro own hr rfl
    exact heffect.fresh hr hlost.registered
  have hfound : a.pendingIn s.handle = some callback → s.handle.inner.failure ≠ none := by
    intro hp
    cases hr : a.registered with
    | none => exact hlost.notPending (by simpa [Action.pendingIn, hr] using hp)
    | some own => exact absurd (by simpa [Action.pendingIn, hr] using hp) (hnew own hr)
  refine ⟨?_, ?_, ?_⟩
  · rw [heffect.registered]
    exact List.mem_append_left _ hlost.registered
  · rcases heffect.handsOver with hsame | ⟨taken, hpending, hlive, -, happend⟩
    · exact hsame ▸ hlost.notHandedOver
    · rw [happend]
      intro hmem
      rcases List.mem_append.mp hmem with hmem | hmem
      · exact hlost.notHandedOver hmem
      · obtain rfl := List.mem_singleton.mp hmem
        exact hfound hpending hlive
  · intro hc
    exact heffect.failure (hfound (heffect.waits hc).1)

theorem step_accounted {callback : K} (hacc : Accounted s callback) (hs : Orderly s)
    (hkept : ¬ s.Replaces a callback) (h : step s a = some t) : Accounted t callback := by
  intro hregistered hlive
  obtain ⟨content, hcons⟩ := hs.consistent
  have heffect := step_effect hcons hs.refused h
  have hbefore : s.handle.inner.failure = none := by
    by_contra hfailed
    exact heffect.failure hfailed hlive
  cases hr : a.registered with
  | some own =>
    rw [heffect.registered, hr] at hregistered
    rcases List.mem_append.mp hregistered with hold | hown
    · rcases hacc hold hbefore with hover | hpending
      · rcases heffect.handsOver with hsame | ⟨taken, -, -, -, happend⟩
        · exact .inl (hsame ▸ hover)
        · exact .inl (happend ▸ List.mem_append_left _ hover)
      · exact absurd ⟨hpending, by simp [hr]⟩ hkept
    · obtain rfl : callback = own := by simpa using hown
      exact heffect.keepsPending hs (by simp [Action.pendingIn, hr]) hlive
  | none =>
    rw [heffect.registered, hr] at hregistered
    rcases hacc (by simpa using hregistered) hbefore with hover | hpending
    · rcases heffect.handsOver with hsame | ⟨taken, -, -, -, happend⟩
      · exact .inl (hsame ▸ hover)
      · exact .inl (happend ▸ List.mem_append_left _ hover)
    · exact heffect.keepsPending hs (by simpa [Action.pendingIn, hr] using hpending) hlive

end Steps

/-! ## Runs -/

section Runs
variable {fileLength : Option Nat} {as : List (Action K)} {t : Shared K}

theorem run_orderly (run : exec step (.new fileLength) as = some t) : Orderly t :=
  exec_invariant (orderly_new fileLength) (fun _ _ _ hs => step_orderly hs) run

theorem run_lost {s : Shared K} {callback : K} (hs : Orderly s) (hlost : Lost s callback)
    (run : exec step s as = some t) : Lost t callback := by
  have hboth : Orderly t ∧ Lost t callback :=
    exec_invariant (P := fun u => Orderly u ∧ Lost u callback) ⟨hs, hlost⟩
      (fun _ _ _ h hstep => ⟨step_orderly h.1 hstep, step_lost h.2 h.1 hstep⟩) run
  exact hboth.2

theorem run_accounted {callback : K}
    (hkept : Every step (fun s a => ¬ s.Replaces a callback) (.new fileLength) as)
    (run : exec step (.new fileLength) as = some t) : Accounted t callback := by
  have hboth : Orderly t ∧ Accounted t callback :=
    exec_invariant_of_every (P := fun u => Orderly u ∧ Accounted u callback)
      ⟨orderly_new fileLength, fun hmem => by simp [Shared.new] at hmem⟩
      (fun _ _ _ h hkept hstep => ⟨step_orderly h.1 hstep, step_accounted h.2 h.1 hkept hstep⟩)
      hkept run
  exact hboth.2

theorem run_handedOver {s : Shared K} {callback : K} (hover : callback ∈ s.handedOver)
    (run : exec step s as = some t) : callback ∈ t.handedOver := by
  refine exec_invariant (P := fun u => callback ∈ u.handedOver) hover (fun u a v hu hstep => ?_) run
  obtain ⟨new, hnew, -⟩ := step_inTransit hstep
  exact hnew ▸ List.mem_append_left _ hu

end Runs

/-- What the callbacks of a writer may rely on, in a state a run leads to. -/
structure CallbacksOnce (fileLength : Option Nat) (as : List (Action K)) (t : Shared K) : Prop where
  atMostOnce : t.handedOver.Nodup ∧ t.called.Nodup
  onlyHandedOver : ∀ callback ∈ t.called, callback ∈ t.handedOver
  /-- Replaced while pending, or pending when the failure is recorded. -/
  lost : ∀ before a after u callback, as = before ++ a :: after →
    exec step (.new fileLength) before = some u →
      u.Replaces a callback ∨ u.FailsPending a callback →
        callback ∉ t.handedOver ∧ callback ∉ t.called
  idle : t.operations = [] → t.handle.inner.canClose = true ∨ t.handle.inner.failure ≠ none →
    t.handle.finishingCallback = none
  /-- Registered by the time the file is complete without a failure, and not replaced. -/
  once : ∀ before after u callback, as = before ++ after →
    exec step (.new fileLength) before = some u → u.handle.inner.canClose = true →
      u.handle.inner.failure = none → callback ∈ u.registered →
        Every step (fun s a => ¬ s.Replaces a callback) (.new fileLength) before →
          callback ∈ t.handedOver ∧
            (t.operations = [] → t.queue = [] → t.called.count callback = 1)

/-- Success callbacks run exactly once, whatever the order of the critical
sections, of what follows them outside the lock and of the finishing workers. -/
theorem callbacks_once (fileLength : Option Nat) (as : List (Action K)) (t : Shared K)
    (run : exec step (.new fileLength) as = some t) : CallbacksOnce fileLength as t := by
  have hs := run_orderly run
  refine ⟨⟨hs.nodup, hs.called.1⟩, hs.called.2, ?_, ?_, ?_⟩
  · rintro before a after u callback rfl hu hends
    rw [exec_append, hu, Option.bind_some, exec_cons] at run
    obtain ⟨v, hv, run⟩ := Option.bind_eq_some_iff.mp run
    have hus := run_orderly hu
    obtain ⟨content, hcons⟩ := hus.consistent
    have heffect := step_effect hcons hus.refused hv
    have hlost : Lost v callback := by
      rcases hends with hreplaces | ⟨-, hpending, w, hw, hfailed⟩
      · exact lost_of_replaces hus heffect hreplaces
      · cases hw.symm.trans hv
        exact lost_of_failsPending hus heffect hpending hfailed
    have hnever := (run_lost (step_orderly hus hv) hlost run).notHandedOver
    exact ⟨hnever, fun hcalled => hnever (hs.called.2 callback hcalled)⟩
  · intro hidle hended
    by_contra hpending
    rcases hended with hclosed | hfailed
    · exact hpending (hs.closed hclosed)
    · obtain ⟨e, he⟩ := hs.failed hfailed hpending
      simp [hidle] at he
  · rintro before after u callback rfl hu hclosed hlive hregistered hkept
    rw [exec_append, hu, Option.bind_some] at run
    have hus := run_orderly hu
    have hover : callback ∈ u.handedOver := by
      rcases run_accounted hkept hu hregistered hlive with hover | hpending
      · exact hover
      · simp [hus.closed hclosed] at hpending
    have hlater := run_handedOver hover run
    refine ⟨hlater, fun hidle hempty => ?_⟩
    have hcalled : callback ∈ t.called := by
      have hmem := hs.inTransit.mem_iff.mp hlater
      simpa [Shared.inTransit, hidle, hempty] using hmem
    exact List.count_eq_one_of_mem hs.called.1 hcalled

/-- The first callback is replaced; the write completes the file between the two
sections of `finish_received` and takes the second; the third comes after the
completion and finds the finishing queue closed. -/
def racingRun : List (Action Nat) :=
  [.enter (.registerFinishingCallback 1 {}), .enter (.registerFinishingCallback 2 {}),
    .finishReceived 3, .enter (.writeOnDisk [1, 2, 3] {}),
    .enter (.registerFinishingCallback 3 {}), .settle 0 true, .setReceived 1 {}, .settle 0 false,
    .settle 0 false, .settle 0 false, .settle 0 false, .finishing 0]

theorem callbacks_once_racing : ∃ t, exec step (.new (some 3)) racingRun = some t ∧
    t.operations.isEmpty ∧ t.called = [3, 2] ∧ CallbacksOnce (some 3) racingRun t := by
  have hrun : (exec step (.new (some 3)) racingRun).any
      (fun t => t.operations.isEmpty && t.called == [3, 2]) = true := by decide +kernel
  obtain ⟨t, run, ht⟩ := (Option.any_eq_true _ _).mp hrun
  obtain ⟨hidle, hcalled⟩ := Bool.and_eq_true_iff.mp ht
  exact ⟨t, run, hidle, eq_of_beq hcalled, callbacks_once (some 3) racingRun t run⟩

end FacesHttp3.FileWriter
