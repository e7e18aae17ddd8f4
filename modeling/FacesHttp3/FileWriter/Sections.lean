import FacesHttp3.FileWriter.Outcome

/-! # Critical sections of a writer

An operation holds the lock once, `finish_received` twice. What a section may do
to the pending callback is said once, for every operation: a complete file takes
it, an open one leaves it, an error drops it. -/

namespace FacesHttp3.FileWriter
open FacesHttp3.Lib FacesHttp3.Lib.EHoare FacesHttp3.Request

variable {K : Type}

/-- The operations that hold the lock once. -/
inductive Section (K : Type)
  | writeOnDisk (data : Bytes) (io : Io)
  | transfertBytesFromTempFile (bytes : Bytes) (io : Io)
  | setFileLength (fileLength : Nat) (io : Io)
  | flush (io : Io)
  | registerFinishingCallback (callback : K) (io : Io)

def Section.body : Section K → Locked K Bool
  | .writeOnDisk data io => Locked.writeOnDisk data io
  | .transfertBytesFromTempFile bytes io => Locked.transfertBytesFromTempFile bytes io
  | .setFileLength fileLength io => Locked.setFileLength fileLength io
  | .flush io => Locked.flushAndComplete io
  | .registerFinishingCallback callback io => Locked.registerFinishingCallback callback io

def Section.registered : Section K → Option K
  | .registerFinishingCallback callback _ => some callback
  | _ => none

/-- The callback a section finds pending, its own registration included. -/
def Section.pendingIn (body : Section K) (handle : FileWriterHandle K) : Option K :=
  body.registered.or handle.finishingCallback

/-- The section with its `completion_callback`, up to the release of the lock. -/
def underLock (body : Locked K Bool) (handle : FileWriterHandle K) : Return K :=
  match body handle with
  | .ok true handle =>
    ⟨.ok true, handle.finishingCallback, { handle with finishingCallback := none }⟩
  | .ok false handle => ⟨.ok false, none, handle⟩
  | .error e handle => ⟨.error e, none, { handle with finishingCallback := none }⟩

/-- `settle`'s removal from the pending files. -/
def FileWriterHandle.yieldUnless (handle : FileWriterHandle K) (result : Except IoError Bool) :
    FileWriterHandle K :=
  match result with
  | .ok false => handle
  | _ => { handle with pending := false }

@[simp] theorem yieldUnless_inner (handle : FileWriterHandle K) (result : Except IoError Bool) :
    (handle.yieldUnless result).inner = handle.inner := by
  cases result with
  | error e => rfl
  | ok done => cases done <;> rfl

@[simp] theorem yieldUnless_finishingCallback (handle : FileWriterHandle K)
    (result : Except IoError Bool) :
    (handle.yieldUnless result).finishingCallback = handle.finishingCallback := by
  cases result with
  | error e => rfl
  | ok done => cases done <;> rfl

@[simp] theorem yieldUnless_fileLength (handle : FileWriterHandle K)
    (result : Except IoError Bool) :
    (handle.yieldUnless result).fileLength = handle.fileLength := by
  cases result with
  | error e => rfl
  | ok done => cases done <;> rfl

@[simp] theorem yieldUnless_written (handle : FileWriterHandle K) (result : Except IoError Bool) :
    (handle.yieldUnless result).written = handle.written := by
  cases result with
  | error e => rfl
  | ok done => cases done <;> rfl

/-! ## What the sections do not touch -/

/-- The pending callback and the entry in the map of pending files. -/
abbrev KeepsRegistration {α : Type} (m : Locked K α) : Prop :=
  Frame (fun handle => (handle.finishingCallback, handle.pending)) m

theorem error_keepsRegistration : KeepsRegistration (K := K) Locked.error := by
  refine Frame.get_bind fun handle => ?_
  cases handle.inner.failure with
  | none => exact Frame.pure ()
  | some failure => exact Frame.throw failure

theorem fail_keepsRegistration {α : Type} (e : IoError) :
    KeepsRegistration (K := K) (Locked.fail e : Locked K α) :=
  Frame.bind (Frame.modify fun _ => rfl) fun _ => Frame.get_bind fun _ => Frame.throw _

theorem flush_keepsRegistration (outcome : Transfer) :
    KeepsRegistration (K := K) (Locked.flush outcome) := by
  refine Frame.bind error_keepsRegistration fun _ => Frame.get_bind fun handle => ?_
  cases handle.inner.writer with
  | none => exact fail_keepsRegistration _
  | some writer =>
    cases outcome.error with
    | none => exact Frame.modify fun _ => rfl
    | some e => exact Frame.bind (Frame.modify fun _ => rfl) fun _ => fail_keepsRegistration e

theorem completeIfReady_keepsRegistration (outcome : Transfer) :
    KeepsRegistration (K := K) (Locked.completeIfReady outcome) := by
  refine Frame.bind error_keepsRegistration fun _ => Frame.get_bind fun handle => ?_
  refine Frame.ite (Frame.pure true) (Frame.ite (Frame.pure false) (Frame.ite (Frame.pure false)
    (Frame.ite (fail_keepsRegistration _) ?_)))
  exact Frame.bind (flush_keepsRegistration outcome) fun _ =>
    Frame.bind (Frame.modify fun _ => rfl) fun _ => Frame.pure true

theorem recordUnlessClosed_keepsRegistration {body : Locked K Bool} (h : KeepsRegistration body) :
    KeepsRegistration (Locked.recordUnlessClosed body) :=
  Frame.tryCatch h fun e => Frame.get_bind fun _ => Frame.ite (Frame.throw e) (fail_keepsRegistration e)

theorem throwIf_keepsRegistration (outcome : Option IoError) :
    KeepsRegistration (K := K) (Locked.throwIf outcome) := by
  cases outcome with
  | none => exact Frame.pure ()
  | some e => exact Frame.throw e

theorem writeOnDisk_keepsRegistration (data : Bytes) (io : Io) :
    KeepsRegistration (K := K) (Locked.writeOnDisk data io) := by
  refine recordUnlessClosed_keepsRegistration ?_
  refine Frame.bind error_keepsRegistration fun _ => Frame.get_bind fun handle => ?_
  refine Frame.ite (Frame.throw _) (Frame.ite (Frame.throw _) (Frame.ite (Frame.throw _) ?_))
  have hwrite : KeepsRegistration (K := K) (Locked.writeAll data io.writeAll) := by
    refine Frame.get_bind fun s => ?_
    cases s.inner.writer with
    | none => exact Frame.throw _
    | some writer =>
      refine Frame.bind (Frame.modify fun _ => rfl) fun _ => ?_
      cases io.writeAll.error with
      | none => exact Frame.pure ()
      | some e => exact Frame.throw e
  exact Frame.bind hwrite fun _ => Frame.bind (Frame.modify fun _ => rfl) fun _ =>
    completeIfReady_keepsRegistration _

theorem rewrite_keepsRegistration (content : Bytes) (io : Io) :
    KeepsRegistration (K := K) (Locked.rewrite content io) := by
  refine Frame.bind (throwIf_keepsRegistration _) fun _ => Frame.bind (Frame.modify fun _ => rfl)
    fun _ => Frame.bind (throwIf_keepsRegistration _) fun _ => ?_
  cases io.rewriteFlush.error with
  | none => exact Frame.modify fun _ => rfl
  | some e => exact Frame.bind (Frame.modify fun _ => rfl) fun _ => Frame.throw e

theorem transfertBytesFromTempFile_keepsRegistration (bytes : Bytes) (io : Io) :
    KeepsRegistration (K := K) (Locked.transfertBytesFromTempFile bytes io) := by
  refine recordUnlessClosed_keepsRegistration ?_
  refine Frame.bind error_keepsRegistration fun _ => Frame.get_bind fun handle => ?_
  refine Frame.ite (completeIfReady_keepsRegistration _) (Frame.ite (Frame.throw _) ?_)
  have hread : KeepsRegistration (K := K) (Locked.readBack bytes io) :=
    Frame.bind (throwIf_keepsRegistration _) fun _ => Frame.bind (throwIf_keepsRegistration _) fun _ =>
      Frame.get_bind fun _ => Frame.pure _
  refine Frame.bind (flush_keepsRegistration _) fun _ => Frame.bind hread fun content => ?_
  refine Frame.ite (Frame.throw _) ?_
  exact Frame.bind (rewrite_keepsRegistration content io) fun _ =>
    Frame.bind (Frame.modify fun _ => rfl) fun _ => completeIfReady_keepsRegistration _

theorem setFileLength_keepsRegistration (fileLength : Nat) (io : Io) :
    KeepsRegistration (K := K) (Locked.setFileLength fileLength io) := by
  refine Frame.bind (Frame.modify fun handle => ?_) fun _ => completeIfReady_keepsRegistration _
  split
  · rfl
  · rfl

/-! ## Errors are recorded, or the file was complete -/

/-- An error of the section leaves a failure behind. -/
abbrev Records {α : Type} (m : Locked K α) : Prop :=
  Triple (fun _ => True) m (fun _ _ => True) fun _ s => s.inner.failure ≠ none

theorem error_records : Records (K := K) Locked.error :=
  error_spec.conseq (fun _ => id) (fun _ _ _ => trivial) fun _ _ h => h.2

theorem fail_records {α : Type} {P : FileWriterHandle K → Prop} {Q : α → FileWriterHandle K → Prop}
    (e : IoError) : Triple P (Locked.fail e) Q fun _ s => s.inner.failure ≠ none :=
  fail_spec e fun _ _ _ => recordFailure_failure e

theorem flush_records (outcome : Transfer) : Records (K := K) (Locked.flush outcome) := by
  refine Triple.bind error_records fun _ => Triple.get_bind fun handle _ => ?_
  cases handle.inner.writer with
  | none => exact fail_records _
  | some writer =>
    cases outcome.error with
    | none => exact Triple.modify _ fun _ _ => trivial
    | some e =>
      exact Triple.bind (Q := fun _ _ => True) (Triple.modify _ fun _ _ => trivial) fun _ =>
        fail_records e

theorem completeIfReady_records (outcome : Transfer) :
    Records (K := K) (Locked.completeIfReady outcome) := by
  refine Triple.bind error_records fun _ => Triple.get_bind fun handle _ => ?_
  refine Triple.ite (fun _ => Triple.pure _ fun _ _ => trivial) fun _ => ?_
  refine Triple.ite (fun _ => Triple.pure _ fun _ _ => trivial) fun _ => ?_
  refine Triple.ite (fun _ => Triple.pure _ fun _ _ => trivial) fun _ => ?_
  refine Triple.ite (fun _ => fail_records _) fun _ => ?_
  refine Triple.bind ((flush_records outcome).conseq (fun _ _ => trivial) (fun _ _ => id)
    fun _ _ => id) fun _ => ?_
  exact Triple.bind (Q := fun _ _ => True) (Triple.modify _ fun _ _ => trivial) fun _ =>
    Triple.pure true fun _ _ => trivial

/-- The two writing operations record an error unless the file is complete. -/
theorem recordUnlessClosed_records (body : Locked K Bool) :
    Triple (fun _ => True) (Locked.recordUnlessClosed body) (fun _ _ => True)
      fun _ s => s.inner.canClose = true ∨ s.inner.failure ≠ none := by
  have hbody : Triple (fun _ => True) body (fun _ _ => True) fun _ _ => True := by
    intro s _
    cases body s <;> trivial
  refine Triple.tryCatch hbody fun e => Triple.get_bind fun s _ => ?_
  refine Triple.ite (fun hclosed => Triple.throw e ?_) fun _ => ?_
  · rintro t rfl
    exact .inl hclosed
  · exact (fail_records e).conseq (fun _ _ => trivial) (fun _ _ => id) fun _ _ => .inr

/-! ## What a section returns -/

section Sections
variable {content : Bytes} {handle : FileWriterHandle K}

/-- The content a section leaves behind when it succeeds. -/
def Section.after (body : Section K) (content : Bytes) : Bytes :=
  match body with
  | .writeOnDisk data _ => content ++ data
  | .transfertBytesFromTempFile bytes _ => bytes ++ content
  | _ => content

theorem Section.body_spec (body : Section K) {wasClosed : Bool} :
    Triple (Entered wasClosed content) body.body (Ended (body.after content))
      fun _ s => Entered wasClosed content s := by
  cases body with
  | writeOnDisk data io => exact writeOnDisk_spec data io
  | transfertBytesFromTempFile bytes io => exact transfertBytesFromTempFile_spec bytes io
  | setFileLength fileLength io => exact setFileLength_spec fileLength io
  | flush io => exact flushAndComplete_spec io
  | registerFinishingCallback callback io => exact registerFinishingCallback_spec callback io

theorem Section.body_refuses (body : Section K) (failure : IoError) (written : Nat) :
    Refuses failure written body.body := by
  cases body with
  | writeOnDisk data io => exact writeOnDisk_refuses data io
  | transfertBytesFromTempFile bytes io => exact transfertBytesFromTempFile_refuses bytes io
  | setFileLength fileLength io => exact setFileLength_refuses fileLength io
  | flush io => exact flushAndComplete_refuses io
  | registerFinishingCallback callback io => exact registerFinishingCallback_refuses callback io

/-- Only a rejected write on a complete file leaves no failure behind its error. -/
theorem Section.body_records (body : Section K) :
    Triple (fun _ => True) body.body (fun _ _ => True) fun _ s =>
      s.inner.failure ≠ none ∨ (s.inner.canClose = true ∧ body.registered = none) := by
  have hcomplete : ∀ (outcome : Transfer) (f : FileWriterHandle K → FileWriterHandle K),
      Records (do modify f; Locked.completeIfReady outcome) := fun outcome f =>
    Triple.bind (Q := fun _ _ => True) (Triple.modify _ fun _ _ => trivial) fun _ =>
      completeIfReady_records outcome
  have hrecords : ∀ {m : Locked K Bool} {P : Prop}, Records m →
      Triple (fun _ => True) m (fun _ _ => True) fun _ s =>
        s.inner.failure ≠ none ∨ (s.inner.canClose = true ∧ P) :=
    fun h => h.conseq (fun _ => id) (fun _ _ => id) fun _ _ => .inl
  have hwrites : ∀ m : Locked K Bool,
      Triple (fun _ => True) (Locked.recordUnlessClosed m) (fun _ _ => True) fun _ s =>
        s.inner.failure ≠ none ∨ (s.inner.canClose = true ∧ (none : Option K) = none) :=
    fun m => (recordUnlessClosed_records m).conseq (fun _ => id) (fun _ _ => id) fun _ _ h =>
      h.symm.imp id fun hc => ⟨hc, rfl⟩
  cases body with
  | writeOnDisk data io => exact hwrites _
  | transfertBytesFromTempFile bytes io => exact hwrites _
  | setFileLength fileLength io => exact hrecords (hcomplete _ _)
  | flush io => exact hrecords (Triple.bind (flush_records _) fun _ => completeIfReady_records _)
  | registerFinishingCallback callback io => exact hrecords (hcomplete _ _)

/-- Behind a section its own registration, or the callback found, is pending; the
map of pending files is reached outside the lock only. -/
theorem Section.body_registration (body : Section K) {handle : FileWriterHandle K} :
    (∀ result t, body.body handle = .ok result t →
        t.finishingCallback = body.pendingIn handle ∧ t.pending = handle.pending) ∧
      ∀ e t, body.body handle = .error e t →
        t.finishingCallback = body.pendingIn handle ∧ t.pending = handle.pending := by
  have hkeeps : ∀ {m : Locked K Bool} (s : FileWriterHandle K), KeepsRegistration m →
      (∀ result t, m s = .ok result t →
          t.finishingCallback = s.finishingCallback ∧ t.pending = s.pending) ∧
        ∀ e t, m s = .error e t → t.finishingCallback = s.finishingCallback ∧ t.pending = s.pending :=
    fun s h => ⟨fun _ _ hm => Prod.mk.inj (h.ok hm), fun _ _ hm => Prod.mk.inj (h.error hm)⟩
  cases body with
  | writeOnDisk data io => exact hkeeps handle (writeOnDisk_keepsRegistration data io)
  | transfertBytesFromTempFile bytes io =>
    exact hkeeps handle (transfertBytesFromTempFile_keepsRegistration bytes io)
  | setFileLength fileLength io =>
    exact hkeeps handle (setFileLength_keepsRegistration fileLength io)
  | flush io =>
    exact hkeeps handle (Frame.bind (flush_keepsRegistration io.flush) fun _ =>
      completeIfReady_keepsRegistration io.completionFlush)
  | registerFinishingCallback callback io =>
    exact hkeeps { handle with finishingCallback := some callback }
      (completeIfReady_keepsRegistration io.completionFlush)

/-- The three ways a section ends: the file is complete and the pending callback
taken; it is open and the callback waits; or an error dropped the callback. -/
inductive SectionReturn (body : Section K) (handle : FileWriterHandle K) (ret : Return K) : Prop
  | completed (live : handle.inner.failure = none) (kept : ret.handle.inner.failure = none)
      (closed : ret.handle.inner.canClose = true) (taken : ret.handle.finishingCallback = none)
      (handedOver : ret.handedOver = body.pendingIn handle)
  | waits (live : handle.inner.failure = none) (kept : ret.handle.inner.failure = none)
      (opened : ret.handle.inner.canClose = false)
      (pending : ret.handle.finishingCallback = body.pendingIn handle)
      (handedOver : ret.handedOver = none)
  | dropped (kept : handle.inner.failure ≠ none → ret.handle.inner.failure ≠ none)
      (recorded : ret.handle.inner.failure ≠ none ∨
        (handle.inner.canClose = true ∧ body.registered = none))
      (taken : ret.handle.finishingCallback = none) (handedOver : ret.handedOver = none)

theorem Section.ok_live (body : Section K) {result : Bool} {t : FileWriterHandle K}
    (hrun : body.body handle = .ok result t) : handle.inner.failure = none := by
  cases hf : handle.inner.failure with
  | none => rfl
  | some failure =>
    have hfailed : FailedWith failure handle.written handle := ⟨hf, rfl⟩
    exact ((body.body_refuses failure handle.written).ok hfailed hrun).elim

theorem Section.error_failed (body : Section K) {e : IoError} {t : FileWriterHandle K}
    (hrun : body.body handle = .error e t) (h : handle.inner.failure ≠ none) :
    t.inner.failure ≠ none := by
  obtain ⟨failure, hf⟩ := Option.ne_none_iff_exists'.mp h
  have hfailed : FailedWith failure handle.written handle := ⟨hf, rfl⟩
  have ht := ((body.body_refuses failure handle.written).error hfailed hrun).2.1
  simp [ht]

theorem Section.underLock_return (body : Section K) (h : Consistent content handle) :
    SectionReturn body handle (underLock body.body handle) := by
  have hentered : Entered handle.inner.canClose content handle := ⟨h, id⟩
  unfold underLock
  cases hrun : body.body handle with
  | ok result t =>
    have hend := body.body_spec.ok hentered hrun
    have hpending := (body.body_registration.1 result t hrun).1
    cases result with
    | true => exact .completed (body.ok_live hrun) hend.2.1 hend.2.2 rfl hpending
    | false => exact .waits (body.ok_live hrun) hend.2.1 hend.2.2 hpending rfl
  | error e t =>
    have hclosed := (body.body_spec.error hentered hrun).2
    have hfailed : handle.inner.failure ≠ none → t.inner.failure ≠ none := body.error_failed hrun
    refine .dropped hfailed ?_ rfl rfl
    rcases body.body_records.error trivial hrun with hf | ⟨hc, hnone⟩
    · exact .inl hf
    · exact .inr ⟨hclosed hc, hnone⟩

theorem Section.underLock_consistent (body : Section K) (h : Consistent content handle) :
    ∃ content', Consistent content' (underLock body.body handle).handle := by
  have hentered : Entered true content handle := ⟨h, fun _ => rfl⟩
  unfold underLock
  cases hrun : body.body handle with
  | ok result t =>
    have hend := body.body_spec.ok hentered hrun
    cases result with
    | true => exact ⟨_, hend.1⟩
    | false => exact ⟨_, hend.1⟩
  | error e t => exact ⟨_, (body.body_spec.error hentered hrun).1⟩

/-- The first section of `finish_received` records a failure or changes nothing. -/
theorem checkReceived_cases (received : Nat) (handle : FileWriterHandle K) :
    (∃ e error, Locked.checkReceived received handle = .error e (handle.recordFailure error)) ∨
      Locked.checkReceived received handle = .ok false handle := by
  by_cases hdiffer : (handle.fileLength.2 && handle.fileLength.1 != received) = true
  · left
    let error : IoError := ⟨.invalidData, "received length differs from declared length"⟩
    refine ⟨handle.inner.failure.getD error, error, ?_⟩
    change (if _ then _ else _ : Locked K Bool) handle = _
    rw [if_pos hdiffer]
    rfl
  · right
    change (if _ then _ else _ : Locked K Bool) handle = _
    rw [if_neg hdiffer]
    rfl

theorem Consistent.recordFailure (h : Consistent content handle) (error : IoError) :
    Consistent content (handle.recordFailure error) := by
  intro hlive
  rcases hlive with hnone | hclosed
  · exact absurd hnone (recordFailure_failure error)
  · exact h (.inr hclosed)

/-! ## The map of pending files -/

/-- The file is complete, or a failure is recorded. -/
def FileWriterHandle.Finished (handle : FileWriterHandle K) : Prop :=
  handle.inner.canClose = true ∨ handle.inner.failure ≠ none

instance (handle : FileWriterHandle K) : Decidable handle.Finished := by
  unfold FileWriterHandle.Finished; infer_instance

/-- A finished file has left the map of pending files. -/
structure Registered (handle : FileWriterHandle K) : Prop where
  consistent : ∃ content, Consistent content handle
  yielded : handle.Finished → handle.pending = false

theorem registered_new (fileLength : Option Nat) :
    Registered (FileWriterHandle.new fileLength : FileWriterHandle K) where
  consistent := ⟨[], Session.run_consistent fileLength []⟩
  yielded h := by simp [FileWriterHandle.Finished, FileWriterHandle.new] at h

/-- What an operation does to the map: a finished file leaves it, and none enters. -/
structure Yields (handle after : FileWriterHandle K) : Prop where
  registered : Registered after
  kept : after.pending = true → handle.pending = true

theorem Section.settle_yields (body : Section K) (h : Registered handle) :
    Yields handle (settle body.body handle).handle := by
  obtain ⟨content, hcons⟩ := h.consistent
  have hentered : Entered true content handle := ⟨hcons, fun _ => rfl⟩
  unfold settle
  cases hrun : body.body handle with
  | error e t =>
    have ht := body.body_spec.error hentered hrun
    exact ⟨⟨⟨content, ht.1⟩, fun _ => rfl⟩, fun hpending => absurd hpending (by simp)⟩
  | ok result t =>
    obtain ⟨ht, hlive, hclosed⟩ := body.body_spec.ok hentered hrun
    cases result with
    | true => exact ⟨⟨⟨_, ht⟩, fun _ => rfl⟩, fun hpending => absurd hpending (by simp)⟩
    | false =>
      refine ⟨⟨⟨_, ht⟩, fun hfinished => ?_⟩, fun hpending => ?_⟩
      · rcases hfinished with hc | hf
        · simp [hclosed] at hc
        · exact absurd hlive hf
      · exact (body.body_registration.1 false t hrun).2.symm.trans hpending

theorem settle_checkReceived_yields (received : Nat) (h : Registered handle) :
    Yields handle (settle (Locked.checkReceived received) handle).handle := by
  obtain ⟨content, hcons⟩ := h.consistent
  rcases checkReceived_cases received handle with ⟨e, error, hrun⟩ | hrun
  · rw [settle, hrun]
    exact ⟨⟨⟨content, hcons.recordFailure error⟩, fun _ => rfl⟩, fun hpending => absurd hpending (by simp)⟩
  · rw [settle, hrun]
    exact ⟨h, id⟩

theorem Call.perform_yields (call : Call K) (h : Registered handle) :
    Yields handle (call.perform handle).handle := by
  cases call with
  | writeOnDisk data io => exact Section.settle_yields (.writeOnDisk data io) h
  | transfertBytesFromTempFile bytes io =>
    exact Section.settle_yields (.transfertBytesFromTempFile bytes io) h
  | setFileLength fileLength io => exact Section.settle_yields (.setFileLength fileLength io) h
  | checkReceived received => exact settle_checkReceived_yields received h
  | finishReceived received io =>
    have hchecked := settle_checkReceived_yields received h
    simp only [Call.perform, FileWriterHandle.finishReceived]
    cases (settle (Locked.checkReceived received) handle).result with
    | error e => exact hchecked
    | ok result =>
      have hset := Section.settle_yields (.setFileLength received io) hchecked.registered
      exact ⟨hset.registered, fun hpending => hchecked.kept (hset.kept hpending)⟩
  | flush io => exact Section.settle_yields (.flush io) h
  | registerFinishingCallback callback io =>
    exact Section.settle_yields (.registerFinishingCallback callback io) h

end Sections

end FacesHttp3.FileWriter
