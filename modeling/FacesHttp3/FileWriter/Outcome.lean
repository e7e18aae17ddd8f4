import FacesHttp3.FileWriter

/-! # The outcome of a file

A recorded failure is sticky: every section that looks at the file returns it
first. A completed file is not: the two writing operations keep an error that
comes after completion to their caller, while the check of the received size and
`State::flush` record theirs. The outcome of a run is final exactly when no such
error meets a completed file. -/

namespace FacesHttp3.FileWriter
open FacesHttp3.Lib FacesHttp3.Lib.EHoare FacesHttp3.Request

variable {K : Type}

def FileWriterHandle.isFileWritten (handle : FileWriterHandle K) : Except String Bool :=
  match handle.inner.failure with
  | some failure => .error failure.message
  | none =>
    if handle.fileLength.2 then .ok handle.inner.canClose else .error "No file_length set yet"

/-- The operations that tell their caller how they ended. -/
def Call.Reports : Call K → Prop
  | .writeOnDisk _ _ => True
  | .transfertBytesFromTempFile _ _ => True
  | .flush _ => True
  | _ => False

/-- The calls whose error is recorded without a look at `can_close`: a received
size other than the expected one, and a flush the operating system refuses. -/
def Call.Disputes (call : Call K) (handle : FileWriterHandle K) : Prop :=
  match call with
  | .checkReceived received => handle.fileLength.1 ≠ received
  | .finishReceived received _ => handle.fileLength.1 ≠ received
  | .flush io => io.flush.error ≠ none
  | _ => False

instance (call : Call K) (handle : FileWriterHandle K) : Decidable (call.Disputes handle) := by
  cases call <;> unfold Call.Disputes <;> infer_instance

/-! ## After a failure -/

section AfterFailure
variable {failure : IoError} {written : Nat} {handle : FileWriterHandle K}

/-- `failure` was recorded first and `written` bytes counted. -/
def FailedWith (failure : IoError) (written : Nat) (handle : FileWriterHandle K) : Prop :=
  handle.inner.failure = some failure ∧ handle.written = written

/-- A section that returns the recorded failure and nothing else. -/
def Refuses (failure : IoError) (written : Nat) {α : Type} (body : Locked K α) : Prop :=
  Triple (FailedWith failure written) body (fun _ _ => False)
    fun e s => e = failure ∧ FailedWith failure written s

theorem FailedWith.recordFailure (h : FailedWith failure written handle) (e : IoError) :
    FailedWith failure written (handle.recordFailure e) := by
  refine ⟨?_, h.2⟩
  simp [FileWriterHandle.recordFailure, h.1]

theorem error_refuses : Refuses (K := K) failure written Locked.error := by
  refine Triple.get_bind fun s hs => ?_
  rw [hs.1]
  refine Triple.throw failure ?_
  rintro t rfl
  exact ⟨rfl, hs⟩

theorem Refuses.bind {α β : Type} {body : Locked K α} (h : Refuses failure written body)
    (rest : α → Locked K β) : Refuses failure written (body >>= rest) :=
  Triple.bind h fun _ _ hfalse => hfalse.elim

/-- The first failure is kept and returned. -/
theorem fail_refuses {α : Type} (e : IoError) :
    Refuses (K := K) failure written (Locked.fail (α := α) e) := by
  intro s hs
  refine ⟨?_, hs.recordFailure e⟩
  simp [FileWriterHandle.recordFailure, hs.1]

theorem Refuses.recordUnlessClosed {body : Locked K Bool} (h : Refuses failure written body) :
    Refuses failure written (Locked.recordUnlessClosed body) := by
  refine Triple.tryCatch h fun e => Triple.get_bind fun s hs => ?_
  have hfail : Refuses failure written (Locked.fail e : Locked K Bool) := fail_refuses e
  refine Triple.ite (fun _ => Triple.throw e ?_) fun _ => hfail.conseq ?_ (fun _ _ => id) fun _ _ => id
  · rintro t rfl
    exact hs
  · rintro t rfl
    exact hs.2

theorem completeIfReady_refuses (outcome : Transfer) :
    Refuses (K := K) failure written (Locked.completeIfReady outcome) := error_refuses.bind _

theorem modify_completeIfReady_refuses {f : FileWriterHandle K → FileWriterHandle K}
    (hf : ∀ handle, FailedWith failure written handle → FailedWith failure written (f handle))
    (outcome : Transfer) :
    Refuses failure written (do modify f; Locked.completeIfReady outcome) :=
  Triple.bind (Q := fun _ => FailedWith failure written) (Triple.modify f hf) fun _ =>
    completeIfReady_refuses outcome

theorem setFileLength_refuses (fileLength : Nat) (io : Io) :
    Refuses (K := K) failure written (Locked.setFileLength fileLength io) := by
  refine modify_completeIfReady_refuses (fun handle h => ?_) _
  split
  · exact h
  · exact h

/-- What an operation on a failed file does: nothing but report the first failure. -/
structure StaysFailed (failure : IoError) (written : Nat) (ret : Return K) : Prop where
  kept : FailedWith failure written ret.handle
  handedOver : ret.handedOver = none
  result : ret.result = .error failure ∨ ret.result = .ok false

theorem Refuses.settle {body : Locked K Bool} (hbody : Refuses failure written body)
    (h : FailedWith failure written handle) :
    (settle body handle).result = .error failure ∧
      StaysFailed failure written (settle body handle) := by
  unfold FileWriter.settle
  cases hrun : body handle with
  | ok result t => exact (hbody.ok h hrun).elim
  | error e t =>
    obtain ⟨rfl, ht⟩ := hbody.error h hrun
    exact ⟨rfl, ht, rfl, .inl rfl⟩

/-- The check of the received size has nothing to report when the sizes agree. -/
theorem checkReceived_failed (received : Nat) :
    Triple (FailedWith failure written) (Locked.checkReceived (K := K) received)
      (fun result s => result = false ∧ FailedWith failure written s)
      fun e s => e = failure ∧ FailedWith failure written s := by
  refine Triple.get_bind fun s hs => Triple.ite (fun _ => ?_) fun _ => ?_
  · refine (fail_refuses _).conseq ?_ (fun _ _ hfalse => hfalse.elim) fun _ _ => id
    rintro t rfl
    exact hs
  · exact Triple.pure false fun t ht => ⟨rfl, ht ▸ hs⟩

theorem settle_checkReceived_failed (received : Nat) (h : FailedWith failure written handle) :
    StaysFailed failure written (settle (Locked.checkReceived received) handle) := by
  unfold settle
  cases hrun : Locked.checkReceived received handle with
  | ok result t =>
    obtain ⟨rfl, ht⟩ := (checkReceived_failed received).ok h hrun
    exact ⟨ht, rfl, .inr rfl⟩
  | error e t =>
    obtain ⟨rfl, ht⟩ := (checkReceived_failed received).error h hrun
    exact ⟨ht, rfl, .inl rfl⟩

theorem writeOnDisk_refuses (data : Bytes) (io : Io) :
    Refuses (K := K) failure written (Locked.writeOnDisk data io) :=
  (error_refuses.bind _).recordUnlessClosed

theorem transfertBytesFromTempFile_refuses (bytes : Bytes) (io : Io) :
    Refuses (K := K) failure written (Locked.transfertBytesFromTempFile bytes io) :=
  (error_refuses.bind _).recordUnlessClosed

theorem flushAndComplete_refuses (io : Io) :
    Refuses (K := K) failure written (Locked.flushAndComplete io) :=
  (error_refuses.bind _).bind _

theorem registerFinishingCallback_refuses (callback : K) (io : Io) :
    Refuses failure written (Locked.registerFinishingCallback callback io) := by
  refine modify_completeIfReady_refuses (fun handle h => ?_) _
  exact h

theorem Call.perform_failed (call : Call K) (h : FailedWith failure written handle) :
    StaysFailed failure written (call.perform handle) := by
  cases call with
  | writeOnDisk data io => exact ((writeOnDisk_refuses data io).settle h).2
  | transfertBytesFromTempFile bytes io =>
    exact ((transfertBytesFromTempFile_refuses bytes io).settle h).2
  | setFileLength fileLength io => exact ((setFileLength_refuses fileLength io).settle h).2
  | checkReceived received => exact settle_checkReceived_failed received h
  | finishReceived received io =>
    have hchecked := settle_checkReceived_failed received h
    simp only [Call.perform, FileWriterHandle.finishReceived]
    rcases hchecked.result with he | hok
    · rw [he]
      exact hchecked
    · rw [hok]
      exact ((setFileLength_refuses received io).settle hchecked.kept).2
  | flush io => exact ((flushAndComplete_refuses io).settle h).2
  | registerFinishingCallback callback io =>
    exact ((registerFinishingCallback_refuses callback io).settle h).2

theorem Call.Reports.refused {call : Call K} (hreports : call.Reports)
    (h : FailedWith failure written handle) : (call.perform handle).result = .error failure := by
  cases call with
  | writeOnDisk data io => exact ((writeOnDisk_refuses data io).settle h).1
  | transfertBytesFromTempFile bytes io =>
    exact ((transfertBytesFromTempFile_refuses bytes io).settle h).1
  | flush io => exact ((flushAndComplete_refuses io).settle h).1
  | setFileLength fileLength io => exact hreports.elim
  | checkReceived received => exact hreports.elim
  | finishReceived received io => exact hreports.elim
  | registerFinishingCallback callback io => exact hreports.elim

end AfterFailure

/-! ## After completion -/

section AfterCompletion
variable {content : Bytes} {handle : FileWriterHandle K}

/-- A section that leaves a completed file completed, whatever it returns. -/
def LeavesCompleted (content : Bytes) (body : Locked K Bool) : Prop :=
  Triple (Completed · content) body (fun _ => (Completed · content)) fun _ => (Completed · content)

theorem Completed.pushEmpty (h : Completed handle content) (moved : Nat) :
    handle.setWriter (BufFile.push ⟨content, []⟩ [] moved) = handle := by
  have hpush : BufFile.push (⟨content, []⟩ : BufFile UInt8) [] moved = ⟨content, []⟩ := by
    simp [BufFile.push, BufFile.spill]
  rw [hpush, FileWriterHandle.setWriter, ← h.flushed]

theorem error_completed {E : IoError → FileWriterHandle K → Prop} :
    Triple (Completed · content) Locked.error (fun _ => (Completed · content)) E := by
  refine error_spec.conseq (fun _ => id) (fun _ s hs => hs.1) ?_
  intro e s ⟨hs, hne⟩
  exact absurd hs.noFailure hne

theorem completeIfReady_completed (outcome : Transfer) :
    LeavesCompleted (K := K) content (Locked.completeIfReady outcome) := by
  refine Triple.bind error_completed fun _ => Triple.get_bind fun s hs => ?_
  refine Triple.ite (fun _ => Triple.pure true fun t ht => ht ▸ hs) fun hopen => ?_
  exact absurd hs.canClose hopen

theorem recordUnlessClosed_completed {body : Locked K Bool} (h : LeavesCompleted content body) :
    LeavesCompleted content (Locked.recordUnlessClosed body) := by
  refine Triple.tryCatch h fun e => Triple.get_bind fun s hs => ?_
  refine Triple.ite (fun _ => Triple.throw e fun t ht => ht ▸ hs) fun hopen => ?_
  exact absurd hs.canClose hopen

/-- Nothing more is written: an empty write moves an empty buffer. -/
theorem writeOnDisk_completed (data : Bytes) (io : Io) :
    LeavesCompleted (K := K) content (Locked.writeOnDisk data io) := by
  refine recordUnlessClosed_completed ?_
  refine Triple.bind error_completed fun _ => Triple.get_bind fun handle hs => ?_
  have hthrow : ∀ e : IoError, Triple (· = handle) (throw e : Locked K Bool)
      (fun _ => (Completed · content)) fun _ => (Completed · content) :=
    fun e => Triple.throw e fun t ht => ht ▸ hs
  refine Triple.ite (fun _ => hthrow _) fun hguard => ?_
  refine Triple.ite (fun _ => hthrow _) fun _ => Triple.ite (fun _ => hthrow _) fun _ => ?_
  obtain rfl : data = [] := by simpa [hs.canClose] using hguard
  have hwrite : Triple (· = handle) (Locked.writeAll [] io.writeAll) (fun _ => (· = handle))
      fun _ => (Completed · content) := by
    refine Triple.get_bind fun s hseq => ?_
    subst hseq
    rw [hs.flushed]
    refine Triple.bind (Q := fun _ => (· = s)) (Triple.modify _ ?_) fun _ => ?_
    · rintro t rfl
      exact hs.pushEmpty _
    · cases io.writeAll.error with
      | none => exact Triple.pure () fun _ => id
      | some e => exact Triple.throw e fun t ht => ht ▸ hs
  refine Triple.bind hwrite fun _ => ?_
  refine Triple.bind (Q := fun _ => (Completed · content)) (Triple.modify _ ?_) fun _ =>
    completeIfReady_completed _
  rintro t rfl
  exact hs

theorem transfertBytesFromTempFile_completed (bytes : Bytes) (io : Io) :
    LeavesCompleted (K := K) content (Locked.transfertBytesFromTempFile bytes io) := by
  refine recordUnlessClosed_completed ?_
  refine Triple.bind error_completed fun _ => Triple.get_bind fun handle hs => ?_
  refine Triple.ite (fun _ => ?_) fun _ => Triple.ite (fun _ => ?_) fun hopen => ?_
  · refine (completeIfReady_completed _).conseq ?_ (fun _ _ => id) fun _ _ => id
    rintro t rfl
    exact hs
  · exact Triple.throw _ fun t ht => ht ▸ hs
  · exact absurd hs.canClose hopen

theorem modify_completeIfReady_completed {f : FileWriterHandle K → FileWriterHandle K}
    (hf : ∀ handle, Completed handle content → Completed (f handle) content) (outcome : Transfer) :
    LeavesCompleted content (do modify f; Locked.completeIfReady outcome) :=
  Triple.bind (Q := fun _ => (Completed · content)) (Triple.modify f hf) fun _ =>
    completeIfReady_completed outcome

/-- The length is known already. -/
theorem setFileLength_completed (fileLength : Nat) (io : Io) :
    LeavesCompleted (K := K) content (Locked.setFileLength fileLength io) := by
  refine modify_completeIfReady_completed (fun handle h => ?_) _
  have hset : handle.fileLength.2 = true := by rw [h.expected]
  rw [if_pos hset]
  exact h

theorem registerFinishingCallback_completed (callback : K) (io : Io) :
    LeavesCompleted content (Locked.registerFinishingCallback callback io) := by
  refine modify_completeIfReady_completed (fun handle h => ?_) _
  exact ⟨h.noFailure, h.canClose, h.expected, h.length, h.flushed⟩

theorem flush_completed {outcome : Transfer} (hok : outcome.error = none) :
    Triple (Completed · content) (Locked.flush (K := K) outcome) (fun _ => (Completed · content))
      fun _ => (Completed · content) := by
  refine Triple.bind error_completed fun _ => Triple.get_bind fun handle hs => ?_
  rw [hs.flushed, hok]
  refine Triple.modify _ ?_
  rintro t rfl
  exact ⟨hs.1, hs.2, hs.3, hs.4, by simp [FileWriterHandle.setWriter, BufFile.sync]⟩

theorem flushAndComplete_completed {io : Io} (hok : io.flush.error = none) :
    LeavesCompleted (K := K) content (Locked.flushAndComplete io) :=
  Triple.bind (flush_completed hok) fun _ => completeIfReady_completed _

theorem checkReceived_completed (received : Nat) (hagree : content.length = received) :
    LeavesCompleted (K := K) content (Locked.checkReceived received) := by
  refine Triple.get_bind fun handle hs => Triple.ite (fun hdiffer => ?_) fun _ => ?_
  · rw [hs.expected, hs.length] at hdiffer
    simp [hagree] at hdiffer
  · exact Triple.pure false fun t ht => ht ▸ hs

theorem LeavesCompleted.settle {body : Locked K Bool} (hbody : LeavesCompleted content body)
    (h : Completed handle content) : Completed (settle body handle).handle content := by
  unfold FileWriter.settle
  cases hrun : body handle with
  | ok result t =>
    cases result with
    | true => exact (hbody.ok h hrun).settled
    | false => exact hbody.ok h hrun
  | error e t => exact (hbody.error h hrun).settled

/-- The check of the received size records its error over the completion. -/
theorem settle_checkReceived_disputed {received : Nat} (h : Completed handle content)
    (hdiffer : handle.fileLength.1 ≠ received) :
    ∃ failure, (settle (Locked.checkReceived received) handle).result = .error failure ∧
      (settle (Locked.checkReceived received) handle).handle.inner.failure = some failure := by
  have hrun : Locked.checkReceived received handle =
      Locked.fail ⟨.invalidData, "received length differs from declared length"⟩ handle := by
    have hcond : (handle.fileLength.2 && handle.fileLength.1 != received) = true := by
      rw [h.expected] at hdiffer
      simpa [h.expected] using hdiffer
    change (if (handle.fileLength.2 && handle.fileLength.1 != received) = true then _ else _ :
      Locked K Bool) handle = _
    rw [if_pos hcond]
  refine ⟨⟨.invalidData, "received length differs from declared length"⟩, ?_⟩
  rw [settle, hrun]
  constructor
  · change Except.error (handle.inner.failure.getD _) = _
    rw [h.noFailure]
    rfl
  · change some (handle.inner.failure.getD _) = _
    rw [h.noFailure]
    rfl

/-- So does a flush. -/
theorem flush_disputed {io : Io} {e : IoError} (hio : io.flush.error = some e) :
    Triple (Completed · content) (Locked.flushAndComplete (K := K) io) (fun _ _ => False)
      fun _ s => s.inner.failure ≠ none := by
  refine Triple.bind (Q := fun _ _ => False) ?_ fun _ _ hfalse => hfalse.elim
  refine Triple.bind error_completed fun _ => Triple.get_bind fun handle hs => ?_
  rw [hs.flushed, hio]
  refine Triple.bind (Q := fun _ _ => True) (Triple.modify _ fun _ _ => trivial) fun _ => ?_
  exact fail_spec e fun _ _ _ => recordFailure_failure e

/-- A completed file stays completed under every undisputed call. -/
theorem Call.perform_completed {call : Call K} (h : Completed handle content)
    (hagree : ¬ call.Disputes handle) : Completed (call.perform handle).handle content := by
  have hlength : handle.fileLength.1 = content.length := by rw [h.expected, h.length]
  cases call with
  | writeOnDisk data io => exact (writeOnDisk_completed data io).settle h
  | transfertBytesFromTempFile bytes io =>
    exact (transfertBytesFromTempFile_completed bytes io).settle h
  | setFileLength fileLength io => exact (setFileLength_completed fileLength io).settle h
  | checkReceived received =>
    have hreceived : handle.fileLength.1 = received := not_not.mp hagree
    exact (checkReceived_completed received (hlength ▸ hreceived)).settle h
  | finishReceived received io =>
    have hreceived : handle.fileLength.1 = received := not_not.mp hagree
    have hchecked := (checkReceived_completed received (hlength ▸ hreceived)).settle h
    simp only [Call.perform, FileWriterHandle.finishReceived]
    cases (settle (Locked.checkReceived received) handle).result with
    | error e => exact hchecked
    | ok result => exact (setFileLength_completed received io).settle hchecked
  | flush io => exact (flushAndComplete_completed (not_not.mp hagree)).settle h
  | registerFinishingCallback callback io =>
    exact (registerFinishingCallback_completed callback io).settle h

/-- A disputed call records a failure of a completed file. -/
theorem Call.perform_disputed {call : Call K} (h : Completed handle content)
    (hdispute : call.Disputes handle) : (call.perform handle).handle.inner.failure ≠ none := by
  cases call with
  | writeOnDisk data io => exact hdispute.elim
  | transfertBytesFromTempFile bytes io => exact hdispute.elim
  | setFileLength fileLength io => exact hdispute.elim
  | registerFinishingCallback callback io => exact hdispute.elim
  | checkReceived received =>
    obtain ⟨failure, -, hfailure⟩ := settle_checkReceived_disputed h hdispute
    simp [Call.perform, hfailure]
  | finishReceived received io =>
    obtain ⟨failure, hresult, hfailure⟩ := settle_checkReceived_disputed h hdispute
    simp [Call.perform, FileWriterHandle.finishReceived, hresult, hfailure]
  | flush io =>
    obtain ⟨e, hio⟩ := Option.ne_none_iff_exists'.mp hdispute
    simp only [Call.perform, FileWriter.settle]
    cases hrun : Locked.flushAndComplete io handle with
    | ok result t => exact ((flush_disputed hio).ok h hrun).elim
    | error e' t =>
      have hfailed : t.inner.failure ≠ none := (flush_disputed hio).error h hrun
      exact hfailed

theorem Completed.isFileWritten (h : Completed handle content) :
    handle.isFileWritten = .ok true := by
  simp [FileWriterHandle.isFileWritten, h.noFailure, h.expected, h.canClose]

theorem Completed.disk (h : Completed handle content) : handle.disk = content := by
  simp [FileWriterHandle.disk, h.flushed]

theorem completed_of_closed (hcons : Consistent content handle)
    (hf : handle.inner.failure = none) (hc : handle.inner.canClose = true) :
    Completed handle content := by
  have hend : Ended content true handle := ⟨hcons, hf, hc⟩
  have hleaves : Leaves true content true handle := hend.leaves
  exact hleaves

/-- What `is_file_written` tells of a success. -/
theorem completed_of_isFileWritten (hcons : Consistent content handle)
    (h : handle.isFileWritten = .ok true) : Completed handle content := by
  unfold FileWriterHandle.isFileWritten at h
  cases hf : handle.inner.failure with
  | some failure => simp [hf] at h
  | none =>
    have hc : handle.inner.canClose = true := by
      by_cases hset : handle.fileLength.2 = true
      · simpa [hf, hset] using h
      · simp [hf, hset] at h
    exact completed_of_closed hcons hf hc

theorem isFileWritten_of_failure {failure : IoError} (h : handle.inner.failure = some failure) :
    handle.isFileWritten = .error failure.message := by
  simp [FileWriterHandle.isFileWritten, h]

end AfterCompletion

/-! ## Runs of calls -/

theorem Session.run_snoc (fileLength : Option Nat) (calls : List (Call K)) (call : Call K) :
    run fileLength (calls ++ [call]) = (run fileLength calls).call call := by
  simp [run, List.foldl_append]

/-- What a later state of a writer may not take back of an earlier one. -/
structure Keeps (before after : FileWriterHandle K) : Prop where
  failed : ∀ failure, before.inner.failure = some failure →
    after.isFileWritten = .error failure.message ∧ after.written = before.written ∧
      ∀ call : Call K, call.Reports → (call.perform after).result = .error failure
  completed : before.isFileWritten = .ok true →
    after.isFileWritten = .ok true ∧ after.written = before.written ∧ after.disk = before.disk

/-- No state of the run takes back an outcome, and a success and a failure are
not both reported. -/
structure OutcomeFinal (fileLength : Option Nat) (calls : List (Call K)) : Prop where
  keeps : ∀ earlier later, earlier <+: later → later <+: calls →
    Keeps (Session.run fileLength earlier).handle (Session.run fileLength later).handle
  notBoth : ∀ earlier later, earlier <+: calls → later <+: calls →
    (Session.run fileLength earlier).handle.isFileWritten = .ok true →
      (Session.run fileLength later).handle.inner.failure = none

/-- No call of the run disputes a completed file. -/
def Undisputed (fileLength : Option Nat) (calls : List (Call K)) : Prop :=
  ∀ earlier call, earlier ++ [call] <+: calls →
    (Session.run fileLength earlier).handle.inner.canClose = true →
      ¬ call.Disputes (Session.run fileLength earlier).handle

section Runs
variable {fileLength : Option Nat}

theorem run_failed {failure : IoError} {written : Nat} {earlier : List (Call K)}
    (h : FailedWith failure written (Session.run fileLength earlier).handle)
    (more : List (Call K)) :
    FailedWith failure written (Session.run fileLength (earlier ++ more)).handle := by
  induction more using List.reverseRecOn with
  | nil => simpa using h
  | append_singleton more call ih =>
    rw [← List.append_assoc, Session.run_snoc]
    exact (call.perform_failed ih).kept

theorem run_completed {content : Bytes} {earlier : List (Call K)}
    (h : Completed (Session.run fileLength earlier).handle content) (more : List (Call K))
    (hagree : Undisputed fileLength (earlier ++ more)) :
    Completed (Session.run fileLength (earlier ++ more)).handle content := by
  induction more using List.reverseRecOn with
  | nil => simpa using h
  | append_singleton more call ih =>
    rw [← List.append_assoc] at hagree ⊢
    have hbefore := ih fun before call' hearlier =>
      hagree before call' (hearlier.trans (List.prefix_append _ _))
    rw [Session.run_snoc]
    exact Call.perform_completed hbefore (hagree _ call List.prefix_rfl hbefore.canClose)

/-- A file with `can_close` set was reported as written at some point. -/
theorem reported_of_canClose (calls : List (Call K))
    (h : (Session.run fileLength calls).handle.inner.canClose = true) :
    ∃ earlier, earlier <+: calls ∧
      (Session.run fileLength earlier).handle.isFileWritten = .ok true := by
  induction calls using List.reverseRecOn with
  | nil => simp [Session.run, Session.new, FileWriterHandle.new] at h
  | append_singleton calls call ih =>
    by_cases hopen : (Session.run fileLength calls).handle.inner.canClose = true
    · obtain ⟨earlier, hearlier, hreported⟩ := ih hopen
      exact ⟨earlier, hearlier.trans (List.prefix_append _ _), hreported⟩
    · rw [Bool.not_eq_true] at hopen
      have hentered : Entered false (Session.run fileLength calls).content
          (Session.run fileLength calls).handle :=
        ⟨Session.run_consistent fileLength calls, fun hc => by simp [hopen] at hc⟩
      have hsound := call.perform_sound hentered
      rw [Session.run_snoc] at h
      refine ⟨calls ++ [call], List.prefix_rfl, ?_⟩
      rw [Session.run_snoc]
      exact (hsound.completed (.inr ⟨rfl, h⟩)).2.isFileWritten

/-- A dispute of a completed file ends in a failure. -/
theorem failure_of_disputes {calls : List (Call K)} {call : Call K}
    (hclosed : (Session.run fileLength calls).handle.inner.canClose = true)
    (hdispute : call.Disputes (Session.run fileLength calls).handle) :
    (Session.run fileLength (calls ++ [call])).handle.inner.failure ≠ none := by
  rw [Session.run_snoc]
  cases hf : (Session.run fileLength calls).handle.inner.failure with
  | some failure =>
    have hbefore : FailedWith failure (Session.run fileLength calls).handle.written
        (Session.run fileLength calls).handle := ⟨hf, rfl⟩
    simp [Session.call, (call.perform_failed hbefore).kept.1]
  | none =>
    have hcons := Session.run_consistent fileLength calls
    exact Call.perform_disputed (completed_of_closed hcons hf hclosed) hdispute

theorem run_keeps {earlier later calls : List (Call K)} (hagree : Undisputed fileLength calls)
    (hearlier : earlier <+: later) (hlater : later <+: calls) :
    Keeps (Session.run fileLength earlier).handle (Session.run fileLength later).handle := by
  obtain ⟨more, rfl⟩ := hearlier
  constructor
  · intro failure hf
    have hkept := run_failed ⟨hf, rfl⟩ more
    exact ⟨isFileWritten_of_failure hkept.1, hkept.2, fun call hreports => hreports.refused hkept⟩
  · intro hreported
    have hbefore := completed_of_isFileWritten (Session.run_consistent fileLength earlier) hreported
    have hafter := run_completed hbefore more fun before call hearlier =>
      hagree before call (hearlier.trans hlater)
    refine ⟨hafter.isFileWritten, ?_, ?_⟩
    · rw [hafter.length, hbefore.length]
    · rw [hafter.disk, hbefore.disk]

end Runs

/-- The outcome of a run is final exactly when no received size and no refused
flush disputes a completed file. -/
theorem outcome_final_iff (fileLength : Option Nat) (calls : List (Call K)) :
    OutcomeFinal fileLength calls ↔ Undisputed fileLength calls := by
  constructor
  · intro hfinal earlier call hearlier hclosed hdispute
    have hbefore : earlier <+: calls := (List.prefix_append _ _).trans hearlier
    obtain ⟨first, hfirst, hreported⟩ := reported_of_canClose earlier hclosed
    have hnone := hfinal.notBoth first (earlier ++ [call]) (hfirst.trans hbefore) hearlier hreported
    exact failure_of_disputes hclosed hdispute hnone
  · intro hagree
    refine ⟨fun earlier later => run_keeps hagree, fun earlier later hearlier hlater hreported => ?_⟩
    rcases List.prefix_or_prefix_of_prefix hearlier hlater with hle | hle
    · have hkept := ((run_keeps hagree hle hlater).completed hreported).1
      exact (completed_of_isFileWritten (Session.run_consistent fileLength later) hkept).noFailure
    · cases hf : (Session.run fileLength later).handle.inner.failure with
      | none => rfl
      | some failure =>
        have hkept := ((run_keeps hagree hle hearlier).failed failure hf).1
        simp [hreported] at hkept

/-- Three bytes complete a file of three; the end of a stream that carried five
then turns the success into a failure. -/
theorem outcome_reversed :
    ¬ OutcomeFinal (some 3) ([.writeOnDisk [1, 2, 3] {}, .finishReceived 5 {}] : List (Call Unit)) := by
  intro hfinal
  have hkept := hfinal.keeps [.writeOnDisk [1, 2, 3] {}]
    [.writeOnDisk [1, 2, 3] {}, .finishReceived 5 {}] (List.prefix_append _ _) List.prefix_rfl
  have hbefore : (Session.run (K := Unit) (some 3) [.writeOnDisk [1, 2, 3] {}]).handle.isFileWritten =
      .ok true := rfl
  have hafter : (Session.run (K := Unit) (some 3)
      [.writeOnDisk [1, 2, 3] {}, .finishReceived 5 {}]).handle.isFileWritten =
      .error "received length differs from declared length" := rfl
  rw [(hkept.completed hbefore).1] at hafter
  cases hafter

end FacesHttp3.FileWriter
