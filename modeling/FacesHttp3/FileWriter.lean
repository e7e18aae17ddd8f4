import Mathlib.Data.List.Induction
import FacesHttp3.Lib.BufFile
import FacesHttp3.Lib.EHoare
import FacesHttp3.Request

/-! # Writing an uploaded file

A writer is shared by clones: the thread that prefixes early bytes, the file
worker that appends packets, the one that learns the length. Every operation
runs under the writer's lock and any of them may be the one that completes the
file. Each result the operating system gives is an argument of the call. -/

namespace FacesHttp3.FileWriter
open FacesHttp3.Lib FacesHttp3.Lib.EHoare FacesHttp3.Request

inductive ErrorKind
  | notFound
  | invalidData
  | invalidInput
  | os (code : Nat)
  deriving DecidableEq, Repr

structure IoError where
  kind : ErrorKind
  message : String
  deriving DecidableEq, Repr

/-- Outcome of a call on the buffered writer: bytes moved to the disk, and the
error it stopped at. A flush without an error moves the whole buffer. -/
structure Transfer where
  moved : Nat := 0
  error : Option IoError := none

/-- What the operating system answers during one operation. -/
structure Io where
  flush : Transfer := {}
  open_ : Option IoError := none
  readToEnd : Option IoError := none
  truncate : Option IoError := none
  writeAll : Transfer := {}
  rewriteFlush : Transfer := {}
  completionFlush : Transfer := {}

structure State where
  writer : Option (BufFile UInt8)
  canClose : Bool
  failure : Option IoError

/-- The shared fields of a writer and its clones, with callbacks `K`; `pending`
is its entry in the map of pending files. -/
structure FileWriterHandle (K : Type) where
  inner : State
  fileLength : Nat × Bool
  written : Nat
  finishingCallback : Option K
  pending : Bool

variable {K : Type}

def FileWriterHandle.new (fileLength : Option Nat) : FileWriterHandle K where
  inner := { writer := some ⟨[], []⟩, canClose := false, failure := none }
  fileLength := (fileLength.getD 0, fileLength.isSome)
  written := 0
  finishingCallback := none
  pending := true

/-- The content of the file, once all of it is flushed. -/
def FileWriterHandle.disk (handle : FileWriterHandle K) : Bytes :=
  (handle.inner.writer.map BufFile.disk).getD []

def FileWriterHandle.setWriter (writer : BufFile UInt8) (handle : FileWriterHandle K) :
    FileWriterHandle K :=
  { handle with inner := { handle.inner with writer := some writer } }

def FileWriterHandle.setCanClose (handle : FileWriterHandle K) : FileWriterHandle K :=
  { handle with inner := { handle.inner with canClose := true } }

/-- Keep the first failure: a later successful flush cannot repair a partially
failed write. -/
def FileWriterHandle.recordFailure (error : IoError) (handle : FileWriterHandle K) :
    FileWriterHandle K :=
  { handle with inner := { handle.inner with failure := some (handle.inner.failure.getD error) } }

/-! ## Under the lock -/

/-- What an operation does while it holds the lock. -/
abbrev Locked (K : Type) := EStateM IoError (FileWriterHandle K)

namespace Locked

/-- `state.error()`. -/
def error : Locked K Unit := do
  let handle ← get
  match handle.inner.failure with
  | some failure => throw failure
  | none => pure ()

/-- `state.fail(error)`. -/
def fail {α : Type} (error : IoError) : Locked K α := do
  modify (·.recordFailure error)
  let handle ← get
  throw (handle.inner.failure.getD error)

/-- `state.flush()`. It may fail here whatever is in the buffer; the flush of std's
`BufWriter<File>` cannot while the buffer is empty. -/
def flush (outcome : Transfer) : Locked K Unit := do
  error
  let handle ← get
  match handle.inner.writer with
  | none => fail ⟨.notFound, "no bufwriter"⟩
  | some writer =>
    match outcome.error with
    | none => modify (·.setWriter writer.sync)
    | some e => do
      modify (·.setWriter (writer.spill outcome.moved))
      fail e

/-- Completion is based on an exact byte count and a successful flush. -/
def completeIfReady (outcome : Transfer) : Locked K Bool := do
  error
  let handle ← get
  if handle.inner.canClose then pure true
  else if handle.fileLength.2 = false then pure false
  else if handle.written < handle.fileLength.1 then pure false
  else if handle.fileLength.1 < handle.written then
    fail ⟨.invalidData, "file exceeds expected length"⟩
  else do
    flush outcome
    modify (·.setCanClose)
    pure true

/-- `map_err` of the two writing operations: an error after completion is
reported and not recorded. -/
def recordUnlessClosed (body : Locked K Bool) : Locked K Bool :=
  tryCatch body fun e => do
    let handle ← get
    if handle.inner.canClose then throw e else fail e

/-- `writer.write_all(data)?` on the buffered writer. -/
def writeAll (data : Bytes) (outcome : Transfer) : Locked K Unit := do
  let handle ← get
  match handle.inner.writer with
  | none => throw ⟨.notFound, "no bufwriter"⟩
  | some writer => do
    modify (·.setWriter (writer.push data outcome.moved))
    match outcome.error with
    | none => pure ()
    | some e => throw e

def setWritten (written : Nat) : Locked K Unit := modify fun handle => { handle with written }

def writeOnDisk (data : Bytes) (io : Io) : Locked K Bool := recordUnlessClosed do
  error
  let handle ← get
  if handle.inner.canClose && !data.isEmpty then
    throw ⟨.invalidInput, "file already completed"⟩
  else if 2 ^ 64 ≤ handle.written + data.length then
    throw ⟨.invalidData, "file length overflow"⟩
  else if handle.fileLength.2 && handle.fileLength.1 < handle.written + data.length then
    throw ⟨.invalidData, "file exceeds expected length"⟩
  else do
    writeAll data io.writeAll
    setWritten (handle.written + data.length)
    completeIfReady io.completionFlush

def throwIf (outcome : Option IoError) : Locked K Unit :=
  match outcome with
  | some e => throw e
  | none => pure ()

/-- The file's bytes behind the prefix, read back from the disk. -/
def readBack (bytes : Bytes) (io : Io) : Locked K Bytes := do
  throwIf io.open_
  throwIf io.readToEnd
  let handle ← get
  pure (bytes ++ handle.disk)

/-- Truncate the file and write the prefixed content through a new buffer. An
error leaves a shortened file behind. -/
def rewrite (content : Bytes) (io : Io) : Locked K Unit := do
  throwIf io.truncate
  let file := BufFile.push ⟨[], []⟩ content io.writeAll.moved
  modify (·.setWriter file)
  throwIf io.writeAll.error
  match io.rewriteFlush.error with
  | some e => do
    modify (·.setWriter (file.spill io.rewriteFlush.moved))
    throw e
  | none => modify (·.setWriter file.sync)

/-- Prefix the writer's own file with bytes received before it was opened. -/
def transfertBytesFromTempFile (bytes : Bytes) (io : Io) : Locked K Bool := recordUnlessClosed do
  error
  let handle ← get
  if bytes.isEmpty then completeIfReady io.completionFlush
  else if handle.inner.canClose then throw ⟨.invalidInput, "file already completed"⟩
  else do
    flush io.flush
    let content ← readBack bytes io
    if handle.fileLength.2 && handle.fileLength.1 < content.length then
      throw ⟨.invalidData, "file exceeds expected length"⟩
    else do
      rewrite content io
      setWritten content.length
      completeIfReady io.completionFlush

/-- The length is set once. -/
def setFileLength (fileLength : Nat) (io : Io) : Locked K Bool := do
  modify fun handle =>
    if handle.fileLength.2 then handle else { handle with fileLength := (fileLength, true) }
  completeIfReady io.completionFlush

def registerFinishingCallback (callback : K) (io : Io) : Locked K Bool := do
  modify fun handle => { handle with finishingCallback := some callback }
  completeIfReady io.completionFlush

def flushAndComplete (io : Io) : Locked K Bool := do
  flush io.flush
  completeIfReady io.completionFlush

/-- The check `finish_received` makes before it goes on with `set_file_length`. -/
def checkReceived (received : Nat) : Locked K Bool := do
  let handle ← get
  if handle.fileLength.2 && handle.fileLength.1 != received then
    fail ⟨.invalidData, "received length differs from declared length"⟩
  else pure false

end Locked

/-! ## Operations -/

/-- An operation's return: its result, the success callback it hands over for
execution, and the writer after it. -/
structure Return (K : Type) where
  result : Except IoError Bool
  handedOver : Option K
  handle : FileWriterHandle K

/-- `completion_callback` and `settle`: completion takes the callback and runs it,
a failure discards it, and both remove the writer from the pending files. -/
def settle (body : Locked K Bool) (handle : FileWriterHandle K) : Return K :=
  match body handle with
  | .ok true handle =>
    ⟨.ok true, handle.finishingCallback, { handle with finishingCallback := none, pending := false }⟩
  | .ok false handle => ⟨.ok false, none, handle⟩
  | .error e handle =>
    ⟨.error e, none, { handle with finishingCallback := none, pending := false }⟩

/-- The operations on a writer or a clone. `finishReceived` locks twice:
`checkReceived` is its first section alone, when another clone's call comes
before its second, `setFileLength`. -/
inductive Call (K : Type)
  | writeOnDisk (data : Bytes) (io : Io)
  | transfertBytesFromTempFile (bytes : Bytes) (io : Io)
  | setFileLength (fileLength : Nat) (io : Io)
  | checkReceived (received : Nat)
  | finishReceived (received : Nat) (io : Io)
  | flush (io : Io)
  | registerFinishingCallback (callback : K) (io : Io)

def FileWriterHandle.finishReceived (handle : FileWriterHandle K) (received : Nat) (io : Io) :
    Return K :=
  let checked := settle (Locked.checkReceived received) handle
  match checked.result with
  | .error _ => checked
  | .ok _ => settle (Locked.setFileLength received io) checked.handle

def Call.perform : Call K → FileWriterHandle K → Return K
  | .writeOnDisk data io => settle (Locked.writeOnDisk data io)
  | .transfertBytesFromTempFile bytes io => settle (Locked.transfertBytesFromTempFile bytes io)
  | .setFileLength fileLength io => settle (Locked.setFileLength fileLength io)
  | .checkReceived received => settle (Locked.checkReceived received)
  | .finishReceived received io => fun handle => handle.finishReceived received io
  | .flush io => settle (Locked.flushAndComplete io)
  | .registerFinishingCallback callback io =>
    settle (Locked.registerFinishingCallback callback io)

/-! ## What a file should hold -/

/-- The content after a call: a successful write appends its bytes, a successful
prefix puts its bytes in front. -/
def Call.extend (call : Call K) (result : Except IoError Bool) (content : Bytes) : Bytes :=
  match call, result with
  | .writeOnDisk data _, .ok _ => content ++ data
  | .transfertBytesFromTempFile bytes _, .ok _ => bytes ++ content
  | _, _ => content

/-- A writer with the content its calls so far should have produced. -/
structure Session (K : Type) where
  handle : FileWriterHandle K
  content : Bytes

def Session.new (fileLength : Option Nat) : Session K := ⟨FileWriterHandle.new fileLength, []⟩

def Session.call (session : Session K) (call : Call K) : Session K :=
  let return_ := call.perform session.handle
  ⟨return_.handle, call.extend return_.result session.content⟩

/-- No failure, the expected length set and reached, everything flushed, and the
file on disk is `content`. -/
structure Completed (handle : FileWriterHandle K) (content : Bytes) : Prop where
  noFailure : handle.inner.failure = none
  canClose : handle.inner.canClose = true
  expected : handle.fileLength = (handle.written, true)
  length : handle.written = content.length
  flushed : handle.inner.writer = some ⟨content, []⟩

/-- As long as no failure is recorded, and for ever once the file is complete,
the writer holds the content; a complete file is flushed and of the expected
length. -/
def Consistent (content : Bytes) (handle : FileWriterHandle K) : Prop :=
  (handle.inner.failure = none ∨ handle.inner.canClose = true) →
    ∃ writer, handle.inner.writer = some writer ∧ writer.content = content ∧
      handle.written = content.length ∧
      (handle.inner.canClose = true → writer.buf = [] ∧ handle.fileLength = (handle.written, true))

/-! ## Sections of an operation

`wasClosed` tells whether the file was complete when the lock was taken: an
error never completes it. -/

section Sections
variable {wasClosed : Bool} {content : Bytes} {handle : FileWriterHandle K}

/-- Before an operation. -/
def Entered (wasClosed : Bool) (content : Bytes) (handle : FileWriterHandle K) : Prop :=
  Consistent content handle ∧ (handle.inner.canClose = true → wasClosed = true)

/-- Past the failure check. -/
def Live (wasClosed : Bool) (content : Bytes) (handle : FileWriterHandle K) : Prop :=
  Entered wasClosed content handle ∧ handle.inner.failure = none

/-- An operation ends with `result`. -/
def Ended (content : Bytes) (result : Bool) (handle : FileWriterHandle K) : Prop :=
  Consistent content handle ∧ handle.inner.failure = none ∧ handle.inner.canClose = result

/-- An error that need not be recorded yet: only a complete file is still
consistent. -/
def Aborted (wasClosed : Bool) (content : Bytes) (_ : IoError) (handle : FileWriterHandle K) :
    Prop :=
  handle.inner.canClose = true → wasClosed = true ∧ Consistent content handle

/-- An error behind a recorded failure. -/
def Failed (wasClosed : Bool) (content : Bytes) (e : IoError) (handle : FileWriterHandle K) :
    Prop :=
  handle.inner.failure ≠ none ∧ Aborted wasClosed content e handle

theorem Live.aborted (h : Live wasClosed content handle) (e : IoError) :
    Aborted wasClosed content e handle := fun hc => ⟨h.1.2 hc, h.1.1⟩

theorem Live.writer (h : Live wasClosed content handle) :
    ∃ writer, handle.inner.writer = some writer ∧ writer.content = content ∧
      handle.written = content.length ∧
      (handle.inner.canClose = true → writer.buf = [] ∧ handle.fileLength = (handle.written, true)) :=
  h.1.1 (.inl h.2)

theorem aborted_of_not_canClose (h : handle.inner.canClose = false) (e : IoError) :
    Aborted wasClosed content e handle := fun hc => by simp [h] at hc

/-- A failed operation leaves a consistent writer that it did not complete. -/
theorem Failed.entered {e : IoError} (h : Failed wasClosed content e handle) :
    Entered wasClosed content handle := by
  refine ⟨?_, fun hc => (h.2 hc).1⟩
  intro hlive
  rcases hlive with hf | hc
  · exact absurd hf h.1
  · exact (h.2 hc).2 (.inr hc)

theorem recordFailure_failure (e : IoError) : (handle.recordFailure e).inner.failure ≠ none := by
  simp [FileWriterHandle.recordFailure]

@[simp] theorem recordFailure_canClose (e : IoError) :
    (handle.recordFailure e).inner.canClose = handle.inner.canClose := rfl

@[simp] theorem setWriter_canClose (writer : BufFile UInt8) :
    (handle.setWriter writer).inner.canClose = handle.inner.canClose := rfl

@[simp] theorem setWriter_failure (writer : BufFile UInt8) :
    (handle.setWriter writer).inner.failure = handle.inner.failure := rfl

theorem fail_spec {α : Type} {P : FileWriterHandle K → Prop}
    {Q : α → FileWriterHandle K → Prop} {E : IoError → FileWriterHandle K → Prop} (e : IoError)
    (h : ∀ handle, P handle → ∀ e', E e' (handle.recordFailure e)) :
    Triple P (Locked.fail e) Q E := fun s hs => h s hs _

theorem error_spec {P : FileWriterHandle K → Prop} :
    Triple P Locked.error (fun _ handle => P handle ∧ handle.inner.failure = none)
      fun _ handle => P handle ∧ handle.inner.failure ≠ none := by
  refine Triple.get_bind fun handle hp => ?_
  cases hf : handle.inner.failure with
  | some failure =>
    refine Triple.throw failure fun s hs => ?_
    subst hs
    exact ⟨hp, by simp [hf]⟩
  | none =>
    refine Triple.pure () fun s hs => ?_
    subst hs
    exact ⟨hp, hf⟩

/-- A recorded failure is returned before anything else is done. -/
theorem error_bind_of_failure {α : Type} {f : Unit → Locked K α} {failure : IoError}
    (hf : handle.inner.failure = some failure) :
    (Locked.error >>= f) handle = .error failure handle := by
  have herr : Locked.error handle = .error failure handle := by
    change (match handle.inner.failure with
      | some failure => throw failure
      | none => pure () : Locked K Unit) handle = _
    rw [hf]
    rfl
  change EStateM.bind Locked.error f handle = _
  simp [EStateM.bind, herr]

/-- A flush empties the buffer, or moves a part of it and records its error. -/
theorem flush_spec (outcome : Transfer) {writer : BufFile UInt8}
    (hf : handle.inner.failure = none) (hw : handle.inner.writer = some writer) :
    Triple (· = handle) (Locked.flush outcome) (fun _ s => s = handle.setWriter writer.sync)
      fun _ s => ∃ e moved, s = (handle.setWriter (writer.spill moved)).recordFailure e := by
  unfold Locked.flush
  refine Triple.bind (error_spec.conseq (fun _ => id) (fun _ _ => id) ?_) fun _ => ?_
  · rintro e s ⟨rfl, hne⟩
    exact absurd hf hne
  refine Triple.get_bind fun s ⟨hs, _⟩ => ?_
  subst hs
  rw [hw]
  cases outcome.error with
  | none => exact Triple.modify _ fun s hs => by rw [hs]
  | some e =>
    refine Triple.bind (Q := fun _ t => t = s.setWriter (writer.spill outcome.moved))
      (Triple.modify _ fun t ht => by rw [ht]) fun _ => ?_
    refine fail_spec e fun t ht e' => ?_
    exact ⟨e, outcome.moved, by rw [ht]⟩

theorem completeIfReady_of_live (outcome : Transfer) :
    Triple (Live wasClosed content) (Locked.completeIfReady (K := K) outcome) (Ended content)
      fun _ s => s.inner.failure ≠ none ∧ s.inner.canClose = false := by
  unfold Locked.completeIfReady
  refine Triple.bind (error_spec.conseq (fun _ => id) (fun _ _ => id) ?_) fun _ => ?_
  · intro e s ⟨hl, hne⟩
    exact absurd hl.2 hne
  refine Triple.get_bind fun handle ⟨hl, hf⟩ => ?_
  refine Triple.ite (fun hc => ?_) fun hc => ?_
  · exact Triple.pure true fun s hs => hs ▸ ⟨hl.1.1, hf, hc⟩
  rw [Bool.not_eq_true] at hc
  refine Triple.ite (fun _ => Triple.pure false fun s hs => hs ▸ ⟨hl.1.1, hf, hc⟩) fun hset => ?_
  refine Triple.ite (fun _ => Triple.pure false fun s hs => hs ▸ ⟨hl.1.1, hf, hc⟩) fun hle => ?_
  refine Triple.ite (fun _ => fail_spec _ fun s hs _ => ?_) fun hge => ?_
  · exact ⟨recordFailure_failure _, by rw [hs]; exact hc⟩
  obtain ⟨writer, hw, hcontent, hlen, _⟩ := hl.writer
  refine Triple.bind ((flush_spec outcome hf hw).conseq (fun _ => id) (fun _ _ => id) ?_) fun _ => ?_
  · rintro _ s ⟨e, moved, rfl⟩
    exact ⟨recordFailure_failure _, hc⟩
  refine Triple.bind (Q := fun _ s => s = (handle.setWriter writer.sync).setCanClose)
    (Triple.modify _ fun s hs => by rw [hs]) fun _ => Triple.pure true ?_
  rintro s rfl
  refine ⟨fun _ => ⟨writer.sync, rfl, ?_, hlen, fun _ => ⟨rfl, ?_⟩⟩, hf, rfl⟩
  · rw [BufFile.content_sync, hcontent]
  · have hexp : handle.fileLength.1 = handle.written := by omega
    have hset' : handle.fileLength.2 = true := by simpa using hset
    exact Prod.ext hexp hset'

/-- Completion without a failure check before it: a recorded failure is returned. -/
theorem completeIfReady_spec (outcome : Transfer) :
    Triple (Entered wasClosed content) (Locked.completeIfReady (K := K) outcome) (Ended content)
      (Failed wasClosed content) := by
  intro s hs
  cases hf : s.inner.failure with
  | none =>
    refine (completeIfReady_of_live outcome).conseq (fun _ => id) (fun _ _ => id) ?_ s ⟨hs, hf⟩
    exact fun e t ht => ⟨ht.1, aborted_of_not_canClose ht.2 e⟩
  | some failure =>
    rw [Locked.completeIfReady, error_bind_of_failure hf]
    exact ⟨by simp [hf], fun hc => ⟨hs.2 hc, hs.1⟩⟩

/-- Bytes behind the content: nothing is added to a complete file. -/
theorem Live.push {writer : BufFile UInt8} {data : Bytes} (h : Live wasClosed content handle)
    (hw : handle.inner.writer = some writer) (hd : handle.inner.canClose = true → data = [])
    (moved : Nat) :
    Live wasClosed (content ++ data)
      { handle.setWriter (writer.push data moved) with written := handle.written + data.length } := by
  obtain ⟨w, hw', hcontent, hlen, hclosed⟩ := h.writer
  obtain rfl : writer = w := by simpa [hw] using hw'
  refine ⟨⟨fun _ => ⟨_, rfl, ?_, ?_, fun hc => ?_⟩, h.1.2⟩, h.2⟩
  · rw [BufFile.content_push, hcontent]
  · simp [hlen]
  · obtain ⟨hbuf, hexp⟩ := hclosed hc
    rw [hd hc]
    exact ⟨BufFile.buf_spill_of_nil (by simpa using hbuf) moved,
      by simpa [FileWriterHandle.setWriter] using hexp⟩

/-- A failed write leaves a complete file as it is. -/
theorem Live.push_aborted {writer : BufFile UInt8} {data : Bytes}
    (h : Live wasClosed content handle) (hw : handle.inner.writer = some writer)
    (hd : handle.inner.canClose = true → data = []) (moved : Nat) (e : IoError) :
    Aborted wasClosed content e (handle.setWriter (writer.push data moved)) := by
  intro hc
  have hp := (h.push hw hd moved).aborted e hc
  rw [hd hc] at hp
  simpa [FileWriterHandle.setWriter, hd hc] using hp

theorem recordUnlessClosed_spec {body : Locked K Bool} {content' : Bytes}
    {P : FileWriterHandle K → Prop}
    (h : Triple P body (Ended content') (Aborted wasClosed content)) :
    Triple P (Locked.recordUnlessClosed body) (Ended content')
      fun _ s => Entered wasClosed content s := by
  refine Triple.tryCatch h fun e => Triple.get_bind fun s hs => ?_
  refine Triple.ite (fun hc => Triple.throw e ?_) fun hc => fail_spec e ?_
  · rintro t rfl
    exact ⟨(hs hc).2, fun _ => (hs hc).1⟩
  · rintro t rfl e'
    exact Failed.entered (e := e)
      ⟨recordFailure_failure e, aborted_of_not_canClose (by simpa using hc) e⟩

theorem writeOnDisk_spec (data : Bytes) (io : Io) :
    Triple (Entered wasClosed content) (Locked.writeOnDisk (K := K) data io)
      (Ended (content ++ data)) fun _ s => Entered wasClosed content s := by
  refine recordUnlessClosed_spec (Triple.bind (error_spec.conseq (fun _ => id) (fun _ _ => id) ?_)
    fun _ => Triple.get_bind fun handle hl => ?_)
  · intro e s ⟨hs, _⟩ hc
    exact ⟨hs.2 hc, hs.1⟩
  have hl : Live wasClosed content handle := hl
  refine Triple.ite (fun _ => Triple.throw _ fun s hs => hs ▸ hl.aborted _) fun hguard => ?_
  refine Triple.ite (fun _ => Triple.throw _ fun s hs => hs ▸ hl.aborted _) fun _ => ?_
  refine Triple.ite (fun _ => Triple.throw _ fun s hs => hs ▸ hl.aborted _) fun _ => ?_
  have hd : handle.inner.canClose = true → data = [] := by
    intro hc
    simpa [hc] using hguard
  obtain ⟨writer, hw, -⟩ := hl.writer
  refine Triple.bind
    (Q := fun _ s => s = handle.setWriter (writer.push data io.writeAll.moved)) ?_ fun _ => ?_
  · refine Triple.get_bind fun s hs => ?_
    subst hs
    rw [hw]
    refine Triple.bind (Q := fun _ s' => s' = s.setWriter (writer.push data io.writeAll.moved))
      (Triple.modify _ fun t ht => by rw [ht]) fun _ => ?_
    cases io.writeAll.error with
    | none => exact Triple.pure () fun _ => id
    | some e => exact Triple.throw e fun t ht => ht ▸ hl.push_aborted hw hd _ e
  · refine Triple.bind (Q := fun _ => Live wasClosed (content ++ data)) ?_ fun _ => ?_
    · refine Triple.modify _ ?_
      rintro s rfl
      exact hl.push hw hd _
    · exact (completeIfReady_of_live _).conseq (fun _ => id) (fun _ _ => id)
        fun e s hs => aborted_of_not_canClose hs.2 e

theorem throwIf_spec {P : FileWriterHandle K → Prop} {E : IoError → FileWriterHandle K → Prop}
    (outcome : Option IoError) (h : ∀ e s, P s → E e s) :
    Triple P (Locked.throwIf outcome) (fun _ => P) E := by
  cases outcome with
  | none => exact Triple.pure () fun _ => id
  | some e => exact Triple.throw e fun s hs => h e s hs

theorem readBack_spec {E : IoError → FileWriterHandle K → Prop} (bytes : Bytes) (io : Io)
    (h : ∀ e, E e handle) :
    Triple (· = handle) (Locked.readBack bytes io)
      (fun prefixed s => s = handle ∧ prefixed = bytes ++ handle.disk) E := by
  have herr : ∀ e s, s = handle → E e s := fun e s hs => hs ▸ h e
  refine Triple.bind (throwIf_spec _ herr) fun _ => Triple.bind (throwIf_spec _ herr) fun _ => ?_
  refine Triple.get_bind fun s hs => Triple.pure _ fun t ht => ?_
  subst hs
  exact ⟨ht, rfl⟩

/-- A rewrite leaves exactly `prefixed` on disk, or an error and an open file. -/
theorem rewrite_spec {E : IoError → FileWriterHandle K → Prop} (prefixed : Bytes) (io : Io)
    (h : ∀ e s, s.inner.canClose = handle.inner.canClose → E e s) :
    Triple (· = handle) (Locked.rewrite prefixed io)
      (fun _ s => s = handle.setWriter ⟨prefixed, []⟩) E := by
  refine Triple.bind (throwIf_spec _ fun e s hs => h e s (by rw [hs])) fun _ => ?_
  let file := BufFile.push (⟨[], []⟩ : BufFile UInt8) prefixed io.writeAll.moved
  refine Triple.bind (Q := fun _ s => s = handle.setWriter file)
    (Triple.modify _ fun s hs => by rw [hs]) fun _ => ?_
  refine Triple.bind (throwIf_spec _ fun e s hs => h e s (by rw [hs]; rfl)) fun _ => ?_
  cases io.rewriteFlush.error with
  | some e =>
    refine Triple.bind (Q := fun _ s => s.inner.canClose = handle.inner.canClose)
      (Triple.modify _ fun s hs => by rw [hs]; rfl) fun _ => Triple.throw e (h e)
  | none =>
    refine Triple.modify _ fun s hs => ?_
    have hsync : file.sync = ⟨prefixed, []⟩ := by simp [file, BufFile.sync]
    rw [hs, hsync]
    rfl

theorem transfertBytesFromTempFile_spec (bytes : Bytes) (io : Io) :
    Triple (Entered wasClosed content) (Locked.transfertBytesFromTempFile (K := K) bytes io)
      (Ended (bytes ++ content)) fun _ s => Entered wasClosed content s := by
  refine recordUnlessClosed_spec (Triple.bind (error_spec.conseq (fun _ => id) (fun _ _ => id) ?_)
    fun _ => Triple.get_bind fun handle hl => ?_)
  · intro e s ⟨hs, _⟩ hc
    exact ⟨hs.2 hc, hs.1⟩
  have hl : Live wasClosed content handle := hl
  refine Triple.ite (fun hempty => ?_) fun _ => ?_
  · rw [List.isEmpty_iff.mp hempty]
    exact (completeIfReady_of_live _).conseq (fun s hs => hs ▸ hl) (fun _ _ => id)
      fun e s hs => aborted_of_not_canClose hs.2 e
  refine Triple.ite (fun _ => Triple.throw _ fun s hs => hs ▸ hl.aborted _) fun hopen => ?_
  rw [Bool.not_eq_true] at hopen
  obtain ⟨writer, hw, hcontent, hlen, _⟩ := hl.writer
  refine Triple.bind ((flush_spec io.flush hl.2 hw).conseq (fun _ => id) (fun _ _ => id) ?_)
    fun _ => ?_
  · rintro e s ⟨e', moved, rfl⟩
    exact aborted_of_not_canClose (by simpa using hopen) e
  refine Triple.bind (readBack_spec bytes io fun e => aborted_of_not_canClose (by simpa using hopen) e)
    fun prefixed => ?_
  have hdisk : (handle.setWriter writer.sync).disk = content := hcontent
  refine Triple.ite (fun _ => Triple.throw _ ?_) fun _ => ?_
  · rintro s ⟨rfl, _⟩
    exact aborted_of_not_canClose (by simpa using hopen) _
  refine Triple.bind (Q := fun _ s => prefixed = bytes ++ content ∧
    s = (handle.setWriter writer.sync).setWriter ⟨prefixed, []⟩) ?_ fun _ => ?_
  · rintro s ⟨rfl, rfl⟩
    have herror : ∀ (e : IoError) (s : FileWriterHandle K),
        s.inner.canClose = (handle.setWriter writer.sync).inner.canClose →
          Aborted wasClosed content e s :=
      fun e s hs => aborted_of_not_canClose (hs.trans hopen) e
    exact (rewrite_spec (bytes ++ (handle.setWriter writer.sync).disk) io herror).conseq
      (fun _ => id) (fun _ t ht => ⟨by rw [hdisk], ht⟩) (fun _ _ => id) _ rfl
  refine Triple.bind (Q := fun _ => Live wasClosed (bytes ++ content))
    (Triple.modify _ ?_) fun _ => ?_
  · rintro s ⟨rfl, rfl⟩
    refine ⟨⟨fun _ => ⟨⟨bytes ++ content, []⟩, rfl, by simp, rfl, fun hc => ?_⟩, fun hc => ?_⟩, hl.2⟩
    · exact absurd hopen (by simpa using hc)
    · exact absurd hopen (by simpa using hc)
  · exact (completeIfReady_of_live _).conseq (fun _ => id) (fun _ _ => id)
      fun e s hs => aborted_of_not_canClose hs.2 e

theorem setFileLength_spec (fileLength : Nat) (io : Io) :
    Triple (Entered wasClosed content) (Locked.setFileLength (K := K) fileLength io)
      (Ended content) fun _ s => Entered wasClosed content s := by
  refine Triple.bind (Q := fun _ => Entered wasClosed content) (Triple.modify _ ?_) fun _ =>
    (completeIfReady_spec _).conseq (fun _ => id) (fun _ _ => id) fun _ _ => Failed.entered
  intro s hs
  split
  · exact hs
  · rename_i hset
    refine ⟨fun hlive => ?_, hs.2⟩
    obtain ⟨writer, hw, hcontent, hlen, hclosed⟩ := hs.1 hlive
    refine ⟨writer, hw, hcontent, hlen, fun hc => ?_⟩
    simp [(hclosed hc).2] at hset

theorem registerFinishingCallback_spec (callback : K) (io : Io) :
    Triple (Entered wasClosed content) (Locked.registerFinishingCallback callback io)
      (Ended content) fun _ s => Entered wasClosed content s :=
  Triple.bind (Q := fun _ => Entered wasClosed content) (Triple.modify _ fun _ hs => hs) fun _ =>
    (completeIfReady_spec _).conseq (fun _ => id) (fun _ _ => id) fun _ _ => Failed.entered

theorem flushAndComplete_spec (io : Io) :
    Triple (Entered wasClosed content) (Locked.flushAndComplete (K := K) io)
      (Ended content) fun _ s => Entered wasClosed content s := by
  refine Triple.bind (Q := fun _ => Entered wasClosed content) ?_ fun _ =>
    (completeIfReady_spec _).conseq (fun _ => id) (fun _ _ => id) fun _ _ => Failed.entered
  intro s hs
  cases hf : s.inner.failure with
  | some failure =>
    rw [Locked.flush, error_bind_of_failure hf]
    exact hs
  | none =>
    obtain ⟨writer, hw, hcontent, hlen, hclosed⟩ := hs.1 (.inl hf)
    refine (flush_spec io.flush hf hw).conseq (fun _ => id) ?_ ?_ s rfl
    · rintro _ t rfl
      refine ⟨fun _ => ⟨writer.sync, rfl, by simpa using hcontent, hlen, fun hc => ?_⟩, hs.2⟩
      exact ⟨rfl, (hclosed hc).2⟩
    · rintro _ t ⟨e, moved, rfl⟩
      refine ⟨fun _ => ⟨writer.spill moved, rfl, by simpa using hcontent, hlen, fun hc => ?_⟩, hs.2⟩
      exact ⟨BufFile.buf_spill_of_nil (hclosed hc).1 moved, (hclosed hc).2⟩

theorem checkReceived_spec (received : Nat) :
    Triple (Entered wasClosed content) (Locked.checkReceived (K := K) received)
      (fun result s => result = false ∧ Entered wasClosed content s)
      fun _ s => Entered wasClosed content s := by
  refine Triple.get_bind fun handle hs => Triple.ite (fun _ => fail_spec _ ?_) fun _ => ?_
  · rintro t rfl e
    refine Failed.entered (e := e) ⟨recordFailure_failure _, fun hc => ⟨hs.2 hc, fun _ => ?_⟩⟩
    exact hs.1 (.inr hc)
  · exact Triple.pure false fun t ht => ⟨rfl, ht ▸ hs⟩

/-- What an operation that should leave `after` may return from its section. -/
def Leaves (wasClosed : Bool) (after : Bytes) (result : Bool) (handle : FileWriterHandle K) : Prop :=
  match result with
  | true => Completed handle after
  | false => Entered wasClosed after handle

theorem Ended.leaves {result : Bool} (h : Ended content result handle) :
    Leaves wasClosed content result handle := by
  obtain ⟨hcons, hf, hc⟩ := h
  cases result with
  | false => exact ⟨hcons, fun hc' => by simp [hc] at hc'⟩
  | true =>
    obtain ⟨⟨disk, buf⟩, hw, hcontent, hlen, hclosed⟩ := hcons (.inl hf)
    obtain ⟨rfl, hexp⟩ := hclosed hc
    refine ⟨hf, hc, hexp, hlen, ?_⟩
    rw [hw, ← hcontent]
    simp

theorem Completed.consistent (h : Completed handle content) : Consistent content handle :=
  fun _ => ⟨⟨content, []⟩, h.flushed, by simp, h.length, fun _ => ⟨rfl, h.expected⟩⟩

/-- What a caller learns from an operation that should leave `after` when it
succeeds: an error keeps the content, and only a complete file hands its callback
over or becomes complete. -/
structure Sound (wasClosed : Bool) (content after : Bytes) (ret : Return K) : Prop where
  ok : ∀ result, ret.result = .ok result → Consistent after ret.handle
  error : ∀ e, ret.result = .error e → Consistent content ret.handle
  completed : ret.handedOver.isSome ∨ (wasClosed = false ∧ ret.handle.inner.canClose = true) →
    ret.result = .ok true ∧ Completed ret.handle after

theorem Completed.settled (h : Completed handle content) :
    Completed ({ handle with finishingCallback := none, pending := false } : FileWriterHandle K)
      content :=
  ⟨h.noFailure, h.canClose, h.expected, h.length, h.flushed⟩

theorem settle_sound {body : Locked K Bool} {after : Bytes}
    (h : Triple (Entered wasClosed content) body (Leaves wasClosed after)
      fun _ s => Entered wasClosed content s)
    (hs : Entered wasClosed content handle) : Sound wasClosed content after (settle body handle) := by
  unfold settle
  cases hrun : body handle with
  | ok result t =>
    have ht := h.ok hs hrun
    cases result with
    | true => exact ⟨fun _ _ => ht.settled.consistent, nofun, fun _ => ⟨rfl, ht.settled⟩⟩
    | false =>
      refine ⟨fun _ _ => ht.1, nofun, fun hcomp => ?_⟩
      rcases hcomp with hcb | ⟨hopen, hclosed⟩
      · simp at hcb
      · exact absurd (ht.2 hclosed) (by simp [hopen])
  | error e t =>
    have ht := h.error hs hrun
    refine ⟨nofun, fun _ _ => ht.1, fun hcomp => ?_⟩
    rcases hcomp with hcb | ⟨hopen, hclosed⟩
    · simp at hcb
    · exact absurd (ht.2 hclosed) (by simp [hopen])

theorem finishReceived_sound (received : Nat) (io : Io) (hs : Entered wasClosed content handle) :
    Sound wasClosed content content (handle.finishReceived received io) := by
  unfold FileWriterHandle.finishReceived settle
  cases hrun : Locked.checkReceived received handle with
  | ok result t =>
    obtain ⟨rfl, ht⟩ := (checkReceived_spec (K := K) received).ok hs hrun
    exact settle_sound ((setFileLength_spec received io).conseq (fun _ => id)
      (fun _ _ => Ended.leaves) fun _ _ => id) ht
  | error e t =>
    have ht := (checkReceived_spec (K := K) received).error hs hrun
    refine ⟨nofun, fun _ _ => ht.1, fun hcomp => ?_⟩
    rcases hcomp with hcb | ⟨hopen, hclosed⟩
    · simp at hcb
    · exact absurd (ht.2 hclosed) (by simp [hopen])

/-- The content a call leaves behind when it succeeds. -/
def Call.after (call : Call K) (content : Bytes) : Bytes := call.extend (.ok true) content

theorem Call.perform_sound (call : Call K) (hs : Entered wasClosed content handle) :
    Sound wasClosed content (call.after content) (call.perform handle) := by
  cases call with
  | writeOnDisk data io =>
    exact settle_sound ((writeOnDisk_spec data io).conseq (fun _ => id) (fun _ _ => Ended.leaves)
      fun _ _ => id) hs
  | transfertBytesFromTempFile bytes io =>
    exact settle_sound ((transfertBytesFromTempFile_spec bytes io).conseq (fun _ => id)
      (fun _ _ => Ended.leaves) fun _ _ => id) hs
  | setFileLength fileLength io =>
    exact settle_sound ((setFileLength_spec fileLength io).conseq (fun _ => id)
      (fun _ _ => Ended.leaves) fun _ _ => id) hs
  | checkReceived received =>
    refine settle_sound ((checkReceived_spec received).conseq (fun _ => id) ?_ fun _ _ => id) hs
    rintro _ t ⟨rfl, ht⟩
    exact ht
  | finishReceived received io => exact finishReceived_sound received io hs
  | flush io =>
    exact settle_sound ((flushAndComplete_spec io).conseq (fun _ => id) (fun _ _ => Ended.leaves)
      fun _ _ => id) hs
  | registerFinishingCallback callback io =>
    exact settle_sound ((registerFinishingCallback_spec callback io).conseq (fun _ => id)
      (fun _ _ => Ended.leaves) fun _ _ => id) hs

end Sections

/-! ## Runs -/

theorem Call.extend_ok (call : Call K) (result : Bool) (content : Bytes) :
    call.extend (.ok result) content = call.after content := by
  cases call <;> rfl

theorem Call.extend_error (call : Call K) (e : IoError) (content : Bytes) :
    call.extend (.error e) content = content := by
  cases call <;> rfl

theorem Session.call_consistent (session : Session K) (call : Call K)
    (h : Consistent session.content session.handle) :
    Consistent (session.call call).content (session.call call).handle := by
  have hentered : Entered true session.content session.handle := ⟨h, fun _ => rfl⟩
  have hsound := call.perform_sound hentered
  simp only [Session.call]
  cases hres : (call.perform session.handle).result with
  | ok result =>
    rw [Call.extend_ok]
    exact hsound.ok result hres
  | error e =>
    rw [Call.extend_error]
    exact hsound.error e hres

/-- The calls made so far, on a fresh writer. -/
def Session.run (fileLength : Option Nat) (calls : List (Call K)) : Session K :=
  calls.foldl Session.call (Session.new fileLength)

theorem Session.run_consistent (fileLength : Option Nat) (calls : List (Call K)) :
    Consistent (run fileLength calls).content (run fileLength calls).handle := by
  unfold run
  induction calls using List.reverseRecOn with
  | nil =>
    intro _
    exact ⟨⟨[], []⟩, rfl, rfl, rfl, fun hc => by simp [Session.new, FileWriterHandle.new] at hc⟩
  | append_singleton calls call ih =>
    rw [List.foldl_append]
    exact Session.call_consistent _ call ih

/-- Completion is sound: whichever call makes the file complete or hands the
success callback over, no failure is recorded, the expected length is set and
written, everything is flushed, and the disk holds the writes and prefixes that
succeeded, in call order. -/
theorem completion_sound (fileLength : Option Nat) (calls : List (Call K)) (call : Call K)
    (h : (call.perform (Session.run fileLength calls).handle).handedOver.isSome ∨
      ((Session.run fileLength calls).handle.inner.canClose = false ∧
        (Session.run fileLength (calls ++ [call])).handle.inner.canClose = true)) :
    Completed (Session.run fileLength (calls ++ [call])).handle
      (Session.run fileLength (calls ++ [call])).content := by
  have hcons := Session.run_consistent fileLength calls
  have hrun : Session.run fileLength (calls ++ [call]) =
      (Session.run fileLength calls).call call := by
    simp [Session.run, List.foldl_append]
  rw [hrun] at h ⊢
  have hentered : Entered (Session.run fileLength calls).handle.inner.canClose
      (Session.run fileLength calls).content (Session.run fileLength calls).handle := ⟨hcons, id⟩
  have hsound := call.perform_sound hentered
  obtain ⟨hres, hcomp⟩ := hsound.completed h
  simp only [Session.call]
  rw [hres, Call.extend_ok]
  exact hcomp

/-- A packet of three bytes and a prefix of two, with a callback registered and
the length learned last, complete a file of five bytes. -/
theorem completion_sound_prefix :
    Completed (Session.run (K := Unit) none [.writeOnDisk [3, 4, 5] {},
        .registerFinishingCallback () {}, .transfertBytesFromTempFile [1, 2] {},
        .finishReceived 5 {}]).handle [1, 2, 3, 4, 5] :=
  completion_sound none [.writeOnDisk [3, 4, 5] {}, .registerFinishingCallback () {},
    .transfertBytesFromTempFile [1, 2] {}] (.finishReceived 5 {}) (.inl (by decide))

end FacesHttp3.FileWriter
