import FacesHttp3.FileWriter

/-! # A writer no operation fails on

When the operating system answers every call with success, a writer is filled by
its operations: each adds its bytes, and the one that reaches the expected length
completes the file. How much of the buffer is moved to the disk at each write is
left open. -/

namespace FacesHttp3.FileWriter
open FacesHttp3.Lib FacesHttp3.Lib.EHoare FacesHttp3.Request

structure Io.Succeeds (io : Io) : Prop where
  flush : io.flush.error = none
  open_ : io.open_ = none
  readToEnd : io.readToEnd = none
  truncate : io.truncate = none
  writeAll : io.writeAll.error = none
  rewriteFlush : io.rewriteFlush.error = none
  completionFlush : io.completionFlush.error = none

/-- Answers without an error. -/
abbrev GoodIo := { io : Io // io.Succeeds }

def GoodIo.plain : GoodIo := ⟨{}, rfl, rfl, rfl, rfl, rfl, rfl, rfl⟩

/-- `content` was written, within the expected length; a complete file is flushed
and has this length. -/
structure Filling {K : Type} (len : Nat × Bool) (content : Bytes) (handle : FileWriterHandle K) :
    Prop where
  noFailure : handle.inner.failure = none
  writer : ∃ writer, handle.inner.writer = some writer ∧ writer.content = content ∧
    (handle.inner.canClose = true → writer.buf = [])
  fileLength : handle.fileLength = len
  written : handle.written = content.length
  room : len.2 = true → content.length ≤ len.1
  closed : handle.inner.canClose = true → len = (content.length, true)

/-- A writer whose last operation completed the file if it reached its length. -/
structure Filled {K : Type} (len : Nat × Bool) (content : Bytes) (handle : FileWriterHandle K) :
    Prop extends Filling len content handle where
  complete : len = (content.length, true) → handle.inner.canClose = true

variable {K : Type} {len : Nat × Bool} {content : Bytes} {handle : FileWriterHandle K}

theorem Filled.completed (h : Filled (content.length, true) content handle) :
    Completed handle content := by
  obtain ⟨⟨disk, buf⟩, hw, hcontent, hbuf⟩ := h.writer
  obtain rfl : buf = [] := hbuf (h.complete rfl)
  refine ⟨h.noFailure, h.complete rfl, ?_, h.written, ?_⟩
  · rw [h.fileLength, h.written]
  · rw [hw, ← hcontent]
    simp

theorem Filling.content_of_completed {content' : Bytes} (h : Filling len content handle)
    (hc : Completed handle content') : content' = content := by
  obtain ⟨writer, hw, hcontent, -⟩ := h.writer
  rw [hc.flushed] at hw
  obtain rfl := Option.some.inj hw
  simpa using hcontent

/-- A content the file has no room for yet is not complete. -/
theorem Filling.not_canClose {data : Bytes} (h : Filling len content handle)
    (hroom : len.2 = true → content.length + data.length ≤ len.1) (hd : data ≠ []) :
    handle.inner.canClose = false := by
  have hpos : 0 < data.length := List.length_pos_iff.mpr hd
  cases hc : handle.inner.canClose with
  | false => rfl
  | true =>
    have hlen := h.closed hc
    have hle := hroom (by rw [hlen])
    rw [hlen] at hle
    omega

theorem filling_new (fileLength : Option Nat) :
    Filling (fileLength.getD 0, fileLength.isSome) [] (FileWriterHandle.new (K := K) fileLength) where
  noFailure := rfl
  writer := ⟨⟨[], []⟩, rfl, rfl, fun _ => rfl⟩
  fileLength := rfl
  written := rfl
  room := fun _ => Nat.zero_le _
  closed := nofun

/-! ## Sections of an operation -/

theorem error_succeeds {P : FileWriterHandle K → Prop}
    (hp : ∀ handle, P handle → handle.inner.failure = none) :
    Triple P Locked.error (fun _ => P) fun _ _ => False :=
  error_spec.conseq (fun _ => id) (fun _ _ h => h.1) fun _ s h => h.2 (hp s h.1)

theorem flush_succeeds {outcome : Transfer} (ho : outcome.error = none) {writer : BufFile UInt8}
    (hf : handle.inner.failure = none) (hw : handle.inner.writer = some writer) :
    Triple (· = handle) (Locked.flush outcome) (fun _ s => s = handle.setWriter writer.sync)
      fun _ _ => False := by
  unfold Locked.flush
  refine Triple.bind (error_succeeds (by rintro _ rfl; exact hf)) fun _ => ?_
  refine Triple.get_bind fun s hs => ?_
  subst hs
  rw [hw, ho]
  exact Triple.modify _ fun s hs => by rw [hs]

theorem completeIfReady_fills {outcome : Transfer} (ho : outcome.error = none) :
    Triple (Filling (K := K) len content) (Locked.completeIfReady outcome)
      (fun _ => Filled len content) fun _ _ => False := by
  unfold Locked.completeIfReady
  refine Triple.bind (error_succeeds fun _ h => h.noFailure) fun _ => ?_
  refine Triple.get_bind fun handle h => ?_
  have hlen := h.fileLength
  have hwritten := h.written
  refine Triple.ite (fun hc => ?_) fun hc => ?_
  · exact Triple.pure true fun s hs => hs ▸ ⟨h, fun _ => hc⟩
  refine Triple.ite (fun hset => ?_) fun hset => ?_
  · refine Triple.pure false fun s hs => hs ▸ ⟨h, fun hlen' => ?_⟩
    rw [hlen, hlen'] at hset
    cases hset
  refine Triple.ite (fun hlt => ?_) fun hge => ?_
  · refine Triple.pure false fun s hs => hs ▸ ⟨h, fun hlen' => ?_⟩
    rw [hlen, hlen', hwritten] at hlt
    exact absurd hlt (Nat.lt_irrefl _)
  have hset' : len.2 = true := by simpa [hlen] using hset
  have hroom := h.room hset'
  refine Triple.ite (fun hgt => ?_) fun _ => ?_
  · rw [hlen, hwritten] at hgt
    omega
  rw [hlen, hwritten] at hge
  obtain ⟨writer, hw, hcontent, -⟩ := h.writer
  refine Triple.bind (flush_succeeds ho h.noFailure hw) fun _ => ?_
  refine Triple.bind (Q := fun _ s => s = (handle.setWriter writer.sync).setCanClose)
    (Triple.modify _ fun s hs => by rw [hs]) fun _ => Triple.pure true ?_
  rintro s rfl
  have hreached : len = (content.length, true) := Prod.ext (by omega) hset'
  exact ⟨⟨h.noFailure, ⟨writer.sync, rfl, by simpa using hcontent, fun _ => rfl⟩, hlen, hwritten,
    h.room, fun _ => hreached⟩, fun _ => rfl⟩

theorem recordUnlessClosed_succeeds {body : Locked K Bool} {P : FileWriterHandle K → Prop}
    {Q : Bool → FileWriterHandle K → Prop} (h : Triple P body Q fun _ _ => False) :
    Triple P (Locked.recordUnlessClosed body) Q fun _ _ => False :=
  Triple.tryCatch h fun _ _ hs => hs.elim

theorem throwIf_succeeds {outcome : Option IoError} (ho : outcome = none)
    {P : FileWriterHandle K → Prop} :
    Triple P (Locked.throwIf outcome) (fun _ => P) fun _ _ => False := by
  subst ho
  exact Triple.pure () fun _ => id

/-! ## Operations -/

theorem writeOnDisk_fills (data : Bytes) {io : Io} (hio : io.Succeeds)
    (hfits : content.length + data.length < 2 ^ 64)
    (hroom : len.2 = true → content.length + data.length ≤ len.1) :
    Triple (Filling (K := K) len content) (Locked.writeOnDisk data io)
      (fun _ => Filled len (content ++ data)) fun _ _ => False := by
  refine recordUnlessClosed_succeeds (Triple.bind (error_succeeds fun _ h => h.noFailure) fun _ => ?_)
  refine Triple.get_bind fun handle h => ?_
  have hwritten := h.written
  have hlen := h.fileLength
  refine Triple.ite (fun hc => ?_) fun _ => ?_
  · rw [Bool.and_eq_true] at hc
    have hopen := h.not_canClose hroom (by simpa using hc.2)
    exact absurd hc.1 (by simp [hopen])
  refine Triple.ite (fun hover => ?_) fun _ => ?_
  · rw [hwritten] at hover
    omega
  refine Triple.ite (fun hover => ?_) fun _ => ?_
  · rw [Bool.and_eq_true, decide_eq_true_eq, hwritten, hlen] at hover
    have := hroom hover.1
    omega
  obtain ⟨writer, hw, hcontent, hbuf⟩ := h.writer
  let pushed : FileWriterHandle K := handle.setWriter (writer.push data io.writeAll.moved)
  refine Triple.bind (Q := fun _ s => s = pushed) ?_ fun _ => ?_
  · refine Triple.get_bind fun s hs => ?_
    subst hs
    rw [hw, hio.writeAll]
    exact Triple.bind (Q := fun _ t => t = pushed) (Triple.modify _ fun t ht => by rw [ht])
      fun _ => Triple.pure () fun _ => id
  refine Triple.bind (Q := fun _ => Filling len (content ++ data)) (Triple.modify _ ?_)
    fun _ => completeIfReady_fills hio.completionFlush
  rintro s rfl
  -- nothing but an empty packet reaches a complete file
  have hempty : handle.inner.canClose = true → data = [] := by
    intro hc
    by_contra hd
    simp [h.not_canClose hroom hd] at hc
  refine ⟨h.noFailure, ⟨_, rfl, by simp [hcontent], fun hc => ?_⟩, hlen, by simp [hwritten],
    by simpa using hroom, fun hc => ?_⟩
  · rw [hempty hc]
    exact BufFile.buf_spill_of_nil (by simpa using hbuf hc) _
  · rw [hempty hc, List.append_nil]
    exact h.closed hc

theorem transfertBytesFromTempFile_fills {bytes : Bytes} {io : Io} (hio : io.Succeeds)
    (hne : bytes ≠ []) (hroom : len.2 = true → content.length + bytes.length ≤ len.1) :
    Triple (Filling (K := K) len content) (Locked.transfertBytesFromTempFile bytes io)
      (fun _ => Filled len (bytes ++ content)) fun _ _ => False := by
  refine recordUnlessClosed_succeeds (Triple.bind (error_succeeds fun _ h => h.noFailure) fun _ => ?_)
  refine Triple.get_bind fun handle h => ?_
  have hopen := h.not_canClose hroom hne
  have hlen := h.fileLength
  obtain ⟨writer, hw, hcontent, -⟩ := h.writer
  refine Triple.ite (fun hempty => absurd (by simpa using hempty) hne) fun _ => ?_
  refine Triple.ite (fun hc => absurd hc (by simp [hopen])) fun _ => ?_
  refine Triple.bind (flush_succeeds hio.flush h.noFailure hw) fun _ => ?_
  refine Triple.bind (Q := fun read s => read = bytes ++ content ∧
    s = handle.setWriter writer.sync) ?_ fun read => ?_
  · refine Triple.bind (throwIf_succeeds hio.open_) fun _ =>
      Triple.bind (throwIf_succeeds hio.readToEnd) fun _ => Triple.get_bind fun s hs => ?_
    refine Triple.pure _ fun t ht => ⟨?_, ht.trans hs⟩
    rw [hs]
    simp [FileWriterHandle.disk, FileWriterHandle.setWriter, BufFile.sync, hcontent]
  refine Triple.get_bind fun s hs => ?_
  obtain ⟨rfl, rfl⟩ := hs
  have hsum : (bytes ++ content).length = content.length + bytes.length := by
    simp [Nat.add_comm]
  refine Triple.ite (fun hover => ?_) fun _ => ?_
  · rw [Bool.and_eq_true, decide_eq_true_eq, hsum] at hover
    simp only [hlen] at hover
    have := hroom hover.1
    omega
  let file := BufFile.push ⟨[], []⟩ (bytes ++ content) io.writeAll.moved
  let rewritten : FileWriterHandle K := (handle.setWriter writer.sync).setWriter file
  refine Triple.bind (Q := fun _ s => s = rewritten.setWriter file.sync) ?_ fun _ => ?_
  · refine Triple.bind (throwIf_succeeds hio.truncate) fun _ =>
      Triple.bind (Q := fun _ s => s = rewritten) (Triple.modify _ fun t ht => by rw [ht])
        fun _ => Triple.bind (throwIf_succeeds hio.writeAll) fun _ => ?_
    rw [hio.rewriteFlush]
    exact Triple.modify _ fun t ht => by rw [ht]
  refine Triple.bind (Q := fun _ => Filling len (bytes ++ content)) (Triple.modify _ ?_)
    fun _ => completeIfReady_fills hio.completionFlush
  rintro s rfl
  refine ⟨h.noFailure, ⟨file.sync, rfl, by simp [file], fun _ => rfl⟩, hlen, rfl,
    by simpa [hsum] using hroom, fun hc => ?_⟩
  have hc' : handle.inner.canClose = true := hc
  simp [hopen] at hc'

theorem settle_fills {P : FileWriterHandle K → Prop} {body : Locked K Bool}
    (h : Triple P body (fun _ => Filled len content) fun _ _ => False) (hs : P handle) :
    Filled len content (settle body handle).handle := by
  unfold settle
  cases hrun : body handle with
  | ok result t =>
    have ht := h.ok hs hrun
    cases result with
    | true => exact ⟨⟨ht.noFailure, ht.writer, ht.fileLength, ht.written, ht.room, ht.closed⟩,
        ht.complete⟩
    | false => exact ht
  | error e t => exact (h.error hs hrun).elim

/-- The length becomes known, or is the one declared. -/
theorem finishReceived_fills {received : Nat} {io : Io} (hio : io.Succeeds)
    (h : Filling len content handle) (hlen : len.2 = true → len.1 = received)
    (hroom : content.length ≤ received) :
    Filled (received, true) content (handle.finishReceived received io).handle := by
  have hl := h.fileLength
  have hchecked : settle (Locked.checkReceived received) handle = ⟨.ok false, none, handle⟩ := by
    have hagree : (handle.fileLength.2 && handle.fileLength.1 != received) = false := by
      rw [hl]
      cases hset : len.2 with
      | false => rfl
      | true => simp [hlen hset]
    have hrun : Locked.checkReceived received handle = .ok false handle := by
      change (if (handle.fileLength.2 && handle.fileLength.1 != received) = true then _ else _ :
        Locked K Bool) handle = _
      rw [hagree]
      rfl
    rw [settle, hrun]
  unfold FileWriterHandle.finishReceived
  rw [hchecked]
  refine settle_fills (P := (· = handle)) ?_ rfl
  refine Triple.bind (Q := fun _ => Filling (received, true) content) (Triple.modify _ ?_)
    fun _ => completeIfReady_fills hio.completionFlush
  rintro s rfl
  split
  · rename_i hset
    rw [hl] at hset
    have hsame : len = (received, true) := Prod.ext (hlen hset) hset
    exact hsame ▸ h
  · rename_i hset
    refine ⟨h.noFailure, h.writer, rfl, h.written, fun _ => hroom, fun hc => ?_⟩
    rw [hl, h.closed hc] at hset
    exact absurd rfl hset

end FacesHttp3.FileWriter
