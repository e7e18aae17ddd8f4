import FacesHttp3.FileWriter.Sections

/-! # What the calls on a writer should leave in its file

The file of a writer that is still open and has no failure holds everything its
calls asked for. A complete file may have refused a write, but not if it is as long
as everything it was asked for. -/

namespace FacesHttp3.FileWriter
open FacesHttp3.Lib FacesHttp3.Lib.EHoare FacesHttp3.Request

variable {K : Type}

/-- The content if every call succeeded. -/
def expected (calls : List (Call K)) : Bytes := calls.foldl (fun content call => call.after content) []

theorem expected_snoc (calls : List (Call K)) (call : Call K) :
    expected (calls ++ [call]) = call.after (expected calls) := by
  simp [expected, List.foldl_append]

/-- The bytes a call puts in front, and those it puts at the end. -/
def Call.adds : Call K → Bytes × Bytes
  | .writeOnDisk data _ => ([], data)
  | .transfertBytesFromTempFile bytes _ => (bytes, [])
  | _ => ([], [])

theorem Call.after_eq (call : Call K) (content : Bytes) :
    call.after content = call.adds.1 ++ content ++ call.adds.2 := by
  cases call <;> simp [Call.after, Call.extend, Call.adds]

/-- What stands in front of the file, the last prefix first. -/
def prefixes (calls : List (Call K)) : Bytes := calls.reverse.flatMap fun call => call.adds.1

theorem expected_eq (calls : List (Call K)) :
    expected calls = prefixes calls ++ calls.flatMap fun call => call.adds.2 := by
  induction calls using List.reverseRecOn with
  | nil => rfl
  | append_singleton calls call ih =>
    rw [expected_snoc, Call.after_eq, ih]
    simp [prefixes, List.append_assoc]

section Sections
variable {handle : FileWriterHandle K}

/-- A write or a prefix that is refused leaves a failure, or found the file complete. -/
theorem settle_error {b : Section K} {e : IoError}
    (h : (settle b.body handle).result = .error e) :
    (settle b.body handle).handle.inner.failure ≠ none ∨
      (settle b.body handle).handle.inner.canClose = true := by
  unfold settle at h ⊢
  cases hrun : b.body handle with
  | ok result t =>
    rw [hrun] at h
    cases result <;> cases h
  | error e' t =>
    rcases b.body_records.error trivial hrun with hfailure | ⟨hclosed, -⟩
    · exact .inl hfailure
    · exact .inr hclosed

/-- A call that changes what the file should hold succeeds, or its error is kept, or
it found the file complete. -/
theorem Call.perform_error (call : Call K) {e : IoError} (h : (call.perform handle).result = .error e) :
    call.adds = ([], []) ∨ (call.perform handle).handle.inner.failure ≠ none ∨
      (call.perform handle).handle.inner.canClose = true := by
  cases call with
  | writeOnDisk data io => exact .inr (settle_error (b := .writeOnDisk data io) h)
  | transfertBytesFromTempFile bytes io =>
    exact .inr (settle_error (b := .transfertBytesFromTempFile bytes io) h)
  | _ => exact .inl rfl

end Sections

section Runs
variable {fileLength : Option Nat} {calls : List (Call K)}

/-- The writer is open and has no failure. -/
def FileWriterHandle.Open (handle : FileWriterHandle K) : Prop :=
  handle.inner.failure = none ∧ handle.inner.canClose = false

/-- A writer that is open was open before. -/
theorem open_before {call : Call K} (h : (Session.run fileLength (calls ++ [call])).handle.Open) :
    (Session.run fileLength calls).handle.Open := by
  obtain ⟨hnone, hopen⟩ := h
  have hbefore : (Session.run fileLength calls).handle.inner.failure = none := by
    cases hf : (Session.run fileLength calls).handle.inner.failure with
    | none => rfl
    | some failure =>
      have hkept := run_failed ⟨hf, rfl⟩ [call]
      cases hnone.symm.trans hkept.1
  refine ⟨hbefore, ?_⟩
  by_contra hclosed
  rw [Bool.not_eq_false] at hclosed
  have hcompleted := completed_of_closed (Session.run_consistent fileLength calls) hbefore hclosed
  by_cases hdispute : call.Disputes (Session.run fileLength calls).handle
  · exact failure_of_disputes hclosed hdispute hnone
  · have hafter := Call.perform_completed hcompleted hdispute
    rw [Session.run_snoc] at hopen
    cases hopen.symm.trans hafter.canClose

/-- Everything the calls asked for is in an open file. -/
theorem content_of_open (h : (Session.run fileLength calls).handle.Open) :
    (Session.run fileLength calls).content = expected calls := by
  induction calls using List.reverseRecOn with
  | nil => rfl
  | append_singleton calls call ih =>
    have hbefore := ih (open_before h)
    rw [Session.run_snoc] at h ⊢
    rw [expected_snoc, ← hbefore]
    simp only [Session.call] at h ⊢
    cases hresult : (call.perform (Session.run fileLength calls).handle).result with
    | ok result => exact Call.extend_ok _ _ _
    | error e =>
      rw [Call.extend_error]
      rcases call.perform_error hresult with hadds | hfailure | hclosed
      · simp [Call.after_eq, hadds]
      · exact absurd h.1 hfailure
      · cases h.2.symm.trans hclosed

/-- A file never holds more than its calls asked for, and one that holds as much
holds just that. -/
theorem content_le (fileLength : Option Nat) (calls : List (Call K)) :
    (Session.run fileLength calls).content.length ≤ (expected calls).length ∧
      ((Session.run fileLength calls).content.length = (expected calls).length →
        (Session.run fileLength calls).content = expected calls) := by
  induction calls using List.reverseRecOn with
  | nil => exact ⟨Nat.le_refl _, fun _ => rfl⟩
  | append_singleton calls call ih =>
    rw [Session.run_snoc, expected_snoc]
    simp only [Session.call]
    cases hresult : (call.perform (Session.run fileLength calls).handle).result with
    | ok result =>
      rw [Call.extend_ok]
      simp only [Call.after_eq, List.length_append]
      refine ⟨by omega, fun hlength => ?_⟩
      rw [ih.2 (by omega)]
    | error e =>
      rw [Call.extend_error]
      simp only [Call.after_eq, List.length_append]
      refine ⟨by omega, fun hlength => ?_⟩
      have hfront : call.adds.1 = [] := List.length_eq_zero_iff.mp (by omega)
      have hback : call.adds.2 = [] := List.length_eq_zero_iff.mp (by omega)
      rw [hfront, hback, ih.2 (by omega)]
      simp

/-- A file that is reported as written with the length of all its calls holds them. -/
theorem disk_of_isFileWritten (h : (Session.run fileLength calls).handle.isFileWritten = .ok true)
    (hlength : (Session.run fileLength calls).handle.written = (expected calls).length) :
    (Session.run fileLength calls).handle.disk = expected calls := by
  have hcompleted := completed_of_isFileWritten (Session.run_consistent fileLength calls) h
  rw [hcompleted.disk]
  refine (content_le fileLength calls).2 ?_
  rw [← hcompleted.length, hlength]

end Runs

end FacesHttp3.FileWriter
