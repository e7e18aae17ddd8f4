import FacesHttp3.Lib.Outcome
import FacesHttp3.SendLoop.Client

/-! # What one call of the transport does

Of a body the transport takes some bytes, none when it is blocked, or it fails.
The functions of the send loop are restated by what was taken. -/

namespace FacesHttp3.SendLoop
open FacesHttp3.Lib.Outcome FacesHttp3.Request

/-- How much of `body` the transport takes; `none` when the call fails. -/
def Wire.taken (wire : Wire) (body : Bytes) (answer : Except H3Error Nat) : Option Nat :=
  if wire.failed then none
  else match answer with
  | .ok n => some (min n body.length)
  | .error .done => some 0
  | .error _ => none

/-- An empty send that ends the stream is accepted. -/
def Wire.endTaken (wire : Wire) (answer : Except H3Error Nat) : Bool :=
  !wire.failed && answer.isOk

def Wire.put (wire : Wire) (bytes : Bytes) : Wire :=
  { wire with accepted := wire.accepted ++ bytes }

def Wire.putEnd (wire : Wire) (ended : Bool) : Wire := { wire with fin := wire.fin || ended }

def Wire.fail (wire : Wire) : Wire := { wire with failed := true }

section Calls
variable {wire : Wire} {body : Bytes} {fin : Bool} {answer : Except H3Error Nat} {n : Nat}

theorem writtenOf_sendBody : writtenOf (wire.sendBody body fin answer).1 = wire.taken body answer := by
  unfold Wire.sendBody Wire.taken
  cases wire.failed with
  | true => rfl
  | false =>
    cases answer with
    | ok n => rfl
    | error e => cases e <;> rfl

theorem taken_le (h : wire.taken body answer = some n) : n ≤ body.length := by
  unfold Wire.taken at h
  split at h
  · cases h
  · split at h
    · cases h
      exact Nat.min_le_right _ _
    · cases h
      exact Nat.zero_le _
    · cases h

theorem not_failed_of_taken (h : wire.taken body answer = some n) : wire.failed = false := by
  cases hf : wire.failed with
  | false => rfl
  | true => simp [Wire.taken, hf] at h

theorem sendBody_of_taken (h : wire.taken body answer = some n) :
    (wire.sendBody body false answer).2 = wire.put (body.take n) := by
  have hf := not_failed_of_taken h
  obtain ⟨accepted, ended, failed⟩ := wire
  obtain rfl : failed = false := hf
  unfold Wire.taken at h
  unfold Wire.sendBody Wire.put
  simp only [Bool.false_eq_true, if_false] at h ⊢
  split at h
  · cases h
    simp
  · cases h
    simp
  · cases h

theorem sendBody_of_not_taken (h : wire.taken body answer = none) :
    (wire.sendBody body fin answer).2 = wire.fail := by
  unfold Wire.taken at h
  unfold Wire.sendBody Wire.fail
  cases hf : wire.failed with
  | true =>
    cases wire
    cases hf
    rfl
  | false =>
    simp only [hf, Bool.false_eq_true, if_false] at h ⊢
    split at h
    · cases h
    · cases h
    · rename_i e hne
      cases e with
      | done => exact absurd rfl hne
      | streamBlocked | transportDone | other => rfl

/-- An empty send takes nothing, and may end the stream. -/
theorem sendBody_end (h : wire.taken [] answer = some n) :
    (wire.sendBody [] true answer).2 = wire.putEnd (wire.endTaken answer) ∧ n = 0 := by
  have hn : n = 0 := Nat.le_zero.mp (taken_le h)
  refine ⟨?_, hn⟩
  have hf := not_failed_of_taken h
  obtain ⟨accepted, ended, failed⟩ := wire
  obtain rfl : failed = false := hf
  unfold Wire.taken at h
  unfold Wire.sendBody Wire.putEnd Wire.endTaken
  simp only [Bool.false_eq_true, if_false] at h ⊢
  split at h
  · simp [Except.isOk, Except.toBool]
  · simp [Except.isOk, Except.toBool]
  · cases h

theorem endTaken_of_not_taken (h : wire.taken body answer = none) : wire.endTaken answer = false := by
  unfold Wire.taken at h
  unfold Wire.endTaken
  cases hf : wire.failed with
  | true => rfl
  | false =>
    cases answer with
    | ok n => simp [hf] at h
    | error e => rfl

@[simp] theorem taken_put (bytes : Bytes) :
    (wire.put bytes).taken body answer = wire.taken body answer := rfl

@[simp] theorem endTaken_put (bytes : Bytes) :
    (wire.put bytes).endTaken answer = wire.endTaken answer := rfl

theorem taken_of_failed (hf : wire.failed = true) : wire.taken body answer = none := by
  simp [Wire.taken, hf]

end Calls

/-! ## The functions of the loop -/

section Functions
variable {entries : StreamEntries} {data : Bytes} {fin : Bool} {answer : Except H3Error Nat} {n : Nat}

/-- What is left of a chunk. -/
def leftOver (entries : StreamEntries) (data : Bytes) (n : Nat) : Option PartialResponse :=
  if n < data.length then some { headers := none, body := data, written := n }
  else entries.partialResponse

/-- A send whose bytes were taken, without the end of the stream. -/
def StreamEntries.sent (entries : StreamEntries) (data : Bytes) (n : Nat) : StreamEntries :=
  { entries with
    wire := entries.wire.put (data.take n)
    bodySendingTracker := entries.bodySendingTracker.map fun e => (e.1 + n, e.2) }

def StreamEntries.failed (entries : StreamEntries) : StreamEntries :=
  { entries with wire := entries.wire.fail }

theorem sendData_of_taken (h : entries.wire.taken data answer = some n) :
    sendData true entries data false answer =
      .ok ({ entries.sent data n with partialResponse := leftOver entries data n }, some n) := by
  simp only [sendData, withHttp3Conn, if_true, writtenOf_sendBody, h, sendBody_of_taken h]
  unfold leftOver
  split <;> rfl

theorem sendData_of_not_taken (h : entries.wire.taken data answer = none) :
    sendData true entries data fin answer = .ok (entries.failed, none) := by
  simp only [sendData, withHttp3Conn, if_true, writtenOf_sendBody, h, sendBody_of_not_taken h]
  rfl

/-- The empty send at the end of a body. -/
theorem sendData_end (h : entries.wire.taken [] answer = some n) :
    sendData true entries [] true answer = .ok ({ entries with
      wire := entries.wire.putEnd (entries.wire.endTaken answer)
      bodySendingTracker := entries.bodySendingTracker.map fun e => (e.1 + 0, e.2) }, some 0) := by
  obtain ⟨hw, rfl⟩ := sendBody_end h
  simp only [sendData, withHttp3Conn, if_true, writtenOf_sendBody, h, hw]
  rfl

end Functions

/-! ## `handle_writable` -/

def PartialResponse.rest (resp : PartialResponse) : Bytes := resp.body.drop resp.written

/-- What is left of a partial response when `n` more bytes were taken. -/
def PartialResponse.after (resp : PartialResponse) (n : Nat) : Option PartialResponse :=
  if resp.written + n = resp.body.length then none
  else some { resp with written := resp.written + n }

/-- `handle_writable` ends the stream: with the last byte of the chunk when the
count of all written is complete with it, or when nothing was taken and the count
of the chunk and the count of all written happen to sum up to the length. -/
def EndDue (entries : StreamEntries) (resp : PartialResponse) (n : Nat) : Prop :=
  if resp.written + n = resp.body.length then n + entries.getWritten.1 = entries.getWritten.2
  else n = 0 ∧ resp.written + entries.getWritten.1 = entries.getWritten.2

instance (entries : StreamEntries) (resp : PartialResponse) (n : Nat) :
    Decidable (EndDue entries resp n) := by
  unfold EndDue
  infer_instance

/-- The outcomes of `handle_writable` on a partial response without headers. -/
inductive Drained (entries : StreamEntries) (resp : PartialResponse) (answers : Answers) :
    StreamEntries → Prop
  | failed (taken : entries.wire.taken resp.rest answers.body = none) :
      Drained entries resp answers { entries.failed with partialResponse := none }
  | wrote {n : Nat} (taken : entries.wire.taken resp.rest answers.body = some n)
      (due : ¬ EndDue entries resp n) :
      Drained entries resp answers
        { entries.sent resp.rest n with partialResponse := resp.after n }
  | ended {n : Nat} (taken : entries.wire.taken resp.rest answers.body = some n)
      (due : EndDue entries resp n) :
      Drained entries resp answers
        { entries.sent resp.rest n with
          wire := (entries.wire.put (resp.rest.take n)).putEnd (entries.wire.endTaken answers.fin)
          partialResponse := resp.after n }
  | endFailed {n : Nat} (taken : entries.wire.taken resp.rest answers.body = some n)
      (due : EndDue entries resp n) (rejected : entries.wire.taken [] answers.fin = none)
      (partialResponse : Option PartialResponse) :
      Drained entries resp answers
        { entries with wire := (entries.wire.put (resp.rest.take n)).fail, partialResponse }

theorem sendEndIf_not_due {due : Prop} [Decidable due] {wire : Wire} {answer : Except H3Error Nat}
    (h : ¬ due) : sendEndIf due wire answer = (some 0, wire) := by
  simp [sendEndIf, h]

theorem sendEndIf_taken {due : Prop} [Decidable due] {wire : Wire} {answer : Except H3Error Nat}
    {n : Nat} (h : due) (ht : wire.taken [] answer = some n) :
    sendEndIf due wire answer = (some n, wire.putEnd (wire.endTaken answer)) := by
  simp only [sendEndIf, h, if_true, writtenOf_sendBody, ht, (sendBody_end ht).1]

theorem sendEndIf_rejected {due : Prop} [Decidable due] {wire : Wire}
    {answer : Except H3Error Nat} (h : due) (ht : wire.taken [] answer = none) :
    sendEndIf due wire answer = (none, wire.fail) := by
  simp only [sendEndIf, h, if_true, writtenOf_sendBody, ht, sendBody_of_not_taken ht]

theorem handleWritableBody_drained {entries entries' : StreamEntries} {resp : PartialResponse}
    {answers : Answers} {result : Option Bool} (hle : resp.written < resp.body.length)
    (h : handleWritableBody entries resp answers = .ok (entries', result)) :
    Drained entries resp answers entries' := by
  unfold handleWritableBody at h
  simp only [Nat.not_lt.mpr (Nat.le_of_lt hle), if_false, writtenOf_sendBody] at h
  rw [show resp.body.drop resp.written = resp.rest from rfl] at h
  cases ht : entries.wire.taken resp.rest answers.body with
  | none =>
    simp only [ht, sendBody_of_not_taken ht] at h
    cases h
    exact .failed ht
  | some n =>
    simp only [ht, sendBody_of_taken ht] at h
    -- the empty send is answered for the stream with the `n` bytes on it
    have hput : ∀ m, entries.wire.taken [] answers.fin = m →
        (entries.wire.put (resp.rest.take n)).taken [] answers.fin = m := fun _ => id
    by_cases hall : resp.written + n = resp.body.length
    · rw [if_pos hall] at h
      have hafter : resp.after n = none := if_pos hall
      by_cases hsum : n + entries.getWritten.1 = entries.getWritten.2
      · have hdue : EndDue entries resp n := by simp [EndDue, hall, hsum]
        cases hend : entries.wire.taken [] answers.fin with
        | none =>
          simp only [sendEndIf_rejected hsum (hput _ hend)] at h
          cases h
          exact .endFailed ht hdue hend _
        | some m =>
          simp only [sendEndIf_taken hsum (hput _ hend)] at h
          cases h
          have hd : Drained entries resp answers _ := .ended ht hdue
          rw [hafter] at hd
          exact hd
      · have hdue : ¬ EndDue entries resp n := by simp [EndDue, hall, hsum]
        simp only [sendEndIf_not_due hsum] at h
        cases h
        have hd : Drained entries resp answers _ := .wrote ht hdue
        rw [hafter] at hd
        exact hd
    · rw [if_neg hall] at h
      have hafter : resp.after n = some { resp with written := resp.written + n } := if_neg hall
      by_cases hpos : 0 < n
      · have hdue : ¬ EndDue entries resp n := by simp [EndDue, hall, Nat.ne_of_gt hpos]
        simp only [hpos, if_true] at h
        cases h
        have hd : Drained entries resp answers _ := .wrote ht hdue
        rw [hafter] at hd
        exact hd
      · obtain rfl : n = 0 := by omega
        simp only [Nat.lt_irrefl, if_false] at h
        by_cases hsum : resp.written + 0 + entries.getWritten.1 = entries.getWritten.2
        · have hdue : EndDue entries resp 0 := by
            simp only [EndDue, hall, if_false, true_and]
            exact hsum
          cases hend : entries.wire.taken [] answers.fin with
          | none =>
            simp only [sendEndIf_rejected hsum (hput _ hend)] at h
            cases h
            exact .endFailed ht hdue hend _
          | some m =>
            simp only [sendEndIf_taken hsum (hput _ hend)] at h
            cases h
            have hd : Drained entries resp answers _ := .ended ht hdue
            rw [hafter] at hd
            exact hd
        · have hdue : ¬ EndDue entries resp 0 := by
            simp only [EndDue, hall, if_false, true_and]
            exact hsum
          simp only [sendEndIf_not_due hsum] at h
          cases h
          have hd : Drained entries resp answers _ := .wrote ht hdue
          rw [hafter] at hd
          exact hd

theorem Drained.accepted_prefix {entries entries' : StreamEntries} {resp : PartialResponse}
    {answers : Answers} (h : Drained entries resp answers entries') :
    entries.wire.accepted <+: entries'.wire.accepted := by
  cases h with
  | failed => exact List.prefix_refl _
  | wrote | ended | endFailed => exact List.prefix_append _ _

/-- A round of the first loop on a response of which no headers are left. -/
theorem drain_cases {entries entries' : StreamEntries} {streamWritable : Except H3Error Bool}
    {answers : Answers} {http3Conn : Bool}
    (hresp : ∀ resp, entries.partialResponse = some resp →
      resp.headers = none ∧ resp.written < resp.body.length)
    (h : drain http3Conn entries streamWritable answers = .ok entries') :
    entries' = entries ∨ ∃ resp, streamWritable = .ok true ∧ entries.partialResponse = some resp ∧
      Drained entries resp answers entries' := by
  unfold drain at h
  split at h
  case isFalse =>
    cases h
    exact .inl rfl
  split at h
  · cases h
  · cases h
    exact .inl rfl
  cases hp : entries.partialResponse with
  | none =>
    simp only [hp] at h
    cases h
    exact .inl rfl
  | some resp =>
    obtain ⟨hheaders, hle⟩ := hresp resp hp
    simp only [hp] at h
    cases http3Conn with
    | false => simp [handleWritable, withHttp3Conn] at h
    | true =>
      simp only [handleWritable, withHttp3Conn, if_true, hp, hheaders] at h
      split at h
      · cases h
      · rename_i hbody
        cases h
        exact .inr ⟨resp, rfl, rfl, handleWritableBody_drained hle hbody⟩

/-! ## A chunk of a body -/

/-- The outcomes of serving a chunk of a body of `total` bytes, with another number of
them, `written`, written before. -/
inductive ServedBody (entries : StreamEntries) (content : BodyRequest) (written total : Nat)
    (answers : Answers) : StreamEntries → Prop
  | failed (taken : entries.wire.taken content.packet answers.body = none) :
      ServedBody entries content written total answers
        (entries.failed.park (.body content) (.body content.takeData.2))
  | wrote {n : Nat} (taken : entries.wire.taken content.packet answers.body = some n)
      (more : written + n ≠ total) :
      ServedBody entries content written total answers
        { entries.sent content.packet n with
          partialResponse := leftOver entries content.packet n }
  | ended {n : Nat} (taken : entries.wire.taken content.packet answers.body = some n)
      (all : written + n = total) :
      ServedBody entries content written total answers
        { entries.sent content.packet n with
          wire :=
            (entries.wire.put (content.packet.take n)).putEnd (entries.wire.endTaken answers.fin)
          partialResponse := leftOver entries content.packet n
          pendingBodyQueue := []
          channel := none }
  | endFailed {n : Nat} (taken : entries.wire.taken content.packet answers.body = some n)
      (all : written + n = total) (rejected : entries.wire.taken [] answers.fin = none) :
      ServedBody entries content written total answers
        { entries.sent content.packet n with
          wire := (entries.wire.put (content.packet.take n)).fail
          partialResponse := leftOver entries content.packet n
          pendingBodyQueue := []
          channel := none }

theorem ServedBody.accepted_prefix {entries entries' : StreamEntries} {content : BodyRequest}
    {answers : Answers} {written total : Nat}
    (h : ServedBody entries content written total answers entries') :
    entries.wire.accepted <+: entries'.wire.accepted := by
  cases h with
  | failed => exact List.prefix_refl _
  | wrote | ended | endFailed => exact List.prefix_append _ _

theorem serveBody_cases {entries entries' : StreamEntries} {content : BodyRequest}
    {answers : Answers} {http3Conn : Bool} {written total : Nat}
    (hheaders : entries.headersSend = true)
    (htracker : entries.bodySendingTracker = some (written, total)) (hne : written ≠ total)
    (h : serveBody http3Conn entries content answers = .ok entries') :
    ServedBody entries content written total answers entries' := by
  cases http3Conn with
  | false =>
    simp [serveBody, sendChunk, sendBodyResponse, sendData, withHttp3Conn, bind, Except.bind] at h
  | true =>
    have hflag : (written == total) = false := by simpa using hne
    simp only [serveBody, sendChunk, hheaders, if_true, BodyRequest.takeData, sendBodyResponse,
      StreamEntries.getWritten, htracker, Option.getD_some, hflag, bind_eq_ok] at h
    obtain ⟨sent, hsent, h⟩ := h
    cases ht : entries.wire.taken content.packet answers.body with
    | none =>
      rw [sendData_of_not_taken ht] at hsent
      cases hsent
      cases h
      exact .failed ht
    | some n =>
      rw [sendData_of_taken ht] at hsent
      cases hsent
      simp only [StreamEntries.isBodyTotallyWritten, StreamEntries.sent, htracker, Option.map_some,
        beq_iff_eq] at h
      by_cases hall : written + n = total
      · subst hall
        simp only [if_true, bind_eq_ok] at h
        obtain ⟨ended, hended, h⟩ := h
        let put : StreamEntries := { entries.sent content.packet n with
          partialResponse := leftOver entries content.packet n }
        have hput : put.wire.taken [] answers.fin = entries.wire.taken [] answers.fin := rfl
        have hend : sendData true put [] true answers.fin = .ok ended := by
          simpa [StreamEntries.sent, htracker, put] using hended
        cases hrej : entries.wire.taken [] answers.fin with
        | none =>
          rw [sendData_of_not_taken (hput.trans hrej)] at hend
          cases hend
          cases h
          exact .endFailed ht rfl hrej
        | some m =>
          rw [sendData_end (hput.trans hrej)] at hend
          cases hend
          cases h
          have hs : ServedBody entries content written (written + n) answers _ := .ended ht rfl
          simpa [StreamEntries.sent, StreamEntries.removeStreamQueue, StreamEntries.removeStream,
            htracker, put] using hs
      · simp only [hall, if_false] at h
        cases h
        have hs : ServedBody entries content written total answers _ := .wrote ht hall
        simpa [StreamEntries.sent, htracker] using hs

/-! ## A stream that is over -/

/-- The end of the stream was accepted, or a call failed. -/
def Wire.Over (wire : Wire) : Prop := wire.fin = true ∨ wire.failed = true

section Over
variable {wire : Wire} {entries entries' : StreamEntries} {answers : Answers} {http3Conn : Bool}
  {chunkable : Option ChunkableBody}

theorem Wire.Over.sendBody (h : wire.Over) (body : Bytes) (fin : Bool) (answer : Except H3Error Nat) :
    (wire.sendBody body fin answer).2.Over := by
  unfold Wire.sendBody
  split
  · exact h
  · cases answer with
    | ok n =>
      obtain hfin | hfailed := h
      · exact .inl (by simp [hfin])
      · exact .inr hfailed
    | error e =>
      cases e with
      | done => exact h
      | streamBlocked | transportDone | other => exact .inr rfl

theorem Wire.Over.sendHeaders (h : wire.Over) (fin : Bool) (answer : Except H3Error Unit) :
    (wire.sendHeaders fin answer).Over := by
  cases answer with
  | ok _ =>
    obtain hfin | hfailed := h
    · exact .inl (by simp [Wire.sendHeaders, hfin])
    · exact .inr hfailed
  | error e => exact h

theorem Wire.Over.sendEndIf (h : wire.Over) (due : Prop) [Decidable due] (answer : Except H3Error Nat) :
    (sendEndIf due wire answer).2.Over := by
  unfold SendLoop.sendEndIf
  split
  · exact h.sendBody _ _ _
  · exact h

theorem sendData_over {data : Bytes} {fin : Bool} {answer : Except H3Error Nat} {result : Option Nat}
    (h : entries.wire.Over)
    (hs : sendData http3Conn entries data fin answer = .ok (entries', result)) :
    entries'.wire.Over := by
  unfold sendData withHttp3Conn at hs
  split at hs
  · have hwire := h.sendBody data fin answer
    dsimp only at hs
    split at hs
    · cases hs
      exact hwire
    · cases hs
      split <;> exact hwire
  · cases hs

theorem serveBody_over {content : BodyRequest} (h : entries.wire.Over)
    (hs : serveBody http3Conn entries content answers = .ok entries') : entries'.wire.Over := by
  have hchunk : ∀ {e : StreamEntries} {taken : BodyRequest} {data : Bytes}, e.wire.Over →
      sendChunk http3Conn e content taken data answers = .ok entries' → entries'.wire.Over := by
    intro e taken data he hc
    simp only [sendChunk, bind_eq_ok] at hc
    obtain ⟨⟨sent, result⟩, hsent, hc⟩ := hc
    have hover := sendData_over he hsent
    cases result with
    | none =>
      cases hc
      exact hover
    | some n =>
      simp only at hc
      split at hc
      · simp only [bind_eq_ok, pure_eq_ok] at hc
        obtain ⟨⟨ended, _⟩, hended, rfl⟩ := hc
        have hended := sendData_over hover hended
        exact hended
      · cases hc
        exact hover
  unfold serveBody at hs
  cases hsend : entries.headersSend with
  | true =>
    simp only [hsend, if_true] at hs
    exact hchunk h hs
  | false =>
    simp only [hsend, Bool.false_eq_true, if_false] at hs
    refine hchunk ?_ hs
    exact h

theorem serveProgression_over {kind : BodyRequest → QueuedRequest} {content : BodyRequest}
    (h : entries.wire.Over)
    (hs : serveProgression http3Conn entries kind content answers = .ok entries') :
    entries'.wire.Over := by
  simp only [serveProgression, bind_eq_ok] at hs
  obtain ⟨⟨sent, result⟩, hsent, hs⟩ := hs
  have hover := sendData_over h hsent
  cases result <;> cases hs <;> exact hover

theorem handleWritableBody_over {resp : PartialResponse} {result : Option Bool} (h : entries.wire.Over)
    (hs : handleWritableBody entries resp answers = .ok (entries', result)) : entries'.wire.Over := by
  have hwire := h.sendBody (resp.body.drop resp.written) false answers.body
  unfold handleWritableBody at hs
  dsimp only at hs
  split at hs
  · cases hs
  split at hs
  · cases hs
    exact hwire
  split at hs
  · split at hs <;> cases hs <;> exact hwire.sendEndIf _ _
  · split at hs
    · cases hs
      exact hwire
    · split at hs <;> cases hs <;> exact hwire.sendEndIf _ _

theorem drain_over {streamWritable : Except H3Error Bool} (h : entries.wire.Over)
    (hs : drain http3Conn entries streamWritable answers = .ok entries') : entries'.wire.Over := by
  have hwritable : ∀ {next : StreamEntries} {result : Option Bool},
      handleWritable http3Conn entries answers = .ok (next, result) → next.wire.Over := by
    intro next result hw
    unfold handleWritable at hw
    split at hw
    · cases hw
    · cases hw
      exact h
    split at hw
    · split at hw
      · cases hw
        exact h
      · exact handleWritableBody_over (h.sendHeaders false answers.headers) hw
    · exact handleWritableBody_over h hw
  unfold drain at hs
  split at hs
  case isFalse =>
    cases hs
    exact h
  split at hs
  · cases hs
  · cases hs
    exact h
  split at hs
  · split at hs
    · cases hs
    · rename_i next _ hnext
      cases hs
      exact hwritable hnext
  · cases hs
    exact h

theorem startBody_over {streamId : StreamId} {content : HeaderRequest} {bodyLen : Option Nat}
    {file : FileAnswers} (h : entries.wire.Over)
    (hs : startBody streamId entries content bodyLen file = .ok (entries', chunkable)) :
    entries'.wire.Over := by
  unfold startBody at hs
  split at hs
  · simp only [bind_eq_ok, pure_eq_ok, Prod.mk.injEq] at hs
    obtain ⟨_, -, rfl, -⟩ := hs
    exact h
  · cases hs
    exact h
  · cases hs
    exact h

theorem serveHeader_over {streamId : StreamId} {content : HeaderRequest} (h : entries.wire.Over)
    (hs : serveHeader http3Conn streamId entries content answers = .ok (entries', chunkable)) :
    entries'.wire.Over := by
  have hsent := fun fin => h.sendHeaders fin answers.headers
  simp only [serveHeader, bind_eq_ok] at hs
  obtain ⟨bodyLen, -, hs⟩ := hs
  cases hp : content.priorityMode <;> simp only [hp, bind_eq_ok] at hs
  case sendWithPriority =>
    cases hs
    exact h
  all_goals obtain ⟨answer, -, hs⟩ := hs
  case sendHeader =>
    cases answer with
    | ok _ => exact startBody_over (hsent _) hs
    | error e =>
      cases hs
      exact h
  case sendAdditionnalHeader =>
    cases answer with
    | ok _ =>
      refine startBody_over ?_ hs
      split <;> exact hsent _
    | error e =>
      cases hs
      exact h
  case sendHeader100 =>
    cases answer with
    | ok _ =>
      cases hs
      exact hsent _
    | error e =>
      cases hs
      exact h
  case openStream =>
    cases answer with
    | ok _ =>
      cases hs
      exact hsent _
    | error e =>
      cases e with
      | other =>
        cases hs
        exact .inr rfl
      | done | streamBlocked | transportDone =>
        cases hs
        exact h

theorem nextItem_wire {item : QueuedRequest} {popped : StreamEntries}
    (h : nextItem entries = some (item, popped)) : popped.wire = entries.wire := by
  unfold nextItem openingRetry at h
  split at h
  · rename_i retry hretry
    split at hretry
    · split at hretry
      · cases hretry
        cases h
        rfl
      · cases hretry
    · cases hretry
  · split at h
    · cases h
    · simp only [Option.bind_eq_bind, Option.bind_eq_some_iff] at h
      obtain ⟨channel, -, ⟨front, rest⟩, -, h⟩ := h
      cases h
      rfl

/-- Neither loop over the writable streams opens a stream again that is over. -/
theorem serve_over {streamId : StreamId} (h : entries.wire.Over)
    (hs : serve http3Conn streamId entries answers = .ok (entries', chunkable)) :
    entries'.wire.Over := by
  unfold serve at hs
  split at hs
  · cases hs
    exact h
  cases hnext : nextItem entries with
  | none =>
    simp only [hnext] at hs
    cases hs
    exact h
  | some next =>
    obtain ⟨item, popped⟩ := next
    have hpopped : popped.wire.Over := by rwa [nextItem_wire hnext]
    cases item with
    | header content =>
      simp only [hnext] at hs
      exact serveHeader_over hpopped hs
    | body content =>
      simp only [hnext, bind_eq_ok, pure_eq_ok, Prod.mk.injEq] at hs
      obtain ⟨_, hserved, rfl, -⟩ := hs
      exact serveBody_over hpopped hserved
    | streamData content | bodyProgression content =>
      simp only [hnext, bind_eq_ok, pure_eq_ok, Prod.mk.injEq] at hs
      obtain ⟨_, hserved, rfl, -⟩ := hs
      exact serveProgression_over hpopped hserved

end Over

end FacesHttp3.SendLoop
