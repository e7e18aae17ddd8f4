import FacesHttp3.SendLoop.Machine
import FacesHttp3.SendLoop.Sends

/-! # The retry of what could not be sent

An item whose send fails is put back on the front of the pending queue of its
stream, but what takes it from there looks for openings only. Any other item stays
on the front and blocks the stream. A chunk of a body has also lost its bytes by
then. -/

namespace FacesHttp3.SendLoop
open FacesHttp3.Lib FacesHttp3.Lib.Exec FacesHttp3.Lib.Outcome FacesHttp3.Request

/-- What was parked is what was popped, and without a partial response the front of
the pending queue is what the loop attempts next. -/
def RetryLaw (s : State) : Prop :=
  ∀ streamId, (∀ parking ∈ (s.streams streamId).parkings, parking.2 = parking.1) ∧
    ((s.streams streamId).partialResponse = none →
      ∀ item pending, (s.streams streamId).pendingBodyQueue = item :: pending →
        nextItem (s.streams streamId) =
          some (item, { s.streams streamId with pendingBodyQueue := pending }))

/-- The send of an item fails. A header with a priority is not sent at all. -/
def QueuedRequest.Refused (wire : Wire) (answers : Answers) : QueuedRequest → Prop
  | .header request => request.priorityMode ≠ .sendWithPriority ∧ answers.headers ≠ .ok ()
  | .body content | .bodyProgression content | .streamData content =>
    wire.taken content.packet answers.body = none

/-- The send of the item attempted does not fail, unless it opens a stream. -/
def OnlyOpeningsRefused (s : State) : Action → Prop
  | .serve streamId answers => (s.streams streamId).partialResponse = none →
    ∀ item popped, nextItem (s.streams streamId) = some (item, popped) →
      item.isOpening ∨ ¬ item.Refused (s.streams streamId).wire answers
  | _ => True

/-- Only openings wait, and they were parked as they are. -/
structure Retryable (entries : StreamEntries) : Prop where
  openings : ∀ item ∈ entries.pendingBodyQueue, item.isOpening = true
  unchanged : ∀ parking ∈ entries.parkings, parking.2 = parking.1

section Entries
variable {entries entries' popped : StreamEntries} {answers : Answers} {http3Conn : Bool}
  {item : QueuedRequest} {streamId : StreamId}

theorem retryable_front (h : Retryable entries) {pending : List QueuedRequest}
    (hpending : entries.pendingBodyQueue = item :: pending) :
    nextItem entries = some (item, { entries with pendingBodyQueue := pending }) := by
  have hopening := h.openings item (by simp [hpending])
  simp [nextItem, openingRetry, hpending, hopening]

theorem Retryable.park_opening (h : Retryable entries) (hopening : item.isOpening = true) :
    Retryable (entries.park item item) := by
  refine ⟨fun i hi => ?_, fun parking hparking => ?_⟩
  · rcases List.mem_cons.mp hi with rfl | hi
    · exact hopening
    · exact h.openings i hi
  · rcases List.mem_append.mp hparking with hparking | hparking
    · exact h.unchanged parking hparking
    · rw [List.mem_singleton.mp hparking]

/-- The pending queue is as it was, or was emptied, and nothing was parked. -/
structure NotParked (entries entries' : StreamEntries) : Prop where
  pending : entries'.pendingBodyQueue = entries.pendingBodyQueue ∨ entries'.pendingBodyQueue = []
  parkings : entries'.parkings = entries.parkings

theorem NotParked.trans {entries₁ entries₂ entries₃ : StreamEntries}
    (h : NotParked entries₁ entries₂) (h' : NotParked entries₂ entries₃) :
    NotParked entries₁ entries₃ := by
  refine ⟨?_, h'.parkings.trans h.parkings⟩
  rcases h'.pending with hp' | hp'
  · rw [hp']
    exact h.pending
  · exact .inr hp'

theorem Retryable.of_notParked (h : Retryable entries) (hn : NotParked entries entries') :
    Retryable entries' := by
  refine ⟨fun i hi => ?_, fun parking hparking => ?_⟩
  · rcases hn.pending with hp | hp
    · exact h.openings i (hp ▸ hi)
    · rw [hp] at hi
      cases hi
  · exact h.unchanged parking (hn.parkings ▸ hparking)

/-- What `send_body_response` did to the queue, and when it says the send failed. -/
theorem sendData_notParked {data : Bytes} {fin : Bool} {answer : Except H3Error Nat}
    {result : Option Nat} (h : sendData http3Conn entries data fin answer = .ok (entries', result)) :
    NotParked entries entries' ∧ (result = none ↔ entries.wire.taken data answer = none) := by
  cases http3Conn with
  | false => simp [sendData, withHttp3Conn] at h
  | true =>
    simp only [sendData, withHttp3Conn, if_true, writtenOf_sendBody] at h
    cases ht : entries.wire.taken data answer with
    | none =>
      simp only [ht] at h
      cases h
      exact ⟨⟨.inl rfl, rfl⟩, by simp⟩
    | some n =>
      simp only [ht] at h
      cases h
      refine ⟨?_, by simp⟩
      by_cases hlt : n < data.length <;> simp only [hlt, if_true, if_false] <;>
        exact ⟨.inl rfl, rfl⟩

/-- Whether a call fails does not depend on the bytes it is offered. -/
theorem taken_eq_none_iff {wire : Wire} {answer : Except H3Error Nat} (body body' : Bytes) :
    wire.taken body answer = none ↔ wire.taken body' answer = none := by
  unfold Wire.taken
  cases wire.failed with
  | true => simp
  | false =>
    cases answer with
    | ok n => simp
    | error e => cases e <;> simp

theorem sendChunk_notParked {content taken : BodyRequest} {data : Bytes}
    (haccepted : entries.wire.taken data answers.body ≠ none)
    (h : sendChunk http3Conn entries content taken data answers = .ok entries') :
    NotParked entries entries' := by
  simp only [sendChunk, bind_eq_ok] at h
  obtain ⟨⟨entries₁, result⟩, hsent, h⟩ := h
  obtain ⟨hfirst, hresult⟩ := sendData_notParked hsent
  cases result with
  | none => exact absurd (hresult.mp rfl) haccepted
  | some n =>
    simp only at h
    split at h
    · simp only [bind_eq_ok, pure_eq_ok] at h
      obtain ⟨⟨entries₂, _⟩, hended, rfl⟩ := h
      exact ⟨.inr rfl, (hfirst.trans (sendData_notParked hended).1).parkings⟩
    · cases h
      exact hfirst

theorem serveBody_notParked {content : BodyRequest}
    (haccepted : entries.wire.taken content.packet answers.body ≠ none)
    (h : serveBody http3Conn entries content answers = .ok entries') :
    NotParked entries entries' := by
  unfold serveBody at h
  cases hsend : entries.headersSend with
  | true =>
    simp only [hsend, if_true] at h
    exact sendChunk_notParked haccepted h
  | false =>
    -- the bytes are in the partial response and the send is empty
    simp only [hsend, Bool.false_eq_true, if_false] at h
    let resp : PartialResponse := { headers := none, body := content.packet, written := 0 }
    let entries₁ : StreamEntries := { entries with partialResponse := some resp }
    have hempty : entries₁.wire.taken [] answers.body ≠ none :=
      mt (taken_eq_none_iff _ _).mp haccepted
    have hsent : NotParked entries₁ entries' := sendChunk_notParked hempty h
    exact ⟨hsent.pending, hsent.parkings⟩

theorem serveProgression_notParked {kind : BodyRequest → QueuedRequest} {content : BodyRequest}
    (haccepted : entries.wire.taken content.packet answers.body ≠ none)
    (h : serveProgression http3Conn entries kind content answers = .ok entries') :
    NotParked entries entries' := by
  simp only [serveProgression, BodyRequest.takeData, sendBodyResponseProgression,
    bind_eq_ok] at h
  obtain ⟨⟨entries₁, result⟩, hsent, h⟩ := h
  obtain ⟨hnot, hresult⟩ := sendData_notParked hsent
  cases result with
  | none => exact absurd (hresult.mp rfl) haccepted
  | some n =>
    cases h
    exact hnot

theorem startBody_notParked {content : HeaderRequest} {bodyLen : Option Nat} {file : FileAnswers}
    {chunkable : Option ChunkableBody}
    (h : startBody streamId entries content bodyLen file = .ok (entries', chunkable)) :
    NotParked entries entries' := by
  unfold startBody at h
  split at h
  · simp only [bind_eq_ok, pure_eq_ok, Prod.mk.injEq] at h
    obtain ⟨_, -, rfl, -⟩ := h
    exact ⟨.inl rfl, rfl⟩
  · cases h
    exact ⟨.inl rfl, rfl⟩
  · cases h
    exact ⟨.inl rfl, rfl⟩

/-- A header is parked as it is when its send fails. -/
theorem serveHeader_parked {content : HeaderRequest} {chunkable : Option ChunkableBody}
    (h : serveHeader http3Conn streamId entries content answers = .ok (entries', chunkable)) :
    NotParked entries entries' ∨ (QueuedRequest.header content).Refused entries.wire answers ∧
      entries' = entries.park (.header content) (.header content) := by
  simp only [serveHeader, bind_eq_ok] at h
  obtain ⟨bodyLen, -, h⟩ := h
  cases hmode : content.priorityMode <;> simp only [hmode, bind_eq_ok] at h
  case sendWithPriority =>
    cases h
    exact .inl ⟨.inl rfl, rfl⟩
  all_goals
    obtain ⟨answer, hanswer, h⟩ := h
    obtain rfl : answers.headers = answer := by
      cases http3Conn with
      | false => cases hanswer
      | true => exact Except.ok.inj hanswer
    have hrefused : ∀ e, answers.headers = .error e →
        (QueuedRequest.header content).Refused entries.wire answers := by
      intro e he
      exact ⟨by simp [hmode], by simp [he]⟩
  case openStream =>
    cases he : answers.headers with
    | ok _ =>
      rw [he] at h
      cases h
      exact .inl ⟨.inl rfl, rfl⟩
    | error e =>
      rw [he] at h
      cases e with
      | done | streamBlocked | transportDone =>
        cases h
        exact .inr ⟨hrefused _ he, rfl⟩
      | other =>
        cases h
        exact .inl ⟨.inr rfl, rfl⟩
  case sendHeader100 =>
    cases he : answers.headers with
    | ok _ =>
      rw [he] at h
      cases h
      exact .inl ⟨.inl rfl, rfl⟩
    | error e =>
      rw [he] at h
      cases h
      exact .inr ⟨hrefused e he, rfl⟩
  case sendHeader | sendAdditionnalHeader =>
    cases he : answers.headers with
    | ok _ =>
      rw [he] at h
      refine .inl (NotParked.trans ?_ (startBody_notParked h))
      first
        | exact ⟨.inl rfl, rfl⟩
        | split <;> exact ⟨.inl rfl, rfl⟩
    | error e =>
      rw [he] at h
      cases h
      exact .inr ⟨hrefused e he, rfl⟩

/-- What is popped for an attempt leaves the front of the pending queue or a queue
of the channel. -/
theorem retryable_popped (h : Retryable entries) (hitem : nextItem entries = some (item, popped)) :
    Retryable popped ∧ popped.wire = entries.wire ∧ popped.parkings = entries.parkings := by
  cases hpending : entries.pendingBodyQueue with
  | cons front pending =>
    rw [retryable_front h hpending] at hitem
    cases hitem
    exact ⟨⟨fun i hi => h.openings i (by simp [hpending, hi]), h.unchanged⟩, rfl, rfl⟩
  | nil =>
    simp only [nextItem, openingRetry, isStreamQueueEmpty, hpending, List.isEmpty_nil, Bool.not_true,
      Bool.false_eq_true, if_false, Option.bind_eq_bind, Option.bind_eq_some_iff] at hitem
    obtain ⟨channel, -, ⟨_, rest⟩, -, hitem⟩ := hitem
    cases hitem
    exact ⟨⟨nofun, h.unchanged⟩, rfl, rfl⟩

theorem serve_retryable {chunkable : Option ChunkableBody} (h : Retryable entries)
    (hrefused : entries.partialResponse = none → ∀ item popped,
      nextItem entries = some (item, popped) →
        item.isOpening ∨ ¬ item.Refused entries.wire answers)
    (hs : serve http3Conn streamId entries answers = .ok (entries', chunkable)) :
    Retryable entries' := by
  unfold serve at hs
  split at hs
  · cases hs
    exact h
  · rename_i hresp
    have hunfinished : entries.partialResponse = none := by simpa using hresp
    cases hnext : nextItem entries with
    | none =>
      simp only [hnext] at hs
      cases hs
      exact h
    | some next =>
      obtain ⟨item, popped⟩ := next
      obtain ⟨hpopped, hwire, -⟩ := retryable_popped h hnext
      have hitem := hrefused hunfinished item popped hnext
      rw [← hwire] at hitem
      cases item with
      | body content =>
        simp only [hnext, bind_eq_ok, pure_eq_ok, Prod.mk.injEq] at hs
        obtain ⟨_, hs, rfl, -⟩ := hs
        exact hpopped.of_notParked (serveBody_notParked (hitem.resolve_left Bool.false_ne_true) hs)
      | streamData content | bodyProgression content =>
        simp only [hnext, bind_eq_ok, pure_eq_ok, Prod.mk.injEq] at hs
        obtain ⟨_, hs, rfl, -⟩ := hs
        exact hpopped.of_notParked (serveProgression_notParked (hitem.resolve_left Bool.false_ne_true) hs)
      | header content =>
        simp only [hnext] at hs
        rcases serveHeader_parked hs with hnot | ⟨hr, rfl⟩
        · exact hpopped.of_notParked hnot
        · exact hpopped.park_opening (hitem.resolve_right fun hn => hn hr)

theorem handleWritableBody_notParked {resp : PartialResponse} {result : Option Bool}
    (h : handleWritableBody entries resp answers = .ok (entries', result)) :
    NotParked entries entries' := by
  unfold handleWritableBody at h
  by_cases hlt : resp.body.length < resp.written
  · simp only [hlt, if_true] at h
    cases h
  simp only [hlt, if_false, writtenOf_sendBody] at h
  split at h
  · cases h
    exact ⟨.inl rfl, rfl⟩
  split at h
  · split at h <;> cases h <;> exact ⟨.inl rfl, rfl⟩
  split at h
  · cases h
    exact ⟨.inl rfl, rfl⟩
  · split at h <;> cases h <;> exact ⟨.inl rfl, rfl⟩

theorem drain_notParked {streamWritable : Except H3Error Bool}
    (h : drain http3Conn entries streamWritable answers = .ok entries') :
    NotParked entries entries' := by
  have hsame : NotParked entries entries := ⟨.inl rfl, rfl⟩
  unfold drain at h
  split at h
  case isFalse =>
    cases h
    exact hsame
  split at h
  · cases h
  · cases h
    exact hsame
  split at h
  case h_2 =>
    cases h
    exact hsame
  split at h
  · cases h
  rename_i hwritable
  cases h
  unfold handleWritable at hwritable
  split at hwritable
  · cases hwritable
  · cases hwritable
    exact hsame
  split at hwritable
  · split at hwritable
    · cases hwritable
      exact hsame
    · have hbody := handleWritableBody_notParked hwritable
      exact ⟨hbody.pending, hbody.parkings⟩
  · exact handleWritableBody_notParked hwritable

end Entries

/-! ## Runs -/

theorem retryable_step {s t : State} {a : Action} (h : ∀ streamId, Retryable (s.streams streamId))
    (hrefused : OnlyOpeningsRefused s a) (hstep : step s a = some t) (streamId : StreamId) :
    Retryable (t.streams streamId) := by
  have hs := h streamId
  rcases step_writes hstep streamId with hsame | hwrites
  · rw [hsame]
    exact hs
  · generalize t.streams streamId = entries at hwrites
    cases hwrites with
    | insertNewChannel | pushHigh | pushStream | pushChunk | resetAsked =>
      exact ⟨hs.openings, hs.unchanged⟩
    | reset => exact ⟨nofun, hs.unchanged⟩
    | drained hd => exact hs.of_notParked (drain_notParked hd)
    | served hserved => exact serve_retryable hs hrefused hserved

/-- Every item parked is as it was popped and is attempted again first, in every
run in which no send fails but that of an opening. -/
theorem retry_of_openings {s : State} {run : List Action}
    (hrefused : Every step OnlyOpeningsRefused {} run) (hrun : exec step {} run = some s) :
    RetryLaw s := by
  have hinit : Retryable {} := ⟨fun _ h => absurd h List.not_mem_nil, fun _ h => absurd h List.not_mem_nil⟩
  have h : ∀ streamId, Retryable (s.streams streamId) :=
    exec_invariant_of_every (P := fun s => ∀ streamId, Retryable (s.streams streamId))
      (fun _ => hinit) (fun _ _ _ h hrefused hstep => retryable_step h hrefused hstep)
      hrefused hrun
  intro streamId
  exact ⟨(h streamId).unchanged, fun _ _ _ hpending => retryable_front (h streamId) hpending⟩

/-- A stream is opened at the second attempt. -/
def openedLate : List Action :=
  let header : HeaderRequest :=
    { headers := [], isEnd := false, priorityMode := .openStream, attachedBody := none }
  [.http3Connected, .insertNewChannel 0, .sendToHighPriorityQueue 0 (.header header),
    .serve 0 { headers := .error .streamBlocked }, .serve 0 {}]

theorem retry_of_openings_openedLate : ∃ s, exec step {} openedLate = some s ∧ RetryLaw s := by
  obtain ⟨s, hs⟩ := Option.isSome_iff_exists.mp (rfl : (exec step {} openedLate).isSome)
  refine ⟨s, hs, retry_of_openings ?_ hs⟩
  refine ⟨trivial, ?_⟩
  intro _ hnext
  cases hnext
  refine ⟨trivial, ?_⟩
  intro _ hnext
  cases hnext
  refine ⟨trivial, ?_⟩
  intro _ hnext
  cases hnext
  refine ⟨fun _ item popped hitem => .inl ?_, ?_⟩
  · cases hitem
    rfl
  intro _ hnext
  cases hnext
  refine ⟨fun _ item popped hitem => .inl ?_, fun _ _ => trivial⟩
  cases hitem
  rfl

/-- A response header whose send is blocked stays on the front of the pending
queue and is not attempted again. A chunk that is not taken is parked without its
bytes. -/
theorem parked_not_retried :
    let header : HeaderRequest :=
      { headers := [], isEnd := false, priorityMode := .sendHeader,
        attachedBody := some (.data [1, 2] (some 0)) }
    let queued : List Action :=
      [.http3Connected, .insertNewChannel 0, .sendToHighPriorityQueue 0 (.header header)]
    (∃ s, exec step {} (queued ++ [.serve 0 { headers := .error .streamBlocked }]) = some s ∧
      (s.streams 0).pendingBodyQueue = [.header header] ∧
      (s.streams 0).partialResponse.isNone ∧ (nextItem (s.streams 0)).isNone ∧
      ¬ RetryLaw s) ∧
    ∃ s, exec step {} (queued ++
        [.serve 0 {}, .chunk false, .serve 0 { body := .error .other }]) = some s ∧
      (s.streams 0).parkings = [(.body { packetId := 0, packet := [1, 2], isEnd := true },
        .body { packetId := 0, packet := [], isEnd := true })] := by
  refine ⟨⟨_, rfl, rfl, rfl, rfl, fun hlaw => ?_⟩, _, rfl, rfl⟩
  cases (hlaw 0).2 rfl _ _ rfl

end FacesHttp3.SendLoop
