import FacesHttp3.SendLoop.Delivery

/-! # The end of a response body

Two writers decide on the end of the stream by their own arithmetic on the counter
of the bytes written: the loop after a chunk, and `handle_writable`. Both may go
wrong. `EndInOrder` is what it takes for the end to come with the last byte and
not before, `EndAccepted` for it not to be forgotten there. -/

namespace FacesHttp3.SendLoop
open FacesHttp3.Lib FacesHttp3.Lib.Exec FacesHttp3.Lib.Outcome FacesHttp3.Request

/-- `handle_writable` neither has the end of the stream accepted in the middle of a
chunk nor is it answered with a failure at the last byte. -/
def EndInOrder (streamId : StreamId) (s : State) : Action → Prop
  | .drain id (.ok true) answers => id = streamId →
    ∀ resp, (s.streams id).partialResponse = some resp →
      ¬ EndEarly (s.streams id) resp answers ∧ ¬ EndRejected (s.streams id) resp answers
  | _ => True

/-- The empty send that comes with the last byte is accepted. -/
def EndAccepted (streamId : StreamId) (s : State) : Action → Prop
  | .drain id (.ok true) answers => id = streamId →
    ∀ resp, (s.streams id).partialResponse = some resp → ¬ EndMissed (s.streams id) resp answers
  | .serve id answers => id = streamId → (s.streams id).partialResponse = none →
    ∀ content popped, nextItem (s.streams id) = some (.body content, popped) →
      ¬ ChunkEndMissed (s.streams id) content (s.streams id).getWritten.2 answers
  | _ => True

theorem endMissed_of_endRejected {entries : StreamEntries} {resp : PartialResponse}
    {answers : Answers} (h : EndRejected entries resp answers) : EndMissed entries resp answers := by
  obtain ⟨n, htaken, hdue, hlast, hrejected⟩ := h
  exact ⟨n, htaken, hdue, hlast, endTaken_of_not_taken hrejected⟩

/-- Where the loop takes a header, the source of the body has its bytes. -/
def ReadsBody (source : BodySource) (bytes : Bytes) (streamId : StreamId) (s : State) : Action → Prop
  | .serve id answers => id = streamId → ∀ header popped,
      nextItem (s.streams id) = some (.header header, popped) → source.Reads bytes answers.file
  | _ => True

theorem readsBody_data (bytes : Bytes) (streamId : StreamId) (s : State) (a : Action) :
    ReadsBody .data bytes streamId s a := by
  cases a with
  | serve => exact fun _ _ _ _ => trivial
  | _ => trivial

/-- What a step keeps of the order of the bytes and of their end. -/
structure Advances (bytes : Bytes) (entries entries' : StreamEntries) (inOrder accepted : Prop) :
    Prop where
  grows : entries.wire.accepted <+: entries'.wire.accepted
  ordered : inOrder → EndOrdered bytes entries entries'
  kept : accepted → EndKept bytes entries entries'

section Steps
variable {source : BodySource} {bytes : Bytes} {entries entries' : StreamEntries}
  {chunkables : List ChunkableBody} {streamId : StreamId} {answers : Answers} {http3Conn : Bool}
  {inOrder accepted : Prop}

theorem advances_of_still (h : Still entries entries') :
    Advances bytes entries entries' inOrder accepted := by
  obtain ⟨haccepted, hfin⟩ := h
  refine ⟨haccepted ▸ List.prefix_refl _, fun _ hended => .inl (hfin ▸ hended), fun _ hall => ?_⟩
  exact .inr ⟨haccepted ▸ hall, hfin⟩

theorem delivering_requestReset (h : Delivering source bytes entries chunkables) :
    Delivering source bytes entries.requestReset chunkables := by
  cases h with
  | queued h =>
    obtain ⟨channel, hch, hlow, hheader⟩ := h.header
    refine .queued ⟨h.partialResponse, h.tracker, h.wire, h.chunkables, ?_⟩
    exact ⟨{ channel with reset := true }, by simp [StreamEntries.requestReset, hch], hlow, hheader⟩
  | sending h =>
    have hqueued : queuedBytes entries.requestReset = queuedBytes entries := by
      cases hch : entries.channel <;> simp [queuedBytes, StreamEntries.requestReset, hch]
    refine .sending ⟨h.headersSend, h.tracker, h.live, h.pending, h.resp, ?_, ?_, ?_⟩
    · intro channel' hch'
      obtain ⟨channel, hch, rfl⟩ := Option.map_eq_some_iff.mp hch'
      exact h.channel channel hch
    · rcases h.cutting with hnil | ⟨c, channel, hc, hch, hrest⟩
      · exact .inl hnil
      · refine .inr ⟨c, { channel with reset := true }, hc, ?_, hrest⟩
        simp [StreamEntries.requestReset, hch]
    · rw [hqueued]
      exact h.conserved
  | failing h =>
    refine .failing ⟨h.headersSend, h.accepted, h.tracker, h.failed, h.pending, ?_⟩
    intro channel' hch'
    obtain ⟨channel, hch, rfl⟩ := Option.map_eq_some_iff.mp hch'
    exact h.channel channel hch
  | stopped h =>
    refine .stopped ⟨h.accepted, h.written, h.partialResponse, h.pending, ?_⟩
    simp [StreamEntries.requestReset, h.channel]

theorem delivering_chunked {chunkable : ChunkableBody} {rest : List ChunkableBody}
    (h : Delivering source bytes entries (chunkable :: rest)) :
    Delivering source bytes (entries.pushLow chunkable.sender chunkable.read.1)
      (rest ++ chunkable.read.2.toList) := by
  cases h with
  | queued h => cases h.chunkables
  | sending h => exact .sending (sending_chunked h)
  | failing h => exact .failing (failing_pushLow h _ _)
  | stopped h =>
    refine .stopped ⟨h.accepted, h.written, h.partialResponse, h.pending, ?_⟩
    simp [StreamEntries.pushLow, h.channel]

/-- A round of the first loop. -/
theorem delivering_drained {streamWritable : Except H3Error Bool}
    (h : Delivering source bytes entries chunkables)
    (hd : drain http3Conn entries streamWritable answers = .ok entries')
    (hearly : ∀ resp, streamWritable = .ok true → entries.partialResponse = some resp →
      (inOrder → ¬ EndEarly entries resp answers) ∧ ¬ EndRejected entries resp answers ∧
        (accepted → ¬ EndMissed entries resp answers)) :
    Delivering source bytes entries' chunkables ∧ Advances bytes entries entries' inOrder accepted := by
  cases h with
  | queued h =>
    rw [queued_drained h hd]
    exact ⟨.queued h, advances_of_still ⟨rfl, rfl⟩⟩
  | sending h =>
    rcases drain_cases h.resp hd with rfl | ⟨resp, hwritable, hresp, hdrained⟩
    · exact ⟨.sending h, advances_of_still ⟨rfl, rfl⟩⟩
    · obtain ⟨hearly, hreject, hmissed⟩ := hearly resp hwritable hresp
      obtain ⟨hphase, hordered, hkept⟩ := sending_drained h hresp hdrained hreject
      exact ⟨hphase.elim .sending .failing, hdrained.accepted_prefix,
        fun ho => hordered (hearly ho), fun ha => hkept (hmissed ha)⟩
  | failing h =>
    obtain ⟨hfailing, hstill⟩ := failing_drained h hd
    exact ⟨.failing hfailing, advances_of_still hstill⟩
  | stopped h =>
    rw [stopped_drained h hd]
    exact ⟨.stopped h, advances_of_still ⟨rfl, rfl⟩⟩

/-- One item of the second loop while a response is sent. -/
theorem sending_serve {chunkable : Option ChunkableBody}
    (h : Sending bytes entries chunkables)
    (hs : serve http3Conn streamId entries answers = .ok (entries', chunkable))
    (hmissed : accepted → entries.partialResponse = none →
      ∀ content popped, nextItem entries = some (.body content, popped) →
        ¬ ChunkEndMissed entries content entries.getWritten.2 answers) :
    Delivering source bytes entries' (chunkables ++ chunkable.toList) ∧
      Advances bytes entries entries' inOrder accepted := by
  have hsame : ∀ {e : StreamEntries}, e = entries → chunkable = none →
      Delivering source bytes e (chunkables ++ chunkable.toList) ∧
        Advances bytes entries e inOrder accepted := by
    rintro _ rfl rfl
    exact ⟨.sending (by simpa using h), advances_of_still ⟨rfl, rfl⟩⟩
  unfold serve at hs
  split at hs
  · cases hs
    exact hsame rfl rfl
  · rename_i hresp
    have hunfinished : entries.partialResponse = none := by simpa using hresp
    rcases sending_nextItem h with hnone | ⟨channel, content, low, hch, hlow, hpacket, hsome⟩
    · simp only [hnone] at hs
      cases hs
      exact hsame rfl rfl
    · simp only [hsome, bind_eq_ok, pure_eq_ok, Prod.mk.injEq] at hs
      obtain ⟨_, hbody, rfl, rfl⟩ := hs
      have htotal : entries.getWritten.2 = bytes.length := by
        simp [StreamEntries.getWritten, h.tracker]
      -- a chunk with bytes in it is queued, so not all of the body is written
      have hlt : entries.wire.accepted.length < bytes.length := by
        have hlen := congrArg List.length h.conserved
        have hpos := List.length_pos_iff.mpr hpacket
        simp only [queuedBytes, hch, hlow, List.flatMap_cons, packetOf, List.length_append] at hlen
        omega
      let popped : StreamEntries := { entries with channel := some { channel with low } }
      have hheaders : popped.headersSend = true := h.headersSend
      have hserved := serveBody_cases hheaders h.tracker (Nat.ne_of_lt hlt) hbody
      obtain ⟨hphase, hordered, hkept⟩ := sending_served h hunfinished hch hlow hserved
      refine ⟨?_, hserved.accepted_prefix, fun _ => hordered, fun ha => hkept ?_⟩
      · rw [Option.toList_none, List.append_nil]
        exact hphase.elim .sending .failing
      · rw [← htotal]
        exact hmissed ha hunfinished content _ hsome

/-- One item of the second loop. -/
theorem delivering_served {chunkable : Option ChunkableBody}
    (h : Delivering source bytes entries chunkables) (hne : bytes ≠ [])
    (hreads : ∀ header popped, nextItem entries = some (.header header, popped) →
      source.Reads bytes answers.file)
    (hs : serve http3Conn streamId entries answers = .ok (entries', chunkable))
    (hmissed : accepted → entries.partialResponse = none →
      ∀ content popped, nextItem entries = some (.body content, popped) →
        ¬ ChunkEndMissed entries content entries.getWritten.2 answers) :
    Delivering source bytes entries' (chunkables ++ chunkable.toList) ∧
      Advances bytes entries entries' inOrder accepted := by
  cases h with
  | queued h =>
    obtain ⟨hphase, hwire⟩ := queued_served h hne hreads hs
    exact ⟨hphase.elim .queued .sending, advances_of_still (still_of_wire hwire)⟩
  | sending h => exact sending_serve h hs hmissed
  | failing h =>
    obtain ⟨hfailing, hstill⟩ := failing_served h hs
    exact ⟨.failing hfailing, advances_of_still hstill⟩
  | stopped h =>
    rw [stopped_served h hs]
    exact ⟨.stopped h, advances_of_still ⟨rfl, rfl⟩⟩

end Steps

section Runs
variable {source : BodySource} {bytes : Bytes} {streamId : StreamId} {s t : State} {a : Action}

/-- One step of the connection, seen from the stream of the response. -/
theorem delivering_step (hne : bytes ≠ []) (hstep : StreamStep streamId s t a)
    (h : Delivering source bytes (s.streams streamId) (s.chunkables streamId))
    (hreads : ReadsBody source bytes streamId s a)
    (hend : EndInOrder streamId s a ∨ EndAccepted streamId s a) :
    Delivering source bytes (t.streams streamId) (t.chunkables streamId) ∧
      Advances bytes (s.streams streamId) (t.streams streamId) (EndInOrder streamId s a)
        (EndAccepted streamId s a) := by
  cases hstep with
  | elsewhere hentries hchunkables =>
    rw [hentries, hchunkables]
    exact ⟨h, advances_of_still ⟨rfl, rfl⟩⟩
  | @waited chunkable rest hentries hbefore hafter =>
    rw [hentries, hafter]
    rw [hbefore] at h
    refine ⟨?_, advances_of_still ⟨rfl, rfl⟩⟩
    cases h with
    | queued h => cases h.chunkables
    | sending h =>
      -- it is the only body of the stream
      rcases h.cutting with hnil | ⟨c, channel, hc, -⟩
      · cases hnil
      · obtain ⟨rfl, rfl⟩ := List.cons.inj hc
        exact .sending h
    | failing h => exact .failing h
    | stopped h => exact .stopped h
  | chunked hentries hbefore hafter =>
    rw [hentries, hafter]
    rw [hbefore] at h
    exact ⟨delivering_chunked h, advances_of_still ⟨rfl, rfl⟩⟩
  | resetAsked hentries hchunkables =>
    rw [hentries, hchunkables]
    exact ⟨delivering_requestReset h, advances_of_still ⟨rfl, rfl⟩⟩
  | reset hrequested hentries hchunkables =>
    rw [hentries]
    exact ⟨.stopped (stopped_of_delivering h), advances_of_still ⟨rfl, rfl⟩⟩
  | @drained streamWritable answers hentries hchunkables =>
    rw [hchunkables]
    refine delivering_drained h hentries ?_
    rintro resp rfl hresp
    refine ⟨fun hordered => (hordered rfl resp hresp).1, fun hreject => ?_,
      fun haccepted => haccepted rfl resp hresp⟩
    rcases hend with hordered | haccepted
    · exact (hordered rfl resp hresp).2 hreject
    · exact haccepted rfl resp hresp (endMissed_of_endRejected hreject)
  | served hentries hchunkables =>
    rw [hchunkables]
    exact delivering_served h hne (hreads rfl) hentries fun haccepted => haccepted rfl

theorem delivering_of_step (hne : bytes ≠ []) (hstep : step s a = some t)
    (hquiet : ¬ a.Produces streamId)
    (h : Delivering source bytes (s.streams streamId) (s.chunkables streamId))
    (hreads : ReadsBody source bytes streamId s a)
    (hend : EndInOrder streamId s a ∨ EndAccepted streamId s a) :
    Delivering source bytes (t.streams streamId) (t.chunkables streamId) ∧
      Advances bytes (s.streams streamId) (t.streams streamId) (EndInOrder streamId s a)
        (EndAccepted streamId s a) := by
  by_cases hp : t.panicked = none
  · exact delivering_step hne (step_stream hstep hp hquiet) h hreads hend
  · obtain ⟨hstreams, hstation⟩ := step_of_panicked hstep hp
    rw [State.chunkables, hstation, hstreams]
    exact ⟨h, advances_of_still ⟨rfl, rfl⟩⟩

/-- The end of the stream comes with the whole body. -/
def Ordered (bytes : Bytes) (entries : StreamEntries) : Prop :=
  entries.wire.fin = true → entries.wire.accepted = bytes

/-- The whole body comes with the end of the stream. -/
def Ended (bytes : Bytes) (entries : StreamEntries) : Prop :=
  entries.wire.accepted = bytes → entries.wire.fin = true

theorem ordered_step {entries entries' : StreamEntries} {inOrder accepted : Prop}
    (h : Ordered bytes entries) (hmoved : Advances bytes entries entries' inOrder accepted)
    (hahead : entries'.wire.accepted <+: bytes) (ho : inOrder) : Ordered bytes entries' := by
  intro hfin
  rcases hmoved.ordered ho hfin with hfin | hall
  · have hgrows := hmoved.grows
    rw [h hfin] at hgrows
    exact hahead.eq_of_length_le hgrows.length_le
  · exact hall

theorem ended_step {entries entries' : StreamEntries} {inOrder accepted : Prop}
    (h : Ended bytes entries) (hmoved : Advances bytes entries entries' inOrder accepted)
    (ha : accepted) : Ended bytes entries' := by
  intro hall
  rcases hmoved.kept ha hall with hfin | ⟨hbefore, hfin⟩
  · exact hfin
  · rw [hfin]
    exact h hbefore

/-- A response is queued behind intermediate headers. -/
theorem queued_of_pushHigh {entries : StreamEntries} {channel : Channel} {item : QueuedRequest}
    (hunfinished : entries.partialResponse = none) (htracker : entries.bodySendingTracker = none)
    (hwire : entries.wire = {}) (hch : entries.channel = some channel) (hlow : channel.low = [])
    (hinterim : ∀ i ∈ channel.high ++ entries.pendingBodyQueue, Interim i)
    (hfinal : Final source bytes channel.sender item) :
    Queued source bytes (entries.pushHigh item) [] := by
  refine ⟨hunfinished, htracker, hwire, rfl, { channel with high := channel.high ++ [item] }, ?_,
    hlow, .inl ⟨channel.high, item, rfl, hinterim, hfinal⟩⟩
  simp [StreamEntries.pushHigh, hch]

/-! ## Runs -/

variable {run : List Action}

/-- What was accepted of a response body is its beginning, it is counted, and the
end of the stream comes with the whole of it, in every run in which
`handle_writable` ends the stream in order. -/
theorem body_in_order (hne : bytes ≠ [])
    (hqueued : Queued .data bytes (s.streams streamId) (s.chunkables streamId))
    (hend : Every step (fun u a => ¬ a.Produces streamId ∧ EndInOrder streamId u a) s run)
    (hrun : exec step s run = some t) :
    (t.streams streamId).wire.accepted <+: bytes ∧
      (t.streams streamId).getWritten.1 = (t.streams streamId).wire.accepted.length ∧
      ((t.streams streamId).wire.fin = true → (t.streams streamId).wire.accepted = bytes) := by
  have hinit : Ordered bytes (s.streams streamId) := fun hfin => by simp [hqueued.wire] at hfin
  have hphase : Delivering .data bytes (t.streams streamId) (t.chunkables streamId) ∧
      Ordered bytes (t.streams streamId) := by
    refine exec_invariant_of_every (P := fun t =>
      Delivering .data bytes (t.streams streamId) (t.chunkables streamId) ∧
        Ordered bytes (t.streams streamId)) ⟨.queued hqueued, hinit⟩ ?_ hend hrun
    intro u a v ⟨h, hordered⟩ ⟨hquiet, hend⟩ hstep
    obtain ⟨hv, hmoved⟩ := delivering_of_step hne hstep hquiet h (readsBody_data ..) (.inl hend)
    exact ⟨hv, ordered_step hordered hmoved (accepted_of_delivering hv).1 hend⟩
  obtain ⟨haccepted, hwritten⟩ := accepted_of_delivering hphase.1
  exact ⟨haccepted, hwritten, hphase.2⟩

def bodyHeader (source : BodySource) (body : Bytes) : HeaderRequest where
  headers := []
  isEnd := false
  priorityMode := .sendHeader
  attachedBody := some (source.body body 0)

/-- A connection whose stream 0 has a response with the body `body` queued. -/
def responded (source : BodySource) (body : Bytes) : State :=
  let run : List Action := [.http3Connected, .insertNewChannel 0,
    .sendToHighPriorityQueue 0 (.header (bodyHeader source body))]
  (exec step {} run).getD {}

theorem queued_responded (source : BodySource) (body : Bytes) :
    Queued source body ((responded source body).streams 0) ((responded source body).chunkables 0) := by
  have hqueued : Queued source body
      (StreamEntries.pushHigh { channel := some { sender := 0 } } (.header (bodyHeader source body))) [] :=
    queued_of_pushHigh rfl rfl rfl rfl rfl nofun ⟨bodyHeader source body, rfl, .inl rfl, rfl, rfl⟩
  cases source <;> exact hqueued

/-- The two bytes of a body are taken one by one. -/
def takenByOne (file : FileAnswers) : List Action :=
  [.serve 0 { file }, .chunk false, .serve 0 { body := .ok 1 }, .drain 0 (.ok true) { body := .ok 1 }]

theorem body_in_order_takenByOne : ∃ t, exec step (responded .data [1, 2]) (takenByOne {}) = some t ∧
    (t.streams 0).wire.accepted <+: [1, 2] ∧
    (t.streams 0).getWritten.1 = (t.streams 0).wire.accepted.length ∧
    ((t.streams 0).wire.fin = true → (t.streams 0).wire.accepted = [1, 2]) := by
  obtain ⟨t, ht⟩ := Option.isSome_iff_exists.mp
    (rfl : (exec step (responded .data [1, 2]) (takenByOne {})).isSome)
  refine ⟨t, ht, body_in_order (by decide) (queued_responded .data _) ?_ ht⟩
  refine ⟨⟨id, trivial⟩, ?_⟩
  intro _ hnext
  cases hnext
  refine ⟨⟨id, trivial⟩, ?_⟩
  intro _ hnext
  cases hnext
  refine ⟨⟨id, trivial⟩, ?_⟩
  intro _ hnext
  cases hnext
  refine ⟨⟨id, fun _ resp hresp => ?_⟩, fun _ _ => trivial⟩
  cases hresp
  constructor
  · rintro ⟨n, htaken, -, hmiddle, -⟩
    cases htaken
    exact hmiddle rfl
  · rintro ⟨n, -, -, -, hrejected⟩
    cases hrejected

/-- Blocked in the middle of a chunk, `handle_writable` adds what is written of the
chunk to what is written of the body. Answered with a failure at the last byte, it
does not count it. -/
theorem body_out_of_order :
    (∃ t, exec step (responded .data [1, 2]) [.serve 0 {}, .chunk false, .serve 0 { body := .ok 1 },
        .drain 0 (.ok true) { body := .error .done }] = some t ∧
      (t.streams 0).wire.fin = true ∧ (t.streams 0).wire.accepted = [1]) ∧
    ∃ t, exec step (responded .data [1, 2]) [.serve 0 {}, .chunk false, .serve 0 { body := .ok 1 },
        .drain 0 (.ok true) { body := .ok 1, fin := .error .other }] = some t ∧
      (t.streams 0).wire.accepted = [1, 2] ∧ (t.streams 0).getWritten.1 = 1 :=
  ⟨⟨_, rfl, rfl, rfl⟩, _, rfl, rfl, rfl⟩

end Runs
end FacesHttp3.SendLoop
