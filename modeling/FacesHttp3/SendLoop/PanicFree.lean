import FacesHttp3.SendLoop.Machine
import FacesHttp3.SendLoop.Sends

/-! # Panics of the network thread

A pass over the writable streams unwraps what the transport and the file system
answer. From every state that can be reached it panics at two places only:
`stream_writable` is an error for a stream whose headers were sent, and the file
of a body is not there when its header is sent. -/

namespace FacesHttp3.SendLoop
open FacesHttp3.Lib FacesHttp3.Lib.Exec FacesHttp3.Lib.Outcome FacesHttp3.Request

/-- A header of which the body knows where its chunks go. -/
def QueuedRequest.SenderKnown : QueuedRequest → Prop
  | .header request => request.attachedBody.all BodyType.attached = true
  | _ => True

def queuedItems (entries : StreamEntries) : List QueuedRequest :=
  entries.pendingBodyQueue ++
    match entries.channel with
    | some channel => channel.high ++ channel.low
    | none => []

/-- What keeps the other unwraps of a pass from panicking. -/
structure Sound (http3Conn : Bool) (entries : StreamEntries) : Prop where
  written : ∀ resp, entries.partialResponse = some resp → resp.written ≤ resp.body.length
  senders : ∀ item ∈ queuedItems entries, item.SenderKnown
  connected : http3Conn = false →
    entries.partialResponse = none ∧ entries.pendingBodyQueue = [] ∧ entries.channel = none

/-- The file of a body is there. -/
def HeaderRequest.FileThere (file : FileAnswers) (request : HeaderRequest) : Prop :=
  ∀ filePath sender, request.attachedBody = some (.filePath filePath sender) → file.len.isSome

section Entries
variable {entries entries' popped : StreamEntries} {answers : Answers} {http3Conn : Bool}
  {item : QueuedRequest} {streamId : StreamId}

/-! ## `handle_writable` -/

theorem handleWritableBody_ok {resp : PartialResponse} (h : resp.written ≤ resp.body.length) :
    ∃ next, handleWritableBody entries resp answers = .ok next := by
  unfold handleWritableBody
  simp only [Nat.not_lt.mpr h, if_false]
  split
  · exact ⟨_, rfl⟩
  split
  · split <;> exact ⟨_, rfl⟩
  split
  · exact ⟨_, rfl⟩
  · split <;> exact ⟨_, rfl⟩

theorem handleWritable_ok (h : ∀ resp, entries.partialResponse = some resp →
    resp.written ≤ resp.body.length) (answers : Answers) :
    ∃ next, handleWritable true entries answers = .ok next := by
  unfold handleWritable
  cases hp : entries.partialResponse with
  | none => exact ⟨_, rfl⟩
  | some resp =>
    simp only [withHttp3Conn, if_true]
    cases resp.headers with
    | none => exact handleWritableBody_ok (h resp hp)
    | some headers =>
      cases answers.headers with
      | error e => exact ⟨_, rfl⟩
      | ok _ =>
        let sent : PartialResponse := { resp with headers := none }
        have hsent : sent.written ≤ sent.body.length := h resp hp
        exact handleWritableBody_ok hsent

/-- A round of the first loop panics when `stream_writable` is an error. -/
theorem drain_ok_iff {streamWritable : Except H3Error Bool} (h : Sound http3Conn entries) :
    (∃ next, drain http3Conn entries streamWritable answers = .ok next) ↔
      (entries.headersSend = true → streamWritable.isOk = true) := by
  unfold drain
  cases hsend : entries.headersSend with
  | false => simp
  | true =>
    cases streamWritable with
    | error e => simp [Except.isOk, Except.toBool]
    | ok writable =>
      refine ⟨fun _ _ => rfl, fun _ => ?_⟩
      cases writable with
      | false => exact ⟨_, rfl⟩
      | true =>
        cases hp : entries.partialResponse with
        | none => exact ⟨_, rfl⟩
        | some resp =>
          cases http3Conn with
          | false => cases hp.symm.trans (h.connected rfl).1
          | true =>
            obtain ⟨⟨next, flag⟩, hnext⟩ := handleWritable_ok h.written answers
            exact ⟨next, by simp [hnext]⟩

/-! ## What a step keeps -/

theorem Sound.of_items (h : Sound true entries)
    (hwritten : ∀ resp, entries'.partialResponse = some resp → resp.written ≤ resp.body.length)
    (hitems : ∀ item ∈ queuedItems entries', item ∈ queuedItems entries ∨ item.SenderKnown) :
    Sound true entries' :=
  ⟨hwritten, fun item hitem => (hitems item hitem).elim (h.senders item) id, nofun⟩

/-- The queues are as they were. -/
theorem Sound.of_queues (h : Sound true entries)
    (hwritten : ∀ resp, entries'.partialResponse = some resp → resp.written ≤ resp.body.length)
    (hpending : entries'.pendingBodyQueue = entries.pendingBodyQueue)
    (hchannel : entries'.channel = entries.channel) : Sound true entries' :=
  h.of_items hwritten fun item hitem => by
    rw [queuedItems, hpending, hchannel] at hitem
    exact .inl hitem

theorem Sound.park (h : Sound true entries) (hknown : item.SenderKnown) (popped : QueuedRequest) :
    Sound true (entries.park popped item) :=
  h.of_items h.written fun i hi => by
    rcases List.mem_cons.mp (show i ∈ item :: queuedItems entries from hi) with rfl | hi
    · exact .inr hknown
    · exact .inl hi

theorem Sound.removeChannel (h : Sound true entries) :
    Sound true entries.removeStreamQueue.removeStream :=
  h.of_items h.written fun _ hi => absurd hi List.not_mem_nil

/-- `handle_writable` writes no more of a chunk than there is. -/
theorem handleWritableBody_sound {resp : PartialResponse} {result : Option Bool}
    (h : Sound true entries)
    (hs : handleWritableBody entries resp answers = .ok (entries', result)) :
    Sound true entries' := by
  have hnone : ∀ r : PartialResponse, none = some r → r.written ≤ r.body.length := by
    intro r heq
    cases heq
  unfold handleWritableBody at hs
  by_cases hlt : resp.body.length < resp.written
  · simp only [hlt, if_true] at hs
    cases hs
  simp only [hlt, if_false, writtenOf_sendBody] at hs
  split at hs
  · cases hs
    exact h.of_queues hnone rfl rfl
  rename_i n htaken
  have hle : resp.written + n ≤ resp.body.length := by
    have := taken_le htaken
    simp only [List.length_drop] at this
    omega
  have hmore : ∀ r, some { resp with written := resp.written + n } = some r →
      r.written ≤ r.body.length := by
    intro r heq
    cases heq
    exact hle
  split at hs
  · split at hs <;> cases hs
    · exact h.of_queues hmore rfl rfl
    · exact h.of_queues hnone rfl rfl
  split at hs
  · cases hs
    exact h.of_queues hmore rfl rfl
  · split at hs <;> cases hs
    · exact h.of_queues hnone rfl rfl
    · exact h.of_queues hmore rfl rfl

theorem handleWritable_sound {result : Option Bool} (h : Sound true entries)
    (hs : handleWritable true entries answers = .ok (entries', result)) : Sound true entries' := by
  unfold handleWritable at hs
  split at hs
  · cases hs
  · cases hs
    exact h
  split at hs
  · split at hs
    · cases hs
      exact h
    · let sent : StreamEntries :=
        { entries with wire := entries.wire.sendHeaders false answers.headers }
      have hsent : Sound true sent := h.of_queues h.written rfl rfl
      exact handleWritableBody_sound hsent hs
  · exact handleWritableBody_sound h hs

theorem drain_sound {streamWritable : Except H3Error Bool} (h : Sound http3Conn entries)
    (hs : drain http3Conn entries streamWritable answers = .ok entries') :
    Sound http3Conn entries' := by
  unfold drain at hs
  split at hs
  case isFalse =>
    cases hs
    exact h
  split at hs
  · cases hs
  · cases hs
    exact h
  split at hs
  case h_2 =>
    cases hs
    exact h
  rename_i resp hresp
  cases http3Conn with
  | false => cases hresp.symm.trans (h.connected rfl).1
  | true =>
    split at hs
    · cases hs
    · cases hs
      exact handleWritable_sound h ‹_›

/-! ## The second loop -/

theorem sendData_sound (h : Sound true entries) (data : Bytes) (fin : Bool)
    (answer : Except H3Error Nat) :
    ∃ next result, sendData true entries data fin answer = .ok (next, result) ∧ Sound true next := by
  simp only [sendData, withHttp3Conn, if_true, writtenOf_sendBody]
  cases entries.wire.taken data answer with
  | none => exact ⟨_, _, rfl, h.of_queues h.written rfl rfl⟩
  | some n =>
    refine ⟨_, _, rfl, h.of_queues ?_ ?_ ?_⟩ <;> by_cases hlt : n < data.length <;>
      simp only [hlt, if_true, if_false]
    · intro resp heq
      cases heq
      exact Nat.le_of_lt hlt
    · exact h.written
    all_goals rfl

theorem sendChunk_sound (h : Sound true entries) (content taken : BodyRequest) (data : Bytes)
    (answers : Answers) :
    ∃ next, sendChunk true entries content taken data answers = .ok next ∧ Sound true next := by
  simp only [sendChunk, sendBodyResponse]
  obtain ⟨sent, result, hsent, hsound⟩ :=
    sendData_sound h data (entries.getWritten.1 == entries.getWritten.2) answers.body
  rw [hsent]
  cases result with
  | none =>
    have hknown : (QueuedRequest.body taken).SenderKnown := trivial
    exact ⟨_, rfl, hsound.park hknown _⟩
  | some n =>
    simp only [bind, Except.bind]
    split
    · obtain ⟨ended, result, hended, hsound'⟩ :=
        sendData_sound hsound [] (sent.getWritten.1 == sent.getWritten.2) answers.fin
      rw [hended]
      exact ⟨_, rfl, hsound'.removeChannel⟩
    · exact ⟨_, rfl, hsound⟩

theorem serveBody_sound (h : Sound true entries) (content : BodyRequest) (answers : Answers) :
    ∃ next, serveBody true entries content answers = .ok next ∧ Sound true next := by
  unfold serveBody
  cases entries.headersSend with
  | true => exact sendChunk_sound h content _ _ answers
  | false =>
    let resp : PartialResponse := { headers := none, body := content.packet, written := 0 }
    have hunfinished : Sound true { entries with partialResponse := some resp } := by
      refine h.of_queues ?_ rfl rfl
      intro r heq
      cases heq
      exact Nat.zero_le _
    exact sendChunk_sound hunfinished content _ _ answers

theorem serveProgression_sound (h : Sound true entries) (kind : BodyRequest → QueuedRequest)
    (hkind : ∀ body, (kind body).SenderKnown) (content : BodyRequest) (answers : Answers) :
    ∃ next, serveProgression true entries kind content answers = .ok next ∧ Sound true next := by
  simp only [serveProgression, BodyRequest.takeData, sendBodyResponseProgression]
  obtain ⟨sent, result, hsent, hsound⟩ := sendData_sound h content.packet false answers.body
  rw [hsent]
  cases result with
  | none => exact ⟨_, rfl, hsound.park (hkind _) _⟩
  | some n => exact ⟨_, rfl, hsound⟩

/-- The length of a body is known unless its file is not there. -/
theorem attachedBodyLen_ok_iff {content : HeaderRequest} {file : FileAnswers} :
    (∃ bodyLen, content.attachedBodyLen file = .ok bodyLen) ↔ content.FileThere file := by
  unfold HeaderRequest.attachedBodyLen HeaderRequest.FileThere
  cases content.attachedBody with
  | none => simp
  | some body =>
    cases body with
    | filePath path sender => cases hlen : file.len <;> simp [BodyType.bytesLen, hlen]
    | data | streamData | none => simp [BodyType.bytesLen]

theorem startBody_sound {content : HeaderRequest} (h : Sound true entries)
    (hknown : (QueuedRequest.header content).SenderKnown) (bodyLen : Option Nat)
    (file : FileAnswers) : ∃ next chunkable,
      startBody streamId entries content bodyLen file = .ok (next, chunkable) ∧
        Sound true next := by
  unfold startBody
  have hsized : ∀ len, Sound true (entries.setBodySizeToBodySendingTracker len) := fun _ =>
    h.of_queues h.written rfl rfl
  split
  · rename_i len body _ hbody
    have hattached : body.attached = true := by
      simpa [QueuedRequest.SenderKnown, hbody] using hknown
    obtain ⟨chunkable, hsent⟩ : ∃ chunkable, sendResponse streamId file body = .ok chunkable := by
      cases body with
      | data bytes sender | filePath path sender =>
        cases sender with
        | none => cases hattached
        | some sender => exact ⟨_, rfl⟩
      | streamData => cases hattached
      | none => exact ⟨_, rfl⟩
    exact ⟨_, chunkable, by rw [hsent]; rfl, hsized len⟩
  · exact ⟨_, _, rfl, hsized _⟩
  · exact ⟨_, _, rfl, h⟩

/-- A header is served unless its file is not there. -/
theorem serveHeader_sound {content : HeaderRequest} {bodyLen : Option Nat}
    (h : Sound true entries) (hknown : (QueuedRequest.header content).SenderKnown)
    (hlen : content.attachedBodyLen answers.file = .ok bodyLen) : ∃ next chunkable,
      serveHeader true streamId entries content answers = .ok (next, chunkable) ∧
        Sound true next := by
  have hparked : Sound true (entries.park (.header content) (.header content)) :=
    h.park hknown _
  have hsent : ∀ wire tracker, Sound true
      { entries with wire, headersSendingTracker := tracker } := fun _ _ =>
    h.of_queues h.written rfl rfl
  simp only [serveHeader, hlen, withHttp3Conn, if_true]
  cases content.priorityMode with
  | openStream =>
    cases answers.headers with
    | ok _ => exact ⟨_, _, rfl, hsent _ _⟩
    | error e =>
      cases e with
      | other =>
        refine ⟨_, _, rfl, h.of_items ?_ fun _ hi => absurd hi List.not_mem_nil⟩
        intro r heq
        cases heq
      | done | streamBlocked | transportDone => exact ⟨_, _, rfl, hparked⟩
  | sendHeader =>
    cases answers.headers with
    | ok _ => exact startBody_sound (hsent _ _) hknown _ _
    | error e => exact ⟨_, _, rfl, hparked⟩
  | sendHeader100 =>
    cases answers.headers with
    | ok _ => exact ⟨_, _, rfl, hsent _ _⟩
    | error e => exact ⟨_, _, rfl, hparked⟩
  | sendAdditionnalHeader =>
    cases answers.headers with
    | ok _ =>
      refine startBody_sound ?_ hknown _ _
      split <;> exact hsent _ _
    | error e => exact ⟨_, _, rfl, hparked⟩
  | sendWithPriority => exact ⟨_, _, rfl, h⟩

theorem nextItem_queued (hitem : nextItem entries = some (item, popped)) :
    item ∈ queuedItems entries ∧ popped.partialResponse = entries.partialResponse ∧
      ∀ i ∈ queuedItems popped, i ∈ queuedItems entries := by
  unfold nextItem at hitem
  split at hitem
  · rename_i retry hretry
    unfold openingRetry at hretry
    split at hretry
    case h_2 => cases hretry
    rename_i front pending hpending
    split at hretry
    case isFalse => cases hretry
    cases hretry
    cases hitem
    refine ⟨by simp [queuedItems, hpending], rfl, fun i hi => ?_⟩
    simp only [queuedItems, hpending, List.cons_append, List.mem_cons]
    exact .inr hi
  · split at hitem
    · cases hitem
    simp only [Option.bind_eq_bind, Option.bind_eq_some_iff] at hitem
    obtain ⟨channel, hch, ⟨front, rest⟩, hpop, hitem⟩ := hitem
    cases hitem
    unfold Channel.tryPop at hpop
    split at hpop
    · rename_i high hhigh
      cases hpop
      refine ⟨by simp [queuedItems, hch, hhigh], rfl, fun i hi => ?_⟩
      simp only [queuedItems, hch, hhigh, List.mem_append, List.mem_cons] at hi ⊢
      tauto
    · rename_i low hhigh hlow
      cases hpop
      refine ⟨by simp [queuedItems, hch, hlow], rfl, fun i hi => ?_⟩
      simp only [queuedItems, hch, hlow, List.mem_append, List.mem_cons] at hi ⊢
      tauto
    · cases hpop

theorem nextItem_sound (h : Sound true entries) (hitem : nextItem entries = some (item, popped)) :
    item.SenderKnown ∧ Sound true popped := by
  obtain ⟨hmem, hunfinished, hitems⟩ := nextItem_queued hitem
  exact ⟨h.senders item hmem, h.of_items (hunfinished ▸ h.written) fun i hi => .inl (hitems i hi)⟩

/-- The item attempted is no header of a body whose file is not there. -/
def FileAtHand (entries : StreamEntries) (answers : Answers) : Prop :=
  entries.partialResponse = none → ∀ request popped,
    nextItem entries = some (.header request, popped) → request.FileThere answers.file

/-- The second loop panics when the file of a body is not there. -/
theorem serve_sound (streamId : StreamId) (answers : Answers) (h : Sound http3Conn entries) :
    (∃ next chunkable, serve http3Conn streamId entries answers = .ok (next, chunkable) ∧
        Sound http3Conn next ∧ FileAtHand entries answers) ∨
      (∃ panic, serve http3Conn streamId entries answers = .error panic) ∧
        ¬ FileAtHand entries answers := by
  unfold serve
  cases hunfinished : entries.partialResponse with
  | some resp => exact .inl ⟨_, _, rfl, h, fun hnone => by simp [hunfinished] at hnone⟩
  | none =>
    cases hnext : nextItem entries with
    | none => exact .inl ⟨_, _, rfl, h, fun _ request popped hitem => by simp [hnext] at hitem⟩
    | some next =>
      obtain ⟨item, popped⟩ := next
      have hconn : http3Conn = true := by
        cases http3Conn with
        | true => rfl
        | false =>
          obtain ⟨-, hpending, hchannel⟩ := h.connected rfl
          simp [nextItem, openingRetry, isStreamQueueEmpty, hpending, hchannel] at hnext
      subst hconn
      obtain ⟨hknown, hpopped⟩ := nextItem_sound h hnext
      have hother : (∀ request, item ≠ .header request) → FileAtHand entries answers := by
        intro hne _ request popped' hitem
        rw [hnext] at hitem
        cases hitem
        exact absurd rfl (hne request)
      cases item with
      | body content =>
        obtain ⟨next, hserve, hsound⟩ := serveBody_sound hpopped content answers
        exact .inl ⟨next, none, by simp [hserve, bind, Except.bind, pure, Except.pure], hsound,
          hother nofun⟩
      | streamData content =>
        obtain ⟨next, hserve, hsound⟩ :=
          serveProgression_sound hpopped .streamData (fun _ => trivial) content answers
        exact .inl ⟨next, none, by simp [hserve, bind, Except.bind, pure, Except.pure], hsound,
          hother nofun⟩
      | bodyProgression content =>
        obtain ⟨next, hserve, hsound⟩ :=
          serveProgression_sound hpopped .bodyProgression (fun _ => trivial) content answers
        exact .inl ⟨next, none, by simp [hserve, bind, Except.bind, pure, Except.pure], hsound,
          hother nofun⟩
      | header content =>
        have hfile : FileAtHand entries answers ↔ content.FileThere answers.file := by
          refine ⟨fun hf => hf hunfinished content popped hnext, fun hf _ request popped' hitem => ?_⟩
          rw [hnext] at hitem
          cases hitem
          exact hf
        simp only [Option.isSome_none, Bool.false_eq_true, if_false]
        cases hlen : content.attachedBodyLen answers.file with
        | ok bodyLen =>
          obtain ⟨next, chunkable, hserve, hsound⟩ := serveHeader_sound hpopped hknown hlen
          exact .inl ⟨next, chunkable, hserve, hsound,
            hfile.mpr (attachedBodyLen_ok_iff.mp ⟨_, hlen⟩)⟩
        | error panic =>
          refine .inr ⟨⟨panic, by simp [serveHeader, hlen, bind, Except.bind]⟩, fun hf => ?_⟩
          obtain ⟨bodyLen, hok⟩ := attachedBodyLen_ok_iff.mpr (hfile.mp hf)
          cases hlen.symm.trans hok

end Entries

/-! ## Runs -/

theorem sound_pushLow {entries : StreamEntries} {http3Conn : Bool} (h : Sound http3Conn entries)
    (sender : ChunkSender) {item : QueuedRequest} (hknown : item.SenderKnown) :
    Sound http3Conn (entries.pushLow sender item) := by
  refine ⟨h.written, fun i hi => ?_, fun hconn => ?_⟩
  · cases hch : entries.channel with
    | none =>
      simp only [queuedItems, StreamEntries.pushLow, hch, Option.map_none] at hi
      exact h.senders i (by simpa [queuedItems, hch] using hi)
    | some channel =>
      simp only [queuedItems, StreamEntries.pushLow, hch, Option.map_some, List.mem_append] at hi
      by_cases hs : channel.sender = sender
      · simp only [hs, if_true, List.mem_append, List.mem_singleton] at hi
        rcases hi with hi | hi | hi | rfl
        · exact h.senders i (by simp [queuedItems, hi])
        · exact h.senders i (by simp [queuedItems, hch, hi])
        · exact h.senders i (by simp [queuedItems, hch, hi])
        · exact hknown
      · simp only [hs, if_false] at hi
        exact h.senders i (by simpa [queuedItems, hch] using hi)
  · obtain ⟨hunfinished, hpending, hchannel⟩ := h.connected hconn
    exact ⟨hunfinished, hpending, by simp [StreamEntries.pushLow, hchannel]⟩

theorem sound_pushHigh {entries : StreamEntries} {http3Conn : Bool} (h : Sound http3Conn entries)
    {item : QueuedRequest} (hknown : item.SenderKnown) :
    Sound http3Conn (entries.pushHigh item) := by
  refine ⟨h.written, fun i hi => ?_, fun hconn => ?_⟩
  · cases hch : entries.channel with
    | none =>
      simp only [queuedItems, StreamEntries.pushHigh, hch, Option.map_none] at hi
      exact h.senders i (by simpa [queuedItems, hch] using hi)
    | some channel =>
      simp only [queuedItems, StreamEntries.pushHigh, hch, Option.map_some, List.mem_append,
        List.mem_singleton] at hi
      rcases hi with hi | (hi | rfl) | hi
      · exact h.senders i (by simp [queuedItems, hi])
      · exact h.senders i (by simp [queuedItems, hch, hi])
      · exact hknown
      · exact h.senders i (by simp [queuedItems, hch, hi])
  · obtain ⟨hunfinished, hpending, hchannel⟩ := h.connected hconn
    exact ⟨hunfinished, hpending, by simp [StreamEntries.pushHigh, hchannel]⟩

theorem sound_requestReset {entries : StreamEntries} {http3Conn : Bool}
    (h : Sound http3Conn entries) : Sound http3Conn entries.requestReset := by
  have hitems : queuedItems entries.requestReset = queuedItems entries := by
    cases hch : entries.channel <;> simp [queuedItems, StreamEntries.requestReset, hch]
  refine ⟨h.written, fun i hi => h.senders i (hitems ▸ hi), fun hconn => ?_⟩
  obtain ⟨hunfinished, hpending, hchannel⟩ := h.connected hconn
  exact ⟨hunfinished, hpending, by simp [StreamEntries.requestReset, hchannel]⟩

variable {s t : State} {a : Action}

/-- Every stream of a connection is sound. -/
def AllSound (s : State) : Prop := ∀ streamId, Sound s.http3Conn (s.streams streamId)

theorem Sound.of_connected {entries : StreamEntries} {http3Conn http3Conn' : Bool}
    (h : Sound http3Conn entries) (hkeep : http3Conn = true → http3Conn' = true) :
    Sound http3Conn' entries := by
  refine ⟨h.written, h.senders, fun hconn => h.connected ?_⟩
  by_contra htrue
  simp [hkeep (by simpa using htrue)] at hconn

theorem allSound_init : AllSound {} := fun _ =>
  ⟨nofun, fun _ hi => absurd hi List.not_mem_nil, fun _ => ⟨rfl, rfl, rfl⟩⟩

theorem senderKnown_of_produced {item : QueuedRequest} (h : item.produced = true) :
    item.SenderKnown := by
  cases item with
  | header request => exact h
  | body | streamData | bodyProgression => trivial

theorem allSound_step (h : AllSound s) (hstep : step s a = some t) : AllSound t := by
  intro streamId
  have hs := h streamId
  refine Sound.of_connected ?_ (step_http3Conn hstep)
  rcases step_writes hstep streamId with hsame | hwrites
  · rw [hsame]
    exact hs
  · generalize t.streams streamId = entries at hwrites
    cases hwrites with
    | insertNewChannel hconn =>
      rw [hconn] at hs ⊢
      refine hs.of_items hs.written fun i hi => .inl ?_
      have hi : i ∈ (s.streams streamId).pendingBodyQueue := by simpa [queuedItems] using hi
      simp [queuedItems, hi]
    | pushHigh hproduced => exact sound_pushHigh hs (senderKnown_of_produced hproduced)
    | pushStream | pushChunk => exact sound_pushLow hs _ trivial
    | resetAsked => exact sound_requestReset hs
    | reset =>
      exact ⟨nofun, fun _ hi => absurd hi List.not_mem_nil, fun _ => ⟨rfl, rfl, rfl⟩⟩
    | drained hd => exact drain_sound hs hd
    | served hserved =>
      rcases serve_sound _ _ hs with ⟨_, _, hok, hsound, -⟩ | ⟨⟨_, herror⟩, -⟩
      · cases hok.symm.trans hserved
        exact hsound
      · cases herror.symm.trans hserved

/-- What the network thread does in a pass. -/
def Action.InPass : Action → Prop
  | .resetRequested _ | .drain _ _ _ | .serve _ _ => True
  | _ => False

/-- `stream_writable` is no error for a stream whose headers were sent, and the
file of a body is there when its header is attempted. -/
def Unwraps (s : State) : Action → Prop
  | .drain streamId streamWritable _ =>
    (s.streams streamId).headersSend = true → streamWritable.isOk = true
  | .serve streamId answers => FileAtHand (s.streams streamId) answers
  | _ => True

theorem step_of_inPass (h : AllSound s) (hp : s.panicked = none) (ha : a.InPass) :
    ∃ t, step s a = some t ∧ (t.panicked = none ↔ Unwraps s a) := by
  cases a with
  | resetRequested streamId =>
    refine ⟨_, guarded_eq_some_iff.mpr ⟨hp, rfl⟩, ?_⟩
    split <;> simp [State.setStream, hp, Unwraps]
  | drain streamId streamWritable answers =>
    refine ⟨_, guarded_eq_some_iff.mpr ⟨hp, rfl⟩, ?_⟩
    have hok : (∃ next, drain s.http3Conn (s.streams streamId) streamWritable answers = .ok next) ↔
        _ := drain_ok_iff (h streamId)
    rw [commit_panicked hp, Unwraps, ← hok]
    simp
  | serve streamId answers =>
    refine ⟨_, guarded_eq_some_iff.mpr ⟨hp, rfl⟩, ?_⟩
    rw [commit_panicked hp, Unwraps]
    rcases serve_sound _ _ (h streamId) with ⟨_, _, hok, -, hfile⟩ | ⟨⟨_, herror⟩, hfile⟩
    · exact ⟨fun _ => hfile, fun _ => ⟨_, hok⟩⟩
    · refine ⟨?_, fun hf => absurd hf hfile⟩
      intro hserved
      obtain ⟨_, hok⟩ := hserved
      cases herror.symm.trans hok
  | http3Connected | insertNewChannel | sendToHighPriorityQueue | send | requestStreamReset
    | chunk => exact ha.elim

theorem step_of_panic (hp : s.panicked ≠ none) : step s a = none := by
  cases a <;> simp [step, guarded, hp]

theorem pass_inPass {resets : List StreamId}
    {first : List (StreamId × Except H3Error Bool × Answers)}
    {second : List (StreamId × Answers)} : ∀ a ∈ pass resets first second, a.InPass := by
  intro a ha
  simp only [pass, List.mem_append, List.mem_map] at ha
  rcases ha with (⟨_, -, rfl⟩ | ⟨_, -, rfl⟩) | ⟨_, -, rfl⟩ <;> trivial

/-- From every state that can be reached a pass over the writable streams ends
without a panic if and only if the unwraps of `Unwraps` go well in it. -/
theorem pass_completes_iff {run : List Action} (hrun : exec step {} run = some s)
    (hp : s.panicked = none) (resets : List StreamId)
    (first : List (StreamId × Except H3Error Bool × Answers))
    (second : List (StreamId × Answers)) :
    (∃ t, exec step s (pass resets first second) = some t ∧ t.panicked = none) ↔
      Every step Unwraps s (pass resets first second) := by
  have hsound : AllSound s :=
    exec_invariant (P := AllSound) allSound_init (fun _ _ _ h hstep => allSound_step h hstep) hrun
  exact exec_good_iff_every (I := AllSound) (L := Action.InPass)
    (fun _ _ h hp ha => step_of_inPass h hp ha) (fun _ _ _ h hstep => allSound_step h hstep)
    (fun _ _ hp => step_of_panic hp) hsound hp pass_inPass

/-- The headers of a response on stream 0 are sent. -/
def headersSent : List Action :=
  let header : HeaderRequest :=
    { headers := [], isEnd := false, priorityMode := .sendHeader,
      attachedBody := some (.data [1, 2] (some 0)) }
  [.http3Connected, .insertNewChannel 0, .sendToHighPriorityQueue 0 (.header header), .serve 0 {}]

/-- The next pass unwraps nothing that is missing, and completes. -/
theorem pass_completes_iff_headersSent : ∃ s, exec step {} headersSent = some s ∧
    ((∃ t, exec step s (pass [] [(0, .ok true, {})] [(0, {})]) = some t ∧ t.panicked = none) ↔
      Every step Unwraps s (pass [] [(0, .ok true, {})] [(0, {})])) ∧
    (∃ t, exec step s (pass [] [(0, .ok true, {})] [(0, {})]) = some t ∧ t.panicked = none) ∧
    Every step Unwraps s (pass [] [(0, .ok true, {})] [(0, {})]) := by
  obtain ⟨s, hs⟩ := Option.isSome_iff_exists.mp (rfl : (exec step {} headersSent).isSome)
  have hp : s.panicked = none := by
    cases hs
    rfl
  have hcompletes : ∃ t, exec step s (pass [] [(0, .ok true, {})] [(0, {})]) = some t ∧
      t.panicked = none := by
    cases hs
    exact ⟨_, rfl, rfl⟩
  have hiff := pass_completes_iff hs hp [] [(0, .ok true, {})] [(0, {})]
  exact ⟨s, hs, hiff, hcompletes, hiff.mp hcompletes⟩

/-- The peer stops the stream of a response whose headers were sent. -/
theorem stopped_stream_panics : ∃ s, exec step {} headersSent = some s ∧ s.panicked = none ∧
    ∃ t, exec step s (pass [] [(0, .error .other, {})] []) = some t ∧
      t.panicked = some .streamWritable :=
  ⟨_, rfl, rfl, _, rfl, rfl⟩

end FacesHttp3.SendLoop
