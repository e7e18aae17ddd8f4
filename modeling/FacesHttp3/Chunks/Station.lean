import FacesHttp3.Chunks.Counter
import FacesHttp3.SendLoop.Queue

/-! # A body in the chunking station

One worker cuts the bodies of all connections into chunks. It takes a body, reads it
once, and puts it back unless that was the end. Here one body is followed through
all of its turns, while its queue is filled, popped and removed around it. -/

namespace FacesHttp3.Chunks
open FacesHttp3.Lib.Exec FacesHttp3.Request
open FacesHttp3.SendLoop (QueuedRequest BodyRequest)

/-- A body as the worker takes it; its reader was read once for each packet id. -/
structure ChunkableBody where
  bodyLen : Nat
  packetId : Nat := 0
  bytesWritten : Nat := 0
  deriving DecidableEq

/-- `ChunkSender::send` when the receiver is gone. -/
def Queue.sendDisconnected {μ : Type} (queue : Queue μ) : Queue μ :=
  let (counter, incremented) := queue.counter.tryIncrement
  { queue with counter := if incremented then counter.decrement else counter }

/-- The body while it is in the station, the channel its sender belongs to, and
whether that is still registered; `produced` are all chunks it was cut into. -/
structure Station where
  body : Option ChunkableBody
  channel : Channel QueuedRequest := .new
  registered : Bool := true
  produced : List BodyRequest := []

/-- A turn of the worker on the body, an operation of any thread on the channel, and
the removal of the stream. -/
inductive Action
  | turn
  | other (op : Op QueuedRequest)
  | remove

def Action.isTurn : Action → Bool
  | .turn => true
  | _ => false

namespace Station

/-- One turn of `run_worker`; `reads n` is what the reader answers the n-th time, and
`none` is an error, which drops the body. -/
def turn (reads : Nat → Option Bytes) (s : Station) (body : ChunkableBody) : Station :=
  if s.channel.low.counter.isOccupied then s
  else
    match reads body.packetId with
    | none => { s with body := none }
    | some packet =>
      let isEnd := packet.length + body.bytesWritten == body.bodyLen
      let chunk : BodyRequest := { packetId := body.packetId, packet, isEnd }
      let low := if s.registered then s.channel.low.send (.body chunk)
        else s.channel.low.sendDisconnected
      { s with
        -- repush the unfinished read in the channel
        body := if isEnd then none else some { body with
          packetId := body.packetId + 1
          bytesWritten := body.bytesWritten + packet.length }
        channel := { s.channel with low }
        produced := s.produced ++ [chunk] }

/-- Once the stream is removed, lookups by its ids and the sends of old senders fail. -/
def step (reads : Nat → Option Bytes) (s : Station) : Action → Option Station
  | .turn => s.body.map (s.turn reads)
  | .other op => some (if s.registered then { s with channel := s.channel.perform op } else s)
  | .remove => some { s with registered := false }

/-- The body when it is given to the worker. -/
def given (bodyLen : Nat) : Station where
  body := some { bodyLen }

/-! ## What is promised -/

/-- At least one new byte was read. -/
def Reads (s t : Station) : Prop :=
  ∃ chunk, t.produced = s.produced ++ [chunk] ∧ chunk.packet ≠ []

def Finishes (s t : Station) : Prop :=
  ∃ chunk, t.produced = s.produced ++ [chunk] ∧ chunk.isEnd = true ∧ t.body = none

/-- The body waits behind a queue that is still registered and full. -/
def Waits (s t : Station) : Prop :=
  t = s ∧ s.registered = true ∧ Channel.lowLimit ≤ s.channel.low.messages.length

/-- The last chunk, and only it, is flagged. -/
def Flagged (s : Station) : Prop :=
  match s.body with
  | some _ => ∀ chunk ∈ s.produced, chunk.isEnd = false
  | none => ∃ chunks last, s.produced = chunks ++ [last] ∧ last.isEnd = true ∧
      ∀ chunk ∈ chunks, chunk.isEnd = false

/-- The worker has read all there was. -/
def Exhausted (reads : Nat → Option Bytes) (s : Station) : Prop :=
  ∃ body, s.body = some body ∧ 0 < body.packetId ∧ ∀ n, body.packetId ≤ n → reads n = some []

/-- Whatever happens, the worker takes the body only so many more times. -/
def FinitelyOften (reads : Nat → Option Bytes) (s : Station) : Prop :=
  ∃ bound, ∀ after t, exec (step reads) s after = some t → after.countP Action.isTurn ≤ bound

structure Leaves (reads : Nat → Option Bytes) (s : Station) : Prop where
  turn : ∀ t, step reads s .turn = some t → Reads s t ∨ Finishes s t ∨ Waits s t
  flagged : Flagged s
  removed : s.registered = false → FinitelyOften reads s
  exhausted : Exhausted reads s → FinitelyOften reads s

/-! ## When it is kept -/

/-- From the n-th read on, and with `written` bytes before it, the reader gives
nonempty packets that end exactly at the length of the body. -/
inductive Delivers (reads : Nat → Option Bytes) (bodyLen : Nat) : Nat → Nat → Prop
  | last {n written : Nat} {packet : Bytes} (hread : reads n = some packet)
    (hend : packet.length + written = bodyLen) : Delivers reads bodyLen n written
  | more {n written : Nat} {packet : Bytes} (hread : reads n = some packet)
    (hpos : 0 < packet.length) (hmore : packet.length + written < bodyLen)
    (rest : Delivers reads bodyLen (n + 1) (written + packet.length)) :
    Delivers reads bodyLen n written

/-- The stream is not removed while the counter of its full queue holds the body back. -/
def RemovedWithRoom (s : Station) : Action → Prop
  | .remove => s.body.isSome = true → s.channel.low.counter.isOccupied = false
  | _ => True

/-! ## One turn -/

/-- What a turn of the worker can do. -/
inductive Turned (reads : Nat → Option Bytes) (s : Station) (body : ChunkableBody) : Station → Prop
  | waits (occupied : s.channel.low.counter.isOccupied = true) : Turned reads s body s
  | failed (room : s.channel.low.counter.isOccupied = false) (hread : reads body.packetId = none) :
    Turned reads s body { s with body := none }
  | ended {packet : Bytes} {t : Station} (room : s.channel.low.counter.isOccupied = false)
    (hread : reads body.packetId = some packet)
    (hend : packet.length + body.bytesWritten = body.bodyLen)
    (hproduced : t.produced = s.produced ++ [⟨body.packetId, packet, true⟩])
    (hbody : t.body = none) : Turned reads s body t
  | continued {packet : Bytes} {t : Station} (room : s.channel.low.counter.isOccupied = false)
    (hread : reads body.packetId = some packet)
    (hmore : packet.length + body.bytesWritten ≠ body.bodyLen)
    (hproduced : t.produced = s.produced ++ [⟨body.packetId, packet, false⟩])
    (hbody : t.body = some ⟨body.bodyLen, body.packetId + 1, body.bytesWritten + packet.length⟩) :
    Turned reads s body t

theorem turned (reads : Nat → Option Bytes) (s : Station) (body : ChunkableBody) :
    Turned reads s body (s.turn reads body) := by
  unfold turn
  split
  · rename_i hoccupied
    exact .waits hoccupied
  · rename_i hroom
    rw [Bool.not_eq_true] at hroom
    cases hread : reads body.packetId with
    | none => exact .failed hroom hread
    | some packet =>
      by_cases hend : packet.length + body.bytesWritten = body.bodyLen
      · exact .ended hroom hread hend (by simp [hend]) (by simp [hend])
      · exact .continued hroom hread hend (by simp [hend]) (by simp [hend])

end Station

/-- A failed send leaves the counter as it was. -/
theorem Queue.sendDisconnected_eq {μ : Type} (queue : Queue μ) : queue.sendDisconnected = queue := by
  obtain ⟨⟨limit, counter⟩, messages⟩ := queue
  unfold sendDisconnected ChunkCounter.tryIncrement
  dsimp only
  split
  · rfl
  · simp [ChunkCounter.decrement]

namespace Station

/-- A turn touches the channel like a send of the body, or not at all. -/
theorem turn_channel (reads : Nat → Option Bytes) (s : Station) (body : ChunkableBody) :
    (s.turn reads body).registered = s.registered ∧
    ((s.turn reads body).channel = s.channel ∨ s.registered = true ∧
      ∃ chunk, (s.turn reads body).channel = s.channel.perform (.sendLow (.body chunk))) := by
  unfold turn
  split
  · exact ⟨rfl, .inl rfl⟩
  · cases reads body.packetId with
    | none => exact ⟨rfl, .inl rfl⟩
    | some packet =>
      refine ⟨rfl, ?_⟩
      cases hregistered : s.registered with
      | true => exact .inr ⟨rfl, _, rfl⟩
      | false =>
        left
        simp [Queue.sendDisconnected_eq]

/-! ## Any run -/

section Runs
variable {reads : Nat → Option Bytes} {s t : Station} {bodyLen : Nat}

/-- What a run from a body that was just given keeps. -/
structure Inv (reads : Nat → Option Bytes) (bodyLen : Nat) (s : Station) : Prop where
  bounded : s.channel.Bounded
  flagged : Flagged s
  room : s.registered = false → s.body.isSome = true → s.channel.low.counter.isOccupied = false
  len : ∀ body, s.body = some body → body.bodyLen = bodyLen
  delivers : ∀ body, s.body = some body → Delivers reads bodyLen body.packetId body.bytesWritten
  started : ∀ body, s.body = some body → 0 < body.packetId → body.bytesWritten < bodyLen

theorem inv_given (h : Delivers reads bodyLen 0 0) : Inv reads bodyLen (given bodyLen) := by
  refine ⟨Channel.bounded_new, nofun, nofun, ?_, ?_, ?_⟩
  · intro body hbody
    cases hbody
    rfl
  · intro body hbody
    cases hbody
    exact h
  · intro body hbody hpos
    cases hbody
    exact absurd hpos (Nat.lt_irrefl 0)

theorem other_eq_some {op : Op QueuedRequest} (h : step reads s (.other op) = some t) :
    t = s ∨ (s.registered = true ∧ t = { s with channel := s.channel.perform op }) := by
  have h : (if s.registered then { s with channel := s.channel.perform op } else s) = t :=
    Option.some.inj h
  split at h
  · exact .inr ⟨by assumption, h.symm⟩
  · exact .inl h.symm

/-- The worker keeps the queue's bounds, whoever else uses the queue. -/
theorem bounded_step {a : Action} (h : s.channel.Bounded) (hstep : step reads s a = some t) :
    t.channel.Bounded := by
  cases a with
  | turn =>
    obtain ⟨body, hbody, rfl⟩ := Option.map_eq_some_iff.mp hstep
    obtain ⟨-, hchannel | ⟨-, chunk, hchannel⟩⟩ := turn_channel reads s body
    · rw [hchannel]
      exact h
    · rw [hchannel]
      exact h.perform _
  | other op =>
    obtain rfl | ⟨-, rfl⟩ := other_eq_some hstep
    · exact h
    · exact h.perform op
  | remove =>
    cases hstep
    exact h

/-- Behind the delivered bytes there is one packet that ends the body, or one that
does not and more to come. -/
theorem Delivers.next {n written : Nat} {packet : Bytes} (h : Delivers reads bodyLen n written)
    (hread : reads n = some packet) (hmore : packet.length + written ≠ bodyLen) :
    0 < packet.length ∧ packet.length + written < bodyLen ∧
      Delivers reads bodyLen (n + 1) (written + packet.length) := by
  cases h with
  | last hread' hend =>
    cases hread.symm.trans hread'
    exact absurd hend hmore
  | more hread' hpos hlt rest =>
    cases hread.symm.trans hread'
    exact ⟨hpos, hlt, rest⟩

theorem inv_step {a : Action} (h : Inv reads bodyLen s) (hroom : RemovedWithRoom s a)
    (hstep : step reads s a = some t) : Inv reads bodyLen t := by
  have hbounded := bounded_step h.bounded hstep
  obtain ⟨-, hflagged, hfree, hlen, hdelivers, hstarted⟩ := h
  cases a with
  | turn =>
    obtain ⟨body, hbody, rfl⟩ := Option.map_eq_some_iff.mp hstep
    obtain ⟨hregistered, hchannel⟩ := turn_channel reads s body
    have hkept : (s.turn reads body).registered = false →
        (s.turn reads body).channel.low.counter.isOccupied = false := by
      intro hgone
      rw [hregistered] at hgone
      obtain hsame | ⟨hregistered', -⟩ := hchannel
      · rw [hsame]
        exact hfree hgone (by rw [hbody]; rfl)
      · rw [hgone] at hregistered'
        cases hregistered'
    rw [Flagged, hbody] at hflagged
    generalize s.turn reads body = t at hbounded hkept hregistered hchannel hstep
    have hturned : Turned reads s body t := by
      obtain ⟨body', hbody', rfl⟩ := Option.map_eq_some_iff.mp hstep
      rw [hbody] at hbody'
      cases hbody'
      exact turned reads s body
    cases hturned with
    | waits => exact ⟨hbounded, by rw [Flagged, hbody]; exact hflagged, hfree, hlen, hdelivers, hstarted⟩
    | failed room hread =>
      cases hdelivers body hbody with
      | last hread' => cases hread.symm.trans hread'
      | more hread' => cases hread.symm.trans hread'
    | ended room hread hend hproduced hbody' =>
      refine ⟨hbounded, ?_, fun hgone _ => hkept hgone, ?_, ?_, ?_⟩
      · rw [Flagged, hbody']
        exact ⟨s.produced, _, hproduced, rfl, hflagged⟩
      all_goals
        intro other hother
        rw [hbody'] at hother
        cases hother
    | @continued packet _ room hread hmore hproduced hbody' =>
      rw [hlen body hbody] at hmore
      obtain ⟨hpos, hlt, hrest⟩ := (hdelivers body hbody).next hread hmore
      refine ⟨hbounded, ?_, fun hgone _ => hkept hgone, ?_, ?_, ?_⟩
      · rw [Flagged, hbody', hproduced]
        intro chunk hchunk
        obtain hold | hnew := List.mem_append.mp hchunk
        · exact hflagged chunk hold
        · rw [List.mem_singleton.mp hnew]
      all_goals
        intro other hother
        rw [hbody'] at hother
        cases hother
      · exact hlen body hbody
      · exact hrest
      · intro _
        dsimp only
        omega
  | other op =>
    obtain rfl | ⟨hregistered, rfl⟩ := other_eq_some hstep
    · exact ⟨hbounded, hflagged, hfree, hlen, hdelivers, hstarted⟩
    · refine ⟨hbounded, hflagged, fun hgone => ?_, hlen, hdelivers, hstarted⟩
      rw [hregistered] at hgone
      cases hgone
  | remove =>
    cases hstep
    exact ⟨hbounded, hflagged, fun _ hsome => hroom hsome, hlen, hdelivers, hstarted⟩

/-- What the body still lacks bounds how often the worker reads it. -/
theorem turns_le {as : List Action} (h : Inv reads bodyLen s) (hgone : s.registered = false)
    (run : exec (step reads) s as = some t) : as.countP Action.isTurn ≤
      match s.body with
      | some body => bodyLen - body.bytesWritten + 1
      | none => 0 := by
  induction as generalizing s with
  | nil => exact Nat.zero_le _
  | cons a as ih =>
    obtain ⟨u, hu, htail⟩ := Option.bind_eq_some_iff.mp run
    have hroom : RemovedWithRoom s a := by
      cases a <;> first | trivial | exact h.room hgone
    have hinv := inv_step h hroom hu
    cases a with
    | turn =>
      rw [List.countP_cons_of_pos rfl]
      obtain ⟨body, hbody, rfl⟩ := Option.map_eq_some_iff.mp hu
      have hrest := ih hinv ((turn_channel reads s body).1.trans hgone) htail
      rw [hbody]
      dsimp only
      have hturned := turned reads s body
      generalize s.turn reads body = u at hturned hrest hinv
      cases hturned with
      | waits occupied => simp [h.room hgone (by rw [hbody]; rfl)] at occupied
      | failed room hread =>
        dsimp only at hrest
        omega
      | ended room hread hend hproduced hbody' =>
        rw [hbody'] at hrest
        dsimp only at hrest
        omega
      | continued room hread hmore hproduced hbody' =>
        rw [h.len body hbody] at hmore
        obtain ⟨hpos, hlt, -⟩ := (h.delivers body hbody).next hread hmore
        rw [hbody'] at hrest
        dsimp only at hrest
        omega
    | other op =>
      rw [List.countP_cons_of_neg (by simp [Action.isTurn])]
      obtain hsame | ⟨hregistered, -⟩ := other_eq_some hu
      · rw [hsame] at hinv htail
        exact ih hinv hgone htail
      · rw [hgone] at hregistered
        cases hregistered
    | remove =>
      rw [List.countP_cons_of_neg (by decide)]
      have hsame : { s with registered := false } = u := Option.some.inj hu
      rw [← hsame] at hinv htail
      have hrest := ih hinv rfl htail
      exact hrest

/-- A reader with bytes missing has not been read to its end. -/
theorem Inv.not_exhausted (h : Inv reads bodyLen s) : ¬ Exhausted reads s := by
  intro ⟨body, hbody, hpos, hempty⟩
  have hmissing := h.started body hbody hpos
  have hread := hempty body.packetId (Nat.le_refl _)
  cases h.delivers body hbody with
  | last hread' hend =>
    cases hread.symm.trans hread'
    simp at hend
    omega
  | more hread' hpos' =>
    cases hread.symm.trans hread'
    exact absurd hpos' (Nat.lt_irrefl 0)

/-- As long as the invariant holds the body leaves the station. -/
theorem Inv.leaves (h : Inv reads bodyLen s) : Leaves reads s := by
  refine ⟨?_, h.flagged, fun hgone => ⟨_, fun after t run => turns_le h hgone run⟩,
    fun hexhausted => absurd hexhausted h.not_exhausted⟩
  intro t hstep
  obtain ⟨body, hbody, rfl⟩ := Option.map_eq_some_iff.mp hstep
  have hturned := turned reads s body
  generalize s.turn reads body = t at hturned
  cases hturned with
  | waits occupied =>
    refine .inr (.inr ⟨rfl, ?_, ?_⟩)
    · by_contra hgone
      rw [h.room (by simpa using hgone) (by rw [hbody]; rfl)] at occupied
      cases occupied
    · have hfull := h.bounded.low_messages
      have hlimit := h.bounded.low_limit
      simp only [ChunkCounter.isOccupied, decide_eq_true_eq] at occupied
      omega
  | failed room hread =>
    cases h.delivers body hbody with
    | last hread' => cases hread.symm.trans hread'
    | more hread' => cases hread.symm.trans hread'
  | ended room hread hend hproduced hbody' => exact .inr (.inl ⟨_, hproduced, rfl, hbody'⟩)
  | continued room hread hmore hproduced hbody' =>
    rw [h.len body hbody] at hmore
    obtain ⟨hpos, -, -⟩ := (h.delivers body hbody).next hread hmore
    exact .inl ⟨_, hproduced, List.ne_nil_of_length_pos hpos⟩

/-! ## Readers that do not deliver -/

/-- Where a removed stream's body leaves after finitely many turns, its reader
delivered. -/
theorem delivers_of_leaves {bound : Nat} {body : ChunkableBody} (hbody : s.body = some body)
    (hgone : s.registered = false) (hfree : s.channel.low.counter.isOccupied = false)
    (hleaves : ∀ as t, exec (step reads) s as = some t → Leaves reads t)
    (hbound : ∀ as t, exec (step reads) s as = some t → as.countP Action.isTurn ≤ bound) :
    Delivers reads body.bodyLen body.packetId body.bytesWritten := by
  induction bound generalizing s body with
  | zero =>
    have hstep : exec (step reads) s [.turn] = some (s.turn reads body) := by
      simp [step, hbody]
    exact absurd (hbound _ _ hstep) (by decide)
  | succ bound ih =>
    have hstep : step reads s .turn = some (s.turn reads body) := by simp [step, hbody]
    have hrun : ∀ as t, exec (step reads) (s.turn reads body) as = some t →
        exec (step reads) s (.turn :: as) = some t := by
      intro as t run
      rw [exec_cons, hstep]
      exact run
    have hnext := (hleaves [] s rfl).turn _ hstep
    have hafter := (hleaves [.turn] _ (hrun [] _ rfl)).flagged
    have hflagged := (hleaves [] s rfl).flagged
    rw [Flagged, hbody] at hflagged
    obtain ⟨hregistered, hchannel⟩ := turn_channel reads s body
    have hturned := turned reads s body
    generalize s.turn reads body = t at hturned hrun hnext hafter hregistered hchannel
    rw [hgone] at hregistered hchannel
    cases hturned with
    | waits occupied => simp [hfree] at occupied
    | failed room hread =>
      obtain ⟨chunks, last, hproduced, hlast, -⟩ := hafter
      have hmem : last ∈ s.produced := by
        rw [show s.produced = chunks ++ [last] from hproduced]
        exact List.mem_append_right _ (List.mem_singleton.mpr rfl)
      rw [hflagged last hmem] at hlast
      cases hlast
    | ended room hread hend => exact .last hread hend
    | @continued packet _ room hread hmore hproduced hbody' =>
      have hsame : t.channel = s.channel := by
        obtain hsame | ⟨hregistered', -⟩ := hchannel
        · exact hsame
        · cases hregistered'
      have hrest := ih hbody' hregistered (by rw [hsame]; exact hfree)
        (fun as u run => hleaves _ _ (hrun as u run))
        (fun as u run => by
          have := hbound _ _ (hrun as u run)
          rw [List.countP_cons_of_pos rfl] at this
          omega)
      have hpos : 0 < packet.length := by
        obtain ⟨chunk, hchunk, hne⟩ | ⟨chunk, -, -, hnone⟩ | ⟨-, hregistered', -⟩ := hnext
        · rw [hproduced] at hchunk
          obtain ⟨-, hlast⟩ := List.append_inj' hchunk rfl
          rw [← (List.cons.inj hlast).1] at hne
          exact List.length_pos_of_ne_nil hne
        · rw [hbody'] at hnone
          cases hnone
        · rw [hgone] at hregistered'
          cases hregistered'
      have hle : body.bytesWritten + packet.length ≤ body.bodyLen := by
        cases hrest <;> dsimp only at * <;> omega
      exact .more hread hpos (by omega) hrest

end Runs

/-- In every run in which the stream is removed with room in its queue or after the
body, each turn gets on with the body and the body leaves, exactly if its reader
delivers `bodyLen` bytes. -/
theorem leaves_iff_delivers (reads : Nat → Option Bytes) (bodyLen : Nat) :
    (∀ as s, exec (step reads) (given bodyLen) as = some s →
      Every (step reads) RemovedWithRoom (given bodyLen) as → Leaves reads s) ↔
    Delivers reads bodyLen 0 0 := by
  constructor
  · intro hleaves
    -- remove the stream at once: every later run meets the condition
    let removed : Station := { given bodyLen with registered := false }
    have hcondition : ∀ as (s : Station), s.channel.low.counter.isOccupied = false →
        s.registered = false → Every (step reads) RemovedWithRoom s as := by
      intro as
      induction as with
      | nil =>
        intro s _ _
        trivial
      | cons a as ih =>
        intro s hfree hgone
        refine ⟨?_, fun t ht => ?_⟩
        · cases a <;> first | trivial | exact fun _ => hfree
        · cases a with
          | turn =>
            obtain ⟨body, -, rfl⟩ := Option.map_eq_some_iff.mp ht
            obtain ⟨hregistered, hsame | ⟨hregistered', -⟩⟩ := turn_channel reads s body
            · exact ih _ (by rw [hsame]; exact hfree) (hregistered.trans hgone)
            · rw [hgone] at hregistered'
              cases hregistered'
          | other op =>
            obtain rfl | ⟨hregistered, -⟩ := other_eq_some ht
            · exact ih _ hfree hgone
            · rw [hgone] at hregistered
              cases hregistered
          | remove =>
            cases ht
            exact ih _ hfree rfl
    have hall : ∀ as t, exec (step reads) removed as = some t → Leaves reads t := by
      intro as t run
      refine hleaves (.remove :: as) t run ⟨fun _ => rfl, fun u hu => ?_⟩
      cases hu
      exact hcondition as removed rfl rfl
    obtain ⟨bound, hbound⟩ := (hall [] removed rfl).removed rfl
    exact delivers_of_leaves (s := removed) rfl rfl rfl hall hbound
  · intro hdelivers as s run hroom
    exact (exec_invariant_of_every (inv_given hdelivers)
      (fun t a u hinv hc hstep => inv_step hinv hc hstep) hroom run).leaves

/-! ## Readers -/

open FacesHttp3.SendLoop (chunkSize)

/-- A cursor over bytes in memory. -/
def cursor (data : Bytes) (n : Nat) : Option Bytes :=
  some ((data.drop (n * chunkSize)).take chunkSize)

theorem cursor_length {data : Bytes} {n : Nat} : ∀ packet, cursor data n = some packet →
    packet.length = min chunkSize (data.length - n * chunkSize) := by
  intro packet hread
  cases hread
  rw [List.length_take, List.length_drop]

/-- A body of bytes is delivered, whatever its length. -/
theorem delivers_cursor (data : Bytes) (n : Nat) (h : n * chunkSize ≤ data.length) :
    Delivers (cursor data) data.length n (n * chunkSize) := by
  have hpos : 0 < chunkSize := by decide
  generalize hmissing : data.length - n * chunkSize = missing
  induction missing using Nat.strongRecOn generalizing n with
  | _ missing ih =>
    have hlen := cursor_length _ (show cursor data n = some _ from rfl)
    by_cases hlast : missing ≤ chunkSize
    · exact .last rfl (by omega)
    · have hnext : (n + 1) * chunkSize = n * chunkSize + chunkSize := Nat.succ_mul n chunkSize
      refine .more rfl (by omega) (by omega) ?_
      have hrest := ih (missing - chunkSize) (by omega) (n + 1) (by omega) (by omega)
      have hfull : ((data.drop (n * chunkSize)).take chunkSize).length = chunkSize := by omega
      rw [hnext] at hrest
      rw [hfull]
      exact hrest

/-- A turn on a body of bytes that does not wait does what the send loop says of it. -/
theorem turn_cursor {data : Bytes} {n : Nat} {s t : Station} (id : SendLoop.StreamId)
    (sender : SendLoop.ChunkSender) (hroom : s.channel.low.counter.isOccupied = false)
    (hbody : s.body = some ⟨data.length, n, n * chunkSize⟩)
    (hstep : step (cursor data) s .turn = some t) :
    let chunkable : SendLoop.ChunkableBody :=
      ⟨id, data.drop (n * chunkSize), sender, data.length, n, n * chunkSize⟩
    ∃ chunk, t.produced = s.produced ++ [chunk] ∧ chunkable.read.1 = .body chunk ∧
      t.body = chunkable.read.2.map fun rest => ⟨rest.bodyLen, rest.packetId, rest.bytesWritten⟩ := by
  intro chunkable
  obtain ⟨body, hbody', rfl⟩ := Option.map_eq_some_iff.mp hstep
  cases hbody.symm.trans hbody'
  have hturned := turned (cursor data) s ⟨data.length, n, n * chunkSize⟩
  generalize s.turn (cursor data) ⟨data.length, n, n * chunkSize⟩ = t at hturned
  unfold SendLoop.ChunkableBody.read
  cases hturned with
  | waits occupied => simp [hroom] at occupied
  | failed _ hread => cases hread
  | @ended packet _ _ hread hend hproduced hended =>
    have hpacket : (data.drop (n * chunkSize)).take chunkSize = packet := Option.some.inj hread
    refine ⟨_, hproduced, ?_⟩
    simp only [chunkable, hpacket]
    simp [hend, hended]
  | @continued packet _ _ hread hmore hproduced hrest =>
    have hpacket : (data.drop (n * chunkSize)).take chunkSize = packet := Option.some.inj hread
    refine ⟨_, hproduced, ?_⟩
    simp only [chunkable, hpacket]
    simp [hmore, hrest]

/-! ## Bodies that stay -/

/-- Reading nothing before the end is not getting on. -/
theorem not_leaves_of_empty {reads : Nat → Option Bytes} {s t : Station} {n : Nat}
    (hstep : step reads s .turn = some t) (hproduced : t.produced = s.produced ++ [⟨n, [], false⟩]) :
    ¬ Leaves reads s := by
  intro h
  obtain ⟨chunk, hchunk, hne⟩ | ⟨chunk, hchunk, hend, -⟩ | ⟨hsame, -⟩ := h.turn t hstep
  · rw [hproduced] at hchunk
    obtain ⟨rfl, -⟩ := List.cons.inj (List.append_cancel_left hchunk)
    exact hne rfl
  · rw [hproduced] at hchunk
    obtain ⟨rfl, -⟩ := List.cons.inj (List.append_cancel_left hchunk)
    cases hend
  · rw [hsame] at hproduced
    simp at hproduced

/-- Neither is waiting for a queue that is gone. -/
theorem not_leaves_of_occupied {reads : Nat → Option Bytes} {s : Station}
    (hbody : s.body.isSome = true) (hgone : s.registered = false)
    (hoccupied : s.channel.low.counter.isOccupied = true) : ¬ Leaves reads s := by
  intro h
  obtain ⟨body, hbody⟩ := Option.isSome_iff_exists.mp hbody
  have hstep : step reads s .turn = some s := by
    simp [step, hbody, turn, hoccupied]
  obtain ⟨chunk, hchunk, -⟩ | ⟨chunk, hchunk, -⟩ | ⟨-, hregistered, -⟩ := h.turn s hstep
  · simp at hchunk
  · simp at hchunk
  · rw [hgone] at hregistered
    cases hregistered

/-- A file of two bytes that has only one left when it is read. -/
def truncated (n : Nat) : Option Bytes := if n = 0 then some [1] else some []

/-- The stream's queue is filled up and then removed. -/
def filledAndRemoved : List Action :=
  List.replicate 150 (.other (.sendLow (.streamData ⟨0, [], false⟩))) ++ [.remove]

/-- The worker keeps the truncated file, and any body behind a queue that was removed
when it was full. -/
theorem bodies_left_behind :
    (∃ s, exec (step truncated) (given 2) [.turn] = some s ∧ ¬ Leaves truncated s) ∧
    ∃ s, exec (step (cursor [1, 2])) (given 2) filledAndRemoved = some s ∧
      ¬ Leaves (cursor [1, 2]) s := by
  refine ⟨?_, ?_⟩
  · have hrun : ((exec (step truncated) (given 2) [.turn]).any fun s =>
        (step truncated s .turn).any fun t =>
          decide (t.produced = s.produced ++ [⟨1, [], false⟩])) = true := by
      decide +kernel
    obtain ⟨s, hs, hnext⟩ := (Option.any_eq_true _ _).mp hrun
    obtain ⟨t, ht, hproduced⟩ := (Option.any_eq_true _ _).mp hnext
    exact ⟨s, hs, not_leaves_of_empty ht (of_decide_eq_true hproduced)⟩
  · have hrun : ((exec (step (cursor [1, 2])) (given 2) filledAndRemoved).any fun s =>
        s.body.isSome && !s.registered && s.channel.low.counter.isOccupied) = true := by
      decide +kernel
    obtain ⟨s, hs, hfacts⟩ := (Option.any_eq_true _ _).mp hrun
    simp only [Bool.and_eq_true, Bool.not_eq_true'] at hfacts
    exact ⟨s, hs, not_leaves_of_occupied hfacts.1.1 hfacts.1.2 hfacts.2⟩

end Station
end FacesHttp3.Chunks
