import FacesHttp3.Chunks.Station
import FacesHttp3.Lib.PMap
import FacesHttp3.Lib.Projection
import FacesHttp3.Lib.RoundRobin

/-! # The chunking worker

One thread cuts the bodies of all streams of all connections. It takes the body at the
front of the station, asks whether the queue of its stream is occupied, reads the body
once if it is not, queues the chunk, and puts the body back. Everyone else goes on
meanwhile: a step is one access of one thread. -/

namespace FacesHttp3.Chunks.Worker
open FacesHttp3.Lib FacesHttp3.Lib.Exec FacesHttp3.Request
open FacesHttp3.SendLoop (QueuedRequest BodyRequest)

/-- The stream id and the connection's scid. -/
abbrev Ids := Nat × Bytes

/-- The bodies of a stream are told apart by a number. -/
abbrev Key := Ids × Nat

/-- A channel as its senders hold it, in the map or not. -/
structure Entry where
  ids : Ids
  channel : Channel QueuedRequest := .new

/-- A body in the station. -/
structure Job where
  key : Key
  sender : Nat
  body : ChunkableBody
  deriving DecidableEq

/-- Where the worker stands with the body it took. -/
inductive Pc
  | idle
  | received (job : Job)
  | reading (job : Job)
  | resending (job : Job)

def Pc.job? : Pc → Option Job
  | .idle => none
  | .received job | .reading job | .resending job => some job

/-- `given` are the bodies the station ever got with their lengths, `taken` those the
worker took, turn by turn, and `chunks` what it cut. -/
structure State where
  map : PMap Ids Nat := PMap.empty
  channels : PMap Nat Entry := PMap.empty
  station : List Job := []
  pc : Pc := .idle
  given : PMap Key Nat := PMap.empty
  taken : List Key := []
  chunks : List (Key × BodyRequest) := []

/-- The first four are the other threads': an access to the map, an operation on a
channel, or a body for the station. -/
inductive Action
  | insertNewChannel (ids : Ids) (sender : Nat)
  | removeStream (ids : Ids)
  | perform (sender : Nat) (op : Op QueuedRequest)
  | sendResponse (key : Key) (sender bodyLen : Nat)
  | recv
  | isOccupied
  | send
  | resend

def Action.ofWorker : Action → Bool
  | .recv | .isOccupied | .send | .resend => true
  | _ => false

def Entry.perform (op : Op QueuedRequest) (entry : Entry) : Entry :=
  { entry with channel := entry.channel.perform op }

/-- `ChunkSender::send` of a chunk. -/
def Entry.send (registered : Bool) (chunk : BodyRequest) (entry : Entry) : Entry :=
  let low := entry.channel.low
  { entry with channel := { entry.channel with
      low := if registered then low.send (.body chunk) else low.sendDisconnected } }

namespace State

/-- The channel is the one in the map; otherwise its receiver is gone. -/
def registered (s : State) (ids : Ids) (sender : Nat) : Bool := s.map ids = some sender

def occupied (s : State) (job : Job) : Bool :=
  (s.channels job.sender).any fun entry => entry.channel.low.counter.isOccupied

/-- The worker reads the body and queues what it got; an error drops the body. -/
def cut (reads : Key → Nat → Option Bytes) (s : State) (job : Job) : State :=
  match reads job.key job.body.packetId with
  | none => { s with pc := .idle }
  | some packet =>
    let isEnd := packet.length + job.body.bytesWritten == job.body.bodyLen
    let chunk : BodyRequest := { packetId := job.body.packetId, packet, isEnd }
    { s with
      channels := s.channels.modify job.sender (Entry.send (s.registered job.key.1 job.sender) chunk)
      chunks := s.chunks ++ [(job.key, chunk)]
      pc := if isEnd then .idle else .resending { job with body := { job.body with
        packetId := job.body.packetId + 1
        bytesWritten := job.body.bytesWritten + packet.length } } }

end State

/-- `reads key n` is what the reader of the body answers the n-th time. -/
def step (reads : Key → Nat → Option Bytes) (s : State) : Action → Option State
  | .insertNewChannel ids sender =>
    guarded ((s.channels sender).isNone) <|
      match s.map ids with
      | some _ => s
      | none => { s with
          map := s.map.insert ids sender
          channels := s.channels.insert sender { ids } }
  | .removeStream ids => some { s with map := s.map.erase ids }
  | .perform sender op =>
    match s.channels sender with
    | some entry => some <|
        if s.registered entry.ids sender then
          { s with channels := s.channels.modify sender (Entry.perform op) }
        else s
    | none => none
  | .sendResponse key sender bodyLen =>
    -- the sender was attached to the body when its response was prepared
    guarded ((s.given key).isNone ∧ (s.channels sender).any fun entry => entry.ids = key.1) { s with
      station := s.station ++ [⟨key, sender, { bodyLen }⟩]
      given := s.given.insert key bodyLen }
  | .recv =>
    match s.pc, s.station with
    | .idle, job :: station => some { s with
        station := station
        pc := .received job
        taken := s.taken ++ [job.key] }
    | _, _ => none
  | .isOccupied =>
    match s.pc with
    | .received job => some { s with pc := if s.occupied job then .resending job else .reading job }
    | _ => none
  | .send =>
    match s.pc with
    | .reading job => some (s.cut reads job)
    | _ => none
  | .resend =>
    match s.pc with
    | .resending job => some { s with station := s.station ++ [job], pc := .idle }
    | _ => none

/-! ## What a step does -/

/-- The bodies that are not finished, in the order in which they will be taken. -/
def State.jobs (s : State) : List Job := s.station ++ s.pc.job?.toList

def State.line (s : State) : List Key := s.jobs.map Job.key

/-- What a read makes of a body, and the chunk it gives. -/
inductive Cut (reads : Key → Nat → Option Bytes) (s : State) (job : Job) : State → Prop
  | dropped (read : reads job.key job.body.packetId = none) : Cut reads s job { s with pc := .idle }
  | ended (packet : Bytes) (read : reads job.key job.body.packetId = some packet)
    (whole : packet.length + job.body.bytesWritten = job.body.bodyLen) : Cut reads s job { s with
      channels := s.channels.modify job.sender
        (Entry.send (s.registered job.key.1 job.sender) ⟨job.body.packetId, packet, true⟩)
      chunks := s.chunks ++ [(job.key, ⟨job.body.packetId, packet, true⟩)]
      pc := .idle }
  | continued (packet : Bytes) (read : reads job.key job.body.packetId = some packet)
    (more : packet.length + job.body.bytesWritten ≠ job.body.bodyLen) : Cut reads s job { s with
      channels := s.channels.modify job.sender
        (Entry.send (s.registered job.key.1 job.sender) ⟨job.body.packetId, packet, false⟩)
      chunks := s.chunks ++ [(job.key, ⟨job.body.packetId, packet, false⟩)]
      pc := .resending { job with body := ⟨job.body.bodyLen, job.body.packetId + 1,
        job.body.bytesWritten + packet.length⟩ } }

inductive Transition (reads : Key → Nat → Option Bytes) (s : State) : Action → State → Prop
  | inserted {ids sender} (fresh : s.channels sender = none) (absent : s.map ids = none) :
    Transition reads s (.insertNewChannel ids sender) { s with
      map := s.map.insert ids sender
      channels := s.channels.insert sender { ids } }
  | present {ids sender} (fresh : s.channels sender = none) (present : s.map ids ≠ none) :
    Transition reads s (.insertNewChannel ids sender) s
  | removed {ids} : Transition reads s (.removeStream ids) { s with map := s.map.erase ids }
  | performed {sender op entry} (channel : s.channels sender = some entry)
    (registered : s.registered entry.ids sender = true) : Transition reads s (.perform sender op) { s with
      channels := s.channels.modify sender (Entry.perform op) }
  | disconnected {sender op entry} (channel : s.channels sender = some entry)
    (gone : s.registered entry.ids sender = false) : Transition reads s (.perform sender op) s
  | given {key sender bodyLen entry} (fresh : s.given key = none) (channel : s.channels sender = some entry)
    (ids : entry.ids = key.1) : Transition reads s (.sendResponse key sender bodyLen) { s with
      station := s.station ++ [⟨key, sender, { bodyLen }⟩]
      given := s.given.insert key bodyLen }
  | received {job station} (at_ : s.pc = .idle) (front : s.station = job :: station) :
    Transition reads s .recv { s with station, pc := .received job, taken := s.taken ++ [job.key] }
  | waits {job} (at_ : s.pc = .received job) (occupied : s.occupied job = true) :
    Transition reads s .isOccupied { s with pc := .resending job }
  | room {job} (at_ : s.pc = .received job) (room : s.occupied job = false) :
    Transition reads s .isOccupied { s with pc := .reading job }
  | cut {job t} (at_ : s.pc = .reading job) (cut : Cut reads s job t) : Transition reads s .send t
  | resent {job} (at_ : s.pc = .resending job) :
    Transition reads s .resend { s with station := s.station ++ [job], pc := .idle }

theorem cut_cut (reads : Key → Nat → Option Bytes) (s : State) (job : Job) :
    Cut reads s job (s.cut reads job) := by
  unfold State.cut
  cases hread : reads job.key job.body.packetId with
  | none => exact .dropped hread
  | some packet =>
    by_cases hend : packet.length + job.body.bytesWritten = job.body.bodyLen
    · simp only [beq_iff_eq.mpr hend, if_true]
      exact .ended packet hread hend
    · simp only [beq_eq_false_iff_ne.mpr hend, Bool.false_eq_true, if_false]
      exact .continued packet hread hend

theorem step_transition {reads : Key → Nat → Option Bytes} {s t : State} {a : Action}
    (h : step reads s a = some t) : Transition reads s a t := by
  cases a with
  | insertNewChannel ids sender =>
    obtain ⟨hfresh, h⟩ := guarded_eq_some_iff.mp h
    cases hmap : s.map ids with
    | none =>
      rw [hmap] at h
      subst h
      exact .inserted (Option.isNone_iff_eq_none.mp hfresh) hmap
    | some other =>
      rw [hmap] at h
      subst h
      exact .present (Option.isNone_iff_eq_none.mp hfresh) (by simp [hmap])
  | removeStream ids =>
    cases h
    exact .removed
  | perform sender op =>
    simp only [step] at h
    split at h
    case h_1 entry hchannel =>
      split at h <;> cases h
      · exact .performed hchannel ‹_›
      · exact .disconnected hchannel ((Bool.not_eq_true _).mp ‹_›)
    case h_2 => cases h
  | sendResponse key sender bodyLen =>
    obtain ⟨⟨hfresh, hchannel⟩, rfl⟩ := guarded_eq_some_iff.mp h
    obtain ⟨entry, hentry, hids⟩ := (Option.any_eq_true _ _).mp hchannel
    exact .given (Option.isNone_iff_eq_none.mp hfresh) hentry (of_decide_eq_true hids)
  | recv =>
    simp only [step] at h
    split at h
    case h_1 hpc hstation =>
      cases h
      exact .received hpc hstation
    case h_2 => cases h
  | isOccupied =>
    simp only [step] at h
    split at h
    case h_1 job hpc =>
      cases h
      cases hoccupied : s.occupied job with
      | true => exact .waits hpc hoccupied
      | false => exact .room hpc hoccupied
    case h_2 => cases h
  | send =>
    simp only [step] at h
    split at h
    case h_1 job hpc =>
      cases h
      exact .cut hpc (cut_cut reads s job)
    case h_2 => cases h
  | resend =>
    simp only [step] at h
    split at h
    case h_1 job hpc =>
      cases h
      exact .resent hpc
    case h_2 => cases h

/-! ## A turn without interruption -/

/-- The body and its channel as the station of this one body. -/
def State.alone (s : State) (job : Job) (entry : Entry) : Station where
  body := some job.body
  channel := entry.channel
  registered := s.registered job.key.1 job.sender

/-- A read of the body, as a turn that found room. -/
theorem turn_of_cut {reads : Key → Nat → Option Bytes} {s t : State} {job : Job} {entry : Entry}
    (hentry : s.channels job.sender = some entry) (hroom : s.occupied job = false)
    (cut : Cut reads s job t) :
    let turned := (s.alone job entry).turn (reads job.key) job.body
    t.station = s.station ∧ t.channels job.sender = some { entry with channel := turned.channel } ∧
      t.chunks = s.chunks ++ turned.produced.map (job.key, ·) ∧
      t.pc.job? = turned.body.map fun body => { job with body } := by
  have hfree : entry.channel.low.counter.isOccupied = false := by simpa [State.occupied, hentry] using hroom
  cases cut with
  | dropped read => simp [Station.turn, State.alone, hfree, read, hentry, Pc.job?]
  | ended packet read whole =>
    simp [Station.turn, State.alone, hfree, read, hentry, Pc.job?, whole, PMap.modify, Entry.send]
  | continued packet read more =>
    have hmore := beq_eq_false_iff_ne.mpr more
    simp [Station.turn, State.alone, hfree, read, hentry, Pc.job?, hmore, PMap.modify, Entry.send]

/-- The worker's steps with the body at the front, one after the other, are a turn. -/
theorem turn_uninterrupted {reads : Key → Nat → Option Bytes} {s : State} {job : Job} {rest : List Job}
    {entry : Entry} (hpc : s.pc = .idle) (hfront : s.station = job :: rest)
    (hentry : s.channels job.sender = some entry) :
    let turned := (s.alone job entry).turn (reads job.key) job.body
    ∃ as t, (∀ a ∈ as, a.ofWorker = true) ∧ exec (step reads) s as = some t ∧ t.pc = .idle ∧
      t.station = rest ++ (turned.body.map fun body => { job with body }).toList ∧
      t.channels job.sender = some { entry with channel := turned.channel } ∧
      t.chunks = s.chunks ++ turned.produced.map (job.key, ·) := by
  intro turned
  let received : State := { s with station := rest, pc := .received job, taken := s.taken ++ [job.key] }
  have hreceived : step reads s .recv = some received := by simp [step, hpc, hfront, received]
  cases hoccupied : s.occupied job with
  | true =>
    have hfull : entry.channel.low.counter.isOccupied = true := by
      simpa [State.occupied, hentry] using hoccupied
    have hwaits : turned = s.alone job entry := by simp [turned, Station.turn, State.alone, hfull]
    have hoccupied' : received.occupied job = true := hoccupied
    have hresending : step reads received .isOccupied = some { received with pc := .resending job } := by
      simp [step, hoccupied', received]
    refine ⟨[.recv, .isOccupied, .resend], { received with station := rest ++ [job], pc := .idle },
      by simp [Action.ofWorker], ?_, rfl, ?_, ?_, ?_⟩
    · rw [exec_cons, hreceived, Option.bind_some, exec_cons, hresending]
      rfl
    · rw [hwaits]
      rfl
    · rw [hwaits]
      exact hentry
    · simp [hwaits, received, State.alone]
  | false =>
    let reading : State := { received with pc := .reading job }
    have hoccupied' : received.occupied job = false := hoccupied
    have hreading : step reads received .isOccupied = some reading := by
      simp [step, hoccupied', received, reading]
    have hcut : step reads reading .send = some (reading.cut reads job) := rfl
    obtain ⟨hstation, hchannel, hchunks, hjob⟩ := turn_of_cut (s := reading) hentry hoccupied
      (cut_cut reads reading job)
    have hthere : exec (step reads) s [.recv, .isOccupied, .send] = some (reading.cut reads job) := by
      simp [hreceived, hreading, hcut]
    have hsame : reading.alone job entry = s.alone job entry := rfl
    rw [hsame] at hchannel hchunks hjob
    cases hend : (reading.cut reads job).pc with
    | idle =>
      refine ⟨_, _, by simp [Action.ofWorker], hthere, hend, ?_, hchannel, hchunks⟩
      rw [← hjob, hend, hstation]
      simp [Pc.job?, reading, received]
    | resending job' =>
      refine ⟨[.recv, .isOccupied, .send] ++ [.resend],
        { reading.cut reads job with station := rest ++ [job'], pc := .idle },
        by simp [Action.ofWorker], ?_, rfl, ?_, hchannel, hchunks⟩
      · rw [exec_snoc, hthere, Option.bind_some]
        simp [step, hend, hstation, reading, received]
      · rw [← hjob, hend]
        rfl
    | received job' | reading job' =>
      exfalso
      have hcuts := cut_cut reads reading job
      generalize reading.cut reads job = t at hcuts hend
      cases hcuts <;> cases hend

/-! ## Turns -/

section Turns
variable {reads : Key → Nat → Option Bytes} {s t : State} {a : Action} {key : Key}

/-- The bodies in the station are different ones, all given to it. -/
structure Numbered (s : State) : Prop where
  nodup : s.line.Nodup
  given : ∀ key ∈ s.line, s.given key ≠ none

theorem mem_line : key ∈ s.line ↔ ∃ job ∈ s.jobs, job.key = key := List.mem_map

/-- A step moves at most the front of the line, or lets a new body in, or one out. -/
theorem step_move (h : Numbered s) (hstep : step reads s a = some t) :
    ∃ k, RoundRobin.Move s.line k t.line ∧ t.taken = s.taken ++ k.toList := by
  have hrest : t.line = s.line → t.taken = s.taken →
      ∃ k, RoundRobin.Move s.line k t.line ∧ t.taken = s.taken ++ k.toList := by
    intro hline htaken
    exact ⟨none, hline ▸ .rest _, by rw [htaken, Option.toList_none, List.append_nil]⟩
  cases step_transition hstep with
  | inserted | present | removed | performed | disconnected => exact hrest rfl rfl
  | @given key sender bodyLen _ fresh =>
    have hnew : key ∉ s.station.map Job.key ++ s.pc.job?.toList.map Job.key := by
      rw [← List.map_append]
      exact fun hmem => h.given key hmem fresh
    refine ⟨none, ?_, by simp⟩
    simpa [State.line, State.jobs] using RoundRobin.Move.join hnew
  | received at_ front =>
    refine ⟨some _, ?_, rfl⟩
    simpa [State.line, State.jobs, at_, front, Pc.job?] using RoundRobin.Move.take _ _
  | waits at_ | room at_ => exact hrest (by simp [State.line, State.jobs, at_, Pc.job?]) rfl
  | resent at_ => exact hrest (by simp [State.line, State.jobs, at_, Pc.job?]) rfl
  | @cut job _ at_ cut =>
    have hleave : RoundRobin.Move s.line none (s.station.map Job.key) := by
      simpa [State.line, State.jobs, at_, Pc.job?] using
        RoundRobin.Move.leave job.key (s.station.map Job.key) []
    cases cut with
    | dropped | ended => exact ⟨none, by simpa [State.line, State.jobs, Pc.job?] using hleave, by simp⟩
    | continued => exact hrest (by simp [State.line, State.jobs, at_, Pc.job?]) rfl

theorem numbered_init : Numbered {} := ⟨List.nodup_nil, fun _ hmem => absurd hmem List.not_mem_nil⟩

/-- Bodies come into the line when they are given only. -/
theorem line_subset (hstep : step reads s a = some t) (hkey : key ∈ t.line) :
    key ∈ s.line ∨ (s.given key = none ∧ t.given key ≠ none) := by
  cases step_transition hstep with
  | inserted | present | removed | performed | disconnected => exact .inl hkey
  | @given new sender bodyLen _ fresh =>
    simp only [State.line, State.jobs, List.map_append, List.map_cons, List.map_nil, List.mem_append,
      List.mem_singleton] at hkey ⊢
    rcases hkey with (hold | rfl) | hheld
    · exact .inl (.inl hold)
    · exact .inr ⟨fresh, by simp⟩
    · exact .inl (.inr hheld)
  | received at_ front =>
    left
    simpa [State.line, State.jobs, at_, front, Pc.job?, or_comm] using hkey
  | waits at_ | room at_ | resent at_ =>
    left
    simpa [State.line, State.jobs, at_, Pc.job?] using hkey
  | cut at_ cut =>
    left
    cases cut with
    | dropped | ended =>
      simp only [State.line, State.jobs, at_, Pc.job?, List.map_append, List.mem_append] at hkey ⊢
      exact hkey.imp_right fun hnone => (by simp at hnone)
    | continued => simpa [State.line, State.jobs, at_, Pc.job?] using hkey

theorem given_kept {len : Nat} (hstep : step reads s a = some t) (hkey : s.given key = some len) :
    t.given key = some len := by
  cases step_transition hstep with
  | given fresh => exact (PMap.insert_of_ne _ _ (by rintro rfl; cases fresh.symm.trans hkey)).trans hkey
  | cut _ cut => cases cut <;> exact hkey
  | _ => exact hkey

theorem numbered_step (h : Numbered s) (hstep : step reads s a = some t) : Numbered t := by
  obtain ⟨k, hmove, -⟩ := step_move h hstep
  refine ⟨hmove.nodup h.nodup, fun key hkey => ?_⟩
  rcases line_subset hstep hkey with hold | ⟨-, hnew⟩
  · obtain ⟨len, hlen⟩ := Option.ne_none_iff_exists'.mp (h.given key hold)
    simp [given_kept hstep hlen]
  · exact hnew

theorem numbered_of_exec {run : List Action} (hrun : exec (step reads) {} run = some s) : Numbered s :=
  exec_invariant numbered_init (fun _ _ _ h hstep => numbered_step h hstep) hrun

/-- A body that is finished does not come back. -/
theorem line_of_given {len : Nat} (hgiven : s.given key = some len) (hstep : step reads s a = some t)
    (hkey : key ∈ t.line) : key ∈ s.line := by
  rcases line_subset hstep hkey with hold | ⟨hnew, -⟩
  · exact hold
  · cases hnew.symm.trans hgiven

/-- What happens to the line while two bodies stay in it. -/
theorem exec_moves {b : Key} {as : List Action} (h : Numbered s) (here : key ∈ s.line ∧ b ∈ s.line)
    (has : exec (step reads) s as = some t) (hthere : key ∈ t.line ∧ b ∈ t.line) :
    ∃ taken, t.taken = s.taken ++ taken ∧
      RoundRobin.Moves (fun line => key ∈ line ∧ b ∈ line) s.line taken t.line := by
  obtain ⟨m, hm⟩ := Option.ne_none_iff_exists'.mp (h.given key here.1)
  obtain ⟨n, hn⟩ := Option.ne_none_iff_exists'.mp (h.given b here.2)
  have hinv : (Numbered t ∧ t.given key = some m ∧ t.given b = some n) ∧ (key ∈ t.line ∧ b ∈ t.line →
      ∃ taken, t.taken = s.taken ++ taken ∧
        RoundRobin.Moves (fun line => key ∈ line ∧ b ∈ line) s.line taken t.line) := by
    refine exec_invariant (P := fun u => (Numbered u ∧ u.given key = some m ∧ u.given b = some n) ∧
      (key ∈ u.line ∧ b ∈ u.line → ∃ taken, u.taken = s.taken ++ taken ∧
        RoundRobin.Moves (fun line => key ∈ line ∧ b ∈ line) s.line taken u.line)) ?_ ?_ has
    · exact ⟨⟨h, hm, hn⟩, fun _ => ⟨[], (List.append_nil _).symm, .nil⟩⟩
    · rintro u a v ⟨⟨hnumbered, hkey, hb⟩, hmoves⟩ hstep
      refine ⟨⟨numbered_step hnumbered hstep, given_kept hstep hkey, given_kept hstep hb⟩, fun hv => ?_⟩
      obtain ⟨taken, htaken, hmoves⟩ := hmoves ⟨line_of_given hkey hstep hv.1, line_of_given hb hstep hv.2⟩
      obtain ⟨k, hmove, hturn⟩ := step_move hnumbered hstep
      exact ⟨taken ++ k.toList, by rw [hturn, htaken, List.append_assoc], .snoc hmoves hmove hv⟩
  exact hinv.2 hthere

end Turns

/-- Any two bodies that are in the station all along, of any streams and connections and
whether or not their queues are occupied, are taken equally often, or one of them once
more. -/
theorem turns_even {reads : Key → Nat → Option Bytes} {run as : List Action} {s t : State}
    (hrun : exec (step reads) {} run = some s) (has : exec (step reads) s as = some t) {a b : Key}
    (ha : a ∈ s.line ∧ a ∈ t.line) (hb : b ∈ s.line ∧ b ∈ t.line) :
    ∃ turns, t.taken = s.taken ++ turns ∧ turns.count a ≤ turns.count b + 1 ∧
      turns.count b ≤ turns.count a + 1 := by
  have hnumbered := numbered_of_exec hrun
  obtain ⟨turns, hturns, hmoves⟩ := exec_moves hnumbered ⟨ha.1, hb.1⟩ has ⟨ha.2, hb.2⟩
  have hswapped : RoundRobin.Moves (fun line => b ∈ line ∧ a ∈ line) s.line turns t.line := by
    simpa only [and_comm] using hmoves
  exact ⟨turns, hturns, hmoves.even hnumbered.nodup ⟨ha.1, hb.1⟩,
    hswapped.even hnumbered.nodup ⟨hb.1, ha.1⟩⟩

/-- Readers that give one byte at a time. -/
def byByte : Key → Nat → Option Bytes := fun _ _ => some [0]

/-- Two connections with a body each. -/
def twoBodies : List Action :=
  [.insertNewChannel (0, [1]) 0, .insertNewChannel (0, [2]) 1, .sendResponse ((0, [1]), 0) 0 3,
    .sendResponse ((0, [2]), 0) 1 3]

/-- A turn for the first, and the second is taken. -/
def firstTurns : List Action := [.recv, .isOccupied, .send, .resend, .recv, .isOccupied]

theorem turns_even_twoBodies : ∃ s t, exec (step byByte) {} twoBodies = some s ∧
    exec (step byByte) s firstTurns = some t ∧ ∃ turns, t.taken = s.taken ++ turns ∧
      turns.count ((0, [1]), 0) ≤ turns.count ((0, [2]), 0) + 1 ∧
      turns.count ((0, [2]), 0) ≤ turns.count ((0, [1]), 0) + 1 := by
  have hfacts : ((exec (step byByte) {} twoBodies).any fun s =>
      decide (((0, [1]), 0) ∈ s.line ∧ ((0, [2]), 0) ∈ s.line) &&
      (exec (step byByte) s firstTurns).any fun t =>
        decide (((0, [1]), 0) ∈ t.line ∧ ((0, [2]), 0) ∈ t.line)) = true := by
    decide +kernel
  obtain ⟨s, hs, hfacts⟩ := (Option.any_eq_true _ _).mp hfacts
  obtain ⟨hstart, hfacts⟩ := Bool.and_eq_true_iff.mp hfacts
  obtain ⟨t, ht, hend⟩ := (Option.any_eq_true _ _).mp hfacts
  have hstart := of_decide_eq_true hstart
  have hend := of_decide_eq_true hend
  exact ⟨s, t, hs, ht, turns_even hs ht ⟨hstart.1, hend.1⟩ ⟨hstart.2, hend.2⟩⟩

end FacesHttp3.Chunks.Worker
