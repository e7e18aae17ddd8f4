import FacesHttp3.Chunks.Worker

/-! # Streams apart

The station, the map and the worker are shared by all streams. The steps of a run that
concern one stream are by themselves a run of the worker, and leave the bodies, the
queues and the chunks of the stream as they are: what the others do decides only when. -/

namespace FacesHttp3.Chunks.Worker
open FacesHttp3.Lib FacesHttp3.Lib.Exec FacesHttp3.Request
open FacesHttp3.SendLoop (QueuedRequest BodyRequest)

/-! ## What belongs to a stream -/

def Job.Of (ids : Ids) (job : Job) : Bool := decide (job.key.1 = ids)

def Key.Of (ids : Ids) (key : Key) : Bool := decide (key.1 = ids)

def Entry.Of (ids : Ids) (entry : Entry) : Bool := decide (entry.ids = ids)

/-- The channels that were made for the stream. -/
def channelsOf (ids : Ids) (channels : PMap Nat Entry) : PMap Nat Entry :=
  fun sender => (channels sender).filter (Entry.Of ids)

/-- With a body of another stream the worker does nothing. -/
def Pc.only (ids : Ids) (pc : Pc) : Pc := if pc.job?.any (Job.Of ids) then pc else .idle

def State.only (ids : Ids) (s : State) : State where
  map := s.map.retain fun i => decide (i = ids)
  channels := channelsOf ids s.channels
  station := s.station.filter (Job.Of ids)
  pc := s.pc.only ids
  given := s.given.retain (Key.Of ids)
  taken := s.taken.filter (Key.Of ids)
  chunks := s.chunks.filter fun chunk => Key.Of ids chunk.1

def Action.Concerns (ids : Ids) (s : State) : Action → Bool
  | .insertNewChannel i _ | .removeStream i => decide (i = ids)
  | .perform sender _ => (s.channels sender).any (Entry.Of ids)
  | .sendResponse key _ _ => Key.Of ids key
  | .recv => s.station.head?.any (Job.Of ids)
  | .isOccupied | .send | .resend => s.pc.job?.any (Job.Of ids)

/-- A body's sender points to a channel of its stream. -/
def Wired (s : State) : Prop :=
  ∀ job ∈ s.jobs, ∃ entry, s.channels job.sender = some entry ∧ entry.ids = job.key.1

section Channels
variable {ids : Ids} {channels : PMap Nat Entry} {sender : Nat} {entry : Entry}

theorem channelsOf_of_mem (h : channels sender = some entry) (hids : entry.ids = ids) :
    channelsOf ids channels sender = some entry := by
  simp [channelsOf, h, Entry.Of, hids]

theorem channelsOf_none (h : channels sender = none) : channelsOf ids channels sender = none := by
  simp [channelsOf, h]

theorem channelsOf_insert (hids : entry.ids = ids) :
    channelsOf ids (channels.insert sender entry) = (channelsOf ids channels).insert sender entry := by
  funext other
  by_cases hother : other = sender
  · subst hother
    simp [channelsOf, Entry.Of, hids]
  · simp [channelsOf, PMap.insert_of_ne, hother]

theorem channelsOf_insert_of_ne (hfresh : channels sender = none) (hids : entry.ids ≠ ids) :
    channelsOf ids (channels.insert sender entry) = channelsOf ids channels := by
  funext other
  by_cases hother : other = sender
  · subst hother
    simp [channelsOf, Entry.Of, hids, hfresh]
  · simp [channelsOf, PMap.insert_of_ne, hother]

theorem channelsOf_modify {f : Entry → Entry} (hf : ∀ entry, (f entry).ids = entry.ids) :
    channelsOf ids (channels.modify sender f) = (channelsOf ids channels).modify sender f := by
  funext other
  by_cases hother : other = sender
  · subst hother
    cases hentry : channels other with
    | none => simp [channelsOf, PMap.modify, hentry]
    | some entry =>
      by_cases hids : entry.ids = ids
      · simp [channelsOf, PMap.modify, hentry, Option.filter_some, Entry.Of, hf, hids]
      · simp [channelsOf, PMap.modify, hentry, Option.filter_some, Entry.Of, hf, hids]
  · simp [channelsOf, PMap.modify, hother]

/-- Only the channel of another stream changes. -/
theorem channelsOf_modify_of_ne {f : Entry → Entry} (hf : ∀ entry, (f entry).ids = entry.ids)
    (h : channels sender = some entry) (hids : entry.ids ≠ ids) :
    channelsOf ids (channels.modify sender f) = channelsOf ids channels := by
  rw [channelsOf_modify hf]
  have hnone : channelsOf ids channels sender = none := by simp [channelsOf, h, Entry.Of, hids]
  rw [PMap.modify, hnone, Option.map_none]
  exact Function.update_eq_self_iff.mpr hnone.symm

end Channels

section Steps
variable {reads : Key → Nat → Option Bytes} {s t : State} {a : Action} {ids : Ids} {job : Job}

/-- Channels are added and changed, but stay those of their streams, and a body keeps its
sender. -/
theorem Wired.transfer (h : Wired s) (hjobs : ∀ job ∈ t.jobs, ∃ job' ∈ s.jobs, job'.sender = job.sender ∧
    job'.key = job.key) (hchannels : ∀ sender entry, s.channels sender = some entry →
      ∃ entry', t.channels sender = some entry' ∧ entry'.ids = entry.ids) : Wired t := by
  intro job hjob
  obtain ⟨job', hjob', hsender, hkey⟩ := hjobs job hjob
  obtain ⟨entry, hentry, hids⟩ := h job' hjob'
  obtain ⟨entry', hentry', hids'⟩ := hchannels _ entry hentry
  exact ⟨entry', hsender ▸ hentry', by rw [hids', hids, hkey]⟩

theorem exists_of_modify {channels : PMap Nat Entry} {f : Entry → Entry} {sender : Nat}
    (hf : ∀ entry, (f entry).ids = entry.ids) (other : Nat) (entry : Entry)
    (h : channels other = some entry) :
    ∃ entry', channels.modify sender f other = some entry' ∧ entry'.ids = entry.ids := by
  by_cases hother : other = sender
  · subst hother
    exact ⟨f entry, by simp [PMap.modify, h], hf entry⟩
  · exact ⟨entry, by simpa [PMap.modify, hother] using h, rfl⟩

theorem wired_step (h : Wired s) (hstep : step reads s a = some t) : Wired t := by
  have hsame : ∀ job ∈ s.jobs, ∃ job' ∈ s.jobs, job'.sender = job.sender ∧ job'.key = job.key :=
    fun job hjob => ⟨job, hjob, rfl, rfl⟩
  cases step_transition hstep with
  | present | disconnected | removed => exact h
  | inserted fresh =>
    refine h.transfer hsame fun sender entry hentry => ⟨entry, ?_, rfl⟩
    exact (PMap.insert_of_ne _ _ (by rintro rfl; cases fresh.symm.trans hentry)).trans hentry
  | performed => exact h.transfer hsame (exists_of_modify fun _ => rfl)
  | @given key sender bodyLen entry _ channel hids =>
    intro job hjob
    simp only [State.jobs, List.append_assoc, List.mem_append, List.mem_singleton] at hjob
    rcases hjob with hold | rfl | hheld
    · exact h job (List.mem_append_left _ hold)
    · exact ⟨entry, channel, hids⟩
    · exact h job (List.mem_append_right _ hheld)
  | received at_ front =>
    refine h.transfer (fun job hjob => ⟨job, ?_, rfl, rfl⟩) fun _ entry hentry => ⟨entry, hentry, rfl⟩
    simpa [State.jobs, at_, front, Pc.job?, or_comm] using hjob
  | waits at_ | room at_ | resent at_ =>
    refine h.transfer (fun job hjob => ⟨job, ?_, rfl, rfl⟩) fun _ entry hentry => ⟨entry, hentry, rfl⟩
    simpa [State.jobs, at_, Pc.job?] using hjob
  | @cut held _ at_ cut =>
    have hstation : ∀ job ∈ s.station, ∃ job' ∈ s.jobs, job'.sender = job.sender ∧ job'.key = job.key :=
      fun job hjob => hsame job (List.mem_append_left _ hjob)
    cases cut with
    | dropped =>
      refine h.transfer (fun job hjob => hstation job ?_) fun _ entry hentry => ⟨entry, hentry, rfl⟩
      simpa [State.jobs, Pc.job?] using hjob
    | ended =>
      refine h.transfer (fun job hjob => hstation job ?_) (exists_of_modify fun _ => rfl)
      simpa [State.jobs, Pc.job?] using hjob
    | continued =>
      refine h.transfer (fun job hjob => ?_) (exists_of_modify fun _ => rfl)
      simp only [State.jobs, Pc.job?, Option.toList_some, List.mem_append, List.mem_singleton] at hjob
      rcases hjob with hold | rfl
      · exact hstation job hold
      · exact ⟨held, by simp [State.jobs, at_, Pc.job?], rfl, rfl⟩

theorem only_init : State.only ids {} = {} := by
  have hmap : (PMap.empty : PMap Ids Nat).retain (fun i => decide (i = ids)) = PMap.empty := by
    funext i
    simp [PMap.retain]
  have hchannels : channelsOf ids PMap.empty = PMap.empty := rfl
  have hgiven : (PMap.empty : PMap Key Nat).retain (Key.Of ids) = PMap.empty := by
    funext key
    simp [PMap.retain]
  simp [State.only, hmap, hchannels, hgiven, Pc.only, Pc.job?]

/-- The map, as far as the stream is concerned. -/
theorem retain_update_of_ne {map : PMap Ids Nat} {i : Ids} (v : Option Nat) (hne : i ≠ ids) :
    PMap.retain (Function.update map i v) (fun i => decide (i = ids)) =
      map.retain fun i => decide (i = ids) := by
  funext other
  by_cases hother : other = ids
  · subst hother
    simp [PMap.retain, hne.symm]
  · simp [PMap.retain, hother]

theorem retain_update {map : PMap Ids Nat} (v : Option Nat) :
    PMap.retain (Function.update map ids v) (fun i => decide (i = ids)) =
      Function.update (map.retain fun i => decide (i = ids)) ids v := by
  funext other
  by_cases hother : other = ids
  · subst hother
    simp [PMap.retain]
  · simp [PMap.retain, hother]

theorem retain_given {given : PMap Key Nat} {key : Key} (len : Nat) :
    (given.insert key len).retain (Key.Of ids) =
      if key.1 = ids then (given.retain (Key.Of ids)).insert key len else given.retain (Key.Of ids) := by
  funext other
  by_cases hother : other = key
  · subst hother
    by_cases hids : other.1 = ids <;> simp [PMap.retain, Key.Of, hids]
  · split <;> simp [PMap.retain, PMap.insert_of_ne, hother]

theorem only_hidden (h : Wired s) (hstep : step reads s a = some t) (hkeep : a.Concerns ids s = false) :
    t.only ids = s.only ids := by
  cases step_transition hstep with
  | present | disconnected => rfl
  | inserted fresh =>
    have hne := of_decide_eq_false hkeep
    rw [State.only, channelsOf_insert_of_ne fresh hne, PMap.insert, retain_update_of_ne _ hne]
    rfl
  | removed =>
    have hne := of_decide_eq_false hkeep
    rw [State.only, PMap.erase, retain_update_of_ne _ hne]
    rfl
  | @performed sender op entry channel =>
    have hne : entry.ids ≠ ids := by simpa [Action.Concerns, channel, Entry.Of] using hkeep
    have hperform : ∀ entry, (Entry.perform op entry).ids = entry.ids := fun _ => rfl
    simp only [State.only, channelsOf_modify_of_ne hperform channel hne]
  | given =>
    have hne := of_decide_eq_false hkeep
    simp [State.only, retain_given, Job.Of, hne]
  | @received job station at_ front =>
    have hne : job.key.1 ≠ ids := by simpa [Action.Concerns, front, Job.Of] using hkeep
    simp [State.only, at_, front, Pc.only, Pc.job?, Job.Of, Key.Of, hne]
  | @waits job at_ | @room job at_ | @resent job at_ =>
    have hne : job.key.1 ≠ ids := by simpa [Action.Concerns, at_, Pc.job?, Job.Of] using hkeep
    simp [State.only, at_, Pc.only, Pc.job?, Job.Of, hne]
  | @cut job _ at_ cut =>
    have hne : job.key.1 ≠ ids := by simpa [Action.Concerns, at_, Pc.job?, Job.Of] using hkeep
    obtain ⟨entry, hentry, hids⟩ := h job (by simp [State.jobs, at_, Pc.job?])
    have hsent : ∀ registered chunk, channelsOf ids
        (s.channels.modify job.sender (Entry.send registered chunk)) = channelsOf ids s.channels :=
      fun registered chunk => channelsOf_modify_of_ne (fun _ => rfl) hentry (hids ▸ hne)
    cases cut with
    | dropped | ended | continued =>
      simp [State.only, at_, Pc.only, Pc.job?, Job.Of, Key.Of, hne, hsent]

theorem only_registered (sender : Nat) : (s.only ids).registered ids sender = s.registered ids sender := by
  simp [State.registered, State.only, PMap.retain]

theorem only_occupied (h : Wired s) (hjob : job ∈ s.jobs) (hids : job.key.1 = ids) :
    (s.only ids).occupied job = s.occupied job := by
  obtain ⟨entry, hentry, hentryIds⟩ := h job hjob
  rw [State.occupied, State.occupied, hentry]
  exact congrArg (Option.any _) (channelsOf_of_mem hentry (hentryIds.trans hids))

/-- What the worker makes of a body is the same. -/
theorem only_cut {t : State} (hids : job.key.1 = ids) (cut : Cut reads s job t) :
    (s.only ids).cut reads job = t.only ids := by
  have hregistered : (s.only ids).registered job.key.1 job.sender = s.registered job.key.1 job.sender := by
    rw [hids, only_registered]
  have hsent : ∀ registered chunk, channelsOf ids
      (s.channels.modify job.sender (Entry.send registered chunk)) =
        (channelsOf ids s.channels).modify job.sender (Entry.send registered chunk) :=
    fun registered chunk => channelsOf_modify fun _ => rfl
  cases cut with
  | dropped read => simp [State.cut, read, State.only, Pc.only, Pc.job?]
  | ended packet read whole =>
    simp only [State.cut, read, beq_iff_eq.mpr whole, if_true, hregistered]
    simp [State.only, Pc.only, Pc.job?, Key.Of, hids, hsent]
  | continued packet read more =>
    simp only [State.cut, read, beq_eq_false_iff_ne.mpr more, Bool.false_eq_true, if_false, hregistered]
    simp [State.only, Pc.only, Pc.job?, Job.Of, Key.Of, hids, hsent]

theorem only_kept (h : Wired s) (hstep : step reads s a = some t) (hkeep : a.Concerns ids s = true) :
    step reads (s.only ids) a = some (t.only ids) := by
  have hheld : ∀ job, s.pc.job? = some job → Option.any (Job.Of ids) (some job) = true →
      job ∈ s.jobs ∧ job.key.1 = ids ∧ (s.only ids).pc = s.pc := by
    intro job hjob hof
    exact ⟨by simp [State.jobs, hjob], of_decide_eq_true hof, by simp [State.only, Pc.only, hjob, hof]⟩
  cases step_transition hstep with
  | @inserted i sender fresh absent =>
    obtain rfl := of_decide_eq_true hkeep
    have hfresh : (s.only i).channels sender = none := channelsOf_none fresh
    have habsent : (s.only i).map i = none := by simp [State.only, PMap.retain, absent]
    simp only [step, hfresh, habsent, Option.isNone_none, guarded, if_true]
    have hchannels : channelsOf i (s.channels.insert sender { ids := i }) =
        (channelsOf i s.channels).insert sender { ids := i } := channelsOf_insert rfl
    have hmap : (s.map.insert i sender).retain (fun j => decide (j = i)) =
        (s.map.retain fun j => decide (j = i)).insert i sender := retain_update _
    simp only [State.only, hchannels, hmap]
  | @present i sender fresh present =>
    obtain rfl := of_decide_eq_true hkeep
    have hfresh : (s.only i).channels sender = none := channelsOf_none fresh
    obtain ⟨other, hother⟩ := Option.ne_none_iff_exists'.mp present
    have hpresent : (s.only i).map i = some other := by simp [State.only, PMap.retain, hother]
    simp [step, hfresh, hpresent]
  | removed =>
    obtain rfl := of_decide_eq_true hkeep
    simp only [step, State.only, PMap.erase, retain_update]
  | @performed sender op entry channel registered =>
    have hids : entry.ids = ids := by simpa [Action.Concerns, channel, Entry.Of] using hkeep
    subst hids
    have hchannel : (s.only entry.ids).channels sender = some entry := channelsOf_of_mem channel rfl
    have hperform : ∀ entry, (Entry.perform op entry).ids = entry.ids := fun _ => rfl
    simp only [step, hchannel, only_registered, registered, if_true]
    rw [State.only, State.only, channelsOf_modify hperform]
  | @disconnected sender op entry channel gone =>
    have hids : entry.ids = ids := by simpa [Action.Concerns, channel, Entry.Of] using hkeep
    subst hids
    have hchannel : (s.only entry.ids).channels sender = some entry := channelsOf_of_mem channel rfl
    simp [step, hchannel, only_registered, gone]
  | @given key sender bodyLen entry fresh channel hentry =>
    have hids : key.1 = ids := of_decide_eq_true hkeep
    have hchannel : (s.only ids).channels sender = some entry :=
      channelsOf_of_mem channel (hentry.trans hids)
    have hfresh : (s.only ids).given key = none := by simp [State.only, PMap.retain, fresh]
    simp only [step, hchannel, hfresh, guarded, Option.any_some, Option.isNone_none, hentry, decide_true,
      and_self, if_true]
    simp [State.only, retain_given, Job.Of, hids]
  | @received job station at_ front =>
    have hids : job.key.1 = ids := by simpa [Action.Concerns, front, Job.Of] using hkeep
    have hpc : (s.only ids).pc = .idle := by simp [State.only, Pc.only, at_, Pc.job?]
    have hstation : (s.only ids).station = job :: station.filter (Job.Of ids) := by
      simp [State.only, front, Job.Of, hids]
    simp only [step, hpc, hstation]
    simp [State.only, Pc.only, Pc.job?, Job.Of, Key.Of, hids]
  | @waits job at_ occupied | @room job at_ occupied =>
    have hjob : s.pc.job? = some job := by rw [at_]; rfl
    obtain ⟨hmem, hids, hpc⟩ := hheld job hjob (hjob ▸ hkeep)
    simp only [step, hpc, at_, only_occupied h hmem hids, occupied]
    simp [State.only, Pc.only, Pc.job?, Job.Of, hids]
  | @resent job at_ =>
    have hjob : s.pc.job? = some job := by rw [at_]; rfl
    obtain ⟨-, hids, hpc⟩ := hheld job hjob (hjob ▸ hkeep)
    simp only [step, hpc, at_]
    simp [State.only, Pc.only, Pc.job?, Job.Of, hids]
  | @cut job _ at_ cut =>
    have hjob : s.pc.job? = some job := by rw [at_]; rfl
    obtain ⟨-, hids, hpc⟩ := hheld job hjob (hjob ▸ hkeep)
    simp only [step, hpc, at_, only_cut hids cut]

end Steps

/-- Seen from one stream there are no others. -/
theorem stream_alone {reads : Key → Nat → Option Bytes} {run : List Action} {s : State}
    (hrun : exec (step reads) {} run = some s) (ids : Ids) :
    exec (step reads) {} (kept (step reads) (fun s a => a.Concerns ids s) {} run) = some (s.only ids) := by
  have hprojects : Projects (step reads) (step reads) (fun s a => a.Concerns ids s)
      (fun s u => Wired s ∧ u = s.only ids) := by
    constructor
    · rintro s u a t ⟨hwired, rfl⟩ hstep hkeep
      exact ⟨t.only ids, only_kept hwired hstep hkeep, wired_step hwired hstep, rfl⟩
    · rintro s u a t ⟨hwired, rfl⟩ hstep hkeep
      exact ⟨wired_step hwired hstep, (only_hidden hwired hstep hkeep).symm⟩
  have hinit : Wired {} ∧ ({} : State) = State.only ids {} :=
    ⟨fun job hjob => absurd hjob List.not_mem_nil, only_init.symm⟩
  obtain ⟨u, hkept, -, rfl⟩ := hprojects.run hinit hrun
  exact hkept

theorem stream_alone_twoBodies : ∃ s, exec (step byByte) {} (twoBodies ++ firstTurns) = some s ∧
    exec (step byByte) {} (kept (step byByte) (fun s a => a.Concerns (0, [2]) s) {}
      (twoBodies ++ firstTurns)) = some (s.only (0, [2])) := by
  have hrun : (exec (step byByte) {} (twoBodies ++ firstTurns)).isSome = true := by decide +kernel
  obtain ⟨s, hs⟩ := Option.isSome_iff_exists.mp hrun
  exact ⟨s, hs, stream_alone hs (0, [2])⟩

end FacesHttp3.Chunks.Worker
