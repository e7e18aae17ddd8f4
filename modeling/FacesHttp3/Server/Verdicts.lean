import FacesHttp3.Server.Entries
import FacesHttp3.Server.Network

/-! # One verdict for each section

Every header section that was admitted is given exactly one verdict. It cannot get
stuck, and its own steps are bounded; what it writes into the request table and the
error response it queues stay there unless another thread removes them. -/

namespace FacesHttp3.Server
open FacesHttp3.Lib FacesHttp3.Lib.Exec FacesHttp3.Request FacesHttp3.Router
open FacesHttp3.RequestsTable FacesHttp3.InFlight

variable {M H L C W ω : Type}

/-! ## Progress -/

/-- The next step of a section, with whatever its environment answers. -/
def JobPc.next (number : Nat) (answer : Answer) (uuid : String) (file : Option W) :
    JobPc M → Action L W ω
  | .queued _ => .processNext number
  | .waiting _ => .takeJob number
  | .calling _ _ (_ :: _) _ => .callMiddleware number answer
  | .calling _ _ [] _ => .check number
  | .checked _ true _ => .complete number uuid file
  | .checked _ false _ => .lookup number
  | .creating _ _ => .create number uuid file
  | .written _ => .sendReceptionStatus number
  | .reported _ => .sendSignal number
  | .rejecting _ _ => .sendRejected number
  | .rejected _ _ => .insertErrorQueue number
  | .answering _ _ => .getSenders number
  | .sending _ _ => .sendError number

/-- How many middlewares the section must pass. -/
def chainLength (manager : RouteManager M H L C) (message : HeaderMessage) : Nat :=
  match headerWork manager message with
  | .execute job => job.middlewareCollection.length
  | _ => 0

/-- A bound on the steps a section still makes. -/
def JobPc.remaining (manager : RouteManager M H L C) : JobPc M → Nat
  | .queued message => chainLength manager message + 9
  | .waiting job => job.middlewareCollection.length + 8
  | .calling _ _ rest _ => rest.length + 7
  | .checked _ _ _ | .rejecting _ _ => 5
  | .creating _ _ | .rejected _ _ => 4
  | .written _ | .answering _ _ => 3
  | .reported _ | .sending _ _ => 2

/-- What is left of the section `number`, nothing once it is over. -/
def State.remaining (manager : RouteManager M H L C) (s : State M H L C W ω) (number : Nat) : Nat :=
  (s.jobs number).elim 0 (JobPc.remaining manager)

theorem JobStep.remaining_lt {manager : RouteManager M H L C} {form404 : Option ErrorForm}
    {pc : JobPc M} {sign : Sign} {pc' : Option (JobPc M)} (h : JobStep manager form404 pc sign pc') :
    pc'.elim 0 (JobPc.remaining manager) < pc.remaining manager := by
  cases h with
  | route work =>
    simp only [Option.elim_some, JobPc.remaining, chainLength, work]
    omega
  | errorLost sending => rcases sending with rfl | rfl <;> simp [JobPc.remaining]
  | _ => simp [JobPc.remaining]

section Steps
variable [DecidableEq ω] {manager : RouteManager M H L C} {config : ServerConfig}
  {form404 : Option ErrorForm} {s t : State M H L C W ω} {a : Action L W ω} {number : Nat} {pc : JobPc M}

theorem along_isSome_of_job {action : Dispatch.Action (PartialReq L W) ω} {id : ReqId}
    (hid : s.shared.jobs number = some id)
    (haction : (∃ write, action = .jobWrite number write) ∨ ∃ verdict, action = .jobVerdict number verdict)
    (next : State M H L C W ω) : (s.along action next).isSome = true := by
  rcases haction with ⟨write, rfl⟩ | ⟨verdict, rfl⟩ <;> simp [State.along, Dispatch.step, hid]

/-- Whatever is answered, a section that is not over can make its next step. -/
theorem next_enabled (h : GateInv manager s) (hpc : s.jobs number = some pc) (answer : Answer)
    (uuid : String) (file : Option W) :
    (step config form404 manager s (pc.next number answer uuid file)).isSome = true := by
  have hshared := h.shared number pc hpc
  cases pc with
  | queued message => cases hwork : headerWork manager message <;> simp [JobPc.next, step, hpc, hwork]
  | waiting job => simp [JobPc.next, step, hpc]
  | calling job headers rest calls =>
    cases rest with
    | nil => simp [JobPc.next, step, hpc]
    | cons middleware rest =>
      cases answer with
      | ok flow => cases flow <;> simp [JobPc.next, step, hpc]
      | error => simp [JobPc.next, step, hpc]
  | checked job isSet headers =>
    cases isSet with
    | true =>
      simp only [JobPc.next, step, hpc]
      exact along_isSome_of_job (hshared rfl) (.inl ⟨_, rfl⟩) _
    | false =>
      simp only [JobPc.next, step, hpc]
      split
      · exact along_isSome_of_job (hshared rfl) (.inl ⟨_, rfl⟩) _
      · rfl
  | creating job headers =>
    simp only [JobPc.next, step, hpc]
    exact along_isSome_of_job (hshared rfl) (.inl ⟨_, rfl⟩) _
  | written job => simp [JobPc.next, step, hpc]
  | reported job | rejecting message rejection =>
    simp only [JobPc.next, step, hpc]
    exact along_isSome_of_job (hshared rfl) (.inr ⟨_, rfl⟩) _
  | rejected message rejection => simp [JobPc.next, step, hpc]
  | answering message rejection =>
    simp only [JobPc.next, step, hpc]
    split <;> rfl
  | sending message rejection =>
    simp only [JobPc.next, step, hpc]
    split <;> rfl

/-- A section's own step is one of the steps that remain, and nobody else makes them. -/
theorem remaining_step (hnumber : number < s.sections) (hstep : step config form404 manager s a = some t) :
    if a.number = some number then t.remaining manager number < s.remaining manager number
    else t.remaining manager number = s.remaining manager number := by
  cases step_section hstep number with
  | elsewhere other jobs => simp [other, State.remaining, jobs]
  | admitted other network sections => omega
  | own own before step =>
    simp only [own, if_true, State.remaining, before, Option.elim_some]
    exact step.remaining_lt

/-! ## The request table -/

/-- Only a section whose middlewares all continued writes into the request table. -/
theorem own_table (hnumber : a.number = some number) (hpc : s.jobs number = some pc)
    (hchecked : pc.Checked = false) (hstep : step config form404 manager s a = some t) :
    t.shared.table = s.shared.table := by
  cases step_transition hstep with
  | headersAdmitted | headersRefused | sectionQueued | dataEntered | dataWritten | finishedHandled
  | finishedCancelled | streamReset | connectionClosed | eventBuilt | preparationEnded | along =>
    cases hnumber
  | completed held | found held | created held =>
    cases hnumber
    cases held.symm.trans hpc
    cases hchecked
  | signalSent _ protocol | rejectedSent _ protocol => exact (jobVerdict_shared protocol).2.2
  | _ => rfl

/-! ### What stays in it -/

/-- The entry is still there, and what the headers decide is still set. -/
def Kept (before after : Option (PartialReq L W)) : Prop :=
  ∀ entry, before = some entry → ∃ entry', after = some entry' ∧ (entry.head.Full → entry'.head.Full)

theorem Kept.refl (before : Option (PartialReq L W)) : Kept before before :=
  fun entry h => ⟨entry, h, id⟩

/-- The entry it finds is changed so. -/
theorem Kept.of_map {before : Option (PartialReq L W)} {f : PartialReq L W → PartialReq L W}
    (h : ∀ entry, entry.head.Full → (f entry).head.Full) : Kept before (before.map f) := by
  intro entry hentry
  subst hentry
  exact ⟨f entry, rfl, h entry⟩

theorem complete_full (completion : PartialReq.Completion L W) (entry : PartialReq L W) :
    (entry.complete completion).head.Full := by
  simp [PartialReq.complete, PartialReq.head, Head.Full]

theorem fill_full (method : H3Method) (path : String) (headers : List Header)
    (contentLength : Option Nat) (entry : PartialReq L W) :
    (entry.fill method path headers contentLength).head.Full := by
  simp [PartialReq.fill, PartialReq.head, Head.Full]

/-- A new request is entered with everything its headers decide. -/
theorem addPartialRequestAbsent_full {table : Table L W} {id : ReqId} {method : H3Method}
    {attributes : Option DataManagement × Option L} {headers : List Header} {path : String}
    {contentLength : Option Nat} {isEnd : Bool} {uuid : String} {creation : FileCreation W}
    (hcreation : creation ≠ .handleFailed) : ∃ entry,
      Table.addPartialRequestAbsent table config id method attributes.1 attributes.2 headers path
        contentLength isEnd uuid creation id = some entry ∧ entry.head.Full := by
  obtain ⟨storage, hstorage⟩ :=
    Option.ne_none_iff_exists'.mp (newEntryStorage_ne_none config headers uuid hcreation attributes.1)
  simp only [Table.addPartialRequestAbsent, hstorage]
  cases table id with
  | some old => exact ⟨_, PMap.insert_self _ _ _, fill_full _ _ _ _ _⟩
  | none => exact ⟨_, PMap.insert_self _ _ _, by simp [PartialReq.new, PartialReq.head, Head.Full]⟩

omit [DecidableEq ω] in
theorem full_of_head {entry entry' : PartialReq L W} (hpath : entry'.path = entry.path)
    (hmethod : entry'.method = entry.method) (hheaders : entry'.headers = entry.headers)
    (h : entry.head.Full) : entry'.head.Full := by
  simpa [Head.Full, PartialReq.head, hpath, hmethod, hheaders] using h

/-- What is left of an entry when its event is built. -/
theorem buildRouteEvent_full {entry : PartialReq L W} (id : ReqId) (scid : Bytes)
    (h : entry.head.Full) : (entry.buildRouteEvent id scid).1.head.Full := by
  obtain ⟨flushed, hhead, hentry, -⟩ := buildRouteEvent_flushed entry id scid
  have hfull : flushed.head.Full := hhead ▸ h
  rw [hentry]
  unfold PartialReq.toRouteEvent
  split
  · exact full_of_head rfl rfl rfl hfull
  · exact hfull

theorem setRequestInTable_keeps (table : Table L W) (id : ReqId) :
    Kept (table id) (Table.setRequestInTable table id id) := by
  intro entry hentry
  refine ⟨entry, ?_, fun h => h⟩
  simp [Table.setRequestInTable, hentry]

theorem writeBodyPacket_keeps (table : Table L W) (id : ReqId) (packet : Bytes) :
    Kept (table id) ((Table.writeBodyPacket table id packet false).1 id) := by
  intro entry hentry
  refine ⟨(entry.writeBodyPacket packet false).1, ?_, fun h => ?_⟩
  · simp [Table.writeBodyPacket, hentry]
  · rw [writeBodyPacket_head]
    exact h

theorem addPartialRequestFound_keeps {table table' : Table L W} {id : ReqId} {method : H3Method}
    {headers : List Header} {path : String} {contentLength : Option Nat}
    (h : Table.addPartialRequestFound table id method headers path contentLength = some table') :
    ∃ entry, table' id = some entry ∧ entry.head.Full := by
  obtain ⟨old, hold, rfl⟩ := Option.map_eq_some_iff.mp h
  exact ⟨_, by rw [PMap.modify_self, hold, Option.map_some], fill_full _ _ _ _ _⟩

omit [DecidableEq ω] in
theorem kept_of_full {before after : Option (PartialReq L W)}
    (h : ∃ entry, after = some entry ∧ entry.head.Full) : Kept before after := by
  obtain ⟨entry, hentry, hfull⟩ := h
  exact fun _ _ => ⟨entry, hentry, fun _ => hfull⟩

/-- An entry stays in the request table, and set, until it is removed from it. -/
theorem step_keeps {id : ReqId} (h : GateInv manager s) (herase : ¬ Erases id s a)
    (hstep : step config form404 manager s a = some t) :
    Kept (s.shared.table id) (t.shared.table id) := by
  cases step_entry h hstep id with
  | same untouched table =>
    rw [table]
    exact Kept.refl _
  | set network table =>
    rw [table]
    exact setRequestInTable_keeps _ _
  | packet network table =>
    rw [table]
    exact writeBodyPacket_keeps _ _ _
  | completed job_eq id_eq table =>
    rw [table]
    exact .of_map fun _ _ => complete_full _ _
  | found job_eq id_eq table =>
    rw [table]
    exact .of_map fun _ _ => fill_full _ _ _ _ _
  | created job_eq id_eq table =>
    rw [table]
    exact kept_of_full
      (addPartialRequestAbsent_full (FileWriterPool.createStorage_ne_handleFailed _ _ _ _))
  | taken worker table =>
    rw [table]
    exact .of_map fun _ => buildRouteEvent_full _ _
  | erased erases table => exact absurd erases herase

/-- The entry of the section's stream is removed while the worker of the section has
looked at the request table and not sent its verdict. -/
def Removes (number : Nat) (s : State M H L C W ω) (a : Action L W ω) : Prop :=
  ∃ pc, s.jobs number = some pc ∧ pc.Checked = true ∧ Erases pc.message.id s a

/-- The entry a section found, and the one it wrote. -/
structure EntryInv (s : State M H L C W ω) (number : Nat) : Prop where
  found : ∀ job headers, s.jobs number = some (.checked job true headers) →
    (s.shared.table job.message.id).isSome = true
  set : ∀ job, s.jobs number = some (.written job) ∨ s.jobs number = some (.reported job) →
    ∃ entry, s.shared.table job.message.id = some entry ∧ entry.head.Full

omit [DecidableEq ω] in
theorem entryInv_of_not_checked (h : ∀ pc, s.jobs number = some pc → pc.Checked = false) :
    EntryInv s number := by
  refine ⟨fun job headers hpc => ?_, fun job hpc => ?_⟩
  · cases h _ hpc
  · rcases hpc with hpc | hpc <;> cases h _ hpc

omit [DecidableEq ω] in
/-- The section has written its entry. -/
theorem entryInv_of_written {job : MiddleWareJob M} {pc : JobPc M} (hpc : s.jobs number = some pc)
    (hwritten : pc = .written job ∨ pc = .reported job)
    (h : ∃ entry, s.shared.table job.message.id = some entry ∧ entry.head.Full) :
    EntryInv s number := by
  refine ⟨fun job' headers hpc' => ?_, fun job' hpc' => ?_⟩
  · rcases hwritten with rfl | rfl <;> cases hpc.symm.trans hpc'
  · rcases hwritten with rfl | rfl <;> rcases hpc' with hpc' | hpc' <;> cases hpc.symm.trans hpc' <;>
      exact h

omit [DecidableEq ω] in
theorem entryInv_of_moved (hpc : s.jobs number = some pc) (hchecked : pc.Checked = false) :
    EntryInv s number := by
  refine entryInv_of_not_checked fun pc' hpc' => ?_
  cases hpc.symm.trans hpc'
  exact hchecked

omit [DecidableEq ω] in
theorem entryInv_of_over (hnone : s.jobs number = none) : EntryInv s number := by
  refine entryInv_of_not_checked fun pc hpc => ?_
  cases hnone.symm.trans hpc

/-- A section's own step. -/
theorem EntryInv.own (h : EntryInv s number) (hgate : GateInv manager s)
    (hnumber : a.number = some number) (hstep : step config form404 manager s a = some t) :
    EntryInv t number := by
  cases step_transition hstep with
  | headersAdmitted | headersRefused | sectionQueued | dataChecked | dataEntered | dataWritten
  | finishedHandled | finishedCancelled | streamReset | connectionClosed | streamRemoved | eventBuilt
  | queueInserted | handlerCalled | preparationEnded | along => cases hnumber
  | routed | unrouted | jobTaken | continued | aborted | failed | rejectedSent | errorQueueInserted
  | sendersGot =>
    cases hnumber
    exact entryInv_of_moved (PMap.insert_self _ _ _) rfl
  | malformed | signalSent | bodySenderMissing | errorSent | errorLost =>
    cases hnumber
    exact entryInv_of_over (PMap.erase_self _ _)
  | checked =>
    cases hnumber
    refine ⟨fun job headers hpc => ?_, fun job hpc => ?_⟩
    · have hpc := Option.some.inj ((PMap.insert_self _ _ _).symm.trans hpc)
      simp only [JobPc.checked.injEq] at hpc
      obtain ⟨rfl, hset, -⟩ := hpc
      exact hset
    · rcases hpc with hpc | hpc <;> cases (PMap.insert_self _ _ _).symm.trans hpc
  | completed held protocol =>
    cases hnumber
    obtain ⟨old, hfound⟩ := Option.isSome_iff_exists.mp (h.found _ _ held)
    have htable := jobWrite_self protocol (hgate.shared _ _ held rfl)
    rw [Table.completeRequestEntryInTable, PMap.modify_self, hfound] at htable
    exact entryInv_of_written (PMap.insert_self _ _ _) (.inl rfl) ⟨_, htable, complete_full _ _⟩
  | found held found protocol =>
    cases hnumber
    obtain ⟨entry, hentry, hfull⟩ := addPartialRequestFound_keeps found
    have htable := jobWrite_self protocol (hgate.shared _ _ held rfl)
    exact entryInv_of_written (PMap.insert_self _ _ _) (.inl rfl) ⟨entry, htable.trans hentry, hfull⟩
  | absent =>
    cases hnumber
    refine ⟨fun job headers hpc => ?_, fun job hpc => ?_⟩
    · cases (PMap.insert_self _ _ _).symm.trans hpc
    · rcases hpc with hpc | hpc <;> cases (PMap.insert_self _ _ _).symm.trans hpc
  | created held _ protocol =>
    cases hnumber
    obtain ⟨entry, hentry, hfull⟩ :=
      addPartialRequestAbsent_full (FileWriterPool.createStorage_ne_handleFailed _ _ _ _)
    have htable := jobWrite_self protocol (hgate.shared _ _ held rfl)
    exact entryInv_of_written (PMap.insert_self _ _ _) (.inl rfl) ⟨entry, htable.trans hentry, hfull⟩
  | statusSent held =>
    cases hnumber
    exact entryInv_of_written (PMap.insert_self _ _ _) (.inr rfl) (h.set _ (.inl held))

theorem EntryInv.step (h : EntryInv s number) (hgate : GateInv manager s)
    (hkept : ¬ Removes number s a) (hstep : step config form404 manager s a = some t) :
    EntryInv t number := by
  cases step_section hstep number with
  | own own => exact h.own hgate own hstep
  | admitted other network sections next jobs =>
    refine entryInv_of_not_checked fun pc hpc => ?_
    cases jobs.symm.trans hpc
    rfl
  | elsewhere other jobs =>
    refine ⟨fun job headers hpc => ?_, fun job hpc => ?_⟩
    · rw [jobs] at hpc
      have hkeeps := step_keeps hgate (fun he => hkept ⟨_, hpc, rfl, he⟩) hstep
      obtain ⟨entry, hentry⟩ := Option.isSome_iff_exists.mp (h.found job headers hpc)
      obtain ⟨entry', hentry', -⟩ := hkeeps entry hentry
      exact Option.isSome_iff_exists.mpr ⟨entry', hentry'⟩
    · rw [jobs] at hpc
      have hkeeps : Kept (s.shared.table job.message.id) (t.shared.table job.message.id) := by
        rcases hpc with hpc | hpc
        · exact step_keeps hgate (fun he => hkept ⟨_, hpc, rfl, he⟩) hstep
        · exact step_keeps hgate (fun he => hkept ⟨_, hpc, rfl, he⟩) hstep
      obtain ⟨entry, hentry, hfull⟩ := h.set job hpc
      obtain ⟨entry', hentry', hfull'⟩ := hkeeps entry hentry
      exact ⟨entry', hentry', hfull' hfull⟩

/-! ## The error response -/

/-- The section's stream has its queue, and the error response is not queued yet. -/
def JobPc.Answering : JobPc M → Bool
  | .answering _ _ | .sending _ _ => true
  | _ => false

/-- The network thread removes the queue of the section's stream before the error
response is in it. -/
def RemovesQueue (number : Nat) (s : State M H L C W ω) (a : Action L W ω) : Prop :=
  ∃ pc, s.jobs number = some pc ∧ pc.Answering = true ∧ a = .removeStream pc.message.queueKey

/-- The error response of a section is queued once its stream has its queue. -/
theorem answering_step (hnumber : a.number = some number) (hpc : s.jobs number = some pc)
    (hanswering : pc.Answering = true) (hqueue : pc.message.queueKey ∈ s.queues)
    (hstep : step config form404 manager s a = some t) :
    t.queues = s.queues ∧ (t.jobs number = none → t.errorsOf number ≠ []) := by
  cases pc with
  | answering message rejection =>
    cases a <;> cases hnumber <;> simp only [step, hpc, reduceCtorEq] at hstep
    split at hstep <;> cases hstep
    · rename_i hlost
      exact absurd hqueue hlost.2
    · refine ⟨rfl, fun hnone => ?_⟩
      cases (PMap.insert_self _ _ _).symm.trans hnone
  | sending message rejection =>
    cases a <;> cases hnumber <;> simp only [step, hpc, reduceCtorEq] at hstep
    split at hstep <;> cases hstep
    · refine ⟨rfl, fun _ => ?_⟩
      simp [State.errorsOf]
    · rename_i hlost
      exact absurd hqueue hlost
  | _ => cases hanswering

/-- The queue of an error response is there, and no section ends without its
response. -/
structure AnswerInv (s : State M H L C W ω) (number : Nat) : Prop where
  queue : ∀ pc, s.jobs number = some pc → pc.Answering = true → pc.message.queueKey ∈ s.queues
  answered : s.jobs number = none → s.errorsOf number = [] → ∀ id, (id, .rejected) ∉ s.verdictsOf number

/-- The queue is made when the error response is prepared. -/
theorem queue_made {message : HeaderMessage} {rejection : Rejection}
    (hold : s.jobs number = some (.rejected message rejection)) (hnumber : a.number = some number)
    (hstep : step config form404 manager s a = some t) {pc' : JobPc M}
    (hnew : t.jobs number = some pc') : pc'.message.queueKey ∈ t.queues := by
  cases a <;> cases hnumber <;> simp only [step, hold, reduceCtorEq, Option.some.injEq] at hstep
  subst hstep
  cases (PMap.insert_self _ _ _).symm.trans hnew
  exact Finset.mem_insert_self _ _

omit [DecidableEq ω] in
/-- A section that was rejected has its verdict. -/
theorem Lives.verdicts_of_end {past : List (Action L W ω)} {message : HeaderMessage}
    (h : Lives manager form404 past s number message) (hpc : s.jobs number = some pc)
    (hopen : pc.Answering = false) {sign : Sign} (hstep : JobStep manager form404 pc sign none) :
    s.verdictsOf number = [] ∧ sign.verdicts ≠ [.rejected] := by
  obtain ⟨verdicts, errors, hverdicts, -, hlife⟩ := h
  rw [hpc] at hlife
  generalize answersOf number past = answers at hlife
  cases hstep with
  | malformed =>
    cases hlife with
    | queued => exact ⟨hverdicts, by simp [Sign.verdicts]⟩
    | accepted checked => cases checked
    | rejected _ answering => simp at answering
  | ready =>
    cases hlife with
    | accepted => exact ⟨hverdicts, by simp [Sign.verdicts]⟩
    | rejected _ answering => simp at answering
  | errorQueued => cases hopen
  | errorLost sending => rcases sending with rfl | rfl <;> cases hopen

theorem AnswerInv.step {past : List (Action L W ω)} {message : HeaderMessage} (h : AnswerInv s number)
    (hlives : Lives manager form404 past s number message) (hkept : ¬ RemovesQueue number s a)
    (hnumber : number < s.sections) (hstep : step config form404 manager s a = some t) :
    AnswerInv t number := by
  have hqueues := queues_step hstep
  cases step_section hstep number with
  | elsewhere other jobs verdicts errors =>
    refine ⟨fun pc hpc hanswering => ?_, fun hnone herrors id => ?_⟩
    · rw [jobs] at hpc
      rcases hqueues _ (h.queue pc hpc hanswering) with hkey | hremoved
      · exact hkey
      · exact absurd ⟨pc, hpc, hanswering, hremoved⟩ hkept
    · rw [verdicts]
      exact h.answered (jobs ▸ hnone) (errors ▸ herrors) id
  | admitted other network sections =>
    omega
  | @own pc sign own before life verdicts errors =>
    cases hanswering : pc.Answering with
    | true =>
      obtain ⟨hsame, hover⟩ := answering_step own before hanswering (h.queue pc before hanswering) hstep
      refine ⟨fun pc' hpc' _ => ?_, fun hnone herrors => absurd herrors (hover hnone)⟩
      rw [hsame]
      have hmessage : pc'.message = pc.message := by
        rw [hpc'] at life
        cases life <;> first | rfl | cases hanswering
      rw [hmessage]
      exact h.queue pc before hanswering
    | false =>
      refine ⟨fun pc' hpc' hanswering' => ?_, fun hnone herrors id => ?_⟩
      · rw [hpc'] at life
        cases life with
        | queue => exact queue_made before own hstep hpc'
        | senders => cases hanswering
        | _ => cases hanswering'
      · rw [hnone] at life
        obtain ⟨hverdicts, hsign⟩ := hlives.verdicts_of_end before hanswering life
        rw [verdicts, hverdicts, List.nil_append]
        intro hmem
        obtain ⟨verdict, hverdict, heq⟩ := List.mem_map.mp hmem
        cases heq
        cases sign <;> simp_all [Sign.verdicts]

/-! ## The network thread -/

/-- The section that is processed is numbered next. -/
theorem processHeader_enabled (hgate : GateInv manager s) (h : ProcessingInv s) {message : HeaderMessage}
    (hm : s.network = .processing message) :
    ∃ t, step config form404 manager s .processHeader = some t ∧ t.sections = s.sections + 1 := by
  have hfree := (hgate.fresh s.sections (Nat.le_refl _)).2
  simp only [step, hm, State.along, Dispatch.step, h message hm, hfree, guarded, and_self, if_true,
    Option.map_some]
  exact ⟨_, rfl, rfl⟩

/-! ## Runs -/

structure ServerInv (manager : RouteManager M H L C) (form404 : Option ErrorForm)
    (past : List (Action L W ω)) (s : State M H L C W ω) : Prop where
  gate : GateInv manager s
  sections : SectionsInv manager form404 past s
  processing : ProcessingInv s

theorem serverInv_of_exec {run : List (Action L W ω)}
    (hrun : exec (step config form404 manager) (init manager) run = some s) :
    ServerInv manager form404 run s :=
  exec_history ⟨gateInv_init, sectionsInv_init, fun _ h => by cases h⟩
    (fun _ _ _ _ h hstep => ⟨gateInv_step h.gate hstep, sectionsInv_step h.sections hstep,
      processingInv_step h.processing hstep⟩) hrun

theorem entryInv_of_exec {run : List (Action L W ω)}
    (hkept : Every (step config form404 manager) (fun s a => ¬ Removes number s a) (init manager) run)
    (hrun : exec (step config form404 manager) (init manager) run = some s) : EntryInv s number := by
  have h : GateInv manager s ∧ EntryInv s number :=
    exec_invariant_of_every (P := fun s => GateInv manager s ∧ EntryInv s number)
      ⟨gateInv_init, entryInv_of_not_checked fun _ h => by cases h⟩
      (fun _ _ _ h hkept hstep => ⟨gateInv_step h.1 hstep, h.2.step h.1 hkept hstep⟩) hkept hrun
  exact h.2

omit [DecidableEq ω] in
/-- A section that is not numbered has nothing to be answered. -/
theorem answerInv_of_unrecorded {past : List (Action L W ω)} (h : Unrecorded past s number)
    (hstep : SectionStep manager form404 number s t a) : AnswerInv t number := by
  cases hstep with
  | elsewhere other jobs verdicts =>
    refine ⟨fun pc hpc => ?_, fun _ _ id hmem => ?_⟩
    · cases h.jobs.symm.trans (jobs.symm.trans hpc)
    · rw [verdicts, h.verdicts] at hmem
      cases hmem
  | admitted other network sections next jobs =>
    refine ⟨fun pc hpc hanswering => ?_, fun hnone => ?_⟩
    · cases jobs.symm.trans hpc
      cases hanswering
    · cases jobs.symm.trans hnone
  | own own before => cases h.jobs.symm.trans before

theorem answerInv_of_exec {run : List (Action L W ω)}
    (hkept : Every (step config form404 manager) (fun s a => ¬ RemovesQueue number s a)
      (init manager) run)
    (hrun : exec (step config form404 manager) (init manager) run = some s) : AnswerInv s number := by
  have h : SectionsInv manager form404 run s ∧ AnswerInv s number := by
    refine exec_induction
      (P := fun past s => SectionsInv manager form404 past s ∧ AnswerInv s number) ?_ ?_ hkept hrun
    · exact ⟨sectionsInv_init, ⟨(fun _ h => by cases h), fun _ _ _ h => absurd h List.not_mem_nil⟩⟩
    · intro past s a t h hkept hstep
      refine ⟨sectionsInv_step h.1 hstep, ?_⟩
      by_cases hlt : number < s.sections
      · have hlength : number < s.admitted.length := hlt.trans_le h.1.intake.numbered
        have hlives := h.1.lives number _ hlt (List.getElem?_eq_getElem hlength)
        exact h.2.step hlives hkept hlt hstep
      · exact answerInv_of_unrecorded (h.1.unrecorded number (by omega)) (step_section hstep number)
  exact h.2

end Steps

section Laws
variable {manager : RouteManager M H L C} {form404 : Option ErrorForm} {message : HeaderMessage}
  {answers : List Answer}

/-- The two outcomes exclude each other. -/
theorem Accepts.not_rejects {rejection : Rejection} (h : Accepts manager message answers) :
    ¬ Rejects manager message answers rejection := by
  obtain ⟨middlewares, hmatches, -, hcontinued⟩ := h
  intro hrejects
  cases rejection with
  | unknownRoute => exact hrejects.1 middlewares hmatches
  | aborted response =>
    obtain ⟨-, before, last, -, rfl, -, -, hlast⟩ := hrejects
    obtain ⟨headers, rfl⟩ := hcontinued last (by simp)
    cases hlast

/-- Every middleware was called, so none is called afterwards. -/
theorem Accepts.not_rejects_append {rejection : Rejection} {later : List Answer}
    (h : Accepts manager message answers) :
    ¬ Rejects manager message (answers ++ later) rejection := by
  intro hrejects
  obtain ⟨middlewares, hmatches, hlength, hcontinued⟩ := h
  cases rejection with
  | unknownRoute => exact hrejects.1 middlewares hmatches
  | aborted response =>
    obtain ⟨middlewares', before, last, hmatches', hsplit, hle, hbefore, hlast⟩ := hrejects
    cases hmatches.unique hmatches'
    have hnone : later = [] := by
      rw [List.length_append] at hle
      exact List.length_eq_zero_iff.mp (by omega)
    subst hnone
    have hmem : last ∈ answers := by
      rw [List.append_nil] at hsplit
      simp [hsplit]
    obtain ⟨headers, rfl⟩ := hcontinued last hmem
    cases hlast

section Lives
variable {pc : Option (JobPc M)} {verdicts : List Dispatch.Verdict} {errors : List ErrorHeader}

theorem Life.once (h : Life manager form404 message pc answers verdicts errors) :
    verdicts = [] ∨ ∃ verdict, verdicts = [verdict] := by
  cases h with
  | ready | rejected | answered | unanswered => exact .inr ⟨_, rfl⟩
  | _ => exact .inl rfl

theorem Life.judged (h : Life manager form404 message none answers verdicts errors) :
    verdicts ≠ [] := by
  cases h <;> simp

theorem Life.ready_iff (h : Life manager form404 message pc answers verdicts errors) :
    .ready ∈ verdicts ↔ verdicts ≠ [] ∧ Accepts manager message answers := by
  cases h with
  | ready accepts => simp [accepts]
  | rejected rejects | answered rejects | unanswered rejects =>
    have hnot : ¬ Accepts manager message answers := fun accepts => accepts.not_rejects rejects
    simp [hnot]
  | _ => simp

theorem Life.rejected_of_mem (h : Life manager form404 message pc answers verdicts errors)
    (hmem : .rejected ∈ verdicts) : ∃ rejection, Rejects manager message answers rejection ∧
      (errors = [] ∨ errors = [rejection.header form404]) := by
  cases h with
  | rejected rejects | unanswered rejects => exact ⟨_, rejects, .inl rfl⟩
  | answered rejects => exact ⟨_, rejects, .inr rfl⟩
  | _ => simp at hmem

end Lives

end Laws

/-- The law of the section `number`, which is `message`, in the state `s` that `run`
leads to. -/
structure SectionLaw [DecidableEq ω] (config : ServerConfig) (form404 : Option ErrorForm)
    (manager : RouteManager M H L C) (run : List (Action L W ω)) (s : State M H L C W ω)
    (number : Nat) (message : HeaderMessage) : Prop where
  numbered : number < s.sections ∨ s.network = .processing message ∧ number = s.sections ∧
    ∃ t, step config form404 manager s .processHeader = some t ∧ t.sections = s.sections + 1
  enabled : ∀ pc, s.jobs number = some pc → ∀ answer uuid file,
    (step config form404 manager s (pc.next number answer uuid file)).isSome = true
  bounded : number < s.sections → ∀ a t, step config form404 manager s a = some t →
    if a.number = some number then t.remaining manager number < s.remaining manager number
    else t.remaining manager number = s.remaining manager number
  judged : number < s.sections → s.jobs number = none → s.verdictsOf number ≠ []
  once : s.verdictsOf number = [] ∨ ∃ verdict, s.verdictsOf number = [(message.id, verdict)]
  ready : (message.id, .ready) ∈ s.verdictsOf number ↔
    s.verdictsOf number ≠ [] ∧ Accepts manager message (answersOf number run)
  entry : Every (step config form404 manager) (fun s a => ¬ Removes number s a) (init manager) run →
    ∀ job, s.jobs number = some (.reported job) →
      ∃ entry, s.shared.table message.id = some entry ∧ entry.head.Full
  rejected : (message.id, .rejected) ∈ s.verdictsOf number →
    ∃ rejection, Rejects manager message (answersOf number run) rejection ∧
      (s.errorsOf number = [] ∨
        s.errorsOf number = [(message.queueKey, rejection.header form404)]) ∧
      (Every (step config form404 manager) (fun s a => ¬ RemovesQueue number s a) (init manager) run →
        s.jobs number = none → s.errorsOf number = [(message.queueKey, rejection.header form404)])
  unchanged : (message.id, .rejected) ∈ s.verdictsOf number → ∀ before a after u v,
    run = before ++ a :: after → exec (step config form404 manager) (init manager) before = some u →
    step config form404 manager u a = some v → a.number = some number →
    v.shared.table = u.shared.table

section Runs
variable [DecidableEq ω] {manager : RouteManager M H L C} {config : ServerConfig}
  {form404 : Option ErrorForm} {s t : State M H L C W ω} {number : Nat} {message : HeaderMessage}
  {run : List (Action L W ω)}

/-- Sections are only ever added. -/
theorem admitted_grows {later : List (Action L W ω)}
    (hrun : exec (step config form404 manager) s later = some t) : s.admitted <+: t.admitted := by
  refine exec_invariant (P := fun t => s.admitted <+: t.admitted) (List.prefix_refl _) ?_ hrun
  intro u a v h hstep
  have hlater : ∀ last, v.received = u.received ++ last → s.admitted <+: v.admitted := by
    intro last hreceived
    have hadmitted : v.admitted = u.admitted ++ last.filter HeaderMessage.Admitted := by
      rw [State.admitted, hreceived, List.filter_append, State.admitted]
    rw [hadmitted]
    exact h.trans (List.prefix_append _ _)
  cases step_intake hstep with
  | same received | numbered received => exact hlater [] (by simpa using received)
  | refused _ received | admitted _ received => exact hlater _ received

/-- A section that is rejected never writes into the request table. -/
theorem rejected_unchanged (hrun : exec (step config form404 manager) (init manager) run = some s)
    (hsection : s.admitted[number]? = some message) {rejection : Rejection}
    (hrejects : Rejects manager message (answersOf number run) rejection)
    {before after : List (Action L W ω)} {a : Action L W ω} {u v : State M H L C W ω}
    (hsplit : run = before ++ a :: after)
    (hbefore : exec (step config form404 manager) (init manager) before = some u)
    (hstep : step config form404 manager u a = some v) (hnumber : a.number = some number) :
    v.shared.table = u.shared.table := by
  have hu := serverInv_of_exec hbefore
  subst hsplit
  rw [exec_append, hbefore, Option.bind_some] at hrun
  cases step_section hstep number with
  | elsewhere other => exact absurd hnumber other
  | admitted other => exact absurd hnumber other
  | @own pc sign own holds =>
    cases hchecked : pc.Checked with
    | false => exact own_table hnumber holds hchecked hstep
    | true =>
      have hlt : number < u.sections := by
        by_contra hge
        cases holds.symm.trans (hu.gate.fresh number (by omega)).1
      have hlength : number < u.admitted.length := hlt.trans_le hu.sections.intake.numbered
      obtain ⟨message', hmessage'⟩ : ∃ message', u.admitted[number]? = some message' :=
        ⟨_, List.getElem?_eq_getElem hlength⟩
      have hsame : message' = message := by
        obtain ⟨later, hlater⟩ := admitted_grows hrun
        rw [← hlater, List.getElem?_append_left hlength, hmessage'] at hsection
        exact Option.some.inj hsection
      obtain ⟨verdicts, errors, -, -, hlife⟩ := hu.sections.lives number message' hlt hmessage'
      rw [holds, hsame] at hlife
      have haccepts : Accepts manager message (answersOf number before) := by
        generalize answersOf number before = answers at hlife
        cases hlife with
        | accepted _ _ accepts => exact accepts
        | rejected _ answering => rcases answering with rfl | rfl | rfl <;> cases hchecked
        | _ => cases hchecked
      rw [answersOf, List.flatMap_append, ← answersOf] at hrejects
      exact absurd hrejects haccepts.not_rejects_append

/-- Every header section that is admitted gets exactly one verdict: it can always go
on, in a bounded number of steps, and obeys its law in every state on the way. -/
theorem section_judged (hrun : exec (step config form404 manager) (init manager) run = some s)
    (hsection : s.admitted[number]? = some message) :
    SectionLaw config form404 manager run s number message := by
  have h := serverInv_of_exec hrun
  by_cases hlt : number < s.sections
  · obtain ⟨verdicts, errors, hverdicts, herrors, hlife⟩ := h.sections.lives number message hlt hsection
    have hmem : ∀ verdict, (message.id, verdict) ∈ s.verdictsOf number ↔ verdict ∈ verdicts := by
      intro verdict
      rw [hverdicts]
      simp
    have hnil : s.verdictsOf number = [] ↔ verdicts = [] := by
      rw [hverdicts]
      simp
    refine ⟨.inl hlt, fun pc hpc answer uuid file => next_enabled h.gate hpc answer uuid file,
      fun hlt a t hstep => remaining_step hlt hstep, fun _ hnone => ?_, ?_, ?_, fun hkept job hpc => ?_,
      fun hrejected => ?_, fun hrejected before a after u v hsplit hbefore hstep hnumber => ?_⟩
    · rw [hnone] at hlife
      exact fun hempty => hlife.judged (hnil.mp hempty)
    · rcases hlife.once with rfl | ⟨verdict, rfl⟩
      · exact .inl hverdicts
      · exact .inr ⟨verdict, hverdicts⟩
    · rw [hmem, Ne, hnil]
      exact hlife.ready_iff
    · have hmessage : job.message = message := by
        rw [hpc] at hlife
        exact hlife.message
      rw [← hmessage]
      exact (entryInv_of_exec hkept hrun).set job (.inr hpc)
    · obtain ⟨rejection, hrejects, hqueued⟩ := hlife.rejected_of_mem ((hmem _).mp hrejected)
      have hone : s.errorsOf number = [] ∨
          s.errorsOf number = [(message.queueKey, rejection.header form404)] := by
        rcases hqueued with rfl | rfl
        · exact .inl herrors
        · exact .inr herrors
      refine ⟨rejection, hrejects, hone, fun hkept hnone => ?_⟩
      refine hone.resolve_left fun hempty => ?_
      exact (answerInv_of_exec hkept hrun).answered hnone hempty message.id hrejected
    · obtain ⟨rejection, hrejects, -⟩ := hlife.rejected_of_mem ((hmem _).mp hrejected)
      exact rejected_unchanged hrun hsection hrejects hsplit hbefore hstep hnumber
  · -- the section is the one that is being processed
    obtain ⟨hlength, -⟩ := List.getElem?_eq_some_iff.mp hsection
    obtain ⟨next, hnext⟩ : ∃ next, s.network = .processing next := by
      by_contra hnone
      have := h.sections.intake.idle fun next hnext => hnone ⟨next, hnext⟩
      omega
    obtain ⟨hmessage, hone⟩ := h.sections.intake.processing next hnext
    obtain rfl : number = s.sections := by omega
    cases hmessage.symm.trans hsection
    have hrec := h.sections.unrecorded s.sections (Nat.le_refl _)
    have hnot : ∀ verdict, (message.id, verdict) ∉ s.verdictsOf s.sections := by
      intro verdict
      rw [hrec.verdicts]
      exact List.not_mem_nil
    refine ⟨.inr ⟨hnext, rfl, processHeader_enabled h.gate h.processing hnext⟩, fun pc hpc => ?_,
      fun hlt' => absurd hlt' hlt, fun hlt' => absurd hlt' hlt, .inl hrec.verdicts, ?_,
      fun _ job hpc => ?_, fun hrejected => absurd hrejected (hnot _),
      fun hrejected => absurd hrejected (hnot _)⟩
    · cases hrec.jobs.symm.trans hpc
    · simp [hrec.verdicts]
    · cases hrec.jobs.symm.trans hpc

end Runs

/-- Section `number` is rejected with a 403 and answered. -/
def forbidden (number : Nat) : List (Action Unit Unit Unit) :=
  calledOnce number (.ok (.aborted (.error403 none))) ++
    [.sendRejected number, .insertErrorQueue number, .getSenders number, .sendError number]

theorem section_judged_forbidden : ∃ (s : State Unit Unit Unit Unit Unit Unit) (message : HeaderMessage),
    exec (step ⟨⟨[]⟩⟩ none guardedRoute) (init guardedRoute)
      ([.headers (section0 (getRequest "/a")), .processHeader] ++ forbidden 0) = some s ∧
    SectionLaw ⟨⟨[]⟩⟩ none guardedRoute
      ([.headers (section0 (getRequest "/a")), .processHeader] ++ forbidden 0) s 0 message := by
  have hrun : ((exec (step ⟨⟨[]⟩⟩ none guardedRoute)
      (init guardedRoute : State Unit Unit Unit Unit Unit Unit)
      ([.headers (section0 (getRequest "/a")), .processHeader] ++ forbidden 0)).any fun s =>
        decide (0 < s.admitted.length)) = true := by
    decide +kernel
  obtain ⟨s, hs, hlength⟩ := Option.any_eq_true _ _ |>.mp hrun
  have hsection := List.getElem?_eq_getElem (of_decide_eq_true hlength)
  exact ⟨s, _, hs, section_judged hs hsection⟩

/-- No cancellation has taken place. -/
def State.Uncancelled {M H L C W ω : Type} (s : State M H L C W ω) : Bool :=
  s.shared.log.all fun
    | .cancelled _ | .cancelledConnection _ => false
    | _ => true

/-- The first section of stream 0 passed, and a second one waits for its middleware. -/
def secondSection : List (Action Unit Unit Unit) :=
  [.headers (section0 (getRequest "/a")), .processHeader] ++
    calledOnce 0 (.ok (.continued (getRequest "/a"))) ++ accepted 0 ++
  [.headers (section0 (getRequest "/a")), .processHeader]

/-- The second section passes while the first one is answered: its entry is gone before
its verdict is sent. -/
def answeredMeanwhile : List (Action Unit Unit Unit) :=
  secondSection ++ calledOnce 1 (.ok (.continued (getRequest "/a"))) ++
  [.check 1, .complete 1 "u" none, .sendReceptionStatus 1, .finished ("c", 0) [1],
    .protocol (.pick ()), .protocol (.removeIf ()), .buildRouteEvent () [1],
    .protocol (.cleanEntry ())]

/-- The second section is rejected once the first one is answered: the body of that
answer is totally written, and the queue removed, before the error response is queued. -/
def writtenMeanwhile : List (Action Unit Unit Unit) :=
  secondSection ++ [.finished ("c", 0) [1]] ++ respondedTo ++ [.endPreparation ()] ++
    calledOnce 1 (.ok (.aborted (.error403 none))) ++
  [.sendRejected 1, .insertErrorQueue 1, .removeStream (0, [1]), .getSenders 1, .sendError 1]

def JobPc.reportedJob : JobPc M → Option (MiddleWareJob M)
  | .reported job => some job
  | _ => none

/-- A section that is about to send `Ready` has its entry. -/
def State.EntryStands (s : State M H L C W ω) : Prop :=
  ∀ number job, s.jobs number = some (.reported job) → (s.shared.table job.message.id).isSome = true

/-- A section that was rejected, and is done, has queued its error response. -/
def State.ErrorStands (s : State M H L C W ω) : Prop :=
  ∀ number id, (number, id, .rejected) ∈ s.verdicts → s.jobs number = none →
    ∃ key header, (number, key, header) ∈ s.errors

/-- Neither promise is kept by every run without a cancellation. -/
theorem promises_broken_uncancelled :
    (¬ ∀ (run : List (Action Unit Unit Unit)) (s : State Unit Unit Unit Unit Unit Unit),
      exec (step ⟨⟨[]⟩⟩ none guardedRoute) (init guardedRoute) run = some s → s.Uncancelled = true →
      s.EntryStands) ∧
    ¬ ∀ (run : List (Action Unit Unit Unit)) (s : State Unit Unit Unit Unit Unit Unit),
      exec (step ⟨⟨[]⟩⟩ none guardedRoute) (init guardedRoute) run = some s → s.Uncancelled = true →
      s.ErrorStands := by
  constructor
  · intro hall
    have hrun : ((exec (step ⟨⟨[]⟩⟩ none guardedRoute)
        (init guardedRoute : State Unit Unit Unit Unit Unit Unit) answeredMeanwhile).any fun s =>
        s.Uncancelled && (s.jobs 1).any fun pc => pc.reportedJob.any fun job =>
          (s.shared.table job.message.id).isNone) = true := by
      decide +kernel
    obtain ⟨s, hs, hreported⟩ := Option.any_eq_true _ _ |>.mp hrun
    simp only [Bool.and_eq_true, Option.any_eq_true] at hreported
    obtain ⟨huncancelled, pc, hpc, found, hfound, hentry⟩ := hreported
    cases pc with
    | reported job =>
      cases hfound
      have hsome := hall _ s hs huncancelled 1 found hpc
      simp only [Option.isNone_iff_eq_none] at hentry
      simp [hentry] at hsome
    | _ => cases hfound
  · intro hall
    have hrun : ((exec (step ⟨⟨[]⟩⟩ none guardedRoute)
        (init guardedRoute : State Unit Unit Unit Unit Unit Unit) writtenMeanwhile).any fun s =>
        s.Uncancelled && decide ((1, ("c", 0), Dispatch.Verdict.rejected) ∈ s.verdicts) &&
          (s.jobs 1).isNone && s.errors.isEmpty) = true := by
      decide +kernel
    obtain ⟨s, hs, hlost⟩ := Option.any_eq_true _ _ |>.mp hrun
    simp only [Bool.and_eq_true, decide_eq_true_eq, Option.isNone_iff_eq_none, List.isEmpty_iff] at hlost
    obtain ⟨⟨⟨huncancelled, hrejected⟩, hdone⟩, hnone⟩ := hlost
    obtain ⟨key, header, hmem⟩ := hall _ s hs huncancelled 1 ("c", 0) hrejected hdone
    simp [hnone] at hmem

end FacesHttp3.Server
