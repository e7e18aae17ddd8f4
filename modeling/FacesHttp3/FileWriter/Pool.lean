import FacesHttp3.FileWriter.Expected
import FacesHttp3.Lib.Exec
import FacesHttp3.Lib.PMap
import FacesHttp3.Lib.Routing

/-! # The pool of file workers

A stream is given a worker the first time one of its packets, or its headers, needs a
file; any thread may be the first, and two may be it at once. The packets of a file
then go through the queue of that worker. One step is one access of one thread to
the stream map, the counter, a queue or a writer. -/

namespace FacesHttp3.FileWriter.Pool
open FacesHttp3.Lib FacesHttp3.Lib.Exec FacesHttp3.Lib.Routing FacesHttp3.Request

variable {K τ : Type}

/-- A writer and its clones; `calls` is the history of what was called on them. -/
structure Writer (K : Type) where
  key : ReqId
  associatedWorkerIndex : Nat
  fileLength : Option Nat
  handle : FileWriterHandle K
  calls : List (Call K) := []

def Writer.new (key : ReqId) (index : Nat) (fileLength : Option Nat) : Writer K where
  key := key
  associatedWorkerIndex := index
  fileLength := fileLength
  handle := FileWriterHandle.new fileLength

def Writer.perform (call : Call K) (writer : Writer K) : Writer K :=
  { writer with
    handle := (call.perform writer.handle).handle
    calls := writer.calls ++ [call] }

/-- Where a thread stands between `associate_stream_with_next_listener` and
`create_file_writer_handle`. -/
inductive Pc
  | idle
  | checked (key : ReqId)
  | loaded (key : ReqId) (workerIndex : UInt8)
  | stored (key : ReqId) (workerIndex : UInt8)
  | associated (key : ReqId)

/-- The writers are numbered in the order of their creation. `sent` and `written` are
the packets handed to the workers and those they wrote, `refused` the streams that got
no writer and `lost` the packets that found no worker. -/
structure State (K τ : Type) where
  streamMap : PMap ReqId Nat := PMap.empty
  currentChannelAvailable : UInt8 := 0
  threads : τ → Pc := fun _ => .idle
  writers : PMap Nat (Writer K) := PMap.empty
  created : Nat := 0
  channels : Nat → List (Nat × Bytes) := fun _ => []
  workers : Nat → Option (Nat × Bytes) := fun _ => none
  sent : List (Nat × Bytes) := []
  written : List (Nat × Bytes) := []
  refused : List ReqId := []
  lost : List (Nat × Bytes) := []

/-- A thread that needs a file: `containsKey` to `leave`. Whoever has a clone of a
writer: `send` and `call`. A worker: `recv` and `writeOnDisk`. -/
inductive Action (K τ : Type)
  | containsKey (thread : τ) (key : ReqId)
  | load (thread : τ)
  | store (thread : τ)
  | orInsert (thread : τ)
  | createFileWriterHandle (thread : τ) (fileLength : Option Nat)
  | leave (thread : τ)
  | send (writer : Nat) (data : Bytes)
  | recv (worker : Nat)
  | writeOnDisk (worker : Nat) (io : Io)
  | call (writer : Nat) (call : Call K)

/-- The packets reach the file through the workers only. -/
def IsWrite : Call K → Bool
  | .writeOnDisk _ _ => true
  | _ => false

variable [DecidableEq τ]

def State.setThread (s : State K τ) (thread : τ) (pc : Pc) : State K τ :=
  { s with threads := Function.update s.threads thread pc }

/-- The pool of `workersAmount` workers. -/
def step (workersAmount : Nat) (s : State K τ) : Action K τ → Option (State K τ)
  | .containsKey thread key =>
    match s.threads thread with
    | .idle =>
      match s.streamMap key with
      | some _ => some (s.setThread thread (.associated key))
      | none => some (s.setThread thread (.checked key))
    | _ => none
  | .load thread =>
    match s.threads thread with
    | .checked key => some (s.setThread thread (.loaded key s.currentChannelAvailable))
    | _ => none
  | .store thread =>
    match s.threads thread with
    | .loaded key workerIndex => some { s.setThread thread (.stored key workerIndex) with
        currentChannelAvailable := (workerIndex + 1) % UInt8.ofNat workersAmount }
    | _ => none
  | .orInsert thread =>
    match s.threads thread with
    | .stored key workerIndex => some { s.setThread thread (.associated key) with
        streamMap := s.streamMap.orInsert key workerIndex.toNat }
    | _ => none
  | .createFileWriterHandle thread fileLength =>
    match s.threads thread with
    | .associated key =>
      match s.streamMap key with
      | some index => some { s.setThread thread .idle with
          writers := s.writers.insert s.created (.new key index fileLength)
          created := s.created + 1 }
      | none => some { s.setThread thread .idle with refused := s.refused ++ [key] }
    | _ => none
  -- a body packet needs the association only, and a file may fail to open
  | .leave thread =>
    match s.threads thread with
    | .associated _ => some (s.setThread thread .idle)
    | _ => none
  | .send number data =>
    match s.writers number with
    | some writer =>
      let index := writer.associatedWorkerIndex
      if index < workersAmount then some { s with
        channels := Function.update s.channels index (s.channels index ++ [(number, data)])
        sent := s.sent ++ [(number, data)] }
      else some { s with lost := s.lost ++ [(number, data)] }
    | none => none
  | .recv worker =>
    match s.workers worker, s.channels worker with
    | none, item :: rest => some { s with
        workers := Function.update s.workers worker (some item)
        channels := Function.update s.channels worker rest }
    | _, _ => none
  | .writeOnDisk worker io =>
    match s.workers worker with
    | some (number, data) => some { s with
        workers := Function.update s.workers worker none
        writers := s.writers.modify number (Writer.perform (.writeOnDisk data io))
        written := s.written ++ [(number, data)] }
    | none => none
  | .call number call => guarded (IsWrite call = false)
      { s with writers := s.writers.modify number (Writer.perform call) }

/-! ## Transitions -/

variable {n : Nat} {s t : State K τ} {a : Action K τ}

inductive Transition (n : Nat) (s : State K τ) : Action K τ → State K τ → Prop
  | known {thread : τ} {key : ReqId} (at_ : s.threads thread = .idle) (mapped : s.streamMap key ≠ none) :
      Transition n s (.containsKey thread key) (s.setThread thread (.associated key))
  | unknown {thread : τ} {key : ReqId} (at_ : s.threads thread = .idle) :
      Transition n s (.containsKey thread key) (s.setThread thread (.checked key))
  | loaded {thread : τ} {key : ReqId} (at_ : s.threads thread = .checked key) :
      Transition n s (.load thread) (s.setThread thread (.loaded key s.currentChannelAvailable))
  | stored {thread : τ} {key : ReqId} {workerIndex : UInt8} (at_ : s.threads thread = .loaded key workerIndex) :
      Transition n s (.store thread) { s.setThread thread (.stored key workerIndex) with
        currentChannelAvailable := (workerIndex + 1) % UInt8.ofNat n }
  | inserted {thread : τ} {key : ReqId} {workerIndex : UInt8}
      (at_ : s.threads thread = .stored key workerIndex) :
      Transition n s (.orInsert thread) { s.setThread thread (.associated key) with
        streamMap := s.streamMap.orInsert key workerIndex.toNat }
  | created {thread : τ} {key : ReqId} {fileLength : Option Nat} {index : Nat}
      (at_ : s.threads thread = .associated key) (mapped : s.streamMap key = some index) :
      Transition n s (.createFileWriterHandle thread fileLength) { s.setThread thread .idle with
        writers := s.writers.insert s.created (.new key index fileLength)
        created := s.created + 1 }
  | refused {thread : τ} {key : ReqId} {fileLength : Option Nat}
      (at_ : s.threads thread = .associated key) (absent : s.streamMap key = none) :
      Transition n s (.createFileWriterHandle thread fileLength)
        { s.setThread thread .idle with refused := s.refused ++ [key] }
  | left {thread : τ} {key : ReqId} (at_ : s.threads thread = .associated key) :
      Transition n s (.leave thread) (s.setThread thread .idle)
  | sent {number : Nat} {data : Bytes} {writer : Writer K} (held : s.writers number = some writer)
      (bound : writer.associatedWorkerIndex < n) :
      Transition n s (.send number data) { s with
        channels := Function.update s.channels writer.associatedWorkerIndex
          (s.channels writer.associatedWorkerIndex ++ [(number, data)])
        sent := s.sent ++ [(number, data)] }
  | lost {number : Nat} {data : Bytes} {writer : Writer K} (held : s.writers number = some writer)
      (beyond : ¬ writer.associatedWorkerIndex < n) :
      Transition n s (.send number data) { s with lost := s.lost ++ [(number, data)] }
  | received {worker : Nat} {item : Nat × Bytes} {rest : List (Nat × Bytes)}
      (free : s.workers worker = none) (queued : s.channels worker = item :: rest) :
      Transition n s (.recv worker) { s with
        workers := Function.update s.workers worker (some item)
        channels := Function.update s.channels worker rest }
  | wrote {worker number : Nat} {data : Bytes} {io : Io} (busy : s.workers worker = some (number, data)) :
      Transition n s (.writeOnDisk worker io) { s with
        workers := Function.update s.workers worker none
        writers := s.writers.modify number (Writer.perform (.writeOnDisk data io))
        written := s.written ++ [(number, data)] }
  | called {number : Nat} {call : Call K} (other : IsWrite call = false) :
      Transition n s (.call number call) { s with writers := s.writers.modify number (Writer.perform call) }

/-- Every step follows one of the rules. -/
theorem step_transition (h : step n s a = some t) : Transition n s a t := by
  cases a with
  | containsKey thread key =>
    simp only [step] at h
    split at h
    case h_2 => cases h
    rename_i hat
    split at h <;> cases h
    · rename_i hmapped
      exact .known hat (by simp [hmapped])
    · exact .unknown hat
  | load thread =>
    simp only [step] at h
    split at h <;> cases h
    exact .loaded ‹_›
  | store thread =>
    simp only [step] at h
    split at h <;> cases h
    exact .stored ‹_›
  | orInsert thread =>
    simp only [step] at h
    split at h <;> cases h
    exact .inserted ‹_›
  | createFileWriterHandle thread fileLength =>
    simp only [step] at h
    split at h
    case h_2 => cases h
    rename_i hat
    split at h <;> cases h
    · exact .created hat ‹_›
    · exact .refused hat ‹_›
  | leave thread =>
    simp only [step] at h
    split at h <;> cases h
    exact .left ‹_›
  | send number data =>
    simp only [step] at h
    split at h
    case h_2 => cases h
    rename_i hheld
    split at h <;> cases h
    · exact .sent hheld ‹_›
    · exact .lost hheld ‹_›
  | recv worker =>
    simp only [step] at h
    split at h <;> cases h
    exact .received ‹_› ‹_›
  | writeOnDisk worker io =>
    simp only [step] at h
    split at h <;> cases h
    exact .wrote ‹_›
  | call number call =>
    obtain ⟨hother, rfl⟩ := guarded_eq_some_iff.mp h
    exact .called hother

/-! ## Every stream has a worker -/

@[simp] theorem setThread_threads (s : State K τ) (thread other : τ) (pc : Pc) :
    (s.setThread thread pc).threads other = if other = thread then pc else s.threads other := by
  simp [State.setThread, Function.update_apply]

/-- The index a thread has loaded. -/
def Pc.workerIndex : Pc → Option UInt8
  | .loaded _ workerIndex | .stored _ workerIndex => some workerIndex
  | _ => none

/-- The counter, and what was loaded of it, stays below the number of workers, and so
its increment does not overflow. -/
structure CounterInv (n : Nat) (s : State K τ) : Prop where
  current : s.currentChannelAvailable.toNat < n % 256
  loaded : ∀ thread workerIndex, (s.threads thread).workerIndex = some workerIndex →
    workerIndex.toNat < n % 256

/-- A thread moves without a new index. -/
theorem CounterInv.setThread (h : CounterInv n s) {thread : τ} {pc : Pc}
    (hpc : ∀ workerIndex, pc.workerIndex = some workerIndex → workerIndex.toNat < n % 256)
    (hcurrent : t.currentChannelAvailable.toNat < n % 256)
    (hthreads : t.threads = (s.setThread thread pc).threads) : CounterInv n t := by
  refine ⟨hcurrent, fun other workerIndex hloaded => ?_⟩
  rw [hthreads, setThread_threads] at hloaded
  split at hloaded
  · exact hpc workerIndex hloaded
  · exact h.loaded other workerIndex hloaded

theorem CounterInv.step (hn : 0 < n % 256) (h : CounterInv n s) (hstep : step n s a = some t) :
    CounterInv n t := by
  cases step_transition hstep with
  | known | unknown | created | refused | left | inserted =>
    exact h.setThread (by simp [Pc.workerIndex]) h.current rfl
  | loaded => exact h.setThread (by simpa [Pc.workerIndex] using h.current) h.current rfl
  | @stored thread key workerIndex at_ =>
    have hindex := h.loaded thread workerIndex (by rw [at_]; rfl)
    refine h.setThread (by simpa [Pc.workerIndex] using hindex) ?_ rfl
    rw [UInt8.toNat_mod, UInt8.toNat_ofNat']
    exact Nat.mod_lt _ hn
  | sent | lost | received | wrote | called => exact ⟨h.current, h.loaded⟩

/-- A stream that has a worker keeps it. -/
theorem streamMap_step (hstep : step n s a = some t) {key : ReqId} {index : Nat}
    (h : s.streamMap key = some index) : t.streamMap key = some index := by
  cases step_transition hstep with
  | @inserted thread other workerIndex =>
    by_cases hkey : key = other
    · subst hkey
      simp [h]
    · simpa [PMap.orInsert, hkey] using h
  | _ => exact h

structure MapInv (n : Nat) (s : State K τ) : Prop where
  bound : ∀ key index, s.streamMap key = some index → index < n
  associated : ∀ thread key, s.threads thread = .associated key → (s.streamMap key).isSome = true
  refused : s.refused = []

/-- A thread moves; what it associated is associated. -/
theorem MapInv.setThread (h : MapInv n s) {thread : τ} {pc : Pc}
    (hbound : ∀ key index, t.streamMap key = some index → index < n)
    (hmap : ∀ key, (s.streamMap key).isSome = true → (t.streamMap key).isSome = true)
    (hpc : ∀ key, pc = .associated key → (t.streamMap key).isSome = true)
    (hthreads : t.threads = (s.setThread thread pc).threads) (hrefused : t.refused = s.refused) :
    MapInv n t := by
  refine ⟨hbound, fun other key hat => ?_, hrefused.trans h.refused⟩
  rw [hthreads, setThread_threads] at hat
  split at hat
  · exact hpc key hat
  · exact hmap key (h.associated other key hat)

theorem MapInv.step (hcounter : CounterInv n s) (h : MapInv n s) (hstep : step n s a = some t) :
    MapInv n t := by
  cases step_transition hstep with
  | @known thread key at_ mapped =>
    refine h.setThread h.bound (fun _ hmap => hmap) (fun other heq => ?_) rfl rfl
    cases heq
    exact Option.isSome_iff_ne_none.mpr mapped
  | unknown | loaded | stored | created | left =>
    exact h.setThread h.bound (fun _ hmap => hmap) (by simp) rfl rfl
  | @inserted thread key workerIndex at_ =>
    have hindex := hcounter.loaded thread workerIndex (by rw [at_]; rfl)
    refine h.setThread (fun other index hindex' => ?_) (fun other hmap => ?_) (fun other heq => ?_) rfl rfl
    · have hindex' : s.streamMap.orInsert key workerIndex.toNat other = some index := hindex'
      by_cases hkey : other = key
      · subst hkey
        rw [PMap.orInsert_self] at hindex'
        cases hold : s.streamMap other with
        | none =>
          simp only [hold, Option.getD_none, Option.some.injEq] at hindex'
          have := Nat.mod_le n 256
          omega
        | some old =>
          simp only [hold, Option.getD_some, Option.some.injEq] at hindex'
          exact hindex' ▸ h.bound other old hold
      · exact h.bound other index (by simpa [PMap.orInsert, hkey] using hindex')
    · obtain ⟨index, hindex'⟩ := Option.isSome_iff_exists.mp hmap
      exact Option.isSome_iff_exists.mpr ⟨index, streamMap_step hstep hindex'⟩
    · cases heq
      simp
  | @refused thread key fileLength at_ absent =>
    -- the association is there before the writer is asked for
    have hsome := h.associated thread key at_
    simp [absent] at hsome
  | sent | lost | received | wrote | called => exact ⟨h.bound, h.associated, h.refused⟩

/-! ## The packets of a writer -/

/-- The worker a writer's packets go to. -/
def State.indexOf (s : State K τ) (number : Nat) : Nat :=
  (s.writers number).elim 0 Writer.associatedWorkerIndex

/-- What a worker has in hand, and its queue behind it. -/
def State.line (s : State K τ) (worker : Nat) : List (Nat × Bytes) :=
  (s.workers worker).toList ++ s.channels worker

/-- A writer belongs to the worker of its stream, and what was called on it is what its
state comes from; its writes are those of the worker. -/
structure WriterInv (s : State K τ) (number : Nat) (writer : Writer K) : Prop where
  mapped : s.streamMap writer.key = some writer.associatedWorkerIndex
  handle : writer.handle = (Session.run writer.fileLength writer.calls).handle
  writes : (writer.calls.flatMap fun call => call.adds.2) = (toKey number s.written).flatten

structure PacketInv (n : Nat) (s : State K τ) : Prop where
  created : ∀ number, s.created ≤ number → s.writers number = none
  sent : ∀ packet ∈ s.sent, (s.writers packet.1).isSome = true
  writers : ∀ number writer, s.writers number = some writer → WriterInv s number writer
  lines : InOrder s.indexOf s.sent s.written s.line
  lost : s.lost = []

/-- What a call changes of a writer. -/
theorem Writer.perform_run {writer : Writer K} (call : Call K)
    (h : writer.handle = (Session.run writer.fileLength writer.calls).handle) :
    (writer.perform call).handle =
      (Session.run writer.fileLength (writer.perform call).calls).handle := by
  simp only [Writer.perform, Session.run_snoc, Session.call, h]

omit [DecidableEq τ] in
/-- The packets, the queues and the writers stay as they are. -/
theorem PacketInv.of_same (h : PacketInv n s) (hmap : ∀ key index, s.streamMap key = some index →
      t.streamMap key = some index) (hcreated : t.created = s.created) (hwriters : t.writers = s.writers)
    (hsent : t.sent = s.sent) (hwritten : t.written = s.written) (hlines : t.line = s.line)
    (hlost : t.lost = s.lost) : PacketInv n t := by
  have hindexOf : t.indexOf = s.indexOf := by
    funext number
    rw [State.indexOf, hwriters, State.indexOf]
  refine ⟨fun number hle => ?_, fun packet hmem => ?_, fun number writer hwriter => ?_, ?_, hlost.trans h.lost⟩
  · rw [hwriters]
    exact h.created number (hcreated ▸ hle)
  · rw [hwriters]
    exact h.sent packet (hsent ▸ hmem)
  · obtain ⟨hmapped, hhandle, hwrites⟩ := h.writers number writer (hwriters ▸ hwriter)
    exact ⟨hmap _ _ hmapped, hhandle, by rw [hwrites, hwritten]⟩
  · rw [hindexOf, hsent, hwritten, hlines]
    exact h.lines

omit [DecidableEq τ] in
/-- Something is called on a writer, and perhaps recorded as written. -/
theorem PacketInv.of_call (h : PacketInv n s) {number : Nat} {call : Call K} (hmap : t.streamMap = s.streamMap)
    (hcreated : t.created = s.created) (hsent : t.sent = s.sent) (hlost : t.lost = s.lost)
    (hwriters : t.writers = s.writers.modify number (Writer.perform call))
    (hlines : InOrder s.indexOf t.sent t.written t.line)
    (hcall : (toKey number t.written).flatten = (toKey number s.written).flatten ++ call.adds.2)
    (hothers : ∀ other, other ≠ number → toKey other t.written = toKey other s.written) :
    PacketInv n t := by
  have hsame : ∀ other, t.writers other =
      if other = number then (s.writers other).map (Writer.perform call) else s.writers other := by
    intro other
    rw [hwriters]
    by_cases hother : other = number
    · subst hother
      simp
    · simp [PMap.modify, hother]
  have hindexOf : t.indexOf = s.indexOf := by
    funext other
    rw [State.indexOf, hsame, State.indexOf]
    split
    · cases s.writers other <;> rfl
    · rfl
  refine ⟨fun other hle => ?_, fun packet hmem => ?_, fun other writer hwriter => ?_, ?_, hlost.trans h.lost⟩
  · rw [hsame, h.created other (hcreated ▸ hle)]
    simp
  · have hsome := h.sent packet (hsent ▸ hmem)
    rw [hsame]
    split
    · simpa using hsome
    · exact hsome
  · rw [hsame] at hwriter
    split at hwriter
    · rename_i hother
      subst hother
      obtain ⟨old, hold, rfl⟩ := Option.map_eq_some_iff.mp hwriter
      obtain ⟨hmapped, hhandle, hwrites⟩ := h.writers other old hold
      refine ⟨by rw [hmap]; exact hmapped, old.perform_run call hhandle, ?_⟩
      simp only [Writer.perform, List.flatMap_append, List.flatMap_singleton, hwrites, hcall]
    · rename_i hother
      obtain ⟨hmapped, hhandle, hwrites⟩ := h.writers other writer hwriter
      exact ⟨by rw [hmap]; exact hmapped, hhandle, by rw [hwrites, hothers other hother]⟩
  · rw [hindexOf]
    exact hlines

/-- A writer that nobody has sent anything to is created with the worker of its stream. -/
theorem PacketInv.create (h : PacketInv n s) {thread : τ} {key : ReqId} {fileLength : Option Nat}
    {index : Nat} (mapped : s.streamMap key = some index) :
    PacketInv n { s.setThread thread .idle with
      writers := s.writers.insert s.created (.new key index fileLength)
      created := s.created + 1 } := by
  have hne : ∀ packet ∈ s.sent, packet.1 ≠ s.created := by
    intro packet hmem heq
    have hsome := h.sent packet hmem
    rw [heq, h.created s.created (Nat.le_refl _)] at hsome
    cases hsome
  have hnothing : toKey s.created s.written = [] := by
    have horder := h.lines.order s.created
    rw [toKey_eq_nil_iff.mpr hne, List.append_eq_nil_iff] at horder
    exact horder.1
  refine ⟨fun number hle => ?_, fun packet hmem => ?_, fun number writer hwriter => ?_, ?_, h.lost⟩
  · have hlt : s.created < number := hle
    exact (PMap.insert_of_ne _ _ (Nat.ne_of_gt hlt)).trans (h.created number (Nat.le_of_lt hlt))
  · exact (congrArg Option.isSome (PMap.insert_of_ne _ _ (hne packet hmem))).trans (h.sent packet hmem)
  · by_cases hnumber : number = s.created
    · subst hnumber
      cases (PMap.insert_self _ _ _).symm.trans hwriter
      exact ⟨mapped, rfl, by rw [show ({ s.setThread thread .idle with
        writers := s.writers.insert s.created (.new key index fileLength)
        created := s.created + 1 } : State K τ).written = s.written from rfl, hnothing]; rfl⟩
    · obtain ⟨hmapped, hhandle, hwrites⟩ :=
        h.writers number writer ((PMap.insert_of_ne _ _ hnumber).symm.trans hwriter)
      exact ⟨hmapped, hhandle, hwrites⟩
  · refine h.lines.reroute fun packet hmem => ?_
    simp only [State.indexOf]
    rw [PMap.insert_of_ne _ _ (hne packet hmem)]

theorem PacketInv.step (hmap : MapInv n s) (h : PacketInv n s) (hstep : step n s a = some t) :
    PacketInv n t := by
  have hkept : ∀ key index, s.streamMap key = some index → t.streamMap key = some index :=
    fun _ _ hmapped => streamMap_step hstep hmapped
  cases step_transition hstep with
  | known | unknown | loaded | stored | inserted | refused | left =>
    exact h.of_same hkept rfl rfl rfl rfl rfl rfl
  | @created thread key fileLength index at_ mapped => exact h.create mapped
  | @sent number data writer held bound =>
    have hat : s.indexOf number = writer.associatedWorkerIndex := by rw [State.indexOf, held]; rfl
    have hlines := h.lines.send (number, data)
    rw [hat] at hlines
    refine ⟨h.created, fun packet hmem => ?_, fun other otherWriter hwriter => ?_, ?_, h.lost⟩
    · rcases List.mem_append.mp hmem with hmem | hmem
      · exact h.sent packet hmem
      · rw [List.mem_singleton.mp hmem, held]
        rfl
    · obtain ⟨hmapped, hhandle, hwrites⟩ := h.writers other otherWriter hwriter
      exact ⟨hmapped, hhandle, hwrites⟩
    · change InOrder s.indexOf _ s.written _
      convert hlines using 1
      funext other
      by_cases hother : other = writer.associatedWorkerIndex
      · subst hother
        simp [State.line, List.append_assoc]
      · simp [State.line, hother]
  | @lost number data writer held beyond =>
    -- the writer has the index its stream was given
    exact absurd (hmap.bound _ _ (h.writers number writer held).mapped) beyond
  | @received worker item rest free queued =>
    refine h.of_same hkept rfl rfl rfl rfl ?_ rfl
    funext other
    by_cases hother : other = worker
    · subst hother
      simp [State.line, free, queued]
    · simp [State.line, hother]
  | @wrote worker number data io busy =>
    have hline : s.line worker = (number, data) :: s.channels worker := by simp [State.line, busy]
    refine h.of_call rfl rfl rfl rfl rfl ?_ ?_ fun other hother => ?_
    · have htaken := h.lines.take hline
      convert htaken using 1
      funext other
      by_cases hother : other = worker
      · subst hother
        simp [State.line]
      · simp [State.line, hother]
    · simp [toKey_cons, Call.adds]
    · simp [toKey_cons, Ne.symm hother]
  | @called number call other =>
    refine h.of_call rfl rfl rfl rfl rfl h.lines ?_ fun _ _ => rfl
    cases call with
    | writeOnDisk => cases other
    | _ => simp [Call.adds]

/-! ## Runs -/

structure PoolInv (n : Nat) (s : State K τ) : Prop where
  counter : CounterInv n s
  streams : MapInv n s
  packets : PacketInv n s

omit [DecidableEq τ] in
theorem poolInv_start (hn : 0 < n % 256) : PoolInv n ({} : State K τ) where
  counter := ⟨hn, fun _ _ hloaded => (by cases hloaded)⟩
  streams := ⟨fun _ _ hmapped => (by cases hmapped), fun _ _ hat => (by cases hat), rfl⟩
  packets := ⟨fun _ _ => rfl, fun _ hmem => (by cases hmem), fun _ _ hwriter => (by cases hwriter),
    .start _, rfl⟩

theorem PoolInv.step (hn : 0 < n % 256) (h : PoolInv n s) (hstep : step n s a = some t) : PoolInv n t :=
  ⟨h.counter.step hn hstep, h.streams.step h.counter hstep, h.packets.step h.streams hstep⟩

theorem poolInv_of_exec (hn : 0 < n % 256) {run : List (Action K τ)} (hrun : exec (step n) {} run = some s) :
    PoolInv n s :=
  exec_invariant (poolInv_start hn) (fun _ _ _ h hstep => h.step hn hstep) hrun

/-- Whichever threads are the first to see a stream, every writer of it gets the same
worker, and for ever; no stream goes without a writer, no packet without a worker, and
the counter does not overflow. -/
theorem streams_keep_their_worker (hn : 0 < n % 256) {past later : List (Action K τ)}
    (hpast : exec (step n) {} past = some s) (hlater : exec (step n) s later = some t) :
    (∀ key index, s.streamMap key = some index → index < n ∧ t.streamMap key = some index) ∧
      (∀ number writer, s.writers number = some writer →
        t.streamMap writer.key = some writer.associatedWorkerIndex) ∧
      (∀ thread key workerIndex, s.threads thread = .loaded key workerIndex →
        (workerIndex + 1).toNat = workerIndex.toNat + 1) ∧
      s.refused = [] ∧ s.lost = [] := by
  have h := poolInv_of_exec hn hpast
  have hkept : ∀ key index, s.streamMap key = some index → t.streamMap key = some index :=
    fun key index hmapped => exec_invariant (P := fun u => u.streamMap key = some index)
      hmapped (fun _ _ _ hold hstep => streamMap_step hstep hold) hlater
  refine ⟨fun key index hmapped => ⟨h.streams.bound key index hmapped, hkept key index hmapped⟩,
    fun number writer hwriter => hkept _ _ (h.packets.writers number writer hwriter).mapped,
    fun thread key workerIndex hat => ?_, h.streams.refused, h.packets.lost⟩
  have hindex := h.counter.loaded thread workerIndex (by rw [hat]; rfl)
  have hamount : n % 256 < 256 := Nat.mod_lt _ (by decide)
  rw [UInt8.toNat_add, UInt8.toNat_one]
  omega

/-- Two threads that see the stream at once, and a packet the first one sends. -/
def raced : List (Action Unit Bool) :=
  [.containsKey false ("c", 0), .containsKey true ("c", 0), .load false, .load true, .store false,
    .store true, .orInsert true, .orInsert false, .createFileWriterHandle true (some 3),
    .send 0 [1, 2, 3]]

def written : List (Action Unit Bool) := [.recv 0, .writeOnDisk 0 {}]

theorem streams_keep_their_worker_raced : ∃ s t, exec (step 8) {} raced = some s ∧
    exec (step 8) s written = some t ∧
    (∀ key index, s.streamMap key = some index → index < 8 ∧ t.streamMap key = some index) ∧
      (∀ number writer, s.writers number = some writer →
        t.streamMap writer.key = some writer.associatedWorkerIndex) ∧
      (∀ thread key workerIndex, s.threads thread = .loaded key workerIndex →
        (workerIndex + 1).toNat = workerIndex.toNat + 1) ∧
      s.refused = [] ∧ s.lost = [] := by
  obtain ⟨s, hs⟩ : ∃ s, exec (step 8) {} raced = some s := ⟨_, rfl⟩
  obtain ⟨t, ht⟩ : ∃ t, exec (step 8) {} (raced ++ written) = some t := ⟨_, rfl⟩
  have hlater : exec (step 8) s written = some t := by
    rw [exec_append, hs] at ht
    exact ht
  exact ⟨s, t, hs, hlater, streams_keep_their_worker (by decide) hs hlater⟩

/-- A writer's packets that are written, and then those that wait, are those that were
sent, in order. An open file holds the written ones behind its prefixes; a file that is
reported as written with the length of everything sent is everything sent. -/
structure InFile (s : State K τ) (number : Nat) (writer : Writer K) : Prop where
  order : toKey number s.written ++ toKey number (s.line writer.associatedWorkerIndex) =
    toKey number s.sent
  content : writer.handle.Open → ∃ file, writer.handle.inner.writer = some file ∧
    file.content = prefixes writer.calls ++ (toKey number s.written).flatten
  disk : writer.handle.isFileWritten = .ok true →
    writer.handle.written = (prefixes writer.calls ++ (toKey number s.sent).flatten).length →
    writer.handle.disk = prefixes writer.calls ++ (toKey number s.sent).flatten

theorem upload_in_order (hn : 0 < n % 256) {run : List (Action K τ)} (hrun : exec (step n) {} run = some s)
    {number : Nat} {writer : Writer K} (hwriter : s.writers number = some writer) :
    InFile s number writer := by
  have h := (poolInv_of_exec hn hrun).packets
  obtain ⟨-, hhandle, hwrites⟩ := h.writers number writer hwriter
  have horder : toKey number s.written ++ toKey number (s.line writer.associatedWorkerIndex) =
      toKey number s.sent := by
    have hat : s.indexOf number = writer.associatedWorkerIndex := by rw [State.indexOf, hwriter]; rfl
    exact hat ▸ h.lines.order number
  have hexpected : expected writer.calls =
      prefixes writer.calls ++ (toKey number s.written).flatten := by
    rw [expected_eq, hwrites]
  refine ⟨horder, fun hopen => ?_, fun hreported hlength => ?_⟩
  · rw [hhandle] at hopen ⊢
    obtain ⟨file, hfile, hcontent, -⟩ :=
      Session.run_consistent writer.fileLength writer.calls (.inl hopen.1)
    exact ⟨file, hfile, by rw [hcontent, content_of_open hopen, hexpected]⟩
  · rw [hhandle] at hreported hlength ⊢
    have hcompleted := completed_of_isFileWritten
      (Session.run_consistent writer.fileLength writer.calls) hreported
    have hle := (content_le writer.fileLength writer.calls).1
    rw [← hcompleted.length, hlength, hexpected, ← horder] at hle
    simp only [List.flatten_append, List.length_append] at hle
    -- nothing but empty packets can still wait
    have hnothing : (toKey number (s.line writer.associatedWorkerIndex)).flatten = [] :=
      List.length_eq_zero_iff.mp (by omega)
    have hsame : (toKey number s.sent).flatten = (toKey number s.written).flatten := by
      rw [← horder, List.flatten_append, hnothing, List.append_nil]
    rw [hsame, ← hexpected] at hlength ⊢
    exact disk_of_isFileWritten hreported hlength

theorem upload_in_order_raced : ∃ s writer, exec (step 8) {} (raced ++ written) = some s ∧
    s.writers 0 = some writer ∧ writer.handle.disk = [1, 2, 3] ∧ InFile s 0 writer := by
  have hn : 0 < 8 % 256 := by decide
  have hrun : exec (step 8) {} (raced ++ written) = some _ := rfl
  exact ⟨_, _, hrun, rfl, rfl, upload_in_order hn hrun rfl⟩

end FacesHttp3.FileWriter.Pool
