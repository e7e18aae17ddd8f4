import FacesHttp3.Server.FileResponses

/-! # What becomes of a response with a file

In every run, with a transport that accepts the end of the stream when it is due, the
stream is ended or can still be; or the file does not suit, and then no run ends it in
which the transport takes all it is offered. The response worker itself panics exactly
where the queue was removed before it asked for the sender of the body. -/

namespace FacesHttp3.FileResponse
open FacesHttp3.Lib.Exec FacesHttp3.Request FacesHttp3.SendLoop

/-! ## Runs -/

section Runs
variable {fs : FileSystem} {path : String} {sender : ChunkSender} {isEnd : Bool} {len : Nat}
  {s t : State} {a : Action}

theorem sound_reset (entries : StreamEntries) : Sound true entries.resetFailedStream where
  written := nofun
  senders := by
    intro item hitem
    cases hitem
  connected := nofun

/-- Nothing panics while the file is there. -/
theorem step_sound (hlen : fs.sendLen = some len) (hpanicked : s.panicked = none)
    (hsound : Sound true s.entries) (hsends : Sends s a) (hstep : step fs sender s a = some t) :
    t.panicked = none ∧ Sound true t.entries := by
  cases a with
  | drain streamWritable answers =>
    obtain ⟨next, hnext⟩ : ∃ next, drain true s.entries streamWritable answers = .ok next :=
      (drain_ok_iff hsound).mpr fun _ => hsends.1
    obtain ⟨-, rfl⟩ := guarded_eq_some_iff.mp hstep
    rw [hnext]
    exact ⟨hpanicked, drain_sound hsound hnext⟩
  | serve answers =>
    obtain ⟨next, chunkable, hnext, hsound', -⟩ | ⟨-, hmissing⟩ :=
      serve_sound 0 { answers with file := fs.answers } hsound
    · obtain ⟨-, rfl⟩ := guarded_eq_some_iff.mp hstep
      rw [hnext]
      exact ⟨hpanicked, hsound'⟩
    · refine absurd ?_ hmissing
      intro _ request popped _ filePath sender' _
      simp [FileSystem.answers, hlen]
  | turn occupied =>
    obtain ⟨body, -, -, rfl | ⟨-, rfl⟩ | ⟨packet, -, rfl⟩⟩ := step_turn hstep
    · exact ⟨hpanicked, hsound⟩
    · exact ⟨hpanicked, hsound⟩
    · have hknown : (QueuedRequest.body (chunkOf body packet)).SenderKnown := trivial
      exact ⟨hpanicked, sound_pushLow hsound sender hknown⟩
  | resetRequested =>
    obtain ⟨-, rfl⟩ := guarded_eq_some_iff.mp hstep
    exact ⟨hpanicked, sound_reset _⟩

/-- A stream that is over stays so. -/
theorem step_over (hover : s.entries.wire.Over) (hstep : step fs sender s a = some t) :
    t.entries.wire.Over := by
  cases a with
  | drain streamWritable answers =>
    obtain ⟨-, rfl⟩ := guarded_eq_some_iff.mp hstep
    split
    · exact drain_over hover ‹_›
    · exact hover
  | serve answers =>
    obtain ⟨-, rfl⟩ := guarded_eq_some_iff.mp hstep
    split
    · exact serve_over hover ‹_›
    · exact hover
  | turn occupied =>
    obtain ⟨body, -, -, rfl | ⟨-, rfl⟩ | ⟨packet, -, rfl⟩⟩ := step_turn hstep <;> exact hover
  | resetRequested =>
    obtain ⟨-, rfl⟩ := guarded_eq_some_iff.mp hstep
    exact .inr rfl

/-- Where a response stands whose file suits. -/
inductive Phase (fs : FileSystem) (path : String) (sender : ChunkSender) (len : Nat) (s : State) : Prop
  | waiting (h : s = queued sender (fileHeader fs path sender))
  | opened {chunks : List BodyRequest} (h : Open fs sender len chunks s)
      (hahead : Ahead fs len chunks s)
  | closed (hpanicked : s.panicked = none) (hsound : Sound true s.entries) (h : s.entries.wire.Over)

/-- The header is served: its stream is ended, or the body is opened. -/
theorem step_serve_queued {answers : Answers} (hheaders : answers.headers = .ok ())
    (hlen : fs.sendLen = some len) :
    step fs sender (queued sender (fileHeader fs path sender)) (.serve answers) =
      some { entries := sent sender len, body := if len = 0 then none else fs.newFile } := by
  simp only [step, serve_queued hheaders, hlen]
  refine guarded_eq_some_iff.mpr ⟨rfl, ?_⟩
  cases len with
  | zero => rfl
  | succ len => cases hopened : fs.opened <;> simp [FileSystem.newFile, hopened, queued]

theorem ahead_sent {file : OpenFile} (hfile : fs.opened = some file)
    (hreaches : Reaches file.reads file.bodyLen len 0 0) :
    Ahead fs len [] { entries := sent sender len, body := fs.newFile } := by
  refine .inr (.inr ⟨file, { bodyLen := file.bodyLen }, hfile, ?_, hreaches⟩)
  simp [FileSystem.newFile, hfile]

theorem sound_queued : Sound true (queued sender (fileHeader fs path sender)).entries where
  written := nofun
  senders := by
    intro item hitem
    cases List.mem_singleton.mp hitem
    rfl
  connected := nofun

theorem Phase.sound (h : Phase fs path sender len s) :
    s.panicked = none ∧ Sound true s.entries := by
  cases h with
  | waiting h =>
    subst h
    exact ⟨rfl, sound_queued⟩
  | opened h => exact ⟨h.panicked, h.sound⟩
  | closed hpanicked hsound => exact ⟨hpanicked, hsound⟩

theorem phase_step (hlen : fs.sendLen = some len)
    (hsuits : len = 0 ∨ ∃ file, fs.opened = some file ∧ Reaches file.reads file.bodyLen len 0 0)
    (h : Phase fs path sender len s) (hsends : Sends s a) (hstep : step fs sender s a = some t) :
    Phase fs path sender len t := by
  obtain ⟨hpanicked, hsound⟩ := step_sound hlen h.sound.1 h.sound.2 hsends hstep
  have hreset : a = .resetRequested → t.entries.wire.Over := by
    intro ha
    subst ha
    obtain ⟨-, rfl⟩ := guarded_eq_some_iff.mp hstep
    exact .inr rfl
  cases h with
  | closed _ _ hover => exact .closed hpanicked hsound (step_over hover hstep)
  | waiting h =>
    subst h
    cases a with
    | drain streamWritable answers =>
      -- its headers are not sent yet
      obtain ⟨-, rfl⟩ := guarded_eq_some_iff.mp hstep
      exact .waiting rfl
    | serve answers =>
      rw [step_serve_queued hsends.1 hlen] at hstep
      cases hstep
      by_cases hzero : len = 0
      · exact .closed hpanicked hsound (.inl (by simp [sent, hzero]))
      · obtain hempty | ⟨file, hfile, hreaches⟩ := hsuits
        · exact absurd hempty hzero
        · rw [if_neg hzero]
          exact .opened (open_sent hzero) (ahead_sent hfile hreaches)
    | turn occupied => cases hstep
    | resetRequested => exact .closed hpanicked hsound (hreset rfl)
  | @opened chunks h hahead =>
    cases a with
    | drain streamWritable answers =>
      obtain hsame | ⟨resp, entries', hwritable, hresp, hdrained, hnext⟩ :
          step fs sender s (.drain streamWritable answers) = some s ∨ _ := step_drain_open h hsends.1
      · cases hsame.symm.trans hstep
        exact .opened h hahead
      · cases hnext.symm.trans hstep
        obtain hover | ⟨n, -, hopen, -, hkept⟩ :=
          open_drained h hresp hdrained (hsends.2 hwritable resp hresp)
        · exact .closed hpanicked hsound hover
        · exact .opened hopen (hkept hahead)
    | serve answers =>
      cases hresp : s.entries.partialResponse with
      | some resp =>
        rw [step_serve_idle h (.inl (by rw [hresp]; rfl))] at hstep
        cases hstep
        exact .opened h hahead
      | none =>
        cases chunks with
        | nil =>
          rw [step_serve_idle h (.inr rfl)] at hstep
          cases hstep
          exact .opened h hahead
        | cons chunk chunks =>
          obtain ⟨entries', hserved, hnext⟩ : ∃ entries', ServedBody (popped sender chunks s) chunk
              s.entries.wire.accepted.length len { answers with file := fs.answers } entries' ∧
              step fs sender s (.serve answers) = some { s with entries := entries' } :=
            step_serve_open h hresp
          cases hnext.symm.trans hstep
          have hkept : ¬ ChunkEndMissed s.entries chunk len { answers with file := fs.answers } := by
            have hwritten : s.entries.getWritten.2 = len := by
              simp [StreamEntries.getWritten, h.tracker]
            have hend := hsends.2 hresp chunk _ (nextItem_open h)
            rwa [hwritten] at hend
          obtain hover | ⟨n, htaken, hafter, hlength, hmore, hopen⟩ :=
            open_served h hresp hserved hkept
          · exact .closed hpanicked hsound hover
          · refine .opened hopen ((ahead_served hresp ?_ (taken_le htaken) hafter hlength hmore).mp hahead)
            rfl
    | turn occupied =>
      obtain ⟨body, hbody, -, rfl | ⟨hread, rfl⟩ | ⟨packet, hread, rfl⟩⟩ := step_turn hstep
      · exact .opened h hahead
      · exact .opened (open_failed h) (ahead_failed hbody hread hahead)
      · exact .opened (open_cut h hbody) ((ahead_cut h hbody hread).mp hahead)
    | resetRequested => exact .closed hpanicked hsound (hreset rfl)

theorem safe_of_suits (h : Suits fs) : Safe fs path (some sender) isEnd := by
  obtain ⟨len, hlen, hsuits⟩ := h
  refine ⟨_, prepare_eq, ?_⟩
  intro sender' hsender as s hrun hsends
  obtain rfl := Option.mem_some_iff.mp hsender
  have hphase : Phase fs path sender len s := by
    refine exec_invariant_of_every (P := Phase fs path sender len) (.waiting rfl) ?_ hsends hrun
    intro u a v h hsends hstep
    exact phase_step hlen hsuits h hsends hstep
  refine ⟨hphase.sound.1, ?_⟩
  cases hphase with
  | waiting h =>
    right
    let answers : Answers := {}
    have htakes : Takes s (.serve answers) := by
      subst h
      refine ⟨rfl, rfl, 0, rfl, ?_⟩
      intro content popped hitem
      cases hitem
    have hstep : step fs sender s (.serve answers) =
        some { entries := sent sender len, body := if len = 0 then none else fs.newFile } := by
      rw [h, step_serve_queued rfl hlen]
    refine CanEnd.of_step ?_ htakes hstep
    by_cases hzero : len = 0
    · exact canEnd_of_fin (by simp [sent, hzero])
    · obtain hempty | ⟨file, hfile, hreaches⟩ := hsuits
      · exact absurd hempty hzero
      · rw [if_neg hzero]
        exact canEnd_open (open_sent hzero) (ahead_sent hfile hreaches)
  | opened h hahead => exact .inr (canEnd_open h hahead)
  | closed _ _ h => exact .inl h

/-! ## Runs in which the transport takes all -/

/-- The stream was ended with `len` bytes, and nothing more is sent on it. -/
structure Ended (sender : ChunkSender) (len : Nat) (s : State) : Prop where
  fin : s.entries.wire.fin = true
  accepted : s.entries.wire.accepted.length = len
  resp : s.entries.partialResponse = none
  pending : s.entries.pendingBodyQueue = []
  channel : s.entries.channel = none ∨ (s.entries.channel = some { sender } ∧ s.body = none)

/-- Where a response stands, whatever its file; its end can come only if the file suits. -/
inductive Progress (fs : FileSystem) (path : String) (sender : ChunkSender) (s : State) : Prop
  | waiting (h : s = queued sender (fileHeader fs path sender))
  | panicked (h : s.panicked ≠ none) (hopen : s.entries.wire.fin = false)
  | opened {len : Nat} {chunks : List BodyRequest} (hlen : fs.sendLen = some len)
      (h : Open fs sender len chunks s) (hnone : s.entries.partialResponse = none)
      (horigin : Ahead fs len chunks s → Suits fs)
  | ended {len : Nat} (hlen : fs.sendLen = some len) (hsuits : Suits fs) (h : Ended sender len s)

theorem suits_of_ahead (hlen : fs.sendLen = some len)
    (h : Ahead fs len [] { entries := sent sender len, body := fs.newFile }) : Suits fs := by
  obtain ⟨hsome, -⟩ | hin | ⟨file, body, hfile, hbody, hreaches⟩ := h
  · cases hsome
  · exact hin.elim
  · simp only [FileSystem.newFile, hfile, Option.map_some, Option.some.injEq] at hbody
    subst hbody
    exact ⟨len, hlen, .inr ⟨file, hfile, hreaches⟩⟩

theorem step_of_panicked (h : s.panicked ≠ none) : step fs sender s a = none := by
  cases a with
  | drain | serve | resetRequested => simp [step, guarded, h]
  | turn occupied =>
    simp only [step]
    split
    · rfl
    · simp [guarded, h]

theorem ended_step (h : Ended sender len s) (htakes : Takes s a)
    (hstep : step fs sender s a = some t) : Ended sender len t := by
  cases a with
  | drain streamWritable answers =>
    obtain ⟨rfl, -⟩ := htakes
    obtain ⟨-, rfl⟩ := guarded_eq_some_iff.mp hstep
    have hdrain : drain true s.entries (.ok true) answers = .ok s.entries := by
      unfold drain
      split
      · simp [h.resp]
      · rfl
    rw [hdrain]
    exact h
  | serve answers =>
    obtain ⟨-, rfl⟩ := guarded_eq_some_iff.mp hstep
    have hitem : nextItem s.entries = none := by
      rw [nextItem_of_empty h.pending]
      obtain hnone | ⟨hsome, -⟩ := h.channel
      · rw [hnone]
        rfl
      · rw [hsome]
        rfl
    have hserve : serve true 0 s.entries { answers with file := fs.answers } = .ok (s.entries, none) := by
      simp [serve, hitem]
    rw [hserve]
    exact h
  | turn occupied =>
    obtain ⟨body, hbody, -, hturn⟩ := step_turn hstep
    obtain hnone | ⟨-, hgone⟩ := h.channel
    · have hpush : ∀ item, s.entries.pushLow sender item = s.entries := by
        intro item
        rw [StreamEntries.pushLow, hnone, Option.map_none, ← hnone]
      obtain rfl | ⟨-, rfl⟩ | ⟨packet, -, rfl⟩ := hturn
      · exact h
      · exact ⟨h.fin, h.accepted, h.resp, h.pending, .inl hnone⟩
      · rw [hpush]
        exact ⟨h.fin, h.accepted, h.resp, h.pending, .inl hnone⟩
    · rw [hgone] at hbody
      cases hbody
  | resetRequested => exact htakes.elim

theorem progress_step (h : Progress fs path sender s) (htakes : Takes s a)
    (hstep : step fs sender s a = some t) : Progress fs path sender t := by
  cases h with
  | panicked h =>
    rw [step_of_panicked h] at hstep
    cases hstep
  | ended hlen hsuits h => exact .ended hlen hsuits (ended_step h htakes hstep)
  | waiting h =>
    subst h
    cases a with
    | drain streamWritable answers =>
      obtain ⟨-, rfl⟩ := guarded_eq_some_iff.mp hstep
      exact .waiting rfl
    | serve answers =>
      cases hlen : fs.sendLen with
      | none =>
        obtain ⟨-, rfl⟩ := guarded_eq_some_iff.mp hstep
        rw [serve_queued htakes.1, hlen]
        exact .panicked nofun rfl
      | some len =>
        rw [step_serve_queued htakes.1 hlen] at hstep
        cases hstep
        by_cases hzero : len = 0
        · refine .ended hlen ⟨len, hlen, .inl hzero⟩ ⟨?_, ?_, rfl, rfl, .inr ⟨rfl, if_pos hzero⟩⟩
          · simp [sent, hzero]
          · simp [sent, hzero]
        · rw [if_neg hzero]
          exact .opened hlen (open_sent hzero) rfl (suits_of_ahead hlen)
    | turn occupied => cases hstep
    | resetRequested => exact htakes.elim
  | @opened len chunks hlen h hnone horigin =>
    cases a with
    | drain streamWritable answers =>
      obtain ⟨rfl, -⟩ := htakes
      obtain hsame | ⟨resp, _, -, hresp, -⟩ :
          step fs sender s (.drain (.ok true) answers) = some s ∨ _ := step_drain_open h rfl
      · cases hsame.symm.trans hstep
        exact .opened hlen h hnone horigin
      · cases hnone.symm.trans hresp
    | serve answers =>
      cases chunks with
      | nil =>
        rw [step_serve_idle h (.inr rfl)] at hstep
        cases hstep
        exact .opened hlen h hnone horigin
      | cons chunk chunks =>
        obtain ⟨-, hfin, n, hbody, hn⟩ := htakes
        obtain ⟨entries', hserved, hnext⟩ : ∃ entries', ServedBody (popped sender chunks s) chunk
            s.entries.wire.accepted.length len { answers with file := fs.answers } entries' ∧
            step fs sender s (.serve answers) = some { s with entries := entries' } :=
          step_serve_open h hnone
        cases hnext.symm.trans hstep
        obtain ⟨hall, hended, hlength, hresp, hpending, hchannel⟩ | ⟨-, hopen, hresp, hahead⟩ :=
          served_whole h hnone hserved hfin hbody (hn chunk _ (nextItem_open h))
        · refine .ended hlen (horigin (.inr (.inl (.inl ?_)))) ⟨hended, hlength, hresp, hpending, .inl hchannel⟩
          rw [hnone]
          exact hall
        · exact .opened hlen hopen hresp fun hthen => horigin (hahead.mpr hthen)
    | turn occupied =>
      obtain ⟨body, hbody, -, rfl | ⟨-, rfl⟩ | ⟨packet, hread, rfl⟩⟩ := step_turn hstep
      · exact .opened hlen h hnone horigin
      · refine .opened hlen (open_failed h) hnone fun hthen => horigin ?_
        obtain hpartial | hin | ⟨_, _, -, hgone, -⟩ := hthen
        · exact .inl hpartial
        · exact .inr (.inl hin)
        · cases hgone
      · refine .opened hlen (open_cut h hbody) ?_ fun hthen => horigin ((ahead_cut h hbody hread).mpr hthen)
        rw [pushLow_open h]
        exact hnone
    | resetRequested => exact htakes.elim

/-- A stream that was ended by such a run has as many bytes as the file had when the header
was sent, and the file suits. -/
theorem ended_of_fin {as : List Action}
    (hrun : exec (step fs sender) (queued sender (fileHeader fs path sender)) as = some s)
    (htakes : Every (step fs sender) Takes (queued sender (fileHeader fs path sender)) as)
    (hfin : s.entries.wire.fin = true) :
    Suits fs ∧ fs.sendLen = some s.entries.wire.accepted.length := by
  have hprogress : Progress fs path sender s := by
    refine exec_invariant_of_every (P := Progress fs path sender) (.waiting rfl) ?_ htakes hrun
    intro u a v h htakes hstep
    exact progress_step h htakes hstep
  cases hprogress with
  | waiting h =>
    rw [h] at hfin
    cases hfin
  | panicked _ hopen => cases hopen.symm.trans hfin
  | opened _ h => cases h.unended.symm.trans hfin
  | ended hlen hsuits h => exact ⟨hsuits, h.accepted ▸ hlen⟩

theorem suits_of_safe (h : Safe fs path (some sender) isEnd) : Suits fs := by
  obtain ⟨header, hheader, hruns⟩ := h
  cases prepare_eq.symm.trans hheader
  obtain ⟨-, hover | ⟨more, t, hrun, htakes, hfin⟩⟩ := hruns sender rfl [] _ rfl trivial
  · obtain hfin | hfailed := hover
    · cases hfin
    · cases hfailed
  · exact (ended_of_fin hrun htakes hfin).1

theorem not_safe_none : ¬ Safe fs path none isEnd := by
  rintro ⟨header, hheader, -⟩
  cases prepare_none.symm.trans hheader

/-- A response with a file is safe exactly when the queue is there for its body, and its file
is there for the header, and is empty then or read again to exactly the length it had. -/
theorem safe_iff_suits {bodySender : Option ChunkSender} :
    Safe fs path bodySender isEnd ↔ bodySender.isSome = true ∧ Suits fs := by
  cases bodySender with
  | none => simp [not_safe_none]
  | some sender => exact ⟨fun h => ⟨rfl, suits_of_safe h⟩, fun h => safe_of_suits h.2⟩

/-- What is transmitted is as long as announced if the file had the same length when the
header was sent. -/
theorem transmitted_as_announced {as : List Action}
    (hrun : exec (step fs sender) (queued sender (fileHeader fs path sender)) as = some s)
    (htakes : Every (step fs sender) Takes (queued sender (fileHeader fs path sender)) as)
    (hfin : s.entries.wire.fin = true) :
    s.entries.wire.accepted.length = fs.fileLen ↔ fs.sendLen = some fs.fileLen := by
  rw [(ended_of_fin hrun htakes hfin).2, Option.some.injEq]

/-- A file that is not there; a directory, whose reads fail; and a file of one byte. -/
def missing : FileSystem := ⟨none, none, none⟩

def directory : FileSystem := ⟨some (false, 4096), some 4096, some ⟨some 4096, fun _ => none⟩⟩

def oneByte : FileSystem := ⟨some (true, 1), some 1, some ⟨some 1, fun _ => some [0]⟩⟩

theorem suits_oneByte : Suits oneByte := ⟨1, rfl, .inr ⟨_, rfl, .there rfl rfl⟩⟩

/-- The first file is missing, the second a directory, and for the third, which suits, the
queue is removed before the worker asks for the sender. -/
theorem files_not_safe : ¬ Safe missing "missing" (some 0) true ∧
    ¬ Safe directory "directory" (some 0) true ∧
    Suits oneByte ∧ ¬ Safe oneByte "one byte" none true := by
  refine ⟨?_, ?_, suits_oneByte, not_safe_none⟩
  · intro h
    obtain ⟨len, hlen, -⟩ := suits_of_safe h
    cases hlen
  · intro h
    obtain ⟨len, hlen, hsuits⟩ := suits_of_safe h
    cases hlen
    obtain hempty | ⟨file, hfile, hreaches⟩ := hsuits
    · cases hempty
    · cases hfile
      cases hreaches with
      | there hread => cases hread
      | further hread => cases hread

end Runs

end FacesHttp3.FileResponse
