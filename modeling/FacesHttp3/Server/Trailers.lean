import FacesHttp3.Dispatch.Injections
import FacesHttp3.Server.Network
import FacesHttp3.Server.Rejections

/-! # Trailers

A trailer section reaches the server as another `Headers` event. It has no
pseudo-headers, so the grammar of a request line rejects it, and the event takes
the branch meant for a malformed first section: the request is cancelled and its
stream shut down, wherever its middlewares stand. -/

namespace FacesHttp3.Server
open FacesHttp3.Lib FacesHttp3.Lib.Exec FacesHttp3.Request FacesHttp3.Router
open FacesHttp3.RequestsTable FacesHttp3.InFlight

variable {M H L C W ω : Type}

/-- A section without pseudo-headers: no name starts with a colon. -/
def HeaderMessage.IsTrailer (message : HeaderMessage) : Prop :=
  ∀ header ∈ message.headers, header.name.head? ≠ some 58

instance (message : HeaderMessage) : Decidable message.IsTrailer := by
  unfold HeaderMessage.IsTrailer; infer_instance

/-- The event ends the request: its stream is finished or reset, its connection
closed, or a section of it rejected. -/
def Action.Ends (id : ReqId) : Action L W ω → Prop
  | .headers message => message.id = id ∧ extractPathFromHdr message.headers = none
  | .finished i _ | .reset i _ => i = id
  | .closeConnection conn _ => conn = id.1
  | _ => False

instance (id : ReqId) (a : Action L W ω) : Decidable (a.Ends id) := by
  induction a using Action.casesOn <;> dsimp only [Action.Ends] <;> infer_instance

/-- A header section of the request was admitted on a known route and the request
has not ended. -/
structure Uploading (manager : RouteManager M H L C) (past : List (Action L W ω)) (id : ReqId) :
    Prop where
  admitted : ∃ first job, .headers first ∈ past ∧ first.id = id ∧
    headerWork manager first = .execute job
  continues : ∀ a ∈ past, ¬ a.Ends id

/-- No further header section of the request. -/
def NoSection (id : ReqId) (as : List (Action L W ω)) : Prop :=
  ∀ message, .headers message ∈ as → message.id ≠ id

/-! ## The grammar -/

/-- A trailer section has no path to extract. -/
theorem HeaderMessage.IsTrailer.extractPath {message : HeaderMessage} (h : message.IsTrailer) :
    extractPathFromHdr message.headers = none := by
  simp only [extractPathFromHdr, Option.map_eq_none_iff]
  cases hparsed : parseRequestHeaders message.headers with
  | none => rfl
  | some parsed =>
    obtain ⟨method, path, contentLength⟩ := parsed
    have hvalues := (HeaderGrammar.parseRequestHeaders_iff.mp hparsed).method.1
    have hnone : HeaderGrammar.valuesOf (ascii ":method") message.headers = [] := by
      simp only [HeaderGrammar.valuesOf, List.map_eq_nil_iff, List.filter_eq_nil_iff, beq_iff_eq]
      intro header hmem heq
      exact h header hmem (by rw [heq]; rfl)
    rw [hnone] at hvalues
    cases hvalues

section Steps
variable [DecidableEq ω] {config : ServerConfig} {form404 : Option ErrorForm}
  {manager : RouteManager M H L C} {s t : State M H L C W ω} {a : Action L W ω} {id : ReqId}

/-! ## The trailer event -/

/-- What the event of a trailer section does. -/
theorem trailer_step {trailer : HeaderMessage} (htrailer : trailer.IsTrailer)
    (h : step config form404 manager s (.headers trailer) = some t) :
    t.shutdowns = s.shutdowns ++ [trailer.id] ∧ t.shared.signal trailer.id = none ∧
      t.shared.net.Cancels trailer.id ∧ t.shared.workers = s.shared.workers ∧
      t.invocations = s.invocations := by
  cases step_transition h with
  | headersAdmitted _ found => cases htrailer.extractPath.symm.trans found
  | headersRefused _ _ protocol =>
    obtain ⟨-, rfl⟩ := guarded_eq_some_iff.mp protocol
    exact ⟨rfl, by simp [Dispatch.State.record], rfl, rfl, rfl⟩

/-- A trailer section is harmless in the state it arrives in: the request keeps its
entries and its stream, and the handler gets what it would get without the section. -/
structure TrailerIgnored (config : ServerConfig) (form404 : Option ErrorForm)
    (manager : RouteManager M H L C) (s : State M H L C W ω) (trailer : HeaderMessage) : Prop where
  spared : ∀ t, step config form404 manager s (.headers trailer) = some t →
    t.shutdowns = s.shutdowns ∧ t.shared.signal trailer.id = s.shared.signal trailer.id ∧
      t.shared.table trailer.id = s.shared.table trailer.id ∧ ¬ t.shared.net.Cancels trailer.id
  dispatched : ∀ after u, exec (step config form404 manager) s after = some u →
    NoSection trailer.id after → ∃ after' v, NoSection trailer.id after' ∧
      exec (step config form404 manager) s (.headers trailer :: after') = some v ∧
        v.invocationsOf trailer.id = u.invocationsOf trailer.id

/-- Every trailer section of the request is harmless. -/
def TrailersIgnored (config : ServerConfig) (form404 : Option ErrorForm)
    (manager : RouteManager M H L C) (as : List (Action L W ω)) (id : ReqId) : Prop :=
  ∀ before trailer after s, as = before ++ .headers trailer :: after →
    exec (step config form404 manager) (init manager) before = some s →
      Uploading manager before id → trailer.id = id → trailer.IsTrailer →
        TrailerIgnored config form404 manager s trailer

/-- No trailer section follows the header section the request was admitted with. -/
def WithoutTrailer (manager : RouteManager M H L C) (as : List (Action L W ω)) (id : ReqId) : Prop :=
  ∀ before trailer after, as = before ++ .headers trailer :: after → Uploading manager before id →
    trailer.id = id → ¬ trailer.IsTrailer

/-! ## The request is over -/

/-- A request ends by an event of the network thread. -/
theorem ended_dispatch {ρ : Type} {s t : Dispatch.State ρ ω} {a : Dispatch.Action ρ ω}
    (h : Dispatch.step s a = some t) (hended : t.ended id = true) : s.ended id = true ∨
      a = .finish id ∨ a = .cancelRequest id ∨ a = .cancelConnection id.1 := by
  cases Dispatch.step_transition h with
  | @finished i =>
    by_cases hi : i = id
    · exact .inr (.inl (hi ▸ rfl))
    · exact .inl (by simpa [Dispatch.State.record, Function.update_of_ne (Ne.symm hi)] using hended)
  | @cancelled i =>
    by_cases hi : i = id
    · exact .inr (.inr (.inl (hi ▸ rfl)))
    · exact .inl (by simpa [Dispatch.State.record, Function.update_of_ne (Ne.symm hi)] using hended)
  | @cancelledConnection conn =>
    by_cases hconn : conn = id.1
    · exact .inr (.inr (.inr (hconn ▸ rfl)))
    · exact .inl (by simpa [Dispatch.State.record, Ne.symm hconn] using hended)
  | _ => exact .inl hended

theorem shared_ended_step (h : step config form404 manager s a = some t)
    (hended : t.shared.ended id = true) : s.shared.ended id = true ∨ a.Ends id := by
  cases step_transition h with
  | headersRefused _ absent protocol =>
    rcases ended_dispatch protocol hended with hold | heq | heq | heq
    · exact .inl hold
    · cases heq
    · cases heq
      exact .inr ⟨rfl, absent⟩
    · cases heq
  | headersAdmitted _ _ protocol | sectionQueued _ protocol | completed _ protocol | found _ _ protocol
  | created _ _ protocol | signalSent _ protocol | rejectedSent _ protocol | eventBuilt _ protocol
  | preparationEnded _ _ _ protocol =>
    rcases ended_dispatch protocol hended with hold | heq | heq | heq
    · exact .inl hold
    · cases heq
    · cases heq
    · cases heq
  | finishedHandled _ _ protocol | finishedCancelled _ _ protocol | streamReset _ protocol
  | connectionClosed _ protocol =>
    rcases ended_dispatch protocol hended with hold | heq | heq | heq
    · exact .inl hold
    all_goals cases heq <;> exact .inr rfl
  | along internal protocol =>
    rcases ended_dispatch protocol hended with hold | rfl | rfl | rfl
    · exact .inl hold
    all_goals cases internal
  | _ => exact .inl hended

theorem injectionInv_server (h : Dispatch.InjectionInv s.shared)
    (hstep : step config form404 manager s a = some t) : Dispatch.InjectionInv t.shared := by
  cases step_shared hstep with
  | same shared => rwa [shared]
  | packet _ shared =>
    rw [shared]
    exact ⟨h.ended, h.live⟩
  | along _ hstep => exact Dispatch.injectionInv_step h hstep

/-- No response worker answers the request, and none did. -/
structure Unanswered (id : ReqId) (s : State M H L C W ω) : Prop where
  responders : ResponderInv s
  answers : ∀ w, Answers (s.shared.workers w) ≠ some id
  invocations : s.invocationsOf id = []

/-- A request is answered by a worker that finds its `Ready`. -/
theorem unanswered_step (h : Unanswered id s)
    (hready : ∀ w born, s.shared.workers w = .holding id → s.shared.signal id ≠ some ⟨.ready, born⟩)
    (hstep : step config form404 manager s a = some t) : Unanswered id t := by
  refine ⟨responderInv_step h.responders hstep, fun w hw => ?_, ?_⟩
  · cases step_shared hstep with
    | same shared => exact h.answers w (shared ▸ hw)
    | packet _ shared =>
      rw [shared] at hw
      exact h.answers w hw
    | along _ hstep =>
      rcases answers_step hstep w with hnone | hsame | ⟨i, born, -, hholding, hslot, hi⟩
      · simp [hnone] at hw
      · exact h.answers w (hsame ▸ hw)
      · obtain rfl : i = id := Option.some.inj (hi.symm.trans hw)
        exact hready w born hholding hslot
  · rw [invocationsOf_step h.responders (fun w hw => h.answers w hw.1) hstep]
    exact h.invocations

/-- Before its end a request is not answered: no injection of it is there. -/
theorem uploading_unanswered {past : List (Action L W ω)} (hcontinues : ∀ a ∈ past, ¬ a.Ends id)
    (run : exec (step config form404 manager) (init manager) past = some s) : Unanswered id s := by
  have hinv : (∀ a ∈ past, ¬ a.Ends id) → Dispatch.InjectionInv s.shared ∧
      s.shared.ended id = false ∧ Unanswered id s := by
    refine exec_history (P := fun past s => (∀ a ∈ past, ¬ a.Ends id) →
      Dispatch.InjectionInv s.shared ∧ s.shared.ended id = false ∧ Unanswered id s) ?_ ?_ run
    · intro _
      refine ⟨Dispatch.injectionInv_run exec_nil, rfl, ?_, ?_, rfl⟩
      · intro w responder hw
        cases hw
      · intro w hw
        cases hw
    · intro past s a t ih hstep hcontinues
      obtain ⟨hinjections, hopen, hunanswered⟩ := ih fun b hb => hcontinues b (by simp [hb])
      refine ⟨injectionInv_server hinjections hstep, ?_, unanswered_step hunanswered ?_ hstep⟩
      · rw [← Bool.not_eq_true]
        intro hended
        rcases shared_ended_step hstep hended with hbefore | hends
        · simp [hopen] at hbefore
        · exact hcontinues a (by simp) hends
      · intro w born hholding
        have hended := hinjections.ended id (.inr ⟨w, by rw [hholding]; rfl⟩)
        simp [hopen] at hended
  exact (hinv hcontinues).2.2

/-- The trailer section kills the request: no handler is called for it, however the
run goes on, unless new headers of the stream begin another request. -/
theorem trailer_kills {before after : List (Action L W ω)} {trailer : HeaderMessage}
    (run : exec (step config form404 manager) (init manager) (before ++ .headers trailer :: after) =
      some t)
    (hcontinues : ∀ a ∈ before, ¬ a.Ends trailer.id) (htrailer : trailer.IsTrailer)
    (hnew : NoSection trailer.id after) : t.invocationsOf trailer.id = [] := by
  rw [exec_append] at run
  obtain ⟨s, hs, run⟩ := Option.bind_eq_some_iff.mp run
  obtain ⟨u, hu, run⟩ := Option.bind_eq_some_iff.mp run
  have hunanswered := uploading_unanswered hcontinues hs
  obtain ⟨-, hsignal, -, hworkers, hinvocations⟩ := trailer_step htrailer hu
  have hstart : u.shared.signal trailer.id = none ∧ Unanswered trailer.id u := by
    refine ⟨hsignal, responderInv_step hunanswered.responders hu, ?_, ?_⟩
    · rw [hworkers]
      exact hunanswered.answers
    · rw [State.invocationsOf, hinvocations]
      exact hunanswered.invocations
  have hlast : NoSection trailer.id after → t.shared.signal trailer.id = none ∧
      Unanswered trailer.id t := by
    refine exec_history (P := fun past t => NoSection trailer.id past →
      t.shared.signal trailer.id = none ∧ Unanswered trailer.id t) (fun _ => hstart) ?_ run
    intro past v a w ih hstep hnew
    obtain ⟨hnone, hv⟩ := ih fun message hmem => hnew message (by simp [hmem])
    refine ⟨?_, unanswered_step hv (fun _ _ _ => by simp [hnone]) hstep⟩
    rw [← Option.not_isSome_iff_eq_none]
    intro hsome
    rcases signal_step hstep trailer.id hsome with ⟨hold, -⟩ | ⟨message, rfl, hid⟩
    · simp [hnone] at hold
    · exact hnew message (by simp) hid
  exact (hlast hnew).2.invocations

/-- The trailer sections of a request in a run are harmless exactly when there are none. -/
theorem trailers_ignored_iff {as : List (Action L W ω)}
    (run : exec (step config form404 manager) (init manager) as = some t) (id : ReqId) :
    TrailersIgnored config form404 manager as id ↔ WithoutTrailer manager as id := by
  constructor
  · rintro hignored before trailer after rfl huploading hid htrailer
    rw [exec_append] at run
    obtain ⟨s, hs, run⟩ := Option.bind_eq_some_iff.mp run
    obtain ⟨u, hu, -⟩ := Option.bind_eq_some_iff.mp run
    have hspared := (hignored before trailer after s rfl hs huploading hid htrailer).spared u hu
    exact hspared.2.2.2 (trailer_step htrailer hu).2.2.1
  · intro hwithout before trailer after s heq _ huploading hid htrailer
    exact absurd htrailer (hwithout before trailer after heq huploading hid)

end Steps

/-! ## An upload with a trailer -/

/-- One POST route at `/a`, with a middleware and a handler. -/
def uploadRoute : RouteManager Unit Unit Unit Unit where
  routesFormats :=
    { entries := [("/a", [⟨.POST, none, [()], [()], "/a", some default⟩])]
      keys_nodup := by simp
      path_eq := by simp
      methods_nodup := by simp }
  streamSessions := []

/-- A POST with a body on stream 0 of the connection `c`. -/
def uploadSection : HeaderMessage where
  id := ("c", 0)
  scid := [1]
  moreFrames := true
  headers := [⟨ascii ":method", ascii "POST"⟩, ⟨ascii ":path", ascii "/a"⟩]

/-- A checksum behind the body. -/
def checksumTrailer : HeaderMessage where
  id := ("c", 0)
  scid := [1]
  moreFrames := false
  headers := [⟨ascii "x-checksum", ascii "7"⟩]

/-- The upload up to its last packet. -/
def uploadedBody : List (Action Unit Unit Unit) :=
  [.headers uploadSection, .processHeader] ++ calledOnce 0 (.ok (.continued uploadSection.headers)) ++
    accepted 0 ++ [.dataCheck ("c", 0), .dataWrite [1, 2, 3]]

theorem section_of_mem_uploadedBody {message : HeaderMessage}
    (h : .headers message ∈ uploadedBody) : message = uploadSection := by
  simpa [uploadedBody, calledOnce, accepted] using h

/-- Without a trailer section the handler is called with the body. -/
theorem trailers_ignored_iff_plain :
    TrailersIgnored ⟨⟨[]⟩⟩ none uploadRoute
      (uploadedBody ++ .finished ("c", 0) [1] :: respondedTo) ("c", 0) := by
  have hrun : (exec (step ⟨⟨[]⟩⟩ none uploadRoute)
      (init uploadRoute : State Unit Unit Unit Unit Unit Unit)
      (uploadedBody ++ .finished ("c", 0) [1] :: respondedTo)).isSome = true := by decide +kernel
  obtain ⟨t, run⟩ := Option.isSome_iff_exists.mp hrun
  refine (trailers_ignored_iff run ("c", 0)).mpr ?_
  intro before trailer after heq _ _ htrailer
  have hmem : .headers trailer ∈ uploadedBody ++ .finished ("c", 0) [1] :: respondedTo := by
    rw [heq]
    simp
  have hsection : trailer = uploadSection := by
    rcases List.mem_append.mp hmem with hmem | hmem
    · exact section_of_mem_uploadedBody hmem
    · simp [respondedTo] at hmem
  subst hsection
  exact absurd htrailer (by decide)

/-- With one the upload is cancelled and its stream shut down. -/
theorem trailer_cancels :
    ¬ TrailersIgnored ⟨⟨[]⟩⟩ none uploadRoute (uploadedBody ++ [.headers checksumTrailer])
      ("c", 0) := by
  intro hignored
  have hrun : ((exec (step ⟨⟨[]⟩⟩ none uploadRoute)
      (init uploadRoute : State Unit Unit Unit Unit Unit Unit) uploadedBody).any fun s =>
      (step ⟨⟨[]⟩⟩ none uploadRoute s (.headers checksumTrailer)).any fun t =>
        t.shutdowns != s.shutdowns) = true := by decide +kernel
  obtain ⟨s, hs, hstep⟩ := Option.any_eq_true _ _ |>.mp hrun
  obtain ⟨t, ht, hshut⟩ := Option.any_eq_true _ _ |>.mp hstep
  have huploading : Uploading uploadRoute uploadedBody ("c", 0) := by
    have hwork : (match headerWork uploadRoute uploadSection with
        | .execute _ => true
        | _ => false) = true := by decide +kernel
    refine ⟨⟨uploadSection, ?_⟩, by decide +kernel⟩
    split at hwork
    · rename_i job hjob
      exact ⟨job, by simp [uploadedBody], rfl, hjob⟩
    · cases hwork
  have hspared := (hignored uploadedBody checksumTrailer [] s rfl hs huploading rfl
    (by decide)).spared t ht
  simp [hspared.1] at hshut

end FacesHttp3.Server
