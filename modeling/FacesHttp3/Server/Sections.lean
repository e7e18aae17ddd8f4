import FacesHttp3.HeaderGrammar
import FacesHttp3.Server.Gate

/-! # The life of a header section

A header section that was admitted goes from the header processor to a middleware
worker and ends with one verdict, or with a verdict and an error response. Here its
life is told for itself, without the tables, and every step of the server is shown
to be a step of one life or of none. -/

namespace FacesHttp3.Server
open FacesHttp3.Lib FacesHttp3.Lib.Exec FacesHttp3.Request FacesHttp3.Router
open FacesHttp3.RequestsTable FacesHttp3.InFlight

variable {M H L C W ω : Type}

/-- What a middleware answers when it is called. -/
abbrev Answer := Except Unit MiddleWareFlow

/-- What a step of a section shows outside: an answer it was given, its verdict, and
what becomes of its error response. -/
inductive Sign
  | silent
  | answered (answer : Answer)
  | judged (verdict : Dispatch.Verdict)
  | errorQueued (header : ErrorHeader)

def Sign.answers : Sign → List Answer
  | .answered answer => [answer]
  | _ => []

def Sign.verdicts : Sign → List Dispatch.Verdict
  | .judged verdict => [verdict]
  | _ => []

def Sign.errors : Sign → List ErrorHeader
  | .errorQueued header => [header]
  | _ => []

/-- The steps of a section's life. -/
inductive JobStep (manager : RouteManager M H L C) (form404 : Option ErrorForm) :
    JobPc M → Sign → Option (JobPc M) → Prop
  | route {message : HeaderMessage} {job : MiddleWareJob M}
      (work : headerWork manager message = .execute job) :
      JobStep manager form404 (.queued message) .silent (some (.waiting job))
  | unknownRoute {message : HeaderMessage} (work : headerWork manager message = .unknownRoute) :
      JobStep manager form404 (.queued message) .silent (some (.rejecting message .unknownRoute))
  | malformed {message : HeaderMessage} (work : headerWork manager message = .malformed) :
      JobStep manager form404 (.queued message) .silent none
  | take {job : MiddleWareJob M} : JobStep manager form404 (.waiting job) .silent
      (some (.calling job job.message.headers job.middlewareCollection []))
  | continued {job : MiddleWareJob M} {tempsHeaders headers : List Header} {middleware : M}
      {rest : List M} {calls : List (Call M)} :
      JobStep manager form404 (.calling job tempsHeaders (middleware :: rest) calls)
        (.answered (.ok (.continued headers)))
        (some (.calling job headers rest (calls ++ [⟨middleware, tempsHeaders, headers⟩])))
  | aborted {job : MiddleWareJob M} {tempsHeaders : List Header} {middleware : M} {rest : List M}
      {calls : List (Call M)} {response : ErrorResponse} :
      JobStep manager form404 (.calling job tempsHeaders (middleware :: rest) calls)
        (.answered (.ok (.aborted response))) (some (.rejecting job.message (.aborted response)))
  | failed {job : MiddleWareJob M} {tempsHeaders : List Header} {middleware : M} {rest : List M}
      {calls : List (Call M)} :
      JobStep manager form404 (.calling job tempsHeaders (middleware :: rest) calls)
        (.answered (.error ()))
        (some (.rejecting job.message (.aborted (.error415 (some (ascii "failed to call middleware"))))))
  | check {job : MiddleWareJob M} {headers : List Header} {calls : List (Call M)} {isSet : Bool} :
      JobStep manager form404 (.calling job headers [] calls) .silent
        (some (.checked job isSet headers))
  | completed {job : MiddleWareJob M} {headers : List Header} {isSet : Bool} :
      JobStep manager form404 (.checked job isSet headers) .silent (some (.written job))
  | absent {job : MiddleWareJob M} {headers : List Header} :
      JobStep manager form404 (.checked job false headers) .silent (some (.creating job headers))
  | created {job : MiddleWareJob M} {headers : List Header} :
      JobStep manager form404 (.creating job headers) .silent (some (.written job))
  | reported {job : MiddleWareJob M} :
      JobStep manager form404 (.written job) .silent (some (.reported job))
  | ready {job : MiddleWareJob M} : JobStep manager form404 (.reported job) (.judged .ready) none
  | rejected {message : HeaderMessage} {rejection : Rejection} :
      JobStep manager form404 (.rejecting message rejection) (.judged .rejected)
        (some (.rejected message rejection))
  | queue {message : HeaderMessage} {rejection : Rejection} :
      JobStep manager form404 (.rejected message rejection) .silent
        (some (.answering message rejection))
  | senders {message : HeaderMessage} {rejection : Rejection} :
      JobStep manager form404 (.answering message rejection) .silent
        (some (.sending message rejection))
  | errorQueued {message : HeaderMessage} {rejection : Rejection} :
      JobStep manager form404 (.sending message rejection)
        (.errorQueued (rejection.header form404)) none
  | errorLost {pc : JobPc M} {message : HeaderMessage} {rejection : Rejection}
      (sending : pc = .answering message rejection ∨ pc = .sending message rejection) :
      JobStep manager form404 pc .silent none

/-- All middlewares of the section continued and its verdict is not sent yet. -/
def JobPc.Checked : JobPc M → Bool
  | .checked _ _ _ | .creating _ _ | .written _ | .reported _ => true
  | _ => false

/-! ## What a life comes to -/

/-- The middlewares the section must pass: those of the route under its path, once
the query is split off, and its method, else those of the downstream under its
path. -/
def Matches (manager : RouteManager M H L C) (message : HeaderMessage) (middlewares : List M) : Prop :=
  ∃ input path contentLength method, parseRequestHeaders message.headers = some (input, path, contentLength) ∧
    H3Method.parse input = some method ∧
    ((∃ route, manager.routesFormats.find (ReqArgs.parseArgs path).1 method = some route ∧
        middlewares = route.middlewares) ∨
      manager.routesFormats.find (ReqArgs.parseArgs path).1 method = none ∧
        ∃ stream, manager.getStreamFromPath path = some stream ∧ middlewares = stream.middlewares)

def AllContinued (answers : List Answer) : Prop :=
  ∀ answer ∈ answers, ∃ headers, answer = .ok (.continued headers)

/-- Every middleware was called and continued. -/
def Accepts (manager : RouteManager M H L C) (message : HeaderMessage) (answers : List Answer) : Prop :=
  ∃ middlewares, Matches manager message middlewares ∧ answers.length = middlewares.length ∧
    AllContinued answers

/-- How an answer other than `Continue` is put to the client. -/
def abortion : Answer → Option ErrorResponse
  | .ok (.continued _) => none
  | .ok (.aborted response) => some response
  | .error () => some (.error415 (some (ascii "failed to call middleware")))

/-- Nothing matches, or a middleware did not continue, and then it was the last one
called. -/
def Rejects (manager : RouteManager M H L C) (message : HeaderMessage) (answers : List Answer) :
    Rejection → Prop
  | .unknownRoute => (∀ middlewares, ¬ Matches manager message middlewares) ∧ answers = []
  | .aborted response => ∃ middlewares before last, Matches manager message middlewares ∧
      answers = before ++ [last] ∧ answers.length ≤ middlewares.length ∧ AllContinued before ∧
      abortion last = some response

/-- Where a section stands, the answers it was given, its verdicts and its queued
error responses. -/
inductive Life (manager : RouteManager M H L C) (form404 : Option ErrorForm) (message : HeaderMessage) :
    Option (JobPc M) → List Answer → List Dispatch.Verdict → List ErrorHeader → Prop
  | queued : Life manager form404 message (some (.queued message)) [] [] []
  | waiting {job : MiddleWareJob M} (work : headerWork manager message = .execute job) :
      Life manager form404 message (some (.waiting job)) [] [] []
  | calling {job : MiddleWareJob M} {tempsHeaders : List Header} {rest : List M}
      {calls : List (Call M)} {answers : List Answer}
      (work : headerWork manager message = .execute job) (continued : AllContinued answers)
      (length : answers.length + rest.length = job.middlewareCollection.length) :
      Life manager form404 message (some (.calling job tempsHeaders rest calls)) answers [] []
  | accepted {pc : JobPc M} {answers : List Answer} (checked : pc.Checked = true)
      (message_eq : pc.message = message) (accepts : Accepts manager message answers) :
      Life manager form404 message (some pc) answers [] []
  | ready {answers : List Answer} (accepts : Accepts manager message answers) :
      Life manager form404 message none answers [.ready] []
  | rejecting {rejection : Rejection} {answers : List Answer}
      (rejects : Rejects manager message answers rejection) :
      Life manager form404 message (some (.rejecting message rejection)) answers [] []
  | rejected {rejection : Rejection} {pc : JobPc M} {answers : List Answer}
      (rejects : Rejects manager message answers rejection)
      (answering : pc = .rejected message rejection ∨ pc = .answering message rejection ∨
        pc = .sending message rejection) :
      Life manager form404 message (some pc) answers [.rejected] []
  | answered {rejection : Rejection} {answers : List Answer}
      (rejects : Rejects manager message answers rejection) :
      Life manager form404 message none answers [.rejected] [rejection.header form404]
  | unanswered {rejection : Rejection} {answers : List Answer}
      (rejects : Rejects manager message answers rejection) :
      Life manager form404 message none answers [.rejected] []

/-! ## From the headers to the middlewares -/

/-- Only a method that can be parsed is read. -/
theorem parse_of_parseRequestHeaders {headers : List Header} {input : Bytes} {path : String}
    {contentLength : Option Nat} (h : parseRequestHeaders headers = some (input, path, contentLength)) :
    (H3Method.parse input).isSome = true :=
  HeaderGrammar.H3Method.parse_isSome_iff.mpr (HeaderGrammar.parseRequestHeaders_iff.mp h).method.2

section Work
variable {manager : RouteManager M H L C} {form404 : Option ErrorForm} {message : HeaderMessage}
  {job : MiddleWareJob M}

/-- A section that was admitted is not malformed. -/
theorem headerWork_ne_malformed (hadmitted : (extractPathFromHdr message.headers).isSome = true) :
    headerWork manager message ≠ .malformed := by
  obtain ⟨path, hpath⟩ := Option.isSome_iff_exists.mp hadmitted
  obtain ⟨⟨input, path, contentLength⟩, hparsed, -⟩ := Option.map_eq_some_iff.mp hpath
  obtain ⟨method, hmethod⟩ := Option.isSome_iff_exists.mp (parse_of_parseRequestHeaders hparsed)
  unfold headerWork
  rw [hparsed]
  dsimp only
  rw [hmethod]
  dsimp only
  split
  · nofun
  · split <;> nofun

theorem matches_of_execute (h : headerWork manager message = .execute job) :
    job.message = message ∧ Matches manager message job.middlewareCollection := by
  unfold headerWork at h
  cases hparsed : parseRequestHeaders message.headers with
  | none => simp [hparsed] at h
  | some parsed =>
    obtain ⟨input, path, contentLength⟩ := parsed
    simp only [hparsed] at h
    cases hmethod : H3Method.parse input with
    | none => simp [hmethod] at h
    | some method =>
      simp only [hmethod, RouteManager.getRoutesFromPathAndMethod] at h
      cases hroute : manager.routesFormats.find (ReqArgs.parseArgs path).1 method with
      | some route =>
        simp only [hroute, Option.map_some] at h
        cases h
        exact ⟨rfl, input, path, contentLength, method, hparsed, hmethod, .inl ⟨route, hroute, rfl⟩⟩
      | none =>
        simp only [hroute, Option.map_none] at h
        cases hstream : manager.getStreamFromPath path with
        | none => simp [hstream] at h
        | some stream =>
          simp only [hstream] at h
          cases h
          exact ⟨rfl, input, path, contentLength, method, hparsed, hmethod,
            .inr ⟨hroute, stream, hstream, rfl⟩⟩

theorem not_matches_of_unknownRoute (h : headerWork manager message = .unknownRoute)
    (middlewares : List M) : ¬ Matches manager message middlewares := by
  intro ⟨input, path, contentLength, method, hparsed, hmethod, hmatch⟩
  simp only [headerWork, hparsed, hmethod, RouteManager.getRoutesFromPathAndMethod] at h
  rcases hmatch with ⟨route, hroute, -⟩ | ⟨hroute, stream, hstream, -⟩
  · simp [hroute] at h
  · simp [hroute, hstream] at h

theorem Matches.unique {middlewares middlewares' : List M} (h : Matches manager message middlewares)
    (h' : Matches manager message middlewares') : middlewares = middlewares' := by
  obtain ⟨input, path, contentLength, method, hparsed, hmethod, hmatch⟩ := h
  obtain ⟨_, _, _, _, hparsed', hmethod', hmatch'⟩ := h'
  cases hparsed.symm.trans hparsed'
  cases hmethod.symm.trans hmethod'
  rcases hmatch with ⟨route, hroute, rfl⟩ | ⟨hnone, stream, hstream, rfl⟩
  · rcases hmatch' with ⟨route', hroute', rfl⟩ | ⟨hnone, -⟩
    · cases hroute.symm.trans hroute'
      rfl
    · cases hroute.symm.trans hnone
  · rcases hmatch' with ⟨route', hroute', -⟩ | ⟨-, stream', hstream', rfl⟩
    · cases hroute'.symm.trans hnone
    · cases hstream.symm.trans hstream'
      rfl

end Work

/-! ## One step of a life -/

section Lives
variable {manager : RouteManager M H L C} {form404 : Option ErrorForm} {message : HeaderMessage}
  {pc : JobPc M} {pc' : Option (JobPc M)} {sign : Sign} {answers : List Answer}
  {verdicts : List Dispatch.Verdict} {errors : List ErrorHeader}

theorem AllContinued.snoc (h : AllContinued answers) (headers : List Header) :
    AllContinued (answers ++ [.ok (.continued headers)]) := by
  intro answer hmem
  rcases List.mem_append.mp hmem with hmem | hmem
  · exact h answer hmem
  · exact ⟨headers, List.mem_singleton.mp hmem⟩

/-- The first answer that is not `Continue` rejects the section. -/
theorem rejects_of_answer {job : MiddleWareJob M} {middleware : M} {rest : List M}
    (work : headerWork manager message = .execute job) (continued : AllContinued answers)
    (length : answers.length + (middleware :: rest).length = job.middlewareCollection.length)
    {last : Answer} {response : ErrorResponse} (hlast : abortion last = some response) :
    Rejects manager message (answers ++ [last]) (.aborted response) := by
  refine ⟨_, answers, last, (matches_of_execute work).2, rfl, ?_, continued, hlast⟩
  simp only [List.length_append, List.length_cons, List.length_nil] at length ⊢
  omega

/-- A section goes on with its life. -/
theorem Life.step (hlife : Life manager form404 message (some pc) answers verdicts errors)
    (hstep : JobStep manager form404 pc sign pc')
    (hadmitted : (extractPathFromHdr message.headers).isSome = true) :
    Life manager form404 message pc' (answers ++ sign.answers) (verdicts ++ sign.verdicts)
      (errors ++ sign.errors) := by
  cases hlife with
  | queued =>
    cases hstep with
    | route work => exact .waiting work
    | unknownRoute work => exact .rejecting ⟨not_matches_of_unknownRoute work, rfl⟩
    | malformed work => exact absurd work (headerWork_ne_malformed hadmitted)
    | errorLost sending => simp at sending
  | waiting work =>
    cases hstep with
    | take => exact .calling work (fun _ h => absurd h List.not_mem_nil) (by simp [Sign.answers])
    | errorLost sending => simp at sending
  | calling work continued length =>
    obtain ⟨hmessage, hmatches⟩ := matches_of_execute work
    cases hstep with
    | continued =>
      refine .calling work (continued.snoc _) ?_
      simp only [Sign.answers, List.length_append, List.length_cons, List.length_nil] at length ⊢
      omega
    | aborted | failed =>
      rw [hmessage]
      exact .rejecting (rejects_of_answer work continued length rfl)
    | check =>
      simp only [Sign.answers, Sign.verdicts, Sign.errors, List.append_nil]
      exact .accepted rfl hmessage ⟨_, hmatches, by simpa using length, continued⟩
    | errorLost sending => simp at sending
  | accepted checked hmessage accepts =>
    simp only [Sign.answers, Sign.verdicts, Sign.errors]
    cases hstep with
    | completed | absent | created | reported => exact .accepted rfl hmessage (by simpa using accepts)
    | ready => exact .ready (by simpa using accepts)
    | errorLost sending => rcases sending with rfl | rfl <;> cases checked
    | _ => cases checked
  | rejecting rejects =>
    cases hstep with
    | rejected => exact .rejected (by simpa [Sign.answers] using rejects) (.inl rfl)
    | errorLost sending => simp at sending
  | rejected rejects answering =>
    rw [← List.append_nil answers] at rejects
    rcases answering with rfl | rfl | rfl
    · cases hstep with
      | queue => exact .rejected rejects (.inr (.inl rfl))
      | errorLost sending => simp at sending
    · cases hstep with
      | senders => exact .rejected rejects (.inr (.inr rfl))
      | errorLost => exact .unanswered rejects
    · cases hstep with
      | errorQueued => exact .answered rejects
      | errorLost => exact .unanswered rejects

end Lives

/-! ## The steps of the server -/

/-- The section an action belongs to. -/
def Action.number : Action L W ω → Option Nat
  | .processNext number | .takeJob number | .callMiddleware number _ | .check number
  | .complete number _ _ | .lookup number | .create number _ _ | .sendReceptionStatus number
  | .sendSignal number | .sendRejected number | .insertErrorQueue number | .getSenders number
  | .sendError number => some number
  | _ => none

/-- The answer a middleware gives to a section. -/
def Action.answersTo (number : Nat) : Action L W ω → List Answer
  | .callMiddleware called answer => if called = number then [answer] else []
  | _ => []

/-- What the middlewares answered to a section, in order. -/
def answersOf (number : Nat) (run : List (Action L W ω)) : List Answer :=
  run.flatMap (Action.answersTo number)

def HeaderMessage.Admitted (message : HeaderMessage) : Bool :=
  (extractPathFromHdr message.headers).isSome

namespace State

/-- The verdicts of a section. -/
def verdictsOf (s : State M H L C W ω) (number : Nat) : List (ReqId × Dispatch.Verdict) :=
  s.verdicts.filterMap fun verdict => if verdict.1 = number then some verdict.2 else none

/-- The error responses queued for a section. -/
def errorsOf (s : State M H L C W ω) (number : Nat) : List (QueueKey × ErrorHeader) :=
  s.errors.filterMap fun error => if error.1 = number then some error.2 else none

/-- The sections that were admitted. -/
def admitted (s : State M H L C W ω) : List HeaderMessage := s.received.filter HeaderMessage.Admitted

end State

/-- What a step of the server is for one section. -/
inductive SectionStep (manager : RouteManager M H L C) (form404 : Option ErrorForm) (number : Nat)
    (s t : State M H L C W ω) (a : Action L W ω) : Prop
  | elsewhere (other : a.number ≠ some number) (jobs : t.jobs number = s.jobs number)
      (verdicts : t.verdictsOf number = s.verdictsOf number)
      (errors : t.errorsOf number = s.errorsOf number) (answers : a.answersTo number = [])
  | admitted {message : HeaderMessage} (other : a.number ≠ some number)
      (network : s.network = .processing message) (sections : s.sections = number)
      (next : t.sections = number + 1) (jobs : t.jobs number = some (.queued message))
      (verdicts : t.verdictsOf number = s.verdictsOf number)
      (errors : t.errorsOf number = s.errorsOf number) (answers : a.answersTo number = [])
  | own {pc : JobPc M} {sign : Sign} (own : a.number = some number) (before : s.jobs number = some pc)
      (step : JobStep manager form404 pc sign (t.jobs number))
      (verdicts : t.verdictsOf number = s.verdictsOf number ++
        sign.verdicts.map fun verdict => (pc.message.id, verdict))
      (errors : t.errorsOf number = s.errorsOf number ++
        sign.errors.map fun header => (pc.message.queueKey, header))
      (answers : a.answersTo number = sign.answers)

section Steps
variable {manager : RouteManager M H L C} {config : ServerConfig} {form404 : Option ErrorForm}
  {s t : State M H L C W ω} {a : Action L W ω} {number : Nat}

theorem filterMap_tagged {α β : Type} (called : Nat) (id : α) (values : List β) :
    (values.map fun value => (called, id, value)).filterMap (fun entry =>
        if entry.1 = number then some entry.2 else none) =
      if called = number then values.map fun value => (id, value) else [] := by
  induction values with
  | nil => simp
  | cons value values ih =>
    by_cases h : called = number <;> simp [h]

/-- A step of no section. -/
theorem SectionStep.of_other (hnumber : a.number = none) (hjobs : t.jobs = s.jobs)
    (hverdicts : t.verdicts = s.verdicts) (herrors : t.errors = s.errors) :
    SectionStep manager form404 number s t a := by
  refine .elsewhere (by simp [hnumber]) (congrFun hjobs number) ?_ ?_ ?_
  · rw [State.verdictsOf, hverdicts, State.verdictsOf]
  · rw [State.errorsOf, herrors, State.errorsOf]
  · cases a with
    | callMiddleware => cases hnumber
    | _ => rfl

/-- A step of the section `called`. -/
theorem SectionStep.of_job {called : Nat} {pc : JobPc M} {pc' : Option (JobPc M)} {sign : Sign}
    (hnumber : a.number = some called) (hold : s.jobs called = some pc)
    (hstep : JobStep manager form404 pc sign pc') (hjobs : t.jobs = Function.update s.jobs called pc')
    (hverdicts : t.verdicts = s.verdicts ++
      sign.verdicts.map fun verdict => (called, pc.message.id, verdict))
    (herrors : t.errors = s.errors ++
      sign.errors.map fun header => (called, pc.message.queueKey, header))
    (hanswers : a.answersTo number = if called = number then sign.answers else []) :
    SectionStep manager form404 number s t a := by
  have hverdictsOf : t.verdictsOf number = s.verdictsOf number ++
      if called = number then sign.verdicts.map fun verdict => (pc.message.id, verdict) else [] := by
    rw [State.verdictsOf, hverdicts, List.filterMap_append, filterMap_tagged, State.verdictsOf]
  have herrorsOf : t.errorsOf number = s.errorsOf number ++
      if called = number then sign.errors.map fun header => (pc.message.queueKey, header) else [] := by
    rw [State.errorsOf, herrors, List.filterMap_append, filterMap_tagged, State.errorsOf]
  by_cases h : called = number
  · subst h
    simp only [if_true] at hverdictsOf herrorsOf hanswers
    refine .own hnumber hold ?_ hverdictsOf herrorsOf hanswers
    rw [hjobs, Function.update_self]
    exact hstep
  · simp only [h, if_false, List.append_nil] at hverdictsOf herrorsOf hanswers
    refine .elsewhere (by simp [hnumber, h]) ?_ hverdictsOf herrorsOf hanswers
    rw [hjobs, Function.update_of_ne (Ne.symm h)]

/-- A step of the section `called` that nobody hears of. -/
theorem SectionStep.of_silent {called : Nat} {pc : JobPc M} {pc' : Option (JobPc M)}
    (hnumber : a.number = some called) (hold : s.jobs called = some pc)
    (hstep : JobStep manager form404 pc .silent pc') (hjobs : t.jobs = Function.update s.jobs called pc')
    (hverdicts : t.verdicts = s.verdicts) (herrors : t.errors = s.errors)
    (hanswers : a.answersTo number = []) : SectionStep manager form404 number s t a :=
  .of_job hnumber hold hstep hjobs (by simp [hverdicts, Sign.verdicts])
    (by simp [herrors, Sign.errors]) (by simp [hanswers, Sign.answers])

/-- A step of the section `called` in which a middleware answers. -/
theorem SectionStep.of_answer {called : Nat} {pc : JobPc M} {pc' : Option (JobPc M)} {answer : Answer}
    (hnumber : a.number = some called) (hold : s.jobs called = some pc)
    (hstep : JobStep manager form404 pc (.answered answer) pc')
    (hjobs : t.jobs = Function.update s.jobs called pc') (hverdicts : t.verdicts = s.verdicts)
    (herrors : t.errors = s.errors)
    (hanswers : a.answersTo number = if called = number then [answer] else []) :
    SectionStep manager form404 number s t a :=
  .of_job hnumber hold hstep hjobs (by simp [hverdicts, Sign.verdicts])
    (by simp [herrors, Sign.errors]) hanswers

variable [DecidableEq ω]

/-- Every step of the server is a step of one section's life, or of none. -/
theorem step_section (h : step config form404 manager s a = some t) (number : Nat) :
    SectionStep manager form404 number s t a := by
  cases step_transition h with
  | headersAdmitted | headersRefused | dataChecked | dataEntered | dataWritten | finishedHandled
  | finishedCancelled | streamReset | connectionClosed | streamRemoved | eventBuilt | queueInserted
  | handlerCalled | preparationEnded | along => exact .of_other rfl rfl rfl rfl
  | sectionQueued processing =>
    by_cases hn : s.sections = number
    · subst hn
      exact .admitted nofun processing rfl rfl (PMap.insert_self _ _ _) rfl rfl rfl
    · exact .elsewhere nofun (PMap.insert_of_ne _ _ (Ne.symm hn)) rfl rfl rfl
  | routed held work => exact .of_silent rfl held (.route work) rfl rfl rfl rfl
  | unrouted held work => exact .of_silent rfl held (.unknownRoute work) rfl rfl rfl rfl
  | malformed held work => exact .of_silent rfl held (.malformed work) rfl rfl rfl rfl
  | jobTaken held => exact .of_silent rfl held .take rfl rfl rfl rfl
  | continued held => exact .of_answer rfl held .continued rfl rfl rfl rfl
  | aborted held => exact .of_answer rfl held .aborted rfl rfl rfl rfl
  | failed held => exact .of_answer rfl held .failed rfl rfl rfl rfl
  | checked held => exact .of_silent rfl held .check rfl rfl rfl rfl
  | completed held | found held => exact .of_silent rfl held .completed rfl rfl rfl rfl
  | absent held => exact .of_silent rfl held .absent rfl rfl rfl rfl
  | created held => exact .of_silent rfl held .created rfl rfl rfl rfl
  | statusSent held => exact .of_silent rfl held .reported rfl rfl rfl rfl
  | signalSent held =>
    exact .of_job rfl held .ready rfl (by simp [Sign.verdicts, JobPc.message])
      (by simp [Sign.errors, State.endJob]) (by simp [Sign.answers, Action.answersTo])
  | rejectedSent held =>
    exact .of_job rfl held .rejected rfl (by simp [Sign.verdicts, JobPc.message])
      (by simp [Sign.errors, State.setJob]) (by simp [Sign.answers, Action.answersTo])
  | errorQueueInserted held => exact .of_silent rfl held .queue rfl rfl rfl rfl
  | bodySenderMissing held => exact .of_silent rfl held (.errorLost (.inl rfl)) rfl rfl rfl rfl
  | sendersGot held => exact .of_silent rfl held .senders rfl rfl rfl rfl
  | errorSent held =>
    exact .of_job rfl held .errorQueued rfl (by simp [Sign.verdicts, State.endJob])
      (by simp [Sign.errors, JobPc.message]) (by simp [Sign.answers, Action.answersTo])
  | errorLost held => exact .of_silent rfl held (.errorLost (.inr rfl)) rfl rfl rfl rfl

/-! ## The steps of the protocol -/

/-- The step of the protocol an action of the server may make. -/
def Action.Makes : Action L W ω → Dispatch.Action (PartialReq L W) ω → Prop
  | .headers message, action => action = .begin message.id ∨ action = .cancelRequest message.id
  | .processHeader, action => ∃ number id, action = .startJob number id
  | .finished id _, action => action = .finish id ∨ action = .cancelRequest id
  | .reset id _, action => action = .cancelRequest id
  | .closeConnection conn _, action => action = .cancelConnection conn
  | .complete number _ _, action | .lookup number, action | .create number _ _, action =>
    ∃ write, action = .jobWrite number write
  | .sendSignal number, action => action = .jobVerdict number .ready
  | .sendRejected number, action => action = .jobVerdict number .rejected
  | .buildRouteEvent w _, action => ∃ take, action = .buildRouteEvent w take
  | .endPreparation w, action => action = .endPreparation w
  | .protocol internal, action => action = internal ∧ Internal internal = true
  | _, _ => False

/-- What a step of the server does to the protocol's state: nothing, a step of the
protocol, or the network thread enters a body packet. -/
inductive SharedStep (s t : State M H L C W ω) (a : Action L W ω) : Prop
  | same (shared : t.shared = s.shared)
  | packet {id : ReqId} {write : Option (PartialReq L W) → Option (PartialReq L W)}
      (network : s.network = .missing id ∨ s.network = .entered id)
      (shared : t.shared = s.shared.write id write)
  | along {action : Dispatch.Action (PartialReq L W) ω} (makes : a.Makes action)
      (step : Dispatch.step s.shared action = some t.shared)

theorem step_shared (h : step config form404 manager s a = some t) : SharedStep s t a := by
  cases step_transition h with
  | dataChecked | streamRemoved | routed | unrouted | malformed | jobTaken | continued | aborted | failed
  | checked | absent | statusSent | errorQueueInserted | bodySenderMissing | sendersGot | errorSent
  | errorLost | queueInserted | handlerCalled => exact .same rfl
  | dataEntered missing => exact .packet (.inl missing) rfl
  | dataWritten entered => exact .packet (.inr entered) rfl
  | headersAdmitted _ _ protocol => exact .along (.inl rfl) protocol
  | headersRefused _ _ protocol => exact .along (.inr rfl) protocol
  | sectionQueued _ protocol => exact .along ⟨_, _, rfl⟩ protocol
  | finishedHandled _ _ protocol => exact .along (.inl rfl) protocol
  | finishedCancelled _ _ protocol => exact .along (.inr rfl) protocol
  | streamReset _ protocol | connectionClosed _ protocol => exact .along rfl protocol
  | completed _ protocol | found _ _ protocol | created _ _ protocol | eventBuilt _ protocol =>
    exact .along ⟨_, rfl⟩ protocol
  | signalSent _ protocol | rejectedSent _ protocol | preparationEnded _ _ _ protocol =>
    exact .along rfl protocol
  | along internal protocol => exact .along ⟨rfl, internal⟩ protocol

/-! ## The steps of the response workers -/

/-- What a step of the server does to the response workers' events and to the calls of
the user's code. -/
inductive RespondStep (manager : RouteManager M H L C) (s t : State M H L C W ω) (a : Action L W ω) :
    Prop
  | same (other : ∀ w, a ≠ .endPreparation w ∧ ∀ scid, a ≠ .buildRouteEvent w scid)
      (responders : t.responders = s.responders) (invocations : t.invocations = s.invocations)
  | built {w : ω} {scid : Bytes} {id : ReqId} {born taken : Nat} (action : a = .buildRouteEvent w scid)
      (worker : s.shared.workers w = .taken id born taken)
      (responders : t.responders = Function.update s.responders w (some (Responder.ofEvent manager scid
        ((s.shared.table id).bind fun entry => (entry.buildRouteEvent id scid).2.1))))
      (invocations : t.invocations = s.invocations)
  | queued {w : ω} {responder : Responder W} (action : a = .insertQueue w)
      (before : s.responders w = some responder)
      (responders : t.responders = Function.update s.responders w (some responder.insertQueue))
      (invocations : t.invocations = s.invocations)
  | called {w : ω} {id : ReqId} {responder : Responder W} {opened : Bool} (action : a = .callHandler w)
      (worker : s.shared.workers w = .responding id) (before : s.responders w = some responder)
      (fresh : responder.called = false)
      (responders : t.responders = Function.update s.responders w (some { responder with called := true }))
      (invocations : t.invocations = s.invocations ++ respond manager responder.event opened)
  | ended {w : ω} (action : a = .endPreparation w)
      (responders : t.responders = Function.update s.responders w none)
      (invocations : t.invocations = s.invocations)

theorem step_respond (h : step config form404 manager s a = some t) : RespondStep manager s t a := by
  cases step_transition h with
  | eventBuilt at_ => exact .built rfl at_ rfl rfl
  | queueInserted _ held => exact .queued rfl held rfl rfl
  | handlerCalled at_ held _ fresh => exact .called rfl at_ held fresh rfl rfl
  | preparationEnded => exact .ended rfl rfl rfl
  | _ => exact .same (by simp) rfl rfl

/-! ## The intake of sections -/

/-- What a step of the server does to the sections it takes in. -/
inductive IntakeStep (s t : State M H L C W ω) (a : Action L W ω) : Prop
  | same (received : t.received = s.received) (sections : t.sections = s.sections)
      (network : ∀ message, t.network = .processing message ↔ s.network = .processing message)
  | refused {message : HeaderMessage} (admitted : message.Admitted = false)
      (received : t.received = s.received ++ [message]) (sections : t.sections = s.sections)
      (before : s.network = .idle) (after : t.network = .idle)
  | admitted {message : HeaderMessage} (admitted : message.Admitted = true)
      (received : t.received = s.received ++ [message]) (sections : t.sections = s.sections)
      (before : s.network = .idle) (after : t.network = .processing message)
  | numbered {message : HeaderMessage} (received : t.received = s.received)
      (sections : t.sections = s.sections + 1) (before : s.network = .processing message)
      (after : t.network = .idle) (jobs : t.jobs s.sections = some (.queued message))
      (verdicts : t.verdicts = s.verdicts) (errors : t.errors = s.errors)
      (answers : ∀ number, a.answersTo number = [])

theorem step_intake (h : step config form404 manager s a = some t) : IntakeStep s t a := by
  cases step_transition h with
  | headersAdmitted idle found =>
    exact .admitted (by simp [HeaderMessage.Admitted, found]) rfl rfl idle rfl
  | headersRefused idle absent =>
    exact .refused (by simp [HeaderMessage.Admitted, absent]) rfl rfl idle rfl
  | sectionQueued processing =>
    exact .numbered rfl rfl processing rfl (PMap.insert_self _ _ _) rfl rfl fun _ => rfl
  | dataChecked idle =>
    refine .same rfl rfl fun message => ?_
    rw [idle]
    dsimp only
    split <;> simp
  | dataEntered net | dataWritten net | finishedHandled net | finishedCancelled net | streamReset net
  | connectionClosed net | streamRemoved net => exact .same rfl rfl fun message => by simp [net]
  | _ => exact .same rfl rfl fun _ => Iff.rfl

/-- The sections are numbered in the order they are admitted, and the one that is
being processed is the next. -/
structure IntakeInv (s : State M H L C W ω) : Prop where
  numbered : s.sections ≤ s.admitted.length
  processing : ∀ message, s.network = .processing message →
    s.admitted[s.sections]? = some message ∧ s.admitted.length = s.sections + 1
  idle : (∀ message, s.network ≠ .processing message) → s.admitted.length = s.sections

omit [DecidableEq ω] in
theorem intakeInv_init : IntakeInv (init manager : State M H L C W ω) where
  numbered := Nat.le_refl _
  processing _ h := by cases h
  idle _ := rfl

omit [DecidableEq ω] in
theorem IntakeInv.step (h : IntakeInv s) (hstep : IntakeStep s t a) : IntakeInv t := by
  cases hstep with
  | same received sections network =>
    have hadmitted : t.admitted = s.admitted := by rw [State.admitted, received, State.admitted]
    refine ⟨by rw [hadmitted, sections]; exact h.numbered, fun message hm => ?_, fun hidle => ?_⟩
    · rw [hadmitted, sections]
      exact h.processing message ((network message).mp hm)
    · rw [hadmitted, sections]
      exact h.idle fun message hm => hidle message ((network message).mpr hm)
  | refused admitted received sections before after =>
    have hadmitted : t.admitted = s.admitted := by
      rw [State.admitted, received, List.filter_append, State.admitted]
      simp [admitted]
    refine ⟨by rw [hadmitted, sections]; exact h.numbered, fun message hm => ?_, fun _ => ?_⟩
    · cases after.symm.trans hm
    · rw [hadmitted, sections]
      exact h.idle fun message hm => by cases before.symm.trans hm
  | @admitted message admitted received sections before after =>
    have hlength := h.idle fun message hm => by cases before.symm.trans hm
    have hadmitted : t.admitted = s.admitted ++ [message] := by
      rw [State.admitted, received, List.filter_append, State.admitted]
      simp [admitted]
    refine ⟨?_, fun message' hm => ?_, fun hidle => absurd after (hidle message)⟩
    · rw [hadmitted, sections, List.length_append]
      omega
    · cases after.symm.trans hm
      rw [hadmitted, sections, ← hlength]
      simp
  | @numbered message received sections before after =>
    obtain ⟨-, hlength⟩ := h.processing message before
    have hadmitted : t.admitted = s.admitted := by rw [State.admitted, received, State.admitted]
    refine ⟨by rw [hadmitted, sections]; omega, fun message' hm => ?_, fun _ => ?_⟩
    · cases after.symm.trans hm
    · rw [hadmitted, sections]
      exact hlength

/-! ## The records of the sections -/

/-- The record of one section is the life of its message. -/
def Lives (manager : RouteManager M H L C) (form404 : Option ErrorForm) (past : List (Action L W ω))
    (s : State M H L C W ω) (number : Nat) (message : HeaderMessage) : Prop :=
  ∃ verdicts errors, s.verdictsOf number = verdicts.map (fun verdict => (message.id, verdict)) ∧
    s.errorsOf number = errors.map (fun header => (message.queueKey, header)) ∧
    Life manager form404 message (s.jobs number) (answersOf number past) verdicts errors

/-- Nothing is recorded of a section that has no number yet. -/
structure Unrecorded (past : List (Action L W ω)) (s : State M H L C W ω) (number : Nat) : Prop where
  jobs : s.jobs number = none
  verdicts : s.verdictsOf number = []
  errors : s.errorsOf number = []
  answers : answersOf number past = []

structure SectionsInv (manager : RouteManager M H L C) (form404 : Option ErrorForm)
    (past : List (Action L W ω)) (s : State M H L C W ω) : Prop where
  intake : IntakeInv s
  unrecorded : ∀ number, s.sections ≤ number → Unrecorded past s number
  lives : ∀ number message, number < s.sections → s.admitted[number]? = some message →
    Lives manager form404 past s number message

omit [DecidableEq ω] in
theorem answersOf_snoc (number : Nat) (past : List (Action L W ω)) (a : Action L W ω) :
    answersOf number (past ++ [a]) = answersOf number past ++ a.answersTo number := by
  simp [answersOf]

theorem Life.message {pc : JobPc M} {message : HeaderMessage} {answers : List Answer}
    {verdicts : List Dispatch.Verdict} {errors : List ErrorHeader}
    (h : Life manager form404 message (some pc) answers verdicts errors) : pc.message = message := by
  cases h with
  | queued | rejecting => rfl
  | waiting work | calling work => exact (matches_of_execute work).1
  | accepted _ message_eq => exact message_eq
  | rejected _ answering => rcases answering with rfl | rfl | rfl <;> rfl

omit [DecidableEq ω] in
theorem sectionsInv_init : SectionsInv manager form404 [] (init manager : State M H L C W ω) where
  intake := intakeInv_init
  unrecorded _ _ := ⟨rfl, rfl, rfl, rfl⟩
  lives number _ hn := absurd hn (Nat.not_lt_zero number)

omit [DecidableEq ω] in
/-- The section that is numbered begins its life, and the others go on with theirs. -/
theorem Lives.step {past : List (Action L W ω)} {message : HeaderMessage}
    (h : Lives manager form404 past s number message) (hlt : number < s.sections)
    (hadmitted : message.Admitted = true) (hstep : SectionStep manager form404 number s t a) :
    Lives manager form404 (past ++ [a]) t number message := by
  obtain ⟨verdicts, errors, hverdicts, herrors, hlife⟩ := h
  cases hstep with
  | elsewhere other jobs verdictsOf errorsOf answers =>
    refine ⟨verdicts, errors, verdictsOf.trans hverdicts, errorsOf.trans herrors, ?_⟩
    rw [jobs, answersOf_snoc, answers, List.append_nil]
    exact hlife
  | admitted other network sections =>
    omega
  | @own pc sign own before step verdictsOf errorsOf answers =>
    rw [before] at hlife
    have hmessage := hlife.message
    refine ⟨verdicts ++ sign.verdicts, errors ++ sign.errors, ?_, ?_, ?_⟩
    · rw [verdictsOf, hverdicts, hmessage, List.map_append]
    · rw [errorsOf, herrors, hmessage, List.map_append]
    · rw [answersOf_snoc, answers]
      exact hlife.step step hadmitted

omit [DecidableEq ω] in
theorem Unrecorded.step {past : List (Action L W ω)} (h : Unrecorded past s number)
    (hlt : t.sections ≤ number) (hstep : SectionStep manager form404 number s t a) :
    Unrecorded (past ++ [a]) t number := by
  cases hstep with
  | elsewhere other jobs verdicts errors answers =>
    refine ⟨jobs.trans h.jobs, verdicts.trans h.verdicts, errors.trans h.errors, ?_⟩
    rw [answersOf_snoc, answers, h.answers]
    rfl
  | admitted other network sections next =>
    omega
  | own own before =>
    cases h.jobs.symm.trans before

theorem sectionsInv_step {past : List (Action L W ω)} (h : SectionsInv manager form404 past s)
    (hstep : step config form404 manager s a = some t) :
    SectionsInv manager form404 (past ++ [a]) t := by
  have hsection := step_section hstep
  have hintake := step_intake hstep
  refine ⟨h.intake.step hintake, fun number hle => ?_, fun number message hlt hmessage => ?_⟩
  · have hsections : s.sections ≤ t.sections := by
      cases hintake with
      | same _ sections | refused _ _ sections | admitted _ _ sections => exact sections.ge
      | numbered _ sections => omega
    exact (h.unrecorded number (hsections.trans hle)).step hle (hsection number)
  · have hadmitted : message.Admitted = true := by
      have := List.mem_of_getElem? hmessage
      exact (List.mem_filter.mp this).2
    -- an older section goes on, the one that is numbered begins
    have hgoes : number < s.sections → t.received = s.received ∨
        (∃ last, t.received = s.received ++ [last]) →
        Lives manager form404 (past ++ [a]) t number message := by
      intro hold hreceived
      have hsame : s.admitted[number]? = some message := by
        have hlength := h.intake.numbered
        rcases hreceived with hreceived | ⟨last, hreceived⟩
        · rwa [State.admitted, hreceived] at hmessage
        · rw [State.admitted, hreceived, List.filter_append] at hmessage
          rwa [List.getElem?_append_left (by unfold State.admitted at hlength; omega)] at hmessage
      exact (h.lives number message hold hsame).step hold hadmitted (hsection number)
    cases hintake with
    | same received sections => exact hgoes (sections ▸ hlt) (.inl received)
    | refused _ received sections | admitted _ received sections =>
      exact hgoes (sections ▸ hlt) (.inr ⟨_, received⟩)
    | @numbered next received sections before after jobs verdicts errors answers =>
      by_cases hold : number < s.sections
      · exact hgoes hold (.inl received)
      · obtain rfl : number = s.sections := by omega
        have hnext : next = message := by
          have := (h.intake.processing next before).1
          rw [State.admitted, received, ← State.admitted, this] at hmessage
          exact Option.some.inj hmessage
        have hunrecorded := h.unrecorded s.sections (Nat.le_refl _)
        refine ⟨[], [], ?_, ?_, ?_⟩
        · rw [State.verdictsOf, verdicts]
          exact hunrecorded.verdicts
        · rw [State.errorsOf, errors]
          exact hunrecorded.errors
        · rw [jobs, answersOf_snoc, answers, hunrecorded.answers, hnext]
          exact .queued

end Steps

end FacesHttp3.Server
