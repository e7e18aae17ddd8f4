import FacesHttp3.Dispatch.Transitions
import FacesHttp3.Lib.Projection

/-! # Requests do not disturb one another

The tables, the queues and the workers are shared by all requests. Seen from one of
them, every run is a run in which there is no other: the steps that concern it, on
their own, are steps of the protocol and leave it the same entry, record, injections
and history. -/

namespace FacesHttp3.Dispatch
open FacesHttp3.Lib FacesHttp3.Lib.Exec FacesHttp3.Request

variable {ρ ω : Type}

/-! ## What one request sees -/

/-- The positions in the log count the events of all requests; they are forgotten. -/
def Event.forget : Event ω → Event ω
  | .taken id _ worker => .taken id 0 worker
  | .rejected id _ => .rejected id 0
  | .prepared id _ _ => .prepared id 0 0
  | event => event

def Event.Concerns (id : ReqId) : Event ω → Bool
  | .created i | .received i _ | .injected i | .taken i _ _ | .rejected i _ | .prepared i _ _
  | .dropped i | .cancelled i => i == id
  | .cancelledConnection conn => conn == id.1

namespace RegPc

def forget : RegPc → RegPc
  | .taken id _ _ => .taken id 0 0
  | pc => pc

/-- A worker with another request does nothing. -/
def only (id : ReqId) (pc : RegPc) : RegPc := if pc.request = some id then pc.forget else .idle

end RegPc

def NetPc.only (id : ReqId) : NetPc → NetPc
  | .discarding i => if i = id then .discarding i else .idle
  | .discardingConnection conn => if conn = id.1 then .discardingConnection conn else .idle
  | .idle => .idle

/-- The steps that concern a request. -/
def Action.Concerns (id : ReqId) (s : State ρ ω) : Action ρ ω → Bool
  | .begin i | .data i _ | .finish i | .cancelRequest i | .startJob _ i => i == id
  | .cancelConnection conn => conn == id.1
  | .discard => s.net.only id != .idle
  | .jobWrite job _ | .jobVerdict job _ => s.jobs job == some id
  | .receive => (s.verdicts.head?.map Prod.fst) == some id
  | .receiverDiscard => s.receiver == some id
  | .pick _ => s.injections.head? == some id
  | .removeIf w | .containsKey w | .requeue w | .buildRouteEvent w _ | .cleanEntry w
  | .endPreparation w | .discardRejected w => (s.workers w).request == some id

/-- `u` is what the request `id` sees of `s`. -/
structure View (id : ReqId) (s u : State ρ ω) : Prop where
  signal : ∀ i, (u.signal i).map Slot.disposition =
    if i = id then (s.signal i).map Slot.disposition else none
  verdicts : u.verdicts = s.verdicts.filter fun verdict => verdict.1 == id
  receiver : u.receiver = s.receiver.filter (· == id)
  table : ∀ i, u.table i = if i = id then s.table i else none
  injections : u.injections = s.injections.filter (· == id)
  workers : ∀ w, (u.workers w).forget = (s.workers w).only id
  jobs : ∀ job, u.jobs job = (s.jobs job).filter (· == id)
  net : u.net = s.net.only id
  begun : u.begun id = s.begun id
  ended : u.ended id = s.ended id
  log : u.log.map Event.forget = (s.log.filter (Event.Concerns id)).map Event.forget

theorem RegPc.eq_of_forget {pc pc' : RegPc} (h : pc.forget = pc'.forget)
    (htaken : ∀ id born taken, pc' ≠ .taken id born taken) : pc = pc' := by
  cases pc' with
  | taken id born taken => exact absurd rfl (htaken id born taken)
  | _ =>
    cases pc <;> cases h
    all_goals rfl

theorem RegPc.taken_of_forget {pc : RegPc} {id : ReqId} {born taken : Nat}
    (h : pc.forget = (RegPc.taken id born taken).forget) : ∃ born' taken', pc = .taken id born' taken' := by
  cases pc <;> cases h
  exact ⟨_, _, rfl⟩

section View
variable {id : ReqId} {s t u : State ρ ω} {a : Action ρ ω}

theorem view_init (id : ReqId) : View id ({} : State ρ ω) {} where
  signal _ := by simp
  verdicts := rfl
  receiver := rfl
  table _ := by simp
  injections := rfl
  workers _ := rfl
  jobs _ := rfl
  net := rfl
  begun := rfl
  ended := rfl
  log := rfl

/-- An event that concerns the request is recorded on both sides. -/
theorem log_kept {l l' : List (Event ω)}
    (h : l'.map Event.forget = (l.filter (Event.Concerns id)).map Event.forget) {e e' : Event ω}
    (he : e.Concerns id = true) (hsame : e'.forget = e.forget) :
    (l' ++ [e']).map Event.forget = ((l ++ [e]).filter (Event.Concerns id)).map Event.forget := by
  simp [h, he, hsame]

theorem log_hidden {l l' : List (Event ω)}
    (h : l'.map Event.forget = (l.filter (Event.Concerns id)).map Event.forget) {e : Event ω}
    (he : e.Concerns id = false) :
    l'.map Event.forget = ((l ++ [e]).filter (Event.Concerns id)).map Event.forget := by
  simp [h, he]

namespace View

theorem idle (h : View id s u) (hidle : s.net = .idle) : u.net = .idle := by
  rw [h.net, hidle]
  rfl

theorem signal_none (h : View id s u) (hsignal : s.signal id = none) : u.signal id = none := by
  have hview := h.signal id
  simpa [hsignal] using hview

theorem signal_some (h : View id s u) {slot : Slot} (hsignal : s.signal id = some slot) :
    ∃ born, u.signal id = some { slot with born } := by
  have hview := h.signal id
  rw [if_pos rfl, hsignal] at hview
  obtain ⟨slot', hslot', hsame⟩ := Option.map_eq_some_iff.mp hview
  exact ⟨slot'.born, by rw [hslot', ← hsame]⟩

theorem table_self (h : View id s u) : u.table id = s.table id := by
  rw [h.table, if_pos rfl]

theorem worker (h : View id s u) {w : ω} {pc : RegPc} (hat : s.workers w = pc)
    (hpc : pc.request = some id) (htaken : ∀ i born taken, pc ≠ .taken i born taken) :
    u.workers w = pc := by
  refine RegPc.eq_of_forget ?_ htaken
  rw [h.workers, hat, RegPc.only, if_pos hpc]

end View

variable [DecidableEq ω]

/-- A worker moves on both sides. -/
theorem workers_kept (h : ∀ w, (u.workers w).forget = (s.workers w).only id) {w : ω} {pc pc' : RegPc}
    (hpc : pc'.forget = pc.only id) (v : ω) :
    (Function.update u.workers w pc' v).forget = (Function.update s.workers w pc v).only id := by
  by_cases hv : v = w
  · subst hv
    simpa using hpc
  · simpa [hv] using h v

/-- A worker moves that has to do with other requests only. -/
theorem workers_hidden (h : ∀ w, (u.workers w).forget = (s.workers w).only id) {w : ω} {pc : RegPc}
    (hold : (s.workers w).request ≠ some id) (hnew : pc.request ≠ some id) (v : ω) :
    (u.workers v).forget = (Function.update s.workers w pc v).only id := by
  by_cases hv : v = w
  · subst hv
    rw [Function.update_self, h, RegPc.only, RegPc.only, if_neg hold, if_neg hnew]
  · simpa [hv] using h v

/-! ## The steps that concern the request -/

namespace View

theorem begin (h : View id s u) (hstep : step s (.begin id) = some t) :
    ∃ v, step u (.begin id) = some v ∧ View id t v := by
  cases step_transition hstep with
  | begun hidle found =>
    obtain ⟨slot, hslot⟩ := Option.ne_none_iff_exists'.mp found
    obtain ⟨born, hborn⟩ := h.signal_some hslot
    refine ⟨{ u with begun := Function.update u.begun id true }, by
      simp [step, guarded, h.idle hidle, hborn], ?_⟩
    exact { h with begun := by simp }
  | created hidle absent =>
    refine ⟨State.record { u with
      begun := Function.update u.begun id true
      signal := u.signal.insert id ⟨.pending, u.log.length⟩ } (.created id), by
      simp [step, guarded, h.idle hidle, h.signal_none absent], ?_⟩
    exact { h with
      signal := fun i => by by_cases hi : i = id <;> simp [State.record, PMap.insert_apply, hi, h.signal]
      begun := by simp [State.record]
      log := log_kept h.log (by simp [Event.Concerns]) rfl }

omit [DecidableEq ω] in
/-- The record of the request is replaced on both sides. -/
theorem write (h : View id s u) (f : Option ρ → Option ρ) : View id (s.write id f) (u.write id f) :=
  { h with
    table := fun i => by
      by_cases hi : i = id
      · subst hi
        simp [State.write, h.table]
      · simp [State.write, hi, h.table] }

theorem data (h : View id s u) {f : Option ρ → Option ρ} (hstep : step s (.data id f) = some t) :
    ∃ v, step u (.data id f) = some v ∧ View id t v := by
  cases step_transition hstep with
  | data hidle begun going =>
    have hgoing : u.ended id = false := by rw [h.ended]; simpa using going
    exact ⟨u.write id f, by simp [step, guarded, h.idle hidle, h.begun, begun, hgoing], h.write f⟩

theorem finish (h : View id s u) (hstep : step s (.finish id) = some t) :
    ∃ v, step u (.finish id) = some v ∧ View id t v := by
  cases step_transition hstep with
  | finished hidle =>
    refine ⟨_, guarded_eq_some_iff.mpr ⟨h.idle hidle, rfl⟩, ?_⟩
    exact { h with
      injections := by simp [State.record, h.injections]
      ended := by simp [State.record]
      log := log_kept h.log (by simp [Event.Concerns]) rfl }

theorem cancelRequest (h : View id s u) (hstep : step s (.cancelRequest id) = some t) :
    ∃ v, step u (.cancelRequest id) = some v ∧ View id t v := by
  cases step_transition hstep with
  | cancelled hidle =>
    refine ⟨_, guarded_eq_some_iff.mpr ⟨h.idle hidle, rfl⟩, ?_⟩
    exact { h with
      signal := fun i => by by_cases hi : i = id <;> simp [State.record, PMap.erase_apply, hi, h.signal]
      net := by simp [State.record, NetPc.only]
      ended := by simp [State.record]
      log := log_kept h.log (by simp [Event.Concerns]) rfl }

theorem cancelConnection (h : View id s u) (hstep : step s (.cancelConnection id.1) = some t) :
    ∃ v, step u (.cancelConnection id.1) = some v ∧ View id t v := by
  cases step_transition hstep with
  | cancelledConnection hidle =>
    refine ⟨_, guarded_eq_some_iff.mpr ⟨h.idle hidle, rfl⟩, ?_⟩
    exact { h with
      signal := fun i => by
        by_cases hi : i = id
        · simp [State.record, hi]
        · have hnone := h.signal i
          simp [State.record, hi] at hnone ⊢
          simp [hnone]
      net := by simp [State.record, NetPc.only]
      ended := by simp [State.record]
      log := log_kept h.log (by simp [Event.Concerns]) rfl }

omit [DecidableEq ω] in
/-- The record of the request goes on both sides. -/
theorem table_erased (h : View id s u) (i : ReqId) :
    u.table.erase id i = if i = id then s.table.erase id i else none := by
  by_cases hi : i = id <;> simp [PMap.erase_apply, hi, h.table]

theorem discard (h : View id s u) (hstep : step s .discard = some t) (hnet : s.net.only id ≠ .idle) :
    ∃ v, step u .discard = some v ∧ View id t v := by
  cases step_transition hstep with
  | @discarded i net =>
    by_cases hi : i = id
    · subst hi
      have hu : u.net = .discarding i := by simp [h.net, net, NetPc.only]
      exact ⟨{ u with table := u.table.erase i, net := .idle }, by simp [step, hu],
        { h with table := h.table_erased, net := rfl }⟩
    · exact absurd (by simp [net, NetPc.only, hi]) hnet
  | @discardedConnection conn net =>
    by_cases hconn : conn = id.1
    · have hu : u.net = .discardingConnection conn := by simp [h.net, net, NetPc.only, hconn]
      refine ⟨{ u with table := u.table.retain fun i => i.1 != conn, net := .idle }, by simp [step, hu], ?_⟩
      exact { h with
        table := fun i => by
          by_cases hi : i = id
          · simp [hi, hconn]
          · simp [hi, h.table]
        net := rfl }
    · exact absurd (by simp [net, NetPc.only, hconn]) hnet

theorem startJob (h : View id s u) {job : Nat} (hstep : step s (.startJob job id) = some t) :
    ∃ v, step u (.startJob job id) = some v ∧ View id t v := by
  cases step_transition hstep with
  | started hidle free =>
    refine ⟨_, guarded_eq_some_iff.mpr ⟨⟨h.idle hidle, by simp [h.jobs, free]⟩, rfl⟩, ?_⟩
    exact { h with
      jobs := fun i => by
        by_cases hi : i = job <;> simp [PMap.insert_apply, hi, h.jobs, Option.filter] }

omit [DecidableEq ω] in
theorem job (h : View id s u) {job : Nat} (hjob : s.jobs job = some id) : u.jobs job = some id := by
  simp [h.jobs, hjob]

theorem jobWrite (h : View id s u) {job : Nat} {f : Option ρ → Option ρ}
    (hstep : step s (.jobWrite job f) = some t) (hjob : s.jobs job = some id) :
    ∃ v, step u (.jobWrite job f) = some v ∧ View id t v := by
  cases step_transition hstep with
  | wrote held =>
    cases hjob.symm.trans held
    exact ⟨u.write id f, by simp [step, h.job hjob], h.write f⟩

theorem jobVerdict (h : View id s u) {job : Nat} {verdict : Verdict}
    (hstep : step s (.jobVerdict job verdict) = some t) (hjob : s.jobs job = some id) :
    ∃ v, step u (.jobVerdict job verdict) = some v ∧ View id t v := by
  cases step_transition hstep with
  | judged held =>
    cases hjob.symm.trans held
    refine ⟨{ u with jobs := u.jobs.erase job, verdicts := u.verdicts ++ [(id, verdict)] }, by
      simp [step, h.job hjob], ?_⟩
    exact { h with
      verdicts := by simp [h.verdicts]
      jobs := fun i => by by_cases hi : i = job <;> simp [PMap.erase_apply, hi, h.jobs] }

theorem receive (h : View id s u) (hstep : step s .receive = some t)
    (hhead : (s.verdicts.head?.map Prod.fst) = some id) :
    ∃ v, step u .receive = some v ∧ View id t v := by
  cases step_transition hstep with
  | @received i verdict rest slot free queued found =>
    obtain rfl : id = i := by simpa [queued, eq_comm] using hhead
    obtain ⟨born, hborn⟩ := h.signal_some found
    have hverdicts : u.verdicts = (id, verdict) :: rest.filter fun verdict => verdict.1 == id := by
      simp [h.verdicts, queued]
    refine ⟨{ State.record { u with verdicts := rest.filter fun verdict => verdict.1 == id }
        (.received id verdict) with
      signal := u.signal.insert id { ({ slot with born } : Slot) with disposition := verdict.disposition } },
      by simp [step, h.receiver, free, hverdicts, hborn, State.record], ?_⟩
    exact { h with
      signal := fun i => by by_cases hi : i = id <;> simp [PMap.insert_apply, hi, h.signal]
      verdicts := rfl
      log := log_kept h.log (by simp [Event.Concerns]) rfl }
  | @unknown i verdict rest free queued absent =>
    obtain rfl : id = i := by simpa [queued, eq_comm] using hhead
    have hverdicts : u.verdicts = (id, verdict) :: rest.filter fun verdict => verdict.1 == id := by
      simp [h.verdicts, queued]
    refine ⟨{ State.record { u with verdicts := rest.filter fun verdict => verdict.1 == id }
        (.received id verdict) with receiver := some id },
      by simp [step, h.receiver, free, hverdicts, h.signal_none absent, State.record], ?_⟩
    exact { h with
      verdicts := rfl
      receiver := by simp [Option.filter]
      log := log_kept h.log (by simp [Event.Concerns]) rfl }

theorem receiverDiscard (h : View id s u) (hstep : step s .receiverDiscard = some t)
    (hreceiver : s.receiver = some id) : ∃ v, step u .receiverDiscard = some v ∧ View id t v := by
  cases step_transition hstep with
  | receiverDiscarded receiver =>
    cases hreceiver.symm.trans receiver
    have hu : u.receiver = some id := by simp [h.receiver, hreceiver, Option.filter]
    exact ⟨{ u with table := u.table.erase id, receiver := none }, by simp [step, hu],
      { h with table := h.table_erased, receiver := rfl }⟩

theorem pick (h : View id s u) {w : ω} (hstep : step s (.pick w) = some t)
    (hhead : s.injections.head? = some id) : ∃ v, step u (.pick w) = some v ∧ View id t v := by
  cases step_transition hstep with
  | @picked _ i rest at_ queued =>
    obtain rfl : id = i := by simpa [queued, eq_comm] using hhead
    have hidle : u.workers w = .idle := by
      refine RegPc.eq_of_forget ?_ (by simp)
      rw [h.workers, at_]
      rfl
    have hinjections : u.injections = id :: rest.filter (· == id) := by simp [h.injections, queued]
    refine ⟨{ u with injections := rest.filter (· == id) }.setWorker w (.holding id), by
      simp [step, hidle, hinjections], ?_⟩
    exact { h with
      injections := rfl
      workers := workers_kept h.workers (by simp [RegPc.forget, RegPc.only, RegPc.request]) }

/-- The step of a worker with the request that changes nothing else. -/
theorem moved (h : View id s u) (w : ω) {pc pc' : RegPc} (hpc : pc'.forget = pc.only id) :
    View id (s.setWorker w pc) (u.setWorker w pc') :=
  { h with workers := workers_kept h.workers hpc }

theorem removeIf (h : View id s u) {w : ω} (hstep : step s (.removeIf w) = some t)
    (hw : s.workers w = .holding id) : ∃ v, step u (.removeIf w) = some v ∧ View id t v := by
  have hu : u.workers w = .holding id := h.worker hw rfl (by simp)
  cases hsignal : s.signal id with
  | none =>
    simp only [step, hw, hsignal, Option.some.injEq] at hstep
    subst hstep
    exact ⟨u.setWorker w (.missed id), by simp [step, hu, h.signal_none hsignal],
      h.moved w (by simp [RegPc.forget, RegPc.only, RegPc.request])⟩
  | some slot =>
    obtain ⟨disposition, born⟩ := slot
    obtain ⟨born', hborn⟩ := h.signal_some hsignal
    cases disposition with
    | pending =>
      simp only [step, hw, hsignal, Option.some.injEq] at hstep
      subst hstep
      exact ⟨u.setWorker w (.missed id), by simp [step, hu, hborn],
        h.moved w (by simp [RegPc.forget, RegPc.only, RegPc.request])⟩
    | ready =>
      simp only [step, hw, hsignal, Option.some.injEq] at hstep
      subst hstep
      refine ⟨({ u with signal := u.signal.erase id }.setWorker w
        (.taken id born' u.log.length)).record (.taken id born' w), by simp [step, hu, hborn], ?_⟩
      exact { h with
        signal := fun i => by
          by_cases hi : i = id <;> simp [State.record, State.setWorker, PMap.erase_apply, hi, h.signal]
        workers := workers_kept h.workers (by simp [RegPc.forget, RegPc.only, RegPc.request])
        log := log_kept h.log (by simp [Event.Concerns]) rfl }
    | rejected =>
      simp only [step, hw, hsignal, Option.some.injEq] at hstep
      subst hstep
      refine ⟨({ u with signal := u.signal.erase id }.setWorker w (.rejecting id)).record
        (.rejected id born'), by simp [step, hu, hborn], ?_⟩
      exact { h with
        signal := fun i => by
          by_cases hi : i = id <;> simp [State.record, State.setWorker, PMap.erase_apply, hi, h.signal]
        workers := workers_kept h.workers (by simp [RegPc.forget, RegPc.only, RegPc.request])
        log := log_kept h.log (by simp [Event.Concerns]) rfl }

theorem containsKey (h : View id s u) {w : ω} (hstep : step s (.containsKey w) = some t)
    (hw : s.workers w = .missed id) : ∃ v, step u (.containsKey w) = some v ∧ View id t v := by
  have hu : u.workers w = .missed id := h.worker hw rfl (by simp)
  cases hsignal : s.signal id with
  | none =>
    simp only [step, hw, hsignal, Option.some.injEq] at hstep
    subst hstep
    refine ⟨(u.setWorker w .idle).record (.dropped id), by simp [step, hu, h.signal_none hsignal], ?_⟩
    exact { h.moved w (show RegPc.idle.forget = RegPc.idle.only id from rfl) with
      log := log_kept h.log (by simp [Event.Concerns]) rfl }
  | some slot =>
    obtain ⟨born, hborn⟩ := h.signal_some hsignal
    simp only [step, hw, hsignal, Option.some.injEq] at hstep
    subst hstep
    exact ⟨u.setWorker w (.requeueing id), by simp [step, hu, hborn],
      h.moved w (by simp [RegPc.forget, RegPc.only, RegPc.request])⟩

theorem requeue (h : View id s u) {w : ω} (hstep : step s (.requeue w) = some t)
    (hw : s.workers w = .requeueing id) : ∃ v, step u (.requeue w) = some v ∧ View id t v := by
  have hu : u.workers w = .requeueing id := h.worker hw rfl (by simp)
  simp only [step, hw, Option.some.injEq] at hstep
  subst hstep
  refine ⟨{ u with injections := u.injections ++ [id] }.setWorker w .idle, by simp [step, hu], ?_⟩
  exact { h with
    injections := by simp [State.setWorker, h.injections]
    workers := workers_kept h.workers rfl }

theorem buildRouteEvent (h : View id s u) {w : ω} {take : ρ → ρ} {born taken : Nat}
    (hstep : step s (.buildRouteEvent w take) = some t) (hw : s.workers w = .taken id born taken) :
    ∃ v, step u (.buildRouteEvent w take) = some v ∧ View id t v := by
  obtain ⟨born', taken', hu⟩ : ∃ born' taken', u.workers w = .taken id born' taken' := by
    have hforget : (u.workers w).forget = (RegPc.taken id born taken).forget := by
      rw [h.workers, hw]
      exact if_pos rfl
    exact RegPc.taken_of_forget hforget
  cases htable : s.table id with
  | none =>
    simp only [step, hw, State.record, htable, Option.some.injEq] at hstep
    subst hstep
    refine ⟨(u.record (.prepared id born' taken')).setWorker w (.responding id), by
      simp [step, hu, State.record, h.table_self, htable], ?_⟩
    exact { h with
      workers := workers_kept h.workers (by simp [RegPc.forget, RegPc.only, RegPc.request])
      log := log_kept h.log (by simp [Event.Concerns]) rfl }
  | some record =>
    simp only [step, hw, State.record, htable, Option.some.injEq] at hstep
    subst hstep
    refine ⟨{ u.record (.prepared id born' taken') with
      table := u.table.insert id (take record) }.setWorker w (.cleaning id), by
      simp [step, hu, State.record, h.table_self, htable], ?_⟩
    exact { h with
      table := fun i => by by_cases hi : i = id <;> simp [State.setWorker, PMap.insert_apply, hi, h.table]
      workers := workers_kept h.workers (by simp [RegPc.forget, RegPc.only, RegPc.request])
      log := log_kept h.log (by simp [Event.Concerns]) rfl }

theorem cleanEntry (h : View id s u) {w : ω} (hstep : step s (.cleanEntry w) = some t)
    (hw : s.workers w = .cleaning id) : ∃ v, step u (.cleanEntry w) = some v ∧ View id t v := by
  have hu : u.workers w = .cleaning id := h.worker hw rfl (by simp)
  simp only [step, hw, Option.some.injEq] at hstep
  subst hstep
  exact ⟨{ u with table := u.table.erase id }.setWorker w (.responding id), by simp [step, hu],
    { h with
      table := h.table_erased
      workers := workers_kept h.workers (by simp [RegPc.forget, RegPc.only, RegPc.request]) }⟩

theorem endPreparation (h : View id s u) {w : ω} (hstep : step s (.endPreparation w) = some t)
    (hw : s.workers w = .responding id) : ∃ v, step u (.endPreparation w) = some v ∧ View id t v := by
  have hu : u.workers w = .responding id := h.worker hw rfl (by simp)
  simp only [step, hw, Option.some.injEq] at hstep
  subst hstep
  exact ⟨u.setWorker w .idle, by simp [step, hu], h.moved w rfl⟩

theorem discardRejected (h : View id s u) {w : ω} (hstep : step s (.discardRejected w) = some t)
    (hw : s.workers w = .rejecting id) : ∃ v, step u (.discardRejected w) = some v ∧ View id t v := by
  have hu : u.workers w = .rejecting id := h.worker hw rfl (by simp)
  simp only [step, hw, Option.some.injEq] at hstep
  subst hstep
  exact ⟨{ u with table := u.table.erase id }.setWorker w .idle, by simp [step, hu],
    { h with table := h.table_erased, workers := workers_kept h.workers rfl }⟩

/-- Every step that concerns the request is one of what it sees. -/
theorem kept (h : View id s u) (hstep : step s a = some t) (hkeep : a.Concerns id s = true) :
    ∃ v, step u a = some v ∧ View id t v := by
  cases a with
  | begin i =>
    obtain rfl : i = id := by simpa [Action.Concerns] using hkeep
    exact h.begin hstep
  | data i f =>
    obtain rfl : i = id := by simpa [Action.Concerns] using hkeep
    exact h.data hstep
  | finish i =>
    obtain rfl : i = id := by simpa [Action.Concerns] using hkeep
    exact h.finish hstep
  | cancelRequest i =>
    obtain rfl : i = id := by simpa [Action.Concerns] using hkeep
    exact h.cancelRequest hstep
  | cancelConnection conn =>
    obtain rfl : conn = id.1 := by simpa [Action.Concerns] using hkeep
    exact h.cancelConnection hstep
  | discard => exact h.discard hstep (by simpa [Action.Concerns] using hkeep)
  | startJob job i =>
    obtain rfl : i = id := by simpa [Action.Concerns] using hkeep
    exact h.startJob hstep
  | jobWrite job f => exact h.jobWrite hstep (by simpa [Action.Concerns] using hkeep)
  | jobVerdict job verdict => exact h.jobVerdict hstep (by simpa [Action.Concerns] using hkeep)
  | receive => exact h.receive hstep (by simpa [Action.Concerns] using hkeep)
  | receiverDiscard => exact h.receiverDiscard hstep (by simpa [Action.Concerns] using hkeep)
  | pick w => exact h.pick hstep (by simpa [Action.Concerns] using hkeep)
  | removeIf w =>
    have hw : (s.workers w).request = some id := by simpa [Action.Concerns] using hkeep
    cases hpc : s.workers w with
    | holding i =>
      cases (congrArg RegPc.request hpc).symm.trans hw
      exact h.removeIf hstep hpc
    | _ => simp [step, hpc] at hstep
  | containsKey w =>
    have hw : (s.workers w).request = some id := by simpa [Action.Concerns] using hkeep
    cases hpc : s.workers w with
    | missed i =>
      cases (congrArg RegPc.request hpc).symm.trans hw
      exact h.containsKey hstep hpc
    | _ => simp [step, hpc] at hstep
  | requeue w =>
    have hw : (s.workers w).request = some id := by simpa [Action.Concerns] using hkeep
    cases hpc : s.workers w with
    | requeueing i =>
      cases (congrArg RegPc.request hpc).symm.trans hw
      exact h.requeue hstep hpc
    | _ => simp [step, hpc] at hstep
  | buildRouteEvent w take =>
    have hw : (s.workers w).request = some id := by simpa [Action.Concerns] using hkeep
    cases hpc : s.workers w with
    | taken i born taken =>
      cases (congrArg RegPc.request hpc).symm.trans hw
      exact h.buildRouteEvent hstep hpc
    | _ => simp [step, hpc] at hstep
  | cleanEntry w =>
    have hw : (s.workers w).request = some id := by simpa [Action.Concerns] using hkeep
    cases hpc : s.workers w with
    | cleaning i =>
      cases (congrArg RegPc.request hpc).symm.trans hw
      exact h.cleanEntry hstep hpc
    | _ => simp [step, hpc] at hstep
  | endPreparation w =>
    have hw : (s.workers w).request = some id := by simpa [Action.Concerns] using hkeep
    cases hpc : s.workers w with
    | responding i =>
      cases (congrArg RegPc.request hpc).symm.trans hw
      exact h.endPreparation hstep hpc
    | _ => simp [step, hpc] at hstep
  | discardRejected w =>
    have hw : (s.workers w).request = some id := by simpa [Action.Concerns] using hkeep
    cases hpc : s.workers w with
    | rejecting i =>
      cases (congrArg RegPc.request hpc).symm.trans hw
      exact h.discardRejected hstep hpc
    | _ => simp [step, hpc] at hstep

/-! ## The steps of the others -/

omit [DecidableEq ω] in
/-- The record of another request changes. -/
theorem table_other (h : View id s u) {j : ReqId} (hj : j ≠ id) (x : Option ρ) (i : ReqId) :
    u.table i = if i = id then Function.update s.table j x i else none := by
  by_cases hi : i = id
  · subst hi
    rw [if_pos rfl, Function.update_of_ne (Ne.symm hj), h.table, if_pos rfl]
  · rw [if_neg hi, h.table, if_neg hi]

omit [DecidableEq ω] in
/-- The entry of another request changes. -/
theorem signal_other (h : View id s u) {j : ReqId} (hj : j ≠ id) (x : Option Slot) (i : ReqId) :
    (u.signal i).map Slot.disposition =
      if i = id then (Function.update s.signal j x i).map Slot.disposition else none := by
  by_cases hi : i = id
  · subst hi
    rw [if_pos rfl, Function.update_of_ne (Ne.symm hj), h.signal, if_pos rfl]
  · rw [if_neg hi, h.signal, if_neg hi]

/-- The step of a worker with another request. -/
theorem moved_other (h : View id s u) {w : ω} {pc : RegPc} (hold : (s.workers w).request ≠ some id)
    (hnew : pc.request ≠ some id) : View id (s.setWorker w pc) u :=
  { h with workers := workers_hidden h.workers hold hnew }

theorem hidden (h : View id s u) (hstep : step s a = some t) (hkeep : a.Concerns id s = false) :
    View id t u := by
  cases step_transition hstep with
  | @begun i =>
    have hi : i ≠ id := by simpa [Action.Concerns] using hkeep
    exact { h with begun := by simpa [hi, Ne.symm hi] using h.begun }
  | @created i =>
    have hi : i ≠ id := by simpa [Action.Concerns] using hkeep
    exact { h with
      signal := h.signal_other hi _
      begun := by simpa [State.record, hi, Ne.symm hi] using h.begun
      log := log_hidden h.log (by simp [Event.Concerns, hi]) }
  | @data i =>
    have hi : i ≠ id := by simpa [Action.Concerns] using hkeep
    exact { h with table := h.table_other hi _ }
  | @finished i =>
    have hi : i ≠ id := by simpa [Action.Concerns] using hkeep
    exact { h with
      injections := by simp [State.record, h.injections, hi]
      ended := by simpa [State.record, Ne.symm hi] using h.ended
      log := log_hidden h.log (by simp [Event.Concerns, hi]) }
  | @cancelled i idle =>
    have hi : i ≠ id := by simpa [Action.Concerns] using hkeep
    exact { h with
      signal := h.signal_other hi _
      net := by rw [h.net, idle]; simp [State.record, NetPc.only, hi]
      ended := by simpa [State.record, Ne.symm hi] using h.ended
      log := log_hidden h.log (by simp [Event.Concerns, hi]) }
  | @cancelledConnection conn idle =>
    have hconn : conn ≠ id.1 := by simpa [Action.Concerns] using hkeep
    exact { h with
      signal := fun i => by
        by_cases hi : i = id
        · simp [State.record, hi, h.signal, Ne.symm hconn]
        · simp [hi, h.signal]
      net := by rw [h.net, idle]; simp [State.record, NetPc.only, hconn]
      ended := by simp [State.record, beq_false_of_ne (Ne.symm hconn), h.ended]
      log := log_hidden h.log (by simp [Event.Concerns, hconn]) }
  | @discarded i net =>
    have hi : i ≠ id := by simpa [Action.Concerns, net, NetPc.only] using hkeep
    exact { h with
      table := h.table_other hi _
      net := by rw [h.net, net]; simp [NetPc.only, hi] }
  | @discardedConnection conn net =>
    have hconn : conn ≠ id.1 := by simpa [Action.Concerns, net, NetPc.only] using hkeep
    exact { h with
      table := fun i => by
        by_cases hi : i = id
        · simp [hi, h.table, Ne.symm hconn]
        · simp [hi, h.table]
      net := by rw [h.net, net]; simp [NetPc.only, hconn] }
  | @started job i idle free =>
    have hi : i ≠ id := by simpa [Action.Concerns] using hkeep
    exact { h with
      jobs := fun j => by
        by_cases hj : j = job
        · simp [hj, h.jobs, free, hi, Option.filter]
        · simp [PMap.insert_apply, hj, h.jobs] }
  | @wrote job i f held =>
    have hi : i ≠ id := by simpa [Action.Concerns, held] using hkeep
    exact { h with table := h.table_other hi _ }
  | @judged job i verdict held =>
    have hi : i ≠ id := by simpa [Action.Concerns, held] using hkeep
    exact { h with
      verdicts := by simp [h.verdicts, hi]
      jobs := fun j => by
        by_cases hj : j = job
        · simp [hj, h.jobs, held, hi, Option.filter]
        · simp [PMap.erase_apply, hj, h.jobs] }
  | @received i verdict rest slot free queued found =>
    have hi : i ≠ id := by simpa [Action.Concerns, queued] using hkeep
    exact { h with
      signal := h.signal_other hi _
      verdicts := by rw [h.verdicts, queued]; simp [State.record, hi]
      log := log_hidden h.log (by simp [Event.Concerns, hi]) }
  | @unknown i verdict rest free queued absent =>
    have hi : i ≠ id := by simpa [Action.Concerns, queued] using hkeep
    exact { h with
      verdicts := by rw [h.verdicts, queued]; simp [State.record, hi]
      receiver := by rw [h.receiver, free]; simp [Option.filter, hi]
      log := log_hidden h.log (by simp [Event.Concerns, hi]) }
  | @receiverDiscarded i receiver =>
    have hi : i ≠ id := by simpa [Action.Concerns, receiver] using hkeep
    exact { h with
      table := h.table_other hi _
      receiver := by rw [h.receiver, receiver]; simp [Option.filter, hi] }
  | @picked w i rest at_ queued =>
    have hi : i ≠ id := by simpa [Action.Concerns, queued] using hkeep
    exact { h with
      injections := by rw [h.injections, queued]; simp [State.setWorker, hi]
      workers := workers_hidden h.workers (by simp [at_, RegPc.request]) (by simpa [RegPc.request] using hi) }
  | @taken w i born at_ ready =>
    have hi : i ≠ id := by simpa [Action.Concerns, at_, RegPc.request] using hkeep
    exact { h with
      signal := h.signal_other hi _
      workers := workers_hidden h.workers (by simpa [at_, RegPc.request] using hi)
        (by simpa [RegPc.request] using hi)
      log := log_hidden h.log (by simp [Event.Concerns, hi]) }
  | @rejected w i born at_ rejected =>
    have hi : i ≠ id := by simpa [Action.Concerns, at_, RegPc.request] using hkeep
    exact { h with
      signal := h.signal_other hi _
      workers := workers_hidden h.workers (by simpa [at_, RegPc.request] using hi)
        (by simpa [RegPc.request] using hi)
      log := log_hidden h.log (by simp [Event.Concerns, hi]) }
  | @missed w i at_ | @retried w i at_ =>
    have hi : i ≠ id := by simpa [Action.Concerns, at_, RegPc.request] using hkeep
    exact h.moved_other (by simpa [at_, RegPc.request] using hi) (by simpa [RegPc.request] using hi)
  | @dropped w i at_ absent =>
    have hi : i ≠ id := by simpa [Action.Concerns, at_, RegPc.request] using hkeep
    exact { h with
      workers := workers_hidden h.workers (by simpa [at_, RegPc.request] using hi) (by simp [RegPc.request])
      log := log_hidden h.log (by simp [Event.Concerns, hi]) }
  | @requeued w i at_ =>
    have hi : i ≠ id := by simpa [Action.Concerns, at_, RegPc.request] using hkeep
    exact { h with
      injections := by simp [State.setWorker, h.injections, hi]
      workers := workers_hidden h.workers (by simpa [at_, RegPc.request] using hi) (by simp [RegPc.request]) }
  | @prepared w i born taken record take at_ found =>
    have hi : i ≠ id := by simpa [Action.Concerns, at_, RegPc.request] using hkeep
    exact { h with
      table := h.table_other hi _
      workers := workers_hidden h.workers (by simpa [at_, RegPc.request] using hi)
        (by simpa [RegPc.request] using hi)
      log := log_hidden h.log (by simp [Event.Concerns, hi]) }
  | @preparedEmpty w i born taken take at_ absent =>
    have hi : i ≠ id := by simpa [Action.Concerns, at_, RegPc.request] using hkeep
    exact { h with
      workers := workers_hidden h.workers (by simpa [at_, RegPc.request] using hi)
        (by simpa [RegPc.request] using hi)
      log := log_hidden h.log (by simp [Event.Concerns, hi]) }
  | @cleaned w i at_ =>
    have hi : i ≠ id := by simpa [Action.Concerns, at_, RegPc.request] using hkeep
    exact { h with
      table := h.table_other hi _
      workers := workers_hidden h.workers (by simpa [at_, RegPc.request] using hi)
        (by simpa [RegPc.request] using hi) }
  | @ended w i at_ =>
    have hi : i ≠ id := by simpa [Action.Concerns, at_, RegPc.request] using hkeep
    exact h.moved_other (by simpa [at_, RegPc.request] using hi) (by simp [RegPc.request])
  | @discardedRejected w i at_ =>
    have hi : i ≠ id := by simpa [Action.Concerns, at_, RegPc.request] using hkeep
    exact { h with
      table := h.table_other hi _
      workers := workers_hidden h.workers (by simpa [at_, RegPc.request] using hi) (by simp [RegPc.request]) }

end View

theorem projects (id : ReqId) :
    Projects (step (ρ := ρ) (ω := ω)) step (fun s a => a.Concerns id s) (View id) where
  kept _ _ _ _ h hstep hkeep := h.kept hstep hkeep
  hidden _ _ _ _ h hstep hkeep := h.hidden hstep hkeep

/-- What becomes of a request in a run is what becomes of it if the steps that concern
it are the only ones. -/
theorem request_alone {run : List (Action ρ ω)} (hrun : exec step {} run = some s) (id : ReqId) :
    ∃ u, exec step {} (Exec.kept step (fun s a => a.Concerns id s) {} run) = some u ∧ View id s u :=
  (projects id).run (view_init id) hrun

end View

/-- Two requests that take turns: one is served, the other rejected. -/
def interleaved : List (Action Nat Unit) :=
  [.begin ("c", 0), .begin ("d", 0), .startJob 0 ("c", 0), .startJob 1 ("d", 0), .jobVerdict 1 .rejected,
    .data ("c", 0) fun _ => some 1, .jobVerdict 0 .ready, .receive, .receive, .finish ("d", 0),
    .finish ("c", 0), .pick (), .removeIf (), .discardRejected (), .pick (), .removeIf (),
    .buildRouteEvent () id, .cleanEntry (), .endPreparation ()]

/-- The steps of the one that is served. -/
def servedAlone : List (Action Nat Unit) :=
  [.begin ("c", 0), .startJob 0 ("c", 0), .data ("c", 0) fun _ => some 1, .jobVerdict 0 .ready, .receive,
    .finish ("c", 0), .pick (), .removeIf (), .buildRouteEvent () id, .cleanEntry (), .endPreparation ()]

theorem request_alone_interleaved : ∃ s u, exec step {} interleaved = some s ∧
    exec step {} servedAlone = some u ∧ View ("c", 0) s u := by
  have hrun : exec step {} interleaved = some _ := rfl
  obtain ⟨u, hu, hview⟩ := request_alone hrun ("c", 0)
  exact ⟨_, u, hrun, hu, hview⟩

end FacesHttp3.Dispatch
