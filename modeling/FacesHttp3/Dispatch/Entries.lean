import FacesHttp3.Dispatch.Transitions

/-! # Entries of the disposition table

`Effect` says once what a step can do to the entries and the log; `EntryInv` is
the invariant read off it. -/

namespace FacesHttp3.Dispatch
open FacesHttp3.Lib FacesHttp3.Lib.Exec FacesHttp3.Lib.History FacesHttp3.Request

variable {ρ ω : Type} [DecidableEq ω]

/-! ## What a step does to the entries -/

/-- The event ends the entry of `id`. -/
def Event.Removes (id : ReqId) : Event ω → Prop
  | .taken i _ _ => i = id
  | .rejected i _ => i = id
  | .cancelled i => i = id
  | .cancelledConnection conn => conn = id.1
  | _ => False

/-- The event cancels `id`, alone or with its connection. -/
def Event.Cancels (id : ReqId) : Event ω → Prop
  | .cancelled i => i = id
  | .cancelledConnection conn => conn = id.1
  | _ => False

omit [DecidableEq ω] in
theorem Event.Cancels.removes {id : ReqId} {e : Event ω} (h : e.Cancels id) : e.Removes id := by
  cases e <;> first | exact h | exact h.elim

/-- No worker begins to hold a consumed entry. -/
def NoNewTake (s t : State ρ ω) : Prop :=
  ∀ w id born at_, t.workers w = .taken id born at_ → s.workers w = .taken id born at_

omit [DecidableEq ω] in
theorem NoNewTake.refl (s : State ρ ω) : NoNewTake s s := fun _ _ _ _ => id

theorem noNewTake_setWorker {s t : State ρ ω} {w : ω} {pc : RegPc} (ht : t.workers = s.workers)
    (hpc : ∀ id born at_, pc ≠ .taken id born at_) : NoNewTake s (t.setWorker w pc) := by
  intro v id born at_ hv
  rw [setWorker_workers] at hv
  split at hv
  · exact absurd hv (hpc id born at_)
  · rwa [ht] at hv

/-- What a step does to the disposition table, to the workers that hold a
consumed entry, and to the log. -/
inductive Effect (s t : State ρ ω) : Prop
  | quiet (signal : t.signal = s.signal) (log : t.log = s.log) (takes : NoNewTake s t)
  | created (id : ReqId) (absent : s.signal id = none)
      (signal : t.signal = s.signal.insert id ⟨.pending, s.log.length⟩)
      (log : t.log = s.log ++ [.created id]) (takes : NoNewTake s t)
  | received (id : ReqId) (verdict : Verdict)
      (signal : ∀ i, t.signal i = if i = id
        then (s.signal i).map fun slot => { slot with disposition := verdict.disposition }
        else s.signal i)
      (log : t.log = s.log ++ [.received id verdict]) (takes : NoNewTake s t)
  | taken (w : ω) (id : ReqId) (born : Nat) (entry : s.signal id = some ⟨.ready, born⟩)
      (signal : t.signal = s.signal.erase id) (log : t.log = s.log ++ [.taken id born w])
      (workers : ∀ v, t.workers v = if v = w then .taken id born s.log.length else s.workers v)
  | removed (e : Event ω) (signal : ∀ i, (e.Removes i ∧ t.signal i = none) ∨
        (¬ e.Removes i ∧ t.signal i = s.signal i))
      (log : t.log = s.log ++ [e]) (takes : NoNewTake s t)
      (kind : (∃ id born, e = .rejected id born) ∨ (∃ id, e = .cancelled id) ∨
        ∃ conn, e = .cancelledConnection conn)
  | prepared (w : ω) (id : ReqId) (born at_ : Nat) (holder : s.workers w = .taken id born at_)
      (signal : t.signal = s.signal) (log : t.log = s.log ++ [.prepared id born at_])
      (takes : NoNewTake s t) (released : ∀ i b q, t.workers w ≠ .taken i b q)
  | dropped (id : ReqId) (absent : s.signal id = none) (signal : t.signal = s.signal)
      (log : t.log = s.log ++ [.dropped id]) (takes : NoNewTake s t)
  | injected (id : ReqId) (signal : t.signal = s.signal)
      (log : t.log = s.log ++ [.injected id]) (takes : NoNewTake s t)
      (queued : id ∈ t.injections)

theorem step_effect {s t : State ρ ω} {a : Action ρ ω} (h : step s a = some t) : Effect s t := by
  cases step_transition h with
  | begun | data | discarded | discardedConnection | started | wrote | judged | receiverDiscarded =>
    exact .quiet rfl rfl (.refl s)
  | created _ absent => exact .created _ absent rfl rfl (.refl s)
  | finished => exact .injected _ rfl rfl (.refl s) (List.mem_append_right _ List.mem_cons_self)
  | @cancelled id =>
    refine .removed (.cancelled id) (fun i => ?_) rfl (.refl s) (.inr (.inl ⟨id, rfl⟩))
    by_cases hi : id = i
    · subst hi
      exact .inl ⟨rfl, PMap.erase_self s.signal id⟩
    · exact .inr ⟨hi, PMap.erase_of_ne _ (Ne.symm hi)⟩
  | @cancelledConnection conn =>
    refine .removed (.cancelledConnection conn) (fun i => ?_) rfl (.refl s)
      (.inr (.inr ⟨conn, rfl⟩))
    by_cases hi : conn = i.1
    · exact .inl ⟨hi, by simp [State.record, hi]⟩
    · exact .inr ⟨hi, by simp [State.record, Ne.symm hi]⟩
  | @received id verdict _ _ _ _ found =>
    refine .received id verdict (fun i => ?_) rfl (.refl s)
    simp only [PMap.insert_apply]
    split
    · subst i
      simp [found]
    · rfl
  | @unknown id verdict _ _ _ absent =>
    refine .received id verdict (fun i => ?_) rfl (.refl s)
    split
    · subst i
      simp [State.record, absent]
    · rfl
  | @rejected w id born at_ =>
    refine .removed (.rejected id born) (fun i => ?_) rfl (noNewTake_setWorker rfl (by simp))
      (.inl ⟨id, born, rfl⟩)
    by_cases hi : id = i
    · subst hi
      exact .inl ⟨rfl, PMap.erase_self s.signal id⟩
    · exact .inr ⟨hi, PMap.erase_of_ne _ (Ne.symm hi)⟩
  | taken _ ready => exact .taken _ _ _ ready rfl rfl fun v => setWorker_workers _ _ v _
  | picked | missed | retried | requeued | cleaned | ended | discardedRejected =>
    exact .quiet rfl rfl (noNewTake_setWorker rfl (by simp))
  | dropped _ absent => exact .dropped _ absent rfl rfl (noNewTake_setWorker rfl (by simp))
  | prepared at_ | preparedEmpty at_ =>
    refine .prepared _ _ _ _ at_ rfl rfl (noNewTake_setWorker rfl (by simp)) ?_
    intro i b q
    rw [setWorker_workers]
    simp

/-- The log grows by `e`; what that means for the entries and for the workers
that hold one. -/
structure Grows (s t : State ρ ω) (e : Event ω) : Prop where
  log : t.log = s.log ++ [e]
  slot : ∀ i slot', t.signal i = some slot' →
    (e = .created i ∧ slot'.born = s.log.length ∧ slot'.disposition = .pending) ∨
    ∃ slot, s.signal i = some slot ∧ slot'.born = slot.born ∧ ¬ e.Removes i ∧
      (slot'.disposition = .ready → slot.disposition = .ready ∨ e = .received i .ready)
  absent : ∀ i, t.signal i = none → e.Removes i ∨ (s.signal i = none ∧ e ≠ .created i)
  taken : ∀ i b w, e = .taken i b w → s.signal i = some ⟨.ready, b⟩
  holder : ∀ v i b q, t.workers v = .taken i b q →
    s.workers v = .taken i b q ∨ (e = .taken i b v ∧ q = s.log.length)
  prepared : ∀ i b q, e = .prepared i b q → ∃ w, s.workers w = .taken i b q ∧
    ∀ j c r, t.workers w ≠ .taken j c r
  dropped : ∀ i, e = .dropped i → s.signal i = none
  injected : ∀ i, e = .injected i → i ∈ t.injections

omit [DecidableEq ω] in
/-- A step that leaves the entries alone and logs something else. -/
theorem grows_of_same {s t : State ρ ω} {e : Event ω} (signal : t.signal = s.signal)
    (log : t.log = s.log ++ [e]) (takes : NoNewTake s t) (hr : ∀ i, ¬ e.Removes i)
    (hc : ∀ i, e ≠ .created i)
    (hp : ∀ i b q, e = .prepared i b q → ∃ w, s.workers w = .taken i b q ∧
      ∀ j c r, t.workers w ≠ .taken j c r)
    (hd : ∀ i, e = .dropped i → s.signal i = none)
    (hq : ∀ i, e = .injected i → i ∈ t.injections) : Grows s t e where
  log := log
  slot i slot hs := .inr ⟨slot, by rw [← signal]; exact hs, rfl, hr i, .inl⟩
  absent i hs := .inr ⟨by rw [← signal]; exact hs, hc i⟩
  taken i b w he := absurd (he ▸ rfl : e.Removes i) (hr i)
  holder v i b q hv := .inl (takes v i b q hv)
  prepared := hp
  dropped := hd
  injected := hq

theorem Effect.grows {s t : State ρ ω} (h : Effect s t) :
    (t.signal = s.signal ∧ t.log = s.log ∧ NoNewTake s t) ∨ ∃ e, Grows s t e := by
  cases h with
  | quiet signal log takes => exact .inl ⟨signal, log, takes⟩
  | created id absent signal log takes =>
    refine .inr ⟨_, log, fun i slot hs => ?_, fun i hs => ?_, by simp, fun v i b q hv =>
      .inl (takes v i b q hv), by simp, by simp, by simp⟩
    · rw [signal, PMap.insert_apply] at hs
      split at hs
      · subst i
        cases hs
        exact .inl ⟨rfl, rfl, rfl⟩
      · exact .inr ⟨slot, hs, rfl, not_false, .inl⟩
    · rw [signal, PMap.insert_apply] at hs
      split at hs
      · cases hs
      · rename_i hi
        exact .inr ⟨hs, by simp [Ne.symm hi]⟩
  | received id verdict signal log takes =>
    refine .inr ⟨_, log, fun i slot hs => ?_, fun i hs => ?_, by simp, fun v i b q hv =>
      .inl (takes v i b q hv), by simp, by simp, by simp⟩
    · rw [signal] at hs
      split at hs
      · subst i
        obtain ⟨old, hold, rfl⟩ := Option.map_eq_some_iff.mp hs
        refine .inr ⟨old, hold, rfl, not_false, fun hd => .inr ?_⟩
        cases verdict with
        | ready => rfl
        | rejected => cases hd
      · exact .inr ⟨slot, hs, rfl, not_false, .inl⟩
    · rw [signal] at hs
      split at hs
      · exact .inr ⟨by simpa using hs, by simp⟩
      · exact .inr ⟨hs, by simp⟩
  | taken w id born entry signal log workers =>
    refine .inr ⟨_, log, fun i slot hs => ?_, fun i hs => ?_, fun i b v he => ?_,
      fun v i b q hv => ?_, by simp, by simp, by simp⟩
    · rw [signal, PMap.erase_apply] at hs
      split at hs
      · cases hs
      · rename_i hi
        exact .inr ⟨slot, hs, rfl, Ne.symm hi, .inl⟩
    · rw [signal, PMap.erase_apply] at hs
      split at hs
      · rename_i hi
        exact .inl hi.symm
      · exact .inr ⟨hs, by simp⟩
    · cases he
      exact entry
    · rw [workers] at hv
      split at hv
      · subst v
        cases hv
        exact .inr ⟨rfl, rfl⟩
      · exact .inl hv
  | removed e signal log takes kind =>
    refine .inr ⟨e, log, fun i slot hs => ?_, fun i hs => ?_, ?_, fun v i b q hv =>
      .inl (takes v i b q hv), ?_, ?_, ?_⟩
    · rcases signal i with ⟨-, hn⟩ | ⟨hr, hsame⟩
      · rw [hn] at hs
        cases hs
      · exact .inr ⟨slot, by rw [← hsame]; exact hs, rfl, hr, .inl⟩
    · rcases signal i with ⟨hr, -⟩ | ⟨-, hsame⟩
      · exact .inl hr
      · refine .inr ⟨by rw [← hsame]; exact hs, ?_⟩
        rcases kind with ⟨_, _, rfl⟩ | ⟨_, rfl⟩ | ⟨_, rfl⟩ <;> simp
    all_goals rcases kind with ⟨_, _, rfl⟩ | ⟨_, rfl⟩ | ⟨_, rfl⟩ <;> simp
  | prepared w id born at_ holder signal log takes released =>
    refine .inr ⟨_, grows_of_same signal log takes (fun _ => not_false) (by simp) ?_
      (by simp) (by simp)⟩
    intro i b q he
    cases he
    exact ⟨w, holder, released⟩
  | dropped id absent signal log takes =>
    refine .inr ⟨_, grows_of_same signal log takes (fun _ => not_false) (by simp)
      (by simp) ?_ (by simp)⟩
    intro i he
    cases he
    exact absent
  | injected id signal log takes queued =>
    refine .inr ⟨_, grows_of_same signal log takes (fun _ => not_false) (by simp)
      (by simp) (by simp) ?_⟩
    intro i he
    cases he
    exact queued

/-! ## The entries and the log -/

/-- What the log says of the entries: an entry stands where it was created and
nothing removed it since, a ready one has received its verdict, and whoever
consumed one did so once. -/
structure EntryInv (s : State ρ ω) : Prop where
  slot_created : ∀ id slot, s.signal id = some slot → At s.log slot.born (.created id)
  slot_clear : ∀ id slot, s.signal id = some slot →
    ClearAfter s.log slot.born (Event.Removes id)
  slot_ready : ∀ id slot, s.signal id = some slot → slot.disposition = .ready →
    SeenAfter s.log slot.born (· = .received id .ready)
  absent_removed : ∀ id b, s.signal id = none → At s.log b (.created id) →
    SeenAfter s.log b (Event.Removes id)
  taken_created : ∀ q id b w, At s.log q (.taken id b w) → b < q ∧ At s.log b (.created id)
  taken_ready : ∀ q id b w, At s.log q (.taken id b w) →
    ∃ p, b < p ∧ p < q ∧ At s.log p (.received id .ready)
  taken_clear : ∀ q id b w p e, At s.log q (.taken id b w) → At s.log p e → b < p → p < q →
    ¬ e.Removes id
  holding : ∀ w id b q, s.workers w = .taken id b q → At s.log q (.taken id b w) ∧
    ∀ p i c, ¬ At s.log p (.prepared i c q)
  prepared_taken : ∀ p id b q, At s.log p (.prepared id b q) → q < p ∧
    ∃ w, At s.log q (.taken id b w)
  prepared_once : ∀ p p' id b id' b' q, At s.log p (.prepared id b q) →
    At s.log p' (.prepared id' b' q) → p = p'
  dropped_absent : ∀ p id b, At s.log p (.dropped id) → At s.log b (.created id) → b < p →
    ∃ q e, b < q ∧ q < p ∧ At s.log q e ∧ e.Removes id

omit [DecidableEq ω] in
theorem entryInv_init : EntryInv ({} : State ρ ω) := by
  constructor <;> simp [At, PMap.empty]

omit [DecidableEq ω] in
theorem EntryInv.quiet {s t : State ρ ω} (h : EntryInv s) (signal : t.signal = s.signal)
    (log : t.log = s.log) (takes : NoNewTake s t) : EntryInv t := by
  constructor
  case holding => exact fun w id b q hw => log ▸ h.holding w id b q (takes w id b q hw)
  case slot_created => simpa only [signal, log] using h.slot_created
  case slot_clear => simpa only [signal, log] using h.slot_clear
  case slot_ready => simpa only [signal, log] using h.slot_ready
  case absent_removed => simpa only [signal, log] using h.absent_removed
  case taken_created => simpa only [log] using h.taken_created
  case taken_ready => simpa only [log] using h.taken_ready
  case taken_clear => simpa only [log] using h.taken_clear
  case prepared_taken => simpa only [log] using h.prepared_taken
  case prepared_once => simpa only [log] using h.prepared_once
  case dropped_absent => simpa only [log] using h.dropped_absent

omit [DecidableEq ω] in
theorem EntryInv.grows {s t : State ρ ω} {e : Event ω} (h : EntryInv s) (g : Grows s t e) :
    EntryInv t := by
  constructor
  case slot_created =>
    intro id slot hs
    rw [g.log]
    rcases g.slot id slot hs with ⟨rfl, hb, -⟩ | ⟨old, hold, hb, -, -⟩
    · rw [hb]; exact at_length
    · rw [hb]; exact (h.slot_created id old hold).snoc
  case slot_clear =>
    intro id slot hs
    rw [g.log]
    rcases g.slot id slot hs with ⟨-, hb, -⟩ | ⟨old, hold, hb, hr, -⟩
    · rw [hb]; exact clearAfter_length
    · rw [hb]; exact (h.slot_clear id old hold).snoc hr
  case slot_ready =>
    intro id slot hs hd
    rw [g.log]
    rcases g.slot id slot hs with ⟨-, -, hp⟩ | ⟨old, hold, hb, -, hready⟩
    · rw [hp] at hd; cases hd
    rw [hb]
    rcases hready hd with hold' | he
    · exact (h.slot_ready id old hold hold').snoc
    · exact seenAfter_snoc_self (h.slot_created id old hold).lt he
  case absent_removed =>
    intro id b hs hb
    rw [g.log] at hb ⊢
    rcases at_snoc_iff.mp hb with hb | ⟨-, rfl⟩
    · rcases g.absent id hs with hr | ⟨hs, -⟩
      · exact seenAfter_snoc_self hb.lt hr
      · exact (h.absent_removed id b hs hb).snoc
    · rcases g.absent id hs with hr | ⟨-, hne⟩
      · exact hr.elim
      · exact absurd rfl hne
  case taken_created =>
    intro q id b w hq
    rw [g.log] at hq ⊢
    rcases at_snoc_iff.mp hq with hq | ⟨rfl, he⟩
    · exact ⟨(h.taken_created q id b w hq).1, (h.taken_created q id b w hq).2.snoc⟩
    · have hb := h.slot_created id _ (g.taken id b w he.symm)
      exact ⟨hb.lt, hb.snoc⟩
  case taken_ready =>
    intro q id b w hq
    rw [g.log] at hq ⊢
    rcases at_snoc_iff.mp hq with hq | ⟨rfl, he⟩
    · obtain ⟨p, hbp, hpq, hp⟩ := h.taken_ready q id b w hq
      exact ⟨p, hbp, hpq, hp.snoc⟩
    · obtain ⟨p, f, hp, hbp, rfl⟩ := h.slot_ready id _ (g.taken id b w he.symm) rfl
      exact ⟨p, hbp, hp.lt, hp.snoc⟩
  case taken_clear =>
    intro q id b w p f hq hp hbp hpq
    rw [g.log] at hq hp
    have hplt : p < s.log.length := by
      rcases at_snoc_iff.mp hq with hq | ⟨rfl, -⟩
      · exact Nat.lt_trans hpq hq.lt
      · exact hpq
    have hp : At s.log p f := by
      rcases at_snoc_iff.mp hp with hp | ⟨rfl, -⟩
      · exact hp
      · exact absurd hplt (Nat.lt_irrefl _)
    rcases at_snoc_iff.mp hq with hq | ⟨rfl, he⟩
    · exact h.taken_clear q id b w p f hq hp hbp hpq
    · exact h.slot_clear id _ (g.taken id b w he.symm) p f hp hbp
  case holding =>
    intro v id b q hv
    rw [g.log]
    rcases g.holder v id b q hv with hold | ⟨rfl, rfl⟩
    · obtain ⟨hq, hnone⟩ := h.holding v id b q hold
      refine ⟨hq.snoc, fun p i c hp => ?_⟩
      rcases at_snoc_iff.mp hp with hp | ⟨-, he⟩
      · exact hnone p i c hp
      · -- the worker that logs the preparation releases its entry with it
        obtain ⟨w, hw, hreleased⟩ := g.prepared i c q he.symm
        cases hq.unique (h.holding w i c q hw).1
        exact hreleased id b q hv
    · refine ⟨at_length, fun p i c hp => ?_⟩
      rcases at_snoc_iff.mp hp with hp | ⟨-, he⟩
      · exact absurd (Nat.lt_trans hp.lt (h.prepared_taken p i c _ hp).1) (Nat.lt_irrefl _)
      · cases he
  case prepared_taken =>
    intro p id b q hp
    rw [g.log] at hp ⊢
    rcases at_snoc_iff.mp hp with hp | ⟨rfl, he⟩
    · obtain ⟨hq, w, hw⟩ := h.prepared_taken p id b q hp
      exact ⟨hq, w, hw.snoc⟩
    · obtain ⟨w, hw, -⟩ := g.prepared id b q he.symm
      have hq := (h.holding w id b q hw).1
      exact ⟨hq.lt, w, hq.snoc⟩
  case prepared_once =>
    intro p p' id b id' b' q hp hp'
    rw [g.log] at hp hp'
    have hfresh : ∀ p i c j d, At s.log p (.prepared i c q) → e = .prepared j d q → False := by
      intro p i c j d hp he
      obtain ⟨w, hw, -⟩ := g.prepared j d q he
      exact (h.holding w j d q hw).2 p i c hp
    rcases at_snoc_iff.mp hp with hp | ⟨rfl, he⟩ <;>
      rcases at_snoc_iff.mp hp' with hp' | ⟨rfl, he'⟩
    · exact h.prepared_once p p' id b id' b' q hp hp'
    · exact (hfresh p id b id' b' hp he'.symm).elim
    · exact (hfresh p' id' b' id b hp' he.symm).elim
    · rfl
  case dropped_absent =>
    intro p id b hp hb hbp
    rw [g.log] at hp hb ⊢
    have hb : At s.log b (.created id) := by
      rcases at_snoc_iff.mp hb with hb | ⟨rfl, -⟩
      · exact hb
      · rcases at_snoc_iff.mp hp with hp | ⟨rfl, -⟩
        · exact absurd (Nat.lt_trans hbp hp.lt) (Nat.lt_irrefl _)
        · exact absurd hbp (Nat.lt_irrefl _)
    rcases at_snoc_iff.mp hp with hp | ⟨rfl, he⟩
    · obtain ⟨q, f, hbq, hqp, hq, hr⟩ := h.dropped_absent p id b hp hb hbp
      exact ⟨q, f, hbq, hqp, hq.snoc, hr⟩
    · obtain ⟨q, f, hq, hbq, hr⟩ := h.absent_removed id b (g.dropped id he.symm) hb
      exact ⟨q, f, hbq, hq.lt, hq.snoc, hr⟩

theorem entryInv_step {s t : State ρ ω} {a : Action ρ ω} (h : EntryInv s)
    (hstep : step s a = some t) : EntryInv t := by
  rcases (step_effect hstep).grows with ⟨signal, log, takes⟩ | ⟨e, g⟩
  · exact h.quiet signal log takes
  · exact h.grows g

theorem entryInv_run {s : State ρ ω} {as : List (Action ρ ω)} (run : exec step {} as = some s) :
    EntryInv s :=
  exec_invariant entryInv_init (fun _ _ _ => entryInv_step) run

omit [DecidableEq ω] in
/-- An entry is consumed once. -/
theorem EntryInv.taken_once {s : State ρ ω} (h : EntryInv s) {q q' b : Nat} {id : ReqId}
    {w w' : ω} (hq : At s.log q (.taken id b w)) (hq' : At s.log q' (.taken id b w')) : q = q' := by
  rcases Nat.lt_trichotomy q q' with hlt | heq | hlt
  · exact absurd rfl (h.taken_clear q' id b w' q _ hq' hq (h.taken_created q id b w hq).1 hlt)
  · exact heq
  · exact absurd rfl (h.taken_clear q id b w q' _ hq hq' (h.taken_created q' id b w' hq').1 hlt)

end FacesHttp3.Dispatch
