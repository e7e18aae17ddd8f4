import FacesHttp3.Chunks.Registration

/-! # What happens to the messages of a stream

A message is lost in two ways, both with a channel that was replaced: it was waiting in
that channel, or it was sent there before the receivers were dropped. Everything else
keeps the account of the messages. -/

namespace FacesHttp3.Registration
open FacesHttp3.Lib FacesHttp3.Lib.Exec FacesHttp3.Chunks

/-! ## Channels and references -/

section Invariant
variable {τ μ : Type} [DecidableEq τ] {s u : State τ μ} {t : τ}

/-- A referenced entry stays in the map, and what is dropped is not in it. -/
structure Inv (s : State τ μ) : Prop where
  alive : ∀ number, s.entry = some number → (s.channels number).isSome
  fresh : ∀ number, s.entry = some number → number < s.next
  held : ∀ t number, (s.threads t).holds = some number → s.entry = some number ∧ t ∈ s.readers
  replaced : ∀ t number, s.threads t = .replacing number → s.entry ≠ some number ∧ number < s.next

omit [DecidableEq τ] in
theorem inv_start : Inv ({} : State τ μ) := by
  constructor
  · intro number h
    cases h
  · intro number h
    cases h
  · intro t number h
    cases h
  · intro t number h
    cases h

/-- One thread goes on in its call, and holds nothing but the entry that is in the map. -/
theorem Inv.moved (h : Inv s)
    (hshared : u.entry = s.entry ∧ u.channels = s.channels ∧ u.next = s.next)
    (hthreads : ∀ other, other ≠ t → u.threads other = s.threads other)
    (hreaders : ∀ other, other ≠ t → other ∈ s.readers → other ∈ u.readers)
    (hholds : ∀ number, (u.threads t).holds = some number → s.entry = some number ∧ t ∈ u.readers)
    (hreplacing : ∀ number, u.threads t ≠ .replacing number) : Inv u := by
  obtain ⟨hentry, hchannels, hnext⟩ := hshared
  constructor
  · rw [hentry, hchannels]
    exact h.alive
  · rw [hentry, hnext]
    exact h.fresh
  · intro other number hother
    rw [hentry]
    by_cases hsame : other = t
    · subst hsame
      exact hholds number hother
    · rw [hthreads other hsame] at hother
      obtain ⟨hfound, hmem⟩ := h.held other number hother
      exact ⟨hfound, hreaders other hsame hmem⟩
  · intro other number hother
    rw [hentry, hnext]
    by_cases hsame : other = t
    · subst hsame
      exact absurd hother (hreplacing number)
    · exact h.replaced other number (hthreads other hsame ▸ hother)

theorem Inv.become (h : Inv s) {thread : Thread μ}
    (hholds : ∀ number, thread.holds = some number → s.entry = some number ∧ t ∈ s.readers)
    (hreplacing : ∀ number, thread ≠ .replacing number) : Inv (s.become t thread) := by
  have hself : (s.become t thread).threads t = thread := Function.update_self _ _ _
  refine h.moved ⟨rfl, rfl, rfl⟩ (fun other hne => Function.update_of_ne hne _ _)
    (fun _ _ hmem => hmem) ?_ ?_
  · rw [hself]
    exact hholds
  · rw [hself]
    exact hreplacing

theorem Inv.hold (h : Inv s) {thread : Thread μ} {number : Nat} (hentry : s.entry = some number)
    (hholds : thread.holds = some number) : Inv (s.hold t thread) := by
  have hself : (s.hold t thread).threads t = thread := Function.update_self _ _ _
  refine h.moved ⟨rfl, rfl, rfl⟩ (fun other hne => Function.update_of_ne hne _ _)
    (fun _ _ hmem => List.mem_cons_of_mem _ hmem) ?_ ?_
  · intro found hfound
    rw [hself] at hfound
    exact ⟨hentry.trans (hholds.symm.trans hfound), List.mem_cons_self⟩
  · intro found hfound
    rw [hself] at hfound
    rw [hfound] at hholds
    cases hholds

theorem Inv.release (h : Inv s) : Inv (s.release t) := by
  have hself : (s.release t).threads t = .idle := Function.update_self _ _ _
  refine h.moved ⟨rfl, rfl, rfl⟩ (fun other hne => Function.update_of_ne hne _ _) ?_ ?_ ?_
  · intro other hne hmem
    exact List.mem_filter.mpr ⟨hmem, decide_eq_true hne⟩
  · intro number hnumber
    rw [hself] at hnumber
    cases hnumber
  · intro number hnumber
    cases hself.symm.trans hnumber

/-- Messages come and go, the channels stay. -/
structure SameChannels (s u : State τ μ) : Prop where
  entry : u.entry = s.entry
  next : u.next = s.next
  threads : u.threads = s.threads
  readers : u.readers = s.readers
  channels : ∀ number, (u.channels number).isSome = (s.channels number).isSome

omit [DecidableEq τ] in
theorem Inv.of_sameChannels (h : Inv s) (same : SameChannels s u) : Inv u := by
  obtain ⟨hentry, hnext, hthreads, hreaders, hchannels⟩ := same
  constructor
  · intro number hnumber
    rw [hchannels]
    exact h.alive number (hentry ▸ hnumber)
  · intro number hnumber
    rw [hnext]
    exact h.fresh number (hentry ▸ hnumber)
  · rw [hthreads, hentry, hreaders]
    exact h.held
  · rw [hthreads, hentry, hnext]
    exact h.replaced

omit [DecidableEq τ] in
theorem sameChannels_put (s : State τ μ) (number : Nat) (priority : Priority) (msg : Message τ μ) :
    SameChannels s (s.put number priority msg) := by
  unfold State.put
  split
  · rename_i channel hchannel
    refine ⟨rfl, rfl, rfl, rfl, ?_⟩
    intro other
    by_cases hsame : other = number
    · subst hsame
      simp [hchannel]
    · dsimp only
      rw [PMap.insert_of_ne _ _ hsame]
  · exact ⟨rfl, rfl, rfl, rfl, fun _ => rfl⟩

omit [DecidableEq τ] in
/-- A receive takes the first message of the queue. -/
theorem take_eq_some {number : Nat} {priority : Priority} (h : s.take number priority = some u) :
    ∃ channel msg queue, s.channels number = some channel ∧
      (queueOf channel priority).tryRecv = some (msg, queue) ∧
      u = { s with
        channels := s.channels.insert number (setQueue channel queue priority)
        popped := s.popped ++ [(priority, msg)] } := by
  unfold State.take at h
  obtain ⟨channel, hchannel, h⟩ := Option.bind_eq_some_iff.mp h
  obtain ⟨⟨msg, queue⟩, hrecv, h⟩ := Option.bind_eq_some_iff.mp h
  exact ⟨channel, msg, queue, hchannel, hrecv, (Option.some.inj h).symm⟩

omit [DecidableEq τ] in
theorem sameChannels_take {number : Nat} {priority : Priority}
    (h : s.take number priority = some u) : SameChannels s u := by
  obtain ⟨channel, msg, queue, hchannel, hrecv, rfl⟩ := take_eq_some h
  refine ⟨rfl, rfl, rfl, rfl, ?_⟩
  intro other
  by_cases hsame : other = number
  · subst hsame
    simp [hchannel]
  · dsimp only
    rw [PMap.insert_of_ne _ _ hsame]

/-- An insertion that has no reader to wait for. -/
theorem Inv.register (h : Inv s) (hunread : s.readers = []) {thread : Thread μ}
    (hholds : thread.holds = none)
    (hreplacing : ∀ number, thread = .replacing number → number < s.next) :
    Inv (s.register.become t thread) := by
  constructor
  · intro number hnumber
    cases hnumber
    simp [State.register, State.become]
  · intro number hnumber
    cases hnumber
    exact Nat.lt_succ_self s.next
  · intro other number hother
    by_cases hsame : other = t
    · subst hsame
      simp [State.register, State.become, hholds] at hother
    · obtain ⟨-, hmem⟩ :=
        h.held other number (by simpa [State.register, State.become, hsame] using hother)
      rw [hunread] at hmem
      cases hmem
  · intro other number hother
    have hlt : number < s.next := by
      by_cases hsame : other = t
      · subst hsame
        exact hreplacing number (by simpa [State.register, State.become] using hother)
      · exact (h.replaced other number
          (by simpa [State.register, State.become, hsame] using hother)).2
    refine ⟨?_, Nat.lt_succ_of_lt hlt⟩
    intro heq
    cases heq
    exact Nat.lt_irrefl _ hlt

theorem Inv.step {a : Action τ μ} (h : Inv s) (hstep : step s a = some u) : Inv u := by
  obtain ⟨t, call⟩ := a
  cases step_cases hstep with
  | returns => exact h
  | absent => exact h.become (fun number hnumber => nomatch hnumber) (fun number => by simp)
  | found => exact h.become (fun number hnumber => nomatch hnumber) (fun number => by simp)
  | absentAgain => exact h.become (fun number hnumber => nomatch hnumber) (fun number => by simp)
  | inserts _ hunread => exact h.register hunread rfl (fun number hnumber => nomatch hnumber)
  | @replaces old _ hunread htaken =>
    refine h.register hunread rfl ?_
    intro number hnumber
    cases hnumber
    exact h.fresh old htaken
  | @drops old hreplacing =>
    have hold := (h.replaced t old hreplacing).1
    have herased : Inv { s with channels := s.channels.erase old } := by
      refine ⟨?_, h.fresh, h.held, h.replaced⟩
      intro number hnumber
      have hne : number ≠ old := fun heq => hold (heq ▸ hnumber)
      dsimp only
      rw [PMap.erase_of_ne _ hne]
      exact h.alive number hnumber
    exact herased.become (fun number hnumber => nomatch hnumber) (fun number => by simp)
  | handsOut => exact ⟨h.alive, h.fresh, h.held, h.replaced⟩
  | sendsLow => exact h.of_sameChannels (sameChannels_put s _ _ _)
  | holdsToSend _ htaken => exact h.hold htaken rfl
  | sendsHigh => exact (h.of_sameChannels (sameChannels_put s _ _ _)).release
  | holdsToPop _ htaken => exact h.hold htaken rfl
  | popsHigh _ hreceived => exact (h.of_sameChannels (sameChannels_take hreceived)).release
  | highEmpty hpopping =>
    refine h.become ?_ (fun number => by simp)
    intro number hnumber
    exact h.held t number (by rw [hpopping]; exact hnumber)
  | popsLow _ hreceived => exact (h.of_sameChannels (sameChannels_take hreceived)).release
  | lowEmpty => exact h.release

end Invariant

/-! ## The account of the messages -/

section Account
variable {τ μ : Type}

/-- The messages of a log with a priority. -/
def on (priority : Priority) (log : List (Priority × Message τ μ)) : List (Message τ μ) :=
  (log.filter fun event => decide (event.1 = priority)).map (·.2)

theorem on_append (priority : Priority) (log log' : List (Priority × Message τ μ)) :
    on priority (log ++ log') = on priority log ++ on priority log' := by
  simp [on]

def State.sentOn (s : State τ μ) (priority : Priority) : List (Message τ μ) := on priority s.sent

def State.poppedFrom (s : State τ μ) (priority : Priority) : List (Message τ μ) :=
  on priority s.popped

/-- Every message sent with success has been popped once or waits in the queues of the
map, and those of one sender keep their order. -/
structure Kept [DecidableEq τ] (s : State τ μ) : Prop where
  once : ∀ priority, (s.sentOn priority).Perm (s.poppedFrom priority ++ s.queued priority)
  inOrder : ∀ priority sender,
    (s.sentOn priority).filter (fun msg => decide (msg.sender = sender)) =
      (s.poppedFrom priority).filter (fun msg => decide (msg.sender = sender)) ++
        (s.queued priority).filter (fun msg => decide (msg.sender = sender))

/-- What was sent is what was popped and then what is queued. -/
def Accounted (s : State τ μ) : Prop :=
  ∀ priority, s.sentOn priority = s.poppedFrom priority ++ s.queued priority

def Counted (s : State τ μ) : Prop := ∀ priority,
  (s.sentOn priority).length = (s.poppedFrom priority).length + (s.queued priority).length

theorem Accounted.kept [DecidableEq τ] {s : State τ μ} (h : Accounted s) : Kept s := by
  constructor
  · intro priority
    exact .of_eq (h priority)
  · intro priority sender
    rw [h priority, List.filter_append]

theorem Kept.counted [DecidableEq τ] {s : State τ μ} (h : Kept s) : Counted s := by
  intro priority
  rw [(h.once priority).length_eq, List.length_append]

/-- A channel is inserted while no message waits, and a sender whose channel has left
the map is used only after its receivers are gone. -/
def Harmless (s : State τ μ) (action : Action τ μ) : Prop :=
  match action.call with
  | .insert => s.queued .low = [] ∧ s.queued .high = []
  | .sendLow number _ => (s.channels number).isSome → s.entry = some number
  | _ => True

instance Harmless.decidable (s : State τ μ) (action : Action τ μ) :
    Decidable (Harmless s action) := by
  unfold Harmless
  split <;> infer_instance

end Account

/-! ## One step -/

section Traffic
variable {τ μ : Type} {s u : State τ μ} {number : Nat} {priority : Priority} {msg : Message τ μ}

theorem queued_of_entry {channel : Channel (Message τ μ)} (hentry : s.entry = some number)
    (hchannel : s.channels number = some channel) (q : Priority) :
    s.queued q = (queueOf channel q).messages := by
  rw [State.queued, hentry, Option.bind_some, hchannel]

/-- A channel that is not in the map can change and go. -/
theorem queued_of_others (hentry : u.entry = s.entry) (hne : s.entry ≠ some number)
    (hothers : ∀ other, other ≠ number → u.channels other = s.channels other) (q : Priority) :
    u.queued q = s.queued q := by
  have hbind : u.entry.bind u.channels = s.entry.bind s.channels := by
    rw [hentry]
    cases hother : s.entry with
    | none => rfl
    | some other => exact hothers other fun heq => hne (heq ▸ hother)
  rw [State.queued, State.queued, hbind]

theorem popped_put (s : State τ μ) (number : Nat) (priority : Priority) (msg : Message τ μ) :
    (s.put number priority msg).popped = s.popped := by
  unfold State.put
  split <;> rfl

theorem queueOf_sendTo (channel : Channel (Message τ μ)) (q : Priority) :
    (queueOf (sendTo channel msg priority) q).messages =
      (queueOf channel q).messages ++ on q [(priority, msg)] := by
  cases priority <;> cases q <;>
    simp [sendTo, queueOf, Channel.perform, Queue.send, Queue.sendBare, on]

theorem queueOf_tryRecv {channel : Channel (Message τ μ)} {queue : Queue (Message τ μ)}
    (h : (queueOf channel priority).tryRecv = some (msg, queue)) (q : Priority) :
    (queueOf channel q).messages =
      on q [(priority, msg)] ++ (queueOf (setQueue channel queue priority) q).messages := by
  have hmessages := (Queue.tryRecv_eq_some h).1
  cases priority <;> cases q <;> simp [queueOf, setQueue, on] at hmessages ⊢ <;> exact hmessages

theorem queued_put (hentry : s.entry = some number) (halive : (s.channels number).isSome)
    (q : Priority) :
    (s.put number priority msg).queued q = s.queued q ++ on q [(priority, msg)] := by
  obtain ⟨channel, hchannel⟩ := Option.isSome_iff_exists.mp halive
  rw [queued_of_entry hentry hchannel, ← queueOf_sendTo, State.put, hchannel]
  exact queued_of_entry (by exact hentry) (PMap.insert_self _ _ _) q

theorem queued_put_of_ne (hentry : s.entry ≠ some number) (q : Priority) :
    (s.put number priority msg).queued q = s.queued q := by
  unfold State.put
  split
  · refine queued_of_others ?_ hentry ?_ q
    · rfl
    · intro other hother
      exact PMap.insert_of_ne _ _ hother
  · rfl

theorem take_traffic (hentry : s.entry = some number) (h : s.take number priority = some u) :
    ∃ msg, u.sent = s.sent ∧ u.popped = s.popped ++ [(priority, msg)] ∧
      ∀ q, s.queued q = on q [(priority, msg)] ++ u.queued q := by
  obtain ⟨channel, msg, queue, hchannel, hrecv, rfl⟩ := take_eq_some h
  refine ⟨msg, rfl, rfl, ?_⟩
  intro q
  rw [queued_of_entry hentry hchannel, queueOf_tryRecv hrecv]
  congr 1
  exact (queued_of_entry (by exact hentry) (PMap.insert_self _ _ _) q).symm

theorem queued_of_take_eq_none (hentry : s.entry = some number)
    (halive : (s.channels number).isSome) (h : s.take number priority = none) :
    s.queued priority = [] := by
  obtain ⟨channel, hchannel⟩ := Option.isSome_iff_exists.mp halive
  rw [queued_of_entry hentry hchannel, ← Queue.tryRecv_eq_none]
  cases hrecv : (queueOf channel priority).tryRecv with
  | none => rfl
  | some received =>
    simp [State.take, hchannel, hrecv] at h

theorem queued_register (s : State τ μ) (q : Priority) : s.register.queued q = [] := by
  rw [queued_of_entry rfl (PMap.insert_self _ _ _)]
  cases q <;> rfl

/-- What a step does to the messages of the stream. -/
inductive Traffic (s : State τ μ) (action : Action τ μ) (u : State τ μ) : Prop
  | quiet (harmless : Harmless s action) (sent : u.sent = s.sent) (popped : u.popped = s.popped)
      (queued : ∀ q, u.queued q = s.queued q)
  | inserts (insert : action.call = .insert) (sent : u.sent = s.sent)
      (popped : u.popped = s.popped) (queued : ∀ q, u.queued q = [])
  | enqueues (priority : Priority) (msg : Message τ μ) (harmless : Harmless s action)
      (sent : u.sent = s.sent ++ [(priority, msg)]) (popped : u.popped = s.popped)
      (queued : ∀ q, u.queued q = s.queued q ++ on q [(priority, msg)])
  | strays (msg : Message τ μ) (harmful : ¬ Harmless s action)
      (sent : u.sent = s.sent ++ [(.low, msg)]) (popped : u.popped = s.popped)
      (queued : ∀ q, u.queued q = s.queued q)
  | dequeues (priority : Priority) (msg : Message τ μ) (harmless : Harmless s action)
      (sent : u.sent = s.sent) (popped : u.popped = s.popped ++ [(priority, msg)])
      (queued : ∀ q, s.queued q = on q [(priority, msg)] ++ u.queued q)

variable [DecidableEq τ]

theorem step_traffic {a : Action τ μ} (inv : Inv s) (hstep : step s a = some u) :
    Traffic s a u := by
  obtain ⟨t, call⟩ := a
  cases step_cases hstep with
  | returns hidle hnothing hother =>
    refine .quiet ?_ rfl rfl (fun _ => rfl)
    unfold Harmless
    split
    · rename_i hcall
      exact absurd hcall hother
    · rename_i number msg hcall
      exact absurd hcall (hnothing number msg)
    · trivial
  | absent => exact .quiet trivial rfl rfl (fun _ => rfl)
  | found => exact .quiet trivial rfl rfl (fun _ => rfl)
  | absentAgain => exact .quiet trivial rfl rfl (fun _ => rfl)
  | inserts => exact .inserts rfl rfl rfl (queued_register s)
  | replaces => exact .inserts rfl rfl rfl (queued_register s)
  | @drops old hreplacing =>
    have hold := (inv.replaced t old hreplacing).1
    exact .quiet trivial rfl rfl
      (queued_of_others rfl hold fun other hother => PMap.erase_of_ne _ hother)
  | handsOut => exact .quiet trivial rfl rfl (fun _ => rfl)
  | @sendsLow number msg =>
    cases hchannel : s.channels number with
    | none =>
      have hsame : s.put number .low ⟨t, msg⟩ = s := by rw [State.put, hchannel]
      rw [hsame]
      exact .quiet (fun halive => by simp [hchannel] at halive) rfl rfl (fun _ => rfl)
    | some channel =>
      have hsent : (s.put number .low ⟨t, msg⟩).sent = s.sent ++ [(.low, ⟨t, msg⟩)] := by
        rw [State.put, hchannel]
      have hpopped : (s.put number .low ⟨t, msg⟩).popped = s.popped := by
        rw [State.put, hchannel]
      have halive : (s.channels number).isSome := by simp [hchannel]
      by_cases hentry : s.entry = some number
      · exact .enqueues .low ⟨t, msg⟩ (fun _ => hentry) hsent hpopped (queued_put hentry halive)
      · exact .strays ⟨t, msg⟩ (fun h => hentry (h halive)) hsent hpopped (queued_put_of_ne hentry)
  | holdsToSend => exact .quiet trivial rfl rfl (fun _ => rfl)
  | @sendsHigh number msg hsending =>
    obtain ⟨hentry, -⟩ := inv.held t number (by rw [hsending]; rfl)
    have halive := inv.alive number hentry
    obtain ⟨channel, hchannel⟩ := Option.isSome_iff_exists.mp halive
    refine .enqueues .high ⟨t, msg⟩ trivial ?_ ?_ (queued_put hentry halive)
    · show (s.put number .high ⟨t, msg⟩).sent = _
      rw [State.put, hchannel]
    · show (s.put number .high ⟨t, msg⟩).popped = _
      rw [State.put, hchannel]
  | holdsToPop => exact .quiet trivial rfl rfl (fun _ => rfl)
  | @popsHigh number v hpopping hreceived =>
    obtain ⟨hentry, -⟩ := inv.held t number (by rw [hpopping]; rfl)
    obtain ⟨msg, hsent, hpopped, hqueued⟩ := take_traffic hentry hreceived
    exact .dequeues .high msg trivial hsent hpopped hqueued
  | highEmpty => exact .quiet trivial rfl rfl (fun _ => rfl)
  | @popsLow number v hpopping hreceived =>
    obtain ⟨hentry, -⟩ := inv.held t number (by rw [hpopping]; rfl)
    obtain ⟨msg, hsent, hpopped, hqueued⟩ := take_traffic hentry hreceived
    exact .dequeues .low msg trivial hsent hpopped hqueued
  | lowEmpty => exact .quiet trivial rfl rfl (fun _ => rfl)

theorem Accounted.step {a : Action τ μ} (h : Accounted s) (inv : Inv s) (harmless : Harmless s a)
    (hstep : step s a = some u) : Accounted u := by
  intro q
  have hq := h q
  unfold State.sentOn State.poppedFrom at hq ⊢
  cases step_traffic inv hstep with
  | quiet _ hsent hpopped hqueued => rw [hsent, hpopped, hqueued, hq]
  | inserts hinsert hsent hpopped hqueued =>
    have hempty : s.queued q = [] := by
      unfold Harmless at harmless
      rw [hinsert] at harmless
      cases q
      · exact harmless.1
      · exact harmless.2
    rw [hsent, hpopped, hqueued, hq, hempty]
  | enqueues priority msg _ hsent hpopped hqueued =>
    rw [hsent, hpopped, hqueued, on_append, hq, List.append_assoc]
  | strays _ harmful => exact absurd harmless harmful
  | dequeues priority msg _ hsent hpopped hqueued =>
    rw [hsent, hpopped, hq, hqueued, on_append, List.append_assoc]

/-- A step that does harm leaves a message out of the account. -/
theorem harmless_of_counted {a : Action τ μ} (inv : Inv s) (h : Counted s)
    (hstep : step s a = some u) (h' : Counted u) : Harmless s a := by
  unfold Counted State.sentOn State.poppedFrom at h h'
  cases step_traffic inv hstep with
  | quiet harmless => exact harmless
  | inserts hinsert hsent hpopped hqueued =>
    have hempty (q : Priority) : s.queued q = [] := by
      have hbefore := h q
      have hafter := h' q
      rw [hsent, hpopped, hqueued] at hafter
      exact List.length_eq_zero_iff.mp (by simp only [List.length_nil] at hafter; omega)
    unfold Harmless
    rw [hinsert]
    exact ⟨hempty .low, hempty .high⟩
  | enqueues _ _ harmless => exact harmless
  | strays msg _ hsent hpopped hqueued =>
    have hbefore := h .low
    have hafter := h' .low
    rw [hsent, hpopped, hqueued, on_append, List.length_append] at hafter
    have hone : (on .low [(Priority.low, msg)]).length = 1 := rfl
    omega
  | dequeues _ _ harmless => exact harmless

end Traffic

end FacesHttp3.Registration
