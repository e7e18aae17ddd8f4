import FacesHttp3.Chunks.Worker
import FacesHttp3.Lib.Fairness

/-! # No body starves

However many bodies there are, and however many come in, a body whose queue is not found
occupied is cut to its end: the worker puts newcomers behind it, and a body that has to
wait only takes its turn. -/

namespace FacesHttp3.Chunks.Worker
open FacesHttp3.Lib FacesHttp3.Lib.Exec FacesHttp3.Request
open FacesHttp3.SendLoop (QueuedRequest BodyRequest)

/-! ## What was cut -/

def State.chunksOf (s : State) (key : Key) : List BodyRequest :=
  (s.chunks.filter fun chunk => decide (chunk.1 = key)).map Prod.snd

def bytes (chunks : List BodyRequest) : Nat := (chunks.flatMap BodyRequest.packet).length

/-- The n-th chunk is the n-th read. -/
def InOrder (reads : Nat → Option Bytes) (chunks : List BodyRequest) : Prop :=
  ∀ n chunk, chunks[n]? = some chunk → chunk.packetId = n ∧ reads n = some chunk.packet

/-- A body that is being cut. -/
structure Begun (reads : Nat → Option Bytes) (body : ChunkableBody) (chunks : List BodyRequest) : Prop where
  inOrder : InOrder reads chunks
  packetId : body.packetId = chunks.length
  written : body.bytesWritten = bytes chunks
  unflagged : ∀ chunk ∈ chunks, chunk.isEnd = false
  delivers : Station.Delivers reads body.bodyLen body.packetId body.bytesWritten

/-- A body of which everything was cut. -/
structure Complete (reads : Nat → Option Bytes) (bodyLen : Nat) (chunks : List BodyRequest) : Prop where
  inOrder : InOrder reads chunks
  whole : bytes chunks = bodyLen
  flagged : ∃ front last, chunks = front ++ [last] ∧ last.isEnd = true ∧
    ∀ chunk ∈ front, chunk.isEnd = false

section Chunks
variable {reads : Nat → Option Bytes} {body : ChunkableBody} {chunks : List BodyRequest} {packet : Bytes}

theorem begun_new {bodyLen : Nat} (h : Station.Delivers reads bodyLen 0 0) :
    Begun reads { bodyLen } [] := by
  refine ⟨fun n chunk hchunk => ?_, rfl, rfl, fun chunk hmem => absurd hmem List.not_mem_nil, h⟩
  rw [List.getElem?_nil] at hchunk
  cases hchunk

theorem Begun.inOrder_read (h : Begun reads body chunks) (read : reads body.packetId = some packet)
    (isEnd : Bool) : InOrder reads (chunks ++ [⟨body.packetId, packet, isEnd⟩]) := by
  intro n chunk hchunk
  rcases Nat.lt_or_ge n chunks.length with hlt | hge
  · exact h.inOrder n chunk (by rwa [List.getElem?_append_left hlt] at hchunk)
  · rw [List.getElem?_append_right hge, List.getElem?_singleton] at hchunk
    split at hchunk
    · obtain rfl := Option.some.inj hchunk
      have hn : body.packetId = n := by
        have := h.packetId
        omega
      exact ⟨hn, hn ▸ read⟩
    · cases hchunk

theorem bytes_snoc (chunk : BodyRequest) :
    bytes (chunks ++ [chunk]) = bytes chunks + chunk.packet.length := by
  simp [bytes]

/-- A read in the middle of the body. -/
theorem Begun.read (h : Begun reads body chunks) (read : reads body.packetId = some packet)
    (more : packet.length + body.bytesWritten ≠ body.bodyLen) :
    Begun reads ⟨body.bodyLen, body.packetId + 1, body.bytesWritten + packet.length⟩
      (chunks ++ [⟨body.packetId, packet, false⟩]) := by
  obtain ⟨-, -, hdelivers⟩ := h.delivers.next read more
  refine ⟨h.inOrder_read read false, ?_, ?_, ?_, hdelivers⟩
  · simp [h.packetId]
  · rw [bytes_snoc, h.written]
  · intro chunk hmem
    rcases List.mem_append.mp hmem with hold | hnew
    · exact h.unflagged chunk hold
    · rw [List.mem_singleton.mp hnew]

theorem Begun.complete (h : Begun reads body chunks) (read : reads body.packetId = some packet)
    (whole : packet.length + body.bytesWritten = body.bodyLen) :
    Complete reads body.bodyLen (chunks ++ [⟨body.packetId, packet, true⟩]) := by
  refine ⟨h.inOrder_read read true, ?_, chunks, _, rfl, rfl, h.unflagged⟩
  rw [bytes_snoc, ← h.written, Nat.add_comm]
  exact whole

end Chunks

/-- What holds of the bodies whose readers deliver as much as was announced. -/
structure CutInv (reads : Key → Nat → Option Bytes) (s : State) : Prop where
  numbered : Numbered s
  given : ∀ job ∈ s.jobs, s.given job.key = some job.body.bodyLen
  fresh : ∀ key, s.given key = none → s.chunksOf key = []
  begun : ∀ job ∈ s.jobs, Station.Delivers (reads job.key) job.body.bodyLen 0 0 →
    Begun (reads job.key) job.body (s.chunksOf job.key)
  complete : ∀ key bodyLen, s.given key = some bodyLen → key ∉ s.line →
    Station.Delivers (reads key) bodyLen 0 0 → Complete (reads key) bodyLen (s.chunksOf key)

section Steps
variable {reads : Key → Nat → Option Bytes} {s t : State} {a : Action} {key : Key}

theorem chunksOf_snoc {chunk : BodyRequest} (h : t.chunks = s.chunks ++ [(key, chunk)]) (other : Key) :
    t.chunksOf other = s.chunksOf other ++ if key = other then [chunk] else [] := by
  by_cases hkey : key = other <;> simp [State.chunksOf, h, hkey]

theorem bytes_chunksOf_snoc (chunk : BodyRequest) (h : t.chunks = s.chunks ++ [(key, chunk)]) :
    bytes (t.chunksOf key) = bytes (s.chunksOf key) + chunk.packet.length := by
  rw [chunksOf_snoc h, if_pos rfl, bytes_snoc]

/-- Where the bodies and the chunks are the same, so is all of this. -/
theorem CutInv.transfer (h : CutInv reads s) (hnumbered : Numbered t)
    (hjobs : ∀ job, job ∈ t.jobs ↔ job ∈ s.jobs) (hgiven : t.given = s.given)
    (hchunks : t.chunks = s.chunks) : CutInv reads t := by
  have hsame : ∀ key, t.chunksOf key = s.chunksOf key := by simp [State.chunksOf, hchunks]
  refine ⟨hnumbered, fun job hjob => ?_, fun key hkey => ?_, fun job hjob hdelivers => ?_,
    fun key bodyLen hkey hgone hdelivers => ?_⟩
  · rw [hgiven]
    exact h.given job ((hjobs job).mp hjob)
  · rw [hsame]
    exact h.fresh key (hgiven ▸ hkey)
  · rw [hsame]
    exact h.begun job ((hjobs job).mp hjob) hdelivers
  · rw [hsame]
    refine h.complete key bodyLen (hgiven ▸ hkey) (fun hline => hgone ?_) hdelivers
    obtain ⟨job, hjob, hkey⟩ := mem_line.mp hline
    exact mem_line.mpr ⟨job, (hjobs job).mpr hjob, hkey⟩

theorem cutInv_given {sender bodyLen : Nat} (h : CutInv reads s) (fresh : s.given key = none)
    (hnumbered : Numbered { s with
      station := s.station ++ [⟨key, sender, { bodyLen }⟩]
      given := s.given.insert key bodyLen }) : CutInv reads { s with
      station := s.station ++ [⟨key, sender, { bodyLen }⟩]
      given := s.given.insert key bodyLen } := by
  have hmem : ∀ job, job ∈ s.jobs ∨ job = ⟨key, sender, { bodyLen }⟩ ↔
      job ∈ (s.station ++ [⟨key, sender, { bodyLen }⟩]) ++ s.pc.job?.toList := by
    intro job
    simp only [State.jobs, List.mem_append, List.mem_singleton]
    tauto
  refine ⟨hnumbered, fun job hjob => ?_, fun other hother => ?_, fun job hjob hdelivers => ?_,
    fun other len hother hgone hdelivers => ?_⟩
  · rcases (hmem job).mpr hjob with hold | rfl
    · have hlen := h.given job hold
      exact (PMap.insert_of_ne _ _ fun heq => by rw [heq, fresh] at hlen; cases hlen).trans hlen
    · exact PMap.insert_self _ _ _
  · by_cases heq : other = key
    · subst heq
      exact h.fresh other fresh
    · exact h.fresh other ((PMap.insert_of_ne _ _ heq).symm.trans hother)
  · rcases (hmem job).mpr hjob with hold | rfl
    · exact h.begun job hold hdelivers
    · have hnone : s.chunksOf key = [] := h.fresh key fresh
      show Begun (reads key) { bodyLen } (s.chunksOf key)
      rw [hnone]
      exact begun_new hdelivers
  · have hne : other ≠ key := by
      rintro rfl
      exact hgone (mem_line.mpr ⟨_, (hmem _).mp (.inr rfl), rfl⟩)
    refine h.complete other len ((PMap.insert_of_ne _ _ hne).symm.trans hother) (fun hline => hgone ?_)
      hdelivers
    obtain ⟨job, hjob, hkey⟩ := mem_line.mp hline
    exact mem_line.mpr ⟨job, (hmem job).mp (.inl hjob), hkey⟩

/-- The body that the worker holds is not in the station. -/
theorem Numbered.apart (h : Numbered s) {job : Job} (held : s.pc.job? = some job) :
    ∀ other ∈ s.station, other.key ≠ job.key := by
  intro other hother heq
  have hnodup : (s.station.map Job.key ++ [job.key]).Nodup := by
    simpa [State.line, State.jobs, held] using h.nodup
  exact List.disjoint_of_nodup_append hnodup (List.mem_map.mpr ⟨other, hother, rfl⟩)
    (by simp [heq])

/-- A chunk was cut from the body that the worker held; `next` is what is left of it. -/
theorem cutInv_queued (h : CutInv reads s) (hnumbered : Numbered t) {job : Job}
    (held : s.pc.job? = some job) {chunk : BodyRequest} (next : Option ChunkableBody)
    (hgiven : t.given = s.given)
    (hchunks : t.chunks = s.chunks ++ [(job.key, chunk)])
    (hjobs : t.jobs = s.station ++ (next.map fun body => { job with body }).toList)
    (hlen : ∀ body, next = some body → body.bodyLen = job.body.bodyLen)
    (hnext : ∀ body, next = some body → Begun (reads job.key) job.body (s.chunksOf job.key) →
      Begun (reads job.key) body (s.chunksOf job.key ++ [chunk]))
    (hend : next = none → Begun (reads job.key) job.body (s.chunksOf job.key) →
      Complete (reads job.key) job.body.bodyLen (s.chunksOf job.key ++ [chunk])) : CutInv reads t := by
  have hjob : job ∈ s.jobs := by simp [State.jobs, held]
  have hself : t.chunksOf job.key = s.chunksOf job.key ++ [chunk] := by
    rw [chunksOf_snoc hchunks, if_pos rfl]
  have hother : ∀ key, job.key ≠ key → t.chunksOf key = s.chunksOf key := by
    intro key hne
    rw [chunksOf_snoc hchunks, if_neg hne, List.append_nil]
  have hcases : ∀ other ∈ t.jobs, other ∈ s.station ∨
      ∃ body, next = some body ∧ other = { job with body } := by
    intro other hmem
    rw [hjobs, List.mem_append] at hmem
    rcases hmem with hstation | hleft
    · exact .inl hstation
    · obtain ⟨body, hbody, rfl⟩ := Option.map_eq_some_iff.mp (Option.mem_toList.mp hleft)
      exact .inr ⟨body, hbody, rfl⟩
  have hstation : ∀ other ∈ s.station, other ∈ s.jobs := fun other hmem => List.mem_append_left _ hmem
  refine ⟨hnumbered, fun other hmem => ?_, fun key hkey => ?_, fun other hmem hdelivers => ?_,
    fun key len hkey hgone hdelivers => ?_⟩
  · rw [hgiven]
    rcases hcases other hmem with hold | ⟨body, hbody, rfl⟩
    · exact h.given other (hstation other hold)
    · rw [hlen body hbody]
      exact h.given job hjob
  · rw [hgiven] at hkey
    have hne : job.key ≠ key := by
      rintro rfl
      cases (h.given job hjob).symm.trans hkey
    rw [hother key hne]
    exact h.fresh key hkey
  · rcases hcases other hmem with hold | ⟨body, hbody, rfl⟩
    · rw [hother _ (h.numbered.apart held other hold).symm]
      exact h.begun other (hstation other hold) hdelivers
    · rw [hself]
      exact hnext body hbody (h.begun job hjob (by rwa [hlen body hbody] at hdelivers))
  · rw [hgiven] at hkey
    rw [State.line, hjobs, List.map_append, List.mem_append, not_or] at hgone
    by_cases heq : job.key = key
    · subst heq
      obtain rfl := Option.some.inj ((h.given job hjob).symm.trans hkey)
      rw [hself]
      refine hend (Option.eq_none_iff_forall_ne_some.mpr fun body hbody => ?_) (h.begun job hjob hdelivers)
      exact hgone.2 (by simp [hbody])
    · rw [hother key heq]
      refine h.complete key len hkey (fun hline => ?_) hdelivers
      simp only [State.line, State.jobs, held, Option.toList_some, List.map_append, List.map_cons,
        List.map_nil, List.mem_append, List.mem_singleton] at hline
      exact hline.elim hgone.1 (Ne.symm heq)

theorem cutInv_cut (h : CutInv reads s) (hnumbered : Numbered t) {job : Job} (at_ : s.pc = .reading job)
    (cut : Cut reads s job t) : CutInv reads t := by
  have held : s.pc.job? = some job := by rw [at_]; rfl
  cases cut with
  | dropped read =>
    have hjobs : State.jobs { s with pc := .idle } = s.station := by simp [State.jobs, Pc.job?]
    have hstation : ∀ other ∈ s.station, other ∈ s.jobs := fun other hmem => List.mem_append_left _ hmem
    refine ⟨hnumbered, fun other hmem => ?_, h.fresh, fun other hmem hdelivers => ?_,
      fun key len hkey hgone hdelivers => ?_⟩
    · exact h.given other (hstation other (hjobs ▸ hmem))
    · exact h.begun other (hstation other (hjobs ▸ hmem)) hdelivers
    · refine h.complete key len hkey (fun hline => ?_) hdelivers
      obtain ⟨other, hother, rfl⟩ := mem_line.mp hline
      rcases List.mem_append.mp hother with hold | hheld
      · exact hgone (mem_line.mpr ⟨other, List.mem_append_left _ hold, rfl⟩)
      · -- its reader delivers, so the read was none of the last ones
        obtain rfl : other = job := by simpa [held] using hheld
        obtain rfl := Option.some.inj ((h.given other hother).symm.trans hkey)
        cases (h.begun other hother hdelivers).delivers with
        | last hread => cases read.symm.trans hread
        | more hread => cases read.symm.trans hread
  | ended packet read whole =>
    exact cutInv_queued h hnumbered held none rfl rfl rfl (fun _ hbody => (by cases hbody))
      (fun _ hbody => (by cases hbody)) fun _ hbegun => hbegun.complete read whole
  | continued packet read more =>
    refine cutInv_queued h hnumbered held (some _) rfl rfl rfl ?_ ?_ fun hnone => (by cases hnone)
    · rintro body hbody
      obtain rfl := Option.some.inj hbody
      rfl
    · rintro body hbody hbegun
      obtain rfl := Option.some.inj hbody
      exact hbegun.read read more

theorem cutInv_step (h : CutInv reads s) (hstep : step reads s a = some t) : CutInv reads t := by
  have hnumbered := numbered_step h.numbered hstep
  cases step_transition hstep with
  | inserted | present | removed | performed | disconnected =>
    exact h.transfer hnumbered (fun _ => Iff.rfl) rfl rfl
  | given fresh => exact cutInv_given h fresh hnumbered
  | received at_ front =>
    exact h.transfer hnumbered (fun job => by simp [State.jobs, at_, front, Pc.job?, or_comm]) rfl rfl
  | waits at_ | room at_ | resent at_ =>
    exact h.transfer hnumbered (fun job => by simp [State.jobs, at_, Pc.job?]) rfl rfl
  | cut at_ cut => exact cutInv_cut h hnumbered at_ cut

theorem cutInv_of_exec {run : List Action} (hrun : exec (step reads) {} run = some s) : CutInv reads s := by
  refine exec_invariant ⟨numbered_init, ?_, fun _ _ => rfl, ?_, ?_⟩
    (fun _ _ _ h hstep => cutInv_step h hstep) hrun
  · exact fun job hjob => absurd hjob List.not_mem_nil
  · exact fun job hjob => absurd hjob List.not_mem_nil
  · intro key bodyLen hkey
    cases hkey

/-! ## The worker gets to it -/

/-- What the worker has left to do in its turn. -/
def Pc.phase : Pc → Nat
  | .idle => 0
  | .received _ => 3
  | .reading _ => 2
  | .resending _ => 1

def Pc.rank : Pc → Nat ×ₗ Nat
  | .idle | .received _ => toLex (0, 0)
  | .resending _ => toLex (2, 0)
  | .reading _ => toLex (3, 0)

def Job.Is (key : Key) (job : Job) : Bool := decide (job.key = key)

/-- How far the worker is from taking the body: those in front of it, or what is left of
its own turn. -/
def State.rank (key : Key) (s : State) : Nat ×ₗ Nat :=
  match s.station.find? (Job.Is key) with
  | some _ => toLex (1, 4 * s.station.findIdx (Job.Is key) + s.pc.phase)
  | none => s.pc.rank

/-- The worker has taken the body and asks for its queue next. -/
def Received (key : Key) (s : State) : Prop := ∃ job, s.pc = .received job ∧ job.key = key

/-- There is one thread to be fair to. -/
def Moves (_ : Unit) (_ : State) (a : Action) : Prop := a.ofWorker = true

theorem worker_enabled (hkey : key ∈ s.line) : Enabled (step reads) Moves () s := by
  cases hpc : s.pc with
  | idle =>
    obtain ⟨job, hjob, -⟩ := mem_line.mp hkey
    have hstation : job ∈ s.station := by simpa [State.jobs, hpc, Pc.job?] using hjob
    obtain ⟨front, rest, hfront⟩ := List.exists_cons_of_ne_nil (List.ne_nil_of_mem hstation)
    exact ⟨.recv, rfl, by simp [step, hpc, hfront]⟩
  | received job => exact ⟨.isOccupied, rfl, by simp [step, hpc]⟩
  | reading job => exact ⟨.send, rfl, by simp [step, hpc]⟩
  | resending job => exact ⟨.resend, rfl, by simp [step, hpc]⟩

theorem rank_station {job : Job} (hfind : s.station.find? (Job.Is key) = some job) :
    s.rank key = toLex (1, 4 * s.station.findIdx (Job.Is key) + s.pc.phase) := by
  simp only [State.rank, hfind]

theorem rank_held (hfind : s.station.find? (Job.Is key) = none) : s.rank key = s.pc.rank := by
  simp only [State.rank, hfind]

/-- Newcomers stand behind. -/
theorem findIdx_snoc {station : List Job} {job : Job} (new : Job)
    (hfind : station.find? (Job.Is key) = some job) :
    (station ++ [new]).findIdx (Job.Is key) = station.findIdx (Job.Is key) := by
  have hlt : station.findIdx (Job.Is key) < station.length :=
    List.findIdx_lt_length_of_exists ⟨job, List.mem_of_find?_eq_some hfind, List.find?_some hfind⟩
  rw [List.findIdx_append, if_pos hlt]

theorem find_snoc {station : List Job} {job : Job} (new : Job)
    (hfind : station.find? (Job.Is key) = some job) :
    (station ++ [new]).find? (Job.Is key) = some job := by
  rw [List.find?_append, hfind, Option.some_or]

theorem find_snoc_none {station : List Job} (new : Job) (hfind : station.find? (Job.Is key) = none) :
    (station ++ [new]).find? (Job.Is key) = if new.key = key then some new else none := by
  rw [List.find?_append, hfind, Option.none_or]
  by_cases hkey : new.key = key <;> simp [Job.Is, hkey]

theorem held_of_find (hkey : key ∈ s.line) (hfind : s.station.find? (Job.Is key) = none) :
    ∃ job, s.pc.job? = some job ∧ job.key = key := by
  obtain ⟨job, hjob, hkey⟩ := mem_line.mp hkey
  rcases List.mem_append.mp hjob with hstation | hheld
  · exact absurd (decide_eq_true hkey) (List.find?_eq_none.mp hfind job hstation)
  · exact ⟨job, Option.mem_toList.mp hheld, hkey⟩

theorem rank_lt_of_fst {r r' : Nat × Nat} (h : r.1 < r'.1) : toLex r < toLex r' :=
  Prod.Lex.toLex_lt_toLex.mpr (.inl h)

theorem rank_lt_of_snd {r r' : Nat × Nat} (h : r.1 = r'.1) (h' : r.2 < r'.2) : toLex r < toLex r' :=
  Prod.Lex.toLex_lt_toLex.mpr (.inr ⟨h, h'⟩)

/-- While the body is in the station, the worker gets nearer to it. -/
theorem rank_step_station (h : Numbered s) {job : Job} (hfind : s.station.find? (Job.Is key) = some job)
    (hstep : step reads s a = some t) :
    t.rank key < s.rank key ∨ (t.rank key = s.rank key ∧ ¬ Moves () s a) := by
  have hrank := rank_station hfind
  have hphase : ∀ u : State, u.station = s.station → u.pc.phase < s.pc.phase →
      u.rank key < s.rank key := by
    intro u hstation hlt
    have hfind' : u.station.find? (Job.Is key) = some job := hstation ▸ hfind
    rw [hrank, rank_station hfind', hstation]
    exact rank_lt_of_snd rfl (by dsimp only; omega)
  cases step_transition hstep with
  | inserted | present | removed | performed | disconnected => exact .inr ⟨rfl, Bool.false_ne_true⟩
  | given =>
    refine .inr ⟨?_, Bool.false_ne_true⟩
    rw [hrank, rank_station (find_snoc _ hfind), findIdx_snoc _ hfind]
  | @received front rest at_ hfront =>
    left
    rw [hrank]
    rw [hfront, List.find?_cons] at hfind
    by_cases hkey : front.key = key
    · -- it is the one in front, and there is no other
      have hnodup : (front.key :: rest.map Job.key).Nodup := by
        simpa [State.line, State.jobs, hfront, at_, Pc.job?] using h.nodup
      have hrest : rest.find? (Job.Is key) = none := by
        refine List.find?_eq_none.mpr fun other hother hsame => ?_
        refine (List.nodup_cons.mp hnodup).1 (List.mem_map.mpr ⟨other, hother, ?_⟩)
        exact (of_decide_eq_true hsame).trans hkey.symm
      rw [rank_held hrest]
      exact rank_lt_of_fst Nat.zero_lt_one
    · simp only [Job.Is, hkey, decide_false] at hfind
      rw [rank_station (s := { s with station := rest, pc := .received front, taken := _ }) hfind]
      refine rank_lt_of_snd rfl ?_
      simp only [hfront, List.findIdx_cons, Job.Is, hkey, decide_false, cond_false, at_, Pc.phase]
      omega
  | waits at_ | room at_ => exact .inl (hphase _ rfl (by simp [at_, Pc.phase]))
  | resent at_ =>
    left
    rw [hrank, rank_station (find_snoc _ hfind), findIdx_snoc _ hfind, at_]
    exact rank_lt_of_snd rfl (Nat.lt_succ_self _)
  | cut at_ cut =>
    cases cut with
    | dropped | ended | continued => exact .inl (hphase _ rfl (by simp [at_, Pc.phase]))

/-- While the worker still holds it from the turn before, it gets done with it. -/
theorem rank_step_held (h : Numbered s) {job : Job} (held : s.pc.job? = some job) (hkey : job.key = key)
    (hfind : s.station.find? (Job.Is key) = none) (hbusy : ¬ Received key s)
    (hstep : step reads s a = some t) :
    t.rank key < s.rank key ∨ (t.rank key = s.rank key ∧ ¬ Moves () s a) := by
  cases step_transition hstep with
  | inserted | present | removed | performed | disconnected => exact .inr ⟨rfl, Bool.false_ne_true⟩
  | @given new sender bodyLen entry fresh =>
    refine .inr ⟨?_, Bool.false_ne_true⟩
    have hne : new ≠ key := by
      rintro rfl
      exact h.given _ (mem_line.mpr ⟨job, by simp [State.jobs, held], hkey⟩) fresh
    have hgone : (s.station ++ [(⟨new, sender, { bodyLen }⟩ : Job)]).find? (Job.Is key) = none := by
      rw [find_snoc_none _ hfind, if_neg hne]
    rw [rank_held hgone, rank_held hfind]
  | received at_ =>
    rw [at_] at held
    cases held
  | @waits job' at_ | @room job' at_ =>
    obtain rfl : job' = job := by simpa [at_, Pc.job?] using held
    exact absurd ⟨job', at_, hkey⟩ hbusy
  | @resent job' at_ =>
    left
    obtain rfl : job' = job := by simpa [at_, Pc.job?] using held
    have hback : (s.station ++ [job']).find? (Job.Is key) = some job' := by
      rw [find_snoc_none _ hfind, if_pos hkey]
    rw [rank_station hback, rank_held hfind, at_]
    exact rank_lt_of_fst (Nat.lt_succ_self 1)
  | @cut job' _ at_ cut =>
    left
    have hstation : t.station = s.station := by cases cut <;> rfl
    rw [rank_held (hstation ▸ hfind), rank_held hfind, at_]
    cases cut with
    | dropped | ended | continued => exact rank_lt_of_fst (by decide)

theorem rank_step (h : Numbered s) (hkey : key ∈ s.line) (hbusy : ¬ Received key s)
    (hstep : step reads s a = some t) :
    t.rank key < s.rank key ∨ (t.rank key = s.rank key ∧ ¬ Moves () s a) := by
  cases hfind : s.station.find? (Job.Is key) with
  | some job => exact rank_step_station h hfind hstep
  | none =>
    obtain ⟨job, held, hjob⟩ := held_of_find hkey hfind
    exact rank_step_held h held hjob hfind hbusy hstep

/-! ## What the worker finds -/

theorem pc_of_others (hstep : step reads s a = some t) (hothers : ¬ Moves () s a) : t.pc = s.pc := by
  cases step_transition hstep with
  | inserted | present | removed | performed | disconnected | given => rfl
  | _ => exact absurd rfl hothers

theorem action_of_received {job : Job} (hstep : step reads s a = some t) (hpc : s.pc = .received job)
    (hmoves : Moves () s a) : a = .isOccupied := by
  cases step_transition hstep with
  | waits | room => rfl
  | received at_ | cut at_ | resent at_ => cases hpc.symm.trans at_
  | _ => cases hmoves

theorem action_of_reading {job : Job} (hstep : step reads s a = some t) (hpc : s.pc = .reading job)
    (hmoves : Moves () s a) : a = .send := by
  cases step_transition hstep with
  | cut => rfl
  | received at_ | waits at_ | room at_ | resent at_ => cases hpc.symm.trans at_
  | _ => cases hmoves

/-- What was cut stays, and a read is added to it. -/
theorem bytes_mono (hstep : step reads s a = some t) : bytes (s.chunksOf key) ≤ bytes (t.chunksOf key) := by
  have hsnoc : ∀ (chunk : Key × BodyRequest), t.chunks = s.chunks ++ [chunk] →
      bytes (s.chunksOf key) ≤ bytes (t.chunksOf key) := by
    rintro ⟨other, chunk⟩ hchunks
    rw [chunksOf_snoc hchunks key]
    simp [bytes]
  cases step_transition hstep with
  | cut _ cut =>
    cases cut with
    | dropped => exact Nat.le_refl _
    | ended | continued => exact hsnoc _ rfl
  | _ => exact Nat.le_refl _

theorem bytes_lt_of_send (h : CutInv reads s) {job : Job} (at_ : s.pc = .reading job)
    (hdelivers : Station.Delivers (reads job.key) job.body.bodyLen 0 0)
    (hstep : step reads s .send = some t) (hkey : job.key ∈ t.line) :
    bytes (s.chunksOf job.key) < bytes (t.chunksOf job.key) := by
  have hjob : job ∈ s.jobs := by simp [State.jobs, at_, Pc.job?]
  have held : s.pc.job? = some job := by rw [at_]; rfl
  have hgone : job.key ∉ s.station.map Job.key := by
    intro hmem
    obtain ⟨other, hother, hsame⟩ := List.mem_map.mp hmem
    exact h.numbered.apart held other hother hsame
  cases step_transition hstep with
  | @cut job' _ at' cut =>
    obtain rfl : job' = job := by simpa [at_] using at'.symm
    cases cut with
    | dropped | ended =>
      rw [State.line, State.jobs, Pc.job?, Option.toList_none, List.append_nil] at hkey
      exact absurd hkey hgone
    | continued packet read more =>
      obtain ⟨hpos, -, -⟩ := (h.begun job' hjob hdelivers).delivers.next read more
      exact Nat.lt_of_lt_of_eq (Nat.lt_add_of_pos_right hpos)
        (bytes_chunksOf_snoc ⟨_, packet, false⟩ rfl).symm

theorem bytes_le (h : CutInv reads s) {bodyLen : Nat} (hgiven : s.given key = some bodyLen)
    (hkey : key ∈ s.line) (hdelivers : Station.Delivers (reads key) bodyLen 0 0) :
    bytes (s.chunksOf key) ≤ bodyLen := by
  obtain ⟨job, hjob, rfl⟩ := mem_line.mp hkey
  obtain rfl := Option.some.inj ((h.given job hjob).symm.trans hgiven)
  have hbegun := h.begun job hjob hdelivers
  rw [← hbegun.written]
  cases hbegun.delivers <;> omega

end Steps

/-! ## Behaviours -/

/-- The worker asks whether the queue of the body is occupied. -/
def Asks {reads : Key → Nat → Option Bytes} (b : Behaviour (step reads)) (key : Key) (n : Nat) : Prop :=
  b.actions n = some .isOccupied ∧ Received key (b.states n)

/-- It finds that it is. -/
def Occupied (key : Key) (s : State) : Prop :=
  ∀ job, s.pc = .received job → job.key = key → s.occupied job = true

/-- The body is asked for again and again, and from some moment on its queue is found
occupied each time. -/
def HeldBack {reads : Key → Nat → Option Bytes} (b : Behaviour (step reads)) (key : Key) : Prop :=
  (∀ n, ∃ m, n ≤ m ∧ Asks b key m) ∧ ∃ n, ∀ m, n ≤ m → Asks b key m → Occupied key (b.states m)

section Behaviours
variable {reads : Key → Nat → Option Bytes} {b : Behaviour (step reads)} {key : Key} {bodyLen : Nat}

theorem meets_true (b : Behaviour (step reads)) : b.Meets fun _ _ => True := fun _ _ _ => trivial

theorem bytes_mono_of_le (b : Behaviour (step reads)) {n m : Nat} (h : n ≤ m) :
    bytes ((b.states n).chunksOf key) ≤ bytes ((b.states m).chunksOf key) :=
  Behaviour.invariant (I := fun s => bytes ((b.states n).chunksOf key) ≤ bytes (s.chunksOf key))
    (fun _ _ _ hle _ hstep => Nat.le_trans hle (bytes_mono hstep)) (meets_true b) h (Nat.le_refl _)

/-- A body that stays in the station is asked for again and again. -/
theorem asks_again (hfair : b.Fair Moves) (hinv : ∀ n, CutInv reads (b.states n))
    (hline : ∀ n, key ∈ (b.states n).line) (n : Nat) : ∃ m, n ≤ m ∧ Asks b key m := by
  obtain ⟨m, hm, hgone | hreceived⟩ := Behaviour.eventually Numbered
    (fun s => key ∉ s.line ∨ Received key s) (State.rank key) (fun _ => ())
    (fun _ _ _ h _ hstep => numbered_step h hstep)
    (fun s _ hbusy => worker_enabled (not_not.mp (not_or.mp hbusy).1))
    (fun s a t h hbusy _ hstep => by
      obtain ⟨hstays, hothers⟩ := not_or.mp hbusy
      rcases rank_step h (not_not.mp hstays) hothers hstep with hlt | ⟨hsame, hmoves⟩
      · exact .inl hlt
      · exact .inr ⟨hsame, rfl, hmoves⟩)
    (meets_true b) hfair (hinv n).numbered
  · exact absurd (hline m) hgone
  obtain ⟨k, a, hk, ⟨job, hpc, hkey⟩, haction, hmoves⟩ := Behaviour.until_moves
    (P := Received key) (i := ())
    (fun s a t h hstep hothers => by
      obtain ⟨job, hpc, hkey⟩ := h
      exact ⟨job, (pc_of_others hstep hothers).trans hpc, hkey⟩)
    (fun s h => by
      obtain ⟨job, hpc, -⟩ := h
      exact ⟨.isOccupied, rfl, by simp [step, hpc]⟩)
    hfair hreceived
  refine ⟨k, Nat.le_trans hm hk, ?_, job, hpc, hkey⟩
  rw [haction, action_of_received (Behaviour.follows_some haction) hpc hmoves]

/-- Where room is found, a chunk is cut. -/
theorem cut_of_room (hfair : b.Fair Moves) (hinv : ∀ n, CutInv reads (b.states n))
    (hline : ∀ n, key ∈ (b.states n).line) (hgiven : ∀ n, (b.states n).given key = some bodyLen)
    (hdelivers : Station.Delivers (reads key) bodyLen 0 0) {n : Nat} (hasks : Asks b key n)
    (hroom : ¬ Occupied key (b.states n)) :
    ∃ m, bytes ((b.states n).chunksOf key) < bytes ((b.states m).chunksOf key) := by
  obtain ⟨haction, -⟩ := hasks
  simp only [Occupied, not_forall, Bool.not_eq_true] at hroom
  obtain ⟨job, hpc, rfl, hroom⟩ := hroom
  have hreading : (b.states (n + 1)).pc = .reading job := by
    have hstep := Behaviour.follows_some haction
    simp only [step, hpc, hroom, Option.some.injEq] at hstep
    rw [← hstep]
    rfl
  obtain ⟨m, a, hm, hpc', haction', hmoves⟩ := Behaviour.until_moves
    (P := fun s => s.pc = .reading job) (i := ())
    (fun s a t h hstep hothers => (pc_of_others hstep hothers).trans h)
    (fun s h => ⟨.send, rfl, by simp [step, h]⟩) hfair hreading
  have hstep := Behaviour.follows_some haction'
  rw [action_of_reading hstep hpc' hmoves] at hstep
  have hjob : job ∈ (b.states m).jobs := by simp [State.jobs, hpc', Pc.job?]
  obtain rfl := Option.some.inj (((hinv m).given job hjob).symm.trans (hgiven m))
  have hmono : bytes ((b.states n).chunksOf job.key) ≤ bytes ((b.states m).chunksOf job.key) :=
    bytes_mono_of_le b (by omega)
  exact ⟨m + 1, Nat.lt_of_le_of_lt hmono (bytes_lt_of_send (hinv m) hpc' hdelivers hstep (hline (m + 1)))⟩

/-- So it is found only so often. -/
theorem occupied_at_last (hfair : b.Fair Moves) (hinv : ∀ n, CutInv reads (b.states n))
    (hline : ∀ n, key ∈ (b.states n).line) (hgiven : ∀ n, (b.states n).given key = some bodyLen)
    (hdelivers : Station.Delivers (reads key) bodyLen 0 0) :
    ∃ n, ∀ m, n ≤ m → Asks b key m → Occupied key (b.states m) := by
  by_contra hnone
  have hagain : ∀ n, ∃ m, n ≤ m ∧ Asks b key m ∧ ¬ Occupied key (b.states m) := by
    intro n
    by_contra hn
    exact hnone ⟨n, fun m hm hasks => by_contra fun hroom => hn ⟨m, hm, hasks, hroom⟩⟩
  have hmore : ∀ k, ∃ n, k ≤ bytes ((b.states n).chunksOf key) := by
    intro k
    induction k with
    | zero => exact ⟨0, Nat.zero_le _⟩
    | succ k ih =>
      obtain ⟨n, hn⟩ := ih
      obtain ⟨m, hm, hasks, hroom⟩ := hagain n
      obtain ⟨l, hl⟩ := cut_of_room hfair hinv hline hgiven hdelivers hasks hroom
      exact ⟨l, Nat.lt_of_le_of_lt (Nat.le_trans hn (bytes_mono_of_le b hm)) hl⟩
  obtain ⟨n, hn⟩ := hmore (bodyLen + 1)
  exact absurd (bytes_le (hinv n) (hgiven n) (hline n) hdelivers) (Nat.not_le.mpr hn)

end Behaviours

/-- Whatever the other bodies and the other threads do, under every schedule that does
not pass the worker over for ever, a body leaves the station completely cut, unless from
some moment on its queue is found occupied whenever the worker asks, which it does
again and again. -/
theorem no_body_starves {reads : Key → Nat → Option Bytes} {run : List Action}
    (b : Behaviour (step reads)) (hrun : exec (step reads) {} run = some (b.states 0))
    (hfair : b.Fair Moves) {job : Job} (hjob : job ∈ (b.states 0).jobs)
    (hdelivers : Station.Delivers (reads job.key) job.body.bodyLen 0 0) :
    (∃ n, job.key ∉ (b.states n).line ∧
      Complete (reads job.key) job.body.bodyLen ((b.states n).chunksOf job.key)) ∨ HeldBack b job.key := by
  have hinv : ∀ n, CutInv reads (b.states n) := by
    intro n
    have hthere : exec (step reads) {} (run ++ b.before n) = some (b.states n) := by
      rw [exec_append, hrun]
      exact b.exec_before n
    exact cutInv_of_exec hthere
  have hgiven : ∀ n, (b.states n).given job.key = some job.body.bodyLen := by
    intro n
    exact Behaviour.invariant (I := fun s => s.given job.key = some job.body.bodyLen)
      (fun _ _ _ h _ hstep => given_kept hstep h) (meets_true b) (Nat.zero_le n) ((hinv 0).given job hjob)
  by_cases hline : ∀ n, job.key ∈ (b.states n).line
  · exact .inr ⟨asks_again hfair hinv hline, occupied_at_last hfair hinv hline hgiven hdelivers⟩
  · obtain ⟨n, hgone⟩ := not_forall.mp hline
    exact .inl ⟨n, hgone, (hinv n).complete _ _ (hgiven n) hgone hdelivers⟩

def turn : List Action := [.recv, .isOccupied, .send, .resend]

def lastTurn : List Action := [.recv, .isOccupied, .send]

/-- The worker cuts both bodies, a byte a turn. -/
def allTurns : List Action := turn ++ turn ++ turn ++ turn ++ lastTurn ++ lastTurn

theorem no_body_starves_twoBodies : ∃ b : Behaviour (step byByte),
    exec (step byByte) {} twoBodies = some (b.states 0) ∧ b.Fair Moves ∧
    ((∃ n, ((0, [1]), 0) ∉ (b.states n).line ∧
      Complete (byByte ((0, [1]), 0)) 3 ((b.states n).chunksOf ((0, [1]), 0))) ∨
        HeldBack b ((0, [1]), 0)) := by
  have hfacts : ((exec (step byByte) {} twoBodies).any fun s =>
      decide (⟨((0, [1]), 0), 0, { bodyLen := 3 }⟩ ∈ s.jobs) &&
      (exec (step byByte) s allTurns).any fun t => t.station.isEmpty && t.pc.job?.isNone) = true := by
    decide +kernel
  obtain ⟨s, hs, hfacts⟩ := (Option.any_eq_true _ _).mp hfacts
  obtain ⟨hjob, hfacts⟩ := Bool.and_eq_true_iff.mp hfacts
  obtain ⟨t, ht, hend⟩ := (Option.any_eq_true _ _).mp hfacts
  have hdelivers : Station.Delivers (byByte ((0, [1]), 0)) 3 0 0 :=
    .more rfl (by decide) (by decide) (.more rfl (by decide) (by decide) (.last rfl rfl))
  have hstop : ∀ i, ¬ Enabled (step byByte) Moves i t := by
    rintro i ⟨a, hmoves, hstep⟩
    simp only [Bool.and_eq_true, List.isEmpty_iff, Option.isNone_iff_eq_none] at hend
    obtain ⟨u, hu⟩ := Option.isSome_iff_exists.mp hstep
    cases step_transition hu with
    | received _ front => cases hend.1.symm.trans front
    | waits at_ | room at_ | cut at_ | resent at_ => simp [at_, Pc.job?] at hend
    | _ => cases hmoves
  have hfair := Behaviour.ofRun_fair ht hstop
  exact ⟨.ofRun ht, hs, hfair, no_body_starves (.ofRun ht) hs hfair (of_decide_eq_true hjob) hdelivers⟩

end FacesHttp3.Chunks.Worker
