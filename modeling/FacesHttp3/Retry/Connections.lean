import FacesHttp3.Retry.ReadLoop

/-! # One connection for each client

The id of a connection is the one a Retry derived from the client's first destination
id, so both ids lead to it: until it is collected it is found by them, and nothing that
arrives for them opens another connection or is answered. -/

namespace FacesHttp3.Retry
open FacesHttp3.Lib FacesHttp3.Lib.Exec FacesHttp3.Request

/-- A Retry carries the id derived from the one it answers. -/
def RetriesDerived (seed : Hmac) (s : State) : Prop :=
  ∀ request scid token, .retry request scid token ∈ s.replies →
    ∃ header, request.header = some header ∧ scid = connectionId seed header.dcid

/-- Connections are held under their ids, which were derived for them. -/
def Derived (seed : Hmac) (s : State) : Prop :=
  ∀ scid client, s.clients scid = some client → client.scid = scid ∧ scid = connectionId seed client.odcid

section Steps
variable {key seed : Hmac} {versionIsSupported : Nat → Bool} {past : List Action} {s t : State}
variable {scid : Bytes} {client : Client}

/-- Only an Initial that no connection takes is answered, or opens one. -/
theorem step_received {datagram : Datagram} {accepts : Bool}
    (hstep : step key seed versionIsSupported s (.received datagram accepts) = some t) :
    t = { s with clock := datagram.now } ∨ ∃ header, datagram.header = some header ∧
      ¬ s.Known seed header.dcid ∧
      (t = { s with clock := datagram.now, replies := s.replies ++ [.versionNegotiation datagram] } ∨
        openConnection key seed { s with clock := datagram.now } datagram header accepts = some t) := by
  simp only [step] at hstep
  split at hstep
  case isFalse => cases hstep
  split at hstep
  · exact .inl (Option.some.inj hstep).symm
  rename_i header hheader
  split at hstep
  · exact .inl (Option.some.inj hstep).symm
  rename_i hunknown
  split at hstep
  · exact .inl (Option.some.inj hstep).symm
  refine .inr ⟨header, hheader, hunknown, ?_⟩
  split at hstep
  · exact .inl (Option.some.inj hstep).symm
  · exact .inr hstep

/-- It gets a Retry with the id derived from its own, or a connection under its own. -/
theorem openConnection_cases {datagram : Datagram} {header : PacketHeader} {accepts : Bool}
    (h : openConnection key seed s datagram header accepts = some t) :
    (t.clients = s.clients ∧ (t.replies = s.replies ∨
      ∃ token, t.replies = s.replies ++ [.retry datagram (connectionId seed header.dcid) token])) ∨
    (t.replies = s.replies ∧ ∃ client, t.clients = s.clients.insert header.dcid client) := by
  simp only [openConnection] at h
  split at h
  · cases h
    exact .inl ⟨rfl, .inl rfl⟩
  · split at h <;> cases h
    · exact .inl ⟨rfl, .inl rfl⟩
    · exact .inl ⟨rfl, .inr ⟨_, rfl⟩⟩
  · split at h
    · cases h
      exact .inl ⟨rfl, .inl rfl⟩
    · obtain ⟨-, rfl⟩ := guarded_eq_some_iff.mp h
      exact .inr ⟨rfl, _, rfl⟩

theorem retriesDerived_step {a : Action} (h : RetriesDerived seed s)
    (hstep : step key seed versionIsSupported s a = some t) : RetriesDerived seed t := by
  have hsame : t.replies = s.replies → RetriesDerived seed t := by
    intro hsame request scid token hmem
    exact h request scid token (hsame ▸ hmem)
  cases a with
  | collect scid =>
    cases hstep
    exact h
  | received datagram accepts =>
    rcases step_received hstep with rfl | ⟨header, hheader, -, rfl | hopen⟩
    · exact h
    · intro request scid token hmem
      simp only [List.mem_append, List.mem_singleton, reduceCtorEq, or_false] at hmem
      exact h request scid token hmem
    · rcases openConnection_cases hopen with ⟨-, hquiet | ⟨minted, hretry⟩⟩ | ⟨hquiet, -⟩
      · exact hsame hquiet
      · intro request scid token hmem
        rw [hretry] at hmem
        rcases List.mem_append.mp hmem with hold | hnew
        · exact h request scid token hold
        · obtain ⟨rfl, rfl, rfl⟩ := Reply.retry.inj (List.mem_singleton.mp hnew)
          exact ⟨header, hheader, rfl⟩
      · exact hsame hquiet

/-- The id of the connection that a validated token opens is derived from the first one. -/
theorem derived_step {a : Action} (h : Derived seed s) (hretries : RetriesDerived seed s)
    (hsigned : SignedForRetry key past s) (hunforged : Unforged key s a)
    (hstep : step key seed versionIsSupported s a = some t) : Derived seed t := by
  cases step_handled hstep with
  | quiet a t hsigned hclients => exact fun scid client hclient => h scid client (hclients scid client hclient)
  | retry => exact h
  | accepted datagram header token odcid hheader hinitial htoken hclock hvalid =>
    intro scid client hclient
    have hinsert : s.clients.insert header.dcid ⟨header.dcid, odcid, datagram⟩ scid = some client := hclient
    by_cases heq : scid = header.dcid
    · subst heq
      rw [PMap.insert_self, Option.some.injEq] at hinsert
      subst hinsert
      obtain ⟨request, hminted, -⟩ := minted_of_validated hsigned hheader htoken hunforged hclock hvalid
      obtain ⟨first, hfirst, hderived⟩ := hretries _ _ _ hminted.replied
      obtain ⟨initial, hinitial', -, -, rfl⟩ := hminted.initial
      obtain rfl := Option.some.inj (hfirst.symm.trans hinitial')
      exact ⟨rfl, hderived⟩
    · rw [PMap.insert_of_ne _ _ heq] at hinsert
      exact h scid client hinsert

/-- A datagram of a known connection changes nothing but the clock. -/
theorem step_known {datagram : Datagram} {accepts : Bool} {header : PacketHeader}
    (hheader : datagram.header = some header) (hknown : s.Known seed header.dcid)
    (hstep : step key seed versionIsSupported s (.received datagram accepts) = some t) :
    t = { s with clock := datagram.now } := by
  simp only [step] at hstep
  split at hstep
  · have hknown' : State.Known { s with clock := datagram.now } seed header.dcid := hknown
    simp only [hheader, hknown', if_true, Option.some.injEq] at hstep
    exact hstep.symm
  · cases hstep

/-- A connection stays until it is collected: only an id without one is given one. -/
theorem client_kept {a : Action} (h : s.clients scid = some client) (ha : a ≠ .collect scid)
    (hstep : step key seed versionIsSupported s a = some t) : t.clients scid = some client := by
  cases a with
  | collect other =>
    cases hstep
    have hne : scid ≠ other := fun heq => ha (congrArg Action.collect heq.symm)
    exact (PMap.erase_of_ne _ hne).trans h
  | received datagram accepts =>
    rcases step_received hstep with rfl | ⟨header, hheader, hunknown, rfl | hopen⟩
    · exact h
    · exact h
    · rcases openConnection_cases hopen with ⟨hclients, -⟩ | ⟨-, other, hclients⟩
      · rw [hclients]
        exact h
      · have hne : scid ≠ header.dcid := by
          rintro rfl
          exact hunknown (.inl (by simp [h]))
        rw [hclients]
        exact (PMap.insert_of_ne _ _ hne).trans h

theorem client_kept_run {as : List Action} (h : s.clients scid = some client) (has : .collect scid ∉ as)
    (run : exec (step key seed versionIsSupported) s as = some t) : t.clients scid = some client := by
  induction as generalizing s with
  | nil =>
    obtain rfl := Option.some.inj run
    exact h
  | cons a as ih =>
    obtain ⟨u, hstep, run⟩ := Option.bind_eq_some_iff.mp run
    simp only [List.mem_cons, not_or] at has
    exact ih (client_kept h (fun heq => has.1 heq.symm) hstep) has.2 run

theorem derived_run (hrun : exec (step key seed versionIsSupported) {} past = some s)
    (hunforged : Every (step key seed versionIsSupported) (Unforged key) {} past) : Derived seed s := by
  have hinv : Derived seed s ∧ RetriesDerived seed s ∧ SignedForRetry key past s :=
    exec_induction (P := fun past s => Derived seed s ∧ RetriesDerived seed s ∧ SignedForRetry key past s)
      ⟨fun _ _ h => (by cases h), fun _ _ _ h => absurd h List.not_mem_nil,
        fun _ h => absurd h List.not_mem_nil⟩
      (fun _ _ _ _ h hunforged hstep => ⟨derived_step h.1 h.2.1 h.2.2 hunforged hstep,
        retriesDerived_step h.2.1 hstep, signedForRetry_step h.2.2 hstep⟩)
      hunforged hrun
  exact hinv.1

end Steps

/-- The connection is the only one for the client's first destination id, held under the
id derived from it; until it is collected it stays, and datagrams for either id open
nothing and are not answered. -/
structure Alone (key seed : Hmac) (versionIsSupported : Nat → Bool) (s : State) (scid : Bytes)
    (client : Client) : Prop where
  id : client.scid = scid
  derived : scid = connectionId seed client.odcid
  only : ∀ other i, s.clients i = some other → other.odcid = client.odcid → i = scid
  stays : ∀ as t, .collect scid ∉ as → exec (step key seed versionIsSupported) s as = some t →
    t.clients scid = some client
  takes : ∀ as t, .collect scid ∉ as → exec (step key seed versionIsSupported) s as = some t →
    ∀ datagram accepts header u, datagram.header = some header →
      header.dcid = scid ∨ header.dcid = client.odcid →
      step key seed versionIsSupported t (.received datagram accepts) = some u →
      u = { t with clock := datagram.now }

theorem live_connection_alone {key seed : Hmac} {versionIsSupported : Nat → Bool} {past : List Action}
    {s : State} (hrun : exec (step key seed versionIsSupported) {} past = some s)
    (hunforged : Every (step key seed versionIsSupported) (Unforged key) {} past)
    {scid : Bytes} {client : Client} (hclient : s.clients scid = some client) :
    Alone key seed versionIsSupported s scid client := by
  have hall := derived_run hrun hunforged
  obtain ⟨hid, hderived⟩ := hall scid client hclient
  have hstays : ∀ as t, .collect scid ∉ as → exec (step key seed versionIsSupported) s as = some t →
      t.clients scid = some client := fun as t has run => client_kept_run hclient has run
  refine ⟨hid, hderived, fun other i hother hodcid => ?_, hstays, ?_⟩
  · rw [(hall i other hother).2, hodcid, ← hderived]
  · intro as t has run datagram accepts header u hheader hdcid hstep
    have hheld := hstays as t has run
    refine step_known hheader ?_ hstep
    rcases hdcid with hscid | hodcid
    · exact .inl (by simp [hscid, hheld])
    · exact .inr (by simp [hodcid, ← hderived, hheld])

/-- The client that answers its Retry. -/
theorem live_connection_alone_answered : ∃ s client,
    exec (step numberKey numberKey (· == 1)) {} [.received firstInitial true, .received secondInitial true] =
      some s ∧
    Alone numberKey numberKey (· == 1) s (connectionId numberKey (List.replicate 8 7)) client := by
  have hfacts : ((step numberKey numberKey (· == 1) {} (.received firstInitial true)).any fun s =>
      decide (authenticated ((mintAt numberKey (List.replicate 8 7)
          (connectionId numberKey (List.replicate 8 7)) loopback 0).getD [])
        (connectionId numberKey (List.replicate 8 7)) loopback ∈ s.signed) &&
      (step numberKey numberKey (· == 1) s (.received secondInitial true)).any fun t =>
        (t.clients (connectionId numberKey (List.replicate 8 7))).isSome) = true := by
    decide +kernel
  obtain ⟨s, hs, hfacts⟩ := (Option.any_eq_true _ _).mp hfacts
  simp only [Bool.and_eq_true, decide_eq_true_eq] at hfacts
  obtain ⟨t, ht, hclient⟩ := (Option.any_eq_true _ _).mp hfacts.2
  obtain ⟨client, hclient⟩ := Option.isSome_iff_exists.mp hclient
  have hrun : exec (step numberKey numberKey (· == 1)) {}
      [.received firstInitial true, .received secondInitial true] = some t := by
    rw [exec_cons, hs, Option.bind_some, exec_cons, ht, Option.bind_some, exec_nil]
  refine ⟨t, client, hrun, live_connection_alone hrun ⟨?_, fun u hu => ⟨?_, fun _ _ => trivial⟩⟩ hclient⟩
  · intro header token hheader htoken hlen
    cases hheader
    cases htoken
    exact absurd hlen (by decide)
  · intro header token hheader htoken _ _
    cases hheader
    obtain rfl := Option.some.inj (hs.symm.trans hu)
    have htoken : mintAt numberKey (List.replicate 8 7)
      (connectionId numberKey (List.replicate 8 7)) loopback 0 = some token := htoken
    have hsigned := hfacts.1
    rw [htoken, Option.getD_some] at hsigned
    exact hsigned

end FacesHttp3.Retry
