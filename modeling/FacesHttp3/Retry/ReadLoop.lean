import FacesHttp3.Lib.Exec
import FacesHttp3.Retry.Tokens

/-! # Address validation in the read loop

A datagram for no known connection is answered by a Retry, or opens a connection
if it shows the token of one. That a tag cannot be forged is a condition on the
datagrams that arrive; what follows is that every connection ever opened belongs
to an address that received a Retry shortly before. -/

namespace FacesHttp3.Retry
open FacesHttp3.Lib FacesHttp3.Lib.Exec FacesHttp3.Lib.BigEndian FacesHttp3.Request

inductive PacketType
  | initial
  | retry
  | handshake
  | zeroRtt
  | versionNegotiation
  | short
  deriving DecidableEq

/-- A packet's header; only Initial packets carry a token. -/
structure PacketHeader where
  type : PacketType
  version : Nat
  scid : Bytes
  dcid : Bytes
  token : Option Bytes

/-- A received datagram with the header of its packet, if that can be parsed, and
the time it is handled, in nanoseconds since the server was started. -/
structure Datagram where
  header : Option PacketHeader
  source : SocketAddr
  now : Nat

/-- A connection as it was accepted, and the datagram it was accepted for. -/
structure Client where
  scid : Bytes
  odcid : Bytes
  accepted : Datagram

inductive Reply
  | versionNegotiation (request : Datagram)
  | retry (request : Datagram) (scid token : Bytes)

/-- `signed` are the inputs that minting has signed; no thread reads them. -/
structure State where
  clients : PMap Bytes Client := PMap.empty
  clock : Nat := 0
  replies : List Reply := []
  signed : List Bytes := []

/-- `accepts` is what the transport says to a new connection: refusing it ends the
server. -/
inductive Action
  | received (datagram : Datagram) (accepts : Bool)
  | collect (scid : Bytes)

/-- The connection id a Retry carries. -/
def connectionId (seed : Hmac) (dcid : Bytes) : Bytes := (seed.sign dcid).take maxConnIdLen

/-- What the tag of a token covers. -/
def authenticated (token retryCid : Bytes) (source : SocketAddr) : Bytes :=
  authenticationInput (token.take (token.length - tagLen)) retryCid source

/-- An Initial packet that no known connection takes. -/
def openConnection (key seed : Hmac) (s : State) (datagram : Datagram) (header : PacketHeader)
    (accepts : Bool) : Option State :=
  match header.token with
  | none => some s
  | some [] =>
    let scid := connectionId seed header.dcid
    match mintAt key header.dcid scid datagram.source datagram.now with
    | none => some s
    | some token => some { s with
        replies := s.replies ++ [.retry datagram scid token]
        signed := s.signed ++ [authenticated token scid datagram.source] }
  | some (b :: bs) =>
    -- invalid tokens never allocate a connection or generate a reply
    match validateAt key (b :: bs) header.dcid datagram.source datagram.now with
    | none => some s
    | some odcid =>
      guarded (accepts = true) { s with
        clients := s.clients.insert header.dcid ⟨header.dcid, odcid, datagram⟩ }

/-- A connection is known by the destination id, or by the id a Retry derives from
it. -/
def State.Known (s : State) (seed : Hmac) (dcid : Bytes) : Prop :=
  (s.clients dcid).isSome ∨ (s.clients (connectionId seed dcid)).isSome

instance (s : State) (seed : Hmac) (dcid : Bytes) : Decidable (s.Known seed dcid) := by
  unfold State.Known
  infer_instance

/-- The clock never goes back. -/
def step (key seed : Hmac) (versionIsSupported : Nat → Bool) (s : State) : Action → Option State
  | .received datagram accepts =>
    if s.clock ≤ datagram.now then
      let s := { s with clock := datagram.now }
      match datagram.header with
      | none => some s
      | some header =>
        if s.Known seed header.dcid then some s
        else if header.type ≠ .initial then some s
        else if versionIsSupported header.version = false then
          some { s with replies := s.replies ++ [.versionNegotiation datagram] }
        else openConnection key seed s datagram header accepts
    else none
  | .collect scid => some { s with clients := s.clients.erase scid }

/-- A received tag that verifies was made by an earlier mint, for what it covers. -/
def Unforged (key : Hmac) (s : State) : Action → Prop
  | .received datagram _ => ∀ header token, datagram.header = some header →
      header.token = some token → tagLen ≤ token.length →
      key.verify (authenticated token header.dcid datagram.source)
        (token.drop (token.length - tagLen)) = true →
      authenticated token header.dcid datagram.source ∈ s.signed
  | .collect _ => True

/-! ## Tokens that were minted -/

theorem tokenBody_injective {issued issued' : Nat} {odcid odcid' : Bytes}
    (hissued : issued < 2 ^ 64) (hissued' : issued' < 2 ^ 64)
    (h : tokenBody issued odcid = tokenBody issued' odcid') : issued = issued' ∧ odcid = odcid' := by
  simp only [tokenBody, List.cons_append, List.cons.injEq, true_and] at h
  obtain ⟨hbytes, htail⟩ := List.append_inj h (by simp)
  exact ⟨toBytes_injective hissued hissued' hbytes, (List.cons.inj htail).2⟩

theorem authenticated_append (key : Hmac) (body retryCid : Bytes) (source : SocketAddr)
    (input : Bytes) :
    authenticated (body ++ key.sign input) retryCid source =
        authenticationInput body retryCid source ∧
      (body ++ key.sign input).drop ((body ++ key.sign input).length - tagLen) = key.sign input := by
  have hlen : (body ++ key.sign input).length - tagLen = body.length := by
    rw [List.length_append, key.sign_length]
    omega
  rw [authenticated, hlen]
  exact ⟨by rw [List.take_left], List.drop_left⟩

/-- The server minted the token of a Retry with connection id `scid` for the
Initial `request`, which came with an empty token and for `odcid`. -/
structure Minted (key : Hmac) (past : List Action) (s : State) (request : Datagram)
    (odcid scid token : Bytes) : Prop where
  received : ∃ accepts, .received request accepts ∈ past
  initial : ∃ header, request.header = some header ∧ header.type = .initial ∧
    header.token = some [] ∧ header.dcid = odcid
  minted : mintAt key odcid scid request.source request.now = some token
  replied : Reply.retry request scid token ∈ s.replies
  before : request.now ≤ s.clock

/-- Everything ever signed was signed for a Retry. -/
def SignedForRetry (key : Hmac) (past : List Action) (s : State) : Prop :=
  ∀ input ∈ s.signed, ∃ request odcid scid token,
    Minted key past s request odcid scid token ∧ input = authenticated token scid request.source

theorem Minted.mono {key : Hmac} {past : List Action} {s t : State} {request : Datagram}
    {odcid scid token : Bytes} {a : Action} (h : Minted key past s request odcid scid token)
    (hreplies : s.replies ⊆ t.replies) (hclock : s.clock ≤ t.clock) :
    Minted key (past ++ [a]) t request odcid scid token := by
  obtain ⟨accepts, hmem⟩ := h.received
  exact ⟨⟨accepts, List.mem_append_left _ hmem⟩, h.initial, h.minted, hreplies h.replied,
    h.before.trans hclock⟩

theorem SignedForRetry.mono {key : Hmac} {past : List Action} {s t : State} {a : Action}
    (h : SignedForRetry key past s) (hsigned : t.signed = s.signed)
    (hreplies : s.replies ⊆ t.replies) (hclock : s.clock ≤ t.clock) :
    SignedForRetry key (past ++ [a]) t := by
  intro input hinput
  obtain ⟨request, odcid, scid, token, hminted, heq⟩ := h input (hsigned ▸ hinput)
  exact ⟨request, odcid, scid, token, hminted.mono hreplies hclock, heq⟩

/-! ## One datagram -/

section Steps
variable {key seed : Hmac} {versionIsSupported : Nat → Bool} {past : List Action} {s t : State}

/-- What handling an action can do. -/
inductive Handled (key seed : Hmac) (s : State) : Action → State → Prop
  | quiet (a : Action) (t : State) (hsigned : t.signed = s.signed)
    (hclients : ∀ scid client, t.clients scid = some client → s.clients scid = some client)
    (hreplies : s.replies ⊆ t.replies) (hclock : s.clock ≤ t.clock) : Handled key seed s a t
  | retry (datagram : Datagram) (accepts : Bool) (header : PacketHeader) (token : Bytes)
    (hheader : datagram.header = some header) (hinitial : header.type = .initial)
    (htoken : header.token = some []) (hclock : s.clock ≤ datagram.now)
    (hmint : mintAt key header.dcid (connectionId seed header.dcid) datagram.source datagram.now =
      some token) :
    Handled key seed s (.received datagram accepts) { s with
      clock := datagram.now
      replies := s.replies ++ [.retry datagram (connectionId seed header.dcid) token]
      signed := s.signed ++ [authenticated token (connectionId seed header.dcid) datagram.source] }
  | accepted (datagram : Datagram) (header : PacketHeader) (token odcid : Bytes)
    (hheader : datagram.header = some header) (hinitial : header.type = .initial)
    (htoken : header.token = some token) (hclock : s.clock ≤ datagram.now)
    (hvalid : validateAt key token header.dcid datagram.source datagram.now = some odcid) :
    Handled key seed s (.received datagram true) { s with
      clock := datagram.now
      clients := s.clients.insert header.dcid ⟨header.dcid, odcid, datagram⟩ }

theorem step_handled {a : Action} (hstep : step key seed versionIsSupported s a = some t) :
    Handled key seed s a t := by
  cases a with
  | collect scid =>
    cases hstep
    refine .quiet _ _ rfl (fun i client hi => ?_) (List.Subset.refl _) le_rfl
    have hi : s.clients.erase scid i = some client := hi
    rw [PMap.erase_apply] at hi
    split at hi
    · cases hi
    · exact hi
  | received datagram accepts =>
    simp only [step] at hstep
    split at hstep
    · rename_i hclock
      have hquiet : Handled key seed s (.received datagram accepts) { s with clock := datagram.now } :=
        .quiet _ _ rfl (fun _ _ h => h) (List.Subset.refl _) hclock
      split at hstep
      · cases hstep
        exact hquiet
      rename_i header hheader
      split at hstep
      · cases hstep
        exact hquiet
      split at hstep
      · cases hstep
        exact hquiet
      rename_i hinitial
      split at hstep
      · cases hstep
        exact .quiet _ _ rfl (fun _ _ h => h) (List.subset_append_left _ _) hclock
      simp only [openConnection] at hstep
      split at hstep
      · cases hstep
        exact hquiet
      · rename_i htoken
        split at hstep <;> cases hstep
        · exact hquiet
        · exact .retry datagram accepts header _ hheader (by simpa using hinitial) htoken hclock
            (by assumption)
      · rename_i htoken
        split at hstep
        · cases hstep
          exact hquiet
        · obtain ⟨rfl, rfl⟩ := guarded_eq_some_iff.mp hstep
          exact .accepted datagram header _ _ hheader (by simpa using hinitial) htoken hclock
            (by assumption)
    · cases hstep

theorem signedForRetry_step {a : Action} (h : SignedForRetry key past s)
    (hstep : step key seed versionIsSupported s a = some t) :
    SignedForRetry key (past ++ [a]) t := by
  cases step_handled hstep with
  | quiet _ _ hsigned _ hreplies hclock => exact h.mono hsigned hreplies hclock
  | accepted _ _ _ _ _ _ _ hclock => exact h.mono rfl (List.Subset.refl _) hclock
  | retry datagram accepts header token hheader hinitial htoken hclock hmint =>
    intro input hinput
    rcases List.mem_append.mp hinput with hinput | hinput
    · obtain ⟨request, odcid, scid, token, hminted, heq⟩ := h input hinput
      exact ⟨request, odcid, scid, token,
        hminted.mono (List.subset_append_left _ _) hclock, heq⟩
    · refine ⟨datagram, header.dcid, connectionId seed header.dcid, token, ⟨⟨accepts, by simp⟩,
        ⟨header, hheader, hinitial, htoken, rfl⟩, hmint, by simp, le_rfl⟩, ?_⟩
      exact List.mem_singleton.mp hinput

/-- A token that validates was minted for the same address, less than its lifetime
ago, and carries the destination id it was minted for. -/
theorem minted_of_validated (h : SignedForRetry key past s) {datagram : Datagram}
    {header : PacketHeader} {token odcid : Bytes} {accepts : Bool}
    (hheader : datagram.header = some header) (htoken : header.token = some token)
    (hunforged : Unforged key s (.received datagram accepts))
    (hclock : s.clock ≤ datagram.now)
    (hvalid : validateAt key token header.dcid datagram.source datagram.now = some odcid) :
    ∃ request, Minted key past s request odcid header.dcid token ∧
      request.source = datagram.source ∧ request.now ≤ datagram.now ∧
      datagram.now < request.now + ttlMillis * 10 ^ 6 := by
  obtain ⟨hsized, issued, millis, hissued, rfl, hmillis, hle, hlt⟩ := validateAt_eq_some_iff.mp hvalid
  obtain ⟨hcovers, htag⟩ := authenticated_append key (tokenBody issued odcid) header.dcid
    datagram.source (authenticationInput (tokenBody issued odcid) header.dcid datagram.source)
  have hsigned := hunforged header _ hheader htoken (by simp [key.sign_length])
    (by rw [htag, hcovers]; exact decide_eq_true rfl)
  obtain ⟨request, odcid', scid, token', hminted, heq⟩ := h _ hsigned
  obtain ⟨hsized', issued', hissued', rfl⟩ := mintAt_eq_some_iff.mp hminted.minted
  rw [hcovers, (authenticated_append key _ _ _ _).1] at heq
  obtain ⟨hbody, rfl, hsource⟩ := authenticationInput_injective
    (hsized.retryCid.trans hsized'.retryCid.symm) heq
  obtain ⟨hdiv, hlt'⟩ := asMillis_eq_some_iff.mp hissued'
  obtain ⟨hdiv', -⟩ := asMillis_eq_some_iff.mp hmillis
  obtain ⟨rfl, rfl⟩ := tokenBody_injective hissued hlt' hbody
  refine ⟨request, ?_, hsource.symm, hminted.before.trans hclock, ?_⟩
  · rw [hsource]
    exact hminted
  · simp only [ttlMillis] at hlt ⊢
    omega

end Steps

/-- The Initial `datagram` for `scid` shows the token of a Retry with that id, which
the server sent to the same address less than 30000 ms before, for an Initial for
`odcid`. -/
def AddressValidated (key : Hmac) (past : List Action) (s : State) (datagram : Datagram)
    (scid odcid : Bytes) : Prop :=
  (∃ header, datagram.header = some header ∧ header.type = .initial ∧ header.dcid = scid) ∧
  ∃ request token, Minted key past s request odcid scid token ∧
    request.source = datagram.source ∧ request.now ≤ datagram.now ∧
    datagram.now < request.now + 30000 * 10 ^ 6

/-- Every connection is opened for a validated address, and an Initial of a
supported version with a token that does not validate does nothing. -/
theorem connections_address_validated {key seed : Hmac} {versionIsSupported : Nat → Bool}
    {past : List Action} {a : Action} {s t : State}
    (hrun : exec (step key seed versionIsSupported) {} past = some s)
    (hunforged : Every (step key seed versionIsSupported) (Unforged key) {} (past ++ [a]))
    (hstep : step key seed versionIsSupported s a = some t) :
    (∀ scid client, s.clients scid ≠ some client → t.clients scid = some client →
      a = .received client.accepted true ∧ client.scid = scid ∧
        AddressValidated key past s client.accepted scid client.odcid) ∧
    (∀ datagram accepts header token, a = .received datagram accepts →
      datagram.header = some header → header.type = .initial →
      versionIsSupported header.version = true → ¬ s.Known seed header.dcid →
      header.token = some token → token ≠ [] →
      validateAt key token header.dcid datagram.source datagram.now = none →
      t.clients = s.clients ∧ t.replies = s.replies) := by
  have hsigned : SignedForRetry key past s :=
    exec_history (P := SignedForRetry key) (fun _ h => absurd h List.not_mem_nil)
      (fun _ _ _ _ h hstep => signedForRetry_step h hstep) hrun
  refine ⟨fun scid client hold hnew => ?_, ?_⟩
  · cases step_handled hstep with
    | quiet _ _ _ hclients => exact absurd (hclients scid client hnew) hold
    | retry => exact absurd hnew hold
    | accepted datagram header token odcid hheader hinitial htoken hclock hvalid =>
      have hnew : s.clients.insert header.dcid ⟨header.dcid, odcid, datagram⟩ scid = some client := hnew
      rw [PMap.insert_apply] at hnew
      split at hnew
      · rename_i heq
        cases hnew
        subst heq
        have hlast := hunforged.last hrun
        obtain ⟨request, hminted, hsource, hbefore, hfresh⟩ :=
          minted_of_validated hsigned hheader htoken hlast hclock hvalid
        exact ⟨rfl, rfl, ⟨header, hheader, hinitial, rfl⟩, request, token, hminted, hsource,
          hbefore, hfresh⟩
      · exact absurd hnew hold
  · rintro datagram accepts header token rfl hheader hinitial hversion hknown htoken hne hinvalid
    simp only [step] at hstep
    split at hstep
    · have hknown' : ¬ State.Known { s with clock := datagram.now } seed header.dcid := hknown
      cases token with
      | nil => exact absurd rfl hne
      | cons b bs =>
        simp only [hheader, hinitial, hversion, hknown', if_false, ne_eq, not_true_eq_false,
          Bool.true_eq_false, openConnection, htoken, hinvalid, Option.some.injEq] at hstep
        subst hstep
        exact ⟨rfl, rfl⟩
    · cases hstep

/-- A key whose tag is the number that the input is. -/
def numberKey : Hmac where
  sign input := toBytes 32 (fromBytes input)
  sign_length _ := toBytes_length _ _

def loopback : SocketAddr := ⟨.v4 ⟨[127, 0, 0, 1], rfl⟩, 443⟩

/-- An Initial of a client that has no token yet. -/
def firstInitial : Datagram where
  header := some ⟨.initial, 1, [9], List.replicate 8 7, some []⟩
  source := loopback
  now := 0

/-- Its answer to the Retry, one nanosecond before the token expires. -/
def secondInitial : Datagram :=
  let scid := connectionId numberKey (List.replicate 8 7)
  { header := some ⟨.initial, 1, [9], scid, mintAt numberKey (List.replicate 8 7) scid loopback 0⟩
    source := loopback
    now := 30000 * 10 ^ 6 - 1 }

theorem connections_address_validated_answered : ∃ s t client,
    exec (step numberKey numberKey (· == 1)) {} [.received firstInitial true] = some s ∧
    step numberKey numberKey (· == 1) s (.received secondInitial true) = some t ∧
    t.clients (connectionId numberKey (List.replicate 8 7)) = some client ∧
    AddressValidated numberKey [.received firstInitial true] s client.accepted
      (connectionId numberKey (List.replicate 8 7)) client.odcid := by
  have hfirst : ((step numberKey numberKey (· == 1) {} (.received firstInitial true)).any fun s =>
      (s.clients (connectionId numberKey (List.replicate 8 7))).isNone &&
      decide (authenticated ((mintAt numberKey (List.replicate 8 7)
          (connectionId numberKey (List.replicate 8 7)) loopback 0).getD [])
        (connectionId numberKey (List.replicate 8 7)) loopback ∈ s.signed) &&
      (step numberKey numberKey (· == 1) s (.received secondInitial true)).any fun t =>
        (t.clients (connectionId numberKey (List.replicate 8 7))).isSome) = true := by
    decide +kernel
  obtain ⟨s, hs, hfacts⟩ := (Option.any_eq_true _ _).mp hfirst
  simp only [Bool.and_eq_true, decide_eq_true_eq, Option.isNone_iff_eq_none] at hfacts
  obtain ⟨⟨hnone, hsigned⟩, hsecond⟩ := hfacts
  obtain ⟨t, ht, hclient⟩ := (Option.any_eq_true _ _).mp hsecond
  obtain ⟨client, hclient⟩ := Option.isSome_iff_exists.mp hclient
  have hrun : exec (step numberKey numberKey (· == 1)) {} [.received firstInitial true] = some s := by
    rw [exec_cons, hs, Option.bind_some, exec_nil]
  have hunforged : Every (step numberKey numberKey (· == 1)) (Unforged numberKey) {}
      ([.received firstInitial true] ++ [.received secondInitial true]) := by
    refine ⟨?_, fun u hu => ⟨?_, fun _ _ => trivial⟩⟩
    · intro header token hheader htoken hlen
      cases hheader
      cases htoken
      exact absurd hlen (by decide)
    · intro header token hheader htoken _ _
      cases hheader
      obtain rfl := Option.some.inj (hs.symm.trans hu)
      have htoken : mintAt numberKey (List.replicate 8 7)
        (connectionId numberKey (List.replicate 8 7)) loopback 0 = some token := htoken
      rw [htoken, Option.getD_some] at hsigned
      exact hsigned
  exact ⟨s, t, client, hrun, ht, hclient, ((connections_address_validated hrun hunforged ht).1 _ client
    (by rw [hnone]; nofun) hclient).2.2⟩

/-- Version negotiation comes before the token is looked at. -/
theorem unsupported_version_answered : ∃ t, step numberKey numberKey (· == 1) {}
      (.received { firstInitial with header := some ⟨.initial, 2, [9], [7], some [1]⟩ } true) = some t ∧
    validateAt numberKey [1] [7] loopback 0 = none ∧ t.replies ≠ [] :=
  ⟨_, rfl, rfl, nofun⟩

end FacesHttp3.Retry
