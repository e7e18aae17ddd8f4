import FacesHttp3.Retry.ReadLoop
import Mathlib.Data.Set.Function

/-! # What a token proves

Validation accepts the tokens of the last thirty seconds and nothing else: a
token that a mint could not have returned, or that was minted for another path,
is refused at every clock value. -/

namespace FacesHttp3.Retry
open FacesHttp3.Lib FacesHttp3.Lib.BigEndian FacesHttp3.Request

/-! ## The layout of a token -/

/-- The first byte is the version, and the tenth gives the total length. -/
structure Framed (token : Bytes) : Prop where
  version : token.head? = some version
  length : ∃ odcidLen : UInt8, token[9]? = some odcidLen ∧
    token.length = headerLen + odcidLen.toNat + tagLen

theorem framed_tokenBody {issued : Nat} {odcid tag : Bytes} (hmax : odcid.length ≤ maxConnIdLen)
    (htag : tag.length = tagLen) : Framed (tokenBody issued odcid ++ tag) := by
  have hlast : (UInt8.ofNat odcid.length).toNat = odcid.length := by
    rw [UInt8.toNat_ofNat']
    simp only [maxConnIdLen] at hmax
    omega
  have hlen : (tokenBody issued odcid ++ tag).length = headerLen + odcid.length + tagLen := by
    simp [htag]
  refine ⟨rfl, UInt8.ofNat odcid.length, ?_, by rw [hlen, hlast]⟩
  have hheader := (tokenBody_header issued odcid tag).1
  have hget : (tokenBody issued odcid ++ tag)[9]? =
      ((tokenBody issued odcid ++ tag).take headerLen)[9]? := by
    rw [List.getElem?_take_of_lt (by decide)]
  rw [hget, hheader]
  simp

theorem framed_of_minted {key : Hmac} {odcid retryCid token : Bytes} {source : SocketAddr}
    {now : Nat} (h : mintAt key odcid retryCid source now = some token) : Framed token := by
  obtain ⟨hsized, issued, -, rfl⟩ := mintAt_eq_some_iff.mp h
  exact framed_tokenBody hsized.odcid_max (key.sign_length _)

theorem framed_of_validated {key : Hmac} {odcid retryCid token : Bytes} {source : SocketAddr}
    {now : Nat} (h : validateAt key token retryCid source now = some odcid) : Framed token := by
  obtain ⟨hsized, issued, millis, -, rfl, -⟩ := validateAt_eq_some_iff.mp h
  exact framed_tokenBody hsized.odcid_max (key.sign_length _)

/-- Ways to spoil the layout of a token, whatever its tag becomes. -/
inductive Altered (token : Bytes) : Bytes → Prop
  | truncated (n : Nat) (h : n < token.length) : Altered token (token.take n)
  | extended (extra : Bytes) (h : extra ≠ []) : Altered token (token ++ extra)
  | reversioned (altered : Bytes) (h : altered.head? ≠ some version) : Altered token altered
  | relengthed (altered : Bytes) (h : altered[9]? ≠ token[9]?)
    (hlen : altered.length = token.length) : Altered token altered

theorem Altered.not_framed {token altered : Bytes} (h : Altered token altered)
    (htoken : Framed token) : ¬ Framed altered := by
  intro hframed
  obtain ⟨len, hlast, hlen⟩ := htoken.length
  obtain ⟨len', hlast', hlen'⟩ := hframed.length
  cases h with
  | truncated n hn =>
    by_cases hten : n ≤ 9
    · rw [List.getElem?_take_eq_none hten] at hlast'
      cases hlast'
    · rw [List.getElem?_take_of_lt (by omega), hlast] at hlast'
      cases hlast'
      rw [List.length_take] at hlen'
      omega
  | extended extra hextra =>
    have hten : 9 < token.length := by
      rw [hlen, headerLen]
      omega
    rw [List.getElem?_append_left hten, hlast] at hlast'
    cases hlast'
    have hpos := List.length_pos_of_ne_nil hextra
    rw [List.length_append] at hlen'
    omega
  | reversioned _ hversion => exact hversion hframed.version
  | relengthed _ hdiff hsame =>
    have hlens : len' = len := UInt8.toNat_inj.mp (by omega)
    exact hdiff (by rw [hlast, hlast', hlens])

/-! ## Acceptance -/

theorem asMillis_millis {millis : Nat} (h : millis < 2 ^ 64) :
    asMillis (millis * 10 ^ 6) = some millis :=
  asMillis_eq_some_iff.mpr ⟨Nat.mul_div_cancel _ (by decide), h⟩

/-- Validation accepts a token exactly if minting it, less than its lifetime before,
returns it. -/
theorem validateAt_iff_minted {key : Hmac} {token retryCid odcid : Bytes} {source : SocketAddr}
    {now : Nat} : validateAt key token retryCid source now = some odcid ↔
      ∃ millis issued, asMillis now = some millis ∧ issued ≤ millis ∧ millis < issued + ttlMillis ∧
        mintAt key odcid retryCid source (issued * 10 ^ 6) = some token := by
  constructor
  · intro h
    obtain ⟨hsized, issued, millis, hissued, htoken, hmillis, hle, hlt⟩ :=
      validateAt_eq_some_iff.mp h
    exact ⟨millis, issued, hmillis, hle, by omega,
      mintAt_eq_some_iff.mpr ⟨hsized, issued, asMillis_millis hissued, htoken⟩⟩
  · intro h
    obtain ⟨millis, issued, hmillis, hle, hlt, hmint⟩ := h
    obtain ⟨hsized, issued', hissued', htoken⟩ := mintAt_eq_some_iff.mp hmint
    have hissued : issued < 2 ^ 64 := hle.trans_lt (asMillis_eq_some_iff.mp hmillis).2
    obtain rfl := Option.some.inj ((asMillis_millis hissued).symm.trans hissued')
    exact validateAt_eq_some_iff.mpr
      ⟨hsized, issued, millis, hissued, htoken, hmillis, hle, by omega⟩

/-- Minting and validating are inverse to each other while the token lives, and a
token that lost its layout never validates. -/
theorem validateAt_accepts_exactly_minted (key : Hmac) :
    (∀ (token retryCid : Bytes) (source : SocketAddr) (now : Nat) (odcid : Bytes),
      validateAt key token retryCid source now = some odcid ↔
        ∃ millis issued, asMillis now = some millis ∧ issued ≤ millis ∧ millis < issued + 30000 ∧
          mintAt key odcid retryCid source (issued * 10 ^ 6) = some token) ∧
    (∀ (odcid retryCid : Bytes) (source : SocketAddr) (minted : Nat) (token : Bytes),
      mintAt key odcid retryCid source minted = some token →
        (∀ now millis issued, asMillis minted = some issued → asMillis now = some millis →
          issued ≤ millis → millis < issued + 30000 →
          validateAt key token retryCid source now = some odcid) ∧
        ∀ altered, Altered token altered → ∀ retryCid' source' now,
          validateAt key altered retryCid' source' now = none) := by
  refine ⟨fun token retryCid source now odcid => validateAt_iff_minted, ?_⟩
  intro odcid retryCid source minted token hmint
  refine ⟨?_, ?_⟩
  · intro now millis issued hissued hmillis hle hlt
    obtain ⟨hsized, issued', hissued', htoken⟩ := mintAt_eq_some_iff.mp hmint
    obtain rfl := Option.some.inj (hissued.symm.trans hissued')
    exact validateAt_eq_some_iff.mpr ⟨hsized, issued, millis,
      (asMillis_eq_some_iff.mp hissued).2, htoken, hmillis, hle, by simp only [ttlMillis]; omega⟩
  · intro altered haltered retryCid' source' now
    cases h : validateAt key altered retryCid' source' now with
    | none => rfl
    | some odcid' =>
      exact absurd (framed_of_validated h) (haltered.not_framed (framed_of_minted hmint))

/-! ## One path -/

section Binding
variable {key : Hmac} {inputs : Set Bytes}

/-- Without a collision among the inputs that were signed, a tag tells what it was
signed for. -/
theorem authenticated_eq_of_validated (hsign : Set.InjOn key.sign inputs)
    {odcid odcid' retryCid retryCid' token : Bytes} {source source' : SocketAddr} {minted now : Nat}
    (hmint : mintAt key odcid retryCid source minted = some token)
    (hvalid : validateAt key token retryCid' source' now = some odcid')
    (hinput : authenticated token retryCid source ∈ inputs)
    (hinput' : authenticated token retryCid' source' ∈ inputs) :
    retryCid' = retryCid ∧ source' = source := by
  obtain ⟨millis, issued, -, -, -, hmint'⟩ := validateAt_iff_minted.mp hvalid
  obtain ⟨hsized, i, -, htoken⟩ := mintAt_eq_some_iff.mp hmint
  obtain ⟨hsized', j, -, htoken'⟩ := mintAt_eq_some_iff.mp hmint'
  have hbodies : tokenBody i odcid = tokenBody j odcid' ∧ _ :=
    List.append_inj' (htoken.symm.trans htoken') (by rw [key.sign_length, key.sign_length])
  rw [htoken, (authenticated_append key _ _ _ _).1] at hinput
  rw [htoken', (authenticated_append key _ _ _ _).1] at hinput'
  have hsame := hsign hinput hinput' hbodies.2
  obtain ⟨-, hcid, hsource⟩ := authenticationInput_injective
    (hsized.retryCid.trans hsized'.retryCid.symm) hsame
  exact ⟨hcid.symm, hsource.symm⟩

/-- Two mints that return one token were made for one path at one millisecond. -/
theorem mintAt_injective (hsign : Set.InjOn key.sign inputs)
    {odcid odcid' retryCid retryCid' token : Bytes} {source source' : SocketAddr}
    {minted minted' : Nat} (h : mintAt key odcid retryCid source minted = some token)
    (h' : mintAt key odcid' retryCid' source' minted' = some token)
    (hinput : authenticated token retryCid source ∈ inputs)
    (hinput' : authenticated token retryCid' source' ∈ inputs) :
    odcid' = odcid ∧ retryCid' = retryCid ∧ source' = source ∧ asMillis minted' = asMillis minted := by
  obtain ⟨hsized, i, hi, htoken⟩ := mintAt_eq_some_iff.mp h
  obtain ⟨hsized', j, hj, htoken'⟩ := mintAt_eq_some_iff.mp h'
  have hvalid : validateAt key token retryCid' source' minted' = some odcid' :=
    validateAt_eq_some_iff.mpr ⟨hsized', j, j, (asMillis_eq_some_iff.mp hj).2, htoken', hj, le_rfl,
      by simp [ttlMillis]⟩
  obtain ⟨rfl, rfl⟩ := authenticated_eq_of_validated hsign h hvalid hinput hinput'
  have hbodies := (List.append_inj' (htoken.symm.trans htoken')
    (by rw [key.sign_length, key.sign_length])).1
  obtain ⟨rfl, rfl⟩ := tokenBody_injective (asMillis_eq_some_iff.mp hi).2
    (asMillis_eq_some_iff.mp hj).2 hbodies
  exact ⟨rfl, rfl, rfl, hj.trans hi.symm⟩

end Binding

/-- A token is bound to the Retry connection id and to the address it was minted
for, as long as the tag distinguishes the inputs it covers. -/
theorem token_bound_to_path (key : Hmac) (inputs : Set Bytes) (hsign : Set.InjOn key.sign inputs) :
    (∀ (odcid retryCid : Bytes) (source : SocketAddr) (minted : Nat) (token : Bytes),
      mintAt key odcid retryCid source minted = some token →
      authenticated token retryCid source ∈ inputs →
      ∀ (retryCid' : Bytes) (source' : SocketAddr) (now : Nat),
        (retryCid'.length = maxConnIdLen → authenticated token retryCid' source' ∈ inputs) →
        retryCid' ≠ retryCid ∨ source'.ip ≠ source.ip ∨ source'.port ≠ source.port →
        validateAt key token retryCid' source' now = none) ∧
    (∀ (odcid odcid' retryCid retryCid' : Bytes) (source source' : SocketAddr)
      (minted minted' : Nat) (token : Bytes),
      mintAt key odcid retryCid source minted = some token →
      mintAt key odcid' retryCid' source' minted' = some token →
      authenticated token retryCid source ∈ inputs → authenticated token retryCid' source' ∈ inputs →
      odcid' = odcid ∧ retryCid' = retryCid ∧ source' = source ∧
        asMillis minted' = asMillis minted) ∧
    (∀ (body body' : Bytes) (retryCid retryCid' : Octets 20) (source source' : SocketAddr),
      authenticationInput body retryCid source = authenticationInput body' retryCid' source' →
      body = body' ∧ retryCid = retryCid' ∧ source = source') := by
  refine ⟨?_, ?_, ?_⟩
  · intro odcid retryCid source minted token hmint hinput retryCid' source' now hinput' hother
    cases h : validateAt key token retryCid' source' now with
    | none => rfl
    | some odcid' =>
      have hcid := (validateAt_eq_some_iff.mp h).1.retryCid
      obtain ⟨rfl, rfl⟩ := authenticated_eq_of_validated hsign hmint h hinput (hinput' hcid)
      simp at hother
  · intro odcid odcid' retryCid retryCid' source source' minted minted' token h h' hinput hinput'
    exact mintAt_injective hsign h h' hinput hinput'
  · intro body body' retryCid retryCid' source source' h
    obtain ⟨hbody, hcid, hsource⟩ := authenticationInput_injective
      (retryCid.2.trans retryCid'.2.symm) h
    exact ⟨hbody, Subtype.ext hcid, hsource⟩

/-- The address as an IPv6 socket sees it. -/
def mappedLoopback : SocketAddr :=
  ⟨.v6 ⟨List.replicate 10 0 ++ [255, 255, 127, 0, 0, 1], rfl⟩, 443⟩

/-- A key whose tag is how long the input is: it tells the address families apart. -/
def lengthKey : Hmac where
  sign input := toBytes 32 input.length
  sign_length _ := toBytes_length _ _

theorem token_bound_to_path_mapped : ∃ token,
    mintAt lengthKey (List.replicate 8 7) (List.replicate 20 9) loopback 0 = some token ∧
    validateAt lengthKey token (List.replicate 20 9) mappedLoopback 0 = none := by
  have hminted : ((mintAt lengthKey (List.replicate 8 7) (List.replicate 20 9) loopback 0).any
      fun token =>
        decide (lengthKey.sign (authenticated token (List.replicate 20 9) loopback) ≠
          lengthKey.sign (authenticated token (List.replicate 20 9) mappedLoopback))) = true := by
    decide +kernel
  obtain ⟨token, htoken, hne⟩ := (Option.any_eq_true _ _).mp hminted
  refine ⟨token, htoken, ?_⟩
  have hsign : Set.InjOn lengthKey.sign
      {authenticated token (List.replicate 20 9) loopback,
        authenticated token (List.replicate 20 9) mappedLoopback} :=
    Set.injOn_pair.mpr fun heq => absurd heq (of_decide_eq_true hne)
  exact (token_bound_to_path lengthKey _ hsign).1 _ _ _ _ _ htoken (by simp) _ _ _ (by simp)
    (Or.inr (Or.inl (by decide)))

end FacesHttp3.Retry
