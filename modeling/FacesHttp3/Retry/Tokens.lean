import FacesHttp3.Lib.BigEndian
import FacesHttp3.Request

/-! # Retry tokens

Address validation: a token says when it was issued and for which first
destination id, and its tag binds it to the Retry's connection id and to the
address it was sent to. The tag is HMAC-SHA256 under a key of this process, here
any function to 32 bytes. -/

namespace FacesHttp3.Retry
open FacesHttp3.Lib FacesHttp3.Lib.BigEndian FacesHttp3.Request

def version : UInt8 := 1
def headerLen : Nat := 10
def tagLen : Nat := 32
def minOdcidLen : Nat := 8
def maxConnIdLen : Nat := 20
def ttlMillis : Nat := 30000
def domain : Bytes := ascii "faces-quic-retry-v1" ++ [0]

/-- A key: verification succeeds exactly on the tag that signing makes. -/
structure Hmac where
  sign : Bytes → Bytes
  sign_length : ∀ input, (sign input).length = tagLen

def Hmac.verify (key : Hmac) (input tag : Bytes) : Bool := decide (tag = key.sign input)

abbrev Octets (n : Nat) := { bytes : Bytes // bytes.length = n }

inductive IpAddr
  | v4 (octets : Octets 4)
  | v6 (octets : Octets 16)
  deriving DecidableEq

structure SocketAddr where
  ip : IpAddr
  port : UInt16
  deriving DecidableEq

/-- `as_millis` of a time in nanoseconds, as far as it fits 64 bits. -/
def asMillis (now : Nat) : Option Nat :=
  let millis := now / 10 ^ 6
  if millis < 2 ^ 64 then some millis else none

/-! ## What a tag covers -/

def IpAddr.bytes : IpAddr → Bytes
  | .v4 octets => 4 :: octets.1
  | .v6 octets => 6 :: octets.1

def authenticationInput (body retryCid : Bytes) (source : SocketAddr) : Bytes :=
  domain ++ source.ip.bytes ++ toBytes 2 source.port.toNat ++ retryCid ++ body

/-- The family tag tells how long the address is. -/
theorem IpAddr.bytes_append_injective {ip ip' : IpAddr} {rest rest' : Bytes}
    (h : ip.bytes ++ rest = ip'.bytes ++ rest') : ip = ip' ∧ rest = rest' := by
  cases ip with
  | v4 octets =>
    cases ip' with
    | v4 octets' =>
      simp only [bytes, List.cons_append, List.cons.injEq, true_and] at h
      obtain ⟨ho, hrest⟩ := List.append_inj h (octets.2.trans octets'.2.symm)
      exact ⟨congrArg IpAddr.v4 (Subtype.ext ho), hrest⟩
    | v6 octets' => simp [bytes] at h
  | v6 octets =>
    cases ip' with
    | v4 octets' => simp [bytes] at h
    | v6 octets' =>
      simp only [bytes, List.cons_append, List.cons.injEq, true_and] at h
      obtain ⟨ho, hrest⟩ := List.append_inj h (octets.2.trans octets'.2.symm)
      exact ⟨congrArg IpAddr.v6 (Subtype.ext ho), hrest⟩

/-- Family tags, the fixed widths of port and Retry connection id and the rest as
the body make the encoding unambiguous. -/
theorem authenticationInput_injective {body body' retryCid retryCid' : Bytes}
    {source source' : SocketAddr} (hcid : retryCid.length = retryCid'.length)
    (h : authenticationInput body retryCid source = authenticationInput body' retryCid' source') :
    body = body' ∧ retryCid = retryCid' ∧ source = source' := by
  simp only [authenticationInput, List.append_assoc] at h
  obtain ⟨hip, h⟩ := IpAddr.bytes_append_injective (List.append_cancel_left h)
  obtain ⟨hport, h⟩ := List.append_inj h (by simp)
  obtain ⟨hretry, hbody⟩ := List.append_inj h hcid
  have hlt : ∀ port : UInt16, port.toNat < 256 ^ 2 := fun port => port.toNat_lt
  have hsame := UInt16.toNat_inj.mp (toBytes_injective (hlt _) (hlt _) hport)
  cases source with
  | mk ip port =>
    cases source' with
    | mk ip' port' =>
      dsimp only at hip hsame
      exact ⟨hbody, hretry, by rw [hip, hsame]⟩

/-! ## Minting and validating -/

/-- The token before its tag. -/
def tokenBody (issued : Nat) (odcid : Bytes) : Bytes :=
  version :: toBytes 8 issued ++ UInt8.ofNat odcid.length :: odcid

def mintAt (key : Hmac) (odcid retryCid : Bytes) (source : SocketAddr) (now : Nat) :
    Option Bytes :=
  -- the server always emits a Retry connection id of full length
  if ¬ (minOdcidLen ≤ odcid.length ∧ odcid.length ≤ maxConnIdLen) ∨
      retryCid.length ≠ maxConnIdLen then none
  else do
    let issued ← asMillis now
    let body := tokenBody issued odcid
    some (body ++ key.sign (authenticationInput body retryCid source))

def validateAt (key : Hmac) (token retryCid : Bytes) (source : SocketAddr) (now : Nat) :
    Option Bytes :=
  if ¬ (headerLen + minOdcidLen + tagLen ≤ token.length ∧
      token.length ≤ headerLen + maxConnIdLen + tagLen) ∨
      retryCid.length ≠ maxConnIdLen then none
  else do
    let header := token.take headerLen
    let odcidLen := (← header[9]?).toNat
    let first ← header.head?
    if first ≠ version ∨ ¬ (minOdcidLen ≤ odcidLen ∧ odcidLen ≤ maxConnIdLen) ∨
        token.length ≠ headerLen + odcidLen + tagLen then none
    else
      let bodyLen := headerLen + odcidLen
      let input := authenticationInput (token.take bodyLen) retryCid source
      if key.verify input (token.drop bodyLen) then do
        let issued := fromBytes ((header.drop 1).take 8)
        let now ← asMillis now
        if issued ≤ now ∧ now - issued < ttlMillis then
          some ((token.take bodyLen).drop headerLen)
        else none
      else none

/-- The lengths that mint and validation bound. -/
structure Sized (odcid retryCid : Bytes) : Prop where
  odcid_min : minOdcidLen ≤ odcid.length
  odcid_max : odcid.length ≤ maxConnIdLen
  retryCid : retryCid.length = maxConnIdLen

theorem asMillis_eq_some_iff {now : Nat} {millis : Nat} :
    asMillis now = some millis ↔ now / 10 ^ 6 = millis ∧ millis < 2 ^ 64 := by
  unfold asMillis
  dsimp only
  split <;> constructor <;> intro h
  · cases h
    exact ⟨rfl, by assumption⟩
  · rw [h.1]
  · cases h
  · omega

theorem mintAt_eq_some_iff {key : Hmac} {odcid retryCid token : Bytes} {source : SocketAddr}
    {now : Nat} : mintAt key odcid retryCid source now = some token ↔
      Sized odcid retryCid ∧ ∃ issued, asMillis now = some issued ∧
        token = tokenBody issued odcid ++
          key.sign (authenticationInput (tokenBody issued odcid) retryCid source) := by
  unfold mintAt
  split
  · rename_i hsize
    constructor
    · intro h
      cases h
    · rintro ⟨⟨hmin, hmax, hcid⟩, -⟩
      exact absurd hsize (by simp [hmin, hmax, hcid])
  · rename_i hsize
    have hsized : Sized odcid retryCid := by
      constructor <;> grind
    constructor
    · intro h
      obtain ⟨issued, hissued, h⟩ := Option.bind_eq_some_iff.mp h
      exact ⟨hsized, issued, hissued, (Option.some.inj h).symm⟩
    · rintro ⟨-, issued, hissued, rfl⟩
      exact Option.bind_eq_some_iff.mpr ⟨issued, hissued, rfl⟩

@[simp] theorem tokenBody_length (issued : Nat) (odcid : Bytes) :
    (tokenBody issued odcid).length = headerLen + odcid.length := by
  simp [tokenBody, headerLen]
  omega

/-- Version, issue time and length come first. -/
theorem tokenBody_header (issued : Nat) (odcid rest : Bytes) :
    (tokenBody issued odcid ++ rest).take headerLen =
        version :: toBytes 8 issued ++ [UInt8.ofNat odcid.length] ∧
      (tokenBody issued odcid ++ rest).drop headerLen = odcid ++ rest := by
  have hlen : (version :: toBytes 8 issued ++ [UInt8.ofNat odcid.length]).length = headerLen := by
    simp [headerLen]
  have happ : tokenBody issued odcid ++ rest =
      (version :: toBytes 8 issued ++ [UInt8.ofNat odcid.length]) ++ (odcid ++ rest) := by
    simp [tokenBody]
  rw [happ, ← hlen]
  exact ⟨List.take_left, List.drop_left⟩

/-- Ten bytes are a first byte, eight bytes and a last one. -/
theorem header_split {header : Bytes} (h : header.length = headerLen) :
    ∃ first last, header.head? = some first ∧ header[9]? = some last ∧
      header = first :: (header.drop 1).take 8 ++ [last] := by
  match header, h with
  | [a, _, _, _, _, _, _, _, _, j], _ => exact ⟨a, j, rfl, rfl, rfl⟩

/-- Bytes of the right shape are the body of a token. -/
theorem eq_tokenBody {issued odcid : Bytes} {last : UInt8} (hissued : issued.length = 8)
    (hlast : odcid.length = last.toNat) :
    version :: issued ++ last :: odcid = tokenBody (fromBytes issued) odcid := by
  have hround : toBytes 8 (fromBytes issued) = issued := by
    rw [← hissued, toBytes_fromBytes]
  rw [tokenBody, hround, hlast, UInt8.ofNat_toNat]

/-- The fields that validation reads off a token make up its body. -/
theorem take_eq_tokenBody {token : Bytes} {last : UInt8}
    (hlen : headerLen + last.toNat ≤ token.length)
    (hsplit : token.take headerLen = version :: ((token.take headerLen).drop 1).take 8 ++ [last]) :
    token.take (headerLen + last.toNat) =
      tokenBody (fromBytes (((token.take headerLen).drop 1).take 8))
        ((token.take (headerLen + last.toNat)).drop headerLen) := by
  have hheader : (token.take (headerLen + last.toNat)).take headerLen = token.take headerLen := by
    rw [List.take_take]
    congr 1
    omega
  have hlast : ((token.take (headerLen + last.toNat)).drop headerLen).length = last.toNat := by
    simp only [List.length_drop, List.length_take]
    omega
  have hissued : (((token.take headerLen).drop 1).take 8).length = 8 := by
    simp only [List.length_take, List.length_drop, headerLen] at hlen ⊢
    omega
  rw [← eq_tokenBody hissued hlast]
  calc token.take (headerLen + last.toNat)
      = token.take headerLen ++ (token.take (headerLen + last.toNat)).drop headerLen := by
        rw [← hheader, List.take_append_drop]
    _ = version :: ((token.take headerLen).drop 1).take 8 ++ [last] ++ _ :=
        congrArg (· ++ _) hsplit
    _ = _ := by simp

/-- A token is accepted exactly if its body and tag are those of a minted one and
it is not too old; then it carries the original destination id. -/
theorem validateAt_eq_some_iff {key : Hmac} {token retryCid odcid : Bytes} {source : SocketAddr}
    {now : Nat} : validateAt key token retryCid source now = some odcid ↔
      Sized odcid retryCid ∧ ∃ issued millis, issued < 2 ^ 64 ∧
        token = tokenBody issued odcid ++
          key.sign (authenticationInput (tokenBody issued odcid) retryCid source) ∧
        asMillis now = some millis ∧ issued ≤ millis ∧ millis - issued < ttlMillis := by
  constructor
  · intro h
    unfold validateAt at h
    split at h
    · cases h
    rename_i hsize
    simp only [not_or, not_not] at hsize
    obtain ⟨⟨hmin, hmax⟩, hcid⟩ := hsize
    have hheader : (token.take headerLen).length = headerLen := by
      simp only [List.length_take, headerLen, tagLen, minOdcidLen] at hmin ⊢
      omega
    obtain ⟨first, last, hfirst, hlast, hsplit⟩ := header_split hheader
    simp only [hlast, hfirst, Option.bind_eq_bind, Option.bind_some] at h
    split at h
    · cases h
    rename_i hform
    simp only [not_or, not_not] at hform
    obtain ⟨rfl, ⟨hmin', hmax'⟩, hlen⟩ := hform
    split at h
    · rename_i hverify
      obtain ⟨millis, hmillis, h⟩ := Option.bind_eq_some_iff.mp h
      split at h
      · rename_i hfresh
        have hbody := take_eq_tokenBody (by omega) hsplit
        have hissued := fromBytes_lt (((token.take headerLen).drop 1).take 8)
        have htag : token.drop (headerLen + last.toNat) = _ := of_decide_eq_true hverify
        have hodcid : ((token.take (headerLen + last.toNat)).drop headerLen).length = last.toNat := by
          simp only [List.length_drop, List.length_take]
          omega
        obtain rfl := Option.some.inj h
        refine ⟨⟨by omega, by omega, hcid⟩, _, millis, ?_, ?_, hmillis, hfresh⟩
        · refine hissued.trans_le ?_
          rw [show (2 : Nat) ^ 64 = 256 ^ 8 from rfl]
          exact Nat.pow_le_pow_right (by omega) (List.length_take_le _ _)
        · rw [← hbody, ← htag, List.take_append_drop]
      · cases h
    · cases h
  · rintro ⟨⟨hmin, hmax, hcid⟩, issued, millis, hissued, rfl, hmillis, hle, hlt⟩
    have htag := key.sign_length (authenticationInput (tokenBody issued odcid) retryCid source)
    generalize htag' : key.sign (authenticationInput (tokenBody issued odcid) retryCid source) = tag
      at htag
    have hlast : (UInt8.ofNat odcid.length).toNat = odcid.length := by
      rw [UInt8.toNat_ofNat']
      simp only [maxConnIdLen] at hmax
      omega
    have hheader := (tokenBody_header issued odcid tag).1
    have hlen : (tokenBody issued odcid ++ tag).length = headerLen + odcid.length + tagLen := by
      simp [htag]
    have htake : (tokenBody issued odcid ++ tag).take (headerLen + odcid.length) =
        tokenBody issued odcid := by
      rw [← tokenBody_length issued odcid, List.take_left]
    have hdrop : (tokenBody issued odcid ++ tag).drop (headerLen + odcid.length) = tag := by
      rw [← tokenBody_length issued odcid, List.drop_left]
    have hodcid : (tokenBody issued odcid).drop headerLen = odcid := by
      simpa using (tokenBody_header issued odcid []).2
    have hround : fromBytes (toBytes 8 issued) = issued := fromBytes_toBytes hissued
    unfold validateAt
    rw [if_neg (by rw [hlen]; simp only [not_or, not_not]; omega)]
    simp [hheader, hlast, hlen, hmin, hmax, htake, hdrop, Hmac.verify, htag', hround, hmillis, hle,
      hlt, hodcid]

end FacesHttp3.Retry
