import Mathlib.Data.List.Induction
import Mathlib.Tactic.Ring

/-! # Big-endian bytes

Numbers as byte strings of a fixed width, most significant byte first, and the
value of a byte string. -/

namespace FacesHttp3.Lib.BigEndian

/-- The `width` lowest bytes of `n`. -/
def toBytes : Nat → Nat → List UInt8
  | 0, _ => []
  | width + 1, n => toBytes width (n / 256) ++ [UInt8.ofNat n]

def fromBytes (bytes : List UInt8) : Nat := bytes.foldl (fun n b => 256 * n + b.toNat) 0

@[simp] theorem toBytes_length (width n : Nat) : (toBytes width n).length = width := by
  induction width generalizing n with
  | zero => rfl
  | succ width ih => simp [toBytes, ih]

@[simp] theorem fromBytes_snoc (bytes : List UInt8) (b : UInt8) :
    fromBytes (bytes ++ [b]) = 256 * fromBytes bytes + b.toNat := by
  simp [fromBytes]

theorem fromBytes_toBytes {width n : Nat} (h : n < 256 ^ width) :
    fromBytes (toBytes width n) = n := by
  induction width generalizing n with
  | zero =>
    have hn : n = 0 := by simpa using h
    rw [hn]
    rfl
  | succ width ih =>
    have hdiv : n / 256 < 256 ^ width := Nat.div_lt_of_lt_mul (by rwa [pow_succ'] at h)
    rw [toBytes, fromBytes_snoc, ih hdiv, UInt8.toNat_ofNat']
    omega

theorem fromBytes_lt (bytes : List UInt8) : fromBytes bytes < 256 ^ bytes.length := by
  induction bytes using List.reverseRecOn with
  | nil => simp [fromBytes]
  | append_singleton bytes b ih =>
    have hb : b.toNat < 256 := b.toNat_lt
    rw [fromBytes_snoc, List.length_append, List.length_singleton, pow_succ]
    omega

theorem toBytes_fromBytes (bytes : List UInt8) :
    toBytes bytes.length (fromBytes bytes) = bytes := by
  induction bytes using List.reverseRecOn with
  | nil => rfl
  | append_singleton bytes b ih =>
    have hb : b.toNat < 256 := b.toNat_lt
    have hdiv : (256 * fromBytes bytes + b.toNat) / 256 = fromBytes bytes := by omega
    have hlow : UInt8.ofNat (256 * fromBytes bytes + b.toNat) = b := by
      apply UInt8.toNat_inj.mp
      rw [UInt8.toNat_ofNat']
      omega
    rw [List.length_append, List.length_singleton, toBytes, fromBytes_snoc, hdiv, ih, hlow]

theorem toBytes_injective {width n k : Nat} (hn : n < 256 ^ width) (hk : k < 256 ^ width)
    (h : toBytes width n = toBytes width k) : n = k := by
  rw [← fromBytes_toBytes hn, h, fromBytes_toBytes hk]

example : toBytes 2 443 = [1, 187] := rfl

end FacesHttp3.Lib.BigEndian
