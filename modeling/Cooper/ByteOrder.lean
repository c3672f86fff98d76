import Mathlib.Algebra.Group.Nat.Defs
import Mathlib.Tactic.Common

namespace Cooper.ByteOrder

/-- Which byte of an integer comes first in memory. -/
inductive Endian
  | little
  | big
  deriving DecidableEq

def littleEndian : (n value : Nat) → List UInt8
  | 0, _ => []
  | n + 1, value => UInt8.ofNat value :: littleEndian n (value / 256)

def bigEndian (n value : Nat) : List UInt8 := (littleEndian n value).reverse

def ofLittleEndian : List UInt8 → Nat
  | [] => 0
  | byte :: bytes => byte.toNat + 256 * ofLittleEndian bytes

def toMemory : Endian → (n value : Nat) → List UInt8
  | .little, n, value => littleEndian n value
  | .big, n, value => bigEndian n value

def ofMemory : Endian → List UInt8 → Nat
  | .little, bytes => ofLittleEndian bytes
  | .big, bytes => ofLittleEndian bytes.reverse

/-- Exchange the order of the `n` bytes of a number where it is not the network byte order. -/
def toNetwork : Endian → (n value : Nat) → Nat
  | .little, n, value => ofLittleEndian (bigEndian n value)
  | .big, _, value => value

variable {host : Endian} {n value : Nat}

@[simp] theorem length_littleEndian (n value : Nat) : (littleEndian n value).length = n := by
  induction n generalizing value with
  | zero => rfl
  | succ n ih => rw [littleEndian, List.length_cons, ih]

@[simp] theorem length_bigEndian (n value : Nat) : (bigEndian n value).length = n := by
  rw [bigEndian, List.length_reverse, length_littleEndian]

@[simp] theorem length_toMemory (host : Endian) (n value : Nat) :
    (toMemory host n value).length = n := by
  cases host with
  | little => exact length_littleEndian n value
  | big => exact length_bigEndian n value

theorem ofLittleEndian_littleEndian (hvalue : value < 256 ^ n) :
    ofLittleEndian (littleEndian n value) = value := by
  induction n generalizing value with
  | zero =>
      rw [Nat.pow_zero, Nat.lt_one_iff] at hvalue
      rw [hvalue]
      rfl
  | succ n ih =>
      have hrest : value / 256 < 256 ^ n := by
        rw [Nat.pow_succ] at hvalue
        exact Nat.div_lt_of_lt_mul (Nat.mul_comm _ _ ▸ hvalue)
      rw [littleEndian, ofLittleEndian, ih hrest, UInt8.toNat_ofNat']
      omega

theorem ofLittleEndian_lt (bytes : List UInt8) : ofLittleEndian bytes < 256 ^ bytes.length := by
  induction bytes with
  | nil => exact Nat.one_pos
  | cons byte bytes ih =>
      have hbyte := byte.toNat_lt
      rw [ofLittleEndian, List.length_cons, Nat.pow_succ]
      omega

theorem littleEndian_ofLittleEndian (bytes : List UInt8) :
    littleEndian bytes.length (ofLittleEndian bytes) = bytes := by
  induction bytes with
  | nil => rfl
  | cons byte bytes ih =>
      have hbyte := byte.toNat_lt
      have hrest : (byte.toNat + 256 * ofLittleEndian bytes) / 256 = ofLittleEndian bytes := by
        omega
      have hfirst : UInt8.ofNat (byte.toNat + 256 * ofLittleEndian bytes) = byte := by
        apply UInt8.toNat_inj.mp
        rw [UInt8.toNat_ofNat']
        omega
      rw [ofLittleEndian, List.length_cons, littleEndian, hrest, hfirst, ih]

theorem ofMemory_toMemory (host : Endian) (hvalue : value < 256 ^ n) :
    ofMemory host (toMemory host n value) = value := by
  cases host with
  | little => exact ofLittleEndian_littleEndian hvalue
  | big =>
      rw [ofMemory, toMemory, bigEndian, List.reverse_reverse]
      exact ofLittleEndian_littleEndian hvalue

theorem toNetwork_lt (host : Endian) (hvalue : value < 256 ^ n) :
    toNetwork host n value < 256 ^ n := by
  cases host with
  | little =>
      have hlt := ofLittleEndian_lt (bigEndian n value)
      rwa [length_bigEndian] at hlt
  | big => exact hvalue

theorem toMemory_toNetwork (host : Endian) (n value : Nat) :
    toMemory host n (toNetwork host n value) = bigEndian n value := by
  cases host with
  | little =>
      have hback := littleEndian_ofLittleEndian (bigEndian n value)
      rwa [length_bigEndian] at hback
  | big => rfl

theorem toNetwork_toNetwork (host : Endian) (hvalue : value < 256 ^ n) :
    toNetwork host n (toNetwork host n value) = value := by
  cases host with
  | little =>
      have hback := littleEndian_ofLittleEndian (bigEndian n value)
      rw [length_bigEndian] at hback
      rw [toNetwork, toNetwork, bigEndian, hback, bigEndian, List.reverse_reverse]
      exact ofLittleEndian_littleEndian hvalue
  | big => rfl

end Cooper.ByteOrder
