import Mathlib.Algebra.Ring.Int.Defs
import EnerSentry.Lib.Packing

/-!
Points of the plant: where a point's value lies in the registers of its slave, and how
registers become an engineering value. Values live in any number system `K`; how the
machine's numbers are read into it is a parameter.
-/

namespace EnerSentry.Protocol
open EnerSentry.Lib.Packing

inductive RegisterType where
  | coil | discreteInput | holdingRegister | inputRegister
  deriving DecidableEq, Repr

inductive DataType where
  | bool | int16 | uint16 | int32 | float32 | float64
  deriving DecidableEq, Repr

inductive ByteOrder where
  | abcd | badc | cdab | dcba
  deriving DecidableEq, Repr

structure PointRuntime (K : Type*) where
  pointId : UInt32 := 0
  slaveAddress : UInt8 := 0
  regType : RegisterType := .holdingRegister
  dataType : DataType := .uint16
  byteOrder : ByteOrder := .abcd
  registerAddr : UInt16 := 0
  scaleFactor : K
  offset : K
  enabled : Bool := true
  deriving DecidableEq, Repr

/-- How integers and the bit patterns of IEEE numbers are read as values. -/
structure Conversions (K : Type*) where
  ofInt : Int → K
  ofFloat : UInt32 → K
  ofDouble : UInt64 → K

namespace RegisterType

/-- The place of a register type in the order of its enumeration. -/
def rank : RegisterType → Nat
  | coil => 0
  | discreteInput => 1
  | holdingRegister => 2
  | inputRegister => 3

end RegisterType

namespace PointTable

def registerCountFor : DataType → Nat
  | .bool => 1
  | .int16 => 1
  | .uint16 => 1
  | .int32 => 2
  | .float32 => 2
  | .float64 => 4

/-- Exchanges word `i` of the lower half with its partner in the upper half. -/
def swapWords (buf : List UInt8) (regCount : Nat) (out : List UInt8) (i : Nat) : List UInt8 :=
  let src := 2 * i
  let dst := 2 * (i + regCount / 2)
  (((out.set dst (buf.getD src 0)).set (dst + 1) (buf.getD (src + 1) 0)).set src
    (buf.getD dst 0)).set (src + 1) (buf.getD (dst + 1) 0)

/-- The number of bytes written, and the caller's buffer after the writes. -/
def reassembleBytes (regs : List UInt16) (order : ByteOrder) (out : List UInt8) : Nat × List UInt8 :=
  let regCount := regs.length
  let need := regCount * 2
  if regCount = 0 ∨ 4 < regCount then (0, out)
  else if out.length < need then (0, out)
  else
    let buf := bytesOf regs
    match order with
    | .abcd => (need, buf ++ out.drop need)
    | .cdab => (need, (List.range (regCount / 2)).foldl (swapWords buf regCount) out)
    | .badc =>
        (need, (List.range regCount).foldl (fun out i =>
          (out.set (2 * i) (buf.getD (2 * i + 1) 0)).set (2 * i + 1) (buf.getD (2 * i) 0)) out)
    | .dcba => (need, (List.range need).foldl (fun out i => out.set i (buf.getD (need - 1 - i) 0)) out)

/-- The first `n` bytes as one number, the most significant byte first. -/
def beToHost (bytes : List UInt8) (n : Nat) : Nat :=
  (bytes.take n).foldl (fun acc b => acc * 256 + b.toNat) 0

/-- A number of `bits` bits read in two's complement. -/
def signed (bits n : Nat) : Int := if n < 2 ^ (bits - 1) then n else (n : Int) - 2 ^ bits

section Decode
variable {K : Type*} [Zero K] [One K] [Add K] [Mul K] (cv : Conversions K)

/-- The number behind the reassembled bytes, before scaling; `none` where they are too few. -/
def rawValue (bytes : List UInt8) (len : Nat) : DataType → Option K
  | .int16 => if len < 2 then none else some (cv.ofInt (signed 16 (beToHost bytes 2)))
  | .uint16 => if len < 2 then none else some (cv.ofInt (beToHost bytes 2))
  | .int32 => if len < 4 then none else some (cv.ofInt (signed 32 (beToHost bytes 4)))
  | .float32 => if len < 4 then none else some (cv.ofFloat (UInt32.ofNat (beToHost bytes 4)))
  | .float64 => if len < 8 then none else some (cv.ofDouble (UInt64.ofNat (beToHost bytes 8)))
  | .bool => some (if 1 ≤ len ∧ bytes.getD 0 0 ≠ 0 then 1 else 0)

def decodeToEngineering (bytes : List UInt8) (len : Nat) (dt : DataType) (scale offset : K) : K :=
  match rawValue cv bytes len dt with
  | none => 0
  | some v => v * scale + offset

end Decode
end PointTable
end EnerSentry.Protocol
