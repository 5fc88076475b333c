import Trustless.Ed25519.Point
import Trustless.Hash.Sha512

/-!
# Ed25519 signatures

A signature is a point `R` and a number `S` below the order of the base point. It holds for a key
`A` if `S B - h A` is written exactly as `R`, where `h` is the hash of `R`, the key and the message.
The key may be any point, also one of small order.
-/

namespace Trustless.Ed25519

/-- The order of the base point. -/
def groupOrder : Nat := (1 <<< 252) + 27742317777372353535851937790883648493

/-- The secret number of a seed: its highest bit is fixed and its lowest three are clear. -/
def secretNumber (h : ByteVector 64) : Nat :=
  let n := Bytes.toNat (h.toByteArray.extract 0 32)
  (1 <<< 254) + n % (1 <<< 254) / 8 * 8

/-- The bytes of the key that belongs to a seed. -/
def publicKey (seed : ByteVector 32) : ByteVector 32 :=
  (Point.base.times 255 (secretNumber (Hash.sha512 seed.toByteArray))).toBytes

/-- The hash of a message as a number below the group order. -/
def hashNumber (b : ByteArray) : Nat :=
  Bytes.toNat (Hash.sha512 b).toByteArray % groupOrder

/-- Signs a message with the key of a seed. -/
def sign (seed : ByteVector 32) (message : ByteArray) : ByteVector 64 :=
  let h := Hash.sha512 seed.toByteArray
  let a := secretNumber h
  let key := (Point.base.times 255 a).toBytes
  let r := hashNumber (h.toByteArray.extract 32 64 ++ message)
  let point := (Point.base.times 253 r).toBytes
  let k := hashNumber (point.toByteArray ++ key.toByteArray ++ message)
  point ++ Bytes.ofNat 32 ((r + k * a) % groupOrder)

/-- Whether a key's bytes are a point of the curve. -/
def isKey (key : ByteVector 32) : Bool :=
  (Point.ofBytes? key).isSome

/-- Whether a signature of a message holds for a key. -/
def verify (key : ByteVector 32) (message : ByteArray) (signature : ByteVector 64) : Bool :=
  let r := signature.toByteArray.extract 0 32
  let s := Bytes.toNat (signature.toByteArray.extract 32 64)
  match Point.ofBytes? key with
  | none => false
  | some a =>
    if s < groupOrder then
      let k := hashNumber (r ++ key.toByteArray ++ message)
      let found := (Point.base.times 253 s).plus (a.opposite.times 253 k)
      found.toBytes.toByteArray == r
    else false

end Trustless.Ed25519
