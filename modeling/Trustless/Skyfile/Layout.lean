import Trustless.Bytes.LittleEndian
import Trustless.Skyfile.Error

/-!
# The layout of a skyfile

The first 99 bytes of a skyfile tell the sizes of its parts and how it is encrypted.

* `Layout.encode`, `Layout.decode`: the bytes of a layout.
* `Layout.contentEnd`: where the file ends, in exact arithmetic.
-/

namespace Trustless.Skyfile

/-- The bytes of a layout. -/
def layoutSize : Nat := 99

/-- The sizes of the parts of a skyfile and its encryption. -/
structure Layout where
  version : UInt8
  fileSize : UInt64
  metadataSize : UInt64
  fanoutSize : UInt64
  dataPieces : UInt8
  parityPieces : UInt8
  cipherType : ByteVector 8
  keyData : ByteVector 64
deriving DecidableEq

namespace Layout

/-- The cipher type of a file that is not encrypted. -/
def plaintextCipher : ByteVector 8 :=
  ⟨⟨#[0, 0, 0, 0, 0, 0, 0, 1]⟩, rfl⟩

/-- The layout of a file that is not encrypted and has no fanout. -/
def plaintext (fileSize metadataSize : UInt64) : Layout where
  version := 1
  fileSize := fileSize
  metadataSize := metadataSize
  fanoutSize := 0
  dataPieces := 0
  parityPieces := 0
  cipherType := plaintextCipher
  keyData := .zero 64

/-- A single byte. -/
def byte (b : UInt8) : ByteVector 1 :=
  ⟨⟨#[b]⟩, rfl⟩

/-- The bytes of a layout. -/
def encode (l : Layout) : ByteVector layoutSize :=
  byte l.version ++ Bytes.ofU64 l.fileSize ++ Bytes.ofU64 l.metadataSize
    ++ Bytes.ofU64 l.fanoutSize ++ byte l.dataPieces ++ byte l.parityPieces
    ++ l.cipherType ++ l.keyData

/-- The layout in the first 99 bytes. -/
def decode (b : ByteArray) : Except SkyfileError Layout :=
  if h : layoutSize ≤ b.size then .ok {
    version := Bytes.byteAt b 0
    fileSize := Bytes.u64 b 1
    metadataSize := Bytes.u64 b 9
    fanoutSize := Bytes.u64 b 17
    dataPieces := Bytes.byteAt b 25
    parityPieces := Bytes.byteAt b 26
    cipherType := ByteVector.slice b 27 8 (by simp only [layoutSize] at h; omega)
    keyData := ByteVector.slice b 35 64 (by simp only [layoutSize] at h; omega) }
  else .error (.layoutTooShort b.size)

/-- Where the file starts: after layout, metadata and fanout. -/
def fileStart (l : Layout) : Nat :=
  layoutSize + l.metadataSize.toNat + l.fanoutSize.toNat

/-- Where the file starts, if that is a 64-bit number. -/
def fileOffset? (l : Layout) : Option Nat :=
  if l.fileStart < UInt64.size then some l.fileStart else none

/-- Where the file ends. -/
def contentEnd (l : Layout) : Nat :=
  l.fileStart + l.fileSize.toNat

end Layout

end Trustless.Skyfile
