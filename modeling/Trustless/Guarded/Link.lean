import Trustless.Guarded.Basic
import Trustless.Link.Basic

/-!
# Building a link in words

The bits of a link to data at the start of a sector, with every step that counts taken in words: a
size has 64 bits, a mode 32, and the bits of the link are 16 in the end. The unit of a mode is a
shifted one here, and so is what lies below its lengths.

* `Guarded.modeFor`: the least mode, found by doubling the greatest length.
* `Guarded.lengthIndex`: which of the eight lengths of a mode covers a size.
* `Guarded.encode`: the bits, which stop where sixteen of them would not hold all.
-/

namespace Trustless.Guarded

/-- The least mode whose lengths reach `size`, at most `tries` above `mode`, of which `greatest` is
the greatest length. It stops if there is none. -/
def modeFor (size : Nat) : (tries mode greatest : Nat) → Guarded LinkError Nat
  | 0, mode, greatest => if greatest < size then stop else return mode
  | tries + 1, mode, greatest => do
    if greatest < size then
      let next ← shortWord (mode + 1)
      let double ← word (greatest * 2)
      modeFor size tries next double
    else return mode

/-- The number of the length of a mode that covers `size`. The last byte is what counts, and of no
bytes it is taken to be the first. -/
def lengthIndex (size mode : Nat) : Guarded LinkError Nat := do
  if mode = 0 then return (size - 1) / 4096
  else
    let unitBits ← shortWord (11 + mode)
    let unit ← shiftLeft 1 unitBits
    let baseBits ← shortWord (14 + mode)
    let base ← shiftLeft 1 baseBits
    let above ← minus size base
    return (above - 1) / unit

/-- The sixteen bits of a link to `size` bytes at the start of a sector. -/
def encode (size : Nat) : Guarded LinkError Nat := do
  if size > Sector.size then throw (.dataTooLarge size)
  let mode ← modeFor size Target.maxMode 0 32768
  let index ← lengthIndex size mode
  let amount ← shortWord (mode + 1)
  let high ← shiftLeft index amount
  let one ← shiftLeft 1 mode
  let low ← minus one 1
  let raw ← shiftLeft (high ||| low) 2
  below UInt16.size raw

end Trustless.Guarded
