import FrameExport.Text.Scalar

/-!
# UTF-8 with errors

Bytes that should be UTF-8 but need not be.  `Utf8.decode` reads the characters that there are and
puts one replacement character for each stretch of bytes that begins a character and is broken off,
and one for each other byte that belongs to no character.

The first byte of a character tells how many bytes follow and between which bounds the next one
lies; the bounds are such that no character has a longer form than it needs, none is half a
surrogate pair, and none is beyond the last one.
-/

namespace FrameExport.Text.Utf8

/-- The beginning of a character: how many bytes are missing, the number that the bytes so far make,
and the bounds of the next byte. -/
structure Beginning where
  missing : Nat
  number : Nat
  least : Nat
  greatest : Nat
deriving DecidableEq, Repr

/-- The beginning that a first byte makes; nothing for a byte that cannot be the first of several. -/
def Beginning.ofFirst? (b : Nat) : Option Beginning :=
  if b < 0xC2 then none
  else if b < 0xE0 then some ⟨1, b - 0xC0, 0x80, 0xBF⟩
  else if b < 0xF0 then
    some ⟨2, b - 0xE0, if b = 0xE0 then 0xA0 else 0x80, if b = 0xED then 0x9F else 0xBF⟩
  else if b < 0xF5 then
    some ⟨3, b - 0xF0, if b = 0xF0 then 0x90 else 0x80, if b = 0xF4 then 0x8F else 0xBF⟩
  else none

/-- The characters that a byte completes at the front of a character, and what it begins. -/
def first (b : Nat) : List Char × Option Beginning :=
  if b < 0x80 then ([Char.ofNat b], none)
  else
    match Beginning.ofFirst? b with
    | some beginning => ([], some beginning)
    | none => ([replacement], none)

/-- The characters that a byte completes behind the beginning of one, and what is begun then. -/
def next (beginning : Beginning) (b : Nat) : List Char × Option Beginning :=
  if beginning.least ≤ b ∧ b ≤ beginning.greatest then
    let number := beginning.number * 0x40 + (b - 0x80)
    if beginning.missing ≤ 1 then ([charOf number], none)
    else ([], some ⟨beginning.missing - 1, number, 0x80, 0xBF⟩)
  else
    let (cs, begun) := first b
    (replacement :: cs, begun)

/-- The characters that bytes make behind what has been begun. -/
def decodeAfter (begun : Option Beginning) : List UInt8 → List Char
  | [] => if begun.isSome then [replacement] else []
  | b :: bs =>
    let (cs, begun) := match begun with
      | some beginning => next beginning b.toNat
      | none => first b.toNat
    cs ++ decodeAfter begun bs

/-- The characters that bytes make. -/
def decode (bytes : List UInt8) : List Char := decodeAfter none bytes

/-- A whole character is read; one that is broken off is replaced, whatever follows it. -/
example : decode [0xE2, 0x82, 0xAC] = ['€']
    ∧ decode [0xE2, 0x82, 0xC3, 0xA9] = [replacement, 'é'] := by decide

/-- The bytes of a surrogate make no character, so each of them is replaced. -/
example : decode [0xED, 0xA0, 0x80] = [replacement, replacement, replacement] := by decide

end FrameExport.Text.Utf8
