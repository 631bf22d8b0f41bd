import WorkspaceLint.Text.Hex

/-!
# Text from octets

Reading UTF-8 strictly. `decode` gives the characters or the first sequence that is none: a byte that starts no sequence, a
sequence that an unfit byte breaks off, or one that the end of the data cuts off. The bounds of the second byte rule out long
forms, surrogates and code points past the last one.
-/

namespace WorkspaceLint.Text

/-- What is wrong with a sequence of octets. -/
inductive Utf8Fault where
  /-- The byte starts no sequence. -/
  | start
  /-- A byte that cannot continue the sequence follows it. -/
  | continuation
  /-- The data ends inside the sequence. -/
  | cutOff
deriving DecidableEq

/-- The first sequence of octets that is no character. -/
structure Utf8Error where
  /-- What is wrong with it. -/
  fault : Utf8Fault
  /-- The offset of its first byte. -/
  position : Nat
  /-- Its first byte. -/
  byte : UInt8
  /-- The number of its bytes. -/
  length : Nat
deriving DecidableEq

/-- The wording of a fault. -/
def Utf8Fault.message : Utf8Fault → String
  | .start => "invalid start byte"
  | .continuation => "invalid continuation byte"
  | .cutOff => "unexpected end of data"

/-- The message for a sequence that is no character. -/
def Utf8Error.message (e : Utf8Error) : String :=
  "'utf-8' codec can't decode " ++
    (if e.length = 1 then
      "byte 0x" ++ String.ofList (hexPadded 2 e.byte.toNat) ++ " in position " ++ toString e.position
    else
      "bytes in position " ++ toString e.position ++ "-" ++ toString (e.position + e.length - 1)) ++
    ": " ++ e.fault.message

/-- A sequence of which some bytes have been read. -/
structure Utf8Pending where
  /-- The offset of its first byte. -/
  position : Nat
  /-- Its first byte. -/
  byte : UInt8
  /-- How many of its bytes have been read. -/
  taken : Nat
  /-- The bits read so far. -/
  bits : Nat
  /-- How many bytes are to come, less one. -/
  more : Nat
  /-- The least value of the next byte. -/
  low : Nat
  /-- The greatest value of the next byte. -/
  high : Nat
deriving DecidableEq

/-- What a first byte starts: a whole character, a longer sequence, or nothing. -/
inductive Utf8Lead where
  /-- The byte is a character. -/
  | whole (c : Char)
  /-- The byte starts a longer sequence. -/
  | part (p : Utf8Pending)
  /-- The byte starts nothing. -/
  | unfit
deriving DecidableEq

/-- What the byte at an offset starts. -/
def Utf8Lead.of (position : Nat) (b : UInt8) : Utf8Lead :=
  let n := b.toNat
  if n < 0x80 then .whole (Char.ofNat n)
  else if n < 0xC2 then .unfit
  else if n < 0xE0 then .part ⟨position, b, 1, n % 0x20, 0, 0x80, 0xBF⟩
  else if n < 0xF0 then
    .part ⟨position, b, 1, n % 0x10, 1, if n = 0xE0 then 0xA0 else 0x80, if n = 0xED then 0x9F else 0xBF⟩
  else if n < 0xF5 then
    .part ⟨position, b, 1, n % 0x08, 2, if n = 0xF0 then 0x90 else 0x80, if n = 0xF4 then 0x8F else 0xBF⟩
  else .unfit

/-- Characters of octets that stand at an offset, after a sequence that may be under way. -/
def decodeFrom (position : Nat) : Option Utf8Pending → List UInt8 → Except Utf8Error (List Char)
  | none, [] => .ok []
  | some p, [] => .error ⟨.cutOff, p.position, p.byte, p.taken⟩
  | none, b :: rest =>
    match Utf8Lead.of position b with
    | .whole c => (decodeFrom (position + 1) none rest).map (c :: ·)
    | .part p => decodeFrom (position + 1) (some p) rest
    | .unfit => .error ⟨.start, position, b, 1⟩
  | some p, b :: rest =>
    if p.low ≤ b.toNat ∧ b.toNat ≤ p.high then
      match p.more with
      | 0 => (decodeFrom (position + 1) none rest).map (Char.ofNat (p.bits * 0x40 + b.toNat % 0x40) :: ·)
      | more + 1 =>
        decodeFrom (position + 1)
          (some { p with taken := p.taken + 1, bits := p.bits * 0x40 + b.toNat % 0x40, more, low := 0x80, high := 0xBF })
          rest
    else .error ⟨.continuation, p.position, p.byte, p.taken⟩

/-- The characters that octets stand for, or the first sequence that is none. -/
def decode (bytes : List UInt8) : Except Utf8Error (List Char) := decodeFrom 0 none bytes

/-- The characters of octets that are read in pieces of a size, after octets of a sequence that an earlier piece cut off. Places
are counted from the start of those octets, or of the piece when there are none. The bound is on the number of pieces. -/
def decodePieces (size : Nat) : Nat → List UInt8 → List UInt8 → Except Utf8Error (List Char)
  | 0, pending, _ => decode pending
  | bound + 1, pending, bytes =>
    if bytes = [] then decode pending
    else
      let piece := pending ++ bytes.take size
      let goOn := fun (chars : List Char) (pending : List UInt8) =>
        (decodePieces size bound pending (bytes.drop size)).map (chars ++ ·)
      match decode piece with
      | .ok chars => goOn chars []
      | .error e =>
        if e.fault = .cutOff then (decode (piece.take e.position)).bind fun chars => goOn chars (piece.drop e.position)
        else .error e

end WorkspaceLint.Text
