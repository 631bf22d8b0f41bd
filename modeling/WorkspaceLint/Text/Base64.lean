/-!
# Base sixty-four

Octets written with sixty-four letters, four letters to three octets. Reading passes over characters that are no letters and
stops at the padding that completes a group of four; an unfinished group is refused.
-/

namespace WorkspaceLint.Text

/-- The value of a letter. -/
def base64Value? (c : Char) : Option Nat :=
  if 'A' ≤ c ∧ c ≤ 'Z' then some (c.toNat - 65)
  else if 'a' ≤ c ∧ c ≤ 'z' then some (c.toNat - 71)
  else if '0' ≤ c ∧ c ≤ '9' then some (c.toNat + 4)
  else if c = '+' then some 62
  else if c = '/' then some 63
  else none

/-- What the next letter completes: nothing at the start of a group, and an octet after one, two or three letters, given the
value of the letters read so far. -/
def base64Octet (taken bits value : Nat) : List UInt8 :=
  match taken with
  | 0 => []
  | 1 => [UInt8.ofNat (bits * 4 + value / 16)]
  | 2 => [UInt8.ofNat (bits * 16 + value / 4)]
  | _ => [UInt8.ofNat (bits * 64 + value)]

/-- The octets of a text after `taken` letters of a group, whose bits not yet used are `bits`, and `pads` signs of padding. -/
def base64From (taken bits pads : Nat) : List Char → Option (List UInt8)
  | [] => if taken = 0 then some [] else none
  | c :: rest =>
    if c = '=' then
      if 2 ≤ taken then (if 4 ≤ taken + pads + 1 then some [] else base64From taken bits (pads + 1) rest)
      else base64From taken bits pads rest
    else
      match base64Value? c with
      | none => base64From taken bits pads rest
      | some value =>
        let left := match taken with
          | 0 => value
          | 1 => value % 16
          | 2 => value % 4
          | _ => 0
        (base64From ((taken + 1) % 4) left 0 rest).map (base64Octet taken bits value ++ ·)

/-- The octets that a text writes. -/
def base64Octets? (s : List Char) : Option (List UInt8) := base64From 0 0 0 s

end WorkspaceLint.Text
