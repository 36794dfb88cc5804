/-
# SourceAtlas.Text.Base64 — bytes written as letters.

Four letters of six bits each stand for three bytes.  Characters outside the alphabet are passed
over.  A group that is cut short must be filled up with padding, and a filled group is the last one
that is read.
-/

namespace SourceAtlas.Text.Base64

/-- The six bits of a letter. -/
def sextet? (c : Char) : Option Nat :=
  if 'A' ≤ c && c ≤ 'Z' then some (c.toNat - 65)
  else if 'a' ≤ c && c ≤ 'z' then some (c.toNat - 71)
  else if '0' ≤ c && c ≤ '9' then some (c.toNat + 4)
  else if c == '+' then some 62
  else if c == '/' then some 63
  else none

/-- The bytes of a group of letters, of which the last may be missing. -/
def groupBytes : List Nat → List UInt8
  | [a, b] => [UInt8.ofNat (a * 4 + b / 16)]
  | [a, b, c] => [UInt8.ofNat (a * 4 + b / 16), UInt8.ofNat (b % 16 * 16 + c / 4)]
  | [a, b, c, d] =>
    [UInt8.ofNat (a * 4 + b / 16), UInt8.ofNat (b % 16 * 16 + c / 4), UInt8.ofNat (c % 4 * 64 + d)]
  | _ => []

/-- Decode from within a group, which holds the given letters and has so much padding behind. -/
def decodeFrom (group : List Nat) (pads : Nat) : List Char → Option (List UInt8)
  | [] => if group.isEmpty then some [] else none
  | c :: rest =>
    if c == '=' then
      if 2 ≤ group.length then
        if 4 ≤ group.length + pads + 1 then some (groupBytes group)
        else decodeFrom group (pads + 1) rest
      else decodeFrom group pads rest
    else
      match sextet? c with
      | none => decodeFrom group pads rest
      | some bits =>
        if group.length = 3 then
          (decodeFrom [] 0 rest).map (groupBytes (group ++ [bits]) ++ ·)
        else decodeFrom (group ++ [bits]) 0 rest

/-- The bytes that a text stands for. -/
def decode? (text : List Char) : Option (List UInt8) :=
  decodeFrom [] 0 text

end SourceAtlas.Text.Base64
