import SmpVxd.Text.Buffer
import Mathlib.Data.BitVec

/-!
# Formats of printf

A format is a list of items: ordinary characters, `%%`, and conversions of numbers and
strings, each with the argument it takes. `format` spells the item, and `rendering` is what
printf writes for it.
-/

namespace Text

inductive Kind where
  | d
  | i
  | u
  | x
  | upperX
  deriving DecidableEq

def Kind.letter : Kind → Char
  | d => 'd'
  | i => 'i'
  | u => 'u'
  | x => 'x'
  | upperX => 'X'

/-- An argument of the call. -/
inductive Arg where
  | long (value : BitVec 32)
  | string (s : List Char)

/-- `width` is 0 where none is given. -/
inductive Item where
  | ordinary (c : Char) (plain : c ≠ '%' ∧ c ≠ nul)
  | percent
  | number (zero : Bool) (width : Nat) (long : Bool) (kind : Kind) (value : BitVec 32)
  | string (s : List Char) (plain : nul ∉ s)

/-- A width in a format. -/
def widthText (width : Nat) : List Char := if width = 0 then [] else Nat.toDigits 10 width

def sign (value : BitVec 32) : List Char := if value.toInt < 0 then ['-'] else []

/-- The number without padding, its sign apart. -/
def Kind.digits (value : BitVec 32) : Kind → List Char
  | d | i => Nat.toDigits 10 value.toInt.natAbs
  | u => Nat.toDigits 10 value.toNat
  | x => Nat.toDigits 16 value.toNat
  | upperX => (Nat.toDigits 16 value.toNat).map Char.toUpper

def Kind.sign (value : BitVec 32) : Kind → List Char
  | d | i => Text.sign value
  | _ => []

/-- Zeros go between the sign and the digits, blanks before both. -/
def padded (zero : Bool) (width : Nat) (sign digits : List Char) : List Char :=
  let n := width - (sign.length + digits.length)
  if zero then sign ++ List.replicate n '0' ++ digits else List.replicate n ' ' ++ sign ++ digits

namespace Item

def format : Item → List Char
  | ordinary c _ => [c]
  | percent => ['%', '%']
  | number zero width long kind _ =>
      '%' :: ((if zero then ['0'] else []) ++ widthText width ++ (if long then ['l'] else []) ++
        [kind.letter])
  | string _ _ => ['%', 's']

def args : Item → List Arg
  | ordinary _ _ => []
  | percent => []
  | number _ _ _ _ value => [.long value]
  | string s _ => [.string s]

def rendering : Item → List Char
  | ordinary c _ => [c]
  | percent => ['%']
  | number zero width _ kind value => padded zero width (kind.sign value) (kind.digits value)
  | string s _ => s

end Item

end Text
