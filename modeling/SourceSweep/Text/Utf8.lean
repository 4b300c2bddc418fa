import SourceSweep.Text.Basic

/-! Texts as bytes. Decoding accepts exactly the shortest forms of the scalar values; the first
byte sequence that is none is reported with its place, its length and what is wrong with it. -/
namespace SourceSweep.Text.Utf8

abbrev Bytes := List UInt8

inductive Reason where
  | badStart
  | badContinuation
  | cutShort
  deriving DecidableEq, Repr

structure Defect where
  offset : Nat
  bytes : Bytes
  reason : Reason
  deriving DecidableEq, Repr

def encodeChar (c : Char) : Bytes :=
  let n := c.toNat
  if n < 0x80 then [.ofNat n]
  else if n < 0x800 then [.ofNat (0xc0 + n / 0x40), .ofNat (0x80 + n % 0x40)]
  else if n < 0x10000 then
    [.ofNat (0xe0 + n / 0x1000), .ofNat (0x80 + n / 0x40 % 0x40), .ofNat (0x80 + n % 0x40)]
  else
    [.ofNat (0xf0 + n / 0x40000), .ofNat (0x80 + n / 0x1000 % 0x40),
      .ofNat (0x80 + n / 0x40 % 0x40), .ofNat (0x80 + n % 0x40)]

def encode (text : Text) : Bytes := text.flatMap encodeChar

def size (text : Text) : Nat := (encode text).length

def isSecond (first second : UInt8) : Bool :=
  let low := if first = 0xe0 then 0xa0 else if first = 0xf0 then 0x90 else 0x80
  let high := if first = 0xed then 0x9f else if first = 0xf4 then 0x8f else 0xbf
  low ≤ second && second ≤ high

def isTail (byte : UInt8) : Bool := 0x80 ≤ byte && byte ≤ 0xbf

def scalar (leading : Nat) (tail : Bytes) : Char :=
  Char.ofNat (tail.foldl (fun n byte => n * 0x40 + byte.toNat % 0x40) leading)

def decodeAt (offset : Nat) : Bytes → Except Defect Text
  | [] => .ok []
  | a :: rest =>
    if a < 0x80 then (decodeAt (offset + 1) rest).map (scalar a.toNat [] :: ·)
    else if a < 0xc2 || 0xf4 < a then .error ⟨offset, [a], .badStart⟩
    else match rest with
    | [] => .error ⟨offset, [a], .cutShort⟩
    | b :: rest =>
      if !isSecond a b then .error ⟨offset, [a], .badContinuation⟩
      else if a < 0xe0 then
        (decodeAt (offset + 2) rest).map (scalar (a.toNat - 0xc0) [b] :: ·)
      else match rest with
      | [] => .error ⟨offset, [a, b], .cutShort⟩
      | c :: rest =>
        if !isTail c then .error ⟨offset, [a, b], .badContinuation⟩
        else if a < 0xf0 then
          (decodeAt (offset + 3) rest).map (scalar (a.toNat - 0xe0) [b, c] :: ·)
        else match rest with
        | [] => .error ⟨offset, [a, b, c], .cutShort⟩
        | d :: rest =>
          if !isTail d then .error ⟨offset, [a, b, c], .badContinuation⟩
          else (decodeAt (offset + 4) rest).map (scalar (a.toNat - 0xf0) [b, c, d] :: ·)

def decode (bytes : Bytes) : Except Defect Text := decodeAt 0 bytes

end SourceSweep.Text.Utf8
