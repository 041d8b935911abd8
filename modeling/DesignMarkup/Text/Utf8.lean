import DesignMarkup.Text.Quoted

/-!
# `Text.Utf8` — characters from bytes

Decoding stops at the first byte sequence that is not UTF-8 and reports where it stands and what is
wrong with it. Overlong forms, surrogates and code points past U+10FFFF are refused at the byte that
makes them impossible.

## Contents

* `Utf8Fault`, `Utf8Error`: what is wrong, and where;
* `decodeUtf8`: the decoder;
* `encodeUtf8`: the bytes of a text.
-/

namespace DesignMarkup.Text

/-- What is wrong with a byte sequence. -/
inductive Utf8Fault where
  /-- No character begins with this byte. -/
  | invalidStart
  /-- A byte that should continue a character does not. -/
  | invalidContinuation
  /-- The bytes end within a character. -/
  | unexpectedEnd
  deriving DecidableEq, Repr

namespace Utf8Fault

/-- The wording of a fault. -/
def message : Utf8Fault → String
  | .invalidStart => "invalid start byte"
  | .invalidContinuation => "invalid continuation byte"
  | .unexpectedEnd => "unexpected end of data"

end Utf8Fault

/-- A faulty sequence: its first byte, its position and its length in bytes. -/
structure Utf8Error where
  fault : Utf8Fault
  byte : UInt8
  position : Nat
  length : Nat
  deriving DecidableEq, Repr

namespace Utf8Error

/-- The wording of an error: one byte is shown, several are given by their positions. -/
def message (e : Utf8Error) : String :=
  let place :=
    if e.length = 1 then
      "byte 0x" ++ String.ofList (hex 2 e.byte.toNat) ++ " in position " ++ toString e.position
    else
      "bytes in position " ++ toString e.position ++ "-" ++ toString (e.position + e.length - 1)
  "'utf-8' codec can't decode " ++ place ++ ": " ++ e.fault.message

end Utf8Error

/-! ## Decoding -/

/-- The byte continues a character. -/
def isContinuation (b : UInt8) : Bool :=
  0x80 ≤ b && b < 0xC0

/-- The number of bytes of the character that begins with `b`, if one does. -/
def sequenceLength? (b : UInt8) : Option Nat :=
  if b < 0x80 then some 1
  else if b < 0xC2 then none
  else if b < 0xE0 then some 2
  else if b < 0xF0 then some 3
  else if b < 0xF5 then some 4
  else none

/-- The byte may stand second after `first`: it continues a character, and neither an overlong form,
nor a surrogate, nor a code point past the last begins so. -/
def maySecond (first second : UInt8) : Bool :=
  isContinuation second &&
    !(first == 0xE0 && second < 0xA0) && !(first == 0xED && 0xA0 ≤ second) &&
    !(first == 0xF0 && second < 0x90) && !(first == 0xF4 && 0x90 ≤ second)

/-- The low six bits of a continuation byte appended to the bits read so far. -/
def pushBits (n : Nat) (b : UInt8) : Nat :=
  n * 64 + b.toNat % 64

/-- The first character and the number of its bytes, or the fault and the length of the faulty
sequence. -/
def decodeFirst (first : UInt8) (rest : List UInt8) : Except (Utf8Fault × Nat) (Char × Nat) :=
  match sequenceLength? first with
  | none => .error (.invalidStart, 1)
  | some 1 => .ok (Char.ofNat first.toNat, 1)
  | some 2 =>
    match rest with
    | [] => .error (.unexpectedEnd, 1)
    | b :: _ =>
      if isContinuation b then .ok (Char.ofNat (pushBits (first.toNat % 32) b), 2)
      else .error (.invalidContinuation, 1)
  | some 3 =>
    match rest with
    | [] => .error (.unexpectedEnd, 1)
    | b :: more =>
      if !maySecond first b then .error (.invalidContinuation, 1)
      else match more with
        | [] => .error (.unexpectedEnd, 2)
        | c :: _ =>
          if isContinuation c then
            .ok (Char.ofNat (pushBits (pushBits (first.toNat % 16) b) c), 3)
          else .error (.invalidContinuation, 2)
  | some _ =>
    match rest with
    | [] => .error (.unexpectedEnd, 1)
    | b :: more =>
      if !maySecond first b then .error (.invalidContinuation, 1)
      else match more with
        | [] => .error (.unexpectedEnd, 2)
        | c :: more =>
          if !isContinuation c then .error (.invalidContinuation, 2)
          else match more with
            | [] => .error (.unexpectedEnd, 3)
            | d :: _ =>
              if isContinuation d then
                .ok (Char.ofNat (pushBits (pushBits (pushBits (first.toNat % 8) b) c) d), 4)
              else .error (.invalidContinuation, 3)

/-- Decodes the bytes that start at `position` after the characters `done`, which run backwards; the
first `skip` bytes belong to the last of them. -/
def decodeFrom (done : List Char) (position skip : Nat) : List UInt8 → Except Utf8Error (List Char)
  | [] => .ok done.reverse
  | b :: rest =>
    match skip with
    | skip + 1 => decodeFrom done (position + 1) skip rest
    | 0 =>
      match decodeFirst b rest with
      | .error (fault, length) => .error ⟨fault, b, position, length⟩
      | .ok (c, length) => decodeFrom (c :: done) (position + 1) (length - 1) rest

/-- The text that the bytes encode, or the first faulty sequence. -/
def decodeUtf8 (bytes : ByteArray) : Except Utf8Error String :=
  (decodeFrom [] 0 0 bytes.toList).map String.ofList

/-- The bytes of a text. -/
def encodeUtf8 (s : String) : ByteArray :=
  s.toUTF8

end DesignMarkup.Text
