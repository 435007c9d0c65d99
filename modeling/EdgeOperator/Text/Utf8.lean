set_option autoImplicit false

/-! # Bytes as text

Decoding of UTF-8. Where the bytes are no text, the result says at which byte the first character
that cannot be read starts, and how many of its bytes are certainly wrong; a character cut off by
the end of the bytes has no such count. -/

namespace EdgeOperator.Text

/-- Why bytes are no text. -/
structure Utf8Fault where
  /-- The number of bytes before the first character that cannot be read. -/
  index : Nat
  /-- The number of bytes to skip to go on; `none` if the bytes end inside the character. -/
  length? : Option Nat
deriving DecidableEq, Repr

/-- The fault in words. -/
def Utf8Fault.message (fault : Utf8Fault) : String :=
  match fault.length? with
  | some length =>
    "invalid utf-8 sequence of " ++ toString length ++ " bytes from index " ++ toString fault.index
  | none => "incomplete utf-8 byte sequence from index " ++ toString fault.index

namespace Utf8

/-- How many bytes a character takes by its first byte; zero if none starts with that byte. -/
def width (first : Nat) : Nat :=
  if first < 0x80 then 1
  else if 0xC2 ≤ first ∧ first < 0xE0 then 2
  else if 0xE0 ≤ first ∧ first < 0xF0 then 3
  else if 0xF0 ≤ first ∧ first < 0xF5 then 4
  else 0

/-- Whether a byte may follow the first byte of a character: the range is narrower where a wider
one would give an overlong form, a surrogate or a number that is no character. -/
def isSecond (first second : Nat) : Bool :=
  (if first = 0xE0 then 0xA0 else if first = 0xF0 then 0x90 else 0x80) ≤ second &&
    second ≤ (if first = 0xED then 0x9F else if first = 0xF4 then 0x8F else 0xBF)

/-- Whether a byte may stand third or fourth in a character. -/
def isTail (byte : Nat) : Bool :=
  0x80 ≤ byte && byte ≤ 0xBF

/-- The text of bytes, given the characters read so far (last one first) and the count of their
bytes. -/
def decodeFrom (done : List Char) (index : Nat) : List Nat → Except Utf8Fault String
  | [] => .ok (String.ofList done.reverse)
  | a :: rest =>
    match width a with
    | 1 => decodeFrom (Char.ofNat a :: done) (index + 1) rest
    | 2 =>
      match rest with
      | [] => .error ⟨index, none⟩
      | b :: rest =>
        if isSecond a b then
          decodeFrom (Char.ofNat ((a - 0xC0) * 0x40 + (b - 0x80)) :: done) (index + 2) rest
        else .error ⟨index, some 1⟩
    | 3 =>
      match rest with
      | [] => .error ⟨index, none⟩
      | b :: rest =>
        if !isSecond a b then .error ⟨index, some 1⟩
        else
          match rest with
          | [] => .error ⟨index, none⟩
          | c :: rest =>
            if isTail c then
              decodeFrom
                (Char.ofNat ((a - 0xE0) * 0x1000 + (b - 0x80) * 0x40 + (c - 0x80)) :: done)
                (index + 3) rest
            else .error ⟨index, some 2⟩
    | 4 =>
      match rest with
      | [] => .error ⟨index, none⟩
      | b :: rest =>
        if !isSecond a b then .error ⟨index, some 1⟩
        else
          match rest with
          | [] => .error ⟨index, none⟩
          | c :: rest =>
            if !isTail c then .error ⟨index, some 2⟩
            else
              match rest with
              | [] => .error ⟨index, none⟩
              | d :: rest =>
                if isTail d then
                  decodeFrom
                    (Char.ofNat
                      ((a - 0xF0) * 0x40000 + (b - 0x80) * 0x1000 + (c - 0x80) * 0x40 + (d - 0x80))
                      :: done)
                    (index + 4) rest
                else .error ⟨index, some 3⟩
    | _ => .error ⟨index, some 1⟩

/-- The text that bytes stand for. -/
def decode (bytes : List Nat) : Except Utf8Fault String :=
  decodeFrom [] 0 bytes

end Utf8

end EdgeOperator.Text
