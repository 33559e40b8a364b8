/-! Bytes as text. Bytes that are no UTF-8 show as replacement characters, one for each
longest row of bytes that could begin a character. -/
namespace FragmentBuild

/-- The one way to compare bytes, whatever other instances are in scope. -/
instance (priority := high) decidableEqBytes : DecidableEq ByteArray := ByteArray.instDecidableEq

def replacementChar : Char := '\ufffd'

def inBytes (low high byte : UInt8) : Bool := low ≤ byte && byte ≤ high

def isContinuation (byte : UInt8) : Bool := inBytes 0x80 0xbf byte

/-- Whether `second` may follow `first`, the first byte of a character of several bytes. -/
def mayFollow (first second : UInt8) : Bool :=
  if inBytes 0xc2 0xdf first then isContinuation second
  else if first == 0xe0 then inBytes 0xa0 0xbf second
  else if first == 0xed then inBytes 0x80 0x9f second
  else if inBytes 0xe1 0xef first then isContinuation second
  else if first == 0xf0 then inBytes 0x90 0xbf second
  else if inBytes 0xf1 0xf3 first then isContinuation second
  else if first == 0xf4 then inBytes 0x80 0x8f second
  else false

/-- The low six bits of a continuation byte. -/
def payload (byte : UInt8) : Nat := byte.toNat % 64

/-- Bytes taken for UTF-8: characters and, one at a time, the rows of bytes that are none. -/
def decode : List UInt8 → List (List UInt8 ⊕ Char)
  | [] => []
  | first :: rest =>
    if first < 0x80 then .inr (Char.ofNat first.toNat) :: decode rest
    else
      match rest with
      | [] => [.inl [first]]
      | second :: rest₁ =>
        if !mayFollow first second then .inl [first] :: decode (second :: rest₁)
        else if first < 0xe0 then
          .inr (Char.ofNat (first.toNat % 32 * 64 + payload second)) :: decode rest₁
        else
          match rest₁ with
          | [] => [.inl [first, second]]
          | third :: rest₂ =>
            if !isContinuation third then .inl [first, second] :: decode (third :: rest₂)
            else if first < 0xf0 then
              .inr (Char.ofNat ((first.toNat % 16 * 64 + payload second) * 64 + payload third))
                :: decode rest₂
            else
              match rest₂ with
              | [] => [.inl [first, second, third]]
              | fourth :: rest₃ =>
                if !isContinuation fourth then
                  .inl [first, second, third] :: decode (fourth :: rest₃)
                else
                  .inr (Char.ofNat (((first.toNat % 8 * 64 + payload second) * 64 + payload third)
                    * 64 + payload fourth)) :: decode rest₃

def decodeLossy (bytes : List UInt8) : List Char :=
  (decode bytes).map (Sum.elim (fun _ => replacementChar) id)

/-- Bytes as text, with replacement characters where they are no UTF-8. -/
def textOf (bytes : ByteArray) : String :=
  (String.fromUTF8? bytes).getD (String.ofList (decodeLossy bytes.toList))

end FragmentBuild
