import Tandem.Binary.LittleEndian

/-!
Text as UTF-8 bytes. Strict decoding refuses ill-formed input; lenient decoding puts one replacement
character for each maximal ill-formed run that begins like a character.
-/
namespace Tandem.Utf8

def encode (s : String) : Bytes := s.toUTF8.toList

/-- The text whose encoding is the given byte string, if there is one. -/
def decode? (bs : Bytes) : Option String := String.fromUTF8? ⟨bs.toArray⟩

/-- The mark that lenient decoding leaves in place of ill-formed bytes. -/
def replacement : Char := '\ufffd'

def isContinuation (b : UInt8) : Bool := 0x80 ≤ b && b ≤ 0xBF

/-- Whether a second byte may follow this lead byte. The narrowed ranges exclude overlong forms,
surrogates and numbers past the last code point. -/
def admitsSecond (lead second : UInt8) : Bool :=
  if lead = 0xE0 then 0xA0 ≤ second && second ≤ 0xBF
  else if lead = 0xED then 0x80 ≤ second && second ≤ 0x9F
  else if lead = 0xF0 then 0x90 ≤ second && second ≤ 0xBF
  else if lead = 0xF4 then 0x80 ≤ second && second ≤ 0x8F
  else isContinuation second

/-- How many bytes a character with this lead byte has; zero if no character begins so. -/
def span (lead : UInt8) : Nat :=
  if lead < 0x80 then 1
  else if 0xC2 ≤ lead && lead ≤ 0xDF then 2
  else if 0xE0 ≤ lead && lead ≤ 0xEF then 3
  else if 0xF0 ≤ lead && lead ≤ 0xF4 then 4
  else 0

/-- The low six bits of a continuation byte. -/
def payload (b : UInt8) : Nat := b.toNat % 64

/-- Decode the first character: the character, or the replacement mark for the ill-formed bytes that
stand in its place, and the number of bytes after the lead byte that it takes up. -/
def first (lead : UInt8) (rest : Bytes) : Char × Nat :=
  match span lead, rest with
  | 1, _ => (Char.ofNat lead.toNat, 0)
  | 2, b :: _ =>
    if isContinuation b then (Char.ofNat (lead.toNat % 32 * 64 + payload b), 1)
    else (replacement, 0)
  | 3, b :: c :: _ =>
    if !admitsSecond lead b then (replacement, 0)
    else if !isContinuation c then (replacement, 1)
    else (Char.ofNat (lead.toNat % 16 * 4096 + payload b * 64 + payload c), 2)
  | 4, b :: c :: d :: _ =>
    if !admitsSecond lead b then (replacement, 0)
    else if !isContinuation c then (replacement, 1)
    else if !isContinuation d then (replacement, 2)
    else (Char.ofNat (lead.toNat % 8 * 262144 + payload b * 4096 + payload c * 64 + payload d), 3)
  | 3, [b] => (replacement, if admitsSecond lead b then 1 else 0)
  | 4, [b] => (replacement, if admitsSecond lead b then 1 else 0)
  | 4, [b, c] =>
    (replacement, if !admitsSecond lead b then 0 else if isContinuation c then 2 else 1)
  | _, _ => (replacement, 0)

/-- Decode everything, ill-formed or not. -/
def decodeLenient (bs : Bytes) : String := String.ofList (go bs [])
where
  /-- The characters so far are kept newest first. -/
  go : Bytes → List Char → List Char
    | [], done => done.reverse
    | b :: r, done =>
      let (c, n) := first b r
      go (r.drop n) (c :: done)
  termination_by bs => bs.length
  decreasing_by simp only [List.length_drop, List.length_cons]; omega

end Tandem.Utf8
