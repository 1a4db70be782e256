/-!
# UTF-8 text

Bytes are read as the longest well-formed text they start with, together with the offset at which
that text stops.  Strict decoding accepts exactly the bytes that stop at their own end; lenient
decoding replaces every ill-formed part by the replacement character U+FFFD and goes on behind it.
-/

namespace SpanScore.Utf8

def encode (text : String) : List UInt8 :=
  text.toUTF8.data.toList

/-- How many bytes a list of characters takes. -/
def size (chars : List Char) : Nat :=
  chars.foldl (fun total char ↦ total + char.utf8Size) 0

/-- The longest well-formed text that some bytes start with. -/
structure Decoded where
  /-- The characters of that text. -/
  chars : List Char
  /-- The offset of the first byte behind it. -/
  stop : Nat

/-- Reads characters from offset `start` on; `read` holds the earlier ones, last first. -/
def decodeFrom (bytes : ByteArray) (start : Nat) (read : List Char) : Decoded :=
  match _ : bytes.utf8DecodeChar? start with
  | none => ⟨read.reverse, start⟩
  | some char => decodeFrom bytes (start + char.utf8Size) (char :: read)
termination_by bytes.size - start
decreasing_by
  have bound := ByteArray.le_size_of_utf8DecodeChar?_eq_some ‹_›
  have pos := Char.utf8Size_pos char
  omega

/-- The longest well-formed text that `bytes` start with. -/
def decodeStart (bytes : List UInt8) : Decoded :=
  decodeFrom ⟨bytes.toArray⟩ 0 []

/-- The text that `bytes` encode, if all of them are well formed. -/
def decode? (bytes : List UInt8) : Option String :=
  let decoded := decodeStart bytes
  if decoded.stop = bytes.length then some (String.ofList decoded.chars) else none

/-! ## Lenient decoding -/

/-- Whether `next` may follow the leading byte `lead` of a sequence of three or four bytes. -/
def admitsSecond (lead next : UInt8) : Bool :=
  if lead = 0xE0 then 0xA0 ≤ next && next ≤ 0xBF
  else if lead = 0xED then 0x80 ≤ next && next ≤ 0x9F
  else if lead = 0xF0 then 0x90 ≤ next && next ≤ 0xBF
  else if lead = 0xF4 then 0x80 ≤ next && next ≤ 0x8F
  else 0x80 ≤ next && next ≤ 0xBF

def isContinuation (byte : UInt8) : Bool :=
  0x80 ≤ byte && byte ≤ 0xBF

/-- The length of the ill-formed part at the start of `bytes`: the longest start of a sequence
that could still have become a character, and one byte otherwise. -/
def illFormedLength (bytes : List UInt8) : Nat :=
  match bytes with
  | lead :: second :: rest =>
    if 0xE0 ≤ lead && lead ≤ 0xEF then
      if admitsSecond lead second then 2 else 1
    else if 0xF0 ≤ lead && lead ≤ 0xF4 then
      if admitsSecond lead second then
        match rest with
        | third :: _ => if isContinuation third then 3 else 2
        | [] => 2
      else 1
    else 1
  | _ => 1

/-- Reads characters from offset `start` on, replacing ill-formed parts. -/
def decodeLossyFrom (bytes : ByteArray) (start : Nat) (read : List Char) : List Char :=
  if _ : start < bytes.size then
    match bytes.utf8DecodeChar? start with
    | some char => decodeLossyFrom bytes (start + max 1 char.utf8Size) (char :: read)
    | none =>
      let skipped := illFormedLength (bytes.extract start (start + 4)).data.toList
      decodeLossyFrom bytes (start + max 1 skipped) ('\uFFFD' :: read)
  else read.reverse
termination_by bytes.size - start
decreasing_by
  all_goals omega

/-- The text of `bytes`, with U+FFFD for every ill-formed part. -/
def decodeLossy (bytes : List UInt8) : String :=
  String.ofList (decodeLossyFrom ⟨bytes.toArray⟩ 0 [])

end SpanScore.Utf8
