/-!
# Texts as bytes

Contents of files are byte lists. A text is written as its UTF-8 bytes; a byte list is read either
strictly, as a text only if it is well formed, or leniently, one replacement character for each
byte that starts no character. Only contents may be bytes that are no text; paths, names and ids are
texts, so the replacement that a reader of JSON makes in them has no counterpart here.

## Main definitions

* `Bytes`: the content of a file.
* `utf8`, `ofUtf8?`, `ofUtf8Lossy`: between texts and bytes.
* `nextChar`: the first character of a byte list and what follows it.
-/

namespace Deadwood

/-- The content of a file. -/
abbrev Bytes := List UInt8

namespace Text

def utf8 (s : String) : Bytes :=
  s.toUTF8.toList

def byteLength (s : String) : Nat :=
  s.utf8ByteSize

/-- The text with these UTF-8 bytes, if they are well formed. -/
def ofUtf8? (bs : Bytes) : Option String :=
  String.fromUTF8? ⟨bs.toArray⟩

/-- The character that stands for bytes that encode nothing. -/
def replacement : Nat := 0xFFFD

/-- Whether `b` continues a character of several bytes. -/
def isContinuation (b : UInt8) : Bool :=
  0x80 ≤ b && b ≤ 0xBF

def continuation (b : UInt8) : Nat :=
  b.toNat % 0x40

/-- The code point at the front of a nonempty byte list, and how many bytes it takes. A byte that
starts no well-formed character counts as one replacement character. -/
def nextChar : Bytes → Nat × Nat
  | [] => (replacement, 0)
  | a :: rest =>
    if a < 0x80 then (a.toNat, 1)
    else if 0xC2 ≤ a && a ≤ 0xDF then
      match rest with
      | b :: _ =>
        if isContinuation b then ((a.toNat % 0x20) * 0x40 + continuation b, 2)
        else (replacement, 1)
      | [] => (replacement, 1)
    else if 0xE0 ≤ a && a ≤ 0xEF then
      match rest with
      | b :: c :: _ =>
        let low : UInt8 := if a == 0xE0 then 0xA0 else 0x80
        let high : UInt8 := if a == 0xED then 0x9F else 0xBF
        if low ≤ b && b ≤ high && isContinuation c then
          ((a.toNat % 0x10) * 0x1000 + continuation b * 0x40 + continuation c, 3)
        else (replacement, 1)
      | _ => (replacement, 1)
    else if 0xF0 ≤ a && a ≤ 0xF4 then
      match rest with
      | b :: c :: d :: _ =>
        let low : UInt8 := if a == 0xF0 then 0x90 else 0x80
        let high : UInt8 := if a == 0xF4 then 0x8F else 0xBF
        if low ≤ b && b ≤ high && isContinuation c && isContinuation d then
          ((a.toNat % 0x08) * 0x40000 + continuation b * 0x1000 + continuation c * 0x40
            + continuation d, 4)
        else (replacement, 1)
      | _ => (replacement, 1)
    else (replacement, 1)

/-- Read bytes as characters, `fuel` at most, with replacement characters where they are ill
formed. -/
def decodeLossy : Nat → Bytes → List Char
  | 0, _ => []
  | _, [] => []
  | fuel + 1, bs =>
    let (code, width) := nextChar bs
    Char.ofNat code :: decodeLossy fuel (bs.drop (max width 1))

/-- The text of a byte list, with replacement characters where it is ill formed. -/
def ofUtf8Lossy (bs : Bytes) : String :=
  match ofUtf8? bs with
  | some s => s
  | none => String.ofList (decodeLossy bs.length bs)

end Text

end Deadwood
