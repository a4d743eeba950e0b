/-
Module: PeerCove.Core.Text
Layer: Core
Purpose: The string functions of the Rust standard library that the program calls, over the
  characters of a Lean `String`.
Trusted boundary: documented behaviour of `str` and `char`
Main exports: Text.trim, Text.trimMatches, Text.split, Text.splitOnce, Text.parseBounded
-/
import Mathlib.Data.List.Basic

namespace PeerCove.Text

/-- `char::is_whitespace`: the code points with the property `White_Space`. -/
def isWhitespace (c : Char) : Bool :=
  let n := c.toNat
  (9 ≤ n && n ≤ 13) || n == 0x20 || n == 0x85 || n == 0xa0 || n == 0x1680 ||
    (0x2000 ≤ n && n ≤ 0x200a) || n == 0x2028 || n == 0x2029 || n == 0x202f ||
    n == 0x205f || n == 0x3000

/-- `char::is_control`: the general category `Cc`. -/
def isControl (c : Char) : Bool :=
  let n := c.toNat
  n ≤ 0x1f || (0x7f ≤ n && n ≤ 0x9f)

/-- `char::is_ascii_digit`. -/
def isAsciiDigit (c : Char) : Bool :=
  let n := c.toNat
  48 ≤ n && n ≤ 57

/-- `char::is_ascii_hexdigit`. -/
def isAsciiHexDigit (c : Char) : Bool :=
  let n := c.toNat
  isAsciiDigit c || (65 ≤ n && n ≤ 70) || (97 ≤ n && n ≤ 102)

def isAsciiLower (c : Char) : Bool :=
  let n := c.toNat
  97 ≤ n && n ≤ 122

def isAsciiUpper (c : Char) : Bool :=
  let n := c.toNat
  65 ≤ n && n ≤ 90

/-- `char::to_ascii_lowercase`. -/
def toAsciiLower (c : Char) : Char :=
  if isAsciiUpper c then Char.ofNat (c.toNat + 32) else c

/-- `char::to_ascii_uppercase`. -/
def toAsciiUpper (c : Char) : Char :=
  if isAsciiLower c then Char.ofNat (c.toNat - 32) else c

/-- Drop the trailing characters that satisfy `p`. -/
def dropRight (p : Char → Bool) (chars : List Char) : List Char :=
  (chars.reverse.dropWhile p).reverse

/-- `str::trim_end_matches`. -/
def trimEndMatches (p : Char → Bool) (s : String) : String :=
  String.ofList (dropRight p s.toList)

/-- `str::trim_matches`. -/
def trimMatches (p : Char → Bool) (s : String) : String :=
  String.ofList (dropRight p (s.toList.dropWhile p))

/-- `str::trim`. -/
def trim (s : String) : String :=
  trimMatches isWhitespace s

/-- `str::starts_with` for a string pattern. -/
def startsWith (s pattern : String) : Bool :=
  pattern.toList.isPrefixOf s.toList

/-- `str::ends_with` for a string pattern. -/
def endsWith (s pattern : String) : Bool :=
  pattern.toList.isSuffixOf s.toList

/-- `str::to_ascii_uppercase`. -/
def toAsciiUppercase (s : String) : String :=
  String.ofList (s.toList.map toAsciiUpper)

/-- `str::len`: the number of UTF-8 bytes. -/
def len (s : String) : Nat :=
  s.utf8ByteSize

/-- `str::as_bytes`. -/
def utf8Bytes (s : String) : List UInt8 :=
  s.toList.flatMap String.utf8EncodeChar

/-- `String::from_utf8`. -/
def fromUtf8 (bytes : List UInt8) : Option String :=
  String.fromUTF8? bytes.toByteArray

theorem utf8Bytes_toByteArray (s : String) : (utf8Bytes s).toByteArray = s.toByteArray := by
  have encoded : (utf8Bytes s).toByteArray = s.toList.utf8Encode := rfl
  rw [encoded, ← String.toByteArray_ofList, String.ofList_toList]

theorem utf8Bytes_length (s : String) : (utf8Bytes s).length = len s := by
  have size : (utf8Bytes s).toByteArray.size = (utf8Bytes s).length := List.size_toByteArray
  rw [← size, utf8Bytes_toByteArray]
  rfl

theorem fromUtf8_utf8Bytes (s : String) : fromUtf8 (utf8Bytes s) = some s := by
  unfold fromUtf8
  rw [utf8Bytes_toByteArray]
  exact dif_pos s.isValidUTF8

/-- `str::split` on one character, on the characters of the string. -/
def splitChars (sep : Char) : List Char → List (List Char)
  | [] => [[]]
  | c :: rest =>
      if c = sep then [] :: splitChars sep rest
      else
        match splitChars sep rest with
        | [] => [[c]]
        | part :: parts => (c :: part) :: parts

/-- `str::split` on one character. -/
def split (sep : Char) (s : String) : List String :=
  (splitChars sep s.toList).map String.ofList

/-- `str::split_once` on one character. -/
def splitOnce (sep : Char) (s : String) : Option (String × String) :=
  let chars := s.toList
  match chars.dropWhile (· ≠ sep) with
  | [] => none
  | _ :: rest => some (String.ofList (chars.takeWhile (· ≠ sep)), String.ofList rest)

/-- One trailing character, if it is the last. -/
def stripSuffixChar (c : Char) (chars : List Char) : List Char :=
  if chars.getLast? = some c then chars.dropLast else chars

/-- `str::lines`: lines end with a line feed, which a carriage return may precede; an empty last
line is no line. -/
def lineChars : List (List Char) → List (List Char)
  | [] => []
  | [last] => if last = [] then [] else [last]
  | line :: rest => stripSuffixChar '\r' line :: lineChars rest

def lines (s : String) : List String :=
  (lineChars (splitChars '\n' s.toList)).map String.ofList

/-- `str::trim_start_matches`. -/
def trimStartMatches (p : Char → Bool) (s : String) : String :=
  String.ofList (s.toList.dropWhile p)

/-- `str::strip_prefix` for a string pattern. -/
def stripPrefix (s pattern : String) : Option String :=
  if startsWith s pattern then some (String.ofList (s.toList.drop pattern.length)) else none

/-- Number of characters. -/
def charCount (s : String) : Nat :=
  s.toList.length

/-- Whether the characters occur somewhere, letters of ASCII in either case: `LIKE '%…%'`. -/
def likeContains (s needle : String) : Bool :=
  (s.toList.map toAsciiLower).tails.any (fun rest =>
    (needle.toList.map toAsciiLower).isPrefixOf rest)

/-- Value of a run of decimal digits, most significant first. -/
def digitsValue (chars : List Char) : Nat :=
  chars.foldl (fun value c => value * 10 + (c.toNat - 48)) 0

/-- `str::parse` for an unsigned integer type with maximum `max`: an optional `+`, then at
least one decimal digit, and a value that fits. -/
def parseBounded (max : Nat) (s : String) : Option Nat :=
  let digits :=
    match s.toList with
    | '+' :: rest => rest
    | chars => chars
  if digits ≠ [] ∧ digits.all isAsciiDigit ∧ digitsValue digits ≤ max then
    some (digitsValue digits)
  else
    none

/-- `u16::from_str`. -/
def parseU16 (s : String) : Option UInt16 :=
  (parseBounded 65535 s).map UInt16.ofNat

example : parseU16 "8000" = some 8000 := by decide

end PeerCove.Text
