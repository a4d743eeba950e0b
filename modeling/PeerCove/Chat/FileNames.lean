/-
Module: PeerCove.Chat.FileNames
Layer: Chat
Purpose: The name under which a received file is stored.
Trusted boundary: documented behaviour of `str` and `char`
Main exports: FileNames.sanitizeFileName
-/
import PeerCove.Core.Text

namespace PeerCove.FileNames

/-- What separates directories from names, on Linux or on Windows. -/
def isSeparator (c : Char) : Bool :=
  c == '/' || c == '\\'

/-- The characters that Windows does not allow in a name. -/
def windowsChars : List Char :=
  ['<', '>', ':', '"', '|', '?', '*']

def cleanChar (c : Char) : Char :=
  if Text.isControl c || windowsChars.contains c then '_' else c

/-- What follows the last separator: the first part of `str::rsplit`. -/
def baseName (name : String) : String :=
  String.ofList (name.toList.reverse.takeWhile (fun c => !isSeparator c)).reverse

/-- `u8::is_ascii_digit`. -/
def isAsciiDigitByte (byte : UInt8) : Bool :=
  48 ≤ byte.toNat && byte.toNat ≤ 57

/-- Whether the part before the first dot is one of the devices that are looked for. -/
def reservedStem (stem : String) : Bool :=
  let upper := Text.toAsciiUppercase stem
  ["CON", "PRN", "AUX", "NUL"].contains upper ||
    ((Text.startsWith upper "COM" || Text.startsWith upper "LPT") && Text.len upper == 4 &&
      (Text.utf8Bytes upper)[3]?.any isAsciiDigitByte)

def sanitizeFileName (name : String) : Option String :=
  let base := baseName name
  let cleaned := String.ofList (base.toList.map cleanChar)
  -- leading and trailing dots and blanks
  let cleaned := Text.trim (Text.trimMatches (· == '.') (Text.trim cleaned))
  if cleaned = "" then none
  else
    let stem := (Text.split '.' cleaned).headD cleaned
    let cleaned := if reservedStem stem then "_" ++ cleaned else cleaned
    -- not to be mistaken for a file of the inbox itself
    if Text.endsWith cleaned ".part" || Text.endsWith cleaned ".pcvmeta" then
      some (cleaned ++ ".file")
    else some cleaned

example : sanitizeFileName "../../etc/con.part" = some "_con.part.file" := by decide

end PeerCove.FileNames
