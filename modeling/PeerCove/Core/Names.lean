/-
Module: PeerCove.Core.Names
Layer: Core
Purpose: DNS labels and relative names: normalisation and the checks `host.toml` rests on.
Trusted boundary: none
Main exports: Names.dnsLabel, Names.isDnsLabel, Names.isCustomDnsName, Names.normalizeCnameTarget
-/
import PeerCove.Core.Text

namespace PeerCove.Names

/-- Network name of configurations written before the field existed. -/
def DEFAULT_NETWORK_NAME : String := "home"

/-- Longest DNS label (RFC 1035). -/
def MAX_LABEL_LEN : Nat := 63

/-- The character `dns_label` writes for an input character. -/
def labelChar (c : Char) : Char :=
  if Text.isAsciiUpper c then Text.toAsciiLower c
  else if Text.isAsciiLower c || Text.isAsciiDigit c then c
  else '-'

/-- The loop of `dns_label`.  `previous` says whether the output ends with a hyphen. -/
def mapLabel : Bool → List Char → List Char
  | _, [] => []
  | previous, c :: rest =>
      let mapped := labelChar c
      if mapped = '-' then
        if previous then mapLabel true rest else '-' :: mapLabel true rest
      else
        mapped :: mapLabel false rest

/-- Turn a display name into a DNS label; `none` when nothing is left of it. -/
def dnsLabel (input : String) : Option String :=
  let out := mapLabel false input.toList
  let trimmed := Text.dropRight (· = '-') (out.dropWhile (· = '-'))
  let truncated := trimmed.take MAX_LABEL_LEN
  let finalLabel := Text.dropRight (· = '-') truncated
  if finalLabel = [] then none else some (String.ofList finalLabel)

/-- Whether the input is a normalised DNS label already. -/
def isDnsLabel (input : String) : Bool :=
  dnsLabel input = some input

/-- Whether the input is a relative name of normalised labels. -/
def isDnsName (input : String) : Bool :=
  input ≠ "" && (Text.split '.' input).all isDnsLabel

/-- As `isDnsName`, with `*` allowed as the first label. -/
def isCustomDnsName (input : String) : Bool :=
  if input = "" then false
  else
    match Text.split '.' input with
    | [] => false
    | first :: labels => (first = "*" || isDnsLabel first) && labels.all isDnsLabel

/-- Normal form of a CNAME target. -/
def normalizeCnameTarget (input : String) : Option String :=
  let trimmed :=
    String.ofList
      ((Text.trimEndMatches (· = '.') (Text.trim input)).toList.map Text.toAsciiLower)
  if trimmed = "" ∨ Text.len trimmed > 253 ∨ isDnsName trimmed = false then none
  else some trimmed

/-- Normal form of a freely typed relative name. -/
def normalizeCustomDnsName (input : String) : Option String :=
  match Text.split '.' input with
  | [] => none
  | first :: rest => do
      let head ← if first = "*" then some "*" else dnsLabel first
      let tail ← rest.mapM dnsLabel
      return ".".intercalate (head :: tail)

/-- Words a DNS name must not be. -/
def RESERVED_DNS_LABELS : List String :=
  ["localhost", "local", "internal", "arpa", "peercove", "dns", "gateway", "relay"]

/-- The label only the host itself may carry. -/
def HOST_DNS_LABEL : String := "host"

/-- Whether a label has the shape `member-<digits>` of members without a name. -/
def isReservedMemberLabel (label : String) : Bool :=
  Text.startsWith label "member-" &&
    (let rest := label.toList.drop 7
     rest ≠ [] && rest.all Text.isAsciiDigit)

inductive DnsNameError where
  | empty
  | reserved (label : String)
deriving Repr, DecidableEq

/-- `Display for DnsNameError`. -/
def DnsNameError.message : DnsNameError → String
  | .empty =>
      "DNS 名には英数字(a-z、0-9)を 1 文字以上含めてください(使える文字は英数字とハイフンのみ)"
  | .reserved label => s!"「{label}」は予約されているため DNS 名に使えません"

/-- Normalise and check a DNS name; duplicates are the caller's affair. -/
def normalizeDnsName (input : String) (forHost : Bool) : Except DnsNameError String :=
  match dnsLabel input with
  | none => .error .empty
  | some label =>
      if label ∈ RESERVED_DNS_LABELS ∨ (forHost = false ∧ label = HOST_DNS_LABEL) then
        .error (.reserved label)
      else
        .ok label

example : dnsLabel "My Game LAN" = some "my-game-lan" := by decide

end PeerCove.Names
