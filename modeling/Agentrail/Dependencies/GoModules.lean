import Agentrail.Py.Basic

/-!
# Module paths and versions of `go_modules.py`

`validateGoModuleVersion` and what it calls; an error is the message returned.
`ipaddress.ip_address` of the standard library is `ipAddressAccepts`.
-/

namespace Agentrail.GoModules

open Py

def goModulePathMaxBytes : Nat := 500
def goVersionComponentMaxDigits : Nat := 16

/-- `0|[1-9]\d*` matched against the whole text. -/
def isCanonicalNumeral : Text → Bool
  | [] => false
  | ['0'] => true
  | c :: s => '1' ≤ c && c ≤ '9' && s.all isDecimal

/-- The three groups of `_GO_STABLE_VERSION`. -/
def stableVersionGroups : Text → Option (Text × Text × Text)
  | 'v' :: s =>
    match splitOn1 '.' s with
    | [a, b, c] =>
      if isCanonicalNumeral a && isCanonicalNumeral b && isCanonicalNumeral c then some (a, b, c)
      else none
    | _ => none
  | _ => none

/-- The numeric tuple of one canonical stable `vX.Y.Z`. -/
def stableGoVersion : PyObject → Option (Nat × Nat × Nat)
  | .str s =>
    match stableVersionGroups s with
    | some (a, b, c) =>
      if [a, b, c].any fun part => goVersionComponentMaxDigits < part.length then none
      else some (intOfDecimal a, intOfDecimal b, intOfDecimal c)
    | none => none
  | _ => none

/-! ## `ipaddress.ip_address` -/

def isHexDigit (c : Char) : Bool :=
  isDigit09 c || ('a' ≤ c && c ≤ 'f') || ('A' ≤ c && c ≤ 'F')

/-- An IPv4 octet: one to three ASCII digits, no leading zero, at most 255. -/
def isOctet (s : Text) : Bool :=
  s ≠ [] && s.all isDigit09 && s.length ≤ 3 && !(s ≠ ['0'] && s.head? = some '0') &&
    intOfDecimal s ≤ 255

def isIpv4Address (s : Text) : Bool :=
  let octets := splitOn1 '.' s
  octets.length == 4 && octets.all isOctet

def isHextet (p : Text) : Bool := p ≠ [] && p.all isHexDigit && p.length ≤ 4

/-- The parts of an IPv6 text; an embedded IPv4 address stands for two hextets. -/
def ipv6Parts (s : Text) : Option (List Text) :=
  let parts := splitOn1 ':' s
  let last := parts.getLastD []
  if parts.length < 3 then none
  else if '.' ∈ last then
    if isIpv4Address last then some (parts.dropLast ++ [['0'], ['0']]) else none
  else some parts

/-- `IPv6Address` without its scope id: eight hextets, or fewer around one `::`. -/
def isIpv6Address (s : Text) : Bool :=
  match ipv6Parts s with
  | none => false
  | some parts =>
    let skips := (List.range parts.length).filter fun i =>
      1 ≤ i && i < parts.length - 1 && parts[i]?.getD [] = []
    let firstEmpty := parts.head? = some []
    let lastEmpty := parts.getLast? = some []
    if parts.length > 9 then false
    else match skips with
      | [] => parts.length == 8 && parts.all isHextet
      | [skip] =>
        let hi := if firstEmpty then skip - 1 else skip
        let lo := if lastEmpty then parts.length - skip - 2 else parts.length - skip - 1
        !(firstEmpty && hi ≠ 0) && !(lastEmpty && lo ≠ 0) && hi + lo < 8 &&
          (parts.take hi).all isHextet && (parts.drop (parts.length - lo)).all isHextet
      | _ => false

def ipAddressAccepts (host : Text) : Bool :=
  isIpv4Address host ||
    match partition host ['%'] with
    | (addr, [], _) => isIpv6Address addr
    | (addr, _, scope) => scope ≠ [] && '%' ∉ scope && isIpv6Address addr

/-! ## Paths -/

def reservedPublicSuffixes : List Text :=
  [".example".toList, ".internal".toList, ".invalid".toList, ".local".toList,
   ".localhost".toList, ".test".toList]

def isLowerOrDigit (c : Char) : Bool := ('a' ≤ c && c ≤ 'z') || isDigit09 c

/-- `[a-z0-9](?:[a-z0-9<inner>]*[a-z0-9])?` on the whole text. -/
def isDelimited (inner : List Char) (s : Text) : Bool :=
  match s.head?, s.getLast? with
  | some a, some b =>
    isLowerOrDigit a && isLowerOrDigit b && s.all fun c => isLowerOrDigit c || c ∈ inner
  | _, _ => false

def dnsLabel : Text → Bool := isDelimited ['-']
def pathElement : Text → Bool := isDelimited ['.', '_', '~', '-']

/-- ASCII lower case, which is `str.lower` on the ASCII paths it is applied to. -/
def asciiLower (s : Text) : Text :=
  s.map fun c => if 'A' ≤ c && c ≤ 'Z' then Char.ofNat (c.toNat + 32) else c

def windowsReserved (s : Text) : Bool :=
  let base := (partition (asciiLower s) ['.']).1
  base ∈ ["con".toList, "prn".toList, "aux".toList, "nul".toList] ||
    match base with
    | ['c', 'o', 'm', d] => '1' ≤ d && d ≤ '9'
    | ['l', 'p', 't', d] => '1' ≤ d && d ≤ '9'
    | _ => false

/-- A tilde and at least one ASCII digit at the end. -/
def windowsShortName (s : Text) : Bool :=
  let digits := s.reverse.takeWhile isDigit09
  digits ≠ [] && (s.reverse.drop digits.length).head? = some '~'

def portableGoPathElement (element : Text) : Bool :=
  let head := (partition element ['.']).1
  !windowsReserved head && !windowsShortName head

/-- Strips what `str.strip` strips. -/
def strip (s : Text) : Text :=
  ((s.dropWhile isSpace).reverse.dropWhile isSpace).reverse

/-- The conservative lowercase public-module path subset. -/
def validateGoModulePath : PyObject → Option String
  | .str path =>
    let elements := splitOn1 '/' path
    let host := elements.headD []
    if path = [] then some "Go module path is missing"
    else if !isAscii path then some "Go module path must use the canonical ASCII subset"
    else if goModulePathMaxBytes < path.length then some "Go module path exceeds the byte limit"
    else if path ≠ asciiLower path then
      some "Go v1 supports only canonical lowercase public module paths"
    else if path ≠ strip path || (partitionAt ['/', '/'] path).isSome || '\\' ∈ path then
      some "Go module path is not canonical"
    else if elements.length < 2 || '.' ∉ host then
      some "Go module path must name a public dotted host and repository path"
    else if reservedPublicSuffixes.any (·.isSuffixOf host) then
      some "Go module path host is not a public registry identity"
    else if ipAddressAccepts host then some "Go module path host must not be an IP address"
    else if (splitOn1 '.' host).any fun label =>
        63 < label.length || !dnsLabel label || !portableGoPathElement label then
      some "Go module path host is not canonical lowercase DNS"
    else if elements.tail.any fun element =>
        128 < element.length || !pathElement element || !portableGoPathElement element ||
          (partitionAt ['.', '.'] element).isSome ||
          [".git".toList, ".hg".toList, ".bzr".toList, ".svn".toList].any
            (·.isSuffixOf element) then
      some "Go module path contains an unsupported or ambiguous path element"
    else none
  | _ => some "Go module path is missing"

/-- What `_declared_path_major` finds at the end of a path. -/
inductive PathMajor where
  | absent
  | major (n : Nat)
  | gopkgMissing   -- `-1`
  | tooLong        -- `-2`
  | ambiguous      -- `-3`
  deriving DecidableEq

def gopkgPrefix : Text := "gopkg.in/".toList

/-- `\.v(0|[1-9]\d*)$` searched in the last element: its numeral. -/
def gopkgMajor (last : Text) : Option Text :=
  let digits := (last.reverse.takeWhile isDigit09).reverse
  if isCanonicalNumeral digits &&
      (last.reverse.drop digits.length).take 2 = ['v', '.'] then some digits
  else none

def boundedMajor (raw : Text) : PathMajor :=
  if goVersionComponentMaxDigits < raw.length then .tooLong else .major (intOfDecimal raw)

def declaredPathMajor (path : Text) : PathMajor :=
  let last := (splitOn1 '/' path).getLastD []
  match last with
  | 'v' :: raw =>
    if isCanonicalNumeral raw then boundedMajor raw
    else if raw ≠ [] && raw.all fun c => isDigit09 c || c = '.' then .ambiguous
    else gopkg last
  | _ => gopkg last
where
  gopkg (last : Text) : PathMajor :=
    if gopkgPrefix.isPrefixOf path then
      match gopkgMajor last with
      | some raw => boundedMajor raw
      | none => .gopkgMissing
    else .absent

/-- Binds a stable version to Go's semantic import-version path rule. -/
def validateGoModuleVersion (modulePath version : PyObject) : Option String :=
  match validateGoModulePath modulePath with
  | some err => some err
  | none =>
    match stableGoVersion version, modulePath with
    | some (versionMajor, _, _), .str path =>
      match declaredPathMajor path with
      | .gopkgMissing =>
        some "gopkg.in module paths must end in a canonical .vN major suffix"
      | .tooLong => some "Go semantic import-version suffix exceeds the numeric bound"
      | .ambiguous => some "Go module path has an ambiguous numeric-looking major suffix"
      | .major declared =>
        if declared < (if gopkgPrefix.isPrefixOf path then 1 else 2) then
          some "Go semantic import-version suffix is below the supported major"
        else if declared ≠ versionMajor then
          some "Go module path major suffix does not match its release major"
        else none
      | .absent =>
        if versionMajor ≥ 2 then some "Go v2+ module path is missing its semantic /vN suffix"
        else none
    | _, _ => some "Go v1 supports only canonical stable vMAJOR.MINOR.PATCH releases"

example : validateGoModuleVersion (.str "golang.org/x/text".toList) (.str "v0.3.0".toList) = none := by
  decide +kernel

end Agentrail.GoModules
