import NetPack.Url.Basic
import NetPack.Url.Host
import NetPack.Url.Path

/-!
# Reading addresses

An address starts with a scheme. Special schemes have a host; their slashes may be written as
backslashes, and any number of them may stand before the host. In the other schemes two slashes
introduce an authority, one slash a path of segments, and anything else is a text. Blanks at the
ends and line ends anywhere do not count.
-/

namespace NetPack

namespace Url

/-- The usual ports of the special schemes. -/
def specialSchemes : List (String × Nat) :=
  [("http", 80), ("https", 443), ("ws", 80), ("wss", 443), ("ftp", 21)]

/-- The characters of a text without the blanks at its ends. -/
def trim (s : String) : List Char :=
  let isMargin (c : Char) : Bool := c.toNat ≤ 0x20
  ((s.toList.dropWhile isMargin).reverse.dropWhile isMargin).reverse

/-- Drops line ends and tabulators. -/
def joinLines (cs : List Char) : List Char := cs.filter fun c => !isBreak c

/-- Reads a scheme and its colon. -/
def scheme? (cs : List Char) : Option (String × List Char) :=
  let isPart (c : Char) : Bool := c.isAlphanum || "+-.".contains c
  match cs.span isPart with
  | (c :: name, ':' :: rest) =>
    if c.isAlpha then some (String.ofList ((c :: name).map Char.toLower), rest) else none
  | _ => none

/-- Ends an authority. -/
def endsAuthority (special : Bool) (c : Char) : Bool :=
  c = '/' || c = '?' || c = '#' || (special && c = '\\')

/-! ### Authorities -/

/-- Splits at the last `@`. -/
def splitUserinfo (cs : List Char) : Option (List Char) × List Char :=
  match cs.reverse.span (· ≠ '@') with
  | (host, '@' :: user) => (some user.reverse, host.reverse)
  | _ => (none, cs)

/-- The normal form of a name and a password. -/
def userinfoText (cs : List Char) : Option String :=
  let (user, rest) := cs.span (· ≠ ':')
  let password := rest.drop 1
  if user.isEmpty && password.isEmpty then none
  else
    some (encode notInUserinfo user ++
      (if password.isEmpty then "" else ":" ++ encode notInUserinfo password))

/-- Splits at the first colon outside brackets. -/
def splitPort : (inBrackets : Bool) → List Char → List Char × List Char
  | _, [] => ([], [])
  | inBrackets, c :: rest =>
    if c = ':' && !inBrackets then ([], c :: rest)
    else
      let inside := if c = '[' then true else if c = ']' then false else inBrackets
      let (host, port) := splitPort inside rest
      (c :: host, port)

/-- Reads a port after its colon, and what is behind it. A port has no more than sixteen bits. -/
def port? (usual : Option Nat) (cs : List Char) : Option (Option Nat × List Char) :=
  let (digits, rest) := cs.span Char.isDigit
  let n := digits.foldl (fun n c => 10 * n + (c.toNat - '0'.toNat)) 0
  if 65535 < n || (rest.head?.any (· ≠ '\\')) then none
  else if digits.isEmpty || usual = some n then some (none, rest)
  else some (some n, rest)

/-- Reads an authority, and gives what is behind it. -/
def authority? (usual : Option Nat) (cs : List Char) : Option (Authority × List Char) := do
  let special := usual.isSome
  let (region, after) := cs.span fun c => !endsAuthority special c
  let (userinfo, hostAndPort) := splitUserinfo region
  if userinfo = some [] && hostAndPort.isEmpty && !after.isEmpty then none
  let userinfo := userinfo.bind userinfoText
  let (host, portText) := splitPort false hostAndPort
  if host.isEmpty && (special || !portText.isEmpty || userinfo.isSome) then none
  let host ← if special then Host.special? host else Host.other? host
  let (port, rest) ←
    match portText with
    | _ :: digits => port? usual digits
    | [] => some (none, [])
  return (⟨userinfo, host, port⟩, rest ++ after)

/-! ### Addresses -/

/-- Reads query and fragment. -/
def tail (special : Bool) (cs : List Char) : Option String × Option String :=
  let (query, fragment) := cs.span (· ≠ '#')
  let encodedQuery :=
    match query with
    | '?' :: q => some (encode (notInQuery special) q)
    | _ => none
  let encodedFragment :=
    match fragment with
    | '#' :: f => some (encode notInFragment f)
    | _ => none
  (encodedQuery, encodedFragment)

/-- An address of its parts. -/
def build (scheme : String) (special : Bool) (authority : Option Authority) (path : UrlPath)
    (rest : List Char) : Url :=
  let (query, fragment) := tail special rest
  ⟨scheme, authority, path, query, fragment⟩

/-- What stands behind a slash. -/
def afterSlash? (cs : List Char) : Option (List Char) :=
  match cs.dropWhile isBreak with
  | c :: rest => if c = '/' || c = '\\' then some rest else none
  | [] => none

/-- Reads the host of a file behind two slashes: its name, the place where the path starts, and the
text of the path. Without a name the path keeps the slash in front of it as an empty segment. The
name of a drive is the start of the path. -/
def fileHost? (cs : List Char) : Option (String × Place × List Char) :=
  let (region, after) := cs.span fun c => !endsAuthority true c
  let name := joinLines region
  if isDrive name then some ("", ⟨[], false⟩, cs)
  else if name.isEmpty then some ("", ⟨[""], false⟩, dropSlash true after)
  else
    (Host.special? name).map fun host =>
      if host = "localhost" then ("", ⟨[""], false⟩, dropSlash true after)
      else (host, ⟨[], false⟩, dropSlash true after)

/-- Reads what follows the scheme of files, line ends and tabulators included. -/
def file? (cs : List Char) : Option Url := do
  let (host, start, text) ←
    match afterSlash? cs with
    | none => some ("", ⟨[], false⟩, cs)
    | some one =>
      match afterSlash? one with
      | none => some ("", ⟨[], false⟩, one)
      | some two => fileHost? two
  let (place, rest) := start.read .joined [] text
  let host := if place.onDrive then "" else host
  return build "file" true (some ⟨none, host, none⟩) place.path (joinLines rest)

/-- Reads an address. -/
def parse? (text : String) : Option Url := do
  let text := trim text
  let (scheme, rest) ← scheme? (joinLines text)
  if scheme = "file" then file? ((text.dropWhile (· ≠ ':')).drop 1)
  else
    match specialSchemes.lookup scheme, rest with
    | some usual, _ => do
      let (authority, rest) ←
        authority? (some usual) (rest.dropWhile fun c => c = '/' || c = '\\')
      let (path, rest) := pathAfter true rest
      return build scheme true (some authority) path rest
    | none, '/' :: '/' :: rest => do
      let (authority, rest) ← authority? none rest
      let (path, rest) := pathAfter false rest
      return build scheme false (some authority) path rest
    | none, '/' :: rest =>
      let (names, rest) := segmentsFrom false [] [] rest
      return build scheme false none (.segments names) rest
    | none, rest =>
      let (path, rest) := rest.span fun c => c ≠ '?' && c ≠ '#'
      return build scheme false none (.text (encode isControl path)) rest

end Url

end NetPack
