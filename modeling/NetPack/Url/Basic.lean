/-!
# Addresses

The parts of an address and its normal form. All parts hold their text as it is written in the
normal form, with characters that have no place there percent-encoded.
-/

namespace NetPack

/-- The path of an address. -/
inductive UrlPath where
  /-- Segments, each behind a slash. -/
  | segments (names : List String)
  /-- A text without any structure. -/
  | text (s : String)
deriving DecidableEq

/-- What stands between two slashes and the path. -/
structure Authority where
  /-- A name and a password. -/
  userinfo : Option String
  /-- The host, which may be empty. -/
  host : String
  /-- A port that is not the usual one. -/
  port : Option Nat
deriving DecidableEq

/-- An address. -/
structure Url where
  scheme : String
  authority : Option Authority
  path : UrlPath
  query : Option String
  fragment : Option String
deriving DecidableEq

namespace UrlPath

/-- The text of a path. -/
def render : UrlPath → String
  | segments names => String.join (names.map ("/" ++ ·))
  | text s => s

/-- The last segment. -/
def last? : UrlPath → Option String
  | segments names => names.getLast?
  | text _ => none

/-- Would the path be taken for an authority if nothing stood in front of it? -/
def looksLikeAuthority : UrlPath → Bool
  | segments ("" :: _ :: _) => true
  | _ => false

end UrlPath

namespace Authority

/-- The text of an authority. -/
def render (a : Authority) : String :=
  (a.userinfo.map (· ++ "@")).getD "" ++ a.host ++ (a.port.map fun p => s!":{p}").getD ""

end Authority

namespace Url

/-- The normal form of an address. -/
def render (u : Url) : String :=
  let authority :=
    match u.authority with
    | some a => "//" ++ a.render
    | none => if u.path.looksLikeAuthority then "/." else ""
  u.scheme ++ ":" ++ authority ++ u.path.render ++
    (u.query.map ("?" ++ ·)).getD "" ++ (u.fragment.map ("#" ++ ·)).getD ""

/-- The name of the file that an address leads to: its last segment, if that is not empty. -/
def fileName? (u : Url) : Option String := u.path.last?.filter fun name => !name.isEmpty

end Url

end NetPack
