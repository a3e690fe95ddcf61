import NetPack.Url.Basic
import NetPack.Url.Encoding

/-!
# Reading paths

A path is a list of segments. A segment of one point stands for the place it is in, one of two
points leaves the segment before it; a point may be written `%2e`. In the scheme of files the first
segment may be the name of a drive, which is a letter and a colon, or a letter and a bar. A drive is
never left, and a path that starts at a drive has no host.
-/

namespace NetPack

namespace Url

/-- Line ends and tabulators, which stand for nothing wherever they are. -/
def isBreak (c : Char) : Bool := "\t\n\r".contains c

/-- The points that a segment stands for, if it is made of them. -/
def points (segment : List Char) : List Char :=
  match segment with
  | '%' :: '2' :: e :: rest => if e = 'e' || e = 'E' then '.' :: points rest else segment
  | '.' :: rest => '.' :: points rest
  | _ => segment

/-- A letter and a colon or a bar, as the name of a drive. -/
def isDrive : List Char → Bool
  | [letter, mark] => letter.isAlpha && (mark = ':' || mark = '|')
  | _ => false

/-- Is the segment the name of a drive, or one that a backslash follows? -/
def keepsDrive (segment : List Char) : Bool := isDrive (segment.take 2) &&
  (segment.drop 2).head?.all (· = '\\')

/-- Adds a segment to those before it, the last one first. Two points leave the segment before
them, unless that names a drive. -/
def addSegment (before : List String) (segment : List Char) (isLast : Bool) : List String :=
  let close (names : List String) := if isLast then "" :: names else names
  match points segment with
  | ['.', '.'] => close (if before.head?.any (keepsDrive ·.toList) then before else before.tail)
  | ['.'] => close before
  | _ => encode notInPath segment :: before

/-- Reads segments up to the query; `segment` holds the characters of the current one, the last one
first, and `before` the segments before it. -/
def segmentsFrom (special : Bool) (before : List String) (segment : List Char) :
    List Char → List String × List Char
  | [] => ((addSegment before segment.reverse true).reverse, [])
  | c :: rest =>
    if c = '?' || c = '#' then ((addSegment before segment.reverse true).reverse, c :: rest)
    else if c = '/' || (special && c = '\\') then
      segmentsFrom special (addSegment before segment.reverse false) [] rest
    else segmentsFrom special before (c :: segment) rest

/-- Drops a slash. -/
def dropSlash (special : Bool) : List Char → List Char
  | c :: rest => if c = '/' || (special && c = '\\') then rest else c :: rest
  | [] => []

/-- Reads the path after an authority. Only special schemes always have one. -/
def pathAfter (special : Bool) (cs : List Char) : UrlPath × List Char :=
  let empty := !special && cs.head?.all fun c => c = '?' || c = '#'
  if empty then (.segments [], cs)
  else
    let (names, rest) := segmentsFrom special [] [] (dropSlash special cs)
    (.segments names, rest)

/-! ### Places of files -/

/-- Drops empty segments at the start, but not the last segment. -/
def dropEmpty : List String → List String
  | "" :: name :: rest => dropEmpty (name :: rest)
  | names => names

/-- Where a file is. -/
structure Place where
  /-- The segments read so far, the last one first. -/
  before : List String
  /-- Was the first segment read as the name of a drive? -/
  onDrive : Bool

/-- How the segment that is being read has come about. -/
inductive SegmentState where
  /-- Its characters stand without a break at the end. -/
  | joined
  /-- A break stands behind its last character. -/
  | broken
  /-- It stands behind the name of a drive and a break, and its points mean nothing. -/
  | literal
deriving DecidableEq

namespace Place

/-- Ends a segment. The name of a drive that comes first is written with a colon. -/
def close (p : Place) (state : SegmentState) (segment : List Char) (isLast : Bool) : Place :=
  match p.before, state, segment with
  | before, .literal, _ => ⟨encode notInPath segment :: before, p.onDrive⟩
  | [], _, [letter, mark] =>
    if isDrive [letter, mark] then ⟨[String.ofList [letter, ':']], true⟩
    else ⟨addSegment [] segment isLast, p.onDrive⟩
  | before, _, _ => ⟨addSegment before segment isLast, p.onDrive⟩

/-- Is the path so far the name of a drive with a colon, and a break behind it? -/
def endsDrive (p : Place) (state : SegmentState) (segment : List Char) : Bool :=
  p.before.isEmpty && state = .broken && isDrive segment && segment.getLast? = some ':'

/-- Reads the segments of a file up to the query; `segment` holds the characters of the current one,
the last one first. A break ends the name of a drive where a slash is missing behind it. -/
def read (p : Place) (state : SegmentState) (segment : List Char) : List Char → Place × List Char
  | [] => (p.close state segment.reverse true, [])
  | c :: rest =>
    if c = '?' || c = '#' then (p.close state segment.reverse true, c :: rest)
    else if c = '/' || c = '\\' then
      read (p.close state segment.reverse false) .joined [] rest
    else if isBreak c then
      read p (if state = .literal then .literal else .broken) segment rest
    else if p.endsDrive state segment.reverse then
      read ⟨[String.ofList segment.reverse], p.onDrive⟩ .literal [c] rest
    else read p (if state = .literal then .literal else .joined) (c :: segment) rest

/-- The path of a place. -/
def path (p : Place) : UrlPath := .segments (dropEmpty p.before.reverse)

end Place

end Url

end NetPack
