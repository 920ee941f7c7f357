import ReplyFlow.Service.Percent

/-! The address to which a request is sent, and the path that it arrives at.

An address may begin with a scheme and a host and end in a query and a fragment; none of them counts
here. The path begins at the root and goes through no dot segments.
-/

set_option autoImplicit false

namespace ReplyFlow

/-- The parts of an address that lead to its path. -/
structure Address where
  scheme : List Char
  host : List Char
  path : List Char
  deriving Repr, DecidableEq

namespace Address

def isSchemeChar (c : Char) : Bool :=
  c.isAlphanum || c == '+' || c == '.' || c == '-'

/-- Splits off a scheme with its colon. -/
def splitScheme (s : List Char) : List Char × List Char :=
  match s.takeWhile isSchemeChar, s.dropWhile isSchemeChar with
  | [], ':' :: rest => ([], rest)
  | first :: others, ':' :: rest => if first.isAlpha then (first :: others, rest) else ([], s)
  | _, _ => ([], s)

def endsHost (c : Char) : Bool :=
  c == '/' || c == '?' || c == '#'

/-- Splits off a host with the two slashes in front of it. -/
def splitHost : List Char → List Char × List Char
  | '/' :: '/' :: rest => (rest.takeWhile (!endsHost ·), rest.dropWhile (!endsHost ·))
  | s => ([], s)

def parse (text : String) : Address :=
  let (scheme, rest) := splitScheme text.toList
  let (host, rest) := splitHost rest
  ⟨scheme, host, rest.takeWhile fun c => c != '?' && c != '#'⟩

/-- The path of an address with a scheme and a host is complete. Any other path is appended to the
root, without the slashes in front of it. -/
def fromRoot (address : Address) : List Char :=
  if address.scheme.isEmpty || address.host.isEmpty then '/' :: address.path.dropWhile (· == '/')
  else address.path

/-- Goes through one segment: a single dot stays where it is, two dots go back, but not beyond the
root. -/
def enter (passed : List (List Char)) (segment : List Char) : List (List Char) :=
  if segment = ['.'] then passed
  else if segment = ['.', '.'] then if passed = [[]] then passed else passed.dropLast
  else passed ++ [segment]

def withoutDots (path : List Char) : List Char :=
  ((path.splitOn '/').foldl enter []).intersperse ['/'] |>.flatten

/-- The decoded path. -/
def location (address : Address) : String :=
  Percent.decode (String.ofList (withoutDots address.fromRoot))

end Address

end ReplyFlow
