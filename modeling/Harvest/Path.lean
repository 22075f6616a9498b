/-!
# Paths

A path is a text in which slashes divide parts. It is kept as it was written, since messages show it,
and read through its components: empty parts and inner `.` parts do not count, `..` parts do.
-/

namespace Harvest

/-- A path as it was written. -/
structure Path where
  text : String
  deriving DecidableEq, Repr

namespace Path

/-- What a path is made of. -/
inductive Component where
  /-- The root directory, in front of an absolute path. -/
  | root
  /-- A `.` in front of a relative path. -/
  | current
  | parent
  | name (text : String)
  deriving DecidableEq, Repr

/-- Divides a text at its slashes. -/
def splitSlash : List Char → List (List Char)
  | [] => [[]]
  | c :: rest =>
    if c == '/' then [] :: splitSlash rest
    else
      match splitSlash rest with
      | [] => [[c]]
      | part :: parts => (c :: part) :: parts

/-- Puts slashes between parts. -/
def joinSlash : List (List Char) → List Char
  | [] => []
  | [part] => part
  | part :: parts => part ++ '/' :: joinSlash parts

/-- The parts between the slashes. -/
def parts (path : Path) : List String := (splitSlash path.text.toList).map String.ofList

def isAbsolute (path : Path) : Bool := path.text.toList.head? == some '/'

/-- The component that a part stands for, except at the front of a path. -/
def innerComponent? (part : String) : Option Component :=
  if part == "" || part == "." then none
  else if part == ".." then some .parent
  else some (.name part)

/-- The components of a path. -/
def components (path : Path) : List Component :=
  if path.isAbsolute then .root :: path.parts.filterMap innerComponent?
  else
    match path.parts with
    | "." :: rest => .current :: rest.filterMap innerComponent?
    | parts => parts.filterMap innerComponent?

/-- Goes on from a path. An absolute continuation takes the place of what it continues. -/
def join (base continuation : Path) : Path :=
  if continuation.isAbsolute then continuation
  else if base.text.isEmpty || base.text.toList.getLast? == some '/' then
    ⟨base.text ++ continuation.text⟩
  else ⟨base.text ++ "/" ++ continuation.text⟩

/-- The components of `base` are the first ones of `path`. -/
def startsWith (path base : Path) : Bool := base.components.isPrefixOf path.components

/-- What is left when a list starts with another one. -/
def dropFront? : List Component → List Component → Option (List Component)
  | [], rest => some rest
  | _ :: _, [] => none
  | b :: base, c :: rest => if b == c then dropFront? base rest else none

/-- The components of `path` behind those of `base`; all of them if it starts otherwise. -/
def below (base path : Path) : List Component :=
  (dropFront? base.components path.components).getD path.components

/-- The names among components, with slashes between them. -/
def joinNames (components : List Component) : String :=
  let names := components.filterMap fun
    | .name text => some text.toList
    | _ => none
  String.ofList (joinSlash names)

/-- The name of a path as seen from `root`: the names behind the root, with slashes between them. -/
def relativeName (root path : Path) : String := joinNames (below root path)

/-! ## Ancestors -/

/-- Drops the parts at the end that are no components, but not the part at the front of a path. Parts
are given backwards. -/
def dropIdle : List String → List String
  | [] => []
  | [front] => [front]
  | part :: more => if part == "" || part == "." then dropIdle more else part :: more

/-- The path without its last component. The root and the empty path have none. -/
def parent? (path : Path) : Option Path :=
  match dropIdle path.parts.reverse with
  | [] => none
  | [""] => none
  | [_] => some ⟨""⟩
  | _ :: before =>
    match dropIdle before with
    | [""] => some ⟨"/"⟩
    | parts => some ⟨String.ofList (joinSlash (parts.reverse.map String.toList))⟩

/-- A path and all that is left of it by dropping its last component again and again, at most
`bound` times. -/
def ancestorsUpTo : Nat → Path → List Path
  | 0, path => [path]
  | bound + 1, path =>
    match path.parent? with
    | none => [path]
    | some parent => path :: ancestorsUpTo bound parent

/-- A path and its ancestors, nearest first. Each step drops a character or more. -/
def ancestors (path : Path) : List Path := ancestorsUpTo path.text.toList.length path

/-! ## Quotation -/

/-- A character inside quotation marks. -/
def quotedCharacter (c : Char) : List Char :=
  if c == '\x22' then ['\\', '\x22']
  else if c == '\\' then ['\\', '\\']
  else if c == '\n' then ['\\', 'n']
  else if c == '\r' then ['\\', 'r']
  else if c == '\t' then ['\\', 't']
  else if c.toNat == 0 then ['\\', '0']
  else if c.toNat < 0x20 || c.toNat == 0x7f then
    "\\u\x7b".toList ++ Nat.toDigits 16 c.toNat ++ "\x7d".toList
  else [c]

/-- A path in quotation marks. -/
def quoted (path : Path) : String :=
  String.ofList ('\x22' :: (path.text.toList.flatMap quotedCharacter ++ ['\x22']))

end Path

end Harvest
