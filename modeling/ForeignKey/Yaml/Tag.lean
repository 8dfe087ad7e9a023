import ForeignKey.Text.Encoding
import ForeignKey.Yaml.Cursor

/-!
# YAML tags

A tag names the kind of a node. It is written in full between angle brackets, or as a handle and the
rest of its name, where directives may say what a handle stands for. Names consist of the characters of
web addresses, in which a percent sign and two hexadecimal digits stand for a byte.

The first byte of a character tells how many there are, in the way of UTF-8; but the number of the
character is simply what its bytes are in base 256, so that most longer ones stand for none.

Only the kinds of scalars matter: a tag of a collection changes nothing.
-/

namespace ForeignKey.Yaml

/-! ## Names -/

/-- The characters of names in tags. -/
def isUriChar (c : Char) : Bool := c.isAlphanum || "-#;/?:@&=+$,_.!~*\x27()[]%".toList.contains c

/-- The characters of names after a handle. -/
def isTagChar (c : Char) : Bool := isUriChar c && !isFlowMark c && c != '!'

/-- The number of bytes that follow a byte of a character, given how many were to come. -/
def bytesAfter? (left byte : Nat) : Option Nat :=
  match left with
  | left + 1 => if 0x80 ≤ byte ∧ byte < 0xC0 then some left else none
  | 0 =>
    if byte < 0x80 then some 0
    else if byte < 0xC0 then none
    else if byte < 0xE0 then some 1
    else if byte < 0xF0 then some 2
    else if byte < 0xF8 then some 3
    else none

/-- The name that goes on here, and the text after it. Of the character that has been begun `left` bytes
are to come, and those before them make `value`. -/
def readName? (test : Char → Bool) : Nat → Nat → List Char → Option (List Char × List Char)
  | left, _, [] => if left = 0 then some ([], []) else none
  | left, value, '%' :: high :: low :: rest => do
    let byte := (← Hex.digitValue? high) * 16 + (← Hex.digitValue? low)
    let left ← bytesAfter? left byte
    let value := value * 256 + byte
    if left = 0 then
      let c ← Hex.char? value
      let (name, after) ← readName? test 0 0 rest
      some (c :: name, after)
    else readName? test left value rest
  | left, _, c :: rest =>
    if left ≠ 0 ∨ c = '%' then none
    else if test c then (readName? test 0 0 rest).map fun (name, after) => (c :: name, after)
    else some ([], c :: rest)

/-- The name at the front of a text, and the text after it. -/
def readUri? (test : Char → Bool) (cs : List Char) : Option (String × List Char) :=
  (readName? test 0 0 cs).map fun (name, after) => (String.ofList name, after)

/-- The handle at the front of a text, which is given after its first exclamation mark, and the text
after it. Without a second mark there is none. -/
def readHandle? (cs : List Char) : Option (String × List Char) :=
  match cs.dropWhile isNameChar with
  | '!' :: after => some (String.ofList ('!' :: cs.takeWhile isNameChar ++ ['!']), after)
  | _ => none

/-! ## Tags -/

/-- A tag as it is written. One that is written in full has no handle. -/
structure Tag where
  handle? : Option String
  suffix : String
  deriving DecidableEq

/-- The kinds that have no values here. They only tell the keys of a mapping apart. -/
inductive RefusedKind where
  | boolean
  | integer
  | float
  | time
  | mapping
  | sequence
  | degrees
  | radians
  deriving DecidableEq

/-- What a tag says about a scalar. -/
inductive TagKind where
  /-- It is a text. -/
  | text
  /-- It is a null, whatever it spells. -/
  | null
  /-- It spells the bytes of a text. -/
  | binary
  /-- It is what its style says, so it is no number and no boolean. -/
  | unspecific
  /-- It is of a kind of its own that has no values here. -/
  | refused (kind : RefusedKind)
  /-- Nothing that is known here. -/
  | other
  deriving DecidableEq

namespace Tag

/-- The tag without a name, which is a lone exclamation mark. -/
def unspecific : Tag := ⟨none, "!"⟩

/-- The handle for the names of the kinds of YAML. -/
def yamlHandle : String := "!!"

/-- The tag at the front of a text, which is given after its first exclamation mark, and the text after
it. -/
def read? (cs : List Char) : Option (Tag × List Char) :=
  match cs with
  | '<' :: inside => do
    match ← readUri? isUriChar inside with
    | (name, '>' :: after) => some (⟨none, name⟩, after)
    | _ => none
  | _ =>
    match readHandle? cs with
    | some (handle, rest) => do
      let (suffix, after) ← readUri? isTagChar rest
      some (⟨some handle, suffix⟩, after)
    | none => do
      let (suffix, after) ← readUri? isTagChar cs
      some (if suffix.isEmpty then unspecific else ⟨some "!", suffix⟩, after)

/-- What the handle for the kinds of YAML stands for. -/
def yamlNames : String := "tag:yaml.org,2002:"

/-- What the two handles stand for that need no directive. -/
def knownHandles : List (String × String) := [("!", "!"), (yamlHandle, yamlNames)]

/-- The name of a tag, given what the handles of the document stand for; none if its handle stands for
nothing. An exclamation mark is before the suffix. -/
def name? (handles : List (String × String)) (t : Tag) : Option String :=
  match t.handle? with
  | none => some ("!" ++ t.suffix)
  | some handle =>
    ((handles ++ knownHandles).lookup handle).map fun space =>
      if space = "!" then "!" ++ t.suffix else space ++ "!" ++ t.suffix

/-- The kinds that are known by a word. -/
def wordKinds : List (String × TagKind) :=
  [("str", .text), ("null", .null), ("binary", .binary), ("bool", .refused .boolean),
    ("int", .refused .integer), ("float", .refused .float), ("time", .refused .time),
    ("timestamp", .refused .time), ("map", .refused .mapping), ("seq", .refused .sequence)]

/-- What may stand before the word for a kind. -/
def kindMarks : List String := ["!", "!!", yamlNames ++ "!"]

/-- The kinds that are known by a name. Without a word it is the unspecific one, and two units of angles
have but one mark. -/
def namedKinds : List (String × TagKind) :=
  [("!", .unspecific), ("!!", .unspecific), ("!degrees", .refused .degrees),
      ("!radians", .refused .radians)]
    ++ wordKinds.flatMap fun (word, kind) => kindMarks.map fun mark => (mark ++ word, kind)

/-- The kind with a name. -/
def kindNamed (name : String) : TagKind := (namedKinds.lookup name).getD .other

/-- The kind that a tag names, given what the handles of the document stand for. -/
def kind? (handles : List (String × String)) (t : Tag) : Option TagKind :=
  (t.name? handles).map kindNamed

end Tag

end ForeignKey.Yaml
