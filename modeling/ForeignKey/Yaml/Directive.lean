import ForeignKey.Yaml.Tag

/-!
# YAML directives

A line that begins with a percent sign and tells something about the document after it: the version of
the format, or what a handle in tags stands for. Others are reserved. Of the directives before a document
only the last one counts, versions apart.
-/

namespace ForeignKey.Yaml

/-- What a directive tells. -/
inductive Directive where
  /-- The version of the format. -/
  | version
  /-- The beginning of names that a handle in tags stands for. -/
  | handle (name meaning : String)
  /-- Anything else. -/
  | reserved
  deriving DecidableEq

namespace Directive

/-- Whether a character belongs to the name of a directive. A null character does, though it ends the
text wherever else it stands. -/
def isWordChar (c : Char) : Bool := !isBlank c && c != '\n' && c != '\uFEFF'

/-- Whether a text is a run of one to nine digits, which a version has on both sides of its point. -/
def isVersionPart (cs : List Char) : Bool := !cs.isEmpty && cs.length ≤ 9 && cs.all Char.isDigit

/-- Whether a text is a version: two numbers with a point between them. -/
def isVersion (cs : List Char) : Bool :=
  match cs.dropWhile (· ≠ '.') with
  | [] => false
  | _ :: minor => isVersionPart (cs.takeWhile (· ≠ '.')) && isVersionPart minor

/-- Whether nothing but a comment follows a word, which a blank must separate. -/
def endsMargin (cs : List Char) : Bool := endsWord cs && isVoidLine cs

/-- The directive for a version, from the text after its name. -/
def version? (cs : List Char) : Option Directive :=
  let word := cs.takeWhile (!isBlank ·)
  if isVersion word && endsMargin (cs.drop word.length) then some .version else none

/-- The directive for a handle, from the text after its name. The names that the handle stands for
begin with an exclamation mark or like the rest of a name. -/
def handle? (cs : List Char) : Option Directive := do
  let (name, rest) ←
    match cs with
    | '!' :: rest =>
      (readHandle? rest).or (if rest.head?.any isNameChar then none else some ("!", rest))
    | _ => none
  let rest := rest.dropWhile isBlank
  if rest.head?.any fun c => c == '!' || isTagChar c then
    let (meaning, after) ← readUri? isUriChar rest
    if endsMargin after then some (.handle name meaning) else none
  else none

/-- The directive with a name, given the rest of its line. -/
def read? (name args : List Char) : Option Directive :=
  if name.isEmpty || !endsWord args then none
  else if name = "YAML".toList then version? (args.dropWhile isBlank)
  else if name = "TAG".toList then handle? (args.dropWhile isBlank)
  else some .reserved

/-! ## The directives of a document -/

/-- Whether a document may have these directives together: its version is told once at most. -/
def areCompatible (ds : List Directive) : Bool := ds.countP (· == .version) ≤ 1

/-- What the handles stand for under some directives. Only the last one counts that does not tell a
version: a directive for a handle takes the place of those before it, and so does a reserved one, for
no handle. -/
def handles (ds : List Directive) : List (String × String) :=
  match (ds.filter (· != .version)).getLast? with
  | some (.handle name meaning) => [(name, meaning)]
  | _ => []

end Directive

end ForeignKey.Yaml
