import ForeignKey.Yaml.Block.Reader
import ForeignKey.Yaml.Plain
import ForeignKey.Yaml.Quoted
import ForeignKey.Yaml.Token

/-!
# Reading YAML tokens

Indentation becomes tokens here. The levels of indentation that are open form a stack; a token that
stands further left than a level closes it, and an item or a key that stands further right than all
opens one.

That something is a key shows only at the colon after it. So the place of a possible key is kept until
the colon comes, and what the key needs before it is put into the slot of its first token. Outside
flow collections a key is on one line and no longer than `maxKeyLength`.

A pair that is an item of a flow sequence is a mapping whose braces are left out. They are put in here:
the closing one stands before the next comma or at the end of the sequence, whichever of the open
collections that ends. After a brace or a question mark in the text pairs keep the form in which they
are written, until a brace that was put in has been closed.

A plain scalar that a comment ends must not look as if it went on in the next line.

A null character ends the text, except for one that is part of the name of a directive.

Not everything in a text need be readable. What comes before the first place where reading fails counts
as far as it is settled, that is up to the first place where a key may still begin. Whether brackets and
braces match is not asked here.

Every token takes up at least one character, so the length of the text bounds their number.
-/

namespace ForeignKey.Yaml

/-- The greatest distance between the start of a key and its colon. -/
def maxKeyLength : Nat := 1024

/-- The greatest number of flow collections within each other. -/
def maxFlowDepth : Nat := 255

/-- A level of indentation. -/
structure Level where
  column : Nat
  /-- Whether a block collection stands at this level. Otherwise it only keeps what belongs to the last
  token to the right of the collection around. -/
  isBlock : Bool

/-- A place where a key may begin. -/
structure KeyStart where
  position : Position
  /-- The slot of the first token from there on. -/
  slot : Nat
  /-- Whether nothing but a key can stand there. -/
  isRequired : Bool

/-- Whether a place is too far from the start of a key for the colon after it. -/
def KeyStart.isStale (k : KeyStart) (p : Position) : Bool :=
  k.position.line < p.line || k.position.column + maxKeyLength < p.column

/-- A token of the text and what indentation and keys put before it. -/
structure Slot where
  before : List Token
  token : Token

/-- The state of reading tokens. -/
structure Lexer where
  cursor : Cursor
  /-- What comes after the text that is read, from a null character on. -/
  beyond : List Char
  /-- The slots that have been filled, last one first. -/
  slots : List Slot
  /-- The number of slots. -/
  size : Nat
  /-- The open levels of indentation, innermost first. -/
  levels : List Level
  /-- For each open flow collection, innermost first, the key that was possible before it. -/
  flow : List (Option KeyStart)
  /-- For each open flow sequence, innermost first, whether a pair in it has been given a brace that is
  to be closed. -/
  openPairs : List Bool
  /-- Whether pairs keep the form in which they are written. -/
  keepsPairs : Bool
  /-- The last place where a key may have begun. -/
  key? : Option KeyStart
  /-- Whether an item or a key may begin. -/
  mayBegin : Bool
  /-- The place where a colon needs no blank after it. -/
  adjacent? : Option Position
  /-- The line on which a comment ends the plain scalar right before here, if one does. -/
  commentLine? : Option Nat

namespace Lexer

/-- Splits a text at its first null character. -/
def splitAtNull (cs : List Char) : List Char × List Char :=
  (cs.takeWhile (· ≠ '\x00'), cs.dropWhile (· ≠ '\x00'))

/-- The start of a text. -/
def start (cs : List Char) : Lexer :=
  let (text, beyond) := splitAtNull cs
  ⟨⟨text, .start⟩, beyond, [], 0, [], [], [], false, none, true, none, none⟩

/-- The tokens in the first slots. -/
def tokensBefore (slot : Nat) (l : Lexer) : List Token :=
  (l.slots.reverse.take slot).flatMap fun s => s.before ++ [s.token]

/-- The column of the innermost level, `-1` outside all. -/
def indent (l : Lexer) : Int :=
  match l.levels with
  | [] => -1
  | top :: _ => top.column

/-- Whether a flow collection is open. -/
def inFlow (l : Lexer) : Bool := !l.flow.isEmpty

/-- Adds a token. -/
def emit (t : Token) (l : Lexer) : Lexer :=
  { l with slots := ⟨[], t⟩ :: l.slots, size := l.size + 1 }

/-- Puts a token before what is in a slot. -/
def insert (slot : Nat) (t : Token) (l : Lexer) : Lexer :=
  let index := l.size - 1 - slot
  { l with slots := l.slots.modify index fun s => { s with before := t :: s.before } }

/-- Moves to a place. -/
def goTo (cursor : Cursor) (l : Lexer) : Lexer := { l with cursor := cursor }

/-- Settles whether an item or a key may begin. -/
def setMayBegin (b : Bool) (l : Lexer) : Lexer := { l with mayBegin := b }

/-! ## Levels -/

/-- Closes the levels to the right of a column. In flow collections indentation does not count. -/
def closeTo (column : Int) (l : Lexer) : Lexer :=
  if l.inFlow then l
  else
    let closed := l.levels.takeWhile fun level => column < level.column
    let ends := closed.countP (·.isBlock)
    { l with
      levels := l.levels.drop closed.length
      slots := List.replicate ends ⟨[], .blockEnd⟩ ++ l.slots
      size := l.size + ends }

/-- Drops the levels without a collection. -/
def dropOpenLevels (l : Lexer) : Lexer := { l with levels := l.levels.dropWhile (!·.isBlock) }

/-- Opens a level without a collection, one column to the right of the innermost collection. -/
def indentOne (l : Lexer) : Lexer :=
  match l.levels with
  | top :: _ =>
    if l.inFlow || !top.isBlock then l else { l with levels := ⟨top.column + 1, false⟩ :: l.levels }
  | [] => l

/-- Opens a block collection at a column unless one is open there. Its start goes into a slot or after
all tokens. -/
def openBlock (column : Nat) (t : Token) (slot? : Option Nat) (l : Lexer) : Lexer :=
  if l.inFlow then l
  else
    let levels :=
      match l.levels with
      | top :: rest => if top.column ≤ column && !top.isBlock then rest else l.levels
      | [] => []
    let l := { l with levels := levels }
    if l.indent < (column : Int) then
      let l := { l with levels := ⟨column, true⟩ :: levels }
      match slot? with
      | some slot => l.insert slot t
      | none => l.emit t
    else l

/-! ## Keys -/

/-- Keeps this place as the start of a key, if one may begin. It must be one where it stands at the very
column of a block collection. -/
def saveKey (l : Lexer) : Lexer :=
  if l.mayBegin then
    let isRequired :=
      !l.inFlow && l.levels.head?.any fun top => top.isBlock && top.column == l.cursor.column
    { l with key? := some ⟨l.cursor.position, l.size, isRequired⟩ }
  else l

/-- Gives up the possible key; that fails if it must be one. -/
def dropKey? (l : Lexer) : Option Lexer :=
  if l.key?.any (·.isRequired) then none else some { l with key? := none }

/-- The number of slots from the first one on in front of which no key may still begin. -/
def settledSlots (l : Lexer) : Nat :=
  let keys := l.key?.toList ++ l.flow.filterMap id
  let possible := keys.filter fun k => l.inFlow || !k.isStale l.cursor.position
  possible.foldl (fun slots k => min slots k.slot) l.size

/-- Gives up the possible key if the colon can no longer come. -/
def expireKey? (l : Lexer) : Option Lexer :=
  if !l.inFlow && l.key?.any (·.isStale l.cursor.position) then l.dropKey? else some l

/-! ## Tokens -/

/-- Whether a plain scalar that a comment ends on the line before would go on with what stands here, if
it were not for the comment. -/
def resumesPlain (l : Lexer) : Bool :=
  l.commentLine?.any (· + 1 == l.cursor.line) && !l.inFlow && !l.cursor.rest.isEmpty
    && decide (l.indent < l.cursor.column) && !(l.cursor.column == 0 && startsLimit l.cursor.rest)

/-- Passes everything up to the next token. An item or a key may begin on a new line. -/
def skipBetween? (l : Lexer) : Option Lexer := do
  let next ← Yaml.skipBetween? l.indent false l.cursor.rest l.cursor.position
  let mayBegin := l.mayBegin || (!l.inFlow && l.cursor.line < next.line)
  let l := { l with cursor := next, mayBegin := mayBegin }
  if l.resumesPlain then none else some { l with commentLine? := none }

/-- Passes a percent sign and the name after it, and gives that name. A name that goes up to a null
character goes on with it; the text then ends at the next one that is not part of the name. -/
def skipName (l : Lexer) : List Char × Lexer :=
  let isCut := (l.cursor.rest.drop 1).all Directive.isWordChar
  let whole := if isCut then { l.cursor with rest := l.cursor.rest ++ l.beyond } else l.cursor
  let name := (whole.rest.drop 1).takeWhile Directive.isWordChar
  let after := whole.skip (name.length + 1)
  if isCut then
    let (rest, beyond) := splitAtNull after.rest
    (name, { l with cursor := ⟨rest, after.position⟩, beyond := beyond })
  else (name, l.goTo after)

/-- A line with a directive. -/
def directive? (l : Lexer) : Option Lexer := do
  let (name, l) := (← (l.closeTo (-1)).dropKey?).skipName
  let d ← Directive.read? name (l.cursor.rest.takeWhile (· ≠ '\n'))
  some ((l.emit (.directive d)).goTo l.cursor.skipLine |>.setMayBegin false)

/-- Three dashes. What follows on the line is not the start of a block collection. -/
def documentStart? (l : Lexer) : Option Lexer := do
  let l ← (l.closeTo (-1)).dropKey?
  some ((l.emit .documentStart).goTo (l.cursor.skip 3) |>.setMayBegin false)

/-- Three dots, alone on their line. -/
def documentEnd? (l : Lexer) : Option Lexer := do
  let l ← (l.closeTo (-1)).dropKey?
  let margin ← (l.cursor.skip 3).skipMargin?
  if endsLine margin.rest then some ((l.emit .documentEnd).goTo margin |>.setMayBegin false)
  else none

/-- An opening bracket or brace. -/
def openFlow? (isSequence : Bool) (l : Lexer) : Option Lexer :=
  if maxFlowDepth ≤ l.flow.length then none
  else do
    let l := l.saveKey.indentOne
    let margin ← (l.cursor.skip 1).skipMargin?
    let l := l.emit (if isSequence then .flowSequenceStart else .flowMappingStart)
    some { l with
      cursor := margin
      flow := l.key? :: l.flow
      openPairs := if isSequence then false :: l.openPairs else l.openPairs
      keepsPairs := l.keepsPairs || !isSequence
      key? := none
      mayBegin := true }

/-- Closes the brace that a pair of the innermost flow sequence has been given. -/
def closePair (l : Lexer) : Lexer :=
  match l.openPairs with
  | true :: outer => { l.emit .flowMappingEnd with openPairs := false :: outer, keepsPairs := false }
  | _ => l

/-- A closing bracket or brace. The collection that it closes may itself be a key. -/
def closeFlow? (isSequence : Bool) (l : Lexer) : Option Lexer :=
  match l.flow with
  | [] => none
  | outerKey? :: outer => do
    let l ← l.dropKey?
    let l := if isSequence then l.closePair else l
    let margin ← (l.cursor.skip 1).skipMargin?
    let l := l.emit (if isSequence then .flowSequenceEnd else .flowMappingEnd)
    some { l with
      cursor := margin
      flow := outer
      openPairs := if isSequence then l.openPairs.tail else l.openPairs
      key? := outerKey?
      mayBegin := false
      adjacent? := if outer.isEmpty then l.adjacent? else some margin.position }

/-- A comma. -/
def comma? (l : Lexer) : Option Lexer := do
  let l := (← l.dropKey?).closePair
  let margin ← (l.cursor.skip 1).skipMargin?
  some ((l.emit .comma).goTo margin |>.setMayBegin true)

/-- The dash of an item. A tab must not stand between two dashes. -/
def item? (l : Lexer) : Option Lexer :=
  if l.inFlow || !l.mayBegin then none
  else do
    let after := l.cursor.skip 1
    let margin ← after.skipMargin?
    let isTabbed :=
      (after.rest.takeWhile isBlank).contains '\t' && margin.rest.head? == some '-'
        && endsWord (margin.rest.drop 1)
    if isTabbed then none
    else
      let l := l.openBlock l.cursor.column .sequenceStart none
      let l := if endsLine margin.rest || startsFlowMark margin.rest then l.indentOne else l
      let l ← l.dropKey?
      some ((l.emit .item).goTo margin |>.setMayBegin true)

/-- The question mark before a key. A tab must not come next, on whatever line. -/
def explicitKey? (l : Lexer) : Option Lexer :=
  if !l.inFlow && !l.mayBegin then none
  else do
    let l ← (l.openBlock l.cursor.column .mappingStart none).dropKey?
    let after := l.cursor.skip 1
    if after.rest.isEmpty || startsTab false after.rest then none
    else
      let l := { l with keepsPairs := l.keepsPairs || l.inFlow }
      some ((l.emit .key).goTo after |>.setMayBegin (!l.inFlow))

/-- The colon before a value. What stands before it on the line is its key, if a key was possible; the
key of a pair that is given braces must be on the same line. -/
def value? (l : Lexer) : Option Lexer :=
  let after := l.cursor.skip 1
  let blanks := after.rest.takeWhile isBlank
  let isTabbed :=
    !blanks.isEmpty && blanks.all (· == '\t') && (after.rest.drop blanks.length).head?.any isNameChar
  let bracesPair := !l.openPairs.isEmpty && !l.keepsPairs
  let l := if bracesPair then { l with openPairs := true :: l.openPairs.tail } else l
  if isTabbed then none
  else
    match l.key? with
    | some k =>
      if bracesPair && k.position.line < l.cursor.line then none
      else
        let l := l.insert k.slot .key
        let l := if bracesPair then l.insert k.slot .flowMappingStart else l
        let l := l.openBlock k.position.column .mappingStart (some k.slot)
        some ({ l.indentOne with key? := none, mayBegin := false }.emit .value |>.goTo after)
    | none =>
      if !l.inFlow && !l.mayBegin then none
      else
        let l := if bracesPair then l.emit .flowMappingStart else l
        let l := (l.openBlock l.cursor.column .mappingStart none).indentOne
        some ((l.emit .value).goTo after |>.setMayBegin (!l.inFlow))

/-- The name after an anchor or reference mark. -/
def name? (mark : String → Token) (l : Lexer) : Option Lexer :=
  let l := l.saveKey.setMayBegin false
  let isAnchorChar (c : Char) : Bool := !isBlank c && !isFlowMark c && c != '\n' && c != '\uFEFF'
  let name := (l.cursor.rest.drop 1).takeWhile isAnchorChar
  if name.isEmpty then none
  else some ((l.emit (mark (String.ofList name))).goTo (l.cursor.skip (name.length + 1)))

/-- A tag. It ends a word or, in a flow collection, an item. -/
def tag? (l : Lexer) : Option Lexer := do
  let l := l.saveKey.setMayBegin false
  let line := (l.cursor.rest.drop 1).takeWhile (· ≠ '\n')
  let (t, after) ← Tag.read? line
  if endsWord after || (l.inFlow && startsFlowMark after) then
    some ((l.emit (.tag t)).goTo (l.cursor.skip (line.length - after.length + 1)))
  else none

/-- A block scalar. -/
def blockScalar? (style : ScalarStyle) (l : Lexer) : Option Lexer := do
  let l := (l.saveKey.setMayBegin true).dropOpenLevels
  let block ← l.cursor.blockScalar? (style == .folded) l.indent
  let t :=
    if style == .folded && block.isFlush then Token.flushBlock
    else .scalar style (String.ofList block.text)
  some ((l.emit t).goTo block.after)

/-- Whether a quoted scalar may be followed by this: the end of the line, the end of a flow item, or
the colon after a key, which outside flow collections is on one line. -/
def mayFollowQuoted (l : Lexer) (margin : Cursor) : Bool :=
  match margin.rest with
  | [] => true
  | c :: _ =>
    c == '\n' || (l.inFlow && [',', ']', '\x7d'].contains c)
      || (c == ':' && (l.inFlow || l.cursor.line == margin.line))

/-- A quoted scalar. A colon right after it needs no blank after it in flow collections. -/
def quoted? (quote : Quote) (l : Lexer) : Option Lexer := do
  let l := l.saveKey.setMayBegin false
  let (text, after) ← l.cursor.quoted? quote l.inFlow l.indent
  let margin ← after.skipMargin?
  if l.mayFollowQuoted margin then
    let style := if quote = .single then ScalarStyle.singleQuoted else .doubleQuoted
    let l ← (l.goTo margin).skipBetween?
    some { l.emit (.scalar style (String.ofList text)) with adjacent? := some l.cursor.position }
  else none

/-- A plain scalar. After it an item or a key may begin if it was ended by its line. -/
def plain? (l : Lexer) : Option Lexer := do
  let l := l.saveKey.dropOpenLevels
  let (text, after) ← l.cursor.plain? l.inFlow l.indent
  let endsAtComment := !l.inFlow && !after.position.leading && after.rest.head? == some '#'
  let l := l.emit (.scalar .plain (String.ofList text))
  some { l with
    cursor := after
    mayBegin := after.position.leading
    commentLine? := if endsAtComment then some after.line else none }

/-- A colon. It stands before a value if it ends a word, and in a flow collection also right after
what is surely a key or at the end of an item. Before an opening bracket or brace it needs a blank;
otherwise it begins a plain scalar. -/
def colon? (l : Lexer) (rest : List Char) : Option Lexer :=
  if endsWord rest || (l.inFlow && l.adjacent? == some l.cursor.position) then l.value?
  else if l.inFlow && startsFlowMark rest then
    if rest.head? = some '[' ∨ rest.head? = some '\x7b' then none else l.value?
  else l.plain?

/-- A token by its first character. -/
def tokenAt? (l : Lexer) (c : Char) (rest : List Char) : Option Lexer :=
  match c with
  | '[' => l.openFlow? true
  | '\x7b' => l.openFlow? false
  | ']' => l.closeFlow? true
  | '\x7d' => l.closeFlow? false
  | ',' => l.comma?
  | '-' => if endsWord rest then l.item? else l.plain?
  | '?' => if endsWord rest then l.explicitKey? else l.plain?
  | ':' => l.colon? rest
  | '*' => l.name? .reference
  | '&' => l.name? .anchor
  | '!' => l.tag?
  | '|' => if l.inFlow then l.plain? else l.blockScalar? .literal
  | '>' => if l.inFlow then l.plain? else l.blockScalar? .folded
  | '\x27' => l.quoted? .single
  | '\x22' => l.quoted? .double
  | '%' => none
  | '@' => none
  | '\x60' => none
  | _ => l.plain?

/-- Whether a token may stand to the left of the innermost level: what ends an item of a flow collection
may. -/
def mayOutdent (l : Lexer) (c : Char) : Bool := l.inFlow && [',', ']', '\x7d'].contains c

/-- The next token. At the start of a line it may be a directive or the limit of a document, which must
not stand in a flow collection; other tokens do not stand to the left of the innermost level, except for
those that end a flow item. -/
def token? (l : Lexer) : Option Lexer :=
  match l.cursor.rest with
  | [] => none
  | c :: rest =>
    if l.cursor.column = 0 ∧ c = '%' then l.directive?
    else if l.inFlow ∧ l.cursor.column = 0 ∧ startsLimit (c :: rest) then none
    else if l.cursor.column = 0 ∧ startsTriple '-' (c :: rest) then l.documentStart?
    else if l.cursor.column = 0 ∧ startsTriple '.' (c :: rest) then l.documentEnd?
    else if l.cursor.column < l.indent ∧ ¬l.mayOutdent c then none
    else l.tokenAt? c rest

/-- The end of the text, which leaves no flow collection open and no key without its colon. -/
def finish? (l : Lexer) : Option Lexer := if l.inFlow then none else (l.closeTo (-1)).dropKey?

/-- Reads the next token or the end of the text, and tells whether it was the end. -/
def next? (l : Lexer) : Option (Lexer × Bool) := do
  let l ← l.skipBetween?
  let l ← l.expireKey?
  let l := l.closeTo l.cursor.column
  if l.cursor.rest.isEmpty then some (← l.finish?, true) else some (← l.token?, false)

/-- Reads up to `fuel` tokens and the end of the text. -/
def run : Nat → Lexer → TokenStream
  | 0, l => ⟨l.tokensBefore l.settledSlots, false⟩
  | fuel + 1, l =>
    match l.next? with
    | none => ⟨l.tokensBefore l.settledSlots, false⟩
    | some (l, true) => ⟨l.tokensBefore l.size, true⟩
    | some (l, false) => run fuel l

end Lexer

/-- The tokens of a text. -/
def TokenStream.ofText (cs : List Char) : TokenStream := (Lexer.start cs).run (cs.length + 1)

end ForeignKey.Yaml
