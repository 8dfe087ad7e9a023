import ForeignKey.Yaml.Token

/-!
# YAML nodes

The tree that the tokens of a document describe, before its scalars are understood: what a plain
scalar means is a question for `ForeignKey.Yaml.Schema`. A reference is replaced by the node that it
names. A node that is left out is a plain scalar of its own.

A text of a few lines can describe a tree of any size, since references repeat what they name. So there
are limits to the depth and the extent of the tree and to the use of references.

A name means the node that was last begun with it. A reference within that node, which is not complete
yet, means nothing.

What follows a document that is complete need not make sense, as long as its first token can be read.
It must only not be another document.

Reading spends one unit of fuel per step into a collection or from an item to the next. Each item takes
up a token, so the number of tokens bounds what is needed.
-/

namespace ForeignKey.Yaml

/-- A node of a document. Scalars keep their style and the kind that their tag names. -/
inductive Node where
  | scalar (style : ScalarStyle) (kind? : Option TagKind) (text : String)
  | sequence (items : List Node)
  | mapping (entries : List (Node × Node))

/-- What stands for a node that is left out. -/
def Node.missing : Node := .scalar .plain none "~"

/-- Whether a node, as a key, merges other mappings into its own. -/
def Node.isMergeKey : Node → Bool
  | .scalar .plain none "<<" => true
  | _ => false

/-! ## Limits -/

/-- What a tree adds up to. -/
structure Extent where
  nodes : Nat
  /-- The number of bytes of its scalars in UTF-8. -/
  bytes : Nat
  /-- The number of its keys that merge. -/
  merges : Nat
  deriving DecidableEq

namespace Extent

/-- The extent of two trees together. -/
def add (e f : Extent) : Extent := ⟨e.nodes + f.nodes, e.bytes + f.bytes, e.merges + f.merges⟩

instance : Add Extent := ⟨add⟩

/-- The extent of nothing. -/
def empty : Extent := ⟨0, 0, 0⟩

/-- The extent of a collection without what is in it. -/
def collection : Extent := ⟨1, 0, 0⟩

/-- The extent of a scalar. -/
def scalar (text : String) : Extent := ⟨1, text.utf8ByteSize, 0⟩

/-- What the place of a key adds to the extent of the key itself. -/
def asKey (key : Node) : Extent := ⟨0, 0, if key.isMergeKey then 1 else 0⟩

/-- The greatest extent. -/
def limit : Extent := ⟨250000, 64 * 1024 * 1024, 10000⟩

/-- Whether an extent is within the limits. -/
def isAllowed (e : Extent) : Bool :=
  e.nodes ≤ limit.nodes && e.bytes ≤ limit.bytes && e.merges ≤ limit.merges

end Extent

namespace Node

mutual

/-- The extent of a tree. -/
def extent : Node → Extent
  | .scalar _ _ text => .scalar text
  | .sequence items => .collection + itemsExtent items
  | .mapping entries => .collection + entriesExtent entries

/-- The extent of items. -/
def itemsExtent : List Node → Extent
  | [] => .empty
  | n :: rest => n.extent + itemsExtent rest

/-- The extent of entries. -/
def entriesExtent : List (Node × Node) → Extent
  | [] => .empty
  | (k, n) :: rest => .asKey k + k.extent + n.extent + entriesExtent rest

end

mutual

/-- The number of collections within each other in a tree. -/
def depth : Node → Nat
  | .scalar _ _ _ => 0
  | .sequence items => itemsDepth items + 1
  | .mapping entries => entriesDepth entries + 1

/-- The greatest depth of items. -/
def itemsDepth : List Node → Nat
  | [] => 0
  | n :: rest => max n.depth (itemsDepth rest)

/-- The greatest depth of entries. -/
def entriesDepth : List (Node × Node) → Nat
  | [] => 0
  | (k, n) :: rest => max (max k.depth n.depth) (entriesDepth rest)

end

end Node

/-- The greatest number of collections within each other. -/
def maxDepth : Nat := 2000

/-- The greatest number of names that are given, and of references. -/
def maxNames : Nat := 50000

/-- Whether there are too many references for the names that are given: a hundred or more, and more
than ten for each name. -/
def isOverused (references names : Nat) : Bool := 100 ≤ references && 10 * names < references

/-! ## Steps -/

/-- The state of reading nodes: the tokens to come, the nodes that have been named, what the handles of
tags stand for, and what counts towards the limits. -/
structure NodeSource where
  stream : TokenStream
  /-- The names that have been given, last one first, each with its number. -/
  names : List (String × Nat)
  /-- The complete nodes by the numbers of their names. -/
  named : List (Nat × Node)
  handles : List (String × String)
  /-- The number of collections around the next node. -/
  depth : Nat
  /-- What has been read so far, with every reference as what it stands for. -/
  extent : Extent
  /-- The number of names that have been given. -/
  nameCount : Nat
  /-- The number of references so far. -/
  references : Nat

/-- The start of a stream of tokens. -/
def NodeSource.start (stream : TokenStream) : NodeSource := ⟨stream, [], [], [], 0, .empty, 0, 0⟩

/-- A step of reading nodes. -/
abbrev NodeReader := StateT NodeSource Option

namespace NodeReader

/-- The tokens to come. -/
def tokens : NodeReader (List Token) := do return (← get).stream.tokens

/-- Goes on with some tokens. -/
def setTokens (ts : List Token) : NodeReader Unit :=
  modify fun s => { s with stream := { s.stream with tokens := ts } }

/-- The next token, if the text does not end here. -/
def peek? : NodeReader (Option Token) := do
  match (← get).stream with
  | ⟨t :: _, _⟩ => return some t
  | ⟨[], isComplete⟩ => if isComplete then return none else failure

/-- Passes a token. -/
def skip : NodeReader Unit := do setTokens (← tokens).tail

/-- Passes a token if it is the next one, and tells whether it was. -/
def accept (t : Token) : NodeReader Bool := do
  if (← peek?) = some t then
    skip
    return true
  else return false

/-- Passes a token that must come next. -/
def expect (t : Token) : NodeReader Unit := do if !(← accept t) then failure

/-- Whether the next token is one of some tokens. -/
def comes (ts : List Token) : NodeReader Bool := do return (← peek?).any ts.contains

/-- Passes the token before a key, and tells whether a key or a value without key comes. -/
def startsPair : NodeReader Bool := do return (← accept .key) || (← comes [.value])

/-- Counts what is read. -/
def count (e : Extent) : NodeReader Unit := do
  modify fun s => { s with extent := s.extent + e }
  if !(← get).extent.isAllowed then failure

/-- A node that is left out. -/
def missing : NodeReader Node := do
  count Node.missing.extent
  return .missing

/-- Reads what is in a collection. -/
def nested {α : Type} (inside : NodeReader α) : NodeReader α := do
  count .collection
  let depth := (← get).depth
  if maxDepth ≤ depth then failure
  modify fun s => { s with depth := depth + 1 }
  let a ← inside
  modify fun s => { s with depth := depth }
  return a

/-- The node that a name means. -/
def named (name : String) : NodeReader Node := do
  let number ← (← get).names.lookup name
  let n ← (← get).named.lookup number
  modify fun s => { s with references := s.references + 1 }
  if maxNames < (← get).references then failure
  count n.extent
  if maxDepth < (← get).depth + n.depth then failure
  return n

/-- Gives a name to the node that begins here, and tells the number of the name. -/
def openName (name : String) : NodeReader Nat := do
  let number := (← get).nameCount
  modify fun s => { s with names := (name, number) :: s.names, nameCount := number + 1 }
  if maxNames < (← get).nameCount then failure
  return number

/-- Completes the node whose name has a number. -/
def closeName (number : Nat) (node : Node) : NodeReader Unit :=
  modify fun s => { s with named := (number, node) :: s.named }

/-! ## Properties -/

/-- The properties of a node: the number of the name that it is given and the kind that its tag
names. -/
structure Properties where
  number? : Option Nat
  kind? : Option TagKind

/-- Whether a node has a property. -/
def Properties.isGiven (p : Properties) : Bool := p.number?.isSome || p.kind?.isSome

/-- A scalar with its properties. If it has a name and is empty, quotes do not tell it from one that is
left out. -/
def Properties.scalar (p : Properties) (style : ScalarStyle) (text : String) : Node :=
  let isQuoted := style == .singleQuoted || style == .doubleQuoted
  let looksMissing := p.number?.isSome && text.isEmpty && isQuoted
  .scalar (if looksMissing then .plain else style) p.kind? text

/-- The number of the name that is given, if one comes. -/
def anchor? : NodeReader (Option Nat) := do
  match ← peek? with
  | some (.anchor name) =>
    skip
    return some (← openName name)
  | _ => return none

/-- The kind that a tag names, if one comes. -/
def kind? : NodeReader (Option TagKind) := do
  match ← peek? with
  | some (.tag t) =>
    skip
    let kind ← t.kind? (← get).handles
    return some kind
  | _ => return none

/-- The properties of a node, in any order. -/
def properties : NodeReader Properties := do
  match ← anchor? with
  | some number => return ⟨some number, ← kind?⟩
  | none =>
    match ← kind? with
    | some kind => return ⟨← anchor?, some kind⟩
    | none => return ⟨none, none⟩

/-! ## Nodes -/

/-- Where a node stands, which decides what collections it may be. -/
inductive Place where
  /-- Next to a key or a colon in a block, where a sequence need not be indented. -/
  | entry
  /-- At the start of a document or of an item of a block sequence. -/
  | block
  /-- In a flow collection. -/
  | flow
  deriving DecidableEq

mutual

/-- A node. -/
def node (place : Place) : Nat → NodeReader Node
  | 0 => failure
  | fuel + 1 => do
    match ← peek? with
    | some (.reference name) =>
      skip
      named name
    | _ =>
      let p ← properties
      let n ← content place p fuel
      if let some number := p.number? then closeName number n
      return n

/-- A node without its properties. With properties it may be empty. -/
def content (place : Place) (p : Properties) : Nat → NodeReader Node
  | 0 => failure
  | fuel + 1 => do
    match place, ← peek? with
    | _, some (.scalar style text) =>
      skip
      count (.scalar text)
      return p.scalar style text
    | _, some .flushBlock => failure
    | _, some .flowSequenceStart =>
      skip
      return .sequence (← nested (flowItems true fuel))
    | _, some .flowMappingStart =>
      skip
      return .mapping (← nested (flowEntries true fuel))
    | .entry, some .item => return .sequence (← nested (items false fuel))
    | .entry, some .sequenceStart | .block, some .sequenceStart =>
      skip
      return .sequence (← nested (items true fuel))
    | .entry, some .mappingStart | .block, some .mappingStart =>
      skip
      return .mapping (← nested (entries fuel))
    | _, _ =>
      if !p.isGiven then failure
      count (.scalar "")
      return p.scalar .plain ""

/-- A node unless one of some tokens comes. -/
def nodeBefore (ends : List Token) (place : Place) : Nat → NodeReader Node
  | 0 => failure
  | fuel + 1 => do if ← comes ends then missing else node place fuel

/-- The items of a block sequence. One that is not indented has no token for its end. -/
def items (indented : Bool) : Nat → NodeReader (List Node)
  | 0 => failure
  | fuel + 1 => do
    if ← accept .item then
      let ends := if indented then [Token.item, .blockEnd] else [.item, .blockEnd, .key, .value]
      let n ← nodeBefore ends .block fuel
      return n :: (← items indented fuel)
    else
      if indented then expect .blockEnd
      return []

/-- The entries of a block mapping. -/
def entries : Nat → NodeReader (List (Node × Node))
  | 0 => failure
  | fuel + 1 => do
    let ends := [Token.blockEnd, .key, .value]
    if ← accept .blockEnd then return []
    else
      if !(← startsPair) then failure
      let k ← nodeBefore ends .entry fuel
      count (.asKey k)
      let v ← if ← accept .value then nodeBefore ends .entry fuel else missing
      return (k, v) :: (← entries fuel)

/-- A key with its value, in a flow collection. Both may be empty. -/
def flowPair (close : Token) : Nat → NodeReader (Node × Node)
  | 0 => failure
  | fuel + 1 => do
    let ends := [Token.value, .comma, close]
    let k ← nodeBefore ends .flow fuel
    count (.asKey k)
    let v ← if ← accept .value then nodeBefore ends .flow fuel else missing
    return (k, v)

/-- The items of a flow sequence. A pair stands for a mapping with one entry. -/
def flowItems (isFirst : Bool) : Nat → NodeReader (List Node)
  | 0 => failure
  | fuel + 1 => do
    if ← accept .flowSequenceEnd then return []
    else
      if !isFirst then expect .comma
      if ← accept .flowSequenceEnd then return []
      else
        let isPair ← startsPair
        let n ←
          if isPair then do pure (.mapping [← nested (flowPair .flowSequenceEnd fuel)])
          else node .flow fuel
        return n :: (← flowItems false fuel)

/-- The entries of a flow mapping. A node that is no pair is a key without value. -/
def flowEntries (isFirst : Bool) : Nat → NodeReader (List (Node × Node))
  | 0 => failure
  | fuel + 1 => do
    if ← accept .flowMappingEnd then return []
    else
      if !isFirst then expect .comma
      if ← accept .flowMappingEnd then return []
      else
        let isPair ← startsPair
        let e ←
          if isPair then flowPair .flowMappingEnd fuel
          else do
            let k ← node .flow fuel
            count (.asKey k)
            pure (k, ← missing)
        return e :: (← flowEntries false fuel)

end

/-! ## Documents -/

/-- The directives before a document. -/
def directives : List Token → List Directive
  | .directive d :: rest => d :: directives rest
  | _ => []

/-- Whether a token cannot be in a document. -/
def limitsDocument : Token → Bool
  | .directive _ | .documentStart | .documentEnd => true
  | _ => false

/-- What comes before a document: marks of document ends, directives, and three dashes, which must come
after directives. Tells whether the dashes came. -/
def prologue : NodeReader Bool := do
  let ts := (← tokens).dropWhile (· = .documentEnd)
  let ds := directives ts
  if !Directive.areCompatible ds then failure
  modify fun s => { s with handles := Directive.handles ds }
  setTokens (ts.drop ds.length)
  let isExplicit ← accept .documentStart
  if !ds.isEmpty && !isExplicit then failure
  return isExplicit

/-- A document. It may be empty. -/
def document (fuel : Nat) : NodeReader Node := do
  let isExplicit ← prologue
  match ← peek? with
  | none => missing
  | some t => if isExplicit && limitsDocument t then missing else node .block fuel

/-- Succeeds where another document begins. Without three dashes one begins only after a mark that ends
the document before, and with any token. -/
def documentStart (isEnded : Bool) : NodeReader Unit := do
  if ← prologue then return
  else if !isEnded then failure
  else if (← peek?).isNone then failure

/-- What may follow a document: nothing that is another one. A directive must not come right after
it. -/
def epilogue : NodeReader Unit := do
  match ← peek? with
  | none => return
  | some (.directive _) => failure
  | some t => if ((documentStart (t == .documentEnd)).run (← get)).isSome then failure

/-- The only document of a text. -/
def onlyDocument (fuel : Nat) : NodeReader Node := do
  let n ← document fuel
  epilogue
  let s ← get
  if isOverused s.references s.nameCount then failure
  return n

end NodeReader

/-- The document that tokens describe. -/
def Node.ofTokens? (stream : TokenStream) : Option Node :=
  (NodeReader.onlyDocument (4 * stream.tokens.length + 4)).run' (.start stream)

end ForeignKey.Yaml
