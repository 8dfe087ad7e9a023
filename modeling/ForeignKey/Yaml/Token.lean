import ForeignKey.Yaml.Directive
import ForeignKey.Yaml.Style
import ForeignKey.Yaml.Tag

/-!
# YAML tokens

What a YAML text is made of once its indentation has been understood. Block collections have tokens for
their start and their end, which the text does not show; a key of a block mapping has a token of its
own even where no question mark stands before it.
-/

namespace ForeignKey.Yaml

/-- The tokens of YAML. -/
inductive Token where
  | directive (d : Directive)
  /-- Three dashes. -/
  | documentStart
  /-- Three dots. -/
  | documentEnd
  /-- The start of a block sequence. -/
  | sequenceStart
  /-- The start of a block mapping. -/
  | mappingStart
  /-- The end of a block collection. -/
  | blockEnd
  /-- The dash before an item of a block sequence. -/
  | item
  /-- The place before a key. -/
  | key
  /-- The colon between a key and its value. -/
  | value
  /-- An opening bracket. -/
  | flowSequenceStart
  /-- A closing bracket. -/
  | flowSequenceEnd
  /-- An opening brace. -/
  | flowMappingStart
  /-- A closing brace. -/
  | flowMappingEnd
  /-- The comma between the items of a flow collection. -/
  | comma
  /-- The name that a node is given. -/
  | anchor (name : String)
  /-- The name of a node in its place. -/
  | reference (name : String)
  | tag (t : Tag)
  | scalar (style : ScalarStyle) (text : String)
  /-- A folded block whose lines stand at the very left. No node is spelt like that. -/
  | flushBlock
  deriving DecidableEq

/-- The tokens of a text, as far as they can be read. -/
structure TokenStream where
  tokens : List Token
  /-- Whether the text ends after them. Otherwise what comes next is no token. -/
  isComplete : Bool

end ForeignKey.Yaml
