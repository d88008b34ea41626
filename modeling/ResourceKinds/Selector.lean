import ResourceKinds.Kind.Basic
import ResourceKinds.Text.Split

namespace ResourceKinds

namespace Text

/-- The pattern matches the whole text: a star stands for any characters but line breaks, every other character for
itself. -/
def globMatches : (pattern text : List Char) → Bool
  | [], text => text.isEmpty
  | p :: pattern, text =>
    if p = '*' then
      match text with
      | [] => globMatches pattern []
      | c :: rest => globMatches pattern (c :: rest) || (c ≠ '\n' && globMatches (p :: pattern) rest)
    else match text with
    | [] => false
    | c :: rest => c = p && globMatches pattern rest
termination_by pattern text => (pattern.length, text.length)

def matchesGlob (pattern text : String) : Bool := globMatches pattern.toList text.toList

end Text

structure KindPattern where
  /-- The pattern for the group; without one any group will do. -/
  group : Option String
  kind : String
deriving DecidableEq

namespace KindPattern

/-- The last slash separates the group from the kind. -/
def ofText (text : String) : KindPattern :=
  match Text.cutLast? '/' text with
  | some (group, kind) => ⟨some group, kind⟩
  | none => ⟨none, text⟩

def accepts (pattern : KindPattern) (kind : KindDefinition) : Bool :=
  Text.matchesGlob pattern.kind kind.kind && pattern.group.all fun group => Text.matchesGlob group kind.group

end KindPattern

/-- Patterns for the name of a kind or, with a slash, for its group and its name. Without any, every kind is selected. -/
structure KindSelector where
  source : String
  patterns : List KindPattern
deriving DecidableEq

namespace KindSelector

/-- Selects every kind. -/
def all : KindSelector := ⟨"*", []⟩

def ofText (text : String) : KindSelector :=
  ⟨text, (((Text.split ',' text).map Text.trim).filter (· ≠ "")).map .ofText⟩

def accepts (selector : KindSelector) (kind : KindDefinition) : Bool :=
  selector.patterns.isEmpty || selector.patterns.any (·.accepts kind)

/-- Some kind of the manifest is selected. -/
def acceptsAny (selector : KindSelector) (manifest : AppManifest) : Bool := manifest.kinds.any selector.accepts

/-- The manifest with its selected kinds only. -/
def restrict (selector : KindSelector) (manifest : AppManifest) : AppManifest :=
  { manifest with kinds := manifest.kinds.filter selector.accepts }

end KindSelector

end ResourceKinds
