namespace ResourceKinds.Text

inductive CharSet where
  | range (first last : Char)
  | either (a b : CharSet)
  | both (a b : CharSet)
  | except (a b : CharSet)
  | outside (a : CharSet)
  | empty
  /-- Upper and lower case letters of ASCII count as the same. -/
  | caseless (a : CharSet)
deriving DecidableEq

namespace CharSet

def contains : CharSet → Char → Bool
  | .range first last, c => first ≤ c && c ≤ last
  | .either a b, c => a.contains c || b.contains c
  | .both a b, c => a.contains c && b.contains c
  | .except a b, c => a.contains c && !b.contains c
  | .outside a, c => !a.contains c
  | .empty, _ => false
  | .caseless a, c => a.contains c || a.contains c.toLower || a.contains c.toUpper

def single (c : Char) : CharSet := .range c c

def ofList (chars : List Char) : CharSet := chars.foldr (fun c set => .either (single c) set) .empty

def any : CharSet := .outside .empty

def digit : CharSet := .range '0' '9'

def word : CharSet := .either (.either (.range 'A' 'Z') (.range 'a' 'z')) (.either digit (single '_'))

def space : CharSet :=
  ofList [' ', '\t', '\n', '\r', '\x0b', '\x0c', '\u2003', '\ufeff', '\u2029', '\u00a0']

end CharSet

inductive Anchor where
  | textStart | textEnd | lineStart | lineEnd | wordEdge | noWordEdge
deriving DecidableEq

/-- A match is a path from one place of the text to another. -/
inductive Pattern where
  | empty
  | char (set : CharSet)
  | anchor (anchor : Anchor)
  | seq (first second : Pattern)
  | either (first second : Pattern)
  /-- At least so many times, and at most so many times more. -/
  | loop (body : Pattern) (least : Nat) (more : Option Nat) (greedy : Bool)
  /-- A group whose text may be asked for again. -/
  | group (index : Nat) (body : Pattern)
  | again (index : Nat)
  | ahead (negated : Bool) (body : Pattern)
  | behind (negated : Bool) (body : Pattern)
  /-- Only the match that is preferred counts. -/
  | atomic (body : Pattern)
deriving DecidableEq

/-- A place in a text: what lies before it, in reverse, and after it; and the texts of the groups
matched on the way. -/
structure Cursor where
  before : List Char
  after : List Char
  groups : List (Nat × List Char)
deriving DecidableEq

namespace Cursor

def advance (cursor : Cursor) (c : Char) (rest : List Char) : Cursor :=
  { cursor with before := c :: cursor.before, after := rest }

def isWordChar (c : Char) : Bool := CharSet.word.contains c || 0xAA ≤ c.toNat

/-- Exactly one of the neighbours is part of a word. -/
def atWordEdge (cursor : Cursor) : Bool := cursor.before.head?.any isWordChar != cursor.after.head?.any isWordChar

def meets (cursor : Cursor) : Anchor → Bool
  | .textStart => cursor.before.isEmpty
  | .textEnd => cursor.after.isEmpty
  | .lineStart => cursor.before.head?.all (· = '\n')
  | .lineEnd => cursor.after.head?.all (· = '\n')
  | .wordEdge => cursor.atWordEdge
  | .noWordEdge => !cursor.atWordEdge

/-- The cursor after a given text, if that comes next. -/
def consume? (cursor : Cursor) : List Char → Option Cursor
  | [] => some cursor
  | c :: wanted => match cursor.after with
    | [] => none
    | d :: rest => if c = d then (cursor.advance d rest).consume? wanted else none

/-- The text between an earlier cursor and this one. -/
def since (cursor earlier : Cursor) : List Char :=
  (cursor.before.take (cursor.before.length - earlier.before.length)).reverse

/-- The text of a group, in place of an earlier one. -/
def record (cursor : Cursor) (index : Nat) (text : List Char) : Cursor :=
  { cursor with groups := (index, text) :: cursor.groups.filter (·.1 ≠ index) }

/-- The cursors at this place and at all places after it. -/
def onward (cursor : Cursor) : List Cursor :=
  go cursor cursor.after
where
  go (cursor : Cursor) : List Char → List Cursor
    | [] => [cursor]
    | c :: rest => cursor :: go (cursor.advance c rest) rest

/-- The cursors at this place and at all places before it. -/
def backward (cursor : Cursor) : List Cursor :=
  go cursor cursor.before
where
  go (cursor : Cursor) : List Char → List Cursor
    | [] => [cursor]
    | c :: rest => cursor :: go { cursor with before := rest, after := c :: cursor.after } rest

end Cursor

namespace Pattern

/-- The cursors reached by exactly so many steps. -/
def repeated (step : Cursor → List Cursor) : Nat → List Cursor → List Cursor
  | 0, cursors => cursors
  | n + 1, cursors => repeated step n (cursors.flatMap step).eraseDups

/-- The cursors reached by up to so many steps more, in the order in which they are reached. -/
def closure (step : Cursor → List Cursor) : Nat → (reached frontier : List Cursor) → List Cursor
  | 0, reached, _ => reached
  | n + 1, reached, frontier =>
    match ((frontier.flatMap step).eraseDups).filter (!reached.contains ·) with
    | [] => reached
    | next => closure step n (reached ++ next) next

/-- The cursors at which a match that begins at the given one may end. -/
def ends : Pattern → Cursor → List Cursor
  | .empty, cursor => [cursor]
  | .char set, cursor => match cursor.after with
    | [] => []
    | c :: rest => if set.contains c then [cursor.advance c rest] else []
  | .anchor place, cursor => if cursor.meets place then [cursor] else []
  | .seq first second, cursor => ((first.ends cursor).flatMap second.ends).eraseDups
  | .either first second, cursor => (first.ends cursor ++ second.ends cursor).eraseDups
  | .loop body least more greedy, cursor =>
    let start := repeated body.ends least [cursor]
    let reached := closure body.ends (more.getD (cursor.after.length + 1)) start start
    if greedy then reached.reverse else reached
  | .group index body, cursor =>
    (body.ends cursor).map fun done => done.record index (done.since cursor)
  | .again index, cursor => match cursor.groups.lookup index with
    | none => []
    | some text => (cursor.consume? text).toList
  | .ahead negated body, cursor => if (body.ends cursor).isEmpty == negated then [cursor] else []
  | .behind negated body, cursor =>
    let found := cursor.backward.any fun start =>
      (body.ends start).any fun done => done.before.length = cursor.before.length
    if found != negated then [cursor] else []
  | .atomic body, cursor => (body.ends cursor).take 1

/-- The pattern matches some part of the text. -/
def isFoundIn (pattern : Pattern) (text : String) : Bool :=
  (Cursor.onward ⟨[], text.toList, []⟩).any fun start => !(pattern.ends start).isEmpty

end Pattern

end ResourceKinds.Text
