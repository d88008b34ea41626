namespace ResourceKinds.Text

/-- Takes some characters off the front of a text. -/
abbrev Scan := StateT (List Char) Option

namespace Scan

def peek : Scan (Option Char) := do return (← get).head?

def next : Scan Char := do
  match ← get with
  | [] => failure
  | c :: rest => do
    set rest
    return c

def skip (n : Nat) : Scan Unit := modify (·.drop n)

/-- Takes the given text off, if it comes next. -/
def accept (text : String) : Scan Bool := do
  if text.toList.isPrefixOf (← get) then
    skip text.length
    return true
  else return false

def expect (text : String) : Scan Unit := do
  unless ← accept text do failure

def takeWhile (keep : Char → Bool) : Scan (List Char) := do
  let taken := (← get).takeWhile keep
  skip taken.length
  return taken

def atEnd : Scan Bool := do return (← get).isEmpty

end Scan

end ResourceKinds.Text
