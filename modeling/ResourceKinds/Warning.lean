import ResourceKinds.Text.Quoted
import ResourceKinds.Table

namespace ResourceKinds

inductive Warning where
  | recursionCut (kind version : String) (cycles : List String)
  | hubNotHighest (group kind hub : String) (highest : Option String)
  | pathCollision (path : String) (generators : List String)
deriving DecidableEq

namespace Warning

/-- The warning as named texts. -/
def fields : Warning → Fields String
  | .recursionCut kind version cycles =>
    [("cycles", Text.quotedList cycles), ("kind", kind),
      ("message", "recursive schema references replaced by open objects"), ("version", version)]
  | .hubNotHighest group kind hub highest =>
    [("group", group), ("highest", Text.quotedOption highest), ("hub", hub), ("kind", kind),
      ("message", "hub elected by declaration order is not the highest priority version")]
  | .pathCollision path generators =>
    [("generators", Text.quotedList generators),
      ("message", "path collision, keeping first artifact"), ("path", path)]

end Warning

/-- A value with the warnings raised on the way to it, oldest first. -/
structure Logged (α : Type) where
  value : α
  warnings : List Warning

namespace Logged

instance : Monad Logged where
  pure value := ⟨value, []⟩
  bind first next :=
    let second := next first.value
    ⟨second.value, first.warnings ++ second.warnings⟩

def warn (warning : Warning) : Logged Unit := ⟨(), [warning]⟩

theorem bind_value (first : Logged α) (next : α → Logged β) :
    (first >>= next).value = (next first.value).value := rfl

theorem bind_warnings (first : Logged α) (next : α → Logged β) :
    (first >>= next).warnings = first.warnings ++ (next first.value).warnings := rfl

instance : LawfulMonad Logged := LawfulMonad.mk' Logged
  (fun x => by simp [Functor.map])
  (fun x f => by simp [bind, pure])
  (fun x f g => by simp [bind, List.append_assoc])

end Logged

end ResourceKinds
