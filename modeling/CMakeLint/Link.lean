import CMakeLint.Text.Basic

/-!
Links to documentation. A link without a description of its own is described by the name of the page it leads to.
-/
namespace CMakeLint

/-- A link and what it leads to. -/
structure Link where
  uri : Text
  description : Option Text
  deriving DecidableEq, Repr

namespace Link

/-- Names of CMake commands that are shown with brackets. -/
def isCommandName (name : Text) : Bool :=
  !name.isEmpty && name.all (fun c => ('a' ≤ c && c ≤ 'z') || c = '_') &&
    ["set_", "target_", "find_", "project"].any fun start => start.toList.isPrefixOf name

/-- The name of the page a link leads to: what stands between the last slash and the last dot after it. -/
def pageName? (uri : Text) : Option Text := do
  let page ← uri.afterLast? '/'
  let name ← page.beforeLast? '.'
  return if isCommandName name then name ++ ['(', ')'] else name

/-- A link described by its page. -/
def ofUri (uri : Text) : Link :=
  ⟨uri, pageName? uri⟩

/-- A link with a description, or one described by its page. -/
def make (uri : Text) (description : Option Text) : Link :=
  match description with
  | some d => ⟨uri, some d⟩
  | none => ofUri uri

/-- Whether a link leads anywhere. -/
def isGiven (link : Link) : Bool :=
  !link.uri.isEmpty

/-- The description and the address, or the address alone. -/
def toText (link : Link) : Text :=
  match link.description with
  | some (c :: d) => (c :: d) ++ [':', ' '] ++ link.uri
  | _ => link.uri

end Link

end CMakeLint
