import CMakeLint.Text.Decimal

/-!
The version of this linter.
-/
namespace CMakeLint

/-- The parts of the version. -/
def version : List Nat := [0, 5, 1]

/-- The version as text. -/
def versionText : Text :=
  Text.join ['.'] (version.map Text.ofNat)

end CMakeLint
