import CMakeLint.Disk.Archive
import CMakeLint.Run.Outcome

/-!
The command line. The project is read from standard input as a tape archive of the working directory.
-/
namespace CMakeLint

/-- Reads a stream to its end. -/
partial def readAll (input : IO.FS.Stream) (before : ByteArray) : IO ByteArray := do
  let bytes ← input.read 65536
  if bytes.isEmpty then return before else readAll input (before ++ bytes)

/-- What is around this run. -/
def currentWorld : IO World := do
  let here := Path.namesOf ((← IO.getEnv "PWD").getD "/").toList
  let location := ((← IO.getEnv "_").getD "check-cmake").toList
  let input ← IO.getStdin
  let archive ← if ← input.isTty then pure .empty else readAll input .empty
  return ⟨Archive.tree here archive, here, none, none, ← (← IO.getStdout).isTty, location, World.usualLevels,
    World.usualLevels_roomy⟩

end CMakeLint

def main (arguments : List String) : IO UInt32 := do
  let outcome := CMakeLint.Run.run (← CMakeLint.currentWorld) (arguments.map String.toList)
  IO.print (String.ofList outcome.stdout)
  IO.eprint (String.ofList outcome.stderr)
  return UInt32.ofInt outcome.exit
