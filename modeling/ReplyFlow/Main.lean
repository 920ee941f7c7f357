import ReplyFlow.Compile.Complaint
import ReplyFlow.Demo

/-! The command line: the tour with the settings of the environment. -/

set_option autoImplicit false

namespace ReplyFlow

def readEnvironment : IO Environment := do
  let found ← Settings.names.mapM fun name => do
    let value ← IO.getEnv name.toUpper
    return value.map fun value => (name, value)
  return found.filterMap id

def writeOutcome (folder : String) (outcome : Demo.Outcome) : IO Unit := do
  IO.FS.createDirAll folder
  for (name, content) in outcome.files do
    IO.FS.writeFile (folder ++ "/" ++ name) content
  for line in outcome.lines do
    IO.println line

/-- What is said of a fault. Nothing is said of a search without end. -/
def Demo.Fault.message? : Demo.Fault → Option String
  | .setup fault => some fault.message
  | .compile failure => failure.message?
  | .store (.settings issues) =>
    some ("\n".intercalate (issues.map fun issue =>
      ".".intercalate (issue.path.map Schema.Key.text) ++ ": " ++ issue.cause.message))
  | .store fault => some (fault.message?.getD "A stored row does not stand for a workflow")

end ReplyFlow

open ReplyFlow in
/-- There is no database to be reached from here, so the tour stores its workflow in memory. -/
def main : IO UInt32 := do
  let session := Session.opening (← readEnvironment) 1000000 (some "No database can be reached")
  match (Demo.run "output").run.run session with
  | (.ok outcome, _) =>
    writeOutcome "output" outcome
    return 0
  | (.error fault, _) =>
    match fault.message? with
    | some message => IO.eprintln message
    | none => repeat IO.sleep 1000
    return 1
