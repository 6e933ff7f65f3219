
/-!
# Names of files

The steps of a path are separated by slashes; steps that stay in place do not count. The last step
names the file, unless it leads back. What follows the last point of the name is its extension, and
what stands before is its stem; a name whose only point comes first has no extension.
-/

namespace CustomElements.Config

/-- The steps of a path, as they are written. -/
def pathSteps (path : String) : List String :=
  path.toList.splitOn '/' |>.map String.ofList

/-- The step stays in place. -/
def staysInPlace (step : String) : Bool := step == "" || step == "."

/-- The name of the file that a path leads to. -/
def fileName? (path : String) : Option String :=
  ((pathSteps path).filter fun s => !staysInPlace s).getLast?.filter (· != "..")

/-- The stem and the extension of the name of a file. -/
def splitName (name : String) : String × Option String :=
  let backwards := name.toList.reverse
  let after := backwards.takeWhile (· != '.')
  match backwards.drop (after.length + 1) with
  | [] => (name, none)
  | before => (String.ofList before.reverse, some (String.ofList after.reverse))

/-- The stem of the file that a path leads to. -/
def stem? (path : String) : Option String := (fileName? path).map fun n => (splitName n).1

/-- The extension of the file that a path leads to. -/
def extension? (path : String) : Option String := (fileName? path).bind fun n => (splitName n).2

end CustomElements.Config
