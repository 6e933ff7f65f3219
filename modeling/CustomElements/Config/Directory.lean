import CustomElements.Config.FileName
import CustomElements.Config.Error

/-!
# Directories

A directory holds files and further directories, each under the steps that lead to it. A path is
followed step by step, and every step but the last one has to lead to a directory. Storing something
makes the directories on the way to it.
-/

namespace CustomElements.Config

/-- What a path may lead to. -/
inductive Entry where
  | file (bytes : ByteArray)
  | directory

/-- Files and directories by the steps that lead to them, the last step first. -/
structure Directory where
  entries : List (List String × Entry)

namespace Directory

/-- A directory that holds nothing. -/
def empty : Directory := ⟨[]⟩

/-- What is under the given steps; no step leads to the directory itself. -/
def find? (d : Directory) : List String → Option Entry
  | [] => some .directory
  | steps => d.entries.lookup steps

/-- The most bytes that a step may have. -/
def longestStep : Nat := 255

/-- Where the steps lead to, from a place that other steps lead to. -/
def resolve (d : Directory) : (place steps : List String) → Except Failure (List String)
  | place, [] => .ok place
  | place, s :: rest =>
    match d.find? place with
    | none => .error .missing
    | some (.file _) => .error .notDirectory
    | some .directory =>
      if longestStep < s.utf8ByteSize then .error .nameTooLong
      else if staysInPlace s then d.resolve place rest
      else if s = ".." then d.resolve place.tail rest
      else d.resolve (s :: place) rest

/-- The text of the file that a path leads to. -/
def readText (d : Directory) (path : String) : Except Failure String :=
  if path.toList.contains '\x00' then .error .badPath
  else do
    let place ← d.resolve [] (pathSteps path)
    match d.find? place with
    | none => .error .missing
    | some .directory => .error .isDirectory
    | some (.file bytes) =>
      match String.fromUTF8? bytes with
      | some text => .ok text
      | none => .error .notText

/-- The steps of a path in reverse order, without those that stay in place or are taken back. -/
def placeOf (path : String) : List String :=
  (pathSteps path).foldl (fun place s =>
    if staysInPlace s then place else if s = ".." then place.tail else s :: place) []

/-- Makes a directory and those on the way to it. -/
def makeAt (d : Directory) : List String → Directory
  | [] => d
  | s :: outer =>
    let d := d.makeAt outer
    if (d.find? (s :: outer)).isSome then d else ⟨(s :: outer, .directory) :: d.entries⟩

/-- Makes a directory. -/
def makeDirectory (d : Directory) (path : String) : Directory := d.makeAt (placeOf path)

/-- Stores a file, over what the path led to. -/
def write (d : Directory) (path : String) (bytes : ByteArray) : Directory :=
  let place := placeOf path
  let d := d.makeAt place.tail
  ⟨(place, .file bytes) :: d.entries.filter (·.1 != place)⟩

/-- A file that was stored is there. -/
theorem find?_write (d : Directory) (path : String) (bytes : ByteArray)
    (named : placeOf path ≠ []) :
    (d.write path bytes).find? (placeOf path) = some (.file bytes) := by
  unfold write
  generalize placeOf path = place at named
  cases place with
  | nil => exact absurd rfl named
  | cons s outer => simp [find?]

/-- Removes what a path leads to, with everything in it. -/
def remove (d : Directory) (path : String) : Directory :=
  ⟨d.entries.filter fun e => !(placeOf path).isSuffixOf e.1⟩

/-- What was removed is gone. -/
theorem find?_remove (d : Directory) (path : String) (named : placeOf path ≠ []) :
    (d.remove path).find? (placeOf path) = none := by
  unfold remove
  generalize placeOf path = place at named
  cases place with
  | nil => exact absurd rfl named
  | cons s outer =>
    simp only [find?, List.lookup_eq_none_iff, List.mem_filter, and_imp]
    intro e _ kept
    have differs : e.1 ≠ s :: outer := fun h => by
      have ends : (s :: outer).isSuffixOf e.1 = true :=
        List.isSuffixOf_iff_suffix.2 (h ▸ List.suffix_refl _)
      rw [ends] at kept
      cases kept
    exact bne_iff_ne.2 fun h => differs h.symm

end Directory

end CustomElements.Config
