import ExportAtlas.Disk.Lookup
import ExportAtlas.Settings
/-!
# Loading settings

Settings come from the file that is asked for, which has to be there and to be
right; or else from the project's own file, or else from the user's, each
passed over where it cannot be used; or else they are the standard ones.
-/

namespace ExportAtlas

namespace Settings

/-- The name of a project's own settings file. -/
def projectFile : Path := Path.ofString ".exportmap.toml"

/-- The place of the user's settings file in the folder for such files. -/
def userFile : Path := Path.ofString "export-map/config.toml"

/-- The settings that a file states. What is wrong with a text that states none is
for the TOML reader to `explain`. -/
def ofFile (d : Disk) (explain : String → String) (folder : Location) (path : Path) :
    Except SettingsProblem Settings :=
  match d.readText folder path with
  | .error problem => .error (.unreadable path problem)
  | .ok content =>
    match parse? content with
    | some s => .ok s
    | none => .error (.malformed (explain content))

/-- The settings of the file that is asked for. -/
def loadExplicit (d : Disk) (explain : String → String) (folder : Location) (path : Path) :
    Except SettingsProblem Settings :=
  if d.isFile folder path then ofFile d explain folder path else .error (.missing path)

/-- The settings that a file states, if there is such a file and it is right. -/
def usable? (d : Disk) (folder : Location) (path : Path) : Option Settings :=
  if d.isFile folder path then (d.readText folder path).toOption.bind parse? else none

/-- The settings where no file is asked for, of a project and of a user with a
folder for settings, which is seen from `folder`. -/
def loadImplicit (d : Disk) (folder root : Location) (userFolder : Option Path) : Settings :=
  let own := usable? d root projectFile
  let user := userFolder.bind fun path => usable? d folder (path.join userFile)
  (own.or user).getD standard

/-- The settings for a project, with the file that is asked for given as it is
seen from `folder`. -/
def load (d : Disk) (explain : String → String) (folder : Location) (explicit : Option Path)
    (root : Location) (userFolder : Option Path) : Except SettingsProblem Settings :=
  match explicit with
  | some path => loadExplicit d explain folder path
  | none => .ok (loadImplicit d folder root userFolder)

end Settings

end ExportAtlas
