/-
  TermLint.Settings.Place

  Where the settings and the logs of a user are kept.
-/

namespace TermLint.Settings

/-- A name inside a directory. -/
def inside (directory name : String) : String :=
  if directory = "" ∨ directory.toList.getLast? = some '/' then directory ++ name
  else directory ++ "/" ++ name

/-- The directory that belongs to the server, in the home of a user or in the working directory. -/
def ownDirectory : String := ".quill"

/-- The file with the settings of a user. -/
def settingsFile (home : String) : String :=
  inside (inside home ownDirectory) "config.toml"

/-- The log inside a directory that belongs to the server. -/
def logInside (directory : String) : String :=
  inside (inside directory "logs") "quill.log"

/-- Where the log is kept when nothing is configured: in the home of the user or, when that cannot
be, in the working directory. -/
def standardLogs (home : String) : List String :=
  [logInside (inside home ownDirectory), logInside ownDirectory]

end TermLint.Settings
