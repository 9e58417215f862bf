/-!
# Where the configuration file is

The file is in a directory of the program's own, inside the user's configuration directory. That
directory is named by the environment, or else is inside the home directory.
-/

namespace FeedClient.Configuration

/-- The directories that the environment names. -/
structure Directories where
  configuration : Option String := none
  home : Option String := none
deriving DecidableEq, Repr

/-- The path of something inside a directory. The empty path is the current directory. -/
def inside (directory name : String) : String :=
  match directory.toList.getLast? with
  | none | some '/' => directory ++ name
  | some _ => directory ++ "/" ++ name

/-- The path of the configuration file; none when the environment names no directory. -/
def filePath? (d : Directories) : Option String :=
  (d.configuration.or (d.home.map (inside · ".config"))).map fun directory =>
    inside (inside directory "stw") "config.toml"

end FeedClient.Configuration
