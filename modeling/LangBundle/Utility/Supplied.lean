import LangBundle.Utility.Copying
import LangBundle.Utility.Count
import LangBundle.Utility.Cut
import LangBundle.Utility.Expression
import LangBundle.Utility.Linking
import LangBundle.Utility.Listing
import LangBundle.Utility.Making
import LangBundle.Utility.Moving
import LangBundle.Utility.Naming
import LangBundle.Utility.Part
import LangBundle.Utility.Passing
import LangBundle.Utility.Removal
import LangBundle.Utility.Search
import LangBundle.Utility.Sort
import LangBundle.Utility.Starting
import LangBundle.Utility.Translate

/-!
# The programs that the system supplies

All programs besides the shell, by their names.
-/

namespace LangBundle.Utility

open Process

/-- Programs that start others, by their names. -/
def startingPrograms : List (String × StartingProgram) :=
  [("env", env), ("nohup", nohup), ("timeout", timeout)]

/-- All other programs, by their names. -/
def programs : List (String × Program) :=
  [("cat", cat), ("tee", tee), ("yes", yes), ("head", head), ("tail", tail), ("wc", wc),
    ("cut", cut), ("sort", sort), ("uniq", uniq), ("tr", tr), ("grep", grep),
    ("egrep", grepAs (some 'E')), ("fgrep", grepAs (some 'F')),
    ("basename", basename), ("dirname", dirname), ("readlink", readlink), ("realpath", realpath),
    ("pwd", pwd), ("mkdir", mkdir), ("mkfifo", mkfifo), ("touch", touch), ("truncate", truncate),
    ("ln", ln), ("link", link), ("rm", rm), ("unlink", unlink), ("rmdir", rmdir), ("chmod", chmod), ("cp", cp),
    ("mv", mv), ("ls", ls), ("echo", echo), ("printf", printf), ("test", test), ("[", bracket),
    ("printenv", printenv), ("sleep", sleep), ("seq", seq), ("expr", expr),
    ("true", fun _ _ _ => exit 0), ("false", fun _ _ _ => exit 1),
    ("sync", fun _ _ _ => exit 0)]

/-- A program that starts others. -/
def starting? (name : String) : Option StartingProgram :=
  startingPrograms.lookup name

/-- A program that starts no other. -/
def named? (name : String) : Option Program :=
  programs.lookup name

/-- The names of all programs, the shell among them. -/
def supplied : List String :=
  "sh" :: startingPrograms.map (·.1) ++ programs.map (·.1)

end LangBundle.Utility
