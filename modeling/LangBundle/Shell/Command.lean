/-!
# Commands of the shell

The form of shell scripts after reading: words made of parts that are still to be expanded, and
commands that combine simple commands.
-/

namespace LangBundle.Shell

mutual

/-- A part of a word. -/
inductive Part where
  | text (cs : List Char) (quoted : Bool)
  /-- A quotation mark stood here, so there is a field even if it is empty. -/
  | mark
  | param (name : String) (use : Use) (quoted : Bool)
  | arithmetic (expression : List Part) (quoted : Bool)
  /-- The output of a command. -/
  | output (command : Command) (quoted : Bool)

/-- What is done with the value of a parameter before it is used. -/
inductive Use where
  | value
  | length
  /-- `:-` and `-`: another word for a value that is missing (or empty, if `colon`). -/
  | orElse (colon : Bool) (word : List Part)
  /-- `:=` and `=`: the same, and the parameter is set. -/
  | orAssign (colon : Bool) (word : List Part)
  /-- `:+` and `+`: a word if there is a value. -/
  | alternative (colon : Bool) (word : List Part)
  /-- `:?` and `?`: a value that is missing ends the shell with a word. -/
  | required (colon : Bool) (word : List Part)
  /-- `%` and `%%`: without the shortest or longest ending that matches. -/
  | dropEnd (longest : Bool) (pattern : List Part)
  /-- `#` and `##`: without the shortest or longest beginning that matches. -/
  | dropStart (longest : Bool) (pattern : List Part)
  /-- Anything else. -/
  | unknown

/-- What a redirection does with its descriptor. -/
inductive RedirectAction where
  | read (path : List Part)
  | write (path : List Part)
  /-- Writes to a file whether or not it is there. -/
  | overwrite (path : List Part)
  | append (path : List Part)
  | readWrite (path : List Part)
  /-- Stands for what another descriptor stands for. -/
  | duplicate (descriptor : Nat)
  /-- Stands for what the descriptor stands for that a word names. -/
  | duplicateNamed (word : List Part)
  | close
  /-- Reads a text that stands in the script, the one with a number. -/
  | document (number : Nat)

/-- A redirection of one descriptor. -/
inductive Redirect where
  | mk (descriptor : Nat) (action : RedirectAction)

/-- A command.  Lines appear in what is reported. -/
inductive Command where
  | nothing
  | simple (line : Nat) (assigns words : List (List Part)) (redirects : List Redirect)
  | sequence (first second : Command)
  | andThen (first second : Command)
  | orElse (first second : Command)
  | negate (body : Command)
  /-- Each reads what the one before it writes. -/
  | pipe (commands : List Command) (background : Bool)
  | background (line : Nat) (body : Command) (redirects : List Redirect)
  | subshell (line : Nat) (body : Command) (redirects : List Redirect)
  | redirected (line : Nat) (body : Command) (redirects : List Redirect)
  | ifThen (condition yes no : Command)
  /-- Repeats `body` while `condition` succeeds, or while it fails if `stopOnSuccess`. -/
  | loop (stopOnSuccess : Bool) (condition body : Command)
  /-- Runs `body` for each word. -/
  | forEach (line : Nat) (name : String) (words : List (List Part)) (body : Command)
  /-- Runs the body of the first arm with a pattern that matches the word. -/
  | choose (line : Nat) (subject : List Part) (arms : List (List (List Part) × Command))
  /-- Gives a command a name. -/
  | define (line : Nat) (name : String) (body : Command)

end

/-- A word before expansion. -/
abbrev Word := List Part

instance : Inhabited Command := ⟨.nothing⟩

namespace Command

/-- Whether a command does nothing at all. -/
def isNothing : Command → Bool
  | .nothing => true
  | _ => false

/-- The command in the background. -/
def inBackground : Command → Command
  | .pipe commands _ => .pipe commands true
  | .redirected line body redirects => .background line body redirects
  | command => .background 0 command []

end Command

end LangBundle.Shell
