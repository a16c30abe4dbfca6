import LangBundle.Text.Classes

/-!
# Signals

The signals by number and name, and what is said about a process that one of them ended.
-/

namespace LangBundle.Process.Signal

/-- The names of the signals from number one on. -/
def names : List String :=
  ["HUP", "INT", "QUIT", "ILL", "TRAP", "ABRT", "BUS", "FPE", "KILL", "USR1", "SEGV", "USR2",
    "PIPE", "ALRM", "TERM", "STKFLT", "CHLD", "CONT", "STOP", "TSTP", "TTIN", "TTOU", "URG", "XCPU",
    "XFSZ", "VTALRM", "PROF", "WINCH", "IO", "PWR", "SYS"]

/-- The first signal whose meaning is free. -/
def firstFree : Nat := 34

/-- The last signal. -/
def last : Nat := 64

/-- The name of a signal. -/
def name (n : Nat) : String :=
  if n = 0 then "EXIT"
  else if n = firstFree then "RTMIN"
  else if n = last then "RTMAX"
  else if firstFree < n && n < firstFree + 16 then "RTMIN+" ++ toString (n - firstFree)
  else if firstFree < n && n < last then "RTMAX-" ++ toString (last - n)
  else (names[n - 1]?).getD (toString n)

/-- The signal that a number or a name means, in capital letters or not. -/
def number? (text : String) : Option Nat :=
  match Text.decimal? text.toList with
  | some n => if n ≤ last then some n else none
  | none => (List.range (last + 1)).find? fun n => name n == text.toUpper

/-- What is said about a process that a signal ended. -/
def description (n : Nat) : String :=
  let known := ["Hangup", "Interrupt", "Quit", "Illegal instruction", "Trace/breakpoint trap",
    "Aborted", "Bus error", "Floating point exception", "Killed", "User defined signal 1",
    "Segmentation fault", "User defined signal 2", "Broken pipe", "Alarm clock", "Terminated",
    "Stack fault", "Child exited", "Continued", "Stopped (signal)", "Stopped",
    "Stopped (tty input)", "Stopped (tty output)", "Urgent I/O condition",
    "CPU time limit exceeded", "File size limit exceeded", "Virtual timer expired",
    "Profiling timer expired", "Window changed", "I/O possible", "Power failure",
    "Bad system call"]
  if n = 0 then "Unknown signal 0"
  else if firstFree ≤ n then "Real-time signal " ++ toString (n - firstFree)
  else (known[n - 1]?).getD ("Unknown signal " ++ toString n)

end LangBundle.Process.Signal
