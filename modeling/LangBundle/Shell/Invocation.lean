import LangBundle.Shell.Evaluate

/-!
# Starting a shell

A shell gets its script from an argument, a file or its input.  Its variables are those it was
started with and a few of its own.
-/

namespace LangBundle.Shell

open Files (Fault)
open Process

namespace Invocation

/-- How deeply commands may stand within each other. -/
def maxNesting : Nat := 100000

/-- The variables of a shell at its start. -/
def startVariables (s : Setting) (parent : Nat) : List (String × Variable) :=
  let given := s.environment.filter fun (n, _) => Reader.isName n.toList
  let plain (value : String) : Variable := { value := some value }
  let set (vars : List (String × Variable)) (name : String) (v : Variable) :=
    if (vars.lookup name).isSome then
      vars.map fun (n, old) => (n, if n = name then v else old)
    else vars ++ [(name, v)]
  let standard : List (String × Variable) :=
    [("IFS", plain " \t\n"), ("PATH", plain Builtin.standardPath), ("PS1", plain "# "),
      ("PS2", plain "> "), ("PS4", plain "+ "), ("OPTIND", plain "1")]
  let vars := given.foldl (fun vars (n, value) =>
    set vars n { value := some value, exported := true }) standard
  let vars := set vars "IFS" (plain " \t\n")
  let vars := set vars "OPTIND" (plain "1")
  set vars "PPID" (plain (toString parent))

/-- The shell at its start. -/
def startEnv (s : Setting) (name : String) (params : List String) (options : List Char)
    (w : World) : Env :=
  let parent := ((w.member? s.process).map (·.parent)).getD 0
  let cwd := Builtin.pathOfPlace s.cwd
  let here := match s.environmentValue "PWD" with
    | some path =>
      let isHere : Bool := match w.tree.directoryAt s.cwd (Octets.toText path) with
        | .ok p => decide (p = s.cwd)
        | .error _ => false
      if Path.isAbsolute path && isHere then path else cwd
    | none => cwd
  let e : Env :=
    { name, params, options, here, setting := s
      vars := startVariables s parent
      number := s.process
      parent }
  e.assign "PWD" here true

/-- Runs a script and ends. -/
def runScript (start : Starter) (e : Env) (isArgument : Bool) (text : String) : Behaviour :=
  let run := evaluate start maxNesting
  let exits := Exits.ofShell run
  runAll run { last := isArgument } exits text { e with inScript := !isArgument } exits.quit

/-- What a shell does that is started with a name and arguments. -/
def program (start : Starter) (s : Setting) (name : String) (args : List String) : Behaviour :=
  .look fun w =>
    let wrong (text : String) : Behaviour := s.say (name ++ ": 0: " ++ text ++ "\n") (exit 2)
    match Builtin.settle true (args.length + 1) args { options := [] } with
    | .error text => wrong text
    | .ok settled =>
      let options := Builtin.turn false 'm' settled.options
      let begin (next : Behaviour) : Behaviour :=
        if ['i', 'm'].any settled.options.contains then
          s.say (name ++ ": 0: " ++ Builtin.noControl ++ "\n") next
        else next
      begin <|
      let env (name : String) (params : List String) (options : List Char) : Env :=
        startEnv s name params options w
      match settled.asksScript, settled.rest with
      | true, [] => wrong "-c requires an argument"
      | true, script :: rest =>
        runScript start (env (rest.headD name) rest.tail options) true script
      | false, [] =>
        readAll (s.stream? 0) fun result =>
          runScript start (env name [] ('s' :: options)) false
            (Octets.ofBytes (result.toOption.getD []))
      | false, first :: rest =>
        if options.contains 's' then
          readAll (s.stream? 0) fun result =>
            runScript start (env name (first :: rest) options) false
              (Octets.ofBytes (result.toOption.getD []))
        else s.openFile .read first 0 fun
          | .error fault => wrong (Redirection.openFault false first fault)
          | .ok stream => readAll (some stream) fun result =>
            runScript start (env first rest options) false (Octets.ofBytes (result.toOption.getD []))

end Invocation

end LangBundle.Shell
