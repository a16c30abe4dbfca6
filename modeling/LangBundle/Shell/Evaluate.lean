import LangBundle.Shell.Builtin.Control

/-!
# Running commands

`evaluate` turns a command into the behaviour of the process that runs it.  A simple command is
expanded and redirected first, then its assignments are made, and then it is looked up; assignments
stay where a special command of the shell follows them, or none, and are local to any other command.
-/

namespace LangBundle.Shell

open Files (Fault Tree)
open Process
open Expansion (Context)

namespace Evaluate

/-! ## Programs -/

/-- Goes on as a program; `failed` says what follows if there is none. -/
def become (start : Starter) (path : String) (args : List String) (failed : Env → Fault → Behaviour)
    (e : Env) : Behaviour :=
  let name := args.headD ""
  let paths := if name.toList.contains '/' then [name] else candidates path name
  let setting := e.programSetting
  .look fun w =>
    match startFirst start setting args w.tree .notFound paths with
    | .error fault => failed e fault
    | .ok program =>
      if e.answersSignals then
        .act (·.onMember setting.process fun m => { m with caught := [] }) fun _ =>
          setting.settle program
      else setting.settle program

/-- Says that a program cannot be started. -/
def launchFailed (name : String) (k : Rest) (e : Env) (fault : Fault) : Behaviour :=
  let (text, code) := Builtin.launchFault fault
  e.complain (name ++ ": " ++ text) (k (e.after code))

/-- Runs a program and waits for its end, or goes on as the program if nothing follows. -/
def runProgram (start : Starter) (path : String) (args : List String) (mode : Mode) (exits : Exits)
    (e : Env) (k : Rest) : Behaviour :=
  let name := args.headD ""
  -- A program that was found once is not looked for again.
  let isKnown := path = e.searchPath && e.found.contains name
  .look fun w =>
    match if isKnown then .ok name else Builtin.pathOf e w.tree path name with
    | .error fault =>
      e.complain (name ++ ": " ++ (Builtin.launchFault fault).1) (k (e.after 127))
    | .ok _ =>
      let e := if path = e.searchPath then Builtin.noting e w.tree name else e
      if mode.last && !e.hasTraps then
        become start path args (launchFailed name exits.quit) e
      else
        e.call (become start path args (launchFailed name finish)) k

/-! ## Functions -/

/-- Runs a function with arguments. -/
def runFunction (run : Runner) (body : Command) (args : List String) (mode : Mode) (exits : Exits)
    (e : Env) (k : Rest) : Behaviour :=
  let inner := { e with params := args, nextOption := 1, letter := none, loops := 0 }
  run body { tested := mode.tested } exits inner fun left =>
    k { left with
      params := e.params
      nextOption := e.nextOption
      letter := e.letter
      loops := e.loops
      skip := match left.skip with
        | .function _ => .nothing
        | skip => skip }

/-! ## Simple commands -/

/-- What a simple command turns out to be. -/
inductive Kind where
  /-- Nothing but assignments and redirections. -/
  | empty
  | function (body : Command)
  | own (special : Bool)
  | program
  deriving Inhabited

/-- What a name means; without functions if asked for. -/
def kindOf (e : Env) (plain : Bool) (name : String) : Kind :=
  match if plain then none else e.functions.lookup name with
  | some body => .function body
  | none =>
    if Reader.specialNames.contains name then .own true
    else if Builtin.isOwn name then .own false
    else .program

/-- The commands whose arguments may assign. -/
def assigns (name : String) : Bool :=
  ["alias", "export", "local", "readonly"].contains name

/-- Expands words until there is a field; gives the fields and the words that are left. -/
def firstFields (c : Context) : List Word → Env → (List String → List Word → Rest) → Behaviour
  | [], e, k => k [] [] e
  | w :: rest, e, k => Word.expandFields w c e fun fields e =>
    if fields.isEmpty then firstFields c rest e k else k fields rest e

/-- Expands the other words; those that assign become one field where they may. -/
def moreFields (c : Context) (mayAssign : Bool) : List Word → Env → (List String → Rest) → Behaviour
  | [], e, k => k [] e
  | w :: rest, e, k =>
    let go (fields : List String) (e : Env) : Behaviour :=
      moreFields c mayAssign rest e fun more => k (fields ++ more)
    if mayAssign && Reader.isAssignment w then
      Word.expandAssignment w c e fun text => go [text]
    else Word.expandFields w c e go

/-- A command's fields, and what `command` in front of it says. -/
structure Called where
  fields : List String := []
  kind : Kind := .empty
  /-- Whether `command` stands in front, so that functions do not count. -/
  plain : Bool := false
  /-- Whether the failure of the command ends the shell, and its assignments stay. -/
  special : Bool := false
  path : Option String := none

/-- What is left behind `command` and its options: whether the standard path is to be used, and the
command.  There is nothing if `command` itself is called. -/
def behindCommand? (standard : Bool) : List String → Option (Bool × List String)
  | [] => none
  | a :: rest =>
    match a.toList with
    | ['-', '-'] => if rest.isEmpty then none else some (standard, rest)
    | '-' :: c :: cs =>
      if (c :: cs).all (· == 'p') then behindCommand? true rest else none
    | _ => some (standard, a :: rest)

/-- Looks through `command` in front of a command. -/
def throughCommand (e : Env) : (fuel : Nat) → Called → Called
  | 0, c => c
  | fuel + 1, c =>
    match c.fields with
    | "command" :: rest =>
      match c.kind, behindCommand? false rest with
      | .own _, some (standard, fields) => throughCommand e fuel { c with
          fields
          kind := kindOf e true (fields.headD "")
          plain := true
          path := if standard then some Builtin.standardPath else c.path }
      | _, _ => c
    | _ => c

/-- The fields of a command and what it is. -/
def called (c : Context) (words : List Word) (e : Env) (k : Called → Rest) : Behaviour :=
  firstFields c words e fun fields rest e =>
    match fields with
    | [] => k {} e
    | name :: _ =>
      let first := kindOf e false name
      let special : Bool := match first with
        | .own special => special
        | _ => false
      let isCommand : Bool := name = "command" && match first with
        | .own _ => true
        | _ => false
      -- Which command `command` calls is known once more fields are there.
      let fieldsOf (k : List String → Rest) : Behaviour :=
        if isCommand && (behindCommand? false fields.tail).isNone then
          firstFields c rest e fun more rest e =>
            let target := ((behindCommand? false (fields.tail ++ more)).map (·.2)).getD []
            moreFields c (assigns (target.headD "")) rest e fun others =>
              k (fields ++ more ++ others)
        else
          let target := if isCommand then
              ((behindCommand? false fields.tail).map (·.2)).getD []
            else fields
          moreFields c (assigns (target.headD "")) rest e fun others => k (fields ++ others)
      fieldsOf fun fields e =>
        k (throughCommand e fields.length { fields, kind := first, special }) e

/-- The text of a trace's beginning. -/
def traceStart (c : Context) (e : Env) (k : String → Rest) : Behaviour :=
  let text := ((e.value? "PS4").getD "+ ").toList
  let reading := Reading.ofText text e.aliases e.nextDocument
  let inner : Reader Command := return .nothing
  match Reader.quotedText inner Reader.endless (.document [] false) false 0 [] reading with
  | .ok parts _ =>
    Expansion.parts { c with fields := false } (Reader.finishWord parts) { e with tracing := true }
      fun gs e => k (Glyph.text gs) { e with tracing := false }
  | .error _ _ => k "" e

/-- Shows a command that is about to run, if asked for, on the error stream of the shell `outer`. -/
def trace (c : Context) (outer : Env) (texts : List String) (e : Env) (k : Rest) : Behaviour :=
  if !e.has 'x' || e.tracing then k e
  else traceStart c e fun start e =>
    outer.setting.say (start ++ " ".intercalate texts ++ "\n") (k e)

/-- Makes the assignments of a command; gives their texts. -/
def assignAll (c : Context) (call : Call) (lasting exported : Bool) : List Word → Env →
    (List String → Rest) → Behaviour
  | [], e, k => k [] e
  | w :: rest, e, k => Word.expandAssignment w c e fun text e =>
    let (name, value) := Builtin.assignmentOf text
    let value := value.getD ""
    let go (e : Env) : Behaviour :=
      assignAll c call lasting exported rest e fun more => k (text :: more)
    if lasting then e.assignOr c.exits name value fun e =>
      go (if exported then e.assign name value true else e)
    else Builtin.makeLocal call true name (some value) e go

/-- Runs a command that the shell knows itself; `exec` with arguments goes on as a program. -/
def runOwn (start : Starter) (run : Runner) (mode : Mode) (exits : Exits) (path : String)
    (args : List String) (e : Env) (k : Rest) : Behaviour :=
  let name := args.headD ""
  let inner := { e with command := some name }
  let call : Call :=
    { name, args := args.tail, mode, run
      exits := { exits with fail := fun left => exits.fail { left with command := e.command } } }
  match name, call.args with
  | "exec", first :: more =>
    let (first, more) := if first = "--" then (more.headD "", more.tail) else (first, more)
    if first.isEmpty && more.isEmpty && call.args = ["--"] then k (e.after 0)
    else become start path (first :: more) (launchFailed first exits.quit) inner
  | "exec", [] => k (e.after 0)
  | _, _ =>
    match Builtin.named? name with
    | some builtin => builtin call inner fun left =>
      ({ left with command := e.command }).noteJobs k
    | none => k (e.after 127)

/-- Runs a simple command. -/
def simple (start : Starter) (run : Runner) (c : Context) (mode : Mode) (exits : Exits)
    (assignments words : List Word) (redirects : List Redirect) (e : Env) (k : Rest) : Behaviour :=
  called c words e fun called e =>
    let isExec := called.fields.head? = some "exec" && match called.kind with
      | .own _ => true
      | _ => false
    let lasting := called.special || called.fields.isEmpty
    let depth := e.undo.length
    let height := e.covered.length
    let outer := e
    let e := if lasting then e else { e with undo := [] :: e.undo }
    Redirection.effects c redirects e fun effects e =>
      let covers := !redirects.isEmpty
      let e := if covers then Redirection.cover e else e
      -- What follows the command: its redirections and assignments are taken back.
      let leave (left : Env) : Behaviour :=
        let left := left.unwind depth
        if isExec && height < left.covered.length then Redirection.commit left k
        else Redirection.uncover height left k
      let failed : Rest := fun left => if called.special then exits.fail left else leave left
      Redirection.applyAll c true effects e (fun e =>
        let call : Call := { name := "", args := [], mode, exits, run }
        let exported := isExec && 1 < called.fields.length
        assignAll c call lasting exported assignments e fun texts e =>
          trace c outer (texts ++ called.fields) e fun e =>
            let path := called.path.getD e.searchPath
            match called.kind with
            | .empty => leave (e.after e.outputStatus)
            | .function body => runFunction run body called.fields.tail mode exits e leave
            | .own _ =>
              let exits := if called.special then exits else { exits with fail := leave }
              runOwn start run mode exits path called.fields e leave
            | .program =>
              runProgram start path called.fields { mode with last := mode.last && !e.hasTraps }
                exits e fun left => left.noteJobs leave)
        failed

/-! ## Commands of commands -/

/-- Ends a round of a loop: whether the loop is left, and the shell behind it. -/
def endRound (e : Env) : Bool × Env :=
  match e.skip with
  | .nothing => (false, e)
  | .loops n => (true, { e with skip := if n ≤ 1 then .nothing else .loops (n - 1) })
  | .round n => if n ≤ 1 then (false, { e with skip := .nothing })
    else (true, { e with skip := .round (n - 1) })
  | .function _ => (true, e)

/-- Runs a command as long as a condition says so; `status` is the result so far. -/
def loop (run : Runner) (stopOnSuccess : Bool) (condition body : Command) (mode : Mode)
    (exits : Exits) : (rounds : Nat) → (status : Nat) → Env → Rest → Behaviour
  | 0, _, _, _ => .hang
  | rounds + 1, status, e, k =>
    let again := loop run stopOnSuccess condition body mode exits rounds
    run condition { tested := true } exits e fun e =>
      let wasSkipping := e.skip ≠ .nothing
      let isReturn := e.skip = .function true
      let (leaves, e) := endRound e
      let status := if isReturn then e.status else status
      if leaves then k (e.after status)
      else if wasSkipping then again status e k
      else if (e.status = 0) = stopOnSuccess then k (e.after status)
      else run body mode exits e fun e =>
        let (leaves, e) := endRound e
        if leaves then k e else again e.status e k

/-- Runs a command for each value of a variable; `status` is the result so far. -/
def forEach (run : Runner) (name : String) (body : Command) (mode : Mode) (exits : Exits) :
    List String → (status : Nat) → Env → Rest → Behaviour
  | [], status, e, k => k (e.after status)
  | value :: rest, _, e, k => e.assignOr exits name value fun e =>
    run body mode exits e fun e =>
      let (leaves, e) := endRound e
      if leaves then k e else forEach run name body mode exits rest e.status e k

/-- Finds the command of the first arm that describes a text. -/
def chooseArm (c : Context) (text : List Char) : List (List Word × Command) → Env →
    (Option Command → Rest) → Behaviour
  | [], e, k => k none e
  | (patterns, body) :: rest, e, k =>
    let rec go : List Word → Env → Behaviour
      | [], e => chooseArm c text rest e k
      | w :: more, e => Word.expandPattern w c e fun pattern e =>
        if describes pattern text then k (some body) e else go more e
    go patterns e

/-- The name of a simple command that is no more than a plain name. -/
def plainName? : Command → Option String
  | .simple _ _ (word :: _) _ => (Reader.plain? word).filter (Reader.isName ·.toList)
  | _ => none

/-- Starts the commands of a pipeline from the left; `input` is the pipe that the next one reads. -/
def startPipeline (background : Bool) (work : Command → Env → Behaviour) : List Command →
    (input : Option PipeId) → (started : List Nat) → Env → (List Nat → Rest) → Behaviour
  | [], _, started, e, k => e.setting.settle (k started.reverse e)
  | command :: rest, input, started, e, k =>
    let streams : List Stream := (input.map Stream.reader).toList
    let fed : List (Nat × Stream) :=
      (input.map fun p => (0, Stream.reader p)).toList ++
        if background && started.isEmpty then [(0, .device .null)] else []
    if rest.isEmpty then
      (e.keeping streams).setting.settle
        (e.spawn background (fun child => child.withStreams fed (work command)) fun n =>
          startPipeline background work rest none (n :: started) e k)
    else
      .act (·.addPipe) fun w =>
        let pipe := PipeId.made w.nextNumber
        (e.keeping (streams ++ [.reader pipe, .writer pipe])).setting.settle
          (e.spawn background
            (fun child => child.withStreams (fed ++ [(1, .writer pipe)]) (work command)) fun n =>
            (e.keeping [.reader pipe]).setting.settle
              (startPipeline background work rest (some pipe) (n :: started) e k))

end Evaluate

open Evaluate

/-- What a shell does that runs a command and then goes on with `k`.  `fuel` bounds how deeply
commands stand within each other; a shell that gets deeper breaks down. -/
def evaluate (start : Starter) : (fuel : Nat) → Command → Mode → Exits → Env → Rest → Behaviour
  | 0, _, _, _, e, _ => .act (·.signal e.setting.process 11) fun _ => .hang
  | fuel + 1, command, mode, exits, e, k =>
    let run : Runner := evaluate start fuel
    let ends : Exits := .ofShell run
    -- What follows the command: a strict shell ends with one that failed.
    let leave (checked : Bool) : Rest := fun e => answer run exits e fun e =>
      if checked && e.has 'e' && !mode.tested && e.status != 0 then exits.quit e
      else if mode.last then exits.quit e
      else k e
    let go : Rest := leave false
    let tested : Mode := { tested := mode.tested }
    let context : Context :=
      { exits
        output := fun command e k =>
          if command.isNothing then k "" { e with outputStatus := 0 }
          else e.outputOf (fun child =>
            run command { last := true } ends child (ending run)) k }
    if e.has 'n' then go e
    else answer run exits e fun e =>
      match command with
      | .nothing => go e
      | .simple line assignments words redirects =>
        .look fun _ =>
          simple start run context mode exits assignments words redirects
            { e with line, outputStatus := 0 } (leave true)
      | .sequence first second => run first tested exits e fun e =>
        if e.skip ≠ .nothing then go e else run second mode exits e go
      | .andThen first second => run first { tested := true } exits e fun e =>
        if e.status ≠ 0 || e.skip ≠ .nothing then go e else run second mode exits e go
      | .orElse first second => run first { tested := true } exits e fun e =>
        if e.status = 0 || e.skip ≠ .nothing then go e else run second mode exits e go
      | .negate body => run body { tested := true } exits e fun e =>
        go (e.after (if e.status = 0 then 1 else 0))
      | .pipe commands background =>
        let work (command : Command) (child : Env) : Behaviour :=
          run command { mode with last := true } ends child (ending run)
        .look fun w =>
        let e := (commands.filterMap plainName?).foldl (Builtin.noting · w.tree) e.makingRoom
        startPipeline background work commands none [] e fun started e =>
          if background then leave true ((e.withJob started).after 0)
          else e.waitFor started (leave true)
      | .background line body redirects =>
        let e := { e with line := if line = 0 then e.line else line }
        Redirection.effects context redirects e fun effects e =>
          let work (child : Env) : Behaviour :=
            Redirection.applyAll context false effects child
              (fun child => run body { last := true } ends child (ending run)) ends.quit
          e.spawn true (fun child => child.withStreams [(0, .device .null)] work) fun n =>
            leave true ((e.withJob [n]).after 0)
      | .subshell line body redirects =>
        let e := { e with line }
        Redirection.effects context redirects e fun effects e =>
          let work (exits : Exits) (child : Env) : Behaviour :=
            Redirection.applyAll context false effects child
              (fun child => run body { mode with last := true } exits child exits.quit) exits.fail
          if mode.last && !e.hasTraps then work exits { e with lastLine := e.scriptLine }
          else e.call (work ends) (leave true)
      | .redirected line body redirects =>
        let e := { e with line }
        Redirection.effects context redirects e fun effects e =>
          let height := e.covered.length
          let back : Rest := fun e => Redirection.uncover height e go
          Redirection.applyAll context true effects (Redirection.cover e)
            (fun e => run body tested exits e back) back
      | .ifThen condition yes no => run condition { tested := true } exits e fun e =>
        if e.skip ≠ .nothing then go e
        else if e.status = 0 then run yes mode exits e go
        else if no.isNothing then go (e.after 0)
        else run no mode exits e go
      | .loop stopOnSuccess condition body =>
        loop run stopOnSuccess condition body tested exits endlessLines 0
          { e with loops := e.loops + 1 } fun left => go { left with loops := e.loops }
      | .forEach line name words body =>
        moreFields context false words { e with line } fun values e =>
          forEach run name body tested exits values 0 { e with loops := e.loops + 1 } fun left =>
            go { left with loops := e.loops }
      | .choose line subject arms =>
        Word.expandText subject context { e with line } fun text e =>
          chooseArm context text.toList arms e fun body e =>
            match body with
            | none => go (e.after 0)
            | some body => if body.isNothing then go (e.after 0) else run body mode exits e go
      | .define _ name body =>
        go ({ e with functions := (name, body) :: e.functions.filter (·.1 != name) }.after 0)

end LangBundle.Shell
