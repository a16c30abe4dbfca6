import LangBundle.Utility.Making
import LangBundle.Utility.Replacing

/-!
# Copying files

A directory is copied with everything below it, the files in it in the order of their age.  A copy
is never made of a directory that was itself made as a copy of the same operand.
-/

namespace LangBundle.Utility

open Files (Fault Tree Place Node Identity)
open Process

/-- Which symbolic links are followed. -/
inductive Following where
  | always
  /-- Those that operands name. -/
  | operands
  | never
  deriving Repr, DecidableEq

/-- How files are copied. -/
structure Copying where
  recursive : Bool := false
  force : Bool := false
  /-- Whether files that are there are kept. -/
  keeps : Bool := false
  updating : Updating := .all
  asks : Bool := false
  verbose : Bool := false
  following : Following := .always
  /-- Whether copies get the same permissions. -/
  preservesMode : Bool := false
  /-- Whether copies get the permissions of new files. -/
  dropsMode : Bool := false
  /-- Whether several names of a file become several names of its copy. -/
  preservesLinks : Bool := false
  /-- Whether copies are further names of the same file. -/
  links : Bool := false
  /-- Whether copies are symbolic links. -/
  symbolic : Bool := false
  /-- Whether what is there is removed first. -/
  removes : Bool := false
  /-- Whether nothing of the data is copied. -/
  empty : Bool := false
  /-- Whether the data of pipes is copied when directories are. -/
  readsPipes : Bool := false
  backups : Backups := {}

/-- Whether links at the ends of paths are followed. -/
def Copying.followsAt (c : Copying) (isOperand : Bool) : Bool :=
  c.following = .always || c.following = .operands && isOperand

/-- The permissions of a new copy. -/
def Copying.permissions (c : Copying) (s : Setting) (n : Node) : Nat :=
  let mode := if c.dropsMode then if n.isDirectory then 0o777 else 0o666 else n.mode
  if c.preservesMode then n.mode else (mode &&& 0o777) - (mode &&& 0o777 &&& s.mask)

/-- One copy that is made. -/
structure Copy where
  /-- The paths of the operand, and of its copy. -/
  top : String × String
  source : String
  target : String
  isOperand : Bool := true
  /-- Whether a directory has been made for the operand. -/
  hasMade : Bool := false
  /-- The directories that are being copied, the innermost first. -/
  above : List Place := []

/-- What goes on with whether something went well. -/
abbrev Judged := Bool → Progress → Behaviour

/-- Copies the data of a file. -/
def copyData (p : Printer) (c : Copying) (copy : Copy) (n : Node) (isNew : Bool) (g : Progress)
    (k : Judged) : Behaviour :=
  let s := p.setting
  let source := copy.source
  let target := copy.target
  let path := Octets.toText target
  let failed (text : String) (g : Progress) : Behaviour := p.refuse text g (k false)
  let cannotCreate (fault : Fault) (g : Progress) : Behaviour :=
    -- A directory that is asked for by a slash is never made.
    let fault := if fault = .isDirectory && path.endsWith "/" then .notDirectory else fault
    failed ("cannot create regular file " ++ quoted target ++ ": " ++ fault.description) g
  let put (data : Option Bytes) (t : Tree) : Except Fault Tree := do
    let (sink, t) ← t.openWrite s.cwd path (if data.isSome then .truncate else .append)
      (c.permissions s n)
    let t ← t.writeAt sink 0 (data.getD [])
    if c.preservesMode then
      let place ← t.resolve s.cwd path
      match t.get? place with
      | some old => return t.replaceNode place (old.withMode n.mode)
      | none => return t
    else return t
  let write (data : Option Bytes) : Behaviour := .look fun w =>
    if isNew && w.tree.isLink s.cwd path then
      failed ("not writing through dangling symlink " ++ quoted target) g
    else attempt (put data) fun
      | .ok () => k true g
      | .error .noSpace =>
        failed ("error writing " ++ quoted target ++ ": " ++ Fault.noSpace.description) g
      | .error fault =>
        if !c.force || isNew then cannotCreate fault g
        else attempt (·.removeFile s.cwd path) fun
          | .error fault =>
            failed ("cannot remove " ++ quoted target ++ ": " ++ fault.description) g
          | .ok () => p.report c.verbose ("removed " ++ quoted target ++ "\n") g fun g =>
            attempt (put data) fun
              | .ok () => k true g
              | .error fault => cannotCreate fault g
  s.openFile .read source 0 fun
    | .error fault =>
      failed ("cannot open " ++ quoted source ++ " for reading: " ++ fault.description) g
    | .ok stream =>
      if c.empty then write none
      else readAll (some stream) fun
        | .error fault =>
          failed ("error reading " ++ quoted source ++ ": " ++ fault.description) g
        | .ok data => write (some data)

/-- Makes a node at the target; what is there goes if it may. -/
def place (p : Printer) (copy : Copy) (replaces : Bool) (what : String)
    (node : Tree → Except Fault Node) (g : Progress) (k : Judged) : Behaviour :=
  let cwd := p.setting.cwd
  let path := Octets.toText copy.target
  let make (t : Tree) : Except Fault Tree := do
    let n ← node t
    match t.makeNode cwd path n with
    | .error .alreadyExists =>
      if replaces then (← t.removeFile cwd path).makeNode cwd path n
      else throw .alreadyExists
    | result => result
  attempt make fun
    | .ok () => k true g
    | .error fault => p.refuse ("cannot create " ++ what ++ ": " ++ fault.description) g (k false)

/-- Makes the copy of a file that is no directory. -/
def copySingle (p : Printer) (c : Copying) (copy : Copy) (n : Node) (isNew : Bool) (g : Progress)
    (k : Judged) : Behaviour :=
  let cwd := p.setting.cwd
  let source := copy.source
  let target := copy.target
  let names := quoted target ++ " to " ++ quoted source
  let copyAsIs (g : Progress) : Behaviour := match n with
    | .link text =>
      place p copy c.force ("symbolic link " ++ quoted target) (fun _ => .ok (.link text)) g k
    | .program name =>
      place p copy true ("regular file " ++ quoted target) (fun _ => .ok (.program name)) g k
    | .pipe .. =>
      if c.recursive && !c.readsPipes then
        attempt (·.makePipe cwd (Octets.toText target) (c.permissions p.setting n)) fun
          | .ok () => k true g
          | .error fault =>
            p.refuse ("cannot create fifo " ++ quoted target ++ ": " ++ fault.description) g
              (k false)
      else copyData p c copy n isNew g k
    | .device _ =>
      if c.recursive && !c.readsPipes then
        p.refuse ("cannot create special file " ++ quoted target ++ ": " ++
          Fault.notPermitted.description) g (k false)
      else copyData p c copy n isNew g k
    | _ => copyData p c copy n isNew g k
  if c.symbolic then
    .look fun w =>
      let above := w.tree.resolve cwd (pathAbove (Octets.toText target))
      if !Path.isAbsolute source && above.isOk && above.toOption != some cwd then
        p.refuse (shown target ++ ": can make relative symbolic links only in current directory") g
          (k false)
      else place p copy c.force ("symbolic link " ++ names)
        (fun _ => .ok (.link (Octets.toText source))) g k
  else if c.links then
    place p copy (c.force || c.asks) ("hard link " ++ names) (fun _ => .ok n) g k
  else .look fun w =>
    let isShared := 1 < w.tree.nameCount n || c.following = .always ||
      c.following = .operands && copy.isOperand
    match if c.preservesLinks && isShared then n.serial? else none with
    | none => copyAsIs g
    | some serial => match g.files.lookup serial with
      | none => copyAsIs { g with files := (serial, target) :: g.files }
      | some earlier =>
        place p copy true ("hard link " ++ quoted target ++ " to " ++ quoted earlier)
          (·.stat cwd (Octets.toText earlier)) g k

/-- Makes the copy of a directory; `fill` copies the names in it. -/
def copyDirectory (p : Printer) (c : Copying) (copy : Copy) (n : Node) (isNew : Bool)
    (fill : Copy → List String → Progress → (Progress → Behaviour) → Behaviour) (g : Progress)
    (k : Judged) : Behaviour :=
  let cwd := p.setting.cwd
  let source := copy.source
  let target := copy.target
  let sourcePath := Octets.toText source
  let targetPath := Octets.toText target
  let restore (t : Tree) : Except Fault Tree := do
    let place ← t.resolve cwd targetPath
    match t.get? place with
    | some old => return t.replaceNode place (old.withMode (c.permissions p.setting n))
    | none => return t
  let enter (place : Place) (hasMade : Bool) (g : Progress) (k : Judged) : Behaviour :=
    .look fun w => match w.tree.listByAge cwd sourcePath with
      | .error fault =>
        p.refuse ("cannot access " ++ quoted source ++ ": " ++ fault.description) g (k false)
      | .ok names =>
        fill { copy with hasMade, above := place :: copy.above } (names.map Octets.ofText) g
          (k true)
  let make (place : Place) (g : Progress) : Behaviour :=
    if copy.above.contains place then
      p.refuse ("cannot copy cyclic symbolic link " ++ quoted source) g (k false)
    else if !isNew then enter place copy.hasMade g k
    else attempt (·.makeDirectory cwd targetPath (c.permissions p.setting n ||| 0o700)) fun
      | .error fault =>
        p.refuse ("cannot create directory " ++ quoted target ++ ": " ++ fault.description) g
          (k false)
      | .ok () => p.report c.verbose (pairText source target ++ "\n") g fun g => .look fun w =>
        let made := if copy.hasMade then none else (w.tree.resolve cwd targetPath).toOption
        let g := { g with directories := (made.toList.map (·, target)) ++ g.directories }
        enter place true g fun fine g => attempt restore fun _ => k fine g
  .look fun w => match w.tree.resolve cwd sourcePath with
    | .error fault =>
      p.refuse ("cannot access " ++ quoted source ++ ": " ++ fault.description) g (k false)
    | .ok place => match g.directories.lookup place with
      | none => make place
          (if copy.isOperand then { g with directories := (place, target) :: g.directories } else g)
      | some earlier =>
        if w.tree.isSameEntry cwd sourcePath (Octets.toText earlier) then
          p.refuse ("cannot copy a directory, " ++ quoted copy.top.1 ++ ", into itself, " ++
            quoted copy.top.2) { g with inItself := true } (k false)
        else if w.tree.isSameEntry cwd targetPath (Octets.toText earlier) then
          p.warn ("source directory " ++ quoted copy.top.1 ++ " specified more than once") g
            (k true)
        else if c.followsAt copy.isOperand then make place g
        else p.refuse ("will not create hard link " ++ quoted target ++ " to directory " ++
          quoted earlier) g (k false)

/-- Copies a file, and a directory with everything below it. -/
def copyFile (p : Printer) (c : Copying) : (fuel : Nat) → Copy → Progress →
    (Progress → Behaviour) → Behaviour
  | 0, _, g, k => k g
  | fuel + 1, copy, g, k =>
    let cwd := p.setting.cwd
    let source := copy.source
    let target := copy.target
    let sourcePath := Octets.toText source
    let targetPath := Octets.toText target
    let follows := c.followsAt copy.isOperand
    let fill (copy : Copy) (names : List String) (g : Progress) (k : Progress → Behaviour) :
        Behaviour :=
      forEach (fun name g k =>
        if g.inItself then k g
        else copyFile p c fuel
          { copy with
            source := pathIn source name, target := pathIn target name, isOperand := false } g k)
        names g k
    .look fun w =>
      let t := w.tree
      match t.nodeAt cwd follows sourcePath with
      | .error fault => p.refuse ("cannot stat " ++ quoted source ++ ": " ++ fault.description) g k
      | .ok n =>
        let identity := t.identity? cwd follows sourcePath
        let isRepeated := copy.isOperand && !n.isDirectory && c.backups.kind = .none &&
          identity.any fun i => g.sources.contains (source, i)
        let known := if copy.isOperand then identity.toList.map (source, ·) else []
        let g := { g with sources := known ++ g.sources }
        let followsTarget := (n.isFile || !c.recursive && !n.isDirectory && follows) &&
          !c.symbolic && !c.links && c.backups.kind = .none && !c.removes
        -- `settle` makes the copy and takes the backup back if that fails.
        let settle (isNew : Bool) (saved : Option String) (g : Progress) : Behaviour :=
          let finish (fine : Bool) (g : Progress) : Behaviour :=
            if fine then .look fun w =>
              let made := if copy.isOperand then w.tree.identity? cwd false targetPath else none
              k { g with targets := made.toList.map (target, ·) ++ g.targets }
            else match saved with
              | none => k g
              | some name => attempt (·.rename cwd (Octets.toText name) targetPath) fun _ =>
                p.report c.verbose (quoted name ++ " -> " ++ quoted target ++ " (unbackup)\n") g k
          if n.isDirectory then copyDirectory p c copy n isNew fill g finish
          else p.report c.verbose (pairText source target saved ++ "\n") g fun g =>
            copySingle p c copy n isNew g finish
        let replace (r : Replacement) (g : Progress) : Behaviour :=
          match r.obstacle? t cwd g with
          | some text => p.refuse text g k
          | none =>
            let loosens := c.preservesLinks && 1 < t.nameCount r.old ||
              c.following = .never && !n.isFile
            if r.keepsOld then
              c.backups.keep p target g.account (fun account => k { g with account })
                fun saved => settle true saved g
            else if !r.old.isDirectory && (c.removes || loosens && !c.empty) then
              attempt (·.removeFile cwd targetPath) fun
                | .ok () => p.report c.verbose ("removed " ++ quoted target ++ "\n") g
                    (settle true none)
                | .error fault =>
                  p.refuse ("cannot remove " ++ quoted target ++ ": " ++ fault.description) g k
            else settle false none g
        if n.isDirectory && !c.recursive then
          p.refuse ("-r not specified; omitting directory " ++ quoted source) g k
        else if isRepeated then
          p.warn ("source file " ++ quoted source ++ " specified more than once") g k
        else match t.nodeAt cwd followsTarget targetPath with
        | .error .notFound => settle true none g
        | .error fault =>
          if fault = .tooManyLinks && c.force then settle false none g
          else p.refuse ("cannot stat " ++ quoted target ++ ": " ++ fault.description) g k
        | .ok old =>
          let r : Replacement :=
            { source, target, isOperand := copy.isOperand, node := n, followsSource := follows
              old, followsTarget, follows := c.following ≠ .never, links := c.links
              symbolic := c.symbolic, removes := c.removes, backups := c.backups }
          let skips := c.keeps || c.updating = .none
          let relationship := if skips then .different else r.relationship t cwd
          if relationship = .same then
            p.refuse (quoted source ++ " and " ++ quoted target ++ " are the same file") g k
          else if c.updating.isCurrent n old || skips && !n.isDirectory then k g
          else
            let next (g : Progress) : Behaviour :=
              if relationship = .settled then k g else replace r g
            if c.asks && !n.isDirectory then p.askReplacing "overwrite" target g next k
            else next g

/-! ## The program -/

/-- The options of `cp`. -/
def cpChoices : List Choice :=
  [⟨'a', "archive", .no⟩, ⟨'\x03', "attributes-only", .no⟩, ⟨'b', "", .no⟩,
    ⟨Backups.letter, "backup", .maybe⟩, ⟨'\x04', "copy-contents", .no⟩, ⟨'d', "", .no⟩,
    ⟨'L', "dereference", .no⟩, ⟨'f', "force", .no⟩, ⟨'H', "", .no⟩,
    ⟨'i', "interactive", .no⟩, ⟨'l', "link", .no⟩, ⟨'n', "no-clobber", .no⟩,
    ⟨'P', "no-dereference", .no⟩, ⟨'\x01', "no-preserve", .yes⟩,
    ⟨'T', "no-target-directory", .no⟩, ⟨'x', "one-file-system", .no⟩,
    ⟨'\x05', "parents", .no⟩, ⟨'p', "", .no⟩, ⟨'\x00', "preserve", .maybe⟩,
    ⟨'R', "recursive", .no⟩, ⟨'\x02', "remove-destination", .no⟩, ⟨'r', "", .no⟩,
    ⟨'\x07', "sparse", .yes⟩, ⟨'\x06', "reflink", .maybe⟩,
    ⟨'\x08', "strip-trailing-slashes", .no⟩, ⟨'S', "suffix", .yes⟩,
    ⟨'s', "symbolic-link", .no⟩, ⟨'t', "target-directory", .yes⟩, ⟨'u', "", .no⟩,
    ⟨'\x09', "update", .maybe⟩, ⟨'v', "verbose", .no⟩, ⟨'Z', "", .no⟩,
    ⟨'\x0e', "context", .maybe⟩]

/-- What of a file its copy may share. -/
inductive Attribute where
  | mode
  | link
  | every
  /-- Something that is not known of any file. -/
  | unknown
  deriving Repr, DecidableEq

/-- The words for what a copy may share. -/
def attributeWords : List (Wording Attribute) :=
  [⟨["mode"], .mode⟩, ⟨["timestamps"], .unknown⟩, ⟨["ownership"], .unknown⟩, ⟨["links"], .link⟩,
    ⟨["context"], .unknown⟩, ⟨["xattr"], .unknown⟩, ⟨["all"], .every⟩]

/-- Copying in which copies share what a list of words names, or do not share it. -/
def Copying.sharing (c : Copying) (shares : Bool) (option text : String) : Except String Copying :=
  (Text.split ',' text).foldlM (fun (c : Copying) word => do
    return match ← worded attributeWords option word with
      | .mode => { c with preservesMode := shares, dropsMode := !shares }
      | .link => { c with preservesLinks := shares }
      | .every =>
        { c with preservesMode := shares, dropsMode := !shares, preservesLinks := shares }
      | .unknown => c) c

/-- How options say that files are copied. -/
def copyingOf (a : Arguments) : Except String Copying := do
  let backups ← Backups.ofArguments a
  let updating ← updatingOf a
  let recursive := ['a', 'r', 'R'].any a.has
  let following : Following := match a.last? ['a', 'd', 'P', 'L', 'H'] with
    | some 'L' => .always
    | some 'H' => .operands
    | some _ => .never
    | none => if recursive && !a.has 'l' then .never else .always
  let sparseWords : List (Wording Char) := [⟨["never"], 'n'⟩, ⟨["auto"], 'u'⟩, ⟨["always"], 'a'⟩]
  let cloneWords : List (Wording Char) := [⟨["auto"], 'u'⟩, ⟨["always"], 'a'⟩, ⟨["never"], 'n'⟩]
  let _ ← (a.values '\x07').mapM (worded sparseWords "--sparse")
  let _ ← ((a.values '\x06').filter (!·.isEmpty)).mapM (worded cloneWords "--reflink")
  let c : Copying :=
    { recursive, backups, updating, following, force := a.has 'f', keeps := a.has 'n'
      verbose := a.has 'v', asks := a.last? ['i', 'n'] = some 'i', links := a.has 'l'
      symbolic := a.has 's', removes := a.has '\x02', empty := a.has '\x03'
      readsPipes := a.has '\x04' }
  let c ← a.options.foldlM (fun (c : Copying) (letter, text) => match letter with
    | 'a' => .ok { c with preservesMode := true, preservesLinks := true }
    | 'd' => .ok { c with preservesLinks := true }
    | 'p' => .ok { c with preservesMode := true }
    | '\x00' =>
      if text.isEmpty then .ok { c with preservesMode := true }
      else c.sharing true "--preserve" text
    | '\x01' => c.sharing false "--no-preserve" text
    | _ => .ok c) c
  if c.links && c.symbolic then throw "cannot make both hard and symbolic links"
  return c

/-- Makes the directories above the copy of a file that keeps its path below a directory. -/
def makeParents (p : Printer) (verbose : Bool) (directory source : String) (g : Progress)
    (k : Judged) : Behaviour :=
  let cwd := p.setting.cwd
  let step (above : String) (state : Bool × Progress) (k : Bool × Progress → Behaviour) :
      Behaviour :=
    let target := pathIn directory above
    let fail (text : String) : Behaviour := p.refuse text state.2 fun g => k (false, g)
    if !state.1 then k state
    else .look fun w => match w.tree.stat cwd (Octets.toText above) with
      | .error fault =>
        fail ("failed to get attributes of " ++ quoted above ++ ": " ++ fault.description)
      | .ok n => match w.tree.stat cwd (Octets.toText target) with
        | .ok old => if old.isDirectory then k state
            else fail (quoted target ++ " exists but is not a directory")
        | .error _ => attempt (·.makeDirectory cwd (Octets.toText target) n.mode) fun
          | .ok () => p.report verbose (above ++ " -> " ++ target ++ "\n") state.2
              fun g => k (true, g)
          | .error fault =>
            fail ("cannot make directory " ++ quoted target ++ ": " ++ fault.description)
  let above := if source.toList.contains '/' then pathsTo (pathAbove source) else []
  forEach step above (true, g) fun (fine, g) => k fine g

/-- Copies files into a directory below which they keep their paths. -/
def copyBelow (p : Printer) (c : Copying) (a : Arguments) : Behaviour :=
  let operands := match a.value? 't' with
    | some directory => a.operands ++ [directory]
    | none => a.operands
  match operands with
  | [] => missing p.setting p.name "file operand"
  | [source] => misused p.setting p.name
      ("missing destination file operand after " ++ quoted source) 1
  | operands =>
    let directory := operands.getLast?.getD ""
    .look fun w =>
      if !w.tree.isDirectory p.setting.cwd (Octets.toText directory) then
        misused p.setting p.name "with --parents, the destination must be a directory" 1
      else p.runThrough (fun operand g k =>
        let source := withoutEndSlashes operand
        let target := pathIn directory source
        makeParents p c.verbose directory source g fun fine g =>
          if fine then
            copyFile p c deepest { top := (source, target), source, target }
              { g with inItself := false } k
          else k g) operands.dropLast

/-- Copies one operand. -/
def copyOperand (p : Printer) (c : Copying) (source target : String) (g : Progress)
    (k : Progress → Behaviour) : Behaviour :=
  let cwd := p.setting.cwd
  -- What stands above a directory is not put beside the target.
  let target := if lastName source = ".." && target.endsWith "/.." then
      String.ofList target.toList.dropLast else target
  let go (c : Copying) (target : String) : Behaviour :=
    copyFile p c deepest { top := (source, target), source, target } { g with inItself := false } k
  .look fun w =>
    let isFile := (w.tree.stat cwd (Octets.toText target)).toOption.any (·.isFile)
    if c.force && source = target && isFile then
      -- A file is copied over itself by making its backup.
      match c.backups.path? w.tree cwd target with
      | some saved => go { c with backups := {} } saved
      | none => go c target
    else go c target

/-- Copies files. -/
def cp : Program := fun s name args =>
  withArguments s name 1 cpChoices args fun a => match copyingOf a with
  | .error text => misused s name text 1
  | .ok c =>
    let p : Printer := { setting := s, name }
    let a := if a.has '\x08' then a.stripped else a
    let run : Behaviour :=
      if a.has '\x05' then copyBelow p c a else withPairs p a (copyOperand p c)
    let run : Behaviour :=
      if (a.values '\x0e').any (!·.isEmpty) then
        complain s name "warning: ignoring --context; it requires an SELinux-enabled kernel" run
      else run
    if a.has 'n' then
      complain s name ("warning: behavior of -n is non-portable and may change in future; " ++
        "use --update=none instead") run
    else run

end LangBundle.Utility
