import LangBundle.Path

/-!
# Names that are safe to keep

An uploader may declare any text as a file name.  `EntryName.ofDeclared?` reduces it to a bare base
name, `safeExtension?` takes the extension that may reach a path, and `moduleStem` is the base name
of the compiled module.
-/

namespace LangBundle

open Text

namespace EntryName

/-- Both kinds of slash separate directories in a declared name. -/
def isSeparator (c : Char) : Bool :=
  c == '/' || c == '\\'

/-- What stands after the last separator. -/
def baseName (cs : List Char) : List Char :=
  (cs.reverse.takeWhile (!isSeparator ·)).reverse

/-- A base name without control characters and without white space around it. -/
def clean (cs : List Char) : List Char :=
  trim ((baseName cs).filter (!isControl ·))

/-- The bare base name of a declared name; none if nothing usable is left. -/
def ofDeclared? (declared : String) : Option String :=
  let name := String.ofList (clean declared.toList)
  if name = "" ∨ name = "." ∨ name = ".." then none else some name

/-- The longest extension that is kept, in bytes. -/
def maxExtension : Nat := 8

/-- The extension of a name if it is short and made of ASCII letters and digits. -/
def safeExtension? (name : String) : Option String :=
  (Path.extension? name).filter fun ext =>
    !ext.isEmpty && ext.utf8ByteSize ≤ maxExtension && ext.toList.all isAsciiAlphanumeric

end EntryName

/-- The characters of a module's base name. -/
def isStemChar (c : Char) : Bool :=
  isAsciiAlphanumeric c || c == '_' || c == '-'

/-- The base name of the compiled module: the interpreter's own stem reduced to plain characters. -/
def moduleStem (interpreterEntry : String) : String :=
  let stem := String.ofList (((Path.fileStem? interpreterEntry).getD "").toList.filter isStemChar)
  if stem = "" then "interpreter" else stem

end LangBundle
