import ApiDocs.Text.Affix

/-!
File names: when two names mean the same file, and which module a file name stands for.
-/

namespace ApiDocs.FileName

open Text

/-- A name without its leading `./`; two names with the same plain form mean the same file. -/
def plainChars (name : List Char) : List Char := (after? ['.', '/'] name).getD name

def plain (name : String) : String := String.ofList (plainChars name.toList)

/-- Extensions of source files. One that ends with another stands before it. -/
def extensions : List String :=
  [".d.ts", ".d.mts", ".d.cts", ".tsx", ".ts", ".mts", ".cts", ".jsx", ".js", ".mjs", ".cjs"]

def withoutExtension (name : List Char) : List Char :=
  (extensions.findSome? fun extension => before? extension.toList name).getD name

def withoutTrailingSlashes (path : List Char) : List Char :=
  (path.reverse.dropWhile (· == '/')).reverse

/-- The path from the base directory to a file under it; any other name stays as it is. -/
def relativeTo (base name : List Char) : List Char :=
  match withoutTrailingSlashes base with
  | [] => name
  | c :: directory => (after? (c :: directory ++ ['/']) name).getD name

/-- The module id of a file: its path under the base directory without `./` and extension. -/
def moduleId (base name : String) : String :=
  String.ofList (withoutExtension (plainChars (relativeTo base.toList name.toList)))

/-- The last path segment up to its first dot. -/
def stem (name : String) : String :=
  String.ofList ((name.toList.reverse.takeWhile (· != '/')).reverse.takeWhile (· != '.'))

end ApiDocs.FileName
