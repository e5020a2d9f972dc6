namespace HostAgent.FilePath

/-! # Paths of files

Paths are texts, of which only the slashes matter here.
-/

/-- A path below a directory; a name that begins with a slash is a path of its own. -/
def join (root name : String) : String :=
  if name.toList.head? = some '/' then name
  else if root = "" ∨ root.toList.getLast? = some '/' then root ++ name
  else root ++ "/" ++ name

end HostAgent.FilePath
