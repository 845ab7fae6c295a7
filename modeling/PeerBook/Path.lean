namespace PeerBook.Path

def join (dir file : String) : String :=
  if dir = "" ∨ dir.toList.getLast? = some '/' then dir ++ file else dir ++ "/" ++ file

def isAbsolute (path : String) : Bool :=
  path.startsWith "/"

def parts (path : String) : List String :=
  (path.toList.splitOn '/').map String.ofList

/-- The parts that tell one path from another: a dot counts only in front. -/
def components (path : String) : List String :=
  let named := (parts path).filter fun part => part != "" && part != "."
  if (parts path).head? = some "." then "." :: named else named

def isSame (p q : String) : Bool :=
  isAbsolute p == isAbsolute q && components p == components q

def ancestors (path : String) : List String :=
  let root := if isAbsolute path then "/" else ""
  let above := (components path).dropLast
  (List.range above.length).reverse.map fun n => root ++ "/".intercalate (above.take (n + 1))

end PeerBook.Path
