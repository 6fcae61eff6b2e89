import ObliviousStorage.Bytes.Buffer

/-!
Contract: a directory of files as a map from names to contents.

Owns: the files in ascending order of their names, and the three ways in which a
file store changes them.

Does not own: which file belongs to which relation.
-/

namespace ObliviousStorage

/-- The files of a directory, in ascending order of their names. -/
structure Directory where
  files : List (String × Buffer)

namespace Directory

def empty : Directory := ⟨[]⟩

def contents? (directory : Directory) (name : String) : Option Buffer :=
  (directory.files.find? fun file => file.1 = name).map Prod.snd

/-- The file placed among others by its name; a file of that name is replaced. -/
def place (name : String) (contents : Buffer) : List (String × Buffer) → List (String × Buffer)
  | [] => [(name, contents)]
  | (other, kept) :: rest =>
      if name = other then
        (name, contents) :: rest
      else if name < other then
        (name, contents) :: (other, kept) :: rest
      else
        (other, kept) :: place name contents rest

/-- The directory after a file was written as a whole. -/
def put (directory : Directory) (name : String) (contents : Buffer) : Directory :=
  ⟨place name contents directory.files⟩

/-- The names of the files with the lengths of their contents. -/
def listing (directory : Directory) : List (String × Nat) :=
  directory.files.map fun file => (file.1, file.2.size)

end Directory

end ObliviousStorage
