import ObliviousStorage.Fault
import ObliviousStorage.Index.Layout

/-!
Contract: the two oblivious files that requests can name.

Owns: the names of the table file and the index file, the relations behind them, and
the layout of the index file where it is known. The names differ, so a request's
name settles which file it means.

Does not own: whether a file is open, or what it holds.
-/

namespace ObliviousStorage

/-- The two files of a session. -/
structure Session where
  tableFile : String
  indexFile : String
  tableRelation : RelationId
  indexRelation : RelationId
  layout : Option Index.Layout
  names_ne : tableFile ≠ indexFile

inductive FileRole where
  | table
  | index
deriving DecidableEq, Repr

namespace Session

/-- A session over two files whose names must differ. -/
def create
    (tableFile indexFile : String)
    (tableRelation indexRelation : RelationId)
    (layout : Option Index.Layout) :
    Except Fault Session :=
  if same : tableFile = indexFile then
    .error (.invalidConfiguration (.sharedName tableFile))
  else
    .ok ⟨tableFile, indexFile, tableRelation, indexRelation, layout, same⟩

def roleOf (session : Session) (name : String) : Option FileRole :=
  if name = session.tableFile then some .table
  else if name = session.indexFile then some .index
  else none

def relation (session : Session) : FileRole → RelationId
  | .table => session.tableRelation
  | .index => session.indexRelation

end Session

end ObliviousStorage
