import TagQuery.Query.Token
import TagQuery.Scope
import TagQuery.Fault
import TagQuery.Text.Quoted

/-! The settings of a search: where the tags are stored, how queries are read, which directories are
searched, and how much is shown. -/
namespace TagQuery

structure Settings where
  /-- the file of the database, unless it is in its usual place -/
  database : Option Text := none
  /-- the most results that are shown; 0 shows all -/
  maxResults : Nat := 1000
  logLevel : Text := "info".toList
  dialect : Query.Dialect := {}
  /-- whether locations are compared without regard to case -/
  foldsCase : Bool := true
  /-- the directories that are searched when a query names none -/
  directories : List Text := []
  /-- whether the two sides of OR are evaluated at the same time -/
  parallel : Bool := false
  /-- the number of items above which a scan in memory is divided -/
  parallelThreshold : Nat := 10000
  deriving DecidableEq, Repr

namespace Settings

/-- The scope of some directories, or else of the directories in the settings. -/
def scope (settings : Settings) (directories : List Text) : Scope :=
  .ofDirectories settings.foldsCase
    (if directories.isEmpty then settings.directories else directories)

/-- Whether a keyword can never be a word of a query. -/
def isUnusable (keyword : Text) : Bool := keyword.trim.isEmpty || keyword.any Text.isBlank

def fault? (settings : Settings) : Option Fault :=
  (settings.dialect.allKeywords.find? isUnusable).map fun keyword =>
    .setting ("invalid all keyword ".toList ++ keyword.quoted)

example : fault? { dialect := { allKeywords := ["x".toList, "a b".toList, []] } } =
    some (.setting "invalid all keyword \"a b\"".toList) := by decide +kernel

end Settings
end TagQuery
