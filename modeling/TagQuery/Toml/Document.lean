import TagQuery.Toml.Statement

/-! A document is the table that its lines build: the lines before the first header belong to the
table itself, and every header begins a section. -/
namespace TagQuery.Toml

/-- Keys with their values, in order. -/
abbrev Lines := List (KeyPath × Value)

structure Section where
  target : Target
  lines : Lines
  deriving Repr

/-- The lines before the first header, and the sections. -/
def sections : List Statement → Lines × List Section
  | [] => ([], [])
  | .blank :: rest => sections rest
  | .assign path value :: rest => ((path, value) :: (sections rest).1, (sections rest).2)
  | .header target :: rest => ([], ⟨target, (sections rest).1⟩ :: (sections rest).2)

/-- Adds a section to a document. A table may have a header only once, but may have been implied by
the header of a table inside it. -/
def addSection (document : Entries) (part : Section) : Option Entries :=
  match part.target with
  | .table path =>
    descend false
      (fun _ entries =>
        match entries.find? path.name with
        | none =>
          (assignAll .header [] part.lines).map fun inner =>
            entries.set path.name (.table .header inner)
        | some (.table .implied inner) =>
          (assignAll .header inner part.lines).map fun inner =>
            entries.set path.name (.table .header inner)
        | some _ => none)
      path.parents .header document
  | .element path =>
    descend false
      (fun _ entries =>
        match entries.find? path.name with
        | none =>
          (assignAll .header [] part.lines).map fun inner =>
            entries.set path.name (.tables [inner])
        | some (.tables elements) =>
          (assignAll .header [] part.lines).map fun inner =>
            entries.set path.name (.tables (elements ++ [inner]))
        | some _ => none)
      path.parents .header document

def addSections (document : Entries) : List Section → Option Entries
  | [] => some document
  | part :: rest =>
    match addSection document part with
    | none => none
    | some document => addSections document rest

def Entries.ofStatements (lines : List Statement) : Option Entries :=
  match assignAll .header [] (sections lines).1 with
  | none => none
  | some document => addSections document (sections lines).2

def Entries.ofText (t : Text) : Option Entries :=
  (statements.whole t).bind Entries.ofStatements

example : ((Entries.ofText "a.b = 1 # x\n[c]\nd = [ 'x', ]".toList).bind
    (·.find? "c".toList)).isSome = true := by decide +kernel
example : (Entries.ofText "a.b = 1\n[a]".toList).isNone = true := by decide +kernel
example : (Entries.ofText "[a.b]\n[a]\nc = 1\r\n[[d]]\n[[d]]".toList).isSome = true := by
  decide +kernel

end TagQuery.Toml
