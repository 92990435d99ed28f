import TagQuery.Text.Blank
import TagQuery.Text.Lowercase

/-! Locations: slash-separated paths that are compared as text. Normalization is lexical. It
resolves `.` and `..`, drops empty segments, takes backslashes for separators, and lowercases on
request. -/
namespace TagQuery.Location

/-- Separators made uniform. -/
def unify (t : Text) : Text := t.map fun c => if c = '\\' then '/' else c

/-- The segment that stays where it is. -/
def here : Text := ['.']

/-- The segment that climbs. -/
def up : Text := ['.', '.']

/-- One more segment on top of resolved ones, latest first. A climb cancels the name before it; at
the root of an absolute path it is dropped, and elsewhere it is kept. -/
def push (absolute : Bool) (resolved : List Text) (segment : Text) : List Text :=
  if segment = [] ∨ segment = here then resolved
  else if segment = up then
    match resolved with
    | [] => if absolute then [] else [up]
    | last :: below =>
      if last ≠ up then below else if absolute then last :: below else up :: last :: below
  else segment :: resolved

def resolve (absolute : Bool) (segments : List Text) : List Text :=
  (segments.foldl (push absolute) []).reverse

def isAbsolute (t : Text) : Bool := t.head? == some '/'

def assemble (absolute : Bool) (segments : List Text) : Text :=
  (if absolute then ['/'] else []) ++ Text.joinWith ['/'] segments

/-- The normal form of a location; blank text has the empty one. -/
def normalize (foldsCase : Bool) (raw : Text) : Text :=
  let unified := unify raw.trim
  let absolute := isAbsolute unified
  let path := assemble absolute (resolve absolute (unified.splitOn '/'))
  if foldsCase then path.lower else path

/-- The text with which every location inside a directory begins: the normal form of the directory
and a slash. Blank text names no directory. -/
def directory? (foldsCase : Bool) (raw : Text) : Option Text :=
  match normalize foldsCase raw with
  | [] => none
  | path => some (if path.getLast? = some '/' then path else path ++ ['/'])

@[simp] theorem normalize_nil (foldsCase : Bool) : normalize foldsCase [] = [] := by
  cases foldsCase <;> rfl

example : normalize true " C:\\Users\\.\\Me//..\\Pics ".toList = "c:/users/pics".toList := by
  decide +kernel
example : normalize false "/../a".toList = "/a".toList ∧
    normalize false "../a/../../b".toList = "../../b".toList := by decide +kernel
example : directory? true "/".toList = some "/".toList := by decide +kernel

end TagQuery.Location
