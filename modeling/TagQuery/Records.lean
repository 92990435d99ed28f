import TagQuery.Tag
import TagQuery.Json.Grammar

/-! Items as JSON records. A record is an object with an identifier, a location and perhaps tags,
each named once, among other members; or an array of these in order. -/
namespace TagQuery.Records

open Reader

inductive Member where
  | id (content : Text)
  | location (content : Text)
  | tags (names : List Text)
  | other
  deriving DecidableEq, Repr

def memberNamed (name : Text) : Reader Member :=
  if name = "id".toList then do return .id (← Json.text)
  else if name = "location".toList then do return .location (← Json.text)
  else if name = "tags".toList then do return .tags (← Json.list Json.text)
  else do
    Json.ignored
    return .other

def Member.id? : Member → Option Text
  | id content => some content
  | _ => none

def Member.location? : Member → Option Text
  | location content => some content
  | _ => none

def Member.tags? : Member → Option (List Text)
  | tags names => some names
  | _ => none

/-- The item of some members, unless one is missing or repeated. -/
def item? (members : List Member) : Option Item :=
  match members.filterMap Member.id?, members.filterMap Member.location?,
    members.filterMap Member.tags? with
  | [id], [location], [] => some ⟨id, location, []⟩
  | [id], [location], [tags] => some ⟨id, location, tags⟩
  | _, _, _ => none

def object : Reader Item := do
  let members ← Json.enclosed '\x7b' '\x7d' (Json.member Json.text memberNamed)
  ofOption (item? members)

def comma : Reader Unit := do
  Json.blanks
  char ','
  Json.blanks

def array : Reader Item := do
  char '['
  Json.blanks
  let id ← Json.text
  comma
  let location ← Json.text
  let tags ← optional do
    comma
    Json.list Json.text
  Json.blanks
  char ']'
  return ⟨id, location, tags.getD []⟩

/-- An array of records, and nothing else. -/
def all : Reader (List Item) := do
  Json.blanks
  let items ← Json.list (object <|> array)
  Json.blanks
  return items

def read? (t : Text) : Option (List Item) := all.whole t

example :
    read? "[\x7b\"id\":\"1\",\"x\":[2],\"location\":\"/a\"\x7d,[\"2\",\"/b\",[\"t\"]]]".toList =
    some [⟨"1".toList, "/a".toList, []⟩, ⟨"2".toList, "/b".toList, ["t".toList]⟩] := by
  decide +kernel
example : read? "[\x7b\"id\":\"1\"\x7d]".toList = none := by decide +kernel

end TagQuery.Records
