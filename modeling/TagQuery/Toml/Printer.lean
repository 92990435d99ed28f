import TagQuery.Toml.Quoting

/-! The layout in which documents are written: one line for each key, and an empty line between
sections. An array of several texts takes one line for each of them. -/
namespace TagQuery.Toml

/-- An element of an array that takes several lines. -/
def writeElement (t : Text) : Text := "    ".toList ++ quote t ++ ",\n".toList

def writeTexts : List Text → Text
  | [] => "[]".toList
  | [t] => ['['] ++ quote t ++ [']']
  | ts => "[\n".toList ++ ts.flatMap writeElement ++ [']']

def writeLine (key : String) (written : Text) : Text :=
  key.toList ++ " = ".toList ++ written ++ ['\n']

def writeSection (name : String) (lines : List Text) : Text :=
  ['['] ++ name.toList ++ "]\n".toList ++ lines.flatten

def writeSections (parts : List Text) : Text := Text.joinWith ['\n'] parts

end TagQuery.Toml
