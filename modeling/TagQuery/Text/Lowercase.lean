import TagQuery.Text
import TagQuery.Text.CaseTable

/-! Full Unicode lowercasing. One capital becomes two characters, and the capital sigma becomes `ς`
at the end of a word and `σ` elsewhere; every other character is mapped by itself. -/
namespace TagQuery.Text

/-- The lowercase form of the code point, when the run has one for it. -/
def CaseRun.lower? (r : CaseRun) (n : Nat) : Option Nat :=
  if r.first ≤ n ∧ n ≤ r.last ∧ (n - r.first) % r.step = 0 then some (r.lower + (n - r.first))
  else none

/-- The lowercase form of a character that does not depend on its neighbours. -/
def lowerChar (c : Char) : Text :=
  if c = 'İ' then ['i', '\u0307']
  else
    match (caseRuns.find? (fun r => c.toNat ≤ r.last)).bind (CaseRun.lower? · c.toNat) with
    | some n => [Char.ofNat n]
    | none => [c]

/-- A letter of either case, or a sign that behaves like one. -/
def isCased (c : Char) : Bool := inRanges casedRanges c.toNat

/-- A sign passed over when the end of a word is looked for. -/
def isCaseIgnorable (c : Char) : Bool := inRanges caseIgnorableRanges c.toNat

/-- Whether the first character that is not passed over is cased. -/
def startsCased (t : Text) : Bool := (t.dropWhile isCaseIgnorable).head?.any isCased

/-- Whether the last character that is not passed over is cased, given the answer for the text
before `c`. -/
def casedAfter (before : Bool) (c : Char) : Bool :=
  if isCaseIgnorable c then before else isCased c

/-- Lowercasing of what follows a text; `before` says whether that text ends in a cased
character. -/
def lowerFrom (before : Bool) : Text → Text
  | [] => []
  | c :: rest =>
    (if c = 'Σ' then [if before && !startsCased rest then 'ς' else 'σ'] else lowerChar c)
      ++ lowerFrom (casedAfter before c) rest

def lower (t : Text) : Text := lowerFrom false t

@[simp] theorem lower_nil : lower [] = [] := rfl

example : lower "ΑΣ Σ".toList = "ας σ".toList := by decide +kernel
example : lower "İÉ".toList = "i̇é".toList := by decide +kernel

end TagQuery.Text
