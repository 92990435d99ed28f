import TagQuery.Text

/-! Readers. A reader takes a value off the front of a text, or fails. What it leaves is never
longer than what it was given, so that reading one thing after another comes to an end. -/
namespace TagQuery

/-- A reader of a value. -/
structure Reader (α : Type) where
  read : Text → Option (α × Text)
  notLonger : ∀ {t : Text} {a : α} {rest : Text}, read t = some (a, rest) → rest.length ≤ t.length

namespace Reader

variable {α β : Type}

instance : Monad Reader where
  pure a :=
    { read := fun t => some (a, t)
      notLonger := by
        intro t b rest h
        cases h
        exact Nat.le_refl _ }
  bind p f :=
    { read := fun t =>
        match p.read t with
        | none => none
        | some (a, rest) => (f a).read rest
      notLonger := by
        intro t b rest h
        split at h
        · cases h
        · next h₁ => exact Nat.le_trans ((f _).notLonger h) (p.notLonger h₁) }

@[simp] theorem read_pure (a : α) (t : Text) : (pure a : Reader α).read t = some (a, t) := rfl

@[simp] theorem read_bind (p : Reader α) (f : α → Reader β) (t : Text) :
    (p >>= f).read t = (p.read t).bind fun r => (f r.1).read r.2 := by
  show (match p.read t with | none => none | some (a, rest) => (f a).read rest) = _
  cases p.read t <;> rfl

def fail : Reader α where
  read _ := none
  notLonger h := nomatch h

@[simp] theorem read_fail (t : Text) : (fail : Reader α).read t = none := rfl

protected def orElse (p : Reader α) (q : Unit → Reader α) : Reader α where
  read t :=
    match p.read t with
    | none => (q ()).read t
    | some r => some r
  notLonger := by
    intro t a rest h
    split at h
    · exact (q ()).notLonger h
    · next h₁ => cases h; exact p.notLonger h₁

instance : OrElse (Reader α) := ⟨Reader.orElse⟩

@[simp] theorem read_orElse (p q : Reader α) (t : Text) :
    (p <|> q).read t = (p.read t).or (q.read t) := by
  show (match p.read t with | none => q.read t | some r => some r) = _
  cases p.read t <;> rfl

def optional (p : Reader α) : Reader (Option α) := (some <$> p) <|> pure none

def ofOption : Option α → Reader α
  | none => fail
  | some a => pure a

def peek : Reader (Option Char) where
  read t := some (t.head?, t)
  notLonger := by
    intro t a rest h
    cases h
    exact Nat.le_refl _

@[simp] theorem read_peek (t : Text) : peek.read t = some (t.head?, t) := rfl

/-- One character that passes a test. -/
def one (test : Char → Bool) : Reader Char where
  read
    | [] => none
    | c :: t => if test c then some (c, t) else none
  notLonger := by
    intro t a rest h
    split at h
    · cases h
    · split at h
      · cases h
        exact Nat.le_succ _
      · cases h

@[simp] theorem read_one_nil (test : Char → Bool) : (one test).read [] = none := rfl

@[simp] theorem read_one_cons (test : Char → Bool) (c : Char) (t : Text) :
    (one test).read (c :: t) = if test c then some (c, t) else none := rfl

def char (c : Char) : Reader Unit := do
  let _ ← one (· == c)

@[simp] theorem read_char_cons (c d : Char) (t : Text) :
    (char c).read (d :: t) = if d = c then some ((), t) else none := by
  by_cases h : d = c <;> simp [char, h]

def exactly : Text → Reader Unit
  | [] => pure ()
  | c :: t => do
    char c
    exactly t

@[simp] theorem read_exactly_append (t rest : Text) :
    (exactly t).read (t ++ rest) = some ((), rest) := by
  induction t with
  | nil => rfl
  | cons c t ih => simp [exactly, ih]

/-- The longest run of characters that pass a test. -/
def run (test : Char → Bool) : Reader Text where
  read t := some (t.takeWhile test, t.dropWhile test)
  notLonger := by
    intro t a rest h
    cases h
    exact (List.dropWhile_suffix test).length_le

@[simp] theorem read_run (test : Char → Bool) (t : Text) :
    (run test).read t = some (t.takeWhile test, t.dropWhile test) := rfl

def run1 (test : Char → Bool) : Reader Text := do
  let first ← one test
  return first :: (← run test)

def exactlyMany (test : Char → Bool) : Nat → Reader Text
  | 0 => pure []
  | n + 1 => do
    let first ← one test
    return first :: (← exactlyMany test n)

/-- The items that follow, each after a separator, put behind those found before. -/
def afterEachFrom (separator : Char) (item : Reader α) (found : List α) :
    Text → Option (List α × Text)
  | [] => some (found.reverse, [])
  | c :: t =>
    if c = separator then
      match _h : item.read t with
      | none => none
      | some (a, rest) => afterEachFrom separator item (a :: found) rest
    else some (found.reverse, c :: t)
termination_by t => t.length
decreasing_by exact Nat.lt_succ_of_le (item.notLonger _h)

theorem afterEachFrom_notLonger (separator : Char) (item : Reader α) (found : List α) (t : Text)
    {as : List α} {rest : Text} (h : afterEachFrom separator item found t = some (as, rest)) :
    rest.length ≤ t.length := by
  fun_induction afterEachFrom separator item found t with
  | case1 => cases h; exact Nat.le_refl _
  | case2 => cases h
  | case3 _ _ _ _ h₁ ih => exact Nat.le_trans (ih h) (Nat.le_succ_of_le (item.notLonger h₁))
  | case4 => cases h; exact Nat.le_refl _

def afterEach (separator : Char) (item : Reader α) : Reader (List α) where
  read := afterEachFrom separator item []
  notLonger := afterEachFrom_notLonger separator item [] _

/-- Text up to an end, put behind what was found before. The end may contribute a last part, and
every other character is the beginning of a piece. -/
def untilFrom (stop : Reader Text) (piece : Char → Reader Text) (found t : Text) :
    Option (Text × Text) :=
  match stop.read t with
  | some (last, rest) => some (found.reverse ++ last, rest)
  | none =>
    match t with
    | [] => none
    | c :: t =>
      match _h : (piece c).read t with
      | none => none
      | some (part, rest) => untilFrom stop piece (part.reverseAux found) rest
termination_by t.length
decreasing_by exact Nat.lt_succ_of_le ((piece c).notLonger _h)

theorem untilFrom_notLonger (stop : Reader Text) (piece : Char → Reader Text) (found t : Text)
    {u rest : Text} (h : untilFrom stop piece found t = some (u, rest)) :
    rest.length ≤ t.length := by
  fun_induction untilFrom stop piece found t with
  | case1 _ _ _ _ h₁ => cases h; exact stop.notLonger h₁
  | case2 => cases h
  | case3 => cases h
  | case4 _ c _ _ _ h₁ _ ih =>
    exact Nat.le_trans (ih h) (Nat.le_succ_of_le ((piece c).notLonger h₁))

def untilStop (stop : Reader Text) (piece : Char → Reader Text) : Reader Text where
  read := untilFrom stop piece []
  notLonger := untilFrom_notLonger stop piece [] _

/-- A character that ends a text and contributes nothing to it. -/
def closing (c : Char) : Reader Text := do
  char c
  return []

/-- The value of a text of which the reader leaves nothing. -/
def whole (p : Reader α) (t : Text) : Option α :=
  match p.read t with
  | some (a, []) => some a
  | _ => none

example : ((do
    let first ← run1 Char.isDigit
    return first :: (← afterEach ',' (run1 Char.isDigit))).whole "1,22,3".toList) =
    some ["1".toList, "22".toList, "3".toList] := by decide +kernel

end Reader
end TagQuery
