import TagQuery.Proofs.Evaluation.Exactness

/-! Evaluations that run out of patience. Every node looks whether to go on right before the first question
below it, so nothing is asked too many. Main statements: an evaluation that is abandoned after so many
questions has asked just the first ones of the whole evaluation and found nothing, and when there are no
more questions it is the whole evaluation; and with both sides of OR at the same time, what is found is what
would have been found. -/
namespace TagQuery

namespace Course

variable {first second : Course} {n : Nat}

/-- The course up to so many questions: when there are more, it ends there, with nothing found. -/
def cut (course : Course) (n : Nat) : Course :=
  if n < course.asked.length then ⟨course.asked.take n, none⟩ else course

theorem cut_of_lt (more : n < first.asked.length) : first.cut n = ⟨first.asked.take n, none⟩ :=
  if_pos more

theorem cut_of_le (enough : first.asked.length ≤ n) : first.cut n = first :=
  if_neg (Nat.not_lt.mpr enough)

theorem cut_zero (some_asked : 0 < first.asked.length) : first.cut 0 = abandoned :=
  cut_of_lt some_asked

@[simp] theorem cut_done (e : Evaluation) (n : Nat) : (done e).cut n = done e :=
  cut_of_le (Nat.zero_le n)

@[simp] theorem cut_map (f : Evaluation → Evaluation) (course : Course) (n : Nat) :
    (course.map f).cut n = (course.cut n).map f := by
  by_cases more : n < course.asked.length
  · have moreMapped : n < (course.map f).asked.length := more
    rw [cut_of_lt more, cut_of_lt moreMapped]
    rfl
  · have enough : (course.map f).asked.length ≤ n := Nat.not_lt.mp more
    rw [cut_of_le enough, cut_of_le (Nat.not_lt.mp more)]

/-- Only a course that is not cut short finds something. -/
theorem length_le_of_found_cut {e : Evaluation} (found : (first.cut n).found = some e) :
    first.asked.length ≤ n := by
  refine Nat.le_of_not_lt fun more => ?_
  rw [cut_of_lt more] at found
  cases found

theorem andThen_congr {next other : Evaluation → Course}
    (same : ∀ e, first.found = some e → next e = other e) :
    first.andThen next = first.andThen other := by
  cases found : first.found with
  | none => rw [andThen_of_none found, andThen_of_none found]
  | some e => rw [andThen_of_some found, andThen_of_some found, same e found]

theorem length_le_andThen (first : Course) (next : Evaluation → Course) :
    first.asked.length ≤ (first.andThen next).asked.length := by
  cases found : first.found with
  | none => exact Nat.le_of_eq (by rw [andThen_of_none found])
  | some e =>
    rw [andThen_of_some found, List.length_append]
    exact Nat.le_add_right _ _

/-- Within the questions that come before, it does not matter which ones come after them. -/
theorem cut_mk_of_lt {before after : List Lookup} {found : Option Evaluation}
    (more : n < before.length) : cut ⟨before ++ after, found⟩ n = ⟨before.take n, none⟩ := by
  have longer : n < (before ++ after).length := by
    rw [List.length_append]
    omega
  have short := cut_of_lt (show n < (Course.mk (before ++ after) found).asked.length from longer)
  rwa [List.take_append_of_le_length (Nat.le_of_lt more)] at short

/-- After the questions that come before, the course that follows them is cut short. -/
theorem cut_mk_of_le (g : Option Evaluation → Option Evaluation) (nothing : g none = none)
    {before : List Lookup} (enough : before.length ≤ n) (later : Course) :
    cut ⟨before ++ later.asked, g later.found⟩ n =
      ⟨before ++ (later.cut (n - before.length)).asked, g (later.cut (n - before.length)).found⟩ := by
  by_cases more : n - before.length < later.asked.length
  · have longer : n < (before ++ later.asked).length := by
      rw [List.length_append]
      omega
    rw [cut_of_lt more, nothing, cut, if_pos longer, List.take_append, List.take_of_length_le enough]
  · have whole : ¬ n < (before ++ later.asked).length := by
      rw [List.length_append]
      omega
    rw [cut_of_le (Nat.not_lt.mp more), cut, if_neg whole]

theorem cut_andThen (first : Course) (next : Evaluation → Course) (n : Nat) :
    (first.andThen next).cut n =
      (first.cut n).andThen fun e => (next e).cut (n - first.asked.length) := by
  rcases Nat.lt_or_ge n first.asked.length with more | enough
  · rw [cut_of_lt more]
    cases found : first.found with
    | none => exact (congrArg (cut · n) (andThen_of_none found next)).trans (cut_of_lt more)
    | some e =>
      rw [andThen_of_some found, cut_mk_of_lt more]
      rfl
  · rw [cut_of_le enough]
    cases found : first.found with
    | none => rw [andThen_of_none found, andThen_of_none found, cut_of_le enough]
    | some e =>
      rw [andThen_of_some found, andThen_of_some found]
      exact cut_mk_of_le id rfl enough (next e)

/-- What AND and NOT do once they have items: nothing more when there are none. -/
def unlessEmpty (operation : ItemSet → ItemSet → ItemSet) (second : Course) (l : Evaluation) : Course :=
  if l.items.isEmpty then done l else second.map (l.combine operation)

@[simp] theorem cut_unlessEmpty (operation : ItemSet → ItemSet → ItemSet) (second : Course)
    (l : Evaluation) (n : Nat) :
    (unlessEmpty operation second l).cut n = unlessEmpty operation (second.cut n) l := by
  unfold unlessEmpty
  split
  · exact cut_done l n
  · exact cut_map _ second n

theorem cut_andThen_unlessEmpty {operation : ItemSet → ItemSet → ItemSet} {asked : Nat}
    {resumed : Nat → Course}
    (cutSecond : resumed (asked + first.asked.length) =
      second.cut (n - (asked + first.asked.length))) :
    ((first.cut (n - asked)).andThen
        (unlessEmpty operation (resumed (asked + (first.cut (n - asked)).asked.length)))) =
      (first.andThen (unlessEmpty operation second)).cut (n - asked) := by
  rw [cut_andThen]
  refine andThen_congr fun l found => ?_
  rw [cut_of_le (length_le_of_found_cut found), cutSecond, cut_unlessEmpty, Nat.sub_sub]

/-- Where the first course is cut short, the second one does not begin. -/
theorem cut_both (f : Evaluation → Evaluation → Evaluation) (some_asked : 0 < second.asked.length) :
    (first.both f second).cut n =
      (first.cut n).both f (second.cut (n - first.asked.length)) := by
  rcases Nat.lt_or_ge n first.asked.length with more | enough
  · rw [Nat.sub_eq_zero_of_le (Nat.le_of_lt more), cut_zero some_asked, cut_of_lt more]
    refine (cut_mk_of_lt more).trans ?_
    rw [both, asked_abandoned, List.append_nil]
    rfl
  · rw [cut_of_le enough]
    refine cut_mk_of_le (fun found => first.found.bind fun a => found.map fun b => f a b) ?_ enough second
    exact Option.bind_fun_none first.found

theorem found_andThen_of_isEmpty {operation : ItemSet → ItemSet → ItemSet} {l : Evaluation}
    (found : first.found = some l) (empty : l.items.isEmpty = true) :
    (first.andThen (unlessEmpty operation second)).found = some l := by
  rw [andThen_of_some found, unlessEmpty, if_pos empty]
  rfl

theorem found_andThen_combine {operation : ItemSet → ItemSet → ItemSet} {l r : Evaluation}
    (found : first.found = some l) (some_left : l.items.isEmpty = false)
    (foundSecond : second.found = some r) :
    (first.andThen (unlessEmpty operation second)).found = some (l.combine operation r) := by
  rw [andThen_of_some found, unlessEmpty, if_neg (Bool.eq_false_iff.mp some_left)]
  exact congrArg (Option.map _) foundSecond

end Course

theorem Patience.never_exhausted (asked : Nat) : ¬ exhausted none asked = true :=
  Bool.false_ne_true

theorem Patience.exhausted_some {n asked : Nat} : exhausted (some n) asked = true ↔ n ≤ asked :=
  decide_eq_true_iff

theorem Source.cut_ask (source : Source) {n asked : Nat} {lookup : Lookup}
    (running : ¬ Patience.exhausted (some n) asked = true) :
    (source.ask asked lookup).cut (n - asked) = source.ask asked lookup := by
  refine Course.cut_of_le ?_
  have one : (source.ask asked lookup).asked.length = 1 := rfl
  rw [Patience.exhausted_some] at running
  omega

namespace Query

variable {source : Source} {asked : Nat}

/-- No node asks anything once patience is exhausted. -/
theorem course_of_exhausted {patience : Patience} (exhausted : patience.exhausted asked = true)
    (q : Query) : q.course source patience asked = .abandoned := by
  fun_cases course source patience q asked with
  | case1 | case3 | case5 | case7 | case9 | case11 | case13 => rfl
  | case2 | case4 | case6 | case8 | case10 | case12 | case14 => contradiction

/-- Every evaluation asks something. -/
theorem length_asked_pos (source : Source) (q : Query) (asked : Nat) :
    0 < (q.course source none asked).asked.length := by
  fun_induction course source none q asked with
  | case1 | case3 | case5 | case7 | case9 | case11 | case13 =>
    rename_i exhausted
    cases exhausted
  | case2 | case4 => exact Nat.one_pos
  | case6 _ _ _ _ first ihl _ | case8 _ _ _ _ _ first ihl _ =>
    exact Nat.lt_of_lt_of_le ihl (Course.length_le_andThen first _)
  | case10 _ _ _ _ _ ihl _ =>
    rw [Course.asked_both, List.length_append]
    exact Nat.add_pos_left ihl _
  | case12 =>
    exact Nat.lt_of_lt_of_le Nat.one_pos (Course.length_le_andThen (source.ask _ .all) _)
  | case14 _ _ _ ih => exact ih

/-- An evaluation that is abandoned at its first node is cut short at once. -/
theorem course_some_of_running {n : Nat} {q : Query}
    (running : ¬ Patience.exhausted (some n) asked = true →
      q.course source (some n) asked = (q.course source none asked).cut (n - asked)) :
    q.course source (some n) asked = (q.course source none asked).cut (n - asked) := by
  by_cases exhausted : Patience.exhausted (some n) asked = true
  · rw [course_of_exhausted exhausted, Nat.sub_eq_zero_of_le (Patience.exhausted_some.mp exhausted),
      Course.cut_zero (length_asked_pos source q asked)]
  · exact running exhausted

/-- An evaluation that is abandoned after so many questions is cut short there. -/
theorem course_some (source : Source) (n : Nat) (q : Query) (asked : Nat) :
    q.course source (some n) asked = (q.course source none asked).cut (n - asked) := by
  induction q, asked using course.induct source none with
  | case1 | case3 | case5 | case7 | case9 | case11 | case13 => contradiction
  | case2 name asked _ | case4 asked _ =>
    refine course_some_of_running fun running => ?_
    rw [course, if_neg running, course, if_neg (Patience.never_exhausted asked)]
    exact (source.cut_ask running).symm
  | case6 left excluded asked _ first ihl ihr =>
    refine course_some_of_running fun running => ?_
    rw [course, if_neg running, course, if_neg (Patience.never_exhausted asked), ihl]
    exact Course.cut_andThen_unlessEmpty ihr
  | case8 left right asked plain _ first ihl ihr =>
    refine course_some_of_running fun running => ?_
    rw [course, if_neg running, course, if_neg (Patience.never_exhausted asked), ihl]
    · exact Course.cut_andThen_unlessEmpty ihr
    · exact plain
    · exact plain
  | case10 left right asked _ first ihl ihr =>
    refine course_some_of_running fun running => ?_
    rw [course, if_neg running, course, if_neg (Patience.never_exhausted asked), ihl]
    refine Eq.trans ?_ (Course.cut_both _ (length_asked_pos source right _)).symm
    refine congrArg (Course.both _ (first.cut (n - asked))) ?_
    rcases Nat.lt_or_ge (n - asked) first.asked.length with short | whole
    · -- The right side begins nevertheless, and its first node is abandoned.
      have stopped : (first.cut (n - asked)).asked.length = n - asked := by
        rw [Course.cut_of_lt short, List.length_take, Nat.min_eq_left (Nat.le_of_lt short)]
      rw [Nat.sub_eq_zero_of_le (Nat.le_of_lt short), Course.cut_zero (length_asked_pos source right _)]
      refine course_of_exhausted (Patience.exhausted_some.mpr ?_) right
      show n ≤ asked + (first.cut (n - asked)).asked.length
      omega
    · rw [Nat.sub_sub, ← ihr, Course.cut_of_le whole]
  | case12 inner asked _ ih =>
    refine course_some_of_running fun running => ?_
    rw [course, if_neg running, course, if_neg (Patience.never_exhausted asked), ih, Course.cut_andThen,
      source.cut_ask running]
    refine Course.andThen_congr fun u _ => ?_
    exact (Course.cut_unlessEmpty _ _ u _).symm
  | case14 inner asked _ ih =>
    refine course_some_of_running fun running => ?_
    rw [course, if_neg running, course, if_neg (Patience.never_exhausted asked), ih]

theorem evaluate_some (source : Source) (n : Nat) (scope : Scope) (q : Query) :
    q.evaluate source (some n) scope = (q.evaluate source none scope).cut n := by
  unfold evaluate
  split
  · exact (Course.cut_done {} n).symm
  · exact course_some source n q 0

variable {left right inner : Query}

theorem course_tag (source : Source) (name : Text) (asked : Nat) :
    (Query.tag name).course source none asked = source.ask asked (.tag name) := by
  rw [course, if_neg (Patience.never_exhausted asked)]

theorem course_all (source : Source) (asked : Nat) :
    Query.all.course source none asked = source.ask asked .all := by
  rw [course, if_neg (Patience.never_exhausted asked)]

theorem course_or (source : Source) (left right : Query) (asked : Nat) :
    (Query.or left right).course source none asked =
      (left.course source none asked).both (Evaluation.combine (· ∪ ·))
        (right.course source none (asked + (left.course source none asked).asked.length)) := by
  rw [course, if_neg (Patience.never_exhausted asked)]

theorem course_group (source : Source) (inner : Query) (asked : Nat) :
    (Query.group inner).course source none asked = inner.course source none asked := by
  rw [course, if_neg (Patience.never_exhausted asked)]

theorem course_andNot (source : Source) (left excluded : Query) (asked : Nat) :
    (Query.and left (.not excluded)).course source none asked =
      (left.course source none asked).andThen (.unlessEmpty (· \ ·)
        (excluded.course source none (asked + (left.course source none asked).asked.length))) := by
  rw [course, if_neg (Patience.never_exhausted asked)]
  rfl

theorem course_and (plain : right.isNegation = false) (source : Source) (left : Query)
    (asked : Nat) :
    (Query.and left right).course source none asked =
      (left.course source none asked).andThen (.unlessEmpty (· ∩ ·)
        (right.course source none (asked + (left.course source none asked).asked.length))) := by
  rw [course, if_neg (Patience.never_exhausted asked)]
  · rfl
  · rintro excluded rfl
    cases plain

/-- Whatever stands on the right of AND, it is asked only when something is left. -/
theorem exists_course_and (source : Source) (left right : Query) (asked : Nat) :
    ∃ operation second, (Query.and left right).course source none asked =
      (left.course source none asked).andThen (.unlessEmpty operation second) := by
  cases negation : right.isNegation with
  | false => exact ⟨_, _, course_and negation source left asked⟩
  | true =>
    cases right with
    | not excluded => exact ⟨_, _, course_andNot source left excluded asked⟩
    | _ => cases negation

theorem course_not (source : Source) (inner : Query) (asked : Nat) :
    (Query.not inner).course source none asked =
      (source.ask asked .all).andThen
        (.unlessEmpty (· \ ·) (inner.course source none (asked + 1))) := by
  rw [course, if_neg (Patience.never_exhausted asked)]
  rfl

/-- A store that has one answer for each question admits one finding. -/
theorem Runs.found_course {answer : Lookup → Except Fault ItemSet} {q : Query} {calls : List Call}
    {found : Option Evaluation} (h : Runs (fun lookup given => given = answer lookup) q calls found) :
    ∀ e ∈ found, ∀ asked, (q.course (fun _ => answer) none asked).found = some e := by
  induction h with
  | abandoned | andAbandoned => intro e he; cases he
  | tag given =>
    rintro e ⟨⟩ asked
    rw [course_tag, given]
    rfl
  | all given =>
    rintro e ⟨⟩ asked
    rw [course_all, given]
    rfl
  | @andEmpty left right calls l _ empty ih =>
    rintro e ⟨⟩ asked
    have foundLeft := ih l rfl asked
    obtain ⟨operation, second, same⟩ := exists_course_and (fun _ => answer) left right asked
    rw [same]
    exact Course.found_andThen_of_isEmpty foundLeft empty
  | andNot _ some_left _ ihl ihr =>
    intro e he asked
    obtain ⟨r, rfl, rfl⟩ := Option.map_eq_some_iff.mp he
    rw [course_andNot]
    exact Course.found_andThen_combine (ihl _ rfl asked) some_left (ihr r rfl _)
  | and plain _ some_left _ ihl ihr =>
    intro e he asked
    obtain ⟨r, rfl, rfl⟩ := Option.map_eq_some_iff.mp he
    rw [course_and plain]
    exact Course.found_andThen_combine (ihl _ rfl asked) some_left (ihr r rfl _)
  | or _ _ _ ihl ihr =>
    intro e he asked
    obtain ⟨l, rfl, hr⟩ := Option.bind_eq_some_iff.mp he
    obtain ⟨r, rfl, rfl⟩ := Option.map_eq_some_iff.mp hr
    rw [course_or, Course.found_both, ihl l rfl, ihr r rfl]
    rfl
  | notEmpty given empty =>
    rintro e ⟨⟩ asked
    rw [course_not]
    refine Course.found_andThen_of_isEmpty ?_ empty
    rw [given]
    rfl
  | not given some_left _ ih =>
    intro e he asked
    obtain ⟨r, rfl, rfl⟩ := Option.map_eq_some_iff.mp he
    rw [course_not]
    refine Course.found_andThen_combine ?_ some_left (ih r rfl _)
    rw [given]
    rfl
  | group _ ih =>
    intro e he asked
    rw [course_group]
    exact ih e he asked

theorem Evaluates.found_evaluate {answer : Lookup → Except Fault ItemSet} {scope : Scope} {q : Query}
    {calls : List Call} {e : Evaluation}
    (h : q.Evaluates (fun lookup given => given = answer lookup) scope calls (some e)) :
    (q.evaluate (fun _ => answer) none scope).found = some e := by
  cases h with
  | unselected empty => rw [evaluate, if_pos empty]; rfl
  | run selected run =>
    rw [evaluate, if_neg (Bool.eq_false_iff.mp selected)]
    exact run.found_course e rfl 0

end Query

/-- An abandoned evaluation finds nothing, or what it would have found. With one side of OR after the
other it has asked just the first questions of the whole evaluation when there are more of them than it
has patience for, and otherwise it is the whole evaluation. With both sides at the same time, for a store
with one answer to each question, it finds nothing or the same, whenever it is abandoned. -/
theorem cancellation_all_or_nothing (scope : Scope) (q : Query) :
    (∀ source : Source, ∃ e, (q.evaluate source none scope).found = some e ∧
      ∀ n, let asked := (q.evaluate source none scope).asked
        (n < asked.length → q.evaluate source (some n) scope = ⟨asked.take n, none⟩) ∧
        (asked.length ≤ n → q.evaluate source (some n) scope = ⟨asked, some e⟩)) ∧
    ∀ answer : Lookup → Except Fault ItemSet, ∃ e,
      (q.evaluate (fun _ => answer) none scope).found = some e ∧
        ∀ calls found, q.Evaluates (fun lookup given => given = answer lookup) scope calls found →
          found = none ∨ found = some e := by
  refine ⟨fun source => ?_, fun answer => ?_⟩
  · obtain ⟨e, found⟩ := Query.exists_found_evaluate source scope q
    refine ⟨e, found, fun n => ⟨fun more => ?_, fun enough => ?_⟩⟩
    · rw [Query.evaluate_some, Course.cut_of_lt more]
    · rw [Query.evaluate_some, Course.cut_of_le enough, ← found]
  · obtain ⟨e, whole⟩ := Query.exists_found_evaluate (fun _ => answer) scope q
    refine ⟨e, whole, fun calls found run => ?_⟩
    cases found with
    | none => exact .inl rfl
    | some e' => exact .inr (run.found_evaluate.symm.trans whole)

/-- `cat OR NOT dog` asks three questions. After two of them it is abandoned, and with patience for three it
is not; with both sides at the same time it finds the same in another order. -/
theorem cancellation_all_or_nothing_of_cats :
    let scope := Scope.ofDirectories true ["/a".toList]
    let truth := Truth.ofPairs [("1".toList, "cat".toList), ("2".toList, "dog".toList)]
    let answer : Lookup → Except Fault ItemSet := fun lookup => .ok (truth.answer lookup)
    let q : Query := .or (.tag "cat".toList) (.not (.tag "dog".toList))
    q.evaluate (fun _ => answer) (some 2) scope = ⟨[.tag "cat".toList, .all], none⟩ ∧
      q.evaluate (fun _ => answer) (some 3) scope = q.evaluate (fun _ => answer) none scope ∧
      ∃ found, q.Evaluates (fun lookup given => given = answer lookup) scope
          ([.all, .tag "cat".toList, .tag "dog".toList].map fun lookup => ⟨lookup, answer lookup⟩)
          found ∧
        found = (q.evaluate (fun _ => answer) none scope).found := by
  intro scope truth answer q
  obtain ⟨alone, together⟩ := cancellation_all_or_nothing scope q
  obtain ⟨e, found, cut⟩ := alone fun _ => answer
  have asked : (q.evaluate (fun _ => answer) none scope).asked =
      [.tag "cat".toList, .all, .tag "dog".toList] := by decide +kernel
  refine ⟨?_, ?_, ?_⟩
  · have short := (cut 2).1 (by rw [asked]; decide)
    rwa [asked] at short
  · rw [(cut 3).2 (by rw [asked]; decide), ← found]
  · obtain ⟨e', found', same⟩ := together answer
    have order : Interleaved [Call.mk (.tag "cat".toList) (answer (.tag "cat".toList))]
        [⟨.all, answer .all⟩, ⟨.tag "dog".toList, answer (.tag "dog".toList)⟩] _ :=
      .right _ (.left _ (.right _ .nil))
    have run : q.Evaluates (fun lookup given => given = answer lookup) scope _ _ :=
      .run (by decide +kernel) (.or (.tag rfl) (.not rfl (by decide +kernel) (.tag rfl)) order)
    refine ⟨_, run, ?_⟩
    rw [found']
    exact (same _ _ run).resolve_left (by simp)

end TagQuery
