import TagQuery.Proofs.Evaluation.Cancellation

/-! The calls that an evaluation makes, as its finding reports them. With one side of OR after the other
the failures are listed in the order of the calls; with both sides at the same time the calls come in any
order, but the finding is put together left before right. Main statement: every call is counted and every
failed one reported, and a store with one answer to each question cannot tell the two ways apart but by the
order in which it is called. -/
namespace TagQuery

/-- The finding counts all calls, and reports those that failed, in order. -/
structure Evaluation.Reports (e : Evaluation) (calls : List Call) : Prop where
  lookups : e.lookups = calls.length
  failures : e.failures = calls.filterMap Call.failure?

namespace Evaluation.Reports

variable {l r : Evaluation} {before after : List Call}

theorem ofAnswer (call : Call) : (ofAnswer call.lookup call.answer).Reports [call] := by
  refine ⟨?_, failures_ofAnswer call⟩
  obtain ⟨lookup, answer⟩ := call
  cases answer <;> rfl

theorem combine (operation : ItemSet → ItemSet → ItemSet) (first : l.Reports before)
    (second : r.Reports after) : (l.combine operation r).Reports (before ++ after) where
  lookups := by rw [Evaluation.combine, first.lookups, second.lookups, List.length_append]
  failures := by rw [Evaluation.combine, first.failures, second.failures, List.filterMap_append]

end Evaluation.Reports

namespace Course

variable {source : Source} {asked : Nat} {first second : Course}

def Reports (source : Source) (asked : Nat) (course : Course) : Prop :=
  ∀ e ∈ course.found, e.Reports (source.calls asked course.asked)

theorem reports_ask (source : Source) (asked : Nat) (lookup : Lookup) :
    (source.ask asked lookup).Reports source asked := by
  rintro e ⟨⟩
  exact .ofAnswer ⟨lookup, source asked lookup⟩

theorem Reports.andThen {operation : ItemSet → ItemSet → ItemSet} (left : first.Reports source asked)
    (right : second.Reports source (asked + first.asked.length)) :
    (first.andThen (unlessEmpty operation second)).Reports source asked := by
  cases found : first.found with
  | none =>
    rw [andThen_of_none found]
    exact left
  | some l =>
    rw [andThen_of_some found, unlessEmpty]
    split
    · rintro e ⟨⟩
      simpa using left l found
    · intro e he
      obtain ⟨r, foundSecond, rfl⟩ := Option.map_eq_some_iff.mp he
      rw [asked_map, Source.calls_append]
      exact (left l found).combine operation (right r foundSecond)

theorem Reports.both {operation : ItemSet → ItemSet → ItemSet} (left : first.Reports source asked)
    (right : second.Reports source (asked + first.asked.length)) :
    (first.both (Evaluation.combine operation) second).Reports source asked := by
  intro e he
  obtain ⟨l, found, he⟩ := Option.bind_eq_some_iff.mp he
  obtain ⟨r, foundSecond, rfl⟩ := Option.map_eq_some_iff.mp he
  rw [asked_both, Source.calls_append]
  exact (left l found).combine operation (right r foundSecond)

theorem asked_andThen_of_isEmpty {operation : ItemSet → ItemSet → ItemSet} {l : Evaluation}
    (found : first.found = some l) (empty : l.items.isEmpty = true) :
    (first.andThen (unlessEmpty operation second)).asked = first.asked := by
  rw [andThen_of_some found, unlessEmpty, if_pos empty, asked_done, List.append_nil]

theorem asked_andThen_combine {operation : ItemSet → ItemSet → ItemSet} {l : Evaluation}
    (found : first.found = some l) (some_left : l.items.isEmpty = false) :
    (first.andThen (unlessEmpty operation second)).asked = first.asked ++ second.asked := by
  rw [andThen_of_some found, unlessEmpty, if_neg (Bool.eq_false_iff.mp some_left), asked_map]

end Course

namespace Query

def leaves : Query → Nat
  | tag _ => 1
  | all => 1
  | and left right => left.leaves + right.leaves
  | or left right => left.leaves + right.leaves
  | not inner => inner.leaves
  | group inner => inner.leaves

/-- The number of NOTs that are not the right operand of an AND: those that ask for all items. -/
def askingNots : Query → Nat
  | tag _ => 0
  | all => 0
  | and left (not excluded) => left.askingNots + excluded.askingNots
  | and left right => left.askingNots + right.askingNots
  | or left right => left.askingNots + right.askingNots
  | not inner => 1 + inner.askingNots
  | group inner => inner.askingNots

theorem askingNots_and {right : Query} (plain : right.isNegation = false) (left : Query) :
    (and left right).askingNots = left.askingNots + right.askingNots := by
  cases right with
  | not excluded => cases plain
  | _ => rfl

theorem askingNots_left_le (left right : Query) : left.askingNots ≤ (and left right).askingNots := by
  cases right with
  | _ => exact Nat.le_add_right _ _

variable {answers : Lookup → Except Fault ItemSet → Prop} {q : Query} {calls : List Call}
  {found : Option Evaluation}

/-- There is a call for each leaf and each NOT that asks for all items, at the most. -/
theorem Runs.length_calls_le (h : Runs answers q calls found) :
    calls.length ≤ q.leaves + q.askingNots := by
  induction h with
  | abandoned q => exact Nat.zero_le _
  | tag _ | all _ => exact Nat.le_refl _
  | @andAbandoned left right _ _ ih | @andEmpty left right _ _ _ _ ih =>
    have more := askingNots_left_le left right
    simp only [leaves]
    omega
  | andNot _ _ _ ihl ihr =>
    simp only [leaves, askingNots, List.length_append]
    omega
  | and plain _ _ _ ihl ihr =>
    rw [leaves, askingNots_and plain, List.length_append]
    omega
  | or _ _ order ihl ihr =>
    rw [leaves, askingNots, order.perm.length_eq, List.length_append]
    omega
  | notEmpty _ _ =>
    simp only [leaves, askingNots, List.length_singleton]
    omega
  | not _ _ _ ih =>
    simp only [leaves, askingNots, List.length_cons]
    omega
  | group _ ih => exact ih

/-- A finding counts the calls that led to it. -/
theorem Runs.lookups_eq (h : Runs answers q calls found) : ∀ e ∈ found, e.lookups = calls.length := by
  induction h with
  | abandoned | andAbandoned => intro e he; cases he
  | @tag name answer =>
    rintro e ⟨⟩
    exact (Evaluation.Reports.ofAnswer ⟨.tag name, answer⟩).lookups
  | @all answer | @notEmpty _ answer =>
    rintro e ⟨⟩
    exact (Evaluation.Reports.ofAnswer ⟨.all, answer⟩).lookups
  | andEmpty _ _ ih => exact ih
  | andNot _ _ _ ihl ihr | and _ _ _ _ ihl ihr =>
    intro e he
    obtain ⟨r, rfl, rfl⟩ := Option.map_eq_some_iff.mp he
    rw [Evaluation.combine, ihl _ rfl, ihr r rfl, List.length_append]
  | or _ _ order ihl ihr =>
    intro e he
    obtain ⟨l, rfl, hr⟩ := Option.bind_eq_some_iff.mp he
    obtain ⟨r, rfl, rfl⟩ := Option.map_eq_some_iff.mp hr
    rw [Evaluation.combine, ihl l rfl, ihr r rfl, order.perm.length_eq, List.length_append]
  | @not _ answer _ _ _ _ _ ih =>
    intro e he
    obtain ⟨r, rfl, rfl⟩ := Option.map_eq_some_iff.mp he
    have asked := (Evaluation.Reports.ofAnswer ⟨.all, answer⟩).lookups
    rw [Evaluation.combine, asked, ih r rfl]
    exact Nat.add_comm _ _
  | group _ ih => exact ih

/-- With one side of OR after the other a finding reports its calls in order. -/
theorem reports_course (source : Source) (q : Query) (asked : Nat) :
    (q.course source none asked).Reports source asked := by
  induction q, asked using course.induct source none with
  | case1 | case3 | case5 | case7 | case9 | case11 | case13 => contradiction
  | case2 | case4 => exact Course.reports_ask source _ _
  | case6 left excluded asked _ first ihl ihr =>
    rw [course_andNot]
    exact ihl.andThen ihr
  | case8 left right asked noNegation _ first ihl ihr =>
    rw [course_and (isNegation_eq_false noNegation)]
    exact ihl.andThen ihr
  | case10 left right asked _ first ihl ihr =>
    rw [course_or]
    exact ihl.both ihr
  | case12 inner asked _ ih =>
    rw [course_not]
    exact (Course.reports_ask source asked .all).andThen ih
  | case14 inner asked _ ih =>
    rw [course_group]
    exact ih

/-- A store with one answer to each question is asked the same, if only up to the order. -/
theorem Runs.lookups_perm {answer : Lookup → Except Fault ItemSet}
    (h : Runs (fun lookup given => given = answer lookup) q calls found) :
    ∀ e ∈ found, ∀ asked,
      (calls.map Call.lookup).Perm (q.course (fun _ => answer) none asked).asked := by
  -- What the left side of AND comes to decides in both evaluations whether the right side is asked.
  induction h with
  | abandoned | andAbandoned => intro e he; cases he
  | tag _ =>
    intro e he asked
    rw [course_tag]
    exact .refl _
  | all _ =>
    intro e he asked
    rw [course_all]
    exact .refl _
  | @andEmpty left right _ _ first empty ih =>
    intro e he asked
    have foundLeft := first.found_course _ rfl asked
    obtain ⟨operation, second, same⟩ := exists_course_and (fun _ => answer) left right asked
    rw [same, Course.asked_andThen_of_isEmpty foundLeft empty]
    exact ih _ rfl asked
  | andNot first some_left _ ihl ihr =>
    intro e he asked
    obtain ⟨r, rfl, rfl⟩ := Option.map_eq_some_iff.mp he
    rw [course_andNot, Course.asked_andThen_combine (first.found_course _ rfl asked) some_left,
      List.map_append]
    exact (ihl _ rfl asked).append (ihr r rfl _)
  | and plain first some_left _ ihl ihr =>
    intro e he asked
    obtain ⟨r, rfl, rfl⟩ := Option.map_eq_some_iff.mp he
    rw [course_and plain, Course.asked_andThen_combine (first.found_course _ rfl asked) some_left,
      List.map_append]
    exact (ihl _ rfl asked).append (ihr r rfl _)
  | or _ _ order ihl ihr =>
    intro e he asked
    obtain ⟨l, rfl, hr⟩ := Option.bind_eq_some_iff.mp he
    obtain ⟨r, rfl, rfl⟩ := Option.map_eq_some_iff.mp hr
    rw [course_or, Course.asked_both]
    have together := order.perm.map Call.lookup
    rw [List.map_append] at together
    exact together.trans ((ihl l rfl asked).append (ihr r rfl _))
  | @notEmpty inner answer' given empty =>
    intro e he asked
    have answered : (Source.ask (fun _ => answer) asked .all).found =
        some (Evaluation.ofAnswer .all answer') := by rw [given]; rfl
    rw [course_not, Course.asked_andThen_of_isEmpty answered empty]
    exact .refl _
  | @not inner answer' _ _ given some_left _ ih =>
    intro e he asked
    obtain ⟨r, rfl, rfl⟩ := Option.map_eq_some_iff.mp he
    have answered : (Source.ask (fun _ => answer) asked .all).found =
        some (Evaluation.ofAnswer .all answer') := by rw [given]; rfl
    rw [course_not, Course.asked_andThen_combine answered some_left]
    exact (ih r rfl _).cons .all
  | group _ ih =>
    intro e he asked
    rw [course_group]
    exact ih e he asked

end Query

/-- A store with one answer to each question gives it whenever it is asked. -/
theorem Source.calls_const (answer : Lookup → Except Fault ItemSet) (asked : Nat)
    (lookups : List Lookup) : Source.calls (fun _ => answer) asked lookups =
      lookups.map fun lookup => ⟨lookup, answer lookup⟩ := by
  induction lookups generalizing asked with
  | nil => rfl
  | cons lookup rest ih => rw [Source.calls_cons, ih, List.map_cons]

namespace Query.Evaluates

variable {answers : Lookup → Except Fault ItemSet → Prop} {scope : Scope} {q : Query}
  {calls : List Call} {e : Evaluation}

/-- A finding counts the calls, reports those that failed, and there are not too many of them. -/
theorem accounts (h : q.Evaluates answers scope calls (some e)) :
    e.lookups = calls.length ∧ e.failures.Perm (calls.filterMap Call.failure?) ∧
      e.lookups ≤ q.leaves + q.askingNots := by
  cases h with
  | unselected _ => exact ⟨rfl, .refl _, Nat.zero_le _⟩
  | run _ run =>
    have counted := run.lookups_eq e rfl
    exact ⟨counted, run.failures_perm e rfl, counted ▸ run.length_calls_le⟩

/-- With both sides of OR at the same time the calls are those of the other way, in some order. -/
theorem calls_perm {answer : Lookup → Except Fault ItemSet}
    (h : q.Evaluates (fun lookup given => given = answer lookup) scope calls (some e)) :
    calls.Perm (Source.calls (fun _ => answer) 0 (q.evaluate (fun _ => answer) none scope).asked) := by
  cases h with
  | unselected empty =>
    rw [evaluate, if_pos empty]
    exact .refl _
  | run selected run =>
    rw [evaluate, if_neg (Bool.eq_false_iff.mp selected), Source.calls_const]
    have own : calls = (calls.map Call.lookup).map fun lookup => ⟨lookup, answer lookup⟩ := by
      rw [List.map_map]
      refine (List.map_id calls).symm.trans (List.map_congr_left fun call member => ?_)
      have given : call.answer = answer call.lookup := run.given call member
      rw [Function.comp, ← given]
      rfl
    rw [own]
    exact (run.lookups_perm e rfl 0).map _

end Query.Evaluates

theorem Query.reports_evaluate (source : Source) (scope : Scope) (q : Query) :
    (q.evaluate source none scope).Reports source 0 := by
  unfold evaluate
  split
  · rintro e ⟨⟩
    exact ⟨rfl, rfl⟩
  · exact reports_course source q 0

/-- Every call is accounted for. With one side of OR after the other an evaluation comes to a finding that
counts the calls and reports those that failed, in order, and there are no more of them than leaves and NOTs
that are not the right operand of an AND. With both sides at the same time this is so up to the order of
the failures; and for a store with one answer to each question the finding is the same, order and all, and
so are the calls, up to their order. -/
theorem diagnostics_account_for_calls (scope : Scope) (q : Query) :
    (∀ source : Source, ∃ e, (q.evaluate source none scope).found = some e ∧
      e.Reports (source.calls 0 (q.evaluate source none scope).asked) ∧
      e.lookups ≤ q.leaves + q.askingNots) ∧
    (∀ answers calls e, q.Evaluates answers scope calls (some e) →
      e.lookups = calls.length ∧ e.failures.Perm (calls.filterMap Call.failure?) ∧
      e.lookups ≤ q.leaves + q.askingNots) ∧
    ∀ answer : Lookup → Except Fault ItemSet, ∃ e,
      (q.evaluate (fun _ => answer) none scope).found = some e ∧
        ∀ calls e', q.Evaluates (fun lookup given => given = answer lookup) scope calls (some e') →
          e' = e ∧ calls.Perm
            (Source.calls (fun _ => answer) 0 (q.evaluate (fun _ => answer) none scope).asked) := by
  refine ⟨fun source => ?_, fun answers calls e run => ?_, fun answer => ?_⟩
  · let answers : Lookup → Except Fault ItemSet → Prop :=
      fun lookup given => ∃ asked, given = source asked lookup
    have given : ∀ asked lookup, answers lookup (source asked lookup) := fun asked _ => ⟨asked, rfl⟩
    obtain ⟨e, found, run⟩ := Query.exists_evaluates source given scope q
    exact ⟨e, found, Query.reports_evaluate source scope q e found, run.accounts.2.2⟩
  · exact run.accounts
  · obtain ⟨e, found⟩ := Query.exists_found_evaluate (fun _ => answer) scope q
    refine ⟨e, found, fun calls e' run => ⟨?_, run.calls_perm⟩⟩
    exact Option.some.inj (run.found_evaluate.symm.trans found)

/-- `cat AND NOT dog OR NOT bird` asks four questions, two of which fail here. With both sides of OR at the
same time the bird may fail before the dog does, and is still reported after it. -/
theorem diagnostics_account_for_calls_of_dog :
    let scope := Scope.ofDirectories true ["/a".toList]
    let truth := Truth.ofPairs [("1".toList, "cat".toList), ("2".toList, "dog".toList)]
    let answer : Lookup → Except Fault ItemSet := fun lookup =>
      if lookup = .tag "dog".toList ∨ lookup = .tag "bird".toList then .error (.storage "locked".toList)
      else .ok (truth.answer lookup)
    let q : Query := .or (.and (.tag "cat".toList) (.not (.tag "dog".toList))) (.not (.tag "bird".toList))
    q.leaves + q.askingNots = 4 ∧ ∃ e, (q.evaluate (fun _ => answer) none scope).found = some e ∧
      e.lookups = 4 ∧ e.failures.map (·.lookup) = [.tag "dog".toList, .tag "bird".toList] ∧
      ∃ calls, q.Evaluates (fun lookup given => given = answer lookup) scope calls (some e) ∧
        calls.map Call.lookup = [.all, .tag "bird".toList, .tag "cat".toList, .tag "dog".toList] := by
  intro scope truth answer q
  obtain ⟨alone, -, together⟩ := diagnostics_account_for_calls scope q
  obtain ⟨e, found, reports, -⟩ := alone fun _ => answer
  have asked : (q.evaluate (fun _ => answer) none scope).asked =
      [.tag "cat".toList, .tag "dog".toList, .all, .tag "bird".toList] := by decide +kernel
  rw [asked] at reports
  obtain ⟨e', found', same⟩ := together answer
  obtain rfl := Option.some.inj (found.symm.trans found')
  let call : Lookup → Call := fun lookup => ⟨lookup, answer lookup⟩
  have order : Interleaved [call (.tag "cat".toList), call (.tag "dog".toList)]
      [call .all, call (.tag "bird".toList)] _ :=
    .right _ (.right _ (.left _ (.left _ .nil)))
  have run : q.Evaluates (fun lookup given => given = answer lookup) scope _ (some _) :=
    .run (by decide +kernel) (.or (.andNot (.tag rfl) (by decide +kernel) (.tag rfl))
      (.not rfl (by decide +kernel) (.tag rfl)) order)
  obtain ⟨rfl, -⟩ := same _ _ run
  refine ⟨rfl, _, found, reports.lookups, ?_, _, run, rfl⟩
  rw [reports.failures]
  decide +kernel

end TagQuery
