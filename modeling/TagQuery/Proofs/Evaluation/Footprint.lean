import TagQuery.Proofs.Evaluation.Diagnostics

/-! What an evaluation depends on. A store is asked for all items and for tags of the query, and the rest of
the evaluation is a matter of the items that it gives. Main statement: the tags of a query are the tags at
its leaves, once each, in their first spelling and in first-seen order; and two stores that give the same
for all items and for these tags are asked the same, and the same is found in them, whatever they hold
otherwise. -/
namespace TagQuery

namespace Tag

theorem same_iff {a b : Text} : same a b = true ↔ fold a = fold b := beq_iff_eq

theorem same_congr {a b : Text} (h : fold a = fold b) : same a = same b := by
  funext c
  rw [same, same, h]

theorem same_comm (a b : Text) : same a b = same b a := BEq.comm

theorem same_self (name : Text) : same name name = true := same_iff.mpr rfl

theorem filter_map_fold (name : Text) (names : List Text) :
    (names.map fun other => (fold other, other)).filter (fun q => q.1 != fold name) =
      (names.filter fun other => !same name other).map fun other => (fold other, other) := by
  rw [List.filter_map]
  refine congrArg _ (List.filter_congr fun other _ => ?_)
  rw [same_comm]
  rfl

theorem map_snd_map_fold (names : List Text) :
    (names.map fun name => (fold name, name)).map Prod.snd = names := by
  rw [List.map_map]
  exact List.map_id names

/-- The pairs that are kept are still those of a folded name and its spelling. -/
theorem firstOfEach_map_fold (names : List Text) :
    firstOfEach (names.map fun name => (fold name, name)) =
      (distinct names).map fun name => (fold name, name) := by
  induction names with
  | nil => rfl
  | cons name rest ih =>
    rw [distinct, List.map_cons, firstOfEach_cons, ih, filter_map_fold, List.map_cons, map_snd_map_fold]
    rfl

/-- After the first name the other spellings of its tag are left out. -/
theorem distinct_cons (name : Text) (rest : List Text) :
    distinct (name :: rest) = name :: (distinct rest).filter fun other => !same name other := by
  rw [distinct, List.map_cons, firstOfEach_cons, firstOfEach_map_fold, filter_map_fold, List.map_cons,
    map_snd_map_fold]

/-- The list has one name for each tag among the names, in its first spelling, and in the order in which
the tags are first seen. -/
structure ListsFirst (names listed : List Text) : Prop where
  once : (listed.map fold).Nodup
  covers : ∀ folded, folded ∈ listed.map fold ↔ folded ∈ names.map fold
  spelling : ∀ name ∈ listed, names.find? (same name) = some name
  ordered : listed.Pairwise fun a b => names.findIdx (same a) < names.findIdx (same b)

theorem mem_distinct_iff {name : Text} {names : List Text} :
    name ∈ distinct names ↔ names.find? (same name) = some name := by
  induction names with
  | nil => simp
  | cons first rest ih =>
    rw [distinct_cons, List.mem_cons, List.mem_filter, ih, List.find?_cons, same_comm first]
    cases alike : same name first with
    | true => simp [eq_comm]
    | false =>
      have differ : name ≠ first := by
        rintro rfl
        rw [same_self] at alike
        cases alike
      simp [differ]

theorem pairwise_distinct (names : List Text) :
    (distinct names).Pairwise fun a b => names.findIdx (same a) < names.findIdx (same b) := by
  induction names with
  | nil => exact .nil
  | cons first rest ih =>
    have later : ∀ name ∈ (distinct rest).filter fun other => !same first other,
        (first :: rest).findIdx (same name) = rest.findIdx (same name) + 1 := by
      intro name member
      have other := (List.mem_filter.mp member).2
      rw [Bool.not_eq_true', same_comm] at other
      rw [List.findIdx_cons, other]
      rfl
    rw [distinct_cons]
    refine .cons (fun name member => ?_) ?_
    · rw [later name member, List.findIdx_cons, same_self]
      exact Nat.succ_pos _
    · refine (ih.filter _).imp_of_mem fun {a b} inA inB before => ?_
      rw [later a inA, later b inB]
      exact Nat.succ_lt_succ before

theorem listsFirst_distinct (names : List Text) : ListsFirst names (distinct names) where
  once := by
    rw [List.Nodup, List.pairwise_map]
    refine (pairwise_distinct names).imp fun {a b} before alike => ?_
    rw [same_congr alike] at before
    exact Nat.lt_irrefl _ before
  covers folded := by
    refine ⟨fun listed => ?_, fun named => ?_⟩
    · obtain ⟨name, member, rfl⟩ := List.mem_map.mp listed
      exact List.mem_map_of_mem (List.mem_of_find?_eq_some (mem_distinct_iff.mp member))
    · obtain ⟨name, member, rfl⟩ := List.mem_map.mp named
      obtain ⟨first, found⟩ := Option.isSome_iff_exists.mp
        (List.find?_isSome.mpr ⟨name, member, same_self name⟩)
      have alike : fold name = fold first := same_iff.mp (List.find?_some found)
      rw [same_congr alike] at found
      rw [alike]
      exact List.mem_map_of_mem (mem_distinct_iff.mpr found)
  spelling name member := mem_distinct_iff.mp member
  ordered := pairwise_distinct names

end Tag

/-- The items that a source gives; a failure gives none. -/
def Source.items (source : Source) (asked : Nat) (lookup : Lookup) : ItemSet :=
  (Evaluation.ofAnswer lookup (source asked lookup)).items

def Source.FoldsTags (source : Source) : Prop :=
  ∀ a b, Tag.same a b = true → ∀ asked, source.items asked (.tag a) = source.items asked (.tag b)

/-- Two sources that give the same for all items and for some tags. -/
structure Source.AgreeOn (one other : Source) (names : List Text) : Prop where
  all : ∀ asked, one.items asked .all = other.items asked .all
  tag : ∀ name ∈ names, ∀ asked, one.items asked (.tag name) = other.items asked (.tag name)

namespace Source.AgreeOn

variable {one other : Source} {names more : List Text}

theorem mono (within : names ⊆ more) (h : one.AgreeOn other more) : one.AgreeOn other names :=
  ⟨h.all, fun name member => h.tag name (within member)⟩

theorem left (h : one.AgreeOn other (names ++ more)) : one.AgreeOn other names :=
  h.mono (List.subset_append_left names more)

theorem right (h : one.AgreeOn other (names ++ more)) : one.AgreeOn other more :=
  h.mono (List.subset_append_right names more)

/-- Sources that agree on one spelling of each tag agree on all spellings. -/
theorem of_listsFirst {listed : List Text} (folds : one.FoldsTags) (folds' : other.FoldsTags)
    (first : Tag.ListsFirst names listed) (h : one.AgreeOn other listed) : one.AgreeOn other names := by
  refine ⟨h.all, fun name member asked => ?_⟩
  have covered := (first.covers (Tag.fold name)).mpr (List.mem_map_of_mem member)
  obtain ⟨spelling, among, alike⟩ := List.mem_map.mp covered
  have same := Tag.same_iff.mpr alike
  calc one.items asked (.tag name)
    _ = one.items asked (.tag spelling) := (folds spelling name same asked).symm
    _ = other.items asked (.tag spelling) := h.tag spelling among asked
    _ = other.items asked (.tag name) := folds' spelling name same asked

end Source.AgreeOn

/-- Two courses that ask the same and find the same items. -/
structure Course.Alike (one other : Course) : Prop where
  asked : one.asked = other.asked
  items : one.items? = other.items?

namespace Course

variable {first first' second second' : Course} {operation : ItemSet → ItemSet → ItemSet}

theorem items?_map_combine (operation : ItemSet → ItemSet → ItemSet) (l : Evaluation)
    (second : Course) :
    (second.map (l.combine operation)).items? = second.items?.map (operation l.items) := by
  rw [items?, items?, found_map, Option.map_map, Option.map_map]
  rfl

theorem items?_both (operation : ItemSet → ItemSet → ItemSet) (first second : Course) :
    (first.both (Evaluation.combine operation) second).items? =
      first.items?.bind fun a => second.items?.map (operation a) := by
  rw [items?, items?, items?, found_both]
  cases first.found with
  | none => rfl
  | some l =>
    cases second.found with
    | none => rfl
    | some r => rfl

/-- Both courses find nothing, or both find something, and that with the same items. -/
theorem Alike.found (h : first.Alike first') :
    (first.found = none ∧ first'.found = none) ∨
      ∃ l l', first.found = some l ∧ first'.found = some l' ∧ l.items = l'.items := by
  have same := h.items
  unfold items? at same
  cases found : first.found with
  | none =>
    rw [found] at same
    exact .inl ⟨rfl, Option.map_eq_none_iff.mp same.symm⟩
  | some l =>
    rw [found] at same
    obtain ⟨l', found', same⟩ := Option.map_eq_some_iff.mp same.symm
    exact .inr ⟨l, l', rfl, found', same.symm⟩

/-- With the same items on the left the right side is asked in both courses or in neither. -/
theorem Alike.andThen (left : first.Alike first') (right : second.Alike second') :
    (first.andThen (unlessEmpty operation second)).Alike
      (first'.andThen (unlessEmpty operation second')) := by
  rcases left.found with ⟨found, found'⟩ | ⟨l, l', found, found', same⟩
  · rw [andThen_of_none found, andThen_of_none found']
    exact left
  · rw [andThen_of_some found, andThen_of_some found', unlessEmpty, unlessEmpty, ← same]
    split
    · exact ⟨congrArg (· ++ []) left.asked, congrArg some same⟩
    · refine ⟨by rw [asked_map, asked_map, left.asked, right.asked], ?_⟩
      refine (items?_map_combine operation l second).trans ?_
      rw [right.items, same]
      exact (items?_map_combine operation l' second').symm

theorem Alike.both (left : first.Alike first') (right : second.Alike second') :
    (first.both (Evaluation.combine operation) second).Alike
      (first'.both (Evaluation.combine operation) second') where
  asked := by rw [asked_both, asked_both, left.asked, right.asked]
  items := by rw [items?_both, items?_both, left.items, right.items]

theorem alike_ask {one other : Source} {asked : Nat} {lookup : Lookup}
    (same : one.items asked lookup = other.items asked lookup) :
    (one.ask asked lookup).Alike (other.ask asked lookup) :=
  ⟨rfl, congrArg some same⟩

end Course

namespace Query

/-- Sources that agree on the names at the leaves are asked the same, and the same is found in them. -/
theorem course_alike {one other : Source} (q : Query) (asked : Nat)
    (agree : one.AgreeOn other q.names) :
    (q.course one none asked).Alike (q.course other none asked) := by
  -- The left sides ask equally many questions, so the right sides begin after the same number of them.
  induction q, asked using course.induct one none with
  | case1 | case3 | case5 | case7 | case9 | case11 | case13 => contradiction
  | case2 name asked _ =>
    rw [course_tag, course_tag]
    exact Course.alike_ask (agree.tag name (List.mem_singleton_self name) asked)
  | case4 asked _ =>
    rw [course_all, course_all]
    exact Course.alike_ask (agree.all asked)
  | case6 left excluded asked _ first ihl ihr =>
    have alike := ihl agree.left
    rw [course_andNot, course_andNot, ← alike.asked]
    exact alike.andThen (ihr agree.right)
  | case8 left right asked noNegation _ first ihl ihr =>
    have plain := isNegation_eq_false noNegation
    have alike := ihl agree.left
    rw [course_and plain, course_and plain, ← alike.asked]
    exact alike.andThen (ihr agree.right)
  | case10 left right asked _ first ihl ihr =>
    have alike := ihl agree.left
    rw [course_or, course_or, ← alike.asked]
    exact alike.both (ihr agree.right)
  | case12 inner asked _ ih =>
    rw [course_not, course_not]
    exact (Course.alike_ask (agree.all asked)).andThen (ih agree)
  | case14 inner asked _ ih =>
    rw [course_group, course_group]
    exact ih agree

theorem evaluate_alike {one other : Source} {q : Query} (scope : Scope)
    (agree : one.AgreeOn other q.names) :
    (q.evaluate one none scope).Alike (q.evaluate other none scope) := by
  unfold evaluate
  split
  · exact ⟨rfl, rfl⟩
  · exact course_alike q 0 agree

/-- With one side of OR after the other the finding counts the questions. -/
theorem lookups_evaluate {source : Source} {scope : Scope} {q : Query} {e : Evaluation}
    (found : (q.evaluate source none scope).found = some e) :
    e.lookups = (q.evaluate source none scope).asked.length := by
  rw [(reports_evaluate source scope q e found).lookups, Source.length_calls]

theorem listsFirst_tags (q : Query) : Tag.ListsFirst q.names q.tags := Tag.listsFirst_distinct q.names

/-- Two sources that give the same for all items and for the tags of the query, in whichever spelling, are
asked the same, and the same items are found in them. -/
theorem exists_found_of_agreeOn {one other : Source} {q : Query} (scope : Scope)
    (folds : one.FoldsTags) (folds' : other.FoldsTags) (agree : one.AgreeOn other q.tags) :
    ∃ e f, (q.evaluate one none scope).found = some e ∧
      (q.evaluate other none scope).found = some f ∧
      (q.evaluate one none scope).asked = (q.evaluate other none scope).asked ∧
      e.items = f.items ∧ e.lookups = f.lookups := by
  have alike := evaluate_alike scope (agree.of_listsFirst folds folds' q.listsFirst_tags)
  obtain ⟨e, found⟩ := exists_found_evaluate one scope q
  obtain ⟨f, found'⟩ := exists_found_evaluate other scope q
  refine ⟨e, f, found, found', alike.asked, ?_, ?_⟩
  · have same := alike.items
    rw [Course.items?, Course.items?, found, found'] at same
    exact Option.some.inj same
  · rw [lookups_evaluate found, lookups_evaluate found', alike.asked]

end Query

/-- The tags of a query are all that it reads. They are the tags at its leaves, once each, in their first
spelling and in first-seen order. And in two stores that know a tag in any spelling and that give the same
for all items and for these tags, the same items are found by equally many questions: with one side of OR
after the other, when the questions are also the same, and with both sides at the same time, when each
store has one answer to each question. -/
theorem evaluation_reads_tags (q : Query) :
    Tag.ListsFirst q.names q.tags ∧
    (∀ (scope : Scope) (one other : Source), one.FoldsTags → other.FoldsTags →
      one.AgreeOn other q.tags →
        ∃ e f, (q.evaluate one none scope).found = some e ∧
          (q.evaluate other none scope).found = some f ∧
          (q.evaluate one none scope).asked = (q.evaluate other none scope).asked ∧
          e.items = f.items ∧ e.lookups = f.lookups) ∧
    ∀ (scope : Scope) (one other : Lookup → Except Fault ItemSet),
      Source.FoldsTags (fun _ => one) → Source.FoldsTags (fun _ => other) →
      Source.AgreeOn (fun _ => one) (fun _ => other) q.tags →
        ∀ calls calls' e f, q.Evaluates (fun lookup given => given = one lookup) scope calls (some e) →
          q.Evaluates (fun lookup given => given = other lookup) scope calls' (some f) →
            e.items = f.items ∧ e.lookups = f.lookups := by
  refine ⟨q.listsFirst_tags, fun scope one other folds folds' agree => ?_,
    fun scope one other folds folds' agree calls calls' e f run run' => ?_⟩
  · exact Query.exists_found_of_agreeOn scope folds folds' agree
  · obtain ⟨e', f', found, found', -, same⟩ :=
      Query.exists_found_of_agreeOn scope folds folds' agree
    obtain rfl := Option.some.inj (run.found_evaluate.symm.trans found)
    obtain rfl := Option.some.inj (run'.found_evaluate.symm.trans found')
    exact same

theorem Truth.foldsTags (truth : Truth) :
    Source.FoldsTags fun _ lookup => .ok (truth.answer lookup) := by
  intro a b alike asked
  exact congrArg truth.carriers (Tag.same_iff.mp alike)

/-- A bird does not matter to `cat AND NOT Dog OR (CAT)`, which reads two tags. -/
theorem evaluation_reads_tags_of_cat :
    let scope := Scope.ofDirectories true ["/a".toList]
    let truth := Truth.ofPairs [("1".toList, "cat".toList), ("2".toList, "dog".toList)]
    let other := Truth.ofPairs
      [("1".toList, "cat".toList), ("2".toList, "dog".toList), ("2".toList, "bird".toList)]
    let one : Source := fun _ lookup => .ok (truth.answer lookup)
    let two : Source := fun _ lookup => .ok (other.answer lookup)
    let q : Query := .or (.and (.tag "cat".toList) (.not (.tag "Dog".toList))) (.group (.tag "CAT".toList))
    q.tags = ["cat".toList, "Dog".toList] ∧ one.FoldsTags ∧ two.FoldsTags ∧ one.AgreeOn two q.tags ∧
      one.items 0 (.tag "bird".toList) ≠ two.items 0 (.tag "bird".toList) ∧
      ∃ e f, (q.evaluate one none scope).found = some e ∧ (q.evaluate two none scope).found = some f ∧
        e.items = f.items ∧ e.lookups = 3 ∧ f.lookups = 3 := by
  intro scope truth other one two q
  have tags : q.tags = ["cat".toList, "Dog".toList] := by decide +kernel
  have agree : one.AgreeOn two q.tags := by
    refine ⟨fun asked => ?_, fun name member asked => ?_⟩
    · show truth.all = other.all
      decide +kernel
    · have same : ∀ name ∈ ["cat".toList, "Dog".toList],
          truth.answer (.tag name) = other.answer (.tag name) := by decide +kernel
      exact same name (tags ▸ member)
  obtain ⟨-, alone, -⟩ := evaluation_reads_tags q
  obtain ⟨e, f, found, found', asked, same, counted⟩ :=
    alone scope one two truth.foldsTags other.foldsTags agree
  have three : e.lookups = 3 := by
    rw [Query.lookups_evaluate found]
    decide +kernel
  refine ⟨tags, truth.foldsTags, other.foldsTags, agree, ?_, e, f, found, found', same, three, ?_⟩
  · decide +kernel
  · exact counted.symm.trans three

end TagQuery
