import TagQuery.Proofs.Index.Representation
import TagQuery.Proofs.Store.Agreement

/-! Evaluation over an index is local to the scope. NOT is taken against the items in scope, and AND and
NOT stop when nothing is found, so over a smaller scope other questions are asked; but what the query
says of an item depends on its tags alone. -/
namespace TagQuery

/-- The scope lies inside another one: each of its stems begins with one of the other's. -/
def Scope.Within (scope outer : Scope) : Prop :=
  ∀ stem ∈ scope.stems, ∃ other ∈ outer.stems, other.isPrefixOf stem = true

theorem Scope.Within.contains {scope outer : Scope} (h : scope.Within outer) {location : Text}
    (inside : scope.contains location = true) : outer.contains location = true := by
  obtain ⟨stem, among, begins⟩ := List.any_eq_true.mp inside
  obtain ⟨other, outerStem, shorter⟩ := h stem among
  refine List.any_eq_true.mpr ⟨other, outerStem, ?_⟩
  rw [List.isPrefixOf_iff_prefix] at begins shorter ⊢
  exact shorter.trans begins

/-- Over a smaller scope the query is true of the same items, of those that are in it. -/
theorem Catalogue.matching_truth_of_within {scope outer : Scope} (within : scope.Within outer)
    (catalogue : Catalogue) (q : Query) :
    (catalogue.truth scope).matching q =
      (catalogue.truth outer).matching q ∩ catalogue.inScope scope := by
  refine Std.ExtTreeSet.ext_mem fun id => ?_
  rw [Std.ExtTreeSet.mem_inter_iff, Truth.mem_matching, Truth.mem_matching]
  change id ∈ catalogue.inScope scope ∧ _ ↔ (id ∈ catalogue.inScope outer ∧ _) ∧ _
  rw [and_comm (b := id ∈ catalogue.inScope scope)]
  refine and_congr_right fun member => ?_
  obtain ⟨listing, listed, contained⟩ := mem_inScope.mp member
  have outside := within.contains contained
  have same (name : Text) : (catalogue.truth scope).carries id name =
      (catalogue.truth outer).carries id name := by
    rw [carries_truth listed contained, carries_truth listed outside]
  rw [Query.holds_congr fun name _ => same name]
  exact (and_iff_right (mem_inScope.mpr ⟨listing, listed, outside⟩)).symm

/-- What is found over a scope, as against what is found over one around it: the same items, less those
out of scope, so that the two findings say the same of an item in scope. -/
structure Index.Narrows (index : Index) (scope : Scope) (narrow wide : ItemSet) : Prop where
  eq_restrict : narrow = index.restrict wide scope
  mem_iff : ∀ id ∈ index.inScope scope, id ∈ narrow ↔ id ∈ wide

theorem Index.Narrows.of_eq {index : Index} {scope : Scope} {narrow wide : ItemSet}
    (h : narrow = index.restrict wide scope) : index.Narrows scope narrow wide := by
  refine ⟨h, fun id member => ?_⟩
  rw [inScope_eq] at member
  rw [h, restrict_eq, Std.ExtTreeSet.mem_inter_iff]
  exact and_iff_left member

theorem Index.WellFormed.narrows {index : Index} (wf : index.WellFormed) {scope outer : Scope}
    (own : index.foldScope scope = scope) (ownOuter : index.foldScope outer = outer)
    (within : scope.Within outer) {q : Query} {calls calls' : List Call} {e e' : Evaluation}
    (h : q.Evaluates (TagStore.Answers index scope) scope calls (some e))
    (h' : q.Evaluates (TagStore.Answers index outer) outer calls' (some e')) :
    index.Narrows scope e.items e'.items := by
  refine .of_eq ?_
  rw [wf.items_eq_matching own h, wf.items_eq_matching ownOuter h', restrict_eq, own]
  exact Catalogue.matching_truth_of_within within index.catalogue q

/-- After any changes, to evaluate a query over a scope is to evaluate it over a scope around it and to
keep the items in scope: with one side of OR after the other, when both evaluations come to a finding, and
with both sides at the same time. -/
theorem evaluation_local_to_scope (foldsCase : Bool) (changes : List Change) (scope outer : Scope)
    (own : scope.foldsCase = foldsCase) (ownOuter : outer.foldsCase = foldsCase)
    (within : scope.Within outer) (q : Query) :
    let index := changes.foldl Index.after (.empty foldsCase)
    (∃ e e', (q.evaluate (TagStore.source index scope) none scope).found = some e ∧
      (q.evaluate (TagStore.source index outer) none outer).found = some e' ∧
      index.Narrows scope e.items e'.items) ∧
    ∀ calls calls' e e', q.Evaluates (TagStore.Answers index scope) scope calls (some e) →
      q.Evaluates (TagStore.Answers index outer) outer calls' (some e') →
      index.Narrows scope e.items e'.items := by
  intro index
  obtain ⟨wf, setting, -⟩ := (Index.wellFormed_empty foldsCase).foldl_after changes
  have same : index.foldScope scope = scope := Index.foldScope_of_foldsCase (own.trans setting.symm)
  have sameOuter : index.foldScope outer = outer :=
    Index.foldScope_of_foldsCase (ownOuter.trans setting.symm)
  refine ⟨?_, fun calls calls' e e' h h' => wf.narrows same sameOuter within h h'⟩
  obtain ⟨e, found⟩ := Query.exists_found_evaluate (TagStore.source index scope) scope q
  obtain ⟨e', found'⟩ := Query.exists_found_evaluate (TagStore.source index outer) outer q
  obtain ⟨calls, h⟩ := TagStore.evaluates index scope found
  obtain ⟨calls', h'⟩ := TagStore.evaluates index outer found'
  exact ⟨e, e', found, found', wf.narrows same sameOuter within h h'⟩

/-- Two of three items have no tag, and one of them is in the smaller scope. -/
theorem evaluation_local_to_scope_of_untagged :
    let index := [Change.insertAll [⟨"1".toList, "/a/x".toList, []⟩,
      ⟨"2".toList, "/A/b/y".toList, []⟩, ⟨"3".toList, "/a/b/z".toList, ["cat".toList]⟩]].foldl
        Index.after (.empty true)
    let scope := Scope.ofDirectories true ["/a/B".toList]
    let outer := Scope.ofDirectories true ["/a".toList]
    let q : Query := .not (.tag "Cat".toList)
    scope.Within outer ∧
      ∃ e e', (q.evaluate (TagStore.source index scope) none scope).found = some e ∧
        (q.evaluate (TagStore.source index outer) none outer).found = some e' ∧
        index.Narrows scope e.items e'.items ∧ e.items.toList = ["2".toList] ∧
        e'.items.toList = ["1".toList, "2".toList] := by
  intro index scope outer q
  have within : scope.Within outer := by
    unfold Scope.Within
    decide +kernel
  obtain ⟨⟨e, e', found, found', narrows⟩, -⟩ :=
    evaluation_local_to_scope true _ scope outer rfl rfl within q
  have narrow : (q.evaluate (TagStore.source index scope) none scope).found.map (·.items.toList) =
      some ["2".toList] := by decide +kernel
  have wide : (q.evaluate (TagStore.source index outer) none outer).found.map (·.items.toList) =
      some ["1".toList, "2".toList] := by decide +kernel
  rw [found] at narrow
  rw [found'] at wide
  exact ⟨within, e, e', found, found', narrows, Option.some.inj narrow, Option.some.inj wide⟩

end TagQuery
