import TagQuery.Location.Resolution

/-! The segments of a location, and what is left when they are resolved. Main steps: a location has
the segments that it is put together from; what is left is climbs and then names, with no climbs
under a root; segments of this form are left as they are; and no location gets longer. -/
namespace TagQuery

theorem Text.splitOn_eq (sep : Char) (t : Text) : Text.splitOn sep t = List.splitOn sep t := by
  induction t with
  | nil => rfl
  | cons c t ih =>
    obtain ⟨s, rest, pieces⟩ := List.exists_cons_of_ne_nil (List.splitOnP_ne_nil (· == sep) t)
    unfold List.splitOn at ih ⊢
    rw [Text.splitOn_cons, ih, List.splitOnP_cons_eq_if_modifyHead, pieces]
    by_cases same : c = sep
    · rw [if_pos same, if_pos (beq_iff_eq.mpr same)]
    · rw [if_neg same, if_neg (mt beq_iff_eq.mp same)]
      rfl

theorem Text.splitOn_ne_nil (sep : Char) (t : Text) : Text.splitOn sep t ≠ [] := by
  rw [splitOn_eq]
  exact List.splitOnP_ne_nil (· == sep) t

namespace Location

variable {absolute : Bool} {s t : Text} {segs names stack : List Text} {c : Char}

/-- What stands between the separators of a location, where anything does. -/
def segments (t : Text) : List Text := (Text.splitOn '/' t).filter (· ≠ [])

/-- Segments with a separator after each of them. -/
def closed (segs : List Text) : Text := segs.flatMap (· ++ ['/'])

@[simp] theorem segments_nil : segments [] = [] := rfl

@[simp] theorem closed_nil : closed [] = [] := rfl

@[simp] theorem closed_cons (s : Text) (segs : List Text) :
    closed (s :: segs) = s ++ '/' :: closed segs := by
  simp [closed]

theorem closed_append (segs segs' : List Text) :
    closed (segs ++ segs') = closed segs ++ closed segs' :=
  List.flatMap_append

theorem segments_append_slash (t u : Text) :
    segments (t ++ '/' :: u) = segments t ++ segments u := by
  have separate : Text.splitOn '/' (t ++ '/' :: u) = Text.splitOn '/' t ++ Text.splitOn '/' u := by
    simp only [Text.splitOn_eq]
    exact List.splitOnP_append_cons t u (beq_self_eq_true '/')
  rw [segments, separate, List.filter_append]
  rfl

@[simp] theorem segments_slash (t : Text) : segments ('/' :: t) = segments t :=
  segments_append_slash [] t

@[simp] theorem segments_concat (t : Text) : segments (t ++ ['/']) = segments t := by
  rw [segments_append_slash, segments_nil, List.append_nil]

theorem segments_of_whole (whole : '/' ∉ s) (written : s ≠ []) : segments s = [s] := by
  rw [segments, Text.splitOn_eq, List.splitOn_eq_singleton whole]
  exact List.filter_cons_of_pos (by simpa using written)

theorem segments_closed (named : ∀ s ∈ segs, s ≠ [] ∧ '/' ∉ s) : segments (closed segs) = segs := by
  induction segs with
  | nil => rfl
  | cons s segs ih =>
    obtain ⟨⟨written, whole⟩, later⟩ := List.forall_mem_cons.mp named
    rw [closed_cons, segments_append_slash, segments_of_whole whole written, ih later]
    rfl

theorem joinWith_concat (some_segs : segs ≠ []) :
    Text.joinWith ['/'] segs ++ ['/'] = closed segs := by
  induction segs with
  | nil => exact absurd rfl some_segs
  | cons s segs ih =>
    cases segs with
    | nil => simp [Text.joinWith]
    | cons next rest =>
      rw [closed_cons, ← ih (List.cons_ne_nil _ _)]
      simp [Text.joinWith]

theorem segments_joinWith (named : ∀ s ∈ segs, s ≠ [] ∧ '/' ∉ s) :
    segments (Text.joinWith ['/'] segs) = segs := by
  cases segs with
  | nil => rfl
  | cons s rest =>
    rw [← segments_concat, joinWith_concat (List.cons_ne_nil s rest), segments_closed named]

theorem segments_assemble (absolute : Bool) (named : ∀ s ∈ segs, s ≠ [] ∧ '/' ∉ s) :
    segments (assemble absolute segs) = segs := by
  cases absolute with
  | true => exact (segments_slash _).trans (segments_joinWith named)
  | false => exact segments_joinWith named

theorem closed_splitOn (t : Text) : closed (Text.splitOn '/' t) = t ++ ['/'] := by
  rw [← joinWith_concat (Text.splitOn_ne_nil '/' t), Text.splitOn_eq, Text.joinWith,
    List.intercalate_splitOn]

/-- The pieces of a text have its characters other than separators. -/
theorem mem_splitOn (h : s ∈ Text.splitOn '/' t) : '/' ∉ s ∧ ∀ c ∈ s, c ∈ t := by
  induction t generalizing s with
  | nil =>
    obtain rfl := List.mem_singleton.mp h
    exact ⟨List.not_mem_nil, List.forall_mem_nil _⟩
  | cons d t ih =>
    have further {s : Text} (among : s ∈ Text.splitOn '/' t) : '/' ∉ s ∧ ∀ c ∈ s, c ∈ d :: t :=
      ⟨(ih among).1, fun c member => List.mem_cons_of_mem d ((ih among).2 c member)⟩
    rw [Text.splitOn_cons] at h
    split at h
    · rcases List.mem_cons.mp h with rfl | among
      · exact ⟨List.not_mem_nil, List.forall_mem_nil _⟩
      · exact further among
    · next other =>
      obtain ⟨first, rest, pieces⟩ := List.exists_cons_of_ne_nil (Text.splitOn_ne_nil '/' t)
      rw [pieces] at h further
      rcases List.mem_cons.mp h with rfl | among
      · obtain ⟨whole, own⟩ := further List.mem_cons_self
        refine ⟨?_, List.forall_mem_cons.mpr ⟨List.mem_cons_self, own⟩⟩
        rintro (_ | ⟨_, member⟩)
        · exact other rfl
        · exact whole member
      · exact further (List.mem_cons_of_mem first among)

theorem mem_segments (h : s ∈ segments t) : s ≠ [] ∧ '/' ∉ s ∧ ∀ c ∈ s, c ∈ t := by
  obtain ⟨among, written⟩ := List.mem_filter.mp h
  exact ⟨of_decide_eq_true written, mem_splitOn among⟩

theorem isName_iff : isName s = true ↔ (s ≠ [] ∧ s ≠ here) ∧ s ≠ up := by
  simp [isName]

theorem push_skip (silent : s = [] ∨ s = here) (stack : List Text) :
    push absolute stack s = stack := by
  unfold push
  exact if_pos silent

theorem push_name (named : isName s = true) (stack : List Text) :
    push absolute stack s = s :: stack := by
  obtain ⟨speaks, level⟩ := isName_iff.mp named
  unfold push
  rw [if_neg (not_or.mpr speaks), if_neg level]

/-- A climb takes a name away. -/
theorem push_up_name (named : isName s = true) (stack : List Text) :
    push absolute (s :: stack) up = stack := by
  unfold push
  rw [if_neg (by decide), if_pos rfl]
  exact if_pos (isName_iff.mp named).2

/-- Climbs of a relative location add up. -/
theorem push_up_climbs (n : Nat) :
    push false (List.replicate n up) up = List.replicate (n + 1) up := by
  cases n <;> rfl

/-- Empty pieces say nothing. -/
theorem resolve_splitOn (absolute : Bool) (t : Text) :
    resolve absolute (Text.splitOn '/' t) = resolve absolute (segments t) := by
  have skips : (fun stack s => if decide (s ≠ []) = true then push absolute stack s else stack) =
      push absolute := by
    funext stack s
    by_cases empty : s = []
    · rw [if_neg (by simp [empty]), push_skip (.inl empty)]
    · rw [if_pos (decide_eq_true empty)]
  rw [resolve, resolve, segments, List.foldl_filter, skips]

theorem resolve_here (absolute : Bool) (segs : List Text) :
    resolve absolute (here :: segs) = resolve absolute segs := by
  rw [resolve, List.foldl_cons, push_skip (.inr rfl), resolve]

/-- What is resolved is climbs and then names, and no climbs under a root. -/
theorem isResolved_iff : isResolved absolute segs = true ↔ ∃ climbs names,
    segs = List.replicate climbs up ++ names ∧ (∀ s ∈ names, isName s = true) ∧
      (absolute = true → climbs = 0) := by
  induction segs generalizing absolute with
  | nil =>
    exact iff_of_true rfl ⟨0, [], rfl, List.forall_mem_nil _, fun _ => rfl⟩
  | cons s segs ih =>
    by_cases climbs : s = up
    · subst climbs
      simp only [isResolved, ↓reduceIte, Bool.and_eq_true, Bool.not_eq_true', ih]
      constructor
      · rintro ⟨relative, climbs, names, rfl, named, -⟩
        exact ⟨climbs + 1, names, rfl, named, fun rooted => absurd rooted (by simp [relative])⟩
      · rintro ⟨climbs, names, form, named, rooted⟩
        cases climbs with
        | zero =>
          obtain rfl : up :: segs = names := form
          exact absurd (named up List.mem_cons_self) (by decide)
        | succ climbs =>
          refine ⟨?_, climbs, names, List.tail_eq_of_cons_eq form, named,
            fun no => absurd no Bool.false_ne_true⟩
          cases absolute with
          | true => exact absurd (rooted rfl) (Nat.succ_ne_zero climbs)
          | false => rfl
    · rw [isResolved, if_neg climbs, List.all_eq_true]
      constructor
      · exact fun named => ⟨0, s :: segs, rfl, named, fun _ => rfl⟩
      · rintro ⟨k, names, form, named, -⟩
        cases k with
        | zero =>
          obtain rfl : s :: segs = names := form
          exact named
        | succ k => exact absurd (List.head_eq_of_cons_eq form) climbs

theorem isResolved_names (absolute : Bool) (named : ∀ s ∈ names, isName s = true) :
    isResolved absolute names = true :=
  isResolved_iff.mpr ⟨0, names, rfl, named, fun _ => rfl⟩

/-- A relative location that goes on with names may begin with a climb too. -/
theorem isResolved_cons (speaks : s ≠ [] ∧ s ≠ here) (named : ∀ s ∈ names, isName s = true) :
    isResolved false (s :: names) = true := by
  by_cases climb : s = up
  · rw [isResolved, if_pos climb, isResolved_names false named]
    rfl
  · exact isResolved_names false (List.forall_mem_cons.mpr ⟨isName_iff.mpr ⟨speaks, climb⟩, named⟩)

theorem foldl_push_names (named : ∀ s ∈ names, isName s = true) :
    names.foldl (push absolute) stack = names.reverse ++ stack := by
  induction names generalizing stack with
  | nil => rfl
  | cons s names ih =>
    obtain ⟨own, later⟩ := List.forall_mem_cons.mp named
    rw [List.foldl_cons, push_name own, ih later, List.reverse_cons, List.append_assoc]
    rfl

theorem foldl_push_climbs (m n : Nat) :
    (List.replicate m up).foldl (push false) (List.replicate n up) = List.replicate (n + m) up := by
  induction m generalizing n with
  | zero => rfl
  | succ m ih =>
    rw [List.replicate_succ, List.foldl_cons, push_up_climbs, ih, Nat.add_right_comm, Nat.add_assoc]

/-- What is resolved is left as it is. -/
theorem resolve_eq_self (done : isResolved absolute segs = true) : resolve absolute segs = segs := by
  obtain ⟨climbs, names, rfl, named, rooted⟩ := isResolved_iff.mp done
  have ascent : (List.replicate climbs up).foldl (push absolute) [] = List.replicate climbs up := by
    cases absolute with
    | true =>
      rw [rooted rfl]
      rfl
    | false => exact (foldl_push_climbs climbs 0).trans (by rw [Nat.zero_add])
  rw [resolve, List.foldl_append, ascent, foldl_push_names named, List.reverse_append,
    List.reverse_reverse, List.reverse_replicate]

/-- The latest of resolved segments is a name, or else they are climbs and none under a root. -/
theorem isResolved_reverse_iff : isResolved absolute stack.reverse = true ↔
    (∃ last below, stack = last :: below ∧ isName last = true ∧
      isResolved absolute below.reverse = true) ∨
    ∃ climbs, stack = List.replicate climbs up ∧ (absolute = true → climbs = 0) := by
  constructor
  · intro done
    obtain ⟨climbs, names, form, named, rooted⟩ := isResolved_iff.mp done
    rw [List.reverse_eq_iff] at form
    rcases names.eq_nil_or_concat with rfl | ⟨names, last, rfl⟩
    · exact .inr ⟨climbs, by rw [form, List.append_nil, List.reverse_replicate], rooted⟩
    · rw [List.concat_eq_append, List.forall_mem_append] at named
      refine .inl ⟨last, (List.replicate climbs up ++ names).reverse, ?_,
        named.2 last List.mem_cons_self, ?_⟩
      · rw [form, List.concat_eq_append, ← List.append_assoc, List.reverse_concat]
      · rw [List.reverse_reverse]
        exact isResolved_iff.mpr ⟨climbs, names, rfl, named.1, rooted⟩
  · rintro (⟨last, below, rfl, name, done⟩ | ⟨climbs, rfl, rooted⟩)
    · obtain ⟨climbs, names, form, named, rooted⟩ := isResolved_iff.mp done
      refine isResolved_iff.mpr ⟨climbs, names ++ [last], ?_, ?_, rooted⟩
      · rw [List.reverse_cons, form, List.append_assoc]
      · exact List.forall_mem_append.mpr ⟨named, List.forall_mem_singleton.mpr name⟩
    · exact isResolved_iff.mpr
        ⟨climbs, [], by rw [List.reverse_replicate, List.append_nil], List.forall_mem_nil _, rooted⟩

/-- One more segment keeps what is resolved, latest first. -/
theorem isResolved_push (done : isResolved absolute stack.reverse = true) (s : Text) :
    isResolved absolute (push absolute stack s).reverse = true := by
  by_cases silent : s = [] ∨ s = here
  · rwa [push_skip silent]
  by_cases climb : s = up
  · subst climb
    rcases isResolved_reverse_iff.mp done with ⟨last, below, rfl, name, rest⟩ | ⟨n, rfl, rooted⟩
    · rwa [push_up_name name]
    · cases absolute with
      | true =>
        rw [rooted rfl]
        rfl
      | false =>
        rw [push_up_climbs]
        exact isResolved_reverse_iff.mpr (.inr ⟨n + 1, rfl, fun no => absurd no Bool.false_ne_true⟩)
  · have name : isName s = true := isName_iff.mpr ⟨not_or.mp silent, climb⟩
    rw [push_name name]
    exact isResolved_reverse_iff.mpr (.inl ⟨s, stack, rfl, name, done⟩)

/-- Whatever the segments, what is left of them is resolved. -/
theorem isResolved_resolve (absolute : Bool) (segs : List Text) :
    isResolved absolute (resolve absolute segs) = true := by
  have run (stack : List Text) (done : isResolved absolute stack.reverse = true) :
      isResolved absolute (segs.foldl (push absolute) stack).reverse = true := by
    induction segs generalizing stack with
    | nil => exact done
    | cons s segs ih => exact ih _ (isResolved_push done s)
  exact run [] rfl

/-- Nothing is pushed but the segment. -/
theorem mem_push {other : Text} (h : other ∈ push absolute stack s) : other ∈ stack ∨ other = s := by
  unfold push at h
  split at h
  · exact .inl h
  · split at h
    · next climb =>
      cases stack with
      | nil =>
        cases absolute with
        | true => exact .inl h
        | false => exact .inr ((List.mem_singleton.mp h).trans climb.symm)
      | cons last below =>
        change other ∈ ite _ _ _ at h
        split at h
        · exact .inl (List.mem_cons_of_mem last h)
        · split at h
          · exact .inl h
          · rcases List.mem_cons.mp h with rfl | among
            · exact .inr climb.symm
            · exact .inl among
    · exact (List.mem_cons.mp h).symm

theorem mem_foldl_push (h : s ∈ segs.foldl (push absolute) stack) : s ∈ stack ∨ s ∈ segs := by
  induction segs generalizing stack with
  | nil => exact .inl h
  | cons first segs ih =>
    rcases ih h with pushed | later
    · rcases mem_push pushed with below | rfl
      · exact .inl below
      · exact .inr List.mem_cons_self
    · exact .inr (List.mem_cons_of_mem first later)

theorem mem_resolve (h : s ∈ resolve absolute segs) : s ∈ segs :=
  (mem_foldl_push (List.mem_reverse.mp h)).resolve_left List.not_mem_nil

theorem length_closed_reverse (segs : List Text) :
    (closed segs.reverse).length = (closed segs).length :=
  ((List.reverse_perm segs).flatMap_right _).length_eq

theorem length_closed_push_le (absolute : Bool) (stack : List Text) (s : Text) :
    (closed (push absolute stack s)).length ≤ (closed stack).length + (s.length + 1) := by
  unfold push
  split
  · omega
  · split
    · next climb =>
      subst climb
      cases stack with
      | nil => cases absolute <;> simp
      | cons last below =>
        change (closed (ite _ _ _)).length ≤ _
        split
        · simp; omega
        · split
          · omega
          · simp; omega
    · simp; omega

/-- What is left of some segments takes no more room. -/
theorem length_closed_resolve_le (absolute : Bool) (segs : List Text) :
    (closed (resolve absolute segs)).length ≤ (closed segs).length := by
  have run (stack : List Text) : (closed (segs.foldl (push absolute) stack)).length ≤
      (closed stack).length + (closed segs).length := by
    induction segs generalizing stack with
    | nil => exact Nat.le_refl _
    | cons s segs ih =>
      have first := length_closed_push_le absolute stack s
      have later := ih (push absolute stack s)
      simp only [List.foldl_cons, closed_cons, List.length_append, List.length_cons]
      omega
  rw [resolve, length_closed_reverse]
  simpa using run []

theorem length_closed_resolve_segments_le (absolute : Bool) (t : Text) :
    (closed (resolve absolute (segments t))).length ≤ t.length + 1 := by
  have bound := length_closed_resolve_le absolute (Text.splitOn '/' t)
  rwa [resolve_splitOn, closed_splitOn, List.length_append] at bound

end Location
end TagQuery
