import TagQuery.Proofs.Location.Path
import Mathlib.Logic.Relation

/-! The normal form of a location is what the rules of resolution leave of its segments, in whatever
order they are applied. Main steps: no rule changes what `resolve` answers; one more segment is
resolved by at most one rule, and so the rules lead from any segments to the answer; and to the
answer no rule applies. The order would matter if a climb could go with a segment that is no name. -/
namespace TagQuery.Location

open Relation

variable {absolute : Bool} {segs left stack : List Text} {t : Text}

/-- What the rules leave of some segments, in whatever order they are applied. -/
structure IsNormalForm (absolute : Bool) (segs left : List Text) : Prop where
  /-- No order goes on for ever. -/
  ends : Acc (fun next now => Resolves absolute now next) segs
  /-- No rule applies to what is left. -/
  final : ∀ next, ¬ Resolves absolute left next
  /-- However far an order has come, it can still be brought there. -/
  leads : ∀ midway, ReflTransGen (Resolves absolute) segs midway →
    ReflTransGen (Resolves absolute) midway left
  /-- An order that cannot go on has come there. -/
  only : ∀ other, ReflTransGen (Resolves absolute) segs other →
    (∀ next, ¬ Resolves absolute other next) → other = left

/-- No rule changes what is left in the end. -/
theorem Resolves.resolve_eq (h : Resolves absolute segs left) :
    resolve absolute segs = resolve absolute left := by
  refine congrArg List.reverse ?_
  cases h with
  | empty before after =>
    rw [List.foldl_append, List.foldl_append, List.foldl_cons, push_skip (.inl rfl)]
  | here before after =>
    rw [List.foldl_append, List.foldl_append, List.foldl_cons, push_skip (.inr rfl)]
  | climb before name after named =>
    rw [List.foldl_append, List.foldl_append, List.foldl_cons, List.foldl_cons, push_name named,
      push_up_name named]
  | root after rooted =>
    subst rooted
    rfl

theorem resolve_eq_of_reaches (h : ReflTransGen (Resolves absolute) segs left) :
    resolve absolute segs = resolve absolute left := by
  induction h with
  | refl => rfl
  | tail _ step ih => exact ih.trans step.resolve_eq

/-- After resolved segments one more is resolved by one rule, or there is nothing to resolve. -/
theorem reaches_push (done : isResolved absolute stack.reverse = true) (s : Text)
    (later : List Text) : ReflTransGen (Resolves absolute) (stack.reverse ++ s :: later)
      ((push absolute stack s).reverse ++ later) := by
  by_cases silent : s = [] ∨ s = here
  · rw [push_skip silent]
    rcases silent with rfl | rfl
    · exact .single (.empty _ _)
    · exact .single (.here _ _)
  by_cases climb : s = up
  · subst climb
    rcases isResolved_reverse_iff.mp done with ⟨last, below, rfl, name, -⟩ | ⟨n, rfl, rooted⟩
    · rw [push_up_name name, List.reverse_cons, List.append_assoc]
      exact .single (.climb _ last later name)
    · cases absolute with
      | true =>
        rw [rooted rfl]
        exact .single (.root later rfl)
      | false =>
        rw [push_up_climbs, List.replicate_succ, List.reverse_cons, List.append_assoc]
        exact .refl
  · rw [push_name (isName_iff.mpr ⟨not_or.mp silent, climb⟩), List.reverse_cons, List.append_assoc]
    exact .refl

/-- The rules lead from any segments to what is left in the end. -/
theorem reaches_resolve (absolute : Bool) (segs : List Text) :
    ReflTransGen (Resolves absolute) segs (resolve absolute segs) := by
  -- Whatever is on the stack is resolved already, so the rules go on behind it.
  have run (stack : List Text) (done : isResolved absolute stack.reverse = true) :
      ReflTransGen (Resolves absolute) (stack.reverse ++ segs)
        (segs.foldl (push absolute) stack).reverse := by
    induction segs generalizing stack with
    | nil =>
      rw [List.append_nil]
      exact .refl
    | cons s segs ih => exact (reaches_push done s segs).trans (ih _ (isResolved_push done s))
  exact run [] rfl

theorem isNormalForm_resolve (absolute : Bool) (segs : List Text) :
    IsNormalForm absolute segs (resolve absolute segs) := by
  refine ⟨?_, fun _ => not_resolves_of_isResolved (isResolved_resolve absolute segs), ?_, ?_⟩
  · exact (Subrelation.wf (fun step => step.length_lt) (measure List.length).wf).apply segs
  · intro midway reached
    rw [resolve_eq_of_reaches reached]
    exact reaches_resolve absolute midway
  · intro other reached stuck
    rw [resolve_eq_of_reaches reached]
    rcases (reaches_resolve absolute other).cases_head with same | ⟨next, step, -⟩
    · exact same
    · exact absurd step (stuck next)

/-- What is written between the separators of a location, empty or not; a root is no part of it, and
a root alone has nothing after it. -/
def pieces (t : Text) : List Text :=
  let inside := if isAbsolute t then t.tail else t
  if inside = [] then [] else Text.splitOn '/' inside

/-- A location that is as simple as it can be without a look at what is there. -/
structure IsSimple (t : Text) : Prop where
  plain : '\\' ∉ t
  /-- No separator stands next to another. -/
  written : [] ∉ pieces t
  /-- No segment stays where it is. -/
  moves : here ∉ pieces t
  /-- A relative location may begin with climbs; no other segment climbs. -/
  climbs : ∃ n names, pieces t = List.replicate n up ++ names ∧ up ∉ names ∧
    (isAbsolute t = true → n = 0)
  /-- Nothing but the root ends in a separator. -/
  closes : t.getLast? = some '/' → t = ['/']

/-- The pieces of a path that is written out are its segments. -/
theorem Path.pieces_text (p : Path) : pieces p.text = p.segments := by
  have inside : (if isAbsolute p.text then p.text.tail else p.text) =
      Text.joinWith ['/'] p.segments := by
    rw [isAbsolute_text, text, assemble]
    cases p.absolute <;> rfl
  unfold pieces
  rw [inside]
  by_cases no_segs : p.segments = []
  · rw [no_segs]
    rfl
  · have separate : Text.splitOn '/' (Text.joinWith ['/'] p.segments) = p.segments := by
      rw [Text.splitOn_eq]
      exact List.splitOn_intercalate '/' (fun s member => (p.named s member).2) no_segs
    have written : Text.joinWith ['/'] p.segments ≠ [] := by
      intro none
      rw [none] at separate
      exact (p.named [] (separate ▸ List.mem_cons_self)).1 rfl
    rw [if_neg written, separate]

theorem Path.isSimple_text (p : Path) : IsSimple p.text := by
  obtain ⟨n, names, form, named, rooted⟩ := isResolved_iff.mp p.resolved
  refine ⟨fun bad => p.backslash_not_mem_stem (p.text_prefix_stem.subset bad), ?_, ?_, ?_, ?_⟩
  · rw [pieces_text]
    exact fun bad => (p.named [] bad).1 rfl
  · rw [pieces_text, form, List.mem_append, List.mem_replicate]
    rintro (⟨-, bad⟩ | bad)
    · exact absurd bad (by decide)
    · exact absurd (named here bad) (by decide)
  · rw [pieces_text, isAbsolute_text]
    exact ⟨n, names, form, fun bad => absurd (named up bad) (by decide), rooted⟩
  · intro slash
    by_cases no_segs : p.segments = []
    · refine text_eq_root no_segs fun no_stem => ?_
      rw [← stem_eq_text no_segs, no_stem] at slash
      cases slash
    · exact absurd slash (getLast?_text no_segs)

/-- A location is normalized by the rules of resolution: of its segments, empty ones and those that
stay are dropped, and so is a name with the climb after it and a climb at the root, in whatever
order; what is left is put together, and lowercased on request. -/
theorem normalize_eq_normal_form (foldsCase : Bool) (raw : Text) :
    (∃ left, IsNormalForm (isAbsolute (unify raw.trim)) (Text.splitOn '/' (unify raw.trim)) left ∧
      normalize foldsCase raw =
        if foldsCase then (assemble (isAbsolute (unify raw.trim)) left).lower
        else assemble (isAbsolute (unify raw.trim)) left) ∧
    isAbsolute (normalize foldsCase raw) = isAbsolute (unify raw.trim) ∧
    IsSimple (normalize foldsCase raw) := by
  refine ⟨⟨_, isNormalForm_resolve _ _, rfl⟩, ?_, ?_⟩
  · rw [Path.isAbsolute_normalize]
    cases foldsCase <;> rfl
  · rw [← Path.text_ofLocation]
    exact Path.isSimple_text _

/-- One rule applied at one place, or a climb dropped with whatever segment stands before it, unless that
climbs too. -/
inductive ResolvesFreely (absolute : Bool) : List Text → List Text → Prop
  | rule {segs left : List Text} (h : Resolves absolute segs left) : ResolvesFreely absolute segs left
  | climb (before : List Text) (segment : Text) (after : List Text) (other : segment ≠ up) :
      ResolvesFreely absolute (before ++ segment :: up :: after) (before ++ after)

/-- To one resolved segment, or none, no such rule applies. -/
theorem not_resolvesFreely (done : isResolved absolute segs = true) (short : segs.length ≤ 1) :
    ¬ ResolvesFreely absolute segs left := by
  intro step
  cases step with
  | rule h => exact not_resolves_of_isResolved done h
  | climb before segment after _ =>
    rw [List.length_append, List.length_cons, List.length_cons] at short
    omega

/-- The climb may go with the segment that stays, and the name is left; or that segment goes first, and the
climb goes with the name. -/
theorem two_results_of_free_climbs :
    let segs := Text.splitOn '/' (unify (Text.trim "a/./..".toList))
    (ReflTransGen (ResolvesFreely false) segs ["a".toList] ∧
      ∀ next, ¬ ResolvesFreely false ["a".toList] next) ∧
    (ReflTransGen (ResolvesFreely false) segs [] ∧ ∀ next, ¬ ResolvesFreely false [] next) ∧
    normalize true "a/./..".toList = [] := by
  intro segs
  have written : segs = ["a".toList, here, up] := by decide
  refine ⟨⟨?_, fun _ => not_resolvesFreely (by decide) (by decide)⟩,
    ⟨?_, fun _ => not_resolvesFreely (by decide) (by decide)⟩, by decide +kernel⟩
  · rw [written]
    exact .single (.climb ["a".toList] here [] (by decide))
  · rw [written]
    exact .tail (.single (.rule (.here ["a".toList] [up]))) (.climb [] "a".toList [] (by decide))

end TagQuery.Location
