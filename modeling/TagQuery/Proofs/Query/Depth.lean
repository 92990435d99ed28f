import TagQuery.Proofs.Query.Procedures

/-! The depth of the reader only says how far it may go. Where a call comes to an end, it does so in the
same way with more depth. So a single run tells what the reader does. -/
namespace TagQuery.Query

namespace Descent

/-- Where the first action comes to an end, the second does so too, in the same way. -/
def Extends {α : Type} (act act' : Descent α) : Prop :=
  ∀ before ended, act.run.run before = some ended → act'.run.run before = some ended

theorem Extends.refl {α : Type} (act : Descent α) : Extends act act := fun _ _ => id

theorem Extends.bind {α β : Type} {act act' : Descent α} {f f' : α → Descent β} (h : Extends act act')
    (more : ∀ a, Extends (f a) (f' a)) : Extends (act >>= f) (act' >>= f') := by
  intro before ended
  rw [run_bind, run_bind]
  rcases first : act.run.run before with _ | ⟨_ | a, after⟩
  · nofun
  · rw [h _ _ first]
    exact id
  · rw [h _ _ first]
    exact more a after ended

theorem congruent_extends : Congruent fun _ => Extends where
  still _ := .refl _
  endless _ := nofun
  bind := Extends.bind
  call h := by
    cases h with
    | endless => exact nofun
    | call h => exact (Extends.refl _).bind fun _ => h.bind fun _ => .refl _

end Descent

namespace Reading.Descends

variable {reading : Reading} {fuel : Option Nat} {tokens : List Lexeme}
  {answer answer' : Except SyntaxError Query} {after after' : Memory}

theorem of_run (depth : Nat) (ended : (Descent.query reading depth fuel).run.run ⟨⟨tokens, 0⟩, []⟩ =
    some (answer, after)) : reading.Descends fuel tokens answer after := by
  refine ⟨depth, fun deeper deep => ?_⟩
  induction deep with
  | refl => exact ended
  | step _ ih => exact Descent.query_related Descent.congruent_extends reading _ fuel _ _ ih

theorem unique (h : reading.Descends fuel tokens answer after)
    (h' : reading.Descends fuel tokens answer' after') : answer = answer' ∧ after = after' := by
  obtain ⟨enough, runs⟩ := h
  obtain ⟨enough', runs'⟩ := h'
  have same := (runs _ (Nat.le_max_left enough enough')).symm.trans
    (runs' _ (Nat.le_max_right enough enough'))
  exact Prod.mk.inj (Option.some.inj same)

end Reading.Descends

end TagQuery.Query
