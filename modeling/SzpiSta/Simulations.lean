import SzpiSta.TransitionPaths

/-!
# One transition system explained by another

A label of a concrete system stands for a few labels of an abstract one, often
for none.  If every concrete step can be matched by the abstract steps its label
stands for, from every related state to a related one, then so can every path:
what is observed of a concrete path is a path of the abstract system.
-/

namespace SzpiSta

namespace TransitionPaths

variable {State AbsState Label AbsLabel : Type*}

/-- Every concrete step between related states is matched by the abstract steps
that its label stands for. -/
def Simulates (step : State → Label → State → Prop)
    (absStep : AbsState → AbsLabel → AbsState → Prop)
    (observe : Label → List AbsLabel) (related : State → AbsState → Prop) :
    Prop :=
  ∀ before label after abs, related before abs → step before label after →
    ∃ absAfter, Path absStep abs (observe label) absAfter ∧
      related after absAfter

variable {step : State → Label → State → Prop}
variable {absStep : AbsState → AbsLabel → AbsState → Prop}
variable {observe : Label → List AbsLabel} {related : State → AbsState → Prop}
variable {first last : State} {labels : List Label} {abs : AbsState}

/-- The run rule: what is observed of a path is an abstract path. -/
theorem Simulates.path (simulates : Simulates step absStep observe related)
    (path : Path step first labels last) (start : related first abs) :
    ∃ absLast, Path absStep abs (labels.flatMap observe) absLast ∧
      related last absLast := by
  induction path generalizing abs with
  | nil => exact ⟨abs, .nil abs, start⟩
  | cons head _ ih =>
      obtain ⟨middle, absHead, between⟩ := simulates _ _ _ _ start head
      obtain ⟨absLast, absTail, ended⟩ := ih between
      exact ⟨absLast, absHead.append absTail, ended⟩

/-- Concrete steps under a side condition are matched under another one, if the
first gives the second for whatever matches them. -/
theorem Simulates.restrict (simulates : Simulates step absStep observe related)
    {ok : State → Label → Prop} {absOk : AbsState → AbsLabel → Prop}
    (allowed : ∀ before label abs absAfter, related before abs →
      ok before label → Path absStep abs (observe label) absAfter →
      Path (Restrict absStep absOk) abs (observe label) absAfter) :
    Simulates (Restrict step ok) (Restrict absStep absOk) observe related := by
  intro before label after abs relates taken
  obtain ⟨absAfter, matched, relatesAfter⟩ :=
    simulates before label after abs relates taken.1
  exact ⟨absAfter, allowed before label abs absAfter relates taken.2 matched,
    relatesAfter⟩

end TransitionPaths

end SzpiSta
