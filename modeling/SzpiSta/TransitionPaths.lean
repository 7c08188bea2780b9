import Mathlib.Data.List.Basic
import Mathlib.Data.List.Induction

/-!
# Labelled transition systems and their paths

A system is a relation between a state, a label and the next state.  A path is
a list of labels executed one after another.  The rules here carry a fact from
single steps to whole paths: an invariant, an invariant that holds as long as
every step meets a side condition, and a property of each step taken.
-/

namespace SzpiSta

namespace TransitionPaths

variable {State Label : Type*}

/-- Executing the labels one after another leads from the first state to the
last. -/
inductive Path (step : State → Label → State → Prop) :
    State → List Label → State → Prop where
  | nil (state : State) : Path step state [] state
  | cons {first middle last : State} {label : Label} {labels : List Label}
      (head : step first label middle) (tail : Path step middle labels last) :
      Path step first (label :: labels) last

/-- The steps of `step` that meet the side condition `ok`, which speaks of the
state before the step and its label. -/
def Restrict (step : State → Label → State → Prop)
    (ok : State → Label → Prop) : State → Label → State → Prop :=
  fun before label after => step before label after ∧ ok before label

/-- A transition function with a guard, read as a relation. -/
def FunctionStep (step : Label → State → Option State) :
    State → Label → State → Prop :=
  fun before label after => step label before = some after

variable {step : State → Label → State → Prop}
variable {first middle last : State} {label : Label}
variable {labels before after : List Label}

theorem path_nil_iff : Path step first [] last ↔ last = first := by
  constructor
  · rintro ⟨⟩
    rfl
  · rintro rfl
    exact .nil _

theorem path_cons_iff :
    Path step first (label :: labels) last ↔
      ∃ middle, step first label middle ∧ Path step middle labels last := by
  constructor
  · rintro ⟨⟩
    exact ⟨_, ‹_›, ‹_›⟩
  · rintro ⟨middle, head, tail⟩
    exact .cons head tail

theorem Path.append (firstPath : Path step first before middle)
    (lastPath : Path step middle after last) :
    Path step first (before ++ after) last := by
  induction firstPath with
  | nil => exact lastPath
  | cons head _ ih => exact .cons head (ih lastPath)

theorem path_append_iff :
    Path step first (before ++ after) last ↔
      ∃ middle, Path step first before middle ∧ Path step middle after last := by
  constructor
  · intro path
    induction before generalizing first with
    | nil => exact ⟨first, .nil _, path⟩
    | cons label before ih =>
        obtain ⟨next, head, tail⟩ := path_cons_iff.mp path
        obtain ⟨middle, firstPath, lastPath⟩ := ih tail
        exact ⟨middle, .cons head firstPath, lastPath⟩
  · rintro ⟨middle, firstPath, lastPath⟩
    exact firstPath.append lastPath

theorem path_singleton_iff :
    Path step first [label] last ↔ step first label last := by
  constructor
  · intro path
    obtain ⟨middle, head, tail⟩ := path_cons_iff.mp path
    exact path_nil_iff.mp tail ▸ head
  · exact fun head => .cons head (.nil _)

/-- What every step preserves holds at the end of every path. -/
theorem Path.invariant (inv : State → Prop)
    (preserved : ∀ before label after, inv before → step before label after →
      inv after)
    (path : Path step first labels last) (start : inv first) : inv last := by
  induction path with
  | nil => exact start
  | cons head _ ih => exact ih (preserved _ _ _ start head)

/-- An invariant that mentions the labels taken so far. -/
theorem Path.historyInvariant (inv : List Label → State → Prop)
    (preserved : ∀ history before label after, inv history before →
      step before label after → inv (history ++ [label]) after)
    {history : List Label} (path : Path step first labels last)
    (start : inv history first) : inv (history ++ labels) last := by
  induction path generalizing history with
  | nil => simpa using start
  | cons head _ ih =>
      have next := ih (preserved _ _ _ _ start head)
      simpa using next

/-- Every label of a path is taken somewhere. -/
theorem Path.taken {label : Label} (path : Path step first labels last)
    (member : label ∈ labels) : ∃ before after, step before label after := by
  induction path with
  | nil => cases member
  | cons head _ ih =>
      rcases List.mem_cons.mp member with rfl | later
      · exact ⟨_, _, head⟩
      · exact ih later

/-- Execute the labels one after another. -/
def execute (step : Label → State → Option State) :
    List Label → State → Option State
  | [], state => some state
  | label :: labels, state => (step label state).bind (execute step labels)

theorem path_of_execute {step : Label → State → Option State}
    (executes : execute step labels first = some last) :
    Path (FunctionStep step) first labels last := by
  induction labels generalizing first with
  | nil =>
      obtain rfl : first = last := Option.some.inj executes
      exact .nil _
  | cons label labels ih =>
      obtain ⟨middle, head, tail⟩ := Option.bind_eq_some_iff.mp executes
      exact .cons head (ih tail)

/-- A path whose labels meet the side condition in every state is a path of the
restricted system. -/
theorem Path.restrict (path : Path step first labels last)
    (ok : State → Label → Prop)
    (allowed : ∀ state, ∀ label ∈ labels, ok state label) :
    Path (Restrict step ok) first labels last := by
  induction path with
  | nil => exact .nil _
  | cons head _ ih =>
      refine .cons ⟨head, allowed _ _ List.mem_cons_self⟩ (ih ?_)
      exact fun state label member =>
        allowed state label (List.mem_cons_of_mem _ member)

/-- Executing the labels as long as each step meets the side condition. -/
theorem path_restrict_of_execute {step : Label → State → Option State}
    {ok : State → Label → Prop} [∀ state label, Decidable (ok state label)]
    (executes : execute
      (fun label state => if ok state label then step label state else none)
      labels first = some last) :
    Path (Restrict (FunctionStep step) ok) first labels last := by
  induction labels generalizing first with
  | nil =>
      obtain rfl : first = last := Option.some.inj executes
      exact .nil _
  | cons label labels ih =>
      obtain ⟨middle, head, tail⟩ := Option.bind_eq_some_iff.mp executes
      obtain ⟨allowed, taken⟩ := Option.ite_none_right_eq_some.mp head
      exact .cons ⟨taken, allowed⟩ (ih tail)

/-- A stronger side condition allows fewer paths. -/
theorem Path.weaken {ok ok' : State → Label → Prop}
    (path : Path (Restrict step ok) first labels last)
    (weaker : ∀ state label, ok state label → ok' state label) :
    Path (Restrict step ok') first labels last := by
  induction path with
  | nil => exact .nil _
  | cons head _ ih => exact .cons ⟨head.1, weaker _ _ head.2⟩ ih

theorem Path.unrestrict {ok : State → Label → Prop}
    (path : Path (Restrict step ok) first labels last) :
    Path step first labels last := by
  induction path with
  | nil => exact .nil _
  | cons head _ ih => exact .cons head.1 ih

/-- `holds` is true of every step on every way to execute the labels. -/
def EveryStep (step : State → Label → State → Prop)
    (holds : State → Label → State → Prop) (first : State)
    (labels : List Label) (last : State) : Prop :=
  ∀ earlier label later before after, labels = earlier ++ label :: later →
    Path step first earlier before → step before label after →
    Path step after later last → holds before label after

/-- `holds` is true of every state visited on every way to execute the
labels. -/
def EveryState (step : State → Label → State → Prop) (holds : State → Prop)
    (first : State) (labels : List Label) (last : State) : Prop :=
  ∀ earlier later middle, labels = earlier ++ later →
    Path step first earlier middle → Path step middle later last →
    holds middle

/-- Some path leads to a step of which `holds` is true. -/
def LeadsTo (step : State → Label → State → Prop)
    (holds : State → Label → State → Prop) (first : State) : Prop :=
  ∃ labels before label after, Path step first labels before ∧
    step before label after ∧ holds before label after

theorem LeadsTo.of_path {holds : State → Label → State → Prop}
    (path : Path step first labels middle)
    (leads : LeadsTo step holds middle) : LeadsTo step holds first := by
  obtain ⟨more, before, label, after, rest, taken, isSo⟩ := leads
  exact ⟨labels ++ more, before, label, after, path.append rest, taken, isSo⟩

theorem LeadsTo.of_step {holds : State → Label → State → Prop}
    (taken : step first label middle) (leads : LeadsTo step holds middle) :
    LeadsTo step holds first :=
  leads.of_path (path_singleton_iff.mpr taken)

/-- A property of every step of every path fails exactly if some path leads to a
step without it. -/
theorem everyStep_iff_not_leadsTo {holds : State → Label → State → Prop} :
    (∀ labels last, Path step first labels last →
        EveryStep step holds first labels last) ↔
      ¬ LeadsTo step (fun before label after => ¬ holds before label after)
        first := by
  constructor
  · rintro every ⟨labels, before, label, after, path, taken, fails⟩
    have whole := path.append (path_singleton_iff.mpr taken)
    exact fails (every _ _ whole labels label [] before after rfl path taken
      (.nil _))
  · intro never labels last _ earlier label later before after _ toBefore taken _
    by_contra fails
    exact never ⟨earlier, before, label, after, toBefore, taken, fails⟩

/-- What every step of the labels preserves, given what is true of it, holds in
every state. -/
theorem EveryStep.everyState {holds : State → Label → State → Prop}
    {inv : State → Prop} (every : EveryStep step holds first labels last)
    (preserved : ∀ before label after, inv before → step before label after →
      holds before label after → inv after) (start : inv first) :
    EveryState step inv first labels last := by
  intro earlier
  -- From the last label before the state backwards.
  induction earlier using List.reverseRecOn with
  | nil =>
      intro later middle _ toMiddle _
      exact path_nil_iff.mp toMiddle ▸ start
  | append_singleton earlier label ih =>
      intro later middle split toMiddle toLast
      obtain ⟨before, toBefore, taken⟩ := path_append_iff.mp toMiddle
      have taken := path_singleton_iff.mp taken
      rw [List.append_assoc] at split
      have holdsBefore := ih (label :: later) before split toBefore
        (.cons taken toLast)
      exact preserved _ _ _ holdsBefore taken
        (every _ _ _ _ _ split toBefore taken toLast)

/-- What an invariant gives for each step holds of every step. -/
theorem everyStep_of_invariant {holds : State → Label → State → Prop}
    (inv : State → Prop)
    (preserved : ∀ before label after, inv before → step before label after →
      inv after)
    (gives : ∀ before label after, inv before → step before label after →
      holds before label after) (start : inv first) :
    EveryStep step holds first labels last := by
  intro earlier label later before after _ toBefore taken _
  exact gives _ _ _ (toBefore.invariant inv preserved start) taken

theorem everyStep_congr {holds holds' : State → Label → State → Prop}
    (same : ∀ before label after, step before label after →
      (holds before label after ↔ holds' before label after)) :
    EveryStep step holds first labels last ↔
      EveryStep step holds' first labels last := by
  constructor
  · intro every earlier label later before after split toBefore taken toLast
    exact (same _ _ _ taken).mp
      (every _ _ _ _ _ split toBefore taken toLast)
  · intro every earlier label later before after split toBefore taken toLast
    exact (same _ _ _ taken).mpr
      (every _ _ _ _ _ split toBefore taken toLast)

end TransitionPaths

end SzpiSta
