import Mathlib.Data.List.Basic
import Mathlib.Data.List.Nodup
import SzpiSta.ExternalCalls

/-!
# Resources that a program acquires and releases

A call may acquire a resource, use it or release it.  `ReleasedOnce` says of a
list of such uses that each resource is acquired only while it is free, used and
released only while it is held, and free at the end.  The uses are accounted for
one after another against the resources held; an account that comes out empty
gives `ReleasedOnce`.  The rules at the end derive the account of every run of a
program from the program itself, whatever the environment answers.
-/

namespace SzpiSta

namespace HeldResources

open ExternalCalls ExternalCalls.Program

inductive Use (R : Type) where
  | acquire (resource : R)
  | use (resource : R)
  | release (resource : R)
  deriving DecidableEq

section Account

variable {R : Type} [DecidableEq R]

/-- The resource has been acquired as often as released. -/
def Free (uses : List (Use R)) (resource : R) : Prop :=
  uses.count (.acquire resource) = uses.count (.release resource)

/-- The resource has been acquired once more than released. -/
def Held (uses : List (Use R)) (resource : R) : Prop :=
  uses.count (.acquire resource) = uses.count (.release resource) + 1

structure ReleasedOnce (uses : List (Use R)) : Prop where
  acquired : ∀ before resource after,
    uses = before ++ .acquire resource :: after → Free before resource
  used : ∀ before resource after,
    uses = before ++ .use resource :: after → Held before resource
  released : ∀ before resource after,
    uses = before ++ .release resource :: after → Held before resource
  ended : ∀ resource, Free uses resource

/-- The resources held after one use, if it is one that is allowed. -/
def Use.apply (held : List R) : Use R → Option (List R)
  | .acquire resource =>
      if resource ∈ held then none else some (resource :: held)
  | .use resource => if resource ∈ held then some held else none
  | .release resource =>
      if resource ∈ held then some (held.erase resource) else none

/-- The resources held after all the uses, if they are all allowed. -/
def account : List (Use R) → List R → Option (List R)
  | [], held => some held
  | use :: uses, held => (use.apply held).bind (account uses)

variable {uses before after : List (Use R)} {held left : List R} {resource : R}

@[simp]
theorem account_nil : account ([] : List (Use R)) held = some held :=
  rfl

@[simp]
theorem account_acquire :
    account (.acquire resource :: uses) held =
      if resource ∈ held then none else account uses (resource :: held) := by
  simp only [account, Use.apply]
  split <;> rfl

@[simp]
theorem account_use :
    account (.use resource :: uses) held =
      if resource ∈ held then account uses held else none := by
  simp only [account, Use.apply]
  split <;> rfl

@[simp]
theorem account_release :
    account (.release resource :: uses) held =
      if resource ∈ held then account uses (held.erase resource) else none := by
  simp only [account, Use.apply]
  split <;> rfl

theorem account_append (first rest : List (Use R)) (held : List R) :
    account (first ++ rest) held = (account first held).bind (account rest) := by
  induction first generalizing held with
  | nil => rfl
  | cons use first ih =>
      simp only [List.cons_append, account, Option.bind_assoc]
      congr 1
      funext next
      exact ih next

/-- A resource is in the account once if it is held and not at all if it is
free. -/
theorem count_of_account (allowed : account uses held = some left)
    (once : held.Nodup) (resource : R) :
    left.Nodup ∧ uses.count (.acquire resource) + held.count resource =
      uses.count (.release resource) + left.count resource := by
  induction uses generalizing held with
  | nil =>
      obtain rfl : held = left := Option.some.inj allowed
      exact ⟨once, by simp⟩
  | cons use uses ih =>
      cases use with
      | acquire other =>
          rw [account_acquire] at allowed
          split at allowed
          · cases allowed
          · rename_i fresh
            obtain ⟨nodup, counts⟩ := ih allowed (once.cons fresh)
            refine ⟨nodup, ?_⟩
            simp only [List.count_cons, beq_iff_eq, Use.acquire.injEq,
              reduceCtorEq, if_false] at counts ⊢
            omega
      | use other =>
          rw [account_use] at allowed
          split at allowed
          · obtain ⟨nodup, counts⟩ := ih allowed once
            refine ⟨nodup, ?_⟩
            simp only [List.count_cons, beq_iff_eq, reduceCtorEq, if_false]
              at counts ⊢
            omega
          · cases allowed
      | release other =>
          rw [account_release] at allowed
          split at allowed
          · rename_i isHeld
            obtain ⟨nodup, counts⟩ := ih allowed (once.erase other)
            refine ⟨nodup, ?_⟩
            have positive := List.count_pos_iff.mpr isHeld
            simp only [List.count_cons, List.count_erase, beq_iff_eq,
              Use.release.injEq, reduceCtorEq, if_false] at counts ⊢
            by_cases same : other = resource
            · subst same
              simp only [if_true] at counts ⊢
              omega
            · simp only [same, if_false] at counts ⊢
              omega
          · cases allowed

/-- What is held in an account that started empty. -/
theorem held_of_account (allowed : account uses [] = some held)
    (member : resource ∈ held) : Held uses resource := by
  obtain ⟨nodup, counts⟩ := count_of_account allowed .nil resource
  have one := List.count_eq_one_of_mem nodup member
  rw [List.count_nil] at counts
  unfold Held
  omega

theorem free_of_account (allowed : account uses [] = some held)
    (notMember : resource ∉ held) : Free uses resource := by
  have counts := (count_of_account allowed .nil resource).2
  rw [List.count_nil, List.count_eq_zero_of_not_mem notMember] at counts
  exact counts

theorem releasedOnce_of_account (empty : account uses [] = some []) :
    ReleasedOnce uses := by
  have upTo (before : List (Use R)) (use : Use R) (after : List (Use R))
      (split : uses = before ++ use :: after) :
      ∃ held, account before [] = some held ∧
        account (use :: after) held = some [] := by
    rw [split, account_append] at empty
    exact Option.bind_eq_some_iff.mp empty
  constructor
  · intro before resource after split
    obtain ⟨held, allowed, rest⟩ := upTo _ _ _ split
    rw [account_acquire] at rest
    split at rest
    · cases rest
    · rename_i fresh
      exact free_of_account allowed fresh
  · intro before resource after split
    obtain ⟨held, allowed, rest⟩ := upTo _ _ _ split
    rw [account_use] at rest
    split at rest
    · rename_i member
      exact held_of_account allowed member
    · cases rest
  · intro before resource after split
    obtain ⟨held, allowed, rest⟩ := upTo _ _ _ split
    rw [account_release] at rest
    split at rest
    · rename_i member
      exact held_of_account allowed member
    · cases rest
  · exact fun resource => free_of_account empty List.not_mem_nil

end Account

section Programs

variable {R Call World α β σ : Type} {Answer : Call → Type} [DecidableEq R]
variable (uses : Event Answer → List (Use R))

/-- Whatever the answers, the uses of the program's calls are allowed from
`held` on, and `post` holds of the value and of the resources held at its
end. -/
def Accounts (post : α → List R → Prop) :
    Program Call Answer α → List R → Prop
  | .done value, held => post value held
  | .call request next, held => ∀ answer, ∃ left,
      account (uses ⟨request, answer⟩) held = some left ∧
        Accounts post (next answer) left
  | .outOfFuel, _ => True

variable {uses} {held : List R} {post : α → List R → Prop}

@[simp]
theorem accounts_pure {value : α} :
    Accounts uses post (pure value : Program Call Answer α) held ↔
      post value held :=
  Iff.rfl

theorem accounts_request_bind {call : Call} {post : β → List R → Prop}
    {next : Answer call → Program Call Answer β}
    (step : ∀ answer, ∃ left,
      account (uses ⟨call, answer⟩) held = some left ∧
        Accounts uses post (next answer) left) :
    Accounts uses post (request call >>= next) held :=
  step

/-- A call that concerns no resource. -/
theorem accounts_other_bind {call : Call} {post : β → List R → Prop}
    {next : Answer call → Program Call Answer β}
    (noUse : ∀ answer, uses ⟨call, answer⟩ = [])
    (rest : ∀ answer, Accounts uses post (next answer) held) :
    Accounts uses post (request call >>= next) held := by
  intro answer
  refine ⟨held, ?_, rest answer⟩
  rw [noUse]
  rfl

theorem Accounts.bind {first : Program Call Answer α}
    {next : α → Program Call Answer β} {last : β → List R → Prop}
    (firstAccounts : Accounts uses post first held)
    (nextAccounts : ∀ value middle, post value middle →
      Accounts uses last (next value) middle) :
    Accounts uses last (first >>= next) held := by
  induction first generalizing held with
  | done value => exact nextAccounts value held firstAccounts
  | call request rest ih =>
      intro answer
      obtain ⟨middle, allowed, restAccounts⟩ := firstAccounts answer
      exact ⟨middle, allowed, ih answer restAccounts⟩
  | outOfFuel => trivial

/-- The invariant rule: turns that each leave the resources held as they were. -/
theorem accounts_loop {body : σ → Program Call Answer (LoopStep σ α)}
    (turn : ∀ state, Accounts uses (fun _ left => left = held) (body state) held)
    (fuel : Nat) (state : σ) :
    Accounts uses (fun _ left => left = held) (loop body fuel state) held := by
  induction fuel generalizing state with
  | zero => trivial
  | succ fuel ih =>
      refine (turn state).bind ?_
      rintro (next | value) _ rfl
      · exact ih next
      · exact rfl

/-- The account of every run. -/
theorem Accounts.runs {program : Program Call Answer α}
    (accounts : Accounts uses post program held)
    {env : Environment Answer World} {before after : World}
    {trace : List (Event Answer)} {value : α}
    (runs : Runs env program before trace value after) :
    ∃ left, account (trace.flatMap uses) held = some left ∧ post value left := by
  induction runs generalizing held with
  | done value => exact ⟨held, rfl, accounts⟩
  | call answer _ _ ih =>
      obtain ⟨middle, allowed, restAccounts⟩ := accounts answer
      obtain ⟨left, restAllowed, holds⟩ := ih restAccounts
      refine ⟨left, ?_, holds⟩
      rw [List.flatMap_cons, account_append, allowed]
      exact restAllowed

end Programs

end HeldResources

end SzpiSta
