import Mathlib.Logic.Basic
import Mathlib.Data.Nat.Basic
import Mathlib.Data.List.Basic

/-!
# Programs that call code outside themselves

A program is a tree of calls to code it does not contain.  Every call carries
its arguments, and what comes back is an answer of the call's own type.  The
outside is an environment: a relation between its state before a call, the
answer, and its state afterwards.  This file defines programs, their runs
against an environment, a loop with a fuel bound, and the rules by which facts
about runs are derived: sequencing, the loop invariant, the loop variant, what
every call meets, and the calls a program may issue at all.
-/

namespace SzpiSta

namespace ExternalCalls

/-- A program over the calls `Call`, where the answer to `call` has type
`Answer call`.  `outOfFuel` is a loop that was cut short. -/
inductive Program (Call : Type) (Answer : Call → Type) (α : Type) where
  | done (value : α)
  | call (request : Call) (next : Answer request → Program Call Answer α)
  | outOfFuel

/-- One answered call. -/
structure Event {Call : Type} (Answer : Call → Type) where
  call : Call
  answer : Answer call

/-- The outside world: which answers a call may get in a state, and the state
the answer leaves behind. -/
structure Environment {Call : Type} (Answer : Call → Type) (World : Type) where
  answers : World → (call : Call) → Answer call → World → Prop

/-- What one turn of a loop body decides. -/
inductive LoopStep (σ α : Type) where
  | again (state : σ)
  | leave (value : α)

/-- What is asked of a turn: `inv` of the state it goes round with, `post` of
the value it leaves with. -/
def LoopStep.Meets {σ α : Type} (inv : σ → Prop) (post : α → Prop) :
    LoopStep σ α → Prop
  | .again state => inv state
  | .leave value => post value

@[simp]
theorem LoopStep.meets_again {σ α : Type} {inv : σ → Prop} {post : α → Prop}
    {state : σ} : (LoopStep.again state).Meets inv post ↔ inv state :=
  Iff.rfl

@[simp]
theorem LoopStep.meets_leave {σ α : Type} {inv : σ → Prop} {post : α → Prop}
    {value : α} : (LoopStep.leave value).Meets inv post ↔ post value :=
  Iff.rfl

variable {Call : Type} {Answer : Call → Type} {World : Type}
variable {α β σ : Type}

namespace Program

/-- Run the first program and continue with its value. -/
def bind : Program Call Answer α → (α → Program Call Answer β) →
    Program Call Answer β
  | .done value, next => next value
  | .call request rest, next => .call request fun answer =>
      (rest answer).bind next
  | .outOfFuel, _ => .outOfFuel

instance : Monad (Program Call Answer) where
  pure := .done
  bind := .bind

/-- The program that makes one call and returns its answer. -/
def request (call : Call) : Program Call Answer (Answer call) :=
  .call call .done

/-- Repeat `body` until it leaves, at most `fuel` times. -/
def loop (body : σ → Program Call Answer (LoopStep σ α)) :
    Nat → σ → Program Call Answer α
  | 0, _ => .outOfFuel
  | fuel + 1, state => (body state).bind fun
      | .again next => loop body fuel next
      | .leave value => .done value

/-- A complete run: the program started in one world, got the recorded
answers, returned `value` and left the last world behind. -/
inductive Runs (env : Environment Answer World) :
    Program Call Answer α → World → List (Event Answer) → α → World → Prop
  | done (value : α) (world : World) :
      Runs env (.done value) world [] value world
  | call {request : Call} {next : Answer request → Program Call Answer α}
      {before middle after : World} {trace : List (Event Answer)} {value : α}
      (answer : Answer request)
      (answered : env.answers before request answer middle)
      (rest : Runs env (next answer) middle trace value after) :
      Runs env (.call request next) before (⟨request, answer⟩ :: trace)
        value after

section Sequencing

variable {env : Environment Answer World}

theorem runs_done_iff {value result : α} {before after : World}
    {trace : List (Event Answer)} :
    Runs env (.done value) before trace result after ↔
      trace = [] ∧ result = value ∧ after = before := by
  constructor
  · rintro ⟨⟩
    exact ⟨rfl, rfl, rfl⟩
  · rintro ⟨rfl, rfl, rfl⟩
    exact .done _ _

theorem runs_call_iff {request : Call}
    {next : Answer request → Program Call Answer α} {before after : World}
    {trace : List (Event Answer)} {result : α} :
    Runs env (.call request next) before trace result after ↔
      ∃ answer middle rest, trace = ⟨request, answer⟩ :: rest ∧
        env.answers before request answer middle ∧
        Runs env (next answer) middle rest result after := by
  constructor
  · rintro ⟨⟩
    rename_i middle rest answer answered tail
    exact ⟨answer, middle, rest, rfl, answered, tail⟩
  · rintro ⟨answer, middle, rest, rfl, answered, tail⟩
    exact .call answer answered tail

theorem not_runs_outOfFuel {before after : World}
    {trace : List (Event Answer)} {result : α} :
    ¬ Runs env (.outOfFuel : Program Call Answer α) before trace result
      after := by
  rintro ⟨⟩

theorem Runs.request {call : Call} {before after : World}
    (answer : Answer call) (answered : env.answers before call answer after) :
    Runs env (request call) before [⟨call, answer⟩] answer after :=
  .call answer answered (.done _ _)

theorem Runs.bind {first : Program Call Answer α}
    {next : α → Program Call Answer β} {before middle after : World}
    {firstTrace nextTrace : List (Event Answer)} {value : α} {result : β}
    (firstRuns : Runs env first before firstTrace value middle)
    (nextRuns : Runs env (next value) middle nextTrace result after) :
    Runs env (first >>= next) before (firstTrace ++ nextTrace) result
      after := by
  induction firstRuns with
  | done => exact nextRuns
  | call answer answered _ ih =>
      exact .call answer answered (ih nextRuns)

/-- A run of a sequence splits at the value of its first part. -/
theorem runs_bind_iff {first : Program Call Answer α}
    {next : α → Program Call Answer β} {before after : World}
    {trace : List (Event Answer)} {result : β} :
    Runs env (first >>= next) before trace result after ↔
      ∃ firstTrace nextTrace value middle, trace = firstTrace ++ nextTrace ∧
        Runs env first before firstTrace value middle ∧
        Runs env (next value) middle nextTrace result after := by
  constructor
  · intro runs
    induction first generalizing before trace with
    | done value =>
        exact ⟨[], trace, value, before, rfl, .done _ _, runs⟩
    | call request rest ih =>
        obtain ⟨answer, middle, tail, rfl, answered, tailRuns⟩ :=
          runs_call_iff.mp runs
        obtain ⟨firstTrace, nextTrace, value, last, rfl, firstRuns, nextRuns⟩ :=
          ih answer tailRuns
        exact ⟨⟨request, answer⟩ :: firstTrace, nextTrace, value, last, rfl,
          .call answer answered firstRuns, nextRuns⟩
    | outOfFuel => exact (not_runs_outOfFuel runs).elim
  · rintro ⟨firstTrace, nextTrace, value, middle, rfl, firstRuns, nextRuns⟩
    exact firstRuns.bind nextRuns

/-- What every answer preserves, every run preserves. -/
theorem Runs.invariant (inv : World → Prop)
    (preserved : ∀ before call answer after, inv before →
      env.answers before call answer after → inv after)
    {program : Program Call Answer α} {before after : World}
    {trace : List (Event Answer)} {value : α}
    (runs : Runs env program before trace value after) (start : inv before) :
    inv after := by
  induction runs with
  | done => exact start
  | call answer answered _ ih =>
      exact ih (preserved _ _ answer _ start answered)

theorem Runs.loop_again {body : σ → Program Call Answer (LoopStep σ α)}
    {fuel : Nat} {state next : σ} {before middle after : World}
    {turnTrace restTrace : List (Event Answer)} {value : α}
    (turn : Runs env (body state) before turnTrace (.again next) middle)
    (rest : Runs env (loop body fuel next) middle restTrace value after) :
    Runs env (loop body (fuel + 1) state) before (turnTrace ++ restTrace) value
      after :=
  turn.bind rest

theorem Runs.loop_leave {body : σ → Program Call Answer (LoopStep σ α)}
    {fuel : Nat} {state : σ} {before after : World}
    {turnTrace : List (Event Answer)} {value : α}
    (turn : Runs env (body state) before turnTrace (.leave value) after) :
    Runs env (loop body (fuel + 1) state) before (turnTrace ++ []) value after :=
  turn.bind (.done _ _)

end Sequencing

section EveryRun

variable (env : Environment Answer World)

/-- Every run from `world` ends as `post` says of its trace, its value and the
world it leaves. -/
def Ensures (program : Program Call Answer α) (world : World)
    (post : List (Event Answer) → α → World → Prop) : Prop :=
  ∀ trace value after, Runs env program world trace value after →
    post trace value after

variable {env}

theorem Ensures.mono {program : Program Call Answer α} {world : World}
    {post weaker : List (Event Answer) → α → World → Prop}
    (ensures : Ensures env program world post)
    (weaken : ∀ trace value after, post trace value after →
      weaker trace value after) :
    Ensures env program world weaker :=
  fun trace value after runs => weaken _ _ _ (ensures trace value after runs)

@[simp]
theorem ensures_pure {value : α} {world : World}
    {post : List (Event Answer) → α → World → Prop} :
    Ensures env (pure value) world post ↔ post [] value world := by
  constructor
  · intro ensures
    exact ensures _ _ _ (.done _ _)
  · rintro holds _ _ _ ⟨⟩
    exact holds

@[simp]
theorem ensures_request {call : Call} {world : World}
    {post : List (Event Answer) → Answer call → World → Prop} :
    Ensures env (request call) world post ↔
      ∀ answer after, env.answers world call answer after →
        post [⟨call, answer⟩] answer after := by
  constructor
  · intro ensures answer after answered
    exact ensures _ _ _ (.call answer answered (.done _ _))
  · intro holds trace value after runs
    obtain ⟨answer, middle, rest, rfl, answered, ended⟩ :=
      runs_call_iff.mp runs
    obtain ⟨rfl, rfl, rfl⟩ := runs_done_iff.mp ended
    exact holds _ _ answered

@[simp]
theorem ensures_bind {first : Program Call Answer α}
    {next : α → Program Call Answer β} {world : World}
    {post : List (Event Answer) → β → World → Prop} :
    Ensures env (first >>= next) world post ↔
      Ensures env first world fun trace value middle =>
        Ensures env (next value) middle fun rest result after =>
          post (trace ++ rest) result after := by
  constructor
  · intro ensures trace value middle firstRuns rest result after nextRuns
    exact ensures _ _ _ (firstRuns.bind nextRuns)
  · intro ensures trace result after runs
    obtain ⟨firstTrace, nextTrace, value, middle, rfl, firstRuns, nextRuns⟩ :=
      runs_bind_iff.mp runs
    exact ensures _ _ _ firstRuns _ _ _ nextRuns

theorem ensures_outOfFuel {world : World}
    {post : List (Event Answer) → α → World → Prop} :
    Ensures env (.outOfFuel : Program Call Answer α) world post :=
  fun _ _ _ runs => (not_runs_outOfFuel runs).elim

/-- The invariant rule.  The invariant speaks of the loop state, of everything
the loop has done so far and of the world. -/
theorem ensures_loop {body : σ → Program Call Answer (LoopStep σ α)}
    (inv : σ → List (Event Answer) → World → Prop)
    {post : List (Event Answer) → α → World → Prop}
    (turn : ∀ state trace world, inv state trace world →
      Ensures env (body state) world fun more step after =>
        step.Meets (fun next => inv next (trace ++ more) after)
          (fun value => post (trace ++ more) value after))
    (fuel : Nat) {state : σ} {world : World} (start : inv state [] world) :
    Ensures env (loop body fuel state) world post := by
  -- Generalised over what the loop did before this turn.
  suffices fromHere : ∀ fuel state trace world, inv state trace world →
      Ensures env (loop body fuel state) world fun more value after =>
        post (trace ++ more) value after by
    simpa using fromHere fuel state [] world start
  intro fuel
  induction fuel with
  | zero => exact fun _ _ _ _ => ensures_outOfFuel
  | succ fuel ih =>
      intro state trace world holds
      refine ensures_bind.mpr ((turn state trace world holds).mono ?_)
      rintro more (next | value) after holdsAfter
      · simpa only [List.append_assoc] using ih next _ after holdsAfter
      · exact ensures_pure.mpr (by simpa using holdsAfter)

end EveryRun

section Completion

variable (env : Environment Answer World)

/-- Whatever the environment answers, the program returns: no run ends in a
loop cut short by its fuel. -/
def Completes : Program Call Answer α → World → Prop
  | .done _, _ => True
  | .call request next, world => ∀ answer after,
      env.answers world request answer after → Completes (next answer) after
  | .outOfFuel, _ => False

variable {env}

theorem completes_pure {value : α} {world : World} :
    Completes env (pure value) world :=
  trivial

theorem Completes.bind {first : Program Call Answer α}
    {next : α → Program Call Answer β} {world : World}
    (firstCompletes : Completes env first world)
    (nextCompletes : Ensures env first world fun _ value after =>
      Completes env (next value) after) :
    Completes env (first >>= next) world := by
  induction first generalizing world with
  | done value => exact nextCompletes _ _ _ (.done _ _)
  | call request rest ih =>
      intro answer after answered
      apply ih answer (firstCompletes answer after answered)
      intro trace value last runs
      exact nextCompletes _ _ _ (.call answer answered runs)
  | outOfFuel => exact firstCompletes.elim

theorem completes_request_bind {call : Call}
    {next : Answer call → Program Call Answer β} {world : World}
    (rest : ∀ answer after, env.answers world call answer after →
      Completes env (next answer) after) :
    Completes env (request call >>= next) world :=
  rest

/-- What follows a run of the first part returns if the whole does. -/
theorem Completes.of_bind {first : Program Call Answer α}
    {next : α → Program Call Answer β} {world after : World}
    {trace : List (Event Answer)} {value : α}
    (completes : Completes env (first >>= next) world)
    (runs : Runs env first world trace value after) :
    Completes env (next value) after := by
  induction runs with
  | done => exact completes
  | call answer answered _ ih => exact ih (completes answer _ answered)

/-- A program that returns has a run if every call gets some answer. -/
theorem Completes.exists_runs {program : Program Call Answer α} {world : World}
    (completes : Completes env program world)
    (answered : ∀ world call, ∃ answer after,
      env.answers world call answer after) :
    ∃ trace value after, Runs env program world trace value after := by
  induction program generalizing world with
  | done value => exact ⟨[], value, world, .done _ _⟩
  | call request next ih =>
      obtain ⟨answer, middle, now⟩ := answered world request
      obtain ⟨trace, value, after, runs⟩ := ih answer (completes answer middle now)
      exact ⟨_, value, after, .call answer now runs⟩
  | outOfFuel => exact completes.elim

/-- A loop that can always go round once more is cut short by every fuel. -/
theorem not_completes_loop {body : σ → Program Call Answer (LoopStep σ α)}
    (inv : σ → World → Prop)
    (again : ∀ state world, inv state world → ∃ trace next after,
      Runs env (body state) world trace (.again next) after ∧ inv next after)
    (fuel : Nat) {state : σ} {world : World} (start : inv state world) :
    ¬ Completes env (loop body fuel state) world := by
  induction fuel generalizing state world with
  | zero => exact id
  | succ fuel ih =>
      intro completes
      obtain ⟨trace, next, after, runs, holds⟩ := again state world start
      exact ih holds (completes.of_bind runs)

/-- The variant rule: a measure below the fuel that every further turn lowers
keeps the loop from being cut short. -/
theorem completes_loop {body : σ → Program Call Answer (LoopStep σ α)}
    (inv : σ → World → Prop) (measure : σ → World → Nat)
    (turnCompletes : ∀ state world, inv state world →
      Completes env (body state) world)
    (turn : ∀ state world, inv state world →
      Ensures env (body state) world fun _ step after =>
        ∀ next, step = .again next →
          inv next after ∧ measure next after < measure state world)
    {fuel : Nat} {state : σ} {world : World} (start : inv state world)
    (enough : measure state world < fuel) :
    Completes env (loop body fuel state) world := by
  induction fuel generalizing state world with
  | zero => omega
  | succ fuel ih =>
      apply (turnCompletes state world start).bind
      refine (turn state world start).mono ?_
      rintro _ (next | value) after progress
      · obtain ⟨holds, smaller⟩ := progress next rfl
        exact ih holds (by omega)
      · exact completes_pure

end Completion

section Turns

variable (env : Environment Answer World)

/-- Some turns of a loop that all go round again. -/
inductive Turns (body : σ → Program Call Answer (LoopStep σ α)) :
    σ → World → σ → World → Prop
  | refl (state : σ) (world : World) : Turns body state world state world
  | tail {first middle last : σ} {before between after : World}
      {trace : List (Event Answer)}
      (earlier : Turns body first before middle between)
      (turn : Runs env (body middle) between trace (.again last) after) :
      Turns body first before last after

variable {env}

theorem Turns.invariant {body : σ → Program Call Answer (LoopStep σ α)}
    (inv : σ → World → Prop)
    (preserved : ∀ state world, inv state world →
      Ensures env (body state) world fun _ step after =>
        ∀ next, step = .again next → inv next after)
    {first last : σ} {before after : World}
    (turns : Turns env body first before last after)
    (start : inv first before) : inv last after := by
  induction turns with
  | refl => exact start
  | tail _ turn ih => exact preserved _ _ (ih start) _ _ _ turn _ rfl

end Turns

section MetCalls

variable (env : Environment Answer World) (holds : World → Call → Prop)

/-- `holds` is true of every call the program makes, and of the world it makes
it in, whatever the environment answers. -/
def CallsMeet : Program Call Answer α → World → Prop
  | .done _, _ => True
  | .call request next, world => holds world request ∧ ∀ answer after,
      env.answers world request answer after → CallsMeet (next answer) after
  | .outOfFuel, _ => True

variable {env holds}

@[simp]
theorem callsMeet_pure {value : α} {world : World} :
    CallsMeet env holds (pure value : Program Call Answer α) world :=
  trivial

@[simp]
theorem callsMeet_request {call : Call} {world : World} :
    CallsMeet env holds (request call) world ↔ holds world call :=
  ⟨fun meet => meet.1, fun now => ⟨now, fun _ _ _ => trivial⟩⟩

@[simp]
theorem callsMeet_bind {first : Program Call Answer α}
    {next : α → Program Call Answer β} {world : World} :
    CallsMeet env holds (first >>= next) world ↔
      CallsMeet env holds first world ∧
        Ensures env first world fun _ value after =>
          CallsMeet env holds (next value) after := by
  constructor
  · intro meet
    constructor
    · induction first generalizing world with
      | done => trivial
      | call request rest ih =>
          exact ⟨meet.1, fun answer after answered =>
            ih answer (meet.2 answer after answered)⟩
      | outOfFuel => trivial
    · intro trace value after runs
      induction runs with
      | done => exact meet
      | call answer answered _ ih => exact ih (meet.2 answer _ answered)
  · rintro ⟨firstMeets, nextMeets⟩
    induction first generalizing world with
    | done value => exact nextMeets _ _ _ (.done _ _)
    | call request rest ih =>
        refine ⟨firstMeets.1, fun answer after answered => ?_⟩
        apply ih answer (firstMeets.2 answer after answered)
        intro trace value last runs
        exact nextMeets _ _ _ (.call answer answered runs)
    | outOfFuel => trivial

end MetCalls

section IssuedCalls

/-- Whatever the answers, the program makes only calls that `allowed` admits. -/
def Issues (allowed : Call → Prop) : Program Call Answer α → Prop
  | .done _ => True
  | .call request next => allowed request ∧ ∀ answer, Issues allowed (next answer)
  | .outOfFuel => True

variable {allowed : Call → Prop} {env : Environment Answer World}

@[simp]
theorem issues_pure {value : α} :
    Issues allowed (pure value : Program Call Answer α) :=
  trivial

@[simp]
theorem issues_request {call : Call} :
    Issues allowed (request call : Program Call Answer _) ↔ allowed call :=
  ⟨fun issues => issues.1, fun holds => ⟨holds, fun _ => trivial⟩⟩

theorem Issues.bind {first : Program Call Answer α}
    {next : α → Program Call Answer β} (firstIssues : Issues allowed first)
    (nextIssues : ∀ value, Issues allowed (next value)) :
    Issues allowed (first >>= next) := by
  induction first with
  | done value => exact nextIssues value
  | call request rest ih =>
      exact ⟨firstIssues.1, fun answer => ih answer (firstIssues.2 answer)⟩
  | outOfFuel => trivial

theorem Issues.mono {weaker : Call → Prop} {program : Program Call Answer α}
    (issues : Issues allowed program)
    (weaken : ∀ call, allowed call → weaker call) : Issues weaker program := by
  induction program with
  | done => trivial
  | call request next ih =>
      exact ⟨weaken request issues.1, fun answer => ih answer (issues.2 answer)⟩
  | outOfFuel => trivial

theorem issues_loop {body : σ → Program Call Answer (LoopStep σ α)}
    (bodyIssues : ∀ state, Issues allowed (body state)) (fuel : Nat)
    (state : σ) : Issues allowed (loop body fuel state) := by
  induction fuel generalizing state with
  | zero => trivial
  | succ fuel ih =>
      apply (bodyIssues state).bind
      rintro (next | value)
      · exact ih next
      · trivial

/-- A program that makes none but harmless calls. -/
theorem Issues.callsMeet {holds : World → Call → Prop}
    {program : Program Call Answer α} {world : World}
    (issues : Issues allowed program)
    (harmless : ∀ world call, allowed call → holds world call) :
    CallsMeet env holds program world := by
  induction program generalizing world with
  | done => trivial
  | call request next ih =>
      exact ⟨harmless world request issues.1, fun answer _ _ =>
        ih answer (issues.2 answer)⟩
  | outOfFuel => trivial

/-- Everything a run did was allowed. -/
theorem Runs.issued {program : Program Call Answer α} {before after : World}
    {trace : List (Event Answer)} {value : α}
    (runs : Runs env program before trace value after)
    (issues : Issues allowed program) :
    ∀ event ∈ trace, allowed event.call := by
  induction runs with
  | done => simp
  | call answer _ _ ih =>
      intro event member
      rcases List.mem_cons.mp member with rfl | later
      · exact issues.1
      · exact ih (issues.2 answer) event later

/-- The frame rule: what none of the calls of a run changes, the run does not
change. -/
theorem Runs.frame (part : World → β)
    (keeps : ∀ world call answer after, allowed call →
      env.answers world call answer after → part after = part world)
    {program : Program Call Answer α} {before after : World}
    {trace : List (Event Answer)} {value : α}
    (runs : Runs env program before trace value after)
    (issued : ∀ event ∈ trace, allowed event.call) :
    part after = part before := by
  induction runs with
  | done => rfl
  | call answer answered _ ih =>
      have later := ih fun event member =>
        issued event (List.mem_cons_of_mem _ member)
      have now := issued ⟨_, answer⟩ List.mem_cons_self
      exact later.trans (keeps _ _ _ _ now answered)

end IssuedCalls

end Program

end ExternalCalls

end SzpiSta
