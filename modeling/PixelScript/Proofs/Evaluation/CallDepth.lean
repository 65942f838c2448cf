import PixelScript.Proofs.Evaluation.Ownership
import PixelScript.Proofs.Evaluation.Plans
import PixelScript.Proofs.Machine.Resolution

/-! The call depth. It counts the closures whose bodies are being evaluated, however they
came to be called, and comes back to what it was whenever an evaluation ends. The limit is
looked at in one place only, before anything is done for a call. -/
namespace PixelScript
open Evaluation

variable {α β : Type} {allowed : Fault.Cause → Prop}

/-- An end at a call depth, with a fault only of an allowed cause. -/
def Outcome.Steady (allowed : Fault.Cause → Prop) (depth : Nat) : Outcome α → Prop
  | .value _ after => after.callDepth = depth
  | .fault problem after => after.callDepth = depth ∧ allowed problem.cause
  | .outOfFuel => True

/-- A computation that ends at the call depth where it started. -/
def Eval.Steady (allowed : Fault.Cause → Prop) (action : Eval α) : Prop :=
  ∀ machine, (action machine).Steady allowed machine.callDepth

theorem Outcome.Steady.of_machine? {outcome : Outcome α} {depth : Nat} {after : Machine}
    (steady : outcome.Steady allowed depth) (left : outcome.machine? = some after) :
    after.callDepth = depth := by
  cases outcome with
  | value result machine =>
    obtain rfl := Option.some.inj left
    exact steady
  | fault fault machine =>
    obtain rfl := Option.some.inj left
    exact steady.1
  | outOfFuel => contradiction

/-- An end with a fault of a cause. -/
def Outcome.FailsWith (cause : Fault.Cause) : Outcome α → Prop
  | .fault problem _ => problem.cause = cause
  | _ => False

theorem Eval.bind_failsWith {first : Eval α} {next : α → Eval β} {machine : Machine}
    {cause : Fault.Cause} (failed : (first machine).FailsWith cause) :
    ((first >>= next) machine).FailsWith cause := by
  simp only [Bind.bind, Eval.bind]
  cases outcome : first machine with
  | fault problem after =>
    rw [outcome] at failed
    exact failed
  | value | outOfFuel =>
    rw [outcome] at failed
    contradiction

namespace Eval.Steady

theorem value {action : Eval α} {machine after : Machine} {result : α}
    (steady : Steady allowed action) (ran : action machine = .value result after) :
    after.callDepth = machine.callDepth := by
  have ended := steady machine
  rwa [ran] at ended

theorem pure (result : α) : Steady allowed (Pure.pure result : Eval α) :=
  fun _ => rfl

theorem fail {cause : Fault.Cause} (fine : allowed cause) :
    Steady allowed (Eval.fail cause : Eval α) :=
  fun _ => ⟨rfl, fine⟩

theorem failAt (span : Span) {cause : Fault.Cause} (fine : allowed cause) :
    Steady allowed (Eval.failAt span cause : Eval α) :=
  fun _ => ⟨rfl, fine⟩

theorem read (view : Machine → α) : Steady allowed (Eval.read view) :=
  fun _ => rfl

theorem modify {change : Machine → Machine}
    (kept : ∀ machine, (change machine).callDepth = machine.callDepth) :
    Steady allowed (Eval.modify change) :=
  kept

theorem modifyGet {change : Machine → α × Machine}
    (kept : ∀ machine, (change machine).2.callDepth = machine.callDepth) :
    Steady allowed (Eval.modifyGet change) :=
  kept

theorem assign (scope : Scope) (name : String) (value : Value) :
    Steady allowed (Eval.attempt (·.assign? scope name value)) := by
  intro machine
  simp only [Eval.attempt]
  cases assigned : machine.assign? scope name value with
  | none => rfl
  | some after =>
    obtain ⟨frame, _, _, _, rfl⟩ := Machine.exists_of_assign? assigned
    rfl

theorem bind {first : Eval α} {next : α → Eval β} (head : Steady allowed first)
    (tail : ∀ result, Steady allowed (next result)) : Steady allowed (first >>= next) := by
  intro machine
  have ended := head machine
  simp only [Bind.bind, Eval.bind]
  cases outcome : first machine with
  | value result between =>
    rw [outcome] at ended
    have later := tail result between
    rwa [show between.callDepth = machine.callDepth from ended] at later
  | fault fault between =>
    rw [outcome] at ended
    exact ended
  | outOfFuel => trivial

theorem within {action : Eval α} (span : Span) (inner : Steady allowed action) :
    Steady allowed (Eval.within span action) := by
  intro machine
  have ended := inner machine
  simp only [Eval.within]
  cases outcome : action machine with
  | value | fault =>
    rw [outcome] at ended
    exact ended
  | outOfFuel => trivial

theorem deeper {action : Eval α} (inner : Steady allowed action) :
    Steady allowed (Eval.deeper action) := by
  intro machine
  have ended := inner { machine with callDepth := machine.callDepth + 1 }
  simp only [Eval.deeper]
  cases outcome : action { machine with callDepth := machine.callDepth + 1 } with
  | value result between =>
    rw [outcome] at ended
    exact Nat.sub_eq_of_eq_add ended
  | fault fault between =>
    rw [outcome] at ended
    exact ⟨Nat.sub_eq_of_eq_add ended.1, ended.2⟩
  | outOfFuel => trivial

theorem weaken {action : Eval α} (steady : Steady allowed action) :
    Steady (fun _ => True) action := by
  intro machine
  have ended := steady machine
  cases outcome : action machine with
  | value result after =>
    rw [outcome] at ended
    exact ended
  | fault fault after =>
    rw [outcome] at ended
    exact ⟨ended.1, trivial⟩
  | outOfFuel => trivial

end Eval.Steady

theorem Eval.Checks.steady {action : Eval α} {fact : α → Prop} (checks : action.Checks fact) :
    action.Steady Fault.Cause.Common := by
  obtain ⟨result, _, rfl⟩ | ⟨_, _, _, _, rfl⟩ := checks
  · exact .pure result
  · exact .fail trivial

/-- Ready-made functions leave the call depth alone. -/
theorem Native.Leaves.callDepth_eq {limits : Limits} {receiver : Option Value} {args : List Value}
    {machine after : Machine} {function : Native} {result : Value}
    (leaves : function.Leaves limits receiver args machine result after) :
    after.callDepth = machine.callDepth := by
  cases leaves with
  | print rest | registerMethod _ _ _ _ _ rest => rw [rest]
  | fillCanvas _ _ changed | setPixel _ _ _ _ _ _ _ changed => rw [changed.rest]
  | _ => rfl

theorem Eval.Steady.of_tidy {action : Eval Value} {limits : Limits} {receiver : Option Value}
    {args : List Value} {function : Native}
    (tidy : ∀ machine, (action machine).Tidy machine
      (function.Leaves limits receiver args machine)) : action.Steady Fault.Cause.Common := by
  intro machine
  have ended := tidy machine
  cases outcome : action machine with
  | value result after =>
    rw [outcome] at ended
    exact Native.Leaves.callDepth_eq ended
  | fault raised after =>
    rw [outcome] at ended
    exact ⟨congrArg Machine.callDepth ended.1, ended.2⟩
  | outOfFuel => trivial

theorem Machine.define_callDepth (machine : Machine) (scope : Scope) (name : String)
    (value : Value) : (machine.define scope name value).callDepth = machine.callDepth := by
  cases scope <;> rfl

theorem Machine.advanceIterator_callDepth (machine : Machine) (id : IteratorId) :
    (machine.advanceIterator id).2.callDepth = machine.callDepth := by
  unfold advanceIterator
  split <;> rfl

/-- A plan whose own steps leave the call depth alone. -/
def Plan.Plain : Plan α → Prop
  | done _ => True
  | act action next => action.Steady Fault.Cause.Common ∧ ∀ result, (next result).Plain
  | job _ next => ∀ result, (next result).Plain

namespace Job

theorem planExpr_plain (scope : Scope) (value : Expr) : (planExpr scope value).Plain := by
  cases value with
  | number | string | boolean | null => trivial
  | identifier =>
    refine ⟨.read _, fun found => ?_⟩
    cases found with
    | some => trivial
    | none => exact ⟨.fail trivial, fun _ => trivial⟩
  | function | trailingBlock => exact ⟨.modifyGet fun _ => rfl, fun _ => trivial⟩
  | block => exact fun _ => trivial
  | call =>
    intro callee
    dsimp only
    split
    · exact fun _ _ => trivial
    · exact ⟨.fail trivial, fun _ => trivial⟩
  | methodCall | operation => exact fun _ _ _ => trivial
  | conditional condition thenBranch elseBranch =>
    intro test
    dsimp only
    split
    · exact fun _ => trivial
    · cases elseBranch with
      | none => trivial
      | some => exact fun _ => trivial

theorem planStmt_plain (scope : Scope) (stmt : Stmt) : (planStmt scope stmt).Plain := by
  cases stmt with
  | declare name value =>
    have bound (value : Value) : Plan.Plain
        (.act (Eval.modify (·.define scope name value)) fun _ => .done value) :=
      ⟨.modify fun machine => machine.define_callDepth scope name value, fun _ => trivial⟩
    cases value with
    | function => exact ⟨.modifyGet fun _ => rfl, bound⟩
    | _ => exact bound
  | assign =>
    intro value
    refine ⟨.assign _ _ _, fun assigned => ?_⟩
    cases assigned with
    | true => trivial
    | false => exact ⟨.fail trivial, fun _ => trivial⟩
  | forEach =>
    intro iterable
    cases iterable with
    | iterator => exact ⟨.modifyGet fun _ => rfl, fun _ _ => trivial⟩
    | _ => exact ⟨.failAt _ trivial, fun _ => trivial⟩
  | expr => exact fun _ => trivial

theorem planCall_plain (limits : Limits) (receiver : Option Value) (args : List Value)
    (callee : Value) : (planCall limits receiver args callee).Plain := by
  cases callee with
  | native function =>
    cases function with
    | whileLoop =>
      exact ⟨argumentAs_checks.steady, fun _ => ⟨argumentAs_checks.steady, fun _ _ => trivial⟩⟩
    | global function =>
      exact ⟨.of_tidy (function.apply_tidy limits receiver args), fun _ => trivial⟩
    | builtin method =>
      exact ⟨.of_tidy (method.apply_tidy limits receiver args), fun _ => trivial⟩
  | closure => exact fun _ => trivial
  | _ => exact ⟨.fail trivial, fun _ => trivial⟩

theorem plan_plain (limits : Limits) (job : Job α) : (job.plan limits α).Plain := by
  cases job with
  | expression scope value => exact planExpr_plain scope value
  | arguments scope values =>
    cases values with
    | nil => trivial
    | cons => exact fun _ _ => trivial
  | block scope body =>
    simp only [plan]
    split
    · exact fun _ => trivial
    · exact ⟨.modifyGet fun _ => rfl, fun _ _ => trivial⟩
  | statements scope stmts last =>
    cases stmts with
    | nil => trivial
    | cons => exact fun _ _ => trivial
  | statement scope stmt => exact planStmt_plain scope stmt
  | rounds scope binding id body last =>
    refine ⟨.modifyGet fun machine => machine.advanceIterator_callDepth id, fun next => ?_⟩
    cases next with
    | none => trivial
    | some => exact ⟨.modify fun machine => machine.define_callDepth .., fun _ _ _ => trivial⟩
  | send receiver name args =>
    refine ⟨.read _, fun found => ?_⟩
    cases found with
    | some => exact fun _ => trivial
    | none => exact ⟨.fail trivial, fun _ => trivial⟩
  | call callee receiver args => exact planCall_plain limits receiver args callee
  | enter id receiver args =>
    refine ⟨.read _, fun found => ?_⟩
    cases found with
    | some => exact ⟨.modifyGet fun _ => rfl, fun _ _ => trivial⟩
    | none => exact ⟨.fail trivial, fun _ => trivial⟩
  | loop condition body last =>
    intro test
    dsimp only
    split
    · exact fun _ _ => trivial
    · trivial

end Job

section Plans

variable {jobs : ∀ β, Job β → Eval β} {plan : Plan α} {limits : Limits} {fuel : Nat}

theorem Plan.Plain.steady (plain : plan.Plain)
    (balanced : ∀ β (part : Job β), (jobs β part).Steady fun _ => True) :
    (plan.run jobs).Steady fun _ => True := by
  induction plan with
  | done result => exact .pure result
  | act action next ih => exact .bind plain.1.weaken fun result => ih result (plain.2 result)
  | job part next ih => exact .bind (balanced _ part) fun result => ih result (plain result)

theorem Job.frame_steady (job : Job α) {action : Eval α} (inner : action.Steady fun _ => True) :
    (job.frame limits α action).Steady fun _ => True := by
  cases job with
  | expression | statement => exact .within _ inner
  | enter =>
    refine .bind (.read _) fun depth => ?_
    split
    · exact .fail trivial
    · exact .deeper inner
  | _ => exact inner

/-- Every evaluation ends at the call depth where it started, with a value or a fault. -/
theorem Job.run_steady (limits : Limits) (fuel : Nat) (job : Job α) :
    (job.run limits fuel α).Steady fun _ => True := by
  induction fuel generalizing α with
  | zero =>
    rw [Job.run_zero]
    exact fun _ => trivial
  | succ fuel ih =>
    rw [Job.run_succ]
    exact job.frame_steady ((job.plan_plain limits).steady fun _ part => ih part)

/-- Between its steps, a plan does not move the call depth. -/
theorem Plan.Asks.callDepth_eq {part : Job β} {machine machine' : Machine}
    (asks : plan.Asks (Job.run limits fuel) machine part machine') (plain : plan.Plain) :
    machine'.callDepth = machine.callDepth := by
  induction asks with
  | here => rfl
  | act ran _ ih => exact (ih (plain.2 _)).trans (plain.1.value ran)
  | job ran _ ih => exact (ih (plain _)).trans ((Job.run_steady limits fuel _).value ran)

/-- A fault of what a plan asks for is the fault of the plan. -/
theorem Plan.Asks.failsWith {part : Job β} {machine machine' : Machine} {cause : Fault.Cause}
    (asks : plan.Asks jobs machine part machine')
    (failed : (jobs β part machine').FailsWith cause) :
    (plan.run jobs machine).FailsWith cause := by
  induction asks with
  | here => exact Eval.bind_failsWith failed
  | act ran _ ih | job ran _ ih =>
    simp only [Plan.run, Bind.bind, Eval.bind, ran]
    exact ih failed

/-- Faults about the call depth come from what a plan asks for. -/
theorem Plan.Plain.exists_asks (plain : plan.Plain) {machine : Machine} {limit : Nat}
    (failed : (plan.run jobs machine).FailsWith (.stackOverflow limit)) :
    ∃ (β : Type) (part : Job β) (machine' : Machine), plan.Asks jobs machine part machine' ∧
      (jobs β part machine').FailsWith (.stackOverflow limit) := by
  induction plan generalizing machine with
  | done result => contradiction
  | act action next ih =>
    simp only [Plan.run, Bind.bind, Eval.bind] at failed
    cases outcome : action machine with
    | value result between =>
      rw [outcome] at failed
      obtain ⟨_, part, machine', asks, fails⟩ := ih result (plain.2 result) failed
      exact ⟨_, part, machine', .act outcome asks, fails⟩
    | fault problem between =>
      have ended := plain.1 machine
      rw [outcome] at failed ended
      have common := ended.2
      rw [show problem.cause = _ from failed] at common
      exact common.elim
    | outOfFuel =>
      rw [outcome] at failed
      contradiction
  | job first next ih =>
    simp only [Plan.run, Bind.bind, Eval.bind] at failed
    cases outcome : jobs _ first machine with
    | value result between =>
      rw [outcome] at failed
      obtain ⟨_, part, machine', asks, fails⟩ := ih result (plain result) failed
      exact ⟨_, part, machine', .job outcome asks, fails⟩
    | fault problem between =>
      rw [outcome] at failed
      refine ⟨_, first, machine, .here, ?_⟩
      rw [outcome]
      exact failed
    | outOfFuel =>
      rw [outcome] at failed
      contradiction

end Plans

namespace Job

variable {limits : Limits} {machine : Machine}

theorem inner_callDepth (job : Job α) (machine : Machine) :
    (job.inner machine α).callDepth = machine.callDepth + job.bodies α := by
  cases job <;> rfl

theorem Admits.inner_le {job : Job α} (admits : job.Admits limits machine α)
    (bound : machine.callDepth ≤ limits.maxCallDepth) :
    (job.inner machine α).callDepth ≤ limits.maxCallDepth := by
  cases job with
  | enter => exact admits
  | _ => exact bound

theorem within_failsWith (span : Span) (action : Eval α) {cause : Fault.Cause} :
    (Eval.within span action machine).FailsWith cause ↔ (action machine).FailsWith cause := by
  rw [Eval.within]
  cases action machine <;> exact Iff.rfl

/-- The frame of a job that is admitted passes faults on, at most with another span. -/
theorem frame_failsWith (job : Job α) {action : Eval α} {cause : Fault.Cause}
    (admits : job.Admits limits machine α) :
    (job.frame limits α action machine).FailsWith cause ↔
      (action (job.inner machine α)).FailsWith cause := by
  cases job with
  | expression | statement => exact within_failsWith _ action
  | enter =>
    have room : ¬ limits.maxCallDepth ≤ machine.callDepth := Nat.not_le.mpr admits
    simp only [frame, inner, Bind.bind, Eval.bind, Eval.read, if_neg room, Eval.deeper]
    cases action { machine with callDepth := machine.callDepth + 1 } <;> exact Iff.rfl
  | _ => exact Iff.rfl

/-- Without room for a call, nothing happens but the fault. -/
theorem run_enter_full (fuel : Nat) (id : ClosureId) (receiver : Option Value)
    (args : List Value) (full : limits.maxCallDepth ≤ machine.callDepth) :
    (enter id receiver args).run limits (fuel + 1) _ machine =
      .fault ⟨.stackOverflow limits.maxCallDepth, none⟩ machine := by
  rw [run_succ]
  simp only [frame, Bind.bind, Eval.bind, Eval.read, if_pos full]
  rfl

end Job

namespace During

variable {limits : Limits} {fuel fuel' bodies : Nat} {machine machine' : Machine} {job : Job α}
  {part : Job β}

/-- The call depth is that of the start and one more for every body that has been entered. -/
theorem callDepth_eq (during : During limits job fuel machine part fuel' machine' bodies) :
    machine'.callDepth = machine.callDepth + bodies := by
  induction during with
  | here => rfl
  | inside _ asks _ ih =>
    rw [ih, asks.callDepth_eq (Job.plan_plain limits _), Job.inner_callDepth, Nat.add_assoc]

theorem callDepth_le (during : During limits job fuel machine part fuel' machine' bodies)
    (bound : machine.callDepth ≤ limits.maxCallDepth) :
    machine'.callDepth ≤ limits.maxCallDepth := by
  induction during with
  | here => exact bound
  | inside admits asks _ ih =>
    apply ih
    rw [asks.callDepth_eq (Job.plan_plain limits _)]
    exact Job.Admits.inner_le admits bound

theorem failsWith (during : During limits job fuel machine part fuel' machine' bodies)
    {cause : Fault.Cause} (failed : (part.run limits fuel' β machine').FailsWith cause) :
    (job.run limits fuel α machine).FailsWith cause := by
  induction during with
  | here => exact failed
  | inside admits asks _ ih =>
    rw [Job.run_succ, Job.frame_failsWith _ admits]
    exact asks.failsWith (ih failed)

end During

/-- A fault about the call depth is that of a call for which there is no room. -/
theorem Job.exists_during {limits : Limits} {fuel limit : Nat} {machine : Machine} {job : Job α}
    (failed : (job.run limits fuel α machine).FailsWith (.stackOverflow limit)) :
    ∃ id receiver args fuel' machine' bodies,
      During limits job fuel machine (.enter id receiver args) (fuel' + 1) machine' bodies ∧
      limits.maxCallDepth ≤ machine'.callDepth ∧ limit = limits.maxCallDepth := by
  induction fuel generalizing α machine with
  | zero =>
    rw [Job.run_zero] at failed
    contradiction
  | succ fuel ih =>
    by_cases admits : job.Admits limits machine α
    · rw [Job.run_succ, Job.frame_failsWith _ admits] at failed
      obtain ⟨_, part, between, asks, fails⟩ := (job.plan_plain limits).exists_asks failed
      obtain ⟨id, receiver, args, fuel', machine', bodies, during, full⟩ := ih fails
      exact ⟨id, receiver, args, fuel', machine', _, .inside admits asks during, full⟩
    · cases job with
      | enter id receiver args =>
        have full : limits.maxCallDepth ≤ machine.callDepth := Nat.not_lt.mp admits
        rw [Job.run_enter_full fuel id receiver args full] at failed
        cases failed
        exact ⟨id, receiver, args, fuel, machine, 0, .here, full, rfl⟩
      | _ => exact absurd trivial admits

/-- The call depth is exact. In a run that starts outside of all calls, it is at every moment
the number of closures whose bodies are being evaluated, it never exceeds the limit, and
every evaluation ends at the depth where it started. The run overflows just when it comes to
a call at full depth, and this call does nothing else. -/
theorem Job.callDepth_exact (limits : Limits) (fuel : Nat) (machine : Machine) (job : Job α)
    (outside : machine.callDepth = 0) :
    (∀ (β : Type) (part : Job β) fuel' machine' bodies,
      During limits job fuel machine part fuel' machine' bodies →
      machine'.callDepth = bodies ∧ bodies ≤ limits.maxCallDepth ∧
      ∀ after, (part.run limits fuel' β machine').machine? = some after →
        after.callDepth = bodies) ∧
    (∀ limit, (job.run limits fuel α machine).FailsWith (.stackOverflow limit) ↔
      limit = limits.maxCallDepth ∧ ∃ id receiver args fuel' machine',
        During limits job fuel machine (.enter id receiver args) (fuel' + 1) machine'
          limits.maxCallDepth) ∧
    ∀ id receiver args fuel' machine',
      During limits job fuel machine (.enter id receiver args) (fuel' + 1) machine'
        limits.maxCallDepth →
      (Job.enter id receiver args).run limits (fuel' + 1) Value machine' =
        .fault ⟨.stackOverflow limits.maxCallDepth, none⟩ machine' ∧
      ∀ (β : Type) (part : Job β) later machine'' bodies,
        During limits (.enter id receiver args) (fuel' + 1) machine' part later machine'' bodies →
        later = fuel' + 1 := by
  have bound : machine.callDepth ≤ limits.maxCallDepth := outside ▸ Nat.zero_le _
  have counted {β : Type} {part : Job β} {fuel' : Nat} {machine' : Machine} {bodies : Nat}
      (during : During limits job fuel machine part fuel' machine' bodies) :
      machine'.callDepth = bodies := by
    rw [during.callDepth_eq, outside, Nat.zero_add]
  refine ⟨?_, ?_, ?_⟩
  · intro β part fuel' machine' bodies during
    have depth := counted during
    refine ⟨depth, depth ▸ during.callDepth_le bound, fun after left => ?_⟩
    exact ((part.run_steady limits fuel' machine').of_machine? left).trans depth
  · intro limit
    constructor
    · intro failed
      obtain ⟨id, receiver, args, fuel', machine', bodies, during, full, rfl⟩ :=
        Job.exists_during failed
      have depth : bodies = limits.maxCallDepth := by
        rw [← counted during]
        exact le_antisymm (during.callDepth_le bound) full
      exact ⟨rfl, id, receiver, args, fuel', machine', depth ▸ during⟩
    · rintro ⟨rfl, id, receiver, args, fuel', machine', during⟩
      refine during.failsWith ?_
      rw [Job.run_enter_full fuel' id receiver args (counted during).ge]
      rfl
  · intro id receiver args fuel' machine' during
    have full := (counted during).ge
    refine ⟨Job.run_enter_full fuel' id receiver args full, ?_⟩
    intro β part later machine'' bodies inside
    cases inside with
    | here => rfl
    | inside admits => exact absurd admits (Nat.not_lt.mpr full)

/-- A function that calls itself, with room for one call: the second call overflows, and
its body is not evaluated. -/
theorem Job.callDepth_exact_recursion :
    let place := Span.point 0
    let body : Block := .mk [.expr (.call (.identifier "f" place) [] place) place] true place
    let machine : Machine :=
      { Machine.empty true with
        frames := #[[("f", .closure 0)]]
        closures := #[⟨[], body, [0], none⟩] }
    let limits : Limits := { maxCallDepth := 1 }
    machine.callDepth = 0 ∧
      ((Job.call (.closure 0) none []).run limits 9 Value machine).FailsWith (.stackOverflow 1) ∧
      ∃ id receiver args fuel' machine', During limits (.call (.closure 0) none []) 9 machine
        (.enter id receiver args) (fuel' + 1) machine' 1 ∧ machine'.callDepth = 1 ∧
        (Job.enter id receiver args).run limits (fuel' + 1) Value machine' =
          .fault ⟨.stackOverflow 1, none⟩ machine' := by
  intro place body machine limits
  have failed : ((Job.call (.closure 0) none []).run limits 9 Value machine).FailsWith
      (.stackOverflow 1) := rfl
  obtain ⟨depths, overflows, stops⟩ :=
    Job.callDepth_exact limits 9 machine (.call (.closure 0) none []) rfl
  obtain ⟨_, id, receiver, args, fuel', machine', during⟩ := (overflows 1).mp failed
  exact ⟨rfl, failed, id, receiver, args, fuel', machine', during, (depths _ _ _ _ _ during).1,
    (stops id receiver args fuel' machine' during).1⟩

end PixelScript
