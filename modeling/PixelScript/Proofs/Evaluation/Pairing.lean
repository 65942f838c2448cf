import PixelScript.Proofs.Evaluation.ReadyMade
import PixelScript.Proofs.Machine.Resolution

/-! Jobs in two runs. If what jobs are about goes together, the runs do; this is the only place
where evaluation is followed through all of its plans, and it is done by induction on fuel. -/
namespace PixelScript

variable {α β γ δ : Type}

/-- Whether a statement binds a name in the scope that it runs in. -/
def Stmt.Binds (name : String) (stmt : Stmt) : Prop :=
  ∃ value span, stmt = .declare name value span

/-- What a job asks for weighs less, unless it goes round in a loop or calls a closure. -/
noncomputable def Job.weight : (α : Type) → Job α → Nat
  | _, expression _ value => sizeOf value + 3
  | _, arguments _ values => sizeOf values + 3
  | _, block _ body => sizeOf body + 3
  | _, statements _ stmts _ => sizeOf stmts + 3
  | _, statement _ stmt => sizeOf stmt + 3
  | _, rounds .. | _, send .. => 3
  | _, call .. => 2
  | _, enter .. | _, loop .. => 1

namespace Evaluation

/-- Parameters that are bound stay bound. -/
theorem isSome_bindParameters {names : List String} {args : List Value} {bindings : Bindings}
    (bound : name ∈ names ∨ (bindings.get? name).isSome = true) :
    ((bindParameters names args bindings).get? name).isSome = true := by
  induction names generalizing args bindings with
  | nil =>
    rcases bound with none | bound
    · contradiction
    · exact bound
  | cons first names ih =>
    refine ih ?_
    rw [Table.get?_insert]
    rcases bound with member | bound
    · rcases List.mem_cons.mp member with rfl | member
      · exact .inr (by simp)
      · exact .inl member
    · right
      split
      · rfl
      · exact bound

end Evaluation

open Evaluation

namespace Job

variable {scope : Scope}

theorem planExpr_literal {value : Expr} (literal : value.literal? = some (params, body)) :
    planExpr scope value = .act (makeClosure scope params body none) .done := by
  cases value <;> simp_all [Expr.literal?, planExpr]

theorem planStmt_declare {value : Expr} (plain : value.isFunction = false) :
    planStmt scope (.declare name value span) = .job (.expression scope value) fun value =>
      .act (Eval.modify (·.define scope name value)) fun _ => .done value := by
  cases value with
  | function => contradiction
  | _ => rfl

/-- A single argument is evaluated one step further down than an operand. -/
theorem run_singleton (limits : Limits) (fuel : Nat) (value : Expr) :
    run limits (fuel + 2) _ (arguments scope [value]) =
      run limits (fuel + 1) _ (expression scope value) >>= fun result => pure [result] := by
  rw [run_succ]
  refine bind_congr fun result => ?_
  simp only [Plan.run, run_succ]
  rfl

end Job

namespace Coupling

variable (link : Coupling)

/-- Jobs that go together, what they are done for, and what their results have to do with each
other. -/
inductive Pairs (world : link.World) :
    Duty → {α β : Type} → (link.World → α → β → Prop) → Job α → Job β → Prop
  | expression (scopes : link.scopes world mode scope scope')
      (code : link.code mode (.expr value) (.expr value')) :
      Pairs world .settled link.Values (.expression scope value) (.expression scope' value')
  | arguments (scopes : link.scopes world mode scope scope')
      (code : link.code mode (.args values) (.args values')) :
      Pairs world .settled link.Arguments (.arguments scope values) (.arguments scope' values')
  /-- An operand that is the argument of a method in the other run. -/
  | operand (slower : 2 ≤ link.pace) (scopes : link.scopes world mode scope scope')
      (code : link.code mode (.expr value) (.expr value')) :
      Pairs world .settled (fun later result results' => link.Arguments later [result] results')
        (.expression scope value) (.arguments scope' [value'])
  | operands (slower : 2 ≤ link.pace) (scopes : link.scopes world mode scope scope')
      (code : link.code mode (.expr value) (.expr value')) :
      Pairs world .settled (fun later results result' => link.Arguments later results [result'])
        (.arguments scope [value]) (.expression scope' value')
  | block (scopes : link.scopes world mode scope scope')
      (code : link.code mode (.block body) (.block body'))
      (owned : body.isFunctionBody = true → ∀ name, link.binds world scope name) :
      Pairs world .settled link.Values (.block scope body) (.block scope' body')
  | statements (scopes : link.scopes world mode scope scope')
      (code : link.code mode (.stmts stmts) (.stmts stmts'))
      (owned : ∀ stmt ∈ stmts, ∀ name, stmt.Binds name → link.binds world scope name)
      (last : link.Values world result result') :
      Pairs world .settled link.Values (.statements scope stmts result)
        (.statements scope' stmts' result')
  | statement (scopes : link.scopes world mode scope scope')
      (code : link.code mode (.stmt stmt) (.stmt stmt'))
      (owned : ∀ name, stmt.Binds name → link.binds world scope name) :
      Pairs world .settled link.Values (.statement scope stmt) (.statement scope' stmt')
  | rounds {id id' : IteratorId} (loops : link.loops) (scopes : link.scopes world mode scope scope')
      (name : link.names mode x x') (iterator : (link.cells world).iterators id id')
      (code : link.code mode (.block body) (.block body'))
      (owned : ∀ name, link.binds world scope name) (last : link.Values world result result') :
      Pairs world .settled link.Values (.rounds scope x id body result)
        (.rounds scope' x' id' body' result')
  | send (name : String) (receiver : link.Values world value value')
      (given : link.Arguments world args args') :
      Pairs world (.send name) link.Values (.send value name args) (.send value' name args')
  | call (within : Duty.Within .call duty) (callee : link.Callee world duty value value')
      (receivers : Option.Rel (link.Values world) receiver receiver')
      (given : link.Arguments world args args') :
      Pairs world duty link.Values (.call value receiver args) (.call value' receiver' args')
  | enter {id id' : ClosureId} (closure : (link.cells world).closures id id')
      (receivers : Option.Rel (link.Values world) receiver receiver')
      (given : link.Arguments world args args') :
      Pairs world .call link.Values (.enter id receiver args) (.enter id' receiver' args')
  | loop (loops : link.loops) (condition : link.Callee world .call test test')
      (body : link.Callee world .call action action') (last : link.Values world result result') :
      Pairs world .call link.Values (.loop test action result) (.loop test' action' result')

/-- With so much fuel, jobs that go together are done alike from here on. -/
structure Supports (world : link.World) (weight fuel fuel' : Nat) : Prop where
  tracks : ∀ {later : link.World} {duty : Duty} {α β : Type} {good : link.World → α → β → Prop}
    {job : Job α} {job' : Job β}, link.grown world later → link.Pairs later duty good job job' →
    job.weight < weight ∨ link.loops →
    link.Tracks later duty good (job.run link.limits fuel) (job'.run link.limits' fuel')

variable {link} {world later : link.World} {duty inner : Duty} {mode : link.Mode}
  {weight fuel fuel' : Nat}

theorem Supports.grown (worlds : link.Worlds) (supports : link.Supports world weight fuel fuel')
    (grown : link.grown world later) : link.Supports later weight fuel fuel' where
  tracks more := supports.tracks (worlds.grown_trans grown more)

theorem Callee.grown (worlds : link.Worlds) {value value' : Value}
    (callee : link.Callee world duty value value') (grown : link.grown world later) :
    link.Callee later duty value value' :=
  { callee.toUsable.grown worlds grown with refused := callee.refused }

/-! Plans that begin alike. -/

namespace Tracks

variable {good : link.World → α → β → Prop} {final : link.World → γ → δ → Prop}
  {jobs jobs' : ∀ β, Job β → Eval β}

theorem act (worlds : link.Worlds) {action : Eval α} {action' : Eval β} {next : α → Plan γ}
    {next' : β → Plan δ} (head : link.Tracks world duty good action action')
    (tail : ∀ later, link.grown world later → ∀ result result', good later result result' →
      link.Tracks later duty final ((next result).run jobs) ((next' result').run jobs')) :
    link.Tracks world duty final ((Plan.act action next).run jobs)
      ((Plan.act action' next').run jobs') :=
  head.bind worlds tail

theorem job (worlds : link.Worlds) {part : Job α} {part' : Job β} {next : α → Plan γ}
    {next' : β → Plan δ} (head : link.Tracks world duty good (jobs _ part) (jobs' _ part'))
    (tail : ∀ later, link.grown world later → ∀ result result', good later result result' →
      link.Tracks later duty final ((next result).run jobs) ((next' result').run jobs')) :
    link.Tracks world duty final ((Plan.job part next).run jobs)
      ((Plan.job part' next').run jobs') :=
  head.bind worlds tail

theorem last_act (worlds : link.Worlds) {action : Eval α} {action' : Eval β}
    (head : link.Tracks world duty good action action') :
    link.Tracks world duty good ((Plan.act action .done).run jobs)
      ((Plan.act action' .done).run jobs') :=
  head.act worlds fun _ _ _ _ fine => .pure worlds fine

theorem last_job (worlds : link.Worlds) {part : Job α} {part' : Job β}
    (head : link.Tracks world duty good (jobs _ part) (jobs' _ part')) :
    link.Tracks world duty good ((Plan.job part .done).run jobs)
      ((Plan.job part' .done).run jobs') :=
  head.job worlds fun _ _ _ _ fine => .pure worlds fine

/-! What plans do by themselves. -/

variable (lawful : link.Lawful) {scope scope' : Scope} {x x' : String}
include lawful

theorem lookup (scopes : link.scopes world mode scope scope')
    (code : link.code mode (.expr (.identifier x s)) (.expr (.identifier x' s')))
    (name : link.names mode x x') :
    link.Tracks world duty
      (fun later found found' => Option.Rel (link.Values later) found found' ∧
        (found = none → x' = x))
      (Eval.read (·.lookup? scope x)) (Eval.read (·.lookup? scope' x')) :=
  .read lawful.toWorlds fun _ _ machines => lawful.frames.lookup machines scopes code name

theorem define (scopes : link.scopes world mode scope scope') (owned : link.binds world scope x)
    (name : link.names mode x x') {value value' : Value} (same : link.Values world value value') :
    link.Same world duty (Eval.modify (·.define scope x value))
      (Eval.modify (·.define scope' x' value')) :=
  .modify lawful.toWorlds fun _ _ machines => lawful.frames.define machines scopes owned name same

theorem assign (scopes : link.scopes world mode scope scope')
    (code : link.code mode (.stmt (.assign x e s)) (.stmt (.assign x' e' s')))
    (name : link.names mode x x') {value value' : Value} (same : link.Values world value value') :
    link.Tracks world duty (fun _ done done' => done' = done ∧ (done = false → x' = x))
      (Eval.attempt (·.assign? scope x value)) (Eval.attempt (·.assign? scope' x' value')) := by
  intro machine machine' machines
  obtain ⟨assigned, unbound⟩ := lawful.frames.assign machines scopes code name same
  simp only [Eval.attempt]
  generalize machine.assign? scope x value = after,
    machine'.assign? scope' x' value' = after' at assigned unbound ⊢
  cases assigned with
  | some machines => exact .value (lawful.grown_refl world) machines ⟨rfl, by simp⟩
  | none => exact .value (lawful.grown_refl world) machines ⟨rfl, fun _ => unbound rfl⟩

theorem openScope (scopes : link.scopes world mode scope scope') {params : List String}
    {inner : link.Mode} (opens : link.opens mode params inner) {bindings bindings' : Bindings}
    (bound : ∀ param ∈ params, (bindings.get? param).isSome = true)
    (entries : Table.Related (link.names inner) (link.Values world) bindings bindings') :
    link.Tracks world duty
      (fun later opened opened' => link.scopes later inner opened opened' ∧
        ∀ name, link.binds later opened name)
      (Eval.modifyGet (·.openScope scope bindings))
      (Eval.modifyGet (·.openScope scope' bindings')) :=
  .modifyGet fun _ _ machines => lawful.frames.openScope machines scopes opens bound entries

theorem makeClosure (scopes : link.scopes world mode scope scope') {params params' : List String}
    {body body' : Block} (same : link.Literal mode (params, body) (params', body'))
    (name : Option String) :
    link.Tracks world duty link.Values (makeClosure scope params body name)
      (makeClosure scope' params' body' name) := by
  refine .modifyGet fun machine machine' machines => ?_
  obtain ⟨later, grown, after, same⟩ := lawful.functions.addClosure name machines scopes same
  exact ⟨later, grown, after, .of_handle same rfl⟩

end Tracks

section Bindings

variable (lawful : link.Lawful) {bindings bindings' : Bindings}
include lawful

theorem bindParameters_entries {params params' : List String} {args args' : List Value}
    (names : List.Forall₂ (link.names mode) params params')
    (given : link.Arguments world args args')
    (entries : Table.Related (link.names mode) (link.Values world) bindings bindings') :
    Table.Related (link.names mode) (link.Values world) (bindParameters params args bindings)
      (bindParameters params' args' bindings') := by
  induction names generalizing args args' bindings bindings' with
  | nil => exact entries
  | cons name _ ih =>
    cases given with
    | nil => exact ih .nil (entries.insert lawful.unique name .null)
    | cons first more => exact ih more (entries.insert lawful.unique name first)

theorem callBindings_entries {closure closure' : Closure}
    (names : List.Forall₂ (link.names mode) closure.params closure'.params)
    {receiver receiver' : Option Value}
    (receivers : Option.Rel (link.Values world) receiver receiver') {args args' : List Value}
    (given : link.Arguments world args args') :
    Table.Related (link.names mode) (link.Values world) (callBindings closure receiver args)
      (callBindings closure' receiver' args') := by
  refine bindParameters_entries lawful names given ?_
  cases receivers with
  | none => exact .nil
  | some same => exact .cons ⟨lawful.receiver mode, same⟩ .nil

end Bindings

/-! Plans of jobs that go together. -/

namespace Supports

theorem ask (supports : link.Supports world weight fuel fuel') (lawful : link.Lawful)
    (within : inner.Within duty) {good : link.World → α → β → Prop} {job : Job α} {job' : Job β}
    (pairs : link.Pairs world inner good job job') (smaller : job.weight < weight ∨ link.loops) :
    link.Tracks world duty good (job.run link.limits fuel) (job'.run link.limits' fuel') :=
  (supports.tracks (lawful.grown_refl world) pairs smaller).loosen lawful.faults within

theorem ask_last (supports : link.Supports world weight fuel fuel') (lawful : link.Lawful)
    (within : inner.Within duty) {good : link.World → α → β → Prop} {job : Job α} {job' : Job β}
    (pairs : link.Pairs world inner good job job') (smaller : job.weight < weight ∨ link.loops) :
    link.Tracks world duty good ((Plan.job job .done).run (Job.run link.limits fuel))
      ((Plan.job job' .done).run (Job.run link.limits' fuel')) :=
  .last_job lawful.toWorlds (supports.ask lawful within pairs smaller)

variable (lawful : link.Lawful) {scope scope' : Scope}
include lawful

theorem expression {value value' : Expr} (scopes : link.scopes world mode scope scope')
    (code : link.code mode (.expr value) (.expr value'))
    (supports : link.Supports world (sizeOf value + 3) fuel fuel') :
    link.Tracks world (.node (.expr value)) link.Values
      ((Job.planExpr scope value).run (Job.run link.limits fuel))
      ((Job.planExpr scope' value').run (Job.run link.limits' fuel')) := by
  have worlds := lawful.toWorlds
  cases lawful.matched code with
  | number => exact .number lawful _
  | string => exact .string lawful _
  | boolean => exact .boolean lawful _
  | null => exact .null lawful
  | identifier name =>
    refine .act worlds (.lookup lawful scopes code name) fun later grown found found' fine => ?_
    obtain ⟨same, unbound⟩ := fine
    cases same with
    | some usable => exact .pure worlds usable
    | none =>
      rw [unbound rfl]
      exact .last_act worlds (.fail worlds (lawful.faults.raise .read))
  | block body =>
    exact supports.ask_last lawful .settled (.block scopes body fun shared _ =>
      lawful.frames.own code (.head _) shared) (.inl (by simp +arith [Job.weight]))
  | call callee args =>
    refine .job worlds (supports.ask lawful .settled (.expression scopes callee)
      (.inl (by simp +arith [Job.weight]))) fun later grown value value' same => ?_
    have supports := supports.grown worlds grown
    have scopes := lawful.scopes_grown grown scopes
    rw [same.kind]
    by_cases callable : value.kind = .function
    · rw [if_pos callable, if_pos callable]
      refine .job worlds (supports.ask lawful .settled (.arguments scopes args)
        (.inl (by simp +arith [Job.weight]))) fun last grown values values' given => ?_
      exact (supports.grown worlds grown).ask_last lawful .callee
        (.call .refl ((same.grown worlds grown).callee callable) .none given)
        (.inl (by simp +arith [Job.weight]))
    · rw [if_neg callable, if_neg callable]
      exact .last_act worlds (.fail worlds (lawful.faults.raise .callee))
  | methodCall receiver args =>
    refine .job worlds (supports.ask lawful .settled (.expression scopes receiver)
      (.inl (by simp +arith [Job.weight]))) fun later grown value value' same => ?_
    have supports := supports.grown worlds grown
    refine .job worlds (supports.ask lawful .settled
      (.arguments (lawful.scopes_grown grown scopes) args)
      (.inl (by simp +arith [Job.weight]))) fun last grown values values' given => ?_
    exact (supports.grown worlds grown).ask_last lawful .method
      (.send _ (same.grown worlds grown) given) (.inl (by simp +arith [Job.weight]))
  | operation left right =>
    refine .job worlds (supports.ask lawful .settled (.expression scopes left)
      (.inl (by simp +arith [Job.weight]))) fun later grown value value' same => ?_
    have supports := supports.grown worlds grown
    refine .job worlds (supports.ask lawful .settled
      (.expression (lawful.scopes_grown grown scopes) right)
      (.inl (by simp +arith [Job.weight]))) fun last grown operand operand' given => ?_
    exact (supports.grown worlds grown).ask_last lawful .operator
      (.send _ (same.grown worlds grown) (.cons given .nil)) (.inl (by simp +arith [Job.weight]))
  | operationMethod slower left right =>
    refine .job worlds (supports.ask lawful .settled (.expression scopes left)
      (.inl (by simp +arith [Job.weight]))) fun later grown value value' same => ?_
    have supports := supports.grown worlds grown
    refine .job worlds (supports.ask lawful .settled
      (.operand slower (lawful.scopes_grown grown scopes) right)
      (.inl (by simp +arith [Job.weight]))) fun last grown operand operands' given => ?_
    exact (supports.grown worlds grown).ask_last lawful .operator
      (.send _ (same.grown worlds grown) given) (.inl (by simp +arith [Job.weight]))
  | methodOperation slower left right =>
    refine .job worlds (supports.ask lawful .settled (.expression scopes left)
      (.inl (by simp +arith [Job.weight]))) fun later grown value value' same => ?_
    have supports := supports.grown worlds grown
    refine .job worlds (supports.ask lawful .settled
      (.operands slower (lawful.scopes_grown grown scopes) right)
      (.inl (by simp +arith [Job.weight]))) fun last grown operands operand' given => ?_
    exact (supports.grown worlds grown).ask_last lawful .method
      (.send _ (same.grown worlds grown) given) (.inl (by simp +arith [Job.weight]))
  | conditional condition branch =>
    refine .job worlds (supports.ask lawful .settled (.expression scopes condition)
      (.inl (by simp +arith [Job.weight]))) fun later grown test test' same => ?_
    rw [same.same.isTruthy]
    split
    · exact (supports.grown worlds grown).ask_last lawful .settled
        (.block (lawful.scopes_grown grown scopes) branch fun shared _ =>
          lawful.frames.own code (.head _) shared) (.inl (by simp +arith [Job.weight]))
    · exact .null lawful
  | conditionalElse condition branch other =>
    refine .job worlds (supports.ask lawful .settled (.expression scopes condition)
      (.inl (by simp +arith [Job.weight]))) fun later grown test test' same => ?_
    have supports := supports.grown worlds grown
    have scopes := lawful.scopes_grown grown scopes
    rw [same.same.isTruthy]
    split
    · exact supports.ask_last lawful .settled (.block scopes branch fun shared _ =>
        lawful.frames.own code (.head _) shared) (.inl (by simp +arith [Job.weight]))
    · exact supports.ask_last lawful .settled (.block scopes other fun shared _ =>
        lawful.frames.own code (.tail _ (.head _)) shared) (.inl (by simp +arith [Job.weight]))
  | literal first second same =>
    rw [Job.planExpr_literal first, Job.planExpr_literal second]
    exact .last_act worlds (.makeClosure lawful scopes same none)

theorem run_expression {value value' : Expr} (scopes : link.scopes world mode scope scope')
    (code : link.code mode (.expr value) (.expr value'))
    (supports : link.Supports world (sizeOf value + 3) fuel fuel') :
    link.Tracks world .settled link.Values ((Job.expression scope value).run link.limits (fuel + 1))
      ((Job.expression scope' value').run link.limits' (fuel' + 1)) := by
  rw [Job.run_succ, Job.run_succ]
  exact .within (lawful.faults.expression code (lawful.matched code).span_expr)
    (expression lawful scopes code supports)

theorem statement {stmt stmt' : Stmt} (scopes : link.scopes world mode scope scope')
    (code : link.code mode (.stmt stmt) (.stmt stmt'))
    (owned : ∀ name, stmt.Binds name → link.binds world scope name)
    (supports : link.Supports world (sizeOf stmt + 3) fuel fuel') :
    link.Tracks world (.node (.stmt stmt)) link.Values
      ((Job.planStmt scope stmt).run (Job.run link.limits fuel))
      ((Job.planStmt scope' stmt').run (Job.run link.limits' fuel')) := by
  have worlds := lawful.toWorlds
  have bind : ∀ {later x x' value value'}, link.grown world later → stmt.Binds x →
      link.names mode x x' → link.Values later value value' →
      link.Tracks later (.node (.stmt stmt)) link.Values
        ((Plan.act (Eval.modify (·.define scope x value)) fun _ => .done value).run
          (Job.run link.limits fuel))
        ((Plan.act (Eval.modify (·.define scope' x' value')) fun _ => .done value').run
          (Job.run link.limits' fuel')) := by
    intro later x x' value value' grown binds name same
    refine .act worlds (.define lawful (lawful.scopes_grown grown scopes)
      (lawful.binds_grown grown (owned x binds)) name same) fun last grown _ _ _ => ?_
    exact .pure worlds (same.grown worlds grown)
  cases lawful.matched code with
  | declare name value plain plain' =>
    rw [Job.planStmt_declare plain, Job.planStmt_declare plain']
    exact .job worlds (supports.ask lawful .settled (.expression scopes value)
      (.inl (by simp +arith [Job.weight]))) fun later grown value value' same =>
        bind grown ⟨_, _, rfl⟩ name same
  | declareFunction name literal =>
    exact .act worlds (.makeClosure lawful scopes literal _) fun later grown value value' same =>
      bind grown ⟨_, _, rfl⟩ name same
  | assign name value =>
    refine .job worlds (supports.ask lawful .settled (.expression scopes value)
      (.inl (by simp +arith [Job.weight]))) fun later grown value value' same => ?_
    refine .act worlds (.assign lawful (lawful.scopes_grown grown scopes) code name same)
      fun last grown done done' fine => ?_
    obtain ⟨rfl, unbound⟩ := fine
    cases done' with
    | true => exact .pure worlds (same.grown worlds grown)
    | false =>
      rw [unbound rfl]
      exact .last_act worlds (.fail worlds (lawful.faults.raise .assigned))
  | forEach name iterable place body =>
    have loops := lawful.fuels.forEach code
    refine .job worlds (supports.ask lawful .settled (.expression scopes iterable) (.inr loops))
      fun later grown value value' usable => ?_
    have supports := supports.grown worlds grown
    have refused : ∀ kind, link.Tracks later (.node (.stmt (.forEach _ _ _ _))) link.Values
        ((Plan.act (Eval.failAt _ (.notIterable kind)) .done).run (Job.run link.limits fuel))
        ((Plan.act (Eval.failAt _ (.notIterable kind)) .done).run (Job.run link.limits' fuel')) :=
      fun kind => .last_act worlds (.failAt worlds (lawful.faults.iterable kind code place))
    cases usable.same with
    | iterator pair =>
      have entries : Table.Related (link.names mode) (link.Values later) [(_, .null)]
          [(_, .null)] :=
        .cons ⟨name, .null⟩ .nil
      refine .act worlds (.openScope lawful (lawful.scopes_grown grown scopes) (lawful.stays mode)
        (by simp) entries) fun last grown opened opened' fine => ?_
      exact (supports.grown worlds grown).ask_last lawful .settled
        (.rounds loops fine.1 name ((lawful.cells_grown grown).iterators _ _ pair) body fine.2
          .null) (.inr loops)
    | closure | pixelBuffer => exact refused _
    | itself plain =>
      cases value with
      | iterator => contradiction
      | _ => exact refused _
  | expression value =>
    exact supports.ask_last lawful .settled (.expression scopes value)
      (.inl (by simp +arith [Job.weight]))

theorem arguments {values values' : List Expr} (scopes : link.scopes world mode scope scope')
    (code : link.code mode (.args values) (.args values'))
    (supports : link.Supports world (sizeOf values + 3) fuel fuel') :
    link.Tracks world .settled link.Arguments
      (((Job.arguments scope values).plan link.limits).run (Job.run link.limits fuel))
      (((Job.arguments scope' values').plan link.limits').run (Job.run link.limits' fuel')) := by
  have worlds := lawful.toWorlds
  cases lawful.matched code with
  | noArgs => exact .pure worlds .nil
  | args first more =>
    refine .job worlds (supports.ask lawful .refl (.expression scopes first)
      (.inl (by simp +arith [Job.weight]))) fun later grown value value' same => ?_
    refine .job worlds ((supports.grown worlds grown).ask lawful .refl
      (.arguments (lawful.scopes_grown grown scopes) more)
      (.inl (by simp +arith [Job.weight]))) fun last grown values values' given => ?_
    exact .pure worlds (.cons (same.grown worlds grown) given)

theorem block {body body' : Block} (scopes : link.scopes world mode scope scope')
    (code : link.code mode (.block body) (.block body'))
    (owned : body.isFunctionBody = true → ∀ name, link.binds world scope name)
    (supports : link.Supports world (sizeOf body + 3) fuel fuel') :
    link.Tracks world .settled link.Values
      (((Job.block scope body).plan link.limits).run (Job.run link.limits fuel))
      (((Job.block scope' body').plan link.limits').run (Job.run link.limits' fuel')) := by
  have worlds := lawful.toWorlds
  cases lawful.matched code with
  | @body _ _ _ isFunctionBody _ _ stmts =>
    cases isFunctionBody with
    | true =>
      exact supports.ask_last lawful .refl
        (.statements scopes stmts (fun _ _ name _ => owned rfl name) .null)
        (.inl (by simp +arith [Job.weight, Block.statements]))
    | false =>
      refine .act worlds (.openScope lawful scopes (lawful.stays mode) (by simp) .nil)
        fun later grown opened opened' fine => ?_
      exact (supports.grown worlds grown).ask_last lawful .refl
        (.statements fine.1 stmts (fun _ _ name _ => fine.2 name) .null)
        (.inl (by simp +arith [Job.weight, Block.statements]))

theorem statements {stmts stmts' : List Stmt} {last last' : Value}
    (scopes : link.scopes world mode scope scope')
    (code : link.code mode (.stmts stmts) (.stmts stmts'))
    (owned : ∀ stmt ∈ stmts, ∀ name, stmt.Binds name → link.binds world scope name)
    (same : link.Values world last last')
    (supports : link.Supports world (sizeOf stmts + 3) fuel fuel') :
    link.Tracks world .settled link.Values
      (((Job.statements scope stmts last).plan link.limits).run (Job.run link.limits fuel))
      (((Job.statements scope' stmts' last').plan link.limits').run
        (Job.run link.limits' fuel')) := by
  have worlds := lawful.toWorlds
  cases lawful.matched code with
  | noStmts => exact .pure worlds same
  | stmts first more =>
    refine .job worlds (supports.ask lawful .refl
      (.statement scopes first (owned _ List.mem_cons_self))
      (.inl (by simp +arith [Job.weight]))) fun later grown value value' same => ?_
    refine (supports.grown worlds grown).ask_last lawful .refl
      (.statements (lawful.scopes_grown grown scopes) more ?_ same)
      (.inl (by simp +arith [Job.weight]))
    exact fun stmt among name binds =>
      lawful.binds_grown grown (owned stmt (.tail _ among) name binds)

theorem rounds {x x' : String} {id id' : IteratorId} {body body' : Block} {last last' : Value}
    (loops : link.loops) (scopes : link.scopes world mode scope scope')
    (name : link.names mode x x') (iterator : (link.cells world).iterators id id')
    (code : link.code mode (.block body) (.block body'))
    (owned : ∀ name, link.binds world scope name) (same : link.Values world last last')
    (supports : link.Supports world weight fuel fuel') :
    link.Tracks world .settled link.Values
      (((Job.rounds scope x id body last).plan link.limits).run (Job.run link.limits fuel))
      (((Job.rounds scope' x' id' body' last').plan link.limits').run
        (Job.run link.limits' fuel')) := by
  have worlds := lawful.toWorlds
  have advanced : link.Same world .settled (Eval.modifyGet (·.advanceIterator id))
      (Eval.modifyGet (·.advanceIterator id')) := by
    refine .modifyGet fun machine machine' machines => ?_
    obtain ⟨after, given⟩ := lawful.cells.advance machines iterator
    exact ⟨world, lawful.grown_refl world, after, given⟩
  refine .act worlds advanced fun later grown next next' given => ?_
  subst given
  cases next' with
  | none => exact .pure worlds (same.grown worlds grown)
  | some next =>
    have number : link.Values later (.number next) (.number next) :=
      .plain rfl (by simp [Value.kind])
    refine .act worlds (.define lawful (lawful.scopes_grown grown scopes)
      (lawful.binds_grown grown (owned x)) name number) fun between more _ _ _ => ?_
    have grown := lawful.grown_trans grown more
    have supports := supports.grown worlds grown
    refine .job worlds (supports.ask lawful .refl (.block (lawful.scopes_grown grown scopes) code
      fun _ name => lawful.binds_grown grown (owned name)) (.inr loops))
      fun final more value value' same => ?_
    have grown := lawful.grown_trans grown more
    exact (supports.grown worlds more).ask_last lawful .refl
      (.rounds loops (lawful.scopes_grown grown scopes) name
        ((lawful.cells_grown grown).iterators _ _ iterator) code
        (fun name => lawful.binds_grown grown (owned name)) same) (.inr loops)

theorem send {receiver receiver' : Value} {name : String} {args args' : List Value}
    (same : link.Values world receiver receiver') (given : link.Arguments world args args')
    (supports : link.Supports world 3 fuel fuel') :
    link.Tracks world (.send name) link.Values
      (((Job.send receiver name args).plan link.limits).run (Job.run link.limits fuel))
      (((Job.send receiver' name args').plan link.limits').run (Job.run link.limits' fuel')) := by
  have worlds := lawful.toWorlds
  have found : link.Tracks world (.send name)
      (fun later => Option.Rel (link.Callee later (.send name)))
      (Eval.read (·.method? receiver.kind name)) (Eval.read (·.method? receiver'.kind name)) := by
    rw [same.kind]
    exact .read worlds fun _ _ machines => lawful.functions.method _ name machines
  refine .act worlds found fun later grown method method' found => ?_
  cases found with
  | some callee =>
    exact (supports.grown worlds grown).ask_last lawful .refl
      (.call .send callee (.some (same.grown worlds grown)) (Usable.all_grown worlds grown given))
      (.inl (by simp [Job.weight]))
  | none =>
    rw [same.kind]
    exact .last_act worlds (.fail worlds (lawful.faults.raise .method))

theorem call {callee callee' : Value} {receiver receiver' : Option Value} {args args' : List Value}
    (within : Duty.Within .call duty) (same : link.Callee world duty callee callee')
    (receivers : Option.Rel (link.Values world) receiver receiver')
    (given : link.Arguments world args args') (supports : link.Supports world 2 fuel fuel') :
    link.Tracks world duty link.Values
      (((Job.call callee receiver args).plan link.limits).run (Job.run link.limits fuel))
      (((Job.call callee' receiver' args').plan link.limits').run
        (Job.run link.limits' fuel')) := by
  have worlds := lawful.toWorlds
  cases same.same with
  | closure pair =>
    exact supports.ask_last lawful within (.enter pair receivers given)
      (.inl (by simp [Job.weight]))
  | iterator | pixelBuffer =>
    exact .last_act worlds (.fail worlds (same.refused (by simp [Value.kind])))
  | itself plain =>
    cases callee with
    | native function =>
      have allowed := same.allowed function rfl
      cases function with
      | whileLoop =>
        have loops := lawful.fuels.whileLoop allowed
        refine Tracks.bind_functionArgument lawful within given
          fun condition condition' sameCondition callable =>
            Tracks.bind_functionArgument lawful within given
              fun body body' sameBody callableBody => ?_
        exact supports.ask_last lawful within (.loop loops (sameCondition.callee callable)
          (sameBody.callee callableBody) .null) (.inr loops)
      | global function =>
        exact .last_act worlds (.globalFunction lawful within function given)
      | builtin method => exact .last_act worlds (.builtin lawful within allowed receivers given)
    | closure | iterator | pixelBuffer => contradiction
    | _ => exact .last_act worlds (.fail worlds (same.refused (by simp [Value.kind])))

theorem loop {condition condition' body body' last last' : Value} (loops : link.loops)
    (sameCondition : link.Callee world .call condition condition')
    (sameBody : link.Callee world .call body body') (same : link.Values world last last')
    (supports : link.Supports world weight fuel fuel') :
    link.Tracks world .call link.Values
      (((Job.loop condition body last).plan link.limits).run (Job.run link.limits fuel))
      (((Job.loop condition' body' last').plan link.limits').run
        (Job.run link.limits' fuel')) := by
  have worlds := lawful.toWorlds
  refine .job worlds (supports.ask lawful .refl (.call .refl sameCondition .none .nil)
    (.inr loops)) fun later grown test test' sameTest => ?_
  rw [sameTest.same.isTruthy]
  split
  · have supports := supports.grown worlds grown
    have sameBody := sameBody.grown worlds grown
    refine .job worlds (supports.ask lawful .refl (.call .refl sameBody .none .nil) (.inr loops))
      fun final more value value' same => ?_
    exact (supports.grown worlds more).ask_last lawful .refl
      (.loop loops (sameCondition.grown worlds (lawful.grown_trans grown more))
        (sameBody.grown worlds more) same) (.inr loops)
  · exact .pure worlds (same.grown worlds grown)

end Supports

/-- The body of a closure is evaluated one call deeper, if there is room for that. -/
theorem enter_tracks (lawful : link.Lawful) {id id' : ClosureId}
    {receiver receiver' : Option Value} {args args' : List Value}
    (closure : (link.cells world).closures id id')
    (receivers : Option.Rel (link.Values world) receiver receiver')
    (given : link.Arguments world args args')
    (follows : ∀ {later : link.World} {job job' : Job Value},
      link.Pairs later .settled link.Values job job' →
      link.fuels later job.weight fuel fuel' →
      link.Tracks later .settled link.Values (job.run link.limits fuel)
        (job'.run link.limits' fuel'))
    (enough : link.fuels world 1 (fuel + 1) (fuel' + 1)) :
    link.Tracks world .call link.Values
      ((Job.enter id receiver args).run link.limits (fuel + 1))
      ((Job.enter id' receiver' args').run link.limits' (fuel' + 1)) := by
  have worlds := lawful.toWorlds
  intro machine machine' machines
  rw [Job.run_succ, Job.run_succ]
  simp only [Job.frame, Bind.bind, Eval.bind, Eval.read, lawful.depths.callDepth machines]
  by_cases full : link.limits.maxCallDepth ≤ machine.callDepth
  -- a call that is refused may be made where limits are wider, and then nothing is said
  · rw [if_pos full]
    obtain same | ⟨_, cut⟩ := lawful.depths.limited
    · rw [same, if_pos full]
      exact .fault (lawful.grown_refl world) machines (lawful.faults.raise (.ofCall rfl))
    · exact .cut (cut _ rfl)
  · have full' : ¬ link.limits'.maxCallDepth ≤ machine.callDepth := by
      obtain same | ⟨wider, _⟩ := lawful.depths.limited
      · rwa [same]
      · exact fun full' => full (Nat.le_trans wider.callDepth full')
    rw [if_neg full, if_neg full']
    refine Tracks.deeper lawful.depths machines ?_
    have inside := lawful.depths.entered world
    have found : link.Tracks (link.deeper world) .call
        (fun later found found' => Option.Rel (link.Stored later) found found' ∧
          (found = none → link.faults .call ⟨.notCallable .function, none⟩
            ⟨.notCallable .function, none⟩))
        (Eval.read (·.closures[id]?)) (Eval.read (·.closures[id']?)) :=
      .read worlds fun _ _ machines =>
        lawful.functions.closure machines (inside.closures _ _ closure)
    refine .act worlds found fun later grown stored stored' fine => ?_
    obtain ⟨stored, missing⟩ := fine
    cases stored with
    | none => exact .last_act worlds (.fail worlds (missing rfl))
    | some stored =>
      obtain ⟨mode, scopes, inner, opens, names, code⟩ := stored
      -- what was given outside can be used inside, too
      have usable : ∀ {value value'}, link.Values world value value' →
          link.Values later value value' := fun same =>
        ⟨(same.same.grown inside).grown (lawful.cells_grown grown), same.allowed⟩
      have receivers : Option.Rel (link.Values later) receiver receiver' := by
        cases receivers with
        | none => exact .none
        | some same => exact .some (usable same)
      have entries := callBindings_entries lawful names receivers (given.imp fun _ _ => usable)
      refine .act worlds (.openScope lawful scopes opens
        (fun param among => isSome_bindParameters (.inl among)) entries)
        fun last more opened opened' fine => ?_
      have enough := lawful.fuels.grown (lawful.grown_trans grown more)
        (lawful.fuels.enter machines (Nat.lt_of_not_le full) code enough)
      exact .last_job worlds ((follows (.block fine.1 code fun _ => fine.2) enough).loosen
        lawful.faults .settled)

/-- Jobs that go together are done alike, if there is enough fuel for the second. -/
theorem run_tracks (lawful : link.Lawful) {good : link.World → α → β → Prop} {job : Job α}
    {job' : Job β} (pairs : link.Pairs world duty good job job')
    (enough : link.fuels world job.weight fuel fuel') :
    link.Tracks world duty good (job.run link.limits fuel) (job'.run link.limits' fuel') := by
  have worlds := lawful.toWorlds
  induction fuel generalizing α β world duty fuel' with
  | zero =>
    intro machine machine' _
    rw [Job.run_zero]
    refine .outOfFuel ?_
    obtain ignored | ⟨shared, rfl⟩ := lawful.fuels.short enough
    · exact .inl ignored
    · rw [Job.run_zero]
      exact .inr ⟨shared, rfl⟩
  | succ fuel ih =>
    -- all that a job asks for is done with one unit of fuel less
    have supports : ∀ {weight left}, (∀ {less}, less < weight ∨ link.loops →
        link.fuels world less fuel left) → link.Supports world weight fuel left :=
      fun less => ⟨fun grown pairs smaller => ih pairs (lawful.fuels.grown grown (less smaller))⟩
    obtain ⟨left, rfl, less⟩ := lawful.fuels.spend enough
    cases pairs with
    | expression scopes code => exact (supports less).run_expression lawful scopes code
    | arguments scopes code =>
      rw [Job.run_succ, Job.run_succ]
      exact (supports less).arguments lawful scopes code
    | operand slower scopes code =>
      -- the second run has to go through a list of arguments first
      obtain ⟨rest, same, room⟩ := lawful.fuels.slack slower enough
      obtain rfl : left = rest + 1 := Nat.succ.inj same
      rw [Job.run_singleton, ← Eval.bind_pure (Job.run link.limits _ _ _)]
      exact ((supports room).run_expression lawful scopes code).bind worlds
        fun _ _ _ _ same => .pure worlds (.cons same .nil)
    | @operands _ scope _ value _ slower scopes code =>
      -- the first run does, and may have no fuel left behind that
      cases fuel with
      | zero =>
        intro machine machine' _
        exact .outOfFuel (.inl (lawful.fuels.loose slower enough).1)
      | succ fuel =>
        have smaller :
            (Job.expression scope value).weight < (Job.arguments scope [value]).weight := by
          simp +arith [Job.weight]
        have enough := (lawful.fuels.loose slower (less (.inl smaller))).2
        rw [Job.run_singleton, ← Eval.bind_pure (Job.run link.limits' _ _ _)]
        exact (ih (.expression scopes code) enough).bind worlds
          fun _ _ _ _ same => .pure worlds (.cons same .nil)
    | block scopes code owned =>
      rw [Job.run_succ, Job.run_succ]
      exact (supports less).block lawful scopes code owned
    | statements scopes code owned last =>
      rw [Job.run_succ, Job.run_succ]
      exact (supports less).statements lawful scopes code owned last
    | statement scopes code owned =>
      rw [Job.run_succ, Job.run_succ]
      exact .within (lawful.faults.statement code (lawful.matched code).span_stmt)
        ((supports less).statement lawful scopes code owned)
    | rounds loops scopes name iterator code owned last =>
      rw [Job.run_succ, Job.run_succ]
      exact (supports less).rounds lawful loops scopes name iterator code owned last
    | send _ receiver given =>
      rw [Job.run_succ, Job.run_succ]
      exact (supports less).send lawful receiver given
    | call within callee receivers given =>
      rw [Job.run_succ, Job.run_succ]
      exact (supports less).call lawful within callee receivers given
    | enter closure receivers given =>
      exact enter_tracks lawful closure receivers given (fun pairs enough => ih pairs enough) enough
    | loop loops condition body last =>
      rw [Job.run_succ, Job.run_succ]
      exact (supports less).loop lawful loops condition body last

/-- Programs whose code matches are run alike. -/
theorem eval_tracks (lawful : link.Lawful) {scope scope' : Scope} {program program' : Program}
    (scopes : link.scopes world mode scope scope')
    (code : link.code mode (.stmts program.statements) (.stmts program'.statements))
    (owned : ∀ stmt ∈ program.statements, ∀ name, stmt.Binds name → link.binds world scope name)
    (enough : link.fuels world (sizeOf program.statements + 3) fuel fuel') :
    link.Tracks world .settled link.Values (program.eval link.limits fuel scope)
      (program'.eval link.limits' fuel' scope') :=
  run_tracks lawful (.statements scopes code owned .null) enough

end Coupling

end PixelScript
