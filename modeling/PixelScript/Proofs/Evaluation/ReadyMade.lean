import PixelScript.Proofs.Evaluation.Coupling

/-! Ready-made functions in two runs. They see of values what all values that go together have
in common, and change a machine by one of the steps that a coupling has laws for. -/
namespace PixelScript

theorem Limits.Within.canvasSide? (within : Limits.Within limits wider)
    (found : canvasSide? limits.maxCanvasSide value = some side) :
    PixelScript.canvasSide? wider.maxCanvasSide value = some side := by
  have roomier : ∀ side, limits.maxCanvasSide.all (side ≤ ·) = true →
      wider.maxCanvasSide.all (side ≤ ·) = true := by
    intro side fits
    cases bounded : wider.maxCanvasSide with
    | none => rfl
    | some bound' =>
      obtain ⟨bound, bounds, le⟩ := within.canvasSide bound' bounded
      rw [bounds] at fits
      simp only [Option.all_some, decide_eq_true_eq] at fits ⊢
      exact Nat.le_trans fits le
  unfold PixelScript.canvasSide? at found ⊢
  split at found
  next number =>
    dsimp only at found ⊢
    split at found
    next large =>
      rw [if_pos large]
      split at found
      next fits =>
        rw [if_pos (roomier _ fits)]
        exact found
      next => contradiction
    next => contradiction
  next => contradiction

/-! What is seen of values that are no handles. -/
namespace Value

variable {α : Type} {link : Link} {value value' : Value}

theorem Linked.seen (same : Value.Linked link value value') {view : Value → Option α}
    (blind : ∀ value, value.isHandle = true → view value = none) : view value' = view value := by
  by_cases handle : value.isHandle = true
  · rw [blind value handle, blind value' (same.isHandle ▸ handle)]
  · rw [same.eq_of_plain (Bool.not_eq_true _ ▸ handle)]

theorem number?_of_isHandle (handle : value.isHandle = true) : value.number? = none := by
  cases value <;> first | rfl | contradiction

theorem string?_of_isHandle (handle : value.isHandle = true) : value.string? = none := by
  cases value <;> first | rfl | contradiction

theorem boolean?_of_isHandle (handle : value.isHandle = true) : value.boolean? = none := by
  cases value <;> first | rfl | contradiction

theorem canvasSide?_of_isHandle {limit : Option Nat} (handle : value.isHandle = true) :
    canvasSide? limit value = none := by
  cases value <;> first | rfl | contradiction

end Value

namespace Coupling

variable {α : Type} {link : Coupling} {world : link.World} {duty : Duty} {args args' : List Value}

theorem Arguments.argument (given : link.Arguments world args args') (index : Nat) :
    link.Values world (argument args index) (argument args' index) :=
  .getD (getElem?_of_forall₂ given index)

namespace Tracks

variable (lawful : link.Lawful)
include lawful

theorem number (value : Float) : link.Tracks world duty link.Values
    (Pure.pure (.number value)) (Pure.pure (.number value)) :=
  .pure lawful.toWorlds (.plain rfl (by simp [Value.kind]))

theorem string (text : String) : link.Tracks world duty link.Values
    (Pure.pure (.string text)) (Pure.pure (.string text)) :=
  .pure lawful.toWorlds (.plain rfl (by simp [Value.kind]))

theorem boolean (value : Bool) : link.Tracks world duty link.Values
    (Pure.pure (.boolean value)) (Pure.pure (.boolean value)) :=
  .pure lawful.toWorlds (.plain rfl (by simp [Value.kind]))

theorem null : link.Tracks world duty link.Values (Pure.pure .null) (Pure.pure .null) :=
  .pure lawful.toWorlds .null

theorem addRange (range : Range) : link.Tracks world duty link.Values
    (Eval.modifyGet (·.addRange range)) (Eval.modifyGet (·.addRange range)) := by
  refine .modifyGet fun machine machine' machines => ?_
  obtain ⟨later, grown, after, same⟩ := lawful.cells.addRange range machines
  exact ⟨later, grown, after, .of_handle same rfl⟩

theorem addBuffer (buffer : PixelBuffer) : link.Tracks world duty link.Values
    (Eval.modifyGet (·.addBuffer buffer)) (Eval.modifyGet (·.addBuffer buffer)) := by
  refine .modifyGet fun machine machine' machines => ?_
  obtain ⟨later, grown, after, same⟩ := lawful.cells.addBuffer buffer machines
  exact ⟨later, grown, after, .of_handle same rfl⟩

/-- A buffer that is changed and given back. -/
theorem update {id id' : BufferId} (pair : (link.cells world).buffers id id')
    (change : PixelBuffer → PixelBuffer) :
    link.Tracks world duty link.Values
      (Eval.modify (·.updateBuffer id change) >>= fun _ => Pure.pure (.pixelBuffer id))
      (Eval.modify (·.updateBuffer id' change) >>= fun _ => Pure.pure (.pixelBuffer id')) := by
  have changed : link.Same world duty (Eval.modify (·.updateBuffer id change))
      (Eval.modify (·.updateBuffer id' change)) :=
    .modify lawful.toWorlds fun _ _ machines => lawful.cells.updateBuffer change machines pair
  refine changed.bind_same lawful.toWorlds fun later grown _ => .pure lawful.toWorlds ?_
  exact .of_handle (.pixelBuffer ((lawful.cells_grown grown).buffers _ _ pair)) rfl

/-! Everything else is done in the course of some call. -/

variable (within : Duty.Within .call duty)
include within

theorem refuse {good : link.World → α → β → Prop} {cause : Fault.Cause}
    (ofCall : cause.isOfCall = true) :
    link.Tracks world duty good (Eval.fail cause) (Eval.fail cause) :=
  .fail lawful.toWorlds (lawful.faults.loosen within (lawful.faults.raise (.ofCall ofCall)))

/-- An argument is read, or refused, before anything happens. -/
theorem bind_argumentAs {view : Value → Option α} {expected : ValueKind} {function : String}
    {index : Nat} {alike : α → α → Prop} {good : link.World → β → γ → Prop}
    {next : α → Eval β} {next' : α → Eval γ} (given : link.Arguments world args args')
    (seen : Option.Rel alike (view (argument args index)) (view (argument args' index)))
    (tail : ∀ result result', alike result result' →
      link.Tracks world duty good (next result) (next' result')) :
    link.Tracks world duty good (argumentAs view expected function args index >>= next)
      (argumentAs view expected function args' index >>= next') := by
  unfold PixelScript.argumentAs
  rw [(given.argument index).kind]
  generalize view (argument args index) = own, view (argument args' index) = other at seen ⊢
  cases seen with
  | some fine => exact tail _ _ fine
  | none => exact refuse lawful within rfl

/-- An argument that can be no handle. -/
theorem bind_argument_plain {view : Value → Option α} {expected : ValueKind} {function : String}
    {index : Nat} {good : link.World → β → γ → Prop} {next : α → Eval β} {next' : α → Eval γ}
    (given : link.Arguments world args args')
    (blind : ∀ {value : Value}, value.isHandle = true → view value = none)
    (tail : ∀ result, link.Tracks world duty good (next result) (next' result)) :
    link.Tracks world duty good (argumentAs view expected function args index >>= next)
      (argumentAs view expected function args' index >>= next') := by
  have seen : Option.Rel Eq (view (argument args index)) (view (argument args' index)) := by
    rw [(given.argument index).same.seen fun _ => blind]
    cases view (argument args index) with
    | some => exact .some rfl
    | none => exact .none
  refine bind_argumentAs lawful within given seen fun result result' same => ?_
  subst same
  exact tail result

theorem bind_functionArgument {function : String} {index : Nat}
    {good : link.World → α → β → Prop} {next : Value → Eval α} {next' : Value → Eval β}
    (given : link.Arguments world args args')
    (tail : ∀ method method', link.Values world method method' → method.kind = .function →
      link.Tracks world duty good (next method) (next' method')) :
    link.Tracks world duty good (functionArgument function args index >>= next)
      (functionArgument function args' index >>= next') := by
  have same := given.argument index
  have seen : Option.Rel
      (fun method method' => link.Values world method method' ∧ method.kind = .function)
      (argument args index).function? (argument args' index).function? := by
    rw [Value.function?, Value.function?, same.kind]
    split
    next callable => exact .some ⟨same, callable⟩
    next => exact .none
  exact bind_argumentAs lawful within given seen fun method method' fine =>
    tail method method' fine.1 fine.2

theorem bind_bufferArgument {function : String} {index : Nat}
    {good : link.World → α → β → Prop} {next : BufferId → Eval α} {next' : BufferId → Eval β}
    (given : link.Arguments world args args')
    (tail : ∀ id id', (link.cells world).buffers id id' →
      link.Tracks world duty good (next id) (next' id')) :
    link.Tracks world duty good (bufferArgument function args index >>= next)
      (bufferArgument function args' index >>= next') := by
  have same := (given.argument index).same
  refine bind_argumentAs lawful within given ?_ tail
  generalize argument args index = value, argument args' index = value' at same ⊢
  cases same with
  | pixelBuffer pair => exact .some pair
  | closure | iterator => exact .none
  | itself plain =>
    cases value with
    | pixelBuffer => cases plain
    | _ => exact .none

theorem colorArguments (given : link.Arguments world args args') (function : String)
    (first : Nat) : link.Same world duty (colorArguments function args first)
      (colorArguments function args' first) := by
  have same := (given.argument (first + 3)).same
  refine bind_argument_plain lawful within given Value.number?_of_isHandle fun red =>
    bind_argument_plain lawful within given Value.number?_of_isHandle fun green =>
    bind_argument_plain lawful within given Value.number?_of_isHandle fun blue => ?_
  have opacity : link.Same world duty
      (numberArgument function args (first + 3) >>= fun alpha => Pure.pure (Color.mk
        (Color.channel red) (Color.channel green) (Color.channel blue) (Color.channel alpha)))
      (numberArgument function args' (first + 3) >>= fun alpha => Pure.pure (Color.mk
        (Color.channel red) (Color.channel green) (Color.channel blue) (Color.channel alpha))) :=
    bind_argument_plain lawful within given Value.number?_of_isHandle fun alpha =>
      .pure lawful.toWorlds rfl
  dsimp only
  generalize argument args (first + 3) = value, argument args' (first + 3) = value' at same ⊢
  cases same with
  | itself =>
    split
    · exact .pure lawful.toWorlds rfl
    · exact opacity
  | closure | iterator | pixelBuffer => exact opacity

theorem builtin {method : BuiltinMethod} (allowed : link.natives duty (.builtin method))
    {receiver receiver' : Option Value}
    (receivers : Option.Rel (link.Values world) receiver receiver')
    (given : link.Arguments world args args') :
    link.Tracks world duty link.Values (method.apply receiver args)
      (method.apply receiver' args') := by
  have operand := (given.argument 0).same
  have unknown : ∀ kind, link.Tracks world duty link.Values
      (Eval.fail (.unknownOperator method.name kind))
      (Eval.fail (.unknownOperator method.name kind)) :=
    fun kind => .fail lawful.toWorlds (lawful.faults.builtin kind allowed)
  cases receivers with
  | none => cases method <;> exact unknown _
  | some usable =>
    -- handles have no ready-made methods, so a receiver that has some stands for itself
    cases usable.same with
    | closure | iterator | pixelBuffer => cases method <;> exact unknown _
    | @itself value =>
      unfold BuiltinMethod.apply
      split
      · exact bind_argument_plain lawful within given Value.number?_of_isHandle fun _ =>
          number lawful _
      · exact bind_argument_plain lawful within given Value.number?_of_isHandle fun _ =>
          boolean lawful _
      · rw [operand.equal_plain rfl]
        exact boolean lawful _
      · exact bind_argument_plain lawful within given Value.number?_of_isHandle fun _ =>
          addRange lawful _
      · refine .bind_same lawful.toWorlds (.read lawful.toWorlds fun _ _ machines => ?_)
          fun _ _ _ => string lawful _
        rw [BuiltinMethod.appendedText, BuiltinMethod.appendedText, operand.kind,
          lawful.cells.display machines operand]
      · rw [operand.equal_plain rfl]
        exact boolean lawful _
      · exact bind_argument_plain lawful within given Value.boolean?_of_isHandle fun _ =>
          boolean lawful _
      · exact bind_argument_plain lawful within given Value.boolean?_of_isHandle fun _ =>
          boolean lawful _
      · rw [operand.equal_plain rfl]
        exact boolean lawful _
      · exact unknown _

omit within in
theorem printValues (given : link.Arguments world args args') :
    link.Tracks world duty link.Values (GlobalFunction.printValues args)
      (GlobalFunction.printValues args') := by
  refine .bind_same lawful.toWorlds (.modify lawful.toWorlds fun machine machine' machines => ?_)
    fun _ _ _ => null lawful
  have texts : args'.map machine'.display = args.map machine.display := by
    induction given with
    | nil => rfl
    | cons first _ ih =>
      rw [List.map_cons, List.map_cons, lawful.cells.display machines first.same, ih]
  rw [texts]
  exact lawful.cells.printLine _ machines

/-- A canvas that is made is also made where sides may be longer. -/
theorem makeCanvas (given : link.Arguments world args args') :
    link.Tracks world duty link.Values (GlobalFunction.makeCanvas link.limits args)
      (GlobalFunction.makeCanvas link.limits' args') := by
  have width := (given.argument 0).same
  have height := (given.argument 1).same
  have side : ∀ {value value'}, Value.Linked (link.cells world) value value' → ∀ limit,
      canvasSide? limit value' = canvasSide? limit value :=
    fun same _ => same.seen fun _ => Value.canvasSide?_of_isHandle
  unfold GlobalFunction.makeCanvas
  dsimp only
  rw [side width, side height]
  obtain same | ⟨wider, cut⟩ := lawful.depths.limited
  · have refused : link.Tracks world duty link.Values
        (GlobalFunction.makeCanvas.refuse (argument args 0) (argument args 1))
        (GlobalFunction.makeCanvas.refuse (argument args' 0) (argument args' 1)) := by
      refine .bind_same lawful.toWorlds (.read lawful.toWorlds fun _ _ machines => ?_) fun _ _ _ =>
        refuse lawful within rfl
      rw [lawful.cells.display machines width, lawful.cells.display machines height]
    rw [same]
    split
    · split
      · exact addBuffer lawful _
      · exact refused
    · exact refused
  · have refused : ∀ other, link.Tracks world duty link.Values
        (GlobalFunction.makeCanvas.refuse (argument args 0) (argument args 1)) other :=
      fun _ _ _ _ => .cut (cut _ rfl)
    split
    next columns rows wide high =>
      rw [wider.canvasSide? wide, wider.canvasSide? high]
      dsimp only
      split
      · exact addBuffer lawful _
      · exact refused _
    next => exact refused _

theorem measure (function : GlobalFunction) (size : PixelBuffer → Nat)
    (given : link.Arguments world args args') :
    link.Tracks world duty link.Values (function.measure size args)
      (function.measure size args') := by
  refine bind_bufferArgument lawful within given fun id id' pair =>
    .bind_same lawful.toWorlds (.read lawful.toWorlds fun _ _ machines => ?_) fun _ _ _ =>
      number lawful _
  rw [lawful.cells.buffer machines pair]

theorem fillBuffer (given : link.Arguments world args args') :
    link.Tracks world duty link.Values (GlobalFunction.fillBuffer args)
      (GlobalFunction.fillBuffer args') :=
  bind_bufferArgument lawful within given fun _ _ pair =>
    .bind_same lawful.toWorlds (colorArguments lawful within given _ _) fun _ grown _ =>
      update lawful ((lawful.cells_grown grown).buffers _ _ pair) _

theorem colorPixel (given : link.Arguments world args args') :
    link.Tracks world duty link.Values (GlobalFunction.colorPixel args)
      (GlobalFunction.colorPixel args') := by
  refine bind_bufferArgument lawful within given fun id id' pair =>
    bind_argument_plain lawful within given Value.number?_of_isHandle fun x =>
    bind_argument_plain lawful within given Value.number?_of_isHandle fun y =>
    .bind_same lawful.toWorlds (colorArguments lawful within given _ _) fun later grown color => ?_
  have pair := (lawful.cells_grown grown).buffers _ _ pair
  refine .bind_same lawful.toWorlds (.read lawful.toWorlds fun _ _ machines => ?_)
    fun last grown size => ?_
  · rw [lawful.cells.buffer machines pair]
  · dsimp only
    split
    · exact update lawful ((lawful.cells_grown grown).buffers _ _ pair) _
    · exact refuse lawful within rfl

theorem addMethod (given : link.Arguments world args args') :
    link.Tracks world duty link.Values (GlobalFunction.addMethod args)
      (GlobalFunction.addMethod args') := by
  refine bind_argument_plain lawful within given Value.string?_of_isHandle fun kindName =>
    bind_argument_plain lawful within given Value.string?_of_isHandle fun name =>
    bind_functionArgument lawful within given fun method method' same callable => ?_
  cases ValueKind.ofName? kindName with
  | some kind =>
    exact .bind_same lawful.toWorlds (.modify lawful.toWorlds fun _ _ machines =>
      lawful.functions.registerMethod kind name machines same callable) fun _ _ _ => null lawful
  | none => exact refuse lawful within rfl

theorem globalFunction (function : GlobalFunction) (given : link.Arguments world args args') :
    link.Tracks world duty link.Values (function.apply link.limits args)
      (function.apply link.limits' args') := by
  cases function with
  | print => exact printValues lawful given
  | canvas => exact makeCanvas lawful within given
  | canvasWidth | canvasHeight => exact measure lawful within _ _ given
  | fillCanvas => exact fillBuffer lawful within given
  | setPixel => exact colorPixel lawful within given
  | registerMethod => exact addMethod lawful within given
  | typeOf =>
    unfold GlobalFunction.apply
    rw [(given.argument 0).kind]
    exact string lawful _

end Tracks

end Coupling

end PixelScript
