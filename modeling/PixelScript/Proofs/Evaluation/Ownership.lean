import PixelScript.Evaluation.Interpreter
import PixelScript.Proofs.Value.Flooring
import PixelScript.Proofs.Value.PixelGrid

/-! What ready-made functions own. A call that fails leaves the machine as it was, and one
that succeeds changes only what its function is there for. The changes are said in terms of
what can be seen of a machine: which entry, which cell, which pixel, and that all the rest
is as before. -/
namespace PixelScript

namespace PixelBuffer

/-- The same buffer but for one pixel, which has a new colour if it is inside. -/
structure Recoloured (x y : Nat) (color : Color) (before after : PixelBuffer) : Prop where
  width : after.width = before.width
  height : after.height = before.height
  pixels : ∀ column row, after.pixel? column row =
    if column = x ∧ row = y then (before.pixel? x y).map fun _ => color
    else before.pixel? column row

/-- A buffer of the same sides in one colour. -/
structure Filled (color : Color) (before after : PixelBuffer) : Prop where
  width : after.width = before.width
  height : after.height = before.height
  pixels : ∀ column row, after.pixel? column row = (before.pixel? column row).map fun _ => color

theorem recoloured_setPixel (buffer : PixelBuffer) (x y : Nat) (color : Color) :
    buffer.Recoloured x y color (buffer.setPixel x y color).2 :=
  ⟨buffer.width_setPixel x y color, buffer.height_setPixel x y color,
    buffer.pixel?_setPixel x y color⟩

theorem filled_fill (buffer : PixelBuffer) (color : Color) :
    buffer.Filled color (buffer.fill color) :=
  ⟨rfl, rfl, buffer.pixel?_fill color⟩

end PixelBuffer

/-- Of the machine only one buffer differs, and as `change` says. -/
structure Machine.BufferChanged (id : BufferId) (change : PixelBuffer → PixelBuffer → Prop)
    (before after : Machine) : Prop where
  rest : after = { before with buffers := after.buffers }
  others : ∀ other, other ≠ id → after.buffers[other]? = before.buffers[other]?
  given : Option.Rel change before.buffers[id]? after.buffers[id]?

theorem Machine.bufferChanged_updateBuffer {change : PixelBuffer → PixelBuffer → Prop}
    {update : PixelBuffer → PixelBuffer} (machine : Machine) (id : BufferId)
    (changes : ∀ buffer, change buffer (update buffer)) :
    machine.BufferChanged id change (machine.updateBuffer id update) := by
  refine ⟨rfl, fun other differs => ?_, ?_⟩
  · rw [Machine.updateBuffer, Array.getElem?_modify, if_neg differs.symm]
  · rw [Machine.updateBuffer, Array.getElem?_modify, if_pos rfl]
    cases machine.buffers[id]? with
    | none => exact .none
    | some buffer => exact .some (changes buffer)

/-- The colour that arguments from an index on give: three numbers, and a fourth for alpha
unless it is null or missing. -/
inductive Color.Given (args : List Value) (first : Nat) : Color → Prop
  | solid (red : argument args first = .number r) (green : argument args (first + 1) = .number g)
      (blue : argument args (first + 2) = .number b) (missing : argument args (first + 3) = .null) :
      Given args first ⟨channel r, channel g, channel b, channel 255⟩
  | shaded (red : argument args first = .number r) (green : argument args (first + 1) = .number g)
      (blue : argument args (first + 2) = .number b)
      (alpha : argument args (first + 3) = .number a) :
      Given args first ⟨channel r, channel g, channel b, channel a⟩

/-- `function.Leaves limits receiver args machine result after`: what a ready-made function
may give and leave when it succeeds. -/
inductive Native.Leaves (limits : Limits) (receiver : Option Value) (args : List Value)
    (machine : Machine) : Native → Value → Machine → Prop
  /-- One line more, unless the console is silent. -/
  | print (rest : after = { machine with console := after.console })
      (silent : after.console.silent = machine.console.silent)
      (text : after.console.text = if machine.console.silent then machine.console.text else
        machine.console.text ++ " ".intercalate (args.map machine.display) ++ "\n") :
      Leaves limits receiver args machine (.global .print) .null after
  /-- One buffer more, which is black. -/
  | canvas (width : canvasSide? limits.maxCanvasSide (argument args 0) = some columns)
      (height : canvasSide? limits.maxCanvasSide (argument args 1) = some rows) :
      Leaves limits receiver args machine (.global .canvas) (.pixelBuffer machine.buffers.size)
        { machine with buffers := machine.buffers.push (PixelBuffer.blank columns rows) }
  /-- The side of the given buffer. -/
  | canvasWidth {id : BufferId} {width : Nat} (given : argument args 0 = .pixelBuffer id)
      (side : ∀ buffer, machine.buffers[id]? = some buffer → width = buffer.width) :
      Leaves limits receiver args machine (.global .canvasWidth) (.number (.ofNat width)) machine
  | canvasHeight {id : BufferId} {height : Nat} (given : argument args 0 = .pixelBuffer id)
      (side : ∀ buffer, machine.buffers[id]? = some buffer → height = buffer.height) :
      Leaves limits receiver args machine (.global .canvasHeight) (.number (.ofNat height)) machine
  | fillCanvas {id : BufferId} (given : argument args 0 = .pixelBuffer id)
      (isColor : Color.Given args 1 color)
      (changed : machine.BufferChanged id (PixelBuffer.Filled color) after) :
      Leaves limits receiver args machine (.global .fillCanvas) (.pixelBuffer id) after
  /-- One pixel of the given buffer, which is inside. -/
  | setPixel {id : BufferId} {buffer : PixelBuffer} {column row : Nat}
      (given : argument args 0 = .pixelBuffer id) (held : machine.buffers[id]? = some buffer)
      (isColumn : argument args 1 = .number x) (inWidth : Number.Along x buffer.width column)
      (isRow : argument args 2 = .number y) (inHeight : Number.Along y buffer.height row)
      (isColor : Color.Given args 3 color)
      (changed : machine.BufferChanged id (PixelBuffer.Recoloured column row color) after) :
      Leaves limits receiver args machine (.global .setPixel) (.pixelBuffer id) after
  /-- One entry of one kind is new or replaced. -/
  | registerMethod {kind : ValueKind} {name : String} (isText : argument args 0 = .string text)
      (isKind : ValueKind.ofName? text = some kind) (isName : argument args 1 = .string name)
      (isMethod : argument args 2 = method) (isFunction : method.kind = .function)
      (rest : after = { machine with methods := after.methods })
      (entry : after.method? kind name = some method)
      (others : ∀ kind' name', (kind', name') ≠ (kind, name) →
        after.method? kind' name' = machine.method? kind' name') :
      Leaves limits receiver args machine (.global .registerMethod) .null after
  | typeOf : Leaves limits receiver args machine (.global .typeOf)
      (.string (argument args 0).kind.name) machine
  /-- One iterator more. -/
  | range (isStart : receiver = some (.number first)) (isLast : argument args 0 = .number last) :
      Leaves limits receiver args machine (.builtin (.range inclusive))
        (.iterator machine.iterators.size)
        { machine with iterators := machine.iterators.push (Range.between first last inclusive) }
  | builtin (plain : ∀ inclusive, method ≠ .range inclusive) :
      Leaves limits receiver args machine (.builtin method) result machine

/-- How an atomic call ends: with a fault and nothing changed, or with a value that is
`given` together with what is left. -/
def Outcome.Atomic (machine : Machine) (given : Value → Machine → Prop) : Outcome Value → Prop
  | .value result after => given result after
  | .fault _ after => after = machine
  | .outOfFuel => False

/-- Causes that have nothing to do with the call depth. -/
def Fault.Cause.Common : Fault.Cause → Prop
  | stackOverflow _ => False
  | _ => True

/-- An atomic call that has nothing to do with the call depth. -/
def Outcome.Tidy (machine : Machine) (given : Value → Machine → Prop) : Outcome Value → Prop
  | .value result after => given result after
  | .fault raised after => after = machine ∧ raised.cause.Common
  | .outOfFuel => False

theorem Outcome.Tidy.atomic {machine : Machine} {given : Value → Machine → Prop}
    {outcome : Outcome Value} (tidy : outcome.Tidy machine given) :
    outcome.Atomic machine given := by
  cases outcome with
  | value => exact tidy
  | fault => exact tidy.1
  | outOfFuel => exact tidy

/-- A check of arguments: it gives a result of which `fact` holds, or refuses the kind of an
argument, and has nothing to do with the machine. -/
def Eval.Checks {α : Type} (action : Eval α) (fact : α → Prop) : Prop :=
  (∃ result, fact result ∧ action = Eval.pure result) ∨
    ∃ function index expected found,
      action = Eval.fail (.argumentKind function index expected found)

namespace Eval.Checks

variable {α β : Type} {first : Eval α} {fact : α → Prop} {machine : Machine}

theorem bind {next : α → Eval β} {goal : β → Prop} (head : first.Checks fact)
    (tail : ∀ result, fact result → (next result).Checks goal) : (first >>= next).Checks goal := by
  obtain ⟨result, holds, rfl⟩ | ⟨function, index, expected, found, rfl⟩ := head
  · exact tail result holds
  · exact .inr ⟨function, index, expected, found, rfl⟩

/-- A call that starts with checks is tidy if the rest is, where they succeed. -/
theorem tidy {next : α → Eval Value} {given : Value → Machine → Prop} (head : first.Checks fact)
    (tail : ∀ result, fact result → (next result machine).Tidy machine given) :
    ((first >>= next) machine).Tidy machine given := by
  obtain ⟨result, holds, rfl⟩ | ⟨_, _, _, _, rfl⟩ := head
  · exact tail result holds
  · exact ⟨rfl, trivial⟩

end Eval.Checks

namespace Value

variable {value : Value}

theorem number?_eq_some {x : Float} : value.number? = some x ↔ value = .number x := by
  cases value <;> simp [number?]

theorem string?_eq_some {text : String} : value.string? = some text ↔ value = .string text := by
  cases value <;> simp [string?]

theorem pixelBuffer?_eq_some {id : BufferId} :
    value.pixelBuffer? = some id ↔ value = .pixelBuffer id := by
  cases value <;> simp [pixelBuffer?]

theorem function?_eq_some {method : Value} :
    value.function? = some method ↔ value = method ∧ value.kind = .function := by
  unfold function?
  split <;> simp_all

end Value

section Arguments

variable {function : String} {args : List Value} {index : Nat}

theorem argumentAs_checks {α : Type} {view : Value → Option α} {expected : ValueKind} :
    (argumentAs view expected function args index).Checks
      (view (argument args index) = some ·) := by
  unfold argumentAs
  split
  next result found => exact .inl ⟨result, found, rfl⟩
  next => exact .inr ⟨_, _, _, _, rfl⟩

theorem colorArguments_checks :
    (colorArguments function args index).Checks (Color.Given args index) := by
  refine argumentAs_checks.bind fun r red => argumentAs_checks.bind fun g green =>
    argumentAs_checks.bind fun b blue => ?_
  rw [Value.number?_eq_some] at red green blue
  dsimp only
  split
  next missing => exact .inl ⟨_, .solid red green blue missing, rfl⟩
  next =>
    refine argumentAs_checks.bind fun a alpha => .inl ⟨_, .shaded red green blue ?_, rfl⟩
    rwa [Value.number?_eq_some] at alpha

end Arguments

namespace BuiltinMethod

theorem apply_tidy (limits : Limits) (method : BuiltinMethod) (receiver : Option Value)
    (args : List Value) (machine : Machine) :
    (method.apply receiver args machine).Tidy machine
      ((Native.builtin method).Leaves limits receiver args machine) := by
  unfold apply
  split
  · exact argumentAs_checks.tidy fun _ _ => .builtin (by simp)
  · exact argumentAs_checks.tidy fun _ _ => .builtin (by simp)
  · exact .builtin (by simp)
  · exact argumentAs_checks.tidy fun _ last => .range rfl (Value.number?_eq_some.mp last)
  · exact .builtin (by simp)
  · exact .builtin (by simp)
  · exact argumentAs_checks.tidy fun _ _ => .builtin (by simp)
  · exact argumentAs_checks.tidy fun _ _ => .builtin (by simp)
  · exact .builtin (by simp)
  · exact ⟨rfl, trivial⟩

end BuiltinMethod

namespace GlobalFunction

variable (limits : Limits) (receiver : Option Value) (args : List Value) (machine : Machine)

theorem printValues_tidy : (printValues args machine).Tidy machine
    ((Native.global .print).Leaves limits receiver args machine) := by
  refine .print rfl ?_ ?_
  all_goals
    simp only [Machine.printLine, Console.printLine]
    split <;> rfl

theorem makeCanvas_tidy : (makeCanvas limits args machine).Tidy machine
    ((Native.global .canvas).Leaves limits receiver args machine) := by
  unfold makeCanvas
  cases width : canvasSide? limits.maxCanvasSide (argument args 0) with
  | none => exact ⟨rfl, trivial⟩
  | some columns =>
    cases height : canvasSide? limits.maxCanvasSide (argument args 1) with
    | none => exact ⟨rfl, trivial⟩
    | some rows =>
      dsimp only
      by_cases fits : PixelBuffer.isAddressable columns rows = true
      · rw [if_pos fits]
        exact .canvas width height
      · rw [if_neg fits]
        exact ⟨rfl, trivial⟩

theorem measure_tidy (function : GlobalFunction) (size : PixelBuffer → Nat)
    {given : Value → Machine → Prop}
    (gives : ∀ id length, argument args 0 = .pixelBuffer id →
      (∀ buffer, machine.buffers[id]? = some buffer → length = size buffer) →
      given (.number (.ofNat length)) machine) :
    (measure function size args machine).Tidy machine given := by
  refine argumentAs_checks.tidy fun id isBuffer => ?_
  refine gives id _ (Value.pixelBuffer?_eq_some.mp isBuffer) fun buffer held => ?_
  dsimp only
  rw [held]
  rfl

theorem fillBuffer_tidy : (fillBuffer args machine).Tidy machine
    ((Native.global .fillCanvas).Leaves limits receiver args machine) :=
  argumentAs_checks.tidy fun id given => colorArguments_checks.tidy fun color isColor =>
    .fillCanvas (Value.pixelBuffer?_eq_some.mp given) isColor
      (machine.bufferChanged_updateBuffer id (·.filled_fill color))

theorem colorPixel_tidy : (colorPixel args machine).Tidy machine
    ((Native.global .setPixel).Leaves limits receiver args machine) := by
  refine argumentAs_checks.tidy fun id given => argumentAs_checks.tidy fun x isColumn =>
    argumentAs_checks.tidy fun y isRow => colorArguments_checks.tidy fun color isColor => ?_
  rw [Value.pixelBuffer?_eq_some] at given
  rw [Value.number?_eq_some] at isColumn isRow
  simp only [Bind.bind, Eval.bind, Eval.read]
  split
  next inside =>
    rw [Bool.and_eq_true] at inside
    cases held : machine.buffers[id]? with
    | none =>
      rw [held] at inside
      exact absurd inside.1 Number.not_isCoordinate_zero
    | some buffer =>
      rw [held] at inside
      exact .setPixel given held isColumn (.of_isCoordinate inside.1) isRow
        (.of_isCoordinate inside.2) isColor
        (machine.bufferChanged_updateBuffer id (·.recoloured_setPixel _ _ color))
  next => exact ⟨rfl, trivial⟩

theorem addMethod_tidy : (addMethod args machine).Tidy machine
    ((Native.global .registerMethod).Leaves limits receiver args machine) := by
  refine argumentAs_checks.tidy fun text isText => argumentAs_checks.tidy fun name isName =>
    argumentAs_checks.tidy fun method isMethod => ?_
  rw [Value.string?_eq_some] at isText isName
  rw [Value.function?_eq_some] at isMethod
  cases found : ValueKind.ofName? text with
  | none => exact ⟨rfl, trivial⟩
  | some kind =>
    refine .registerMethod isText found isName isMethod.1 (isMethod.1 ▸ isMethod.2) rfl ?_ ?_
    · simp [Machine.registerMethod, Machine.method?]
    · intro kind' name' other
      simp [Machine.registerMethod, Machine.method?, other.symm]

theorem apply_tidy (function : GlobalFunction) : (function.apply limits args machine).Tidy
    machine ((Native.global function).Leaves limits receiver args machine) := by
  cases function with
  | print => exact printValues_tidy limits receiver args machine
  | canvas => exact makeCanvas_tidy limits receiver args machine
  | canvasWidth => exact measure_tidy args machine _ _ fun _ _ => .canvasWidth
  | canvasHeight => exact measure_tidy args machine _ _ fun _ _ => .canvasHeight
  | fillCanvas => exact fillBuffer_tidy limits receiver args machine
  | setPixel => exact colorPixel_tidy limits receiver args machine
  | registerMethod => exact addMethod_tidy limits receiver args machine
  | typeOf => exact .typeOf

end GlobalFunction

/-- Ready-made functions are atomic and own what they write. Whatever the machine, the
receiver and the arguments, a call either faults and changes nothing, or gives a value and
changes only what the function is there for. -/
theorem Evaluation.callValue_native_atomic (limits : Limits) (fuel : Nat)
    (receiver : Option Value) (args : List Value) (machine : Machine) :
    (∀ function : GlobalFunction,
      (callValue limits (fuel + 1) (.native (.global function)) receiver args machine).Atomic
        machine ((Native.global function).Leaves limits receiver args machine)) ∧
    ∀ method : BuiltinMethod,
      (callValue limits (fuel + 1) (.native (.builtin method)) receiver args machine).Atomic
        machine ((Native.builtin method).Leaves limits receiver args machine) := by
  constructor
  · intro function
    simp only [callValue]
    exact (function.apply_tidy limits receiver args machine).atomic
  · intro method
    simp only [callValue]
    exact (method.apply_tidy limits receiver args machine).atomic

open Evaluation

/-- A machine with one buffer and no methods. -/
def Machine.easel : Machine :=
  { Machine.empty true with buffers := #[PixelBuffer.blank 4 3] }

/-- Arguments that colour the pixel in column 1 and row 2 red. -/
def redPixel : List Value :=
  [.pixelBuffer 0, .number 1.5, .number 2, .number 255, .number 0, .number 0]

theorem GlobalFunction.colorPixel_easel :
    ∃ after, colorPixel redPixel Machine.easel = .value (.pixelBuffer 0) after := by
  have inWidth : isCoordinate (roundedDown 1.5) (PixelBuffer.blank 4 3).width = true := by
    decide +kernel
  have inHeight : isCoordinate (roundedDown 2) (PixelBuffer.blank 4 3).height = true := by
    decide +kernel
  have held : Machine.easel.buffers[0]? = some (PixelBuffer.blank 4 3) := rfl
  simp [redPixel, colorPixel, bufferArgument, numberArgument, argumentAs, argument,
    Value.pixelBuffer?, Value.number?, colorArguments, Bind.bind, Eval.bind, Pure.pure, Eval.pure,
    Eval.read, held, inWidth, inHeight, Eval.modify]

/-- What is left of a machine that colours the pixel. -/
theorem Native.Leaves.redPixel {result : Value} {after : Machine}
    (leaves : (Native.global .setPixel).Leaves ⟨1, none⟩ none redPixel Machine.easel result after) :
    ∃ buffer, after.buffers[0]? = some buffer ∧
      ∀ column row, buffer.pixel? column row = if column = 1 ∧ row = 2 then
          some ⟨Color.channel 255, Color.channel 0, Color.channel 0, Color.channel 255⟩
        else (PixelBuffer.blank 4 3).pixel? column row := by
  cases leaves with
  | setPixel given held isColumn inWidth isRow inHeight isColor changed =>
    cases given
    obtain rfl : PixelBuffer.blank 4 3 = _ := Option.some.inj held
    cases isColumn
    cases isRow
    have column := (inWidth.exact (by decide)).1
    have row := (inHeight.exact (by decide)).1
    rw [show Number.units 1.5 / 2 ^ 1074 = (1 : Nat) by decide +kernel] at column
    rw [show Number.units 2 / 2 ^ 1074 = (2 : Nat) by decide +kernel] at row
    obtain rfl := Int.ofNat.inj column
    obtain rfl := Int.ofNat.inj row
    have recoloured := changed.given
    rw [held] at recoloured
    cases stored : after.buffers[0]? with
    | none =>
      rw [stored] at recoloured
      cases recoloured
    | some buffer =>
      rw [stored] at recoloured
      cases recoloured with
      | some pixels =>
        refine ⟨buffer, rfl, fun column row => (pixels.pixels column row).trans ?_⟩
        cases isColor with
        | solid red green blue missing =>
          cases red
          cases green
          cases blue
          rfl
        | shaded red green blue alpha => cases alpha

/-- Calls that succeed: one pixel becomes red, and one kind has a method more. -/
theorem Evaluation.callValue_native_atomic_easel :
    (∃ after buffer, callValue ⟨1, none⟩ 1 (.native (.global .setPixel)) none redPixel
        Machine.easel = .value (.pixelBuffer 0) after ∧ after.buffers[0]? = some buffer ∧
      ∀ column row, buffer.pixel? column row = if column = 1 ∧ row = 2 then
          some ⟨Color.channel 255, Color.channel 0, Color.channel 0, Color.channel 255⟩
        else (PixelBuffer.blank 4 3).pixel? column row) ∧
    ∃ after, callValue ⟨1, none⟩ 1 (.native (.global .registerMethod)) none
        [.string "number", .string "kind", .native (.global .typeOf)] Machine.easel =
          .value .null after ∧ after.method? .number "kind" = some (.native (.global .typeOf)) ∧
      after.method? .string "kind" = none := by
  constructor
  · obtain ⟨after, ran⟩ := GlobalFunction.colorPixel_easel
    have called : callValue ⟨1, none⟩ 1 (.native (.global .setPixel)) none redPixel Machine.easel =
        .value (.pixelBuffer 0) after := by
      rw [callValue]
      exact ran
    obtain ⟨atomic, _⟩ := callValue_native_atomic ⟨1, none⟩ 0 none redPixel Machine.easel
    specialize atomic .setPixel
    rw [called] at atomic
    obtain ⟨buffer, held, pixels⟩ := Native.Leaves.redPixel atomic
    exact ⟨after, buffer, called, held, pixels⟩
  · obtain ⟨atomic, _⟩ := callValue_native_atomic ⟨1, none⟩ 0 none
      [.string "number", .string "kind", .native (.global .typeOf)] Machine.easel
    specialize atomic .registerMethod
    have called : ∃ after, callValue ⟨1, none⟩ 1 (.native (.global .registerMethod)) none
        [.string "number", .string "kind", .native (.global .typeOf)] Machine.easel =
          .value .null after := by
      rw [callValue]
      exact ⟨_, rfl⟩
    obtain ⟨after, called⟩ := called
    rw [called] at atomic
    cases atomic with
    | registerMethod isText isKind isName isMethod isFunction rest entry others =>
      cases isText
      cases isKind
      cases isName
      cases isMethod
      exact ⟨after, called, entry, (others .string "kind" (by simp)).trans rfl⟩

end PixelScript
