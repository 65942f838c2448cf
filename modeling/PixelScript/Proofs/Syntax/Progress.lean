import PixelScript.Proofs.Syntax.Refusal
import PixelScript.Proofs.Syntax.Reparse

/-! The parser ends and moves on. Productions enter each other only finitely often, so that
every run comes to a phrase or a failure by the rules of the grammar, which know no fuel.
The end of input is never taken, and therefore no place behind the last token is reached. -/
namespace PixelScript
open Grammar

/-- Tokens of a whole text: none at all, or the last one is the end of input. -/
def Ended (tokens : List Token) : Prop :=
  tokens = [] ∨ ∃ front finish, finish.kind = .endOfInput ∧ tokens = front ++ [finish]

namespace Ended

theorem drop (ended : Ended tokens) (start : Nat) (bound : start ≤ tokens.length - 1) :
    Ended (tokens.drop start) := by
  obtain rfl | ⟨front, finish, isEnd, rfl⟩ := ended
  · exact .inl List.drop_nil
  · refine .inr ⟨front.drop start, finish, isEnd, ?_⟩
    rw [List.length_append, List.length_singleton, Nat.add_sub_cancel] at bound
    exact List.drop_append_of_le_length bound

/-- A front of the text without an end of input is not all of it, so that a place of the
text comes behind it. -/
theorem place (ended : Ended tokens) (split : tokens = s ++ rest) (inside : Inside s) :
    s.length ≤ tokens.length - 1 ∧ tokens.take s.length = s ∧ tokens.drop s.length = rest := by
  subst split
  refine ⟨?_, List.take_left, List.drop_left⟩
  rw [List.length_append]
  cases rest with
  | cons => simp
  | nil =>
    rw [List.append_nil] at ended
    obtain rfl | ⟨front, finish, isEnd, rfl⟩ := ended
    · exact Nat.zero_le _
    · exact absurd isEnd (inside finish (List.mem_append_right front List.mem_cons_self))

/-- Where a run stops in a text that is not empty, there is a token, which the error names. -/
theorem stopped (ended : Ended tokens) (solid : tokens ≠ []) (split : tokens = s ++ rest)
    (inside : Inside s) :
    ∃ token, tokens[s.length]? = some token ∧ ∀ expected, SyntaxError.ofUnexpected
      ⟨expected, rest⟩ = .unexpectedToken expected token.kind.description token.span := by
  obtain ⟨bound, _, rfl⟩ := ended.place split inside
  have present : s.length < tokens.length := by
    have positive := List.length_pos_of_ne_nil solid
    omega
  refine ⟨tokens.get ⟨_, present⟩, List.getElem?_eq_getElem present, fun expected => ?_⟩
  rw [SyntaxError.ofUnexpected, List.drop_eq_getElem_cons present]
  rfl

end Ended

theorem Enters.taken_inside (enters : Enters goal s part later) : Inside s := by
  cases enters with
  | expressionHead | callHead | suffixesCallHead | suffixesBlock | argumentsHead
  | primaryConditional | primaryBlock | primaryFunction | primaryParenthesized | braced | bare
  | alternativeConditional | statementsHead | expressionStatement => exact .nil
  | expressionTail head | callTail head | suffixesCallTail head => exact head.inside
  | operationsHead found => exact .cons (by rw [operator_class found]; rfl) .nil
  | operationsTail found head => exact .cons (by rw [operator_class found]; rfl) head.inside
  | suffixesMethodHead => exact .cons rfl (.cons rfl .nil)
  | suffixesMethodTail head => exact .cons rfl (.cons rfl head.inside)
  | arguments newlines | parenthesized newlines | block newlines => exact .cons rfl newlines.inside
  | argumentsTail head newlines newlines' =>
    exact head.inside.append (newlines.inside.append (.cons rfl newlines'.inside))
  | function parameters newlines =>
    exact .cons rfl (parameters.inside.append (.cons rfl (.cons rfl newlines.inside)))
  | condition => exact .cons rfl .nil
  | branch condition newlines => exact .cons rfl (condition.inside.append newlines.inside)
  | otherwise condition newlines branch newlines' =>
    exact .cons rfl (condition.inside.append (newlines.inside.append
      (branch.inside.append (newlines'.inside.append (.cons rfl .nil)))))
  | alternative newlines => exact newlines.inside
  | statementsTail head newlines => exact head.inside.append newlines.inside
  | declare | iterable => exact .cons rfl (.cons rfl (.cons rfl .nil))
  | assign => exact .cons rfl (.cons rfl .nil)
  | body head => exact .cons rfl (.cons rfl (.cons rfl head.inside))

theorem Stops.taken_inside (stops : Stops goal s rest expected) : Inside s := by
  cases stops with
  | arguments | primary | parenthesized | conditional | block => exact .nil
  | method | declareName | forEachName => exact .cons rfl .nil
  | declareMark | forEachWord => exact .cons rfl (.cons rfl .nil)
  | argumentsClose head newlines => exact head.inside.append newlines.inside
  | parenthesizedClose newlines inner newlines' =>
    exact .cons rfl (newlines.inside.append (inner.inside.append newlines'.inside))
  | blockClose newlines inner => exact .cons rfl (newlines.inside.append inner.inside)

/-- A run that fails has not taken the end of input either. -/
theorem Fails.taken_inside (fails : Fails goal s rest expected) : Inside s := by
  induction fails with
  | here stops => exact stops.taken_inside
  | inside enters _ ih => exact enters.taken_inside.append ih

/-- No goal enters others for ever: with each step there are fewer tokens, or the parser
has gone deeper into the grammar at the same place. -/
theorem Enters.wellFounded : WellFounded fun inner outer : Goal × List Token =>
    ∃ s, outer.2 = s ++ inner.2 ∧ Enters outer.1 s inner.1 inner.2 := by
  refine Subrelation.wf ?_ (measure fun call => 8 * call.2.length + call.1.depth).wf
  rintro ⟨part, later⟩ ⟨goal, tokens⟩ ⟨s, split, enters⟩
  have nearer := enters.depth_lt
  have fewer := congrArg List.length split
  simp only [List.length_append] at fewer nearer
  change 8 * later.length + part.depth < 8 * tokens.length + goal.depth
  omega

/-- Where a goal may be read: a function only where the lookahead has found its head. -/
def Goal.Admits (tokens : List Token) : Goal → Prop
  | function _ => Lookahead.currentClass tokens = .punctuation .leftParen ∧
      Lookahead.isFunctionHead tokens = true
  | _ => True

theorem Enters.admits (enters : Enters goal s part later) : part.Admits later := by
  cases enters with
  | primaryFunction opens head => exact ⟨opens, head⟩
  | _ => trivial

/-- `Reaches tokens goal later`: the parser, given the tokens of a program, comes to read
the goal from `later`. -/
inductive Reaches (tokens : List Token) : Goal → List Token → Prop
  | start : Reaches tokens (.statements false) (tokens.dropWhile Lookahead.isNewline)
  | enter (reached : Reaches tokens goal (s ++ later)) (enters : Enters goal s part later) :
      Reaches tokens part later

namespace Reaches

theorem admits (reached : Reaches tokens goal later) : goal.Admits later := by
  cases reached with
  | start => trivial
  | enter _ enters => exact enters.admits

/-- Wherever the parser comes, no end of input lies behind it. -/
theorem inside (reached : Reaches tokens goal later) :
    ∃ taken, tokens = taken ++ later ∧ Inside taken := by
  induction reached with
  | start =>
    obtain ⟨n, newlines, split⟩ := exists_newlines tokens
    exact ⟨n, split, newlines.inside⟩
  | enter _ enters ih =>
    obtain ⟨taken, rfl, inside⟩ := ih
    exact ⟨_, (List.append_assoc ..).symm, inside.append enters.taken_inside⟩

end Reaches

namespace Goal

/-- `Ends goal s rest`: reading the goal from `s ++ rest` takes `s`, with a phrase or with a
failure. The rules of the grammar say so, and so does the parser with all fuel that the
tokens bound. A phrase that needs a token has taken one. -/
inductive Ends (goal : Goal) (s rest : List Token) : Prop
  | phrase (phrase : Phrase) (isGoal : phrase.goal = goal) (spelled : Spells phrase s rest)
      (parses : ∀ fuel, 8 * (s ++ rest).length + goal.depth ≤ fuel →
        phrase.Parses fuel (s ++ rest) rest)
      (progress : phrase.isNullable = false → 0 < s.length)
  | failure (expected : String) (fails : Fails goal s rest expected)
      (refuses : ∀ fuel, 8 * (s ++ rest).length + goal.depth ≤ fuel →
        goal.Refuses fuel (s ++ rest) ⟨expected, rest⟩)

/-- Whatever answer a run gives, it is a phrase of the goal or a refusal of it. -/
theorem answered {α : Type} {goal : Goal} {tokens : List Token}
    (run : Except Unexpected (α × List Token)) (phrase : α → Phrase)
    (gives : ∀ value rest, run = .ok (value, rest) →
      (phrase value).goal = goal ∧ (phrase value).Parses fuel tokens rest)
    (fails : ∀ failure, run = .error failure → goal.Refuses fuel tokens failure) :
    (∃ phrase rest, Phrase.goal phrase = goal ∧ phrase.Parses fuel tokens rest) ∨
      ∃ failure, goal.Refuses fuel tokens failure := by
  cases run with
  | ok pair => exact .inl ⟨phrase pair.1, pair.2, gives _ _ rfl⟩
  | error failure => exact .inr ⟨failure, fails _ rfl⟩

theorem parses_or_refuses (goal : Goal) (fuel : Nat) (admits : goal.Admits tokens) :
    (∃ phrase rest, Phrase.goal phrase = goal ∧ phrase.Parses fuel tokens rest) ∨
      ∃ failure, goal.Refuses fuel tokens failure := by
  cases goal with
  | expression trailing =>
    exact answered _ (.expression trailing) (fun _ _ parsed => ⟨rfl, parsed⟩) (fun _ h => h)
  | operations trailing left =>
    exact answered _ (.operations trailing left) (fun _ _ parsed => ⟨rfl, parsed⟩) (fun _ h => h)
  | call trailing =>
    exact answered _ (.call trailing) (fun _ _ parsed => ⟨rfl, parsed⟩) (fun _ h => h)
  | suffixes trailing value =>
    exact answered _ (.suffixes trailing value) (fun _ _ parsed => ⟨rfl, parsed⟩) (fun _ h => h)
  | arguments =>
    exact answered (Grammar.arguments fuel tokens) (fun given => .arguments given.1 given.2)
      (fun _ _ parsed => ⟨rfl, parsed⟩) (fun _ h => h)
  | argumentsTail =>
    exact answered (Grammar.argumentsTail fuel tokens)
      (fun given => .argumentsTail given.1 given.2) (fun _ _ parsed => ⟨rfl, parsed⟩) (fun _ h => h)
  | primary trailing =>
    exact answered _ (.primary trailing) (fun _ _ parsed => ⟨rfl, parsed⟩) (fun _ h => h)
  | parenthesized =>
    exact answered _ .parenthesized (fun _ _ parsed => ⟨rfl, parsed⟩) (fun _ h => h)
  | function trailing =>
    exact answered _ (.function trailing) (fun _ _ parsed => ⟨rfl, admits.2, parsed⟩)
      (fun _ h => ⟨admits.1, admits.2, h⟩)
  | blockOrExpression trailing isFunctionBody =>
    exact answered _ (.blockOrExpression trailing isFunctionBody)
      (fun _ _ parsed => ⟨rfl, parsed⟩) (fun _ h => h)
  | conditional trailing =>
    exact answered _ (.conditional trailing) (fun _ _ parsed => ⟨rfl, parsed⟩) (fun _ h => h)
  | alternative trailing =>
    exact answered _ (.alternative trailing) (fun _ _ parsed => ⟨rfl, parsed⟩) (fun _ h => h)
  | block isFunctionBody =>
    exact answered _ (.block isFunctionBody) (fun _ _ parsed => ⟨rfl, parsed⟩) (fun _ h => h)
  | statements inBlock =>
    exact answered _ (.statements inBlock) (fun _ _ parsed => ⟨rfl, parsed⟩) (fun _ h => h)
  | statement =>
    exact answered _ .statement (fun _ _ parsed => ⟨rfl, parsed⟩) (fun _ h => h)

theorem depth_le (phrase : Phrase) : phrase.depth ≤ phrase.goal.depth := by
  cases phrase <;> simp [Phrase.depth, Phrase.goal, depth]

/-- Reading a goal always ends, and no end of input is taken. -/
theorem ends (goal : Goal) (admits : goal.Admits tokens) :
    ∃ s rest, tokens = s ++ rest ∧ Inside s ∧ goal.Ends s rest := by
  obtain ⟨phrase, rest, rfl, parsed⟩ | ⟨failure, refused⟩ :=
    goal.parses_or_refuses (8 * tokens.length + goal.depth) admits
  · obtain ⟨s, rfl, spelled⟩ := Recognition.sound _ _ _ _ parsed
    refine ⟨s, rest, rfl, spelled.inside, .phrase phrase rfl spelled ?_ spelled.length_pos⟩
    intro fuel enough
    have deep := depth_le phrase
    rw [List.length_append] at enough
    exact spelled.complete fuel (by omega)
  · obtain ⟨s, rfl, fails⟩ := Recognition.fails_of_refuses le_rfl refused
    exact ⟨s, failure.rest, rfl, fails.taken_inside,
      .failure _ fails fun fuel enough => fails.refuses enough⟩

end Goal

/-- In places: a goal that is read at a place of the text ends at a place of it. -/
theorem Ended.goal_ends (ended : Ended tokens) (goal : Goal) (start : Nat)
    (bound : start ≤ tokens.length - 1) (admits : goal.Admits (tokens.drop start)) :
    ∃ s, tokens.drop start = s ++ tokens.drop (start + s.length) ∧
      start + s.length ≤ tokens.length - 1 ∧ Inside s ∧
      goal.Ends s (tokens.drop (start + s.length)) := by
  obtain ⟨s, rest, split, inside, ends⟩ := goal.ends admits
  obtain ⟨within, _, rfl⟩ := (ended.drop start bound).place split inside
  rw [List.length_drop] at within
  rw [List.drop_drop] at split ends
  exact ⟨s, split, by omega, inside, ends⟩

theorem Grammar.program_ok {tokens rest : List Token} {program : Program} :
    Grammar.program fuel tokens = .ok (program, rest) ↔
      Grammar.statements fuel false (tokens.dropWhile Lookahead.isNewline) =
        .ok (program.statements, rest) := by
  obtain ⟨body⟩ := program
  simp only [Grammar.program, Parser.bind_ok, skipNewlines_ok, Parser.pure_ok]
  constructor
  · rintro ⟨_, _, rfl, statements, _, parsed, same, rfl⟩
    cases same
    exact parsed
  · exact fun parsed => ⟨(), _, rfl, body, rest, parsed, rfl, rfl⟩

/-- A program ends with no end of input taken, and in the same way with all fuel that the
tokens bound. -/
theorem Grammar.program_ends (tokens : List Token) :
    ∃ taken rest, tokens = taken ++ rest ∧ Inside taken ∧
      ((∃ program, ∀ fuel, fuelFor tokens ≤ fuel →
          Grammar.program fuel tokens = .ok (program, rest)) ∨
        ∃ expected, ∀ fuel, fuelFor tokens ≤ fuel →
          Grammar.program fuel tokens = .error ⟨expected, rest⟩) := by
  obtain ⟨n, later, newlines, rfl, skipped, _⟩ := exists_newlines_next tokens
  have admits : (Goal.statements false).Admits later := trivial
  obtain ⟨s, rest, rfl, inside, ends⟩ := Goal.ends _ admits
  have enough : ∀ fuel, fuelFor (n ++ (s ++ rest)) ≤ fuel →
      8 * (s ++ rest).length + (Goal.statements false).depth ≤ fuel := by
    intro fuel
    simp only [fuelFor, List.length_append, Goal.depth]
    omega
  refine ⟨n ++ s, rest, (List.append_assoc ..).symm, newlines.inside.append inside, ?_⟩
  cases ends with
  | phrase phrase isGoal _ parses =>
    cases phrase with
    | statements inBlock body =>
      cases isGoal
      refine .inl ⟨⟨body⟩, fun fuel bound => program_ok.mpr ?_⟩
      rw [skipped]
      exact parses fuel (enough fuel bound)
    | _ => cases isGoal
  | failure expected _ refuses =>
    refine .inr ⟨expected, fun fuel bound => program_error.mpr ?_⟩
    rw [skipped]
    exact refuses fuel (enough fuel bound)

end PixelScript
