import PixelScript.Proofs.Evaluation.Plans

/-! More fuel: a run that ends does so in the same way with every larger amount. -/
namespace PixelScript

variable {α β : Type} {limits : Limits} {fuel fuel' : Nat}

/-- The second computation ends as the first does, wherever that ends at all. -/
def Eval.Extends (first second : Eval α) : Prop :=
  ∀ machine, first machine ≠ .outOfFuel → second machine = first machine

namespace Eval.Extends

theorem refl (action : Eval α) : action.Extends action :=
  fun _ _ => rfl

theorem outOfFuel (second : Eval α) : Extends Eval.outOfFuel second :=
  fun _ ended => absurd rfl ended

theorem bind {first first' : Eval α} {next next' : α → Eval β} (head : first.Extends first')
    (tail : ∀ result, (next result).Extends (next' result)) :
    (first >>= next).Extends (first' >>= next') := by
  intro machine ended
  simp only [Bind.bind, Eval.bind] at ended ⊢
  cases outcome : first machine with
  | value result between =>
    rw [outcome] at ended
    rw [head machine (by simp [outcome]), outcome]
    exact tail result between ended
  | fault raised after => rw [head machine (by simp [outcome]), outcome]
  | outOfFuel => simp [outcome] at ended

theorem within {first second : Eval α} (span : Span) (inner : first.Extends second) :
    (Eval.within span first).Extends (Eval.within span second) := by
  intro machine ended
  simp only [Eval.within] at ended ⊢
  rw [inner machine]
  intro short
  simp [short] at ended

theorem deeper {first second : Eval α} (inner : first.Extends second) :
    (Eval.deeper first).Extends (Eval.deeper second) := by
  intro machine ended
  simp only [Eval.deeper] at ended ⊢
  rw [inner]
  intro short
  simp [short] at ended

end Eval.Extends

theorem Plan.run_extends {jobs jobs' : ∀ β, Job β → Eval β}
    (parts : ∀ β (part : Job β), (jobs β part).Extends (jobs' β part)) (plan : Plan α) :
    (plan.run jobs).Extends (plan.run jobs') := by
  induction plan with
  | done result => exact .refl _
  | act action next ih => exact .bind (.refl action) ih
  | job part next ih => exact .bind (parts _ part) ih

namespace Job

theorem frame_extends (job : Job α) {first second : Eval α} (inner : first.Extends second) :
    (job.frame limits α first).Extends (job.frame limits α second) := by
  cases job with
  | expression | statement => exact .within _ inner
  | enter =>
    refine .bind (.refl _) fun depth => ?_
    split
    · exact .refl _
    · exact .deeper inner
  | _ => exact inner

theorem run_extends (more : fuel ≤ fuel') (job : Job α) :
    (job.run limits fuel α).Extends (job.run limits fuel' α) := by
  induction fuel generalizing fuel' α with
  | zero =>
    rw [run_zero]
    exact .outOfFuel _
  | succ fuel ih =>
    obtain ⟨fuel', rfl⟩ := Nat.exists_eq_add_of_le' more
    rw [← Nat.add_assoc, run_succ, run_succ]
    exact job.frame_extends (Plan.run_extends (fun _ part => ih (by omega) part) _)

/-- Two amounts of fuel that are enough lead to the same end. -/
theorem run_unique (job : Job α) {machine : Machine}
    (ended : job.run limits fuel α machine ≠ .outOfFuel)
    (ended' : job.run limits fuel' α machine ≠ .outOfFuel) :
    job.run limits fuel α machine = job.run limits fuel' α machine := by
  rcases Nat.le_total fuel fuel' with more | more
  · exact (run_extends more job machine ended).symm
  · exact run_extends more job machine ended'

end Job

/-- A program that ends does so in the same way with more fuel. -/
theorem Program.eval_of_le {program : Program} {scope : Scope} {machine : Machine}
    (ended : program.eval limits fuel scope machine ≠ .outOfFuel) (more : fuel ≤ fuel') :
    program.eval limits fuel' scope machine = program.eval limits fuel scope machine :=
  Job.run_extends more (.statements scope program.statements .null) machine ended

end PixelScript
