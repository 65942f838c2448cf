import PixelScript.Proofs.Evaluation.Pairing

/-! Code on machines that are linked. The same code ends in the same way on both, with results
that stand for each other; links are added for the cells that it makes, and what stands aside
stays as it is. -/
namespace PixelScript

open Coupling

/-- The same code on linked machines. -/
def mirroring (aside : Aside) (limits : Limits) : Coupling where
  toWording := .same fun _ => True
  World := Link
  grown := Link.Grows
  limits := limits
  cells link := link
  scopes link _ := Scope.Linked link
  machines link := Machine.Linked link aside
  faults _ := (Wording.same fun _ => True).SameFault
  shortage := .shared
  fuels _ _ fuel fuel' := fuel' = fuel

namespace mirroring

variable {aside : Aside} {limits : Limits} {link : Link} {duty : Duty} {value value' : Value}

theorem usable (same : Value.Linked link value value') :
    (mirroring aside limits).Usable link duty value value' :=
  ⟨same, fun _ _ => trivial⟩

theorem usable_option {found found' : Option Value}
    (same : Option.Rel (Value.Linked link) found found') :
    Option.Rel ((mirroring aside limits).Usable link duty) found found' := by
  cases same with
  | some same => exact .some (usable same)
  | none => exact .none

theorem usable_all {args args' : List Value} (same : Values.Linked link args args') :
    (mirroring aside limits).Arguments link args args' :=
  same.imp fun _ _ => usable

theorem callee (same : Value.Linked link value value') :
    (mirroring aside limits).Callee link duty value value' :=
  ⟨usable same, fun _ => ⟨rfl, .none⟩⟩

theorem worlds : (mirroring aside limits).Worlds where
  grown_refl := .refl
  grown_trans := .trans
  cells_grown grows := grows
  scopes_grown grows scopes := scopes.grown grows
  binds_grown _ := id

theorem frames : (mirroring aside limits).Frames where
  lookup linked scopes _ name := by
    obtain rfl := name
    exact ⟨usable_option (linked.lookup? scopes _), fun _ => rfl⟩
  define linked scopes _ name same := by
    obtain rfl := name
    exact linked.define scopes _ same.same
  assign linked scopes _ name same := by
    obtain rfl := name
    exact ⟨linked.assign? scopes _ same.same, fun _ => rfl⟩
  openScope linked scopes _ _ entries := by
    obtain ⟨later, grows, linked, scopes⟩ :=
      linked.openScope scopes (entries.weaken fun usable => usable.same)
    exact ⟨later, grows, linked, scopes, fun _ => trivial⟩
  own _ _ _ := trivial

theorem functions : (mirroring aside limits).Functions where
  addClosure name linked scopes same := by
    obtain ⟨rfl, rfl, _⟩ := Wording.eq_of_same_literal same
    exact linked.addClosure ⟨rfl, rfl, rfl, scopes⟩
  closure linked pair := by
    obtain ⟨closure, closure', own, other, same⟩ := linked.closures.stored pair
    rw [own, other]
    refine ⟨.some ⟨(), same.scope, ?_⟩, by simp⟩
    rw [same.params, same.body]
    exact Wording.same_literal trivial
  method {_ machine machine'} kind name linked := by
    have found := linked.method? kind name
    generalize machine.method? kind name = own, machine'.method? kind name = other at found ⊢
    cases found with
    | some same => exact .some (callee same)
    | none => exact .none
  registerMethod kind name linked same _ := linked.registerMethod kind name same.same

theorem cells : (mirroring aside limits).Cells where
  addRange range linked := linked.addRange range
  advance linked pair := linked.advanceIterator pair
  addBuffer buffer linked := linked.addBuffer buffer
  updateBuffer change linked pair := linked.updateBuffer pair change
  buffer linked pair := linked.buffer? pair
  display linked same := linked.display same
  printLine line linked := linked.printLine line

theorem lawful (aside : Aside) (limits : Limits) : (mirroring aside limits).Lawful where
  toLawful := Wording.same_lawful fun _ _ => trivial
  toWorlds := worlds
  frames := frames
  functions := functions
  cells := cells
  depths := .of_level rfl (.inl rfl) (fun linked => linked.callDepth)
    fun _ linked => { linked with callDepth := rfl }
  faults := .of_same rfl
  fuels := .of_equal rfl (Nat.lt_succ_self 1) (by simp [mirroring]) trivial

theorem run (limits : Limits) {α β : Type} {good : Link → α → β → Prop} {job : Job α} {job' : Job β}
    (pairs : (mirroring aside limits).Pairs link duty good job job') (fuel : Nat)
    {machine machine' : Machine} (linked : Machine.Linked link aside machine machine') :
    (mirroring aside limits).Ends link duty good (job.run limits fuel _ machine)
      (job'.run limits fuel _ machine') :=
  run_tracks (lawful aside limits) pairs rfl machine machine' linked

/-- The same statements in scopes that stand for each other. -/
theorem statements (aside : Aside) (limits : Limits) {scope scope' : Scope}
    (scopes : Scope.Linked link scope scope') (stmts : List Stmt) :
    (mirroring aside limits).Pairs link .settled (mirroring aside limits).Values
      (.statements scope stmts .null) (.statements scope' stmts .null) := by
  have scopes : (mirroring aside limits).scopes link () scope scope' := scopes
  exact .statements scopes ⟨rfl, trivial⟩ (fun _ _ _ _ => trivial) (usable (.itself rfl))

end mirroring

end PixelScript
