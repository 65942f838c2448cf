import PixelScript.Proofs.Evaluation.Mirroring
import PixelScript.Session.Host

/-! What hosts do on machines that are linked. The same action gives answers that stand for
each other, and a host sees no difference between these. -/
namespace PixelScript

variable {aside : Aside} {link : Link} {scope scope' : Scope} {held held' : List Value}
  {machine machine' : Machine}

theorem HostValue.make_linked (linked : Machine.Linked link aside machine machine')
    (scopes : Scope.Linked link scope scope') (holds : Values.Linked link held held')
    (value : HostValue) :
    ∃ later, link.Grows later ∧
      Machine.Linked later aside (value.make scope held machine).2
        (value.make scope' held' machine').2 ∧
      Value.Linked later (value.make scope held machine).1
        (value.make scope' held' machine').1 := by
  cases value with
  | null | boolean | string | number => exact ⟨link, .refl link, linked, .itself rfl⟩
  | range start last inclusive => exact linked.addRange _
  | canvas width height => exact linked.addBuffer _
  | reference name => exact ⟨link, .refl link, linked, .getD (linked.lookup? scopes name)⟩
  | obtained index => exact ⟨link, .refl link, linked, .getD (getElem?_of_forall₂ holds index)⟩

theorem HostValue.makeAll_linked (linked : Machine.Linked link aside machine machine')
    (scopes : Scope.Linked link scope scope') (holds : Values.Linked link held held')
    (values : List HostValue) :
    ∃ later, link.Grows later ∧
      Machine.Linked later aside (makeAll scope held machine values).2
        (makeAll scope' held' machine' values).2 ∧
      Values.Linked later (makeAll scope held machine values).1
        (makeAll scope' held' machine' values).1 := by
  induction values generalizing link machine machine' with
  | nil => exact ⟨link, .refl link, linked, .nil⟩
  | cons first more ih =>
    obtain ⟨later, grows, linked, same⟩ := first.make_linked linked scopes holds
    obtain ⟨last, grown, linked, sameMore⟩ := ih linked (scopes.grown grows) (holds.grown grows)
    exact ⟨last, grows.trans grown, linked, .cons (same.grown grown) sameMore⟩

/-- Answers that stand for each other. -/
inductive HostAnswer.Linked (link : Link) : HostAnswer → HostAnswer → Prop
  | itself (plain : answer.value? = none) : HostAnswer.Linked link answer answer
  | value (same : Value.Linked link result result') :
      HostAnswer.Linked link (.value result) (.value result')
  | maybe (same : Value.Linked link result result') :
      HostAnswer.Linked link (.maybe (some result)) (.maybe (some result'))

theorem HostAnswer.Linked.maybe_of {found found' : Option Value}
    (same : Option.Rel (Value.Linked link) found found') :
    HostAnswer.Linked link (.maybe found) (.maybe found') := by
  cases same with
  | some same => exact .maybe same
  | none => exact .itself rfl

theorem HostAnswer.ofOutcome_linked {limits : Limits} {duty : Duty}
    (linked : Machine.Linked link aside machine machine') {outcome outcome' : Outcome Value}
    (ends : (mirroring aside limits).Ends link duty (mirroring aside limits).Values outcome
      outcome') :
    ∃ later, link.Grows later ∧
      Machine.Linked later aside (ofOutcome machine outcome).2 (ofOutcome machine' outcome').2 ∧
      HostAnswer.Linked later (ofOutcome machine outcome).1 (ofOutcome machine' outcome').1 := by
  cases ends with
  | value grows linked same => exact ⟨_, grows, linked, .value same.same⟩
  | fault grows linked alike =>
    obtain rfl := alike.eq id
    exact ⟨_, grows, linked, .itself rfl⟩
  | cut cut => contradiction
  | outOfFuel allowed =>
    obtain ignored | ⟨_, rfl⟩ := allowed
    · contradiction
    · exact ⟨link, .refl link, linked, .itself rfl⟩

theorem Machine.Linked.scopeListing (linked : Machine.Linked link aside machine machine')
    (scopes : Scope.Linked link scope scope') :
    machine'.scopeListing scope' = machine.scopeListing scope := by
  have lengths := scopes.length_eq
  unfold Machine.scopeListing
  rw [lengths]
  cases scopes with
  | nil => rfl
  | cons pair =>
    dsimp only
    rw [(linked.bindings pair).names]

theorem HostAction.perform_linked (linked : Machine.Linked link aside machine machine')
    (limits : Limits) (scopes : Scope.Linked link scope scope')
    (holds : Values.Linked link held held') (action : HostAction) :
    ∃ later, link.Grows later ∧
      Machine.Linked later aside (action.perform limits scope held machine).2
        (action.perform limits scope' held' machine').2 ∧
      HostAnswer.Linked later (action.perform limits scope held machine).1
        (action.perform limits scope' held' machine').1 := by
  cases action with
  | run source =>
    simp only [HostAction.perform]
    cases Program.parse source with
    | ok program =>
      exact HostAnswer.ofOutcome_linked linked
        (mirroring.run limits (mirroring.statements aside limits scopes program.statements) _
          linked)
    | error error => exact ⟨link, .refl link, linked, .itself rfl⟩
  | define name value =>
    obtain ⟨later, grows, linked, same⟩ := value.make_linked linked scopes holds
    exact ⟨later, grows, linked.define (scopes.grown grows) name same, .itself rfl⟩
  | assign name value =>
    obtain ⟨later, grows, linked, same⟩ := value.make_linked linked scopes holds
    have assigned := linked.assign? (scopes.grown grows) name same
    simp only [HostAction.perform]
    generalize Machine.assign? _ scope name _ = after, Machine.assign? _ scope' name _ = after'
      at assigned ⊢
    cases assigned with
    | some linked => exact ⟨later, grows, linked, .itself rfl⟩
    | none => exact ⟨later, grows, linked, .itself rfl⟩
  | get name => exact ⟨link, .refl link, linked, .maybe_of (linked.lookup? scopes name)⟩
  | listing =>
    simp only [HostAction.perform, linked.scopeListing scopes]
    exact ⟨link, .refl link, linked, .itself rfl⟩
  | equal first second =>
    obtain ⟨later, grows, linked, same⟩ := first.make_linked linked scopes holds
    obtain ⟨last, grown, linked, sameSecond⟩ :=
      second.make_linked linked (scopes.grown grows) (holds.grown grows)
    simp only [HostAction.perform, linked.equal (same.grown grown) sameSecond]
    exact ⟨last, grows.trans grown, linked, .itself rfl⟩
  | limits => exact ⟨link, .refl link, linked, .itself rfl⟩
  | lookupMethod kind name saveAs =>
    have found := linked.method? kind name
    simp only [HostAction.perform]
    generalize machine.method? kind name = own, machine'.method? kind name = other at found ⊢
    cases found with
    | none => exact ⟨link, .refl link, linked, .itself rfl⟩
    | some same =>
      cases saveAs with
      | none => exact ⟨link, .refl link, linked, .maybe same⟩
      | some saved => exact ⟨link, .refl link, linked.define scopes saved same, .maybe same⟩
  | registerMethod kind name value =>
    obtain ⟨later, grows, linked, same⟩ := value.make_linked linked scopes holds
    exact ⟨later, grows, linked.registerMethod kind name same, .itself rfl⟩
  | call callee receiver args =>
    obtain ⟨first, grows, linked, same⟩ := callee.make_linked linked scopes holds
    obtain ⟨second, grown, linked, sameReceiver⟩ :=
      HostValue.makeAll_linked linked (scopes.grown grows) (holds.grown grows) receiver.toList
    have grows := grows.trans grown
    obtain ⟨third, more, linked, sameArgs⟩ :=
      HostValue.makeAll_linked linked (scopes.grown grows) (holds.grown grows) args
    have receivers := (sameReceiver.grown more).head?
    obtain ⟨last, most, linked, answers⟩ := HostAnswer.ofOutcome_linked linked
      (mirroring.run limits (.call .refl (mirroring.callee (same.grown (grown.trans more)))
        (mirroring.usable_option receivers) (mirroring.usable_all sameArgs))
        Evaluation.ampleFuel linked)
    exact ⟨last, grows.trans (more.trans most), linked, answers⟩
  | callMethod receiver name args =>
    obtain ⟨first, grows, linked, same⟩ := receiver.make_linked linked scopes holds
    obtain ⟨second, grown, linked, sameArgs⟩ :=
      HostValue.makeAll_linked linked (scopes.grown grows) (holds.grown grows) args
    obtain ⟨last, more, linked, answers⟩ := HostAnswer.ofOutcome_linked linked
      (mirroring.run limits (.send name (mirroring.usable (same.grown grown))
        (mirroring.usable_all sameArgs)) Evaluation.ampleFuel linked)
    exact ⟨last, grows.trans (grown.trans more), linked, answers⟩
  | next name =>
    have found := linked.lookup? scopes name
    simp only [HostAction.perform]
    generalize machine.lookup? scope name = own, machine'.lookup? scope' name = other at found ⊢
    cases found with
    | none => exact ⟨link, .refl link, linked, .itself rfl⟩
    | @some value value' same =>
      cases same with
      | iterator pair =>
        obtain ⟨after, given⟩ := linked.advanceIterator pair
        dsimp only
        rw [given]
        refine ⟨link, .refl link, after, .maybe_of ?_⟩
        cases (machine.advanceIterator _).1 with
        | some value => exact .some (.itself rfl)
        | none => exact .none
      | closure | pixelBuffer => exact ⟨link, .refl link, linked, .itself rfl⟩
      | itself plain =>
        cases value with
        | iterator => cases plain
        | _ => exact ⟨link, .refl link, linked, .itself rfl⟩
  | print line => exact ⟨link, .refl link, linked.printLine line, .itself rfl⟩

end PixelScript
