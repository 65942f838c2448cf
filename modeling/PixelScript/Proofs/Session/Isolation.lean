import PixelScript.Proofs.Session.Hosting
import PixelScript.Session.Basic

/-! Runtimes of a session do not interfere. Their cells lie in one pool in the order in which
they were made, but each runtime finds its own only, and finds them as if it were alone. -/
namespace PixelScript

/-- What a value is or refers to. -/
inductive Content where
  | plain (value : Value)
  | function (parts : Option (List String × Block × Option String))
  | range (range : Option Range)
  | pixels (buffer : Option PixelBuffer)

def Machine.content (machine : Machine) : Value → Content
  | .closure id => .function (machine.closures[id]?.map fun closure =>
      (closure.params, closure.body, closure.name))
  | .iterator id => .range machine.iterators[id]?
  | .pixelBuffer id => .pixels machine.buffers[id]?
  | value => .plain value

/-- What a host sees of a value. -/
structure Sight where
  kind : ValueKind
  truthy : Bool
  display : String
  listing : String
  content : Content

def Machine.sight (machine : Machine) (value : Value) : Sight :=
  ⟨value.kind, value.isTruthy, machine.display value, machine.listing value,
    machine.content value⟩

/-- An answer without the value in it. -/
def HostAnswer.blank : HostAnswer → HostAnswer
  | .value _ => .value .null
  | .maybe found => .maybe (found.map fun _ => .null)
  | answer => answer

/-- What a host learns from a step: the answer, the text that was printed, and what can then
be seen of all values that it has got from the runtime. -/
structure Report where
  answer : HostAnswer
  printed : String
  sights : List Sight

inductive HostStep where
  /-- A new environment, inside this one or on its own. -/
  | scope (inside : Bool)
  | act (action : HostAction)

/-- A step in an environment of a runtime, by its number among those. -/
structure Turn where
  runtime : Nat
  environment : Nat
  step : HostStep

/-- The turns of one runtime, as the only one. -/
def Turn.ofRuntime (number : Nat) (turns : List Turn) : List Turn :=
  (turns.filter (·.runtime = number)).map ({ · with runtime := 0 })

theorem Turn.ofRuntime_cons (number : Nat) (turn : Turn) (turns : List Turn) :
    ofRuntime number (turn :: turns) = if turn.runtime = number then
      { turn with runtime := 0 } :: ofRuntime number turns else ofRuntime number turns := by
  by_cases own : turn.runtime = number <;> simp [ofRuntime, own]

namespace Session

/-- The scopes of a runtime's environments, in the order in which they were made. -/
def scopesOf (session : Session) (number : Nat) : List Scope :=
  (session.environments.toList.filter (·.runtime = number)).map (·.scope)

def sights (session : Session) (number : Nat) : List Sight :=
  match session.runtimes[number]? with
  | some runtime => runtime.obtained.map (session.machineFor runtime).sight
  | none => []

def takeIn (session : Session) (environment : Environment) : HostStep → Option Report × Session
  | .scope inside =>
    let session := (session.addScopeIn environment inside).2
    (some ⟨.done, "", session.sights environment.runtime⟩, session)
  | .act action =>
    match session.performIn environment action with
    | some ((answer, printed), session) =>
      (some ⟨answer.blank, printed, session.sights environment.runtime⟩, session)
    | none => (none, session)

/-- Takes a turn; there is nothing to report if the runtime has no such environment. -/
def take (session : Session) (turn : Turn) : Option Report × Session :=
  match (session.scopesOf turn.runtime)[turn.environment]? with
  | some scope => session.takeIn ⟨turn.runtime, scope⟩ turn.step
  | none => (none, session)

/-- Takes all turns, and reports those of one runtime. -/
def reports (number : Nat) (session : Session) : List Turn → List (Option Report)
  | [] => []
  | turn :: turns =>
    let (report, session) := session.take turn
    if turn.runtime = number then report :: session.reports number turns
    else session.reports number turns

/-- A session with complete runtimes, each silent or not and with its limits. -/
def build (settings : List (Bool × Limits)) : Session :=
  settings.foldl (fun session setting =>
    ({ session with silent := setting.1 }.addFresh setting.2).2) (empty true)

end Session

variable {aside : Aside} {link later : Link}

theorem Machine.Linked.sight {machine machine' : Machine} {value value' : Value}
    (linked : Machine.Linked link aside machine machine')
    (same : Value.Linked link value value') : machine'.sight value' = machine.sight value := by
  have content : machine'.content value' = machine.content value := by
    cases same with
    | itself plain =>
      cases value with
      | closure | iterator | pixelBuffer => cases plain
      | _ => rfl
    | closure pair =>
      obtain ⟨closure, closure', own, other, same⟩ := linked.closures.stored pair
      simp only [Machine.content, own, other, Option.map_some, same.params, same.body, same.name]
    | iterator pair =>
      obtain ⟨range, range', own, other, rfl⟩ := linked.iterators.stored pair
      simp only [Machine.content, own, other]
    | pixelBuffer pair => simp only [Machine.content, linked.buffer? pair]
  rw [Machine.sight, Machine.sight, same.kind, same.isTruthy, linked.display same,
    linked.listing same, content]

theorem HostAnswer.Linked.blank {answer answer' : HostAnswer}
    (same : HostAnswer.Linked link answer answer') : answer'.blank = answer.blank := by
  cases same <;> rfl

theorem HostAnswer.Linked.value? {answer answer' : HostAnswer}
    (same : HostAnswer.Linked link answer answer') :
    Values.Linked link answer.value?.toList answer'.value?.toList := by
  cases same with
  | itself plain =>
    rw [plain]
    exact .nil
  | value same | maybe same => exact .cons same .nil

/-! One runtime of a session. -/

/-- Two runtimes with the same settings, from which hosts have got values that stand for each
other. -/
structure Runtime.Linked (link : Link) (own pooled : Runtime) : Prop where
  limits : pooled.limits = own.limits
  silent : pooled.silent = own.silent
  obtained : Values.Linked link own.obtained pooled.obtained

theorem Runtime.Linked.grown {own pooled : Runtime} (grows : link.Grows later)
    (linked : Runtime.Linked link own pooled) : Runtime.Linked later own pooled :=
  { linked with obtained := linked.obtained.grown grows }

namespace Session

variable {alone session : Session} {number : Nat}

/-- A runtime of a session is what it would be alone. -/
structure Houses (aside : Aside) (link : Link) (alone session : Session) (number : Nat) :
    Prop where
  runtime : ∃ own pooled, alone.runtimes[0]? = some own ∧
    session.runtimes[number]? = some pooled ∧ Runtime.Linked link own pooled ∧
    Machine.Linked link aside (alone.machineFor own) (session.machineFor pooled)
  scopes : List.Forall₂ (Scope.Linked link) (alone.scopesOf 0) (session.scopesOf number)

theorem scopesOf_addScopeIn (session : Session) (environment : Environment) (inside : Bool)
    (number : Nat) : (session.addScopeIn environment inside).2.scopesOf number =
      session.scopesOf number ++ if environment.runtime = number then
        [(session.machine.openScope (if inside then environment.scope else []) []).1] else [] := by
  simp only [scopesOf, addScopeIn, addEnvironment, Array.toList_push, List.filter_append,
    List.map_append]
  by_cases same : environment.runtime = number <;> simp [same]

theorem Houses.sights (houses : Houses aside link alone session number) :
    session.sights number = alone.sights 0 := by
  obtain ⟨own, pooled, mine, theirs, runtimes, machines⟩ := houses.runtime
  rw [Session.sights, Session.sights, mine, theirs]
  dsimp only
  have obtained := runtimes.obtained
  generalize own.obtained = values, pooled.obtained = values' at obtained
  induction obtained with
  | nil => rfl
  | cons first _ ih => rw [List.map_cons, List.map_cons, machines.sight first, ih]

theorem Houses.addScopeIn (houses : Houses aside link alone session number) {scope scope' : Scope}
    (scopes : Scope.Linked link scope scope') (inside : Bool) :
    ∃ later, link.Grows later ∧ Houses aside later (alone.addScopeIn ⟨0, scope⟩ inside).2
      (session.addScopeIn ⟨number, scope'⟩ inside).2 number := by
  obtain ⟨own, pooled, mine, theirs, runtimes, machines⟩ := houses.runtime
  have outer : Scope.Linked link (if inside then scope else [])
      (if inside then scope' else []) := by
    split
    · exact scopes
    · exact .nil
  obtain ⟨later, grows, linked, opened⟩ := machines.openScope outer .nil
  refine ⟨later, grows, ⟨own, pooled, mine, theirs, runtimes.grown grows, linked⟩, ?_⟩
  rw [scopesOf_addScopeIn, scopesOf_addScopeIn, if_pos rfl, if_pos rfl]
  exact List.rel_append (houses.scopes.imp fun _ _ => Scope.Linked.grown grows) (.cons opened .nil)

theorem Houses.settle (houses : Houses aside link alone session number) {own pooled : Runtime}
    (mine : alone.runtimes[0]? = some own) (theirs : session.runtimes[number]? = some pooled)
    (runtimes : Runtime.Linked link own pooled) (grows : link.Grows later)
    {answer answer' : HostAnswer} (answers : HostAnswer.Linked later answer answer')
    {machine machine' : Machine} (linked : Machine.Linked later aside machine machine') :
    Houses aside later (alone.settle 0 own answer machine)
      (session.settle number pooled answer' machine') number := by
  have stored : ∀ {runtimes : Array Runtime} {index : Nat} {old new : Runtime},
      runtimes[index]? = some old → (runtimes.setIfInBounds index new)[index]? = some new := by
    intro runtimes index old new found
    rw [Array.getElem?_setIfInBounds, if_pos rfl, if_pos (Array.getElem?_eq_some_iff.mp found).1]
  refine ⟨⟨_, _, stored mine, stored theirs, ?_, ?_⟩,
    houses.scopes.imp fun _ _ => Scope.Linked.grown grows⟩
  · exact
      { limits := runtimes.limits
        silent := runtimes.silent
        obtained := List.rel_append (runtimes.obtained.grown grows) answers.value? }
  · exact
      { linked with
        console := congrArg (Console.mk · "") runtimes.silent
        callDepth := rfl }

/-- A step of the runtime is the same as if it were alone. -/
theorem Houses.takeIn (houses : Houses aside link alone session number) {scope scope' : Scope}
    (scopes : Scope.Linked link scope scope') (step : HostStep) :
    ∃ later, link.Grows later ∧
      (session.takeIn ⟨number, scope'⟩ step).1 = (alone.takeIn ⟨0, scope⟩ step).1 ∧
      Houses aside later (alone.takeIn ⟨0, scope⟩ step).2
        (session.takeIn ⟨number, scope'⟩ step).2 number := by
  cases step with
  | scope inside =>
    obtain ⟨later, grows, houses⟩ := houses.addScopeIn scopes inside
    refine ⟨later, grows, ?_, houses⟩
    simp only [Session.takeIn, houses.sights]
  | act action =>
    obtain ⟨own, pooled, mine, theirs, runtimes, machines⟩ := houses.runtime
    obtain ⟨later, grows, linked, answers⟩ :=
      action.perform_linked machines own.limits scopes runtimes.obtained
    have houses := houses.settle mine theirs runtimes grows answers linked
    refine ⟨later, grows, ?_⟩
    simp only [Session.takeIn, performIn, mine, theirs, Option.map_some, runtimes.limits,
      answers.blank, linked.console, houses.sights]
    exact ⟨trivial, houses⟩

theorem Houses.take (houses : Houses aside link alone session number) (environment : Nat)
    (step : HostStep) :
    ∃ later, link.Grows later ∧
      (session.take ⟨number, environment, step⟩).1 = (alone.take ⟨0, environment, step⟩).1 ∧
      Houses aside later (alone.take ⟨0, environment, step⟩).2
        (session.take ⟨number, environment, step⟩).2 number := by
  have found := getElem?_of_forall₂ houses.scopes environment
  simp only [Session.take]
  generalize (alone.scopesOf 0)[environment]? = own,
    (session.scopesOf number)[environment]? = pooled at found
  cases found with
  | some scopes => exact houses.takeIn scopes step
  | none => exact ⟨link, .refl link, rfl, houses⟩

end Session

/-! Several runtimes of a session. -/

/-- Nothing stands aside. -/
def Aside.nothing : Aside :=
  ⟨fun _ _ => False, fun _ _ => False, fun _ _ => False, fun _ _ => False⟩

/-- The cells of a machine that nothing is linked to. -/
def Machine.outside (machine : Machine) (link : Link) : Aside where
  frames id bindings := machine.frames[id]? = some bindings ∧ ∀ own, ¬ link.frames own id
  closures id closure := machine.closures[id]? = some closure ∧ ∀ own, ¬ link.closures own id
  iterators id range := machine.iterators[id]? = some range ∧ ∀ own, ¬ link.iterators own id
  buffers id buffer := machine.buffers[id]? = some buffer ∧ ∀ own, ¬ link.buffers own id

/-- Links to different cells. -/
structure Link.Apart (link other : Link) : Prop where
  frames : ∀ {id id' cell}, link.frames id cell → ¬ other.frames id' cell
  closures : ∀ {id id' cell}, link.closures id cell → ¬ other.closures id' cell
  iterators : ∀ {id id' cell}, link.iterators id cell → ¬ other.iterators id' cell
  buffers : ∀ {id id' cell}, link.buffers id cell → ¬ other.buffers id' cell

theorem Link.Apart.symm {link other : Link} (apart : link.Apart other) : other.Apart link where
  frames pair pair' := apart.frames pair' pair
  closures pair pair' := apart.closures pair' pair
  iterators pair pair' := apart.iterators pair' pair
  buffers pair pair' := apart.buffers pair' pair

theorem Machine.Linked.set_aside {machine machine' : Machine}
    (linked : Machine.Linked link aside machine machine') :
    Machine.Linked link (machine'.outside link) machine machine' :=
  { linked with
    frames := { linked.frames with kept := id }
    closures := { linked.closures with kept := id }
    iterators := { linked.iterators with kept := id }
    buffers := { linked.buffers with kept := id } }

theorem Machine.Linked.everything {machine machine' : Machine}
    (linked : Machine.Linked link aside machine machine') :
    Machine.Linked link .nothing machine machine' :=
  { linked with
    frames := { linked.frames with kept := False.elim }
    closures := { linked.closures with kept := False.elim }
    iterators := { linked.iterators with kept := False.elim }
    buffers := { linked.buffers with kept := False.elim } }

namespace Session

variable {alone session session' : Session} {number : Nat}

/-- One runtime may change, the others are left as they are. -/
structure Spares (number : Nat) (session session' : Session) : Prop where
  size : session'.runtimes.size = session.runtimes.size
  runtimes : ∀ other, other ≠ number → session'.runtimes[other]? = session.runtimes[other]?
  scopes : ∀ other, other ≠ number → session'.scopesOf other = session.scopesOf other

theorem takeIn_spares (session : Session) (environment : Environment) (step : HostStep) :
    Spares environment.runtime session (session.takeIn environment step).2 := by
  cases step with
  | scope inside =>
    refine ⟨rfl, fun _ _ => rfl, fun other miss => ?_⟩
    simp only [Session.takeIn]
    rw [scopesOf_addScopeIn, if_neg (Ne.symm miss), List.append_nil]
  | act action =>
    simp only [Session.takeIn, performIn]
    cases session.runtimes[environment.runtime]? with
    | none => exact ⟨rfl, fun _ _ => rfl, fun _ _ => rfl⟩
    | some runtime =>
      refine ⟨Array.size_setIfInBounds, fun other miss => ?_, fun _ _ => rfl⟩
      exact Array.getElem?_setIfInBounds_ne (Ne.symm miss)

theorem take_spares (session : Session) (turn : Turn) :
    Spares turn.runtime session (session.take turn).2 := by
  unfold Session.take
  split
  next scope _ => exact session.takeIn_spares ⟨turn.runtime, scope⟩ turn.step
  next => exact ⟨rfl, fun _ _ => rfl, fun _ _ => rfl⟩

theorem Houses.set_aside (houses : Houses .nothing link alone session number) :
    Houses (session.machine.outside link) link alone session number := by
  obtain ⟨own, pooled, mine, theirs, runtimes, machines⟩ := houses.runtime
  exact ⟨⟨own, pooled, mine, theirs, runtimes, machines.set_aside⟩, houses.scopes⟩

theorem Houses.everything (houses : Houses aside link alone session number) :
    Houses .nothing link alone session number := by
  obtain ⟨own, pooled, mine, theirs, runtimes, machines⟩ := houses.runtime
  exact ⟨⟨own, pooled, mine, theirs, runtimes, machines.everything⟩, houses.scopes⟩

/-- A step of one runtime leaves another, whose cells are different ones, as it is. The cells
that it makes are different ones as well. -/
theorem Houses.undisturbed {acting : Nat} {alone' : Session} {link' : Link}
    (houses : Houses .nothing link alone session number) (apart : link.Apart link')
    (acts : Houses (session.machine.outside link') later alone' session' acting)
    (spares : Spares acting session session') (other : number ≠ acting) :
    Houses .nothing link alone session' number ∧ link.Apart later := by
  obtain ⟨own, pooled, mine, theirs, runtimes, machines⟩ := houses.runtime
  obtain ⟨_, _, _, _, _, acted⟩ := acts.runtime
  obtain ⟨frames, framesApart⟩ := machines.frames.beside acted.frames apart.frames
  obtain ⟨closures, closuresApart⟩ := machines.closures.beside acted.closures apart.closures
  obtain ⟨iterators, iteratorsApart⟩ := machines.iterators.beside acted.iterators apart.iterators
  obtain ⟨buffers, buffersApart⟩ := machines.buffers.beside acted.buffers apart.buffers
  have theirs' := (spares.runtimes number other).trans theirs
  refine ⟨⟨⟨own, pooled, mine, theirs', runtimes, ?_⟩, ?_⟩,
    ⟨framesApart, closuresApart, iteratorsApart, buffersApart⟩⟩
  · exact ⟨frames, closures, iterators, buffers, machines.methods, machines.console,
      machines.callDepth⟩
  · rw [spares.scopes number other]
    exact houses.scopes

/-- The runtimes of a session are what each would be alone, and have no cell in common. -/
structure Separates (session : Session) (alone : Nat → Session) (link : Nat → Link) : Prop where
  houses : ∀ number < session.runtimes.size,
    Houses .nothing (link number) (alone number) session number
  apart : ∀ first < session.runtimes.size, ∀ second < session.runtimes.size, first ≠ second →
    (link first).Apart (link second)
  known : ∀ number, session.runtimes.size ≤ number → session.scopesOf number = []

namespace Separates

variable {alone : Nat → Session} {link : Nat → Link}

/-- A turn is reported as if its runtime were alone, and keeps the runtimes separate. -/
theorem take (separates : session.Separates alone link) (turn : Turn)
    (inside : turn.runtime < session.runtimes.size) :
    ∃ later, (session.take turn).1 = ((alone turn.runtime).take { turn with runtime := 0 }).1 ∧
      (session.take turn).2.Separates
        (Function.update alone turn.runtime
          ((alone turn.runtime).take { turn with runtime := 0 }).2)
        (Function.update link turn.runtime later) := by
  obtain ⟨later, _, same, acts⟩ :=
    (separates.houses turn.runtime inside).set_aside.take turn.environment turn.step
  have spares := session.take_spares turn
  have others : ∀ number < session.runtimes.size, number ≠ turn.runtime →
      Houses .nothing (link number) (alone number) (session.take turn).2 number ∧
        (link number).Apart later :=
    fun number bound other => (separates.houses number bound).undisturbed
      (separates.apart number bound turn.runtime inside other) acts spares other
  refine ⟨later, same, ?_, ?_, ?_⟩
  · intro number bound
    rw [spares.size] at bound
    by_cases other : number = turn.runtime
    · subst other
      rw [Function.update_self, Function.update_self]
      exact acts.everything
    · rw [Function.update_of_ne other, Function.update_of_ne other]
      exact (others number bound other).1
  · intro first bound second bound' differ
    rw [spares.size] at bound bound'
    by_cases other : first = turn.runtime
    · subst other
      rw [Function.update_self, Function.update_of_ne (Ne.symm differ)]
      exact (others second bound' (Ne.symm differ)).2.symm
    · rw [Function.update_of_ne other]
      by_cases other' : second = turn.runtime
      · subst other'
        rw [Function.update_self]
        exact (others first bound other).2
      · rw [Function.update_of_ne other']
        exact separates.apart first bound second bound' differ
  · intro number bound
    rw [spares.size] at bound
    rw [spares.scopes number (by omega)]
    exact separates.known number bound

/-- All turns of a runtime are reported as if it were alone. -/
theorem reports (separates : session.Separates alone link) (number : Nat)
    (inside : number < session.runtimes.size) (turns : List Turn) :
    session.reports number turns = (alone number).reports 0 (Turn.ofRuntime number turns) := by
  induction turns generalizing session alone link with
  | nil => rfl
  | cons turn turns ih =>
    have size := (session.take_spares turn).size
    by_cases known : turn.runtime < session.runtimes.size
    · obtain ⟨later, same, separates⟩ := separates.take turn known
      have rest := ih separates (by omega)
      by_cases own : turn.runtime = number
      · subst own
        rw [Function.update_self] at rest
        simp only [Session.reports, Turn.ofRuntime_cons, if_true, same, rest]
      · rw [Function.update_of_ne (Ne.symm own)] at rest
        simp only [Session.reports, Turn.ofRuntime_cons, if_neg own, rest]
    · -- a turn of no runtime does nothing
      have nowhere := separates.known turn.runtime (by omega)
      have own : turn.runtime ≠ number := by omega
      simp only [Session.reports, Turn.ofRuntime_cons, if_neg own, Session.take, nowhere,
        List.getElem?_nil]
      exact ih separates inside

end Separates

/-- What runtimes start with: the ready-made methods, and one frame each. -/
structure Built (settings : List (Bool × Limits)) (session : Session) : Prop where
  runtimes : session.runtimes =
    (settings.map fun setting => Runtime.fresh setting.1 setting.2).toArray
  frames : session.machine.frames = Array.replicate settings.length Machine.globalBindings
  scopes : ∀ number, session.scopesOf number = if number < settings.length then [[number]] else []

theorem build_built (settings : List (Bool × Limits)) : Built settings (build settings) := by
  induction settings using List.reverseRecOn with
  | nil => exact ⟨rfl, rfl, fun _ => rfl⟩
  | append_singleton settings setting ih =>
    have added : build (settings ++ [setting]) =
        ({ build settings with silent := setting.1 }.addFresh setting.2).2 := by
      rw [build, List.foldl_append]
      rfl
    rw [added]
    refine ⟨?_, ?_, fun number => ?_⟩
    · simp [addFresh, addRuntime, addEnvironment, ih.runtimes]
    · simp only [addFresh, addRuntime, addEnvironment, Machine.openScope, ih.frames,
        List.length_append, List.length_singleton, Array.replicate_succ]
    · have before := ih.scopes number
      simp only [scopesOf] at before
      simp only [scopesOf, addFresh, addRuntime, addEnvironment, Machine.openScope,
        Array.toList_push, List.filter_append, List.map_append, before]
      simp only [ih.runtimes, ih.frames, List.size_toArray, List.length_map, Array.size_replicate,
        List.length_append, List.length_singleton]
      by_cases new : number = settings.length
      · subst new
        simp
      · have other : settings.length ≠ number := Ne.symm new
        have bounds : number < settings.length + 1 ↔ number < settings.length := by omega
        simp [other, bounds]

/-- The place of a runtime's first frame. -/
def firstLink (number : Nat) : Link :=
  ⟨fun id id' => id = 0 ∧ id' = number, fun _ _ => False, fun _ _ => False, fun _ _ => False⟩

theorem Built.houses {settings : List (Bool × Limits)} {setting : Bool × Limits}
    (built : Built settings session) (own : Built [setting] alone)
    (found : settings[number]? = some setting) :
    Houses .nothing (firstLink number) alone session number := by
  have bound : number < settings.length := (List.getElem?_eq_some_iff.mp found).1
  have none : ∀ {α : Type} {same : α → α → Prop} {cells pool : Array α},
      Pooled same (fun _ _ => False) (fun _ _ => False) cells pool :=
    ⟨False.elim, False.elim, False.elim, False.elim⟩
  let runtime := Runtime.fresh setting.1 setting.2
  refine ⟨⟨runtime, runtime, ?_, ?_, ⟨rfl, rfl, .nil⟩, ?_⟩, ?_⟩
  · rw [own.runtimes]
    rfl
  · rw [built.runtimes, List.getElem?_toArray, List.getElem?_map, found, Option.map_some]
  · have plain : ∀ entry ∈ Machine.builtinMethods, entry.2.isHandle = false := by decide
    refine ⟨?_, none, none, none, .refl plain, rfl, rfl⟩
    constructor
    · rintro id id' ⟨rfl, rfl⟩
      refine ⟨Machine.globalBindings, Machine.globalBindings, ?_, ?_, .refl (by decide)⟩
      · simp only [machineFor, own.frames, List.length_singleton]
        rfl
      · simp only [machineFor, built.frames, Array.getElem?_replicate, if_pos bound]
    · rintro id id' other ⟨_, rfl⟩ ⟨_, rfl⟩
      rfl
    · rintro id id' other ⟨rfl, _⟩ ⟨rfl, _⟩
      rfl
    · exact False.elim
  · rw [own.scopes, built.scopes, if_pos bound]
    exact .cons (.cons ⟨rfl, rfl⟩ .nil) .nil

theorem build_separates (settings : List (Bool × Limits)) :
    (build settings).Separates (fun number => build settings[number]?.toList) firstLink where
  houses number inside := by
    have built := build_built settings
    rw [built.runtimes, List.size_toArray, List.length_map] at inside
    have found : settings[number]? = some settings[number] := List.getElem?_eq_getElem inside
    have own := build_built [settings[number]]
    rw [found]
    exact built.houses own found
  apart first _ second _ differ :=
    { frames := by
        rintro id id' cell ⟨_, rfl⟩ ⟨_, rfl⟩
        exact differ rfl
      closures := False.elim
      iterators := False.elim
      buffers := False.elim }
  known number outside := by
    have built := build_built settings
    rw [built.runtimes, List.size_toArray, List.length_map] at outside
    rw [built.scopes, if_neg (by omega)]

example : (build [(true, {}), (true, {})]).reports 0
    [⟨1, 0, .act (.define "x" (.canvas 1 1))⟩, ⟨0, 0, .act (.define "x" (.canvas 0 0))⟩,
      ⟨1, 0, .act (.get "x")⟩, ⟨0, 0, .act (.get "x")⟩] =
    [some ⟨.done, "", []⟩, some ⟨.maybe (some .null), "", [⟨.pixelBuffer, true,
      "<pixelBuffer 0x0>", "<pixelBuffer 0x0>", .pixels (some (.blank 0 0))⟩]⟩] := by
  cbv

end Session

end PixelScript
