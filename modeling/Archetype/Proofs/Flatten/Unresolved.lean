import Archetype.Proofs.Flatten.Exploring

/-!
Calls that a scan reports as unresolved. A scan notes the methods of a script before it comes to
the calls that stand in the script, so a call that it reports names no method of its script.
-/

namespace Archetype

open Stateful

def CompileError.Blames (scripts : List Script) (error : CompileError) : Prop :=
  ∀ name identity, error = .unresolvedInvocation name identity →
    ∃ script ∈ scripts, script.identity = identity ∧ script.declares name = false

theorem CompileError.Blames.of_other {scripts : List Script} {error : CompileError}
    (other : ∀ name identity, error ≠ .unresolvedInvocation name identity) : error.Blames scripts :=
  fun name identity same => absurd same (other name identity)

namespace Scan

def State.Retains (s s' : State) : Prop :=
  ∀ key, s.declared.lookup key ≠ none → s'.declared.lookup key ≠ none

theorem State.Retains.refl (s : State) : s.Retains s := fun _ noted => noted

theorem State.Retains.of_eq {s s' : State} (same : s'.declared = s.declared) : s.Retains s' :=
  fun _ noted => same ▸ noted

theorem State.Retains.trans {s between s' : State} (first : s.Retains between)
    (second : between.Retains s') : s.Retains s' :=
  fun key noted => second key (first key noted)

theorem State.Notes.retained {script : Script} {methods : List Node} {s s' : State}
    (notes : s.Notes script methods) (retains : s.Retains s') : s'.Notes script methods :=
  fun method member name named => retains _ (notes method member name named)

def State.Knows (s : State) (script : Script) : Prop := s.Notes script script.root.methods

theorem State.Knows.declares {s : State} {script : Script} (knows : s.Knows script) {name : String}
    (unnoted : s.declared.lookup (script.identity, name) = none) :
    script.declares name = false := by
  refine List.any_eq_false.2 fun method member named => ?_
  exact knows method member name (by simpa using named) unnoted

variable {library : Library} {filter : Node → Bool} {scripts : List Script} {hideNames : Bool}
  {script : Script}

/-! Noting methods. -/

theorem ensures_noteMethod_retains (script : Script) (method : Node) (s : State)
    (may : CompileError → Prop) :
    Ensures (noteMethod script method) s
      (fun _ s' => s.Retains s' ∧ s'.Notes script [method]) may := by
  unfold noteMethod
  cases named : method.name? with
  | none =>
      refine ensures_pure ⟨.refl s, fun other member name named' => ?_⟩
      rw [List.mem_singleton.1 member, named] at named'
      cases named'
  | some name =>
      refine ensures_modify ?_
      cases there : s.declared.lookup (script.identity, name) with
      | some first =>
          simp only [there]
          refine ⟨.refl s, fun other member name' named' => ?_⟩
          rw [List.mem_singleton.1 member, named] at named'
          cases named'
          simp [there]
      | none =>
          simp only [there]
          refine ⟨fun key noted => ?_, fun other member name' named' => ?_⟩
          · rw [List.lookup_cons]
            split
            · simp
            · exact noted
          · rw [List.mem_singleton.1 member, named] at named'
            cases named'
            simp

theorem ensures_noteMethods_retains (script : Script) (may : CompileError → Prop) :
    ∀ (methods : List Node) (s : State),
      Ensures (methods.forM (noteMethod script)) s
        (fun _ s' => s.Retains s' ∧ s'.Notes script methods) may
  | [], s => ensures_pure ⟨.refl s, nofun⟩
  | method :: rest, s => by
      refine ensures_bind (ensures_noteMethod_retains script method s may) ?_
      rintro _ between ⟨retains, noted⟩
      refine (ensures_noteMethods_retains script may rest between).imp ?_ fun _ fault => fault
      rintro _ s' ⟨retains', noted'⟩
      refine ⟨retains.trans retains', fun other member => ?_⟩
      rcases List.mem_cons.1 member with rfl | member
      · exact noted.retained retains' other (List.mem_singleton.2 rfl)
      · exact noted' other member

theorem ensures_declareMethods_knows (script : Script) (s : State) (may : CompileError → Prop) :
    Ensures (declareMethods script) s (fun _ s' => s.Retains s' ∧ s'.Knows script) may :=
  ensures_noteMethods_retains script may script.root.methods s

theorem ensures_nameBody_declared (base : String) (s : State) (may : CompileError → Prop) :
    Ensures (nameBody hideNames base) s (fun _ s' => s'.declared = s.declared) may := by
  unfold nameBody
  refine ensures_get_bind ?_
  cases hideNames with
  | true => exact ensures_pure rfl
  | false => exact ensures_set_bind (ensures_pure rfl)

/-! Scanning. -/

def Resolves (scripts : List Script) (script : Script) (work : Scan Unit) : Prop :=
  ∀ s : State, s.Knows script →
    Ensures work s (fun _ s' => s.Retains s') (CompileError.Blames scripts)

namespace Resolves

theorem idle : Resolves scripts script (pure ()) := fun s _ => ensures_pure (.refl s)

theorem bind {first second : Scan Unit} (left : Resolves scripts script first)
    (right : Resolves scripts script second) :
    Resolves scripts script (first >>= fun _ => second) := by
  intro s knows
  refine ensures_bind (left s knows) fun _ between retains => ?_
  refine (right between (knows.retained retains)).imp ?_ fun _ fault => fault
  exact fun _ s' retains' => retains.trans retains'

end Resolves

def ResolvesBodies (scripts : List Script)
    (scanNodes : List Callee → Script → List Node → Scan Unit) : Prop :=
  ∀ stack script nodes, script ∈ scripts → Resolves scripts script (scanNodes stack script nodes)

variable {stack : List Callee} {scanNodes : List Callee → Script → List Node → Scan Unit}

/-- The methods of a script are noted when its body is entered, those of a method before that. -/
theorem ensures_enter_retains (bodies : ResolvesBodies scripts scanNodes)
    (known : script ∈ scripts) (callee : Callee) (base : String) (nodes : List Node) {s : State}
    (knows : ∀ owner name, callee = .method owner name → s.Knows script) :
    Ensures (enter hideNames stack scanNodes callee base script nodes) s
      (fun _ s' => s.Retains s') (CompileError.Blames scripts) := by
  unfold enter
  by_cases member : callee ∈ stack
  · simp only [member, if_true]
    exact ensures_throw_bind (.of_other fun _ _ => CompileError.noConfusion)
  simp only [member, if_false]
  refine ensures_get_bind ?_
  cases s.table.body? callee with
  | some other => exact ensures_modify (.of_eq rfl)
  | none =>
      refine ensures_bind (ensures_nameBody_declared base s _) fun canonical named declared => ?_
      refine ensures_modify_bind ?_
      have inside : ∀ between, s.Retains between → between.Knows script →
          Ensures (scanNodes (callee :: stack) script nodes) between (fun _ s' => s.Retains s')
            (CompileError.Blames scripts) := fun between retains knows =>
        (bodies _ script nodes known between knows).imp
          (fun _ _ retains' => retains.trans retains') fun _ fault => fault
      cases callee with
      | script identity =>
          refine ensures_bind (ensures_declareMethods_knows script _ _) ?_
          rintro _ between ⟨retains, knows⟩
          exact inside between (.trans (.of_eq declared) retains) knows
      | method owner name =>
          have retains : s.Retains { named with table := _ } := .of_eq declared
          exact inside _ retains ((knows owner name rfl).retained retains)

theorem resolves_source (bodies : ResolvesBodies scripts scanNodes)
    (loads : ∀ src target, library.load src = .ok target → target ∈ scripts) (src : String) :
    Resolves scripts script (source library (enter hideNames stack scanNodes) src) := by
  intro s knows
  unfold source
  cases loaded : library.load src with
  | error error => exact ensures_throw (.of_other fun _ _ => CompileError.noConfusion)
  | ok target =>
      refine ensures_modify_bind ?_
      refine (ensures_enter_retains bodies (loads src target loaded) _ _ _ fun _ _ => ?_).imp
        (fun _ s' retains => .trans (.of_eq rfl) retains) fun _ fault => fault
      exact Callee.noConfusion

theorem resolves_call (bodies : ResolvesBodies scripts scanNodes) (known : script ∈ scripts)
    (name : String) :
    Resolves scripts script (call (enter hideNames stack scanNodes) script name) := by
  intro s knows
  unfold call
  refine ensures_get_bind ?_
  cases found : s.declared.lookup (script.identity, name) with
  | none =>
      refine ensures_throw fun name' identity same => ?_
      cases same
      exact ⟨script, known, rfl, knows.declares found⟩
  | some method => exact ensures_enter_retains bodies known _ _ _ fun _ _ _ => knows

theorem resolves_scanNodes
    (loads : ∀ src target, library.load src = .ok target → target ∈ scripts) (limit : Nat) :
    ResolvesBodies scripts (Scan.scanNodes library filter hideNames limit) := by
  induction limit with
  | zero =>
      exact fun _ _ _ _ _ _ => ensures_throw (.of_other fun _ _ => CompileError.noConfusion)
  | succ limit ih =>
      intro stack script nodes known
      exact nodes_of_invocations .idle .bind (resolves_source ih loads) (resolves_call ih known)
        nodes

end Scan

open Scan in
/-- A call that a scan reports as unresolved names no method of the script that it stands in. -/
theorem CallTable.blames_of_ofScript {library : Library} {filter : Node → Bool} {hideNames : Bool}
    {script : Script} {error : CompileError}
    (fails : CallTable.ofScript library filter hideNames script = .error error) :
    error.Blames (script :: library.scripts) := by
  have known : script ∈ script :: library.scripts := List.mem_cons_self ..
  have loads : ∀ src target, library.load src = .ok target → target ∈ script :: library.scripts :=
    fun _ _ loads => List.mem_cons_of_mem _ (Library.mem_scripts loads)
  have scanned : Ensures (do
        declareMethods script
        Scan.scanNodes library filter hideNames (nestingBound library script) [] script
          script.root.children : Scan Unit) {}
      (fun _ _ => True) (CompileError.Blames (script :: library.scripts)) := by
    refine ensures_bind (ensures_declareMethods_knows script {} _) ?_
    rintro _ s ⟨-, knows⟩
    exact (resolves_scanNodes loads _ [] script _ known s knows).imp (fun _ _ _ => trivial)
      fun _ fault => fault
  unfold CallTable.ofScript at fails
  simp only at fails
  generalize (do
    declareMethods script
    Scan.scanNodes library filter hideNames (nestingBound library script) [] script
      script.root.children : Scan Unit) = scan at scanned fails
  cases outcome : scan.run {} with
  | ok pair =>
      rw [outcome] at fails
      cases fails
  | error error =>
      rw [outcome] at fails
      cases fails
      exact scanned.of_error outcome

end Archetype
