import Archetype.Proofs.Flatten.Closed
import Archetype.Proofs.Generation.Visitors
import Archetype.Proofs.Walk.Charting

/-!
The paths of inputs. Where no scope is entered by an input and by another block, the path of an
input is the names of the inputs that are open around it and its own; a step of the name of an input
beside it takes the name away.
-/

namespace Archetype.Inputs

variable {externals defaults : ValueTable} {resolver : Resolver ρ} {library : Library}

theorem binding_addsValues : ScopeTree.Binding ScopeTree.AddsValues where
  refl := .refl
  trans := .trans
  bindAt _ id _ _ := .modify id fun _ => rfl
  markVisited _ id := .modify id fun _ => rfl
  markSkipped _ id := .modify id fun _ => rfl
  declare := .declare

theorem visitor_addsValues : (visitor externals defaults resolver).AddsValues where
  toExtends := visitor_extends
  values entered := visitor_carries binding_addsValues _ entered

/-- A run that keeps track resolves inputs as the run does. Where inputs stay apart from other
blocks, the path of an input that is visited is the names of the inputs that are open, the outermost
first, and then its own. -/
theorem input_path_of_open_inputs {limit : Nat} {root : Node} {s s' : ρ} {tree' : ScopeTree}
    {result : Except RunError Unit}
    (resolves : resolveInputs externals defaults resolver library limit root ({}, s) =
      some (result, (tree', s'))) :
    ∃ walked track,
      walk (visitor externals defaults resolver).tracking library limit [] root ({}, s, {}) =
        some (walked, (tree', s', track)) ∧
      result = (walked >>= fun _ => tree'.requireResolved) ∧
      (InputsApart library track.stops → ∀ stop ∈ track.stops, ∀ name,
        stop.node.inputName? = some name →
          stop.tree.inputPath stop.scope =
            ".".intercalate (inputsAmong stop.around ++ [name])) := by
  have unfolded : resolveInputs externals defaults resolver library limit root ({}, s) =
      (walk (visitor externals defaults resolver) library limit [] root ({}, s)).bind
        fun outcome => some (outcome.1 >>= fun _ => outcome.2.1.requireResolved, outcome.2) := by
    unfold resolveInputs
    rw [Visit.bind_eq]
    congr 1
    funext outcome
    obtain ⟨walked, tree, s⟩ := outcome
    cases walked <;> rfl
  rw [unfolded] at resolves
  obtain ⟨⟨walked, tree, _⟩, walks, same⟩ := Option.bind_eq_some_iff.1 resolves
  cases same
  obtain ⟨track, tracked⟩ := exists_track walks {}
  refine ⟨walked, track, tracked, rfl, fun apart stop member name named => ?_⟩
  obtain ⟨-, -, arrives⟩ := charts_walk visitor_addsValues library limit root tracked
  have sound := (arrives apart trivial charted_init).sound stop member
  rw [ScopeTree.inputPath_eq, sound, inputsAmong_cons, named]
  rfl

/-- A switch around a call of a method in which a step holds an input. -/
def switchingScript : Node :=
  .bare 6 .script []
    [.bare 3 .method [("name", .string "m")]
      [.bare 2 .step [("name", .string "t")]
        [.bare 1 .inputText [("name", .string "b"), ("default", .string "d")] []]],
      .bare 5 .inputBoolean [("name", .string "a"), ("default", .bool true)]
        [.bare 4 .invokeCall [("name", .string "m")] []]]

/-- Neither the call nor the step is part of the path of the input inside. -/
theorem input_path_of_open_inputs_of_switch : ∃ (tree : ScopeTree) (track : Track),
    resolveInputs [] [] Resolver.batch .empty 2 switchingScript ({}, ()) =
      some (.ok (), (tree, ())) ∧
    walk (visitor [] [] Resolver.batch).tracking .empty 2 [] switchingScript ({}, (), {}) =
      some (.ok (), (tree, (), track)) ∧
    InputsApart .empty track.stops ∧
    ∃ stop ∈ track.stops, stop.node.inputName? = some "b" ∧
      stop.around.map (·.kind) = [.step, .method, .invokeCall, .inputBoolean, .script] ∧
      stop.tree.inputPath stop.scope = "a.b" := by
  have evaluated : (walk (visitor [] [] Resolver.batch).tracking .empty 2 [] switchingScript
      ({}, (), {})).any fun (_, _, _, track) => decide (InputsApart .empty track.stops) &&
        track.stops.any fun stop => stop.node.inputName? = some "b" &&
          stop.around.map (·.kind) = [.step, .method, .invokeCall, .inputBoolean, .script] &&
          inputsAmong stop.around = ["a"] := by
    decide +kernel
  have resolved : (resolveInputs [] [] Resolver.batch .empty 2 switchingScript ({}, ())).any
      fun run => run.1.isOk := by
    decide +kernel
  simp only [Option.any_eq_true] at resolved
  obtain ⟨⟨result, tree, _⟩, resolves, succeeds⟩ := resolved
  cases result with
  | error error => cases succeeds
  | ok done =>
      obtain ⟨walked, track, tracked, ends, paths⟩ := input_path_of_open_inputs resolves
      cases walked with
      | error error => cases ends
      | ok done =>
          simp only [tracked, Option.any_some, Bool.and_eq_true, decide_eq_true_eq,
            List.any_eq_true] at evaluated
          obtain ⟨apart, stop, member, ⟨named, around⟩, among⟩ := evaluated
          refine ⟨tree, track, resolves, tracked, apart, stop, member, named, around, ?_⟩
          rw [paths apart stop member "b" named, among]
          decide

def clashingScript : Node :=
  .bare 3 .script []
    [.bare 1 .step [("name", .string "s")] [],
      .bare 2 .inputText [("name", .string "s"), ("default", .string "d")] []]

/-- The step makes the scope that both are entered in, and the input loses its own name. -/
theorem input_path_lost_beside_step : ∃ (tree : ScopeTree) (track : Track),
    walk (visitor [] [] Resolver.batch).tracking .empty 1 [] clashingScript ({}, (), {}) =
      some (.ok (), (tree, (), track)) ∧
    ∃ stop ∈ track.stops, stop.node.inputName? = some "s" ∧
      ".".intercalate (inputsAmong stop.around ++ ["s"]) = "s" ∧
      stop.tree.inputPath stop.scope = "" := by
  have evaluated : (walk (visitor [] [] Resolver.batch).tracking .empty 1 [] clashingScript
      ({}, (), {})).any fun (result, _, _, track) => result.isOk &&
        track.stops.any fun stop => stop.node.inputName? = some "s" &&
          ".".intercalate (inputsAmong stop.around ++ ["s"]) = "s" &&
          stop.tree.inputPath stop.scope = "" := by
    decide +kernel
  simp only [Option.any_eq_true, Bool.and_eq_true, List.any_eq_true, decide_eq_true_eq] at evaluated
  obtain ⟨⟨result, tree, _, track⟩, walks, succeeds, stop, member, ⟨named, claimed⟩, lost⟩ :=
    evaluated
  cases result with
  | error error => cases succeeds
  | ok done => exact ⟨tree, track, walks, stop, member, named, claimed, lost⟩

end Archetype.Inputs
