import Archetype.Generation.Run
import Archetype.Proofs.Flatten.Frames
import Archetype.Proofs.Generation.Visitors
import Archetype.Proofs.Walk.Noting

/-!
The scopes of inputs in compiled trees. Each input is resolved in a scope of its own, whether bodies
take the place of their invocations or not, as long as no script enters a scope twice from one
place. Where one does, a body can come to share the scope with nodes that rebuilding has not seen.
-/

namespace Archetype.Inputs

variable {externals defaults : ValueTable} {resolver : Resolver ρ}

/-- No two inputs of a compiled tree are resolved in one scope, provided that the frames that nodes
of a script open in one scope have distinct names without a number sign and are not hidden below
model entries, and that calls have construction numbers of their own. -/
theorem input_scopes_distinct {options : CompileOptions} {filter : Node → Bool}
    {library library' : Library} {script : Script} {next next' : NodeId} {tree : Node}
    (rooted : script.root.kind = .script)
    (distinct : DistinctScripts (script :: library.scripts))
    (spaced : ∀ known ∈ script :: library.scripts, known.Spaced)
    (compiles : compile options filter library script next = .ok (tree, next'))
    (ids : ((Node.invocations tree.children).map (·.id)).Nodup) {s s' : ρ} {after : ScopeTree}
    {trace : List Event} (walked : Walked (visitor externals defaults resolver) library'
      (Methods.declare [] tree) [tree] ({}, s) trace (after, s')) :
    (inputScopes trace).Nodup := by
  obtain ⟨table, slots, body, scanned, compiled⟩ := exists_compiled compiles
  have explores := @CallTable.ofScript_explored _ filter options.obfuscate _ distinct
  rw [scanned] at explores
  obtain ⟨done, explored⟩ := explores
  obtain ⟨apart, placed⟩ := compiled.placed (explored.spaced spaced)
    (spaced script (List.mem_cons_self ..))
  have root : tree.role = .block none := by
    simp only [Node.role, compiled.kind, rooted, NodeKind.frame?]
  have plain : Node.invocations [tree] = Node.invocations tree.children := by
    simp [Node.invocations_cons, Node.isInvocation_eq, root]
  have alone : Node.allOpens [tree] = Node.allOpens tree.children := by
    rw [Node.allOpens, Node.allOpens, List.append_nil, Node.opens_eq]
    simp only [root]
  have placed_tree : tree.Placed :=
    { below := apart
      framed := by simp [compiled.kind, rooted, NodeKind.isInput]
      unsourced := by simp [root] }
  have answered : ∀ entry ∈ Methods.declare [] tree, entry.2.PlacedMethod := by
    refine Methods.forall_declare (fun _ none => by cases none) fun method declared => ?_
    obtain ⟨top, kind⟩ := List.mem_filter.1 declared
    have sublist := (Node.invocations_children_sublist method).trans
      (Node.invocations_sublist (List.singleton_sublist.2 top))
    exact
      { kind := of_decide_eq_true kind
        placed := fun node member => placed node (Node.mem_preorderAll.2 ⟨method, top, member⟩)
        ids := ids.sublist (sublist.map _) }
  refine (walked.spread visitor_extends .init answered ?_ ?_ (plain ▸ ids)).distinct
  · exact ⟨alone ▸ apart.distinct, alone ▸ apart.unmarked⟩
  · rw [Node.preorderAll_cons]
    simpa [Node.preorderAll] using ⟨placed_tree, placed⟩

/-! A body that takes the place of its invocation in one step, and a second step beside it. -/

def question (id : UInt64) (value : String) : Node :=
  .bare id .inputText [("name", .string "y"), ("default", .string value)] []

def steppingScript : Script where
  identity := "b"
  root := .bare 3 .script [] [.bare 2 .step [("name", .string "x")] [question 1 "1"]]

/-- Sources the other script in one step, and asks for an input in a second one of that name. -/
def twoSteps (second : String) : Script where
  identity := "a"
  root := .bare 9 .script []
    [.bare 5 .step [("name", .string "s")] [.bare 4 .invokeSource [("src", .string "b")] []],
      .bare 8 .step [("name", .string second)]
        [.bare 7 .step [("name", .string "x")] [question 6 "2"]]]

abbrev compiledSteps (inline : Bool) (second : String) : Except CompileError (Node × NodeId) :=
  compile { inlineSingleUse := inline } (fun _ => true) (.ofScripts [steppingScript])
    (twoSteps second) ⟨20⟩

def AsksIn (tree : Node) (trace : List Event) (first second : ScopeId) : Prop :=
  (∃ after, Walked (visitor [] [] Resolver.batch) .empty (Methods.declare [] tree) [tree] ({}, ())
    trace (after, ())) ∧
  (inputVisits trace).map (fun visit => (visit.1.declaration, visit.2)) =
    [((question 1 "1").declaration, first), ((question 6 "2").declaration, second)]

theorem exists_asksIn {inline : Bool} {name : String} {first second : ScopeId}
    (evaluated : (compiledSteps inline name).toOption.any fun pair =>
      (walk (visitor [] [] Resolver.batch).noting .empty 3 [] pair.1 ({}, (), [])).any
        fun (result, _, _, notes) => result.toOption.isSome && decide
          ((notes.filter (·.1.kind.isInput)).map (fun visit => (visit.1.declaration, visit.2)) =
            [((question 1 "1").declaration, first), ((question 6 "2").declaration, second)])) :
    ∃ tree next trace, compiledSteps inline name = .ok (tree, next) ∧
      AsksIn tree trace first second := by
  obtain ⟨⟨tree, next⟩, compiles, evaluated⟩ := Stateful.exists_ok_of_any evaluated
  cases walks : walk (visitor [] [] Resolver.batch).noting .empty 3 [] tree ({}, (), []) with
  | none => simp [walks] at evaluated
  | some outcome =>
      obtain ⟨result, after, _, notes⟩ := outcome
      cases result with
      | error error => simp [walks, Except.toOption] at evaluated
      | ok _ =>
          simp only [walks, Except.toOption, Option.any_some, Option.isSome_some, Bool.true_and,
            decide_eq_true_eq] at evaluated
          obtain ⟨trace, walked, entries⟩ := exists_walked_noted walks
          refine ⟨tree, next, trace, compiles, ⟨after, walked⟩, ?_⟩
          rw [inputVisits, entries, evaluated]

/-- In steps of two names both inputs have a scope of their own, though the body is put into the
first step. -/
theorem input_scopes_distinct_of_two_names : ∃ tree next trace,
    compiledSteps true "t" = .ok (tree, next) ∧ tree.methods = [] ∧ AsksIn tree trace 3 6 ∧
      (inputScopes trace).Nodup := by
  obtain ⟨tree, next, trace, compiles, asks⟩ := @exists_asksIn true "t" 3 6 (by decide +kernel)
  have evaluated : (compiledSteps true "t").toOption.any fun pair =>
      decide ((Node.invocations pair.1.children).map (·.id)).Nodup && pair.1.methods.isEmpty := by
    decide +kernel
  simp only [compiles, Except.toOption, Option.any_some, Bool.and_eq_true, decide_eq_true_eq,
    List.isEmpty_iff] at evaluated
  obtain ⟨ids, inlined⟩ := evaluated
  have spaced : ∀ known ∈ twoSteps "t" :: (Library.ofScripts [steppingScript]).scripts,
      known.Spaced := by decide +kernel
  obtain ⟨_, walked⟩ := asks.1
  exact ⟨tree, next, trace, compiles, inlined, asks,
    input_scopes_distinct rfl (.of_nodup (by decide)) spaced compiles ids walked⟩

/-- In two steps of one name the inputs are asked for in one scope once the body is put into the
first step, and in two scopes as long as it is not. -/
theorem inlining_merges_input_scopes : ∃ plain next inlined next' trace trace',
    compiledSteps false "s" = .ok (plain, next) ∧ compiledSteps true "s" = .ok (inlined, next') ∧
      AsksIn plain trace 4 6 ∧ AsksIn inlined trace' 3 3 := by
  obtain ⟨plain, next, trace, compiles, asks⟩ := @exists_asksIn false "s" 4 6 (by decide +kernel)
  obtain ⟨inlined, next', trace', compiles', asks'⟩ :=
    @exists_asksIn true "s" 3 3 (by decide +kernel)
  exact ⟨plain, next, inlined, next', trace, trace', compiles, compiles', asks, asks'⟩

def reportOfSteps (inline : Bool) (second : String) : Option Report :=
  let generator : Generator :=
    { script := twoSteps second
      library := .ofScripts [steppingScript]
      options := some { inlineSingleUse := inline } }
  (generator.run .batch (fun _ _ => pure ()) 3 ⟨20⟩ () ()).bind (·.1.toOption)

/-- So the second input takes over the answer of the first once the body is put into its step. -/
theorem inlining_changes_answers : ∃ plain inlined : Report,
    reportOfSteps false "s" = some plain ∧ reportOfSteps true "s" = some inlined ∧
      plain.inputValues.get? "y" = some (.string "2") ∧
      inlined.inputValues.get? "y" = some (.string "1") := by
  have evaluated : (reportOfSteps false "s").any (fun report =>
      report.inputValues.get? "y" = some (.string "2")) ∧
      (reportOfSteps true "s").any (fun report =>
        report.inputValues.get? "y" = some (.string "1")) := by
    decide +kernel
  simp only [Option.any_eq_true, decide_eq_true_eq] at evaluated
  obtain ⟨⟨plain, runs, first⟩, inlined, runs', second⟩ := evaluated
  exact ⟨plain, inlined, runs, runs', first, second⟩

end Archetype.Inputs
