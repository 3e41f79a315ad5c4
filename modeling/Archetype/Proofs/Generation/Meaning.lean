import Archetype.Generation.Assembly
import Archetype.Generation.Inputs
import Archetype.Model.Json
import Archetype.Proofs.Flatten.Closed
import Archetype.Proofs.Walk.Forest

/-!
What a model means. The walk puts a model together on a stack of open lists and maps; its meaning is
a recursion over the forest of the walk, in which a list is the sequence of what is directly inside
it and a map the merge of it.
-/

namespace Archetype

/-- A part of a model with the order and, if it has one, the key that it is put under. -/
structure Contribution where
  key : Option String
  order : Int64
  content : Fragment

/-- Merges a contribution under its key. One without a key counts for nothing. -/
def Model.take (model : Model) (part : Contribution) : Model :=
  match part.key with
  | some key => model.put key part.order part.content
  | none => model

namespace Node

def contribution (node : Node) (content : Fragment) : Contribution :=
  ⟨node.name?, node.declaration.order, content⟩

/-- What a list or a map makes of the model nodes directly inside it. -/
def collects? (node : Node) : Option (List Contribution → Fragment) :=
  match node.kind with
  | .modelList => some fun parts => .list (parts.map fun part => ⟨part.order, part.content⟩)
  | .modelMap => some fun parts => .map (parts.foldl Model.take .empty)
  | _ => none

def modelValue? (node : Node) (tree : ScopeTree) : Option Contribution :=
  match node.kind with
  | .modelValue =>
      (node.declaration.value?.bind fun value => (value.interpolate tree.lookup).toOption).map
        fun v => node.contribution (.value v)
  | _ => none

def binding? (node : Node) (tree : ScopeTree) : Option (String × Value) :=
  match node.kind with
  | .var => node.name?.bind fun name =>
      (Assembly.variableValue? tree name).map fun v => (name, v)
  | kind =>
      if kind.isInput then
        (tree.node tree.current).value?.map fun v => (tree.inputPath tree.current, v)
      else none

def rootValue? (node : Node) (tree : ScopeTree) : Option Contribution :=
  if node.declaration.isTransient then none
  else (node.binding? tree).map fun (key, v) => ⟨some key, node.declaration.order, .value v⟩

end Node

namespace Forest

def parts : Forest → List Contribution
  | .nil => []
  | .visit node tree inside later =>
      (match node.collects? with
        | some collect => [node.contribution (collect inside.parts)]
        | none => (node.modelValue? tree).toList ++ inside.parts) ++ later.parts

def rootValues : Forest → List Contribution
  | .nil => []
  | .visit node tree inside later =>
      (node.rootValue? tree).toList ++ inside.rootValues ++ later.rootValues

/-- What is put at the root where no list or map is around. A list or map is put there when it is
left, after the variables and inputs inside. -/
def contributions : Forest → List Contribution
  | .nil => []
  | .visit node tree inside later =>
      (match node.collects? with
        | some collect => inside.rootValues ++ [node.contribution (collect inside.parts)]
        | none =>
            (node.rootValue? tree).toList ++ (node.modelValue? tree).toList ++
              inside.contributions) ++ later.contributions

end Forest

/-! The work of the visitor, by what a node means. -/

def Fragment.take (whole : Fragment) (part : Contribution) : Fragment :=
  whole.add part.key part.order part.content

namespace Node

variable {node : Node} {tree : ScopeTree}

/-- A list or map that takes its parts one by one ends as what it makes of all of them. -/
theorem foldl_collect {collect : List Contribution → Fragment}
    (collects : node.collects? = some collect) (parts : List Contribution) :
    parts.foldl Fragment.take (collect []) = collect parts := by
  unfold collects? at collects
  split at collects
  · cases collects
    suffices ∀ items : ModelList, parts.foldl Fragment.take (.list items) =
        .list (items ++ parts.map fun part => ⟨part.order, part.content⟩) from this []
    induction parts with
    | nil => simp
    | cons part parts ih =>
        intro items
        rw [List.foldl_cons, Fragment.take, Fragment.add, ih]
        simp
  · cases collects
    suffices ∀ model : Model, parts.foldl Fragment.take (.map model) =
        .map (parts.foldl Model.take model) from this .empty
    induction parts with
    | nil => simp
    | cons part parts ih =>
        intro model
        have taken : (Fragment.map model).take part = .map (model.take part) := by
          unfold Fragment.take Fragment.add Model.take
          cases part.key <;> rfl
        rw [List.foldl_cons, List.foldl_cons, taken, ih]
  · cases collects

theorem rootValue?_of_collects {collect : List Contribution → Fragment}
    (collects : node.collects? = some collect) : node.rootValue? tree = none := by
  unfold collects? at collects
  unfold rootValue? binding?
  split at collects <;> simp_all [NodeKind.isInput]

end Node

namespace Assembling

def take (assembling : Assembling) (part : Contribution) : Assembling :=
  assembling.add part.key part.order part.content

def enter (node : Node) (tree : ScopeTree) (assembling : Assembling) : Assembling :=
  match node.collects? with
  | some collect => assembling.begin node (collect [])
  | none =>
      (node.modelValue? tree).toList.foldl take
        { assembling with model := (node.rootValue? tree).toList.foldl .take assembling.model }

def leave (node : Node) (assembling : Assembling) : Assembling :=
  if node.collects?.isSome then assembling.finish else assembling

theorem take_nil (model : Model) (part : Contribution) :
    take ⟨model, []⟩ part = ⟨model.take part, []⟩ := by
  unfold take add Model.take
  cases part.key <;> rfl

/-- With a list or map around it, a forest adds its parts to the innermost one and its values to the
root. -/
theorem replay_pending (forest : Forest) (model : Model) (innermost : Pending)
    (around : List Pending) :
    forest.replay enter leave ⟨model, innermost :: around⟩ =
      ⟨forest.rootValues.foldl .take model,
        { innermost with content := forest.parts.foldl .take innermost.content } :: around⟩ := by
  induction forest generalizing model innermost around with
  | nil => rfl
  | visit node tree inside later ihInside ihLater =>
      rw [Forest.replay, Forest.rootValues, Forest.parts]
      cases collects : node.collects? with
      | some collect =>
          have begun : enter node tree ⟨model, innermost :: around⟩ =
              ⟨model, ⟨node.name?, node.declaration.order, collect []⟩ :: innermost :: around⟩ := by
            simp only [enter, collects, begin]
          have finished : ∀ model content, leave node
              ⟨model, ⟨node.name?, node.declaration.order, content⟩ :: innermost :: around⟩ =
              ⟨model, { innermost with
                content := innermost.content.take (node.contribution content) } :: around⟩ := by
            intro model content
            simp only [leave, collects]
            rfl
          rw [begun, ihInside, Node.foldl_collect collects, finished, ihLater,
            Node.rootValue?_of_collects collects]
          simp
      | none =>
          have entered : enter node tree ⟨model, innermost :: around⟩ =
              ⟨(node.rootValue? tree).toList.foldl .take model,
                { innermost with content :=
                  (node.modelValue? tree).toList.foldl .take innermost.content } :: around⟩ := by
            simp only [enter, collects]
            cases node.modelValue? tree <;> rfl
          have left : ∀ assembling, leave node assembling = assembling := by
            intro assembling
            simp [leave, collects]
          rw [entered, left, ihInside, ihLater]
          simp only [List.foldl_append]

theorem replay_nil (forest : Forest) (model : Model) :
    forest.replay enter leave ⟨model, []⟩ = ⟨forest.contributions.foldl .take model, []⟩ := by
  induction forest generalizing model with
  | nil => rfl
  | visit node tree inside later ihInside ihLater =>
      rw [Forest.replay, Forest.contributions]
      cases collects : node.collects? with
      | some collect =>
          have begun : enter node tree ⟨model, []⟩ =
              ⟨model, [⟨node.name?, node.declaration.order, collect []⟩]⟩ := by
            simp only [enter, collects, begin]
          have finished : ∀ model content, leave node
              ⟨model, [⟨node.name?, node.declaration.order, content⟩]⟩ =
              ⟨model.take (node.contribution content), []⟩ := by
            intro model content
            simp only [leave, collects]
            exact take_nil model (node.contribution content)
          rw [begun, replay_pending, Node.foldl_collect collects, finished, ihLater]
          simp only [List.foldl_append, List.foldl_cons, List.foldl_nil]
      | none =>
          have entered : enter node tree ⟨model, []⟩ =
              ⟨(node.modelValue? tree).toList.foldl .take
                ((node.rootValue? tree).toList.foldl .take model), []⟩ := by
            simp only [enter, collects]
            cases node.modelValue? tree with
            | none => rfl
            | some part => exact take_nil _ part
          have left : ∀ assembling, leave node assembling = assembling := by
            intro assembling
            simp [leave, collects]
          rw [entered, left, ihInside, ihLater]
          simp only [List.foldl_append]

end Assembling

namespace Assembly

open Visit

theorem gives_update {f : Assembling → Assembling} {c c' : ScopeTree × Assembling}
    (gives : Gives (update f) c () c') : c' = (c.1, f c.2) := by
  obtain ⟨_, _, read, written⟩ := gives_bind.1 gives
  obtain ⟨rfl, rfl⟩ := gives_state.1 read
  exact gives_setState.1 written

/-- What a node puts at the root of the model under a key, if it is worth anything. -/
theorem gives_enterRoot {node : Node} {tree : ScopeTree} {key : String} {value : Option Value}
    (worth : node.binding? tree = value.map fun v => (key, v)) {c c' : ScopeTree × Assembling}
    (gives : Gives (enterRoot node key value) c () c') :
    c' = (c.1, { c.2 with model := (node.rootValue? tree).toList.foldl .take c.2.model }) := by
  unfold Node.rootValue?
  unfold enterRoot at gives
  rw [worth]
  cases value with
  | none =>
      obtain ⟨_, rfl⟩ := gives_pure.1 gives
      simp
  | some v =>
      simp only at gives
      split at gives
      · next transient =>
          obtain ⟨_, rfl⟩ := gives_pure.1 gives
          simp [transient]
      · next kept =>
          obtain rfl := gives_update gives
          simp only [kept]
          rfl

theorem gives_enterValue {node : Node} (kind : node.kind = .modelValue)
    {c c' : ScopeTree × Assembling} (gives : Gives (enterValue node) c () c') :
    c' = (c.1, (node.modelValue? c.1).toList.foldl .take c.2) := by
  unfold Node.modelValue?
  unfold enterValue at gives
  rw [kind]
  cases written : node.declaration.value? with
  | none =>
      rw [written] at gives
      obtain ⟨_, rfl⟩ := gives_pure.1 gives
      rfl
  | some value =>
      rw [written] at gives
      obtain ⟨tree, _, scope, working⟩ := gives_bind.1 gives
      obtain ⟨rfl, rfl⟩ := gives_scope.1 scope
      obtain ⟨v, _, interpolates, updates⟩ := gives_bind.1 working
      obtain ⟨interpolated, rfl⟩ := gives_ofExcept.1 interpolates
      rw [gives_update updates, Option.bind_some, interpolated]
      rfl

theorem visitor_does : visitor.Does Assembling.enter Assembling.leave where
  enter := by
    intro node c c' gives
    simp only [visitor] at gives
    split at gives
    · next kind =>
        rw [gives_update gives]
        simp [Assembling.enter, Node.collects?, kind]
    · next kind =>
        rw [gives_update gives]
        simp [Assembling.enter, Node.collects?, kind]
    · next kind =>
        have unbound : node.rootValue? c.1 = none := by
          simp [Node.rootValue?, Node.binding?, kind, NodeKind.isInput]
        rw [gives_enterValue kind gives]
        simp [Assembling.enter, Node.collects?, kind, unbound]
    · next kind =>
        simp only [Assembling.enter, Node.collects?, Node.modelValue?, kind]
        split at gives
        · next name named =>
            obtain ⟨tree, _, scope, enters⟩ := gives_bind.1 gives
            obtain ⟨rfl, rfl⟩ := gives_scope.1 scope
            exact gives_enterRoot (by simp [Node.binding?, kind, named]) enters
        · next unnamed =>
            obtain ⟨_, rfl⟩ := gives_pure.1 gives
            simp [Node.rootValue?, Node.binding?, kind, unnamed]
    · next notMap notList notValue notVariable =>
        have collects : node.collects? = none := by
          unfold Node.collects?
          split <;> simp_all
        have noValue : node.modelValue? c.1 = none := by
          unfold Node.modelValue?
          split <;> simp_all
        simp only [Assembling.enter, collects, noValue]
        split at gives
        · next input =>
            obtain ⟨tree, _, scope, enters⟩ := gives_bind.1 gives
            obtain ⟨rfl, rfl⟩ := gives_scope.1 scope
            refine gives_enterRoot ?_ enters
            unfold Node.binding?
            split
            · simp_all
            · simp [input]
        · next other =>
            obtain ⟨_, rfl⟩ := gives_pure.1 gives
            have unbound : node.rootValue? c'.1 = none := by
              unfold Node.rootValue? Node.binding?
              split
              · rfl
              · split <;> simp_all
            simp [unbound]
  leave := by
    intro node c c' gives
    simp only [visitor] at gives
    unfold Assembling.leave Node.collects?
    split at gives
    · next kind =>
        rw [kind]
        exact gives_update gives
    · next kind =>
        rw [kind]
        exact gives_update gives
    · next notMap notList =>
        obtain ⟨_, rfl⟩ := gives_pure.1 gives
        split <;> simp_all

end Assembly

/-- The model that a walk assembles is what the forest of the walk puts at its root, merged in
order, and no list or map is left open. -/
theorem model_of_contributions {library : Library} {limit : Nat} {root : Node}
    {tree tree' : ScopeTree} {model : Model}
    (assembles : assembleModel library limit root tree = some (.ok model, tree')) :
    ∃ forest, Visits library (Methods.declare [] root) [root] tree forest tree' ∧
      (∀ forest' tree'', Visits library (Methods.declare [] root) [root] tree forest' tree'' →
        forest' = forest ∧ tree'' = tree') ∧
      walk Assembly.visitor library limit [] root (tree, {}) =
        some (.ok (), (tree', ⟨forest.contributions.foldl .take .empty, []⟩)) ∧
      model = forest.contributions.foldl .take .empty := by
  unfold assembleModel at assembles
  cases outcome : walk Assembly.visitor library limit [] root (tree, {}) with
  | none => simp [outcome] at assembles
  | some pair =>
      obtain ⟨result, walked, assembled⟩ := pair
      cases result with
      | error error => simp [outcome, Except.map] at assembles
      | ok done =>
          simp only [outcome, Option.bind_eq_bind, Option.bind_some, Except.map, Option.pure_def,
            Option.some.injEq, Prod.mk.injEq, Except.ok.injEq] at assembles
          obtain ⟨rfl, rfl⟩ := assembles
          obtain ⟨trace, run⟩ := exists_walked outcome
          obtain ⟨forest, visits, state⟩ := run.exists_visits Assembly.visitor_does
          obtain rfl : assembled = ⟨forest.contributions.foldl .take .empty, []⟩ :=
            state.trans (Assembling.replay_nil forest .empty)
          exact ⟨forest, visits, fun _ _ other => visits.unique other, rfl, rfl⟩

/-- Two lists under one name, of which the first has a map inside a condition, and a value without a
name in that map. -/
def listingScript : Node :=
  .bare 10 .script []
    [.bare 1 .var [("name", .string "x"), ("value", .string "1")] [],
      .bare 7 .modelList [("name", .string "l")]
        [.bare 2 .modelValue [("value", .string "$\x7bx\x7d"), ("order", .int 5)] [],
          { id := ⟨6⟩
            declaration := { kind := .condition
                             attributes := .ofList [("expression", .string "$\x7bx\x7d == '1'")] }
            expression := some (.compare .equal (.var "x") (.literal (.string "1")))
            children :=
              [.bare 5 .modelMap []
                [.bare 3 .modelValue [("name", .string "k"), ("value", .string "v")] [],
                  .bare 4 .modelValue [("value", .string "w")] []]] }],
      .bare 9 .inputText [("name", .string "y"), ("default", .string "d")] [],
      .bare 12 .modelList [("name", .string "l")]
        [.bare 11 .modelValue [("value", .string "2")] []]]

/-- The map is the second item of the list that both make, and the value without a name is lost. -/
theorem model_of_contributions_of_two_lists : ∃ tree model tree' forest,
    resolveInputs [] [] Resolver.batch .empty 1 listingScript ({}, ()) =
      some (.ok (), (tree, ())) ∧
    assembleModel .empty 1 listingScript tree = some (.ok model, tree') ∧
    Visits .empty (Methods.declare [] listingScript) [listingScript] tree forest tree' ∧
    model = forest.contributions.foldl .take .empty ∧
    model.toJson.compact =
      "\x7b\"x\":\"1\",\"y\":\"d\",\"l\":[\"1\",\x7b\"k\":\"v\"\x7d,\"2\"]\x7d" := by
  have evaluated : (resolveInputs [] [] Resolver.batch .empty 1 listingScript ({}, ())).any
      fun (result, tree, _) => result.isOk &&
        (assembleModel .empty 1 listingScript tree).any fun (result, _) =>
          result.toOption.any fun model => model.toJson.compact =
            "\x7b\"x\":\"1\",\"y\":\"d\",\"l\":[\"1\",\x7b\"k\":\"v\"\x7d,\"2\"]\x7d" := by
    decide +kernel
  simp only [Option.any_eq_true, Bool.and_eq_true, decide_eq_true_eq] at evaluated
  obtain ⟨⟨result, tree, _⟩, resolves, resolved, ⟨result', tree'⟩, assembles, model, succeeds,
    shown⟩ := evaluated
  cases result with
  | error error => cases resolved
  | ok done =>
      cases result' with
      | error error => cases succeeds
      | ok model' =>
          obtain rfl := Option.some.inj succeeds
          obtain ⟨forest, visits, -, -, meaning⟩ := model_of_contributions assembles
          exact ⟨tree, _, tree', forest, resolves, assembles, visits, meaning, shown⟩

end Archetype
