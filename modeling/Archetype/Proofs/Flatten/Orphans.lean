import Archetype.Proofs.Flatten.Finished

/-!
Methods that calls lead to. In a compiled tree these are all methods, unless an input loses its
options: the calls below it are rebuilt before it goes, and methods that only they called are left.
-/

namespace Archetype

/-- Calls lead to a method under the name: a call beside the methods, or one in another method that
calls lead to. -/
inductive Node.Reachable (root : Node) : String → Prop
  | body (member : call ∈ preorderAll root.body) (kind : call.kind = .invokeCall)
      (named : call.name? = some name) : Reachable root name
  | method (outer : Reachable root caller) (calls : root.Calls caller callee) :
      Reachable root callee

/-- Where calls lead to what nodes call, they lead to the methods that the nodes are the first to
call. -/
theorem Discovers.reachable {root : Node} {seen : List String} {nodes methods : List Node}
    (discovers : Discovers seen nodes methods) (declared : methods ⊆ root.methods)
    (calls : ∀ call ∈ Node.preorderAll nodes, call.kind = .invokeCall →
      ∀ name, call.name? = some name → root.Reachable name) :
    ∀ method ∈ methods, ∃ name, method.name? = some name ∧ root.Reachable name := by
  induction discovers with
  | nil => nofun
  | known _ _ _ _ ih => exact ih declared (Node.forall_preorderAll_cons.1 calls).2.2
  | @fresh name _ _ _ _ _ method call named _ names _ _ ihInside ih =>
      obtain ⟨here, -, later⟩ := Node.forall_preorderAll_cons.1 calls
      obtain ⟨own, others⟩ := List.cons_subset.1 declared
      obtain ⟨nested, others⟩ := List.append_subset.1 others
      have reachable : root.Reachable name := here call name named
      have inside : ∀ inner ∈ Node.preorderAll method.children, inner.kind = .invokeCall →
          ∀ callee, inner.name? = some callee → root.Reachable callee :=
        fun inner member kind callee target =>
          .method reachable ⟨method, own, names, inner, member, kind, target⟩
      exact List.forall_mem_cons.2 ⟨⟨name, names, reachable⟩,
        List.forall_mem_append.2 ⟨ihInside nested inside, ih others later⟩⟩
  | other _ _ _ ihBelow ih =>
      obtain ⟨-, below, later⟩ := Node.forall_preorderAll_cons.1 calls
      obtain ⟨nested, others⟩ := List.append_subset.1 declared
      exact List.forall_mem_append.2 ⟨ihBelow nested below, ih others later⟩

/-! Hiding names and locations changes no call. -/

namespace Node.Anonymized

variable {root hidden call : Node} {nodes twins : List Node}

theorem exists_call (matched : Matched Node.Anonymized nodes twins)
    (member : call ∈ preorderAll nodes) (kind : call.kind = .invokeCall) :
    ∃ twin ∈ preorderAll twins, twin.kind = .invokeCall ∧ twin.name? = call.name? := by
  obtain ⟨twin, inside, same⟩ := matched.symm.exists_right call member
  exact ⟨twin, inside, same.kind.trans kind, same.name? (kind ▸ NodeKind.noConfusion)⟩

theorem calls (matched : Matched Node.Anonymized root.children hidden.children)
    {caller callee : String} (calls : root.Calls caller callee) : hidden.Calls caller callee := by
  obtain ⟨method, declared, named, call, member, kind, target⟩ := calls
  have methods : Matched Node.Anonymized root.methods hidden.methods :=
    matched.filter fun node twin same => by rw [same.kind]
  obtain ⟨twin, declared', same, below⟩ := methods.exists_left method declared
  obtain ⟨again, member', kind', target'⟩ := exists_call below member kind
  have named' : twin.name? = method.name? :=
    same.name? (Node.kind_of_mem_methods declared ▸ NodeKind.noConfusion)
  exact ⟨twin, declared', named'.trans named, again, member', kind', target'.trans target⟩

theorem reachable (matched : Matched Node.Anonymized root.children hidden.children)
    {name : String} (reachable : root.Reachable name) : hidden.Reachable name := by
  induction reachable with
  | body member kind named =>
      have body : Matched Node.Anonymized root.body hidden.body :=
        matched.filter fun node twin same => by rw [same.kind]
      obtain ⟨again, member', kind', same⟩ := exists_call body member kind
      exact .body member' kind' (same.trans named)
  | method _ calls ih => exact .method ih (Anonymized.calls matched calls)

end Node.Anonymized

theorem Node.Closed.mem_methods {root method : Node} (closed : root.Closed)
    (member : method ∈ root.preorder) (kind : method.kind = .method) : method ∈ root.methods := by
  rcases mem_preorder.1 member with rfl | member
  · exact absurd (kind.symm.trans closed.script) NodeKind.noConfusion
  obtain ⟨child, top, member⟩ := mem_preorderAll.1 member
  rcases mem_preorder.1 member with rfl | below
  · exact List.mem_filter.2 ⟨top, decide_eq_true kind⟩
  · exact absurd kind (closed.nowhere child top method below)

/-- Calls lead to every method of a compiled tree, if no invocation that compiling comes to is below
an input that loses its options. -/
theorem compiled_methods_reachable {options : CompileOptions} {filter : Node → Bool}
    {library : Library} {script : Script} (rooted : script.root.kind = .script)
    (own : Node.strandedAll filter script.root.body = [])
    (bodies : ∀ table, CallTable.ofScript library filter options.obfuscate script = .ok table →
      ∀ body ∈ table.bodies, Node.strandedAll filter body.nodes = [])
    {next next' : NodeId} {tree : Node}
    (compiles : compile options filter library script next = .ok (tree, next')) :
    ∀ method ∈ tree.preorder, method.kind = .method →
      ∃ name, method.name? = some name ∧ tree.Reachable name := by
  obtain ⟨table, children, between, scanned, rebuilt, finished⟩ := compile_eq_ok.1 compiles
  obtain ⟨plain, last, named, hidden⟩ := exists_plain_of_finishTree finished
  obtain ⟨slots, body, compiled, prunedMethods, prunedRest, discovers⟩ :=
    exists_compiled_of_plain rfl rebuilt named
  have ordered : Discovers [] plain.body plain.methods :=
    compiled.ordered (compiled.closed rooted) prunedMethods prunedRest
      (discovers (bodies table scanned) own)
  have reachable := ordered.reachable (List.Subset.refl _)
    fun call member kind name target => .body member kind target
  have closed := (compiled_tree_closed rooted compiles).1
  intro method member kind
  have declared := closed.mem_methods member kind
  rcases hidden with ⟨-, rfl⟩ | ⟨-, -, matched⟩
  · exact reachable method declared
  · have methods : Matched Node.Anonymized plain.methods tree.methods :=
      matched.filter fun node twin same => by rw [same.kind]
    obtain ⟨source, declared', same, -⟩ := methods.symm.exists_left method declared
    obtain ⟨name, named, reachable⟩ := reachable source declared'
    have kind' := Node.kind_of_mem_methods declared'
    exact ⟨name, (same.name? (kind' ▸ NodeKind.noConfusion)).trans named,
      Node.Anonymized.reachable matched reachable⟩

/-- A method that calls another one, which only it calls. -/
def relayingScript : Script where
  identity := "a"
  root := .bare 10 .script []
    [.bare 2 .method [("name", .string "n")]
        [.bare 1 .inputText [("name", .string "y"), ("default", .string "d")] []],
      .bare 5 .method [("name", .string "m")]
        [.bare 3 .inputText [("name", .string "x"), ("default", .string "d")] [],
          .bare 4 .invokeCall [("name", .string "n")] []],
      .bare 7 .inputEnum [("name", .string "e")]
        [.bare 6 .option [("value", .string "a")] []],
      .bare 8 .invokeCall [("name", .string "m")] [],
      .bare 9 .invokeCall [("name", .string "m")] []]

def withoutOptions (node : Node) : Bool := node.kind ≠ .option

/-- The input goes, and both methods stay, under numbers for names. -/
theorem compiled_methods_reachable_of_relay : ∃ tree next,
    compile { obfuscate := true } withoutOptions .empty relayingScript ⟨20⟩ = .ok (tree, next) ∧
    tree.methods.map (·.name?) = [some "0", some "1"] ∧
    ∀ method ∈ tree.preorder, method.kind = .method →
      ∃ name, method.name? = some name ∧ tree.Reachable name := by
  have evaluated : (compile { obfuscate := true } withoutOptions .empty relayingScript
      ⟨20⟩).toOption.any fun pair =>
        decide (pair.1.methods.map (·.name?) = [some "0", some "1"]) := by
    decide +kernel
  have scanned : (CallTable.ofScript .empty withoutOptions true relayingScript).toOption.all
      fun table => table.bodies.all fun body =>
        (Node.strandedAll withoutOptions body.nodes).isEmpty := by
    decide +kernel
  have own : (Node.strandedAll withoutOptions relayingScript.root.body).isEmpty := by
    decide +kernel
  obtain ⟨⟨tree, next⟩, compiles, names⟩ := Stateful.exists_ok_of_any evaluated
  refine ⟨tree, next, compiles, of_decide_eq_true names, compiled_methods_reachable rfl
    (List.isEmpty_iff.1 own) (fun table given body member => ?_) compiles⟩
  simp only [given, Except.toOption, Option.all_some, List.all_eq_true] at scanned
  exact List.isEmpty_iff.1 (scanned body member)

def orphaningScript : Script where
  identity := "a"
  root := .bare 6 .script []
    [.bare 2 .method [("name", .string "m")]
        [.bare 1 .inputText [("name", .string "y"), ("default", .string "d")] []],
      .bare 5 .inputEnum [("name", .string "e")]
        [.bare 3 .option [("value", .string "a")] [],
          .bare 4 .invokeCall [("name", .string "m")] []]]

/-- The input goes with the call, and the method stays. -/
theorem orphan_left_of_dropped_input : ∃ tree next,
    compile {} withoutOptions .empty orphaningScript ⟨10⟩ = .ok (tree, next) ∧
    tree.methods.map (·.name?) = [some "m"] ∧ ∀ name, ¬tree.Reachable name := by
  have evaluated : (compile {} withoutOptions .empty orphaningScript ⟨10⟩).toOption.any fun pair =>
      decide (pair.1.methods.map (·.name?) = [some "m"]) && pair.1.body.isEmpty := by
    decide +kernel
  obtain ⟨⟨tree, next⟩, compiles, evaluated⟩ := Stateful.exists_ok_of_any evaluated
  simp only [Bool.and_eq_true, decide_eq_true_eq, List.isEmpty_iff] at evaluated
  refine ⟨tree, next, compiles, evaluated.1, fun name reachable => ?_⟩
  induction reachable with
  | body member => simp [evaluated.2, Node.preorderAll] at member
  | method _ _ ih => exact ih

end Archetype
