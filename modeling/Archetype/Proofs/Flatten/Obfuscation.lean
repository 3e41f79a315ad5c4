import Archetype.Proofs.Flatten.Closed
import Archetype.Proofs.Flatten.PairedTrees
import Archetype.Proofs.Flatten.Renumbered
import Mathlib.Data.Set.Function

/-!
What obfuscation leaves of a compiled tree. Methods are renamed, and what names scripts and places
is dropped; no other thing differs from the tree that is not obfuscated, and no name of the sources
shows.
-/

namespace Archetype

theorem Table.get?_erase {α : Type} (table : Table α) {name erased : String}
    (differs : name ≠ erased) : (table.erase erased).get? name = table.get? name := by
  unfold get? erase
  rw [List.find?_filter]
  congr 2
  funext entry
  by_cases here : entry.1 = name
  · simp [here, differs]
  · simp [here]

namespace Declaration

variable {d : Declaration} {children : List Node} {e : Option Expression}

theorem anonymous_attributes (other : d.kind ≠ .script) : d.anonymous.attributes = d.attributes :=
  if_neg other

/-- A declaration that passes its checks does so too without its location and the name of a
script. -/
theorem check_anonymous (passes : d.check children = .ok e) :
    d.anonymous.check children = .ok e := by
  by_cases script : d.kind = .script
  · have attributes : d.anonymous.checkAttributes = .ok () := by
      refine forM_eq_ok fun entry member => ?_
      simp only [anonymous, script, if_true] at member ⊢
      have checked := ok_of_forM (checks_of_check passes).1 entry (List.mem_filter.1 member).1
      rwa [script] at checked
    have required : d.anonymous.checkRequired = .ok () := by
      simp only [checkRequired, Declaration.required, anonymous_kind, script]
      rfl
    have default : d.anonymous.checkDefault children = .ok () := by
      simp [checkDefault, script, NodeKind.takesOptions]
    have fault : d.anonymous.childFault? = d.childFault? := by
      funext child
      simp only [childFault?, anonymous_kind, script]
    have below : d.anonymous.checkChildren children = d.checkChildren children := by
      simp only [checkChildren, anonymous_kind, fault]
    have expression : d.anonymous.parseExpression = d.parseExpression := by
      simp only [parseExpression, anonymous_kind, script]
    obtain ⟨inside, parsed⟩ := check_eq_ok passes
    rw [check, attributes, required, default, below, inside, expression, parsed]
    rfl
  · rw [← passes]
    refine check_eq_of_sameButName rfl ?_
    rw [anonymous_attributes script]
    exact .refl _

theorem looksLike_anonymous (d : Declaration) : d.LooksLike d.anonymous where
  kind := rfl
  value := by
    unfold value? anonymous
    simp only
    split
    · exact Table.get?_erase _ (by decide)
    · rfl
  nameless other := by rw [anonymous_name? other]

end Declaration

structure Node.Redeclared (f : Declaration → Declaration) (node twin : Node) : Prop where
  declaration : twin.declaration = f node.declaration
  expression : twin.expression = node.expression

theorem Matched.renumbered {f : Declaration → Declaration} {nodes twins others : List Node}
    (first : Matched (Node.Redeclared f) nodes twins)
    (second : Matched (Node.Redeclared f) nodes others) : Renumbered twins others := by
  induction first generalizing others with
  | nil =>
      cases second
      exact .nil
  | cons here _ _ below rest =>
      cases second with
      | cons here' below' rest' =>
          exact .cons (here'.declaration.trans here.declaration.symm)
            (here'.expression.trans here.expression.symm) (below below') (rest rest')

mutual
theorem Node.anonymize_of_checked : ∀ (node : Node) (s : NodeId),
    (∀ below ∈ node.preorder, below.Checked) →
    ∃ twin s', node.anonymize s = .ok (twin, s') ∧ Matched (Redeclared .anonymous) [node] [twin]
  | ⟨id, d, e, children⟩, s, checked => by
      have inside : ∀ below ∈ preorderAll children, below.Checked := fun below member =>
        checked below (List.mem_cons_of_mem _ member)
      obtain ⟨twins, between, gives, matched⟩ := anonymizeAll_of_checked children s inside
      have alike : d.anonymous.check twins = d.anonymous.check children :=
        Declaration.check_eq_of_children <| (Matched.forall₂_iff.1 matched).imp
          fun child twin here => by
            rw [(Matched.single_iff.1 here).1.declaration]
            exact child.declaration.looksLike_anonymous
      have passes : d.anonymous.check twins = .ok e :=
        alike.trans (Declaration.check_anonymous (checked _ (List.mem_cons_self ..)))
      have build : d.anonymous.build twins between =
          .ok (⟨between, d.anonymous, e, twins⟩, between.next) := by
        rw [Declaration.build, passes]
        rfl
      refine ⟨⟨between, d.anonymous, e, twins⟩, between.next, ?_,
        Matched.single_iff.2 ⟨⟨rfl, rfl⟩, matched⟩⟩
      rw [anonymize]
      exact Stateful.bind_eq_ok.2 ⟨twins, between, gives, build⟩

theorem Node.anonymizeAll_of_checked : ∀ (list : List Node) (s : NodeId),
    (∀ below ∈ preorderAll list, below.Checked) →
    ∃ twins s', Node.anonymizeAll list s = .ok (twins, s') ∧
      Matched (Redeclared .anonymous) list twins
  | [], s, _ => ⟨[], s, rfl, .nil⟩
  | node :: rest, s, checked => by
      rw [preorderAll, List.forall_mem_append] at checked
      obtain ⟨twin, between, gives, here⟩ := anonymize_of_checked node s checked.1
      obtain ⟨twins, s', more, later⟩ := anonymizeAll_of_checked rest between checked.2
      refine ⟨twin :: twins, s', ?_, ?_⟩
      · rw [anonymizeAll]
        refine Stateful.bind_eq_ok.2 ⟨twin, between, gives, ?_⟩
        exact Stateful.bind_eq_ok.2 ⟨twins, s', more, rfl⟩
      · exact .cons (Matched.single_iff.1 here).1 (Matched.single_iff.1 here).2 later
end

/-! Renaming a tree. -/

def Declaration.renamed (rename : String → String) (d : Declaration) : Declaration :=
  match d.kind, d.name? with
  | .method, some name =>
      { d with attributes := d.attributes.insert "name" (.string (rename name)) }
  | .invokeCall, some name =>
      { d with attributes := d.attributes.insert "name" (.string (rename name)) }
  | _, _ => d

mutual
/-- The tree with its methods and calls under other names, without locations and the name of the
script. -/
def Node.hide (rename : String → String) : Node → Node
  | ⟨id, d, e, children⟩ => ⟨id, (d.renamed rename).anonymous, e, Node.hideAll rename children⟩

def Node.hideAll (rename : String → String) : List Node → List Node
  | [] => []
  | node :: rest => node.hide rename :: Node.hideAll rename rest
end

def Node.methodNames (root : Node) : Set String :=
  {name | ∃ method ∈ root.methods, method.name? = some name}

theorem Matched.hideAll (rename : String → String) : ∀ nodes : List Node,
    Matched (Node.Redeclared fun d => (d.renamed rename).anonymous) nodes
      (Node.hideAll rename nodes)
  | [] => .nil
  | ⟨_, _, _, children⟩ :: rest =>
      .cons ⟨rfl, rfl⟩ (Matched.hideAll rename children) (Matched.hideAll rename rest)

theorem Attributes.SameButName.erase_eq {attributes other : Attributes}
    (same : attributes.SameButName other) : other.erase "name" = attributes.erase "name" := by
  have entries : other.entries.filter (·.1 ≠ "name") =
      attributes.entries.filter (·.1 ≠ "name") := by
    unfold SameButName at same
    generalize attributes.entries = left, other.entries = right at same
    induction same with
    | nil => rfl
    | @cons entry entry' _ _ here _ ih =>
        obtain ⟨named, valued⟩ := here
        rw [List.filter_cons, List.filter_cons, ← named, ih]
        by_cases own : entry.1 = "name"
        · simp only [own, ne_eq, not_true_eq_false, decide_false, Bool.false_eq_true, if_false]
        · have value := valued.resolve_right fun hidden => own hidden.1
          rw [Prod.ext named value]
  unfold Table.erase
  simp only [entries]

variable {names : String → String → Prop}

/-- What corresponds to a declaration is the same under another name. -/
theorem Declaration.Paired.anonymous_eq {d twin : Declaration} (paired : d.Paired names twin)
    {rename : String → String} (renames : ∀ name name', names name name' → rename name = name') :
    twin.anonymous = (d.renamed rename).anonymous := by
  obtain ⟨kind, attributes, location⟩ := d
  obtain ⟨kind', attributes', location'⟩ := twin
  obtain ⟨same, declared⟩ := paired
  simp only at same declared
  subst same
  cases kind' with
  | script =>
      have erased : attributes'.erase "name" = attributes.erase "name" := declared.erase_eq
      simp only [anonymous, renamed, if_true, erased]
  | method =>
      obtain ⟨name, name', named, rfl, rfl⟩ := declared
      rw [← renames name name' named]
      rfl
  | invokeCall =>
      obtain ⟨name, name', named, rfl, rfl⟩ := declared
      rw [← renames name name' named]
      rfl
  | _ =>
      obtain rfl := declared
      rfl

theorem Declaration.Paired.anonymous_eq_of_eq {d twin : Declaration} (paired : d.Paired names twin)
    (equal : ∀ name name', names name name' → name = name') : twin.anonymous = d.anonymous := by
  have self : d.Paired Eq d := by
    refine ⟨rfl, ?_⟩
    have declared := paired.declared
    split at declared
    · exact .refl _
    · obtain ⟨name, -, -, here, -⟩ := declared
      exact ⟨name, name, rfl, here, here⟩
    · obtain ⟨name, -, -, here, -⟩ := declared
      exact ⟨name, name, rfl, here, here⟩
    · rfl
  have renamed : ∀ name name', names name name' → id name = name' := equal
  exact (paired.anonymous_eq renamed).trans (self.anonymous_eq fun _ _ => id).symm

/-- Of trees that correspond, the one whose names are hidden is the other one, renamed. -/
theorem Matched.hides {rename : String → String}
    (renames : ∀ name name', names name name' → rename name = name')
    {nodes twins hidden : List Node} (same : Matched (Node.Paired names) nodes twins)
    (hides : Matched (Node.Redeclared .anonymous) twins hidden) :
    Renumbered (Node.hideAll rename nodes) hidden := by
  refine (Matched.hideAll rename nodes).renumbered (same.comp (fun _ _ _ paired hides => ?_) hides)
  exact ⟨hides.declaration.trans (paired.declaration.anonymous_eq renames),
    hides.expression.trans paired.expression⟩

theorem Matched.methodNames {root twin : Node} (same : Matched (Node.Paired names) [root] [twin]) :
    List.Forall₂ names (root.methods.filterMap (·.name?)) (twin.methods.filterMap (·.name?)) := by
  have declared := same.methods fun _ _ here => here.declaration.kind
  exact List.rel_filterMap (fun _ _ here => (Matched.single_iff.1 here.2).1.name (.inl here.1))
    declared

theorem Matched.methodNames_eq {root hidden : Node}
    (hides : Matched (Node.Redeclared .anonymous) [root] [hidden]) :
    hidden.methods.filterMap (·.name?) = root.methods.filterMap (·.name?) := by
  have below := (Matched.single_iff.1 hides).2
  unfold Node.methods
  generalize root.children = nodes, hidden.children = twins at below
  induction below with
  | nil => rfl
  | @cons node twin _ _ here _ _ _ ih =>
      have kind : twin.kind = node.kind := by
        rw [Node.kind, here.declaration, Declaration.anonymous_kind]
      rw [List.filter_cons, List.filter_cons, kind]
      split
      · next method =>
          have named : twin.name? = node.name? := by
            rw [Node.name?, here.declaration]
            exact Declaration.anonymous_name? fun script =>
              NodeKind.noConfusion (script.symm.trans (of_decide_eq_true method))
          rw [List.filterMap_cons, List.filterMap_cons, named, ih]
      · exact ih

theorem Node.methodNames_eq (root : Node) :
    root.methodNames = {name | name ∈ root.methods.filterMap (·.name?)} :=
  Set.ext fun _ => List.mem_filterMap.symm

theorem bijOn_of_forall₂ {list list' : List String} (unique : Relator.BiUnique names)
    {rename : String → String} (renames : ∀ name name', names name name' → rename name = name')
    (same : List.Forall₂ names list list') :
    Set.BijOn rename {name | name ∈ list} {name | name ∈ list'} := by
  have mapped : list' = list.map rename ∧ ∀ name ∈ list, names name (rename name) := by
    induction same with
    | nil => exact ⟨rfl, fun _ member => absurd member List.not_mem_nil⟩
    | @cons name name' rest rest' here _ ih =>
        obtain rfl := renames name name' here
        obtain ⟨later, each⟩ := ih
        exact ⟨by rw [List.map_cons, later], List.forall_mem_cons.2 ⟨here, each⟩⟩
  obtain ⟨rfl, each⟩ := mapped
  refine ⟨fun name member => List.mem_map_of_mem member, fun name here other there same => ?_,
    fun name member => List.mem_map.1 member⟩
  have related := each other there
  rw [← same] at related
  exact unique.left (each name here) related

/-! Both sides of a compilation. -/

theorem biUnique_eq : Relator.BiUnique (@Eq String) :=
  ⟨fun _ _ _ left right => left.trans right.symm, fun _ _ _ left right => left.symm.trans right⟩

def Relabelling.same : Relabelling where
  identity := Eq
  source := Eq
  method _ := Eq
  identity_unique := biUnique_eq
  source_unique := biUnique_eq
  method_unique _ := biUnique_eq
  alike := Eq
  fault := Eq

theorem Matched.relabelled_refl (owner : String) : ∀ nodes : List Node,
    Matched (Node.Relabelled .same owner) nodes nodes
  | [] => .nil
  | ⟨id, d, e, children⟩ :: rest => by
      refine .cons ⟨rfl, ?_, rfl, rfl⟩ (Matched.relabelled_refl owner children)
        (Matched.relabelled_refl owner rest)
      split
      · exact .refl _
      · cases Node.name? ⟨id, d, e, children⟩ with
        | none => exact .none
        | some name => exact .some rfl
      · rfl
      · rfl
      · rfl

theorem Script.relabelled_refl (script : Script) : script.Relabelled .same script :=
  ⟨rfl, .relabelled_refl _ _⟩

theorem Library.relabelled_refl (library : Library) : library.Relabelled .same library :=
  List.forall₂_same.2 fun entry _ => ⟨rfl, by
    cases entry.2 with
    | ok script => exact .ok script.relabelled_refl
    | error error => exact .error rfl⟩

theorem CompileError.eq_of_relabelled {error error' : CompileError}
    (same : error.Relabelled .same error') : error = error' := by
  cases same with
  | call same named => rw [show _ = _ from same, show _ = _ from named]
  | source same named => rw [show _ = _ from same, show _ = _ from named]
  | recursive same =>
      cases same with
      | script same => rw [show _ = _ from same]
      | method same named => rw [show _ = _ from same, show _ = _ from named]
  | unlisted named => rw [show _ = _ from named]
  | unloadable same => rw [show _ = _ from same]
  | construction error => rfl
  | nestedTooDeeply => rfl

theorem Matched.checked {nodes twins : List Node} (same : Matched (Node.Paired names) nodes twins) :
    (∀ node ∈ Node.preorderAll nodes, node.Checked) ∧
      ∀ twin ∈ Node.preorderAll twins, twin.Checked := by
  constructor
  · intro node member
    obtain ⟨_, -, paired⟩ := same.symm.exists_right node member
    exact paired.checked
  · intro twin member
    obtain ⟨_, -, paired⟩ := same.exists_right twin member
    exact paired.checked'

theorem Node.exists_anonymized {tree : Node} (checked : ∀ node ∈ preorderAll [tree], node.Checked)
    (s : NodeId) : ∃ hidden s', tree.anonymize s = .ok (hidden, s') ∧
      Matched (Redeclared .anonymous) [tree] [hidden] := by
  simp only [preorderAll, List.append_nil] at checked
  exact anonymize_of_checked tree s checked

theorem exists_renaming (unique : Relator.BiUnique names) :
    ∃ rename : String → String, ∀ name name', names name name' → rename name = name' := by
  classical
  refine ⟨fun name => if there : ∃ name', names name name' then there.choose else name,
    fun name name' related => ?_⟩
  have there : ∃ name', names name name' := ⟨name', related⟩
  simp only [dif_pos there]
  exact unique.right there.choose_spec related

/-- Compiling with names hidden fails just as compiling without; or else the tree is the same but
for a one-to-one renaming of its methods, with every call, and without the name of the script and
any location. -/
theorem obfuscation_only_renames {script : Script} (rooted : script.root.kind = .script)
    (library : Library) (filter : Node → Bool) (inline : Bool) (next next' : NodeId) :
    Corresponds Eq
      (fun plain hidden => ∃ rename : String → String,
        Set.BijOn rename plain.1.methodNames hidden.1.methodNames ∧
        (∀ call ∈ plain.1.preorder, call.kind = .invokeCall →
          ∃ name ∈ plain.1.methodNames, call.name? = some name) ∧
        Renumbered [plain.1.hide rename] [hidden.1])
      (compile { obfuscate := false, inlineSingleUse := inline } filter library script next)
      (compile { obfuscate := true, inlineSingleUse := inline } filter library script next') := by
  have both : Corresponds (CompileError.Relabelled .same)
      (fun plain hidden => ∃ rename : String → String,
        Set.BijOn rename plain.1.methodNames hidden.1.methodNames ∧
        Renumbered [plain.1.hide rename] [hidden.1])
      (compile { obfuscate := false, inlineSingleUse := inline } filter library script next)
      (compile { obfuscate := true, inlineSingleUse := inline } filter library script next') := by
    refine compile_corresponds library.relabelled_refl script.relabelled_refl
      (fun _ _ same => congrArg filter same) rooted inline next next'
      fun names unique _ tree tree' same s s' => ?_
    obtain ⟨hidden, after, gives, hides⟩ := Node.exists_anonymized same.checked.2 s'
    obtain ⟨rename, renames⟩ := exists_renaming unique
    simp only [Bool.false_eq_true, if_false, if_true, gives]
    refine .ok ⟨rename, ?_, same.hides renames hides⟩
    rw [Node.methodNames_eq, Node.methodNames_eq, hides.methodNames_eq]
    exact bijOn_of_forall₂ unique renames same.methodNames
  refine (both.known.imp fun plain hidden known => ?_).imp_error fun _ _ same =>
    CompileError.eq_of_relabelled same
  obtain ⟨⟨rename, mapped, same⟩, compiles, -⟩ := known
  obtain ⟨_, _, _, -, compiled⟩ := exists_compiled compiles
  refine ⟨rename, mapped, fun call member kind => ?_, same⟩
  obtain ⟨method, declared, name, named, called⟩ :=
    (compiled.closed rooted).answered call member kind
  exact ⟨name, ⟨method, declared, named⟩, called⟩

/-! Two scripts that each declare a method and call it twice, once with names of their own and once
with the same name for both methods. -/

def callingTwice (identity title method : String) (location : Option Location)
    (rest : List Node) : Script where
  identity := identity
  root :=
    { id := ⟨9⟩
      declaration :=
        { kind := .script, attributes := .ofList [("name", .string title)], location }
      expression := none
      children :=
        [.bare 2 .method [("name", .string method)]
          [.bare 1 .inputText [("name", .string "v")] []],
          .bare 3 .invokeCall [("name", .string method)] [],
          .bare 4 .invokeCall [("name", .string method)] []] ++ rest }

def alphaScript : Script :=
  callingTwice "a" "Alpha" "m" (some ⟨"a", 1⟩) [.bare 5 .invokeSource [("src", .string "b")] []]

def betaScript : Script := callingTwice "b" "Beta" "m" none []

def chiScript : Script :=
  callingTwice "x" "Chi" "p" none [.bare 5 .invokeSource [("src", .string "y")] []]

def psiScript : Script := callingTwice "y" "Psi" "q" (some ⟨"y", 7⟩) []

/-- The two methods of one name stay apart under hidden names too. -/
theorem obfuscation_only_renames_of_two_methods : ∃ plain hidden next next' rename,
    compile { obfuscate := false, inlineSingleUse := true } (fun _ => true)
      (.ofScripts [betaScript]) alphaScript ⟨20⟩ = .ok (plain, next) ∧
    compile { obfuscate := true, inlineSingleUse := true } (fun _ => true)
      (.ofScripts [betaScript]) alphaScript ⟨20⟩ = .ok (hidden, next') ∧
    plain.methods.map (·.name?) = [some "m", some "m_2"] ∧
    hidden.methods.map (·.name?) = [some "0", some "2"] ∧
    Set.BijOn rename plain.methodNames hidden.methodNames ∧
    Renumbered [plain.hide rename] [hidden] := by
  have evaluated : (compile { obfuscate := false, inlineSingleUse := true } (fun _ => true)
      (.ofScripts [betaScript]) alphaScript ⟨20⟩).toOption.any fun pair =>
        decide (pair.1.methods.map (·.name?) = [some "m", some "m_2"]) := by
    decide +kernel
  have evaluated' : (compile { obfuscate := true, inlineSingleUse := true } (fun _ => true)
      (.ofScripts [betaScript]) alphaScript ⟨20⟩).toOption.any fun pair =>
        decide (pair.1.methods.map (·.name?) = [some "0", some "2"]) := by
    decide +kernel
  have both := @obfuscation_only_renames alphaScript rfl (.ofScripts [betaScript]) (fun _ => true)
    true ⟨20⟩ ⟨20⟩
  generalize compile { obfuscate := false, inlineSingleUse := true } (fun _ => true)
    (.ofScripts [betaScript]) alphaScript ⟨20⟩ = outcome at both evaluated ⊢
  generalize compile { obfuscate := true, inlineSingleUse := true } (fun _ => true)
    (.ofScripts [betaScript]) alphaScript ⟨20⟩ = outcome' at both evaluated' ⊢
  cases both with
  | error _ => cases evaluated
  | @ok plain hidden related =>
      obtain ⟨rename, mapped, -, same⟩ := related
      exact ⟨plain.1, hidden.1, plain.2, hidden.2, rename, rfl, rfl, of_decide_eq_true evaluated,
        of_decide_eq_true evaluated', mapped, same⟩

/-- Scripts that differ in names and locations alone compile, with names hidden, to the same tree,
or compiling fails for both. -/
theorem obfuscated_tree_hides_names {ρ : Relabelling} {library library' : Library}
    {script twin : Script} (libraries : library.Relabelled ρ library')
    (scripts : script.Relabelled ρ twin) (rooted : script.root.kind = .script) (inline : Bool)
    (next next' : NodeId) :
    Corresponds (CompileError.Relabelled ρ)
      (fun hidden other => other.1.same hidden.1 = true ∧
        (∀ node ∈ hidden.1.preorder, node.location = none) ∧
        ∀ node ∈ other.1.preorder, node.location = none)
      (compile { obfuscate := true, inlineSingleUse := inline } (fun _ => true) library script next)
      (compile { obfuscate := true, inlineSingleUse := inline } (fun _ => true) library' twin
        next') := by
  refine compile_corresponds libraries scripts (fun _ _ _ => rfl) rooted inline next next'
    fun names unique equal tree tree' same s s' => ?_
  obtain ⟨hidden, after, gives, hides⟩ := Node.exists_anonymized same.checked.1 s
  obtain ⟨hidden', after', gives', hides'⟩ := Node.exists_anonymized same.checked.2 s'
  simp only [if_true, gives, gives']
  have alike : Renumbered [hidden] [hidden'] := by
    refine hides.renumbered (same.comp (fun _ _ _ paired hides => ?_) hides')
    exact ⟨hides.declaration.trans (paired.declaration.anonymous_eq_of_eq (equal rfl rfl)),
      hides.expression.trans paired.expression⟩
  have located : ∀ {tree hidden : Node}, Matched (Node.Redeclared .anonymous) [tree] [hidden] →
      ∀ node ∈ hidden.preorder, node.location = none := by
    intro tree hidden hides node member
    have inside : node ∈ Node.preorderAll [hidden] :=
      Node.mem_preorderAll.2 ⟨_, List.mem_cons_self .., member⟩
    obtain ⟨_, -, same⟩ := hides.exists_right node inside
    rw [Node.location, same.declaration]
    rfl
  refine .ok ⟨?_, located hides, located hides'⟩
  simpa [Node.sameAll] using alike.sameAll

theorem relabelled_callingTwice {ρ : Relabelling} {identity identity' title title' method : String}
    {method' : String} {location location' : Option Location} {rest rest' : List Node}
    (alike : ∀ node twin, ρ.alike node twin) (same : ρ.identity identity identity')
    (named : ρ.method identity method method')
    (more : Matched (Node.Relabelled ρ identity) rest rest') :
    Script.Relabelled ρ (callingTwice identity title method location rest)
      (callingTwice identity' title' method' location' rest') := by
  have called : ∀ id, Node.Relabelled ρ identity
      (.bare id .invokeCall [("name", .string method)] [])
      (.bare id .invokeCall [("name", .string method')] []) :=
    fun _ => ⟨rfl, named, rfl, alike _ _⟩
  refine ⟨same, .cons ⟨rfl, .names title title', rfl, alike _ _⟩ ?_ .nil⟩
  refine .cons ⟨rfl, .some named, rfl, alike _ _⟩ (.cons ⟨rfl, rfl, rfl, alike _ _⟩ .nil .nil) ?_
  exact .cons (called 3) .nil (.cons (called 4) .nil more)

def letters : Relabelling where
  identity := fun name name' => (name, name') ∈ ["a", "b"].zip ["x", "y"]
  source := fun name name' => (name, name') ∈ ["a", "b"].zip ["x", "y"]
  method := fun owner name name' => (name, name') ∈ ["m"].zip [if owner = "a" then "p" else "q"]
  identity_unique := biUnique_zip (by decide) (by decide)
  source_unique := biUnique_zip (by decide) (by decide)
  method_unique := fun _ => biUnique_zip (List.nodup_singleton _) (List.nodup_singleton _)
  alike := fun _ _ => True
  fault := fun _ _ => True

theorem obfuscated_tree_hides_names_of_letters : ∃ hidden other next next',
    Library.Relabelled letters (.ofScripts [betaScript]) (.ofScripts [psiScript]) ∧
    Script.Relabelled letters alphaScript chiScript ∧
    compile { obfuscate := true, inlineSingleUse := true } (fun _ => true)
      (.ofScripts [betaScript]) alphaScript ⟨20⟩ = .ok (hidden, next) ∧
    compile { obfuscate := true, inlineSingleUse := true } (fun _ => true)
      (.ofScripts [psiScript]) chiScript ⟨20⟩ = .ok (other, next') ∧
    other.same hidden = true ∧ hidden.methods.map (·.name?) = [some "0", some "2"] ∧
    ∀ node ∈ hidden.preorder, node.location = none := by
  have evaluated : (compile { obfuscate := true, inlineSingleUse := true } (fun _ => true)
      (.ofScripts [betaScript]) alphaScript ⟨20⟩).toOption.any fun pair =>
        decide (pair.1.methods.map (·.name?) = [some "0", some "2"]) := by
    decide +kernel
  have beta : Script.Relabelled letters betaScript psiScript :=
    relabelled_callingTwice (fun _ _ => trivial) (by simp [letters]) (by simp [letters]) .nil
  have alpha : Script.Relabelled letters alphaScript chiScript := by
    refine relabelled_callingTwice (fun _ _ => trivial) (by simp [letters]) (by simp [letters]) ?_
    refine .cons ⟨rfl, ?_, rfl, trivial⟩ .nil .nil
    show ("b", "y") ∈ ["a", "b"].zip ["x", "y"]
    decide
  have libraries : Library.Relabelled letters (.ofScripts [betaScript]) (.ofScripts [psiScript]) :=
    .cons ⟨by show ("b", "y") ∈ ["a", "b"].zip ["x", "y"]; decide, .ok beta⟩ .nil
  have both := obfuscated_tree_hides_names libraries alpha rfl true ⟨20⟩ ⟨20⟩
  generalize compile { obfuscate := true, inlineSingleUse := true } (fun _ => true)
    (.ofScripts [betaScript]) alphaScript ⟨20⟩ = outcome at both evaluated ⊢
  generalize compile { obfuscate := true, inlineSingleUse := true } (fun _ => true)
    (.ofScripts [psiScript]) chiScript ⟨20⟩ = outcome' at both ⊢
  cases both with
  | error _ => cases evaluated
  | @ok hidden other related =>
      obtain ⟨same, located, -⟩ := related
      exact ⟨hidden.1, other.1, hidden.2, other.2, libraries, alpha, rfl, rfl, same,
        of_decide_eq_true evaluated, located⟩

end Archetype
