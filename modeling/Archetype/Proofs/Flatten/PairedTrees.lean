import Archetype.Proofs.Flatten.Paired
import Archetype.Proofs.Flatten.Pruning

/-!
Compiling in lockstep, up to the point where names are hidden. Whether a node is dead depends on
which names are live and not on what they are, so trees that correspond are pruned alike.
-/

namespace Archetype

variable {names : String → String → Prop} {root twin node other : Node}
  {live live' : List String}

theorem Matched.liveMethods (same : Matched (Node.Paired names) [root] [twin]) :
    List.Forall₂ names root.liveMethods twin.liveMethods := by
  have declared := same.methods fun _ _ here => here.declaration.kind
  have filled := List.rel_filter (p := fun method : Node => !method.children.isEmpty)
    (q := fun method : Node => !method.children.isEmpty)
    (fun method other here => by simp only [(Matched.single_iff.1 here.2).2.isEmpty_eq]) declared
  exact List.rel_filterMap (fun _ _ here => (Matched.single_iff.1 here.2).1.name (.inl here.1))
    filled

theorem Matched.isDead_eq (unique : Relator.BiUnique names) (lives : List.Forall₂ names live live')
    (same : Matched (Node.Paired names) [node] [other]) :
    other.isDead live' = node.isDead live := by
  obtain ⟨here, below⟩ := Matched.single_iff.1 same
  have kind : other.kind = node.kind := here.declaration.kind
  have nameless : other.declaration.name?.isNone = node.declaration.name?.isNone :=
    here.declaration.sameButName.nameless_eq
  have empty : other.isPrunableIfEmpty = node.isPrunableIfEmpty := by
    simp only [Node.isPrunableIfEmpty, Declaration.isContainer, Node.kind, here.declaration.kind,
      below.isEmpty_eq, nameless]
  have named : node.kind = .invokeCall →
      other.name?.any (· ∈ live') = node.name?.any (· ∈ live) := by
    intro call
    have related := here.name (.inr call)
    generalize node.name? = left, other.name? = right at related
    cases related with
    | none => rfl
    | some related => exact decide_eq_decide.2 (List.rel_mem unique related lives).symm
  unfold Node.isDead
  rw [empty, kind]
  by_cases call : node.kind = .invokeCall
  · rw [named call]
  · simp only [call, decide_false, Bool.false_and]

namespace Prune

abbrev Alongside {α : Type} (values : α → α → Prop) (work work' : Fresh NodeError α) : Prop :=
  Lockstep Eq (fun _ _ => True) values work work'

theorem node_eq (node : Node) : Prune.node live node =
    (Prune.nodes live node.children >>= fun
      | none => pure none
      | some kept => do return some (← node.declaration.build kept)) := by
  obtain ⟨id, d, e, children⟩ := node
  rfl

/-- A node is rebuilt if anything below it goes, on both sides or on neither. -/
theorem alongside_node (same : Matched (Node.Paired names) [node] [other])
    (below : Alongside (Option.Rel (Matched (Node.Paired names))) (Prune.nodes live node.children)
      (Prune.nodes live' other.children)) :
    Alongside (Option.Rel fun node other => Matched (Node.Paired names) [node] [other])
      (Prune.node live node) (Prune.node live' other) := by
  rw [node_eq, node_eq]
  refine .bind below fun kept kept' related => ?_
  cases related with
  | none => exact .pure .none
  | some related =>
      refine .bind (fun s s' _ => ?_) fun _ _ built => .pure (.some built)
      have declaration := (Matched.single_iff.1 same).1.declaration
      exact (declaration.build related s s').imp fun _ _ made => ⟨made, trivial⟩

/-- What is left of nodes: those that were kept of them, or else all. -/
theorem matched_getD {list twins : List Node} {kept kept' : Option (List Node)}
    (all : Matched (Node.Paired names) list twins)
    (related : Option.Rel (Matched (Node.Paired names)) kept kept') :
    Matched (Node.Paired names) (kept.getD list) (kept'.getD twins) := by
  cases related with
  | none => exact all
  | some related => exact related

variable (unique : Relator.BiUnique names)
include unique

theorem alongside_nodes (lives : List.Forall₂ names live live') {list twins : List Node}
    (same : Matched (Node.Paired names) list twins) :
    Alongside (Option.Rel (Matched (Node.Paired names))) (Prune.nodes live list)
      (Prune.nodes live' twins) := by
  induction same with
  | nil => exact .pure .none
  | @cons first first' rest rest' here children later below ih =>
      have single : Matched (Node.Paired names) [first] [first'] := .cons here children .nil
      rw [Prune.nodes, Prune.nodes, single.isDead_eq unique lives]
      split
      · exact .bind ih fun _ _ kept => .pure (.some (matched_getD later kept))
      refine .bind (alongside_node single below) fun pruned pruned' same => ?_
      refine .bind ih fun kept kept' more => ?_
      cases same with
      | none =>
          cases more with
          | none => exact .pure .none
          | some more => exact .pure (.some (.cons here children more))
      | some same =>
          have tree := Matched.single_iff.1 same
          cases more with
          | none => exact .pure (.some (.cons tree.1 tree.2 later))
          | some more => exact .pure (.some (.cons tree.1 tree.2 more))

theorem alongside_rounds (n : Nat) (same : Matched (Node.Paired names) [root] [twin]) :
    Alongside (fun node other => Matched (Node.Paired names) [node] [other]) (rounds n root)
      (rounds n twin) := by
  induction n generalizing root twin with
  | zero => exact .pure same
  | succ n ih =>
      rw [rounds, rounds]
      have below := alongside_nodes unique same.liveMethods (Matched.single_iff.1 same).2
      refine .bind (alongside_node same below) fun pruned pruned' related => ?_
      cases related with
      | none => exact .pure same
      | some related => exact ih related

end Prune

theorem alongside_prune (unique : Relator.BiUnique names)
    (same : Matched (Node.Paired names) [root] [twin]) :
    Prune.Alongside (fun node other => Matched (Node.Paired names) [node] [other]) root.prune
      twin.prune := by
  have length := same.length_preorderAll
  simp only [Node.preorderAll, List.append_nil] at length
  rw [Node.prune, Node.prune, length]
  exact Prune.alongside_rounds unique _ same

theorem biUnique_zip {α β : Type} {list : List α} {other : List β} (distinct : list.Nodup)
    (distinct' : other.Nodup) : Relator.BiUnique fun a b => (a, b) ∈ list.zip other := by
  have places : ∀ {a b}, (a, b) ∈ list.zip other → ∃ i, ∃ (here : i < list.length)
      (there : i < other.length), list[i] = a ∧ other[i] = b := by
    intro a b member
    obtain ⟨i, bound, same⟩ := List.mem_iff_getElem.1 member
    rw [List.getElem_zip] at same
    obtain ⟨rfl, rfl⟩ := Prod.mk.inj same
    exact ⟨i, _, _, rfl, rfl⟩
  constructor
  · intro a b c first second
    obtain ⟨i, here, there, rfl, rfl⟩ := places first
    obtain ⟨j, here', there', rfl, same⟩ := places second
    obtain rfl := (distinct'.getElem_inj_iff).1 same
    rfl
  · intro a b c first second
    obtain ⟨i, here, there, rfl, rfl⟩ := places first
    obtain ⟨j, here', there', same, rfl⟩ := places second
    obtain rfl := (distinct.getElem_inj_iff).1 same
    rfl

def CallTable.NamedAlike (table twin : CallTable) (name name' : String) : Prop :=
  (name, name') ∈ (table.bodies.map (·.canonical)).zip (twin.bodies.map (·.canonical))

variable {ρ : Relabelling} {hideNames hideNames' : Bool}

theorem Scan.State.Relabelled.paired {s s' : Scan.State}
    (same : s.Relabelled ρ hideNames hideNames' s') :
    s.table.Paired ρ (s.table.NamedAlike s'.table) s'.table where
  bodies := by
    rw [List.forall₂_iff_zip]
    refine ⟨same.table.bodies.length_eq, fun member =>
      ⟨List.forall₂_zip same.table.bodies member, ?_⟩⟩
    rw [CallTable.NamedAlike, List.zip_map]
    exact List.mem_map.2 ⟨_, member, rfl⟩
  relabelled := same.table
  unique := biUnique_zip same.named.nodup same.named'.nodup

/-- Hidden names tell places, and nothing else. -/
theorem Scan.State.Relabelled.eq_of_namedAlike {s s' : Scan.State}
    (same : s.Relabelled ρ true true s') {name name' : String}
    (alike : s.table.NamedAlike s'.table name name') : name = name' := by
  have named : s.table.bodies.map (·.canonical) = _ := same.named
  have named' : s'.table.bodies.map (·.canonical) = _ := same.named'
  rw [CallTable.NamedAlike, named, named', ← same.table.bodies.length_eq] at alike
  exact List.forall₂_zip (List.forall₂_same.2 fun _ _ => rfl) alike

/-- Families of scripts that differ in names alone compile alike, if what is done to the trees at
the end does. -/
theorem compile_corresponds {library library' : Library} {filter filter' : Node → Bool}
    {script twin : Script} (libraries : library.Relabelled ρ library')
    (scripts : script.Relabelled ρ twin)
    (accepts : ∀ node other, ρ.alike node other → filter node = filter' other)
    (rooted : script.root.kind = .script) (inline : Bool) (next next' : NodeId)
    {good : Node × NodeId → Node × NodeId → Prop}
    (finish : ∀ names : String → String → Prop, Relator.BiUnique names →
      (hideNames = true → hideNames' = true → ∀ name name', names name name' → name = name') →
      ∀ tree tree', Matched (Node.Paired names) [tree] [tree'] → ∀ s s',
        Corresponds Eq good ((if hideNames then tree.anonymize else pure tree) s)
          ((if hideNames' then tree'.anonymize else pure tree') s')) :
    Corresponds (CompileError.Relabelled ρ) good
      (compile { obfuscate := hideNames, inlineSingleUse := inline } filter library script next)
      (compile { obfuscate := hideNames', inlineSingleUse := inline } filter' library' twin
        next') := by
  refine (CallTable.ofScript_relabelled libraries scripts accepts).bind
    fun table table' scanned => ?_
  obtain ⟨s, s', same, rfl, rfl⟩ := scanned
  refine (Rebuild.script_corresponds same.paired inline accepts scripts next next').bind
    fun rebuilt rebuilt' below => ?_
  have root : script.root.declaration.Paired (s.table.NamedAlike s'.table) twin.root.declaration :=
    (Matched.single_iff.1 scripts.root).1.declaration (by simp [rooted])
      (by simp [Node.isInvocation, rooted])
  have finished : Corresponds Eq good
      (finishTree { obfuscate := hideNames, inlineSingleUse := inline } script.root.declaration
        rebuilt.1 rebuilt.2)
      (finishTree { obfuscate := hideNames', inlineSingleUse := inline } twin.root.declaration
        rebuilt'.1 rebuilt'.2) := by
    refine (root.build below rebuilt.2 rebuilt'.2).bind fun built built' tree => ?_
    refine (alongside_prune same.paired.unique tree built.2 built'.2 trivial).bind
      fun pruned pruned' left => ?_
    refine finish _ same.paired.unique (fun hidden hidden' name name' alike => ?_) _ _ left.1 _ _
    subst hidden hidden'
    exact same.eq_of_namedAlike alike
  exact finished.mapError fun error error' same => same ▸ .construction error

end Archetype
