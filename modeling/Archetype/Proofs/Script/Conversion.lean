import Archetype.Proofs.Script.Similar
import Archetype.Proofs.Stateful
import Archetype.Script.Document

/-!
Documents turned into script trees. A document is judged node by node: the values of the attributes
of a node before its children, the children from left to right, and the node itself last. If every
judgment is passed, the tree has the shape of the document, and otherwise the first one that is
failed is reported with the way to its node.
-/

namespace Archetype

namespace Document

/-! What stands for a node of a document. -/

def Valued (document : Document) : Prop :=
  ∀ entry ∈ document.attributes, Value.ofJson? entry.2 ≠ none

def declaration (file : String) (document : Document) : Declaration where
  kind := document.kind
  attributes := .ofList (document.attributes.filterMap fun (name, raw) =>
    (Value.ofJson? raw).map (name, ·))
  location := document.line.map fun line => ⟨file, line⟩

/-- The node as the checks on the one above it see it. -/
def face (file : String) (document : Document) : Node :=
  ⟨⟨0⟩, document.declaration file, none, []⟩

def Accepted (file : String) (document : Document) : Prop :=
  ∃ e, (document.declaration file).check (document.children.map (face file)) = .ok e

mutual
/-- The tree has the kinds, attributes and children of the document, and a location where the
document gives a line. -/
def Mirrors (file : String) : Document → Node → Prop
  | ⟨kind, attributes, children, line⟩, ⟨_, d, _, nodes⟩ =>
      d.kind = kind ∧
        (∀ name, d.attributes.get? name =
          (Json.member? name attributes).bind Value.ofJson?) ∧
        d.location = line.map (fun line => ⟨file, line⟩) ∧ MirrorsAll file children nodes

def MirrorsAll (file : String) : List Document → List Node → Prop
  | [], [] => True
  | document :: rest, node :: nodes => document.Mirrors file node ∧ MirrorsAll file rest nodes
  | _, _ => False
end

inductive Leads : Document → List (NodeKind × Nat) → Document → Prop
  | here {document : Document} : Leads document [] document
  | down {document child part : Document} {i : Nat} {steps : List (NodeKind × Nat)}
      (there : document.children[i]? = some child) (further : Leads child steps part) :
      Leads document ((child.kind, i) :: steps) part

/-! Judgments on documents. -/

/-- What is judged of a node: the values of its attributes, or the node with what is below it. -/
inductive Stage where
  | values
  | node

structure Judgment where
  trail : Trail
  part : Document
  stage : Stage

def Judgment.Fails (file : String) (judgment : Judgment) (fault : DocumentFault) : Prop :=
  match judgment.stage with
  | .values => ∃ name raw, (name, raw) ∈ judgment.part.attributes ∧ Value.ofJson? raw = none ∧
      fault = .unsupportedValue name raw.compact
  | .node => ∃ error, (judgment.part.declaration file).check
      (judgment.part.children.map (face file)) = .error error ∧ fault = .invalidNode error

mutual
/-- The judgments on a document in their order. -/
def judgments (trail : Trail) : Document → List Judgment
  | ⟨kind, attributes, children, line⟩ =>
      ⟨trail, ⟨kind, attributes, children, line⟩, .values⟩ ::
        (judgmentsAll trail 0 children ++ [⟨trail, ⟨kind, attributes, children, line⟩, .node⟩])

def judgmentsAll (trail : Trail) (position : Nat) : List Document → List Judgment
  | [] => []
  | document :: rest =>
      document.judgments (trail.down document.kind position) ++
        judgmentsAll trail (position + 1) rest
end

def AllPass (file : String) (judgments : List Judgment) : Prop :=
  ∀ judgment ∈ judgments, ∀ fault, ¬judgment.Fails file fault

def FirstFails (file : String) (judgments : List Judgment) (error : DocumentError) : Prop :=
  ∃ earlier judgment later fault, judgments = earlier ++ judgment :: later ∧
    AllPass file earlier ∧ judgment.Fails file fault ∧
    error = .faultyNode file judgment.trail fault

variable {file : String} {trail : Trail} {document part : Document} {error : DocumentError}
  {earlier later passed : List Judgment}

theorem AllPass.append (first : AllPass file earlier) (rest : AllPass file later) :
    AllPass file (earlier ++ later) := fun judgment member =>
  (List.mem_append.1 member).elim (first judgment) (rest judgment)

theorem AllPass.single {judgment : Judgment} (passes : ∀ fault, ¬judgment.Fails file fault) :
    AllPass file [judgment] :=
  List.forall_mem_singleton.2 passes

theorem FirstFails.append (fails : FirstFails file earlier error) (later : List Judgment) :
    FirstFails file (earlier ++ later) error := by
  obtain ⟨before, judgment, after, fault, rfl, passed, here, named⟩ := fails
  exact ⟨before, judgment, after ++ later, fault, by simp, passed, here, named⟩

theorem FirstFails.after (fails : FirstFails file later error) (passed : AllPass file earlier) :
    FirstFails file (earlier ++ later) error := by
  obtain ⟨before, judgment, after, fault, rfl, clean, here, named⟩ := fails
  exact ⟨earlier ++ before, judgment, after, fault, by simp, passed.append clean, here, named⟩

theorem FirstFails.single (judgment : Judgment) {fault : DocumentFault}
    (fails : judgment.Fails file fault) :
    FirstFails file [judgment] (.faultyNode file judgment.trail fault) :=
  ⟨[], judgment, [], fault, rfl, List.forall_mem_nil _, fails, rfl⟩

theorem passes_values_iff :
    (∀ fault, ¬Judgment.Fails file ⟨trail, part, .values⟩ fault) ↔ part.Valued := by
  constructor
  · intro passes entry member missing
    exact passes _ ⟨entry.1, entry.2, member, missing, rfl⟩
  · rintro valued fault ⟨name, raw, member, missing, -⟩
    exact valued (name, raw) member missing

theorem passes_node_iff :
    (∀ fault, ¬Judgment.Fails file ⟨trail, part, .node⟩ fault) ↔ part.Accepted file := by
  constructor
  · intro passes
    cases checked : (part.declaration file).check (part.children.map (face file)) with
    | ok e => exact ⟨e, checked⟩
    | error error => exact absurd ⟨error, checked, rfl⟩ (passes _)
  · rintro ⟨e, checked⟩ fault ⟨error, refused, -⟩
    rw [checked] at refused
    cases refused

/-! Where the judged nodes are. -/

def along (trail : Trail) (steps : List (NodeKind × Nat)) : Trail :=
  { trail with steps := trail.steps ++ steps }

theorem along_down (kind : NodeKind) (position : Nat) (steps : List (NodeKind × Nat)) :
    along (trail.down kind position) steps = along trail ((kind, position) :: steps) := by
  simp [along, Trail.down]

mutual
theorem leads_of_mem_judgments : ∀ (document : Document) (trail : Trail) {judgment : Judgment},
    judgment ∈ document.judgments trail →
      ∃ steps, judgment.trail = along trail steps ∧ document.Leads steps judgment.part
  | ⟨kind, attributes, children, line⟩, trail, judgment, member => by
      rw [judgments] at member
      rcases List.mem_cons.1 member with rfl | member
      · exact ⟨[], by simp [along], .here⟩
      · rcases List.mem_append.1 member with below | last
        · obtain ⟨i, child, steps, there, trailed, leads⟩ :=
            leads_of_mem_judgmentsAll children trail 0 below
          rw [Nat.zero_add] at trailed
          exact ⟨(child.kind, i) :: steps, trailed, .down there leads⟩
        · rw [List.mem_singleton.1 last]
          exact ⟨[], by simp [along], .here⟩

theorem leads_of_mem_judgmentsAll : ∀ (documents : List Document) (trail : Trail)
    (position : Nat) {judgment : Judgment}, judgment ∈ judgmentsAll trail position documents →
      ∃ i child steps, documents[i]? = some child ∧
        judgment.trail = along trail ((child.kind, position + i) :: steps) ∧
        child.Leads steps judgment.part
  | [], _, _, _, member => absurd member List.not_mem_nil
  | document :: rest, trail, position, judgment, member => by
      rw [judgmentsAll] at member
      rcases List.mem_append.1 member with first | later
      · obtain ⟨steps, trailed, leads⟩ :=
          leads_of_mem_judgments document (trail.down document.kind position) first
        exact ⟨0, document, steps, rfl, by rw [trailed, along_down, Nat.add_zero], leads⟩
      · obtain ⟨i, child, steps, there, trailed, leads⟩ :=
          leads_of_mem_judgmentsAll rest trail (position + 1) later
        exact ⟨i + 1, child, steps, there, by rw [trailed, Nat.add_assoc, Nat.add_comm 1], leads⟩
end

/-! The values of attributes. -/

theorem values_eq_ok {attributes : List (String × Json)} {found : List (String × Value)}
    (gives : values file trail attributes = .ok found) :
    found = (attributes.filterMap fun (name, raw) => (Value.ofJson? raw).map (name, ·)) ∧
      ∀ entry ∈ attributes, Value.ofJson? entry.2 ≠ none := by
  induction attributes generalizing found with
  | nil =>
      cases gives
      exact ⟨rfl, List.forall_mem_nil _⟩
  | cons entry rest ih =>
      obtain ⟨name, raw⟩ := entry
      rw [values] at gives
      cases value : Value.ofJson? raw with
      | none => simp [value] at gives
      | some v =>
          cases later : values file trail rest with
          | error error => simp [value, later, Except.map] at gives
          | ok more =>
              obtain ⟨rfl, valued⟩ := ih later
              simp only [value, later, Except.map, Except.ok.injEq] at gives
              subst gives
              exact ⟨by simp [value], List.forall_mem_cons.2 ⟨by simp [value], valued⟩⟩

theorem values_eq_error {attributes : List (String × Json)}
    (fails : values file trail attributes = .error error) :
    ∃ name raw, (name, raw) ∈ attributes ∧ Value.ofJson? raw = none ∧
      error = .faultyNode file trail (.unsupportedValue name raw.compact) := by
  induction attributes with
  | nil => cases fails
  | cons entry rest ih =>
      obtain ⟨name, raw⟩ := entry
      rw [values] at fails
      cases value : Value.ofJson? raw with
      | none =>
          simp only [value, Except.error.injEq] at fails
          exact ⟨name, raw, List.mem_cons_self .., value, fails.symm⟩
      | some v =>
          cases later : values file trail rest with
          | ok more => simp [value, later, Except.map] at fails
          | error error' =>
              simp only [value, later, Except.map, Except.error.injEq] at fails
              subst fails
              obtain ⟨name', raw', member, missing, named⟩ := ih later
              exact ⟨name', raw', List.mem_cons_of_mem _ member, missing, named⟩

/-- What is found under a name is the value of the last attribute of that name. -/
theorem get?_foldl_insert {attributes : List (String × Json)}
    (valued : ∀ entry ∈ attributes, Value.ofJson? entry.2 ≠ none) (table : Attributes)
    (name : String) :
    ((attributes.filterMap fun (name, raw) => (Value.ofJson? raw).map (name, ·)).foldl
        (fun table (name, value) => table.insert name value) table).get? name =
      ((Json.member? name attributes).bind Value.ofJson?).or (table.get? name) := by
  induction attributes generalizing table with
  | nil => rfl
  | cons entry rest ih =>
      obtain ⟨n, raw⟩ := entry
      obtain ⟨here, valued⟩ := List.forall_mem_cons.1 valued
      obtain ⟨v, value⟩ := Option.ne_none_iff_exists'.1 here
      rw [List.filterMap_cons_some (b := (n, v)) (by simp [value]), List.foldl_cons, ih valued,
        Json.member?]
      cases later : Json.member? name rest with
      | some other =>
          obtain ⟨v', value'⟩ :=
            Option.ne_none_iff_exists'.1 (valued _ (Json.mem_of_member? later))
          simp [value']
      | none =>
          by_cases same : n = name
          · subst same
            simp [value, Table.get?_insert_self]
          · simp [same, Table.get?_insert_of_ne (Ne.symm same)]

theorem get?_declaration (valued : document.Valued) (name : String) :
    (document.declaration file).attributes.get? name =
      (Json.member? name document.attributes).bind Value.ofJson? := by
  rw [declaration, Table.ofList, get?_foldl_insert valued]
  exact Option.or_none

/-! Building. -/

/-- The nodes below have the declarations of the documents, so the checks see them as these. -/
theorem check_eq_face {d : Declaration} {documents : List Document} {nodes : List Node}
    (declared : List.Forall₂ (fun document node => node.declaration = declaration file document)
      documents nodes) : d.check nodes = d.check (documents.map (face file)) := by
  refine Declaration.check_eq_of_children (List.forall₂_map_left_iff.2 (declared.imp ?_))
  intro document node same
  rw [same]
  exact ⟨rfl, rfl, fun _ => rfl⟩

theorem mirrors_of_declaration {node : Node} (valued : document.Valued)
    (declared : node.declaration = document.declaration file)
    (below : MirrorsAll file document.children node.children) : document.Mirrors file node := by
  obtain ⟨kind, attributes, children, line⟩ := document
  obtain ⟨id, d, e, nodes⟩ := node
  subst declared
  rw [Mirrors]
  exact ⟨rfl, get?_declaration valued, rfl, below⟩

open Stateful

/-- The last step of building a node is the last judgment on it. -/
theorem ensures_node (document : Document) {nodes : List Node}
    (declared : List.Forall₂ (fun document node => node.declaration = declaration file document)
      document.children nodes) (trail : Trail) (id : NodeId) :
    Ensures (fun id => ((document.declaration file).build nodes id).mapError fun error =>
        .faultyNode file trail (.invalidNode error)) id
      (fun node _ => AllPass file [⟨trail, document, .node⟩] ∧ nodes = node.children ∧
        node.declaration = document.declaration file)
      (FirstFails file [⟨trail, document, .node⟩]) := by
  have seen := check_eq_face (d := document.declaration file) declared
  unfold Ensures Declaration.build
  cases checked : (document.declaration file).check nodes with
  | ok e => exact ⟨.single (passes_node_iff.2 ⟨e, seen ▸ checked⟩), rfl, rfl⟩
  | error error =>
      exact .single ⟨trail, document, .node⟩ ⟨error, seen ▸ checked, rfl⟩

mutual
theorem ensures_build (file : String) : ∀ (document : Document) (trail : Trail) (id : NodeId),
    Ensures (document.build file trail) id
      (fun node _ => AllPass file (document.judgments trail) ∧
        node.declaration = document.declaration file ∧ document.Mirrors file node)
      (FirstFails file (document.judgments trail))
  | ⟨kind, attributes, children, line⟩, trail, id => by
      rw [build, judgments]
      refine ensures_bind (Q := fun found _ => values file trail attributes = .ok found)
        (ensures_liftM.imp (fun _ _ gives => gives) fun error fails => ?_) fun found s gives => ?_
      · obtain ⟨name, raw, member, missing, rfl⟩ := values_eq_error fails
        exact (FirstFails.single ⟨trail, ⟨kind, attributes, children, line⟩, .values⟩
          ⟨name, raw, member, missing, rfl⟩).append _
      · obtain ⟨rfl, valued⟩ := values_eq_ok gives
        have first : AllPass file [⟨trail, ⟨kind, attributes, children, line⟩, .values⟩] :=
          .single (passes_values_iff.2 valued)
        refine ensures_bind ((ensures_buildAll file children trail 0 s).imp
          (fun _ _ built => built) fun error fails => ?_) fun nodes s built => ?_
        · exact (fails.append _).after first
        · obtain ⟨passed, declared, mirrored⟩ := built
          refine (ensures_node ⟨kind, attributes, children, line⟩ declared trail s).imp
            (fun node _ built => ?_) fun error fails => (fails.after passed).after first
          obtain ⟨last, rfl, same⟩ := built
          exact ⟨first.append (passed.append last), same,
            mirrors_of_declaration valued same mirrored⟩

theorem ensures_buildAll (file : String) : ∀ (documents : List Document) (trail : Trail)
    (position : Nat) (id : NodeId),
    Ensures (buildAll file trail position documents) id
      (fun nodes _ => AllPass file (judgmentsAll trail position documents) ∧
        List.Forall₂ (fun document node => node.declaration = declaration file document)
          documents nodes ∧ MirrorsAll file documents nodes)
      (FirstFails file (judgmentsAll trail position documents))
  | [], trail, position, id => ⟨List.forall_mem_nil _, .nil, trivial⟩
  | document :: rest, trail, position, id => by
      rw [buildAll, judgmentsAll]
      refine ensures_bind ((ensures_build file document (trail.down document.kind position) id).imp
        (fun _ _ built => built) fun error fails => fails.append _) fun node s built => ?_
      obtain ⟨passed, declared, mirrored⟩ := built
      refine ensures_bind ((ensures_buildAll file rest trail (position + 1) s).imp
        (fun _ _ built => built) fun error fails => fails.after passed) fun nodes s built => ?_
      obtain ⟨passed', declared', mirrored'⟩ := built
      exact ensures_pure ⟨passed.append passed', .cons declared declared', mirrored, mirrored'⟩
end

end Document

end Archetype
