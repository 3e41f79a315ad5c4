import Archetype.Proofs.Flatten.Scanning
import Mathlib.Data.List.Nodup
import Mathlib.Logic.Relation

/-!
The graph of the bodies that invocations share, read off the scripts alone. A list of bodies is
settled if each of them invokes only later ones; a settled list has no cycle.
-/

namespace Archetype

open Relation (ReflTransGen TransGen)

/-- The nodes of a body and the script it belongs to. Of two methods under one name the first
counts. -/
def Callee.body? (scripts : List Script) : Callee → Option (Script × List Node)
  | .script identity =>
      (scripts.find? (·.identity = identity)).map fun script => (script, script.root.body)
  | .method owner name =>
      (scripts.find? (·.identity = owner)).bind fun script =>
        (script.root.methods.find? (·.name? = some name)).map fun method =>
          (script, method.children)

/-- An invocation that a scan of nodes of a script comes to leads to the body. -/
def Leads (library : Library) (filter : Node → Bool) (script : Script) (nodes : List Node)
    (callee : Callee) : Prop :=
  ∃ invocation, Reaches filter nodes invocation ∧ invocation.callee? library script = some callee

def Invokes (library : Library) (filter : Node → Bool) (scripts : List Script)
    (caller callee : Callee) : Prop :=
  ∃ script nodes, caller.body? scripts = some (script, nodes) ∧
    Leads library filter script nodes callee

def Comes (library : Library) (filter : Node → Bool) (scripts : List Script) (script : Script)
    (callee : Callee) : Prop :=
  ∃ first, Leads library filter script script.root.children first ∧
    ReflTransGen (Invokes library filter scripts) first callee

/-- The body comes back to itself. -/
def Recurs (library : Library) (filter : Node → Bool) (scripts : List Script) (callee : Callee) :
    Prop :=
  TransGen (Invokes library filter scripts) callee callee

section Leads

variable {library : Library} {filter : Node → Bool} {script : Script} {nodes : List Node}
  {callee : Callee}

theorem not_leads_nil : ¬Leads library filter script [] callee := by
  rintro ⟨_, reaches, -⟩
  cases reaches

theorem leads_cons {node : Node} : Leads library filter script (node :: nodes) callee ↔
    Leads library filter script [node] callee ∨ Leads library filter script nodes callee := by
  constructor
  · rintro ⟨invocation, reaches, leads⟩
    cases reaches with
    | here accepts invokes => exact .inl ⟨_, .here accepts invokes, leads⟩
    | condition accepts role constant below =>
        exact .inl ⟨_, .condition accepts role constant below, leads⟩
    | block accepts role below => exact .inl ⟨_, .block accepts role below, leads⟩
    | later rest => exact .inr ⟨_, rest, leads⟩
  · rintro (⟨invocation, reaches, leads⟩ | ⟨invocation, reaches, leads⟩)
    · refine ⟨invocation, ?_, leads⟩
      cases reaches with
      | here accepts invokes => exact .here accepts invokes
      | condition accepts role constant below => exact .condition accepts role constant below
      | block accepts role below => exact .block accepts role below
      | later rest => cases rest
    · exact ⟨invocation, .later reaches, leads⟩

theorem Leads.of_filter {p : Node → Bool}
    (leads : Leads library filter script (nodes.filter p) callee) :
    Leads library filter script nodes callee := by
  induction nodes with
  | nil => exact leads
  | cons node rest ih =>
      rw [List.filter_cons] at leads
      rw [leads_cons]
      split at leads
      · exact (leads_cons.1 leads).imp_right ih
      · exact .inr (ih leads)

theorem leads_single {node : Node} : Leads library filter script [node] callee ↔
    filter node = true ∧
      match node.role with
      | .declaration => False
      | .condition => node.constant? ≠ some false ∧
          Leads library filter script node.children callee
      | .source => node.callee? library script = some callee
      | .call => node.callee? library script = some callee
      | .block _ => Leads library filter script node.children callee := by
  constructor
  · rintro ⟨invocation, reaches, leads⟩
    obtain ⟨accepts, inside⟩ := reaches.of_single
    refine ⟨accepts, ?_⟩
    rcases inside with ⟨invokes, rfl⟩ | ⟨⟨role, constant⟩ | ⟨frame, role⟩, below⟩
    · cases role : invocation.role <;> simp_all [Node.isInvocation_eq]
    · simp only [role]
      exact ⟨constant, invocation, below, leads⟩
    · simp only [role]
      exact ⟨invocation, below, leads⟩
  · rintro ⟨accepts, inside⟩
    cases role : node.role with
    | declaration => simp [role] at inside
    | condition =>
        simp only [role] at inside
        obtain ⟨constant, invocation, below, leads⟩ := inside
        exact ⟨invocation, .condition accepts role constant below, leads⟩
    | source =>
        simp only [role] at inside
        exact ⟨node, .here accepts (by simp [Node.isInvocation_eq, role]), inside⟩
    | call =>
        simp only [role] at inside
        exact ⟨node, .here accepts (by simp [Node.isInvocation_eq, role]), inside⟩
    | block frame =>
        simp only [role] at inside
        obtain ⟨invocation, below, leads⟩ := inside
        exact ⟨invocation, .block accepts role below, leads⟩

end Leads

/-! Scripts by identity. -/

def DistinctScripts (scripts : List Script) : Prop :=
  ∀ script ∈ scripts, ∀ other ∈ scripts, script.identity = other.identity → script = other

theorem DistinctScripts.of_nodup {scripts : List Script}
    (distinct : (scripts.map (·.identity)).Nodup) : DistinctScripts scripts :=
  fun _ known _ known' same => List.inj_on_of_nodup_map distinct known known' same

theorem DistinctScripts.find?_eq {scripts : List Script} (distinct : DistinctScripts scripts)
    {script : Script} (known : script ∈ scripts) :
    scripts.find? (·.identity = script.identity) = some script := by
  cases found : scripts.find? (·.identity = script.identity) with
  | none => simpa using List.find?_eq_none.1 found script known
  | some other =>
      have same : other.identity = script.identity := by simpa using List.find?_some found
      rw [distinct other (List.mem_of_find?_eq_some found) script known same]

namespace Callee

variable {scripts : List Script}

theorem body?_script (distinct : DistinctScripts scripts) {script : Script}
    (known : script ∈ scripts) :
    (Callee.script script.identity).body? scripts = some (script, script.root.body) := by
  rw [body?, distinct.find?_eq known, Option.map_some]

theorem body?_method (distinct : DistinctScripts scripts) {script : Script}
    (known : script ∈ scripts) {name : String} {method : Node}
    (first : script.root.methods.find? (·.name? = some name) = some method) :
    (Callee.method script.identity name).body? scripts = some (script, method.children) := by
  rw [body?, distinct.find?_eq known, Option.bind_some, first, Option.map_some]

def all (scripts : List Script) : List Callee :=
  scripts.flatMap fun script => .script script.identity ::
    script.root.methods.map fun method => .method script.identity (method.name?.getD "")

theorem mem_all {callee : Callee} {body : Script × List Node}
    (found : callee.body? scripts = some body) : callee ∈ all scripts := by
  cases callee with
  | script identity =>
      obtain ⟨script, known, -⟩ := Option.map_eq_some_iff.1 found
      refine List.mem_flatMap.2 ⟨script, List.mem_of_find?_eq_some known, ?_⟩
      obtain rfl : script.identity = identity := by simpa using List.find?_some known
      exact List.mem_cons_self ..
  | method owner name =>
      obtain ⟨script, known, found⟩ := Option.bind_eq_some_iff.1 found
      obtain ⟨method, declared, -⟩ := Option.map_eq_some_iff.1 found
      refine List.mem_flatMap.2 ⟨script, List.mem_of_find?_eq_some known, ?_⟩
      obtain rfl : script.identity = owner := by simpa using List.find?_some known
      have named : method.name? = some name := by simpa using List.find?_some declared
      refine List.mem_cons_of_mem _
        (List.mem_map.2 ⟨method, List.mem_of_find?_eq_some declared, ?_⟩)
      rw [named, Option.getD_some]

end Callee

theorem length_all_cons (script : Script) (scripts : List Script) :
    (Callee.all (script :: scripts)).length =
      script.root.methods.length + 1 + (Callee.all scripts).length := by
  simp only [Callee.all, List.flatMap_cons, List.length_append, List.length_cons, List.length_map]

/-- The bound on nested bodies is above the number of bodies. -/
theorem length_all_lt (library : Library) (script : Script) :
    (Callee.all (script :: library.scripts)).length < Scan.nestingBound library script := by
  have folded : ∀ (scripts : List Script) (n : Nat),
      scripts.foldl (fun n s => n + s.root.methods.length + 1) n =
        n + (Callee.all scripts).length := by
    intro scripts
    induction scripts with
    | nil => exact fun n => rfl
    | cons first rest ih =>
        intro n
        rw [List.foldl_cons, ih, length_all_cons]
        omega
  rw [Scan.nestingBound, folded, length_all_cons]
  omega

/-! Settled lists, of bodies or of their names. -/

/-- Each of the bodies invokes only those after it. -/
inductive Settled {α : Type} (invokes : α → α → Prop) : List α → Prop
  | nil : Settled invokes []
  | cons (later : ∀ next, invokes callee next → next ∈ rest) (settled : Settled invokes rest) :
      Settled invokes (callee :: rest)

namespace Settled

variable {α : Type} {invokes : α → α → Prop} {callees rest : List α} {callee next : α}

theorem closed (settled : Settled invokes callees) (member : callee ∈ callees)
    (step : invokes callee next) : next ∈ callees := by
  induction settled with
  | nil => cases member
  | cons later _ ih =>
      rcases List.mem_cons.1 member with rfl | member
      · exact List.mem_cons_of_mem _ (later next step)
      · exact List.mem_cons_of_mem _ (ih member)

theorem of_append {before : List α} (settled : Settled invokes (before ++ callees)) :
    Settled invokes callees := by
  induction before with
  | nil => exact settled
  | cons first rest ih =>
      cases settled with
      | cons _ settled => exact ih settled

theorem mem_rest (settled : Settled invokes (callee :: rest)) {caller : α}
    (member : caller ∈ callee :: rest) (step : invokes caller next) : next ∈ rest := by
  cases settled with
  | cons later settled =>
      rcases List.mem_cons.1 member with rfl | member
      · exact later next step
      · exact settled.closed member step

theorem imp {others : α → α → Prop} (settled : Settled invokes callees)
    (fewer : ∀ callee ∈ callees, ∀ next, others callee next → invokes callee next) :
    Settled others callees := by
  induction settled with
  | nil => exact .nil
  | cons later _ ih =>
      obtain ⟨here, rest⟩ := List.forall_mem_cons.1 fewer
      exact .cons (fun next step => later next (here next step)) (ih rest)

theorem closed_star (settled : Settled invokes callees) (member : callee ∈ callees)
    (steps : ReflTransGen invokes callee next) : next ∈ callees := by
  induction steps with
  | refl => exact member
  | tail _ step ih => exact settled.closed ih step

theorem acyclic (settled : Settled invokes callees) (distinct : callees.Nodup)
    (member : callee ∈ callees) : ¬TransGen invokes callee callee := by
  induction settled with
  | nil => cases member
  | cons later settled ih =>
      obtain ⟨fresh, distinct⟩ := List.nodup_cons.1 distinct
      rcases List.mem_cons.1 member with rfl | member
      · intro cycle
        obtain ⟨second, step, back⟩ := TransGen.head'_iff.1 cycle
        exact fresh (settled.closed_star (later second step) back)
      · exact ih distinct member

end Settled

end Archetype
