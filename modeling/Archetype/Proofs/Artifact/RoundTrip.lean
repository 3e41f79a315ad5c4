import Archetype.Artifact.CompiledScript
import Archetype.Proofs.Artifact.Decoding

/-!
Compiled scripts as bytes and back. Whatever order the attributes of nodes are written in, and
whatever bytes follow, the script is read back as it was, and no shorter part of its bytes is a
script.
-/

namespace Archetype

namespace Table

variable {α : Type}

theorem perm_insertEntry {name : String} {value : α} {entries : List (String × α)}
    (fresh : name ∉ entries.map (·.1)) :
    (insertEntry name value entries).Perm ((name, value) :: entries) := by
  fun_induction insertEntry name value entries with
  | case1 => exact .refl _
  | case2 => exact .refl _
  | case3 v rest _ => simp at fresh
  | case4 n v rest _ _ ih =>
      have later : name ∉ rest.map (·.1) := fun member => fresh (List.mem_cons_of_mem _ member)
      exact ((ih later).cons _).trans (.swap _ _ _)

theorem perm_foldl_insert {entries : List (String × α)} {table : Table α}
    (distinct : ((entries ++ table.entries).map (·.1)).Nodup) :
    (entries.foldl (fun table (name, value) => table.insert name value) table).entries.Perm
      (entries ++ table.entries) := by
  induction entries generalizing table with
  | nil => exact .refl _
  | cons entry rest ih =>
      obtain ⟨name, value⟩ := entry
      rw [List.cons_append, List.map_cons, List.nodup_cons] at distinct
      have fresh : name ∉ table.entries.map (·.1) := fun member =>
        distinct.1 (by rw [List.map_append]; exact List.mem_append_right _ member)
      have put : (rest ++ (table.insert name value).entries).Perm
          ((name, value) :: (rest ++ table.entries)) :=
        ((perm_insertEntry fresh).append_left rest).trans List.perm_middle
      have apart : ((rest ++ (table.insert name value).entries).map (·.1)).Nodup := by
        rw [(put.map (·.1)).nodup_iff]
        exact List.nodup_cons.2 distinct
      exact (ih apart).trans put

/-- A table is known by its entries, in any order. -/
theorem ofList_of_perm {entries : List (String × α)} {table : Table α}
    (order : entries.Perm table.entries) : ofList entries = table := by
  have names : (table.entries.map (·.1)).Nodup :=
    List.pairwise_map.2 (table.sorted.imp fun {a b} less same => by
      rw [same] at less
      exact String.lt_irrefl _ less)
  have distinct : ((entries ++ (empty : Table α).entries).map (·.1)).Nodup := by
    rw [show (empty : Table α).entries = [] from rfl, List.append_nil,
      (order.map (·.1)).nodup_iff]
    exact names
  have same : (ofList entries).entries.Perm table.entries := by
    have listed := perm_foldl_insert distinct
    rw [show (empty : Table α).entries = [] from rfl, List.append_nil] at listed
    exact listed.trans order
  have entries_eq : (ofList entries).entries = table.entries :=
    same.eq_of_pairwise (fun a b _ _ less more => absurd (String.lt_trans less more)
      (String.lt_irrefl _)) (ofList entries).sorted table.sorted
  cases h : ofList entries
  cases table
  simp_all

end Table

namespace Artifact

open Decoder (Reads Extends)

/-! Kinds, values and expressions. -/

theorem extends_variant {α : Type} (variants : List α) :
    Extends (decodeVariant variants) (decodeVariant variants) := by
  refine (extends_nat 4).bind fun number => ?_
  split
  · exact .pure _
  · exact .throw _

theorem reads_kind (kind : NodeKind) : decodeKind.Reads (encodeKind kind) kind := by
  have member := NodeKind.mem_all kind
  have small : NodeKind.all.idxOf kind < UInt32.size :=
    Nat.lt_trans (List.idxOf_lt_length_iff.2 member) (by decide)
  refine (reads_nat (.inl small)).last ?_
  cases kind <;> rfl

theorem reads_int (i : Int64) : decodeInt.Reads (encodeInt i) i := by
  refine (reads_nat (.inr ⟨rfl, interleave_lt i⟩)).last ?_
  rw [deinterleave_interleave, Int64.ofInt_toInt]

theorem extends_int : Extends decodeInt decodeInt :=
  (extends_nat 8).bind fun _ => .pure _

theorem reads_texts (items : List String) :
    (decodeList decodeText).Reads (encodeList encodeText items) items :=
  reads_list (fun s _ => length_encodeText_pos s) fun s _ => reads_text s

theorem reads_tag {n : Nat} (small : n < 251) : (decodeNat 4).Reads (encodeNat n) n :=
  reads_nat (.inl (Nat.lt_trans small (by decide)))

theorem reads_value (v : Value) : decodeValue.Reads (encodeValue v) v := by
  cases v with
  | null => exact (reads_tag (by decide)).last rfl
  | string s => exact (reads_tag (by decide)).bind ((reads_text s).last rfl)
  | bool b => exact (reads_tag (by decide)).bind ((reads_bool b).last rfl)
  | int i => exact (reads_tag (by decide)).bind ((reads_int i).last rfl)
  | list items => exact (reads_tag (by decide)).bind ((reads_texts items).last rfl)

theorem extends_value : Extends decodeValue decodeValue := by
  refine (extends_nat 4).bind fun number => ?_
  split
  · exact .pure _
  · exact extends_text.bind fun _ => .pure _
  · exact extends_bool.bind fun _ => .pure _
  · exact extends_int.bind fun _ => .pure _
  · exact (extends_list extends_text).bind fun _ => .pure _
  · exact .throw _

theorem length_le_of_tagged {tag depth : Nat} {bytes : List UInt8}
    (room : (encodeNat tag ++ bytes).length ≤ depth + 1) : bytes.length ≤ depth := by
  have number := length_encodeNat_pos tag
  rw [List.length_append] at room
  omega

theorem length_encodeExpression_pos (e : Expression) : 0 < (encodeExpression e).length := by
  have tagged : ∀ (tag : Nat) (bytes : List UInt8), 0 < (encodeNat tag ++ bytes).length := by
    intro tag bytes
    have number := length_encodeNat_pos tag
    rw [List.length_append]
    omega
  cases e with
  | logic op l r => cases op <;> rw [encodeExpression, List.append_assoc] <;> exact tagged _ _
  | compare op l r => cases op <;> rw [encodeExpression, List.append_assoc] <;> exact tagged _ _
  | _ => exact tagged _ _

theorem extends_two {decode later : Decoder Expression}
    (combine : Expression → Expression → Expression) (operand : Extends decode later) :
    Extends (decodeTwo decode combine) (decodeTwo later combine) :=
  operand.bind fun _ => operand.bind fun _ => .pure _

/-- An expression is nested less deep than it has bytes, as each operator takes one at least. -/
theorem reads_expression (depth : Nat) : ∀ {e : Expression}, (encodeExpression e).length ≤ depth →
    (decodeExpression depth).Reads (encodeExpression e) e := by
  induction depth with
  | zero =>
      intro e room
      have some := length_encodeExpression_pos e
      omega
  | succ depth ih =>
      have two : ∀ {tag : Nat} {l r : Expression} (combine : Expression → Expression → Expression),
          (encodeNat tag ++ encodeExpression l ++ encodeExpression r).length ≤ depth + 1 →
            (decodeTwo (decodeExpression depth) combine).Reads
              (encodeExpression l ++ encodeExpression r) (combine l r) := by
        intro tag l r combine room
        rw [List.append_assoc] at room
        have inner := length_le_of_tagged room
        rw [List.length_append] at inner
        exact (ih (by omega)).bind ((ih (by omega)).last rfl)
      intro e room
      cases e with
      | literal v => exact (reads_tag (by decide)).bind ((reads_value v).last rfl)
      | var path => exact (reads_tag (by decide)).bind ((reads_text path).last rfl)
      | not e =>
          exact (reads_tag (by decide)).bind ((ih (length_le_of_tagged room)).last rfl)
      | sizeOf e =>
          exact (reads_tag (by decide)).bind ((ih (length_le_of_tagged room)).last rfl)
      | logic op l r =>
          cases op with
          | and =>
              rw [encodeExpression, List.append_assoc]
              exact (reads_tag (by decide)).bind (two _ room)
          | or =>
              rw [encodeExpression, List.append_assoc]
              exact (reads_tag (by decide)).bind (two _ room)
      | compare op l r =>
          cases op with
          | equal =>
              rw [encodeExpression, List.append_assoc]
              exact (reads_tag (by decide)).bind (two _ room)
          | notEqual =>
              rw [encodeExpression, List.append_assoc]
              exact (reads_tag (by decide)).bind (two _ room)
          | contains =>
              rw [encodeExpression, List.append_assoc]
              exact (reads_tag (by decide)).bind (two _ room)

theorem extends_expression : ∀ {depth deeper : Nat}, depth ≤ deeper →
    Extends (decodeExpression depth) (decodeExpression deeper)
  | 0, _, _ => .throw _
  | depth + 1, 0, less => absurd less (Nat.not_succ_le_zero depth)
  | depth + 1, deeper + 1, less => by
      have inner : Extends (decodeExpression depth) (decodeExpression deeper) :=
        extends_expression (Nat.le_of_succ_le_succ less)
      refine (extends_nat 4).bind fun number => ?_
      split
      · exact inner.bind fun _ => .pure _
      · exact extends_two _ inner
      · exact extends_two _ inner
      · exact extends_two _ inner
      · exact extends_two _ inner
      · exact extends_two _ inner
      · exact inner.bind fun _ => .pure _
      · exact extends_value.bind fun _ => .pure _
      · exact extends_text.bind fun _ => .pure _
      · exact .throw _

/-! Attributes and locations. -/

theorem reads_attribute (entry : String × Value) :
    decodeAttribute.Reads (encodeAttribute entry) entry :=
  (reads_text entry.1).bind ((reads_value entry.2).last rfl)

theorem extends_attribute : Extends decodeAttribute decodeAttribute :=
  extends_text.bind fun _ => extends_value.bind fun _ => .pure _

theorem reads_attributes (entries : List (String × Value)) :
    (decodeList decodeAttribute).Reads (encodeList encodeAttribute entries) entries := by
  refine reads_list (fun entry _ => ?_) fun entry _ => reads_attribute entry
  have name := length_encodeText_pos entry.1
  rw [encodeAttribute, List.length_append]
  omega

theorem reads_location (location : Location) :
    decodeLocation.Reads (encodeLocation location) location := by
  refine (reads_text location.file).bind ((reads_nat (.inl location.line.toNat_lt)).last ?_)
  rw [Nat.toUInt32, UInt32.ofNat_toNat]

theorem extends_location : Extends decodeLocation decodeLocation :=
  extends_text.bind fun _ => (extends_nat 4).bind fun _ => .pure _

/-! Nodes. -/

inductive Written : List Node → List UInt8 → Prop
  | nil : Written [] []
  | cons {node : Node} {nodes : List Node} {inner more : List UInt8}
      {attributes : List (String × Value)} (order : attributes.Perm node.attributes.entries)
      (below : Written node.children inner) (rest : Written nodes more) :
      Written (node :: nodes)
        (encodeNat node.id.number.toNat ++ (encodeKind node.kind ++
          (encodeList encodeAttribute attributes ++
            ((encodeNat node.children.length ++ inner) ++
              (encodeOption encodeLocation node.location ++
                encodeOption encodeExpression node.expression)))) ++ more)

theorem written_encodeNodes : ∀ nodes : List Node, Written nodes (encodeNodes nodes)
  | [] => .nil
  | ⟨id, d, e, children⟩ :: rest => by
      have written := @Written.cons ⟨id, d, e, children⟩ _ _ _ _ (.refl _)
        (written_encodeNodes children) (written_encodeNodes rest)
      rw [encodeNodes, encodeNode]
      simpa only [List.append_assoc] using written

theorem Written.length_le {nodes : List Node} {bytes : List UInt8} (written : Written nodes bytes) :
    nodes.length ≤ bytes.length := by
  induction written with
  | nil => simp
  | @cons node _ _ _ _ _ _ _ _ ih =>
      have id := length_encodeNat_pos node.id.number.toNat
      rw [List.length_append, List.length_append, List.length_cons]
      omega

/-- The expression of a node has room for its nesting in the bytes that are left. -/
theorem reads_nodeExpression (expression : Option Expression) :
    (decodeOption fun bytes => decodeExpression (bytes.length + 1) bytes).Reads
      (encodeOption encodeExpression expression) expression := by
  refine reads_option fun e _ short rest => ?_
  refine reads_expression _ ?_ short rest
  rw [List.length_append]
  omega

theorem extends_nodeExpression :
    Extends (decodeOption fun bytes => decodeExpression (bytes.length + 1) bytes)
      (decodeOption fun bytes => decodeExpression (bytes.length + 1) bytes) := by
  refine extends_option fun bytes e rest taken more => ?_
  refine extends_expression ?_ taken more
  rw [List.length_append]
  omega

theorem Written.reads {nodes : List Node} {bytes : List UInt8} (written : Written nodes bytes) :
    ∀ {depth : Nat}, bytes.length ≤ depth →
      (decodeMany (decodeNode depth) nodes.length).Reads bytes nodes := by
  induction written with
  | nil => exact fun _ => .pure []
  | @cons node nodes inner more attributes order below rest ihBelow ihRest =>
      intro depth room
      rw [List.length_append] at room
      refine Reads.bind ?_ ((ihRest (by omega)).last rfl)
      obtain ⟨depth, rfl⟩ : ∃ d, depth = d + 1 :=
        ⟨depth - 1, by
          have id := length_encodeNat_pos node.id.number.toNat
          rw [List.length_append] at room
          omega⟩
      have inside := length_le_of_tagged (Nat.le_trans (Nat.le_add_right _ _) room)
      simp only [List.length_append] at inside
      refine .of_short fun short => ?_
      have few := below.length_le
      simp only [List.length_append] at short
      have children : (decodeList (decodeNode depth)).Reads
          (encodeNat node.children.length ++ inner) node.children :=
        (reads_nat (.inr ⟨rfl, Nat.lt_of_le_of_lt few (by omega)⟩)).bind (ihBelow (by omega))
      refine (reads_nat (.inr ⟨rfl, node.id.number.toNat_lt⟩)).bind
        ((reads_kind node.kind).bind ((reads_attributes attributes).bind (children.bind
          ((reads_option fun location _ => reads_location location).bind
            ((reads_nodeExpression node.expression).last ?_)))))
      rw [Table.ofList_of_perm order, Nat.toUInt64, UInt64.ofNat_toNat]
      cases node
      rfl

theorem extends_node : ∀ {depth deeper : Nat}, depth ≤ deeper →
    Extends (decodeNode depth) (decodeNode deeper)
  | 0, _, _ => .throw _
  | depth + 1, 0, less => absurd less (Nat.not_succ_le_zero depth)
  | _ + 1, _ + 1, less =>
      (extends_nat 8).bind fun _ => (extends_variant _).bind fun _ =>
        (extends_list extends_attribute).bind fun _ =>
          (extends_list (extends_node (Nat.le_of_succ_le_succ less))).bind fun _ =>
            (extends_option extends_location).bind fun _ =>
              extends_nodeExpression.bind fun _ => .pure _

end Artifact

namespace CompiledScript

open Artifact Artifact.Decoder

/-- The bytes are a compiled script, with the attributes of each node in any order. -/
def Stored (script : CompiledScript) (bytes : List UInt8) : Prop :=
  ∃ tree, Written [script.root] tree ∧
    bytes = encodeText script.identity ++ (encodeBool script.obfuscated ++ tree)

def decode (depth : Nat) : Decoder CompiledScript := do
  let identity ← decodeText
  let obfuscated ← decodeBool
  let root ← decodeNode depth
  return ⟨identity, obfuscated, root⟩

theorem ofBytes_eq (bytes : List UInt8) :
    ofBytes bytes = (decode (bytes.length + 1) bytes).map (·.1) := rfl

theorem extends_decode {depth deeper : Nat} (less : depth ≤ deeper) :
    Extends (decode depth) (decode deeper) :=
  extends_text.bind fun _ => extends_bool.bind fun _ => (extends_node less).bind fun _ => .pure _

theorem Stored.reads {script : CompiledScript} {bytes : List UInt8} (stored : script.Stored bytes)
    {depth : Nat} (room : bytes.length ≤ depth) : (decode depth).Reads bytes script := by
  obtain ⟨tree, written, rfl⟩ := stored
  rw [List.length_append, List.length_append] at room
  have root : (decodeNode depth).Reads tree script.root := by
    intro short rest
    have fits : tree.length ≤ depth := by omega
    have single := written.reads fits short rest
    obtain ⟨node, between, first, last⟩ := Stateful.bind_eq_ok.1 single
    obtain ⟨none, left, empty, last⟩ := Stateful.bind_eq_ok.1 last
    obtain ⟨rfl, rfl⟩ := Stateful.pure_eq_ok.1 empty
    obtain ⟨same, rfl⟩ := Stateful.pure_eq_ok.1 last
    obtain ⟨rfl, -⟩ := List.cons.inj same
    exact first
  exact (reads_text _).bind ((reads_bool _).bind (root.last rfl))

/-- A compiled script that is stored is read back whole, whatever bytes come after it, and is not
found in bytes that are cut short. -/
theorem artifact_round_trip (script : CompiledScript) : script.Stored script.toBytes ∧
    ∀ bytes, script.Stored bytes → bytes.length < UInt64.size →
      (∀ rest, ofBytes (bytes ++ rest) = .ok script) ∧
      ∀ cut missing, bytes = cut ++ missing → missing ≠ [] →
        ∃ fault, ofBytes cut = .error fault := by
  refine ⟨⟨_, written_encodeNodes [script.root], ?_⟩,
    fun bytes stored short => ⟨fun rest => ?_, ?_⟩⟩
  · simp only [toBytes, encodeNodes, List.append_nil, List.append_assoc]
  · have read := stored.reads (Nat.le_trans (Nat.le_add_right _ rest.length) (Nat.le_succ _)) short
      rest
    rw [ofBytes_eq, List.length_append, read]
    rfl
  · rintro cut missing rfl lacking
    have reads := stored.reads (Nat.le_succ _)
    have less : cut.length + 1 ≤ (cut ++ missing).length + 1 := by
      rw [List.length_append]
      omega
    obtain ⟨fault, refused⟩ := exists_fault reads (extends_decode less) short lacking
    exact ⟨fault, by rw [ofBytes_eq, refused]; rfl⟩

def askedList : Node where
  id := ⟨1⟩
  declaration :=
    { kind := .inputList
      attributes := .ofList
        [("name", .string "é"), ("order", .int (-1)), ("default", .list ["x", ""])] }
  expression := none
  children := []

def askingUnderCondition : CompiledScript where
  identity := "a"
  obfuscated := false
  root :=
    { id := ⟨300⟩
      declaration := { kind := .script }
      expression := none
      children :=
        [{ id := ⟨70000⟩
           declaration :=
             { kind := .condition
               attributes := .ofList [("expression", .string "!false")]
               location := some ⟨"a.json", 251⟩ }
           expression := some (.not (.literal (.bool false)))
           children := [askedList] }] }

/-- The attributes of the list are written from the last to the first. -/
theorem artifact_round_trip_of_other_order :
    let bytes : List UInt8 :=
      [1, 97, 0, 251, 44, 1, 0, 0, 1, 252, 112, 17, 1, 0, 9, 1, 10, 101, 120, 112, 114, 101, 115,
        115, 105, 111, 110, 1, 6, 33, 102, 97, 108, 115, 101, 1, 1, 5, 3, 5, 111, 114, 100, 101,
        114, 3, 1, 4, 110, 97, 109, 101, 1, 2, 195, 169, 7, 100, 101, 102, 97, 117, 108, 116, 4, 2,
        1, 120, 0, 0, 0, 0, 1, 6, 97, 46, 106, 115, 111, 110, 251, 251, 0, 1, 0, 7, 2, 0, 0, 0]
    bytes ≠ askingUnderCondition.toBytes ∧ askingUnderCondition.Stored bytes ∧
      bytes.length < UInt64.size ∧ ofBytes (bytes ++ [7]) = .ok askingUnderCondition ∧
      ∃ fault, ofBytes bytes.dropLast = .error fault := by
  intro bytes
  have list : Written [askedList] _ := .cons (List.reverse_perm _) .nil .nil
  have tree : Written [askingUnderCondition.root] _ :=
    .cons (.refl _) (.cons (.refl _) list .nil) .nil
  have stored : askingUnderCondition.Stored bytes := ⟨_, tree, by decide +kernel⟩
  have short : bytes.length < UInt64.size := by decide
  obtain ⟨read, cut⟩ := (artifact_round_trip askingUnderCondition).2 bytes stored short
  exact ⟨by decide +kernel, stored, short, read [7],
    cut bytes.dropLast [0] rfl (List.cons_ne_nil _ _)⟩

end CompiledScript

end Archetype
