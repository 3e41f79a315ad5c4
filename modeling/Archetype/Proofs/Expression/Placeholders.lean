import Archetype.Template
import Mathlib.Data.List.Infix

/-!
Templates taken apart. There is one way to write a template as literal texts and placeholders, each
opening at the first place after the one before it and closing at the first place after that. The
placeholders, and nothing else, are replaced by the texts of their values.
-/

namespace Archetype

def Value.inserted : Value → List Char
  | .null => []
  | .list items => [','].intercalate (items.map String.toList)
  | v => v.text.toList

theorem Value.toList_plain (v : Value) : v.plain.toList = v.inserted := by
  cases v with
  | list items => exact String.toList_intercalate
  | _ => rfl

namespace Template

/-- A placeholder with the literal text before it; the path is as it was written. -/
structure Placeholder where
  before : List Char
  path : List Char

def Placeholder.name (hole : Placeholder) : String := .ofList (Text.trimmed hole.path)

def Placeholder.text (hole : Placeholder) : List Char :=
  hole.before ++ '$' :: '{' :: (hole.path ++ ['}'])

structure Layout where
  holes : List Placeholder
  ending : List Char

namespace Layout

def text (layout : Layout) : List Char :=
  layout.holes.flatMap Placeholder.text ++ layout.ending

/-- The layout writes the template. Every placeholder opens at the first opening after the one
before it and closes at the first closing brace after that, and no opening in the ending is closed.
An opening begins with a dollar sign and goes on with a brace, so none lies across the end of a
literal text. -/
structure Writes (layout : Layout) (template : List Char) : Prop where
  text : layout.text = template
  opens : ∀ hole ∈ layout.holes, ¬['$', '{'] <:+: hole.before
  closes : ∀ hole ∈ layout.holes, '}' ∉ hole.path
  ends : ∀ before path after, layout.ending ≠ before ++ '$' :: '{' :: (path ++ '}' :: after)

def filled (layout : Layout) (texts : List (List Char)) : List Char :=
  (layout.holes.zipWith (fun hole inserted => hole.before ++ inserted) texts).flatten
    ++ layout.ending

def pieces (layout : Layout) : List Piece :=
  layout.holes.flatMap (fun hole => [.text hole.before, .ref hole.name]) ++ [.text layout.ending]

end Layout

/-! The first placeholder of a text. -/

theorem nextRef?_eq_none_iff {cs : List Char} :
    nextRef? cs = none ↔
      ∀ before path after, cs ≠ before ++ '$' :: '{' :: (path ++ '}' :: after) := by
  fun_induction nextRef? cs with
  | case1 => simp
  | case2 rest =>
      rw [Option.map_eq_none_iff, Text.cutFirst?_eq_none_iff]
      constructor
      · intro unclosed before path after whole
        have closed : '}' ∈ '$' :: '{' :: rest := by simp [whole]
        rcases List.mem_cons.1 closed with dollar | closed
        · cases dollar
        · rcases List.mem_cons.1 closed with brace | closed
          · cases brace
          · exact unclosed closed
      · intro unwritten closed
        obtain ⟨path, after, rfl⟩ := List.append_of_mem closed
        exact unwritten [] path after rfl
  | case3 c rest other ih =>
      rw [Option.map_eq_none_iff, ih]
      constructor
      · intro unwritten before path after whole
        cases before with
        | nil =>
            obtain ⟨rfl, rfl⟩ := List.cons.inj whole
            exact other _ rfl rfl
        | cons b before => exact unwritten before path after (List.cons.inj whole).2
      · rintro unwritten before path after rfl
        exact unwritten (c :: before) path after rfl

theorem nextRef?_eq_some_iff {cs before path after : List Char} :
    nextRef? cs = some (before, path, after) ↔
      cs = before ++ '$' :: '{' :: (path ++ '}' :: after) ∧ ¬['$', '{'] <:+: before ∧
        '}' ∉ path := by
  fun_induction nextRef? cs generalizing before with
  | case1 => simp
  | case2 rest =>
      simp only [Option.map_eq_some_iff, Prod.exists, Text.cutFirst?_eq_some_iff, Prod.mk.injEq]
      constructor
      · rintro ⟨_, _, ⟨rfl, unclosed⟩, rfl, rfl, rfl⟩
        exact ⟨rfl, by simp, unclosed⟩
      · rintro ⟨whole, unopened, unclosed⟩
        cases before with
        | nil =>
            simp only [List.nil_append, List.cons.injEq, true_and] at whole
            exact ⟨path, after, ⟨whole, unclosed⟩, rfl, rfl, rfl⟩
        | cons b before =>
            refine absurd (List.infix_cons_iff.2 (.inl ?_)) unopened
            cases before with
            | nil => simp at whole
            | cons b' before =>
                simp only [List.cons_append, List.cons.injEq] at whole
                simp [← whole.1, ← whole.2.1]
  | case3 c rest other ih =>
      simp only [Option.map_eq_some_iff, Prod.exists, Prod.mk.injEq]
      constructor
      · rintro ⟨b, _, _, found, rfl, rfl, rfl⟩
        obtain ⟨rfl, unopened, unclosed⟩ := ih.1 found
        refine ⟨rfl, fun opened => ?_, unclosed⟩
        rcases List.infix_cons_iff.1 opened with ⟨more, first⟩ | later
        · simp only [List.cons_append, List.nil_append, List.cons.injEq] at first
          exact other _ first.1.symm (by rw [← first.2]; rfl)
        · exact unopened later
      · rintro ⟨whole, unopened, unclosed⟩
        cases before with
        | nil =>
            obtain ⟨rfl, rfl⟩ := List.cons.inj whole
            exact absurd rfl (other _ rfl)
        | cons b before =>
            obtain ⟨rfl, rfl⟩ := List.cons.inj whole
            have later := fun opened => unopened (List.infix_cons_iff.2 (.inr opened))
            exact ⟨before, path, after, ih.2 ⟨rfl, later, unclosed⟩, rfl, rfl, rfl⟩

/-! The layout of a template. -/

namespace Layout

variable {layout other : Layout} {template : List Char}

@[simp] theorem text_cons (hole : Placeholder) (holes : List Placeholder) (ending : List Char) :
    text ⟨hole :: holes, ending⟩ =
      hole.before ++ '$' :: '{' :: (hole.path ++ '}' :: text ⟨holes, ending⟩) := by
  simp [text, Placeholder.text]

theorem writes_nil_iff {ending : List Char} :
    Writes ⟨[], ending⟩ template ↔ nextRef? template = none ∧ ending = template := by
  constructor
  · intro writes
    obtain rfl : ending = template := writes.text
    exact ⟨nextRef?_eq_none_iff.2 writes.ends, rfl⟩
  · rintro ⟨unwritten, rfl⟩
    exact ⟨rfl, by simp, by simp, nextRef?_eq_none_iff.1 unwritten⟩

/-- A layout begins with the first placeholder of the template and goes on as a layout of what
follows it. -/
theorem writes_cons_iff {hole : Placeholder} {holes : List Placeholder} {ending : List Char} :
    Writes ⟨hole :: holes, ending⟩ template ↔
      ∃ after, nextRef? template = some (hole.before, hole.path, after) ∧
        Writes ⟨holes, ending⟩ after := by
  simp only [nextRef?_eq_some_iff]
  constructor
  · intro writes
    have first := List.mem_cons_self (a := hole) (l := holes)
    refine ⟨text ⟨holes, ending⟩, ⟨?_, writes.opens hole first, writes.closes hole first⟩, rfl,
      fun later inside => writes.opens later (List.mem_cons_of_mem _ inside),
      fun later inside => writes.closes later (List.mem_cons_of_mem _ inside), writes.ends⟩
    rw [← writes.text, text_cons]
  · rintro ⟨after, ⟨rfl, unopened, unclosed⟩, writes⟩
    refine ⟨by rw [text_cons, writes.text], ?_, ?_, writes.ends⟩
    · exact List.forall_mem_cons.2 ⟨unopened, writes.opens⟩
    · exact List.forall_mem_cons.2 ⟨unclosed, writes.closes⟩

theorem exists_writes (template : List Char) : ∃ layout : Layout, layout.Writes template := by
  fun_induction Template.pieces template with
  | case1 cs unwritten => exact ⟨⟨[], cs⟩, writes_nil_iff.2 ⟨unwritten, rfl⟩⟩
  | case2 cs before path after found ih =>
      obtain ⟨⟨holes, ending⟩, writes⟩ := ih
      exact ⟨⟨⟨before, path⟩ :: holes, ending⟩, writes_cons_iff.2 ⟨after, found, writes⟩⟩

theorem Writes.unique (writes : layout.Writes template) (again : other.Writes template) :
    other = layout := by
  obtain ⟨holes, ending⟩ := layout
  obtain ⟨others, otherEnding⟩ := other
  induction holes generalizing others template with
  | nil =>
      obtain ⟨unwritten, rfl⟩ := writes_nil_iff.1 writes
      cases others with
      | nil => rw [(writes_nil_iff.1 again).2]
      | cons hole others =>
          obtain ⟨after, found, -⟩ := writes_cons_iff.1 again
          rw [unwritten] at found
          cases found
  | cons hole holes ih =>
      obtain ⟨after, found, later⟩ := writes_cons_iff.1 writes
      cases others with
      | nil =>
          rw [(writes_nil_iff.1 again).1] at found
          cases found
      | cons another others =>
          obtain ⟨after', found', later'⟩ := writes_cons_iff.1 again
          simp only [found, Option.some.injEq, Prod.mk.injEq] at found'
          obtain ⟨before, path, rfl⟩ := found'
          have same : another = hole := by
            cases hole
            cases another
            simp only [Placeholder.mk.injEq]
            exact ⟨before.symm, path.symm⟩
          cases ih later others later'
          rw [same]

theorem pieces_of_writes (writes : layout.Writes template) :
    Template.pieces template = layout.pieces := by
  obtain ⟨holes, ending⟩ := layout
  induction holes generalizing template with
  | nil =>
      obtain ⟨unwritten, rfl⟩ := writes_nil_iff.1 writes
      rw [Template.pieces]
      split
      · rfl
      · next found => simp [unwritten] at found
  | cons hole holes ih =>
      obtain ⟨after, found, writes⟩ := writes_cons_iff.1 writes
      rw [Template.pieces]
      split
      · next unwritten => simp [unwritten] at found
      · next before path after' found' =>
        rw [found] at found'
        cases found'
        rw [ih writes]
        rfl

end Layout

/-! The placeholders filled in. -/

section

variable {lookup : Variables} {holes : List Placeholder} (ending : List Char)

theorem pieces_cons (hole : Placeholder) (holes : List Placeholder) (ending : List Char) :
    Layout.pieces ⟨hole :: holes, ending⟩ =
      .text hole.before :: .ref hole.name :: Layout.pieces ⟨holes, ending⟩ := rfl

theorem fill_of_found {values : List Value}
    (found : List.Forall₂ (fun hole v => lookup (Placeholder.name hole) = .ok v) holes values) :
    fill lookup (Layout.pieces ⟨holes, ending⟩) =
      .ok (Layout.filled ⟨holes, ending⟩ (values.map Value.inserted)) := by
  induction found with
  | nil => simp [Layout.pieces, Layout.filled, fill, bind, Except.bind]
  | @cons hole v holes values here _ ih =>
      rw [pieces_cons]
      simp only [fill, here, ih, bind, Except.bind, Value.toList_plain]
      simp [Layout.filled]

theorem fill_of_missing {front rest : List Placeholder} {hole : Placeholder} {e : RunError}
    (found : ∀ earlier ∈ front, ∃ v, lookup earlier.name = .ok v)
    (missing : lookup hole.name = .error e) :
    fill lookup (Layout.pieces ⟨front ++ hole :: rest, ending⟩) = .error e := by
  induction front with
  | nil =>
      rw [List.nil_append, pieces_cons]
      simp only [fill, missing, bind, Except.bind]
  | cons earlier front ih =>
      obtain ⟨⟨v, here⟩, later⟩ := List.forall_mem_cons.1 found
      rw [List.cons_append, pieces_cons]
      simp only [fill, here, ih later, bind, Except.bind]

theorem exists_values (found : ∀ hole ∈ holes, ∃ v, lookup hole.name = .ok v) :
    ∃ values, List.Forall₂ (fun hole v => lookup (Placeholder.name hole) = .ok v) holes values := by
  induction holes with
  | nil => exact ⟨[], .nil⟩
  | cons hole holes ih =>
      obtain ⟨⟨v, here⟩, later⟩ := List.forall_mem_cons.1 found
      obtain ⟨values, found⟩ := ih later
      exact ⟨v :: values, .cons here found⟩

theorem found_or_missing (lookup : Variables) (holes : List Placeholder) :
    (∀ hole ∈ holes, ∃ v, lookup hole.name = .ok v) ∨
      ∃ front hole rest e, holes = front ++ hole :: rest ∧
        (∀ earlier ∈ front, ∃ v, lookup earlier.name = .ok v) ∧ lookup hole.name = .error e := by
  induction holes with
  | nil => exact .inl (List.forall_mem_nil _)
  | cons hole holes ih =>
      cases here : lookup hole.name with
      | error e => exact .inr ⟨[], hole, holes, e, rfl, List.forall_mem_nil _, here⟩
      | ok v =>
          rcases ih with found | ⟨front, later, rest, e, rfl, found, missing⟩
          · exact .inl (List.forall_mem_cons.2 ⟨⟨v, here⟩, found⟩)
          · exact .inr ⟨hole :: front, later, rest, e, rfl,
              List.forall_mem_cons.2 ⟨⟨v, here⟩, found⟩, missing⟩

end

theorem interpolate_eq (lookup : Variables) {template : String} {layout : Layout}
    (writes : layout.Writes template.toList) :
    interpolate lookup template = (fill lookup layout.pieces).map .ofList := by
  rw [interpolate, Layout.pieces_of_writes writes]

/-- A template has one layout. Its interpolation succeeds exactly if every placeholder's path, with
the blanks around it taken away, is found; it is then the layout with the texts of the values in
the places of the placeholders, whatever these texts hold, and otherwise the error of the first
placeholder whose path is not found. -/
theorem interpolation_fills_placeholders (lookup : Variables) (template : String) :
    ∃ layout : Layout, layout.Writes template.toList ∧
      (∀ other : Layout, other.Writes template.toList → other = layout) ∧
      ((∃ text, interpolate lookup template = .ok text) ↔
        ∀ hole ∈ layout.holes, ∃ v, lookup hole.name = .ok v) ∧
      (∀ values, List.Forall₂ (fun hole v => lookup hole.name = .ok v) layout.holes values →
        interpolate lookup template = .ok (.ofList (layout.filled (values.map Value.inserted)))) ∧
      ∀ front hole rest e, layout.holes = front ++ hole :: rest →
        (∀ earlier ∈ front, ∃ v, lookup earlier.name = .ok v) → lookup hole.name = .error e →
          interpolate lookup template = .error e := by
  obtain ⟨⟨holes, ending⟩, writes⟩ := Layout.exists_writes template.toList
  have filled := interpolate_eq lookup writes
  refine ⟨⟨holes, ending⟩, writes, fun other again => writes.unique again, ⟨?_, ?_⟩, ?_, ?_⟩
  · rintro ⟨text, succeeds⟩
    rcases found_or_missing lookup holes with found | ⟨front, hole, rest, e, rfl, found, missing⟩
    · exact found
    · rw [filled, fill_of_missing ending found missing] at succeeds
      cases succeeds
  · intro found
    obtain ⟨values, found⟩ := exists_values found
    exact ⟨_, by rw [filled, fill_of_found ending found]; rfl⟩
  · intro values found
    rw [filled, fill_of_found ending found]
    rfl
  · rintro front hole rest e rfl found missing
    rw [filled, fill_of_missing ending found missing]
    rfl

def sampleVariables : Variables := fun path =>
  if path = "x" then .ok (.list ["$\x7by\x7d", "b"])
  else if path = "y" then .ok (.int 7)
  else Variables.none path

/-- What is put in is not looked through again, and of two paths that are not found the first
counts. -/
theorem interpolation_fills_two_placeholders :
    interpolate sampleVariables "<$\x7b x \x7d-$\x7by\x7d$\x7b" = .ok "<$\x7by\x7d,b-7$\x7b" ∧
      interpolate sampleVariables "$\x7bx\x7d$\x7b v\x7d$\x7bw\x7d" =
        .error (.unresolvedVariable "v") := by
  constructor
  · obtain ⟨layout, -, unique, -, filled, -⟩ := interpolation_fills_placeholders sampleVariables
      "<$\x7b x \x7d-$\x7by\x7d$\x7b"
    have written : Layout.Writes ⟨[⟨['<'], [' ', 'x', ' ']⟩, ⟨['-'], ['y']⟩], ['$', '{']⟩
        "<$\x7b x \x7d-$\x7by\x7d$\x7b".toList := by
      refine Layout.writes_cons_iff.2 ⟨['-', '$', '{', 'y', '}', '$', '{'], by decide, ?_⟩
      exact Layout.writes_cons_iff.2 ⟨['$', '{'], by decide,
        Layout.writes_nil_iff.2 ⟨by decide, rfl⟩⟩
    cases unique _ written
    exact filled [.list ["$\x7by\x7d", "b"], .int 7] (.cons (by decide) (.cons (by decide) .nil))
  · obtain ⟨layout, -, unique, -, -, missing⟩ := interpolation_fills_placeholders sampleVariables
      "$\x7bx\x7d$\x7b v\x7d$\x7bw\x7d"
    have written : Layout.Writes ⟨[⟨[], ['x']⟩, ⟨[], [' ', 'v']⟩, ⟨[], ['w']⟩], []⟩
        "$\x7bx\x7d$\x7b v\x7d$\x7bw\x7d".toList := by
      refine Layout.writes_cons_iff.2
        ⟨['$', '{', ' ', 'v', '}', '$', '{', 'w', '}'], by decide, ?_⟩
      refine Layout.writes_cons_iff.2 ⟨['$', '{', 'w', '}'], by decide, ?_⟩
      exact Layout.writes_cons_iff.2 ⟨[], by decide, Layout.writes_nil_iff.2 ⟨by decide, rfl⟩⟩
    cases unique _ written
    refine missing [⟨[], ['x']⟩] ⟨[], [' ', 'v']⟩ [⟨[], ['w']⟩] _ rfl ?_ (by decide)
    exact List.forall_mem_singleton.2 ⟨.list ["$\x7by\x7d", "b"], by decide⟩

end Template

end Archetype
