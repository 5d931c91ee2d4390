import Stencil.Proofs.Template.Layout
import Stencil.Proofs.Text.Lines

/-!
# Substitution line by line

Substitution works on each line by itself (`substitute_lines`): the layout of a text that is cut at
a newline is the layouts of its two parts, one after the other (`Layout.ofText_newline`), and
layouts one after the other are filled one after the other (`Layout.fill_append`).  So an opening
delimiter on one line has no part in the next one, and the first line that fails decides.
-/

namespace Stencil

/-- Texts before the first marker add up. -/
lemma Markers.precededBy_append (x y : List Char) (markers : Markers) :
    markers.precededBy (x ++ y) = (markers.precededBy y).precededBy x := by
  obtain ⟨_ | ⟨m, more⟩, rest⟩ := markers <;> simp [precededBy, Marker.precededBy]

namespace Template

namespace Layout

/-- The layout with a text before it. -/
def precededBy (x : List Char) : Layout → Layout
  | .last literal => .last (x ++ literal)
  | .slot literal content more => .slot (x ++ literal) content more

/-- Two layouts one after the other; the literals that meet are one. -/
def append : Layout → Layout → Layout
  | .last literal, other => other.precededBy literal
  | .slot literal content more, other => .slot literal content (more.append other)

/-! ### Filling -/

/-- A text before a layout is before what the layout is filled to. -/
lemma fill_precededBy (x : List Char) (layout : Layout) (scope : Scope) :
    (layout.precededBy x).fill scope = (do return x ++ (← layout.fill scope)) := by
  cases layout with
  | last literal => rfl
  | slot literal content more =>
    simp only [precededBy, fill, bind_assoc, pure_bind, List.append_assoc]

/-- Two layouts are filled one after the other. -/
lemma fill_append (layout other : Layout) (scope : Scope) :
    (layout.append other).fill scope =
      (do return (← layout.fill scope) ++ (← other.fill scope)) := by
  induction layout with
  | last literal => exact fill_precededBy literal other scope
  | slot literal content more ih =>
    simp only [append, fill, ih, bind_assoc, pure_bind, List.append_assoc]

/-! ### Layouts of texts -/

/-- A text before the first marker is before the layout of the markers. -/
lemma ofMarkers_precededBy (x : List Char) (markers : Markers) :
    ofMarkers (markers.precededBy x).rest (markers.precededBy x).list =
      (ofMarkers markers.rest markers.list).precededBy x := by
  obtain ⟨_ | ⟨m, more⟩, rest⟩ := markers <;> rfl

/-- Markers before others have the layouts of both, whatever text comes after each of them. -/
lemma ofMarkers_append (x rest : List Char) (list : List Marker) (markers : Markers) :
    ofMarkers (markers.precededBy rest).rest
        (list.map (Marker.followedBy x) ++ (markers.precededBy rest).list) =
      (ofMarkers rest list).append (ofMarkers markers.rest markers.list) := by
  induction list with
  | nil => exact ofMarkers_precededBy rest markers
  | cons m more ih => exact congrArg (slot m.before m.content) ih

/-- The layout of a text that is cut at a newline. -/
lemma ofText_newline (a b : List Char) :
    ofText (a ++ '\n' :: b) = (ofText a).append ((ofText b).precededBy ['\n']) := by
  unfold ofText
  rw [Markers.ofText_newline, Markers.precededBy_append, ofMarkers_append, ofMarkers_precededBy]

end Layout

/-- A text that is cut at a newline is substituted in its first part and then in its second. -/
lemma substitute_newline (a b : List Char) (scope : Scope) :
    substitute (a ++ '\n' :: b) scope =
      (do return (← substitute a scope) ++ '\n' :: (← substitute b scope)) := by
  simp only [Layout.substitute_eq_fill, Layout.ofText_newline, Layout.fill_append,
    Layout.fill_precededBy, bind_assoc, pure_bind]
  rfl

/-- Substitution works line by line: a text that is cut at a newline fails as its first part does,
or else as its second does, or else gives the results of both with the newline between them.  So the
result of a text is those of its lines, from the first to the last. -/
theorem substitute_lines (scope : Scope) :
    (∀ a b, substitute (a ++ '\n' :: b) scope =
      (do
        let x ← substitute a scope
        let y ← substitute b scope
        return x ++ '\n' :: y)) ∧
    ∀ src, substitute src scope =
      (do
        let results ← (Text.splitOn '\n' src).mapM fun line => substitute line scope
        return ['\n'].intercalate results) := by
  refine ⟨fun a b => substitute_newline a b scope, fun src => ?_⟩
  induction src using Text.splitOn_induction '\n' with
  | last a oneLine =>
    rw [Text.splitOn_of_notMem oneLine]
    simp
  | cut a b oneLine ih =>
    rw [substitute_newline, ih, Text.splitOn_append, Text.splitOn_of_notMem oneLine]
    obtain ⟨first, others, cut⟩ := List.exists_cons_of_ne_nil (Text.splitOn_ne_nil '\n' b)
    simp only [cut, List.singleton_append, List.mapM_cons, bind_assoc, pure_bind,
      List.intercalate_cons_cons, List.append_assoc]

end Template

end Stencil
