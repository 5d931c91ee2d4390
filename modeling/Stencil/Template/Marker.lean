import Stencil.Text.Blank
import Stencil.Text.Line

/-!
# Markers

A marker is an opening delimiter, at least one character other than a newline, and a closing
delimiter.  `Marker.first?` finds the leftmost marker of a form, and of those that start there the
shortest.  `Markers.ofText` goes on after each marker, so that the markers and the texts between
them make up the whole text (`Markers.flatten_ofText`).
-/

namespace Stencil

/-- The forms of markers: one is replaced by a value, the other bounds conditional blocks. -/
inductive Form where
  | substitution
  | condition
  deriving DecidableEq, Repr

namespace Form

/-- The opening delimiter. -/
def opening : Form → List Char
  | .substitution => ['{', '{']
  | .condition => ['{', '?']

/-- The closing delimiter. -/
def closing : Form → List Char
  | .substitution => ['}', '}']
  | .condition => ['?', '}']

end Form

/-- A marker with the text around it. -/
structure Marker where
  form : Form
  before : List Char
  content : List Char
  after : List Char
  deriving DecidableEq

namespace Marker

/-- What follows the list `xs` at the start of a text. -/
def after? (xs cs : List Char) : Option (List Char) :=
  if xs.isPrefixOf cs then some (cs.drop xs.length) else none

/-- Splits the text after an opening delimiter into the content of the marker and what follows its
closing delimiter. -/
def content? (form : Form) : List Char → Option (List Char × List Char)
  | [] => none
  | c :: rest =>
    if c = '\n' then none
    else
      match after? form.closing rest with
      | some after => some ([c], after)
      | none => (content? form rest).map fun p => (c :: p.1, p.2)

/-- The content of the marker at the start of a text and what follows the marker. -/
def start? (form : Form) (cs : List Char) : Option (List Char × List Char) :=
  (after? form.opening cs).bind (content? form)

/-- The first marker of a text. -/
def first? (form : Form) : List Char → Option Marker
  | [] => none
  | c :: rest =>
    match start? form (c :: rest) with
    | some (content, after) => some ⟨form, [], content, after⟩
    | none => (first? form rest).map fun m => { m with before := c :: m.before }

/-- The marker as it stands in the text. -/
def raw (m : Marker) : List Char :=
  m.form.opening ++ m.content ++ m.form.closing

/-- The expression in a marker. -/
def expression (m : Marker) : String :=
  String.ofList (Text.trim m.content)

/-- Whether the marker ends a conditional block. -/
def isEnd (m : Marker) : Bool :=
  m.form == .condition && m.expression == "end"

/-- The marker after a little of the text before it, for error messages. -/
def around (m : Marker) : String :=
  String.ofList (Text.excerpt m.before ++ m.raw)

/-! ### Nothing is lost -/

theorem append_of_after? {xs cs rest : List Char} (h : after? xs cs = some rest) :
    xs ++ rest = cs := by
  unfold after? at h
  split at h
  · next isPrefix =>
    obtain ⟨tail, rfl⟩ := List.isPrefixOf_iff_prefix.1 isPrefix
    simp_all
  · simp at h

theorem append_of_content? {form : Form} {cs content after : List Char}
    (h : content? form cs = some (content, after)) : content ++ form.closing ++ after = cs := by
  induction cs generalizing content with
  | nil => simp [content?] at h
  | cons c rest ih =>
    rw [content?] at h
    split at h
    · simp at h
    · split at h
      · next closed =>
        simp only [Option.some.injEq, Prod.mk.injEq] at h
        obtain ⟨rfl, rfl⟩ := h
        simp [append_of_after? closed]
      · obtain ⟨⟨inner, left⟩, found, same⟩ := Option.map_eq_some_iff.1 h
        obtain ⟨rfl, rfl⟩ := Prod.mk.inj same
        rw [List.cons_append, List.cons_append, ih found]

theorem append_of_start? {form : Form} {cs content after : List Char}
    (h : start? form cs = some (content, after)) :
    form.opening ++ content ++ form.closing ++ after = cs := by
  obtain ⟨rest, opened, found⟩ := Option.bind_eq_some_iff.1 h
  rw [← append_of_after? opened, ← append_of_content? found]
  simp

theorem form_of_first? {form : Form} {cs : List Char} {m : Marker} (h : first? form cs = some m) :
    m.form = form := by
  induction cs generalizing m with
  | nil => simp [first?] at h
  | cons c rest ih =>
    rw [first?] at h
    split at h
    · rw [← Option.some.inj h]
    · obtain ⟨inner, found, rfl⟩ := Option.map_eq_some_iff.1 h
      exact (ih found : inner.form = form)

/-- The text before the first marker, the marker and the text after it make up the text. -/
theorem append_of_first? {form : Form} {cs : List Char} {m : Marker}
    (h : first? form cs = some m) : m.before ++ m.raw ++ m.after = cs := by
  induction cs generalizing m with
  | nil => simp [first?] at h
  | cons c rest ih =>
    rw [first?] at h
    split at h
    · next content after found =>
      rw [← Option.some.inj h, ← append_of_start? found]
      simp [raw]
    · obtain ⟨inner, found, rfl⟩ := Option.map_eq_some_iff.1 h
      have := ih found
      simp only [raw, List.cons_append] at this ⊢
      rw [this]

theorem length_after_lt {form : Form} {cs : List Char} {m : Marker}
    (h : first? form cs = some m) : m.after.length < cs.length := by
  have opened : 0 < m.form.opening.length := by cases m.form <;> decide
  rw [← append_of_first? h]
  simp only [raw, List.length_append]
  omega

end Marker

/-- The markers of a text in order, each with the text between it and the one before, and the text
after the last one. -/
structure Markers where
  list : List Marker
  rest : List Char

namespace Markers

/-- The markers of a text. -/
def ofText (form : Form) (cs : List Char) : Markers :=
  match _ : Marker.first? form cs with
  | none => ⟨[], cs⟩
  | some m =>
    let more := ofText form m.after
    ⟨m :: more.list, more.rest⟩
termination_by cs.length
decreasing_by exact Marker.length_after_lt ‹_›

/-- The texts before the markers, the markers and the last text make up the text. -/
theorem flatten_ofText (form : Form) (cs : List Char) :
    ((ofText form cs).list.flatMap fun m => m.before ++ m.raw) ++ (ofText form cs).rest = cs := by
  fun_induction ofText form cs with
  | case1 => simp
  | case2 cs m found more ih =>
    rw [List.flatMap_cons, List.append_assoc, ih, Marker.append_of_first? found]

end Markers

end Stencil
