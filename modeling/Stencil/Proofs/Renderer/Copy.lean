import Stencil.Proofs.Files.Replace
import Stencil.Proofs.Text.LineEndings
import Stencil.Renderer

/-!
# Copying is atomic

Rendering one file into another either fails and leaves the whole tree as it was, or changes one
entry: the one that the destination names, which is then a file with the rendered text and the
permission bits of the source (`copy_atomic`).  A copy succeeds exactly when the source is a text
that renders and the destination can be replaced.
-/

namespace Stencil.Renderer

variable {names : Namespace} {t : FileTree} {source dest out : String} {loc : Location}
  {mode : Mode}

/-- The path leads to a text file with these permission bits, and the text renders to `out`. -/
def Renders (names : Namespace) (t : FileTree) (source out : String) (mode : Mode) : Prop :=
  ∃ origin text, t.lookUp true source = .ok (origin, .file (.text text) mode) ∧
    fill names (String.ofList (Text.unixLines text.toList)) = .ok out

/-- A file is rendered when its path leads to a text that renders. -/
lemma fillFile_eq_ok_iff :
    fillFile names t source = .ok out ↔ ∃ mode, Renders names t source out mode := by
  unfold fillFile FileTree.readText
  constructor
  · intro h
    cases found : t.lookUp true source with
    | error e =>
      rw [found] at h
      cases h
    | ok place =>
      obtain ⟨origin, entry⟩ := place
      rw [found] at h
      cases entry with
      | directory => cases h
      | link target => cases h
      | file content mode =>
        cases content with
        | text text => exact ⟨mode, origin, text, found, h⟩
        | binary bytes => cases h
  · rintro ⟨mode, origin, text, found, filled⟩
    rw [found]
    exact filled

/-- The permission bits of a file that renders. -/
lemma modeOf_of_renders (h : Renders names t source out mode) : t.modeOf source = .ok mode := by
  obtain ⟨origin, text, found, -⟩ := h
  unfold FileTree.modeOf
  rw [found]
  rfl

/-- Nothing is copied when the source does not render. -/
lemma runOn_copyFilled_of_error {e : Failure} (h : fillFile names t source = .error e) :
    (copyFilled names source dest).runOn t = (.error e, t) := by
  unfold copyFilled
  rw [Files.runOn_bind, Files.runOn_read, h]

/-- What a source renders to is put where the destination leads. -/
lemma runOn_copyFilled_of_renders (h : Renders names t source out mode) :
    (copyFilled names source dest).runOn t =
      (((Files.replaceFile dest out mode).runOn t).1.mapError .file,
        ((Files.replaceFile dest out mode).runOn t).2) := by
  unfold copyFilled
  rw [Files.runOn_bind, Files.runOn_read, fillFile_eq_ok_iff.mpr ⟨mode, h⟩]
  simp only [Files.runOn_bind, Files.runOn_adapt, Files.runOn_read, modeOf_of_renders h]
  rfl

/-- A copy whose source renders and whose destination can be replaced changes that entry. -/
lemma runOn_copyFilled_of_replaceable {dir : Location} (renders : Renders names t source out mode)
    (staging : Files.stagingDirectory t dest = .ok dir) (replaceable : t.Replaceable dest loc) :
    (copyFilled names source dest).runOn t =
      (.ok (), t.insert loc (.file (.text out) mode)) := by
  rw [runOn_copyFilled_of_renders renders,
    Files.runOn_replaceFile_of_replaceable staging replaceable]
  rfl

/-- A copy fails and leaves the tree as it was, or its source renders and its destination can be
replaced. -/
lemma runOn_copyFilled_cases (names : Namespace) (source dest : String) (t : FileTree) :
    (∃ e, (copyFilled names source dest).runOn t = (.error e, t)) ∨
      ∃ loc out mode dir, Renders names t source out mode ∧
        Files.stagingDirectory t dest = .ok dir ∧ t.Replaceable dest loc := by
  cases filled : fillFile names t source with
  | error e => exact .inl ⟨e, runOn_copyFilled_of_error filled⟩
  | ok out =>
    obtain ⟨mode, renders⟩ := fillFile_eq_ok_iff.mp filled
    rcases Files.runOn_replaceFile_cases dest out mode t with
      ⟨e, failed⟩ | ⟨dir, loc, staging, replaceable⟩
    · refine .inl ⟨.file e, ?_⟩
      rw [runOn_copyFilled_of_renders renders, failed]
      rfl
    · exact .inr ⟨loc, out, mode, dir, renders, staging, replaceable⟩

/-- A copy that fails leaves the tree as it was. -/
lemma eq_of_runOn_copyFilled_eq_error {e : Failure} {left : FileTree}
    (h : (copyFilled names source dest).runOn t = (.error e, left)) : left = t := by
  rcases runOn_copyFilled_cases names source dest t with
    ⟨e', failed⟩ | ⟨loc, out, mode, dir, renders, staging, replaceable⟩
  · rw [failed] at h
    cases h
    rfl
  · rw [runOn_copyFilled_of_replaceable renders staging replaceable] at h
    cases h

/-- A copy that succeeds changes the entry that the destination names. -/
lemma runOn_copyFilled_eq_ok_iff {left : FileTree} :
    (copyFilled names source dest).runOn t = (.ok (), left) ↔
      ∃ loc out mode dir, Renders names t source out mode ∧
        Files.stagingDirectory t dest = .ok dir ∧ t.Replaceable dest loc ∧
          left = t.insert loc (.file (.text out) mode) := by
  constructor
  · intro h
    rcases runOn_copyFilled_cases names source dest t with
      ⟨e', failed⟩ | ⟨loc, out, mode, dir, renders, staging, replaceable⟩
    · rw [failed] at h
      cases h
    · rw [runOn_copyFilled_of_replaceable renders staging replaceable] at h
      cases h
      exact ⟨loc, out, mode, dir, renders, staging, replaceable, rfl⟩
  · rintro ⟨loc, out, mode, dir, renders, staging, replaceable, rfl⟩
    exact runOn_copyFilled_of_replaceable renders staging replaceable

/-- A copy that fails leaves the whole tree as it was.  A copy succeeds exactly when its source is a
text that renders, each pair of a carriage return and a newline read as a newline, and its
destination leads, in a directory that can hold one more file, to a free name or to anything but a
directory; then that one entry is a file with what the source renders to and the permission bits of
the source, and every other entry is as before. -/
theorem copy_atomic (r : Renderer) (caller : Namespace) (source dest : String) (t : FileTree) :
    (∀ e left, (r.copy caller source dest).runOn t = (.error e, left) → left = t) ∧
    ∀ left, (r.copy caller source dest).runOn t = (.ok (), left) ↔
      ∃ loc origin text read mode out dir,
        t.lookUp true source = .ok (origin, .file (.text text) mode) ∧
        Text.ReadsLines text.toList read ∧ r.render caller (String.ofList read) = .ok out ∧
        Files.stagingDirectory t dest = .ok dir ∧ t.Replaceable dest loc ∧
        left = t.insert loc (.file (.text out) mode) := by
  refine ⟨fun e left h => eq_of_runOn_copyFilled_eq_error h, fun left => ?_⟩
  rw [copy, runOn_copyFilled_eq_ok_iff]
  constructor
  · rintro ⟨loc, out, mode, dir, ⟨origin, text, found, filled⟩, staging, replaceable, rfl⟩
    exact ⟨loc, origin, text, _, mode, out, dir, found, Text.readsLines_iff.mpr rfl, filled,
      staging, replaceable, rfl⟩
  · rintro ⟨loc, origin, text, read, mode, out, dir, found, reads, filled, staging, replaceable,
      rfl⟩
    rw [Text.readsLines_iff.mp reads] at filled
    exact ⟨loc, out, mode, dir, ⟨origin, text, found, filled⟩, staging, replaceable, rfl⟩

end Stencil.Renderer
