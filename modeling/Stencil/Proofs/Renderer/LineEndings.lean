import Stencil.Proofs.Files.Contents
import Stencil.Proofs.Renderer.Copy
import Stencil.Proofs.Text.LineEndings

/-!
# Line endings of template files

How the lines of a template file end does not matter.  A file whose newlines are written with a
carriage return, all of them or some, renders as the plain text does, and rendering it into another
file writes the same text to the same place, or fails for the same reason
(`renderFile_of_endsLines`).
-/

namespace Stencil.Renderer

open FileTree

variable {t u : FileTree} {names : Namespace} {source dest plain written out : String}
  {origin loc : Location} {mode : Mode}

/-- A template file renders as its text does with newlines for line endings. -/
lemma fillFile_of_lookUp (found : t.lookUp true source = .ok (origin, .file (.text written) mode)) :
    fillFile names t source = fill names (String.ofList (Text.unixLines written.toList)) := by
  unfold fillFile readText
  rw [found]
  rfl

/-- A template file renders as the plain text that is written in it. -/
lemma fillFile_of_endsLines (ends : Text.EndsLines plain.toList written.toList)
    (noPair : ¬ ['\r', '\n'] <:+: plain.toList)
    (found : t.lookUp true source = .ok (origin, .file (.text written) mode)) :
    fillFile names t source = fill names plain := by
  rw [fillFile_of_lookUp found, Text.unixLines_of_endsLines ends noPair, String.ofList_toList]

/-- The path of a file leads to the same file when the file holds something else. -/
lemma lookUp_insert_content {content : Content}
    (found : t.lookUp true source = .ok (origin, .file content mode)) (content' : Content) :
    FileTree.lookUp (t.insert origin (.file content' mode)) true source =
      .ok (origin, .file content' mode) := by
  have entry := get?_of_lookUp (by simp) found
  have places := (alike_insert entry content').lookUp_eq true source
  rw [found] at places
  cases found' : FileTree.lookUp (t.insert origin (.file content' mode)) true source with
  | error e =>
    rw [found'] at places
    cases places
  | ok place =>
    obtain ⟨origin', e⟩ := place
    rw [found'] at places
    obtain ⟨rfl, emptied⟩ := Prod.mk.inj (Except.ok.inj places)
    have notDirectory : e ≠ .directory := by
      rintro rfl
      cases emptied
    have entry' := get?_of_lookUp notDirectory found'
    rw [id, Table.get?_insert, if_pos rfl] at entry'
    cases entry'
    rfl

/-- Two files that render alike are copied alike: nothing changes in either tree, for the same
reason, or the same file is put at the same place of both. -/
lemma runOn_copyFilled_alike (same : t.Alike u) (first : Renders names t source out mode)
    (second : Renders names u source out mode) (dest : String) :
    (∃ e, (copyFilled names source dest).runOn t = (.error (.file e), t) ∧
      (copyFilled names source dest).runOn u = (.error (.file e), u)) ∨
    ∃ loc, (copyFilled names source dest).runOn t =
        (.ok (), t.insert loc (.file (.text out) mode)) ∧
      (copyFilled names source dest).runOn u =
        (.ok (), u.insert loc (.file (.text out) mode)) := by
  rw [runOn_copyFilled_of_renders first, runOn_copyFilled_of_renders second]
  rcases Files.runOn_replaceFile_alike same dest out mode with
    ⟨e, failed, failed'⟩ | ⟨loc, replaced, replaced'⟩
  · rw [failed, failed']
    exact .inl ⟨e, rfl, rfl⟩
  · rw [replaced, replaced']
    exact .inr ⟨loc, rfl, rfl⟩

/-- A template file renders as the plain text that is written in it, whichever newlines have a
carriage return before them in the file, and so does a file that holds the plain text itself.
Rendering either of them into another file fails when the plain text does not render, and changes
nothing then.  Otherwise it fails for both for the same reason, and changes nothing, or it puts what
the plain text renders to at the same place for both. -/
theorem renderFile_of_endsLines (r : Renderer) (caller : Namespace) (dest : String)
    (ends : Text.EndsLines plain.toList written.toList)
    (noPair : ¬ ['\r', '\n'] <:+: plain.toList)
    (found : t.lookUp true source = .ok (origin, .file (.text written) mode))
    (unix : u = t.insert origin (.file (.text plain) mode)) :
    r.renderFile caller t source = r.render caller plain ∧
    r.renderFile caller u source = r.render caller plain ∧
    (∀ e, r.render caller plain = .error e →
      (r.copy caller source dest).runOn t = (.error e, t) ∧
      (r.copy caller source dest).runOn u = (.error e, u)) ∧
    ∀ out, r.render caller plain = .ok out →
      (∃ e, (r.copy caller source dest).runOn t = (.error (.file e), t) ∧
        (r.copy caller source dest).runOn u = (.error (.file e), u)) ∨
      ∃ loc, (r.copy caller source dest).runOn t =
          (.ok (), t.insert loc (.file (.text out) mode)) ∧
        (r.copy caller source dest).runOn u =
          (.ok (), u.insert loc (.file (.text out) mode)) := by
  subst unix
  have entry := get?_of_lookUp (by simp) found
  have found' := lookUp_insert_content found (.text plain)
  have filled : fillFile (r.names caller) t source = r.render caller plain :=
    fillFile_of_endsLines ends noPair found
  have filled' : fillFile (r.names caller) (t.insert origin (.file (.text plain) mode)) source =
      r.render caller plain :=
    fillFile_of_endsLines (.refl plain.toList) noPair found'
  refine ⟨filled, filled', fun e failed => ?_, fun out rendered => ?_⟩
  · rw [failed] at filled filled'
    exact ⟨runOn_copyFilled_of_error filled, runOn_copyFilled_of_error filled'⟩
  · have plainText := Text.unixLines_of_endsLines (.refl plain.toList) noPair
    have unixText := Text.unixLines_of_endsLines ends noPair
    refine runOn_copyFilled_alike (alike_insert entry _) ⟨origin, written, found, ?_⟩
      ⟨origin, plain, found', ?_⟩ dest
    · rw [unixText, String.ofList_toList]
      exact rendered
    · rw [plainText, String.ofList_toList]
      exact rendered

/-- A template with both line endings and with a carriage return inside a line. -/
def mixedLines : FileTree :=
  Table.insert start ["home", "templates", "a"]
    (.file (.text "{{ 1 }}\r\nb\rc\nd\r\n") (.ofNat 0o640))

/-- The template with plain newlines. -/
def plainLines : FileTree :=
  Table.insert mixedLines ["home", "templates", "a"]
    (.file (.text "{{ 1 }}\nb\rc\nd\n") (.ofNat 0o640))

/-- The carriage return inside a line stays. -/
theorem renderFile_of_endsLines_mixed :
    mixedLines.lookUp true "a" = .ok (["home", "templates", "a"],
      .file (.text "{{ 1 }}\r\nb\rc\nd\r\n") (.ofNat 0o640)) ∧
    renderFile ⟨.empty, ""⟩ .empty mixedLines "a" = .ok "1\nb\rc\nd\n" ∧
    renderFile ⟨.empty, ""⟩ .empty plainLines "a" = .ok "1\nb\rc\nd\n" ∧
    ∃ loc, (copy ⟨.empty, ""⟩ .empty "a" "b").runOn mixedLines =
        (.ok (), Table.insert mixedLines loc (.file (.text "1\nb\rc\nd\n") (.ofNat 0o640))) ∧
      (copy ⟨.empty, ""⟩ .empty "a" "b").runOn plainLines =
        (.ok (), Table.insert plainLines loc (.file (.text "1\nb\rc\nd\n") (.ofNat 0o640))) := by
  have found : mixedLines.lookUp true "a" = .ok (["home", "templates", "a"],
      .file (.text "{{ 1 }}\r\nb\rc\nd\r\n") (.ofNat 0o640)) := by decide +kernel
  have ends : Text.EndsLines "{{ 1 }}\nb\rc\nd\n".toList "{{ 1 }}\r\nb\rc\nd\r\n".toList := by
    repeat constructor
  have rendered : render ⟨.empty, ""⟩ .empty "{{ 1 }}\nb\rc\nd\n" = .ok "1\nb\rc\nd\n" := by
    decide +kernel
  have succeeds : ((copy ⟨.empty, ""⟩ .empty "a" "b").runOn mixedLines).1 = .ok () := by
    decide +kernel
  obtain ⟨first, second, -, copied⟩ :=
    renderFile_of_endsLines ⟨.empty, ""⟩ .empty "b" ends (by decide) found
      (show plainLines = _ from rfl)
  rw [rendered] at first second
  refine ⟨found, first, second, ?_⟩
  rcases copied _ rendered with ⟨e, failed, -⟩ | copied
  · rw [failed] at succeeds
    cases succeeds
  · exact copied

end Stencil.Renderer
