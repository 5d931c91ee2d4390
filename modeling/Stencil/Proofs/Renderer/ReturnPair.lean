import Stencil.Proofs.Template.ReturnPair
import Stencil.Renderer

/-!
# Carriage returns in rendered files

A template file whose carriage returns all end lines renders to a text without any, as long as the
values have none.  Other carriage returns stay, and may come to stand before a newline: when two of
them stood there, and when a block or a value between the two leaves nothing behind.
`renderFile_holdsPair_iff` says that these are the only ways.
-/

namespace Stencil.Renderer

open Text Template

variable {t : FileTree} {names : Namespace} {path text out : String}

/-- A file that renders is resolved and its markers are replaced. -/
lemma exists_resolved_of_fillFile (found : t.readText path = .ok text)
    (filled : fillFile names t path = .ok out) :
    ∃ pieces texts chars, segments (unixLines text.toList) = .ok pieces ∧
      kept names.scope pieces = .ok texts ∧
      resolve (unixLines text.toList) names.scope = .ok (collapse texts) ∧
      substitute (collapse texts) names.scope = .ok chars ∧ out = String.ofList chars := by
  have rendered :
      Template.render (String.ofList (unixLines text.toList)) names.scope = .ok out := by
    rw [fillFile, found] at filled
    dsimp only [fill] at filled
    split at filled
    · next same => rw [same, Except.ok.inj filled]
    · cases filled
  obtain ⟨chars, rendered, same⟩ := bind_eq_ok_iff.mp rendered
  rw [String.toList_ofList] at rendered
  obtain ⟨resolved, resolves, substituted⟩ := bind_eq_ok_iff.mp rendered
  obtain ⟨pieces, split, resolves'⟩ := bind_eq_ok_iff.mp resolves
  obtain ⟨texts, left, same'⟩ := bind_eq_ok_iff.mp resolves'
  cases same'
  exact ⟨pieces, texts, chars, split, left, resolves, substituted, (Except.ok.inj same).symm⟩

/-- When a template file renders and no inserted text has a carriage return, the rendered text has a
carriage return before a newline exactly when a text that is left has one, which takes two carriage
returns before a newline in the file, or when the two meet at a block or at a value.  There is none
when all carriage returns in the file stand before newlines. -/
theorem renderFile_holdsPair_iff (r : Renderer) (caller : Namespace)
    (found : t.readText path = .ok text) (rendered : r.renderFile caller t path = .ok out)
    (noReturn : ∀ resolved,
      resolve (unixLines text.toList) (r.names caller).scope = .ok resolved →
        ∀ v, Inserts resolved (r.names caller).scope v → '\r' ∉ v.toText.toList) :
    ∃ pieces texts, segments (unixLines text.toList) = .ok pieces ∧
      kept (r.names caller).scope pieces = .ok texts ∧
      (HoldsPair out.toList ↔ (∃ p ∈ texts, HoldsPair p) ∨ MeetsAtBlock texts ∨
        (Layout.ofText (collapse texts)).MeetsAtValue (r.names caller).scope) ∧
      ((∃ p ∈ texts, HoldsPair p) → ['\r', '\r', '\n'] <:+: text.toList) ∧
      ((∀ before after, text.toList = before ++ '\r' :: after → after.head? = some '\n') →
        ¬ HoldsPair out.toList) := by
  obtain ⟨pieces, texts, chars, split, left, resolves, substituted, rfl⟩ :=
    exists_resolved_of_fillFile found rendered
  have parts := infix_of_kept split left
  have pair := holdsPair_substitute_iff substituted (noReturn _ resolves)
  rw [holdsPair_collapse_iff, or_assoc] at pair
  rw [String.toList_ofList]
  refine ⟨pieces, texts, split, left, pair, ?_, fun ending => ?_⟩
  · rintro ⟨p, among, inside⟩
    exact holdsPair_unixLines_iff.mp (inside.trans (parts p among))
  · have none : '\r' ∉ unixLines text.toList := by
      intro inside
      obtain ⟨before, after, cut, apart⟩ := exists_of_mem_unixLines inside
      exact apart (ending before after cut)
    have noReturn' : ∀ p ∈ texts, '\r' ∉ p := fun p among inside =>
      none ((parts p among).subset inside)
    have clean := return_notMem_collapse noReturn'
    have literals : ∀ l ∈ (Layout.ofText (collapse texts)).literals, '\r' ∉ l := by
      intro l among inside
      have part := Layout.literal_infix_source among
      rw [Layout.source_ofText] at part
      exact clean (part.subset inside)
    rw [holdsPair_substitute_iff substituted (noReturn _ resolves)]
    exact not_or.mpr ⟨fun inside => clean inside.mem, not_meetsAtValue literals⟩

/-- Three templates with a carriage return apart from a newline: with another one between them, with
a block that is dropped, and with an empty value. -/
def loneReturns : FileTree :=
  .ofList [
    (["home"], .directory),
    (["home", "templates"], .directory),
    (["home", "templates", "block"],
      .file (.text "a\r\x7b? 0 ?\x7db\x7b? end ?\x7d\nc\r\n") (.ofNat 0o644)),
    (["home", "templates", "double"], .file (.text "a\r\r\nb") (.ofNat 0o644)),
    (["home", "templates", "value"],
      .file (.text "a\r\x7b\x7b '' \x7d\x7d\nb") (.ofNat 0o644))]

/-- A carriage return before a dropped block meets the newline after it. -/
theorem renderFile_holdsPair_block :
    loneReturns.readText "block" = .ok "a\r\x7b? 0 ?\x7db\x7b? end ?\x7d\nc\r\n" ∧
    renderFile ⟨.empty, ""⟩ .empty loneReturns "block" = .ok "a\r\nc\n" ∧
    ∃ pieces texts,
      segments (unixLines "a\r\x7b? 0 ?\x7db\x7b? end ?\x7d\nc\r\n".toList) = .ok pieces ∧
      kept (Renderer.names ⟨.empty, ""⟩ .empty).scope pieces = .ok texts ∧
      ((∃ p ∈ texts, HoldsPair p) ∨ MeetsAtBlock texts ∨
        (Layout.ofText (collapse texts)).MeetsAtValue
          (Renderer.names ⟨.empty, ""⟩ .empty).scope) := by
  have found : loneReturns.readText "block" =
      .ok "a\r\x7b? 0 ?\x7db\x7b? end ?\x7d\nc\r\n" := by decide +kernel
  have rendered : renderFile ⟨.empty, ""⟩ .empty loneReturns "block" = .ok "a\r\nc\n" := by
    decide +kernel
  have resolves : resolve (unixLines "a\r\x7b? 0 ?\x7db\x7b? end ?\x7d\nc\r\n".toList)
      (Renderer.names ⟨.empty, ""⟩ .empty).scope = .ok "a\r\nc\n".toList := by decide +kernel
  have noMarker : (Markers.ofText .substitution "a\r\nc\n".toList).list = [] := by decide +kernel
  have pair : HoldsPair "a\r\nc\n".toList := ⟨['a'], ['c', '\n'], by decide⟩
  obtain ⟨pieces, texts, split, left, holds, -⟩ :=
    renderFile_holdsPair_iff ⟨.empty, ""⟩ .empty found rendered fun resolved same v inserts => by
      rw [resolves] at same
      cases same
      obtain ⟨m, among, -⟩ := inserts
      rw [noMarker] at among
      cases among
  exact ⟨found, rendered, pieces, texts, split, left, holds.mp pair⟩

/-- A rendered file can have carriage returns before newlines though no value has any. -/
theorem renderFile_leaves_pair :
    renderFile ⟨.empty, ""⟩ .empty loneReturns "double" = .ok "a\r\nb" ∧
      renderFile ⟨.empty, ""⟩ .empty loneReturns "block" = .ok "a\r\nc\n" ∧
      renderFile ⟨.empty, ""⟩ .empty loneReturns "value" = .ok "a\r\nb" := by
  refine ⟨?_, ?_, ?_⟩ <;> decide +kernel

end Stencil.Renderer
