import Stencil.Proofs.Expr.Completeness
import Stencil.Proofs.Token.Spacing

/-!
# Quotation

Any text can be written as a string literal with either mark: backslashes and the mark get a
backslash before them, and newlines and tabs may be written with a letter (`Encodes`).  The end of
such a literal is found by a scan over its characters, and what it stands for by another walk; both
follow the same escapes (`raw_of_encodes`, `unescape_of_encodes`), so the literal is one token and
stands for the text it was made from (`parse_quoted`).
-/

namespace Stencil.Expr

/-- A character between marks: a backslash stands before backslashes and before the mark. -/
def escaped (mark c : Char) : List Char :=
  if c = '\\' ∨ c = mark then ['\\', c] else [c]

/-- The second text encodes the first one between marks, character by character; newlines and tabs
can be written in two ways. -/
inductive Encodes (mark : Char) : List Char → List Char → Prop where
  | nil : Encodes mark [] []
  | char (c : Char) {cs raw : List Char} (rest : Encodes mark cs raw) :
      Encodes mark (c :: cs) (escaped mark c ++ raw)
  | newline {cs raw : List Char} (rest : Encodes mark cs raw) :
      Encodes mark ('\n' :: cs) ('\\' :: 'n' :: raw)
  | tab {cs raw : List Char} (rest : Encodes mark cs raw) :
      Encodes mark ('\t' :: cs) ('\\' :: 't' :: raw)

variable {mark : Char} {cs raw : List Char}

/-- Every text is encoded by escaping what needs it. -/
lemma encodes_flatMap (mark : Char) (cs : List Char) :
    Encodes mark cs (cs.flatMap (escaped mark)) := by
  induction cs with
  | nil => exact .nil
  | cons c cs ih =>
    rw [List.flatMap_cons]
    exact .char c ih

/-- An encoded text can stand between marks. -/
lemma raw_of_encodes (encodes : Encodes mark cs raw) : Token.Raw mark raw := by
  induction encodes with
  | nil => exact .nil
  | char c _ ih =>
    unfold escaped
    split
    · exact .escape c ih
    · next plain =>
      rw [not_or] at plain
      exact .plain plain.1 plain.2 ih
  | newline _ ih => exact .escape 'n' ih
  | tab _ ih => exact .escape 't' ih

/-- An encoded text stands for the text that it encodes. -/
lemma unescape_of_encodes (notLetter : mark ≠ 'n' ∧ mark ≠ 't') (encodes : Encodes mark cs raw) :
    unescape raw = cs := by
  induction encodes with
  | nil => rfl
  | char c _ ih =>
    unfold escaped
    split
    · next special =>
      have other : c ≠ 'n' ∧ c ≠ 't' := by
        rcases special with rfl | rfl
        · decide
        · exact notLetter
      simp [unescape, other, ih]
    · next plain =>
      rw [not_or] at plain
      simp [unescape, plain.1, ih]
  | newline _ ih => simp [unescape, ih]
  | tab _ ih => simp [unescape, ih]

/-- A string literal alone is the text that it stands for. -/
lemma ofTokens_quoted (mark : Quote) (raw : String) :
    ofTokens [.quoted mark raw] none =
      .ok (.literal (.text (String.ofList (unescape raw.toList)))) := by
  have derives : Derives .disjunction maxNesting [.quoted mark raw]
      (.literal (.text (String.ofList (unescape raw.toList)))) :=
    derives_of_rank_le (by decide) (.quoted mark raw)
  exact ofTokens_eq_ok_of_derives (by simp [maxTokens]) (by simp) derives

/-- Every text has an encoding for either mark, and any of its encodings between two of the marks,
with blanks around them, is one token and spells the text. -/
theorem parse_quoted (s : String) (mark : Quote) :
    Encodes mark.char s.toList (s.toList.flatMap (escaped mark.char)) ∧
      ∀ raw before after, Encodes mark.char s.toList raw → Text.isAllBlank before = true →
        Text.isAllBlank after = true →
        Tokens.ofText (before ++ mark.char :: (raw ++ [mark.char]) ++ after) =
            ⟨[(.quoted mark (String.ofList raw), [])], none⟩ ∧
          parse (String.ofList (before ++ mark.char :: (raw ++ [mark.char]) ++ after)) =
            .ok (.literal (.text s)) := by
  refine ⟨encodes_flatMap _ _, ?_⟩
  intro raw before after encodes blankBefore blankAfter
  have lexical : (Token.quoted mark (String.ofList raw)).Lexical :=
    .quoted mark (raw_of_encodes encodes)
  have tokens := Tokens.ofText_lexeme lexical blankBefore blankAfter
  rw [Token.lexeme, String.toList_ofList] at tokens
  have notLetter : mark.char ≠ 'n' ∧ mark.char ≠ 't' := by cases mark <;> decide
  refine ⟨tokens, ?_⟩
  simp only [parse, String.toList_ofList, tokens, List.map_cons, List.map_nil]
  rw [ofTokens_quoted, String.toList_ofList, unescape_of_encodes notLetter encodes,
    String.ofList_toList]

/-- A text with the mark, a backslash and a newline that is written with a letter. -/
theorem parse_quoted_escapes :
    Encodes '\'' ['\'', '\\', '\n', 'é'] ['\\', '\'', '\\', '\\', '\\', 'n', 'é'] ∧
      parse " '\\'\\\\\\né'\t" = .ok (.literal (.text "'\\\né")) := by
  have encodes : Encodes '\'' ['\'', '\\', '\n', 'é']
      ['\\', '\'', '\\', '\\', '\\', 'n', 'é'] :=
    .char '\'' (.char '\\' (.newline (.char 'é' .nil)))
  refine ⟨encodes, ?_⟩
  exact ((parse_quoted "'\\\né" .single).2 _ [' '] ['\t'] encodes (by decide) (by decide)).2

end Stencil.Expr
