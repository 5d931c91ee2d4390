import Stencil.Expr.Parser
import Stencil.Proofs.Text.Trim
import Stencil.Proofs.Token.Lexeme

/-!
# Tokens and the blanks between them

Cutting a text into tokens loses nothing but the blanks around them: what is left after a token is a
shorter end of the text before it (`chain_tails`), and the text is its lexemes with blanks between
them (`exists_written`).  How many blanks there are, and which, makes no difference: any text that
has the same lexemes, with at least one blank between any two, has the same tokens
(`ofText_written`) and so spells the same expression.  `ofText_respaced` puts these together.

The induction is always on the tokens, and what carries it over a token is that the reader finds the
end of a lexeme at the same place when a blank follows (`Token.read_lexeme_append`).
-/

namespace Stencil

namespace Text

/-- A text that ends in something without blanks has no trailing blanks. -/
lemma trimEnd_append_of_solid {xs : List Char} (nonempty : xs ≠ [])
    (solid : ∀ c ∈ xs, isBlank c = false) (cs : List Char) : trimEnd (cs ++ xs) = cs ++ xs := by
  obtain ⟨start, c, rfl⟩ := (List.eq_nil_or_concat xs).resolve_left nonempty
  have notBlank := solid c (by simp)
  simp [trimEnd, notBlank]

end Text

namespace Token

variable {t : Token}

/-! ### The ends of lexemes -/

/-- A token is read back from its lexeme. -/
lemma Lexical.read_lexeme (lexical : Lexical t) : read t.lexeme = .ok (some (t, [])) := by
  have breaks : Text.Breaks [] := by simp [Text.Breaks]
  simpa using read_lexeme_append lexical breaks

lemma Lexical.lexeme_ne_nil (lexical : Lexical t) : t.lexeme ≠ [] :=
  lexeme_ne_nil_of_read lexical.read_lexeme

/-- A lexeme starts with no blank. -/
lemma Lexical.trimStart_append (lexical : Lexical t) (cs : List Char) :
    Text.trimStart (t.lexeme ++ cs) = t.lexeme ++ cs := by
  have reads := lexical.read_lexeme
  obtain ⟨c, more, spelled⟩ := List.exists_cons_of_ne_nil lexical.lexeme_ne_nil
  rw [spelled] at reads ⊢
  refine List.dropWhile_cons_of_neg fun blank => ?_
  rw [read_of_isBlank blank] at reads
  cases reads

/-- A lexeme ends in no blank. -/
lemma Lexical.trimEnd_append (lexical : Lexical t) (cs : List Char) :
    Text.trimEnd (cs ++ t.lexeme) = cs ++ t.lexeme := by
  have digit {ds : List Char} (digits : Digits ds) (d : Char) (member : d ∈ ds) :
      Text.isBlank d = false := by
    rw [← Bool.not_eq_true]
    intro blank
    have := digits.2 d member
    rw [Text.isDigit_of_isBlank blank] at this
    cases this
  cases lexical with
  | whole digits =>
    rw [lexeme, String.toList_ofList]
    exact Text.trimEnd_append_of_solid digits.1 (digit digits) cs
  | @decimal ds es _ places =>
    have last := Text.trimEnd_append_of_solid places.1 (digit places) (cs ++ ds ++ ['.'])
    simpa [lexeme] using last
  | @quoted mark raw _ =>
    have notBlank : Text.isBlank mark.char = false := by cases mark <;> decide
    have solid : ∀ c ∈ [mark.char], Text.isBlank c = false := by simpa using notBlank
    have last := Text.trimEnd_append_of_solid (by simp) solid (cs ++ mark.char :: raw)
    simpa [lexeme] using last
  | @word c more start inside =>
    have word := Text.isWordChar_of_startsWord start
    have all : ∀ d ∈ c :: more, Text.isWordChar d = true := List.forall_mem_cons.mpr ⟨word, inside⟩
    have solid : ∀ d ∈ c :: more, Text.isBlank d = false := fun d member => by
      rw [← Bool.not_eq_true]
      intro blank
      have := all d member
      rw [Text.isWordChar_of_isBlank blank] at this
      cases this
    rw [lexeme, String.toList_ofList]
    exact Text.trimEnd_append_of_solid (List.cons_ne_nil c more) solid cs
  | symbol s => exact Text.trimEnd_append_of_solid s.spelling_ne_nil s.isBlank_of_mem_spelling cs

end Token

namespace Tokens

/-! ### Written tokens -/

/-- The text of tokens, each with the text that follows it. -/
def written (ps : List (Token × List Char)) : List Char :=
  ps.flatMap fun p => p.1.lexeme ++ p.2

/-- The pairs are the tokens in their order, each with the blanks that follow it. -/
structure Spaced (tokens : List Token) (ps : List (Token × List Char)) : Prop where
  tokens : ps.map Prod.fst = tokens
  blank : ∀ p ∈ ps, Text.isAllBlank p.2 = true

/-- Something stands between any two tokens. -/
def Apart (ps : List (Token × List Char)) : Prop := ∀ p ∈ ps.dropLast, p.2 ≠ []

/-- What is left of a text is a shorter end of it. -/
def Shortens (before after : List Char) : Prop := after <:+ before ∧ after.length < before.length

variable {cs rest : List Char} {t : Token} {ps : List (Token × List Char)}

/-! ### Cutting a text -/

lemma ofTrimmed_nil : ofTrimmed [] = ⟨[], none⟩ := by
  rw [ofTrimmed]
  split
  · rfl
  · next found => cases found
  · next found => cases found

/-- The tokens of a text are the first one and those of what follows it. -/
lemma ofTrimmed_of_read (h : Token.read cs = .ok (some (t, rest))) :
    ofTrimmed cs = ⟨(t, Text.trimStart rest) :: (ofTrimmed (Text.trimStart rest)).items,
      (ofTrimmed (Text.trimStart rest)).fault⟩ := by
  rw [ofTrimmed]
  split
  · next found =>
    rw [h] at found
    cases found
  · next found =>
    rw [h] at found
    cases found
  · next found =>
    rw [h] at found
    cases found
    rfl

/-- What follows a token, without its leading blanks, is a shorter end of the text. -/
lemma shortens_of_read (h : Token.read cs = .ok (some (t, rest))) :
    Shortens cs (Text.trimStart rest) := by
  have ending : rest <:+ cs := ⟨t.lexeme, Token.lexeme_append_of_read h⟩
  exact ⟨(List.dropWhile_suffix _).trans ending,
    Nat.lt_of_le_of_lt (Text.length_trimStart_le rest) (Token.length_lt_of_read h)⟩

/-- Each token leaves a shorter end of the text that it was read from. -/
lemma chain_tails (cs : List Char) :
    (cs :: (ofTrimmed cs).items.map Prod.snd).IsChain Shortens := by
  fun_induction ofTrimmed cs with
  | case1 => exact .singleton _
  | case2 => exact .singleton _
  | case3 cs t rest read _ ih => exact .cons_cons (shortens_of_read read) ih

/-- The tokens of a text are spelled as those of their kinds. -/
lemma lexical_of_mem (cs : List Char) : ∀ p ∈ (ofTrimmed cs).items, p.1.Lexical := by
  fun_induction ofTrimmed cs with
  | case1 => simp
  | case2 => simp
  | case3 cs t rest read _ ih => exact List.forall_mem_cons.mpr ⟨Token.lexical_of_read read, ih⟩

/-- A text without faults is its lexemes with blanks after them. -/
lemma exists_written (cs : List Char) (complete : (ofTrimmed cs).fault = none) :
    ∃ ps, Spaced ((ofTrimmed cs).items.map Prod.fst) ps ∧ cs = written ps := by
  fun_induction ofTrimmed cs with
  | case1 cs read =>
    exact ⟨[], ⟨rfl, by simp⟩, Token.eq_nil_of_read read⟩
  | case2 cs e read => cases complete
  | case3 cs t rest read _ ih =>
    obtain ⟨ps, ⟨tokens, blank⟩, same⟩ := ih complete
    refine ⟨(t, rest.takeWhile Text.isBlank) :: ps, ⟨congrArg (t :: ·) tokens, ?_⟩, ?_⟩
    · refine List.forall_mem_cons.mpr
        ⟨Text.isAllBlank_iff.mpr fun _ => List.mem_takeWhile_imp, blank⟩
    · rw [written, List.flatMap_cons, ← written, ← same, List.append_assoc,
        Text.takeWhile_append_trimStart, Token.lexeme_append_of_read read]

/-! ### Reading written tokens -/

/-- Written tokens start with no blank. -/
lemma trimStart_written (lexical : ∀ p ∈ ps, p.1.Lexical) :
    Text.trimStart (written ps) = written ps := by
  cases ps with
  | nil => rfl
  | cons p ps =>
    rw [written, List.flatMap_cons, List.append_assoc]
    exact (lexical p List.mem_cons_self).trimStart_append _

/-- A break follows every token when blanks stand between any two. -/
lemma breaks_of_apart {p : Token × List Char} (blank : Text.isAllBlank p.2 = true)
    (apart : Apart (p :: ps)) : Text.Breaks (p.2 ++ written ps) := by
  intro c head
  cases gap : p.2 with
  | nil =>
    cases ps with
    | nil => simp [gap, written] at head
    | cons q ps => exact absurd gap (apart p (by simp))
  | cons d more =>
    rw [gap] at head blank
    obtain rfl := Option.some.inj head
    exact Text.isAllBlank_iff.mp blank _ List.mem_cons_self

/-- Tokens written apart are read back. -/
lemma ofTrimmed_written (lexical : ∀ p ∈ ps, p.1.Lexical)
    (blank : ∀ p ∈ ps, Text.isAllBlank p.2 = true) (apart : Apart ps) :
    (ofTrimmed (written ps)).items.map Prod.fst = ps.map Prod.fst ∧
      (ofTrimmed (written ps)).fault = none := by
  induction ps with
  | nil =>
    rw [written, List.flatMap_nil, ofTrimmed_nil]
    exact ⟨rfl, rfl⟩
  | cons p ps ih =>
    obtain ⟨first, others⟩ := List.forall_mem_cons.mp lexical
    obtain ⟨firstBlank, othersBlank⟩ := List.forall_mem_cons.mp blank
    have othersApart : Apart ps := fun q member => by
      cases ps with
      | nil => cases member
      | cons r ps => exact apart q (List.mem_cons_of_mem p member)
    obtain ⟨items, fault⟩ := ih others othersBlank othersApart
    have read := Token.read_lexeme_append first (breaks_of_apart firstBlank apart)
    have passed : Text.trimStart (p.2 ++ written ps) = written ps := by
      rw [Text.trimStart, List.dropWhile_append_of_pos (Text.isAllBlank_iff.mp firstBlank)]
      exact trimStart_written others
    rw [written, List.flatMap_cons, List.append_assoc, ← written, ofTrimmed_of_read read, passed]
    exact ⟨congrArg (p.1 :: ·) items, fault⟩

/-- Trimming written tokens takes the blanks around them. -/
lemma trim_written {before after gap : List Char} (lexical : ∀ p ∈ ps, p.1.Lexical)
    (last : t.Lexical) (blankBefore : Text.isAllBlank before = true)
    (blankGap : Text.isAllBlank gap = true) (blankAfter : Text.isAllBlank after = true) :
    Text.trim (before ++ written (ps ++ [(t, gap)]) ++ after) = written (ps ++ [(t, [])]) := by
  have ending : before ++ written (ps ++ [(t, gap)]) ++ after =
      before ++ written (ps ++ [(t, [])]) ++ (gap ++ after) := by
    simp [written]
  have blank : Text.isAllBlank (gap ++ after) = true := by
    rw [Text.isAllBlank_append, blankGap, blankAfter, Bool.and_self]
  have allLexical : ∀ p ∈ ps ++ [(t, [])], p.1.Lexical :=
    List.forall_mem_append.mpr ⟨lexical, by simpa using last⟩
  have close : written (ps ++ [(t, [])]) = written ps ++ t.lexeme := by simp [written]
  rw [ending, Text.trim_append blank, Text.trim, Text.trimStart,
    List.dropWhile_append_of_pos (Text.isAllBlank_iff.mp blankBefore), ← Text.trimStart,
    trimStart_written allLexical, close, last.trimEnd_append]

/-- Tokens written apart, with blanks around them, are read back. -/
lemma ofText_written {before after : List Char} (lexical : ∀ p ∈ ps, p.1.Lexical)
    (blank : ∀ p ∈ ps, Text.isAllBlank p.2 = true) (apart : Apart ps)
    (blankBefore : Text.isAllBlank before = true) (blankAfter : Text.isAllBlank after = true) :
    (ofText (before ++ written ps ++ after)).items.map Prod.fst = ps.map Prod.fst ∧
      (ofText (before ++ written ps ++ after)).fault = none := by
  rw [ofText]
  obtain rfl | ⟨init, ⟨t, gap⟩, rfl⟩ := List.eq_nil_or_concat' ps
  · have nothing : Text.trim (before ++ written [] ++ after) = [] := by
      rw [Text.trim_eq_nil_iff, Text.isAllBlank_append, Text.isAllBlank_append, blankBefore,
        blankAfter]
      rfl
    rw [nothing, ofTrimmed_nil]
    exact ⟨rfl, rfl⟩
  · obtain ⟨initLexical, last⟩ := List.forall_mem_append.mp lexical
    obtain ⟨initBlank, gapBlank⟩ := List.forall_mem_append.mp blank
    have lastLexical : t.Lexical := last _ List.mem_cons_self
    rw [trim_written initLexical lastLexical blankBefore (gapBlank _ List.mem_cons_self) blankAfter]
    have closeLexical : ∀ p ∈ init ++ [(t, [])], p.1.Lexical :=
      List.forall_mem_append.mpr ⟨initLexical, by simpa using lastLexical⟩
    have closeBlank : ∀ p ∈ init ++ [(t, [])], Text.isAllBlank p.2 = true :=
      List.forall_mem_append.mpr ⟨initBlank, by simp [Text.isAllBlank]⟩
    have read := ofTrimmed_written closeLexical closeBlank (by simpa [Apart] using apart)
    simpa using read

/-- One lexeme with blanks around it is one token. -/
lemma ofText_lexeme {before after : List Char} (lexical : t.Lexical)
    (blankBefore : Text.isAllBlank before = true) (blankAfter : Text.isAllBlank after = true) :
    ofText (before ++ t.lexeme ++ after) = ⟨[(t, [])], none⟩ := by
  have trimmed : Text.trim (before ++ written ([] ++ [(t, [])]) ++ after) =
      written ([] ++ [(t, [])]) :=
    trim_written (by simp) lexical blankBefore rfl blankAfter
  simp only [written, List.nil_append, List.flatMap_cons, List.flatMap_nil, List.append_nil]
    at trimmed
  rw [ofText, trimmed, ofTrimmed_of_read lexical.read_lexeme]
  simp [Text.trimStart, ofTrimmed_nil]

/-! ### Any text without faults -/

/-- Nothing blank is left at the end of a trimmed text. -/
lemma eq_nil_of_trim_eq_append {x gap : List Char} (same : Text.trim cs = x ++ gap)
    (blank : Text.isAllBlank gap = true) : gap = [] := by
  have again := Text.trim_trim cs
  rw [same, Text.trim_append blank] at again
  have short := (Text.trim_infix x).length_le
  rw [again, List.length_append] at short
  exact List.eq_nil_of_length_eq_zero (by omega)

/-- The trimmed text is the lexemes with blanks between them only. -/
lemma trim_eq_written (cs : List Char) (complete : (ofText cs).fault = none) :
    ∃ ps, Spaced ((ofText cs).items.map Prod.fst) ps ∧ (∀ p ∈ ps.getLast?, p.2 = []) ∧
      Text.trim cs = written ps := by
  obtain ⟨ps, spaced, same⟩ := exists_written (Text.trim cs) complete
  refine ⟨ps, spaced, fun p last => ?_, same⟩
  obtain ⟨init, rfl⟩ := List.getLast?_eq_some_iff.mp last
  have blank := spaced.blank p (by simp)
  have cut : Text.trim cs = (written init ++ p.1.lexeme) ++ p.2 := by
    rw [same]
    simp [written]
  exact eq_nil_of_trim_eq_append cut blank

/-- Cutting a text into tokens is lossless and insensitive to spacing: when no fault ends it, each
token leaves a shorter end of the text before it, the trimmed text is the lexemes with blanks
between them only, and a text of the same lexemes with blanks between any two and around them has
the same tokens and spells the same expression. -/
theorem ofText_respaced (src : String) (complete : (ofText src.toList).fault = none) :
    (Text.trim src.toList :: (ofText src.toList).items.map Prod.snd).IsChain Shortens ∧
      (∃ ps, Spaced ((ofText src.toList).items.map Prod.fst) ps ∧
        (∀ p ∈ ps.getLast?, p.2 = []) ∧ Text.trim src.toList = written ps) ∧
      ∀ ps before after, Spaced ((ofText src.toList).items.map Prod.fst) ps → Apart ps →
        Text.isAllBlank before = true → Text.isAllBlank after = true →
        (ofText (before ++ written ps ++ after)).items.map Prod.fst =
            (ofText src.toList).items.map Prod.fst ∧
          (ofText (before ++ written ps ++ after)).fault = none ∧
          Expr.parse (String.ofList (before ++ written ps ++ after)) = Expr.parse src := by
  refine ⟨chain_tails _, trim_eq_written _ complete, ?_⟩
  intro ps before after spaced apart blankBefore blankAfter
  have lexical : ∀ p ∈ ps, p.1.Lexical := fun p member => by
    have listed : p.1 ∈ (ofText src.toList).items.map Prod.fst :=
      spaced.tokens ▸ List.mem_map_of_mem member
    obtain ⟨item, itemMember, same⟩ := List.mem_map.mp listed
    rw [← same]
    exact lexical_of_mem (Text.trim src.toList) item itemMember
  obtain ⟨items, fault⟩ := ofText_written lexical spaced.blank apart blankBefore blankAfter
  rw [spaced.tokens] at items
  refine ⟨items, fault, ?_⟩
  simp only [Expr.parse, String.toList_ofList]
  rw [items, fault, complete]

/-- Symbols of two characters and a number with a point, written close and with blanks between. -/
theorem ofText_respaced_symbols :
    (ofText "a//b<=1.5".toList).fault = none ∧
      Expr.parse " a //\tb <= 1.5\n" = Expr.parse "a//b<=1.5" := by
  have complete : (ofText "a//b<=1.5".toList).fault = none := by decide +kernel
  have spaced : Spaced ((ofText "a//b<=1.5".toList).items.map Prod.fst)
      [(.word "a", [' ']), (.symbol .floorDivide, ['\t']), (.word "b", [' ']),
        (.symbol .atMost, [' ']), (.number "1.5", [])] :=
    ⟨by decide +kernel, by decide⟩
  have apart : Apart [(.word "a", [' ']), (.symbol .floorDivide, ['\t']), (.word "b", [' ']),
      (.symbol .atMost, [' ']), (.number "1.5", [])] := by
    simp [Apart]
  obtain ⟨-, -, parsed⟩ :=
    (ofText_respaced _ complete).2.2 _ [' '] ['\n'] spaced apart (by decide) (by decide)
  exact ⟨complete, parsed⟩

end Tokens

end Stencil
