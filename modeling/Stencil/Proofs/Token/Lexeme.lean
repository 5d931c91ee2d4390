import Stencil.Token
import Mathlib.Data.List.TakeWhile
import Mathlib.Tactic.Common

/-!
# Lexemes

`Token.Lexical` says which tokens there are, without the reader: numbers are digits with at most one
point between them, words start with a letter or an underscore, and a string holds its mark and
backslashes only after a backslash.  The reader gives no other tokens (`lexical_of_read`), and it
reads each of them back from its lexeme when nothing or a blank follows (`read_lexeme_append`): a
blank is no part of a number, a word or a symbol, so it ends them where they ended before, and a
string ends at its mark whatever follows.
-/

namespace Stencil

namespace Text

/-- Nothing comes next, or a blank does. -/
def Breaks (cs : List Char) : Prop := ∀ c ∈ cs.head?, isBlank c = true

/-! ### Blanks are no part of tokens -/

variable {c : Char}

/-- No word holds a blank. -/
lemma isWordChar_of_isBlank (blank : isBlank c = true) : isWordChar c = false := by
  have apart : ∀ n ∈ [9, 10, 11, 12, 13, 0x20, 0x85, 0xa0, 0x1680, 0x2000, 0x2001, 0x2002,
      0x2003, 0x2004, 0x2005, 0x2006, 0x2007, 0x2008, 0x2009, 0x200a, 0x2028, 0x2029, 0x202f,
      0x205f, 0x3000],
      inRanges n letterRanges = false ∧ inRanges n numeralRanges = false ∧ n ≠ '_'.toNat := by
    decide +kernel
  simp only [isBlank, Bool.or_eq_true, Bool.and_eq_true, decide_eq_true_eq, beq_iff_eq] at blank
  obtain ⟨letter, numeral, underscore⟩ := apart c.toNat (by
    simp only [List.mem_cons, List.not_mem_nil, or_false]
    omega)
  have other : c ≠ '_' := fun same => underscore (congrArg Char.toNat same)
  simp [isWordChar, isLetter, isNumeral, letter, numeral, other]

/-- No number holds a blank. -/
lemma isDigit_of_isBlank (blank : isBlank c = true) : c.isDigit = false := by
  have digit : c.isDigit = true ↔ 48 ≤ c.toNat ∧ c.toNat ≤ 57 := Char.isDigit_iff_toNat
  rw [← Bool.not_eq_true, digit]
  simp only [isBlank, Bool.or_eq_true, Bool.and_eq_true, decide_eq_true_eq, beq_iff_eq] at blank
  omega

/-- No blank is a quotation mark. -/
lemma ofChar?_of_isBlank (blank : isBlank c = true) : Quote.ofChar? c = none := by
  cases found : Quote.ofChar? c with
  | none => rfl
  | some q =>
    rw [Quote.ofChar?_eq_some_iff.mp found] at blank
    cases q <;> cases blank

/-- A digit is no quotation mark and starts no word. -/
lemma apart_of_isDigit (digit : c.isDigit = true) :
    Quote.ofChar? c = none ∧ startsWord c = false := by
  have range : 48 ≤ c.toNat ∧ c.toNat ≤ 57 := Char.isDigit_iff_toNat.mp digit
  have apart : ∀ n ∈ List.range' 48 10, n ≠ '"'.toNat ∧ n ≠ '\''.toNat ∧
      inRanges n letterRanges = false ∧ n ≠ '_'.toNat := by
    decide +kernel
  obtain ⟨double, single, letter, underscore⟩ :=
    apart c.toNat (List.mem_range'_1.mpr ⟨range.1, by omega⟩)
  have notDouble : c ≠ '"' := fun same => double (congrArg Char.toNat same)
  have notSingle : c ≠ '\'' := fun same => single (congrArg Char.toNat same)
  have notUnderscore : c ≠ '_' := fun same => underscore (congrArg Char.toNat same)
  simp [Quote.ofChar?, startsWord, isLetter, notDouble, notSingle, letter, notUnderscore]

/-- What starts a word is no quotation mark and no digit. -/
lemma apart_of_startsWord (start : startsWord c = true) :
    Quote.ofChar? c = none ∧ c.isDigit = false := by
  constructor
  · cases found : Quote.ofChar? c with
    | none => rfl
    | some q =>
      have mark : startsWord q.char = false := by cases q <;> decide +kernel
      rw [Quote.ofChar?_eq_some_iff.mp found, mark] at start
      cases start
  · rw [← Bool.not_eq_true]
    intro digit
    rw [(apart_of_isDigit digit).2] at start
    cases start

/-- What has a property up to a break, where blanks do not have it, is cut off there. -/
lemma span_append {p : Char → Bool} {cs rest : List Char} (all : ∀ c ∈ cs, p c = true)
    (ends : ∀ c ∈ rest.head?, p c = false) :
    (cs ++ rest).takeWhile p = cs ∧ (cs ++ rest).dropWhile p = rest := by
  rw [List.takeWhile_append_of_pos all, List.dropWhile_append_of_pos all]
  cases rest with
  | nil => exact ⟨List.append_nil _, rfl⟩
  | cons c rest =>
    have stops := ends c rfl
    simp [stops]

/-- A text without blanks that stands at the start of a text and a break stands in that text. -/
lemma prefix_append_iff {xs ys rest : List Char} (solid : ∀ c ∈ xs, isBlank c = false)
    (breaks : Breaks rest) : xs <+: ys ++ rest ↔ xs <+: ys := by
  induction ys generalizing xs with
  | nil =>
    cases xs with
    | nil => simp
    | cons c xs =>
      refine ⟨fun starts => ?_, fun starts => absurd (List.prefix_nil.mp starts) (by simp)⟩
      obtain ⟨more, rfl⟩ := starts
      have blank := breaks c rfl
      rw [solid c List.mem_cons_self] at blank
      cases blank
  | cons y ys ih =>
    cases xs with
    | nil => simp
    | cons c xs =>
      rw [List.cons_append, List.cons_prefix_cons, List.cons_prefix_cons,
        ih fun d member => solid d (List.mem_cons_of_mem c member)]

end Text

namespace Symbol

/-- No symbol is spelled with a blank. -/
lemma isBlank_of_mem_spelling (s : Symbol) : ∀ c ∈ s.spelling.toList, Text.isBlank c = false := by
  have all : s.spelling.toList.all (fun c => !Text.isBlank c) = true := by cases s <;> decide
  simpa using all

/-- No symbol is spelled like a token of another kind. -/
lemma apart_of_mem_spelling (s : Symbol) :
    ∀ c ∈ s.spelling.toList, Quote.ofChar? c = none ∧ c.isDigit = false ∧
      Text.startsWord c = false := by
  have all : s.spelling.toList.all (fun c => decide (Quote.ofChar? c = none ∧ c.isDigit = false ∧
      Text.startsWord c = false)) = true := by
    cases s <;> decide +kernel
  exact fun c member => of_decide_eq_true (List.all_eq_true.mp all c member)

/-- A symbol before a break is the first one that the text starts with. -/
lemma startOf?_append (s : Symbol) {rest : List Char} (breaks : Text.Breaks rest) :
    startOf? (s.spelling.toList ++ rest) = some s := by
  have same : (fun t : Symbol => t.spelling.toList.isPrefixOf (s.spelling.toList ++ rest)) =
      fun t => t.spelling.toList.isPrefixOf s.spelling.toList := by
    funext t
    rw [Bool.eq_iff_iff, List.isPrefixOf_iff_prefix, List.isPrefixOf_iff_prefix,
      Text.prefix_append_iff t.isBlank_of_mem_spelling breaks]
  rw [startOf?, same]
  cases s <;> decide

/-- No symbol starts with a blank. -/
lemma startOf?_of_isBlank {c : Char} (blank : Text.isBlank c = true) (cs : List Char) :
    startOf? (c :: cs) = none := by
  refine List.find?_eq_none.mpr fun s _ starts => ?_
  have breaks : Text.Breaks (c :: cs) := fun d head => Option.some.inj head ▸ blank
  have nothing : s.spelling.toList <+: [] :=
    (Text.prefix_append_iff s.isBlank_of_mem_spelling breaks).mp
      (List.isPrefixOf_iff_prefix.mp starts)
  exact s.spelling_ne_nil (List.prefix_nil.mp nothing)

end Symbol

namespace Token

/-! ### The tokens there are -/

/-- The text can stand between two marks: a backslash comes with the character that it escapes, and
the mark comes only after a backslash. -/
inductive Raw (mark : Char) : List Char → Prop where
  | nil : Raw mark []
  | escape (c : Char) {cs : List Char} (rest : Raw mark cs) : Raw mark ('\\' :: c :: cs)
  | plain {c : Char} {cs : List Char} (notEscape : c ≠ '\\') (notMark : c ≠ mark)
      (rest : Raw mark cs) : Raw mark (c :: cs)

/-- The digits of a number, of which there is at least one. -/
def Digits (ds : List Char) : Prop := ds ≠ [] ∧ ∀ d ∈ ds, d.isDigit = true

/-- The token is spelled as tokens of its kind are. -/
inductive Lexical : Token → Prop where
  | whole {ds : List Char} (digits : Digits ds) : Lexical (.number (String.ofList ds))
  | decimal {ds es : List Char} (digits : Digits ds) (places : Digits es) :
      Lexical (.number (String.ofList (ds ++ '.' :: es)))
  | quoted (mark : Quote) {raw : List Char} (closed : Raw mark.char raw) :
      Lexical (.quoted mark (String.ofList raw))
  | word {c : Char} {cs : List Char} (start : Text.startsWord c = true)
      (inside : ∀ d ∈ cs, Text.isWordChar d = true) : Lexical (.word (String.ofList (c :: cs)))
  | symbol (s : Symbol) : Lexical (.symbol s)

variable {mark : Char} {cs ds es raw rest : List Char} {t : Token}

/-! ### Strings -/

/-- What is split off up to the closing mark can stand between marks. -/
lemma raw_of_splitQuoted (h : splitQuoted mark cs = some (raw, rest)) : Raw mark raw := by
  fun_induction splitQuoted mark cs generalizing raw rest with
  | case1 => cases h
  | case2 c tail ih =>
    obtain ⟨⟨inner, after⟩, split, same⟩ := Option.map_eq_some_iff.mp h
    obtain ⟨rfl, rfl⟩ := Prod.mk.inj same
    exact .escape c (ih split)
  | case3 tail =>
    obtain ⟨rfl, rfl⟩ := Prod.mk.inj (Option.some.inj h)
    exact .nil
  | case4 c tail notEscape notMark ih =>
    obtain ⟨⟨inner, after⟩, split, same⟩ := Option.map_eq_some_iff.mp h
    obtain ⟨rfl, rfl⟩ := Prod.mk.inj same
    refine .plain (fun escape => ?_) notMark (ih split)
    -- a backslash at the end of the text is followed by no mark
    cases tail with
    | nil => cases split
    | cons d tail => exact notEscape d tail escape rfl

/-- What can stand between marks is split off up to the closing one, whatever follows. -/
lemma splitQuoted_append (ordinary : mark ≠ '\\') (closed : Raw mark raw) (rest : List Char) :
    splitQuoted mark (raw ++ mark :: rest) = some (raw, rest) := by
  induction closed with
  | nil => simp [splitQuoted, ordinary]
  | escape c _ ih => simp [splitQuoted, ih]
  | plain notEscape notMark _ ih => simp [splitQuoted, notEscape, notMark, ih]

/-! ### Numbers -/

/-- A point ends the digits before it. -/
lemma splitNumber_whole (digits : ∀ d ∈ ds, d.isDigit = true) (breaks : Text.Breaks rest) :
    splitNumber (ds ++ rest) = (ds, rest) := by
  have ends : ∀ c ∈ rest.head?, c.isDigit = false :=
    fun c head => Text.isDigit_of_isBlank (breaks c head)
  obtain ⟨taken, dropped⟩ := Text.span_append digits ends
  rw [splitNumber, taken, dropped]
  split
  · exact absurd (breaks '.' rfl) (by decide)
  · rfl

/-- A point with digits on both sides belongs to the number. -/
lemma splitNumber_decimal (digits : ∀ d ∈ ds, d.isDigit = true) (places : Digits es)
    (breaks : Text.Breaks rest) :
    splitNumber (ds ++ '.' :: es ++ rest) = (ds ++ '.' :: es, rest) := by
  obtain ⟨nonempty, placeDigits⟩ := places
  obtain ⟨e, more, rfl⟩ := List.exists_cons_of_ne_nil nonempty
  have ends : ∀ c ∈ rest.head?, c.isDigit = false :=
    fun c head => Text.isDigit_of_isBlank (breaks c head)
  have point : ∀ c ∈ ('.' :: (e :: more ++ rest)).head?, c.isDigit = false :=
    fun c head => Option.some.inj head ▸ rfl
  obtain ⟨taken, dropped⟩ := Text.span_append digits point
  obtain ⟨takenPlaces, droppedPlaces⟩ := Text.span_append placeDigits ends
  have first := placeDigits e List.mem_cons_self
  rw [List.append_assoc, List.cons_append, splitNumber, taken, dropped]
  simp only [List.cons_append] at takenPlaces droppedPlaces ⊢
  simp only [first, if_true, takenPlaces, droppedPlaces]

/-- What is split off from a text that starts with a digit is a number. -/
lemma lexical_splitNumber {c : Char} (digit : c.isDigit = true) (cs : List Char) :
    Lexical (.number (String.ofList (splitNumber (c :: cs)).1)) := by
  have digits : Digits ((c :: cs).takeWhile Char.isDigit) :=
    ⟨by simp [digit], fun d => List.mem_takeWhile_imp⟩
  unfold splitNumber
  split
  · next d more _ =>
    split
    · next place =>
      exact .decimal digits ⟨by simp [place], fun e => List.mem_takeWhile_imp⟩
    · exact .whole digits
  · exact .whole digits

/-! ### Reading back -/

/-- Only where nothing is left there is no token. -/
lemma eq_nil_of_read (h : read cs = .ok none) : cs = [] := by
  cases cs with
  | nil => rfl
  | cons c cs =>
    simp only [read] at h
    split at h
    · split at h <;> cases h
    · split at h
      · cases h
      · split at h
        · cases h
        · split at h <;> cases h

/-- The reader gives tokens spelled as those of their kind. -/
theorem lexical_of_read (h : read cs = .ok (some (t, rest))) : Lexical t := by
  cases cs with
  | nil => cases h
  | cons c cs =>
    simp only [read] at h
    split at h
    · next mark isMark =>
      split at h
      · next raw after split =>
        cases h
        rw [Quote.ofChar?_eq_some_iff.mp isMark] at split
        exact .quoted mark (raw_of_splitQuoted split)
      · cases h
    · split at h
      · next digit =>
        cases h
        exact lexical_splitNumber digit cs
      · split at h
        · next start =>
          cases h
          rw [List.takeWhile_cons_of_pos (Text.isWordChar_of_startsWord start)]
          exact .word start fun d => List.mem_takeWhile_imp
        · split at h
          · cases h
            exact .symbol _
          · cases h

/-- No token starts with a blank. -/
lemma read_of_isBlank {c : Char} (blank : Text.isBlank c = true) (cs : List Char) :
    read (c :: cs) = .error (.unexpected c) := by
  have word := Text.isWordChar_of_isBlank blank
  have start : Text.startsWord c = false := by
    rw [← Bool.not_eq_true] at word ⊢
    exact mt Text.isWordChar_of_startsWord word
  simp [read, Text.ofChar?_of_isBlank blank, Text.isDigit_of_isBlank blank, start,
    Symbol.startOf?_of_isBlank blank]

/-- A text that starts with a digit is read as a number first. -/
lemma read_of_digit {c : Char} (head : cs.head? = some c) (digit : c.isDigit = true) :
    read cs = .ok (some (.number (String.ofList (splitNumber cs).1), (splitNumber cs).2)) := by
  obtain ⟨more, rfl⟩ := List.head?_eq_some_iff.mp head
  simp [read, (Text.apart_of_isDigit digit).1, digit]

/-- A token is read back from its lexeme when nothing or a blank follows. -/
theorem read_lexeme_append (lexical : Lexical t) (breaks : Text.Breaks rest) :
    read (t.lexeme ++ rest) = .ok (some (t, rest)) := by
  cases lexical with
  | whole digits =>
    obtain ⟨nonempty, all⟩ := digits
    have split := splitNumber_whole all breaks
    obtain ⟨d, ds, rfl⟩ := List.exists_cons_of_ne_nil nonempty
    rw [lexeme, String.toList_ofList, read_of_digit rfl (all d List.mem_cons_self), split]
  | decimal digits places =>
    obtain ⟨nonempty, all⟩ := digits
    have split := splitNumber_decimal all places breaks
    obtain ⟨d, ds, rfl⟩ := List.exists_cons_of_ne_nil nonempty
    rw [lexeme, String.toList_ofList, read_of_digit rfl (all d List.mem_cons_self), split]
  | quoted mark closed =>
    have ordinary : mark.char ≠ '\\' := by cases mark <;> decide
    have split := splitQuoted_append ordinary closed rest
    have isMark : Quote.ofChar? mark.char = some mark := Quote.ofChar?_eq_some_iff.mpr rfl
    simp [lexeme, read, isMark, split]
  | @word c cs start inside =>
    have word := Text.isWordChar_of_startsWord start
    have ends : ∀ d ∈ rest.head?, Text.isWordChar d = false :=
      fun d head => Text.isWordChar_of_isBlank (breaks d head)
    obtain ⟨taken, dropped⟩ := Text.span_append (List.forall_mem_cons.mpr ⟨word, inside⟩) ends
    obtain ⟨noMark, noDigit⟩ := Text.apart_of_startsWord start
    simp only [List.cons_append] at taken dropped
    simp [lexeme, read, noMark, noDigit, start, taken, dropped]
  | symbol s =>
    have found := s.startOf?_append breaks
    have length : (s.spelling.toList ++ rest).drop s.spelling.toList.length = rest :=
      List.drop_left
    obtain ⟨c, more, spelling⟩ := List.exists_cons_of_ne_nil s.spelling_ne_nil
    have member : c ∈ s.spelling.toList := by simp [spelling]
    obtain ⟨noMark, noDigit, noWord⟩ := s.apart_of_mem_spelling c member
    have head : s.spelling.toList ++ rest = c :: (more ++ rest) := by
      rw [spelling, List.cons_append]
    rw [head] at found length
    simp [lexeme, read, head, noMark, noDigit, noWord, found, length]

end Token

end Stencil
