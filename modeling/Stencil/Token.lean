import Stencil.Text.Blank
import Stencil.Text.Letter
import Stencil.Text.Line

/-!
# Tokens

The text inside a marker is cut into numbers, quoted strings, words and symbols, with blanks between
them.  `Token.read` takes one token off the front of a text, and what it takes is the token's lexeme
(`lexeme_append_of_read`), so nothing is lost and the rest is shorter (`length_lt_of_read`).
`Tokens.ofText` takes tokens until the text ends or a token cannot be read.
-/

namespace Stencil

/-- The two marks that enclose strings. -/
inductive Quote where
  | single
  | double
  deriving DecidableEq, Repr

namespace Quote

/-- The character of a quotation mark. -/
def char : Quote → Char
  | .single => '\''
  | .double => '"'

/-- The quotation mark that a character is. -/
def ofChar? (c : Char) : Option Quote :=
  if c = '"' then some .double else if c = '\'' then some .single else none

theorem ofChar?_eq_some_iff {c : Char} {q : Quote} : ofChar? c = some q ↔ c = q.char := by
  unfold ofChar?
  split
  · next h => cases q <;> simp [h, char]
  · split
    · next h => cases q <;> simp [h, char]
    · cases q <;> simp_all [char]

end Quote

/-- Operators and punctuation. -/
inductive Symbol where
  | equal
  | notEqual
  | atMost
  | atLeast
  | floorDivide
  | and
  | or
  | plus
  | minus
  | times
  | divide
  | remainder
  | less
  | greater
  | not
  | openParen
  | closeParen
  | openBracket
  | closeBracket
  | comma
  | dot
  deriving DecidableEq, Repr

namespace Symbol

/-- How a symbol is written. -/
def spelling : Symbol → String
  | .equal => "=="
  | .notEqual => "!="
  | .atMost => "<="
  | .atLeast => ">="
  | .floorDivide => "//"
  | .and => "&&"
  | .or => "||"
  | .plus => "+"
  | .minus => "-"
  | .times => "*"
  | .divide => "/"
  | .remainder => "%"
  | .less => "<"
  | .greater => ">"
  | .not => "!"
  | .openParen => "("
  | .closeParen => ")"
  | .openBracket => "["
  | .closeBracket => "]"
  | .comma => ","
  | .dot => "."

/-- All symbols, those of two characters first. -/
def all : List Symbol :=
  [.equal, .notEqual, .atMost, .atLeast, .floorDivide, .and, .or,
    .plus, .minus, .times, .divide, .remainder, .less, .greater, .not,
    .openParen, .closeParen, .openBracket, .closeBracket, .comma, .dot]

/-- The first symbol in the order of `all` that a text starts with. -/
def startOf? (cs : List Char) : Option Symbol :=
  all.find? (fun s => s.spelling.toList.isPrefixOf cs)

theorem spelling_ne_nil (s : Symbol) : s.spelling.toList ≠ [] := by
  cases s <;> decide

theorem append_drop_of_startOf? {cs : List Char} {s : Symbol} (h : startOf? cs = some s) :
    s.spelling.toList ++ cs.drop s.spelling.toList.length = cs := by
  have := List.find?_some h
  obtain ⟨rest, rfl⟩ := List.isPrefixOf_iff_prefix.1 this
  simp

end Symbol

/-- A token; a quoted string keeps its escapes. -/
inductive Token where
  | number (digits : String)
  | quoted (mark : Quote) (raw : String)
  | word (name : String)
  | symbol (s : Symbol)
  deriving DecidableEq, Repr

/-- Why no token could be read. -/
inductive TokenError where
  | unterminated (near : String)
  | unexpected (c : Char)
  deriving DecidableEq, Repr

/-- The wording of a reading error. -/
def TokenError.message : TokenError → String
  | .unterminated near => s!"unterminated string near {near}"
  | .unexpected c => s!"unexpected character '{c}'"

namespace Token

/-- The text of a token as error messages show it; a string is shown without its marks. -/
def value : Token → String
  | .number digits => digits
  | .quoted _ raw => raw
  | .word name => name
  | .symbol s => s.spelling

/-- The characters of a token as it stands in the text. -/
def lexeme : Token → List Char
  | .number digits => digits.toList
  | .quoted mark raw => mark.char :: (raw.toList ++ [mark.char])
  | .word name => name.toList
  | .symbol s => s.spelling.toList

/-! ### Reading one token -/

/-- Splits the text after an opening mark at the closing one; a backslash makes the character after
it an ordinary one. -/
def splitQuoted (mark : Char) : List Char → Option (List Char × List Char)
  | [] => none
  | '\\' :: c :: rest => (splitQuoted mark rest).map fun p => ('\\' :: c :: p.1, p.2)
  | c :: rest =>
    if c = mark then some ([], rest)
    else (splitQuoted mark rest).map fun p => (c :: p.1, p.2)

/-- Splits a text after the digits at its start and, when digits follow it, a point and these. -/
def splitNumber (cs : List Char) : List Char × List Char :=
  let whole := cs.takeWhile Char.isDigit
  match cs.dropWhile Char.isDigit with
  | '.' :: d :: rest =>
    if d.isDigit then
      (whole ++ '.' :: (d :: rest).takeWhile Char.isDigit, (d :: rest).dropWhile Char.isDigit)
    else (whole, '.' :: d :: rest)
  | rest => (whole, rest)

/-- The token at the start of a text and what follows it; none when the text is empty. -/
def read : List Char → Except TokenError (Option (Token × List Char))
  | [] => .ok none
  | c :: cs =>
    match Quote.ofChar? c with
    | some mark =>
      match splitQuoted c cs with
      | some (raw, rest) => .ok (some (.quoted mark (String.ofList raw), rest))
      | none => .error (.unterminated (String.ofList (Text.excerpt (c :: cs))))
    | none =>
      if c.isDigit then
        let (digits, rest) := splitNumber (c :: cs)
        .ok (some (.number (String.ofList digits), rest))
      else if Text.startsWord c then
        let name := (c :: cs).takeWhile Text.isWordChar
        .ok (some (.word (String.ofList name), (c :: cs).dropWhile Text.isWordChar))
      else
        match Symbol.startOf? (c :: cs) with
        | some s => .ok (some (.symbol s, (c :: cs).drop s.spelling.toList.length))
        | none => .error (.unexpected c)

/-! ### Nothing is lost -/

theorem append_of_splitQuoted {mark : Char} {cs raw rest : List Char}
    (h : splitQuoted mark cs = some (raw, rest)) : raw ++ mark :: rest = cs := by
  fun_induction splitQuoted mark cs generalizing raw rest with
  | case1 => simp at h
  | case2 c tail ih =>
    obtain ⟨⟨inner, after⟩, split, same⟩ := Option.map_eq_some_iff.1 h
    obtain ⟨rfl, rfl⟩ := Prod.mk.inj same
    simp [ih split]
  | case3 tail =>
    obtain ⟨rfl, rfl⟩ := Prod.mk.inj (Option.some.inj h)
    rfl
  | case4 c tail _ _ ih =>
    obtain ⟨⟨inner, after⟩, split, same⟩ := Option.map_eq_some_iff.1 h
    obtain ⟨rfl, rfl⟩ := Prod.mk.inj same
    simp [ih split]

theorem append_splitNumber (cs : List Char) : (splitNumber cs).1 ++ (splitNumber cs).2 = cs := by
  have whole := List.takeWhile_append_dropWhile (p := Char.isDigit) (l := cs)
  unfold splitNumber
  split
  · next d rest eq =>
    rw [eq] at whole
    split
    · simp [List.takeWhile_append_dropWhile, whole]
    · exact whole
  · exact whole

theorem splitNumber_ne_nil {c : Char} {cs : List Char} (h : c.isDigit = true) :
    (splitNumber (c :: cs)).1 ≠ [] := by
  unfold splitNumber
  split
  · split <;> simp [h]
  · simp [h]

/-- The lexeme of the token read and what follows it make up the text. -/
theorem lexeme_append_of_read {cs rest : List Char} {t : Token}
    (h : read cs = .ok (some (t, rest))) : t.lexeme ++ rest = cs := by
  cases cs with
  | nil => simp [read] at h
  | cons c cs =>
    simp only [read] at h
    split at h
    · next mark isMark =>
      have same := Quote.ofChar?_eq_some_iff.1 isMark
      split at h
      · next raw after split =>
        simp only [Except.ok.injEq, Option.some.injEq, Prod.mk.injEq] at h
        obtain ⟨rfl, rfl⟩ := h
        have := append_of_splitQuoted split
        simp [lexeme, ← same, ← this]
      · simp at h
    · split at h
      · simp only [Except.ok.injEq, Option.some.injEq, Prod.mk.injEq] at h
        obtain ⟨rfl, rfl⟩ := h
        simpa [lexeme] using append_splitNumber (c :: cs)
      · split at h
        · simp only [Except.ok.injEq, Option.some.injEq, Prod.mk.injEq] at h
          obtain ⟨rfl, rfl⟩ := h
          simp only [lexeme, String.toList_ofList]
          exact List.takeWhile_append_dropWhile
        · split at h
          · next s start =>
            simp only [Except.ok.injEq, Option.some.injEq, Prod.mk.injEq] at h
            obtain ⟨rfl, rfl⟩ := h
            exact Symbol.append_drop_of_startOf? start
          · simp at h

theorem lexeme_ne_nil_of_read {cs rest : List Char} {t : Token}
    (h : read cs = .ok (some (t, rest))) : t.lexeme ≠ [] := by
  cases cs with
  | nil => simp [read] at h
  | cons c cs =>
    simp only [read] at h
    split at h
    · split at h
      · simp only [Except.ok.injEq, Option.some.injEq, Prod.mk.injEq] at h
        simp [← h.1, lexeme]
      · simp at h
    · split at h
      · next digit =>
        simp only [Except.ok.injEq, Option.some.injEq, Prod.mk.injEq] at h
        simpa [← h.1, lexeme] using splitNumber_ne_nil digit
      · split at h
        · next start =>
          simp only [Except.ok.injEq, Option.some.injEq, Prod.mk.injEq] at h
          simp [← h.1, lexeme, Text.isWordChar_of_startsWord start]
        · split at h
          · next s _ =>
            simp only [Except.ok.injEq, Option.some.injEq, Prod.mk.injEq] at h
            simpa [← h.1, lexeme] using s.spelling_ne_nil
          · simp at h

/-- Reading a token leaves a shorter text. -/
theorem length_lt_of_read {cs rest : List Char} {t : Token}
    (h : read cs = .ok (some (t, rest))) : rest.length < cs.length := by
  have := List.length_pos_iff.2 (lexeme_ne_nil_of_read h)
  rw [← lexeme_append_of_read h, List.length_append]
  omega

end Token

/-! ### All tokens of a text -/

/-- The tokens of a text, each with the text left after it, and what ended the reading early. -/
structure Tokens where
  items : List (Token × List Char)
  fault : Option TokenError
  deriving DecidableEq

namespace Tokens

/-- The tokens of a text without leading blanks. -/
def ofTrimmed (cs : List Char) : Tokens :=
  match _ : Token.read cs with
  | .ok none => ⟨[], none⟩
  | .error e => ⟨[], some e⟩
  | .ok (some (t, rest)) =>
    let more := ofTrimmed (Text.trimStart rest)
    ⟨(t, Text.trimStart rest) :: more.items, more.fault⟩
termination_by cs.length
decreasing_by
  exact Nat.lt_of_le_of_lt (Text.length_trimStart_le rest) (Token.length_lt_of_read ‹_›)

/-- The tokens of a text. -/
def ofText (cs : List Char) : Tokens :=
  ofTrimmed (Text.trim cs)

end Tokens

end Stencil
