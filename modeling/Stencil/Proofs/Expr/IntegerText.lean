import Stencil.Proofs.Expr.Completeness
import Stencil.Proofs.Token.Spacing
import Stencil.Template.Expression
import Stencil.Value.Text

/-!
# The text of an integer as an expression

The text of an integer is its digits, with a minus sign before them when it is negative.  The sign
is no part of a number but an operator, so the digits have to fit by themselves.  They do for every
integer but the least one, and then the text evaluates to the integer that it was written for
(`evaluateText_integerText`).
-/

namespace Stencil

namespace Number

/-- The digits of a number denote it. -/
lemma ofDigits_natDigits (n : Nat) : ofDigits (natDigits n) = n :=
  Nat.ofDigitChars_toDigits (by decide) (by decide)

/-- A number is written with at least one digit and nothing else. -/
lemma digits_natDigits (n : Nat) : Token.Digits (natDigits n) :=
  ⟨Nat.toDigits_ne_nil, fun _ => Nat.isDigit_of_mem_toDigits (by decide) (by decide)⟩

/-- There is no point among digits. -/
lemma point_notMem_natDigits (n : Nat) : '.' ∉ natDigits n := by
  intro point
  have digit := (digits_natDigits n).2 '.' point
  cases digit

/-- The text of a negative integer starts with a minus sign. -/
lemma toList_integerText_of_neg {n : Int64} (h : n.toInt < 0) :
    (integerText n).toList = '-' :: natDigits n.toInt.natAbs := by
  rw [integerText, if_pos h, String.toList_ofList]

/-- The text of any other integer is its digits. -/
lemma toList_integerText_of_nonneg {n : Int64} (h : ¬ n.toInt < 0) :
    (integerText n).toList = natDigits n.toInt.natAbs := by
  rw [integerText, if_neg h, String.toList_ofList]

/-- The least integer is the only one whose digits do not fit. -/
lemma natAbs_le_iff (n : Int64) :
    (n.toInt.natAbs : Int) ≤ Int64.maxValue.toInt ↔ n ≠ Int64.minValue := by
  have upper : Int64.maxValue.toInt = 2 ^ 63 - 1 := by decide
  have lower : Int64.minValue.toInt = -2 ^ 63 := by decide
  have least : n = Int64.minValue ↔ n.toInt = -2 ^ 63 := by rw [← Int64.toInt_inj, lower]
  have low := n.le_toInt
  have high := n.toInt_lt
  rw [upper, ne_eq, least]
  omega

end Number

namespace Tokens

/-- A minus sign before a number is a token of its own. -/
lemma ofText_negated {before ds after : List Char} (digits : Token.Digits ds)
    (blankBefore : Text.isAllBlank before = true) (blankAfter : Text.isAllBlank after = true) :
    ofText (before ++ '-' :: ds ++ after) =
      ⟨[(.symbol .minus, ds), (.number (String.ofList ds), [])], none⟩ := by
  have number : (Token.number (String.ofList ds)).Lexical := .whole digits
  have text : written ([(.symbol .minus, [])] ++ [(.number (String.ofList ds), [])]) =
      '-' :: ds := by
    simp [written, Token.lexeme, Symbol.spelling]
  have trimmed : Text.trim (before ++ '-' :: ds ++ after) = '-' :: ds := by
    rw [← text]
    exact trim_written (by simpa using .symbol .minus) number blankBefore rfl blankAfter
  have sign : Token.read ('-' :: ds) = .ok (some (.symbol .minus, ds)) := rfl
  have passed : Text.trimStart ds = ds := by
    have untouched := number.trimStart_append []
    rwa [Token.lexeme, String.toList_ofList, List.append_nil] at untouched
  have alone : ofTrimmed ds = ⟨[(.number (String.ofList ds), [])], none⟩ := by
    have read := number.read_lexeme
    rw [Token.lexeme, String.toList_ofList] at read
    rw [ofTrimmed_of_read read]
    simp [Text.trimStart, ofTrimmed_nil]
  rw [ofText, trimmed, ofTrimmed_of_read sign, passed, alone]

end Tokens

namespace Expr

open Number

variable {m : Nat} {before after : List Char}

/-- The digits of a number that fits stand for it. -/
lemma derives_natDigits (n m : Nat) :
    Derives .primary n [.number (String.ofList (natDigits m))]
      (.literal (.integer (Int64.ofInt m))) := by
  have value : numberValue (String.ofList (natDigits m)) = .integer (Int64.ofInt m) := by
    rw [numberValue, String.toList_ofList, if_neg (point_notMem_natDigits m), ofDigits_natDigits]
  rw [← value]
  exact .number _

/-- The digits of a number are in range when the number is. -/
lemma inRange_natDigits (fits : (m : Int) ≤ Int64.maxValue.toInt) :
    InRange (.number (String.ofList (natDigits m))) := by
  intro _
  rwa [String.toList_ofList, ofDigits_natDigits]

/-- The digits of a number that fits spell it. -/
lemma parse_natDigits (fits : (m : Int) ≤ Int64.maxValue.toInt)
    (blankBefore : Text.isAllBlank before = true) (blankAfter : Text.isAllBlank after = true) :
    parse (String.ofList (before ++ natDigits m ++ after)) =
      .ok (.literal (.integer (Int64.ofInt m))) := by
  have lexical : (Token.number (String.ofList (natDigits m))).Lexical := .whole (digits_natDigits m)
  have tokens := Tokens.ofText_lexeme lexical blankBefore blankAfter
  rw [Token.lexeme, String.toList_ofList] at tokens
  have range : ∀ t ∈ [Token.number (String.ofList (natDigits m))], InRange t := by
    simpa using inRange_natDigits fits
  simp only [parse, String.toList_ofList, tokens, List.map_cons, List.map_nil]
  exact ofTokens_eq_ok_of_derives (by simp [maxTokens]) range
    (derives_of_rank_le (by decide) (derives_natDigits _ m))

/-- A minus sign and the digits of a number that fits spell the negation of the number. -/
lemma parse_negated_natDigits (fits : (m : Int) ≤ Int64.maxValue.toInt)
    (blankBefore : Text.isAllBlank before = true) (blankAfter : Text.isAllBlank after = true) :
    parse (String.ofList (before ++ '-' :: natDigits m ++ after)) =
      .ok (.negate (.literal (.integer (Int64.ofInt m)))) := by
  have tokens := Tokens.ofText_negated (digits_natDigits m) blankBefore blankAfter
  have range : ∀ t ∈ [Token.symbol .minus, .number (String.ofList (natDigits m))], InRange t := by
    simpa [InRange] using inRange_natDigits fits
  have operand : Derives .signed 63 [.number (String.ofList (natDigits m))]
      (.literal (.integer (Int64.ofInt m))) :=
    derives_of_rank_le (by decide) (derives_natDigits _ m)
  simp only [parse, String.toList_ofList, tokens, List.map_cons, List.map_nil]
  exact ofTokens_eq_ok_of_derives (by simp [maxTokens]) range
    (derives_of_rank_le (by decide) (.negate operand))

/-- The digits of the least integer do not fit, with a minus sign before them or without. -/
lemma parse_least (blankBefore : Text.isAllBlank before = true)
    (blankAfter : Text.isAllBlank after = true) :
    parse (String.ofList (before ++ '-' :: natDigits Int64.minValue.toInt.natAbs ++ after)) =
      .error (.integerTooLarge "9223372036854775808") := by
  have tokens := Tokens.ofText_negated (digits_natDigits Int64.minValue.toInt.natAbs) blankBefore
    blankAfter
  simp only [parse, String.toList_ofList, tokens, List.map_cons, List.map_nil]
  rfl

/-- A negative integer is the negation of what its digits denote. -/
lemma eval_negate_natAbs {n : Int64} (negative : n.toInt < 0) (other : n ≠ Int64.minValue)
    (scope : Scope) :
    (Expr.negate (.literal (.integer (Int64.ofInt n.toInt.natAbs)))).eval scope =
      .ok (.integer n) := by
  have upper : Int64.maxValue.toInt = 2 ^ 63 - 1 := by decide
  have fits := (natAbs_le_iff n).mpr other
  have denoted : (Int64.ofInt n.toInt.natAbs).toInt = n.toInt.natAbs :=
    Int64.toInt_ofInt_of_le (by omega) (by omega)
  have narrow : narrow? (-(Int64.ofInt n.toInt.natAbs).toInt) = some n := by
    rw [narrow?_eq_some_iff, denoted]
    omega
  have fitting : Value.exactInteger (-(Int64.ofInt n.toInt.natAbs).toInt) = .ok (.integer n) := by
    rw [Value.exactInteger, narrow]
  rw [eval, eval]
  change refuse (Value.exactInteger (-(Int64.ofInt n.toInt.natAbs).toInt)) = _
  rw [fitting]
  rfl

/-- The text of an integer, with any blanks around it, evaluates to the integer in every scope,
unless this is the least integer.  The digits of the least one are those of a number that is too
large, which its text is refused for. -/
theorem evaluateText_integerText (n : Int64) (scope : Scope)
    (blankBefore : Text.isAllBlank before = true) (blankAfter : Text.isAllBlank after = true) :
    let text := String.ofList (before ++ (Value.integer n).toText.toList ++ after)
    (n ≠ Int64.minValue → evaluateText text scope = .ok (.integer n)) ∧
      (n = Int64.minValue → evaluateText text scope =
        .error (.expression text (.form (.integerTooLarge "9223372036854775808")))) := by
  have canonical : (Value.integer n).toText = integerText n := rfl
  intro text
  constructor
  · intro other
    have fits := (natAbs_le_iff n).mpr other
    by_cases negative : n.toInt < 0
    · have spelled := parse_negated_natDigits fits blankBefore blankAfter
      rw [← toList_integerText_of_neg negative, ← canonical] at spelled
      exact evaluateText_of_parse spelled (eval_negate_natAbs negative other scope)
    · have spelled := parse_natDigits fits blankBefore blankAfter
      have denoted : Int64.ofInt n.toInt.natAbs = n := by
        rw [Int.natAbs_of_nonneg (Int.not_lt.mp negative), Int64.ofInt_toInt]
      rw [← toList_integerText_of_nonneg negative, ← canonical, denoted] at spelled
      exact evaluateText_of_parse spelled (eval.eq_1 scope _)
  · rintro rfl
    have refused := parse_least blankBefore blankAfter
    rw [← toList_integerText_of_neg (by decide), ← canonical] at refused
    rw [evaluateText, ofText, refused]
    rfl

/-- The integers next to both ends of the range, with blanks around them. -/
theorem evaluateText_integerText_ends :
    evaluateText " \t9223372036854775807" (fun _ => none) = .ok (.integer Int64.maxValue) ∧
      evaluateText "-9223372036854775807\n" (fun _ => none) =
        .ok (.integer (-9223372036854775807)) := by
  have greatest :
      String.ofList ([' ', '\t'] ++ (Value.integer Int64.maxValue).toText.toList ++ []) =
        " \t9223372036854775807" := by decide
  have lowest : String.ofList ([] ++ (Value.integer (-9223372036854775807)).toText.toList ++
      ['\n']) = "-9223372036854775807\n" := by decide
  rw [← greatest, ← lowest]
  exact ⟨(evaluateText_integerText Int64.maxValue _ (by decide) (by decide)).1 (by decide),
    (evaluateText_integerText (-9223372036854775807) _ (by decide) (by decide)).1 (by decide)⟩

/-- The text of the least integer does not evaluate to it. -/
theorem evaluateText_least :
    (Value.integer Int64.minValue).toText = "-9223372036854775808" ∧
      evaluateText "-9223372036854775808" (fun _ => none) =
        .error (.expression "-9223372036854775808"
          (.form (.integerTooLarge "9223372036854775808"))) := by
  have text : String.ofList ([] ++ '-' :: natDigits Int64.minValue.toInt.natAbs ++ []) =
      "-9223372036854775808" := by decide
  have refused : parse (String.ofList ([] ++ '-' :: natDigits Int64.minValue.toInt.natAbs ++ [])) =
      .error (.integerTooLarge "9223372036854775808") := parse_least rfl rfl
  rw [text] at refused
  refine ⟨by decide, ?_⟩
  rw [evaluateText, ofText, refused]
  rfl

end Expr

end Stencil
