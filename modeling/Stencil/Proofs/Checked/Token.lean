import Stencil.Proofs.Checked.Slice
import Stencil.Token

/-!
# Reading tokens with checked slices

A reader that works on stored texts finds the end of a token first, as an offset, and slices the
text there.  The four kinds of tokens have their ends found in four ways: strings by a walk over
characters and their offsets, numbers by a walk over bytes, words by a search for the first offset
that does not belong, and symbols by their known lengths.  Each of the offsets is that of a cut
(`stringEnd_eq`, `numberEnd_eq`, `wordEnd_eq`, `symbolLength?_eq`), so that reading a token does not
crash and gives the token of the library (`read_eq`); nor does reading all tokens (`tokens_eq`).
-/

namespace Stencil.Checked

variable {cs : List Char}

/-! ### Strings -/

/-- The offset of the first mark that is not escaped; a backslash that is not escaped escapes what
follows it. -/
def markOffset? (mark : Char) : Bool → List (Nat × Char) → Option Nat
  | _, [] => none
  | escaped, (offset, c) :: rest =>
    if c = '\\' then markOffset? mark (!escaped) rest
    else if c = mark ∧ escaped = false then some offset
    else markOffset? mark false rest

/-- The offset of the mark that ends the string at the start of a text. -/
def stringEnd (mark : Char) (cs : List Char) : Guarded TokenError Nat := do
  let inner ← sliceFrom 1 cs
  match markOffset? mark false (indices inner) with
  | some offset => return offset + 1
  | none => throw (.unterminated (String.ofList (← excerpt cs)))

/-- The walk over offsets ends where the string does. -/
lemma markOffset?_indicesFrom {mark : Char} (ordinary : mark ≠ '\\') (start : Nat)
    (cs : List Char) :
    markOffset? mark false (indicesFrom start cs) =
      (Token.splitQuoted mark cs).map fun p => start + byteLength p.1 := by
  fun_induction Token.splitQuoted mark cs generalizing start with
  | case1 => rfl
  | case2 c rest ih =>
    -- whatever an escaped character is, the walk goes on after it as from the start
    have passed : markOffset? mark false (indicesFrom start ('\\' :: c :: rest)) =
        markOffset? mark false (indicesFrom (start + '\\'.utf8Size + c.utf8Size) rest) := by
      simp [indicesFrom, markOffset?]
    rw [passed, ih]
    cases Token.splitQuoted mark rest <;> simp [Nat.add_assoc]
  | case3 rest _ => simp [indicesFrom, markOffset?, ordinary]
  | case4 c rest notEscape other ih =>
    by_cases escape : c = '\\'
    · -- a backslash that escapes nothing ends the text
      have nothing : rest = [] := by
        cases rest with
        | nil => rfl
        | cons d rest => exact absurd rfl (notEscape d rest escape)
      subst nothing
      simp [indicesFrom, markOffset?, escape, Token.splitQuoted]
    · have passed : markOffset? mark false (indicesFrom start (c :: rest)) =
          markOffset? mark false (indicesFrom (start + c.utf8Size) rest) := by
        simp [indicesFrom, markOffset?, escape, other]
      rw [passed, ih]
      cases Token.splitQuoted mark rest <;> simp [Nat.add_assoc]

/-- The end of a string is found without a crash, and is missing when the string is not closed. -/
lemma stringEnd_eq (mark : Quote) (cs : List Char) :
    stringEnd mark.char (mark.char :: cs) =
      settled (((Token.splitQuoted mark.char cs).map fun p => 1 + byteLength p.1).elim
        (.error (.unterminated (String.ofList (Text.excerpt (mark.char :: cs))))) .ok) := by
  have size : byteLength [mark.char] = 1 := by cases mark <;> decide
  have ordinary : mark.char ≠ '\\' := by cases mark <;> decide
  have inner : sliceFrom 1 (mark.char :: cs) = .ok cs := sliceFrom_eq rfl size
  rw [stringEnd, inner, liftM_ok, pure_bind, indices, markOffset?_indicesFrom ordinary,
    excerpt_eq]
  cases Token.splitQuoted mark.char cs with
  | none => rfl
  | some p => simp [settled_ok, Nat.add_comm]

/-! ### Numbers -/

/-- Whether a byte is that of a digit. -/
def isDigitByte (b : UInt8) : Bool := 48 ≤ b && b ≤ 57

/-- The byte of a point. -/
def pointByte : UInt8 := 46

/-- The bytes from a position on. -/
def bytesFrom (position : Nat) (bs : List UInt8) : Except Crash (List UInt8) :=
  if position ≤ bs.length then .ok (bs.drop position)
  else .error (.index position bs.length)

/-- The offset at which the number at the start of some bytes ends. -/
def numberEnd (bs : List UInt8) : Except Crash Nat :=
  let whole := (bs.takeWhile isDigitByte).length
  if bs[whole]? = some pointByte ∧ bs[whole + 1]?.any isDigitByte then do
    let places ← bytesFrom (whole + 1) bs
    return whole + 1 + (places.takeWhile isDigitByte).length
  else return whole

/-- A character below 128 is a byte of its own, and no other character starts with such a byte. -/
lemma exists_first_byte (c : Char) :
    ∃ b more, String.utf8EncodeChar c = b :: more ∧
      (c.toNat < 128 ∧ b.toNat = c.toNat ∧ more = [] ∨ 128 ≤ c.toNat ∧ 128 ≤ b.toNat) := by
  have large (x mask top : UInt8) (h : 128 ≤ top.toNat) : 128 ≤ (x &&& mask ||| top).toNat := by
    rw [UInt8.toNat_or]
    exact Nat.le_trans h Nat.right_le_or
  have small : c.utf8Size = 1 ↔ c.toNat < 128 := by
    rw [Char.utf8Size_eq_one_iff, UInt32.le_iff_toNat_le]
    exact Nat.lt_succ_iff.symm
  obtain one | two | three | four := c.utf8Size_eq
  · refine ⟨_, _, String.utf8EncodeChar_eq_singleton one, .inl ⟨small.1 one, ?_, rfl⟩⟩
    rw [UInt32.toNat_toUInt8]
    exact Nat.mod_eq_of_lt (Nat.lt_trans (small.1 one) (by decide))
  · exact ⟨_, _, String.utf8EncodeChar_eq_cons_cons two,
      .inr ⟨not_lt.1 (mt small.2 (by omega)), large _ _ _ (by decide)⟩⟩
  · exact ⟨_, _, String.utf8EncodeChar_eq_cons_cons_cons three,
      .inr ⟨not_lt.1 (mt small.2 (by omega)), large _ _ _ (by decide)⟩⟩
  · exact ⟨_, _, String.utf8EncodeChar_eq_cons_cons_cons_cons four,
      .inr ⟨not_lt.1 (mt small.2 (by omega)), large _ _ _ (by decide)⟩⟩

/-- The first byte of a character tells whether the character is a digit or a point. -/
lemma exists_telling_byte (c : Char) :
    ∃ b more, String.utf8EncodeChar c = b :: more ∧ isDigitByte b = c.isDigit ∧
      (b = pointByte ↔ c = '.') ∧ (c.isDigit = true → more = []) := by
  obtain ⟨b, more, encoded, sizes⟩ := exists_first_byte c
  have digitByte : isDigitByte b = true ↔ 48 ≤ b.toNat ∧ b.toNat ≤ 57 := by
    simp [isDigitByte, UInt8.le_iff_toNat_le]
  have digit : c.isDigit = true ↔ 48 ≤ c.toNat ∧ c.toNat ≤ 57 := Char.isDigit_iff_toNat
  have point : b = pointByte ↔ b.toNat = 46 := UInt8.toNat_inj.symm
  have pointChar : c = '.' ↔ c.toNat = 46 := Char.toNat_inj.symm
  refine ⟨b, more, encoded, ?_, ?_, fun isDigit => ?_⟩
  · rw [Bool.eq_iff_iff, digitByte, digit]
    omega
  · rw [point, pointChar]
    omega
  · have := digit.1 isDigit
    obtain ⟨-, -, alone⟩ | ⟨high, -⟩ := sizes
    · exact alone
    · omega

/-- The digits at the start of a text are the digit bytes at the start of its bytes. -/
lemma digits_bytes (cs : List Char) :
    (bytes cs).takeWhile isDigitByte = bytes (cs.takeWhile Char.isDigit) ∧
      (bytes cs).dropWhile isDigitByte = bytes (cs.dropWhile Char.isDigit) := by
  induction cs with
  | nil => exact ⟨rfl, rfl⟩
  | cons c cs ih =>
    obtain ⟨b, more, encoded, digit, -, alone⟩ := exists_telling_byte c
    by_cases h : c.isDigit = true
    · simp [encoded, alone h, digit, h, ih]
    · simp [encoded, digit, h]

lemma length_digits_bytes (cs : List Char) :
    ((bytes cs).takeWhile isDigitByte).length = byteLength (cs.takeWhile Char.isDigit) := by
  rw [(digits_bytes cs).1, byteLength]

lemma encode_point : String.utf8EncodeChar '.' = [pointByte] := by decide

/-- A point and a digit stand at the start of a text when their bytes stand at the start of its
bytes. -/
lemma point_bytes_iff (cs : List Char) :
    (bytes cs)[0]? = some pointByte ∧ (bytes cs)[1]?.any isDigitByte = true ↔
      ∃ d rest, cs = '.' :: d :: rest ∧ d.isDigit = true := by
  cases cs with
  | nil => simp
  | cons c cs =>
    obtain ⟨b, more, encoded, -, point, -⟩ := exists_telling_byte c
    by_cases isPoint : c = '.'
    · subst isPoint
      cases cs with
      | nil => simp [encode_point]
      | cons d rest =>
        obtain ⟨b', more', encoded', digit, -, -⟩ := exists_telling_byte d
        simp [encode_point, encoded', digit]
    · simp [encoded, point, isPoint]

/-- The bytes after the digits at the start of a text. -/
lemma getElem?_afterDigits (cs : List Char) (k : Nat) :
    (bytes cs)[byteLength (cs.takeWhile Char.isDigit) + k]? =
      (bytes (cs.dropWhile Char.isDigit))[k]? := by
  have whole : bytes cs =
      bytes (cs.takeWhile Char.isDigit) ++ bytes (cs.dropWhile Char.isDigit) := by
    rw [← (digits_bytes cs).1, ← (digits_bytes cs).2, List.takeWhile_append_dropWhile]
  rw [whole, byteLength, List.getElem?_append_right (Nat.le_add_right _ _),
    Nat.add_sub_cancel_left]

/-- The digits that follow a point are sliced without a crash. -/
lemma bytesFrom_places {cs places : List Char}
    (tail : cs.dropWhile Char.isDigit = '.' :: places) :
    bytesFrom (byteLength (cs.takeWhile Char.isDigit) + 1) (bytes cs) = .ok (bytes places) := by
  have whole : bytes cs =
      bytes (cs.takeWhile Char.isDigit) ++ [pointByte] ++ bytes places := by
    conv_lhs => rw [← List.takeWhile_append_dropWhile (p := Char.isDigit) (l := cs), tail]
    simp [bytes, encode_point]
  have size : byteLength (cs.takeWhile Char.isDigit) + 1 =
      (bytes (cs.takeWhile Char.isDigit) ++ [pointByte]).length := by
    rw [List.length_append, byteLength, List.length_singleton]
  have inside : byteLength (cs.takeWhile Char.isDigit) + 1 ≤ (bytes cs).length := by
    rw [size, whole]
    exact (List.prefix_append _ _).length_le
  rw [bytesFrom, if_pos inside, whole, List.drop_left' size.symm]

/-- Numbers end at a cut: the end found among the bytes is that among the characters. -/
lemma numberEnd_eq (cs : List Char) :
    numberEnd (bytes cs) = .ok (byteLength (Token.splitNumber cs).1) := by
  have condition :
      ((bytes cs)[((bytes cs).takeWhile isDigitByte).length]? = some pointByte ∧
        (bytes cs)[((bytes cs).takeWhile isDigitByte).length + 1]?.any isDigitByte = true) ↔
      ∃ d rest, cs.dropWhile Char.isDigit = '.' :: d :: rest ∧ d.isDigit = true := by
    rw [← point_bytes_iff, ← getElem?_afterDigits, ← getElem?_afterDigits, length_digits_bytes]
    rfl
  unfold numberEnd
  by_cases point : ∃ d rest, cs.dropWhile Char.isDigit = '.' :: d :: rest ∧ d.isDigit = true
  · rw [if_pos (condition.2 point), length_digits_bytes]
    obtain ⟨d, rest, tail, digit⟩ := point
    have split : (Token.splitNumber cs).1 =
        cs.takeWhile Char.isDigit ++ '.' :: (d :: rest).takeWhile Char.isDigit := by
      simp [Token.splitNumber, tail, digit]
    have size : byteLength (Token.splitNumber cs).1 =
        byteLength (cs.takeWhile Char.isDigit) + 1 +
          byteLength ((d :: rest).takeWhile Char.isDigit) := by
      rw [split, byteLength_append, byteLength_cons, ← Nat.add_assoc]
      rfl
    rw [bytesFrom_places tail, size, ← length_digits_bytes (d :: rest)]
    rfl
  · rw [if_neg (mt condition.1 point), length_digits_bytes]
    have split : (Token.splitNumber cs).1 = cs.takeWhile Char.isDigit := by
      unfold Token.splitNumber
      split
      · next d rest tail =>
        rw [if_neg fun digit => point ⟨d, rest, tail, digit⟩]
      · rfl
    rw [split]
    rfl

/-! ### Words -/

/-- The offset of the first character that does not belong to the word at the start of a text, or
the end of the text. -/
def wordEnd (cs : List Char) : Nat :=
  match (indices cs).find? fun p => !Text.isWordChar p.2 with
  | some (offset, _) => offset
  | none => byteLength cs

lemma find?_indicesFrom (start : Nat) (cs : List Char) :
    ((indicesFrom start cs).find? fun p => !Text.isWordChar p.2).map Prod.fst =
      if cs.all Text.isWordChar then none
      else some (start + byteLength (cs.takeWhile Text.isWordChar)) := by
  induction cs generalizing start with
  | nil => rfl
  | cons c cs ih =>
    by_cases word : Text.isWordChar c = true
    · simp [indicesFrom, word, ih, Nat.add_assoc]
    · simp [indicesFrom, word]

/-- Words end at a cut. -/
lemma wordEnd_eq (cs : List Char) : wordEnd cs = byteLength (cs.takeWhile Text.isWordChar) := by
  have found := find?_indicesFrom 0 cs
  rw [Nat.zero_add] at found
  unfold wordEnd indices
  by_cases all : cs.all Text.isWordChar = true
  · rw [if_pos all, Option.map_eq_none_iff] at found
    rw [found, List.takeWhile_eq_self_iff.2 (List.all_eq_true.1 all)]
  · rw [if_neg all, Option.map_eq_some_iff] at found
    obtain ⟨⟨offset, c⟩, first, same⟩ := found
    rw [first]
    exact same

/-! ### Symbols -/

/-- The symbols of two characters. -/
def doubleSymbols : List Symbol :=
  [.equal, .notEqual, .atMost, .atLeast, .floorDivide, .and, .or]

/-- The symbols of one character. -/
def singleSymbols : List Symbol :=
  [.plus, .minus, .times, .divide, .remainder, .less, .greater, .not,
    .openParen, .closeParen, .openBracket, .closeBracket, .comma, .dot]

/-- How long the symbol at the start of a text is, if there is one. -/
def symbolLength? (cs : List Char) : Option Nat :=
  if doubleSymbols.any fun s => s.spelling.toList.isPrefixOf cs then some 2
  else (cs.head?.filter (singleSymbols.flatMap fun s => s.spelling.toList).contains).map fun _ => 1

/-- The symbol that a text spells; no other text is cut off as a symbol. -/
def spelled (value : List Char) : Except Crash Symbol :=
  match Symbol.all.find? fun s => s.spelling.toList = value with
  | some s => .ok s
  | none => .error .unreachable

lemma spelled_spelling (s : Symbol) : spelled s.spelling.toList = .ok s := by
  cases s <;> decide

/-- Which of some symbols of one byte a text starts with shows in its first character. -/
lemma map_find?_single {symbols : List Symbol}
    (single : ∀ s ∈ symbols, s.spelling.toList.length = 1 ∧ byteLength s.spelling.toList = 1)
    (cs : List Char) :
    (symbols.find? fun s => s.spelling.toList.isPrefixOf cs).map
        (fun s => byteLength s.spelling.toList) =
      (cs.head?.filter (symbols.flatMap fun s => s.spelling.toList).contains).map fun _ => 1 := by
  cases cs with
  | nil =>
    have absent : (symbols.find? fun s => s.spelling.toList.isPrefixOf []) = none :=
      List.find?_eq_none.2 fun s _ starts =>
        s.spelling_ne_nil (List.prefix_nil.1 (List.isPrefixOf_iff_prefix.1 starts))
    rw [absent]
    rfl
  | cons c cs =>
    rw [List.head?_cons, Option.filter_some]
    induction symbols with
    | nil => rfl
    | cons s symbols ih =>
      obtain ⟨length, size⟩ := single s List.mem_cons_self
      obtain ⟨x, spelling⟩ := List.length_eq_one_iff.1 length
      have rest := ih fun t member => single t (List.mem_cons_of_mem s member)
      by_cases first : x = c
      · simp [spelling, first, ← size]
      · simpa [List.find?_cons, spelling, first, Ne.symm first] using rest

/-- Symbols end at a cut: the length found is that of the first symbol the text starts with. -/
lemma symbolLength?_eq (cs : List Char) :
    symbolLength? cs = (Symbol.startOf? cs).map fun s => byteLength s.spelling.toList := by
  have all : Symbol.all = doubleSymbols ++ singleSymbols := rfl
  have double : ∀ s ∈ doubleSymbols, byteLength s.spelling.toList = 2 := by decide
  have single : ∀ s ∈ singleSymbols,
      s.spelling.toList.length = 1 ∧ byteLength s.spelling.toList = 1 := by decide
  unfold symbolLength? Symbol.startOf?
  rw [all, List.find?_append]
  cases found : doubleSymbols.find? fun s => s.spelling.toList.isPrefixOf cs with
  | some s =>
    have starts := List.find?_some found
    have some_starts : (doubleSymbols.any fun s => s.spelling.toList.isPrefixOf cs) = true :=
      List.any_eq_true.2 ⟨s, List.mem_of_find?_eq_some found, starts⟩
    rw [if_pos some_starts, Option.some_or, Option.map_some,
      double s (List.mem_of_find?_eq_some found)]
  | none =>
    have none_starts : (doubleSymbols.any fun s => s.spelling.toList.isPrefixOf cs) = false :=
      List.any_eq_false.2 (List.find?_eq_none.1 found)
    rw [none_starts, Option.none_or, map_find?_single single]
    rfl

/-! ### One token, and all of them -/

/-- The text before an offset and the text from there on. -/
def sliceAt (offset : Nat) (cs : List Char) : Except Crash (List Char × List Char) := do
  return (← sliceTo offset cs, ← sliceFrom offset cs)

/-- The string at the start of a text and what follows it. -/
def readQuoted (mark : Quote) (cs : List Char) : Guarded TokenError (Token × List Char) := do
  let stop ← stringEnd mark.char cs
  let raw ← slice 1 stop cs
  let rest ← sliceFrom (stop + 1) cs
  return (.quoted mark (String.ofList raw), rest)

/-- The token at the start of a text and what follows it; none when the text is empty. -/
def read (cs : List Char) : Guarded TokenError (Option (Token × List Char)) :=
  match cs.head? with
  | none => return none
  | some first =>
    match Quote.ofChar? first with
    | some mark => do return some (← readQuoted mark cs)
    | none =>
      if first.isDigit then do
        let (digits, rest) ← sliceAt (← numberEnd (bytes cs)) cs
        return some (.number (String.ofList digits), rest)
      else if Text.startsWord first then do
        let (name, rest) ← sliceAt (wordEnd cs) cs
        return some (.word (String.ofList name), rest)
      else
        match symbolLength? cs with
        | some length => do
          let (value, rest) ← sliceAt length cs
          return some (.symbol (← spelled value), rest)
        | none => throw (.unexpected first)

lemma sliceAt_eq {front back : List Char} {n : Nat} (whole : front ++ back = cs)
    (size : byteLength front = n) : sliceAt n cs = .ok (front, back) := by
  rw [sliceAt, sliceTo_eq whole size, sliceFrom_eq whole size]
  rfl

/-- Reading a string does not crash: both its marks take one byte. -/
lemma readQuoted_eq (mark : Quote) (cs : List Char) :
    readQuoted mark (mark.char :: cs) =
      settled ((Token.splitQuoted mark.char cs).elim
        (.error (.unterminated (String.ofList (Text.excerpt (mark.char :: cs)))))
        fun p => .ok (.quoted mark (String.ofList p.1), p.2)) := by
  rw [readQuoted, stringEnd_eq]
  cases split : Token.splitQuoted mark.char cs with
  | none => rfl
  | some p =>
    have closed : [mark.char] ++ p.1 ++ [mark.char] ++ p.2 = mark.char :: cs := by
      rw [← Token.append_of_splitQuoted split]
      simp
    have size : byteLength [mark.char] = 1 := by cases mark <;> decide
    have opened : [mark.char] ++ p.1 ++ mark.char :: p.2 = mark.char :: cs := by
      rw [← Token.append_of_splitQuoted split]
      simp
    have raw : slice 1 (1 + byteLength p.1) (mark.char :: cs) = .ok p.1 :=
      slice_eq opened size (by rw [byteLength_append, size])
    have rest : sliceFrom (1 + byteLength p.1 + 1) (mark.char :: cs) = .ok p.2 :=
      sliceFrom_eq closed (by rw [byteLength_append, byteLength_append, size])
    simp only [Option.map_some, Option.elim_some, settled_ok, pure_bind, raw, rest, liftM_ok]

/-- Reading a token does not crash, whatever the text is, and reads the token of the library. -/
theorem read_eq (cs : List Char) : read cs = settled (Token.read cs) := by
  cases cs with
  | nil => rfl
  | cons c cs =>
    simp only [read, List.head?_cons, Token.read]
    cases quote : Quote.ofChar? c with
    | some mark =>
      obtain rfl := Quote.ofChar?_eq_some_iff.1 quote
      dsimp only
      rw [readQuoted_eq]
      cases Token.splitQuoted mark.char cs <;> rfl
    | none =>
      dsimp only
      split
      · have number := sliceAt_eq (Token.append_splitNumber (c :: cs)) rfl
        rw [numberEnd_eq, liftM_ok, pure_bind, number]
        rfl
      · split
        · have word := sliceAt_eq
            (List.takeWhile_append_dropWhile (p := Text.isWordChar) (l := c :: cs)) rfl
          rw [wordEnd_eq, word]
          rfl
        · rw [symbolLength?_eq]
          cases start : Symbol.startOf? (c :: cs) with
          | none => rfl
          | some s =>
            have symbol := sliceAt_eq (Symbol.append_drop_of_startOf? start) rfl
            dsimp only [Option.map_some]
            rw [symbol, liftM_ok, pure_bind]
            dsimp only
            rw [spelled_spelling]
            rfl

/-- The tokens of a text without leading blanks, read one after another. -/
def tokensOfTrimmed (cs : List Char) : Except Crash Tokens :=
  match _ : (read cs).run with
  | .error crash => .error crash
  | .ok (.error e) => .ok ⟨[], some e⟩
  | .ok (.ok none) => .ok ⟨[], none⟩
  | .ok (.ok (some (t, rest))) => do
    let more ← tokensOfTrimmed (Text.trimStart rest)
    return ⟨(t, Text.trimStart rest) :: more.items, more.fault⟩
termination_by cs.length
decreasing_by
  have found : Token.read cs = .ok (some (t, rest)) :=
    Except.ok.inj ((read_eq cs).symm.trans ‹_›)
  exact Nat.lt_of_le_of_lt (Text.length_trimStart_le rest) (Token.length_lt_of_read found)

/-- The tokens of a text. -/
def tokens (cs : List Char) : Except Crash Tokens := tokensOfTrimmed (Text.trim cs)

lemma tokensOfTrimmed_eq (cs : List Char) :
    tokensOfTrimmed cs = .ok (Tokens.ofTrimmed cs) := by
  have reads (cs : List Char) : (read cs).run = .ok (Token.read cs) := by
    rw [read_eq]
    rfl
  fun_induction tokensOfTrimmed cs with
  | case1 cs crash stopped =>
    rw [reads] at stopped
    cases stopped
  | case2 cs e refused =>
    have refused := Except.ok.inj ((reads cs).symm.trans refused)
    rw [Tokens.ofTrimmed]
    split <;> simp_all
  | case3 cs ended =>
    have ended := Except.ok.inj ((reads cs).symm.trans ended)
    rw [Tokens.ofTrimmed]
    split <;> simp_all
  | case4 cs t rest found ih =>
    have found := Except.ok.inj ((reads cs).symm.trans found)
    rw [ih]
    conv_rhs => rw [Tokens.ofTrimmed]
    split
    · simp_all
    · simp_all
    · next t' rest' found' =>
      obtain ⟨rfl, rfl⟩ : t' = t ∧ rest' = rest := by simpa [found] using found'.symm
      rfl

/-- Reading all tokens does not crash. -/
theorem tokens_eq (cs : List Char) : tokens cs = .ok (Tokens.ofText cs) :=
  tokensOfTrimmed_eq (Text.trim cs)

end Stencil.Checked
