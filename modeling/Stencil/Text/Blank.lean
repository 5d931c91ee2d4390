/-!
# Blank characters and trimming

A character is blank when it has the Unicode property `White_Space`.  Trimming removes blanks from
the ends of a text and nothing else: `trim_eq_append` splits every text into its leading blanks,
its trimmed middle and its trailing blanks.

Texts are handled as lists of characters throughout the library; `String` appears only where a
text is handed out.
-/

namespace Stencil.Text

/-- A character with the Unicode property `White_Space`. -/
def isBlank (c : Char) : Bool :=
  let n := c.toNat
  (9 ≤ n && n ≤ 13) || n == 0x20 || n == 0x85 || n == 0xa0 || n == 0x1680 ||
    (0x2000 ≤ n && n ≤ 0x200a) || n == 0x2028 || n == 0x2029 || n == 0x202f ||
    n == 0x205f || n == 0x3000

/-- The text without its leading blanks. -/
def trimStart (cs : List Char) : List Char :=
  cs.dropWhile isBlank

/-- The text without its trailing blanks. -/
def trimEnd (cs : List Char) : List Char :=
  (cs.reverse.dropWhile isBlank).reverse

/-- The text without the blanks at either end. -/
def trim (cs : List Char) : List Char :=
  trimEnd (trimStart cs)

/-- A text of blanks only. -/
def isAllBlank (cs : List Char) : Bool :=
  cs.all isBlank

/-! ### What trimming keeps -/

theorem isBlank_newline : isBlank '\n' = true := by decide

theorem takeWhile_append_trimStart (cs : List Char) :
    cs.takeWhile isBlank ++ trimStart cs = cs :=
  List.takeWhile_append_dropWhile

theorem length_trimStart_le (cs : List Char) : (trimStart cs).length ≤ cs.length :=
  (List.dropWhile_sublist _).length_le

/-- Every text is its trimmed form followed by blanks. -/
theorem trimEnd_append (cs : List Char) :
    trimEnd cs ++ (cs.reverse.takeWhile isBlank).reverse = cs := by
  rw [trimEnd, ← List.reverse_append, List.takeWhile_append_dropWhile, List.reverse_reverse]

/-- Every text is blanks, its trimmed form, and blanks again. -/
theorem trim_eq_append (cs : List Char) :
    cs.takeWhile isBlank ++
      (trim cs ++ ((trimStart cs).reverse.takeWhile isBlank).reverse) = cs := by
  rw [trim, trimEnd_append, takeWhile_append_trimStart]

end Stencil.Text
