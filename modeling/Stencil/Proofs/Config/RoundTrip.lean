import Stencil.Proofs.Config.Format

/-!
# Writing a configuration and reading it again

A setting can be written on a line when its key and its value are trimmed and on one line each, and
the key is not empty and has no `=` (`Writable`).  These are exactly the settings that a file can
have (`exists_parse_eq_ok_iff`), so a configuration that was read can be written as a file, its
settings in any order and its lines ended either way, and that file says the same again
(`parse_write`).
-/

namespace Stencil.UserConfig

variable {path : String} {line : List Char} {key value : String} {c : UserConfig}

/-! ### Writing -/

/-- The ways to end a line. -/
inductive LineEnding where
  | newline
  | carriageReturnNewline

/-- The characters of a line ending. -/
def LineEnding.text : LineEnding → String
  | .newline => "\n"
  | .carriageReturnNewline => "\r\n"

/-- A setting as a line. -/
def writeLine (setting : String × String) (ending : LineEnding) : String :=
  setting.1 ++ "=" ++ setting.2 ++ ending.text

/-- Settings as the lines of a file. -/
def write (written : List ((String × String) × LineEnding)) : String :=
  String.join (written.map fun w => writeLine w.1 w.2)

/-! ### Settings that can be written -/

/-- What a file can say of a setting. -/
structure Writable (setting : String × String) : Prop where
  key_ne_empty : setting.1 ≠ ""
  key_trimmed : Text.trim setting.1.toList = setting.1.toList
  key_noEquals : '=' ∉ setting.1.toList
  key_oneLine : '\n' ∉ setting.1.toList
  value_trimmed : Text.trim setting.2.toList = setting.2.toList
  value_oneLine : '\n' ∉ setting.2.toList

/-- What a line sets can be written. -/
lemma writable_of_sets (sound : Sound line) (oneLine : '\n' ∉ line) (sets : Sets line key value) :
    Writable (key, value) := by
  obtain ⟨before, after, cut, rfl, rfl⟩ := sets
  obtain ⟨before', after', cut', named⟩ := sound cut.isAllBlank_eq
  obtain ⟨rfl, rfl⟩ := cut.unique cut'
  rw [cut.whole, List.mem_append, List.mem_cons, not_or, not_or] at oneLine
  have key_ne_nil : Text.trim before ≠ [] := by
    rw [Ne, Text.trim_eq_nil_iff, named]
    decide
  refine ⟨?_, ?_, ?_, ?_, ?_, ?_⟩
  · simpa using key_ne_nil
  · simp [Text.trim_trim]
  · simpa using fun mem => cut.first ((Text.trim_infix before).mem mem)
  · simpa using fun mem => oneLine.1 ((Text.trim_infix before).mem mem)
  · simp [Text.trim_trim]
  · simpa using fun mem => oneLine.2.2 ((Text.trim_infix after).mem mem)

/-- Every setting of a file can be written. -/
lemma writable_of_parse {src : String} (h : parse src path = .ok c) :
    ∀ setting ∈ c.pairs, Writable setting := by
  rintro ⟨key, value⟩ mem
  have read := parse_eq_ok_iff.mp h
  have given : c.values.get? key = some value := Table.mem_entries_iff.mp mem
  obtain ⟨earlier, line, later, whole, sets, -⟩ := (get?_of_addLines read).mp given
  have onLine : line ∈ Text.lines src.toList := by simp [whole]
  have sound := (exists_addLines_eq_ok_iff path 1 _ .empty).mp ⟨_, read⟩ line onLine
  exact writable_of_sets sound (Text.newline_notMem_of_mem_lines onLine) sets

/-! ### Reading what was written -/

/-- The line of a setting is read as the setting. -/
lemma Writable.parseLine_eq (h : Writable (key, value)) :
    parseLine (key.toList ++ '=' :: value.toList) = .ok (some (key, value)) := by
  have named : Text.isAllBlank key.toList = false := by
    rw [← Bool.not_eq_true, ← Text.trim_eq_nil_iff, h.key_trimmed]
    simpa using h.key_ne_empty
  rw [parseLine_of_cut ⟨rfl, h.key_noEquals⟩, named, h.key_trimmed, h.value_trimmed]
  simp

/-- A line ending is a newline, with nothing but blanks before it. -/
lemma LineEnding.exists_text_eq (ending : LineEnding) :
    ∃ x, ending.text.toList = x ++ ['\n'] ∧ '\n' ∉ x ∧ Text.isAllBlank x = true := by
  cases ending with
  | newline => exact ⟨[], rfl, by decide, by decide⟩
  | carriageReturnNewline => exact ⟨['\r'], rfl, by decide, by decide⟩

/-- A file that starts with the line of a setting goes on after it, however the line ends. -/
lemma Writable.lines_eq (h : Writable (key, value)) (ending : LineEnding) (rest : List Char) :
    ∃ line, Text.lines ((writeLine (key, value) ending).toList ++ rest) =
        line :: Text.lines rest ∧ parseLine line = .ok (some (key, value)) := by
  obtain ⟨x, ends, noNewline, blank⟩ := ending.exists_text_eq
  have oneLine : '\n' ∉ key.toList ++ '=' :: value.toList ++ x := by
    simp [h.key_oneLine, h.value_oneLine, noNewline]
  have whole : (writeLine (key, value) ending).toList ++ rest =
      (key.toList ++ '=' :: value.toList ++ x) ++ '\n' :: rest := by
    simp [writeLine, ends]
  refine ⟨Text.chomp (key.toList ++ '=' :: value.toList ++ x), ?_, ?_⟩
  · rw [whole, Text.lines_append_newline, Text.splitOn_of_notMem oneLine]
    rfl
  · rw [parseLine_chomp, parseLine_append blank, h.parseLine_eq]

/-- A written file adds its settings one after another. -/
lemma addLines_write {written : List ((String × String) × LineEnding)}
    (h : ∀ w ∈ written, Writable w.1) (n : Nat) (t : Table String String) :
    addLines path n (Text.lines (write written).toList) t =
      .ok (t.insertAll (written.map Prod.fst)) := by
  induction written generalizing n t with
  | nil => rfl
  | cons w rest ih =>
    obtain ⟨⟨key, value⟩, ending⟩ := w
    obtain ⟨first, others⟩ := List.forall_mem_cons.mp h
    obtain ⟨line, cut, read⟩ := first.lines_eq ending (write rest).toList
    have whole : (write (((key, value), ending) :: rest)).toList =
        (writeLine (key, value) ending).toList ++ (write rest).toList := by
      simp [write]
    rw [whole, cut, addLines_cons, read]
    exact ih others (n + 1) _

/-- A configuration whose settings can be written is read again from the file of them, in whatever
order they stand and however their lines end. -/
lemma parse_write_of_writable {written : List ((String × String) × LineEnding)}
    (h : ∀ setting ∈ c.pairs, Writable setting) (order : (written.map Prod.fst).Perm c.pairs)
    (path : String) : parse (write written) path = .ok c := by
  have each : ∀ w ∈ written, Writable w.1 := by
    intro w mem
    exact h w.1 (order.subset (List.mem_map_of_mem mem))
  rw [parse_eq_ok_iff, addLines_write each]
  refine congrArg Except.ok (Table.ext_get? fun key => ?_)
  rw [Table.get?_insertAll_of_perm .empty order, Table.get?_empty, Option.or_none]

/-- Files have exactly the configurations all of whose settings can be written. -/
theorem exists_parse_eq_ok_iff :
    (∃ src, parse src path = .ok c) ↔ ∀ setting ∈ c.pairs, Writable setting := by
  constructor
  · rintro ⟨src, h⟩
    exact writable_of_parse h
  · intro h
    have order : ((c.pairs.map (·, LineEnding.newline)).map Prod.fst).Perm c.pairs := by
      simp [Function.comp_def]
    exact ⟨_, parse_write_of_writable h order path⟩

/-- A configuration that was read from a file is read again from a file with its settings, one on a
line, in whatever order they stand and however their lines end. -/
theorem parse_write {src : String} (h : parse src path = .ok c)
    {written : List ((String × String) × LineEnding)}
    (order : (written.map Prod.fst).Perm c.pairs) (path' : String) :
    parse (write written) path' = .ok c :=
  parse_write_of_writable (writable_of_parse h) order path'

/-- A value with an `=` and a carriage return in it and an empty value are read again, in the other
order and with different line endings. -/
theorem parse_write_reordered :
    let src := "\t a = x=\r y \r\n\nb=\n a = x=\r y\r"
    let c := ofList [("a", "x=\r y"), ("b", "")]
    parse src "p" = .ok c ∧
      parse (write [(("b", ""), .carriageReturnNewline), (("a", "x=\r y"), .newline)]) "q" =
        .ok c := by
  intro src c
  have read : parse src "p" = .ok c := by decide +kernel
  have order : ([(("b", ""), LineEnding.carriageReturnNewline),
      (("a", "x=\r y"), .newline)].map Prod.fst).Perm c.pairs := by
    decide +kernel
  exact ⟨read, parse_write read order "q"⟩

end Stencil.UserConfig
