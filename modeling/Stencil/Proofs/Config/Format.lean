import Stencil.Config
import Stencil.Proofs.Result
import Stencil.Proofs.Text.Lines
import Stencil.Proofs.Text.Trim
import Mathlib.Data.List.Induction

/-!
# What a configuration file says

A line is cut at its first `=` (`Cut`), and the trimmed texts on both sides are the key and the
value that it sets (`Sets`).  A file is accepted exactly when every line that is not blank has some
text before its first `=`; the last line that sets a key decides its value, and otherwise the first
line of another form is the error (`parse_of_lines`).

Lines are read one after another, so what a file says and a file after it go together: the settings
of the second are put over those of the first (`addLines_eq_map_merge`), and the number of a line is
counted from the start of the first (`addLines_shift`).
-/

namespace Stencil

/-- The error with more lines before it. -/
def ConfigError.shift (more : Nat) (e : ConfigError) : ConfigError :=
  { e with line := more + e.line }

namespace UserConfig

variable {path key value : String} {line before after : List Char} {lines : List (List Char)}
  {problem : ConfigProblem} {setting : Option (String × String)} {e : ConfigError}
  {t u : Table String String}

/-- The settings of two configurations; where both have a key, the second wins. -/
def merge (c other : UserConfig) : UserConfig := ⟨c.values.merge other.values⟩

/-! ### The form of a line -/

/-- The line has these texts before and after its first `=`. -/
structure Cut (line before after : List Char) : Prop where
  whole : line = before ++ '=' :: after
  first : '=' ∉ before

/-- The line sets the key to the value. -/
def Sets (line : List Char) (key value : String) : Prop :=
  ∃ before after, Cut line before after ∧
    key = String.ofList (Text.trim before) ∧ value = String.ofList (Text.trim after)

/-- The line is blank or has some text before its first `=`. -/
def Sound (line : List Char) : Prop :=
  Text.isAllBlank line = false →
    ∃ before after, Cut line before after ∧ Text.isAllBlank before = false

/-- What is wrong with a line. -/
inductive Offends (line : List Char) : ConfigProblem → Prop
  | missingEquals (text : Text.isAllBlank line = false) (noEquals : '=' ∉ line) :
      Offends line .missingEquals
  | emptyKey {before after : List Char} (cut : Cut line before after)
      (noText : Text.isAllBlank before = true) : Offends line .emptyKey

/-- A line has no `=`, or it is cut at its first one. -/
lemma cut_cases (line : List Char) : '=' ∉ line ∨ ∃ before after, Cut line before after := by
  by_cases h : '=' ∈ line
  · obtain ⟨before, after, whole, first⟩ := List.eq_append_cons_of_mem h
    exact .inr ⟨before, after, whole, first⟩
  · exact .inl h

/-- The text before the first `=` is what is taken up to it, and the rest follows. -/
lemma Cut.takeWhile_eq (h : Cut line before after) :
    line.takeWhile (· != '=') = before ∧ line.dropWhile (· != '=') = '=' :: after := by
  have others : ∀ c ∈ before, (c != '=') = true := by
    intro c mem
    exact bne_iff_ne.mpr (ne_of_mem_of_not_mem mem h.first)
  rw [h.whole, List.takeWhile_append_of_pos others, List.dropWhile_append_of_pos others]
  simp

/-- A line is cut in one way. -/
lemma Cut.unique {before' after' : List Char} (h : Cut line before after)
    (h' : Cut line before' after') : before = before' ∧ after = after' := by
  have same := h.takeWhile_eq.2.symm.trans h'.takeWhile_eq.2
  exact ⟨h.takeWhile_eq.1.symm.trans h'.takeWhile_eq.1, (List.cons.inj same).2⟩

/-- A line with an `=` is not blank. -/
lemma Cut.isAllBlank_eq (h : Cut line before after) : Text.isAllBlank line = false := by
  have notBlank : Text.isBlank '=' = false := by decide
  simp [h.whole, Text.isAllBlank, notBlank]

/-! ### Reading a line -/

/-- A line with an `=` is read as the trimmed texts on both sides of it. -/
lemma parseLine_of_cut (h : Cut line before after) :
    parseLine line =
      if Text.isAllBlank before then .error .emptyKey
      else .ok (some (String.ofList (Text.trim before), String.ofList (Text.trim after))) := by
  have empty : (Text.trim before).isEmpty = Text.isAllBlank before := by
    rw [Bool.eq_iff_iff, List.isEmpty_iff, Text.trim_eq_nil_iff]
  unfold parseLine
  rw [h.isAllBlank_eq, h.takeWhile_eq.1, h.takeWhile_eq.2]
  simp only [Bool.false_eq_true, if_false, empty]

/-- A line without an `=` sets nothing. -/
lemma parseLine_of_notMem (h : '=' ∉ line) :
    parseLine line = if Text.isAllBlank line then .ok none else .error .missingEquals := by
  have nothing : line.dropWhile (· != '=') = [] := by
    refine List.dropWhile_eq_nil_iff.mpr fun c mem => ?_
    exact bne_iff_ne.mpr (ne_of_mem_of_not_mem mem h)
  unfold parseLine
  rw [nothing]

/-- A line is read with an error exactly when that is wrong with it. -/
lemma parseLine_eq_error_iff : parseLine line = .error problem ↔ Offends line problem := by
  constructor
  · intro failed
    obtain noEquals | ⟨before, after, cut⟩ := cut_cases line
    · rw [parseLine_of_notMem noEquals] at failed
      split at failed
      · cases failed
      · next text =>
        cases failed
        exact .missingEquals (Bool.eq_false_iff.mpr text) noEquals
    · rw [parseLine_of_cut cut] at failed
      split at failed
      · next noText =>
        cases failed
        exact .emptyKey cut noText
      · cases failed
  · rintro (⟨text, noEquals⟩ | ⟨cut, noText⟩)
    · rw [parseLine_of_notMem noEquals, text]
      rfl
    · rw [parseLine_of_cut cut, noText]
      rfl

/-- A line is read without an error exactly when it is blank or has some text before its first
`=`. -/
lemma exists_parseLine_eq_ok_iff : (∃ setting, parseLine line = .ok setting) ↔ Sound line := by
  constructor
  · rintro ⟨setting, read⟩ text
    obtain noEquals | ⟨before, after, cut⟩ := cut_cases line
    · rw [parseLine_of_notMem noEquals, text] at read
      cases read
    · refine ⟨before, after, cut, ?_⟩
      rw [parseLine_of_cut cut] at read
      split at read
      · cases read
      · next named => exact Bool.eq_false_iff.mpr named
  · intro sound
    cases text : Text.isAllBlank line with
    | true =>
      refine ⟨none, ?_⟩
      rw [parseLine, text]
      rfl
    | false =>
      obtain ⟨before, after, cut, named⟩ := sound text
      rw [parseLine_of_cut cut, named]
      exact ⟨_, rfl⟩

/-- What a line is read as is what it sets. -/
lemma sets_iff (read : parseLine line = .ok setting) :
    Sets line key value ↔ setting = some (key, value) := by
  obtain noEquals | ⟨before, after, cut⟩ := cut_cases line
  · rw [parseLine_of_notMem noEquals] at read
    split at read
    · cases read
      refine ⟨fun ⟨before, after, cut, _⟩ => ?_, nofun⟩
      exact absurd (by simp [cut.whole]) noEquals
    · cases read
  · rw [parseLine_of_cut cut] at read
    split at read
    · cases read
    · cases read
      constructor
      · rintro ⟨before', after', cut', rfl, rfl⟩
        obtain ⟨rfl, rfl⟩ := cut.unique cut'
        rfl
      · intro same
        cases same
        exact ⟨before, after, cut, rfl, rfl⟩

/-- Blanks at the end of a line make no difference. -/
lemma parseLine_append {x : List Char} (blank : Text.isAllBlank x = true) (line : List Char) :
    parseLine (line ++ x) = parseLine line := by
  obtain noEquals | ⟨before, after, cut⟩ := cut_cases line
  · have noEquals' : '=' ∉ line ++ x := by
      rw [List.mem_append, not_or]
      refine ⟨noEquals, fun mem => ?_⟩
      have isBlank := Text.isAllBlank_iff.mp blank '=' mem
      revert isBlank
      decide
    rw [parseLine_of_notMem noEquals, parseLine_of_notMem noEquals', Text.isAllBlank_append, blank,
      Bool.and_true]
  · have cut' : Cut (line ++ x) before (after ++ x) := ⟨by simp [cut.whole], cut.first⟩
    rw [parseLine_of_cut cut, parseLine_of_cut cut', Text.trim_append blank]

/-- A carriage return at the end of a line makes no difference. -/
lemma parseLine_chomp (line : List Char) : parseLine (Text.chomp line) = parseLine line := by
  obtain ⟨ending, isEnding, whole⟩ := Text.exists_chomp_append line
  have blank : Text.isAllBlank ending = true := by
    obtain rfl | rfl := isEnding <;> decide
  conv_rhs => rw [whole, parseLine_append blank]

/-! ### Reading lines -/

/-- The first line is read, and its setting is added before the others are read. -/
lemma addLines_cons (path : String) (n : Nat) (line : List Char) (rest : List (List Char))
    (t : Table String String) :
    addLines path n (line :: rest) t =
      (parseLine line).mapError (⟨path, n, ·⟩) >>= fun setting =>
        addLines path (n + 1) rest (t.insertAll setting.toList) := by
  rw [addLines]
  rcases parseLine line with _ | _ | ⟨key, value⟩ <;> rfl

/-- Lines are read one part after the other. -/
lemma addLines_append (path : String) (n : Nat) (xs ys : List (List Char))
    (t : Table String String) :
    addLines path n (xs ++ ys) t =
      addLines path n xs t >>= addLines path (n + xs.length) ys := by
  induction xs generalizing n t with
  | nil => rfl
  | cons line xs ih =>
    have count : n + 1 + xs.length = n + (line :: xs).length := by
      rw [List.length_cons]
      omega
    simp only [List.cons_append, addLines_cons, ih, bind_assoc, count]

/-- More lines before the first one only change the number in an error. -/
lemma addLines_shift (path : String) (more n : Nat) (lines : List (List Char))
    (t : Table String String) :
    addLines path (more + n) lines t = (addLines path n lines t).mapError (·.shift more) := by
  induction lines generalizing n t with
  | nil => rfl
  | cons line rest ih =>
    rw [addLines_cons, addLines_cons]
    cases parseLine line with
    | error problem => rfl
    | ok setting => exact ih (n + 1) _

/-- Settings that are there already are kept, unless they are set again. -/
lemma addLines_eq_map_merge (path : String) (n : Nat) (lines : List (List Char))
    (t : Table String String) :
    addLines path n lines t = (addLines path n lines .empty).map t.merge := by
  induction lines generalizing n t with
  | nil =>
    have merged : t.merge .empty = t := rfl
    rw [addLines, addLines, Except.map, merged]
  | cons line rest ih =>
    rw [addLines_cons, addLines_cons]
    cases parseLine line with
    | error problem => rfl
    | ok setting =>
      change addLines path (n + 1) rest (t.insertAll setting.toList) =
        (addLines path (n + 1) rest (Table.empty.insertAll setting.toList)).map t.merge
      rw [ih, ih (n + 1) (Table.empty.insertAll _)]
      have both (u : Table String String) : (t.insertAll setting.toList).merge u =
          t.merge ((Table.empty.insertAll setting.toList).merge u) := by
        apply Table.ext_get?
        intro k
        simp [Table.get?_insertAll, Option.or_assoc]
      cases addLines path (n + 1) rest .empty with
      | error e => rfl
      | ok u => exact congrArg Except.ok (both u)

/-! ### Which lines are read -/

/-- The error says what is wrong with the first line that is wrong; the first line of all has the
number `n`. -/
def FirstOffence (path : String) (n : Nat) (lines : List (List Char)) (e : ConfigError) : Prop :=
  ∃ earlier line later problem, lines = earlier ++ line :: later ∧
    (∀ sound ∈ earlier, Sound sound) ∧ Offends line problem ∧
    e = ⟨path, n + earlier.length, problem⟩

/-- Lines are read without an error exactly when each of them can be. -/
lemma exists_addLines_eq_ok_iff (path : String) (n : Nat) (lines : List (List Char))
    (t : Table String String) :
    (∃ u, addLines path n lines t = .ok u) ↔ ∀ line ∈ lines, Sound line := by
  induction lines generalizing n t with
  | nil => exact ⟨fun _ => by simp, fun _ => ⟨t, rfl⟩⟩
  | cons line rest ih =>
    rw [addLines_cons, List.forall_mem_cons, ← exists_parseLine_eq_ok_iff]
    cases read : parseLine line with
    | error problem => exact ⟨nofun, nofun⟩
    | ok setting =>
      exact (ih (n + 1) (t.insertAll setting.toList)).trans ⟨fun h => ⟨⟨_, rfl⟩, h⟩, fun h => h.2⟩

/-- A sound line does not offend. -/
lemma Sound.not_offends (h : Sound line) : ¬ Offends line problem := by
  obtain ⟨setting, read⟩ := exists_parseLine_eq_ok_iff.mpr h
  rw [← parseLine_eq_error_iff, read]
  nofun

/-- The first line is wrong, or else it is sound and a later one is the first that is wrong. -/
lemma firstOffence_cons {n : Nat} : FirstOffence path n (line :: lines) e ↔
    (∃ problem, Offends line problem ∧ e = ⟨path, n, problem⟩) ∨
      Sound line ∧ FirstOffence path (n + 1) lines e := by
  constructor
  · rintro ⟨_ | ⟨first, earlier⟩, offending, later, problem, whole, sound, offends, rfl⟩
    · cases whole
      exact .inl ⟨problem, offends, rfl⟩
    · cases whole
      obtain ⟨soundFirst, others⟩ := List.forall_mem_cons.mp sound
      refine .inr ⟨soundFirst, earlier, offending, later, problem, rfl, others, offends, ?_⟩
      rw [List.length_cons, Nat.add_right_comm, Nat.add_assoc]
  · rintro (⟨problem, offends, rfl⟩ | ⟨sound, earlier, offending, later, problem, rfl, others,
      offends, rfl⟩)
    · exact ⟨[], line, lines, problem, rfl, by simp, offends, rfl⟩
    · refine ⟨line :: earlier, offending, later, problem, rfl, ?_, offends, ?_⟩
      · exact List.forall_mem_cons.mpr ⟨sound, others⟩
      · rw [List.length_cons, Nat.add_right_comm, Nat.add_assoc]

/-- The error of lines is about the first one that is wrong. -/
lemma addLines_eq_error_iff {n : Nat} :
    addLines path n lines t = .error e ↔ FirstOffence path n lines e := by
  induction lines generalizing n t with
  | nil =>
    refine ⟨nofun, fun ⟨earlier, line, later, problem, whole, _⟩ => ?_⟩
    simp at whole
  | cons line rest ih =>
    rw [addLines_cons, firstOffence_cons]
    simp only [← parseLine_eq_error_iff]
    cases read : parseLine line with
    | error problem =>
      have notSound : ¬ Sound line := fun sound =>
        sound.not_offends (parseLine_eq_error_iff.mp read)
      change Except.error _ = Except.error e ↔ _
      simp [notSound, eq_comm]
    | ok setting =>
      have sound : Sound line := exists_parseLine_eq_ok_iff.mp ⟨setting, read⟩
      change addLines path (n + 1) rest (t.insertAll setting.toList) = .error e ↔ _
      simp [sound, ih]

/-! ### Which lines count -/

/-- The last line that sets the key sets it to the value. -/
def LastSets (lines : List (List Char)) (key value : String) : Prop :=
  ∃ earlier line later, lines = earlier ++ line :: later ∧ Sets line key value ∧
    ∀ other ∈ later, ∀ value', ¬ Sets other key value'

/-- The last line counts if it sets the key, and otherwise those before it. -/
lemma lastSets_concat : LastSets (lines ++ [line]) key value ↔
    Sets line key value ∨ (∀ value', ¬ Sets line key value') ∧ LastSets lines key value := by
  constructor
  · rintro ⟨earlier, other, later, whole, sets, last⟩
    obtain rfl | ⟨later', final, rfl⟩ := List.eq_nil_or_concat later
    · obtain ⟨rfl, same⟩ := List.append_inj' whole rfl
      cases same
      exact .inl sets
    · have cut : lines ++ [line] = (earlier ++ other :: later') ++ [final] := by simp [whole]
      obtain ⟨rfl, same⟩ := List.append_inj' cut rfl
      cases same
      refine .inr ⟨last line (by simp), earlier, other, later', rfl, sets, ?_⟩
      exact fun other' mem => last other' (by simp [mem])
  · rintro (sets | ⟨quiet, earlier, other, later, rfl, sets, last⟩)
    · exact ⟨lines, line, [], rfl, sets, by simp⟩
    · refine ⟨earlier, other, later ++ [line], by simp, sets, ?_⟩
      intro other' mem
      rcases List.mem_append.mp mem with mem | mem
      · exact last other' mem
      · exact List.mem_singleton.mp mem ▸ quiet

/-- If any line sets the key, there is a last one. -/
lemma exists_lastSets_iff :
    (∃ value, LastSets lines key value) ↔ ∃ line ∈ lines, ∃ value, Sets line key value := by
  constructor
  · rintro ⟨value, earlier, line, later, rfl, sets, -⟩
    exact ⟨line, by simp, value, sets⟩
  · induction lines using List.reverseRecOn with
    | nil => simp
    | append_singleton lines line ih =>
      rintro ⟨other, mem, value, sets⟩
      simp only [lastSets_concat]
      by_cases quiet : ∃ value', Sets line key value'
      · exact quiet.imp fun value' sets' => .inl sets'
      · rcases List.mem_append.mp mem with mem | mem
        · obtain ⟨value', last⟩ := ih ⟨other, mem, value, sets⟩
          exact ⟨value', .inr ⟨not_exists.mp quiet, last⟩⟩
        · rw [List.mem_singleton.mp mem] at sets
          exact absurd ⟨value, sets⟩ quiet

/-- The value of a key is the one that the last line that sets it gives it. -/
lemma get?_of_addLines {n : Nat} (h : addLines path n lines .empty = .ok u) :
    u.get? key = some value ↔ LastSets lines key value := by
  induction lines using List.reverseRecOn generalizing u value with
  | nil =>
    cases h
    refine ⟨nofun, fun ⟨earlier, line, later, whole, _⟩ => ?_⟩
    simp at whole
  | append_singleton lines line ih =>
    rw [addLines_append] at h
    obtain ⟨t, before, added⟩ := bind_eq_ok_iff.mp h
    rw [addLines_cons] at added
    cases read : parseLine line with
    | error problem =>
      rw [read] at added
      cases added
    | ok setting =>
      rw [read] at added
      cases added
      have sets (value' : String) : Sets line key value' ↔ setting = some (key, value') :=
        sets_iff read
      rw [lastSets_concat, ← ih before]
      simp only [sets]
      rcases setting with _ | ⟨key', value'⟩
      · change t.get? key = some value ↔ _
        simp
      · change (t.insert key' value').get? key = some value ↔ _
        rw [Table.get?_insert]
        by_cases same : key = key'
        · simp [same, eq_comm]
        · simp [same, Ne.symm same]

/-! ### Files -/

lemma parse_eq (src path : String) :
    parse src path = (addLines path 1 (Text.lines src.toList) .empty).map UserConfig.mk := by
  unfold parse
  cases addLines path 1 (Text.lines src.toList) .empty <;> rfl

lemma parse_eq_ok_iff {src : String} {c : UserConfig} :
    parse src path = .ok c ↔ addLines path 1 (Text.lines src.toList) .empty = .ok c.values := by
  rw [parse_eq]
  cases addLines path 1 (Text.lines src.toList) .empty with
  | error e => exact ⟨nofun, nofun⟩
  | ok values =>
    obtain ⟨values'⟩ := c
    simp [Except.map]

lemma parse_eq_error_iff {src : String} :
    parse src path = .error e ↔ addLines path 1 (Text.lines src.toList) .empty = .error e := by
  rw [parse_eq]
  cases addLines path 1 (Text.lines src.toList) .empty <;> simp [Except.map]

/-- A newline at the end of a file makes no difference. -/
lemma addLines_concat_newline {n : Nat} {a : List Char}
    (h : addLines path n (Text.lines a) t = .ok u) :
    addLines path n (Text.lines (a ++ ['\n'])) t = .ok u := by
  obtain added | ⟨front, last, whole, chomped⟩ := Text.lines_concat_newline_cases a
  · rw [added, addLines_append, h]
    rfl
  · have same (m : Nat) : addLines path m [Text.chomp last] = addLines path m [last] := by
      funext t
      rw [addLines_cons, addLines_cons, parseLine_chomp]
    rw [whole, addLines_append] at h
    rw [chomped, addLines_append, same, h]

/-- A file that goes on after a newline has the settings of both parts, those of the second over
those of the first, or else the error of the second, with its number counted from the start. -/
lemma parse_newline {a path : String} {c : UserConfig} (h : parse a path = .ok c) (b : String) :
    parse (a ++ "\n" ++ b) path =
      ((parse b path).map c.merge).mapError (·.shift (Text.lines (a ++ "\n").toList).length) := by
  have first := addLines_concat_newline (parse_eq_ok_iff.mp h)
  have cut : (a ++ "\n" ++ b).toList = a.toList ++ '\n' :: b.toList := by simp
  have ended : (a ++ "\n").toList = a.toList ++ ['\n'] := by simp
  rw [parse_eq, parse_eq, cut, ended, Text.lines_newline, addLines_append, first]
  change (addLines path (1 + _) _ c.values).map _ = _
  rw [Nat.add_comm, addLines_shift, addLines_eq_map_merge]
  cases addLines path 1 (Text.lines b.toList) .empty <;> rfl

/-- A file is accepted exactly when every line that is not blank has some text before its first
`=`.  Then the value of a key is the one that the last line which sets it gives it, and a key that
no line sets has none.  Otherwise the error is about the first line of another form, with its number
among all lines, and tells a line without `=` from one without a key.  A file that is accepted can
go on after a newline: the settings of what follows are put over its own, and an error in what
follows counts its lines too. -/
theorem parse_of_lines (src path : String) :
    ((∃ c, parse src path = .ok c) ↔
      ∀ line ∈ Text.lines src.toList, Text.isAllBlank line = false →
        ∃ before after, Cut line before after ∧ Text.isAllBlank before = false) ∧
    (∀ c, parse src path = .ok c → ∀ key,
      (∀ value, c.get? key = some value ↔ LastSets (Text.lines src.toList) key value) ∧
      (c.get? key = none ↔ ∀ line ∈ Text.lines src.toList, ∀ value, ¬ Sets line key value)) ∧
    (∀ e, parse src path = .error e ↔ FirstOffence path 1 (Text.lines src.toList) e) ∧
    (∀ problem problem' : ConfigProblem, problem.message = problem'.message →
      problem = problem') ∧
    ∀ c more, parse src path = .ok c →
      parse (src ++ "\n" ++ more) path =
        ((parse more path).map c.merge).mapError
          (·.shift (Text.lines (src ++ "\n").toList).length) := by
  refine ⟨?_, fun c accepted key => ?_, fun e => ?_, ?_, fun c more accepted => ?_⟩
  · refine Iff.trans ?_ (exists_addLines_eq_ok_iff path 1 _ .empty)
    constructor
    · rintro ⟨c, accepted⟩
      exact ⟨c.values, parse_eq_ok_iff.mp accepted⟩
    · rintro ⟨values, read⟩
      exact ⟨⟨values⟩, parse_eq_ok_iff.mpr read⟩
  · have values (value : String) : c.get? key = some value ↔
        LastSets (Text.lines src.toList) key value :=
      get?_of_addLines (parse_eq_ok_iff.mp accepted)
    refine ⟨values, ?_⟩
    rw [Option.eq_none_iff_forall_ne_some]
    simp only [ne_eq, values]
    rw [← not_exists, exists_lastSets_iff]
    simp only [not_exists, not_and]
  · exact parse_eq_error_iff.trans addLines_eq_error_iff
  · intro problem problem'
    cases problem <;> cases problem' <;> decide
  · exact parse_newline accepted more

/-- The last of two lines for a key counts, and an error after a blank line and a continuation has
the number of its line in the whole file. -/
theorem parse_of_lines_continued :
    let src := "a=1\r\n\n a = x=\r y"
    let c := ofList [("a", "x=\r y")]
    parse src "p" = .ok c ∧ LastSets (Text.lines src.toList) "a" "x=\r y" ∧
      parse (src ++ "\n" ++ "b\n=x") "p" = .error ⟨"p", 4, .missingEquals⟩ ∧
      FirstOffence "p" 1 (Text.lines "b\n=x".toList) ⟨"p", 1, .missingEquals⟩ := by
  intro src c
  have accepted : parse src "p" = .ok c := by decide +kernel
  have refused : parse "b\n=x" "p" = .error ⟨"p", 1, .missingEquals⟩ := by decide +kernel
  have count : (Text.lines (src ++ "\n").toList).length = 3 := by decide +kernel
  obtain ⟨-, settings, -, -, continued⟩ := parse_of_lines src "p"
  refine ⟨accepted, ?_, ?_, ?_⟩
  · exact ((settings c accepted "a").1 "x=\r y").mp (by decide +kernel)
  · rw [continued c "b\n=x" accepted, refused, count]
    rfl
  · exact ((parse_of_lines "b\n=x" "p").2.2.1 _).mp refused

end UserConfig

end Stencil
