import Stencil.Proofs.Files.Directories

/-!
# Making parents first

A directory can be made before an entry of it is, or as a parent that the entry lacks.  If making it
first succeeds, making it as a parent comes to the same (`runOn_makeDirectories_name`).
-/

namespace Stencil

variable {t u : FileTree} {p q base name : String} {loc dir : Location} {names dots : List String}

namespace Path

/-! ### The start of a path -/

/-- The pieces of a text with slashes between them are the text. -/
lemma intercalate_splitOn (cs : List Char) :
    "/".intercalate ((Text.splitOn '/' cs).map String.ofList) = String.ofList cs := by
  induction cs using Text.splitOn_induction '/' with
  | last a notMem => rw [Text.splitOn_of_notMem notMem, List.map_singleton,
      String.intercalate_singleton]
  | cut a b notMem ih =>
    have others : (Text.splitOn '/' b).map String.ofList ≠ [] := by
      simpa using Text.splitOn_ne_nil '/' b
    rw [Text.splitOn_append, List.map_append, Text.splitOn_of_notMem notMem, List.map_singleton,
      String.intercalate_append_of_ne_nil (by simp) others, ih, String.intercalate_singleton]
    apply String.toList_inj.mp
    simp

/-- The path of all its pieces is the path itself. -/
lemma ofPiecesUp_piecesUp (p : String) : ofPiecesUp (isAbsolute p) (piecesUp p) = p := by
  unfold ofPiecesUp piecesUp
  rw [List.reverse_reverse, intercalate_splitOn]
  by_cases abs : isAbsolute p = true
  · obtain ⟨cs, cut⟩ : ∃ cs, p.toList = '/' :: cs := by
      have first : p.toList.head? = some '/' := by simpa [isAbsolute] using abs
      exact List.head?_eq_some_iff.mp first
    apply String.toList_inj.mp
    simp [abs, cut]
  · simp [abs]

/-- The path of some pieces from the start of a path is the start of it. -/
lemma ofPiecesUp_prefix {pieces : List String} (h : pieces <:+ piecesUp p) :
    (ofPiecesUp (isAbsolute p) pieces).toList <+: p.toList := by
  obtain ⟨more, cut⟩ := h
  have start : ("/".intercalate pieces.reverse).toList <+:
      ("/".intercalate (piecesUp p).reverse).toList := by
    rw [← cut, List.reverse_append]
    by_cases none : pieces.reverse = []
    · rw [none, String.intercalate_nil]
      exact List.nil_prefix
    by_cases all : more.reverse = []
    · simp [all]
    · rw [String.intercalate_append_of_ne_nil none all, String.toList_append, String.toList_append,
        List.append_assoc]
      exact List.prefix_append _ _
  have whole := ofPiecesUp_piecesUp p
  unfold ofPiecesUp at whole ⊢
  conv_rhs => rw [← whole]
  split
  · rw [String.toList_append, String.toList_append]
    exact List.prefix_append_right_inj _ |>.mpr start
  · exact start

/-- The pieces of a path and a slash and a name. -/
lemma piecesUp_append_slash (hbase : base ≠ "") (noSlash : '/' ∉ name.toList) :
    piecesUp (base ++ "/" ++ name) = name :: piecesUp base := by
  obtain ⟨c, cs, cut⟩ := List.exists_cons_of_ne_nil (l := base.toList) (by simpa using hbase)
  have split : ∀ cs : List Char, Text.splitOn '/' (cs ++ '/' :: name.toList) =
      Text.splitOn '/' cs ++ [name.toList] := by
    intro cs
    rw [Text.splitOn_append, Text.splitOn_of_notMem noSlash]
  have start : isAbsolute (base ++ "/" ++ name) = isAbsolute base := by
    rw [String.append_assoc, isAbsolute_append hbase]
  have whole : (base ++ "/" ++ name).toList = base.toList ++ '/' :: name.toList := by simp
  unfold piecesUp
  rw [start, whole, cut]
  by_cases abs : isAbsolute base = true
  · simp [abs, split]
  · simp only [abs, Bool.false_eq_true, if_false, split, List.map_append, List.reverse_append]
    simp

/-! ### Fillers -/

/-- The names of a path are those of its pieces without the fillers at the end, and dots. -/
lemma exists_dots_of_dropFillers (absolute : Bool) (pieces : List String) :
    ∃ dots, (∀ d ∈ dots, d = ".") ∧ pieces.reverse.filter (· ≠ "") =
      (dropFillers absolute pieces).reverse.filter (· ≠ "") ++ dots := by
  induction pieces with
  | nil => exact ⟨[], by simp, rfl⟩
  | cons piece up ih =>
    obtain ⟨dots, areDots, cut⟩ := ih
    unfold dropFillers
    split
    · next filler =>
      rcases Bool.or_eq_true_iff.mp filler with empty | dot
      · refine ⟨dots, areDots, ?_⟩
        rw [List.reverse_cons, List.filter_append, cut]
        simp [String.isEmpty_iff.mp empty]
      · obtain ⟨dot, -⟩ := Bool.and_eq_true_iff.mp dot
        refine ⟨dots ++ ["."], ?_, ?_⟩
        · intro d mem
          rcases List.mem_append.mp mem with before | last
          · exact areDots d before
          · exact List.mem_singleton.mp last
        · rw [List.reverse_cons, List.filter_append, cut, of_decide_eq_true dot,
            List.append_assoc]
          rfl
    · exact ⟨[], by simp, (List.append_nil _).symm⟩

/-- The last piece is no filler when they are dropped. -/
lemma not_isFiller_of_dropFillers {absolute : Bool} {pieces up : List String} {piece : String}
    (h : dropFillers absolute pieces = piece :: up) : isFiller absolute piece up = false := by
  induction pieces with
  | nil => cases h
  | cons piece' up' ih =>
    unfold dropFillers at h
    split at h
    · exact ih h
    · next notFiller =>
      cases h
      simpa using notFiller

end Path

namespace FileTree

variable {links : Nat} {above more rest : List String} {last : String} {e : FileError}

/-! ### Dots -/

/-- Dots lead nowhere else. -/
lemma leads_dots (areDots : ∀ d ∈ dots, d = ".") : Leads t links loc dots loc := by
  induction dots with
  | nil => exact .nil
  | cons d dots ih =>
    obtain rfl := areDots d List.mem_cons_self
    exact .dot (ih fun d mem => areDots d (List.mem_cons_of_mem _ mem))

/-- Dots after names do not matter. -/
lemma leads_append_dots_iff (areDots : ∀ d ∈ dots, d = ".") :
    Leads t links loc (names ++ dots) dir ↔ Leads t links loc names dir := by
  have longer : ∀ {dir}, Leads t links loc names dir → Leads t links loc (names ++ dots) dir := by
    intro dir leads
    induction leads with
    | nil => exact leads_dots areDots
    | dot _ ih => exact .dot ih
    | up _ ih => exact .up ih
    | enter isName entered _ ih => exact .enter isName entered ih
    | jump isName linked _ ih =>
      rw [List.append_assoc] at ih
      exact .jump isName linked ih
  refine ⟨fun whole => ?_, longer⟩
  have found := resolveSteps_eq_found_directory_iff.mpr whole
  obtain ⟨dir', leads, -⟩ := exists_leads (.inr ⟨dir, rfl⟩) found
  rwa [whole.unique (longer leads)]

/-! ### Paths that lead to no directory -/

/-- Names that lead to no directory fail for the same reason with more names after them, if names
after a link do. -/
lemma walkNames_append_of_error {jump : Location → List String → Except FileError Place}
    (hrest : rest ≠ [])
    (linked : ∀ loc names, jump loc (names ++ ["."]) = .error e →
      jump loc (names ++ rest) = .error e)
    (h : t.walkNames true jump loc (names ++ ["."]) = .error e) :
    t.walkNames true jump loc (names ++ rest) = .error e := by
  induction names generalizing loc with
  | nil =>
    rw [List.nil_append, walkNames, if_pos rfl, walkNames] at h
    cases h
  | cons name names ih =>
    have more : (names ++ rest).isEmpty = false := by simp [hrest]
    have dotted : (names ++ ["."]).isEmpty = false := by simp
    rw [List.cons_append, walkNames] at h ⊢
    by_cases hdot : name = "."
    · rw [if_pos hdot] at h ⊢
      exact ih h
    by_cases hup : name = ".."
    · rw [if_neg hdot, if_pos hup] at h ⊢
      exact ih h
    by_cases long : maxName < name.utf8ByteSize
    · rw [if_neg hdot, if_neg hup, if_pos long] at h ⊢
      exact h
    rw [if_neg hdot, if_neg hup, if_neg long] at h ⊢
    dsimp only at h ⊢
    rw [more]
    rw [dotted] at h
    cases entry : t.get? (loc ++ [name]) with
    | none =>
      rw [entry] at h
      exact h
    | some e =>
      rw [entry] at h
      cases e with
      | directory => exact ih h
      | file content mode => exact h
      | link target =>
        dsimp only at h ⊢
        rw [if_neg (by decide), ← List.append_assoc] at h ⊢
        exact linked _ _ h

/-- Names that lead to no directory fail for the same reason with more names after them. -/
lemma resolveSteps_append_of_error (hrest : rest ≠ [])
    (h : t.resolveSteps true links loc (names ++ ["."]) = .error e) :
    t.resolveSteps true links loc (names ++ rest) = .error e := by
  induction links generalizing loc names with
  | zero => exact walkNames_append_of_error hrest (fun _ _ stuck => stuck) h
  | succ links ih => exact walkNames_append_of_error hrest (fun _ _ failed => ih failed) h

/-- Names that lead to no directory fail for the same reason with more names after them. -/
lemma directoryAt_append_of_error (h : t.directoryAt p names = .error e) (rest : List String) :
    t.directoryAt p (names ++ rest) = .error e := by
  have failed : t.resolveSteps true maxLinks (startOf workingDirectory p) (names ++ ["."]) =
      .error e := by
    cases resolved : t.resolveSteps true maxLinks (startOf workingDirectory p) (names ++ ["."]) with
    | error problem =>
      rw [directoryAt, resolved] at h
      cases h
      rfl
    | ok place =>
      obtain ⟨dir, leads, -⟩ := resolveSteps_dot_eq_ok_iff.mp resolved
      rw [directoryAt_eq_ok_iff.mpr leads] at h
      cases h
  rw [directoryAt, List.append_assoc, resolveSteps_append_of_error (by simp) failed]
  rfl

/-- A name that is missing leads to no directory. -/
lemma directoryAt_of_missing (named : Names t p loc) (missing : t.get? loc = none) :
    t.directoryAt p (Path.names p) = .error .notFound := by
  obtain ⟨-, names, name, dir, cut, leads, isName, rfl⟩ := named
  obtain ⟨left, -, same⟩ := resolveSteps_append leads
  rw [directoryAt, cut, List.append_assoc, same true ([name] ++ ["."]) (.inr rfl),
    List.cons_append, resolveSteps_cons isName, missing]
  rfl

/-- Nothing can be created where the names of the path before the last one fail. -/
lemma createDirectory_of_error (checked : checkPath p = .ok ())
    (cut : Path.names p = above ++ last :: more) (failed : t.directoryAt p above = .error e) :
    t.createDirectory p = .error e := by
  have before : t.directoryAt p (Path.names p).dropLast = .error e := by
    rw [cut, List.dropLast_append_of_ne_nil (by simp)]
    exact directoryAt_append_of_error failed _
  obtain ⟨name, final⟩ : ∃ name, (Path.names p).getLast? = some name :=
    ⟨_, List.getLast?_eq_some_getLast (by simp [cut])⟩
  rw [createDirectory, target, checked]
  simp only [bind, Except.bind, final, before]

/-- No directory can be created where one is. -/
lemma createDirectory_ne_ok
    (leads : Leads t maxLinks (startOf workingDirectory p) (Path.names p) dir) :
    t.createDirectory p ≠ .ok u := by
  intro created
  obtain ⟨loc, named, missing, -⟩ := createDirectory_eq_ok_iff.mp created
  have failed := directoryAt_of_missing named missing
  rw [directoryAt_eq_ok_iff.mpr leads] at failed
  cases failed

/-- What is created depends on the names of the path alone, unless the path is refused. -/
lemma createDirectory_congr (hp : checkPath p = .ok ()) (hq : checkPath q = .ok ())
    (start : startOf workingDirectory p = startOf workingDirectory q)
    (sameNames : Path.names p = Path.names q) : t.createDirectory p = t.createDirectory q := by
  unfold createDirectory target directoryAt
  rw [hp, hq, start, sameNames]

/-- The start of a path that is not refused is not refused. -/
lemma checkPath_of_prefix (checked : checkPath q = .ok ()) (isPrefix : p.toList <+: q.toList)
    (nonempty : p ≠ "") : checkPath p = .ok () := by
  obtain ⟨more, cut⟩ := isPrefix
  have whole : q = p ++ String.ofList more := by
    apply String.toList_inj.mp
    rw [String.toList_append, String.toList_ofList, cut]
  unfold checkPath at checked ⊢
  rw [if_neg (by simpa using nonempty)]
  split at checked
  · cases checked
  · split at checked
    · cases checked
    · next noNul =>
      split at checked
      · cases checked
      · next short =>
        rw [if_neg, if_neg]
        · rw [whole, String.utf8ByteSize_append] at short
          omega
        · rw [whole, String.toList_append, List.any_append] at noNul
          intro nul
          exact noNul (by rw [nul, Bool.true_or])

end FileTree

namespace Files

open FileTree

variable {parents : Files FileError Unit} {above : List String} {last top : String}

/-! ### Directories that are there -/

/-- A directory that is there is not created. -/
lemma runOn_attempt_of_isDirectory (h : t.isDirectory p = true) :
    runOn (attempt p) t = (.ok (), t) := by
  obtain ⟨-, dir, leads⟩ := isDirectory_iff.mp h
  rw [runOn_attempt]
  cases created : t.createDirectory p with
  | ok u => exact absurd created (createDirectory_ne_ok leads)
  | error e =>
    dsimp only
    rw [if_pos h]

/-- A directory that is there is not made, and neither are its parents. -/
lemma runOn_makeDirectory_of_isDirectory (h : t.isDirectory p = true)
    (parents : Files FileError Unit) : runOn (makeDirectory p parents) t = (.ok (), t) := by
  obtain ⟨checked, dir, leads⟩ := isDirectory_iff.mp h
  have nonempty : p ≠ "" := by
    rintro rfl
    cases checked
  have stands : t.createDirectory p ≠ .error .notFound := by
    rcases List.eq_nil_or_concat (Path.names p) with none | ⟨above, last, cut⟩
    · rw [createDirectory, target, checked]
      simp [bind, Except.bind, none, throw, throwThe, MonadExceptOf.throw]
    · rw [List.concat_eq_append] at cut
      rw [cut] at leads
      obtain ⟨dir', leads'⟩ : ∃ dir', Leads t maxLinks (startOf workingDirectory p) above dir' := by
        have found := resolveSteps_eq_found_directory_iff.mpr leads
        obtain ⟨dir', leads', -⟩ := exists_leads (.inr ⟨dir, rfl⟩) found
        exact ⟨dir', leads'⟩
      exact createDirectory_ne_notFound nonempty cut leads'
  rw [runOn_makeDirectory, if_neg stands, runOn_attempt_of_isDirectory h]

/-- A directory that is there is not made. -/
lemma runOn_makeDirectories_of_isDirectory (h : t.isDirectory p = true) :
    runOn (makeDirectories p) t = (.ok (), t) := by
  unfold makeDirectories
  split
  · rfl
  · exact runOn_makeDirectory_of_isDirectory h _

/-- The parents of an entry are made up to the last piece that is no filler. -/
lemma makeUpwards_eq (absolute : Bool) (pieces : List String) :
    makeUpwards absolute pieces =
      match Path.dropFillers absolute pieces with
      | [] => return ()
      | piece :: up =>
        makeDirectory (Path.ofPiecesUp absolute (piece :: up)) (makeUpwards absolute up) := by
  induction pieces with
  | nil => rfl
  | cons piece up ih =>
    rw [makeUpwards, Path.dropFillers]
    split
    · exact ih
    · rfl

/-- The start of a path that is not refused leads to a directory if its names do. -/
lemma isDirectory_ofPiecesUp {pieces : List String} (checked : checkPath base = .ok ())
    (h : pieces <:+ Path.piecesUp base) (named : ∃ s ∈ pieces, s ≠ "")
    (leads : Leads t maxLinks (startOf workingDirectory base) (pieces.reverse.filter (· ≠ ""))
      dir) :
    t.isDirectory (Path.ofPiecesUp (Path.isAbsolute base) pieces) = true := by
  obtain ⟨s, mem, hs⟩ := named
  have hbase : base ≠ "" := by
    rintro rfl
    cases checked
  have sameNames := Path.names_ofPiecesUp (fun s hs => Path.noSlash_of_mem_piecesUp (h.subset hs))
    (Path.isAbsolute base)
  have nonempty : Path.ofPiecesUp (Path.isAbsolute base) pieces ≠ "" := by
    intro empty
    rw [empty, Path.names_empty] at sameNames
    have inside : s ∈ pieces.reverse.filter (· ≠ "") := by simp [mem, hs]
    rw [← sameNames] at inside
    cases inside
  have start := Path.isAbsolute_ofPiecesUp h (List.ne_nil_of_mem mem) hbase
  have checkedStart := checkPath_of_prefix checked (Path.ofPiecesUp_prefix h) nonempty
  refine isDirectory_iff.mpr ⟨checkedStart, dir, ?_⟩
  rwa [startOf, start, sameNames]

/-- The last piece that is no filler is not empty. -/
lemma ne_empty_of_dropFillers {absolute : Bool} {pieces up : List String} {piece : String}
    (h : Path.dropFillers absolute pieces = piece :: up) : piece ≠ "" := by
  rintro rfl
  have notFiller := Path.not_isFiller_of_dropFillers h
  cases notFiller

/-- Parents that are there are not made. -/
lemma runOn_makeUpwards_of_leads {pieces : List String} (checked : checkPath base = .ok ())
    (h : pieces <:+ Path.piecesUp base)
    (leads : Leads t maxLinks (startOf workingDirectory base) (pieces.reverse.filter (· ≠ ""))
      dir) :
    runOn (makeUpwards (Path.isAbsolute base) pieces) t = (.ok (), t) := by
  obtain ⟨dots, areDots, cut⟩ := Path.exists_dots_of_dropFillers (Path.isAbsolute base) pieces
  rw [makeUpwards_eq]
  cases dropped : Path.dropFillers (Path.isAbsolute base) pieces with
  | nil => rfl
  | cons piece up =>
    rw [cut, dropped, leads_append_dots_iff areDots] at leads
    have isSuffix := Path.dropFillers_suffix (Path.isAbsolute base) pieces
    rw [dropped] at isSuffix
    exact runOn_makeDirectory_of_isDirectory (isDirectory_ofPiecesUp checked (isSuffix.trans h)
      ⟨piece, List.mem_cons_self, ne_empty_of_dropFillers dropped⟩ leads) _

/-! ### Directories with dots at the end of the path -/

/-- Two paths of which the first may have dots after the names of the second. -/
structure Dotted (p top : String) (dots : List String) : Prop where
  names : Path.names p = Path.names top ++ dots
  areDots : ∀ d ∈ dots, d = "."
  start : startOf workingDirectory p = startOf workingDirectory top
  checked : checkPath p = .ok ()
  checkedTop : checkPath top = .ok ()

lemma Dotted.isDirectory_iff (h : Dotted p top dots) :
    t.isDirectory p = true ↔ t.isDirectory top = true := by
  rw [FileTree.isDirectory_iff, FileTree.isDirectory_iff, h.checked, h.checkedTop, h.start, h.names]
  simp only [leads_append_dots_iff h.areDots]

/-- A path that ends in dots names nothing that could be created. -/
lemma Dotted.createDirectory_ne_ok (h : Dotted p top dots) (some_ : dots ≠ []) :
    t.createDirectory p ≠ .ok u := by
  intro created
  obtain ⟨loc, ⟨-, names, name, dir, cut, -, isName, -⟩, -⟩ := createDirectory_eq_ok_iff.mp created
  obtain ⟨front, d, rest⟩ := (List.eq_nil_or_concat dots).resolve_left some_
  rw [h.names, rest, List.concat_eq_append, ← List.append_assoc] at cut
  obtain ⟨-, same⟩ := List.append_inj' cut rfl
  cases same
  exact isName.ne_dot (h.areDots name (by simp [rest]))

/-- A directory that is lacking is made by creating it. -/
lemma createDirectory_of_runOn_attempt (missing : ¬ t.isDirectory p = true)
    (made : runOn (attempt p) t = (.ok (), u)) : t.createDirectory p = .ok u := by
  rw [runOn_attempt] at made
  cases created : t.createDirectory p with
  | ok w =>
    rw [created] at made
    cases made
    rfl
  | error e =>
    rw [created] at made
    dsimp only at made
    rw [if_neg missing] at made
    cases made

/-- What can be created with dots after it can be created without them. -/
lemma Dotted.runOn_attempt (h : Dotted p top dots) (made : runOn (attempt p) t = (.ok (), u)) :
    runOn (attempt top) t = (.ok (), u) := by
  by_cases stands : t.isDirectory p = true
  · rw [runOn_attempt_of_isDirectory stands] at made
    rw [runOn_attempt_of_isDirectory (h.isDirectory_iff.mp stands), made]
  · have created := createDirectory_of_runOn_attempt stands made
    by_cases none : dots = []
    · have sameNames : Path.names p = Path.names top := by rw [h.names, none, List.append_nil]
      rw [createDirectory_congr h.checked h.checkedTop h.start sameNames] at created
      rw [Files.runOn_attempt, created]
    · exact absurd created (h.createDirectory_ne_ok none)

/-- Where the names before the last one lead to a directory, only the last one is made. -/
lemma Dotted.runOn_makeDirectory_of_leads (h : Dotted p top dots)
    (cut : Path.names top = above ++ [last])
    (leads : Leads t maxLinks (startOf workingDirectory p) above dir)
    (parentsStay : runOn parents t = (.ok (), t)) (missing : ¬ t.isDirectory p = true)
    (made : runOn (makeDirectory p parents) t = (.ok (), u)) :
    runOn (makeDirectory top parents) t = (.ok (), u) ∧
      t.directoryAt p (Path.names p) = .error .notFound := by
  have attempted : runOn (attempt p) t = (.ok (), u) := by
    rw [Files.runOn_makeDirectory] at made
    split at made
    · rwa [runOn_bind_of_ok parentsStay] at made
    · exact made
  constructor
  · have nonempty : top ≠ "" := by
      rintro rfl
      cases h.checkedTop
    rw [h.start] at leads
    rw [Files.runOn_makeDirectory, if_neg (createDirectory_ne_notFound nonempty cut leads)]
    exact h.runOn_attempt attempted
  · obtain ⟨loc, named, none, -⟩ :=
      createDirectory_eq_ok_iff.mp (createDirectory_of_runOn_attempt missing attempted)
    exact directoryAt_of_missing named none

/-- Where the names before the last one lead to no directory, what they lack is made, too. -/
lemma Dotted.runOn_makeDirectory_of_error {e : FileError} (h : Dotted p top dots)
    (cut : Path.names top = above ++ [last]) (reached : t.directoryAt p above = .error e)
    (missing : ¬ t.isDirectory p = true)
    (made : runOn (makeDirectory p parents) t = (.ok (), u)) :
    runOn (makeDirectory top parents) t = (.ok (), u) ∧
      t.directoryAt p (Path.names p) = .error .notFound := by
  have whole : Path.names p = above ++ last :: dots := by
    rw [h.names, cut, List.append_assoc]
    rfl
  have failed := createDirectory_of_error h.checked whole reached
  have reachedTop : t.directoryAt top above = .error e := by
    rw [directoryAt, ← h.start]
    exact reached
  have failedTop := createDirectory_of_error h.checkedTop cut reachedTop
  rw [Files.runOn_makeDirectory, failed] at made
  rw [Files.runOn_makeDirectory, failedTop]
  by_cases lacking : e = .notFound
  · subst lacking
    rw [if_pos rfl] at made ⊢
    obtain ⟨_, mid, above', attempted⟩ := runOn_bind_eq_ok_iff.mp made
    refine ⟨runOn_bind_eq_ok_iff.mpr ⟨_, mid, above', h.runOn_attempt attempted⟩, ?_⟩
    rw [whole]
    exact directoryAt_append_of_error reached _
  · rw [if_neg (by simpa using lacking)] at made
    rw [createDirectory_of_runOn_attempt missing made] at failed
    cases failed

/-- A directory that is made with dots after its path is made in the same way without them, and it
was lacking before. -/
lemma Dotted.runOn_makeDirectory (h : Dotted p top dots) (cut : Path.names top = above ++ [last])
    (parentsStay : ∀ dir, Leads t maxLinks (startOf workingDirectory p) above dir →
      runOn parents t = (.ok (), t))
    (missing : ¬ t.isDirectory p = true) (made : runOn (makeDirectory p parents) t = (.ok (), u)) :
    runOn (makeDirectory top parents) t = (.ok (), u) ∧
      t.directoryAt p (Path.names p) = .error .notFound := by
  cases reached : t.directoryAt p above with
  | ok dir =>
    have leads := directoryAt_eq_ok_iff.mp reached
    exact h.runOn_makeDirectory_of_leads cut leads (parentsStay dir leads) missing made
  | error e => exact h.runOn_makeDirectory_of_error cut reached missing made

/-! ### An entry of a directory -/

/-- A path with a slash at its end has the parents of the path without the fillers at its end. -/
lemma makeDirectories_slash {piece : String} {up : List String} (hbase : base ≠ "")
    (dropped : Path.dropFillers (Path.isAbsolute base) (Path.piecesUp base) = piece :: up) :
    makeDirectories (base ++ "/") =
      makeDirectory (base ++ "/") (makeUpwards (Path.isAbsolute base) up) := by
  have pieces : Path.piecesUp (base ++ "/" ++ "") = "" :: Path.piecesUp base :=
    Path.piecesUp_append_slash hbase (by simp)
  have start : Path.isAbsolute (base ++ "/") = Path.isAbsolute base := Path.isAbsolute_append hbase
  rw [String.append_empty] at pieces
  have above : Path.above? (base ++ "/") = some up := by
    rw [Path.above?, pieces, start, Path.dropFillers, if_pos (by rfl), dropped]
  rw [makeDirectories, if_neg (by simp), above, start]
  rfl

/-- The parents of an entry of a directory are all that the path of the directory lists. -/
lemma makeDirectories_entry (hbase : base ≠ "") (isName : Path.IsName name) (notDot : name ≠ ".") :
    makeDirectories (base ++ "/" ++ name) = makeDirectory (base ++ "/" ++ name)
      (makeUpwards (Path.isAbsolute base) (Path.piecesUp base)) := by
  have pieces := Path.piecesUp_append_slash hbase isName.noSlash
  have start : Path.isAbsolute (base ++ "/" ++ name) = Path.isAbsolute base := by
    rw [String.append_assoc, Path.isAbsolute_append hbase]
  have named : Path.isFiller (Path.isAbsolute base) name (Path.piecesUp base) = false := by
    simp [Path.isFiller, isName.ne_empty, notDot]
  have above : Path.above? (base ++ "/" ++ name) = some (Path.piecesUp base) := by
    rw [Path.above?, pieces, start, Path.dropFillers, if_neg (by simp [named])]
  rw [makeDirectories, if_neg (by simp), above, start]
  rfl

/-- A path of nothing but dots is that of a directory. -/
lemma isDirectory_of_dots (checked : checkPath p = .ok ()) (areDots : ∀ d ∈ Path.names p, d = ".") :
    t.isDirectory p = true :=
  isDirectory_iff.mpr ⟨checked, _, leads_dots areDots⟩

/-- What follows on a path does not matter to where it starts. -/
lemma startOf_append (hbase : base ≠ "") (more : String) :
    startOf workingDirectory (base ++ more) = startOf workingDirectory base := by
  rw [startOf, startOf, Path.isAbsolute_append hbase]

/-- A path with a slash at its end names what the path without the fillers at its end names, with
dots after it. -/
lemma exists_dotted {piece : String} {up : List String} (checked : checkPath (base ++ "/") = .ok ())
    (hbase : base ≠ "")
    (dropped : Path.dropFillers (Path.isAbsolute base) (Path.piecesUp base) = piece :: up) :
    Path.names (Path.ofPiecesUp (Path.isAbsolute base) (piece :: up)) =
        up.reverse.filter (· ≠ "") ++ [piece] ∧
      ∃ dots, Dotted (base ++ "/") (Path.ofPiecesUp (Path.isAbsolute base) (piece :: up)) dots := by
  obtain ⟨dots, areDots, cut⟩ :=
    Path.exists_dots_of_dropFillers (Path.isAbsolute base) (Path.piecesUp base)
  have isSuffix := Path.dropFillers_suffix (Path.isAbsolute base) (Path.piecesUp base)
  rw [← Path.names_eq_filter_piecesUp, dropped] at cut
  rw [dropped] at isSuffix
  have top := Path.names_ofPiecesUp
    (fun s hs => Path.noSlash_of_mem_piecesUp (isSuffix.subset hs)) (Path.isAbsolute base)
  have lastName : (piece :: up).reverse.filter (· ≠ "") =
      up.reverse.filter (· ≠ "") ++ [piece] := by
    rw [List.reverse_cons, List.filter_append]
    simp [ne_empty_of_dropFillers dropped]
  have topNames := top.trans lastName
  have isPrefix : (Path.ofPiecesUp (Path.isAbsolute base) (piece :: up)).toList <+:
      (base ++ "/").toList := by
    rw [String.toList_append]
    exact (Path.ofPiecesUp_prefix isSuffix).trans (List.prefix_append _ _)
  refine ⟨topNames, dots, by rw [Path.names_slash, cut, top], areDots, ?_, checked,
    checkPath_of_prefix checked isPrefix fun empty => ?_⟩
  · rw [startOf_append hbase, startOf, startOf,
      Path.isAbsolute_ofPiecesUp isSuffix (by simp) hbase]
  · rw [empty, Path.names_empty] at topNames
    simp at topNames

/-- A directory that was made, with its parents, and was lacking before is made in the same way as a
parent. -/
lemma runOn_makeUpwards_of_makeDirectories (hbase : base ≠ "")
    (missing : ¬ t.isDirectory (base ++ "/") = true)
    (made : runOn (makeDirectories (base ++ "/")) t = (.ok (), u)) :
    runOn (makeUpwards (Path.isAbsolute base) (Path.piecesUp base)) t = (.ok (), u) ∧
      t.directoryAt base (Path.names base) = .error .notFound := by
  have checked : checkPath (base ++ "/") = .ok () :=
    (isDirectory_iff.mp (isDirectory_of_runOn_makeDirectories (by simp) made)).1
  have checkedBase : checkPath base = .ok () := by
    refine checkPath_of_prefix checked ?_ hbase
    rw [String.toList_append]
    exact List.prefix_append _ _
  cases dropped : Path.dropFillers (Path.isAbsolute base) (Path.piecesUp base) with
  | nil =>
    -- A path of nothing but fillers is that of a directory, which was not lacking.
    obtain ⟨dots, areDots, cut⟩ :=
      Path.exists_dots_of_dropFillers (Path.isAbsolute base) (Path.piecesUp base)
    rw [← Path.names_eq_filter_piecesUp, dropped] at cut
    refine absurd (isDirectory_of_dots checked fun d mem => areDots d ?_) missing
    rwa [Path.names_slash, cut] at mem
  | cons piece up =>
    obtain ⟨topNames, dots, dotted⟩ := exists_dotted checked hbase dropped
    have isSuffix := Path.dropFillers_suffix (Path.isAbsolute base) (Path.piecesUp base)
    rw [dropped] at isSuffix
    rw [makeDirectories_slash hbase dropped] at made
    obtain ⟨madeTop, lacking⟩ := dotted.runOn_makeDirectory topNames (fun dir leads => by
      rw [startOf_append hbase] at leads
      exact runOn_makeUpwards_of_leads checkedBase ((List.suffix_cons piece up).trans isSuffix)
        leads) missing made
    rw [makeUpwards_eq, dropped]
    refine ⟨madeTop, ?_⟩
    rwa [Path.names_slash, directoryAt, startOf_append hbase] at lacking

/-- Making a directory first, if that succeeds, or as a parent of a directory in it comes to the
same. -/
theorem runOn_makeDirectories_name (isName : Path.IsName name) (notDot : name ≠ ".")
    (checked : checkPath (base ++ "/" ++ name) = .ok ())
    (made : runOn (makeDirectories (base ++ "/")) t = (.ok (), u)) :
    runOn (makeDirectories (base ++ "/" ++ name)) t =
      runOn (makeDirectories (base ++ "/" ++ name)) u := by
  by_cases stands : t.isDirectory (base ++ "/") = true
  · rw [runOn_makeDirectories_of_isDirectory stands] at made
    obtain ⟨-, rfl⟩ := Prod.mk.inj made
    rfl
  have hbase : base ≠ "" := by
    rintro rfl
    exact stands (isDirectory_of_dots rfl (fun d mem => nomatch mem))
  obtain ⟨madeUpwards, lacking⟩ := runOn_makeUpwards_of_makeDirectories hbase stands made
  have start : startOf workingDirectory (base ++ "/" ++ name) = startOf workingDirectory base := by
    rw [String.append_assoc, startOf_append hbase]
  have cut : Path.names (base ++ "/" ++ name) = Path.names base ++ [name] := by
    rw [Path.names_append_slash, Path.names_of_isName isName]
  have failed : t.createDirectory (base ++ "/" ++ name) = .error .notFound := by
    refine createDirectory_of_error checked cut ?_
    rw [directoryAt, start]
    exact lacking
  obtain ⟨-, dir, leads⟩ :=
    isDirectory_iff.mp (isDirectory_of_runOn_makeDirectories (by simp) made)
  have leadsBase : Leads u maxLinks (startOf workingDirectory (base ++ "/" ++ name))
      (Path.names base) dir := by
    rwa [Path.names_slash, startOf_append hbase, ← start] at leads
  rw [runOn_makeDirectories_of_leads (by simp) cut leadsBase,
    makeDirectories_entry hbase isName notDot, runOn_makeDirectory, if_pos failed,
    runOn_bind_of_ok madeUpwards]

end Files

end Stencil
