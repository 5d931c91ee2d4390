import Stencil.Proofs.Template.Lines
import Stencil.Template.Render

/-!
# Blocks on lines of their own

A conditional block whose markers stand alone on their lines vanishes without residue: the template
renders as if only its body, or nothing at all, stood in its place (`resolve_standalone_block`).

The pieces of a text that is cut at a newline are the pieces of its two parts, except that the last
text of the first part and the first text of the second are one (`exists_splits_newline`).  Blocks
remember the text around their condition, which has no part in what is kept, so pieces are compared
without it (`Splits`).  The newlines that the markers leave behind are those that
`Template.collapse` drops.
-/

namespace Stencil.Template

/-! ### Pieces of a template -/

/-- A piece without the text around the condition of a block. -/
def Segment.bare : Segment → Segment
  | .text t => .text t
  | .block condition body => .block ⟨condition.form, [], condition.content, []⟩ body

/-- The template is cut into these pieces, up to the text around the conditions. -/
def Splits (src : List Char) (pieces : List Segment) : Prop :=
  ∃ s, segments src = .ok s ∧ s.map Segment.bare = pieces

/-- What is kept does not depend on the text around the conditions. -/
lemma kept_map_bare (scope : Scope) (s : List Segment) :
    kept scope (s.map Segment.bare) = kept scope s := by
  induction s with
  | nil => rfl
  | cons piece s ih =>
    cases piece with
    | text t => simp only [List.map_cons, Segment.bare, kept, ih]
    | block condition body =>
      simp only [List.map_cons, Segment.bare, kept, ih]
      rfl

/-- The pieces of two lists are kept one list after the other. -/
lemma kept_append (scope : Scope) (s s' : List Segment) :
    kept scope (s ++ s') = (do return (← kept scope s) ++ (← kept scope s')) := by
  induction s with
  | nil => cases h : kept scope s' <;> simp [kept, h, bind, Except.bind, pure, Except.pure]
  | cons piece s ih =>
    cases piece with
    | text t =>
      simp only [List.cons_append, kept, ih]
      cases kept scope s <;> cases kept scope s' <;> rfl
    | block condition body =>
      simp only [List.cons_append, kept, ih]
      cases Expr.evaluateText condition.expression scope with
      | error e => rfl
      | ok v =>
        cases kept scope s with
        | error e => rfl
        | ok k =>
          cases kept scope s' with
          | error e => rfl
          | ok k' =>
            by_cases truthy : v.isTruthy = true
            · simp [truthy, bind, Except.bind, pure, Except.pure]
            · simp [truthy, bind, Except.bind, pure, Except.pure]

/-- A template is resolved by its pieces. -/
lemma resolve_of_splits {src : List Char} {pieces : List Segment} (h : Splits src pieces)
    (scope : Scope) : resolve src scope = (kept scope pieces).map collapse := by
  obtain ⟨s, split, rfl⟩ := h
  rw [resolve, split, kept_map_bare]
  change (do return collapse (← kept scope s)) = _
  cases kept scope s <;> rfl

/-! ### Pieces of a text that is cut at a newline -/

/-- Markers that pair up yield pieces that end with the last text, and more markers add theirs. -/
lemma exists_init_of_pairUp {r : List Char} {l : List Marker} {s : List Segment}
    (h : pairUp r l = .ok s) :
    ∃ init, s = init ++ [.text r] ∧
      ∀ x r' l' s', pairUp r' l' = .ok s' →
        ∃ s'', pairUp r' (l.map (Marker.followedBy x) ++ l') = .ok s'' ∧
          s''.map Segment.bare = init.map Segment.bare ++ s'.map Segment.bare := by
  fun_induction pairUp r l generalizing s with
  | case1 =>
    cases h
    exact ⟨[], rfl, fun x r' l' s' h' => ⟨s', h', rfl⟩⟩
  | case2 opener => cases h
  | case3 opener closer more stray => cases h
  | case4 opener closer more noEnd isEnd ih =>
    cases paired : pairUp r more with
    | error e =>
      rw [paired] at h
      cases h
    | ok s₀ =>
      rw [paired] at h
      cases h
      obtain ⟨init, rfl, goesOn⟩ := ih paired
      refine ⟨.text opener.before :: .block opener closer.before :: init, rfl, ?_⟩
      intro x r' l' s' h'
      obtain ⟨s'', paired', same⟩ := goesOn x r' l' s' h'
      refine ⟨.text opener.before :: .block (opener.followedBy x) closer.before :: s'', ?_, ?_⟩
      · rw [List.map_cons, List.map_cons, List.cons_append, List.cons_append, pairUp,
          Marker.isEnd_followedBy, Marker.isEnd_followedBy, if_neg noEnd, if_pos isEnd, paired']
        rfl
      · rw [List.map_cons, List.map_cons, same]
        rfl
  | case5 opener closer more noEnd notEnd => cases h

/-- A text in front of the first marker is put in front of the first piece. -/
lemma exists_pairUp_precededBy {ms : Markers} {s more : List Segment} {u : List Char}
    (h : pairUp ms.rest ms.list = .ok s) (first : s.map Segment.bare = .text u :: more)
    (x : List Char) :
    ∃ s', pairUp (ms.precededBy x).rest (ms.precededBy x).list = .ok s' ∧
      s'.map Segment.bare = .text (x ++ u) :: more := by
  obtain ⟨_ | ⟨opener, _ | ⟨closer, l⟩⟩, rest⟩ := ms
  · cases h
    cases first
    exact ⟨[.text (x ++ rest)], rfl, rfl⟩
  · cases h
  · change pairUp rest (opener :: closer :: l) = .ok s at h
    change ∃ s', pairUp rest (opener.precededBy x :: closer :: l) = .ok s' ∧ _
    rw [pairUp] at h ⊢
    rw [Marker.isEnd_precededBy]
    split at h
    · cases h
    · split at h
      · next noEnd isEnd =>
        rw [if_neg noEnd, if_pos isEnd]
        cases paired : pairUp rest l with
        | error e =>
          rw [paired] at h
          cases h
        | ok s₀ =>
          rw [paired] at h
          cases h
          cases first
          exact ⟨_, rfl, rfl⟩
      · cases h

/-- The pieces of a text that goes on after a newline: up to the newline they stay as they are, and
the text that holds the newline goes on with the first text of the rest. -/
lemma exists_splits_newline {a : List Char} {s : List Segment}
    (h : segments (a ++ ['\n']) = .ok s) :
    ∃ init r, ∀ b u more, Splits b (.text u :: more) →
      Splits (a ++ '\n' :: b) (init ++ .text (r ++ '\n' :: u) :: more) := by
  have noMarker : Marker.first? .condition [] = none := rfl
  rw [segments, Markers.ofText_newline, Markers.ofText_of_none noMarker] at h
  change pairUp ((Markers.ofText .condition a).rest ++ ['\n'] ++ [])
    ((Markers.ofText .condition a).list.map (Marker.followedBy ['\n']) ++ []) = .ok s at h
  rw [List.append_nil, List.append_nil] at h
  obtain ⟨init, -, goesOn⟩ := exists_init_of_pairUp h
  refine ⟨init.map Segment.bare, (Markers.ofText .condition a).rest, ?_⟩
  rintro b u more ⟨s', split, first⟩
  obtain ⟨s₁, paired, first₁⟩ :=
    exists_pairUp_precededBy split first ((Markers.ofText .condition a).rest ++ ['\n'])
  obtain ⟨s₂, paired₂, same⟩ := goesOn b _ _ _ paired
  refine ⟨s₂, ?_, ?_⟩
  · rw [segments, Markers.ofText_newline]
    have both : Marker.followedBy b ∘ Marker.followedBy ['\n'] = Marker.followedBy ('\n' :: b) := by
      funext m
      simp [Marker.followedBy]
    rw [List.map_map, both] at paired₂
    exact paired₂
  · rw [same, first₁, List.append_assoc]
    rfl

/-- The pieces of a template start with a text. -/
lemma exists_splits_of_segments {b : List Char} {s : List Segment} (h : segments b = .ok s) :
    ∃ u more, Splits b (.text u :: more) := by
  have starts : ∃ u more, s = .text u :: more := by
    rw [segments] at h
    unfold pairUp at h
    split at h
    · cases h
      exact ⟨_, [], rfl⟩
    · cases h
    · next opener closer l _ =>
      split at h
      · cases h
      · split at h
        · cases paired : pairUp (Markers.ofText .condition b).rest l with
          | error e =>
            rw [paired] at h
            cases h
          | ok s₀ =>
            rw [paired] at h
            cases h
            exact ⟨_, _, rfl⟩
        · cases h
  obtain ⟨u, more, rfl⟩ := starts
  exact ⟨u, more.map Segment.bare, _, h, rfl⟩

/-! ### The lines of a block -/

/-- The condition of a marker is read up to the first closing delimiter. -/
lemma content?_append_closing {c : List Char} (hc : c ≠ []) (noNewline : '\n' ∉ c)
    (noClosing : ¬ ['?', '}'] <:+: c) :
    Marker.content? .condition (c ++ ['?', '}']) = some (c, []) := by
  induction c with
  | nil => exact absurd rfl hc
  | cons d c ih =>
    obtain ⟨hd, notMem⟩ := not_or.mp (List.mem_cons.not.mp noNewline)
    rw [List.cons_append, Marker.content?, if_neg (Ne.symm hd)]
    cases c with
    | nil => rfl
    | cons d' c =>
      have notClosed : Marker.after? Form.condition.closing (d' :: c ++ ['?', '}']) = none := by
        refine if_neg fun isPrefix => noClosing ?_
        cases c with
        | nil => simp [Form.closing] at isPrefix
        | cons d'' c =>
          have starts : ['?', '}'] <+: d' :: d'' :: c := by
            simpa [Form.closing] using isPrefix
          exact List.infix_cons starts.isInfix
      rw [notClosed, ih (by simp) notMem fun inside => noClosing (List.infix_cons inside)]
      rfl

/-- A line that holds an opening marker and nothing else. -/
lemma ofText_opening {c : List Char} (hc : c ≠ []) (noNewline : '\n' ∉ c)
    (noClosing : ¬ ['?', '}'] <:+: c) :
    Markers.ofText .condition (['{', '?'] ++ c ++ ['?', '}']) =
      ⟨[⟨.condition, [], c, []⟩], []⟩ := by
  have start : Marker.start? .condition (['{', '?'] ++ c ++ ['?', '}']) = some (c, []) :=
    content?_append_closing hc noNewline noClosing
  have first : Marker.first? .condition (['{', '?'] ++ c ++ ['?', '}']) =
      some ⟨.condition, [], c, []⟩ := by
    rw [List.append_assoc] at start ⊢
    rw [List.cons_append] at start ⊢
    rw [Marker.first?, start]
  rw [Markers.ofText_of_some first, Markers.ofText_of_none rfl]

/-- A line that holds an end marker and nothing else. -/
lemma ofText_ending :
    Markers.ofText .condition "\x7b? end ?\x7d".toList =
      ⟨[⟨.condition, [], " end ".toList, []⟩], []⟩ := by
  have first : Marker.first? .condition "\x7b? end ?\x7d".toList =
      some ⟨.condition, [], " end ".toList, []⟩ := by decide
  rw [Markers.ofText_of_some first, Markers.ofText_of_none rfl]

/-- The markers of a text after lines without a marker. -/
lemma ofText_append_of_none {body : List Char} (h : Marker.first? .condition body = none)
    (ends : body = [] ∨ body.getLast? = some '\n') (x : List Char) :
    Markers.ofText .condition (body ++ x) = (Markers.ofText .condition x).precededBy body := by
  obtain rfl | ends := ends
  · rw [List.nil_append, Markers.precededBy_nil]
  · obtain ⟨lines, rfl⟩ := List.getLast?_eq_some_iff.mp ends
    have none : Marker.first? .condition lines = none := by
      have first := Marker.first?_newline .condition lines []
      rw [h] at first
      cases found : Marker.first? .condition lines with
      | none => rfl
      | some m =>
        rw [found] at first
        cases first
    rw [List.append_assoc, List.singleton_append, Markers.ofText_newline,
      Markers.ofText_of_none none]
    rfl

/-- The pieces of a text after lines without a marker. -/
lemma splits_append_of_none {body b u : List Char} {more : List Segment}
    (h : Marker.first? .condition body = none) (ends : body = [] ∨ body.getLast? = some '\n')
    (split : Splits b (.text u :: more)) : Splits (body ++ b) (.text (body ++ u) :: more) := by
  obtain ⟨s, paired, first⟩ := split
  obtain ⟨s', paired', first'⟩ := exists_pairUp_precededBy paired first body
  refine ⟨s', ?_, first'⟩
  rw [segments, ofText_append_of_none h ends]
  exact paired'

/-- A block whose markers stand alone on their lines, with the text after it. -/
def standing (c body b : List Char) : List Char :=
  ['{', '?'] ++ c ++ ['?', '}'] ++ '\n' :: (body ++ ("\x7b? end ?\x7d".toList ++ '\n' :: b))

/-- The pieces of a text that starts with a block whose markers stand alone on their lines. -/
lemma splits_standing {c body b u : List Char} {more : List Segment} (hc : c ≠ [])
    (noNewline : '\n' ∉ c) (noClosing : ¬ ['?', '}'] <:+: c)
    (notEnd : String.ofList (Text.trim c) ≠ "end")
    (h : Marker.first? .condition body = none) (ends : body = [] ∨ body.getLast? = some '\n')
    (split : Splits b (.text u :: more)) :
    Splits (standing c body b)
      (.text [] :: .block ⟨.condition, [], c, []⟩ ('\n' :: body) :: .text ('\n' :: u) :: more) := by
  obtain ⟨s, paired, first⟩ := split
  obtain ⟨s', paired', first'⟩ := exists_pairUp_precededBy paired first ['\n']
  let opener : Marker :=
    ⟨.condition, [], c, '\n' :: (body ++ ("\x7b? end ?\x7d".toList ++ '\n' :: b))⟩
  let closer : Marker := ⟨.condition, '\n' :: body ++ [], " end ".toList, '\n' :: b⟩
  have markers : Markers.ofText .condition (standing c body b) =
      ⟨opener :: closer :: ((Markers.ofText .condition b).precededBy ['\n']).list,
        ((Markers.ofText .condition b).precededBy ['\n']).rest⟩ := by
    rw [standing, Markers.ofText_newline, ofText_opening hc noNewline noClosing,
      ofText_append_of_none h ends, Markers.ofText_newline, ofText_ending]
    rfl
  have opens : opener.isEnd = false := by
    simpa [opener, Marker.isEnd, Marker.expression] using notEnd
  have closes : closer.isEnd = true := by
    change (true && String.ofList (Text.trim " end ".toList) == "end") = true
    decide
  refine ⟨.text opener.before :: .block opener closer.before :: s', ?_, ?_⟩
  · rw [segments, markers]
    change pairUp _ (opener :: closer :: _) = _
    rw [pairUp, opens, closes, paired']
    rfl
  · rw [List.map_cons, List.map_cons, first']
    simp [Segment.bare, opener, closer]

/-! ### The newlines that a block leaves behind -/

/-- A newline at the start of a piece is dropped after a line that has ended. -/
lemma appendCollapsed_newline {out : List Char} (ends : out.getLast? = some '\n')
    (y : List Char) : appendCollapsed out ('\n' :: y) = out ++ y := by
  simp [appendCollapsed, ends]

/-- Nothing is dropped from a piece that does not start with a newline, or after a text that does
not end with one. -/
lemma appendCollapsed_of_not {out piece : List Char}
    (h : ¬ (out.getLast? = some '\n' ∧ piece.head? = some '\n')) :
    appendCollapsed out piece = out ++ piece := by
  unfold appendCollapsed
  split
  · next ends => exact absurd ⟨ends, rfl⟩ h
  · rfl

/-- More text after a piece that is not empty. -/
lemma appendCollapsed_append {t : List Char} (ht : t ≠ []) (out x : List Char) :
    appendCollapsed out (t ++ x) = appendCollapsed out t ++ x := by
  obtain ⟨c, t, rfl⟩ := List.exists_cons_of_ne_nil ht
  by_cases h : out.getLast? = some '\n' ∧ c = '\n'
  · obtain ⟨ends, rfl⟩ := h
    rw [List.cons_append, appendCollapsed_newline ends, appendCollapsed_newline ends,
      List.append_assoc]
  · rw [appendCollapsed_of_not (by simpa using h), appendCollapsed_of_not (by simpa using h),
      List.append_assoc]

/-- A text with a piece that ends a line ends a line. -/
lemma getLast?_appendCollapsed (out r : List Char) :
    (appendCollapsed out (r ++ ['\n'])).getLast? = some '\n' := by
  cases r with
  | nil =>
    by_cases ends : out.getLast? = some '\n'
    · rw [List.nil_append, appendCollapsed_newline ends, List.append_nil, ends]
    · rw [appendCollapsed_of_not fun h => ends h.1]
      simp
  | cons c r =>
    rw [appendCollapsed_append (by simp)]
    simp

/-- A line, a newline and a text are put together as the line and the text. -/
lemma appendCollapsed_line (out r y : List Char) :
    appendCollapsed (appendCollapsed out (r ++ ['\n'])) ('\n' :: y) =
      appendCollapsed out (r ++ '\n' :: y) := by
  have joined : r ++ '\n' :: y = r ++ ['\n'] ++ y := by simp
  rw [appendCollapsed_newline (getLast?_appendCollapsed out r), joined,
    appendCollapsed_append (t := r ++ ['\n']) (by simp)]

/-- The pieces of two lists are put together one list after the other. -/
lemma collapse_append (k k' : List (List Char)) :
    collapse (k ++ k') = k'.foldl appendCollapsed (collapse k) := by
  rw [collapse, List.foldl_append, collapse]

/-! ### Dropping and keeping a block -/

/-- A block between a line and a newline resolves as its body, or as nothing, without the newlines
that its markers leave behind. -/
lemma collapse_kept_block {c body r u : List Char} {init more : List Segment} {scope : Scope}
    {v : Value} (ends : body = [] ∨ body.getLast? = some '\n')
    (evaluates : Expr.evaluateText (String.ofList (Text.trim c)) scope = .ok v) :
    (kept scope (init ++ .text (r ++ ['\n']) :: .block ⟨.condition, [], c, []⟩ ('\n' :: body) ::
        .text ('\n' :: u) :: more)).map collapse =
      (kept scope (init ++ .text (r ++ '\n' :: (if v.isTruthy then body ++ u else u)) ::
        more)).map collapse := by
  have evaluates' : Expr.evaluateText
      (Marker.expression ⟨.condition, [], c, []⟩) scope = .ok v := evaluates
  rw [kept_append, kept_append]
  simp only [kept, evaluates']
  cases kept scope init with
  | error e => rfl
  | ok k =>
    cases kept scope more with
    | error e => rfl
    | ok k' =>
      by_cases truthy : v.isTruthy = true
      · have line : appendCollapsed (appendCollapsed (appendCollapsed (collapse k) (r ++ ['\n']))
            ('\n' :: body)) ('\n' :: u) =
            appendCollapsed (collapse k) (r ++ '\n' :: (body ++ u)) := by
          obtain rfl | bodyEnds := ends
          · rw [appendCollapsed_line, appendCollapsed_line]
            rfl
          · obtain ⟨lines, rfl⟩ := List.getLast?_eq_some_iff.mp bodyEnds
            have joined : r ++ '\n' :: (lines ++ ['\n']) = (r ++ '\n' :: lines) ++ ['\n'] := by simp
            rw [appendCollapsed_line, joined, appendCollapsed_line]
            simp
        simp [truthy, bind, Except.bind, pure, Except.pure, Except.map, collapse_append, line]
      · simp [truthy, bind, Except.bind, pure, Except.pure, Except.map, collapse_append,
          appendCollapsed_line]

/-- A block whose markers stand alone on their lines can be replaced by its body when its condition
is true, and left out when it is false. -/
theorem resolve_standalone_block {A B body c : List Char} {sA sB : List Segment} {scope : Scope}
    {v : Value} (lines : A.getLast? = some '\n')
    (bodyLines : body = [] ∨ body.getLast? = some '\n')
    (noMarker : Marker.first? .condition body = none)
    (nonempty : c ≠ []) (noNewline : '\n' ∉ c) (noClosing : ¬ ['?', '}'] <:+: c)
    (notEnd : String.ofList (Text.trim c) ≠ "end")
    (evaluates : Expr.evaluateText (String.ofList (Text.trim c)) scope = .ok v)
    (splitsA : segments A = .ok sA) (splitsB : segments B = .ok sB) :
    let src := A ++ ['{', '?'] ++ c ++ ['?', '}', '\n'] ++ body ++ "\x7b? end ?\x7d\n".toList ++ B
    let left := if v.isTruthy then A ++ body ++ B else A ++ B
    resolve src scope = resolve left scope ∧
      render (String.ofList src) scope = render (String.ofList left) scope := by
  intro src left
  have resolves : resolve src scope = resolve left scope := by
    obtain ⟨a, rfl⟩ := List.getLast?_eq_some_iff.mp lines
    obtain ⟨u, more, split⟩ := exists_splits_of_segments splitsB
    obtain ⟨init, r, goesOn⟩ := exists_splits_newline splitsA
    have cut : src = a ++ '\n' :: standing c body B := by
      simp [src, standing]
    have full := goesOn _ _ _
      (splits_standing nonempty noNewline noClosing notEnd noMarker bodyLines split)
    have short : Splits left (init ++ .text (r ++ '\n' :: (if v.isTruthy then body ++ u else u)) ::
        more) := by
      by_cases truthy : v.isTruthy = true
      · have cutLeft : left = a ++ '\n' :: (body ++ B) := by simp [left, truthy]
        rw [cutLeft, if_pos truthy]
        exact goesOn _ _ _ (splits_append_of_none noMarker bodyLines split)
      · have cutLeft : left = a ++ '\n' :: B := by simp [left, truthy]
        rw [cutLeft, if_neg truthy]
        exact goesOn _ _ _ split
    rw [cut, resolve_of_splits full, resolve_of_splits short]
    exact collapse_kept_block bodyLines evaluates
  refine ⟨resolves, ?_⟩
  have chars : renderChars src scope = renderChars left scope := by
    rw [renderChars, renderChars, resolves]
  simp only [render, String.toList_ofList, chars]

/-- A false block between two blocks leaves nothing behind. -/
theorem resolve_standalone_block_adjacent :
    let A := "\x7b? 0 ?\x7d\nx\n\x7b? end ?\x7d\n".toList
    let src := A ++ ['{', '?'] ++ " 0 ".toList ++ ['?', '}', '\n'] ++ "y\n".toList ++
      "\x7b? end ?\x7d\n".toList ++ A
    resolve src (fun _ => none) = resolve (A ++ A) (fun _ => none) ∧
      render (String.ofList src) (fun _ => none) =
        render (String.ofList (A ++ A)) (fun _ => none) := by
  have splits : segments "\x7b? 0 ?\x7d\nx\n\x7b? end ?\x7d\n".toList =
      .ok [.text [], .block ⟨.condition, [], " 0 ".toList, "\nx\n\x7b? end ?\x7d\n".toList⟩
        "\nx\n".toList, .text "\n".toList] := by decide +kernel
  have evaluates : Expr.evaluateText (String.ofList (Text.trim " 0 ".toList)) (fun _ => none) =
      .ok (.integer 0) := by with_unfolding_all rfl
  have falsy : (Value.integer 0).isTruthy = false := by decide
  have vanishes := @resolve_standalone_block "\x7b? 0 ?\x7d\nx\n\x7b? end ?\x7d\n".toList
    "\x7b? 0 ?\x7d\nx\n\x7b? end ?\x7d\n".toList "y\n".toList " 0 ".toList _ _ _ _
    (by decide) (by decide) (by decide) (by decide) (by decide) (by decide) (by decide) evaluates
    splits splits
  rw [falsy] at vanishes
  exact vanishes

end Stencil.Template
