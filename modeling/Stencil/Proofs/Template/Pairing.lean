import Stencil.Proofs.Result
import Stencil.Template.Block

/-!
# Markers that pair up

A template is cut into pieces exactly when its condition markers open and close blocks in turn
(`Alternate`) and none is left over.  Then texts and blocks alternate too, and with the markers they
make up the whole template (`Assembles`).  Otherwise the error is about the first marker out of turn
(`FirstFault`), and it is the error of resolving the template in any scope, because all markers are
paired up before a condition is looked at (`segments_of_markers`).
-/

namespace Stencil.Template

variable {rest src : List Char} {markers more : List Marker} {opener closer m : Marker}
  {problem : BlockProblem}

/-! ### Taking turns -/

/-- The markers open and close blocks in turn. -/
def Alternate (markers : List Marker) : Prop :=
  ∀ i m, markers[i]? = some m → (m.isEnd = true ↔ i % 2 = 1)

/-- What can be wrong with the marker at a place, counted from zero, when those before it take
turns: it closes where no block is open, it opens where one is, or it opens a block and is the last.
-/
def Faulty (markers : List Marker) (i : Nat) (m : Marker) : BlockProblem → Prop
  | .strayEnd => i % 2 = 0 ∧ m.isEnd = true
  | .nested => i % 2 = 1 ∧ m.isEnd = false
  | .unclosed => i % 2 = 0 ∧ m.isEnd = false ∧ i + 1 = markers.length

/-- The first marker that is out of turn, or has no other to close its block. -/
def FirstFault (markers : List Marker) (problem : BlockProblem) (m : Marker) : Prop :=
  ∃ i, markers[i]? = some m ∧ Faulty markers i m problem ∧ Alternate (markers.take i)

lemma alternate_nil : Alternate [] := by
  intro i m h
  simp at h

/-- A block more in front keeps the others in turn. -/
lemma alternate_block_iff :
    Alternate (opener :: closer :: more) ↔
      opener.isEnd = false ∧ closer.isEnd = true ∧ Alternate more := by
  constructor
  · intro h
    have opens := h 0 opener rfl
    have closes := h 1 closer rfl
    refine ⟨by simpa using opens, by simpa using closes, fun i m there => ?_⟩
    have later := h (i + 2) m there
    rwa [Nat.add_mod_right] at later
  · rintro ⟨opens, closes, others⟩ i m there
    match i with
    | 0 =>
      cases there
      simp [opens]
    | 1 =>
      cases there
      simp [closes]
    | i + 2 =>
      rw [Nat.add_mod_right]
      exact others i m there

/-- A fault after a block is a fault of the markers after it. -/
lemma faulty_block_iff {i : Nat} :
    Faulty (opener :: closer :: more) (i + 2) m problem ↔ Faulty more i m problem := by
  cases problem with
  | strayEnd => simp [Faulty]
  | nested => simp [Faulty]
  | unclosed =>
    simp only [Faulty, Nat.add_mod_right, List.length_cons]
    exact and_congr_right fun _ => and_congr_right fun _ => by omega

/-- The first fault after a block is the first of the markers after it. -/
lemma firstFault_block_iff (opens : opener.isEnd = false) (closes : closer.isEnd = true) :
    FirstFault (opener :: closer :: more) problem m ↔ FirstFault more problem m := by
  constructor
  · rintro ⟨i, there, faulty, before⟩
    match i with
    | 0 =>
      cases there
      cases problem <;> simp [Faulty, opens] at faulty
    | 1 =>
      cases there
      cases problem <;> simp [Faulty, closes] at faulty
    | i + 2 =>
      rw [List.take_succ_cons, List.take_succ_cons] at before
      exact ⟨i, there, faulty_block_iff.mp faulty, (alternate_block_iff.mp before).2.2⟩
  · rintro ⟨i, there, faulty, before⟩
    refine ⟨i + 2, there, faulty_block_iff.mpr faulty, ?_⟩
    rw [List.take_succ_cons, List.take_succ_cons]
    exact alternate_block_iff.mpr ⟨opens, closes, before⟩

/-- Markers that take turns have no fault but a block that is open at the end. -/
lemma FirstFault.unique {problem' : BlockProblem} {m' : Marker}
    (h : FirstFault markers problem m) (h' : FirstFault markers problem' m') :
    problem = problem' ∧ m = m' := by
  -- A marker before a fault is in turn, and the one at a fault is not or is the last.
  have earliest : ∀ {i i' : Nat} {m m' : Marker} {problem : BlockProblem},
      markers[i]? = some m → Faulty markers i m problem → markers[i']? = some m' →
      Alternate (markers.take i') → i' ≤ i := by
    intro i i' m m' problem there faulty there' before
    by_contra later
    have lower : i < i' := Nat.not_le.mp later
    have turn := before i m (by rw [List.getElem?_take_of_lt lower, there])
    obtain ⟨bound, -⟩ := List.getElem?_eq_some_iff.mp there'
    cases problem with
    | strayEnd =>
      obtain ⟨even, isEnd⟩ := faulty
      have odd := turn.mp isEnd
      omega
    | nested =>
      obtain ⟨odd, noEnd⟩ := faulty
      rw [turn.mpr odd] at noEnd
      cases noEnd
    | unclosed =>
      obtain ⟨-, -, last⟩ := faulty
      omega
  obtain ⟨i, there, faulty, before⟩ := h
  obtain ⟨i', there', faulty', before'⟩ := h'
  have same : i = i' :=
    Nat.le_antisymm (earliest there' faulty' there before) (earliest there faulty there' before')
  subst same
  rw [there] at there'
  cases there'
  refine ⟨?_, rfl⟩
  cases problem <;> cases problem' <;> simp_all [Faulty]

/-! ### Pairing up -/

/-- Markers pair up exactly when they take turns and none is left over. -/
lemma pairUp_isOk_iff (rest : List Char) (markers : List Marker) :
    (∃ pieces, pairUp rest markers = .ok pieces) ↔
      markers.length % 2 = 0 ∧ Alternate markers := by
  fun_induction pairUp rest markers with
  | case1 => simp [alternate_nil]
  | case2 opener => simp
  | case3 opener closer more isEnd =>
    simp only [alternate_block_iff, isEnd]
    simp
  | case4 opener closer more noEnd isEnd ih =>
    have opens : opener.isEnd = false := by simpa using noEnd
    have block : (∃ pieces, (do
        return .text opener.before :: .block opener closer.before :: (← pairUp rest more)) =
          Except.ok pieces) ↔ ∃ pieces, pairUp rest more = .ok pieces := by
      constructor
      · rintro ⟨pieces, paired⟩
        obtain ⟨others, paired, -⟩ := bind_eq_ok_iff.mp paired
        exact ⟨others, paired⟩
      · rintro ⟨others, paired⟩
        exact ⟨_, bind_eq_ok_iff.mpr ⟨others, paired, rfl⟩⟩
    rw [block, ih, alternate_block_iff, List.length_cons, List.length_cons, Nat.add_assoc,
      Nat.add_mod_right]
    simp [opens, isEnd]
  | case5 opener closer more noEnd notEnd =>
    simp only [alternate_block_iff, notEnd]
    simp

/-- Markers that do not pair up have a first fault, and the error is about it. -/
lemma exists_firstFault_of_pairUp {e : TemplateError} (h : pairUp rest markers = .error e) :
    ∃ problem m, FirstFault markers problem m ∧ e = .malformed problem m.around := by
  fun_induction pairUp rest markers with
  | case1 => cases h
  | case2 opener =>
    cases h
    by_cases isEnd : opener.isEnd = true
    · rw [if_pos isEnd]
      exact ⟨.strayEnd, opener, ⟨0, rfl, ⟨rfl, isEnd⟩, alternate_nil⟩, rfl⟩
    · rw [if_neg isEnd]
      exact ⟨.unclosed, opener, ⟨0, rfl, ⟨rfl, by simpa using isEnd, rfl⟩, alternate_nil⟩, rfl⟩
  | case3 opener closer more isEnd =>
    cases h
    exact ⟨.strayEnd, opener, ⟨0, rfl, ⟨rfl, isEnd⟩, alternate_nil⟩, rfl⟩
  | case4 opener closer more noEnd isEnd ih =>
    have opens : opener.isEnd = false := by simpa using noEnd
    cases paired : pairUp rest more with
    | ok others =>
      rw [paired] at h
      cases h
    | error e' =>
      rw [paired] at h
      cases h
      obtain ⟨problem, m, fault, rfl⟩ := ih paired
      exact ⟨problem, m, (firstFault_block_iff opens isEnd).mpr fault, rfl⟩
  | case5 opener closer more noEnd notEnd =>
    cases h
    have before : Alternate ([opener, closer].take 1) := by
      intro i m there
      obtain ⟨bound, rfl⟩ := List.getElem?_eq_some_iff.mp there
      obtain rfl : i = 0 := by simpa using bound
      simpa using noEnd
    exact ⟨.nested, closer, ⟨1, rfl, ⟨rfl, by simpa using notEnd⟩, before⟩, rfl⟩

/-- Markers fail to pair up with the error about their first fault. -/
lemma pairUp_eq_error_iff {e : TemplateError} :
    pairUp rest markers = .error e ↔
      ∃ problem m, FirstFault markers problem m ∧ e = .malformed problem m.around := by
  refine ⟨exists_firstFault_of_pairUp, ?_⟩
  rintro ⟨problem, m, fault, rfl⟩
  cases paired : pairUp rest markers with
  | ok pieces =>
    obtain ⟨even, inTurn⟩ := (pairUp_isOk_iff rest markers).mp ⟨pieces, paired⟩
    obtain ⟨i, there, faulty, -⟩ := fault
    have turn := inTurn i m there
    cases problem with
    | strayEnd =>
      have odd := turn.mp faulty.2
      rw [faulty.1] at odd
      cases odd
    | nested =>
      have isEnd := turn.mpr faulty.1
      rw [faulty.2] at isEnd
      cases isEnd
    | unclosed =>
      obtain ⟨place, -, last⟩ := faulty
      omega
  | error e' =>
    obtain ⟨problem', m', fault', rfl⟩ := exists_firstFault_of_pairUp paired
    obtain ⟨rfl, rfl⟩ := fault.unique fault'
    rfl

/-! ### The pieces -/

/-- The pieces are texts and blocks in turn, a text first and last, and with the markers of the
blocks they make up the text. -/
inductive Assembles : List Marker → List Segment → List Char → Prop
  | last (t : List Char) : Assembles [] [.text t] t
  | block {opener closer : Marker} {markers : List Marker} {pieces : List Segment}
      {src : List Char} (t body : List Char) : Assembles markers pieces src →
      Assembles (opener :: closer :: markers) (.text t :: .block opener body :: pieces)
        (t ++ opener.raw ++ body ++ closer.raw ++ src)

/-- Whether a piece is a block. -/
def Segment.isBlock : Segment → Bool
  | .text _ => false
  | .block _ _ => true

/-- Every two markers give a block, and there is one text more. -/
lemma Assembles.count {pieces : List Segment} (h : Assembles markers pieces src) :
    pieces.countP Segment.isBlock = markers.length / 2 ∧
      pieces.countP (fun piece => !piece.isBlock) = markers.length / 2 + 1 := by
  induction h with
  | last t => exact ⟨rfl, rfl⟩
  | block t body _ ih =>
    obtain ⟨blocks, texts⟩ := ih
    rw [List.countP_cons_of_neg (by simp [Segment.isBlock]), List.countP_cons_of_pos rfl, blocks,
      List.countP_cons_of_pos rfl, List.countP_cons_of_neg (by simp [Segment.isBlock]), texts,
      List.length_cons, List.length_cons]
    omega

/-- Nothing is lost when markers pair up. -/
lemma assembles_of_pairUp {pieces : List Segment} (h : pairUp rest markers = .ok pieces) :
    Assembles markers pieces ((markers.flatMap fun m => m.before ++ m.raw) ++ rest) := by
  fun_induction pairUp rest markers generalizing pieces with
  | case1 =>
    cases h
    exact .last rest
  | case2 opener => cases h
  | case3 opener closer more isEnd => cases h
  | case4 opener closer more noEnd isEnd ih =>
    obtain ⟨others, paired, same⟩ := bind_eq_ok_iff.mp h
    cases same
    have whole : Assembles (opener :: closer :: more)
        (.text opener.before :: .block opener closer.before :: others) _ :=
      .block opener.before closer.before (ih paired)
    simpa only [List.flatMap_cons, List.append_assoc] using whole
  | case5 opener closer more noEnd notEnd => cases h

/-! ### Conditions -/

/-- No condition is malformed: its errors are about names and expressions. -/
lemma evaluateText_ne_malformed (text : String) (scope : Scope) (near : String) :
    Expr.evaluateText text scope ≠ .error (.malformed problem near) := by
  unfold Expr.evaluateText Expr.ofText
  intro h
  cases parsed : Expr.parse text with
  | error e =>
    rw [parsed] at h
    cases h
  | ok e =>
    rw [parsed] at h
    change e.evaluate text scope = _ at h
    unfold Expr.evaluate at h
    split at h <;> cases h

/-- Keeping and dropping blocks is never malformed. -/
lemma kept_ne_malformed (scope : Scope) (pieces : List Segment) (near : String) :
    kept scope pieces ≠ .error (.malformed problem near) := by
  induction pieces with
  | nil => nofun
  | cons piece more ih =>
    intro h
    cases piece with
    | text t =>
      rcases bind_eq_error_iff.mp h with failed | ⟨others, -, failed⟩
      · exact ih failed
      · cases failed
    | block condition body =>
      rcases bind_eq_error_iff.mp h with failed | ⟨v, -, h⟩
      · exact evaluateText_ne_malformed _ scope near failed
      · rcases bind_eq_error_iff.mp h with failed | ⟨others, -, failed⟩
        · exact ih failed
        · cases failed

/-- A template is cut into pieces exactly when its condition markers take turns and none is left
over; half as many blocks as markers then alternate with one text more, and with their markers make
up the template.  Otherwise the error is about the first fault.  Resolving the template is
malformed, in any scope, exactly when cutting it is, and with the same error. -/
theorem segments_of_markers (src : List Char) :
    ((∃ pieces, segments src = .ok pieces) ↔
      (Markers.ofText .condition src).list.length % 2 = 0 ∧
        Alternate (Markers.ofText .condition src).list) ∧
    (∀ pieces, segments src = .ok pieces →
      Assembles (Markers.ofText .condition src).list pieces src ∧
        pieces.countP Segment.isBlock = (Markers.ofText .condition src).list.length / 2 ∧
        pieces.countP (fun piece => !piece.isBlock) =
          (Markers.ofText .condition src).list.length / 2 + 1) ∧
    (∀ e, segments src = .error e ↔
      ∃ problem m, FirstFault (Markers.ofText .condition src).list problem m ∧
        e = .malformed problem m.around) ∧
    ∀ scope problem near, resolve src scope = .error (.malformed problem near) ↔
      segments src = .error (.malformed problem near) := by
  refine ⟨pairUp_isOk_iff _ _, fun pieces cut => ?_, fun e => pairUp_eq_error_iff,
    fun scope problem near => ⟨fun failed => ?_, fun failed => ?_⟩⟩
  · have whole := assembles_of_pairUp cut
    rw [Markers.flatten_ofText] at whole
    exact ⟨whole, whole.count⟩
  · rcases bind_eq_error_iff.mp failed with failed | ⟨pieces, -, failed⟩
    · exact failed
    · rcases bind_eq_error_iff.mp failed with failed | ⟨others, -, failed⟩
      · exact absurd failed (kept_ne_malformed scope pieces near)
      · cases failed
  · rw [resolve, failed]
    rfl

end Stencil.Template
