import Stencil.Proofs.Result
import Stencil.Proofs.Template.StandaloneBlock
import Mathlib.Data.List.Induction

/-!
# Newlines at junctions

Resolving a template puts together the texts outside its blocks and the bodies of its true blocks
(`Segment.chunk?`).  Where one of these starts with a newline and all that stand before it end with
one (`Doubled`), that newline is dropped, and nothing else is (`resolve_eq_ok_iff_collapses`).

Whether a newline is dropped is decided by the text put together so far, in which newlines are
missing already.  It ends like the text with all of its newlines (`getLast?_collapse`), so the
decision can be read off the pieces as they stand in the template.
-/

namespace Stencil.Template

/-! ### What is put together -/

/-- What a piece of a template leaves: a text itself, a block its body when its condition is
true. -/
def Segment.chunk? (scope : Scope) : Segment → Option (List Char)
  | .text t => some t
  | .block condition body =>
    match Expr.evaluateText condition.expression scope with
    | .ok v => if v.isTruthy then some body else none
    | .error _ => none

/-- The condition of the piece, if it has one, has a value. -/
def Segment.Evaluates (scope : Scope) : Segment → Prop
  | .text _ => True
  | .block condition _ => ∃ v, Expr.evaluateText condition.expression scope = .ok v

/-- The texts that are kept are what the pieces leave, provided that all conditions have values. -/
lemma kept_eq_ok_iff {scope : Scope} {pieces : List Segment} {chunks : List (List Char)} :
    kept scope pieces = .ok chunks ↔
      (∀ piece ∈ pieces, piece.Evaluates scope) ∧
        chunks = pieces.filterMap (Segment.chunk? scope) := by
  induction pieces generalizing chunks with
  | nil => simp [kept, eq_comm]
  | cons piece more ih =>
    rw [List.forall_mem_cons]
    cases piece with
    | text t =>
      have first : (Segment.text t :: more).filterMap (Segment.chunk? scope) =
          t :: more.filterMap (Segment.chunk? scope) := rfl
      rw [kept, bind_eq_ok_iff, first]
      constructor
      · rintro ⟨others, found, same⟩
        cases same
        obtain ⟨evaluate, rfl⟩ := ih.mp found
        exact ⟨⟨trivial, evaluate⟩, rfl⟩
      · rintro ⟨⟨-, evaluate⟩, rfl⟩
        exact ⟨_, ih.mpr ⟨evaluate, rfl⟩, rfl⟩
    | block condition body =>
      rw [kept, bind_eq_ok_iff]
      constructor
      · rintro ⟨v, evaluated, rest⟩
        obtain ⟨others, found, same⟩ := bind_eq_ok_iff.mp rest
        cases same
        obtain ⟨evaluate, rfl⟩ := ih.mp found
        refine ⟨⟨⟨v, evaluated⟩, evaluate⟩, ?_⟩
        cases truthy : v.isTruthy <;> simp [Segment.chunk?, evaluated, truthy]
      · rintro ⟨⟨⟨v, evaluated⟩, evaluate⟩, rfl⟩
        refine ⟨v, evaluated, bind_eq_ok_iff.mpr ⟨_, ih.mpr ⟨evaluate, rfl⟩, ?_⟩⟩
        cases truthy : v.isTruthy <;>
          simp [Segment.chunk?, evaluated, truthy, pure, Except.pure]

/-! ### Doubled newlines -/

/-- The chunk at the index starts with a newline, and the chunks before it end with one. -/
def Doubled (chunks : List (List Char)) (i : Nat) : Prop :=
  (chunks.take i).flatten.getLast? = some '\n' ∧ chunks[i]?.bind List.head? = some '\n'

instance (chunks : List (List Char)) (i : Nat) : Decidable (Doubled chunks i) :=
  inferInstanceAs (Decidable (_ ∧ _))

/-- The chunks, each without its first newline where that is doubled. -/
def single (chunks : List (List Char)) : List (List Char) :=
  chunks.mapIdx fun i c => if Doubled chunks i then c.tail else c

/-- How many newlines are doubled. -/
def doubles (chunks : List (List Char)) : Nat :=
  (List.range chunks.length).countP fun i => Doubled chunks i

/-- The text is the chunks put together without their doubled newlines. -/
structure Collapses (chunks : List (List Char)) (out : List Char) : Prop where
  /-- Only the first newlines of chunks after a newline are missing. -/
  eq : out = (single chunks).flatten
  /-- The other characters are those of the chunks. -/
  others : out.filter (· ≠ '\n') = chunks.flatten.filter (· ≠ '\n')
  /-- One newline is missing for each that is doubled. -/
  newlines : chunks.flatten.count '\n' = out.count '\n' + doubles chunks
  /-- No newline is missing from the first chunk. -/
  few : doubles chunks ≤ chunks.length - 1

variable {chunks : List (List Char)} {c : List Char}

/-- The first chunk has no chunk before it. -/
lemma not_doubled_zero (chunks : List (List Char)) : ¬ Doubled chunks 0 := by
  simp [Doubled]

/-- Later chunks do not double a newline of an earlier one. -/
lemma doubled_append_of_lt {i : Nat} (h : i < chunks.length) :
    Doubled (chunks ++ [c]) i ↔ Doubled chunks i := by
  rw [Doubled, Doubled, List.take_append_of_le_length (Nat.le_of_lt h), List.getElem?_append_left h]

/-- The last chunk comes after all the others. -/
lemma doubled_append_length :
    Doubled (chunks ++ [c]) chunks.length ↔
      chunks.flatten.getLast? = some '\n' ∧ c.head? = some '\n' := by
  simp [Doubled]

/-- A chunk more leaves the others as they are. -/
lemma single_append :
    single (chunks ++ [c]) = single chunks ++
      [if chunks.flatten.getLast? = some '\n' ∧ c.head? = some '\n' then c.tail else c] := by
  have same : (chunks.mapIdx fun i c' => if Doubled (chunks ++ [c]) i then c'.tail else c') =
      single chunks :=
    List.mapIdx_eq_mapIdx_iff.mpr fun i h => by simp only [doubled_append_of_lt h]
  rw [single, List.mapIdx_concat, same]
  simp only [doubled_append_length]

/-- A chunk more doubles at most the newline that it starts with. -/
lemma doubles_append :
    doubles (chunks ++ [c]) = doubles chunks +
      if chunks.flatten.getLast? = some '\n' ∧ c.head? = some '\n' then 1 else 0 := by
  have same : (List.range chunks.length).countP (fun i => Doubled (chunks ++ [c]) i) =
      doubles chunks :=
    List.countP_congr fun i h => by simp [doubled_append_of_lt (List.mem_range.mp h)]
  rw [doubles, List.length_append, List.length_singleton, List.range_succ, List.countP_append,
    same]
  simp [doubled_append_length]

/-- The text put together ends like the chunks with all of their newlines. -/
lemma getLast?_collapse (chunks : List (List Char)) :
    (collapse chunks).getLast? = chunks.flatten.getLast? := by
  induction chunks using List.reverseRecOn with
  | nil => rfl
  | append_singleton chunks c ih =>
    rw [collapse_append, List.foldl_cons, List.foldl_nil, List.flatten_append,
      List.flatten_singleton]
    by_cases doubled : (collapse chunks).getLast? = some '\n' ∧ c.head? = some '\n'
    · obtain ⟨ends, starts⟩ := doubled
      obtain ⟨y, rfl⟩ := List.head?_eq_some_iff.mp starts
      have ends' := ih.symm.trans ends
      rw [appendCollapsed_newline ends, List.getLast?_append, List.getLast?_append, ends, ends']
      cases y with
      | nil => rfl
      | cons d y => simp [List.getLast?_cons]
    · rw [appendCollapsed_of_not doubled, List.getLast?_append, List.getLast?_append, ih]

/-- Putting chunks together drops their doubled newlines. -/
theorem collapse_eq_single (chunks : List (List Char)) :
    collapse chunks = (single chunks).flatten := by
  induction chunks using List.reverseRecOn with
  | nil => rfl
  | append_singleton chunks c ih =>
    rw [collapse_append, List.foldl_cons, List.foldl_nil, single_append, List.flatten_append,
      ← ih, List.flatten_singleton, ← getLast?_collapse]
    split
    · next doubled =>
      obtain ⟨y, rfl⟩ := List.head?_eq_some_iff.mp doubled.2
      exact appendCollapsed_newline doubled.1 y
    · next notDoubled => exact appendCollapsed_of_not notDoubled

/-- Nothing but newlines is dropped, and one for each that is doubled. -/
theorem collapses_collapse (chunks : List (List Char)) : Collapses chunks (collapse chunks) where
  eq := collapse_eq_single chunks
  others := by
    rw [collapse_eq_single]
    induction chunks using List.reverseRecOn with
    | nil => rfl
    | append_singleton chunks c ih =>
      rw [single_append, List.flatten_append, List.flatten_append, List.filter_append,
        List.filter_append, ih, List.flatten_singleton, List.flatten_singleton]
      split
      · next doubled =>
        obtain ⟨y, rfl⟩ := List.head?_eq_some_iff.mp doubled.2
        simp
      · rfl
  newlines := by
    rw [collapse_eq_single]
    induction chunks using List.reverseRecOn with
    | nil => rfl
    | append_singleton chunks c ih =>
      rw [single_append, doubles_append, List.flatten_append, List.flatten_append,
        List.count_append, List.count_append, ih, List.flatten_singleton, List.flatten_singleton]
      split
      · next doubled =>
        obtain ⟨y, rfl⟩ := List.head?_eq_some_iff.mp doubled.2
        rw [List.tail_cons, List.count_cons_self]
        omega
      · omega
  few := by
    cases chunks with
    | nil => exact Nat.le_refl 0
    | cons c more =>
      rw [doubles, List.length_cons, List.range_succ_eq_map, List.countP_cons,
        decide_eq_false (not_doubled_zero _)]
      have := List.countP_le_length (p := fun i => decide (Doubled (c :: more) i))
        (l := (List.range more.length).map Nat.succ)
      simpa using this

/-- Resolving a template succeeds exactly when its markers pair up and its conditions have values,
and then it gives what the pieces leave, put together without the doubled newlines. -/
theorem resolve_eq_ok_iff_collapses {src out : List Char} {scope : Scope} :
    resolve src scope = .ok out ↔
      ∃ pieces, segments src = .ok pieces ∧ (∀ piece ∈ pieces, piece.Evaluates scope) ∧
        Collapses (pieces.filterMap (Segment.chunk? scope)) out := by
  rw [resolve, bind_eq_ok_iff]
  refine exists_congr fun pieces => and_congr_right fun split => ?_
  rw [bind_eq_ok_iff]
  constructor
  · rintro ⟨chunks, found, same⟩
    cases same
    obtain ⟨evaluate, rfl⟩ := kept_eq_ok_iff.mp found
    exact ⟨evaluate, collapses_collapse _⟩
  · rintro ⟨evaluate, collapses⟩
    refine ⟨_, kept_eq_ok_iff.mpr ⟨evaluate, rfl⟩, ?_⟩
    rw [collapses.eq, ← collapse_eq_single]
    rfl

/-- A chunk that is a lone newline is dropped, and the newline of the next one as well. -/
example : single [['a', '\n'], ['\n'], [], ['\n', '\n', 'b']] =
    [['a', '\n'], [], [], ['\n', 'b']] := by decide

end Stencil.Template
