import Stencil.Files.Effect
import Mathlib.Tactic.Common

/-!
# Running programs on file trees

What a program gives for a tree, and the tree that it leaves, follow from what its parts give and
leave.  There is one equation for each way to build a program; with them a program is carried out
step by step, and what an earlier step changed stays when a later one fails.
-/

namespace Stencil.Files

variable {ε δ α β : Type}

@[simp] lemma runOn_pure (a : α) (t : FileTree) : runOn (pure a : Files ε α) t = (.ok a, t) := rfl

@[simp] lemma runOn_throw (e : ε) (t : FileTree) :
    runOn (throw e : Files ε α) t = (.error e, t) := rfl

/-- The second of two programs runs on the tree that the first leaves, unless the first fails. -/
lemma runOn_bind (program : Files ε α) (next : α → Files ε β) (t : FileTree) :
    runOn (program >>= next) t =
      match runOn program t with
      | (.ok a, left) => runOn (next a) left
      | (.error e, left) => (.error e, left) := by
  have unfolded : runOn (program >>= next) t =
      (ExceptT.bindCont next (runOn program t).1).run (runOn program t).2 := rfl
  rw [unfolded]
  obtain ⟨outcome, left⟩ := runOn program t
  cases outcome with
  | ok a => rfl
  | error e => rfl

/-- After a program that succeeds the next one runs on the tree that it leaves. -/
lemma runOn_bind_of_ok {program : Files ε α} {next : α → Files ε β} {t left : FileTree} {a : α}
    (h : runOn program t = (.ok a, left)) :
    runOn (program >>= next) t = runOn (next a) left := by
  rw [runOn_bind, h]

/-- Nothing runs after a program that fails. -/
lemma runOn_bind_of_error {program : Files ε α} {next : α → Files ε β} {t left : FileTree} {e : ε}
    (h : runOn program t = (.error e, left)) :
    runOn (program >>= next) t = (.error e, left) := by
  rw [runOn_bind, h]

/-- A program in two parts succeeds when both parts do. -/
lemma runOn_bind_eq_ok_iff {program : Files ε α} {next : α → Files ε β} {t left : FileTree}
    {b : β} :
    runOn (program >>= next) t = (.ok b, left) ↔
      ∃ a mid, runOn program t = (.ok a, mid) ∧ runOn (next a) mid = (.ok b, left) := by
  rw [runOn_bind]
  rcases runOn program t with ⟨_ | a, mid⟩
  · simp
  · simp

@[simp] lemma runOn_get_bind (next : FileTree → Files ε β) (t : FileTree) :
    runOn (get >>= next) t = runOn (next t) t := rfl

@[simp] lemma runOn_modify (change : FileTree → FileTree) (t : FileTree) :
    runOn (modify change : Files ε PUnit) t = (.ok ⟨⟩, change t) := rfl

/-- Looking at a tree leaves it as it is. -/
@[simp] lemma runOn_read (look : FileTree → Except ε α) (t : FileTree) :
    runOn (read look) t = (look t, t) := by
  rw [read, runOn_get_bind]
  cases look t with
  | ok a => rfl
  | error e => rfl

/-- A change that fails leaves the tree as it is. -/
@[simp] lemma runOn_update (change : FileTree → Except ε FileTree) (t : FileTree) :
    runOn (update change) t =
      match change t with
      | .ok s => (.ok (), s)
      | .error e => (.error e, t) := by
  rw [update, runOn_bind, runOn_read]
  cases change t with
  | ok s => rfl
  | error e => rfl

/-- Renaming the errors changes nothing else. -/
@[simp] lemma runOn_adapt (rename : ε → δ) (program : Files ε α) (t : FileTree) :
    runOn (adapt rename program) t =
      ((runOn program t).1.mapError rename, (runOn program t).2) := by
  change ((runOn program t).1.mapError rename, (runOn program t).2) = _
  rfl

/-- A handler runs on the tree that the program which failed leaves. -/
lemma runOn_tryCatch (program : Files ε α) (handle : ε → Files ε α) (t : FileTree) :
    runOn (tryCatch program handle) t =
      match runOn program t with
      | (.ok a, left) => (.ok a, left)
      | (.error e, left) => runOn (handle e) left := by
  let handled : Except ε α → Files ε α := fun outcome => tryCatch (ExceptT.mk (pure outcome)) handle
  have unfolded : runOn (tryCatch program handle) t =
      (handled (runOn program t).1).run (runOn program t).2 := rfl
  rw [unfolded]
  obtain ⟨outcome, left⟩ := runOn program t
  cases outcome with
  | ok a => rfl
  | error e => rfl

/-- A program in two parts does the same on two trees if its first part does, and its second part
after that. -/
lemma runOn_bind_congr {program program' : Files ε α} {next next' : α → Files ε β}
    {t t' : FileTree} (first : runOn program t = runOn program' t')
    (onward : ∀ a left, runOn program' t' = (.ok a, left) →
      runOn (next a) left = runOn (next' a) left) :
    runOn (program >>= next) t = runOn (program' >>= next') t' := by
  rw [runOn_bind, runOn_bind, first]
  rcases ran : runOn program' t' with ⟨_ | a, left⟩
  · rfl
  · exact onward a left ran

/-! ### Programs with other errors -/

/-- Programs that do the same on every tree are the same. -/
lemma ext_runOn {program program' : Files ε α} (h : ∀ t, runOn program t = runOn program' t) :
    program = program' := funext h

/-- A program with other errors succeeds when the program does. -/
lemma runOn_adapt_eq_ok_iff {rename : ε → δ} {program : Files ε α} {t left : FileTree} {a : α} :
    runOn (adapt rename program) t = (.ok a, left) ↔ runOn program t = (.ok a, left) := by
  rw [runOn_adapt]
  rcases runOn program t with ⟨_ | _, mid⟩
  · simp [Except.mapError]
  · simp [Except.mapError]

lemma adapt_pure (rename : ε → δ) (a : α) : adapt rename (pure a : Files ε α) = pure a := rfl

lemma adapt_throw (rename : ε → δ) (e : ε) :
    adapt rename (throw e : Files ε α) = throw (rename e) := rfl

/-- Errors that are renamed twice. -/
lemma adapt_adapt {γ : Type} (rename : ε → δ) (again : δ → γ) (program : Files ε α) :
    adapt again (adapt rename program) = adapt (fun e => again (rename e)) program := by
  apply ext_runOn
  intro t
  rw [runOn_adapt, runOn_adapt, runOn_adapt]
  cases (runOn program t).1 <;> rfl

/-- Errors that keep their names. -/
lemma adapt_id (program : Files ε α) : adapt (fun e => e) program = program := by
  apply ext_runOn
  intro t
  rw [runOn_adapt]
  rcases runOn program t with ⟨_ | _, left⟩ <;> rfl

/-- The errors of both parts of a program are renamed. -/
lemma adapt_bind (rename : ε → δ) (program : Files ε α) (next : α → Files ε β) :
    adapt rename (program >>= next) = adapt rename program >>= fun a => adapt rename (next a) := by
  apply ext_runOn
  intro t
  rw [runOn_adapt, runOn_bind, runOn_bind, runOn_adapt]
  rcases runOn program t with ⟨_ | a, left⟩
  · rfl
  · exact (runOn_adapt rename (next a) left).symm

/-- The errors are renamed for every item that a program goes through. -/
lemma adapt_mapM (rename : ε → δ) (program : α → Files ε β) (items : List α) :
    adapt rename (items.mapM program) = items.mapM fun a => adapt rename (program a) := by
  induction items with
  | nil => rfl
  | cons a items ih => simp only [List.mapM_cons, adapt_bind, adapt_pure, ih]

/-! ### What programs keep -/

/-- What holds of a tree holds of the tree that the program leaves, also when the program fails. -/
def Preserves (P : FileTree → Prop) (program : Files ε α) : Prop :=
  ∀ t, P t → P (runOn program t).2

variable {P : FileTree → Prop}

/-- What a program keeps holds of the tree that it leaves. -/
lemma Preserves.of_runOn {program : Files ε α} (h : Preserves P program) {t left : FileTree}
    (holds : P t) {outcome : Except ε α} (ran : runOn program t = (outcome, left)) : P left := by
  have kept := h t holds
  rwa [ran] at kept

lemma Preserves.pure (a : α) : Preserves P (pure a : Files ε α) := fun _ h => h

lemma Preserves.throw (e : ε) : Preserves P (throw e : Files ε α) := fun _ h => h

lemma Preserves.read (look : FileTree → Except ε α) : Preserves P (read look) := by
  intro t h
  rw [runOn_read]
  exact h

lemma Preserves.adapt {rename : ε → δ} {program : Files ε α} (h : Preserves P program) :
    Preserves P (adapt rename program) := by
  intro t ht
  rw [runOn_adapt]
  exact h t ht

lemma Preserves.get_bind {next : FileTree → Files ε β} (h : ∀ s, Preserves P (next s)) :
    Preserves P (get >>= next) := fun t ht => h t t ht

/-- Two programs one after the other keep what both keep. -/
lemma Preserves.bind {program : Files ε α} {next : α → Files ε β} (h : Preserves P program)
    (hnext : ∀ a, Preserves P (next a)) : Preserves P (program >>= next) := by
  intro t ht
  have kept := h t ht
  rw [runOn_bind]
  cases ran : runOn program t with
  | mk outcome left =>
    rw [ran] at kept
    cases outcome with
    | ok a => exact hnext a left kept
    | error e => exact kept

/-- A program that goes through a list keeps what it keeps for each item. -/
lemma Preserves.mapM {program : α → Files ε β} {items : List α}
    (h : ∀ a ∈ items, Preserves P (program a)) : Preserves P (items.mapM program) := by
  induction items with
  | nil => exact .pure []
  | cons a items ih =>
    rw [List.mapM_cons]
    refine (h a List.mem_cons_self).bind fun b => ?_
    exact (ih fun a' ha' => h a' (List.mem_cons_of_mem _ ha')).bind fun bs => .pure (b :: bs)

end Stencil.Files
