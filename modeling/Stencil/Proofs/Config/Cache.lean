import Stencil.Config.Cache
import Mathlib.Tactic.Common
import Mathlib.Data.List.Induction

/-!
# What a cache answers after any uses

A history lists the uses of a cache with their answers.  The latest fill since the last reset
(`lastFill`) is read off a history alone, and it decides every answer: a loader runs exactly when
there is no such fill, and otherwise the answer is that very fill (`follows_of_history`).  A fill
that is new has a stamp that no earlier answer has, so two answers in a row are the same fill
exactly when no reset lies between them (`answers_of_history`).
-/

namespace Stencil.ConfigCache

variable {ε : Type}

/-! ### Histories -/

/-- A use of a cache with its answer. -/
abbrev Event (ε : Type) := Step ε × Option (Answer ε)

/-- The uses of a cache in turn, with their answers. -/
def history (cache : ConfigCache) (steps : List (Step ε)) : List (Event ε) :=
  steps.zip (cache.run steps).1

namespace Event

/-- Whether the use empties the cache. -/
def isReset : Event ε → Bool
  | (.reset, _) => true
  | _ => false

/-- The fill that was handed out, if one was. -/
def given? : Event ε → Option Fill
  | (_, some ⟨_, .ok fill⟩) => some fill
  | _ => none

/-- The fill that was made: by an installation, or by a loader that ran and succeeded. -/
def fill? : Event ε → Option Fill
  | (.install _, some ⟨_, .ok fill⟩) => some fill
  | (.getOrLoad _, some ⟨true, .ok fill⟩) => some fill
  | _ => none

/-- A fill that was made was handed out. -/
lemma given?_of_fill? {event : Event ε} {fill : Fill} (h : event.fill? = some fill) :
    event.given? = some fill := by
  obtain ⟨step, _ | ⟨loaded, _ | given⟩⟩ := event
  · cases step <;> cases h
  · cases step <;> cases loaded <;> cases h
  · cases step <;> cases loaded <;> cases h <;> rfl

end Event

/-- The latest fill since the last reset, or since the start when there was none. -/
def lastFill (past : List (Event ε)) : Option Fill :=
  (past.reverse.takeWhile fun event => !event.isReset).findSome? Event.fill?

/-- No earlier answer is the same fill. -/
def New (past : List (Event ε)) (fill : Fill) : Prop :=
  ∀ event ∈ past, ∀ given, event.given? = some given → given.stamp ≠ fill.stamp

/-- The last use decides: a reset leaves no fill, a fill is the latest, and any other use changes
nothing. -/
lemma lastFill_concat (past : List (Event ε)) (event : Event ε) :
    lastFill (past ++ [event]) =
      if event.isReset then none else event.fill?.or (lastFill past) := by
  unfold lastFill
  rw [List.reverse_concat]
  cases reset : event.isReset with
  | true => simp [reset]
  | false =>
    simp only [List.takeWhile_cons, reset, Bool.not_false, Bool.false_eq_true, if_false, if_true,
      List.findSome?_cons]
    cases event.fill? with
    | none => rfl
    | some fill => rfl

/-- Uses that hand nothing out leave the latest fill, unless they reset. -/
lemma lastFill_append {past mid : List (Event ε)} (quiet : ∀ event ∈ mid, event.given? = none) :
    lastFill (past ++ mid) = if mid.any Event.isReset then none else lastFill past := by
  induction mid using List.reverseRecOn with
  | nil => simp
  | append_singleton mid event ih =>
    have noFill : event.fill? = none := by
      apply Option.eq_none_iff_forall_ne_some.mpr
      intro fill made
      have given := quiet event (by simp)
      rw [Event.given?_of_fill? made] at given
      cases given
    rw [← List.append_assoc, lastFill_concat, noFill, Option.none_or,
      ih fun event mem => quiet event (List.mem_append_left _ mem), List.any_append]
    cases reset : event.isReset with
    | true => simp [reset]
    | false => rw [List.any_cons, reset, List.any_nil, Bool.false_or, Bool.or_false]; rfl

/-! ### One use -/

/-- The answer to a use of a cache is the right one after others. -/
inductive Follows (past : List (Event ε)) : Event ε → Prop
  | reset : Follows past (.reset, none)
  | install {fill} : New past fill →
      Follows past (.install fill.config, some ⟨false, .ok fill⟩)
  | held {load fill} : lastFill past = some fill →
      Follows past (.getOrLoad load, some ⟨false, .ok fill⟩)
  | failed {load e} : lastFill past = none → load () = .error e →
      Follows past (.getOrLoad load, some ⟨true, .error e⟩)
  | loaded {load fill} : lastFill past = none → load () = .ok fill.config → New past fill →
      Follows past (.getOrLoad load, some ⟨true, .ok fill⟩)

/-- The cache holds the latest fill of the history, and the next stamp is a fresh one. -/
structure Holds (past : List (Event ε)) (cache : ConfigCache) : Prop where
  slot : cache.slot = lastFill past
  fresh : ∀ event ∈ past, ∀ given, event.given? = some given → given.stamp < cache.next

/-- A cache that was never used. -/
lemma holds_empty : Holds ([] : List (Event ε)) .empty :=
  ⟨rfl, by simp⟩

/-- The latest fill was handed out when it was made. -/
lemma exists_given_of_lastFill {past : List (Event ε)} {fill : Fill}
    (h : lastFill past = some fill) : ∃ event ∈ past, event.given? = some fill := by
  obtain ⟨event, mem, made⟩ := List.exists_of_findSome?_eq_some h
  have inPast : event ∈ past := by
    apply List.mem_reverse.mp
    exact (List.takeWhile_sublist _).subset mem
  exact ⟨event, inPast, Event.given?_of_fill? made⟩

/-- The next stamp is new. -/
lemma Holds.new {past : List (Event ε)} {cache : ConfigCache} (holds : Holds past cache)
    (config : UserConfig) : New past ⟨cache.next, config⟩ := by
  intro event mem given isGiven
  exact Nat.ne_of_lt (holds.fresh event mem given isGiven)

/-- A history with one use more is held if its latest fill is, and if what the use hands out has a
stamp below the next one. -/
lemma Holds.concat {past : List (Event ε)} {cache cache' : ConfigCache} {event : Event ε}
    (holds : Holds past cache) (slot : cache'.slot = lastFill (past ++ [event]))
    (le : cache.next ≤ cache'.next)
    (fresh : ∀ given, event.given? = some given → given.stamp < cache'.next) :
    Holds (past ++ [event]) cache' := by
  refine ⟨slot, fun other mem given isGiven => ?_⟩
  rcases List.mem_append.mp mem with earlier | last
  · exact Nat.lt_of_lt_of_le (holds.fresh other earlier given isGiven) le
  · rw [List.mem_singleton.mp last] at isGiven
    exact fresh given isGiven

/-- A use of a cache is answered rightly and leaves the cache with the latest fill. -/
lemma Holds.step {past : List (Event ε)} {cache : ConfigCache} (holds : Holds past cache)
    (step : Step ε) :
    Follows past (step, (cache.step step).1) ∧
      Holds (past ++ [(step, (cache.step step).1)]) (cache.step step).2 := by
  cases step with
  | reset =>
    refine ⟨.reset, holds.concat ?_ (Nat.le_refl _) nofun⟩
    rw [lastFill_concat]
    rfl
  | install config =>
    have follows : Follows past (.install config, some ⟨false, .ok ⟨cache.next, config⟩⟩) :=
      .install (holds.new config)
    refine ⟨follows, holds.concat ?_ (Nat.le_succ _) ?_⟩
    · rw [lastFill_concat]
      rfl
    · intro given isGiven
      cases isGiven
      exact Nat.lt_succ_self _
  | getOrLoad load =>
    have slot := holds.slot
    cases held : cache.slot with
    | some fill =>
      have answered : cache.step (.getOrLoad load) = (some ⟨false, .ok fill⟩, cache) := by
        simp only [ConfigCache.step, getOrLoad, held]
      rw [held] at slot
      rw [answered]
      refine ⟨.held slot.symm, holds.concat ?_ (Nat.le_refl _) ?_⟩
      · rw [lastFill_concat, held, slot]
        rfl
      · intro given isGiven
        cases isGiven
        obtain ⟨event, mem, isGiven⟩ := exists_given_of_lastFill slot.symm
        exact holds.fresh event mem fill isGiven
    | none =>
      rw [held] at slot
      cases result : load () with
      | error e =>
        have answered : cache.step (.getOrLoad load) = (some ⟨true, .error e⟩, cache) := by
          simp only [ConfigCache.step, getOrLoad, held, result]
        rw [answered]
        refine ⟨.failed slot.symm result, holds.concat ?_ (Nat.le_refl _) nofun⟩
        rw [lastFill_concat, held, slot]
        rfl
      | ok config =>
        have answered : cache.step (.getOrLoad load) =
            (some ⟨true, .ok ⟨cache.next, config⟩⟩,
              ⟨some ⟨cache.next, config⟩, cache.next + 1⟩) := by
          simp only [ConfigCache.step, getOrLoad, held, result, ConfigCache.install]
        rw [answered]
        refine ⟨.loaded slot.symm result (holds.new config), holds.concat ?_ (Nat.le_succ _) ?_⟩
        · rw [lastFill_concat]
          rfl
        · intro given isGiven
          cases isGiven
          exact Nat.lt_succ_self _

/-! ### Whole histories -/

lemma history_cons (cache : ConfigCache) (step : Step ε) (steps : List (Step ε)) :
    cache.history (step :: steps) =
      (step, (cache.step step).1) :: (cache.step step).2.history steps := rfl

/-- Every use in a history is answered rightly after those before it. -/
lemma Holds.follows {earlier past future : List (Event ε)} {event : Event ε}
    {cache : ConfigCache} {steps : List (Step ε)} (holds : Holds earlier cache)
    (h : cache.history steps = past ++ event :: future) : Follows (earlier ++ past) event := by
  induction steps generalizing cache earlier past with
  | nil =>
    have empty : ([] : List (Event ε)) = past ++ event :: future := h
    simp at empty
  | cons step steps ih =>
    obtain ⟨follows, holds'⟩ := holds.step step
    rw [history_cons] at h
    cases past with
    | nil =>
      obtain ⟨rfl, -⟩ := List.cons.inj h
      rwa [List.append_nil]
    | cons first past =>
      obtain ⟨rfl, others⟩ := List.cons.inj h
      have later := ih holds' others
      rwa [List.append_assoc] at later

/-- Every use of a new cache is answered rightly after those before it. -/
theorem follows_of_history {steps : List (Step ε)} {past future : List (Event ε)}
    {event : Event ε} (h : empty.history steps = past ++ event :: future) : Follows past event :=
  holds_empty.follows h

/-- The fill that was handed out last is the latest one if there was no reset after it; otherwise
there is none. -/
lemma lastFill_of_given {earlier mid : List (Event ε)} {event : Event ε} {fill : Fill}
    (follows : Follows earlier event) (isGiven : event.given? = some fill)
    (quiet : ∀ other ∈ mid, other.given? = none) :
    lastFill (earlier ++ event :: mid) =
      if mid.any Event.isReset then none else some fill := by
  have latest : lastFill (earlier ++ [event]) = some fill := by
    rw [lastFill_concat]
    cases follows with
    | reset => cases isGiven
    | install new => cases isGiven; rfl
    | held isLast => cases isGiven; exact isLast
    | failed isLast failed => cases isGiven
    | loaded isLast loaded new => cases isGiven; rfl
  rw [List.append_cons, lastFill_append quiet, latest]

/-- What a cache answers when it is asked for its configuration. -/
lemma Follows.getOrLoad {past : List (Event ε)} {load : Unit → Except ε UserConfig}
    {answered : Option (Answer ε)} (h : Follows past (.getOrLoad load, answered)) :
    ∃ answer, answered = some answer ∧ (answer.loaded = true ↔ lastFill past = none) ∧
      (∀ fill, lastFill past = some fill → answer.result = .ok fill) ∧
      (answer.loaded = true → ∀ e, load () = .error e → answer.result = .error e ∧
        lastFill (past ++ [(.getOrLoad load, answered)]) = none) ∧
      (answer.loaded = true → ∀ config, load () = .ok config → ∃ fill,
        answer.result = .ok fill ∧ fill.config = config ∧ New past fill ∧
        lastFill (past ++ [(.getOrLoad load, answered)]) = some fill) := by
  cases h with
  | @held _ fill latest =>
    refine ⟨⟨false, .ok fill⟩, rfl, by simp [latest], fun fill' latest' => ?_, nofun, nofun⟩
    rw [latest] at latest'
    cases latest'
    rfl
  | @failed _ e none failed =>
    refine ⟨⟨true, .error e⟩, rfl, by simp [none], fun fill latest => ?_, fun _ e' failed' => ?_,
      fun _ config loaded => ?_⟩
    · rw [none] at latest
      cases latest
    · rw [failed] at failed'
      cases failed'
      rw [lastFill_concat, none]
      exact ⟨rfl, rfl⟩
    · rw [failed] at loaded
      cases loaded
  | @loaded _ fill none loaded new =>
    refine ⟨⟨true, .ok fill⟩, rfl, by simp [none], fun fill' latest => ?_, fun _ e failed => ?_,
      fun _ config loaded' => ?_⟩
    · rw [none] at latest
      cases latest
    · rw [loaded] at failed
      cases failed
    · rw [loaded] at loaded'
      cases loaded'
      refine ⟨fill, rfl, rfl, new, ?_⟩
      rw [lastFill_concat]
      rfl

/-- What a cache answers when a configuration is installed. -/
lemma Follows.install_answer {past : List (Event ε)} {config : UserConfig}
    {answered : Option (Answer ε)} (h : Follows past (.install config, answered)) :
    ∃ fill, answered = some ⟨false, .ok fill⟩ ∧ fill.config = config ∧ New past fill ∧
      lastFill (past ++ [(.install config, answered)]) = some fill := by
  cases h with
  | @install fill new =>
    refine ⟨fill, rfl, rfl, new, ?_⟩
    rw [lastFill_concat]
    rfl

/-- A cache that is asked for its configuration hands out the fill that it handed out last exactly
when it was not reset in between. -/
lemma Follows.same_iff {earlier mid : List (Event ε)} {last : Event ε}
    {load : Unit → Except ε UserConfig} {answered : Option (Answer ε)} {fill fill' : Fill}
    (h : Follows (earlier ++ last :: mid) (.getOrLoad load, answered))
    (before : Follows earlier last) (isGiven : last.given? = some fill)
    (quiet : ∀ other ∈ mid, other.given? = none)
    (isGiven' : Event.given? (.getOrLoad load, answered) = some fill') :
    (fill'.stamp = fill.stamp ↔ ∀ other ∈ mid, other.isReset = false) ∧
      ((∀ other ∈ mid, other.isReset = false) → fill' = fill) := by
  have latest := lastFill_of_given before isGiven quiet
  have noReset : mid.any Event.isReset = false ↔ ∀ other ∈ mid, other.isReset = false := by
    simp
  rw [← noReset]
  cases reset : mid.any Event.isReset with
  | true =>
    rw [reset, if_pos rfl] at latest
    cases h with
    | held isLast =>
      rw [latest] at isLast
      cases isLast
    | failed none failed => cases isGiven'
    | loaded none loaded new =>
      cases isGiven'
      have other : fill.stamp ≠ fill'.stamp := new last (by simp) fill isGiven
      exact ⟨⟨fun same => absurd same.symm other, nofun⟩, nofun⟩
  | false =>
    rw [reset, if_neg (by decide)] at latest
    cases h with
    | held isLast =>
      cases isGiven'
      rw [latest] at isLast
      cases isLast
      exact ⟨⟨fun _ => rfl, fun _ => rfl⟩, fun _ => rfl⟩
    | failed none failed => cases isGiven'
    | loaded none loaded new =>
      rw [latest] at none
      cases none

/-- In any history of a new cache, a loader runs exactly when there was no fill since the last
reset.  When it does not run, the answer is the latest fill; when it runs and fails, its error is
the answer and there is still no fill, so the next loader runs; when it runs and succeeds, and when
a configuration is installed, the answer is a new fill with this configuration.  So the answer is
the fill that was handed out last exactly when no reset lies between. -/
theorem answers_of_history {steps : List (Step ε)} {past future : List (Event ε)} {step : Step ε}
    {answered : Option (Answer ε)}
    (h : empty.history steps = past ++ (step, answered) :: future) :
    (∀ load, step = .getOrLoad load → ∃ answer, answered = some answer ∧
      (answer.loaded = true ↔ lastFill past = none) ∧
      (∀ fill, lastFill past = some fill → answer.result = .ok fill) ∧
      (answer.loaded = true → ∀ e, load () = .error e → answer.result = .error e ∧
        lastFill (past ++ [(step, answered)]) = none) ∧
      (answer.loaded = true → ∀ config, load () = .ok config → ∃ fill,
        answer.result = .ok fill ∧ fill.config = config ∧ New past fill ∧
        lastFill (past ++ [(step, answered)]) = some fill)) ∧
    (∀ config, step = .install config → ∃ fill, answered = some ⟨false, .ok fill⟩ ∧
      fill.config = config ∧ New past fill ∧
      lastFill (past ++ [(step, answered)]) = some fill) ∧
    (step = .reset → answered = none ∧ lastFill (past ++ [(step, answered)]) = none) ∧
    ∀ earlier last mid load fill fill', past = earlier ++ last :: mid →
      Event.given? last = some fill → (∀ other ∈ mid, Event.given? other = none) →
      step = .getOrLoad load → Event.given? (step, answered) = some fill' →
      (fill'.stamp = fill.stamp ↔ ∀ other ∈ mid, Event.isReset other = false) ∧
        ((∀ other ∈ mid, Event.isReset other = false) → fill' = fill) := by
  have follows := follows_of_history h
  refine ⟨?_, ?_, ?_, ?_⟩
  · rintro load rfl
    exact follows.getOrLoad
  · rintro config rfl
    exact follows.install_answer
  · rintro rfl
    cases follows with
    | reset =>
      rw [lastFill_concat]
      exact ⟨rfl, rfl⟩
  · rintro earlier last mid load fill fill' rfl isGiven quiet rfl isGiven'
    rw [List.append_assoc, List.cons_append] at h
    exact follows.same_iff (follows_of_history h) isGiven quiet isGiven'

/-- A loader that fails. -/
def failing : Unit → Except Unit UserConfig := fun _ => .error ()

/-- After a load that failed and an installation, the loader does not run again: the answer is the
installed fill. -/
theorem answers_of_history_installed :
    empty.history [.getOrLoad failing, .install .empty, .getOrLoad failing] =
      [(.getOrLoad failing, some ⟨true, .error ()⟩),
        (.install .empty, some ⟨false, .ok ⟨0, .empty⟩⟩)] ++
        (.getOrLoad failing, some ⟨false, .ok ⟨0, .empty⟩⟩) :: [] ∧
    ∃ answer : Answer Unit, some ⟨false, .ok ⟨0, .empty⟩⟩ = some answer ∧
      (answer.loaded = true ↔ lastFill [(.getOrLoad failing, some ⟨true, .error ()⟩),
        (.install .empty, some ⟨false, .ok ⟨0, .empty⟩⟩)] = none) := by
  have ran : empty.history [.getOrLoad failing, .install .empty, .getOrLoad failing] =
      [(.getOrLoad failing, some ⟨true, .error ()⟩),
        (.install .empty, some ⟨false, .ok ⟨0, .empty⟩⟩)] ++
        (.getOrLoad failing, some ⟨false, .ok ⟨0, .empty⟩⟩) :: [] := rfl
  obtain ⟨answer, answered, ranLoader, -⟩ := (answers_of_history ran).1 failing rfl
  exact ⟨ran, answer, answered, ranLoader⟩

end Stencil.ConfigCache
