import Stencil.Config

/-!
# The configuration cache

A cache holds at most one configuration.  It is filled by the first load that succeeds or by an
installation, keeps what it holds until it is reset, and marks every fill with a fresh stamp, so
that the stamps of two answers tell whether they come from the same fill.
-/

namespace Stencil

/-- A configuration as one particular fill of a cache gave it. -/
structure Fill where
  stamp : Nat
  config : UserConfig
  deriving DecidableEq

/-- A cache, with the stamp of the next fill. -/
structure ConfigCache where
  slot : Option Fill
  next : Nat
  deriving DecidableEq

namespace ConfigCache

/-- A cache that was never filled. -/
def empty : ConfigCache := ⟨none, 0⟩

/-- Fills the cache. -/
def install (cache : ConfigCache) (config : UserConfig) : Fill × ConfigCache :=
  let fill := ⟨cache.next, config⟩
  (fill, ⟨some fill, cache.next + 1⟩)

/-- Empties the cache. -/
def reset (cache : ConfigCache) : ConfigCache :=
  { cache with slot := none }

/-- The answer of a cache: whether the loader ran, and the fill or the loader's error. -/
structure Answer (ε : Type) where
  loaded : Bool
  result : Except ε Fill

/-- What the cache holds, or else what the loader gives; a loader that fails fills nothing. -/
def getOrLoad {ε : Type} (cache : ConfigCache) (load : Unit → Except ε UserConfig) :
    Answer ε × ConfigCache :=
  match cache.slot with
  | some fill => (⟨false, .ok fill⟩, cache)
  | none =>
    match load () with
    | .error e => (⟨true, .error e⟩, cache)
    | .ok config =>
      let (fill, cache) := cache.install config
      (⟨true, .ok fill⟩, cache)

/-- The ways to use a cache. -/
inductive Step (ε : Type) where
  | getOrLoad (load : Unit → Except ε UserConfig)
  | install (config : UserConfig)
  | reset

/-- The answer to a use of the cache, and the cache after it; a reset has no answer. -/
def step {ε : Type} (cache : ConfigCache) : Step ε → Option (Answer ε) × ConfigCache
  | .getOrLoad load =>
    let (answer, cache) := cache.getOrLoad load
    (some answer, cache)
  | .install config =>
    let (fill, cache) := cache.install config
    (some ⟨false, .ok fill⟩, cache)
  | .reset => (none, cache.reset)

/-- The answers to uses of the cache in turn, and the cache after them. -/
def run {ε : Type} (cache : ConfigCache) :
    List (Step ε) → List (Option (Answer ε)) × ConfigCache
  | [] => ([], cache)
  | first :: rest =>
    let (answer, cache) := cache.step first
    let (answers, cache) := cache.run rest
    (answer :: answers, cache)

end ConfigCache

end Stencil
