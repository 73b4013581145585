import SqlEngine.Pattern

/-!
# Remembered patterns

The forms of the first patterns that were asked for, so that a pattern that is asked for again need
not be looked at again. The number of remembered patterns is bounded.
-/
namespace SqlEngine.Pattern

/-- The largest number of patterns that are remembered. -/
def cacheLimit : Nat := 256

/-- Patterns with their forms, the latest first. -/
structure Cache where
  entries : List (String × Form)

namespace Cache

def empty : Cache := ⟨[]⟩

/-- The form that is remembered for a pattern. -/
def find? (cache : Cache) (pattern : String) : Option Form :=
  (cache.entries.find? fun entry => entry.1 == pattern).map (·.2)

/-- Remembers a form unless the cache is full. -/
def add (cache : Cache) (pattern : String) (form : Form) : Cache :=
  if cache.entries.length < cacheLimit then ⟨(pattern, form) :: cache.entries⟩ else cache

/-- Whether a text is like a pattern, and the cache afterwards. -/
def isLike (cache : Cache) (text pattern : String) : Bool × Cache :=
  let small := (Text.lower text).toList
  match cache.find? pattern with
  | some form => (form.fits small, cache)
  | none =>
    let form := Form.ofPattern pattern
    (form.fits small, cache.add pattern form)

/-- Whether texts are like patterns, asked one after another. -/
def areLike (cache : Cache) : List (String × String) → List Bool × Cache
  | [] => ([], cache)
  | (text, pattern) :: rest =>
    let (answer, cache) := cache.isLike text pattern
    let (answers, cache) := cache.areLike rest
    (answer :: answers, cache)

end Cache
end SqlEngine.Pattern
