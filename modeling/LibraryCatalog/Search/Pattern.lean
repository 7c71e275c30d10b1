import LibraryCatalog.Text.Blank
import LibraryCatalog.Text.Lowercase
import LibraryCatalog.Text.Occurrence

/-!
# `LibraryCatalog.Search.Pattern` — wildcard patterns

A star divides a pattern into fragments. A text matches when every fragment occurs somewhere in it, whatever
their order and their overlap, and upper and lower case are the same.

## Contents
- **Type.** `Pattern`, a list of fragments in small letters.
- **Compiling.** `Pattern.ofChars`, `Pattern.ofText`.
- **Matching.** `Pattern.holdsIn`.
-/

namespace LibraryCatalog.Search

open Text

/-- A compiled pattern. -/
structure Pattern where
  /-- The texts that have to occur, none empty, in small letters. -/
  fragments : List (List Char)
deriving Repr, DecidableEq

namespace Pattern

/-- What separates fragments. -/
def wildcard : Char := '*'

/-- The non-empty pieces between stars, each put into small letters by itself. -/
def ofChars (cs : List Char) : Pattern where
  fragments := (((strip (· == wildcard) cs).splitOn wildcard).filter fun f => !f.isEmpty).map lowercase

/-- Compiles a pattern. -/
def ofText (pattern : String) : Pattern := ofChars pattern.toList

/-- Whether every fragment occurs in the small letters of a text. -/
def holdsIn (p : Pattern) (text : String) : Bool :=
  let small := lowercase text.toList
  p.fragments.all fun f => occursIn f small

/-- No fragment is empty. -/
theorem ne_nil_of_mem_fragments {cs f : List Char} (h : f ∈ (ofChars cs).fragments) : f ≠ [] := by
  simp only [ofChars, List.mem_map, List.mem_filter] at h
  obtain ⟨g, ⟨_, hg⟩, rfl⟩ := h
  simpa [lowercase_eq_nil_iff] using hg

end Pattern

end LibraryCatalog.Search
