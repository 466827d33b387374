import Classlet.Proofs.Command.Braces
import Classlet.Proofs.Scan.Chunks

/-!
# Appending

The editor scans its whole buffer again for every prompt.  Since the buffer ends in a
newline whenever a line is appended, the tokens it had are scanned as before, unless a
literal or block comment was open, and the braces of the lines add up.
-/

namespace Classlet.Command.Editor

open Files (Desk)
open Scan (tokens strays Lined Closed braceSum)

theorem braceDepth_eq_sum (buffer : String) :
    braceDepth buffer = braceSum (tokens buffer) := by
  rw [braceDepth, foldl_braceStep_sum, Int.zero_add]

theorem braceSum_down (lines : Nat) (found : List Token) :
    braceSum (found.map (Token.down lines)) = braceSum found := by
  rw [braceSum, List.map_map]
  rfl

section Appended

variable {front : String}

/-- What scanning a text in two parts comes to. -/
structure Chunked (front more : String) (lines : Nat) : Prop where
  tokens : tokens (front ++ more) = tokens front ++ (tokens more).map (Token.down lines)
  strays : strays (front ++ more) =
    strays front ++ (strays more).map (Prod.map id (Position.down lines))
  braces : braceDepth (front ++ more) = braceDepth front + braceDepth more

theorem chunked_of_closed (hlined : Lined front.toList) (hclosed : Closed (tokens front))
    (more : String) : Chunked front more (front.toList.count '\n') := by
  have hitems := Scan.items_append hlined hclosed more
  have htokens : tokens (front ++ more) =
      tokens front ++ (tokens more).map (Token.down (front.toList.count '\n')) := by
    rw [tokens, hitems, Scan.tokensOf, List.filterMap_append, ← Scan.tokensOf, ← Scan.tokensOf,
      Scan.tokensOf_down]
    rfl
  refine ⟨htokens, ?_, ?_⟩
  · rw [strays, hitems, Scan.straysOf, List.filterMap_append, ← Scan.straysOf, ← Scan.straysOf,
      Scan.straysOf_down]
    rfl
  · rw [braceDepth_eq_sum, htokens, braceSum, List.map_append, List.sum_append, ← braceSum,
      ← braceSum, braceSum_down, ← braceDepth_eq_sum, ← braceDepth_eq_sum]

end Appended

/--
Scanned behind a text that is empty or ends in a newline, and whose last token does not
end in one, a text has the tokens, the stray characters and the open braces it has by
itself, as many lines further down as the first text has newlines.  Those of the first
text come before and stay.  So a line that goes to the buffer of a session changes no
token in it, unless a literal or block comment was open.
-/
theorem scan_in_chunks :
    (∀ front more : String, (front = "" ∨ front.toList.getLast? = some '\n') →
      Closed (tokens front) →
        (∀ token ∈ tokens front, ¬ Scan.LeftOpen token) ∧
        Chunked front more (front.toList.count '\n')) ∧
    ∀ (read : List String) (now : Desk) (line next : String),
      (reactAt (collected read) now line).1.buffer? = some next → ¬ Clears line →
      (∀ token ∈ tokens (collected read), ¬ Scan.LeftOpen token) →
        tokens (collected read) <+: tokens next := by
  constructor
  · intro front more hends hclosed
    have hlined : Lined front.toList := Scan.lined_iff.mpr hends
    exact ⟨Scan.not_leftOpen_of_closed hlined hclosed, chunked_of_closed hlined hclosed more⟩
  · intro read now line next hnext hclears hnone
    have hquits : ¬ Quits line := by
      intro hquits
      rw [reactAt_quits _ _ hquits] at hnext
      cases hnext
    rw [reactAt_buffer read now hquits, Option.some.injEq] at hnext
    rw [← hnext]
    by_cases horder : IsOrder line
    · simp only [collected_of_order read horder hclears, List.prefix_rfl]
    · have hlined : Lined (collected read).toList := Scan.lined_iff.mpr (collected_ends read)
      have hclosed : Closed (tokens (collected read)) := Scan.closed_of_not_leftOpen hnone
      rw [collected_of_text read horder, (chunked_of_closed hlined hclosed _).tokens]
      exact List.prefix_append _ _

theorem scan_in_chunks_behind_comment :
    let read := ["x = \"\x7b\"; // \x7b", "\x7b "]
    let front := collected read
    Closed (tokens front) ∧ Chunked front "y'\n' \x7d #" 2 ∧
      tokens front <+: tokens (front ++ "\x7d\n") := by
  intro read front
  have hends : front = "" ∨ front.toList.getLast? = some '\n' := collected_ends read
  have hclosed : Closed (tokens front) := by decide +kernel
  obtain ⟨hchunks, hsession⟩ := scan_in_chunks
  obtain ⟨hnone, hchunked⟩ := hchunks front "y'\n' \x7d #" hends hclosed
  have hcount : front.toList.count '\n' = 2 := by decide +kernel
  rw [hcount] at hchunked
  have hnext : (reactAt front ⟨.empty, .empty⟩ "\x7d").1.buffer? = some (front ++ "\x7d\n") := by
    have horder : ¬ IsOrder "\x7d" := by decide
    rw [reactAt_buffer read _ (by decide), collected_of_text read horder]
    rfl
  exact ⟨hclosed, hchunked, hsession read _ _ _ hnext (by decide) hnone⟩

end Classlet.Command.Editor
