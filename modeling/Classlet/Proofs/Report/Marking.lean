import Classlet.Command.Batch
import Classlet.Proofs.Analysis.Diagnosis
import Classlet.Proofs.Scan.Layout
import Classlet.Proofs.Text.Lines

/-!
# The marker of a failure

A failure is shown with the source line of the token it blames and a marker below that
token's first character.  The place of a token counts the newlines before it and the
characters since the last of them; the lines of the source are counted at their ends,
which may have two characters, and the gutter has any width.  That these agree is seen
from the token's first character: it is no blank, so it is part of no line end.
-/

namespace Classlet

/-! ## The blamed token -/

namespace Analysis

variable {tokens : List Token} {fault : Fault}

theorem exists_justifies (h : analyze tokens = .error fault) :
    ∃ read rest, tokens = read ++ rest ∧ Justifies read rest fault := by
  obtain ⟨config, hsteps, hends⟩ := (Config.initial tokens).exists_steps
  have hfault := fault?_of_analyze_error h
  obtain ⟨read, hread, hplace⟩ := exists_place hsteps
  refine ⟨read, config.rest, hread, ?_⟩
  -- What is wrong with names and types depends on where in the text the run has come.
  by_cases hkind : fault.kind = .syntactic
  · exact justifies_syntax rfl hread hends.stays.2 hfault hkind
  · rcases hplace with hplain | ⟨front, seen, heading, plain, rfl, hheading, hgoals⟩ |
      ⟨inner, plain, name, front, seen, rfl, hgoals, hinside⟩
    · exact absurd (kind_of_plain hplain hends hfault) hkind
    · obtain ⟨name, previous, rfl, hrepeats⟩ :=
        repeatsField hsteps hheading hgoals hread hends hfault hkind
      exact .inl hrepeats
    · exact hinside.justifies hgoals hends hfault hkind

/-- The blamed token is one of the text and stands where the fault is reported. -/
theorem exists_blamed (h : analyze tokens = .error fault) :
    ∃ token ∈ tokens, fault.blamed? tokens = some token ∧ token.position = fault.position := by
  obtain ⟨read, rest, rfl, hjustifies⟩ := exists_justifies h
  exact hjustifies.exists_blamed

end Analysis

namespace Report

open Console (Line Logger Logging Notice Span Transcript plain red redBold dim)
open Scan (placeAfter)

/-! ## Uncolored lines -/

def textOf (line : Line) : List Char :=
  line.flatMap (·.text.toList)

theorem render_uncolored (span : Span) : span.render false = span.text.toList := by
  simp [Span.render]

theorem stderr_complain [Logger] (lines : List Line) (logging : Logging) :
    ((Transcript.complain lines).stderr ⟨false, logging⟩).toList =
      lines.flatMap fun line => textOf line ++ ['\n'] := by
  rw [Transcript.stderr, String.toList_ofList]
  simp [Transcript.complain, Console.spansOf, List.map_flatMap, List.flatMap_assoc,
    List.flatMap_map, Notice.render, render_uncolored, textOf, Console.plain]

/-! ## The marked line -/

/-- A token begins with a character of a line, as far into it as its column says. -/
theorem exists_line_of_mem_tokens {source : String} {token : Token}
    (hmem : token ∈ Scan.tokens source) :
    ∃ above start char rest below, source.toList = above ++ (start ++ char :: rest ++ below) ∧
      Text.IsLine above (start ++ char :: rest) below ∧
      token.position = placeAfter (above ++ start) ∧ token.position.column - 1 = start.length ∧
      token.lexeme.toList <+: char :: (rest ++ below) ∧
      token.lexeme.toList.head? = some char := by
  obtain ⟨before, after, char, others, hsource, hplace, hchars, hblank⟩ :=
    Scan.exists_place_of_mem_tokens hmem
  -- Both characters of a line end are blanks, and the token begins with none.
  have hinline : Text.Inline char (others ++ after) := by
    constructor
    · rintro rfl
      exact absurd hblank (by decide)
    · rintro rfl
      exact absurd hblank (by decide)
  obtain ⟨above, start, rest, below, rfl, hrest, hlength, hline⟩ :=
    hinline.exists_line before
  have hlines : source.toList = above ++ (start ++ char :: rest ++ below) := by
    rw [hsource, hchars]
    simp [hrest]
  have hcolumn : token.position.column - 1 = start.length := by
    rw [hplace, hlength]
    simp [placeAfter]
  exact ⟨above, start, char, rest, below, hlines, hline, hplace, hcolumn,
    ⟨after, by rw [hchars, List.cons_append, hrest]⟩, by rw [hchars]; rfl⟩

/--
What is shown has a line with the number and the text of the source line in which the
token begins, and below the first character of the token stands the marker.
-/
inductive Marks (source : String) (token : Token) (shown : String) : Prop where
  | intro {above start rest below ahead behind : List Char} {char : Char} {column : Nat}
      (hsource : source.toList = above ++ (start ++ char :: rest ++ below))
      (hline : Text.IsLine above (start ++ char :: rest) below)
      (hplace : token.position = placeAfter (above ++ start))
      (hlexeme : token.lexeme.toList <+: char :: (rest ++ below))
      (hfirst : token.lexeme.toList.head? = some char)
      (hshown : shown.toList = ahead ++ '\n' ::
        ((gutter token.position.line).toList ++ (start ++ char :: rest)) ++ '\n' ::
        (List.replicate column ' ' ++ "^ error here\n".toList ++ behind))
      (hcolumn : ((gutter token.position.line).toList ++ (start ++ char :: rest))[column]? =
        some char)

theorem sourceLine?_eq {source : String} {above start rest below : List Char} {char : Char}
    (hsource : source.toList = above ++ (start ++ char :: rest ++ below))
    (hline : Text.IsLine above (start ++ char :: rest) below) :
    sourceLine? source (placeAfter (above ++ start)) =
      some (String.ofList (start ++ char :: rest)) := by
  have hinside : '\n' ∉ start := fun hmem => hline.inside (List.mem_append_left _ hmem)
  have hnumber : (placeAfter (above ++ start)).line - 1 = above.count '\n' := by
    simp [placeAfter, List.count_eq_zero_of_not_mem hinside]
  rw [sourceLine?, hnumber, Text.lines, List.getElem?_map, hsource,
    hline.linesOf_getElem? (by simp)]
  rfl

/-- How far to the right the marker stands. -/
def markerColumn (position : Position) : Nat :=
  (gutter position.line).length + (position.column - 1)

/-- If the line is found, it is shown with the marker below. -/
theorem exists_shown [Logger] {source text : String} (failure : Failure)
    (hfound : sourceLine? source failure.position = some text) (logging : Logging) :
    ∃ ahead behind,
      ((Transcript.complain (failureLines source failure)).stderr ⟨false, logging⟩).toList =
        ahead ++ '\n' :: ((gutter failure.position.line).toList ++ text.toList) ++ '\n' ::
          (List.replicate (markerColumn failure.position) ' ' ++ "^ error here\n".toList ++
            behind) := by
  let headline : Line := [redBold failure.kind.label, plain ": ", red failure.message]
  let place : Line :=
    [plain s!"  --> line {failure.position.line}, column {failure.position.column}"]
  let edge : Line := [plain "     |"]
  refine ⟨textOf headline ++ '\n' :: textOf place ++ '\n' :: textOf edge,
    textOf edge ++ '\n' :: (advice failure).flatMap fun line => textOf line ++ ['\n'], ?_⟩
  rw [stderr_complain, failureLines, snippet, hfound]
  simp [headline, place, edge, textOf, marker, markerColumn, Text.spaces, plain, red, redBold,
    dim]

/-- The verdict on a faulty text marks the blamed token. -/
theorem verdict_marks [Logger] {source : String} {fault : Fault}
    (h : Command.analyzeText source = .error fault) (symbols : Bool) (logging : Logging) :
    ∃ token ∈ Scan.tokens source, fault.blamed? (Scan.tokens source) = some token ∧
      Marks source token
        ((verdict symbols source (Command.analyzeText source)).stderr ⟨false, logging⟩) := by
  obtain ⟨token, hmem, hblamed, hposition⟩ := Analysis.exists_blamed h
  obtain ⟨above, start, char, rest, below, hsource, hline, hplace, hcolumn, hlexeme, hfirst⟩ :=
    exists_line_of_mem_tokens hmem
  have hsame : fault.failure.position = token.position := hposition.symm
  have hfound : sourceLine? source fault.failure.position =
      some (String.ofList (start ++ char :: rest)) := by
    rw [hsame, hplace]
    exact sourceLine?_eq hsource hline
  obtain ⟨ahead, behind, hshown⟩ := exists_shown fault.failure hfound logging
  rw [hsame, markerColumn, hcolumn, String.toList_ofList] at hshown
  have hmarked : ((gutter token.position.line).toList ++ (start ++ char :: rest))[
      (gutter token.position.line).length + start.length]? = some char := by
    rw [← String.length_toList]
    simp
  rw [h, verdict]
  exact ⟨token, hmem, hblamed, .intro hsource hline hplace hlexeme hfirst hshown hmarked⟩

theorem verdict_marks_last_token :
    let source := "\r\nnamespace\r\n"
    let fault : Fault := .unexpected (.kind .identifier) (.ending ⟨2, 1⟩)
    Command.analyzeText source = .error fault ∧
      ∃ token ∈ Scan.tokens source, fault.blamed? (Scan.tokens source) = some token ∧
        Marks source token
          ((verdict true source (Command.analyzeText source)).stderr
            ⟨false, "warn", false⟩) := by
  intro source fault
  have hfault : Command.analyzeText source = .error fault := by decide
  exact ⟨hfault, verdict_marks hfault true _⟩

end Report

end Classlet
