import Classlet.Proofs.Report.Clean

/-!
# Log lines

Log lines are written by a logger, and the logger is no part of the program.  Of any
logger it is required that it adds to what it is told nothing but whole sequences.  So
what a transcript writes to standard error is one text in several looks: the color of
its spans decides on the sequences of the spans, the logger on those of the log lines.
-/

namespace Classlet.Console

/-! ## What is required of a logger -/

/--
What a logger keeps to.  As long as nothing it is given has an escape character, it
writes none but in whole sequences; and where the environment asks for no colors, it
writes the same but for these sequences.
-/
structure Logger.Lawful (logger : Logger) : Prop where
  opening (filter : String) (hfilter : Clean filter) :
    Decorates fun noColor => logger.opening ⟨filter, noColor⟩
  written (filter : String) (remark : Remark) (hfilter : Clean filter)
    (hmessage : Clean remark.message) :
    Decorates fun noColor => logger.written ⟨filter, noColor⟩ remark

/-- The logger writes no sequences. -/
structure Logger.Unstyled (logger : Logger) (logging : Logging) : Prop where
  opening : escape ∉ logger.opening logging
  written (remark : Remark) (hmessage : Clean remark.message) :
    escape ∉ logger.written logging remark

/-! ## Standard error -/

section Transcripts

variable [logger : Logger] {filter : String} {transcript : Transcript}

/-- A look is whether spans have their color, and whether the environment wants none. -/
theorem Notice.decorates (hlogger : logger.Lawful) (hfilter : Console.Clean filter)
    {notice : Notice} (h : notice.Clean) :
    Decorates fun look : Bool × Bool => notice.render ⟨look.1, filter, look.2⟩ := by
  cases notice with
  | span text => exact (Span.decorates h).comp Prod.fst
  | remark told => exact (hlogger.written filter told hfilter h).comp Prod.snd

theorem Transcript.Clean.decorates_stderr (hlogger : logger.Lawful)
    (hfilter : Console.Clean filter) (h : transcript.Clean) :
    Decorates fun look : Bool × Bool =>
      transcript.err.flatMap (Notice.render ⟨look.1, filter, look.2⟩) :=
  .flatMap fun notice hnotice => Notice.decorates hlogger hfilter (h.err notice hnotice)

/-- Without color, only a logger puts sequences on standard error. -/
theorem Transcript.Clean.clean_stderr {logging : Logging}
    (hlogger : logger.Unstyled logging)
    (h : transcript.Clean) : Console.Clean (transcript.stderr ⟨false, logging⟩) := by
  rw [stderr, clean_ofList]
  intro hmem
  obtain ⟨notice, hnotice, hmem⟩ := List.mem_flatMap.mp hmem
  have hclean := h.err notice hnotice
  cases notice with
  | span text => exact hclean (by simpa [Notice.render, Span.render] using hmem)
  | remark told => exact hlogger.written told hclean hmem

theorem Transcript.mem_stderr {remark : Remark} {char : Char} (settings : Settings)
    (hremark : .remark remark ∈ transcript.err)
    (hchar : char ∈ logger.written settings.logging remark) :
    char ∈ (transcript.stderr settings).toList := by
  rw [stderr, String.toList_ofList]
  exact List.mem_flatMap.mpr ⟨.remark remark, hremark, hchar⟩

end Transcripts

/-! ## The logger for consoles -/

section Lines

variable {remark : Remark}

theorem Level.clean_name (level : Level) : Clean level.name := by
  cases level <;> exact clean_literal rfl (by decide)

theorem Level.clean_column (level : Level) :
    escape ∉ (Text.padRight 5 level.name).toList :=
  Text.clean_padRight.mpr level.clean_name

/-- The codes are those of sequences. -/
def AreCodes (codes : List String) : Prop :=
  ∀ code ∈ codes, ∀ char ∈ code.toList, isParameter char = true

theorem areCodes_brackets : AreCodes bracketCodes := by
  simp [AreCodes, bracketCodes, isParameter]

theorem Level.areCodes (level : Level) : AreCodes level.codes := by
  cases level <;> simp [AreCodes, codes, isParameter]

theorem unstyles_styledText {codes : List String} {text : List Char} (styles : Bool)
    (hcodes : AreCodes codes) (h : escape ∉ text) :
    Unstyles (styledText styles codes text) text := by
  have htext : Unstyles text text := unstyles_self h
  cases styles with
  | false => exact htext
  | true =>
      have hon : Unstyles (codes.flatMap sequence) [] := by
        have hnone : codes.flatMap (fun _ => ([] : List Char)) = [] :=
          List.flatMap_eq_nil_iff.mpr fun _ _ => rfl
        rw [← hnone]
        exact .flatMap fun code hcode => unstyles_sequence (hcodes code hcode)
      have hoff : Unstyles (sequence "0") [] :=
        unstyles_sequence (by simp [isParameter])
      simpa [styledText] using (hon.append htext).append hoff

theorem clean_indented {message : String} (h : Clean message) :
    escape ∉ indented message := by
  have hindent : escape ∉ (Text.spaces 4).toList := Text.clean_spaces 4
  intro hmem
  obtain ⟨char, hchar, hmem⟩ := List.mem_flatMap.mp hmem
  split at hmem
  · exact List.not_mem_cons_of_ne_of_not_mem (by decide) hindent hmem
  · exact h (List.mem_singleton.mp hmem ▸ hchar)

theorem Remark.clean_line (h : Clean remark.message) : escape ∉ remark.line false := by
  have hmarks : escape ≠ '[' ∧ escape ≠ ']' ∧ escape ≠ ' ' ∧ escape ≠ '\n' := by decide
  simp [line, styledText, remark.level.clean_column, hmarks, clean_indented h]

theorem Remark.unstyles_line (styles : Bool) (h : Clean remark.message) :
    Unstyles (remark.line styles) (remark.line false) := by
  have hopening : Unstyles (styledText styles bracketCodes ['[']) ['['] :=
    unstyles_styledText styles areCodes_brackets (by decide)
  have hclosing : Unstyles (styledText styles bracketCodes [']']) [']'] :=
    unstyles_styledText styles areCodes_brackets (by decide)
  have hlevel :=
    unstyles_styledText styles remark.level.areCodes remark.level.clean_column
  have hmessage : escape ∉ ' ' :: indented remark.message ++ ['\n'] := by
    have hends : escape ≠ ' ' ∧ escape ≠ '\n' := by decide
    simp [clean_indented h, hends]
  have hline :=
    ((hopening.append hlevel).append hclosing).append (unstyles_self hmessage)
  simpa [line, styledText] using hline

theorem Remark.decorates_line (h : Clean remark.message) :
    Decorates fun styles => remark.line styles :=
  ⟨_, clean_line h, fun styles => unstyles_line styles h⟩

end Lines

theorem Logger.lawful_console (asked? : Option String) (terminal : Bool) :
    (console asked? terminal).Lawful where
  opening _ _ := decorates_const List.not_mem_nil
  written filter remark _ hmessage := by
    change Decorates fun noColor =>
      if remark.level.shown (thresholdNamed filter) then
        remark.line (usesStyles asked? (terminal && !noColor))
      else []
    split
    · exact (Remark.decorates_line hmessage).comp
        fun noColor => usesStyles asked? (terminal && !noColor)
    · exact decorates_const List.not_mem_nil

/-- Where it may not use styles, the logger for consoles writes no sequences. -/
theorem Logger.unstyled_console {asked? : Option String} {terminal : Bool}
    {logging : Logging} (h : usesStyles asked? (terminal && !logging.noColor) = false) :
    (console asked? terminal).Unstyled logging where
  opening := List.not_mem_nil
  written remark hmessage := by
    change escape ∉ if remark.level.shown (thresholdNamed logging.filter) then
      remark.line (usesStyles asked? (terminal && !logging.noColor)) else []
    rw [h]
    split
    · exact Remark.clean_line hmessage
    · exact List.not_mem_nil

end Classlet.Console
