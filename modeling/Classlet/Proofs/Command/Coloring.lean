import Classlet.Proofs.Command.Runs
import Classlet.Proofs.Console.Logs
import Classlet.Proofs.Files.Faults

/-!
# Coloring

Whether color is on decides how a transcript is rendered and nothing else, so a run
with color and a run without it do the same at a desk.  If no text that goes into the
transcript has an escape character, deleting the sequences of the one run gives the
standard output of the other.  Of standard error this holds as well, unless the logger
styles its lines: no option of the program reaches the logger, so that its sequences
stay in the run without color.
-/

namespace Classlet

open Console (Clean CleanLines Logger Settings Transcript escape unstyled usesStyles
  clean_append clean_literal clean_number clean_ofList clean_text cleanLines_append
  cleanLines_cons cleanLines_nil)

/-! ## File faults -/

theorem Files.FileFault.Standard.clean_message {fault : FileFault}
    (h : fault.Standard) : Clean fault.message := by
  cases fault with
  | other description => exact absurd rfl (h description)
  | _ => exact clean_literal rfl (by decide)

namespace Command

open Files (AtDesk Desk FileFault InputLine)

/-! ## Batch runs -/

/-- The paths among the options have no escape character. -/
structure Options.Clean (options : Options) : Prop where
  file : ∀ path ∈ options.file?, Console.Clean path
  save : ∀ path ∈ options.save?, Console.Clean path

section Batch

variable {source : String} {desk : Desk} {options : Options} {fault : FileFault}

theorem clean_scanLog (source : String) : (scanLog source).Clean := by
  refine Transcript.clean_log fun told htold => ?_
  obtain ⟨item, _, rfl⟩ := List.mem_map.mp htold
  exact Console.Remark.clean_ofItem item

theorem clean_noteLog (h : Clean source) : (noteLog source).Clean := by
  refine Transcript.clean_log fun told htold => ?_
  obtain ⟨note, hnote, rfl⟩ := List.mem_map.mp htold
  exact clean_note_of_source h hnote

namespace Batch

theorem clean_complaint {message : String} (h : Clean message) :
    (complaint message).Clean := by
  have herror : Clean "error" := clean_literal rfl (by decide)
  have hcolon : Clean ": " := clean_literal rfl (by decide)
  refine Transcript.clean_complain ?_
  simp [Console.redBold, Console.plain, Console.red, herror, hcolon, h]

theorem clean_shown (options : Options) (h : Clean source) :
    (shown options source).Clean := by
  unfold shown
  split
  · have htable : CleanLines (Report.tokenTable (Scan.tokens source) ++ [[]]) := by
      simp [Report.clean_tokenTable (cleanTokens_of_source h)]
    unfold tableReport
    split
    · exact (Transcript.clean_say htable).append (Report.clean_verdict h _)
    · exact Transcript.clean_empty.append (Report.clean_verdict h _)
  · refine Transcript.clean_say ?_
    simp [Console.plain, Json.clean_pretty]

theorem clean_report (options : Options) (h : Clean source) :
    (report options source).transcript.Clean := by
  have hcount : (countLog source).Clean := by
    refine Transcript.clean_log fun told htold => ?_
    rw [List.mem_singleton.mp htold]
    exact Console.Remark.clean_counted _ _
  exact (((clean_scanLog source).append hcount).append (clean_noteLog h)).append
    (clean_shown options h)

theorem clean_savedNotice {path : String} (options : Options) (source : String)
    (hpath : Clean path) : (savedNotice options path source).Clean := by
  have hlog : (Transcript.log [.saved source.utf8ByteSize path]).Clean := by
    refine Transcript.clean_log fun told htold => ?_
    rw [List.mem_singleton.mp htold]
    exact Console.Remark.clean_saved _ hpath
  have hsaid : Clean s!"Saved input to {path}" := by
    simp only [clean_append, clean_text, hpath, and_true]
    exact clean_literal rfl (by decide)
  unfold savedNotice
  split
  · refine hlog.append (Transcript.clean_say ?_)
    simp only [cleanLines_cons, List.forall_mem_cons, Console.plain, hsaid]
    simp
  · exact hlog.append Transcript.clean_empty

theorem clean_readFailure {file? : Option String} (hfile : ∀ path ∈ file?, Clean path)
    (h : fault.Standard) : (readFailure file? fault).transcript.Clean := by
  have hname : Clean (sourceName file?) := by
    cases file? with
    | none => exact clean_literal rfl (by decide)
    | some path => exact hfile path rfl
  refine clean_complaint ?_
  simp only [clean_append, clean_text, hname, h.clean_message, and_true]
  constructor <;> exact clean_literal rfl (by decide)

theorem clean_writeFailure {path : String} (hpath : Clean path) (h : fault.Standard) :
    (complaint s!"Failed to write {path}: {fault.message}").Clean := by
  refine clean_complaint ?_
  simp only [clean_append, clean_text, hpath, h.clean_message, and_true]
  constructor <;> exact clean_literal rfl (by decide)

theorem standard_of_textAt (h : textAt desk options = .error fault) :
    fault.Standard := by
  unfold textAt at h
  split at h
  · exact Desk.standard_of_inputText h
  · split at h
    · exact Desk.standard_of_inputText h
    · exact Files.Folder.standard_of_read h

/--
A run without escape characters in its text and its paths says nothing that has one.
-/
theorem clean_run (hoptions : options.Clean)
    (hsource : ∀ source, textAt desk options = .ok source → Clean source) :
    ((run options : AtDesk Result).run desk).1.transcript.Clean := by
  rcases hindered_or_gets desk options with hhindered | ⟨source, after, hgets⟩
  · cases hhindered with
    | unread fault h =>
        simp only [run, bind_run, readSource_run, h]
        exact clean_readFailure hoptions.file (standard_of_textAt h)
    | unsaved source fault hreads h =>
        unfold savedAt at h
        cases hsave : options.save? with
        | none =>
            simp only [hsave] at h
            cases h
        | some path =>
            simp only [hsave] at h
            simp only [run, bind_run, readSource_run, hreads, hsave, writeFile_run, h]
            exact clean_writeFailure (hoptions.save path hsave)
              (Desk.standard_of_write h)
  · have hreport := clean_report options (hsource source hgets.reads)
    rw [run_of_gets hgets]
    unfold savedTold
    split
    · exact Transcript.clean_empty.append hreport
    · rename_i path hsave
      exact (clean_savedNotice options source (hoptions.save path hsave)).append hreport

end Batch

end Batch

/-! ## Sessions -/

namespace Editor

variable {buffer line : String}

theorem clean_greeting : greeting.Clean := by
  have htext : Clean
      "sharpcheck interactive editor. Type :help for help, :quit to exit." :=
    clean_literal rfl (by decide)
  exact Transcript.clean_say (by simp [Console.greenBold, htext])

theorem clean_farewell : farewell.Clean := by
  have htext : Clean "Goodbye." := clean_literal rfl (by decide)
  exact Transcript.clean_say (by simp [Console.plain, htext])

theorem clean_ending : ending.Clean := by
  have htext : Clean "Goodbye." := clean_literal rfl (by decide)
  exact Transcript.clean_say (by simp [Console.plain, htext])

theorem clean_prompt (buffer : String) : (prompt buffer).Clean := by
  have htext : Clean (promptText buffer) := by
    unfold promptText
    split <;> exact clean_literal rfl (by decide)
  exact (clean_scanLog buffer).append
    (Transcript.clean_write (by simp [Console.cyan, htext]))

theorem clean_helpRow {order explanation : String} (horder : Clean order)
    (hexplanation : Clean explanation) :
    ∀ span ∈ helpRow order explanation, Clean span.text := by
  have hindent : Clean "  " := clean_literal rfl (by decide)
  simp [helpRow, Console.plain, Console.yellow, hindent, horder, hexplanation]

theorem clean_helpText : helpText.Clean := by
  refine Transcript.clean_say ?_
  have htitle : Clean "Commands:" := clean_literal rfl (by decide)
  have hend : Clean "Any other line is appended to the input." :=
    clean_literal rfl (by decide)
  simp only [cleanLines_cons, cleanLines_nil, and_true]
  refine ⟨by simp [Console.bold, htitle], ?_, ?_, ?_, ?_, ?_, ?_,
    by simp [Console.plain, hend]⟩ <;>
    exact clean_helpRow (clean_literal rfl (by decide)) (clean_literal rfl (by decide))

theorem clean_checkReport (h : Clean buffer) : (checkReport buffer).Clean :=
  ((clean_scanLog buffer).append (clean_noteLog h)).append (Report.clean_verdict h true)

theorem clean_tokenReport (h : Clean buffer) : (tokenReport buffer).Clean := by
  refine (clean_scanLog buffer).append (Transcript.clean_say ?_)
  refine cleanLines_append.mpr ⟨Report.clean_tokenTable (cleanTokens_of_source h), ?_⟩
  intro line hline
  obtain ⟨⟨char, position⟩, _, rfl⟩ := List.mem_map.mp hline
  have hmessage : Clean (Scan.strayMessage char position) :=
    Console.Remark.clean_skipped char position
  simp [Console.yellow, hmessage]

theorem clean_listing (h : Clean buffer) : (listing buffer).Clean := by
  refine Transcript.clean_say ?_
  split
  · have hempty : Clean "<empty>" := clean_literal rfl (by decide)
    simp [Console.dim, hempty]
  · intro line hline
    obtain ⟨index, hindex, rfl⟩ := List.mem_mapIdx.mp hline
    have htext : Clean (Text.lines buffer)[index] :=
      Text.clean_of_mem_lines h (List.getElem_mem hindex)
    simp [Console.dim, Console.plain, htext]

theorem clean_completed (h : Clean line) : Clean (completed line) := by
  have hbreak : Clean "\n" := clean_literal rfl (by decide)
  unfold completed
  split
  · exact h
  · exact clean_append.mpr ⟨h, hbreak⟩

/-! ### Orders -/

theorem mem_of_mem_trim {chars : List Char} {char : Char} (h : char ∈ Text.trim chars) :
    char ∈ chars := by
  have hleft {text : List Char} (hmem : char ∈ Text.trimLeft text) : char ∈ text :=
    (List.dropWhile_sublist _).subset hmem
  exact hleft (List.mem_reverse.mp (hleft (List.mem_reverse.mp h)))

/-- The line or the path of an order has no escape character. -/
def CleanOrder : Order → Prop
  | .add line => Clean line
  | .save path => Clean path
  | _ => True

theorem cleanOrder_ofLine (h : Clean line) : CleanOrder (.ofLine line) := by
  have hargument : Clean (String.ofList
      (Text.trim ((Text.trim line.toList).dropWhile (!Text.isBlank ·)))) := by
    refine clean_ofList.mpr fun hmem => h (mem_of_mem_trim ?_)
    exact (List.dropWhile_sublist _).subset (mem_of_mem_trim hmem)
  unfold Order.ofLine
  simp only
  split
  · unfold Order.named
    split
    all_goals first | exact trivial | exact hargument
  · exact h

/-- A reaction says nothing that has an escape character, and the buffer stays clean. -/
structure CleanReaction (reaction : Reaction) : Prop where
  transcript : reaction.transcript.Clean
  buffer : ∀ next ∈ reaction.buffer?, Clean next

theorem clean_save {path : String} (desk : Desk) (h : Clean path) :
    ((save buffer path : AtDesk Transcript).run desk).1.Clean := by
  unfold save
  split
  · have husage : Clean "Usage: :save <path>" := clean_literal rfl (by decide)
    exact Transcript.clean_say (by simp [Console.red, husage])
  · simp only [bind_run, writeFile_run]
    cases hwrite : (desk.write path buffer).1 with
    | ok done =>
        have hsaid : Clean s!"Saved input to {path}" := by
          simp only [clean_append, clean_text, h, and_true]
          exact clean_literal rfl (by decide)
        refine Transcript.clean_say ?_
        simp only [cleanLines_cons, List.forall_mem_cons, Console.plain, hsaid]
        simp
    | error fault => exact Batch.clean_writeFailure h (Desk.standard_of_write hwrite)

theorem cleanReaction_obey {order : Order} (desk : Desk) (hbuffer : Clean buffer)
    (horder : CleanOrder order) :
    CleanReaction ((obey buffer order : AtDesk Reaction).run desk).1 := by
  have hkeeps : ∀ next ∈ some buffer, Clean next := by simpa using hbuffer
  cases order with
  | add line =>
      refine ⟨Transcript.clean_empty, ?_⟩
      rintro _ ⟨⟩
      exact clean_append.mpr ⟨hbuffer, clean_completed horder⟩
  | quit => exact ⟨clean_farewell, fun _ h => by cases h⟩
  | help => exact ⟨clean_helpText, hkeeps⟩
  | check => exact ⟨clean_checkReport hbuffer, hkeeps⟩
  | tokens => exact ⟨clean_tokenReport hbuffer, hkeeps⟩
  | view => exact ⟨clean_listing hbuffer, hkeeps⟩
  | clear =>
      have hsaid : Clean "Input cleared." := clean_literal rfl (by decide)
      refine ⟨Transcript.clean_say (by simp [Console.yellow, hsaid]), ?_⟩
      rintro _ ⟨⟩
      exact clean_literal rfl (by decide)
  | save path => exact ⟨clean_save desk horder, hkeeps⟩
  | unknown =>
      have hsaid : Clean "Unknown command. Type :help." := clean_literal rfl (by decide)
      exact ⟨Transcript.clean_say (by simp [Console.red, hsaid]), hkeeps⟩

def CleanLine : InputLine → Prop
  | .text line => Clean line
  | .unreadable => True

theorem cleanReaction_react {line : InputLine} (desk : Desk) (hbuffer : Clean buffer)
    (hline : CleanLine line) :
    CleanReaction ((react buffer line : AtDesk Reaction).run desk).1 := by
  cases line with
  | text line => exact cleanReaction_obey desk hbuffer (cleanOrder_ofLine hline)
  | unreadable =>
      have hsaid : Clean "<input error>" := clean_literal rfl (by decide)
      exact ⟨Transcript.clean_say (by simp [Console.plain, hsaid]),
        fun _ h => by cases h⟩

/-! ### Whole sessions -/

theorem clean_sessionFrom {lines : List InputLine} (desk : Desk)
    (hbuffer : Clean buffer) (hlines : ∀ line ∈ lines, CleanLine line) :
    ((sessionFrom buffer lines : AtDesk Transcript).run desk).1.Clean := by
  induction lines generalizing buffer desk with
  | nil => exact (clean_prompt buffer).append clean_ending
  | cons line rest ih =>
      obtain ⟨hline, hrest⟩ := List.forall_mem_cons.mp hlines
      obtain ⟨htranscript, hnext⟩ := cleanReaction_react desk hbuffer hline
      simp only [sessionFrom, bind_run]
      split
      · exact (clean_prompt buffer).append htranscript
      · rename_i next hbuffer?
        exact ((clean_prompt buffer).append htranscript).append
          (ih _ (hnext next hbuffer?) hrest)

theorem clean_session {lines : List InputLine} (desk : Desk)
    (hlines : ∀ line ∈ lines, CleanLine line) :
    ((session lines : AtDesk Transcript).run desk).1.Clean :=
  clean_greeting.append (clean_sessionFrom desk (clean_literal rfl (by decide)) hlines)

end Editor

/-! ## Two runs -/

/-- The texts that a plan reads at a desk. -/
inductive Plan.Reads (desk : Desk) : Plan → String → Prop where
  | source {settings : Settings} {options : Options} {source : String}
      (h : Batch.textAt desk options = .ok source) :
      Reads desk (.batch settings options) source
  | line {settings : Settings} {line : String}
      (h : InputLine.text line ∈ Files.inputLines desk.input) :
      Reads desk (.edit settings) line

/-- All that a batch run reads, where no file is named, is its input. -/
theorem Plan.Reads.eq_input {settings : Settings} {options : Options}
    {folder : Files.Folder} {source text : String} (hfile : options.file? = none)
    (h : Plan.Reads ⟨source.toUTF8, folder⟩ (.batch settings options) text) :
    text = source := by
  cases h with
  | source h =>
      rw [Batch.textAt_input source folder hfile] at h
      cases h
      rfl

/-- What the options ask for, done at a desk: the answer, and the desk it leaves. -/
def carriedOutAt [Logger] (environment : Environment) (options : Options)
    (desk : Desk) : Answer × Desk :=
  ((options.plan environment).carryOut : AtDesk Answer).run desk

/-- Two invocations that ask for the same, with color and without it. -/
structure Uncolors (environment other : Environment) (options others : Options) :
    Prop where
  others_eq : ∃ noColor, others = { options with noColor := noColor }
  colored : (settings environment options).color = true
  uncolored : (settings other others).color = false
  filter? : other.filter? = environment.filter?
  terminal : other.terminal = environment.terminal

section Runs

variable {environment other : Environment} {options others : Options} {filter : String}

/-- With and without color, a logger is given the same filter. -/
theorem Uncolors.filter_eq (h : Uncolors environment other options others) :
    (logging other others).filter = (logging environment options).filter := by
  obtain ⟨noColor, rfl⟩ := h.others_eq
  simp only [logging, h.filter?]

theorem clean_filter (h : ∀ filter ∈ environment.filter?, Clean filter)
    (options : Options) : Clean (logging environment options).filter := by
  unfold logging
  cases hfilter : environment.filter? with
  | some filter => exact h filter hfilter
  | none =>
      simp only [Option.getD_none]
      unfold usualFilter
      split <;> exact clean_literal rfl (by decide)

/-- Both runs come to one result, which each of them renders with its own settings. -/
theorem Uncolors.exists_result [Logger] (h : Uncolors environment other options others)
    (desk : Desk) (hoptions : options.Clean)
    (hreads : ∀ text, (options.plan environment).Reads desk text → Clean text) :
    ∃ (result : Result) (after : Desk), result.transcript.Clean ∧
      carriedOutAt environment options desk =
        (result.render (settings environment options), after) ∧
      carriedOutAt other others desk =
        (result.render (settings other others), after) := by
  obtain ⟨noColor, rfl⟩ := h.others_eq
  have hterminal := h.terminal
  unfold carriedOutAt Options.plan
  unfold Options.plan at hreads
  simp only [hterminal]
  split at hreads
  · rename_i hedit
    have hlines : ∀ line ∈ Files.inputLines desk.input, Editor.CleanLine line := by
      intro line hline
      cases line with
      | text line => exact hreads line (.line hline)
      | unreadable => exact trivial
    simp only [hedit, if_true]
    exact ⟨⟨0, _⟩, _, Editor.clean_session desk hlines, rfl, rfl⟩
  · rename_i hbatch
    simp only [hbatch]
    have hclean := Batch.clean_run hoptions fun source hsource =>
      hreads source (.source hsource)
    exact ⟨_, _, hclean, rfl, rfl⟩

/-- What a result writes to standard error, in the looks it can have. -/
def Result.errors [Logger] (result : Result) (filter : String) (look : Bool × Bool) :
    List Char :=
  Logger.opening ⟨filter, look.2⟩ ++
    result.transcript.err.flatMap (Console.Notice.render ⟨look.1, filter, look.2⟩)

theorem Result.stderr_render [Logger] (result : Result) (settings : Settings) :
    (result.render settings).stderr =
      String.ofList (result.errors settings.logging.filter
        (settings.color, settings.logging.noColor)) :=
  String.ofList_append.symm

theorem Result.decorates_errors [logger : Logger] {result : Result}
    (hlogger : logger.Lawful) (hfilter : Clean filter) (h : result.transcript.Clean) :
    Console.Decorates (result.errors filter) :=
  ((hlogger.opening filter hfilter).comp Prod.snd).append
    (h.decorates_stderr hlogger hfilter)

section Errors

variable [logger : Logger]

/-- Without their sequences, both runs write the same to standard error. -/
theorem Uncolors.unstyled_stderr (h : Uncolors environment other options others)
    (desk : Desk) (hlogger : logger.Lawful) (hoptions : options.Clean)
    (hfilter : ∀ filter ∈ environment.filter?, Clean filter)
    (hreads : ∀ text, (options.plan environment).Reads desk text → Clean text) :
    unstyled (carriedOutAt environment options desk).1.stderr =
        unstyled (carriedOutAt other others desk).1.stderr ∧
      (unstyled (carriedOutAt environment options desk).1.stderr =
          (carriedOutAt other others desk).1.stderr ↔
        Clean (carriedOutAt other others desk).1.stderr) := by
  obtain ⟨result, after, hclean, hcolored, hbare⟩ :=
    h.exists_result desk hoptions hreads
  have herrors := Result.decorates_errors hlogger (clean_filter hfilter options) hclean
  have hsame : (settings other others).logging.filter =
      (settings environment options).logging.filter := h.filter_eq
  rw [hcolored, hbare, Result.stderr_render, Result.stderr_render, hsame]
  exact ⟨herrors.unstyled_eq _ _, herrors.unstyled_eq_iff _ _⟩

/--
Color decorates.  If neither the paths nor the texts that are read have an escape
character, a run with color has the exit code of the run without it and leaves the same
files; without its sequences for styles, its standard output is that of the other run.
Without their sequences both runs write the same to standard error.  But for the run
without color it takes no deletion only if nothing that it writes there has a sequence,
which is so if its logger does not style what it writes.
-/
theorem color_only_decorates_iff (hlogger : logger.Lawful) (desk : Desk)
    (h : Uncolors environment other options others) (hoptions : options.Clean)
    (hfilter : ∀ filter ∈ environment.filter?, Clean filter)
    (hreads : ∀ text, (options.plan environment).Reads desk text → Clean text) :
    let colored := carriedOutAt environment options desk
    let bare := carriedOutAt other others desk
    colored.1.code = bare.1.code ∧ colored.2 = bare.2 ∧
      unstyled colored.1.stdout = bare.1.stdout ∧
      unstyled colored.1.stderr = unstyled bare.1.stderr ∧
      (unstyled colored.1.stderr = bare.1.stderr ↔ Clean bare.1.stderr) ∧
      (logger.Unstyled (logging other others) → Clean bare.1.stderr) := by
  intro colored bare
  obtain ⟨hsame, hiff⟩ := h.unstyled_stderr desk hlogger hoptions hfilter hreads
  obtain ⟨result, after, hclean, hcolored, hbare⟩ :=
    h.exists_result desk hoptions hreads
  have hon : settings environment options = ⟨true, logging environment options⟩ := by
    rw [← h.colored]
    rfl
  have hoff : settings other others = ⟨false, logging other others⟩ := by
    rw [← h.uncolored]
    rfl
  refine ⟨?_, ?_, ?_, hsame, hiff, fun hunstyled => ?_⟩
  · rw [show colored = _ from hcolored, show bare = _ from hbare]
    rfl
  · rw [show colored = _ from hcolored, show bare = _ from hbare]
  · rw [show colored = _ from hcolored, show bare = _ from hbare, hon, hoff]
    exact hclean.unstyled_stdout _ _
  · rw [show bare = _ from hbare, hoff]
    exact Console.clean_append.mpr
      ⟨clean_ofList.mpr hunstyled.opening, hclean.clean_stderr hunstyled⟩

end Errors

end Runs

theorem color_only_decorates_iff_syntax_error :
    let environment : Environment := ⟨false, none, false⟩
    let options : Options := { Options.default with tokens := true }
    let desk : Desk := ⟨"class".toUTF8, .empty⟩
    let colored := carriedOutAt environment options desk
    let bare := carriedOutAt environment { options with noColor := true } desk
    colored.1.code = bare.1.code ∧ colored.2 = bare.2 ∧
      unstyled colored.1.stdout = bare.1.stdout ∧
      unstyled colored.1.stderr = bare.1.stderr := by
  intro environment options desk colored bare
  have huncolors :
      Uncolors environment environment options { options with noColor := true } :=
    ⟨⟨true, rfl⟩, rfl, rfl, rfl, rfl⟩
  have hreads : ∀ text, (options.plan environment).Reads desk text → Clean text := by
    intro text hreads
    rw [hreads.eq_input rfl]
    exact clean_literal rfl (by decide)
  obtain ⟨hcode, hdesk, hstdout, -, hstderr, hunstyled⟩ :=
    color_only_decorates_iff (Logger.lawful_console none false) desk huncolors
      ⟨by simp [options, Options.default], by simp [options, Options.default]⟩
      (by simp [environment]) hreads
  exact ⟨hcode, hdesk, hstdout, hstderr.mpr (hunstyled (Logger.unstyled_console rfl))⟩

/--
The option that turns off color does not reach the logger.  If it uses styles, those of
the remark on a character that belongs to no token stay in the run without color.
-/
theorem styles_stay {asked? : Option String} {terminal : Bool}
    (hstyles : usesStyles asked? terminal = true) :
    let logger : Logger := .console asked? terminal
    let environment : Environment := ⟨false, none, false⟩
    let others : Options := { Options.default with noColor := true }
    let desk : Desk := ⟨"#".toUTF8, .empty⟩
    logger.Lawful ∧ Uncolors environment environment .default others ∧
      Options.default.Clean ∧
      (∀ text, (Options.default.plan environment).Reads desk text → Clean text) ∧
      unstyled (carriedOutAt environment .default desk).1.stderr ≠
        (carriedOutAt environment others desk).1.stderr := by
  intro logger environment others desk
  have huncolors : Uncolors environment environment .default others :=
    ⟨⟨true, rfl⟩, rfl, rfl, rfl, rfl⟩
  have hoptions : Options.default.Clean :=
    ⟨by simp [Options.default], by simp [Options.default]⟩
  have hreads : ∀ text, (Options.default.plan environment).Reads desk text →
      Clean text := by
    intro text hreads
    rw [hreads.eq_input rfl]
    exact clean_literal rfl (by decide)
  refine ⟨Logger.lawful_console _ _, huncolors, hoptions, hreads, ?_⟩
  obtain ⟨-, hiff⟩ := huncolors.unstyled_stderr desk (Logger.lawful_console _ _) hoptions
    (by simp) hreads
  rw [ne_eq, hiff]
  have hgets : Batch.Gets desk others "#" desk :=
    ⟨Batch.textAt_input "#" .empty rfl, rfl⟩
  have hbare : carriedOutAt environment others desk = _ :=
    batchAt_of_gets environment hgets
  have hitems : Scan.items "#" = [.stray '#' ⟨1, 1⟩] := by decide
  have hremark : .remark (.skipped '#' ⟨1, 1⟩) ∈
      (Batch.savedTold others "#" ++ (Batch.report others "#").transcript).err := by
    have hscan : .remark (.skipped '#' ⟨1, 1⟩) ∈ (scanLog "#").err := by
      simp [scanLog, hitems, Transcript.log, Console.Remark.ofItem]
    exact List.mem_append_right _ (List.mem_append_left _ (List.mem_append_left _
      (List.mem_append_left _ hscan)))
  have hescape :
      escape ∈ logger.written (logging environment others) (.skipped '#' ⟨1, 1⟩) := by
    have hshown : Console.Level.shown (Console.thresholdNamed "warn") .warn = true := by
      decide
    change escape ∈ if Console.Level.shown (Console.thresholdNamed "warn") .warn then
      Console.Remark.line (usesStyles asked? (terminal && true)) (.skipped '#' ⟨1, 1⟩)
      else []
    rw [if_pos hshown, Bool.and_true, hstyles]
    decide
  intro hclean
  rw [hbare] at hclean
  refine hclean ?_
  rw [Result.render, String.toList_append]
  exact List.mem_append_right _ (Transcript.mem_stderr _ hremark hescape)

/-- A logger that is asked for styles uses them at no terminal as well. -/
theorem styled_remark_without_color :
    let logger : Logger := .console (some "always") false
    let environment : Environment := ⟨false, none, false⟩
    let others : Options := { Options.default with noColor := true }
    let desk : Desk := ⟨"#".toUTF8, .empty⟩
    logger.Lawful ∧ Uncolors environment environment .default others ∧
      Options.default.Clean ∧
      (∀ text, (Options.default.plan environment).Reads desk text → Clean text) ∧
      unstyled (carriedOutAt environment .default desk).1.stderr ≠
        (carriedOutAt environment others desk).1.stderr :=
  styles_stay rfl

end Command

end Classlet
