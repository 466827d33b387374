import Classlet.Command.Program
import Classlet.Files.Desk
import Classlet.Proofs.Files.Keeping
import Classlet.Proofs.Report.Contents

/-!
# Batch runs at a desk

What a batch run answers, and the desk it leaves.  A run first gets its text: it is
read, and saved if that is asked for.  A run that gets none says nothing on standard
output.  What any other run answers depends on the text and on the options that shape
the report; in both formats it is one outcome that is told, as a JSON document or as a
verdict for a reader.  Log lines go to standard error alone, so no request for more of
them is seen on standard output.
-/

namespace Classlet

/-! ## Transcripts -/

namespace Console

@[simp] theorem render_plain (color : Bool) (text : String) :
    (plain text).render color = text.toList := by
  cases color <;> rfl

namespace Transcript

variable (first second third : Transcript)

@[simp] theorem out_append : (first ++ second).out = first.out ++ second.out := rfl

theorem append_assoc : first ++ second ++ third = first ++ (second ++ third) := by
  change append (append first second) third = append first (append second third)
  simp [append]

/-- A transcript without its log lines. -/
def unlogged (transcript : Transcript) : Transcript :=
  ⟨transcript.out, transcript.err.filter fun
    | .span _ => true
    | .remark _ => false⟩

@[simp] theorem unlogged_append :
    (first ++ second).unlogged = first.unlogged ++ second.unlogged := by
  change unlogged (append first second) = append first.unlogged second.unlogged
  simp [unlogged, append]

@[simp] theorem unlogged_log (remarks : List Remark) :
    (log remarks).unlogged = empty := by
  simp [unlogged, log, empty]

@[simp] theorem empty_append : empty ++ first = first := rfl

@[simp] theorem append_empty : first ++ empty = first := by
  change append first empty = first
  simp [append, empty]

@[simp] theorem unlogged_empty : empty.unlogged = empty := rfl

@[simp] theorem out_log (remarks : List Remark) : (log remarks).out = [] := rfl

@[simp] theorem out_say (lines : List Line) : (say lines).out = spansOf lines := rfl

end Transcript

end Console

/-! ## Outcomes for a reader -/

namespace Report

open Console (Transcript plain red redBold yellow greenBold dim)

/-- What a reader is shown of an outcome. -/
def Outcome.shown (source : String) : Outcome → Transcript
  | .success none => .say [[greenBold "Analysis completed successfully"]]
  | .success (some []) =>
      .say [[greenBold "Analysis completed successfully"], [dim "<no global symbols>"]]
  | .success (some symbols) =>
      .say ([greenBold "Analysis completed successfully"] ::
        symbols.map fun (name, ty) => [yellow name, plain s!": {ty.name}"])
  | .failure cause =>
      .complain ([[redBold cause.kind.label, plain ": ", red cause.message],
        [plain s!"  --> line {cause.position.line}, column {cause.position.column}"]] ++
          snippet source cause.position ++ advice cause)

theorem verdict_eq_shown (symbols : Bool) (source : String)
    (result : Except Fault Scope.Table) :
    verdict symbols source result = (Outcome.ofResult symbols result).shown source := by
  cases result with
  | error fault => rfl
  | ok globals =>
      cases symbols with
      | false => rfl
      | true =>
          obtain ⟨entries⟩ := globals
          cases entries <;> rfl

end Report

namespace Command

open Console (Logger Settings Transcript plain)
open Files (AtDesk Desk FileFault)

/-! ## Steps at a desk -/

theorem bind_run {First Second : Type} (first : AtDesk First)
    (second : First → AtDesk Second) (desk : Desk) :
    (first >>= second).run desk = (second (first.run desk).1).run (first.run desk).2 :=
  rfl

theorem writeFile_run (desk : Desk) (path source : String) :
    (Files.Host.writeFile path source : AtDesk (Except FileFault Unit)).run desk =
      desk.write path source :=
  rfl

namespace Batch

/-! ## Getting the text -/

/-- The text that a run at a desk reads. -/
def textAt (desk : Desk) (options : Options) : Except FileFault String :=
  match options.file? with
  | none => desk.inputText
  | some path => if Files.isInput path then desk.inputText else desk.read path

/-- What saving a text comes to, and the desk it leaves. -/
def savedAt (desk : Desk) (options : Options) (source : String) :
    Except FileFault Unit × Desk :=
  match options.save? with
  | none => (.ok (), desk)
  | some path => desk.write path source

/--
A run reads `source`, and saves it if that is asked for, which leaves the desk `after`.
-/
structure Gets (desk : Desk) (options : Options) (source : String) (after : Desk) :
    Prop where
  reads : textAt desk options = .ok source
  saves : savedAt desk options source = (.ok (), after)

/-- The text of a run cannot be read, or cannot be written where it is to be saved. -/
inductive Hindered (desk : Desk) (options : Options) : Prop where
  | unread (fault : FileFault) (h : textAt desk options = .error fault)
  | unsaved (source : String) (fault : FileFault)
      (hreads : textAt desk options = .ok source)
      (h : (savedAt desk options source).1 = .error fault)

theorem hindered_or_gets (desk : Desk) (options : Options) :
    Hindered desk options ∨ ∃ source after, Gets desk options source after := by
  cases hreads : textAt desk options with
  | error fault => exact .inl (.unread fault hreads)
  | ok source =>
      cases hsaved : savedAt desk options source with
      | mk saved after =>
          cases saved with
          | error fault => exact .inl (.unsaved source fault hreads (by rw [hsaved]))
          | ok done => exact .inr ⟨source, after, hreads, hsaved⟩

theorem textAt_input (text : String) (folder : Files.Folder) {options : Options}
    (h : options.file? = none) : textAt ⟨text.toUTF8, folder⟩ options = .ok text := by
  simp only [textAt, h, Desk.inputText]
  rw [Files.fromUTF8?_toUTF8]

/-! ## Running -/

/-- What a run says when it has saved its text. -/
def savedTold (options : Options) (source : String) : Transcript :=
  match options.save? with
  | none => .empty
  | some path => savedNotice options path source

variable {desk after : Desk} {options : Options} {source : String}

theorem readSource_run (desk : Desk) (options : Options) :
    (readSource options.file? : AtDesk (Except FileFault String)).run desk =
      (textAt desk options, desk) := by
  unfold readSource textAt
  cases options.file? with
  | none => rfl
  | some path =>
      by_cases hinput : Files.isInput path
      · simp only [hinput, if_true]
        rfl
      · simp only [hinput]
        rfl

theorem run_of_gets (h : Gets desk options source after) :
    (run options : AtDesk Result).run desk =
      (⟨(report options source).code,
        savedTold options source ++ (report options source).transcript⟩, after) := by
  obtain ⟨hreads, hsaves⟩ := h
  unfold savedAt at hsaves
  unfold savedTold
  cases hsave : options.save? with
  | none =>
      simp only [hsave] at hsaves
      cases hsaves
      simp only [run, bind_run, readSource_run, hreads, hsave]
      rfl
  | some path =>
      simp only [hsave] at hsaves
      simp only [run, bind_run, readSource_run, hreads, hsave, writeFile_run, hsaves]
      rfl

/-- A hindered run complains and says nothing else. -/
theorem run_of_hindered (h : Hindered desk options) :
    ∃ message, ((run options : AtDesk Result).run desk).1 = ⟨2, complaint message⟩ := by
  cases h with
  | unread fault h =>
      simp only [run, bind_run, readSource_run, h]
      exact ⟨_, rfl⟩
  | unsaved source fault hreads h =>
      unfold savedAt at h
      cases hsave : options.save? with
      | none =>
          simp only [hsave] at h
          cases h
      | some path =>
          simp only [hsave] at h
          simp only [run, bind_run, readSource_run, hreads, hsave, writeFile_run, h]
          exact ⟨_, rfl⟩

/-! ## Standard output -/

/-- What a table run says ahead of the verdict. -/
def preface (options : Options) (source : String) : Transcript :=
  scanLog source ++ countLog source ++ noteLog source ++
    if options.tokens then .say (Report.tokenTable (Scan.tokens source) ++ [[]])
    else .empty

theorem report_of_table (hformat : options.format = .table) :
    (report options source).transcript =
      preface options source ++
        (Report.Outcome.ofResult options.symbols (analyzeText source)).shown source := by
  simp only [report, shown, hformat, tableReport, preface, Report.verdict_eq_shown,
    Transcript.append_assoc]

theorem stdout_of_json (hformat : options.format = .json) (settings : Settings) :
    (savedTold options source ++ (report options source).transcript).stdout settings =
      (Report.document options.tokens options.symbols (Scan.items source)
        (analyzeText source)).pretty ++ "\n" := by
  have hsaved : (savedTold options source).out = [] := by
    unfold savedTold savedNotice
    cases options.save? <;> simp [hformat, Transcript.empty]
  have hreport : (report options source).transcript.out = [plain (Report.document options.tokens
      options.symbols (Scan.items source) (analyzeText source)).pretty, plain "\n"] := by
    simp [report, scanLog, countLog, noteLog, shown, hformat, jsonReport, Console.spansOf]
  simp only [Transcript.stdout, Transcript.out_append, hsaved, hreport, List.nil_append]
  simp [Console.render]

end Batch

open Json (Value)

/-- The answer of a batch run at a desk, and the desk it leaves. -/
def batchAt [Logger] (environment : Environment) (options : Options) (desk : Desk) :
    Answer × Desk :=
  ((Plan.batch (settings environment options) options).carryOut : AtDesk Answer).run desk

theorem batchAt_eq [Logger] (environment : Environment) (options : Options)
    (desk : Desk) :
    batchAt environment options desk =
      (((Batch.run options : AtDesk Result).run desk).1.render (settings environment options),
        ((Batch.run options : AtDesk Result).run desk).2) :=
  rfl

variable {environment : Environment} {options : Options} {desk after : Desk}
  {source : String}

theorem batchAt_of_gets [Logger] (environment : Environment)
    (h : Batch.Gets desk options source after) :
    batchAt environment options desk =
      (Result.render (settings environment options) ⟨(Batch.report options source).code,
        Batch.savedTold options source ++ (Batch.report options source).transcript⟩,
        after) := by
  rw [batchAt_eq, Batch.run_of_gets h]

theorem stdout_of_format_json [Logger] (environment : Environment)
    (hformat : options.format = .json) (h : Batch.Gets desk options source after) :
    (batchAt environment options desk).1.stdout =
      (Report.document options.tokens options.symbols (Scan.items source)
        (analyzeText source)).pretty ++ "\n" := by
  rw [batchAt_of_gets environment h]
  exact Batch.stdout_of_json hformat _

theorem document_of_format_json [Logger] (environment : Environment)
    (hformat : options.format = .json)
    (h : Batch.Gets desk options source after) (found : Value) :
    Json.Grammar.Document (batchAt environment options desk).1.stdout.toList found ↔
      found = (Report.document options.tokens options.symbols (Scan.items source)
        (analyzeText source)).value := by
  rw [stdout_of_format_json environment hformat h, String.toList_append]
  exact Json.document_pretty_iff _ (by simp [Json.Grammar.blanks]) found

/--
The JSON report of a text is one document with one meaning, from which the tokens, the
stray characters and the outcome can be read.
-/
theorem json_report_reads_back [Logger] (environment : Environment) (options : Options)
    (hformat : options.format = .json) (h : Batch.Gets desk options source after) :
    ∃ value,
      (∀ found, Json.Grammar.Document (batchAt environment options desk).1.stdout.toList found ↔
        found = value) ∧
      Report.Contents.ofValue? value =
        some ⟨if options.tokens then some (Scan.tokens source) else none, Scan.strays source,
          match analyzeText source with
          | .ok globals => .success (if options.symbols then some globals.entries else none)
          | .error fault => .failure fault.failure⟩ := by
  refine ⟨_, document_of_format_json environment hformat h, ?_⟩
  rw [Report.ofValue?_document]
  cases analyzeText source <;> rfl

/-- A string token with a backslash and a line break in it. -/
theorem json_report_reads_back_quoted :
    let source := "\"a\\\n\""
    let options := { Options.default with tokens := true, format? := some .json }
    ∃ value,
      (∀ found, Json.Grammar.Document
        (batchAt ⟨false, none, false⟩ options ⟨source.toUTF8, .empty⟩).1.stdout.toList found ↔
          found = value) ∧
      Report.Contents.ofValue? value = some ⟨some (Scan.tokens source), Scan.strays source,
        match analyzeText source with
        | .ok _ => .success none
        | .error fault => .failure fault.failure⟩ := by
  intro source options
  exact json_report_reads_back ⟨false, none, false⟩ options rfl
    ⟨Batch.textAt_input source .empty rfl, rfl⟩

/-! ## The contract -/

/-- The same options with another format, which gets the same text. -/
theorem Batch.Gets.withFormat (h : Batch.Gets desk options source after)
    (format : Format) :
    Batch.Gets desk { options with format? := some format } source after :=
  ⟨h.reads, h.saves⟩

/-- What is told in both formats once a run has its text. -/
structure TellsAlike [Logger] (environment : Environment) (options : Options)
    (desk : Desk) (source : String) (contents : Report.Contents) : Prop where
  asDocument : ∃ value,
    (∀ found, Json.Grammar.Document
      (batchAt environment { options with format? := some .json } desk).1.stdout.toList found ↔
        found = value) ∧
    Report.Contents.ofValue? value = some contents
  asTable : (batchAt environment { options with format? := some .table } desk).1 =
    Result.render (settings environment options)
      ⟨if (analyzeText source).isOk then 0 else 1,
        Batch.savedTold { options with format? := some .table } source ++
          (Batch.preface options source ++ contents.outcome.shown source)⟩

/-- A run has got its text, which leaves the desk `after`, and reports what it found. -/
structure Completes [Logger] (environment : Environment) (options : Options)
    (desk : Desk) (source : String) (after : Desk) : Prop where
  code : (batchAt environment options desk).1.code = if (analyzeText source).isOk then 0 else 1
  leaves : (batchAt environment options desk).2 = after
  saved : ∀ path, options.save? = some path → desk.folder.write path source = .ok after.folder ∧
    (desk.folder.Keeps path → after.folder.read path = .ok source)
  document : options.format = .json → ∃ text value,
    (batchAt environment options desk).1.stdout = text ++ "\n" ∧
      Json.Grammar.Denotes text.toList value []
  alike : ∃ contents, TellsAlike environment options desk source contents ∧
    contents.outcome = .ofResult options.symbols (analyzeText source)

theorem folder_write_of_desk_write {path : String}
    (h : desk.write path source = (.ok (), after)) :
    desk.folder.write path source = .ok after.folder := by
  unfold Desk.write at h
  split at h
  · cases h
    assumption
  · cases h

theorem completes [Logger] (environment : Environment)
    (h : Batch.Gets desk options source after) :
    Completes environment options desk source after where
  code := by
    rw [batchAt_of_gets environment h]
    rfl
  leaves := by rw [batchAt_of_gets environment h]
  saved path hsave := by
    have hwrite : desk.write path source = (.ok (), after) := by
      simpa [Batch.savedAt, hsave] using h.saves
    have hfolder := folder_write_of_desk_write hwrite
    exact ⟨hfolder, fun hkeeps => Files.Folder.read_of_write hkeeps hfolder⟩
  document hformat :=
    ⟨_, _, stdout_of_format_json environment hformat h, Json.denotes_pretty _⟩
  alike := by
    refine ⟨_, ⟨⟨_, document_of_format_json environment rfl (h.withFormat .json),
      Report.ofValue?_document _ _ _ _⟩, ?_⟩, rfl⟩
    rw [batchAt_of_gets environment (h.withFormat .table), Batch.report_of_table rfl]
    rfl

/--
What a batch run at any desk promises, whatever the options.  Standard output depends
on no request for more remarks.  A run that cannot read its text, or cannot save it,
has the exit code 2 and says nothing there.  Any other run has the exit code of its
analysis, leaves the text where it is to be saved, and tells the same outcome in both
formats.  The file to which the text is saved is apart from standard output: at a desk
no path leads there, as `/dev/stdout` does on some systems.
-/
theorem batch_run_contract [Logger] (environment : Environment) (options : Options)
    (desk : Desk) :
    (∀ other count, other.noColor = environment.noColor →
      (batchAt other { options with verbosity := count } desk).1.stdout =
        (batchAt environment options desk).1.stdout) ∧
    (Batch.Hindered desk options →
      (batchAt environment options desk).1.code = 2 ∧
        (batchAt environment options desk).1.stdout = "") ∧
    (∀ source after, Batch.Gets desk options source after →
      Completes environment options desk source after) ∧
    (Batch.Hindered desk options ∨ ∃ source after, Batch.Gets desk options source after) := by
  refine ⟨fun other count hcolor => ?_, fun hhindered => ?_, fun source after => ?_,
    Batch.hindered_or_gets desk options⟩
  · have hsame : (settings other { options with verbosity := count }).color =
        (settings environment options).color := by
      simp [settings, hcolor]
    have hrun : (Batch.run { options with verbosity := count } : AtDesk Result) =
        Batch.run options := rfl
    rw [batchAt_eq, batchAt_eq, hrun]
    simp only [Result.render, Transcript.stdout, hsame]
  · obtain ⟨message, hrun⟩ := Batch.run_of_hindered hhindered
    rw [batchAt_eq, hrun]
    exact ⟨rfl, rfl⟩
  · exact completes environment

theorem batch_run_contract_kept_and_gone :
    (∃ after, Completes ⟨false, none, false⟩
        { Options.default with format? := some .json, save? := some "kept.cs" }
        ⟨"class".toUTF8, .empty⟩ "class" after ∧
      after.folder.read "kept.cs" = .ok "class") ∧
    (batchAt ⟨false, none, false⟩ { Options.default with file? := some "gone.cs" }
      ⟨.empty, .empty⟩).1.code = 2 := by
  have hkeeps : Files.Folder.empty.Keeps "kept.cs" := by
    intro parsed hparsed
    have hplain :
        Files.Path.parse "kept.cs" = .ok ⟨false, [.down "kept.cs"], false⟩ := by decide
    rw [hplain] at hparsed
    cases hparsed
    decide
  have hkept := (batch_run_contract ⟨false, none, false⟩
    { Options.default with format? := some .json, save? := some "kept.cs" }
    ⟨"class".toUTF8, .empty⟩).2.2.1 "class" _ ⟨Batch.textAt_input "class" .empty rfl, rfl⟩
  have hgone := (batch_run_contract ⟨false, none, false⟩
    { Options.default with file? := some "gone.cs" } ⟨.empty, .empty⟩).2.1
    (.unread .notFound rfl)
  exact ⟨⟨_, hkept, (hkept.saved "kept.cs" rfl).2 hkeeps⟩, hgone.1⟩

end Command

end Classlet
